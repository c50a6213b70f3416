import Mathlib.Algebra.Order.Floor.Div
import Supervisor.Proofs.Frames.Ownership

/-!
# Exact reservations

What a frame map is when it was just built. Spans are ranges of bytes, and they overlap, begin
and end within pages, and run past the end of memory.

- `Span.Meets`: a frame has a byte in a span. The frames that a span puts in use are those
  (`mem_frames_iff`).
- `FrameMap.buildIn`: building in place, with the words of the storage as they are left behind.
- `FrameMap.Reserves`: the frames in use are those that meet a reserved span, and each of them
  is counted once (`build_reserves`).
-/

namespace Supervisor

/-- A byte of the frame lies in the span. -/
def Span.Meets (span : Span) (frame : Nat) : Prop :=
  ∃ x, span.start ≤ x ∧ x < span.stop ∧ frame * Page.bytes ≤ x ∧ x < (frame + 1) * Page.bytes

theorem Span.meets_iff {span : Span} {frame : Nat} : span.Meets frame ↔
    max span.start (frame * Page.bytes) < min span.stop ((frame + 1) * Page.bytes) := by
  constructor
  · rintro ⟨x, hstart, hstop, hlow, hhigh⟩
    omega
  · intro h
    exact ⟨max span.start (frame * Page.bytes), by omega, by omega, by omega, by omega⟩

instance (span : Span) (frame : Nat) : Decidable (span.Meets frame) :=
  decidable_of_iff _ Span.meets_iff.symm

namespace FrameMap

/-- The frames below `total` that meet one of the spans. -/
def touched (total : Nat) (reserved : List Span) : Finset Nat :=
  {i ∈ Finset.range total | ∃ span ∈ reserved, span.Meets i}

/-- Builds a map in place. The storage is written to when it is known to be long enough. -/
def buildIn (upperBound : Nat) (reserved : List Span) :
    EStateM Fault (Array (BitVec 64)) (Except FrameError FrameMap) := do
  let storage ← get
  let needed := wordCount (upperBound / Page.bytes)
  if storage.size < needed then
    return .error (.bitmapTooSmall needed storage.size)
  set (blank upperBound storage).storage
  match (reserved.forM reserve).run (blank upperBound storage) with
  | .ok () f =>
    set f.storage
    return .ok f
  | .error e f =>
    set f.storage
    throw e

/-- A map that was built has the frames in use that were to be reserved:
1. it tracks the frames of the memory;
2. a frame is in use if it meets one of the spans, and free if it does not;
3. the frames in use are counted once each;
4. the bits behind the last frame, and the words that are not used, are in order. -/
structure Reserves (upperBound : Nat) (storage : Array (BitVec 64)) (reserved : List Span)
    (f : FrameMap) : Prop where
  total : f.total = upperBound / Page.bytes
  inUse : ∀ i < f.total,
    f.inUseAt (i * Page.bytes) = .ok (decide (∃ span ∈ reserved, span.Meets i))
  counter : f.free + (touched f.total reserved).card = f.total
  accounted : Accounted upperBound storage f

section Reserved

variable {upperBound : Nat} {storage : Array (BitVec 64)} {reserved : List Span} {f : FrameMap}

theorem mem_frames_iff {span : Span} {total i : Nat} (h : span.start < span.stop) :
    i ∈ span.frames total ↔ i < total ∧ span.Meets i := by
  rw [Span.frames, Finset.mem_filter, Finset.mem_range, Span.meets_iff]
  unfold Page.bytes
  omega

/-- The number of words, as it is known from arithmetic. -/
theorem wordCount_eq_ceilDiv (frames : Nat) : wordCount frames = frames ⌈/⌉ wordBits :=
  (Nat.ceilDiv_eq_add_pred_div frames wordBits).symm

theorem build_of_short (h : storage.size < wordCount (upperBound / Page.bytes)) :
    build upperBound storage reserved =
      .ok (.error (.bitmapTooSmall (wordCount (upperBound / Page.bytes)) storage.size)) :=
  if_pos h

/-- Building in place answers like `build`, and leaves the words of the map that was built behind,
or the storage as it was if there is none. -/
theorem run_buildIn {answer : Except FrameError FrameMap}
    (h : build upperBound storage reserved = .ok answer) :
    (buildIn upperBound reserved).run storage =
      .ok answer (answer.toOption.elim storage FrameMap.storage) := by
  rw [buildIn, run_get_bind]
  by_cases hshort : storage.size < wordCount (upperBound / Page.bytes)
  · rw [build_of_short hshort] at h
    obtain rfl := Except.ok.inj h
    rw [if_pos hshort]
    rfl
  · rw [build, if_neg hshort] at h
    rw [if_neg hshort, run_bind_ok (EStateM.run_set _ _)]
    cases hrun : (reserved.forM reserve).run (blank upperBound storage) with
    | ok _ f =>
      simp only [hrun] at h
      obtain rfl := Except.ok.inj h
      rfl
    | error e f =>
      simp only [hrun] at h
      contradiction

/-- The frames in use are those that meet a reserved span. -/
theorem bit_of_build_eq (hbound : upperBound < wordLimit)
    (hspans : ∀ span ∈ reserved, span.start < span.stop)
    (hbuild : build upperBound storage reserved = .ok (.ok f)) {i : Nat} (hi : i < f.total) :
    f.bit i = decide (∃ span ∈ reserved, span.Meets i) := by
  rw [Bool.eq_iff_iff, bit_of_build hbound hbuild hi, decide_eq_true_iff]
  refine exists_congr fun span => and_congr_right fun hspan => ?_
  rw [mem_frames_iff (hspans span hspan)]
  exact and_iff_right hi

/-- A frame is free or touched. -/
theorem free_add_card_touched (hf : Sound f)
    (hbit : ∀ i < f.total, f.bit i = decide (∃ span ∈ reserved, span.Meets i)) :
    f.free + (touched f.total reserved).card = f.total := by
  have hfree : f.freeFrames = {i ∈ Finset.range f.total | ¬ ∃ span ∈ reserved, span.Meets i} := by
    ext i
    rw [mem_freeFrames, Finset.mem_filter, Finset.mem_range]
    refine and_congr_right fun hi => ?_
    rw [hbit i hi, decide_eq_false_iff_not]
  rw [hf.counter, hfree, touched, Nat.add_comm, Finset.card_filter_add_card_filter_not,
    Finset.card_range]

theorem reserves_of_build (hbound : upperBound < wordLimit)
    (hspans : ∀ span ∈ reserved, span.start < span.stop)
    (hbuild : build upperBound storage reserved = .ok (.ok f)) :
    Reserves upperBound storage reserved f := by
  obtain ⟨hf, hsets⟩ := build_spec hbound hbuild
  have hbit : ∀ i < f.total, f.bit i = decide (∃ span ∈ reserved, span.Meets i) :=
    fun i hi => bit_of_build_eq hbound hspans hbuild hi
  refine ⟨hsets.total, ?_, free_add_card_touched hf hbit, hf.accounted hsets.sameBounds⟩
  intro i hi
  rw [inUseAt, Nat.mul_div_cancel _ (by decide), if_neg (Nat.not_le.mpr hi), inUse_eq_ok hi,
    hbit i hi]

/-- Building a map over a storage that is too short says so and leaves it alone. Otherwise a map
is built, and it reserves what was to be reserved. -/
theorem build_reserves (storage : Array (BitVec 64)) (hbound : upperBound < wordLimit)
    (hspans : ∀ span ∈ reserved, span.start < span.stop) :
    (storage.size < upperBound / Page.bytes ⌈/⌉ wordBits →
      build upperBound storage reserved =
        .ok (.error (.bitmapTooSmall (upperBound / Page.bytes ⌈/⌉ wordBits) storage.size)) ∧
      (buildIn upperBound reserved).run storage =
        .ok (.error (.bitmapTooSmall (upperBound / Page.bytes ⌈/⌉ wordBits) storage.size))
          storage) ∧
    (upperBound / Page.bytes ⌈/⌉ wordBits ≤ storage.size →
      ∃ f, build upperBound storage reserved = .ok (.ok f) ∧
        (buildIn upperBound reserved).run storage = .ok (.ok f) f.storage ∧
        Reserves upperBound storage reserved f) := by
  rw [← wordCount_eq_ceilDiv]
  constructor
  · intro hshort
    exact ⟨build_of_short hshort, run_buildIn (build_of_short hshort)⟩
  · intro hroom
    obtain ⟨f, hbuild, -⟩ := exists_build upperBound storage reserved hbound hroom
    exact ⟨f, hbuild, run_buildIn hbuild, reserves_of_build hbound hspans hbuild⟩

/-- Of seventy frames, two spans that overlap within a page touch the first three, and one that
runs past the end of memory touches the last. A single word is too short for them. -/
theorem seventy_reserves :
    (buildIn 0x46000 [⟨0x1fff, 0x2001⟩, ⟨0, 0x2000⟩, ⟨0x45fff, 0xffffffffffffffff⟩]).run #[7] =
        .ok (.error (.bitmapTooSmall 2 1)) #[7] ∧
      ∃ f, build 0x46000 #[7, 7, 7]
          [⟨0x1fff, 0x2001⟩, ⟨0, 0x2000⟩, ⟨0x45fff, 0xffffffffffffffff⟩] = .ok (.ok f) ∧
        f.inUseAt 0x2000 = .ok true ∧ f.inUseAt 0x3000 = .ok false ∧
        f.inUseAt 0x45000 = .ok true ∧ f.free = 66 ∧ f.storage[2]? = some 7 := by
  have hspans : ∀ span ∈ [⟨0x1fff, 0x2001⟩, ⟨0, 0x2000⟩, (⟨0x45fff, 0xffffffffffffffff⟩ : Span)],
      span.start < span.stop := by decide
  have hbound : 0x46000 < wordLimit := by decide
  refine ⟨((build_reserves #[7] hbound hspans).1 (by decide)).2, ?_⟩
  obtain ⟨f, hbuild, -, htotal, hinUse, hcounter, haccounted⟩ :=
    (build_reserves #[7, 7, 7] hbound hspans).2 (by decide)
  replace htotal : f.total = 70 := htotal
  rw [htotal] at hinUse hcounter
  refine ⟨f, hbuild, hinUse 2 (by decide), hinUse 3 (by decide), hinUse 69 (by decide), ?_,
    haccounted.beyond 2 (by decide)⟩
  have hcard : (touched 70 [⟨0x1fff, 0x2001⟩, ⟨0, 0x2000⟩,
      ⟨0x45fff, 0xffffffffffffffff⟩]).card = 4 := by decide
  omega

end Reserved

end FrameMap

end Supervisor

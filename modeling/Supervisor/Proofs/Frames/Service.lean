import Supervisor.Proofs.Frames.Ownership

/-!
# Exact requests

What a frame map in service does with the requests for frames, and with those that give
frames back, however the requests before them were put together.

- `FrameMap.InService`: the maps that were built and have answered any requests since.
- `FrameMap.TakesLowest`: an allocation of the lowest run of free frames. Runs are allocated
  like this and so is a single frame, for which the search over words and the search for runs
  come to the same (`inService_firstFit`).
- `FrameMap.Frees`: what giving back a range of pages changes. The pages may as well be given
  back one by one, in any order (`run_pages`, `inService_frees`).
-/

namespace Supervisor

namespace FrameMap

/-- A map of the memory below `upperBound` that was built over a storage, and what requests of
any kind made of it since. -/
inductive InService (upperBound : Nat) (storage : Array (BitVec 64)) (reserved : List Span) :
    FrameMap → Prop
  | built {f : FrameMap} : upperBound < wordLimit →
    build upperBound storage reserved = .ok (.ok f) → InService upperBound storage reserved f
  | answered {f f' : FrameMap} {r : Request} {answer : Option Nat} :
    InService upperBound storage reserved f → r.perform.run f = .ok answer f' →
    InService upperBound storage reserved f'

/-- An allocation takes the lowest run of `count` free frames:
1. if there is a run, the answer is the address of the least start of one; exactly its bits
   are set, and its frames are taken from the counter;
2. the answer is nothing, with nothing changed, exactly if there is no run. -/
structure TakesLowest (x : FrameM (Option Nat)) (count : Nat) (f : FrameMap) : Prop where
  granted : (∃ s, f.IsRun count s) → ∃ s f', f.IsRun count s ∧ (∀ t < s, ¬ f.IsRun count t) ∧
    x.run f = .ok (some (s * Page.bytes)) f' ∧ Sets true (Finset.Ico s (s + count)) f f' ∧
    f'.free + count = f.free
  refused : x.run f = .ok none f ↔ ¬ ∃ s, f.IsRun count s

/-- From `f` to `f'` the pages of a range were given back:
1. free are the frames that were free, and those of the range, if it starts at a page, that
   are frames of the map and not in low memory;
2. the counter grew by the frames that became free;
3. no other bit of the storage changed. -/
structure Frees (f : FrameMap) (address count : Nat) (f' : FrameMap) : Prop where
  free : ∀ i, i ∈ f'.freeFrames ↔ i ∈ f.freeFrames ∨
    address % Page.bytes = 0 ∧ address / Page.bytes ≤ i ∧ i < address / Page.bytes + count ∧
      lowMemory / Page.bytes ≤ i ∧ i < f.total
  counter : f'.free = f.free + (f'.freeFrames \ f.freeFrames).card
  kept : Sets false (f.covered address count) f f'

/-- The addresses of the pages of a range, as far as they are words. -/
def pages (address count : Nat) : Set Nat :=
  {x | x < wordLimit ∧ ∃ k < count, x = address + k * Page.bytes}

section Service

variable {upperBound : Nat} {storage : Array (BitVec 64)} {reserved : List Span}
  {f f' : FrameMap} {count address : Nat}

theorem InService.sound (h : InService upperBound storage reserved f) : Sound f := by
  induction h with
  | built hbound hbuild => exact (build_spec hbound hbuild).1
  | answered _ hrun ih => exact (ih.effect hrun).1

/-! ## First fit -/

/-- The answer of a search for the first run, and what it stands for. -/
theorem takesLowest_of_cases {x : FrameM (Option Nat)} (hf : Sound f)
    (h : f.FirstRun count 0 none ∧ x.run f = .ok none f ∨
      ∃ s f', f.FirstRun count 0 (some s) ∧ x.run f = .ok (some (s * Page.bytes)) f' ∧
        Sound f' ∧ Sets true (Finset.Ico s (s + count)) f f') : TakesLowest x count f := by
  rcases h with ⟨hnone, hrun⟩ | ⟨s, f', ⟨-, hs, hleast⟩, hrun, hf', hsets⟩
  · have hno : ¬ ∃ s, f.IsRun count s := fun ⟨s, hs⟩ => hnone s (Nat.zero_le s) hs
    exact ⟨fun hsome => absurd hsome hno, iff_of_true hrun hno⟩
  · have hfree := hsets.free_add_card hf hf' hs.subset_freeFrames
    rw [Nat.card_Ico, Nat.add_sub_cancel_left] at hfree
    refine ⟨fun _ => ⟨s, f', hs, fun t => hleast t (Nat.zero_le t), hrun, hsets, hfree⟩,
      iff_of_false ?_ fun hno => hno ⟨s, hs⟩⟩
    intro hnone
    rw [hrun] at hnone
    injection hnone with hanswer
    contradiction

/-- The search over words and the search for runs find the same single frame. -/
theorem run_allocFrame_eq (hf : Sound f) : allocFrame.run f = (allocSearch 1).run f := by
  rcases allocFrame_cases hf with ⟨hnone, hrun⟩ | ⟨s, f', hfirst, hrun, hf', hsets⟩ <;>
    rcases allocSearch_cases hf Nat.one_pos with
      ⟨hnone', hrun'⟩ | ⟨s', f'', hfirst', hrun', hf'', hsets'⟩
  · rw [hrun, hrun']
  · exact nomatch hnone.unique hfirst'
  · exact nomatch hfirst.unique hnone'
  · obtain rfl := Option.some.inj (hfirst.unique hfirst')
    obtain rfl := hsets.unique hsets' hf' hf''
    rw [hrun, hrun']

/-- Whatever a map in service has been through, runs and single frames are taken first fit, and
a single frame is the one that the search for runs finds. -/
theorem inService_firstFit (h : InService upperBound storage reserved f) (hpos : 0 < count) :
    TakesLowest (allocRun count) count f ∧ TakesLowest allocFrame 1 f ∧
      allocFrame.run f = (allocSearch 1).run f := by
  have hf := h.sound
  refine ⟨takesLowest_of_cases hf ?_, takesLowest_of_cases hf (allocFrame_cases hf),
    run_allocFrame_eq hf⟩
  rcases allocRun_cases hf count with ⟨hnone, hrun⟩ | ⟨s, f', -, hgranted⟩
  · exact .inl ⟨hnone.resolve_left (Nat.ne_of_gt hpos), hrun⟩
  · exact .inr ⟨s, f', hgranted⟩

/-- Two megabytes in which frame 259 is in use, beside low memory. -/
theorem exists_obstructed :
    ∃ f, InService 0x200000 (Array.replicate 8 0) [⟨0, lowMemory⟩, ⟨0x103000, 0x104000⟩] f ∧
      f.total = 512 ∧ ∀ i < 512, f.bit i = decide (i < 256 ∨ i = 259) := by
  obtain ⟨f, hbuild, -, hsets⟩ := exists_build 0x200000 (Array.replicate 8 0)
    [⟨0, lowMemory⟩, ⟨0x103000, 0x104000⟩] (by decide) (by decide)
  have htotal : f.total = 512 := hsets.total
  refine ⟨f, .built (by decide) hbuild, htotal, ?_⟩
  intro i hi
  rw [Bool.eq_iff_iff, bit_of_build (by decide) hbuild (by omega), htotal, decide_eq_true_iff]
  simp [Span.frames]
  unfold lowMemory Page.bytes
  omega

/-- Four frames are found right behind the frame in use, and one in front of it. -/
theorem obstructed_firstFit :
    ∃ f, InService 0x200000 (Array.replicate 8 0) [⟨0, lowMemory⟩, ⟨0x103000, 0x104000⟩] f ∧
      (∃ f', (allocRun 4).run f = .ok (some 0x104000) f' ∧ f'.free + 4 = f.free) ∧
      ∃ f', allocFrame.run f = .ok (some 0x100000) f' ∧ f'.free + 1 = f.free := by
  obtain ⟨f, hservice, htotal, hbit⟩ := exists_obstructed
  obtain ⟨hrun, hframe, -⟩ := inService_firstFit hservice (show 0 < 4 by decide)
  have hfree : ∀ i < 512, f.bit i = false ↔ 256 ≤ i ∧ i ≠ 259 := by
    intro i hi
    rw [hbit i hi, decide_eq_false_iff_not]
    omega
  refine ⟨f, hservice, ?_, ?_⟩
  · have hbehind : f.IsRun 4 260 :=
      ⟨by omega, fun i hlo hhi => (hfree i (by omega)).mpr (by omega)⟩
    obtain ⟨s, f', hs, hleast, hanswer, -, hcount⟩ := hrun.granted ⟨260, hbehind⟩
    -- a lower run would start in low memory or reach frame 259
    obtain rfl : s = 260 := by
      have hle : s ≤ 260 := Nat.le_of_not_lt fun hlt => hleast 260 hlt hbehind
      have hfirst := (hfree s (by omega)).mp (hs.2 s (Nat.le_refl s) (by omega))
      by_contra hne
      exact absurd ((hfree 259 (by omega)).mp (hs.2 259 (by omega) (by omega))).2 (by decide)
    exact ⟨f', hanswer, hcount⟩
  · have hfront : f.IsRun 1 256 := isRun_one.mpr ⟨by omega, (hfree 256 (by omega)).mpr (by omega)⟩
    obtain ⟨s, f', hs, hleast, hanswer, -, hcount⟩ := hframe.granted ⟨256, hfront⟩
    obtain rfl : s = 256 := by
      have hle : s ≤ 256 := Nat.le_of_not_lt fun hlt => hleast 256 hlt hfront
      have hfirst := (hfree s (by omega)).mp (isRun_one.mp hs).2
      omega
    exact ⟨f', hanswer, hcount⟩

/-! ## Giving back -/

/-- Giving back frames of a map makes them free and counts them. -/
theorem Sets.frees (h : Sets false (f.covered address count) f f') (hf : Sound f)
    (hf' : Sound f') : Frees f address count f' := by
  have hfree : f'.freeFrames = f.freeFrames ∪ f.covered address count :=
    h.free_false fun i hi => (mem_covered.mp hi).1
  refine ⟨?free, ?counter, h⟩
  case free =>
    intro i
    rw [hfree, Finset.mem_union, mem_covered]
    tauto
  case counter =>
    have hsub : f.freeFrames ⊆ f'.freeFrames := hfree ▸ Finset.subset_union_left
    rw [hf'.counter, hf.counter, Nat.add_comm, Finset.card_sdiff_add_card_eq_card hsub]

/-- The frames of a range are those of its pages. -/
theorem biUnion_covered (hf : Sound f) {xs : List Nat}
    (hxs : ∀ x, x ∈ xs ↔ x ∈ pages address count) :
    xs.toFinset.biUnion (f.covered · 1) = f.covered address count := by
  ext i
  simp only [Finset.mem_biUnion, List.mem_toFinset, hxs, mem_covered, pages, Set.mem_ofPred_eq]
  constructor
  · rintro ⟨x, ⟨-, k, hk, rfl⟩, htotal, haligned, hlow, hle, hlt⟩
    unfold Page.bytes at *
    omega
  · rintro ⟨htotal, haligned, hlow, hle, hlt⟩
    have hword : i * Page.bytes < wordLimit :=
      Nat.lt_of_le_of_lt (Nat.mul_le_mul_right _ (Nat.le_of_lt htotal)) hf.addressable
    have hpage : i * Page.bytes = address + (i - address / Page.bytes) * Page.bytes := by
      unfold Page.bytes at *
      omega
    refine ⟨i * Page.bytes, ⟨hword, i - address / Page.bytes, by omega, hpage⟩, htotal,
      Nat.mul_mod_left _ _, hlow, ?_⟩
    rw [Nat.mul_div_cancel _ (by decide)]
    exact ⟨Nat.le_refl i, Nat.lt_succ_self i⟩

/-- Giving back the pages of a range one by one, in any order, is giving back the range. -/
theorem run_pages (hf : Sound f) {xs : List Nat} (hxs : ∀ x, x ∈ xs ↔ x ∈ pages address count) :
    ∃ f', (xs.forM freeFrame).run f = .ok () f' ∧ Sound f' ∧
      Sets false (f.covered address count) f f' := by
  obtain ⟨f', hrun, ⟨hf', -⟩, hsets⟩ := run_forM (g := freeFrame) (s := (f.covered · 1))
    (b := false) (l := xs) (P := fun g => Sound g ∧ g.total = f.total) ⟨hf, rfl⟩
    fun x _ g ⟨hg, htotal⟩ => by
      obtain ⟨g', hrun, hg', hsets⟩ := run_freeFrame hg x
      have hsame : g.covered x 1 = f.covered x 1 := by rw [covered, covered, htotal]
      exact ⟨g', hrun, ⟨hg', hsets.total.trans htotal⟩, hsame ▸ hsets⟩
  rw [biUnion_covered hf hxs] at hsets
  exact ⟨f', hrun, hf', hsets⟩

/-- Whatever a map in service has been through, giving back a range of pages frees exactly
those of its frames that may be given back, and so does giving back its pages one by one, in
any order. -/
theorem inService_frees (h : InService upperBound storage reserved f) (address count : Nat) :
    ∃ f', (freeRun address count).run f = .ok () f' ∧ Frees f address count f' ∧
      ∀ xs : List Nat, (∀ x, x ∈ xs ↔ x ∈ pages address count) →
        (xs.forM freeFrame).run f = .ok () f' := by
  have hf := h.sound
  obtain ⟨f', hrun, hf', hsets⟩ := run_freeRun hf address count
  refine ⟨f', hrun, hsets.frees hf hf', fun xs hxs => ?_⟩
  obtain ⟨f'', hrun', hf'', hsets'⟩ := run_pages hf hxs
  rw [hrun', hsets'.unique hsets hf'' hf']

/-- Of a range that starts below low memory's end and wraps around the address space, the frame
in use is freed, and low memory is not. Of its first pages, given back last page first, so is
the same frame. -/
theorem obstructed_frees :
    ∃ f f', InService 0x200000 (Array.replicate 8 0) [⟨0, lowMemory⟩, ⟨0x103000, 0x104000⟩] f ∧
      (freeRun 0xff000 0xffffffffffffffff).run f = .ok () f' ∧ 259 ∈ f'.freeFrames ∧
      255 ∉ f'.freeFrames ∧ f'.free = f.free + 1 ∧
      ([0x103000, 0x102000, 0x101000, 0x100000, 0xff000].forM freeFrame).run f
        = (freeRun 0xff000 5).run f := by
  obtain ⟨f, hservice, htotal, hbit⟩ := exists_obstructed
  obtain ⟨f', hrun, ⟨hfree, hcounter, -⟩, -⟩ :=
    inService_frees hservice 0xff000 0xffffffffffffffff
  obtain ⟨f'', hrun', -, hpages⟩ := inService_frees hservice 0xff000 5
  have hmem : ∀ i, i ∈ f.freeFrames ↔ i < 512 ∧ 256 ≤ i ∧ i ≠ 259 := by
    intro i
    rw [mem_freeFrames, htotal]
    refine and_congr_right fun hi => ?_
    rw [hbit i hi, decide_eq_false_iff_not]
    omega
  have hmem' : ∀ i, i ∈ f'.freeFrames ↔ i < 512 ∧ 256 ≤ i := by
    intro i
    rw [hfree, hmem, htotal]
    unfold lowMemory Page.bytes
    omega
  have hnew : f'.freeFrames \ f.freeFrames = {259} := by
    ext i
    rw [Finset.mem_sdiff, hmem, hmem', Finset.mem_singleton]
    omega
  refine ⟨f, f', hservice, hrun, (hmem' 259).mpr (by decide), ?_, ?_, ?_⟩
  · rw [hmem']
    decide
  · rw [hcounter, hnew, Finset.card_singleton]
  · rw [hrun', hpages]
    intro x
    simp only [List.mem_cons, List.not_mem_nil, or_false, pages, Set.mem_ofPred_eq, Page.bytes]
    constructor
    · rintro (rfl | rfl | rfl | rfl | rfl)
      · exact ⟨by decide, 4, by decide, rfl⟩
      · exact ⟨by decide, 3, by decide, rfl⟩
      · exact ⟨by decide, 2, by decide, rfl⟩
      · exact ⟨by decide, 1, by decide, rfl⟩
      · exact ⟨by decide, 0, by decide, rfl⟩
    · rintro ⟨-, k, hk, rfl⟩
      omega

end Service

end FrameMap

end Supervisor

import Supervisor.Proofs.Frames.Search

/-!
# What the operations on a frame map do

Each operation on a sound map goes through, leaves a sound map, and changes the
bits of certain frames only:

- `run_reserve`: those with a byte in the span, `Span.frames`.
- `exists_build`: a map is built whenever its storage is long enough, and then
  the frames of the reserved spans are in use, and no others.
- `allocFrame_cases`, `allocRun_cases`: those of the first run that is long
  enough, or none if there is no such run.
- `run_freeFrame`, `run_freeRun`: those that the request is about and that may be
  given back, `FrameMap.covered`.
-/

namespace Supervisor

/-- The frames below `total` that a span starts in or runs over. -/
def Span.frames (total : Nat) (span : Span) : Finset Nat :=
  {i ∈ Finset.range total |
    span.start / Page.bytes ≤ i ∧ i < (span.stop + (Page.bytes - 1)) / Page.bytes}

namespace FrameMap

/-- The frames that giving back `count` pages from `address` on is about: from a page
boundary on, not in low memory, and frames of the map. -/
def covered (f : FrameMap) (address count : Nat) : Finset Nat :=
  {i ∈ Finset.range f.total | address % Page.bytes = 0 ∧ lowMemory / Page.bytes ≤ i ∧
    address / Page.bytes ≤ i ∧ i < address / Page.bytes + count}

section Effects

variable {f f' : FrameMap} {b : Bool} {address count i : Nat}

/-- Programs that each change the bits of some frames, one after the other. -/
theorem run_forM {ι : Type} [DecidableEq ι] {g : ι → FrameM Unit} {s : ι → Finset Nat}
    {P : FrameMap → Prop} {l : List ι} (hf : P f)
    (hstep : ∀ x ∈ l, ∀ f, P f → ∃ f', (g x).run f = .ok () f' ∧ P f' ∧ Sets b (s x) f f') :
    ∃ f', (l.forM g).run f = .ok () f' ∧ P f' ∧ Sets b (l.toFinset.biUnion s) f f' := by
  induction l generalizing f with
  | nil => exact ⟨f, rfl, hf, .refl b f⟩
  | cons x l ih =>
    obtain ⟨f₁, hrun, hf₁, hsets⟩ := hstep x List.mem_cons_self f hf
    obtain ⟨f', hrest, hf', hsets'⟩ := ih hf₁ fun y hy => hstep y (List.mem_cons_of_mem x hy)
    refine ⟨f', ?_, hf', ?_⟩
    · show (g x >>= fun _ => l.forM g).run f = _
      rw [run_bind_ok hrun, hrest]
    · rw [List.toFinset_cons, Finset.biUnion_insert]
      exact hsets.union hsets'

/-! ## Reserving -/

/-- A free frame is put in use. -/
theorem run_take (hf : Sound f) (hi : i < f.total) (hbit : f.bit i = false) :
    ∃ f', (mark i >>= fun _ => subFree 1).run f = .ok () f' ∧ Sound f' ∧ Sets true {i} f f' := by
  obtain ⟨f₁, hmark, hfree, hsets⟩ := run_mark hf.room hi
  have hsub : {i} ⊆ f.freeFrames :=
    Finset.singleton_subset_iff.mpr (mem_freeFrames.mpr ⟨hi, hbit⟩)
  have hone : 1 ≤ f₁.free := by
    rw [hfree, hf.counter]
    exact Finset.card_pos.mpr ⟨i, hsub (Finset.mem_singleton_self i)⟩
  refine ⟨{ f₁ with free := f₁.free - 1 }, ?_, ?_, hsets.with_free _⟩
  · rw [run_bind_ok hmark, run_subFree hone]
  · refine (hsets.with_free _).sound_take hf hsub ?_
    rw [Finset.card_singleton]
    exact congrArg (· - 1) hfree

theorem run_reserveFrame (hf : Sound f) (hi : i < f.total) :
    ∃ f', (reserveFrame i).run f = .ok () f' ∧ Sound f' ∧ Sets true {i} f f' := by
  cases hbit : f.bit i with
  | true =>
    refine ⟨f, ?_, hf, .of_bit fun j hj => Finset.mem_singleton.mp hj ▸ hbit⟩
    rw [reserveFrame, run_get_bind, inUse_eq_ok hi, run_lift_ok_bind, hbit]
    rfl
  | false =>
    obtain ⟨f', htake, hf', hsets⟩ := run_take hf hi hbit
    refine ⟨f', ?_, hf', hsets⟩
    rw [reserveFrame, run_get_bind, inUse_eq_ok hi, run_lift_ok_bind, hbit]
    exact htake

theorem run_reserveFrames (hf : Sound f) {l : List Nat} (hl : ∀ i ∈ l, i < f.total) :
    ∃ f', (l.forM reserveFrame).run f = .ok () f' ∧ Sound f' ∧ Sets true l.toFinset f f' := by
  obtain ⟨f', hrun, ⟨hf', -⟩, hsets⟩ := run_forM (g := reserveFrame) (s := singleton) (b := true)
    (P := fun g => Sound g ∧ g.total = f.total) ⟨hf, rfl⟩ fun i hi g ⟨hg, htotal⟩ => by
      obtain ⟨g', hrun, hg', hsets⟩ := run_reserveFrame hg (htotal ▸ hl i hi)
      exact ⟨g', hrun, ⟨hg', hsets.total.trans htotal⟩, hsets⟩
  rw [Finset.biUnion_singleton_eq_self] at hsets
  exact ⟨f', hrun, hf', hsets⟩

theorem run_reserve (hf : Sound f) (span : Span) :
    ∃ f', (reserve span).run f = .ok () f' ∧ Sound f' ∧ Sets true (span.frames f.total) f f' := by
  have hmem : ∀ i, i ∈ List.range' (span.start / Page.bytes)
      (min ((span.stop + (Page.bytes - 1)) / Page.bytes) f.total - span.start / Page.bytes) ↔
      i ∈ span.frames f.total := by
    intro i
    rw [List.mem_range'_1, Span.frames, Finset.mem_filter, Finset.mem_range]
    omega
  have hlt : ∀ i ∈ span.frames f.total, i < f.total := fun i hi =>
    Finset.mem_range.mp (Finset.mem_filter.mp hi).1
  obtain ⟨f', hrun, hf', hsets⟩ := run_reserveFrames hf fun i hi => hlt i ((hmem i).mp hi)
  have hset := Finset.ext fun i => List.mem_toFinset.trans (hmem i)
  exact ⟨f', by rw [reserve, run_get_bind]; exact hrun, hf', hset ▸ hsets⟩

/-! ## Building -/

section Blank

variable {upperBound : Nat} {storage : Array (BitVec 64)}

theorem size_blank : (blank upperBound storage).storage.size = storage.size := by
  rw [blank]
  split <;> simp

theorem getElem?_blank_of_ge {k : Nat} (hk : wordCount (upperBound / Page.bytes) ≤ k) :
    (blank upperBound storage).storage[k]? = storage[k]? := by
  have hcleared : (storage.mapIdx fun i w =>
      if i < wordCount (upperBound / Page.bytes) then 0 else w)[k]? = storage[k]? := by
    rw [Array.getElem?_mapIdx]
    simp only [if_neg (Nat.not_lt.mpr hk), Option.map_id_fun', id]
  rw [blank]
  by_cases htail : upperBound / Page.bytes % wordBits ≠ 0
  · -- the last word in use is not word `k`
    have hne : wordCount (upperBound / Page.bytes) - 1 ≠ k := by
      generalize upperBound / Page.bytes = total at hk htail
      unfold wordCount wordBits at *
      omega
    rw [if_pos htail, Array.getElem?_setIfInBounds, if_neg hne, hcleared]
  · rw [if_neg htail, hcleared]

theorem getD_blank {k : Nat} (hroom : wordCount (upperBound / Page.bytes) ≤ storage.size)
    (hk : k < wordCount (upperBound / Page.bytes)) :
    (blank upperBound storage).storage.getD k 0 =
      if upperBound / Page.bytes % wordBits ≠ 0 ∧ k + 1 = wordCount (upperBound / Page.bytes)
      then BitVec.allOnes 64 <<< (upperBound / Page.bytes % wordBits) else 0 := by
  have hcleared : (storage.mapIdx fun i w =>
      if i < wordCount (upperBound / Page.bytes) then 0 else w).getD k 0 = 0 := by
    rw [Array.getD_eq_getD_getElem?, Array.getElem?_mapIdx,
      getElem?_pos storage k (Nat.lt_of_lt_of_le hk hroom), Option.map_some, if_pos hk]
    rfl
  rw [blank]
  by_cases htail : upperBound / Page.bytes % wordBits ≠ 0
  · have hiff : k = wordCount (upperBound / Page.bytes) - 1 ↔
        upperBound / Page.bytes % wordBits ≠ 0 ∧ k + 1 = wordCount (upperBound / Page.bytes) :=
      ⟨fun h => ⟨htail, by omega⟩, fun h => by omega⟩
    rw [if_pos htail, getD_setIfInBounds _ (by rw [Array.size_mapIdx]; omega), hcleared]
    simp only [hiff]
  · rw [if_neg htail, hcleared, if_neg fun h => htail h.1]

theorem getLsbD_allOnes_shiftLeft (tail : Nat) {j : Nat} (hj : j < 64) :
    (BitVec.allOnes 64 <<< tail).getLsbD j = decide (tail ≤ j) := by
  have hsub : j - tail < 64 := by omega
  rw [BitVec.getLsbD_shiftLeft, BitVec.getLsbD_allOnes, decide_eq_true hj, decide_eq_true hsub,
    Bool.true_and, Bool.and_true, ← decide_not]
  exact decide_eq_decide.mpr Nat.not_lt

/-- In the words in use, the bits behind the last frame are set and the others clear. -/
theorem bit_blank (hroom : wordCount (upperBound / Page.bytes) ≤ storage.size)
    (hi : i < wordCount (upperBound / Page.bytes) * wordBits) :
    (blank upperBound storage).bit i = decide (upperBound / Page.bytes ≤ i) := by
  have hword : i / wordBits < wordCount (upperBound / Page.bytes) :=
    Nat.div_lt_of_lt_mul (by rwa [Nat.mul_comm])
  rw [bit, getD_blank hroom hword]
  have hcount : wordCount (upperBound / Page.bytes) = (upperBound / Page.bytes + 63) / 64 := rfl
  have hmod : i % 64 < 64 := Nat.mod_lt _ (by decide)
  unfold wordBits at *
  by_cases hlast : upperBound / Page.bytes % 64 ≠ 0 ∧
      i / 64 + 1 = wordCount (upperBound / Page.bytes)
  · rw [if_pos hlast, getLsbD_allOnes_shiftLeft _ hmod, decide_eq_decide]
    omega
  · have hlt : ¬ upperBound / Page.bytes ≤ i := by omega
    rw [if_neg hlast, decide_eq_false hlt]
    exact BitVec.getLsbD_zero

theorem sound_blank (hbound : upperBound < wordLimit)
    (hroom : wordCount (upperBound / Page.bytes) ≤ storage.size) :
    Sound (blank upperBound storage) := by
  have htotal : (blank upperBound storage).total = upperBound / Page.bytes := rfl
  refine ⟨?room, ?addressable, ?tail, ?counter⟩
  case room => rwa [size_blank]
  case addressable => exact Nat.lt_of_le_of_lt (Nat.div_mul_le_self _ _) hbound
  case tail =>
    intro i hlow hhigh
    rw [bit_blank hroom hhigh]
    exact decide_eq_true hlow
  case counter =>
    have hall : (blank upperBound storage).freeFrames = Finset.range (upperBound / Page.bytes) := by
      ext i
      rw [mem_freeFrames, Finset.mem_range, htotal]
      refine and_iff_left_of_imp fun hi => ?_
      have hword := Nat.lt_of_lt_of_le hi (total_le_words (blank upperBound storage))
      rw [bit_blank hroom hword]
      exact decide_eq_false (Nat.not_le.mpr hi)
    rw [hall, Finset.card_range]
    rfl

/-- A map is built whenever its storage is long enough. -/
theorem exists_build (upperBound : Nat) (storage : Array (BitVec 64)) (reserved : List Span)
    (hbound : upperBound < wordLimit)
    (hroom : wordCount (upperBound / Page.bytes) ≤ storage.size) :
    ∃ f, build upperBound storage reserved = .ok (.ok f) ∧ Sound f ∧
      Sets true (reserved.toFinset.biUnion (Span.frames (upperBound / Page.bytes)))
        (blank upperBound storage) f := by
  obtain ⟨f, hrun, ⟨hf, -⟩, hsets⟩ := run_forM (g := reserve) (l := reserved)
    (s := Span.frames (upperBound / Page.bytes)) (b := true)
    (P := fun g => Sound g ∧ g.total = upperBound / Page.bytes)
    ⟨sound_blank hbound hroom, rfl⟩ fun span _ g ⟨hg, htotal⟩ => by
      obtain ⟨g', hrun, hg', hsets⟩ := run_reserve hg span
      exact ⟨g', hrun, ⟨hg', hsets.total.trans htotal⟩, htotal ▸ hsets⟩
  refine ⟨f, ?_, hf, hsets⟩
  rw [build, if_neg (Nat.not_lt.mpr hroom)]
  simp only [hrun]

end Blank

/-! ## Allocating -/

theorem run_marks (hroom : f.words ≤ f.storage.size) {start : Nat} (h : start + count ≤ f.total) :
    ∃ f', ((List.range' start count).forM mark).run f = .ok () f' ∧ f'.free = f.free ∧
      Sets true (Finset.Ico start (start + count)) f f' := by
  obtain ⟨f', hrun, ⟨-, -, hfree⟩, hsets⟩ := run_forM (g := mark) (s := singleton) (b := true)
    (l := List.range' start count)
    (P := fun g => g.total = f.total ∧ g.storage.size = f.storage.size ∧ g.free = f.free)
    ⟨rfl, rfl, rfl⟩ fun i hi g ⟨htotal, hsize, hfree⟩ => by
      have hlt : i < g.total := by
        have hmem := List.mem_range'_1.mp hi
        omega
      have hwords : g.words ≤ g.storage.size := by rwa [words, htotal, hsize]
      obtain ⟨g', hrun, hfree', hsets⟩ := run_mark hwords hlt
      exact ⟨g', hrun, ⟨hsets.total.trans htotal, hsets.size.trans hsize, hfree'.trans hfree⟩,
        hsets⟩
  have hset : (List.range' start count).toFinset = Finset.Ico start (start + count) := by
    ext i
    rw [List.mem_toFinset, List.mem_range'_1, Finset.mem_Ico]
  rw [Finset.biUnion_singleton_eq_self, hset] at hsets
  exact ⟨f', hrun, hfree, hsets⟩

/-- The address of a frame is a machine word. -/
theorem Sound.mul_eq_ok (hf : Sound f) (hi : i < f.total) :
    Checked.mul i Page.bytes = .ok (i * Page.bytes) := by
  refine Checked.mul_eq_ok (Nat.lt_of_le_of_lt ?_ hf.addressable)
  exact Nat.mul_le_mul_right _ (Nat.le_of_lt hi)

/-- Allocating a single frame answers with the lowest free frame, which is in use from
then on, or with nothing if no frame is free. -/
theorem allocFrame_cases (hf : Sound f) :
    f.FirstRun 1 0 none ∧ allocFrame.run f = .ok none f ∨
      ∃ s f', f.FirstRun 1 0 (some s) ∧ allocFrame.run f = .ok (some (s * Page.bytes)) f' ∧
        Sound f' ∧ Sets true (Finset.Ico s (s + 1)) f f' := by
  rw [allocFrame, run_get_bind]
  by_cases hfree : f.free = 0
  · refine .inl ⟨?_, by rw [if_pos hfree]; rfl⟩
    intro t _ hrun
    exact absurd (hrun.le_free hf) (by omega)
  · rw [if_neg hfree]
    cases hroom : f.firstRoom 0 with
    | none => exact .inl ⟨firstRoom_none hroom, rfl⟩
    | some k =>
      have hfirst := firstRoom_some hf hroom
      generalize hs : k * 64 + lowestClear (f.storage.getD k 0) = s at hfirst
      obtain ⟨htotal, hclear⟩ := isRun_one.mp hfirst.2.1
      obtain ⟨f', htake, hf', hsets⟩ := run_take hf htotal hclear
      refine .inr ⟨s, f', hfirst, ?_, hf', Nat.Ico_succ_singleton s ▸ hsets⟩
      have hbase : Checked.mul k wordBits = .ok (k * 64) :=
        Checked.mul_eq_ok (hf.word_of_le (by unfold wordBits; omega))
      have hframe : Checked.add (k * 64) (lowestClear (f.storage.getD k 0)) = .ok s := by
        rw [← hs]
        exact Checked.add_eq_ok (hf.word_of_le (by omega))
      simp only [hbase, run_lift_ok_bind, hframe]
      rw [if_neg (Nat.not_le.mpr htotal), ← bind_assoc, run_bind_ok htake, hf.mul_eq_ok htotal]
      exact run_map_ok (run_lift_ok _ _) some

/-- Allocating by the search for runs, whatever their length. -/
def allocSearch (count : Nat) : FrameM (Option Nat) := do
  let f ← get
  if f.free < count then
    return none
  match ← (f.findRun count (f.total + 1) 0 : Except Fault _) with
  | none => return none
  | some start =>
    (List.range' start count).forM mark
    subFree count
    some <$> Checked.mul start Page.bytes

/-- A run of two frames or more is searched for. -/
theorem allocRun_eq_allocSearch (hzero : count ≠ 0) (hone : count ≠ 1) :
    allocRun count = allocSearch count := by
  rw [allocRun, if_neg hzero, if_neg hone]
  rfl

/-- The search answers with the first run that is long enough, whose frames are in use from
then on, or with nothing if there is no such run. -/
theorem allocSearch_cases (hf : Sound f) (hpos : 0 < count) :
    f.FirstRun count 0 none ∧ (allocSearch count).run f = .ok none f ∨
      ∃ s f', f.FirstRun count 0 (some s) ∧
        (allocSearch count).run f = .ok (some (s * Page.bytes)) f' ∧
        Sound f' ∧ Sets true (Finset.Ico s (s + count)) f f' := by
  rw [allocSearch, run_get_bind]
  by_cases hfree : f.free < count
  · refine .inl ⟨fun t _ hrun => ?_, by rw [if_pos hfree]; rfl⟩
    exact absurd (hrun.le_free hf) (Nat.not_le.mpr hfree)
  · have hcount : count ≤ f.total := Nat.le_trans (Nat.not_lt.mp hfree) hf.free_le
    obtain ⟨answer, hfind, hfirst⟩ :=
      findRun_spec hf hcount (f.total + 1) 0 (Nat.zero_le _) (by omega)
    rw [if_neg hfree, hfind, run_lift_ok_bind]
    cases answer with
    | none => exact .inl ⟨hfirst, rfl⟩
    | some s =>
      have hrun := hfirst.2.1
      obtain ⟨f₁, hmarks, hfree₁, hsets⟩ := run_marks hf.room hrun.1
      have hsound : Sound { f₁ with free := f₁.free - count } := by
        refine (hsets.with_free _).sound_take hf hrun.subset_freeFrames ?_
        rw [Nat.card_Ico, Nat.add_sub_cancel_left]
        exact congrArg (· - count) hfree₁
      refine .inr ⟨s, { f₁ with free := f₁.free - count }, hfirst, ?_, hsound,
        hsets.with_free _⟩
      have hs : s < f.total := by
        have htotal := hrun.1
        omega
      show ((List.range' s count).forM mark >>= _).run f = _
      rw [run_bind_ok hmarks, run_bind_ok (run_subFree (by rw [hfree₁]; omega)), hf.mul_eq_ok hs]
      exact run_map_ok (run_lift_ok _ _) some

/-- Allocating a run answers with the first one that is long enough, whose frames are in
use from then on, or with nothing if there is no such run. -/
theorem allocRun_cases (hf : Sound f) (count : Nat) :
    (count = 0 ∨ f.FirstRun count 0 none) ∧ (allocRun count).run f = .ok none f ∨
      ∃ s f', 0 < count ∧ f.FirstRun count 0 (some s) ∧
        (allocRun count).run f = .ok (some (s * Page.bytes)) f' ∧
        Sound f' ∧ Sets true (Finset.Ico s (s + count)) f f' := by
  by_cases hzero : count = 0
  · exact .inl ⟨.inl hzero, by rw [allocRun, if_pos hzero]; rfl⟩
  have hpos := Nat.pos_of_ne_zero hzero
  by_cases hone : count = 1
  · subst hone
    rw [allocRun, if_neg hzero, if_pos rfl]
    rcases allocFrame_cases hf with ⟨hnone, hrun⟩ | ⟨s, f', hgranted⟩
    · exact .inl ⟨.inr hnone, hrun⟩
    · exact .inr ⟨s, f', hpos, hgranted⟩
  · rw [allocRun_eq_allocSearch hzero hone]
    rcases allocSearch_cases hf hpos with ⟨hnone, hrun⟩ | ⟨s, f', hgranted⟩
    · exact .inl ⟨.inr hnone, hrun⟩
    · exact .inr ⟨s, f', hpos, hgranted⟩

/-! ## Freeing -/

theorem mem_covered : i ∈ f.covered address count ↔ i < f.total ∧ address % Page.bytes = 0 ∧
    lowMemory / Page.bytes ≤ i ∧ address / Page.bytes ≤ i ∧ i < address / Page.bytes + count := by
  rw [covered, Finset.mem_filter, Finset.mem_range]

theorem Sets.covered_eq {s : Finset Nat} (h : Sets b s f f') (address count : Nat) :
    f'.covered address count = f.covered address count := by
  rw [covered, covered, h.total]

/-- A request about a frame that may be given back clears its bit, if it is set. -/
theorem run_freeFrame_of_mem (hi : i ∈ f.covered address 1) :
    (freeFrame address).run f =
      (if f.bit i = true then clear i >>= fun _ => addFree else pure () : FrameM Unit).run f := by
  obtain ⟨htotal, haligned, hlow, hle, hlt⟩ := mem_covered.mp hi
  obtain rfl : i = address / Page.bytes := by omega
  have hguard : ¬ (decide (address < lowMemory) || !Page.isAligned address) = true := by
    rw [Page.isAligned, haligned]
    unfold lowMemory Page.bytes at *
    simp
    omega
  rw [freeFrame, if_neg hguard]
  refine (run_get_bind _ f).trans ?_
  rw [if_neg (Nat.not_le.mpr htotal), run_get_bind, inUse_eq_ok htotal, run_lift_ok_bind]

/-- A request about no frame that may be given back does nothing. -/
theorem run_freeFrame_of_empty (h : f.covered address 1 = ∅) :
    (freeFrame address).run f = .ok () f := by
  by_cases hguard : (decide (address < lowMemory) || !Page.isAligned address) = true
  · rw [freeFrame, if_pos hguard]
    rfl
  · rw [freeFrame, if_neg hguard]
    refine (run_get_bind _ f).trans ?_
    have htotal : f.total ≤ address / Page.bytes := by
      by_contra hlt
      have hmem : address / Page.bytes ∈ f.covered address 1 := by
        rw [Bool.or_eq_true, not_or, decide_eq_true_iff, Page.isAligned] at hguard
        obtain ⟨hlow, haligned⟩ := hguard
        simp only [Bool.not_eq_true', beq_eq_false_iff_ne, not_not] at haligned
        refine mem_covered.mpr ⟨Nat.not_le.mp hlt, haligned, ?_, Nat.le_refl _, Nat.lt_succ_self _⟩
        exact Nat.div_le_div_right (Nat.not_lt.mp hlow)
      rw [h] at hmem
      exact absurd hmem (Finset.notMem_empty _)
    rw [if_pos htotal]
    rfl

/-- Giving back a page clears the bit of its frame, if it is one that may be given back. -/
theorem run_freeFrame (hf : Sound f) (address : Nat) :
    ∃ f', (freeFrame address).run f = .ok () f' ∧ Sound f' ∧
      Sets false (f.covered address 1) f f' := by
  rcases Finset.eq_empty_or_nonempty (f.covered address 1) with hempty | ⟨i, hi⟩
  · rw [hempty]
    exact ⟨f, run_freeFrame_of_empty hempty, hf, .refl _ f⟩
  · have hset : f.covered address 1 = {i} := by
      ext j
      have hmem := mem_covered.mp hi
      rw [mem_covered, Finset.mem_singleton]
      constructor
      · intro hj
        omega
      · rintro rfl
        exact hmem
    have htotal := (mem_covered.mp hi).1
    rw [run_freeFrame_of_mem hi, hset]
    cases hbit : f.bit i with
    | false =>
      exact ⟨f, rfl, hf, .of_bit fun j hj => Finset.mem_singleton.mp hj ▸ hbit⟩
    | true =>
      obtain ⟨f₁, hclear, hfree₁, hsets⟩ := run_clear hf.room htotal
      have hle : f.free + 1 ≤ 2 * f.total := by
        have hle := hf.free_le
        omega
      have hword : f₁.free + 1 < wordLimit := hfree₁ ▸ hf.word_of_le hle
      refine ⟨{ f₁ with free := f₁.free + 1 }, ?_, ?_, hsets.with_free _⟩
      · rw [if_pos rfl, run_bind_ok hclear, run_addFree hword]
      · -- the frame was none of the free ones
        have hlt : ∀ j ∈ ({i} : Finset Nat), j < f.total := fun j hj =>
          Finset.mem_singleton.mp hj ▸ htotal
        have hused : Disjoint f.freeFrames {i} := by
          rw [Finset.disjoint_singleton_right, mem_freeFrames, hbit]
          simp
        refine (hsets.with_free _).sound hf hlt ?_
        rw [(hsets.with_free _).free_false hlt, Finset.card_union_of_disjoint hused,
          Finset.card_singleton, ← hf.counter]
        exact congrArg (· + 1) hfree₁

theorem covered_eq_empty (h : count = 0 ∨ f.total ≤ address / Page.bytes) :
    f.covered address count = ∅ := by
  refine Finset.eq_empty_of_forall_notMem fun i hi => ?_
  have hmem := mem_covered.mp hi
  omega

/-- Behind the last word there is no frame. -/
theorem Sound.total_le_div (hf : Sound f) (h : wordLimit ≤ address) :
    f.total ≤ address / Page.bytes := by
  have hbound := hf.addressable
  unfold Page.bytes at *
  omega

theorem run_freeFrom (address : Nat) : ∀ (count k : Nat) (f : FrameMap), Sound f →
    ∃ f', (freeFrom address (List.range' k count)).run f = .ok () f' ∧ Sound f' ∧
      Sets false (f.covered (address + k * Page.bytes) count) f f'
  | 0, k, f, hf => by
    rw [covered_eq_empty (.inl rfl)]
    exact ⟨f, rfl, hf, .refl _ f⟩
  | count + 1, k, f, hf => by
    rw [List.range'_succ, freeFrom]
    by_cases hword : address + k * Page.bytes < wordLimit
    · obtain ⟨f₁, hrun, hf₁, hsets⟩ := run_freeFrame hf (address + k * Page.bytes)
      obtain ⟨f', hrest, hf', hsets'⟩ := run_freeFrom address count (k + 1) f₁ hf₁
      rw [hsets.covered_eq] at hsets'
      have hunion : f.covered (address + k * Page.bytes) (count + 1) =
          f.covered (address + k * Page.bytes) 1 ∪
            f.covered (address + (k + 1) * Page.bytes) count := by
        ext i
        rw [Finset.mem_union, mem_covered, mem_covered, mem_covered]
        unfold Page.bytes
        omega
      rw [if_pos hword, hunion]
      exact ⟨f', by rw [run_bind_ok hrun, hrest], hf', hsets.union hsets'⟩
    · -- the addresses of all further pages leave the words as well
      rw [if_neg hword, covered_eq_empty (.inr (hf.total_le_div (Nat.not_lt.mp hword)))]
      exact ⟨f, rfl, hf, .refl _ f⟩

/-- Giving back pages clears the bits of those of their frames that may be given back. -/
theorem run_freeRun (hf : Sound f) (address count : Nat) :
    ∃ f', (freeRun address count).run f = .ok () f' ∧ Sound f' ∧
      Sets false (f.covered address count) f f' := by
  have hget : (freeRun address count).run f = (if f.total ≤ address / Page.bytes then pure ()
      else freeFrom address (List.range (min count (f.total - address / Page.bytes)))).run f :=
    run_get_bind _ f
  rw [hget]
  by_cases hpast : f.total ≤ address / Page.bytes
  · rw [if_pos hpast, covered_eq_empty (.inr hpast)]
    exact ⟨f, rfl, hf, .refl _ f⟩
  · -- frames behind the last one are not counted, and there are none
    have hcut : f.covered address (min count (f.total - address / Page.bytes)) =
        f.covered address count := by
      ext i
      rw [mem_covered, mem_covered]
      omega
    obtain ⟨f', hrun, hf', hsets⟩ :=
      run_freeFrom address (min count (f.total - address / Page.bytes)) 0 f hf
    rw [Nat.zero_mul, Nat.add_zero, hcut] at hsets
    rw [if_neg hpast, List.range_eq_range']
    exact ⟨f', hrun, hf', hsets⟩

end Effects

end FrameMap

end Supervisor

import Mathlib.Data.Finset.Card
import Mathlib.Order.Interval.Finset.Nat
import Supervisor.Frames.Basic
import Supervisor.Proofs.Run

/-!
# The bits of a frame map

A frame map is looked at through `FrameMap.bit`, one bit for each frame.

- `FrameMap.Sets b s f f'`: of the whole storage, the bits of the frames in `s`
  become `b`, and nothing else changes. Such changes follow one another
  (`Sets.union`), and the frames left free are known (`Sets.free_true`,
  `Sets.free_false`).
- `FrameMap.Sound`: what is true of every map in use. The counter is the number
  of clear bits (`freeFrames`), and the bits behind the last frame are set.
- `run_mark`, `run_clear`: the two programs that touch a bit.
-/

namespace Supervisor

namespace FrameMap

/-- The bit of a frame, set if the frame is in use. -/
def bit (f : FrameMap) (frame : Nat) : Bool :=
  (f.storage.getD (frame / wordBits) 0).getLsbD (frame % wordBits)

/-- The frames whose bit is clear. -/
def freeFrames (f : FrameMap) : Finset Nat :=
  {i ∈ Finset.range f.total | f.bit i = false}

/-- The storage of `f'` is that of `f` with the bits of the frames in `s` made `b`:
1. the map tracks as many frames;
2. the storage is as long;
3. the words that the map does not use are untouched;
4. so are the bits of the frames outside `s`. -/
structure Sets (b : Bool) (s : Finset Nat) (f f' : FrameMap) : Prop where
  total : f'.total = f.total
  size : f'.storage.size = f.storage.size
  beyond : ∀ i, f.words ≤ i → f'.storage[i]? = f.storage[i]?
  bit : ∀ i, f'.bit i = if i ∈ s then b else f.bit i

/-- What is true of every map in use:
1. the words it uses are there;
2. addresses of frames are machine words;
3. the bits behind the last frame are set;
4. the counter is the number of clear bits of frames. -/
structure Sound (f : FrameMap) : Prop where
  room : f.words ≤ f.storage.size
  addressable : f.total * Page.bytes < wordLimit
  tail : ∀ i, f.total ≤ i → i < f.words * wordBits → f.bit i = true
  counter : f.free = f.freeFrames.card

section Bits

variable {f f' f'' : FrameMap} {b : Bool} {s t : Finset Nat} {frame i : Nat}

theorem mem_freeFrames : i ∈ f.freeFrames ↔ i < f.total ∧ f.bit i = false := by
  simp [freeFrames]

theorem total_le_words (f : FrameMap) : f.total ≤ f.words * wordBits := by
  show f.total ≤ (f.total + (64 - 1)) / 64 * 64
  omega

theorem div_lt_words (h : frame < f.total) : frame / wordBits < f.words :=
  Nat.div_lt_of_lt_mul (Nat.lt_of_lt_of_le h (by rw [Nat.mul_comm]; exact f.total_le_words))

/-- The bits of a word of the storage. -/
theorem getLsbD_word (f : FrameMap) (k : Nat) {j : Nat} (hj : j < 64) :
    (f.storage.getD k 0).getLsbD j = f.bit (k * 64 + j) := by
  have hdiv : (k * 64 + j) / 64 = k := by omega
  have hmod : (k * 64 + j) % 64 = j := by omega
  rw [bit, hdiv, hmod]

/-- A map is its size, its counters and its bits. -/
theorem eq_of_bit {g : FrameMap} (htotal : f.total = g.total) (hfree : f.free = g.free)
    (hsize : f.storage.size = g.storage.size) (hbit : ∀ i, f.bit i = g.bit i) : f = g := by
  have hwords : ∀ k, f.storage.getD k 0 = g.storage.getD k 0 := by
    intro k
    refine BitVec.eq_of_getLsbD_eq fun j hj => ?_
    rw [f.getLsbD_word k hj, g.getLsbD_word k hj, hbit]
  have hstorage : f.storage = g.storage := by
    refine Array.ext hsize fun k hk hk' => ?_
    have hword := hwords k
    rwa [Array.getD_eq_getD_getElem?, Array.getD_eq_getD_getElem?, Array.getElem?_eq_getElem hk,
      Array.getElem?_eq_getElem hk'] at hword
  obtain ⟨storage, total, free⟩ := f
  obtain ⟨storage', total', free'⟩ := g
  simp only at htotal hfree hstorage
  rw [htotal, hfree, hstorage]

theorem wordOf_eq_ok (h : frame < f.total) :
    f.wordOf frame = .ok (f.storage.getD (frame / wordBits) 0) :=
  if_pos (div_lt_words h)

theorem inUse_eq_ok (h : frame < f.total) : f.inUse frame = .ok (f.bit frame) := by
  rw [inUse, wordOf_eq_ok h]
  rfl

/-! ## Changes of bits -/

namespace Sets

theorem refl (b : Bool) (f : FrameMap) : Sets b ∅ f f :=
  ⟨rfl, rfl, fun _ _ => rfl, fun i => by simp⟩

theorem words (h : Sets b s f f') : f'.words = f.words := by
  rw [FrameMap.words, FrameMap.words, h.total]

/-- One change after the other, to the same value. -/
theorem union (h : Sets b s f f') (h' : Sets b t f' f'') : Sets b (s ∪ t) f f'' := by
  refine ⟨h'.total.trans h.total, h'.size.trans h.size, ?_, ?_⟩
  · intro i hi
    rw [h'.beyond i (by rwa [h.words]), h.beyond i hi]
  · intro i
    rw [h'.bit, h.bit]
    by_cases hs : i ∈ s <;> by_cases ht : i ∈ t <;> simp [hs, ht]

/-- The bits need no change if they have the value already. -/
theorem of_bit (hs : ∀ i ∈ s, f.bit i = b) : Sets b s f f := by
  refine ⟨rfl, rfl, fun _ _ => rfl, ?_⟩
  intro i
  by_cases hi : i ∈ s
  · rw [if_pos hi, hs i hi]
  · rw [if_neg hi]

/-- The counter is no part of the storage. -/
theorem with_free (h : Sets b s f f') (count : Nat) : Sets b s f { f' with free := count } :=
  ⟨h.total, h.size, h.beyond, h.bit⟩

theorem free_true (h : Sets true s f f') : f'.freeFrames = f.freeFrames \ s := by
  ext i
  rw [Finset.mem_sdiff, mem_freeFrames, mem_freeFrames, h.total, h.bit]
  by_cases hi : i ∈ s <;> simp [hi]

theorem free_false (h : Sets false s f f') (hs : ∀ i ∈ s, i < f.total) :
    f'.freeFrames = f.freeFrames ∪ s := by
  ext i
  rw [Finset.mem_union, mem_freeFrames, mem_freeFrames, h.total, h.bit]
  by_cases hi : i ∈ s
  · simp [hi, hs i hi]
  · simp [hi]

/-- A sound map stays sound if only bits of frames change and the counter is right. -/
theorem sound (h : Sets b s f f') (hf : Sound f) (hs : ∀ i ∈ s, i < f.total)
    (hcounter : f'.free = f'.freeFrames.card) : Sound f' := by
  refine ⟨?_, by rw [h.total]; exact hf.addressable, ?_, hcounter⟩
  · rw [h.words, h.size]
    exact hf.room
  · intro i hlow hhigh
    rw [h.total] at hlow
    rw [h.words] at hhigh
    have hne : i ∉ s := fun hi => absurd (hs i hi) (Nat.not_lt.mpr hlow)
    rw [h.bit, if_neg hne]
    exact hf.tail i hlow hhigh

/-- A sound map is known by what was changed: the counter follows from the bits. -/
theorem unique (h : Sets b s f f') (h' : Sets b s f f'') (hf' : Sound f') (hf'' : Sound f'') :
    f' = f'' := by
  have hbit : ∀ i, f'.bit i = f''.bit i := fun i => by rw [h.bit, h'.bit]
  have htotal : f'.total = f''.total := h.total.trans h'.total.symm
  refine eq_of_bit htotal ?_ (h.size.trans h'.size.symm) hbit
  simp only [hf'.counter, hf''.counter, freeFrames, htotal, hbit]

/-- Frames that were free are taken from the counter. -/
theorem free_add_card (h : Sets true s f f') (hf : Sound f) (hf' : Sound f')
    (hs : s ⊆ f.freeFrames) : f'.free + s.card = f.free := by
  rw [hf'.counter, hf.counter, h.free_true, Finset.card_sdiff_add_card_eq_card hs]

end Sets

/-! ## The programs on one bit -/

theorem getD_setIfInBounds (a : Array (BitVec 64)) {j : Nat} (hj : j < a.size) (k : Nat)
    (w : BitVec 64) : (a.setIfInBounds j w).getD k 0 = if k = j then w else a.getD k 0 := by
  rw [Array.getD_eq_getD_getElem?, Array.getD_eq_getD_getElem?, Array.getElem?_setIfInBounds]
  by_cases hk : j = k
  · subst hk
    rw [if_pos rfl, if_pos rfl, if_pos hj]
    rfl
  · rw [if_neg hk, if_neg (Ne.symm hk)]

/-- A program that replaces a word by one that differs at most in the bit of `frame`
changes the map in that bit. -/
theorem run_updateWord (hroom : f.words ≤ f.storage.size) (h : frame < f.total)
    {g : BitVec 64 → BitVec 64}
    (hg : ∀ w j, (g w).getLsbD j = if j = frame % wordBits then b else w.getLsbD j) :
    ∃ f', (updateWord frame g).run f = .ok () f' ∧ f'.free = f.free ∧ Sets b {frame} f f' := by
  have hword : frame / wordBits < f.storage.size := Nat.lt_of_lt_of_le (div_lt_words h) hroom
  refine ⟨⟨f.storage.setIfInBounds (frame / wordBits) (g (f.storage.getD (frame / wordBits) 0)),
    f.total, f.free⟩, ?run, rfl, rfl, ?size, ?beyond, ?bit⟩
  case run =>
    rw [updateWord, run_get_bind, wordOf_eq_ok h, run_lift_ok_bind, EStateM.run_modify]
  case size => exact Array.size_setIfInBounds
  case beyond =>
    intro i hi
    have hne : frame / wordBits ≠ i := Nat.ne_of_lt (Nat.lt_of_lt_of_le (div_lt_words h) hi)
    show (f.storage.setIfInBounds _ _)[i]? = _
    rw [Array.getElem?_setIfInBounds, if_neg hne]
  case bit =>
    intro i
    rw [bit, bit, getD_setIfInBounds _ hword]
    simp only [Finset.mem_singleton]
    by_cases hi : i / wordBits = frame / wordBits
    · -- the same word: the frame is told by its place there
      have hiff : i % wordBits = frame % wordBits ↔ i = frame := by
        unfold wordBits at hi ⊢
        omega
      rw [if_pos hi, hg, hi]
      simp only [hiff]
    · have hne : i ≠ frame := fun heq => hi (heq ▸ rfl)
      rw [if_neg hi, if_neg hne]

theorem getLsbD_or_twoPow (w : BitVec 64) {k : Nat} (hk : k < 64) (j : Nat) :
    (w ||| BitVec.twoPow 64 k).getLsbD j = if j = k then true else w.getLsbD j := by
  by_cases hj : j = k
  · subst hj
    simp [hk]
  · simp [hj, Ne.symm hj]

theorem getLsbD_and_not_twoPow (w : BitVec 64) {k : Nat} (hk : k < 64) (j : Nat) :
    (w &&& ~~~ BitVec.twoPow 64 k).getLsbD j = if j = k then false else w.getLsbD j := by
  by_cases hj : j = k
  · subst hj
    simp [hk]
  · by_cases hlt : j < 64
    · simp [hlt, hj]
    · simp [hj, hlt, BitVec.getLsbD_of_ge w j (Nat.not_lt.mp hlt)]

theorem run_mark (hroom : f.words ≤ f.storage.size) (h : frame < f.total) :
    ∃ f', (mark frame).run f = .ok () f' ∧ f'.free = f.free ∧ Sets true {frame} f f' :=
  run_updateWord hroom h fun w j => getLsbD_or_twoPow w (Nat.mod_lt _ (by decide)) j

theorem run_clear (hroom : f.words ≤ f.storage.size) (h : frame < f.total) :
    ∃ f', (clear frame).run f = .ok () f' ∧ f'.free = f.free ∧ Sets false {frame} f f' :=
  run_updateWord hroom h fun w j => getLsbD_and_not_twoPow w (Nat.mod_lt _ (by decide)) j

/-! ## The counter -/

theorem run_subFree {count : Nat} (h : count ≤ f.free) :
    (subFree count).run f = .ok () { f with free := f.free - count } := by
  rw [subFree, run_get_bind, Checked.sub_eq_ok h, run_lift_ok_bind, EStateM.run_modify]

theorem run_addFree (h : f.free + 1 < wordLimit) :
    addFree.run f = .ok () { f with free := f.free + 1 } := by
  rw [addFree, run_get_bind, Checked.add_eq_ok h, run_lift_ok_bind, EStateM.run_modify]

/-- There are no more free frames than frames. -/
theorem Sound.free_le (hf : Sound f) : f.free ≤ f.total := by
  rw [hf.counter]
  calc f.freeFrames.card ≤ (Finset.range f.total).card := Finset.card_filter_le _ _
    _ = f.total := Finset.card_range _

/-- Sums of two frame numbers are machine words. -/
theorem Sound.word_of_le (hf : Sound f) {n : Nat} (h : n ≤ 2 * f.total) : n < wordLimit := by
  have hbound : f.total * 4096 < wordLimit := hf.addressable
  omega

/-- Frames that leave the free ones are taken from the counter. -/
theorem Sets.sound_take (h : Sets true s f f') (hf : Sound f) (hs : s ⊆ f.freeFrames)
    (hcounter : f'.free = f.free - s.card) : Sound f' := by
  refine h.sound hf (fun i hi => (mem_freeFrames.mp (hs hi)).1) ?_
  rw [hcounter, h.free_true, Finset.card_sdiff_of_subset hs, hf.counter]

end Bits

end FrameMap

end Supervisor

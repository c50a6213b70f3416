import Supervisor.Proofs.Frames.Bits

/-!
# Searching for free frames

`FrameMap.FirstRun f count start answer` says what a search for `count` free
frames in a row, from the frame `start` on, has to answer: the least start of
such a run, or that there is none. The linear search for runs answers that
(`findRun_spec`), and so does the search for a single frame, which looks at
whole words first (`exists_lowest`, `firstRoom_eq_none`).
-/

namespace Supervisor

namespace FrameMap

/-- The `count` frames from `start` on are frames of the map, and free. -/
def IsRun (f : FrameMap) (count start : Nat) : Prop :=
  start + count ≤ f.total ∧ ∀ i, start ≤ i → i < start + count → f.bit i = false

/-- The least start of a run from `start` on, or nothing if there is no run. -/
def FirstRun (f : FrameMap) (count start : Nat) : Option Nat → Prop
  | some s => start ≤ s ∧ f.IsRun count s ∧ ∀ t, start ≤ t → t < s → ¬ f.IsRun count t
  | none => ∀ t, start ≤ t → ¬ f.IsRun count t

section Search

variable {f : FrameMap} {count start offset : Nat}

theorem IsRun.subset_freeFrames (h : f.IsRun count start) :
    Finset.Ico start (start + count) ⊆ f.freeFrames := by
  intro i hi
  obtain ⟨hlow, hhigh⟩ := Finset.mem_Ico.mp hi
  exact mem_freeFrames.mpr ⟨Nat.lt_of_lt_of_le hhigh h.1, h.2 i hlow hhigh⟩

theorem isRun_one : f.IsRun 1 start ↔ start < f.total ∧ f.bit start = false := by
  constructor
  · rintro ⟨htotal, hclear⟩
    exact ⟨htotal, hclear start (Nat.le_refl _) (Nat.lt_succ_self _)⟩
  · rintro ⟨htotal, hclear⟩
    refine ⟨htotal, ?_⟩
    intro i hlow hhigh
    obtain rfl : i = start := by omega
    exact hclear

/-- A run needs as many free frames as it is long. -/
theorem IsRun.le_free (hf : Sound f) (h : f.IsRun count start) : count ≤ f.free := by
  rw [hf.counter]
  calc count = (Finset.Ico start (start + count)).card := by rw [Nat.card_Ico]; omega
    _ ≤ f.freeFrames.card := Finset.card_le_card h.subset_freeFrames

/-- A search has one answer. -/
theorem FirstRun.unique {answer answer' : Option Nat} (h : f.FirstRun count start answer)
    (h' : f.FirstRun count start answer') : answer = answer' := by
  match answer, answer' with
  | none, none => rfl
  | none, some s => exact absurd h'.2.1 (h s h'.1)
  | some s, none => exact absurd h.2.1 (h' s h.1)
  | some s, some s' =>
    rcases Nat.lt_trichotomy s s' with hlt | rfl | hlt
    · exact absurd h.2.1 (h'.2.2 s h.1 hlt)
    · rfl
    · exact absurd h'.2.1 (h.2.2 s' h'.1 hlt)

/-- A run is the first one if all frames in front of it are in use. -/
theorem IsRun.first {s : Nat} (h : f.IsRun count s) (hpos : 0 < count)
    (hset : ∀ i < s, f.bit i = true) : f.FirstRun count 0 (some s) := by
  refine ⟨Nat.zero_le _, h, ?_⟩
  intro t _ ht hrun
  have hclear := hrun.2 t (Nat.le_refl _) (Nat.lt_add_of_pos_right hpos)
  rw [hset t ht] at hclear
  contradiction

/-! ## A single frame -/

theorem lowestClear_spec {w : BitVec 64} (h : w ≠ BitVec.allOnes 64) :
    lowestClear w < 64 ∧ w.getLsbD (lowestClear w) = false ∧
      ∀ j < lowestClear w, w.getLsbD j = true := by
  have hclear : ∃ j < 64, w.getLsbD j = false := by
    by_contra hne
    push Not at hne
    refine h (BitVec.eq_of_getLsbD_eq fun j hj => ?_)
    rw [BitVec.getLsbD_allOnes, decide_eq_true hj]
    exact Bool.not_eq_false _ ▸ hne j hj
  cases hfind : (List.range wordBits).find? fun i => !w.getLsbD i with
  | none =>
    obtain ⟨j, hj, hbit⟩ := hclear
    have hset := List.find?_eq_none.mp hfind j (List.mem_range.mpr hj)
    rw [hbit] at hset
    exact absurd rfl hset
  | some k =>
    have hlowest : lowestClear w = k := by rw [lowestClear, hfind]; rfl
    obtain ⟨hk, hbit, hbefore⟩ := List.find?_range_eq_some.mp hfind
    rw [hlowest]
    refine ⟨List.mem_range.mp hbit, by simpa using hk, ?_⟩
    intro j hj
    simpa using hbefore j hj

theorem firstRoom_spec (f : FrameMap) (index : Nat) :
    match f.firstRoom index with
    | some k => index ≤ k ∧ k < f.words ∧ f.storage.getD k 0 ≠ BitVec.allOnes 64 ∧
        ∀ j, index ≤ j → j < k → f.storage.getD j 0 = BitVec.allOnes 64
    | none => ∀ j, index ≤ j → j < f.words → f.storage.getD j 0 = BitVec.allOnes 64 := by
  fun_induction firstRoom f index with
  | case1 index hlt hroom =>
    exact ⟨Nat.le_refl _, hlt, hroom, fun j hlow hhigh => absurd hlow (Nat.not_le.mpr hhigh)⟩
  | case2 index hlt hfull ih =>
    -- a full word is passed over, so it is full before the word that is found
    have hhere : f.storage.getD index 0 = BitVec.allOnes 64 := not_not.mp hfull
    have hcons : ∀ k, (∀ j, index + 1 ≤ j → j < k → f.storage.getD j 0 = BitVec.allOnes 64) →
        ∀ j, index ≤ j → j < k → f.storage.getD j 0 = BitVec.allOnes 64 := by
      intro k hrest j hlow hhigh
      rcases Nat.eq_or_lt_of_le hlow with rfl | hlow
      · exact hhere
      · exact hrest j hlow hhigh
    cases hnext : f.firstRoom (index + 1) with
    | some k =>
      rw [hnext] at ih
      obtain ⟨hle, hk, hroom, hfirst⟩ := ih
      exact ⟨Nat.le_of_succ_le hle, hk, hroom, hcons k hfirst⟩
    | none =>
      rw [hnext] at ih
      exact hcons f.words ih
  | case3 index hge =>
    exact fun j hlow hhigh => absurd (Nat.lt_of_le_of_lt hlow hhigh) hge

/-- What the search over whole words finds is the lowest free frame. -/
theorem firstRoom_some (hf : Sound f) {k : Nat} (h : f.firstRoom 0 = some k) :
    f.FirstRun 1 0 (some (k * 64 + lowestClear (f.storage.getD k 0))) := by
  have hspec := f.firstRoom_spec 0
  rw [h] at hspec
  obtain ⟨-, hk, hroom, hfull⟩ := hspec
  obtain ⟨hlt, hclear, hset⟩ := lowestClear_spec hroom
  rw [f.getLsbD_word k hlt] at hclear
  refine ⟨Nat.zero_le _, isRun_one.mpr ⟨?_, hclear⟩, ?_⟩
  · -- a clear bit is that of a frame: those behind the last frame are set
    by_contra hge
    have htail := hf.tail _ (Nat.not_lt.mp hge) (by unfold wordBits; omega)
    rw [hclear] at htail
    contradiction
  · intro t _ ht hrun
    have hbit : f.bit t = true := by
      have hsplit : t = t / 64 * 64 + t % 64 := by omega
      have hmod : t % 64 < 64 := Nat.mod_lt _ (by decide)
      rw [hsplit, ← f.getLsbD_word _ hmod]
      by_cases hword : t / 64 = k
      · rw [hword]
        exact hset _ (by omega)
      · rw [hfull _ (Nat.zero_le _) (by omega), BitVec.getLsbD_allOnes, decide_eq_true hmod]
    rw [(isRun_one.mp hrun).2] at hbit
    contradiction

theorem firstRoom_none (h : f.firstRoom 0 = none) : f.FirstRun 1 0 none := by
  have hspec := f.firstRoom_spec 0
  rw [h] at hspec
  intro t _ hrun
  obtain ⟨htotal, hclear⟩ := isRun_one.mp hrun
  have hmod : t % 64 < 64 := Nat.mod_lt _ (by decide)
  have hfull := hspec (t / 64) (Nat.zero_le _) (div_lt_words htotal)
  rw [bit, hfull, BitVec.getLsbD_allOnes, decide_eq_true hmod] at hclear
  contradiction

/-! ## Runs -/

theorem firstUsed_spec (hf : Sound f) (start : Nat) : ∀ n offset, start + offset + n ≤ f.total →
    ∃ r, f.firstUsed start n offset = .ok r ∧
      match r with
      | some o => offset ≤ o ∧ o < offset + n ∧ f.bit (start + o) = true
      | none => ∀ j, offset ≤ j → j < offset + n → f.bit (start + j) = false
  | 0, offset, _ => ⟨none, rfl, fun j hlow hhigh => absurd hlow (Nat.not_le.mpr hhigh)⟩
  | n + 1, offset, hle => by
    have hword : start + offset < wordLimit := hf.word_of_le (by omega)
    have hstep : f.firstUsed start (n + 1) offset
        = if f.bit (start + offset) then .ok (some offset)
          else f.firstUsed start n (offset + 1) := by
      rw [firstUsed, Checked.add_eq_ok hword]
      show (f.inUse (start + offset) >>= _) = _
      rw [inUse_eq_ok (by omega)]
      rfl
    rw [hstep]
    by_cases hbit : f.bit (start + offset) = true
    · exact ⟨some offset, if_pos hbit, Nat.le_refl _, by omega, hbit⟩
    · obtain ⟨r, hr, hspec⟩ := firstUsed_spec hf start n (offset + 1) (by omega)
      refine ⟨r, by rw [if_neg hbit, hr], ?_⟩
      cases r with
      | some o => exact ⟨by omega, by omega, hspec.2.2⟩
      | none =>
        intro j hlow hhigh
        rcases Nat.eq_or_lt_of_le hlow with rfl | hlow
        · exact Bool.eq_false_of_not_eq_true hbit
        · exact hspec j hlow (by omega)

/-- No run starts at or before a frame in use that it would reach. -/
theorem not_isRun_of_bit {used : Nat} (hbit : f.bit used = true) (hle : start ≤ used)
    (hlt : used < start + count) : ¬ f.IsRun count start := by
  intro hrun
  rw [hrun.2 used hle hlt] at hbit
  contradiction

theorem FirstRun.of_later {answer : Option Nat} {later : Nat} (hle : start ≤ later)
    (h : f.FirstRun count later answer)
    (hnone : ∀ t, start ≤ t → t < later → ¬ f.IsRun count t) : f.FirstRun count start answer := by
  cases answer with
  | some s =>
    refine ⟨Nat.le_trans hle h.1, h.2.1, ?_⟩
    intro t hlow hhigh
    by_cases ht : t < later
    · exact hnone t hlow ht
    · exact h.2.2 t (Nat.not_lt.mp ht) hhigh
  | none =>
    intro t hlow
    by_cases ht : t < later
    · exact hnone t hlow ht
    · exact h t (Nat.not_lt.mp ht)

/-- The search for runs answers what it has to, as long as its fuel lasts for the frames
that are left. -/
theorem findRun_spec (hf : Sound f) (hcount : count ≤ f.total) : ∀ fuel start,
    start ≤ f.total → f.total < start + fuel →
    ∃ answer, f.findRun count fuel start = .ok answer ∧ f.FirstRun count start answer
  | 0, start, hle, hfuel => absurd hfuel (Nat.not_lt.mpr hle)
  | fuel + 1, start, hle, hfuel => by
    have hbound : 2 * f.total < wordLimit := hf.word_of_le (Nat.le_refl _)
    rw [findRun, Checked.add_eq_ok (by omega)]
    show ∃ answer, (if start + count ≤ f.total then _ else _) = _ ∧ _
    by_cases hend : start + count ≤ f.total
    · rw [if_pos hend]
      obtain ⟨r, hr, hspec⟩ := firstUsed_spec hf start count 0 (by omega)
      rw [hr]
      cases r with
      | none =>
        refine ⟨some start, rfl, Nat.le_refl _, ⟨hend, ?_⟩, fun t hlow hhigh => by omega⟩
        intro i hlow hhigh
        have hclear := hspec (i - start) (Nat.zero_le _) (by omega)
        rwa [Nat.add_sub_of_le hlow] at hclear
      | some o =>
        -- every run that starts up to the frame in use would reach it
        obtain ⟨-, ho, hbit⟩ := hspec
        obtain ⟨answer, hanswer, hfirst⟩ :=
          findRun_spec hf hcount fuel (start + (o + 1)) (by omega) (by omega)
        refine ⟨answer, ?_, hfirst.of_later (by omega) fun t hlow hhigh =>
          not_isRun_of_bit hbit (by omega) (by omega)⟩
        show (Checked.add o 1 >>= _) = _
        rw [Checked.add_eq_ok (by omega)]
        show (Checked.add start (o + 1) >>= _) = _
        rw [Checked.add_eq_ok (by omega)]
        exact hanswer
    · rw [if_neg hend]
      exact ⟨none, rfl, fun t hlow hrun => hend (by have := hrun.1; omega)⟩

end Search

end FrameMap

end Supervisor

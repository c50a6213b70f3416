import Supervisor.Proofs.Heap.Allocate

/-!
# Allocating at an alignment

What `Heap.allocAligned` does to a sound arena. The data of a block is a multiple
of eight anyway; for more than that a gap is cut off in front of it, wide enough
for a header, and stays behind as a free block.

- `gap`: the gap as a plain function, which `gapFor` computes without a fault
  (`gapFor_eq_ok`), and what it is good for (`gap_spec`, `gap_grain`).
- `run_allocAligned_some`, `run_allocAligned_none`: the first block that is large
  enough behind its gap serves the request, or nothing changes.
- `allocAligned_firstFit`: one of the two always happens; `allocAligned_cases` has
  it as an exchange of live blocks.
-/

namespace Supervisor

namespace Heap

open Memory Header

/-! ## Gaps -/

/-- The least multiple of `align` that is at least `value`. -/
def roundUp (value align : Nat) : Nat :=
  (value + align - 1) / align * align

theorem le_roundUp {align : Nat} (h : 0 < align) (value : Nat) : value ≤ roundUp value align := by
  have hdiv := Nat.div_add_mod' (value + align - 1) align
  have hmod := Nat.mod_lt (value + align - 1) h
  rw [roundUp]
  omega

theorem roundUp_mod (value align : Nat) : roundUp value align % align = 0 :=
  Nat.mul_mod_left _ _

/-- No multiple from `value` on is smaller. -/
theorem roundUp_le {value align q : Nat} (h : 0 < align) (hle : value ≤ q)
    (hq : q % align = 0) : roundUp value align ≤ q := by
  have hlt : value + align - 1 < q + align := by omega
  have hdiv : (value + align - 1) / align ≤ q / align := by
    rw [← Nat.lt_succ_iff, Nat.succ_eq_add_one, ← Nat.add_div_right q h]
    exact Nat.div_lt_div_of_lt_of_dvd
      (Nat.dvd_add (Nat.dvd_of_mod_eq_zero hq) (Nat.dvd_refl align)) hlt
  calc roundUp value align ≤ q / align * align := Nat.mul_le_mul_right align hdiv
    _ = q := Nat.div_mul_cancel (Nat.dvd_of_mod_eq_zero hq)

/-- The bytes to skip in front of a block's data: none, or room for a header. -/
def gap (block align : Nat) : Nat :=
  if roundUp (payload block) align ≠ payload block ∧
      roundUp (payload block) align - payload block < Header.bytes then
    roundUp (payload block + Header.bytes) align - payload block
  else
    roundUp (payload block) align - payload block

theorem gapFor_eq_ok {block align : Nat} (hpos : 0 < align)
    (h : block + 2 * Header.bytes + align < wordLimit) :
    gapFor block align = .ok (gap block align) := by
  have hnear := le_roundUp hpos (payload block)
  have hfar := le_roundUp hpos (payload block + Header.bytes)
  have hdata : Checked.add block Header.bytes = .ok (payload block) :=
    Checked.add_eq_ok (by omega)
  have hnext : Checked.add (payload block) Header.bytes = .ok (payload block + Header.bytes) :=
    Checked.add_eq_ok (by rw [payload]; omega)
  have hup : Checked.alignUp (payload block) align = .ok (roundUp (payload block) align) :=
    Checked.alignUp_eq_ok hpos (by rw [payload]; omega)
  have hup' : Checked.alignUp (payload block + Header.bytes) align
      = .ok (roundUp (payload block + Header.bytes) align) :=
    Checked.alignUp_eq_ok hpos (by rw [payload]; omega)
  simp only [gapFor, hdata, hnext, hup, hup', Checked.sub_eq_ok hnear, bind, Except.bind, gap]
  split
  · exact Checked.sub_eq_ok (by omega)
  · rfl

/-- Behind the gap the data is aligned, and the gap is nothing or a block. -/
theorem gap_spec (block : Nat) {align : Nat} (hpos : 0 < align) :
    (payload block + gap block align) % align = 0 ∧
      (gap block align = 0 ∨ Header.bytes ≤ gap block align) := by
  have hnear := le_roundUp hpos (payload block)
  have hfar := le_roundUp hpos (payload block + Header.bytes)
  rw [gap]
  split
  next =>
    -- too narrow for a header: the gap runs to a later multiple
    rw [Nat.add_sub_of_le (by omega : payload block ≤ _)]
    exact ⟨roundUp_mod _ _, .inr (by omega)⟩
  next hwide =>
    rw [Nat.add_sub_of_le hnear]
    refine ⟨roundUp_mod _ _, ?_⟩
    by_cases heq : roundUp (payload block) align = payload block
    · exact .inl (by omega)
    · exact .inr (Nat.le_of_not_lt fun hlt => hwide ⟨heq, hlt⟩)

theorem gap_grain {block align : Nat} (hpos : 0 < align) (hblock : block % 8 = 0)
    (halign : 8 ∣ align) : gap block align % 8 = 0 := by
  have hspec := (gap_spec block hpos).1
  have hsum : (payload block + gap block align) % 8 = 0 :=
    Nat.mod_eq_zero_of_dvd (Nat.dvd_trans halign (Nat.dvd_of_mod_eq_zero hspec))
  have hbytes : Header.bytes = 32 := rfl
  rw [payload] at hsum
  omega

/-! ## Alignments -/

theorem isPowerOfTwo_iff {n : Nat} : isPowerOfTwo n = true ↔ n ≠ 0 ∧ n = 2 ^ n.log2 := by
  simp [isPowerOfTwo, Nat.one_shiftLeft]

theorem isPowerOfTwo_two_pow (k : Nat) : isPowerOfTwo (2 ^ k) = true :=
  isPowerOfTwo_iff.mpr ⟨Nat.ne_of_gt (Nat.two_pow_pos k), by rw [Nat.log2_two_pow]⟩

/-- Powers of two are comparable by division. -/
theorem dvd_of_isPowerOfTwo {n k : Nat} (h : isPowerOfTwo n = true) (hk : 2 ^ k ≤ n) :
    2 ^ k ∣ n := by
  obtain ⟨-, hn⟩ := isPowerOfTwo_iff.mp h
  rw [hn] at hk ⊢
  exact Nat.pow_dvd_pow 2 ((Nat.pow_le_pow_iff_right (by decide)).mp hk)

theorem isPowerOfTwo_dvd {n k : Nat} (h : isPowerOfTwo n = true) (hk : n ≤ 2 ^ k) : n ∣ 2 ^ k := by
  obtain ⟨-, hn⟩ := isPowerOfTwo_iff.mp h
  rw [hn] at hk ⊢
  exact Nat.pow_dvd_pow 2 ((Nat.pow_le_pow_iff_right (by decide)).mp hk)

/-- A multiple of eight is one of every alignment up to eight. -/
theorem mod_eq_zero_of_le_grain {n x : Nat} (h : isPowerOfTwo n = true) (hn : n ≤ grain)
    (hx : x % grain = 0) : x % n = 0 := by
  have hdvd : n ∣ grain := isPowerOfTwo_dvd (k := 3) h hn
  exact Nat.mod_eq_zero_of_dvd (Nat.dvd_trans hdvd (Nat.dvd_of_mod_eq_zero hx))

/-- The largest alignment that is a word leaves half of the words. -/
theorem two_mul_le_of_isPowerOfTwo {n : Nat} (h : isPowerOfTwo n = true) (hn : n < wordLimit) :
    2 * n ≤ wordLimit := by
  have hdvd : n ∣ 2 ^ 64 := isPowerOfTwo_dvd h (Nat.le_of_lt hn)
  obtain ⟨k, hk⟩ := hdvd
  have hlt : n * 1 < n * k := by
    rw [Nat.mul_one, ← hk]
    exact hn
  have hk2 : 2 ≤ k := Nat.lt_of_mul_lt_mul_left hlt
  calc 2 * n ≤ n * k := by rw [Nat.mul_comm]; exact Nat.mul_le_mul_left n hk2
    _ = wordLimit := hk.symm

/-! ## Aligned requests -/

/-- The gap in front of an aligned block, as a free block or as nothing. -/
def padded (b : Block) (padding : Nat) : List Block :=
  if padding = 0 then [] else [b.front padding]

theorem rest_zero {b : Block} (hb : b.free = true) : b.rest 0 = b := by
  obtain ⟨address, size, free⟩ := b
  simp only at hb
  rw [hb]
  rfl

theorem live_padded {b : Block} (hb : b.free = true) (padding : Nat) :
    live (padded b padding) = [] := by
  unfold padded
  split
  · rfl
  · exact live_cons_free (b := b.front padding) hb []

theorem spaced_padded {b : Block} {l r : List Block} (h : Spaced (l ++ b :: r)) (padding : Nat) :
    Spaced (l ++ padded b padding) := by
  unfold padded
  split
  · rw [List.append_nil]
    exact h.left
  · have hlast : Spaced (l ++ [b]) := by
      rw [List.append_cons] at h
      exact h.left
    exact hlast.replace_last rfl

section Aligned

variable {start limit padding required n align : Nat} {a : Arena} {bs l r : List Block}
  {b : Block}

theorem run_splitFront (h : Laid start limit a.memory (l ++ b :: r)) (hb : b.free = true)
    (hgap : padding = 0 ∨ Header.bytes ≤ padding) (hgrain : padding % grain = 0)
    (hfit : padding + Header.bytes ≤ b.size) :
    ∃ m, (splitFront b.address padding).run a
        = .ok (b.rest padding).address { a with memory := m } ∧
      Laid start limit m ((l ++ padded b padding) ++ b.rest padding :: r) ∧
      KeepsOff ((l ++ padded b padding) ++ b.rest padding :: r) a.memory m := by
  rw [splitFront, padded]
  split
  next hzero =>
    refine ⟨a.memory, ?_, ?_⟩
    · rw [hzero, rest_zero hb, EStateM.run_pure]
    · rw [hzero, rest_zero hb, List.append_nil]
      exact ⟨h, fun _ _ => rfl⟩
  next hne =>
    have hend := h.end_lt
    have hlo : Header.bytes ≤ padding := hgap.resolve_left hne
    refine ⟨cutAt a.memory b.address padding, ?_, ?_⟩
    · exact run_split hlo (by rw [h.size_eq]; omega) (by omega)
    · rw [List.append_assoc, List.singleton_append]
      exact laid_cutAt h hlo hgrain hfit

/-- Whether a block can serve an aligned request. -/
def FitsAligned (required align : Nat) (b : Block) : Prop :=
  b.free = true ∧ gap b.address align + required ≤ b.size

instance (required align : Nat) : DecidablePred (FitsAligned required align) :=
  fun _ => inferInstanceAs (Decidable (_ ∧ _))

/-- Behind a block, aligned data is looked for without a fault, whatever the alignment: the region
ends a header below the half of the words that the largest alignment leaves. -/
theorem Laid.gapFor_eq_ok {m : Memory} (h : Laid start limit m bs) (hb : b ∈ bs)
    (halign : isPowerOfTwo align = true) (hword : align < wordLimit) :
    gapFor b.address align = .ok (gap b.address align) := by
  obtain ⟨-, hsize, hend⟩ := h.bounds hb
  have hbounded := h.bounded
  have hhalf := two_mul_le_of_isPowerOfTwo halign hword
  exact Heap.gapFor_eq_ok (Nat.pos_of_ne_zero (isPowerOfTwo_iff.mp halign).1) (by omega)

/-- The choice among blocks of a layout does not fault. -/
theorem alignedFit?_eq_ok (h : Laid start limit a.memory bs)
    (halign : isPowerOfTwo align = true) (hword : align < wordLimit) :
    ∀ b ∈ bs, alignedFit? required align b
      = .ok (if FitsAligned required align b then some (b.address, gap b.address align)
          else none) := by
  intro b hb
  have hend := (h.bounds hb).2.2
  have hstart := h.inhabited
  have hbounded := h.bounded
  have hgap := h.gapFor_eq_ok hb halign hword
  -- no block is as large as the last word, so the sum may as well stop there
  have hmin : min (gap b.address align + required) (wordLimit - 1) ≤ b.size ↔
      gap b.address align + required ≤ b.size := by
    omega
  cases hfree : b.free with
  | false => simp [alignedFit?, FitsAligned, hfree, pure, Except.pure]
  | true =>
    simp only [alignedFit?, FitsAligned, hfree, hgap, hmin, bind, Except.bind, if_true, true_and]
    split <;> rfl

/-- A gap in front of a free block leaves it free of a free successor. -/
theorem loose_splitFront {m : Memory} (h : Sound a (l ++ b :: r)) (hb : b.free = true)
    (hlaid : Laid a.heap.start a.heap.limit m ((l ++ padded b padding) ++ b.rest padding :: r)) :
    Loose { a with memory := m } (l ++ padded b padding) (b.rest padding) r := by
  have hold := h.loose hb
  have hlive := live_padded hb padding
  refine ⟨hlaid, hold.head, rfl, spaced_padded h.spaced padding, hold.right, ?roomy, ?used, ?count⟩
  case roomy =>
    intro c hc hfree
    rcases List.mem_append.mp hc with hc | hc
    · have hmem : c ∈ live (l ++ padded b padding) := mem_live.mpr ⟨hc, hfree⟩
      rw [live_append, hlive, List.append_nil] at hmem
      exact hold.roomy c (List.mem_append_left r (mem_live.mp hmem).1) hfree
    · exact hold.roomy c (List.mem_append_right l hc) hfree
  case used =>
    show a.heap.used = _
    rw [usedBytes, live_append, hlive, List.append_nil]
    exact hold.used
  case count =>
    show a.heap.count = _
    rw [live_append, hlive, List.append_nil]
    exact hold.count

/-- Of the blocks that can serve an aligned request, the first one does. -/
theorem run_allocAligned_some (h : Sound a (l ++ b :: r)) (hn : n ≠ 0)
    (halign : isPowerOfTwo align = true) (hword : align < wordLimit) (hlarge : ¬ align ≤ grain)
    (hsize : blockSize? n = some required) (hfit : FitsAligned required align b)
    (hfirst : ∀ c ∈ l, ¬ FitsAligned required align c) :
    ∃ a', (allocAligned n align).run a = .ok (some (b.rest (gap b.address align)).data) a' ∧
      Becomes a
        (served (l ++ padded b (gap b.address align)) (b.rest (gap b.address align)) required r) a'
        (served (l ++ padded b (gap b.address align)) (b.rest (gap b.address align)) required r)
          := by
  obtain ⟨hb, hle⟩ := hfit
  have hreq := blockSize?_pos hsize hn
  have hpos : 0 < align := Nat.pos_of_ne_zero (isPowerOfTwo_iff.mp halign).1
  have hgrain : gap b.address align % 8 = 0 := by
    refine gap_grain hpos h.laid.address_aligned ?_
    exact dvd_of_isPowerOfTwo (k := 3) halign (Nat.le_of_not_le hlarge)
  have hfound : (l ++ b :: r).findSome? (fun c => if FitsAligned required align c then
      some (c.address, gap c.address align) else none) = some (b.address, gap b.address align) :=
    List.findSome?_eq_some_iff.mpr
      ⟨l, b, r, rfl, if_pos ⟨hb, hle⟩, fun c hc => if_neg (hfirst c hc)⟩
  obtain ⟨m, hrun, hlaid, hkept⟩ :=
    run_splitFront h.laid hb (gap_spec b.address hpos).2 hgrain (by omega)
  obtain ⟨a', hrun', hbecomes⟩ := (loose_splitFront h hb hlaid).occupy
    (h.spaced.right.replace_head hb.symm) hreq (blockSize?_spec hsize).2 (Nat.le_sub_of_add_le' hle)
  refine ⟨a', ?_, hbecomes.sound, hbecomes.start, hbecomes.limit, ?_⟩
  · rw [allocAligned, if_neg (by simp [hn, halign]), if_neg hlarge]
    simp only [hsize]
    rw [run_bind_ok (run_find h (alignedFit?_eq_ok h.laid halign hword)), hfound]
    simp only
    rw [run_bind_ok hrun]
    exact run_map_ok hrun' some
  · have hsub := hkept.replace (taken_address _ required) fun c hc =>
      List.mem_append_right (leftover (b.rest (gap b.address align)) required) hc
    exact hsub.trans hbecomes.kept

theorem run_allocAligned_none (h : Sound a bs) (hn : n ≠ 0) (halign : isPowerOfTwo align = true)
    (hword : align < wordLimit) (hlarge : ¬ align ≤ grain)
    (hnone : ∀ required, blockSize? n = some required →
      ∀ b ∈ bs, ¬ FitsAligned required align b) :
    (allocAligned n align).run a = .ok none a := by
  rw [allocAligned, if_neg (by simp [hn, halign]), if_neg hlarge]
  cases hsize : blockSize? n with
  | none => simp only [EStateM.run_pure]
  | some required =>
    have hfound : bs.findSome? (fun c => if FitsAligned required align c then
        some (c.address, gap c.address align) else none) = none :=
      List.findSome?_eq_none_iff.mpr fun b hb => if_neg (hnone required hsize b hb)
    simp only
    rw [run_bind_ok (run_find h (alignedFit?_eq_ok h.laid halign hword)), hfound]
    exact EStateM.run_pure none a

/-- Up to eight, an alignment asks for nothing that blocks do not have anyway. -/
theorem allocAligned_small_cases (h : Sound a bs) (hn : n ≠ 0)
    (halign : isPowerOfTwo align = true) (hsmall : align ≤ grain) :
    (allocAligned n align).run a = .ok none a ∨
    ∃ q a' bs', (allocAligned n align).run a = .ok (some q.data) a' ∧ n ≤ q.capacity ∧
      q.data % align = 0 ∧ Exchange a bs [] [q] (live bs) a' bs' := by
  have hrun : (allocAligned n align).run a = (alloc n).run a := by
    rw [allocAligned, if_neg (by simp [hn, halign]), if_pos hsmall]
  rw [hrun]
  rcases alloc_cases h n with ⟨hnone, -⟩ | ⟨q, a', bs', -, hsome, hroom, hex⟩
  · exact .inl hnone
  · refine .inr ⟨q, a', bs', hsome, hroom, ?_, hex⟩
    have hmem : q ∈ live bs' := hex.after.mem_iff.mpr List.mem_cons_self
    have hdata := hex.sound.laid.data_aligned (mem_live.mp hmem).1
    exact mod_eq_zero_of_le_grain halign hsmall hdata

/-- Only a request for at least one byte at a power of two is given a pointer. -/
theorem valid_of_allocAligned {a' : Arena} {p : Nat}
    (hrun : (allocAligned n align).run a = .ok (some p) a') :
    n ≠ 0 ∧ isPowerOfTwo align = true := by
  by_cases hbad : n = 0 ∨ isPowerOfTwo align = false
  · rw [allocAligned, if_pos (by simpa using hbad)] at hrun
    injection hrun with hnone
    contradiction
  · simpa using hbad

/-- Beyond eight, the first block with room behind its gap serves the request, or
there is none and nothing changes. -/
theorem allocAligned_firstFit (h : Sound a bs) (hn : n ≠ 0) (halign : isPowerOfTwo align = true)
    (hword : align < wordLimit) (hlarge : ¬ align ≤ grain) :
    ((allocAligned n align).run a = .ok none a ∧
      ∀ required, blockSize? n = some required → ∀ b ∈ bs, ¬ FitsAligned required align b) ∨
    ∃ l b r required a', bs = l ++ b :: r ∧ blockSize? n = some required ∧
      FitsAligned required align b ∧ (∀ c ∈ l, ¬ FitsAligned required align c) ∧
      (allocAligned n align).run a = .ok (some (b.rest (gap b.address align)).data) a' ∧
      Becomes a
        (served (l ++ padded b (gap b.address align)) (b.rest (gap b.address align)) required r) a'
        (served (l ++ padded b (gap b.address align)) (b.rest (gap b.address align)) required r)
          := by
  cases hsize : blockSize? n with
  | none =>
    have hnone : ∀ required, blockSize? n = some required →
        ∀ b ∈ bs, ¬ FitsAligned required align b := by simp [hsize]
    exact .inl ⟨run_allocAligned_none h hn halign hword hlarge hnone, hsize ▸ hnone⟩
  | some required =>
    rcases exists_first (FitsAligned required align) bs with
      ⟨l, b, r, rfl, hfit, hfirst⟩ | hnone
    · obtain ⟨a', hrun, hbecomes⟩ :=
        run_allocAligned_some h hn halign hword hlarge hsize hfit hfirst
      exact .inr ⟨l, b, r, required, a', rfl, rfl, hfit, hfirst, hrun, hbecomes⟩
    · have hnone' : ∀ q, blockSize? n = some q → ∀ b ∈ bs, ¬ FitsAligned q align b := by
        intro q hq
        rw [hsize, Option.some.injEq] at hq
        exact hq ▸ hnone
      exact .inl ⟨run_allocAligned_none h hn halign hword hlarge hnone', hsize ▸ hnone'⟩

/-- Beyond eight, a request adds a live block at a multiple of the alignment, or nothing
changes. -/
theorem allocAligned_large_cases (h : Sound a bs) (hn : n ≠ 0)
    (halign : isPowerOfTwo align = true) (hword : align < wordLimit) (hlarge : ¬ align ≤ grain) :
    (allocAligned n align).run a = .ok none a ∨
    ∃ q a' bs', (allocAligned n align).run a = .ok (some q.data) a' ∧ n ≤ q.capacity ∧
      q.data % align = 0 ∧ Exchange a bs [] [q] (live bs) a' bs' := by
  rcases allocAligned_firstFit h hn halign hword hlarge with ⟨hrun, -⟩ |
    ⟨l, b, r, required, a', rfl, hsize, hfit, -, hrun, hbecomes⟩
  · exact .inl hrun
  · have hpos : 0 < align := Nat.pos_of_ne_zero (isPowerOfTwo_iff.mp halign).1
    have hrest : required ≤ (b.rest (gap b.address align)).size := Nat.le_sub_of_add_le' hfit.2
    rw [← taken_data _ required] at hrun
    refine .inr ⟨_, a', _, hrun, le_taken_capacity hsize hrest, ?_, hbecomes.exchange_served ?_⟩
    · have hspec := (gap_spec b.address hpos).1
      rw [taken_data]
      show (b.address + gap b.address align + Header.bytes) % align = 0
      rwa [Nat.add_right_comm]
    · rw [live_append, live_append, live_padded hfit.1, List.append_nil, live_cons_free hfit.1]

/-- An aligned request adds a live block that has room for it at a multiple of the
alignment, or nothing changes. -/
theorem allocAligned_cases (h : Sound a bs) (n : Nat) (hword : align < wordLimit) :
    (allocAligned n align).run a = .ok none a ∨
    ∃ q a' bs', (allocAligned n align).run a = .ok (some q.data) a' ∧ n ≤ q.capacity ∧
      q.data % align = 0 ∧ Exchange a bs [] [q] (live bs) a' bs' := by
  by_cases hbad : n = 0 ∨ isPowerOfTwo align = false
  · refine .inl ?_
    rw [allocAligned, if_pos (by simpa using hbad), EStateM.run_pure]
  · obtain ⟨hn, halign⟩ : n ≠ 0 ∧ isPowerOfTwo align = true := by simpa using hbad
    by_cases hsmall : align ≤ grain
    · exact allocAligned_small_cases h hn halign hsmall
    · exact allocAligned_large_cases h hn halign hword hsmall

end Aligned

end Heap

end Supervisor

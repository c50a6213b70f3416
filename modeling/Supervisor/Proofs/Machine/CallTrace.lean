import Supervisor.Proofs.Machine.Fatal

/-!
# Call traces

A call trace is what is found by following a frame pointer through memory, of which nothing is
known: the chain may lead anywhere, downwards or in a circle.

- `Trace.pointer`, `Trace.returnAt`: the chain that starts at a frame pointer. `Trace.Ascends` says
  how much of it can be followed.
- `Trace.Walker.pass`, `Trace.Walker.run`: the loop that follows it. It writes into slots and
  keeps account of what it reads. `Trace.Walker.pass_cases` is all that one pass can do.
- `Trace.Underway`, `Trace.Walked`: what holds before each pass and behind the last one
  (`Trace.Underway.pass`, `Trace.Underway.run`).
- `Trace.follow_run`: following a chain lists what the loop writes, and stops at the first word of
  those that the loop reads that cannot be read.
- `Machine.callTrace_longest` says what a call trace consists of, and that this is what the report
  about an exception lists.
-/

namespace Supervisor

namespace Trace

/-! ## The chain of frames -/

/-- The frame pointers of a chain. Each of them but the first is stored where the one before it
points. -/
def pointer (m : Memory) (rbp : UInt64) : Nat → UInt64
  | 0 => rbp
  | i + 1 => UInt64.ofNat (m.word (pointer m rbp i).toNat)

/-- The return address that is stored behind a frame pointer. -/
def returnAt (m : Memory) (rbp : UInt64) (i : Nat) : UInt64 :=
  UInt64.ofNat (m.word ((pointer m rbp i).toNat + 8))

/-- A chain of `n` frames can be followed: all frame pointers are valid, no return address is
zero, and every frame is higher on the stack than the one before it. -/
structure Ascends (m : Memory) (rbp : UInt64) (n : Nat) : Prop where
  valid : ∀ i < n, followable (pointer m rbp i) = true
  returning : ∀ i < n, returnAt m rbp i ≠ 0
  rising : ∀ i, i + 1 < n → pointer m rbp i < pointer m rbp (i + 1)

/-- A frame pointer that is reached within `n` steps, or the address behind it. It does not wrap,
and neither does the word there. -/
structure InChain (m : Memory) (rbp : UInt64) (n : Nat) (address : UInt64) : Prop where
  source : ∃ i ≤ n, i < depthLimit ∧ followable (pointer m rbp i) = true ∧
    (address.toNat = (pointer m rbp i).toNat ∨ address.toNat = (pointer m rbp i).toNat + 8)
  word : address.toNat + 8 ≤ wordLimit

section Chains

variable {m : Memory} {rbp : UInt64} {i n k : Nat}

theorem toNat_of_followable {r : UInt64} (h : followable r = true) :
    (r + 8).toNat = r.toNat + 8 ∧ r.toNat + 16 ≤ wordLimit := by
  simp only [followable, Bool.and_eq_true, decide_eq_true_iff] at h
  have hhigh : r.toNat < 0xFFFFFFFFFFFFFF00 := UInt64.lt_iff_toNat_lt.mp h.2
  have hwrap : r.toNat + 8 < UInt64.size := by
    unfold UInt64.size
    omega
  refine ⟨?_, by unfold wordLimit; omega⟩
  rw [UInt64.toNat_add]
  exact Nat.mod_eq_of_lt hwrap

theorem Ascends.zero (m : Memory) (rbp : UInt64) : Ascends m rbp 0 :=
  ⟨fun _ h => absurd h (Nat.not_lt_zero _), fun _ h => absurd h (Nat.not_lt_zero _),
    fun _ h => absurd h (Nat.not_lt_zero _)⟩

theorem Ascends.mono (h : Ascends m rbp n) (hle : k ≤ n) : Ascends m rbp k where
  valid := fun i hi => h.valid i (Nat.lt_of_lt_of_le hi hle)
  returning := fun i hi => h.returning i (Nat.lt_of_lt_of_le hi hle)
  rising := fun i hi => h.rising i (Nat.lt_of_lt_of_le hi hle)

theorem InChain.mono {address : UInt64} (h : InChain m rbp k address) (hle : k ≤ n) :
    InChain m rbp n address := by
  obtain ⟨⟨i, hi, hsource⟩, hword⟩ := h
  exact ⟨⟨i, Nat.le_trans hi hle, hsource⟩, hword⟩

/-- One more frame. -/
theorem Ascends.succ (h : Ascends m rbp n) (hvalid : followable (pointer m rbp n) = true)
    (hreturning : returnAt m rbp n ≠ 0)
    (hrising : ∀ i, i + 1 = n → pointer m rbp i < pointer m rbp (i + 1)) :
    Ascends m rbp (n + 1) where
  valid := fun i hi => (Nat.lt_succ_iff_lt_or_eq.mp hi).elim (h.valid i) fun heq => heq ▸ hvalid
  returning := fun i hi =>
    (Nat.lt_succ_iff_lt_or_eq.mp hi).elim (h.returning i) fun heq => heq ▸ hreturning
  rising := fun i hi => (Nat.lt_succ_iff_lt_or_eq.mp hi).elim (h.rising i) (hrising i)

/-- A chain that cannot be followed any further is the longest one. -/
theorem Ascends.isGreatest (h : Ascends m rbp n) (hle : n ≤ depthLimit)
    (hstop : n < depthLimit → ¬ Ascends m rbp (n + 1)) :
    IsGreatest {n | n ≤ depthLimit ∧ Ascends m rbp n} n := by
  refine ⟨⟨hle, h⟩, fun k hk => ?_⟩
  by_contra hlt
  have hlt : n < k := Nat.not_le.mp hlt
  exact hstop (Nat.lt_of_lt_of_le hlt hk.1) (hk.2.mono hlt)

end Chains

/-! ## The loop -/

/-- A walk in progress. -/
structure Walker where
  /-- The frame pointer it has come to. -/
  rbp : UInt64
  /-- How many return addresses it has written. -/
  depth : Nat := 0
  /-- Where it writes them. -/
  slots : Vector UInt64 depthLimit
  /-- The addresses of the words that it has read. -/
  reads : List UInt64 := []
  /-- How often the body of the loop was entered. -/
  passes : Nat := 0

namespace Walker

/-- The return address that the walker has come to. -/
def back (m : Memory) (w : Walker) : UInt64 :=
  UInt64.ofNat (m.word (w.rbp + 8).toNat)

/-- The frame pointer of the caller. -/
def caller (m : Memory) (w : Walker) : UInt64 :=
  UInt64.ofNat (m.word w.rbp.toNat)

/-- The walker after it has read a return address that it does not write. -/
def looked (w : Walker) : Walker :=
  { w with
    reads := w.reads ++ [w.rbp + 8]
    passes := w.passes + 1 }

/-- The walker after it has read and written a return address, and has read the frame pointer
of the caller. -/
def listed (m : Memory) (w : Walker) (h : w.depth < depthLimit) : Walker :=
  { w with
    depth := w.depth + 1
    slots := w.slots.set w.depth (w.back m)
    reads := w.reads ++ [w.rbp + 8, w.rbp]
    passes := w.passes + 1 }

/-- The walker at another frame. -/
def moved (w : Walker) (r : UInt64) : Walker :=
  { w with rbp := r }

/-- The return addresses that the walker has written. -/
def listing (w : Walker) : List UInt64 :=
  w.slots.toList.take w.depth

/-- One pass through the loop, which ends it or goes on. -/
def pass (m : Memory) (w : Walker) : ForInStep Walker :=
  if h : w.depth < depthLimit ∧ followable w.rbp = true then
    if w.back m = 0 then .done w.looked
    else if w.caller m ≤ w.rbp then .done (w.listed m h.1)
    else .yield ((w.listed m h.1).moved (w.caller m))
  else .done w

section Passes

variable {m : Memory} {w w' : Walker}

/-- What a pass can do: it ends the loop at once, at a return address of zero or behind a
return address, or it goes on to the caller. -/
theorem pass_cases (m : Memory) (w : Walker) :
    (¬ (w.depth < depthLimit ∧ followable w.rbp = true) ∧ pass m w = .done w) ∨
    ∃ h : w.depth < depthLimit, followable w.rbp = true ∧
      (w.back m = 0 ∧ pass m w = .done w.looked ∨
      w.back m ≠ 0 ∧ (w.caller m ≤ w.rbp ∧ pass m w = .done (w.listed m h) ∨
        w.rbp < w.caller m ∧ pass m w = .yield ((w.listed m h).moved (w.caller m)))) := by
  rw [pass]
  by_cases h : w.depth < depthLimit ∧ followable w.rbp = true
  · refine .inr ⟨h.1, h.2, ?_⟩
    rw [dif_pos h]
    by_cases hback : w.back m = 0
    · exact .inl ⟨hback, if_pos hback⟩
    · refine .inr ⟨hback, ?_⟩
      rw [if_neg hback]
      by_cases hcaller : w.caller m ≤ w.rbp
      · exact .inl ⟨hcaller, if_pos hcaller⟩
      · exact .inr ⟨UInt64.not_le.mp hcaller, if_neg hcaller⟩
  · exact .inl ⟨h, dif_neg h⟩

/-- A pass that goes on has written one more return address. -/
theorem depth_of_pass (hpass : pass m w = .yield w') :
    w.depth < depthLimit ∧ w'.depth = w.depth + 1 := by
  rcases pass_cases m w with ⟨-, hdone⟩ | ⟨h, -, ⟨-, hdone⟩ | ⟨-, ⟨-, hdone⟩ | ⟨-, hyield⟩⟩⟩
  · cases hdone.symm.trans hpass
  · cases hdone.symm.trans hpass
  · cases hdone.symm.trans hpass
  · rw [hyield] at hpass
    injection hpass with hw'
    exact ⟨h, hw' ▸ rfl⟩

/-- The whole loop. -/
def run (m : Memory) (w : Walker) : Walker :=
  match h : pass m w with
  | .done w' => w'
  | .yield w' =>
    have := depth_of_pass h
    run m w'
termination_by depthLimit - w.depth
decreasing_by omega

theorem run_of_done (h : pass m w = .done w') : run m w = w' := by
  rw [run]
  split
  · next w'' heq =>
    rw [h] at heq
    injection heq with hw
    exact hw.symm
  · next w'' heq =>
    rw [h] at heq
    cases heq

theorem run_of_yield (h : pass m w = .yield w') : run m w = run m w' := by
  rw [run]
  split
  · next w'' heq =>
    rw [h] at heq
    cases heq
  · next w'' heq =>
    rw [h] at heq
    injection heq with hw
    rw [hw]

end Passes

end Walker

/-! ## What a walk has done -/

/-- What a walker has done that started at `rbp` with the given slots.
1. It has come through a chain that can be followed.
2. It has written the return addresses of the chain in order, and nothing behind them.
3. It has read frame pointers and the addresses behind them, none of them beyond the frame that
   it has come to. -/
structure Came (m : Memory) (rbp : UInt64) (slots : Vector UInt64 depthLimit) (w : Walker) :
    Prop where
  bound : w.depth ≤ depthLimit
  chain : Ascends m rbp w.depth
  written : ∀ i, (h : i < depthLimit) →
    w.slots[i] = if i < w.depth then returnAt m rbp i else slots[i]
  reads : ∀ address ∈ w.reads, InChain m rbp w.depth address

/-- A walk that goes on: the next frame pointer is the next one of the chain, and it is higher
than the one before it. -/
structure Underway (m : Memory) (rbp : UInt64) (slots : Vector UInt64 depthLimit) (w : Walker) :
    Prop extends Came m rbp slots w where
  place : w.rbp = pointer m rbp w.depth
  rising : ∀ i, i + 1 = w.depth → pointer m rbp i < pointer m rbp (i + 1)
  passes : w.passes = w.depth

/-- A walk that is over: the chain is the longest one, and the body of the loop was entered at
most as often as there are slots. -/
structure Walked (m : Memory) (rbp : UInt64) (slots : Vector UInt64 depthLimit) (w : Walker) :
    Prop extends Came m rbp slots w where
  longest : IsGreatest {n | n ≤ depthLimit ∧ Ascends m rbp n} w.depth
  passes : w.passes ≤ depthLimit

section Walks

open Walker

variable {m : Memory} {rbp : UInt64} {slots : Vector UInt64 depthLimit} {w w' : Walker}

/-- Where a walker goes on to does not matter for what it has done. -/
theorem Came.moved (h : Came m rbp slots w) (r : UInt64) :
    Came m rbp slots (w.moved r) :=
  ⟨h.bound, h.chain, h.written, h.reads⟩

theorem Underway.start (m : Memory) (rbp : UInt64) (slots : Vector UInt64 depthLimit) :
    Underway m rbp slots { rbp, slots } where
  bound := Nat.zero_le _
  chain := .zero m rbp
  written := fun _ _ => (if_neg (Nat.not_lt_zero _)).symm
  reads := fun _ h => nomatch h
  place := rfl
  rising := fun _ h => nomatch h
  passes := rfl

namespace Underway

variable (h : Underway m rbp slots w)

include h

theorem caller_eq : w.caller m = pointer m rbp (w.depth + 1) := by
  rw [caller, h.place]
  rfl

theorem back_eq (hvalid : followable w.rbp = true) : w.back m = returnAt m rbp w.depth := by
  rw [back, returnAt, (toNat_of_followable hvalid).1, h.place]

/-- The frame pointer that the walk has come to may be read, and so may the address behind it. -/
theorem inChain (hdepth : w.depth < depthLimit) (hvalid : followable w.rbp = true) :
    InChain m rbp w.depth w.rbp ∧ InChain m rbp w.depth (w.rbp + 8) := by
  obtain ⟨hnext, hword⟩ := toNat_of_followable hvalid
  have hsource : followable (pointer m rbp w.depth) = true := h.place ▸ hvalid
  have hle := Nat.le_refl w.depth
  exact ⟨⟨⟨w.depth, hle, hdepth, hsource, .inl (by rw [h.place])⟩, by omega⟩,
    ⟨⟨w.depth, hle, hdepth, hsource, .inr (by rw [hnext, h.place])⟩, by omega⟩⟩

theorem came_looked (hdepth : w.depth < depthLimit) (hvalid : followable w.rbp = true) :
    Came m rbp slots w.looked where
  bound := h.bound
  chain := h.chain
  written := h.written
  reads := fun address haddress => by
    rcases List.mem_append.mp haddress with haddress | haddress
    · exact h.reads address haddress
    · rw [List.mem_singleton.mp haddress]
      exact (h.inChain hdepth hvalid).2

theorem came_listed (hdepth : w.depth < depthLimit) (hvalid : followable w.rbp = true)
    (hback : w.back m ≠ 0) : Came m rbp slots (w.listed m hdepth) where
  bound := hdepth
  chain := h.chain.succ (h.place ▸ hvalid) (h.back_eq hvalid ▸ hback) h.rising
  written := fun i hi => by
    show (w.slots.set w.depth (w.back m))[i] = if i < w.depth + 1 then _ else _
    rw [Vector.getElem_set]
    by_cases hlast : w.depth = i
    · subst hlast
      rw [if_pos rfl, if_pos (Nat.lt_succ_self _), h.back_eq hvalid]
    · rw [if_neg hlast, h.written i hi]
      exact if_congr (by omega) rfl rfl
  reads := fun address haddress => by
    obtain ⟨hrbp, hbehind⟩ := h.inChain hdepth hvalid
    simp only [listed, List.mem_append, List.mem_cons, List.not_mem_nil, or_false] at haddress
    refine InChain.mono ?_ (Nat.le_succ w.depth)
    rcases haddress with haddress | rfl | rfl
    · exact h.reads address haddress
    · exact hbehind
    · exact hrbp

/-- The step lemma: a pass goes on to the next frame, or the walk is over. -/
theorem pass :
    (∃ w', Walker.pass m w = .yield w' ∧ Underway m rbp slots w') ∨
      ∃ w', Walker.pass m w = .done w' ∧ Walked m rbp slots w' := by
  have hle := h.bound
  have hpasses := h.passes
  rcases pass_cases m w with ⟨hstop, hdone⟩ | ⟨hdepth, hvalid, hcases⟩
  · -- the next frame pointer is not valid, unless all slots are full
    refine .inr ⟨w, hdone, { h.toCame with longest := ?_, passes := by omega }⟩
    refine h.chain.isGreatest hle fun hlt hnext => hstop ⟨hlt, ?_⟩
    rw [h.place]
    exact hnext.valid _ (Nat.lt_succ_self _)
  rcases hcases with ⟨hzero, hdone⟩ | ⟨hback, ⟨hcaller, hdone⟩ | ⟨hcaller, hyield⟩⟩
  · -- the next return address is zero
    refine .inr ⟨_, hdone, { h.came_looked hdepth hvalid with
      longest := ?_, passes := by show w.passes + 1 ≤ _; omega }⟩
    refine h.chain.isGreatest hle fun _ hnext => ?_
    exact hnext.returning _ (Nat.lt_succ_self _) (h.back_eq hvalid ▸ hzero)
  · -- the caller is not higher on the stack
    have hcame := h.came_listed hdepth hvalid hback
    refine .inr ⟨_, hdone, { hcame with
      longest := ?_, passes := by show w.passes + 1 ≤ _; omega }⟩
    refine hcame.chain.isGreatest hdepth fun _ hnext => ?_
    have hrising := hnext.rising w.depth (Nat.lt_succ_self _)
    rw [← h.place, ← h.caller_eq] at hrising
    exact UInt64.not_lt.mpr hcaller hrising
  · -- the caller is the next frame
    have hcame := h.came_listed hdepth hvalid hback
    have hrising (i : Nat) (hi : i + 1 = w.depth + 1) :
        pointer m rbp i < pointer m rbp (i + 1) := by
      rw [Nat.succ_injective hi, ← h.place, ← h.caller_eq]
      exact hcaller
    exact .inl ⟨_, hyield, ⟨hcame.moved _, h.caller_eq, hrising, congrArg (· + 1) hpasses⟩⟩

/-- The run lemma: wherever it is, a walk ends, with the longest chain. -/
theorem run : Walked m rbp slots (Walker.run m w) := by
  induction w using Walker.run.induct m with
  | case1 w w' hdone =>
    rcases h.pass with ⟨w'', hyield, -⟩ | ⟨w'', hdone', hwalked⟩
    · cases hdone.symm.trans hyield
    · rw [run_of_done hdone']
      exact hwalked
  | case2 w w' hyield _ ih =>
    rcases h.pass with ⟨w'', hyield', hunderway⟩ | ⟨w'', hdone, -⟩
    · rw [hyield] at hyield'
      injection hyield' with hw
      rw [run_of_yield hyield]
      exact ih (hw ▸ hunderway)
    · cases hyield.symm.trans hdone

end Underway

/-! ## The list of a chain -/

section Lists

variable {readable : Nat → Bool} {fuel : Nat}

theorem listing_moved (w : Walker) (r : UInt64) : (w.moved r).listing = w.listing := rfl

theorem listing_listed (h : w.depth < depthLimit) :
    (w.listed m h).listing = w.listing ++ [w.back m] := by
  have hlength : w.depth < w.slots.toList.length := by
    rw [Vector.length_toList]
    exact h
  show (w.slots.set w.depth (w.back m)).toList.take (w.depth + 1) = _
  rw [Vector.toList_set, List.take_add_one, List.take_set_of_le (Nat.le_refl _),
    List.getElem?_set_self hlength]
  rfl

/-- The first word of a list that cannot be read. -/
def firstUnreadable (readable : Nat → Bool) (reads : List UInt64) : Option Nat :=
  (reads.map UInt64.toNat).find? fun address => !readable address

theorem firstUnreadable_eq_none {reads : List UInt64} : firstUnreadable readable reads = none ↔
    ∀ address ∈ reads, readable address.toNat = true := by
  simp [firstUnreadable]

theorem firstUnreadable_cons (a : UInt64) (as : List UInt64) :
    firstUnreadable readable (a :: as) =
      if readable a.toNat then firstUnreadable readable as else some a.toNat := by
  rw [firstUnreadable, List.map_cons, List.find?_cons]
  cases readable a.toNat <;> rfl

/-- A frame whose return address is zero is not listed. -/
theorem follow_zero (hvalid : followable w.rbp = true) (hzero : w.back m = 0) :
    follow readable m (fuel + 1) w.rbp =
      { unreadable := firstUnreadable readable [w.rbp + 8] } := by
  have hnext := (toNat_of_followable hvalid).1
  rw [back, hnext] at hzero
  rw [follow, if_pos hvalid, firstUnreadable_cons, hnext]
  dsimp only
  rw [hzero, if_pos rfl]
  split <;> rfl

/-- A frame with a return address is listed, and what follows it. -/
theorem follow_listed (hvalid : followable w.rbp = true) (hback : w.back m ≠ 0) {rest : Chain}
    (hrest : (if w.rbp < w.caller m then follow readable m fuel (w.caller m) else {}) = rest)
    {reads : List UInt64} (hreads : rest.unreadable = firstUnreadable readable reads) :
    (follow readable m (fuel + 1) w.rbp).unreadable =
        firstUnreadable readable ((w.rbp + 8) :: w.rbp :: reads) ∧
      ((follow readable m (fuel + 1) w.rbp).unreadable = none → rest.unreadable = none ∧
        (follow readable m (fuel + 1) w.rbp).returns = w.back m :: rest.returns) := by
  have hnext := (toNat_of_followable hvalid).1
  rw [back, hnext] at hback ⊢
  rw [caller] at hrest
  rw [follow, if_pos hvalid, firstUnreadable_cons, firstUnreadable_cons, hnext]
  dsimp only
  rw [if_neg hback, hrest, ← hreads]
  by_cases hupper : readable (w.rbp.toNat + 8) = true
  · rw [if_pos hupper, if_pos hupper]
    by_cases hlower : readable w.rbp.toNat = true
    · rw [if_pos hlower, if_pos hlower]
      exact ⟨rfl, fun hnone => ⟨hnone, rfl⟩⟩
    · rw [if_neg hlower, if_neg hlower]
      exact ⟨rfl, fun hnone => absurd hnone (Option.some_ne_none _)⟩
  · rw [if_neg hupper, if_neg hupper]
    exact ⟨rfl, fun hnone => absurd hnone (Option.some_ne_none _)⟩

/-- Following a chain lists what the loop writes. It reads what the loop reads, up to the first
word that cannot be read. -/
theorem follow_run (readable : Nat → Bool) (h : w.depth + fuel = depthLimit) :
    ∃ reads, (Walker.run m w).reads = w.reads ++ reads ∧
      (follow readable m fuel w.rbp).unreadable = firstUnreadable readable reads ∧
      ((follow readable m fuel w.rbp).unreadable = none →
        w.listing ++ (follow readable m fuel w.rbp).returns = (Walker.run m w).listing) := by
  induction fuel generalizing w with
  | zero =>
    have hdone : pass m w = .done w := dif_neg fun hon => by omega
    rw [run_of_done hdone]
    exact ⟨[], (List.append_nil _).symm, rfl, fun _ => List.append_nil _⟩
  | succ fuel ih =>
    have hdepth : w.depth < depthLimit := by omega
    rcases pass_cases m w with ⟨hstop, hdone⟩ | ⟨_, hvalid, hcases⟩
    · have hinvalid : ¬ followable w.rbp = true := fun hvalid => hstop ⟨hdepth, hvalid⟩
      rw [run_of_done hdone, follow, if_neg hinvalid]
      exact ⟨[], (List.append_nil _).symm, rfl, fun _ => List.append_nil _⟩
    rcases hcases with ⟨hzero, hdone⟩ | ⟨hback, ⟨hcaller, hdone⟩ | ⟨hcaller, hyield⟩⟩
    · rw [run_of_done hdone, follow_zero hvalid hzero]
      exact ⟨_, rfl, rfl, fun _ => List.append_nil _⟩
    · have hend : ({} : Chain).unreadable = firstUnreadable readable [] := rfl
      obtain ⟨hunreadable, hreturns⟩ :=
        follow_listed hvalid hback (if_neg (UInt64.not_lt.mpr hcaller)) hend
      rw [run_of_done hdone]
      refine ⟨_, rfl, hunreadable, fun hnone => ?_⟩
      rw [(hreturns hnone).2, listing_listed]
    · obtain ⟨reads, hreads, hrest, hlisting⟩ :=
        ih (w := (w.listed m hdepth).moved (w.caller m)) (by show w.depth + 1 + fuel = _; omega)
      obtain ⟨hunreadable, hreturns⟩ := follow_listed hvalid hback (if_pos hcaller) hrest
      rw [run_of_yield hyield]
      refine ⟨(w.rbp + 8) :: w.rbp :: reads, ?_, hunreadable, fun hnone => ?_⟩
      · rw [hreads]
        exact List.append_assoc _ _ _
      · obtain ⟨hnone', heq⟩ := hreturns hnone
        rw [heq, ← hlisting hnone', listing_moved, listing_listed, ← List.append_cons]
        rfl

end Lists

/-! ## The whole walk -/

/-- The walk from a frame pointer, with the slots that it writes to. -/
def walkInto (m : Memory) (rbp : UInt64) (slots : Vector UInt64 depthLimit) : Walker :=
  Walker.run m { rbp, slots }

/-- A call trace as it is put together: the interrupted instruction, and behind it what was
walked, as far as there is room for it in as many slots. -/
def assemble (rip : UInt64) (w : Walker) : List UInt64 :=
  let depth := 1 + min w.depth (depthLimit - 1)
  let trace : Vector UInt64 depthLimit := .ofFn fun i =>
    if i.val = 0 then rip else if i.val < depth then w.slots[i.val - 1] else 0
  trace.toList.take depth

theorem walkInto_walked (m : Memory) (rbp : UInt64) (slots : Vector UInt64 depthLimit) :
    Walked m rbp slots (walkInto m rbp slots) :=
  (Underway.start m rbp slots).run

/-- A walk lists what was written into the slots, and finds the first word that was read and
cannot be read. -/
theorem walk_walkInto (readable : Nat → Bool) (m : Memory) (rbp : UInt64)
    (slots : Vector UInt64 depthLimit) :
    let w := walkInto m rbp slots
    (walk readable m rbp).unreadable = firstUnreadable readable w.reads ∧
      ((walk readable m rbp).unreadable = none → (walk readable m rbp).returns = w.listing) := by
  intro w
  obtain ⟨reads, hreads, hunreadable, hlisting⟩ :=
    follow_run (m := m) (w := { rbp, slots }) readable (Nat.zero_add depthLimit)
  refine ⟨?_, hlisting⟩
  show _ = firstUnreadable readable (Walker.run m { rbp, slots }).reads
  rw [hreads]
  exact hunreadable

namespace Came

variable (h : Came m rbp slots w)

include h

theorem length_listing : w.listing.length = w.depth := by
  rw [listing, List.length_take, Vector.length_toList]
  exact Nat.min_eq_left h.bound

theorem listing_eq : w.listing = (List.range w.depth).map (returnAt m rbp) := by
  apply List.ext_getElem
  · rw [h.length_listing, List.length_map, List.length_range]
  · intro i hi hi'
    rw [h.length_listing] at hi
    have hwritten := h.written i (Nat.lt_of_lt_of_le hi h.bound)
    rw [if_pos hi] at hwritten
    simpa [listing] using hwritten

/-- The slots behind the listing are as they were. -/
theorem record_eq : w.slots.toList = record slots.toList w.listing := by
  have hrest : w.slots.toList.drop w.depth = slots.toList.drop w.depth := by
    apply List.ext_getElem
    · simp
    · intro i hi hi'
      rw [List.length_drop, Vector.length_toList] at hi
      have hwritten := h.written (w.depth + i) (by omega)
      rw [if_neg (by omega)] at hwritten
      simpa using hwritten
  rw [record, h.length_listing, ← hrest]
  exact (List.take_append_drop _ _).symm

theorem assemble_eq (rip : UInt64) : assemble rip w = ofInterrupted rip w.listing := by
  have hbound := h.bound
  apply List.ext_getElem
  · simp only [assemble, ofInterrupted, List.length_take, Vector.length_toList, List.length_cons,
      h.length_listing]
    omega
  · intro i hi hi'
    simp only [assemble, List.length_take, Vector.length_toList] at hi
    cases i with
    | zero => simp [assemble, ofInterrupted]
    | succ i =>
      have hroom : ¬ 1 + min w.depth 15 ≤ i + 1 := Nat.not_le.mpr (Nat.lt_min.mp hi).1
      simp [assemble, ofInterrupted, listing, hroom]

end Came

end Walks

end Trace

namespace Machine

open Trace (walkInto returnAt depthLimit)

/-- The call trace, for memory with any contents and any frame pointer.
1. The walk ends, having entered the body of its loop at most sixteen times, with the return
   addresses of the longest chain that can be followed, and leaves the slots behind them alone.
   It reads frame pointers and the addresses behind them only, no further than it has come, and
   these do not wrap.
2. That is the walk that is run. If words may be unreadable, it is the first of those that the
   walk would read that stops it.
3. Behind the interrupted instruction, sixteen addresses in all are put together.
4. They are what the report about an exception lists, if all words can be read. -/
theorem callTrace_longest (m : Memory) (rbp : UInt64) (slots : Vector UInt64 depthLimit) :
    let w := walkInto m rbp slots
    let returns := (List.range w.depth).map (returnAt m rbp)
    Trace.Walked m rbp slots w ∧
    (Trace.walk (fun _ => true) m rbp = { returns } ∧
      w.slots.toList = Trace.record slots.toList returns ∧
      ∀ readable, (Trace.walk readable m rbp).unreadable =
          Trace.firstUnreadable readable w.reads ∧
        ((∀ address ∈ w.reads, readable address.toNat = true) →
          Trace.walk readable m rbp = { returns })) ∧
    (∀ rip, Trace.assemble rip w = (rip :: returns).take depthLimit) ∧
    ∀ (pageFault : Nat → MachineM (List UInt64)) (e : Unhandled) (f : Frame) (b : Machine),
      b.rest.memory = m → f.rbp = rbp → b.rest.panicking = false →
      (∀ address ∈ w.reads, readable address.toNat = true) →
      let r := exceptionReport e f b.rest.control returns
      r.trace = Trace.assemble f.rip w ∧
      ∃ b', (reportUnhandled pageFault e f : MachineM Unit).run b = .error .halted b' ∧
        Reported r b b' := by
  intro w returns
  have hwalked : Trace.Walked m rbp slots w := Trace.walkInto_walked m rbp slots
  have hlisting : w.listing = returns := hwalked.listing_eq
  have hassemble (rip : UInt64) : Trace.assemble rip w = (rip :: returns).take depthLimit := by
    rw [hwalked.assemble_eq, hlisting]
    rfl
  have hwalk (readable : Nat → Bool) (h : ∀ address ∈ w.reads, readable address.toNat = true) :
      Trace.walk readable m rbp = { returns } := by
    obtain ⟨hunreadable, hreturns⟩ := Trace.walk_walkInto readable m rbp slots
    have hnone := hunreadable.trans (Trace.firstUnreadable_eq_none.mpr h)
    rw [← hlisting, ← hreturns hnone, ← hnone]
  refine ⟨hwalked, ⟨hwalk _ fun _ _ => rfl, hlisting ▸ hwalked.record_eq, fun readable =>
    ⟨(Trace.walk_walkInto readable m rbp slots).1, hwalk readable⟩⟩, hassemble, ?_⟩
  rintro pageFault e f b rfl rfl hfirst hreadable
  refine ⟨(hassemble f.rip).symm, ?_⟩
  have hreport := exists_run_reportUnhandled (α := Unit) pageFault e f hfirst
    (by rw [hwalk readable hreadable])
  rwa [hwalk readable hreadable] at hreport

/-- A chain of one frame, walked into slots that are in use: only the first one changes. -/
theorem interruptedPrinting_walked :
    let f : Frame := { vector := 13, rbp := 0x2000, rip := 0x101300 }
    let w := walkInto interruptedPrinting.rest.memory f.rbp (Vector.replicate depthLimit 7)
    w.depth = 1 ∧ w.slots.toList = 0x101234 :: List.replicate 15 7 ∧
    (interruptedPrinting.rest.panicking = false ∧
      ∀ address ∈ w.reads, readable address.toNat = true) ∧
    Trace.assemble f.rip w = [0x101300, 0x101234] ∧
    ∃ b', (reportUnhandled (fun _ => return []) (.ofFrame f) f : MachineM Unit).run
        interruptedPrinting = .error .halted b' ∧
      Reported (exceptionReport (.ofFrame f) f {} [0x101234]) interruptedPrinting b' := by
  intro f w
  obtain ⟨-, ⟨-, hslots, hwalk⟩, hassemble, hreport⟩ := callTrace_longest
    interruptedPrinting.rest.memory f.rbp (Vector.replicate depthLimit 7)
  obtain ⟨hunreadable, hreturns⟩ := hwalk readable
  rw [walk_interruptedPrinting] at hunreadable hreturns
  have hreadable := Trace.firstUnreadable_eq_none.mp hunreadable.symm
  obtain ⟨hreturns, -⟩ := Trace.Chain.mk.inj (hreturns hreadable)
  have hdepth : w.depth = 1 := by
    have hlength := congrArg List.length hreturns
    rw [List.length_map, List.length_range] at hlength
    exact hlength.symm
  rw [← hreturns] at hslots hassemble hreport
  obtain ⟨-, b', hrun, hreported⟩ :=
    hreport (fun _ => return []) (.ofFrame f) f interruptedPrinting rfl rfl rfl hreadable
  exact ⟨hdepth, hslots, ⟨rfl, hreadable⟩, hassemble f.rip, b', hrun, hreported⟩

end Machine

end Supervisor

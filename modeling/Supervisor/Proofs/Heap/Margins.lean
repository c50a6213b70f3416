import Supervisor.Proofs.Heap.Padding

/-!
# Margins of the arithmetic

A request may ask for any size and any alignment up to the last word, and the heap forms
sums and differences with them. None of these leaves the words, as the numbers of the heap
itself stay in the lower half of them.

- `Heap.Margins`: how far. It holds wherever a session gets (`Keeps.margins`).
- `Heap.Oversized`: sizes that no region has room for, and those whose block size is no
  word. Such a request is answered with nothing (`run_alloc_oversized`,
  `run_allocAligned_oversized`, `run_realloc_oversized`).
- `Heap.Started`: what a session can come to, also over a region in which the heap found no
  room. Such a heap has no block, and nothing ever happens to it (`Run.headless`).
- `started_faultless`: no request of a session faults.
-/

namespace Supervisor

namespace Heap

open Memory Header

/-- What the sums and differences of a heap stay inside:
1. the heap lies in the region that it was set up over, and each block in the heap;
2. all blocks together are the heap, so that merging blocks never makes a larger one;
3. behind every block, aligned data is found at any alignment;
4. a free block can be added to the counters, which then still count bytes and headers of
   the heap;
5. a live block can be taken from them, and its header from its size. -/
structure Margins (region : Region) (a : Arena) : Prop where
  within : a.heap.start ≤ a.heap.limit ∧ a.heap.limit ≤ region.base + region.size
  inside : ∀ b ∈ blocks a, a.heap.start ≤ b.address ∧ b.address + b.size ≤ a.heap.limit
  total : ((blocks a).map Block.size).sum = a.heap.limit - a.heap.start
  padded : ∀ b ∈ blocks a, ∀ align, isPowerOfTwo align = true → align < wordLimit →
    ∃ d, gapFor b.address align = .ok d ∧ Pads b.address align d
  taking : ∀ b ∈ blocks a, b.free = true →
    a.heap.used + b.size ≤ a.heap.limit - a.heap.start ∧
      (a.heap.count + 1) * Header.bytes ≤ a.heap.limit - a.heap.start
  giving : ∀ b ∈ live (blocks a),
    b.size ≤ a.heap.used ∧ 1 ≤ a.heap.count ∧ Header.bytes < b.size

/-- A size that is more than the region holds behind a header, or that comes to no word when
it is rounded up to a block. -/
def Oversized (a : Arena) (n : Nat) : Prop :=
  a.heap.limit < a.heap.start + Header.bytes + n ∨ wordLimit ≤ n + (Header.bytes + grain - 1)

/-- What a session over a region can come to, whether the heap found room in it or not. -/
def Started (region : Region) (s : Session) : Prop :=
  ∃ s₀ rs, (∃ a, (init region.base region.size).run a = .ok () s₀.arena) ∧ s₀.held = [] ∧
    Run s₀ rs s

/-! ## Margins -/

section Margins

variable {a : Arena} {bs : List Block} {b : Block}

/-- The live blocks beside a free one leave room for it in the counters. -/
theorem Sound.taking (h : Sound a bs) (hb : b ∈ bs) (hfree : b.free = true) :
    a.heap.used + b.size ≤ a.heap.limit - a.heap.start ∧
      (a.heap.count + 1) * Header.bytes ≤ a.heap.limit - a.heap.start := by
  obtain ⟨l, r, rfl⟩ := List.append_of_mem hb
  have hloose := h.loose hfree
  constructor
  · have hsum := h.laid.tiled.sum
    have hused := hloose.used
    have hl := usedBytes_le_sum l
    have hr := usedBytes_le_sum r
    rw [List.map_append, List.map_cons, List.sum_append, List.sum_cons] at hsum
    omega
  · -- every block of the region has a header
    have hlen := h.laid.tiled.length_le fun c hc => (h.laid.sized c hc).1
    have hcount := hloose.count
    have hl := length_live_le l
    have hr := length_live_le r
    have hbytes : Header.bytes = 32 := rfl
    rw [List.length_append, List.length_cons, hbytes] at hlen
    rw [hbytes]
    omega

/-- What a live block adds to the counters can be taken from them. -/
theorem Sound.giving (h : Sound a bs) (hb : b ∈ live bs) :
    b.size ≤ a.heap.used ∧ 1 ≤ a.heap.count ∧ Header.bytes < b.size := by
  obtain ⟨hmem, hlive⟩ := mem_live.mp hb
  have hroomy := h.roomy b hmem hlive
  obtain ⟨l, r, rfl⟩ := List.append_of_mem hmem
  obtain ⟨hused, hcount⟩ := h.counters_live hlive
  exact ⟨by omega, by omega, hroomy⟩

theorem Keeps.margins {region : Region} {s : Session} (h : Keeps region s bs) :
    Margins region s.arena := by
  have hsound := h.sound
  have hsum := hsound.laid.tiled.sum
  have hstart := hsound.laid.inhabited
  have hend : s.arena.heap.limit ≤ region.base + region.size := by
    rw [h.start, h.limit] at hstart
    rw [h.limit]
    exact region.end_le (by omega)
  obtain rfl : blocks s.arena = bs := hsound.blocks_eq
  refine ⟨⟨Nat.le_of_lt hstart, hend⟩, ?inside, by omega, ?padded,
    fun b hb => hsound.taking hb, fun b hb => hsound.giving hb⟩
  case inside =>
    intro b hb
    obtain ⟨hlo, -, hhi⟩ := hsound.laid.bounds hb
    exact ⟨hlo, hhi⟩
  case padded =>
    intro b hb align halign hword
    have hpos := Nat.pos_of_ne_zero (isPowerOfTwo_iff.mp halign).1
    exact ⟨_, hsound.laid.gapFor_eq_ok hb halign hword, pads_gap hpos⟩

end Margins

/-! ## Sizes that are too large -/

section Oversized

variable {a : Arena} {bs : List Block} {n align required : Nat} {b p : Block}

/-- No block, and no two neighbours together, have room for an oversized request. -/
theorem Oversized.lt_required (h : Oversized a n) (hsize : blockSize? n = some required) :
    a.heap.limit < a.heap.start + required := by
  have hbytes : Header.bytes = 32 := rfl
  have hgrain : grain = 8 := rfl
  obtain ⟨hword, rfl⟩ := blockSize?_eq_some_iff.mp hsize
  have hspec := (blockSize?_spec hsize).1
  have hlimit : wordLimit = 8 * 0x2000000000000000 := rfl
  unfold Oversized at h
  rw [rounded] at hword hspec ⊢
  omega

theorem Oversized.size_lt (h : Oversized a n) (hsound : Sound a bs)
    (hsize : blockSize? n = some required) (hb : b ∈ bs) : b.size < required := by
  have hlt := h.lt_required hsize
  obtain ⟨hlo, -, hhi⟩ := hsound.laid.bounds hb
  omega

theorem run_alloc_oversized (h : Sound a bs) (hn : Oversized a n) :
    (alloc n).run a = .ok none a :=
  run_alloc_none h fun _ hsize _ hb hfit =>
    absurd hfit.2 (Nat.not_le_of_lt (hn.size_lt h hsize hb))

theorem run_allocAligned_oversized (h : Sound a bs) (hn : Oversized a n)
    (hword : align < wordLimit) : (allocAligned n align).run a = .ok none a := by
  by_cases hbad : n = 0 ∨ isPowerOfTwo align = false
  · rw [allocAligned, if_pos (by simpa using hbad), EStateM.run_pure]
  · obtain ⟨hzero, halign⟩ : n ≠ 0 ∧ isPowerOfTwo align = true := by simpa using hbad
    by_cases hsmall : align ≤ grain
    · rw [allocAligned_eq_alloc halign hsmall hzero, run_alloc_oversized h hn]
    · refine run_allocAligned_none h hzero halign hword hsmall fun _ hsize b hb hfit => ?_
      have hlt := hn.size_lt h hsize hb
      have hle := hfit.2
      omega

/-- Not even a free block behind a live one makes room for an oversized request. -/
theorem Oversized.not_inPlace (h : Oversized a n) (hsound : Sound a bs)
    (hsize : blockSize? n = some required) (hp : p ∈ bs) : ¬ InPlace bs p required := by
  have hlt := h.lt_required hsize
  have hlo := (hsound.laid.bounds hp).1
  rintro (hfit | ⟨c, hc, -, haddr, hfit⟩)
  · exact absurd hfit (Nat.not_le_of_lt (h.size_lt hsound hsize hp))
  · have hhi := (hsound.laid.bounds hc).2.2
    omega

theorem run_realloc_oversized (h : Sound a bs) (hn : Oversized a n) (hp : p ∈ live bs) :
    (realloc (some p.data) n).run a = .ok (.ok none) a := by
  obtain ⟨hmem, hlive⟩ := mem_live.mp hp
  have hzero : n ≠ 0 := by
    -- the region holds the live block
    have hroomy := h.roomy p hmem hlive
    obtain ⟨hlo, -, hhi⟩ := h.laid.bounds hmem
    have hround : Header.bytes + grain - 1 < wordLimit := by decide
    rintro rfl
    unfold Oversized at hn
    omega
  rw [run_realloc_live h hp hzero]
  cases hsize : blockSize? n with
  | none => rfl
  | some required =>
    have hout := hn.not_inPlace h hsize hmem
    obtain ⟨l, r, rfl⟩ := List.append_of_mem hmem
    simp only
    rw [run_resize_move h hout, relocate, run_bind_ok (run_alloc_oversized h hn)]
    exact EStateM.run_pure _ a

end Oversized

/-! ## Heaps without a region -/

section Headless

variable {region : Region} {s s' : Session} {a : Arena} {r : Request} {rs : List Request}
  {answer : Option Nat}

theorem search_end {α : Type} (choose : Block → Except Fault (Option α)) (m : Memory)
    (fuel : Nat) : search choose m fuel 0 = .ok none := by
  cases fuel with
  | zero => rfl
  | succ fuel => rw [search, if_pos rfl]

theorem run_find_headless {α : Type} (h : a.heap.head = 0)
    (choose : Block → Except Fault (Option α)) : (find choose).run a = .ok none a := by
  rw [find, run_get_bind, h, search_end, run_lift_ok]

theorem run_alloc_headless (h : a.heap.head = 0) (n : Nat) : (alloc n).run a = .ok none a := by
  rw [alloc]
  split
  next => exact EStateM.run_pure none a
  next =>
    split
    next => rw [run_bind_ok (run_find_headless h _), EStateM.run_pure]
    next => exact EStateM.run_pure none a

theorem run_allocAligned_headless (h : a.heap.head = 0) (n align : Nat) :
    (allocAligned n align).run a = .ok none a := by
  rw [allocAligned]
  split
  next => exact EStateM.run_pure none a
  next =>
    split
    next => exact run_alloc_headless h n
    next =>
      split
      next => rw [run_bind_ok (run_find_headless h _), EStateM.run_pure]
      next => exact EStateM.run_pure none a

/-- A client of such a heap holds nothing, so it can only ask for memory, and is given none. -/
theorem run_perform_headless (h : s.arena.heap.head = 0) (hheld : s.held = [])
    (hr : r.Allowed s) : r.perform.run s.arena = .ok (.ok none) s.arena := by
  have hnone : ∀ p, p ∉ s.held := by simp [hheld]
  cases r with
  | alloc n => exact run_map_ok (run_alloc_headless h n) _
  | allocAligned n align => exact run_map_ok (run_allocAligned_headless h n align) _
  | free p => exact absurd hr (hnone p)
  | realloc p n =>
    cases p with
    | none => exact run_map_ok (run_alloc_headless h n) _
    | some p => exact absurd hr (hnone p)
  | size p => exact absurd hr (hnone p)
  | write x byte =>
    obtain ⟨p, hp, -⟩ := hr
    exact absurd hp (hnone p)

theorem Step.headless (h : Step s r answer s') (hhead : s.arena.heap.head = 0)
    (hheld : s.held = []) : s'.arena = s.arena ∧ s'.held = [] := by
  have hrun := h.ran
  rw [run_perform_headless hhead hheld h.allowed] at hrun
  injection hrun with hanswer harena
  injection hanswer with hanswer
  refine ⟨harena.symm, ?_⟩
  rw [h.held, hheld, ← hanswer]
  cases r with
  | realloc p n =>
    cases p with
    | none => rfl
    | some p => cases n <;> rfl
  | _ => rfl

theorem Run.headless (h : Run s rs s') (hhead : s.arena.heap.head = 0) (hheld : s.held = []) :
    s'.arena = s.arena ∧ s'.held = [] := by
  induction h with
  | done s => exact ⟨rfl, hheld⟩
  | step hstep _ ih =>
    obtain ⟨harena, hheld'⟩ := hstep.headless hhead hheld
    obtain ⟨harena', hend⟩ := ih (harena ▸ hhead) hheld'
    exact ⟨harena'.trans harena, hend⟩

/-- A heap found room in its region, or it is empty and stays so. -/
theorem Started.cases (h : Started region s) :
    Reachable region s ∨ s.arena.heap = {} ∧ s.held = [] := by
  obtain ⟨s₀, rs, ⟨a, hinit⟩, hheld, hrun⟩ := h
  rw [run_init] at hinit
  injection hinit with _ harena
  by_cases hroom : Header.bytes + grain ≤ region.room
  · rw [if_pos hroom] at harena
    exact .inl ⟨s₀, rs, opens_iff.mpr ⟨hroom, hheld, a.memory, harena.symm⟩, hrun⟩
  · rw [if_neg hroom] at harena
    obtain ⟨hsame, hend⟩ := hrun.headless (by rw [← harena]) hheld
    exact .inr ⟨by rw [hsame, ← harena], hend⟩

theorem Reachable.started (h : Reachable region s) : Started region s := by
  obtain ⟨s₀, rs, hopens, hrun⟩ := h
  exact ⟨s₀, rs, hopens.ran, hopens.held, hrun⟩

/-- A heap without blocks has room to spare. -/
theorem margins_empty (h : a.heap = {}) : Margins region a := by
  have hblocks : blocks a = [] := by
    have hlinked : Linked a.memory 0 [] 0 := trivial
    rw [blocks, h]
    exact Heap.walk_eq hlinked (fun _ hb => nomatch hb) (Nat.zero_le _)
  refine ⟨?_, ?_, ?_, ?_, ?_, ?_⟩ <;> simp [h, hblocks]

end Headless

section Sessions

variable {region : Region} {s : Session} {bs : List Block} {r : Request} {n align : Nat}

/-- Memory of an oversized size is refused, whichever way it is asked for. -/
theorem Keeps.run_perform_oversized (h : Keeps region s bs) (hr : r.Allowed s)
    (hasks : r.asks = some (n, align)) (hn : Oversized s.arena n) :
    r.perform.run s.arena = .ok (.ok none) s.arena := by
  cases r with
  | alloc m =>
    cases hasks
    exact run_map_ok (run_alloc_oversized h.sound hn) _
  | allocAligned m k =>
    cases hasks
    exact run_map_ok (run_allocAligned_oversized h.sound hn hr) _
  | realloc p m =>
    cases hasks
    cases p with
    | none => exact run_map_ok (run_alloc_oversized h.sound hn) _
    | some p =>
      obtain ⟨b, hb, rfl⟩ := live_of_held h.held hr
      exact run_realloc_oversized h.sound hn hb
  | free p => exact nomatch hasks
  | size p => exact nomatch hasks
  | write x byte => exact nomatch hasks

/-- Wherever a session over a region gets, the heap has its margins, and every request is
answered without a fault: for any size, any alignment that is a word, and any pointer that is
held. If its size is too large, the answer is nothing and nothing changes. -/
theorem started_faultless (h : Started region s) :
    Margins region s.arena ∧ ∀ r : Request, r.Allowed s →
      (∃ answer a', r.perform.run s.arena = .ok (.ok answer) a') ∧
      ∀ n align, r.asks = some (n, align) → Oversized s.arena n →
        r.perform.run s.arena = .ok (.ok none) s.arena := by
  rcases h.cases with hreach | ⟨hempty, hheld⟩
  · obtain ⟨bs, hkeeps⟩ := hreach.keeps
    have hsound := hkeeps.sound
    refine ⟨hkeeps.margins, fun r hr => ⟨?answered, ?oversized⟩⟩
    case answered =>
      obtain ⟨answer, a', -, hrun, -⟩ := effect_of_allowed hsound hkeeps.held hr
      exact ⟨answer, a', hrun⟩
    case oversized =>
      intro n align hasks hn
      exact hkeeps.run_perform_oversized hr hasks hn
  · have hhead : s.arena.heap.head = 0 := by rw [hempty]
    refine ⟨margins_empty hempty, fun r hr => ?_⟩
    have hrun := run_perform_headless hhead hheld hr
    exact ⟨⟨none, s.arena, hrun⟩, fun _ _ _ _ => hrun⟩

/-- Beside a hundred bytes in a page, the largest alignment and the largest sizes are looked
for without a fault, and there is no room for them. -/
theorem page_faultless : ∃ s, Started page s ∧ s.held = [0x100020] ∧ Margins page s.arena ∧
    (∃ answer a', (Request.allocAligned 1 0x8000000000000000).perform.run s.arena
      = .ok (.ok answer) a') ∧
    (Request.alloc 0xffffffffffffffff).perform.run s.arena = .ok (.ok none) s.arena ∧
    (Request.realloc (some 0x100020) 0xffffffffffffffd8).perform.run s.arena
      = .ok (.ok none) s.arena := by
  have hsize : blockSize? 100 = some 136 := by decide
  obtain ⟨a, hreach, hkeeps, -⟩ := exists_first_alloc page {} (by decide) (by decide) hsize
    (by decide)
  obtain ⟨hmargins, hall⟩ := started_faultless hreach.started
  have hlimit : a.heap.limit = 0x101000 := hkeeps.limit.trans (by decide)
  have hlarge : Oversized a 0xffffffffffffffd8 := by
    left
    rw [hlimit]
    exact Nat.lt_of_lt_of_le (by decide : 0x101000 < 0xffffffffffffffd8) (Nat.le_add_left _ _)
  have hhuge : Oversized a 0xffffffffffffffff := .inr (by decide)
  have hword : 0x8000000000000000 < wordLimit := by decide
  exact ⟨_, hreach.started, rfl, hmargins, (hall (.allocAligned _ _) hword).1,
    (hall (.alloc _) trivial).2 _ _ rfl hhuge,
    (hall (.realloc (some 0x100020) _) List.mem_cons_self).2 _ _ rfl hlarge⟩

end Sessions

end Heap

end Supervisor

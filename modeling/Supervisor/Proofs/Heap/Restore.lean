import Supervisor.Proofs.Heap.Effect

/-!
# Freeing what was just allocated

An allocation makes up to three blocks of one: padding in front of it, the live block
and what is left over. When the live block is freed at once, all of them are free
neighbours again and become the block that they were made of.

- `merged_pieces`: on the list, free blocks that take up the place of one merge into that
  one and into nothing else (`foldr_push_of_tiled`).
- `Heap.Placed`: what every allocation does, at an alignment or not (`alloc_placed`,
  `allocAligned_placed`).
- `Heap.Restored`: a session is back where it was, as far as the headers and the
  bookkeeping go. Two sound arenas with one list of blocks agree on those
  (`Sound.heap_eq`, `Sound.headers_eq`).
- `reachable_restored`: freeing an allocation that was just made restores the session.
-/

namespace Supervisor

namespace Heap

open Memory Header

/-- From `s` to `s'` nothing is different that the heap goes by:
1. its bookkeeping, the region and both counters, is the same;
2. so is the list of blocks, with their sizes and flags;
3. every header has the links to both its neighbours that it had;
4. the same pointers are held. -/
structure Restored (s s' : Session) : Prop where
  heap : s'.arena.heap = s.arena.heap
  blocks : blocks s'.arena = blocks s.arena
  headers : ∀ b ∈ Heap.blocks s.arena,
    readAt s'.arena.memory b.address = readAt s.arena.memory b.address
  held : s'.held = s.held

/-! ## Merging the pieces of a block -/

section Pieces

variable {d required : Nat} {l r bs : List Block} {b : Block}

/-- Free blocks that take up the place of one free block merge into it. -/
theorem foldr_push_of_tiled (hne : bs ≠ []) (hfree : ∀ c ∈ bs, c.free = true)
    (htiled : Tiled b.address bs (b.address + b.size)) (hb : b.free = true)
    (hr : Spaced (b :: r)) : bs.foldr push r = b :: r := by
  induction bs generalizing b with
  | nil => exact absurd rfl hne
  | cons c bs ih =>
    obtain ⟨haddr, hrest⟩ := htiled
    have hc : c.free = true := hfree c List.mem_cons_self
    have hsize : c.size ≤ b.size := by
      have := hrest.le
      omega
    obtain ⟨address, size, free⟩ := b
    obtain ⟨address', size', free'⟩ := c
    simp only at haddr hc hb hsize hrest
    subst haddr hc hb
    cases bs with
    | nil =>
      obtain rfl : size' = size := Nat.add_left_cancel hrest
      exact push_of_spaced hr
    | cons d bs =>
      -- what follows the first piece is the rest of the block
      have hsum : address' + size' + (size - size') = address' + size := by omega
      have htail := ih (b := ⟨address' + size', size - size', true⟩) (List.cons_ne_nil d bs)
        (fun e he => hfree e (List.mem_cons_of_mem _ he)) (by rw [hsum]; exact hrest) rfl
        (hr.replace_head rfl)
      rw [List.foldr_cons, htail]
      show (⟨address', size' + (size - size'), true⟩ : Block) :: r = _
      rw [Nat.add_sub_of_le hsize]

/-- What an allocation made of the free block `b`, once the live block among it is free
again. -/
def pieces (b : Block) (d required : Nat) : List Block :=
  padded b d ++ (taken (b.rest d) required).mark true :: leftover (b.rest d) required

theorem free_of_mem_pieces (hb : b.free = true) :
    ∀ c ∈ pieces b d required, c.free = true := by
  intro c hc
  rcases List.mem_append.mp hc with hc | hc
  · unfold padded at hc
    split at hc
    · contradiction
    · rw [List.mem_singleton.mp hc]
      exact hb
  · rcases List.mem_cons.mp hc with rfl | hc
    · rfl
    · exact leftover_free hc

theorem tiled_padded (b : Block) (d : Nat) :
    Tiled b.address (padded b d) (b.rest d).address := by
  unfold padded
  split
  next hzero => rw [hzero]; rfl
  next => exact ⟨rfl, rfl⟩

/-- A block and what is left over of it take up its place. -/
theorem tiled_taken (b : Block) (hfit : required ≤ b.size) :
    Tiled b.address ((taken b required).mark true :: leftover b required)
      (b.address + b.size) := by
  refine ⟨taken_address b required, ?_⟩
  show Tiled (b.address + (taken b required).size) _ _
  unfold leftover
  split
  next hcut =>
    rw [taken_size_of_cut hcut]
    refine ⟨rfl, ?_⟩
    show b.address + required + (b.size - required) = _
    omega
  next hcut =>
    rw [taken_size_of_not_cut hcut]
    rfl

theorem tiled_pieces (hfit : d + required ≤ b.size) :
    Tiled b.address (pieces b d required) (b.address + b.size) := by
  have hend : (b.rest d).address + (b.rest d).size = b.address + b.size := by
    show b.address + d + (b.size - d) = _
    omega
  refine tiled_append.mpr ⟨(b.rest d).address, tiled_padded b d, ?_⟩
  rw [← hend]
  exact tiled_taken (b.rest d) (Nat.le_sub_of_add_le' hfit)

/-- In a spaced list, the pieces of a free block merge into that block and into no
other. -/
theorem merged_pieces (h : Spaced (l ++ b :: r)) (hb : b.free = true)
    (hfit : d + required ≤ b.size) : merged (l ++ (pieces b d required ++ r)) = l ++ b :: r := by
  have hne : pieces b d required ≠ [] :=
    List.append_ne_nil_of_right_ne_nil _ (List.cons_ne_nil _ _)
  have hr : Spaced r := h.right.tail
  rw [merged_append, merged_append, merged_of_spaced hr,
    foldr_push_of_tiled hne (free_of_mem_pieces hb) (tiled_pieces hfit) hb h.right]
  exact foldr_push_of_spaced h

end Pieces

/-! ## Placing and freeing -/

/-- From `a` to `a'`, a block of `bs` that was free gave way to padding, a live block with
the data address `p`, and what was left over. -/
def Placed (a : Arena) (bs : List Block) (p : Nat) (a' : Arena) : Prop :=
  ∃ l b r d required, bs = l ++ b :: r ∧ b.free = true ∧ d + required ≤ b.size ∧
    p = (b.rest d).data ∧
    Becomes a (served (l ++ padded b d) (b.rest d) required r) a'
      (served (l ++ padded b d) (b.rest d) required r)

section Placing

variable {a a' : Arena} {bs : List Block} {n align p : Nat}

theorem alloc_placed (h : Sound a bs) (hrun : (alloc n).run a = .ok (some p) a') :
    Placed a bs p a' := by
  rcases alloc_firstFit h (ne_zero_of_alloc hrun) with ⟨hnone, -⟩ |
    ⟨l, b, r, required, a'', rfl, -, ⟨hb, hfit⟩, -, hsome, hbecomes⟩
  · rw [hrun] at hnone
    injection hnone with hnone
    contradiction
  · rw [hrun] at hsome
    injection hsome with hp harena
    obtain rfl := Option.some.inj hp
    subst harena
    -- nothing is skipped
    have hrest : b.rest 0 = b := rest_zero hb
    refine ⟨l, b, r, 0, required, rfl, hb, by omega, by rw [hrest], ?_⟩
    rw [hrest, padded, if_pos rfl, List.append_nil]
    exact hbecomes

theorem allocAligned_placed (h : Sound a bs) (hword : align < wordLimit)
    (hrun : (allocAligned n align).run a = .ok (some p) a') : Placed a bs p a' := by
  obtain ⟨hn, halign⟩ := valid_of_allocAligned hrun
  by_cases hsmall : align ≤ grain
  · rw [allocAligned, if_neg (by simp [hn, halign]), if_pos hsmall] at hrun
    exact alloc_placed h hrun
  rcases allocAligned_firstFit h hn halign hword hsmall with ⟨hnone, -⟩ |
    ⟨l, b, r, required, a'', rfl, -, ⟨hb, hfit⟩, -, hsome, hbecomes⟩
  · rw [hrun] at hnone
    injection hnone with hnone
    contradiction
  · rw [hrun] at hsome
    injection hsome with hp harena
    obtain rfl := Option.some.inj hp
    subst harena
    exact ⟨l, b, r, _, required, rfl, hb, hfit, rfl, hbecomes⟩

/-- The live block that was placed is freed, and the list is what it was before. -/
theorem Placed.run_free (h : Placed a bs p a') (hspaced : Spaced bs) :
    ∃ a'' touched, (free p).run a' = .ok (.ok ()) a'' ∧ Becomes a' touched a'' bs ∧
      a'.heap.start = a.heap.start ∧ a'.heap.limit = a.heap.limit := by
  obtain ⟨l, b, r, d, required, rfl, hb, hfit, rfl, hbecomes⟩ := h
  obtain ⟨a'', hrun, hfreed, -⟩ := Heap.run_free hbecomes.sound rfl
  rw [taken_data] at hrun
  have hpieces : (l ++ padded b d) ++ (taken (b.rest d) required).mark true ::
      (leftover (b.rest d) required ++ r) = l ++ (pieces b d required ++ r) := by
    simp [pieces]
  rw [hpieces, merged_pieces hspaced hb hfit] at hfreed
  exact ⟨a'', _, hrun, hfreed, hbecomes.start, hbecomes.limit⟩

/-- The bookkeeping of a sound arena is that of its region and its list. -/
theorem Sound.heap_eq (h : Sound a bs) (h' : Sound a' bs) (hstart : a'.heap.start = a.heap.start)
    (hlimit : a'.heap.limit = a.heap.limit) : a'.heap = a.heap := by
  have hhead : a'.heap.head = a.heap.head := by rw [h'.head, h.head, hstart]
  have hused : a'.heap.used = a.heap.used := h'.used.trans h.used.symm
  have hcount : a'.heap.count = a.heap.count := h'.count.trans h.count.symm
  obtain ⟨⟨_, _, _, _, _⟩, _⟩ := a
  obtain ⟨⟨_, _, _, _, _⟩, _⟩ := a'
  simp only at hstart hlimit hhead hused hcount
  rw [hstart, hlimit, hhead, hused, hcount]

/-- So is every header. -/
theorem Sound.headers_eq (h : Sound a bs) (h' : Sound a' bs) {b : Block} (hb : b ∈ bs) :
    readAt a'.memory b.address = readAt a.memory b.address := by
  obtain ⟨l, r, rfl⟩ := List.append_of_mem hb
  exact h'.laid.header_eq.trans h.laid.header_eq.symm

end Placing

section Restoring

variable {region : Region} {s s' : Session} {r : Request} {n align p : Nat}

/-- Wherever a session over a region gets, an allocation that was just made, at an
alignment or not, can be freed, and that restores the session. -/
theorem reachable_restored (h : Reachable region s)
    (hr : r = .alloc n ∨ r = .allocAligned n align) (hstep : Step s r (some p) s') :
    ∃ s'', Step s' (.free p) none s'' ∧ Restored s s'' := by
  obtain ⟨bs, hkeeps⟩ := h.keeps
  have hheld : s'.held = p :: s.held := by
    rw [hstep.held]
    rcases hr with rfl | rfl <;> rfl
  have hplaced : Placed s.arena bs p s'.arena := by
    have hran := hstep.ran
    rcases hr with rfl | rfl
    · obtain ⟨_, hrun, ⟨rfl⟩⟩ := run_map_eq_ok hran
      exact alloc_placed hkeeps.sound hrun
    · obtain ⟨_, hrun, ⟨rfl⟩⟩ := run_map_eq_ok hran
      exact allocAligned_placed hkeeps.sound hstep.allowed hrun
  obtain ⟨a'', touched, hrun, hbecomes, hstart, hlimit⟩ := hplaced.run_free hkeeps.sound.spaced
  have hallowed : Request.Allowed s' (.free p) := by
    show p ∈ s'.held
    rw [hheld]
    exact List.mem_cons_self
  refine ⟨⟨a'', s.held⟩, ⟨hallowed, run_map_ok hrun _, ?_⟩, ⟨?heap, ?blocks, ?headers, rfl⟩⟩
  · show s.held = s'.held.erase p
    rw [hheld, List.erase_cons_head]
  case heap =>
    exact hkeeps.sound.heap_eq hbecomes.sound (hbecomes.start.trans hstart)
      (hbecomes.limit.trans hlimit)
  case blocks => exact hbecomes.sound.blocks_eq.trans hkeeps.sound.blocks_eq.symm
  case headers =>
    rw [hkeeps.sound.blocks_eq]
    intro b hb
    exact hkeeps.sound.headers_eq hbecomes.sound hb

/-- In a page, an allocation that made padding, a live block and a rest of one free block
is taken back. -/
theorem page_restored : ∃ s s' s'', Reachable page s ∧
    Step s (.allocAligned 100 64) (some 0x100100) s' ∧
    blocks s'.arena = [⟨0x100000, 136, false⟩, ⟨0x100088, 88, true⟩, ⟨0x1000e0, 136, false⟩,
      ⟨0x100168, 3736, true⟩] ∧
    Step s' (.free 0x100100) none s'' ∧
    blocks s''.arena = [⟨0x100000, 136, false⟩, ⟨0x100088, 3960, true⟩] := by
  have hsize : blockSize? 100 = some 136 := by decide
  obtain ⟨a, hreach, ⟨hsound, -⟩, -⟩ := exists_first_alloc page {} (by decide)
    (by decide) hsize (by decide)
  have hlist : served [] page.whole 136 []
      = [⟨0x100000, 136, false⟩] ++ ⟨0x100088, 3960, true⟩ :: [] := by decide
  rw [hlist] at hsound
  have hpower : isPowerOfTwo 64 = true := by decide
  obtain ⟨a', hrun, hbecomes⟩ := run_allocAligned_some hsound (by decide) hpower (by decide)
    (by decide) hsize (by decide) (by decide)
  have hstep : Step ⟨a, [page.whole.data]⟩ (.allocAligned 100 64) (some 0x100100)
      ⟨a', [0x100100, page.whole.data]⟩ :=
    ⟨(by decide : 64 < wordLimit), run_map_ok hrun _, rfl⟩
  obtain ⟨s'', hfree, hrestored⟩ := reachable_restored hreach (.inr rfl) hstep
  exact ⟨_, _, s'', hreach, hstep, hbecomes.sound.blocks_eq.trans (by decide), hfree,
    hrestored.blocks.trans hsound.blocks_eq⟩

end Restoring

end Heap

end Supervisor

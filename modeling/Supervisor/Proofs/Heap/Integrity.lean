import Supervisor.Proofs.Heap.Effect

/-!
# Integrity of the block list

`Heap.Intact` says what a walk over the headers in memory finds, wherever a session
has got: the blocks tile the region, the links lead from neighbour to neighbour in
both directions, the counters count the live blocks, and the live blocks are those
that the client holds. `reachable_intact` proves it of every reachable session,
together with the two things that follow from it: no allowed request fails, and a
heap in which nothing is held is one free block again.
-/

namespace Supervisor

namespace Heap

open Memory Header

/-- What the headers of a heap say about it:
1. the walk along `next` starts at the first block and ends, however many steps it
   may take;
2. each block begins where the one before it ends, the first one at the start of the
   region and the last one up to its end;
3. the links lead to the two neighbours, and nowhere at the two ends;
4. sizes are multiples of eight and have room for a header;
5. no two neighbours are both free;
6. the counters say how many bytes and blocks are live;
7. the pointers held are the data addresses of the live blocks. -/
structure Intact (region : Region) (s : Session) : Prop where
  head : s.arena.heap.head = region.start
  inhabited : blocks s.arena ≠ []
  ends : ∀ fuel, (blocks s.arena).length ≤ fuel →
    walk s.arena.memory fuel s.arena.heap.head = blocks s.arena
  tiled : Tiled region.start (blocks s.arena) (region.start + region.room)
  linked : ∀ l b r, blocks s.arena = l ++ b :: r →
    nextAt s.arena.memory b.address = firstLink r 0 ∧
      prevAt s.arena.memory b.address = lastLink 0 l
  sized : ∀ b ∈ blocks s.arena, Header.bytes ≤ b.size ∧ b.size % grain = 0
  spaced : Spaced (blocks s.arena)
  used : s.arena.heap.used = usedBytes (blocks s.arena)
  count : s.arena.heap.count = (live (blocks s.arena)).length
  held : s.held.Perm ((live (blocks s.arena)).map Block.data)

section Integrity

variable {region : Region} {s : Session} {bs : List Block}

theorem Keeps.intact (h : Keeps region s bs) : Intact region s := by
  have hlaid := h.sound.laid
  have htiled := hlaid.tiled
  rw [h.start, h.limit] at htiled
  have hblocks := h.sound.blocks_eq
  refine ⟨h.sound.head.trans h.start, ?inhabited, ?ends, hblocks ▸ htiled, ?linked,
    hblocks ▸ hlaid.sized, hblocks ▸ h.sound.spaced, hblocks ▸ h.sound.used,
    hblocks ▸ h.sound.count, hblocks ▸ h.held⟩
  case inhabited =>
    rw [hblocks]
    rintro rfl
    exact Nat.ne_of_lt hlaid.inhabited hlaid.tiled
  case ends =>
    intro fuel hfuel
    rw [hblocks] at hfuel ⊢
    exact h.sound.walk_eq hfuel
  case linked =>
    intro l b r heq
    rw [hblocks] at heq
    subst heq
    exact ⟨hlaid.next_eq, hlaid.prev_eq⟩

/-- A list without live blocks or free neighbours has one block at most. -/
theorem Spaced.length_le_one (h : Spaced bs) (hlive : live bs = []) : bs.length ≤ 1 := by
  have hfree : ∀ b ∈ bs, b.free = true := by
    intro b hb
    by_contra hne
    have hmem : b ∈ live bs := mem_live.mpr ⟨hb, by simpa using hne⟩
    rw [hlive] at hmem
    contradiction
  match bs with
  | [] => exact Nat.zero_le 1
  | [b] => exact Nat.le_refl 1
  | b :: c :: r =>
    have hboth := (List.isChain_cons_cons.mp h).1
    exact absurd ⟨hfree b List.mem_cons_self,
      hfree c (List.mem_cons_of_mem b List.mem_cons_self)⟩ hboth

/-- When nothing is live, the heap is one free block of full size. -/
theorem Keeps.eq_whole (h : Keeps region s bs) (hlive : live bs = []) : bs = [region.whole] := by
  have hlen := h.sound.spaced.length_le_one hlive
  have htiled := h.sound.laid.tiled
  rw [h.start, h.limit] at htiled
  match bs with
  | [] =>
    have hlt := h.sound.laid.inhabited
    rw [h.start, h.limit] at hlt
    exact absurd htiled (Nat.ne_of_lt hlt)
  | [b] =>
    -- one block that fills the region has its size, and it is not live
    obtain ⟨haddr, hend⟩ := htiled
    have hsize : b.size = region.room := Nat.add_left_cancel hend
    have hfree : b.free = true := by
      by_contra hne
      have hmem : b ∈ live [b] := mem_live.mpr ⟨List.mem_cons_self, by simpa using hne⟩
      rw [hlive] at hmem
      contradiction
    obtain ⟨address, size, free⟩ := b
    simp only at haddr hsize hfree
    rw [haddr, hsize, hfree, Region.whole]
  | b :: c :: r => simp at hlen

/-- Wherever a session over a region gets, its block list is intact, every allowed
request goes through, and if nothing is held the heap is one free block of full
size. -/
theorem reachable_intact (h : Reachable region s) :
    Intact region s ∧ (∀ r : Request, r.Allowed s → ∃ answer s', Step s r answer s') ∧
      (s.held = [] → blocks s.arena = [region.whole]) := by
  obtain ⟨bs, hkeeps⟩ := h.keeps
  refine ⟨hkeeps.intact, ?_, ?_⟩
  · intro r hr
    exact hkeeps.exists_step hr
  · intro hheld
    have hperm := hkeeps.held
    rw [hheld] at hperm
    have hlive : live bs = [] := List.map_eq_nil_iff.mp hperm.symm.eq_nil
    rw [hkeeps.sound.blocks_eq]
    exact hkeeps.eq_whole hlive

/-- A page from which a hundred bytes were taken and given back. -/
theorem page_intact : ∃ s, Reachable page s ∧ Intact page s ∧ s.held = [] ∧
    blocks s.arena = [⟨0x100000, 0x1000, true⟩] := by
  have hsize : blockSize? 100 = some 136 := by decide
  obtain ⟨a, hreach, ⟨hsound, -⟩, -⟩ := exists_first_alloc page {} (by decide)
    (by decide) hsize (by decide)
  have hallowed : Request.Allowed ⟨a, [page.whole.data]⟩ (.free page.whole.data) :=
    List.mem_cons_self
  obtain ⟨answer, s', hstep⟩ := (reachable_intact hreach).2.1 _ hallowed
  have hheld : s'.held = [] := by
    rw [hstep.held]
    show [page.whole.data].erase page.whole.data = []
    rw [List.erase_cons_head]
  obtain ⟨hintact, -, hwhole⟩ := reachable_intact (hreach.step hstep)
  exact ⟨s', hreach.step hstep, hintact, hheld, hwhole hheld⟩

end Integrity

end Heap

end Supervisor

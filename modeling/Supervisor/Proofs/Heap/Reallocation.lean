import Supervisor.Proofs.Heap.Effect

/-!
# Reallocation from end to end

What a client sees when it resizes an allocation, wherever a session has got.

- `Heap.Moves`: the allocation became another one, or one with another size, that
  starts with the same bytes, and nothing else changed.
- `Heap.Reallocates`: this happens for every answer with a pointer; the pointer is
  the old one whenever the allocation can stay; and an answer without a pointer
  means that the request does not fit anywhere and that nothing changed at all.
- `reachable_realloc`: resizing always ends in this way.
-/

namespace Supervisor

namespace Heap

open Memory Header

/-- From `s` to `s'` the allocation in block `b` became the one at `q`:
1. `q` is live, and by what the heap says it has room for `n` bytes;
2. it starts with the bytes that `b` started with, as many as both have room for;
3. as many blocks are live as before;
4. the old pointer is live only if it is the new one;
5. the other live blocks stay where they are, with their sizes and their data. -/
structure Moves (s : Session) (b : Block) (n : Nat) (q : Nat) (s' : Session) : Prop where
  live : ∃ c ∈ live (blocks s'.arena), c.data = q
  room : ∃ bytes, (capacity q).run s'.arena = .ok bytes s'.arena ∧ n ≤ bytes
  data : ∀ i, i < min b.capacity n →
    s'.arena.memory.read (q + i) = s.arena.memory.read (b.data + i)
  count : s'.arena.heap.count = s.arena.heap.count
  gone : q ≠ b.data → ∀ c ∈ Heap.live (blocks s'.arena), c.data ≠ b.data
  others : ∀ c ∈ Heap.live (blocks s.arena), c ≠ b → c ∈ Heap.live (blocks s'.arena) ∧
    ∀ x, c.Holds x → s'.arena.memory.read x = s.arena.memory.read x

/-- What the answer to a request for `n` bytes in place of those of block `b` means. -/
structure Reallocates (s : Session) (b : Block) (n : Nat) (answer : Option Nat) (s' : Session) :
    Prop where
  moves : ∀ q, answer = some q → Moves s b n q s'
  stays : ∀ required, blockSize? n = some required → InPlace (blocks s.arena) b required →
    answer = some b.data
  fails : answer = none → s' = s ∧ ∀ required, blockSize? n = some required →
    ¬ InPlace (blocks s.arena) b required ∧
      ∀ c ∈ blocks s.arena, c.free = true → c.size < required

section Realloc

variable {region : Region} {s s' : Session} {bs bs' rest : List Block} {b q : Block} {n : Nat}

theorem Resized.moves (h : Resized s.arena (blocks s.arena) b n q rest s'.arena bs')
    (hsound : Sound s.arena (blocks s.arena)) : Moves s b n q.data s' := by
  obtain rfl : blocks s'.arena = bs' := h.sound.blocks_eq
  have hq : q ∈ live (blocks s'.arena) := h.after.mem_iff.mpr List.mem_cons_self
  refine ⟨⟨q, hq, rfl⟩, ⟨q.capacity, run_capacity h.sound hq, h.room⟩, h.data, ?count, ?gone,
    fun c hc hne => ?others⟩
  case count => exact Nat.add_right_cancel (h.count_add hsound)
  case gone =>
    intro hne c hc
    exact h.gone_of_ne hsound List.mem_cons_self hne hc
  case others => exact h.stays hsound hc (mt List.mem_singleton.mp hne)

/-- A pointer as an answer, once it is known that the allocation moved and stayed if
it could. -/
theorem Resized.reallocates (h : Resized s.arena (blocks s.arena) b n q rest s'.arena bs')
    (hsound : Sound s.arena (blocks s.arena))
    (hstays : ∀ required, blockSize? n = some required → InPlace (blocks s.arena) b required →
      q.data = b.data) : Reallocates s b n (some q.data) s' where
  moves := by
    rintro _ ⟨rfl⟩
    exact h.moves hsound
  stays := fun required hsize hin => congrArg some (hstays required hsize hin)
  fails := fun hanswer => nomatch hanswer

/-- An allocation that is resized to at least one byte moves, or stays where it is, or
nothing changes. -/
theorem Keeps.realloc (h : Keeps region s bs) (hb : b ∈ live bs) (hn : n ≠ 0) :
    ∃ answer s', Step s (.realloc (some b.data) n) answer s' ∧ Reallocates s b n answer s' := by
  obtain rfl : blocks s.arena = bs := h.sound.blocks_eq
  have hallowed : Request.Allowed s (.realloc (some b.data) n) :=
    h.held.mem_iff.mpr (List.mem_map_of_mem hb)
  have hrun := run_realloc_live h.sound hb hn
  have hsame : s.held = (Request.realloc (some b.data) n).handOver s.held none := by
    cases n with
    | zero => exact absurd rfl hn
    | succ n => rfl
  cases hsize : blockSize? n with
  | none =>
    refine ⟨none, s, ⟨hallowed, by rw [hsize] at hrun; exact hrun, hsame⟩, ?_⟩
    exact ⟨fun _ hq => (nomatch hq), by simp [hsize], fun _ => ⟨rfl, by simp [hsize]⟩⟩
  | some required =>
    simp only [hsize] at hrun
    -- the rounded request is the only one that the statement is about
    have honly : ∀ r, blockSize? n = some r → r = required := by
      intro r hr
      rw [hsize] at hr
      exact (Option.some.inj hr).symm
    rcases resize_cases h.sound hb hn hsize with ⟨-, q, rest, a', bs', haddr, hrun', hres⟩ |
      ⟨hout, q, rest, a', bs', hrun', hres⟩ | ⟨hout, hnone, hrun'⟩
    · -- the block stays where it is
      refine ⟨some q.data, ⟨a', _⟩, ⟨hallowed, hrun.trans hrun', rfl⟩,
        Resized.reallocates hres h.sound ?_⟩
      intro _ _ _
      rw [Block.data, haddr, Block.data]
    · -- it cannot stay, and moves
      refine ⟨some q.data, ⟨a', _⟩, ⟨hallowed, hrun.trans hrun', rfl⟩,
        Resized.reallocates hres h.sound ?_⟩
      intro r hr hin
      exact absurd (honly r hr ▸ hin) hout
    · -- it cannot stay, and there is no place to move to
      refine ⟨none, s, ⟨hallowed, hrun.trans hrun', hsame⟩, fun _ hq => (nomatch hq), ?_, ?_⟩
      · intro r hr hin
        exact absurd (honly r hr ▸ hin) hout
      · intro _
        refine ⟨rfl, ?_⟩
        intro r hr
        rw [honly r hr]
        refine ⟨hout, ?_⟩
        intro c hc hfree
        exact Nat.lt_of_not_le fun hle => hnone c hc ⟨hfree, hle⟩

/-- Wherever a session over a region gets:
1. resizing a live block, whose capacity is what the heap says, to at least one byte
   goes through, and moves it, leaves it where it is, or changes nothing;
2. resizing a live block to nothing frees it and answers no pointer;
3. resizing no block allocates. -/
theorem reachable_realloc (h : Reachable region s) :
    (∀ b ∈ live (blocks s.arena), (capacity b.data).run s.arena = .ok b.capacity s.arena ∧
      ∀ n, n ≠ 0 → ∃ answer s', Step s (.realloc (some b.data) n) answer s' ∧
        Reallocates s b n answer s') ∧
    (∀ b ∈ live (blocks s.arena), ∃ a, (free b.data).run s.arena = .ok (.ok ()) a ∧
      (realloc (some b.data) 0).run s.arena = .ok (.ok none) a) ∧
    ∀ n, ∃ answer a, (alloc n).run s.arena = .ok answer a ∧
      (realloc none n).run s.arena = .ok (.ok answer) a := by
  obtain ⟨bs, hkeeps⟩ := h.keeps
  obtain rfl : blocks s.arena = bs := hkeeps.sound.blocks_eq
  refine ⟨?_, ?_, ?_⟩
  · intro b hb
    refine ⟨run_capacity hkeeps.sound hb, ?_⟩
    intro n hn
    exact hkeeps.realloc hb hn
  · intro b hb
    obtain ⟨a, -, -, hrun, -⟩ := free_cases hkeeps.sound hb
    exact ⟨a, hrun, by rw [run_realloc_zero, hrun]⟩
  · intro n
    obtain ⟨answer, a, -, hrun, -⟩ := effect_alloc hkeeps.sound hkeeps.held n
    exact ⟨answer, a, hrun, by rw [run_realloc_none, hrun]⟩

/-- The first allocation of a page stays where it is when it grows. -/
theorem page_realloc : ∃ s s', Reachable page s ∧
    Step s (.realloc (some 0x100020) 200) (some 0x100020) s' ∧
    ∃ b ∈ live (blocks s.arena), b.capacity = 104 ∧ Moves s b 200 0x100020 s' := by
  have hsize : blockSize? 100 = some 136 := by decide
  have hgrown : blockSize? 200 = some 232 := by decide
  obtain ⟨a, hreach, ⟨hsound, -⟩, -⟩ := exists_first_alloc page {} (by decide)
    (by decide) hsize (by decide)
  have hblocks := hsound.blocks_eq
  have hlive : taken page.whole 136 ∈ live (blocks a) := by
    rw [hblocks, live_served]
    exact List.mem_cons_self
  have hrest : page.whole.rest 136 ∈ blocks a := by
    rw [hblocks]
    exact List.mem_cons_of_mem _ List.mem_cons_self
  have hin : InPlace (blocks a) (taken page.whole 136) 232 :=
    .inr ⟨page.whole.rest 136, hrest, rfl, by decide, by decide⟩
  obtain ⟨answer, s', hstep, hrealloc⟩ :=
    ((reachable_realloc hreach).1 (taken page.whole 136) hlive).2 200 (by decide)
  obtain rfl := hrealloc.stays 232 hgrown hin
  exact ⟨_, s', hreach, hstep, taken page.whole 136, hlive, by decide, hrealloc.moves _ rfl⟩

end Realloc

end Heap

end Supervisor

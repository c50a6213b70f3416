import Supervisor.Proofs.Heap.Blocks
import Supervisor.Proofs.Heap.Relink

/-!
# Sound arenas

- `Heap.Sound a bs` is the allocator's invariant: `bs` is the block list that
  lies in the arena's memory, no two neighbours in it are both free, and the
  counters agree with it.
- `Heap.Loose a l b r` is what holds in the middle of an operation: all of that,
  but for a free block `b` whose neighbours may be free too.
- `Heap.Becomes` is the shape in which an operation reports what it did: the new
  list, the same region, and the only headers it wrote to.
- `Heap.Exchange` is what a client sees of it: which live blocks are gone, which
  are new, and that the data of the others stays.
-/

namespace Supervisor

namespace Heap

open Memory Header

/-- The allocator's invariant:
1. the blocks lie in memory, linked up and without gap;
2. the list starts where the region does;
3. no two neighbours are both free;
4. a live block has room for data;
5. the counters say what the list says. -/
structure Sound (a : Arena) (bs : List Block) : Prop where
  laid : Laid a.heap.start a.heap.limit a.memory bs
  head : a.heap.head = a.heap.start
  spaced : Spaced bs
  roomy : ∀ b ∈ bs, b.free = false → Header.bytes < b.size
  used : a.heap.used = usedBytes bs
  count : a.heap.count = (live bs).length

/-- From `a` to `a'` the heap was reorganised into `bs'`, in the same region and
without a change to any byte outside the headers of `touched`. -/
structure Becomes (a : Arena) (touched : List Block) (a' : Arena) (bs' : List Block) : Prop where
  sound : Sound a' bs'
  start : a'.heap.start = a.heap.start
  limit : a'.heap.limit = a.heap.limit
  kept : KeepsOff touched a.memory a'.memory

/-- Sound but for the free block `b` between `l` and `r`, which the counters leave
out and which may have free neighbours. -/
structure Loose (a : Arena) (l : List Block) (b : Block) (r : List Block) : Prop where
  laid : Laid a.heap.start a.heap.limit a.memory (l ++ b :: r)
  head : a.heap.head = a.heap.start
  free : b.free = true
  left : Spaced l
  right : Spaced r
  roomy : ∀ c ∈ l ++ r, c.free = false → Header.bytes < c.size
  used : a.heap.used = usedBytes l + usedBytes r
  count : a.heap.count = (live l).length + (live r).length

/-- From `a` to `a'` the live blocks `gone` gave way to `new`; the others are
`rest`, and none of their data changed. -/
structure Exchange (a : Arena) (bs gone new rest : List Block) (a' : Arena) (bs' : List Block) :
    Prop where
  sound : Sound a' bs'
  start : a'.heap.start = a.heap.start
  limit : a'.heap.limit = a.heap.limit
  before : (live bs).Perm (gone ++ rest)
  after : (live bs').Perm (new ++ rest)
  kept : ∀ c ∈ rest, ∀ x, c.Holds x → a'.memory.read x = a.memory.read x

namespace Sound

variable {a : Arena} {bs : List Block}

/-- Following the links from the head gives the list, with any fuel that is
enough for it. -/
theorem walk_eq (h : Sound a bs) {fuel : Nat} (hfuel : bs.length ≤ fuel) :
    walk a.memory fuel a.heap.head = bs := by
  rw [h.head]
  exact h.laid.walk_eq hfuel

theorem blocks_eq (h : Sound a bs) : blocks a = bs :=
  h.walk_eq (Nat.le_of_lt h.laid.length_lt)

/-- No block is live twice. -/
theorem nodup_live (h : Sound a bs) : (live bs).Nodup :=
  h.laid.nodup.filter _

/-- Different live blocks have different data addresses. -/
theorem eq_of_data (h : Sound a bs) {b c : Block} (hb : b ∈ live bs) (hc : c ∈ live bs)
    (heq : b.data = c.data) : b = c :=
  h.laid.eq_of_address (mem_live.mp hb).1 (mem_live.mp hc).1 (Nat.add_right_cancel heq)

/-- A change to memory that touches no header leaves an arena sound. -/
theorem of_memory (h : Sound a bs) {m : Memory}
    (hsame : ∀ x, HeaderByte bs x → m.read x = a.memory.read x) :
    Sound { a with memory := m } bs :=
  ⟨h.laid.congr hsame, h.head, h.spaced, h.roomy, h.used, h.count⟩

/-- The same arena, seen from the next block. -/
theorem next_block {l r : List Block} {b c : Block} (h : Sound a (l ++ b :: c :: r)) :
    Sound a ((l ++ [b]) ++ c :: r) := by
  rwa [List.append_assoc, List.singleton_append]

theorem roomy_around {l r : List Block} {b : Block} (h : Sound a (l ++ b :: r)) :
    ∀ c ∈ l ++ r, c.free = false → Header.bytes < c.size := by
  intro c hc
  refine h.roomy c ?_
  rw [List.mem_append] at hc ⊢
  exact hc.imp_right (List.mem_cons_of_mem b)

/-- What a live block adds to the counters. -/
theorem counters_live {l r : List Block} {b : Block} (h : Sound a (l ++ b :: r))
    (hb : b.free = false) :
    a.heap.used = usedBytes l + b.size + usedBytes r ∧
      a.heap.count = (live l).length + (live r).length + 1 := by
  rw [h.used, h.count, usedBytes_append, usedBytes_cons_live hb, live_append, live_cons_live hb,
    List.length_append, List.length_cons]
  omega

theorem loose {l r : List Block} {b : Block} (h : Sound a (l ++ b :: r)) (hb : b.free = true) :
    Loose a l b r where
  laid := h.laid
  head := h.head
  free := hb
  left := h.spaced.left
  right := h.spaced.right.tail
  roomy := h.roomy_around
  used := by
    have hused := h.used
    rwa [usedBytes_append, usedBytes_cons_free hb] at hused
  count := by
    have hcount := h.count
    rwa [live_append, live_cons_free hb, List.length_append] at hcount

end Sound

namespace Loose

variable {a : Arena} {l r : List Block} {b : Block}

/-- What is in use and the free block together are a word. -/
theorem used_add_lt (h : Loose a l b r) : a.heap.used + b.size < wordLimit := by
  have hused := h.used
  -- all blocks together are the region, which ends below the last word
  have hsum := h.laid.tiled.sum
  have hl := usedBytes_le_sum l
  have hr := usedBytes_le_sum r
  have hbound := h.laid.bounded
  rw [List.map_append, List.map_cons, List.sum_append, List.sum_cons] at hsum
  omega

/-- The counter of live blocks can count one more. -/
theorem count_lt (h : Loose a l b r) : a.heap.count + 1 < wordLimit := by
  -- every block takes up a byte at least
  have hlen := h.laid.tiled.length_le (k := 1) fun c hc =>
    Nat.le_trans (by decide) (h.laid.sized c hc).1
  have hl := length_live_le l
  have hr := length_live_le r
  have hcount := h.count
  have hbound := h.laid.bounded
  rw [List.length_append, List.length_cons] at hlen
  omega

end Loose

/-- An operation exchanges live blocks if the others stand in a list whose headers
it stays in. -/
theorem Becomes.exchange {a a' : Arena} {bs gone new rest touched bs' : List Block}
    {start limit : Nat} {m : Memory} (h : Becomes a touched a' bs')
    (hlaid : Laid start limit m touched) (hrest : ∀ c ∈ rest, c ∈ touched)
    (hbefore : (live bs).Perm (gone ++ rest)) (hafter : (live bs').Perm (new ++ rest)) :
    Exchange a bs gone new rest a' bs' where
  sound := h.sound
  start := h.start
  limit := h.limit
  before := hbefore
  after := hafter
  kept := fun c hc x hx => h.kept x (hlaid.not_headerByte (hrest c hc) hx)

namespace Exchange

variable {a a' : Arena} {bs gone new rest bs' : List Block} {c : Block}

/-- The blocks that stay are the live ones that do not go. -/
theorem mem_rest (h : Exchange a bs gone new rest a' bs') (hsound : Sound a bs) :
    c ∈ rest ↔ c ∈ live bs ∧ c ∉ gone := by
  have hnodup := h.before.nodup_iff.mp hsound.nodup_live
  have hapart := (List.nodup_append.mp hnodup).2.2
  rw [h.before.mem_iff, List.mem_append]
  constructor
  · intro hc
    exact ⟨.inr hc, fun hgone => hapart c hgone c hc rfl⟩
  · rintro ⟨hc, hgone⟩
    exact hc.resolve_left hgone

/-- A block that stays is live afterwards, with the data it had. -/
theorem stays (h : Exchange a bs gone new rest a' bs') (hsound : Sound a bs) (hc : c ∈ live bs)
    (hgone : c ∉ gone) :
    c ∈ live bs' ∧ ∀ x, c.Holds x → a'.memory.read x = a.memory.read x := by
  have hrest := (h.mem_rest hsound).mpr ⟨hc, hgone⟩
  exact ⟨h.after.mem_iff.mpr (List.mem_append_right new hrest), h.kept c hrest⟩

/-- The count follows the exchange. -/
theorem count_add (h : Exchange a bs gone new rest a' bs') (hsound : Sound a bs) :
    a'.heap.count + gone.length = a.heap.count + new.length := by
  have hbefore := h.before.length_eq
  have hafter := h.after.length_eq
  rw [List.length_append] at hbefore hafter
  have hcount := hsound.count
  have hcount' := h.sound.count
  omega

/-- A new block has a pointer of its own. -/
theorem new_ne (h : Exchange a bs gone new rest a' bs') {q : Block} (hq : q ∈ new)
    (hc : c ∈ rest) : c.data ≠ q.data := by
  have hapart := (List.nodup_append.mp (h.after.nodup_iff.mp h.sound.nodup_live)).2.2
  have hq' : q ∈ live bs' := h.after.mem_iff.mpr (List.mem_append_left rest hq)
  have hc' : c ∈ live bs' := h.after.mem_iff.mpr (List.mem_append_right new hc)
  intro hdata
  exact hapart q hq c hc (h.sound.eq_of_data hc' hq' hdata).symm

/-- A pointer that goes is live afterwards only if it is handed out again. -/
theorem gone_of_ne {b q : Block} (h : Exchange a bs gone [q] rest a' bs') (hsound : Sound a bs)
    (hb : b ∈ gone) (hne : q.data ≠ b.data) (hc : c ∈ live bs') : c.data ≠ b.data := by
  rcases List.mem_cons.mp (h.after.mem_iff.mp hc) with rfl | hc
  · exact hne
  · -- a block of the rest was live before, beside `b`
    intro hdata
    obtain ⟨hold, hout⟩ := (h.mem_rest hsound).mp hc
    have hb' : b ∈ live bs := h.before.mem_iff.mpr (List.mem_append_left rest hb)
    exact hout (hsound.eq_of_data hold hb' hdata ▸ hb)

end Exchange

/-! ## Spacing around an edit -/

theorem Spaced.replace_head {b c : Block} {r : List Block} (h : Spaced (b :: r))
    (hfree : c.free = b.free) : Spaced (c :: r) := by
  refine List.IsChain.cons h.tail ?_
  intro d hd
  rw [hfree]
  exact h.rel_head? hd

theorem Spaced.replace_last {b c : Block} {l : List Block} (h : Spaced (l ++ [b]))
    (hfree : c.free = b.free) : Spaced (l ++ [c]) := by
  refine List.IsChain.append h.left (List.isChain_singleton c) ?_
  intro x hx y hy
  have hlast := (List.isChain_append.mp h).2.2 x hx b rfl
  simp only [List.head?_cons, Option.mem_some_iff] at hy
  rwa [← hy, hfree]

end Heap

end Supervisor

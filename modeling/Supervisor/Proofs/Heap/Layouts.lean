import Supervisor.Heap.Allocator
import Supervisor.Proofs.Heap.Effect

/-!
# Sessions with layouts

A client of the allocator's interface with layouts, next to clients that use the heap
itself. Each allocation made for a layout is a grant; only its owner frees or resizes it,
through the interface and with the layout that it was made for.

- `Layout.Valid`: the layouts that may be asked for.
- `Allocator.Reseats`: the live block behind a grant gave way to one that is good for
  another size at the same alignment. A resize does this or nothing, whether it is left to
  the heap or made of three steps (`realloc_cases`).
- `Allocator.Request`, `Allocator.Session`, `Allocator.Step`, `Allocator.Run`,
  `Allocator.Reachable`: what can happen, one request at a time.
- `Allocator.Keeps`: the invariant, true when the heap is set up and kept by every
  exchange of live blocks that hands out grants for the new ones (`Keeps.exchange`).
-/

namespace Supervisor

/-- A layout that may be asked for: at least one byte, at a power of two that is a
word. -/
structure Layout.Valid (l : Layout) : Prop where
  sized : l.size ≠ 0
  power : ∃ k, l.align = 2 ^ k
  word : l.align < wordLimit

theorem Layout.Valid.isPowerOfTwo {l : Layout} (h : l.Valid) :
    Heap.isPowerOfTwo l.align = true := by
  obtain ⟨k, hk⟩ := h.power
  exact hk ▸ Heap.isPowerOfTwo_two_pow k

namespace Allocator

open Heap Memory Header

/-! ## Resizing -/

/-- The live block `p` gave way to `q`, which has room for `n` bytes at the alignment of
`l` and starts with as many of the bytes laid out by `l` as that is. -/
structure Reseats (a : Arena) (bs : List Block) (p : Block) (l : Layout) (n : Nat) (q : Block)
    (rest : List Block) (a' : Arena) (bs' : List Block) : Prop
    extends Exchange a bs [p] [q] rest a' bs' where
  room : n ≤ q.capacity
  aligned : q.data % l.align = 0
  data : ∀ i, i < min l.size n → a'.memory.read (q.data + i) = a.memory.read (p.data + i)

section Resizing

variable {a : Arena} {bs : List Block} {p : Block} {l : Layout} {n : Nat}

/-- Up to eight, what the heap makes of a resize keeps the alignment. -/
theorem Resized.reseats {q : Block} {rest bs' : List Block} {a' : Arena}
    (h : Resized a bs p n q rest a' bs') (hl : l.Valid) (hsmall : l.align ≤ grain)
    (hroom : l.size ≤ p.capacity) : Reseats a bs p l n q rest a' bs' where
  toExchange := h.toExchange
  room := h.room
  aligned := by
    have hq : q ∈ live bs' := h.after.mem_iff.mpr List.mem_cons_self
    exact mod_eq_zero_of_le_grain hl.isPowerOfTwo hsmall
      (h.sound.laid.data_aligned (mem_live.mp hq).1)
  data := by
    intro i hi
    exact h.data i (by omega)

theorem realloc_small (h : Sound a bs) (hp : p ∈ live bs) (hl : l.Valid)
    (hsmall : l.align ≤ grain) (hroom : l.size ≤ p.capacity) (hn : n ≠ 0) :
    (realloc (some p.data) l n).run a = .ok (.ok none) a ∨
    ∃ q rest a' bs', (realloc (some p.data) l n).run a = .ok (.ok (some q.data)) a' ∧
      Reseats a bs p l n q rest a' bs' := by
  have hrun := run_realloc_live h hp hn
  rw [realloc, if_neg (Nat.not_lt_of_le hsmall)]
  cases hsize : blockSize? n with
  | none => exact .inl (by rw [hrun, hsize])
  | some required =>
    simp only [hsize] at hrun
    rw [hrun]
    rcases resize_cases h hp hn hsize with ⟨-, q, rest, a', bs', -, hrun', hres⟩ |
      ⟨-, q, rest, a', bs', hrun', hres⟩ | ⟨-, -, hrun'⟩
    · exact .inr ⟨q, rest, a', bs', hrun', Resized.reseats hres hl hsmall hroom⟩
    · exact .inr ⟨q, rest, a', bs', hrun', Resized.reseats hres hl hsmall hroom⟩
    · exact .inl hrun'

/-- Beyond eight, a resize allocates, copies and frees. -/
theorem realloc_large (h : Sound a bs) (hp : p ∈ live bs) (hl : l.Valid)
    (hlarge : grain < l.align) (hroom : l.size ≤ p.capacity) :
    (realloc (some p.data) l n).run a = .ok (.ok none) a ∨
    ∃ q rest a' bs', (realloc (some p.data) l n).run a = .ok (.ok (some q.data)) a' ∧
      Reseats a bs p l n q rest a' bs' := by
  rw [realloc, if_pos hlarge]
  rcases allocAligned_cases h n hl.word with hrun | ⟨q, a₁, bs₁, hrun, hfit, haligned, hex⟩
  · left
    rw [run_bind_ok (show (alloc ⟨n, l.align⟩).run a = .ok none a from hrun)]
    exact EStateM.run_pure _ a
  · right
    obtain ⟨rest, a', bs', hfree, hmoved, hdata⟩ := hex.moved hp
      (Nat.le_trans (Nat.min_le_left l.size n) hroom)
      (Nat.le_trans (Nat.min_le_right l.size n) hfit)
    refine ⟨q, rest, a', bs', ?_, ⟨hmoved, hfit, haligned, hdata⟩⟩
    rw [run_bind_ok (show (alloc ⟨n, l.align⟩).run a = .ok (some q.data) a₁ from hrun)]
    simp only [Option.getD_some, run_change_bind, dealloc]
    rw [run_bind_ok hfree]
    exact EStateM.run_pure _ a'

/-- A resize at any alignment changes nothing, or the block gives way to one that is good
for the new size. -/
theorem realloc_cases (h : Sound a bs) (hp : p ∈ live bs) (hl : l.Valid)
    (hroom : l.size ≤ p.capacity) (hn : n ≠ 0) :
    (realloc (some p.data) l n).run a = .ok (.ok none) a ∨
    ∃ q rest a' bs', (realloc (some p.data) l n).run a = .ok (.ok (some q.data)) a' ∧
      Reseats a bs p l n q rest a' bs' := by
  rcases Nat.lt_or_ge grain l.align with hlarge | hsmall
  · exact realloc_large h hp hl hlarge hroom
  · exact realloc_small h hp hl hsmall hroom hn

end Resizing

/-! ## Requests -/

/-- An allocation that was made for a layout. -/
structure Grant where
  address : Nat
  layout : Layout
  deriving DecidableEq, Repr

/-- What clients ask for: the requests with layouts, and those of the heap itself. -/
inductive Request where
  | plain (r : Heap.Request)
  | alloc (l : Layout)
  | dealloc (g : Grant)
  | realloc (g : Grant) (size : Nat)
  deriving DecidableEq, Repr

namespace Request

/-- The program behind a request. The answer is a pointer or a number, if any. -/
def perform : Request → HeapM (Except PointerError (Option Nat))
  | plain r => r.perform
  | alloc l => .ok <$> Allocator.alloc l
  | dealloc g => Except.map (fun _ => none) <$> Allocator.dealloc (some g.address)
  | realloc g n => Allocator.realloc (some g.address) g.layout n

/-- The request to the heap that changes the pointers held in the same way. -/
def bare : Request → Heap.Request
  | plain r => r
  | alloc l => .allocAligned l.size l.align
  | dealloc g => .free g.address
  | realloc g n => .realloc (some g.address) n

/-- The grants once a request was answered: an allocation that was resized is laid out
for its new size. -/
def regrant (grants : List Grant) : Request → Option Nat → List Grant
  | alloc l, some q => ⟨q, l⟩ :: grants
  | dealloc g, _ => grants.erase g
  | realloc g n, some q => ⟨q, ⟨n, g.layout.align⟩⟩ :: grants.erase g
  | _, _ => grants

end Request

/-! ## Sessions -/

/-- A heap in use, with the grants among the pointers handed out. -/
structure Session where
  heap : Heap.Session
  grants : List Grant

/-- Whether a request keeps to the rules: what is granted is freed and resized through
its grant only, and not resized to nothing. -/
def Request.Allowed (s : Session) : Request → Prop
  | .plain r => r.Allowed s.heap ∧ ∀ g ∈ s.grants, r.Spares g.address
  | .alloc l => l.Valid
  | .dealloc g => g ∈ s.grants
  | .realloc g n => g ∈ s.grants ∧ n ≠ 0

/-- A request is allowed and goes through. -/
structure Step (s : Session) (r : Request) (answer : Option Nat) (s' : Session) : Prop where
  allowed : r.Allowed s
  ran : r.perform.run s.heap.arena = .ok (.ok answer) s'.heap.arena
  held : s'.heap.held = r.bare.handOver s.heap.held answer
  grants : s'.grants = r.regrant s.grants answer

/-- Requests go through one after the other. -/
inductive Run : Session → List Request → Session → Prop
  | done (s : Session) : Run s [] s
  | step {s s' s'' : Session} {r : Request} {rs : List Request} {answer : Option Nat} :
    Step s r answer s' → Run s' rs s'' → Run s (r :: rs) s''

/-- What a session over a region can come to, from a heap that was just set up. -/
def Reachable (region : Region) (s : Session) : Prop :=
  ∃ s₀ rs, Opens region s₀.heap ∧ s₀.grants = [] ∧ Run s₀ rs s

/-! ## The invariant of a session -/

/-- The live block `b` is good for the grant `g`. -/
structure Backs (b : Block) (g : Grant) : Prop where
  pointer : b.data = g.address
  room : g.layout.size ≤ b.capacity
  aligned : g.address % g.layout.align = 0

/-- What is true all through a session: the heap's invariant, and every grant has a valid
layout and a live block, which no other grant has. -/
structure Keeps (region : Region) (s : Session) (bs : List Block) : Prop
    extends Heap.Keeps region s.heap bs where
  valid : ∀ g ∈ s.grants, g.layout.Valid
  backed : ∀ g ∈ s.grants, ∃ b ∈ live bs, Backs b g
  distinct : (s.grants.map Grant.address).Nodup

section Sessions

variable {region : Region} {s s' : Session} {bs bs' gone new rest : List Block}
  {r : Request} {answer : Option Nat} {rs : List Request} {kept fresh : List Grant} {g : Grant}

/-- The block behind a grant is behind no other one. -/
theorem Keeps.spares_others {b : Block} (h : Keeps region s bs) (hg : g ∈ s.grants)
    (hbacks : Backs b g) : ∀ g' ∈ s.grants.erase g, ∀ c ∈ [b], c.data ≠ g'.address := by
  have hperm := (List.perm_cons_erase hg).map Grant.address
  have hdistinct := hperm.nodup_iff.mp h.distinct
  intro g' hg' c hc heq
  rw [List.mem_singleton.mp hc, hbacks.pointer] at heq
  exact (List.nodup_cons.mp hdistinct).1 (heq ▸ List.mem_map_of_mem hg')

/-- Without the pointer of a grant, the pointers held are those of the other live blocks. -/
theorem Keeps.erase_held {b : Block} (h : Keeps region s bs) (hbacks : Backs b g)
    (hbefore : (live bs).Perm ([b] ++ rest)) :
    (s.heap.held.erase g.address).Perm (rest.map Block.data) :=
  hbacks.pointer ▸ erase_held_perm h.held hbefore

/-- An exchange of live blocks that spares the grants that are kept, and that comes with
grants for the new blocks, keeps the invariant. -/
theorem Keeps.exchange (h : Keeps region s bs)
    (hex : Exchange s.heap.arena bs gone new rest s'.heap.arena bs')
    (hheld : s'.heap.held.Perm ((new ++ rest).map Block.data))
    (hgrants : s'.grants = fresh ++ kept) (hsub : kept.Sublist s.grants)
    (hspared : ∀ g ∈ kept, ∀ b ∈ gone, b.data ≠ g.address)
    (hvalid : ∀ g ∈ fresh, g.layout.Valid) (hfresh : ∀ g ∈ fresh, ∃ q ∈ new, Backs q g)
    (hdistinct : (fresh.map Grant.address).Nodup) : Keeps region s' bs' := by
  -- the blocks behind the grants that are kept are none of those that go
  have hrest : ∀ g ∈ kept, ∃ b ∈ rest, Backs b g := by
    intro g hg
    obtain ⟨b, hb, hbacks⟩ := h.backed g (hsub.subset hg)
    refine ⟨b, (hex.mem_rest h.sound).mpr ⟨hb, ?_⟩, hbacks⟩
    intro hgone
    exact hspared g hg b hgone hbacks.pointer
  have hafter : ∀ {b}, b ∈ live bs' ↔ b ∈ new ∨ b ∈ rest := by
    intro b
    rw [hex.after.mem_iff, List.mem_append]
  refine ⟨⟨hex.sound, hex.start.trans h.start, hex.limit.trans h.limit,
    hheld.trans (hex.after.map _).symm⟩, ?valid, ?backed, ?distinct⟩
  all_goals rw [hgrants]
  case valid =>
    intro g hg
    rcases List.mem_append.mp hg with hg | hg
    · exact hvalid g hg
    · exact h.valid g (hsub.subset hg)
  case backed =>
    intro g hg
    rcases List.mem_append.mp hg with hg | hg
    · obtain ⟨q, hq, hbacks⟩ := hfresh g hg
      exact ⟨q, hafter.mpr (.inl hq), hbacks⟩
    · obtain ⟨b, hb, hbacks⟩ := hrest g hg
      exact ⟨b, hafter.mpr (.inr hb), hbacks⟩
  case distinct =>
    rw [List.map_append]
    refine List.nodup_append.mpr ⟨hdistinct, h.distinct.sublist (hsub.map _), ?_⟩
    -- a new block and one that stays have different data
    intro x hx y hy heq
    obtain ⟨g, hg, rfl⟩ := List.mem_map.mp hx
    obtain ⟨g', hg', rfl⟩ := List.mem_map.mp hy
    obtain ⟨q, hq, hbacks⟩ := hfresh g hg
    obtain ⟨b, hb, hbacks'⟩ := hrest g' hg'
    refine hex.new_ne hq hb ?_
    rw [hbacks.pointer, hbacks'.pointer, heq]

/-- A request to the heap itself that spares the grants keeps the invariant. -/
theorem Keeps.plain {p : Heap.Request} (h : Keeps region s bs)
    (heffect : Heap.Effect s.heap bs p answer s'.heap bs')
    (hspared : ∀ g ∈ s.grants, p.Spares g.address) (hgrants : s'.grants = s.grants) :
    Keeps region s' bs' := by
  refine ⟨heffect.keeps h.toKeeps, ?_, ?_, ?_⟩
  all_goals rw [hgrants]
  · exact h.valid
  · intro g hg
    obtain ⟨b, hb, hbacks⟩ := h.backed g hg
    exact ⟨b, heffect.spared b hb (hbacks.pointer ▸ hspared g hg), hbacks⟩
  · exact h.distinct

end Sessions

end Allocator

end Supervisor

import Supervisor.Proofs.Heap.Isolation
import Supervisor.Proofs.Heap.Layouts
import Supervisor.Proofs.Machine.Store

/-!
# The contract of the allocator

What a client that asks with layouts can rely on.

- `Allocator.Allocates`, `Allocator.Reallocates`, `Allocator.Releases`: what the answers to
  the three requests mean.
- `Keeps.alloc`, `Keeps.realloc`, `Keeps.dealloc`, `Keeps.exists_plain`: each request that is
  allowed is answered in this way and keeps the invariant, hence so does every step
  (`Step.keeps`) and every run of them (`Run.keeps`).
- `Allocator.Returns`: on the machine, with its lock and its panics, the request is answered
  too.
- `reachable_contract`: all of this, wherever a session has got.
-/

namespace Supervisor

namespace Allocator

open Heap Memory Header

/-! ## What the answers mean -/

/-- The live block `c` stays where it is, with its size and its data. -/
def Stays (s s' : Session) (c : Block) : Prop :=
  c ∈ live (blocks s'.heap.arena) ∧
    ∀ x, c.Holds x → s'.heap.arena.memory.read x = s.heap.arena.memory.read x

/-- What the answer to a request for the layout `l` means:
1. without a pointer nothing changes;
2. a pointer is good for the layout, and shares no byte with any live block;
3. it is new, and every block that was live before stays. -/
structure Allocates (region : Region) (s : Session) (l : Layout) (answer : Option Nat)
    (s' : Session) : Prop where
  refused : answer = none → s' = s
  serves : ∀ q, answer = some q → Serves region s'.heap q l.size l.align
  others : ∀ q, answer = some q → ∀ c ∈ live (blocks s.heap.arena), c.data ≠ q ∧ Stays s s' c

/-- From `s` to `s'` the allocation of the grant `g` became one of `n` bytes at `q`:
1. the pointer is good for `n` bytes at the alignment of the grant;
2. the allocation starts with the bytes it had, as many as both layouts have;
3. as many blocks are live as before;
4. the old pointer is live only if it is the new one;
5. the other live blocks stay. -/
structure Moves (region : Region) (s : Session) (g : Grant) (n q : Nat) (s' : Session) :
    Prop where
  serves : Serves region s'.heap q n g.layout.align
  data : ∀ i, i < min g.layout.size n →
    s'.heap.arena.memory.read (q + i) = s.heap.arena.memory.read (g.address + i)
  count : s'.heap.arena.heap.count = s.heap.arena.heap.count
  gone : q ≠ g.address → ∀ c ∈ live (blocks s'.heap.arena), c.data ≠ g.address
  others : ∀ c ∈ live (blocks s.heap.arena), c.data ≠ g.address → Stays s s' c

/-- What the answer to a request to resize a grant to `n` bytes means: a pointer is where
its allocation moved, and without one nothing changes. -/
structure Reallocates (region : Region) (s : Session) (g : Grant) (n : Nat)
    (answer : Option Nat) (s' : Session) : Prop where
  refused : answer = none → s' = s
  moves : ∀ q, answer = some q → Moves region s g n q s'

/-- From `s` to `s'` the allocation of the grant `g` and nothing else was freed:
1. the live blocks are those of before without its own;
2. the count says so;
3. the others stay. -/
structure Releases (s : Session) (g : Grant) (s' : Session) : Prop where
  remaining : ∀ c, c ∈ live (blocks s'.heap.arena) ↔
    c ∈ live (blocks s.heap.arena) ∧ c.data ≠ g.address
  count : s'.heap.arena.heap.count + 1 = s.heap.arena.heap.count
  others : ∀ c ∈ live (blocks s.heap.arena), c.data ≠ g.address → Stays s s' c

/-- On every machine that has the heap of `s` in its memory, and its lock free, the
operation returns its answer, and leaves the heap of `s'` in memory and everything else of
the kernel as it is. In particular it does not panic. -/
def Returns {α : Type} (s : Session) (operation : MachineM α) (answer : α) (s' : Session) :
    Prop :=
  ∀ b : Machine, Lock.heap ∉ b.held → b.rest.heap = s.heap.arena.heap →
    b.rest.memory = s.heap.arena.memory →
    ∃ b' : Machine, operation.run b = .ok answer b' ∧ b'.held = b.held ∧
      b'.rest = { b.rest with heap := s'.heap.arena.heap, memory := s'.heap.arena.memory }

section Requests

variable {region : Region} {s s' s'' : Session} {bs : List Block} {r : Request}
  {answer : Option Nat} {rs : List Request} {l : Layout} {g : Grant} {n : Nat}

/-! ## One request -/

/-- When the block behind a grant goes, the other live blocks stay. -/
theorem Keeps.stays {bs' new rest : List Block} {b : Block} (h : Keeps region s bs)
    (h' : Keeps region s' bs') (hbacks : Backs b g)
    (hex : Exchange s.heap.arena bs [b] new rest s'.heap.arena bs') :
    ∀ c ∈ live (blocks s.heap.arena), c.data ≠ g.address → Stays s s' c := by
  intro c hc hne
  rw [h.sound.blocks_eq] at hc
  rw [Stays, h'.sound.blocks_eq]
  refine hex.stays h.sound hc ?_
  intro hmem
  rw [List.mem_singleton.mp hmem] at hne
  exact hne hbacks.pointer

/-- A request for a layout is answered. -/
theorem Keeps.alloc (h : Keeps region s bs) (hl : l.Valid) :
    ∃ answer s' bs', Step s (.alloc l) answer s' ∧ Keeps region s' bs' ∧
      Allocates region s l answer s' := by
  rcases allocAligned_cases h.sound l.size hl.word with
    hrun | ⟨q, a', bs', hrun, hroom, haligned, hex⟩
  · exact ⟨none, s, bs, ⟨hl, run_map_ok hrun _, rfl, rfl⟩, h, fun _ => rfl,
      fun _ hq => (nomatch hq), fun _ hq => nomatch hq⟩
  · let s' : Session := ⟨⟨a', q.data :: s.heap.held⟩, ⟨q.data, l⟩ :: s.grants⟩
    have hkeeps : Keeps region s' bs' := by
      have hgrants : s'.grants = [⟨q.data, l⟩] ++ s.grants := rfl
      refine h.exchange hex (h.held.cons q.data) hgrants (.refl _) ?_ ?_ ?_
        (List.nodup_singleton _)
      · exact fun _ _ _ hb => nomatch hb
      · simp [hl]
      · simpa using ⟨rfl, hroom, haligned⟩
    have hq : q ∈ live bs' := hex.after.mem_iff.mpr List.mem_cons_self
    refine ⟨some q.data, s', bs', ⟨hl, run_map_ok hrun _, rfl, rfl⟩, hkeeps,
      fun hanswer => (nomatch hanswer), ?serves, ?others⟩
    case serves =>
      rintro _ ⟨rfl⟩
      exact hkeeps.serves hq hroom haligned
    case others =>
      rintro _ ⟨rfl⟩ c hc
      rw [h.sound.blocks_eq] at hc
      rw [Stays, hkeeps.sound.blocks_eq]
      exact ⟨hex.new_ne List.mem_cons_self hc, hex.stays h.sound hc List.not_mem_nil⟩

/-- A request to resize a grant is answered. -/
theorem Keeps.realloc (h : Keeps region s bs) (hg : g ∈ s.grants) (hn : n ≠ 0) :
    ∃ answer s' bs', Step s (.realloc g n) answer s' ∧ Keeps region s' bs' ∧
      Reallocates region s g n answer s' := by
  obtain ⟨b, hb, hbacks⟩ := h.backed g hg
  have hvalid := h.valid g hg
  have hcases := realloc_cases h.sound hb hvalid hbacks.room hn
  rw [hbacks.pointer] at hcases
  rcases hcases with hrun | ⟨q, rest, a', bs', hrun, hres⟩
  · refine ⟨none, s, bs, ⟨⟨hg, hn⟩, hrun, ?_, rfl⟩, h, fun _ => rfl, fun _ hq => nomatch hq⟩
    cases n with
    | zero => exact absurd rfl hn
    | succ n => rfl
  · let s' : Session := ⟨⟨a', q.data :: s.heap.held.erase g.address⟩,
      ⟨q.data, ⟨n, g.layout.align⟩⟩ :: s.grants.erase g⟩
    have hkeeps : Keeps region s' bs' := by
      have hgrants : s'.grants = [⟨q.data, ⟨n, g.layout.align⟩⟩] ++ s.grants.erase g := rfl
      refine h.exchange hres.toExchange ((h.erase_held hbacks hres.before).cons q.data) hgrants
        List.erase_sublist (h.spares_others hg hbacks) ?_ ?_ (List.nodup_singleton _)
      · simpa using ⟨hn, hvalid.power, hvalid.word⟩
      · simpa using ⟨rfl, hres.room, hres.aligned⟩
    have hq : q ∈ live bs' := hres.after.mem_iff.mpr List.mem_cons_self
    refine ⟨some q.data, s', bs', ⟨⟨hg, hn⟩, hrun, rfl, rfl⟩, hkeeps,
      fun hanswer => (nomatch hanswer), ?_⟩
    rintro _ ⟨rfl⟩
    refine ⟨hkeeps.serves hq hres.room hres.aligned, ?data,
      Nat.add_right_cancel (hres.count_add h.sound), ?gone,
      h.stays hkeeps hbacks hres.toExchange⟩
    case data =>
      intro i hi
      rw [← hbacks.pointer]
      exact hres.data i hi
    case gone =>
      intro hne c hc
      rw [hkeeps.sound.blocks_eq] at hc
      rw [← hbacks.pointer] at hne ⊢
      exact hres.gone_of_ne h.sound List.mem_cons_self hne hc

/-- A grant is taken back. -/
theorem Keeps.dealloc (h : Keeps region s bs) (hg : g ∈ s.grants) :
    ∃ s' bs', Step s (.dealloc g) none s' ∧ Keeps region s' bs' ∧ Releases s g s' := by
  obtain ⟨b, hb, hbacks⟩ := h.backed g hg
  obtain ⟨a', bs', rest, hrun, hex⟩ := free_cases h.sound hb
  rw [hbacks.pointer] at hrun
  let s' : Session := ⟨⟨a', s.heap.held.erase g.address⟩, s.grants.erase g⟩
  have hkeeps : Keeps region s' bs' := by
    have hgrants : s'.grants = [] ++ s.grants.erase g := rfl
    exact h.exchange hex (h.erase_held hbacks hex.before) hgrants List.erase_sublist
      (h.spares_others hg hbacks) (fun _ hg' => nomatch hg') (fun _ hg' => nomatch hg')
      List.nodup_nil
  refine ⟨s', bs', ⟨hg, run_map_ok hrun _, rfl, rfl⟩, hkeeps, ?_, hex.count_add h.sound,
    h.stays hkeeps hbacks hex⟩
  intro c
  rw [hkeeps.sound.blocks_eq, h.sound.blocks_eq, hex.after.mem_iff, List.nil_append,
    hex.mem_rest h.sound]
  refine and_congr_right fun hc => ?_
  -- of the live blocks only this one has the address of the grant
  rw [List.mem_singleton, ← hbacks.pointer]
  exact not_congr ⟨congrArg Block.data, h.sound.eq_of_data hc hb⟩

/-! ## Every run -/

/-- A program has one outcome. -/
theorem Step.unique {answer' : Option Nat} (h : Step s r answer s') (h' : Step s r answer' s'') :
    answer = answer' ∧ s' = s'' := by
  have hran := h.ran
  rw [h'.ran] at hran
  injection hran with hanswer harena
  injection hanswer with hanswer
  obtain ⟨⟨arena, held⟩, grants⟩ := s'
  obtain ⟨⟨arena', held'⟩, grants'⟩ := s''
  obtain rfl : answer' = answer := hanswer
  obtain rfl : arena' = arena := harena
  obtain rfl : held = held' := h.held.trans h'.held.symm
  obtain rfl : grants = grants' := h.grants.trans h'.grants.symm
  exact ⟨rfl, rfl⟩

/-- What a step leads to keeps the invariant, with one case for each request. -/
theorem Step.keeps (hstep : Step s r answer s') (h : Keeps region s bs) :
    ∃ bs', Keeps region s' bs' := by
  cases r with
  | plain r =>
    obtain ⟨hallowed, hspared⟩ := hstep.allowed
    obtain ⟨bs', heffect⟩ := h.effect ⟨hallowed, hstep.ran, hstep.held⟩
    exact ⟨bs', h.plain heffect hspared hstep.grants⟩
  | alloc l =>
    obtain ⟨_, _, bs', hstep', hkeeps, -⟩ := h.alloc hstep.allowed
    exact ⟨bs', (hstep.unique hstep').2 ▸ hkeeps⟩
  | dealloc g =>
    obtain ⟨_, bs', hstep', hkeeps, -⟩ := h.dealloc hstep.allowed
    exact ⟨bs', (hstep.unique hstep').2 ▸ hkeeps⟩
  | realloc g n =>
    obtain ⟨_, _, bs', hstep', hkeeps, -⟩ := h.realloc hstep.allowed.1 hstep.allowed.2
    exact ⟨bs', (hstep.unique hstep').2 ▸ hkeeps⟩

theorem Run.keeps (hrun : Run s rs s') (h : Keeps region s bs) :
    ∃ bs', Keeps region s' bs' := by
  induction hrun generalizing bs with
  | done s => exact ⟨bs, h⟩
  | step hstep _ ih =>
    obtain ⟨bs', hkeeps⟩ := hstep.keeps h
    exact ih hkeeps

/-- The invariant holds wherever a session gets. -/
theorem Reachable.keeps (h : Reachable region s) : ∃ bs, Keeps region s bs := by
  obtain ⟨s₀, rs, hopens, hgrants, hrun⟩ := h
  refine hrun.keeps ⟨hopens.keeps, ?_, ?_, ?_⟩
  all_goals simp [hgrants]

theorem Run.concat (hrun : Run s rs s') (hstep : Step s' r answer s'') :
    Run s (rs ++ [r]) s'' := by
  induction hrun with
  | done s => exact .step hstep (.done s'')
  | step hfirst _ ih => exact .step hfirst (ih hstep)

theorem Reachable.step (h : Reachable region s) (hstep : Step s r answer s') :
    Reachable region s' := by
  obtain ⟨s₀, rs, hopens, hgrants, hrun⟩ := h
  exact ⟨s₀, rs ++ [r], hopens, hgrants, hrun.concat hstep⟩

/-! ## On the machine -/

theorem returns_onHeap {α : Type} {body : HeapM α} {a : α}
    (h : body.run s.heap.arena = .ok a s'.heap.arena) : Returns s (Machine.onHeap body) a s' := by
  intro b hfree hheap hmemory
  rw [show s.heap.arena = ⟨b.rest.heap, b.rest.memory⟩ by rw [hheap, hmemory]] at h
  exact ⟨_, Machine.run_onHeap hfree h, Board.passed_held b, rfl⟩

theorem returns_orPanic {α : Type} {body : HeapM (Except PointerError α)} {a : α}
    (h : body.run s.heap.arena = .ok (.ok a) s'.heap.arena) :
    Returns s (Machine.orPanic body) a s' := by
  intro b hfree hheap hmemory
  rw [show s.heap.arena = ⟨b.rest.heap, b.rest.memory⟩ by rw [hheap, hmemory]] at h
  exact ⟨_, Machine.run_orPanic hfree h, Board.passed_held b, rfl⟩

theorem Step.returns_alloc (h : Step s (.alloc l) answer s') :
    Returns s (Machine.allocFor l) answer s' := by
  obtain ⟨q, hrun, hanswer⟩ := run_map_eq_ok h.ran
  injection hanswer with hanswer
  exact hanswer ▸ returns_onHeap hrun

theorem Step.returns_dealloc (h : Step s (.dealloc g) answer s') :
    Returns s (Machine.deallocFor (some g.address)) () s' := by
  obtain ⟨outcome, hrun, hanswer⟩ := run_map_eq_ok h.ran
  cases outcome with
  | error e => cases hanswer
  | ok u => exact returns_orPanic hrun

/-! ## The contract -/

/-- Wherever a session over a region gets, with the requests for layouts and those to the
heap itself in any order:
1. every grant is good for its layout;
2. a request for a valid layout is answered, with a pointer that is good for it or without
   any change;
3. resizing a grant to at least one byte is answered, with a pointer that is good for the
   new size and has the bytes of the old one, or without any change, and never panics;
4. taking a grant back frees it and nothing else, and never panics. -/
theorem reachable_contract (h : Reachable region s) :
    (∀ g ∈ s.grants, Serves region s.heap g.address g.layout.size g.layout.align) ∧
    (∀ l : Layout, l.Valid → ∃ answer s', Step s (.alloc l) answer s' ∧
      Returns s (Machine.allocFor l) answer s' ∧ Allocates region s l answer s') ∧
    (∀ g ∈ s.grants, ∀ n, n ≠ 0 → ∃ answer s', Step s (.realloc g n) answer s' ∧
      Returns s (Machine.reallocFor (some g.address) g.layout n) answer s' ∧
      Reallocates region s g n answer s') ∧
    ∀ g ∈ s.grants, ∃ s', Step s (.dealloc g) none s' ∧
      Returns s (Machine.deallocFor (some g.address)) () s' ∧ Releases s g s' := by
  obtain ⟨bs, hkeeps⟩ := h.keeps
  refine ⟨?_, ?_, ?_, ?_⟩
  · intro g hg
    obtain ⟨b, hb, hpointer, hroom, haligned⟩ := hkeeps.backed g hg
    rw [← hpointer] at haligned ⊢
    exact hkeeps.serves hb hroom haligned
  · intro l hl
    obtain ⟨answer, s', -, hstep, -, hallocates⟩ := hkeeps.alloc hl
    exact ⟨answer, s', hstep, hstep.returns_alloc, hallocates⟩
  · intro g hg n hn
    obtain ⟨answer, s', -, hstep, -, hreallocates⟩ := hkeeps.realloc hg hn
    exact ⟨answer, s', hstep, returns_orPanic hstep.ran, hreallocates⟩
  · intro g hg
    obtain ⟨s', -, hstep, -, hreleases⟩ := hkeeps.dealloc hg
    exact ⟨s', hstep, hstep.returns_dealloc, hreleases⟩

/-- In a page, an allocation at a multiple of 64 can be resized and taken back. -/
theorem page_contract : ∃ s s₁ answer s₂ s₃, Reachable page s ∧
    Step s (.alloc ⟨100, 64⟩) (some 0x100040) s₁ ∧
    Allocates page s ⟨100, 64⟩ (some 0x100040) s₁ ∧
    Step s₁ (.realloc ⟨0x100040, ⟨100, 64⟩⟩ 200) answer s₂ ∧
    Reallocates page s₁ ⟨0x100040, ⟨100, 64⟩⟩ 200 answer s₂ ∧
    Step s₁ (.dealloc ⟨0x100040, ⟨100, 64⟩⟩) none s₃ ∧
    Releases s₁ ⟨0x100040, ⟨100, 64⟩⟩ s₃ := by
  have hroom : Header.bytes + grain ≤ page.room := by decide
  have hsize : blockSize? 100 = some 136 := by decide
  have hpower : isPowerOfTwo 64 = true := by decide
  have hsound : Sound (page.fresh {}) ([] ++ page.whole :: []) := page.sound_fresh hroom {}
  obtain ⟨a, hrun, -⟩ := run_allocAligned_some hsound (by decide) hpower (by decide)
    (by decide) hsize (by decide) (fun _ hc => nomatch hc)
  let s : Session := ⟨⟨page.fresh {}, []⟩, []⟩
  let s₁ : Session := ⟨⟨a, [0x100040]⟩, [⟨0x100040, ⟨100, 64⟩⟩]⟩
  have hreach : Reachable page s :=
    ⟨s, [], opens_iff.mpr ⟨hroom, rfl, {}, rfl⟩, rfl, .done s⟩
  have hvalid : Layout.Valid ⟨100, 64⟩ := ⟨by decide, ⟨6, rfl⟩, by decide⟩
  have hstep : Step s (.alloc ⟨100, 64⟩) (some 0x100040) s₁ :=
    ⟨hvalid, run_map_ok hrun _, rfl, rfl⟩
  obtain ⟨_, _, hstep', -, hallocates⟩ := (reachable_contract hreach).2.1 _ hvalid
  obtain ⟨rfl, rfl⟩ := hstep.unique hstep'
  obtain ⟨-, -, hrealloc, hdealloc⟩ := reachable_contract (hreach.step hstep)
  obtain ⟨answer, s₂, hstep₂, -, hreallocates⟩ := hrealloc _ List.mem_cons_self 200 (by decide)
  obtain ⟨s₃, hstep₃, -, hreleases⟩ := hdealloc _ List.mem_cons_self
  exact ⟨s, s₁, answer, s₂, s₃, hreach, hstep, hallocates, hstep₂, hreallocates, hstep₃,
    hreleases⟩

end Requests

end Allocator

end Supervisor

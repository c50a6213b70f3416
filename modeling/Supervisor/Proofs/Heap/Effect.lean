import Supervisor.Proofs.Heap.Session

/-!
# The effect of a request

- `Heap.Effect`: what a request does to a sound arena, in terms of its live
  blocks and of the pointers held.
- `effect_of_allowed`: every allowed request has such an effect; in particular
  none of them faults or is refused. It is put together from one lemma for each
  kind of request.
- `Run.keeps`, `Reachable.keeps`: the invariant holds all through a session, by
  induction on the requests.
-/

namespace Supervisor

namespace Heap

open Memory Header

/-- What a request that is answered does to a sound arena:
1. the arena stays sound, over the same region;
2. the pointers held stay those of the live blocks;
3. live blocks that are spared stay, and so does their data, but for what the
   client itself writes;
4. a pointer that is handed out is that of a live block with enough room. -/
structure Effect (s : Session) (bs : List Block) (r : Request) (answer : Option Nat)
    (s' : Session) (bs' : List Block) : Prop where
  sound : Sound s'.arena bs'
  start : s'.arena.heap.start = s.arena.heap.start
  limit : s'.arena.heap.limit = s.arena.heap.limit
  held : s'.held.Perm ((live bs').map Block.data)
  spared : ∀ b ∈ live bs, r.Spares b.data → b ∈ live bs'
  kept : ∀ b ∈ live bs, r.Spares b.data → ∀ x, b.Holds x → ¬ r.WritesTo x →
    s'.arena.memory.read x = s.arena.memory.read x
  granted : ∀ q n align, answer = some q → r.asks = some (n, align) →
    ∃ b ∈ live bs', b.data = q ∧ n ≤ b.capacity ∧ q % align = 0

/-- Nothing happens. -/
theorem Exchange.refl {a : Arena} {bs : List Block} (h : Sound a bs) :
    Exchange a bs [] [] (live bs) a bs :=
  ⟨h, rfl, rfl, .refl _, .refl _, fun _ _ _ _ => rfl⟩

/-- A request that exchanges live blocks, of which those that go are its own, has the
effect of a request. -/
theorem Exchange.effect {s : Session} {bs gone new rest bs' : List Block} {a' : Arena}
    {r : Request} {answer : Option Nat} (h : Exchange s.arena bs gone new rest a' bs')
    (hgone : ∀ b ∈ gone, ¬ r.Spares b.data)
    (hheld : (r.handOver s.held answer).Perm ((new ++ rest).map Block.data))
    (hgranted : ∀ q n align, answer = some q → r.asks = some (n, align) →
      ∃ b ∈ live bs', b.data = q ∧ n ≤ b.capacity ∧ q % align = 0) :
    Effect s bs r answer ⟨a', r.handOver s.held answer⟩ bs' := by
  have hrest : ∀ b ∈ live bs, r.Spares b.data → b ∈ rest := by
    intro b hb hspared
    rcases List.mem_append.mp (h.before.mem_iff.mp hb) with hmem | hmem
    · exact absurd hspared (hgone b hmem)
    · exact hmem
  refine ⟨h.sound, h.start, h.limit, hheld.trans (h.after.map _).symm, ?_, ?_, hgranted⟩
  · intro b hb hspared
    exact h.after.mem_iff.mpr (List.mem_append_right new (hrest b hb hspared))
  · intro b hb hspared x hx _
    exact h.kept b (hrest b hb hspared) x hx

section Effects

variable {s : Session} {bs : List Block} {n align p : Nat}

/-- A pointer held is that of a live block. -/
theorem live_of_held (hheld : s.held.Perm ((live bs).map Block.data)) (hp : p ∈ s.held) :
    ∃ b ∈ live bs, b.data = p :=
  List.mem_map.mp (hheld.mem_iff.mp hp)

/-- Without the pointer of a block that goes, the pointers held are those of the
others. -/
theorem erase_held_perm {b : Block} {rest : List Block}
    (hheld : s.held.Perm ((live bs).map Block.data)) (hbs : (live bs).Perm ([b] ++ rest)) :
    (s.held.erase b.data).Perm (rest.map Block.data) := by
  -- the block that goes may be brought to the front, where its pointer is erased
  have hperm := (hheld.trans (hbs.map _)).erase b.data
  rwa [List.map_append, List.map_singleton, List.singleton_append, List.erase_cons_head] at hperm

/-- A pointer handed out for a live block of a sound arena is a multiple of eight. -/
theorem granted_of_live {a : Arena} {q : Block} (h : Sound a bs) (hq : q ∈ live bs)
    (hroom : n ≤ q.capacity) :
    ∃ b ∈ live bs, b.data = q.data ∧ n ≤ b.capacity ∧ q.data % grain = 0 :=
  ⟨q, hq, rfl, hroom, h.laid.data_aligned (mem_live.mp hq).1⟩

theorem effect_alloc (h : Sound s.arena bs) (hheld : s.held.Perm ((live bs).map Block.data))
    (n : Nat) :
    ∃ answer a' bs', (alloc n).run s.arena = .ok answer a' ∧
      Effect s bs (.alloc n) answer ⟨a', (Request.alloc n).handOver s.held answer⟩ bs' := by
  rcases alloc_cases h n with ⟨hrun, -⟩ | ⟨q, a', bs', -, hrun, hroom, hex⟩
  · exact ⟨none, s.arena, bs, hrun,
      (Exchange.refl h).effect (by simp) hheld (fun _ _ _ hanswer _ => nomatch hanswer)⟩
  · refine ⟨some q.data, a', bs', hrun, hex.effect (by simp) (hheld.cons q.data) ?_⟩
    rintro _ _ _ ⟨rfl⟩ ⟨rfl, rfl⟩
    exact granted_of_live hex.sound (hex.after.mem_iff.mpr List.mem_cons_self) hroom

theorem effect_allocAligned (h : Sound s.arena bs)
    (hheld : s.held.Perm ((live bs).map Block.data)) (n : Nat) (halign : align < wordLimit) :
    ∃ answer a' bs', (allocAligned n align).run s.arena = .ok answer a' ∧
      Effect s bs (.allocAligned n align) answer
        ⟨a', (Request.allocAligned n align).handOver s.held answer⟩ bs' := by
  rcases allocAligned_cases h n halign with hrun | ⟨q, a', bs', hrun, hroom, hdata, hex⟩
  · exact ⟨none, s.arena, bs, hrun,
      (Exchange.refl h).effect (by simp) hheld (fun _ _ _ hanswer _ => nomatch hanswer)⟩
  · refine ⟨some q.data, a', bs', hrun, hex.effect (by simp) (hheld.cons q.data) ?_⟩
    rintro _ _ _ ⟨rfl⟩ ⟨rfl, rfl⟩
    exact ⟨q, hex.after.mem_iff.mpr List.mem_cons_self, rfl, hroom, hdata⟩

theorem effect_free (h : Sound s.arena bs) (hheld : s.held.Perm ((live bs).map Block.data))
    (hp : p ∈ s.held) :
    ∃ a' bs', (free p).run s.arena = .ok (.ok ()) a' ∧
      Effect s bs (.free p) none ⟨a', s.held.erase p⟩ bs' := by
  obtain ⟨b, hb, rfl⟩ := live_of_held hheld hp
  obtain ⟨a', bs', rest, hrun, hex⟩ := free_cases h hb
  refine ⟨a', bs', hrun, hex.effect ?_ ?_ fun _ _ _ hanswer _ => nomatch hanswer⟩
  · intro c hc
    rw [List.mem_singleton.mp hc]
    exact fun hne => hne rfl
  · exact erase_held_perm hheld hex.before

theorem effect_realloc_none (h : Sound s.arena bs)
    (hheld : s.held.Perm ((live bs).map Block.data)) (n : Nat) :
    ∃ answer a' bs', (realloc none n).run s.arena = .ok (.ok answer) a' ∧
      Effect s bs (.realloc none n) answer
        ⟨a', (Request.realloc none n).handOver s.held answer⟩ bs' := by
  obtain ⟨answer, a', bs', hrun, heffect⟩ := effect_alloc h hheld n
  refine ⟨answer, a', bs', by rw [run_realloc_none, hrun], ?_⟩
  have hheld' : (Request.realloc none n).handOver s.held answer
      = (Request.alloc n).handOver s.held answer := by
    cases answer <;> rfl
  rw [hheld']
  exact ⟨heffect.sound, heffect.start, heffect.limit, heffect.held, heffect.spared, heffect.kept,
    heffect.granted⟩

theorem effect_realloc (h : Sound s.arena bs) (hheld : s.held.Perm ((live bs).map Block.data))
    (hp : p ∈ s.held) (n : Nat) :
    ∃ answer a' bs', (realloc (some p) n).run s.arena = .ok (.ok answer) a' ∧
      Effect s bs (.realloc (some p) n) answer
        ⟨a', (Request.realloc (some p) n).handOver s.held answer⟩ bs' := by
  by_cases hn : n = 0
  · obtain ⟨a', bs', hrun, heffect⟩ := effect_free h hheld hp
    subst hn
    exact ⟨none, a', bs', by rw [run_realloc_zero, hrun], heffect.sound, heffect.start,
      heffect.limit, heffect.held, heffect.spared, heffect.kept,
      fun _ _ _ hanswer _ => nomatch hanswer⟩
  · obtain ⟨b, hb, rfl⟩ := live_of_held hheld hp
    have hrun := run_realloc_live h hb hn
    -- an answer without a pointer leaves everything as it is
    have hnothing : Effect s bs (.realloc (some b.data) n) none
        ⟨s.arena, (Request.realloc (some b.data) n).handOver s.held none⟩ bs := by
      have hsame : (Request.realloc (some b.data) n).handOver s.held none = s.held := by
        cases n with
        | zero => exact absurd rfl hn
        | succ n => rfl
      refine (Exchange.refl h).effect (by simp) ?_ fun _ _ _ hanswer _ => nomatch hanswer
      rw [hsame]
      exact hheld
    have hmoved : ∀ q rest a' bs', Resized s.arena bs b n q rest a' bs' →
        Effect s bs (.realloc (some b.data) n) (some q.data)
          ⟨a', (Request.realloc (some b.data) n).handOver s.held (some q.data)⟩ bs' := by
      intro q rest a' bs' hres
      refine hres.toExchange.effect ?_ ?_ ?_
      · intro c hc
        rw [List.mem_singleton.mp hc]
        exact fun hne => hne rfl
      · exact (erase_held_perm hheld hres.before).cons q.data
      · rintro _ _ _ ⟨rfl⟩ ⟨rfl, rfl⟩
        exact granted_of_live hres.sound (hres.after.mem_iff.mpr List.mem_cons_self) hres.room
    cases hsize : blockSize? n with
    | none => exact ⟨none, s.arena, bs, by rw [hrun, hsize], hnothing⟩
    | some required =>
      simp only [hsize] at hrun
      rcases resize_cases h hb hn hsize with ⟨-, q, rest, a', bs', -, hrun', hres⟩ |
        ⟨-, q, rest, a', bs', hrun', hres⟩ | ⟨-, -, hrun'⟩
      · exact ⟨some q.data, a', bs', hrun.trans hrun', hmoved q rest a' bs' hres⟩
      · exact ⟨some q.data, a', bs', hrun.trans hrun', hmoved q rest a' bs' hres⟩
      · exact ⟨none, s.arena, bs, hrun.trans hrun', hnothing⟩

/-- Measuring an allocation changes nothing. -/
theorem effect_size (h : Sound s.arena bs) (hheld : s.held.Perm ((live bs).map Block.data))
    (hp : p ∈ s.held) :
    ∃ bytes, (capacity p).run s.arena = .ok bytes s.arena ∧
      Effect s bs (.size p) (some bytes) s bs := by
  obtain ⟨b, hb, rfl⟩ := live_of_held hheld hp
  exact ⟨b.capacity, run_capacity h hb,
    (Exchange.refl h).effect (by simp) hheld fun _ _ _ _ hasks => nomatch hasks⟩

/-- A byte that a client owns is a data byte of a live block. -/
theorem exists_holds_of_owns (h : Sound s.arena bs)
    (hheld : s.held.Perm ((live bs).map Block.data)) {x : Nat} (hx : s.Owns x) :
    ∃ b ∈ live bs, b.Holds x := by
  obtain ⟨p, hp, bytes, hrun, hlo, hhi⟩ := hx
  obtain ⟨b, hb, rfl⟩ := live_of_held hheld hp
  rw [run_capacity h hb] at hrun
  injection hrun with hbytes
  have hheld := Block.holds_data_add (b := b) (i := x - b.data) (by omega)
  rw [Nat.add_sub_of_le hlo] at hheld
  exact ⟨b, hb, hheld⟩

/-- A client that holds the pointer of a block owns its data bytes. -/
theorem owns_of_holds (h : Sound s.arena bs) (hheld : s.held.Perm ((live bs).map Block.data))
    {b : Block} (hb : b ∈ live bs) {x : Nat} (hx : b.Holds x) : s.Owns x := by
  obtain ⟨hlo, hhi⟩ := hx
  refine ⟨b.data, hheld.mem_iff.mpr (List.mem_map_of_mem hb), _, run_capacity h hb, hlo, ?_⟩
  show x < b.address + Header.bytes + (b.size - Header.bytes)
  omega

/-- A client's own write changes the byte it is for. -/
theorem effect_write (h : Sound s.arena bs) (hheld : s.held.Perm ((live bs).map Block.data))
    {x : Nat} (hx : s.Owns x) (byte : UInt8) :
    Effect s bs (.write x byte) none
      ⟨{ s.arena with memory := s.arena.memory.write x byte }, s.held⟩ bs := by
  obtain ⟨b, hb, hholds⟩ := exists_holds_of_owns h hheld hx
  have hheader := h.laid.not_headerByte (mem_live.mp hb).1 hholds
  refine ⟨h.of_memory ?_, rfl, rfl, hheld, fun _ hc _ => hc, ?_,
    fun _ _ _ hanswer _ => nomatch hanswer⟩
  · intro y hy
    exact read_write_of_ne s.arena.memory byte fun heq => hheader (heq ▸ hy)
  · intro _ _ _ y _ hy
    exact read_write_of_ne s.arena.memory byte fun heq => hy heq

/-- Every allowed request is answered, with its effect. -/
theorem effect_of_allowed (h : Sound s.arena bs)
    (hheld : s.held.Perm ((live bs).map Block.data)) {r : Request} (hr : r.Allowed s) :
    ∃ answer a' bs', r.perform.run s.arena = .ok (.ok answer) a' ∧
      Effect s bs r answer ⟨a', r.handOver s.held answer⟩ bs' := by
  cases r with
  | alloc n =>
    obtain ⟨answer, a', bs', hrun, heffect⟩ := effect_alloc h hheld n
    exact ⟨answer, a', bs', run_map_ok hrun _, heffect⟩
  | allocAligned n align =>
    obtain ⟨answer, a', bs', hrun, heffect⟩ := effect_allocAligned h hheld n hr
    exact ⟨answer, a', bs', run_map_ok hrun _, heffect⟩
  | free p =>
    obtain ⟨a', bs', hrun, heffect⟩ := effect_free h hheld hr
    exact ⟨none, a', bs', run_map_ok hrun _, heffect⟩
  | realloc p n =>
    cases p with
    | none => exact effect_realloc_none h hheld n
    | some p => exact effect_realloc h hheld hr n
  | size p =>
    obtain ⟨bytes, hrun, heffect⟩ := effect_size h hheld hr
    exact ⟨some bytes, s.arena, bs, run_map_ok hrun _, heffect⟩
  | write x byte =>
    exact ⟨none, _, bs, run_map_ok (run_change _ _) _, effect_write h hheld hr byte⟩

end Effects

/-! ## Along a session -/

section Sessions

variable {region : Region} {s s' : Session} {bs : List Block} {r : Request}
  {answer : Option Nat} {rs : List Request}

/-- Every allowed request goes through. -/
theorem Keeps.exists_step (h : Keeps region s bs) (hr : r.Allowed s) :
    ∃ answer s', Step s r answer s' := by
  obtain ⟨answer, a', -, hrun, -⟩ := effect_of_allowed h.sound h.held hr
  exact ⟨answer, ⟨a', r.handOver s.held answer⟩, hr, hrun, rfl⟩

/-- What a step does is the effect of its request. -/
theorem Keeps.effect (h : Keeps region s bs) (hstep : Step s r answer s') :
    ∃ bs', Effect s bs r answer s' bs' := by
  obtain ⟨answer', a', bs', hrun, heffect⟩ := effect_of_allowed h.sound h.held hstep.allowed
  -- the program has one outcome, so the step is the one found there
  have hsame := hstep.ran
  rw [hrun] at hsame
  injection hsame with hanswer harena
  injection hanswer with hanswer
  obtain ⟨arena, held⟩ := s'
  obtain rfl : answer' = answer := hanswer
  obtain rfl : a' = arena := harena
  obtain rfl : held = r.handOver s.held answer' := hstep.held
  exact ⟨bs', heffect⟩

theorem Effect.keeps {bs' : List Block} (heffect : Effect s bs r answer s' bs')
    (h : Keeps region s bs) : Keeps region s' bs' :=
  ⟨heffect.sound, heffect.start.trans h.start, heffect.limit.trans h.limit, heffect.held⟩

/-- The list after a step is the one that the heap was reorganised into. -/
theorem Keeps.becomes {touched bs' : List Block} (h : Keeps region s bs)
    (hstep : Step s r answer s') (hbecomes : Becomes s.arena touched s'.arena bs') :
    Keeps region s' bs' := by
  obtain ⟨bs'', heffect⟩ := h.effect hstep
  have hkeeps := heffect.keeps h
  obtain rfl : bs'' = bs' := hkeeps.sound.blocks_eq.symm.trans hbecomes.sound.blocks_eq
  exact hkeeps

/-- A write does nothing but that. -/
theorem Step.arena_write {x : Nat} {byte : UInt8} (h : Step s (.write x byte) answer s') :
    s'.arena = { s.arena with memory := s.arena.memory.write x byte } := by
  obtain ⟨_, hran, -⟩ := run_map_eq_ok h.ran
  rw [run_change] at hran
  injection hran with _ harena
  exact harena.symm

theorem Run.keeps (hrun : Run s rs s') (h : Keeps region s bs) :
    ∃ bs', Keeps region s' bs' := by
  induction hrun generalizing bs with
  | done s => exact ⟨bs, h⟩
  | step hstep _ ih =>
    obtain ⟨bs', heffect⟩ := h.effect hstep
    exact ih (heffect.keeps h)

/-- The invariant holds wherever a session gets. -/
theorem Reachable.keeps (h : Reachable region s) : ∃ bs, Keeps region s bs := by
  obtain ⟨s₀, rs, hopens, hrun⟩ := h
  exact hrun.keeps hopens.keeps

theorem Run.concat (hrun : Run s rs s') {s'' : Session} (hstep : Step s' r answer s'') :
    Run s (rs ++ [r]) s'' := by
  induction hrun with
  | done s => exact .step hstep (.done s'')
  | step hfirst _ ih => exact .step hfirst (ih hstep)

theorem Reachable.step (h : Reachable region s) (hstep : Step s r answer s') :
    Reachable region s' := by
  obtain ⟨s₀, rs, hopens, hrun⟩ := h
  exact ⟨s₀, rs ++ [r], hopens, hrun.concat hstep⟩

/-- A heap that was just set up serves a request that fits its region, from the start
of the region on. -/
theorem exists_first_alloc (region : Region) (m : Memory) {n required : Nat}
    (hroom : Header.bytes + grain ≤ region.room) (hn : n ≠ 0)
    (hsize : blockSize? n = some required) (hfit : required ≤ region.room) :
    ∃ a, Reachable region ⟨a, [region.whole.data]⟩ ∧
      Keeps region ⟨a, [region.whole.data]⟩ (served [] region.whole required []) ∧
      KeepsOff (served [] region.whole required []) (region.fresh m).memory a.memory := by
  obtain ⟨a, hrun, hbecomes⟩ := run_alloc_some (l := []) (r := [])
    (region.sound_fresh hroom m) hn hsize ⟨rfl, hfit⟩ (fun _ hc => nomatch hc)
  have hopens : Opens region ⟨region.fresh m, []⟩ := opens_iff.mpr ⟨hroom, rfl, m, rfl⟩
  have hstep : Step ⟨region.fresh m, []⟩ (.alloc n) (some region.whole.data)
      ⟨a, [region.whole.data]⟩ := ⟨trivial, run_map_ok hrun _, rfl⟩
  refine ⟨a, ⟨_, _, hopens, .step hstep (.done _)⟩, ⟨hbecomes.sound, hbecomes.start,
    hbecomes.limit, ?_⟩, hbecomes.kept⟩
  rw [live_served]
  show [region.whole.data].Perm [(taken region.whole required).data]
  rw [taken_data]

end Sessions

end Heap

end Supervisor

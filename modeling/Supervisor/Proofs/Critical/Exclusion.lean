import Supervisor.Proofs.Critical.Interleaving

/-!
# No code finds a lock taken

Code that interrupts other code never waits for it: locks are held in sections only, and no
section is ever interrupted.

- `inside`, `holding`: the sections that the code is in and the locks that it holds, read
  off what it still has to do.
- `Active`: the invariant of the code that runs, `Paused` that of interrupted code.
  `Active.next` is the step, with one lemma for each kind of instruction.
- `Active.pause`, `Paused.resume`: interrupted and resumed, the one turns into the other.
- `Config.Sound.afterwards`: the invariant after any schedule. `Config.Sound.follow_induction` is
  the induction behind it, from the end of a schedule to its beginning.
-/

namespace Supervisor.Critical

variable {α : Type}

/-! ## Open sections -/

/-- Whether an item ends a section. -/
def Item.isRestore : Item α → Bool
  | restore _ => true
  | _ => false

/-- The lock that an item releases. -/
def Item.lock? : Item α → Option Nat
  | drop i => some i
  | _ => none

/-- Whether an item is in the middle of a step. -/
def Item.isPartial : Item α → Bool
  | enter _ _ _ | take _ _ _ | load _ _ | store _ _ _ => true
  | _ => false

/-- Whether the code is inside a section that it will leave. -/
def inside (code : List (Item α)) : Bool :=
  code.any Item.isRestore

/-- The locks that the code will release. -/
def holding (code : List (Item α)) : List Nat :=
  code.filterMap Item.lock?

section Open

variable {k : List (Item α)}

theorem inside_append (items : List (Item α)) : inside (items ++ k) = (inside items || inside k) :=
  List.any_append

theorem inside_program (p : List Action) : inside (p.map .act ++ k) = inside k := by
  rw [inside_append, inside, List.any_map]
  simp [Function.comp_def, Item.isRestore]

theorem holding_program (p : List Action) : holding (p.map .act ++ k) = holding k := by
  rw [holding, List.filterMap_append, List.filterMap_map]
  simp [Function.comp_def, Item.lock?, holding]

end Open

/-- Whether an item may stand before the rest of the code. -/
def Item.Fits : Item α → List (Item α) → Prop
  | act a, k => a.disciplined (inside k) (holding k) = true
  | enter _ none body, k => disciplined body true (holding k) = true
  | enter _ (some (i, _)) body, k => i ∉ holding k ∧ disciplined body true (i :: holding k) = true
  | take i _ body, k =>
    inside k = true ∧ i ∉ holding k ∧ disciplined body true (i :: holding k) = true
  | load i _, k | store i _ _, k => i ∈ holding k
  | drop i, k => inside k = true ∧ i ∉ holding k
  | restore wereOn, k => wereOn = true → inside k = false

/-- Code that fits together, in which no step has been begun. -/
def Settled : List (Item α) → Prop
  | [] => True
  | item :: k => item.Fits k ∧ item.isPartial = false ∧ Settled k

/-- Code that fits together, in which at most the first step has been begun. -/
def Well : List (Item α) → Prop
  | [] => True
  | item :: k => item.Fits k ∧ Settled k

/-- What holds of the code that runs.
1. It fits together.
2. While interrupts are on, it is in no section.
3. The flag is still as it was when it was looked at.
4. The locks that are held are those that it will release.
5. A value that it has read has not changed since. -/
structure Active (s : Shared α) (code : List (Item α)) : Prop where
  well : Well code
  shut : s.interrupts = true → inside code = false
  looked : ∀ wereOn guard body k, code = .enter wereOn guard body :: k → wereOn = s.interrupts
  held : ∀ i, (s.locks i).held = true ↔ i ∈ holding code
  found : ∀ i u v k, code = .store i u v :: k → v = (s.locks i).value

/-- What holds of code that was interrupted: it fits together, is in no section, and saw
interrupts on if it has just looked at the flag. -/
structure Paused (code : List (Item α)) : Prop where
  well : Well code
  outside : inside code = false
  looked : ∀ wereOn guard body k, code = .enter wereOn guard body :: k → wereOn = true

section Code

variable {k : List (Item α)}

theorem Settled.well (h : Settled k) : Well k := by
  cases k with
  | nil => trivial
  | cons item k => exact ⟨h.1, h.2.2⟩

theorem settled_program {p : List Action} (hp : disciplined p (inside k) (holding k) = true)
    (hk : Settled k) : Settled (p.map .act ++ k) := by
  induction p with
  | nil => exact hk
  | cons a p ih =>
    obtain ⟨ha, hp⟩ := disciplined_cons.mp hp
    refine ⟨?_, rfl, ih hp⟩
    show a.disciplined (inside (p.map .act ++ k)) (holding (p.map .act ++ k)) = true
    rwa [inside_program, holding_program]

/-- Locks are held in sections only. -/
theorem Well.holding_eq_nil (h : Well k) (hout : inside k = false) : holding k = [] := by
  induction k with
  | nil => rfl
  | cons item k ih =>
    obtain ⟨hfits, hk⟩ := h
    rw [inside, List.any_cons, Bool.or_eq_false_iff] at hout
    obtain ⟨-, hout⟩ := hout
    cases item with
    | drop i => exact absurd hfits.1 (Bool.eq_false_iff.mp hout)
    | act | enter | take | load | store | restore => exact ih hk.well hout

theorem Active.of_settled {s : Shared α} (hk : Settled k)
    (hshut : s.interrupts = true → inside k = false)
    (hheld : ∀ i, (s.locks i).held = true ↔ i ∈ holding k) : Active s k where
  well := hk.well
  shut := hshut
  looked := by
    rintro wereOn guard body k' rfl
    exact Bool.noConfusion hk.2.1
  held := hheld
  found := by
    rintro i u v k' rfl
    exact Bool.noConfusion hk.2.1

end Code

/-! ## What an instruction preserves -/

section Instruction

variable {apply : UInt64 → α → α} {item : Item α} {k : List (Item α)} {s : Shared α}

theorem Shared.locks_setLock (s : Shared α) (i j : Nat) (l : Guarded α) :
    (s.setLock i l).locks j = if j = i then l else s.locks j := by
  exact Function.update_apply _ _ _ _

/-- In front of an item of a section, interrupts are off. -/
theorem Active.interrupts_eq_false (h : Active s k) (hin : inside k = true) :
    s.interrupts = false := by
  cases hflag : s.interrupts with
  | false => rfl
  | true => exact absurd hin (Bool.eq_false_iff.mp (h.shut hflag))

/-- The code that runs never finds a lock taken. -/
theorem Active.free {i : Nat} {u : UInt64} {body : List Action}
    (h : Active s (.take i u body :: k)) : (s.locks i).held = false := by
  obtain ⟨⟨-, hnot, -⟩, -⟩ := h.well
  rw [Bool.eq_false_iff, Ne, h.held]
  exact hnot

/-- The code that runs never waits. -/
theorem Active.exists_advance (apply : UInt64 → α → α) (h : Active s (item :: k)) :
    ∃ items s' events, advance apply item s = some (items, s', events) := by
  cases item with
  | act a => cases a <;> exact ⟨_, _, _, rfl⟩
  | enter wereOn guard body =>
    cases guard with
    | none => exact ⟨_, _, _, rfl⟩
    | some guard => exact ⟨_, _, _, rfl⟩
  | take i u body =>
    rw [advance, h.free]
    exact ⟨_, _, _, rfl⟩
  | load | store | drop | restore => exact ⟨_, _, _, rfl⟩

theorem Active.act {a : Action} {items : List (Item α)} {s' : Shared α} {events : List Event}
    (h : Active s (.act a :: k)) (hadvance : advance apply (.act a) s = some (items, s', events)) :
    Active s' (items ++ k) := by
  obtain ⟨hfits, hk⟩ := h.well
  have hheld : ∀ i, (s.locks i).held = true ↔ i ∈ holding k := h.held
  have hshut : s.interrupts = true → inside k = false := h.shut
  change a.disciplined (inside k) (holding k) = true at hfits
  cases a with
  | enable | sleep =>
    cases hadvance
    rw [Action.disciplined, Bool.not_eq_true'] at hfits
    exact .of_settled hk (fun _ => hfits) hheld
  | disable =>
    cases hadvance
    exact .of_settled hk (fun hon => Bool.noConfusion hon) hheld
  | halt | readFlag | readFlags =>
    cases hadvance
    exact .of_settled hk hshut hheld
  | force => exact Bool.noConfusion hfits
  | uninterrupted body =>
    cases hadvance
    refine ⟨⟨hfits, hk⟩, hshut, ?_, hheld, ?_⟩
    · rintro _ _ _ _ ⟨⟩
      rfl
    · rintro _ _ _ _ ⟨⟩
  | locked i u body =>
    cases hadvance
    refine ⟨⟨disciplined_locked.mp hfits, hk⟩, hshut, ?_, hheld, ?_⟩
    · rintro _ _ _ _ ⟨⟩
      rfl
    · rintro _ _ _ _ ⟨⟩

theorem Active.enter {wereOn : Bool} {guard : Option (Nat × UInt64)} {body : List Action}
    {items : List (Item α)} {s' : Shared α} {events : List Event}
    (h : Active s (.enter wereOn guard body :: k))
    (hadvance : advance apply (.enter wereOn guard body) s = some (items, s', events)) :
    Active s' (items ++ k) := by
  obtain ⟨hfits, hk⟩ := h.well
  have hheld : ∀ i, (s.locks i).held = true ↔ i ∈ holding k := h.held
  -- interrupts that came in since the flag was looked at have left it as it was
  have hlooked : wereOn = s.interrupts := h.looked _ _ _ _ rfl
  have hoff : (s.interrupts && !wereOn) = false := by rw [hlooked, Bool.and_not_self]
  have hrestore : Settled (.restore wereOn :: k) :=
    ⟨fun hon => h.shut (hlooked ▸ hon), rfl, hk⟩
  cases guard with
  | none =>
    cases hadvance
    rw [List.append_assoc, hoff]
    refine .of_settled (settled_program hfits hrestore) (fun hon => Bool.noConfusion hon) ?_
    rw [holding_program]
    exact hheld
  | some guard =>
    obtain ⟨i, u⟩ := guard
    cases hadvance
    rw [hoff]
    refine ⟨⟨⟨rfl, hfits⟩, hrestore⟩, fun hon => Bool.noConfusion hon, ?_, hheld, ?_⟩
    · rintro _ _ _ _ ⟨⟩
    · rintro _ _ _ _ ⟨⟩

theorem Active.take {i : Nat} {u : UInt64} {body : List Action} {items : List (Item α)}
    {s' : Shared α} {events : List Event} (h : Active s (.take i u body :: k))
    (hadvance : advance apply (.take i u body) s = some (items, s', events)) :
    Active s' (items ++ k) := by
  obtain ⟨⟨hin, hnot, hbody⟩, hk⟩ := h.well
  have hoff : s.interrupts = false := h.interrupts_eq_false hin
  have hdrop : Settled (.drop i :: k) := ⟨⟨hin, hnot⟩, rfl, hk⟩
  rw [advance, h.free] at hadvance
  cases hadvance
  have hheld : ∀ j, ((s.setLock i { s.locks i with held := true }).locks j).held = true ↔
      j ∈ i :: holding k := by
    intro j
    rw [Shared.locks_setLock, List.mem_cons]
    by_cases hj : j = i
    · simp [hj]
    · simp only [hj, false_or]
      exact h.held j
  have hprogram : Settled (body.map .act ++ .drop i :: k) :=
    settled_program (by exact hin ▸ hbody) hdrop
  have hholding : holding (body.map .act ++ .drop i :: k) = i :: holding k :=
    holding_program body
  rw [List.cons_append, List.cons_append, List.append_assoc]
  refine ⟨⟨?_, hprogram⟩, ?_, ?_, ?_, ?_⟩
  · show i ∈ holding (body.map .act ++ .drop i :: k)
    rw [hholding]
    exact List.mem_cons_self
  · intro hon
    exact absurd hon (Bool.eq_false_iff.mp hoff)
  · rintro _ _ _ _ ⟨⟩
  · intro j
    show _ ↔ j ∈ holding (body.map .act ++ .drop i :: k)
    rw [hholding]
    exact hheld j
  · rintro _ _ _ _ ⟨⟩

/-- The value that has been read is still there when the new one is written: interrupts are
off in between. -/
theorem Active.load {i : Nat} {u : UInt64} (h : Active s (.load i u :: k)) :
    Active s (.store i u (s.locks i).value :: k) := by
  refine ⟨h.well, h.shut, ?_, h.held, ?_⟩
  · rintro _ _ _ _ ⟨⟩
  · rintro _ _ _ _ ⟨⟩
    rfl

theorem Active.store {i : Nat} {u : UInt64} {v w : α} (h : Active s (.store i u v :: k)) :
    Active (s.setLock i { s.locks i with value := w }) k := by
  refine .of_settled h.well.2 h.shut ?_
  intro j
  rw [Shared.locks_setLock]
  by_cases hj : j = i
  · rw [if_pos hj, hj]
    exact h.held i
  · rw [if_neg hj]
    exact h.held j

theorem Active.drop {i : Nat} (h : Active s (.drop i :: k)) :
    Active (s.setLock i (s.locks i).release) k := by
  obtain ⟨⟨-, hnot⟩, hk⟩ := h.well
  refine .of_settled hk h.shut ?_
  intro j
  have hheld : (s.locks j).held = true ↔ j ∈ i :: holding k := h.held j
  rw [Shared.locks_setLock]
  rw [List.mem_cons] at hheld
  by_cases hj : j = i
  · subst hj
    simp [Guarded.release, hnot]
  · rw [if_neg hj, hheld]
    simp [hj]

/-- A section is left with the flag that was found on entry. -/
theorem Active.restore {wereOn : Bool} (h : Active s (.restore wereOn :: k)) :
    (s.interrupts || wereOn) = wereOn ∧ Active { s with interrupts := wereOn } k := by
  obtain ⟨hfits, hk⟩ := h.well
  have hoff : s.interrupts = false := h.interrupts_eq_false rfl
  constructor
  · rw [hoff, Bool.false_or]
  · exact .of_settled hk hfits h.held

/-- What holds of the code that runs holds after its next instruction. -/
theorem Active.next {items : List (Item α)} {s' : Shared α} {events : List Event}
    (h : Active s (item :: k)) (hadvance : advance apply item s = some (items, s', events)) :
    Active s' (items ++ k) := by
  cases item with
  | act a => exact h.act hadvance
  | enter wereOn guard body => exact h.enter hadvance
  | take i u body => exact h.take hadvance
  | load i u =>
    cases hadvance
    exact h.load
  | store i u v =>
    cases hadvance
    exact h.store
  | drop i =>
    cases hadvance
    exact h.drop
  | restore wereOn =>
    obtain ⟨hflag, hactive⟩ := h.restore
    cases hadvance
    rw [hflag]
    exact hactive

end Instruction

/-! ## What a schedule preserves -/

/-- What holds of the processor: of the code that runs, and of the code it interrupted, all of
which goes on with interrupts on. -/
structure Config.Sound (c : Config α) : Prop where
  active : Active c.shared c.code
  paused : ∀ t ∈ c.suspended, t.1 = true ∧ Paused t.2

section Schedule

variable {apply : UInt64 → α → α} {c c' : Config α} {events : List Event} {choice : Choice}

theorem Active.pause {s : Shared α} {code : List (Item α)} (h : Active s code)
    (hon : s.interrupts = true) : Paused code where
  well := h.well
  outside := h.shut hon
  looked := by
    intro wereOn guard body k hcode
    rw [h.looked wereOn guard body k hcode, hon]

/-- Interrupted code goes on when the locks are free again. -/
theorem Paused.resume {s : Shared α} {code : List (Item α)} (h : Paused code)
    (hfree : ∀ i, (s.locks i).held = false) : Active { s with interrupts := true } code where
  well := h.well
  shut _ := h.outside
  looked := h.looked
  held := by
    intro i
    rw [h.well.holding_eq_nil h.outside, hfree i]
    simp
  found := by
    -- code that has read a value holds the lock, and would be in a section
    rintro i u v k rfl
    have hmem : i ∈ holding k := h.well.1
    have hnil : holding k = [] := h.well.holding_eq_nil h.outside
    rw [hnil] at hmem
    cases hmem

theorem Active.program {s : Shared α} {p : List Action} (hp : disciplined p false [] = true)
    (hfree : ∀ i, (s.locks i).held = false) : Active s (p.map .act) := by
  have hsettled : Settled (p.map .act ++ [] : List (Item α)) := settled_program hp trivial
  have hinside : inside (p.map .act ++ [] : List (Item α)) = false := inside_program p
  have hholding : holding (p.map .act ++ [] : List (Item α)) = [] := holding_program p
  rw [List.append_nil] at hsettled hinside hholding
  refine .of_settled hsettled (fun _ => hinside) ?_
  intro i
  rw [hholding, hfree i]
  simp

/-- No lock is held while interrupts are on. -/
theorem Active.all_free {s : Shared α} {code : List (Item α)} (h : Active s code)
    (hon : s.interrupts = true) (i : Nat) : (s.locks i).held = false := by
  rw [Bool.eq_false_iff, Ne, h.held, h.well.holding_eq_nil (h.shut hon)]
  exact List.not_mem_nil

theorem sound_start {s : Shared α} {p : List Action} (hp : disciplined p false [] = true)
    (hfree : ∀ i, (s.locks i).held = false) : (start s p).Sound :=
  ⟨.program hp hfree, fun _ h => nomatch h⟩

/-- A sound processor stays sound, if an interrupt starts a program that is as it should be. -/
theorem Config.Sound.next (h : c.Sound) (hchoice : choice.disciplined = true)
    (hstep : step apply choice c = some (c', events)) : c'.Sound := by
  obtain ⟨s, code, suspended⟩ := c
  obtain ⟨hactive, hpaused⟩ := h
  cases choice with
  | proceed =>
    cases code with
    | cons item k =>
      obtain ⟨⟨items, s', _⟩, hadvance, hc'⟩ := Option.map_eq_some_iff.mp hstep
      cases hc'
      exact ⟨hactive.next hadvance, hpaused⟩
    | nil =>
      cases suspended with
      | nil => cases hstep
      | cons t suspended =>
        obtain ⟨flag, code⟩ := t
        obtain ⟨⟨hflag, hcode⟩, hrest⟩ := List.forall_mem_cons.mp hpaused
        change flag = true at hflag
        subst hflag
        have hfree : ∀ i, (s.locks i).held = false := by
          intro i
          rw [Bool.eq_false_iff, Ne, hactive.held]
          exact List.not_mem_nil
        cases hstep
        exact ⟨hcode.resume hfree, hrest⟩
  | interrupt p =>
    by_cases hon : s.interrupts = true
    · rw [step, if_pos hon] at hstep
      cases hstep
      refine ⟨.program hchoice (hactive.all_free hon), ?_⟩
      exact List.forall_mem_cons.mpr ⟨⟨hon, hactive.pause hon⟩, hpaused⟩
    · rw [step, if_neg hon] at hstep
      cases hstep

/-- What holds at the end of a schedule, and before a step of a sound processor if it holds after
it, holds at the beginning. -/
theorem Config.Sound.follow_induction {schedule : List Choice}
    {motive : Config α → List Event → Prop} (h : c.Sound)
    (hschedule : ∀ choice ∈ schedule, choice.disciplined = true)
    (hfollow : follow apply schedule c = some (c', events)) (hend : c'.Sound → motive c' [])
    (hstep : ∀ c choice c₁ now later, c.Sound → step apply choice c = some (c₁, now) →
      motive c₁ later → motive c (now ++ later)) : motive c events := by
  induction schedule generalizing c events with
  | nil =>
    cases hfollow
    exact hend h
  | cons choice schedule ih =>
    obtain ⟨hchoice, hschedule⟩ := List.forall_mem_cons.mp hschedule
    obtain ⟨c₁, now, later, hfirst, hlater, rfl⟩ := follow_cons.mp hfollow
    exact hstep c choice c₁ now later h hfirst (ih (h.next hchoice hfirst) hschedule hlater)

theorem Config.Sound.afterwards {schedule : List Choice} (h : c.Sound)
    (hschedule : ∀ choice ∈ schedule, choice.disciplined = true)
    (hfollow : follow apply schedule c = some (c', events)) : c'.Sound :=
  h.follow_induction (motive := fun _ _ => c'.Sound) hschedule hfollow id
    fun _ _ _ _ _ _ _ hsound => hsound

/-- There is always a next instruction, until nothing is left to do. -/
theorem Config.Sound.exists_step (apply : UInt64 → α → α) (h : c.Sound) :
    c.Finished ∨ ∃ c' events, step apply .proceed c = some (c', events) := by
  obtain ⟨s, code, suspended⟩ := c
  cases code with
  | cons item k =>
    obtain ⟨items, s', events, hadvance⟩ := h.active.exists_advance apply
    exact .inr ⟨_, _, Option.map_eq_some_iff.mpr ⟨_, hadvance, rfl⟩⟩
  | nil =>
    cases suspended with
    | nil => exact .inl ⟨rfl, rfl⟩
    | cons t suspended => exact .inr ⟨_, _, rfl⟩

end Schedule

end Supervisor.Critical

import Supervisor.Proofs.Critical.Exclusion

/-!
# What can be seen of a program

A program that runs to its end leaves a list of events. `Seen` says which lists these are: the
events of the program in the order of its steps, each section entered and left around its body,
and outside of sections the events of the programs that interrupts started.

The proof goes backwards through a schedule. What is still to be seen of a configuration is read
off its code (`Spells`) and the code it interrupted (`Spelled`), and `Active.spells` puts the
events of one instruction in front, with one case for each kind of instruction.
`Config.Sound.seen` is the main statement.
-/

namespace Supervisor.Critical

variable {α : Type}

/-- The update at the beginning of a section, if it holds a lock. -/
def updating (guard : Option (Nat × UInt64)) : List Event :=
  (guard.map fun (i, u) => Event.updated i u).toList

/-- The lock and the update of a section, and its body. -/
def Action.section? : Action → Option (Option (Nat × UInt64) × List Action)
  | uninterrupted body => some (none, body)
  | locked i u body => some (some (i, u), body)
  | _ => none

/-- What can be seen of a program that runs to its end, inside a section (`shut`) or not.
1. In a section, no interrupt comes in. Elsewhere one may start a program, which is seen to its
   end before the interrupted one goes on.
2. Of a step without a section nothing is seen.
3. A section is entered with a flag, which is off in a section. If it is on, interrupts may still
   come in. Then the section makes its update, its body runs, and it is left with the same flag. -/
inductive Seen : Bool → List Action → List Event → Prop where
  | nil {shut : Bool} : Seen shut [] []
  | interrupt {program rest : List Action} {now later : List Event} :
    Seen false program now → Seen false rest later →
      Seen false rest (.delivered program :: (now ++ later))
  | plain {shut : Bool} {a : Action} {rest : List Action} {later : List Event} :
    a.section? = none → Seen shut rest later → Seen shut (a :: rest) later
  | enclosed {shut flag : Bool} {a : Action} {guard : Option (Nat × UInt64)}
      {body rest : List Action} {before within later : List Event} :
    a.section? = some (guard, body) → (shut = true → flag = false) → Seen (!flag) [] before →
      Seen true body within → Seen shut rest later →
      Seen shut (a :: rest)
        (.entered flag :: (before ++ updating guard ++ within ++ .left flag :: later))

theorem Seen.append {shut : Bool} {p q : List Action} {now later : List Event}
    (h : Seen shut p now) (h' : Seen shut q later) : Seen shut (p ++ q) (now ++ later) := by
  induction h with
  | nil => exact h'
  | interrupt hprogram _ _ ih =>
    rw [List.cons_append, List.append_assoc]
    exact .interrupt hprogram (ih h')
  | plain hnone _ ih => exact .plain hnone (ih h')
  | enclosed hsome hshut hbefore hwithin _ _ _ ih =>
    have hall := Seen.enclosed hsome hshut hbefore hwithin (ih h')
    simpa only [List.cons_append, List.append_assoc] using hall

/-! ## What is still to be seen -/

/-- What can still be seen of an item, in front of code that is in a section or not. -/
def Item.Shows : Item α → Bool → List Event → Prop
  | act a, shut, events => Seen shut [a] events
  | enter flag guard body, _, events => ∃ before within, Seen (!flag) [] before ∧
    Seen true body within ∧ events = before ++ updating guard ++ within ++ [.left flag]
  | take i u body, _, events => ∃ within, Seen true body within ∧ events = .updated i u :: within
  | load i u, _, events | store i u _, _, events => events = [.updated i u]
  | drop _, _, events => events = []
  | restore flag, _, events => events = [.left flag]

/-- What can still be seen of code. -/
def Spells : List (Item α) → List Event → Prop
  | [], events => Seen false [] events
  | item :: k, events =>
    ∃ now later, item.Shows (inside k) now ∧ Spells k later ∧ events = now ++ later

/-- What can still be seen of code and the code that it interrupted, one after the other. -/
def Spelled : List (List (Item α)) → List Event → Prop
  | [], events => events = []
  | code :: codes, events =>
    ∃ now later, Spells code now ∧ Spelled codes later ∧ events = now ++ later

section Code

variable {k : List (Item α)} {program : List Action} {now later events : List Event}

theorem Spells.split {p : List Action} (h : Spells (p.map .act ++ k) events) :
    ∃ now later, Seen (inside k) p now ∧ Spells k later ∧ events = now ++ later := by
  induction p generalizing events with
  | nil => exact ⟨[], events, .nil, h, rfl⟩
  | cons a p ih =>
    obtain ⟨first, rest, ha, hrest, rfl⟩ := h
    obtain ⟨now, later, hp, hk, rfl⟩ := ih hrest
    change Seen (inside (p.map .act ++ k)) [a] first at ha
    rw [inside_program] at ha
    exact ⟨first ++ now, later, ha.append hp, hk, (List.append_assoc ..).symm⟩

theorem Spells.seen {p : List Action} (h : Spells (p.map (Item.act (α := α))) events) :
    Seen false p events := by
  have hcode : Spells (p.map (Item.act (α := α)) ++ []) events := by rwa [List.append_nil]
  obtain ⟨now, later, hp, hrest, rfl⟩ := hcode.split
  rw [← List.append_nil p]
  exact hp.append hrest

/-- Of code that is interrupted, the program of the interrupt is seen first. -/
theorem Paused.spells (h : Paused k) (hprogram : Seen false program now) (hk : Spells k later) :
    Spells k (.delivered program :: (now ++ later)) := by
  cases k with
  | nil => exact .interrupt hprogram hk
  | cons item k =>
    obtain ⟨first, rest, hitem, hrest, rfl⟩ := hk
    rw [← List.append_assoc, ← List.cons_append]
    refine ⟨_, rest, ?_, hrest, rfl⟩
    have hout : inside (item :: k) = false := h.outside
    have hfits : item.Fits k := h.well.1
    rw [inside, List.any_cons, Bool.or_eq_false_iff] at hout
    obtain ⟨hitem', hout⟩ := hout
    change inside k = false at hout
    -- in the middle of anything but a step and the entry of a section, no interrupt comes in
    have hin : inside k ≠ true := Bool.eq_false_iff.mp hout
    have hnone : holding k = [] := h.well.2.well.holding_eq_nil hout
    cases item with
    | act a =>
      change Seen (inside k) [a] first at hitem
      show Seen (inside k) [a] _
      rw [hout] at hitem ⊢
      exact .interrupt hprogram hitem
    | enter flag guard body =>
      obtain ⟨before, within, hbefore, hwithin, rfl⟩ := hitem
      obtain rfl : flag = true := h.looked _ _ _ _ rfl
      refine ⟨.delivered program :: (now ++ before), within, .interrupt hprogram hbefore, hwithin,
        ?_⟩
      simp only [List.cons_append, List.append_assoc]
    | take => exact absurd hfits.1 hin
    | load i u | store i u v =>
      change i ∈ holding k at hfits
      rw [hnone] at hfits
      cases hfits
    | drop => exact absurd hfits.1 hin
    | restore => cases hitem'

end Code

/-! ## One instruction -/

section Instruction

variable {apply : UInt64 → α → α} {item : Item α} {items k : List (Item α)} {s s' : Shared α}
  {events later : List Event}

theorem advance_plain {a : Action} (hnone : a.section? = none)
    (h : advance apply (.act a) s = some (items, s', events)) : items = [] ∧ events = [] := by
  cases a with
  | uninterrupted | locked => cases hnone
  | enable | disable | halt | sleep | readFlag | readFlags | force =>
    cases h
    exact ⟨rfl, rfl⟩

theorem advance_enclosed {a : Action} {guard : Option (Nat × UInt64)} {body : List Action}
    (hsome : a.section? = some (guard, body))
    (h : advance apply (.act a) s = some (items, s', events)) :
    items = [.enter s.interrupts guard body] ∧ events = [.entered s.interrupts] := by
  cases a with
  | uninterrupted | locked =>
    cases hsome
    cases h
    exact ⟨rfl, rfl⟩
  | enable | disable | halt | sleep | readFlag | readFlags | force => cases hsome

/-- What an instruction shows is seen before what is seen of the code that it leaves. -/
theorem Active.spells (hactive : Active s (item :: k))
    (h : advance apply item s = some (items, s', events)) (hlater : Spells (items ++ k) later) :
    Spells (item :: k) (events ++ later) := by
  cases item with
  | act a =>
    cases hsection : a.section? with
    | none =>
      obtain ⟨rfl, rfl⟩ := advance_plain hsection h
      exact ⟨[], later, .plain hsection .nil, hlater, rfl⟩
    | some found =>
      obtain ⟨guard, body⟩ := found
      obtain ⟨rfl, rfl⟩ := advance_enclosed hsection h
      obtain ⟨now, rest, ⟨before, within, hbefore, hwithin, rfl⟩, hk, rfl⟩ := hlater
      -- in a section interrupts are off
      have hshut : inside k = true → s.interrupts = false := fun hin =>
        hactive.interrupts_eq_false hin
      exact ⟨_, rest, .enclosed hsection hshut hbefore hwithin .nil, hk, rfl⟩
  | enter flag guard body =>
    cases guard with
    | none =>
      cases h
      rw [List.append_assoc] at hlater
      obtain ⟨within, rest, hwithin, hrest, rfl⟩ := hlater.split
      obtain ⟨_, rest, rfl, hk, rfl⟩ := hrest
      refine ⟨within ++ [.left flag], rest, ⟨[], within, .nil, hwithin, rfl⟩, hk, ?_⟩
      rw [List.nil_append, List.append_assoc]
    | some guard =>
      cases h
      obtain ⟨_, rest, ⟨within, hwithin, rfl⟩, ⟨_, rest', rfl, hk, rfl⟩, rfl⟩ := hlater
      refine ⟨_, rest', ⟨[], within, .nil, hwithin, rfl⟩, hk, ?_⟩
      simp only [updating, Option.map_some, Option.toList_some, List.nil_append,
        List.cons_append, List.append_assoc]
  | take i u body =>
    have hin : inside k = true := hactive.well.1.1
    rw [advance, hactive.free] at h
    cases h
    rw [List.cons_append, List.cons_append, List.append_assoc] at hlater
    obtain ⟨_, rest, rfl, hrest, rfl⟩ := hlater
    obtain ⟨within, _, hwithin, ⟨_, rest, rfl, hk, rfl⟩, rfl⟩ := hrest.split
    exact ⟨.updated i u :: within, _, ⟨within, by rwa [← hin], rfl⟩, hk, rfl⟩
  | load i u =>
    cases h
    exact hlater
  | store i u v =>
    cases h
    exact ⟨[.updated i u], later, rfl, hlater, rfl⟩
  | drop i =>
    cases h
    exact ⟨[], later, rfl, hlater, rfl⟩
  | restore flag =>
    obtain ⟨hflag, -⟩ := hactive.restore
    cases h
    rw [hflag]
    exact ⟨[.left flag], later, rfl, hlater, rfl⟩

end Instruction

/-! ## Whole schedules -/

section Schedule

variable {apply : UInt64 → α → α} {c c' : Config α} {choice : Choice} {schedule : List Choice}
  {events later : List Event}

/-- The code that runs and the code that was interrupted. -/
def Config.codes (c : Config α) : List (List (Item α)) :=
  c.code :: c.suspended.map Prod.snd

theorem Config.Sound.spelled (h : c.Sound) (hstep : step apply choice c = some (c', events))
    (hlater : Spelled c'.codes later) : Spelled c.codes (events ++ later) := by
  obtain ⟨s, code, suspended⟩ := c
  cases choice with
  | proceed =>
    cases code with
    | cons item k =>
      obtain ⟨⟨items, s', _⟩, hadvance, hc'⟩ := Option.map_eq_some_iff.mp hstep
      cases hc'
      obtain ⟨now, rest, hnow, hrest, rfl⟩ := hlater
      exact ⟨events ++ now, rest, h.active.spells hadvance hnow, hrest,
        (List.append_assoc ..).symm⟩
    | nil =>
      cases suspended with
      | nil => cases hstep
      | cons t suspended =>
        cases hstep
        exact ⟨[], later, .nil, hlater, rfl⟩
  | interrupt program =>
    by_cases hon : s.interrupts = true
    · rw [step, if_pos hon] at hstep
      cases hstep
      obtain ⟨during, _, hduring, ⟨first, rest, hfirst, hrest, rfl⟩, rfl⟩ := hlater
      have hpaused : Paused code := h.active.pause hon
      refine ⟨_, rest, hpaused.spells (Spells.seen hduring) hfirst, hrest, ?_⟩
      simp only [List.cons_append, List.nil_append, List.append_assoc]
    · rw [step, if_neg hon] at hstep
      cases hstep

theorem Config.Sound.spelled_afterwards (h : c.Sound)
    (hschedule : ∀ choice ∈ schedule, choice.disciplined = true)
    (hfollow : follow apply schedule c = some (c', events)) (hlater : Spelled c'.codes later) :
    Spelled c.codes (events ++ later) := by
  refine h.follow_induction (motive := fun c events => Spelled c.codes (events ++ later))
    hschedule hfollow (fun _ => hlater) ?_
  intro c choice c₁ now rest hsound hstep hrest
  rw [List.append_assoc]
  exact hsound.spelled hstep hrest

/-- When a program and the programs that interrupts started have come to their ends, everything
that can be seen of them has been seen. -/
theorem Config.Sound.seen {s : Shared α} {program : List Action} (h : (start s program).Sound)
    (hschedule : ∀ choice ∈ schedule, choice.disciplined = true)
    (hfollow : follow apply schedule (start s program) = some (c, events)) (hend : c.Finished) :
    Seen false program events := by
  have hnothing : Spelled c.codes [] := by
    rw [Config.codes, hend.1, hend.2]
    exact ⟨[], [], .nil, rfl, rfl⟩
  obtain ⟨now, _, hnow, rfl, hevents⟩ := h.spelled_afterwards hschedule hfollow hnothing
  rw [List.append_nil, List.append_nil] at hevents
  rw [hevents]
  exact Spells.seen hnow

end Schedule

end Supervisor.Critical

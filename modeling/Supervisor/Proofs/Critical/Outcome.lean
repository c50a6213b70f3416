import Mathlib
import Supervisor.Proofs.Critical.Sections
import Supervisor.Proofs.Critical.Sequential

/-!
# What comes of critical sections

A program with critical sections, and the interrupts that come in while it runs, however they
come in: `schedule_safe`.

- `Config.pending`, `Config.flags`, `Config.size`: the updates, the ends of sections and the
  instructions that are still to come. What an instruction does to them is in the lemmas
  `advance_pending`, `Active.advance_flags` and `advance_size`.
- `Accounted`: what a step, and then a schedule, does to the accounts.
- `Config.Sound.finishes`: no code waits, so all code comes to its end.
- `Safe`: all of it in one statement, and with it what has been seen of the program.
-/

namespace Supervisor.Critical

variable {α : Type}

/-! ## Accounts -/

/-- The updates that an item still has to make. -/
def Item.pending : Item α → List (Nat × UInt64)
  | act a => a.updates
  | enter _ none body => updates body
  | enter _ (some (i, u)) body => (i, u) :: updates body
  | take i u body => (i, u) :: updates body
  | load i u | store i u _ => [(i, u)]
  | drop _ | restore _ => []

/-- The flag to be restored by an item. -/
def Item.flag? : Item α → Option Bool
  | enter wereOn _ _ | restore wereOn => some wereOn
  | _ => none

/-- How many instructions an item takes. -/
def Item.size : Item α → Nat
  | act a => a.size
  | enter _ none body => Critical.size body + 2
  | enter _ (some _) body => Critical.size body + 6
  | take _ _ body => Critical.size body + 4
  | load _ _ => 2
  | store _ _ _ | drop _ | restore _ => 1

/-- All that is left to do. -/
def Config.items (c : Config α) : List (Item α) :=
  c.code ++ c.suspended.flatMap Prod.snd

/-- The updates that are still to be made. -/
def Config.pending (c : Config α) : List (Nat × UInt64) :=
  c.items.flatMap Item.pending

/-- The flags to be restored, the one of the innermost section first. -/
def Config.flags (c : Config α) : List Bool :=
  c.items.filterMap Item.flag?

/-- How many instructions are left, returns from interrupts among them. -/
def Config.size (c : Config α) : Nat :=
  (c.items.map Item.size).sum + c.suspended.length

def Event.update? : Event → Option (Nat × UInt64)
  | updated i u => some (i, u)
  | _ => none

def Event.program? : Event → Option (List Action)
  | delivered p => some p
  | _ => none

/-- The updates that were made, in order. -/
def applied (events : List Event) : List (Nat × UInt64) :=
  events.filterMap Event.update?

/-- The updates of the programs that interrupts have started. -/
def requested (events : List Event) : List (Nat × UInt64) :=
  (events.filterMap Event.program?).flatMap updates

/-- What updates make of the value behind a lock. -/
def tally (apply : UInt64 → α → α) (i : Nat) (made : List (Nat × UInt64)) (v : α) : α :=
  made.foldl (fun v m => if m.1 = i then apply m.2 v else v) v

/-- Matches entries with exits: what is left open of the sections, if every section was left
with the flag with which it was entered. -/
def matching : List Bool → List Event → Option (List Bool)
  | opened, [] => some opened
  | opened, .entered flag :: events => matching (flag :: opened) events
  | flag' :: opened, .left flag :: events => if flag = flag' then matching opened events else none
  | [], .left _ :: _ => none
  | opened, .updated _ _ :: events | opened, .delivered _ :: events => matching opened events

theorem applied_append (now later : List Event) :
    applied (now ++ later) = applied now ++ applied later :=
  List.filterMap_append

theorem requested_append (now later : List Event) :
    requested (now ++ later) = requested now ++ requested later := by
  rw [requested, List.filterMap_append, List.flatMap_append]
  rfl

theorem matching_append (opened : List Bool) (now later : List Event) :
    matching opened (now ++ later) = (matching opened now).bind (matching · later) := by
  induction now generalizing opened with
  | nil => rfl
  | cons event now ih =>
    cases event with
    | entered flag => exact ih _
    | left flag =>
      cases opened with
      | nil => rfl
      | cons flag' opened =>
        rw [List.cons_append, matching, matching]
        split
        · exact ih _
        · rfl
    | updated => exact ih _
    | delivered => exact ih _

/-! ## One instruction -/

section Instruction

variable {apply : UInt64 → α → α} {item : Item α} {items k : List (Item α)} {s s' : Shared α}
  {events : List Event}

theorem flatMap_pending_program (p : List Action) :
    (p.map (Item.act (α := α))).flatMap Item.pending = updates p := by
  induction p with
  | nil => rfl
  | cons a p ih => rw [List.map_cons, List.flatMap_cons, ih]; rfl

theorem filterMap_flag_program (p : List Action) :
    (p.map (Item.act (α := α))).filterMap Item.flag? = [] := by
  rw [List.filterMap_map, List.filterMap_eq_nil_iff]
  intro a _
  rfl

theorem sum_size_program (p : List Action) :
    (p.map (Item.size ∘ Item.act (α := α))).sum = size p := by
  induction p with
  | nil => rfl
  | cons a p ih => rw [List.map_cons, List.sum_cons, ih]; rfl

theorem advance_take {i : Nat} {u : UInt64} {body : List Action}
    (h : advance apply (.take i u body) s = some (items, s', events)) :
    items = .load i u :: (body.map .act ++ [.drop i]) ∧
      s' = s.setLock i { s.locks i with held := true } ∧ events = [] := by
  rw [advance] at h
  split at h
  · cases h
  · cases h
    exact ⟨rfl, rfl, rfl⟩

/-- An instruction makes the update that it no longer has to make. -/
theorem advance_pending (h : advance apply item s = some (items, s', events)) :
    applied events ++ items.flatMap Item.pending = item.pending := by
  cases item with
  | act a => cases a <;> cases h <;> simp [applied, Event.update?, Item.pending, Action.updates]
  | enter wereOn guard body =>
    cases guard <;> cases h <;>
      simp [applied, Item.pending, flatMap_pending_program]
  | take i u body =>
    obtain ⟨rfl, -, rfl⟩ := advance_take h
    simp [applied, Item.pending, flatMap_pending_program]
  | load | store | drop | restore => cases h; rfl

theorem advance_size (h : advance apply item s = some (items, s', events)) :
    (items.map Item.size).sum + 1 = item.size := by
  cases item with
  | act a => cases a <;> cases h <;> simp [Item.size, Action.size]
  | enter wereOn guard body =>
    cases guard <;> cases h <;> simp [Item.size, sum_size_program]
  | take i u body =>
    obtain ⟨rfl, -, -⟩ := advance_take h
    simp [Item.size, sum_size_program]
    omega
  | load | store | drop | restore => cases h; rfl

theorem advance_requested (h : advance apply item s = some (items, s', events)) :
    requested events = [] := by
  cases item with
  | act a => cases a <;> cases h <;> rfl
  | enter wereOn guard body => cases guard <;> cases h <;> rfl
  | take i u body =>
    obtain ⟨-, -, rfl⟩ := advance_take h
    rfl
  | load | store | drop | restore => cases h; rfl

/-- A value only changes by the updates that are made. -/
theorem Active.advance_value (hactive : Active s (item :: k))
    (h : advance apply item s = some (items, s', events)) (i : Nat) :
    (s'.locks i).value = tally apply i (applied events) (s.locks i).value := by
  have hset : ∀ (j : Nat) (l : Guarded α), l.value = (s.locks j).value →
      ((s.setLock j l).locks i).value = (s.locks i).value := by
    intro j l hl
    rw [Shared.locks_setLock]
    split
    · next hi => rw [hl, hi]
    · rfl
  cases item with
  | act a =>
    cases a with
    | force j =>
      cases h
      exact hset j _ rfl
    | enable | disable | halt | sleep | readFlag | readFlags | uninterrupted | locked =>
      cases h
      rfl
  | enter wereOn guard body => cases guard <;> cases h <;> rfl
  | take j u body =>
    obtain ⟨-, rfl, rfl⟩ := advance_take h
    exact hset j _ rfl
  | load =>
    cases h
    rfl
  | store j u v =>
    have hv : v = (s.locks j).value := hactive.found _ _ _ _ rfl
    cases h
    show ((s.setLock j _).locks i).value = if j = i then apply u (s.locks i).value else _
    rw [Shared.locks_setLock]
    by_cases hj : j = i
    · subst hj
      simp [hv]
    · rw [if_neg hj, if_neg (Ne.symm hj)]
  | drop j =>
    cases h
    exact hset j _ rfl
  | restore =>
    cases h
    rfl

/-- A section is entered with the flag that is noted, and left with it. -/
theorem Active.advance_flags (hactive : Active s (item :: k))
    (h : advance apply item s = some (items, s', events)) (opened : List Bool) :
    matching (item.flag?.toList ++ opened) events =
      some (items.filterMap Item.flag? ++ opened) := by
  cases item with
  | act a => cases a <;> cases h <;> rfl
  | enter wereOn guard body =>
    cases guard with
    | none =>
      cases h
      rw [List.filterMap_append, filterMap_flag_program]
      rfl
    | some guard =>
      cases h
      rfl
  | take i u body =>
    obtain ⟨rfl, -, rfl⟩ := advance_take h
    rw [List.filterMap_cons, List.filterMap_append, filterMap_flag_program]
    rfl
  | restore wereOn =>
    obtain ⟨hflag, -⟩ := hactive.restore
    cases h
    rw [hflag]
    exact if_pos rfl
  | load | store | drop => cases h; rfl

end Instruction

/-! ## One step -/

section Step

variable {apply : UInt64 → α → α} {choice : Choice} {c c' : Config α} {events : List Event}

/-- What one step does to the accounts.
1. The updates that are due are made or left to do.
2. A value only changes by the updates that are made.
3. Sections are left with the flags with which they were entered. -/
structure Accounted (apply : UInt64 → α → α) (c c' : Config α) (events : List Event) : Prop where
  due : (applied events ++ c'.pending).Perm (c.pending ++ requested events)
  values : ∀ i, (c'.shared.locks i).value =
    tally apply i (applied events) (c.shared.locks i).value
  flags : matching c.flags events = some c'.flags

theorem Config.Sound.accounted (h : c.Sound) (hstep : step apply choice c = some (c', events)) :
    Accounted apply c c' events := by
  obtain ⟨s, code, suspended⟩ := c
  cases choice with
  | proceed =>
    cases code with
    | cons item k =>
      obtain ⟨⟨items, s', _⟩, hadvance, hc'⟩ := Option.map_eq_some_iff.mp hstep
      cases hc'
      refine ⟨?_, h.active.advance_value hadvance, ?_⟩
      · rw [advance_requested hadvance, List.append_nil]
        simp only [Config.pending, Config.items, List.cons_append, List.append_assoc,
          List.flatMap_append, List.flatMap_cons]
        rw [← advance_pending hadvance, List.append_assoc]
      · simp only [Config.flags, Config.items, List.cons_append, List.append_assoc,
          List.filterMap_append]
        rw [← h.active.advance_flags hadvance]
        cases hflag : item.flag? <;> simp [hflag]
    | nil =>
      cases suspended with
      | nil => cases hstep
      | cons t suspended =>
        cases hstep
        exact ⟨by simp [applied, requested, Config.pending, Config.items], fun _ => rfl, rfl⟩
  | interrupt p =>
    by_cases hon : s.interrupts = true
    · rw [step, if_pos hon] at hstep
      cases hstep
      refine ⟨?_, fun _ => rfl, ?_⟩
      · simp only [Config.pending, Config.items, List.flatMap_cons, List.flatMap_append,
          flatMap_pending_program]
        rw [show applied [.delivered p] = [] from rfl, List.nil_append,
          show requested [.delivered p] = updates p from List.append_nil _]
        exact List.perm_append_comm
      · simp only [Config.flags, Config.items, List.flatMap_cons, List.filterMap_append,
          filterMap_flag_program]
        rfl
    · rw [step, if_neg hon] at hstep
      cases hstep

/-- Going on brings the end nearer. -/
theorem size_proceed (hstep : step apply .proceed c = some (c', events)) :
    c'.size + 1 = c.size := by
  obtain ⟨s, code, suspended⟩ := c
  cases code with
  | cons item k =>
    obtain ⟨⟨items, s', _⟩, hadvance, hc'⟩ := Option.map_eq_some_iff.mp hstep
    cases hc'
    have hsize := advance_size hadvance
    simp only [Config.size, Config.items, List.cons_append, List.map_append, List.map_cons,
      List.sum_append, List.sum_cons]
    omega
  | nil =>
    cases suspended with
    | nil => cases hstep
    | cons t suspended =>
      cases hstep
      simp [Config.size, Config.items]
      omega

end Step

/-! ## Whole schedules -/

section Schedule

variable {apply : UInt64 → α → α} {c c' c'' : Config α} {now later events : List Event}

theorem Accounted.refl (c : Config α) : Accounted apply c c [] where
  due := by simp [applied, requested]
  values _ := rfl
  flags := rfl

theorem Accounted.trans (h : Accounted apply c c' now) (h' : Accounted apply c' c'' later) :
    Accounted apply c c'' (now ++ later) where
  due := by
    calc applied (now ++ later) ++ c''.pending
        = applied now ++ (applied later ++ c''.pending) := by
          rw [applied_append, List.append_assoc]
      _ |>.Perm (applied now ++ (c'.pending ++ requested later)) := h'.due.append_left _
      _ = (applied now ++ c'.pending) ++ requested later := (List.append_assoc ..).symm
      _ |>.Perm (c.pending ++ requested now ++ requested later) := h.due.append_right _
      _ = c.pending ++ requested (now ++ later) := by
          rw [requested_append, List.append_assoc]
  values i := by
    rw [h'.values i, h.values i, applied_append, tally, tally, tally, List.foldl_append]
  flags := by
    rw [matching_append, h.flags]
    exact h'.flags

theorem Config.Sound.accounted_afterwards {schedule : List Choice} (h : c.Sound)
    (hschedule : ∀ choice ∈ schedule, choice.disciplined = true)
    (hfollow : follow apply schedule c = some (c', events)) : Accounted apply c c' events :=
  h.follow_induction (motive := fun c events => Accounted apply c c' events) hschedule hfollow
    (fun _ => .refl c') fun _ _ _ _ _ hsound hstep hlater => (hsound.accounted hstep).trans hlater

/-- Without further interrupts, what is left to do gets done. -/
theorem Config.Sound.finishes (apply : UInt64 → α → α) (h : c.Sound) :
    ∃ c' events, follow apply (List.replicate c.size .proceed) c = some (c', events) ∧
      c'.Finished := by
  induction hsize : c.size generalizing c with
  | zero =>
    obtain hfinished | ⟨c', events, hstep⟩ := h.exists_step apply
    · exact ⟨c, [], rfl, hfinished⟩
    · exact absurd (size_proceed hstep) (by omega)
  | succ n ih =>
    obtain ⟨hcode, hsuspended⟩ | ⟨c₁, now, hstep⟩ := h.exists_step apply
    · simp [Config.size, Config.items, hcode, hsuspended] at hsize
    · have hn : c₁.size = n := by
        have := size_proceed hstep
        omega
      obtain ⟨c', later, hlater, hfinished⟩ := ih (h.next rfl hstep) hn
      exact ⟨c', now ++ later, follow_cons.mpr ⟨c₁, now, later, hstep, hlater, rfl⟩, hfinished⟩

end Schedule

/-! ## The outcome -/

/-- What holds of a program that was started in `s`, after the events.
1. While interrupts are on, no lock is held.
2. A lock that is about to be taken is free.
3. In a section interrupts are off, and no code was interrupted in one.
4. Every section that was left was left with the flag with which it was entered, and the flags
   with which the others were entered are still to be restored.
5. The value behind a lock is what the updates made of it, one after the other.
6. Every update of the program, and of the programs that interrupts have started, was made
   once or is still to be made.
7. Left alone, the code comes to its end.
8. At the end, what was seen is what can be seen of the program: each section was entered and
   left around its body, with its update in front of the body, and no interrupt came in inside.
9. At the end, updates that add to a value have added up. -/
structure Safe (apply : UInt64 → α → α) (s : Shared α) (program : List Action) (c : Config α)
    (events : List Event) : Prop where
  free : c.shared.interrupts = true → ∀ i, (c.shared.locks i).held = false
  untaken : ∀ i u body k, c.code = .take i u body :: k → (c.shared.locks i).held = false
  hushed : inside c.code = true → c.shared.interrupts = false
  outside : ∀ t ∈ c.suspended, inside t.2 = false
  matched : matching [] events = some c.flags
  values : ∀ i, (c.shared.locks i).value = tally apply i (applied events) (s.locks i).value
  made : (applied events ++ c.pending).Perm (updates program ++ requested events)
  finishes : ∃ n c' later, follow apply (List.replicate n .proceed) c = some (c', later) ∧
    c'.Finished
  sections : c.Finished → Seen false program events
  total : c.Finished → ∀ [AddCommMonoid α] (amount : UInt64 → α),
    (∀ u v, apply u v = v + amount u) → ∀ i, (c.shared.locks i).value = (s.locks i).value +
      (((updates program ++ requested events).filter (·.1 = i)).map (amount ·.2)).sum

theorem tally_add [AddCommMonoid α] {apply : UInt64 → α → α} {amount : UInt64 → α}
    (happly : ∀ u v, apply u v = v + amount u) (i : Nat) (made : List (Nat × UInt64)) (v : α) :
    tally apply i made v = v + ((made.filter (·.1 = i)).map (amount ·.2)).sum := by
  induction made generalizing v with
  | nil => exact (add_zero v).symm
  | cons m made ih =>
    rw [tally, List.foldl_cons, ← tally, ih]
    by_cases hm : m.1 = i
    · rw [if_pos hm, happly, List.filter_cons_of_pos (by simpa using hm), List.map_cons,
        List.sum_cons, add_assoc]
    · rw [if_neg hm, List.filter_cons_of_neg (by simpa using hm)]

section Outcome

variable {apply : UInt64 → α → α} {s : Shared α} {program : List Action}
  {schedule : List Choice} {c : Config α} {events : List Event}

theorem Config.pending_start (s : Shared α) (program : List Action) :
    (start s program).pending = updates program := by
  rw [pending, items]
  exact (congrArg _ (List.append_nil _)).trans (flatMap_pending_program program)

theorem Config.flags_start (s : Shared α) (program : List Action) :
    (start s program).flags = [] := by
  rw [flags, items]
  exact (congrArg _ (List.append_nil _)).trans (filterMap_flag_program program)

theorem Config.Finished.pending (h : c.Finished) : c.pending = [] := by
  rw [Config.pending, Config.items, h.1, h.2]
  rfl

/-- However interrupts come in, a program and the programs that interrupts start keep out of
each other's way, and their updates are all made. Without interrupts the program does what it
does when it is run. -/
theorem schedule_safe (hprogram : disciplined program false [] = true)
    (hfree : ∀ i, (s.locks i).held = false)
    (hschedule : ∀ choice ∈ schedule, choice.disciplined = true)
    (hfollow : follow apply schedule (start s program) = some (c, events)) :
    Safe apply s program c events ∧ EndsAsRun program := by
  refine ⟨?_, endsAsRun hprogram⟩
  have hstart : (start s program).Sound := sound_start hprogram hfree
  have hsound : c.Sound := hstart.afterwards hschedule hfollow
  obtain ⟨hdue, hvalues, hflags⟩ := hstart.accounted_afterwards hschedule hfollow
  rw [Config.pending_start] at hdue
  rw [Config.flags_start] at hflags
  obtain ⟨c', later, hlater, hfinished⟩ := hsound.finishes apply
  refine ⟨hsound.active.all_free, ?_, hsound.active.interrupts_eq_false, ?_, hflags, hvalues,
    hdue, ⟨_, c', later, hlater, hfinished⟩, hstart.seen hschedule hfollow, ?_⟩
  · intro i u body k hcode
    have hactive := hsound.active
    rw [hcode] at hactive
    exact hactive.free
  · intro t ht
    exact (hsound.paused t ht).2.outside
  · intro hend _ amount happly i
    rw [hend.pending, List.append_nil] at hdue
    rw [hvalues i, tally_add happly]
    congr 1
    exact ((hdue.filter _).map _).sum_eq

end Outcome

/-! ## An interrupt at the worst time -/

/-- A program with two locks. -/
def holder : List Action :=
  [.locked 0 5 [.uninterrupted [.locked 1 2 []]]]

/-- A program of an interrupt that needs both. -/
def intruder : List Action :=
  [.locked 0 7 [.locked 1 1 []]]

/-- The interrupt comes in when the flag has been looked at and interrupts are still on. -/
def contention : List Choice :=
  .proceed :: .interrupt intruder :: List.replicate 31 .proceed

/-- Interrupts are on, and all locks are free. -/
def unlocked : Shared Nat :=
  ⟨true, fun _ => ⟨0, false⟩⟩

/-- Updates that add, and do not wrap. -/
def raise (amount : UInt64) (value : Nat) : Nat :=
  value + amount.toNat

theorem contention_safe :
    ∃ c events, follow raise contention (start unlocked holder) = some (c, events) ∧
      (Safe raise unlocked holder c events ∧ EndsAsRun holder) ∧ c.Finished ∧
      c.shared.interrupts = true ∧
      (c.shared.locks 0).value = 12 ∧ (c.shared.locks 1).value = 3 := by
  have hend : (follow raise contention (start unlocked holder)).map (fun r =>
      (r.1.code.isEmpty, r.1.suspended.isEmpty, r.1.shared.interrupts,
        (r.1.shared.locks 0).value, (r.1.shared.locks 1).value)) =
      some (true, true, true, 12, 3) := by
    decide +kernel
  obtain ⟨⟨c, events⟩, hfollow, hvalues⟩ := Option.map_eq_some_iff.mp hend
  simp only [Prod.mk.injEq, List.isEmpty_iff] at hvalues
  obtain ⟨hcode, hsuspended, hflag, hzero, hone⟩ := hvalues
  have hsafe : Safe raise unlocked holder c events ∧ EndsAsRun holder :=
    schedule_safe (by decide) (fun _ => rfl) (by decide) hfollow
  exact ⟨c, events, hfollow, hsafe, ⟨hcode, hsuspended⟩, hflag, hzero, hone⟩

end Supervisor.Critical

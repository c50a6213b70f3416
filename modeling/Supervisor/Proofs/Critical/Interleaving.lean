import Mathlib.Logic.Function.Basic
import Supervisor.Critical

/-!
# Critical sections under interrupts

The programs of `Critical.Action`, one instruction at a time, with interrupts between any
two instructions. A section is taken apart the way the processor meets it: the flag is
looked at, interrupts are switched off, the lock is taken, its value is read, the new value
is written, the body runs, the lock is released, the flag is restored.

- `Item`: an instruction, or a step that is still to be taken apart. `advance` executes
  one; it only waits on a lock that is taken.
- `Config`: the processor and the code it runs, with the code that was interrupted.
- `step`, `follow`: one instruction or interrupt, and a schedule of them. An interrupt
  starts a program of its own with interrupts off; where that ends, the interrupted
  code goes on with the flag it had.
- `disciplined`: no section in a section on the same lock, and interrupts are not switched
  on in a section.

What is updated is left open: `apply amount` is how an update changes a value.
-/

namespace Supervisor.Critical

variable {α : Type}

/-- What is left to do of a program. -/
inductive Item (α : Type) where
  /-- A step. -/
  | act (a : Action)
  /-- The flag has been looked at: switch interrupts off if they were on. -/
  | enter (wereOn : Bool) (guard : Option (Nat × UInt64)) (body : List Action)
  /-- Take the lock. -/
  | take (lock : Nat) (amount : UInt64) (body : List Action)
  /-- Read the value. -/
  | load (lock : Nat) (amount : UInt64)
  /-- Write what becomes of the value that was read. -/
  | store (lock : Nat) (amount : UInt64) (found : α)
  /-- Release the lock. -/
  | drop (lock : Nat)
  /-- Switch interrupts on if they were. -/
  | restore (wereOn : Bool)

/-- What can be seen of an execution. -/
inductive Event where
  /-- A section was entered with the flag as given. -/
  | entered (flag : Bool)
  /-- A section was left with the flag as given. -/
  | left (flag : Bool)
  /-- A value was updated. -/
  | updated (lock : Nat) (amount : UInt64)
  /-- An interrupt started a program. -/
  | delivered (program : List Action)

/-- The interrupt flag and the locks. -/
structure Shared (α : Type) where
  interrupts : Bool
  locks : Nat → Guarded α

/-- Replaces a lock. -/
def Shared.setLock (s : Shared α) (i : Nat) (l : Guarded α) : Shared α :=
  { s with locks := Function.update s.locks i l }

/-- Executes an instruction. What it leaves to do comes before the rest of the code. The
only instruction that may have to wait is the one that takes a lock. -/
def advance (apply : UInt64 → α → α) :
    Item α → Shared α → Option (List (Item α) × Shared α × List Event)
  | .act .enable, s | .act .sleep, s => some ([], { s with interrupts := true }, [])
  | .act .disable, s => some ([], { s with interrupts := false }, [])
  | .act .halt, s | .act .readFlag, s | .act .readFlags, s => some ([], s, [])
  | .act (.force i), s => some ([], s.setLock i (s.locks i).release, [])
  | .act (.uninterrupted body), s =>
    some ([.enter s.interrupts none body], s, [.entered s.interrupts])
  | .act (.locked i u body), s =>
    some ([.enter s.interrupts (some (i, u)) body], s, [.entered s.interrupts])
  | .enter wereOn none body, s =>
    some (body.map .act ++ [.restore wereOn], { s with interrupts := s.interrupts && !wereOn }, [])
  | .enter wereOn (some (i, u)) body, s =>
    some ([.take i u body, .restore wereOn], { s with interrupts := s.interrupts && !wereOn }, [])
  | .take i u body, s =>
    if (s.locks i).held then none
    else some (.load i u :: body.map .act ++ [.drop i],
      s.setLock i { s.locks i with held := true }, [])
  | .load i u, s => some ([.store i u (s.locks i).value], s, [])
  | .store i u found, s =>
    some ([], s.setLock i { s.locks i with value := apply u found }, [.updated i u])
  | .drop i, s => some ([], s.setLock i (s.locks i).release, [])
  | .restore wereOn, s =>
    some ([], { s with interrupts := s.interrupts || wereOn }, [.left (s.interrupts || wereOn)])

/-- The processor at work. -/
structure Config (α : Type) where
  shared : Shared α
  /-- The code that runs. -/
  code : List (Item α)
  /-- The code that was interrupted, latest first, each with the flag it had. -/
  suspended : List (Bool × List (Item α))

/-- What may happen next. -/
inductive Choice where
  /-- The code that runs goes on. -/
  | proceed
  /-- An interrupt comes in and starts a program. -/
  | interrupt (program : List Action)

/-- What happens next. -/
def step (apply : UInt64 → α → α) : Choice → Config α → Option (Config α × List Event)
  | .proceed, ⟨s, item :: code, suspended⟩ =>
    (advance apply item s).map fun (items, s, events) => (⟨s, items ++ code, suspended⟩, events)
  | .proceed, ⟨s, [], (flag, code) :: suspended⟩ =>
    some (⟨{ s with interrupts := flag }, code, suspended⟩, [])
  | .proceed, ⟨_, [], []⟩ => none
  | .interrupt program, ⟨s, code, suspended⟩ =>
    if s.interrupts then
      some (⟨{ s with interrupts := false }, program.map .act,
        (s.interrupts, code) :: suspended⟩, [.delivered program])
    else none

/-- Follows a schedule, if what it says can happen. -/
def follow (apply : UInt64 → α → α) : List Choice → Config α → Option (Config α × List Event)
  | [], c => some (c, [])
  | choice :: schedule, c => do
    let (c, events) ← step apply choice c
    let (c, later) ← follow apply schedule c
    return (c, events ++ later)

section Follow

variable {apply : UInt64 → α → α} {choice : Choice} {schedule schedule' : List Choice}
  {c c' c'' : Config α} {events now later : List Event}

theorem follow_cons : follow apply (choice :: schedule) c = some (c'', events) ↔
    ∃ c' now later, step apply choice c = some (c', now) ∧
      follow apply schedule c' = some (c'', later) ∧ events = now ++ later := by
  rw [follow]
  constructor
  · intro h
    obtain ⟨⟨c', now⟩, hstep, hrest⟩ := Option.bind_eq_some_iff.mp h
    obtain ⟨⟨c₂, later⟩, hlater, hend⟩ := Option.bind_eq_some_iff.mp hrest
    cases hend
    exact ⟨c', now, later, hstep, hlater, rfl⟩
  · rintro ⟨c', now, later, hstep, hlater, rfl⟩
    refine Option.bind_eq_some_iff.mpr ⟨(c', now), hstep, ?_⟩
    exact Option.bind_eq_some_iff.mpr ⟨(c'', later), hlater, rfl⟩

theorem follow_append (h : follow apply schedule c = some (c', now))
    (h' : follow apply schedule' c' = some (c'', later)) :
    follow apply (schedule ++ schedule') c = some (c'', now ++ later) := by
  induction schedule generalizing c now with
  | nil =>
    cases h
    exact h'
  | cons choice schedule ih =>
    obtain ⟨c₁, first, rest, hstep, hrest, rfl⟩ := follow_cons.mp h
    rw [List.cons_append, follow_cons]
    exact ⟨c₁, first, rest ++ later, hstep, ih hrest, List.append_assoc ..⟩

end Follow

/-- The start of a program. -/
def start (s : Shared α) (program : List Action) : Config α :=
  ⟨s, program.map .act, []⟩

/-- Nothing is left to do. -/
def Config.Finished (c : Config α) : Prop :=
  c.code = [] ∧ c.suspended = []

/-! ## Programs -/

mutual

/-- Whether a step is as it should be, inside a section or not, with the locks of the
sections around it. -/
def Action.disciplined : Action → Bool → List Nat → Bool
  | .enable, inside, _ | .sleep, inside, _ => !inside
  | .disable, _, _ | .halt, _, _ | .readFlag, _, _ | .readFlags, _, _ => true
  | .uninterrupted body, _, around => disciplined body true around
  | .locked i _ body, _, around => !around.contains i && disciplined body true (i :: around)
  | .force _, _, _ => false

/-- Whether the steps of a program are as they should be. -/
def disciplined : List Action → Bool → List Nat → Bool
  | [], _, _ => true
  | a :: rest, inside, around => a.disciplined inside around && disciplined rest inside around

end

/-- Whether what may happen is as it should be. An interrupt is in no section. -/
def Choice.disciplined : Choice → Bool
  | proceed => true
  | interrupt program => Critical.disciplined program false []

theorem disciplined_locked {i : Nat} {u : UInt64} {body : List Action} {inside : Bool}
    {around : List Nat} : (Action.locked i u body).disciplined inside around = true ↔
      i ∉ around ∧ disciplined body true (i :: around) = true := by
  rw [Action.disciplined, Bool.and_eq_true, Bool.not_eq_true', List.contains_eq_mem,
    decide_eq_false_iff_not]

theorem disciplined_cons {a : Action} {p : List Action} {inside : Bool} {around : List Nat} :
    disciplined (a :: p) inside around = true ↔
      a.disciplined inside around = true ∧ disciplined p inside around = true := by
  rw [disciplined, Bool.and_eq_true]

mutual

/-- The updates of a step. -/
def Action.updates : Action → List (Nat × UInt64)
  | .uninterrupted body => updates body
  | .locked i u body => (i, u) :: updates body
  | _ => []

/-- The updates of a program. -/
def updates : List Action → List (Nat × UInt64)
  | [] => []
  | a :: rest => a.updates ++ updates rest

end

mutual

/-- How many instructions a step takes. -/
def Action.size : Action → Nat
  | .uninterrupted body => size body + 3
  | .locked _ _ body => size body + 7
  | _ => 1

/-- How many instructions a program takes. -/
def size : List Action → Nat
  | [] => 0
  | a :: rest => a.size + size rest

end

end Supervisor.Critical

/-!
# Critical sections

On a single processor, data shared with interrupt handlers is guarded by
switching interrupts off. `uninterrupted` does so around a computation and
restores the flag it found, so sections nest. A `Guarded` is a value that is
only reached inside such a section, through a spin lock.

The programs of this module are built from those two, with the bare flag
instructions beside them:

- `Critical.Action`: one step of a program; sections hold programs of their own.
- `Critical.State`: the interrupt flag and the locks.
- `Critical.run`: runs a program and reports what each step saw.
- `Guarded`: a value and whether somebody holds it.
-/

namespace Supervisor

/-- A value behind a spin lock. -/
structure Guarded (α : Type) where
  /-- The value behind the lock. -/
  value : α
  /-- Whether somebody is inside. -/
  held : Bool := false
  deriving DecidableEq, Repr, Inhabited

/-- Releases a lock whoever holds it. -/
def Guarded.release {α : Type} (l : Guarded α) : Guarded α :=
  { l with held := false }

/-- The interrupt bit of the flags register. -/
abbrev interruptFlag : UInt64 := 0x200

/-- The flags register: the interrupt bit and a bit that is always set. -/
def flagsRegister (interrupts : Bool) : UInt64 :=
  if interrupts then interruptFlag ||| 2 else 2

namespace Critical

/-- A step of a program with critical sections. -/
inductive Action where
  /-- Switches interrupts on. -/
  | enable
  /-- Switches interrupts off. -/
  | disable
  /-- Waits for an interrupt. -/
  | halt
  /-- Switches interrupts on and waits for one. -/
  | sleep
  /-- Looks at the interrupt flag. -/
  | readFlag
  /-- Looks at the flags register. -/
  | readFlags
  /-- Runs a program with interrupts off. -/
  | uninterrupted (body : List Action)
  /-- Takes a lock, adds to its value, and runs a program before releasing
  it. -/
  | locked (lock : Nat) (amount : UInt64) (body : List Action)
  /-- Releases a lock whoever holds it. -/
  | force (lock : Nat)
  deriving Inhabited

/-- What a step saw. -/
inductive Report where
  /-- Nothing to see. -/
  | done
  /-- The interrupt flag. -/
  | flag (on : Bool)
  /-- The flags register. -/
  | flags (value : UInt64)
  /-- A section: the flag on entering its body, what the body saw, and the flag
  afterwards. -/
  | uninterrupted (inside : Bool) (body : List Report) (after : Bool)
  /-- A locked section: the value found, then as for a section. -/
  | locked (before : UInt64) (inside : Bool) (body : List Report) (after : Bool)
  /-- The lock was taken already; nothing happened. -/
  | held
  deriving Inhabited

/-- The interrupt flag and the locks of a program. -/
structure State where
  /-- Whether interrupts are on. -/
  interrupts : Bool
  /-- The locks, by number. -/
  locks : List (Guarded UInt64)
  deriving Repr, Inhabited

namespace State

/-- The lock with a number; a lock that does not exist is a fresh one. -/
def lock (s : State) (i : Nat) : Guarded UInt64 :=
  s.locks[i]?.getD ⟨0, false⟩

/-- Replaces a lock. -/
def setLock (s : State) (i : Nat) (l : Guarded UInt64) : State :=
  { s with locks := s.locks.set i l }

/-- Switches interrupts on if they were. -/
def restore (s : State) (wereOn : Bool) : State :=
  if wereOn then { s with interrupts := true } else s

/-- Enters a lock and adds to its value, which wraps. -/
def enter (s : State) (i : Nat) (amount : UInt64) : State :=
  s.setLock i ⟨(s.lock i).value + amount, true⟩

/-- Leaves a lock. -/
def leave (s : State) (i : Nat) : State :=
  s.setLock i (s.lock i).release

end State

mutual

/-- Runs one step. A lock that is held is reported and left alone. -/
def Action.run : Action → State → Report × State
  | .enable, s => (.done, { s with interrupts := true })
  | .disable, s => (.done, { s with interrupts := false })
  | .halt, s => (.done, s)
  | .sleep, s => (.done, { s with interrupts := true })
  | .readFlag, s => (.flag s.interrupts, s)
  | .readFlags, s => (.flags (flagsRegister s.interrupts), s)
  | .uninterrupted body, s =>
    let (seen, t) := run body { s with interrupts := false }
    let t := t.restore s.interrupts
    (.uninterrupted false seen t.interrupts, t)
  | .locked i amount body, s =>
    if (s.lock i).held then (.held, s)
    else
      let (seen, t) := run body (({ s with interrupts := false }).enter i amount)
      let t := (t.leave i).restore s.interrupts
      (.locked (s.lock i).value false seen t.interrupts, t)
  | .force i, s => (.done, s.setLock i (s.lock i).release)

/-- Runs a program and lists what its steps saw. -/
def run : List Action → State → List Report × State
  | [], s => ([], s)
  | a :: rest, s =>
    let (r, s) := a.run s
    let (rs, s) := run rest s
    (r :: rs, s)

end

end Critical

end Supervisor

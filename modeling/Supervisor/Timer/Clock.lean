import Supervisor.Fault

/-!
# The tick clock

A monotonic tick counter and the rate it is driven at. Milliseconds are always
computed from the tick count, so rounding never adds up.

- `Clock.tick`, `Clock.advance`: one more tick, and several.
- `Clock.millisOf`, `Clock.ticksIn`, `Clock.ms`: conversions, rounded down;
  intermediate results are exact and the answer keeps its low 64 bits.
- `Clock.waitFor`: idles until enough ticks have gone by.
-/

namespace Supervisor

/-- A tick counter and its rate. -/
structure Clock where
  /-- Ticks so far. -/
  ticks : Nat := 0
  /-- Ticks per second, 0 before the clock is configured. -/
  frequency : Nat := 0
  deriving DecidableEq, Repr, Inhabited

namespace Clock

/-- Sets the rate. -/
def configure (c : Clock) (hz : Nat) : Clock :=
  { c with frequency := hz }

/-- Counts a tick and returns the new count. The counter itself wraps, the
returned count may not. -/
def tick : EStateM Fault Clock Nat := do
  let old := (← get).ticks
  modify fun c => { c with ticks := (old + 1) % wordLimit }
  Checked.add old 1

/-- Counts several ticks and returns the last count, or `last` for none. -/
def advance (last : Nat) : Nat → EStateM Fault Clock Nat
  | 0 => return last
  | n + 1 => do advance (← tick) n

/-- Milliseconds that a number of ticks lasts, 0 at no rate. -/
def millisOf (c : Clock) (ticks : Nat) : Nat :=
  if c.frequency = 0 then 0 else ticks * 1000 / c.frequency % wordLimit

/-- Whole ticks in a number of milliseconds. -/
def ticksIn (c : Clock) (ms : Nat) : Nat :=
  ms * c.frequency / 1000 % wordLimit

/-- Milliseconds since the clock started. -/
def ms (c : Clock) : Nat :=
  c.millisOf c.ticks

/-- The count to wait for when `count` more ticks are wanted. It stays a
word. -/
def target (c : Clock) (count : Nat) : Nat :=
  min (c.ticks + count) (wordLimit - 1)

/-- Calls `idle` until the counter has reached `goal`, but not more than `fuel` times. The answer
says whether the counter has got there, and how often `idle` was called in all. -/
def idleUntil (idle : Nat → EStateM Fault Clock Unit) (goal : Nat) :
    Nat → Nat → EStateM Fault Clock (Bool × Nat)
  | 0, calls => return (goal ≤ (← get).ticks, calls)
  | fuel + 1, calls => do
    if goal ≤ (← get).ticks then
      return (true, calls)
    idle calls
    idleUntil idle goal fuel (calls + 1)

/-- Idles until `count` more ticks have gone by; an unconfigured clock does not
wait. `idle` is told how often it was called before. The answer says whether
the clock has waited for its ticks and how often `idle` was called. A wait for
which `fuel` calls are not enough is not over with them. -/
def waitFor (idle : Nat → EStateM Fault Clock Unit) (fuel count : Nat) :
    EStateM Fault Clock (Bool × Nat) := do
  let c ← get
  if c.frequency = 0 then
    return (false, 0)
  idleUntil idle (c.target count) fuel 0

end Clock

end Supervisor

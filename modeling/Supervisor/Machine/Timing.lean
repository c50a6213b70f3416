import Supervisor.Machine.Delivery
import Supervisor.Machine.Tables
import Supervisor.Timer.Pit

/-!
# The machine's timer

- `Machine.timerInit`: starts the tick.
- `Machine.wait`, `Machine.sleep`: waiting for ticks with the processor
  halted. Interrupts are on while it sleeps and as before afterwards.
- `Machine.tone`, `Machine.beep`: the speaker.
-/

namespace Supervisor.Machine

/-- The line the tick comes in on. -/
abbrev timerLine : UInt8 := 0

/-- A locked operation on the interval timer. -/
def withPit {α : Type} (body : PortM α) : MachineM α :=
  Board.locked .timer (Board.onPorts body)

/-- Starts the tick at a rate, moved into the range of ticks, and returns the
rate. -/
def timerInit (requested : UInt32) : MachineM UInt32 := do
  let hz := Pit.clampRate requested
  withPit (Pit.program .zero .squareWave hz)
  change fun k => { k with clock := k.clock.configure hz.toNat }
  attachLine timerLine .tick
  info "timer"
    ("PIT channel 0 at " ++ Text.decimal hz.toNat ++ " Hz (divisor "
      ++ Text.decimal (Pit.divisor hz).toNat ++ ")")
  return hz

/-- Registers the tick callback. -/
def onEachTick : MachineM Unit :=
  Board.locked .callback (change fun k => { k with callback := true })

/-- Sleeps until the tick counter has reached `goal`. Each sleep uses up one of
the interrupts still to come, so `fuel` of one more than those is enough. -/
def sleepUntil (goal : Nat) : Nat → MachineM Unit
  | 0 => throw .stuck
  | fuel + 1 => do
    if (← look (·.clock.ticks)) < goal then
      awaitInterrupt
      sleepUntil goal fuel

/-- Waits for a number of ticks; an unconfigured clock does not wait. -/
def wait (count : Nat) : MachineM Unit := do
  let wereOn := (← get).interrupts
  let k ← look id
  if k.clock.frequency ≠ 0 then
    sleepUntil (k.clock.target count) (k.outside.wakeups + 1)
  if !wereOn then
    Board.disable

/-- Waits for a number of milliseconds, at least one tick. -/
def sleep (ms : Nat) : MachineM Unit := do
  let clock ← look (·.clock)
  wait (max (clock.ticksIn ms) 1)

/-- Ends the tone. -/
def toneOff : MachineM Unit :=
  withPit Pit.stopTone

/-- Starts a tone; a rate of 0 ends it. -/
def tone (hz : UInt32) : MachineM Unit :=
  if hz = 0 then toneOff else withPit (Pit.startTone hz)

/-- A tone of some length. -/
def beep (hz : UInt32) (ms : Nat) : MachineM Unit := do
  tone hz
  sleep ms
  toneOff

end Supervisor.Machine

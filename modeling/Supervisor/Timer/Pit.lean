import Supervisor.Ports

/-!
# The interval timer

Three counters count down from a divisor at a fixed base rate. Counter 0 drives
the tick, counter 2 the speaker, whose gate is two bits of another port.

- `Pit.clampRate`, `Pit.divisor`: rates the tick may have, and the divisor that
  comes closest to a rate from above.
- `Pit.program`, `Pit.count`: setting a counter up, and reading it back
  through a latch.
- `Pit.startTone`, `Pit.stopTone`: a tone.
-/

namespace Supervisor.Pit

/-- Counts per second before division. -/
abbrev baseRate : UInt32 := 1193182
/-- The slowest rate whose divisor has sixteen bits. -/
abbrev minRate : UInt32 := 19
/-- The fastest tick. -/
abbrev maxRate : UInt32 := 1000

/-- The command port. -/
abbrev command : UInt16 := 0x43
/-- The port with the speaker's gate. -/
abbrev speakerGate : UInt16 := 0x61
/-- The bits of the gate. -/
abbrev gateBits : UInt8 := 0x03

/-- One of the three counters. -/
inductive Channel where
  | zero
  | one
  | two
  deriving DecidableEq, Repr, Inhabited

/-- The number of a counter. -/
def Channel.number : Channel → UInt8
  | .zero => 0
  | .one => 1
  | .two => 2

/-- The data port of a counter. -/
def Channel.port (c : Channel) : UInt16 :=
  0x40 + c.number.toUInt16

/-- The bits of a command that select a counter. -/
def Channel.select (c : Channel) : UInt8 :=
  c.number <<< 6

/-- What a counter does when it reaches zero. -/
inductive Mode where
  | terminalCount
  | oneShot
  | rateGenerator
  | squareWave
  deriving DecidableEq, Repr, Inhabited

/-- The modes by name. -/
def Mode.byName : List (String × Mode) :=
  [("terminal", .terminalCount), ("oneshot", .oneShot), ("rate", .rateGenerator),
   ("square", .squareWave)]

/-- The bits of a command that set a mode. -/
def Mode.code : Mode → UInt8
  | .terminalCount => 0x00
  | .oneShot => 0x02
  | .rateGenerator => 0x04
  | .squareWave => 0x06

/-- A rate moved into the range of ticks. -/
def clampRate (hz : UInt32) : UInt32 :=
  if hz < minRate then minRate else if maxRate < hz then maxRate else hz

/-- The divisor for a rate, which is first moved between the slowest rate and
the base rate. -/
def divisor (hz : UInt32) : UInt16 :=
  let hz := if hz < minRate then minRate else if baseRate < hz then baseRate else hz
  (baseRate / hz).toUInt16

/-- Starts a counter at a rate: the command, then the divisor, low byte
first. -/
def program (c : Channel) (mode : Mode) (hz : UInt32) : PortM Unit := do
  let reload := divisor hz
  Ports.write8 command (c.select ||| 0x30 ||| mode.code)
  Ports.write8 c.port reload.toUInt8
  Ports.write8 c.port (reload >>> 8).toUInt8

/-- Latches a counter and reads it. -/
def count (c : Channel) : PortM UInt16 := do
  Ports.write8 command c.select
  let low ← Ports.read8 c.port
  let high ← Ports.read8 c.port
  return high.toUInt16 <<< 8 ||| low.toUInt16

/-- Starts a tone. The gate is only written if it is not open. -/
def startTone (hz : UInt32) : PortM Unit := do
  program .two .squareWave hz
  let gate ← Ports.read8 speakerGate
  if gate &&& gateBits ≠ gateBits then
    Ports.write8 speakerGate (gate ||| gateBits)

/-- Ends a tone. -/
def stopTone : PortM Unit := do
  let gate ← Ports.read8 speakerGate
  Ports.write8 speakerGate (gate &&& ~~~ gateBits)

end Supervisor.Pit

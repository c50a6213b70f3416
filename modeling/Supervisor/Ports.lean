import Supervisor.Text

/-!
# The port bus

Devices are reached through 16-bit port numbers. A `Ports` value answers reads
from a script and keeps a log of every access, so that what a driver did to a
device can be read off afterwards.

- `PortEvent`: one access, with the value that crossed the bus, and
  `PortEvent.text`, its short notation: `w20=11` writes, `r61=0` reads.
- `Ports.input`, `Ports.output`: an access at a `Width`, which cuts the value
  off; `read8` and `write8` are those of a byte.
- `pause`: a write to a port no device listens on, which gives slow chips
  time.

A read takes the next scripted value of its port; once the script is used up
it takes the port's sticky value, which is zero unless one was set.
-/

namespace Supervisor

/-- One access to a port. -/
inductive PortEvent where
  /-- The given value was read from the port. -/
  | read (port : UInt16) (value : UInt32)
  /-- The given value was written to the port. -/
  | write (port : UInt16) (value : UInt32)
  deriving DecidableEq, Repr, Inhabited

/-- The port and value of a write, nothing for a read. -/
def PortEvent.write? : PortEvent → Option (UInt16 × UInt32)
  | .read _ _ => none
  | .write port value => some (port, value)

/-- An access as its direction, port and value. -/
def PortEvent.text : PortEvent → String
  | .read port value => "r" ++ Text.hexDigits port.toNat ++ "=" ++ Text.hexDigits value.toNat
  | .write port value => "w" ++ Text.hexDigits port.toNat ++ "=" ++ Text.hexDigits value.toNat

/-- Accesses in order, separated by blanks. -/
def PortEvent.transcript (events : List PortEvent) : String :=
  " ".intercalate (events.map PortEvent.text)

/-- What reads will answer and which accesses have happened. -/
structure Ports where
  /-- Values still to be read, by port. -/
  script : UInt16 → List UInt32 := fun _ => []
  /-- What a port answers once its script is used up. -/
  sticky : UInt16 → UInt32 := fun _ => 0
  /-- The accesses so far, oldest first. -/
  log : Array PortEvent := #[]

instance : Inhabited Ports := ⟨{}⟩

/-- How many bits of a value an access transfers. -/
inductive Width where
  | byte
  | word
  | long
  deriving DecidableEq, Repr, Inhabited

/-- What of a value fits a width. -/
def Width.cut : Width → UInt32 → UInt32
  | .byte, value => value.toUInt8.toUInt32
  | .word, value => value.toUInt16.toUInt32
  | .long, value => value

/-- A computation that accesses ports. -/
abbrev PortM := StateM Ports

namespace Ports

/-- Replaces the answer of a function at one port. -/
def update {α : Type} (f : UInt16 → α) (port : UInt16) (a : α) : UInt16 → α :=
  fun p => if p = port then a else f p

/-- Appends values to the script of a port. -/
def addScript (p : Ports) (port : UInt16) (values : List UInt32) : Ports :=
  { p with script := update p.script port (p.script port ++ values) }

/-- Sets the sticky value of a port. -/
def setDefault (p : Ports) (port : UInt16) (value : UInt32) : Ports :=
  { p with sticky := update p.sticky port value }

/-- Appends an event to the log. -/
def record (p : Ports) (event : PortEvent) : Ports :=
  { p with log := p.log.push event }

/-- The value the next read of a port finds, and the bus after it. -/
def next (p : Ports) (port : UInt16) : UInt32 × Ports :=
  match p.script port with
  | value :: rest => (value, { p with script := update p.script port rest })
  | [] => (p.sticky port, p)

/-- Reads a port at a width. -/
def input (w : Width) (port : UInt16) : PortM UInt32 := do
  let (value, p) := (← get).next port
  set (p.record (.read port (w.cut value)))
  return w.cut value

/-- Writes a value to a port at a width. -/
def output (w : Width) (port : UInt16) (value : UInt32) : PortM Unit :=
  modify (·.record (.write port (w.cut value)))

/-- Reads a byte. -/
def read8 (port : UInt16) : PortM UInt8 :=
  return (← input .byte port).toUInt8

/-- Writes a byte. -/
def write8 (port : UInt16) (value : UInt8) : PortM Unit :=
  output .byte port value.toUInt32

/-- The port no device listens on. -/
abbrev waitPort : UInt16 := 0x80

/-- One idle bus cycle. -/
def pause : PortM Unit :=
  write8 waitPort 0

/-- The writes of the log, oldest first. -/
def writes (p : Ports) : List (UInt16 × UInt32) :=
  p.log.toList.filterMap PortEvent.write?

/-- The values written to one port, oldest first. -/
def writesTo (p : Ports) (port : UInt16) : List UInt32 :=
  p.writes.filterMap fun (q, value) => if q = port then some value else none

/-- The accesses so far. -/
def transcript (p : Ports) : String :=
  PortEvent.transcript p.log.toList

/-- Forgets the accesses so far. -/
def clearLog (p : Ports) : Ports :=
  { p with log := #[] }

end Ports

end Supervisor

import Supervisor.Machine.State

/-!
# Serial port, console and log of the machine

- `Machine.portInput`, `Machine.portOutput`: the port bus with the serial port
  on it.
- `Machine.send`: text to the serial port. Text sent before the port is set up
  is lost; what is sent while its divisor latch is on does not come out.
- `Machine.withConsole`: a locked operation on the console, whose cells are
  part of memory.
- `Machine.log`: a log line, to the serial port and, if the log goes there
  too, to the console.

Both outputs are reached through their locks, with interrupts off.
-/

namespace Supervisor.Machine

/-! ## The serial port -/

/-- Keeps bytes that were sent. -/
def sent (bytes : List UInt8) (k : Kernel) : Kernel :=
  { k with outside.serial := k.outside.serial ++ bytes.toArray }

/-- Hands bytes to the driver of the serial port, which sends what it makes of
them. -/
def hand (bytes : List UInt8) (k : Kernel) : Kernel :=
  sent (k.uart.passed (bytes.flatMap k.transmit))
    { k with outside.handed := k.outside.handed ++ bytes.toArray }

/-- Reads a port. -/
def portInput (w : Width) (port : UInt16) : MachineM UInt32 :=
  if Serial.Uart.owns port then
    return (Serial.Uart.read port).toUInt32
  else
    Board.onPorts (Ports.input w port)

/-- Writes a port. -/
def portOutput (w : Width) (port : UInt16) (value : UInt32) : MachineM Unit := do
  if Serial.Uart.owns port then
    let (bytes, uart) := (← look (·.uart)).write port value.toUInt8
    change fun k => sent bytes { k with uart }
  else
    Board.onPorts (Ports.output w port value)

/-- Sets up the serial port. -/
def serialInit : MachineM Unit :=
  change fun k => { k with serialReady := true, uart := {} }

/-- Sends a text. -/
def send (s : String) : MachineM Unit :=
  Board.locked .serial do
    if ← look (·.serialReady) then
      change (hand (Serial.handed s))

/-! ## The console -/

/-- Where the cells of the console are. -/
abbrev consoleBase : Nat := 0xB8000

/-- The console as its pen and memory have it. -/
def consoleOf (k : Kernel) : Console where
  pen := k.pen
  cells := Vector.ofFn fun i => UInt16.ofNat (k.memory.load (consoleBase + 2 * i.val) 2)

/-- The bytes of a screen in memory. -/
def cellBytes (cells : Cells) : List UInt8 :=
  cells.toList.flatMap fun (v : UInt16) => [v.toUInt8, (v >>> 8).toUInt8]

/-- Puts a console back. -/
def putConsole (c : Console) (k : Kernel) : Kernel :=
  { k with pen := c.pen, memory := k.memory.writeBytes consoleBase (cellBytes c.cells) }

/-- An operation on the console by whoever holds its lock. -/
def onConsole (f : Console → PortM Console) : MachineM Unit := do
  let c ← Board.onPorts (f (← look consoleOf))
  change (putConsole c)

/-- A locked operation on the console. -/
def withConsole (f : Console → PortM Console) : MachineM Unit :=
  Board.locked .console (onConsole f)

/-- Clears the console. -/
def consoleInit : MachineM Unit :=
  withConsole (·.clear)

/-- A rule under the banner. -/
def bannerRule : String :=
  "================================================================\n\n"

/-- Shows the banner. -/
def bootMessage : MachineM Unit :=
  withConsole fun c => do
    let c ← (c.recolor .lightCyan .black).writeText identity.banner
    let c ← c.writeText "\n"
    let c ← (c.recolor .darkGray .black).writeText bannerRule
    return c.recolor .white .black

/-! ## The log -/

/-- Writes a log line, if its level passes the threshold. -/
def log (e : Log.Entry) : MachineM Unit := do
  let k ← look id
  if k.log.admits e then
    let ms := k.clock.ms
    send (e.text ms)
    if k.log.onConsole then
      withConsole (e.display ms)

/-- Logs an ordinary line. -/
def info (origin message : String) : MachineM Unit :=
  log { level := .info, origin, message }

/-- Logs a warning. -/
def warn (origin message : String) : MachineM Unit :=
  log { level := .warn, origin, message }

/-- Logs a debug line from a source place. -/
def debug (origin message : String) (file : String) (line : Nat) : MachineM Unit :=
  log { level := .debug, place := ⟨file, line⟩, origin, message }

/-- Sets what is logged and where. -/
def logInit (settings : Log.Settings) : MachineM Unit :=
  change fun k => { k with log := settings }

end Supervisor.Machine

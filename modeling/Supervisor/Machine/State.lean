import Supervisor.Boot
import Supervisor.Frames.Basic
import Supervisor.Heap.Basic
import Supervisor.Interrupt.Probe
import Supervisor.Interrupt.Stub
import Supervisor.Panic.Report
import Supervisor.Segment
import Supervisor.Serial
import Supervisor.Timer.Clock

/-!
# The machine

All state of the running kernel: the board of interrupt delivery, and beside it
memory, the processor's tables and control registers, the kernel's own
variables, and what the outside world has in store.

- `Handler`: the handlers that can be registered.
- `Image`: what the linker decided.
- `Tables`: the segment and interrupt tables, and the processor's registers for
  them.
- `Outside`: the interrupts that are still to come, and what has been sent or
  noted so far.
- `Kernel`: the state beside the board.
- `Machine`, `MachineM`: the whole, and computations on it.
-/

namespace Supervisor

/-- A registered handler. -/
inductive Handler where
  /-- The kernel's tick. -/
  | tick
  /-- Logs the vector and the tick count. -/
  | report
  /-- A probe. -/
  | probe (p : Probe)
  deriving DecidableEq, Repr, Inhabited

/-- The handlers by name. -/
def Handler.byName : List (String × Handler) :=
  [("kernel", tick), ("print", report)] ++ Probe.byName.map fun (name, p) => (name, probe p)

/-- Addresses that only the build knows. -/
structure Image where
  /-- The top of the kernel's own stack. -/
  stackTop : UInt64
  /-- The entry stub of vector 0. -/
  stubBase : UInt64
  /-- The task state segment. -/
  taskSegment : UInt64
  /-- Where the segment table is built. -/
  segmentTable : UInt64
  /-- Where the interrupt table is built. -/
  gateTable : UInt64
  deriving DecidableEq, Repr, Inhabited

/-- A register that tells the processor where one of its tables is. -/
structure TableRegister where
  /-- The address of the table. -/
  base : UInt64
  /-- Bytes in the table, less one. -/
  limit : UInt16
  deriving DecidableEq, Repr, Inhabited

/-- The tables that the kernel builds, and the processor's registers for them. -/
structure Tables where
  /-- Whether a segment table was installed. -/
  installed : Bool := false
  /-- The segment table, once it was built. -/
  gdt : Option Gdt := none
  /-- Where the processor looks for the segment table. -/
  gdtr : Option TableRegister := none
  /-- The task state segment that is loaded. -/
  taskRegister : Option UInt16 := none
  /-- The stack for ring 0. -/
  ringStack : UInt64 := 0
  /-- The interrupt table, once it was built. -/
  idt : Option Idt := none
  /-- Where the processor looks for the interrupt table. -/
  idtr : Option TableRegister := none

/-- Something a handler or callback noted. -/
inductive Note where
  /-- A handler was called. -/
  | call (c : Call Handler)
  /-- The tick callback was called. -/
  | tick (now : Nat)
  deriving DecidableEq, Repr, Inhabited

/-- The world around the machine. -/
structure Outside where
  /-- Vectors of the interrupts that come next. -/
  pending : List UInt8 := []
  /-- Whether no interrupt comes after those; otherwise ticks do. -/
  closing : Bool := false
  /-- How many more interrupts will come at all. -/
  wakeups : Nat := 0
  /-- Bytes handed to the driver of the serial port. -/
  handed : Array UInt8 := #[]
  /-- Bytes sent on the serial line. -/
  serial : Array UInt8 := #[]
  /-- How many bytes had been sent when a report began. -/
  reportStart : Option Nat := none
  /-- Notes of handlers and callbacks. -/
  notes : Array Note := #[]
  deriving Repr, Inhabited

/-- Where the frame map is kept in memory. -/
structure FrameArea where
  /-- The address of its words. -/
  base : Nat
  /-- Number of its words. -/
  words : Nat
  /-- Number of frames. -/
  total : Nat
  /-- Number of free frames. -/
  free : Nat
  deriving DecidableEq, Repr, Inhabited

/-- The state beside the board. -/
structure Kernel where
  image : Image
  memory : Memory := {}
  control : Panic.Control := {}
  tables : Tables := {}
  /-- Whether the serial port was set up. -/
  serialReady : Bool := false
  /-- What the driver of the serial port sends for a byte. -/
  transmit : UInt8 → List UInt8 := Serial.transmitted
  /-- The serial port. -/
  uart : Serial.Uart := {}
  /-- The console's pen; its cells are in memory. -/
  pen : Pen := default
  log : Log.Settings := {}
  clock : Clock := {}
  /-- Whether a tick callback is registered. -/
  callback : Bool := false
  heap : Heap := {}
  frames : Option FrameArea := none
  /-- Whether a report was begun. -/
  panicking : Bool := false
  /-- What is found where code notices a failure. There is at most one report,
  so this is about the failure that is reported. -/
  site : Panic.Site := {}
  outside : Outside := {}

/-- The interrupt table that the processor goes by: the one that was built, if
the processor's register names its place and its length. -/
def Kernel.gates (k : Kernel) : Option Idt :=
  if k.tables.idtr = some ⟨k.image.gateTable, Idt.limit⟩ then k.tables.idt else none

/-- The machine. -/
abbrev Machine := Board Handler Kernel

/-- A computation on the machine. -/
abbrev MachineM := BoardM Handler Kernel

namespace Machine

/-- A machine that has run nothing yet. -/
def start (image : Image) (wakeups : Nat) : Machine where
  rest := { image, outside := { wakeups } }

/-- Something read from the kernel's state. -/
def look {α : Type} (f : Kernel → α) : MachineM α :=
  return f (← get).rest

/-- A change of the kernel's state. -/
def change (f : Kernel → Kernel) : MachineM Unit :=
  modify fun b => { b with rest := f b.rest }

/-- A change of memory. -/
def changeMemory (f : Memory → Memory) : MachineM Unit :=
  change fun k => { k with memory := f k.memory }

/-- Whether an address can be read: the first gigabyte is mapped, its first
page excepted. -/
def readable (address : Nat) : Bool :=
  0x1000 ≤ address && address < Config.mappedTop

end Machine

end Supervisor

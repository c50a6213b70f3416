import Supervisor.Fault
import Supervisor.Interrupt.Core
import Supervisor.Interrupt.Pic

/-!
# The board

A `Board` is the processor's interrupt flag together with everything that the
delivery of an interrupt touches: the handler table, the interrupt controller
and the ports. The remaining devices and memory are one more field, whose type
is left open, and so is the type of handlers.

- `Board`, `BoardM`: the state, and computations on it that can come to a
  `Stop`.
- `Board.enable`, `Board.disable`, `Board.uninterrupted`: the interrupt
  flag.
- `Board.locked`: a section that holds one of the kernel's locks, with
  interrupts off. A lock that is held already is never released, because its
  holder cannot run: the section then ends in `Stop.deadlock`.
- `Board.withPic`: a locked operation on the interrupt controller.
-/

namespace Supervisor

/-- Why the processor no longer runs the kernel's code. -/
inductive Stop where
  /-- A computation on machine words had no answer. -/
  | fault (f : Fault)
  /-- Halted with interrupts off. -/
  | halted
  /-- Waiting for an interrupt that cannot come. -/
  | stuck
  /-- Waiting for the next interrupt with nothing left to do. -/
  | idle
  /-- Waiting for a lock whose holder cannot run. -/
  | deadlock
  /-- Reading an address that is not mapped, with nothing to take the fault. -/
  | unmapped (address : Nat)
  deriving DecidableEq, Repr, Inhabited

/-- The locks of the kernel. -/
inductive Lock where
  | console
  | serial
  | pic
  | timer
  | callback
  | heap
  | frames
  deriving DecidableEq, Repr, Inhabited

/-- A segment register. -/
inductive SegmentRegister where
  | cs
  | ds
  | es
  | fs
  | gs
  | ss
  deriving DecidableEq, Repr, Inhabited

/-- Something the processor was told. -/
inductive CpuEvent where
  /-- Interrupts were switched on. -/
  | enable
  /-- Interrupts were switched off. -/
  | disable
  /-- A segment register was loaded. -/
  | load (register : SegmentRegister) (selector : UInt16)
  /-- The cached mapping of a page was dropped. -/
  | invalidate (address : UInt64)
  deriving DecidableEq, Repr, Inhabited

/-- The name of a segment register. -/
def SegmentRegister.name : SegmentRegister → String
  | .cs => "cs"
  | .ds => "ds"
  | .es => "es"
  | .fs => "fs"
  | .gs => "gs"
  | .ss => "ss"

/-- How an event reads, unless it is about the interrupt flag. -/
def CpuEvent.text? : CpuEvent → Option String
  | .enable => none
  | .disable => none
  | .load register selector => some (register.name ++ "=" ++ Text.hexDigits selector.toNat)
  | .invalidate address => some ("invlpg=" ++ Text.hexDigits address.toNat)

/-- The state interrupt delivery works on, with handlers named by `η`, and
everything else in `rest`. -/
structure Board (η ω : Type) where
  /-- Whether interrupts are on. -/
  interrupts : Bool := false
  /-- The handler registered for each vector. -/
  handlers : UInt8 → Option η := fun _ => none
  /-- The interrupt controller. -/
  pic : Pic := {}
  /-- The port bus. -/
  ports : Ports := {}
  /-- The locks that are held. -/
  held : List Lock := []
  /-- What the processor was told, oldest first. -/
  cpu : Array CpuEvent := #[]
  /-- The remaining state. -/
  rest : ω

/-- A computation on a board. A stop keeps the board as it was then. -/
abbrev BoardM (η ω : Type) := EStateM Stop (Board η ω)

/-- A checked word operation on a board: a fault stops it. -/
instance {η ω : Type} : MonadLift (Except Fault) (BoardM η ω) where
  monadLift
    | .ok a => pure a
    | .error e => throw (.fault e)

namespace Board

variable {η ω α : Type}

/-- Notes something the processor was told. -/
def note (event : CpuEvent) : BoardM η ω Unit :=
  modify fun b => { b with cpu := b.cpu.push event }

/-- Switches interrupts on. -/
def enable : BoardM η ω Unit := do
  note .enable
  modify fun b => { b with interrupts := true }

/-- Switches interrupts off. -/
def disable : BoardM η ω Unit := do
  note .disable
  modify fun b => { b with interrupts := false }

/-- Runs a computation with interrupts off and switches them back on if they
were on before. -/
def uninterrupted (body : BoardM η ω α) : BoardM η ω α := do
  let wereOn := (← get).interrupts
  if wereOn then
    disable
  let a ← body
  if wereOn then
    enable
  return a

/-- Takes a lock. -/
def acquire (l : Lock) : BoardM η ω Unit := do
  if (← get).held.contains l then
    throw .deadlock
  modify fun b => { b with held := l :: b.held }

/-- Releases a lock. -/
def release (l : Lock) : BoardM η ω Unit :=
  modify fun b => { b with held := b.held.filter (· != l) }

/-- Runs a computation that holds a lock, with interrupts off. -/
def locked (l : Lock) (body : BoardM η ω α) : BoardM η ω α :=
  uninterrupted do
    acquire l
    let a ← body
    release l
    return a

/-- Runs a computation on the port bus. -/
def onPorts (body : PortM α) : BoardM η ω α := do
  let (a, ports) := body.run (← get).ports
  modify fun b => { b with ports }
  return a

/-- A locked look at the interrupt controller. -/
def withPic (body : Pic → PortM α) : BoardM η ω α :=
  locked .pic do
    onPorts (body (← get).pic)

/-- A locked change of the interrupt controller. -/
def changePic (body : Pic → PortM Pic) : BoardM η ω Unit :=
  locked .pic do
    let pic ← onPorts (body (← get).pic)
    modify fun b => { b with pic }

/-- Registers a handler and returns the one it replaces. -/
def register (vector : UInt8) (handler : η) : BoardM η ω (Option η) := do
  let old := (← get).handlers vector
  modify fun b => { b with handlers := fun v => if v = vector then some handler else b.handlers v }
  return old

end Board

end Supervisor

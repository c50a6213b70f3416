import Supervisor.Machine.Output
import Supervisor.Panic.Trace

/-!
# The fatal path

Everything that the kernel cannot survive ends here: interrupts go off, the
locks of the outputs are released whoever held them, the screen is repainted
and a report is written to console and serial port, and the processor halts for
good. Entering a second time halts at once.

- `Machine.haltForever`: halts with interrupts off.
- `Machine.enterPanic`: claims the fatal path.
- `Machine.emit`: writes a report and halts.
- `Machine.panic`, `Machine.breach`, `Machine.assertThat`: failures that code
  notices.
- `Machine.walkFrames`: the call trace of interrupted code. It follows a frame
  pointer through memory; one into unmapped memory raises a page fault.
- `Machine.reportUnhandled`: an exception nobody could handle.
-/

namespace Supervisor.Machine

variable {α : Type}

/-- Switches interrupts off and halts. -/
def haltForever : MachineM α := do
  Board.disable
  throw .halted

/-- Claims the fatal path. Whoever comes second halts. -/
def enterPanic : MachineM Unit := do
  Board.disable
  if ← look (·.panicking) then
    haltForever
  change fun k => { k with panicking := true }

/-- Writes a text to console and serial port; the console's lock is held. -/
def tee (s : String) : MachineM Unit := do
  onConsole (·.writeText s)
  send s

/-- Writes a report and halts. Whatever `during` does happens behind the
message. -/
def emit (r : Panic.Report) (during : MachineM Unit) : MachineM α := do
  Board.release .console
  Board.release .serial
  change fun k => { k with outside.reportStart := some k.outside.serial.size }
  Board.locked .console do
    onConsole (fun c => (c.recolor r.kind.colors.1 r.kind.colors.2).clear)
    tee (r.opening ++ r.message)
    during
    tee r.body
  haltForever

/-- Stops the kernel with a report. `during` is what writing the message does
besides. -/
def panicDuring (kind : Panic.Kind) (message : String) (during : MachineM Unit) : MachineM α := do
  enterPanic
  let k ← look id
  emit { kind, message, origin := some k.site.origin, registers := k.site.registers,
         control := k.control, trace := k.site.trace } during

/-- Stops the kernel with a report. -/
def panic (kind : Panic.Kind) (message : String) : MachineM α :=
  panicDuring kind message (return)

/-- Reports an access to where nothing may be accessed. -/
def breach (reason : String) (address : UInt64) : MachineM α :=
  panic .breach (Panic.breachMessage reason address)

/-- Stops the kernel unless `holds`. -/
def assertThat (holds : Bool) (expression : String) (details : Option String) : MachineM Unit := do
  if !holds then
    panic .assertion (Panic.assertionMessage expression details)

/-- The report about an exception. -/
def exceptionReport (e : Unhandled) (f : Frame) (control : Panic.Control)
    (returns : List UInt64) : Panic.Report where
  kind := .hardware
  message := e.message
  registers := f
  control := control
  faultAddress := if e.vector = pageFaultVector then some control.cr2 else none
  trace := Trace.ofInterrupted f.rip returns

/-- The return addresses that are found from a frame pointer on. `pageFault` is
what reading an address that is not mapped does; if it comes back, it answers
what the walk has listed in the end. -/
def walkFrames (pageFault : Nat → MachineM (List UInt64)) (rbp : UInt64) :
    MachineM (List UInt64) := do
  let chain := Trace.walk readable (← look (·.memory)) rbp
  match chain.unreadable with
  | none => return chain.returns
  | some address => pageFault address

/-- Stops the kernel with a report about an exception. -/
def reportUnhandled (pageFault : Nat → MachineM (List UInt64)) (e : Unhandled) (f : Frame) :
    MachineM α := do
  enterPanic
  let control ← look (·.control)
  let returns ← walkFrames pageFault f.rbp
  emit (exceptionReport e f control returns) (return)

end Supervisor.Machine

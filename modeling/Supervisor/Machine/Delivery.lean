import Supervisor.Interrupt.Entry
import Supervisor.Machine.Fatal

/-!
# Delivery and waiting

How an interrupt reaches a handler and returns, and how the kernel waits for
one.

- `Machine.behave`: what the handlers do.
- `Machine.deliverWith`: one delivery, from entry to return. What a page fault on
  the fatal path does is left open.
- `Machine.deliver`: a delivery on a machine that stops at such a page fault.
- `Machine.awaitInterrupt`: switches interrupts on and sleeps until the next
  one.

Delivery goes through an interrupt gate, so handlers run with interrupts off;
returning restores the interrupted flag.
-/

namespace Supervisor.Machine

/-- The core of interrupted code. Its data segments read as zero. -/
def interrupted (registers : Frame) : Core :=
  .ofFrame { registers with gs := 0, fs := 0, es := 0, ds := 0 }

/-- Whether a flags register has interrupts on. -/
def interruptsIn (rflags : UInt64) : Bool :=
  rflags &&& 0x200 != 0

/-- Keeps a note. -/
def note (n : Note) : MachineM Unit :=
  change fun k => { k with outside.notes := k.outside.notes.push n }

/-- Runs a computation on the clock. -/
def onClock {α : Type} (body : EStateM Fault Clock α) : MachineM α := do
  match body.run (← look (·.clock)) with
  | .ok a clock =>
    change fun k => { k with clock }
    return a
  | .error e clock =>
    change fun k => { k with clock }
    throw (.fault e)

/-- The kernel's tick: counts it, then calls the callback. -/
def countTick : MachineM Unit := do
  let now ← onClock Clock.tick
  if ← Board.locked .callback (look (·.callback)) then
    note (.tick now)

/-- What the handlers do. -/
def behave : Board.Behaviour Handler Kernel
  | .tick, f => do
    countTick
    return f
  | .report, f => do
    note (.call (← Probe.call .report f))
    let ticks ← look (·.clock.ticks)
    info "handler"
      ("vector " ++ Text.decimal f.number.toNat ++ " at tick " ++ Text.decimal ticks)
    return f
  | .probe p, f => p.run (fun c => note (.call c)) .probe f

/-- What the entry code calls: routing, or the report about an exception that
nobody could handle. The answer is the frame that is returned to. -/
def dispatch (pageFault : Nat → MachineM (List UInt64)) (f : Frame) : MachineM Frame := do
  match ← Board.route behave f with
  | .ok f => return f
  | .error e => reportUnhandled pageFault e f

/-- One delivery: entry with interrupts off, dispatch, return. The answer is the
registers the interrupted code goes on with. -/
def deliverWith (pageFault : Nat → MachineM (List UInt64)) (registers : Frame)
    (vector : UInt8) : MachineM Frame := do
  if (← look Kernel.gates).isNone then
    throw .stuck
  modify fun b => { b with interrupts := false }
  let core := Entry.enter (interrupted registers) vector registers.errorCode
  let f ← dispatch pageFault core.frame
  let resumed := Entry.leave (core.setFrame f)
  modify fun b => { b with interrupts := interruptsIn resumed.rflags }
  return resumed.toFrame

/-- One delivery on a machine that is given up at a read of an unmapped
address. -/
def deliver (registers : Frame) (vector : UInt8) : MachineM Frame :=
  deliverWith (fun address => throw (.unmapped address)) registers vector

/-- The registers of code that sleeps: nothing but the segments and the
flags. -/
def sleeping : Frame :=
  { cs := 0x08, ss := 0x10, rflags := 0x202 }

/-- The vector of the next interrupt. -/
def nextVector : MachineM UInt8 := do
  let outside ← look (·.outside)
  if outside.wakeups = 0 then
    throw .stuck
  let vector ←
    match outside.pending with
    | v :: _ => pure v
    | [] => if outside.closing then throw .idle else pure 0x20
  change fun k => { k with
    outside.pending := k.outside.pending.tail
    outside.wakeups := k.outside.wakeups - 1 }
  return vector

/-- Switches interrupts on and sleeps until one has been handled. -/
def awaitInterrupt : MachineM Unit := do
  Board.enable
  if (← look Kernel.gates).isNone then
    throw .stuck
  discard <| deliver sleeping (← nextVector)

end Supervisor.Machine

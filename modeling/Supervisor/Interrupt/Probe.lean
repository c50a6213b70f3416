import Supervisor.Interrupt.Route

/-!
# Probe handlers

Small handlers that exercise delivery: each notes that it was called and then
does one thing a handler may do, such as changing the frame, registering
another handler or masking its own line.

- `Probe`: the handlers.
- `Call`: the note a handler leaves.
- `Probe.run`: what each does, on any board that can keep notes and knows
  probes among its handlers.
-/

namespace Supervisor

/-- A probe handler. -/
inductive Probe where
  /-- Only notes the call. -/
  | log
  /-- Moves the return address two bytes on. -/
  | skip
  /-- Exchanges two registers. -/
  | swap
  /-- Replaces itself by `log`. -/
  | chain
  /-- Changes the vector and error code of the frame. -/
  | retarget
  /-- Masks the line it was called for. -/
  | maskLine
  deriving DecidableEq, Repr, Inhabited

/-- The probes by name. -/
def Probe.byName : List (String × Probe) :=
  [("log", log), ("skip", skip), ("swap", swap), ("chain", chain), ("vec", retarget),
   ("mask", maskLine)]

/-- What is known about a call of a handler. -/
structure Call (η : Type) where
  /-- The handler. -/
  handler : η
  /-- The vector it was called for. -/
  vector : UInt8
  errorCode : UInt64
  rip : UInt64
  /-- The interrupt flag it found. -/
  interrupts : Bool
  deriving DecidableEq, Repr, Inhabited

namespace Probe

variable {η ω : Type}

/-- The note about a call for a frame. -/
def call (handler : η) (f : Frame) : BoardM η ω (Call η) := do
  return ⟨handler, f.number, f.errorCode, f.rip, (← get).interrupts⟩

/-- What a probe does after noting the call. -/
def act (inject : Probe → η) (f : Frame) : Probe → BoardM η ω Frame
  | log => return f
  | skip => return { f with rip := f.rip + 2 }
  | swap => return { f with rax := f.rbx, rbx := f.rax }
  | chain => do
    discard <| Board.register f.number (inject log)
    return f
  | retarget => return { f with vector := 0x2F, errorCode := f.errorCode ^^^ 0xFF }
  | maskLine => do
    if let some line ← Board.withPic fun pic => return pic.lineOf f.number then
      Board.changePic (·.maskLine line)
    return f

/-- Notes the call with `note`, then acts. -/
def run (note : Call η → BoardM η ω Unit) (inject : Probe → η) (p : Probe) (f : Frame) :
    BoardM η ω Frame := do
  note (← call (inject p) f)
  p.act inject f

end Probe

end Supervisor

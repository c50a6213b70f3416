import Supervisor.Text
import Supervisor.Interrupt.Frame

/-!
# Processor exceptions

Vectors 0 to 31 are exceptions. Each belongs to a class that decides what a
delivery does:

- `fatal`: no handler is ever consulted;
- `recoverable`: a registered handler takes over, without one it is fatal;
- `benign`: a registered handler runs, without one nothing happens.

`verdict` is that rule; `Unhandled` is an exception nobody could
handle, and `Unhandled.message` names it.
-/

namespace Supervisor

/-- Vectors below this are exceptions. -/
abbrev exceptionCount : Nat := 32

/-- The page fault's vector. -/
abbrev pageFaultVector : UInt8 := 14

/-- The names of the exceptions by vector. -/
def exceptionNames : List String :=
  ["#DE - Divide Error", "#DB - Debug", "NMI - Non-Maskable Interrupt", "#BP - Breakpoint",
   "#OF - Overflow", "#BR - Bound Range Exceeded", "#UD - Invalid Opcode",
   "#NM - Device Not Available", "#DF - Double Fault", "Coprocessor Segment Overrun",
   "#TS - Invalid TSS", "#NP - Segment Not Present", "#SS - Stack-Segment Fault",
   "#GP - General Protection Fault", "#PF - Page Fault", "Reserved",
   "#MF - x87 FPU Floating-Point Error", "#AC - Alignment Check", "#MC - Machine Check",
   "#XM - SIMD Floating-Point Exception", "#VE - Virtualization Exception",
   "#CP - Control Protection Exception", "Reserved", "Reserved", "Reserved", "Reserved",
   "Reserved", "Reserved", "#HV - Hypervisor Injection Exception",
   "#VC - VMM Communication Exception", "#SX - Security Exception", "Reserved"]

/-- The name of a vector. -/
def exceptionName (vector : UInt8) : String :=
  exceptionNames[vector.toNat]?.getD "Unknown Interrupt"

/-- How an exception vector is treated. -/
inductive Severity where
  /-- Never survived. -/
  | fatal
  /-- Fatal unless a handler is registered. -/
  | recoverable
  /-- Ignored unless a handler is registered. -/
  | benign
  deriving DecidableEq, Repr, Inhabited

/-- The class of a vector: debug and breakpoint are benign; device not
available, page fault, x87 and SIMD errors are recoverable. -/
def Severity.of (vector : UInt8) : Severity :=
  if vector = 1 ∨ vector = 3 then .benign
  else if vector = 7 ∨ vector = pageFaultVector ∨ vector = 16 ∨ vector = 19 then .recoverable
  else .fatal

/-- What to do with one delivery. -/
inductive Verdict (η : Type) where
  /-- Report it and stop. -/
  | fatal
  /-- Do nothing. -/
  | swallow
  /-- Run a handler. -/
  | handle (handler : η)
  deriving DecidableEq, Repr

/-- The rule for an exception vector, given what is registered for it. -/
def verdict {η : Type} (vector : UInt8) (handler : Option η) : Verdict η :=
  match Severity.of vector, handler with
  | .fatal, _ => .fatal
  | _, some handler => .handle handler
  | .recoverable, none => .fatal
  | .benign, none => .swallow

/-- An exception nobody could handle. -/
structure Unhandled where
  vector : UInt8
  name : String
  errorCode : UInt64
  rip : UInt64
  deriving DecidableEq, Repr, Inhabited

/-- The fatal exception that a frame stands for. -/
def Unhandled.ofFrame (f : Frame) : Unhandled :=
  ⟨f.number, exceptionName f.number, f.errorCode, f.rip⟩

/-- The line that names a fatal exception. -/
def Unhandled.message (e : Unhandled) : String :=
  "Exception: " ++ e.name ++ " (vector " ++ Text.decimal e.vector.toNat ++ ", error "
    ++ Text.hex e.errorCode.toNat ++ ", RIP " ++ Text.address e.rip.toNat ++ ")"

end Supervisor

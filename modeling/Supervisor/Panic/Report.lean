import Supervisor.Console.Color
import Supervisor.Interrupt.Exception

/-!
# Panic reports

What is shown when the kernel cannot go on: a header for the kind of failure, a
message, the registers, and the call trace.

- `Panic.Kind`: the kinds, with their headers and colours.
- `Panic.breachMessage`, `Panic.assertionMessage`: messages of two of them.
- `Panic.Site`: what a failure that code notices adds to that.
- `Panic.Report`, `Panic.Report.text`: a report and its text, which is the
  opening, the message and the body.
- `Panic.headline`: header and message in one line.
-/

namespace Supervisor.Panic

/-- What went wrong. -/
inductive Kind where
  /-- The kernel gave up. -/
  | normal
  /-- An assertion did not hold. -/
  | assertion
  /-- Something reached where it must not. -/
  | breach
  /-- An exception nobody could handle. -/
  | hardware
  deriving DecidableEq, Repr, Inhabited

namespace Kind

/-- The kinds by name. -/
def byName : List (String × Kind) :=
  [("normal", normal), ("assertion", assertion), ("breach", breach), ("hardware", hardware)]

/-- Foreground and background of a report. -/
def colors : Kind → Color × Color
  | normal => (.white, .black)
  | assertion => (.yellow, .black)
  | breach => (.white, .red)
  | hardware => (.white, .blue)

/-- The first line of a report. -/
def header : Kind → String
  | normal => "*** KERNEL PANIC ***"
  | assertion => "*** ASSERTION FAILED ***"
  | breach => "!!! PROTECTION BREACH DETECTED !!!"
  | hardware => "*** UNHANDLED CPU EXCEPTION ***"

end Kind

/-- The message of a breach. -/
def breachMessage (reason : String) (address : UInt64) : String :=
  "breach: " ++ reason ++ " at address " ++ Text.address address.toNat

/-- The message of a failed assertion, with details if any were given. -/
def assertionMessage (expression : String) (details : Option String) : String :=
  "assertion `" ++ expression ++ "` failed" ++
    match details with
    | none => ""
    | some d => ": " ++ d

/-- Header and message in one line. -/
def headline (kind : Kind) (message : String) : String :=
  kind.header ++ " " ++ message

/-- The control registers. -/
structure Control where
  cr0 : UInt64 := 0
  cr2 : UInt64 := 0
  cr3 : UInt64 := 0
  cr4 : UInt64 := 0
  deriving DecidableEq, Repr, Inhabited

/-- What code finds out about itself when it notices a failure. -/
structure Site where
  /-- How the place in the source reads. -/
  origin : String := ""
  /-- The registers. -/
  registers : Frame := {}
  /-- The call trace from there, innermost first. -/
  trace : List UInt64 := []
  deriving DecidableEq, Repr, Inhabited

/-- Everything a report shows. -/
structure Report where
  kind : Kind
  message : String
  /-- Where in the source it was raised, for a failure that code noticed. -/
  origin : Option String := none
  registers : Frame := {}
  control : Control := {}
  /-- The address a page fault was about. -/
  faultAddress : Option UInt64 := none
  /-- The call trace, innermost first. -/
  trace : List UInt64 := []
  deriving DecidableEq, Repr, Inhabited

namespace Report

/-- A register as a label and sixteen digits. -/
def wide (label : String) (value : UInt64) : String :=
  label ++ Text.hexPadded 16 value.toNat

/-- A register as a label and at least four digits. -/
def narrow (label : String) (value : UInt64) : String :=
  label ++ Text.hexPadded 4 value.toNat

/-- The general registers, instruction pointer, flags and segments. -/
def registerLines (r : Frame) : List String :=
  [wide " RAX: " r.rax ++ wide "  RBX: " r.rbx ++ wide "  RCX: " r.rcx,
   wide " RDX: " r.rdx ++ wide "  RSI: " r.rsi ++ wide "  RDI: " r.rdi,
   wide " RBP: " r.rbp ++ wide "  RSP: " r.rsp ++ wide "  R8:  " r.r8,
   wide " R9:  " r.r9 ++ wide "  R10: " r.r10 ++ wide "  R11: " r.r11,
   wide " R12: " r.r12 ++ wide "  R13: " r.r13 ++ wide "  R14: " r.r14,
   wide " R15: " r.r15,
   wide " RIP: " r.rip ++ wide "  RFLAGS: " r.rflags,
   narrow " CS: " r.cs ++ narrow "  SS: " r.ss ++ narrow "  DS: " r.ds ++ narrow "  ES: " r.es
     ++ narrow "  FS: " r.fs ++ narrow "  GS: " r.gs]

/-- The control registers. -/
def controlLines (c : Control) : List String :=
  [wide " CR0: " c.cr0 ++ wide "  CR2: " c.cr2, wide " CR3: " c.cr3 ++ wide "  CR4: " c.cr4]

/-- One line of the call trace. -/
def traceLine (depth : Nat) (address : UInt64) : String :=
  " [" ++ Text.decimalRight 2 depth ++ "] " ++ Text.address address.toNat

/-- The lines before the message. -/
def openingLines (r : Report) : List String :=
  [r.kind.header, ""]

/-- The lines behind the message. -/
def bodyLines (r : Report) : List String :=
  (r.origin.map ("At " ++ ·)).toList
    ++ (r.faultAddress.map fun a => "Faulting address (CR2): " ++ Text.address a.toNat).toList
    ++ ["", "Registers:"] ++ registerLines r.registers ++ controlLines r.control
    ++ ["", "Call trace:"] ++ r.trace.mapIdx traceLine
    ++ ["", "System halted."]

/-- Lines as text, each with its end. -/
def unlines (lines : List String) : String :=
  String.join (lines.map (· ++ "\n"))

/-- The text before the message. -/
def opening (r : Report) : String :=
  unlines r.openingLines

/-- The text behind the message. -/
def body (r : Report) : String :=
  "\n" ++ unlines r.bodyLines

/-- The whole report. -/
def text (r : Report) : String :=
  r.opening ++ r.message ++ r.body

end Report

end Supervisor.Panic

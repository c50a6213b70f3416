import Supervisor.Interrupt.Core
import Supervisor.Interrupt.Stub

/-!
# Interrupt entry and return

The instructions around the routing of an interrupt. Entry pushes what the
processor did not, so that the stack holds an interrupt frame, and calls the
router with the frame's address and an aligned stack; return takes everything
back from the frame, wherever the router changed it.

- `Entry.stub`: the instructions of a vector's stub.
- `Entry.save`, `Entry.restore`: the instructions all vectors share, before and
  after the call.
- `Entry.enter`: from the interrupted code to the call of the router.
- `Entry.leave`: from the router's return to the code that goes on.
- `Core.ofFrame`, `Core.toFrame`: the registers as one value.
-/

namespace Supervisor

namespace Entry

/-- The pushes of a stub: a zero in place of an error code, unless it counts on
the processor for one, and the vector. -/
def stub (vector : UInt8) : List Instruction :=
  (if Stub.omitsZero vector then [] else [.pushImmediate 0])
    ++ [.pushImmediate vector.toUInt64]

/-- The general registers in the order they are pushed. -/
def saved : List Register :=
  [.rax, .rbx, .rcx, .rdx, .rsi, .rdi, .rbp, .r8, .r9, .r10, .r11, .r12, .r13, .r14, .r15]

/-- Saves the registers, loads the kernel's data segment, and prepares the call:
`rdi` gets the frame's address and `rbx` keeps it. -/
def save : List Instruction :=
  saved.map .push
    ++ [.fromSegment .ds .rax, .push .rax, .fromSegment .es .rax, .push .rax,
        .pushSegment .fs, .pushSegment .gs,
        .setLow .rax Segment.kernelDataSelector, .toSegment .rax .ds, .toSegment .rax .es,
        .toSegment .rax .fs, .toSegment .rax .gs,
        .fromStack .rdi, .fromStack .rbx, .alignStack, .clearDirection]

/-- Restores the registers and takes vector and error code off the stack. -/
def restore : List Instruction :=
  [.toStack .rbx, .popSegment .gs, .popSegment .fs,
   .pop .rax, .toSegment .rax .es, .pop .rax, .toSegment .rax .ds]
    ++ saved.reverse.map .pop ++ [.drop 2]

/-- The core at the call of the router. The error code only counts for the
vectors that have one. -/
def enter (c : Core) (vector : UInt8) (errorCode : UInt64) : Core :=
  let pushed := if hasErrorCode vector then some errorCode else none
  (c.interrupt pushed).run (stub vector ++ save)

/-- The core of the code that goes on, from the one the router returned with. -/
def leave (c : Core) : Core :=
  (c.run restore).iretq

end Entry

namespace Core

/-- The registers that a frame's fields name. -/
def ofFrame (f : Frame) : Core where
  general
    | .rax => f.rax
    | .rbx => f.rbx
    | .rcx => f.rcx
    | .rdx => f.rdx
    | .rsi => f.rsi
    | .rdi => f.rdi
    | .rbp => f.rbp
    | .r8 => f.r8
    | .r9 => f.r9
    | .r10 => f.r10
    | .r11 => f.r11
    | .r12 => f.r12
    | .r13 => f.r13
    | .r14 => f.r14
    | .r15 => f.r15
  segment
    | .ds => f.ds.toUInt16
    | .es => f.es.toUInt16
    | .fs => f.fs.toUInt16
    | .gs => f.gs.toUInt16
  cs := f.cs
  ss := f.ss
  rip := f.rip
  rflags := f.rflags
  rsp := f.rsp

/-- The registers as fields of a frame; vector and error code are zero. -/
def toFrame (c : Core) : Frame where
  gs := (c.segment .gs).toUInt64
  fs := (c.segment .fs).toUInt64
  es := (c.segment .es).toUInt64
  ds := (c.segment .ds).toUInt64
  r15 := c.general .r15
  r14 := c.general .r14
  r13 := c.general .r13
  r12 := c.general .r12
  r11 := c.general .r11
  r10 := c.general .r10
  r9 := c.general .r9
  r8 := c.general .r8
  rbp := c.general .rbp
  rdi := c.general .rdi
  rsi := c.general .rsi
  rdx := c.general .rdx
  rcx := c.general .rcx
  rbx := c.general .rbx
  rax := c.general .rax
  rip := c.rip
  cs := c.cs
  rflags := c.rflags
  rsp := c.rsp
  ss := c.ss

/-- The frame whose address a core passes to the router. -/
def frame (c : Core) : Frame :=
  .load c.words (c.general .rdi)

/-- Replaces that frame. -/
def setFrame (c : Core) (f : Frame) : Core :=
  { c with words := f.store c.words (c.general .rdi) }

end Core

end Supervisor

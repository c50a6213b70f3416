import Supervisor.Memory

/-!
# Call traces

Compiled code keeps a chain of stack frames: the frame pointer names a pair of
words, the caller's frame pointer and the address to return to. `Trace.walk`
follows the chain and lists the return addresses.

- `Trace.followable`: whether a frame pointer may be followed at all.
- `Trace.walk`: at most sixteen return addresses. The walk ends at a frame
  pointer that is not valid, at a return address of zero, and behind a frame
  whose caller is not higher on the stack. A word outside the readable part of
  memory ends it too and is reported.
- `Trace.record`: writes the addresses into slots and leaves the others alone.
-/

namespace Supervisor.Trace

/-- The most return addresses that are listed. -/
abbrev depthLimit : Nat := 16

/-- A valid frame pointer is a multiple of eight above the first page and below
the top of the address space. -/
def followable (rbp : UInt64) : Bool :=
  rbp != 0 && rbp % 8 == 0 && 0x1000 < rbp && rbp < 0xFFFFFFFFFFFFFF00

/-- The return addresses of a chain, and the address at which it could not be
read. -/
structure Chain where
  returns : List UInt64 := []
  unreadable : Option Nat := none
  deriving DecidableEq, Repr, Inhabited

/-- Follows a chain of at most `fuel` frames. -/
def follow (readable : Nat → Bool) (m : Memory) : Nat → UInt64 → Chain
  | 0, _ => {}
  | fuel + 1, rbp =>
    if followable rbp then
      if readable (rbp.toNat + 8) then
        let back := UInt64.ofNat (m.word (rbp.toNat + 8))
        if back = 0 then {}
        else if readable rbp.toNat then
          let caller := UInt64.ofNat (m.word rbp.toNat)
          let rest := if rbp < caller then follow readable m fuel caller else {}
          { rest with returns := back :: rest.returns }
        else { returns := [back], unreadable := some rbp.toNat }
      else { unreadable := some (rbp.toNat + 8) }
    else {}

/-- The chain from a frame pointer, at most `depthLimit` long. -/
def walk (readable : Nat → Bool) (m : Memory) (rbp : UInt64) : Chain :=
  follow readable m depthLimit rbp

/-- Writes addresses into the first slots. -/
def record (slots returns : List UInt64) : List UInt64 :=
  returns ++ slots.drop returns.length

/-- A trace of at most sixteen addresses that starts with the interrupted
instruction. -/
def ofInterrupted (rip : UInt64) (returns : List UInt64) : List UInt64 :=
  (rip :: returns).take depthLimit

end Supervisor.Trace

import Supervisor.Interrupt.Frame
import Supervisor.Interrupt.Gate

/-!
# Entry stubs

Each vector has a stub of sixteen bytes. It pushes a zero in place of an error
code, unless the processor pushes one for that vector, then the vector, and
joins the code that saves the registers.

- `hasErrorCode`: the vectors for which the processor pushes an error code.
- `Stub.omitsZero`: the vectors for which the stub counts on that.
- `Stub.address`, `Stub.pushes`: where a stub lies and how its pushes are
  encoded.
- `Idt.ofStubs`: the interrupt table that sends every vector to its stub.
-/

namespace Supervisor

/-- Whether the processor pushes an error code for a vector. -/
def hasErrorCode (vector : UInt8) : Bool :=
  vector == 8 || (10 ≤ vector && vector ≤ 14) || vector == 17 || vector == 21 || vector == 30

namespace Stub

/-- Bytes per stub. -/
abbrev slotSize : UInt64 := 16

/-- Where the stub of a vector lies behind the first one. -/
def offset (vector : UInt8) : UInt64 :=
  vector.toUInt64 * slotSize

/-- The stub of a vector, the first one being at `base`. -/
def address (base : UInt64) (vector : UInt8) : UInt64 :=
  base + offset vector

/-- Whether an address is inside the stubs. -/
def contains (base address : UInt64) : Bool :=
  (address - base).toNat < 256 * slotSize.toNat

/-- Whether the stub of a vector pushes no zero, its error code being there already. -/
def omitsZero (vector : UInt8) : Bool :=
  vector == 8 || (vector ≥ 10 && vector ≤ 14) || vector == 17 || vector == 21 || vector == 30

/-- The encoded pushes of a stub: `6a` pushes a byte, which is sign-extended,
and `68` four bytes. -/
def pushes (vector : UInt8) : List UInt8 :=
  (if omitsZero vector then [] else [0x6a, 0])
    ++ (if vector < 128 then [0x6a, vector] else [0x68, vector, 0, 0, 0])

end Stub

/-- The table that sends every vector to its stub: present, for ring 0, with
interrupts off on entry. -/
def Idt.ofStubs (base : UInt64) : Idt :=
  ⟨fun vector => Gate.encode (Stub.address base vector) .interrupt 0⟩

end Supervisor

import Supervisor.Memory

/-!
# Block headers

A heap block starts with a header that lives in memory at the block's address:

| offset | width | field                                     |
|--------|-------|-------------------------------------------|
| 0      | 8     | size of the block, the header included    |
| 8      | 1     | free flag (its lowest bit), then 7 unused |
| 16     | 8     | address of the next block, 0 for none     |
| 24     | 8     | address of the previous block, 0 for none |

`Header.readAt` reads all four fields and `Header.writeAt` writes all of them; the
`set…At` functions write one field and touch no byte outside it. Nothing marks
bytes as a header: reading one from any address gives some answer.
-/

namespace Supervisor

/-- The fields of a block header. -/
structure Header where
  /-- Bytes in the block, header included. -/
  size : Nat
  /-- Whether the block is free. -/
  free : Bool
  /-- The following block in address order, or 0. -/
  next : Nat
  /-- The preceding block in address order, or 0. -/
  prev : Nat
  deriving DecidableEq, Repr, Inhabited

namespace Header

/-- Bytes a header takes. -/
abbrev bytes : Nat := 32

/-- The size field of the header at `block`. -/
def sizeAt (m : Memory) (block : Nat) : Nat :=
  m.word block

/-- The free flag of the header at `block`. -/
def freeAt (m : Memory) (block : Nat) : Bool :=
  m.read (block + 8) % 2 == 1

/-- The link of the header at `block` to the next block. -/
def nextAt (m : Memory) (block : Nat) : Nat :=
  m.word (block + 16)

/-- The link of the header at `block` to the previous block. -/
def prevAt (m : Memory) (block : Nat) : Nat :=
  m.word (block + 24)

/-- All fields of the header at `block`. -/
def readAt (m : Memory) (block : Nat) : Header where
  size := sizeAt m block
  free := freeAt m block
  next := nextAt m block
  prev := prevAt m block

/-- Writes the size field. -/
def setSizeAt (m : Memory) (block size : Nat) : Memory :=
  m.setWord block size

/-- Writes the free flag. -/
def setFreeAt (m : Memory) (block : Nat) (free : Bool) : Memory :=
  m.write (block + 8) free.toUInt8

/-- Writes the link to the next block. -/
def setNextAt (m : Memory) (block next : Nat) : Memory :=
  m.setWord (block + 16) next

/-- Writes the link to the previous block. -/
def setPrevAt (m : Memory) (block prev : Nat) : Memory :=
  m.setWord (block + 24) prev

/-- Writes a whole header; the unused bytes behind the flag become zero. -/
def writeAt (m : Memory) (block : Nat) (h : Header) : Memory :=
  let m := m.setWord block h.size
  let m := m.setWord (block + 8) h.free.toNat
  let m := m.setWord (block + 16) h.next
  m.setWord (block + 24) h.prev

end Header

end Supervisor

import Supervisor.Heap.Basic

/-!
# The kernel's allocator interface

What the rest of the kernel asks of the heap: zeroed memory, and an interface
in which every request carries a size and an alignment.

- `Heap.allocZeroed`: an allocation of zeros.
- `Allocator.alloc`, `Allocator.allocZeroed`, `Allocator.dealloc`,
  `Allocator.realloc`: the interface with layouts. Resizing at an alignment
  beyond eight always moves, since a block only keeps its place, not its
  alignment.
-/

namespace Supervisor

/-- Zeroes `size` bytes at an address, if there is one. -/
def Heap.zeroAt (size : Nat) (address : Option Nat) : HeapM (Option Nat) := do
  if let some address := address then
    change (Memory.fill · address size 0)
  return address

/-- Allocates `size` zero bytes. -/
def Heap.allocZeroed (size : Nat) : HeapM (Option Nat) := do
  zeroAt size (← alloc size)

/-- What is known about an allocation. -/
structure Layout where
  size : Nat
  align : Nat
  deriving DecidableEq, Repr, Inhabited

namespace Allocator

/-- Allocates for a layout. -/
def alloc (l : Layout) : HeapM (Option Nat) :=
  Heap.allocAligned l.size l.align

/-- Allocates zero bytes for a layout. -/
def allocZeroed (l : Layout) : HeapM (Option Nat) := do
  Heap.zeroAt l.size (← alloc l)

/-- Frees an allocation; no address, no effect. -/
def dealloc (address : Option Nat) : HeapM (Except PointerError Unit) :=
  match address with
  | none => return .ok ()
  | some address => Heap.free address

/-- Resizes an allocation that was made for `l`. -/
def realloc (address : Option Nat) (l : Layout) (size : Nat) :
    HeapM (Except PointerError (Option Nat)) := do
  if Heap.grain < l.align then
    match ← alloc ⟨size, l.align⟩ with
    | none => return .ok none
    | some moved =>
      Heap.change (Memory.copy · (address.getD 0) moved (min l.size size))
      match ← dealloc address with
      | .ok () => return .ok (some moved)
      | .error e => return .error e
  else
    Heap.realloc address size

end Allocator

end Supervisor

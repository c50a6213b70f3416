import Supervisor.Heap.Allocator
import Supervisor.Machine.Fatal

/-!
# Frames and heap of the machine

The frame map and the heap of the running kernel, both kept in its memory and
reached through their locks.

- `Machine.framesInit`: the frame map, placed behind the kernel image.
- `Machine.onFrames`: an operation on it, of which `Machine.allocFrame`,
  `Machine.allocFrames`, `Machine.allocZeroedFrames`, `Machine.freeFrame` and
  `Machine.freeFrames` are the kernel's.
- `Machine.heapInit`, `Machine.onHeap`, `Machine.orPanic`: the heap. A refused
  pointer is fatal.
- `Machine.alloc`, `Machine.allocAligned`, `Machine.allocZeroed`,
  `Machine.realloc`, `Machine.free`, `Machine.capacity`: the kernel's operations
  on it; `Machine.allocFor`, `Machine.allocZeroedFor`, `Machine.reallocFor`,
  `Machine.deallocFor`: those that carry layouts.
- `Machine.storeInit`: both, in the order the kernel comes up.
-/

namespace Supervisor.Machine

/-! ## Frames -/

/-- The frame map that memory holds. -/
def frameMapOf (m : Memory) (a : FrameArea) : FrameMap where
  storage := Array.ofFn fun i : Fin a.words => BitVec.ofNat 64 (m.word (a.base + 8 * i.val))
  total := a.total
  free := a.free

/-- The bytes of bitmap words, each least significant byte first. -/
def wordBytes (words : Array (BitVec 64)) : List UInt8 :=
  words.toList.flatMap fun w => (List.range 8).map fun i => UInt8.ofNat (w.toNat >>> (8 * i))

/-- Puts a frame map back. -/
def putFrameMap (a : FrameArea) (f : FrameMap) (k : Kernel) : Kernel :=
  { k with
    memory := k.memory.writeBytes a.base (wordBytes f.storage)
    frames := some { a with total := f.total, free := f.free } }

/-- A locked operation on the frame map; `missing` before there is one. -/
def onFrames {α : Type} (missing : α) (body : FrameM α) : MachineM α :=
  Board.locked .frames do
    let k ← look id
    match k.frames with
    | none => return missing
    | some area =>
      match body.run (frameMapOf k.memory area) with
      | .ok a f =>
        change (putFrameMap area f)
        return a
      | .error e f =>
        change (putFrameMap area f)
        throw (.fault e)

/-- The counters of the frame map, zero before there is one. -/
def frameStats : MachineM FrameStats :=
  onFrames {} do (← get).stats

/-- Sets up the frame map of `[0, upperBound)`, its words on the first pages
behind `kernel`. Low memory, the kernel and the words are in use. -/
def framesInit (upperBound : Nat) (kernel : Span) : MachineM (Except FrameError FrameStats) := do
  let words := FrameMap.wordCount (upperBound / Page.bytes)
  let bytes ← Checked.mul words 8
  let bump ← Bump.ofStart kernel.stop upperBound
  match ← bump.alloc bytes with
  | (none, _) => return .error (.noRoomForBitmap bytes)
  | (some span, _) =>
    let area : FrameArea := ⟨span.start, words, 0, 0⟩
    let storage := (frameMapOf (← look (·.memory)) area).storage
    let reserved : List Span := [⟨0, FrameMap.lowMemory⟩, kernel, span]
    match ← FrameMap.build upperBound storage reserved with
    | .error e => return .error e
    | .ok f =>
      let stats ← f.stats
      Board.locked .frames (change (putFrameMap area f))
      info "pmm"
        (Text.decimal stats.total ++ " frames managed, " ++ Text.decimal stats.free
          ++ " free, bitmap at " ++ Text.hex span.start ++ ".." ++ Text.hex span.stop)
      return .ok stats

/-- Allocates a frame. -/
def allocFrame : MachineM (Option Nat) :=
  onFrames none FrameMap.allocFrame

/-- Allocates a run of frames. -/
def allocFrames (count : Nat) : MachineM (Option Nat) :=
  onFrames none (FrameMap.allocRun count)

/-- Gives a frame back. -/
def freeFrame (address : Nat) : MachineM Unit :=
  onFrames () (FrameMap.freeFrame address)

/-- Gives a run of frames back. -/
def freeFrames (address count : Nat) : MachineM Unit :=
  onFrames () (FrameMap.freeRun address count)

/-- Allocates a run of frames filled with zeros. -/
def allocZeroedFrames (count : Nat) : MachineM (Option Nat) := do
  let run ← allocFrames count
  if let some address := run then
    let bytes ← Checked.mul count Page.bytes
    changeMemory (Memory.fill · address bytes 0)
  return run

/-! ## The heap -/

/-- A locked operation on the heap. -/
def onHeap {α : Type} (body : HeapM α) : MachineM α :=
  Board.locked .heap do
    let k ← look id
    match body.run ⟨k.heap, k.memory⟩ with
    | .ok a s =>
      change fun k => { k with heap := s.heap, memory := s.memory }
      return a
    | .error e s =>
      change fun k => { k with heap := s.heap, memory := s.memory }
      throw (.fault e)

/-- An operation on the heap whose refusal is fatal. -/
def orPanic {α : Type} (body : HeapM (Except PointerError α)) : MachineM α := do
  match ← onHeap body with
  | .ok a => return a
  | .error e => panic .normal ("heap: " ++ e.message)

/-- Allocates memory. -/
def alloc (size : Nat) : MachineM (Option Nat) :=
  onHeap (Heap.alloc size)

/-- Allocates memory at a multiple of `align`. -/
def allocAligned (size align : Nat) : MachineM (Option Nat) :=
  onHeap (Heap.allocAligned size align)

/-- Allocates memory filled with zeros. -/
def allocZeroed (size : Nat) : MachineM (Option Nat) :=
  onHeap (Heap.allocZeroed size)

/-- Resizes an allocation. -/
def realloc (address : Option Nat) (size : Nat) : MachineM (Option Nat) :=
  orPanic (Heap.realloc address size)

/-- Frees an allocation. -/
def free (address : Nat) : MachineM Unit :=
  orPanic (Heap.free address)

/-- Bytes an allocation can hold. -/
def capacity (address : Nat) : MachineM Nat :=
  onHeap (Heap.capacity address)

/-- How much of the heap is in use. -/
def heapStats : MachineM HeapUsage :=
  onHeap Heap.stats

/-- Allocates for a layout. -/
def allocFor (l : Layout) : MachineM (Option Nat) :=
  onHeap (Allocator.alloc l)

/-- Allocates zeros for a layout. -/
def allocZeroedFor (l : Layout) : MachineM (Option Nat) :=
  onHeap (Allocator.allocZeroed l)

/-- Resizes an allocation made for a layout. -/
def reallocFor (address : Option Nat) (l : Layout) (size : Nat) : MachineM (Option Nat) :=
  orPanic (Allocator.realloc address l size)

/-- Frees an allocation made for a layout. -/
def deallocFor (address : Option Nat) : MachineM Unit :=
  orPanic (Allocator.dealloc address)

/-- Sets up the heap; a region without room for one block is fatal. -/
def heapInit (base size : Nat) : MachineM Unit := do
  let stats ← onHeap do
    Heap.init base size
    Heap.stats
  assertThat (0 < stats.total) "stats.total > 0"
    (some ("heap region " ++ Text.hex base ++ "+" ++ Text.hex size ++ " is too small"))
  info "heap"
    (Text.decimal (stats.total / 1024) ++ " KiB free-list heap at " ++ Text.hex base)

/-! ## Both -/

/-- Bytes per MiB. -/
abbrev mebibyte : Nat := 1024 * 1024

/-- Takes the frames of the heap: as many as wanted, else the smaller number.
The answer is their address and the size. -/
def takeHeapFrames (size fallback : Nat) : MachineM (Nat × Nat) := do
  if let some base ← allocFrames (size / Page.bytes) then
    return (base, size)
  warn "mm"
    ("no " ++ Text.decimal (size / 1024) ++ " KiB run for the heap, retrying with "
      ++ Text.decimal (fallback / 1024) ++ " KiB")
  if let some base ← allocFrames (fallback / Page.bytes) then
    return (base, fallback)
  panic .normal "cannot reserve kernel heap"

/-- Sets up the frame map, then the heap on frames of its own. -/
def storeInit (upperBound size fallback : Nat) (kernel : Span) : MachineM Unit := do
  match ← framesInit upperBound kernel with
  | .error e => panic .normal ("pmm init failed: " ++ e.message)
  | .ok stats =>
    let total ← stats.totalBytes
    let free ← stats.freeBytes
    info "mm"
      (Text.decimal (total / mebibyte) ++ " MiB managed, " ++ Text.decimal (free / mebibyte)
        ++ " MiB free")
    let (base, size) ← takeHeapFrames size fallback
    heapInit base size

end Supervisor.Machine

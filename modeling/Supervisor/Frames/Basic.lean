import Supervisor.Text
import Supervisor.Frames.Bump

/-!
# The frame map

Page frames of `[0, total * 4096)` are tracked by one bit each: set for a frame
in use, clear for a free one. The bits stand in 64-bit words of a storage that
may be longer than needed; bits past the last frame in the last word are set
and stay so.

- `FrameMap.build`: the map of a memory, with every frame touched by a
  reserved span in use.
- `FrameMap.allocFrame`, `FrameMap.allocRun`: the lowest free frame, the lowest
  run of free frames.
- `FrameMap.freeFrame`, `FrameMap.freeRun`: giving frames back. Addresses below
  1 MiB, past the last frame or off a page boundary, and frames that are free
  already, are passed over.
- `FrameMap.stats`: the counters.

Reads and writes of bits are checked against the words in use, and every
counter update is a checked difference or sum.
-/

namespace Supervisor

/-- Why no frame map could be built. -/
inductive FrameError where
  /-- The storage has fewer words than the map needs. -/
  | bitmapTooSmall (needed available : Nat)
  /-- No memory is left behind the kernel image for the storage. -/
  | noRoomForBitmap (bytes : Nat)
  deriving DecidableEq, Repr, Inhabited

/-- The wording of a failure. -/
def FrameError.message : FrameError → String
  | .bitmapTooSmall needed available =>
    "bitmap needs " ++ Text.decimal needed ++ " words, storage has " ++ Text.decimal available
  | .noRoomForBitmap bytes =>
    "no room for a " ++ Text.decimal bytes ++ " byte bitmap after the kernel image"

/-- How many frames there are, are free and are in use. -/
structure FrameStats where
  total : Nat := 0
  free : Nat := 0
  used : Nat := 0
  deriving DecidableEq, Repr, Inhabited

namespace FrameStats

/-- Bytes in all frames. -/
def totalBytes (s : FrameStats) : Except Fault Nat :=
  Checked.mul s.total Page.bytes

/-- Bytes in the free frames. -/
def freeBytes (s : FrameStats) : Except Fault Nat :=
  Checked.mul s.free Page.bytes

end FrameStats

/-- The bits of all frames and the number of free ones. -/
structure FrameMap where
  /-- The words of bits; those past `words` belong to somebody else. -/
  storage : Array (BitVec 64)
  /-- Number of frames tracked. -/
  total : Nat
  /-- Number of free frames. -/
  free : Nat
  deriving DecidableEq, Repr, Inhabited

/-- A computation on a frame map. A fault keeps the map as it was then. -/
abbrev FrameM := EStateM Fault FrameMap

namespace FrameMap

/-- Frames below this address are never given back. -/
abbrev lowMemory : Nat := 0x100000

/-- Bits per word. -/
abbrev wordBits : Nat := 64

/-- Words that hold the bits of the given number of frames. -/
def wordCount (frames : Nat) : Nat :=
  (frames + (wordBits - 1)) / wordBits

/-- Words in use. -/
def words (f : FrameMap) : Nat :=
  wordCount f.total

/-! ## Bits -/

/-- The word with the bit of `frame`, checked against the words in use. -/
def wordOf (f : FrameMap) (frame : Nat) : Except Fault (BitVec 64) :=
  if frame / wordBits < f.words then .ok (f.storage.getD (frame / wordBits) 0)
  else .error (.indexOutOfBounds f.words (frame / wordBits))

/-- Whether `frame` is in use. -/
def inUse (f : FrameMap) (frame : Nat) : Except Fault Bool := do
  return (← f.wordOf frame).getLsbD (frame % wordBits)

/-- Replaces the word with the bit of `frame`. -/
def updateWord (frame : Nat) (g : BitVec 64 → BitVec 64) : FrameM Unit := do
  let word ← (← get).wordOf frame
  modify fun f => { f with storage := f.storage.setIfInBounds (frame / wordBits) (g word) }

/-- Sets the bit of `frame`. -/
def mark (frame : Nat) : FrameM Unit :=
  updateWord frame (· ||| BitVec.twoPow 64 (frame % wordBits))

/-- Clears the bit of `frame`. -/
def clear (frame : Nat) : FrameM Unit :=
  updateWord frame (· &&& ~~~ BitVec.twoPow 64 (frame % wordBits))

/-- Takes from the number of free frames. -/
def subFree (count : Nat) : FrameM Unit := do
  let free ← Checked.sub (← get).free count
  modify fun f => { f with free }

/-- Adds one to the number of free frames. -/
def addFree : FrameM Unit := do
  let free ← Checked.add (← get).free 1
  modify fun f => { f with free }

/-! ## Building -/

/-- Puts `frame` in use if it is free. -/
def reserveFrame (frame : Nat) : FrameM Unit := do
  if !(← (← get).inUse frame) then
    mark frame
    subFree 1

/-- Puts every frame in use that shares a byte with `span`. -/
def reserve (span : Span) : FrameM Unit := do
  let first := span.start / Page.bytes
  let last := min ((span.stop + (Page.bytes - 1)) / Page.bytes) (← get).total
  (List.range' first (last - first)).forM reserveFrame

/-- All frames of `[0, upperBound)` free. -/
def blank (upperBound : Nat) (storage : Array (BitVec 64)) : FrameMap :=
  let total := upperBound / Page.bytes
  let words := wordCount total
  let cleared := storage.mapIdx fun i w => if i < words then 0 else w
  let tail := total % wordBits
  let bits := if tail ≠ 0 then cleared.setIfInBounds (words - 1) (BitVec.allOnes 64 <<< tail) else cleared
  ⟨bits, total, total⟩

/-- The map of `[0, upperBound)` over `storage`, with the reserved spans in
use. -/
def build (upperBound : Nat) (storage : Array (BitVec 64)) (reserved : List Span) :
    Except Fault (Except FrameError FrameMap) :=
  let needed := wordCount (upperBound / Page.bytes)
  if storage.size < needed then
    .ok (.error (.bitmapTooSmall needed storage.size))
  else
    match (reserved.forM reserve).run (blank upperBound storage) with
    | .ok () f => .ok (.ok f)
    | .error e _ => .error e

/-! ## Allocating -/

/-- The place of the lowest clear bit, 64 if there is none. -/
def lowestClear (w : BitVec 64) : Nat :=
  ((List.range wordBits).find? fun i => !w.getLsbD i).getD wordBits

/-- The first word in use, from `index` on, that has a clear bit. -/
def firstRoom (f : FrameMap) (index : Nat) : Option Nat :=
  if index < f.words then
    if f.storage.getD index 0 ≠ BitVec.allOnes 64 then some index
    else firstRoom f (index + 1)
  else none
  termination_by f.words - index

/-- Allocates the lowest free frame and returns its address. -/
def allocFrame : FrameM (Option Nat) := do
  let f ← get
  if f.free = 0 then
    return none
  let some index := f.firstRoom 0 | return none
  let base ← Checked.mul index wordBits
  let frame ← Checked.add base (lowestClear (f.storage.getD index 0))
  if f.total ≤ frame then
    return none
  mark frame
  subFree 1
  some <$> Checked.mul frame Page.bytes

/-- The least of the offsets `offset, …, offset + count - 1` at which a frame
from `start` on is in use. -/
def firstUsed (f : FrameMap) (start : Nat) : Nat → Nat → Except Fault (Option Nat)
  | 0, _ => return none
  | count + 1, offset => do
    if ← f.inUse (← Checked.add start offset) then return some offset
    else firstUsed f start count (offset + 1)

/-- The least start, from `start` on, of a run of `count` free frames. After a
frame in use the search goes on just behind it. -/
def findRun (f : FrameMap) (count : Nat) : Nat → Nat → Except Fault (Option Nat)
  | 0, _ => return none
  | fuel + 1, start => do
    if (← Checked.add start count) ≤ f.total then
      match ← f.firstUsed start count 0 with
      | some offset => findRun f count fuel (← Checked.add start (← Checked.add offset 1))
      | none => return some start
    else return none

/-- Allocates the lowest run of `count` free frames and returns its address. -/
def allocRun (count : Nat) : FrameM (Option Nat) := do
  if count = 0 then
    return none
  if count = 1 then
    allocFrame
  else
    let f ← get
    if f.free < count then
      return none
    match ← (f.findRun count (f.total + 1) 0 : Except Fault _) with
    | none => return none
    | some start =>
      (List.range' start count).forM mark
      subFree count
      some <$> Checked.mul start Page.bytes

/-! ## Freeing -/

/-- Gives back the frame at `address`. -/
def freeFrame (address : Nat) : FrameM Unit := do
  if address < lowMemory || !Page.isAligned address then
    return
  let frame := address / Page.bytes
  if (← get).total ≤ frame then
    return
  if ← (← get).inUse frame then
    clear frame
    addFree

/-- Gives back the frames at the given page numbers behind `address`, as long
as their addresses are words. -/
def freeFrom (address : Nat) : List Nat → FrameM Unit
  | [] => return
  | index :: rest => do
    if address + index * Page.bytes < wordLimit then
      freeFrame (address + index * Page.bytes)
      freeFrom address rest

/-- Gives back `count` frames from `address` on. -/
def freeRun (address count : Nat) : FrameM Unit := do
  let first := address / Page.bytes
  let total := (← get).total
  if total ≤ first then
    return
  freeFrom address (List.range (min count (total - first)))

/-! ## Looking -/

/-- Whether the frame at `address` is in use; memory past the last frame is. -/
def inUseAt (f : FrameMap) (address : Nat) : Except Fault Bool :=
  let frame := address / Page.bytes
  if f.total ≤ frame then .ok true else f.inUse frame

/-- The counters. -/
def stats (f : FrameMap) : Except Fault FrameStats := do
  return ⟨f.total, f.free, ← Checked.sub f.total f.free⟩

end FrameMap

end Supervisor

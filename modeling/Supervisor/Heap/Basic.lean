import Supervisor.Fault
import Supervisor.Text
import Supervisor.Heap.Header

/-!
# The kernel heap

A first-fit allocator over one contiguous region. The region is tiled by
blocks in address order; each block carries its header in memory, and the
headers form a doubly linked list from `Heap.head`.

- `Heap`, `Arena`: the allocator's own bookkeeping, and that bookkeeping
  together with the memory that holds the headers.
- `Heap.blocks`: the block list as the links in memory spell it, and
  `Heap.find`, which goes along it only as far as it has to.
- `Heap.init`, `Heap.alloc`, `Heap.allocAligned`, `Heap.free`, `Heap.realloc`,
  `Heap.capacity`, `Heap.stats`: the operations, each a computation on an
  `Arena` that may fault.

An allocation takes the first block of the list that is large enough. A block whose rest
could hold a header and sixteen more bytes is split; a freed block merges with
a free successor, then with a free predecessor. `Heap.free` and `Heap.realloc`
refuse pointers that are not live with a `PointerError`.
-/

namespace Supervisor

/-- Why a pointer was refused. -/
inductive PointerError where
  /-- The address cannot be that of an allocation. -/
  | invalidPointer (address : Nat)
  /-- The block at the address is already free. -/
  | doubleFree (address : Nat)
  deriving DecidableEq, Repr, Inhabited

/-- The wording of a refusal. -/
def PointerError.message : PointerError → String
  | .invalidPointer address => "invalid free of " ++ Text.hex address
  | .doubleFree address => "double free of " ++ Text.hex address

/-- The bookkeeping of a heap over `[start, limit)`. -/
structure Heap where
  /-- Address of the first block. -/
  start : Nat := 0
  /-- One past the last byte of the region. -/
  limit : Nat := 0
  /-- The first block of the list, or 0 for a heap without a region. -/
  head : Nat := 0
  /-- Bytes in live blocks, headers included. -/
  used : Nat := 0
  /-- Number of live blocks. -/
  count : Nat := 0
  deriving DecidableEq, Repr, Inhabited

/-- A heap and the memory it lives in. -/
structure Arena where
  heap : Heap := {}
  memory : Memory := {}

/-- A computation on an arena. A fault keeps the arena as it was then. -/
abbrev HeapM := EStateM Fault Arena

/-- A block of the list. -/
structure Block where
  /-- Where its header starts. -/
  address : Nat
  /-- Its bytes, header included. -/
  size : Nat
  /-- Whether it is free. -/
  free : Bool
  deriving DecidableEq, Repr, Inhabited

/-- How much of a heap is in use. -/
structure HeapUsage where
  /-- Bytes in the region. -/
  total : Nat
  /-- Bytes in live blocks. -/
  used : Nat
  /-- Number of live blocks. -/
  count : Nat
  deriving DecidableEq, Repr, Inhabited

namespace Heap

/-- Every block size and every allocation is a multiple of this. -/
abbrev grain : Nat := 8

/-- Alignment of the region's first block. -/
abbrev regionAlign : Nat := 16

/-- A block is split only if more than this would be left over. -/
abbrev splitSlack : Nat := Header.bytes + 16

/-! ## Memory access -/

/-- Something read from memory. -/
def inspect {α : Type} (f : Memory → α) : HeapM α :=
  return f (← get).memory

/-- A change to memory. -/
def change (f : Memory → Memory) : HeapM Unit :=
  modify fun a => { a with memory := f a.memory }

/-- Adds to `used`. -/
def addUsed (size : Nat) : HeapM Unit := do
  let used ← Checked.add (← get).heap.used size
  modify fun a => { a with heap.used := used }

/-- Takes from `used`. -/
def subUsed (size : Nat) : HeapM Unit := do
  let used ← Checked.sub (← get).heap.used size
  modify fun a => { a with heap.used := used }

/-- Counts one more live block. -/
def addCount : HeapM Unit := do
  let count ← Checked.add (← get).heap.count 1
  modify fun a => { a with heap.count := count }

/-- Counts one live block less. -/
def subCount : HeapM Unit := do
  let count ← Checked.sub (← get).heap.count 1
  modify fun a => { a with heap.count := count }

/-! ## The block list -/

/-- The block whose header is at `block`. -/
def blockAt (m : Memory) (block : Nat) : Block :=
  ⟨block, Header.sizeAt m block, Header.freeAt m block⟩

/-- The blocks on the list from `block` on, at most `fuel` of them. -/
def walk (m : Memory) : Nat → Nat → List Block
  | 0, _ => []
  | fuel + 1, block =>
    if block = 0 then [] else blockAt m block :: walk m fuel (Header.nextAt m block)

/-- The block list, wherever the links in memory lead. Links are words, so a
list that never comes back to a block is shorter than the walk may get. -/
def blocks (a : Arena) : List Block :=
  walk a.memory wordLimit a.heap.head

/-- The first answer that `choose` has for a block on the list from `block` on.
The blocks behind that one are not looked at. -/
def search {α : Type} (choose : Block → Except Fault (Option α)) (m : Memory) :
    Nat → Nat → Except Fault (Option α)
  | 0, _ => .ok none
  | fuel + 1, block =>
    if block = 0 then .ok none
    else
      match choose (blockAt m block) with
      | .ok none => search choose m fuel (Header.nextAt m block)
      | answer => answer

/-- A search finds what going through the listed blocks finds. -/
theorem search_eq_findSomeM? {α : Type} (choose : Block → Except Fault (Option α)) (m : Memory)
    (fuel block : Nat) :
    search choose m fuel block = (walk m fuel block).findSomeM? choose := by
  induction fuel generalizing block with
  | zero => rfl
  | succ fuel ih =>
    by_cases hend : block = 0
    · simp [search, walk, hend]; rfl
    · simp only [search, walk, hend, ↓reduceIte, List.findSomeM?, ih]
      cases choose (blockAt m block) with
      | error e => rfl
      | ok answer => cases answer <;> rfl

/-- The first answer that `choose` has for a block of the list. -/
def find {α : Type} (choose : Block → Except Fault (Option α)) : HeapM (Option α) := do
  let a ← get
  search choose a.memory wordLimit a.heap.head

/-- Where the data of a block starts. -/
def payload (block : Nat) : Nat :=
  block + Header.bytes

/-! ## Setting up -/

/-- Turns `[base, base + size)`, cut to aligned bounds, into one free block. A
region without room for a header and eight bytes leaves the heap empty. -/
def init (base size : Nat) : HeapM Unit := do
  let start ← Checked.alignUp base regionAlign
  let size := (size - (← Checked.sub start base)) / grain * grain
  modify fun a => { a with heap := {} }
  if Header.bytes + grain ≤ size then
    change (Header.writeAt · start ⟨size, true, 0, 0⟩)
    modify fun a => { a with heap.start := start }
    let limit ← Checked.add start size
    modify fun a => { a with heap.limit := limit, heap.head := start }

/-- The block size that serves a request: header and data, rounded up to a
multiple of eight. `none` if that is no word. -/
def blockSize? (size : Nat) : Option Nat :=
  let total := size + (Header.bytes + grain - 1)
  if total < wordLimit then some (total / grain * grain) else none

/-! ## Splitting and merging -/

/-- Cuts `block` after `size` bytes; what follows becomes a free block behind
it. -/
def split (block size : Nat) : HeapM Nat := do
  let tail ← Checked.add block size
  let rest ← Checked.sub (← inspect (Header.sizeAt · block)) size
  let next ← inspect (Header.nextAt · block)
  change (Header.writeAt · tail ⟨rest, true, next, block⟩)
  let next ← inspect (Header.nextAt · block)
  if next ≠ 0 then
    change (Header.setPrevAt · next tail)
  change (Header.setNextAt · block tail)
  change (Header.setSizeAt · block size)
  return tail

/-- Merges the block that follows `block` into it. -/
def mergeNext (block : Nat) : HeapM Unit := do
  let next ← inspect (Header.nextAt · block)
  let size ← Checked.add (← inspect (Header.sizeAt · block)) (← inspect (Header.sizeAt · next))
  change (Header.setSizeAt · block size)
  let after ← inspect (Header.nextAt · next)
  change (Header.setNextAt · block after)
  let after ← inspect (Header.nextAt · next)
  if after ≠ 0 then
    change (Header.setPrevAt · after block)

/-- Whether there is a block at the given link and it is free. -/
def isFreeLink (block : Nat) : HeapM Bool :=
  inspect fun m => block ≠ 0 && Header.freeAt m block

/-- Merges free `block` with a free successor, then with a free predecessor. -/
def coalesce (block : Nat) : HeapM Unit := do
  if ← isFreeLink (← inspect (Header.nextAt · block)) then
    mergeNext block
  let prev ← inspect (Header.prevAt · block)
  if ← isFreeLink prev then
    mergeNext prev

/-- Makes free `block` live, splitting off what the request leaves over. The
answer is its data address. -/
def occupy (block required : Nat) : HeapM Nat := do
  let bound ← Checked.add required splitSlack
  if bound < (← inspect (Header.sizeAt · block)) then
    discard <| split block required
  change (Header.setFreeAt · block false)
  addUsed (← inspect (Header.sizeAt · block))
  addCount
  return payload block

/-! ## Allocating -/

/-- The address of a block that is free and large enough. -/
def fit? (required : Nat) (b : Block) : Option Nat :=
  if b.free && required ≤ b.size then some b.address else none

/-- Allocates `size` bytes in the first free block that is large enough. -/
def alloc (size : Nat) : HeapM (Option Nat) := do
  if size = 0 then
    return none
  let some required := blockSize? size | return none
  match ← find fun b => .ok (fit? required b) with
  | some block => some <$> occupy block required
  | none => return none

/-- Bytes to skip so that the data behind them starts at a multiple of
`align`: none, or enough for a header of their own. -/
def gapFor (block align : Nat) : Except Fault Nat := do
  let data ← Checked.add block Header.bytes
  let aligned ← Checked.alignUp data align
  if aligned ≠ data ∧ aligned - data < Header.bytes then
    let aligned ← Checked.alignUp (← Checked.add data Header.bytes) align
    Checked.sub aligned data
  else
    Checked.sub aligned data

/-- The address of a block that is free and holds `required` bytes behind its
padding, with that padding. -/
def alignedFit? (required align : Nat) (b : Block) : Except Fault (Option (Nat × Nat)) := do
  if b.free then
    let padding ← gapFor b.address align
    if min (padding + required) (wordLimit - 1) ≤ b.size then
      return some (b.address, padding)
  return none

/-- Splits `padding` bytes off the front of free `block` as a free block of
their own and returns what follows them. -/
def splitFront (block padding : Nat) : HeapM Nat := do
  if padding = 0 then
    return block
  split block padding

/-- Whether a number is a power of two. -/
def isPowerOfTwo (n : Nat) : Bool :=
  n ≠ 0 && n == 1 <<< Nat.log2 n

/-- Allocates `size` bytes at a multiple of `align`. -/
def allocAligned (size align : Nat) : HeapM (Option Nat) := do
  if size = 0 || !isPowerOfTwo align then
    return none
  if align ≤ grain then
    alloc size
  else
    let some required := blockSize? size | return none
    match ← find (alignedFit? required align) with
    | some (block, padding) =>
      let block ← splitFront block padding
      some <$> occupy block required
    | none => return none

/-! ## Freeing and resizing -/

/-- The live block whose data starts at `address`, by the header in front of
it. -/
def validate (address : Nat) : HeapM (Except PointerError Nat) := do
  let heap := (← get).heap
  if heap.head = 0 then
    return .error (.invalidPointer address)
  if address < (← Checked.add heap.start Header.bytes) || heap.limit ≤ address
      || address % grain ≠ 0 then
    return .error (.invalidPointer address)
  let block := address - Header.bytes
  let size ← inspect (Header.sizeAt · block)
  if size < Header.bytes then
    return .error (.invalidPointer address)
  if heap.limit < (← Checked.add block size) then
    return .error (.invalidPointer address)
  if ← inspect (Header.freeAt · block) then
    return .error (.doubleFree address)
  return .ok block

/-- Frees the allocation at `address`. -/
def free (address : Nat) : HeapM (Except PointerError Unit) := do
  match ← validate address with
  | .error e => return .error e
  | .ok block =>
    change (Header.setFreeAt · block true)
    subUsed (← inspect (Header.sizeAt · block))
    subCount
    coalesce block
    return .ok ()

/-- Moves the allocation at `address` into a new block. Without room for it
nothing changes. -/
def relocate (address current size : Nat) : HeapM (Except PointerError (Option Nat)) := do
  match ← alloc size with
  | none => return .ok none
  | some moved =>
    let keep := min (← Checked.sub current Header.bytes) size
    change (Memory.copy · address moved keep)
    match ← free address with
    | .error e => return .error e
    | .ok () => return .ok (some moved)

/-- Resizes the live `block`: in place if the request fits it, into a free
successor if that is enough, else by moving. -/
def resize (block address size required : Nat) : HeapM (Except PointerError (Option Nat)) := do
  let current ← inspect (Header.sizeAt · block)
  if required ≤ current then
    if (← Checked.add required splitSlack) < current then
      let tail ← split block required
      subUsed (← Checked.sub current required)
      coalesce tail
    return .ok (some address)
  let next ← inspect (Header.nextAt · block)
  if ← isFreeLink next then
    let extra ← inspect (Header.sizeAt · next)
    if required ≤ (← Checked.add current extra) then
      addUsed extra
      mergeNext block
      let grown ← inspect (Header.sizeAt · block)
      if (← Checked.add required splitSlack) < grown then
        discard <| split block required
        subUsed (← Checked.sub grown required)
      return .ok (some address)
  relocate address current size

/-- Resizes an allocation. Without a pointer this allocates; size 0 frees and
answers `none`. When no room is found the allocation stays as it is and the
answer is `none`. -/
def realloc (address : Option Nat) (size : Nat) : HeapM (Except PointerError (Option Nat)) := do
  match address with
  | none => .ok <$> alloc size
  | some address =>
    if size = 0 then
      match ← free address with
      | .error e => return .error e
      | .ok () => return .ok none
    else
      match ← validate address with
      | .error e => return .error e
      | .ok block =>
        match blockSize? size with
        | none => return .ok none
        | some required => resize block address size required

/-- Bytes an allocation can hold, 0 if the address is not that of a live one. -/
def capacity (address : Nat) : HeapM Nat := do
  match ← validate address with
  | .error _ => return 0
  | .ok block => Checked.sub (← inspect (Header.sizeAt · block)) Header.bytes

/-- How much of the heap is in use. -/
def stats : HeapM HeapUsage := do
  let heap := (← get).heap
  return ⟨← Checked.sub heap.limit heap.start, heap.used, heap.count⟩

end Heap

end Supervisor

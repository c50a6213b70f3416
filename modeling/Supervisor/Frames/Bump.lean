import Supervisor.Fault

/-!
# Pages, spans and the early allocator

Physical memory is counted in pages of 4 KiB. Before the frame map exists, the
little storage that is needed comes from a `Bump`: a window of memory handed
out front to back in whole pages and never taken back.

- `Span`: a half-open range of addresses.
- `Page.alignUp`: the next page boundary, formed from a checked sum.
- `Bump.ofStart`, `Bump.alloc`: opening the window and taking a span from it.
-/

namespace Supervisor

/-- The addresses from `start` up to, not including, `stop`. -/
structure Span where
  start : Nat
  stop : Nat
  deriving DecidableEq, Repr, Inhabited

namespace Page

/-- Bytes per page. -/
abbrev bytes : Nat := 4096

/-- The next page boundary at or above `address`. -/
def alignUp (address : Nat) : Except Fault Nat :=
  Checked.alignUp address bytes

/-- Whether an address is a page boundary. -/
def isAligned (address : Nat) : Bool :=
  address % bytes == 0

end Page

/-- A window of memory of which `[next, limit)` has not been handed out. -/
structure Bump where
  next : Nat
  limit : Nat
  deriving DecidableEq, Repr, Inhabited

namespace Bump

/-- The window from the first page boundary at or above `start` to `limit`. -/
def ofStart (start limit : Nat) : Except Fault Bump := do
  return ⟨← Page.alignUp start, limit⟩

/-- Takes whole pages for `bytes` bytes, if the window still holds them. -/
def alloc (b : Bump) (bytes : Nat) : Except Fault (Option Span × Bump) := do
  if wordLimit ≤ b.next + bytes then
    return (none, b)
  let stop ← Page.alignUp (b.next + bytes)
  if b.limit < stop then
    return (none, b)
  return (some ⟨b.next, stop⟩, { b with next := stop })

end Bump

end Supervisor

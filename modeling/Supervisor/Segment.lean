import Supervisor.Fault
import Supervisor.Text

/-!
# Segments

The segment table of a flat long-mode kernel: code and data for rings 0 and 3,
and one task state segment that names the stack for ring 0.

- `Segment.flat`, `Segment.task`: how descriptors are encoded.
- `Gdt.ofTask`, `Gdt.entry`: the table and its entries by selector.
- `Stack.validate`: a stack top is a non-zero multiple of sixteen.
- `SegmentError`: why a stack or a table was refused.
-/

namespace Supervisor

namespace Segment

/-- Access bits: present. -/
abbrev present : UInt8 := 0x80
/-- Access bits: usable from ring 3. -/
abbrev ring3 : UInt8 := 0x60
/-- Access bits: a code or data segment. -/
abbrev ordinary : UInt8 := 0x10
/-- Access bits: holds code. -/
abbrev executable : UInt8 := 0x08
/-- Access bits: readable code or writable data. -/
abbrev readWrite : UInt8 := 0x02
/-- Access bits: an available task state segment. -/
abbrev taskAvailable : UInt8 := 0x09
/-- Access bits of a task state segment that may be loaded. -/
abbrev taskAccess : UInt8 := present ||| taskAvailable
/-- Flag bits: 4 KiB units and long mode. -/
abbrev longMode : UInt8 := 0x0A

/-- A segment with base 0 and the largest limit. Four bits of `flags` count. -/
def flat (access flags : UInt8) : UInt64 :=
  let limit : UInt64 := 0x000F00000000FFFF
  limit ||| access.toUInt64 <<< 40 ||| (flags &&& 0xF).toUInt64 <<< 52

/-- The two entries of a task state segment. -/
def task (base : UInt64) (limit : UInt32) : UInt64 × UInt64 :=
  let limit : UInt64 := limit.toUInt64
  let access : UInt64 := taskAccess.toUInt64
  (limit &&& (0xFFFF : UInt64) ||| (base &&& (0xFFFFFF : UInt64)) <<< 16 ||| access <<< 40
      ||| (limit &&& (0xF0000 : UInt64)) <<< 32 ||| (base &&& (0xFF000000 : UInt64)) <<< 32,
    base >>> 32)

/-- The kernel's code. -/
def kernelCode : UInt64 := flat (present ||| ordinary ||| executable ||| readWrite) longMode
/-- The kernel's data. -/
def kernelData : UInt64 := flat (present ||| ordinary ||| readWrite) longMode
/-- Code of ring 3. -/
def userCode : UInt64 := flat (present ||| ring3 ||| ordinary ||| executable ||| readWrite) longMode
/-- Data of ring 3. -/
def userData : UInt64 := flat (present ||| ring3 ||| ordinary ||| readWrite) longMode

/-- Selector of the kernel's code. -/
abbrev kernelCodeSelector : UInt16 := 0x08
/-- Selector of the kernel's data. -/
abbrev kernelDataSelector : UInt16 := 0x10
/-- Selector of the code of ring 3. -/
abbrev userCodeSelector : UInt16 := 0x1B
/-- Selector of the data of ring 3. -/
abbrev userDataSelector : UInt16 := 0x23
/-- Selector of the task state segment. -/
abbrev taskSelector : UInt16 := 0x28

/-- Bytes in a task state segment. -/
abbrev taskBytes : UInt32 := 104

/-- The limit of a task state segment. -/
abbrev taskLimit : UInt32 := taskBytes - 1

end Segment

/-- The segment table. -/
structure Gdt where
  /-- Its seven entries. -/
  entries : List UInt64
  deriving DecidableEq, Repr, Inhabited

namespace Gdt

/-- The table whose task state segment is at `base`. -/
def ofTask (base : UInt64) : Gdt :=
  let (low, high) := Segment.task base Segment.taskLimit
  ⟨[0, Segment.kernelCode, Segment.kernelData, Segment.userCode, Segment.userData, low, high]⟩

/-- Bytes in the table, less one. -/
def limit (g : Gdt) : UInt16 :=
  UInt16.ofNat (8 * g.entries.length - 1)

/-- The entry a selector names. -/
def entry (g : Gdt) (selector : UInt16) : Except Fault UInt64 :=
  let index := (selector >>> 3).toNat
  match g.entries[index]? with
  | some e => .ok e
  | none => .error (.indexOutOfBounds g.entries.length index)

end Gdt

/-- Why a stack or a table was refused. -/
inductive SegmentError where
  /-- The stack top is zero or not a multiple of sixteen. -/
  | invalidStack (top : UInt64)
  /-- The table is loaded already. -/
  | alreadyInstalled
  deriving DecidableEq, Repr, Inhabited

/-- The wording of a refusal. -/
def SegmentError.message : SegmentError → String
  | .invalidStack top => "invalid kernel stack address " ++ Text.address top.toNat
  | .alreadyInstalled => "GDT already installed"

/-- A stack top, if it is a non-zero multiple of sixteen. -/
def Stack.validate (top : UInt64) : Except SegmentError UInt64 :=
  if top = 0 ∨ top % 16 ≠ 0 then .error (.invalidStack top) else .ok top

end Supervisor

import Supervisor.Segment

/-!
# Gates of the interrupt table

The processor finds the code for a vector through a table of 256 gates of
sixteen bytes each. `Gate.Raw` is a gate as it stands in the table, `Gate` what
it means; `Gate.encode` and `Gate.Raw.decode` go back and forth, and
`Gate.Raw.bytes` lays a gate out in memory.

- `Idt.blank`: the table in which no gate is present.
- `Idt.set`, `Idt.gate`: one entry.
-/

namespace Supervisor

/-- Whether a gate leaves interrupts on. -/
inductive GateKind where
  /-- Entering clears the interrupt flag. -/
  | interrupt
  /-- Entering keeps the interrupt flag. -/
  | trap
  deriving DecidableEq, Repr, Inhabited

/-- The kinds by name. -/
def GateKind.byName : List (String × GateKind) :=
  [("interrupt", .interrupt), ("trap", .trap)]

/-- The type code of a kind. -/
def GateKind.code : GateKind → UInt8
  | .interrupt => 0x0E
  | .trap => 0x0F

/-- The kind with a type code. -/
def GateKind.ofCode? (code : UInt8) : Option GateKind :=
  if code = 0x0E then some .interrupt
  else if code = 0x0F then some .trap
  else none

/-- The meaning of a gate. -/
structure Gate where
  /-- Where execution continues. -/
  handler : UInt64
  /-- The code segment it continues in. -/
  selector : UInt16
  /-- Its kind, if the type code names one. -/
  kind : Option GateKind
  /-- The least privileged ring that may use it. -/
  dpl : UInt8
  /-- Whether the gate may be used. -/
  present : Bool
  /-- The alternate stack to switch to, 0 for none. -/
  ist : UInt8
  deriving DecidableEq, Repr, Inhabited

namespace Gate

/-- The fields of a gate in the order of the table. -/
structure Raw where
  offsetLow : UInt16 := 0
  selector : UInt16 := 0
  ist : UInt8 := 0
  attributes : UInt8 := 0
  offsetMid : UInt16 := 0
  offsetHigh : UInt32 := 0
  reserved : UInt32 := 0
  deriving DecidableEq, Repr, Inhabited

/-- The attribute bit of a gate that may be used. -/
abbrev presentBit : UInt8 := 0x80

/-- A present gate of the kernel's code segment. Two bits of `dpl` count. -/
def encode (handler : UInt64) (kind : GateKind) (dpl : UInt8) : Raw where
  offsetLow := handler.toUInt16
  selector := Segment.kernelCodeSelector
  attributes := presentBit ||| (dpl &&& 3) <<< 5 ||| kind.code
  offsetMid := (handler >>> 16).toUInt16
  offsetHigh := (handler >>> 32).toUInt32

/-- What the fields of a gate mean. -/
def Raw.decode (r : Raw) : Gate where
  handler := r.offsetLow.toUInt64 ||| r.offsetMid.toUInt64 <<< 16 ||| r.offsetHigh.toUInt64 <<< 32
  selector := r.selector
  kind := GateKind.ofCode? (r.attributes &&& 0x0F)
  dpl := r.attributes >>> 5 &&& 3
  present := r.attributes &&& presentBit != 0
  ist := r.ist &&& 7

/-- The sixteen bytes of a gate, each field least significant byte first. -/
def Raw.bytes (r : Raw) : List UInt8 :=
  [r.offsetLow.toUInt8, (r.offsetLow >>> 8).toUInt8,
   r.selector.toUInt8, (r.selector >>> 8).toUInt8,
   r.ist, r.attributes,
   r.offsetMid.toUInt8, (r.offsetMid >>> 8).toUInt8,
   r.offsetHigh.toUInt8, (r.offsetHigh >>> 8).toUInt8,
   (r.offsetHigh >>> 16).toUInt8, (r.offsetHigh >>> 24).toUInt8,
   r.reserved.toUInt8, (r.reserved >>> 8).toUInt8,
   (r.reserved >>> 16).toUInt8, (r.reserved >>> 24).toUInt8]

end Gate

/-- The interrupt table. -/
structure Idt where
  /-- The gate of each vector. -/
  entry : UInt8 → Gate.Raw

namespace Idt

/-- Bytes in the table, less one: the limit the processor is given. -/
abbrev limit : UInt16 := 16 * 256 - 1

/-- The table in which no gate is present. -/
def blank : Idt :=
  ⟨fun _ => {}⟩

/-- Routes a vector to `handler`. -/
def set (t : Idt) (vector : UInt8) (handler : UInt64) (kind : GateKind) (dpl : UInt8) : Idt :=
  ⟨fun v => if v = vector then Gate.encode handler kind dpl else t.entry v⟩

/-- The gate of a vector. -/
def gate (t : Idt) (vector : UInt8) : Gate :=
  (t.entry vector).decode

end Idt

end Supervisor

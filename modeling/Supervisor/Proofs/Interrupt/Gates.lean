import Mathlib
import Supervisor.Interrupt.Stub

/-!
# The interrupt table as a map

To the kernel, the interrupt table maps vectors to gates; to the processor, it is bytes. Both hold
the same: what a vector was last routed to.

- `Gate.descriptor`: a gate as the processor lays it out, each field at its position.
- `Gate.decode_encode`: an entry reads back as what it was made for. The parts of an address are
  put together again by `Gate.join_parts`.
- `Gate.Raw.Holds`: the fields of an entry hold the parts of a gate. Its bytes are then the
  descriptor of the gate (`Holds.ofDigits_bytes`).
- `Idt.Stores`: the entry of a vector, as it reads back and as it lies in memory.
- `Idt.routed`: a table after a sequence of routings. `Idt.entry_routed` says what an entry is then.
  The table of the stubs is made in this way too (`Idt.ofStubs_eq_routed`).
- `Idt.routed_stores` is the main statement, about the two tables that routing can begin with.
-/

namespace Supervisor

/-! ## Gates -/

namespace Gate

/-- The gate that is not there. -/
def absent : Gate where
  handler := 0
  selector := 0
  kind := none
  dpl := 0
  present := false
  ist := 0

/-- A gate into the kernel's code, for the rings up to one of four. -/
def leading (handler : UInt64) (kind : GateKind) (dpl : UInt8) : Gate where
  handler := handler
  selector := Segment.kernelCodeSelector
  kind := some kind
  dpl := dpl % 4
  present := true
  ist := 0

/-- The number by which the processor knows a kind. -/
def typeNumber : Option GateKind → Nat
  | none => 0
  | some .interrupt => 0b1110
  | some .trap => 0b1111

/-- A gate as a number of 128 bits. The address is in three parts, and the upper 32 bits are
reserved. -/
def descriptor (g : Gate) : Nat :=
  let address := g.handler.toNat
  address % 2 ^ 16
    + g.selector.toNat * 2 ^ 16
    + g.ist.toNat * 2 ^ 32
    + typeNumber g.kind * 2 ^ 40
    + g.dpl.toNat * 2 ^ 45
    + g.present.toNat * 2 ^ 47
    + address / 2 ^ 16 % 2 ^ 16 * 2 ^ 48
    + address / 2 ^ 32 * 2 ^ 64

variable (a : UInt64) (kind : GateKind) (dpl : UInt8)

/-- The three parts of an address make up the address. -/
theorem join_parts : a.toUInt16.toUInt64 ||| (a >>> 16).toUInt16.toUInt64 <<< 16
    ||| (a >>> 32).toUInt32.toUInt64 <<< 32 = a := by
  have ha : a.toNat < 2 ^ 64 := a.toNat_lt
  have hlow : (a.toUInt16.toUInt64).toNat = a.toNat % 2 ^ 16 := rfl
  have hmid : ((a >>> 16).toUInt16.toUInt64 <<< 16 : UInt64).toNat =
      2 ^ 16 * (a.toNat / 2 ^ 16 % 2 ^ 16) := by
    rw [UInt64.toNat_shiftLeft, UInt16.toNat_toUInt64, UInt64.toNat_toUInt16,
      UInt64.toNat_shiftRight, Nat.shiftLeft_eq]
    show a.toNat >>> 16 % 2 ^ 16 * 2 ^ 16 % 2 ^ 64 = _
    rw [Nat.shiftRight_eq_div_pow]
    omega
  have hhigh : ((a >>> 32).toUInt32.toUInt64 <<< 32 : UInt64).toNat =
      2 ^ 32 * (a.toNat / 2 ^ 32) := by
    rw [UInt64.toNat_shiftLeft, UInt32.toNat_toUInt64, UInt64.toNat_toUInt32,
      UInt64.toNat_shiftRight, Nat.shiftLeft_eq]
    show a.toNat >>> 32 % 2 ^ 32 * 2 ^ 32 % 2 ^ 64 = _
    rw [Nat.shiftRight_eq_div_pow]
    omega
  -- the parts do not overlap, so that joining them is adding them up
  rw [← UInt64.toNat_inj, UInt64.toNat_or, UInt64.toNat_or, hhigh, hmid, hlow,
    Nat.or_comm (a.toNat % 2 ^ 16), ← Nat.two_pow_add_eq_or_of_lt (Nat.mod_lt _ (by decide)),
    Nat.or_comm, ← Nat.two_pow_add_eq_or_of_lt (by omega)]
  omega

/-! ### The attribute byte -/

theorem and_three : dpl &&& 3 = dpl % 4 := by
  rw [← UInt8.toNat_inj, UInt8.toNat_and, UInt8.toNat_mod]
  exact Nat.and_two_pow_sub_one_eq_mod dpl.toNat 2

/-- There are four rings. -/
theorem ring_cases : dpl % 4 = 0 ∨ dpl % 4 = 1 ∨ dpl % 4 = 2 ∨ dpl % 4 = 3 := by
  simp only [← UInt8.toNat_inj, UInt8.toNat_mod]
  show dpl.toNat % 4 = 0 ∨ dpl.toNat % 4 = 1 ∨ dpl.toNat % 4 = 2 ∨ dpl.toNat % 4 = 3
  omega

/-- The ring and the kind stand side by side under the present bit. -/
theorem attributes_fields :
    let attributes := (encode a kind dpl).attributes
    GateKind.ofCode? (attributes &&& 0x0F) = some kind ∧ attributes >>> 5 &&& 3 = dpl % 4 ∧
      (attributes &&& presentBit != 0) = true ∧
      attributes.toNat = typeNumber (some kind) + 2 ^ 5 * (dpl % 4).toNat + 2 ^ 7 := by
  have hattributes : (encode a kind dpl).attributes =
      presentBit ||| (dpl % 4) <<< 5 ||| kind.code := by
    rw [encode, and_three]
  rw [hattributes]
  rcases ring_cases dpl with h | h | h | h <;> rw [h] <;> cases kind <;> decide

/-- A gate means what it was made for. -/
theorem decode_encode : (encode a kind dpl).decode = leading a kind dpl := by
  obtain ⟨hkind, hdpl, hpresent, -⟩ := attributes_fields a kind dpl
  have hist : (encode a kind dpl).ist &&& 7 = 0 := by
    show (0 : UInt8) &&& 7 = 0
    decide
  rw [Raw.decode, leading, Gate.mk.injEq]
  exact ⟨join_parts a, rfl, hkind, hdpl, hpresent, hist⟩

/-! ### Bytes -/

theorem toNat_halves (v : UInt16) :
    v.toUInt8.toNat + 256 * (v >>> 8).toUInt8.toNat = v.toNat := by
  have hlt : v.toNat < 2 ^ 16 := v.toNat_lt
  rw [UInt16.toNat_toUInt8, UInt16.toNat_toUInt8, UInt16.toNat_shiftRight]
  show v.toNat % 2 ^ 8 + 256 * ((v.toNat >>> 8) % 2 ^ 8) = v.toNat
  omega

theorem toNat_quarters (v : UInt32) :
    v.toUInt8.toNat + 256 * ((v >>> 8).toUInt8.toNat + 256 * ((v >>> 16).toUInt8.toNat
      + 256 * (v >>> 24).toUInt8.toNat)) = v.toNat := by
  have hlt : v.toNat < 2 ^ 32 := v.toNat_lt
  rw [UInt32.toNat_toUInt8, UInt32.toNat_toUInt8, UInt32.toNat_toUInt8, UInt32.toNat_toUInt8,
    UInt32.toNat_shiftRight, UInt32.toNat_shiftRight, UInt32.toNat_shiftRight]
  show v.toNat % 2 ^ 8 + 256 * ((v.toNat >>> 8) % 2 ^ 8 + 256 * ((v.toNat >>> 16) % 2 ^ 8
    + 256 * ((v.toNat >>> 24) % 2 ^ 8))) = v.toNat
  omega

namespace Raw

/-- The fields of an entry follow each other without a gap. -/
theorem ofDigits_bytes (r : Raw) :
    Nat.ofDigits 256 (r.bytes.map (·.toNat)) = r.offsetLow.toNat + r.selector.toNat * 2 ^ 16
      + r.ist.toNat * 2 ^ 32 + r.attributes.toNat * 2 ^ 40 + r.offsetMid.toNat * 2 ^ 48
      + r.offsetHigh.toNat * 2 ^ 64 + r.reserved.toNat * 2 ^ 96 := by
  rw [← toNat_halves r.offsetLow, ← toNat_halves r.selector, ← toNat_halves r.offsetMid,
    ← toNat_quarters r.offsetHigh, ← toNat_quarters r.reserved]
  simp only [bytes, List.map_cons, List.map_nil, Nat.ofDigits_cons, Nat.ofDigits_nil]
  omega

/-- The fields of an entry hold the parts of a gate. -/
structure Holds (r : Raw) (g : Gate) : Prop where
  low : r.offsetLow.toNat = g.handler.toNat % 2 ^ 16
  selector : r.selector = g.selector
  ist : r.ist = g.ist
  attributes : r.attributes.toNat = typeNumber g.kind + 2 ^ 5 * g.dpl.toNat + 2 ^ 7 * g.present.toNat
  mid : r.offsetMid.toNat = g.handler.toNat / 2 ^ 16 % 2 ^ 16
  high : r.offsetHigh.toNat = g.handler.toNat / 2 ^ 32
  reserved : r.reserved = 0

theorem Holds.ofDigits_bytes {r : Raw} {g : Gate} (h : r.Holds g) :
    Nat.ofDigits 256 (r.bytes.map (·.toNat)) = g.descriptor := by
  rw [Raw.ofDigits_bytes, h.low, h.selector, h.ist, h.attributes, h.mid, h.high, h.reserved,
    UInt32.toNat_zero, descriptor]
  omega

/-- The reserved part is the last one. -/
theorem Holds.drop_bytes {r : Raw} {g : Gate} (h : r.Holds g) :
    r.bytes.drop 12 = [0, 0, 0, 0] := by
  rw [bytes, h.reserved]
  rfl

end Raw

theorem holds_encode : (encode a kind dpl).Holds (leading a kind dpl) where
  low := rfl
  selector := rfl
  ist := rfl
  attributes := (attributes_fields a kind dpl).2.2.2
  mid := by
    show (a >>> 16).toUInt16.toNat = _
    rw [UInt64.toNat_toUInt16, UInt64.toNat_shiftRight]
    show (a.toNat >>> 16) % 2 ^ 16 = _
    rw [Nat.shiftRight_eq_div_pow]
    rfl
  high := by
    have ha : a.toNat < 2 ^ 64 := a.toNat_lt
    show (a >>> 32).toUInt32.toNat = a.toNat / 2 ^ 32
    rw [UInt64.toNat_toUInt32, UInt64.toNat_shiftRight]
    show (a.toNat >>> 32) % 2 ^ 32 = a.toNat / 2 ^ 32
    omega
  reserved := rfl

/-- An entry that was never made is all zero. -/
theorem holds_absent : Raw.Holds {} absent :=
  ⟨rfl, rfl, rfl, rfl, rfl, rfl, rfl⟩

end Gate

/-! ## The table -/

namespace Idt

open Gate (absent leading)

/-- A vector and where it is to lead. -/
structure Routing where
  vector : UInt8
  handler : UInt64
  kind : GateKind
  dpl : UInt8
  deriving DecidableEq, Repr

/-- The gate that is asked for. -/
def Routing.gate (r : Routing) : Gate :=
  leading r.handler r.kind r.dpl

/-- A table after a sequence of routings. -/
def routed (t : Idt) (routings : List Routing) : Idt :=
  routings.foldl (fun t r => t.set r.vector r.handler r.kind r.dpl) t

/-- The last of the routings of a vector. -/
def lastOf (vector : UInt8) (routings : List Routing) : Option Routing :=
  (routings.filter (·.vector = vector)).getLast?

variable {t : Idt} {w : UInt8}

theorem entry_set_of_ne {v : UInt8} (h : w ≠ v) (handler : UInt64) (kind : GateKind) (dpl : UInt8) :
    (t.set v handler kind dpl).entry w = t.entry w :=
  if_neg h

theorem entry_set_self (t : Idt) (v : UInt8) (handler : UInt64) (kind : GateKind) (dpl : UInt8) :
    (t.set v handler kind dpl).entry v = Gate.encode handler kind dpl :=
  if_pos rfl

/-- An entry is that of the last routing of its vector. -/
theorem entry_routed (t : Idt) (w : UInt8) (routings : List Routing) :
    (t.routed routings).entry w = match lastOf w routings with
      | some r => Gate.encode r.handler r.kind r.dpl
      | none => t.entry w := by
  induction routings using List.reverseRecOn with
  | nil => rfl
  | append_singleton routings r ih =>
    rw [routed, List.foldl_append, lastOf, List.filter_append]
    by_cases hvector : r.vector = w
    · rw [List.filter_cons_of_pos (by simpa using hvector), List.filter_nil,
        List.getLast?_append, List.getLast?_singleton, Option.some_or, ← hvector]
      exact entry_set_self _ _ _ _ _
    · rw [List.filter_cons_of_neg (by simpa using hvector), List.filter_nil, List.append_nil]
      exact (entry_set_of_ne (Ne.symm hvector) _ _ _).trans ih

/-! ### The table of the stubs -/

/-- The routing of a vector to its stub. -/
def stubRouting (base : UInt64) (vector : Nat) : Routing where
  vector := UInt8.ofNat vector
  handler := Stub.address base (UInt8.ofNat vector)
  kind := .interrupt
  dpl := 0

theorem entry_routed_stubs (base : UInt64) (w : UInt8) {n : Nat} (hn : n ≤ 256) :
    (blank.routed ((List.range n).map (stubRouting base))).entry w =
      if w.toNat < n then Gate.encode (Stub.address base w) .interrupt 0 else {} := by
  induction n with
  | zero => rfl
  | succ n ih =>
    rw [List.range_succ, List.map_append, routed, List.foldl_append]
    by_cases hvector : UInt8.ofNat n = w
    · have hlast : w.toNat < n + 1 := by
        rw [← hvector, UInt8.toNat_ofNat_of_lt' hn]
        exact n.lt_succ_self
      rw [if_pos hlast, ← hvector]
      exact entry_set_self _ _ _ _ _
    · have hother : w.toNat ≠ n := fun h => hvector (h ▸ UInt8.ofNat_toNat)
      have hbefore : w.toNat < n + 1 ↔ w.toNat < n := by omega
      simp only [hbefore]
      exact (entry_set_of_ne (Ne.symm hvector) _ _ _).trans (ih (by omega))

/-- The table of the stubs is made by routing one vector after the other. -/
theorem ofStubs_eq_routed (base : UInt64) :
    ofStubs base = blank.routed ((List.range 256).map (stubRouting base)) := by
  have hentry : (ofStubs base).entry =
      (blank.routed ((List.range 256).map (stubRouting base))).entry := by
    funext w
    rw [entry_routed_stubs base w le_rfl, if_pos w.toNat_lt]
    rfl
  exact congrArg Idt.mk hentry

/-! ### What is stored -/

/-- The entry of a vector: it reads back as a gate, and its sixteen bytes are the descriptor of this
gate, the last four of them zero. -/
structure Stores (t : Idt) (w : UInt8) (g : Gate) : Prop where
  gate : t.gate w = g
  size : (t.entry w).bytes.length = 16
  bytes : Nat.ofDigits 256 ((t.entry w).bytes.map (·.toNat)) = g.descriptor
  reserved : (t.entry w).bytes.drop 12 = [0, 0, 0, 0]

theorem stores_of_encode {handler : UInt64} {kind : GateKind} {dpl : UInt8}
    (h : t.entry w = Gate.encode handler kind dpl) : t.Stores w (leading handler kind dpl) where
  gate := by rw [gate, h, Gate.decode_encode]
  size := rfl
  bytes := by rw [h, (Gate.holds_encode handler kind dpl).ofDigits_bytes]
  reserved := by rw [h, (Gate.holds_encode handler kind dpl).drop_bytes]

theorem stores_of_absent (h : t.entry w = {}) : t.Stores w absent where
  gate := by rw [gate, h]; rfl
  size := rfl
  bytes := by rw [h, Gate.holds_absent.ofDigits_bytes]
  reserved := by rw [h, Gate.holds_absent.drop_bytes]

/-- A table that is blank or was filled with the stubs, after any sequence of routings:
1. the entry of a vector is that of its last routing;
2. an entry that no routing was about is absent in a blank table, and in the other one leads to the
   stub of its vector;
3. a further routing leaves the entries of the other vectors alone. -/
theorem routed_stores (base : UInt64) (routings : List Routing) (w : UInt8) :
    (blank.routed routings).Stores w (((lastOf w routings).map Routing.gate).getD absent) ∧
    ((ofStubs base).routed routings).Stores w
      (((lastOf w routings).map Routing.gate).getD (leading (Stub.address base w) .interrupt 0)) ∧
    ofStubs base = blank.routed ((List.range 256).map (stubRouting base)) ∧
    ∀ (t : Idt) (r : Routing), r.vector ≠ w → (t.routed [r]).entry w = t.entry w := by
  have hblank := entry_routed blank w routings
  have hstubs := entry_routed (ofStubs base) w routings
  refine ⟨?_, ?_, ofStubs_eq_routed base, fun t r hother => entry_set_of_ne (Ne.symm hother) _ _ _⟩
  · cases hlast : lastOf w routings with
    | none =>
      rw [hlast] at hblank
      exact stores_of_absent hblank
    | some r =>
      rw [hlast] at hblank
      exact stores_of_encode hblank
  · cases hlast : lastOf w routings with
    | none =>
      rw [hlast] at hstubs
      exact stores_of_encode hstubs
    | some r =>
      rw [hlast] at hstubs
      exact stores_of_encode hstubs

/-- A vector that leads to the upper half, after it has led to somewhere else. Two bits of the ring
count. -/
theorem upperHalf_stored :
    let gate : Gate := { handler := 0xFFFFFFFF80123456, selector := 8, kind := some .trap, dpl := 3,
                         present := true, ist := 0 }
    let routings : List Routing :=
      [⟨0x80, 0x1000, .interrupt, 0⟩, ⟨0x80, 0xFFFFFFFF80123456, .trap, 7⟩]
    (blank.routed routings).Stores 0x80 gate ∧ gate.descriptor = 0xFFFFFFFF8012EF0000083456 ∧
    (blank.routed routings).Stores 0x81 absent ∧
    ((ofStubs 0x101000).routed routings).Stores 0x81 (leading 0x101810 .interrupt 0) ∧
    (blank.routed [⟨0x80, 0x1000, .interrupt, 0⟩]).entry 0x81 = {} := by
  intro gate routings
  obtain ⟨hset, -, -, -⟩ := routed_stores 0x101000 routings 0x80
  obtain ⟨hunset, hstub, -, hother⟩ := routed_stores 0x101000 routings 0x81
  have hgate : ((lastOf 0x80 routings).map Routing.gate).getD absent = gate := by decide
  rw [hgate] at hset
  exact ⟨hset, by decide, hunset, hstub, hother blank _ (by decide)⟩

end Idt

end Supervisor

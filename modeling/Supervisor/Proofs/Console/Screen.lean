import Supervisor.Console.Basic
import Supervisor.Proofs.Interrupt.Lines

/-!
# Texts on the screen

- `Console.fresh`: the blank screen that clearing leaves. It depends on the colours and on
  nothing else (`clear_recolor`).
- `Console.feed_append`: a text written in two pieces is the text written at once.
- `Console.Uniform`: all cells have the attribute that the pen has. A cleared screen is
  uniform (`uniform_fresh`) and stays so while texts are written, whether they wrap,
  return or scroll (`Uniform.emit`, `Uniform.feed`).
- `Pen.moves`, `run_synced`: the accesses that put the hardware cursor where the pen is.
-/

namespace Supervisor

/-- The accesses that move the hardware cursor to a pen. -/
def Pen.moves (p : Pen) : List PortEvent :=
  [.write Console.registerPort Console.cursorHigh.toUInt32,
   .write Console.dataPort (p.cursor >>> 8).toUInt8.toUInt32,
   .write Console.registerPort Console.cursorLow.toUInt32,
   .write Console.dataPort p.cursor.toUInt8.toUInt32]

namespace Console

variable {attr : UInt8} {c : Console}

/-! ## Clearing and writing -/

/-- A blank screen in given colours, with the pen at its start. -/
def fresh (fg bg : Color) : Console where
  pen := (default : Pen).recolor fg bg
  cells := Vector.replicate 2000 (blank ((default : Pen).recolor fg bg))

/-- Nothing of the previous screen is left, nor of where its pen was. -/
theorem clear_recolor (c : Console) (fg bg : Color) :
    (c.recolor fg bg).clear = (fresh fg bg).synced :=
  rfl

theorem feed_nil (c : Console) : c.feed [] = c := rfl

theorem feed_append (c : Console) (xs ys : List UInt8) : c.feed (xs ++ ys) = (c.feed xs).feed ys :=
  List.foldl_append

/-- An operation that ends with a move of the cursor leaves it where the pen is. -/
theorem run_synced (c : Console) (p : Ports) :
    (c.synced.run p).1 = c ∧ (c.synced.run p).2.log.toList = p.log.toList ++ c.pen.moves := by
  constructor
  · rfl
  · show ((c.moveCursor.run p).2).log.toList = _
    rw [moveCursor, Ports.run_bind, Ports.run_write8, Ports.run_bind, Ports.run_write8,
      Ports.run_bind, Ports.run_write8, Ports.run_write8]
    simp only [Ports.log_record, List.append_assoc]
    rfl

theorem run_writeText (c : Console) (s : String) (p : Ports) :
    ((c.writeText s).run p).1 = c.feed (Text.bytes s) :=
  (run_synced _ p).1

/-! ## Attributes -/

theorem toNat_cellOf (byte attr : UInt8) :
    (cellOf byte attr).toNat = 256 * attr.toNat + byte.toNat := by
  have hbyte : byte.toNat < 2 ^ 8 := byte.toNat_lt
  have hattr : attr.toNat < 2 ^ 8 := attr.toNat_lt
  have hshift : (attr.toUInt16 <<< 8 : UInt16).toNat = attr.toNat * 2 ^ 8 := by
    rw [UInt16.toNat_shiftLeft, UInt8.toNat_toUInt16, Nat.shiftLeft_eq]
    show attr.toNat * 2 ^ 8 % 2 ^ 16 = _
    omega
  rw [cellOf, UInt16.toNat_or, hshift, UInt8.toNat_toUInt16, Nat.mul_comm,
    ← Nat.two_pow_add_eq_or_of_lt hbyte]

/-- The attribute of a cell is what its upper byte says. -/
theorem attribute_cellOf (byte attr : UInt8) : (cellOf byte attr >>> 8).toUInt8 = attr := by
  have hbyte : byte.toNat < 2 ^ 8 := byte.toNat_lt
  have hattr : attr.toNat < 2 ^ 8 := attr.toNat_lt
  rw [← UInt8.toNat_inj, UInt16.toNat_toUInt8, UInt16.toNat_shiftRight, toNat_cellOf]
  show ((256 * attr.toNat + byte.toNat) >>> 8) % 2 ^ 8 = _
  rw [Nat.shiftRight_eq_div_pow]
  omega

/-- The character of a cell is what its lower byte says. -/
theorem character_cellOf (byte attr : UInt8) : (cellOf byte attr).toUInt8 = byte := by
  have hbyte : byte.toNat < 2 ^ 8 := byte.toNat_lt
  rw [← UInt8.toNat_inj, UInt16.toNat_toUInt8, toNat_cellOf]
  omega

/-- All cells have the given attribute, and so will the next one. -/
structure Uniform (attr : UInt8) (c : Console) : Prop where
  pen : c.pen.attributeByte = attr
  cells : ∀ (i : Nat) (hi : i < 2000), (c.cells[i] >>> 8).toUInt8 = attr

theorem uniform_fresh (fg bg : Color) : Uniform (Color.attributeByte fg bg) (fresh fg bg) := by
  constructor
  · rfl
  · intro i hi
    rw [fresh, Vector.getElem_replicate]
    exact attribute_cellOf _ _

namespace Uniform

theorem mem_attributes (h : Uniform attr c) {a : UInt8} (ha : a ∈ c.attributes) : a = attr := by
  rw [attributes, List.mem_map] at ha
  obtain ⟨v, hv, rfl⟩ := ha
  obtain ⟨i, hi, rfl⟩ := Vector.mem_iff_getElem.mp (Vector.mem_toList_iff.mp hv)
  exact h.cells i hi

/-- The row that appears when the screen scrolls is blank in the pen's colours. -/
theorem newLine (h : Uniform attr c) : Uniform attr c.newLine := by
  unfold Console.newLine
  split
  · exact ⟨h.pen, h.cells⟩
  · refine ⟨h.pen, ?_⟩
    intro i hi
    show ((scroll c.cells (blank c.pen))[i] >>> 8).toUInt8 = attr
    rw [scroll, Vector.getElem_ofFn]
    split
    · exact h.cells _ _
    · exact (attribute_cellOf _ _).trans h.pen

theorem put (h : Uniform attr c) (byte : UInt8) (hcol : c.pen.col < 80) :
    Uniform attr (c.put byte hcol) := by
  refine ⟨h.pen, ?_⟩
  intro i hi
  rw [Console.put, Vector.getElem_set]
  split
  · exact (attribute_cellOf _ _).trans h.pen
  · exact h.cells i hi

theorem emit (h : Uniform attr c) (byte : UInt8) : Uniform attr (c.emit byte) := by
  unfold Console.emit
  split
  · exact h.newLine
  · split
    · exact ⟨h.pen, h.cells⟩
    · split
      · exact h.put byte _
      · exact h.newLine.put byte _

theorem feed (h : Uniform attr c) (text : List UInt8) : Uniform attr (c.feed text) := by
  induction text generalizing c with
  | nil => exact h
  | cons byte text ih => exact ih (h.emit (glyph byte))

end Uniform

end Console

end Supervisor

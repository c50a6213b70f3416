import Supervisor.Proofs.Console.Screen
import Supervisor.Proofs.Run

/-!
# The console as a terminal

A screen that scrolls is a window on a longer text. The `Terminal` is that text: it has rows
without end, it never scrolls, and nothing in it is ever moved. Of its rows the console shows
the last 25 that have been reached.

- `Color.attributeByte_halves`: an attribute byte has the code of the foreground in its lower half
  and that of the background in its upper half.
- `Terminal.type`: one byte, as `Console.emit` on the screen.
- `Console.Shows`: what the console shows of a terminal.
- `Shows.newLine`: where the last row is left, the window moves down by one row. This is the
  only step in which the console and the terminal do different things.
- `Shows.emit`, `Shows.feed`: bytes and texts.
- `Console.Operation`, `Shows.perform`, `Shows.run`: what is asked of the console, one
  operation and any number of them.
-/

namespace Supervisor

/-! ## Attributes -/

namespace Color

theorem code_lt (c : Color) : c.code.toNat < 16 := by
  cases c <;> decide

theorem attributeByte_toNat (fg bg : Color) :
    (attributeByte fg bg).toNat = bg.code.toNat * 16 + fg.code.toNat := by
  have hbg := bg.code_lt
  have hshift : (bg.code <<< 4).toNat = bg.code.toNat <<< 4 := by
    rw [UInt8.toNat_shiftLeft]
    show bg.code.toNat <<< 4 % 2 ^ 8 = _
    rw [Nat.shiftLeft_eq]
    omega
  rw [attributeByte, UInt8.toNat_or, hshift, ← Nat.shiftLeft_add_eq_or_of_lt fg.code_lt,
    Nat.shiftLeft_eq]

/-- The two halves of an attribute byte. -/
theorem attributeByte_halves (fg bg : Color) :
    (attributeByte fg bg).toNat % 16 = fg.code.toNat ∧
      (attributeByte fg bg).toNat / 16 = bg.code.toNat := by
  have hfg := fg.code_lt
  rw [attributeByte_toNat]
  omega

end Color

/-! ## The terminal -/

/-- A text of rows of 80 cells, each a character with an attribute, and the place and colours
of the next character. -/
structure Terminal where
  row : Nat
  col : Nat
  fg : Color
  bg : Color
  cells : Nat → Nat → UInt8 × UInt8

namespace Terminal

/-- A terminal with nothing written on it. -/
def start (fg bg : Color) : Terminal where
  row := 0
  col := 0
  fg := fg
  bg := bg
  cells _ _ := (0x20, Color.attributeByte fg bg)

/-- The attribute of the next character. -/
def attributeByte (t : Terminal) : UInt8 :=
  Color.attributeByte t.fg t.bg

/-- Changes the colours. -/
def recolor (t : Terminal) (fg bg : Color) : Terminal :=
  { t with fg, bg }

/-- Goes to the start of the next row. The first 25 rows are there from the start; a later one
has not been reached before, and gets its colour now. -/
def newLine (t : Terminal) : Terminal :=
  { t with
    row := t.row + 1
    col := 0
    cells := fun i j => if i = t.row + 1 ∧ 25 ≤ i then (0x20, t.attributeByte) else t.cells i j }

/-- Goes to the start of the row. -/
def home (t : Terminal) : Terminal :=
  { t with col := 0 }

/-- Writes a character. -/
def put (t : Terminal) (byte : UInt8) : Terminal :=
  { t with
    col := t.col + 1
    cells := fun i j => if i = t.row ∧ j = t.col then (byte, t.attributeByte) else t.cells i j }

/-- Handles one byte. -/
def type (t : Terminal) (byte : UInt8) : Terminal :=
  if byte = 0x0A then t.newLine
  else if byte = 0x0D then t.home
  else if t.col = 80 then t.newLine.put byte
  else t.put byte

/-- What a byte of text is written as: whatever is neither printable nor moves the pen is a
block. -/
def shown (byte : UInt8) : UInt8 :=
  if (0x20 ≤ byte ∧ byte ≤ 0x7e) ∨ byte = 0x0A ∨ byte = 0x0D then byte else 0xfe

/-- Handles a text. -/
def typeText (t : Terminal) (s : String) : Terminal :=
  (Text.bytes s).foldl (fun t byte => t.type (shown byte)) t

section Cells

variable {t : Terminal} {i j : Nat}

theorem cells_newLine_old (h : i ≤ t.row ∨ i < 25) : t.newLine.cells i j = t.cells i j :=
  if_neg (by omega)

theorem cells_newLine_reached (h : 24 ≤ t.row) :
    t.newLine.cells (t.row + 1) j = (0x20, t.attributeByte) :=
  if_pos ⟨rfl, Nat.succ_le_succ h⟩

end Cells

end Terminal

/-! ## Cells of the screen -/

namespace Console

variable {c : Console} {t : Terminal} {i j : Nat}

/-- What a cell shows. -/
def contents (value : UInt16) : UInt8 × UInt8 :=
  (value.toUInt8, (value >>> 8).toUInt8)

theorem contents_cellOf (byte attr : UInt8) : contents (cellOf byte attr) = (byte, attr) :=
  Prod.ext (character_cellOf byte attr) (attribute_cellOf byte attr)

theorem place_lt (hi : i < 25) (hj : j < 80) : i * 80 + j < 2000 := by
  omega

theorem cell_eq (h : i * 80 + j < 2000) : c.cell i j = contents c.cells[i * 80 + j] := by
  rw [cell, Vector.getElem?_eq_getElem h]
  rfl

theorem cell_fresh (fg bg : Color) (hi : i < 25) (hj : j < 80) :
    (fresh fg bg).cell i j = (0x20, Color.attributeByte fg bg) := by
  rw [cell_eq (place_lt hi hj)]
  simp only [fresh, Vector.getElem_replicate]
  exact contents_cellOf _ _

/-- A new line above the last row only moves the pen. -/
theorem newLine_above (h : c.pen.row + 1 < 25) :
    c.newLine.pen.row = c.pen.row + 1 ∧ c.newLine.cells = c.cells := by
  rw [newLine, dif_pos h]
  exact ⟨rfl, rfl⟩

/-- In the last row, the pen stays and the screen scrolls. -/
theorem newLine_last (h : ¬ c.pen.row + 1 < 25) :
    c.newLine.pen.row = 24 ∧ c.newLine.cells = scroll c.cells (blank c.pen) := by
  rw [newLine, dif_neg h]
  exact ⟨rfl, rfl⟩

theorem newLine_colors (c : Console) :
    c.newLine.pen.fg = c.pen.fg ∧ c.newLine.pen.bg = c.pen.bg := by
  rw [newLine]
  split <;> exact ⟨rfl, rfl⟩

/-- Scrolling shows what was one row further down, and a blank row. -/
theorem cell_scroll {d : Console} (h : d.cells = scroll c.cells (blank c.pen)) (hi : i < 25)
    (hj : j < 80) :
    d.cell i j = if i < 24 then c.cell (i + 1) j else (0x20, c.pen.attributeByte) := by
  rw [cell_eq (place_lt hi hj)]
  simp only [h, scroll, Vector.getElem_ofFn]
  by_cases hinner : i < 24
  · have hbelow : i * 80 + j + 80 < 2000 := by omega
    have hplace : i * 80 + j + 80 = (i + 1) * 80 + j := by omega
    rw [if_pos hinner, dif_pos hbelow, cell_eq (hplace ▸ hbelow)]
    simp only [hplace]
  · have hend : ¬ i * 80 + j + 80 < 2000 := by omega
    rw [if_neg hinner, dif_neg hend]
    exact contents_cellOf _ _

/-- A character is put into one cell. -/
theorem cell_put (byte : UInt8) (hcol : c.pen.col < 80) (hi : i < 25) (hj : j < 80) :
    (c.put byte hcol).cell i j =
      if i = c.pen.row ∧ j = c.pen.col then (byte, c.pen.attributeByte) else c.cell i j := by
  rw [cell_eq (place_lt hi hj), cell_eq (place_lt hi hj)]
  simp only [put, Vector.getElem_set]
  have hplace : c.pen.row * 80 + c.pen.col = i * 80 + j ↔ i = c.pen.row ∧ j = c.pen.col := by omega
  by_cases hhere : i = c.pen.row ∧ j = c.pen.col
  · rw [if_pos hhere, if_pos (hplace.mpr hhere)]
    exact contents_cellOf _ _
  · rw [if_neg hhere, if_neg (mt hplace.mp hhere)]

/-! ## The window -/

/-- The console shows the last 25 rows of a terminal that have been reached, and writes where
the terminal does. -/
structure Shows (c : Console) (t : Terminal) : Prop where
  row : c.pen.row = min t.row 24
  col : c.pen.col = t.col
  fg : c.pen.fg = t.fg
  bg : c.pen.bg = t.bg
  cells : ∀ i < 25, ∀ j < 80, c.cell i j = t.cells (t.row - 24 + i) j

theorem shows_fresh (fg bg : Color) : Shows (fresh fg bg) (Terminal.start fg bg) where
  row := rfl
  col := rfl
  fg := rfl
  bg := rfl
  cells _ hi _ hj := cell_fresh fg bg hi hj

namespace Shows

theorem attributeByte (h : Shows c t) : c.pen.attributeByte = t.attributeByte := by
  rw [Pen.attributeByte, h.fg, h.bg, Terminal.attributeByte]

theorem recolor (h : Shows c t) (fg bg : Color) : Shows (c.recolor fg bg) (t.recolor fg bg) :=
  { h with fg := rfl, bg := rfl }

/-- Above the last row, the window stays. -/
theorem newLine_above (h : Shows c t) (habove : c.pen.row + 1 < 25) :
    Shows c.newLine t.newLine := by
  have hrow := h.row
  have hwindow (i : Nat) : t.row + 1 - 24 + i = t.row - 24 + i := by omega
  obtain ⟨hrow', hcells⟩ := Console.newLine_above habove
  obtain ⟨hfg, hbg⟩ := newLine_colors c
  refine ⟨?_, newLine_col c, hfg.trans h.fg, hbg.trans h.bg, ?_⟩
  · show _ = min (t.row + 1) 24
    omega
  · intro i hi j hj
    show c.newLine.cell i j = t.newLine.cells (t.row + 1 - 24 + i) j
    rw [hwindow, Terminal.cells_newLine_old (by omega), ← h.cells i hi j hj, cell, cell, hcells]

/-- In the last row, the window moves down by one, and what comes into sight is the row that the
terminal reaches. -/
theorem newLine_last (h : Shows c t) (hlast : ¬ c.pen.row + 1 < 25) :
    Shows c.newLine t.newLine := by
  have hrow := h.row
  obtain ⟨hrow', hcells⟩ := Console.newLine_last hlast
  obtain ⟨hfg, hbg⟩ := newLine_colors c
  refine ⟨?_, newLine_col c, hfg.trans h.fg, hbg.trans h.bg, ?_⟩
  · show _ = min (t.row + 1) 24
    omega
  · intro i hi j hj
    rw [cell_scroll hcells hi hj]
    show _ = t.newLine.cells (t.row + 1 - 24 + i) j
    by_cases hinner : i < 24
    · have hwindow : t.row + 1 - 24 + i = t.row - 24 + (i + 1) := by omega
      rw [if_pos hinner, hwindow, Terminal.cells_newLine_old (by omega)]
      exact h.cells (i + 1) (by omega) j hj
    · have hwindow : t.row + 1 - 24 + i = t.row + 1 := by omega
      rw [if_neg hinner, hwindow, Terminal.cells_newLine_reached (by omega), h.attributeByte]

theorem newLine (h : Shows c t) : Shows c.newLine t.newLine := by
  by_cases hnext : c.pen.row + 1 < 25
  · exact h.newLine_above hnext
  · exact h.newLine_last hnext

theorem put (h : Shows c t) (byte : UInt8) (hcol : c.pen.col < 80) :
    Shows (c.put byte hcol) (t.put byte) := by
  refine ⟨h.row, congrArg (· + 1) h.col, h.fg, h.bg, ?_⟩
  intro i hi j hj
  have hrow := h.row
  have hhere : i = c.pen.row ∧ j = c.pen.col ↔ t.row - 24 + i = t.row ∧ j = t.col := by
    rw [h.col]
    omega
  rw [cell_put byte hcol hi hj, h.attributeByte, h.cells i hi j hj]
  simp only [hhere]
  rfl

/-- A full row is left when the next character comes, on the screen and on the terminal. -/
theorem emit (h : Shows c t) (byte : UInt8) : Shows (c.emit byte) (t.type byte) := by
  unfold Console.emit Terminal.type
  split
  · exact h.newLine
  · split
    · exact { h with col := rfl }
    · split
      · next hcol =>
        have hroom : t.col ≠ 80 := by rw [← h.col]; omega
        rw [if_neg hroom]
        exact h.put byte hcol
      · next hfull =>
        have hend : t.col = 80 := by
          rw [← h.col]
          exact Nat.le_antisymm c.pen.col_le (Nat.not_lt.mp hfull)
        rw [if_pos hend]
        exact h.newLine.put byte _

theorem feed (h : Shows c t) (s : String) : Shows (c.feed (Text.bytes s)) (t.typeText s) :=
  List.foldl_rel h fun byte _ _ _ h => h.emit (glyph byte)

end Shows

/-! ## Operations -/

/-- What is asked of a console. -/
inductive Operation where
  | recolor (fg bg : Color)
  /-- A byte is written as it is. -/
  | byte (byte : UInt8)
  | text (s : String)
  /-- A text is written in other colours. -/
  | textIn (s : String) (fg bg : Color)
  /-- Formatted output arrives as pieces of text. -/
  | format (pieces : List String)
  deriving DecidableEq, Repr

/-- Performs an operation. -/
def perform (c : Console) : Operation → PortM Console
  | .recolor fg bg => return c.recolor fg bg
  | .byte byte => c.writeByte byte
  | .text s => c.writeText s
  | .textIn s fg bg => c.writeIn s fg bg
  | .format pieces => pieces.foldlM writeText c

end Console

/-- Performs an operation. -/
def Terminal.perform (t : Terminal) : Console.Operation → Terminal
  | .recolor fg bg => t.recolor fg bg
  | .byte byte => t.type byte
  | .text s => t.typeText s
  | .textIn s fg bg => ((t.recolor fg bg).typeText s).recolor t.fg t.bg
  | .format pieces => pieces.foldl typeText t

namespace Console

variable {c : Console} {t : Terminal}

namespace Shows

theorem pieces (h : Shows c t) (pieces : List String) (p : Ports) :
    Shows ((pieces.foldlM writeText c).run p).1 (pieces.foldl Terminal.typeText t) := by
  rw [run_foldlM]
  exact List.foldl_rel (r := fun (r : Console × Ports) t => Shows r.1 t) h
    fun s _ _ _ h => h.feed s

theorem perform (h : Shows c t) (op : Operation) (p : Ports) :
    Shows ((c.perform op).run p).1 (t.perform op) := by
  cases op with
  | recolor fg bg => exact h.recolor fg bg
  | byte byte => exact h.emit byte
  | text s => exact h.feed s
  | textIn s fg bg =>
    show Shows _ (((t.recolor fg bg).typeText s).recolor t.fg t.bg)
    rw [← h.fg, ← h.bg]
    exact ((h.recolor fg bg).feed s).recolor _ _
  | format pieces => exact h.pieces pieces p

theorem run (h : Shows c t) (ops : List Operation) (p : Ports) :
    Shows ((ops.foldlM Console.perform c).run p).1 (ops.foldl Terminal.perform t) := by
  rw [run_foldlM]
  exact List.foldl_rel (r := fun (r : Console × Ports) t => Shows r.1 t) h
    fun op _ r _ h => h.perform op r.2

end Shows

end Console

end Supervisor

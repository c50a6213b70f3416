import Supervisor.Ports
import Supervisor.Text
import Supervisor.Console.Color

/-!
# The text console

A screen of 25 rows of 80 cells, each a character with an attribute, and the
place and colours of the next character.

- `Pen`: the place and the colours. Its bounds are part of the type, so every
  cell the console touches is one of the 2000.
- `Console.emit`: one byte. A line feed or a full row starts a new line; past
  the last row the screen scrolls, and the row that appears is blank in the
  current colours.
- `Console.clear`, `Console.writeByte`, `Console.writeText`,
  `Console.writeIn`: the operations, each followed by moving the hardware
  cursor.
- `Console.settled`: the events of an observer who only sees where the cursor
  comes to rest.
- `Console.cell`, `Console.characters`, `Console.attributes`: reading the screen.

Text is written byte by byte; a byte that is neither printable ASCII, a line
feed nor a carriage return shows as a block.
-/

namespace Supervisor

/-- The place of the next character and the colours it will have. -/
structure Pen where
  /-- The row, from the top. -/
  row : Nat := 0
  /-- The column; 80 means that the row is full. -/
  col : Nat := 0
  fg : Color := .white
  bg : Color := .black
  row_lt : row < 25 := by omega
  col_le : col ≤ 80 := by omega
  deriving DecidableEq, Repr

instance : Inhabited Pen := ⟨{}⟩

namespace Pen

/-- Changes the colours. -/
def recolor (p : Pen) (fg bg : Color) : Pen :=
  { p with fg, bg }

/-- The attribute of the next character. -/
def attributeByte (p : Pen) : UInt8 :=
  Color.attributeByte p.fg p.bg

/-- The cell the hardware cursor is on; behind a full row that is its last
one. -/
def cursor (p : Pen) : UInt16 :=
  UInt16.ofNat (p.row * 80 + min p.col 79)

end Pen

/-- Cells of the screen, row by row. -/
abbrev Cells := Vector UInt16 2000

/-- A screen and its pen. -/
structure Console where
  pen : Pen := {}
  cells : Cells
  deriving DecidableEq, Repr

namespace Console

/-- A character with an attribute. -/
def cellOf (byte attr : UInt8) : UInt16 :=
  attr.toUInt16 <<< 8 ||| byte.toUInt16

/-- A blank in the colours of a pen. -/
def blank (p : Pen) : UInt16 :=
  cellOf 0x20 p.attributeByte

/-- Changes the colours. -/
def recolor (c : Console) (fg bg : Color) : Console :=
  { c with pen := c.pen.recolor fg bg }

/-! ## Bytes -/

/-- The cells after moving every row up by one, the last row being `cell`
throughout. -/
def scroll (cells : Cells) (cell : UInt16) : Cells :=
  Vector.ofFn fun i => if h : i.val + 80 < 2000 then cells[i.val + 80] else cell

/-- Moves to the start of the next row, scrolling if there is none. -/
def newLine (c : Console) : Console :=
  if h : c.pen.row + 1 < 25 then
    { c with pen := { c.pen with row := c.pen.row + 1, col := 0, row_lt := h, col_le := by omega } }
  else
    { pen := { c.pen with row := 24, col := 0, row_lt := by omega, col_le := by omega },
      cells := scroll c.cells (blank c.pen) }

/-- Writes a character at the pen of a row that is not full. -/
def put (c : Console) (byte : UInt8) (hcol : c.pen.col < 80) : Console :=
  have hrow := c.pen.row_lt
  { pen := { c.pen with col := c.pen.col + 1, row_lt := hrow, col_le := hcol },
    cells := c.cells.set (c.pen.row * 80 + c.pen.col) (cellOf byte c.pen.attributeByte) }

theorem newLine_col (c : Console) : c.newLine.pen.col = 0 := by
  unfold newLine
  split <;> rfl

/-- Handles one byte. -/
def emit (c : Console) (byte : UInt8) : Console :=
  if byte = 0x0A then c.newLine
  else if byte = 0x0D then { c with pen := { c.pen with col := 0, row_lt := c.pen.row_lt, col_le := by omega } }
  else if hcol : c.pen.col < 80 then c.put byte hcol
  else c.newLine.put byte (by rw [newLine_col]; omega)

/-- What a byte of text shows as. -/
def glyph (byte : UInt8) : UInt8 :=
  if (0x20 ≤ byte ∧ byte ≤ 0x7e) ∨ byte = 0x0A ∨ byte = 0x0D then byte else 0xfe

/-- Handles the bytes of a text. -/
def feed (c : Console) (text : List UInt8) : Console :=
  text.foldl (fun c byte => c.emit (glyph byte)) c

/-! ## Operations -/

/-- The port that selects a register of the display controller. -/
abbrev registerPort : UInt16 := 0x3D4
/-- The port that accesses the selected register. -/
abbrev dataPort : UInt16 := 0x3D5
/-- The register with the high byte of the cursor. -/
abbrev cursorHigh : UInt8 := 0x0E
/-- The register with the low byte of the cursor. -/
abbrev cursorLow : UInt8 := 0x0F

/-- Moves the hardware cursor to the pen. -/
def moveCursor (c : Console) : PortM Unit := do
  Ports.write8 registerPort cursorHigh
  Ports.write8 dataPort (c.pen.cursor >>> 8).toUInt8
  Ports.write8 registerPort cursorLow
  Ports.write8 dataPort c.pen.cursor.toUInt8

/-- The console with its cursor moved. -/
def synced (c : Console) : PortM Console := do
  c.moveCursor
  return c

/-- A screen of blanks in the current colours, with the pen at its start. -/
def cleared (c : Console) : Console where
  pen := { c.pen with row := 0, col := 0, row_lt := by omega, col_le := by omega }
  cells := Vector.replicate 2000 (blank c.pen)

/-- Clears the screen. -/
def clear (c : Console) : PortM Console :=
  c.cleared.synced

/-- Writes a byte as it is. -/
def writeByte (c : Console) (byte : UInt8) : PortM Console :=
  (c.emit byte).synced

/-- Writes a text. -/
def writeText (c : Console) (s : String) : PortM Console :=
  (c.feed (Text.bytes s)).synced

/-- Writes a text in other colours. -/
def writeIn (c : Console) (s : String) (fg bg : Color) : PortM Console := do
  let written ← (c.recolor fg bg).writeText s
  return written.recolor c.pen.fg c.pen.bg

/-- Whether events begin with a move of the hardware cursor. -/
def startsWithMove (events : List PortEvent) : Bool :=
  match events.take 4 with
  | [.write p r, .write q _, .write p' r', .write q' _] =>
    p == registerPort && r == cursorHigh.toUInt32 && q == dataPort
      && p' == registerPort && r' == cursorLow.toUInt32 && q' == dataPort
  | _ => false

/-- Events without the cursor moves that another move directly follows: of a
run of moves only the last one can be seen. -/
def settled : List PortEvent → List PortEvent
  | [] => []
  | e :: rest =>
    if startsWithMove (e :: rest) && startsWithMove (rest.drop 3) then settled (rest.drop 3)
    else e :: settled rest
  termination_by events => events.length
  decreasing_by all_goals simp only [List.length_drop, List.length_cons]; omega

/-! ## Reading -/

/-- The character and attribute of a cell. -/
def cell (c : Console) (row col : Nat) : UInt8 × UInt8 :=
  let value := c.cells[row * 80 + col]?.getD 0
  (value.toUInt8, (value >>> 8).toUInt8)

/-- The characters of all cells, row by row. -/
def characters (c : Console) : List Char :=
  c.cells.toList.map fun (v : UInt16) => Text.charOf v.toUInt8

/-- The attributes of all cells, row by row. -/
def attributes (c : Console) : List UInt8 :=
  c.cells.toList.map fun (v : UInt16) => (v >>> 8).toUInt8

end Console

end Supervisor

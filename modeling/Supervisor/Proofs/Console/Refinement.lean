import Supervisor.Proofs.Console.Video

/-!
# The console refines the terminal

- `Crtc`: the display controller, of which the console programs the place of the cursor. A
  register is selected by one access and written by another (`Crtc.observe`).
- `Console.cursor_synced`: an operation that ends with a move of the cursor leaves it where the
  pen is, behind a full row on the last cell. So does every operation
  (`Console.cursor_perform`), since those that do not move the cursor do not move the pen.
- `Console.refines_terminal` is the main statement: what is on the screen, where the cursor is,
  and what of memory was accessed, after any sequence of operations on a cleared screen.
-/

namespace Supervisor

/-! ## The display controller -/

/-- The display controller, with the register that is selected and what its registers hold. -/
structure Crtc where
  selected : UInt8
  registers : UInt8 → UInt8

namespace Crtc

/-- What an access to a port does to the controller. -/
def observe (d : Crtc) : PortEvent → Crtc
  | .read _ _ => d
  | .write port value =>
    if port = Console.registerPort then { d with selected := value.toUInt8 }
    else if port = Console.dataPort then
      { d with registers := fun r => if r = d.selected then value.toUInt8 else d.registers r }
    else d

/-- The cell that the cursor is on. -/
def cursor (d : Crtc) : Nat :=
  (d.registers Console.cursorHigh).toNat * 256 + (d.registers Console.cursorLow).toNat

theorem observe_register (d : Crtc) (r : UInt8) :
    d.observe (.write Console.registerPort r.toUInt32) = { d with selected := r } := by
  rw [observe, if_pos rfl, UInt8.toUInt8_toUInt32]

theorem observe_data (d : Crtc) (value : UInt8) :
    d.observe (.write Console.dataPort value.toUInt32) =
      { d with registers := fun r => if r = d.selected then value else d.registers r } := by
  have hother : Console.dataPort ≠ Console.registerPort := by decide
  rw [observe, if_neg hother, if_pos rfl, UInt8.toUInt8_toUInt32]

/-- The two halves of the address arrive in the registers they are meant for. -/
theorem cursor_moves (d : Crtc) (p : Pen) :
    (p.moves.foldl observe d).cursor = p.row * 80 + min p.col 79 := by
  have hmoved : p.moves.foldl observe d = {
      selected := Console.cursorLow
      registers := fun r => if r = Console.cursorLow then p.cursor.toUInt8
        else if r = Console.cursorHigh then (p.cursor >>> 8).toUInt8 else d.registers r } := by
    simp only [Pen.moves, List.foldl_cons, List.foldl_nil, observe_register, observe_data]
  have hrow := p.row_lt
  have haddress : p.cursor.toNat = p.row * 80 + min p.col 79 :=
    UInt16.toNat_ofNat_of_lt' (by show _ < 2 ^ 16; omega)
  rw [hmoved]
  show (p.cursor >>> 8).toUInt8.toNat * 256 + p.cursor.toUInt8.toNat = _
  rw [UInt16.toNat_toUInt8, UInt16.toNat_toUInt8, UInt16.toNat_shiftRight, haddress]
  show (_ >>> 8) % 2 ^ 8 * 256 + _ = _
  rw [Nat.shiftRight_eq_div_pow]
  omega

end Crtc

/-- The display controller after all accesses so far, if it was `start` before the first one. -/
def Ports.crtc (p : Ports) (start : Crtc) : Crtc :=
  p.log.toList.foldl Crtc.observe start

namespace Console

variable {c : Console} {p : Ports} {device : Crtc}

/-! ## The cursor -/

/-- The cursor is on the cell where the next character goes, or on the last one of a full row. -/
def CursorAt (device : Crtc) (c : Console) (p : Ports) : Prop :=
  (p.crtc device).cursor = c.pen.row * 80 + min c.pen.col 79

theorem cursor_synced (device : Crtc) (c : Console) (p : Ports) :
    CursorAt device (c.synced.run p).1 (c.synced.run p).2 := by
  obtain ⟨hsame, hlog⟩ := run_synced c p
  rw [hsame, CursorAt, Ports.crtc, hlog, List.foldl_append]
  exact Crtc.cursor_moves _ _

theorem cursor_pieces (h : CursorAt device c p) (pieces : List String) :
    CursorAt device ((pieces.foldlM writeText c).run p).1
      ((pieces.foldlM writeText c).run p).2 := by
  rw [run_foldlM]
  induction pieces generalizing c p with
  | nil => exact h
  | cons s pieces ih => exact ih (cursor_synced device _ p)

theorem cursor_perform (h : CursorAt device c p) (op : Operation) :
    CursorAt device ((c.perform op).run p).1 ((c.perform op).run p).2 := by
  cases op with
  | recolor fg bg => exact h
  | byte byte => exact cursor_synced device _ p
  | text s => exact cursor_synced device _ p
  | textIn s fg bg => exact cursor_synced device ((c.recolor fg bg).feed (Text.bytes s)) p
  | format pieces => exact cursor_pieces h pieces

theorem cursor_run (h : CursorAt device c p) (ops : List Operation) :
    CursorAt device ((ops.foldlM perform c).run p).1 ((ops.foldlM perform c).run p).2 := by
  rw [run_foldlM]
  induction ops generalizing c p with
  | nil => exact h
  | cons op ops ih => exact ih (cursor_perform h op)

end Console

/-! ## Sessions -/

/-- Clears the screen and performs operations. -/
def Console.session (c : Console) (ops : List Operation) : PortM Console := do
  ops.foldlM perform (← c.clear)

/-- Clears the screen and performs operations, access by access. -/
def Writer.session (w : Writer) (ops : List Console.Operation) : VideoM Writer := do
  ops.foldlM perform (← w.clear)

/-- From any screen, bus and memory, and for any sequence of operations after the screen was
cleared: the console shows the last 25 rows of a terminal and writes where the terminal does;
the next character gets the foreground in the lower half of its attribute and the background in
the upper one; the cursor is there as well; and the accesses to video memory bring the same
cells about without leaving the screen. Every stage of a session is a session, so this holds
after each operation of it. -/
theorem Console.refines_terminal (c : Console) (ops : List Operation) (p : Ports) (device : Crtc)
    (memory : Nat → UInt16) (row col : Nat) :
    let (shown, bus) := (c.session ops).run p
    let terminal := ops.foldl Terminal.perform (.start c.pen.fg c.pen.bg)
    let writer : Writer := { row, col, fg := c.pen.fg, bg := c.pen.bg }
    let (drawn, video) := (writer.session ops).run { cells := memory }
    shown.Shows terminal ∧
      (terminal.attributeByte.toNat % 16 = terminal.fg.code.toNat ∧
        terminal.attributeByte.toNat / 16 = terminal.bg.code.toNat) ∧
      (bus.crtc device).cursor = shown.pen.row * 80 + min shown.pen.col 79 ∧
      drawn.Draws memory video shown := by
  refine ⟨?_, Color.attributeByte_halves _ _, ?_, ?_⟩
  · have hcleared : c.cleared.Shows (.start c.pen.fg c.pen.bg) := shows_fresh c.pen.fg c.pen.bg
    exact hcleared.run ops _
  · exact cursor_run (cursor_synced device c.cleared p) ops
  · exact (Writer.draws_clear rfl rfl memory).run ops _

end Supervisor

import Supervisor.Proofs.Console.Terminal

/-!
# The console in video memory

The screen is memory like any other: no type keeps an offset below 2000, nor a row below 25,
and scrolling moves the cells one by one within the memory that it reads them from. Here the
console is written down as these accesses, and compared with the one whose cells are a value.

- `VideoM`: a program that accesses video memory, with the offsets it has accessed.
- `Writer`: the pen without bounds. Its operations are those of `Console`, down to the single
  access.
- `Video.run_copyUps`: a cell that is copied has not been overwritten before, since the copies
  run ahead of the cells they replace.
- `Writer.Draws`: the memory holds the cells of a console, none of its offsets was outside the
  screen, and memory behind the screen is as it was. Every operation keeps it
  (`Draws.perform`), and so does every sequence of them (`Draws.run`).
-/

namespace Supervisor

/-! ## Accesses -/

/-- Video memory by offset, and the offsets that were accessed. -/
structure Video where
  cells : Nat → UInt16
  touched : List Nat := []

/-- A program that accesses video memory. -/
abbrev VideoM := StateM Video

namespace Video

/-- Reads a cell. -/
def peek (offset : Nat) : VideoM UInt16 := do
  modify fun v => { v with touched := offset :: v.touched }
  return (← get).cells offset

/-- Writes a cell. -/
def poke (offset : Nat) (value : UInt16) : VideoM Unit :=
  modify fun v => {
    cells := fun k => if k = offset then value else v.cells k
    touched := offset :: v.touched }

/-- Copies a cell to the same column of the row above. -/
def copyUp (offset : Nat) : VideoM Unit := do
  poke (offset - 80) (← peek offset)

-- The loops are irreducible: `run_copyUps` and `run_fill` say what they do, and going through
-- two thousand steps of them says it no better.

/-- Copies cells up, starting with those of the second row. -/
@[irreducible] def copyUps (count : Nat) : VideoM Unit :=
  (List.range' 80 count).forM copyUp

/-- Writes the same value into cells that follow each other. -/
@[irreducible] def fill (start count : Nat) (value : UInt16) : VideoM Unit :=
  (List.range' start count).forM fun offset => poke offset value

end Video

/-- The place and the colours of the next character. -/
structure Writer where
  row : Nat
  col : Nat
  fg : Color
  bg : Color

namespace Writer

open Video (fill poke copyUps)

/-- A cell in the colours of the writer. -/
def cellOf (w : Writer) (byte : UInt8) : UInt16 :=
  Console.cellOf byte (Color.attributeByte w.fg w.bg)

/-- Changes the colours. -/
def recolor (w : Writer) (fg bg : Color) : Writer :=
  { w with fg, bg }

/-- Moves all rows up, and blanks the last one. -/
def scroll (w : Writer) : VideoM Unit := do
  copyUps 1920
  fill 1920 80 (w.cellOf 0x20)

/-- Moves to the start of the next row, and scrolls if it is not on the screen. -/
def newLine (w : Writer) : VideoM Writer := do
  let next := { w with row := w.row + 1, col := 0 }
  if 25 ≤ next.row then
    next.scroll
    return { next with row := 24 }
  else
    return next

/-- Writes a character at the pen. -/
def put (w : Writer) (byte : UInt8) : VideoM Writer := do
  poke (w.row * 80 + w.col) (w.cellOf byte)
  return { w with col := w.col + 1 }

/-- Handles one byte. -/
def emit (w : Writer) (byte : UInt8) : VideoM Writer := do
  if byte = 0x0A then
    w.newLine
  else if byte = 0x0D then
    return { w with col := 0 }
  else if 80 ≤ w.col then
    (← w.newLine).put byte
  else
    w.put byte

/-- Clears the screen. -/
def clear (w : Writer) : VideoM Writer := do
  fill 0 2000 (w.cellOf 0x20)
  return { w with row := 0, col := 0 }

/-- Writes a text. -/
def writeText (w : Writer) (s : String) : VideoM Writer :=
  (Text.bytes s).foldlM (fun w byte => w.emit (Console.glyph byte)) w

/-- Performs an operation. -/
def perform (w : Writer) : Console.Operation → VideoM Writer
  | .recolor fg bg => return w.recolor fg bg
  | .byte byte => w.emit byte
  | .text s => w.writeText s
  | .textIn s fg bg => do return (← (w.recolor fg bg).writeText s).recolor w.fg w.bg
  | .format pieces => pieces.foldlM writeText w

end Writer

/-! ## Loops -/

namespace Video

theorem run_bind {α β : Type} (x : VideoM α) (k : α → VideoM β) (v : Video) :
    (x >>= k).run v = (k (x.run v).1).run (x.run v).2 :=
  rfl

theorem run_pure {α : Type} (a : α) (v : Video) : (pure a : VideoM α).run v = (a, v) :=
  rfl

theorem run_forM_concat (f : Nat → VideoM Unit) (xs : List Nat) (x : Nat) (v : Video) :
    (((xs ++ [x]).forM f).run v).2 = ((f x).run ((xs.forM f).run v).2).2 := by
  induction xs generalizing v with
  | nil => rfl
  | cons y xs ih => exact ih _

theorem fill_succ (start count : Nat) (value : UInt16) (v : Video) :
    ((fill start (count + 1) value).run v).2 =
      ((poke (start + count) value).run ((fill start count value).run v).2).2 := by
  rw [fill, fill, List.range'_1_concat, run_forM_concat]

/-- Filling writes the cells it is told to, and touches no others. -/
theorem run_fill (start count : Nat) (value : UInt16) (v : Video) :
    let after := ((fill start count value).run v).2
    (∀ k, after.cells k = if start ≤ k ∧ k < start + count then value else v.cells k) ∧
      ∀ k ∈ after.touched, k ∈ v.touched ∨ k < start + count := by
  induction count with
  | zero =>
    rw [fill]
    refine ⟨fun k => ?_, fun k hk => .inl hk⟩
    rw [if_neg (by omega)]
    rfl
  | succ count ih =>
    obtain ⟨hcells, htouched⟩ := ih
    rw [fill_succ]
    constructor
    · intro k
      show (if k = start + count then value else ((fill start count value).run v).2.cells k) = _
      rw [hcells]
      by_cases hlast : k = start + count
      · rw [if_pos hlast, if_pos (by omega)]
      · have hsame : start ≤ k ∧ k < start + (count + 1) ↔ start ≤ k ∧ k < start + count := by omega
        rw [if_neg hlast]
        simp only [hsame]
    · intro k hk
      rcases List.mem_cons.mp hk with rfl | hk
      · exact .inr (by omega)
      · exact (htouched k hk).imp_right (by omega)

theorem copyUps_succ (count : Nat) (v : Video) :
    ((copyUps (count + 1)).run v).2 = ((copyUp (80 + count)).run ((copyUps count).run v).2).2 := by
  rw [copyUps, copyUps, List.range'_1_concat, run_forM_concat]

/-- When the cells up to some offset have been copied up, those behind it are still there to be
copied. -/
theorem run_copyUps (count : Nat) (v : Video) :
    let after := ((copyUps count).run v).2
    (∀ k, after.cells k = if k < count then v.cells (k + 80) else v.cells k) ∧
      ∀ k ∈ after.touched, k ∈ v.touched ∨ k < count + 80 := by
  induction count with
  | zero =>
    rw [copyUps]
    exact ⟨fun k => rfl, fun k hk => .inl hk⟩
  | succ count ih =>
    obtain ⟨hcells, htouched⟩ := ih
    rw [copyUps_succ]
    constructor
    · intro k
      let before := ((copyUps count).run v).2
      show (if k = 80 + count - 80 then before.cells (80 + count) else before.cells k) = _
      have hread : before.cells (80 + count) = v.cells (80 + count) :=
        (hcells _).trans (if_neg (by omega))
      rw [hread, hcells, Nat.add_sub_cancel_left]
      by_cases hlast : k = count
      · rw [hlast, if_pos rfl, if_pos (Nat.lt_succ_self count), Nat.add_comm]
      · have hsame : k < count + 1 ↔ k < count := by omega
        rw [if_neg hlast]
        simp only [hsame]
    · intro k hk
      rcases List.mem_cons.mp hk with rfl | hk
      · exact .inr (by omega)
      · rcases List.mem_cons.mp hk with rfl | hk
        · exact .inr (by omega)
        · exact (htouched k hk).imp_right (by omega)

/-- Scrolling replaces every cell of the screen, and touches nothing behind it. -/
theorem run_scroll (w : Writer) (v : Video) :
    let after := (w.scroll.run v).2
    (∀ k, after.cells k =
      if k < 1920 then v.cells (k + 80) else if k < 2000 then w.cellOf 0x20 else v.cells k) ∧
    ∀ k ∈ after.touched, k ∈ v.touched ∨ k < 2000 := by
  obtain ⟨hcopied, htouched⟩ := run_copyUps 1920 v
  obtain ⟨hfilled, htouched'⟩ := run_fill 1920 80 (w.cellOf 0x20) ((copyUps 1920).run v).2
  constructor
  · intro k
    refine (hfilled k).trans ?_
    rw [hcopied]
    by_cases hupper : k < 1920
    · rw [if_neg (by omega), if_pos hupper, if_pos hupper]
    · have hsame : 1920 ≤ k ∧ k < 1920 + 80 ↔ k < 2000 := by omega
      rw [if_neg hupper, if_neg hupper]
      simp only [hsame]
  · intro k hk
    rcases htouched' k hk with hk | hk
    · exact htouched k hk
    · exact .inr hk

end Video

/-! ## The console and its memory -/

namespace Writer

/-- A writer at the pen of a console, whose cells are in video memory. Nothing outside the screen
was accessed, and nothing outside it has changed from `memory`. -/
structure Draws (memory : Nat → UInt16) (w : Writer) (v : Video) (c : Console) : Prop where
  row : w.row = c.pen.row
  col : w.col = c.pen.col
  fg : w.fg = c.pen.fg
  bg : w.bg = c.pen.bg
  cells : ∀ (k : Nat) (hk : k < 2000), v.cells k = c.cells[k]
  touched : ∀ k ∈ v.touched, k < 2000
  behind : ∀ k, 2000 ≤ k → v.cells k = memory k

variable {memory : Nat → UInt16} {w : Writer} {v : Video} {c : Console}

theorem draws_clear (hfg : w.fg = c.pen.fg) (hbg : w.bg = c.pen.bg) (memory : Nat → UInt16) :
    Draws memory (w.clear.run { cells := memory }).1 (w.clear.run { cells := memory }).2
      c.cleared := by
  obtain ⟨hcells, htouched⟩ := Video.run_fill 0 2000 (w.cellOf 0x20) { cells := memory }
  have hblank : w.cellOf 0x20 = Console.blank c.pen := by
    rw [cellOf, hfg, hbg]
    rfl
  rw [clear, Video.run_bind, Video.run_pure]
  refine ⟨rfl, rfl, hfg, hbg, ?_, ?_, ?_⟩
  · intro k hk
    refine (hcells k).trans ?_
    rw [if_pos (by omega), hblank]
    exact (Vector.getElem_replicate hk).symm
  · intro k hk
    rcases htouched k hk with hk | hk
    · cases hk
    · omega
  · intro k hk
    exact (hcells k).trans (if_neg (by omega))

namespace Draws

theorem cellOf (h : Draws memory w v c) (byte : UInt8) :
    w.cellOf byte = Console.cellOf byte c.pen.attributeByte := by
  rw [Writer.cellOf, h.fg, h.bg]
  rfl

theorem recolor (h : Draws memory w v c) (fg bg : Color) :
    Draws memory (w.recolor fg bg) v (c.recolor fg bg) :=
  { h with fg := rfl, bg := rfl }

theorem newLine_above (h : Draws memory w v c) (habove : c.pen.row + 1 < 25) :
    Draws memory (w.newLine.run v).1 (w.newLine.run v).2 c.newLine := by
  have hrow := h.row
  have hon : ¬ 25 ≤ w.row + 1 := by omega
  have hrun : w.newLine.run v = ({ w with row := w.row + 1, col := 0 }, v) := by
    rw [Writer.newLine]
    simp only [if_neg hon, Video.run_pure]
  obtain ⟨hrow', hcells⟩ := Console.newLine_above habove
  obtain ⟨hfg, hbg⟩ := Console.newLine_colors c
  rw [hrun]
  refine ⟨?_, (Console.newLine_col c).symm, h.fg.trans hfg.symm, h.bg.trans hbg.symm, ?_,
    h.touched, h.behind⟩
  · rw [hrow']
    exact congrArg (· + 1) hrow
  · intro k hk
    simp only [hcells]
    exact h.cells k hk

theorem newLine_last (h : Draws memory w v c) (hlast : ¬ c.pen.row + 1 < 25) :
    Draws memory (w.newLine.run v).1 (w.newLine.run v).2 c.newLine := by
  have hrow := h.row
  have hover : 25 ≤ w.row + 1 := by omega
  let next := { w with row := w.row + 1, col := 0 }
  have hrun : w.newLine.run v = ({ next with row := 24 }, (next.scroll.run v).2) := by
    rw [Writer.newLine]
    simp only [if_pos hover, Video.run_bind, Video.run_pure]
    rfl
  obtain ⟨hcells, htouched⟩ := Video.run_scroll next v
  obtain ⟨hrow', hscrolled⟩ := Console.newLine_last hlast
  obtain ⟨hfg, hbg⟩ := Console.newLine_colors c
  rw [hrun]
  refine ⟨hrow'.symm, (Console.newLine_col c).symm, h.fg.trans hfg.symm, h.bg.trans hbg.symm,
    ?_, ?_, ?_⟩
  · intro k hk
    refine (hcells k).trans ?_
    simp only [hscrolled, Console.scroll, Vector.getElem_ofFn]
    by_cases hupper : k < 1920
    · rw [if_pos hupper, dif_pos (by omega)]
      exact h.cells _ _
    · rw [if_neg hupper, if_pos hk, dif_neg (by omega)]
      exact h.cellOf 0x20
  · intro k hk
    exact (htouched k hk).elim (h.touched k) id
  · intro k hk
    refine (hcells k).trans ?_
    rw [if_neg (by omega), if_neg (by omega)]
    exact h.behind k hk

theorem newLine (h : Draws memory w v c) :
    Draws memory (w.newLine.run v).1 (w.newLine.run v).2 c.newLine := by
  by_cases hnext : c.pen.row + 1 < 25
  · exact h.newLine_above hnext
  · exact h.newLine_last hnext

theorem put (h : Draws memory w v c) (byte : UInt8) (hcol : c.pen.col < 80) :
    Draws memory ((w.put byte).run v).1 ((w.put byte).run v).2 (c.put byte hcol) := by
  have hrow := c.pen.row_lt
  have hplace : w.row * 80 + w.col = c.pen.row * 80 + c.pen.col := by rw [h.row, h.col]
  refine ⟨h.row, congrArg (· + 1) h.col, h.fg, h.bg, ?_, ?_, ?_⟩
  · intro k hk
    show (if k = w.row * 80 + w.col then w.cellOf byte else v.cells k) = _
    simp only [Console.put, Vector.getElem_set, hplace, h.cellOf, h.cells k hk, eq_comm]
  · intro k hk
    rcases List.mem_cons.mp hk with rfl | hk
    · omega
    · exact h.touched k hk
  · intro k hk
    show (if k = w.row * 80 + w.col then w.cellOf byte else v.cells k) = _
    rw [if_neg (by omega)]
    exact h.behind k hk

theorem emit (h : Draws memory w v c) (byte : UInt8) :
    Draws memory ((w.emit byte).run v).1 ((w.emit byte).run v).2 (c.emit byte) := by
  unfold Writer.emit Console.emit
  split
  · exact h.newLine
  · split
    · exact { h with col := rfl }
    · have hcol := h.col
      by_cases hroom : c.pen.col < 80
      · rw [if_neg (by omega), dif_pos hroom]
        exact h.put byte hroom
      · rw [if_pos (by omega), dif_neg hroom]
        exact h.newLine.put byte _

theorem writeText (h : Draws memory w v c) (s : String) :
    Draws memory ((w.writeText s).run v).1 ((w.writeText s).run v).2 (c.feed (Text.bytes s)) := by
  rw [Writer.writeText, run_foldlM]
  exact List.foldl_rel (r := fun (r : Writer × Video) c => Draws memory r.1 r.2 c) h
    fun byte _ _ _ h => h.emit (Console.glyph byte)

theorem pieces (h : Draws memory w v c) (pieces : List String) (p : Ports) :
    Draws memory ((pieces.foldlM Writer.writeText w).run v).1
      ((pieces.foldlM Writer.writeText w).run v).2
      ((pieces.foldlM Console.writeText c).run p).1 := by
  rw [run_foldlM, run_foldlM]
  exact List.foldl_rel (r := fun (r : Writer × Video) (q : Console × Ports) =>
    Draws memory r.1 r.2 q.1) h fun s _ _ _ h => h.writeText s

/-- What an operation does to the cells of a console, it does to memory, with no access outside
the screen. -/
theorem perform (h : Draws memory w v c) (op : Console.Operation) (p : Ports) :
    Draws memory ((w.perform op).run v).1 ((w.perform op).run v).2 ((c.perform op).run p).1 := by
  cases op with
  | recolor fg bg => exact h.recolor fg bg
  | byte byte => exact h.emit byte
  | text s => exact h.writeText s
  | textIn s fg bg =>
    show Draws memory ((((w.recolor fg bg).writeText s).run v).1.recolor w.fg w.bg) _ _
    rw [h.fg, h.bg]
    exact ((h.recolor fg bg).writeText s).recolor _ _
  | format pieces => exact h.pieces pieces p

theorem run (h : Draws memory w v c) (ops : List Console.Operation) (p : Ports) :
    Draws memory ((ops.foldlM Writer.perform w).run v).1 ((ops.foldlM Writer.perform w).run v).2
      ((ops.foldlM Console.perform c).run p).1 := by
  rw [run_foldlM, run_foldlM]
  exact List.foldl_rel (r := fun (r : Writer × Video) (q : Console × Ports) =>
    Draws memory r.1 r.2 q.1) h fun op _ _ q h => h.perform op q.2

end Draws

end Writer

end Supervisor

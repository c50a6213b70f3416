import Supervisor.Proofs.Console.Terminal

/-!
# Texts apart from their colours

What a console is asked for comes in many colours, but it spells one text
(`Operation.bytes`). Its characters are those of the text, however it was cut into pieces and
whatever colours the pieces had: `sameText_run`.

`SameText` compares consoles by everything but their colours. A new line is the only step where
the colours matter at all, since a row that scrolls into sight is blank in the colours of the
pen, and there they decide the attributes only.
-/

namespace Supervisor.Console

variable {c d e : Console}

/-- Two consoles show the same characters and go on at the same place. -/
structure SameText (c d : Console) : Prop where
  row : c.pen.row = d.pen.row
  col : c.pen.col = d.pen.col
  chars : ∀ i < 25, ∀ j < 80, (c.cell i j).1 = (d.cell i j).1

namespace SameText

theorem refl (c : Console) : SameText c c :=
  ⟨rfl, rfl, fun _ _ _ _ => rfl⟩

theorem trans (h : SameText c d) (h' : SameText d e) : SameText c e where
  row := h.row.trans h'.row
  col := h.col.trans h'.col
  chars i hi j hj := (h.chars i hi j hj).trans (h'.chars i hi j hj)

theorem recolor (c : Console) (fg bg : Color) : SameText (c.recolor fg bg) c :=
  ⟨rfl, rfl, fun _ _ _ _ => rfl⟩

theorem newLine (h : SameText c d) : SameText c.newLine d.newLine := by
  have hcol : c.newLine.pen.col = d.newLine.pen.col := (newLine_col c).trans (newLine_col d).symm
  by_cases habove : c.pen.row + 1 < 25
  · obtain ⟨hrow, hcells⟩ := newLine_above habove
    obtain ⟨hrow', hcells'⟩ := newLine_above (h.row ▸ habove)
    refine ⟨by rw [hrow, hrow', h.row], hcol, fun i hi j hj => ?_⟩
    rw [cell, cell, hcells, hcells']
    exact h.chars i hi j hj
  · obtain ⟨hrow, hcells⟩ := newLine_last habove
    obtain ⟨hrow', hcells'⟩ := newLine_last (h.row ▸ habove)
    refine ⟨hrow.trans hrow'.symm, hcol, fun i hi j hj => ?_⟩
    rw [cell_scroll hcells hi hj, cell_scroll hcells' hi hj]
    split
    · exact h.chars (i + 1) (by omega) j hj
    · rfl

theorem put (h : SameText c d) (byte : UInt8) (hcol : c.pen.col < 80) (hcol' : d.pen.col < 80) :
    SameText (c.put byte hcol) (d.put byte hcol') := by
  refine ⟨h.row, congrArg (· + 1) h.col, fun i hi j hj => ?_⟩
  rw [cell_put byte hcol hi hj, cell_put byte hcol' hi hj, h.row, h.col]
  split
  · rfl
  · exact h.chars i hi j hj

theorem emit (h : SameText c d) (byte : UInt8) : SameText (c.emit byte) (d.emit byte) := by
  unfold Console.emit
  split
  · exact h.newLine
  split
  · exact { h with col := rfl }
  by_cases hcol : c.pen.col < 80
  · have hcol' : d.pen.col < 80 := h.col ▸ hcol
    rw [dif_pos hcol, dif_pos hcol']
    exact h.put byte hcol hcol'
  · have hcol' : ¬ d.pen.col < 80 := h.col ▸ hcol
    rw [dif_neg hcol, dif_neg hcol']
    exact h.newLine.put byte _ _

theorem feed (h : SameText c d) (text : List UInt8) : SameText (c.feed text) (d.feed text) :=
  List.foldl_rel h fun byte _ _ _ h => h.emit (glyph byte)

end SameText

/-! ## What operations spell -/

namespace Operation

/-- The characters that are sent to the console. -/
def bytes : Operation → List UInt8
  | .recolor _ _ => []
  | .byte value => [value]
  | .text s => Text.bytes s
  | .textIn s _ _ => Text.bytes s
  | .format pieces => pieces.flatMap Text.bytes

/-- A byte by itself is one that texts show as it is. -/
def Textual : Operation → Prop
  | .byte value => glyph value = value
  | _ => True

end Operation

theorem feed_pieces (c : Console) (pieces : List String) (p : Ports) :
    ((pieces.foldlM writeText c).run p).1 = c.feed (pieces.flatMap Text.bytes) := by
  induction pieces generalizing c p with
  | nil => rfl
  | cons s pieces ih =>
    rw [List.flatMap_cons, feed_append]
    exact ih _ _

theorem sameText_perform {op : Operation} (hop : op.Textual) (c : Console) (p : Ports) :
    SameText ((c.perform op).run p).1 (c.feed op.bytes) := by
  cases op with
  | recolor fg bg => exact .recolor c fg bg
  | byte byte =>
    show SameText (c.emit byte) (c.emit (glyph byte))
    rw [show glyph byte = byte from hop]
    exact .refl _
  | text s => exact .refl _
  | textIn s fg bg => exact (SameText.recolor _ _ _).trans ((SameText.recolor c fg bg).feed _)
  | format pieces =>
    show SameText ((pieces.foldlM writeText c).run p).1 _
    rw [feed_pieces]
    exact .refl _

/-- Operations leave the text that they spell, in whatever colours. -/
theorem sameText_run {ops : List Operation} (hops : ∀ op ∈ ops, op.Textual) (c : Console)
    (p : Ports) : SameText ((ops.foldlM perform c).run p).1 (c.feed (ops.flatMap Operation.bytes)) := by
  induction ops generalizing c p with
  | nil => exact .refl c
  | cons op ops ih =>
    have hfirst := sameText_perform (hops op List.mem_cons_self) c p
    have hrest := ih (fun o ho => hops o (List.mem_cons_of_mem op ho))
      ((c.perform op).run p).1 ((c.perform op).run p).2
    rw [List.flatMap_cons, feed_append]
    exact hrest.trans (hfirst.feed _)

end Supervisor.Console

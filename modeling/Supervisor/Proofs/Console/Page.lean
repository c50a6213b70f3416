import Supervisor.Proofs.Console.Terminal
import Supervisor.Proofs.Text

/-!
# Texts of lines, laid out on the screen

A text that is all lines of printable characters is written into rows: every line begins a new
row, and a line that is wider than a row goes on in the next one.

- `Page.wrap`, `Page.rowsOf`, `Page.ofLines`: the rows of a line and those of a text.
- `Terminal.Lays`: a terminal on which certain rows have been written, and the next one begun.
  `Lays.type` is one character, `Lays.typeLine` a line and `lays_unlines` a text.
- `Console.Reads`: a line can be read on the screen.
- `Console.reads_of_page`: a line whose first row is among the last 25 can be read;
  `Console.char_of_reads`: whatever is read begins with a character of these rows.
-/

namespace Supervisor

/-! ## Rows -/

namespace Page

/-- What becomes of a row that has been begun when further characters are written. -/
def wrap (row : List UInt8) : List UInt8 → List (List UInt8)
  | [] => [row]
  | byte :: rest => if row.length = 80 then row :: wrap [byte] rest else wrap (row ++ [byte]) rest

/-- The rows of a line. -/
def rowsOf (line : String) : List (List UInt8) :=
  wrap [] (Text.bytes line)

/-- The rows of a text. -/
def ofLines (lines : List String) : List (List UInt8) :=
  lines.flatMap rowsOf

/-- The character at a place. A row is blank behind its last character. -/
def char (page : List (List UInt8)) (i j : Nat) : UInt8 :=
  (page[i]?.getD [])[j]?.getD 0x20

variable {row bytes : List UInt8} {page more : List (List UInt8)} {i j : Nat}

theorem length_wrap (hrow : row.length ≤ 80) :
    (wrap row bytes).length = (row.length + bytes.length - 1) / 80 + 1 := by
  induction bytes generalizing row with
  | nil =>
    simp only [wrap, List.length_singleton, List.length_nil]
    omega
  | cons byte rest ih =>
    rw [wrap]
    split
    · next hfull =>
      rw [List.length_cons, ih (by rw [List.length_singleton]; decide), List.length_singleton,
        List.length_cons]
      omega
    · next hroom =>
      have hlength : (row ++ [byte]).length = row.length + 1 := by simp
      rw [ih (by omega), hlength, List.length_cons]
      omega

/-- Wrapping neither loses nor adds a character. -/
theorem flatten_wrap (row bytes : List UInt8) : (wrap row bytes).flatten = row ++ bytes := by
  induction bytes generalizing row with
  | nil => simp [wrap]
  | cons byte rest ih =>
    rw [wrap]
    split
    · rw [List.flatten_cons, ih]
      rfl
    · rw [ih, List.append_assoc]
      rfl

theorem length_rowsOf (line : String) : (rowsOf line).length = (Text.width line - 1) / 80 + 1 := by
  rw [rowsOf, length_wrap (by decide), Text.width, List.length_nil, Nat.zero_add]

theorem length_rowsOf_narrow {line : String} (h : Text.width line ≤ 80) :
    (rowsOf line).length = 1 := by
  rw [length_rowsOf]
  omega

theorem ofLines_cons (line : String) (lines : List String) :
    ofLines (line :: lines) = rowsOf line ++ ofLines lines :=
  List.flatMap_cons

theorem ofLines_singleton (line : String) : ofLines [line] = rowsOf line :=
  List.flatMap_singleton rowsOf line

theorem ofLines_append (xs ys : List String) : ofLines (xs ++ ys) = ofLines xs ++ ofLines ys :=
  List.flatMap_append

theorem length_ofLines_narrow {lines : List String} (h : ∀ line ∈ lines, Text.width line ≤ 80) :
    (ofLines lines).length = lines.length := by
  induction lines with
  | nil => rfl
  | cons line lines ih =>
    rw [ofLines_cons, List.length_append, ih fun l hl => h l (List.mem_cons_of_mem line hl),
      length_rowsOf_narrow (h line List.mem_cons_self), List.length_cons, Nat.add_comm]

/-- What is on a page is blank or belongs to one of the lines. -/
theorem char_ofLines (lines : List String) (i j : Nat) :
    char (ofLines lines) i j = 0x20 ∨
      ∃ line ∈ lines, char (ofLines lines) i j ∈ Text.bytes line := by
  rw [char]
  cases hrow : (ofLines lines)[i]? with
  | none => exact .inl rfl
  | some row =>
    cases hbyte : row[j]? with
    | none => exact .inl (by rw [Option.getD_some, hbyte]; rfl)
    | some byte =>
      obtain ⟨line, hline, hmem⟩ := List.mem_flatMap.mp (List.mem_of_getElem? hrow)
      refine .inr ⟨line, hline, ?_⟩
      rw [Option.getD_some, hbyte, Option.getD_some, ← List.nil_append (Text.bytes line),
        ← flatten_wrap]
      exact List.mem_flatten.mpr ⟨row, hmem, List.mem_of_getElem? hbyte⟩

theorem char_append_left (h : i < page.length) (j : Nat) :
    char (page ++ more) i j = char page i j := by
  rw [char, char, List.getElem?_append_left h]

theorem char_append_right (i j : Nat) :
    char (page ++ more) (page.length + i) j = char more i j := by
  rw [char, char, List.getElem?_append_right (Nat.le_add_right _ i), Nat.add_sub_cancel_left]

/-- A row with nothing on it makes no difference. -/
theorem char_append_blank (page : List (List UInt8)) (i j : Nat) :
    char (page ++ [[]]) i j = char page i j := by
  rcases Nat.lt_or_ge i page.length with hold | hnew
  · exact char_append_left hold j
  · obtain ⟨k, rfl⟩ := Nat.exists_eq_add_of_le hnew
    have hnone : page[page.length + k]? = none := List.getElem?_eq_none hnew
    rw [char_append_right, char, char, hnone]
    cases k <;> rfl

/-- A character behind the last one. -/
theorem char_append_snoc (byte : UInt8) :
    char (page ++ [row ++ [byte]]) i j =
      if i = page.length ∧ j = row.length then byte else char (page ++ [row]) i j := by
  rcases Nat.lt_trichotomy i page.length with habove | rfl | hbelow
  · rw [if_neg (by omega), char_append_left habove, char_append_left habove]
  · -- in the row itself: before, at or behind the new character
    rw [← Nat.add_zero page.length, char_append_right, char_append_right, Nat.add_zero]
    simp only [true_and, char, List.getElem?_cons_zero, Option.getD_some]
    rw [List.getElem?_append]
    split
    · rw [if_neg (by omega)]
    · split
      · next h => simp [h]
      · rw [List.getElem?_eq_none (by simp; omega), List.getElem?_eq_none (by omega)]
  · obtain ⟨k, rfl⟩ := Nat.exists_eq_add_of_lt hbelow
    rw [if_neg (by omega), Nat.add_assoc, char_append_right, char_append_right]
    rfl

end Page

/-! ## The terminal -/

namespace Terminal

variable {t : Terminal} {page : List (List UInt8)} {begun : List UInt8}

/-- The rows of `page` have been written, each with its end, and a further one has been begun.
Nothing else has been written, and the colours have never been changed. -/
structure Lays (t : Terminal) (page : List (List UInt8)) (begun : List UInt8) : Prop where
  row : t.row = page.length
  col : t.col = begun.length
  cells : ∀ i j, t.cells i j = (Page.char (page ++ [begun]) i j, t.attributeByte)

theorem lays_start (fg bg : Color) : Lays (start fg bg) [] [] where
  row := rfl
  col := rfl
  cells i j := by
    rw [Page.char_append_blank]
    rfl

namespace Lays

theorem put (h : Lays t page begun) (byte : UInt8) : Lays (t.put byte) page (begun ++ [byte]) where
  row := h.row
  col := by
    rw [List.length_append, ← h.col]
    rfl
  cells i j := by
    rw [Page.char_append_snoc, ← h.row, ← h.col]
    show (if i = t.row ∧ j = t.col then (byte, t.attributeByte) else t.cells i j) =
      (_, t.attributeByte)
    split
    · rfl
    · exact h.cells i j

/-- The row that is left is a row of the page, and the next one is blank already. -/
theorem newLine (h : Lays t page begun) : Lays t.newLine (page ++ [begun]) [] where
  row := by
    rw [List.length_append, ← h.row]
    rfl
  col := rfl
  cells i j := by
    rw [Page.char_append_blank]
    show (if i = t.row + 1 ∧ 25 ≤ i then (0x20, t.attributeByte) else t.cells i j) =
      (_, t.attributeByte)
    split
    · next hnew =>
      have hlength : (page ++ [begun]).length ≤ i := by
        rw [List.length_append, ← h.row, hnew.1]
        rfl
      have hnone : (page ++ [begun])[i]? = none := List.getElem?_eq_none hlength
      rw [Page.char, hnone]
      rfl
    · exact h.cells i j

/-- The step lemma: a printable character. -/
theorem type (h : Lays t page begun) {byte : UInt8} (hlow : 0x20 ≤ byte) :
    Lays (t.type byte) (if begun.length = 80 then page ++ [begun] else page)
      (if begun.length = 80 then [byte] else begun ++ [byte]) := by
  have hfeed : byte ≠ 0x0A := by
    rintro rfl
    exact absurd hlow (by decide)
  have hreturn : byte ≠ 0x0D := by
    rintro rfl
    exact absurd hlow (by decide)
  rw [Terminal.type, if_neg hfeed, if_neg hreturn, h.col]
  split
  · exact h.newLine.put byte
  · exact h.put byte

/-- The characters of a line, and its end. -/
theorem typeLine {bytes : List UInt8} (h : Lays t page begun) (hlow : ∀ byte ∈ bytes, 0x20 ≤ byte) :
    Lays (bytes.foldl Terminal.type t).newLine (page ++ Page.wrap begun bytes) [] := by
  induction bytes generalizing t page begun with
  | nil => exact h.newLine
  | cons byte rest ih =>
    have hstep := h.type (hlow byte List.mem_cons_self)
    have hrest := ih hstep fun b hb => hlow b (List.mem_cons_of_mem byte hb)
    rw [Page.wrap]
    split
    · next hfull =>
      rw [if_pos hfull, if_pos hfull, List.append_assoc] at hrest
      exact hrest
    · next hroom =>
      rw [if_neg hroom, if_neg hroom] at hrest
      exact hrest

end Lays

/-- The characters that a line may have. -/
def Printable (byte : UInt8) : Prop :=
  0x20 ≤ byte ∧ byte ≤ 0x7e

instance : DecidablePred Printable :=
  fun _ => inferInstanceAs (Decidable (_ ∧ _))

theorem printable_of_ink {byte : UInt8} (h : Text.Ink byte) : Printable byte :=
  ⟨h.1, h.2.1⟩

theorem typeText_append (t : Terminal) (a b : String) :
    t.typeText (a ++ b) = (t.typeText a).typeText b := by
  rw [typeText, Text.bytes_append, List.foldl_append]
  rfl

/-- Printable characters are shown as they are. -/
theorem typeText_of_printable (t : Terminal) {line : String} (h : Text.Of Printable line) :
    t.typeText line = (Text.bytes line).foldl Terminal.type t := by
  refine List.foldl_ext _ _ t fun t byte hbyte => ?_
  rw [shown, if_pos (.inl (h byte hbyte))]

/-- A text of lines on a terminal with nothing written on it. -/
theorem lays_unlines (h : Lays t page []) {lines : List String}
    (hlines : ∀ line ∈ lines, Text.Of Printable line) :
    Lays (t.typeText (String.join (lines.map (· ++ "\n")))) (page ++ Page.ofLines lines) [] := by
  induction lines generalizing t page with
  | nil =>
    rw [Page.ofLines, List.flatMap_nil, List.append_nil]
    exact h
  | cons line lines ih =>
    have hline := hlines line List.mem_cons_self
    have hfirst := h.typeLine fun byte hbyte => (hline byte hbyte).1
    rw [← typeText_of_printable t hline] at hfirst
    rw [List.map_cons, String.join_cons, typeText_append, typeText_append, Page.ofLines_cons,
      ← List.append_assoc]
    exact ih hfirst fun l hl => hlines l (List.mem_cons_of_mem line hl)

end Terminal

/-! ## The screen -/

namespace Console

variable {c : Console} {t : Terminal} {page : List (List UInt8)} {line : String}

/-- The line can be read on the screen, its rows being one below the other. -/
def Reads (c : Console) (line : String) : Prop :=
  ∃ top, top + (Page.rowsOf line).length ≤ 25 ∧ ∀ i < (Page.rowsOf line).length, ∀ j < 80,
    (c.cell (top + i) j).1 = Page.char (Page.rowsOf line) i j

/-- The screen shows the last rows of a page. -/
theorem cell_of_lays (hshows : Shows c t) (hlays : t.Lays page []) {i j : Nat} (hi : i < 25)
    (hj : j < 80) : (c.cell i j).1 = Page.char page (page.length - 24 + i) j := by
  rw [hshows.cells i hi j hj, hlays.cells, hlays.row, Page.char_append_blank]

/-- A line can be read if its first row is on the screen. -/
theorem reads_of_page (before : List (List UInt8)) {after : List (List UInt8)}
    (hshows : Shows c t) (hlays : t.Lays page [])
    (hpage : page = before ++ Page.rowsOf line ++ after)
    (hbefore : page.length - 24 ≤ before.length) : c.Reads line := by
  have hlength : page.length = before.length + (Page.rowsOf line).length + after.length := by
    rw [hpage, List.length_append, List.length_append]
  refine ⟨before.length - (page.length - 24), by omega, fun i hi j hj => ?_⟩
  have hplace : page.length - 24 + (before.length - (page.length - 24) + i) =
      before.length + i := by omega
  rw [cell_of_lays hshows hlays (by omega) hj, hplace, hpage, List.append_assoc,
    Page.char_append_right, Page.char_append_left hi]

/-- What can be read begins with a character that is on the screen. -/
theorem char_of_reads (hshows : Shows c t) (hlays : t.Lays page []) (h : c.Reads line) :
    ∃ i, page.length - 24 ≤ i ∧ Page.char page i 0 = Page.char (Page.rowsOf line) 0 0 := by
  obtain ⟨top, htop, hread⟩ := h
  -- an empty line takes a row, too
  have hsome := Page.length_rowsOf line
  refine ⟨page.length - 24 + top, Nat.le_add_right _ _, ?_⟩
  rw [← cell_of_lays hshows hlays (by omega) (by decide)]
  exact hread 0 (by omega) 0 (by decide)

end Console

end Supervisor

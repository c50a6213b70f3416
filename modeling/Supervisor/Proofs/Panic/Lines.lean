import Supervisor.Panic.Report
import Supervisor.Panic.Trace
import Supervisor.Proofs.Text

/-!
# The lines of a report

A report is a text of lines: its header, a blank line, the message and the lines of its body.

- `Panic.Report.text_eq_unlines`: the text is the lines, each with its end.
- `Panic.Report.of_bodyLines`: the body is written in the class of characters that the place is
  written in at which the failure was noticed, if it has the inked ones. So the body of a report
  about an exception is inked.
- `Unhandled.inked_message`: so is the line that names the exception.
- `Panic.Report.width_registerLines_le` and the lemmas around it: how wide the lines are. All but
  two take less than 80 characters; the exceptions are the message and `segmentLine`.
-/

namespace Supervisor

open Text

namespace Panic.Report

variable {p : UInt8 → Prop}

/-- The lines of a report. -/
def lines (r : Report) : List String :=
  r.openingLines ++ r.message :: r.bodyLines

theorem unlines_append (xs ys : List String) : unlines (xs ++ ys) = unlines xs ++ unlines ys := by
  rw [unlines, List.map_append, String.join_append]
  rfl

theorem unlines_cons (line : String) (rest : List String) :
    unlines (line :: rest) = line ++ "\n" ++ unlines rest := by
  rw [unlines, List.map_cons, String.join_cons]
  rfl

theorem text_eq_unlines (r : Report) : r.text = unlines r.lines := by
  rw [text, opening, body, lines, unlines_append, unlines_cons]
  simp only [String.append_assoc]

/-! ## Characters -/

theorem inked_wide {label : String} {value : UInt64} :
    Of Ink (wide label value) ↔ Of Ink label := by
  rw [wide, of_append]
  exact and_iff_left (inked_hexPadded 16 _)

theorem inked_narrow {label : String} {value : UInt64} :
    Of Ink (narrow label value) ↔ Of Ink label := by
  rw [narrow, of_append]
  exact and_iff_left (inked_hexPadded 4 _)

theorem inked_traceLine (depth : Nat) (address : UInt64) : Of Ink (traceLine depth address) := by
  rw [traceLine, of_append, of_append, of_append]
  exact ⟨⟨⟨of_ofList rfl, inked_decimalRight 2 depth⟩, of_ofList rfl⟩, inked_address _⟩

theorem inked_registerLines (r : Frame) : ∀ line ∈ registerLines r, Of Ink line := by
  simp only [registerLines, List.forall_mem_cons, List.not_mem_nil, false_implies, implies_true,
    of_append, inked_wide, inked_narrow]
  repeat' constructor
  all_goals exact of_ofList rfl

theorem inked_controlLines (c : Control) : ∀ line ∈ controlLines c, Of Ink line := by
  simp only [controlLines, List.forall_mem_cons, List.not_mem_nil, false_implies, implies_true,
    of_append, inked_wide]
  repeat' constructor
  all_goals exact of_ofList rfl

/-- Where it was raised is the only part of the body that depends on more than numbers. -/
theorem of_bodyLines (hink : ∀ byte, Ink byte → p byte) {r : Report}
    (horigin : ∀ o ∈ r.origin, Of p o) : ∀ line ∈ r.bodyLines, Of p line := by
  have hplace : ∀ line ∈ (r.origin.map ("At " ++ ·)).toList, Of p line := by
    intro line hline
    obtain ⟨o, ho, rfl⟩ := Option.map_eq_some_iff.mp (Option.mem_toList.mp hline)
    exact of_append.mpr ⟨(of_ofList rfl : Of Ink "At ").mono hink, horigin o ho⟩
  have hfault : ∀ line ∈ (r.faultAddress.map fun a =>
      "Faulting address (CR2): " ++ Text.address a.toNat).toList, Of Ink line := by
    intro line hline
    obtain ⟨a, -, rfl⟩ := Option.map_eq_some_iff.mp (Option.mem_toList.mp hline)
    exact of_append.mpr ⟨of_ofList rfl, inked_address _⟩
  have htrace : ∀ line ∈ r.trace.mapIdx traceLine, Of Ink line := by
    intro line hline
    obtain ⟨depth, _, rfl⟩ := List.mem_mapIdx.mp hline
    exact inked_traceLine depth _
  have hpair {a b : String} (ha : Of Ink a) (hb : Of Ink b) : ∀ line ∈ [a, b], Of p line :=
    List.forall_mem_cons.mpr ⟨ha.mono hink, List.forall_mem_singleton.mpr (hb.mono hink)⟩
  simp only [bodyLines, List.forall_mem_append]
  exact ⟨⟨⟨⟨⟨⟨⟨hplace, fun line h => (hfault line h).mono hink⟩,
    hpair of_empty (of_ofList rfl)⟩, fun line h => (inked_registerLines _ line h).mono hink⟩,
    fun line h => (inked_controlLines _ line h).mono hink⟩, hpair of_empty (of_ofList rfl)⟩,
    fun line h => (htrace line h).mono hink⟩, hpair of_empty (of_ofList rfl)⟩

end Panic.Report

namespace Unhandled

/-- The name of an exception is one of a list. -/
theorem inked_exceptionName (vector : UInt8) : Of Ink (exceptionName vector) := by
  have hnames : ∀ name ∈ exceptionNames, Of Ink name := by
    simp only [exceptionNames, List.forall_mem_cons, List.not_mem_nil, false_implies, implies_true]
    repeat' constructor
    all_goals exact of_ofList rfl
  rw [exceptionName]
  cases h : exceptionNames[vector.toNat]? with
  | none => exact of_ofList rfl
  | some name => exact hnames name (List.mem_of_getElem? h)

theorem inked_message {e : Unhandled} (h : Of Ink e.name) : Of Ink e.message := by
  unfold message
  repeat rw [of_append]
  exact ⟨⟨⟨⟨⟨⟨⟨⟨of_ofList rfl, h⟩, of_ofList rfl⟩, inked_decimal _⟩, of_ofList rfl⟩,
    inked_hex _⟩, of_ofList rfl⟩, inked_address _⟩, of_ofList rfl⟩

theorem width_exceptionName_le (vector : UInt8) : width (exceptionName vector) ≤ 36 := by
  have hnames : ∀ name ∈ exceptionNames, width name ≤ 36 := by decide
  rw [exceptionName]
  cases h : exceptionNames[vector.toNat]? with
  | none => decide
  | some name => exact hnames name (List.mem_of_getElem? h)

/-- The line that names an exception fits into two rows of the screen. -/
theorem width_message_le {e : Unhandled} (h : width e.name ≤ 36) : width e.message ≤ 160 := by
  have hvector : e.vector.toNat < 10 ^ 3 := Nat.lt_trans e.vector.toNat_lt (by decide)
  have hdecimal := width_decimal_le (by decide) hvector
  have hcode : e.errorCode.toNat < 16 ^ 16 := e.errorCode.toNat_lt
  have hhex := width_hex_le (by decide) hcode
  have haddress := width_address e.rip
  have hliterals : width "Exception: " + width " (vector " + width ", error " + width ", RIP "
      + width ")" = 35 := rfl
  unfold message
  simp only [width_append]
  omega

end Unhandled

namespace Panic.Report

/-! ## Widths -/

theorem width_wide (label : String) (value : UInt64) :
    width (wide label value) = width label + 16 := by
  rw [wide, width_append, width_hexPadded (by decide) value.toNat_lt]

theorem width_narrow {value : UInt64} (label : String) (h : value.toNat < 0x10000) :
    width (narrow label value) = width label + 4 := by
  have hdigits : value.toNat < 16 ^ 4 := h
  rw [narrow, width_append, width_hexPadded (by decide) hdigits]

theorem width_traceLine {depth : Nat} (address : UInt64) (h : depth < 10 ^ 2) :
    width (traceLine depth address) = 24 := by
  have hdepth : width (decimalRight 2 depth) = 2 :=
    width_padded rfl (by decide) (by decide) (by decide) h
  rw [traceLine, width_append, width_append, width_append, width_address, hdepth]
  rfl

/-- The line with the segment registers. -/
def segmentLine (r : Frame) : String :=
  narrow " CS: " r.cs ++ narrow "  SS: " r.ss ++ narrow "  DS: " r.ds ++ narrow "  ES: " r.es
    ++ narrow "  FS: " r.fs ++ narrow "  GS: " r.gs

/-- The lines with the other registers. -/
def wideLines (r : Frame) : List String :=
  [wide " RAX: " r.rax ++ wide "  RBX: " r.rbx ++ wide "  RCX: " r.rcx,
   wide " RDX: " r.rdx ++ wide "  RSI: " r.rsi ++ wide "  RDI: " r.rdi,
   wide " RBP: " r.rbp ++ wide "  RSP: " r.rsp ++ wide "  R8:  " r.r8,
   wide " R9:  " r.r9 ++ wide "  R10: " r.r10 ++ wide "  R11: " r.r11,
   wide " R12: " r.r12 ++ wide "  R13: " r.r13 ++ wide "  R14: " r.r14,
   wide " R15: " r.r15,
   wide " RIP: " r.rip ++ wide "  RFLAGS: " r.rflags]

theorem registerLines_eq (r : Frame) : registerLines r = wideLines r ++ [segmentLine r] := rfl

theorem width_wideLines_le (r : Frame) : ∀ line ∈ wideLines r, width line ≤ 80 := by
  simp only [wideLines, List.forall_mem_cons, List.not_mem_nil, false_implies, implies_true,
    width_append, width_wide]
  decide

theorem width_controlLines_le (c : Control) : ∀ line ∈ controlLines c, width line ≤ 80 := by
  simp only [controlLines, List.forall_mem_cons, List.not_mem_nil, false_implies, implies_true,
    width_append, width_wide]
  decide

/-- Selectors of sixteen bits fit into one line. -/
theorem width_segmentLine_le {r : Frame}
    (h : ∀ s ∈ [r.cs, r.ss, r.ds, r.es, r.fs, r.gs], s.toNat < 0x10000) :
    width (segmentLine r) ≤ 80 := by
  simp only [List.forall_mem_cons, List.not_mem_nil, false_implies, implies_true,
    and_true] at h
  obtain ⟨hcs, hss, hds, hes, hfs, hgs⟩ := h
  simp only [segmentLine, width_append, width_narrow _ hcs, width_narrow _ hss, width_narrow _ hds,
    width_narrow _ hes, width_narrow _ hfs, width_narrow _ hgs]
  decide

end Panic.Report

end Supervisor

import Supervisor.Proofs.Panic.Lines
import Supervisor.Serial

/-!
# Reports are plain text

The driver of the serial port may expand the two bytes that erase a character. A plain
text has neither, so that nothing happens to it on the way but that its line ends get
their carriage returns (`Serial.flatMap_handed`). A report about an exception is plain from
its header to its last line (`Panic.Report.plain_text`).
-/

namespace Supervisor

namespace Serial

variable {s : String} {transmit : UInt8 → List UInt8}

/-- A text handed over in two pieces is the text handed over at once. -/
theorem handed_append (s t : String) : handed (s ++ t) = handed s ++ handed t := by
  rw [handed, Text.bytes_append, crlf, List.flatMap_append]
  rfl

/-- The driver leaves all bytes alone that erase nothing. -/
def Expands (transmit : UInt8 → List UInt8) : Prop :=
  ∀ byte, byte ≠ 0x08 → byte ≠ 0x7F → transmit byte = [byte]

theorem expands_transmitted : Expands transmitted :=
  fun _ hback hdelete => if_neg (not_or.mpr ⟨hback, hdelete⟩)

theorem Uart.passed_append (u : Uart) (xs ys : List UInt8) :
    u.passed (xs ++ ys) = u.passed xs ++ u.passed ys := by
  unfold passed
  split <;> rfl

/-- No byte of the text erases a character. -/
def Plain (s : String) : Prop :=
  ∀ byte ∈ Text.bytes s, byte ≠ 0x08 ∧ byte ≠ 0x7F

/-- A plain text is sent as it is handed over. -/
theorem flatMap_handed (hexpands : Expands transmit) (h : Plain s) :
    (handed s).flatMap transmit = handed s := by
  have hcrlf : ∀ byte ∈ crlf (Text.bytes s), transmit byte = [byte] := by
    intro byte hbyte
    obtain ⟨b, hb, hmem⟩ := List.mem_flatMap.mp hbyte
    obtain ⟨hback, hdelete⟩ := h b hb
    rw [crlfByte] at hmem
    split at hmem
    · rcases List.mem_pair.mp hmem with rfl | rfl <;> exact hexpands _ (by decide) (by decide)
    · rw [List.mem_singleton.mp hmem]
      exact hexpands b hback hdelete
  rw [handed, List.flatMap_congr hcrlf]
  exact List.flatMap_singleton' _

theorem erases_not_of_ink {byte : UInt8} (h : Text.Ink byte) : byte ≠ 0x08 ∧ byte ≠ 0x7F := by
  constructor
  · rintro rfl
    exact absurd h (by decide)
  · rintro rfl
    exact absurd h (by decide)

/-- Inked texts erase nothing. -/
theorem plain_of_inked (h : Text.Of Text.Ink s) : Plain s :=
  h.mono fun _ => erases_not_of_ink

end Serial

namespace Panic.Report

open Serial

theorem plain_unlines {lines : List String} (h : ∀ line ∈ lines, Plain line) :
    Plain (unlines lines) := by
  refine Text.of_join fun s hs => ?_
  obtain ⟨line, hline, rfl⟩ := List.mem_map.mp hs
  have hbreak : Plain "\n" := Text.of_ofList rfl
  exact Text.of_append.mpr ⟨h line hline, hbreak⟩

/-- A report is plain if its message is, and where it was raised. -/
theorem plain_text {r : Report} (hmessage : Plain r.message)
    (horigin : ∀ o ∈ r.origin, Plain o) : Plain r.text := by
  have hheader : Plain r.kind.header := by
    cases r.kind <;> exact Text.of_ofList rfl
  have hbody : ∀ line ∈ r.bodyLines, Plain line :=
    of_bodyLines (fun _ => erases_not_of_ink) horigin
  rw [text_eq_unlines]
  refine plain_unlines ?_
  simp only [lines, openingLines, List.cons_append, List.nil_append, List.forall_mem_cons]
  exact ⟨hheader, Text.of_empty, hmessage, hbody⟩

end Panic.Report

end Supervisor

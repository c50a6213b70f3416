import Supervisor.Proofs.Console.Page
import Supervisor.Proofs.Machine.Fatal
import Supervisor.Proofs.Machine.Store

/-!
# The head of a report on the screen

A report begins with its header and its message, and ends with the call trace. The screen has
25 rows and scrolls, so whether the head can still be read when the processor has halted depends
on how many rows the report takes.

- `Panic.Report.height`: the rows of a report. `height_exceptionReport` counts those of a report
  about an exception.
- `Machine.Reported.exists_lays`: the screen is a window on the rows of the report.
- `Machine.Reported.reads_header_iff`: the header can be read if and only if the report takes at
  most 24 rows. The last row of the screen is that of the pen. `Machine.Reported.reads_message` is
  about the message.
- `Machine.head_readable_iff` puts this together for the fatal path;
  `Machine.deepTrace_scrolled` is an exception whose header is not on the screen any more.
-/

namespace Supervisor

namespace Panic.Report

/-- How many rows of the screen a report takes. -/
def height (r : Report) : Nat :=
  (Page.ofLines r.lines).length

theorem width_traceLines_le {trace : List UInt64} (h : trace.length ≤ 16) :
    ∀ line ∈ trace.mapIdx traceLine, Text.width line ≤ 80 := by
  intro line hline
  obtain ⟨depth, hdepth, rfl⟩ := List.mem_mapIdx.mp hline
  rw [width_traceLine _ (by omega)]
  decide

end Panic.Report

namespace Trace

theorem length_ofInterrupted (rip : UInt64) (returns : List UInt64) :
    (ofInterrupted rip returns).length = min depthLimit (returns.length + 1) := by
  rw [ofInterrupted, List.length_take, List.length_cons]

/-- One frame of a chain that can be read. -/
theorem follow_frame {readable : Nat → Bool} {m : Memory} {fuel : Nat}
    (rbp caller back : UInt64) (hvalid : followable rbp = true)
    (hupper : readable (rbp.toNat + 8) = true) (hlower : readable rbp.toNat = true)
    (hzero : back ≠ 0) (hback : m.word (rbp.toNat + 8) = back.toNat)
    (hcaller : m.word rbp.toNat = caller.toNat) :
    follow readable m (fuel + 1) rbp =
      let rest := if rbp < caller then follow readable m fuel caller else {}
      { rest with returns := back :: rest.returns } := by
  rw [follow, if_pos hvalid, if_pos hupper, hback, hcaller, UInt64.ofNat_toNat, UInt64.ofNat_toNat]
  dsimp only
  rw [if_neg hzero, if_pos hlower]

end Trace

namespace Machine

open Panic.Report Page

variable {α : Type} {b b' : Machine} {r : Panic.Report}

/-- What a report about an exception takes besides its message, its segment registers and its
call trace. -/
theorem height_exceptionReport (e : Unhandled) (f : Frame) (control : Panic.Control)
    (returns : List UInt64) :
    (exceptionReport e f control returns).height =
      17 + (rowsOf e.message).length + (rowsOf (segmentLine f)).length
      + (if e.vector = pageFaultVector then 1 else 0)
      + (Trace.ofInterrupted f.rip returns).length := by
  let r := exceptionReport e f control returns
  have htrace : r.trace.length ≤ 16 := by
    show (Trace.ofInterrupted f.rip returns).length ≤ 16
    rw [Trace.length_ofInterrupted]
    exact Nat.min_le_left _ _
  have hopening : (ofLines r.openingLines).length = 2 := rfl
  have hfault : (ofLines (r.faultAddress.map fun a =>
      "Faulting address (CR2): " ++ Text.address a.toNat).toList).length =
      if e.vector = pageFaultVector then 1 else 0 := by
    show (ofLines (Option.map _ (if e.vector = pageFaultVector then _ else _)).toList).length = _
    split
    · refine length_ofLines_narrow (List.forall_mem_singleton.mpr ?_)
      rw [Text.width_append, Text.width_address]
      decide
    · rfl
  have hregisters : (ofLines (registerLines f)).length = 7 + (rowsOf (segmentLine f)).length := by
    have hwide : (wideLines f).length = 7 := rfl
    rw [registerLines_eq, ofLines_append, List.length_append,
      length_ofLines_narrow (width_wideLines_le f), hwide, ofLines_singleton]
  have hcontrol : (ofLines (controlLines control)).length = 2 :=
    length_ofLines_narrow (width_controlLines_le control)
  have hlines : (ofLines (r.trace.mapIdx traceLine)).length = r.trace.length := by
    rw [length_ofLines_narrow (width_traceLines_le htrace), List.length_mapIdx]
  have hpair (s : String) (h : Text.width s ≤ 80) : (ofLines ["", s]).length = 2 :=
    length_ofLines_narrow (List.forall_mem_cons.mpr ⟨by decide, List.forall_mem_singleton.mpr h⟩)
  -- the body without its conditionals: an option is a list of at most one line
  have hparts : r.bodyLines = (r.faultAddress.map fun a =>
      "Faulting address (CR2): " ++ Text.address a.toNat).toList ++ ["", "Registers:"]
      ++ registerLines f ++ controlLines control ++ ["", "Call trace:"]
      ++ r.trace.mapIdx traceLine ++ ["", "System halted."] := rfl
  have hheight : r.height = 17 + (rowsOf r.message).length + (rowsOf (segmentLine f)).length
      + (if e.vector = pageFaultVector then 1 else 0) + r.trace.length := by
    rw [height, lines, ofLines_append, ofLines_cons, hparts]
    simp only [ofLines_append, List.length_append]
    rw [hopening, hfault, hregisters, hcontrol, hlines, hpair _ (by decide), hpair _ (by decide),
      hpair _ (by decide)]
    omega
  exact hheight

/-- A report whose lines are printable is laid out in rows, and the screen shows the last ones. -/
theorem Reported.exists_lays (h : Reported r b b')
    (hlines : ∀ line ∈ r.lines, Text.Of Terminal.Printable line) :
    ∃ t, Console.Shows (consoleOf b'.rest) t ∧ t.Lays (ofLines r.lines) [] := by
  let fg := r.kind.colors.1
  let bg := r.kind.colors.2
  have hscreen : consoleOf b'.rest = (Console.fresh fg bg).feed (Text.bytes r.text) := by
    rw [h.screen (consoleOf b.rest) b.ports, Ports.run_bind, Console.clear_recolor,
      Console.run_writeText, (Console.run_synced _ b.ports).1]
  refine ⟨(Terminal.start fg bg).typeText r.text, ?_, ?_⟩
  · rw [hscreen]
    exact (Console.shows_fresh fg bg).feed r.text
  · rw [text_eq_unlines]
    exact Terminal.lays_unlines (Terminal.lays_start fg bg) hlines

theorem printable_header (kind : Panic.Kind) : Text.Of Terminal.Printable kind.header := by
  cases kind <;> exact Text.of_ofList rfl

section Head

variable (h : Reported r b b') (hkind : r.kind = .hardware)
  (hmessage : Text.Of Text.Ink r.message) (horigin : ∀ o ∈ r.origin, Text.Of Text.Ink o)

include hmessage horigin in
theorem inked_behind : ∀ line ∈ "" :: r.message :: r.bodyLines, Text.Of Text.Ink line :=
  List.forall_mem_cons.mpr ⟨Text.of_empty, List.forall_mem_cons.mpr
    ⟨hmessage, of_bodyLines (fun _ => id) horigin⟩⟩

include h hmessage horigin

theorem Reported.exists_lays_inked :
    ∃ t, Console.Shows (consoleOf b'.rest) t ∧ t.Lays (ofLines r.lines) [] := by
  refine h.exists_lays (List.forall_mem_cons.mpr ⟨printable_header r.kind, fun line hline => ?_⟩)
  exact (inked_behind hmessage horigin line hline).mono fun _ => Terminal.printable_of_ink

include hkind

/-- The header can be read if and only if it was not scrolled away: nothing else on the screen
begins like it. -/
theorem Reported.reads_header_iff :
    (consoleOf b'.rest).Reads r.kind.header ↔ r.height ≤ 24 := by
  obtain ⟨t, hshows, hlays⟩ := h.exists_lays_inked hmessage horigin
  have hpage : ofLines r.lines =
      rowsOf r.kind.header ++ ofLines ("" :: r.message :: r.bodyLines) := rfl
  have hrow : (rowsOf r.kind.header).length = 1 := by
    rw [hkind]
    rfl
  unfold height
  constructor
  · intro hread
    by_contra hhigh
    obtain ⟨i, hi, hchar⟩ := Console.char_of_reads hshows hlays hread
    obtain ⟨k, rfl⟩ : ∃ k, i = (rowsOf r.kind.header).length + k := ⟨i - 1, by omega⟩
    rw [hpage, char_append_right, hkind] at hchar
    -- this header begins with a star, and no line behind it has any
    have hstar : char (ofLines ("" :: r.message :: r.bodyLines)) k 0 = 0x2a := hchar
    obtain hblank | ⟨line, hline, hmem⟩ := char_ofLines ("" :: r.message :: r.bodyLines) k 0
    · rw [hstar] at hblank
      exact absurd hblank (by decide)
    · rw [hstar] at hmem
      exact (inked_behind hmessage horigin line hline _ hmem).2.2 rfl
  · intro hlow
    exact Console.reads_of_page [] hshows hlays hpage (by omega)

/-- Two rows are in front of the message. -/
theorem Reported.reads_message (hlow : r.height ≤ 26) :
    (consoleOf b'.rest).Reads r.message := by
  obtain ⟨t, hshows, hlays⟩ := h.exists_lays_inked hmessage horigin
  have hfront : (rowsOf r.kind.header ++ rowsOf "").length = 2 := by
    rw [hkind]
    rfl
  have hpage : ofLines r.lines = rowsOf r.kind.header ++ rowsOf "" ++ rowsOf r.message
      ++ ofLines r.bodyLines := by
    simp only [lines, openingLines, List.cons_append, List.nil_append, ofLines_cons,
      List.append_assoc]
  unfold height at hlow
  exact Console.reads_of_page _ hshows hlays hpage (by omega)

end Head

/-! ## Exceptions -/

section Exceptions

variable (f : Frame) (control : Panic.Control) (returns : List UInt64)

/-- The line that names an exception takes one row or two. -/
theorem length_rowsOf_message :
    1 ≤ (rowsOf (Unhandled.ofFrame f).message).length ∧
      (rowsOf (Unhandled.ofFrame f).message).length ≤ 2 := by
  have hwidth : Text.width (Unhandled.ofFrame f).message ≤ 160 :=
    Unhandled.width_message_le (Unhandled.width_exceptionName_le f.number)
  rw [length_rowsOf]
  omega

/-- Up to three addresses are always few enough, if the selectors have sixteen bits. -/
theorem height_le_of_short (hselectors : ∀ s ∈ [f.cs, f.ss, f.ds, f.es, f.fs, f.gs],
    s.toNat < 0x10000) (hshort : (Trace.ofInterrupted f.rip returns).length ≤ 3) :
    (exceptionReport (.ofFrame f) f control returns).height ≤ 24 := by
  obtain ⟨-, hmessage⟩ := length_rowsOf_message f
  have hsegments := length_rowsOf_narrow (width_segmentLine_le hselectors)
  rw [height_exceptionReport]
  split <;> omega

/-- Six addresses are always too many. -/
theorem lt_height_of_long (hlong : 6 ≤ (Trace.ofInterrupted f.rip returns).length) :
    24 < (exceptionReport (.ofFrame f) f control returns).height := by
  obtain ⟨hmessage, -⟩ := length_rowsOf_message f
  have hsegments := length_rowsOf (segmentLine f)
  rw [height_exceptionReport]
  split <;> omega

end Exceptions

theorem exists_run_head (pageFault : Nat → MachineM (List UInt64)) (f : Frame)
    (hfirst : b.rest.panicking = false)
    (hreadable : (Trace.walk readable b.rest.memory f.rbp).unreadable = none) :
    let r := exceptionReport (.ofFrame f) f b.rest.control
      (Trace.walk readable b.rest.memory f.rbp).returns
    ∃ b', (reportUnhandled pageFault (.ofFrame f) f : MachineM α).run b = .error .halted b' ∧
      ((consoleOf b'.rest).Reads r.kind.header ↔ r.height ≤ 24) ∧
      (r.height ≤ 26 → (consoleOf b'.rest).Reads r.message) := by
  intro r
  have hmessage : Text.Of Text.Ink r.message :=
    Unhandled.inked_message (Unhandled.inked_exceptionName f.number)
  have horigin : ∀ o ∈ r.origin, Text.Of Text.Ink o := by
    rintro o ⟨⟩
  obtain ⟨b', hrun, hreported⟩ :=
    exists_run_reportUnhandled (α := α) pageFault (.ofFrame f) f hfirst hreadable
  exact ⟨b', hrun, hreported.reads_header_iff rfl hmessage horigin,
    hreported.reads_message rfl hmessage horigin⟩

/-- Whether the head of the report about an exception is on the screen when the processor halts.
1. Header and message are if and only if the report takes at most 24 rows; the message still is
   if it takes two more.
2. The report takes 17 rows, those of its message and of the segment registers, one more for a
   page fault, and one for each address of the call trace.
3. With selectors of sixteen bits, up to three addresses are always few enough.
4. Six addresses are always too many. -/
theorem head_readable_iff (pageFault : Nat → MachineM (List UInt64)) (f : Frame) (b : Machine)
    (hfirst : b.rest.panicking = false)
    (hreadable : (Trace.walk readable b.rest.memory f.rbp).unreadable = none) :
    let r := exceptionReport (.ofFrame f) f b.rest.control
      (Trace.walk readable b.rest.memory f.rbp).returns
    (∃ b', (reportUnhandled pageFault (.ofFrame f) f : MachineM α).run b = .error .halted b' ∧
      ((consoleOf b'.rest).Reads r.kind.header ∧ (consoleOf b'.rest).Reads r.message ↔
        r.height ≤ 24) ∧
      (r.height ≤ 26 → (consoleOf b'.rest).Reads r.message)) ∧
    r.height = 17 + (rowsOf r.message).length + (rowsOf (segmentLine f)).length
      + (if f.number = pageFaultVector then 1 else 0) + r.trace.length ∧
    ((∀ s ∈ [f.cs, f.ss, f.ds, f.es, f.fs, f.gs], s.toNat < 0x10000) → r.trace.length ≤ 3 →
      r.height ≤ 24) ∧
    (6 ≤ r.trace.length → 24 < r.height) := by
  intro r
  obtain ⟨b', hrun, hheader, hmessage⟩ := exists_run_head (α := α) pageFault f hfirst hreadable
  have hhead (h : r.height ≤ 24) :
      (consoleOf b'.rest).Reads r.kind.header ∧ (consoleOf b'.rest).Reads r.message :=
    ⟨hheader.mpr h, hmessage (Nat.le_trans h (by decide))⟩
  exact ⟨⟨b', hrun, ⟨fun h => hheader.mp h.1, hhead⟩, hmessage⟩, height_exceptionReport _ _ _ _,
    height_le_of_short f _ _, lt_height_of_long f _ _⟩

/-- One call deep, the head of the report stays. -/
theorem interruptedPrinting_readable :
    let f : Frame := { vector := 13, rbp := 0x2000, rip := 0x101300 }
    let r := exceptionReport (.ofFrame f) f {} [0x101234]
    interruptedPrinting.rest.panicking = false ∧
    ∃ b', (reportUnhandled (fun _ => return []) (.ofFrame f) f : MachineM Unit).run
        interruptedPrinting = .error .halted b' ∧
      (consoleOf b'.rest).Reads r.kind.header ∧ (consoleOf b'.rest).Reads r.message := by
  intro f r
  have hwalk : Trace.walk readable interruptedPrinting.rest.memory f.rbp
      = { returns := [0x101234] } := walk_interruptedPrinting
  obtain ⟨⟨b', hrun, hhead, -⟩, -, hshort, -⟩ := head_readable_iff (α := Unit)
    (fun _ => return []) f interruptedPrinting rfl (by rw [hwalk])
  rw [hwalk] at hhead hshort
  exact ⟨rfl, b', hrun, hhead.mpr (hshort (by simp [f]) (by decide))⟩

/-- Five frames of a stack, one above the other. -/
def deepFrames : List UInt64 :=
  [0x2010, 0x101111, 0x2020, 0x102222, 0x2030, 0x103333, 0x2040, 0x104444, 0, 0x105555]

/-- The memory with this stack. -/
def deepStack : Memory :=
  ({} : Memory).writeBytes 0x2000 (wordBytes (deepFrames.map (·.toBitVec)).toArray)

theorem word_deepStack (i : Nat) (hi : i < deepFrames.length) :
    deepStack.word (0x2000 + 8 * i) = deepFrames[i].toNat := by
  have hlength : i < (deepFrames.map (·.toBitVec)).length := hi
  have hget : (deepFrames.map (·.toBitVec))[i] = deepFrames[i].toBitVec := List.getElem_map _
  have hstored := Memory.word_writeBytes {} 0x2000 hlength
  rw [hget] at hstored
  exact hstored

theorem walk_deepStack : Trace.walk readable deepStack 0x2000 =
    { returns := [0x101111, 0x102222, 0x103333, 0x104444, 0x105555] } := by
  -- the word at a frame pointer is the caller's, the one behind it the address to return to
  rw [Trace.walk,
    Trace.follow_frame 0x2000 0x2010 0x101111 (by decide) (by decide)
      (by decide) (by decide) (word_deepStack 1 (by decide)) (word_deepStack 0 (by decide)),
    if_pos (by decide),
    Trace.follow_frame 0x2010 0x2020 0x102222 (by decide) (by decide)
      (by decide) (by decide) (word_deepStack 3 (by decide)) (word_deepStack 2 (by decide)),
    if_pos (by decide),
    Trace.follow_frame 0x2020 0x2030 0x103333 (by decide) (by decide)
      (by decide) (by decide) (word_deepStack 5 (by decide)) (word_deepStack 4 (by decide)),
    if_pos (by decide),
    Trace.follow_frame 0x2030 0x2040 0x104444 (by decide) (by decide)
      (by decide) (by decide) (word_deepStack 7 (by decide)) (word_deepStack 6 (by decide)),
    if_pos (by decide),
    Trace.follow_frame 0x2040 0 0x105555 (by decide) (by decide)
      (by decide) (by decide) (word_deepStack 9 (by decide)) (word_deepStack 8 (by decide)),
    if_neg (by decide)]

/-- Five calls deep, the header of the report is not on the screen any more. -/
theorem deepTrace_scrolled :
    let f : Frame := { vector := 13, rip := 0x101234, rbp := 0x2000, cs := 8, ss := 16 }
    let b : Machine := { rest := { image := default, memory := deepStack } }
    b.rest.panicking = false ∧ (Trace.walk readable b.rest.memory f.rbp).unreadable = none ∧
    ∃ b', (reportUnhandled (fun _ => return []) (.ofFrame f) f : MachineM Unit).run b
        = .error .halted b' ∧
      ¬ (consoleOf b'.rest).Reads Panic.Kind.hardware.header := by
  intro f b
  have hwalk : Trace.walk readable b.rest.memory f.rbp =
    { returns := [0x101111, 0x102222, 0x103333, 0x104444, 0x105555] } := walk_deepStack
  have hreadable : (Trace.walk readable b.rest.memory f.rbp).unreadable = none := by rw [hwalk]
  obtain ⟨b', hrun, hheader, -⟩ := exists_run_head (α := Unit) (fun _ => return []) f rfl hreadable
  refine ⟨rfl, hreadable, b', hrun, fun hread => ?_⟩
  have hlow := hheader.mp hread
  rw [hwalk] at hlow
  exact absurd hlow (Nat.not_le.mpr (lt_height_of_long f _ _ (by decide)))

end Machine

end Supervisor

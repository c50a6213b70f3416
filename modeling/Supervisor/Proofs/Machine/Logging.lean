import Supervisor.Proofs.Console.Colors
import Supervisor.Proofs.Machine.Fatal

/-!
# The log on both outputs

A log line is laid out twice, as one text for the serial port and in coloured pieces for the
console. `Log.Entry.display_eq` says what the console is asked for, and
`Log.Entry.bytes_operations` that the two layouts spell the same.

Between the lines the threshold, the console output and the clock may change. `Log.due` says
which lines are to come out of such `Log.Event`s, with the uptime that they carry and whether
the console shows them; it knows nothing of machines.

- `Machine.Logged`: lines have come out on both outputs. A line that was only heard
  (`logged_heard`) may be shown after that (`Logged.shown`).
- `exists_run_happen` takes one event, `exists_run_events` any number of them: what comes out is
  what is due.
- `log_mirrored` is the main statement.
-/

namespace Supervisor

namespace Log

/-! ## A line on the console -/

namespace Entry

/-- What the console is asked for to show coloured pieces on black. -/
def strokes (pieces : List (Color × String)) : List Console.Operation :=
  pieces.flatMap fun (color, s) => [.recolor color .black, .text s]

/-- What the console is asked for to show a line and to have its colours back. -/
def operations (e : Entry) (ms : Nat) (fg bg : Color) : List Console.Operation :=
  strokes (e.pieces ms) ++ [.byte 0x0A, .recolor fg bg]

variable (e : Entry) (ms : Nat) (fg bg : Color) (c : Console)

theorem paint_eq (pieces : List (Color × String)) :
    paint pieces c = (strokes pieces).foldlM Console.perform c := by
  induction pieces generalizing c with
  | nil => rfl
  | cons piece pieces ih =>
    obtain ⟨color, s⟩ := piece
    rw [paint]
    exact bind_congr fun written => ih written

theorem display_eq :
    e.display ms c = (e.operations ms c.pen.fg c.pen.bg).foldlM Console.perform c := by
  rw [display, paint_eq, operations, List.foldlM_append]
  exact bind_congr fun painted => bind_congr fun ended => (bind_pure _).symm

/-- The text writes in one go what closes one piece and opens the next. -/
theorem text_eq :
    e.text ms = timestamp ms ++ (e.levelTag ++ (e.originTag ++ (e.message ++ e.placeTag ++ "\n"))) := by
  have hfirst : "s] [" = "s] " ++ "[" := rfl
  have hsecond : "] [" = "] " ++ "[" := rfl
  delta text timestamp levelTag originTag placeTag
  simp only [hfirst, hsecond, String.append_assoc]

/-- The coloured pieces spell the line as the serial port gets it. -/
theorem bytes_operations :
    (e.operations ms fg bg).flatMap Console.Operation.bytes = Text.bytes (e.text ms) := by
  rw [text_eq, Text.bytes_append, Text.bytes_append, Text.bytes_append, Text.bytes_append]
  rfl

theorem textual_operations : ∀ op ∈ e.operations ms fg bg, op.Textual := by
  intro op hop
  rcases List.mem_append.mp hop with hstroke | hend
  · obtain ⟨⟨color, s⟩, -, hmem⟩ := List.mem_flatMap.mp hstroke
    rcases List.mem_pair.mp hmem with rfl | rfl <;> trivial
  · rcases List.mem_pair.mp hend with rfl | rfl
    · rfl
    · trivial

end Entry

/-! ## Lines that are due -/

/-- Something that happens to the log. -/
inductive Event where
  /-- A line is logged, whatever its level. -/
  | line (e : Entry)
  /-- The threshold is set. -/
  | threshold (level : Level)
  /-- The console is to show the log too, or not any more. -/
  | console (on : Bool)
  /-- Time has gone by. -/
  | clock (now : Clock)
  deriving DecidableEq, Repr

/-- A line that comes out. -/
structure Line where
  entry : Entry
  /-- The uptime, in milliseconds. -/
  ms : Nat
  /-- Whether the console shows it too. -/
  shown : Bool
  deriving DecidableEq, Repr

namespace Line

/-- The line as the serial port gets it. -/
def text (l : Line) : String :=
  l.entry.text l.ms

/-- What the serial port is handed, byte by byte. -/
def handed (l : Line) : List UInt8 :=
  Serial.handed l.text

/-- What the console is asked for. -/
def operations (l : Line) (fg bg : Color) : List Console.Operation :=
  l.entry.operations l.ms fg bg

end Line

/-- The lines that are to come out, from the settings and the clock before the events. -/
def due (settings : Settings) (now : Clock) : List Event → List Line
  | [] => []
  | .line e :: events =>
    if settings.threshold.rank ≤ e.level.rank then
      ⟨e, now.ms, settings.onConsole⟩ :: due settings now events
    else due settings now events
  | .threshold level :: events => due { settings with threshold := level } now events
  | .console on :: events => due { settings with onConsole := on } now events
  | .clock now :: events => due settings now events

/-- What the console is asked for in all, if these are its colours. -/
def shownOperations (lines : List Line) (fg bg : Color) : List Console.Operation :=
  (lines.filter (·.shown)).flatMap (·.operations fg bg)

theorem shownOperations_append (xs ys : List Line) (fg bg : Color) :
    shownOperations (xs ++ ys) fg bg = shownOperations xs fg bg ++ shownOperations ys fg bg := by
  rw [shownOperations, List.filter_append, List.flatMap_append]
  rfl

theorem shownOperations_shown (e : Entry) (ms : Nat) (fg bg : Color) :
    shownOperations [⟨e, ms, true⟩] fg bg = e.operations ms fg bg :=
  List.append_nil _

theorem bytes_shownOperations (lines : List Line) (fg bg : Color) :
    (shownOperations lines fg bg).flatMap Console.Operation.bytes
      = (lines.filter (·.shown)).flatMap fun l => Text.bytes l.text := by
  rw [shownOperations, List.flatMap_assoc]
  exact List.flatMap_congr fun l _ => l.entry.bytes_operations l.ms fg bg

theorem textual_shownOperations (lines : List Line) (fg bg : Color) :
    ∀ op ∈ shownOperations lines fg bg, op.Textual := by
  intro op hop
  obtain ⟨l, -, hmem⟩ := List.mem_flatMap.mp hop
  exact l.entry.textual_operations l.ms fg bg op hmem

end Log

namespace Machine

variable {b b' b'' : Machine} {xs ys : List Log.Line}

/-! ## Lines that came out -/

/-- Going from `b` to `b'`, lines have come out.
1. The outputs are as reachable as before.
2. The driver of the serial port was handed the lines, and what it sends for them has gone over
   the serial line, as far as the port passes it on.
3. The console did what it was asked for, and nothing else used the ports.
4. The console has the colours that it had. -/
structure Logged (lines : List Log.Line) (b b' : Machine) : Prop where
  held : b'.held = b.held
  ready : b'.rest.serialReady = b.rest.serialReady
  uart : b'.rest.uart = b.rest.uart
  transmit : b'.rest.transmit = b.rest.transmit
  handed : b'.rest.outside.handed.toList = b.rest.outside.handed.toList ++
    lines.flatMap (·.handed)
  serial : b'.rest.outside.serial.toList = b.rest.outside.serial.toList ++
    b.rest.uart.passed ((lines.flatMap (·.handed)).flatMap b.rest.transmit)
  console : (consoleOf b'.rest, b'.ports) =
    ((Log.shownOperations lines b.rest.pen.fg b.rest.pen.bg).foldlM Console.perform
      (consoleOf b.rest)).run b.ports
  fg : b'.rest.pen.fg = b.rest.pen.fg
  bg : b'.rest.pen.bg = b.rest.pen.bg

namespace Logged

/-- Changes of anything but the outputs. -/
theorem of_kept {k : Kernel} (hready : k.serialReady = b.rest.serialReady)
    (huart : k.uart = b.rest.uart) (htransmit : k.transmit = b.rest.transmit)
    (hhanded : k.outside.handed = b.rest.outside.handed)
    (hserial : k.outside.serial = b.rest.outside.serial) (hpen : k.pen = b.rest.pen)
    (hmemory : k.memory = b.rest.memory) :
    Logged [] b { b with rest := k } where
  held := rfl
  ready := hready
  uart := huart
  transmit := htransmit
  handed := by
    show k.outside.handed.toList = _ ++ []
    rw [hhanded, List.append_nil]
  serial := by
    show k.outside.serial.toList = _ ++ b.rest.uart.passed []
    rw [hserial, Serial.Uart.passed, ite_self, List.append_nil]
  console := by
    show (consoleOf k, b.ports) = (consoleOf b.rest, b.ports)
    rw [consoleOf, consoleOf, hpen, hmemory]
  fg := congrArg Pen.fg hpen
  bg := congrArg Pen.bg hpen

theorem refl (b : Machine) : Logged [] b b :=
  of_kept rfl rfl rfl rfl rfl rfl rfl

theorem trans (h : Logged xs b b') (h' : Logged ys b' b'') : Logged (xs ++ ys) b b'' where
  held := h'.held.trans h.held
  ready := h'.ready.trans h.ready
  uart := h'.uart.trans h.uart
  transmit := h'.transmit.trans h.transmit
  handed := by
    rw [h'.handed, h.handed, List.append_assoc, List.flatMap_append]
  serial := by
    rw [h'.serial, h.serial, h.uart, h.transmit, List.append_assoc, List.flatMap_append,
      List.flatMap_append, Serial.Uart.passed_append]
  console := by
    have hfirst := h.console
    rw [run_foldlM] at hfirst
    rw [h'.console, run_foldlM, run_foldlM, Log.shownOperations_append, List.foldl_append, ← hfirst,
      h.fg, h.bg]
  fg := h'.fg.trans h.fg
  bg := h'.bg.trans h.bg

end Logged

/-! ## Events -/

/-- Lets an event happen. -/
def happen : Log.Event → MachineM Unit
  | .line e => log e
  | .threshold level => change fun k => { k with log.threshold := level }
  | .console on => change fun k => { k with log.onConsole := on }
  | .clock now => change fun k => { k with clock := now }

/-- A line that only goes to the serial port. -/
theorem logged_heard (e : Log.Entry) (hready : b.rest.serialReady = true) :
    Logged [⟨e, b.rest.clock.ms, false⟩] b
      { b.passed with rest := heard (e.text b.rest.clock.ms) b.rest } := by
  obtain ⟨hport, huart, htransmit, hpen⟩ := heard_kept (e.text b.rest.clock.ms) b.rest
  have hhanded := handed_heard (e.text b.rest.clock.ms) b.rest
  have hserial := serial_heard (e.text b.rest.clock.ms) b.rest
  rw [carried, offered, if_pos hready] at hserial
  rw [offered, if_pos hready] at hhanded
  exact
    { held := Board.passed_held b
      ready := hport
      uart := huart
      transmit := htransmit
      handed := by
        rw [List.flatMap_singleton]
        exact hhanded
      serial := by
        rw [List.flatMap_singleton]
        exact hserial
      console := by
        show (consoleOf (heard _ b.rest), b.passed.ports) = (consoleOf b.rest, b.ports)
        rw [consoleOf_heard, Board.passed_ports]
      fg := congrArg Pen.fg hpen
      bg := congrArg Pen.bg hpen }

/-- A line that the serial port has got is shown too. -/
theorem Logged.shown {e : Log.Entry} {ms : Nat} (h : Logged [⟨e, ms, false⟩] b b') :
    Logged [⟨e, ms, true⟩] b
      { b'.passed with
        ports := ((e.display ms (consoleOf b'.rest)).run b'.ports).2
        rest := putConsole ((e.display ms (consoleOf b'.rest)).run b'.ports).1 b'.rest } where
  held := (Board.passed_held b').trans h.held
  ready := h.ready
  uart := h.uart
  transmit := h.transmit
  handed := h.handed
  serial := h.serial
  console := by
    -- Nothing has been shown since `b`.
    have hsame : (consoleOf b'.rest, b'.ports) = (consoleOf b.rest, b.ports) := h.console
    obtain ⟨hscreen, hports⟩ := Prod.mk.inj hsame
    rw [consoleOf_putConsole, Prod.mk.eta, hscreen, hports, Log.Entry.display_eq,
      Log.shownOperations_shown]
    rfl
  fg := h.fg
  bg := h.bg

/-- A line at or above the threshold comes out. -/
theorem exists_run_log_due {e : Log.Entry} (hlevel : b.rest.log.threshold.rank ≤ e.level.rank)
    (hready : b.rest.serialReady = true) (hserial : Lock.serial ∉ b.held)
    (hconsole : Lock.console ∉ b.held) :
    ∃ b', (log e).run b = .ok () b' ∧
      Logged [⟨e, b.rest.clock.ms, b.rest.log.onConsole⟩] b b' := by
  have hadmits : b.rest.log.admits e = true := decide_eq_true hlevel
  have hheard := logged_heard e hready
  cases hshown : b.rest.log.onConsole with
  | false => exact ⟨_, run_log_heard hadmits (by simp [hshown]) hserial, hheard⟩
  | true =>
    rw [run_log_shown hadmits hshown hserial]
    exact ⟨_, run_withConsole _ (by rwa [hheard.held]), hheard.shown⟩

/-- A line below the threshold affects nothing. -/
theorem run_log_below {e : Log.Entry} (hlevel : e.level.rank < b.rest.log.threshold.rank) :
    (log e).run b = .ok () b := by
  refine run_log_dropped ?_
  rw [Log.Settings.admits, decide_eq_true_iff]
  exact Nat.not_le.mpr hlevel

/-- What comes out at one event is what is due then. -/
theorem exists_run_happen (event : Log.Event) (hready : b.rest.serialReady = true)
    (hserial : Lock.serial ∉ b.held) (hconsole : Lock.console ∉ b.held) :
    ∃ b' lines, (happen event).run b = .ok () b' ∧ Logged lines b b' ∧
      ∀ events, Log.due b.rest.log b.rest.clock (event :: events)
        = lines ++ Log.due b'.rest.log b'.rest.clock events := by
  cases event with
  | line e =>
    by_cases hlevel : b.rest.log.threshold.rank ≤ e.level.rank
    · obtain ⟨b', hrun, hlogged⟩ := exists_run_log_due hlevel hready hserial hconsole
      obtain ⟨b'', hrun', hprinted⟩ := exists_run_log e hserial hconsole
      obtain rfl : b' = b'' := by
        injection hrun.symm.trans hrun'
      refine ⟨b', _, hrun, hlogged, fun events => ?_⟩
      rw [Log.due, if_pos hlevel, hprinted.rest]
      rfl
    · refine ⟨b, [], run_log_below (Nat.not_le.mp hlevel), .refl b, fun events => ?_⟩
      rw [Log.due, if_neg hlevel]
      rfl
  | threshold level => exact ⟨_, [], rfl, .of_kept rfl rfl rfl rfl rfl rfl rfl, fun _ => rfl⟩
  | console on => exact ⟨_, [], rfl, .of_kept rfl rfl rfl rfl rfl rfl rfl, fun _ => rfl⟩
  | clock now => exact ⟨_, [], rfl, .of_kept rfl rfl rfl rfl rfl rfl rfl, fun _ => rfl⟩

/-- What comes out of events is what is due. -/
theorem exists_run_events (events : List Log.Event) (hready : b.rest.serialReady = true)
    (hserial : Lock.serial ∉ b.held) (hconsole : Lock.console ∉ b.held) :
    ∃ b', (events.forM happen).run b = .ok () b' ∧
      Logged (Log.due b.rest.log b.rest.clock events) b b' := by
  induction events generalizing b with
  | nil => exact ⟨b, rfl, .refl b⟩
  | cons event events ih =>
    obtain ⟨b', lines, hrun, hlogged, hdue⟩ := exists_run_happen event hready hserial hconsole
    obtain ⟨b'', hrun', hlogged'⟩ := ih (hlogged.ready.trans hready)
      (by rwa [hlogged.held]) (by rwa [hlogged.held])
    rw [hdue]
    exact ⟨b'', (run_bind_ok hrun _).trans hrun', hlogged.trans hlogged'⟩

/-- For any log lines, of any level and contents, at any uptime, and however the threshold and
the console output change between them, on a machine whose serial port is set up and whose
outputs are not locked: all calls return, the lines that come out are those that are due, on both
outputs, and the console has its colours back. Of each line, the coloured pieces spell the text
that the serial port gets, so that the screen has the characters of these texts. A line below the
threshold affects nothing at all. Every beginning of the events is such a sequence, so this holds
after each call. -/
theorem log_mirrored (events : List Log.Event) (b : Machine) (hready : b.rest.serialReady = true)
    (hserial : Lock.serial ∉ b.held) (hconsole : Lock.console ∉ b.held) :
    let lines := Log.due b.rest.log b.rest.clock events
    let texts := (lines.filter (·.shown)).flatMap fun l => Text.bytes l.text
    (∃ b', (events.forM happen).run b = .ok () b' ∧ Logged lines b b' ∧
      (consoleOf b'.rest).SameText ((consoleOf b.rest).feed texts)) ∧
    (∀ l ∈ lines, ∀ fg bg,
      (l.operations fg bg).flatMap Console.Operation.bytes = Text.bytes l.text) ∧
    ∀ e : Log.Entry, e.level.rank < b.rest.log.threshold.rank → (log e).run b = .ok () b := by
  intro lines texts
  obtain ⟨b', hrun, hlogged⟩ := exists_run_events events hready hserial hconsole
  refine ⟨⟨b', hrun, hlogged, ?_⟩, fun l _ fg bg => l.entry.bytes_operations l.ms fg bg,
    fun e => run_log_below⟩
  have hscreen : consoleOf b'.rest = _ := congrArg Prod.fst hlogged.console
  have htext : texts = (Log.shownOperations lines b.rest.pen.fg b.rest.pen.bg).flatMap
      Console.Operation.bytes := (Log.bytes_shownOperations lines _ _).symm
  rw [hscreen, htext]
  exact Console.sameText_run (Log.textual_shownOperations lines _ _) _ _

/-- A machine at the end of the last row, in yellow on red, that holds neither output. -/
def lastRow : Machine :=
  { interruptedPrinting with held := [] }

/-- A debug line for the serial port only, a line that the threshold drops, and one for both
outputs, with a line end and a letter of two bytes in its message. -/
def someEvents : List Log.Event :=
  [.clock ⟨12345, 1000⟩,
    .line { level := .debug, place := ⟨"src/main.rs", 42⟩, origin := "boot", message := "up" },
    .threshold .warn, .line { level := .info, origin := "boot", message := "dropped" },
    .console true, .clock ⟨700, 100⟩,
    .line { level := .error, origin := "heap", message := "bad\nblöck" }]

theorem lastRow_mirrored :
    let sent := Text.bytes
      "[t=12.345s] [DEBUG] [boot] up (src/main.rs:42)\r\n[t=7.000s] [ERROR] [heap] bad\r\nblöck\r\n"
    lastRow.rest.serialReady = true ∧ Lock.serial ∉ lastRow.held ∧ Lock.console ∉ lastRow.held ∧
    ∃ b', (someEvents.forM happen).run lastRow = .ok () b' ∧
      b'.rest.outside.handed.toList = sent ∧ b'.rest.outside.serial.toList = sent ∧
      (consoleOf b'.rest).SameText ((consoleOf lastRow.rest).feed
        (Text.bytes "[t=7.000s] [ERROR] [heap] bad\nblöck\n")) ∧
      b'.rest.pen.fg = .yellow ∧ b'.rest.pen.bg = .red := by
  intro sent
  obtain ⟨⟨b', hrun, hlogged, hsame⟩, -, -⟩ :=
    log_mirrored someEvents lastRow rfl (by decide) (by decide)
  have htexts : ((Log.due lastRow.rest.log lastRow.rest.clock someEvents).filter (·.shown)).flatMap
      (fun l => Text.bytes l.text) = Text.bytes "[t=7.000s] [ERROR] [heap] bad\nblöck\n" := by
    decide +kernel
  have hhanded :
      (Log.due lastRow.rest.log lastRow.rest.clock someEvents).flatMap (·.handed) = sent := by
    decide +kernel
  have hsent : lastRow.rest.uart.passed (sent.flatMap lastRow.rest.transmit) = sent := by
    decide +kernel
  rw [htexts] at hsame
  refine ⟨rfl, by decide, by decide, b', hrun, ?_, ?_, hsame, hlogged.fg, hlogged.bg⟩
  · rw [hlogged.handed, hhanded]
    rfl
  · rw [hlogged.serial, hhanded, hsent]
    rfl

end Machine

end Supervisor

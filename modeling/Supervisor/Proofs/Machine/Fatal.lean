import Supervisor.Machine.Fatal
import Supervisor.Proofs.Console.Screen
import Supervisor.Proofs.Machine.Output
import Supervisor.Proofs.Panic.Plain

/-!
# The fatal path

A report is written by code that may have been interrupted while it printed, so nothing is
known about the screen, the pen, the colours or the locks of the outputs. It comes out the
same nevertheless.

- `Machine.Written`: on a screen that was cleared, and on the serial line, a text has been
  written so far. Clearing starts with the empty text (`exists_run_clear`) and `tee` adds
  to it (`Written.exists_run_tee`).
- `Machine.Reported`: everything that a report leaves behind. `exists_run_emit` is the
  main lemma: a report that has been begun is finished, whoever held the locks.
- `Machine.About`: what a report about an exception is to show. `unhandled_reported` is the
  statement about exceptions. Whoever comes to the fatal path after the first one halts at
  once (`run_panicDuring_again`, `run_reportUnhandled_again`).
-/

namespace Supervisor

namespace Board

variable {η ω : Type} {b : Board η ω}

/-- The board with interrupts switched off once more. -/
def silenced (b : Board η ω) : Board η ω :=
  { b with cpu := b.cpu.push .disable, interrupts := false }

theorem passed_of_off (h : b.interrupts = false) : b.passed = b := by
  rw [passed, h]
  rfl

theorem hushed_of_off (h : b.interrupts = false) : b.hushed = b := by
  rw [hushed, h]
  rfl

end Board

namespace Machine

variable {α : Type} {b b' : Machine} {fg bg : Color} {s : String}

/-! ## Both outputs -/

/-- What the driver of the serial port is handed of a text. -/
def offered (k : Kernel) (s : String) : List UInt8 :=
  if k.serialReady then Serial.handed s else []

/-- What the serial line gets of a text. -/
def carried (k : Kernel) (s : String) : List UInt8 :=
  k.uart.passed ((offered k s).flatMap k.transmit)

theorem offered_append (k : Kernel) (s t : String) :
    offered k (s ++ t) = offered k s ++ offered k t := by
  unfold offered
  rw [Serial.handed_append]
  split <;> rfl

theorem offered_empty (k : Kernel) : offered k "" = [] := by
  unfold offered
  rw [Serial.handed, Text.bytes_empty]
  split <;> rfl

theorem carried_append (k : Kernel) (s t : String) :
    carried k (s ++ t) = carried k s ++ carried k t := by
  rw [carried, offered_append, List.flatMap_append, Serial.Uart.passed_append]
  rfl

theorem carried_empty (k : Kernel) : carried k "" = [] := by
  rw [carried, offered_empty]
  exact ite_self _

theorem handed_heard (s : String) (k : Kernel) :
    (heard s k).outside.handed.toList = k.outside.handed.toList ++ offered k s := by
  unfold heard offered
  split
  · simp [hand, sent]
  · exact (List.append_nil _).symm

theorem serial_heard (s : String) (k : Kernel) :
    (heard s k).outside.serial.toList = k.outside.serial.toList ++ carried k s := by
  unfold heard carried offered
  split
  · simp [hand, sent]
  · rw [List.flatMap_nil, Serial.Uart.passed, ite_self, List.append_nil]

theorem heard_kept (s : String) (k : Kernel) :
    (heard s k).serialReady = k.serialReady ∧ (heard s k).uart = k.uart ∧
      (heard s k).transmit = k.transmit ∧ (heard s k).pen = k.pen := by
  rw [heard]
  split <;> exact ⟨rfl, rfl, rfl, rfl⟩

theorem consoleOf_heard (s : String) (k : Kernel) : consoleOf (heard s k) = consoleOf k := by
  rw [heard]
  split <;> rfl

/-- The board once a console is put and its cursor moved. -/
def shown (c : Console) (b : Machine) : Machine :=
  { b with ports := (c.synced.run b.ports).2, rest := putConsole c b.rest }

theorem run_onConsole_synced {f : Console → PortM Console} {c : Console}
    (h : f (consoleOf b.rest) = c.synced) : (onConsole f).run b = .ok () (shown c b) := by
  rw [run_onConsole, h]
  rfl

theorem consoleOf_shown (c : Console) (b : Machine) : consoleOf (shown c b).rest = c :=
  consoleOf_putConsole c b.rest

theorem printed_shown (c : Console) (hoff : b.interrupts = false) : Printed b (shown c b) := by
  have hput := printed_putConsole c (c.synced.run b.ports).2 b
  rwa [Board.passed_of_off hoff] at hput

/-- The hardware cursor is moved to the pen last. -/
theorem log_shown (c : Console) (b : Machine) :
    (shown c b).ports.log.toList = b.ports.log.toList ++ c.pen.moves :=
  (Console.run_synced c b.ports).2

/-- Since `b`, the screen was cleared in the given colours, and a text has been written to
it and to the serial port. Nothing else was printed, and the hardware cursor was moved
last. -/
structure Written (fg bg : Color) (b : Machine) (s : String) (b' : Machine) : Prop where
  printed : Printed b b'
  cpu : b'.cpu = b.cpu
  screen : consoleOf b'.rest = (Console.fresh fg bg).feed (Text.bytes s)
  handed : b'.rest.outside.handed.toList = b.rest.outside.handed.toList ++ offered b.rest s
  serial : b'.rest.outside.serial.toList = b.rest.outside.serial.toList ++ carried b.rest s
  cursor : ∃ before, b'.ports.log.toList = before ++ (consoleOf b'.rest).pen.moves

/-- The screen is kept a variable: there is no need to look into it. -/
theorem written_shown {c : Console} (hoff : b.interrupts = false) (hc : c = Console.fresh fg bg) :
    Written fg bg b "" (shown c b) where
  printed := printed_shown c hoff
  cpu := rfl
  screen := by
    rw [consoleOf_shown, Text.bytes_empty, Console.feed_nil, hc]
  handed := by
    rw [offered_empty, List.append_nil]
    rfl
  serial := by
    rw [carried_empty, List.append_nil]
    rfl
  cursor := by
    rw [consoleOf_shown]
    exact ⟨_, log_shown c b⟩

theorem exists_run_clear (hoff : b.interrupts = false) (fg bg : Color) :
    ∃ b', (onConsole fun c => (c.recolor fg bg).clear).run b = .ok () b' ∧
      Written fg bg b "" b' :=
  ⟨_, run_onConsole_synced (Console.clear_recolor _ fg bg), written_shown hoff rfl⟩

/-- The step lemma: a further text is written behind what is there. -/
theorem Written.exists_run_tee (h : Written fg bg b s b') (hoff : b.interrupts = false)
    (hserial : Lock.serial ∉ b.held) (t : String) :
    ∃ b'', (tee t).run b' = .ok () b'' ∧ Written fg bg b (s ++ t) b'' := by
  let c := (consoleOf b'.rest).feed (Text.bytes t)
  have hoff' : b'.interrupts = false := h.printed.interrupts.trans hoff
  have hshown : (onConsole (·.writeText t)).run b' = .ok () (shown c b') :=
    run_onConsole_synced rfl
  have hsent := run_send t (b := shown c b') (h.printed.held ▸ hserial)
  have hheard := printed_heard t (shown c b')
  rw [Board.passed_of_off (b := shown c b') hoff'] at hsent hheard
  have hscreen : consoleOf (heard t (shown c b').rest) = c := by
    rw [consoleOf_heard, consoleOf_shown]
  refine ⟨_, by rw [tee, run_bind_ok hshown, hsent], ?_⟩
  have hoffered : offered (shown c b').rest t = offered b.rest t := by
    show offered b'.rest t = _
    rw [offered, h.printed.rest]
    rfl
  have hcarried : carried (shown c b').rest t = carried b.rest t := by
    rw [carried, hoffered]
    show b'.rest.uart.passed (List.flatMap b'.rest.transmit _) = _
    rw [h.printed.rest]
    rfl
  refine { printed := (h.printed.trans (printed_shown c hoff')).trans hheard, cpu := h.cpu,
           screen := ?_, handed := ?_, serial := ?_, cursor := ?_ }
  · rw [hscreen, Text.bytes_append, Console.feed_append, ← h.screen]
  · rw [handed_heard, hoffered, offered_append, ← List.append_assoc, ← h.handed]
    rfl
  · rw [serial_heard, hcarried, carried_append, ← List.append_assoc, ← h.serial]
    rfl
  · exact ⟨_, by rw [hscreen]; exact log_shown c b'⟩

/-! ## A report -/

/-- Everything that a report leaves behind, the board being `b` before it and `b'` when the
processor halts.
1. Interrupts are off, and were switched off only.
2. If the serial port was set up, its driver was handed the text of the report, with a carriage
   return before every line feed, and what it sends for these bytes has gone over the line.
3. Screen, pen and colours are those of any screen that was cleared in the colours of the
   report and on which its text was written, and every cell has these colours.
4. The hardware cursor was moved to the pen last.
5. Of the remaining state only what a report is about has changed, and of memory only the
   screen. The fatal path is taken from now on. -/
structure Reported (r : Panic.Report) (b b' : Machine) : Prop where
  interrupts : b'.interrupts = false
  cpu : b'.cpu.toList = b.cpu.toList ++ [.disable, .disable]
  handed : b'.rest.outside.handed.toList = b.rest.outside.handed.toList ++
    if b.rest.serialReady then Serial.crlf (Text.bytes r.text) else []
  serial : b'.rest.outside.serial.toList = b.rest.outside.serial.toList ++ carried b.rest r.text
  screen : ∀ (c : Console) (p : Ports), consoleOf b'.rest =
    (((c.recolor r.kind.colors.1 r.kind.colors.2).clear >>= (·.writeText r.text)).run p).1
  attributes : ∀ a ∈ (consoleOf b'.rest).attributes,
    a = Color.attributeByte r.kind.colors.1 r.kind.colors.2
  cursor : ∃ before, b'.ports.log.toList = before ++ (consoleOf b'.rest).pen.moves
  handlers : b'.handlers = b.handlers
  pic : b'.pic = b.pic
  rest : b'.rest = { b.rest with
    panicking := true
    pen := b'.rest.pen
    memory := b'.rest.memory
    outside := { b.rest.outside with
      handed := b'.rest.outside.handed
      serial := b'.rest.outside.serial
      reportStart := some b.rest.outside.serial.size } }
  memory : Memory.ChangedIn b.rest.memory b'.rest.memory consoleBase consoleBytes

/-- The board once the fatal path is claimed. -/
def claimed (b : Machine) : Machine :=
  { b.silenced with rest := { b.rest with panicking := true } }

theorem run_enterPanic (hfirst : b.rest.panicking = false) :
    enterPanic.run b = .ok () b.claimed := by
  show (if b.silenced.rest.panicking = true then _ else _ : MachineM Unit).run b.silenced = _
  rw [if_neg]
  · rfl
  · show ¬ b.rest.panicking = true
    rw [hfirst]
    exact Bool.false_ne_true

/-- A report that was begun is finished, whoever holds the locks of the outputs. -/
theorem exists_run_emit (r : Panic.Report) (b : Machine) :
    ∃ b', (emit r (return) : MachineM α).run b.claimed = .error .halted b' ∧ Reported r b b' := by
  let opened : Machine := { b.claimed with
    held := (b.held.filter (· != .console)).filter (· != .serial)
    rest := { b.claimed.rest with
      outside.reportStart := some b.rest.outside.serial.size } }
  let inside : Machine := { opened with held := .console :: opened.held }
  have hoff : inside.interrupts = false := rfl
  have hconsole : Lock.console ∉ opened.held := by
    simp [opened]
  have hserial : Lock.serial ∉ inside.held := by
    simp [inside, opened]
  obtain ⟨b₁, hclear, hwritten⟩ :=
    exists_run_clear hoff r.kind.colors.1 r.kind.colors.2
  obtain ⟨b₂, hmessage, hwritten⟩ := hwritten.exists_run_tee hoff hserial (r.opening ++ r.message)
  obtain ⟨b₃, hbody, hwritten⟩ := hwritten.exists_run_tee hoff hserial r.body
  have hwhole : "" ++ (r.opening ++ r.message) ++ r.body = r.text := by
    rw [String.empty_append, Panic.Report.text]
  rw [hwhole] at hwritten
  have hsection : (Board.locked .console (do
      onConsole (fun c => (c.recolor r.kind.colors.1 r.kind.colors.2).clear)
      tee (r.opening ++ r.message)
      (return)
      tee r.body) : MachineM Unit).run opened
      = .ok () { b₃ with held := b₃.held.filter (· != .console) } := by
    have hinside : { opened.hushed with held := Lock.console :: opened.held } = inside := rfl
    rw [Board.run_locked (a := ()) (c := b₃) _ hconsole]
    · rfl
    · rw [hinside, run_bind_ok hclear, run_bind_ok hmessage]
      exact hbody
  refine ⟨Board.silenced { b₃ with held := b₃.held.filter (· != .console) }, ?_, ?_⟩
  · have hreleased : (Board.release .console >>= fun _ => Board.release .serial >>= fun _ =>
        change fun k => { k with outside.reportStart := some k.outside.serial.size } :
          MachineM Unit).run b.claimed = .ok () opened := rfl
    have hhalt : (haltForever : MachineM α).run { b₃ with held := b₃.held.filter (· != .console) }
        = .error .halted (Board.silenced { b₃ with held := b₃.held.filter (· != .console) }) := rfl
    have hemit : (emit r (return) : MachineM α) =
        (Board.release .console >>= fun _ => Board.release .serial >>= fun _ =>
          change fun k => { k with outside.reportStart := some k.outside.serial.size }) >>=
        fun _ => Board.locked .console (do
          onConsole (fun c => (c.recolor r.kind.colors.1 r.kind.colors.2).clear)
          tee (r.opening ++ r.message)
          (return)
          tee r.body) >>= fun _ => haltForever := rfl
    rw [hemit, run_bind_ok hreleased, run_bind_ok hsection, hhalt]
  · have hprinted := hwritten.printed
    refine { interrupts := rfl, cpu := ?_, handed := hwritten.handed, serial := hwritten.serial,
             screen := ?_, attributes := ?_, cursor := hwritten.cursor,
             handlers := hprinted.handlers, pic := hprinted.pic, rest := hprinted.rest,
             memory := hprinted.memory }
    · show (b₃.cpu.push .disable).toList = _
      rw [hwritten.cpu]
      show ((b.cpu.push .disable).push .disable).toList = _
      simp
    · intro c p
      show consoleOf b₃.rest = _
      rw [hwritten.screen, Ports.run_bind, Console.clear_recolor, Console.run_writeText,
        (Console.run_synced _ p).1]
    · show ∀ a ∈ (consoleOf b₃.rest).attributes, _
      rw [hwritten.screen]
      exact fun a ha => ((Console.uniform_fresh _ _).feed _).mem_attributes ha

/-! ## Exceptions -/

/-- What a report about an exception is to show, if the interrupted code had the registers `f`.
1. It is a hardware fault, and its message names the exception. No place in the source is to
   blame.
2. The registers are those of the interrupted code.
3. The faulting address is shown for a page fault only.
4. The call trace begins with the interrupted instruction. It has sixteen addresses at most.
5. All of that is written down in this order. -/
structure About (r : Panic.Report) (e : Unhandled) (f : Frame) (cr : Panic.Control)
    (returns : List UInt64) : Prop where
  kind : r.kind = .hardware
  message : r.message = "Exception: " ++ e.name ++ " (vector " ++ Text.decimal e.vector.toNat
    ++ ", error " ++ Text.hex e.errorCode.toNat ++ ", RIP " ++ Text.address e.rip.toNat ++ ")"
  origin : r.origin = none
  registers : r.registers = f
  control : r.control = cr
  faultAddress : r.faultAddress = if e.vector = 14 then some cr.cr2 else none
  trace : r.trace = (f.rip :: returns).take 16
  text : r.text = Panic.Report.unlines (["*** UNHANDLED CPU EXCEPTION ***", "", r.message]
    ++ (if e.vector = 14 then ["Faulting address (CR2): " ++ Text.address cr.cr2.toNat] else [])
    ++ ["", "Registers:"] ++ Panic.Report.registerLines f ++ Panic.Report.controlLines cr
    ++ ["", "Call trace:"] ++ ((f.rip :: returns).take 16).mapIdx Panic.Report.traceLine
    ++ ["", "System halted."])

theorem about_exceptionReport (e : Unhandled) (f : Frame) (cr : Panic.Control)
    (returns : List UInt64) : About (exceptionReport e f cr returns) e f cr returns where
  kind := rfl
  message := rfl
  origin := rfl
  registers := rfl
  control := rfl
  faultAddress := rfl
  trace := rfl
  text := by
    have haddress : ((if e.vector = 14 then some cr.cr2 else none).map fun a =>
          "Faulting address (CR2): " ++ Text.address a.toNat).toList =
        if e.vector = 14 then ["Faulting address (CR2): " ++ Text.address cr.cr2.toNat]
        else [] := by
      split <;> rfl
    rw [Panic.Report.text_eq_unlines, ← haddress]
    rfl

theorem run_walkFrames_readable (pageFault : Nat → MachineM (List UInt64)) {rbp : UInt64}
    (h : (Trace.walk readable b.rest.memory rbp).unreadable = none) :
    (walkFrames pageFault rbp).run b =
      .ok (Trace.walk readable b.rest.memory rbp).returns b := by
  have hlook : (look (·.memory)).run b = .ok b.rest.memory b := rfl
  rw [walkFrames, run_bind_ok hlook]
  simp only [h]
  rfl

theorem run_walkFrames_unreadable (pageFault : Nat → MachineM (List UInt64)) {rbp : UInt64}
    {address : Nat} (h : (Trace.walk readable b.rest.memory rbp).unreadable = some address) :
    (walkFrames pageFault rbp).run b = (pageFault address).run b := by
  have hlook : (look (·.memory)).run b = .ok b.rest.memory b := rfl
  rw [walkFrames, run_bind_ok hlook]
  simp only [h]

/-- The report is emitted when the call trace has been walked. -/
theorem run_reportUnhandled (pageFault : Nat → MachineM (List UInt64)) (e : Unhandled) (f : Frame)
    (hfirst : b.rest.panicking = false) :
    (reportUnhandled pageFault e f : MachineM α).run b =
      (walkFrames pageFault f.rbp >>= fun returns =>
        emit (exceptionReport e f b.rest.control returns) (return)).run b.claimed := by
  have hlook : (look (·.control)).run b.claimed = .ok b.rest.control b.claimed := rfl
  rw [reportUnhandled, run_bind_ok (run_enterPanic hfirst), run_bind_ok hlook]

/-- With the frame pointers readable, an exception nobody could handle is reported. -/
theorem exists_run_reportUnhandled (pageFault : Nat → MachineM (List UInt64)) (e : Unhandled)
    (f : Frame) (hfirst : b.rest.panicking = false)
    (hreadable : (Trace.walk readable b.rest.memory f.rbp).unreadable = none) :
    ∃ b', (reportUnhandled pageFault e f : MachineM α).run b = .error .halted b' ∧
      Reported (exceptionReport e f b.rest.control
        (Trace.walk readable b.rest.memory f.rbp).returns) b b' := by
  obtain ⟨b', hrun, hreported⟩ := exists_run_emit (α := α) (exceptionReport e f b.rest.control
    (Trace.walk readable b.rest.memory f.rbp).returns) b
  refine ⟨b', ?_, hreported⟩
  have hwalk := run_walkFrames_readable (b := b.claimed) pageFault hreadable
  rw [run_reportUnhandled pageFault e f hfirst, run_bind_ok hwalk]
  exact hrun

/-- A failure that code notices is reported, with the registers and the call trace that were
found there. -/
theorem exists_run_panic (kind : Panic.Kind) (message : String)
    (hfirst : b.rest.panicking = false) :
    ∃ b', (panic kind message : MachineM α).run b = .error .halted b' ∧
      Reported { kind, message, origin := some b.rest.site.origin,
                 registers := b.rest.site.registers, control := b.rest.control,
                 trace := b.rest.site.trace } b b' := by
  obtain ⟨b', hrun, hreported⟩ := exists_run_emit (α := α)
    { kind, message, origin := some b.rest.site.origin, registers := b.rest.site.registers,
      control := b.rest.control, trace := b.rest.site.trace } b
  refine ⟨b', ?_, hreported⟩
  have hlook : (look id : MachineM Kernel).run b.claimed = .ok b.claimed.rest b.claimed := rfl
  rw [panic, panicDuring, run_bind_ok (run_enterPanic hfirst), run_bind_ok hlook]
  exact hrun

section Again

variable (hagain : b.rest.panicking = true)

include hagain

theorem run_enterPanic_again : enterPanic.run b = .error .halted b.silenced.silenced := by
  show (if b.silenced.rest.panicking = true then _ else _ : MachineM Unit).run b.silenced = _
  rw [if_pos (show b.silenced.rest.panicking = true from hagain)]
  rfl

/-- Whoever comes second writes nothing and halts. -/
theorem run_panicDuring_again (kind : Panic.Kind) (message : String) (during : MachineM Unit) :
    (panicDuring kind message during : MachineM α).run b = .error .halted b.silenced.silenced := by
  rw [panicDuring, run_bind_error (run_enterPanic_again hagain)]

theorem run_reportUnhandled_again (pageFault : Nat → MachineM (List UInt64)) (e : Unhandled)
    (f : Frame) :
    (reportUnhandled pageFault e f : MachineM α).run b = .error .halted b.silenced.silenced := by
  rw [reportUnhandled, run_bind_error (run_enterPanic_again hagain)]

end Again

/-- The driver of the serial port sends a report about an exception as it is handed. -/
theorem flatMap_exceptionReport {transmit : UInt8 → List UInt8} (hexpands : Serial.Expands transmit)
    (g f : Frame) (control : Panic.Control) (returns : List UInt64) :
    let r := exceptionReport (.ofFrame g) f control returns
    (Serial.handed r.text).flatMap transmit = Serial.handed r.text := by
  intro r
  refine Serial.flatMap_handed hexpands (Panic.Report.plain_text ?_ ?_)
  · exact Serial.plain_of_inked (Unhandled.inked_message (Unhandled.inked_exceptionName g.number))
  · rintro o ⟨⟩

/-- A machine that was interrupted at the end of the last row, in yellow on red, while it held
both outputs and the heap, one call deep. -/
def interruptedPrinting : Machine where
  interrupts := true
  held := [.serial, .console, .heap]
  rest :=
    { image := ⟨0x200000, 0x101000, 0x300000, 0x301000, 0x302000⟩
      memory := (({} : Memory).setWord 0x2008 0x101234).setWord consoleBase 0x4E214E214E214E21
      serialReady := true
      pen := { row := 24, col := 80, fg := .yellow, bg := .red } }

theorem walk_interruptedPrinting :
    Trace.walk readable interruptedPrinting.rest.memory 0x2000 = { returns := [0x101234] } := by
  have hscreen : Memory.ChangedIn (({} : Memory).setWord 0x2008 0x101234)
      interruptedPrinting.rest.memory consoleBase 8 := Memory.changedIn_setWord _ _ _
  have hback : interruptedPrinting.rest.memory.word (0x2000 + 8) = 0x101234 := by
    rw [hscreen.word_eq (by decide)]
    exact Memory.word_setWord_self _ _ (by decide)
  have hcaller : interruptedPrinting.rest.memory.word 0x2000 = 0 := by
    rw [hscreen.word_eq (by decide), (Memory.changedIn_setWord _ _ _).word_eq (by decide)]
    exact Memory.load_eq_zero fun x _ _ => Memory.read_zeroed x
  have hrbp : (0x2000 : UInt64).toNat = 0x2000 := rfl
  have hlower : ¬ (0x2000 : UInt64) < UInt64.ofNat 0 := by decide
  rw [Trace.walk, Trace.follow, if_pos (by decide), hrbp, if_pos (by decide), hback, hcaller]
  dsimp only
  rw [if_neg (by decide), if_pos (by decide), if_neg hlower]
  rfl

end Machine

end Supervisor

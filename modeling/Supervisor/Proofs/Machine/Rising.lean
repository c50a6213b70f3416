import Supervisor.Proofs.Interrupt.Attachment
import Supervisor.Proofs.Machine.Muted
import Supervisor.Proofs.Machine.Placement

/-!
# The parts of the start

While the kernel comes up, it runs part after part with interrupts off and no lock held. Each part
returns, and leaves what it is there for.

- `Pit.Paced`: a counter that runs at a rate, read off what was written to its ports.
- `Machine.Rising`: the state between the parts; the processor's tables are as far as they have
  got.
- `Rising.exists_outputs`, `Rising.exists_installSegments`, `Rising.exists_installInterrupts`,
  `exists_picInit` and `exists_timerInit` are the parts, besides the store, which has
  `exists_storeInit`. `Rising.exists_bringUp_store` is everything in front of the store.
-/

namespace Supervisor

/-! ## Timers -/

namespace Pit

/-- Whether a port is one of the timer's. -/
def Owns (port : UInt16) : Prop :=
  0x40 ≤ port ∧ port ≤ 0x43

/-- Counter 0 was told to repeat a count, of which it takes the low byte before the high one, and
was given the largest count that is not too long for a rate. No port of the timer was accessed
since. -/
def Paced (hz : UInt32) (log : List PortEvent) : Prop :=
  ∃ count : UInt16, count.toNat * hz.toNat ≤ 1193182 ∧ 1193182 < (count.toNat + 1) * hz.toNat ∧
    ∃ before after, log = before ++ [.write 0x43 0x36, .write 0x40 count.toUInt8.toUInt32,
        .write 0x40 (count >>> 8).toUInt8.toUInt32] ++ after ∧
      ∀ e ∈ after, ¬ Owns e.port

/-- The divisor is the largest that is not too long for a rate. -/
theorem divisor_bounds {hz : UInt32} (hlow : minRate ≤ hz) (hhigh : hz ≤ baseRate) :
    (divisor hz).toNat * hz.toNat ≤ 1193182 ∧ 1193182 < ((divisor hz).toNat + 1) * hz.toNat := by
  have hmin : 19 ≤ hz.toNat := UInt32.le_iff_toNat_le.mp hlow
  have hfits : 1193182 / hz.toNat < 2 ^ 16 :=
    Nat.lt_of_le_of_lt (Nat.div_le_div_left hmin (by decide)) (by decide)
  have hdivisor : (divisor hz).toNat = 1193182 / hz.toNat := by
    rw [divisor, if_neg (UInt32.not_lt.mpr hlow), if_neg (UInt32.not_lt.mpr hhigh),
      UInt32.toNat_toUInt16, UInt32.toNat_div]
    exact Nat.mod_eq_of_lt hfits
  rw [hdivisor]
  refine ⟨Nat.div_mul_le_self _ _, ?_⟩
  rw [Nat.mul_comm]
  exact Nat.lt_mul_div_succ _ (by omega)

theorem clampRate_bounds (hz : UInt32) : minRate ≤ clampRate hz ∧ clampRate hz ≤ maxRate := by
  unfold clampRate
  split
  · exact ⟨UInt32.le_refl _, by decide⟩
  · next hlow =>
    split
    · exact ⟨by decide, UInt32.le_refl _⟩
    · next hhigh => exact ⟨UInt32.not_lt.mp hlow, UInt32.not_lt.mp hhigh⟩

/-- What is logged of the tick's counter being started. -/
theorem paced_program {hz : UInt32} (hlow : minRate ≤ hz) (hhigh : hz ≤ baseRate) (p : Ports)
    {after : List PortEvent} (hafter : ∀ e ∈ after, ¬ Owns e.port) :
    Paced hz (((program .zero .squareWave hz).run p).2.log.toList ++ after) := by
  obtain ⟨hlong, hshort⟩ := divisor_bounds hlow hhigh
  refine ⟨divisor hz, hlong, hshort, p.log.toList, after, ?_, hafter⟩
  rw [program, Ports.run_bind, Ports.run_write8, Ports.run_bind, Ports.run_write8, Ports.run_write8]
  simp only [Ports.log_record, List.append_assoc]
  rfl

end Pit

namespace Machine

variable {α : Type} {b b' : Machine} {image : Image} {tables : Tables} {p : Plan}

/-- The first part of the start: the outputs, and what is told about the loader. -/
def outputs (boot : LoaderInfo) : MachineM Unit := do
  serialInit
  consoleInit
  bootMessage
  logInit (Config.ofBoot boot).log
  announce boot

theorem bringUp_eq (header : Option LoaderBlock) (recovery : UInt8) (kernel : Span) :
    let boot := LoaderInfo.ofBlock header (LoaderInfo.asksRecovery recovery)
    let config := Config.ofBoot boot
    bringUp header recovery kernel = (do
      outputs boot
      installSegments
      installInterrupts
      debug startOrigin
        ("kernel image " ++ Text.hex kernel.start ++ ".." ++ Text.hex kernel.stop)
        "kernel/src/kernel.rs" 76
      storeInit config.memoryTop config.heapSize config.heapFallbackSize kernel
      picInit config.picMaster config.picSlave
      timerInit config.timerRate) := by
  simp only [outputs, bind_assoc]
  rfl

/-! ## Between the parts -/

/-- The kernel is coming up: interrupts are off, no lock is held, no report was begun, and the
processor's tables are those that are given. -/
structure Rising (image : Image) (tables : Tables) (b : Machine) : Prop where
  interrupts : b.interrupts = false
  held : b.held = []
  quiet : b.rest.panicking = false
  image : b.rest.image = image
  tables : b.rest.tables = tables

/-- The tables that the kernel builds and loads. -/
def kernelTables (image : Image) : Tables where
  installed := true
  gdt := some (.ofTask image.taskSegment)
  gdtr := some ⟨image.segmentTable, 55⟩
  taskRegister := some Segment.taskSelector
  ringStack := image.stackTop
  idt := some (.ofStubs image.stubBase)
  idtr := some ⟨image.gateTable, 4095⟩

namespace Rising

theorem free (h : Rising image tables b) (l : Lock) : l ∉ b.held := by
  rw [h.held]
  exact List.not_mem_nil

theorem ready (h : Rising image tables b) : Ready b :=
  ⟨h.free _, h.free _, h.free _, h.free _, h.quiet⟩

/-- The processor goes by the table of the stubs. -/
theorem gates (h : Rising image (kernelTables image) b) :
    b.rest.gates = some (.ofStubs image.stubBase) := by
  rw [Kernel.gates, h.tables, h.image]
  exact if_pos rfl

theorem printed (h : Rising image tables b) (hprinted : Printed b b') : Rising image tables b' where
  interrupts := hprinted.interrupts.trans h.interrupts
  held := hprinted.held.trans h.held
  quiet := by
    rw [hprinted.rest]
    exact h.quiet
  image := by
    rw [hprinted.rest]
    exact h.image
  tables := by
    rw [hprinted.rest]
    exact h.tables

theorem exists_log (h : Rising image tables b) (e : Log.Entry) :
    ∃ b', (log e).run b = .ok () b' ∧ Rising image tables b' ∧ Printed b b' := by
  obtain ⟨b', hrun, hprinted⟩ := exists_run_log e (h.free _) (h.free _)
  exact ⟨b', hrun, h.printed hprinted, hprinted⟩

theorem exists_withConsole (h : Rising image tables b) (f : Console → PortM Console) :
    ∃ b', (withConsole f).run b = .ok () b' ∧ Rising image tables b' :=
  ⟨_, run_withConsole f (h.free _), h.printed (printed_putConsole _ _ b)⟩

/-- A change that is neither about the tables nor about the fatal path. -/
theorem exists_change (h : Rising image tables b) {f : Kernel → Kernel}
    (hquiet : ∀ k, (f k).panicking = k.panicking) (himage : ∀ k, (f k).image = k.image)
    (htables : ∀ k, (f k).tables = k.tables) :
    ∃ b', (change f).run b = .ok () b' ∧ Rising image tables b' :=
  ⟨_, rfl, h.interrupts, h.held, (hquiet _).trans h.quiet, (himage _).trans h.image,
    (htables _).trans h.tables⟩

/-! ## Outputs and tables -/

theorem exists_announce (h : Rising image tables b) (info : LoaderInfo) :
    ∃ b', (announce info).run b = .ok () b' ∧ Rising image tables b' := by
  have hwarn (holds : Bool) (message : String) {c : Machine} (hc : Rising image tables c) :
      ∃ c', (if holds = true then warn startOrigin message else pure () : MachineM Unit).run c =
        .ok () c' ∧ Rising image tables c' := by
    cases holds with
    | false => exact ⟨c, rfl, hc⟩
    | true =>
      obtain ⟨c', hrun, hc', -⟩ := hc.exists_log _
      exact ⟨c', hrun, hc'⟩
  obtain ⟨b₁, hbanner, h₁, -⟩ :=
    h.exists_log { level := .info, origin := startOrigin, message := identity.banner }
  obtain ⟨b₂, hrecovery, h₂⟩ := hwarn info.recovery "recovery mode enabled" h₁
  let assumed := "boot info has no memory size, assuming "
    ++ Text.decimal (Config.assumedMemory / mebibyte) ++ " MiB"
  obtain ⟨b₃, hmemory, h₃⟩ := hwarn info.memory.isNone assumed h₂
  refine ⟨b₃, ?_, h₃⟩
  -- an `if` without an `else` has what follows in both of its branches
  have hsplit : announce info = (Machine.info startOrigin identity.banner >>= fun _ =>
      (if info.recovery = true then warn startOrigin "recovery mode enabled" else pure ()) >>=
        fun _ => if info.memory.isNone = true then warn startOrigin assumed else pure ()) := by
    rw [announce]
    cases info.recovery <;> rfl
  rw [hsplit, Machine.info, run_bind_ok hbanner, run_bind_ok hrecovery, hmemory]

theorem exists_outputs (h : Rising image tables b) (boot : LoaderInfo) :
    ∃ b', (outputs boot).run b = .ok () b' ∧ Rising image tables b' := by
  obtain ⟨b₁, hserial, h₁⟩ := h.exists_change
    (f := fun k => { k with serialReady := true, uart := {} })
    (fun _ => rfl) (fun _ => rfl) fun _ => rfl
  obtain ⟨b₂, hclear, h₂⟩ := h₁.exists_withConsole (·.clear)
  obtain ⟨b₃, hbanner, h₃⟩ := h₂.exists_withConsole fun c => do
    let c ← (c.recolor .lightCyan .black).writeText identity.banner
    let c ← c.writeText "\n"
    let c ← (c.recolor .darkGray .black).writeText bannerRule
    return c.recolor .white .black
  obtain ⟨b₄, hlog, h₄⟩ := h₃.exists_change
    (f := fun k => { k with log := (Config.ofBoot boot).log })
    (fun _ => rfl) (fun _ => rfl) fun _ => rfl
  obtain ⟨b₅, hannounce, h₅⟩ := h₄.exists_announce boot
  refine ⟨b₅, ?_, h₅⟩
  rw [outputs, serialInit, run_bind_ok hserial, consoleInit, run_bind_ok hclear, bootMessage,
    run_bind_ok hbanner, logInit, run_bind_ok hlog, hannounce]

theorem exists_run_loadSegments (g : Gdt) (b : Machine) :
    ∃ cpu, (loadSegments g).run b = .ok () { b with
      cpu := cpu
      rest := { b.rest with
        tables.gdtr := some ⟨b.rest.image.segmentTable, g.limit⟩
        tables.taskRegister := some Segment.taskSelector } } :=
  ⟨_, rfl⟩

/-- With a stack that is accepted, the tables of the segments are loaded. -/
theorem exists_installSegments (h : Rising image {} b)
    (hstack : Stack.validate image.stackTop = .ok image.stackTop) :
    ∃ b', installSegments.run b = .ok () b' ∧
      Rising image { kernelTables image with idt := none, idtr := none } b' := by
  have hlook : (look (·.image.stackTop)).run b = .ok image.stackTop b := by
    rw [← h.image]
    rfl
  have hkernel : (look id : MachineM Kernel).run b = .ok b.rest b := rfl
  have hinstalled : b.rest.tables.installed = false := by
    rw [h.tables]
  let built : Machine := { b with rest := { b.rest with
    tables.installed := true, tables.ringStack := image.stackTop
    tables.gdt := some (.ofTask image.taskSegment) } }
  have hchange : (change fun k => { k with
      tables.installed := true, tables.ringStack := image.stackTop
      tables.gdt := some (.ofTask image.taskSegment) }).run b = .ok () built := rfl
  obtain ⟨cpu, hload⟩ := exists_run_loadSegments (.ofTask image.taskSegment) built
  have hloaded : Rising image { kernelTables image with idt := none, idtr := none } { built with
      cpu := cpu
      rest := { built.rest with
        tables.gdtr := some ⟨built.rest.image.segmentTable, (Gdt.ofTask image.taskSegment).limit⟩
        tables.taskRegister := some Segment.taskSelector } } := by
    refine ⟨h.interrupts, h.held, h.quiet, h.image, ?_⟩
    show Tables.mk _ _ (some ⟨b.rest.image.segmentTable, _⟩) _ _ b.rest.tables.idt
      b.rest.tables.idtr = _
    rw [h.tables, h.image]
    rfl
  obtain ⟨b', hlog, hb', -⟩ := hloaded.exists_log
    { level := .info, origin := "gdt",
      message := "GDT loaded, TSS rsp0=" ++ Text.address image.stackTop.toNat }
  refine ⟨b', ?_, hb'⟩
  have hinstall : (installSegmentsWith image.stackTop).run b = .ok (.ok ()) b' := by
    rw [installSegmentsWith, hstack]
    dsimp only
    rw [run_bind_ok hkernel, hinstalled, h.image]
    simp only [Bool.false_eq_true, if_false]
    rw [run_bind_ok hchange, run_bind_ok hload, Machine.info, run_bind_ok hlog]
    rfl
  rw [installSegments, run_bind_ok hlook, run_bind_ok hinstall]
  rfl

/-- Otherwise the kernel stops. -/
theorem exists_installSegments_refused (h : Rising image {} b) {e : SegmentError}
    (hstack : Stack.validate image.stackTop = .error e) :
    ∃ b', installSegments.run b = .error .halted b' ∧
      Reported (failure b ("GDT install failed: " ++ e.message)) b b' := by
  have hlook : (look (·.image.stackTop)).run b = .ok image.stackTop b := by
    rw [← h.image]
    rfl
  have hrefused : (installSegmentsWith image.stackTop).run b = .ok (.error e) b := by
    rw [installSegmentsWith, hstack]
    rfl
  rw [installSegments, run_bind_ok hlook, run_bind_ok hrefused]
  exact exists_run_panic .normal _ h.quiet

theorem exists_installInterrupts
    (h : Rising image { kernelTables image with idt := none, idtr := none } b) :
    ∃ b', installInterrupts.run b = .ok () b' ∧ Rising image (kernelTables image) b' := by
  let built : Machine := { b with rest := { b.rest with
    tables.idt := some (b.rest.tables.idt.getD (.ofStubs b.rest.image.stubBase)) } }
  let loaded : Machine := { built with rest := { built.rest with
    tables.idtr := some ⟨b.rest.image.gateTable, Idt.limit⟩ } }
  have hbuild : buildGates.run b = .ok () built := rfl
  have hload : loadGates.run built = .ok () loaded := rfl
  have hloaded : Rising image (kernelTables image) loaded := by
    refine ⟨h.interrupts, h.held, h.quiet, h.image, ?_⟩
    show { b.rest.tables with
      idt := some (b.rest.tables.idt.getD (.ofStubs b.rest.image.stubBase))
      idtr := some ⟨b.rest.image.gateTable, Idt.limit⟩ } = _
    rw [h.tables, h.image]
    rfl
  have hlook : (look (·.image.stubBase)).run loaded = .ok b.rest.image.stubBase loaded := rfl
  obtain ⟨b₁, hlog, h₁, -⟩ := hloaded.exists_log
    { level := .info, origin := "idt",
      message := "IDT loaded: 256 gates, stubs at "
        ++ Text.hex (Stub.address b.rest.image.stubBase 0).toNat }
  have hgates : installGates.run b = .ok () b₁ := by
    rw [installGates, run_bind_ok hbuild, run_bind_ok hload, run_bind_ok hlook]
    exact hlog
  have hgate : (gateOf tickVector).run b₁ =
      .ok (b₁.rest.tables.idt.map (·.gate tickVector)) b₁ := rfl
  rw [h₁.tables] at hgate
  rw [installInterrupts, run_bind_ok hgates, run_bind_ok hgate]
  obtain ⟨b', hrun, hb', -⟩ := h₁.exists_log _
  exact ⟨b', hrun, hb'⟩

/-- Everything up to the store. -/
theorem exists_bringUp_store (h : Rising image {} b) (header : Option LoaderBlock)
    (recovery : UInt8) (kernel : Span)
    (hstack : Stack.validate image.stackTop = .ok image.stackTop) :
    let config := Config.ofBoot (.ofBlock header (LoaderInfo.asksRecovery recovery))
    ∃ c, (bringUp header recovery kernel).run b = (do
        storeInit config.memoryTop config.heapSize config.heapFallbackSize kernel
        picInit config.picMaster config.picSlave
        timerInit config.timerRate : MachineM UInt32).run c ∧
      Rising image (kernelTables image) c := by
  intro config
  obtain ⟨b₁, houtputs, h₁⟩ := h.exists_outputs (.ofBlock header (LoaderInfo.asksRecovery recovery))
  obtain ⟨b₂, hsegments, h₂⟩ := h₁.exists_installSegments hstack
  obtain ⟨b₃, hinterrupts, h₃⟩ := h₂.exists_installInterrupts
  obtain ⟨b₄, hlog, h₄, -⟩ := h₃.exists_log
    { level := .debug, place := ⟨"kernel/src/kernel.rs", 76⟩, origin := startOrigin,
      message := "kernel image " ++ Text.hex kernel.start ++ ".." ++ Text.hex kernel.stop }
  refine ⟨b₄, ?_, h₄⟩
  rw [bringUp_eq, run_bind_ok houtputs, run_bind_ok hsegments, run_bind_ok hinterrupts, debug,
    run_bind_ok hlog]

end Rising

/-! ## Devices -/

section Devices

variable {base size : Nat}

theorem HeapAt.of_same (h : HeapAt base size b) (hheap : b'.rest.heap = b.rest.heap)
    (hmemory : b'.rest.memory = b.rest.memory) : HeapAt base size b' := by
  obtain ⟨hstart, hlimit, hsound⟩ := h
  rw [← hheap] at hstart hlimit
  rw [← hheap, ← hmemory] at hsound
  exact ⟨hstart, hlimit, hsound⟩

theorem exists_picInit (h : Rising image tables b) (hheap : HeapAt base size b)
    (hlow : FrameMap.lowMemory ≤ base) (master slave : UInt8) :
    ∃ b', (picInit master slave).run b = .ok () b' ∧ Rising image tables b' ∧
      HeapAt base size b' ∧ b'.pic = ⟨Pic.allMasked, master, slave⟩ := by
  have hchange := Board.run_changePic (b := b) (fun _ => Pic.init master slave) (h.free _)
  rw [Board.passed_of_off h.interrupts] at hchange
  let c : Machine := { b with
    pic := ((Pic.init master slave).run b.ports).1
    ports := ((Pic.init master slave).run b.ports).2 }
  have hc : Rising image tables c := ⟨h.interrupts, h.held, h.quiet, h.image, h.tables⟩
  have hheap' : HeapAt base size c := hheap.of_same rfl rfl
  obtain ⟨b', hlog, hb', hprinted⟩ := hc.exists_log
    { level := .info, origin := "interrupts",
      message := "PIC remapped to " ++ Text.hex master.toNat ++ "/" ++ Text.hex slave.toNat
        ++ ", all lines masked" }
  refine ⟨b', ?_, hb', hheap'.printed hprinted hlow, hprinted.pic.trans rfl⟩
  rw [picInit, run_bind_ok hchange]
  exact hlog

/-- The timer's line gets the tick and is the only one that is let through. -/
theorem exists_attachTimer (h : Rising image tables b) (hheap : HeapAt base size b)
    (hlow : FrameMap.lowMemory ≤ base) (hpic : b.pic = ⟨Pic.allMasked, 0x20, 0x28⟩) :
    ∃ b', (attachLine timerLine .tick).run b = .ok () b' ∧ Rising image tables b' ∧
      HeapAt base size b' ∧ b'.pic = ⟨0xFFFE, 0x20, 0x28⟩ ∧ b'.handlers tickVector = some .tick ∧
      b'.rest.clock = b.rest.clock := by
  have hvector : Pic.vectorOf b.pic.master b.pic.slave timerLine = some tickVector := by
    rw [hpic]
    decide
  have hlook := Board.run_withPic (b := b)
    (fun pic => (return Pic.vectorOf pic.master pic.slave timerLine : PortM _)) (h.free _)
  rw [Board.passed_of_off h.interrupts] at hlook
  let registered : Machine := { b with
    handlers := fun v => if v = tickVector then some .tick else b.handlers v }
  have hregister : (discard <| Board.register tickVector Handler.tick : MachineM Unit).run b =
      .ok () registered := run_discard_ok (Board.run_register _ _ b)
  have hunmask := Board.run_changePic (b := registered) (·.unmaskLine timerLine) (h.free _)
  rw [Board.passed_of_off (show registered.interrupts = false from h.interrupts)] at hunmask
  let c : Machine := { registered with
    pic := ((b.pic.unmaskLine timerLine).run b.ports).1
    ports := ((b.pic.unmaskLine timerLine).run b.ports).2 }
  have hc : Rising image tables c := ⟨h.interrupts, h.held, h.quiet, h.image, h.tables⟩
  have hcpic : c.pic = ⟨0xFFFE, 0x20, 0x28⟩ := by
    show ((b.pic.unmaskLine timerLine).run b.ports).1 = _
    rw [Pic.run_unmaskLine b.pic b.ports (by decide), hpic]
    decide
  have hcheap : HeapAt base size c := hheap.of_same rfl rfl
  obtain ⟨b', hlog, hb', hprinted⟩ := hc.exists_log
    { level := .debug, place := ⟨"kernel/src/interrupts/mod.rs", 75⟩, origin := "interrupts",
      message := "IRQ" ++ Text.decimal timerLine.toNat ++ " routed to vector "
        ++ Text.decimal tickVector.toNat }
  refine ⟨b', ?_, hb', hcheap.printed hprinted hlow, hprinted.pic.trans hcpic, ?_, ?_⟩
  · rw [attachLine, run_bind_ok hlook]
    have hanswer : ((return Pic.vectorOf b.pic.master b.pic.slave timerLine : PortM _).run
        b.ports).1 = some tickVector := hvector
    rw [hanswer]
    show (discard (Board.register tickVector Handler.tick) >>= fun _ => _ : MachineM Unit).run b = _
    rw [run_bind_ok hregister, run_bind_ok hunmask]
    exact hlog
  · rw [hprinted.handlers]
    show (if tickVector = tickVector then some Handler.tick else b.handlers tickVector) = _
    rw [if_pos rfl]
  · rw [hprinted.rest]

/-- What is left of setting up the timer when its counter is running. -/
def timerRest (hz : UInt32) : MachineM UInt32 := do
  change fun k => { k with clock := k.clock.configure hz.toNat }
  attachLine timerLine .tick
  info "timer"
    ("PIT channel 0 at " ++ Text.decimal hz.toNat ++ " Hz (divisor "
      ++ Text.decimal (Pit.divisor hz).toNat ++ ")")
  return hz

/-- The counter is not touched again. -/
theorem muted_timerRest (hz : UInt32) :
    Board.Muted (fun port => ¬ Pit.Owns port) (timerRest hz) := by
  have hnot (port : UInt16) (h : port < 0x40 ∨ 0x43 < port) : ¬ Pit.Owns port := by
    rintro ⟨hlow, hhigh⟩
    exact h.elim (fun h => UInt16.not_lt.mpr hlow h) fun h => UInt16.not_lt.mpr hhigh h
  have hcontrols : Console.Controls fun port => ¬ Pit.Owns port :=
    ⟨hnot _ (.inr (by decide)), hnot _ (.inr (by decide))⟩
  refine (muted_change _).bind fun _ => (muted_attachLine hcontrols ?_ ?_ _ _).bind fun _ =>
    (muted_log hcontrols _).bind fun _ => .pure _
  · exact hnot _ (.inl (by decide))
  · exact hnot _ (.inr (by decide))

theorem run_withPit (body : PortM α) (hoff : b.interrupts = false) (hfree : Lock.timer ∉ b.held) :
    (withPit body).run b =
      .ok (body.run b.ports).1 { b with ports := (body.run b.ports).2 } := by
  have hbody : (Board.onPorts body : MachineM α).run { b.hushed with held := .timer :: b.held } =
      .ok (body.run b.ports).1
        { b.hushed with held := .timer :: b.held, ports := (body.run b.ports).2 } := by
    rw [Board.run_onPorts]
    simp only [Board.hushed_ports]
  rw [withPit, Board.run_locked_rest hfree hbody, Board.passed_of_off hoff, Board.hushed_rest]

/-- The counter and the clock get the same rate. -/
theorem exists_timerInit (h : Rising image tables b) (hheap : HeapAt base size b)
    (hlow : FrameMap.lowMemory ≤ base) (hpic : b.pic = ⟨Pic.allMasked, 0x20, 0x28⟩)
    (requested : UInt32) :
    let hz := Pit.clampRate requested
    ∃ b', (timerInit requested).run b = .ok hz b' ∧ Rising image tables b' ∧
      HeapAt base size b' ∧ b'.pic = ⟨0xFFFE, 0x20, 0x28⟩ ∧ b'.handlers tickVector = some .tick ∧
      b'.rest.clock.frequency = hz.toNat ∧
      Pit.Paced hz b'.ports.log.toList := by
  intro hz
  have hprogram := run_withPit (Pit.program .zero .squareWave hz) h.interrupts (h.free .timer)
  let programmed : Machine := { b with
    ports := ((Pit.program .zero .squareWave hz).run b.ports).2 }
  let configured : Machine := { programmed with rest := { b.rest with
    clock := b.rest.clock.configure hz.toNat } }
  have hchange : (change fun k => { k with clock := k.clock.configure hz.toNat }).run programmed =
      .ok () configured := rfl
  have hconfigured : Rising image tables configured :=
    ⟨h.interrupts, h.held, h.quiet, h.image, h.tables⟩
  have hcheap : HeapAt base size configured := hheap.of_same rfl rfl
  obtain ⟨c, hattach, hc, hcheap, hcpic, hchandler, hcclock⟩ :=
    exists_attachTimer hconfigured hcheap hlow hpic
  obtain ⟨b', hlog, hb', hprinted⟩ := hc.exists_log
    { level := .info, origin := "timer",
      message := "PIT channel 0 at " ++ Text.decimal hz.toNat ++ " Hz (divisor "
        ++ Text.decimal (Pit.divisor hz).toNat ++ ")" }
  have hrest : (timerRest hz).run programmed = .ok hz b' := by
    rw [timerRest, run_bind_ok hchange, run_bind_ok hattach, info, run_bind_ok hlog]
    rfl
  -- what is logged behind the programming: of it, only the ports need to be known
  have hquiet := muted_timerRest hz programmed h.interrupts
  rw [hrest] at hquiet
  obtain ⟨after, hafter, hclass⟩ := hquiet.ports
  refine ⟨b', ?_, hb', hcheap.printed hprinted hlow, hprinted.pic.trans hcpic, ?_, ?_, ?_⟩
  · have hsplit : timerInit requested =
        (withPit (Pit.program .zero .squareWave hz) >>= fun _ => timerRest hz) := rfl
    rw [hsplit, run_bind_ok hprogram]
    exact hrest
  · rw [hprinted.handlers]
    exact hchandler
  · rw [hprinted.rest, hcclock]
    rfl
  · obtain ⟨hlow, hhigh⟩ := Pit.clampRate_bounds requested
    refine (congrArg (Pit.Paced hz) hafter).mpr ?_
    exact Pit.paced_program hlow (UInt32.le_trans hhigh (by decide)) b.ports hclass

end Devices

end Machine

end Supervisor

import Supervisor.Machine.Delivery
import Supervisor.Proofs.Interrupt.Exceptions
import Supervisor.Proofs.Machine.Fatal

/-!
# Exceptions and the call trace of their reports

The report about an exception lists the callers of the interrupted code, and to find them it
follows that code's frame pointer through memory before anything is written. A frame pointer
that the test for valid ones lets pass may still lead out of memory. The page fault that
comes of it goes through the same dispatcher, and finds the fatal path taken.

- `Machine.ReadFault`: what there is to know about the code that reads, and
  `Machine.ReadFault.raise`: the page fault of a read.
- `Trace.walk_of_unmapped`: every frame pointer into the unmapped part of memory that passes the
  test ends the walk with a page fault.
- `Machine.ReadFault.run_raise_unhandled`: that page fault stops the processor before anything was
  written, unless there is a handler for it (`Machine.ReadFault.run_raise_handled`).
- `Machine.dispatch_reported` says when the report comes out and what happens otherwise;
  `Machine.unmappedFramePointer_lost` is an exception that is never reported.
-/

namespace Supervisor

namespace Trace

variable {m : Memory} {rbp : UInt64}

/-- A frame pointer that passes the test and leads out of the mapped part of memory. -/
theorem walk_of_unmapped (hvalid : followable rbp = true)
    (hunmapped : Config.mappedTop ≤ rbp.toNat + 8) :
    walk Machine.readable m rbp = { unreadable := some (rbp.toNat + 8) } := by
  have hread : ¬ Machine.readable (rbp.toNat + 8) = true := by
    rw [Machine.readable, Bool.and_eq_true, not_and, decide_eq_true_iff, decide_eq_true_iff]
    exact fun _ => Nat.not_lt.mpr hunmapped
  rw [walk, follow, if_pos hvalid, if_neg hread]

end Trace

namespace Machine

variable {b : Machine} {f : Frame}

/-! ## A page fault while the report is prepared -/

/-- The code that walks the frames, as far as a page fault is about it. -/
structure ReadFault where
  /-- The registers with which it reads an address. -/
  registers : Nat → Frame
  /-- Goes on with what a handler has made of these registers. The answer is what the walk has
  listed in the end. -/
  resume : Frame → MachineM (List UInt64)
  /-- A further page fault, while the first one is reported. -/
  again : Nat → MachineM (List UInt64)

/-- The board once the processor has told which address could not be read. -/
def faulted (b : Machine) (address : Nat) : Machine :=
  { b with rest := { b.rest with control.cr2 := UInt64.ofNat address } }

namespace ReadFault

variable (cpu : ReadFault)

/-- The frame of the page fault. The page is not present, and the kernel was reading. -/
def frame (address : Nat) : Frame :=
  { cpu.registers address with vector := pageFaultVector.toUInt64, errorCode := 0 }

/-- The page fault of a read: it is dispatched like every exception, and what returns from that
is gone on with. -/
def raise (address : Nat) : MachineM (List UInt64) := do
  change fun k => { k with control.cr2 := UInt64.ofNat address }
  cpu.resume (← dispatch cpu.again (cpu.frame address))

theorem number_frame (address : Nat) : (cpu.frame address).number = pageFaultVector := rfl

theorem run_raise (address : Nat) (b : Machine) : (cpu.raise address).run b =
    (dispatch cpu.again (cpu.frame address) >>= cpu.resume).run (b.faulted address) := rfl

/-- Without a handler, the page fault comes to the fatal path and halts at once. -/
theorem run_raise_unhandled (address : Nat) (hagain : b.rest.panicking = true)
    (hnone : b.handlers pageFaultVector = none) :
    (cpu.raise address).run b = .error .halted (b.faulted address).silenced.silenced := by
  have hfatal : (b.faulted address).Fatal (cpu.frame address) := by
    refine ⟨by rw [number_frame]; decide, ?_⟩
    show verdict pageFaultVector (b.handlers pageFaultVector) = .fatal
    rw [hnone]
    rfl
  rw [run_raise, dispatch, bind_assoc, run_bind_ok (Board.run_route_fatal behave hfatal)]
  exact run_bind_error (run_reportUnhandled_again (b := b.faulted address) hagain _ _ _) _

/-- With a handler, it is the handler that runs, on the registers of the read, and the walk goes on
with what it leaves of them. -/
theorem run_raise_handled (address : Nat) {h : Handler}
    (hsome : b.handlers pageFaultVector = some h) :
    (cpu.raise address).run b =
      (behave h (cpu.frame address) >>= cpu.resume).run (b.faulted address) := by
  have hverdict : verdict (cpu.frame address).number
      ((b.faulted address).handlers (cpu.frame address).number) = .handle h := by
    show verdict pageFaultVector (b.handlers pageFaultVector) = _
    rw [hsome]
    rfl
  have hroute := Board.run_route_handle behave (b := b.faulted address)
    (by rw [number_frame]; decide) hverdict
  rw [run_raise, dispatch, bind_assoc, run_bind_congr hroute, bind_map_left]
  rfl

end ReadFault

/-- A frame pointer that cannot be followed raises a page fault before the report is begun. -/
theorem run_reportUnhandled_unreadable {α : Type} (pageFault : Nat → MachineM (List UInt64))
    (e : Unhandled) {address : Nat} (hfirst : b.rest.panicking = false)
    (hunreadable : (Trace.walk readable b.rest.memory f.rbp).unreadable = some address) :
    (reportUnhandled pageFault e f : MachineM α).run b =
      (pageFault address >>= fun returns =>
        emit (exceptionReport e f b.rest.control returns) (return) : MachineM α).run b.claimed := by
  have hwalk := run_walkFrames_unreadable (b := b.claimed) pageFault hunreadable
  rw [run_reportUnhandled pageFault e f hfirst, run_bind_congr hwalk]

/-! ## Fatal exceptions -/

/-- The processor has halted, and neither output has got anything. -/
structure Unwritten (b b' : Machine) : Prop where
  interrupts : b'.interrupts = false
  handed : b'.rest.outside.handed = b.rest.outside.handed
  serial : b'.rest.outside.serial = b.rest.outside.serial
  screen : consoleOf b'.rest = consoleOf b.rest
  memory : b'.rest.memory = b.rest.memory
  ports : b'.ports = b.ports

theorem run_dispatch_fatal (pageFault : Nat → MachineM (List UInt64)) (hfatal : b.Fatal f) :
    (dispatch pageFault f).run b = (reportUnhandled pageFault (.ofFrame f) f).run b := by
  rw [dispatch, run_bind_ok (Board.run_route_fatal behave hfatal)]

section Lost

variable (cpu : ReadFault) {address : Nat} (hfatal : b.Fatal f) (hfirst : b.rest.panicking = false)
  (hunreadable : (Trace.walk readable b.rest.memory f.rbp).unreadable = some address)

include hfatal hfirst hunreadable

theorem exists_run_dispatch_unwritten (hnone : b.handlers pageFaultVector = none) :
    ∃ b', (dispatch cpu.raise f).run b = .error .halted b' ∧ Unwritten b b' := by
  have hfault := cpu.run_raise_unhandled (b := b.claimed) address rfl hnone
  refine ⟨(b.claimed.faulted address).silenced.silenced, ?_, ⟨rfl, rfl, rfl, rfl, rfl, rfl⟩⟩
  rw [run_dispatch_fatal _ hfatal, run_reportUnhandled_unreadable _ _ hfirst hunreadable,
    run_bind_error hfault]

theorem run_dispatch_handled {h : Handler} (hsome : b.handlers pageFaultVector = some h) :
    (dispatch cpu.raise f).run b = (do
      let returns ← cpu.resume (← behave h (cpu.frame address))
      emit (exceptionReport (.ofFrame f) f b.rest.control returns) (return)).run
        (b.claimed.faulted address) := by
  have hhandled := cpu.run_raise_handled (b := b.claimed) address hsome
  rw [run_dispatch_fatal _ hfatal, run_reportUnhandled_unreadable _ _ hfirst hunreadable,
    run_bind_congr hhandled, bind_assoc]

end Lost

/-- What becomes of the first fatal exception depends on the frame pointers that the call trace
follows.
1. If all of them can be read, the exception is reported in full.
2. Otherwise a page fault comes first. It halts the processor, and nothing was written.
3. If there is a handler for page faults, it runs on the registers with which the walk has read.
   The report is written when the walk has come to its end from what the handler leaves of them,
   with the addresses that it lists then, and not otherwise. -/
theorem dispatch_reported (cpu : ReadFault) (f : Frame) (b : Machine) (hfatal : b.Fatal f)
    (hfirst : b.rest.panicking = false) :
    let chain := Trace.walk readable b.rest.memory f.rbp
    (chain.unreadable = none → ∃ r b', About r (.ofFrame f) f b.rest.control chain.returns ∧
      (dispatch cpu.raise f).run b = .error .halted b' ∧ Reported r b b' ∧
      ∀ transmit, Serial.Expands transmit →
        (Serial.crlf (Text.bytes r.text)).flatMap transmit = Serial.crlf (Text.bytes r.text)) ∧
    ∀ address, chain.unreadable = some address →
      (b.handlers pageFaultVector = none →
        ∃ b', (dispatch cpu.raise f).run b = .error .halted b' ∧ Unwritten b b') ∧
      ∀ h, b.handlers pageFaultVector = some h →
        ∃ report : List UInt64 → Panic.Report,
          (∀ returns, About (report returns) (.ofFrame f) f b.rest.control returns) ∧
          (dispatch cpu.raise f).run b = (do
            let returns ← cpu.resume (← behave h (cpu.frame address))
            emit (report returns) (return)).run (b.claimed.faulted address) := by
  intro chain
  refine ⟨fun hreadable => ?_, fun address hunreadable => ⟨?_, fun h hsome =>
    ⟨exceptionReport (.ofFrame f) f b.rest.control, ?_, ?_⟩⟩⟩
  · obtain ⟨b', hrun, hreported⟩ :=
      exists_run_reportUnhandled cpu.raise (.ofFrame f) f hfirst hreadable
    rw [← run_dispatch_fatal _ hfatal] at hrun
    exact ⟨_, b', about_exceptionReport _ f _ _, hrun, hreported, fun _ hexpands =>
      flatMap_exceptionReport hexpands f f _ _⟩
  · exact exists_run_dispatch_unwritten cpu hfatal hfirst hunreadable
  · exact about_exceptionReport (.ofFrame f) f b.rest.control
  · exact run_dispatch_handled cpu hfatal hfirst hunreadable hsome

/-- A general protection fault of code that had `rbp` for its frame pointer. -/
abbrev protectionFault (rbp : UInt64) : Frame :=
  { vector := 13, rbp, rip := 0x101300 }

/-- A read that is repeated whenever a handler returns to it, and faults again for ever. -/
def repeatedRead : ReadFault where
  registers := fun address =>
    { rdi := UInt64.ofNat address, rip := 0x102000, cs := 0x08, ss := 0x10 }
  resume := fun _ => throw .stuck
  again := fun _ => throw .stuck

/-- Both cases on one machine: a frame pointer into the stack, and one behind the end of memory. -/
theorem interruptedPrinting_dispatched :
    interruptedPrinting.Fatal (protectionFault 0x2000) ∧
    interruptedPrinting.Fatal (protectionFault 0x3FFFFFF8) ∧
    interruptedPrinting.rest.panicking = false ∧
    (∃ r b', About r (.ofFrame (protectionFault 0x2000)) (protectionFault 0x2000) {} [0x101234] ∧
      (dispatch repeatedRead.raise (protectionFault 0x2000)).run interruptedPrinting =
        .error .halted b' ∧
      Reported r interruptedPrinting b') ∧
    ∃ b', (dispatch repeatedRead.raise (protectionFault 0x3FFFFFF8)).run interruptedPrinting =
        .error .halted b' ∧
      Unwritten interruptedPrinting b' := by
  have hstack : interruptedPrinting.Fatal (protectionFault 0x2000) := ⟨by decide, by decide⟩
  have houtside : interruptedPrinting.Fatal (protectionFault 0x3FFFFFF8) := ⟨by decide, by decide⟩
  have hwalk : Trace.walk readable interruptedPrinting.rest.memory (protectionFault 0x2000).rbp =
      { returns := [0x101234] } := walk_interruptedPrinting
  have hunmapped : (Trace.walk readable interruptedPrinting.rest.memory
      (protectionFault 0x3FFFFFF8).rbp).unreadable = some 0x40000000 :=
    congrArg _ (Trace.walk_of_unmapped (by decide) (by decide))
  obtain ⟨hreported, -⟩ := dispatch_reported repeatedRead _ interruptedPrinting hstack rfl
  obtain ⟨r, b', habout, hrun, hreported, -⟩ := hreported (by rw [hwalk])
  rw [hwalk] at habout
  obtain ⟨-, hlost⟩ := dispatch_reported repeatedRead _ interruptedPrinting houtside rfl
  exact ⟨hstack, houtside, rfl, ⟨r, b', habout, hrun, hreported⟩, (hlost _ hunmapped).1 rfl⟩

/-- Code that keeps the number 2^30 in the register that holds frame pointers: its general
protection fault is never reported, though the serial port is ready. -/
theorem unmappedFramePointer_lost :
    let f := protectionFault 0x40000000
    let b : Machine := { rest := { image := default, serialReady := true } }
    let chain := Trace.walk readable b.rest.memory f.rbp
    b.Fatal f ∧ b.rest.panicking = false ∧
    (∃ b', (dispatch repeatedRead.raise f).run b = .error .halted b' ∧
      b'.rest.outside.handed = #[] ∧ b'.rest.outside.serial = #[] ∧
      consoleOf b'.rest = consoleOf b.rest) ∧
    ¬ ∃ r b', About r (.ofFrame f) f b.rest.control chain.returns ∧
      (dispatch repeatedRead.raise f).run b = .error .halted b' ∧ Reported r b b' := by
  intro f b chain
  have hfatal : b.Fatal f := ⟨by decide, by decide⟩
  have hunreadable : (Trace.walk readable b.rest.memory f.rbp).unreadable = some 0x40000008 :=
    congrArg _ (Trace.walk_of_unmapped (by decide) (by decide))
  obtain ⟨b', hrun, hlost⟩ :=
    exists_run_dispatch_unwritten repeatedRead hfatal rfl hunreadable rfl
  refine ⟨hfatal, rfl, ⟨b', hrun, hlost.handed, hlost.serial, hlost.screen⟩, ?_⟩
  rintro ⟨r, c, -, hrun', hreported⟩
  rw [hrun] at hrun'
  cases hrun'
  -- a report would have moved the hardware cursor
  obtain ⟨before, hlog⟩ := hreported.cursor
  rw [hlost.ports] at hlog
  have hlength := congrArg List.length hlog
  rw [List.length_append] at hlength
  exact absurd hlength (by show ¬ 0 = _ + 4; omega)

end Machine

end Supervisor

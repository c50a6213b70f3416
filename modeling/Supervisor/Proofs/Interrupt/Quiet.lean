import Supervisor.Proofs.Interrupt.Lines
import Supervisor.Proofs.Interrupt.Section

/-!
# Code that leaves interrupts off

Sections save the interrupt flag and put it back, so code that is started with interrupts off
never switches them on unless it says so. This is not a matter of where the code gets to: it
holds when it returns and when it stops.

- `Ports.Within`: a program of port accesses stays within a class of ports.
- `Board.Quiet`: interrupts are off, nothing has switched them on, and only ports of a class were
  accessed.
- `Board.Muted`: a program is quiet on every board with interrupts off, whatever comes of it.
  It is closed under everything that programs are made of, sections included.
-/

namespace Supervisor

/-- The port of an access. -/
def PortEvent.port : PortEvent → UInt16
  | .read port _ => port
  | .write port _ => port

/-! ## Programs of port accesses -/

namespace Ports

variable {P Q : UInt16 → Prop} {α β : Type}

/-- Whatever it is answered, the program accesses ports of the class only. -/
def Within (P : UInt16 → Prop) (x : PortM α) : Prop :=
  ∀ p, ∃ events, (x.run p).2.log.toList = p.log.toList ++ events ∧ ∀ e ∈ events, P e.port

namespace Within

theorem pure (a : α) : Within P (pure a : PortM α) :=
  fun _ => ⟨[], (List.append_nil _).symm, List.forall_mem_nil _⟩

theorem bind {x : PortM α} {k : α → PortM β} (hx : Within P x) (hk : ∀ a, Within P (k a)) :
    Within P (x >>= k) := by
  intro p
  obtain ⟨before, hbefore, hclass⟩ := hx p
  obtain ⟨after, hafter, hclass'⟩ := hk (x.run p).1 (x.run p).2
  refine ⟨before ++ after, ?_, List.forall_mem_append.mpr ⟨hclass, hclass'⟩⟩
  rw [run_bind, hafter, hbefore, List.append_assoc]

theorem forM {xs : List α} {f : α → PortM PUnit} (h : ∀ x ∈ xs, Within P (f x)) :
    Within P (xs.forM f) := by
  induction xs with
  | nil => exact pure _
  | cons x xs ih =>
    rw [List.forM_eq_forM, List.forM_cons]
    refine (h x List.mem_cons_self).bind fun _ => ?_
    exact ih fun y hy => h y (List.mem_cons_of_mem x hy)

theorem write8 {port : UInt16} (h : P port) (value : UInt8) : Within P (write8 port value) := by
  intro p
  rw [run_write8]
  exact ⟨_, log_record p _, List.forall_mem_singleton.mpr h⟩

end Within

end Ports

namespace Board

variable {η ω α β : Type} {P : UInt16 → Prop} {b b' b'' : Board η ω}

/-! ## Quiet runs -/

/-- Going from `b` to `b'`, interrupts were not switched on and are off, and only ports of the
class were accessed. -/
structure Quiet (P : UInt16 → Prop) (b b' : Board η ω) : Prop where
  interrupts : b'.interrupts = false
  cpu : ∃ events, b'.cpu.toList = b.cpu.toList ++ events ∧ CpuEvent.enable ∉ events
  ports : ∃ events, b'.ports.log.toList = b.ports.log.toList ++ events ∧ ∀ e ∈ events, P e.port

namespace Quiet

/-- Nothing was told to the processor, and no port was accessed. -/
theorem of_same (hoff : b'.interrupts = false) (hcpu : b'.cpu = b.cpu)
    (hports : b'.ports = b.ports) : Quiet P b b' where
  interrupts := hoff
  cpu := ⟨[], by rw [hcpu, List.append_nil], List.not_mem_nil⟩
  ports := ⟨[], by rw [hports, List.append_nil], List.forall_mem_nil _⟩

theorem trans (h : Quiet P b b') (h' : Quiet P b' b'') : Quiet P b b'' where
  interrupts := h'.interrupts
  cpu := by
    obtain ⟨before, hbefore, hnone⟩ := h.cpu
    obtain ⟨after, hafter, hnone'⟩ := h'.cpu
    refine ⟨before ++ after, by rw [hafter, hbefore, List.append_assoc], ?_⟩
    exact fun hmem => (List.mem_append.mp hmem).elim hnone hnone'
  ports := by
    obtain ⟨before, hbefore, hclass⟩ := h.ports
    obtain ⟨after, hafter, hclass'⟩ := h'.ports
    exact ⟨before ++ after, by rw [hafter, hbefore, List.append_assoc],
      List.forall_mem_append.mpr ⟨hclass, hclass'⟩⟩

end Quiet

/-! ## Muted programs -/

/-- The board that a run has come to, whether it returned or stopped. -/
def reached : EStateM.Result Stop (Board η ω) α → Board η ω
  | .ok _ b => b
  | .error _ b => b

/-- Run with interrupts off, the program is quiet, whatever comes of it. -/
def Muted (P : UInt16 → Prop) (x : BoardM η ω α) : Prop :=
  ∀ b, b.interrupts = false → Quiet P b (reached (x.run b))

namespace Muted

theorem pure (a : α) : Muted P (pure a : BoardM η ω α) :=
  fun _ hoff => .of_same hoff rfl rfl

theorem throw (e : Stop) : Muted P (throw e : BoardM η ω α) :=
  fun _ hoff => .of_same hoff rfl rfl

theorem get : Muted P (get : BoardM η ω (Board η ω)) :=
  fun _ hoff => .of_same hoff rfl rfl

theorem lift (x : Except Fault α) : Muted P (liftM x : BoardM η ω α) := by
  cases x with
  | ok a => exact pure a
  | error e => exact throw (.fault e)

theorem bind {x : BoardM η ω α} {k : α → BoardM η ω β} (hx : Muted P x)
    (hk : ∀ a, Muted P (k a)) : Muted P (x >>= k) := by
  intro b hoff
  have hfirst := hx b hoff
  rw [EStateM.run_bind]
  cases h : x.run b with
  | ok a b' =>
    rw [h] at hfirst
    exact hfirst.trans (hk a b' hfirst.interrupts)
  | error e b' =>
    rw [h] at hfirst
    exact hfirst

theorem ite {c : Prop} [Decidable c] {x y : BoardM η ω α} (hx : Muted P x) (hy : Muted P y) :
    Muted P (if c then x else y) := by
  split
  · exact hx
  · exact hy

theorem map {x : BoardM η ω α} (hx : Muted P x) (f : α → β) : Muted P (f <$> x) := by
  rw [← bind_pure_comp]
  exact hx.bind fun _ => pure _

theorem forM {xs : List α} {f : α → BoardM η ω PUnit} (h : ∀ x ∈ xs, Muted P (f x)) :
    Muted P (xs.forM f) := by
  induction xs with
  | nil => exact pure _
  | cons x xs ih =>
    rw [List.forM_eq_forM, List.forM_cons]
    refine (h x List.mem_cons_self).bind fun _ => ?_
    exact ih fun y hy => h y (List.mem_cons_of_mem x hy)

theorem modify {f : Board η ω → Board η ω} (hinterrupts : ∀ b, (f b).interrupts = b.interrupts)
    (hcpu : ∀ b, (f b).cpu = b.cpu) (hports : ∀ b, (f b).ports = b.ports) :
    Muted P (modify f : BoardM η ω Unit) :=
  fun b hoff => .of_same ((hinterrupts b).trans hoff) (hcpu b) (hports b)

theorem note {e : CpuEvent} (h : e ≠ .enable) : Muted P (note e : BoardM η ω Unit) := by
  refine fun b hoff => ⟨hoff, ⟨[e], Array.toList_push, ?_⟩, ⟨[], (List.append_nil _).symm,
    List.forall_mem_nil _⟩⟩
  rw [List.mem_singleton]
  exact h.symm

theorem disable : Muted P (disable : BoardM η ω Unit) :=
  (note (by decide)).bind fun _ b _ => .of_same rfl rfl rfl

/-! ## Sections -/

/-- A section that finds interrupts off does not switch them on. -/
theorem uninterrupted {x : BoardM η ω α} (hx : Muted P x) : Muted P (uninterrupted x) := by
  intro b hoff
  have hsame : (Board.uninterrupted x).run b = (x >>= fun a => Pure.pure a).run b := by
    rw [Board.uninterrupted, run_get_bind, hoff]
    rfl
  rw [hsame]
  exact hx.bind (fun a => pure a) b hoff

theorem acquire (l : Lock) : Muted P (acquire l : BoardM η ω Unit) := by
  refine get.bind fun b => ite ?_ ?_
  · exact (throw .deadlock).bind fun _ => modify (fun _ => rfl) (fun _ => rfl) fun _ => rfl
  · exact modify (fun _ => rfl) (fun _ => rfl) fun _ => rfl

theorem release (l : Lock) : Muted P (release l : BoardM η ω Unit) :=
  modify (fun _ => rfl) (fun _ => rfl) fun _ => rfl

theorem locked {l : Lock} {x : BoardM η ω α} (hx : Muted P x) : Muted P (locked l x) :=
  uninterrupted <| (acquire l).bind fun _ => hx.bind fun _ => (release l).bind fun _ => pure _

theorem onPorts {x : PortM α} (hx : Ports.Within P x) : Muted P (onPorts x : BoardM η ω α) :=
  fun b hoff => ⟨hoff, ⟨[], (List.append_nil _).symm, List.not_mem_nil⟩, hx b.ports⟩

theorem withPic {body : Pic → PortM α} (h : ∀ c, Ports.Within P (body c)) :
    Muted P (withPic body : BoardM η ω α) :=
  locked <| get.bind fun b => onPorts (h b.pic)

theorem changePic {body : Pic → PortM Pic} (h : ∀ c, Ports.Within P (body c)) :
    Muted P (changePic body : BoardM η ω Unit) :=
  locked <| get.bind fun b => (onPorts (h b.pic)).bind fun _ =>
    modify (fun _ => rfl) (fun _ => rfl) fun _ => rfl

theorem register (vector : UInt8) (handler : η) :
    Muted P (register vector handler : BoardM η ω (Option η)) := by
  intro b hoff
  rw [run_register]
  exact .of_same hoff rfl rfl

end Muted

end Board

end Supervisor

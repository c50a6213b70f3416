import Supervisor.Machine.Output
import Supervisor.Proofs.Interrupt.Section
import Supervisor.Proofs.Memory

/-!
# What printing does to the machine

Both outputs are reached through their locks. With the locks free, printing always
returns, and what it changes is only what printing is about.

- `Machine.consoleOf_putConsole`: the console is read back as it was put.
- `Machine.run_send`, `Machine.run_withConsole`: the two outputs.
- `Machine.Printed`: nothing but the screen, its pen, the serial line and the ports has
  changed.
- `Machine.run_log_dropped`, `run_log_heard`, `run_log_shown`: what becomes of a log line.
  `exists_run_log` is what most callers need to know of it.
-/

namespace Supervisor

namespace Machine

variable {α : Type} {b b' b'' : Machine}

/-! ## The console in memory -/

/-- Bytes the cells of the console take. -/
abbrev consoleBytes : Nat := 4000

/-- The two bytes of each value, one value after the other. -/
theorem getElem?_pairs (l : List UInt16) (i : Nat) :
    (l.flatMap fun (v : UInt16) => [v.toUInt8, (v >>> 8).toUInt8])[2 * i]? = l[i]?.map (·.toUInt8) ∧
    (l.flatMap fun (v : UInt16) => [v.toUInt8, (v >>> 8).toUInt8])[2 * i + 1]?
      = l[i]?.map fun (v : UInt16) => (v >>> 8).toUInt8 := by
  induction l generalizing i with
  | nil => simp
  | cons v rest ih =>
    cases i with
    | zero => exact ⟨rfl, rfl⟩
    | succ i => exact ih i

theorem length_pairs (l : List UInt16) :
    (l.flatMap fun (v : UInt16) => [v.toUInt8, (v >>> 8).toUInt8]).length = 2 * l.length := by
  simp [List.length_flatMap, Nat.mul_comm]

theorem length_cellBytes (cells : Cells) : (cellBytes cells).length = consoleBytes := by
  rw [cellBytes, length_pairs, Vector.length_toList]

/-- A value of two bytes is made of its bytes. -/
theorem ofNat_bytes (v : UInt16) :
    UInt16.ofNat (v.toUInt8.toNat + 256 * (v >>> 8).toUInt8.toNat) = v := by
  have hlow : v.toUInt8.toNat = v.toNat % 256 := rfl
  have hhigh : (v >>> 8).toUInt8.toNat = v.toNat / 256 := by
    have hshift : (v >>> 8).toNat = v.toNat / 256 := by
      rw [UInt16.toNat_shiftRight, Nat.shiftRight_eq_div_pow]
      rfl
    have hlt := v.toNat_lt
    show (v >>> 8).toNat % 256 = _
    rw [hshift]
    omega
  rw [hlow, hhigh, Nat.mod_add_div, UInt16.ofNat_toNat]

/-- The console is read back as it was put. -/
theorem consoleOf_putConsole (c : Console) (k : Kernel) : consoleOf (putConsole c k) = c := by
  have hread : ∀ j (hj : j < (cellBytes c.cells).length),
      (putConsole c k).memory.read (consoleBase + j) = (cellBytes c.cells)[j] :=
    fun j hj => Memory.read_writeBytes k.memory consoleBase hj
  have hcell : ∀ i (hi : i < 2000),
      UInt16.ofNat ((putConsole c k).memory.load (consoleBase + 2 * i) 2) = c.cells[i] := by
    intro i hi
    have hlen : (cellBytes c.cells).length = 4000 := length_cellBytes c.cells
    obtain ⟨hlow, hhigh⟩ := getElem?_pairs c.cells.toList i
    have hsome : c.cells.toList[i]? = some c.cells[i] := by simp [hi]
    rw [hsome] at hlow hhigh
    have hlow' : (putConsole c k).memory.read (consoleBase + 2 * i) = c.cells[i].toUInt8 := by
      rw [hread _ (by omega)]
      exact (List.getElem_eq_iff _).mpr hlow
    have hhigh' : (putConsole c k).memory.read (consoleBase + 2 * i + 1)
        = (c.cells[i] >>> 8).toUInt8 := by
      rw [Nat.add_assoc, hread _ (by omega)]
      exact (List.getElem_eq_iff _).mpr hhigh
    rw [Memory.load, Memory.load, Memory.load, hlow', hhigh', Nat.mul_zero, Nat.add_zero]
    exact ofNat_bytes _
  have hcells : (consoleOf (putConsole c k)).cells = c.cells := by
    ext i hi
    rw [consoleOf, Vector.getElem_ofFn]
    exact congrArg UInt16.toNat (hcell i hi)
  exact congrArg (Console.mk c.pen) hcells

/-! ## The two outputs -/

/-- The state once a text was offered to the serial port. -/
def heard (s : String) (k : Kernel) : Kernel :=
  if k.serialReady then hand (Serial.handed s) k else k

/-- Offers a text to the serial port, whose lock is held. -/
def hear (s : String) : MachineM Unit := do
  if ← look (·.serialReady) then
    change (hand (Serial.handed s))

theorem run_hear (s : String) (b : Machine) :
    (hear s).run b = .ok () { b with rest := heard s b.rest } := by
  show (if b.rest.serialReady = true then _ else _ : MachineM Unit).run b = _
  rw [heard]
  split <;> rfl

theorem run_send (s : String) (hfree : Lock.serial ∉ b.held) :
    (send s).run b = .ok () { b.passed with rest := heard s b.rest } := by
  have hhear : (hear s).run { b.hushed with held := .serial :: b.held } = .ok ()
      { b.hushed with held := .serial :: b.held, rest := heard s b.rest } := by
    rw [run_hear, Board.hushed_rest]
  exact Board.run_locked_only hfree hhear

theorem run_onConsole (f : Console → PortM Console) (b : Machine) :
    (onConsole f).run b = .ok ()
      { b with
        ports := ((f (consoleOf b.rest)).run b.ports).2
        rest := putConsole ((f (consoleOf b.rest)).run b.ports).1 b.rest } :=
  rfl

theorem run_withConsole (f : Console → PortM Console) (hfree : Lock.console ∉ b.held) :
    (withConsole f).run b = .ok ()
      { b.passed with
        ports := ((f (consoleOf b.rest)).run b.ports).2
        rest := putConsole ((f (consoleOf b.rest)).run b.ports).1 b.rest } := by
  refine Board.run_locked_rest hfree ?_
  rw [run_onConsole]
  simp only [Board.hushed_ports, Board.hushed_rest]

/-! ## Printing -/

/-- Going from `b` to `b'`, something was printed.
1. The interrupt flag, the handlers, the interrupt controller and the locks are as before.
2. So is the remaining state, but for the pen, the serial line, and memory.
3. Memory has changed in the cells of the console only. -/
structure Printed (b b' : Machine) : Prop where
  interrupts : b'.interrupts = b.interrupts
  handlers : b'.handlers = b.handlers
  pic : b'.pic = b.pic
  held : b'.held = b.held
  rest : b'.rest = { b.rest with
    pen := b'.rest.pen
    memory := b'.rest.memory
    outside := { b.rest.outside with
      handed := b'.rest.outside.handed, serial := b'.rest.outside.serial } }
  memory : Memory.ChangedIn b.rest.memory b'.rest.memory consoleBase consoleBytes

namespace Printed

theorem refl (b : Machine) : Printed b b :=
  ⟨rfl, rfl, rfl, rfl, rfl, .refl _ _ _⟩

theorem trans (h : Printed b b') (h' : Printed b' b'') : Printed b b'' where
  interrupts := h'.interrupts.trans h.interrupts
  handlers := h'.handlers.trans h.handlers
  pic := h'.pic.trans h.pic
  held := h'.held.trans h.held
  rest := by
    rw [h'.rest, h.rest]
  memory := h.memory.trans h'.memory

end Printed

theorem printed_heard (s : String) (b : Machine) :
    Printed b { b.passed with rest := heard s b.rest } := by
  refine ⟨by simp, by simp, by simp, by simp, ?_, ?_⟩
  · show heard s b.rest = _
    rw [heard]
    split <;> rfl
  · show Memory.ChangedIn b.rest.memory (heard s b.rest).memory _ _
    rw [heard]
    split <;> exact .refl _ _ _

theorem printed_putConsole (c : Console) (ports : Ports) (b : Machine) :
    Printed b { b.passed with ports, rest := putConsole c b.rest } := by
  refine ⟨by simp, by simp, by simp, by simp, rfl, ?_⟩
  have hchanged := Memory.changedIn_writeBytes b.rest.memory consoleBase (cellBytes c.cells)
  rwa [length_cellBytes] at hchanged

/-! ## The log -/

theorem run_log (e : Log.Entry) (b : Machine) :
    (log e).run b = (if b.rest.log.admits e then
      send (e.text b.rest.clock.ms) >>= fun _ =>
        if b.rest.log.onConsole then withConsole (e.display b.rest.clock.ms) else pure ()
      else pure () : MachineM Unit).run b :=
  rfl

theorem run_log_dropped {e : Log.Entry} (h : ¬ b.rest.log.admits e) :
    (log e).run b = .ok () b := by
  rw [run_log, if_neg h]
  rfl

/-- A line that only goes to the serial port. -/
theorem run_log_heard {e : Log.Entry} (h : b.rest.log.admits e) (hshown : ¬ b.rest.log.onConsole)
    (hserial : Lock.serial ∉ b.held) :
    (log e).run b = .ok () { b.passed with rest := heard (e.text b.rest.clock.ms) b.rest } := by
  rw [run_log, if_pos h, run_bind_ok (run_send _ hserial), if_neg hshown]
  rfl

/-- A line that the console shows too. -/
theorem run_log_shown {e : Log.Entry} (h : b.rest.log.admits e) (hshown : b.rest.log.onConsole)
    (hserial : Lock.serial ∉ b.held) :
    (log e).run b = (withConsole (e.display b.rest.clock.ms)).run
      { b.passed with rest := heard (e.text b.rest.clock.ms) b.rest } := by
  rw [run_log, if_pos h, run_bind_ok (run_send _ hserial), if_pos hshown]

/-- With both locks free, writing a log line returns. -/
theorem exists_run_log (e : Log.Entry) (hserial : Lock.serial ∉ b.held)
    (hconsole : Lock.console ∉ b.held) : ∃ b', (log e).run b = .ok () b' ∧ Printed b b' := by
  have hheard := printed_heard (e.text b.rest.clock.ms) b
  by_cases hadmits : b.rest.log.admits e
  · by_cases hshown : b.rest.log.onConsole
    · rw [run_log_shown hadmits hshown hserial]
      refine ⟨_, run_withConsole _ ?_, hheard.trans (printed_putConsole _ _ _)⟩
      rwa [hheard.held]
    · exact ⟨_, run_log_heard hadmits hshown hserial, hheard⟩
  · exact ⟨b, run_log_dropped hadmits, .refl b⟩

end Machine

end Supervisor

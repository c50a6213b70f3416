import Supervisor.Machine.Store
import Supervisor.Proofs.Frames.Accounting
import Supervisor.Proofs.Interrupt.Section
import Supervisor.Proofs.Memory

/-!
# The frame map and the heap in memory

The machine keeps its frame map as words in memory and reaches it, as it reaches the heap,
through a lock. What is known about the two by themselves carries over.

- `Memory.word_writeBytes`: words that were written in a run are read back.
- `Machine.frameMapOf_putFrameMap`: so is a frame map. `frameMapOf_congr` says that it
  depends on its own bytes only.
- `Machine.run_onFrames`, `Machine.run_onHeap`, `Machine.run_orPanic`: with its lock free, a
  locked operation is the operation.
-/

namespace Supervisor

namespace Memory

variable {m : Memory} {a : Nat}

theorem writeBytes_append (m : Memory) (a : Nat) (xs ys : List UInt8) :
    m.writeBytes a (xs ++ ys) = (m.writeBytes a xs).writeBytes (a + xs.length) ys := by
  induction xs generalizing m a with
  | nil => rfl
  | cons byte xs ih =>
    rw [List.cons_append, writeBytes, ih, writeBytes, List.length_cons, Nat.add_assoc,
      Nat.add_comm 1]

/-- A number is stored as the list of its bytes. -/
theorem writeBytes_range (m : Memory) (a count value : Nat) :
    m.writeBytes a ((List.range count).map fun i => UInt8.ofNat (value >>> (8 * i)))
      = m.store a count value := by
  induction count generalizing m a value with
  | zero => rfl
  | succ count ih =>
    have hshift : ∀ i, value >>> (8 * (i + 1)) = (value / 256) >>> (8 * i) := by
      intro i
      rw [Nat.shiftRight_eq_div_pow, Nat.shiftRight_eq_div_pow, Nat.div_div_eq_div_mul,
        Nat.mul_succ, Nat.add_comm, Nat.pow_add]
    rw [List.range_succ_eq_map, List.map_cons, List.map_map, writeBytes, store, ← ih]
    simp only [Function.comp_def, Nat.succ_eq_add_one, hshift]
    rfl

/-- A run of words is read back from where it was written. -/
theorem word_writeBytes (m : Memory) (a : Nat) {ws : List (BitVec 64)} {i : Nat}
    (h : i < ws.length) :
    (m.writeBytes a (ws.flatMap fun w =>
      (List.range 8).map fun i => UInt8.ofNat (w.toNat >>> (8 * i)))).word (a + 8 * i)
      = ws[i].toNat := by
  induction ws generalizing m a i with
  | nil => cases h
  | cons w ws ih =>
    rw [List.flatMap_cons, writeBytes_append, writeBytes_range]
    simp only [List.length_map, List.length_range]
    cases i with
    | zero =>
      -- the words behind the first one start behind its eight bytes
      have hrest := changedIn_writeBytes (m.store a 8 w.toNat) (a + 8) (ws.flatMap fun w =>
        (List.range 8).map fun i => UInt8.ofNat (w.toNat >>> (8 * i)))
      rw [Nat.mul_zero, Nat.add_zero, hrest.word_eq (by omega)]
      exact word_setWord_self m a w.isLt
    | succ i =>
      rw [show a + 8 * (i + 1) = a + 8 + 8 * i by omega, ih _ _ (Nat.lt_of_succ_lt_succ h)]
      rfl

end Memory

namespace Machine

variable {α : Type} {b : Machine} {area : FrameArea} {f f' : FrameMap} {m n : Memory}

/-! ## The frame map -/

theorem frameMapOf_congr (h : ∀ x, area.base ≤ x → x < area.base + 8 * area.words →
    n.read x = m.read x) : frameMapOf n area = frameMapOf m area := by
  have hword : ∀ i : Fin area.words, n.word (area.base + 8 * i) = m.word (area.base + 8 * i) := by
    intro i
    exact Memory.load_congr fun x hlo hhi => h x (by omega) (by omega)
  simp only [frameMapOf, hword]

/-- A frame map is read back as it was put. -/
theorem frameMapOf_putFrameMap (k : Kernel) (hsize : f.storage.size = area.words) :
    frameMapOf (putFrameMap area f k).memory { area with total := f.total, free := f.free } =
      f := by
  have hstorage : (frameMapOf (putFrameMap area f k).memory area).storage = f.storage := by
    refine Array.ext ?_ fun i hi hi' => ?_
    · rw [frameMapOf, Array.size_ofFn, hsize]
    · have hlength : i < f.storage.toList.length := hi'
      have hword := Memory.word_writeBytes k.memory area.base hlength
      simp only [frameMapOf, Array.getElem_ofFn]
      show BitVec.ofNat 64 ((k.memory.writeBytes area.base (wordBytes f.storage)).word _) = _
      rw [wordBytes, hword, BitVec.ofNat_toNat, BitVec.setWidth_eq]
      rfl
  obtain ⟨storage, total, free⟩ := f
  exact congrArg (FrameMap.mk · total free) hstorage

/-! ## Locked operations -/

theorem run_onFrames {missing a : α} {body : FrameM α} (hfree : Lock.frames ∉ b.held)
    (harea : b.rest.frames = some area)
    (h : body.run (frameMapOf b.rest.memory area) = .ok a f) :
    (onFrames missing body).run b = .ok a { b.passed with rest := putFrameMap area f b.rest } := by
  refine Board.run_locked_only hfree ?_
  have hlook : (look id : MachineM Kernel).run { b.hushed with held := .frames :: b.held }
      = .ok b.rest { b.hushed with held := .frames :: b.held } := by
    rw [← Board.hushed_rest b]
    rfl
  rw [run_bind_ok hlook]
  simp only [harea, h]
  rw [← Board.hushed_rest b]
  rfl

theorem run_onHeap {a : α} {body : HeapM α} {arena : Arena} (hfree : Lock.heap ∉ b.held)
    (h : body.run ⟨b.rest.heap, b.rest.memory⟩ = .ok a arena) :
    (onHeap body).run b = .ok a
      { b.passed with rest := { b.rest with heap := arena.heap, memory := arena.memory } } := by
  refine Board.run_locked_only hfree ?_
  have hlook : (look id : MachineM Kernel).run { b.hushed with held := .heap :: b.held }
      = .ok b.rest { b.hushed with held := .heap :: b.held } := by
    rw [← Board.hushed_rest b]
    rfl
  rw [run_bind_ok hlook]
  simp only [h]
  rw [← Board.hushed_rest b]
  rfl

/-- An operation that is answered is not fatal. -/
theorem run_orPanic {a : α} {body : HeapM (Except PointerError α)} {arena : Arena}
    (hfree : Lock.heap ∉ b.held)
    (h : body.run ⟨b.rest.heap, b.rest.memory⟩ = .ok (.ok a) arena) :
    (orPanic body).run b = .ok a
      { b.passed with rest := { b.rest with heap := arena.heap, memory := arena.memory } } := by
  rw [orPanic, run_bind_ok (run_onHeap hfree h)]
  rfl

end Machine

end Supervisor

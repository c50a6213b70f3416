import Supervisor.Heap.Basic
import Supervisor.Proofs.Run

/-!
# Running heap programs

One equation for each of the primitives a heap program is made of, beside those
for programs with state in general.
-/

namespace Supervisor

namespace Heap

variable {α β : Type}

/-! ## Memory -/

theorem run_inspect (f : Memory → α) (a : Arena) :
    (inspect f).run a = .ok (f a.memory) a := by
  rw [inspect, run_get_bind, EStateM.run_pure]

theorem run_inspect_bind (f : Memory → α) (k : α → HeapM β) (a : Arena) :
    (inspect f >>= k).run a = (k (f a.memory)).run a :=
  run_bind_ok (run_inspect f a) k

theorem run_change (f : Memory → Memory) (a : Arena) :
    (change f).run a = .ok () { a with memory := f a.memory } := by
  rw [change, EStateM.run_modify]

theorem run_change_bind (f : Memory → Memory) (k : Unit → HeapM β) (a : Arena) :
    (change f >>= k).run a = (k ()).run { a with memory := f a.memory } :=
  run_bind_ok (run_change f a) k

/-! ## Counters -/

theorem run_addUsed {a : Arena} {size : Nat} (h : a.heap.used + size < wordLimit) :
    (addUsed size).run a = .ok () { a with heap.used := a.heap.used + size } := by
  rw [addUsed, run_get_bind, Checked.add_eq_ok h, run_lift_ok_bind, EStateM.run_modify]

theorem run_subUsed {a : Arena} {size : Nat} (h : size ≤ a.heap.used) :
    (subUsed size).run a = .ok () { a with heap.used := a.heap.used - size } := by
  rw [subUsed, run_get_bind, Checked.sub_eq_ok h, run_lift_ok_bind, EStateM.run_modify]

theorem run_addCount {a : Arena} (h : a.heap.count + 1 < wordLimit) :
    addCount.run a = .ok () { a with heap.count := a.heap.count + 1 } := by
  rw [addCount, run_get_bind, Checked.add_eq_ok h, run_lift_ok_bind, EStateM.run_modify]

theorem run_subCount {a : Arena} (h : 1 ≤ a.heap.count) :
    subCount.run a = .ok () { a with heap.count := a.heap.count - 1 } := by
  rw [subCount, run_get_bind, Checked.sub_eq_ok h, run_lift_ok_bind, EStateM.run_modify]

end Heap

end Supervisor

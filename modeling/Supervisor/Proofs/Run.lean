import Supervisor.Fault

/-!
# Running programs with state

One equation for each way a program can begin, so that a program is run from
the front, step by step, without a look inside the monad: `run_bind_ok` for any
first step whose outcome is known, and the primitives as its cases. A sequence of
programs of one kind is a fold over values and states (`run_foldlM`).
-/

namespace Supervisor

section Programs

variable {ε σ α β : Type}

/-- The rest of a program runs from where its first step ended. -/
theorem run_bind_ok {x : EStateM ε σ α} {s s' : σ} {v : α} (h : x.run s = .ok v s')
    (k : α → EStateM ε σ β) : (x >>= k).run s = (k v).run s' := by
  rw [EStateM.run_bind, h]

/-- A program ends with the error of its first step. -/
theorem run_bind_error {x : EStateM ε σ α} {s s' : σ} {e : ε} (h : x.run s = .error e s')
    (k : α → EStateM ε σ β) : (x >>= k).run s = .error e s' := by
  rw [EStateM.run_bind, h]

/-- A first step may be exchanged for one with the same outcome. -/
theorem run_bind_congr {x y : EStateM ε σ α} {s s' : σ} (h : x.run s = y.run s')
    (k : α → EStateM ε σ β) : (x >>= k).run s = (y >>= k).run s' := by
  rw [EStateM.run_bind, h, ← EStateM.run_bind]

theorem run_map_ok {x : EStateM ε σ α} {s s' : σ} {v : α} (h : x.run s = .ok v s') (f : α → β) :
    (f <$> x).run s = .ok (f v) s' := by
  rw [← bind_pure_comp, run_bind_ok h, EStateM.run_pure]

/-- A program whose answer is changed on the way out has an answer of its own. -/
theorem run_map_eq_ok {x : EStateM ε σ α} {f : α → β} {s s' : σ} {v : β}
    (h : (f <$> x).run s = .ok v s') : ∃ w, x.run s = .ok w s' ∧ f w = v := by
  cases hx : x.run s with
  | ok w s'' =>
    rw [run_map_ok hx] at h
    injection h with hv hs
    exact ⟨w, by rw [hs], hv⟩
  | error e s'' =>
    rw [← bind_pure_comp, run_bind_error hx] at h
    contradiction

theorem run_discard_ok {x : EStateM ε σ α} {s s' : σ} {v : α} (h : x.run s = .ok v s') :
    (discard x).run s = .ok () s' := by
  rw [Functor.discard, map_const]
  exact run_map_ok h _

theorem run_get_bind (k : σ → EStateM ε σ β) (s : σ) :
    ((get : EStateM ε σ σ) >>= k).run s = (k s).run s :=
  run_bind_ok (EStateM.run_get s) k

theorem run_modify_bind (f : σ → σ) (k : Unit → EStateM ε σ β) (s : σ) :
    ((modify f : EStateM ε σ Unit) >>= k).run s = (k ()).run (f s) :=
  run_bind_ok (EStateM.run_modify f s) k

/-- A program whose errors are caught runs on from where the error occurred. -/
theorem run_tryCatch (x : EStateM ε σ α) (handle : ε → EStateM ε σ α) (s : σ) :
    (tryCatch x handle).run s = match x.run s with
      | .ok v s' => .ok v s'
      | .error e s' => (handle e).run s' := by
  show EStateM.tryCatch x handle s = _
  unfold EStateM.tryCatch EStateM.run
  cases x s <;> rfl

end Programs

/-! ## Checked arithmetic -/

section Checked

variable {σ α β : Type}

theorem run_lift_ok (v : α) (s : σ) :
    EStateM.run (liftM (Except.ok v : Except Fault α) : EStateM Fault σ α) s = .ok v s := rfl

theorem run_lift_error (e : Fault) (s : σ) :
    EStateM.run (liftM (Except.error e : Except Fault α) : EStateM Fault σ α) s = .error e s := rfl

theorem run_lift_ok_bind (v : α) (k : α → EStateM Fault σ β) (s : σ) :
    ((liftM (Except.ok v : Except Fault α) : EStateM Fault σ α) >>= k).run s = (k v).run s :=
  run_bind_ok (run_lift_ok v s) k

theorem run_lift_error_bind (e : Fault) (k : α → EStateM Fault σ β) (s : σ) :
    ((liftM (Except.error e : Except Fault α) : EStateM Fault σ α) >>= k).run s = .error e s :=
  run_bind_error (run_lift_error e s) k

end Checked

/-! ## Folds -/

/-- A fold of programs hands the state on from one to the next. -/
theorem run_foldlM {σ α β : Type} (f : β → α → StateM σ β) (xs : List α) (b : β) (s : σ) :
    (xs.foldlM f b).run s = xs.foldl (fun r x => (f r.1 x).run r.2) (b, s) := by
  induction xs generalizing b s with
  | nil => rfl
  | cons x xs ih => exact ih _ _

end Supervisor

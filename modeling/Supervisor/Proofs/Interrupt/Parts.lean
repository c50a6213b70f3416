import Supervisor.Proofs.Interrupt.Section

/-!
# Where a program can be interrupted

Interrupts are taken between instructions, but not in a locked section, which runs with
interrupts off. A program is therefore cut into parts: looks at the board, changes of it,
and locked sections as a whole. What has to hold whenever an interrupt is taken has to
hold between any two parts.

- `Parts`, `Parts.program`: a program cut into parts, and put together again.
- `Parts.Between`: the boards between the parts of a run, the first and the last included.
  A run that gets stuck at a lock has those that it came through until then.
- `between_bind`: a board between the parts of one program after another belongs to the
  first program or to the second. `between_withPic` and `between_changePic` step over a
  section that works on the interrupt controller.
-/

namespace Supervisor

/-- A program that returns `α`, cut into parts. -/
inductive Parts (η ω α : Type) : Type 1 where
  /-- Nothing is left to do. -/
  | done (a : α)
  /-- A look at the board. -/
  | look {β : Type} (f : Board η ω → β) (rest : β → Parts η ω α)
  /-- A change of the board. -/
  | change (f : Board η ω → Board η ω) (rest : Parts η ω α)
  /-- A section that holds a lock. -/
  | locked {β : Type} (l : Lock) (body : BoardM η ω β) (rest : β → Parts η ω α)

namespace Parts

variable {η ω α : Type}

/-- The program that has these parts. -/
def program : Parts η ω α → BoardM η ω α
  | done a => pure a
  | look f rest => get >>= fun b => (rest (f b)).program
  | change f rest => modify f >>= fun _ => rest.program
  | locked l body rest => Board.locked l body >>= fun a => (rest a).program

/-- Running a program on `b`, the board is `c` between two of its parts. -/
inductive Between : Parts η ω α → Board η ω → Board η ω → Prop
  | here (p : Parts η ω α) (b : Board η ω) : Between p b b
  | look {β : Type} {f : Board η ω → β} {rest : β → Parts η ω α} {b c : Board η ω} :
    Between (rest (f b)) b c → Between (.look f rest) b c
  | change {f : Board η ω → Board η ω} {rest : Parts η ω α} {b c : Board η ω} :
    Between rest (f b) c → Between (.change f rest) b c
  | locked {β : Type} {l : Lock} {body : BoardM η ω β} {rest : β → Parts η ω α} {v : β}
    {b b' c : Board η ω} :
    (Board.locked l body).run b = .ok v b' → Between (rest v) b' c →
    Between (.locked l body rest) b c

variable {β : Type}

/-- One program, then another. -/
def bind : Parts η ω α → (α → Parts η ω β) → Parts η ω β
  | done a, k => k a
  | look f rest, k => look f fun v => (rest v).bind k
  | change f rest, k => change f (rest.bind k)
  | locked l body rest, k => locked l body fun v => (rest v).bind k

theorem program_bind (p : Parts η ω α) (k : α → Parts η ω β) :
    (p.bind k).program = p.program >>= fun a => (k a).program := by
  induction p with
  | done a => rw [bind, program, pure_bind]
  | look f rest ih => simp only [bind, program, bind_assoc, ih]
  | change f rest ih => simp only [bind, program, bind_assoc, ih]
  | locked l body rest ih => simp only [bind, program, bind_assoc, ih]

/-- A program that returns comes through the board that it returns with. -/
theorem between_of_run {p : Parts η ω α} {b c : Board η ω} {a : α}
    (h : p.program.run b = .ok a c) : Between p b c := by
  induction p generalizing b with
  | done a' =>
    cases h
    exact .here _ _
  | look f rest ih =>
    rw [program, run_get_bind] at h
    exact .look (ih _ h)
  | change f rest ih =>
    rw [program, run_modify_bind] at h
    exact .change (ih h)
  | locked l body rest ih =>
    rw [program] at h
    cases hbody : (Board.locked l body).run b with
    | ok v b' =>
      rw [run_bind_ok hbody] at h
      exact .locked hbody (ih v h)
    | error e b' =>
      rw [run_bind_error hbody] at h
      cases h

theorem between_bind {p : Parts η ω α} {k : α → Parts η ω β} {b c : Board η ω}
    (h : Between (p.bind k) b c) :
    Between p b c ∨ ∃ a b', p.program.run b = .ok a b' ∧ Between (k a) b' c := by
  induction p generalizing b with
  | done a => exact .inr ⟨a, b, rfl, h⟩
  | look f rest ih =>
    cases h with
    | here => exact .inl (.here _ _)
    | look h =>
      rcases ih _ h with h | ⟨a, b', hrun, h⟩
      · exact .inl (.look h)
      · refine .inr ⟨a, b', ?_, h⟩
        rw [program, run_get_bind]
        exact hrun
  | change f rest ih =>
    cases h with
    | here => exact .inl (.here _ _)
    | change h =>
      rcases ih h with h | ⟨a, b', hrun, h⟩
      · exact .inl (.change h)
      · refine .inr ⟨a, b', ?_, h⟩
        rw [program, run_modify_bind]
        exact hrun
  | locked l body rest ih =>
    cases h with
    | here => exact .inl (.here _ _)
    | locked hbody h =>
      rcases ih _ h with h | ⟨a, b', hrun, h⟩
      · exact .inl (.locked hbody h)
      · refine .inr ⟨a, b', ?_, h⟩
        rw [program, run_bind_ok hbody]
        exact hrun

/-! ## The interrupt controller -/

/-- A locked look at the interrupt controller as a part. -/
def withPic (body : Pic → PortM β) (rest : β → Parts η ω α) : Parts η ω α :=
  locked .pic (do Board.onPorts (body (← get).pic)) rest

/-- A locked change of the interrupt controller as a part. -/
def changePic (body : Pic → PortM Pic) (rest : Parts η ω α) : Parts η ω α :=
  locked .pic (do
    let pic ← Board.onPorts (body (← get).pic)
    modify fun b => { b with pic }) fun _ => rest

theorem program_withPic (body : Pic → PortM β) (rest : β → Parts η ω α) :
    (withPic body rest).program = Board.withPic body >>= fun v => (rest v).program := rfl

theorem program_changePic (body : Pic → PortM Pic) (rest : Parts η ω α) :
    (changePic body rest).program = Board.changePic body >>= fun _ => rest.program := rfl

section Pic

variable {b c : Board η ω} {rest : Parts η ω α}

theorem between_withPic {body : Pic → PortM β} {rest : β → Parts η ω α}
    (h : Between (withPic body rest) b c) :
    c = b ∨ ∃ ports, Between (rest ((body b.pic).run b.ports).1) { b.passed with ports } c := by
  cases h with
  | here => exact .inl rfl
  | locked hbody h =>
    obtain ⟨hfree, -⟩ := Board.locked_ok hbody
    have hrun := Board.run_withPic body hfree
    rw [Board.withPic, hbody] at hrun
    cases hrun
    exact .inr ⟨_, h⟩

theorem between_changePic {body : Pic → PortM Pic} (h : Between (changePic body rest) b c) :
    c = b ∨ ∃ ports, Between rest
      { b.passed with pic := ((body b.pic).run b.ports).1, ports } c := by
  cases h with
  | here => exact .inl rfl
  | locked hbody h =>
    obtain ⟨hfree, -⟩ := Board.locked_ok hbody
    have hrun := Board.run_changePic body hfree
    rw [Board.changePic, hbody] at hrun
    cases hrun
    exact .inr ⟨_, h⟩

end Pic

end Parts

end Supervisor

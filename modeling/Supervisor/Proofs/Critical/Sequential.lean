import Supervisor.Proofs.Critical.Interleaving

/-!
# Critical sections without interrupts

As long as no interrupt comes in, a program executed one instruction at a time ends where
`Critical.run` says (`EndsAsRun`).

`Reaches` counts instructions, so that the executions of a program's parts are put one
after the other (`Reaches.trans`); `Action.reaches` follows the nesting of sections.
-/

namespace Supervisor.Critical

/-- Updates add, and wrap. -/
def increase (amount value : UInt64) : UInt64 :=
  value + amount

/-- The flag and the locks of a program, apart from how many there are. -/
def State.shared (s : State) : Shared UInt64 :=
  ⟨s.interrupts, s.lock⟩

/-- So many instructions lead from one configuration to the other. -/
def Reaches (n : Nat) (c c' : Config UInt64) : Prop :=
  ∃ events, follow increase (List.replicate n .proceed) c = some (c', events)

/-- The same locks are there, and the same are held. -/
structure State.Like (s s' : State) : Prop where
  length : s'.locks.length = s.locks.length
  held : ∀ i, (s'.lock i).held = (s.lock i).held

section Reaches

variable {n m : Nat} {c c' c'' : Config UInt64}

theorem Reaches.refl (c : Config UInt64) : Reaches 0 c c :=
  ⟨[], rfl⟩

theorem Reaches.trans (h : Reaches n c c') (h' : Reaches m c' c'') : Reaches (n + m) c c'' := by
  obtain ⟨now, hnow⟩ := h
  obtain ⟨later, hlater⟩ := h'
  refine ⟨now ++ later, ?_⟩
  rw [← List.replicate_append_replicate]
  exact follow_append hnow hlater

theorem Reaches.one {item : Item UInt64} {items k code : List (Item UInt64)}
    {s s' : Shared UInt64} {suspended : List (Bool × List (Item UInt64))} {events : List Event}
    (h : advance increase item s = some (items, s', events)) (hcode : items ++ k = code) :
    Reaches 1 ⟨s, item :: k, suspended⟩ ⟨s', code, suspended⟩ := by
  refine ⟨events ++ [], ?_⟩
  rw [← hcode]
  show (step increase .proceed ⟨s, item :: k, suspended⟩).bind _ = _
  rw [step, h]
  rfl

end Reaches

section State

variable {s s' s'' : State} {i : Nat}

theorem State.lock_setLock (h : i < s.locks.length) (l : Guarded UInt64) (j : Nat) :
    (s.setLock i l).lock j = if j = i then l else s.lock j := by
  rw [lock, setLock, List.getElem?_set]
  by_cases hj : i = j
  · subst hj
    simp [h]
  · rw [if_neg hj, if_neg (Ne.symm hj)]
    rfl

theorem State.lock_enter (h : i < s.locks.length) (u : UInt64) (j : Nat) :
    (s.enter i u).lock j = if j = i then ⟨(s.lock i).value + u, true⟩ else s.lock j :=
  lock_setLock h _ j

theorem State.shared_setLock (h : i < s.locks.length) (l : Guarded UInt64) :
    (s.setLock i l).shared = s.shared.setLock i l := by
  have hlock : (s.setLock i l).lock = Function.update s.lock i l := by
    funext j
    rw [lock_setLock h, Function.update_apply]
  rw [shared, hlock]
  rfl

theorem State.shared_restore (s : State) (wereOn : Bool) :
    (s.restore wereOn).shared =
      { s.shared with interrupts := s.shared.interrupts || wereOn } := by
  cases wereOn with
  | false =>
    show s.shared = { s.shared with interrupts := s.interrupts || false }
    rw [Bool.or_false]
    rfl
  | true =>
    show _ = ({ s.shared with interrupts := s.interrupts || true } : Shared UInt64)
    rw [Bool.or_true]
    rfl

@[simp] theorem State.locks_restore (s : State) (wereOn : Bool) :
    (s.restore wereOn).locks = s.locks := by
  cases wereOn <;> rfl

theorem State.Like.of_locks (h : s'.locks = s.locks) : s.Like s' :=
  ⟨congrArg _ h, fun i => by rw [lock, h]; rfl⟩

theorem State.Like.refl (s : State) : s.Like s :=
  ⟨rfl, fun _ => rfl⟩

theorem State.Like.trans (h : s.Like s') (h' : s'.Like s'') : s.Like s'' :=
  ⟨h'.length.trans h.length, fun i => (h'.held i).trans (h.held i)⟩

end State

/-! ## Sections -/

theorem State.shared_off (s : State) :
    State.shared { s with interrupts := false } =
      { s.shared with interrupts := s.shared.interrupts && !s.interrupts } := by
  show _ = ({ s.shared with interrupts := s.interrupts && !s.interrupts } : Shared UInt64)
  rw [Bool.and_not_self]
  rfl

theorem advance_enter_none (s : State) (body : List Action) :
    advance increase (.enter s.interrupts none body) s.shared =
      some (body.map .act ++ [.restore s.interrupts], State.shared { s with interrupts := false },
        []) := by
  rw [State.shared_off]
  rfl

theorem advance_enter_some (s : State) (i : Nat) (u : UInt64) (body : List Action) :
    advance increase (.enter s.interrupts (some (i, u)) body) s.shared =
      some ([.take i u body, .restore s.interrupts], State.shared { s with interrupts := false },
        []) := by
  rw [State.shared_off]
  rfl

/-- A lock is taken and its value updated. -/
theorem reaches_enter {s : State} {i : Nat} (u : UInt64) (body : List Action)
    (k : List (Item UInt64)) (suspended : List (Bool × List (Item UInt64)))
    (hi : i < s.locks.length) (hfree : (s.lock i).held = false) :
    Reaches 3 ⟨s.shared, .take i u body :: k, suspended⟩
      ⟨(s.enter i u).shared, body.map .act ++ .drop i :: k, suspended⟩ := by
  let taken : Shared UInt64 := s.shared.setLock i { s.lock i with held := true }
  have htaken : taken.locks i = { s.lock i with held := true } := Function.update_self _ _ _
  have hadvance : advance increase (.take i u body) s.shared =
      some (.load i u :: body.map .act ++ [.drop i], taken, []) := by
    rw [advance, show (s.shared.locks i).held = false from hfree]
    rfl
  have htake : Reaches 1 ⟨s.shared, .take i u body :: k, suspended⟩
      ⟨taken, .load i u :: (body.map .act ++ .drop i :: k), suspended⟩ := by
    refine .one hadvance ?_
    rw [List.append_assoc]
    rfl
  have hload : Reaches 1 ⟨taken, .load i u :: (body.map .act ++ .drop i :: k), suspended⟩
      ⟨taken, .store i u (taken.locks i).value :: (body.map .act ++ .drop i :: k), suspended⟩ :=
    .one rfl rfl
  have hwritten : taken.setLock i
      { taken.locks i with value := increase u (taken.locks i).value } = (s.enter i u).shared := by
    rw [State.enter, State.shared_setLock hi, htaken]
    exact congrArg (Shared.mk _) (Function.update_idem ..)
  have hstore : Reaches 1
      ⟨taken, .store i u (taken.locks i).value :: (body.map .act ++ .drop i :: k), suspended⟩
      ⟨(s.enter i u).shared, body.map .act ++ .drop i :: k, suspended⟩ := by
    rw [← hwritten]
    exact .one rfl rfl
  exact (htake.trans hload).trans hstore

theorem advance_restore (s : State) (wereOn : Bool) :
    advance increase (.restore wereOn) s.shared =
      some ([], (s.restore wereOn).shared, [.left (s.interrupts || wereOn)]) := by
  rw [State.shared_restore]
  rfl

/-- What comes of a program from a state on: so many instructions lead from the code, with more
code after it, to that code in the state that it is to end in, and the locks are as before. -/
def Performs (n : Nat) (code : List (Item UInt64)) (s s' : State) : Prop :=
  (∀ k suspended, Reaches n ⟨s.shared, code ++ k, suspended⟩ ⟨s'.shared, k, suspended⟩) ∧ s.Like s'

section Performs

variable {n m : Nat} {s s' s'' : State} {code code' : List (Item UInt64)}

theorem Performs.nil (s : State) : Performs 0 [] s s :=
  ⟨fun _ _ => .refl _, .refl s⟩

theorem Performs.append (h : Performs n code s s') (h' : Performs m code' s' s'') :
    Performs (n + m) (code ++ code') s s'' := by
  refine ⟨?_, h.2.trans h'.2⟩
  intro k suspended
  rw [List.append_assoc]
  exact (h.1 _ _).trans (h'.1 _ _)

theorem Performs.simple {a : Action} {events : List Event}
    (h : advance increase (.act a) s.shared = some ([], (a.run s).2.shared, events))
    (hlocks : (a.run s).2.locks = s.locks) : Performs 1 [.act a] s (a.run s).2 :=
  ⟨fun _ _ => .one h rfl, .of_locks hlocks⟩

/-- A section with interrupts off, once its body is known. -/
theorem Performs.uninterrupted {body : List Action}
    (h : Performs n (body.map .act) { s with interrupts := false } s') :
    Performs (n + 3) [.act (.uninterrupted body)] s (s'.restore s.interrupts) := by
  obtain ⟨hbody, hlike⟩ := h
  constructor
  · intro k suspended
    have hlook : Reaches 1 ⟨s.shared, .act (.uninterrupted body) :: k, suspended⟩
        ⟨s.shared, .enter s.interrupts none body :: k, suspended⟩ := .one rfl rfl
    have henter : Reaches 1 ⟨s.shared, .enter s.interrupts none body :: k, suspended⟩
        ⟨State.shared { s with interrupts := false },
          body.map .act ++ .restore s.interrupts :: k, suspended⟩ :=
      .one (advance_enter_none s body) (List.append_assoc ..)
    have hrestore : Reaches 1 ⟨s'.shared, .restore s.interrupts :: k, suspended⟩
        ⟨(s'.restore s.interrupts).shared, k, suspended⟩ :=
      .one (advance_restore s' _) rfl
    have htotal := ((hlook.trans henter).trans (hbody _ _)).trans hrestore
    rwa [show 1 + 1 + n + 1 = n + 3 by omega] at htotal
  · have hoff : s.Like { s with interrupts := false } := .of_locks rfl
    exact hoff.trans (hlike.trans (.of_locks (s'.locks_restore _)))

/-- A section that holds a lock, once its body is known. -/
theorem Performs.locked {i : Nat} {u : UInt64} {body : List Action} (hi : i < s.locks.length)
    (hfree : (s.lock i).held = false)
    (h : Performs n (body.map .act) (State.enter { s with interrupts := false } i u) s') :
    Performs (n + 7) [.act (.locked i u body)] s ((s'.leave i).restore s.interrupts) := by
  obtain ⟨hbody, hlike⟩ := h
  have hi' : i < s'.locks.length := by
    rw [hlike.length, State.enter, State.setLock, List.length_set]
    exact hi
  constructor
  · intro k suspended
    have hlook : Reaches 1 ⟨s.shared, .act (.locked i u body) :: k, suspended⟩
        ⟨s.shared, .enter s.interrupts (some (i, u)) body :: k, suspended⟩ := .one rfl rfl
    have hoff : Reaches 1 ⟨s.shared, .enter s.interrupts (some (i, u)) body :: k, suspended⟩
        ⟨State.shared { s with interrupts := false },
          .take i u body :: .restore s.interrupts :: k, suspended⟩ :=
      .one (advance_enter_some s i u body) rfl
    have henter := reaches_enter (s := { s with interrupts := false }) u body
      (.restore s.interrupts :: k) suspended hi hfree
    have hdrop : Reaches 1 ⟨s'.shared, .drop i :: .restore s.interrupts :: k, suspended⟩
        ⟨(s'.leave i).shared, .restore s.interrupts :: k, suspended⟩ := by
      rw [State.leave, State.shared_setLock hi']
      exact .one rfl rfl
    have hrestore : Reaches 1 ⟨(s'.leave i).shared, .restore s.interrupts :: k, suspended⟩
        ⟨((s'.leave i).restore s.interrupts).shared, k, suspended⟩ :=
      .one (advance_restore _ _) rfl
    have hinside := (hlook.trans hoff).trans henter
    have htotal := ((hinside.trans (hbody _ _)).trans hdrop).trans hrestore
    rwa [show 1 + 1 + 3 + n + 1 + 1 = n + 7 by omega] at htotal
  · refine State.Like.trans ⟨?_, ?_⟩ (.of_locks ((s'.leave i).locks_restore _))
    · rw [State.leave, State.setLock, List.length_set, hlike.length, State.enter, State.setLock,
        List.length_set]
    · intro j
      rw [State.leave, State.lock_setLock hi']
      by_cases hj : j = i
      · rw [if_pos hj, hj, hfree]
        rfl
      · have henter := State.lock_enter (s := { s with interrupts := false }) hi u j
        rw [if_neg hj, hlike.held j, henter, if_neg hj]
        rfl

end Performs

mutual

theorem Action.performs (a : Action) {inside : Bool} {around : List Nat} {s : State}
    (ha : a.disciplined inside around = true) (hlocks : ∀ m ∈ a.updates, m.1 < s.locks.length)
    (hfree : ∀ i, i ∉ around → (s.lock i).held = false) :
    Performs a.size [.act a] s (a.run s).2 := by
  cases a with
  | enable | disable | halt | sleep | readFlag | readFlags =>
    exact .simple rfl rfl
  | force => exact Bool.noConfusion ha
  | uninterrupted body =>
    have hbody := performs body (s := { s with interrupts := false }) ha hlocks hfree
    exact hbody.uninterrupted
  | locked i u body =>
    obtain ⟨hi, hlocks⟩ := List.forall_mem_cons.mp hlocks
    obtain ⟨hnot, ha⟩ := disciplined_locked.mp ha
    have hlock := hfree i hnot
    have hbody : Performs (size body) (body.map .act)
        (State.enter { s with interrupts := false } i u)
        (run body (State.enter { s with interrupts := false } i u)).2 := by
      refine performs body ha ?_ ?_
      · intro m hm
        rw [State.enter, State.setLock, List.length_set]
        exact hlocks m hm
      · intro j hj
        rw [List.mem_cons, not_or] at hj
        obtain ⟨hne, hj⟩ := hj
        have henter := State.lock_enter (s := { s with interrupts := false }) hi u j
        rw [henter, if_neg hne]
        exact hfree j hj
    have hrun : ((Action.locked i u body).run s).2 =
        ((run body (State.enter { s with interrupts := false } i u)).2.leave i).restore
          s.interrupts := by
      rw [Action.run, hlock]
      rfl
    rw [hrun]
    exact hbody.locked hi hlock

theorem performs (p : List Action) {inside : Bool} {around : List Nat} {s : State}
    (hp : disciplined p inside around = true) (hlocks : ∀ m ∈ updates p, m.1 < s.locks.length)
    (hfree : ∀ i, i ∉ around → (s.lock i).held = false) :
    Performs (size p) (p.map .act) s (run p s).2 := by
  cases p with
  | nil => exact .nil s
  | cons a p =>
    obtain ⟨ha, hp⟩ := disciplined_cons.mp hp
    have hfirst := a.performs ha (fun m hm => hlocks m (List.mem_append_left _ hm)) hfree
    obtain ⟨hlength, hheld⟩ := hfirst.2
    have hrest := performs p (s := (a.run s).2) hp
      (fun m hm => hlength ▸ hlocks m (List.mem_append_right _ hm))
      (fun i hi => (hheld i).trans (hfree i hi))
    exact hfirst.append hrest

end

/-- Executed one instruction at a time and without interrupts, the program ends where it ends
when it is run, whatever the values behind the locks. -/
def EndsAsRun (p : List Action) : Prop :=
  ∀ s : State, (∀ m ∈ updates p, m.1 < s.locks.length) → (∀ i, (s.lock i).held = false) →
    ∃ events, follow increase (List.replicate (size p) .proceed) (start s.shared p) =
      some (⟨(run p s).2.shared, [], []⟩, events)

theorem endsAsRun {p : List Action} (hp : disciplined p false [] = true) : EndsAsRun p := by
  intro s hlocks hfree
  have hreaches := (performs p hp hlocks fun i _ => hfree i).1 [] []
  rwa [List.append_nil] at hreaches

end Supervisor.Critical

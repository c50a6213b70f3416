import Supervisor.Proofs.Machine.Ticking

/-!
# Waiting under interrupts

`Machine.wait` looks at the tick counter and halts in two steps. When interrupts are on in
between, the tick that it waits for can come in there.

- `Waiting`, `Waiting.advance`: the places in `wait`, and what it does from one to the next.
- `Waiting.follow`: a run of it that interrupts come into. `exists_follow_wait` puts `wait`
  together again: it is the run whose interrupts all come while it sleeps.
- `Waiting.Holds`: what is known at each place. `Waiting.holds_advance` and
  `Waiting.holds_interrupt` are the steps, `Waiting.holds_follow` any run.
- `Waiting.Late`: the machine is about to halt, and the counter has reached its goal.
  `wait_interleaved` says when that happens; `oneTick_overslept` is a run in which it does.
-/

namespace Supervisor

namespace Machine

/-- Code that waits for ticks, by what it does next. -/
inductive Waiting where
  /-- It looks at the interrupt flag. -/
  | called
  /-- It looks whether the clock runs. -/
  | flagged (wereOn : Bool)
  /-- It works out what to wait for. -/
  | running (wereOn : Bool)
  /-- It looks at the counter. -/
  | checking (wereOn : Bool) (goal : Nat)
  /-- It switches interrupts on and halts, because the counter was `seen`. -/
  | halting (wereOn : Bool) (goal seen : Nat)
  /-- Nothing, until an interrupt comes in. -/
  | asleep (wereOn : Bool) (goal : Nat)
  /-- It switches interrupts off again if they were. -/
  | leaving (wereOn : Bool)
  /-- It has returned. -/
  | returned

namespace Waiting

/-- What it does next, and where that takes it. -/
def advance (count : Nat) : Waiting → MachineM Waiting
  | called => return flagged (← get).interrupts
  | flagged wereOn => do
    if (← look (·.clock.frequency)) = 0 then
      return leaving wereOn
    return running wereOn
  | running wereOn => return checking wereOn ((← look (·.clock)).target count)
  | checking wereOn goal => do
    let seen ← look (·.clock.ticks)
    if seen < goal then
      return halting wereOn goal seen
    return leaving wereOn
  | halting wereOn goal _ => do
    Board.enable
    return asleep wereOn goal
  | leaving wereOn => do
    if !wereOn then
      Board.disable
    return returned
  | asleep wereOn goal => return asleep wereOn goal
  | returned => return returned

/-- Where an interrupt leaves it. -/
def woken : Waiting → Waiting
  | asleep wereOn goal => checking wereOn goal
  | p => p

/-- What may happen next. -/
inductive Event where
  /-- The code goes on. -/
  | proceed
  /-- The next interrupt from outside comes in. -/
  | interrupt

/-- What happens next. An interrupt comes in if there is one left, interrupts are on, and it is let
in at that place. -/
def step (gate : Waiting → Bool) (count : Nat) : Event → Waiting → MachineM Waiting
  | .proceed, p => p.advance count
  | .interrupt, p => do
    let b ← get
    if b.interrupts = true ∧ gate p = true ∧ b.rest.outside.wakeups ≠ 0 then
      arrive
      return p.woken
    return p

/-- What happens event by event. -/
def follow (gate : Waiting → Bool) (count : Nat) : List Event → Waiting → MachineM Waiting
  | [], p => return p
  | e :: events, p => do follow gate count events (← step gate count e p)

variable {gate : Waiting → Bool} {count goal : Nat} {wereOn : Bool} {p p' : Waiting}
  {b b' c start : Machine}

theorem follow_append (events later : List Event) (p : Waiting) :
    follow gate count (events ++ later) p =
      follow gate count events p >>= follow gate count later := by
  induction events generalizing p with
  | nil => exact (pure_bind p _).symm
  | cons e events ih =>
    simp only [List.cons_append, follow, ih, bind_assoc]

theorem run_follow_append {events later : List Event}
    (h : (follow gate count events p).run b = .ok p' b') :
    (follow gate count (events ++ later) p).run b = (follow gate count later p').run b' := by
  rw [follow_append, run_bind_ok h]

theorem run_step_interrupt (hon : b.interrupts = true) (hgate : gate p = true)
    (hcoming : b.coming ≠ 0) (h : arrive.run b = .ok () b') :
    (step gate count .interrupt p).run b = .ok p.woken b' := by
  rw [step, run_get_bind, if_pos ⟨hon, hgate, hcoming⟩, run_bind_ok h]
  rfl

theorem run_step_checking (gate : Waiting → Bool) (count : Nat) (wereOn : Bool)
    (hlow : b.ticks < goal) :
    (step gate count .proceed (checking wereOn goal)).run b =
      .ok (halting wereOn goal b.ticks) b := by
  rw [step, advance, run_bind_ok (run_look _ b), if_pos hlow]
  rfl

/-! ## A run that is interrupted asleep only -/

/-- Falling asleep some number of times, each time until the next interrupt. -/
def sleeps : Nat → List Event
  | 0 => []
  | n + 1 => .proceed :: .proceed :: .interrupt :: sleeps n

/-- All of `wait`, with a number of sleeps. -/
def whole (n : Nat) : List Event :=
  .proceed :: .proceed :: .proceed :: (sleeps n ++ [.proceed, .proceed])

theorem run_follow_sleep (hgate : gate (asleep wereOn goal) = true) (hlow : b.ticks < goal)
    (hcoming : b.coming ≠ 0) (h : arrive.run (b.resumed true) = .ok () b') (later : List Event) :
    (follow gate count (.proceed :: .proceed :: .interrupt :: later) (checking wereOn goal)).run b =
      (follow gate count later (checking wereOn goal)).run b' := by
  have hhalt : (step gate count .proceed (halting wereOn goal b.ticks)).run b =
      .ok (asleep wereOn goal) (b.resumed true) := rfl
  have hwake : (step gate count .interrupt (asleep wereOn goal)).run (b.resumed true) =
      .ok (checking wereOn goal) b' := run_step_interrupt rfl hgate hcoming h
  rw [follow, run_bind_ok (run_step_checking _ _ _ hlow), follow, run_bind_ok hhalt, follow,
    run_bind_ok hwake]

theorem arrive_of_awaitInterrupt (h : awaitInterrupt.run b = .ok () b') :
    b.coming ≠ 0 ∧ arrive.run (b.resumed true) = .ok () b' := by
  have henable : Board.enable.run b = .ok () (b.resumed true) := rfl
  rw [awaitInterrupt, run_bind_ok henable, run_bind_ok (run_look _ _)] at h
  by_cases hnone : (b.resumed true).rest.gates.isNone = true
  · rw [if_pos hnone] at h
    cases h
  · rw [if_neg hnone] at h
    refine ⟨fun hcoming => ?_, h⟩
    have hzero : (b.resumed true).rest.outside.wakeups = 0 := hcoming
    have hstuck : nextVector.run (b.resumed true) = .error .stuck (b.resumed true) := by
      rw [nextVector, run_bind_ok (run_look _ _), if_pos hzero]
      rfl
    rw [run_bind_error hstuck] at h
    cases h

/-- Sleeping until the counter has reached `low` takes a wait for `goal` a part of its way. -/
theorem exists_follow_sleepUntil {low : Nat} (gate : Waiting → Bool) (count : Nat) (wereOn : Bool)
    (goal : Nat) (hgate : gate (asleep wereOn goal) = true) (hgoal : low ≤ goal) (fuel : Nat)
    (h : (sleepUntil low fuel).run b = .ok () c) :
    ∃ n, (follow gate count (sleeps n) (checking wereOn goal)).run b =
      .ok (checking wereOn goal) c ∧ low ≤ c.ticks := by
  induction fuel generalizing b with
  | zero => cases h
  | succ fuel ih =>
    rw [sleepUntil, run_bind_ok (run_look _ b)] at h
    by_cases hlow : b.ticks < low
    · rw [if_pos hlow] at h
      cases hawait : awaitInterrupt.run b with
      | error e b' =>
        rw [run_bind_error hawait] at h
        cases h
      | ok _ b' =>
        rw [run_bind_ok hawait] at h
        obtain ⟨n, hrun, hreached⟩ := ih h
        obtain ⟨hcoming, harrive⟩ := arrive_of_awaitInterrupt hawait
        refine ⟨n + 1, ?_, hreached⟩
        rw [sleeps, run_follow_sleep hgate (hlow.trans_le hgoal) hcoming harrive, hrun]
    · rw [if_neg hlow] at h
      cases h
      exact ⟨0, rfl, Nat.not_lt.mp hlow⟩

theorem run_follow_leaving
    (h : (if !wereOn then Board.disable else pure () : MachineM Unit).run b = .ok () c)
    (events : List Event) :
    (follow gate count (.proceed :: events) (leaving wereOn)).run b =
      (follow gate count events returned).run c := by
  rw [follow, step, advance]
  cases wereOn with
  | true =>
    cases h
    rfl
  | false =>
    cases h
    rfl

theorem run_follow_unconfigured (hclock : b.rest.clock.frequency = 0) (events : List Event) :
    (follow gate count (.proceed :: .proceed :: events) called).run b =
      (follow gate count events (leaving b.interrupts)).run b := by
  have hcalled : (step gate count .proceed called).run b = .ok (flagged b.interrupts) b := rfl
  have hflagged : (step gate count .proceed (flagged b.interrupts)).run b =
      .ok (leaving b.interrupts) b := by
    rw [step, advance, run_bind_ok (run_look _ b), if_pos hclock]
    rfl
  rw [follow, run_bind_ok hcalled, follow, run_bind_ok hflagged]

theorem run_follow_configured (hclock : b.rest.clock.frequency ≠ 0) (events : List Event) :
    (follow gate count (.proceed :: .proceed :: .proceed :: events) called).run b =
      (follow gate count events (checking b.interrupts (b.rest.clock.target count))).run b := by
  have hcalled : (step gate count .proceed called).run b = .ok (flagged b.interrupts) b := rfl
  have hflagged : (step gate count .proceed (flagged b.interrupts)).run b =
      .ok (running b.interrupts) b := by
    rw [step, advance, run_bind_ok (run_look _ b), if_neg hclock]
    rfl
  have hrunning : (step gate count .proceed (running b.interrupts)).run b =
      .ok (checking b.interrupts (b.rest.clock.target count)) b := rfl
  rw [follow, run_bind_ok hcalled, follow, run_bind_ok hflagged, follow, run_bind_ok hrunning]

theorem run_follow_reached (hreached : goal ≤ b.ticks) (events : List Event) :
    (follow gate count (.proceed :: events) (checking wereOn goal)).run b =
      (follow gate count events (leaving wereOn)).run b := by
  rw [follow, step, advance, bind_assoc, run_bind_ok (run_look _ b),
    if_neg (Nat.not_lt.mpr hreached)]
  rfl

/-- Whenever `wait` returns, it has gone this way. -/
theorem exists_follow_wait (gate : Waiting → Bool)
    (hgate : ∀ wereOn goal, gate (asleep wereOn goal) = true) (h : (wait count).run b = .ok () c) :
    ∃ n, (follow gate count (whole n) called).run b = .ok returned c := by
  have hlook : (look id).run b = .ok b.rest b := run_look id b
  rw [wait, run_get_bind, run_bind_ok hlook] at h
  by_cases hclock : b.rest.clock.frequency = 0
  · rw [if_neg (not_not_intro hclock)] at h
    refine ⟨0, ?_⟩
    exact (run_follow_unconfigured hclock _).trans (run_follow_leaving h _)
  · rw [if_pos hclock] at h
    cases hsleep : (sleepUntil (b.rest.clock.target count) (b.coming + 1)).run b with
    | error e d =>
      rw [run_bind_error hsleep] at h
      cases h
    | ok _ d =>
      rw [run_bind_ok hsleep] at h
      obtain ⟨n, hrun, hreached⟩ := exists_follow_sleepUntil gate count _ _
        (hgate b.interrupts _) le_rfl _ hsleep
      refine ⟨n, ?_⟩
      rw [whole, run_follow_configured hclock, run_follow_append hrun, run_follow_reached hreached]
      exact run_follow_leaving h _

/-! ## What is known at each place -/

/-- Interrupts do not come in between the look at the counter and the halt. -/
def Shut (gate : Waiting → Bool) : Prop :=
  ∀ wereOn goal seen, gate (halting wereOn goal seen) = false

/-- The machine is `b` some time after it was `start`. Every tick that came in was counted. -/
structure Since (start b : Machine) : Prop where
  ticking : Ticking b
  later : start.ticks ≤ b.ticks
  sum : b.ticks + b.coming = start.ticks + start.coming

/-- The code has not switched interrupts on. -/
structure Untouched (start b : Machine) : Prop where
  flag : b.interrupts = start.interrupts
  still : start.interrupts = false → b.ticks = start.ticks

/-- The code waits for `goal`, and the counter was `now`. -/
structure Pending (start : Machine) (count : Nat) (wereOn : Bool) (goal now : Nat) (b : Machine) :
    Prop where
  flag : wereOn = start.interrupts
  stay : start.interrupts = true → b.interrupts = true
  least : start.rest.clock.target count ≤ goal
  most : goal ≤ now + count
  prompt : start.interrupts = false → goal ≤ start.ticks + count

/-- Interrupts that were off at first have let a tick in since they are on. -/
def Opened (start : Machine) (now : Nat) (b : Machine) : Prop :=
  b.interrupts = true → start.interrupts = true ∨ start.ticks < now

/-- What is known at each place of a wait that was called on `start`. -/
def Holds (gate : Waiting → Bool) (start : Machine) (count : Nat) : Waiting → Machine → Prop
  | called, b => Untouched start b
  | flagged wereOn, b | running wereOn, b => wereOn = start.interrupts ∧ Untouched start b
  | checking wereOn goal, b => Pending start count wereOn goal b.ticks b ∧ Opened start b.ticks b
  | halting wereOn goal seen, b =>
    Pending start count wereOn goal seen b ∧ Opened start seen b ∧ seen < goal ∧ seen ≤ b.ticks ∧
      (b.interrupts = false ∨ Shut gate → b.ticks = seen)
  | asleep wereOn goal, b =>
    Pending start count wereOn goal b.ticks b ∧ b.interrupts = true ∧ (Shut gate → b.ticks < goal)
  | leaving wereOn, b =>
    wereOn = start.interrupts ∧ (start.interrupts = true → b.interrupts = true) ∧
      start.rest.clock.target count ≤ b.ticks
  | returned, b => b.interrupts = start.interrupts ∧ start.rest.clock.target count ≤ b.ticks

theorem Since.resumed (h : Since start b) : Since start (b.resumed true) :=
  ⟨{ h.ticking with }, h.later, h.sum⟩

theorem Since.silenced (h : Since start b) : Since start b.silenced :=
  ⟨{ h.ticking with }, h.later, h.sum⟩

theorem Untouched.of_on (h : Untouched start b) (hon : b.interrupts = true)
    (hon' : b'.interrupts = true) : Untouched start b' := by
  have hstart : start.interrupts = true := h.flag.symm.trans hon
  refine ⟨hon'.trans hstart.symm, fun hoff => ?_⟩
  rw [hoff] at hstart
  cases hstart

theorem target_mono (h : start.ticks ≤ b.ticks) :
    start.rest.clock.target count ≤ b.rest.clock.target count :=
  min_le_min_right _ (Nat.add_le_add_right h count)

theorem Pending.mono {now now' : Nat} (h : Pending start count wereOn goal now b)
    (hnow : now ≤ now') (hon : b'.interrupts = true) : Pending start count wereOn goal now' b' :=
  { h with stay := fun _ => hon, most := h.most.trans (Nat.add_le_add_right hnow count) }

/-- The code goes on. -/
theorem holds_advance (hsince : Since start b) (h : p.Holds gate start count b) :
    ∃ p' b', (p.advance count).run b = .ok p' b' ∧ Since start b' ∧
      p'.Holds gate start count b' := by
  cases p with
  | called => exact ⟨flagged b.interrupts, b, rfl, hsince, h.flag, h⟩
  | flagged wereOn =>
    refine ⟨running wereOn, b, ?_, hsince, h⟩
    rw [advance, run_bind_ok (run_look _ b), if_neg hsince.ticking.configured]
    rfl
  | running wereOn =>
    obtain ⟨hflag, huntouched⟩ := h
    refine ⟨checking wereOn (b.rest.clock.target count), b, rfl, hsince,
      ⟨hflag, ?_, ?_, ?_, ?_⟩, ?_⟩
    · exact huntouched.flag.trans
    · exact target_mono hsince.later
    · exact Nat.min_le_left _ _
    · intro hstart
      rw [← huntouched.still hstart]
      exact Nat.min_le_left _ _
    · exact fun hon => .inl (huntouched.flag.symm.trans hon)
  | checking wereOn goal =>
    obtain ⟨hpending, hopened⟩ := h
    by_cases hlow : b.ticks < goal
    · exact ⟨halting wereOn goal b.ticks, b, run_step_checking gate count wereOn hlow, hsince,
        hpending, hopened, hlow, le_rfl, fun _ => rfl⟩
    · refine ⟨leaving wereOn, b, ?_, hsince, hpending.flag, hpending.stay, ?_⟩
      · rw [advance, run_bind_ok (run_look _ b), if_neg hlow]
        rfl
      · exact hpending.least.trans (Nat.not_lt.mp hlow)
  | halting wereOn goal seen =>
    -- what was seen may be out of date by now, unless nothing can come in here
    obtain ⟨hpending, -, hlow, hseen, hshut⟩ := h
    refine ⟨asleep wereOn goal, b.resumed true, rfl, hsince.resumed, hpending.mono hseen rfl, rfl,
      fun h => ?_⟩
    exact (hshut (.inr h)).trans_lt hlow
  | asleep wereOn goal => exact ⟨asleep wereOn goal, b, rfl, hsince, h⟩
  | leaving wereOn =>
    obtain ⟨hflag, hstay, hreached⟩ := h
    cases wereOn with
    | true => exact ⟨returned, b, rfl, hsince, (hstay hflag.symm).trans hflag, hreached⟩
    | false => exact ⟨returned, b.silenced, rfl, hsince.silenced, hflag, hreached⟩
  | returned => exact ⟨returned, b, rfl, hsince, h⟩

/-- The next interrupt comes in, or has to wait. -/
theorem holds_interrupt (hsince : Since start b) (h : p.Holds gate start count b) :
    ∃ p' b', (step gate count .interrupt p).run b = .ok p' b' ∧ Since start b' ∧
      p'.Holds gate start count b' := by
  by_cases hin : b.interrupts = true ∧ gate p = true ∧ b.coming ≠ 0
  · obtain ⟨hon, hgate, hcoming⟩ := hin
    obtain ⟨b', hrun, hticking, hon', htick, hsum⟩ := exists_run_arrive hsince.ticking hcoming
    have hmore : b.ticks ≤ b'.ticks := htick ▸ Nat.le_succ _
    refine ⟨p.woken, b', run_step_interrupt hon hgate hcoming hrun,
      ⟨hticking, hsince.later.trans hmore, hsum.trans hsince.sum⟩, ?_⟩
    cases p with
    | called => exact h.of_on hon hon'
    | flagged wereOn => exact ⟨h.1, h.2.of_on hon hon'⟩
    | running wereOn => exact ⟨h.1, h.2.of_on hon hon'⟩
    | checking wereOn goal =>
      obtain ⟨hpending, hopened⟩ := h
      refine ⟨hpending.mono hmore hon', fun _ => ?_⟩
      exact (hopened hon).imp_right (Nat.lt_of_lt_of_le · hmore)
    | halting wereOn goal seen =>
      obtain ⟨hpending, hopened, hlow, hseen, -⟩ := h
      refine ⟨hpending.mono le_rfl hon', fun _ => hopened hon, hlow, hseen.trans hmore, ?_⟩
      rintro (hoff | hshut)
      · rw [hon'] at hoff
        cases hoff
      · rw [hshut] at hgate
        cases hgate
    | asleep wereOn goal =>
      -- interrupts may have been on for this sleep only, and this is the tick that they let in
      obtain ⟨hpending, -, -⟩ := h
      refine ⟨hpending.mono hmore hon', fun _ => .inr ?_⟩
      exact htick ▸ Nat.lt_succ_of_le hsince.later
    | leaving wereOn =>
      obtain ⟨hflag, -, hreached⟩ := h
      exact ⟨hflag, fun _ => hon', hreached.trans hmore⟩
    | returned =>
      obtain ⟨hflag, hreached⟩ := h
      exact ⟨hon'.trans (hon.symm.trans hflag), hreached.trans hmore⟩
  · refine ⟨p, b, ?_, hsince, h⟩
    rw [step, run_get_bind, if_neg hin]
    rfl

theorem holds_step (e : Event) (hsince : Since start b) (h : p.Holds gate start count b) :
    ∃ p' b', (step gate count e p).run b = .ok p' b' ∧ Since start b' ∧
      p'.Holds gate start count b' := by
  cases e with
  | proceed => exact holds_advance hsince h
  | interrupt => exact holds_interrupt hsince h

/-- Every run comes to some place, and what is known there holds. -/
theorem holds_follow (events : List Event) (hsince : Since start b)
    (h : p.Holds gate start count b) :
    ∃ p' b', (follow gate count events p).run b = .ok p' b' ∧ Since start b' ∧
      p'.Holds gate start count b' := by
  induction events generalizing p b with
  | nil => exact ⟨p, b, rfl, hsince, h⟩
  | cons e events ih =>
    obtain ⟨p₁, b₁, hstep, hsince₁, h₁⟩ := holds_step e hsince h
    obtain ⟨p', b', hrun, hend⟩ := ih hsince₁ h₁
    exact ⟨p', b', (run_bind_ok hstep _).trans hrun, hend⟩

/-! ## Halting too late -/

/-- The machine is about to halt, and the counter has reached the goal. -/
def Late (p : Waiting) (b : Machine) : Prop :=
  ∃ wereOn goal seen, p = halting wereOn goal seen ∧ goal ≤ b.ticks

theorem Holds.late (h : p.Holds gate start count b) (hlate : Late p b) :
    ¬ Shut gate ∧ 0 < count ∧ (start.interrupts = true ∨ 1 < count) := by
  obtain ⟨wereOn, goal, seen, rfl, hreached⟩ := hlate
  obtain ⟨hpending, hopened, hlow, -, hshut⟩ := h
  have hticks : b.ticks ≠ seen := by omega
  have hon : b.interrupts = true := by
    by_contra hoff
    exact hticks (hshut (.inl (Bool.eq_false_iff.mpr hoff)))
  have hmost := hpending.most
  refine ⟨fun h => hticks (hshut (.inr h)), by omega, ?_⟩
  cases hstart : start.interrupts with
  | true => exact .inl rfl
  | false =>
    have hprompt := hpending.prompt hstart
    rcases hopened hon with hstart' | hlater
    · rw [hstart] at hstart'
      cases hstart'
    · exact .inr (by omega)

/-! ## Runs that come to an end -/

theorem exists_run_awaitInterrupt (h : Ticking b) (hcoming : b.coming ≠ 0) :
    ∃ b' : Machine, awaitInterrupt.run b = .ok () b' ∧ Ticking b' ∧ b'.interrupts = true ∧
      b'.ticks = b.ticks + 1 ∧ b'.ticks + b'.coming = b.ticks + b.coming := by
  have hresumed : Ticking (b.resumed true) := { h with }
  obtain ⟨b', hrun, hend⟩ := exists_run_arrive hresumed hcoming
  refine ⟨b', ?_, hend⟩
  have henable : Board.enable.run b = .ok () (b.resumed true) := rfl
  rw [awaitInterrupt, run_bind_ok henable, run_bind_ok (run_look _ _), hresumed.table]
  exact hrun

theorem exists_run_sleepUntil (goal : Nat) (h : Ticking b)
    (hgoal : goal ≤ b.ticks + b.coming) (fuel : Nat) (hfuel : goal - b.ticks < fuel) :
    ∃ c : Machine, (sleepUntil goal fuel).run b = .ok () c ∧ Ticking c ∧
      c.ticks = max goal b.ticks ∧ c.ticks + c.coming = b.ticks + b.coming ∧
      (b.interrupts = true ∨ b.ticks < goal → c.interrupts = true) := by
  induction fuel generalizing b with
  | zero => cases hfuel
  | succ fuel ih =>
    rw [sleepUntil, run_bind_ok (run_look _ b)]
    by_cases hlow : b.ticks < goal
    · obtain ⟨b', hawait, hticking, hon, htick, hsum⟩ :=
        exists_run_awaitInterrupt h (show b.coming ≠ 0 by omega)
      obtain ⟨c, hrun, hc, hmax, hsum', hon'⟩ := ih hticking (by omega) (by omega)
      refine ⟨c, ?_, hc, by omega, by omega, fun _ => hon' (.inl hon)⟩
      rw [if_pos hlow, run_bind_ok hawait, hrun]
    · refine ⟨b, ?_, h, by omega, rfl, fun hon => hon.resolve_right hlow⟩
      rw [if_neg hlow]
      rfl

theorem target_eq (h : Ticking b) (hcount : count ≤ b.coming) :
    b.rest.clock.target count = b.ticks + count := by
  have hroom : b.ticks + b.coming < wordLimit := h.room
  have hword : b.ticks + count ≤ wordLimit - 1 := by omega
  exact min_eq_left hword

/-- If enough ticks come, and only while it sleeps, `wait` returns at the one that it waits for. -/
theorem exists_run_wait (h : Ticking b) (hcount : count ≤ b.coming) :
    ∃ c : Machine, (wait count).run b = .ok () c ∧ c.ticks = b.ticks + count := by
  have htarget := target_eq h hcount
  obtain ⟨d, hsleep, -, hticks, -, -⟩ := exists_run_sleepUntil (b.rest.clock.target count) h
    (by omega) (b.coming + 1) (by omega)
  have hreached : d.ticks = b.ticks + count := by omega
  have hlook : (look id).run b = .ok b.rest b := run_look id b
  rw [wait, run_get_bind, run_bind_ok hlook, if_pos h.configured, run_bind_ok hsleep]
  cases b.interrupts with
  | true => exact ⟨d, rfl, hreached⟩
  | false => exact ⟨d.silenced, rfl, hreached⟩

/-- A tick that comes in between the look at the counter and the halt, after the others have come
in asleep. -/
theorem exists_follow_late (h : Ticking b) (hcoming : count ≤ b.coming) (hcount : 0 < count)
    (hexposed : b.interrupts = true ∨ 1 < count) :
    ∃ events p c, (follow (fun _ => true) count events called).run b = .ok p c ∧ Late p c := by
  obtain ⟨n, rfl⟩ : ∃ n, count = n + 1 := ⟨count - 1, by omega⟩
  have htarget := target_eq h hcoming
  obtain ⟨c, hsleep, hc, hticks, hsum, hon⟩ := exists_run_sleepUntil (b.ticks + n) h
    (by omega) (n + 1) (by omega)
  obtain ⟨m, hrun, -⟩ := exists_follow_sleepUntil (fun _ => true) (n + 1) b.interrupts
    (b.rest.clock.target (n + 1)) rfl (by omega) (n + 1) hsleep
  have hlow : c.ticks < b.rest.clock.target (n + 1) := by omega
  obtain ⟨c', harrive, -, -, htick, -⟩ := exists_run_arrive hc (show c.coming ≠ 0 by omega)
  have hin : (step (fun _ => true) (n + 1) .interrupt
      (halting b.interrupts (b.rest.clock.target (n + 1)) c.ticks)).run c =
      .ok (halting b.interrupts (b.rest.clock.target (n + 1)) c.ticks) c' :=
    run_step_interrupt (hon (hexposed.imp_right (by omega))) rfl (by omega) harrive
  refine ⟨.proceed :: .proceed :: .proceed :: (sleeps m ++ [.proceed, .interrupt]), _, c', ?_,
    b.interrupts, b.rest.clock.target (n + 1), c.ticks, rfl, by omega⟩
  rw [run_follow_configured h.configured, run_follow_append hrun, follow,
    run_bind_ok (run_step_checking _ _ _ hlow), follow, run_bind_ok hin]
  rfl

end Waiting

open Waiting

/-- Waiting for `count` ticks on a machine that ticks.
1. Wherever interrupts come in, every tick is counted. Whoever is about to halt has seen the counter
   below the goal, and it is still there unless interrupts are on. Whoever has returned has waited
   long enough, and the interrupt flag is as before.
2. If no tick comes in between the look at the counter and the halt, no halt is too late, and no
   tick but the last of a sleep reaches the goal.
3. If enough ticks come, `wait` returns at the one that it waits for, when they come in asleep.
4. If enough ticks come, and may come in anywhere, a halt can be too late: in every wait for two
   ticks or more, and in one for a single tick that begins with interrupts on. -/
theorem wait_interleaved (count : Nat) (b : Machine) (hticking : Ticking b) :
    (∀ gate events, ∃ (p : Waiting) (b' : Machine),
      (follow gate count events called).run b = .ok p b' ∧
      b'.ticks + b'.coming = b.ticks + b.coming ∧
      (∀ wereOn goal seen, p = halting wereOn goal seen →
        seen < goal ∧ seen ≤ b'.ticks ∧ (b'.interrupts = false → b'.ticks = seen)) ∧
      (p = returned → b.rest.clock.target count ≤ b'.ticks ∧ b'.interrupts = b.interrupts) ∧
      (Shut gate → ¬ Late p b' ∧ ∀ wereOn goal, p = asleep wereOn goal → b'.ticks < goal)) ∧
    (count ≤ b.coming →
      (∃ c : Machine, (wait count).run b = .ok () c ∧ c.ticks = b.ticks + count ∧
        c.interrupts = b.interrupts ∧ ∀ gate, (∀ wereOn goal, gate (asleep wereOn goal) = true) →
          ∃ n, (follow gate count (whole n) called).run b = .ok returned c) ∧
      ((∃ events p b', (follow (fun _ => true) count events called).run b = .ok p b' ∧ Late p b') ↔
        0 < count ∧ (b.interrupts = true ∨ 1 < count))) := by
  have hsince : Since b b := ⟨hticking, le_rfl, rfl⟩
  have hcalled (gate : Waiting → Bool) : called.Holds gate b count b := ⟨rfl, fun _ => rfl⟩
  refine ⟨fun gate events => ?_, fun hcoming => ⟨?_, ?_, ?_⟩⟩
  · obtain ⟨p, b', hrun, hsince', h⟩ := holds_follow events hsince (hcalled gate)
    refine ⟨p, b', hrun, hsince'.sum, ?_, ?_, fun hshut => ⟨?_, ?_⟩⟩
    · rintro wereOn goal seen rfl
      obtain ⟨-, -, hlow, hseen, hstill⟩ := h
      exact ⟨hlow, hseen, fun hoff => hstill (.inl hoff)⟩
    · rintro rfl
      exact ⟨h.2, h.1⟩
    · intro hlate
      exact (h.late hlate).1 hshut
    · rintro wereOn goal rfl
      exact h.2.2 hshut
  · obtain ⟨c, hrun, hticks⟩ := exists_run_wait hticking hcoming
    refine ⟨c, hrun, hticks, ?_, fun gate hgate => exists_follow_wait gate hgate hrun⟩
    obtain ⟨n, hfollow⟩ := exists_follow_wait (fun _ => true) (fun _ _ => rfl) hrun
    obtain ⟨p, b', hrun', -, h⟩ := holds_follow (whole n) hsince (hcalled fun _ => true)
    rw [hfollow] at hrun'
    cases hrun'
    exact h.1
  · rintro ⟨events, p, b', hrun, hlate⟩
    obtain ⟨p', c, hrun', -, h⟩ := holds_follow events hsince (hcalled fun _ => true)
    rw [hrun] at hrun'
    cases hrun'
    exact (h.late hlate).2
  · rintro ⟨hcount, hexposed⟩
    exact exists_follow_late hticking hcoming hcount hexposed

/-- A machine with interrupts on, and two ticks to come. -/
def ticker : Machine where
  interrupts := true
  handlers := fun vector => if vector = 0x20 then some .tick else none
  rest :=
    { image := default
      tables := { idt := some (.ofStubs 0x101000), idtr := some ⟨0, 4095⟩ }
      clock := { frequency := 100 }
      outside := { wakeups := 2 } }

theorem ticking_ticker : Ticking ticker :=
  ⟨rfl, rfl, rfl, List.not_mem_nil, List.not_mem_nil, rfl, rfl, by decide, by decide⟩

/-- Two ticks are waited for with interrupts on. A wait for one that begins with interrupts off
never halts too late. -/
theorem ticker_waits :
    let quiet : Machine := { ticker with interrupts := false }
    (∃ c : Machine, (wait 2).run ticker = .ok () c ∧ c.ticks = 2 ∧ c.interrupts = true) ∧
    ∀ events p b', (follow (fun _ => true) 1 events called).run quiet = .ok p b' → ¬ Late p b' := by
  intro quiet
  have hquiet : Ticking quiet := { ticking_ticker with }
  obtain ⟨-, hwait⟩ := wait_interleaved 2 ticker ticking_ticker
  obtain ⟨⟨c, hrun, hticks, hflag, -⟩, -⟩ := hwait le_rfl
  refine ⟨⟨c, hrun, hticks, hflag⟩, fun events p b' hfollow hlate => ?_⟩
  obtain ⟨-, hwait⟩ := wait_interleaved 1 quiet hquiet
  obtain ⟨-, hexposed⟩ := (hwait (by decide)).2.mp ⟨events, p, b', hfollow, hlate⟩
  exact hexposed.elim nofun nofun

/-- One tick is waited for, and it comes in before the halt. The machine halts all the same, and
returns with the next tick. -/
theorem oneTick_overslept :
    let halts : List Event := [.proceed, .proceed, .proceed, .proceed, .interrupt]
    let wakes : List Event := [.proceed, .interrupt, .proceed, .proceed]
    ∃ b c : Machine,
      (follow (fun _ => true) 1 halts called).run ticker = .ok (halting true 1 0) b ∧ b.ticks = 1 ∧
      Late (halting true 1 0) b ∧
      (follow (fun _ => true) 1 wakes (halting true 1 0)).run b = .ok returned c ∧ c.ticks = 2 := by
  intro halts wakes
  exact ⟨_, _, rfl, rfl, ⟨true, 1, 0, rfl, le_rfl⟩, rfl, rfl⟩

end Machine

end Supervisor

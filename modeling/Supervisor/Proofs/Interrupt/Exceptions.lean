import Supervisor.Proofs.Interrupt.Delivery

/-!
# Exceptions

An exception may come at any time, within a section that holds a lock and has interrupts off
too. So routing one must not wait for a lock, and must not change what the interrupted code
relies on.

- `Board.verdict_cases`: the rule for exceptions, read backwards. One that nobody handles
  (`Board.Fatal`) comes back from routing, and nothing else happens (`Board.run_route_fatal`). In
  the other cases nothing happens at all (`Board.run_route_swallow`), or a handler runs
  (`Board.run_route_handle`).
- `Board.routeInPlace`: routing with the frame where it is, for handlers to change. It is
  routing otherwise (`Board.run_routeInPlace`).
- `Board.Treated`: what becomes of an exception, by its class and by whether there is a handler.
  `Board.exception_treated` says that this is what routing does on every board.
-/

namespace Supervisor

namespace Board

variable {η ω : Type}

/-! ## By the verdict -/

section Verdicts

variable {b : Board η ω} {f : Frame}

/-- Nobody handles what `f` stands for: it is an exception, and it is never survived, or its
handler is missing. -/
def Fatal (b : Board η ω) (f : Frame) : Prop :=
  f.number.toNat < exceptionCount ∧ verdict f.number (b.handlers f.number) = .fatal

/-- The rule for exceptions, read backwards. -/
theorem verdict_cases (vector : UInt8) (handler : Option η) :
    ((Severity.of vector = .fatal ∨ Severity.of vector = .recoverable ∧ handler = none) ∧
      verdict vector handler = .fatal) ∨
    (Severity.of vector = .benign ∧ handler = none ∧ verdict vector handler = .swallow) ∨
    ∃ h, Severity.of vector ≠ .fatal ∧ handler = some h ∧ verdict vector handler = .handle h := by
  unfold verdict
  cases hclass : Severity.of vector with
  | fatal => exact .inl ⟨.inl rfl, rfl⟩
  | recoverable =>
    cases handler with
    | none => exact .inl ⟨.inr ⟨rfl, rfl⟩, rfl⟩
    | some h => exact .inr (.inr ⟨h, Severity.noConfusion, rfl, rfl⟩)
  | benign =>
    cases handler with
    | none => exact .inr (.inl ⟨rfl, rfl, rfl⟩)
    | some h => exact .inr (.inr ⟨h, Severity.noConfusion, rfl, rfl⟩)

/-- The verdict about an exception is the one that the whole table would give. -/
theorem exists_run_exceptionHandler (vector : UInt8) (b : Board η ω) :
    ∃ handler, (exceptionHandler vector : BoardM η ω (Option η)).run b = .ok handler b ∧
      verdict vector handler = verdict vector (b.handlers vector) := by
  rw [exceptionHandler]
  cases h : Severity.of vector with
  | fatal =>
    refine ⟨none, rfl, ?_⟩
    simp only [verdict, h]
  | recoverable => exact ⟨b.handlers vector, rfl, rfl⟩
  | benign => exact ⟨b.handlers vector, rfl, rfl⟩

/-- A fatal exception comes back from routing, and nothing else happens. -/
theorem run_route_fatal (behave : Behaviour η ω) (h : b.Fatal f) :
    (route behave f).run b = .ok (.error (.ofFrame f)) b := by
  obtain ⟨handler, hrun, hverdict⟩ := exists_run_exceptionHandler f.number b
  rw [route, if_pos h.1, routeException, run_bind_ok hrun, hverdict, h.2]
  rfl

/-- Of an exception that may be ignored, nothing is noticed. -/
theorem run_route_swallow (behave : Behaviour η ω) (hvector : f.number.toNat < exceptionCount)
    (h : verdict f.number (b.handlers f.number) = .swallow) :
    (route behave f).run b = .ok (.ok f) b := by
  obtain ⟨handler, hrun, hverdict⟩ := exists_run_exceptionHandler f.number b
  rw [route, if_pos hvector, routeException, run_bind_ok hrun, hverdict, h]
  rfl

/-- An exception that a handler may take goes to it. -/
theorem run_route_handle (behave : Behaviour η ω) {handler : η}
    (hvector : f.number.toNat < exceptionCount)
    (h : verdict f.number (b.handlers f.number) = .handle handler) :
    (route behave f).run b = (.ok <$> behave handler f).run b := by
  obtain ⟨handler', hrun, hverdict⟩ := exists_run_exceptionHandler f.number b
  rw [route, if_pos hvector, routeException, run_bind_ok hrun, hverdict, h]

end Verdicts

/-! ## The frame in place -/

section InPlace

/-- Routing that works on the frame where it is. -/
abbrev InPlaceM (η ω α : Type) := StateT Frame (BoardM η ω) α

/-- Runs a handler, if there is one, on the frame where it is. -/
def handleInPlace (behave : Behaviour η ω) : Option η → InPlaceM η ω Unit
  | some h => do set (← behave h (← get))
  | none => return

/-- Routes an exception in place. -/
def routeExceptionInPlace (behave : Behaviour η ω) (vector : UInt8) :
    InPlaceM η ω (Except Unhandled Unit) := do
  match verdict vector (← (exceptionHandler vector : BoardM η ω _)) with
  | .handle h => handleInPlace behave (some h); return .ok ()
  | .swallow => return .ok ()
  | .fatal => return .error ⟨vector, exceptionName vector, (← get).errorCode, (← get).rip⟩

/-- Routes an interrupt that came in on a line of the controller, in place. -/
def routeLineInPlace (behave : Behaviour η ω) (vector line : UInt8) : InPlaceM η ω Unit := do
  if ← (withPic fun _ => Pic.dismissSpurious line : BoardM η ω _) then
    return
  handleInPlace behave ((← (get : BoardM η ω _)).handlers vector)
  (withPic fun _ => Pic.acknowledge line : BoardM η ω _)

/-- Routes one delivery in place. The vector is read once, before a handler may change it. -/
def routeInPlace (behave : Behaviour η ω) : InPlaceM η ω (Except Unhandled Unit) := do
  let vector := (← get).number
  if vector.toNat < exceptionCount then
    routeExceptionInPlace behave vector
  else
    match ← (withPic fun pic => return pic.lineOf vector : BoardM η ω _) with
    | some line => routeLineInPlace behave vector line
    | none => handleInPlace behave ((← (get : BoardM η ω _)).handlers vector)
    return .ok ()

/-- What an answer of routing says about the frame: it is the one in the answer, or else it is
as it was. -/
def inPlace (f : Frame) : Except Unhandled Frame → Except Unhandled Unit × Frame
  | .ok f' => (.ok (), f')
  | .error e => (.error e, f)

variable (behave : Behaviour η ω) (f : Frame)

theorem run_handleInPlace (handler : Option η) :
    (handleInPlace behave handler).run f = ((), ·) <$> handle behave handler f := by
  cases handler with
  | some h => simp [handleInPlace, handle]
  | none => simp [handleInPlace, handle]

theorem run_routeExceptionInPlace :
    (routeExceptionInPlace behave f.number).run f = inPlace f <$> routeException behave f := by
  simp only [routeExceptionInPlace, routeException, map_bind, StateT.run_bind,
    StateT.run_monadLift, monadLift_self, bind_assoc, pure_bind]
  refine bind_congr fun handler => ?_
  cases verdict f.number handler with
  | fatal => simp [inPlace, Unhandled.ofFrame]
  | swallow => simp [inPlace]
  | handle h => simp [run_handleInPlace, handle, inPlace]

theorem run_routeLineInPlace (line : UInt8) :
    (routeLineInPlace behave f.number line).run f = ((), ·) <$> routeLine behave line f := by
  simp only [routeLineInPlace, routeLine, map_bind, StateT.run_bind, StateT.run_monadLift,
    monadLift_self, bind_assoc, pure_bind]
  refine bind_congr fun phantom => ?_
  cases phantom with
  | true => simp
  | false =>
    simp only [Bool.false_eq_true, ↓reduceIte, StateT.run_bind, StateT.run_monadLift,
      monadLift_self, bind_pure_comp, run_handleInPlace, bind_map_left, map_bind, Functor.map_map]

/-- Whether the frame stays in place or is handed on, routing is the same. -/
theorem run_routeInPlace : (routeInPlace behave).run f = inPlace f <$> route behave f := by
  rw [routeInPlace, route]
  simp only [StateT.run_bind, StateT.run_get, pure_bind]
  by_cases hvector : f.number.toNat < exceptionCount
  · rw [if_pos hvector, if_pos hvector, run_routeExceptionInPlace]
  · rw [if_neg hvector, if_neg hvector]
    simp only [map_bind, StateT.run_bind, StateT.run_monadLift, monadLift_self, bind_assoc,
      pure_bind]
    refine bind_congr fun line => ?_
    cases line with
    | some line => simp [run_routeLineInPlace, inPlace]
    | none =>
      simp only [StateT.run_bind, StateT.run_monadLift, StateT.run_map, monadLift_self,
        bind_pure_comp, run_handleInPlace, bind_map_left, map_bind, Functor.map_map, inPlace]

end InPlace

/-! ## What becomes of an exception -/

/-- What routing the exception `f` on the board `b` has to come to: an answer, the frame in
place, and the board with the calls of handlers that were noted.
1. An exception that is never survived is reported as it is in the frame, and so is one that
   may be survived, if there is no handler. Nothing was touched.
2. Nothing at all comes of one that may be ignored, if there is no handler.
3. In the other cases the handler runs once, on the board and the frame as they are. When it
   returns, nothing is left to do.
4. A handler may not return. -/
inductive Treated (behave : Behaviour η ω) (b : Board η (ω × List (Visit η))) (f : Frame) :
    EStateM.Result Stop (Board η (ω × List (Visit η))) (Except Unhandled Unit × Frame) → Prop
  | reported : (Severity.of f.number = .fatal ∨
      Severity.of f.number = .recoverable ∧ b.handlers f.number = none) →
    Treated behave b f
      (.ok (.error ⟨f.number, exceptionName f.number, f.errorCode, f.rip⟩, f) b)
  | ignored : Severity.of f.number = .benign → b.handlers f.number = none →
    Treated behave b f (.ok (.ok (), f) b)
  | returned {h : η} {f' : Frame} {b' : Board η ω} : Severity.of f.number ≠ .fatal →
    b.handlers f.number = some h → (behave h f).run (b.withRest b.rest.1) = .ok f' b' →
    Treated behave b f (.ok (.ok (), f') (b'.withRest (b'.rest, b.rest.2 ++
      [⟨h, f, b.interrupts, b.accesses.length, b'.accesses.length⟩])))
  | stopped {h : η} {e : Stop} {b' : Board η ω} : Severity.of f.number ≠ .fatal →
    b.handlers f.number = some h → (behave h f).run (b.withRest b.rest.1) = .error e b' →
    Treated behave b f (.error e (b'.withRest (b'.rest, b.rest.2)))

section Treatment

variable {behave : Behaviour η ω} {b : Board η (ω × List (Visit η))} {f : Frame} {h : η}

/-- A handler that does not return is not noted. -/
theorem run_watched_error {e : Stop} {b' : Board η ω}
    (hrun : (behave h f).run (b.withRest b.rest.1) = .error e b') :
    (watched behave h f).run b = .error e (b'.withRest (b'.rest, b.rest.2)) := by
  rw [EStateM.run, watched, hrun]

/-- An exception with a handler that it may go to. -/
theorem treated_of_handler (hvector : f.number.toNat < exceptionCount)
    (hclass : Severity.of f.number ≠ .fatal) (hhandler : b.handlers f.number = some h)
    (hverdict : verdict f.number (b.handlers f.number) = .handle h) :
    Treated behave b f ((inPlace f <$> route (watched behave) f).run b) := by
  have hroute := run_route_handle (watched behave) hvector hverdict
  cases hbehave : (behave h f).run (b.withRest b.rest.1) with
  | ok f' b' =>
    rw [run_map_ok (run_watched hbehave)] at hroute
    rw [run_map_ok hroute]
    exact .returned hclass hhandler hbehave
  | error e b' =>
    rw [← bind_pure_comp, run_bind_error (run_watched_error hbehave)] at hroute
    rw [← bind_pure_comp, run_bind_error hroute]
    exact .stopped hclass hhandler hbehave

theorem treated (hvector : f.number.toNat < exceptionCount) :
    Treated behave b f ((inPlace f <$> route (watched behave) f).run b) := by
  rcases verdict_cases f.number (b.handlers f.number) with
    ⟨hclass, hverdict⟩ | ⟨hclass, hnone, hverdict⟩ | ⟨h, hclass, hhandler, hverdict⟩
  · rw [run_map_ok (run_route_fatal _ ⟨hvector, hverdict⟩)]
    exact .reported hclass
  · rw [run_map_ok (run_route_swallow _ hvector hverdict)]
    exact .ignored hclass hnone
  · exact treated_of_handler hvector hclass hhandler hverdict

/-- What becomes of an exception is settled by its class and by whether there is a handler for
it. This is so on every board: whatever locks are held, of which taking any would be a deadlock,
whatever the devices are in the middle of, and with interrupts on or off. -/
theorem exception_treated (behave : Behaviour η ω) (b : Board η (ω × List (Visit η)))
    (hvector : f.number.toNat < exceptionCount) :
    Treated behave b f (((routeInPlace (watched behave)).run f).run b) ∧
      (routeInPlace (watched behave)).run f = inPlace f <$> route (watched behave) f := by
  have hrun := run_routeInPlace (watched behave) f
  exact ⟨hrun ▸ treated hvector, hrun⟩

end Treatment

/-- A handler that goes on behind the instruction. -/
def skip (_ : Bool) (f : Frame) : BoardM Bool Unit Frame :=
  return { f with rip := f.rip + 2 }

/-- A section that holds the locks of the interrupt controller and of the console, though
interrupts are on, with handlers for all vectors but that of the breakpoint. -/
def lockedSection : Board Bool (Unit × List (Visit Bool)) :=
  { interrupts := true
    handlers := fun vector => if vector = 3 then none else some true
    held := [.pic, .console]
    rest := ((), []) }

/-- An exception that cannot be held off. Of the vector, only the low byte counts. -/
abbrev nmi : Frame :=
  { vector := 0x102, errorCode := 0x18, rip := 0x101300 }

/-- In the section, the handler for the first exception is not asked, the second one is ignored,
and the third one is handled. -/
theorem lockedSection_treated :
    let run (f : Frame) := ((routeInPlace (watched skip)).run f).run lockedSection
    let breakpoint : Frame := { vector := 3, rip := 0x101300 }
    let pageFault : Frame := { vector := 14, rip := 0x101300 }
    (∀ f ∈ [nmi, breakpoint, pageFault], f.number.toNat < exceptionCount ∧
      Treated skip lockedSection f (run f)) ∧
    run nmi = .ok (.error ⟨2, "NMI - Non-Maskable Interrupt", 0x18, 0x101300⟩, nmi)
      lockedSection ∧
    run breakpoint = .ok (.ok (), breakpoint) lockedSection ∧
    run pageFault = .ok (.ok (), { pageFault with rip := 0x101302 })
      { lockedSection with rest := ((), [⟨true, pageFault, true, 0, 0⟩]) } := by
  intro run breakpoint pageFault
  refine ⟨fun f hf => ?_, rfl, rfl, rfl⟩
  have hvector : f.number.toNat < exceptionCount := by
    revert f
    decide
  exact ⟨hvector, (exception_treated skip lockedSection hvector).1⟩

end Board

end Supervisor

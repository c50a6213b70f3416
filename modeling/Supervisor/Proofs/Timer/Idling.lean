import Mathlib.Algebra.BigOperators.Group.Finset.Basic
import Supervisor.Proofs.Run
import Supervisor.Timer.Clock

/-!
# How long a wait idles

While a clock waits, it counts nothing itself: ticks happen in the calls of `idle`, any number of
them in each. The loop looks at the counter before every call, so it makes exactly the calls that
leave the counter short of the goal, and none more.

- `Clock.run_tick`, `Clock.exists_run_advance`: ticks, as long as the counter has room for them.
- `Clock.counted`, `Clock.after`: the counter and the clock once some calls were made.
- `Clock.run_idleUntil_step` is one round of the loop, and `Clock.run_idleUntil_steps` all rounds
  that leave the goal ahead. A wait with any larger allowance of calls goes the same way, so one
  that no allowance is enough for does not return.
- `Clock.waitFor_least` is the main statement.
-/

namespace Supervisor

namespace Clock

open Finset (range sum_range_succ)

variable {c : Clock} {burst : Nat → Nat} {goal : Nat}

/-! ## Ticks -/

theorem run_tick (hroom : c.ticks + 1 < wordLimit) :
    tick.run c = .ok (c.ticks + 1) { c with ticks := c.ticks + 1 } := by
  rw [tick, run_get_bind, run_modify_bind, Checked.add_eq_ok hroom, run_lift_ok,
    Nat.mod_eq_of_lt hroom]

theorem exists_run_advance (last : Nat) {n : Nat} (hroom : c.ticks + n < wordLimit) :
    ∃ v, (advance last n).run c = .ok v { c with ticks := c.ticks + n } := by
  induction n generalizing c last with
  | zero => exact ⟨last, rfl⟩
  | succ n ih =>
    have hsum : c.ticks + 1 + n = c.ticks + (n + 1) := by omega
    obtain ⟨v, hrest⟩ := ih (c := { c with ticks := c.ticks + 1 }) (c.ticks + 1) (hsum ▸ hroom)
    refine ⟨v, ?_⟩
    rw [advance, run_bind_ok (run_tick (by omega)), hrest]
    simp only [hsum]

/-! ## The loop -/

/-- An `idle` whose calls bring the given numbers of ticks. -/
def bursts (burst : Nat → Nat) (calls : Nat) : EStateM Fault Clock Unit :=
  discard (advance 0 (burst calls))

/-- The counter once `idle` was called a number of times. -/
def counted (c : Clock) (burst : Nat → Nat) (calls : Nat) : Nat :=
  c.ticks + ∑ i ∈ range calls, burst i

/-- The clock once `idle` was called a number of times. -/
def after (c : Clock) (burst : Nat → Nat) (calls : Nat) : Clock :=
  { c with ticks := c.counted burst calls }

theorem after_zero (c : Clock) (burst : Nat → Nat) : c.after burst 0 = c := rfl

theorem counted_succ (c : Clock) (burst : Nat → Nat) (calls : Nat) :
    c.counted burst (calls + 1) = c.counted burst calls + burst calls := by
  rw [counted, sum_range_succ, ← Nat.add_assoc, counted]

theorem run_bursts {calls : Nat} (hroom : c.counted burst (calls + 1) < wordLimit) :
    (bursts burst calls).run (c.after burst calls) = .ok () (c.after burst (calls + 1)) := by
  rw [counted_succ] at hroom
  obtain ⟨v, hrun⟩ := exists_run_advance (c := c.after burst calls) 0 hroom
  rw [bursts, run_discard_ok hrun, after, after, counted_succ]

/-- The look at the counter in front of each call. -/
theorem run_idleUntil_reached {calls : Nat} (hreached : goal ≤ c.counted burst calls)
    (fuel : Nat) :
    (idleUntil (bursts burst) goal fuel calls).run (c.after burst calls) =
      .ok (true, calls) (c.after burst calls) := by
  cases fuel with
  | zero =>
    rw [idleUntil, run_get_bind, after, decide_eq_true hreached]
    rfl
  | succ fuel =>
    rw [idleUntil, run_get_bind, after, if_pos hreached]
    rfl

theorem run_idleUntil_step {calls : Nat} (hahead : c.counted burst calls < goal)
    (hroom : c.counted burst (calls + 1) < wordLimit) (fuel : Nat) :
    (idleUntil (bursts burst) goal (fuel + 1) calls).run (c.after burst calls) =
      (idleUntil (bursts burst) goal fuel (calls + 1)).run (c.after burst (calls + 1)) := by
  have hlook : ¬ goal ≤ (c.after burst calls).ticks := Nat.not_le.mpr hahead
  rw [idleUntil, run_get_bind, if_neg hlook]
  exact run_bind_ok (run_bursts hroom) _

/-- The calls that leave the goal ahead are all made. The calls that are allowed beyond them make
no difference to them. -/
theorem run_idleUntil_steps {n : Nat} (hahead : ∀ i < n, c.counted burst i < goal)
    (hroom : ∀ i < n, c.counted burst (i + 1) < wordLimit) (fuel : Nat) :
    (idleUntil (bursts burst) goal (n + fuel) 0).run c =
      (idleUntil (bursts burst) goal fuel n).run (c.after burst n) := by
  induction n generalizing fuel with
  | zero => rw [Nat.zero_add, after_zero]
  | succ n ih =>
    have hallowed : n + 1 + fuel = n + (fuel + 1) := by omega
    rw [hallowed, ih (fun i hi => hahead i (by omega)) (fun i hi => hroom i (by omega)),
      run_idleUntil_step (hahead n n.lt_succ_self) (hroom n n.lt_succ_self)]

/-- On a clock that is configured, a wait is the loop. -/
theorem run_waitFor (hconfigured : c.frequency ≠ 0) (idle : Nat → EStateM Fault Clock Unit)
    (fuel count : Nat) :
    (waitFor idle fuel count).run c = (idleUntil idle (c.target count) fuel 0).run c := by
  rw [waitFor, run_get_bind, if_neg hconfigured]

/-- A wait for `count` more ticks, in which the call number `i` of `idle` brings `burst i` ticks and
the counter never runs over before it has reached the goal:
1. if the goal is reached after `k` calls and not before, then these are the calls that are made,
   and the wait is over with them, however many more were allowed;
2. as long as the goal is not reached, the wait uses up every number of calls that it is allowed and
   is not over;
3. a clock that is not configured does not wait, and `idle` is not called, whatever it does. -/
theorem waitFor_least (c : Clock) (count : Nat) (burst : Nat → Nat)
    (hroom : ∀ k, c.counted burst k < min (c.ticks + count) (wordLimit - 1) →
      c.counted burst (k + 1) < wordLimit) :
    let goal := min (c.ticks + count) (wordLimit - 1)
    (c.frequency ≠ 0 →
      (∀ k, goal ≤ c.counted burst k → (∀ i < k, c.counted burst i < goal) → ∀ fuel, k ≤ fuel →
        (waitFor (bursts burst) fuel count).run c = .ok (true, k) (c.after burst k)) ∧
      ∀ fuel, (∀ k ≤ fuel, c.counted burst k < goal) →
        (waitFor (bursts burst) fuel count).run c = .ok (false, fuel) (c.after burst fuel)) ∧
    (c.frequency = 0 → ∀ idle fuel, (waitFor idle fuel count).run c = .ok (false, 0) c) := by
  intro goal
  refine ⟨fun hconfigured => ⟨?_, ?_⟩, ?_⟩
  · intro k hreached hahead fuel hfuel
    obtain ⟨rest, rfl⟩ := Nat.exists_eq_add_of_le hfuel
    rw [run_waitFor hconfigured]
    exact (run_idleUntil_steps hahead (fun i hi => hroom i (hahead i hi)) rest).trans
      (run_idleUntil_reached hreached rest)
  · intro fuel hahead
    have hlook : ¬ goal ≤ c.counted burst fuel := Nat.not_le.mpr (hahead fuel le_rfl)
    have hsteps := run_idleUntil_steps (n := fuel) (fun i hi => hahead i hi.le)
      (fun i hi => hroom i (hahead i hi.le)) 0
    rw [run_waitFor hconfigured]
    refine hsteps.trans ?_
    rw [idleUntil, run_get_bind, after, decide_eq_false hlook]
    rfl
  · intro hunset idle fuel
    rw [waitFor, run_get_bind, if_pos hunset]
    rfl

/-- Two ticks below the end of the range, with a tick in every other call: a wait for ten ticks is
over with the fourth call. Without ticks, it is never over. -/
theorem nearEnd_idled :
    let c : Clock := { ticks := wordLimit - 3, frequency := 100 }
    let burst (i : Nat) := i % 2
    (∀ fuel, 4 ≤ fuel →
      (waitFor (bursts burst) fuel 10).run c = .ok (true, 4) (c.after burst 4)) ∧
    (waitFor (bursts burst) 3 10).run c = .ok (false, 3) (c.after burst 3) ∧
    ∀ fuel, (waitFor (bursts fun _ => 0) fuel 10).run c =
      .ok (false, fuel) (c.after (fun _ => 0) fuel) := by
  intro c burst
  have hstalled (k : Nat) : c.counted (fun _ => 0) k = wordLimit - 3 := by
    rw [counted, Finset.sum_const_zero, Nat.add_zero]
  have hroom (k : Nat) (hk : c.counted burst k < min (c.ticks + 10) (wordLimit - 1)) :
      c.counted burst (k + 1) < wordLimit := by
    have hburst : burst k < 2 := Nat.mod_lt k (by decide)
    have hgoal : min (c.ticks + 10) (wordLimit - 1) = wordLimit - 1 := by decide
    rw [counted_succ]
    omega
  obtain ⟨hover, hahead⟩ := (waitFor_least c 10 burst hroom).1 (by decide)
  have hnever := (waitFor_least c 10 (fun _ => 0) fun k _ => by rw [hstalled]; decide).1 (by decide)
  refine ⟨hover 4 (by decide) (by decide), hahead 3 (by decide), fun fuel => ?_⟩
  refine hnever.2 fuel fun k _ => ?_
  rw [hstalled]
  decide

end Clock

end Supervisor

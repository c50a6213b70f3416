import Mathlib.Algebra.Order.Field.Basic
import Mathlib.Algebra.Order.Field.Rat
import Supervisor.Timer.Clock

/-!
# Ticks and milliseconds

Both conversions round down, so that going there and back loses something, but never more than
one unit of what was converted to in between.

- `Clock.millisOf_bounds`, `Clock.ticksIn_bounds`: which side of the exact value a conversion falls
  on, and how far from it. Up to a thousand ticks per second, the answers that fit a word are exact
  (`Clock.millisOf_eq`, `Clock.ticksIn_eq`).
- `Clock.ticksIn_millisOf_of_dvd`, `Clock.ticksIn_millisOf_of_not_dvd`: ticks, converted and
  converted back. A tick is lost if and only if a part of a millisecond was.
- `Clock.conversions_inverse` is the main statement: both round trips, and the order of what is
  converted.
-/

namespace Supervisor

namespace Clock

variable {c : Clock} {t t' m m' : Nat}

/-! ## One conversion -/

/-- The clock is configured, and a tick is not shorter than a millisecond. -/
structure Coarse (c : Clock) : Prop where
  configured : 1 ≤ c.frequency
  slow : c.frequency ≤ 1000

/-- The milliseconds of a number of ticks are a word. -/
def Fits (c : Clock) (t : Nat) : Prop :=
  1000 * t / c.frequency < wordLimit

namespace Coarse

variable (h : Coarse c)

include h

theorem millisOf_eq (hfits : Fits c t) : c.millisOf t = 1000 * t / c.frequency := by
  have hset : c.frequency ≠ 0 := Nat.ne_of_gt h.configured
  rw [millisOf, if_neg hset, Nat.mul_comm, Nat.mod_eq_of_lt hfits]

theorem ticksIn_eq (hm : m < wordLimit) : c.ticksIn m = m * c.frequency / 1000 := by
  have hle : m * c.frequency / 1000 ≤ m :=
    Nat.div_le_of_le_mul (Nat.mul_comm 1000 m ▸ Nat.mul_le_mul_left m h.slow)
  rw [ticksIn, Nat.mod_eq_of_lt (hle.trans_lt hm)]

/-- Milliseconds are the exact time rounded down. -/
theorem millisOf_bounds (hfits : Fits c t) :
    c.millisOf t * c.frequency ≤ 1000 * t ∧ 1000 * t < (c.millisOf t + 1) * c.frequency := by
  rw [h.millisOf_eq hfits]
  exact ⟨Nat.div_mul_le_self _ _,
    (Nat.lt_mul_div_succ _ h.configured).trans_eq (Nat.mul_comm _ _)⟩

/-- Ticks are the exact number rounded down. -/
theorem ticksIn_bounds (hm : m < wordLimit) :
    1000 * c.ticksIn m ≤ m * c.frequency ∧ m * c.frequency < 1000 * (c.ticksIn m + 1) := by
  rw [h.ticksIn_eq hm]
  omega

theorem millisOf_lt (hfits : Fits c t) : c.millisOf t < wordLimit := by
  rw [h.millisOf_eq hfits]
  exact hfits

/-- What was converted from milliseconds can be converted back. -/
theorem fits_ticksIn (hm : m < wordLimit) : Fits c (c.ticksIn m) := by
  obtain ⟨hlow, -⟩ := h.ticksIn_bounds hm
  refine Nat.lt_of_le_of_lt (Nat.div_le_of_le_mul ?_) hm
  rwa [Nat.mul_comm c.frequency]

/-! ## There and back -/

theorem ticksIn_millisOf_of_dvd (hfits : Fits c t) (hdvd : c.frequency ∣ 1000 * t) :
    c.ticksIn (c.millisOf t) = t := by
  have hexact : c.millisOf t * c.frequency = 1000 * t := by
    rw [h.millisOf_eq hfits, Nat.div_mul_cancel hdvd]
  rw [h.ticksIn_eq (h.millisOf_lt hfits), hexact]
  exact Nat.mul_div_cancel_left t (by decide)

/-- The part of a millisecond that is lost takes the last tick with it, and no other, since it is
shorter than a tick. -/
theorem ticksIn_millisOf_of_not_dvd (hfits : Fits c t) (hdvd : ¬ c.frequency ∣ 1000 * t) :
    c.ticksIn (c.millisOf t) + 1 = t := by
  obtain ⟨hlow, hhigh⟩ := h.millisOf_bounds hfits
  have hinexact : c.millisOf t * c.frequency ≠ 1000 * t :=
    fun heq => hdvd (heq ▸ Nat.dvd_mul_left _ _)
  have hslow := h.slow
  rw [Nat.add_mul, Nat.one_mul] at hhigh
  rw [h.ticksIn_eq (h.millisOf_lt hfits)]
  omega

theorem millisOf_ticksIn_le (hm : m < wordLimit) : c.millisOf (c.ticksIn m) ≤ m := by
  obtain ⟨hback, -⟩ := h.millisOf_bounds (h.fits_ticksIn hm)
  obtain ⟨hlow, -⟩ := h.ticksIn_bounds hm
  exact Nat.le_of_mul_le_mul_right (hback.trans hlow) h.configured

/-- What is lost is less than the milliseconds of a tick, and one more. -/
theorem lost_mul_lt (hm : m < wordLimit) :
    (m - c.millisOf (c.ticksIn m)) * c.frequency < 1000 + c.frequency := by
  obtain ⟨-, hback⟩ := h.millisOf_bounds (h.fits_ticksIn hm)
  obtain ⟨-, hhigh⟩ := h.ticksIn_bounds hm
  rw [Nat.sub_mul]
  rw [Nat.add_mul, Nat.one_mul] at hback
  omega

/-! ## Order -/

theorem millisOf_mono (hfits : Fits c t') (hle : t ≤ t') : c.millisOf t ≤ c.millisOf t' := by
  have hquotients : 1000 * t / c.frequency ≤ 1000 * t' / c.frequency :=
    Nat.div_le_div_right (Nat.mul_le_mul_left 1000 hle)
  rw [h.millisOf_eq hfits, h.millisOf_eq (hquotients.trans_lt hfits)]
  exact hquotients

theorem ticksIn_mono (hm : m' < wordLimit) (hle : m ≤ m') : c.ticksIn m ≤ c.ticksIn m' := by
  rw [h.ticksIn_eq hm, h.ticksIn_eq (hle.trans_lt hm)]
  exact Nat.div_le_div_right (Nat.mul_le_mul_right _ hle)

end Coarse

/-- At a rate of 1 to 1000 ticks per second:
1. ticks whose milliseconds fit a word come back as they were if these milliseconds are exact, and
   with one tick less if they are not;
2. milliseconds come back as at most what they were, and what is missing is less than the
   milliseconds of a tick and one;
3. neither conversion changes an order. -/
theorem conversions_inverse (c : Clock) (hconfigured : 1 ≤ c.frequency)
    (hslow : c.frequency ≤ 1000) :
    (∀ t, 1000 * t / c.frequency < wordLimit →
      (c.frequency ∣ 1000 * t → c.ticksIn (c.millisOf t) = t) ∧
      (¬ c.frequency ∣ 1000 * t → c.ticksIn (c.millisOf t) + 1 = t)) ∧
    (∀ m < wordLimit, c.millisOf (c.ticksIn m) ≤ m ∧
      (m : ℚ) - c.millisOf (c.ticksIn m) < 1000 / c.frequency + 1) ∧
    (∀ m m', m ≤ m' → m' < wordLimit → c.ticksIn m ≤ c.ticksIn m') ∧
    ∀ t t', t ≤ t' → 1000 * t' / c.frequency < wordLimit → c.millisOf t ≤ c.millisOf t' := by
  have h : Coarse c := ⟨hconfigured, hslow⟩
  refine ⟨fun t hfits => ?_, fun m hm => ?_, fun m m' hle hm => ?_, fun t t' hle hfits => ?_⟩
  · exact ⟨h.ticksIn_millisOf_of_dvd hfits, h.ticksIn_millisOf_of_not_dvd hfits⟩
  · have hle := h.millisOf_ticksIn_le hm
    refine ⟨hle, ?_⟩
    have hpos : (0 : ℚ) < c.frequency := Nat.cast_pos.mpr h.configured
    have hlost : ((m - c.millisOf (c.ticksIn m) : Nat) : ℚ) * c.frequency < 1000 + c.frequency := by
      exact_mod_cast h.lost_mul_lt hm
    rw [← Nat.cast_sub hle, ← div_self hpos.ne', ← add_div, lt_div_iff₀ hpos]
    exact hlost
  · exact h.ticksIn_mono hm hle
  · exact h.millisOf_mono hfits hle

/-- At 300 ticks per second, three ticks are ten milliseconds, and four are thirteen and a third. -/
theorem threeHundred_inverse :
    let c : Clock := { frequency := 300 }
    c.ticksIn (c.millisOf 3) = 3 ∧ c.ticksIn (c.millisOf 4) + 1 = 4 ∧
      c.millisOf (c.ticksIn 16) ≤ 16 ∧ c.ticksIn 9 ≤ c.ticksIn 10 ∧ c.millisOf 3 ≤ c.millisOf 4 := by
  intro c
  obtain ⟨hticks, hmillis, hticksIn, hmillisOf⟩ := conversions_inverse c (by decide) (by decide)
  exact ⟨(hticks 3 (by decide)).1 (by decide), (hticks 4 (by decide)).2 (by decide),
    (hmillis 16 (by decide)).1, hticksIn 9 10 (by decide) (by decide),
    hmillisOf 3 4 (by decide) (by decide)⟩

end Clock

end Supervisor

import Mathlib

/-!
# A quantity that refills

A level that grows at a steady rate up to a capacity. Refilling in two steps is
refilling in one, so the level may be brought up to date whenever it is read.
-/
namespace Refill

section Level

variable {𝕜 : Type} [Field 𝕜] [LinearOrder 𝕜] {capacity rate level time time' : 𝕜}

/-- The level after `time`. -/
def refill (capacity rate level time : 𝕜) : 𝕜 := min capacity (level + time * rate)

theorem refill_le_capacity : refill capacity rate level time ≤ capacity := min_le_left _ _

theorem refill_le : refill capacity rate level time ≤ level + time * rate := min_le_right _ _

theorem refill_zero (h : level ≤ capacity) : refill capacity rate level 0 = level := by
  simp [refill, h]

theorem refill_of_full (h : capacity ≤ level + time * rate) :
    refill capacity rate level time = capacity := min_eq_left h

theorem le_refill {need : 𝕜} (hcap : need ≤ capacity) (h : need ≤ level + time * rate) :
    need ≤ refill capacity rate level time := le_min hcap h

end Level

variable {𝕜 : Type} [Field 𝕜] [LinearOrder 𝕜] [IsStrictOrderedRing 𝕜]
  {capacity rate level time time' : 𝕜}

theorem refill_nonneg (hrate : 0 ≤ rate) (hcap : 0 ≤ capacity) (hlevel : 0 ≤ level)
    (htime : 0 ≤ time) : 0 ≤ refill capacity rate level time :=
  le_min hcap (add_nonneg hlevel (mul_nonneg htime hrate))

theorem refill_refill (hrate : 0 ≤ rate) (htime : 0 ≤ time') :
    refill capacity rate (refill capacity rate level time) time' =
      refill capacity rate level (time + time') := by
  have hgrow : 0 ≤ time' * rate := mul_nonneg htime hrate
  rcases le_total capacity (level + time * rate) with h | h
  · have hfull : refill capacity rate level time = capacity := refill_of_full h
    have hfull' : refill capacity rate level (time + time') = capacity :=
      refill_of_full (by linarith [add_mul time time' rate])
    rw [hfull, hfull', refill_of_full (by linarith)]
  · have hpart : refill capacity rate level time = level + time * rate := min_eq_right h
    rw [hpart, refill, refill, add_mul, add_assoc]

end Refill

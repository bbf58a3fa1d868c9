import Mathlib.Algebra.Order.Ring.Nat

/-
  Sampling a longer side at the places of a shorter one, with
  a fixed-point ratio that is rounded down and increased by
  one.

  Main declarations:
    * `FixedPoint.ratio` and `FixedPoint.sample`
    * `FixedPoint.mul_ratio_lt`
    * `FixedPoint.sample_lt`
    * `FixedPoint.sample_self`
-/

namespace FixedPoint

variable {one side target i : Nat}

/- `side / target` in units of `1 / one`, and a little more. -/
def ratio (one side target : Nat) : Nat :=
  side * one / target + 1

/- The place of the longer side for place `i`. -/
def sample (one i r : Nat) : Nat :=
  i * r / one

/-
  No place is sampled at or beyond the end: what the rounding
  up adds is less than what the last place leaves over.
-/
theorem mul_ratio_lt
    (hTarget : target ≤ side)
    (hOne : target ≤ one)
    (hPlace : i < target) :
    i * ratio one side target < side * one := by
  have hPos : 0 < target := Nat.lt_of_le_of_lt (Nat.zero_le i) hPlace
  have hWhole :
      side * one / target * target ≤ side * one :=
    Nat.div_mul_le_self (side * one) target
  have hRatio : target ≤ side * one / target := by
    apply (Nat.le_div_iff_mul_le hPos).mpr
    exact Nat.mul_le_mul hTarget hOne
  have hLast : i + 1 ≤ target := hPlace
  have hNext :
      (i + 1) * (side * one / target) ≤
        target * (side * one / target) :=
    Nat.mul_le_mul_right _ hLast
  calc
    i * ratio one side target =
        i * (side * one / target) + i := by
      rw [ratio, Nat.mul_add, Nat.mul_one]
    _ < i * (side * one / target) +
          side * one / target := by
      omega
    _ = (i + 1) * (side * one / target) := by
      rw [Nat.add_mul, Nat.one_mul]
    _ ≤ target * (side * one / target) := hNext
    _ ≤ side * one := by
      rw [Nat.mul_comm]
      exact hWhole

/- Every sampled place is a place of the longer side. -/
theorem sample_lt
    (hTarget : target ≤ side)
    (hOne : target ≤ one)
    (hPlace : i < target) :
    sample one i (ratio one side target) < side := by
  apply Nat.div_lt_of_lt_mul
  rw [Nat.mul_comm one]
  exact mul_ratio_lt hTarget hOne hPlace

/- Between sides of the same length nothing is skipped. -/
theorem sample_self
    (hSide : 0 < side)
    (hPlace : i < one) :
    sample one i (ratio one side side) = i := by
  have hOne : 0 < one := Nat.lt_of_le_of_lt (Nat.zero_le i) hPlace
  rw [sample, ratio, Nat.mul_div_cancel_left one hSide,
    Nat.mul_add, Nat.mul_one, Nat.add_comm,
    Nat.add_mul_div_right i i hOne,
    Nat.div_eq_of_lt hPlace, Nat.zero_add]

end FixedPoint

import Mathlib.Data.List.Nodup
import Mathlib.Data.List.Perm.Basic

/-
  A list has no duplicates when tests tell its elements apart:
  each test parts the list, and in the end the parts have at
  most one element. This takes far fewer steps than to compare
  all pairs.

  Main declarations:
    * `Distinct.apart`
    * `Distinct.nodup_of_apart`
-/

------------------------------------------------------------
-- Tests
------------------------------------------------------------

namespace Distinct

variable {α : Type}

/- The tests tell all elements apart. -/
def apart : List (α → Bool) → List α → Bool
| [], xs => xs.length ≤ 1
| p :: tests, xs =>
    xs.length ≤ 1 ||
      (apart tests (xs.filter p) &&
        apart tests (xs.filter fun x => !p x))

/- The lowest `d` bits of a number. -/
def bits (d : Nat) : List (Nat → Bool) :=
  (List.range d).map fun i k => k.testBit i

theorem nodup_of_length_le_one
    {xs : List α}
    (hLe : xs.length ≤ 1) :
    xs.Nodup := by
  match xs, hLe with
  | [], _ => exact List.nodup_nil
  | [x], _ => exact List.nodup_singleton x

/- No element passes and fails the same test. -/
theorem nodup_of_apart
    {tests : List (α → Bool)}
    {xs : List α}
    (hApart : apart tests xs = true) :
    xs.Nodup := by
  induction tests generalizing xs with
  | nil =>
      exact nodup_of_length_le_one (of_decide_eq_true hApart)
  | cons p tests ih =>
      simp only [apart, Bool.or_eq_true, Bool.and_eq_true,
        decide_eq_true_eq] at hApart
      rcases hApart with hShort | ⟨hPass, hFail⟩
      · exact nodup_of_length_le_one hShort
      · have hPerm := List.filter_append_perm p xs
        rw [← hPerm.nodup_iff]
        refine List.Nodup.append (ih hPass) (ih hFail) ?_
        intro x hx hx'
        have hTrue := (List.mem_filter.mp hx).2
        have hFalse := (List.mem_filter.mp hx').2
        simp [hTrue] at hFalse

end Distinct

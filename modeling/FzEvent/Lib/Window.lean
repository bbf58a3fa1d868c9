import Mathlib.Data.List.Basic

/-
  Windows of a list: a number of consecutive elements at an
  offset, and those in front of the first one of a kind.

  Main declarations:
    * `Window.window`
    * `Window.window_add`
    * `Window.window_append_inj`
    * `Window.exists_first`
-/

------------------------------------------------------------
-- Windows
------------------------------------------------------------

namespace Window

variable {α : Type}

/- The `n` elements of `xs` from offset `off` on. -/
def window
    (xs : List α)
    (off n : Nat) : List α :=
  (xs.drop off).take n

theorem length_window
    {xs : List α}
    {off n : Nat}
    (hInside : off + n ≤ xs.length) :
    (window xs off n).length = n := by
  rw [window, List.length_take, List.length_drop]
  omega

@[simp] theorem window_zero
    (xs : List α)
    (off : Nat) :
    window xs off 0 = [] :=
  List.take_zero

/- The window over the whole list. -/
theorem window_length
    (xs : List α) :
    window xs 0 xs.length = xs := by
  simp [window]

/- A window splits into two adjacent ones. -/
theorem window_add
    (xs : List α)
    (off m n : Nat) :
    window xs off (m + n) =
      window xs off m ++ window xs (off + m) n := by
  rw [window, window, window, List.take_add, List.drop_drop]

/- A window at the front is a prefix. -/
theorem window_isPrefix
    (xs : List α)
    (n : Nat) :
    window xs 0 n <+: xs := by
  rw [window, List.drop_zero]
  exact List.take_prefix n xs

/- The first element of a nonempty window. -/
theorem head?_window
    (xs : List α)
    (off : Nat)
    {n : Nat}
    (hPos : 0 < n) :
    (window xs off n).head? = xs[off]? := by
  rw [window, List.head?_take, if_neg (by omega),
    List.head?_drop]

/-
  Two lists that start with windows of equal length are
  equal exactly when both halves are.
-/
theorem window_append_inj
    {xs : List α}
    {off off' n : Nat}
    {us vs : List α}
    (hInside : off + n ≤ xs.length)
    (hInside' : off' + n ≤ xs.length) :
    window xs off n ++ us = window xs off' n ++ vs ↔
      window xs off n = window xs off' n ∧ us = vs := by
  have hLength :
      (window xs off n).length =
        (window xs off' n).length := by
    rw [length_window hInside, length_window hInside']
  constructor
  · intro hEq
    exact List.append_inj hEq hLength
  · rintro ⟨hWindow, rfl⟩
    rw [hWindow]

end Window

------------------------------------------------------------
-- The First of a Kind
------------------------------------------------------------

namespace Window

variable {α : Type}

/- A list is split at its first element with a property. -/
theorem exists_first
    {p : α → Prop}
    {xs : List α}
    (hSome : ∃ x ∈ xs, p x) :
    ∃ before first after, xs = before ++ first :: after ∧
      p first ∧ ∀ x ∈ before, ¬ p x := by
  classical
  rcases hSome with ⟨x, hMem, hHolds⟩
  have hFind : (xs.find? fun x => p x).isSome :=
    List.find?_isSome.mpr ⟨x, hMem, by simpa using hHolds⟩
  rcases Option.isSome_iff_exists.mp hFind with
    ⟨first, hFirst⟩
  rw [List.find?_eq_some_iff_append] at hFirst
  rcases hFirst with ⟨hFirst, before, after, hSplit, hNone⟩
  refine ⟨before, first, after, hSplit,
    of_decide_eq_true hFirst, ?_⟩
  intro y hBefore
  simpa using hNone y hBefore

end Window

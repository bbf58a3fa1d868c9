import Mathlib.Data.List.Destutter

/-
  Sequences up to the repetition of an unchanged element.

  Main declarations:
    * `Stutter.Same`
    * `Stutter.Same.concat` and `Stutter.same_concat_left`
    * `Stutter.Same.append_replicate`
-/

------------------------------------------------------------
-- Removing Repetitions at the End
------------------------------------------------------------

namespace Stutter

variable {α : Type} [DecidableEq α]

/- An element that repeats the last one is removed. -/
theorem destutter'_concat_of_eq
    (a b : α)
    (l : List α)
    (hLast : (b :: l).getLast? = some a) :
    (l ++ [a]).destutter' (· ≠ ·) b =
      l.destutter' (· ≠ ·) b := by
  induction l generalizing b with
  | nil =>
      have hSame : b = a := by simpa using hLast
      simp [hSame]
  | cons c l ih =>
      rw [List.getLast?_cons_cons] at hLast
      rw [List.cons_append, List.destutter'_cons,
        List.destutter'_cons]
      by_cases hNew : b ≠ c
      · rw [if_pos hNew, if_pos hNew, ih c hLast]
      · rw [if_neg hNew, if_neg hNew]
        rw [not_not] at hNew
        subst hNew
        exact ih b hLast

/- An element that differs from the last one is kept. -/
theorem destutter'_concat_of_ne
    (a b : α)
    (l : List α)
    (hLast : (b :: l).getLast? ≠ some a) :
    (l ++ [a]).destutter' (· ≠ ·) b =
      l.destutter' (· ≠ ·) b ++ [a] := by
  induction l generalizing b with
  | nil =>
      have hOther : b ≠ a := by simpa using hLast
      simp [hOther]
  | cons c l ih =>
      rw [List.getLast?_cons_cons] at hLast
      rw [List.cons_append, List.destutter'_cons,
        List.destutter'_cons]
      by_cases hNew : b ≠ c
      · rw [if_pos hNew, if_pos hNew, ih c hLast,
          List.cons_append]
      · rw [if_neg hNew, if_neg hNew]
        rw [not_not] at hNew
        subst hNew
        exact ih b hLast

theorem mem_destutter'_iff
    (a b : α)
    (l : List α) :
    a ∈ l.destutter' (· ≠ ·) b ↔ a = b ∨ a ∈ l := by
  induction l generalizing b with
  | nil => simp
  | cons c l ih =>
      rw [List.destutter'_cons]
      by_cases hNew : b ≠ c
      · rw [if_pos hNew, List.mem_cons, ih, List.mem_cons]
      · rw [if_neg hNew, ih, List.mem_cons]
        rw [not_not] at hNew
        rw [hNew]
        tauto

/- No element is lost. -/
theorem mem_destutter_iff
    (a : α)
    (l : List α) :
    a ∈ l.destutter (· ≠ ·) ↔ a ∈ l := by
  cases l with
  | nil => simp
  | cons b l =>
      rw [List.destutter_cons', mem_destutter'_iff,
        List.mem_cons]

/- The last element stays the last one. -/
theorem getLast?_destutter
    (l : List α) :
    (l.destutter (· ≠ ·)).getLast? = l.getLast? := by
  induction l using List.reverseRecOn with
  | nil => rfl
  | append_singleton l a ih =>
      cases l with
      | nil => simp
      | cons b l =>
          rw [List.destutter_cons'] at ih
          rw [List.cons_append, List.destutter_cons']
          by_cases hLast : (b :: l).getLast? = some a
          · rw [destutter'_concat_of_eq a b l hLast, ih, hLast,
              ← List.cons_append, List.getLast?_concat]
          · rw [destutter'_concat_of_ne a b l hLast,
              ← List.cons_append, List.getLast?_concat,
              List.getLast?_concat]

end Stutter

------------------------------------------------------------
-- Equality up to Repetition
------------------------------------------------------------

namespace Stutter

variable {α : Type} [DecidableEq α]

/- The two sequences differ only in repeated elements. -/
def Same (l m : List α) : Prop :=
  l.destutter (· ≠ ·) = m.destutter (· ≠ ·)

instance (l m : List α) : Decidable (Same l m) := by
  unfold Same
  infer_instance

theorem Same.refl
    (l : List α) :
    Same l l := rfl

theorem Same.trans
    {l m n : List α}
    (hLeft : Same l m)
    (hRight : Same m n) :
    Same l n :=
  Eq.trans hLeft hRight

theorem Same.symm
    {l m : List α}
    (hSame : Same l m) :
    Same m l :=
  Eq.symm hSame

/- The two sequences have the same elements. -/
theorem Same.mem_iff
    {l m : List α}
    (hSame : Same l m)
    (a : α) :
    a ∈ l ↔ a ∈ m := by
  rw [← mem_destutter_iff a l, hSame, mem_destutter_iff]

/- Repeating the last element changes nothing. -/
theorem same_concat_left
    {l : List α}
    {a : α}
    (hLast : l.getLast? = some a) :
    Same (l ++ [a]) l := by
  cases l with
  | nil => simp at hLast
  | cons b l =>
      unfold Same
      rw [List.cons_append, List.destutter_cons',
        List.destutter_cons']
      exact destutter'_concat_of_eq a b l hLast

/- Both sequences may be continued alike. -/
theorem Same.concat
    {l m : List α}
    (hSame : Same l m)
    (a : α) :
    Same (l ++ [a]) (m ++ [a]) := by
  have hLast : l.getLast? = m.getLast? := by
    rw [← getLast?_destutter l, ← getLast?_destutter m, hSame]
  by_cases hRepeat : l.getLast? = some a
  · have hRepeat' : m.getLast? = some a := hLast ▸ hRepeat
    exact (same_concat_left hRepeat).trans
      (hSame.trans (same_concat_left hRepeat').symm)
  · have hRepeat' : m.getLast? ≠ some a := hLast ▸ hRepeat
    cases l with
    | nil =>
        cases m with
        | nil => exact Same.refl _
        | cons c m =>
            exact absurd
              (List.getLast?_eq_none_iff.mp hLast.symm)
              (List.cons_ne_nil c m)
    | cons b l =>
        cases m with
        | nil =>
            exact absurd (List.getLast?_eq_none_iff.mp hLast)
              (List.cons_ne_nil b l)
        | cons c m =>
            unfold Same at hSame ⊢
            rw [List.destutter_cons', List.destutter_cons']
              at hSame
            rw [List.cons_append, List.cons_append,
              List.destutter_cons', List.destutter_cons',
              destutter'_concat_of_ne a b l hRepeat,
              destutter'_concat_of_ne a c m hRepeat', hSame]

/- How often the last element is repeated does not matter. -/
theorem same_append_replicate
    (l : List α)
    (a : α)
    (n : Nat) :
    Same (l ++ List.replicate (n + 1) a) (l ++ [a]) := by
  induction n with
  | zero => exact Same.refl _
  | succ n ih =>
      rw [List.replicate_succ', ← List.append_assoc]
      refine (same_concat_left ?_).trans ih
      rw [List.replicate_succ', ← List.append_assoc,
        List.getLast?_concat]

/- Both may be continued by repetitions of one element. -/
theorem Same.append_replicate
    {l m : List α}
    (hSame : Same l m)
    (a : α)
    {n p : Nat}
    (hLeft : n ≠ 0)
    (hRight : p ≠ 0) :
    Same (l ++ List.replicate n a)
      (m ++ List.replicate p a) := by
  rcases Nat.exists_eq_succ_of_ne_zero hLeft with ⟨n, rfl⟩
  rcases Nat.exists_eq_succ_of_ne_zero hRight with ⟨p, rfl⟩
  exact (same_append_replicate l a n).trans
    ((hSame.concat a).trans
      (same_append_replicate m a p).symm)

end Stutter

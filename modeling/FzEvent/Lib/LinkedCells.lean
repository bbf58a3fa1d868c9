import Mathlib.Data.List.Nodup
import Mathlib.Logic.Function.Basic

/-
  Singly linked cells.

  A memory is seen through the successor of each cell:
  `none` where there is no cell, `some none` for a cell whose
  successor is null.

  Main declarations:
    * `LinkedCells.Linked`
    * `Linked.unique` and `Linked.nodup`
    * `Linked.frame`
    * `Linked.snoc`
    * `Linked.tail`
    * `LinkedCells.appendCell`
-/

------------------------------------------------------------
-- Linked Cells
------------------------------------------------------------

namespace LinkedCells

variable {A : Type}

/- Following the successors from `p` visits these cells. -/
def Linked
    (next : A → Option (Option A)) :
    Option A → List A → Prop
| p, [] => p = none
| p, a :: rest =>
    p = some a ∧ ∃ q, next a = some q ∧ Linked next q rest

namespace Linked

variable {next next' : A → Option (Option A)}
variable {p : Option A} {cells : List A}

theorem head_eq
    (hLinked : Linked next p cells) :
    p = cells.head? := by
  cases cells with
  | nil => exact hLinked
  | cons a rest => exact hLinked.1

/- Null starts the empty chain only. -/
theorem eq_nil_iff
    (hLinked : Linked next p cells) :
    p = none ↔ cells = [] := by
  rw [hLinked.head_eq, List.head?_eq_none_iff]

/- The cells that are visited are determined by the start. -/
theorem unique
    {others : List A}
    (hLinked : Linked next p cells)
    (hOthers : Linked next p others) :
    cells = others := by
  induction cells generalizing p others with
  | nil =>
      exact ((hOthers.eq_nil_iff).mp hLinked).symm
  | cons a rest ih =>
      rcases hLinked with ⟨rfl, q, hNext, hRest⟩
      cases others with
      | nil => cases hOthers
      | cons b others =>
          rcases hOthers with ⟨hSame, r, hNext', hRest'⟩
          cases hSame
          rw [hNext] at hNext'
          cases hNext'
          rw [ih hRest hRest']

/- Every cell that is visited starts a chain itself. -/
theorem from_mem
    (hLinked : Linked next p cells)
    {a : A}
    (hMem : a ∈ cells) :
    ∃ front rest,
      cells = front ++ a :: rest ∧
        Linked next (some a) (a :: rest) := by
  induction cells generalizing p with
  | nil => cases hMem
  | cons b cells ih =>
      rcases hLinked with ⟨rfl, q, hNext, hRest⟩
      rcases List.mem_cons.mp hMem with rfl | hMem
      · exact ⟨[], cells, rfl, rfl, q, hNext, hRest⟩
      · rcases ih hRest hMem with
          ⟨front, rest, rfl, hFrom⟩
        exact ⟨b :: front, rest, rfl, hFrom⟩

/- No cell is visited twice: the chain would not end. -/
theorem nodup
    (hLinked : Linked next p cells) :
    cells.Nodup := by
  induction cells generalizing p with
  | nil => exact List.nodup_nil
  | cons a rest ih =>
      rcases hLinked with ⟨rfl, q, hNext, hRest⟩
      apply List.nodup_cons.mpr
      refine ⟨?_, ih hRest⟩
      intro hMem
      rcases hRest.from_mem hMem with
        ⟨front, behind, hRestEq, hFrom⟩
      have hWhole : Linked next (some a) (a :: rest) :=
        ⟨rfl, q, hNext, hRest⟩
      have hLength :=
        congrArg List.length (hWhole.unique hFrom)
      rw [hRestEq] at hLength
      simp only [List.length_cons,
        List.length_append] at hLength
      omega

/- The successors of the visited cells are all that matters. -/
theorem frame
    (hLinked : Linked next p cells)
    (hSame : ∀ a ∈ cells, next' a = next a) :
    Linked next' p cells := by
  induction cells generalizing p with
  | nil => exact hLinked
  | cons a rest ih =>
      rcases hLinked with ⟨rfl, q, hNext, hRest⟩
      rw [List.forall_mem_cons] at hSame
      exact ⟨rfl, q, hSame.1.trans hNext, ih hRest hSame.2⟩

/- The first cell is taken off by moving on to its successor. -/
theorem tail
    {a : A}
    {q : Option A}
    (hLinked : Linked next p (a :: cells))
    (hNext : next a = some q) :
    Linked next q cells := by
  rcases hLinked with ⟨_, r, hNext', hRest⟩
  rw [hNext] at hNext'
  cases hNext'
  exact hRest

/- Neither the last cell nor a new one is among the others. -/
theorem apart
    {last a : A}
    (hLinked : Linked next p (cells ++ [last]))
    (hNew : a ∉ cells ++ [last]) :
    last ≠ a ∧ ∀ b ∈ cells, b ≠ last ∧ b ≠ a := by
  refine ⟨?_, ?_⟩
  · rintro rfl
    exact hNew (List.mem_append_right _
      (List.mem_singleton_self _))
  · intro b hMem
    constructor
    · rintro rfl
      exact (List.disjoint_of_nodup_append hLinked.nodup) hMem
        (List.mem_singleton_self _)
    · rintro rfl
      exact hNew (List.mem_append_left _ hMem)

/-
  A cell without a successor is put behind the last one by
  making it the last one's successor.
-/
theorem snoc
    {last a : A}
    (hLinked : Linked next p (cells ++ [last]))
    (hLast : next' last = some (some a))
    (hCell : next' a = some none)
    (hSame :
      ∀ b ∈ cells, next' b = next b) :
    Linked next' p (cells ++ [last, a]) := by
  induction cells generalizing p with
  | nil =>
      rcases hLinked with ⟨rfl, _⟩
      exact ⟨rfl, some a, hLast, rfl, none, hCell, rfl⟩
  | cons b cells ih =>
      rcases hLinked with ⟨rfl, q, hNext, hRest⟩
      rw [List.forall_mem_cons] at hSame
      exact ⟨rfl, q, hSame.1.trans hNext, ih hRest hSame.2⟩

end Linked

/- A single cell. -/
theorem linked_singleton
    {next : A → Option (Option A)}
    {a : A}
    (hCell : next a = some none) :
    Linked next (some a) [a] :=
  ⟨rfl, none, hCell, rfl⟩

end LinkedCells

------------------------------------------------------------
-- Heaps of Cells
------------------------------------------------------------

namespace LinkedCells

variable {A C : Type} [DecidableEq A]
variable {heap : A → Option C}
variable {last a b : A} {relinked new : C} {cells : List A}

/- A new cell is there, and the last one points to it. -/
def appendCell
    (heap : A → Option C)
    (last a : A)
    (relinked new : C) : A → Option C :=
  Function.update (Function.update heap a (some new)) last
    (some relinked)

theorem appendCell_new
    (hOther : last ≠ a) :
    appendCell heap last a relinked new a = some new := by
  rw [appendCell, Function.update_of_ne hOther.symm,
    Function.update_self]

theorem appendCell_last :
    appendCell heap last a relinked new last =
      some relinked :=
  Function.update_self ..

theorem appendCell_of_ne
    (hLast : b ≠ last)
    (hNew : b ≠ a) :
    appendCell heap last a relinked new b = heap b := by
  rw [appendCell, Function.update_of_ne hLast,
    Function.update_of_ne hNew]

/- The cells that are there then. -/
theorem appendCell_live
    (hLive : ∀ b, heap b ≠ none ↔ b ∈ cells ++ [last])
    (hOther : last ≠ a)
    (b : A) :
    appendCell heap last a relinked new b ≠ none ↔
      b ∈ cells ++ [last, a] := by
  by_cases hLast : b = last
  · subst hLast
    simp [appendCell_last]
  · by_cases hNew : b = a
    · subst hNew
      simp [appendCell_new hOther]
    · rw [appendCell_of_ne hLast hNew, hLive b]
      simp [hNew]

/- The cells that are there when the first one is freed. -/
theorem freed_live
    (hLive : ∀ b, heap b ≠ none ↔ b ∈ a :: cells)
    (hNodup : a ∉ cells)
    (b : A) :
    Function.update heap a none b ≠ none ↔ b ∈ cells := by
  by_cases hSame : b = a
  · subst hSame
    simp only [Function.update_self, ne_eq,
      not_true_eq_false, false_iff]
    exact hNodup
  · rw [Function.update_of_ne hSame, hLive b, List.mem_cons]
    exact or_iff_right hSame

end LinkedCells

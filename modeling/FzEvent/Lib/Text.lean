import Mathlib.Data.List.Basic

/-
  Texts as lists: cells that are joined by a separator, and
  lines that end in a terminator.

  Cells without the first element of the separator, and lines
  without the terminator, can be told apart again.

  Main declarations:
    * `Text.ascii`
    * `Text.intercalate_inj` and `Text.intercalate_inj_of_ne_nil`
    * `Text.lines` and `Text.lines_inj`
-/

------------------------------------------------------------
-- Characters
------------------------------------------------------------

namespace Text

/-
  The characters of an ASCII string, one for each byte. Other
  than `String.toList` it decodes nothing, so that tables of
  names can be evaluated.
-/
def ascii (s : String) : List Char :=
  s.toByteArray.data.toList.map fun b => Char.ofNat b.toNat

end Text

------------------------------------------------------------
-- Cells
------------------------------------------------------------

namespace Text

variable {α : Type}

/- The first separator ends the first cell. -/
theorem append_cons_inj
    {c : α}
    {cell cell' rest rest' : List α}
    (hIn : c ∉ cell)
    (hIn' : c ∉ cell')
    (hSame : cell ++ c :: rest = cell' ++ c :: rest') :
    cell = cell' ∧ rest = rest' := by
  induction cell generalizing cell' with
  | nil =>
      cases cell' with
      | nil => exact ⟨rfl, (List.cons.inj hSame).2⟩
      | cons d cell' =>
          have hHead : c = d := (List.cons.inj hSame).1
          exact absurd (hHead ▸ List.mem_cons_self) hIn'
  | cons d cell ih =>
      cases cell' with
      | nil =>
          have hHead : d = c := (List.cons.inj hSame).1
          exact absurd (hHead ▸ List.mem_cons_self) hIn
      | cons d' cell' =>
          rcases List.cons.inj hSame with ⟨rfl, hTail⟩
          rcases ih (List.not_mem_of_not_mem_cons hIn)
            (List.not_mem_of_not_mem_cons hIn') hTail with
            ⟨rfl, hRest⟩
          exact ⟨rfl, hRest⟩

/-
  A text of at least one cell. A cell that ends one text ends
  the other: behind it would stand the separator.
-/
theorem intercalate_cons_inj
    {c : α}
    {sep cell cell' : List α}
    {cells cells' : List (List α)}
    (hIn : ∀ x ∈ cell :: cells, c ∉ x)
    (hIn' : ∀ x ∈ cell' :: cells', c ∉ x)
    (hSame :
      (c :: sep).intercalate (cell :: cells) =
        (c :: sep).intercalate (cell' :: cells')) :
    cell :: cells = cell' :: cells' := by
  induction cells generalizing cell cell' cells' with
  | nil =>
      cases cells' with
      | nil =>
          rw [List.intercalate_singleton,
            List.intercalate_singleton] at hSame
          rw [hSame]
      | cons next' cells' =>
          rw [List.intercalate_singleton,
            List.intercalate_cons_cons] at hSame
          refine absurd ?_ (hIn cell List.mem_cons_self)
          simp [hSame]
  | cons next cells ih =>
      cases cells' with
      | nil =>
          rw [List.intercalate_singleton,
            List.intercalate_cons_cons] at hSame
          refine absurd ?_ (hIn' cell' List.mem_cons_self)
          simp [← hSame]
      | cons next' cells' =>
          rw [List.intercalate_cons_cons,
            List.intercalate_cons_cons, List.append_assoc,
            List.append_assoc, List.cons_append,
            List.cons_append] at hSame
          rcases append_cons_inj (hIn _ List.mem_cons_self)
            (hIn' _ List.mem_cons_self) hSame with
            ⟨rfl, hRest⟩
          rw [ih (List.forall_mem_of_forall_mem_cons hIn)
            (List.forall_mem_of_forall_mem_cons hIn')
            (List.append_cancel_left hRest)]

/- Whether there are cells at all is to be known. -/
theorem intercalate_inj
    {c : α}
    {sep : List α}
    {cells cells' : List (List α)}
    (hIn : ∀ x ∈ cells, c ∉ x)
    (hIn' : ∀ x ∈ cells', c ∉ x)
    (hLength : cells.length = cells'.length)
    (hSame :
      (c :: sep).intercalate cells =
        (c :: sep).intercalate cells') :
    cells = cells' := by
  cases cells with
  | nil => exact (List.eq_nil_of_length_eq_zero hLength.symm).symm
  | cons cell cells =>
      cases cells' with
      | nil => cases hLength
      | cons cell' cells' =>
          exact intercalate_cons_inj hIn hIn' hSame

theorem intercalate_cons_ne_nil
    {cell : List α}
    (sep : List α)
    (cells : List (List α))
    (hCell : cell ≠ []) :
    sep.intercalate (cell :: cells) ≠ [] := by
  cases cells with
  | nil => simpa using hCell
  | cons next cells => simp [hCell]

/- Where no cell is empty, an empty text has no cells. -/
theorem intercalate_inj_of_ne_nil
    {c : α}
    {sep : List α}
    {cells cells' : List (List α)}
    (hIn : ∀ x ∈ cells, c ∉ x ∧ x ≠ [])
    (hIn' : ∀ x ∈ cells', c ∉ x ∧ x ≠ [])
    (hSame :
      (c :: sep).intercalate cells =
        (c :: sep).intercalate cells') :
    cells = cells' := by
  cases cells with
  | nil =>
      cases cells' with
      | nil => rfl
      | cons cell' cells' =>
          exact absurd hSame.symm (intercalate_cons_ne_nil _ _
            (hIn' cell' List.mem_cons_self).2)
  | cons cell cells =>
      cases cells' with
      | nil =>
          exact absurd hSame (intercalate_cons_ne_nil _ _
            (hIn cell List.mem_cons_self).2)
      | cons cell' cells' =>
          exact intercalate_cons_inj (fun x hx => (hIn x hx).1)
            (fun x hx => (hIn' x hx).1) hSame

theorem mem_intercalate
    {a : α}
    {sep : List α}
    {cells : List (List α)}
    (hMem : a ∈ sep.intercalate cells) :
    a ∈ sep ∨ ∃ cell ∈ cells, a ∈ cell := by
  induction cells with
  | nil => cases hMem
  | cons cell cells ih =>
      cases cells with
      | nil =>
          rw [List.intercalate_singleton] at hMem
          exact Or.inr ⟨cell, List.mem_cons_self, hMem⟩
      | cons next cells =>
          rw [List.intercalate_cons_cons, List.append_assoc,
            List.mem_append, List.mem_append] at hMem
          rcases hMem with hCell | hSep | hRest
          · exact Or.inr ⟨cell, List.mem_cons_self, hCell⟩
          · exact Or.inl hSep
          · rcases ih hRest with hSep | ⟨x, hx, hIn⟩
            · exact Or.inl hSep
            · exact Or.inr ⟨x, List.mem_cons_of_mem _ hx, hIn⟩

end Text

------------------------------------------------------------
-- Lines
------------------------------------------------------------

namespace Text

variable {α : Type}

/- Each line with the terminator behind it. -/
def lines (t : α) (xs : List (List α)) : List α :=
  xs.flatMap fun x => x ++ [t]

theorem lines_inj
    {t : α}
    {xs ys : List (List α)}
    (hIn : ∀ x ∈ xs, t ∉ x)
    (hIn' : ∀ y ∈ ys, t ∉ y)
    (hSame : lines t xs = lines t ys) :
    xs = ys := by
  induction xs generalizing ys with
  | nil =>
      cases ys with
      | nil => rfl
      | cons y ys => simp [lines] at hSame
  | cons x xs ih =>
      cases ys with
      | nil => simp [lines] at hSame
      | cons y ys =>
          simp only [lines, List.flatMap_cons,
            List.append_assoc, List.cons_append,
            List.nil_append] at hSame
          rcases append_cons_inj (hIn _ List.mem_cons_self)
            (hIn' _ List.mem_cons_self) hSame with
            ⟨rfl, hRest⟩
          rw [ih (List.forall_mem_of_forall_mem_cons hIn)
            (List.forall_mem_of_forall_mem_cons hIn') hRest]

end Text

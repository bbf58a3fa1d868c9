import Mathlib.Data.List.Range

/-
  Arrays that are filled in the order of their indices.

  Main declarations:
    * `RowMajor.range_flatMap_row` and `RowMajor.flatMap_row`
    * `RowMajor.Move` and `RowMajor.applyMoves`
    * `RowMajor.applyMoves_inOrder`
    * `RowMajor.applyMoves_whole`
-/

------------------------------------------------------------
-- Rows and Columns
------------------------------------------------------------

namespace RowMajor

/- Row by row, the indices of a rectangle are consecutive. -/
theorem range_flatMap_row
    (h w : Nat) :
    (List.range h).flatMap
        (fun i => (List.range w).map fun j => i * w + j) =
      List.range (h * w) := by
  induction h with
  | zero => simp
  | succ h ih =>
      rw [List.range_succ, List.flatMap_append, ih,
        List.flatMap_singleton, Nat.succ_mul, List.range_add]

/- Visiting a rectangle row by row visits its indices. -/
theorem flatMap_row
    {β : Type}
    (h w : Nat)
    (visit : Nat → List β) :
    (List.range h).flatMap
        (fun i =>
          (List.range w).flatMap fun j => visit (i * w + j)) =
      (List.range (h * w)).flatMap visit := by
  rw [← range_flatMap_row, List.flatMap_assoc]
  congr 1
  funext i
  rw [List.flatMap_map]

/- An index of a rectangle lies inside. -/
theorem index_lt
    {h w i j : Nat}
    (hRow : i < h)
    (hColumn : j < w) :
    i * w + j < h * w := by
  have hNext : (i + 1) * w ≤ h * w :=
    Nat.mul_le_mul_right w hRow
  rw [Nat.succ_mul] at hNext
  omega

end RowMajor

------------------------------------------------------------
-- Moves
------------------------------------------------------------

namespace RowMajor

variable {α : Type}

/- An assignment `dest[d] = src[s]`. -/
structure Move where
  dest : Nat
  src : Nat
deriving DecidableEq, Repr

/- One assignment; an access outside an array is `none`. -/
def applyMove
    (src dest : List α)
    (move : Move) : Option (List α) := do
  let value ← src[move.src]?
  if move.dest < dest.length then
    return dest.set move.dest value
  else
    none

/- The assignments in their order. -/
def applyMoves
    (src dest : List α)
    (moves : List Move) : Option (List α) :=
  moves.foldlM (applyMove src) dest

theorem applyMoves_cons
    (src dest : List α)
    (move : Move)
    (moves : List Move) :
    applyMoves src dest (move :: moves) =
      (applyMove src dest move).bind
        (fun dest => applyMoves src dest moves) := rfl

/- The values that the assignments read, if all are there. -/
def sources
    (src : List α)
    (moves : List Move) : Option (List α) :=
  moves.mapM fun move => src[move.src]?

/-
  Assignments to consecutive places, from place `k` on: the
  values that are read stand there afterwards.
-/
theorem applyMoves_inOrder
    {moves : List Move}
    {k : Nat}
    (hOrder :
      moves.map Move.dest = List.range' k moves.length)
    {dest : List α}
    (hFits : k + moves.length ≤ dest.length)
    (src : List α) :
    applyMoves src dest moves =
      (sources src moves).map fun values =>
        dest.take k ++ values ++
          dest.drop (k + moves.length) := by
  induction moves generalizing k dest with
  | nil =>
      simp [applyMoves, sources]
  | cons move moves ih =>
      rw [List.map_cons, List.length_cons, List.range'_succ,
        List.cons.injEq] at hOrder
      rw [List.length_cons] at hFits
      rcases hOrder with ⟨rfl, hOrder⟩
      rw [applyMoves_cons, sources, List.mapM_cons, applyMove]
      cases hValue : src[move.src]? with
      | none => rfl
      | some value =>
          have hInside : move.dest < dest.length := by omega
          have hFitsRest :
              move.dest + 1 + moves.length ≤
                (dest.set move.dest value).length := by
            rw [List.length_set]
            omega
          simp only [Option.bind_eq_bind, Option.bind_some,
            if_pos hInside, Option.pure_def]
          rw [ih hOrder hFitsRest, sources]
          cases hRest :
              moves.mapM (fun move => src[move.src]?) with
          | none => rfl
          | some values =>
              have hBehind :
                  move.dest < move.dest + 1 + moves.length := by
                omega
              have hTake :
                  (dest.set move.dest value).take
                      (move.dest + 1) =
                    dest.take move.dest ++ [value] := by
                rw [List.take_add_one, List.take_set_of_le
                  (Nat.le_refl _), List.getElem?_set_self hInside]
                rfl
              have hDrop :
                  (dest.set move.dest value).drop
                      (move.dest + 1 + moves.length) =
                    dest.drop
                      (move.dest + (moves.length + 1)) := by
                rw [List.drop_set_of_lt hBehind]
                congr 1
                omega
              simp only [Option.map_some, Option.bind_some,
                List.length_cons, hTake, hDrop]
              simp

/- Filling an array from its first place to its last one. -/
theorem applyMoves_whole
    {moves : List Move}
    (hOrder :
      moves.map Move.dest = List.range moves.length)
    {dest : List α}
    (hLength : dest.length = moves.length)
    (src : List α) :
    applyMoves src dest moves = sources src moves := by
  rw [List.range_eq_range'] at hOrder
  have hFits : 0 + moves.length ≤ dest.length := by omega
  rw [applyMoves_inOrder hOrder hFits, List.take_zero,
    List.drop_of_length_le (by omega)]
  cases sources src moves with
  | none => rfl
  | some values => simp

/- Reads that all find a value give their values. -/
theorem sources_of_inside
    {src : List α}
    {moves : List Move}
    (hInside : ∀ move ∈ moves, move.src < src.length) :
    ∃ values, sources src moves = some values := by
  induction moves with
  | nil => exact ⟨[], rfl⟩
  | cons move moves ih =>
      rw [List.forall_mem_cons] at hInside
      rcases ih hInside.2 with ⟨values, hValues⟩
      rw [sources] at hValues
      refine ⟨src.get ⟨move.src, hInside.1⟩ :: values, ?_⟩
      rw [sources, List.mapM_cons, hValues,
        List.getElem?_eq_getElem hInside.1]
      rfl

end RowMajor

import Mathlib.Data.List.Basic

/-
  Arrays on the heap, as the C library changes them.

  A block is the list of its cells. `realloc` keeps what fits
  and leaves new cells to chance; `memmove` copies a range of
  cells over another and leaves all others.

  Main declarations:
    * `Block.realloc` and `Block.realloc_add_one`
    * `Block.malloc`, `Block.overlay` and `Block.memcpy`
    * `Block.memmove` and `Block.memmove_down`
    * `Block.eraseIdx_zip`
-/

------------------------------------------------------------
-- Reallocation
------------------------------------------------------------

namespace Block

variable {α : Type}

/-
  The block with `n` cells; `junk` says what a cell holds
  that the old block did not have.
-/
def realloc
    (n : Nat)
    (junk : Nat → α)
    (block : List α) : List α :=
  (List.range n).map fun i => block[i]?.getD (junk i)

@[simp] theorem length_realloc
    (n : Nat)
    (junk : Nat → α)
    (block : List α) :
    (realloc n junk block).length = n := by
  simp [realloc]

/- A block that is cut keeps its first cells. -/
theorem realloc_of_le
    {n : Nat}
    {block : List α}
    (junk : Nat → α)
    (hLe : n ≤ block.length) :
    realloc n junk block = block.take n := by
  apply List.ext_getElem
  · simp [hLe]
  · intro i hi _
    rw [length_realloc] at hi
    have hInside : i < block.length := by omega
    simp [realloc, hInside]

/- One more cell: what was behind the block, or junk. -/
theorem realloc_add_one
    (n : Nat)
    (junk : Nat → α)
    (block : List α) :
    realloc (n + 1) junk block =
      realloc n junk block ++
        [(block.drop n).headD (junk n)] := by
  simp [realloc, List.range_succ, List.headD_eq_head?_getD]

/- Writing to the last cell. -/
theorem modify_length_append
    (block : List α)
    (cell : α)
    (write : α → α) :
    (block ++ [cell]).modify block.length write =
      block ++ [write cell] := by
  induction block with
  | nil => rfl
  | cons first block ih => simp [ih]

end Block

------------------------------------------------------------
-- New Blocks
------------------------------------------------------------

namespace Block

variable {α : Type}

/- A new block of `n` cells, which hold what `junk` says. -/
def malloc
    (n : Nat)
    (junk : Nat → α) : List α :=
  realloc n junk []

@[simp] theorem length_malloc
    (n : Nat)
    (junk : Nat → α) :
    (malloc n junk).length = n :=
  length_realloc n junk []

/- The block with other cells at its front. -/
def overlay (cells block : List α) : List α :=
  cells ++ block.drop cells.length

theorem length_overlay
    {cells block : List α}
    (hFits : cells.length ≤ block.length) :
    (overlay cells block).length = block.length := by
  rw [overlay, List.length_append, List.length_drop]
  omega

@[simp] theorem take_overlay
    (cells block : List α) :
    (overlay cells block).take cells.length = cells :=
  List.take_left

/-
  `cells` are copied to the front of the block; `none` is a
  copy that goes past its end.
-/
def memcpy (cells block : List α) : Option (List α) :=
  if cells.length ≤ block.length then
    some (overlay cells block)
  else
    none

theorem memcpy_of_le
    {cells block : List α}
    (hFits : cells.length ≤ block.length) :
    memcpy cells block = some (overlay cells block) :=
  if_pos hFits

end Block

------------------------------------------------------------
-- Moving Cells
------------------------------------------------------------

namespace Block

variable {α : Type}

/- `count` cells from `src` on are copied to `dest`. -/
def memmove
    (dest src count : Nat)
    (block : List α) : List α :=
  block.take dest ++ (block.drop src).take count ++
    block.drop (dest + count)

/-
  The cells behind `i` are moved down by one, in a block whose
  first `n` cells are in use: cell `i` goes, and the last cell
  in use is there twice.
-/
theorem memmove_down
    {i n : Nat}
    {block : List α}
    (hInside : i < n) :
    memmove i (i + 1) (n - i - 1) block =
      (block.take n).eraseIdx i ++ block.drop (n - 1) := by
  have hCount : n - (i + 1) = n - i - 1 := by omega
  have hEnd : i + (n - i - 1) = n - 1 := by omega
  have hErased :
      (block.take n).eraseIdx i =
        block.take i ++ (block.drop (i + 1)).take (n - i - 1) := by
    rw [List.eraseIdx_eq_take_drop_succ, List.take_take,
      Nat.min_eq_left (Nat.le_of_lt hInside),
      List.drop_take, hCount]
  rw [memmove, hErased, hEnd]

theorem length_memmove_down
    {i n : Nat}
    {block : List α}
    (hInside : i < n)
    (hLe : n ≤ block.length) :
    (memmove i (i + 1) (n - i - 1) block).length =
      block.length := by
  rw [memmove_down hInside, List.length_append,
    List.length_eraseIdx_of_lt (by simp; omega),
    List.length_take, List.length_drop]
  omega

/- What is in use after the move. -/
theorem take_memmove_down
    {i n : Nat}
    {block : List α}
    (hInside : i < n)
    (hLe : n ≤ block.length) :
    (memmove i (i + 1) (n - i - 1) block).take (n - 1) =
      (block.take n).eraseIdx i := by
  rw [memmove_down hInside]
  apply List.take_left'
  rw [List.length_eraseIdx_of_lt (by simp; omega),
    List.length_take]
  omega

/- The rest keeps its contents, the last cell in use too. -/
theorem drop_memmove_down
    {i n : Nat}
    {block : List α}
    (hInside : i < n)
    (hLe : n ≤ block.length) :
    (memmove i (i + 1) (n - i - 1) block).drop (n - 1) =
      block.drop (n - 1) := by
  rw [memmove_down hInside]
  apply List.drop_left'
  rw [List.length_eraseIdx_of_lt (by simp; omega),
    List.length_take]
  omega

/- Two arrays with parallel entries lose the same entry. -/
theorem eraseIdx_zip
    {β : Type}
    (xs : List α)
    (ys : List β)
    (i : Nat) :
    (xs.zip ys).eraseIdx i =
      (xs.eraseIdx i).zip (ys.eraseIdx i) := by
  induction xs generalizing ys i with
  | nil => rfl
  | cons x xs ih =>
      cases ys with
      | nil => simp
      | cons y ys =>
          cases i with
          | zero => rfl
          | succ i => simp [ih]

end Block

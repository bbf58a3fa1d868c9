import Mathlib.Data.List.Basic
import Mathlib.Data.List.Pairwise
import Mathlib.Tactic.Push

/-
  Files that are written whole under a name: a file replaces
  an older one of the same name.

  Main declarations:
    * `Overwrites.store` and `Overwrites.storeAll`
    * `Overwrites.kept_iff`
-/

------------------------------------------------------------
-- Writes
------------------------------------------------------------

namespace Overwrites

variable {κ β : Type} [DecidableEq κ]

def store
    (disk : κ → Option β)
    (write : κ × β) : κ → Option β :=
  fun name => if name = write.1 then some write.2 else disk name

def storeAll
    (disk : κ → Option β)
    (writes : List (κ × β)) : κ → Option β :=
  writes.foldl store disk

theorem store_self
    (disk : κ → Option β)
    (write : κ × β) :
    store disk write write.1 = some write.2 :=
  if_pos rfl

/- A name that is not written keeps its file. -/
theorem storeAll_of_forall_ne
    {name : κ}
    {writes : List (κ × β)}
    (hNe : ∀ write ∈ writes, name ≠ write.1)
    (disk : κ → Option β) :
    storeAll disk writes name = disk name := by
  induction writes generalizing disk with
  | nil => rfl
  | cons write writes ih =>
      have hTail := ih (List.forall_mem_of_forall_mem_cons hNe)
        (store disk write)
      rw [storeAll, List.foldl_cons]
      rw [storeAll] at hTail
      rw [hTail, store,
        if_neg (hNe write List.mem_cons_self)]

/-
  All writes are kept exactly when no later one has the name
  of an earlier one and something else to store.
-/
theorem kept_iff
    (disk : κ → Option β)
    (writes : List (κ × β)) :
    (∀ write ∈ writes,
        storeAll disk writes write.1 = some write.2) ↔
      writes.Pairwise fun write later =>
        write.1 = later.1 → write.2 = later.2 := by
  induction writes generalizing disk with
  | nil => simp
  | cons write writes ih =>
      have hStore :
          storeAll disk (write :: writes) =
            storeAll (store disk write) writes := rfl
      rw [List.forall_mem_cons, List.pairwise_cons, hStore,
        ← ih (store disk write)]
      refine and_congr_left ?_
      intro hLater
      constructor
      · intro hKept later hMem hName
        have hContent := hLater later hMem
        rw [← hName, hKept] at hContent
        exact Option.some.inj hContent
      · intro hSame
        by_cases hAgain : ∃ later ∈ writes, write.1 = later.1
        · rcases hAgain with ⟨later, hMem, hName⟩
          rw [hSame later hMem hName, hName]
          exact hLater later hMem
        · push Not at hAgain
          rw [storeAll_of_forall_ne hAgain, store_self]

end Overwrites

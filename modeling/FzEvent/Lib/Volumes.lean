import Mathlib.Logic.Basic

/-
  Logs that are kept in volumes: an entry goes into the open
  volume, which may be closed and followed by another at any
  time.

  Main declarations:
    * `Volumes.Log` and `Log.entries`
    * `Log.add`, `Log.start` and `Log.stop`
    * `Volumes.Kept`
-/

------------------------------------------------------------
-- Logs
------------------------------------------------------------

namespace Volumes

variable {P β : Type}

/- The closed volumes in their order, and the open one. -/
structure Log (P : Type) where
  closed : List (List P)
  current : Option (List P)
deriving DecidableEq, Repr

namespace Log

def empty : Log P where
  closed := []
  current := none

/- What the volumes hold one after the other. -/
def entries (v : Log P) : List P :=
  v.closed.flatten ++ v.current.getD []

/- There must be an open volume. -/
def add
    (v : Log P)
    (p : P) : Option (Log P) :=
  v.current.map fun ps => { v with current := some (ps ++ [p]) }

/- A volume that is open already stays as it is. -/
def start (v : Log P) : Log P :=
  { v with current := some (v.current.getD []) }

def stop (v : Log P) : Option (Log P) :=
  v.current.map fun ps => ⟨v.closed ++ [ps], none⟩

variable {v w : Log P}

theorem entries_add
    {p : P}
    (hAdd : v.add p = some w) :
    w.entries = v.entries ++ [p] := by
  rcases Option.map_eq_some_iff.mp hAdd with
    ⟨ps, hCurrent, rfl⟩
  simp [entries, hCurrent]

@[simp] theorem entries_start
    (v : Log P) :
    v.start.entries = v.entries := rfl

theorem entries_stop
    (hStop : v.stop = some w) :
    w.entries = v.entries := by
  rcases Option.map_eq_some_iff.mp hStop with
    ⟨ps, hCurrent, rfl⟩
  simp [entries, hCurrent]

end Log

end Volumes

------------------------------------------------------------
-- Stores
------------------------------------------------------------

namespace Volumes

variable {P β : Type}

/-
  A store keeps the volumes of a log: `body` is what it has of
  an open volume, and `whole` what it has of a closed one, the
  newest first.
-/
structure Kept
    (body whole : List P → β)
    (current : Option β)
    (closed : List β)
    (v : Log P) : Prop where
  current_eq : current = v.current.map body
  closed_eq : closed = (v.closed.map whole).reverse

variable {body whole : List P → β}
variable {current : Option β}
variable {closed : List β}
variable {v : Log P}

theorem kept_empty :
    Kept body whole none [] (Log.empty : Log P) where
  current_eq := rfl
  closed_eq := rfl

/- An entry is put behind those of the open volume. -/
theorem Kept.add
    (hKept : Kept body whole current closed v)
    {p : P}
    {b : β}
    (hOpen : current = some b)
    (append : β → β)
    (hAppend : ∀ ps, append (body ps) = body (ps ++ [p])) :
    ∃ w, v.add p = some w ∧
      Kept body whole (some (append b)) closed w := by
  have hCurrent := hKept.current_eq
  rw [hOpen] at hCurrent
  rcases Option.map_eq_some_iff.mp hCurrent.symm with
    ⟨ps, hOpenVolume, rfl⟩
  refine ⟨{ v with current := some (ps ++ [p]) }, ?_, ?_,
    hKept.closed_eq⟩
  · rw [Log.add, hOpenVolume, Option.map_some]
  · rw [hAppend, Option.map_some]

/- A new volume is empty; an open one is left. -/
theorem Kept.start
    (hKept : Kept body whole current closed v) :
    Kept body whole (some (current.getD (body []))) closed
      v.start := by
  refine ⟨?_, hKept.closed_eq⟩
  rw [hKept.current_eq, Log.start, Option.map_some]
  cases v.current <;> rfl

/- The open volume becomes the newest of the closed ones. -/
theorem Kept.stop
    (hKept : Kept body whole current closed v)
    {b : β}
    (hOpen : current = some b)
    (finish : β → β)
    (hFinish : ∀ ps, finish (body ps) = whole ps) :
    ∃ w, v.stop = some w ∧
      Kept body whole none (finish b :: closed) w := by
  have hCurrent := hKept.current_eq
  rw [hOpen] at hCurrent
  rcases Option.map_eq_some_iff.mp hCurrent.symm with
    ⟨ps, hOpenVolume, rfl⟩
  refine ⟨⟨v.closed ++ [ps], none⟩, ?_, rfl, ?_⟩
  · rw [Log.stop, hOpenVolume, Option.map_some]
  · rw [hFinish, hKept.closed_eq]
    simp

end Volumes

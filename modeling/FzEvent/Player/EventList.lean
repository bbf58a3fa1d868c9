import FzEvent.Common.InputEvent

/-
  The player's event list: `event_list`, `insert_event_list`,
  `get_count`, `get_event_data` and `destroy_event_list`.

  Main declarations:
    * `FzEvent.EventNode` and `FzEvent.EventList`
    * `EventList.insert`, `getCount`, `getEventData`
    * `EventList.getEventData_eq`
-/

------------------------------------------------------------
-- Nodes and Lists
------------------------------------------------------------

namespace FzEvent

/-
  One node of the list. The array `e` of `event_count` events
  is a list; the null pointer is the empty one.
-/
structure EventNode where
  seq : Int
  id : Int32
  eventCount : Int
  e : List InputEvent
deriving DecidableEq, Repr

/-
  The static members `seq_number` and `head`. The nodes are
  numbered from 0 in their order, and `seq_number` is the
  next number: only `insert_event_list` and
  `destroy_event_list` change the two.
-/
structure EventList where
  seqNumber : Int
  nodes : List EventNode
  seqNumber_eq : seqNumber = nodes.length
  seq_eq :
    ∀ (k : Nat) (hLt : k < nodes.length), nodes[k].seq = k
deriving DecidableEq

namespace EventList

def empty : EventList where
  seqNumber := 0
  nodes := []
  seqNumber_eq := rfl
  seq_eq k hLt := absurd hLt (Nat.not_lt_zero k)

@[simp] theorem seqNumber_empty : empty.seqNumber = 0 := rfl

@[simp] theorem nodes_empty : empty.nodes = [] := rfl

/- `get_count` -/
def getCount (list : EventList) : Int :=
  list.nodes.length

/- `insert_event_list` -/
def insert
    (list : EventList)
    (id : Int32)
    (eventCount : Int)
    (e : List InputEvent) : EventList where
  seqNumber := list.seqNumber + 1
  nodes := list.nodes ++ [⟨list.seqNumber, id, eventCount, e⟩]
  seqNumber_eq := by
    simp [list.seqNumber_eq]
  seq_eq k hLt := by
    by_cases hOld : k < list.nodes.length
    · simpa [List.getElem_append_left hOld]
        using list.seq_eq k hOld
    · have hLast : k = list.nodes.length := by
        simp only [List.length_append,
          List.length_singleton] at hLt
        omega
      subst hLast
      simp [list.seqNumber_eq]

/- `get_event_data` -/
def getEventData
    (list : EventList)
    (seq : Int) : Option EventNode :=
  list.nodes.find? fun p => p.seq = seq

/- `destroy_event_list` -/
def destroy (_ : EventList) : EventList :=
  empty

/- The number of a node is its place. -/
theorem getEventData_eq
    (list : EventList)
    {k : Nat}
    (hLt : k < list.nodes.length) :
    list.getEventData k = some list.nodes[k] := by
  rw [getEventData, List.find?_eq_some_iff_getElem]
  refine ⟨by simpa using list.seq_eq k hLt, k, hLt, rfl, ?_⟩
  intro j hBefore
  have hSeq := list.seq_eq j (by omega)
  simp only [hSeq, Bool.not_eq_true', decide_eq_false_iff_not]
  omega

theorem getEventData_eq_getElem?
    (list : EventList)
    (k : Nat) :
    list.getEventData k = list.nodes[k]? := by
  by_cases hLt : k < list.nodes.length
  · rw [list.getEventData_eq hLt,
      List.getElem?_eq_getElem hLt]
  · rw [List.getElem?_eq_none (by omega), getEventData,
      List.find?_eq_none]
    intro p hMem
    rcases List.getElem_of_mem hMem with ⟨j, hBefore, rfl⟩
    have hSeq := list.seq_eq j hBefore
    simp only [hSeq, decide_eq_true_eq]
    omega

end EventList

end FzEvent

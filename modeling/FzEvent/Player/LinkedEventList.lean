import FzEvent.Lib.LinkedCells
import FzEvent.Lib.Transition
import FzEvent.Player.PlayEvent

/-
  The event list in memory: `event_list` as linked cells, with
  its static members `seq_number` and `head`.

  Each loop walks along `next`; the number of its rounds that
  are looked at is a parameter. The linked list refines the
  event list: after the same calls it holds the same nodes.

  Main declarations:
    * `FzEvent.LinkedList` and `LinkedList.insertEventList`
    * `LinkedList.getCount`, `getEventData` and
      `destroyEventList`
    * `LinkedList.Holds`
    * `LinkedList.holds_of_insertCell`
    * `LinkedList.getEventData_eq`
-/

------------------------------------------------------------
-- Memory
------------------------------------------------------------

namespace FzEvent

namespace LinkedList

/- `event_list`; the array `e` is a list, null the empty one. -/
structure Cell where
  seq : Int32
  id : Int32
  eventCount : Int
  e : List InputEvent
  next : Option Nat
deriving DecidableEq, Repr

/- The cells by address; a freed address holds none. -/
abbrev Heap : Type := Nat → Option Cell

end LinkedList

/- The static members, and the cells. -/
structure LinkedList where
  seqNumber : Int32
  head : Option Nat
  heap : LinkedList.Heap

namespace LinkedList

/- The members as they are initialised. -/
def empty : LinkedList where
  seqNumber := 0
  head := none
  heap := fun _ => none

/- `while(t->next) t = t->next;` -/
def lastFrom
    (heap : Heap) : Nat → Nat → Option Nat
| 0, _ => none
| rounds + 1, t => do
    let cell ← heap t
    match cell.next with
    | some next => lastFrom heap rounds next
    | none => return t

/- The loop of `get_count`. -/
def countFrom
    (heap : Heap) : Nat → Option Nat → Int32 → Option Int32
| _, none, count => some count
| 0, some _, _ => none
| rounds + 1, some p, count => do
    let cell ← heap p
    countFrom heap rounds cell.next (count + 1)

/- The loop of `get_event_data`. -/
def findFrom
    (heap : Heap)
    (seq : Int32) : Nat → Option Nat → Option (Option Nat)
| _, none => some none
| 0, some _ => none
| rounds + 1, some p => do
    let cell ← heap p
    if cell.seq = seq then
      return some p
    else
      findFrom heap seq rounds cell.next

/- The loop of `destroy_event_list`. -/
def freeFrom : Nat → Option Nat → Heap → Option Heap
| _, none, heap => some heap
| 0, some _, _ => none
| rounds + 1, some r, heap => do
    let cell ← heap r
    freeFrom rounds cell.next (Function.update heap r none)

/-
  `insert_event_list` without its result; `malloc` finds room
  at `p`.
-/
def insertCell
    (rounds : Nat)
    (s : LinkedList)
    (id : Int32)
    (eventCount : Int)
    (e : List InputEvent)
    (p : Nat) : Option LinkedList :=
  if s.heap p = none then
    let heap := Function.update s.heap p
      (some ⟨s.seqNumber, id, eventCount, e, none⟩)
    match s.head with
    | none => some ⟨s.seqNumber + 1, some p, heap⟩
    | some head => do
        let t ← lastFrom heap rounds head
        let cell ← heap t
        return ⟨s.seqNumber + 1, some head,
          Function.update heap t
            (some { cell with next := some p })⟩
  else
    none

/- `get_count` -/
def getCount
    (rounds : Nat)
    (s : LinkedList) : Option Int32 :=
  countFrom s.heap rounds s.head 0

/- `insert_event_list` of the player. -/
def insertEventList
    (rounds : Nat)
    (s : LinkedList)
    (id : Int32)
    (eventCount : Int)
    (e : List InputEvent)
    (p : Nat) : Option (Int32 × LinkedList) := do
  let s ← insertCell rounds s id eventCount e p
  let count ← getCount rounds s
  return (count, s)

/- `insert_event_list` of the recorder's own player. -/
def insertEventListOfRecorder
    (rounds : Nat)
    (s : LinkedList)
    (id : Int32)
    (eventCount : Int)
    (e : List InputEvent)
    (p : Nat) : Option (Int32 × LinkedList) := do
  let s ← insertCell rounds s id eventCount e p
  return (0, s)

/- `get_event_data`; null is `some none`. -/
def getEventData
    (rounds : Nat)
    (s : LinkedList)
    (seq : Int32) : Option (Option Nat) :=
  findFrom s.heap seq rounds s.head

/- `destroy_event_list` -/
def destroyEventList
    (rounds : Nat)
    (s : LinkedList) : Option (Int32 × LinkedList) := do
  let heap ← freeFrom rounds s.head s.heap
  return (0, ⟨0, none, heap⟩)

/- `play_event`, as in `PlayEvent`, over the linked list. -/
def playEvent
    (rounds : Nat)
    (s : LinkedList)
    (seq : Int32) : Option (Int32 × List InputEvent) := do
  let p ← getEventData rounds s seq
  let p ← p
  let cell ← s.heap p
  let events ← playLoop cell.e cell.eventCount.toNat
  return (cell.id, events ++ [closingReport events])

end LinkedList

end FzEvent

------------------------------------------------------------
-- The Loops
------------------------------------------------------------

namespace FzEvent

open LinkedCells

namespace LinkedList

/- The successors of the cells. -/
def nextIn
    (heap : Heap)
    (a : Nat) : Option (Option Nat) :=
  (heap a).map Cell.next

theorem exists_cell_of_nextIn
    {heap : Heap}
    {a : Nat}
    {q : Option Nat}
    (hNext : nextIn heap a = some q) :
    ∃ cell, heap a = some cell ∧ cell.next = q :=
  Option.map_eq_some_iff.mp hNext

/- The walk to the end finds the last cell. -/
theorem lastFrom_eq
    {heap : Heap}
    {head last : Nat}
    {addrs : List Nat}
    (hLinked :
      Linked (nextIn heap) (some head) (addrs ++ [last]))
    (rounds : Nat) :
    lastFrom heap rounds head =
      if addrs.length < rounds then some last else none := by
  induction addrs generalizing head rounds with
  | nil =>
      rcases hLinked with ⟨hHead, q, hNext, hEnd⟩
      cases hHead
      rcases exists_cell_of_nextIn hNext with
        ⟨cell, hCell, hQ⟩
      have hNull : cell.next = none := hQ.trans hEnd
      cases rounds with
      | zero => rfl
      | succ rounds => simp [lastFrom, hCell, hNull]
  | cons a addrs ih =>
      rcases hLinked with ⟨hHead, q, hNext, hRest⟩
      cases hHead
      rcases exists_cell_of_nextIn hNext with
        ⟨cell, hCell, hQ⟩
      cases rounds with
      | zero => rfl
      | succ rounds =>
          cases q with
          | none => cases addrs <;> cases hRest.1
          | some second =>
              simp only [lastFrom, hCell, hQ,
                Option.bind_eq_bind, Option.bind_some]
              rw [ih hRest, List.length_cons]
              simp only [Nat.add_lt_add_iff_right]

/- The walk of `get_count` counts the cells. -/
theorem countFrom_eq
    {heap : Heap}
    {p : Option Nat}
    {addrs : List Nat}
    (hLinked : Linked (nextIn heap) p addrs)
    (rounds : Nat)
    (count : Int32) :
    countFrom heap rounds p count =
      if addrs.length ≤ rounds then
        some (count + Int32.ofNat addrs.length)
      else
        none := by
  induction addrs generalizing p rounds count with
  | nil =>
      rw [show p = none from hLinked]
      cases rounds <;> simp [countFrom]
  | cons a addrs ih =>
      rcases hLinked with ⟨rfl, q, hNext, hRest⟩
      rcases exists_cell_of_nextIn hNext with
        ⟨cell, hCell, rfl⟩
      cases rounds with
      | zero => rfl
      | succ rounds =>
          simp only [countFrom, hCell, Option.bind_eq_bind,
            Option.bind_some]
          rw [ih hRest, List.length_cons, Int32.ofNat_add,
            Int32.add_assoc, Int32.add_comm 1]
          simp only [Nat.add_le_add_iff_right]
          rfl

/- The walk of `destroy_event_list` frees the cells. -/
theorem freeFrom_eq
    {heap : Heap}
    {p : Option Nat}
    {addrs : List Nat}
    (hLinked : Linked (nextIn heap) p addrs)
    (rounds : Nat) :
    freeFrom rounds p heap =
      if addrs.length ≤ rounds then
        some fun a => if a ∈ addrs then none else heap a
      else
        none := by
  induction addrs generalizing p rounds heap with
  | nil =>
      rw [show p = none from hLinked]
      cases rounds <;> simp [freeFrom]
  | cons a addrs ih =>
      have hNodup := hLinked.nodup
      rw [List.nodup_cons] at hNodup
      rcases hLinked with ⟨rfl, q, hNext, hRest⟩
      rcases exists_cell_of_nextIn hNext with
        ⟨cell, hCell, rfl⟩
      have hFrame :
          Linked (nextIn (Function.update heap a none))
            cell.next addrs := by
        apply hRest.frame
        intro b hMem
        have hOther : b ≠ a := by
          rintro rfl
          exact hNodup.1 hMem
        rw [nextIn, nextIn, Function.update_of_ne hOther]
      cases rounds with
      | zero => rfl
      | succ rounds =>
          simp only [freeFrom, hCell, Option.bind_eq_bind,
            Option.bind_some]
          rw [ih hFrame, List.length_cons]
          simp only [Nat.add_le_add_iff_right]
          congr 2
          funext b
          by_cases hSame : b = a
          · subst hSame
            simp
          · simp [hSame]

end LinkedList

end FzEvent

------------------------------------------------------------
-- What a Linked List Holds
------------------------------------------------------------

namespace FzEvent

open LinkedCells

namespace LinkedList

/- The fields of a cell are those of a node. -/
structure Cell.Shows
    (cell : Cell)
    (node : EventNode) : Prop where
  seq_eq : cell.seq = Int32.ofInt node.seq
  id_eq : cell.id = node.id
  eventCount_eq : cell.eventCount = node.eventCount
  e_eq : cell.e = node.e

/- The cell at an address shows a node. -/
def ShowsAt
    (heap : Heap)
    (a : Nat)
    (node : EventNode) : Prop :=
  ∃ cell, heap a = some cell ∧ cell.Shows node

/- The cells from `head` on are the nodes of the list. -/
structure Holds
    (s : LinkedList)
    (addrs : List Nat)
    (list : EventList) : Prop where
  linked : Linked (nextIn s.heap) s.head addrs
  seqNumber_eq : s.seqNumber = Int32.ofInt list.seqNumber
  shows : List.Forall₂ (ShowsAt s.heap) addrs list.nodes
  live : ∀ a, s.heap a ≠ none ↔ a ∈ addrs

variable {s : LinkedList}
variable {addrs : List Nat} {list : EventList}

theorem holds_empty : empty.Holds [] EventList.empty where
  linked := rfl
  seqNumber_eq := rfl
  shows := List.Forall₂.nil
  live := by simp [empty]

namespace Holds

theorem length_eq
    (hHolds : s.Holds addrs list) :
    addrs.length = list.nodes.length :=
  hHolds.shows.length_eq

theorem not_mem_of_free
    (hHolds : s.Holds addrs list)
    {p : Nat}
    (hFree : s.heap p = none) :
    p ∉ addrs := by
  intro hMem
  exact (hHolds.live p).mpr hMem hFree

/- The cell of node `k`. -/
theorem showsAt
    (hHolds : s.Holds addrs list)
    {k a : Nat}
    (hAddr : addrs[k]? = some a) :
    ∃ node,
      list.nodes[k]? = some node ∧ ShowsAt s.heap a node := by
  rcases List.getElem?_eq_some_iff.mp hAddr with ⟨hLt, rfl⟩
  have hNode : k < list.nodes.length := by
    rw [← hHolds.length_eq]
    exact hLt
  refine ⟨list.nodes[k], List.getElem?_eq_getElem hNode, ?_⟩
  exact (List.forall₂_iff_get.mp hHolds.shows).2 k hLt hNode

end Holds

/- Cells that stay the same show the same nodes. -/
theorem forall₂_showsAt_congr
    {heap heap' : Heap}
    {nodes : List EventNode}
    (hShows : List.Forall₂ (ShowsAt heap) addrs nodes)
    (hSame :
      ∀ a ∈ addrs, ∀ cell, heap a = some cell →
        ∃ cell', heap' a = some cell' ∧
          cell'.seq = cell.seq ∧ cell'.id = cell.id ∧
          cell'.eventCount = cell.eventCount ∧
          cell'.e = cell.e) :
    List.Forall₂ (ShowsAt heap') addrs nodes := by
  induction hShows with
  | nil => exact List.Forall₂.nil
  | cons hFirst hRest ih =>
      rw [List.forall_mem_cons] at hSame
      rcases hFirst with ⟨cell, hCell, hShow⟩
      rcases hSame.1 cell hCell with
        ⟨cell', hCell', hSeq, hId, hCount, hE⟩
      refine List.Forall₂.cons ⟨cell', hCell', ?_⟩
        (ih hSame.2)
      exact
        { seq_eq := hSeq.trans hShow.seq_eq
          id_eq := hId.trans hShow.id_eq
          eventCount_eq := hCount.trans hShow.eventCount_eq
          e_eq := hE.trans hShow.e_eq }

end LinkedList

end FzEvent

------------------------------------------------------------
-- Insert
------------------------------------------------------------

namespace FzEvent

open LinkedCells

namespace LinkedList

variable {s : LinkedList}
variable {addrs : List Nat} {list : EventList}
variable {id : Int32} {eventCount : Int}
variable {e : List InputEvent} {p : Nat}

/- The cell that is inserted. -/
def newCell
    (s : LinkedList)
    (id : Int32)
    (eventCount : Int)
    (e : List InputEvent) : Cell :=
  ⟨s.seqNumber, id, eventCount, e, none⟩

/- The new cell shows the node that the list appends. -/
theorem Holds.newCell_shows
    (hHolds : s.Holds addrs list) :
    (s.newCell id eventCount e).Shows
      ⟨list.seqNumber, id, eventCount, e⟩ where
  seq_eq := hHolds.seqNumber_eq
  id_eq := rfl
  eventCount_eq := rfl
  e_eq := rfl

theorem Holds.seqNumber_succ
    (hHolds : s.Holds addrs list) :
    s.seqNumber + 1 =
      Int32.ofInt
        (list.insert id eventCount e).seqNumber := by
  have hOne : (1 : Int32) = Int32.ofInt 1 := rfl
  rw [hHolds.seqNumber_eq, hOne, ← Int32.ofInt_add]
  rfl

theorem nodes_insert
    (list : EventList) :
    (list.insert id eventCount e).nodes =
      list.nodes ++ [⟨list.seqNumber, id, eventCount, e⟩] :=
  rfl

/- Without cells the new one is the first. -/
theorem insertCell_first
    (hHolds : s.Holds [] list)
    (hFree : s.heap p = none)
    (rounds : Nat) :
    ∃ s',
      insertCell rounds s id eventCount e p = some s' ∧
        s'.Holds [p] (list.insert id eventCount e) := by
  have hHead : s.head = none := hHolds.linked
  have hNodes : list.nodes = [] :=
    List.eq_nil_of_length_eq_zero hHolds.length_eq.symm
  refine ⟨⟨s.seqNumber + 1, some p,
    Function.update s.heap p
      (some (s.newCell id eventCount e))⟩, ?_, ?_⟩
  · rw [insertCell, if_pos hFree, hHead]
    rfl
  · refine
      { linked := linked_singleton (by simp [nextIn, newCell])
        seqNumber_eq := hHolds.seqNumber_succ
        shows := ?_
        live := ?_ }
    · rw [nodes_insert, hNodes]
      apply List.Forall₂.cons _ List.Forall₂.nil
      exact ⟨_, Function.update_self .., hHolds.newCell_shows⟩
    · intro a
      have hLive := (hHolds.live a).not
      by_cases hSame : a = p
      · simp [hSame]
      · simp only [List.not_mem_nil, not_false_eq_true,
          iff_true, not_not] at hLive
        simp [hSame, hLive]

section

variable {front : List Nat} {last : Nat} {cell : Cell}

/- The new cell is there, and not linked yet. -/
theorem Holds.linked_placed
    (hHolds : s.Holds addrs list)
    (hFree : s.heap p = none) :
    Linked
      (nextIn (Function.update s.heap p
        (some (s.newCell id eventCount e)))) s.head addrs := by
  have hNew := hHolds.not_mem_of_free hFree
  apply hHolds.linked.frame
  intro b hMem
  have hNe : b ≠ p := by
    rintro rfl
    exact hNew hMem
  rw [nextIn, nextIn, Function.update_of_ne hNe]

/- The heap once the last cell points to the new one. -/
def linkedBehind
    (s : LinkedList)
    (id : Int32)
    (eventCount : Int)
    (e : List InputEvent)
    (last p : Nat)
    (cell : Cell) : Heap :=
  appendCell s.heap last p { cell with next := some p }
    (s.newCell id eventCount e)

theorem Holds.linked_linkedBehind
    (hHolds : s.Holds (front ++ [last]) list)
    (hFree : s.heap p = none) :
    Linked (nextIn (s.linkedBehind id eventCount e last p cell))
      s.head (front ++ [last, p]) := by
  rcases hHolds.linked.apart
    (hHolds.not_mem_of_free hFree) with ⟨hOther, hFront⟩
  apply hHolds.linked.snoc
  · rw [nextIn, linkedBehind, appendCell_last]
    rfl
  · rw [nextIn, linkedBehind, appendCell_new hOther]
    rfl
  · intro b hMem
    rw [nextIn, nextIn, linkedBehind,
      appendCell_of_ne (hFront b hMem).1 (hFront b hMem).2]

theorem Holds.shows_linkedBehind
    (hHolds : s.Holds (front ++ [last]) list)
    (hFree : s.heap p = none)
    (hCell : s.heap last = some cell) :
    List.Forall₂
      (ShowsAt (s.linkedBehind id eventCount e last p cell))
      (front ++ [last, p])
      (list.insert id eventCount e).nodes := by
  have hNew := hHolds.not_mem_of_free hFree
  rcases hHolds.linked.apart hNew with ⟨hOther, _⟩
  rw [nodes_insert, show front ++ [last, p] =
    front ++ [last] ++ [p] by simp]
  apply List.rel_append
  · apply forall₂_showsAt_congr hHolds.shows
    intro b hMem cellB hCellB
    by_cases hSame : b = last
    · subst hSame
      rw [hCell] at hCellB
      cases hCellB
      exact ⟨_, appendCell_last, rfl, rfl, rfl, rfl⟩
    · have hNe : b ≠ p := by
        rintro rfl
        exact hNew hMem
      refine ⟨cellB, ?_, rfl, rfl, rfl, rfl⟩
      rw [linkedBehind, appendCell_of_ne hSame hNe, hCellB]
  · apply List.Forall₂.cons _ List.Forall₂.nil
    exact ⟨_, appendCell_new hOther, hHolds.newCell_shows⟩

/- Otherwise the new cell is put behind the last one. -/
theorem insertCell_behind
    (hHolds : s.Holds (front ++ [last]) list)
    (hFree : s.heap p = none)
    {rounds : Nat}
    (hRounds : front.length < rounds) :
    ∃ s',
      insertCell rounds s id eventCount e p = some s' ∧
        s'.Holds (front ++ [last, p])
          (list.insert id eventCount e) := by
  have hOther :=
    (hHolds.linked.apart (hHolds.not_mem_of_free hFree)).1
  have hLastMem : last ∈ front ++ [last] := by simp
  rcases Option.ne_none_iff_exists'.mp
      ((hHolds.live last).mpr hLastMem) with ⟨cell, hCell⟩
  have hWalk :
      Linked
        (nextIn (Function.update s.heap p
          (some (s.newCell id eventCount e)))) s.head
        (front ++ [last]) :=
    hHolds.linked_placed hFree
  rcases hHead : s.head with _ | head
  · rw [hHead] at hWalk
    exact absurd (hWalk.eq_nil_iff.mp rfl) (by simp)
  rw [hHead] at hWalk
  refine ⟨⟨s.seqNumber + 1, some head,
    s.linkedBehind id eventCount e last p cell⟩, ?_, ?_⟩
  · have hLast := lastFrom_eq hWalk rounds
    rw [if_pos hRounds, newCell] at hLast
    rw [insertCell, if_pos hFree, hHead]
    simp only [hLast, Option.bind_eq_bind, Option.bind_some,
      Function.update_of_ne hOther, hCell]
    rfl
  · exact
      { linked := hHead ▸ hHolds.linked_linkedBehind hFree
        seqNumber_eq := hHolds.seqNumber_succ
        shows := hHolds.shows_linkedBehind hFree hCell
        live := appendCell_live hHolds.live hOther }

end

/- `insert_event_list` appends a node. -/
theorem holds_insertCell
    (hHolds : s.Holds addrs list)
    (hFree : s.heap p = none)
    {rounds : Nat}
    (hRounds : addrs.length ≤ rounds) :
    ∃ s',
      insertCell rounds s id eventCount e p = some s' ∧
        s'.Holds (addrs ++ [p])
          (list.insert id eventCount e) := by
  rcases List.eq_nil_or_concat addrs with
    rfl | ⟨front, last, rfl⟩
  · exact insertCell_first hHolds hFree rounds
  · rw [List.concat_eq_append] at hHolds hRounds ⊢
    rw [List.length_append, List.length_singleton] at hRounds
    rw [List.append_assoc]
    exact insertCell_behind hHolds hFree hRounds

end LinkedList

end FzEvent

------------------------------------------------------------
-- The Calls
------------------------------------------------------------

namespace FzEvent

open LinkedCells

namespace LinkedList

variable {s s' : LinkedList}
variable {addrs : List Nat} {list : EventList}
variable {id : Int32} {eventCount : Int}
variable {e : List InputEvent} {p : Nat}

/- More rounds find the same last cell. -/
theorem lastFrom_mono
    {heap : Heap}
    {rounds more t last : Nat}
    (hLast : lastFrom heap rounds t = some last)
    (hLe : rounds ≤ more) :
    lastFrom heap more t = some last := by
  induction rounds generalizing more t with
  | zero => cases hLast
  | succ rounds ih =>
      cases more with
      | zero => cases hLe
      | succ more =>
          simp only [lastFrom, Option.bind_eq_bind,
            Option.bind_eq_some_iff] at hLast ⊢
          rcases hLast with ⟨cell, hCell, hRest⟩
          refine ⟨cell, hCell, ?_⟩
          cases hNext : cell.next with
          | none => simpa [hNext] using hRest
          | some next =>
              rw [hNext] at hRest
              exact ih hRest (Nat.le_of_succ_le_succ hLe)

theorem insertCell_mono
    {rounds more : Nat}
    (hInsert :
      insertCell rounds s id eventCount e p = some s')
    (hLe : rounds ≤ more) :
    insertCell more s id eventCount e p = some s' := by
  unfold insertCell at hInsert ⊢
  split at hInsert
  · rename_i hFree
    rw [if_pos hFree]
    cases hHead : s.head with
    | none =>
        rw [hHead] at hInsert
        exact hInsert
    | some head =>
        rw [hHead] at hInsert
        simp only [Option.bind_eq_bind,
          Option.bind_eq_some_iff] at hInsert ⊢
        rcases hInsert with ⟨t, hLast, hRest⟩
        exact ⟨t, lastFrom_mono hLast hLe, hRest⟩
  · cases hInsert

/- An insertion that returns has appended a node. -/
theorem holds_of_insertCell
    (hHolds : s.Holds addrs list)
    {rounds : Nat}
    (hInsert :
      insertCell rounds s id eventCount e p = some s') :
    s'.Holds (addrs ++ [p])
      (list.insert id eventCount e) := by
  have hFree : s.heap p = none := by
    unfold insertCell at hInsert
    split at hInsert
    · assumption
    · cases hInsert
  rcases holds_insertCell hHolds hFree
      (Nat.le_max_right rounds addrs.length) with
    ⟨s'', hMore, hHolds'⟩
  have hSame := insertCell_mono hInsert
    (Nat.le_max_left rounds addrs.length)
  rw [hSame] at hMore
  cases hMore
  exact hHolds'

/- `get_count` is the number of nodes. -/
theorem getCount_eq
    (hHolds : s.Holds addrs list)
    (rounds : Nat) :
    getCount rounds s =
      if addrs.length ≤ rounds then
        some (Int32.ofInt list.getCount)
      else
        none := by
  rw [getCount, countFrom_eq hHolds.linked, Int32.zero_add,
    EventList.getCount, ← hHolds.length_eq]
  rfl

/- `destroy_event_list` leaves the list as initialised. -/
theorem destroyEventList_eq
    (hHolds : s.Holds addrs list)
    (rounds : Nat) :
    destroyEventList rounds s =
      if addrs.length ≤ rounds then
        some (0, empty)
      else
        none := by
  rw [destroyEventList, freeFrom_eq hHolds.linked]
  split
  · have hNone :
        (fun a => if a ∈ addrs then none else s.heap a) =
          empty.heap := by
      funext a
      have hLive := (hHolds.live a).not
      by_cases hMem : a ∈ addrs
      · rw [if_pos hMem]
        rfl
      · rw [if_neg hMem]
        exact not_not.mp (hLive.mpr hMem)
    rw [hNone]
    rfl
  · rfl

end LinkedList

end FzEvent

------------------------------------------------------------
-- Numbers and Places
------------------------------------------------------------

namespace FzEvent

open LinkedCells

namespace LinkedList

variable {s : LinkedList}
variable {addrs : List Nat} {list : EventList}

/- The place that a number stands for, behind number `j`. -/
def placeOf
    (addrs : List Nat)
    (j seq : Int) : Option Nat :=
  if j ≤ seq then addrs[(seq - j).toNat]? else none

/- Behind the first node, which has another number. -/
theorem placeOf_cons
    (a : Nat)
    (addrs : List Nat)
    {j seq : Int}
    (hOther : j ≠ seq) :
    placeOf (a :: addrs) j seq = placeOf addrs (j + 1) seq := by
  rw [placeOf, placeOf]
  by_cases hLe : j ≤ seq
  · have hSucc : (seq - j).toNat = (seq - (j + 1)).toNat + 1 := by
      omega
    rw [if_pos hLe, if_pos (by omega), hSucc,
      List.getElem?_cons_succ]
  · rw [if_neg hLe, if_neg (by omega)]

/-
  The walk of `get_event_data` over nodes that are numbered
  from `j` on, without reaching 2^31.
-/
theorem findFrom_eq
    {heap : Heap}
    {p : Option Nat}
    {nodes : List EventNode}
    (hLinked : Linked (nextIn heap) p addrs)
    (hShows : List.Forall₂ (ShowsAt heap) addrs nodes)
    {j : Int}
    (hFrom : 0 ≤ j)
    (hNumbered :
      ∀ (k : Nat) (node : EventNode),
        nodes[k]? = some node → node.seq = j + k)
    (hSmall : j + nodes.length ≤ 2147483648)
    (seq : Int32)
    {rounds : Nat}
    (hRounds : addrs.length ≤ rounds) :
    findFrom heap seq rounds p =
      some (placeOf addrs j seq.toInt) := by
  induction hShows generalizing p j rounds with
  | nil =>
      rw [show p = none from hLinked, placeOf]
      cases rounds <;> simp [findFrom]
  | @cons a node addrs nodes hFirst hRest ih =>
      rcases hLinked with ⟨rfl, q, hNext, hTail⟩
      rcases hFirst with ⟨cell, hCell, hShow⟩
      have hQ : cell.next = q := by
        rw [nextIn, hCell] at hNext
        exact Option.some.inj hNext
      rw [List.length_cons] at hRounds hSmall
      have hSeq : cell.seq = Int32.ofInt j := by
        have hNode := hNumbered 0 node rfl
        rw [hShow.seq_eq, hNode, Int.natCast_zero,
          Int.add_zero]
      have hToInt : (Int32.ofInt j).toInt = j := by
        apply Int32.toInt_ofInt_of_le <;> omega
      cases rounds with
      | zero => cases hRounds
      | succ rounds =>
          simp only [findFrom, hCell, Option.bind_eq_bind,
            Option.bind_some, hQ, hSeq]
          by_cases hSame : Int32.ofInt j = seq
          · rw [if_pos hSame, placeOf, ← hSame, hToInt,
              if_pos (Int.le_refl j), Int.sub_self]
            rfl
          · have hOther : j ≠ seq.toInt := by
              intro hEq
              apply hSame
              rw [hEq, Int32.ofInt_toInt]
            have hBehind :
                ∀ (k : Nat) (node' : EventNode),
                  nodes[k]? = some node' →
                    node'.seq = j + 1 + k := by
              intro k node' hNode
              have hHere := hNumbered (k + 1) node' hNode
              push_cast at hHere
              omega
            rw [if_neg hSame, placeOf_cons a addrs hOther]
            exact ih hTail (by omega) hBehind (by omega)
              (Nat.le_of_succ_le_succ hRounds)

/- The nodes of an event list are numbered from 0 on. -/
theorem seq_of_getElem?
    (list : EventList)
    (k : Nat)
    (node : EventNode)
    (hNode : list.nodes[k]? = some node) :
    node.seq = 0 + k := by
  rcases List.getElem?_eq_some_iff.mp hNode with ⟨hLt, rfl⟩
  rw [Int.zero_add]
  exact list.seq_eq k hLt

/- `get_event_data` takes a number as a place. -/
theorem getEventData_eq
    (hHolds : s.Holds addrs list)
    (hSmall : list.nodes.length < 2147483648)
    (seq : Int32)
    {rounds : Nat}
    (hRounds : addrs.length ≤ rounds) :
    getEventData rounds s seq =
      some (placeOf addrs 0 seq.toInt) :=
  findFrom_eq hHolds.linked hHolds.shows (Int.le_refl 0)
    (seq_of_getElem? list) (by omega) seq hRounds

/- What is played from memory is what the list plays. -/
theorem playEvent_eq
    (hHolds : s.Holds addrs list)
    (hSmall : list.nodes.length < 2147483648)
    {k : Nat}
    (hPlace : k < list.nodes.length)
    {rounds : Nat}
    (hRounds : addrs.length ≤ rounds) :
    playEvent rounds s (Int32.ofNat k) =
      FzEvent.playEvent list k := by
  have hToInt : (Int32.ofNat k).toInt = k := by
    apply Int32.toInt_ofNat_of_lt
    omega
  have hAddr : k < addrs.length := by
    rw [hHolds.length_eq]
    exact hPlace
  have hEq := List.getElem?_eq_getElem hAddr
  rcases hHolds.showsAt hEq with
    ⟨node, hNode, cell, hCell, hShow⟩
  rw [playEvent, getEventData_eq hHolds hSmall _ hRounds,
    hToInt, placeOf, if_pos (Int.natCast_nonneg k),
    Int.sub_zero, Int.toNat_natCast, hEq, FzEvent.playEvent,
    EventList.getEventData_eq_getElem?, hNode]
  simp only [Option.bind_eq_bind, Option.bind_some, hCell,
    hShow.id_eq, hShow.eventCount_eq, hShow.e_eq]

end LinkedList

end FzEvent

import FzEvent.EndToEnd.FileGrammar
import FzEvent.Player.LinkedEventList
import FzEvent.Lib.Words

/-
  Loading and playing with the event list in memory: what any
  sequence of insertions and destructions leaves, and the main
  loop of the player, which asks for the events by number.

  Main declarations:
    * `FzEvent.eventListCalls`
    * `FzEvent.inserted`
    * `LinkedList.Numbered`
    * `FzEvent.mainLoop`
    * `FzEvent.list_numbering`
-/

------------------------------------------------------------
-- Sequences of Calls
------------------------------------------------------------

namespace FzEvent

open Transition

/- What is inserted. -/
structure Inserted where
  id : Int32
  eventCount : Int
  e : List InputEvent
deriving DecidableEq, Repr

/-
  A call on the list: an insertion by the player or by the
  recorder's player, with the address that `malloc` finds, or
  a destruction. `rounds` of each loop are looked at.
-/
inductive ListCall
| insert (event : Inserted) (p rounds : Nat)
| insertOfRecorder (event : Inserted) (p rounds : Nat)
| destroy (rounds : Nat)
deriving DecidableEq, Repr

namespace ListCall

open LinkedList

/- The call in memory. -/
def run
    (s : LinkedList) :
    ListCall → Option (Int32 × LinkedList)
| .insert event p rounds =>
    insertEventList rounds s event.id event.eventCount
      event.e p
| .insertOfRecorder event p rounds =>
    insertEventListOfRecorder rounds s event.id
      event.eventCount event.e p
| .destroy rounds => destroyEventList rounds s

/- The list after the call. -/
def after
    (list : EventList) : ListCall → EventList
| .insert event _ _ =>
    list.insert event.id event.eventCount event.e
| .insertOfRecorder event _ _ =>
    list.insert event.id event.eventCount event.e
| .destroy _ => list.destroy

/- What the call returns. -/
def result
    (list : EventList) : ListCall → Int32
| .insert _ _ _ => Int32.ofInt (list.getCount + 1)
| .insertOfRecorder _ _ _ => 0
| .destroy _ => 0

/- The events that are inserted since the last destruction. -/
def insertedAfter
    (events : List Inserted) : ListCall → List Inserted
| .insert event _ _ => events ++ [event]
| .insertOfRecorder event _ _ => events ++ [event]
| .destroy _ => []

/- The call finds room and is looked at to its end. -/
def CanRun
    (s : LinkedList)
    (count : Nat) : ListCall → Prop
| .insert _ p rounds => s.heap p = none ∧ count < rounds
| .insertOfRecorder _ p rounds =>
    s.heap p = none ∧ count < rounds
| .destroy rounds => count ≤ rounds

end ListCall

/- Calls with what they return, on the list in memory. -/
def eventListCalls :
    System LinkedList (ListCall × Int32) where
  init := LinkedList.empty
  step s label := do
    let out ← label.1.run s
    if out.1 = label.2 then
      return out.2
    else
      none

/- The same calls on the event list. -/
def eventLists :
    System EventList (ListCall × Int32) where
  init := EventList.empty
  step list label :=
    if label.2 = label.1.result list then
      some (label.1.after list)
    else
      none

/- The events inserted since the last destruction of a run. -/
def inserted
    (labels : List (ListCall × Int32)) : List Inserted :=
  labels.foldl
    (fun events label => label.1.insertedAfter events) []

/- The nodes for events, numbered by their places. -/
def numbered (events : List Inserted) : List EventNode :=
  events.mapIdx fun k event =>
    ⟨k, event.id, event.eventCount, event.e⟩

end FzEvent

------------------------------------------------------------
-- The Lists Refine Each Other
------------------------------------------------------------

namespace FzEvent

open Transition LinkedList

variable {s s' : LinkedList}
variable {addrs : List Nat} {list : EventList}

/- The event list that the linked list holds. -/
def LinkedList.IsList
    (s : LinkedList)
    (list : EventList) : Prop :=
  ∃ addrs, s.Holds addrs list

/- The step lemma: a call does to the list what it should. -/
theorem step_eventListCalls
    (hHolds : s.Holds addrs list)
    {label : ListCall × Int32}
    (hStep : eventListCalls.step s label = some s') :
    label.2 = label.1.result list ∧
      s'.IsList (label.1.after list) := by
  simp only [eventListCalls, Option.bind_eq_bind,
    Option.bind_eq_some_iff] at hStep
  rcases hStep with ⟨out, hRun, hOut⟩
  split at hOut
  · rename_i hRet
    cases hOut
    rcases label with ⟨call, ret⟩
    dsimp only at hRet hRun ⊢
    subst hRet
    cases call with
    | insert event p rounds =>
        simp only [ListCall.run, insertEventList,
          Option.bind_eq_bind,
          Option.bind_eq_some_iff] at hRun
        rcases hRun with ⟨t, hInsert, count, hCount, hEq⟩
        cases hEq
        have hHolds' := holds_of_insertCell hHolds hInsert
        rw [getCount_eq hHolds' rounds] at hCount
        split at hCount
        · cases hCount
          refine ⟨?_, _, hHolds'⟩
          simp [ListCall.result, EventList.getCount,
            nodes_insert]
        · cases hCount
    | insertOfRecorder event p rounds =>
        simp only [ListCall.run, insertEventListOfRecorder,
          Option.bind_eq_bind,
          Option.bind_eq_some_iff] at hRun
        rcases hRun with ⟨t, hInsert, hEq⟩
        cases hEq
        exact ⟨rfl, _, holds_of_insertCell hHolds hInsert⟩
    | destroy rounds =>
        rw [ListCall.run,
          destroyEventList_eq hHolds rounds] at hRun
        split at hRun
        · cases hRun
          exact ⟨rfl, [], holds_empty⟩
        · cases hRun
  · cases hOut

/- A call that can run returns. -/
theorem run_of_canRun
    (hHolds : s.Holds addrs list)
    {call : ListCall}
    (hCan : call.CanRun s addrs.length) :
    ∃ out, call.run s = some out := by
  cases call with
  | insert event p rounds =>
      rcases holds_insertCell hHolds hCan.1
          (Nat.le_of_lt hCan.2) with ⟨t, hInsert, hHolds'⟩
      have hCount := getCount_eq hHolds' rounds
      rw [List.length_append, List.length_singleton,
        if_pos (Nat.succ_le_of_lt hCan.2)] at hCount
      rw [ListCall.run, insertEventList, hInsert]
      simp only [Option.bind_eq_bind, Option.bind_some,
        hCount]
      exact ⟨_, rfl⟩
  | insertOfRecorder event p rounds =>
      rcases holds_insertCell hHolds hCan.1
          (Nat.le_of_lt hCan.2) with ⟨t, hInsert, _⟩
      rw [ListCall.run, insertEventListOfRecorder, hInsert]
      exact ⟨_, rfl⟩
  | destroy rounds =>
      have hEnough : addrs.length ≤ rounds := hCan
      rw [ListCall.run, destroyEventList_eq hHolds rounds,
        if_pos hEnough]
      exact ⟨_, rfl⟩

/- The nodes are the numbered events after every call. -/
theorem nodes_after
    {events : List Inserted}
    (hNodes : list.nodes = numbered events)
    (call : ListCall) :
    (call.after list).nodes =
      numbered (call.insertedAfter events) := by
  have hAppend :
      ∀ event : Inserted,
        (list.insert event.id event.eventCount
            event.e).nodes =
          numbered (events ++ [event]) := by
    intro event
    rw [nodes_insert, numbered, List.mapIdx_append,
      list.seqNumber_eq, hNodes]
    simp [numbered]
  cases call with
  | insert event p rounds => exact hAppend event
  | insertOfRecorder event p rounds => exact hAppend event
  | destroy rounds => rfl

theorem nodes_of_exec
    {labels : List (ListCall × Int32)}
    {events : List Inserted}
    (hNodes : list.nodes = numbered events)
    {list' : EventList}
    (hRun : eventLists.exec list labels = some list') :
    list'.nodes =
      numbered
        (labels.foldl
          (fun events label => label.1.insertedAfter events)
          events) := by
  induction labels generalizing list events with
  | nil =>
      cases hRun
      exact hNodes
  | cons label labels ih =>
      rcases (eventLists.exec_cons_eq_some_iff).mp hRun with
        ⟨next, hStep, hRest⟩
      simp only [eventLists] at hStep
      split at hStep
      · cases hStep
        exact ih (nodes_after hNodes label.1) hRest
      · cases hStep

/-
  The refinement: every run in memory is a run of the event
  list, and ends with the list in memory.
-/
theorem exists_eventList_of_exec
    {labels : List (ListCall × Int32)}
    (hRun :
      eventListCalls.exec eventListCalls.init labels =
        some s) :
    ∃ list,
      eventLists.exec eventLists.init labels = some list ∧
        s.IsList list := by
  apply eventListCalls.simulation_of_meets eventLists _ _
    (eventListCalls.meets_true _ labels) hRun
  · rintro t list label t' ⟨addrs, hHolds⟩ _ hStep
    rcases step_eventListCalls hHolds hStep with
      ⟨hRet, hList⟩
    exact ⟨_, if_pos hRet, hList⟩
  · exact ⟨[], holds_empty⟩

end FzEvent

------------------------------------------------------------
-- Numbering
------------------------------------------------------------

namespace FzEvent

open LinkedCells Transition LinkedList

/-
  The cells at these addresses, in their order along `next`,
  hold these events, numbered from 0 on; the counters and the
  search by number agree with it.
-/
structure LinkedList.Numbered
    (s : LinkedList)
    (addrs : List Nat)
    (events : List Inserted) : Prop where
  linked : Linked (nextIn s.heap) s.head addrs
  length_eq : addrs.length = events.length
  cells :
    ∀ (k : Nat) (event : Inserted),
      events[k]? = some event →
        ∃ a cell,
          addrs[k]? = some a ∧ s.heap a = some cell ∧
            cell.seq.toInt = k ∧ cell.id = event.id ∧
            cell.eventCount = event.eventCount ∧
            cell.e = event.e
  seqNumber_eq : s.seqNumber.toInt = events.length
  getCount_eq :
    ∀ rounds, events.length ≤ rounds →
      ∃ count,
        getCount rounds s = some count ∧
          count.toInt = events.length
  getEventData_eq :
    ∀ rounds, events.length ≤ rounds →
      ∀ seq : Int32,
        getEventData rounds s seq =
          some (if 0 ≤ seq.toInt then
              addrs[seq.toInt.toNat]?
            else
              none)

/- The loop of the player, for so many events. -/
def mainLoop
    (rounds : Nat)
    (s : LinkedList)
    (events : Int) :
    List (Option (Int32 × List InputEvent)) :=
  (List.range events.toNat).map fun i =>
    LinkedList.playEvent rounds s (Int32.ofNat i)

/- The events of a file. -/
def fileEvents (items : List GrammarItem) : List Inserted :=
  (completeGroups items).map fun group =>
    ⟨lastId (-1) group, group.length,
      group.map FileRecord.stored⟩

variable {s : LinkedList}
variable {addrs : List Nat} {list : EventList}
variable {events : List Inserted}

theorem getElem?_numbered
    {k : Nat}
    {event : Inserted}
    (hEvent : events[k]? = some event) :
    (numbered events)[k]? =
      some ⟨k, event.id, event.eventCount, event.e⟩ := by
  rw [numbered, List.getElem?_mapIdx, hEvent]
  rfl

/- Below 2^31 the numbers are the places. -/
theorem numbered_of_holds
    (hHolds : s.Holds addrs list)
    (hNodes : list.nodes = numbered events)
    (hFew : events.length < 2147483648) :
    s.Numbered addrs events := by
  have hCount : list.nodes.length = events.length := by
    rw [hNodes, numbered, List.length_mapIdx]
  have hLength := hHolds.length_eq.trans hCount
  have hToInt := Words.toInt_ofInt_natCast hFew
  refine
    { linked := hHolds.linked
      length_eq := hLength
      cells := ?_
      seqNumber_eq := ?_
      getCount_eq := ?_
      getEventData_eq := ?_ }
  · intro k event hEvent
    have hLt : k < addrs.length := by
      rw [hLength]
      exact (List.getElem?_eq_some_iff.mp hEvent).1
    have hAddr := List.getElem?_eq_getElem hLt
    rcases hHolds.showsAt hAddr with
      ⟨node, hNode, cell, hCell, hShow⟩
    rw [hNodes, getElem?_numbered hEvent] at hNode
    cases hNode
    refine ⟨_, cell, hAddr, hCell, ?_, hShow.id_eq,
      hShow.eventCount_eq, hShow.e_eq⟩
    rw [hShow.seq_eq]
    apply Words.toInt_ofInt_natCast
    omega
  · rw [hHolds.seqNumber_eq, list.seqNumber_eq, hCount]
    exact hToInt
  · intro rounds hRounds
    refine ⟨_, ?_, hToInt⟩
    rw [LinkedList.getCount_eq hHolds rounds,
      if_pos (by omega), EventList.getCount, hCount]
  · intro rounds hRounds seq
    rw [LinkedList.getEventData_eq hHolds (by omega) seq
      (by omega), placeOf, Int.sub_zero]

/- The loop plays every event once, in the order of the list. -/
theorem mainLoop_eq
    (hHolds : s.Holds addrs list)
    (hNodes : list.nodes = numbered events)
    (hFew : events.length < 2147483648)
    (hCounts :
      ∀ event ∈ events, event.eventCount = event.e.length)
    {rounds : Nat}
    (hRounds : events.length ≤ rounds) :
    mainLoop rounds s events.length =
      events.map fun event =>
        some (event.id,
          event.e ++ [closingReport event.e]) := by
  have hCount : list.nodes.length = events.length := by
    rw [hNodes, numbered, List.length_mapIdx]
  have hLength := hHolds.length_eq.trans hCount
  rw [mainLoop, Int.toNat_natCast]
  apply List.ext_getElem?
  intro k
  rw [List.getElem?_map, List.getElem?_map]
  by_cases hLt : k < events.length
  · have hEvent := List.getElem?_eq_getElem hLt
    have hPlay := playEvent_eq hHolds
      (show list.nodes.length < 2147483648 by omega)
      (show k < list.nodes.length by omega)
      (show addrs.length ≤ rounds by omega)
    rw [List.getElem?_range hLt, hEvent, Option.map_some,
      Option.map_some, hPlay]
    congr 1
    apply playEvent_of_getEventData
      (p := ⟨k, events[k].id, events[k].eventCount,
        events[k].e⟩)
    · rw [EventList.getEventData_eq_getElem?, hNodes,
        getElem?_numbered hEvent]
    · exact hCounts _ (List.getElem_mem hLt)
  · rw [List.getElem?_eq_none (by simpa using hLt),
      List.getElem?_eq_none (by omega)]
    rfl

/-
  After any sequence of insertions and destructions the list
  holds the events inserted since the last destruction, and
  their numbers are their places; a file that was loaded is
  replayed event by event.
-/
theorem list_numbering
    {labels : List (ListCall × Int32)}
    (hRun :
      eventListCalls.exec eventListCalls.init labels = some s)
    (hFew : (inserted labels).length < 2147483648) :
    ∃ addrs,
      s.Numbered addrs (inserted labels) ∧
        (∀ label s',
          eventListCalls.step s label = some s' →
            ∀ event p rounds,
              label.1 = .insert event p rounds →
                label.2 =
                  Int32.ofNat
                    ((inserted labels).length + 1)) ∧
        (∀ call : ListCall,
          call.CanRun s (inserted labels).length →
            ∃ out, call.run s = some out) ∧
        ∀ items file,
          IsEventFile items file →
            inserted labels = fileEvents items →
              (readEvent EventList.empty (some file)).1.nodes =
                  numbered (inserted labels) ∧
                ∀ rounds, (inserted labels).length ≤ rounds →
                  mainLoop rounds s
                      (readEvent EventList.empty
                        (some file)).2 =
                    (fileEvents items).map fun event =>
                      some (event.id,
                        event.e ++ [closingReport event.e]) := by
  rcases exists_eventList_of_exec hRun with
    ⟨list, hExec, addrs, hHolds⟩
  have hNone : EventList.empty.nodes = numbered [] := rfl
  have hNodes : list.nodes = numbered (inserted labels) :=
    nodes_of_exec hNone hExec
  have hNumbered := numbered_of_holds hHolds hNodes hFew
  refine ⟨addrs, hNumbered, ?_, ?_, ?_⟩
  · intro label s' hStep event p rounds hInsert
    have hRet := (step_eventListCalls hHolds hStep).1
    rw [hInsert, ListCall.result, EventList.getCount,
      ← hHolds.length_eq, hNumbered.length_eq] at hRet
    rw [hRet]
    rfl
  · intro call hCan
    rw [← hNumbered.length_eq] at hCan
    exact run_of_canRun hHolds hCan
  · intro items file hFile hLoaded
    have hRead := readEvent_of_isEventFile hFile EventList.empty
    have hCount :
        ((readEvent EventList.empty (some file)).2 : Int) =
          (inserted labels).length := by
      rw [hRead, hLoaded, fileEvents, List.length_map,
        completeGroups, length_groupsFrom]
      simp
    constructor
    · rw [hRead, nodes_insertGroups, hLoaded, numbered,
        fileEvents]
      apply List.ext_getElem?
      intro k
      simp [List.getElem?_mapIdx, Option.map_map,
        Function.comp_def]
    · intro rounds hRounds
      rw [hCount, ← hLoaded]
      apply mainLoop_eq hHolds hNodes hFew _ hRounds
      rw [hLoaded, fileEvents, List.forall_mem_map]
      intro group _
      simp

/- Two events are loaded, and then one after a reset. -/
def reload : List (ListCall × Int32) :=
  [(.insert ⟨1, 0, []⟩ 8 9, 1), (.insert ⟨2, 0, []⟩ 16 9, 2),
    (.destroy 9, 0), (.insert ⟨3, 0, []⟩ 8 9, 1)]

theorem list_numbering_reload :
    ∃ s addrs,
      eventListCalls.exec eventListCalls.init reload =
          some s ∧
        s.Numbered addrs [⟨3, 0, []⟩] := by
  have hSome :
      (eventListCalls.exec eventListCalls.init
        reload).isSome := by
    decide
  rcases Option.isSome_iff_exists.mp hSome with ⟨s, hRun⟩
  rcases list_numbering hRun (by decide) with
    ⟨addrs, hNumbered, _⟩
  exact ⟨s, addrs, hRun, hNumbered⟩

end FzEvent

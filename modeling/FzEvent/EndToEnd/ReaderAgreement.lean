import Mathlib.Data.List.Induction
import FzEvent.EndToEnd.EventFile
import FzEvent.Player.EventPlayer

/-
  The two readers of event files on one file: `read_event` of
  the player and `open_event_file` of the device side.

  The first inserts every group that a separator ends, the
  second only the groups with a record.

  Main declarations:
    * `FzEvent.FileRecord` and `FzEvent.encodeFile`
    * `FzEvent.readEvent_encodeFile` and
      `EventPlayer.openEventFile_encodeFile`
    * `FzEvent.readersAgree_iff`
-/

------------------------------------------------------------
-- Files of Groups
------------------------------------------------------------

namespace FzEvent

/- The twenty bytes of a record, as a reader takes them. -/
structure FileRecord where
  tv : Timeval
  id : Int32
  type : UInt16
  code : UInt16
  value : Int32
deriving DecidableEq, Repr

namespace FileRecord

def encode (record : FileRecord) : List UInt8 :=
  timeval.encode record.tv ++
    (s32.encode record.id ++
      (u16.encode record.type ++
        (u16.encode record.code ++ s32.encode record.value)))

/- What both readers keep of a record. -/
def stored (record : FileRecord) : InputEvent :=
  storedEvent record.tv record.type record.code record.value

end FileRecord

/- No time of a record is taken for a marker. -/
def GroupTimes (groups : List (List FileRecord)) : Prop :=
  ∀ group ∈ groups, ∀ record ∈ group, ¬ IsMarker record.tv
deriving Decidable

/- The groups, each with its separator, and the end marker. -/
def encodeFile (groups : List (List FileRecord)) :
    List UInt8 :=
  groups.flatMap
      (fun group =>
        group.flatMap FileRecord.encode ++ separator) ++
    endOfFile

/- The variable `id` after the records of a group. -/
def lastId
    (id : Int32)
    (group : List FileRecord) : Int32 :=
  group.foldl (fun _ record => record.id) id

/- The list with one more group. -/
def EventList.insertGroup
    (list : EventList)
    (group : List FileRecord) : EventList :=
  list.insert (lastId (-1) group) group.length
    (group.map FileRecord.stored)

def EventList.insertGroups
    (list : EventList)
    (groups : List (List FileRecord)) : EventList :=
  groups.foldl EventList.insertGroup list

theorem readItem_encode
    {record : FileRecord}
    (hTime : ¬ IsMarker record.tv)
    (rest : List UInt8) :
    readItem (record.encode ++ rest) =
      some (.record record.tv record.id record.type record.code
        record.value, rest) := by
  have hSeparator : ¬ IsSeparator record.tv :=
    fun h => hTime (Or.inl h)
  have hEnd : ¬ IsEndOfFile record.tv :=
    fun h => hTime (Or.inr h)
  simp [readItem, FileRecord.encode, List.append_assoc,
    hSeparator, hEnd]

/- Behind a record the value before it does not matter. -/
theorem lastId_eq
    {group : List FileRecord}
    (hNonempty : group ≠ [])
    (id other : Int32) :
    lastId id group = lastId other group := by
  cases group with
  | nil => exact absurd rfl hNonempty
  | cons record group => rfl

@[simp] theorem length_nodes_insertGroups
    (list : EventList)
    (groups : List (List FileRecord)) :
    (list.insertGroups groups).nodes.length =
      list.nodes.length + groups.length := by
  induction groups generalizing list with
  | nil => rfl
  | cons group groups ih =>
      have hNext := ih (list.insertGroup group)
      simp only [EventList.insertGroup, EventList.insert,
        List.length_append, List.length_singleton] at hNext
      simp only [EventList.insertGroups, List.foldl_cons,
        List.length_cons] at hNext ⊢
      simp only [EventList.insertGroup, EventList.insert]
      omega

theorem insertGroups_append
    (list : EventList)
    (groups others : List (List FileRecord)) :
    list.insertGroups (groups ++ others) =
      (list.insertGroups groups).insertGroups others :=
  List.foldl_append

/- The groups are numbered from 0 in their order. -/
theorem nodes_insertGroups_empty
    (groups : List (List FileRecord))
    (k : Nat) :
    (EventList.empty.insertGroups groups).nodes[k]? =
      groups[k]?.map fun group =>
        ⟨k, lastId (-1) group, group.length,
          group.map FileRecord.stored⟩ := by
  induction groups using List.reverseRecOn with
  | nil => rfl
  | append_singleton groups group ih =>
      rw [insertGroups_append]
      have hSeq :=
        (EventList.empty.insertGroups groups).seqNumber_eq
      have hLength :=
        length_nodes_insertGroups EventList.empty groups
      rw [EventList.nodes_empty, List.length_nil, Nat.zero_add]
        at hLength
      have hNodes :
          ((EventList.empty.insertGroups groups).insertGroups
              [group]).nodes =
            (EventList.empty.insertGroups groups).nodes ++
              [⟨groups.length, lastId (-1) group, group.length,
                group.map FileRecord.stored⟩] := by
        rw [← hLength, ← hSeq]
        rfl
      rw [hNodes]
      by_cases hLt : k < groups.length
      · rw [List.getElem?_append_left (by omega),
          List.getElem?_append_left hLt, ih]
      · rw [List.getElem?_append_right (by omega),
          List.getElem?_append_right (by omega), hLength]
        by_cases hLast : k = groups.length
        · subst hLast
          simp
        · have hFar : 0 < k - groups.length := by omega
          simp [hFar.ne']

end FzEvent

------------------------------------------------------------
-- The Reader of the Player
------------------------------------------------------------

namespace FzEvent

theorem readEventLoop_encode
    {group : List FileRecord}
    (hTimes : ∀ record ∈ group, ¬ IsMarker record.tv)
    (list : EventList)
    (id : Int32)
    (e : List InputEvent)
    (rest : List UInt8) :
    readEventLoop list id e
        (group.flatMap FileRecord.encode ++ rest) =
      readEventLoop list (lastId id group)
        (e ++ group.map FileRecord.stored) rest := by
  induction group generalizing id e with
  | nil => simp [lastId]
  | cons record group ih =>
      rw [List.forall_mem_cons] at hTimes
      rw [List.flatMap_cons, List.append_assoc,
        readEventLoop_record (readItem_encode hTimes.1 _),
        ih hTimes.2, List.map_cons,
        List.append_cons e record.stored]
      rfl

theorem readEventLoop_encodeFile
    {groups : List (List FileRecord)}
    (hTimes : GroupTimes groups)
    (list : EventList) :
    readEventLoop list (-1) [] (encodeFile groups) =
      (list.insertGroups groups, true) := by
  induction groups generalizing list with
  | nil =>
      have hItem := readItem_endOfFile []
      rw [List.append_nil] at hItem
      exact readEventLoop_endOfFile hItem list (-1) []
  | cons group groups ih =>
      rw [GroupTimes, List.forall_mem_cons] at hTimes
      have hFile :
          encodeFile (group :: groups) =
            group.flatMap FileRecord.encode ++
              (separator ++ encodeFile groups) := by
        simp [encodeFile]
      rw [hFile, readEventLoop_encode hTimes.1,
        readEventLoop_separator (readItem_separator _)]
      have hNext := ih hTimes.2 (list.insertGroup group)
      rw [List.nil_append, List.length_map]
      exact hNext

/- The player makes a node of every group. -/
theorem readEvent_encodeFile
    {groups : List (List FileRecord)}
    (hTimes : GroupTimes groups)
    (list : EventList) :
    readEvent list (some (encodeFile groups)) =
      (list.insertGroups groups,
        ((list.insertGroups groups).getCount : Int)) := by
  simp [readEvent, readEventLoop_encodeFile hTimes]

end FzEvent

------------------------------------------------------------
-- The Reader of the Device Side
------------------------------------------------------------

namespace FzEvent

namespace EventPlayer

/- One round for every record of a group. -/
theorem readEvent_encode
    {group : List FileRecord}
    (hTimes : ∀ record ∈ group, ¬ IsMarker record.tv)
    (list : EventList)
    (vars : ReadVars)
    (e : List InputEvent)
    (rest : List UInt8) :
    ∃ vars' : ReadVars,
      vars'.id = lastId vars.id group ∧
        ∀ rounds,
          readEvent list (rounds + group.length)
              (some (group.flatMap FileRecord.encode ++ rest))
              vars e =
            readEvent list rounds (some rest) vars'
              (e ++ group.map FileRecord.stored) := by
  induction group generalizing vars e with
  | nil => exact ⟨vars, rfl, by simp⟩
  | cons record group ih =>
      rw [List.forall_mem_cons] at hTimes
      rcases ih hTimes.2
        ⟨record.tv, record.id, record.type, record.code,
          record.value⟩ (e ++ [record.stored]) with
        ⟨vars', hId, hRounds⟩
      refine ⟨vars', hId, ?_⟩
      intro rounds
      rw [List.flatMap_cons, List.append_assoc,
        List.length_cons, ← Nat.add_assoc,
        readEvent_again
          (readRound_record (readItem_encode hTimes.1 _) _ _),
        List.map_cons, List.append_cons e record.stored]
      exact hRounds rounds

/- A call reads one group with its separator. -/
theorem readEvent_group
    {group : List FileRecord}
    (hTimes : ∀ record ∈ group, ¬ IsMarker record.tv)
    (list : EventList)
    (vars : ReadVars)
    (rest : List UInt8)
    {rounds : Nat}
    (hRounds : group.length < rounds) :
    readEvent list rounds
        (some (group.flatMap FileRecord.encode ++
          (separator ++ rest))) vars [] =
      some (-1, some rest,
        if group = [] then list
        else list.insertGroup group) := by
  rcases readEvent_encode hTimes list vars []
    (separator ++ rest) with ⟨vars', hId, hRead⟩
  rcases readRound_separator (readItem_separator rest) vars'
    (group.map FileRecord.stored) with ⟨tv, hRound⟩
  have hSplit :
      rounds = rounds - group.length - 1 + 1 + group.length := by
    omega
  rw [hSplit, hRead, List.nil_append, readEvent_broke hRound,
    List.length_map]
  by_cases hEmpty : group = []
  · simp [hEmpty]
  · simp [hEmpty, EventList.insertGroup, hId,
      lastId_eq hEmpty vars.id (-1)]

/- The calls read the groups, and the last one the end. -/
theorem readLoop_encodeFile
    {groups : List (List FileRecord)}
    (hTimes : GroupTimes groups)
    (locals : Nat → ReadVars)
    (list : EventList)
    {rounds calls : Nat}
    (hRounds : ∀ group ∈ groups, group.length < rounds)
    (hPos : 0 < rounds)
    (hCalls : groups.length < calls)
    (k : Nat) :
    readLoop locals rounds calls k
        (some (encodeFile groups)) list =
      some (list.insertGroups
        (groups.filter fun group => group ≠ [])) := by
  induction groups generalizing calls k list with
  | nil =>
      rcases calls with _ | calls
      · cases hCalls
      · rcases rounds with _ | rounds
        · cases hPos
        · have hItem := readItem_endOfFile []
          rw [List.append_nil] at hItem
          rw [readLoop_succ]
          have hRead :=
            readEvent_returned
              (readRound_endOfFile hItem (locals k) []) list
              rounds
          have hFile : encodeFile [] = endOfFile := rfl
          rw [hFile, hRead]
          rfl
  | cons group groups ih =>
      rw [GroupTimes, List.forall_mem_cons] at hTimes
      rw [List.forall_mem_cons] at hRounds
      rcases calls with _ | calls
      · cases hCalls
      · have hFile :
            encodeFile (group :: groups) =
              group.flatMap FileRecord.encode ++
                (separator ++ encodeFile groups) := by
          simp [encodeFile]
        have hLess : groups.length < calls := by
          rw [List.length_cons] at hCalls
          omega
        rw [readLoop_succ, hFile,
          readEvent_group hTimes.1 list (locals k) _ hRounds.1,
          Option.bind_some, resume_broke,
          ih hTimes.2 _ hRounds.2 hLess]
        by_cases hEmpty : group = []
        · simp [hEmpty]
        · simp [hEmpty, EventList.insertGroups]

theorem length_le_flatMap_encode
    (group : List FileRecord) :
    group.length ≤
      (group.flatMap FileRecord.encode).length := by
  induction group with
  | nil => simp
  | cons record group ih =>
      simp only [List.flatMap_cons, List.length_append,
        List.length_cons, FileRecord.encode,
        ByteCodec.Codec.length_encode, timeval_width]
      omega

/- The bytes of a file are more than its groups and records. -/
theorem length_lt_encodeFile
    (groups : List (List FileRecord)) :
    groups.length < (encodeFile groups).length ∧
      ∀ group ∈ groups,
        group.length < (encodeFile groups).length := by
  induction groups with
  | nil => exact ⟨by decide, by simp⟩
  | cons group groups ih =>
      have hFile :
          encodeFile (group :: groups) =
            group.flatMap FileRecord.encode ++
              (separator ++ encodeFile groups) := by
        simp [encodeFile]
      have hRecords := length_le_flatMap_encode group
      have hSeparator : separator.length = 8 := rfl
      simp only [hFile, List.length_append, List.length_cons,
        List.forall_mem_cons, hSeparator]
      refine ⟨by omega, by omega, ?_⟩
      intro other hMem
      have hOther := ih.2 other hMem
      omega

/-
  The device side makes a node of every group that is not
  empty, in at most as many calls as the file has bytes.
-/
theorem openEventFile_encodeFile
    {groups : List (List FileRecord)}
    (hTimes : GroupTimes groups)
    (locals : Nat → ReadVars)
    (list : EventList) :
    openEventFile (encodeFile groups).length locals
        (some (encodeFile groups)) list =
      some (list.insertGroups
        (groups.filter fun group => group ≠ [])) := by
  have hLengths := length_lt_encodeFile groups
  exact readLoop_encodeFile hTimes locals list hLengths.2
    (by omega) hLengths.1 0

end EventPlayer

end FzEvent

------------------------------------------------------------
-- Agreement
------------------------------------------------------------

namespace FzEvent

/-
  Two lists of the same length that hold the same id, count
  and entries under every number.
-/
def SameEvents (left right : EventList) : Prop :=
  left.nodes.length = right.nodes.length ∧
    ∀ k : Nat, left.getEventData k = right.getEventData k

/-
  Both readers come to their end, from an empty list, and the
  two lists are the same.
-/
def ReadersAgree
    (locals : Nat → EventPlayer.ReadVars)
    (file : List UInt8) : Prop :=
  ∃ fuel loaded,
    EventPlayer.openEventFile fuel locals (some file) .empty =
        some loaded ∧
      SameEvents loaded (readEvent .empty (some file)).1

/-
  The two readers agree exactly on the files without an empty
  group.
-/
theorem readersAgree_iff
    {groups : List (List FileRecord)}
    (hTimes : GroupTimes groups)
    (locals : Nat → EventPlayer.ReadVars) :
    ReadersAgree locals (encodeFile groups) ↔
      ∀ group ∈ groups, group ≠ [] := by
  have hOpen :=
    EventPlayer.openEventFile_encodeFile hTimes locals .empty
  have hRead := readEvent_encodeFile hTimes .empty
  constructor
  · rintro ⟨fuel, loaded, hLoaded, hLength, _⟩
    cases EventPlayer.openEventFile_unique hOpen hLoaded
    rw [hRead] at hLength
    have hCount :
        (groups.filter fun group => group ≠ []).length =
          groups.length := by
      simpa using hLength
    intro group hMem
    simpa using
      List.length_filter_eq_length_iff.mp hCount group hMem
  · intro hNonempty
    refine ⟨_, _, hOpen, ?_⟩
    have hAll :
        (groups.filter fun group => group ≠ []) = groups := by
      rw [List.filter_eq_self]
      simpa using hNonempty
    rw [hAll, hRead]
    exact ⟨rfl, fun _ => rfl⟩

/- A tap on device 2 behind a key press on device 0. -/
def keyAndTap : List (List FileRecord) :=
  [[⟨⟨1, 0⟩, 0, evKey, 116, 1⟩],
    [⟨⟨2, 0⟩, 2, evAbs, absMtTrackingId, 7⟩,
      ⟨⟨2, 5⟩, 2, evAbs, absMtTrackingId, -1⟩]]

theorem readersAgree_keyAndTap :
    ReadersAgree (fun _ => EventPlayer.zeroVars)
        (encodeFile keyAndTap) ↔
      ∀ group ∈ keyAndTap, group ≠ [] :=
  readersAgree_iff (by decide) _

/-
  An empty group before a key press: the player numbers the
  key press 1, and the device side numbers it 0.
-/
theorem not_readersAgree_emptyGroup :
    ¬ ∃ locals,
      ReadersAgree locals
        (encodeFile [[], [⟨⟨1, 0⟩, 0, evKey, 116, 1⟩]]) := by
  rintro ⟨locals, fuel, loaded, hLoaded, hLength, _⟩
  have hTimes :
      GroupTimes [[], [⟨⟨1, 0⟩, 0, evKey, 116, 1⟩]] := by
    decide
  have hOpen :=
    EventPlayer.openEventFile_encodeFile hTimes locals .empty
  cases EventPlayer.openEventFile_unique hOpen hLoaded
  rw [readEvent_encodeFile hTimes] at hLength
  simp at hLength

end FzEvent

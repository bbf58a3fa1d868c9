import Mathlib.Algebra.Ring.Int.Defs
import FzEvent.Player.ReadEvent
import FzEvent.Receiver.CEvtRcv

/-
  The event file between the receiver, which writes it, and
  the player, which reads it back.

  Main declarations:
    * `FzEvent.IsMarker` and `FzEvent.playedEntry`
    * `FzEvent.readEventLoop_groups`
    * `FzEvent.StoredAs`
    * `FzEvent.readEvent_writeEvents`
-/

------------------------------------------------------------
-- Records and Markers
------------------------------------------------------------

namespace FzEvent

/- A time value that the reader does not take for a time. -/
def IsMarker (tv : Timeval) : Prop :=
  IsSeparator tv ∨ IsEndOfFile tv
deriving Decidable

/- What the player holds for an entry of a received event. -/
def playedEntry
    (type : UInt16)
    (entry : Entry) : InputEvent where
  time := entry.tv
  type := if entry.code = 0 ∧ entry.value = 0 then 0 else type
  code := entry.code
  value := entry.value.toInt32

theorem u32_encode_eq
    (value : UInt32) :
    u32.encode value = s32.encode value.toInt32 := by
  simp [s32, ByteCodec.Codec.map]

theorem toInt32_eq_zero_iff
    (value : UInt32) :
    value.toInt32 = 0 ↔ value = 0 := by
  constructor
  · intro hZero
    have hWord := congrArg Int32.toUInt32 hZero
    rwa [UInt32.toUInt32_toInt32] at hWord
  · rintro rfl
    rfl

/- The reader's type rule repeats the writer's. -/
theorem storedEvent_recordType
    (type : UInt16)
    (entry : Entry) :
    storedEvent entry.tv (recordType type entry) entry.code
      entry.value.toInt32 = playedEntry type entry := by
  simp only [storedEvent, recordType, playedEntry,
    toInt32_eq_zero_iff]
  split <;> rfl

/- A record is read back as a record, not as a marker. -/
theorem readItem_encodeRecord
    {entry : Entry}
    (hTime : ¬ IsMarker entry.tv)
    (devId : Int32)
    (type : UInt16)
    (rest : List UInt8) :
    readItem (encodeRecord devId type entry ++ rest) =
      some (.record entry.tv devId (recordType type entry)
        entry.code entry.value.toInt32, rest) := by
  have hSeparator : ¬ IsSeparator entry.tv :=
    fun h => hTime (Or.inl h)
  have hEnd : ¬ IsEndOfFile entry.tv :=
    fun h => hTime (Or.inr h)
  simp [readItem, encodeRecord, u32_encode_eq,
    List.append_assoc, hSeparator, hEnd]

theorem readItem_separator
    (rest : List UInt8) :
    readItem (separator ++ rest) =
      some (.separator, rest) := by
  have hBytes :
      separator =
        timeval.encode
          ⟨tokType.toInt32, tokType.toInt32⟩ := rfl
  have hMarker :
      IsSeparator ⟨tokType.toInt32, tokType.toInt32⟩ := by
    decide
  simp [readItem, hBytes, hMarker]

theorem readItem_endOfFile
    (rest : List UInt8) :
    readItem (endOfFile ++ rest) =
      some (.endOfFile, rest) := by
  have hBytes :
      endOfFile =
        timeval.encode
          ⟨tokType.toInt32, endFile2.toInt32⟩ := rfl
  have hOther :
      ¬ IsSeparator ⟨tokType.toInt32, endFile2.toInt32⟩ := by
    decide
  have hMarker :
      IsEndOfFile ⟨tokType.toInt32, endFile2.toInt32⟩ := by
    decide
  simp [readItem, hBytes, hOther, hMarker]

end FzEvent

------------------------------------------------------------
-- Groups
------------------------------------------------------------

namespace FzEvent

/- No entry of the event carries a marker as its time. -/
def HasTimes (e : DevicePacketEvent) : Prop :=
  ∀ entry ∈ e.entries, ¬ IsMarker entry.tv
deriving Decidable

/- The node that the player makes of a received event. -/
def playedNode
    (seq : Int)
    (e : DevicePacketEvent) : EventNode where
  seq := seq
  id := e.devId
  eventCount := e.count
  e := e.entries.map (playedEntry e.type)

/- The list after the events have been read. -/
def EventList.insertEvents
    (list : EventList)
    (events : List DevicePacketEvent) : EventList :=
  events.foldl
    (fun list e =>
      list.insert e.devId e.count
        (e.entries.map (playedEntry e.type)))
    list

/-
  The records of an event are collected in their order. At
  least one has to be there for the device id to be read.
-/
theorem readEventLoop_records
    {entries : List Entry}
    (hTimes : ∀ entry ∈ entries, ¬ IsMarker entry.tv)
    (hNonempty : entries ≠ [])
    (devId : Int32)
    (type : UInt16)
    (list : EventList)
    (id : Int32)
    (e : List InputEvent)
    (rest : List UInt8) :
    readEventLoop list id e
        (entries.flatMap (encodeRecord devId type) ++ rest) =
      readEventLoop list devId
        (e ++ entries.map (playedEntry type)) rest := by
  induction entries generalizing id e with
  | nil => exact absurd rfl hNonempty
  | cons entry entries ih =>
      have hTime : ¬ IsMarker entry.tv :=
        hTimes entry List.mem_cons_self
      have hTail : ∀ other ∈ entries, ¬ IsMarker other.tv :=
        fun other hMem =>
          hTimes other (List.mem_cons_of_mem _ hMem)
      rw [List.flatMap_cons, List.append_assoc,
        readEventLoop_record
          (readItem_encodeRecord hTime devId type _),
        storedEvent_recordType]
      by_cases hLast : entries = []
      · subst hLast
        simp
      · rw [ih hTail hLast]
        simp

/- An event with its separator becomes one node. -/
theorem readEventLoop_group
    {e : DevicePacketEvent}
    (hTimes : HasTimes e)
    (hNonempty : e.entries ≠ [])
    (list : EventList)
    (rest : List UInt8) :
    readEventLoop list (-1) [] (encodeGroup e ++ rest) =
      readEventLoop
        (list.insert e.devId e.count
          (e.entries.map (playedEntry e.type)))
        (-1) [] rest := by
  rw [encodeGroup, List.append_assoc,
    readEventLoop_records hTimes hNonempty,
    readEventLoop_separator (readItem_separator rest)]
  simp [DevicePacketEvent.count]

/- The groups become the nodes, in their order. -/
theorem readEventLoop_groups
    {events : List DevicePacketEvent}
    (hTimes : ∀ e ∈ events, HasTimes e)
    (hNonempty : ∀ e ∈ events, e.entries ≠ [])
    (list : EventList)
    (rest : List UInt8) :
    readEventLoop list (-1) []
        (events.flatMap encodeGroup ++ rest) =
      readEventLoop (list.insertEvents events) (-1) []
        rest := by
  induction events generalizing list with
  | nil => rfl
  | cons e events ih =>
      rw [List.forall_mem_cons] at hTimes hNonempty
      rw [List.flatMap_cons, List.append_assoc,
        readEventLoop_group hTimes.1 hNonempty.1,
        ih hTimes.2 hNonempty.2]
      rfl

theorem nodes_insertEvents
    (list : EventList)
    (events : List DevicePacketEvent) :
    (list.insertEvents events).nodes =
      list.nodes ++
        events.mapIdx fun k e =>
          playedNode (list.seqNumber + k) e := by
  induction events generalizing list with
  | nil => simp [EventList.insertEvents]
  | cons e events ih =>
      rw [EventList.insertEvents, List.foldl_cons,
        ← EventList.insertEvents, ih]
      have hShift :
          ∀ k : Nat,
            list.seqNumber + 1 + (k : Int) =
              list.seqNumber + ((k + 1 : Nat) : Int) := by
        intro k
        omega
      simp only [EventList.insert, List.append_assoc,
        List.mapIdx_cons, List.singleton_append,
        Nat.cast_zero, add_zero, hShift]
      rfl

/- The whole file, from an empty list. -/
theorem readEvent_groups
    {events : List DevicePacketEvent}
    (hTimes : ∀ e ∈ events, HasTimes e)
    (hNonempty : ∀ e ∈ events, e.entries ≠ []) :
    readEvent .empty
        (some (events.flatMap encodeGroup ++ endOfFile)) =
      (EventList.empty.insertEvents events,
        (events.length : Int)) := by
  have hLoop :
      readEventLoop .empty (-1) []
          (events.flatMap encodeGroup ++ endOfFile) =
        (EventList.empty.insertEvents events, true) := by
    rw [readEventLoop_groups hTimes hNonempty,
      readEventLoop_endOfFile
        (by simpa using readItem_endOfFile [])]
  simp [readEvent, hLoop, EventList.getCount,
    nodes_insertEvents]

theorem getEventData_insertEvents
    {events : List DevicePacketEvent}
    {k : Nat}
    (hLt : k < events.length) :
    (EventList.empty.insertEvents events).getEventData k =
      some (playedNode k events[k]) := by
  have hNodes :=
    nodes_insertEvents EventList.empty events
  have hBound :
      k < (EventList.empty.insertEvents events).nodes.length := by
    simpa [hNodes] using hLt
  rw [EventList.getEventData_eq _ hBound]
  simp [hNodes]

end FzEvent

------------------------------------------------------------
-- The Round Trip
------------------------------------------------------------

namespace FzEvent

/-
  The player's node holds the received event: its device id,
  its count and, entry by entry, the time, the code, the value
  and the type, which is 0 for a code and value 0.
-/
structure StoredAs
    (e : DevicePacketEvent)
    (p : EventNode) : Prop where
  id_eq : p.id = e.devId
  eventCount_eq : p.eventCount = e.count
  length_eq : p.e.length = e.count
  entry_eq :
    ∀ (i : Nat) (hLt : i < e.entries.length),
      ∃ event, p.e[i]? = some event ∧
        event.time = e.entries[i].tv ∧
        event.code = e.entries[i].code ∧
        event.value = e.entries[i].value.toInt32 ∧
        event.type =
          if e.entries[i].code = 0 ∧ e.entries[i].value = 0
          then 0 else e.type

theorem storedAs_playedNode
    (seq : Int)
    (e : DevicePacketEvent) :
    StoredAs e (playedNode seq e) where
  id_eq := rfl
  eventCount_eq := rfl
  length_eq := by simp [playedNode, DevicePacketEvent.count]
  entry_eq i hLt :=
    ⟨playedEntry e.type e.entries[i],
      by simp [playedNode, hLt], rfl, rfl, rfl, rfl⟩

/-
  The player reads back exactly the events that the receiver
  wrote: it counts them, and finds each under its number.
-/
theorem readEvent_writeEvents
    (s : CEvtRcv)
    (events : List DevicePacketEvent)
    (hClosed : s.sFpEvt = none)
    (hNonempty : ∀ e ∈ events, e.entries ≠ [])
    (hTimes : ∀ e ∈ events, HasTimes e) :
    ∃ (s' : CEvtRcv) (file : List UInt8) (list : EventList),
      ((s.makeEventFile.writeEvents events).bind
          CEvtRcv.closeEventFile) = some s' ∧
      s'.closed = file :: s.closed ∧
      readEvent .empty (some file) =
        (list, (events.length : Int)) ∧
      ∀ (k : Nat) (hLt : k < events.length),
        ∃ p, list.getEventData k = some p ∧
          StoredAs events[k] p := by
  refine ⟨_, _, _,
    CEvtRcv.closeEventFile_writeEvents hClosed events, rfl,
    readEvent_groups hTimes hNonempty, ?_⟩
  intro k hLt
  exact ⟨_, getEventData_insertEvents hLt,
    storedAs_playedNode _ _⟩

/- A tap on device 2 and a key press on device 0. -/
def tapAndKey : List DevicePacketEvent :=
  [⟨evAbs, 2,
      [⟨⟨1, 0⟩, 7, absMtTrackingId, 7⟩,
        ⟨⟨1, 5⟩, 7, absMtTrackingId, 0xffffffff⟩,
        ⟨⟨1, 5⟩, -1, synReport, 0⟩]⟩,
    ⟨evKey, 0, [⟨⟨2, 0⟩, -1, 116, 1⟩]⟩]

theorem readEvent_writeEvents_tapAndKey :
    ∃ (s' : CEvtRcv) (file : List UInt8) (list : EventList),
      ((CEvtRcv.init.makeEventFile.writeEvents tapAndKey).bind
          CEvtRcv.closeEventFile) = some s' ∧
      s'.closed = [file] ∧
      readEvent .empty (some file) = (list, 2) ∧
      ∀ (k : Nat) (hLt : k < tapAndKey.length),
        ∃ p, list.getEventData k = some p ∧
          StoredAs tapAndKey[k] p :=
  readEvent_writeEvents CEvtRcv.init tapAndKey rfl
    (by decide) (by decide)

end FzEvent

import FzEvent.EndToEnd.FileGrammar
import FzEvent.EndToEnd.Wire
import FzEvent.Lib.Window
import FzEvent.Recorder.Gesture

/-
  The types of the entries on their way through the event
  file. A packet carries one type, that of its last event;
  the writer and both readers take an entry of code and value
  0 for a report.

  A report can carry another value: the kernel sends 1 with a
  key that repeats. Such a report gets the packet's type.

  Main declarations:
    * `FzEvent.entryType` and `FzEvent.TypesBack`
    * `FzEvent.KeepsTypes` and `FzEvent.ReportsZero`
    * `FzEvent.exists_append_of_readEventLoop`
    * `FzEvent.hasTimes_of_typesBack`
    * `FzEvent.keepsTypes_iff_reportsZero`
-/

------------------------------------------------------------
-- Types
------------------------------------------------------------

namespace FzEvent

/- The type that the kernel's event of an entry had. -/
def entryType
    (type : UInt16)
    (entry : Entry) : UInt16 :=
  if entry.code = synReport then evSyn else type

/- Every entry of every event has its own type in the list. -/
def TypesBack
    (list : EventList)
    (events : List DevicePacketEvent) : Prop :=
  ∀ (k : Nat) (e : DevicePacketEvent), events[k]? = some e →
    ∀ (i : Nat) (entry : Entry), e.entries[i]? = some entry →
      ∃ p event, list.getEventData k = some p ∧
        p.e[i]? = some event ∧
          event.type = entryType e.type entry

/-
  What both readers make of a file of these events. The
  reader of the device side drops the events without entries
  and counts on.
-/
structure KeepsTypes
    (locals : Nat → EventPlayer.ReadVars)
    (file : List UInt8)
    (events : List DevicePacketEvent) : Prop where
  player : TypesBack (readEvent .empty (some file)).1 events
  device :
    ∃ fuel loaded,
      EventPlayer.openEventFile fuel locals (some file)
          .empty = some loaded ∧
        TypesBack loaded
          (events.filter fun e => e.entries ≠ [])

/-
  The time of no entry is a marker, and the value of every
  report is 0.
-/
def ReportsZero (events : List DevicePacketEvent) : Prop :=
  ∀ e ∈ events, ∀ entry ∈ e.entries,
    ¬ IsMarker entry.tv ∧
      (entry.code = synReport → entry.value = 0)
deriving Decidable

/- The records that the writer makes of an event. -/
def DevicePacketEvent.records
    (e : DevicePacketEvent) : List FileRecord :=
  e.entries.map fun entry =>
    ⟨entry.tv, e.devId, recordType e.type entry, entry.code,
      entry.value.toInt32⟩

theorem records_eq_nil_iff
    (e : DevicePacketEvent) :
    e.records = [] ↔ e.entries = [] := by
  rw [DevicePacketEvent.records, List.map_eq_nil_iff]

theorem encodeGroup_eq
    (e : DevicePacketEvent) :
    encodeGroup e =
      e.records.flatMap FileRecord.encode ++ separator := by
  have hRecord :
      encodeRecord e.devId e.type = fun entry =>
        (FileRecord.mk entry.tv e.devId
          (recordType e.type entry) entry.code
          entry.value.toInt32).encode := by
    funext entry
    rw [encodeRecord, FileRecord.encode, u32_encode_eq]
  rw [encodeGroup, hRecord, DevicePacketEvent.records,
    List.flatMap_map]

theorem encodeFile_records
    (events : List DevicePacketEvent) :
    events.flatMap encodeGroup ++ endOfFile =
      encodeFile (events.map DevicePacketEvent.records) := by
  have hGroup :
      encodeGroup = fun e =>
        e.records.flatMap FileRecord.encode ++ separator := by
    funext e
    exact encodeGroup_eq e
  rw [encodeFile, List.flatMap_map, hGroup]

/- The reader holds the played entries. -/
theorem stored_records
    (e : DevicePacketEvent) :
    e.records.map FileRecord.stored =
      e.entries.map (playedEntry e.type) := by
  rw [DevicePacketEvent.records, List.map_map]
  apply List.map_congr_left
  intro entry _
  exact storedEvent_recordType e.type entry

theorem getElem?_stored_records
    {e : DevicePacketEvent}
    {i : Nat}
    {entry : Entry}
    (hEntry : e.entries[i]? = some entry) :
    (e.records.map FileRecord.stored)[i]? =
      some (playedEntry e.type entry) := by
  rw [stored_records, List.getElem?_map, hEntry]
  rfl

/- The id behind the records of a packet is its number. -/
theorem lastId_records
    {e : DevicePacketEvent}
    (hNonempty : e.entries ≠ [])
    (id : Int32) :
    lastId id e.records = e.devId := by
  rw [lastId, DevicePacketEvent.records, List.foldl_map]
  rcases List.eq_nil_or_concat e.entries with
    hNil | ⟨front, last, hEntries⟩
  · exact absurd hNil hNonempty
  · rw [hEntries, List.concat_eq_append, List.foldl_append]
    rfl

/- The node of an event in the list of all records. -/
theorem getEventData_insertGroups_records
    {events : List DevicePacketEvent}
    {k : Nat}
    {e : DevicePacketEvent}
    (hEvent : events[k]? = some e) :
    (EventList.empty.insertGroups
        (events.map DevicePacketEvent.records)).getEventData k =
      some ⟨k, lastId (-1) e.records, e.records.length,
        e.records.map FileRecord.stored⟩ := by
  rw [EventList.getEventData_eq_getElem?,
    nodes_insertGroups_empty, List.getElem?_map, hEvent]
  rfl

/- The type rule is right exactly for reports of value 0. -/
theorem type_playedEntry_iff
    {type : UInt16}
    (hType : type ≠ evSyn)
    (entry : Entry) :
    (playedEntry type entry).type = entryType type entry ↔
      (entry.code = synReport → entry.value = 0) := by
  have hReport : synReport = 0 := rfl
  have hSyn : evSyn = 0 := rfl
  rw [hSyn] at hType
  rw [playedEntry, entryType, hReport, hSyn]
  by_cases hCode : entry.code = 0
  · by_cases hValue : entry.value = 0
    · simp [hCode, hValue]
    · simp [hCode, hValue, hType]
  · simp [hCode]

end FzEvent

------------------------------------------------------------
-- Lists of Records
------------------------------------------------------------

namespace FzEvent

/-
  In the list of all records, an entry that is found has the
  type of a played entry.
-/
theorem typesBack_insertGroups_iff
    (events : List DevicePacketEvent) :
    TypesBack
        (EventList.empty.insertGroups
          (events.map DevicePacketEvent.records)) events ↔
      ∀ e ∈ events, ∀ entry ∈ e.entries,
        (playedEntry e.type entry).type =
          entryType e.type entry := by
  constructor
  · intro hBack e hMem entry hEntryMem
    rcases List.getElem?_of_mem hMem with ⟨k, hEvent⟩
    rcases List.getElem?_of_mem hEntryMem with ⟨i, hEntry⟩
    rcases hBack k e hEvent i entry hEntry with
      ⟨p, event, hData, hFound, hType⟩
    rw [getEventData_insertGroups_records hEvent] at hData
    cases hData
    rw [getElem?_stored_records hEntry] at hFound
    cases hFound
    exact hType
  · intro hTypes k e hEvent i entry hEntry
    exact ⟨_, _, getEventData_insertGroups_records hEvent,
      getElem?_stored_records hEntry,
      hTypes e (List.mem_of_getElem? hEvent) entry
        (List.mem_of_getElem? hEntry)⟩

/- The loop keeps the nodes that are there. -/
theorem exists_append_of_readEventLoop
    (list : EventList)
    (id : Int32)
    (e : List InputEvent)
    (fp : List UInt8) :
    ∃ more, (readEventLoop list id e fp).1.nodes =
      list.nodes ++ more := by
  induction hSize : fp.length using Nat.strongRecOn
    generalizing list id e fp with
  | ind size ih =>
      subst hSize
      cases hRead : readItem fp with
      | none =>
          refine ⟨[], ?_⟩
          rw [readEventLoop]
          split <;> simp_all
      | some result =>
          rcases result with ⟨item, rest⟩
          have hLess := length_lt_of_readItem hRead
          cases item with
          | endOfFile =>
              refine ⟨[], ?_⟩
              rw [readEventLoop_endOfFile hRead,
                List.append_nil]
          | separator =>
              rw [readEventLoop_separator hRead]
              rcases ih rest.length hLess
                  (list.insert id e.length e) (-1) [] rest
                  rfl with ⟨more, hMore⟩
              rw [hMore]
              refine ⟨⟨list.seqNumber, id, e.length, e⟩ :: more,
                ?_⟩
              simp [EventList.insert]
          | record tv devId type code value =>
              rw [readEventLoop_record hRead]
              exact ih rest.length hLess list devId _ rest rfl

end FzEvent

------------------------------------------------------------
-- Times that are Markers
------------------------------------------------------------

namespace FzEvent

/- The items of a list of events whose times are times. -/
def eventItems
    (events : List DevicePacketEvent) : List GrammarItem :=
  events.flatMap fun e =>
    e.records.map GrammarItem.record ++ [.separator]

theorem eventItems_cons_append
    (e : DevicePacketEvent)
    (events : List DevicePacketEvent)
    (items : List GrammarItem) :
    eventItems (e :: events) ++ items =
      e.records.map GrammarItem.record ++
        .separator :: (eventItems events ++ items) := by
  simp [eventItems]

theorem encode_map_record
    (records : List FileRecord) :
    (records.map GrammarItem.record).flatMap
        GrammarItem.encode =
      records.flatMap FileRecord.encode := by
  rw [List.flatMap_map]
  rfl

theorem encode_eventItems
    (events : List DevicePacketEvent) :
    (eventItems events).flatMap GrammarItem.encode =
      events.flatMap encodeGroup := by
  have hGroup :
      encodeGroup = fun e =>
        (e.records.map GrammarItem.record ++
          [GrammarItem.separator]).flatMap
            GrammarItem.encode := by
    funext e
    rw [encodeGroup_eq, List.flatMap_append,
      encode_map_record]
    simp [GrammarItem.encode]
  rw [eventItems, List.flatMap_assoc, hGroup]

theorem groupsFrom_map_record
    (group records : List FileRecord)
    (items : List GrammarItem) :
    groupsFrom group
        (records.map GrammarItem.record ++ items) =
      groupsFrom (group ++ records) items := by
  induction records generalizing group with
  | nil => simp
  | cons r records ih =>
      rw [List.map_cons, List.cons_append, groupsFrom, ih,
        List.append_assoc, List.singleton_append]

theorem openGroup_map_record
    (group records : List FileRecord)
    (items : List GrammarItem) :
    openGroup group
        (records.map GrammarItem.record ++ items) =
      openGroup (group ++ records) items := by
  induction records generalizing group with
  | nil => simp
  | cons r records ih =>
      rw [List.map_cons, List.cons_append, openGroup, ih,
        List.append_assoc, List.singleton_append]

/- Each event is a group, and then the last records follow. -/
theorem groupsFrom_eventItems
    (events : List DevicePacketEvent)
    (records : List FileRecord) :
    groupsFrom []
        (eventItems events ++
          records.map GrammarItem.record) =
      events.map DevicePacketEvent.records := by
  induction events with
  | nil =>
      have hNone := groupsFrom_map_record [] records []
      rw [List.append_nil] at hNone
      rw [eventItems, List.flatMap_nil, List.nil_append, hNone]
      rfl
  | cons e events ih =>
      rw [eventItems_cons_append, groupsFrom_map_record,
        List.nil_append, groupsFrom, ih, List.map_cons]

theorem openGroup_eventItems
    (events : List DevicePacketEvent)
    (records : List FileRecord) :
    openGroup []
        (eventItems events ++
          records.map GrammarItem.record) = records := by
  induction events with
  | nil =>
      have hOpen := openGroup_map_record [] records []
      rw [List.append_nil, List.nil_append] at hOpen
      rw [eventItems, List.flatMap_nil, List.nil_append, hOpen]
      rfl
  | cons e events ih =>
      rw [eventItems_cons_append, openGroup_map_record, List.nil_append,
        openGroup, ih]

theorem not_isMarker_records
    {e : DevicePacketEvent}
    (hTimes : HasTimes e) :
    ∀ r ∈ e.records, ¬ IsMarker r.tv := by
  intro r hMem
  rw [DevicePacketEvent.records, List.mem_map] at hMem
  rcases hMem with ⟨entry, hEntry, rfl⟩
  exact hTimes entry hEntry

theorem isValid_map_record
    {records : List FileRecord}
    (hTimes : ∀ r ∈ records, ¬ IsMarker r.tv) :
    ∀ item ∈ records.map GrammarItem.record, item.IsValid := by
  rw [List.forall_mem_map]
  exact hTimes

theorem isValid_eventItems
    {events : List DevicePacketEvent}
    (hTimes : ∀ e ∈ events, HasTimes e) :
    ∀ item ∈ eventItems events, item.IsValid := by
  intro item hMem
  rw [eventItems, List.mem_flatMap] at hMem
  rcases hMem with ⟨e, hEvent, hItem⟩
  rw [List.mem_append, List.mem_singleton] at hItem
  rcases hItem with hRecord | rfl
  · exact isValid_map_record
      (not_isMarker_records (hTimes e hEvent)) item hRecord
  · trivial

/- What stands in front of an entry in the file. -/
theorem encodeGroup_split
    {e : DevicePacketEvent}
    {before after : List Entry}
    {entry : Entry}
    (hEntries : e.entries = before ++ entry :: after) :
    ∃ rest, encodeGroup e =
      (DevicePacketEvent.records
          { e with entries := before }).flatMap
            FileRecord.encode ++
        (timeval.encode entry.tv ++ rest) := by
  rw [encodeGroup_eq]
  simp only [DevicePacketEvent.records, hEntries,
    List.map_append, List.map_cons, List.flatMap_append,
    List.flatMap_cons, FileRecord.encode, List.append_assoc]
  exact ⟨_, rfl⟩

/- The loop up to an entry behind entries with times. -/
theorem readEventLoop_before
    {before : List DevicePacketEvent}
    (after : List DevicePacketEvent)
    {e : DevicePacketEvent}
    {pre post : List Entry}
    {entry : Entry}
    (hBefore : ∀ other ∈ before, HasTimes other)
    (hEntries : e.entries = pre ++ entry :: post)
    (hPre : HasTimes { e with entries := pre }) :
    ∃ id tail,
      readEventLoop .empty (-1) []
          ((before ++ e :: after).flatMap encodeGroup ++
            endOfFile) =
        readEventLoop
          (EventList.empty.insertGroups
            (before.map DevicePacketEvent.records))
          id
          ((DevicePacketEvent.records
            { e with entries := pre }).map FileRecord.stored)
          (timeval.encode entry.tv ++ tail) := by
  rcases encodeGroup_split hEntries with ⟨rest, hGroup⟩
  let records :=
    DevicePacketEvent.records { e with entries := pre }
  let items :=
    eventItems before ++ records.map GrammarItem.record
  have hValid : ∀ item ∈ items, item.IsValid := by
    rw [List.forall_mem_append]
    exact ⟨isValid_eventItems hBefore,
      isValid_map_record (not_isMarker_records hPre)⟩
  let tail :=
    rest ++ (after.flatMap encodeGroup ++ endOfFile)
  have hFile :
      (before ++ e :: after).flatMap encodeGroup ++
          endOfFile =
        items.flatMap GrammarItem.encode ++
          (timeval.encode entry.tv ++ tail) := by
    rw [List.flatMap_append, List.flatMap_cons, hGroup,
      List.flatMap_append, encode_eventItems,
      encode_map_record]
    simp only [records, tail, List.append_assoc]
  have hLoop :=
    readEventLoop_items hValid .empty []
      (timeval.encode entry.tv ++ tail)
  rw [groupsFrom_eventItems, openGroup_eventItems] at hLoop
  refine ⟨lastId (-1) records, tail, ?_⟩
  rw [hFile]
  exact hLoop

/- A marker ends the group, or the file. -/
theorem nodes_of_isMarker
    {tv : Timeval}
    (hMarker : IsMarker tv)
    (list : EventList)
    (id : Int32)
    (e : List InputEvent)
    (tail : List UInt8)
    {p : EventNode}
    (hNode :
      (readEventLoop list id e
        (timeval.encode tv ++ tail)).1.nodes[
          list.nodes.length]? = some p) :
    p.e = e := by
  rcases hMarker with hSeparator | hEnd
  · rw [encode_of_isSeparator hSeparator,
      readEventLoop_separator (readItem_separator tail)] at hNode
    rcases exists_append_of_readEventLoop
      (list.insert id e.length e) (-1) [] tail with
      ⟨more, hMore⟩
    rw [hMore] at hNode
    simp only [EventList.insert, List.append_assoc,
      List.singleton_append,
      List.getElem?_append_right (Nat.le_refl _),
      Nat.sub_self, List.getElem?_cons_zero,
      Option.some.injEq] at hNode
    rw [← hNode]
  · rw [encode_of_isEndOfFile hEnd,
      readEventLoop_endOfFile (readItem_endOfFile tail),
      List.getElem?_eq_none (Nat.le_refl _)] at hNode
    cases hNode

/- An entry whose time is a marker is not read back. -/
theorem hasTimes_of_typesBack
    {events : List DevicePacketEvent}
    (hBack :
      TypesBack
        (readEventLoop .empty (-1) []
          (events.flatMap encodeGroup ++ endOfFile)).1
        events) :
    ∀ e ∈ events, HasTimes e := by
  by_contra hNot
  simp only [not_forall, exists_prop] at hNot
  rcases Window.exists_first hNot with
    ⟨before, e, after, rfl, hMarked, hBefore⟩
  simp only [HasTimes, not_forall, not_not, exists_prop]
    at hMarked
  rcases Window.exists_first hMarked with
    ⟨pre, entry, post, hEntries, hMarker, hPre⟩
  rcases readEventLoop_before after
    (fun other hMem => not_not.mp (hBefore other hMem))
    hEntries hPre with ⟨id, tail, hLoop⟩
  have hEvent :
      (before ++ e :: after)[before.length]? = some e := by
    simp
  have hEntry : e.entries[pre.length]? = some entry := by
    simp [hEntries]
  rcases hBack _ e hEvent _ entry hEntry with
    ⟨p, event, hNode, hFound, _⟩
  rw [EventList.getEventData_eq_getElem?, hLoop] at hNode
  have hLength :
      before.length =
        (EventList.empty.insertGroups
          (before.map DevicePacketEvent.records)).nodes.length := by
    simp
  rw [hLength] at hNode
  rw [nodes_of_isMarker hMarker _ _ _ _ hNode] at hFound
  simp [DevicePacketEvent.records] at hFound

end FzEvent

------------------------------------------------------------
-- The Types Come Back
------------------------------------------------------------

namespace FzEvent

theorem groupTimes_map_records
    {events : List DevicePacketEvent}
    (hTimes : ∀ e ∈ events, HasTimes e) :
    GroupTimes (events.map DevicePacketEvent.records) := by
  rw [GroupTimes, List.forall_mem_map]
  intro e hMem
  exact not_isMarker_records (hTimes e hMem)

/- The groups that the reader of the device side keeps. -/
theorem filter_map_records
    (events : List DevicePacketEvent) :
    (events.map DevicePacketEvent.records).filter
        (fun group => group ≠ []) =
      (events.filter fun e => e.entries ≠ []).map
        DevicePacketEvent.records := by
  rw [List.filter_map]
  apply congrArg (List.map DevicePacketEvent.records)
  apply List.filter_congr
  intro e _
  simp [records_eq_nil_iff]

theorem keepsTypes_encodeGroup_iff
    {events : List DevicePacketEvent}
    (hTypes :
      ∀ e ∈ events, e.type = evAbs ∨ e.type = evKey)
    (locals : Nat → EventPlayer.ReadVars) :
    KeepsTypes locals
        (events.flatMap encodeGroup ++ endOfFile) events ↔
      ReportsZero events := by
  have hNotSyn : ∀ e ∈ events, e.type ≠ evSyn := by
    intro e hMem
    rcases hTypes e hMem with hType | hType
    · rw [hType]
      decide
    · rw [hType]
      decide
  constructor
  · intro hKeeps e hMem entry hEntry
    have hBack := hKeeps.player
    rw [readEvent_fst] at hBack
    have hTimes := hasTimes_of_typesBack hBack
    rw [encodeFile_records,
      readEventLoop_encodeFile (groupTimes_map_records hTimes),
      typesBack_insertGroups_iff] at hBack
    refine ⟨hTimes e hMem entry hEntry, ?_⟩
    rw [← type_playedEntry_iff (hNotSyn e hMem)]
    exact hBack e hMem entry hEntry
  · intro hZero
    have hTimes : ∀ e ∈ events, HasTimes e :=
      fun e hMem entry hEntry =>
        (hZero e hMem entry hEntry).1
    have hGroups := groupTimes_map_records hTimes
    have hTypeBack :
        ∀ e ∈ events, ∀ entry ∈ e.entries,
          (playedEntry e.type entry).type =
            entryType e.type entry := by
      intro e hMem entry hEntry
      rw [type_playedEntry_iff (hNotSyn e hMem)]
      exact (hZero e hMem entry hEntry).2
    rw [encodeFile_records]
    constructor
    · rw [readEvent_encodeFile hGroups,
        typesBack_insertGroups_iff]
      exact hTypeBack
    · refine ⟨_, _,
        EventPlayer.openEventFile_encodeFile hGroups locals
          .empty, ?_⟩
      rw [filter_map_records, typesBack_insertGroups_iff]
      intro e hMem
      exact hTypeBack e (List.mem_of_mem_filter hMem)

/-
  Every entry of a recording has its own type again in both
  readers exactly when all its reports carry the value 0 (and
  no time is a marker).
-/
theorem keepsTypes_iff_reportsZero
    (s : CEvtRcv)
    (events : List DevicePacketEvent)
    (locals : Nat → EventPlayer.ReadVars)
    (hClosed : s.sFpEvt = none)
    (hTypes :
      ∀ e ∈ events, e.type = evAbs ∨ e.type = evKey) :
    ∃ (s' : CEvtRcv) (file : List UInt8),
      ((s.makeEventFile.writeEvents events).bind
          CEvtRcv.closeEventFile) = some s' ∧
      s'.closed = file :: s.closed ∧
      (KeepsTypes locals file events ↔ ReportsZero events) :=
  ⟨_, _,
    CEvtRcv.closeEventFile_writeEvents hClosed events, rfl,
    keepsTypes_encodeGroup_iff hTypes locals⟩

theorem keepsTypes_iff_reportsZero_tapAndKey :
    ∃ (s' : CEvtRcv) (file : List UInt8),
      ((CEvtRcv.init.makeEventFile.writeEvents tapAndKey).bind
          CEvtRcv.closeEventFile) = some s' ∧
      s'.closed = [file] ∧
      (KeepsTypes (fun _ => ⟨⟨0, 0⟩, 0, 0, 0, 0⟩) file
        tapAndKey ↔ ReportsZero tapAndKey) :=
  keepsTypes_iff_reportsZero CEvtRcv.init tapAndKey _ rfl
    (by decide)

/- The report that the kernel sends with a repeating key. -/
def repeatReport : InputEvent :=
  ⟨⟨0, 0⟩, evSyn, synReport, 1⟩

/- A key repeats while a finger is down. -/
def touchAndRepeat : List InputEvent :=
  [.abs absMtTrackingId 7, repeatReport,
    .abs absMtTrackingId (-1)]

/-
  The recorder makes one packet of it. The second entry, a
  report of value 1, does not come back as a report.
-/
theorem not_keepsTypes_touchAndRepeat :
    ∃ ei, Parser.init.completed touchAndRepeat = [ei] ∧
      ei.received.type = evAbs ∧
      ∃ (s' : CEvtRcv) (file : List UInt8),
        ((CEvtRcv.init.makeEventFile.writeEvents
            [ei.received]).bind
          CEvtRcv.closeEventFile) = some s' ∧
        s'.closed = [file] ∧
        ¬ ∃ locals, KeepsTypes locals file [ei.received] := by
  refine ⟨_, rfl, rfl, _, _,
    CEvtRcv.closeEventFile_writeEvents rfl _, rfl, ?_⟩
  rintro ⟨locals, hKeeps⟩
  rw [keepsTypes_encodeGroup_iff (by decide)] at hKeeps
  exact absurd hKeeps (by decide)

end FzEvent

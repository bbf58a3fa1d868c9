import FzEvent.EndToEnd.EntryTypes
import FzEvent.Lib.Transition
import FzEvent.Lib.Words
import FzEvent.Player.PlayEvent
import FzEvent.Recorder.GetEvent

/-
  The number of a device from the path that the recorder reads
  to the file that the players open.

  The recorder takes the number out of the path with `strtok`
  and `atoi`, the packet and the event file carry it, and the
  players print it into the path again.

  Main declarations:
    * `FzEvent.devIdOf?_fileBuffer`
    * `FzEvent.CompletedOn` and `FzEvent.exists_completedOn`
    * `FzEvent.ReplayedInto` and `FzEvent.InjectedInto`
    * `FzEvent.injectedInto_of_completedOn`
    * `FzEvent.deviceNumber_roundTrip`
-/

------------------------------------------------------------
-- Paths and Numbers
------------------------------------------------------------

namespace FzEvent

/- Every id is read back from the file that is opened for it. -/
theorem devIdOf?_fileBuffer
    (id : Int32) :
    devIdOf? (fileBuffer id) = some id := by
  rw [fileBuffer, devIdOf?_of_format (by decide) (by decide)
    (natAbs_toInt_lt id), Int32.ofInt_toInt]

/-
  A path comes back from its number exactly when it is the
  path of some id.
-/
theorem fileBuffer_devIdOf?_iff
    (name : List Char) :
    (devIdOf? name).map fileBuffer = some name ↔
      ∃ id, name = fileBuffer id := by
  constructor
  · intro hBack
    rcases Option.map_eq_some_iff.mp hBack with
      ⟨id, _, hName⟩
    exact ⟨id, hName.symm⟩
  · rintro ⟨id, rfl⟩
    rw [devIdOf?_fileBuffer]
    rfl

/- A mouse is taken for the event device of its number. -/
example :
    (devIdOf?
        (defaultDevicePath ++
          ['/', 'm', 'o', 'u', 's', 'e', '3'])).map
      fileBuffer = some (eventPath 3) := by
  decide

/- The file of a device number is the path of the device. -/
theorem fileBuffer_ofInt
    {n : Nat}
    (hNumber : n < 2147483648) :
    fileBuffer (Int32.ofInt n) = eventPath n := by
  rw [fileBuffer, Words.toInt_ofInt_natCast hNumber, eventPath_eq]

end FzEvent

------------------------------------------------------------
-- The Device of a Packet
------------------------------------------------------------

namespace FzEvent

open Transition

/- A round that sets the pointer has noted the device. -/
theorem devIdOf?_of_getEventRound
    {s t : RecorderLoop}
    {name : List Char}
    {event : InputEvent}
    (hRound : s.getEventRound name event = some t)
    (hEvt : t.evt = true) :
    devIdOf? name = some t.parser.ei.devId := by
  cases hParse : Parser.parseEvent event s.parser with
  | none =>
      simp [RecorderLoop.getEventRound, hParse] at hRound
  | some result =>
      rcases result with ⟨ret, parser⟩
      by_cases hRet : ret = .parseEnd
      · subst hRet
        cases hDevId : devIdOf? name with
        | none =>
            simp [RecorderLoop.getEventRound, hParse, hDevId]
              at hRound
        | some devId =>
            rw [RecorderLoop.getEventRound_of_parseEnd hParse
              hDevId] at hRound
            cases hRound
            rfl
      · rw [RecorderLoop.getEventRound_of_ne hParse hRet name]
          at hRound
        cases hRound
        cases hEvt

/-
  Packet `k` of a run, `ei`, was completed by a read of the
  device `name`: the read left it in the buffer with the
  pointer set, and the iteration ended with it.
-/
def CompletedOn
    (name : List Char)
    (steps : List LoopStep)
    (k : Nat)
    (ei : EventInfo) : Prop :=
  ∃ before event after s t,
    steps = before ++ .read name event :: .finish :: after ∧
      recorderLoop.exec recorderLoop.init before = some s ∧
      s.getEventRound name event = some t ∧
      t.evt = true ∧ t.pushed.length = k ∧ t.parser.ei = ei

/- More steps change nothing of it. -/
theorem CompletedOn.append
    {name : List Char}
    {steps : List LoopStep}
    {k : Nat}
    {ei : EventInfo}
    (hCompleted : CompletedOn name steps k ei)
    (more : List LoopStep) :
    CompletedOn name (steps ++ more) k ei := by
  rcases hCompleted with
    ⟨before, event, after, s, t, rfl, hRest⟩
  refine ⟨before, event, after ++ more, s, t, ?_, hRest⟩
  simp

/- The packet carries the number of the device. -/
theorem CompletedOn.devIdOf?_eq
    {name : List Char}
    {steps : List LoopStep}
    {k : Nat}
    {ei : EventInfo}
    (hCompleted : CompletedOn name steps k ei) :
    devIdOf? name = some ei.devId := by
  rcases hCompleted with
    ⟨_, _, _, _, t, _, _, hRound, hEvt, _, rfl⟩
  exact devIdOf?_of_getEventRound hRound hEvt

/-
  A state with a full buffer and the pointer set is the one
  that a read has just left.
-/
def JustRead
    (steps : List LoopStep)
    (s : RecorderLoop) : Prop :=
  s.evt = true → s.parser.ei.count ≠ 0 →
    ∃ before name event u,
      steps = before ++ [.read name event] ∧
        recorderLoop.exec recorderLoop.init before = some u ∧
        u.getEventRound name event = some s

/- The packets of a run, and what is about to become one. -/
structure Traced
    (steps : List LoopStep)
    (s : RecorderLoop) : Prop where
  pushed :
    ∀ (k : Nat) (ei : EventInfo), s.pushed[k]? = some ei →
      ei.entries ≠ [] ∧
        ∃ name, CompletedOn name steps k ei
  justRead : JustRead steps s

theorem traced_init : Traced [] recorderLoop.init where
  pushed := by
    simp [recorderLoop, RecorderLoop.init]
  justRead := by
    simp [JustRead, recorderLoop, RecorderLoop.init]

section

variable {steps : List LoopStep}
variable {s t : RecorderLoop}

/- A read pushes nothing. -/
theorem Traced.read
    (hTraced : Traced steps s)
    (hRun :
      recorderLoop.exec recorderLoop.init steps = some s)
    {name : List Char}
    {event : InputEvent}
    (hRound : s.getEventRound name event = some t) :
    Traced (steps ++ [.read name event]) t where
  pushed := by
    intro k ei hPacket
    rw [(RecorderLoop.of_getEventRound hRound).2] at hPacket
    rcases hTraced.pushed k ei hPacket with
      ⟨hNonempty, other, hCompleted⟩
    exact ⟨hNonempty, other, hCompleted.append _⟩
  justRead := by
    intro _ _
    exact ⟨steps, name, event, s, rfl, hRun, hRound⟩

/- The end of an iteration pushes what was just read. -/
theorem Traced.finish
    (hTraced : Traced steps s)
    (hFinish : s.finish = some t) :
    Traced (steps ++ [.finish]) t := by
  have hOld :
      ∀ (k : Nat) (ei : EventInfo),
        s.pushed[k]? = some ei →
          ei.entries ≠ [] ∧
            ∃ name,
              CompletedOn name (steps ++ [.finish]) k ei := by
    intro k ei hPacket
    rcases hTraced.pushed k ei hPacket with
      ⟨hNonempty, name, hCompleted⟩
    exact ⟨hNonempty, name, hCompleted.append _⟩
  cases hEvt : s.evt with
  | false =>
      rw [RecorderLoop.finish_of_not_evt hEvt] at hFinish
      cases hFinish
      refine ⟨hOld, ?_⟩
      intro hSet
      rw [hEvt] at hSet
      cases hSet
  | true =>
      by_cases hCount : s.parser.ei.count = 0
      · simp [RecorderLoop.finish, hEvt, hCount] at hFinish
      · rw [RecorderLoop.finish_of_evt hEvt hCount] at hFinish
        cases hFinish
        refine ⟨?_, ?_⟩
        · intro k ei hPacket
          by_cases hLt : k < s.pushed.length
          · apply hOld k ei
            rwa [List.getElem?_append_left hLt] at hPacket
          · have hLast : k = s.pushed.length := by
              have hInside :=
                (List.getElem?_eq_some_iff.mp hPacket).1
              rw [List.length_append,
                List.length_singleton] at hInside
              omega
            rw [hLast, List.getElem?_concat_length] at hPacket
            cases hPacket
            rcases hTraced.justRead hEvt hCount with
              ⟨before, name, event, u, rfl, hRun, hRound⟩
            refine ⟨?_, name, before, event, [], u, s, ?_, hRun,
              hRound, hEvt, hLast.symm, rfl⟩
            · intro hNone
              apply hCount
              rw [EventInfo.count, hNone]
              rfl
            · simp
        · intro _ hLeft
          exact absurd (EventInfo.count_clear _) hLeft

/- The run lemma: every run is traced. -/
theorem traced_of_exec
    (hRun :
      recorderLoop.exec recorderLoop.init steps = some s) :
    Traced steps s := by
  refine recorderLoop.invariant_of_exec Traced traced_init ?_ hRun
  intro steps s l t hBefore hTraced hStep
  cases l with
  | read name event => exact hTraced.read hBefore hStep
  | finish => exact hTraced.finish hStep

/- Every packet of a run has entries. -/
theorem entries_ne_nil_of_mem_pushed
    (hRun :
      recorderLoop.exec recorderLoop.init steps = some s)
    {ei : EventInfo}
    (hMem : ei ∈ s.pushed) :
    ei.entries ≠ [] := by
  rcases List.getElem?_of_mem hMem with ⟨k, hPacket⟩
  exact ((traced_of_exec hRun).pushed k ei hPacket).1

/- Every packet of a run was completed by a read. -/
theorem exists_completedOn
    (hRun :
      recorderLoop.exec recorderLoop.init steps = some s)
    {k : Nat}
    {ei : EventInfo}
    (hPacket : s.pushed[k]? = some ei) :
    ∃ name, CompletedOn name steps k ei :=
  ((traced_of_exec hRun).pushed k ei hPacket).2

end

end FzEvent

------------------------------------------------------------
-- The File of the Packets
------------------------------------------------------------

namespace FzEvent

/- What both players write for a packet. -/
def EventInfo.injected (ei : EventInfo) : List InputEvent :=
  let events := ei.entries.map (playedEntry ei.eventType)
  events ++ [closingReport events]

/- The gestures of the packets are added to the open file. -/
theorem foldl_receive
    (packets : List SentPacket)
    {rcv : CEvtRcv}
    {file : List UInt8}
    (hOpen : rcv.sFpEvt = some file) :
    (packets.foldl SentPacket.receive rcv).sFpEvt =
        some (file ++
          ((packets.filterMap SentPacket.gesture?).map
            EventInfo.received).flatMap encodeGroup) ∧
      (packets.foldl SentPacket.receive rcv).closed =
        rcv.closed := by
  induction packets generalizing rcv file with
  | nil => simpa using hOpen
  | cons p packets ih =>
      cases p with
      | event tv ei =>
          have hNext :
              ((SentPacket.event tv ei).receive rcv).sFpEvt =
                some (file ++ encodeGroup ei.received) := by
            simp [SentPacket.receive, hOpen]
          rcases ih hNext with ⟨hFile, hClosed⟩
          refine ⟨?_, hClosed⟩
          rw [List.foldl_cons, hFile]
          simp [SentPacket.gesture?]
      | surface tv width height body => exact ih hOpen

/- The records that the file of some packets holds. -/
def groupsOf (pushed : List EventInfo) :
    List (List FileRecord) :=
  (pushed.map EventInfo.received).map
    DevicePacketEvent.records

theorem mem_groupsOf
    {pushed : List EventInfo}
    {group : List FileRecord}
    (hMem : group ∈ groupsOf pushed) :
    ∃ ei ∈ pushed, group = ei.received.records := by
  rw [groupsOf, List.map_map, List.mem_map] at hMem
  rcases hMem with ⟨ei, hPushed, hGroup⟩
  exact ⟨ei, hPushed, hGroup.symm⟩

/- Without markers among the times none is in the file. -/
theorem groupTimes_groupsOf
    {pushed : List EventInfo}
    (hTimes : ∀ ei ∈ pushed, HasTimes ei.received) :
    GroupTimes (groupsOf pushed) :=
  groupTimes_map_records (List.forall_mem_map.mpr hTimes)

/- The node of a packet in the list that is loaded. -/
theorem getEventData_insertGroups
    {pushed : List EventInfo}
    {k : Nat}
    {ei : EventInfo}
    (hPacket : pushed[k]? = some ei)
    (hNonempty : ei.entries ≠ []) :
    (EventList.empty.insertGroups
        (groupsOf pushed)).getEventData k =
      some ⟨k, ei.devId, ei.entries.length,
        ei.entries.map (playedEntry ei.eventType)⟩ := by
  have hEvent :
      (pushed.map EventInfo.received)[k]? =
        some ei.received := by
    rw [List.getElem?_map, hPacket]
    rfl
  have hId :=
    lastId_records (e := ei.received) hNonempty (-1)
  rw [groupsOf, getEventData_insertGroups_records hEvent, hId,
    stored_records, DevicePacketEvent.records,
    List.length_map]
  rfl

end FzEvent

------------------------------------------------------------
-- Into the Device
------------------------------------------------------------

namespace FzEvent

/-
  Both players load the file, and inject its event `k` into
  `path` if that can be opened.
-/
structure ReplayedInto
    (file : List UInt8)
    (k : Nat)
    (path : List Char)
    (events : List InputEvent) : Prop where
  player :
    ∀ openable : List Char → Bool, openable path = true →
      playInto openable (readEvent .empty (some file)).1 k =
        some (path, events)
  device :
    ∀ locals, ∃ fuel loaded,
      EventPlayer.openEventFile fuel locals (some file)
          .empty = some loaded ∧
        ∀ openable : List Char → Bool, openable path = true →
          playInto openable loaded k = some (path, events)

/-
  The packets are received with an event file open, to their
  last byte, and event `k` of that file goes into `path`.
-/
def InjectedInto
    (lib : CLib)
    (packets : List SentPacket)
    (k : Nat)
    (path : List Char)
    (events : List InputEvent) : Prop :=
  ∀ (buf : Buffer lib.bufsiz) (rcv : CEvtRcv),
    rcv.sFpEvt = some [] →
      ∃ s rcv' file,
        svc ⟨buf, packets.flatMap SentPacket.bytes, rcv, []⟩ =
            (s, .headerClosed) ∧
          s.stream = [] ∧
          s.rcv.closeEventFile = some rcv' ∧
          rcv'.closed = file :: rcv.closed ∧
          ReplayedInto file k path events

/-
  The packets carry the gestures that were pushed, with any
  screen captures between them. They fit the receiver, and no
  time in them is taken for a marker.
-/
structure Carries
    (lib : CLib)
    (packets : List SentPacket)
    (pushed : List EventInfo) : Prop where
  gestures_eq :
    packets.filterMap SentPacket.gesture? = pushed
  fits : ∀ p ∈ packets, p.Fits lib.bufsiz
  times : ∀ ei ∈ pushed, HasTimes ei.received

/-
  With the event file open all packets are handled, and the
  file holds the groups of their gestures when it is closed.
-/
theorem svc_gestures
    {lib : CLib}
    {packets : List SentPacket}
    (hFits : ∀ p ∈ packets, p.Fits lib.bufsiz)
    (buf : Buffer lib.bufsiz)
    {rcv : CEvtRcv}
    (hOpen : rcv.sFpEvt = some []) :
    ∃ s rcv',
      svc ⟨buf, packets.flatMap SentPacket.bytes, rcv, []⟩ =
          (s, .headerClosed) ∧
        s.stream = [] ∧
        s.rcv.closeEventFile = some rcv' ∧
        rcv'.closed =
          encodeFile
              (groupsOf
                (packets.filterMap SentPacket.gesture?)) ::
            rcv.closed := by
  have hSome : rcv.sFpEvt.isSome := by
    rw [hOpen]
    rfl
  rcases svc_append_packets
      (s := ⟨buf, packets.flatMap SentPacket.bytes, rcv, []⟩)
      hSome hFits (List.append_nil _).symm with ⟨buf', hLoop⟩
  rcases foldl_receive packets hOpen with ⟨hFile, hClosed⟩
  rw [List.nil_append] at hFile
  refine ⟨⟨buf', [], packets.foldl SentPacket.receive rcv,
      packets.map SentPacket.handled⟩, _, ?_, rfl,
    CEvtRcv.closeEventFile_of_open hFile, ?_⟩
  · rw [hLoop, svc_of_stream_nil rfl]
    rfl
  · rw [hClosed, groupsOf, encodeFile_records]

/- Both players find a packet in the file of the packets. -/
theorem replayedInto_encodeFile
    {pushed : List EventInfo}
    (hTimes : ∀ ei ∈ pushed, HasTimes ei.received)
    (hNonempty : ∀ ei ∈ pushed, ei.entries ≠ [])
    {k : Nat}
    {ei : EventInfo}
    (hPacket : pushed[k]? = some ei) :
    ReplayedInto (encodeFile (groupsOf pushed)) k
      (fileBuffer ei.devId) ei.injected := by
  have hGroupTimes := groupTimes_groupsOf hTimes
  have hGroups : ∀ group ∈ groupsOf pushed, group ≠ [] := by
    intro group hGroup
    rcases mem_groupsOf hGroup with ⟨other, hMem, rfl⟩
    rw [Ne, records_eq_nil_iff]
    exact hNonempty other hMem
  have hNode := getEventData_insertGroups hPacket
    (hNonempty ei (List.mem_of_getElem? hPacket))
  have hPlays :
      ∀ openable : List Char → Bool,
        openable (fileBuffer ei.devId) = true →
          playInto openable
              (EventList.empty.insertGroups
                (groupsOf pushed)) k =
            some (fileBuffer ei.devId, ei.injected) := by
    intro openable hOpen
    apply playInto_of_getEventData hNode _ hOpen
    simp
  constructor
  · rw [readEvent_encodeFile hGroupTimes]
    exact hPlays
  · intro locals
    refine ⟨_, _,
      EventPlayer.openEventFile_encodeFile hGroupTimes locals
        .empty, ?_⟩
    have hAll :
        ((groupsOf pushed).filter fun group => group ≠ []) =
          groupsOf pushed := by
      rw [List.filter_eq_self]
      simpa using hGroups
    rw [hAll]
    exact hPlays

/- What is carried to the receiver is injected. -/
theorem injectedInto_of_carries
    {lib : CLib}
    {packets : List SentPacket}
    {pushed : List EventInfo}
    (hCarries : Carries lib packets pushed)
    (hNonempty : ∀ ei ∈ pushed, ei.entries ≠ [])
    {k : Nat}
    {ei : EventInfo}
    (hPacket : pushed[k]? = some ei) :
    InjectedInto lib packets k (fileBuffer ei.devId)
      ei.injected := by
  intro buf rcv hOpen
  rcases svc_gestures hCarries.fits buf hOpen with
    ⟨s, rcv', hSvc, hStream, hClose, hClosed⟩
  rw [hCarries.gestures_eq] at hClosed
  exact ⟨s, rcv', encodeFile (groupsOf pushed), hSvc, hStream,
    hClose, hClosed,
    replayedInto_encodeFile hCarries.times hNonempty hPacket⟩

end FzEvent

------------------------------------------------------------
-- The Round Trip
------------------------------------------------------------

namespace FzEvent

open Transition

/-
  Whatever a run records on a device is injected into the
  file of the device's number.
-/
theorem injectedInto_of_completedOn
    {steps : List LoopStep}
    {t : RecorderLoop}
    (hRun :
      recorderLoop.exec recorderLoop.init steps = some t)
    {lib : CLib}
    {packets : List SentPacket}
    (hCarries : Carries lib packets t.pushed)
    {name : List Char}
    {k : Nat}
    {ei : EventInfo}
    (hPacket : t.pushed[k]? = some ei)
    (hCompleted : CompletedOn name steps k ei) :
    ∃ devId,
      devIdOf? name = some devId ∧
        InjectedInto lib packets k (fileBuffer devId)
          ei.injected := by
  refine ⟨ei.devId, hCompleted.devIdOf?_eq, ?_⟩
  exact injectedInto_of_carries hCarries
    (fun _ => entries_ne_nil_of_mem_pushed hRun) hPacket

/-
  The number of an event device is read from its path and
  printed into the same path again, and what is recorded on
  the device is injected into it.
-/
theorem deviceNumber_roundTrip
    {n : Nat}
    (hNumber : n < 2147483648) :
    ∃ devId : Int32,
      devId.toInt = n ∧
        devIdOf? (eventPath n) = some devId ∧
        fileBuffer devId = eventPath n ∧
        ∀ steps t,
          recorderLoop.exec recorderLoop.init steps = some t →
            ∀ k ei, t.pushed[k]? = some ei →
              CompletedOn (eventPath n) steps k ei →
                ei.devId = devId ∧
                  ∀ lib packets,
                    Carries lib packets t.pushed →
                      InjectedInto lib packets k (eventPath n)
                        ei.injected := by
  have hNumberOf := devIdOf?_eventPath hNumber
  have hFile := fileBuffer_ofInt hNumber
  refine ⟨Int32.ofInt n, Words.toInt_ofInt_natCast hNumber,
    hNumberOf, hFile, ?_⟩
  intro steps t hRun k ei hPacket hCompleted
  have hDevId := hCompleted.devIdOf?_eq
  rw [hNumberOf, Option.some_inj] at hDevId
  refine ⟨hDevId.symm, ?_⟩
  intro lib packets hCarries
  rcases injectedInto_of_completedOn hRun hCarries hPacket
    hCompleted with ⟨devId, hSame, hInjected⟩
  rw [hNumberOf, Option.some_inj] at hSame
  rwa [← hSame, hFile] at hInjected

/- A key is pressed on the twelfth device. -/
def keyOnTwelve : List LoopStep :=
  [.read (eventPath 12) ⟨⟨1, 0⟩, evKey, 116, 1⟩, .finish]

def keyOnTwelvePacket : EventInfo :=
  ⟨evKey, 12, [⟨⟨1, 0⟩, -1, 116, 1⟩]⟩

theorem deviceNumber_roundTrip_keyOnTwelve :
    devIdOf? (eventPath 12) = some 12 ∧
      fileBuffer 12 = eventPath 12 ∧
      InjectedInto CLib.android
        [.event ⟨2, 0⟩ keyOnTwelvePacket] 0 (eventPath 12)
        keyOnTwelvePacket.injected := by
  have hRun :
      (recorderLoop.exec recorderLoop.init keyOnTwelve).map
        RecorderLoop.pushed = some [keyOnTwelvePacket] := by
    decide
  rcases Option.map_eq_some_iff.mp hRun with
    ⟨t, hExec, hPushed⟩
  have hPacket : t.pushed[0]? = some keyOnTwelvePacket := by
    rw [hPushed]
    rfl
  have hCompleted :
      CompletedOn (eventPath 12) keyOnTwelve 0
        keyOnTwelvePacket :=
    ⟨[], _, [], _, _, rfl, rfl, rfl, rfl, rfl, rfl⟩
  have hCarries :
      Carries CLib.android [.event ⟨2, 0⟩ keyOnTwelvePacket]
        t.pushed := by
    rw [hPushed]
    refine ⟨rfl, ?_, by decide⟩
    simp [SentPacket.Fits, CLib.android, EventInfo.count,
      keyOnTwelvePacket]
  rcases deviceNumber_roundTrip
      (show 12 < 2147483648 by decide) with
    ⟨devId, _, hDevId, hFile, hInjected⟩
  have hTwelve : devIdOf? (eventPath 12) = some 12 := by
    decide
  rw [hTwelve, Option.some_inj] at hDevId
  rw [← hDevId] at hFile
  exact ⟨hTwelve, hFile,
    (hInjected _ t hExec 0 keyOnTwelvePacket hPacket
      hCompleted).2 _ _ hCarries⟩

end FzEvent

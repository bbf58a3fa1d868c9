import FzEvent.EndToEnd.ReaderAgreement
import FzEvent.EndToEnd.RecordingSession

/-
  Remote play on the device side: the receiving thread
  `recv_packet` with the event list, which the messages
  `EVENT_PLAY_START`, `EVENT_PLAY_STEP` and `EVENT_PLAY_STOP`
  load, play and destroy.

  `EVENT_PLAY_START` appends to the list that it finds.

  Main declarations:
    * `FzEvent.ControlMessage` and `FzEvent.controlMessage`
    * `FzEvent.RemotePlay` and `RemotePlay.recvPacket`
    * `FzEvent.loadedFile` and `FzEvent.staleEvents`
    * `FzEvent.recvPacket_of_history`
    * `FzEvent.remotePlay_of_noStale`
    * `FzEvent.exists_wrong_step_of_stale`
-/

------------------------------------------------------------
-- Control Words
------------------------------------------------------------

namespace FzEvent

/- The branches of the switch of `recv_packet`. -/
inductive ControlMessage
| captureStart
| captureStop
| captureImmediately
| eventRecordStart
| eventRecordStop
| eventPlayStart
| eventPlayStep
| eventPlayStop
| terminate
| unknown
deriving DecidableEq, Repr

/- `CONTROL_MESSAGE_CAPTURE_START` -/
def controlMessageCaptureStart : UInt32 := 0x00010001

/- `CONTROL_MESSAGE_CAPTURE_STOP` -/
def controlMessageCaptureStop : UInt32 := 0x00010002

/- `CONTROL_MESSAGE_CAPTURE_IMMEDIATELY` -/
def controlMessageCaptureImmediately : UInt32 := 0x00010004

/- `CONTROL_MESSAGE_EVENT_PLAY_START` -/
def controlMessageEventPlayStart : UInt32 := 0x00040001

/- `CONTROL_MESSAGE_EVENT_PLAY_STOP` -/
def controlMessageEventPlayStop : UInt32 := 0x00040002

/- `CONTROL_MESSAGE_EVENT_PLAY_STEP` -/
def controlMessageEventPlayStep : UInt32 := 0x00040004

/- `switch(recv_buffer & 0x00ff00ff)` -/
def controlMessage (recvBuffer : UInt32) : ControlMessage :=
  let code := recvBuffer &&& 0x00ff00ff
  if code = controlMessageCaptureStart then .captureStart
  else if code = controlMessageCaptureStop then .captureStop
  else if code = controlMessageCaptureImmediately then
    .captureImmediately
  else if code = controlMessageEventRecordStart then
    .eventRecordStart
  else if code = controlMessageEventRecordStop then
    .eventRecordStop
  else if code = controlMessageEventPlayStart then
    .eventPlayStart
  else if code = controlMessageEventPlayStep then .eventPlayStep
  else if code = controlMessageEventPlayStop then .eventPlayStop
  else if code = controlMessageTerminate then .terminate
  else .unknown

/- `idx` of `EVENT_PLAY_STEP`, from the two other bytes. -/
def idx (recvBuffer : UInt32) : UInt32 :=
  ((recvBuffer &&& 0xff000000) >>> 16) |||
    ((recvBuffer &&& 0x0000ff00) >>> 8)

/- The first byte of an index at its place in the word. -/
def highByte (high : UInt8) : UInt32 :=
  high.toUInt32 <<< 24

/- The second byte of an index and the code. -/
def lowByte (low : UInt8) : UInt32 :=
  (low.toUInt32 <<< 8) ||| controlMessageEventPlayStep

/- The word of an `EVENT_PLAY_STEP` with these two bytes. -/
def stepWord (high low : UInt8) : UInt32 :=
  highByte high ||| lowByte low

theorem or_and_distrib
    (a b mask : UInt32) :
    (a ||| b) &&& mask = (a &&& mask) ||| (b &&& mask) := by
  apply UInt32.toBitVec_inj.mp
  exact BitVec.and_or_distrib_right

theorem highByte_masks
    (high : UInt8) :
    highByte high &&& 0x00ff00ff = 0 ∧
      highByte high &&& 0x0000ff00 = 0 ∧
      ((highByte high &&& 0xff000000) >>> 16).toNat =
        high.toNat * 256 := by
  have hAll :
      ∀ b : Fin 256,
        highByte (.ofFin b) &&& 0x00ff00ff = 0 ∧
          highByte (.ofFin b) &&& 0x0000ff00 = 0 ∧
          ((highByte (.ofFin b) &&& 0xff000000) >>> 16).toNat =
            (UInt8.ofFin b).toNat * 256 := by
    decide +kernel
  exact hAll high.toFin

theorem lowByte_masks
    (low : UInt8) :
    lowByte low &&& 0x00ff00ff = controlMessageEventPlayStep ∧
      lowByte low &&& 0xff000000 = 0 ∧
      ((lowByte low &&& 0x0000ff00) >>> 8).toNat =
        low.toNat := by
  have hAll :
      ∀ b : Fin 256,
        lowByte (.ofFin b) &&& 0x00ff00ff =
            controlMessageEventPlayStep ∧
          lowByte (.ofFin b) &&& 0xff000000 = 0 ∧
          ((lowByte (.ofFin b) &&& 0x0000ff00) >>> 8).toNat =
            (UInt8.ofFin b).toNat := by
    decide +kernel
  exact hAll low.toFin

theorem controlMessage_stepWord
    (high low : UInt8) :
    controlMessage (stepWord high low) = .eventPlayStep := by
  have hCode :
      stepWord high low &&& 0x00ff00ff =
        controlMessageEventPlayStep := by
    rw [stepWord, or_and_distrib, (highByte_masks high).1,
      (lowByte_masks low).1]
    decide
  rw [controlMessage, hCode]
  decide

theorem toNat_idx_stepWord
    (high low : UInt8) :
    (idx (stepWord high low)).toNat =
      high.toNat * 256 + low.toNat := by
  have hHigh := highByte_masks high
  have hLow := lowByte_masks low
  have hLt : low.toNat < 2 ^ 8 := low.toNat_lt
  rw [idx, stepWord, or_and_distrib, or_and_distrib, hLow.2.1,
    hHigh.2.1, UInt32.or_zero, UInt32.zero_or,
    UInt32.toNat_or, hHigh.2.2, hLow.2.2,
    show high.toNat * 256 = high.toNat <<< 8 from
      (Nat.shiftLeft_eq high.toNat 8).symm,
    ← Nat.shiftLeft_add_eq_or_of_lt hLt]

/- Every index below 2^16 has its word. -/
theorem exists_stepWord
    {i : Nat}
    (hLt : i < 2 ^ 16) :
    ∃ word, controlMessage word = .eventPlayStep ∧
      (idx word).toNat = i := by
  refine
    ⟨stepWord (.ofNat (i / 256)) (.ofNat (i % 256)),
      controlMessage_stepWord _ _, ?_⟩
  rw [toNat_idx_stepWord, UInt8.toNat_ofNat',
    UInt8.toNat_ofNat']
  omega

end FzEvent

------------------------------------------------------------
-- The Receiving Thread
------------------------------------------------------------

namespace FzEvent

/- `RUNNING_SCREEN_CAPTURE` -/
def runningScreenCapture : UInt32 := 0x00000010

/- `RUNNING_EVENT_RECORD` -/
def runningEventRecord : UInt32 := 0x00000100

/- `RUNNING_EVENT_PLAY` -/
def runningEventPlay : UInt32 := 0x00000200

/-
  `running`, `running_mode`, the event list, and the number of
  `get_surface_immediately` threads created so far.
-/
structure RemotePlay where
  running : Bool
  runningMode : UInt32
  list : EventList
  immediately : Nat
deriving DecidableEq

namespace RemotePlay

def init : RemotePlay where
  running := true
  runningMode := 0
  list := .empty
  immediately := 0

/- `set_running_mode` -/
def setRunningMode
    (s : RemotePlay)
    (mode : UInt32) : RemotePlay :=
  { s with runningMode := s.runningMode ||| mode }

/- `unset_running_mode` -/
def unsetRunningMode
    (s : RemotePlay)
    (mode : UInt32) : RemotePlay :=
  { s with runningMode := s.runningMode &&& ~~~mode }

/-
  One round of `recv_packet` on a received word, `none` when
  the loop has ended or `open_event_file` does not come to its
  end: the new state and what `play_event` writes to which
  device file. `evt` is the file at `EVENT_FILE_PATH`, and
  `locals` is for `open_event_file`.
-/
def recvPacket
    (openable : Int32 → Bool)
    (s : RemotePlay)
    (recvBuffer : UInt32)
    (evt : Option (List UInt8))
    (locals : Nat → EventPlayer.ReadVars) :
    Option (RemotePlay × Option (Int32 × List InputEvent)) :=
  if s.running then
    match controlMessage recvBuffer with
    | .captureStart =>
        some (s.setRunningMode runningScreenCapture, none)
    | .captureStop =>
        some (s.unsetRunningMode runningScreenCapture, none)
    | .captureImmediately =>
        some ({ s with immediately := s.immediately + 1 }, none)
    | .eventRecordStart =>
        some (s.setRunningMode runningEventRecord, none)
    | .eventRecordStop =>
        some (s.unsetRunningMode runningEventRecord, none)
    | .eventPlayStart =>
        -- as much fuel as `exists_loaded_of_reachesEnd` takes
        (EventPlayer.openEventFile ((evt.getD []).length + 2)
          locals evt s.list).map fun list =>
            ({ s.setRunningMode runningEventPlay with list },
              none)
    | .eventPlayStep =>
        some (s, EventPlayer.playEvent openable s.list
          (idx recvBuffer).toNat)
    | .eventPlayStop =>
        some ({ s.unsetRunningMode runningEventPlay with
          list := s.list.destroy }, none)
    | .terminate => some ({ s with running := false }, none)
    | .unknown => some (s, none)
  else
    none

end RemotePlay

/-
  A received word, with the groups of the file that is present
  when it is handled and the memory of the call's variables.
-/
structure PlayMessage where
  word : UInt32
  groups : List (List FileRecord)
  locals : Nat → EventPlayer.ReadVars

open Transition in
/- The receiving thread as a system. -/
def remotePlay (openable : Int32 → Bool) :
    System RemotePlay PlayMessage where
  init := .init
  step s l :=
    (s.recvPacket openable l.word (some (encodeFile l.groups))
      l.locals).map Prod.fst

end FzEvent

------------------------------------------------------------
-- Histories
------------------------------------------------------------

namespace FzEvent

/-
  The events of the file loaded last, and those of the files
  loaded before it, since the last `EVENT_PLAY_STOP`.
-/
structure Loads where
  stale : List (List FileRecord)
  current : List (List FileRecord)
deriving DecidableEq, Repr

def Loads.next
    (h : Loads)
    (l : PlayMessage) : Loads :=
  match controlMessage l.word with
  | .eventPlayStart => ⟨h.stale ++ h.current, l.groups⟩
  | .eventPlayStop => ⟨[], []⟩
  | _ => h

open Transition in
/- The messages as steps on what is loaded. -/
def loadHistory : System Loads PlayMessage where
  init := ⟨[], []⟩
  step h l := some (h.next l)

/- A step comes while no earlier file is still loaded. -/
def Loads.Fresh
    (h : Loads)
    (l : PlayMessage) : Prop :=
  controlMessage l.word = .eventPlayStep → h.stale = []
deriving Decidable

/- What a sequence of messages has loaded. -/
def loads (before : List PlayMessage) : Loads :=
  before.foldl Loads.next ⟨[], []⟩

/-
  The events of the file that the last `EVENT_PLAY_START`
  loaded, and none if an `EVENT_PLAY_STOP` came after it.
-/
def loadedFile (before : List PlayMessage) :
    List (List FileRecord) :=
  (loads before).current

/-
  The events that an earlier `EVENT_PLAY_START` loaded and no
  `EVENT_PLAY_STOP` destroyed.
-/
def staleEvents (before : List PlayMessage) :
    List (List FileRecord) :=
  (loads before).stale

/- What is written to replay the event with this index. -/
def replayOf
    (groups : List (List FileRecord))
    (i : Nat) : Option (Int32 × List InputEvent) :=
  groups[i]?.map fun group =>
    let events := group.map FileRecord.stored
    (lastId (-1) group, events ++ [closingReport events])

/- A message replays an event if it is a step to it. -/
def replay
    (groups : List (List FileRecord))
    (word : UInt32) : Option (Int32 × List InputEvent) :=
  if controlMessage word = .eventPlayStep then
    replayOf groups (idx word).toNat
  else
    none

/-
  A well-formed file: each of its events has an entry, and a
  device file that can be opened.
-/
structure WellFormedFile
    (openable : Int32 → Bool)
    (groups : List (List FileRecord)) : Prop where
  times : GroupTimes groups
  nonempty : ∀ group ∈ groups, group ≠ []
  device :
    ∀ group ∈ groups, openable (lastId (-1) group) = true

instance
    (openable : Int32 → Bool)
    (groups : List (List FileRecord)) :
    Decidable (WellFormedFile openable groups) :=
  decidable_of_iff
    (GroupTimes groups ∧
      (∀ group ∈ groups, group ≠ []) ∧
      ∀ group ∈ groups, openable (lastId (-1) group) = true)
    ⟨fun h => ⟨h.1, h.2.1, h.2.2⟩,
      fun h => ⟨h.times, h.nonempty, h.device⟩⟩

theorem exec_loadHistory
    (h : Loads)
    (before : List PlayMessage) :
    loadHistory.exec h before =
      some (before.foldl Loads.next h) := by
  induction before generalizing h with
  | nil => rfl
  | cons l before ih => exact ih (h.next l)

end FzEvent

------------------------------------------------------------
-- The List of a History
------------------------------------------------------------

namespace FzEvent

/- A step on the list of some groups replays one of them. -/
theorem playEvent_insertGroups
    {openable : Int32 → Bool}
    {groups : List (List FileRecord)}
    (hDevice :
      ∀ group ∈ groups, openable (lastId (-1) group) = true)
    (i : Nat) :
    EventPlayer.playEvent openable
        (EventList.empty.insertGroups groups) i =
      replayOf groups i := by
  rw [EventPlayer.playEvent, EventList.getEventData_eq_getElem?,
    nodes_insertGroups_empty, replayOf]
  cases hGroup : groups[i]? with
  | none => rfl
  | some group =>
      have hOpen := hDevice group (List.mem_of_getElem? hGroup)
      have hEvents :
          playLoop (group.map FileRecord.stored) group.length =
            some (group.map FileRecord.stored) := by
        rw [playLoop_of_le (by simp),
          List.take_of_length_le (by simp)]
      simp [hOpen, hEvents, guard]

end FzEvent

------------------------------------------------------------
-- Replayed Events
------------------------------------------------------------

namespace FzEvent

open Transition

/-
  The list holds what the messages loaded, the stale events
  first, and all device files can be opened.
-/
structure Holds
    (openable : Int32 → Bool)
    (h : Loads)
    (s : RemotePlay) : Prop where
  list_eq :
    s.list =
      EventList.empty.insertGroups (h.stale ++ h.current)
  device :
    ∀ group ∈ h.stale ++ h.current,
      openable (lastId (-1) group) = true

theorem holds_init
    (openable : Int32 → Bool) :
    Holds openable ⟨[], []⟩ .init where
  list_eq := rfl
  device group hMem := by cases hMem

/- A well-formed file is loaded behind the list. -/
theorem openEventFile_of_wellFormed
    {openable : Int32 → Bool}
    {groups : List (List FileRecord)}
    (hFile : WellFormedFile openable groups)
    (locals : Nat → EventPlayer.ReadVars)
    (list : EventList) :
    EventPlayer.openEventFile ((encodeFile groups).length + 2)
        locals (some (encodeFile groups)) list =
      some (list.insertGroups groups) := by
  have hAll :
      (groups.filter fun group => group ≠ []) = groups := by
    rw [List.filter_eq_self]
    simpa using hFile.nonempty
  have hOpen :=
    EventPlayer.openEventFile_encodeFile hFile.times locals list
  rw [hAll] at hOpen
  exact EventPlayer.openEventFile_mono (Nat.le_add_right _ 2)
    hOpen

section Messages

variable (openable : Int32 → Bool)
variable {s : RemotePlay} {word : UInt32}

theorem recvPacket_of_start
    (hRunning : s.running = true)
    (hWord : controlMessage word = .eventPlayStart)
    {groups : List (List FileRecord)}
    (hFile : WellFormedFile openable groups)
    (locals : Nat → EventPlayer.ReadVars) :
    s.recvPacket openable word (some (encodeFile groups))
        locals =
      some ({ s.setRunningMode runningEventPlay with
        list := s.list.insertGroups groups }, none) := by
  have hOpen := openEventFile_of_wellFormed hFile locals s.list
  simp [RemotePlay.recvPacket, hRunning, hWord, hOpen]

theorem recvPacket_of_step
    (hRunning : s.running = true)
    (hWord : controlMessage word = .eventPlayStep)
    (evt : Option (List UInt8))
    (locals : Nat → EventPlayer.ReadVars) :
    s.recvPacket openable word evt locals =
      some (s, EventPlayer.playEvent openable s.list
        (idx word).toNat) := by
  simp [RemotePlay.recvPacket, hRunning, hWord]

theorem recvPacket_of_stop
    (hRunning : s.running = true)
    (hWord : controlMessage word = .eventPlayStop)
    (evt : Option (List UInt8))
    (locals : Nat → EventPlayer.ReadVars) :
    s.recvPacket openable word evt locals =
      some ({ s.unsetRunningMode runningEventPlay with
        list := .empty }, none) := by
  simp [RemotePlay.recvPacket, hRunning, hWord,
    EventList.destroy]

/- The other messages leave the list and play nothing. -/
theorem recvPacket_of_other
    (hRunning : s.running = true)
    (hOther :
      controlMessage word ≠ .eventPlayStart ∧
        controlMessage word ≠ .eventPlayStep ∧
        controlMessage word ≠ .eventPlayStop)
    (evt : Option (List UInt8))
    (locals : Nat → EventPlayer.ReadVars) :
    ∃ t,
      s.recvPacket openable word evt locals = some (t, none) ∧
        t.list = s.list := by
  rw [RemotePlay.recvPacket, if_pos hRunning]
  cases hWord : controlMessage word with
  | eventPlayStart => exact absurd hWord hOther.1
  | eventPlayStep => exact absurd hWord hOther.2.1
  | eventPlayStop => exact absurd hWord hOther.2.2
  | _ => exact ⟨_, rfl, rfl⟩

end Messages

/- The step lemma. -/
theorem recvPacket_of_holds
    {openable : Int32 → Bool}
    {h : Loads}
    {s : RemotePlay}
    (hHolds : Holds openable h s)
    (hRunning : s.running = true)
    (l : PlayMessage)
    (hFile :
      controlMessage l.word = .eventPlayStart →
        WellFormedFile openable l.groups) :
    ∃ t,
      s.recvPacket openable l.word (some (encodeFile l.groups))
          l.locals =
        some (t, replay (h.stale ++ h.current) l.word) ∧
      Holds openable (h.next l) t := by
  cases hWord : controlMessage l.word with
  | eventPlayStart =>
      have hGroups := hFile hWord
      have hRecv :=
        recvPacket_of_start openable hRunning hWord hGroups
          l.locals
      rw [replay, if_neg (by simp [hWord])]
      refine ⟨_, hRecv, ?_, ?_⟩
      · simp only [Loads.next, hWord]
        rw [hHolds.list_eq, ← insertGroups_append]
      · intro group hMem
        simp only [Loads.next, hWord] at hMem
        rcases List.mem_append.mp hMem with hOld | hNew
        · exact hHolds.device group hOld
        · exact hGroups.device group hNew
  | eventPlayStep =>
      refine ⟨s, ?_, ?_⟩
      · rw [recvPacket_of_step openable hRunning hWord, hHolds.list_eq,
          playEvent_insertGroups hHolds.device, replay,
          if_pos hWord]
      · simpa only [Loads.next, hWord] using hHolds
  | eventPlayStop =>
      have hRecv :=
        recvPacket_of_stop openable hRunning hWord
          (some (encodeFile l.groups)) l.locals
      rw [replay, if_neg (by simp [hWord])]
      refine ⟨_, hRecv, ?_⟩
      simp only [Loads.next, hWord]
      exact ⟨rfl, fun group hMem => by cases hMem⟩
  | captureStart | captureStop | captureImmediately
  | eventRecordStart | eventRecordStop | terminate | unknown =>
      have hOther :
          controlMessage l.word ≠ .eventPlayStart ∧
            controlMessage l.word ≠ .eventPlayStep ∧
            controlMessage l.word ≠ .eventPlayStop := by
        simp [hWord]
      rcases recvPacket_of_other openable hRunning hOther
        (some (encodeFile l.groups)) l.locals with
        ⟨t, hRecv, hList⟩
      refine ⟨t, ?_, ?_⟩
      · rw [hRecv, replay, if_neg hOther.2.1]
      · simp only [Loads.next, hWord]
        exact ⟨hList.trans hHolds.list_eq, hHolds.device⟩

/- The run lemma. -/
theorem holds_of_exec
    {openable : Int32 → Bool}
    {before : List PlayMessage}
    (hFiles :
      ∀ l ∈ before, controlMessage l.word = .eventPlayStart →
        WellFormedFile openable l.groups)
    {h : Loads}
    {s t : RemotePlay}
    (hHolds : Holds openable h s)
    (hRun : (remotePlay openable).exec s before = some t) :
    Holds openable (before.foldl Loads.next h) t := by
  induction before generalizing h s with
  | nil =>
      rw [System.exec_nil, Option.some.injEq] at hRun
      exact hRun ▸ hHolds
  | cons l before ih =>
      rw [List.forall_mem_cons] at hFiles
      rw [System.exec_cons_eq_some_iff] at hRun
      rcases hRun with ⟨u, hStep, hRest⟩
      have hRunning : s.running = true := by
        by_contra hStopped
        simp [remotePlay, RemotePlay.recvPacket, hStopped]
          at hStep
      rcases recvPacket_of_holds hHolds hRunning l hFiles.1 with
        ⟨v, hRecv, hNext⟩
      simp only [remotePlay, hRecv, Option.map_some,
        Option.some.injEq] at hStep
      subst hStep
      exact ih hFiles.2 hNext hRest

/-
  While the thread runs, it handles every message, and a step
  replays from all the events that are in the list.
-/
theorem recvPacket_of_history
    {openable : Int32 → Bool}
    {before : List PlayMessage}
    {l : PlayMessage}
    (hFiles :
      ∀ m ∈ before ++ [l],
        controlMessage m.word = .eventPlayStart →
          WellFormedFile openable m.groups)
    {s : RemotePlay}
    (hRun :
      (remotePlay openable).exec .init before = some s)
    (hRunning : s.running = true) :
    ∃ t,
      s.recvPacket openable l.word (some (encodeFile l.groups))
          l.locals =
        some (t,
          replay (staleEvents before ++ loadedFile before)
            l.word) := by
  have hHolds :=
    holds_of_exec
      (fun m hMem => hFiles m (List.mem_append_left [l] hMem))
      (holds_init openable) hRun
  rcases recvPacket_of_holds hHolds hRunning l
    (hFiles l (by simp)) with ⟨t, hRecv, _⟩
  exact ⟨t, hRecv⟩

/-
  In every run in which no step comes while an earlier file is
  still loaded, every step replays the event of the file that
  was loaded last, and only if it was not stopped.
-/
theorem remotePlay_of_noStale
    {openable : Int32 → Bool}
    {ls : List PlayMessage}
    (hFiles :
      ∀ l ∈ ls, controlMessage l.word = .eventPlayStart →
        WellFormedFile openable l.groups)
    (hFresh :
      loadHistory.Meets Loads.Fresh loadHistory.init ls)
    {before after : List PlayMessage}
    {l : PlayMessage}
    (hSplit : ls = before ++ l :: after)
    {s : RemotePlay}
    (hRun :
      (remotePlay openable).exec .init before = some s)
    (hRunning : s.running = true) :
    ∃ t,
      s.recvPacket openable l.word (some (encodeFile l.groups))
          l.locals =
        some (t, replay (loadedFile before) l.word) := by
  have hBefore :
      ∀ m ∈ before ++ [l],
        controlMessage m.word = .eventPlayStart →
          WellFormedFile openable m.groups := by
    intro m hMem
    apply hFiles m
    rw [hSplit, List.append_cons]
    exact List.mem_append_left after hMem
  rcases recvPacket_of_history hBefore hRun hRunning with
    ⟨t, hRecv⟩
  refine ⟨t, ?_⟩
  rw [hRecv]
  by_cases hStep : controlMessage l.word = .eventPlayStep
  · have hStale : staleEvents before = [] := by
      rw [System.meets_iff_forall_split] at hFresh
      exact hFresh before l after (loads before) hSplit
        (exec_loadHistory _ before) hStep
    rw [hStale, List.nil_append]
  · simp [replay, hStep]

/-
  While an earlier file is still loaded, some step replays
  another event: the one behind the last of the newer file,
  which should not replay any.
-/
theorem exists_wrong_step_of_stale
    {openable : Int32 → Bool}
    {before : List PlayMessage}
    (hFiles :
      ∀ l ∈ before, controlMessage l.word = .eventPlayStart →
        WellFormedFile openable l.groups)
    {s : RemotePlay}
    (hRun :
      (remotePlay openable).exec .init before = some s)
    (hRunning : s.running = true)
    (hStale : staleEvents before ≠ [])
    (hFew : (loadedFile before).length < 2 ^ 16) :
    ∃ word, controlMessage word = .eventPlayStep ∧
      ∀ l : PlayMessage, l.word = word →
        ¬ ∃ t,
          s.recvPacket openable l.word
              (some (encodeFile l.groups)) l.locals =
            some (t, replay (loadedFile before) l.word) := by
  rcases exists_stepWord hFew with ⟨word, hWord, hIndex⟩
  refine ⟨word, hWord, ?_⟩
  rintro l rfl ⟨t, hRight⟩
  have hBefore :
      ∀ m ∈ before ++ [l],
        controlMessage m.word = .eventPlayStart →
          WellFormedFile openable m.groups := by
    intro m hMem hStart
    rcases List.mem_append.mp hMem with hOld | hNew
    · exact hFiles m hOld hStart
    · rw [List.mem_singleton.mp hNew, hWord] at hStart
      cases hStart
  rcases recvPacket_of_history hBefore hRun hRunning with
    ⟨u, hRecv⟩
  rw [hRecv, Option.some.injEq, Prod.mk.injEq, replay, replay,
    if_pos hWord, if_pos hWord, hIndex, replayOf, replayOf]
    at hRight
  have hPos : 0 < (staleEvents before).length :=
    List.length_pos_iff.mpr hStale
  have hThere :
      (loadedFile before).length <
        (staleEvents before ++ loadedFile before).length := by
    rw [List.length_append]
    omega
  simp [List.getElem?_eq_getElem hThere] at hRight

/- One press of a key on device 0. -/
def keyFile (code : UInt16) : List (List FileRecord) :=
  [[⟨⟨1, 0⟩, 0, evKey, code, 1⟩]]

def startMessage (groups : List (List FileRecord)) :
    PlayMessage :=
  ⟨controlMessageEventPlayStart, groups,
    fun _ => EventPlayer.zeroVars⟩

def stopMessage : PlayMessage :=
  ⟨controlMessageEventPlayStop, [],
    fun _ => EventPlayer.zeroVars⟩

/- A step to the first event. -/
def stepMessage : PlayMessage :=
  ⟨stepWord 0 0, [], fun _ => EventPlayer.zeroVars⟩

theorem step_startMessage
    {s : RemotePlay}
    (hRunning : s.running = true)
    {groups : List (List FileRecord)}
    (hFile : WellFormedFile (fun _ => true) groups) :
    (remotePlay fun _ => true).step s (startMessage groups) =
      some { s.setRunningMode runningEventPlay with
        list := s.list.insertGroups groups } := by
  have hWord :
      controlMessage (startMessage groups).word =
        .eventPlayStart := by
    simp only [startMessage]
    decide
  have hRecv :=
    recvPacket_of_start _ hRunning hWord hFile
      (startMessage groups).locals
  exact congrArg (Option.map Prod.fst) hRecv

theorem step_stopMessage
    {s : RemotePlay}
    (hRunning : s.running = true) :
    (remotePlay fun _ => true).step s stopMessage =
      some { s.unsetRunningMode runningEventPlay with
        list := .empty } := by
  have hWord :
      controlMessage stopMessage.word = .eventPlayStop := by
    decide
  have hRecv :=
    recvPacket_of_stop (fun _ => true) hRunning hWord
      (some (encodeFile stopMessage.groups)) stopMessage.locals
  exact congrArg (Option.map Prod.fst) hRecv

/- A file is played, stopped, and another one is played. -/
def stoppedBetween : List PlayMessage :=
  [startMessage (keyFile 114), stopMessage,
    startMessage (keyFile 115)]

/- The second file is played without a stop of the first. -/
def startedTwice : List PlayMessage :=
  [startMessage (keyFile 114), startMessage (keyFile 115)]

theorem exec_stoppedBetween :
    (remotePlay fun _ => true).exec .init stoppedBetween =
      some ⟨true, runningEventPlay,
        EventList.empty.insertGroups (keyFile 115), 0⟩ := by
  rw [stoppedBetween, System.exec_cons,
    step_startMessage rfl (by decide), Option.bind_some,
    System.exec_cons, step_stopMessage rfl, Option.bind_some,
    System.exec_cons, step_startMessage rfl (by decide)]
  rfl

theorem exec_startedTwice :
    (remotePlay fun _ => true).exec .init startedTwice =
      some ⟨true, runningEventPlay,
        (EventList.empty.insertGroups
          (keyFile 114)).insertGroups (keyFile 115), 0⟩ := by
  rw [startedTwice, System.exec_cons,
    step_startMessage rfl (by decide), Option.bind_some,
    System.exec_cons, step_startMessage rfl (by decide)]
  rfl

theorem remotePlay_of_noStale_stoppedBetween :
    ∃ s,
      (remotePlay fun _ => true).exec .init stoppedBetween =
          some s ∧
        ∃ t,
          s.recvPacket (fun _ => true) stepMessage.word
              (some (encodeFile stepMessage.groups))
              stepMessage.locals =
            some (t,
              replay (loadedFile stoppedBetween)
                stepMessage.word) := by
  have hFiles :
      ∀ l ∈ stoppedBetween ++ [stepMessage],
        controlMessage l.word = .eventPlayStart →
          WellFormedFile (fun _ => true) l.groups := by
    decide
  have hFresh :
      loadHistory.Meets Loads.Fresh loadHistory.init
        (stoppedBetween ++ [stepMessage]) := by
    decide
  exact ⟨_, exec_stoppedBetween,
    remotePlay_of_noStale hFiles hFresh rfl exec_stoppedBetween
      rfl⟩

/-
  Without the stop, the step to the first event replays the
  event of the first file.
-/
theorem not_remotePlay_startedTwice :
    ¬ ∀ s,
      (remotePlay fun _ => true).exec .init startedTwice =
          some s →
        ∃ t,
          s.recvPacket (fun _ => true) stepMessage.word
              (some (encodeFile stepMessage.groups))
              stepMessage.locals =
            some (t,
              replay (loadedFile startedTwice)
                stepMessage.word) := by
  intro hAll
  have hFiles :
      ∀ l ∈ startedTwice ++ [stepMessage],
        controlMessage l.word = .eventPlayStart →
          WellFormedFile (fun _ => true) l.groups := by
    decide
  rcases hAll _ exec_startedTwice with ⟨t, hRight⟩
  rcases recvPacket_of_history hFiles exec_startedTwice rfl with
    ⟨u, hRecv⟩
  rw [hRecv, Option.some.injEq, Prod.mk.injEq] at hRight
  exact absurd hRight.2 (by decide)

end FzEvent

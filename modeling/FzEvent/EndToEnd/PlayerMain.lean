import FzEvent.EndToEnd.DeviceNumber
import FzEvent.EndToEnd.FileGrammar
import FzEvent.Player.ReplayTiming

/-
  The player's main program: it loads the file that it is
  given, and plays its events one after the other.

  A file with a fault anywhere is not played at all, although
  the events in front of the fault have been loaded: the
  reader returns -1, and the loop is never entered.

  Main declarations:
    * `FzEvent.PlayerAct` and `FzEvent.playerMain`
    * `FzEvent.playerMain_allOrNothing`
    * `FzEvent.writtenInto`
    * `FzEvent.playerMain_replaysRecording`
-/

------------------------------------------------------------
-- The Program
------------------------------------------------------------

namespace FzEvent

/-
  What the player does to the outside: it opens and closes
  device files, plays into the open one, and sleeps.
-/
inductive PlayerAct
| opened (file : List Char)
| failed (file : List Char)
| played (act : PlayAct)
| closed
| slept (seconds : Int32)
deriving DecidableEq, Repr

/-
  `play_event` with its device file; `openable seq` tells
  which files can be opened at that time.
-/
def playActs
    (openable : Int → List Char → Bool)
    (list : EventList)
    (seq : Int) : Option (List PlayerAct) :=
  match list.getEventData seq with
  | none => some []
  | some p =>
      if openable seq (fileBuffer p.id) then do
        let acts ← replayEvent list seq
        return .opened (fileBuffer p.id) ::
          (acts.2.map .played ++ [.closed])
      else
        some [.failed (fileBuffer p.id)]

/- `n` rounds of the loop, from event `i` on. -/
def playFrom
    (openable : Int → List Char → Bool)
    (list : EventList)
    (sleep : Int32) : Nat → Int → Option (List PlayerAct)
| 0, _ => some []
| n + 1, i => do
    let acts ← playActs openable list i
    let rest ← playFrom openable list sleep n (i + 1)
    return acts ++ .slept sleep :: rest

/- The seconds that the program is told to sleep. -/
def sleepOf (args : List (List Char)) : Int32 :=
  match args with
  | [] => 1
  | arg :: _ => atoi arg

/-
  `main`: its result, and what it does. `files` are the files
  that can be opened for reading.
-/
def playerMain
    (files : List Char → Option (List UInt8))
    (openable : Int → List Char → Bool)
    (argv : List (List Char)) :
    Option (Int32 × List PlayerAct) :=
  match argv with
  | _ :: file :: args => do
      let events := readEvent .empty (files file)
      let acts ←
        playFrom openable events.1 (sleepOf args)
          events.2.toNat 0
      return (0, acts)
  | _ => some (-1, [])

end FzEvent

------------------------------------------------------------
-- All or Nothing
------------------------------------------------------------

namespace FzEvent

/- What is done for some events of a device. -/
def deviceActs
    (openable : Int → List Char → Bool)
    (sleep : Int32)
    (k : Nat)
    (id : Int32)
    (e : List InputEvent) : List PlayerAct :=
  if openable k (fileBuffer id) then
    .opened (fileBuffer id) ::
      ((replayActs e).map .played ++ [.closed, .slept sleep])
  else
    [.failed (fileBuffer id), .slept sleep]

/- What is done for group `k` of a file. -/
def groupActs
    (openable : Int → List Char → Bool)
    (sleep : Int32)
    (k : Nat)
    (group : List FileRecord) : List PlayerAct :=
  deviceActs openable sleep k (lastId (-1) group)
    (group.map FileRecord.stored)

/- One event that is in the list. -/
theorem playActs_of_getEventData
    (openable : Int → List Char → Bool)
    {list : EventList}
    {k : Nat}
    {p : EventNode}
    (hData : list.getEventData k = some p)
    (hCount : p.eventCount = p.e.length)
    (sleep : Int32) :
    ∃ acts,
      playActs openable list k = some acts ∧
        acts ++ [.slept sleep] =
          deviceActs openable sleep k p.id p.e := by
  rw [playActs, hData,
    replayEvent_of_getEventData hData hCount]
  dsimp only
  by_cases hOpen : openable k (fileBuffer p.id) = true
  · rw [if_pos hOpen]
    refine ⟨_, rfl, ?_⟩
    simp [deviceActs, hOpen]
  · rw [if_neg hOpen]
    refine ⟨_, rfl, ?_⟩
    simp [deviceActs, hOpen]

/- The rounds for the groups at the end of the list. -/
theorem playFrom_groups
    (openable : Int → List Char → Bool)
    (sleep : Int32)
    {list : EventList}
    {groups : List (List FileRecord)}
    {k : Nat}
    (hNodes :
      ∀ (j : Nat) (group : List FileRecord),
        groups[j]? = some group →
          list.getEventData ((k + j : Nat) : Int) =
            some ⟨(k + j : Nat), lastId (-1) group,
              group.length, group.map FileRecord.stored⟩) :
    playFrom openable list sleep groups.length k =
      some (groups.mapIdx fun j group =>
        groupActs openable sleep (k + j) group).flatten := by
  induction groups generalizing k with
  | nil => rfl
  | cons group groups ih =>
      have hFirst := hNodes 0 group rfl
      rw [Nat.add_zero] at hFirst
      rcases playActs_of_getEventData openable hFirst
          (by simp) sleep with ⟨acts, hActs, hDevice⟩
      have hShift :
          ∀ j : Nat, k + 1 + j = k + (j + 1) := by
        intro j
        omega
      have hRest := ih (k := k + 1) (fun j other hOther => by
        rw [hShift]
        exact hNodes (j + 1) other hOther)
      rw [List.length_cons, playFrom, hActs]
      rw [Nat.cast_succ] at hRest
      simp only [Option.bind_eq_bind, Option.bind_some, hRest]
      rw [List.mapIdx_cons, List.flatten_cons]
      simp only [Nat.add_zero, hShift]
      rw [groupActs, ← hDevice, List.append_assoc]
      rfl

/- The groups of a file are played from the first one on. -/
theorem playFrom_insertGroups
    (openable : Int → List Char → Bool)
    (sleep : Int32)
    (groups : List (List FileRecord)) :
    playFrom openable (EventList.empty.insertGroups groups)
        sleep groups.length 0 =
      some (groups.mapIdx
        (groupActs openable sleep)).flatten := by
  have hNodes :
      ∀ (j : Nat) (group : List FileRecord),
        groups[j]? = some group →
          (EventList.empty.insertGroups groups).getEventData
              ((0 + j : Nat) : Int) =
            some ⟨(0 + j : Nat), lastId (-1) group,
              group.length, group.map FileRecord.stored⟩ := by
    intro j group hGroup
    rw [Nat.zero_add, EventList.getEventData_eq_getElem?,
      nodes_insertGroups_empty, hGroup]
    rfl
  have hPlay := playFrom_groups openable sleep hNodes
  simpa only [Nat.zero_add, Nat.cast_zero] using hPlay

/- `main` with a file. -/
theorem playerMain_file
    (files : List Char → Option (List UInt8))
    (openable : Int → List Char → Bool)
    (program file : List Char)
    (args : List (List Char)) :
    playerMain files openable (program :: file :: args) =
      (playFrom openable (readEvent .empty (files file)).1
          (sleepOf args)
          (readEvent .empty (files file)).2.toNat 0).bind
        fun acts => some (0, acts) :=
  rfl

/- A file that is not read to its end marker is not played. -/
theorem readEvent_toNat_eq_zero
    {file : Option (List UInt8)}
    (hNone :
      ¬∃ content items,
        file = some content ∧ IsEventFile items content) :
    (readEvent .empty file).2.toNat = 0 := by
  cases file with
  | none => rfl
  | some content =>
      rw [readEvent_snd, if_neg]
      · rfl
      · intro hDone
        rcases exists_items_of_readEventLoop hDone with
          ⟨items, hFile⟩
        exact hNone ⟨content, items, rfl, hFile⟩

/-
  An event file is played group by group, each once and in its
  order; from any other file nothing is played.
-/
theorem playerMain_allOrNothing
    (files : List Char → Option (List UInt8))
    (openable : Int → List Char → Bool)
    (program file : List Char)
    (args : List (List Char)) :
    (∀ content items,
      files file = some content →
        IsEventFile items content →
          playerMain files openable (program :: file :: args) =
            some (0,
              ((completeGroups items).mapIdx
                (groupActs openable
                  (sleepOf args))).flatten)) ∧
      ((¬∃ content items,
          files file = some content ∧
            IsEventFile items content) →
        playerMain files openable (program :: file :: args) =
          some (0, [])) := by
  constructor
  · intro content items hContent hFile
    have hRead := readEvent_of_isEventFile hFile .empty
    have hPlay := playFrom_insertGroups openable (sleepOf args)
      (completeGroups items)
    rw [completeGroups, length_groupsFrom, ← completeGroups]
      at hPlay
    rw [playerMain_file, hContent, hRead,
      EventList.nodes_empty, List.length_nil, Nat.cast_zero,
      Int.zero_add, Int.toNat_natCast, hPlay]
    rfl
  · intro hNone
    rw [playerMain_file, readEvent_toNat_eq_zero hNone]
    rfl

/- A key, and a separator behind it. -/
def keyItems : List GrammarItem :=
  [.record ⟨⟨1, 0⟩, 12, evKey, 116, 1⟩, .separator]

theorem playerMain_allOrNothing_keyItems :
    playerMain
        (fun _ =>
          some (keyItems.flatMap GrammarItem.encode ++
            (endOfFile ++ [])))
        (fun _ _ => true)
        ["ep".toList, "key.evt".toList] =
      some (0, deviceActs (fun _ _ => true) 1 0 12
        [⟨⟨1, 0⟩, evKey, 116, 1⟩]) := by
  have hFile :
      IsEventFile keyItems
        (keyItems.flatMap GrammarItem.encode ++
          (endOfFile ++ [])) := by
    refine ⟨?_, [], rfl⟩
    simp only [keyItems, List.forall_mem_cons]
    exact ⟨show ¬IsMarker _ by decide, trivial, by simp⟩
  exact (playerMain_allOrNothing (fun _ => some _)
    (fun _ _ => true) "ep".toList "key.evt".toList []).1
    _ keyItems rfl hFile

end FzEvent

------------------------------------------------------------
-- What a Device Gets
------------------------------------------------------------

namespace FzEvent

open PlayAct

/- The events written into a file, from a state on. -/
def writtenFrom
    (file : List Char) :
    Option (List Char) → List PlayerAct → List InputEvent
| _, [] => []
| _, .opened name :: acts => writtenFrom file (some name) acts
| _, .closed :: acts => writtenFrom file none acts
| current, .played (.write event) :: acts =>
    if current = some file then
      event :: writtenFrom file current acts
    else
      writtenFrom file current acts
| current, .played (.delay _) :: acts =>
    writtenFrom file current acts
| current, .failed _ :: acts => writtenFrom file current acts
| current, .slept _ :: acts => writtenFrom file current acts

/- The events that the program writes into a file. -/
def writtenInto
    (file : List Char)
    (acts : List PlayerAct) : List InputEvent :=
  writtenFrom file none acts

/- What is played goes into the open file. -/
theorem writtenFrom_played
    (file name : List Char)
    (acts : List PlayAct)
    (rest : List PlayerAct) :
    writtenFrom file (some name)
        (acts.map .played ++ rest) =
      (if name = file then acts.filterMap written else []) ++
        writtenFrom file (some name) rest := by
  induction acts with
  | nil => simp
  | cons act acts ih =>
      cases act with
      | delay tv =>
          rw [List.map_cons, List.cons_append, writtenFrom, ih]
          rfl
      | write event =>
          rw [List.map_cons, List.cons_append, writtenFrom, ih]
          by_cases hName : name = file
          · simp [hName, written]
          · simp [hName]

theorem written_replayActs
    (e : List InputEvent) :
    (replayActs e).filterMap written =
      e ++ [closingReport e] := by
  rw [replayActs, List.filterMap_append, written_roundsFrom]
  rfl

/- The events of a device go into its file. -/
theorem writtenFrom_deviceActs
    (openable : Int → List Char → Bool)
    (sleep : Int32)
    (k : Nat)
    (id : Int32)
    (e : List InputEvent)
    (file : List Char)
    (rest : List PlayerAct) :
    writtenFrom file none
        (deviceActs openable sleep k id e ++ rest) =
      (if fileBuffer id = file ∧ openable k file = true then
        e ++ [closingReport e]
      else
        []) ++ writtenFrom file none rest := by
  rw [deviceActs]
  by_cases hOpen : openable k (fileBuffer id) = true
  · rw [if_pos hOpen, List.cons_append, writtenFrom,
      List.append_assoc, writtenFrom_played,
      written_replayActs]
    by_cases hName : fileBuffer id = file
    · subst hName
      rw [if_pos rfl, if_pos ⟨rfl, hOpen⟩]
      rfl
    · rw [if_neg hName, if_neg (fun h => hName h.1)]
      rfl
  · rw [if_neg hOpen, if_neg]
    · rfl
    · rintro ⟨rfl, hFile⟩
      exact hOpen hFile

end FzEvent

------------------------------------------------------------
-- A Recording
------------------------------------------------------------

namespace FzEvent

open Transition

/- The seconds that the program sleeps. -/
def PlayerAct.slept? : PlayerAct → Option Int32
| .slept seconds => some seconds
| _ => none

/- What is done for packets, from the `k`th one on. -/
def packetActs
    (openable : Int → List Char → Bool)
    (sleep : Int32)
    (k : Nat)
    (pushed : List EventInfo) : List PlayerAct :=
  (pushed.mapIdx fun i ei =>
    deviceActs openable sleep (k + i) ei.devId
      (ei.entries.map (playedEntry ei.eventType))).flatten

theorem packetActs_cons
    (openable : Int → List Char → Bool)
    (sleep : Int32)
    (k : Nat)
    (ei : EventInfo)
    (pushed : List EventInfo) :
    packetActs openable sleep k (ei :: pushed) =
      deviceActs openable sleep k ei.devId
          (ei.entries.map (playedEntry ei.eventType)) ++
        packetActs openable sleep (k + 1) pushed := by
  simp only [packetActs, List.mapIdx_cons, List.flatten_cons,
    Nat.add_zero, ← Nat.add_assoc, Nat.add_right_comm k 1]

/- Each packet goes into its own device file, in order. -/
theorem writtenInto_packetActs
    (openable : Int → List Char → Bool)
    (sleep : Int32)
    (k : Nat)
    (pushed : List EventInfo)
    (path : List Char) :
    writtenInto path (packetActs openable sleep k pushed) =
      (pushed.mapIdx fun i ei =>
        if fileBuffer ei.devId = path ∧
            openable (k + i : Nat) path = true then
          ei.injected
        else
          []).flatten := by
  induction pushed generalizing k with
  | nil => rfl
  | cons ei pushed ih =>
      have hRest := ih (k + 1)
      rw [writtenInto] at hRest
      rw [packetActs_cons, writtenInto, writtenFrom_deviceActs,
        hRest, List.mapIdx_cons, List.flatten_cons]
      simp only [Nat.add_zero, ← Nat.add_assoc,
        Nat.add_right_comm k 1]
      rfl

/- There is one sleep after each packet. -/
theorem slept_packetActs
    (openable : Int → List Char → Bool)
    (sleep : Int32)
    (k : Nat)
    (pushed : List EventInfo) :
    (packetActs openable sleep k pushed).filterMap
        PlayerAct.slept? =
      List.replicate pushed.length sleep := by
  have hPlayed :
      ∀ acts : List PlayAct,
        (acts.map PlayerAct.played).filterMap
          PlayerAct.slept? = [] := by
    intro acts
    rw [List.filterMap_map, List.filterMap_eq_nil_iff]
    intro act _
    rfl
  induction pushed generalizing k with
  | nil => rfl
  | cons ei pushed ih =>
      rw [packetActs_cons, List.filterMap_append, ih,
        List.length_cons, List.replicate_succ, deviceActs]
      split
      · rw [List.filterMap_cons_none rfl, List.filterMap_append,
          hPlayed]
        rfl
      · rfl

/- The group of a packet. -/
theorem groupActs_records
    (openable : Int → List Char → Bool)
    (sleep : Int32)
    (k : Nat)
    {ei : EventInfo}
    (hNonempty : ei.entries ≠ []) :
    groupActs openable sleep k ei.received.records =
      deviceActs openable sleep k ei.devId
        (ei.entries.map (playedEntry ei.eventType)) := by
  have hId : lastId (-1) ei.received.records = ei.devId :=
    lastId_records (e := ei.received) hNonempty (-1)
  have hStored :
      ei.received.records.map FileRecord.stored =
        ei.entries.map (playedEntry ei.eventType) :=
    stored_records ei.received
  rw [groupActs, hId, hStored]

/- The groups of a recording are played packet by packet. -/
theorem groupActs_groupsOf
    (openable : Int → List Char → Bool)
    (sleep : Int32)
    {pushed : List EventInfo}
    (hNonempty : ∀ ei ∈ pushed, ei.entries ≠ []) :
    ((groupsOf pushed).mapIdx
        (groupActs openable sleep)).flatten =
      packetActs openable sleep 0 pushed := by
  have hGroups :
      (groupsOf pushed).mapIdx (groupActs openable sleep) =
        pushed.mapIdx fun i ei =>
          deviceActs openable sleep (0 + i) ei.devId
            (ei.entries.map (playedEntry ei.eventType)) := by
    apply List.ext_getElem?
    intro i
    rw [groupsOf, List.getElem?_mapIdx, List.getElem?_mapIdx,
      List.getElem?_map, List.getElem?_map]
    cases hPacket : pushed[i]? with
    | none => rfl
    | some ei =>
        have hActs := groupActs_records openable sleep i
          (hNonempty ei (List.mem_of_getElem? hPacket))
        simp only [Option.map_some, Nat.zero_add, hActs]
  rw [packetActs, hGroups]

/- What `main` does with the file of a recording. -/
theorem playerMain_encodeFile
    {pushed : List EventInfo}
    (hTimes : ∀ ei ∈ pushed, HasTimes ei.received)
    (hNonempty : ∀ ei ∈ pushed, ei.entries ≠ [])
    {files : List Char → Option (List UInt8)}
    {file : List Char}
    (hFile :
      files file = some (encodeFile (groupsOf pushed)))
    (openable : Int → List Char → Bool)
    (program : List Char)
    (args : List (List Char)) :
    playerMain files openable (program :: file :: args) =
      some (0,
        packetActs openable (sleepOf args) 0 pushed) := by
  have hPlay := playFrom_insertGroups openable (sleepOf args)
    (groupsOf pushed)
  rw [groupActs_groupsOf openable (sleepOf args) hNonempty]
    at hPlay
  rw [playerMain_file, hFile,
    readEvent_encodeFile (groupTimes_groupsOf hTimes)]
  dsimp only
  rw [EventList.getCount, length_nodes_insertGroups,
    EventList.nodes_empty, List.length_nil, Nat.zero_add,
    Int.toNat_natCast, hPlay]
  rfl

end FzEvent

------------------------------------------------------------
-- The Recording Played
------------------------------------------------------------

namespace FzEvent

open Transition

/-
  On event devices a packet is numbered for the device whose
  read completed it.
-/
theorem completedOn_fileBuffer
    {steps : List LoopStep}
    {t : RecorderLoop}
    (hRun :
      recorderLoop.exec recorderLoop.init steps = some t)
    (hNames :
      ∀ name event, .read name event ∈ steps →
        ∃ n, n < 2147483648 ∧ name = eventPath n)
    {k : Nat}
    {ei : EventInfo}
    (hPacket : t.pushed[k]? = some ei) :
    CompletedOn (fileBuffer ei.devId) steps k ei := by
  rcases exists_completedOn hRun hPacket with
    ⟨name, hCompleted⟩
  have hMem : ∃ event, .read name event ∈ steps := by
    rcases hCompleted with ⟨before, event, after, _, _, rfl, _⟩
    exact ⟨event, by simp⟩
  rcases hMem with ⟨event, hRead⟩
  rcases hNames name event hRead with ⟨n, hNumber, rfl⟩
  have hDevId := hCompleted.devIdOf?_eq
  rw [devIdOf?_eventPath hNumber, Option.some_inj] at hDevId
  rwa [← hDevId, fileBuffer_ofInt hNumber]

/-
  A recording is played by `main`: each packet is written, once
  and in the order of the recording, into the device whose read
  completed it, if that can be opened at its turn, and into no
  other file; after each packet the program sleeps once.
-/
theorem playerMain_replaysRecording
    {steps : List LoopStep}
    {t : RecorderLoop}
    (hRun :
      recorderLoop.exec recorderLoop.init steps = some t)
    (hNames :
      ∀ name event, .read name event ∈ steps →
        ∃ n, n < 2147483648 ∧ name = eventPath n)
    {lib : CLib}
    {packets : List SentPacket}
    (hCarries : Carries lib packets t.pushed)
    (buf : Buffer lib.bufsiz)
    {rcv : CEvtRcv}
    (hOpen : rcv.sFpEvt = some []) :
    ∃ s rcv' content,
      svc ⟨buf, packets.flatMap SentPacket.bytes, rcv, []⟩ =
          (s, .headerClosed) ∧
        s.rcv.closeEventFile = some rcv' ∧
        rcv'.closed = content :: rcv.closed ∧
        (∀ k ei, t.pushed[k]? = some ei →
          CompletedOn (fileBuffer ei.devId) steps k ei) ∧
        ∀ files openable program file args,
          files file = some content →
            ∃ acts,
              playerMain files openable
                  (program :: file :: args) = some (0, acts) ∧
                (∀ path, writtenInto path acts =
                  (t.pushed.mapIdx fun (k : Nat) ei =>
                    if fileBuffer ei.devId = path ∧
                        openable k path = true then
                      ei.injected
                    else
                      []).flatten) ∧
                acts.filterMap PlayerAct.slept? =
                  List.replicate t.pushed.length
                    (sleepOf args) := by
  have hNonempty : ∀ ei ∈ t.pushed, ei.entries ≠ [] :=
    fun ei hMem => entries_ne_nil_of_mem_pushed hRun hMem
  rcases svc_gestures hCarries.fits buf hOpen with
    ⟨s, rcv', hSvc, _, hClose, hClosed⟩
  rw [hCarries.gestures_eq] at hClosed
  refine ⟨s, rcv', encodeFile (groupsOf t.pushed), hSvc,
    hClose, hClosed, ?_, ?_⟩
  · intro k ei hPacket
    exact completedOn_fileBuffer hRun hNames hPacket
  · intro files openable program file args hContent
    have hPlay := playerMain_encodeFile hCarries.times
      hNonempty hContent openable program args
    refine ⟨_, hPlay, ?_, slept_packetActs ..⟩
    intro path
    have hWritten := writtenInto_packetActs openable
      (sleepOf args) 0 t.pushed path
    simpa only [Nat.zero_add] using hWritten

/- The key goes to the twelfth device, and to no other. -/
theorem playerMain_replaysRecording_keyOnTwelve :
    ∃ content acts,
      playerMain (fun _ => some content) (fun _ _ => true)
          ["ep".toList, "key.evt".toList, "3".toList] =
        some (0, acts) ∧
        writtenInto (eventPath 12) acts =
          keyOnTwelvePacket.injected ∧
        writtenInto (eventPath 2) acts = [] ∧
        acts.filterMap PlayerAct.slept? = [3] := by
  have hRecorded :
      (recorderLoop.exec recorderLoop.init keyOnTwelve).map
        RecorderLoop.pushed = some [keyOnTwelvePacket] := by
    decide
  rcases Option.map_eq_some_iff.mp hRecorded with
    ⟨t, hRun, hPushed⟩
  have hNames :
      ∀ name event, .read name event ∈ keyOnTwelve →
        ∃ n, n < 2147483648 ∧ name = eventPath n := by
    intro name event hMem
    simp only [keyOnTwelve, List.mem_cons, reduceCtorEq,
      LoopStep.read.injEq, List.not_mem_nil, or_false] at hMem
    exact ⟨12, by decide, hMem.1⟩
  have hCarries :
      Carries CLib.android [.event ⟨2, 0⟩ keyOnTwelvePacket]
        t.pushed := by
    rw [hPushed]
    refine ⟨rfl, ?_, by decide⟩
    simp [SentPacket.Fits, CLib.android, EventInfo.count,
      keyOnTwelvePacket]
  have hOpen :
      CEvtRcv.init.makeEventFile.sFpEvt = some [] := rfl
  rcases playerMain_replaysRecording hRun hNames hCarries
      (Buffer.zero _) hOpen with
    ⟨_, _, content, _, _, _, _, hPlays⟩
  rcases hPlays (fun _ => some content) (fun _ _ => true)
      "ep".toList "key.evt".toList ["3".toList] rfl with
    ⟨acts, hPlay, hWritten, hSlept⟩
  rw [hPushed] at hWritten hSlept
  refine ⟨content, acts, hPlay, ?_, ?_, hSlept⟩
  · rw [hWritten]
    decide
  · rw [hWritten]
    decide

end FzEvent

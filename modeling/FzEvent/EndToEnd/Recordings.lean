import FzEvent.EndToEnd.LiveRecording
import FzEvent.EndToEnd.PlayerMain
import FzEvent.Lib.Volumes

/-
  Any number of recordings over one connection: the operator
  opens and closes event files while the threads push, send
  and receive, without waiting for any of them.

  A packet may miss its own recording and come into the file
  of the next one. What the files hold one after the other is
  nevertheless what was pushed, each packet once. That is so
  as long as no packet comes while there is no file: the
  receiver's assertion fails then, and the run is over.

  Main declarations:
    * `FzEvent.RecordingsStep` and `FzEvent.recordings`
    * `Pipeline.Binds` and `FzEvent.binds_step`
    * `FzEvent.recordings_partition`
-/

------------------------------------------------------------
-- The Operator and the Threads
------------------------------------------------------------

namespace FzEvent

open Transition

/-
  A step of the threads, or the operator's `r` or `t` behind
  its message to the device.
-/
inductive RecordingsStep
| transport (l : PipelineStep)
| start
| stop
deriving DecidableEq

namespace Pipeline

variable {lib : CLib}

/- The receiver's static members, which two threads use. -/
def setRcv
    (s : Pipeline lib)
    (rcv : CEvtRcv) : Pipeline lib :=
  { s with svc := { s.svc with rcv := rcv } }

/-
  One step, `none` when it cannot be taken or an assertion
  fails in it: `t` needs an open file, and so does an event
  packet that is received.
-/
def recordingsStep
    (s : Pipeline lib) : RecordingsStep → Option (Pipeline lib)
| .transport l => s.step l
| .start =>
    some (s.setRcv
      { s.svc.rcv.makeEventFile with sEventSequence := 0 })
| .stop => s.svc.rcv.closeEventFile.map s.setRcv

/- The condition on the steps of the threads. -/
def RecordingsFit
    (s : Pipeline lib) : RecordingsStep → Prop
| .transport l => s.FitsInTwoWrites l
| _ => True

instance (s : Pipeline lib) (l : RecordingsStep) :
    Decidable (s.RecordingsFit l) :=
  match l with
  | .transport l =>
      inferInstanceAs (Decidable (s.FitsInTwoWrites l))
  | .start | .stop => .isTrue trivial

end Pipeline

/- The threads and the operator. -/
def recordings
    {lib : CLib}
    (svc : SvcState lib) :
    System (Pipeline lib) RecordingsStep where
  init := ⟨[], .waiting, svc⟩
  step := Pipeline.recordingsStep

/- The steps of the threads among some steps. -/
def RecordingsStep.transports
    (steps : List RecordingsStep) : List PipelineStep :=
  steps.filterMap fun
    | .transport l => some l
    | _ => none

/- The gestures that some steps push. -/
def RecordingsStep.gestures
    (steps : List RecordingsStep) : List EventInfo :=
  PipelineStep.gestures (RecordingsStep.transports steps)

end FzEvent

------------------------------------------------------------
-- Files as Volumes
------------------------------------------------------------

namespace FzEvent

open Channel Transition Volumes

/- What an open file has of the gestures. -/
def fileBody (gestures : List EventInfo) : List UInt8 :=
  (gestures.map EventInfo.received).flatMap encodeGroup

/- What a closed file has of them. -/
def fileOf (gestures : List EventInfo) : List UInt8 :=
  encodeFile (groupsOf gestures)

theorem fileBody_append_endOfFile
    (gestures : List EventInfo) :
    fileBody gestures ++ endOfFile = fileOf gestures := by
  rw [fileBody, fileOf, groupsOf, encodeFile_records]

theorem fileBody_append
    (gestures : List EventInfo)
    (ei : EventInfo) :
    fileBody gestures ++ encodeGroup ei.received =
      fileBody (gestures ++ [ei]) := by
  simp [fileBody]

namespace Pipeline

variable {lib : CLib}

/-
  The packets that came out of the channel are bound into the
  volumes of `v`, of which the receiver has the files.
-/
structure Binds
    (s : Pipeline lib)
    (c : State SentPacket)
    (v : Log EventInfo) : Prop extends
    InTransit s c.inFlight where
  entries_eq :
    v.entries = c.delivered.filterMap SentPacket.gesture?
  files :
    Kept fileBody fileOf s.svc.rcv.sFpEvt s.svc.rcv.closed v

variable {s t : Pipeline lib}
variable {c : State SentPacket}
variable {v : Log EventInfo}

/- The operator leaves what is in transit. -/
theorem InTransit.setRcv
    {inFlight : List SentPacket}
    (hTransit : InTransit s inFlight)
    (rcv : CEvtRcv) :
    InTransit (s.setRcv rcv) inFlight :=
  ⟨hTransit.fits, hTransit.lengths, hTransit.framed⟩

theorem Binds.start
    (hBinds : Binds s c v) :
    Binds
      (s.setRcv
        { s.svc.rcv.makeEventFile with sEventSequence := 0 })
      c v.start where
  toInTransit := hBinds.toInTransit.setRcv _
  entries_eq := hBinds.entries_eq
  files := by
    have hStart := hBinds.files.start
    simp only [Pipeline.setRcv, CEvtRcv.makeEventFile]
    cases hFile : s.svc.rcv.sFpEvt with
    | none =>
        rw [hFile] at hStart
        exact hStart
    | some file =>
        rw [hFile, Option.getD_some] at hStart
        simpa only [hFile] using hStart

theorem Binds.stop
    (hBinds : Binds s c v)
    (hStep : s.recordingsStep .stop = some t) :
    ∃ w, Binds t c w := by
  rcases Option.map_eq_some_iff.mp hStep with
    ⟨rcv, hClose, rfl⟩
  cases hFile : s.svc.rcv.sFpEvt with
  | none => simp [CEvtRcv.closeEventFile, hFile] at hClose
  | some file =>
      rw [CEvtRcv.closeEventFile_of_open hFile,
        Option.some_inj] at hClose
      subst hClose
      rcases hBinds.files.stop hFile (· ++ endOfFile)
        fileBody_append_endOfFile with ⟨w, hStop, hFiles⟩
      refine ⟨w, hBinds.toInTransit.setRcv _, ?_, hFiles⟩
      rw [Log.entries_stop hStop]
      exact hBinds.entries_eq

/- A packet that comes out goes into the open file. -/
theorem Binds.receive
    (hBinds : Binds s c v)
    (hStep : s.step .receive = some t) :
    ∃ c' w,
      (fifo SentPacket).step c .deliver = some c' ∧
        Binds t c' w := by
  rcases hBinds.toInTransit.receive hStep with
    ⟨p, rest, hFlight, hAccept, _, hTransit⟩
  have hDeliver :
      (fifo SentPacket).step c .deliver =
        some ⟨rest, c.delivered ++ [p]⟩ := by
    simp [fifo, hFlight]
  cases p with
  | surface tv width height body =>
      rw [SentPacket.accept, Option.some_inj] at hAccept
      refine ⟨_, v, hDeliver, hTransit, ?_, ?_⟩
      · rw [List.filterMap_append, ← hBinds.entries_eq]
        simp [SentPacket.gesture?]
      · rw [← hAccept]
        exact hBinds.files
  | event tv ei =>
      cases hFile : s.svc.rcv.sFpEvt with
      | none =>
          simp [SentPacket.accept, CEvtRcv.writeEventFile,
            hFile] at hAccept
      | some file =>
          have hReported :
              (s.svc.rcv.reportEvent tv ei.received).sFpEvt =
                some file := hFile
          rw [SentPacket.accept,
            CEvtRcv.writeEventFile_of_open hReported,
            Option.some_inj] at hAccept
          rcases hBinds.files.add hFile
              (· ++ encodeGroup ei.received)
              (fun gestures => fileBody_append gestures ei) with
            ⟨w, hAdd, hFiles⟩
          refine ⟨_, w, hDeliver, hTransit, ?_, ?_⟩
          · rw [Log.entries_add hAdd, List.filterMap_append,
              ← hBinds.entries_eq]
            rfl
          · rw [← hAccept]
            exact hFiles

/- What a step is for the channel of packets. -/
def recordingsStandsFor :
    RecordingsStep → List (Channel.Step SentPacket)
| .transport l => standsFor l
| _ => []

/- The step lemma. -/
theorem binds_step
    (hBinds : Binds s c v)
    {l : RecordingsStep}
    (hWrites : s.RecordingsFit l)
    (hStep : s.recordingsStep l = some t) :
    ∃ c',
      (fifo SentPacket).exec c (recordingsStandsFor l) =
          some c' ∧
        ∃ w, Binds t c' w := by
  cases l with
  | start =>
      cases hStep
      exact ⟨c, rfl, v.start, hBinds.start⟩
  | stop => exact ⟨c, rfl, hBinds.stop hStep⟩
  | transport l =>
      by_cases hReceive : l = .receive
      · subst hReceive
        rcases hBinds.receive hStep with
          ⟨c', w, hDeliver, hNext⟩
        refine ⟨c', ?_, w, hNext⟩
        rw [recordingsStandsFor, standsFor, System.exec_cons,
          hDeliver]
        rfl
      · have hTransit :=
          hBinds.toInTransit.step hReceive hWrites hStep
        have hSvc := svc_of_step hReceive hStep
        have hRcv : t.svc.rcv = s.svc.rcv := by rw [hSvc]
        refine ⟨⟨c.inFlight ++ PipelineStep.pushed [l],
          c.delivered⟩, exec_standsFor hReceive c, v, hTransit,
          hBinds.entries_eq, ?_⟩
        rw [hRcv]
        exact hBinds.files

end Pipeline

end FzEvent

------------------------------------------------------------
-- Each Gesture in One File
------------------------------------------------------------

namespace FzEvent

open Channel Transition Volumes Window

/- The channel is sent what the threads push. -/
theorem sent_flatMap_recordingsStandsFor
    (steps : List RecordingsStep) :
    sent (steps.flatMap Pipeline.recordingsStandsFor) =
      PipelineStep.pushed (RecordingsStep.transports steps) := by
  rw [PipelineStep.pushed, RecordingsStep.transports,
    List.filterMap_filterMap]
  apply sent_flatMap
  intro l
  cases l with
  | transport l => cases l <;> rfl
  | _ => rfl

/- The run lemma. -/
theorem Pipeline.exists_binds_of_exec
    {lib : CLib}
    {svc₀ : SvcState lib}
    (hClosed : svc₀.rcv.sFpEvt = none)
    (hNoFile : svc₀.rcv.closed = [])
    (hStream : svc₀.stream = [])
    {steps : List RecordingsStep}
    {s : Pipeline lib}
    (hWrites :
      (recordings svc₀).Meets Pipeline.RecordingsFit
        (recordings svc₀).init steps)
    (hRun :
      (recordings svc₀).exec (recordings svc₀).init steps =
        some s) :
    ∃ c v,
      PipelineStep.pushed (RecordingsStep.transports steps) =
          c.delivered ++ c.inFlight ∧
        Pipeline.Binds s c v := by
  have hInit :
      ∃ v, Pipeline.Binds (recordings svc₀).init
        (fifo SentPacket).init v := by
    refine ⟨Log.empty, Pipeline.inTransit_init hStream, rfl, ?_⟩
    simp only [recordings, hClosed, hNoFile]
    exact kept_empty
  have hStep :
      ∀ (s : Pipeline lib) (c : State SentPacket) l t,
        (∃ v, Pipeline.Binds s c v) →
          s.RecordingsFit l →
            (recordings svc₀).step s l = some t →
              ∃ c',
                (fifo SentPacket).exec c
                    (Pipeline.recordingsStandsFor l) = some c' ∧
                  ∃ w, Pipeline.Binds t c' w := by
    rintro s c l t ⟨v, hBinds⟩ hCond hNext
    exact Pipeline.binds_step hBinds hCond hNext
  rcases (recordings svc₀).refinement_of_meets
      (fifo SentPacket) Pipeline.recordingsStandsFor hStep hInit
      hWrites hRun with ⟨c, hChannel, v, hBinds⟩
  refine ⟨c, v, ?_, hBinds⟩
  rw [delivered_append_inFlight hChannel,
    sent_flatMap_recordingsStandsFor]

/- With every device openable, a path gets its packets. -/
theorem writtenInto_packetActs_open
    (sleep : Int32)
    (pushed : List EventInfo)
    (path : List Char) :
    writtenInto path
        (packetActs (fun _ _ => true) sleep 0 pushed) =
      (pushed.filter fun ei =>
        fileBuffer ei.devId = path).flatMap
          EventInfo.injected := by
  rw [writtenInto_packetActs]
  induction pushed with
  | nil => rfl
  | cons ei pushed ih =>
      simp only [and_true] at ih ⊢
      rw [List.mapIdx_cons, List.flatten_cons, ih]
      by_cases hPath : fileBuffer ei.devId = path
      · rw [if_pos hPath, List.filter_cons_of_pos (by simpa),
          List.flatMap_cons]
      · rw [if_neg hPath, List.filter_cons_of_neg (by simpa)]
        rfl

/-
  The player's main program on some files, one after the other,
  with every device openable.
-/
def playFiles
    (program file : List Char)
    (args : List (List Char))
    (contents : List (List UInt8)) :
    Option (List (List PlayerAct)) :=
  contents.mapM fun content =>
    (playerMain (fun _ => some content) (fun _ _ => true)
      (program :: file :: args)).map Prod.snd

/- The files of some volumes are played volume by volume. -/
theorem playFiles_fileOf
    (program file : List Char)
    (args : List (List Char))
    {volumes : List (List EventInfo)}
    (hTimes : ∀ ei ∈ volumes.flatten, HasTimes ei.received)
    (hNonempty : ∀ ei ∈ volumes.flatten, ei.entries ≠ []) :
    playFiles program file args (volumes.map fileOf) =
      some (volumes.map
        (packetActs (fun _ _ => true) (sleepOf args) 0)) := by
  induction volumes with
  | nil => rfl
  | cons volume volumes ih =>
      rw [List.flatten_cons] at hTimes hNonempty
      rw [List.forall_mem_append] at hTimes hNonempty
      have hRest := ih hTimes.2 hNonempty.2
      have hFirst :
          playerMain (fun _ => some (fileOf volume))
              (fun _ _ => true) (program :: file :: args) =
            some (0, packetActs (fun _ _ => true)
              (sleepOf args) 0 volume) :=
        playerMain_encodeFile hTimes.1 hNonempty.1 rfl _ _ _
      rw [playFiles] at hRest
      rw [playFiles, List.map_cons, List.mapM_cons, hRest,
        hFirst]
      rfl

/-
  Whatever way the operator and the threads interleave without
  a failed assertion, what the closed files and the open one
  hold, one after the other, and what is still on its way are
  the gestures that were pushed, each once and in order.
  Playing the closed files in the order in which they were
  closed writes into every device file just the gestures with
  that device's number.
-/
theorem recordings_partition
    {lib : CLib}
    {svc₀ : SvcState lib}
    (hClosed : svc₀.rcv.sFpEvt = none)
    (hNoFile : svc₀.rcv.closed = [])
    (hStream : svc₀.stream = [])
    {loopSteps : List LoopStep}
    {r : RecorderLoop}
    (hRecorder :
      recorderLoop.exec recorderLoop.init loopSteps = some r)
    (hTimes : ∀ ei ∈ r.pushed, HasTimes ei.received)
    {steps : List RecordingsStep}
    {s : Pipeline lib}
    (hWrites :
      (recordings svc₀).Meets Pipeline.RecordingsFit
        (recordings svc₀).init steps)
    (hRun :
      (recordings svc₀).exec (recordings svc₀).init steps =
        some s)
    (hPushed : RecordingsStep.gestures steps <+: r.pushed) :
    ∃ (v : Log EventInfo) (onTheWay : List EventInfo),
      RecordingsStep.gestures steps = v.entries ++ onTheWay ∧
        (s.Drained → onTheWay = []) ∧
        s.svc.rcv.closed.reverse = v.closed.map fileOf ∧
        s.svc.rcv.sFpEvt = v.current.map fileBody ∧
        ∀ program file args, ∃ acts,
          playFiles program file args
              s.svc.rcv.closed.reverse = some acts ∧
            ∀ path,
              acts.flatMap (writtenInto path) =
                (v.closed.flatten.filter fun ei =>
                  fileBuffer ei.devId = path).flatMap
                    EventInfo.injected := by
  rcases Pipeline.exists_binds_of_exec hClosed hNoFile hStream
      hWrites hRun with ⟨c, v, hSent, hBinds⟩
  have hGestures :
      RecordingsStep.gestures steps =
        v.entries ++
          c.inFlight.filterMap SentPacket.gesture? := by
    rw [RecordingsStep.gestures, PipelineStep.gestures, hSent,
      List.filterMap_append, hBinds.entries_eq]
  have hMember : ∀ ei ∈ v.closed.flatten, ei ∈ r.pushed := by
    intro ei hMem
    apply hPushed.subset
    rw [hGestures, Log.entries]
    simp [hMem]
  have hNonempty :
      ∀ ei ∈ v.closed.flatten, ei.entries ≠ [] :=
    fun ei hMem =>
      entries_ne_nil_of_mem_pushed hRecorder (hMember ei hMem)
  have hFiles :
      s.svc.rcv.closed.reverse = v.closed.map fileOf := by
    rw [hBinds.files.closed_eq, List.reverse_reverse]
  refine ⟨v, _, hGestures, ?_, hFiles, hBinds.files.current_eq,
    ?_⟩
  · intro hDrained
    rw [hBinds.toInTransit.eq_nil hDrained, List.filterMap_nil]
  · intro program file args
    have hPlay := playFiles_fileOf program file args
      (fun ei hMem => hTimes ei (hMember ei hMem)) hNonempty
    refine ⟨_, by rw [hFiles]; exact hPlay, ?_⟩
    intro path
    rw [List.flatMap_map]
    simp only [writtenInto_packetActs_open]
    induction v.closed with
    | nil => rfl
    | cons volume volumes ih =>
        rw [List.flatMap_cons, ih, List.flatten_cons,
          List.filter_append, List.flatMap_append]

/- A receiver that has not opened a file yet. -/
def idleSvc : SvcState CLib.msvc :=
  ⟨Buffer.zero CLib.msvc.bufsiz, [], CEvtRcv.init, []⟩

/- The key of one recording comes into the next one's file. -/
def lateKey : List RecordingsStep :=
  [.start, .transport (.push (.event ⟨2, 0⟩ keyOnTwelvePacket)),
    .stop, .start, .transport .pop, .transport (.write 40),
    .transport (.write 4), .transport .receive,
    .transport .returned, .stop]

theorem recordings_partition_lateKey :
    ∃ acts : List (List PlayerAct),
      playFiles "ep".toList "events".toList []
          [fileOf [], fileOf [keyOnTwelvePacket]] = some acts ∧
        acts.flatMap (writtenInto (eventPath 12)) =
          keyOnTwelvePacket.injected := by
  have hRecorded :
      (recorderLoop.exec recorderLoop.init keyOnTwelve).map
        RecorderLoop.pushed = some [keyOnTwelvePacket] := by
    decide
  rcases Option.map_eq_some_iff.mp hRecorded with
    ⟨r, hRecorder, hPushed⟩
  have hRun :
      ((recordings idleSvc).exec (recordings idleSvc).init
          lateKey).map
        (fun s =>
          ((s.svc.rcv.closed.reverse, s.svc.rcv.sFpEvt),
            s.sendQueue, s.sender, s.svc.stream)) =
        some (([fileOf [], fileOf [keyOnTwelvePacket]], none),
          [], .waiting, []) := by
    decide +kernel
  rcases Option.map_eq_some_iff.mp hRun with ⟨s, hExec, hEnd⟩
  simp only [Prod.mk.injEq] at hEnd
  have hWrites :
      (recordings idleSvc).Meets Pipeline.RecordingsFit
        (recordings idleSvc).init lateKey := by
    decide +kernel
  have hTimes : ∀ ei ∈ r.pushed, HasTimes ei.received := by
    rw [hPushed]
    decide
  have hGestures :
      RecordingsStep.gestures lateKey <+: r.pushed := by
    rw [hPushed]
    exact List.prefix_rfl
  rcases recordings_partition rfl rfl rfl hRecorder hTimes
      hWrites hExec hGestures with
    ⟨v, onTheWay, hSent, hDrained, _, hCurrent, hPlays⟩
  rcases hPlays "ep".toList "events".toList [] with
    ⟨acts, hPlay, hWritten⟩
  have hNone : v.current = none := by
    rw [hEnd.1.2] at hCurrent
    exact Option.map_eq_none_iff.mp hCurrent.symm
  have hKey : v.closed.flatten = [keyOnTwelvePacket] := by
    rw [hDrained hEnd.2, List.append_nil, Log.entries, hNone,
      Option.getD_none, List.append_nil] at hSent
    exact hSent.symm
  rw [hEnd.1.1] at hPlay
  refine ⟨acts, hPlay, ?_⟩
  rw [hWritten, hKey]
  decide

end FzEvent

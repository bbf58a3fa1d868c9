import FzEvent.EndToEnd.DeviceNumber
import FzEvent.EndToEnd.Pipeline

/-
  A recording on its way from the devices to the players, at
  any moment: the event thread pushes what its loop completes,
  and the operator may close the file while packets are still
  queued or only partly received.

  Main declarations:
    * `FzEvent.PipelineStep.gestures`
    * `FzEvent.liveRecording_replays`
-/

------------------------------------------------------------
-- The File at Any Moment
------------------------------------------------------------

namespace FzEvent

open Transition

/- The gestures among the packets that some steps push. -/
def PipelineStep.gestures (steps : List PipelineStep) :
    List EventInfo :=
  (PipelineStep.pushed steps).filterMap SentPacket.gesture?

/-
  Whenever the file is closed, it has the first gestures that
  the recorder completed, each once and in order, and both
  players inject every one of them into the device whose read
  completed it. With everything drained none is missing.
-/
theorem liveRecording_replays
    {lib : CLib}
    {svc₀ : SvcState lib}
    (hOpen : svc₀.rcv.sFpEvt = some [])
    (hStream : svc₀.stream = [])
    {loopSteps : List LoopStep}
    {r : RecorderLoop}
    (hRecorder :
      recorderLoop.exec recorderLoop.init loopSteps = some r)
    (hTimes : ∀ ei ∈ r.pushed, HasTimes ei.received)
    {steps : List PipelineStep}
    {s : Pipeline lib}
    (hWrites :
      (pipeline svc₀).Meets Pipeline.FitsInTwoWrites
        (pipeline svc₀).init steps)
    (hRun :
      (pipeline svc₀).exec (pipeline svc₀).init steps =
        some s)
    (hPushed : PipelineStep.gestures steps <+: r.pushed) :
    ∃ (n : Nat) (rcv : CEvtRcv) (file : List UInt8),
      s.svc.rcv.closeEventFile = some rcv ∧
        rcv.closed = file :: svc₀.rcv.closed ∧
        (readEvent .empty (some file)).2 = n ∧
        n ≤ (PipelineStep.gestures steps).length ∧
        (s.Drained →
          n = (PipelineStep.gestures steps).length) ∧
        ∀ k < n, ∃ ei name,
          r.pushed[k]? = some ei ∧
            CompletedOn name loopSteps k ei ∧
            devIdOf? name = some ei.devId ∧
            ReplayedInto file k (fileBuffer ei.devId)
              ei.injected := by
  rcases Pipeline.exists_refines_of_exec (by simp [hOpen])
      hStream hWrites hRun with
    ⟨⟨onTheWay, delivered⟩, hSent, hRefines⟩
  have hRcv := hRefines.rcv_eq
  have hDrained := hRefines.toInTransit.eq_nil
  dsimp only at hSent hRcv hDrained
  let received := delivered.filterMap SentPacket.gesture?
  have hGestures :
      PipelineStep.gestures steps =
        received ++ onTheWay.filterMap SentPacket.gesture? := by
    rw [PipelineStep.gestures, hSent, List.filterMap_append]
  have hReceived : received <+: r.pushed :=
    (List.prefix_append _ _).trans (hGestures ▸ hPushed)
  have hMember : ∀ ei ∈ received, ei ∈ r.pushed :=
    fun ei hMem => hReceived.subset hMem
  have hNonempty : ∀ ei ∈ received, ei.entries ≠ [] :=
    fun ei hMem =>
      entries_ne_nil_of_mem_pushed hRecorder (hMember ei hMem)
  have hTimes' : ∀ ei ∈ received, HasTimes ei.received :=
    fun ei hMem => hTimes ei (hMember ei hMem)
  rcases foldl_receive delivered hOpen with ⟨hFile, hClosed⟩
  rw [← hRcv, List.nil_append] at hFile
  rw [← hRcv] at hClosed
  have hContent :
      (received.map EventInfo.received).flatMap encodeGroup ++
          endOfFile = encodeFile (groupsOf received) := by
    rw [groupsOf, encodeFile_records]
  refine ⟨received.length, _, encodeFile (groupsOf received),
    CEvtRcv.closeEventFile_of_open hFile, ?_, ?_, ?_, ?_, ?_⟩
  · rw [hClosed, ← hContent]
  · rw [readEvent_encodeFile (groupTimes_groupsOf hTimes')]
    simp [EventList.getCount, groupsOf]
  · rw [hGestures, List.length_append]
    omega
  · intro hEnd
    rw [hGestures, hDrained hEnd, List.filterMap_nil,
      List.append_nil]
  · intro k hLess
    have hPacket : received[k]? = some received[k] :=
      List.getElem?_eq_getElem hLess
    have hInRun : r.pushed[k]? = some received[k] := by
      rcases hReceived with ⟨more, hMore⟩
      rw [← hMore, List.getElem?_append_left hLess, hPacket]
    rcases exists_completedOn hRecorder hInRun with
      ⟨name, hCompleted⟩
    exact ⟨received[k], name, hInRun, hCompleted,
      hCompleted.devIdOf?_eq,
      replayedInto_encodeFile hTimes' hNonempty hPacket⟩

/- The key of the twelfth device is pushed, sent and received. -/
def sendKeyOnTwelve : List PipelineStep :=
  [.push (.event ⟨2, 0⟩ keyOnTwelvePacket), .pop, .write 40,
    .write 4, .receive, .returned]

theorem liveRecording_replays_keyOnTwelve :
    ∃ file,
      (readEvent .empty (some file)).2 = 1 ∧
        ReplayedInto file 0 (eventPath 12)
          keyOnTwelvePacket.injected := by
  have hRecorded :
      (recorderLoop.exec recorderLoop.init keyOnTwelve).map
        RecorderLoop.pushed = some [keyOnTwelvePacket] := by
    decide
  rcases Option.map_eq_some_iff.mp hRecorded with
    ⟨r, hRecorder, hPushed⟩
  have hRun :
      ((pipeline freshSvc).exec (pipeline freshSvc).init
          sendKeyOnTwelve).map
        (fun s => (s.sendQueue, s.sender, s.svc.stream)) =
          some ([], .waiting, []) := by
    decide +kernel
  rcases Option.map_eq_some_iff.mp hRun with ⟨s, hExec, hEnd⟩
  simp only [Prod.mk.injEq] at hEnd
  have hWrites :
      (pipeline freshSvc).Meets Pipeline.FitsInTwoWrites
        (pipeline freshSvc).init sendKeyOnTwelve := by
    decide +kernel
  have hTimes : ∀ ei ∈ r.pushed, HasTimes ei.received := by
    rw [hPushed]
    decide
  have hGestures :
      PipelineStep.gestures sendKeyOnTwelve <+: r.pushed := by
    rw [hPushed]
    exact List.prefix_rfl
  rcases liveRecording_replays rfl rfl hRecorder hTimes hWrites
      hExec hGestures with
    ⟨n, rcv, file, _, _, hCount, _, hDrained, hReplays⟩
  have hOne : n = 1 := hDrained hEnd
  subst hOne
  rcases hReplays 0 (by decide) with
    ⟨ei, name, hPacket, _, _, hReplayed⟩
  rw [hPushed] at hPacket
  cases hPacket
  exact ⟨file, hCount, hReplayed⟩

end FzEvent

import FzEvent.EndToEnd.EventFile
import FzEvent.EndToEnd.Wire
import FzEvent.Player.PlayEvent
import FzEvent.Recorder.Gesture

/-
  A recorded gesture on its way through the packet, the
  receiver's event file and the player, up to the events that
  are injected.

  Main declarations:
    * `FzEvent.replayed`
    * `FzEvent.replayed_eq`
    * `FzEvent.replayed_of_mem_completed`
-/

------------------------------------------------------------
-- From the Recorder to the Player
------------------------------------------------------------

namespace FzEvent

/-
  The events that `play_event` writes for the packet of a
  gesture, when the receiver decodes the body of the packet,
  records it as the only event of a file, and the player
  reads that file.
-/
def replayed
    (tv : Timeval)
    (devId : Int32)
    (ei : EventInfo) : Option (List InputEvent) := do
  let packet := gesturePacket tv (ei.setDevId devId)
  let (e, _) ←
    parseEvtPacket (packet.drop (sizeofHeader + 4))
  let rcv ← CEvtRcv.init.makeEventFile.writeEventFile e
  let rcv ← rcv.closeEventFile
  let (list, _) := readEvent .empty rcv.closed.head?
  let (_, events) ← playEvent list 0
  return events

/- The body lies behind the header and its own length. -/
theorem drop_gesturePacket
    (tv : Timeval)
    (ei : EventInfo) :
    (gesturePacket tv ei).drop (sizeofHeader + 4) =
      encodeEventBody ei := by
  have hPacket :
      gesturePacket tv ei =
        (timeval.encode tv ++
          (u32.encode
              (PacketHeader.ofType tv packetTypeEvent).type ++
            u32.encode (eventBodyLen ei))) ++
          encodeEventBody ei := by
    simp [gesturePacket, makeEventPacket, List.append_assoc]
  rw [hPacket]
  apply List.drop_left'
  simp [sizeofHeader]

/- The file with one event in it is played from its node. -/
theorem playEvent_readEvent
    {e : DevicePacketEvent}
    (hTimes : HasTimes e)
    (hNonempty : e.entries ≠ []) :
    playEvent
        (readEvent .empty (some (encodeGroup e ++ endOfFile))).1
        0 =
      some (e.devId,
        e.entries.map (playedEntry e.type) ++
          [closingReport
            (e.entries.map (playedEntry e.type))]) := by
  have hRead :=
    readEvent_groups
      (List.forall_mem_singleton.mpr hTimes)
      (List.forall_mem_singleton.mpr hNonempty)
  rw [List.flatMap_singleton] at hRead
  have hNode :=
    getEventData_insertEvents
      (show 0 < [e].length from Nat.zero_lt_one)
  rw [hRead]
  apply playEvent_of_getEventData hNode
  simp [playedNode, DevicePacketEvent.count]

/-
  What is injected are the entries of the gesture under the
  file's type rule, and a report behind them.
-/
theorem replayed_eq
    (tv : Timeval)
    (devId : Int32)
    {ei : EventInfo}
    (hNonempty : ei.entries ≠ [])
    (hTimes : ∀ entry ∈ ei.entries, ¬ IsMarker entry.tv)
    (hCount : ei.count < 2 ^ 32) :
    replayed tv devId ei =
      some
        (ei.entries.map (playedEntry ei.eventType) ++
          [closingReport
            (ei.entries.map (playedEntry ei.eventType))]) := by
  have hDecode :
      parseEvtPacket (encodeEventBody (ei.setDevId devId)) =
        some ((ei.setDevId devId).received,
          eventBodyLen (ei.setDevId devId)) := by
    have hCount' : (ei.setDevId devId).count < 2 ^ 32 := hCount
    have hBody := parseEvtPacket_encodeEventBody hCount' []
    rwa [List.append_nil] at hBody
  have hPlay :=
    playEvent_readEvent
      (e := (ei.setDevId devId).received) hTimes hNonempty
  have hWrite :=
    CEvtRcv.writeEventFile_of_open
      (s := CEvtRcv.init.makeEventFile) rfl
      (ei.setDevId devId).received
  simp only [replayed, drop_gesturePacket, hDecode,
    Option.bind_eq_bind, Option.bind_some, hWrite,
    CEvtRcv.closeEventFile, List.nil_append,
    List.head?_cons, hPlay]
  rfl

/-
  The gestures of a stream are replayed, while the lengths of
  their packets cannot wrap around and the kernel's times are
  none of the file's markers.
-/
theorem replayed_of_mem_completed
    (tv : Timeval)
    (devId : Int32)
    {s : Parser}
    {stream : List InputEvent}
    {ei : EventInfo}
    (hBuffer : s.ei.entries = [])
    (hTimes : ∀ event ∈ stream, ¬ IsMarker event.time)
    (hLength : 44 + 18 * stream.length < 2 ^ 32)
    (hMem : ei ∈ s.completed stream)
    (hNonempty : ei.entries ≠ []) :
    replayed tv devId ei =
      some
        (ei.entries.map (playedEntry ei.eventType) ++
          [closingReport
            (ei.entries.map (playedEntry ei.eventType))]) := by
  have hStart : s.ei.count = 0 := by
    simp [EventInfo.count, hBuffer]
  have hBound :=
    Parser.count_le_of_mem_completed stream s hMem
  have hEntries : ∀ entry ∈ ei.entries, ¬ IsMarker entry.tv := by
    apply Parser.forall_mem_completed
      (fun entry => ¬ IsMarker entry.tv) stream s _ _ hMem
    · intro event hEvent entry hStems
      rw [hStems.1]
      exact hTimes event hEvent
    · simp [hBuffer]
  exact replayed_eq tv devId hNonempty hEntries (by omega)

end FzEvent

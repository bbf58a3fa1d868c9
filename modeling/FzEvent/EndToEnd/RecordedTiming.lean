import FzEvent.EndToEnd.DeviceNumber
import FzEvent.Player.ReplayTiming
import FzEvent.Recorder.Provenance

/-
  From the times of the kernel to the waits of the player.

  Every entry of a packet has the time of the event that it
  comes from, and the events keep their order. So where the
  events were read with times that never go back, every packet
  has times that never go back; the receiver stores them as
  they are, none of them is taken for a marker, and the player
  waits between the entries as long as the user did.

  Main declarations:
    * `FzEvent.InOrderEntries`
    * `FzEvent.inOrderEntries_of_mem_pushed`
    * `FzEvent.recording_keepsTime`
-/

------------------------------------------------------------
-- Times of the Entries
------------------------------------------------------------

namespace FzEvent

/- Entries with normal times that never go back. -/
structure InOrderEntries (entries : List Entry) : Prop where
  normal : ∀ entry ∈ entries, entry.tv.IsNormal
  sorted :
    entries.Pairwise fun a b => a.tv.micros ≤ b.tv.micros

/- Part of the entries. -/
theorem InOrderEntries.of_sublist
    {some all : List Entry}
    (hOrder : InOrderEntries all)
    (hSome : some.Sublist all) :
    InOrderEntries some where
  normal entry hMem := hOrder.normal entry (hSome.subset hMem)
  sorted := hOrder.sorted.sublist hSome

/- What events in order contribute is in order. -/
theorem inOrderEntries_flatten
    {events : List InputEvent}
    {pieces : List (List Entry)}
    (hPieces : List.Forall₂ Contributes events pieces)
    (hOrder : InOrder events) :
    InOrderEntries pieces.flatten ∧
      ∀ entry ∈ pieces.flatten, ∃ event ∈ events,
        entry.tv = event.time := by
  induction hPieces with
  | nil =>
      exact ⟨⟨by simp, by simp⟩, by simp⟩
  | @cons event piece events pieces hPiece _ ih =>
      rcases ih hOrder.tail with ⟨hRest, hStems⟩
      have hTimes := hPiece.tv_eq
      have hNormal :=
        hOrder.normal event List.mem_cons_self
      have hLater := (List.pairwise_cons.mp hOrder.sorted).1
      rw [List.flatten_cons]
      refine ⟨⟨?_, ?_⟩, ?_⟩
      · intro entry hMem
        rcases List.mem_append.mp hMem with hHere | hThere
        · rw [hTimes entry hHere]
          exact hNormal
        · exact hRest.normal entry hThere
      · rw [List.pairwise_append]
        refine ⟨?_, hRest.sorted, ?_⟩
        · -- All entries of one event have its time.
          apply List.pairwise_of_forall_mem_list
          intro a hA b hB
          rw [hTimes a hA, hTimes b hB]
        · intro a hA b hB
          rcases hStems b hB with ⟨later, hMem, hTime⟩
          rw [hTimes a hA, hTime]
          exact hLater later hMem
      · intro entry hMem
        rcases List.mem_append.mp hMem with hHere | hThere
        · exact ⟨event, List.mem_cons_self,
            hTimes entry hHere⟩
        · rcases hStems entry hThere with ⟨other, hOther, hTime⟩
          exact ⟨other, List.mem_cons_of_mem _ hOther, hTime⟩

/- A normal time is no marker. -/
theorem Timeval.IsNormal.not_isMarker
    {tv : Timeval}
    (hNormal : tv.IsNormal) :
    ¬IsMarker tv := by
  have hSec := hNormal.sec_nonneg
  have hMarker :
      ¬tv.tvSec.toUInt32 = 0xffffffff := by
    intro hWord
    have hMinus : tv.tvSec = -1 := by
      rw [← Int32.toInt32_toUInt32 tv.tvSec, hWord]
      rfl
    rw [hMinus] at hSec
    exact absurd hSec (by decide)
  rintro (hSeparator | hEnd)
  · exact hMarker hSeparator.1
  · exact hMarker hEnd.1

/- The player's entries have the recorded times. -/
theorem InOrderEntries.played
    {entries : List Entry}
    (hOrder : InOrderEntries entries)
    (type : UInt16) :
    InOrder (entries.map (playedEntry type)) where
  normal := by
    intro event hMem
    rcases List.mem_map.mp hMem with ⟨entry, hEntry, rfl⟩
    exact hOrder.normal entry hEntry
  sorted := by
    rw [List.pairwise_map]
    exact hOrder.sorted

end FzEvent

------------------------------------------------------------
-- The Waits
------------------------------------------------------------

namespace FzEvent

/- The times in every packet of a run are in order. -/
theorem inOrderEntries_of_mem_pushed
    {steps : List LoopStep}
    {t : RecorderLoop}
    (hRun :
      recorderLoop.exec recorderLoop.init steps = some t)
    (hOrder : InOrder (readEvents steps))
    {ei : EventInfo}
    (hMem : ei ∈ t.pushed) :
    InOrderEntries ei.entries := by
  rcases contributions_of_exec hRun with
    ⟨pieces, hPieces, hRecorded⟩
  have hAll := (inOrderEntries_flatten hPieces hOrder).1
  rw [← hRecorded] at hAll
  apply hAll.of_sublist
  have hPart : ei.entries.Sublist
      (t.pushed.flatMap EventInfo.entries) :=
    List.sublist_flatten_of_mem (List.mem_map_of_mem hMem)
  exact hPart.trans (List.sublist_append_left _ _)

/- The player's list has the packet, and plays it in time. -/
theorem exists_replayTimed
    {pushed : List EventInfo}
    {k : Nat}
    {ei : EventInfo}
    (hPacket : pushed[k]? = some ei)
    (hNonempty : ei.entries ≠ [])
    (hOrder : InOrderEntries ei.entries) :
    ∃ first last acts,
      ei.entries.head? = some first ∧
        ei.entries.getLast? = some last ∧
        replayEvent
            (EventList.empty.insertGroups (groupsOf pushed)) k =
          some (ei.devId, acts) ∧
        ReplayTimed (ei.entries.map (playedEntry ei.eventType))
          (playedEntry ei.eventType first)
          (playedEntry ei.eventType last) acts := by
  have hNode := getEventData_insertGroups hPacket hNonempty
  have hPlayed := hOrder.played ei.eventType
  have hRun := replayEvent_of_getEventData hNode (by simp)
  cases hEntries : ei.entries with
  | nil => exact absurd hEntries hNonempty
  | cons first rest =>
      have hLast := List.getLast?_eq_some_getLast
        (List.cons_ne_nil first rest)
      rw [hEntries, List.map_cons] at hPlayed hRun
      refine ⟨first, _, _, rfl, hLast, hRun, ?_⟩
      apply replayTimed_replayActs hPlayed
      rw [← List.map_cons, List.getLast?_map, hLast]
      rfl

/-
  Every entry comes from an event that was read, in their
  order. Where the events are read in the order of their times,
  every packet, received and stored with any captures between
  them, is played with the waits that the user made.
-/
theorem recording_keepsTime
    {steps : List LoopStep}
    {t : RecorderLoop}
    (hRun :
      recorderLoop.exec recorderLoop.init steps = some t) :
    (∃ pieces,
      List.Forall₂ Contributes (readEvents steps) pieces ∧
        t.recorded = pieces.flatten) ∧
      (InOrder (readEvents steps) →
        ∀ (lib : CLib) (packets : List SentPacket)
          (buf : Buffer lib.bufsiz) (rcv : CEvtRcv),
          packets.filterMap SentPacket.gesture? = t.pushed →
            (∀ p ∈ packets, p.Fits lib.bufsiz) →
            rcv.sFpEvt = some [] →
            ∃ s rcv' file,
              svc ⟨buf, packets.flatMap SentPacket.bytes, rcv,
                  []⟩ = (s, .headerClosed) ∧
                s.rcv.closeEventFile = some rcv' ∧
                rcv'.closed = file :: rcv.closed ∧
                ∀ (k : Nat) (ei : EventInfo),
                  t.pushed[k]? = some ei →
                    ∃ first last acts,
                      ei.entries.head? = some first ∧
                        ei.entries.getLast? = some last ∧
                        replayEvent
                            (readEvent .empty (some file)).1
                            k = some (ei.devId, acts) ∧
                        ReplayTimed
                          (ei.entries.map
                            (playedEntry ei.eventType))
                          (playedEntry ei.eventType first)
                          (playedEntry ei.eventType last)
                          acts) := by
  refine ⟨contributions_of_exec hRun, ?_⟩
  intro hOrder lib packets buf rcv hGestures hFits hOpen
  have hPushed :
      ∀ ei ∈ t.pushed, InOrderEntries ei.entries :=
    fun ei hMem =>
      inOrderEntries_of_mem_pushed hRun hOrder hMem
  have hTimes : ∀ ei ∈ t.pushed, HasTimes ei.received :=
    fun ei hMem entry hEntry =>
      ((hPushed ei hMem).normal entry hEntry).not_isMarker
  rcases svc_gestures hFits buf hOpen with
    ⟨s, rcv', hSvc, _, hClose, hClosed⟩
  rw [hGestures] at hClosed
  refine ⟨s, rcv', encodeFile (groupsOf t.pushed), hSvc,
    hClose, hClosed, ?_⟩
  intro k ei hPacket
  have hMem := List.mem_of_getElem? hPacket
  rw [readEvent_encodeFile (groupTimes_groupsOf hTimes)]
  exact exists_replayTimed hPacket
    (entries_ne_nil_of_mem_pushed hRun hMem) (hPushed ei hMem)

/- A contact that is down for a third of a second. -/
def shortTap : List LoopStep :=
  [.read (eventPath 2) ⟨⟨1, 800000⟩, evAbs, 57, 5⟩,
    .read (eventPath 2) ⟨⟨1, 800060⟩, evAbs, 53, 100⟩,
    .read (eventPath 2) ⟨⟨1, 800060⟩, evSyn, 0, 0⟩,
    .finish,
    .read (eventPath 2) ⟨⟨2, 133393⟩, evAbs, 57, -1⟩,
    .finish]

def shortTapPacket : EventInfo :=
  ⟨evAbs, 2,
    [⟨⟨1, 800000⟩, 5, 57, 5⟩, ⟨⟨1, 800060⟩, 5, 53, 100⟩,
      ⟨⟨1, 800060⟩, -1, 0, 0⟩,
      ⟨⟨2, 133393⟩, 5, 57, 0xffffffff⟩,
      ⟨⟨2, 133393⟩, -1, 0, 0⟩]⟩

theorem recording_keepsTime_shortTap :
    ∃ file acts,
      replayEvent (readEvent .empty (some file)).1 0 =
          some (2, acts) ∧
        ReplayTimed
          (shortTapPacket.entries.map (playedEntry evAbs))
          ⟨⟨1, 800000⟩, evAbs, 57, 5⟩
          ⟨⟨2, 133393⟩, 0, 0, 0⟩ acts := by
  have hRun :
      (recorderLoop.exec recorderLoop.init shortTap).map
        RecorderLoop.pushed = some [shortTapPacket] := by
    decide
  rcases Option.map_eq_some_iff.mp hRun with
    ⟨t, hExec, hPushed⟩
  have hOrder : InOrder (readEvents shortTap) :=
    ⟨by decide, by decide⟩
  have hGestures :
      [SentPacket.event ⟨3, 0⟩ shortTapPacket].filterMap
        SentPacket.gesture? = t.pushed := hPushed.symm
  have hFits :
      ∀ p ∈ [SentPacket.event ⟨3, 0⟩ shortTapPacket],
        p.Fits CLib.android.bufsiz := by
    simp [SentPacket.Fits, CLib.android, EventInfo.count,
      shortTapPacket]
  have hOpen :
      CEvtRcv.init.makeEventFile.sFpEvt = some [] := rfl
  rcases (recording_keepsTime hExec).2 hOrder .android _
      (Buffer.zero _) _ hGestures hFits hOpen with
    ⟨_, _, file, _, _, _, hAll⟩
  rcases hAll 0 shortTapPacket (by rw [hPushed]; rfl) with
    ⟨first, last, acts, hFirst, hLast, hPlayed, hTimed⟩
  cases hFirst
  cases hLast
  exact ⟨file, acts, hPlayed, hTimed⟩

end FzEvent

import FzEvent.EndToEnd.Replay
import FzEvent.Evdev.SlotProtocol
import FzEvent.Lib.Stutter
import FzEvent.Recorder.Gesture

/-
  Whether a replayed gesture moves its contacts as the
  recorded one did.

  Main declarations:
    * `FzEvent.ReplaysFrames` and `FzEvent.Reproduces`
    * `EventInfo.played`
    * `FzEvent.Follows` and `Follows.run`
    * `FzEvent.not_replaysFrames_of_two_contacts`
-/

------------------------------------------------------------
-- Reproduced Streams
------------------------------------------------------------

namespace FzEvent

/-
  What is injected for the gesture, from the slots that the
  stream was captured in, commits the frames of the stream,
  up to the repetition of an unchanged frame.
-/
def ReplaysFrames
    (k : SlotState)
    (stream : List InputEvent)
    (tv : Timeval)
    (devId : Int32)
    (ei : EventInfo) : Prop :=
  ∃ injected, replayed tv devId ei = some injected ∧
    Stutter.Same (k.frames injected) (k.frames stream)

/-
  Played from `k`, the second stream reaches the state and
  commits the frames of the first one.
-/
structure Reproduces
    (k : SlotState)
    (stream played : List InputEvent) : Prop where
  after_eq : k.after played = k.after stream
  frames_same :
    Stutter.Same (k.frames played) (k.frames stream)

variable {k : SlotState}
variable {stream played : List InputEvent}

/- An event that is recorded is played in its place. -/
theorem Reproduces.concat
    (hReproduces : Reproduces k stream played)
    (event : InputEvent) :
    Reproduces k (stream ++ [event]) (played ++ [event]) where
  after_eq := by
    rw [SlotState.after_concat, SlotState.after_concat,
      hReproduces.after_eq]
  frames_same := by
    by_cases hReport : event.kind = .report
    · rw [SlotState.frames_concat_of_report k _ hReport,
        SlotState.frames_concat_of_report k _ hReport,
        hReproduces.after_eq]
      exact hReproduces.frames_same.concat _
    · rw [SlotState.frames_concat_of_ne k _ hReport,
        SlotState.frames_concat_of_ne k _ hReport]
      exact hReproduces.frames_same

/- An event without a meaning in the protocol may be lost. -/
theorem Reproduces.skip_other
    (hReproduces : Reproduces k stream played)
    {event : InputEvent}
    (hKind : event.kind = .other) :
    Reproduces k (stream ++ [event]) played where
  after_eq := by
    rw [SlotState.after_concat, hReproduces.after_eq]
    simp [SlotState.next, hKind]
  frames_same := by
    have hReport : event.kind ≠ .report := by
      simp [hKind]
    rw [SlotState.frames_concat_of_ne k _ hReport]
    exact hReproduces.frames_same

/- So may a report behind a frame that is still current. -/
theorem Reproduces.skip_report
    (hReproduces : Reproduces k stream played)
    {event : InputEvent}
    (hKind : event.kind = .report)
    (hLast :
      (k.frames stream).getLast? =
        some (k.after stream).frame) :
    Reproduces k (stream ++ [event]) played where
  after_eq := by
    rw [SlotState.after_concat, hReproduces.after_eq]
    simp [SlotState.next, hKind]
  frames_same := by
    rw [SlotState.frames_concat_of_report k _ hKind]
    exact hReproduces.frames_same.trans
      (Stutter.same_concat_left hLast).symm

end FzEvent

------------------------------------------------------------
-- What the Buffer Is Played As
------------------------------------------------------------

namespace FzEvent

/- The events that an `EV_ABS` gesture is played as. -/
def EventInfo.played (ei : EventInfo) : List InputEvent :=
  ei.entries.map (playedEntry evAbs)

/- An entry of an `EV_ABS` event is played as the event. -/
theorem playedEntry_of_abs
    {event : InputEvent}
    (hType : event.type = evAbs)
    (hCode : event.code ≠ synReport)
    (id : Int32) :
    playedEntry evAbs
        ⟨event.time, id, event.code,
          event.value.toUInt32⟩ =
      event := by
  have hKept : ¬ (event.code = 0 ∧ event.value.toUInt32 = 0) :=
    fun h => hCode h.1
  rcases event with ⟨time, type, code, value⟩
  subst hType
  simp only [playedEntry, if_neg hKept]
  simp

/- An entry of a report is played as the report. -/
theorem playedEntry_of_report
    {event : InputEvent}
    (hKind : event.kind = .report)
    (hValue : event.value = 0)
    (type : UInt16)
    (id : Int32) :
    playedEntry type
        ⟨event.time, id, event.code,
          event.value.toUInt32⟩ =
      event := by
  rcases InputEvent.of_kind_report hKind with ⟨hType, hCode⟩
  rcases event with ⟨time, type', code, value⟩
  subst hType hCode hValue
  rfl

namespace EventInfo

theorem played_add_of_abs
    (ei : EventInfo)
    {event : InputEvent}
    (hType : event.type = evAbs)
    (hCode : event.code ≠ synReport)
    (id : Int32) :
    (ei.add event.time id event.code
        event.value.toUInt32).played =
      ei.played ++ [event] := by
  rw [played, entries_add_of_ne _ _ _ _ hCode,
    List.map_append, played]
  simp only [List.map_cons, List.map_nil,
    playedEntry_of_abs hType hCode]

/- A report is added only behind an entry that is none. -/
theorem played_add_report
    (ei : EventInfo)
    (event : InputEvent)
    (hKind : event.kind = .report)
    (hValue : event.value = 0)
    (hNonempty : ei.entries ≠ [])
    (id : Int32) :
    (ei.add event.time id event.code
        event.value.toUInt32).played =
      if ei.endsWithReport = true then
        ei.played
      else
        ei.played ++ [event] := by
  have hCode := (InputEvent.of_kind_report hKind).2
  have hCount : ei.count ≠ 0 := by
    simpa [count] using hNonempty
  unfold add
  by_cases hLast : ei.endsWithReport = true
  · rw [if_pos ⟨hCode, Or.inr hLast⟩, if_pos hLast]
  · have hKept :
        ¬ (event.code = synReport ∧
          (ei.count = 0 ∨ ei.endsWithReport = true)) := by
      intro hSkipped
      exact hSkipped.2.elim hCount hLast
    rw [if_neg hKept, if_neg hLast, played, List.map_append,
      played]
    simp only [List.map_cons, List.map_nil,
      playedEntry_of_report hKind hValue]

theorem entries_add_ne_nil
    {ei : EventInfo}
    (hNonempty : ei.entries ≠ [])
    (tv : Timeval)
    (id : Int32)
    (code : UInt16)
    (value : UInt32) :
    (ei.add tv id code value).entries ≠ [] := by
  rcases ei.exists_entries_add tv id code value with
    ⟨added, hEntries, -⟩
  rw [hEntries]
  exact List.append_ne_nil_of_left_ne_nil hNonempty added

end EventInfo

end FzEvent

------------------------------------------------------------
-- While the Contact Is Down
------------------------------------------------------------

namespace FzEvent

/- A kind that a contact in its slot may be followed by. -/
def Moves (event : InputEvent) : Prop :=
  event.kind = .positionX ∨ event.kind = .positionY ∨
    event.kind = .other ∨
      (event.kind = .report ∧ event.value = 0)
deriving Decidable

/-
  The parser has one contact registered, in its current slot,
  and its buffer reproduces the stream so far; when the
  buffer ends with a report, the last frame is current.
-/
structure Follows
    (k : SlotState)
    (stream : List InputEvent)
    (i : Fin defaultIdMapSize)
    (s : Parser) : Prop where
  slotIndex : s.eventIdMap.slotIndex? = some i
  id_ne : (s.eventIdMap.pair i).value ≠ 0xffffffff
  slotCount_eq : s.eventIdMap.slotCount = 1
  reproduces : Reproduces k stream s.ei.played
  nonempty : s.ei.entries ≠ []
  current_of_report :
    s.ei.endsWithReport = true →
      (k.frames stream).getLast? =
        some (k.after stream).frame

variable {k : SlotState}
variable {stream : List InputEvent}
variable {i : Fin defaultIdMapSize}
variable {s : Parser}
variable {event : InputEvent}

theorem Follows.noteType
    (hFollows : Follows k stream i s)
    (event : InputEvent) :
    Follows k stream i (s.noteType event) :=
  ⟨hFollows.slotIndex, hFollows.id_ne,
    hFollows.slotCount_eq, hFollows.reproduces,
    hFollows.nonempty, hFollows.current_of_report⟩

/- A coordinate is added to the buffer. -/
theorem Follows.position
    (hFollows : Follows k stream i s)
    (hAbs : event.type = evAbs ∧ event.code ≠ synReport) :
    ∃ t,
      Parser.parsePosition event s = some (.parseCon, t) ∧
        Follows k (stream ++ [event]) i t := by
  refine ⟨_,
    Parser.parsePosition_of_ne hFollows.slotIndex
      hFollows.id_ne, ?_⟩
  refine ⟨hFollows.slotIndex, hFollows.id_ne,
    hFollows.slotCount_eq, ?_, ?_, ?_⟩
  · rw [EventInfo.played_add_of_abs _ hAbs.1 hAbs.2]
    exact hFollows.reproduces.concat event
  · exact EventInfo.entries_add_ne_nil hFollows.nonempty
      _ _ _ _
  · intro hReport
    rw [EventInfo.endsWithReport_add_of_ne _ _ _ _ hAbs.2]
      at hReport
    exact absurd hReport Bool.false_ne_true

/- A report is added unless the buffer ends with one. -/
theorem Follows.report
    (hFollows : Follows k stream i s)
    (hKind : event.kind = .report)
    (hValue : event.value = 0) :
    Follows k (stream ++ [event]) i
      (Parser.parseReport event s).2 := by
  have hFrame :
      (k.frames (stream ++ [event])).getLast? =
        some (k.after (stream ++ [event])).frame := by
    rw [SlotState.frames_concat_of_report k _ hKind,
      List.getLast?_concat, SlotState.after_concat]
    simp [SlotState.next, hKind]
  refine ⟨hFollows.slotIndex, hFollows.id_ne,
    hFollows.slotCount_eq, ?_, ?_, fun _ => hFrame⟩
  · simp only [Parser.parseReport,
      s.ei.played_add_report event hKind hValue
        hFollows.nonempty]
    by_cases hLast : s.ei.endsWithReport = true
    · rw [if_pos hLast]
      exact hFollows.reproduces.skip_report hKind
        (hFollows.current_of_report hLast)
    · rw [if_neg hLast]
      exact hFollows.reproduces.concat event
  · exact EventInfo.entries_add_ne_nil hFollows.nonempty
      _ _ _ _

/- An event without a meaning leaves the buffer alone. -/
theorem Follows.other
    (hFollows : Follows k stream i s)
    (hKind : event.kind = .other) :
    Follows k (stream ++ [event]) i s := by
  refine ⟨hFollows.slotIndex, hFollows.id_ne,
    hFollows.slotCount_eq, hFollows.reproduces.skip_other hKind,
    hFollows.nonempty, ?_⟩
  intro hReport
  have hNotReport : event.kind ≠ .report := by
    simp [hKind]
  rw [SlotState.frames_concat_of_ne k _ hNotReport,
    SlotState.after_concat, hFollows.current_of_report hReport]
  simp [SlotState.next, hKind]

/- One call on a moving contact. -/
theorem Follows.step
    (hFollows : Follows k stream i s)
    (hMoves : Moves event) :
    ∃ ret t,
      Parser.parseEvent event s = some (ret, t) ∧
        ret ≠ .parseEnd ∧
          Follows k (stream ++ [event]) i t := by
  have hNoted := hFollows.noteType event
  rw [Parser.parseEvent_eq]
  rcases hMoves with hKind | hKind | hKind | ⟨hKind, hValue⟩
  · have hAbs := InputEvent.abs_of_kind hKind (by decide)
    rcases hNoted.position hAbs with ⟨t, hParse, hNext⟩
    simp only [hKind]
    exact ⟨_, t, hParse, by simp, hNext⟩
  · have hAbs := InputEvent.abs_of_kind hKind (by decide)
    rcases hNoted.position hAbs with ⟨t, hParse, hNext⟩
    simp only [hKind]
    exact ⟨_, t, hParse, by simp, hNext⟩
  · simp only [hKind]
    exact ⟨_, _, rfl, by simp, hNoted.other hKind⟩
  · simp only [hKind]
    exact ⟨_, _, rfl, by simp,
      hNoted.report hKind hValue⟩

/- All moves of the contact. -/
theorem Follows.run
    (moves : List InputEvent)
    (hFollows : Follows k stream i s)
    (hMoves : ∀ event ∈ moves, Moves event) :
    ∃ t, Follows k (stream ++ moves) i t ∧
      ∀ rest,
        s.completed (moves ++ rest) = t.completed rest := by
  induction moves generalizing stream s with
  | nil =>
      refine ⟨s, ?_, fun _ => rfl⟩
      rwa [List.append_nil]
  | cons event moves ih =>
      rw [List.forall_mem_cons] at hMoves
      rcases hFollows.step hMoves.1 with
        ⟨ret, t, hParse, hRet, hNext⟩
      rcases ih hNext hMoves.2 with ⟨u, hLast, hRest⟩
      refine ⟨u, by simpa using hLast, ?_⟩
      intro rest
      rw [List.cons_append,
        Parser.completed_cons_of_ne hParse hRet, hRest]

end FzEvent

------------------------------------------------------------
-- Two Contacts at a Time
------------------------------------------------------------

namespace FzEvent

/- The player's type rule makes no slot change. -/
theorem kind_playedEntry_ne_slot
    {entry : Entry}
    (hCode : entry.code ≠ absMtSlot)
    (type : UInt16) :
    (playedEntry type entry).kind ≠ .slot := by
  intro hKind
  exact hCode (InputEvent.code_of_kind_slot hKind)

/- The recorder keeps no slot change of a touch session. -/
theorem code_ne_absMtSlot_of_mem_completed
    {s : Parser}
    {stream : List InputEvent}
    {ei : EventInfo}
    (hBuffer : s.ei.entries = [])
    (hKeys : ∀ event ∈ stream, event.kind ≠ .key)
    (hMem : ei ∈ s.completed stream) :
    ∀ entry ∈ ei.entries, entry.code ≠ absMtSlot := by
  apply Parser.forall_mem_completed
    (fun entry => entry.code ≠ absMtSlot) stream s _ _ hMem
  · intro event hEvent entry hStems hSlot
    rcases hStems.2 with hReport | ⟨hCode, hNotSlot, hNotOther⟩
    · rw [hReport] at hSlot
      exact absurd hSlot (by decide)
    · rw [hCode] at hSlot
      rcases InputEvent.kind_of_code_slot hSlot with
        hKind | hKind | hKind
      · exact hNotSlot hKind
      · exact hKeys event hEvent hKind
      · exact hNotOther hKind
  · simp [hBuffer]

/-
  A touch session that commits a frame with two contacts is
  not reproduced: all that is injected goes to one slot.
-/
theorem not_replaysFrames_of_two_contacts
    {k : SlotState}
    {s : Parser}
    {stream : List InputEvent}
    {ei : EventInfo}
    {tv : Timeval}
    {devId : Int32}
    (hCurrent : k.occupied ⊆ {k.current})
    (hBuffer : s.ei.entries = [])
    (hKeys : ∀ event ∈ stream, event.kind ≠ .key)
    (hTimes : ∀ event ∈ stream, ¬ IsMarker event.time)
    (hLength : 44 + 18 * stream.length < 2 ^ 32)
    (hMem : ei ∈ s.completed stream)
    (hTwo : ∃ frame ∈ k.frames stream, 2 ≤ frame.length) :
    ¬ ReplaysFrames k stream tv devId ei := by
  rintro ⟨injected, hReplayed, hSame⟩
  have hNonempty :=
    Parser.entries_ne_nil_of_mem_completed stream s hKeys hMem
  rw [replayed_of_mem_completed tv devId hBuffer hTimes hLength
    hMem hNonempty] at hReplayed
  have hSlots : ∀ event ∈ injected, event.kind ≠ .slot := by
    rw [← Option.some.inj hReplayed]
    intro event hEvent
    rcases List.mem_append.mp hEvent with hPlayed | hClosing
    · rcases List.mem_map.mp hPlayed with ⟨entry, hEntry, rfl⟩
      exact kind_playedEntry_ne_slot
        (code_ne_absMtSlot_of_mem_completed hBuffer hKeys hMem
          entry hEntry) _
    · rw [List.mem_singleton.mp hClosing]
      intro hSlot
      cases hSlot
  rcases hTwo with ⟨frame, hFrame, hLe⟩
  have hOne :=
    SlotState.length_le_one_of_mem_frames injected hSlots
      hCurrent ((hSame.mem_iff frame).mpr hFrame)
  omega

/- Two contacts in two slots that lift one after the other. -/
def pinch : List InputEvent :=
  [.abs absMtTrackingId 7, .abs absMtPositionX 10,
    .abs absMtPositionY 20, .abs absMtSlot 1,
    .abs absMtTrackingId 8, .abs absMtPositionX 30,
    .abs absMtPositionY 40, .report,
    .abs absMtTrackingId (-1), .abs absMtSlot 0,
    .abs absMtTrackingId (-1), .report]

theorem not_replaysFrames_of_wellFormed :
    ¬ ∀ (stream : List InputEvent) (ei : EventInfo)
        (tv : Timeval) (devId : Int32),
      WellFormed stream →
      (SlotState.init.after stream).occupied = ∅ →
      Parser.init.completed stream = [ei] →
        ReplaysFrames SlotState.init stream tv devId ei := by
  intro hAll
  have hOne : (Parser.init.completed pinch).length = 1 := by
    decide
  rcases List.length_eq_one_iff.mp hOne with ⟨ei, hCompleted⟩
  have hMem : ei ∈ Parser.init.completed pinch := by
    rw [hCompleted]
    exact List.mem_singleton_self ei
  have hReplays :=
    hAll pinch ei ⟨0, 0⟩ 0 (by decide) (by decide) hCompleted
  exact not_replaysFrames_of_two_contacts (by decide) rfl
    (by decide) (by decide) (by decide) hMem (by decide)
    hReplays

end FzEvent

import FzEvent.Recorder.Delivery

/-
  Where the entries of the packets come from.

  Whatever the devices send and however their reads are mixed,
  the entries that were ever recorded, in their order, are the
  events that were read, in their order, with some of them
  left out; and where the last contact is lifted, a report at
  the same time is put behind it. Nothing else is recorded, no
  event is recorded twice, and what was recorded is in a
  packet or still in the buffer.

  Main declarations:
    * `FzEvent.MayHaveId` and `FzEvent.Contributes`
    * `Parser.contributes_parseEvent`
    * `RecorderLoop.recorded`
    * `FzEvent.contributions_of_exec`
-/

------------------------------------------------------------
-- One Event
------------------------------------------------------------

namespace FzEvent

/- The ids that an event can be recorded with. -/
def MayHaveId
    (event : InputEvent)
    (id : Int32) : Prop :=
  match event.kind with
  | .report | .key => id = -1
  | .touch => id = event.value
  | .lift | .positionX | .positionY => True
  | .slot | .other => False

/-
  What an event adds to the buffer: nothing, its own entry, or
  its entry and a report.
-/
inductive Contributes (event : InputEvent) :
    List Entry → Prop
| dropped : Contributes event []
| kept (id : Int32) :
    MayHaveId event id →
    Contributes event [event.entry id]
| last (id : Int32) :
    event.kind = .lift →
    Contributes event
      [event.entry id, ⟨event.time, -1, synReport, 0⟩]

/- All that an event adds has its time. -/
theorem Contributes.tv_eq
    {event : InputEvent}
    {added : List Entry}
    (hAdded : Contributes event added) :
    ∀ entry ∈ added, entry.tv = event.time := by
  cases hAdded with
  | dropped => simp
  | kept id _ => simp [InputEvent.entry]
  | last id _ => simp [InputEvent.entry]

namespace Parser

variable {event : InputEvent} {s t : Parser}
variable {ret : ParseInfo}

/- `add` takes an event or leaves it out. -/
theorem contributes_add
    {id : Int32}
    (hId : MayHaveId event id)
    (hBuffer :
      t.ei =
        s.ei.add event.time id event.code
          event.value.toUInt32) :
    ∃ added,
      t.ei.entries = s.ei.entries ++ added ∧
        Contributes event added := by
  rw [hBuffer, EventInfo.add]
  split
  · exact ⟨[], by simp, .dropped⟩
  · exact ⟨_, rfl, .kept id hId⟩

theorem contributes_nil
    (hBuffer : t.ei = s.ei) :
    ∃ added,
      t.ei.entries = s.ei.entries ++ added ∧
        Contributes event added :=
  ⟨[], by rw [hBuffer, List.append_nil], .dropped⟩

theorem contributes_parseLift
    (hKind : event.kind = .lift)
    (hParse : parseLift event s = some (ret, t)) :
    ∃ added,
      t.ei.entries = s.ei.entries ++ added ∧
        Contributes event added := by
  unfold parseLift at hParse
  simp only [Option.bind_eq_bind, Option.bind_eq_some_iff]
    at hParse
  rcases hParse with ⟨pair, hPair, m, hMap, hParse⟩
  split at hParse
  · cases hParse
    have hCode : event.code ≠ synReport := by
      rw [(InputEvent.of_kind_lift hKind).2.1]
      decide
    refine ⟨_, ?_, .last pair.value.toInt32 hKind⟩
    have hFirst := s.ei.entries_add_of_ne event.time
      pair.value.toInt32 event.value.toUInt32 hCode
    have hReport :
        (s.ei.add event.time pair.value.toInt32 event.code
          event.value.toUInt32).endsWithReport = false := by
      rw [EventInfo.endsWithReport, hFirst,
        List.getLast?_concat]
      simpa using hCode
    rw [EventInfo.add, if_neg]
    · simp [hFirst, InputEvent.entry]
    · rw [hReport, EventInfo.count, hFirst]
      simp
  · cases hParse
    exact contributes_add (by simp [MayHaveId, hKind]) rfl

theorem contributes_parseTouch
    (hKind : event.kind = .touch)
    (hParse : parseTouch event s = some (ret, t)) :
    ∃ added,
      t.ei.entries = s.ei.entries ++ added ∧
        Contributes event added := by
  by_cases hFlag : s.slotFlag = 0
  · rw [parseTouch_of_flag_eq hFlag] at hParse
    cases hParse
    exact contributes_nil rfl
  · cases hIndex : s.eventIdMap.slotIndex? with
    | none =>
        simp [parseTouch, hFlag, EventIdMap.addTouchId,
          hIndex] at hParse
    | some i =>
        rw [parseTouch_of_flag_ne hIndex hFlag] at hParse
        cases hParse
        exact contributes_add (by simp [MayHaveId, hKind]) rfl

theorem contributes_parsePosition
    (hKind :
      event.kind = .positionX ∨ event.kind = .positionY)
    (hParse : parsePosition event s = some (ret, t)) :
    ∃ added,
      t.ei.entries = s.ei.entries ++ added ∧
        Contributes event added := by
  unfold parsePosition at hParse
  simp only [Option.bind_eq_bind, Option.bind_eq_some_iff]
    at hParse
  rcases hParse with ⟨pair, hPair, hParse⟩
  split at hParse
  · cases hParse
    exact contributes_nil rfl
  · cases hParse
    apply contributes_add _ rfl
    rcases hKind with hKind | hKind <;>
      simp [MayHaveId, hKind]

theorem contributes_parseKey
    (hKind : event.kind = .key)
    (s : Parser) :
    ∃ added,
      (parseKey event s).2.ei.entries =
          s.ei.entries ++ added ∧
        Contributes event added := by
  unfold parseKey
  split
  · exact contributes_nil rfl
  · exact contributes_add (by simp [MayHaveId, hKind]) rfl

/- Every call adds what its event contributes. -/
theorem contributes_parseEvent
    (hParse : parseEvent event s = some (ret, t)) :
    ∃ added,
      t.ei.entries = s.ei.entries ++ added ∧
        Contributes event added := by
  rw [parseEvent_eq] at hParse
  rw [← entries_noteType s event]
  cases hKind : event.kind with
  | report =>
      simp only [hKind, Option.some.injEq] at hParse
      cases hParse
      have hId : MayHaveId event (-1) := by
        simp [MayHaveId, hKind]
      exact contributes_add hId rfl
  | touch =>
      simp only [hKind] at hParse
      exact contributes_parseTouch hKind hParse
  | lift =>
      simp only [hKind] at hParse
      exact contributes_parseLift hKind hParse
  | slot =>
      simp only [hKind, Option.some.injEq] at hParse
      cases hParse
      exact contributes_nil rfl
  | positionX =>
      simp only [hKind] at hParse
      exact contributes_parsePosition (Or.inl hKind) hParse
  | positionY =>
      simp only [hKind] at hParse
      exact contributes_parsePosition (Or.inr hKind) hParse
  | key =>
      simp only [hKind, Option.some.injEq] at hParse
      have hKey :=
        contributes_parseKey hKind (s.noteType event)
      rw [hParse] at hKey
      exact hKey
  | other =>
      simp only [hKind, Option.some.injEq] at hParse
      cases hParse
      exact contributes_nil rfl

end Parser

end FzEvent

------------------------------------------------------------
-- Whole Runs
------------------------------------------------------------

namespace FzEvent

open Transition

/- The event that a step reads. -/
def LoopStep.event? : LoopStep → Option InputEvent
| .read _ event => some event
| .finish => none

/- The events that were read, in their order. -/
def readEvents (steps : List LoopStep) : List InputEvent :=
  steps.filterMap LoopStep.event?

/- All entries of the packets, and those in the buffer. -/
def RecorderLoop.recorded (s : RecorderLoop) : List Entry :=
  s.pushed.flatMap EventInfo.entries ++ s.parser.ei.entries

/- A round adds what its event contributes. -/
theorem RecorderLoop.recorded_getEventRound
    {s t : RecorderLoop}
    {name : List Char}
    {event : InputEvent}
    (hRound : s.getEventRound name event = some t) :
    ∃ added,
      t.recorded = s.recorded ++ added ∧
        Contributes event added := by
  cases hParse : Parser.parseEvent event s.parser with
  | none => simp [getEventRound, hParse] at hRound
  | some result =>
      rcases result with ⟨ret, parser⟩
      rcases Parser.contributes_parseEvent hParse with
        ⟨added, hEntries, hContributes⟩
      refine ⟨added, ?_, hContributes⟩
      rw [recorded, recorded, List.append_assoc, ← hEntries]
      by_cases hRet : ret = .parseEnd
      · subst hRet
        cases hDevId : devIdOf? name with
        | none =>
            simp [getEventRound, hParse, hDevId] at hRound
        | some devId =>
            rw [getEventRound_of_parseEnd hParse hDevId]
              at hRound
            cases hRound
            rfl
      · rw [getEventRound_of_ne hParse hRet name] at hRound
        cases hRound
        rfl

/- The end of an iteration moves entries, and loses none. -/
theorem RecorderLoop.recorded_finish
    {s t : RecorderLoop}
    (hFinish : s.finish = some t) :
    t.recorded = s.recorded := by
  rcases of_finish hFinish with
    ⟨_, hEmpty, hPushed⟩ | ⟨_, rfl⟩
  · rw [recorded, recorded, hEmpty, hPushed,
      List.flatMap_append, List.flatMap_singleton,
      List.append_nil]
  · rfl

/- What was recorded, piece by piece, event by event. -/
theorem contributions_of_exec
    {steps : List LoopStep}
    {t : RecorderLoop}
    (hRun :
      recorderLoop.exec recorderLoop.init steps = some t) :
    ∃ pieces,
      List.Forall₂ Contributes (readEvents steps) pieces ∧
        t.recorded = pieces.flatten := by
  refine recorderLoop.invariant_of_exec
    (fun steps t =>
      ∃ pieces,
        List.Forall₂ Contributes (readEvents steps) pieces ∧
          t.recorded = pieces.flatten)
    ⟨[], .nil, rfl⟩ ?_ hRun
  rintro steps s l t _ ⟨pieces, hPieces, hRecorded⟩ hStep
  rw [readEvents, List.filterMap_append]
  cases l with
  | read name event =>
      rcases RecorderLoop.recorded_getEventRound hStep with
        ⟨added, hAdds, hAdded⟩
      refine ⟨pieces ++ [added], ?_, ?_⟩
      · exact List.rel_append hPieces (.cons hAdded .nil)
      · rw [hAdds, hRecorded, List.flatten_append]
        simp
  | finish =>
      refine ⟨pieces, ?_, ?_⟩
      · have hNone :
            [LoopStep.finish].filterMap LoopStep.event? = [] :=
          rfl
        rw [hNone, List.append_nil]
        exact hPieces
      · rw [RecorderLoop.recorded_finish hStep, hRecorded]

end FzEvent

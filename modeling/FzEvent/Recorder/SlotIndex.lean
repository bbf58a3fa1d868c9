import FzEvent.Recorder.TouchCounter

/-
  The index `current_slot` into `pair[]`, over any stream of
  events.

  A slot number is stored without a check, so a number outside
  the table is an index as soon as a later event looks up the
  current slot. Only the next slot number replaces it: the
  table is cleared by a lift, which looks it up first.

  Main declarations:
    * `InputEvent.ReadsSlot` and `FzEvent.SlotsGuarded`
    * `FzEvent.isSome_exec_iff_inBounds`
    * `FzEvent.inBounds_iff_slotsGuarded`
-/

------------------------------------------------------------
-- Guarded Slot Numbers
------------------------------------------------------------

namespace FzEvent

/- The event is of a kind that looks up the current slot. -/
def InputEvent.ReadsSlot (event : InputEvent) : Prop :=
  event.kind = .touch ∨ event.kind = .lift ∨
    event.kind = .positionX ∨ event.kind = .positionY

instance (event : InputEvent) : Decidable event.ReadsSlot :=
  inferInstanceAs
    (Decidable
      (event.kind = .touch ∨ event.kind = .lift ∨
        event.kind = .positionX ∨ event.kind = .positionY))

/- Whether the last slot number is in the table. -/
def InputEvent.slotInside
    (event : InputEvent)
    (inside : Bool) : Bool :=
  if event.kind = .slot then
    event.value.toUInt32.toNat < defaultIdMapSize
  else
    inside

/-
  Between a slot number outside the table and the next slot
  number, no event looks up the current slot. `inside` tells
  whether the slot number before the stream is in the table.
-/
def SlotsGuarded : Bool → List InputEvent → Prop
| _, [] => True
| inside, event :: stream =>
    (event.ReadsSlot → inside = true) ∧
      SlotsGuarded (event.slotInside inside) stream

instance decidableSlotsGuarded
    (inside : Bool)
    (stream : List InputEvent) :
    Decidable (SlotsGuarded inside stream) :=
  match stream with
  | [] => .isTrue trivial
  | event :: stream =>
      have := decidableSlotsGuarded (event.slotInside inside)
        stream
      inferInstanceAs
        (Decidable
          ((event.ReadsSlot → inside = true) ∧
            SlotsGuarded (event.slotInside inside) stream))

end FzEvent

------------------------------------------------------------
-- The Index through the Calls
------------------------------------------------------------

namespace FzEvent

open Transition

namespace Parser

variable {s t : Parser} {event : InputEvent}

/-
  An index outside the table is behind a slot number, so the
  next id is not swallowed.
-/
def FlagArmed (s : Parser) : Prop :=
  ¬ s.CursorInRange → s.slotFlag ≠ 0

/- Outside the table every event that looks it up does so. -/
theorem inBounds_iff
    (hArmed : s.FlagArmed)
    (inside : Bool)
    (hInside : inside = true ↔ s.CursorInRange) :
    s.InBounds event ↔ (event.ReadsSlot → inside = true) := by
  rw [hInside]
  unfold InBounds UsesSlot InputEvent.ReadsSlot
  change (_ → s.CursorInRange) ↔ _
  unfold FlagArmed at hArmed
  cases hKind : event.kind with
  | touch =>
      simp only [true_or, true_implies]
      constructor
      · intro hUse
        by_contra hOutside
        exact hOutside (hUse (hArmed hOutside))
      · intro hCursor _
        exact hCursor
  | lift => simp
  | positionX => simp
  | positionY => simp
  | report => simp
  | slot => simp
  | key => simp
  | other => simp

/- A call outside the table does not return. -/
theorem parseEvent_eq_none
    (hOutside : ¬ s.InBounds event) :
    parseEvent event s = none := by
  unfold InBounds at hOutside
  rw [Classical.not_imp] at hOutside
  rcases hOutside with ⟨hUses, hCursor⟩
  have hIndex : s.eventIdMap.slotIndex? = none := by
    rw [EventIdMap.slotIndex?, dif_neg hCursor]
  have hNoted :
      (s.noteType event).eventIdMap.slotIndex? = none :=
    hIndex
  rw [parseEvent_eq]
  unfold UsesSlot at hUses
  cases hKind : event.kind with
  | touch =>
      simp only [hKind] at hUses
      have hFlag : (s.noteType event).slotFlag ≠ 0 := hUses
      simp only [parseTouch, if_neg hFlag,
        EventIdMap.addTouchId, hNoted]
      rfl
  | lift =>
      simp only [parseLift, EventIdMap.getCurrentTouchId,
        hNoted]
      rfl
  | positionX =>
      simp only [parsePosition, EventIdMap.getCurrentTouchId,
        hNoted]
      rfl
  | positionY =>
      simp only [parsePosition, EventIdMap.getCurrentTouchId,
        hNoted]
      rfl
  | report => simp [hKind] at hUses
  | slot => simp [hKind] at hUses
  | key => simp [hKind] at hUses
  | other => simp [hKind] at hUses

end Parser

end FzEvent

------------------------------------------------------------
-- Whole Streams
------------------------------------------------------------

namespace FzEvent

open Transition

namespace Parser

variable {s t : Parser} {event : InputEvent}

/- A slot number becomes the index, and arms the flag. -/
theorem step_of_slot
    (hKind : event.kind = .slot)
    (hStep : recorder.step s event = some t) :
    t.eventIdMap.currentSlot = event.value.toUInt32 ∧
      t.slotFlag = 1 := by
  have hParse := parseEvent_eq event s
  simp only [hKind] at hParse
  rw [recorder_step_of_parseEvent hParse] at hStep
  cases hStep
  simp [EventIdMap.changeCurrentTouchId]

/- Reports, keys and others leave the table and the flag. -/
theorem step_of_not_readsSlot
    (hKind : event.kind ≠ .slot)
    (hReads : ¬ event.ReadsSlot)
    (hStep : recorder.step s event = some t) :
    t.eventIdMap = s.eventIdMap ∧
      t.slotFlag = s.slotFlag := by
  have hParse := parseEvent_eq event s
  unfold InputEvent.ReadsSlot at hReads
  cases hEvent : event.kind with
  | touch => simp [hEvent] at hReads
  | lift => simp [hEvent] at hReads
  | positionX => simp [hEvent] at hReads
  | positionY => simp [hEvent] at hReads
  | slot => exact absurd hEvent hKind
  | report =>
      simp only [hEvent] at hParse
      rw [recorder_step_of_parseEvent hParse] at hStep
      cases hStep
      simp
  | key =>
      simp only [hEvent] at hParse
      have hKeep :
          (parseKey event (s.noteType event)).2.eventIdMap =
              s.eventIdMap ∧
            (parseKey event (s.noteType event)).2.slotFlag =
              s.slotFlag := by
        unfold parseKey
        split <;> exact ⟨rfl, rfl⟩
      rw [recorder_step_of_parseEvent hParse] at hStep
      rw [← Option.some.inj hStep, eventIdMap_clearAtEnd,
        slotFlag_clearAtEnd]
      exact hKeep
  | other =>
      simp only [hEvent] at hParse
      rw [recorder_step_of_parseEvent hParse] at hStep
      cases hStep
      simp

/-
  The step lemma: after a call inside the table `slotInside`
  tells where the index is, and outside the table the flag is
  armed.
-/
theorem cursorInRange_step
    {inside : Bool}
    (hArmed : s.FlagArmed)
    (hInside : inside = true ↔ s.CursorInRange)
    (hInBounds : s.InBounds event)
    (hStep : recorder.step s event = some t) :
    (event.slotInside inside = true ↔ t.CursorInRange) ∧
      t.FlagArmed := by
  unfold InputEvent.slotInside
  by_cases hKind : event.kind = .slot
  · rcases step_of_slot hKind hStep with ⟨hCursor, hFlag⟩
    rw [if_pos hKind, decide_eq_true_iff]
    refine ⟨?_, ?_⟩
    · rw [CursorInRange, hCursor]
    · intro _
      rw [hFlag]
      decide
  · rw [if_neg hKind, hInside]
    by_cases hCursor : s.CursorInRange
    · have hRange : event.SlotInRange :=
        fun hSlot => absurd hSlot hKind
      rcases stepsExactly hCursor hRange with
        ⟨t', hStep', hNext, -⟩
      rw [hStep] at hStep'
      cases hStep'
      refine ⟨iff_of_true hCursor hNext, ?_⟩
      intro hOutside
      exact absurd hNext hOutside
    · have hReads : ¬ event.ReadsSlot := by
        intro hReads
        have hTrue :=
          (inBounds_iff hArmed inside hInside).mp hInBounds
            hReads
        exact hCursor (hInside.mp hTrue)
      rcases step_of_not_readsSlot hKind hReads hStep with
        ⟨hMap, hFlag⟩
      refine ⟨?_, ?_⟩
      · rw [CursorInRange, CursorInRange, hMap]
      · intro _
        rw [hFlag]
        exact hArmed hCursor

end Parser

/- A stream is read to its end if every access is inside. -/
theorem isSome_exec_iff_inBounds
    (s : Parser)
    (stream : List InputEvent) :
    (recorder.exec s stream).isSome ↔
      recorder.Meets Parser.InBounds s stream := by
  induction stream generalizing s with
  | nil => exact iff_of_true rfl trivial
  | cons event stream ih =>
      rw [System.meets_cons_iff, System.exec_cons]
      by_cases hInBounds : s.InBounds event
      · rcases Parser.exists_parseEvent hInBounds with
          ⟨ret, t, hParse, -⟩
        have hStep := recorder_step_of_parseEvent hParse
        rw [hStep, Option.bind_some, ih]
        simp [hInBounds]
      · have hStep : recorder.step s event = none := by
          simp [recorder, Parser.recordEvent,
            Parser.parseEvent_eq_none hInBounds]
        rw [hStep]
        simp [hInBounds]

/- The run lemma, from an index that `inside` describes. -/
theorem inBounds_iff_slotsGuarded_from
    {s : Parser}
    {inside : Bool}
    (hArmed : s.FlagArmed)
    (hInside : inside = true ↔ s.CursorInRange)
    (stream : List InputEvent) :
    recorder.Meets Parser.InBounds s stream ↔
      SlotsGuarded inside stream := by
  induction stream generalizing s inside with
  | nil => exact Iff.rfl
  | cons event stream ih =>
      rw [System.meets_cons_iff, SlotsGuarded,
        Parser.inBounds_iff hArmed inside hInside]
      refine and_congr_right ?_
      intro hGuarded
      have hInBounds :=
        (Parser.inBounds_iff hArmed inside hInside).mpr
          hGuarded
      rcases Parser.exists_parseEvent hInBounds with
        ⟨ret, t, hParse, -⟩
      have hStep := recorder_step_of_parseEvent hParse
      rcases Parser.cursorInRange_step hArmed hInside
        hInBounds hStep with ⟨hNext, hArmedNext⟩
      rw [hStep]
      simp only [Option.some.injEq, forall_eq']
      exact ih hArmedNext hNext

/-
  Every access to `pair[]` that the calls on a stream make is
  inside if and only if no slot number outside is looked up.
-/
theorem inBounds_iff_slotsGuarded
    (stream : List InputEvent) :
    (recorder.Meets Parser.InBounds recorder.init stream ↔
      SlotsGuarded true stream) ∧
      ((recorder.exec recorder.init stream).isSome ↔
        SlotsGuarded true stream) := by
  have hCursor : recorder.init.CursorInRange := by
    unfold Parser.CursorInRange
    decide
  have hArmed : recorder.init.FlagArmed :=
    fun hOutside => absurd hCursor hOutside
  have hMeets :=
    inBounds_iff_slotsGuarded_from hArmed
      (iff_of_true rfl hCursor) stream
  exact ⟨hMeets,
    (isSome_exec_iff_inBounds _ stream).trans hMeets⟩

/- A contact in slot 40 is written behind the table. -/
theorem not_inBounds_slotForty :
    ¬ recorder.Meets Parser.InBounds recorder.init
        [.abs absMtSlot 40, .abs absMtTrackingId 5] ∧
      recorder.exec recorder.init
          [.abs absMtSlot 40, .abs absMtTrackingId 5] =
        none := by
  have hRun :
      (recorder.exec recorder.init
        [.abs absMtSlot 40,
          .abs absMtTrackingId 5]).isSome = false := by
    decide
  refine ⟨?_, Option.isNone_iff_eq_none.mp ?_⟩
  · rw [← isSome_exec_iff_inBounds, hRun]
    decide
  · rw [← Option.not_isSome, hRun]
    rfl

end FzEvent

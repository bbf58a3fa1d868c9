import FzEvent.Recorder.Gesture
import Mathlib.Data.Finset.Card

/-
  The counter `slot_count` against the slot table `pair[]`,
  over any stream of events.

  A pop does not look whether the current slot is registered,
  and a push does not look whether it is free, so the counter
  can leave the table. It stays exact as long as no such step
  is taken.

  Main declarations:
    * `EventIdMap.registered` and `EventIdMap.CountExact`
    * `Parser.KeepsCount`
    * `FzEvent.countExact_iff_keepsCount`
-/

------------------------------------------------------------
-- Registered Slots
------------------------------------------------------------

namespace FzEvent

namespace EventIdMap

/- The elements of `pair[]` whose value is an id. -/
def registered
    (m : EventIdMap) : Finset (Fin defaultIdMapSize) :=
  Finset.univ.filter (fun i => (m.pair i).value ≠ 0xffffffff)

/- The counter is the number of registered slots. -/
def CountExact (m : EventIdMap) : Prop :=
  m.slotCount = m.registered.card

@[simp] theorem mem_registered_iff
    (m : EventIdMap)
    (i : Fin defaultIdMapSize) :
    i ∈ m.registered ↔ (m.pair i).value ≠ 0xffffffff := by
  simp [registered]

@[simp] theorem registered_clear :
    clear.registered = ∅ := by
  ext i
  simp [clear, Pair.empty]

theorem countExact_clear : clear.CountExact := by
  rw [CountExact, registered_clear]
  rfl

/- Writing an id into an element registers it. -/
theorem registered_update_of_ne
    (m : EventIdMap)
    (i : Fin defaultIdMapSize)
    {pair : Pair}
    (hId : pair.value ≠ 0xffffffff)
    (count : Int) :
    ({ m with
        pair := Function.update m.pair i pair
        slotCount := count } : EventIdMap).registered =
      insert i m.registered := by
  ext j
  by_cases hIndex : j = i
  · simp [hIndex, hId]
  · simp [hIndex]

/- Writing the empty pair into an element frees it. -/
theorem registered_update_empty
    (m : EventIdMap)
    (i : Fin defaultIdMapSize)
    (count : Int) :
    ({ m with
        pair := Function.update m.pair i Pair.empty
        slotCount := count } : EventIdMap).registered =
      m.registered.erase i := by
  ext j
  by_cases hIndex : j = i
  · simp [hIndex, Pair.empty]
  · simp [hIndex]

/- A push keeps the counter exact on a free slot only. -/
theorem countExact_push_iff
    {m : EventIdMap}
    (hExact : m.CountExact)
    (i : Fin defaultIdMapSize)
    (pair : Pair)
    (hId : pair.value ≠ 0xffffffff) :
    ({ m with
        pair := Function.update m.pair i pair
        slotCount := m.slotCount + 1 } :
      EventIdMap).CountExact ↔ i ∉ m.registered := by
  rw [CountExact, m.registered_update_of_ne i hId]
  rw [CountExact] at hExact
  by_cases hMem : i ∈ m.registered
  · rw [Finset.insert_eq_of_mem hMem]
    simp only [hMem, not_true, iff_false]
    omega
  · rw [Finset.card_insert_of_notMem hMem]
    simp only [hMem, not_false_eq_true, iff_true]
    omega

/- A pop keeps the counter exact on a registered slot only. -/
theorem countExact_pop_iff
    {m : EventIdMap}
    (hExact : m.CountExact)
    (i : Fin defaultIdMapSize) :
    ({ m with
        pair := Function.update m.pair i Pair.empty
        slotCount := m.slotCount - 1 } :
      EventIdMap).CountExact ↔ i ∈ m.registered := by
  rw [CountExact, m.registered_update_empty i]
  rw [CountExact] at hExact
  by_cases hMem : i ∈ m.registered
  · have hPos := Finset.card_pos.mpr ⟨i, hMem⟩
    rw [Finset.card_erase_of_mem hMem]
    simp only [hMem, iff_true]
    omega
  · rw [Finset.erase_eq_of_notMem hMem]
    simp only [hMem, iff_false]
    omega

end EventIdMap

end FzEvent

------------------------------------------------------------
-- Steps that Keep the Counter
------------------------------------------------------------

namespace FzEvent

/- A slot number inside the table. -/
def InputEvent.SlotInRange (event : InputEvent) : Prop :=
  event.kind = .slot →
    event.value.toUInt32.toNat < defaultIdMapSize

instance (event : InputEvent) :
    Decidable event.SlotInRange :=
  inferInstanceAs
    (Decidable
      (event.kind = .slot →
        event.value.toUInt32.toNat < defaultIdMapSize))

namespace EventIdMap

/- The current slot holds an id. -/
def CurrentRegistered (m : EventIdMap) : Prop :=
  ∃ pair ∈ m.getCurrentTouchId, pair.value ≠ 0xffffffff

instance (m : EventIdMap) :
    Decidable m.CurrentRegistered :=
  inferInstanceAs
    (Decidable
      (∃ pair ∈ m.getCurrentTouchId,
        pair.value ≠ 0xffffffff))

theorem currentRegistered_iff
    {m : EventIdMap}
    {i : Fin defaultIdMapSize}
    (hIndex : m.slotIndex? = some i) :
    m.CurrentRegistered ↔ i ∈ m.registered := by
  simp [CurrentRegistered, getCurrentTouchId, hIndex]

end EventIdMap

namespace Parser

/-
  A push goes into a slot that is free, unless `slot_flag`
  swallows it. A pop goes to a slot that is registered,
  unless the counter takes it for the last one, where the
  whole table is cleared.
-/
def KeepsCount
    (s : Parser)
    (event : InputEvent) : Prop :=
  match event.kind with
  | .touch =>
      s.slotFlag = 0 ∨ ¬ s.eventIdMap.CurrentRegistered
  | .lift =>
      s.eventIdMap.slotCount = 1 ∨
        s.eventIdMap.CurrentRegistered
  | _ => True

instance (s : Parser) (event : InputEvent) :
    Decidable (s.KeepsCount event) := by
  unfold KeepsCount
  exact match event.kind with
    | .touch =>
        inferInstanceAs
          (Decidable
            (s.slotFlag = 0 ∨ ¬ s.eventIdMap.CurrentRegistered))
    | .lift =>
        inferInstanceAs
          (Decidable
            (s.eventIdMap.slotCount = 1 ∨
              s.eventIdMap.CurrentRegistered))
    | .report | .slot | .positionX => .isTrue trivial
    | .positionY | .key | .other => .isTrue trivial

/- The cursor is inside the table. -/
def CursorInRange (s : Parser) : Prop :=
  s.eventIdMap.currentSlot.toNat < defaultIdMapSize

/-
  One call returns, keeps the cursor inside the table, and
  keeps an exact counter exact just when the event meets the
  condition.
-/
def StepsExactly
    (s : Parser)
    (event : InputEvent) : Prop :=
  ∃ t,
    recorder.step s event = some t ∧
      t.CursorInRange ∧
        (s.eventIdMap.CountExact →
          (t.eventIdMap.CountExact ↔ s.KeepsCount event))

/- A call that leaves the table and the counter alone. -/
theorem stepsExactly_of_eq
    {s t : Parser}
    {event : InputEvent}
    {ret : ParseInfo}
    (hCursor : s.CursorInRange)
    (hParse : parseEvent event s = some (ret, t))
    (hMap : t.eventIdMap = s.eventIdMap)
    (hKeeps : s.KeepsCount event) :
    s.StepsExactly event := by
  refine ⟨_, recorder_step_of_parseEvent hParse, ?_, ?_⟩
  · simpa [CursorInRange, hMap] using hCursor
  · intro hExact
    simpa [hMap, hKeeps] using hExact

theorem stepsExactly_of_touch
    {s : Parser}
    {event : InputEvent}
    (hCursor : s.CursorInRange)
    (hKind : event.kind = .touch) :
    s.StepsExactly event := by
  have hIndex :
      (s.noteType event).eventIdMap.slotIndex? =
        some ⟨_, hCursor⟩ :=
    EventIdMap.slotIndex?_of_lt hCursor
  have hRegistered :
      s.eventIdMap.CurrentRegistered ↔
        ⟨_, hCursor⟩ ∈ s.eventIdMap.registered :=
    EventIdMap.currentRegistered_iff hIndex
  have hParse :
      parseEvent event s =
        parseTouch event (s.noteType event) := by
    rw [parseEvent_eq, hKind]
  by_cases hFlag : s.slotFlag = 0
  · have hSwallowed :
        parseTouch event (s.noteType event) =
          some (.parseSkip, s.noteType event) :=
      parseTouch_of_flag_eq hFlag
    rw [hSwallowed] at hParse
    exact stepsExactly_of_eq hCursor hParse rfl
      (by simp [KeepsCount, hKind, hFlag])
  · have hId :=
      InputEvent.toUInt32_value_ne_of_kind_touch hKind
    rw [parseTouch_of_flag_ne hIndex hFlag] at hParse
    refine ⟨_, recorder_step_of_parseEvent hParse, ?_, ?_⟩
    · simpa [CursorInRange] using hCursor
    · intro hExact
      have hPush :=
        EventIdMap.countExact_push_iff hExact ⟨_, hCursor⟩
          ⟨UInt32.ofInt s.eventIdMap.slotCount,
            event.value.toUInt32⟩ hId
      rw [eventIdMap_clearAtEnd, KeepsCount, hKind]
      simp only [hFlag, false_or]
      rw [hRegistered]
      exact hPush

theorem stepsExactly_of_lift
    {s : Parser}
    {event : InputEvent}
    (hCursor : s.CursorInRange)
    (hKind : event.kind = .lift) :
    s.StepsExactly event := by
  have hIndex :
      (s.noteType event).eventIdMap.slotIndex? =
        some ⟨_, hCursor⟩ :=
    EventIdMap.slotIndex?_of_lt hCursor
  have hRegistered :
      s.eventIdMap.CurrentRegistered ↔
        ⟨_, hCursor⟩ ∈ s.eventIdMap.registered :=
    EventIdMap.currentRegistered_iff hIndex
  have hParse :
      parseEvent event s =
        parseLift event (s.noteType event) := by
    rw [parseEvent_eq, hKind]
  by_cases hLast : s.eventIdMap.slotCount - 1 = 0
  · have hOne : s.eventIdMap.slotCount = 1 := by omega
    rw [parseLift_of_last hIndex hLast] at hParse
    refine ⟨_, recorder_step_of_parseEvent hParse, ?_, ?_⟩
    · simp [CursorInRange, EventIdMap.clear]
    · intro hExact
      rw [eventIdMap_clearAtEnd, KeepsCount, hKind]
      simp [hOne, EventIdMap.countExact_clear]
  · have hNotOne : s.eventIdMap.slotCount ≠ 1 := by omega
    rw [parseLift_of_not_last hIndex hLast] at hParse
    refine ⟨_, recorder_step_of_parseEvent hParse, ?_, ?_⟩
    · simpa [CursorInRange] using hCursor
    · intro hExact
      have hPop :=
        EventIdMap.countExact_pop_iff hExact ⟨_, hCursor⟩
      rw [eventIdMap_clearAtEnd, KeepsCount, hKind]
      simp only [hNotOne, false_or]
      rw [hRegistered]
      exact hPop

/- One call from a cursor inside the table. -/
theorem stepsExactly
    {s : Parser}
    {event : InputEvent}
    (hCursor : s.CursorInRange)
    (hRange : event.SlotInRange) :
    s.StepsExactly event := by
  have hIndex :
      (s.noteType event).eventIdMap.slotIndex? =
        some ⟨_, hCursor⟩ :=
    EventIdMap.slotIndex?_of_lt hCursor
  have hParse := parseEvent_eq event s
  cases hKind : event.kind with
  | touch => exact stepsExactly_of_touch hCursor hKind
  | lift => exact stepsExactly_of_lift hCursor hKind
  | slot =>
      simp only [hKind] at hParse
      refine ⟨_, recorder_step_of_parseEvent hParse, ?_, ?_⟩
      · simpa [CursorInRange, parseSlot,
          EventIdMap.changeCurrentTouchId] using hRange hKind
      · intro hExact
        rw [eventIdMap_clearAtEnd, KeepsCount, hKind]
        exact iff_of_true hExact trivial
  | report =>
      simp only [hKind] at hParse
      exact stepsExactly_of_eq hCursor hParse rfl
        (by simp [KeepsCount, hKind])
  | positionX =>
      rcases exists_parsePosition event hIndex with
        ⟨ret, t, hPosition, hRet, hMap, hFlag⟩
      simp only [hKind, hPosition] at hParse
      exact stepsExactly_of_eq hCursor hParse hMap
        (by simp [KeepsCount, hKind])
  | positionY =>
      rcases exists_parsePosition event hIndex with
        ⟨ret, t, hPosition, hRet, hMap, hFlag⟩
      simp only [hKind, hPosition] at hParse
      exact stepsExactly_of_eq hCursor hParse hMap
        (by simp [KeepsCount, hKind])
  | key =>
      simp only [hKind] at hParse
      have hMap :
          (parseKey event (s.noteType event)).2.eventIdMap =
            s.eventIdMap := by
        unfold parseKey
        split <;> rfl
      exact stepsExactly_of_eq hCursor hParse hMap
        (by simp [KeepsCount, hKind])
  | other =>
      simp only [hKind] at hParse
      exact stepsExactly_of_eq hCursor hParse rfl
        (by simp [KeepsCount, hKind])

end Parser

end FzEvent

------------------------------------------------------------
-- Whole Streams
------------------------------------------------------------

namespace FzEvent

open Transition

/- A stream with all slot numbers inside the table runs. -/
theorem exists_exec_of_slotInRange
    {stream : List InputEvent}
    (hRange : ∀ event ∈ stream, event.SlotInRange)
    {s : Parser}
    (hCursor : s.CursorInRange) :
    ∃ t, recorder.exec s stream = some t ∧ t.CursorInRange := by
  refine recorder.exec_isSome_of_meets ?_ hCursor
    (recorder.meets_of_forall s hRange)
  intro s event hCursor hRange
  rcases Parser.stepsExactly hCursor hRange with
    ⟨t, hStep, hNext, -⟩
  exact ⟨t, hStep, hNext⟩

/-
  In every state the recorder goes through, the counter is
  the number of registered slots, exactly when every push
  that is not swallowed finds its slot free and every pop
  finds its slot registered or ends the session.
-/
theorem countExact_iff_keepsCount
    (stream : List InputEvent)
    (hRange : ∀ event ∈ stream, event.SlotInRange) :
    recorder.Always (fun s => s.eventIdMap.CountExact)
        recorder.init stream ↔
      recorder.Meets Parser.KeepsCount recorder.init
        stream := by
  have hCursor : recorder.init.CursorInRange := by
    unfold Parser.CursorInRange
    decide
  rcases exists_exec_of_slotInRange hRange hCursor with
    ⟨u, hRun, -⟩
  refine recorder.always_iff_meets_of_forall
    InputEvent.SlotInRange Parser.CursorInRange ?_ ?_ hRange
    hCursor EventIdMap.countExact_clear ?_
  · intro s event t hRange hCursor _ hStep
    rcases Parser.stepsExactly hCursor hRange with
      ⟨t', hStep', hNext, -⟩
    rw [hStep] at hStep'
    rw [Option.some.inj hStep']
    exact hNext
  · intro s event t hRange hCursor hExact hStep
    rcases Parser.stepsExactly hCursor hRange with
      ⟨t', hStep', -, hIff⟩
    rw [hStep] at hStep'
    rw [Option.some.inj hStep']
    exact hIff hExact
  · rw [hRun]
    rfl

/- One contact that goes down and lifts in slot 3. -/
def oneTouch : List InputEvent :=
  [.abs absMtSlot 3, .abs absMtTrackingId 7, .report,
    .abs absMtTrackingId (-1), .report]

theorem countExact_oneTouch :
    recorder.Always (fun s => s.eventIdMap.CountExact)
      recorder.init oneTouch :=
  (countExact_iff_keepsCount oneTouch (by decide)).mpr
    (by decide)

/-
  Recording attached while a finger is down: the first event
  lifts a contact that was never registered.
-/
theorem not_countExact_of_slotInRange :
    ¬ ∀ stream : List InputEvent,
      (∀ event ∈ stream, event.SlotInRange) →
        recorder.Always (fun s => s.eventIdMap.CountExact)
          recorder.init stream := by
  intro hAll
  have hAlways :=
    hAll [.abs absMtTrackingId (-1)] (by decide)
  have hCount :
      (recorder.exec recorder.init
        [.abs absMtTrackingId (-1)]).map
          (fun s => s.eventIdMap.slotCount) = some (-1) := by
    decide
  rcases Option.map_eq_some_iff.mp hCount with
    ⟨t, hRun, hNegative⟩
  have hExact : t.eventIdMap.CountExact :=
    hAlways _ [] t (List.append_nil _).symm hRun
  rw [EventIdMap.CountExact, hNegative] at hExact
  exact absurd hExact (by simp)

end FzEvent

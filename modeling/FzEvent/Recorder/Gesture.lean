import FzEvent.Recorder.ParseEvent

/-
  The gestures that the recorder completes over a stream, and
  how long they can get.

  Main declarations:
    * `Parser.exists_entries_parseEvent`
    * `Parser.roomFor` and `Parser.count_parseEvent`
    * `Parser.completed`
    * `Parser.count_le_of_mem_completed`
-/

------------------------------------------------------------
-- Entries Added by One Call
------------------------------------------------------------

namespace FzEvent

namespace Parser

/-
  The entry can come from the event: it has the time of the
  event and, unless it is a report, the code of an event that
  is neither a slot change nor without a meaning.
-/
def StemsFrom
    (entry : Entry)
    (event : InputEvent) : Prop :=
  entry.tv = event.time ∧
    (entry.code = synReport ∨
      (entry.code = event.code ∧ event.kind ≠ .slot ∧
        event.kind ≠ .other))

/-
  A call appends at most two entries to the buffer, and two
  only when it completes a gesture.
-/
structure Appends
    (s : Parser)
    (event : InputEvent)
    (ret : ParseInfo)
    (t : Parser)
    (added : List Entry) : Prop where
  entries_eq : t.ei.entries = s.ei.entries ++ added
  length_le : added.length ≤ 2
  length_le_of_ne : ret ≠ .parseEnd → added.length ≤ 1
  stemsFrom : ∀ entry ∈ added, StemsFrom entry event

/- A call that adds the event to the buffer. -/
theorem appends_add
    {s t : Parser}
    {event : InputEvent}
    {id : Int32}
    {value : UInt32}
    (hBuffer :
      t.ei = s.ei.add event.time id event.code value)
    (hSlot : event.kind ≠ .slot)
    (hOther : event.kind ≠ .other)
    (ret : ParseInfo) :
    ∃ added, Appends s event ret t added := by
  rcases s.ei.exists_entries_add event.time id event.code value with
    ⟨added, hEntries, hLength, hStems⟩
  refine ⟨added, ?_, by omega, fun _ => hLength, ?_⟩
  · rw [hBuffer, hEntries]
  · intro entry hMem
    rcases hStems entry hMem with ⟨hTime, hCode⟩
    exact ⟨hTime, Or.inr ⟨hCode, hSlot, hOther⟩⟩

/- A call that leaves the buffer alone. -/
theorem appends_nil
    {s t : Parser}
    {event : InputEvent}
    (hBuffer : t.ei = s.ei)
    (ret : ParseInfo) :
    ∃ added, Appends s event ret t added := by
  refine ⟨[], ?_, by simp, by simp, by simp⟩
  rw [hBuffer, List.append_nil]

theorem appends_parseLift
    {event : InputEvent}
    {s t : Parser}
    {ret : ParseInfo}
    (hKind : event.kind = .lift)
    (hParse : parseLift event s = some (ret, t)) :
    ∃ added, Appends s event ret t added := by
  have hSlot : event.kind ≠ .slot := by simp [hKind]
  have hOther : event.kind ≠ .other := by simp [hKind]
  unfold parseLift at hParse
  simp only [Option.bind_eq_bind, Option.bind_eq_some_iff]
    at hParse
  rcases hParse with ⟨pair, hPair, m, hMap, hParse⟩
  split at hParse
  · cases hParse
    rcases s.ei.exists_entries_add event.time pair.value.toInt32
          event.code event.value.toUInt32 with
      ⟨first, hFirst, hFirstLength, hFirstStems⟩
    rcases (s.ei.add event.time pair.value.toInt32 event.code
          event.value.toUInt32).exists_entries_add event.time
            (-1) synReport 0 with
      ⟨last, hLast, hLastLength, hLastStems⟩
    refine ⟨first ++ last, ?_, ?_, ?_, ?_⟩
    · rw [hLast, hFirst, List.append_assoc]
    · rw [List.length_append]
      omega
    · intro hNot
      exact absurd rfl hNot
    · intro entry hMem
      rcases List.mem_append.mp hMem with hMem | hMem
      · rcases hFirstStems entry hMem with ⟨hTime, hCode⟩
        exact ⟨hTime, Or.inr ⟨hCode, hSlot, hOther⟩⟩
      · rcases hLastStems entry hMem with ⟨hTime, hCode⟩
        exact ⟨hTime, Or.inl hCode⟩
  · cases hParse
    exact appends_add rfl hSlot hOther _

theorem appends_parseTouch
    {event : InputEvent}
    {s t : Parser}
    {ret : ParseInfo}
    (hKind : event.kind = .touch)
    (hParse : parseTouch event s = some (ret, t)) :
    ∃ added, Appends s event ret t added := by
  unfold parseTouch at hParse
  split at hParse
  · cases hParse
    exact appends_nil rfl _
  · simp only [Option.bind_eq_bind, Option.bind_eq_some_iff]
      at hParse
    rcases hParse with ⟨m, hMap, pair, hPair, hParse⟩
    cases hParse
    exact appends_add rfl (by simp [hKind]) (by simp [hKind])
      _

theorem appends_parsePosition
    {event : InputEvent}
    {s t : Parser}
    {ret : ParseInfo}
    (hKind :
      event.kind = .positionX ∨ event.kind = .positionY)
    (hParse : parsePosition event s = some (ret, t)) :
    ∃ added, Appends s event ret t added := by
  have hSlot : event.kind ≠ .slot := by
    rcases hKind with hKind | hKind <;> simp [hKind]
  have hOther : event.kind ≠ .other := by
    rcases hKind with hKind | hKind <;> simp [hKind]
  unfold parsePosition at hParse
  simp only [Option.bind_eq_bind, Option.bind_eq_some_iff]
    at hParse
  rcases hParse with ⟨pair, hPair, hParse⟩
  split at hParse
  · cases hParse
    exact appends_nil rfl _
  · cases hParse
    exact appends_add rfl hSlot hOther _

theorem appends_parseKey
    {event : InputEvent}
    (hKind : event.kind = .key)
    (s : Parser) :
    ∃ added,
      Appends s event (parseKey event s).1
        (parseKey event s).2 added := by
  unfold parseKey
  split
  · exact appends_nil rfl _
  · exact appends_add rfl (by simp [hKind]) (by simp [hKind])
      _

/- Every call appends to the buffer. -/
theorem exists_entries_parseEvent
    {event : InputEvent}
    {s t : Parser}
    {ret : ParseInfo}
    (hParse : parseEvent event s = some (ret, t)) :
    ∃ added, Appends s event ret t added := by
  rw [parseEvent_eq] at hParse
  suffices hNoted :
      ∃ added,
        Appends (s.noteType event) event ret t added by
    rcases hNoted with ⟨added, hAppends⟩
    exact ⟨added, hAppends.entries_eq, hAppends.length_le,
      hAppends.length_le_of_ne, hAppends.stemsFrom⟩
  cases hKind : event.kind with
  | report =>
      simp only [hKind, Option.some.injEq] at hParse
      cases hParse
      exact appends_add rfl (by simp [hKind])
        (by simp [hKind]) _
  | touch =>
      simp only [hKind] at hParse
      exact appends_parseTouch hKind hParse
  | lift =>
      simp only [hKind] at hParse
      exact appends_parseLift hKind hParse
  | slot =>
      simp only [hKind, Option.some.injEq] at hParse
      cases hParse
      apply appends_nil
      rfl
  | positionX =>
      simp only [hKind] at hParse
      exact appends_parsePosition (Or.inl hKind) hParse
  | positionY =>
      simp only [hKind] at hParse
      exact appends_parsePosition (Or.inr hKind) hParse
  | key =>
      simp only [hKind, Option.some.injEq] at hParse
      have hKey := appends_parseKey hKind (s.noteType event)
      rw [hParse] at hKey
      exact hKey
  | other =>
      simp only [hKind, Option.some.injEq] at hParse
      cases hParse
      exact appends_nil rfl _

end Parser

end FzEvent

------------------------------------------------------------
-- Calls that Complete a Gesture
------------------------------------------------------------

namespace FzEvent

namespace Parser

/- The call looks up the current slot in the table. -/
def UsesSlot
    (s : Parser)
    (event : InputEvent) : Prop :=
  match event.kind with
  | .touch => s.slotFlag ≠ 0
  | .lift => True
  | .positionX => True
  | .positionY => True
  | _ => False

/- The call does not leave the table. -/
def InBounds
    (s : Parser)
    (event : InputEvent) : Prop :=
  s.UsesSlot event →
    s.eventIdMap.currentSlot.toNat < defaultIdMapSize

/-
  The event completes a gesture: the counter's last lift, or
  a key that is neither discarded nor `BTN_TOUCH`.
-/
def Completes
    (s : Parser)
    (event : InputEvent) : Prop :=
  match event.kind with
  | .lift => s.eventIdMap.slotCount - 1 = 0
  | .key =>
      checkDiscardEvent event.code = false ∧
        event.code ≠ btnTouch
  | _ => False

instance (s : Parser) (event : InputEvent) :
    Decidable (s.UsesSlot event) := by
  unfold UsesSlot
  exact match event.kind with
    | .touch => inferInstanceAs (Decidable (s.slotFlag ≠ 0))
    | .lift | .positionX | .positionY => .isTrue trivial
    | .report | .slot | .key | .other => .isFalse not_false

instance (s : Parser) (event : InputEvent) :
    Decidable (s.InBounds event) :=
  inferInstanceAs
    (Decidable
      (s.UsesSlot event →
        s.eventIdMap.currentSlot.toNat < defaultIdMapSize))

instance (s : Parser) (event : InputEvent) :
    Decidable (s.Completes event) := by
  unfold Completes
  exact match event.kind with
    | .lift =>
        inferInstanceAs
          (Decidable (s.eventIdMap.slotCount - 1 = 0))
    | .key =>
        inferInstanceAs
          (Decidable
            (checkDiscardEvent event.code = false ∧
              event.code ≠ btnTouch))
    | .report | .touch | .slot => .isFalse not_false
    | .positionX | .positionY | .other => .isFalse not_false

/- Inside the table the call returns, and says so. -/
theorem exists_parseEvent
    {s : Parser}
    {event : InputEvent}
    (hInBounds : s.InBounds event) :
    ∃ ret t,
      parseEvent event s = some (ret, t) ∧
        (ret = .parseEnd ↔ s.Completes event) := by
  rw [parseEvent_eq]
  unfold InBounds UsesSlot at hInBounds
  unfold Completes
  cases hKind : event.kind with
  | report => exact ⟨_, _, rfl, by simp⟩
  | touch =>
      by_cases hFlag : s.slotFlag = 0
      · have hSwallowed :
            parseTouch event (s.noteType event) =
              some (.parseSkip, s.noteType event) :=
          parseTouch_of_flag_eq hFlag
        exact ⟨_, _, hSwallowed, by simp⟩
      · simp only [hKind] at hInBounds
        have hIndex :
            (s.noteType event).eventIdMap.slotIndex? = _ :=
          EventIdMap.slotIndex?_of_lt (hInBounds hFlag)
        have hPushed :
            parseTouch event (s.noteType event) = _ :=
          parseTouch_of_flag_ne hIndex hFlag
        exact ⟨_, _, hPushed, by simp⟩
  | lift =>
      simp only [hKind] at hInBounds
      have hIndex :
          (s.noteType event).eventIdMap.slotIndex? = _ :=
        EventIdMap.slotIndex?_of_lt (hInBounds trivial)
      by_cases hLast : s.eventIdMap.slotCount - 1 = 0
      · exact ⟨_, _, parseLift_of_last hIndex hLast,
          by simp [hLast]⟩
      · exact ⟨_, _, parseLift_of_not_last hIndex hLast,
          by simp [hLast]⟩
  | slot => exact ⟨_, _, rfl, by simp⟩
  | positionX =>
      simp only [hKind] at hInBounds
      have hIndex :
          (s.noteType event).eventIdMap.slotIndex? = _ :=
        EventIdMap.slotIndex?_of_lt (hInBounds trivial)
      rcases exists_parsePosition event hIndex with
        ⟨ret, t, hParse, hRet, -⟩
      exact ⟨ret, t, hParse, by simpa using hRet⟩
  | positionY =>
      simp only [hKind] at hInBounds
      have hIndex :
          (s.noteType event).eventIdMap.slotIndex? = _ :=
        EventIdMap.slotIndex?_of_lt (hInBounds trivial)
      rcases exists_parsePosition event hIndex with
        ⟨ret, t, hParse, hRet, -⟩
      exact ⟨ret, t, hParse, by simpa using hRet⟩
  | key =>
      refine ⟨(parseKey event (s.noteType event)).1,
        (parseKey event (s.noteType event)).2, rfl, ?_⟩
      unfold parseKey
      by_cases hDiscard : checkDiscardEvent event.code = true
      · simp [hDiscard]
      · rw [if_neg hDiscard]
        by_cases hTouch : event.code = btnTouch
        · rw [if_pos hTouch]
          simp [hTouch]
        · rw [if_neg hTouch]
          simpa [hTouch] using hDiscard
  | other => exact ⟨_, _, rfl, by simp⟩

/- Only a lift or a key completes a gesture. -/
theorem kind_of_parseEnd
    {s t : Parser}
    {event : InputEvent}
    (hParse : parseEvent event s = some (.parseEnd, t)) :
    event.kind = .lift ∨ event.kind = .key := by
  rw [parseEvent_eq] at hParse
  cases hKind : event.kind with
  | lift => exact Or.inl rfl
  | key => exact Or.inr rfl
  | report => simp [hKind, parseReport] at hParse
  | touch =>
      simp only [hKind, parseTouch] at hParse
      split at hParse
      · cases hParse
      · simp only [Option.bind_eq_bind,
          Option.bind_eq_some_iff] at hParse
        rcases hParse with ⟨m, hMap, pair, hPair, hParse⟩
        cases hParse
  | slot => simp [hKind, parseSlot] at hParse
  | positionX =>
      simp only [hKind, parsePosition, Option.bind_eq_bind,
        Option.bind_eq_some_iff] at hParse
      rcases hParse with ⟨pair, hPair, hParse⟩
      split at hParse <;> cases hParse
  | positionY =>
      simp only [hKind, parsePosition, Option.bind_eq_bind,
        Option.bind_eq_some_iff] at hParse
      rcases hParse with ⟨pair, hPair, hParse⟩
      split at hParse <;> cases hParse
  | other => simp [hKind] at hParse

/-
  A completed gesture has an entry, unless it is made of the
  reserved key 0, which `add` takes for a report.
-/
theorem count_ne_zero_of_parseEnd
    {s t : Parser}
    {event : InputEvent}
    (hParse : parseEvent event s = some (.parseEnd, t))
    (hReport : event.code = synReport → s.ei.count ≠ 0) :
    t.ei.count ≠ 0 := by
  have hReport' :
      event.code = synReport →
        (s.noteType event).ei.count ≠ 0 := hReport
  have hKinds := kind_of_parseEnd hParse
  rw [parseEvent_eq] at hParse
  rcases hKinds with hKind | hKind
  · simp only [hKind, parseLift, Option.bind_eq_bind,
      Option.bind_eq_some_iff] at hParse
    rcases hParse with ⟨pair, hPair, m, hMap, hParse⟩
    split at hParse
    · cases hParse
      have hFirst :=
        EventInfo.count_add_ne_zero hReport' event.time
          pair.value.toInt32 event.value.toUInt32
      exact EventInfo.count_add_ne_zero
        (fun _ => hFirst) _ _ _
    · cases hParse
  · simp only [hKind, Option.some.injEq, parseKey] at hParse
    split at hParse
    · cases hParse
    · rw [← (Prod.mk.inj hParse).2]
      exact EventInfo.count_add_ne_zero hReport' _ _ _

end Parser

end FzEvent

------------------------------------------------------------
-- The Room that an Event Takes
------------------------------------------------------------

namespace FzEvent

namespace Parser

/-
  How many entries the call adds for the event: two for the
  lift that takes the counter to 0, none for an event that is
  swallowed, dropped or discarded, and one for any other.
-/
def roomFor
    (s : Parser)
    (event : InputEvent) : Nat :=
  match event.kind with
  | .report => s.ei.roomFor event.code
  | .touch => if s.slotFlag = 0 then 0 else 1
  | .lift => if s.eventIdMap.slotCount - 1 = 0 then 2 else 1
  | .positionX | .positionY =>
      if s.eventIdMap.getCurrentTouchId.map Pair.value =
          some 0xffffffff then
        0
      else
        1
  | .key =>
      if checkDiscardEvent event.code then
        0
      else
        s.ei.roomFor event.code
  | .slot | .other => 0

variable {event : InputEvent} {s t : Parser}
variable {ret : ParseInfo}

theorem count_parseLift
    (hKind : event.kind = .lift)
    (hParse : parseLift event s = some (ret, t)) :
    t.ei.count = s.ei.count + s.roomFor event := by
  have hCode : event.code ≠ synReport :=
    (InputEvent.abs_of_kind hKind (by decide)).2
  cases hIndex : s.eventIdMap.slotIndex? with
  | none =>
      simp [parseLift, EventIdMap.getCurrentTouchId, hIndex]
        at hParse
  | some i =>
      by_cases hLast : s.eventIdMap.slotCount - 1 = 0
      · rw [parseLift_of_last hIndex hLast] at hParse
        cases hParse
        have hFirst := s.ei.count_add_of_ne event.time
          (s.eventIdMap.pair i).value.toInt32
          event.value.toUInt32 hCode
        rw [EventInfo.count_add_report]
        · simp [roomFor, hKind, hLast, hFirst]
        · omega
        · exact EventInfo.endsWithReport_add_of_ne _ _ _ _
            hCode
      · rw [parseLift_of_not_last hIndex hLast] at hParse
        cases hParse
        simp [roomFor, hKind, hLast,
          EventInfo.count_add_of_ne _ _ _ _ hCode]

theorem count_parseTouch
    (hKind : event.kind = .touch)
    (hParse : parseTouch event s = some (ret, t)) :
    t.ei.count = s.ei.count + s.roomFor event := by
  have hCode : event.code ≠ synReport :=
    (InputEvent.abs_of_kind hKind (by decide)).2
  by_cases hFlag : s.slotFlag = 0
  · rw [parseTouch_of_flag_eq hFlag] at hParse
    cases hParse
    simp [roomFor, hKind, hFlag]
  · cases hIndex : s.eventIdMap.slotIndex? with
    | none =>
        simp [parseTouch, hFlag, EventIdMap.addTouchId, hIndex]
          at hParse
    | some i =>
        rw [parseTouch_of_flag_ne hIndex hFlag] at hParse
        cases hParse
        simp [roomFor, hKind, hFlag,
          EventInfo.count_add_of_ne _ _ _ _ hCode]

theorem count_parsePosition
    (hKind :
      event.kind = .positionX ∨ event.kind = .positionY)
    (hParse : parsePosition event s = some (ret, t)) :
    t.ei.count = s.ei.count + s.roomFor event := by
  have hCode : event.code ≠ synReport := by
    rcases hKind with hKind | hKind <;>
      exact (InputEvent.abs_of_kind hKind (by decide)).2
  have hRoom :
      s.roomFor event =
        if s.eventIdMap.getCurrentTouchId.map Pair.value =
            some 0xffffffff then
          0
        else
          1 := by
    rcases hKind with hKind | hKind <;>
      simp only [roomFor, hKind]
  cases hIndex : s.eventIdMap.slotIndex? with
  | none =>
      simp [parsePosition, EventIdMap.getCurrentTouchId,
        hIndex] at hParse
  | some i =>
      by_cases hId : (s.eventIdMap.pair i).value = 0xffffffff
      · rw [parsePosition_of_eq hIndex hId] at hParse
        cases hParse
        simp [hRoom, EventIdMap.getCurrentTouchId, hIndex, hId]
      · rw [parsePosition_of_ne hIndex hId] at hParse
        cases hParse
        simp [hRoom, EventIdMap.getCurrentTouchId, hIndex, hId,
          EventInfo.count_add_of_ne _ _ _ _ hCode]

/- Every call adds just as many entries. -/
theorem count_parseEvent
    (hParse : parseEvent event s = some (ret, t)) :
    t.ei.count = s.ei.count + s.roomFor event := by
  rw [parseEvent_eq] at hParse
  have hNoted :
      (s.noteType event).roomFor event = s.roomFor event := rfl
  have hCount : (s.noteType event).ei.count = s.ei.count := rfl
  rw [← hCount, ← hNoted]
  cases hKind : event.kind with
  | report =>
      simp only [hKind, Option.some.injEq] at hParse
      cases hParse
      simp [EventInfo.count_add, roomFor, hKind]
  | touch =>
      simp only [hKind] at hParse
      exact count_parseTouch hKind hParse
  | lift =>
      simp only [hKind] at hParse
      exact count_parseLift hKind hParse
  | slot =>
      simp only [hKind, Option.some.injEq] at hParse
      cases hParse
      simp [roomFor, hKind]
  | positionX =>
      simp only [hKind] at hParse
      exact count_parsePosition (Or.inl hKind) hParse
  | positionY =>
      simp only [hKind] at hParse
      exact count_parsePosition (Or.inr hKind) hParse
  | key =>
      simp only [hKind, Option.some.injEq, parseKey] at hParse
      split at hParse
      · next hDiscard =>
        cases hParse
        simp [roomFor, hKind, hDiscard]
      · next hDiscard =>
        rw [← (Prod.mk.inj hParse).2]
        simp [roomFor, hKind, hDiscard, EventInfo.count_add]
  | other =>
      simp only [hKind, Option.some.injEq] at hParse
      cases hParse
      simp [roomFor, hKind]

/- No call adds more than two entries. -/
theorem roomFor_le
    (s : Parser)
    (event : InputEvent) :
    s.roomFor event ≤ 2 := by
  have hAdd := s.ei.roomFor_le event.code
  unfold roomFor
  split <;> (try split) <;> omega

end Parser

end FzEvent

------------------------------------------------------------
-- Completed Gestures
------------------------------------------------------------

namespace FzEvent

namespace Parser

/-
  The buffers that a caller pushes when it pushes and clears
  after every `PARSE_END`, up to the first access outside the
  slot table.
-/
def completed : Parser → List InputEvent → List EventInfo
| _, [] => []
| s, event :: stream =>
    match parseEvent event s with
    | none => []
    | some (ret, t) =>
        if ret = .parseEnd then
          t.ei :: completed (t.clearAtEnd ret) stream
        else
          completed (t.clearAtEnd ret) stream

theorem completed_cons_of_parseEnd
    {s t : Parser}
    {event : InputEvent}
    (hParse : parseEvent event s = some (.parseEnd, t))
    (stream : List InputEvent) :
    s.completed (event :: stream) =
      t.ei :: (t.clearAtEnd .parseEnd).completed stream := by
  rw [completed, hParse]
  rfl

theorem completed_cons_of_ne
    {s t : Parser}
    {event : InputEvent}
    {ret : ParseInfo}
    (hParse : parseEvent event s = some (ret, t))
    (hRet : ret ≠ .parseEnd)
    (stream : List InputEvent) :
    s.completed (event :: stream) = t.completed stream := by
  rw [completed, hParse]
  simp only [hRet, if_false, clearAtEnd]

/- Gestures of the second part follow those of the first. -/
theorem completed_append
    {s t : Parser}
    {stream : List InputEvent}
    (hRun : recorder.exec s stream = some t)
    (rest : List InputEvent) :
    s.completed (stream ++ rest) =
      s.completed stream ++ t.completed rest := by
  induction stream generalizing s with
  | nil =>
      rw [Transition.System.exec_nil, Option.some.injEq] at hRun
      rw [hRun]
      rfl
  | cons event stream ih =>
      rcases (recorder.exec_cons_eq_some_iff).mp hRun with
        ⟨u, hStep, hRest⟩
      simp only [recorder, recordEvent, Option.bind_eq_bind,
        Option.bind_eq_some_iff] at hStep
      rcases hStep with ⟨⟨ret, v⟩, hParse, hNext⟩
      cases hNext
      rw [List.cons_append]
      by_cases hRet : ret = .parseEnd
      · subst hRet
        rw [completed_cons_of_parseEnd hParse,
          completed_cons_of_parseEnd hParse, ih hRest,
          List.cons_append]
      · have hClear : v.clearAtEnd ret = v := if_neg hRet
        rw [hClear] at hRest
        rw [completed_cons_of_ne hParse hRet,
          completed_cons_of_ne hParse hRet, ih hRest]

/- A gesture is completed by the first call or later. -/
theorem of_mem_completed_cons
    {s : Parser}
    {event : InputEvent}
    {stream : List InputEvent}
    {ei : EventInfo}
    (hMem : ei ∈ s.completed (event :: stream)) :
    ∃ ret t,
      parseEvent event s = some (ret, t) ∧
        ((ret = .parseEnd ∧ ei = t.ei) ∨
          ei ∈ (t.clearAtEnd ret).completed stream) := by
  unfold completed at hMem
  split at hMem
  · simp at hMem
  · next ret t hParse =>
    refine ⟨ret, t, hParse, ?_⟩
    split at hMem
    · next hEnd =>
      rcases List.mem_cons.mp hMem with hHere | hLater
      · exact Or.inl ⟨hEnd, hHere⟩
      · exact Or.inr hLater
    · exact Or.inr hMem

/- What all entries in the buffer and all new ones are. -/
theorem forall_mem_completed
    (P : Entry → Prop)
    (stream : List InputEvent)
    (s : Parser)
    (hStems :
      ∀ event ∈ stream,
        ∀ entry, StemsFrom entry event → P entry)
    (hBuffer : ∀ entry ∈ s.ei.entries, P entry)
    {ei : EventInfo}
    (hMem : ei ∈ s.completed stream) :
    ∀ entry ∈ ei.entries, P entry := by
  induction stream generalizing s with
  | nil => simp [completed] at hMem
  | cons event stream ih =>
      rw [List.forall_mem_cons] at hStems
      rcases of_mem_completed_cons hMem with ⟨ret, t, hParse, hMem⟩
      rcases exists_entries_parseEvent hParse with ⟨added, hAppends⟩
      have hNext : ∀ entry ∈ t.ei.entries, P entry := by
        rw [hAppends.entries_eq]
        intro entry hEntry
        rcases List.mem_append.mp hEntry with hOld | hNew
        · exact hBuffer entry hOld
        · exact hStems.1 entry (hAppends.stemsFrom entry hNew)
      rcases hMem with ⟨-, rfl⟩ | hLater
      · exact hNext
      · refine ih _ hStems.2 ?_ hLater
        unfold clearAtEnd
        split
        · simp
        · exact hNext

/- A gesture is at most one entry longer than the stream. -/
theorem count_le_of_mem_completed
    (stream : List InputEvent)
    (s : Parser)
    {ei : EventInfo}
    (hMem : ei ∈ s.completed stream) :
    ei.count ≤ s.ei.count + stream.length + 1 := by
  induction stream generalizing s with
  | nil => simp [completed] at hMem
  | cons event stream ih =>
      rcases of_mem_completed_cons hMem with ⟨ret, t, hParse, hMem⟩
      rcases exists_entries_parseEvent hParse with ⟨added, hAppends⟩
      have hCount :
          t.ei.count = s.ei.count + added.length := by
        simp [EventInfo.count, hAppends.entries_eq]
      have hLength := hAppends.length_le
      rw [List.length_cons]
      rcases hMem with ⟨-, rfl⟩ | hLater
      · omega
      · have hNext :
            (t.clearAtEnd ret).ei.count ≤ s.ei.count + 1 := by
          unfold clearAtEnd
          split
          · simp
          · next hNotEnd =>
            have hOne := hAppends.length_le_of_ne hNotEnd
            omega
        have hBound := ih _ hLater
        omega

/- A gesture of touch events has an entry. -/
theorem entries_ne_nil_of_mem_completed
    (stream : List InputEvent)
    (s : Parser)
    (hKeys : ∀ event ∈ stream, event.kind ≠ .key)
    {ei : EventInfo}
    (hMem : ei ∈ s.completed stream) :
    ei.entries ≠ [] := by
  induction stream generalizing s with
  | nil => simp [completed] at hMem
  | cons event stream ih =>
      rw [List.forall_mem_cons] at hKeys
      rcases of_mem_completed_cons hMem with ⟨ret, t, hParse, hMem⟩
      rcases hMem with ⟨rfl, rfl⟩ | hLater
      · have hLift : event.kind = .lift :=
          (kind_of_parseEnd hParse).resolve_right hKeys.1
        have hAbs := InputEvent.abs_of_kind hLift (by decide)
        have hCount :=
          count_ne_zero_of_parseEnd hParse
            (fun hCode => absurd hCode hAbs.2)
        simpa [EventInfo.count] using hCount
      · exact ih _ hKeys.2 hLater

end Parser

end FzEvent

import FzEvent.Recorder.Gesture

/-
  The kind of a completed gesture: one key event, or touch
  entries only.

  The type is the one of the event that completes the
  gesture, while the entries are those since the last
  completion. The two agree unless a key completes a buffer
  that is not empty, or a lift one with a `BTN_TOUCH` in it.

  Main declarations:
    * `EventInfo.OfOneKind`
    * `Parser.KeepsKind`
    * `FzEvent.ofOneKind_iff_keepsKind`
-/

------------------------------------------------------------
-- Kinds of Gestures
------------------------------------------------------------

namespace FzEvent

/- The entry stands for an `EV_ABS` event or a report. -/
def Entry.IsTouch (entry : Entry) : Prop :=
  entry.code = absMtTrackingId ∨
    entry.code = absMtPositionX ∨
      entry.code = absMtPositionY ∨
        entry.code = synReport

instance (entry : Entry) : Decidable entry.IsTouch :=
  inferInstanceAs
    (Decidable
      (entry.code = absMtTrackingId ∨
        entry.code = absMtPositionX ∨
          entry.code = absMtPositionY ∨
            entry.code = synReport))

/-
  The gesture that the event completes is that key event
  alone, or an `EV_ABS` gesture of touch entries.
-/
def EventInfo.OfOneKind
    (ei : EventInfo)
    (event : InputEvent) : Prop :=
  (ei.eventType = evKey ∧ ei.entries = [event.entry (-1)]) ∨
    (ei.eventType = evAbs ∧
      ∀ entry ∈ ei.entries, entry.IsTouch)

namespace Parser

/- When the event completes a gesture, it is of one kind. -/
def CompletesOfOneKind
    (s : Parser)
    (event : InputEvent) : Prop :=
  ∀ t, parseEvent event s = some (.parseEnd, t) →
    t.ei.OfOneKind event

/-
  A completing key finds the buffer empty and is not the
  reserved key 0; a completing lift finds no `BTN_TOUCH`
  in it.
-/
def KeepsKind
    (s : Parser)
    (event : InputEvent) : Prop :=
  s.InBounds event ∧ s.Completes event →
    match event.kind with
    | .key => s.ei.entries = [] ∧ event.code ≠ synReport
    | .lift => ∀ entry ∈ s.ei.entries, entry.code ≠ btnTouch
    | _ => True

instance (s : Parser) (event : InputEvent) :
    Decidable (s.KeepsKind event) := by
  unfold KeepsKind
  exact match event.kind with
    | .key =>
        inferInstanceAs
          (Decidable
            (s.InBounds event ∧ s.Completes event →
              s.ei.entries = [] ∧ event.code ≠ synReport))
    | .lift =>
        inferInstanceAs
          (Decidable
            (s.InBounds event ∧ s.Completes event →
              ∀ entry ∈ s.ei.entries,
                entry.code ≠ btnTouch))
    | .report | .touch | .slot => .isTrue (fun _ => trivial)
    | .positionX | .positionY => .isTrue (fun _ => trivial)
    | .other => .isTrue (fun _ => trivial)

end Parser

end FzEvent

------------------------------------------------------------
-- What the Buffer Can Hold
------------------------------------------------------------

namespace FzEvent

/-
  The buffer between two completions: touch entries and
  `BTN_TOUCH`, and no report at its start.
-/
structure EventInfo.Pending (ei : EventInfo) : Prop where
  codes :
    ∀ entry ∈ ei.entries,
      entry.IsTouch ∨ entry.code = btnTouch
  head :
    ∀ entry ∈ ei.entries.head?, entry.code ≠ synReport

namespace EventInfo

theorem pending_of_nil
    {ei : EventInfo}
    (hNil : ei.entries = []) :
    ei.Pending := by
  constructor
  · simp [hNil]
  · simp [hNil]

/- A touch code or `BTN_TOUCH` may be added. -/
theorem Pending.add
    {ei : EventInfo}
    (hPending : ei.Pending)
    (tv : Timeval)
    (id : Int32)
    {code : UInt16}
    (value : UInt32)
    (hCode :
      (⟨tv, id, code, value⟩ : Entry).IsTouch ∨
        code = btnTouch) :
    (ei.add tv id code value).Pending := by
  unfold EventInfo.add
  split
  · exact hPending
  · next hKept =>
    constructor
    · intro entry hMem
      rcases List.mem_append.mp hMem with hOld | hNew
      · exact hPending.codes entry hOld
      · rw [List.mem_singleton.mp hNew]
        exact hCode
    · intro entry hHead
      cases hEntries : ei.entries with
      | nil =>
          simp only [hEntries, List.nil_append,
            List.head?_cons, Option.mem_some_iff] at hHead
          rw [← hHead]
          intro hReport
          exact hKept ⟨hReport, Or.inl (by
            rw [count, hEntries, List.length_nil])⟩
      | cons first entries =>
          apply hPending.head
          simpa [hEntries] using hHead

end EventInfo

end FzEvent

------------------------------------------------------------
-- What One Call Does to the Buffer
------------------------------------------------------------

namespace FzEvent

/- An event that is recorded without completing a gesture. -/
def InputEvent.Buffered (event : InputEvent) : Prop :=
  match event.kind with
  | .slot => False
  | .other => False
  | .key => event.code = btnTouch
  | _ => True

theorem InputEvent.Buffered.entry
    {event : InputEvent}
    (hBuffered : event.Buffered)
    (id : Int32)
    (value : UInt32) :
    (⟨event.time, id, event.code, value⟩ : Entry).IsTouch ∨
      event.code = btnTouch := by
  have hCode := event.code_of_kind
  unfold InputEvent.Buffered at hBuffered
  unfold Entry.IsTouch
  cases hKind : event.kind with
  | report => simp_all
  | touch => simp_all
  | lift => simp_all
  | slot => simp_all
  | positionX => simp_all
  | positionY => simp_all
  | key => simp_all
  | other => simp_all

namespace Parser

/- A position is added, or its slot has no id. -/
theorem ei_of_parsePosition
    {s t : Parser}
    {event : InputEvent}
    {ret : ParseInfo}
    (hParse : parsePosition event s = some (ret, t)) :
    t.ei = s.ei ∨
      ∃ id, t.ei = s.ei.add event.time id event.code
        event.value.toUInt32 := by
  simp only [parsePosition, Option.bind_eq_bind,
    Option.bind_eq_some_iff] at hParse
  rcases hParse with ⟨pair, hPair, hParse⟩
  split at hParse
  · cases hParse
    exact Or.inl rfl
  · cases hParse
    exact Or.inr ⟨_, rfl⟩

/-
  A call that completes nothing leaves the buffer alone, or
  adds its event to it.
-/
theorem ei_of_ne_parseEnd
    {s t : Parser}
    {event : InputEvent}
    {ret : ParseInfo}
    (hParse : parseEvent event s = some (ret, t))
    (hRet : ret ≠ .parseEnd) :
    t.ei = s.ei.setType event.type ∨
      (event.Buffered ∧
        ∃ id,
          t.ei = (s.ei.setType event.type).add event.time id
            event.code event.value.toUInt32) := by
  rw [parseEvent_eq] at hParse
  unfold InputEvent.Buffered
  cases hKind : event.kind with
  | report =>
      simp only [hKind, Option.some.injEq] at hParse
      cases hParse
      exact Or.inr ⟨trivial, _, rfl⟩
  | touch =>
      simp only [hKind, parseTouch] at hParse
      split at hParse
      · cases hParse
        exact Or.inl rfl
      · simp only [Option.bind_eq_bind,
          Option.bind_eq_some_iff] at hParse
        rcases hParse with ⟨m, hMap, pair, hPair, hParse⟩
        cases hParse
        exact Or.inr ⟨trivial, _, rfl⟩
  | lift =>
      simp only [hKind, parseLift, Option.bind_eq_bind,
        Option.bind_eq_some_iff] at hParse
      rcases hParse with ⟨pair, hPair, m, hMap, hParse⟩
      split at hParse
      · cases hParse
        exact absurd rfl hRet
      · cases hParse
        exact Or.inr ⟨trivial, _, rfl⟩
  | slot =>
      simp only [hKind, Option.some.injEq] at hParse
      cases hParse
      exact Or.inl rfl
  | positionX =>
      simp only [hKind] at hParse
      exact (ei_of_parsePosition hParse).imp_right
        fun hAdded => ⟨trivial, hAdded⟩
  | positionY =>
      simp only [hKind] at hParse
      exact (ei_of_parsePosition hParse).imp_right
        fun hAdded => ⟨trivial, hAdded⟩
  | key =>
      simp only [hKind, Option.some.injEq, parseKey] at hParse
      split at hParse
      · cases hParse
        exact Or.inl rfl
      · split at hParse
        · next hTouch =>
          cases hParse
          exact Or.inr ⟨hTouch, _, rfl⟩
        · cases hParse
          exact absurd rfl hRet
  | other =>
      simp only [hKind, Option.some.injEq] at hParse
      cases hParse
      exact Or.inl rfl

/- A key that completes a gesture is added to it. -/
theorem ei_of_parseEnd_key
    {s t : Parser}
    {event : InputEvent}
    (hKind : event.kind = .key)
    (hParse : parseEvent event s = some (.parseEnd, t)) :
    t.ei =
      (s.ei.setType evKey).add event.time (-1) event.code
        event.value.toUInt32 := by
  have hType : event.type = evKey := by
    have hCode := event.code_of_kind
    simpa only [hKind] using hCode
  rw [parseEvent_eq] at hParse
  simp only [hKind, Option.some.injEq, parseKey] at hParse
  split at hParse
  · cases hParse
  · split at hParse
    · cases hParse
    · cases hParse
      rw [← hType]
      rfl

/- A lift that completes a gesture adds a report behind it. -/
theorem ei_of_parseEnd_lift
    {s t : Parser}
    {event : InputEvent}
    (hKind : event.kind = .lift)
    (hParse : parseEvent event s = some (.parseEnd, t)) :
    t.ei.eventType = evAbs ∧
      ∃ id,
        t.ei.entries =
          s.ei.entries ++
            [⟨event.time, id, event.code,
                event.value.toUInt32⟩,
              ⟨event.time, -1, synReport, 0⟩] := by
  have hAbs := InputEvent.abs_of_kind hKind (by decide)
  rw [parseEvent_eq] at hParse
  simp only [hKind, parseLift, Option.bind_eq_bind,
    Option.bind_eq_some_iff] at hParse
  rcases hParse with ⟨pair, hPair, m, hMap, hParse⟩
  split at hParse
  · cases hParse
    refine ⟨?_, pair.value.toInt32, ?_⟩
    · rw [EventInfo.eventType_add, EventInfo.eventType_add]
      exact hAbs.1
    · exact EventInfo.entries_add_add_report _ _ _ _ _ _ _
        hAbs.2
  · cases hParse

end Parser

end FzEvent

------------------------------------------------------------
-- Completions of One Kind
------------------------------------------------------------

namespace FzEvent

open Transition

namespace Parser

/- Every step keeps the buffer pending. -/
theorem pending_step
    {s t : Parser}
    {event : InputEvent}
    (hPending : s.ei.Pending)
    (hStep : recorder.step s event = some t) :
    t.ei.Pending := by
  simp only [recorder, recordEvent, Option.bind_eq_bind,
    Option.bind_eq_some_iff] at hStep
  rcases hStep with ⟨⟨ret, u⟩, hParse, hNext⟩
  cases hNext
  unfold clearAtEnd
  split
  · exact EventInfo.pending_of_nil (EventInfo.entries_clear _)
  · next hRet =>
    have hTyped : (s.ei.setType event.type).Pending :=
      ⟨hPending.codes, hPending.head⟩
    rcases ei_of_ne_parseEnd hParse hRet with
      hSame | ⟨hBuffered, id, hAdded⟩
    · rw [hSame]
      exact hTyped
    · rw [hAdded]
      exact hTyped.add _ _ _ (hBuffered.entry _ _)

/-
  A key completes a gesture of one kind just when it is the
  only entry.
-/
theorem ofOneKind_key_iff
    {ei : EventInfo}
    {event : InputEvent}
    (hPending : ei.Pending) :
    ((ei.setType evKey).add event.time (-1) event.code
        event.value.toUInt32).OfOneKind event ↔
      ei.entries = [] ∧ event.code ≠ synReport := by
  have hType : ¬ evKey = evAbs := by decide
  unfold EventInfo.OfOneKind
  simp only [EventInfo.eventType_add, EventInfo.setType,
    true_and, hType, false_and, or_false]
  unfold EventInfo.add
  split
  · next hSkipped =>
    -- a skipped report leaves nothing, or a longer buffer
    simp only [hSkipped.1, ne_eq, not_true, and_false,
      iff_false]
    intro hEntries
    have hHead := hPending.head (event.entry (-1))
    simp only [hEntries, List.head?_cons, Option.mem_def,
      forall_const] at hHead
    exact hHead hSkipped.1
  · next hKept =>
    constructor
    · intro hEntries
      have hNil : ei.entries = [] := by
        simpa [InputEvent.entry] using hEntries
      refine ⟨hNil, ?_⟩
      intro hReport
      exact hKept ⟨hReport, Or.inl (by
        simp [EventInfo.count, hNil])⟩
    · rintro ⟨hNil, -⟩
      simp [hNil, InputEvent.entry]

/-
  A lift completes a gesture of one kind just when nothing
  but touch entries came before it.
-/
theorem ofOneKind_lift_iff
    {ei after : EventInfo}
    {event : InputEvent}
    {id : Int32}
    (hPending : ei.Pending)
    (hLift : event.kind = .lift)
    (hType : after.eventType = evAbs)
    (hEntries :
      after.entries =
        ei.entries ++
          [⟨event.time, id, event.code,
              event.value.toUInt32⟩,
            ⟨event.time, -1, synReport, 0⟩]) :
    after.OfOneKind event ↔
      ∀ entry ∈ ei.entries, entry.code ≠ btnTouch := by
  have hAbs : ¬ evAbs = evKey := by decide
  have hCode : event.code = absMtTrackingId := by
    have hCode := event.code_of_kind
    simpa only [hLift] using hCode
  unfold EventInfo.OfOneKind
  rw [hType, hEntries]
  simp only [hAbs, false_and, false_or, true_and]
  constructor
  · intro hTouch entry hMem hButton
    have hEntry := hTouch entry (List.mem_append_left _ hMem)
    unfold Entry.IsTouch at hEntry
    rw [hButton] at hEntry
    exact absurd hEntry (by decide)
  · intro hButtons entry hMem
    rcases List.mem_append.mp hMem with hOld | hNew
    · exact (hPending.codes entry hOld).resolve_right
        (hButtons entry hOld)
    · simp only [List.mem_cons, List.not_mem_nil, or_false]
        at hNew
      rcases hNew with rfl | rfl
      · exact Or.inl hCode
      · exact Or.inr (Or.inr (Or.inr rfl))

/- A call that completes a gesture stayed in the table. -/
theorem completes_of_parseEnd
    {s t : Parser}
    {event : InputEvent}
    (hParse : parseEvent event s = some (.parseEnd, t)) :
    s.InBounds event ∧ s.Completes event := by
  have hInBounds : s.InBounds event := by
    rcases kind_of_parseEnd hParse with hKind | hKind
    · rw [parseEvent_eq] at hParse
      simp only [hKind, parseLift, Option.bind_eq_bind,
        Option.bind_eq_some_iff] at hParse
      rcases hParse with ⟨pair, hPair, hParse⟩
      intro hUses
      by_contra hOutside
      have hIndex : s.eventIdMap.slotIndex? = none :=
        dif_neg hOutside
      simp [EventIdMap.getCurrentTouchId, hIndex] at hPair
    · simp [InBounds, UsesSlot, hKind]
  rcases exists_parseEvent hInBounds with
    ⟨ret, u, hReturned, hEnd⟩
  rw [hParse] at hReturned
  cases hReturned
  exact ⟨hInBounds, hEnd.mp rfl⟩

/-
  From a pending buffer the next event completes only a
  gesture of one kind just when it meets the condition.
-/
theorem completesOfOneKind_iff
    {s : Parser}
    {event : InputEvent}
    (hPending : s.ei.Pending) :
    s.CompletesOfOneKind event ↔ s.KeepsKind event := by
  unfold CompletesOfOneKind
  by_cases hEnds :
      ∃ t, parseEvent event s = some (.parseEnd, t)
  · rcases hEnds with ⟨t, hParse⟩
    simp only [hParse, Option.some.injEq, Prod.mk.injEq,
      true_and, forall_eq']
    have hCompletes := completes_of_parseEnd hParse
    unfold KeepsKind
    simp only [hCompletes, and_self, forall_const]
    rcases kind_of_parseEnd hParse with hKind | hKind
    · rcases ei_of_parseEnd_lift hKind hParse with
        ⟨hType, id, hEntries⟩
      rw [ofOneKind_lift_iff hPending hKind hType hEntries]
      simp only [hKind]
    · rw [ei_of_parseEnd_key hKind hParse,
        ofOneKind_key_iff hPending]
      simp only [hKind]
  · have hNot :
        ¬ (s.InBounds event ∧ s.Completes event) := by
      rintro ⟨hInBounds, hCompletes⟩
      rcases exists_parseEvent hInBounds with
        ⟨ret, t, hParse, hEnd⟩
      rw [hEnd.mpr hCompletes] at hParse
      exact hEnds ⟨t, hParse⟩
    unfold KeepsKind
    simp only [hNot, false_implies, iff_true]
    intro t hParse
    exact absurd ⟨t, hParse⟩ hEnds

end Parser

end FzEvent

------------------------------------------------------------
-- Whole Streams
------------------------------------------------------------

namespace FzEvent

open Transition

/- Every gesture that the recorder completes is of one kind. -/
def CompletesOfOneKind (stream : List InputEvent) : Prop :=
  ∀ before event rest s t,
    stream = before ++ event :: rest →
      recorder.exec recorder.init before = some s →
        Parser.parseEvent event s = some (.parseEnd, t) →
          t.ei.OfOneKind event

/-
  All gestures of a stream are of one kind exactly when
  every completing key finds the buffer empty and is not the
  key 0, and every completing lift finds no `BTN_TOUCH` in
  the buffer.
-/
theorem ofOneKind_iff_keepsKind
    (stream : List InputEvent) :
    CompletesOfOneKind stream ↔
      recorder.Meets Parser.KeepsKind recorder.init
        stream := by
  have hInit : recorder.init.ei.Pending :=
    EventInfo.pending_of_nil rfl
  rw [← recorder.meets_iff_of_invariant
    (fun s => s.ei.Pending)
    (fun _ _ _ hPending hStep =>
      Parser.pending_step hPending hStep)
    (fun _ _ hPending =>
      Parser.completesOfOneKind_iff hPending)
    hInit stream, recorder.meets_iff_forall_split]
  constructor
  · intro hAll before event rest s hSplit hRun t hParse
    exact hAll before event rest s t hSplit hRun hParse
  · intro hAll before event rest s t hSplit hRun hParse
    exact hAll before event rest s hSplit hRun t hParse

/- The press of a volume key. -/
def volumeKey : InputEvent :=
  ⟨⟨0, 0⟩, evKey, 115, 1⟩

/- It is pressed while a finger is down. -/
def keyDuringTouch : List InputEvent :=
  [.abs absMtTrackingId 5, volumeKey]

/- What the recorder makes of that: both events, as a key. -/
def mixedGesture : EventInfo where
  eventType := evKey
  devId := 0
  entries :=
    [⟨⟨0, 0⟩, 5, absMtTrackingId, 5⟩,
      ⟨⟨0, 0⟩, -1, 115, 1⟩]

theorem not_completesOfOneKind :
    ¬ ∀ stream, CompletesOfOneKind stream := by
  intro hAll
  have hMixed : CompletesOfOneKind keyDuringTouch :=
    hAll keyDuringTouch
  have hGesture :
      ((recorder.exec recorder.init
        [.abs absMtTrackingId 5]).bind
          (Parser.parseEvent volumeKey)).map
            (fun p => (p.1, p.2.ei)) =
        some (.parseEnd, mixedGesture) := by
    decide
  rcases Option.map_eq_some_iff.mp hGesture with
    ⟨⟨ret, t⟩, hBind, hPair⟩
  rcases Option.bind_eq_some_iff.mp hBind with
    ⟨s, hRun, hParse⟩
  rcases Prod.mk.inj hPair with ⟨rfl, hMixture⟩
  have hKind : t.ei.OfOneKind volumeKey :=
    hMixed [.abs absMtTrackingId 5] volumeKey [] s t rfl hRun
      hParse
  rw [hMixture] at hKind
  unfold EventInfo.OfOneKind at hKind
  exact absurd hKind (by decide)

end FzEvent

import FzEvent.Recorder.Gesture

/-
  What the recorder makes of one contact after the other.

  A stream of single-contact sessions gives one gesture for
  each session, a plain projection of its events, and leaves
  nothing behind in the parser.

  Main declarations:
    * `FzEvent.TouchSession` and `TouchSession.gesture`
    * `FzEvent.dropRepeats`
    * `FzEvent.Records` and `Records.append`
    * `FzEvent.singleTouch_exact`
-/

------------------------------------------------------------
-- Sessions and Their Gestures
------------------------------------------------------------

namespace FzEvent

/- The event may stand between two sessions. -/
def InputEvent.Idles (event : InputEvent) : Prop :=
  event.kind ≠ .slot ∧ event.kind ≠ .touch ∧
    event.kind ≠ .lift ∧ event.kind ≠ .key

/- The event may stand between a touch and its lift. -/
def InputEvent.Stays (event : InputEvent) : Prop :=
  event.kind ≠ .slot ∧ event.kind ≠ .lift ∧
    event.kind ≠ .key

/- What an event of a contact with this id leaves behind. -/
def InputEvent.recorded
    (event : InputEvent)
    (t : Int32) : Option Entry :=
  match event.kind with
  | .report => some (event.entry (-1))
  | .positionX | .positionY => some (event.entry t)
  | _ => none

/- A report is dropped behind a report that is kept. -/
def dropRepeats : Bool → List Entry → List Entry
| _, [] => []
| afterReport, entry :: entries =>
    if entry.code = synReport then
      if afterReport then
        dropRepeats true entries
      else
        entry :: dropRepeats true entries
    else
      entry :: dropRepeats false entries

/- A contact that goes down, stays and lifts, after a pause. -/
structure TouchSession where
  pause : List InputEvent
  touch : InputEvent
  body : List InputEvent
  lift : InputEvent
  pause_idles : ∀ event ∈ pause, event.Idles
  touch_kind : touch.kind = .touch
  body_stays : ∀ event ∈ body, event.Stays
  lift_kind : lift.kind = .lift

namespace TouchSession

def stream (session : TouchSession) : List InputEvent :=
  session.pause ++
    session.touch :: (session.body ++ [session.lift])

/- The projection of the session. -/
def gesture (session : TouchSession) : List Entry :=
  session.touch.entry session.touch.value ::
    dropRepeats false
      (session.body.filterMap
        (fun event => event.recorded session.touch.value)) ++
    [session.lift.entry session.touch.value,
      ⟨session.lift.time, -1, synReport, 0⟩]

end TouchSession

end FzEvent

------------------------------------------------------------
-- Runs and What They Record
------------------------------------------------------------

namespace FzEvent

open Transition

/-
  The call ends a session on a lift only, and then leaves the
  table and the flag as they were constructed.
-/
def EndsClean
    (s : Parser)
    (event : InputEvent) : Prop :=
  ∃ ret t,
    Parser.parseEvent event s = some (ret, t) ∧
      (ret = .parseEnd ↔ event.kind = .lift) ∧
        (ret = .parseEnd →
          (t.clearAtEnd ret).eventIdMap =
              Parser.init.eventIdMap ∧
            (t.clearAtEnd ret).slotFlag =
              Parser.init.slotFlag)

/- The run completes these gestures and ends sessions clean. -/
structure Records
    (s : Parser)
    (stream : List InputEvent)
    (gestures : List EventInfo)
    (u : Parser) : Prop where
  exec_eq : recorder.exec s stream = some u
  completed_eq : s.completed stream = gestures
  clean : recorder.Meets EndsClean s stream

namespace Records

variable {s t u : Parser}
variable {event : InputEvent}

theorem nil (s : Parser) : Records s [] [] s :=
  ⟨rfl, rfl, trivial⟩

/- A call that does not end a session, in front of a run. -/
theorem cons_of_ne
    {ret : ParseInfo}
    {stream : List InputEvent}
    {gestures : List EventInfo}
    (hParse : Parser.parseEvent event s = some (ret, t))
    (hRet : ret ≠ .parseEnd)
    (hKind : event.kind ≠ .lift)
    (hRest : Records t stream gestures u) :
    Records s (event :: stream) gestures u := by
  have hClear : t.clearAtEnd ret = t := if_neg hRet
  have hStep := recorder_step_of_parseEvent hParse
  rw [hClear] at hStep
  refine ⟨?_, ?_, ?_⟩
  · exact (recorder.exec_cons_eq_some_iff).mpr
      ⟨t, hStep, hRest.exec_eq⟩
  · rw [Parser.completed_cons_of_ne hParse hRet]
    exact hRest.completed_eq
  · rw [System.meets_cons_iff]
    refine ⟨⟨ret, t, hParse, ?_, ?_⟩, ?_⟩
    · exact iff_of_false hRet hKind
    · intro hEnd
      exact absurd hEnd hRet
    · intro t' hStep'
      rw [hStep] at hStep'
      cases hStep'
      exact hRest.clean

/- A lift that ends a session. -/
theorem lift
    (hParse : Parser.parseEvent event s = some (.parseEnd, t))
    (hKind : event.kind = .lift)
    (hMap : t.eventIdMap = Parser.init.eventIdMap)
    (hFlag : t.slotFlag = Parser.init.slotFlag) :
    Records s [event] [t.ei] (t.clearAtEnd .parseEnd) := by
  have hStep := recorder_step_of_parseEvent hParse
  refine ⟨?_, ?_, ?_⟩
  · exact (recorder.exec_cons_eq_some_iff).mpr
      ⟨_, hStep, rfl⟩
  · rw [Parser.completed_cons_of_parseEnd hParse]
    rfl
  · rw [System.meets_cons_iff]
    refine ⟨⟨_, t, hParse, ?_, ?_⟩, fun _ _ => trivial⟩
    · exact iff_of_true rfl hKind
    · intro _
      rw [Parser.eventIdMap_clearAtEnd,
        Parser.slotFlag_clearAtEnd]
      exact ⟨hMap, hFlag⟩

/- One run after the other. -/
theorem append
    {stream rest : List InputEvent}
    {gestures more : List EventInfo}
    (hFirst : Records s stream gestures t)
    (hRest : Records t rest more u) :
    Records s (stream ++ rest) (gestures ++ more) u := by
  refine ⟨?_, ?_, ?_⟩
  · rw [System.exec_append, hFirst.exec_eq, Option.bind_some]
    exact hRest.exec_eq
  · rw [Parser.completed_append hFirst.exec_eq,
      hFirst.completed_eq, hRest.completed_eq]
  · rw [System.meets_append_iff]
    refine ⟨hFirst.clean, ?_⟩
    intro t' hRun
    rw [hFirst.exec_eq] at hRun
    cases hRun
    exact hRest.clean

end Records

end FzEvent

------------------------------------------------------------
-- Between and Inside Sessions
------------------------------------------------------------

namespace FzEvent

/- As constructed, apart from the noted type. -/
structure Parser.Ready (s : Parser) : Prop where
  eventIdMap_eq : s.eventIdMap = EventIdMap.clear
  slotFlag_eq : s.slotFlag = 1
  devId_eq : s.ei.devId = 0
  entries_eq : s.ei.entries = []

theorem Parser.ready_init : Parser.init.Ready :=
  ⟨rfl, rfl, rfl, rfl⟩

/- The table with one contact, in slot 0. -/
def EventIdMap.single (t : Int32) : EventIdMap where
  pair :=
    Function.update (fun _ => Pair.empty) 0 ⟨0, t.toUInt32⟩
  currentSlot := 0
  slotCount := 1

/- A contact with this id is down and its gesture is begun. -/
structure Parser.Touched
    (t : Int32)
    (s : Parser) : Prop where
  id_ne : t.toUInt32 ≠ 0xffffffff
  eventIdMap_eq : s.eventIdMap = EventIdMap.single t
  slotFlag_eq : s.slotFlag = 0
  devId_eq : s.ei.devId = 0
  nonempty : s.ei.count ≠ 0

theorem slotIndex?_clear :
    EventIdMap.clear.slotIndex? = some 0 := rfl

theorem slotIndex?_single (t : Int32) :
    (EventIdMap.single t).slotIndex? = some 0 := rfl

variable {s : Parser} {event : InputEvent} {t : Int32}

/- Between sessions an event leaves the parser ready. -/
theorem Parser.Ready.parseEvent_idle
    (hReady : s.Ready)
    (hIdles : event.Idles) :
    Parser.parseEvent event s =
        some (.parseSkip, s.noteType event) ∧
      (s.noteType event).Ready := by
  have hNoted : (s.noteType event).Ready :=
    ⟨hReady.eventIdMap_eq, hReady.slotFlag_eq,
      hReady.devId_eq, hReady.entries_eq⟩
  refine ⟨?_, hNoted⟩
  have hIndex :
      (s.noteType event).eventIdMap.slotIndex? = some 0 := by
    rw [hNoted.eventIdMap_eq, slotIndex?_clear]
  have hNoId :
      ((s.noteType event).eventIdMap.pair 0).value =
        0xffffffff := by
    rw [hNoted.eventIdMap_eq]
    rfl
  have hCount : (s.noteType event).ei.count = 0 := by
    simp [EventInfo.count, hReady.entries_eq]
  rcases hIdles with ⟨hSlot, hTouch, hLift, hKey⟩
  rw [Parser.parseEvent_eq]
  cases hKind : event.kind with
  | report =>
      have hCode := (InputEvent.of_kind_report hKind).2
      simp only [Parser.parseReport, EventInfo.add]
      rw [if_pos ⟨hCode, Or.inl hCount⟩]
  | positionX => exact Parser.parsePosition_of_eq hIndex hNoId
  | positionY => exact Parser.parsePosition_of_eq hIndex hNoId
  | other => rfl
  | slot => exact absurd hKind hSlot
  | touch => exact absurd hKind hTouch
  | lift => exact absurd hKind hLift
  | key => exact absurd hKind hKey

/- A pause records nothing. -/
theorem Parser.Ready.records_pause
    (hReady : s.Ready)
    (pause : List InputEvent)
    (hIdles : ∀ event ∈ pause, event.Idles) :
    ∃ u, Records s pause [] u ∧ u.Ready := by
  induction pause generalizing s with
  | nil => exact ⟨s, Records.nil s, hReady⟩
  | cons event pause ih =>
      rw [List.forall_mem_cons] at hIdles
      rcases hReady.parseEvent_idle hIdles.1 with
        ⟨hParse, hNext⟩
      rcases ih hNext hIdles.2 with ⟨u, hRest, hEnd⟩
      exact ⟨u, Records.cons_of_ne hParse (by simp)
        hIdles.1.2.2.1 hRest, hEnd⟩

/- A contact that goes down begins a gesture. -/
theorem Parser.Ready.parseEvent_touch
    (hReady : s.Ready)
    (hKind : event.kind = .touch) :
    ∃ u,
      Parser.parseEvent event s = some (.parseSkip, u) ∧
        u.Touched event.value ∧
          u.ei.entries = [event.entry event.value] ∧
            u.ei.endsWithReport = false := by
  have hAbs := InputEvent.abs_of_kind hKind (by decide)
  have hIndex :
      (s.noteType event).eventIdMap.slotIndex? = some 0 := by
    rw [Parser.eventIdMap_noteType, hReady.eventIdMap_eq,
      slotIndex?_clear]
  have hFlag : (s.noteType event).slotFlag ≠ 0 := by
    rw [Parser.slotFlag_noteType, hReady.slotFlag_eq]
    exact one_ne_zero
  have hNil : (s.noteType event).ei.entries = [] :=
    hReady.entries_eq
  rw [Parser.parseEvent_eq]
  simp only [hKind]
  refine ⟨_, Parser.parseTouch_of_flag_ne hIndex hFlag,
    ⟨?_, ?_, rfl, ?_, ?_⟩, ?_, ?_⟩
  · exact InputEvent.toUInt32_value_ne_of_kind_touch hKind
  · simp only [Parser.eventIdMap_noteType,
      hReady.eventIdMap_eq]
    rfl
  · rw [EventInfo.devId_add]
    exact hReady.devId_eq
  · rw [EventInfo.count_add_of_ne _ _ _ _ hAbs.2]
    exact Nat.succ_ne_zero _
  · rw [EventInfo.entries_add_of_ne _ _ _ _ hAbs.2, hNil]
    rfl
  · exact EventInfo.endsWithReport_add_of_ne _ _ _ _ hAbs.2

/-
  Adding an entry to a buffer that has one is the first step
  of the de-duplication.
-/
theorem EventInfo.entries_add_dropRepeats
    {ei : EventInfo}
    (hNonempty : ei.count ≠ 0)
    (entry : Entry)
    (entries : List Entry) :
    (ei.add entry.tv entry.id entry.code entry.value).entries ++
        dropRepeats
          (ei.add entry.tv entry.id entry.code
            entry.value).endsWithReport entries =
      ei.entries ++
        dropRepeats ei.endsWithReport (entry :: entries) := by
  by_cases hCode : entry.code = synReport
  · cases hLast : ei.endsWithReport with
    | true =>
        rw [EventInfo.add,
          if_pos ⟨hCode, Or.inr hLast⟩, hLast, dropRepeats]
        simp [hCode]
    | false =>
        have hKept :
            ei.add entry.tv entry.id entry.code entry.value =
              { ei with entries := ei.entries ++ [entry] } := by
          rw [EventInfo.add, if_neg ?_]
          simp [hNonempty, hLast]
        rw [hKept, dropRepeats]
        simp [EventInfo.endsWithReport, hCode]
  · rw [EventInfo.entries_add_of_ne _ _ _ _ hCode,
      EventInfo.endsWithReport_add_of_ne _ _ _ _ hCode,
      dropRepeats, if_neg hCode, List.append_assoc]
    rfl

/-
  While the contact is down an event leaves its projection,
  unless that is a report behind a report.
-/
theorem Parser.Touched.parseEvent_stay
    (hTouched : s.Touched t)
    (hStays : event.Stays) :
    ∃ ret u,
      Parser.parseEvent event s = some (ret, u) ∧
        ret ≠ .parseEnd ∧ u.Touched t ∧
          ∀ entries,
            u.ei.entries ++
                dropRepeats u.ei.endsWithReport entries =
              s.ei.entries ++
                dropRepeats s.ei.endsWithReport
                  ((event.recorded t).toList ++ entries) := by
  have hNoted : (s.noteType event).Touched t :=
    ⟨hTouched.id_ne, hTouched.eventIdMap_eq,
      hTouched.slotFlag_eq, hTouched.devId_eq,
      hTouched.nonempty⟩
  have hIndex :
      (s.noteType event).eventIdMap.slotIndex? = some 0 := by
    rw [hNoted.eventIdMap_eq, slotIndex?_single]
  have hValue :
      ((s.noteType event).eventIdMap.pair 0).value =
        t.toUInt32 := by
    rw [hNoted.eventIdMap_eq]
    rfl
  -- the parser after adding an entry for the event
  have hAdded :
      ∀ id,
        ({ s.noteType event with
            ei := (s.noteType event).ei.add event.time id
              event.code event.value.toUInt32 } :
          Parser).Touched t := by
    intro id
    refine ⟨hNoted.id_ne, hNoted.eventIdMap_eq,
      hNoted.slotFlag_eq, ?_, ?_⟩
    · rw [EventInfo.devId_add]
      exact hNoted.devId_eq
    · have hLe :=
        (s.noteType event).ei.count_le_count_add event.time id
          event.code event.value.toUInt32
      exact Nat.ne_of_gt
        (lt_of_lt_of_le (Nat.pos_of_ne_zero hNoted.nonempty)
          hLe)
  have hPosition :
      parsePosition event (s.noteType event) =
        some (.parseCon,
          { s.noteType event with
            ei := (s.noteType event).ei.add event.time t
              event.code event.value.toUInt32 }) := by
    have hId :
        ((s.noteType event).eventIdMap.pair 0).value ≠
          0xffffffff := by
      rw [hValue]
      exact hNoted.id_ne
    rw [parsePosition_of_ne hIndex hId, hValue,
      Int32.toInt32_toUInt32]
  rcases hStays with ⟨hSlot, hLift, hKey⟩
  rw [parseEvent_eq]
  unfold InputEvent.recorded
  cases hKind : event.kind with
  | report =>
      exact ⟨_, _, rfl, by simp, hAdded (-1),
        EventInfo.entries_add_dropRepeats hNoted.nonempty
          (event.entry (-1))⟩
  | touch =>
      exact ⟨_, _,
        parseTouch_of_flag_eq hNoted.slotFlag_eq,
        by simp, hNoted, fun entries => rfl⟩
  | positionX =>
      exact ⟨_, _, hPosition, by simp, hAdded t,
        EventInfo.entries_add_dropRepeats hNoted.nonempty
          (event.entry t)⟩
  | positionY =>
      exact ⟨_, _, hPosition, by simp, hAdded t,
        EventInfo.entries_add_dropRepeats hNoted.nonempty
          (event.entry t)⟩
  | other =>
      exact ⟨_, _, rfl, by simp, hNoted, fun entries => rfl⟩
  | slot => exact absurd hKind hSlot
  | lift => exact absurd hKind hLift
  | key => exact absurd hKind hKey

/- The body of a session leaves its projection. -/
theorem Parser.Touched.records_body
    (hTouched : s.Touched t)
    (body : List InputEvent)
    (hStays : ∀ event ∈ body, event.Stays) :
    ∃ u,
      Records s body [] u ∧ u.Touched t ∧
        u.ei.entries =
          s.ei.entries ++
            dropRepeats s.ei.endsWithReport
              (body.filterMap
                (fun event => event.recorded t)) := by
  induction body generalizing s with
  | nil =>
      exact ⟨s, Records.nil s, hTouched,
        (List.append_nil _).symm⟩
  | cons event body ih =>
      rw [List.forall_mem_cons] at hStays
      rcases hTouched.parseEvent_stay hStays.1 with
        ⟨ret, v, hParse, hRet, hNext, hEntries⟩
      rcases ih hNext hStays.2 with ⟨u, hRest, hEnd, hAll⟩
      refine ⟨u, Records.cons_of_ne hParse hRet
        hStays.1.2.1 hRest, hEnd, ?_⟩
      rw [hAll, hEntries, List.filterMap_cons]
      cases event.recorded t <;> rfl

theorem EventInfo.eq_mk
    {ei : EventInfo}
    {eventType : UInt16}
    {devId : Int32}
    {entries : List Entry}
    (hType : ei.eventType = eventType)
    (hDev : ei.devId = devId)
    (hEntries : ei.entries = entries) :
    ei = ⟨eventType, devId, entries⟩ := by
  cases ei
  subst hType hDev hEntries
  rfl

/- The lift ends the gesture and leaves the parser ready. -/
theorem Parser.Touched.records_lift
    (hTouched : s.Touched t)
    (hKind : event.kind = .lift) :
    ∃ u,
      Records s [event]
          [⟨evAbs, 0,
            s.ei.entries ++
              [event.entry t,
                ⟨event.time, -1, synReport, 0⟩]⟩] u ∧
        u.Ready := by
  have hAbs := InputEvent.abs_of_kind hKind (by decide)
  have hIndex :
      (s.noteType event).eventIdMap.slotIndex? = some 0 := by
    rw [eventIdMap_noteType, hTouched.eventIdMap_eq,
      slotIndex?_single]
  have hValue :
      ((s.noteType event).eventIdMap.pair 0).value =
        t.toUInt32 := by
    rw [eventIdMap_noteType, hTouched.eventIdMap_eq]
    rfl
  have hLast :
      (s.noteType event).eventIdMap.slotCount - 1 = 0 := by
    rw [eventIdMap_noteType, hTouched.eventIdMap_eq]
    rfl
  have hParse := parseEvent_eq event s
  simp only [hKind, parseLift_of_last hIndex hLast, hValue,
    Int32.toInt32_toUInt32] at hParse
  have hRecords := Records.lift hParse hKind rfl rfl
  have hEi :
      (((s.noteType event).ei.add event.time t event.code
          event.value.toUInt32).add event.time (-1) synReport
            0) =
        ⟨evAbs, 0,
          s.ei.entries ++
            [event.entry t,
              ⟨event.time, -1, synReport, 0⟩]⟩ := by
    apply EventInfo.eq_mk
    · rw [EventInfo.eventType_add, EventInfo.eventType_add]
      exact hAbs.1
    · rw [EventInfo.devId_add, EventInfo.devId_add]
      exact hTouched.devId_eq
    · exact EventInfo.entries_add_add_report _ _ _ _ _ _ _
        hAbs.2
  rw [hEi] at hRecords
  exact ⟨_, hRecords, rfl, rfl, rfl, rfl⟩

/- One session. -/
theorem Parser.Ready.records_session
    (hReady : s.Ready)
    (session : TouchSession) :
    ∃ u,
      Records s session.stream
          [⟨evAbs, 0, session.gesture⟩] u ∧
        u.Ready := by
  rcases hReady.records_pause session.pause
      session.pause_idles with
    ⟨a, hPause, hReadyA⟩
  rcases hReadyA.parseEvent_touch session.touch_kind with
    ⟨b, hTouch, hTouched, hEntries, hLast⟩
  rcases hTouched.records_body session.body
      session.body_stays with
    ⟨c, hBody, hTouchedC, hEntriesC⟩
  rcases hTouchedC.records_lift session.lift_kind with
    ⟨u, hLift, hReadyU⟩
  refine ⟨u, ?_, hReadyU⟩
  have hGesture :
      c.ei.entries ++
          [session.lift.entry session.touch.value,
            ⟨session.lift.time, -1, synReport, 0⟩] =
        session.gesture := by
    rw [hEntriesC, hEntries, hLast]
    rfl
  rw [hGesture] at hLift
  have hContact :=
    Records.cons_of_ne hTouch (by simp)
      (by simp [session.touch_kind]) (hBody.append hLift)
  exact hPause.append hContact

end FzEvent

------------------------------------------------------------
-- Any Number of Sessions
------------------------------------------------------------

namespace FzEvent

theorem Parser.Ready.records_sessions
    {s : Parser}
    (hReady : s.Ready)
    (sessions : List TouchSession) :
    ∃ u,
      Records s (sessions.flatMap TouchSession.stream)
          (sessions.map
            (fun session => ⟨evAbs, 0, session.gesture⟩)) u ∧
        u.Ready := by
  induction sessions generalizing s with
  | nil => exact ⟨s, Records.nil s, hReady⟩
  | cons session sessions ih =>
      rcases hReady.records_session session with
        ⟨t, hFirst, hReadyT⟩
      rcases ih hReadyT with ⟨u, hRest, hReadyU⟩
      exact ⟨u, hFirst.append hRest, hReadyU⟩

/-
  Any number of single-contact sessions: each gives exactly
  its projection, `PARSE_END` is returned at the lifts only,
  and behind each of them the table, the counter, the cursor
  and the flag are as they were constructed.
-/
theorem singleTouch_exact
    (sessions : List TouchSession)
    (pause : List InputEvent)
    (hIdles : ∀ event ∈ pause, event.Idles) :
    Parser.init.completed
        (sessions.flatMap TouchSession.stream ++ pause) =
      sessions.map
        (fun session => ⟨evAbs, 0, session.gesture⟩) ∧
    ∀ before event rest,
      sessions.flatMap TouchSession.stream ++ pause =
          before ++ event :: rest →
        ∃ s ret t,
          recorder.exec recorder.init before = some s ∧
            Parser.parseEvent event s = some (ret, t) ∧
              (ret = .parseEnd ↔ event.kind = .lift) ∧
                (ret = .parseEnd →
                  (t.clearAtEnd ret).eventIdMap =
                      Parser.init.eventIdMap ∧
                    (t.clearAtEnd ret).slotFlag =
                      Parser.init.slotFlag) := by
  rcases Parser.ready_init.records_sessions sessions with
    ⟨t, hSessions, hReady⟩
  rcases hReady.records_pause pause hIdles with
    ⟨u, hPause, -⟩
  have hAll := hSessions.append hPause
  refine ⟨by simpa using hAll.completed_eq, ?_⟩
  intro before event rest hSplit
  have hRun := hAll.exec_eq
  rw [hSplit, Transition.System.exec_append,
    Option.bind_eq_some_iff] at hRun
  rcases hRun with ⟨s, hBefore, -⟩
  rcases (recorder.meets_iff_forall_split _ _ _).mp hAll.clean
      before event rest s hSplit hBefore with
    ⟨ret, v, hClean⟩
  exact ⟨s, ret, v, hBefore, hClean⟩

theorem kind_lift :
    (InputEvent.abs absMtTrackingId (-1)).kind = .lift := by
  decide

/- A tap whose id and reports are sent twice. -/
def tap : TouchSession where
  pause := [.report]
  touch := .abs absMtTrackingId 5
  body :=
    [.abs absMtPositionX 10, .abs absMtTrackingId 5, .report,
      .report, .abs absMtPositionY 20]
  lift := .abs absMtTrackingId (-1)
  pause_idles := by
    unfold InputEvent.Idles
    decide
  touch_kind := by decide
  body_stays := by
    unfold InputEvent.Stays
    decide
  lift_kind := kind_lift

theorem completed_two_taps :
    Parser.init.completed
        ([tap, tap].flatMap TouchSession.stream ++ [.report]) =
      [⟨evAbs, 0, tap.gesture⟩, ⟨evAbs, 0, tap.gesture⟩] :=
  (singleTouch_exact [tap, tap] [.report]
    (by unfold InputEvent.Idles; decide)).1

end FzEvent

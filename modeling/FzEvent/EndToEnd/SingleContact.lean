import FzEvent.EndToEnd.Trajectory

/-
  The session of one contact: the recorder makes one gesture
  of it, and the replay of the gesture moves the contact as
  the session did.

  Main declarations:
    * `Parser.Idle` and `EventInfo.PlaysAs`
    * `FzEvent.SingleContactSession`
    * `FzEvent.replaysFrames_singleContactSession`
-/

------------------------------------------------------------
-- Before and After the Contact
------------------------------------------------------------

namespace FzEvent

/- No contact is registered and the buffer is empty. -/
structure Parser.Idle (s : Parser) : Prop where
  entries_eq : s.ei.entries = []
  slotCount_eq : s.eventIdMap.slotCount = 0
  slotFlag_ne : s.slotFlag ≠ 0
  currentSlot_lt :
    s.eventIdMap.currentSlot.toNat < defaultIdMapSize

theorem Parser.idle_init : Parser.init.Idle :=
  ⟨rfl, rfl, by decide, by decide⟩

/- A kind that may come behind the last contact. -/
def Settles (event : InputEvent) : Prop :=
  event.kind = .report ∨ event.kind = .other
deriving Decidable

namespace Parser.Idle

variable {k : SlotState}
variable {s : Parser}
variable {event : InputEvent}

theorem noteType
    (hIdle : s.Idle)
    (event : InputEvent) :
    (s.noteType event).Idle :=
  ⟨hIdle.entries_eq, hIdle.slotCount_eq,
    hIdle.slotFlag_ne, hIdle.currentSlot_lt⟩

/- A contact that goes down is registered. -/
theorem touch
    (hIdle : s.Idle)
    (hAbs : event.type = evAbs ∧ event.code ≠ synReport)
    (hValue : event.value ≠ -1) :
    ∃ i t,
      Parser.parseTouch event s = some (.parseSkip, t) ∧
        Follows k [event] i t := by
  obtain ⟨i, hIndex⟩ :
      ∃ i, s.eventIdMap.slotIndex? = some i :=
    ⟨_, EventIdMap.slotIndex?_of_lt hIdle.currentSlot_lt⟩
  have hEntries :
      (s.ei.add event.time event.value event.code
          event.value.toUInt32).entries =
        [⟨event.time, event.value, event.code,
          event.value.toUInt32⟩] := by
    rw [EventInfo.entries_add_of_ne _ _ _ _ hAbs.2,
      hIdle.entries_eq, List.nil_append]
  refine ⟨i, _,
    Parser.parseTouch_of_flag_ne hIndex hIdle.slotFlag_ne, ?_⟩
  refine ⟨hIndex, ?_, ?_, ?_, ?_, ?_⟩
  · simp only [Function.update_self]
    intro hNone
    have hWord := congrArg UInt32.toInt32 hNone
    rw [Int32.toInt32_toUInt32] at hWord
    exact hValue hWord
  · simp [hIdle.slotCount_eq]
  · rw [EventInfo.played_add_of_abs _ hAbs.1 hAbs.2,
      EventInfo.played, hIdle.entries_eq]
    exact ⟨rfl, Stutter.Same.refl _⟩
  · simp [hEntries]
  · intro hReport
    rw [EventInfo.endsWithReport_add_of_ne _ _ _ _ hAbs.2]
      at hReport
    exact absurd hReport Bool.false_ne_true

theorem parseEvent_touch
    (hIdle : s.Idle)
    (hKind : event.kind = .touch) :
    ∃ i t,
      Parser.parseEvent event s = some (.parseSkip, t) ∧
        Follows k [event] i t := by
  have hAbs := InputEvent.abs_of_kind hKind (by decide)
  have hValue := InputEvent.value_ne_of_kind_touch hKind
  rw [Parser.parseEvent_eq]
  simp only [hKind]
  exact (hIdle.noteType event).touch hAbs hValue

/- An event behind the last contact is not recorded. -/
theorem parseEvent_settles
    (hIdle : s.Idle)
    (hSettles : Settles event) :
    Parser.parseEvent event s =
      some (.parseSkip, s.noteType event) := by
  rw [Parser.parseEvent_eq]
  rcases hSettles with hKind | hKind
  · have hCode := (InputEvent.of_kind_report hKind).2
    have hCount : (s.noteType event).ei.count = 0 := by
      simp [EventInfo.count, hIdle.entries_eq]
    simp only [hKind, Parser.parseReport, EventInfo.add]
    rw [if_pos ⟨hCode, Or.inl hCount⟩]
  · simp only [hKind]

theorem completed_eq_nil
    (closing : List InputEvent)
    (hIdle : s.Idle)
    (hSettles : ∀ event ∈ closing, Settles event) :
    s.completed closing = [] := by
  induction closing generalizing s with
  | nil => rfl
  | cons event closing ih =>
      rw [List.forall_mem_cons] at hSettles
      rw [Parser.completed_cons_of_ne
        (hIdle.parseEvent_settles hSettles.1) (by simp)]
      exact ih (hIdle.noteType event) hSettles.2

end Parser.Idle

end FzEvent

------------------------------------------------------------
-- When the Contact Lifts
------------------------------------------------------------

namespace FzEvent

/- The gesture of touch events is played as these events. -/
structure EventInfo.PlaysAs
    (ei : EventInfo)
    (events : List InputEvent) : Prop where
  eventType_eq : ei.eventType = evAbs
  nonempty : ei.entries ≠ []
  played_eq : ei.played = events

variable {k : SlotState}
variable {stream : List InputEvent}
variable {i : Fin defaultIdMapSize}
variable {s : Parser}
variable {event : InputEvent}

/- The last lift is followed by a report of the recorder. -/
theorem Follows.lift
    (hFollows : Follows k stream i s)
    (hAbs : event.type = evAbs ∧ event.code ≠ synReport)
    (hType : s.ei.eventType = evAbs) :
    ∃ t,
      Parser.parseLift event s = some (.parseEnd, t) ∧
        (t.clearAtEnd .parseEnd).Idle ∧
          t.ei.PlaysAs
            (s.ei.played ++
              [event, ⟨event.time, evSyn, synReport, 0⟩]) := by
  have hLast : s.eventIdMap.slotCount - 1 = 0 := by
    simp [hFollows.slotCount_eq]
  refine ⟨_,
    Parser.parseLift_of_last hFollows.slotIndex hLast, ?_, ?_⟩
  · refine ⟨rfl, rfl, ?_, ?_⟩
    · simp
    · simp [EventIdMap.clear]
  · have hLifted :=
      EventInfo.entries_add_ne_nil hFollows.nonempty
        event.time (s.eventIdMap.pair i).value.toInt32
        event.code event.value.toUInt32
    refine ⟨?_, ?_, ?_⟩
    · simpa using hType
    · exact EventInfo.entries_add_ne_nil hLifted _ _ _ _
    · have hReport :=
        EventInfo.played_add_report _
          ⟨event.time, evSyn, synReport, 0⟩ rfl rfl hLifted
          (-1)
      rw [EventInfo.endsWithReport_add_of_ne _ _ _ _ hAbs.2,
        if_neg Bool.false_ne_true,
        EventInfo.played_add_of_abs _ hAbs.1 hAbs.2,
        List.append_assoc] at hReport
      exact hReport

theorem Follows.parseEvent_lift
    (hFollows : Follows k stream i s)
    (hKind : event.kind = .lift) :
    ∃ t,
      Parser.parseEvent event s = some (.parseEnd, t) ∧
        (t.clearAtEnd .parseEnd).Idle ∧
          t.ei.PlaysAs
            (s.ei.played ++
              [event, ⟨event.time, evSyn, synReport, 0⟩]) := by
  have hAbs := InputEvent.abs_of_kind hKind (by decide)
  rw [Parser.parseEvent_eq]
  simp only [hKind]
  exact (hFollows.noteType event).lift hAbs hAbs.1

end FzEvent

------------------------------------------------------------
-- Sessions of One Contact
------------------------------------------------------------

namespace FzEvent

open Transition

/- What commits a lift: reports, at least one of them. -/
structure Closes (closing : List InputEvent) : Prop where
  settles : ∀ event ∈ closing, Settles event
  reported : ∃ event ∈ closing, event.kind = .report

namespace SlotState

theorem next_eq_of_settles
    (k : SlotState)
    {event : InputEvent}
    (hSettles : Settles event) :
    k.next event = k := by
  unfold next
  rcases hSettles with hKind | hKind
  · simp only [hKind]
  · simp only [hKind]

/- Behind the last contact every report commits one frame. -/
theorem frames_of_settles
    (k : SlotState)
    (closing : List InputEvent)
    (hSettles : ∀ event ∈ closing, Settles event) :
    k.frames closing =
      List.replicate
        (closing.countP (fun event => event.kind = .report))
        k.frame := by
  induction closing with
  | nil => rfl
  | cons event closing ih =>
      rw [List.forall_mem_cons] at hSettles
      rw [frames, k.next_eq_of_settles hSettles.1,
        ih hSettles.2, List.countP_cons]
      by_cases hReport : event.kind = .report
      · simp [hReport, List.replicate_succ]
      · simp [hReport]

/- Moves and what settles them may come at any time. -/
theorem meets_of_moves
    (moves : List InputEvent)
    {k : SlotState}
    (hMoves : ∀ event ∈ moves, Moves event) :
    slotProtocol.Meets Admits k moves := by
  induction moves generalizing k with
  | nil => trivial
  | cons event moves ih =>
      rw [List.forall_mem_cons] at hMoves
      rw [System.meets_cons_iff]
      refine ⟨?_, fun t _ => ih hMoves.2⟩
      unfold Admits
      rcases hMoves.1 with hKind | hKind | hKind | ⟨hKind, -⟩
      · simp only [hKind]
      · simp only [hKind]
      · simp only [hKind]
      · simp only [hKind]

theorem meets_of_settles
    (closing : List InputEvent)
    {k : SlotState}
    (hSettles : ∀ event ∈ closing, Settles event) :
    slotProtocol.Meets Admits k closing := by
  induction closing generalizing k with
  | nil => trivial
  | cons event closing ih =>
      rw [List.forall_mem_cons] at hSettles
      rw [System.meets_cons_iff]
      refine ⟨?_, fun t _ => ih hSettles.2⟩
      unfold Admits
      rcases hSettles.1 with hKind | hKind
      · simp only [hKind]
      · simp only [hKind]

/- A move leaves the contact in the current slot. -/
theorem contact_next_of_moves
    (k : SlotState)
    {event : InputEvent}
    (hMoves : Moves event) :
    (k.next event).contact (k.next event).current =
      k.contact k.current := by
  unfold next
  rcases hMoves with hKind | hKind | hKind | ⟨hKind, -⟩
  · simp only [hKind]
  · simp only [hKind]
  · simp only [hKind]
  · simp only [hKind]

theorem contact_after_of_moves
    (moves : List InputEvent)
    {k : SlotState}
    (hMoves : ∀ event ∈ moves, Moves event) :
    (k.after moves).contact (k.after moves).current =
      k.contact k.current := by
  induction moves generalizing k with
  | nil => rfl
  | cons event moves ih =>
      rw [List.forall_mem_cons] at hMoves
      rw [after_cons, ih hMoves.2,
        contact_next_of_moves k hMoves.1]

end SlotState

/- However the lift is committed, the frames are the same. -/
theorem Reproduces.close
    {k : SlotState}
    {stream played closing closing' : List InputEvent}
    (hReproduces : Reproduces k stream played)
    (hCloses : Closes closing)
    (hCloses' : Closes closing') :
    Stutter.Same (k.frames (played ++ closing'))
      (k.frames (stream ++ closing)) := by
  have hReported :
      ∀ events : List InputEvent, Closes events →
        events.countP (fun event => event.kind = .report) ≠
          0 := by
    intro events hEvents hNone
    rcases hEvents.reported with ⟨event, hMem, hReport⟩
    exact List.countP_eq_zero.mp hNone event hMem
      (by simpa using hReport)
  rw [SlotState.frames_append, SlotState.frames_append,
    SlotState.frames_of_settles _ _ hCloses.settles,
    SlotState.frames_of_settles _ _ hCloses'.settles,
    hReproduces.after_eq]
  exact hReproduces.frames_same.append_replicate _
    (hReported closing' hCloses') (hReported closing hCloses)

/-
  One contact goes down in the current slot, moves and lifts,
  and a report commits the lift.
-/
structure SingleContactSession where
  down : InputEvent
  moves : List InputEvent
  up : InputEvent
  closing : List InputEvent
  down_kind : down.kind = .touch
  moves_kind : ∀ event ∈ moves, Moves event
  up_kind : up.kind = .lift
  closes : Closes closing

namespace SingleContactSession

/- The events of the session. -/
def stream (session : SingleContactSession) : List InputEvent :=
  session.down ::
    (session.moves ++ session.up :: session.closing)

/- The kernel may send the session into an empty slot. -/
theorem meets_admits
    (session : SingleContactSession)
    {k : SlotState}
    (hEmpty : k.contact k.current = none) :
    slotProtocol.Meets SlotState.Admits k session.stream := by
  have hDown : k.Admits session.down := by
    simpa [SlotState.Admits, session.down_kind] using hEmpty
  rw [stream, System.meets_cons_iff]
  refine ⟨hDown, ?_⟩
  rintro l ⟨⟩
  rw [System.meets_append_iff]
  refine ⟨SlotState.meets_of_moves _ session.moves_kind, ?_⟩
  rintro m hMoved
  rw [slotProtocol_exec] at hMoved
  cases hMoved
  have hUp :
      ((k.next session.down).after session.moves).Admits
        session.up := by
    simp only [SlotState.Admits, session.up_kind]
    rw [SlotState.contact_after_of_moves _ session.moves_kind]
    simp [SlotState.next, session.down_kind]
  rw [System.meets_cons_iff]
  refine ⟨hUp, ?_⟩
  rintro n ⟨⟩
  exact SlotState.meets_of_settles _ session.closes.settles

/- The recorder makes one gesture of the session. -/
theorem exists_completed_stream
    (session : SingleContactSession)
    (k : SlotState)
    {s : Parser}
    (hIdle : s.Idle) :
    ∃ ei played,
      s.completed session.stream = [ei] ∧
        ei.PlaysAs
          (played ++
            [session.up,
              ⟨session.up.time, evSyn, synReport, 0⟩]) ∧
          Reproduces k (session.down :: session.moves)
            played := by
  rcases hIdle.parseEvent_touch (k := k) session.down_kind with
    ⟨i, t, hDown, hFollows⟩
  rcases hFollows.run session.moves session.moves_kind with
    ⟨u, hMoved, hRun⟩
  rcases hMoved.parseEvent_lift session.up_kind with
    ⟨v, hUp, hIdleAgain, hPlaysAs⟩
  refine ⟨v.ei, u.ei.played, ?_, hPlaysAs, hMoved.reproduces⟩
  rw [stream, Parser.completed_cons_of_ne hDown (by simp),
    hRun, Parser.completed_cons_of_parseEnd hUp,
    hIdleAgain.completed_eq_nil session.closing
      session.closes.settles]

end SingleContactSession

/- Two reports commit a lift. -/
theorem closes_pair
    {event event' : InputEvent}
    (hKind : event.kind = .report)
    (hKind' : event'.kind = .report) :
    Closes [event, event'] where
  settles := by
    simp [Settles, hKind, hKind']
  reported := ⟨event, List.mem_cons_self, hKind⟩

/-
  The kernel may send the session of a single contact into an
  empty slot. The recorder makes one gesture of the session,
  and its replay reproduces the frames.
-/
theorem replaysFrames_singleContactSession
    (k : SlotState)
    (s : Parser)
    (session : SingleContactSession)
    (tv : Timeval)
    (devId : Int32)
    (hIdle : s.Idle)
    (hTimes :
      ∀ event ∈ session.stream, ¬ IsMarker event.time)
    (hLength : 44 + 18 * session.stream.length < 2 ^ 32) :
    (k.contact k.current = none →
        slotProtocol.Meets SlotState.Admits k
          session.stream) ∧
      ∃ ei, s.completed session.stream = [ei] ∧
        ReplaysFrames k session.stream tv devId ei := by
  refine ⟨session.meets_admits, ?_⟩
  rcases session.exists_completed_stream k hIdle with
    ⟨ei, played, hCompleted, hPlaysAs, hReproduces⟩
  have hMem : ei ∈ s.completed session.stream := by
    simp [hCompleted]
  have hReplayed :=
    replayed_of_mem_completed tv devId hIdle.entries_eq hTimes
      hLength hMem hPlaysAs.nonempty
  rw [hPlaysAs.eventType_eq, ← EventInfo.played,
    hPlaysAs.played_eq] at hReplayed
  refine ⟨ei, hCompleted, _, hReplayed, ?_⟩
  have hLifted := hReproduces.concat session.up
  have hInjected :
      Closes
        [⟨session.up.time, evSyn, synReport, 0⟩,
          closingReport
            (played ++ [session.up,
              ⟨session.up.time, evSyn, synReport, 0⟩])] :=
    closes_pair rfl rfl
  have hSame := hLifted.close session.closes hInjected
  simpa [SingleContactSession.stream] using hSame

/- A swipe of three frames. -/
def shortSwipe : SingleContactSession where
  down := .abs absMtTrackingId 7
  moves :=
    [.abs absMtPositionX 10, .abs absMtPositionY 20, .report,
      .report, .abs absMtPositionX 15, .report]
  up := .abs absMtTrackingId (-1)
  closing := [.report]
  down_kind := by decide
  moves_kind := by decide
  up_kind := by decide
  closes := ⟨by decide, by decide⟩

theorem replaysFrames_shortSwipe :
    WellFormed shortSwipe.stream ∧
      ∃ ei,
        Parser.init.completed shortSwipe.stream = [ei] ∧
          ReplaysFrames SlotState.init shortSwipe.stream ⟨1, 0⟩
            2 ei :=
  (replaysFrames_singleContactSession SlotState.init
    Parser.init shortSwipe ⟨1, 0⟩ 2 Parser.idle_init
    (by decide) (by decide)).imp_left fun hMeets => hMeets rfl

end FzEvent

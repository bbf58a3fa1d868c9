import FzEvent.Evdev.SlotProtocol
import FzEvent.Recorder.ParseEvent

/-
  When the recorder ends a touch session.

  Over a stream of the slot protocol the recorder's counter
  follows the number of occupied slots as long as no contact
  is swallowed by `slot_flag`. A lift that leaves other
  contacts down does not set the flag again, so a contact
  that goes down next in the same slot is swallowed.

  Main declarations:
    * `FzEvent.EndsExactly`
    * `FzEvent.Rearmed`
    * `FzEvent.InStep` and `inStep_step`
    * `FzEvent.endsExactly_of_rearmed`
-/

------------------------------------------------------------
-- The Session-End Property
------------------------------------------------------------

namespace FzEvent

open Transition

/-
  Along the stream `parse_event` returns `PARSE_END` exactly
  on the lifts that leave no slot occupied.
-/
def EndsExactly (stream : List InputEvent) : Prop :=
  ∀ before event rest,
    stream = before ++ event :: rest →
      ∃ s ret t,
        recorder.exec recorder.init before = some s ∧
          Parser.parseEvent event s = some (ret, t) ∧
            (ret = .parseEnd ↔
              (SlotState.init.after before).LastLift event)

/-
  No contact has gone down since the last slot change or the
  last session end.
-/
def armedAfter
    (k : SlotState)
    (armed : Bool)
    (event : InputEvent) : Bool :=
  match event.kind with
  | .touch => false
  | .slot => true
  | .lift => armed || decide ((k.next event).occupied = ∅)
  | _ => armed

/- The slots together with that flag. -/
def rearming : System (SlotState × Bool) InputEvent where
  init := (SlotState.init, true)
  step a event :=
    some (a.1.next event, armedAfter a.1 a.2 event)

/-
  Between two contacts going down there is a slot change or
  a session end.
-/
def Rearmed (stream : List InputEvent) : Prop :=
  rearming.Meets
    (fun a event => event.kind = .touch → a.2 = true)
    rearming.init stream

instance (stream : List InputEvent) :
    Decidable (Rearmed stream) :=
  System.decidableMeets _ _ _ _

theorem wellFormed_iff_rearming
    (stream : List InputEvent) :
    WellFormed stream ↔
      rearming.Meets (fun a event => a.1.Admits event)
        rearming.init stream :=
  (rearming.meets_projection_iff slotProtocol Prod.fst
    (fun _ _ => rfl) SlotState.Admits rearming.init
    stream).symm

end FzEvent

------------------------------------------------------------
-- Recorder and Kernel in Step
------------------------------------------------------------

namespace FzEvent

open Transition

/-
  The recorder is in step with the kernel: the counter is
  the number of contacts that are down, the flag is set when
  no contact has gone down since it was last set, and the
  cursor is inside the table.
-/
structure InStep
    (a : SlotState × Bool)
    (s : Parser) : Prop where
  count : s.eventIdMap.slotCount = a.1.occupied.card
  flag : s.slotFlag ≠ 0 ↔ a.2 = true
  inRange :
    s.eventIdMap.currentSlot.toNat < defaultIdMapSize

theorem inStep_init :
    InStep rearming.init recorder.init where
  count := by
    simp [rearming, recorder, Parser.init, EventIdMap.clear]
  flag := by simp [rearming, recorder, Parser.init]
  inRange := by
    simp [recorder, Parser.init, EventIdMap.clear]

/- Calls that leave the table alone keep the two in step. -/
theorem InStep.of_quiet
    {a : SlotState × Bool}
    {s t : Parser}
    {event : InputEvent}
    (hStep : InStep a s)
    (hTouch : event.kind ≠ .touch)
    (hLift : event.kind ≠ .lift)
    (hSlot : event.kind ≠ .slot)
    (hMap : t.eventIdMap = s.eventIdMap)
    (hFlag : t.slotFlag = s.slotFlag) :
    InStep (a.1.next event, armedAfter a.1 a.2 event) t where
  count := by
    rw [hMap, a.1.occupied_next_of_ne hTouch hLift]
    exact hStep.count
  flag := by
    have hArmed : armedAfter a.1 a.2 event = a.2 := by
      unfold armedAfter
      cases hKind : event.kind <;> simp_all
    rw [hFlag, hArmed]
    exact hStep.flag
  inRange := by
    rw [hMap]
    exact hStep.inRange

/- A contact registered with the flag set keeps them in step. -/
theorem InStep.of_touch
    {a : SlotState × Bool}
    {s t : Parser}
    {event : InputEvent}
    (hStep : InStep a s)
    (hKind : event.kind = .touch)
    (hEmpty : a.1.contact a.1.current = none)
    (hCount :
      t.eventIdMap.slotCount = s.eventIdMap.slotCount + 1)
    (hCurrent :
      t.eventIdMap.currentSlot = s.eventIdMap.currentSlot)
    (hFlag : t.slotFlag = 0) :
    InStep (a.1.next event, armedAfter a.1 a.2 event) t where
  count := by
    have hFresh : a.1.current ∉ a.1.occupied := by
      simp [hEmpty]
    rw [hCount, a.1.occupied_next_of_touch hKind,
      Finset.card_insert_of_notMem hFresh, hStep.count]
    push_cast
    rfl
  flag := by simp [hFlag, armedAfter, hKind]
  inRange := by
    rw [hCurrent]
    exact hStep.inRange

/- A lift of a contact that is down counts one less. -/
theorem InStep.slotCount_sub_one
    {a : SlotState × Bool}
    {s : Parser}
    {event : InputEvent}
    (hStep : InStep a s)
    (hKind : event.kind = .lift)
    (hDown : a.1.contact a.1.current ≠ none) :
    s.eventIdMap.slotCount - 1 =
      ((a.1.next event).occupied.card : Int) := by
  have hMember : a.1.current ∈ a.1.occupied := by
    simpa using hDown
  have hPos : 0 < a.1.occupied.card :=
    Finset.card_pos.mpr ⟨_, hMember⟩
  rw [a.1.occupied_next_of_lift hKind,
    Finset.card_erase_of_mem hMember, hStep.count]
  omega

/- A lift of one of several contacts keeps them in step. -/
theorem InStep.of_lift
    {a : SlotState × Bool}
    {s t : Parser}
    {event : InputEvent}
    (hStep : InStep a s)
    (hKind : event.kind = .lift)
    (hOthers : (a.1.next event).occupied ≠ ∅)
    (hCount :
      t.eventIdMap.slotCount =
        (a.1.next event).occupied.card)
    (hCurrent :
      t.eventIdMap.currentSlot = s.eventIdMap.currentSlot)
    (hFlag : t.slotFlag = s.slotFlag) :
    InStep (a.1.next event, armedAfter a.1 a.2 event) t where
  count := hCount
  flag := by
    rw [hFlag, hStep.flag]
    simp [armedAfter, hKind, hOthers]
  inRange := by
    rw [hCurrent]
    exact hStep.inRange

/- The cleared table is in step with no contact down. -/
theorem InStep.of_lastLift
    {a : SlotState × Bool}
    {t : Parser}
    {event : InputEvent}
    (hLast : a.1.LastLift event)
    (hMap : t.eventIdMap = EventIdMap.clear)
    (hFlag : t.slotFlag = 1) :
    InStep (a.1.next event, armedAfter a.1 a.2 event) t where
  count := by simp [hMap, EventIdMap.clear, hLast.2]
  flag := by simp [hFlag, armedAfter, hLast.1, hLast.2]
  inRange := by simp [hMap, EventIdMap.clear]

/- A slot change inside the table keeps them in step. -/
theorem InStep.of_slot
    {a : SlotState × Bool}
    {s t : Parser}
    {event : InputEvent}
    (hStep : InStep a s)
    (hKind : event.kind = .slot)
    (hRange : event.value.toUInt32.toNat < numSlots)
    (hCount :
      t.eventIdMap.slotCount = s.eventIdMap.slotCount)
    (hCurrent :
      t.eventIdMap.currentSlot = event.value.toUInt32)
    (hFlag : t.slotFlag = 1) :
    InStep (a.1.next event, armedAfter a.1 a.2 event) t where
  count := by
    rw [hCount, a.1.occupied_next_of_ne (by simp [hKind])
      (by simp [hKind])]
    exact hStep.count
  flag := by simp [hFlag, armedAfter, hKind]
  inRange := by
    rw [hCurrent]
    exact hRange

/-
  The step lemma: on an event the kernel may send, with the
  flag set if a contact goes down, the call returns
  `PARSE_END` exactly on the last lift and the two sides
  stay in step.
-/
theorem inStep_step
    {a : SlotState × Bool}
    {s : Parser}
    {event : InputEvent}
    (hStep : InStep a s)
    (hAdmits : a.1.Admits event)
    (hArmed : event.kind = .touch → a.2 = true) :
    ∃ ret t,
      Parser.parseEvent event s = some (ret, t) ∧
        (ret = .parseEnd ↔ a.1.LastLift event) ∧
          InStep (a.1.next event, armedAfter a.1 a.2 event)
            (t.clearAtEnd ret) := by
  have hIndex :
      (s.noteType event).eventIdMap.slotIndex? =
        some ⟨_, hStep.inRange⟩ :=
    EventIdMap.slotIndex?_of_lt hStep.inRange
  rw [Parser.parseEvent_eq]
  unfold SlotState.Admits at hAdmits
  cases hKind : event.kind with
  | report =>
      refine ⟨_, _, rfl, ?_, ?_⟩
      · simp [SlotState.LastLift, hKind]
      · apply hStep.of_quiet <;> simp [hKind]
  | touch =>
      have hFlag : (s.noteType event).slotFlag ≠ 0 :=
        hStep.flag.mpr (hArmed hKind)
      simp only [hKind] at hAdmits
      refine ⟨_, _,
        Parser.parseTouch_of_flag_ne hIndex hFlag, ?_, ?_⟩
      · simp [SlotState.LastLift, hKind]
      · apply hStep.of_touch hKind hAdmits <;> simp
  | lift =>
      simp only [hKind] at hAdmits
      have hCard := hStep.slotCount_sub_one hKind hAdmits
      by_cases hNone : (a.1.next event).occupied = ∅
      · have hLast : a.1.LastLift event := ⟨hKind, hNone⟩
        have hZero :
            (s.noteType event).eventIdMap.slotCount - 1 = 0 := by
          simpa [hNone] using hCard
        refine ⟨_, _,
          Parser.parseLift_of_last hIndex hZero, ?_, ?_⟩
        · simp [hLast]
        · apply InStep.of_lastLift hLast <;> simp
      · have hMore :
            (s.noteType event).eventIdMap.slotCount - 1 ≠ 0 := by
          rw [Parser.eventIdMap_noteType, hCard]
          simpa using hNone
        refine ⟨_, _,
          Parser.parseLift_of_not_last hIndex hMore, ?_, ?_⟩
        · simp [SlotState.LastLift, hNone]
        · apply hStep.of_lift hKind hNone <;> simp [hCard]
  | slot =>
      simp only [hKind] at hAdmits
      rcases hAdmits with ⟨i, hSlot, -⟩
      refine ⟨_, _, rfl, ?_, ?_⟩
      · simp [SlotState.LastLift, hKind]
      · apply hStep.of_slot hKind
          (SlotState.toNat_lt_of_slotOf?_eq_some hSlot) <;>
          simp [EventIdMap.changeCurrentTouchId]
  | positionX =>
      rcases Parser.exists_parsePosition event hIndex with
        ⟨ret, t, hParse, hRet, hMap, hFlag⟩
      refine ⟨ret, t, hParse, ?_, ?_⟩
      · simp [SlotState.LastLift, hKind, hRet]
      · apply hStep.of_quiet <;> simp [hKind, hMap, hFlag]
  | positionY =>
      rcases Parser.exists_parsePosition event hIndex with
        ⟨ret, t, hParse, hRet, hMap, hFlag⟩
      refine ⟨ret, t, hParse, ?_, ?_⟩
      · simp [SlotState.LastLift, hKind, hRet]
      · apply hStep.of_quiet <;> simp [hKind, hMap, hFlag]
  | key => simp [hKind] at hAdmits
  | other =>
      refine ⟨_, _, rfl, ?_, ?_⟩
      · simp [SlotState.LastLift, hKind]
      · apply hStep.of_quiet <;> simp [hKind]

end FzEvent

------------------------------------------------------------
-- Whole Streams
------------------------------------------------------------

namespace FzEvent

open Transition

theorem rearming_exec_fst
    {a a' : SlotState × Bool}
    {stream : List InputEvent}
    (hRun : rearming.exec a stream = some a') :
    a'.1 = a.1.after stream := by
  induction stream generalizing a with
  | nil =>
      rw [System.exec_nil, Option.some.injEq] at hRun
      rw [← hRun, SlotState.after_nil]
  | cons event stream ih => exact ih hRun

theorem rearming_exec_isSome
    (a : SlotState × Bool)
    (stream : List InputEvent) :
    ∃ a', rearming.exec a stream = some a' := by
  induction stream generalizing a with
  | nil => exact ⟨a, rfl⟩
  | cons event stream ih => exact ih _

/-
  Over every stream of the protocol in which no contact goes
  down without a slot change or a session end since the one
  before, the recorder ends its sessions exactly.
-/
theorem endsExactly_of_rearmed
    (stream : List InputEvent)
    (hWellFormed : WellFormed stream)
    (hRearmed : Rearmed stream) :
    EndsExactly stream := by
  intro before event rest hStream
  have hMeets :=
    (rearming.meets_and_iff _ _ rearming.init stream).mpr
      ⟨(wellFormed_iff_rearming stream).mp hWellFormed,
        hRearmed⟩
  rw [hStream, System.meets_append_iff] at hMeets
  rcases hMeets with ⟨hBefore, hAfter⟩
  rcases rearming_exec_isSome rearming.init before with
    ⟨a, hRun⟩
  have hEvent :=
    ((rearming.meets_cons_iff _ a event rest).mp
      (hAfter a hRun)).1
  have hMatch :
      ∃ s, recorder.exec recorder.init before = some s ∧
        InStep a s := by
    refine rearming.simulation_of_meets recorder ?_
      inStep_init hBefore hRun
    intro a s event a' hStep hCond hNext
    rcases inStep_step hStep hCond.1 hCond.2 with
      ⟨ret, t, hParse, -, hStep'⟩
    rw [← Option.some.inj hNext]
    exact ⟨_, recorder_step_of_parseEvent hParse, hStep'⟩
  rcases hMatch with ⟨s, hExec, hStep⟩
  rcases inStep_step hStep hEvent.1 hEvent.2 with
    ⟨ret, t, hParse, hEnd, -⟩
  rw [rearming_exec_fst hRun] at hEnd
  exact ⟨s, ret, t, hExec, hParse, hEnd⟩

/- Two contacts that go down and lift one after the other. -/
def twoContacts : List InputEvent :=
  [.abs absMtTrackingId 1, .abs absMtSlot 1,
    .abs absMtTrackingId 2, .abs absMtTrackingId (-1),
    .abs absMtSlot 0, .abs absMtTrackingId (-1)]

theorem endsExactly_twoContacts :
    EndsExactly twoContacts :=
  endsExactly_of_rearmed twoContacts (by decide) (by decide)

/-
  A contact stays in slot 0 while another one goes down in
  slot 1, lifts, goes down again and lifts. The second time
  it is swallowed, so its lift ends the session although
  slot 0 is still occupied.
-/
def retouch : List InputEvent :=
  [.abs absMtTrackingId 1, .abs absMtSlot 1,
    .abs absMtTrackingId 2, .abs absMtTrackingId (-1),
    .abs absMtTrackingId 3, .abs absMtTrackingId (-1)]

theorem not_endsExactly_of_wellFormed :
    ¬ ∀ stream, WellFormed stream → EndsExactly stream := by
  intro hAll
  have hEnds : EndsExactly retouch :=
    hAll retouch (by decide)
  rcases hEnds (retouch.take 5) (.abs absMtTrackingId (-1)) []
      rfl with
    ⟨s, ret, t, hRun, hParse, hIff⟩
  have hRet :
      ((recorder.exec recorder.init (retouch.take 5)).bind
        (Parser.parseEvent (.abs absMtTrackingId (-1)))).map
          Prod.fst = some .parseEnd := by
    decide
  rw [hRun, Option.bind_some, hParse] at hRet
  have hLast := hIff.mp (Option.some.inj hRet)
  exact absurd hLast (by decide)

end FzEvent

import FzEvent.Recorder.SessionEnd

/-
  To which contact the recorder attributes a coordinate.

  The recorder keeps a contact's id in the element of `pair[]`
  its cursor is on, but the end of a session moves the cursor
  to 0 while the kernel stays in its slot. The contact that
  goes down next in that slot is filed under 0 and is lost at
  the next slot change, until it lifts.

  Main declarations:
    * `FzEvent.Attributes`
    * `FzEvent.Filing`, `Filing.next` and `Filing.Admits`
    * `FzEvent.Files` and `files_of_admits`
    * `FzEvent.attributes_iff_meets`
-/

------------------------------------------------------------
-- The Attribution Property
------------------------------------------------------------

namespace FzEvent

open Transition

/-
  A coordinate of a contact is appended with the tracking id
  of that contact, and a new contact is appended once.
-/
def AttributesEvent
    (k : SlotState)
    (event : InputEvent)
    (s t : Parser) : Prop :=
  match event.kind with
  | .touch =>
      t.ei.entries = s.ei.entries ++ [event.entry event.value]
  | .positionX | .positionY =>
      ∀ id, k.contact k.current = some id →
        t.ei.entries = s.ei.entries ++ [event.entry id]
  | _ => True

/- Every event of the stream is attributed to its contact. -/
def Attributes (stream : List InputEvent) : Prop :=
  ∀ before event rest s,
    stream = before ++ event :: rest →
      recorder.exec recorder.init before = some s →
        ∃ ret t,
          Parser.parseEvent event s = some (ret, t) ∧
            AttributesEvent (SlotState.init.after before)
              event s t

end FzEvent

------------------------------------------------------------
-- Where the Recorder Files Contacts
------------------------------------------------------------

namespace FzEvent

open Transition

/-
  The kernel's slots, the flag of `armedAfter`, whether the
  cursor is on the kernel's slot, and the contact whose slot
  has no id in the table.
-/
structure Filing where
  slots : SlotState
  armed : Bool
  synced : Bool
  lost : Option (Fin numSlots)

namespace Filing

def init : Filing where
  slots := SlotState.init
  armed := true
  synced := true
  lost := none

/- A slot change brings the cursor back to the kernel's. -/
def syncedAfter
    (a : Filing)
    (event : InputEvent) : Bool :=
  match event.kind with
  | .slot => true
  | .lift =>
      if a.slots.LastLift event then
        decide (a.slots.current = 0)
      else
        a.synced
  | _ => a.synced

/-
  A contact that went down while the cursor was elsewhere is
  lost at the slot change, until it lifts.
-/
def lostAfter
    (a : Filing)
    (event : InputEvent) : Option (Fin numSlots) :=
  match event.kind with
  | .slot =>
      if a.synced = false ∧
          a.slots.current ∈ a.slots.occupied then
        some a.slots.current
      else
        a.lost
  | .lift =>
      if a.lost = some a.slots.current then none else a.lost
  | _ => a.lost

def next
    (a : Filing)
    (event : InputEvent) : Filing where
  slots := a.slots.next event
  armed := armedAfter a.slots a.armed event
  synced := a.syncedAfter event
  lost := a.lostAfter event

/-
  A contact goes down only after a slot change or a session
  end since the one before, and a lost contact does not move.
-/
def Admits
    (a : Filing)
    (event : InputEvent) : Prop :=
  match event.kind with
  | .touch => a.armed = true
  | .positionX | .positionY =>
      a.lost ≠ some a.slots.current
  | _ => True

instance (a : Filing) (event : InputEvent) :
    Decidable (a.Admits event) := by
  unfold Admits
  exact match event.kind with
    | .touch => inferInstanceAs (Decidable (a.armed = true))
    | .positionX | .positionY =>
        inferInstanceAs
          (Decidable (a.lost ≠ some a.slots.current))
    | .report | .lift | .slot => .isTrue trivial
    | .key | .other => .isTrue trivial

/- The index the recorder's cursor is on. -/
def cursor (a : Filing) : Fin numSlots :=
  if a.synced then a.slots.current else 0

/- The index under which the contact of a slot is filed. -/
def home
    (a : Filing)
    (i : Fin numSlots) : Fin numSlots :=
  if a.synced then i else 0

end Filing

/- The filing as a system that follows the stream. -/
def filing : System Filing InputEvent where
  init := Filing.init
  step a event := some (a.next event)

end FzEvent

------------------------------------------------------------
-- Recorder and Filing Agree
------------------------------------------------------------

namespace FzEvent

/- The pair holds the id. -/
structure Pair.Holds
    (pair : Pair)
    (id : Int32) : Prop where
  value_eq : pair.value = id.toUInt32
  value_ne : pair.value ≠ 0xffffffff

/-
  The slot table is as the filing says: every contact that
  is not lost has its id at its home, a lost one has none in
  its slot, and before the cursor is back nothing but the
  current slot is in use.
-/
structure Files
    (a : Filing)
    (s : Parser) : Prop where
  inStep : InStep (a.slots, a.armed) s
  cursor_eq :
    s.eventIdMap.currentSlot.toNat = a.cursor.val
  filed :
    ∀ i id, a.slots.contact i = some id →
      a.lost ≠ some i →
        (s.eventIdMap.pair (a.home i)).Holds id
  lost :
    ∀ i, a.lost = some i →
      a.synced = true ∧ i ∈ a.slots.occupied ∧
        (s.eventIdMap.pair i).value = 0xffffffff
  unsynced :
    a.synced = false →
      a.slots.current ≠ 0 ∧
        (∀ i, i ≠ a.slots.current →
          i ∉ a.slots.occupied) ∧
          ∀ i, i ≠ 0 →
            (s.eventIdMap.pair i).value = 0xffffffff

theorem files_init : Files filing.init recorder.init where
  inStep := inStep_init
  cursor_eq := rfl
  filed := by simp [filing, Filing.init, SlotState.init]
  lost := by simp [filing, Filing.init]
  unsynced := by simp [filing, Filing.init]

namespace Files

variable {a : Filing} {s t : Parser} {event : InputEvent}

theorem slotIndex?_eq (hFiles : Files a s) :
    s.eventIdMap.slotIndex? = some a.cursor := by
  rw [EventIdMap.slotIndex?_of_lt hFiles.inStep.inRange]
  exact congrArg some (Fin.ext hFiles.cursor_eq)

/- Calls that leave the table alone. -/
theorem of_quiet
    (hFiles : Files a s)
    (hTouch : event.kind ≠ .touch)
    (hLift : event.kind ≠ .lift)
    (hSlot : event.kind ≠ .slot)
    (hStep :
      InStep ((a.next event).slots, (a.next event).armed) t)
    (hMap : t.eventIdMap = s.eventIdMap) :
    Files (a.next event) t := by
  have hSynced : (a.next event).synced = a.synced := by
    simp only [Filing.next, Filing.syncedAfter]
  have hLost : (a.next event).lost = a.lost := by
    simp only [Filing.next, Filing.lostAfter]
  have hCurrent :
      (a.next event).slots.current = a.slots.current :=
    a.slots.current_next_of_ne hSlot
  have hContact :
      (a.next event).slots.contact = a.slots.contact :=
    a.slots.contact_next_of_ne hTouch hLift
  have hOccupied :
      (a.next event).slots.occupied = a.slots.occupied :=
    a.slots.occupied_next_of_ne hTouch hLift
  constructor
  · exact hStep
  · rw [hMap, hFiles.cursor_eq]
    simp only [Filing.cursor, hSynced, hCurrent]
  · intro i id hHere hNot
    rw [hContact] at hHere
    rw [hLost] at hNot
    rw [hMap]
    simp only [Filing.home, hSynced]
    exact hFiles.filed i id hHere hNot
  · intro i hHere
    rw [hLost] at hHere
    rw [hSynced, hOccupied, hMap]
    exact hFiles.lost i hHere
  · intro hNot
    rw [hSynced] at hNot
    rw [hCurrent, hOccupied, hMap]
    exact hFiles.unsynced hNot

/- What is filed of other slots survives a change at the cursor. -/
theorem filed_update
    (hFiles : Files a s)
    {i : Fin numSlots}
    {id : Int32}
    (hSame : i ≠ a.slots.current)
    (hHere : a.slots.contact i = some id)
    (hNot : a.lost ≠ some i)
    (pair : Pair) :
    (Function.update s.eventIdMap.pair a.cursor pair
      (a.home i)).Holds id := by
  have hOther := hFiles.filed i id hHere hNot
  cases hSync : a.synced with
  | true =>
      simp only [Filing.home, Filing.cursor, hSync, if_true]
        at hOther ⊢
      rw [Function.update_of_ne hSame]
      exact hOther
  | false =>
      have hNone := (hFiles.unsynced hSync).2.1 i hSame
      simp [hHere] at hNone

/- So does the missing id of a lost contact. -/
theorem lost_update
    (hFiles : Files a s)
    {i : Fin numSlots}
    (hSame : i ≠ a.slots.current)
    (hLost : a.lost = some i)
    (pair : Pair) :
    (Function.update s.eventIdMap.pair a.cursor pair i).value =
      0xffffffff := by
  rcases hFiles.lost i hLost with ⟨hSync, -, hNoId⟩
  have hNotCursor : i ≠ a.cursor := by
    rw [Filing.cursor, hSync, if_pos rfl]
    exact hSame
  rw [Function.update_of_ne hNotCursor]
  exact hNoId

/- Before the cursor is back, only element 0 changes. -/
theorem unsynced_update
    (hFiles : Files a s)
    (hSync : a.synced = false)
    (pair : Pair)
    {i : Fin numSlots}
    (hZero : i ≠ 0) :
    (Function.update s.eventIdMap.pair a.cursor pair i).value =
      0xffffffff := by
  have hAtZero : a.cursor = 0 := by
    simp [Filing.cursor, hSync]
  rw [hAtZero, Function.update_of_ne hZero]
  exact (hFiles.unsynced hSync).2.2 i hZero

/- A contact that goes down is filed at the cursor. -/
theorem of_touch
    (hFiles : Files a s)
    (hKind : event.kind = .touch)
    (hEmpty : a.slots.contact a.slots.current = none)
    (hStep :
      InStep ((a.next event).slots, (a.next event).armed) t)
    {pair : Pair}
    (hHolds : pair.Holds event.value)
    (hPair :
      t.eventIdMap.pair =
        Function.update s.eventIdMap.pair a.cursor pair)
    (hCursor :
      t.eventIdMap.currentSlot = s.eventIdMap.currentSlot) :
    Files (a.next event) t := by
  have hSynced : (a.next event).synced = a.synced := by
    simp [Filing.next, Filing.syncedAfter, hKind]
  have hLost : (a.next event).lost = a.lost := by
    simp [Filing.next, Filing.lostAfter, hKind]
  have hCurrent :
      (a.next event).slots.current = a.slots.current := by
    simp [Filing.next, SlotState.next, hKind]
  have hContact :
      (a.next event).slots.contact =
        Function.update a.slots.contact a.slots.current
          (some event.value) := by
    simp [Filing.next, SlotState.next, hKind]
  have hOccupied :
      (a.next event).slots.occupied =
        insert a.slots.current a.slots.occupied :=
    a.slots.occupied_next_of_touch hKind
  have hFree : a.slots.current ∉ a.slots.occupied := by
    simp [hEmpty]
  constructor
  · exact hStep
  · rw [hCursor, hFiles.cursor_eq]
    simp only [Filing.cursor, hSynced, hCurrent]
  · intro i id hHere hNot
    rw [hContact] at hHere
    rw [hLost] at hNot
    have hHome : (a.next event).home i = a.home i := by
      simp only [Filing.home, hSynced]
    rw [hPair, hHome]
    by_cases hSame : i = a.slots.current
    · -- the new contact, at the cursor
      subst hSame
      have hAtCursor : a.home a.slots.current = a.cursor := rfl
      rw [Function.update_self, Option.some.injEq] at hHere
      rw [hAtCursor, Function.update_self, ← hHere]
      exact hHolds
    · rw [Function.update_of_ne hSame] at hHere
      exact hFiles.filed_update hSame hHere hNot pair
  · intro i hHere
    rw [hLost] at hHere
    rcases hFiles.lost i hHere with ⟨hSync, hMember, -⟩
    have hSame : i ≠ a.slots.current := by
      intro hEq
      exact hFree (hEq ▸ hMember)
    rw [hSynced, hOccupied, hPair]
    exact ⟨hSync, Finset.mem_insert_of_mem hMember,
      hFiles.lost_update hSame hHere pair⟩
  · intro hNot
    rw [hSynced] at hNot
    rcases hFiles.unsynced hNot with ⟨hZero, hNone, -⟩
    rw [hCurrent, hOccupied, hPair]
    refine ⟨hZero, ?_, ?_⟩
    · intro i hSame hMember
      rcases Finset.mem_insert.mp hMember with hEq | hOld
      · exact hSame hEq
      · exact hNone i hSame hOld
    · intro i hSame
      exact hFiles.unsynced_update hNot pair hSame

/- A lift that leaves other contacts down. -/
theorem of_lift
    (hFiles : Files a s)
    (hKind : event.kind = .lift)
    (hOthers : ¬ a.slots.LastLift event)
    (hStep :
      InStep ((a.next event).slots, (a.next event).armed) t)
    (hPair :
      t.eventIdMap.pair =
        Function.update s.eventIdMap.pair a.cursor Pair.empty)
    (hCursor :
      t.eventIdMap.currentSlot = s.eventIdMap.currentSlot) :
    Files (a.next event) t := by
  have hSynced : (a.next event).synced = a.synced := by
    simp [Filing.next, Filing.syncedAfter, hKind, hOthers]
  have hCurrent :
      (a.next event).slots.current = a.slots.current := by
    simp [Filing.next, SlotState.next, hKind]
  have hContact :
      (a.next event).slots.contact =
        Function.update a.slots.contact a.slots.current
          none := by
    simp [Filing.next, SlotState.next, hKind]
  have hOccupied :
      (a.next event).slots.occupied =
        a.slots.occupied.erase a.slots.current :=
    a.slots.occupied_next_of_lift hKind
  have hLost :
      ∀ i, (a.next event).lost = some i →
        a.lost = some i ∧ i ≠ a.slots.current := by
    intro i hHere
    simp only [Filing.next, Filing.lostAfter, hKind] at hHere
    split at hHere
    · cases hHere
    · next hNot =>
      refine ⟨hHere, ?_⟩
      intro hSame
      exact hNot (hSame ▸ hHere)
  have hKept :
      ∀ i, i ≠ a.slots.current →
        (a.next event).lost ≠ some i → a.lost ≠ some i := by
    intro i hSame hNot hHere
    apply hNot
    simp only [Filing.next, Filing.lostAfter, hKind]
    rw [if_neg ?_]
    · exact hHere
    · rw [hHere, Option.some.injEq]
      exact hSame
  constructor
  · exact hStep
  · rw [hCursor, hFiles.cursor_eq]
    simp only [Filing.cursor, hSynced, hCurrent]
  · intro i id hHere hNot
    have hSame : i ≠ a.slots.current := by
      intro hEq
      rw [hContact, hEq, Function.update_self] at hHere
      cases hHere
    rw [hContact, Function.update_of_ne hSame] at hHere
    have hHome : (a.next event).home i = a.home i := by
      simp only [Filing.home, hSynced]
    rw [hPair, hHome]
    exact hFiles.filed_update hSame hHere
      (hKept i hSame hNot) Pair.empty
  · intro i hHere
    rcases hLost i hHere with ⟨hBefore, hSame⟩
    rcases hFiles.lost i hBefore with ⟨hSync, hMember, -⟩
    rw [hSynced, hOccupied, hPair]
    exact ⟨hSync, Finset.mem_erase.mpr ⟨hSame, hMember⟩,
      hFiles.lost_update hSame hBefore Pair.empty⟩
  · intro hNot
    rw [hSynced] at hNot
    rcases hFiles.unsynced hNot with ⟨hZero, hNone, -⟩
    rw [hCurrent, hOccupied, hPair]
    refine ⟨hZero, ?_, ?_⟩
    · intro i hSame hMember
      exact hNone i hSame (Finset.mem_of_mem_erase hMember)
    · intro i hSame
      exact hFiles.unsynced_update hNot Pair.empty hSame

/- The last lift clears the table and moves the cursor to 0. -/
theorem of_lastLift
    (hFiles : Files a s)
    (hLast : a.slots.LastLift event)
    (hStep :
      InStep ((a.next event).slots, (a.next event).armed) t)
    (hMap : t.eventIdMap = EventIdMap.clear) :
    Files (a.next event) t := by
  have hSynced :
      (a.next event).synced =
        decide (a.slots.current = 0) := by
    simp [Filing.next, Filing.syncedAfter, hLast.1, hLast]
  have hCurrent :
      (a.next event).slots.current = a.slots.current := by
    simp [Filing.next, SlotState.next, hLast.1]
  have hNone :
      ∀ i, (a.next event).slots.contact i = none := by
    intro i
    have hFree : i ∉ (a.next event).slots.occupied := by
      have hEmpty :
          (a.next event).slots.occupied = ∅ := hLast.2
      rw [hEmpty]
      exact Finset.notMem_empty i
    simpa using hFree
  have hLost : (a.next event).lost = none := by
    rw [Option.eq_none_iff_forall_ne_some]
    intro i hHere
    simp only [Filing.next, Filing.lostAfter, hLast.1]
      at hHere
    split at hHere
    · cases hHere
    · next hNot =>
      -- a lost contact is down, so it is the last one
      have hMember := (hFiles.lost i hHere).2.1
      have hSame : i ≠ a.slots.current := by
        intro hEq
        exact hNot (hEq ▸ hHere)
      have hFree := hNone i
      simp only [Filing.next, SlotState.next, hLast.1,
        Function.update_of_ne hSame] at hFree
      simp [hFree] at hMember
  constructor
  · exact hStep
  · rw [hMap]
    simp only [Filing.cursor, hSynced, hCurrent]
    by_cases hZero : a.slots.current = 0
    · simp [hZero, EventIdMap.clear]
    · simp [hZero, EventIdMap.clear]
  · intro i id hHere
    rw [hNone i] at hHere
    cases hHere
  · intro i hHere
    rw [hLost] at hHere
    cases hHere
  · intro hNot
    rw [hSynced] at hNot
    rw [hCurrent, hMap]
    refine ⟨by simpa using hNot, ?_, fun i hSame => rfl⟩
    intro i hSame
    simp [hNone i]

/- A slot change brings cursor and kernel together. -/
theorem of_slot
    (hFiles : Files a s)
    (hKind : event.kind = .slot)
    {i : Fin numSlots}
    (hSlot : SlotState.slotOf? event.value = some i)
    (hStep :
      InStep ((a.next event).slots, (a.next event).armed) t)
    (hPair : t.eventIdMap.pair = s.eventIdMap.pair)
    (hCursor :
      t.eventIdMap.currentSlot = event.value.toUInt32) :
    Files (a.next event) t := by
  have hSynced : (a.next event).synced = true := by
    simp [Filing.next, Filing.syncedAfter, hKind]
  have hCurrent : (a.next event).slots.current = i := by
    simp [Filing.next, SlotState.next, hKind, hSlot]
  have hContact :
      (a.next event).slots.contact = a.slots.contact :=
    a.slots.contact_next_of_ne (by simp [hKind])
      (by simp [hKind])
  have hOccupied :
      (a.next event).slots.occupied = a.slots.occupied :=
    a.slots.occupied_next_of_ne (by simp [hKind])
      (by simp [hKind])
  have hLost :
      (a.next event).lost =
        if a.synced = false ∧
            a.slots.current ∈ a.slots.occupied then
          some a.slots.current
        else
          a.lost := by
    simp only [Filing.next, Filing.lostAfter, hKind]
  constructor
  · exact hStep
  · have hIndex : event.value.toUInt32.toNat = i.val := by
      unfold SlotState.slotOf? at hSlot
      split at hSlot
      · exact congrArg Fin.val (Option.some.inj hSlot)
      · cases hSlot
    rw [hCursor, hIndex, Filing.cursor, hSynced, if_pos rfl,
      hCurrent]
  · intro j id hHere hNot
    rw [hContact] at hHere
    rw [hPair]
    simp only [Filing.home, hSynced, if_true]
    cases hSync : a.synced with
    | true =>
        have hKept : a.lost ≠ some j := by
          simpa [hLost, hSync] using hNot
        have hOther := hFiles.filed j id hHere hKept
        simpa only [Filing.home, hSync, if_true] using hOther
    | false =>
        -- only the current slot is in use, and it gets lost
        exfalso
        have hMember : j ∈ a.slots.occupied := by
          simp [hHere]
        have hSame : j = a.slots.current := by
          by_contra hNe
          exact (hFiles.unsynced hSync).2.1 j hNe hMember
        subst hSame
        apply hNot
        rw [hLost, if_pos ⟨hSync, hMember⟩]
  · intro j hHere
    rw [hLost] at hHere
    rw [hOccupied, hPair]
    refine ⟨hSynced, ?_⟩
    split at hHere
    · next hNow =>
      rcases hNow with ⟨hSync, hMember⟩
      rcases hFiles.unsynced hSync with ⟨hZero, -, hNoId⟩
      rw [← Option.some.inj hHere]
      exact ⟨hMember, hNoId _ hZero⟩
    · exact (hFiles.lost j hHere).2
  · intro hNot
    rw [hSynced] at hNot
    cases hNot

end Files

end FzEvent

------------------------------------------------------------
-- One Event
------------------------------------------------------------

namespace FzEvent

open Transition

variable {a : Filing} {s : Parser} {event : InputEvent}

/- A coordinate of a contact that is not lost is attributed. -/
theorem Files.position
    (hFiles : Files a s)
    (hAbs : event.code ≠ synReport)
    (hKept : a.lost ≠ some a.slots.current) :
    ∃ ret t,
      Parser.parsePosition event (s.noteType event) =
          some (ret, t) ∧
        t.eventIdMap = s.eventIdMap ∧
          ∀ id, a.slots.contact a.slots.current = some id →
            t.ei.entries =
              s.ei.entries ++ [event.entry id] := by
  have hIndex :
      (s.noteType event).eventIdMap.slotIndex? =
        some a.cursor := hFiles.slotIndex?_eq
  cases hContact : a.slots.contact a.slots.current with
  | none =>
      rcases Parser.exists_parsePosition event hIndex with
        ⟨ret, t, hParse, hRet, hMap, hFlag⟩
      refine ⟨ret, t, hParse, hMap, ?_⟩
      intro id hNone
      cases hNone
  | some id =>
      have hHolds :
          (s.eventIdMap.pair a.cursor).Holds id :=
        hFiles.filed _ _ hContact hKept
      refine ⟨_, _,
        Parser.parsePosition_of_ne hIndex hHolds.value_ne,
        rfl, ?_⟩
      intro id' hSame
      rw [Option.some.injEq] at hSame
      have hValue :
          (s.eventIdMap.pair a.cursor).value.toInt32 =
            id' := by
        rw [hHolds.value_eq, hSame, Int32.toInt32_toUInt32]
      rw [EventInfo.entries_add_of_ne _ _ _ _ hAbs,
        Parser.eventIdMap_noteType, hValue]
      rfl

/- A coordinate of a lost contact is dropped. -/
theorem Files.position_of_lost
    (hFiles : Files a s)
    (hLost : a.lost = some a.slots.current) :
    Parser.parsePosition event (s.noteType event) =
      some (.parseSkip, s.noteType event) := by
  rcases hFiles.lost _ hLost with ⟨hSynced, -, hNoId⟩
  have hIndex :
      (s.noteType event).eventIdMap.slotIndex? =
        some a.slots.current := by
    have hCursor : a.cursor = a.slots.current := by
      rw [Filing.cursor, if_pos hSynced]
    rw [← hCursor]
    exact hFiles.slotIndex?_eq
  exact Parser.parsePosition_of_eq hIndex hNoId

/- The call on such a coordinate. -/
theorem Files.of_position
    (hFiles : Files a s)
    (hKind :
      event.kind = .positionX ∨ event.kind = .positionY)
    (hKept : a.lost ≠ some a.slots.current)
    {ret : ParseInfo}
    {t : Parser}
    (hParse :
      Parser.parsePosition event (s.noteType event) =
        some (ret, t))
    (hStep :
      InStep ((a.next event).slots, (a.next event).armed)
        (t.clearAtEnd ret)) :
    (∀ id, a.slots.contact a.slots.current = some id →
      t.ei.entries = s.ei.entries ++ [event.entry id]) ∧
      Files (a.next event) (t.clearAtEnd ret) := by
  have hAbs : event.code ≠ synReport := by
    rcases hKind with hX | hY
    · exact (InputEvent.abs_of_kind hX (by decide)).2
    · exact (InputEvent.abs_of_kind hY (by decide)).2
  have hQuiet :
      event.kind ≠ .touch ∧ event.kind ≠ .lift ∧
        event.kind ≠ .slot := by
    rcases hKind with hX | hY
    · simp [hX]
    · simp [hY]
  rcases hFiles.position hAbs hKept with
    ⟨ret', t', hPosition, hMap, hEntries⟩
  rw [hPosition] at hParse
  cases hParse
  refine ⟨hEntries, ?_⟩
  apply hFiles.of_quiet hQuiet.1 hQuiet.2.1 hQuiet.2.2 hStep
  rw [Parser.eventIdMap_clearAtEnd, hMap]

/-
  Under the condition the event is attributed, and recorder
  and filing still agree behind it.
-/
theorem files_of_admits
    (hFiles : Files a s)
    (hKernel : a.slots.Admits event)
    (hAdmits : a.Admits event) :
    ∃ ret t,
      Parser.parseEvent event s = some (ret, t) ∧
        AttributesEvent a.slots event s t ∧
          Files (a.next event) (t.clearAtEnd ret) := by
  have hIndex :
      (s.noteType event).eventIdMap.slotIndex? =
        some a.cursor := hFiles.slotIndex?_eq
  have hArmed : event.kind = .touch → a.armed = true := by
    intro hKind
    simpa only [Filing.Admits, hKind] using hAdmits
  rcases inStep_step hFiles.inStep hKernel hArmed with
    ⟨ret, t, hParse, hEnd, hStep⟩
  refine ⟨ret, t, hParse, ?_⟩
  rw [Parser.parseEvent_eq] at hParse
  unfold SlotState.Admits at hKernel
  unfold AttributesEvent
  unfold Filing.Admits at hAdmits
  cases hKind : event.kind with
  | report =>
      simp only [hKind, Option.some.injEq] at hParse
      cases hParse
      exact ⟨trivial, hFiles.of_quiet (by simp [hKind])
        (by simp [hKind]) (by simp [hKind]) hStep rfl⟩
  | touch =>
      have hAbs := InputEvent.abs_of_kind hKind (by decide)
      have hFlag : (s.noteType event).slotFlag ≠ 0 :=
        hFiles.inStep.flag.mpr (hArmed hKind)
      simp only [hKind] at hKernel hParse
      rw [Parser.parseTouch_of_flag_ne hIndex hFlag]
        at hParse
      cases hParse
      refine ⟨?_, hFiles.of_touch hKind hKernel hStep
        ⟨rfl,
          InputEvent.toUInt32_value_ne_of_kind_touch hKind⟩
        rfl rfl⟩
      exact EventInfo.entries_add_of_ne _ _ _ _ hAbs.2
  | lift =>
      simp only [hKind] at hParse
      refine ⟨trivial, ?_⟩
      by_cases hZero :
          (s.noteType event).eventIdMap.slotCount - 1 = 0
      · rw [Parser.parseLift_of_last hIndex hZero] at hParse
        cases hParse
        exact hFiles.of_lastLift (hEnd.mp rfl) hStep rfl
      · rw [Parser.parseLift_of_not_last hIndex hZero]
          at hParse
        cases hParse
        have hOthers : ¬ a.slots.LastLift event :=
          fun hLast => nomatch hEnd.mpr hLast
        exact hFiles.of_lift hKind hOthers hStep rfl rfl
  | slot =>
      simp only [hKind] at hKernel hParse
      rcases hKernel with ⟨i, hSlot, -⟩
      cases hParse
      exact ⟨trivial,
        hFiles.of_slot hKind hSlot hStep rfl rfl⟩
  | positionX =>
      simp only [hKind] at hAdmits hParse
      exact hFiles.of_position (Or.inl hKind) hAdmits hParse
        hStep
  | positionY =>
      simp only [hKind] at hAdmits hParse
      exact hFiles.of_position (Or.inr hKind) hAdmits hParse
        hStep
  | key => simp [hKind] at hKernel
  | other =>
      simp only [hKind, Option.some.injEq] at hParse
      cases hParse
      exact ⟨trivial, hFiles.of_quiet (by simp [hKind])
        (by simp [hKind]) (by simp [hKind]) hStep rfl⟩

/- Appending an entry is not leaving the buffer alone. -/
theorem ne_append_entry
    (entries : List Entry)
    (entry : Entry) :
    entries ≠ entries ++ [entry] := by
  intro hSame
  have hLength := congrArg List.length hSame
  simp at hLength

/- An event that is attributed meets the condition. -/
theorem admits_of_attributesEvent
    {t : Parser}
    {ret : ParseInfo}
    (hFiles : Files a s)
    (hParse : Parser.parseEvent event s = some (ret, t))
    (hAttributes : AttributesEvent a.slots event s t) :
    a.Admits event := by
  rw [Parser.parseEvent_eq] at hParse
  unfold AttributesEvent at hAttributes
  unfold Filing.Admits
  -- a coordinate that is dropped was nobody's
  have hPosition :
      Parser.parsePosition event (s.noteType event) =
          some (ret, t) →
        (∀ id, a.slots.contact a.slots.current = some id →
          t.ei.entries = s.ei.entries ++ [event.entry id]) →
          a.lost ≠ some a.slots.current := by
    intro hParse hAppended hLost
    rw [hFiles.position_of_lost hLost] at hParse
    cases hParse
    have hMember := (hFiles.lost _ hLost).2.1
    rw [SlotState.mem_occupied_iff,
      Option.ne_none_iff_exists'] at hMember
    rcases hMember with ⟨id, hContact⟩
    exact ne_append_entry _ _ (hAppended id hContact)
  cases hKind : event.kind with
  | touch =>
      simp only [hKind] at hParse hAttributes
      by_contra hArmed
      have hFlag : (s.noteType event).slotFlag = 0 := by
        by_contra hSet
        exact hArmed (hFiles.inStep.flag.mp hSet)
      rw [Parser.parseTouch_of_flag_eq hFlag] at hParse
      cases hParse
      exact ne_append_entry _ _ hAttributes
  | positionX =>
      simp only [hKind] at hParse hAttributes
      exact hPosition hParse hAttributes
  | positionY =>
      simp only [hKind] at hParse hAttributes
      exact hPosition hParse hAttributes
  | report => trivial
  | lift => trivial
  | slot => trivial
  | key => trivial
  | other => trivial

end FzEvent

------------------------------------------------------------
-- Whole Streams
------------------------------------------------------------

namespace FzEvent

open Transition

theorem filing_exec_slots
    {a a' : Filing}
    {stream : List InputEvent}
    (hRun : filing.exec a stream = some a') :
    a'.slots = a.slots.after stream := by
  induction stream generalizing a with
  | nil =>
      rw [System.exec_nil, Option.some.injEq] at hRun
      rw [← hRun, SlotState.after_nil]
  | cons event stream ih => exact ih hRun

theorem filing_exec_isSome
    (a : Filing)
    (stream : List InputEvent) :
    ∃ a', filing.exec a stream = some a' := by
  induction stream generalizing a with
  | nil => exact ⟨a, rfl⟩
  | cons event stream ih => exact ih _

theorem wellFormed_iff_filing
    (stream : List InputEvent) :
    WellFormed stream ↔
      filing.Meets (fun a event => a.slots.Admits event)
        filing.init stream :=
  (filing.meets_projection_iff slotProtocol Filing.slots
    (fun _ _ => rfl) SlotState.Admits filing.init
    stream).symm

/-
  Over a stream of the slot protocol every coordinate of a
  contact is recorded with its tracking id and every contact
  is recorded once, exactly when each contact goes down
  after a slot change or a session end since the one before
  it, and no coordinate is sent for a contact that went down
  while the recorder's cursor was not on its slot, after the
  next slot change.
-/
theorem attributes_iff_meets
    (stream : List InputEvent)
    (hWellFormed : WellFormed stream) :
    Attributes stream ↔
      filing.Meets Filing.Admits filing.init stream := by
  rw [← filing.meets_iff_of_simulation recorder
    (P := fun a s event =>
      ∃ ret t,
        Parser.parseEvent event s = some (ret, t) ∧
          AttributesEvent a.slots event s t)
    (R := Files) ?_ files_init
    ((wellFormed_iff_filing stream).mp hWellFormed)]
  · constructor
    · intro hAll before event rest a s hSplit hSlots hRun
      have hAfter := filing_exec_slots hSlots
      rw [hAfter]
      exact hAll before event rest s hSplit hRun
    · intro hAll before event rest s hSplit hRun
      rcases filing_exec_isSome filing.init before with
        ⟨a, hSlots⟩
      have hAfter := filing_exec_slots hSlots
      rw [← show a.slots = SlotState.init.after before from
        hAfter]
      exact hAll before event rest a s hSplit hSlots hRun
  · intro a s event hFiles hKernel
    refine ⟨⟨?_, ?_⟩, ?_⟩
    · rintro ⟨ret, t, hParse, hAttributes⟩
      exact admits_of_attributesEvent hFiles hParse
        hAttributes
    · intro hAdmits
      rcases files_of_admits hFiles hKernel hAdmits with
        ⟨ret, t, hParse, hAttributes, -⟩
      exact ⟨ret, t, hParse, hAttributes⟩
    · intro hAdmits a' hNext
      rcases files_of_admits hFiles hKernel hAdmits with
        ⟨ret, t, hParse, -, hFiles'⟩
      rw [← Option.some.inj hNext]
      exact ⟨_, recorder_step_of_parseEvent hParse, hFiles'⟩

/- Two contacts move in turn and lift. -/
def twoMoving : List InputEvent :=
  [.abs absMtTrackingId 1, .abs absMtSlot 1,
    .abs absMtTrackingId 2, .abs absMtPositionX 20,
    .abs absMtSlot 0, .abs absMtPositionX 10,
    .abs absMtTrackingId (-1), .abs absMtSlot 1,
    .abs absMtPositionX 21, .abs absMtTrackingId (-1)]

theorem attributes_twoMoving : Attributes twoMoving :=
  (attributes_iff_meets twoMoving (by decide)).mpr
    (by decide)

/-
  A session ends in slot 1. The next contact goes down there
  and is filed under 0, where another contact follows it;
  back in slot 1 it has no id.
-/
def crossed : List InputEvent :=
  [.abs absMtSlot 1, .abs absMtTrackingId 5,
    .abs absMtTrackingId (-1), .abs absMtTrackingId 6,
    .abs absMtSlot 0, .abs absMtTrackingId 7,
    .abs absMtSlot 1]

theorem not_attributes_of_wellFormed :
    ¬ ∀ stream, WellFormed stream → Attributes stream := by
  intro hAll
  have hAttributes :
      Attributes (crossed ++ [.abs absMtPositionX 10]) :=
    hAll _ (by decide)
  have hCounts :
      (recorder.exec recorder.init crossed).map
          (fun s =>
            (s.ei.count,
              (Parser.parseEvent (.abs absMtPositionX 10) s).map
                (fun p => p.2.ei.count))) =
        some (2, some 2) := by
    decide
  rcases Option.map_eq_some_iff.mp hCounts with
    ⟨s, hRun, hBoth⟩
  rcases hAttributes crossed (.abs absMtPositionX 10) [] s rfl
      hRun with
    ⟨ret, t, hParse, hEvent⟩
  rw [hParse] at hBoth
  simp only [Option.map_some, Prod.mk.injEq,
    Option.some.injEq] at hBoth
  have hContact :
      (SlotState.init.after crossed).contact
          (SlotState.init.after crossed).current =
        some 6 := by
    decide
  have hAppended := congrArg List.length (hEvent 6 hContact)
  rw [List.length_append, List.length_singleton] at hAppended
  unfold EventInfo.count at hBoth
  omega

end FzEvent

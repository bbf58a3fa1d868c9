import FzEvent.Common.InputEvent
import FzEvent.Lib.Transition
import Mathlib.Data.Fintype.Basic
import Mathlib.Data.Finset.Card
import Mathlib.Logic.Function.Basic

/-
  The kernel's multitouch-slot protocol, as the meaning of an
  evdev stream.

  A stream moves a cursor over 32 slots, opens and closes
  contacts in them and sets their coordinates; every report
  commits the contacts that are down as a frame.

  Main declarations:
    * `FzEvent.SlotState` and `SlotState.next`
    * `SlotState.Admits`, `FzEvent.slotProtocol` and
      `FzEvent.WellFormed`
    * `SlotState.occupied` and `SlotState.LastLift`
    * `SlotState.frame` and `SlotState.frames`
-/

------------------------------------------------------------
-- Slot States
------------------------------------------------------------

namespace FzEvent

/- The number of slots of the protocol. -/
abbrev numSlots : Nat := 32

/-
  The current slot, and for each slot the tracking id of the
  contact in it, if any, and its last coordinates.
-/
structure SlotState where
  current : Fin numSlots
  contact : Fin numSlots → Option Int32
  x : Fin numSlots → Int32
  y : Fin numSlots → Int32

namespace SlotState

/- Slot 0 is current and no contact is down. -/
def init : SlotState where
  current := 0
  contact := fun _ => none
  x := fun _ => 0
  y := fun _ => 0

/-
  The slot a slot number names, when it is in range; as an
  unsigned word a negative number is out of range.
-/
def slotOf? (value : Int32) : Option (Fin numSlots) :=
  if hLt : value.toUInt32.toNat < numSlots then
    some ⟨value.toUInt32.toNat, hLt⟩
  else
    none

theorem toNat_lt_of_slotOf?_eq_some
    {value : Int32}
    {i : Fin numSlots}
    (hSlot : slotOf? value = some i) :
    value.toUInt32.toNat < numSlots := by
  unfold slotOf? at hSlot
  split at hSlot
  · assumption
  · exact absurd hSlot (by simp)

/- The effect of one event on the slots. -/
def next
    (k : SlotState)
    (event : InputEvent) : SlotState :=
  match event.kind with
  | .touch =>
      { k with
        contact :=
          Function.update k.contact k.current
            (some event.value) }
  | .lift =>
      { k with
        contact :=
          Function.update k.contact k.current none }
  | .slot =>
      match slotOf? event.value with
      | some i => { k with current := i }
      | none => k
  | .positionX =>
      { k with
        x := Function.update k.x k.current event.value }
  | .positionY =>
      { k with
        y := Function.update k.y k.current event.value }
  | .report => k
  | .key => k
  | .other => k

/- The state after a stream. -/
def after
    (k : SlotState)
    (stream : List InputEvent) : SlotState :=
  stream.foldl next k

@[simp] theorem after_nil
    (k : SlotState) :
    k.after [] = k := rfl

@[simp] theorem after_cons
    (k : SlotState)
    (event : InputEvent)
    (stream : List InputEvent) :
    k.after (event :: stream) = (k.next event).after stream :=
  rfl

@[simp] theorem after_concat
    (k : SlotState)
    (stream : List InputEvent)
    (event : InputEvent) :
    k.after (stream ++ [event]) =
      (k.after stream).next event := by
  simp [after]

end SlotState

end FzEvent

------------------------------------------------------------
-- Well-Formed Streams
------------------------------------------------------------

namespace FzEvent

open Transition

namespace SlotState

/-
  The events the kernel may send next: a slot number only
  for another slot in range, a contact only into an empty
  slot, a lift only from an occupied one, and no keys.
-/
def Admits
    (k : SlotState)
    (event : InputEvent) : Prop :=
  match event.kind with
  | .slot =>
      ∃ i ∈ slotOf? event.value, i ≠ k.current
  | .touch => k.contact k.current = none
  | .lift => k.contact k.current ≠ none
  | .key => False
  | _ => True

instance (k : SlotState) (event : InputEvent) :
    Decidable (k.Admits event) := by
  unfold Admits
  cases event.kind <;> infer_instance

end SlotState

/- The slots as a system that follows an event stream. -/
def slotProtocol : System SlotState InputEvent where
  init := SlotState.init
  step k event := some (k.next event)

/- The streams the kernel can produce from the start. -/
def WellFormed (stream : List InputEvent) : Prop :=
  slotProtocol.Meets SlotState.Admits SlotState.init stream

instance (stream : List InputEvent) :
    Decidable (WellFormed stream) :=
  System.decidableMeets _ _ _ _

theorem slotProtocol_exec
    (k : SlotState)
    (stream : List InputEvent) :
    slotProtocol.exec k stream = some (k.after stream) := by
  induction stream generalizing k with
  | nil => rfl
  | cons event stream ih => exact ih (k.next event)

end FzEvent

------------------------------------------------------------
-- Occupied Slots
------------------------------------------------------------

namespace FzEvent

namespace SlotState

/- The slots with a contact in them. -/
def occupied (k : SlotState) : Finset (Fin numSlots) :=
  Finset.univ.filter (fun i => (k.contact i).isSome)

@[simp] theorem mem_occupied_iff
    (k : SlotState)
    (i : Fin numSlots) :
    i ∈ k.occupied ↔ k.contact i ≠ none := by
  simp [occupied, Option.isSome_iff_ne_none]

/- The event lifts the last contact that is down. -/
def LastLift
    (k : SlotState)
    (event : InputEvent) : Prop :=
  event.kind = .lift ∧ (k.next event).occupied = ∅

instance (k : SlotState) (event : InputEvent) :
    Decidable (k.LastLift event) := by
  unfold LastLift
  infer_instance

@[simp] theorem occupied_init : init.occupied = ∅ := by
  ext i
  simp [init]

/- A contact goes down into the current slot. -/
theorem occupied_next_of_touch
    (k : SlotState)
    {event : InputEvent}
    (hKind : event.kind = .touch) :
    (k.next event).occupied =
      insert k.current k.occupied := by
  ext i
  by_cases hCurrent : i = k.current
  · simp [next, hKind, hCurrent]
  · simp [next, hKind, hCurrent]

/- A contact lifts from the current slot. -/
theorem occupied_next_of_lift
    (k : SlotState)
    {event : InputEvent}
    (hKind : event.kind = .lift) :
    (k.next event).occupied =
      k.occupied.erase k.current := by
  ext i
  by_cases hCurrent : i = k.current
  · simp [next, hKind, hCurrent]
  · simp [next, hKind, hCurrent]

/- Only a contact going down or lifting changes contacts. -/
theorem contact_next_of_ne
    (k : SlotState)
    {event : InputEvent}
    (hTouch : event.kind ≠ .touch)
    (hLift : event.kind ≠ .lift) :
    (k.next event).contact = k.contact := by
  unfold next
  cases hKind : event.kind with
  | touch => exact absurd hKind hTouch
  | lift => exact absurd hKind hLift
  | slot => cases slotOf? event.value <;> rfl
  | positionX => rfl
  | positionY => rfl
  | report => rfl
  | key => rfl
  | other => rfl

/- No other event changes which slots are occupied. -/
theorem occupied_next_of_ne
    (k : SlotState)
    {event : InputEvent}
    (hTouch : event.kind ≠ .touch)
    (hLift : event.kind ≠ .lift) :
    (k.next event).occupied = k.occupied := by
  unfold next
  cases hKind : event.kind with
  | touch => exact absurd hKind hTouch
  | lift => exact absurd hKind hLift
  | slot => cases slotOf? event.value <;> rfl
  | positionX => rfl
  | positionY => rfl
  | report => rfl
  | key => rfl
  | other => rfl

end SlotState

end FzEvent

------------------------------------------------------------
-- Frames
------------------------------------------------------------

namespace FzEvent

/- A contact that is down, where it is and how it is known. -/
structure Contact where
  slot : Fin numSlots
  trackingId : Int32
  x : Int32
  y : Int32
deriving DecidableEq, Repr

namespace SlotState

/- The contacts that are down, by slot. -/
def frame (k : SlotState) : List Contact :=
  (List.finRange numSlots).filterMap (fun i =>
    (k.contact i).map (fun t => ⟨i, t, k.x i, k.y i⟩))

/- The frames that the reports of a stream commit. -/
def frames
    (k : SlotState) :
    List InputEvent → List (List Contact)
| [] => []
| event :: stream =>
    if event.kind = .report then
      k.frame :: (k.next event).frames stream
    else
      (k.next event).frames stream

@[simp] theorem frames_nil
    (k : SlotState) :
    k.frames [] = [] := rfl

/- The frames of the second part start where the first ends. -/
theorem frames_append
    (k : SlotState)
    (stream rest : List InputEvent) :
    k.frames (stream ++ rest) =
      k.frames stream ++ (k.after stream).frames rest := by
  induction stream generalizing k with
  | nil => rfl
  | cons event stream ih =>
      simp only [List.cons_append, frames, ih, after_cons]
      split <;> simp

/- A report at the end commits the frame that is reached. -/
theorem frames_concat_of_report
    (k : SlotState)
    (stream : List InputEvent)
    {event : InputEvent}
    (hKind : event.kind = .report) :
    k.frames (stream ++ [event]) =
      k.frames stream ++ [(k.after stream).frame] := by
  rw [frames_append]
  simp [frames, hKind]

/- Any other event at the end commits nothing. -/
theorem frames_concat_of_ne
    (k : SlotState)
    (stream : List InputEvent)
    {event : InputEvent}
    (hKind : event.kind ≠ .report) :
    k.frames (stream ++ [event]) = k.frames stream := by
  rw [frames_append]
  simp [frames, hKind]

/- A frame lists one contact for each occupied slot. -/
theorem length_frame
    (k : SlotState) :
    k.frame.length = k.occupied.card := by
  have hNodup := List.nodup_finRange numSlots
  rw [frame, List.length_filterMap_eq_countP,
    List.countP_eq_length_filter,
    ← List.toFinset_card_of_nodup (hNodup.filter _),
    List.toFinset_filter, List.toFinset_finRange]
  simp [occupied]

/- Without slot changes only the current slot is filled. -/
theorem current_next_of_ne
    (k : SlotState)
    {event : InputEvent}
    (hSlot : event.kind ≠ .slot) :
    (k.next event).current = k.current := by
  unfold next
  cases hKind : event.kind with
  | slot => exact absurd hKind hSlot
  | touch => rfl
  | lift => rfl
  | positionX => rfl
  | positionY => rfl
  | report => rfl
  | key => rfl
  | other => rfl

theorem occupied_next_subset
    (k : SlotState)
    (event : InputEvent) :
    (k.next event).occupied ⊆ insert k.current k.occupied := by
  by_cases hTouch : event.kind = .touch
  · rw [k.occupied_next_of_touch hTouch]
  · by_cases hLift : event.kind = .lift
    · rw [k.occupied_next_of_lift hLift]
      exact (Finset.erase_subset _ _).trans
        (Finset.subset_insert _ _)
    · rw [k.occupied_next_of_ne hTouch hLift]
      exact Finset.subset_insert _ _

/- So every frame lists at most one contact. -/
theorem length_le_one_of_mem_frames
    (stream : List InputEvent)
    {k : SlotState}
    (hSlots : ∀ event ∈ stream, event.kind ≠ .slot)
    (hCurrent : k.occupied ⊆ {k.current})
    {frame : List Contact}
    (hMem : frame ∈ k.frames stream) :
    frame.length ≤ 1 := by
  induction stream generalizing k with
  | nil => simp at hMem
  | cons event stream ih =>
      rw [List.forall_mem_cons] at hSlots
      have hNext :
          (k.next event).occupied ⊆
            {(k.next event).current} := by
        rw [k.current_next_of_ne hSlots.1]
        refine (k.occupied_next_subset event).trans ?_
        exact Finset.insert_subset
          (Finset.mem_singleton_self _) hCurrent
      unfold frames at hMem
      split at hMem
      · rcases List.mem_cons.mp hMem with rfl | hRest
        · rw [length_frame]
          exact Finset.card_le_card hCurrent
        · exact ih hSlots.2 hNext hRest
      · exact ih hSlots.2 hNext hMem

end SlotState

end FzEvent

import FzEvent.Common.InputEvent
import Mathlib.Data.Fintype.Basic
import Mathlib.Logic.Function.Basic

/-
  The recorder's slot table `event_getter::_event_id_map`.

  `current_slot` comes straight from the kernel's
  `ABS_MT_SLOT`, so it can lie outside `pair[]`. An access
  outside the array is undefined behaviour, modelled as
  `none`.

  Main declarations:
    * `FzEvent.Pair` and `FzEvent.EventIdMap`
    * `EventIdMap.addTouchId`, `removeCurrentTouchId`,
      `changeCurrentTouchId` and `getCurrentTouchId`
-/

------------------------------------------------------------
-- The Slot Table
------------------------------------------------------------

namespace FzEvent

/- `DEFAULT_ID_MAP_SIZE` -/
abbrev defaultIdMapSize : Nat := 32

/- `_event_id_map::_pair` -/
structure Pair where
  slot : UInt32
  value : UInt32
deriving DecidableEq, Repr

namespace Pair

/- The default pair, and what `memset(pair, 0xff, ..)` leaves. -/
def empty : Pair where
  slot := 0xffffffff
  value := 0xffffffff

end Pair

/- `_event_id_map`: an array of pairs, a cursor, a counter. -/
structure EventIdMap where
  pair : Fin defaultIdMapSize → Pair
  currentSlot : UInt32
  slotCount : Int

end FzEvent

------------------------------------------------------------
-- Operations
------------------------------------------------------------

namespace FzEvent

namespace EventIdMap

/- `clear`, and the constructed state. -/
def clear : EventIdMap where
  pair := fun _ => Pair.empty
  currentSlot := 0
  slotCount := 0

/- The array index `current_slot`, when it is inside `pair[]`. -/
def slotIndex?
    (m : EventIdMap) : Option (Fin defaultIdMapSize) :=
  if hLt : m.currentSlot.toNat < defaultIdMapSize then
    some ⟨m.currentSlot.toNat, hLt⟩
  else
    none

/- `get_current_touch_id` -/
def getCurrentTouchId (m : EventIdMap) : Option Pair :=
  m.slotIndex?.map m.pair

/- `add_touch_id` -/
def addTouchId
    (m : EventIdMap)
    (value : UInt32) : Option EventIdMap := do
  let i ← m.slotIndex?
  return { m with
    pair := Function.update m.pair i
      ⟨UInt32.ofInt m.slotCount, value⟩
    slotCount := m.slotCount + 1 }

/- `remove_current_touch_id` -/
def removeCurrentTouchId
    (m : EventIdMap) : Option EventIdMap := do
  let i ← m.slotIndex?
  return { m with
    pair := Function.update m.pair i Pair.empty
    slotCount := m.slotCount - 1 }

/- `change_current_touch_id` -/
def changeCurrentTouchId
    (m : EventIdMap)
    (i : UInt32) : EventIdMap :=
  { m with currentSlot := i }

/- `get_count` -/
def getCount (m : EventIdMap) : Int :=
  m.slotCount

theorem slotIndex?_of_lt
    {m : EventIdMap}
    (hLt : m.currentSlot.toNat < defaultIdMapSize) :
    m.slotIndex? = some ⟨m.currentSlot.toNat, hLt⟩ := by
  simp [slotIndex?, hLt]

end EventIdMap

end FzEvent

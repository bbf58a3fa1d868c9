import FzEvent.Lib.Transition
import FzEvent.Recorder.EventIdMap
import FzEvent.Recorder.EventInfo

/-
  The recorder's event parser `event_getter::parse_event`.

  `none` is an access outside `pair[]`; every other run of
  the parser returns.

  Main declarations:
    * `FzEvent.Parser` and `FzEvent.ParseInfo`
    * `Parser.parseEvent`
    * `Parser.parseEvent_eq`
    * `Parser.recordEvent` and `FzEvent.recorder`
-/

------------------------------------------------------------
-- Parser State
------------------------------------------------------------

namespace FzEvent

/-
  What `parse_event` reads and writes besides the event: the
  slot table, the static `slot_flag`, and the caller's buffer.
-/
structure Parser where
  eventIdMap : EventIdMap
  slotFlag : Int
  ei : EventInfo

/- `enum PARSE_INFO` -/
inductive ParseInfo
| parseStart
| parseCon
| parseSkip
| parseEnd
deriving DecidableEq, Repr

namespace Parser

/- The constructed state. -/
def init : Parser where
  eventIdMap := EventIdMap.clear
  slotFlag := 1
  ei := EventInfo.init

/- `check_discard_event` -/
def checkDiscardEvent (code : UInt16) : Bool :=
  code == btnToolFinger || code == keySlash

end Parser

end FzEvent

------------------------------------------------------------
-- The Parser
------------------------------------------------------------

namespace FzEvent

namespace Parser

/- `case SYN_REPORT` -/
def parseReport
    (event : InputEvent)
    (s : Parser) : ParseInfo × Parser :=
  (.parseSkip,
    { s with
      ei := s.ei.add event.time (-1) event.code
        event.value.toUInt32 })

/- `case ABS_MT_TRACKING_ID` with value -1: pop id. -/
def parseLift
    (event : InputEvent)
    (s : Parser) : Option (ParseInfo × Parser) := do
  let pair ← s.eventIdMap.getCurrentTouchId
  let m ← s.eventIdMap.removeCurrentTouchId
  let ei := s.ei.add event.time pair.value.toInt32
    event.code event.value.toUInt32
  if m.getCount = 0 then
    return (.parseEnd,
      { eventIdMap := EventIdMap.clear
        slotFlag := 1
        ei := ei.add event.time (-1) synReport 0 })
  else
    return (.parseSkip, { s with eventIdMap := m, ei := ei })

/-
  `case ABS_MT_TRACKING_ID` with another value: push id. A
  repeated id is swallowed while `slot_flag` is 0.
-/
def parseTouch
    (event : InputEvent)
    (s : Parser) : Option (ParseInfo × Parser) :=
  if s.slotFlag = 0 then
    some (.parseSkip, s)
  else do
    let m ← s.eventIdMap.addTouchId event.value.toUInt32
    let pair ← m.getCurrentTouchId
    return (.parseSkip,
      { eventIdMap := m
        slotFlag := 0
        ei := s.ei.add event.time pair.value.toInt32
          event.code event.value.toUInt32 })

/- `case ABS_MT_SLOT` -/
def parseSlot
    (event : InputEvent)
    (s : Parser) : ParseInfo × Parser :=
  (.parseSkip,
    { s with
      eventIdMap :=
        s.eventIdMap.changeCurrentTouchId
          event.value.toUInt32
      slotFlag := 1 })

/- `case ABS_MT_POSITION_X`, `case ABS_MT_POSITION_Y` -/
def parsePosition
    (event : InputEvent)
    (s : Parser) : Option (ParseInfo × Parser) := do
  let pair ← s.eventIdMap.getCurrentTouchId
  if pair.value = 0xffffffff then
    return (.parseSkip, s)
  else
    return (.parseCon,
      { s with
        ei := s.ei.add event.time pair.value.toInt32
          event.code event.value.toUInt32 })

/- `case EV_KEY` -/
def parseKey
    (event : InputEvent)
    (s : Parser) : ParseInfo × Parser :=
  if checkDiscardEvent event.code then
    (.parseSkip, s)
  else
    (if event.code = btnTouch then .parseSkip else .parseEnd,
      { s with
        ei := s.ei.add event.time (-1) event.code
          event.value.toUInt32 })

/- `parse_event` -/
def parseEvent
    (event : InputEvent)
    (s : Parser) : Option (ParseInfo × Parser) :=
  let s := { s with ei := s.ei.setType event.type }
  if event.type = evSyn then
    if event.code = synReport then
      some (parseReport event s)
    else
      some (.parseSkip, s)
  else if event.type = evAbs then
    if event.code = absMtTrackingId then
      if event.value = -1 then
        parseLift event s
      else
        parseTouch event s
    else if event.code = absMtSlot then
      some (parseSlot event s)
    else if event.code = absMtPositionX ∨
        event.code = absMtPositionY then
      parsePosition event s
    else
      some (.parseSkip, s)
  else if event.type = evKey then
    some (parseKey event s)
  else
    some (.parseSkip, s)

end Parser

end FzEvent

------------------------------------------------------------
-- One Equation per Kind of Event
------------------------------------------------------------

namespace FzEvent

namespace Parser

/- The parser with the type of the event noted in the buffer. -/
def noteType
    (s : Parser)
    (event : InputEvent) : Parser :=
  { s with ei := s.ei.setType event.type }

@[simp] theorem eventIdMap_noteType
    (s : Parser)
    (event : InputEvent) :
    (s.noteType event).eventIdMap = s.eventIdMap := rfl

@[simp] theorem slotFlag_noteType
    (s : Parser)
    (event : InputEvent) :
    (s.noteType event).slotFlag = s.slotFlag := rfl

@[simp] theorem entries_noteType
    (s : Parser)
    (event : InputEvent) :
    (s.noteType event).ei.entries = s.ei.entries := rfl

/-
  What one call does, by the kind of the event. Every
  invariant of the parser is a case analysis over this.
-/
theorem parseEvent_eq
    (event : InputEvent)
    (s : Parser) :
    parseEvent event s =
      match event.kind with
      | .report => some (parseReport event (s.noteType event))
      | .touch => parseTouch event (s.noteType event)
      | .lift => parseLift event (s.noteType event)
      | .slot => some (parseSlot event (s.noteType event))
      | .positionX => parsePosition event (s.noteType event)
      | .positionY => parsePosition event (s.noteType event)
      | .key => some (parseKey event (s.noteType event))
      | .other => some (.parseSkip, s.noteType event) := by
  unfold parseEvent InputEvent.kind noteType
  by_cases hSyn : event.type = evSyn
  · by_cases hReport : event.code = synReport
    · simp only [if_pos hSyn, if_pos hReport]
    · simp only [if_pos hSyn, if_neg hReport]
  · by_cases hAbs : event.type = evAbs
    · simp only [if_neg hSyn, if_pos hAbs]
      by_cases hId : event.code = absMtTrackingId
      · by_cases hLift : event.value = -1
        · simp only [if_pos hId, if_pos hLift]
        · simp only [if_pos hId, if_neg hLift]
      · by_cases hSlot : event.code = absMtSlot
        · simp only [if_neg hId, if_pos hSlot]
        · by_cases hX : event.code = absMtPositionX
          · simp only [if_neg hId, if_neg hSlot, if_pos hX,
              if_pos (Or.inl hX)]
          · by_cases hY : event.code = absMtPositionY
            · simp only [if_neg hId, if_neg hSlot,
                if_neg hX, if_pos hY, if_pos (Or.inr hY)]
            · simp only [if_neg hId, if_neg hSlot,
                if_neg hX, if_neg hY,
                if_neg (not_or.mpr ⟨hX, hY⟩)]
    · by_cases hKey : event.type = evKey
      · simp only [if_neg hSyn, if_neg hAbs, if_pos hKey]
      · simp only [if_neg hSyn, if_neg hAbs, if_neg hKey]

end Parser

end FzEvent

------------------------------------------------------------
-- Calls with the Cursor inside the Table
------------------------------------------------------------

namespace FzEvent

namespace Parser

variable {event : InputEvent} {s : Parser}
variable {i : Fin defaultIdMapSize}

/- A push with `slot_flag` set registers the contact. -/
theorem parseTouch_of_flag_ne
    (hIndex : s.eventIdMap.slotIndex? = some i)
    (hFlag : s.slotFlag ≠ 0) :
    parseTouch event s =
      some (.parseSkip,
        { eventIdMap :=
            { s.eventIdMap with
              pair := Function.update s.eventIdMap.pair i
                ⟨UInt32.ofInt s.eventIdMap.slotCount,
                  event.value.toUInt32⟩
              slotCount := s.eventIdMap.slotCount + 1 }
          slotFlag := 0
          ei := s.ei.add event.time event.value event.code
            event.value.toUInt32 }) := by
  have hCurrent :
      ∀ pair : Fin defaultIdMapSize → Pair, ∀ count : Int,
        ({ s.eventIdMap with
            pair := pair
            slotCount := count } :
          EventIdMap).slotIndex? = some i :=
    fun _ _ => hIndex
  simp [parseTouch, hFlag, EventIdMap.addTouchId, hIndex,
    EventIdMap.getCurrentTouchId, hCurrent]

/- A push with `slot_flag` clear is swallowed. -/
theorem parseTouch_of_flag_eq
    (hFlag : s.slotFlag = 0) :
    parseTouch event s = some (.parseSkip, s) := by
  simp [parseTouch, hFlag]

/- A pop that takes the counter to 0 ends the session. -/
theorem parseLift_of_last
    (hIndex : s.eventIdMap.slotIndex? = some i)
    (hLast : s.eventIdMap.slotCount - 1 = 0) :
    parseLift event s =
      some (.parseEnd,
        { eventIdMap := EventIdMap.clear
          slotFlag := 1
          ei := (s.ei.add event.time
            (s.eventIdMap.pair i).value.toInt32
            event.code event.value.toUInt32).add
              event.time (-1) synReport 0 }) := by
  simp [parseLift, EventIdMap.getCurrentTouchId,
    EventIdMap.removeCurrentTouchId, EventIdMap.getCount,
    hIndex, hLast]

/- Any other pop only clears the current slot. -/
theorem parseLift_of_not_last
    (hIndex : s.eventIdMap.slotIndex? = some i)
    (hLast : s.eventIdMap.slotCount - 1 ≠ 0) :
    parseLift event s =
      some (.parseSkip,
        { s with
          eventIdMap :=
            { s.eventIdMap with
              pair := Function.update s.eventIdMap.pair i
                Pair.empty
              slotCount := s.eventIdMap.slotCount - 1 }
          ei := s.ei.add event.time
            (s.eventIdMap.pair i).value.toInt32
            event.code event.value.toUInt32 }) := by
  simp [parseLift, EventIdMap.getCurrentTouchId,
    EventIdMap.removeCurrentTouchId, EventIdMap.getCount,
    hIndex, hLast]

/- A coordinate is kept while the slot has an id. -/
theorem parsePosition_of_ne
    (hIndex : s.eventIdMap.slotIndex? = some i)
    (hId : (s.eventIdMap.pair i).value ≠ 0xffffffff) :
    parsePosition event s =
      some (.parseCon,
        { s with
          ei := s.ei.add event.time
            (s.eventIdMap.pair i).value.toInt32
            event.code event.value.toUInt32 }) := by
  simp [parsePosition, EventIdMap.getCurrentTouchId, hIndex,
    hId]

/- A coordinate in a slot without an id is dropped. -/
theorem parsePosition_of_eq
    (hIndex : s.eventIdMap.slotIndex? = some i)
    (hId : (s.eventIdMap.pair i).value = 0xffffffff) :
    parsePosition event s = some (.parseSkip, s) := by
  simp [parsePosition, EventIdMap.getCurrentTouchId, hIndex,
    hId]

/- A coordinate never ends a session or moves the table. -/
theorem exists_parsePosition
    (event : InputEvent)
    (hIndex : s.eventIdMap.slotIndex? = some i) :
    ∃ ret t,
      parsePosition event s = some (ret, t) ∧
        ret ≠ .parseEnd ∧
          t.eventIdMap = s.eventIdMap ∧
            t.slotFlag = s.slotFlag := by
  by_cases hId : (s.eventIdMap.pair i).value = 0xffffffff
  · exact ⟨_, _, parsePosition_of_eq hIndex hId, by simp⟩
  · exact ⟨_, _, parsePosition_of_ne hIndex hId, by simp⟩

end Parser

end FzEvent

------------------------------------------------------------
-- Recording a Stream
------------------------------------------------------------

namespace FzEvent

open Transition

namespace Parser

/- The caller clears the buffer after every `PARSE_END`. -/
def clearAtEnd
    (ret : ParseInfo)
    (s : Parser) : Parser :=
  if ret = .parseEnd then
    { s with ei := s.ei.clear }
  else
    s

@[simp] theorem eventIdMap_clearAtEnd
    (ret : ParseInfo)
    (s : Parser) :
    (s.clearAtEnd ret).eventIdMap = s.eventIdMap := by
  unfold clearAtEnd
  split <;> rfl

@[simp] theorem slotFlag_clearAtEnd
    (ret : ParseInfo)
    (s : Parser) :
    (s.clearAtEnd ret).slotFlag = s.slotFlag := by
  unfold clearAtEnd
  split <;> rfl

/- One call of `parse_event` with the caller's clearing. -/
def recordEvent
    (event : InputEvent)
    (s : Parser) : Option Parser := do
  let (ret, t) ← parseEvent event s
  return t.clearAtEnd ret

end Parser

/- The parser as a system that consumes an event stream. -/
def recorder : System Parser InputEvent where
  init := Parser.init
  step s event := Parser.recordEvent event s

theorem recorder_step_of_parseEvent
    {s t : Parser}
    {event : InputEvent}
    {ret : ParseInfo}
    (hParse : Parser.parseEvent event s = some (ret, t)) :
    recorder.step s event = some (t.clearAtEnd ret) := by
  simp [recorder, Parser.recordEvent, hParse]

end FzEvent

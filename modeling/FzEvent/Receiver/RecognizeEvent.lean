import FzEvent.Receiver.DevicePacket

/-
  `recognize_event`: the name of a received event, and the
  report that `write` makes of it.

  Main declarations:
    * `FzEvent.EventName`
    * `FzEvent.recognizeEvent`
    * `FzEvent.Report` and `FzEvent.reportName`
-/

------------------------------------------------------------
-- Event Names
------------------------------------------------------------

namespace FzEvent

/- The strings that `recognize_event` returns. -/
inductive EventName
| multitouch
| swipe
| tap
| key
| unnamed
deriving DecidableEq, Repr

/- The loop over the ids: two touch ids in a row differ. -/
def multitouchLoop : List Int32 → Int32 → Bool
| [], _ => false
| id :: ids, prev =>
    (id != -1 && prev != -1 && id != prev) ||
      multitouchLoop ids id

/- The coordinates that the swipe loop keeps. -/
structure SwipeState where
  firstX : Int32
  firstY : Int32
  x : Int32
  y : Int32
deriving DecidableEq, Repr

namespace SwipeState

def init : SwipeState :=
  ⟨-1, -1, -1, -1⟩

/- One round; `last_x` and `last_y` are the new `x` and `y`. -/
def next
    (s : SwipeState)
    (entry : Entry) : SwipeState :=
  let value := entry.value.toInt32
  let x := if entry.code = absMtPositionX then value else s.x
  let y := if entry.code = absMtPositionY then value else s.y
  { firstX := if s.firstX = -1 then x else s.firstX
    firstY := if s.firstY = -1 then y else s.firstY
    x := x
    y := y }

def velocity : Int32 := 50

def exceeds (s : SwipeState) : Bool :=
  decide (velocity < (s.firstX - s.x).abs) ||
    decide (velocity < (s.firstY - s.y).abs)

end SwipeState

/- The loop over the coordinates. -/
def swipeLoop : List Entry → SwipeState → Bool
| [], _ => false
| entry :: entries, s =>
    (s.next entry).exceeds || swipeLoop entries (s.next entry)

/- `recognize_event` -/
def recognizeEvent (e : DevicePacketEvent) : EventName :=
  if e.type = evAbs then
    if multitouchLoop (e.entries.map Entry.id) (-1) then
      .multitouch
    else if swipeLoop e.entries SwipeState.init then
      .swipe
    else
      .tap
  else if e.type = evKey then
    if e.count ≠ 1 then .unnamed else .key
  else
    .unnamed

end FzEvent

------------------------------------------------------------
-- Reports
------------------------------------------------------------

namespace FzEvent

/-
  The text file that `write` makes: the sequence number, the
  time of the header, the event name and the event, whose
  columns the file lists.
-/
structure Report where
  seq : UInt32
  time : Timeval
  eventname : EventName
  e : DevicePacketEvent
deriving DecidableEq, Repr

/- The name as `write` prints it from its three flags. -/
def reportName
    (isKey isMultitouch isSwipe : Bool) : EventName :=
  if isKey then .key
  else if isMultitouch then .multitouch
  else if isSwipe then .swipe
  else .tap

end FzEvent

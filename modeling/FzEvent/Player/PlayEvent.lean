import FzEvent.Lib.Decimal
import FzEvent.Player.EventList

/-
  The player's injection of one event, `play_event`.

  The waits between the events are left out: they do not
  change what is written.

  Main declarations:
    * `FzEvent.closingReport`
    * `FzEvent.playEvent`
    * `FzEvent.fileBuffer` and `FzEvent.playInto`
-/

------------------------------------------------------------
-- Playing
------------------------------------------------------------

namespace FzEvent

/- The report behind the events, at `prev_time`. -/
def closingReport (events : List InputEvent) : InputEvent where
  time :=
    match events.getLast? with
    | some event => event.time
    | none => ⟨-1, -1⟩
  type := 0
  code := 0
  value := 0

/- The events that `n` rounds of the loop write. -/
def playLoop
    (e : List InputEvent) : Nat → Option (List InputEvent)
| 0 => some []
| n + 1 => do
    let before ← playLoop e n
    let event ← e[n]?
    return before ++ [event]

/-
  `play_event`: the number of the device file and the events
  that are written to it. `none` stands for a number that is
  not in the list and for a read past the array.
-/
def playEvent
    (list : EventList)
    (seq : Int) : Option (Int32 × List InputEvent) := do
  let p ← list.getEventData seq
  let events ← playLoop p.e p.eventCount.toNat
  return (p.id, events ++ [closingReport events])

/- Inside the array the rounds write its first events. -/
theorem playLoop_of_le
    {e : List InputEvent}
    {n : Nat}
    (hLe : n ≤ e.length) :
    playLoop e n = some (e.take n) := by
  induction n with
  | zero => rfl
  | succ n ih =>
      have hLt : n < e.length := hLe
      rw [playLoop, ih (Nat.le_of_lt hLt)]
      simp [List.getElem?_eq_getElem hLt,
        List.take_append_getElem]

/- A node that knows its length gives all its events. -/
theorem playLoop_of_count
    {p : EventNode}
    (hCount : p.eventCount = p.e.length) :
    playLoop p.e p.eventCount.toNat = some p.e := by
  rw [hCount, Int.toNat_natCast,
    playLoop_of_le (Nat.le_refl _), List.take_length]

/- Such a node is played from end to end. -/
theorem playEvent_of_getEventData
    {list : EventList}
    {seq : Int}
    {p : EventNode}
    (hData : list.getEventData seq = some p)
    (hCount : p.eventCount = p.e.length) :
    playEvent list seq =
      some (p.id, p.e ++ [closingReport p.e]) := by
  simp [playEvent, hData, playLoop_of_count hCount]

end FzEvent

------------------------------------------------------------
-- The Device File
------------------------------------------------------------

namespace FzEvent

/- `file_buffer`, as `sprintf` fills it. -/
def fileBuffer (id : Int32) : List Char :=
  ['/', 'd', 'e', 'v', '/', 'i', 'n', 'p', 'u', 't', '/',
    'e', 'v', 'e', 'n', 't'] ++ Decimal.format id.toInt

/-
  `play_event` with the file that it opens; `openable` tells
  which files can be opened. The code is the same in the
  player and in the recorder's player.
-/
def playInto
    (openable : List Char → Bool)
    (list : EventList)
    (seq : Int) : Option (List Char × List InputEvent) := do
  let p ← list.getEventData seq
  guard (openable (fileBuffer p.id))
  let events ← playLoop p.e p.eventCount.toNat
  return (fileBuffer p.id, events ++ [closingReport events])

/- The number of an event has at most ten digits. -/
theorem natAbs_toInt_lt
    (id : Int32) :
    id.toInt.natAbs < 10 ^ 10 := by
  have hLow := id.le_toInt
  have hHigh := id.toInt_lt
  omega

/- The name fits into the buffer of 512 bytes. -/
theorem length_fileBuffer_lt
    (id : Int32) :
    (fileBuffer id).length < 512 := by
  have hLength :=
    Decimal.length_format_le (by decide) (natAbs_toInt_lt id)
  rw [fileBuffer, List.length_append]
  simp only [List.length_cons, List.length_nil]
  omega

/- It is what `play_event` writes, and the file of its id. -/
theorem playInto_eq_playEvent
    (list : EventList)
    (seq : Int) :
    playInto (fun _ => true) list seq =
      (playEvent list seq).map fun played =>
        (fileBuffer played.1, played.2) := by
  rw [playInto, playEvent]
  cases list.getEventData seq with
  | none => rfl
  | some p =>
      cases hEvents : playLoop p.e p.eventCount.toNat with
      | none => simp [hEvents]
      | some events => simp [hEvents]

theorem playInto_of_getEventData
    {openable : List Char → Bool}
    {list : EventList}
    {seq : Int}
    {p : EventNode}
    (hData : list.getEventData seq = some p)
    (hCount : p.eventCount = p.e.length)
    (hOpen : openable (fileBuffer p.id) = true) :
    playInto openable list seq =
      some (fileBuffer p.id, p.e ++ [closingReport p.e]) := by
  simp [playInto, hData, playLoop_of_count hCount, hOpen]

end FzEvent

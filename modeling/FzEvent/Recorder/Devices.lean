import FzEvent.Recorder.GetEvent
import FzEvent.Lib.Words
import Mathlib.Data.Fintype.Pi

/-
  Several devices on one recorder.

  All devices share the buffer, the slot table and the flag,
  and only the device of the completing event stamps the
  packet. The packets of a device are those of its own stream
  as long as no device works on a state that another one has
  begun.

  Main declarations:
    * `Parser.SameCore` and `Parser.parseEvent_sameCore`
    * `FzEvent.Sharing` and `FzEvent.sharing`
    * `Sharing.Apart`
    * `FzEvent.keptApart_of_apart`
-/

------------------------------------------------------------
-- What a Call Depends On
------------------------------------------------------------

namespace FzEvent

namespace Parser

/-
  The part of the state that the next call depends on: the
  type is noted anew, and the device id is not read.
-/
structure SameCore (s u : Parser) : Prop where
  eventIdMap_eq : s.eventIdMap = u.eventIdMap
  slotFlag_eq : s.slotFlag = u.slotFlag
  entries_eq : s.ei.entries = u.ei.entries

theorem SameCore.refl (s : Parser) : s.SameCore s :=
  ⟨rfl, rfl, rfl⟩

theorem SameCore.symm
    {s u : Parser}
    (hSame : s.SameCore u) :
    u.SameCore s :=
  ⟨hSame.eventIdMap_eq.symm, hSame.slotFlag_eq.symm,
    hSame.entries_eq.symm⟩

theorem SameCore.trans
    {s u v : Parser}
    (hFirst : s.SameCore u)
    (hSecond : u.SameCore v) :
    s.SameCore v :=
  ⟨hFirst.eventIdMap_eq.trans hSecond.eventIdMap_eq,
    hFirst.slotFlag_eq.trans hSecond.slotFlag_eq,
    hFirst.entries_eq.trans hSecond.entries_eq⟩

/- The parser with another device id in its buffer. -/
def stamped
    (devId : Int32)
    (s : Parser) : Parser :=
  { s with ei := s.ei.setDevId devId }

theorem add_setDevId
    (ei : EventInfo)
    (devId : Int32)
    (tv : Timeval)
    (id : Int32)
    (code : UInt16)
    (value : UInt32) :
    (ei.setDevId devId).add tv id code value =
      (ei.add tv id code value).setDevId devId := by
  unfold EventInfo.add
  by_cases hSkip :
      code = synReport ∧
        (ei.count = 0 ∨ ei.endsWithReport = true)
  · rw [if_pos hSkip]
    exact if_pos hSkip
  · rw [if_neg hSkip]
    exact if_neg hSkip

theorem parsePosition_stamped
    (event : InputEvent)
    (devId : Int32)
    (s : Parser) :
    parsePosition event (s.stamped devId) =
      (parsePosition event s).map
        (fun result => (result.1, result.2.stamped devId)) := by
  simp only [parsePosition, stamped, add_setDevId,
    Option.bind_eq_bind]
  cases s.eventIdMap.getCurrentTouchId with
  | none => rfl
  | some pair =>
      simp only [Option.bind_some]
      split <;> rfl

/- The parser does not look at the device id. -/
theorem parseEvent_stamped
    (event : InputEvent)
    (devId : Int32)
    (s : Parser) :
    parseEvent event (s.stamped devId) =
      (parseEvent event s).map
        (fun result => (result.1, result.2.stamped devId)) := by
  have hNoted :
      (s.stamped devId).noteType event =
        (s.noteType event).stamped devId := rfl
  rw [parseEvent_eq, parseEvent_eq, hNoted]
  cases hKind : event.kind with
  | report =>
      simp [parseReport, stamped, add_setDevId]
  | touch =>
      simp only [parseTouch, stamped, add_setDevId,
        Option.bind_eq_bind]
      split
      · rfl
      · cases (s.noteType event).eventIdMap.addTouchId
            event.value.toUInt32 with
        | none => rfl
        | some m =>
            simp only [Option.bind_some]
            cases m.getCurrentTouchId with
            | none => rfl
            | some pair => rfl
  | lift =>
      simp only [parseLift, stamped, add_setDevId,
        Option.bind_eq_bind]
      cases (s.noteType event).eventIdMap.getCurrentTouchId with
      | none => rfl
      | some pair =>
          cases
            (s.noteType event).eventIdMap.removeCurrentTouchId
            with
          | none => rfl
          | some m =>
              simp only [Option.bind_some]
              split <;> rfl
  | slot => rfl
  | positionX => exact parsePosition_stamped _ _ _
  | positionY => exact parsePosition_stamped _ _ _
  | key =>
      simp only [parseKey, stamped, add_setDevId]
      split <;> rfl
  | other => rfl

/- The type is noted once for all. -/
theorem parseEvent_noteType
    (event : InputEvent)
    (s : Parser) :
    parseEvent event (s.noteType event) =
      parseEvent event s := by
  rw [parseEvent_eq, parseEvent_eq]
  rfl

/-
  From states with the same core a call has the same result,
  up to the device id.
-/
theorem parseEvent_sameCore
    {s u : Parser}
    (hSame : s.SameCore u)
    (event : InputEvent) :
    parseEvent event u =
      (parseEvent event s).map
        (fun result =>
          (result.1, result.2.stamped u.ei.devId)) := by
  have hNoted :
      u.noteType event =
        (s.noteType event).stamped u.ei.devId := by
    rcases s with ⟨m, flag, type, devId, entries⟩
    rcases u with ⟨m', flag', type', devId', entries'⟩
    rcases hSame with ⟨hMap, hFlag, hEntries⟩
    subst hMap hFlag hEntries
    rfl
  rw [← parseEvent_noteType event u, hNoted,
    parseEvent_stamped, parseEvent_noteType]

end Parser

end FzEvent

------------------------------------------------------------
-- One Poll
------------------------------------------------------------

namespace FzEvent

namespace RecorderLoop

/-
  What an iteration does that reads one event: without a
  `PARSE_END` it only calls the parser, with one it pushes
  the stamped buffer and clears it.
-/
inductive Polled
    (name : List Char)
    (event : InputEvent)
    (s t : RecorderLoop) : Prop
| skip
    (ret : ParseInfo)
    (hParse :
      Parser.parseEvent event s.parser = some (ret, t.parser))
    (hRet : ret ≠ .parseEnd)
    (hPushed : t.pushed = s.pushed)
    (hEvt : t.evt = false)
| push
    (parser : Parser)
    (devId : Int32)
    (hParse :
      Parser.parseEvent event s.parser =
        some (.parseEnd, parser))
    (hDevId : devIdOf? name = some devId)
    (hCount : parser.ei.count ≠ 0)
    (hParser :
      t.parser =
        { parser with ei := (parser.ei.setDevId devId).clear })
    (hPushed : t.pushed = s.pushed ++ [parser.ei.setDevId devId])
    (hEvt : t.evt = true)

theorem exec_iteration_read
    (s : RecorderLoop)
    (name : List Char)
    (event : InputEvent) :
    recorderLoop.exec s (iteration [(name, event)]) =
      (s.getEventRound name event).bind finish := by
  simp only [iteration, List.map_cons, List.map_nil,
    List.cons_append, List.nil_append]
  rw [Transition.System.exec_cons]
  congr
  funext t
  rw [Transition.System.exec_cons]
  exact Option.bind_fun_some _

theorem polled_of_exec
    {s t : RecorderLoop}
    {name : List Char}
    {event : InputEvent}
    (hRun :
      recorderLoop.exec s (iteration [(name, event)]) =
        some t) :
    Polled name event s t := by
  rw [exec_iteration_read, Option.bind_eq_some_iff] at hRun
  rcases hRun with ⟨u, hRound, hFinish⟩
  cases hParse : Parser.parseEvent event s.parser with
  | none => simp [getEventRound, hParse] at hRound
  | some result =>
      rcases result with ⟨ret, parser⟩
      by_cases hRet : ret = .parseEnd
      · subst hRet
        cases hDevId : devIdOf? name with
        | none =>
            simp [getEventRound, hParse, hDevId] at hRound
        | some devId =>
            rw [getEventRound_of_parseEnd hParse hDevId]
              at hRound
            cases hRound
            by_cases hCount : parser.ei.count = 0
            · have hEmpty :
                  (parser.ei.setDevId devId).count = 0 :=
                hCount
              simp [finish, hEmpty] at hFinish
            · rw [finish_of_evt rfl hCount] at hFinish
              cases hFinish
              exact .push parser devId hParse hDevId hCount
                rfl rfl rfl
      · rw [getEventRound_of_ne hParse hRet name] at hRound
        cases hRound
        rw [finish_of_not_evt rfl] at hFinish
        cases hFinish
        exact .skip ret hParse hRet rfl rfl

/-
  From a state with the same core the same event can be read
  as well, with the same effect and the same packets.
-/
theorem Polled.matched
    {s t u : RecorderLoop}
    {name : List Char}
    {event : InputEvent}
    (hPolled : Polled name event s t)
    (hSame : s.parser.SameCore u.parser) :
    ∃ w added,
      recorderLoop.exec u (iteration [(name, event)]) =
          some w ∧
        t.parser.SameCore w.parser ∧
          t.pushed = s.pushed ++ added ∧
            w.pushed = u.pushed ++ added ∧
              ∀ ei ∈ added, devIdOf? name = some ei.devId := by
  have hParseU := Parser.parseEvent_sameCore hSame event
  rw [exec_iteration_read]
  cases hPolled with
  | skip ret hParse hRet hPushed hEvt =>
      rw [hParse, Option.map_some] at hParseU
      rw [getEventRound_of_ne hParseU hRet name,
        Option.bind_some, finish_of_not_evt rfl]
      refine ⟨_, [], rfl, ⟨rfl, rfl, rfl⟩, ?_, ?_, ?_⟩
      · rw [hPushed, List.append_nil]
      · rw [List.append_nil]
      · simp
  | push parser devId hParse hDevId hCount hParser hPushed
      hEvt =>
      rw [hParse, Option.map_some] at hParseU
      rw [getEventRound_of_parseEnd hParseU hDevId,
        Option.bind_some, finish_of_evt rfl hCount]
      refine ⟨_, [parser.ei.setDevId devId], rfl, ?_, hPushed,
        rfl, ?_⟩
      · rw [hParser]
        exact ⟨rfl, rfl, rfl⟩
      · intro ei hMem
        rw [List.mem_singleton.mp hMem]
        exact hDevId

end RecorderLoop

end FzEvent

------------------------------------------------------------
-- Sharing the Recorder
------------------------------------------------------------

namespace FzEvent

open Transition

instance (m m' : EventIdMap) : Decidable (m = m') :=
  decidable_of_iff
    (m.pair = m'.pair ∧ m.currentSlot = m'.currentSlot ∧
      m.slotCount = m'.slotCount)
    (by cases m; cases m'; simp)

instance (s u : Parser) : Decidable (s.SameCore u) :=
  decidable_of_iff
    (s.eventIdMap = u.eventIdMap ∧ s.slotFlag = u.slotFlag ∧
      s.ei.entries = u.ei.entries)
    ⟨fun h => ⟨h.1, h.2.1, h.2.2⟩,
      fun h => ⟨h.eventIdMap_eq, h.slotFlag_eq,
        h.entries_eq⟩⟩

/-
  The parser ignores the event: it knows no such event, or
  discards the key; the report would be the first or a second
  one; or the coordinate is of a slot without a contact.
-/
def Parser.Unnoticed
    (s : Parser)
    (event : InputEvent) : Prop :=
  match event.kind with
  | .other => True
  | .key => checkDiscardEvent event.code = true
  | .report => s.ei.roomFor event.code = 0
  | .positionX | .positionY =>
      s.eventIdMap.getCurrentTouchId.map Pair.value =
        some 0xffffffff
  | .touch | .lift | .slot => False

instance (s : Parser) (event : InputEvent) :
    Decidable (s.Unnoticed event) := by
  unfold Parser.Unnoticed
  exact match event.kind with
    | .other => .isTrue trivial
    | .key =>
        inferInstanceAs
          (Decidable (Parser.checkDiscardEvent event.code = true))
    | .report =>
        inferInstanceAs
          (Decidable (s.ei.roomFor event.code = 0))
    | .positionX | .positionY =>
        inferInstanceAs
          (Decidable
            (s.eventIdMap.getCurrentTouchId.map Pair.value =
              some 0xffffffff))
    | .touch | .lift | .slot => .isFalse not_false

/- A poll reads one event of one device, or nothing. -/
abbrev Poll : Type :=
  Option (List Char × InputEvent)

/-
  The recorder with the device that has changed the core of
  the parser last.
-/
structure Sharing where
  loop : RecorderLoop
  holder : Option (List Char)

namespace Sharing

def init : Sharing where
  loop := RecorderLoop.init
  holder := none

/- Who holds the core behind a poll that ends in `loop`. -/
def holderAfter
    (s : Sharing)
    (loop : RecorderLoop) : Poll → Option (List Char)
| none => s.holder
| some (name, _) =>
    if s.loop.parser.SameCore loop.parser then
      s.holder
    else
      some name

/- One poll. -/
def next
    (s : Sharing)
    (poll : Poll) : Option Sharing := do
  let loop ← recorderLoop.exec s.loop (iteration poll.toList)
  return ⟨loop, s.holderAfter loop poll⟩

/-
  The condition on a poll. An event is read while the core is
  as constructed, or from the device that holds it, or the
  core takes no notice of it. It is read inside the slot
  table; where it completes a gesture, it comes from a device
  with a number and is not the reserved key 0 on an empty
  buffer. A poll that reads nothing finds the pointer clear:
  it does not follow on a push, behind which the pointer is
  left on the empty buffer.
-/
def Apart (s : Sharing) : Poll → Prop
| none => s.loop.evt = false
| some (name, event) =>
    (s.loop.parser.SameCore Parser.init ∨
        s.holder = some name ∨
          s.loop.parser.Unnoticed event) ∧
      s.loop.parser.InBounds event ∧
        (s.loop.parser.Completes event →
          (devIdOf? name).isSome ∧
            (event.code = synReport →
              s.loop.parser.ei.count ≠ 0))

instance (s : Sharing) (poll : Poll) :
    Decidable (s.Apart poll) := by
  cases poll <;> unfold Apart <;> infer_instance

end Sharing

def sharing : System Sharing Poll where
  init := Sharing.init
  step s poll := s.next poll

/- The poll reads from the device. -/
def readsFrom
    (name : List Char)
    (poll : Poll) : Bool :=
  poll.any (fun read => decide (read.1 = name))

end FzEvent

------------------------------------------------------------
-- One Device beside the Others
------------------------------------------------------------

namespace FzEvent

namespace Parser

/- A coordinate of a slot without a contact is dropped. -/
theorem parsePosition_of_getCurrentTouchId
    {s : Parser}
    (hNone :
      s.eventIdMap.getCurrentTouchId.map Pair.value =
        some 0xffffffff)
    (event : InputEvent) :
    parsePosition event s = some (.parseSkip, s) := by
  rcases Option.map_eq_some_iff.mp hNone with
    ⟨pair, hPair, hValue⟩
  simp [parsePosition, hPair, hValue]

/- An event that is ignored is no end and changes nothing. -/
theorem parseEvent_unnoticed
    {s : Parser}
    {event : InputEvent}
    (hEvent : s.Unnoticed event) :
    parseEvent event s =
      some (.parseSkip, s.noteType event) := by
  have hNoted : (s.noteType event).Unnoticed event := hEvent
  rw [parseEvent_eq]
  unfold Unnoticed at hNoted
  cases hKind : event.kind with
  | report =>
      simp only [hKind, EventInfo.roomFor] at hNoted
      split at hNoted
      · next hSkip =>
        simp only [parseReport, EventInfo.add, if_pos hSkip]
      · cases hNoted
  | positionX =>
      simp only [hKind] at hNoted
      exact parsePosition_of_getCurrentTouchId hNoted event
  | positionY =>
      simp only [hKind] at hNoted
      exact parsePosition_of_getCurrentTouchId hNoted event
  | key =>
      simp only [hKind] at hNoted
      simp only [parseKey, hNoted, if_true]
  | other => rfl
  | touch => simp [hKind] at hNoted
  | lift => simp [hKind] at hNoted
  | slot => simp [hKind] at hNoted

/- What is ignored is ignored by the constructed core. -/
theorem Unnoticed.of_sameCore_init
    {s u : Parser}
    {event : InputEvent}
    (hEvent : s.Unnoticed event)
    (hInit : u.SameCore init) :
    u.Unnoticed event := by
  unfold Unnoticed at hEvent ⊢
  cases hKind : event.kind with
  | report =>
      have hCode : event.code = synReport :=
        (InputEvent.of_kind_report hKind).2
      have hCount : u.ei.count = 0 := by
        rw [EventInfo.count, hInit.entries_eq]
        rfl
      simp [EventInfo.roomFor, hCode, hCount]
  | positionX =>
      simp only [hInit.eventIdMap_eq]
      rfl
  | positionY =>
      simp only [hInit.eventIdMap_eq]
      rfl
  | key =>
      simp only [hKind] at hEvent
      exact hEvent
  | other => trivial
  | touch => simp [hKind] at hEvent
  | lift => simp [hKind] at hEvent
  | slot => simp [hKind] at hEvent

end Parser

namespace Sharing

variable {s t : Sharing}
variable {name : List Char} {event : InputEvent}

theorem exists_next
    {loop : RecorderLoop}
    (hRun :
      recorderLoop.exec s.loop (iteration [(name, event)]) =
        some loop) :
    ∃ t, s.next (some (name, event)) = some t ∧
      t.loop = loop := by
  refine ⟨⟨loop, s.holderAfter loop (some (name, event))⟩,
    ?_, rfl⟩
  rw [next, Option.toList_some, hRun]
  rfl

theorem of_next_read
    (hNext : s.next (some (name, event)) = some t) :
    RecorderLoop.Polled name event s.loop t.loop ∧
      ((s.loop.parser.SameCore t.loop.parser ∧
          t.holder = s.holder) ∨
        (¬ s.loop.parser.SameCore t.loop.parser ∧
          t.holder = some name)) := by
  simp only [next, Option.toList_some, Option.bind_eq_bind,
    Option.bind_eq_some_iff] at hNext
  rcases hNext with ⟨loop, hRun, hState⟩
  cases hState
  refine ⟨RecorderLoop.polled_of_exec hRun, ?_⟩
  by_cases hSame : s.loop.parser.SameCore loop.parser
  · exact Or.inl ⟨hSame, if_pos hSame⟩
  · exact Or.inr ⟨hSame, if_neg hSame⟩

end Sharing

/-
  Without a gesture that waits in the buffer, a poll that
  finds no device ready changes nothing.
-/
theorem Sharing.eq_of_next_idle
    {s t : Sharing}
    (hNext : s.next none = some t)
    (hWaiting :
      s.loop.evt = true → s.loop.parser.ei.count = 0) :
    t = s := by
  simp only [next, Option.bind_eq_bind,
    Option.bind_eq_some_iff] at hNext
  rcases hNext with ⟨loop, hRun, hState⟩
  cases hState
  have hFinish : s.loop.finish = some loop := by
    rcases (recorderLoop.exec_cons_eq_some_iff).mp hRun with
      ⟨loop', hStep, hDone⟩
    rw [Transition.System.exec_nil, Option.some.injEq] at hDone
    rw [← hDone]
    exact hStep
  cases hEvt : s.loop.evt with
  | true =>
      have hCount := hWaiting hEvt
      simp [RecorderLoop.finish, hEvt, hCount] at hFinish
  | false =>
      rw [RecorderLoop.finish_of_not_evt hEvt] at hFinish
      cases hFinish
      rfl

/- Behind a poll that pushes, the buffer is empty. -/
theorem RecorderLoop.Polled.waiting
    {s t : RecorderLoop}
    {name : List Char}
    {event : InputEvent}
    (hPolled : Polled name event s t)
    (hEvt : t.evt = true) :
    t.parser.ei.count = 0 := by
  cases hPolled with
  | skip ret hParse hRet hPushed hNoEvt =>
      rw [hEvt] at hNoEvt
      cases hNoEvt
  | push parser devId hParse hDevId hCount hParser hPushed
      hPushedEvt =>
      rw [hParser]
      rfl

/- An event that is ignored can be read. -/
theorem RecorderLoop.exists_exec_unnoticed
    {s : RecorderLoop}
    {event : InputEvent}
    (hEvent : s.parser.Unnoticed event)
    (name : List Char) :
    ∃ t,
      recorderLoop.exec s (iteration [(name, event)]) =
          some t ∧
        s.parser.SameCore t.parser ∧ t.pushed = s.pushed := by
  have hParse := Parser.parseEvent_unnoticed hEvent
  rw [exec_iteration_read,
    getEventRound_of_ne hParse (by simp) name,
    Option.bind_some, finish_of_not_evt rfl]
  exact ⟨_, rfl, ⟨rfl, rfl, rfl⟩, rfl⟩

theorem RecorderLoop.Polled.of_unnoticed
    {s t : RecorderLoop}
    {name : List Char}
    {event : InputEvent}
    (hPolled : Polled name event s t)
    (hEvent : s.parser.Unnoticed event) :
    s.parser.SameCore t.parser ∧ t.pushed = s.pushed := by
  have hParse := Parser.parseEvent_unnoticed hEvent
  cases hPolled with
  | skip ret hCall hRet hPushed hEvt =>
      rw [hParse, Option.some.injEq, Prod.mk.injEq] at hCall
      rw [← hCall.2]
      exact ⟨⟨rfl, rfl, rfl⟩, hPushed⟩
  | push parser devId hCall hDevId hCount hParser hPushed
      hEvt =>
      rw [hParse] at hCall
      cases hCall

/-
  The recorder of all devices beside the recorder of one: the
  same packets of that device, the same core while the device
  holds it, and else nothing begun on its own recorder.
-/
structure Shadow
    (name : List Char)
    (devId : Int32)
    (s u : Sharing) : Prop where
  pushed_eq :
    s.loop.pushed.filter (fun ei => ei.devId = devId) =
      u.loop.pushed
  held :
    s.holder = some name →
      s.loop.parser.SameCore u.loop.parser
  free :
    s.holder ≠ some name →
      u.loop.parser.SameCore Parser.init
  waiting :
    s.loop.evt = true → s.loop.parser.ei.count = 0

/-
  The numbers tell the devices apart: what is read with this
  number comes from this device.
-/
def NumberOf
    (name : List Char)
    (devId : Int32)
    (poll : Poll) : Prop :=
  ∀ read ∈ poll, devIdOf? read.1 = some devId ↔ read.1 = name

namespace Shadow

variable {name : List Char} {devId : Int32}
variable {s t u : Sharing}

theorem init
    (name : List Char)
    (devId : Int32) :
    Shadow name devId Sharing.init Sharing.init where
  pushed_eq := rfl
  held := fun _ => Parser.SameCore.refl _
  free := fun _ => Parser.SameCore.refl _
  waiting := fun _ => rfl

/- A poll of another device. -/
theorem of_other
    {other : List Char}
    {event : InputEvent}
    (hShadow : Shadow name devId s u)
    (hApart : s.Apart (some (other, event)))
    (hNumber : devIdOf? other ≠ some devId)
    (hOther : other ≠ name)
    (hNext : s.next (some (other, event)) = some t) :
    Shadow name devId t u := by
  rcases Sharing.of_next_read hNext with ⟨hPolled, hHolder⟩
  rcases hPolled.matched (Parser.SameCore.refl _) with
    ⟨w, added, -, -, hPushed, -, hAdded⟩
  have hNone :
      added.filter (fun ei => ei.devId = devId) = [] := by
    rw [List.filter_eq_nil_iff]
    intro ei hMem hSame
    have hStamp := hAdded ei hMem
    rw [of_decide_eq_true hSame] at hStamp
    exact hNumber hStamp
  constructor
  · rw [hPushed, List.filter_append, hNone, List.append_nil]
    exact hShadow.pushed_eq
  · intro hHeld
    rcases hHolder with ⟨hSame, hKept⟩ | ⟨-, hTaken⟩
    · rw [hKept] at hHeld
      exact hSame.symm.trans (hShadow.held hHeld)
    · rw [hTaken, Option.some.injEq] at hHeld
      exact absurd hHeld hOther
  · intro hNotHeld
    by_cases hHeld : s.holder = some name
    · -- the holder changes, so the core was as constructed
      rcases hHolder with ⟨-, hKept⟩ | ⟨hChanged, -⟩
      · rw [hKept] at hNotHeld
        exact absurd hHeld hNotHeld
      · rcases hApart.1 with hInit | hOwn | hUnnoticed
        · exact (hShadow.held hHeld).symm.trans hInit
        · rw [hHeld, Option.some.injEq] at hOwn
          exact absurd hOwn.symm hOther
        · exact absurd
            (hPolled.of_unnoticed hUnnoticed).1 hChanged
    · exact hShadow.free hHeld
  · exact hPolled.waiting

/- The recorder of one device takes its steps as well. -/
theorem matched_own
    {event : InputEvent}
    (hShadow : Shadow name devId s u)
    (hApart : s.Apart (some (name, event)))
    (hNext : s.next (some (name, event)) = some t) :
    ∃ w added,
      recorderLoop.exec u.loop (iteration [(name, event)]) =
          some w ∧
        t.loop.pushed = s.loop.pushed ++ added ∧
          w.pushed = u.loop.pushed ++ added ∧
            (∀ ei ∈ added, devIdOf? name = some ei.devId) ∧
              (t.holder = some name →
                t.loop.parser.SameCore w.parser) ∧
                (t.holder ≠ some name →
                  w.parser.SameCore Parser.init) := by
  rcases Sharing.of_next_read hNext with ⟨hPolled, hHolder⟩
  have hCases :
      s.loop.parser.SameCore u.loop.parser ∨
        (s.holder ≠ some name ∧
          s.loop.parser.Unnoticed event) := by
    by_cases hHeld : s.holder = some name
    · exact Or.inl (hShadow.held hHeld)
    · rcases hApart.1 with hInit | hOwn | hUnnoticed
      · exact Or.inl
          (hInit.trans (hShadow.free hHeld).symm)
      · exact absurd hOwn hHeld
      · exact Or.inr ⟨hHeld, hUnnoticed⟩
  rcases hCases with hSame | ⟨hNotHeld, hUnnoticed⟩
  · rcases hPolled.matched hSame with
      ⟨w, added, hRun, hCore, hPushed, hPushedSolo, hAdded⟩
    refine ⟨w, added, hRun, hPushed, hPushedSolo, hAdded,
      fun _ => hCore, ?_⟩
    intro hNotHeld
    rcases hHolder with ⟨hUnchanged, hKept⟩ | ⟨-, hTaken⟩
    · rw [hKept] at hNotHeld
      exact hCore.symm.trans (hUnchanged.symm.trans
        (hSame.trans (hShadow.free hNotHeld)))
    · exact absurd hTaken hNotHeld
  · rcases hPolled.of_unnoticed hUnnoticed with
      ⟨hUnchanged, hPushed⟩
    have hSolo : u.loop.parser.Unnoticed event :=
      hUnnoticed.of_sameCore_init (hShadow.free hNotHeld)
    rcases RecorderLoop.exists_exec_unnoticed hSolo name with
      ⟨w, hRun, hCore, hPushedSolo⟩
    have hKept : t.holder = s.holder := by
      rcases hHolder with ⟨-, hKept⟩ | ⟨hChanged, -⟩
      · exact hKept
      · exact absurd hUnchanged hChanged
    refine ⟨w, [], hRun, by rw [hPushed, List.append_nil],
      by rw [hPushedSolo, List.append_nil], by simp, ?_, ?_⟩
    · intro hHeld
      rw [hKept] at hHeld
      exact absurd hHeld hNotHeld
    · intro _
      exact hCore.symm.trans (hShadow.free hNotHeld)

/- A poll of the device itself. -/
theorem of_own
    {event : InputEvent}
    (hShadow : Shadow name devId s u)
    (hApart : s.Apart (some (name, event)))
    (hNumber : devIdOf? name = some devId)
    (hNext : s.next (some (name, event)) = some t) :
    ∃ v, u.next (some (name, event)) = some v ∧
      Shadow name devId t v := by
  rcases Sharing.of_next_read hNext with ⟨hPolled, -⟩
  rcases hShadow.matched_own hApart hNext with
    ⟨w, added, hRun, hPushed, hPushedSolo, hAdded, hHeld,
      hFree⟩
  rcases Sharing.exists_next hRun with ⟨v, hNextSolo, hLoop⟩
  have hAll :
      added.filter (fun ei => ei.devId = devId) = added := by
    rw [List.filter_eq_self]
    intro ei hMem
    have hStamp := hAdded ei hMem
    rw [hNumber, Option.some.injEq] at hStamp
    exact decide_eq_true hStamp.symm
  refine ⟨v, hNextSolo, ?_, ?_, ?_, hPolled.waiting⟩
  · rw [hPushed, List.filter_append, hAll, hShadow.pushed_eq,
      hLoop, hPushedSolo]
  · rw [hLoop]
    exact hHeld
  · rw [hLoop]
    exact hFree

/- A poll that finds no device ready. -/
theorem of_idle
    (hShadow : Shadow name devId s u)
    (hNext : s.next none = some t) :
    Shadow name devId t u := by
  rw [Sharing.eq_of_next_idle hNext hShadow.waiting]
  exact hShadow

end Shadow

end FzEvent

------------------------------------------------------------
-- Whole Runs
------------------------------------------------------------

namespace FzEvent

open Transition

/- The iterations of a list of polls. -/
def pollSteps (polls : List Poll) : List LoopStep :=
  iterations (polls.map Option.toList)

/- The recorder with its holder runs as the recorder does. -/
theorem sharing_exec_iff
    (s : Sharing)
    (polls : List Poll)
    (loop : RecorderLoop) :
    recorderLoop.exec s.loop (pollSteps polls) = some loop ↔
      ∃ t, sharing.exec s polls = some t ∧ t.loop = loop := by
  induction polls generalizing s with
  | nil => simp [pollSteps, iterations]
  | cons poll polls ih =>
      have hSteps :
          pollSteps (poll :: polls) =
            iteration poll.toList ++ pollSteps polls := rfl
      rw [hSteps, System.exec_append,
        Option.bind_eq_some_iff]
      constructor
      · rintro ⟨loop', hRun, hRest⟩
        have hNext :
            sharing.step s poll =
              some ⟨loop', s.holderAfter loop' poll⟩ := by
          simp [sharing, Sharing.next, hRun]
        rcases (ih ⟨loop', s.holderAfter loop' poll⟩).mp
            hRest with
          ⟨t, hExec, hLoop⟩
        exact ⟨t, (sharing.exec_cons_eq_some_iff).mpr
          ⟨_, hNext, hExec⟩, hLoop⟩
      · rintro ⟨t, hExec, hLoop⟩
        rcases (sharing.exec_cons_eq_some_iff).mp hExec with
          ⟨t', hNext, hRest⟩
        simp only [sharing, Sharing.next, Option.bind_eq_bind,
          Option.bind_eq_some_iff] at hNext
        rcases hNext with ⟨loop', hRun, hState⟩
        cases hState
        exact ⟨loop', hRun, (ih _).mpr ⟨t, hRest, hLoop⟩⟩

/- Two devices with the same number are the same. -/
def NumbersApart (polls : List Poll) : Prop :=
  ∀ read read' devId,
    some read ∈ polls → some read' ∈ polls →
      devIdOf? read.1 = some devId →
        devIdOf? read'.1 = some devId → read.1 = read'.1

/- Event devices have their numbers apart. -/
theorem numbersApart_of_eventPaths
    {polls : List Poll}
    (hNames :
      ∀ read, some read ∈ polls →
        ∃ n, n < 2147483648 ∧ read.1 = eventPath n) :
    NumbersApart polls := by
  intro read read' devId hMem hMem' hNumber hNumber'
  rcases hNames read hMem with ⟨n, hN, hName⟩
  rcases hNames read' hMem' with ⟨m, hM, hName'⟩
  rw [hName, devIdOf?_eventPath hN, Option.some_inj] at hNumber
  rw [hName', devIdOf?_eventPath hM, Option.some_inj,
    ← hNumber] at hNumber'
  have hSame := congrArg Int32.toInt hNumber'
  rw [Words.toInt_ofInt_natCast hN,
    Words.toInt_ofInt_natCast hM] at hSame
  rw [hName, hName', Int.ofNat_inj.mp hSame]

/-
  Beside the other devices a device records as alone: the
  packets with its number are those of the run over its own
  events, and every entry of a packet was read from the
  device that the packet names.
-/
structure KeptApart
    (polls : List Poll)
    (t : RecorderLoop) : Prop where
  pushed_eq :
    ∀ name event devId,
      some (name, event) ∈ polls →
        devIdOf? name = some devId →
          ∃ u,
            recorderLoop.exec recorderLoop.init
                (pollSteps (polls.filter (readsFrom name))) =
              some u ∧
            t.pushed.filter (fun ei => ei.devId = devId) =
              u.pushed
  stemsFrom :
    ∀ ei ∈ t.pushed, ∀ entry ∈ ei.entries,
      ∃ name event,
        some (name, event) ∈ polls ∧
          devIdOf? name = some ei.devId ∧
            Parser.StemsFrom entry event

/- The run of all devices and the run of one. -/
theorem exists_shadow
    {polls : List Poll}
    {t : Sharing}
    (hRun : sharing.exec sharing.init polls = some t)
    (hApart : sharing.Meets Sharing.Apart sharing.init polls)
    {name : List Char}
    {devId : Int32}
    (hNumbers : ∀ poll ∈ polls, NumberOf name devId poll)
    (hNumber : devIdOf? name = some devId) :
    ∃ u,
      sharing.exec sharing.init
          (polls.filter (readsFrom name)) = some u ∧
        Shadow name devId t u := by
  have hMeets :=
    (sharing.meets_and_iff _ _ sharing.init polls).mpr
      ⟨hApart, sharing.meets_of_forall sharing.init hNumbers⟩
  refine sharing.projection_of_meets sharing
    (readsFrom name) ?_ ?_ (Shadow.init name devId) hMeets
    hRun
  · intro s u poll s' hShadow hCond hKeep hNext
    cases poll with
    | none => cases hKeep
    | some read =>
        rcases read with ⟨name', event⟩
        have hName : name' = name := of_decide_eq_true hKeep
        subst hName
        exact hShadow.of_own hCond.1 hNumber hNext
  · intro s u poll s' hShadow hCond hDrop hNext
    cases poll with
    | none => exact hShadow.of_idle hNext
    | some read =>
        rcases read with ⟨other, event⟩
        have hOther : other ≠ name :=
          of_decide_eq_false hDrop
        have hOtherNumber : devIdOf? other ≠ some devId := by
          intro hSame
          exact hOther
            ((hCond.2 (other, event) rfl).mp hSame)
        exact hShadow.of_other hCond.1 hOtherNumber hOther
          hNext

/-
  The entries in the buffer and in the packets have `P`, the
  numbers of the packets `Q`.
-/
structure Marked
    (P : Entry → Prop)
    (Q : Int32 → Prop)
    (s : Sharing) : Prop where
  buffer : ∀ entry ∈ s.loop.parser.ei.entries, P entry
  pushed :
    ∀ ei ∈ s.loop.pushed,
      (∀ entry ∈ ei.entries, P entry) ∧ Q ei.devId
  waiting :
    s.loop.evt = true → s.loop.parser.ei.count = 0

theorem Marked.read
    {P : Entry → Prop}
    {Q : Int32 → Prop}
    {s t : Sharing}
    {name : List Char}
    {event : InputEvent}
    (hMarked : Marked P Q s)
    (hEntries :
      ∀ entry, Parser.StemsFrom entry event → P entry)
    (hNumbers :
      ∀ devId, devIdOf? name = some devId → Q devId)
    (hNext : s.next (some (name, event)) = some t) :
    Marked P Q t := by
  rcases Sharing.of_next_read hNext with ⟨hPolled, -⟩
  have hParsed :
      ∀ ret parser,
        Parser.parseEvent event s.loop.parser =
            some (ret, parser) →
          ∀ entry ∈ parser.ei.entries, P entry := by
    intro ret parser hParse entry hMem
    rcases Parser.exists_entries_parseEvent hParse with
      ⟨added, hAppends⟩
    rw [hAppends.entries_eq] at hMem
    rcases List.mem_append.mp hMem with hOld | hNew
    · exact hMarked.buffer entry hOld
    · exact hEntries entry (hAppends.stemsFrom entry hNew)
  refine ⟨?_, ?_, hPolled.waiting⟩
  · cases hPolled with
    | skip ret hParse hRet hPushed hEvt =>
        exact hParsed _ _ hParse
    | push parser devId hParse hDevId hCount hParser hPushed
        hEvt =>
        rw [hParser]
        simp
  · cases hPolled with
    | skip ret hParse hRet hPushed hEvt =>
        rw [hPushed]
        exact hMarked.pushed
    | push parser devId hParse hDevId hCount hParser hPushed
        hEvt =>
        rw [hPushed]
        intro ei hMem
        rcases List.mem_append.mp hMem with hOld | hNew
        · exact hMarked.pushed ei hOld
        · rw [List.mem_singleton.mp hNew]
          exact ⟨hParsed _ _ hParse, hNumbers devId hDevId⟩

/-
  What every entry read in the polls is, and every number of
  their devices, all entries and numbers in the packets are.
-/
theorem marked_of_exec
    {polls : List Poll}
    {t : Sharing}
    (P : Entry → Prop)
    (Q : Int32 → Prop)
    (hRun : sharing.exec sharing.init polls = some t)
    (hEntries :
      ∀ name event, some (name, event) ∈ polls →
        ∀ entry, Parser.StemsFrom entry event → P entry)
    (hNumbers :
      ∀ name event, some (name, event) ∈ polls →
        ∀ devId, devIdOf? name = some devId → Q devId) :
    Marked P Q t := by
  have hPolls :
      ∀ poll ∈ polls, ∀ read ∈ poll,
        (∀ entry, Parser.StemsFrom entry read.2 → P entry) ∧
          ∀ devId, devIdOf? read.1 = some devId →
            Q devId := by
    rintro poll hPoll ⟨name, event⟩ hRead
    rw [Option.mem_def] at hRead
    rw [hRead] at hPoll
    exact ⟨hEntries name event hPoll,
      hNumbers name event hPoll⟩
  refine sharing.invariant_of_meets (Marked P Q) ?_ ?_
    (sharing.meets_of_forall sharing.init hPolls) hRun
  · intro s poll s' hMarked hPoll hNext
    cases poll with
    | none =>
        rw [Sharing.eq_of_next_idle hNext hMarked.waiting]
        exact hMarked
    | some read =>
        rcases read with ⟨name, event⟩
        rcases hPoll (name, event) rfl with ⟨hStems, hNumber⟩
        exact hMarked.read hStems hNumber hNext
  · constructor
    · simp [sharing, Sharing.init, RecorderLoop.init,
        Parser.init, EventInfo.init]
    · simp [sharing, Sharing.init, RecorderLoop.init]
    · intro _
      rfl

/-
  Alone, a device with this number makes the packets that
  carry it.
-/
theorem exists_solo_pushed
    {polls : List Poll}
    {s : Sharing}
    (hExec : sharing.exec sharing.init polls = some s)
    (hNumbers : NumbersApart polls)
    (hApart :
      sharing.Meets Sharing.Apart sharing.init polls)
    {name : List Char}
    {event : InputEvent}
    {devId : Int32}
    (hMem : some (name, event) ∈ polls)
    (hNumber : devIdOf? name = some devId) :
    ∃ u,
      sharing.exec sharing.init
          (polls.filter (readsFrom name)) = some u ∧
        s.loop.pushed.filter (fun ei => ei.devId = devId) =
          u.loop.pushed := by
  have hOnly : ∀ poll ∈ polls, NumberOf name devId poll := by
    rintro poll hPoll read hRead
    constructor
    · intro hSame
      rw [Option.mem_def] at hRead
      rw [hRead] at hPoll
      exact hNumbers read (name, event) devId hPoll hMem
        hSame hNumber
    · intro hSame
      rw [hSame]
      exact hNumber
  rcases exists_shadow hExec hApart hOnly hNumber with
    ⟨u, hSolo, hShadow⟩
  exact ⟨u, hSolo, hShadow.pushed_eq⟩

/- What a device makes alone stems from its own events. -/
theorem stems_of_solo
    {polls : List Poll}
    {name : List Char}
    {u : Sharing}
    (hSolo :
      sharing.exec sharing.init
        (polls.filter (readsFrom name)) = some u)
    {ei : EventInfo}
    (hEi : ei ∈ u.loop.pushed)
    {entry : Entry}
    (hEntry : entry ∈ ei.entries) :
    ∃ event,
      some (name, event) ∈ polls ∧
        Parser.StemsFrom entry event := by
  have hMarked :=
    marked_of_exec
      (fun entry => ∃ event,
        some (name, event) ∈ polls ∧
          Parser.StemsFrom entry event)
      (fun _ => True) hSolo ?_ (fun _ _ _ _ _ => trivial)
  · exact (hMarked.pushed ei hEi).1 entry hEntry
  · intro name' event' hMem' entry hStems
    rw [List.mem_filter] at hMem'
    have hName : name' = name := of_decide_eq_true hMem'.2
    rw [hName] at hMem'
    exact ⟨event', hMem'.1, hStems⟩

/-
  A poll that meets the condition does not fault, and leaves
  no gesture in the buffer with the pointer set.
-/
theorem Sharing.exists_step
    {s : Sharing}
    {poll : Poll}
    (hWaiting :
      s.loop.evt = true → s.loop.parser.ei.count = 0)
    (hApart : s.Apart poll) :
    ∃ t, sharing.step s poll = some t ∧
      (t.loop.evt = true → t.loop.parser.ei.count = 0) := by
  cases poll with
  | none =>
      have hEvt : s.loop.evt = false := hApart
      refine ⟨s, ?_, hWaiting⟩
      have hRun :
          recorderLoop.exec s.loop (iteration []) =
            some s.loop := by
        rw [iteration, List.map_nil, List.nil_append,
          System.exec_cons_eq_some_iff]
        exact ⟨s.loop, RecorderLoop.finish_of_not_evt hEvt, rfl⟩
      simp [sharing, next, hRun, holderAfter]
  | some read =>
      rcases read with ⟨name, event⟩
      rcases hApart with ⟨_, hInBounds, hCompletes⟩
      rcases Parser.exists_parseEvent hInBounds with
        ⟨ret, parser, hParse, hEnd⟩
      obtain ⟨loop, hRun⟩ :
          ∃ loop,
            recorderLoop.exec s.loop
              (iteration [(name, event)]) = some loop := by
        rw [RecorderLoop.exec_iteration_read]
        by_cases hRet : ret = .parseEnd
        · subst hRet
          rcases hCompletes (hEnd.mp rfl) with
            ⟨hName, hReport⟩
          rcases Option.isSome_iff_exists.mp hName with
            ⟨devId, hDevId⟩
          have hCount :=
            Parser.count_ne_zero_of_parseEnd hParse hReport
          rw [RecorderLoop.getEventRound_of_parseEnd hParse
            hDevId, Option.bind_some,
            RecorderLoop.finish_of_evt rfl hCount]
          exact ⟨_, rfl⟩
        · rw [RecorderLoop.getEventRound_of_ne hParse hRet name,
            Option.bind_some,
            RecorderLoop.finish_of_not_evt rfl]
          exact ⟨_, rfl⟩
      rcases exists_next hRun with ⟨t, hNext, hLoop⟩
      refine ⟨t, hNext, ?_⟩
      rw [hLoop]
      exact (RecorderLoop.polled_of_exec hRun).waiting

/-
  When every event is read on the constructed core or from
  the device that holds the core, or is ignored, and no poll
  faults by itself, the run does not fault and all devices are
  kept apart.
-/
theorem keptApart_of_apart
    (polls : List Poll)
    (hNumbers : NumbersApart polls)
    (hApart :
      sharing.Meets Sharing.Apart sharing.init polls) :
    ∃ t,
      recorderLoop.exec recorderLoop.init (pollSteps polls) =
          some t ∧
        KeptApart polls t := by
  have hWaiting :
      sharing.init.loop.evt = true →
        sharing.init.loop.parser.ei.count = 0 := fun _ => rfl
  rcases sharing.exec_isSome_of_meets
      (fun _ _ hInv hCond => Sharing.exists_step hInv hCond)
      hWaiting hApart with
    ⟨s, hExec, _⟩
  refine ⟨s.loop,
    (sharing_exec_iff sharing.init polls s.loop).mpr
      ⟨s, hExec, rfl⟩, ?_⟩
  constructor
  · intro name event devId hMem hNumber
    rcases exists_solo_pushed hExec hNumbers hApart hMem hNumber
      with ⟨u, hSolo, hEq⟩
    exact ⟨u.loop,
      (sharing_exec_iff sharing.init _ u.loop).mpr
        ⟨u, hSolo, rfl⟩, hEq⟩
  · intro ei hEi entry hEntry
    have hNamed :=
      ((marked_of_exec (fun _ => True)
        (fun devId => ∃ name event,
          some (name, event) ∈ polls ∧
            devIdOf? name = some devId)
        hExec (fun _ _ _ _ _ => trivial)
        (fun name event hMem devId hNumber =>
          ⟨name, event, hMem, hNumber⟩)).pushed ei hEi).2
    rcases hNamed with ⟨name, event, hMem, hNumber⟩
    rcases exists_solo_pushed hExec hNumbers hApart hMem hNumber
      with ⟨u, hSolo, hEq⟩
    have hEiSolo : ei ∈ u.loop.pushed := by
      rw [← hEq, List.mem_filter]
      exact ⟨hEi, decide_eq_true rfl⟩
    rcases stems_of_solo hSolo hEiSolo hEntry with
      ⟨event', hMem', hStems⟩
    exact ⟨name, event', hMem', hNumber, hStems⟩

/- A touch panel and a keypad. -/
def panel : List Char :=
  eventDevice '1'

def keypad : List Char :=
  eventDevice '2'

/- Polls that read these two only have their numbers apart. -/
theorem numbersApart_of_panel_keypad
    {polls : List Poll}
    (hNames :
      ∀ read, some read ∈ polls →
        read.1 = panel ∨ read.1 = keypad) :
    NumbersApart polls := by
  apply numbersApart_of_eventPaths
  intro read hMem
  rcases hNames read hMem with hName | hName
  · exact ⟨1, by decide, hName⟩
  · exact ⟨2, by decide, hName⟩

/- A tap on the panel, then a key. -/
def tapThenKey : List Poll :=
  [some (panel, .abs absMtTrackingId 5),
    some (keypad, ⟨⟨0, 0⟩, 4, 4, 30⟩),
    some (panel, .abs absMtTrackingId (-1)),
    some (panel, .report), none,
    some (keypad, ⟨⟨0, 0⟩, evKey, 115, 1⟩)]

theorem exists_keptApart_tapThenKey :
    ∃ t,
      recorderLoop.exec recorderLoop.init
          (pollSteps tapThenKey) = some t ∧
        KeptApart tapThenKey t := by
  refine keptApart_of_apart _ ?_ (by decide)
  apply numbersApart_of_panel_keypad
  simp [tapThenKey]

/- A key is pressed while a finger is on the panel. -/
def keyDuringTap : List Poll :=
  [some (panel, .abs absMtTrackingId 5),
    some (keypad, ⟨⟨0, 0⟩, evKey, 115, 1⟩)]

theorem not_keptApart :
    ¬ ∀ polls t,
      recorderLoop.exec recorderLoop.init (pollSteps polls) =
          some t →
        NumbersApart polls → KeptApart polls t := by
  intro hAll
  have hPushed :
      (recorderLoop.exec recorderLoop.init
        (pollSteps keyDuringTap)).map RecorderLoop.pushed =
        some
          [⟨evKey, 2,
            [⟨⟨0, 0⟩, 5, absMtTrackingId, 5⟩,
              ⟨⟨0, 0⟩, -1, 115, 1⟩]⟩] := by
    decide
  rcases Option.map_eq_some_iff.mp hPushed with
    ⟨t, hRun, hPackets⟩
  have hApart : KeptApart keyDuringTap t := by
    refine hAll _ t hRun (numbersApart_of_panel_keypad ?_)
    simp [keyDuringTap]
  -- the touch is in the packet of the keypad
  have hStems := hApart.stemsFrom
  rw [hPackets] at hStems
  rcases hStems _ (List.mem_singleton.mpr rfl)
      ⟨⟨0, 0⟩, 5, absMtTrackingId, 5⟩ (by simp) with
    ⟨name, event, hMem, hNumber, -, hCode⟩
  simp only [keyDuringTap, List.mem_cons, Option.some.injEq,
    Prod.mk.injEq, List.not_mem_nil, or_false] at hMem
  rcases hMem with ⟨rfl, rfl⟩ | ⟨rfl, rfl⟩
  · exact absurd hNumber (by decide)
  · exact absurd hCode (by decide)

end FzEvent

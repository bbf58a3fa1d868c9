import FzEvent.Recorder.PacketKind
import FzEvent.Recorder.TouchCounter
import Mathlib.Data.List.Chain

/-
  The shape of the entries, over any stream of events and
  under a caller that clears the buffer at any `PARSE_END`
  it likes.

  All entries, a key with the code 0 too, go through `add`,
  so no two reports meet and none comes first. The end of a
  touch gesture puts the whole parser back to its start,
  whatever state it was in.

  Main declarations:
    * `EventInfo.ReportsApart` and `ReportsApart.add`
    * `Parser.GestureClosed`
    * `FzEvent.freeRecorder`
    * `FzEvent.entries_shape`
-/

------------------------------------------------------------
-- Reports Apart
------------------------------------------------------------

namespace FzEvent

namespace EventInfo

/- The array `code`. -/
def codes (ei : EventInfo) : List UInt16 :=
  ei.entries.map Entry.code

/- No report comes first, and no two are next to each other. -/
structure ReportsApart (ei : EventInfo) : Prop where
  head : ei.codes.head? ≠ some synReport
  apart :
    ei.codes.IsChain fun a b =>
      ¬ (a = synReport ∧ b = synReport)

variable {ei other : EventInfo}

theorem reportsApart_of_nil
    (hNil : ei.entries = []) :
    ei.ReportsApart := by
  constructor
  · simp [codes, hNil]
  · simp [codes, hNil]

/- The type and the device id do not matter. -/
theorem ReportsApart.of_entries_eq
    (hApart : ei.ReportsApart)
    (hEntries : other.entries = ei.entries) :
    other.ReportsApart := by
  have hCodes : other.codes = ei.codes := by
    rw [codes, codes, hEntries]
  exact ⟨hCodes ▸ hApart.head, hCodes ▸ hApart.apart⟩

/- The last code, as `add` looks at it. -/
theorem endsWithReport_iff
    (ei : EventInfo) :
    ei.endsWithReport = true ↔
      ei.codes.getLast? = some synReport := by
  rw [endsWithReport, codes, List.getLast?_map]
  cases ei.entries.getLast? with
  | none => simp
  | some entry => simp

/- One more entry, whatever its code is. -/
theorem ReportsApart.add
    (hApart : ei.ReportsApart)
    (tv : Timeval)
    (id : Int32)
    (code : UInt16)
    (value : UInt32) :
    (ei.add tv id code value).ReportsApart := by
  rw [EventInfo.add]
  split
  · exact hApart
  · next hKept =>
    rw [not_and, not_or] at hKept
    have hCodes :
        ({ ei with
          entries := ei.entries ++ [⟨tv, id, code, value⟩] } :
            EventInfo).codes = ei.codes ++ [code] := by
      rw [codes, List.map_append]
      rfl
    constructor
    · rw [hCodes]
      cases hOld : ei.codes with
      | nil =>
          have hCount : ei.count = 0 := by
            have hLength := congrArg List.length hOld
            rwa [codes, List.length_map] at hLength
          intro hHead
          exact (hKept (Option.some.inj hHead)).1 hCount
      | cons first codes =>
          have hHead := hApart.head
          rw [hOld] at hHead
          exact hHead
    · rw [hCodes]
      apply hApart.apart.append (List.isChain_singleton code)
      intro last hLast next hNext hReports
      rcases hReports with ⟨rfl, rfl⟩
      cases hNext
      exact (hKept rfl).2 ((endsWithReport_iff ei).mpr hLast)

end EventInfo

end FzEvent

------------------------------------------------------------
-- One Call
------------------------------------------------------------

namespace FzEvent

namespace Parser

/-
  The end of a touch gesture: the buffer ends with the lift
  and one report, and the parser is as at the start.
-/
structure GestureClosed (s : Parser) : Prop where
  entries_eq :
    ∃ earlier tv id tv' id', s.ei.entries =
      earlier ++
        [⟨tv, id, absMtTrackingId, 0xffffffff⟩,
          ⟨tv', id', synReport, 0⟩]
  pair_value :
    ∀ i, (s.eventIdMap.pair i).value = 0xffffffff
  slotCount_eq : s.eventIdMap.slotCount = 0
  currentSlot_eq : s.eventIdMap.currentSlot = 0
  slotFlag_eq : s.slotFlag = 1

variable {s t : Parser} {event : InputEvent}
variable {ret : ParseInfo}

/- Every call site adds through `add`. -/
theorem reportsApart_parseEvent
    (hApart : s.ei.ReportsApart)
    (hParse : parseEvent event s = some (ret, t)) :
    t.ei.ReportsApart := by
  have hTyped :
      ∀ type, (s.ei.setType type).ReportsApart :=
    fun type => hApart.of_entries_eq rfl
  by_cases hRet : ret = .parseEnd
  · subst hRet
    rcases kind_of_parseEnd hParse with hKind | hKind
    · -- the lift and the report behind it
      rcases ei_of_parseEnd_lift hKind hParse with
        ⟨_, id, hEntries⟩
      have hCode := (InputEvent.of_kind_lift hKind).2.1
      have hNe : event.code ≠ synReport := by
        rw [hCode]
        decide
      have hBoth :=
        (hApart.add event.time id event.code
          event.value.toUInt32).add event.time (-1)
            synReport 0
      apply hBoth.of_entries_eq
      rw [hEntries]
      exact (EventInfo.entries_add_add_report s.ei _ _ _ _ _ _
        hNe).symm
    · rw [ei_of_parseEnd_key hKind hParse]
      exact (hTyped evKey).add _ _ _ _
  · rcases ei_of_ne_parseEnd hParse hRet with
      hKeep | ⟨_, id, hAdd⟩
    · rw [hKeep]
      exact hTyped event.type
    · rw [hAdd]
      exact (hTyped event.type).add _ _ _ _

/- A lift that ends the gesture, from any state. -/
theorem gestureClosed_of_parseEnd
    (hParse : parseEvent event s = some (.parseEnd, t))
    (hAbs : event.type = evAbs) :
    t.GestureClosed := by
  rcases kind_of_parseEnd hParse with hKind | hKind
  swap
  · have hKey : event.type = evKey := by
      have hCode := event.code_of_kind
      simpa only [hKind] using hCode
    rw [hAbs] at hKey
    exact absurd hKey (by decide)
  have hLift := InputEvent.of_kind_lift hKind
  rcases ei_of_parseEnd_lift hKind hParse with
    ⟨_, id, hEntries⟩
  have hReset :
      t.eventIdMap = EventIdMap.clear ∧ t.slotFlag = 1 := by
    rw [parseEvent_eq] at hParse
    simp only [hKind, parseLift, Option.bind_eq_bind,
      Option.bind_eq_some_iff] at hParse
    rcases hParse with ⟨pair, _, m, _, hParse⟩
    split at hParse
    · cases hParse
      exact ⟨rfl, rfl⟩
    · cases hParse
  refine ⟨⟨s.ei.entries, event.time, id, event.time, -1, ?_⟩,
    ?_, ?_, ?_, hReset.2⟩
  · rw [hEntries, hLift.2.1, hLift.2.2]
    rfl
  · rw [hReset.1]
    exact fun _ => rfl
  · rw [hReset.1]
    rfl
  · rw [hReset.1]
    rfl

/- A call inside the table returns, and stays inside. -/
theorem exists_parseEvent_of_cursor
    (hCursor : s.CursorInRange)
    (hRange : event.SlotInRange) :
    ∃ ret t, parseEvent event s = some (ret, t) ∧
      t.CursorInRange := by
  have hInBounds : s.InBounds event := fun _ => hCursor
  rcases exists_parseEvent hInBounds with
    ⟨ret, t, hParse, _⟩
  rcases stepsExactly hCursor hRange with ⟨u, hStep, hNext, _⟩
  rw [recorder_step_of_parseEvent hParse] at hStep
  refine ⟨ret, t, hParse, ?_⟩
  rw [← Option.some.inj hStep, CursorInRange,
    eventIdMap_clearAtEnd] at hNext
  exact hNext

end Parser

end FzEvent

------------------------------------------------------------
-- Any Stream and Any Clearing
------------------------------------------------------------

namespace FzEvent

open Transition

/- The parser under a caller that may clear, or may not. -/
def freeRecorder : System Parser (InputEvent × Bool) where
  init := Parser.init
  step s l := do
    let (ret, t) ← Parser.parseEvent l.1 s
    return if l.2 then t.clearAtEnd ret else t

namespace Parser

/- What every call and every clearing keeps. -/
structure Shaped (s : Parser) : Prop where
  cursor : s.CursorInRange
  apart : s.ei.ReportsApart

theorem shaped_init : init.Shaped where
  cursor := by
    rw [CursorInRange]
    decide
  apart := EventInfo.reportsApart_of_nil rfl

theorem Shaped.clearAtEnd
    {s : Parser}
    (hShaped : s.Shaped)
    (ret : ParseInfo) :
    (s.clearAtEnd ret).Shaped := by
  rw [Parser.clearAtEnd]
  split
  · exact ⟨hShaped.cursor,
      EventInfo.reportsApart_of_nil rfl⟩
  · exact hShaped

theorem shaped_step
    {s : Parser}
    (hShaped : s.Shaped)
    {l : InputEvent × Bool}
    (hRange : l.1.SlotInRange) :
    ∃ t, freeRecorder.step s l = some t ∧ t.Shaped := by
  rcases exists_parseEvent_of_cursor hShaped.cursor hRange with
    ⟨ret, t, hParse, hCursor⟩
  have hNext : t.Shaped :=
    ⟨hCursor, reportsApart_parseEvent hShaped.apart hParse⟩
  refine ⟨if l.2 then t.clearAtEnd ret else t, ?_, ?_⟩
  · simp [freeRecorder, hParse]
  · split
    · exact hNext.clearAtEnd ret
    · exact hNext

end Parser

/-
  Every stream with slot numbers inside the table runs. In
  the state it reaches, and behind any next call, no report
  comes first and no two meet; and a next `EV_ABS` event that
  ends a gesture closes it.
-/
theorem entries_shape
    (stream : List (InputEvent × Bool))
    (hRange : ∀ l ∈ stream, l.1.SlotInRange) :
    ∃ s, freeRecorder.exec Parser.init stream = some s ∧
      s.ei.ReportsApart ∧
        ∀ event ret t,
          Parser.parseEvent event s = some (ret, t) →
            t.ei.ReportsApart ∧
              (ret = .parseEnd → event.type = evAbs →
                t.GestureClosed) := by
  rcases freeRecorder.exec_isSome_of_meets
    (fun s l hShaped hRange =>
      Parser.shaped_step hShaped hRange)
    Parser.shaped_init
    (freeRecorder.meets_of_forall Parser.init hRange) with
    ⟨s, hRun, hShaped⟩
  refine ⟨s, hRun, hShaped.apart, ?_⟩
  intro event ret t hParse
  refine ⟨Parser.reportsApart_parseEvent hShaped.apart hParse,
    ?_⟩
  intro hRet hAbs
  subst hRet
  exact Parser.gestureClosed_of_parseEnd hParse hAbs

/- Two keys of the code 0, a touch, and no clearing at all. -/
def keysAndTouch : List (InputEvent × Bool) :=
  [(⟨⟨0, 0⟩, evKey, 0, 1⟩, false),
    (⟨⟨0, 0⟩, evKey, 0, 0⟩, true),
    (InputEvent.abs absMtTrackingId 5, true),
    (InputEvent.report, true)]

theorem entries_shape_keysAndTouch :
    ∃ s, freeRecorder.exec Parser.init keysAndTouch = some s ∧
      s.ei.ReportsApart ∧
        ∀ event ret t,
          Parser.parseEvent event s = some (ret, t) →
            t.ei.ReportsApart ∧
              (ret = .parseEnd → event.type = evAbs →
                t.GestureClosed) :=
  entries_shape keysAndTouch (by decide)

end FzEvent

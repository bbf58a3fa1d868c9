import FzEvent.Receiver.CEvtRcv

/-
  What `OnEventCapture` leaves of a received event: the
  label of its report, and the events that
  `recognize_event` discards.

  A discarded event is written like any other: `write` gets
  three flags, none of them set, and prints TAP.

  Main declarations:
    * `FzEvent.IsNamed`
    * `CEvtRcv.onEventCapture_eq_some_iff`
    * `CEvtRcv.KeepsLabel`
    * `CEvtRcv.keepsLabel_iff_isNamed`
-/

------------------------------------------------------------
-- Labels
------------------------------------------------------------

namespace FzEvent

/- A touch event, or a key event with a single entry. -/
def IsNamed (e : DevicePacketEvent) : Prop :=
  e.type = evAbs ∨ (e.type = evKey ∧ e.count = 1)
deriving Decidable

/- The other events get the empty label. -/
theorem recognizeEvent_eq_unnamed_iff
    (e : DevicePacketEvent) :
    recognizeEvent e = .unnamed ↔ ¬ IsNamed e := by
  unfold recognizeEvent IsNamed
  by_cases hAbs : e.type = evAbs
  · simp only [hAbs, if_true, true_or, not_true_eq_false,
      iff_false]
    split
    · simp
    · split <;> simp
  · by_cases hKey : e.type = evKey
    · have hNe : ¬ evKey = evAbs := by decide
      by_cases hCount : e.count = 1 <;>
        simp [hKey, hCount, hNe]
    · simp [hAbs, hKey]

/- The three flags carry every label but the empty one. -/
theorem reportName_flags
    (label : EventName) :
    reportName (label = .key) (label = .multitouch)
        (label = .swipe) =
      if label = .unnamed then .tap else label := by
  cases label <;> rfl

end FzEvent

------------------------------------------------------------
-- One Packet
------------------------------------------------------------

namespace FzEvent

namespace CEvtRcv

/- The report that `write` makes of an event. -/
def reportOf
    (s : CEvtRcv)
    (tv : Timeval)
    (e : DevicePacketEvent) : Report where
  seq := s.sEventSequence
  time := tv
  eventname :=
    if recognizeEvent e = .unnamed then .tap
    else recognizeEvent e
  e := e

theorem reports_reportEvent
    (s : CEvtRcv)
    (tv : Timeval)
    (e : DevicePacketEvent) :
    (s.reportEvent tv e).reports =
      s.reports ++ [s.reportOf tv e] := by
  simp only [reportEvent, write, reportOf, reportName_flags]

/-
  A decoded packet is reported and appended to the open file,
  whatever its label is. Nothing else can come of it.
-/
theorem onEventCapture_eq_some_iff
    {s t : CEvtRcv}
    {pBuffer : List UInt8}
    {e : DevicePacketEvent}
    {len : UInt32}
    (hParse : parseEvtPacket pBuffer = some (e, len))
    (tv : Timeval) :
    s.onEventCapture pBuffer len tv = some (t, e) ↔
      ∃ file, s.sFpEvt = some file ∧
        t = { s.reportEvent tv e with
          sFpEvt := some (file ++ encodeGroup e) } := by
  cases hFile : s.sFpEvt with
  | none =>
      have hClosed : (s.reportEvent tv e).sFpEvt = none := by
        rw [sFpEvt_reportEvent, hFile]
      simp only [onEventCapture, hParse, guard, writeEventFile,
        hClosed, Option.bind_eq_bind, Option.bind_some, if_true,
        Option.pure_def, Option.bind_none]
      simp
  | some file =>
      rw [onEventCapture_of_open hFile hParse]
      simp [eq_comm]

/-
  A discarded event leaves the receiver as it was; the report
  of any other event carries its label. The latter is handled
  whenever the event file is open.
-/
structure KeepsLabel
    (s : CEvtRcv)
    (pBuffer : List UInt8)
    (len : UInt32)
    (tv : Timeval)
    (e : DevicePacketEvent) : Prop where
  discarded :
    recognizeEvent e = .unnamed →
      s.onEventCapture pBuffer len tv = some (s, e)
  handled :
    recognizeEvent e ≠ .unnamed → s.sFpEvt ≠ none →
      ∃ t, s.onEventCapture pBuffer len tv = some (t, e)
  labelled :
    ∀ t, recognizeEvent e ≠ .unnamed →
      s.onEventCapture pBuffer len tv = some (t, e) →
        ∃ report, t.reports = s.reports ++ [report] ∧
          report.eventname = recognizeEvent e

/- No packet that is handled leaves the receiver as it was. -/
theorem onEventCapture_ne_self
    {s : CEvtRcv}
    {pBuffer : List UInt8}
    {e : DevicePacketEvent}
    {len : UInt32}
    (hParse : parseEvtPacket pBuffer = some (e, len))
    (tv : Timeval) :
    s.onEventCapture pBuffer len tv ≠ some (s, e) := by
  intro hHandled
  rcases (onEventCapture_eq_some_iff hParse tv).mp hHandled with
    ⟨file, _, hSame⟩
  have hReports := congrArg CEvtRcv.reports hSame
  dsimp only at hReports
  have hLength := congrArg List.length hReports
  rw [reports_reportEvent, List.length_append,
    List.length_singleton] at hLength
  omega

/-
  Of the packets that decode to their length, exactly those
  of a touch event and of a single key event are handled as
  their label says.
-/
theorem keepsLabel_iff_isNamed
    {pBuffer : List UInt8}
    {e : DevicePacketEvent}
    {len : UInt32}
    (hParse : parseEvtPacket pBuffer = some (e, len))
    (s : CEvtRcv)
    (tv : Timeval) :
    s.KeepsLabel pBuffer len tv e ↔ IsNamed e := by
  have hUnnamed := recognizeEvent_eq_unnamed_iff e
  constructor
  · intro hKeeps
    by_contra hNot
    have hSame := hKeeps.discarded (hUnnamed.mpr hNot)
    exact onEventCapture_ne_self hParse tv hSame
  · intro hNamed
    have hLabel : recognizeEvent e ≠ .unnamed :=
      fun hEmpty => hUnnamed.mp hEmpty hNamed
    constructor
    · intro hEmpty
      exact absurd hEmpty hLabel
    · intro _ hOpen
      rcases Option.ne_none_iff_exists'.mp hOpen with
        ⟨file, hFile⟩
      exact ⟨_, (onEventCapture_eq_some_iff hParse tv).mpr
        ⟨file, hFile, rfl⟩⟩
    · intro t _ hHandled
      rcases (onEventCapture_eq_some_iff hParse tv).mp
        hHandled with ⟨file, _, rfl⟩
      refine ⟨s.reportOf tv e, reports_reportEvent s tv e, ?_⟩
      exact if_neg hLabel

/- The body of a packet with one press of the key 116. -/
def keyBody : List UInt8 :=
  [1, 0, 1, 0, 0, 0, 0, 0, 0, 0,
    1, 0, 0, 0, 0, 0, 0, 0, 255, 255, 255, 255, 116, 0,
    1, 0, 0, 0]

theorem keepsLabel_iff_isNamed_keyBody :
    CEvtRcv.init.KeepsLabel keyBody 28 ⟨1, 0⟩
        ⟨evKey, 0, [⟨⟨1, 0⟩, -1, 116, 1⟩]⟩ ↔
      IsNamed ⟨evKey, 0, [⟨⟨1, 0⟩, -1, 116, 1⟩]⟩ :=
  keepsLabel_iff_isNamed (by decide +kernel) _ _

/-
  A key packet of two entries, as a touch button in front of
  a key makes it. Its label is empty, and still it is reported
  as a TAP and appended to the file.
-/
theorem not_keepsLabel_twoKeys :
    ¬ ∃ s : CEvtRcv,
      s.KeepsLabel
        [1, 0, 2, 0, 0, 0, 0, 0, 0, 0,
          1, 0, 0, 0, 0, 0, 0, 0, 255, 255, 255, 255, 74, 1,
          1, 0, 0, 0,
          2, 0, 0, 0, 0, 0, 0, 0, 255, 255, 255, 255, 116, 0,
          1, 0, 0, 0]
        46 ⟨1, 0⟩
        ⟨evKey, 0,
          [⟨⟨1, 0⟩, -1, btnTouch, 1⟩, ⟨⟨2, 0⟩, -1, 116, 1⟩]⟩ := by
  rintro ⟨s, hKeeps⟩
  have hParse :
      parseEvtPacket
          [1, 0, 2, 0, 0, 0, 0, 0, 0, 0,
            1, 0, 0, 0, 0, 0, 0, 0, 255, 255, 255, 255, 74, 1,
            1, 0, 0, 0,
            2, 0, 0, 0, 0, 0, 0, 0, 255, 255, 255, 255, 116, 0,
            1, 0, 0, 0] =
        some
          (⟨evKey, 0,
            [⟨⟨1, 0⟩, -1, btnTouch, 1⟩,
              ⟨⟨2, 0⟩, -1, 116, 1⟩]⟩, 46) := by
    decide +kernel
  have hEmpty :
      recognizeEvent
          ⟨evKey, 0,
            [⟨⟨1, 0⟩, -1, btnTouch, 1⟩,
              ⟨⟨2, 0⟩, -1, 116, 1⟩]⟩ = .unnamed := by
    decide
  apply onEventCapture_ne_self hParse ⟨1, 0⟩
  exact hKeeps.discarded hEmpty

end CEvtRcv

end FzEvent

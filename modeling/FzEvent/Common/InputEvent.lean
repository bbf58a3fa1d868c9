import FzEvent.Lib.ByteCodec

/-
  The data that all programs share: machine words, `timeval`,
  `input_event` and the event codes of `linux/input.h`.

  Both sides are 32-bit and little-endian, so a `long` is a
  32-bit word and a `timeval` takes eight bytes.

  Main declarations:
    * `FzEvent.u16`, `u32`, `s32` and `timeval`
    * `FzEvent.Timeval` and `FzEvent.InputEvent`
    * `FzEvent.EventKind` and `InputEvent.kind`
-/

------------------------------------------------------------
-- Words on the Wire
------------------------------------------------------------

namespace FzEvent

open ByteCodec

/- `_u16` as two bytes. -/
def u16 : Codec UInt16 :=
  Codec.word 2 UInt16.toNat UInt16.ofNat
    (fun a => a.toNat_lt)
    (fun a => by simp)
    (fun v hLt => by simpa using hLt)

/- `_u32` as four bytes. -/
def u32 : Codec UInt32 :=
  Codec.word 4 UInt32.toNat UInt32.ofNat
    (fun a => a.toNat_lt)
    (fun a => by simp)
    (fun v hLt => by simpa using hLt)

/- `_s32`, and the 32-bit `long`, as four bytes. -/
def s32 : Codec Int32 :=
  u32.map UInt32.toInt32 Int32.toUInt32
    (fun b => by simp) (fun a => by simp)

/- The slot tables have 32 elements, so 0 is an index. -/
instance neZeroSlots : NeZero 32 where
  out := by decide

@[simp] theorem u16_width : u16.width = 2 := rfl

@[simp] theorem u32_width : u32.width = 4 := rfl

@[simp] theorem s32_width : s32.width = 4 := rfl

end FzEvent

------------------------------------------------------------
-- Time Values and Input Events
------------------------------------------------------------

namespace FzEvent

open ByteCodec

/- `struct timeval` with 32-bit fields. -/
structure Timeval where
  tvSec : Int32
  tvUsec : Int32
deriving DecidableEq, Repr

/- `struct timeval` as it lies in memory. -/
def timeval : Codec Timeval :=
  (s32.prod s32).map
    (fun p => ⟨p.1, p.2⟩) (fun tv => (tv.tvSec, tv.tvUsec))
    (fun _ => rfl) (fun _ => rfl)

@[simp] theorem timeval_width : timeval.width = 8 := rfl

/- `struct input_event` of `linux/input.h`. -/
structure InputEvent where
  time : Timeval
  type : UInt16
  code : UInt16
  value : Int32
deriving DecidableEq, Repr

end FzEvent

------------------------------------------------------------
-- Event Codes
------------------------------------------------------------

namespace FzEvent

def evSyn : UInt16 := 0x00

def evKey : UInt16 := 0x01

def evAbs : UInt16 := 0x03

def synReport : UInt16 := 0

def absMtSlot : UInt16 := 0x2f

def absMtPositionX : UInt16 := 0x35

def absMtPositionY : UInt16 := 0x36

def absMtTrackingId : UInt16 := 0x39

def keySlash : UInt16 := 53

def btnToolFinger : UInt16 := 0x145

def btnTouch : UInt16 := 0x14a

end FzEvent

------------------------------------------------------------
-- Kinds of Input Events
------------------------------------------------------------

namespace FzEvent

/-
  What an input event says in the multitouch-slot protocol:
  a report, a contact going down or lifting in the current
  slot, a slot change, or a coordinate.
-/
inductive EventKind
| report
| touch
| lift
| slot
| positionX
| positionY
| key
| other
deriving DecidableEq, Repr

namespace InputEvent

/- An `EV_ABS` event at time 0. -/
def abs
    (code : UInt16)
    (value : Int32) : InputEvent :=
  ⟨⟨0, 0⟩, evAbs, code, value⟩

/- A `SYN_REPORT` at time 0, as the kernel sends it. -/
def report : InputEvent :=
  ⟨⟨0, 0⟩, evSyn, synReport, 0⟩

/- The kind of an event, read off its type, code and value. -/
def kind (event : InputEvent) : EventKind :=
  if event.type = evSyn then
    if event.code = synReport then .report else .other
  else if event.type = evAbs then
    if event.code = absMtTrackingId then
      if event.value = -1 then .lift else .touch
    else if event.code = absMtSlot then
      .slot
    else if event.code = absMtPositionX then
      .positionX
    else if event.code = absMtPositionY then
      .positionY
    else
      .other
  else if event.type = evKey then
    .key
  else
    .other

theorem of_kind_report
    {event : InputEvent}
    (hKind : event.kind = .report) :
    event.type = evSyn ∧ event.code = synReport := by
  unfold kind at hKind
  split_ifs at hKind with hSyn hReport
  exact ⟨hSyn, hReport⟩

theorem of_kind_lift
    {event : InputEvent}
    (hKind : event.kind = .lift) :
    event.type = evAbs ∧ event.code = absMtTrackingId ∧
      event.value = -1 := by
  unfold kind at hKind
  split_ifs at hKind with hSyn hReport hAbs hId hLift
  exact ⟨hAbs, hId, hLift⟩

theorem code_of_kind_slot
    {event : InputEvent}
    (hKind : event.kind = .slot) :
    event.code = absMtSlot := by
  unfold kind at hKind
  split_ifs at hKind with hSyn hReport hAbs hId hLift hSlot
  exact hSlot

/- The code of an event that is no key, by its kind. -/
theorem code_of_kind
    (event : InputEvent) :
    match event.kind with
    | .report => event.code = synReport
    | .touch => event.code = absMtTrackingId
    | .lift => event.code = absMtTrackingId
    | .slot => event.code = absMtSlot
    | .positionX => event.code = absMtPositionX
    | .positionY => event.code = absMtPositionY
    | .key => event.type = evKey
    | .other => True := by
  unfold kind
  split_ifs <;> first | assumption | trivial

/- The code of a slot change has no second meaning. -/
theorem kind_of_code_slot
    {event : InputEvent}
    (hCode : event.code = absMtSlot) :
    event.kind = .slot ∨ event.kind = .key ∨
      event.kind = .other := by
  have hReport : ¬ absMtSlot = synReport := by decide
  have hId : ¬ absMtSlot = absMtTrackingId := by decide
  simp only [kind, hCode, if_neg hReport, if_neg hId, if_true]
  split_ifs
  · exact Or.inr (Or.inr rfl)
  · exact Or.inl rfl
  · exact Or.inr (Or.inl rfl)
  · exact Or.inr (Or.inr rfl)

theorem value_ne_of_kind_touch
    {event : InputEvent}
    (hKind : event.kind = .touch) :
    event.value ≠ -1 := by
  unfold kind at hKind
  split_ifs at hKind with hSyn hReport hAbs hId hLift
  exact hLift

/- As an unsigned word the id of a contact is not -1 either. -/
theorem toUInt32_value_ne_of_kind_touch
    {event : InputEvent}
    (hKind : event.kind = .touch) :
    event.value.toUInt32 ≠ 0xffffffff := by
  intro hValue
  apply value_ne_of_kind_touch hKind
  rw [← Int32.toInt32_toUInt32 event.value, hValue]
  rfl

/- An event about a contact is an `EV_ABS` event. -/
theorem abs_of_kind
    {event : InputEvent}
    {kind : EventKind}
    (hKind : event.kind = kind)
    (hContact :
      kind ≠ .report ∧ kind ≠ .key ∧ kind ≠ .other) :
    event.type = evAbs ∧ event.code ≠ synReport := by
  rcases hContact with ⟨hReport, hKey, hOther⟩
  rw [← hKind] at hReport hKey hOther
  by_cases hAbs : event.type = evAbs
  · refine ⟨hAbs, ?_⟩
    intro hCode
    apply hOther
    unfold InputEvent.kind
    rw [hAbs, hCode, if_neg (by decide), if_pos rfl,
      if_neg (by decide), if_neg (by decide),
      if_neg (by decide), if_neg (by decide)]
  · exfalso
    unfold InputEvent.kind at hReport hKey hOther
    split_ifs at hReport hKey hOther <;> simp_all

end InputEvent

end FzEvent

import FzEvent.Common.InputEvent

/-
  The recorder's gesture buffer `event_getter::event_info`.

  The four parallel arrays `tv`, `id`, `code` and `value` grow
  and are freed together, so they are one list of entries.

  Main declarations:
    * `FzEvent.Entry` and `FzEvent.EventInfo`
    * `EventInfo.add`, `setType`, `setDevId` and `clear`
    * `EventInfo.exists_entries_add`
-/

------------------------------------------------------------
-- Entries
------------------------------------------------------------

namespace FzEvent

/- One recorded entry: `tv[i]`, `id[i]`, `code[i]`, `value[i]`. -/
structure Entry where
  tv : Timeval
  id : Int32
  code : UInt16
  value : UInt32
deriving DecidableEq, Repr

/- The entry of an event, with an id. -/
def InputEvent.entry
    (event : InputEvent)
    (id : Int32) : Entry :=
  ⟨event.time, id, event.code, event.value.toUInt32⟩

/- `event_getter::event_info`. -/
structure EventInfo where
  eventType : UInt16
  devId : Int32
  entries : List Entry
deriving DecidableEq, Repr

end FzEvent

------------------------------------------------------------
-- Operations
------------------------------------------------------------

namespace FzEvent

namespace EventInfo

/- The static object `ei` as the program starts it. -/
def init : EventInfo where
  eventType := 0
  devId := 0
  entries := []

/- `count`, kept in step with the arrays by `add` and `clear`. -/
def count (ei : EventInfo) : Nat :=
  ei.entries.length

/- `set_type` -/
def setType
    (ei : EventInfo)
    (eventType : UInt16) : EventInfo :=
  { ei with eventType := eventType }

/- `set_dev_id` -/
def setDevId
    (ei : EventInfo)
    (devId : Int32) : EventInfo :=
  { ei with devId := devId }

/- The last recorded code is a `SYN_REPORT`: `code[count-1]`. -/
def endsWithReport (ei : EventInfo) : Bool :=
  match ei.entries.getLast? with
  | none => false
  | some entry => entry.code == synReport

/-
  `add`: append one entry. A `SYN_REPORT` is skipped when the
  buffer is empty or already ends with one.
-/
def add
    (ei : EventInfo)
    (tv : Timeval)
    (id : Int32)
    (code : UInt16)
    (value : UInt32) : EventInfo :=
  if code = synReport ∧
      (ei.count = 0 ∨ ei.endsWithReport = true) then
    ei
  else
    { ei with
      entries := ei.entries ++ [⟨tv, id, code, value⟩] }

/- `clear`: the type and the device id are kept. -/
def clear (ei : EventInfo) : EventInfo :=
  { ei with entries := [] }

@[simp] theorem entries_clear
    (ei : EventInfo) :
    ei.clear.entries = [] := rfl

@[simp] theorem count_clear
    (ei : EventInfo) :
    ei.clear.count = 0 := rfl

@[simp] theorem eventType_add
    (ei : EventInfo)
    (tv : Timeval)
    (id : Int32)
    (code : UInt16)
    (value : UInt32) :
    (ei.add tv id code value).eventType = ei.eventType := by
  unfold add
  split <;> rfl

/- Every code other than `SYN_REPORT` is appended. -/
theorem entries_add_of_ne
    (ei : EventInfo)
    (tv : Timeval)
    (id : Int32)
    {code : UInt16}
    (value : UInt32)
    (hCode : code ≠ synReport) :
    (ei.add tv id code value).entries =
      ei.entries ++ [⟨tv, id, code, value⟩] := by
  simp [add, hCode]

/- How many entries `add` appends for a code. -/
def roomFor
    (ei : EventInfo)
    (code : UInt16) : Nat :=
  if code = synReport ∧
      (ei.count = 0 ∨ ei.endsWithReport = true) then
    0
  else
    1

theorem count_add
    (ei : EventInfo)
    (tv : Timeval)
    (id : Int32)
    (code : UInt16)
    (value : UInt32) :
    (ei.add tv id code value).count =
      ei.count + ei.roomFor code := by
  unfold add roomFor
  split
  · rfl
  · rw [count, List.length_append, count]
    rfl

theorem roomFor_le
    (ei : EventInfo)
    (code : UInt16) :
    ei.roomFor code ≤ 1 := by
  unfold roomFor
  split <;> omega

theorem count_add_of_ne
    (ei : EventInfo)
    (tv : Timeval)
    (id : Int32)
    {code : UInt16}
    (value : UInt32)
    (hCode : code ≠ synReport) :
    (ei.add tv id code value).count = ei.count + 1 := by
  rw [count, entries_add_of_ne ei tv id value hCode,
    List.length_append, count]
  rfl

/- A report is kept behind an entry that is none. -/
theorem count_add_report
    {ei : EventInfo}
    (hNonempty : ei.count ≠ 0)
    (hLast : ei.endsWithReport = false)
    (tv : Timeval)
    (id : Int32)
    (value : UInt32) :
    (ei.add tv id synReport value).count = ei.count + 1 := by
  have hKept :
      ¬ (synReport = synReport ∧
        (ei.count = 0 ∨ ei.endsWithReport = true)) := by
    simp only [true_and, hLast, Bool.false_eq_true, or_false]
    exact hNonempty
  rw [add, if_neg hKept, count, List.length_append, count]
  rfl

/- The buffer ends with the code that was added last. -/
theorem endsWithReport_add_of_ne
    (ei : EventInfo)
    (tv : Timeval)
    (id : Int32)
    {code : UInt16}
    (value : UInt32)
    (hCode : code ≠ synReport) :
    (ei.add tv id code value).endsWithReport = false := by
  rw [endsWithReport, entries_add_of_ne ei tv id value hCode,
    List.getLast?_concat]
  simpa using hCode

/- A report is appended behind an entry that is none. -/
theorem entries_add_report
    {ei : EventInfo}
    (hNonempty : ei.count ≠ 0)
    (hLast : ei.endsWithReport = false)
    (tv : Timeval)
    (id : Int32)
    (value : UInt32) :
    (ei.add tv id synReport value).entries =
      ei.entries ++ [⟨tv, id, synReport, value⟩] := by
  simp [add, hNonempty, hLast]

/- An entry that is no report, and a report behind it. -/
theorem entries_add_add_report
    (ei : EventInfo)
    (tv tv' : Timeval)
    (id id' : Int32)
    {code : UInt16}
    (value value' : UInt32)
    (hCode : code ≠ synReport) :
    ((ei.add tv id code value).add tv' id' synReport
        value').entries =
      ei.entries ++
        [⟨tv, id, code, value⟩,
          ⟨tv', id', synReport, value'⟩] := by
  have hCount := ei.count_add_of_ne tv id value hCode
  have hLast := ei.endsWithReport_add_of_ne tv id value hCode
  rw [entries_add_report (by omega) hLast,
    entries_add_of_ne ei tv id value hCode,
    List.append_assoc]
  rfl

@[simp] theorem devId_add
    (ei : EventInfo)
    (tv : Timeval)
    (id : Int32)
    (code : UInt16)
    (value : UInt32) :
    (ei.add tv id code value).devId = ei.devId := by
  unfold add
  split <;> rfl

/- `add` appends at most one entry, with its arguments. -/
theorem exists_entries_add
    (ei : EventInfo)
    (tv : Timeval)
    (id : Int32)
    (code : UInt16)
    (value : UInt32) :
    ∃ added : List Entry,
      (ei.add tv id code value).entries =
          ei.entries ++ added ∧
        added.length ≤ 1 ∧
          ∀ entry ∈ added,
            entry.tv = tv ∧ entry.code = code := by
  unfold add
  split
  · exact ⟨[], by simp, by simp, by simp⟩
  · exact ⟨[⟨tv, id, code, value⟩], rfl, by simp, by simp⟩

/- `add` never shortens the buffer. -/
theorem count_le_count_add
    (ei : EventInfo)
    (tv : Timeval)
    (id : Int32)
    (code : UInt16)
    (value : UInt32) :
    ei.count ≤ (ei.add tv id code value).count := by
  rcases ei.exists_entries_add tv id code value with
    ⟨added, hEntries, -⟩
  rw [count, count, hEntries, List.length_append]
  exact Nat.le_add_right _ _

/- Only a report leaves an empty buffer empty. -/
theorem count_add_ne_zero
    {ei : EventInfo}
    {code : UInt16}
    (hReport : code = synReport → ei.count ≠ 0)
    (tv : Timeval)
    (id : Int32)
    (value : UInt32) :
    (ei.add tv id code value).count ≠ 0 := by
  by_cases hCode : code = synReport
  · have hLe := ei.count_le_count_add tv id code value
    have hNonempty := hReport hCode
    omega
  · rw [ei.count_add_of_ne tv id value hCode]
    exact Nat.succ_ne_zero _

end EventInfo

end FzEvent

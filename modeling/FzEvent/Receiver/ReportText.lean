import FzEvent.Lib.Decimal
import FzEvent.Player.ReplayTiming
import FzEvent.Receiver.CEvtRcv
import FzEvent.Receiver.Labels

/-
  The text that `write` prints of a report, and what can be
  read from it.

  The columns of the file are joined by a comma and a blank.
  The time is printed as seconds and three digits of
  milliseconds, without a point between them. The label of a
  code is kept from the entry before when the type of the
  event has no table.

  Main declarations:
    * `Report.text`
    * `FzEvent.Shown` and `Report.shown`
    * `FzEvent.text_eq_iff_shown_eq`
    * `FzEvent.entries_of_text_eq`
-/

------------------------------------------------------------
-- Cells
------------------------------------------------------------

namespace FzEvent

/- `%ld%03ld`: the seconds and the milliseconds. -/
def timeText (tv : Timeval) : List Char :=
  Decimal.format tv.tvSec.toInt ++
    Decimal.formatPadded 3 (tv.tvUsec.toInt.tdiv 1000)

/- The word of the line `eventname`. -/
def EventName.text : EventName → List Char
| .key => Text.ascii "KEY"
| .multitouch => Text.ascii "MULTITOUCH"
| .swipe => Text.ascii "SWIPE"
| .tap => Text.ascii "TAP"
| .unnamed => Text.ascii ""

/-
  `code_label` behind the `switch`, from the label of the
  entry before.
-/
def codeLabel
    (type : UInt16)
    (last : List Char)
    (code : UInt16) : List Char :=
  if code = 0 then getLabel synLabels code.toNat
  else if type = evAbs then getLabel absLabels code.toNat
  else if type = evKey then getLabel keyLabels code.toNat
  else last

/- The loop over the codes. -/
def codeCells
    (type : UInt16) :
    List Char → List Entry → List (List Char)
| _, [] => []
| last, entry :: entries =>
    codeLabel type last entry.code ::
      codeCells type (codeLabel type last entry.code) entries

/- `value_label`, likewise. -/
def valueLabel
    (type : UInt16)
    (last : List Char)
    (value : UInt32) : List Char :=
  if type = evAbs then []
  else if type = evKey then
    getLabel keyValueLabels value.toInt32.toInt
  else last

/- The label of a value, or the value with `%d`. -/
def valueText
    (label : List Char)
    (value : UInt32) : List Char :=
  if label = [] then Decimal.format value.toInt32.toInt
  else label

/- The loop over the values. -/
def valueCells
    (type : UInt16) :
    List Char → List Entry → List (List Char)
| _, [] => []
| last, entry :: entries =>
    valueText (valueLabel type last entry.value)
        entry.value ::
      valueCells type (valueLabel type last entry.value)
        entries

/- The cells with `, ` between them. -/
def columns (cells : List (List Char)) : List Char :=
  [',', ' '].intercalate cells

end FzEvent

------------------------------------------------------------
-- The File
------------------------------------------------------------

namespace FzEvent

namespace Report

/- The lines of the file, under `write_buffer_format`. -/
def lines (r : Report) : List (List Char) := [
  Text.ascii "seq: " ++ Decimal.format r.seq.toInt32.toInt,
  Text.ascii "time: " ++ timeText r.time,
  Text.ascii "eventname : " ++ r.eventname.text,
  Text.ascii "eventcount : " ++
    Decimal.format (UInt32.ofNat r.e.count).toInt32.toInt,
  Text.ascii "eventtime : " ++
    columns (r.e.entries.map fun entry => timeText entry.tv),
  Text.ascii "eventid : " ++
    columns (r.e.entries.map fun entry =>
      Decimal.format entry.id.toInt),
  Text.ascii "eventnamebyid : " ++
    columns (codeCells r.e.type [] r.e.entries),
  Text.ascii "eventvaluebyid : " ++
    columns (valueCells r.e.type [] r.e.entries)]

/- All that `write` prints. -/
def text (r : Report) : List Char :=
  Text.lines '\n' r.lines

/- The power key, pressed and reported 2 ms later. -/
def powerKey : Report :=
  ⟨7, ⟨12, 5000⟩, .key,
    ⟨evKey, 0, [⟨⟨12, 3000⟩, -1, 116, 1⟩]⟩⟩

example :
    powerKey.lines =
      ["seq: 7", "time: 12005", "eventname : KEY",
        "eventcount : 1", "eventtime : 12003",
        "eventid : -1", "eventnamebyid : KEY_POWER",
        "eventvaluebyid : DOWN"].map Text.ascii := by
  decide +kernel

end Report

end FzEvent

------------------------------------------------------------
-- What Is Shown
------------------------------------------------------------

namespace FzEvent

/- The time in milliseconds, rounded down. -/
def Timeval.millis (tv : Timeval) : Int :=
  tv.micros / 1000

/- What the columns show of an entry. -/
structure ShownEntry where
  millis : Int
  id : Int32
  codeLabel : List Char
  valueLabel : List Char
  value : UInt32
deriving DecidableEq, Repr

/- The entries, behind a code label that is kept. -/
def shownEntries
    (type : UInt16) :
    List Char → List Entry → List ShownEntry
| _, [] => []
| last, entry :: entries =>
    { millis := entry.tv.millis
      id := entry.id
      codeLabel := codeLabel type last entry.code
      valueLabel := valueLabel type [] entry.value
      value := entry.value } ::
      shownEntries type (codeLabel type last entry.code)
        entries

/- What the file shows of a report. -/
structure Shown where
  seq : UInt32
  millis : Int
  eventname : EventName
  entries : List ShownEntry
deriving DecidableEq, Repr

namespace Report

def shown (r : Report) : Shown where
  seq := r.seq
  millis := r.time.millis
  eventname := r.eventname
  entries := shownEntries r.e.type [] r.e.entries

/- The header and all entries have times. -/
structure HasNormalTimes (r : Report) : Prop where
  header : r.time.IsNormal
  entries : ∀ entry ∈ r.e.entries, entry.tv.IsNormal

end Report

end FzEvent

------------------------------------------------------------
-- The Shown as Text
------------------------------------------------------------

namespace FzEvent

def millisText (millis : Int) : List Char :=
  Decimal.format (millis / 1000) ++
    Decimal.formatPadded 3 (millis % 1000)

namespace Shown

/- The lines, from what they show. -/
def lines (s : Shown) : List (List Char) := [
  Text.ascii "seq: " ++ Decimal.format s.seq.toInt32.toInt,
  Text.ascii "time: " ++ millisText s.millis,
  Text.ascii "eventname : " ++ s.eventname.text,
  Text.ascii "eventcount : " ++
    Decimal.format
      (UInt32.ofNat s.entries.length).toInt32.toInt,
  Text.ascii "eventtime : " ++
    columns (s.entries.map fun x => millisText x.millis),
  Text.ascii "eventid : " ++
    columns (s.entries.map fun x =>
      Decimal.format x.id.toInt),
  Text.ascii "eventnamebyid : " ++
    columns (s.entries.map fun x => x.codeLabel),
  Text.ascii "eventvaluebyid : " ++
    columns (s.entries.map fun x =>
      valueText x.valueLabel x.value)]

def text (s : Shown) : List Char :=
  Text.lines '\n' s.lines

end Shown

/- Other times can look alike: here both are 11000. -/
example : timeText ⟨1, 1000000⟩ = timeText ⟨11, 0⟩ := by
  decide +kernel

/- Of a normal time the milliseconds are printed. -/
theorem timeText_eq_millisText
    {tv : Timeval}
    (hNormal : tv.IsNormal) :
    timeText tv = millisText tv.millis := by
  have hUsec := hNormal.usec_nonneg
  have hLt := hNormal.usec_lt
  have hSec : tv.millis / 1000 = tv.tvSec.toInt := by
    unfold Timeval.millis Timeval.micros
    omega
  have hMillis :
      tv.millis % 1000 = tv.tvUsec.toInt.tdiv 1000 := by
    rw [Int.tdiv_eq_ediv_of_nonneg hUsec]
    unfold Timeval.millis Timeval.micros
    omega
  rw [timeText, millisText, hSec, hMillis]

theorem length_shownEntries
    (type : UInt16)
    (last : List Char)
    (entries : List Entry) :
    (shownEntries type last entries).length =
      entries.length := by
  induction entries generalizing last with
  | nil => rfl
  | cons entry entries ih =>
      rw [shownEntries, List.length_cons, ih,
        List.length_cons]

/- The columns of times and ids do not depend on the labels. -/
theorem map_shownEntries
    {α : Type}
    (f : Entry → α)
    (g : ShownEntry → α)
    {entries : List Entry}
    (hSame :
      ∀ entry ∈ entries, ∀ code value,
        f entry =
          g ⟨entry.tv.millis, entry.id, code, value,
            entry.value⟩)
    (type : UInt16)
    (last : List Char) :
    entries.map f = (shownEntries type last entries).map g := by
  induction entries generalizing last with
  | nil => rfl
  | cons entry entries ih =>
      have hTail :=
        ih (List.forall_mem_of_forall_mem_cons hSame)
          (codeLabel type last entry.code)
      rw [shownEntries, List.map_cons, List.map_cons, hTail,
        hSame entry List.mem_cons_self]

theorem codeCells_eq_map
    (type : UInt16)
    (last : List Char)
    (entries : List Entry) :
    codeCells type last entries =
      (shownEntries type last entries).map
        fun x => x.codeLabel := by
  induction entries generalizing last with
  | nil => rfl
  | cons entry entries ih =>
      rw [codeCells, shownEntries, List.map_cons, ih]

/-
  A type with a table looks each value up. The label of any
  other type is empty from the start, and is kept.
-/
theorem valueLabel_valueLabel
    (type : UInt16)
    (value next : UInt32) :
    valueLabel type (valueLabel type [] value) next =
      valueLabel type [] next := by
  unfold valueLabel
  split_ifs <;> rfl

theorem valueCells_eq_map
    {type : UInt16}
    {lastValue : List Char}
    (hLast :
      ∀ value, valueLabel type lastValue value =
        valueLabel type [] value)
    (last : List Char)
    (entries : List Entry) :
    valueCells type lastValue entries =
      (shownEntries type last entries).map
        fun x => valueText x.valueLabel x.value := by
  induction entries generalizing lastValue last with
  | nil => rfl
  | cons entry entries ih =>
      rw [valueCells, shownEntries, List.map_cons, hLast,
        ih (valueLabel_valueLabel type entry.value)]

/- With normal times a file has what it shows, no more. -/
theorem text_eq_text_shown
    {r : Report}
    (hTimes : r.HasNormalTimes) :
    r.text = r.shown.text := by
  have hTime :
      (r.e.entries.map fun entry => timeText entry.tv) =
        r.shown.entries.map fun x => millisText x.millis :=
    map_shownEntries _ _
      (fun entry hMem _ _ =>
        timeText_eq_millisText (hTimes.entries entry hMem)) _ _
  have hId :
      (r.e.entries.map fun entry =>
          Decimal.format entry.id.toInt) =
        r.shown.entries.map fun x =>
          Decimal.format x.id.toInt :=
    map_shownEntries _ _ (fun _ _ _ _ => rfl) _ _
  have hCode :
      codeCells r.e.type [] r.e.entries =
        r.shown.entries.map fun x => x.codeLabel :=
    codeCells_eq_map _ _ _
  have hValue :
      valueCells r.e.type [] r.e.entries =
        r.shown.entries.map fun x =>
          valueText x.valueLabel x.value :=
    valueCells_eq_map (fun _ => rfl) _ _
  have hCount : r.shown.entries.length = r.e.count :=
    length_shownEntries _ _ _
  rw [Report.text, Shown.text, Report.lines, Shown.lines,
    timeText_eq_millisText hTimes.header, hTime, hId, hCode,
    hValue, hCount]
  rfl

end FzEvent

------------------------------------------------------------
-- Reading the Cells
------------------------------------------------------------

namespace FzEvent

theorem isPlain_append
    {s s' : List Char}
    (hPlain : IsPlain s)
    (hPlain' : IsPlain s') :
    IsPlain (s ++ s') :=
  ⟨List.not_mem_append hPlain.1 hPlain'.1,
    List.not_mem_append hPlain.2 hPlain'.2⟩

/- A numeral is signs and digits. -/
theorem isPlain_of_numeral
    {s : List Char}
    (hNumeral : ∀ c ∈ s, c = '-' ∨ c.isDigit = true) :
    IsPlain s := by
  constructor
  · intro hComma
    exact absurd (hNumeral _ hComma) (by decide)
  · intro hNewline
    exact absurd (hNumeral _ hNewline) (by decide)

theorem isPlain_format
    (a : Int) :
    IsPlain (Decimal.format a) :=
  isPlain_of_numeral fun _ => Decimal.mem_format

theorem isPlain_millisText
    (millis : Int) :
    IsPlain (millisText millis) :=
  isPlain_append (isPlain_format _)
    (isPlain_of_numeral fun _ => Decimal.mem_formatPadded)

theorem millisText_ne_nil
    (millis : Int) :
    millisText millis ≠ [] := by
  intro hNil
  exact Decimal.format_ne_nil _ (List.append_eq_nil_iff.mp hNil).1

/- The last three digits are the milliseconds. -/
theorem length_formatPadded_millis
    (millis : Int) :
    (Decimal.formatPadded 3 (millis % 1000)).length = 3 := by
  have hNat : millis % 1000 = ((millis % 1000).toNat : Int) := by
    omega
  rw [hNat]
  exact Decimal.length_formatPadded (by decide) (by omega)

theorem millisText_injective :
    Function.Injective millisText := by
  intro millis millis' hSame
  have hLength :
      (Decimal.formatPadded 3 (millis % 1000)).length =
        (Decimal.formatPadded 3 (millis' % 1000)).length := by
    rw [length_formatPadded_millis, length_formatPadded_millis]
  rcases List.append_inj' hSame hLength with ⟨hSec, hMillis⟩
  have hDiv := Decimal.format_injective hSec
  have hMod := Decimal.formatPadded_injective 3 hMillis
  omega

theorem isPlain_eventName
    (name : EventName) :
    IsPlain name.text := by
  cases name <;> exact ⟨by decide +kernel, by decide +kernel⟩

theorem EventName.text_injective :
    Function.Injective EventName.text := by
  intro name name' hSame
  cases name <;> cases name' <;>
    first
    | rfl
    | exact absurd hSame (by decide +kernel)

theorem toInt_toInt32_injective :
    Function.Injective fun value : UInt32 =>
      value.toInt32.toInt := by
  intro value value' hSame
  have hInt : value.toInt32 = value'.toInt32 :=
    Int32.toInt_inj.mp hSame
  rw [← UInt32.toUInt32_toInt32 value, hInt,
    UInt32.toUInt32_toInt32]

/- A name of a value begins with a letter. -/
theorem format_ne_valueLabel
    {value value' : UInt32}
    (hFound :
      getLabel keyValueLabels value'.toInt32.toInt ≠ []) :
    Decimal.format value.toInt32.toInt ≠
      getLabel keyValueLabels value'.toInt32.toInt := by
  intro hSame
  rcases initial_getLabel unambiguous_keyValueLabels hFound with
    ⟨c, hInitial, hHead⟩
  rw [← hSame] at hHead
  have hLetter :
      ∀ c ∈ ['U', 'D', 'R'], ¬ (c = '-' ∨ c.isDigit = true) := by
    simp
  exact hLetter c hInitial
    (Decimal.mem_format (List.mem_of_head? hHead))

/- The label of a value: none, or its name. -/
def NamesValue
    (label : List Char)
    (value : UInt32) : Prop :=
  label = [] ∨
    label = getLabel keyValueLabels value.toInt32.toInt

/- A cell tells the value, whatever the type was. -/
theorem valueText_inj
    {label label' : List Char}
    {value value' : UInt32}
    (hNames : NamesValue label value)
    (hNames' : NamesValue label' value')
    (hSame : valueText label value = valueText label' value') :
    label = label' ∧ value = value' := by
  unfold valueText at hSame
  by_cases hNil : label = [] <;> by_cases hNil' : label' = []
  · rw [if_pos hNil, if_pos hNil'] at hSame
    exact ⟨hNil.trans hNil'.symm,
      toInt_toInt32_injective (Decimal.format_injective hSame)⟩
  · rw [if_pos hNil, if_neg hNil'] at hSame
    have hLabel' := hNames'.resolve_left hNil'
    rw [hLabel'] at hSame hNil'
    exact absurd hSame (format_ne_valueLabel hNil')
  · rw [if_neg hNil, if_pos hNil'] at hSame
    have hLabel := hNames.resolve_left hNil
    rw [hLabel] at hSame hNil
    exact absurd hSame.symm (format_ne_valueLabel hNil)
  · rw [if_neg hNil, if_neg hNil'] at hSame
    refine ⟨hSame, toInt_toInt32_injective ?_⟩
    have hLabel := hNames.resolve_left hNil
    have hLabel' := hNames'.resolve_left hNil'
    rw [hLabel] at hSame hNil
    rw [hLabel'] at hSame
    exact getLabel_inj unambiguous_keyValueLabels hNil hSame

end FzEvent

------------------------------------------------------------
-- Reading the Lines
------------------------------------------------------------

namespace FzEvent

/- The labels are those of the tables. -/
structure ShownEntry.IsPrinted (x : ShownEntry) : Prop where
  code : IsPlain x.codeLabel
  value : NamesValue x.valueLabel x.value

theorem isPlain_valueText
    {label : List Char}
    {value : UInt32}
    (hNames : NamesValue label value) :
    IsPlain (valueText label value) := by
  unfold valueText
  split
  · exact isPlain_format _
  · next hFound =>
    rw [hNames.resolve_left hFound]
    exact isPlain_getLabel unambiguous_keyValueLabels _

theorem isPlain_codeLabel
    {last : List Char}
    (hLast : IsPlain last)
    (type code : UInt16) :
    IsPlain (codeLabel type last code) := by
  unfold codeLabel
  split_ifs
  · exact isPlain_getLabel unambiguous_synLabels _
  · exact isPlain_getLabel unambiguous_absLabels _
  · exact isPlain_getLabel unambiguous_keyLabels _
  · exact hLast

theorem namesValue_valueLabel
    (type : UInt16)
    (value : UInt32) :
    NamesValue (valueLabel type [] value) value := by
  unfold valueLabel
  split_ifs
  · exact Or.inl rfl
  · exact Or.inr rfl
  · exact Or.inl rfl

theorem isPrinted_of_mem_shownEntries
    {type : UInt16}
    {last : List Char}
    (hLast : IsPlain last)
    {entries : List Entry} :
    ∀ x ∈ shownEntries type last entries, x.IsPrinted := by
  induction entries generalizing last with
  | nil => simp [shownEntries]
  | cons entry entries ih =>
      have hPlain := isPlain_codeLabel hLast type entry.code
      intro x hMem
      rcases List.mem_cons.mp hMem with rfl | hMem
      · exact ⟨hPlain, namesValue_valueLabel type entry.value⟩
      · exact ih hPlain x hMem

/- A line begins with its own words. -/
theorem newline_not_mem_columns
    {cells : List (List Char)}
    (hPlain : ∀ cell ∈ cells, IsPlain cell) :
    '\n' ∉ columns cells := by
  intro hMem
  rcases Text.mem_intercalate hMem with hSep | ⟨x, hx, hIn⟩
  · exact absurd hSep (by decide)
  · exact (hPlain x hx).2 hIn

theorem forall_mem_map_isPlain
    {xs : List ShownEntry}
    {f : ShownEntry → List Char}
    (hPlain : ∀ x ∈ xs, IsPlain (f x)) :
    ∀ cell ∈ xs.map f, IsPlain cell := by
  intro cell hMem
  rcases List.mem_map.mp hMem with ⟨x, hx, rfl⟩
  exact hPlain x hx

namespace Shown

theorem newline_not_mem_lines
    {s : Shown}
    (hPrinted : ∀ x ∈ s.entries, x.IsPrinted) :
    ∀ line ∈ s.lines, '\n' ∉ line := by
  simp only [lines, List.forall_mem_cons, List.not_mem_nil,
    false_implies, implies_true, and_true]
  refine ⟨?_, ?_, ?_, ?_, ?_, ?_, ?_, ?_⟩ <;>
    refine List.not_mem_append (by decide +kernel) ?_
  · exact (isPlain_format _).2
  · exact (isPlain_millisText _).2
  · exact (isPlain_eventName _).2
  · exact (isPlain_format _).2
  · exact newline_not_mem_columns
      (forall_mem_map_isPlain fun _ _ => isPlain_millisText _)
  · exact newline_not_mem_columns
      (forall_mem_map_isPlain fun _ _ => isPlain_format _)
  · exact newline_not_mem_columns
      (forall_mem_map_isPlain fun x hx => (hPrinted x hx).code)
  · exact newline_not_mem_columns
      (forall_mem_map_isPlain fun x hx =>
        isPlain_valueText (hPrinted x hx).value)

end Shown

/- Four columns of equal cells show the same entries. -/
theorem entries_inj
    {xs ys : List ShownEntry}
    (hPrinted : ∀ x ∈ xs, x.IsPrinted)
    (hPrinted' : ∀ y ∈ ys, y.IsPrinted)
    (hTime :
      (xs.map fun x => millisText x.millis) =
        ys.map fun y => millisText y.millis)
    (hId :
      (xs.map fun x => Decimal.format x.id.toInt) =
        ys.map fun y => Decimal.format y.id.toInt)
    (hCode :
      (xs.map fun x => x.codeLabel) =
        ys.map fun y => y.codeLabel)
    (hValue :
      (xs.map fun x => valueText x.valueLabel x.value) =
        ys.map fun y => valueText y.valueLabel y.value) :
    xs = ys := by
  induction xs generalizing ys with
  | nil => exact (List.map_eq_nil_iff.mp hTime.symm).symm
  | cons x xs ih =>
      cases ys with
      | nil => cases hTime
      | cons y ys =>
          rcases List.cons.inj hTime with ⟨hTime, hTimes⟩
          rcases List.cons.inj hId with ⟨hId, hIds⟩
          rcases List.cons.inj hCode with ⟨hCode, hCodes⟩
          rcases List.cons.inj hValue with ⟨hValue, hValues⟩
          have hTail :=
            ih (List.forall_mem_of_forall_mem_cons hPrinted)
              (List.forall_mem_of_forall_mem_cons hPrinted')
              hTimes hIds hCodes hValues
          rcases valueText_inj
            (hPrinted x List.mem_cons_self).value
            (hPrinted' y List.mem_cons_self).value hValue with
            ⟨hLabel, hValue⟩
          have hMillis := millisText_injective hTime
          have hInt := Decimal.format_injective hId
          have hId := Int32.toInt_inj.mp hInt
          rw [hTail]
          cases x
          cases y
          simp_all

namespace Shown

/- The eight lines tell all fields. -/
theorem lines_inj
    {s s' : Shown}
    (hPrinted : ∀ x ∈ s.entries, x.IsPrinted)
    (hPrinted' : ∀ x ∈ s'.entries, x.IsPrinted)
    (hSame : s.lines = s'.lines) :
    s = s' := by
  simp only [lines, List.cons.injEq, List.append_cancel_left_eq,
    and_true] at hSame
  rcases hSame with
    ⟨hSeq, hTime, hName, _, hTimes, hIds, hCodes, hValues⟩
  have hSeq : s.seq = s'.seq :=
    toInt_toInt32_injective (Decimal.format_injective hSeq)
  have hTimes :=
    Text.intercalate_inj_of_ne_nil
      (fun cell hMem => by
        rcases List.mem_map.mp hMem with ⟨x, _, rfl⟩
        exact ⟨(isPlain_millisText _).1, millisText_ne_nil _⟩)
      (fun cell hMem => by
        rcases List.mem_map.mp hMem with ⟨x, _, rfl⟩
        exact ⟨(isPlain_millisText _).1, millisText_ne_nil _⟩)
      hTimes
  have hLength : s.entries.length = s'.entries.length := by
    simpa using congrArg List.length hTimes
  have hColumn :
      ∀ f : ShownEntry → List Char,
        (∀ x ∈ s.entries, IsPlain (f x)) →
        (∀ x ∈ s'.entries, IsPlain (f x)) →
        columns (s.entries.map f) =
          columns (s'.entries.map f) →
        s.entries.map f = s'.entries.map f := by
    intro f hPlain hPlain' hColumns
    refine Text.intercalate_inj
      (fun x hx => (forall_mem_map_isPlain hPlain x hx).1)
      (fun x hx => (forall_mem_map_isPlain hPlain' x hx).1)
      ?_ hColumns
    rw [List.length_map, List.length_map, hLength]
  have hEntries : s.entries = s'.entries := by
    apply entries_inj hPrinted hPrinted' hTimes
    · exact hColumn _ (fun _ _ => isPlain_format _)
        (fun _ _ => isPlain_format _) hIds
    · exact hColumn _ (fun x hx => (hPrinted x hx).code)
        (fun x hx => (hPrinted' x hx).code) hCodes
    · exact hColumn _
        (fun x hx => isPlain_valueText (hPrinted x hx).value)
        (fun x hx => isPlain_valueText (hPrinted' x hx).value)
        hValues
  have hMillis := millisText_injective hTime
  have hName := EventName.text_injective hName
  cases s
  cases s'
  simp_all

theorem text_inj
    {s s' : Shown}
    (hPrinted : ∀ x ∈ s.entries, x.IsPrinted)
    (hPrinted' : ∀ x ∈ s'.entries, x.IsPrinted)
    (hSame : s.text = s'.text) :
    s = s' :=
  lines_inj hPrinted hPrinted'
    (Text.lines_inj (newline_not_mem_lines hPrinted)
      (newline_not_mem_lines hPrinted') hSame)

end Shown

theorem isPlain_nil : IsPlain [] :=
  ⟨List.not_mem_nil, List.not_mem_nil⟩

theorem shown_eq_of_text_eq
    {r r' : Report}
    (hTimes : r.HasNormalTimes)
    (hTimes' : r'.HasNormalTimes)
    (hText : r.text = r'.text) :
    r.shown = r'.shown := by
  rw [text_eq_text_shown hTimes,
    text_eq_text_shown hTimes'] at hText
  exact Shown.text_inj
    (isPrinted_of_mem_shownEntries isPlain_nil)
    (isPrinted_of_mem_shownEntries isPlain_nil) hText

theorem text_eq_of_shown_eq
    {r r' : Report}
    (hTimes : r.HasNormalTimes)
    (hTimes' : r'.HasNormalTimes)
    (hShown : r.shown = r'.shown) :
    r.text = r'.text := by
  rw [text_eq_text_shown hTimes, text_eq_text_shown hTimes',
    hShown]

/-
  Two files of reports with normal times are the same exactly
  when they show the same: nothing that is shown is ambiguous.
-/
theorem text_eq_iff_shown_eq
    {r r' : Report}
    (hTimes : r.HasNormalTimes)
    (hTimes' : r'.HasNormalTimes) :
    r.text = r'.text ↔ r.shown = r'.shown := by
  constructor
  · exact shown_eq_of_text_eq hTimes hTimes'
  · exact text_eq_of_shown_eq hTimes hTimes'

/- The same press within the same millisecond. -/
def Report.powerKeyLater : Report :=
  ⟨7, ⟨12, 5999⟩, .key,
    ⟨evKey, 3, [⟨⟨12, 3001⟩, -1, 116, 1⟩]⟩⟩

theorem hasNormalTimes_powerKey :
    Report.powerKey.HasNormalTimes where
  header := by decide
  entries := by
    intro entry hMem
    rw [List.mem_singleton.mp hMem]
    decide

theorem hasNormalTimes_powerKeyLater :
    Report.powerKeyLater.HasNormalTimes where
  header := by decide
  entries := by
    intro entry hMem
    rw [List.mem_singleton.mp hMem]
    decide

theorem text_eq_iff_shown_eq_powerKey :
    Report.powerKey.text = Report.powerKeyLater.text :=
  (text_eq_iff_shown_eq hasNormalTimes_powerKey
    hasNormalTimes_powerKeyLater).mpr (by decide +kernel)

end FzEvent

------------------------------------------------------------
-- Reading the Codes
------------------------------------------------------------

namespace FzEvent

/- The types with a table of codes. -/
def HasTable (type : UInt16) : Prop :=
  type = evAbs ∨ type = evKey
deriving Decidable

/- The table of a type, for the codes other than 0. -/
def codeTable (type : UInt16) : List Input.Label :=
  if type = evAbs then absLabels else keyLabels

/- The code is printed with a name. -/
def HasLabel (type code : UInt16) : Prop :=
  code = 0 ∨ ∃ l ∈ codeTable type, l.value = code.toNat

theorem toNat_inj
    {code code' : UInt16}
    (hSame : (code.toNat : Int) = code'.toNat) :
    code = code' :=
  UInt16.toNat_inj.mp (Int.ofNat_inj.mp hSame)

theorem codeLabel_zero
    (type : UInt16)
    (last : List Char) :
    codeLabel type last 0 = getLabel synLabels 0 := by
  rw [codeLabel, if_pos rfl]
  rfl

theorem codeLabel_zero_ne_nil
    (type : UInt16)
    (last : List Char) :
    codeLabel type last 0 ≠ [] := by
  rw [codeLabel_zero,
    getLabel_ne_nil_iff unambiguous_synLabels]
  exact ⟨⟨"SYN_REPORT", 0⟩, List.mem_cons_self, rfl⟩

theorem codeLabel_of_ne_zero
    {type code : UInt16}
    (hType : HasTable type)
    (hCode : code ≠ 0)
    (last : List Char) :
    codeLabel type last code =
      getLabel (codeTable type) code.toNat := by
  unfold codeLabel codeTable
  rw [if_neg hCode]
  rcases hType with rfl | rfl <;> rfl

theorem unambiguous_codeTable
    (type : UInt16) :
    ∃ initials, Unambiguous initials (codeTable type) ∧
      'S' ∉ initials := by
  unfold codeTable
  split
  · exact ⟨_, unambiguous_absLabels, by decide⟩
  · exact ⟨_, unambiguous_keyLabels, by decide⟩

/- The label is there exactly when the code has one. -/
theorem codeLabel_ne_nil_iff
    {type : UInt16}
    (hType : HasTable type)
    (last : List Char)
    (code : UInt16) :
    codeLabel type last code ≠ [] ↔ HasLabel type code := by
  by_cases hCode : code = 0
  · rw [hCode]
    exact iff_of_true (codeLabel_zero_ne_nil type last)
      (Or.inl rfl)
  · rcases unambiguous_codeTable type with ⟨_, hTable, _⟩
    rw [codeLabel_of_ne_zero hType hCode,
      getLabel_ne_nil_iff hTable, HasLabel, or_iff_right hCode]

/- The name of the code 0 is in no other table. -/
theorem codeLabel_ne_of_zero
    {type code : UInt16}
    (hType : HasTable type)
    (hCode : code ≠ 0)
    (type' : UInt16)
    (last last' : List Char) :
    codeLabel type' last' 0 ≠ codeLabel type last code := by
  rcases unambiguous_codeTable type with
    ⟨initials, hTable, hInitial⟩
  have hFound := codeLabel_zero_ne_nil type' last'
  rw [codeLabel_zero] at hFound
  rw [codeLabel_zero, codeLabel_of_ne_zero hType hCode]
  apply getLabel_ne_of_initials unambiguous_synLabels hTable
  · simpa using hInitial
  · exact hFound

/- No name is both in `absLabels` and in `keyLabels`. -/
theorem type_of_codeTable
    {type type' : UInt16}
    (hType : HasTable type)
    (hType' : HasTable type')
    {code code' : UInt16}
    (hFound : getLabel (codeTable type) code.toNat ≠ [])
    (hSame :
      getLabel (codeTable type) code.toNat =
        getLabel (codeTable type') code'.toNat) :
    type' = type := by
  rcases hType with rfl | rfl <;> rcases hType' with rfl | rfl
  · rfl
  · exact absurd hSame
      (getLabel_ne_of_initials unambiguous_absLabels
        unambiguous_keyLabels (by simp) hFound)
  · exact absurd hSame
      (getLabel_ne_of_initials unambiguous_keyLabels
        unambiguous_absLabels (by simp) hFound)
  · rfl

/- A printed name tells the code, and the type unless it is 0. -/
theorem code_of_codeLabel_eq
    {type type' : UInt16}
    (hType : HasTable type)
    (hType' : HasTable type')
    {last last' : List Char}
    {code code' : UInt16}
    (hLabel : HasLabel type code)
    (hSame :
      codeLabel type last code =
        codeLabel type' last' code') :
    code' = code ∧ (code = 0 ∨ type' = type) := by
  by_cases hCode : code = 0
  · rw [hCode] at hSame ⊢
    refine ⟨?_, Or.inl rfl⟩
    by_contra hCode'
    exact codeLabel_ne_of_zero hType' hCode' type last' last hSame
  · by_cases hCode' : code' = 0
    · rw [hCode'] at hSame
      exact absurd hSame.symm
        (codeLabel_ne_of_zero hType hCode type' last last')
    · have hFound :=
        (codeLabel_ne_nil_iff hType last code).mpr hLabel
      rw [codeLabel_of_ne_zero hType hCode] at hSame hFound
      rw [codeLabel_of_ne_zero hType' hCode'] at hSame
      have hTypes := type_of_codeTable hType hType' hFound hSame
      rw [hTypes] at hSame
      rcases unambiguous_codeTable type with ⟨_, hTable, _⟩
      exact ⟨(toNat_inj
        (getLabel_inj hTable hFound hSame)).symm, Or.inr hTypes⟩

/-
  Entries of two events that a file cannot tell apart: only
  the microseconds, and codes without a label, may differ.
-/
structure Agrees
    (type type' : UInt16)
    (entry entry' : Entry) : Prop where
  millis : entry'.tv.millis = entry.tv.millis
  id : entry'.id = entry.id
  value : entry'.value = entry.value
  labelled :
    HasLabel type' entry'.code ↔ HasLabel type entry.code
  code :
    HasLabel type entry.code →
      entry'.code = entry.code ∧
        (entry.code = 0 ∨ type' = type)

theorem agrees_of_shownEntries_eq
    {type type' : UInt16}
    (hType : HasTable type)
    (hType' : HasTable type')
    {last last' : List Char}
    {entries entries' : List Entry}
    (hSame :
      shownEntries type last entries =
        shownEntries type' last' entries') :
    List.Forall₂ (Agrees type type') entries entries' := by
  induction entries generalizing last last' entries' with
  | nil =>
      cases entries' with
      | nil => exact List.Forall₂.nil
      | cons entry' entries' => cases hSame
  | cons entry entries ih =>
      cases entries' with
      | nil => cases hSame
      | cons entry' entries' =>
          rcases List.cons.inj hSame with ⟨hHead, hTail⟩
          injection hHead with hMillis hId hCode _ hValue
          refine List.Forall₂.cons ?_ (ih hTail)
          refine ⟨hMillis.symm, hId.symm, hValue.symm, ?_, ?_⟩
          · rw [← codeLabel_ne_nil_iff hType' last', ← hCode,
              codeLabel_ne_nil_iff hType]
          · intro hLabel
            exact code_of_codeLabel_eq hType hType' hLabel hCode

/-
  From the file of a touch or key event the entries can be
  read, up to what `Agrees` leaves open.
-/
theorem entries_of_text_eq
    {r r' : Report}
    (hTimes : r.HasNormalTimes)
    (hTimes' : r'.HasNormalTimes)
    (hType : HasTable r.e.type)
    (hType' : HasTable r'.e.type)
    (hText : r.text = r'.text) :
    List.Forall₂ (Agrees r.e.type r'.e.type)
      r.e.entries r'.e.entries := by
  have hShown := shown_eq_of_text_eq hTimes hTimes' hText
  exact agrees_of_shownEntries_eq hType hType'
    (congrArg Shown.entries hShown)

theorem entries_of_text_eq_powerKey :
    List.Forall₂ (Agrees evKey evKey)
      Report.powerKey.e.entries
      Report.powerKeyLater.e.entries :=
  entries_of_text_eq hasNormalTimes_powerKey
    hasNormalTimes_powerKeyLater (by decide) (by decide)
    (by decide +kernel)

end FzEvent

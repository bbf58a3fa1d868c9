import FzEvent.Lib.Overwrites
import FzEvent.Lib.Transition
import FzEvent.Receiver.EventReport
import FzEvent.Receiver.ReportText

/-
  The files that the receiver leaves in its directory: a text
  file for each report, named by the time of the header, and
  an event file for each recording, named by the time of its
  start.

  A file is opened for writing from its beginning, so it
  replaces an older one of the same name. The names are made
  of local dates, which the parameter `date` stands for.

  Main declarations:
    * `FzEvent.DateTime` and `FzEvent.stampedName`
    * `FzEvent.OutputFile` and `FzEvent.diskAfter`
    * `FzEvent.Outputs` and `FzEvent.outputs`
    * `FzEvent.outputs_kept_iff`
-/

------------------------------------------------------------
-- Names
------------------------------------------------------------

namespace FzEvent

/- The fields of `ACE_Date_Time` that `sprintf` prints. -/
structure DateTime where
  year : Int32
  month : Int32
  day : Int32
  hour : Int32
  minute : Int32
  second : Int32
  microsec : Int32
deriving DecidableEq, Repr

/- Three fields, the first with at least `k` characters. -/
def threeFields
    (k : Nat)
    (a b c : Int32) : List Char :=
  Decimal.formatPadded k a.toInt ++
    (Decimal.formatPadded 2 b.toInt ++
      Decimal.formatPadded 2 c.toInt)

/- `_%04d%02d%02d_%02d%02d%02d_%03d` -/
def stamp (d : DateTime) : List Char :=
  '_' :: (threeFields 4 d.year d.month d.day ++
    '_' :: (threeFields 2 d.hour d.minute d.second ++
      '_' :: Decimal.formatPadded 3 d.microsec.toInt))

def stampedName
    (front back : List Char)
    (d : DateTime) : List Char :=
  front ++ stamp d ++ back

/- `filename` of `write` -/
def reportFilename (d : DateTime) : List Char :=
  stampedName (Text.ascii "SCP" ++ Text.ascii "_DEVID")
    (Text.ascii ".txt") d

/- `filename` of `makeEventFile` -/
def eventFilename (d : DateTime) : List Char :=
  stampedName (Text.ascii "PATH" ++ Text.ascii "_ID")
    (Text.ascii "_RESULT.txt") d

/- The array that the names are printed into. -/
def filenameSize : Nat := 512

/- No field is longer than eleven characters. -/
theorem length_field_le
    {k : Nat}
    (hLe : k ≤ 11)
    (field : Int32) :
    (Decimal.formatPadded k field.toInt).length ≤ 11 := by
  have hLt := field.toInt_lt
  have hGe := field.le_toInt
  have hLength :=
    Decimal.length_formatPadded_le k (m := 10)
      (a := field.toInt) (by decide) (by omega)
  omega

theorem length_threeFields_le
    {k : Nat}
    (hLe : k ≤ 11)
    (a b c : Int32) :
    (threeFields k a b c).length ≤ 33 := by
  have hFirst := length_field_le hLe a
  have hSecond := length_field_le (k := 2) (by decide) b
  have hThird := length_field_le (k := 2) (by decide) c
  rw [threeFields, List.length_append, List.length_append]
  omega

/- Whatever the fields are, the names fit. -/
theorem length_stamp_le
    (d : DateTime) :
    (stamp d).length ≤ 80 := by
  have hDay :=
    length_threeFields_le (k := 4) (by decide)
      d.year d.month d.day
  have hClock :=
    length_threeFields_le (k := 2) (by decide)
      d.hour d.minute d.second
  have hMicrosec :=
    length_field_le (k := 3) (by decide) d.microsec
  simp only [stamp, List.length_append, List.length_cons]
  omega

theorem length_reportFilename_lt
    (d : DateTime) :
    (reportFilename d).length < filenameSize := by
  have hStamp := length_stamp_le d
  have hFront :
      (Text.ascii "SCP" ++ Text.ascii "_DEVID").length = 9 := by
    decide +kernel
  have hBack : (Text.ascii ".txt").length = 4 := by
    decide +kernel
  rw [reportFilename, stampedName, List.length_append,
    List.length_append, hFront, hBack, filenameSize]
  omega

theorem length_eventFilename_lt
    (d : DateTime) :
    (eventFilename d).length < filenameSize := by
  have hStamp := length_stamp_le d
  have hFront :
      (Text.ascii "PATH" ++ Text.ascii "_ID").length = 7 := by
    decide +kernel
  have hBack : (Text.ascii "_RESULT.txt").length = 11 := by
    decide +kernel
  rw [eventFilename, stampedName, List.length_append,
    List.length_append, hFront, hBack, filenameSize]
  omega

end FzEvent

------------------------------------------------------------
-- Names and Dates
------------------------------------------------------------

namespace FzEvent

/- A field of two digits. -/
def TwoDigits (field : Int32) : Prop :=
  0 ≤ field.toInt ∧ field.toInt < 100
deriving Decidable

/- The fields of a calendar date have at most two digits. -/
structure DateTime.IsDate (d : DateTime) : Prop where
  month : TwoDigits d.month
  day : TwoDigits d.day
  hour : TwoDigits d.hour
  minute : TwoDigits d.minute
  second : TwoDigits d.second

theorem length_twoDigits
    {field : Int32}
    (hField : TwoDigits field) :
    (Decimal.formatPadded 2 field.toInt).length = 2 := by
  rcases hField with ⟨hNonneg, hLt⟩
  have hNat : field.toInt = (field.toInt.toNat : Int) := by
    omega
  rw [hNat]
  exact Decimal.length_formatPadded (by decide) (by omega)

theorem underscore_not_mem_field
    (k : Nat)
    (field : Int32) :
    '_' ∉ Decimal.formatPadded k field.toInt := by
  intro hMem
  exact absurd (Decimal.mem_formatPadded hMem) (by decide)

theorem field_inj
    {k : Nat}
    {field field' : Int32}
    (hSame :
      Decimal.formatPadded k field.toInt =
        Decimal.formatPadded k field'.toInt) :
    field = field' :=
  Int32.toInt_inj.mp (Decimal.formatPadded_injective k hSame)

/- The last two fields have two digits each. -/
theorem threeFields_inj
    {k : Nat}
    {a b c a' b' c' : Int32}
    (hB : TwoDigits b)
    (hC : TwoDigits c)
    (hB' : TwoDigits b')
    (hC' : TwoDigits c')
    (hSame : threeFields k a b c = threeFields k a' b' c') :
    a = a' ∧ b = b' ∧ c = c' := by
  have hLength :
      (Decimal.formatPadded 2 b.toInt ++
          Decimal.formatPadded 2 c.toInt).length =
        (Decimal.formatPadded 2 b'.toInt ++
          Decimal.formatPadded 2 c'.toInt).length := by
    rw [List.length_append, List.length_append,
      length_twoDigits hB, length_twoDigits hC,
      length_twoDigits hB', length_twoDigits hC']
  rcases List.append_inj' hSame hLength with ⟨hFirst, hRest⟩
  have hSecond :
      (Decimal.formatPadded 2 b.toInt).length =
        (Decimal.formatPadded 2 b'.toInt).length := by
    rw [length_twoDigits hB, length_twoDigits hB']
  rcases List.append_inj hRest hSecond with ⟨hMiddle, hLast⟩
  exact ⟨field_inj hFirst, field_inj hMiddle, field_inj hLast⟩

theorem underscore_not_mem_threeFields
    (k : Nat)
    (a b c : Int32) :
    '_' ∉ threeFields k a b c :=
  List.not_mem_append (underscore_not_mem_field k a)
    (List.not_mem_append (underscore_not_mem_field 2 b)
      (underscore_not_mem_field 2 c))

/-
  A stamp tells its date: the year and the microseconds may
  have any number of digits, but four digits follow the year,
  and nothing the microseconds.
-/
theorem stamp_inj
    {d d' : DateTime}
    (hDate : d.IsDate)
    (hDate' : d'.IsDate)
    (hSame : stamp d = stamp d') :
    d = d' := by
  rcases List.cons.inj hSame with ⟨_, hSame⟩
  rcases Text.append_cons_inj
    (underscore_not_mem_threeFields _ _ _ _)
    (underscore_not_mem_threeFields _ _ _ _) hSame with
    ⟨hDay, hSame⟩
  rcases Text.append_cons_inj
    (underscore_not_mem_threeFields _ _ _ _)
    (underscore_not_mem_threeFields _ _ _ _) hSame with
    ⟨hClock, hMicrosec⟩
  rcases threeFields_inj hDate.month hDate.day hDate'.month
    hDate'.day hDay with ⟨hYear, hMonth, hDay⟩
  rcases threeFields_inj hDate.minute hDate.second
    hDate'.minute hDate'.second hClock with
    ⟨hHour, hMinute, hSecond⟩
  have hMicrosec := field_inj hMicrosec
  cases d
  cases d'
  simp_all

theorem stampedName_inj
    {front back : List Char}
    {d d' : DateTime}
    (hDate : d.IsDate)
    (hDate' : d'.IsDate) :
    stampedName front back d = stampedName front back d' ↔
      d = d' := by
  constructor
  · intro hSame
    exact stamp_inj hDate hDate'
      (List.append_cancel_left
        (List.append_cancel_right hSame))
  · exact congrArg _

/- No report has the name of an event file. -/
theorem reportFilename_ne_eventFilename
    (d d' : DateTime) :
    reportFilename d ≠ eventFilename d' := by
  intro hSame
  have hHead := congrArg List.head? hSame
  have hReport : (reportFilename d).head? = some 'S' := rfl
  have hEvent : (eventFilename d').head? = some 'P' := rfl
  rw [hReport, hEvent] at hHead
  exact absurd hHead (by decide)

end FzEvent

------------------------------------------------------------
-- Files in a Directory
------------------------------------------------------------

namespace FzEvent

/- The text of a report, or the bytes of an event file. -/
abbrev Content : Type := List Char ⊕ List UInt8

/- A file that was opened, written and closed. -/
inductive OutputFile
| report (r : Report)
| events (opened : Timeval) (file : List UInt8)
deriving DecidableEq

namespace OutputFile

def name
    (date : Timeval → DateTime) : OutputFile → List Char
| report r => reportFilename (date r.time)
| events opened _ => eventFilename (date opened)

def content : OutputFile → Content
| report r => .inl r.text
| events _ file => .inr file

def report? : OutputFile → Option Report
| report r => some r
| events _ _ => none

def events? : OutputFile → Option (List UInt8)
| report _ => none
| events _ file => some file

def HasNormalTimes : OutputFile → Prop
| report r => r.HasNormalTimes
| events opened _ => opened.IsNormal

/- The later file takes nothing from the earlier one. -/
def Spares
    (date : Timeval → DateTime) :
    OutputFile → OutputFile → Prop
| report r, report r' =>
    date r.time = date r'.time → r.shown = r'.shown
| events opened file, events opened' file' =>
    date opened = date opened' → file = file'
| _, _ => True

instance
    (date : Timeval → DateTime)
    (f f' : OutputFile) : Decidable (f.Spares date f') :=
  match f, f' with
  | report r, report r' =>
      inferInstanceAs (Decidable
        (date r.time = date r'.time → r.shown = r'.shown))
  | events opened file, events opened' file' =>
      inferInstanceAs (Decidable
        (date opened = date opened' → file = file'))
  | report _, events _ _ => inferInstanceAs (Decidable True)
  | events _ _, report _ => inferInstanceAs (Decidable True)

end OutputFile

/- What the files leave in an empty directory, in their order. -/
def diskAfter
    (date : Timeval → DateTime)
    (files : List OutputFile) : List Char → Option Content :=
  Overwrites.storeAll (fun _ => none)
    (files.map fun f => (f.name date, f.content))

theorem diskAfter_append_singleton
    (date : Timeval → DateTime)
    (files : List OutputFile)
    (f : OutputFile) :
    diskAfter date (files ++ [f]) =
      Overwrites.store (diskAfter date files)
        (f.name date, f.content) := by
  simp [diskAfter, Overwrites.storeAll]

/-
  Two files of the same kind have the same name when they have
  the same date, and else they have different names.
-/
theorem spares_iff
    {date : Timeval → DateTime}
    (hDate : ∀ tv, tv.IsNormal → (date tv).IsDate)
    {f f' : OutputFile}
    (hTimes : f.HasNormalTimes)
    (hTimes' : f'.HasNormalTimes) :
    (f.name date = f'.name date → f.content = f'.content) ↔
      f.Spares date f' := by
  cases f with
  | report r =>
      cases f' with
      | report r' =>
          have hIsDate := hDate r.time hTimes.header
          have hIsDate' := hDate r'.time hTimes'.header
          rw [OutputFile.Spares, OutputFile.name,
            OutputFile.name, reportFilename, reportFilename,
            stampedName_inj hIsDate hIsDate']
          refine imp_congr_right fun _ => ?_
          rw [OutputFile.content, OutputFile.content,
            Sum.inl.injEq]
          exact ⟨shown_eq_of_text_eq hTimes hTimes',
            text_eq_of_shown_eq hTimes hTimes'⟩
      | events opened' file' =>
          refine iff_of_true ?_ trivial
          intro hName
          exact absurd hName
            (reportFilename_ne_eventFilename _ _)
  | events opened file =>
      cases f' with
      | report r' =>
          refine iff_of_true ?_ trivial
          intro hName
          exact absurd hName.symm
            (reportFilename_ne_eventFilename _ _)
      | events opened' file' =>
          have hIsDate := hDate opened hTimes
          have hIsDate' := hDate opened' hTimes'
          rw [OutputFile.Spares, OutputFile.name,
            OutputFile.name, eventFilename, eventFilename,
            stampedName_inj hIsDate hIsDate']
          refine imp_congr_right fun _ => ?_
          rw [OutputFile.content, OutputFile.content,
            Sum.inr.injEq]

theorem diskAfter_keeps_iff
    {date : Timeval → DateTime}
    (hDate : ∀ tv, tv.IsNormal → (date tv).IsDate)
    {files : List OutputFile}
    (hTimes : ∀ f ∈ files, f.HasNormalTimes) :
    (∀ f ∈ files,
        diskAfter date files (f.name date) =
          some f.content) ↔
      files.Pairwise (OutputFile.Spares date) := by
  have hKept :=
    Overwrites.kept_iff (fun _ => none)
      (files.map fun f => (f.name date, f.content))
  rw [List.forall_mem_map, List.pairwise_map] at hKept
  rw [diskAfter, hKept]
  exact List.Pairwise.iff_of_mem fun hMem hMem' =>
    spares_iff hDate (hTimes _ hMem) (hTimes _ hMem')

end FzEvent

------------------------------------------------------------
-- The Receiver Writing
------------------------------------------------------------

namespace FzEvent

open Transition Overwrites

/-
  The receiver with its directory, the time that the open
  event file is named by, and the closed files as a history.
-/
structure Outputs where
  rcv : CEvtRcv
  opened : Timeval
  disk : List Char → Option Content
  files : List OutputFile

/- The operator's `r` at a time, `t`, and a packet. -/
inductive OutputStep
| start (now : Timeval)
| stop
| packet (tv : Timeval) (e : DevicePacketEvent)
deriving DecidableEq, Repr

namespace Outputs

variable (date : Timeval → DateTime)

def init : Outputs where
  rcv := .init
  opened := ⟨0, 0⟩
  disk := fun _ => none
  files := []

/-
  `makeEventFile` empties the file that it opens. A report is
  written before the event file is found closed, which is a
  failed assertion and `none`.
-/
def step
    (s : Outputs) : OutputStep → Option Outputs
| .start now =>
    let rcv := { s.rcv.makeEventFile with sEventSequence := 0 }
    match s.rcv.sFpEvt with
    | some _ => some { s with rcv }
    | none =>
        some { s with
          rcv
          opened := now
          disk :=
            store s.disk (eventFilename (date now), .inr []) }
| .stop =>
    match s.rcv.sFpEvt with
    | none => none
    | some file =>
        let closed :=
          OutputFile.events s.opened (file ++ endOfFile)
        s.rcv.closeEventFile.map fun rcv =>
          { s with
            rcv
            disk :=
              store s.disk (closed.name date, closed.content)
            files := s.files ++ [closed] }
| .packet tv e =>
    let report := OutputFile.report (s.rcv.reportOf tv e)
    ((s.rcv.reportEvent tv e).writeEventFile e).map fun rcv =>
      { s with
        rcv
        disk := store s.disk (report.name date, report.content)
        files := s.files ++ [report] }

end Outputs

def OutputStep.HasNormalTimes : OutputStep → Prop
| .start now => now.IsNormal
| .stop => True
| .packet tv e =>
    tv.IsNormal ∧ ∀ entry ∈ e.entries, entry.tv.IsNormal

def outputs
    (date : Timeval → DateTime) :
    System Outputs OutputStep where
  init := .init
  step := Outputs.step date

/-
  The directory is that of the closed files, but for the name
  of an open event file. The history is that of the receiver.
-/
structure Outputs.Keeps
    (date : Timeval → DateTime)
    (s : Outputs) : Prop where
  disk :
    ∀ name,
      (s.rcv.sFpEvt ≠ none →
        name ≠ eventFilename (date s.opened)) →
      s.disk name = diskAfter date s.files name
  reports : s.files.filterMap OutputFile.report? = s.rcv.reports
  closed :
    s.files.filterMap OutputFile.events? = s.rcv.closed.reverse
  times : ∀ f ∈ s.files, f.HasNormalTimes
  opened : s.rcv.sFpEvt ≠ none → s.opened.IsNormal

theorem keeps_init
    (date : Timeval → DateTime) :
    Outputs.Keeps date .init where
  disk := fun _ _ => rfl
  reports := rfl
  closed := rfl
  times := by simp [Outputs.init]
  opened := fun hOpen => absurd rfl hOpen

/- Where two disks agree, they agree behind a write. -/
theorem store_congr
    {disk disk' : List Char → Option Content}
    {name : List Char}
    (hSame : disk name = disk' name)
    (write : List Char × Content) :
    store disk write name = store disk' write name := by
  rw [store, store, hSame]

variable {date : Timeval → DateTime} {s t : Outputs}

theorem keeps_start
    (hKeeps : s.Keeps date)
    {now : Timeval}
    (hNow : now.IsNormal)
    (hStep : s.step date (.start now) = some t) :
    t.Keeps date := by
  simp only [Outputs.step] at hStep
  split at hStep
  · next file hFile =>
    cases hStep
    have hMake : s.rcv.makeEventFile = s.rcv := by
      rw [CEvtRcv.makeEventFile, hFile]
    exact {
      disk := by
        rw [hMake]
        exact hKeeps.disk
      reports := by
        rw [hMake]
        exact hKeeps.reports
      closed := by
        rw [hMake]
        exact hKeeps.closed
      times := hKeeps.times
      opened := by
        rw [hMake]
        exact hKeeps.opened }
  · next hFile =>
    cases hStep
    have hMake :
        s.rcv.makeEventFile =
          { s.rcv with sFpEvt := some [] } := by
      rw [CEvtRcv.makeEventFile, hFile]
    refine ⟨?_, ?_, ?_, hKeeps.times, fun _ => hNow⟩
    · intro name hOther
      have hNe : name ≠ eventFilename (date now) := by
        apply hOther
        simp [hMake]
      dsimp only
      rw [store, if_neg hNe]
      exact hKeeps.disk name fun hOpen => absurd hFile hOpen
    · rw [hMake]
      exact hKeeps.reports
    · rw [hMake]
      exact hKeeps.closed

theorem keeps_stop
    (hKeeps : s.Keeps date)
    (hStep : s.step date .stop = some t) :
    t.Keeps date := by
  simp only [Outputs.step] at hStep
  split at hStep
  · cases hStep
  · next file hFile =>
    rw [CEvtRcv.closeEventFile_of_open hFile, Option.map_some,
      Option.some_inj] at hStep
    have hOpen : s.rcv.sFpEvt ≠ none := by simp [hFile]
    subst hStep
    refine ⟨?_, ?_, ?_, ?_, fun hOpen => absurd rfl hOpen⟩
    · intro name _
      rw [diskAfter_append_singleton]
      by_cases hName : name = eventFilename (date s.opened)
      · exact (if_pos hName).trans (if_pos hName).symm
      · exact store_congr (hKeeps.disk name fun _ => hName) _
    · rw [List.filterMap_append, hKeeps.reports]
      exact List.append_nil _
    · rw [List.filterMap_append, hKeeps.closed]
      exact List.reverse_cons.symm
    · intro f hMem
      rcases List.mem_append.mp hMem with hOld | hNew
      · exact hKeeps.times f hOld
      · rw [List.mem_singleton.mp hNew]
        exact hKeeps.opened hOpen

theorem keeps_packet
    (hKeeps : s.Keeps date)
    {tv : Timeval}
    {e : DevicePacketEvent}
    (hTv : tv.IsNormal)
    (hEntries : ∀ entry ∈ e.entries, entry.tv.IsNormal)
    (hStep : s.step date (.packet tv e) = some t) :
    t.Keeps date := by
  simp only [Outputs.step] at hStep
  rcases Option.map_eq_some_iff.mp hStep with
    ⟨rcv, hWrite, rfl⟩
  cases hFile : s.rcv.sFpEvt with
  | none =>
      rw [CEvtRcv.writeEventFile, CEvtRcv.sFpEvt_reportEvent,
        hFile] at hWrite
      cases hWrite
  | some file =>
      have hOpen : s.rcv.sFpEvt ≠ none := by simp [hFile]
      rw [CEvtRcv.writeEventFile_of_open
        (by rw [CEvtRcv.sFpEvt_reportEvent, hFile]),
        Option.some_inj] at hWrite
      subst hWrite
      refine ⟨?_, ?_, ?_, ?_, fun _ => hKeeps.opened hOpen⟩
      · intro name hOther
        rw [diskAfter_append_singleton]
        exact store_congr
          (hKeeps.disk name fun _ => hOther (by simp)) _
      · rw [List.filterMap_append, hKeeps.reports]
        exact (CEvtRcv.reports_reportEvent s.rcv tv e).symm
      · rw [List.filterMap_append, hKeeps.closed]
        exact List.append_nil _
      · intro f hMem
        rcases List.mem_append.mp hMem with hOld | hNew
        · exact hKeeps.times f hOld
        · rw [List.mem_singleton.mp hNew]
          exact ⟨hTv, hEntries⟩

theorem keeps_of_exec
    {steps : List OutputStep}
    (hTimes : ∀ step ∈ steps, step.HasNormalTimes)
    (hRun : (outputs date).exec .init steps = some t) :
    t.Keeps date := by
  refine (outputs date).invariant_of_meets
    (Outputs.Keeps date) ?_ (keeps_init date)
    ((outputs date).meets_of_forall _ hTimes) hRun
  intro s step t hKeeps hNormal hStep
  cases step with
  | start now => exact keeps_start hKeeps hNormal hStep
  | stop => exact keeps_stop hKeeps hStep
  | packet tv e =>
      exact keeps_packet hKeeps hNormal.1 hNormal.2 hStep

/-
  Behind every run that leaves no event file open: all reports
  and event files are there, with all that was written, exactly
  when no two reports and no two event files with different
  contents have the same date.
-/
theorem outputs_kept_iff
    (hDate : ∀ tv, tv.IsNormal → (date tv).IsDate)
    {steps : List OutputStep}
    (hTimes : ∀ step ∈ steps, step.HasNormalTimes)
    (hRun : (outputs date).exec .init steps = some t)
    (hClosed : t.rcv.sFpEvt = none) :
    t.files.filterMap OutputFile.report? = t.rcv.reports ∧
      t.files.filterMap OutputFile.events? =
        t.rcv.closed.reverse ∧
      ((∀ f ∈ t.files,
          t.disk (f.name date) = some f.content) ↔
        t.files.Pairwise (OutputFile.Spares date)) := by
  have hKeeps := keeps_of_exec hTimes hRun
  have hDisk : t.disk = diskAfter date t.files := by
    funext name
    exact hKeeps.disk name fun hOpen => absurd hClosed hOpen
  refine ⟨hKeeps.reports, hKeeps.closed, ?_⟩
  rw [hDisk]
  exact diskAfter_keeps_iff hDate hKeeps.times

/- The date of a time of the first day of 1970, in UTC. -/
def firstDay (tv : Timeval) : DateTime where
  year := 1970
  month := 1
  day := 1
  hour := Int32.ofInt (tv.tvSec.toInt / 3600 % 24)
  minute := Int32.ofInt (tv.tvSec.toInt / 60 % 60)
  second := Int32.ofInt (tv.tvSec.toInt % 60)
  microsec := tv.tvUsec

theorem isDate_firstDay
    (tv : Timeval) :
    (firstDay tv).IsDate := by
  have hMod :
      ∀ (a m : Int), 0 < m → m ≤ 100 →
        TwoDigits (Int32.ofInt (a % m)) := by
    intro a m hPos hLe
    have hNonneg := Int.emod_nonneg a (Int.ne_of_gt hPos)
    have hLt := Int.emod_lt_of_pos a hPos
    rw [TwoDigits, Int32.toInt_ofInt_of_le (by omega) (by omega)]
    omega
  exact {
    month := show TwoDigits 1 by decide
    day := show TwoDigits 1 by decide
    hour := hMod _ 24 (by decide) (by decide)
    minute := hMod _ 60 (by decide) (by decide)
    second := hMod _ 60 (by decide) (by decide) }

/- Two presses of the power key, a second apart. -/
def twoPresses : List OutputStep :=
  [.start ⟨10, 0⟩,
    .packet ⟨12, 5000⟩ Report.powerKey.e,
    .packet ⟨13, 5000⟩ Report.powerKey.e,
    .stop]

theorem outputs_kept_iff_twoPresses :
    ∃ t, (outputs firstDay).exec .init twoPresses = some t ∧
      t.rcv.reports.length = 2 ∧
      ∀ f ∈ t.files,
        t.disk (f.name firstDay) = some f.content := by
  have hPacket :
      ∀ tv : Timeval, tv.IsNormal →
        (OutputStep.packet tv
          Report.powerKey.e).HasNormalTimes :=
    fun _ hTv => ⟨hTv, hasNormalTimes_powerKey.entries⟩
  have hTimes : ∀ step ∈ twoPresses, step.HasNormalTimes := by
    simp only [twoPresses, List.forall_mem_cons,
      List.not_mem_nil, false_implies, implies_true, and_true]
    exact ⟨show Timeval.IsNormal _ by decide,
      hPacket _ (by decide), hPacket _ (by decide), trivial⟩
  refine ⟨_, rfl, rfl, ?_⟩
  exact (outputs_kept_iff (fun tv _ => isDate_firstDay tv)
    hTimes rfl rfl).2.2.mpr (by decide +kernel)

end FzEvent

import FzEvent.EndToEnd.EntryTypes
import FzEvent.Lib.Transition

/-
  The numbers of the receiver's reports against the places of
  the packets in the event file.

  The operator's `r` sets the number back even when the file
  of an earlier `r` is still open.

  Main declarations:
    * `FzEvent.Recording`, `FzEvent.RecordingStep` and
      `FzEvent.recording`
    * `Recording.NamesPlace` and `Recording.Numbered`
    * `FzEvent.loaded_of_written`
    * `FzEvent.namesPlace_iff_numbered`
-/

------------------------------------------------------------
-- Commands and Packets
------------------------------------------------------------

namespace FzEvent

/- The operator's `r` and `t`, and a received packet. -/
inductive RecordingStep
| start
| stop
| packet (tv : Timeval) (e : DevicePacketEvent)
deriving DecidableEq, Repr

/-
  The receiver with two history variables: the packets in the
  open file, and whether an `r` came behind one of them.
-/
structure Recording where
  rcv : CEvtRcv
  inFile : List DevicePacketEvent
  restarted : Bool
deriving DecidableEq

namespace Recording

def init : Recording where
  rcv := .init
  inFile := []
  restarted := false

/-
  The cases `r` and `t` of the operator's loop, and
  `OnEventCapture` behind its decoder. `none` is a failed
  assertion: without an open file, for `t` and for a packet.
-/
def step
    (s : Recording) : RecordingStep → Option Recording
| .start =>
    some {
      rcv := { s.rcv.makeEventFile with sEventSequence := 0 }
      inFile := s.inFile
      restarted := s.restarted || s.inFile ≠ [] }
| .stop =>
    s.rcv.closeEventFile.map fun rcv => ⟨rcv, [], false⟩
| .packet tv e =>
    ((s.rcv.reportEvent tv e).writeEventFile e).map fun rcv =>
      { s with rcv, inFile := s.inFile ++ [e] }

/- The number as `write` prints it with `%d`. -/
def printed (report : Report) : Int :=
  report.seq.toInt32.toInt

end Recording

open Transition in
/- The receiver under commands and packets. -/
def recording : System Recording RecordingStep where
  init := .init
  step := Recording.step

end FzEvent

------------------------------------------------------------
-- Numbers and Places
------------------------------------------------------------

namespace FzEvent

namespace Recording

/-
  The player gives the number `k` to the packet that is the
  k-th in the file.
-/
def LoadedInPlace
    (events : List DevicePacketEvent)
    (file : List UInt8) : Prop :=
  ∀ (k : Nat) (hLt : k < events.length),
    ∃ p, (readEvent .empty (some file)).1.getEventData k =
        some p ∧
      p.seq = k ∧
      p.eventCount = events[k].count ∧
      p.e = events[k].entries.map (playedEntry events[k].type)

/-
  The report of a packet is printed with the number of the
  packets that the open file holds before it. When the file is
  closed, the player loads its packets under these numbers,
  provided that no time in it reads as a marker.
-/
def NamesPlace
    (s : Recording) : RecordingStep → Prop
| .start => True
| .stop =>
    ∀ t, s.step .stop = some t →
      ∃ file, t.rcv.closed = file :: s.rcv.closed ∧
        ((∀ e ∈ s.inFile, HasTimes e) →
          LoadedInPlace s.inFile file)
| .packet tv e =>
    ∀ t, s.step (.packet tv e) = some t →
      t.inFile = s.inFile ++ [e] ∧
        ∃ report, t.rcv.reports = s.rcv.reports ++ [report] ∧
          printed report = s.inFile.length

/-
  A packet comes while no `r` has come behind an earlier one
  of its file, and its place is a positive `int`.
-/
def Numbered
    (s : Recording) : RecordingStep → Prop
| .packet _ _ =>
    s.restarted = false ∧ s.inFile.length < 2 ^ 31
| _ => True

/-
  Closed, or the file holds the packets and the number counts
  those since the last `r`, which are all of them unless an
  `r` came in between.
-/
structure Counts (s : Recording) : Prop where
  closed :
    s.rcv.sFpEvt = none → s.inFile = [] ∧ s.restarted = false
  open_eq :
    ∀ file, s.rcv.sFpEvt = some file →
      file = s.inFile.flatMap encodeGroup ∧
        ∃ k, s.rcv.sEventSequence = UInt32.ofNat k ∧
          k ≤ s.inFile.length ∧
          (s.restarted = true ↔ k < s.inFile.length)

/- A packet in an open file is reported and written. -/
theorem step_packet_of_open
    {s : Recording}
    {file : List UInt8}
    (hOpen : s.rcv.sFpEvt = some file)
    (tv : Timeval)
    (e : DevicePacketEvent) :
    s.step (.packet tv e) =
      some { s with
        rcv :=
          { s.rcv.reportEvent tv e with
            sFpEvt := some (file ++ encodeGroup e) }
        inFile := s.inFile ++ [e] } := by
  have hOpen' : (s.rcv.reportEvent tv e).sFpEvt = some file := by
    rw [CEvtRcv.sFpEvt_reportEvent, hOpen]
  rw [step, CEvtRcv.writeEventFile_of_open hOpen']
  rfl

theorem step_packet_of_closed
    {s : Recording}
    (hClosed : s.rcv.sFpEvt = none)
    (tv : Timeval)
    (e : DevicePacketEvent) :
    s.step (.packet tv e) = none := by
  simp [step, CEvtRcv.writeEventFile, hClosed]

/- The report takes the number. -/
theorem exists_report
    (rcv : CEvtRcv)
    (tv : Timeval)
    (e : DevicePacketEvent) :
    ∃ report, (rcv.reportEvent tv e).reports =
        rcv.reports ++ [report] ∧
      report.seq = rcv.sEventSequence :=
  ⟨_, rfl, rfl⟩

theorem counts_init : init.Counts where
  closed _ := ⟨rfl, rfl⟩
  open_eq file hOpen := by cases hOpen

theorem counts_start
    {s t : Recording}
    (hCounts : s.Counts)
    (hStep : s.step .start = some t) :
    t.Counts := by
  simp only [step, Option.some.injEq] at hStep
  subst hStep
  cases hFile : s.rcv.sFpEvt with
  | none =>
      have hEmpty := hCounts.closed hFile
      refine ⟨?_, ?_⟩
      · intro hClosed
        simp [CEvtRcv.makeEventFile, hFile] at hClosed
      · intro file hOpen
        simp only [CEvtRcv.makeEventFile, hFile,
          Option.some.injEq] at hOpen
        subst hOpen
        exact ⟨by simp [hEmpty.1], 0, rfl, by simp,
          by simp [hEmpty]⟩
  | some old =>
      rcases hCounts.open_eq old hFile with
        ⟨hContent, k, _, hLe, hRestarted⟩
      refine ⟨?_, ?_⟩
      · intro hClosed
        simp [CEvtRcv.makeEventFile, hFile] at hClosed
      · intro file hOpen
        simp only [CEvtRcv.makeEventFile, hFile,
          Option.some.injEq] at hOpen
        subst hOpen
        -- the number is 0 now, whatever the file holds
        refine ⟨hContent, 0, rfl, by simp, ?_⟩
        simp only [Bool.or_eq_true, decide_eq_true_eq]
        constructor
        · rintro (hAgain | hSome)
          · have hLt := hRestarted.mp hAgain
            omega
          · exact List.length_pos_iff.mpr hSome
        · intro hPos
          exact Or.inr (List.length_pos_iff.mp hPos)

theorem counts_packet
    {s t : Recording}
    {tv : Timeval}
    {e : DevicePacketEvent}
    (hCounts : s.Counts)
    (hStep : s.step (.packet tv e) = some t) :
    t.Counts := by
  cases hFile : s.rcv.sFpEvt with
  | none =>
      rw [step_packet_of_closed hFile] at hStep
      cases hStep
  | some old =>
      rw [step_packet_of_open hFile, Option.some.injEq]
        at hStep
      subst hStep
      rcases hCounts.open_eq old hFile with
        ⟨hContent, k, hSeq, hLe, hRestarted⟩
      refine ⟨by simp, ?_⟩
      intro file hOpen
      simp only [Option.some.injEq] at hOpen
      subst hOpen
      refine ⟨by simp [hContent], k + 1, ?_, ?_, ?_⟩
      · simp [CEvtRcv.reportEvent, CEvtRcv.write, hSeq]
      · simp only [List.length_append, List.length_singleton]
        omega
      · simp only [hRestarted, List.length_append,
          List.length_singleton]
        omega

/- The step lemma. -/
theorem counts_step
    {s t : Recording}
    {l : RecordingStep}
    (hCounts : s.Counts)
    (hStep : s.step l = some t) :
    t.Counts := by
  cases l with
  | start => exact counts_start hCounts hStep
  | stop =>
      simp only [step, Option.map_eq_some_iff] at hStep
      rcases hStep with ⟨rcv, hClose, rfl⟩
      refine ⟨fun _ => ⟨rfl, rfl⟩, ?_⟩
      intro file hOpen
      simp [CEvtRcv.sFpEvt_of_closeEventFile hClose] at hOpen
  | packet tv e => exact counts_packet hCounts hStep

/-
  A counted number up to `n` is printed as `n` only if it is
  `n`, and an `int` has room for it.
-/
theorem printed_eq_iff
    {k n : Nat}
    (hLe : k ≤ n) :
    (UInt32.ofNat k).toInt32.toInt = (n : Int) ↔
      k = n ∧ n < 2 ^ 31 := by
  have hSize : (Int32.size : Nat) = 2 ^ 32 := rfl
  rw [UInt32.toInt32_ofNat', Int32.toInt_ofNat', Int.bmod,
    hSize]
  split <;> omega

end Recording

end FzEvent

------------------------------------------------------------
-- The Written File
------------------------------------------------------------

namespace FzEvent

/- What a closed file holds is loaded in its place. -/
theorem loaded_of_written
    {events : List DevicePacketEvent}
    (hTimes : ∀ e ∈ events, HasTimes e) :
    Recording.LoadedInPlace events
      (events.flatMap encodeGroup ++ endOfFile) := by
  intro k hLt
  have hNode := getEventData_insertGroups_records
    (List.getElem?_eq_getElem hLt)
  refine
    ⟨⟨k, lastId (-1) events[k].records,
      events[k].records.length,
      events[k].records.map FileRecord.stored⟩,
      ?_, rfl, ?_, ?_⟩
  · rw [encodeFile_records,
      readEvent_encodeFile (groupTimes_map_records hTimes)]
    exact hNode
  · simp [DevicePacketEvent.records, DevicePacketEvent.count]
  · exact stored_records events[k]

end FzEvent

------------------------------------------------------------
-- Report Numbers
------------------------------------------------------------

namespace FzEvent

open Transition

namespace Recording

/- At every stop the closed file is loaded in its places. -/
theorem namesPlace_stop
    {s : Recording}
    (hCounts : s.Counts) :
    s.NamesPlace .stop := by
  intro t hStep
  simp only [step, Option.map_eq_some_iff] at hStep
  rcases hStep with ⟨rcv, hClose, rfl⟩
  cases hFile : s.rcv.sFpEvt with
  | none => simp [CEvtRcv.closeEventFile, hFile] at hClose
  | some file =>
      rw [CEvtRcv.closeEventFile_of_open hFile,
        Option.some.injEq] at hClose
      subst hClose
      refine ⟨file ++ endOfFile, rfl, ?_⟩
      intro hTimes
      rw [(hCounts.open_eq file hFile).1]
      exact loaded_of_written hTimes

/- The number of a packet is right as the condition says. -/
theorem namesPlace_packet_iff
    {s : Recording}
    (hCounts : s.Counts)
    (tv : Timeval)
    (e : DevicePacketEvent) :
    s.NamesPlace (.packet tv e) ↔
      s.restarted = false ∧ s.inFile.length < 2 ^ 31 := by
  cases hFile : s.rcv.sFpEvt with
  | none =>
      have hEmpty := hCounts.closed hFile
      constructor
      · intro _
        exact ⟨hEmpty.2, by simp [hEmpty.1]⟩
      · intro _ t hStep
        rw [step_packet_of_closed hFile] at hStep
        cases hStep
  | some file =>
      rcases hCounts.open_eq file hFile with
        ⟨_, k, hSeq, hLe, hRestarted⟩
      rcases exists_report s.rcv tv e with
        ⟨report, hReports, hReport⟩
      have hNumber :
          printed report = s.inFile.length ↔
            k = s.inFile.length ∧
              s.inFile.length < 2 ^ 31 := by
        rw [printed, hReport, hSeq]
        exact printed_eq_iff hLe
      have hAll :
          s.restarted = false ↔ k = s.inFile.length := by
        rw [← Bool.not_eq_true, hRestarted]
        omega
      rw [hAll, ← hNumber, NamesPlace,
        step_packet_of_open hFile]
      constructor
      · intro hNames
        rcases hNames _ rfl with ⟨_, other, hOther, hRight⟩
        have hSame : other = report := by
          simpa using hOther.symm.trans hReports
        rwa [hSame] at hRight
      · intro hRight t hStep
        cases hStep
        exact ⟨rfl, report, hReports, hRight⟩

theorem namesPlace_iff_of_counts
    {s : Recording}
    (hCounts : s.Counts)
    (l : RecordingStep) :
    s.NamesPlace l ↔ s.Numbered l := by
  cases l with
  | start => exact Iff.rfl
  | stop => exact iff_of_true (namesPlace_stop hCounts) trivial
  | packet tv e => exact namesPlace_packet_iff hCounts tv e

end Recording

/-
  In a run the reports name the places of their packets
  exactly if no packet comes behind an `r` that came behind
  another packet of the same file.
-/
theorem namesPlace_iff_numbered
    (ls : List RecordingStep) :
    recording.Meets Recording.NamesPlace recording.init ls ↔
      recording.Meets Recording.Numbered recording.init ls :=
  recording.meets_iff_of_invariant Recording.Counts
    (fun _ _ _ hCounts hStep =>
      Recording.counts_step hCounts hStep)
    (fun _ l hCounts =>
      Recording.namesPlace_iff_of_counts hCounts l)
    Recording.counts_init ls

/- A press of the power key. -/
def keyPacket : DevicePacketEvent :=
  ⟨evKey, 0, [⟨⟨1, 0⟩, -1, 116, 1⟩]⟩

/-
  A second `r` without a `t`: the second packet of the file is
  reported with number 0 again.
-/
theorem not_namesPlace_startTwice :
    ¬ recording.Meets Recording.NamesPlace recording.init
      [.start, .packet ⟨1, 0⟩ keyPacket, .start,
        .packet ⟨2, 0⟩ keyPacket] := by
  rw [System.meets_iff_forall_split]
  intro hAll
  have hLast :=
    hAll [.start, .packet ⟨1, 0⟩ keyPacket, .start]
      (.packet ⟨2, 0⟩ keyPacket) [] _ rfl rfl
  rcases hLast _ rfl with ⟨_, report, hReports, hPrinted⟩
  have hReports' :
      [(⟨0, ⟨1, 0⟩, .key, keyPacket⟩ : Report),
          ⟨0, ⟨2, 0⟩, .key, keyPacket⟩] =
        [⟨0, ⟨1, 0⟩, .key, keyPacket⟩] ++ [report] := hReports
  simp only [List.cons_append, List.nil_append,
    List.cons.injEq, and_true, true_and] at hReports'
  rw [← hReports'] at hPrinted
  exact absurd hPrinted (by decide)

end FzEvent

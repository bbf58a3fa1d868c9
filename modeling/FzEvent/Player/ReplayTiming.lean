import FzEvent.Lib.Words
import FzEvent.Player.PlayEvent
import Mathlib.Algebra.BigOperators.Group.List.Basic
import Mathlib.Algebra.Order.Ring.Int

/-
  The waits of `play_event`: what it requests and writes, in
  its order. The code is the same in the player and in the
  recorder's player.

  A wait is the gap between two entries, except that a gap of
  100 microseconds or less is not waited for. The previous
  time is updated by every entry, so nothing of a gap is lost
  on the next one.

  Main declarations:
    * `FzEvent.timersub` and `Timeval.IsNormal`
    * `FzEvent.PlayAct` and `FzEvent.replayEvent`
    * `FzEvent.writes_replayEvent`
    * `FzEvent.replay_timing`
-/

------------------------------------------------------------
-- Time Values
------------------------------------------------------------

namespace FzEvent

open Words

/- `timersub` -/
def timersub (a b : Timeval) : Timeval :=
  let tvSec := a.tvSec - b.tvSec
  let tvUsec := a.tvUsec - b.tvUsec
  if tvUsec < 0 then
    ⟨tvSec - 1, tvUsec + 1000000⟩
  else
    ⟨tvSec, tvUsec⟩

/- The fields are those of a time, or of a valid wait. -/
structure Timeval.IsNormal (tv : Timeval) : Prop where
  sec_nonneg : 0 ≤ tv.tvSec.toInt
  usec_nonneg : 0 ≤ tv.tvUsec.toInt
  usec_lt : tv.tvUsec.toInt < 1000000

instance (tv : Timeval) : Decidable tv.IsNormal :=
  decidable_of_iff
    (0 ≤ tv.tvSec.toInt ∧ 0 ≤ tv.tvUsec.toInt ∧
      tv.tvUsec.toInt < 1000000)
    ⟨fun h => ⟨h.1, h.2.1, h.2.2⟩, fun h => ⟨h.1, h.2, h.3⟩⟩

/- The time in microseconds. -/
def Timeval.micros (tv : Timeval) : Int :=
  tv.tvSec.toInt * 1000000 + tv.tvUsec.toInt

theorem toInt_zero : (0 : Int32).toInt = 0 := rfl

theorem toInt_one : (1 : Int32).toInt = 1 := rfl

theorem toInt_million :
    (1000000 : Int32).toInt = 1000000 := rfl

/-
  Between normal times in order the difference is normal, and
  exact: the borrow is taken from seconds that are there.
-/
theorem timersub_exact
    {a b : Timeval}
    (hA : a.IsNormal)
    (hB : b.IsNormal)
    (hLe : b.micros ≤ a.micros) :
    (timersub a b).IsNormal ∧
      (timersub a b).micros = a.micros - b.micros := by
  rcases hA with ⟨hSecA, hUsecA, hUsecALt⟩
  rcases hB with ⟨hSecB, hUsecB, hUsecBLt⟩
  have hSecALt := a.tvSec.toInt_lt
  have hSecBLt := b.tvSec.toInt_lt
  have hSec :
      (a.tvSec - b.tvSec).toInt =
        a.tvSec.toInt - b.tvSec.toInt := by
    apply toInt_sub_of_bounds <;> omega
  have hUsec :
      (a.tvUsec - b.tvUsec).toInt =
        a.tvUsec.toInt - b.tvUsec.toInt := by
    apply toInt_sub_of_bounds <;> omega
  rw [Timeval.micros, Timeval.micros] at hLe
  rw [timersub]
  split
  · rename_i hBorrow
    rw [Int32.lt_iff_toInt_lt, hUsec, toInt_zero] at hBorrow
    have hSecLess :
        (a.tvSec - b.tvSec - 1).toInt =
          a.tvSec.toInt - b.tvSec.toInt - 1 := by
      rw [toInt_sub_of_bounds, hSec, toInt_one] <;>
        rw [hSec, toInt_one] <;> omega
    have hUsecMore :
        (a.tvUsec - b.tvUsec + 1000000).toInt =
          a.tvUsec.toInt - b.tvUsec.toInt + 1000000 := by
      rw [toInt_add_of_bounds, hUsec, toInt_million] <;>
        rw [hUsec, toInt_million] <;> omega
    refine ⟨⟨?_, ?_, ?_⟩, ?_⟩
    · rw [hSecLess]
      omega
    · rw [hUsecMore]
      omega
    · rw [hUsecMore]
      omega
    · rw [Timeval.micros, Timeval.micros, Timeval.micros,
        hSecLess, hUsecMore]
      omega
  · rename_i hNoBorrow
    rw [Int32.lt_iff_toInt_lt, hUsec, toInt_zero] at hNoBorrow
    refine ⟨⟨?_, ?_, ?_⟩, ?_⟩
    · rw [hSec]
      omega
    · rw [hUsec]
      omega
    · rw [hUsec]
      omega
    · rw [Timeval.micros, Timeval.micros, Timeval.micros,
        hSec, hUsec]
      omega

end FzEvent

------------------------------------------------------------
-- Waits and Writes
------------------------------------------------------------

namespace FzEvent

/- What `play_event` does: `select` for a time, or a write. -/
inductive PlayAct
| delay (tv : Timeval)
| write (event : InputEvent)
deriving DecidableEq, Repr

namespace PlayAct

def written : PlayAct → Option InputEvent
| .delay _ => none
| .write event => some event

def requested : PlayAct → Option Timeval
| .delay tv => some tv
| .write _ => none

end PlayAct

/- The wait in front of an entry, if there is one. -/
def waitBefore
    (prevTime : Timeval)
    (event : InputEvent) : List Timeval :=
  if prevTime.tvUsec ≠ -1 then
    let diffTime := timersub event.time prevTime
    if 0 < diffTime.tvSec ∨ 100 < diffTime.tvUsec then
      [diffTime]
    else
      []
  else
    []

/- One round of the loop. -/
def replayRound
    (prevTime : Timeval)
    (event : InputEvent) : List PlayAct :=
  (waitBefore prevTime event).map PlayAct.delay ++
    [.write event]

/- `prev_time` before the loop. -/
def noTime : Timeval :=
  ⟨-1, -1⟩

/- `n` rounds of the loop, and `prev_time` behind them. -/
def replayLoop
    (e : List InputEvent) :
    Nat → Option (List PlayAct × Timeval)
| 0 => some ([], noTime)
| n + 1 => do
    let before ← replayLoop e n
    let event ← e[n]?
    return (before.1 ++ replayRound before.2 event, event.time)

/- `report` -/
def reportAt (prevTime : Timeval) : InputEvent where
  time := prevTime
  type := 0
  code := 0
  value := 0

/- `play_event` with its waits. -/
def replayEvent
    (list : EventList)
    (seq : Int) : Option (Int32 × List PlayAct) := do
  let p ← list.getEventData seq
  let acts ← replayLoop p.e p.eventCount.toNat
  return (p.id, acts.1 ++ [.write (reportAt acts.2)])

/- `prev_time` behind some entries. -/
def timeBehind
    (prevTime : Timeval)
    (e : List InputEvent) : Timeval :=
  e.foldl (fun _ event => event.time) prevTime

/- The rounds over some entries. -/
def roundsFrom
    (prevTime : Timeval) : List InputEvent → List PlayAct
| [] => []
| event :: rest =>
    replayRound prevTime event ++ roundsFrom event.time rest

theorem roundsFrom_append
    (prevTime : Timeval)
    (e rest : List InputEvent) :
    roundsFrom prevTime (e ++ rest) =
      roundsFrom prevTime e ++
        roundsFrom (timeBehind prevTime e) rest := by
  induction e generalizing prevTime with
  | nil => rfl
  | cons event e ih =>
      rw [List.cons_append, roundsFrom, roundsFrom, ih,
        List.append_assoc]
      rfl

/- Inside the array the loop goes through its first entries. -/
theorem replayLoop_of_le
    {e : List InputEvent}
    {n : Nat}
    (hLe : n ≤ e.length) :
    replayLoop e n =
      some (roundsFrom noTime (e.take n),
        timeBehind noTime (e.take n)) := by
  induction n with
  | zero => rfl
  | succ n ih =>
      have hLt : n < e.length := hLe
      rw [replayLoop, ih (Nat.le_of_lt hLt),
        List.getElem?_eq_getElem hLt,
        ← List.take_append_getElem hLt, roundsFrom_append,
        timeBehind, timeBehind, List.foldl_append]
      simp [roundsFrom]

end FzEvent

------------------------------------------------------------
-- What Is Written
------------------------------------------------------------

namespace FzEvent

open PlayAct

theorem written_replayRound
    (prevTime : Timeval)
    (event : InputEvent) :
    (replayRound prevTime event).filterMap written =
      [event] := by
  rw [replayRound, List.filterMap_append,
    List.filterMap_map]
  simp [Function.comp_def, written]

/- The report behind the loop is the closing one. -/
theorem reportAt_timeBehind
    (e : List InputEvent) :
    reportAt (timeBehind noTime e) = closingReport e := by
  rcases List.eq_nil_or_concat e with rfl | ⟨front, last, rfl⟩
  · rfl
  · rw [List.concat_eq_append, timeBehind, List.foldl_append,
      closingReport]
    simp [reportAt]

theorem replayLoop_written
    (e : List InputEvent)
    (n : Nat) :
    (replayLoop e n).map
        (fun acts => acts.1.filterMap written) =
      playLoop e n ∧
    ∀ acts, replayLoop e n = some acts →
      acts.2 =
        timeBehind noTime (acts.1.filterMap written) := by
  induction n with
  | zero =>
      refine ⟨rfl, ?_⟩
      intro acts hActs
      cases hActs
      rfl
  | succ n ih =>
      rcases ih with ⟨ihWrites, ihTime⟩
      rw [playLoop, ← ihWrites, replayLoop]
      cases hBefore : replayLoop e n with
      | none => simp
      | some before =>
          cases hEvent : e[n]? with
          | none => simp
          | some event =>
              simp [List.filterMap_append,
                written_replayRound, timeBehind,
                List.foldl_append]

/- `play_event` without its waits. -/
theorem writes_replayEvent
    (list : EventList)
    (seq : Int) :
    (replayEvent list seq).map
        (fun acts => (acts.1, acts.2.filterMap written)) =
      playEvent list seq := by
  rw [replayEvent, playEvent]
  cases list.getEventData seq with
  | none => rfl
  | some p =>
      rcases replayLoop_written p.e p.eventCount.toNat with
        ⟨hWrites, hTime⟩
      simp only [Option.bind_eq_bind, Option.bind_some,
        ← hWrites]
      cases hActs : replayLoop p.e p.eventCount.toNat with
      | none => rfl
      | some acts =>
          have hReport := hTime acts hActs
          simp [List.filterMap_append, hReport,
            reportAt_timeBehind, written]

end FzEvent

------------------------------------------------------------
-- The Waits
------------------------------------------------------------

namespace FzEvent

open PlayAct

/- The waits in front of each write. -/
def waitsBefore :
    List Timeval → List PlayAct → List (List Timeval)
| _, [] => []
| waits, .delay tv :: acts => waitsBefore (waits ++ [tv]) acts
| waits, .write _ :: acts => waits :: waitsBefore [] acts

/- The waits in front of each entry. -/
def waitsFrom
    (prevTime : Timeval) :
    List InputEvent → List (List Timeval)
| [] => []
| event :: rest =>
    waitBefore prevTime event :: waitsFrom event.time rest

theorem waitsBefore_delays
    (waits more : List Timeval)
    (event : InputEvent)
    (acts : List PlayAct) :
    waitsBefore waits
        (more.map PlayAct.delay ++ .write event :: acts) =
      (waits ++ more) :: waitsBefore [] acts := by
  induction more generalizing waits with
  | nil => simp [waitsBefore]
  | cons tv more ih =>
      rw [List.map_cons, List.cons_append, waitsBefore, ih,
        List.append_assoc, List.singleton_append]

theorem waitsBefore_roundsFrom
    (prevTime : Timeval)
    (e : List InputEvent)
    (acts : List PlayAct) :
    waitsBefore [] (roundsFrom prevTime e ++ acts) =
      waitsFrom prevTime e ++ waitsBefore [] acts := by
  induction e generalizing prevTime with
  | nil => rfl
  | cons event e ih =>
      rw [roundsFrom, replayRound, List.append_assoc,
        List.append_assoc, List.singleton_append,
        waitsBefore_delays, ih, waitsFrom]
      rfl

theorem requested_roundsFrom
    (prevTime : Timeval)
    (e : List InputEvent) :
    (roundsFrom prevTime e).filterMap requested =
      (waitsFrom prevTime e).flatten := by
  induction e generalizing prevTime with
  | nil => rfl
  | cons event e ih =>
      rw [roundsFrom, List.filterMap_append, ih, waitsFrom,
        List.flatten_cons, replayRound, List.filterMap_append,
        List.filterMap_map]
      simp [Function.comp_def, requested]

theorem written_roundsFrom
    (prevTime : Timeval)
    (e : List InputEvent) :
    (roundsFrom prevTime e).filterMap written = e := by
  induction e generalizing prevTime with
  | nil => rfl
  | cons event e ih =>
      rw [roundsFrom, List.filterMap_append, ih,
        written_replayRound]
      rfl

/-
  The wait is the gap, or it is left out and the gap is at
  most 100 microseconds.
-/
def IsWait
    (before event : InputEvent)
    (waits : List Timeval) : Prop :=
  (∃ tv,
    waits = [tv] ∧ tv.IsNormal ∧
      tv.micros = event.time.micros - before.time.micros) ∨
  (waits = [] ∧
    event.time.micros - before.time.micros ≤ 100)

/- One round waits as it should. -/
theorem isWait_waitBefore
    {before event : InputEvent}
    (hBefore : before.time.IsNormal)
    (hEvent : event.time.IsNormal)
    (hLe : before.time.micros ≤ event.time.micros) :
    IsWait before event (waitBefore before.time event) := by
  rcases timersub_exact hEvent hBefore hLe with
    ⟨hNormal, hExact⟩
  have hTime : before.time.tvUsec ≠ -1 := by
    intro hNone
    have hUsec := hBefore.usec_nonneg
    rw [hNone] at hUsec
    exact absurd hUsec (by decide)
  rw [waitBefore, if_pos hTime]
  dsimp only
  split
  · exact Or.inl ⟨_, rfl, hNormal, hExact⟩
  · rename_i hSkip
    rw [not_or, Int32.lt_iff_toInt_lt,
      Int32.lt_iff_toInt_lt] at hSkip
    have hHundred : (100 : Int32).toInt = 100 := rfl
    rw [toInt_zero, hHundred] at hSkip
    refine Or.inr ⟨rfl, ?_⟩
    have hSec := hNormal.sec_nonneg
    rw [← hExact, Timeval.micros]
    omega

/- Entries with normal times that never go back. -/
structure InOrder (e : List InputEvent) : Prop where
  normal : ∀ event ∈ e, event.time.IsNormal
  sorted :
    e.Pairwise fun a b => a.time.micros ≤ b.time.micros

namespace InOrder

variable {first second : InputEvent}
variable {rest : List InputEvent}

theorem tail
    (hOrder : InOrder (first :: rest)) :
    InOrder rest where
  normal event hMem :=
    hOrder.normal event (List.mem_cons_of_mem _ hMem)
  sorted := (List.pairwise_cons.mp hOrder.sorted).2

/- The wait in front of the second entry. -/
theorem isWait
    (hOrder : InOrder (first :: second :: rest)) :
    IsWait first second (waitBefore first.time second) := by
  apply isWait_waitBefore
  · exact hOrder.normal first List.mem_cons_self
  · exact hOrder.normal second
      (List.mem_cons_of_mem _ List.mem_cons_self)
  · exact (List.pairwise_cons.mp hOrder.sorted).1 second
      List.mem_cons_self

end InOrder

/- The step lemma along the entries: every wait is right. -/
theorem waitsFrom_isWait
    {first : InputEvent}
    {rest : List InputEvent}
    (hOrder : InOrder (first :: rest))
    {i : Nat}
    {before event : InputEvent}
    (hBefore : (first :: rest)[i]? = some before)
    (hEvent : rest[i]? = some event) :
    ∃ waits,
      (waitsFrom first.time rest)[i]? = some waits ∧
        IsWait before event waits := by
  induction rest generalizing first i with
  | nil => cases hEvent
  | cons second rest ih =>
      cases i with
      | zero =>
          cases hBefore
          cases hEvent
          exact ⟨_, rfl, hOrder.isWait⟩
      | succ i =>
          rw [List.getElem?_cons_succ] at hBefore hEvent
          exact ih hOrder.tail hBefore hEvent

theorem length_waitsFrom
    (prevTime : Timeval)
    (e : List InputEvent) :
    (waitsFrom prevTime e).length = e.length := by
  induction e generalizing prevTime with
  | nil => rfl
  | cons event e ih =>
      rw [waitsFrom, List.length_cons, ih, List.length_cons]

/- All waits are valid. -/
theorem waitsFrom_normal
    {first : InputEvent}
    {rest : List InputEvent}
    (hOrder : InOrder (first :: rest)) :
    ∀ tv ∈ (waitsFrom first.time rest).flatten,
      tv.IsNormal := by
  induction rest generalizing first with
  | nil => simp [waitsFrom]
  | cons second rest ih =>
      intro tv hMem
      rw [waitsFrom, List.flatten_cons,
        List.mem_append] at hMem
      rcases hMem with hHere | hLater
      · rcases hOrder.isWait with
          ⟨wait, hWait, hNormal, _⟩ | ⟨hNone, _⟩
        · rw [hWait, List.mem_singleton] at hHere
          rw [hHere]
          exact hNormal
        · rw [hNone] at hHere
          cases hHere
      · exact ih hOrder.tail tv hLater

/- The waits in microseconds. -/
def total (waits : List Timeval) : Int :=
  (waits.map Timeval.micros).sum

theorem total_append
    (waits more : List Timeval) :
    total (waits ++ more) = total waits + total more := by
  rw [total, List.map_append, List.sum_append]
  rfl

/-
  What is waited is the span, but for 100 microseconds at most
  in front of each entry.
-/
theorem total_waitsFrom
    {first : InputEvent}
    {rest : List InputEvent}
    (hOrder : InOrder (first :: rest)) :
    total (waitsFrom first.time rest).flatten ≤
        (timeBehind first.time rest).micros -
          first.time.micros ∧
      (timeBehind first.time rest).micros -
          first.time.micros ≤
        total (waitsFrom first.time rest).flatten +
          100 * rest.length := by
  induction rest generalizing first with
  | nil => simp [waitsFrom, timeBehind, total]
  | cons second rest ih =>
      rcases ih hOrder.tail with ⟨ihLow, ihHigh⟩
      have hLe :=
        (List.pairwise_cons.mp hOrder.sorted).1 second
          List.mem_cons_self
      have hBehind :
          timeBehind first.time (second :: rest) =
            timeBehind second.time rest := rfl
      rw [waitsFrom, List.flatten_cons, total_append, hBehind,
        List.length_cons, Nat.cast_succ]
      rcases hOrder.isWait with
        ⟨wait, hWait, _, hExact⟩ | ⟨hNone, hShort⟩
      · have hTotal : total [wait] = wait.micros := by
          simp [total]
        rw [hWait, hTotal]
        omega
      · have hTotal : total [] = 0 := rfl
        rw [hNone, hTotal]
        omega

end FzEvent

------------------------------------------------------------
-- Replay Timing
------------------------------------------------------------

namespace FzEvent

open PlayAct

/-
  The acts write the entries and the report, and wait between
  them as long as was recorded, up to 100 microseconds for
  each gap.
-/
structure ReplayTimed
    (e : List InputEvent)
    (first last : InputEvent)
    (acts : List PlayAct) : Prop where
  writes :
    acts.filterMap written = e ++ [reportAt last.time]
  valid : ∀ tv ∈ acts.filterMap requested, tv.IsNormal
  first_wait : (waitsBefore [] acts)[0]? = some []
  gaps :
    ∀ (i : Nat) (before event : InputEvent),
      e[i]? = some before → e[i + 1]? = some event →
        ∃ waits,
          (waitsBefore [] acts)[i + 1]? = some waits ∧
            IsWait before event waits
  report_wait : (waitsBefore [] acts)[e.length]? = some []
  total_le :
    total (acts.filterMap requested) ≤
      last.time.micros - first.time.micros
  span_le :
    last.time.micros - first.time.micros ≤
      total (acts.filterMap requested) +
        100 * (e.length - 1)

theorem timeBehind_eq_last
    {e : List InputEvent}
    {last : InputEvent}
    (hLast : e.getLast? = some last)
    (prevTime : Timeval) :
    timeBehind prevTime e = last.time := by
  rcases List.eq_nil_or_concat e with rfl | ⟨front, b, rfl⟩
  · cases hLast
  · rw [List.concat_eq_append,
      List.getLast?_concat] at hLast
    cases hLast
    rw [List.concat_eq_append, timeBehind,
      List.foldl_append]
    rfl

/- What is done for these entries. -/
def replayActs (e : List InputEvent) : List PlayAct :=
  roundsFrom noTime e ++ [.write (closingReport e)]

/- A node that knows its length is replayed to its end. -/
theorem replayEvent_of_getEventData
    {list : EventList}
    {seq : Int}
    {p : EventNode}
    (hData : list.getEventData seq = some p)
    (hCount : p.eventCount = p.e.length) :
    replayEvent list seq = some (p.id, replayActs p.e) := by
  have hRounds :
      replayLoop p.e p.eventCount.toNat =
        some (roundsFrom noTime p.e,
          timeBehind noTime p.e) := by
    rw [hCount, Int.toNat_natCast,
      replayLoop_of_le (Nat.le_refl _), List.take_length]
  rw [replayEvent, hData]
  simp only [Option.bind_eq_bind, Option.bind_some, hRounds,
    reportAt_timeBehind]
  rfl

variable {first last : InputEvent}
variable {rest : List InputEvent}

/- In front of the first entry nothing is waited for. -/
theorem waitsBefore_replayActs :
    waitsBefore [] (replayActs (first :: rest)) =
      [] :: (waitsFrom first.time rest ++ [[]]) := by
  rw [replayActs, waitsBefore_roundsFrom, waitsFrom]
  rfl

theorem requested_replayActs :
    (replayActs (first :: rest)).filterMap requested =
      (waitsFrom first.time rest).flatten := by
  have hFirst : waitBefore noTime first = [] := rfl
  have hReport :
      [PlayAct.write (closingReport (first :: rest))].filterMap
          requested = [] := rfl
  rw [replayActs, List.filterMap_append,
    requested_roundsFrom, waitsFrom, hFirst, hReport,
    List.append_nil, List.flatten_cons, List.nil_append]

/- Entries in order are replayed in time. -/
theorem replayTimed_replayActs
    (hOrder : InOrder (first :: rest))
    (hLast : (first :: rest).getLast? = some last) :
    ReplayTimed (first :: rest) first last
      (replayActs (first :: rest)) := by
  have hBehind : timeBehind first.time rest = last.time :=
    timeBehind_eq_last hLast noTime
  have hSpan := total_waitsFrom hOrder
  rw [hBehind] at hSpan
  have hLength := length_waitsFrom first.time rest
  refine
    { writes := ?_
      valid := ?_
      first_wait := ?_
      gaps := ?_
      report_wait := ?_
      total_le := ?_
      span_le := ?_ }
  · rw [replayActs, List.filterMap_append,
      written_roundsFrom, ← reportAt_timeBehind,
      timeBehind_eq_last hLast noTime]
    rfl
  · rw [requested_replayActs]
    exact waitsFrom_normal hOrder
  · rw [waitsBefore_replayActs]
    rfl
  · intro i before event hBefore hEvent
    rw [List.getElem?_cons_succ] at hEvent
    rcases waitsFrom_isWait hOrder hBefore hEvent with
      ⟨waits, hGet, hIs⟩
    refine ⟨waits, ?_, hIs⟩
    rw [waitsBefore_replayActs, List.getElem?_cons_succ,
      List.getElem?_append_left, hGet]
    exact (List.getElem?_eq_some_iff.mp hGet).1
  · rw [waitsBefore_replayActs, List.length_cons,
      List.getElem?_cons_succ, ← hLength,
      List.getElem?_append_right (Nat.le_refl _),
      Nat.sub_self]
    rfl
  · rw [requested_replayActs]
    exact hSpan.1
  · rw [requested_replayActs, List.length_cons,
      Nat.cast_succ, Int.add_sub_cancel]
    exact hSpan.2

/- An event is replayed with the times it was recorded with. -/
theorem replay_timing
    {list : EventList}
    {seq : Int}
    {p : EventNode}
    (hData : list.getEventData seq = some p)
    (hCount : p.eventCount = p.e.length)
    (hEntries : p.e ≠ [])
    (hOrder : InOrder p.e) :
    ∃ first last acts,
      p.e.head? = some first ∧ p.e.getLast? = some last ∧
        replayEvent list seq = some (p.id, acts) ∧
        playEvent list seq =
          some (p.id, acts.filterMap PlayAct.written) ∧
        ReplayTimed p.e first last acts := by
  have hRun := replayEvent_of_getEventData hData hCount
  have hWrites := writes_replayEvent list seq
  rw [hRun] at hWrites
  cases hE : p.e with
  | nil => exact absurd hE hEntries
  | cons first rest =>
      rw [hE] at hOrder hRun hWrites
      have hLast := List.getLast?_eq_some_getLast
        (List.cons_ne_nil first rest)
      exact ⟨first, _, _, rfl, hLast, hRun, hWrites.symm,
        replayTimed_replayActs hOrder hLast⟩

/- A touch, a position 60 microseconds later, and a report. -/
def tapEntries : List InputEvent :=
  [⟨⟨1, 999950⟩, 3, 57, 5⟩, ⟨⟨2, 10⟩, 3, 53, 100⟩,
    ⟨⟨3, 5⟩, 0, 0, 0⟩]

theorem replay_timing_tapEntries :
    ∃ first last acts,
      replayEvent (EventList.empty.insert 3 3 tapEntries) 0 =
          some (3, acts) ∧
        ReplayTimed tapEntries first last acts := by
  have hOrder : InOrder tapEntries :=
    ⟨by decide, by decide⟩
  have hData :
      (EventList.empty.insert 3 3 tapEntries).getEventData 0 =
        some ⟨0, 3, 3, tapEntries⟩ := rfl
  rcases replay_timing hData rfl (by decide) hOrder with
    ⟨first, last, acts, _, _, hRun, _, hTimed⟩
  exact ⟨first, last, acts, hRun, hTimed⟩

end FzEvent

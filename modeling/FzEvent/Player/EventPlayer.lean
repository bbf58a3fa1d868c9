import FzEvent.Player.PlayEvent
import FzEvent.Player.ReadEvent

/-
  The event player of the device side, `event_player`, which
  loads an event file at the start of a remote play.

  Its list of events is that of `EventList`, less the count
  that `insert_event_list` returns.

  Main declarations:
    * `EventPlayer.readRound`, `EventPlayer.readEvent` and
      `EventPlayer.openEventFile`
    * `EventPlayer.playEvent`
    * `EventPlayer.LoadEnds` and `EventPlayer.ReachesEnd`
    * `EventPlayer.loadEnds_iff_reachesEnd`
-/

------------------------------------------------------------
-- One Round
------------------------------------------------------------

namespace FzEvent

namespace EventPlayer

open ByteCodec

/-
  The local variables of `read_event` that a read fills. None
  of them is initialised.
-/
structure ReadVars where
  tv : Timeval
  id : Int32
  type : UInt16
  code : UInt16
  value : Int32
deriving DecidableEq, Repr

/- `read` from an open file: the variable and what is left. -/
def readInto
    {α : Type}
    (c : Codec α)
    (a : α)
    (fp : List UInt8) : α × List UInt8 :=
  (c.overwrite a fp, fp.drop c.width)

/-
  How a round of the loop of `read_event` ends: with another
  round, with a `break`, or with the function's `return 0`.
-/
inductive RoundEnd
| again (fp : List UInt8) (vars : ReadVars)
    (e : List InputEvent)
| broke (fp : Option (List UInt8)) (vars : ReadVars)
| returned
deriving DecidableEq, Repr

/-
  One round of the loop. The file is `none` when `open` gave
  a bad descriptor: then the first `read` is below 0. On an
  open file no `read` is, not even at the end of the file.
-/
def readRound
    (file : Option (List UInt8))
    (vars : ReadVars)
    (e : List InputEvent) : RoundEnd :=
  match file with
  | none => .broke none vars
  | some fp =>
      let (tv, fp) := readInto timeval vars.tv fp
      if IsSeparator tv then
        .broke (some fp) { vars with tv }
      else if IsEndOfFile tv then
        .returned
      else
        let (id, fp) := readInto s32 vars.id fp
        let (type, fp) := readInto u16 vars.type fp
        let (code, fp) := readInto u16 vars.code fp
        let (value, fp) := readInto s32 vars.value fp
        .again fp ⟨tv, id, type, code, value⟩
          (e ++ [storedEvent tv type code value])

end EventPlayer

end FzEvent

------------------------------------------------------------
-- The Loops
------------------------------------------------------------

namespace FzEvent

namespace EventPlayer

/-
  `read_event` in at most the given number of rounds: its
  result, the rest of the file and the list. The array `e` is
  inserted unless it is the null pointer.
-/
def readEvent
    (list : EventList) :
    Nat → Option (List UInt8) → ReadVars → List InputEvent →
      Option (Int × Option (List UInt8) × EventList)
| 0, _, _, _ => none
| rounds + 1, file, vars, e =>
    match readRound file vars e with
    | .again fp vars e => readEvent list rounds (some fp) vars e
    | .broke file vars =>
        some (-1, file,
          if e = [] then list
          else list.insert vars.id e.length e)
    | .returned => some (0, file, list)

/-
  `while(read_event() != 0)` in at most the given number of
  calls, each of at most `rounds` rounds. Call `k` finds
  `locals k` in its variables.
-/
def readLoop
    (locals : Nat → ReadVars)
    (rounds : Nat) :
    Nat → Nat → Option (List UInt8) → EventList →
      Option EventList
| 0, _, _, _ => none
| calls + 1, k, file, list => do
    let (ret, file, list) ←
      readEvent list rounds file (locals k) []
    if ret ≠ 0 then
      readLoop locals rounds calls (k + 1) file list
    else
      return list

/-
  `open_event_file` on the content of the file, `none` when it
  cannot be opened. A failed `open` is only traced. The result
  is `none` as long as the fuel does not bring the call to its
  end.
-/
def openEventFile
    (fuel : Nat)
    (locals : Nat → ReadVars)
    (file : Option (List UInt8))
    (list : EventList) : Option EventList :=
  readLoop locals fuel fuel 0 file list

/-
  `play_event`, where `openable` tells which device files can
  be opened.
-/
def playEvent
    (openable : Int32 → Bool)
    (list : EventList)
    (seq : Int) : Option (Int32 × List InputEvent) := do
  let p ← list.getEventData seq
  guard (openable p.id)
  let events ← playLoop p.e p.eventCount.toNat
  return (p.id, events ++ [closingReport events])

/- Into the file of an id goes what is played for it. -/
theorem playInto_eq_playEvent
    (openable : List Char → Bool)
    (list : EventList)
    (seq : Int) :
    playInto openable list seq =
      (playEvent (fun id => openable (fileBuffer id)) list
        seq).map fun played =>
          (fileBuffer played.1, played.2) := by
  rw [playInto, playEvent]
  cases list.getEventData seq with
  | none => rfl
  | some p =>
      cases hOpen : openable (fileBuffer p.id) with
      | false => simp [hOpen, guard]
      | true =>
          cases hEvents : playLoop p.e p.eventCount.toNat <;>
            simp [hOpen, hEvents, guard]

theorem readEvent_again
    {file : Option (List UInt8)}
    {vars vars' : ReadVars}
    {e e' : List InputEvent}
    {fp : List UInt8}
    (hRound : readRound file vars e = .again fp vars' e')
    (list : EventList)
    (rounds : Nat) :
    readEvent list (rounds + 1) file vars e =
      readEvent list rounds (some fp) vars' e' := by
  rw [readEvent, hRound]

theorem readEvent_broke
    {file file' : Option (List UInt8)}
    {vars vars' : ReadVars}
    {e : List InputEvent}
    (hRound : readRound file vars e = .broke file' vars')
    (list : EventList)
    (rounds : Nat) :
    readEvent list (rounds + 1) file vars e =
      some (-1, file',
        if e = [] then list
        else list.insert vars'.id e.length e) := by
  rw [readEvent, hRound]

theorem readEvent_returned
    {file : Option (List UInt8)}
    {vars : ReadVars}
    {e : List InputEvent}
    (hRound : readRound file vars e = .returned)
    (list : EventList)
    (rounds : Nat) :
    readEvent list (rounds + 1) file vars e =
      some (0, file, list) := by
  rw [readEvent, hRound]

/- More rounds do not change what a call has come to. -/
theorem readEvent_mono
    {list : EventList}
    {rounds more : Nat}
    (hLe : rounds ≤ more)
    {file : Option (List UInt8)}
    {vars : ReadVars}
    {e : List InputEvent}
    {result : Int × Option (List UInt8) × EventList}
    (hRead :
      readEvent list rounds file vars e = some result) :
    readEvent list more file vars e = some result := by
  induction rounds generalizing more file vars e with
  | zero => cases hRead
  | succ rounds ih =>
      rcases more with _ | more
      · omega
      · have hLe' : rounds ≤ more := by omega
        cases hRound : readRound file vars e with
        | again fp vars' e' =>
            rw [readEvent_again hRound] at hRead ⊢
            exact ih hLe' hRead
        | broke file' vars' =>
            rw [readEvent_broke hRound] at hRead ⊢
            exact hRead
        | returned =>
            rw [readEvent_returned hRound] at hRead ⊢
            exact hRead

/- What the loop does with the result of a call. -/
def resume
    (locals : Nat → ReadVars)
    (rounds calls k : Nat)
    (result : Int × Option (List UInt8) × EventList) :
    Option EventList :=
  if result.1 ≠ 0 then
    readLoop locals rounds calls k result.2.1 result.2.2
  else
    some result.2.2

@[simp] theorem resume_broke
    (locals : Nat → ReadVars)
    (rounds calls k : Nat)
    (file : Option (List UInt8))
    (list : EventList) :
    resume locals rounds calls k (-1, file, list) =
      readLoop locals rounds calls k file list := rfl

@[simp] theorem resume_returned
    (locals : Nat → ReadVars)
    (rounds calls k : Nat)
    (file : Option (List UInt8))
    (list : EventList) :
    resume locals rounds calls k (0, file, list) =
      some list := rfl

theorem readLoop_succ
    (locals : Nat → ReadVars)
    (rounds calls k : Nat)
    (file : Option (List UInt8))
    (list : EventList) :
    readLoop locals rounds (calls + 1) k file list =
      (readEvent list rounds file (locals k) []).bind
        (resume locals rounds calls (k + 1)) := rfl

theorem readLoop_mono
    {locals : Nat → ReadVars}
    {rounds moreRounds calls moreCalls k : Nat}
    (hRounds : rounds ≤ moreRounds)
    (hCalls : calls ≤ moreCalls)
    {file : Option (List UInt8)}
    {list loaded : EventList}
    (hLoop :
      readLoop locals rounds calls k file list =
        some loaded) :
    readLoop locals moreRounds moreCalls k file list =
      some loaded := by
  induction calls generalizing moreCalls k file list with
  | zero => cases hLoop
  | succ calls ih =>
      rcases moreCalls with _ | moreCalls
      · omega
      · rw [readLoop_succ, Option.bind_eq_some_iff]
          at hLoop ⊢
        rcases hLoop with ⟨result, hRead, hRest⟩
        refine ⟨result, readEvent_mono hRounds hRead, ?_⟩
        unfold resume at hRest ⊢
        by_cases hRet : result.1 ≠ 0
        · rw [if_pos hRet] at hRest ⊢
          exact ih (by omega) hRest
        · rw [if_neg hRet] at hRest ⊢
          exact hRest

theorem openEventFile_mono
    {fuel more : Nat}
    (hLe : fuel ≤ more)
    {locals : Nat → ReadVars}
    {file : Option (List UInt8)}
    {list loaded : EventList}
    (hOpen :
      openEventFile fuel locals file list = some loaded) :
    openEventFile more locals file list = some loaded :=
  readLoop_mono hLe hLe hOpen

/- The list that a load leaves does not depend on the fuel. -/
theorem openEventFile_unique
    {fuel other : Nat}
    {locals : Nat → ReadVars}
    {file : Option (List UInt8)}
    {list loaded loaded' : EventList}
    (hLeft :
      openEventFile fuel locals file list = some loaded)
    (hRight :
      openEventFile other locals file list = some loaded') :
    loaded = loaded' := by
  have hLeft' := openEventFile_mono (Nat.le_max_left fuel other)
    hLeft
  have hRight' :=
    openEventFile_mono (Nat.le_max_right fuel other) hRight
  exact Option.some.inj (hLeft'.symm.trans hRight')

end EventPlayer

end FzEvent

------------------------------------------------------------
-- Rounds and Items
------------------------------------------------------------

namespace FzEvent

namespace EventPlayer

open ByteCodec

theorem readInto_of_read
    {α : Type}
    {c : Codec α}
    {fp rest : List UInt8}
    {b : α}
    (hRead : c.read fp = some (b, rest))
    (a : α) :
    readInto c a fp = (b, rest) := by
  have hBoth := c.overwrite_of_read hRead a
  rw [readInto, hBoth.1, hBoth.2]

theorem isSeparator_of_readItem
    {fp rest : List UInt8}
    (hRead : readItem fp = some (.separator, rest)) :
    ∃ tv, timeval.read fp = some (tv, rest) ∧
      IsSeparator tv := by
  simp only [readItem, Option.bind_eq_bind,
    Option.bind_eq_some_iff, Prod.exists] at hRead
  rcases hRead with ⟨tv, afterTv, hTv, hRead⟩
  split at hRead
  · next hSeparator =>
    cases hRead
    exact ⟨tv, hTv, hSeparator⟩
  · split at hRead
    · cases hRead
    · simp [Option.bind_eq_some_iff] at hRead

theorem isEndOfFile_of_readItem
    {fp rest : List UInt8}
    (hRead : readItem fp = some (.endOfFile, rest)) :
    ∃ tv, timeval.read fp = some (tv, rest) ∧
      ¬ IsSeparator tv ∧ IsEndOfFile tv := by
  simp only [readItem, Option.bind_eq_bind,
    Option.bind_eq_some_iff, Prod.exists] at hRead
  rcases hRead with ⟨tv, afterTv, hTv, hRead⟩
  split at hRead
  · cases hRead
  · next hSeparator =>
    split at hRead
    · next hEnd =>
      cases hRead
      exact ⟨tv, hTv, hSeparator, hEnd⟩
    · simp [Option.bind_eq_some_iff] at hRead

/- What the reads of a complete record are. -/
theorem reads_of_readItem_record
    {fp rest : List UInt8}
    {tv : Timeval}
    {id : Int32}
    {type code : UInt16}
    {value : Int32}
    (hRead :
      readItem fp = some (.record tv id type code value, rest)) :
    (¬ IsSeparator tv ∧ ¬ IsEndOfFile tv) ∧
      ∃ afterTv afterId afterType afterCode,
        timeval.read fp = some (tv, afterTv) ∧
        s32.read afterTv = some (id, afterId) ∧
        u16.read afterId = some (type, afterType) ∧
        u16.read afterType = some (code, afterCode) ∧
        s32.read afterCode = some (value, rest) := by
  simp only [readItem, Option.bind_eq_bind,
    Option.bind_eq_some_iff, Prod.exists] at hRead
  rcases hRead with ⟨tv', afterTv, hTv, hRead⟩
  split at hRead
  · cases hRead
  · next hSeparator =>
    split at hRead
    · cases hRead
    · next hEnd =>
      simp only [Option.bind_eq_some_iff, Prod.exists] at hRead
      rcases hRead with ⟨id', afterId, hId, type', afterType,
        hType, code', afterCode, hCode, value', afterValue,
        hValue, hRead⟩
      cases hRead
      exact ⟨⟨hSeparator, hEnd⟩, afterTv, afterId, afterType,
        afterCode, hTv, hId, hType, hCode, hValue⟩

theorem readRound_separator
    {fp rest : List UInt8}
    (hRead : readItem fp = some (.separator, rest))
    (vars : ReadVars)
    (e : List InputEvent) :
    ∃ tv, readRound (some fp) vars e =
      .broke (some rest) { vars with tv } := by
  rcases isSeparator_of_readItem hRead with
    ⟨tv, hTv, hSeparator⟩
  refine ⟨tv, ?_⟩
  simp only [readRound, readInto_of_read hTv, hSeparator,
    if_true]

theorem readRound_endOfFile
    {fp rest : List UInt8}
    (hRead : readItem fp = some (.endOfFile, rest))
    (vars : ReadVars)
    (e : List InputEvent) :
    readRound (some fp) vars e = .returned := by
  rcases isEndOfFile_of_readItem hRead with
    ⟨tv, hTv, hSeparator, hEnd⟩
  simp only [readRound, readInto_of_read hTv, hSeparator,
    hEnd, if_true, if_false]

theorem readRound_record
    {fp rest : List UInt8}
    {tv : Timeval}
    {id : Int32}
    {type code : UInt16}
    {value : Int32}
    (hRead :
      readItem fp = some (.record tv id type code value, rest))
    (vars : ReadVars)
    (e : List InputEvent) :
    readRound (some fp) vars e =
      .again rest ⟨tv, id, type, code, value⟩
        (e ++ [storedEvent tv type code value]) := by
  rcases reads_of_readItem_record hRead with
    ⟨hTime, afterTv, afterId, afterType, afterCode, hTv, hId,
      hType, hCode, hValue⟩
  simp only [readRound, readInto_of_read hTv, hTime.1, hTime.2,
    readInto_of_read hId, readInto_of_read hType,
    readInto_of_read hCode, readInto_of_read hValue, if_false]

end EventPlayer

end FzEvent

------------------------------------------------------------
-- Rounds at the End of the Data
------------------------------------------------------------

namespace FzEvent

namespace EventPlayer

open ByteCodec

/- Twenty bytes are enough for any item. -/
theorem readItem_ne_none
    {fp : List UInt8}
    (hLe : 20 ≤ fp.length) :
    readItem fp ≠ none := by
  rcases timeval.exists_read
    (show timeval.width ≤ fp.length by
      rw [timeval_width]; omega) with
    ⟨tv, afterTv, hTv, hTvLength⟩
  rw [timeval_width] at hTvLength
  rcases s32.exists_read
    (show s32.width ≤ afterTv.length by
      rw [s32_width]; omega) with
    ⟨id, afterId, hId, hIdLength⟩
  rw [s32_width] at hIdLength
  rcases u16.exists_read
    (show u16.width ≤ afterId.length by
      rw [u16_width]; omega) with
    ⟨type, afterType, hType, hTypeLength⟩
  rw [u16_width] at hTypeLength
  rcases u16.exists_read
    (show u16.width ≤ afterType.length by
      rw [u16_width]; omega) with
    ⟨code, afterCode, hCode, hCodeLength⟩
  rw [u16_width] at hCodeLength
  rcases s32.exists_read
    (show s32.width ≤ afterCode.length by
      rw [s32_width]; omega) with
    ⟨value, rest, hValue, _⟩
  by_cases hSeparator : IsSeparator tv
  · simp [readItem, hTv, hSeparator]
  · by_cases hEnd : IsEndOfFile tv
    · simp [readItem, hTv, hSeparator, hEnd]
    · simp [readItem, hTv, hSeparator, hEnd, hId, hType,
        hCode, hValue]

/- Where no item is left, a whole time value is no marker. -/
theorem not_marker_of_readItem_eq_none
    {fp : List UInt8}
    (hNone : readItem fp = none)
    (hLe : 8 ≤ fp.length)
    (tv : Timeval) :
    ¬ IsSeparator (timeval.overwrite tv fp) ∧
      ¬ IsEndOfFile (timeval.overwrite tv fp) := by
  rcases timeval.exists_read hLe with
    ⟨stored, afterTv, hTv, _⟩
  rw [(timeval.overwrite_of_read hTv tv).1]
  have hSeparator : ¬ IsSeparator stored := by
    intro hSeparator
    simp [readItem, hTv, hSeparator] at hNone
  refine ⟨hSeparator, ?_⟩
  intro hEnd
  simp [readItem, hTv, hSeparator, hEnd] at hNone

/-
  The last round with data: the time value is completed with
  the bytes that the variable held before, and unless it makes
  a marker, so is a record.
-/
theorem readRound_of_none
    {fp : List UInt8}
    (hNone : readItem fp = none)
    (vars : ReadVars)
    (e : List InputEvent)
    {tv : Timeval}
    (hTv : timeval.overwrite vars.tv fp = tv) :
    (IsSeparator tv →
      readRound (some fp) vars e =
        .broke (some []) { vars with tv }) ∧
    (¬ IsSeparator tv → ¬ IsEndOfFile tv →
      ∃ vars' e', vars'.tv = tv ∧
        readRound (some fp) vars e = .again [] vars' e') := by
  subst hTv
  constructor
  · intro hSeparator
    have hFew : fp.length ≤ 8 := by
      by_contra hLong
      have hMarker :=
        not_marker_of_readItem_eq_none hNone (by omega) vars.tv
      exact hMarker.1 hSeparator
    simp [readRound, readInto, hSeparator, hFew]
  · intro hSeparator hEnd
    have hFew : fp.length ≤ 20 := by
      by_contra hLong
      exact readItem_ne_none (by omega) hNone
    simp [readRound, readInto, hSeparator, hEnd, hFew]

/- Where the result is the end marker, the call returns 0. -/
theorem readRound_of_completed
    {fp : List UInt8}
    {vars : ReadVars}
    (hEnd : IsEndOfFile (timeval.overwrite vars.tv fp))
    (e : List InputEvent) :
    readRound (some fp) vars e = .returned := by
  have hSeparator :
      ¬ IsSeparator (timeval.overwrite vars.tv fp) := by
    intro hSeparator
    have hWord := hSeparator.2.symm.trans hEnd.2
    exact absurd hWord (by decide)
  simp [readRound, readInto, hSeparator, hEnd]

/-
  At the end of the data nothing is read any more, and the
  rounds repeat the record of the last one: the call does not
  come to an end.
-/
theorem readEvent_stuck
    (list : EventList)
    (rounds : Nat)
    {vars : ReadVars}
    (hSeparator : ¬ IsSeparator vars.tv)
    (hEnd : ¬ IsEndOfFile vars.tv)
    (e : List InputEvent) :
    readEvent list rounds (some []) vars e = none := by
  induction rounds generalizing e with
  | zero => rfl
  | succ rounds ih =>
      have hRound :
          readRound (some []) vars e =
            .again [] vars
              (e ++ [storedEvent vars.tv vars.type vars.code
                vars.value]) := by
        simp [readRound, readInto, hSeparator, hEnd]
      rw [readEvent_again hRound]
      exact ih _

/- Without a file no call returns 0. -/
theorem readLoop_closed
    (locals : Nat → ReadVars)
    (rounds calls k : Nat)
    (list : EventList) :
    readLoop locals rounds calls k none list = none := by
  induction calls generalizing k with
  | zero => rfl
  | succ calls ih =>
      rw [readLoop_succ]
      cases rounds with
      | zero => rfl
      | succ rounds =>
          have hRead :
              readEvent list (rounds + 1) none (locals k) [] =
                some (-1, none, list) := rfl
          rw [hRead, Option.bind_some]
          exact ih (k + 1)

end EventPlayer

end FzEvent

------------------------------------------------------------
-- Loads That End
------------------------------------------------------------

namespace FzEvent

namespace EventPlayer

open ByteCodec

/-
  The entries of the records that lie completely in the file,
  up to the end marker or the first incomplete record.
-/
def fileEntries (fp : List UInt8) : List InputEvent :=
  match hRead : readItem fp with
  | none => []
  | some (.separator, rest) =>
      have := length_lt_of_readItem hRead
      fileEntries rest
  | some (.endOfFile, _) => []
  | some (.record tv _ type code value, rest) =>
      have := length_lt_of_readItem hRead
      storedEvent tv type code value :: fileEntries rest
termination_by fp.length

theorem fileEntries_separator
    {fp rest : List UInt8}
    (hRead : readItem fp = some (.separator, rest)) :
    fileEntries fp = fileEntries rest := by
  rw [fileEntries]
  split <;> simp_all

theorem fileEntries_record
    {fp rest : List UInt8}
    {tv : Timeval}
    {id : Int32}
    {type code : UInt16}
    {value : Int32}
    (hRead :
      readItem fp = some (.record tv id type code value, rest)) :
    fileEntries fp =
      storedEvent tv type code value :: fileEntries rest := by
  rw [fileEntries]
  split <;> simp_all

/-
  What a load should do with the file: it ends, and every
  entry that it adds is a record of the file, in its place.
-/
def LoadEnds
    (locals : Nat → ReadVars)
    (list : EventList)
    (file : Option (List UInt8)) : Prop :=
  ∃ fuel loaded added,
    openEventFile fuel locals file list = some loaded ∧
      loaded.nodes = list.nodes ++ added ∧
      (added.flatMap EventNode.e).Sublist
        (fileEntries (file.getD []))

/-
  Read item by item, the file comes to an end marker. `prev`
  is the time of the record before, if it is in the same
  group: its last bytes may complete a marker that the file
  breaks off.
-/
inductive ReachesEnd : Option Timeval → List UInt8 → Prop
| endOfFile
    {prev : Option Timeval}
    {fp rest : List UInt8}
    (hRead : readItem fp = some (.endOfFile, rest)) :
    ReachesEnd prev fp
| separator
    {prev : Option Timeval}
    {fp rest : List UInt8}
    (hRead : readItem fp = some (.separator, rest))
    (hRest : ReachesEnd none rest) :
    ReachesEnd prev fp
| record
    {prev : Option Timeval}
    {fp rest : List UInt8}
    {tv : Timeval}
    {id : Int32}
    {type code : UInt16}
    {value : Int32}
    (hRead :
      readItem fp = some (.record tv id type code value, rest))
    (hRest : ReachesEnd (some tv) rest) :
    ReachesEnd prev fp
| completed
    {tv : Timeval}
    {fp : List UInt8}
    (hNone : readItem fp = none)
    (hEnd : IsEndOfFile (timeval.overwrite tv fp)) :
    ReachesEnd (some tv) fp

/- The array of a call becomes one node, if it is there. -/
theorem nodes_insert_unless_empty
    (list : EventList)
    (id : Int32)
    (e : List InputEvent) :
    ∃ group : List EventNode,
      (if e = [] then list
        else list.insert id e.length e).nodes =
          list.nodes ++ group ∧
        group.flatMap EventNode.e = e := by
  by_cases hEmpty : e = []
  · exact ⟨[], by simp [hEmpty], by simp [hEmpty]⟩
  · exact ⟨[⟨list.seqNumber, id, e.length, e⟩],
      by simp [hEmpty, EventList.insert], by simp⟩

/-
  From a file that reaches its end, the running call and the
  calls behind it finish. What they add are the entries `e`
  and those of the file.
-/
theorem exists_loaded_of_reachesEnd
    {prev : Option Timeval}
    {fp : List UInt8}
    (hReach : ReachesEnd prev fp)
    (locals : Nat → ReadVars)
    (list : EventList)
    {vars : ReadVars}
    (hPrev : ∀ tv, prev = some tv → vars.tv = tv)
    (e : List InputEvent)
    {total rounds calls : Nat}
    (hTotal : fp.length < total)
    (hRounds : fp.length < rounds)
    (hCalls : fp.length < calls)
    (k : Nat) :
    ∃ loaded added,
      (readEvent list rounds (some fp) vars e).bind
          (resume locals total calls k) = some loaded ∧
        loaded.nodes = list.nodes ++ added ∧
        (added.flatMap EventNode.e).Sublist
          (e ++ fileEntries fp) := by
  induction hReach generalizing list vars e rounds calls k with
  | endOfFile hRead =>
      rcases rounds with _ | rounds
      · omega
      · refine ⟨list, [], ?_, by simp, by simp⟩
        rw [readEvent_returned (readRound_endOfFile hRead _ _),
          Option.bind_some, resume_returned]
  | @completed tv fp hNone hEnd =>
      rcases rounds with _ | rounds
      · omega
      · refine ⟨list, [], ?_, by simp, by simp⟩
        rw [← hPrev tv rfl] at hEnd
        rw [readEvent_returned (readRound_of_completed hEnd _),
          Option.bind_some, resume_returned]
  | @record prev fp rest tv id type code value hRead _ ih =>
      have hLess := length_lt_of_readItem hRead
      rcases rounds with _ | rounds
      · omega
      · have hTime :
            ∀ other, some tv = some other →
              (ReadVars.mk tv id type code value).tv = other :=
          fun _ hSome => Option.some.inj hSome
        rw [readEvent_again (readRound_record hRead _ _),
          fileEntries_record hRead,
          List.append_cons e _ (fileEntries rest)]
        have hRounds' : rest.length < rounds := by omega
        have hCalls' : rest.length < calls := by omega
        exact ih list hTime _ (by omega) hRounds' hCalls' k
  | @separator prev fp rest hRead _ ih =>
      have hLess := length_lt_of_readItem hRead
      rcases rounds with _ | rounds
      · omega
      · rcases calls with _ | calls
        · omega
        · rcases readRound_separator hRead vars e with
            ⟨tv, hRound⟩
          rw [readEvent_broke hRound, Option.bind_some,
            resume_broke, readLoop_succ,
            fileEntries_separator hRead]
          rcases nodes_insert_unless_empty list vars.id e with
            ⟨group, hGroup, hFlat⟩
          have hTotal' : rest.length < total := by omega
          have hCalls' : rest.length < calls := by omega
          have hNone :
              ∀ tv, none = some tv → (locals k).tv = tv := by
            intro tv hSome
            cases hSome
          rcases ih _ hNone [] hTotal' hTotal' hCalls' (k + 1)
            with ⟨loaded, added, hLoad, hNodes, hSub⟩
          refine ⟨loaded, group ++ added, hLoad, ?_, ?_⟩
          · rw [hNodes, hGroup, List.append_assoc]
          · rw [List.flatMap_append, hFlat]
            exact List.Sublist.append (List.Sublist.refl e) hSub

end EventPlayer

end FzEvent

------------------------------------------------------------
-- Loads That Do Not End
------------------------------------------------------------

namespace FzEvent

namespace EventPlayer

open ByteCodec

/- Variables that happen to lie in zeroed memory. -/
def zeroVars : ReadVars :=
  ⟨⟨0, 0⟩, 0, 0, 0, 0⟩

/- A missing last byte that is 0 does not make a marker. -/
theorem not_isEndOfFile_overwrite_zero
    {fp : List UInt8}
    (hNone : readItem fp = none) :
    ¬ IsEndOfFile (timeval.overwrite zeroVars.tv fp) := by
  intro hEnd
  have hFew : fp.length ≤ 7 := by
    by_contra hLong
    have hMarker :=
      not_marker_of_readItem_eq_none hNone (by omega)
        zeroVars.tv
    exact hMarker.2 hEnd
  have hByte :
      (timeval.encode (timeval.overwrite zeroVars.tv fp))[7]? =
        some 0 := by
    rw [timeval.getElem?_encode_overwrite _ hFew (by decide)]
    rfl
  have hMarker :
      timeval.overwrite zeroVars.tv fp =
        ⟨(0xffffffff : UInt32).toInt32,
          (0x8fffffff : UInt32).toInt32⟩ := by
    rw [← hEnd.1, ← hEnd.2]
    simp
  rw [hMarker] at hByte
  exact absurd hByte (by decide)

/-
  Where the file does not reach its end, the calls do not end
  if the variables of every new call are zero.
-/
theorem load_eq_none_of_not_reachesEnd
    {prev : Option Timeval}
    {fp : List UInt8}
    (hReach : ¬ ReachesEnd prev fp)
    (list : EventList)
    {vars : ReadVars}
    (hPrev : vars.tv = prev.getD zeroVars.tv)
    (e : List InputEvent)
    (total rounds calls k : Nat) :
    (readEvent list rounds (some fp) vars e).bind
        (resume (fun _ => zeroVars) total calls k) = none := by
  induction hLength : fp.length using Nat.strong_induction_on
    generalizing prev fp list vars e rounds calls k with
  | _ length ih =>
      subst hLength
      rcases rounds with _ | rounds
      · rfl
      · have hStuck :
            ∀ calls k list,
              readLoop (fun _ => zeroVars) total calls k
                (some []) list = none := by
          intro calls k list
          rcases calls with _ | calls
          · rfl
          · rw [readLoop_succ,
              readEvent_stuck list total (by decide)
                (by decide), Option.bind_none]
        rcases hRead : readItem fp with _ | ⟨item, rest⟩
        · have hEnd :
              ¬ IsEndOfFile (timeval.overwrite vars.tv fp) := by
            rcases prev with _ | tv
            · rw [hPrev]
              exact not_isEndOfFile_overwrite_zero hRead
            · rw [hPrev]
              intro hEnd
              exact hReach (.completed hRead hEnd)
          have hRound := readRound_of_none hRead vars e rfl
          by_cases hSeparator :
              IsSeparator (timeval.overwrite vars.tv fp)
          · rw [readEvent_broke (hRound.1 hSeparator),
              Option.bind_some, resume_broke, hStuck]
          · rcases hRound.2 hSeparator hEnd with
              ⟨vars', e', hTv, hAgain⟩
            rw [← hTv] at hSeparator hEnd
            rw [readEvent_again hAgain,
              readEvent_stuck list rounds hSeparator hEnd,
              Option.bind_none]
        · have hLess := length_lt_of_readItem hRead
          cases item with
          | separator =>
              have hRest : ¬ ReachesEnd none rest :=
                fun h => hReach (.separator hRead h)
              rcases readRound_separator hRead vars e with
                ⟨tv, hRound⟩
              rw [readEvent_broke hRound, Option.bind_some,
                resume_broke]
              rcases calls with _ | calls
              · rfl
              · rw [readLoop_succ]
                exact ih _ hLess hRest _ rfl _ _ _ _ rfl
          | endOfFile =>
              exact absurd (.endOfFile hRead) hReach
          | record tv id type code value =>
              have hRest : ¬ ReachesEnd (some tv) rest :=
                fun h => hReach (.record hRead h)
              rw [readEvent_again (readRound_record hRead _ _)]
              exact ih _ hLess hRest _ rfl _ _ _ _ rfl

/-
  A load ends as it should, whatever the uninitialised
  variables hold, exactly for a file that can be opened and
  that reaches its end.
-/
theorem loadEnds_iff_reachesEnd
    (list : EventList)
    (file : Option (List UInt8)) :
    (∀ locals, LoadEnds locals list file) ↔
      ∃ fp, file = some fp ∧ ReachesEnd none fp := by
  constructor
  · intro hEnds
    rcases hEnds (fun _ => zeroVars) with
      ⟨fuel, loaded, added, hOpen, _⟩
    rcases file with _ | fp
    · rw [openEventFile, readLoop_closed] at hOpen
      cases hOpen
    · refine ⟨fp, rfl, ?_⟩
      by_contra hReach
      rcases fuel with _ | fuel
      · cases hOpen
      · rw [openEventFile, readLoop_succ,
          load_eq_none_of_not_reachesEnd hReach list rfl]
            at hOpen
        cases hOpen
  · rintro ⟨fp, rfl, hReach⟩ locals
    have hNone :
        ∀ tv, none = some tv → (locals 0).tv = tv := by
      intro tv hSome
      cases hSome
    rcases exists_loaded_of_reachesEnd hReach locals list hNone
      [] (Nat.lt_succ_self _) (Nat.lt_succ_self _)
      (Nat.lt_succ_self _) 1 with
      ⟨loaded, added, hLoad, hNodes, hSub⟩
    refine ⟨fp.length + 2, loaded, added, ?_, hNodes, hSub⟩
    have hOpen :
        readLoop locals (fp.length + 1) (fp.length + 2) 0
          (some fp) list = some loaded := by
      rw [readLoop_succ]
      exact hLoad
    exact readLoop_mono (by omega) (Nat.le_refl _) hOpen

/- One record, and no end marker behind it. -/
def oneRecord : List UInt8 :=
  timeval.encode ⟨1, 0⟩ ++ s32.encode 2 ++ u16.encode evAbs ++
    u16.encode absMtTrackingId ++ s32.encode 5

/-
  A load of this file does not end, and neither does one where
  the file cannot be opened.
-/
theorem not_loadEnds_oneRecord :
    (¬ ∃ locals, LoadEnds locals .empty (some oneRecord)) ∧
      ¬ ∃ locals, LoadEnds locals .empty none := by
  constructor
  · rintro ⟨locals, fuel, loaded, added, hOpen, _⟩
    have hItem :
        readItem oneRecord =
          some (.record ⟨1, 0⟩ 2 evAbs absMtTrackingId 5, []) := by
      decide
    rcases fuel with _ | fuel
    · cases hOpen
    · rw [openEventFile, readLoop_succ,
        readEvent_again (readRound_record hItem _ _),
        readEvent_stuck _ fuel (by decide) (by decide)] at hOpen
      cases hOpen
  · rintro ⟨locals, fuel, loaded, added, hOpen, _⟩
    rw [openEventFile, readLoop_closed] at hOpen
    cases hOpen

end EventPlayer

end FzEvent

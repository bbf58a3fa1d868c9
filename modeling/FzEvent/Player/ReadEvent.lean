import FzEvent.Player.EventList

/-
  The player's reader of event files, `CEvtPlayer::read_event`.

  Main declarations:
    * `FzEvent.FileItem` and `FzEvent.readItem`
    * `FzEvent.readEventLoop`
    * `FzEvent.readEvent`
-/

------------------------------------------------------------
-- Items of an Event File
------------------------------------------------------------

namespace FzEvent

/- What one round of the loop finds in the file. -/
inductive FileItem
| separator
| endOfFile
| record (tv : Timeval) (id : Int32) (type code : UInt16)
    (value : Int32)
deriving DecidableEq, Repr

/-
  `tv` is the first word pair with all bits set. The `long`
  fields are 32 bits wide and are compared as unsigned words.
-/
def IsSeparator (tv : Timeval) : Prop :=
  tv.tvSec.toUInt32 = 0xffffffff ∧
    tv.tvUsec.toUInt32 = 0xffffffff
deriving Decidable

/- `tv` is the word pair that ends the file. -/
def IsEndOfFile (tv : Timeval) : Prop :=
  tv.tvSec.toUInt32 = 0xffffffff ∧
    tv.tvUsec.toUInt32 = 0x8fffffff
deriving Decidable

/- The reads of one round; `none` when one falls short. -/
def readItem
    (fp : List UInt8) : Option (FileItem × List UInt8) := do
  let (tv, fp) ← timeval.read fp
  if IsSeparator tv then
    return (.separator, fp)
  else if IsEndOfFile tv then
    return (.endOfFile, fp)
  else
    let (id, fp) ← s32.read fp
    let (type, fp) ← u16.read fp
    let (code, fp) ← u16.read fp
    let (value, fp) ← s32.read fp
    return (.record tv id type code value, fp)

/- Every round takes at least the time value. -/
theorem length_lt_of_readItem
    {fp rest : List UInt8}
    {item : FileItem}
    (hRead : readItem fp = some (item, rest)) :
    rest.length < fp.length := by
  simp only [readItem, Option.bind_eq_bind,
    Option.bind_eq_some_iff, Prod.exists] at hRead
  rcases hRead with ⟨tv, afterTv, hTv, hRead⟩
  have hTime := timeval.length_of_read hTv
  rw [timeval_width] at hTime
  split at hRead
  · cases hRead
    omega
  · split at hRead
    · cases hRead
      omega
    · simp only [Option.bind_eq_some_iff, Prod.exists] at hRead
      obtain ⟨id, afterId, hId, type, afterType, hType, code,
        afterCode, hCode, value, afterValue, hValue, hRead⟩ :=
        hRead
      have hIdLength := s32.length_of_read hId
      have hTypeLength := u16.length_of_read hType
      have hCodeLength := u16.length_of_read hCode
      have hValueLength := s32.length_of_read hValue
      cases hRead
      omega

end FzEvent

------------------------------------------------------------
-- The Reader
------------------------------------------------------------

namespace FzEvent

/- The event that a record becomes in the list. -/
def storedEvent
    (tv : Timeval)
    (type code : UInt16)
    (value : Int32) : InputEvent where
  time := tv
  type := if code = 0 ∧ value = 0 then 0 else type
  code := code
  value := value

/-
  The loop of `read_event`: `id` and `e` are its variables,
  and `count` is the length of `e`. The flag tells whether the
  loop broke at the end marker; on a failed read the function
  returns -1 from within the loop.
-/
def readEventLoop
    (list : EventList)
    (id : Int32)
    (e : List InputEvent)
    (fp : List UInt8) : EventList × Bool :=
  match hRead : readItem fp with
  | none => (list, false)
  | some (.separator, rest) =>
      have := length_lt_of_readItem hRead
      readEventLoop (list.insert id e.length e) (-1) [] rest
  | some (.endOfFile, _) => (list, true)
  | some (.record tv id type code value, rest) =>
      have := length_lt_of_readItem hRead
      readEventLoop list id
        (e ++ [storedEvent tv type code value]) rest
termination_by fp.length

/-
  `read_event` on the content of the file, `none` when it
  cannot be opened: the new list and the result.
-/
def readEvent
    (list : EventList)
    (file : Option (List UInt8)) : EventList × Int :=
  match file with
  | none => (list, -1)
  | some fp =>
      match readEventLoop list (-1) [] fp with
      | (list, true) => (list, list.getCount)
      | (list, false) => (list, -1)

theorem readEventLoop_separator
    {fp rest : List UInt8}
    (hRead : readItem fp = some (.separator, rest))
    (list : EventList)
    (id : Int32)
    (e : List InputEvent) :
    readEventLoop list id e fp =
      readEventLoop (list.insert id e.length e) (-1) []
        rest := by
  rw [readEventLoop]
  split <;> simp_all

theorem readEventLoop_endOfFile
    {fp rest : List UInt8}
    (hRead : readItem fp = some (.endOfFile, rest))
    (list : EventList)
    (id : Int32)
    (e : List InputEvent) :
    readEventLoop list id e fp = (list, true) := by
  rw [readEventLoop]
  split <;> simp_all

theorem readEventLoop_record
    {fp rest : List UInt8}
    {tv : Timeval}
    {devId : Int32}
    {type code : UInt16}
    {value : Int32}
    (hRead :
      readItem fp =
        some (.record tv devId type code value, rest))
    (list : EventList)
    (id : Int32)
    (e : List InputEvent) :
    readEventLoop list id e fp =
      readEventLoop list devId
        (e ++ [storedEvent tv type code value]) rest := by
  rw [readEventLoop]
  split <;> simp_all

end FzEvent

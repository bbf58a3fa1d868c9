import FzEvent.Lib.Decimal
import FzEvent.Recorder.Gesture

/-
  The recorder thread: `event_getter::get_event` and the loop
  of `get_event` in the main program, with recording on.

  One iteration of the loop is a sequence of steps: a round of
  `get_event` for every device that is ready and whose read
  succeeds, then the rest of the iteration. A read that fails
  ends `get_event` early, so it needs no step of its own.

  A step is `none` where the program faults: an access outside
  the slot table, a device name without a number, or a look at
  the first entry of an empty buffer.

  Main declarations:
    * `FzEvent.devIdOf?` and `FzEvent.eventPath`
    * `FzEvent.devIdOf?_eventPath`
    * `FzEvent.RecorderLoop`, `FzEvent.LoopStep`
    * `RecorderLoop.getEventRound`, `RecorderLoop.finish`
    * `FzEvent.recorderLoop` and `FzEvent.iterations`
-/

------------------------------------------------------------
-- Device Numbers
------------------------------------------------------------

namespace FzEvent

/- The delimiters that `strtok` is called with. -/
def isDelimiter (c : Char) : Bool :=
  c.isLower || c == '/'

/- The value of the digits that `atoi` reads. -/
def digitsValue (s : List Char) : Nat :=
  (s.takeWhile Char.isDigit).foldl
    (fun n c => 10 * n + (c.toNat - 48)) 0

/- `isspace`: the blank, and tab to carriage return. -/
def isSpace (c : Char) : Bool :=
  c == ' ' || (9 ≤ c.toNat && c.toNat ≤ 13)

/- `atoi`: blanks, a sign, digits. -/
def atoi (s : List Char) : Int32 :=
  match s.dropWhile isSpace with
  | '-' :: s => Int32.ofInt (-(digitsValue s : Int))
  | '+' :: s => Int32.ofInt (digitsValue s)
  | s => Int32.ofInt (digitsValue s)

/-
  The device number: the first token of the name, which has
  to fit into the local buffer of 1024 bytes.
-/
def devIdOf? (name : List Char) : Option Int32 :=
  if 1024 ≤ name.length then
    none
  else
    match name.dropWhile isDelimiter with
    | [] => none
    | s => some (atoi (s.takeWhile fun c => !isDelimiter c))

/- The path of an input device with a one-digit number. -/
def eventDevice (digit : Char) : List Char :=
  ['/', 'd', 'e', 'v', '/', 'i', 'n', 'p', 'u', 't', '/',
    'e', 'v', 'e', 'n', 't', digit]

/- `DEFAULT_DEVICE_PATH` -/
def defaultDevicePath : List Char :=
  ['/', 'd', 'e', 'v', '/', 'i', 'n', 'p', 'u', 't']

/-
  The path of an input device with its number: the directory,
  and the name of the device in it.
-/
def eventPath (n : Nat) : List Char :=
  defaultDevicePath ++
    '/' :: (['e', 'v', 'e', 'n', 't'] ++ Nat.toDigits 10 n)

/- The characters of a number are among these codes. -/
theorem toNat_of_mem_format
    {a : Int}
    {c : Char}
    (hMem : c ∈ Decimal.format a) :
    c.toNat = 45 ∨ 48 ≤ c.toNat ∧ c.toNat ≤ 57 := by
  rcases Decimal.mem_format hMem with rfl | hDigit
  · exact Or.inl rfl
  · exact Or.inr (Char.isDigit_iff_toNat.mp hDigit)

/- None of them is a blank. -/
theorem isSpace_of_mem_format
    {a : Int}
    {c : Char}
    (hMem : c ∈ Decimal.format a) :
    isSpace c = false := by
  have hCode := toNat_of_mem_format hMem
  rw [← Bool.not_eq_true, isSpace]
  simp only [Bool.or_eq_true, beq_iff_eq, Bool.and_eq_true,
    decide_eq_true_eq]
  rintro (rfl | hControl)
  · exact absurd hCode (by decide)
  · omega

/- None of them is a delimiter. -/
theorem isDelimiter_of_mem_format
    {a : Int}
    {c : Char}
    (hMem : c ∈ Decimal.format a) :
    isDelimiter c = false := by
  have hCode := toNat_of_mem_format hMem
  rw [← Bool.not_eq_true, isDelimiter]
  simp only [Bool.or_eq_true, beq_iff_eq]
  rintro (hLower | rfl)
  · have hLetter :
        (decide ('a'.val ≤ c.val) && decide (c.val ≤ 'z'.val)) =
          true := hLower
    rw [Bool.and_eq_true, decide_eq_true_eq,
      UInt32.le_iff_toNat_le] at hLetter
    have hFirst : 97 ≤ c.toNat := hLetter.1
    omega
  · exact absurd hCode (by decide)

/- `atoi` reads a numeral behind the blanks. -/
theorem atoi_eq_parse
    (s : List Char) :
    atoi s =
      Int32.ofInt (Decimal.parse (s.dropWhile isSpace)) := by
  have hDigits :
      ∀ s, digitsValue s = Decimal.leading s :=
    fun _ => Nat.ofDigitChars_eq_foldl.symm
  unfold atoi
  split
  · rename_i hSign
    rw [hSign, hDigits]
    rfl
  · rename_i hSign
    rw [hSign, hDigits]
    rfl
  · rename_i hMinus hPlus
    rw [Decimal.parse_of_noSign hMinus hPlus, hDigits]

/- `atoi` reads a number that was written. -/
theorem atoi_format
    (a : Int) :
    atoi (Decimal.format a) = Int32.ofInt a := by
  have hNoSpace :
      (Decimal.format a).dropWhile isSpace =
        Decimal.format a := by
    cases hFormat : Decimal.format a with
    | nil => rfl
    | cons c s =>
        apply List.dropWhile_cons_of_neg
        rw [isSpace_of_mem_format (a := a)
          (by rw [hFormat]; exact List.mem_cons_self)]
        exact Bool.false_ne_true
  rw [atoi_eq_parse, hNoSpace, Decimal.parse_format]

/-
  The delimiters in front are skipped, and the token behind
  them is read to its end.
-/
theorem devIdOf?_of_token
    {front token : List Char}
    (hLength : (front ++ token).length < 1024)
    (hFront : ∀ c ∈ front, isDelimiter c = true)
    (hNonempty : token ≠ [])
    (hToken : ∀ c ∈ token, isDelimiter c = false) :
    devIdOf? (front ++ token) = some (atoi token) := by
  cases token with
  | nil => exact absurd rfl hNonempty
  | cons c token =>
      have hFirst :
          (c :: token).dropWhile isDelimiter = c :: token := by
        apply List.dropWhile_cons_of_neg
        rw [hToken c List.mem_cons_self]
        exact Bool.false_ne_true
      have hWhole :
          (c :: token).takeWhile (fun c => !isDelimiter c) =
            c :: token := by
        apply List.takeWhile_eq_self_iff.mpr
        intro d hMem
        rw [hToken d hMem]
        rfl
      rw [devIdOf?, if_neg (Nat.not_le_of_lt hLength),
        List.dropWhile_append_of_pos hFront, hFirst]
      dsimp only
      rw [hWhole]

/- A number behind delimiters is the device number. -/
theorem devIdOf?_of_format
    {front : List Char}
    (hFront : front.all isDelimiter = true)
    (hShort : front.length < 1000)
    {a : Int}
    (hWord : a.natAbs < 10 ^ 10) :
    devIdOf? (front ++ Decimal.format a) =
      some (Int32.ofInt a) := by
  have hLength :=
    Decimal.length_format_le (by decide) hWord
  rw [devIdOf?_of_token _ (List.all_eq_true.mp hFront)
    (Decimal.format_ne_nil a)
    (fun _ => isDelimiter_of_mem_format), atoi_format]
  rw [List.length_append]
  omega

/- The text in front of the number of a device. -/
theorem eventPath_eq
    (n : Nat) :
    eventPath n =
      ['/', 'd', 'e', 'v', '/', 'i', 'n', 'p', 'u', 't', '/',
        'e', 'v', 'e', 'n', 't'] ++ Decimal.format n := rfl

/- The number of a device is read from its path. -/
theorem devIdOf?_eventPath
    {n : Nat}
    (hNumber : n < 2147483648) :
    devIdOf? (eventPath n) = some (Int32.ofInt n) := by
  rw [eventPath_eq]
  apply devIdOf?_of_format
  · decide
  · decide
  · rw [Int.natAbs_natCast]
    omega

end FzEvent

------------------------------------------------------------
-- The Loop
------------------------------------------------------------

namespace FzEvent

/-
  The recorder thread. `parser` holds the static buffer `ei`,
  `evt` tells whether the pointer of the main loop is set (to
  that buffer), `pushed` lists the pushed packets. The last
  two fields are observations: the entries added since the
  last `PARSE_END`, and for every earlier `PARSE_END` the
  entries added between it and the one before.
-/
structure RecorderLoop where
  parser : Parser
  evt : Bool
  pushed : List EventInfo
  since : List Entry
  gestures : List (List Entry)

/- A device is read, or `get_event` returns. -/
inductive LoopStep
| read (name : List Char) (event : InputEvent)
| finish
deriving DecidableEq

namespace RecorderLoop

def init : RecorderLoop where
  parser := Parser.init
  evt := false
  pushed := []
  since := []
  gestures := []

/- The entries that a call of `parse_event` has added. -/
def added
    (s t : Parser) : List Entry :=
  t.ei.entries.drop s.ei.entries.length

/-
  One round of the loop of `get_event`: the device `name` is
  ready and its read gives `event`.
-/
def getEventRound
    (name : List Char)
    (event : InputEvent)
    (s : RecorderLoop) : Option RecorderLoop := do
  let (ret, parser) ← Parser.parseEvent event s.parser
  let since := s.since ++ added s.parser parser
  match ret with
  | .parseEnd =>
      let devId ← devIdOf? name
      return { s with
        parser :=
          { parser with ei := parser.ei.setDevId devId }
        evt := true
        since := []
        gestures := s.gestures ++ [since] }
  | .parseStart | .parseCon | .parseSkip =>
      return { s with
        parser := parser
        evt := false
        since := since }

/-
  The rest of an iteration of the main loop: with the pointer
  set, the first entry is printed, the packet is pushed and
  the buffer is cleared. The pointer stays set.
-/
def finish
    (s : RecorderLoop) : Option RecorderLoop :=
  if s.evt then
    if s.parser.ei.count = 0 then
      none
    else
      some { s with
        parser := { s.parser with ei := s.parser.ei.clear }
        pushed := s.pushed ++ [s.parser.ei] }
  else
    some s

/- What a call adds is the end of the new buffer. -/
theorem entries_eq_append_added
    {s t : Parser}
    {event : InputEvent}
    {ret : ParseInfo}
    (hParse : Parser.parseEvent event s = some (ret, t)) :
    t.ei.entries = s.ei.entries ++ added s t := by
  rcases Parser.exists_entries_parseEvent hParse with
    ⟨new, hAppends⟩
  rw [added, hAppends.entries_eq, List.drop_left]

/- A round on an event that completes a gesture. -/
theorem getEventRound_of_parseEnd
    {s : RecorderLoop}
    {name : List Char}
    {event : InputEvent}
    {parser : Parser}
    {devId : Int32}
    (hParse :
      Parser.parseEvent event s.parser =
        some (.parseEnd, parser))
    (hDevId : devIdOf? name = some devId) :
    s.getEventRound name event =
      some { s with
        parser :=
          { parser with ei := parser.ei.setDevId devId }
        evt := true
        since := []
        gestures :=
          s.gestures ++
            [s.since ++ added s.parser parser] } := by
  simp [getEventRound, hParse, hDevId]

/- A round on any other event clears the pointer. -/
theorem getEventRound_of_ne
    {s : RecorderLoop}
    {event : InputEvent}
    {ret : ParseInfo}
    {parser : Parser}
    (hParse :
      Parser.parseEvent event s.parser = some (ret, parser))
    (hRet : ret ≠ .parseEnd)
    (name : List Char) :
    s.getEventRound name event =
      some { s with
        parser := parser
        evt := false
        since := s.since ++ added s.parser parser } := by
  rw [getEventRound, hParse]
  cases ret with
  | parseStart => rfl
  | parseCon => rfl
  | parseSkip => rfl
  | parseEnd => exact absurd rfl hRet

/- With the pointer set, a buffer with entries is pushed. -/
theorem finish_of_evt
    {s : RecorderLoop}
    (hEvt : s.evt = true)
    (hCount : s.parser.ei.count ≠ 0) :
    s.finish =
      some { s with
        parser := { s.parser with ei := s.parser.ei.clear }
        pushed := s.pushed ++ [s.parser.ei] } := by
  simp [finish, hEvt, hCount]

theorem finish_of_not_evt
    {s : RecorderLoop}
    (hEvt : s.evt = false) :
    s.finish = some s := by
  simp [finish, hEvt]

/- A round appends to the buffer and pushes nothing. -/
theorem of_getEventRound
    {s t : RecorderLoop}
    {name : List Char}
    {event : InputEvent}
    (hRound : s.getEventRound name event = some t) :
    t.parser.ei.entries =
        s.parser.ei.entries ++ added s.parser t.parser ∧
      t.pushed = s.pushed := by
  cases hParse : Parser.parseEvent event s.parser with
  | none => simp [getEventRound, hParse] at hRound
  | some result =>
      rcases result with ⟨ret, parser⟩
      have hEntries := entries_eq_append_added hParse
      by_cases hRet : ret = .parseEnd
      · subst hRet
        cases hDevId : devIdOf? name with
        | none =>
            simp [getEventRound, hParse, hDevId] at hRound
        | some devId =>
            rw [getEventRound_of_parseEnd hParse hDevId]
              at hRound
            cases hRound
            exact ⟨hEntries, rfl⟩
      · rw [getEventRound_of_ne hParse hRet name] at hRound
        cases hRound
        exact ⟨hEntries, rfl⟩

/- An iteration ends with a push or without a change. -/
theorem of_finish
    {s t : RecorderLoop}
    (hFinish : s.finish = some t) :
    (s.evt = true ∧ t.parser.ei.entries = [] ∧
        t.pushed = s.pushed ++ [s.parser.ei]) ∨
      (s.evt = false ∧ t = s) := by
  cases hEvt : s.evt with
  | false =>
      rw [finish_of_not_evt hEvt] at hFinish
      cases hFinish
      exact Or.inr ⟨rfl, rfl⟩
  | true =>
      by_cases hCount : s.parser.ei.count = 0
      · simp [finish, hEvt, hCount] at hFinish
      · rw [finish_of_evt hEvt hCount] at hFinish
        cases hFinish
        exact Or.inl ⟨rfl, rfl, rfl⟩

end RecorderLoop

open Transition in
/- The recorder thread as a system. -/
def recorderLoop : System RecorderLoop LoopStep where
  init := RecorderLoop.init
  step s l :=
    match l with
    | .read name event => s.getEventRound name event
    | .finish => s.finish

/-
  The steps of one iteration, in which the devices are read in
  turn, and of a list of iterations.
-/
def iteration
    (reads : List (List Char × InputEvent)) : List LoopStep :=
  reads.map (fun r => .read r.1 r.2) ++ [.finish]

def iterations
    (polls : List (List (List Char × InputEvent))) :
    List LoopStep :=
  polls.flatMap iteration

end FzEvent

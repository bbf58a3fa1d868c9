import FzEvent.Lib.Window
import FzEvent.Transport.TcpServer

/-
  `tcp_server::recv_buffer` under partial reads, failures and
  a closed connection.

  The result of `recv()` is added to the total as an unsigned
  word: a closed connection adds nothing, so the loop goes on
  for ever, and a failure takes one byte back.

  Main declarations:
    * `FzEvent.RecvAnswer` and `TcpServer.recvBuffer`
    * `FzEvent.arrived` and `FzEvent.BreaksOff`
    * `FzEvent.AllOrNothing`
    * `FzEvent.allOrNothing_iff`
-/

------------------------------------------------------------
-- Receiving a Buffer
------------------------------------------------------------

namespace FzEvent

/-
  A result of `recv()`: at least one byte, 0 for a closed
  connection, or -1.
-/
inductive RecvAnswer
| bytes (first : UInt8) (rest : List UInt8)
| closed
| failed
deriving DecidableEq, Repr

namespace RecvAnswer

/- The bytes delivered into the space that is left. -/
def data
    (space : UInt32) : RecvAnswer → List UInt8
| .bytes first rest => (first :: rest).take space.toNat
| .closed => []
| .failed => []

/- The result, as `recv_len` holds it. -/
def result
    (space : UInt32) : RecvAnswer → UInt32
| .bytes first rest =>
    UInt32.ofNat (((first :: rest).take space.toNat).length)
| .closed => 0
| .failed => 0xffffffff

end RecvAnswer

/-
  What a call does to the memory `p`: it returns, it is still
  waiting when the results are used up, or it has written
  behind the end of `p`.
-/
inductive RecvResult
| returned (ret : Int) (p : List UInt8)
| waiting (p : List UInt8)
| overrun
deriving DecidableEq, Repr

/- Replace bytes of the memory, if they all are inside. -/
def storeAt
    (p : List UInt8)
    (off : Nat)
    (data : List UInt8) : Option (List UInt8) :=
  if off + data.length ≤ p.length then
    some (p.take off ++ data ++ p.drop (off + data.length))
  else
    none

namespace TcpServer

/- The loop of `recv_buffer`, which tests behind its body. -/
def recvLoop
    (len : UInt32) :
    List RecvAnswer → UInt32 → List UInt8 → RecvResult
| [], _, p => .waiting p
| answer :: answers, total, p =>
    match storeAt p total.toNat
        (answer.data (len - total)) with
    | none => .overrun
    | some p =>
        let total := total + answer.result (len - total)
        if total < len then
          recvLoop len answers total p
        else
          .returned (if total = len then 0 else -1) p

/- `recv_buffer` -/
def recvBuffer
    (server : TcpServer)
    (p : List UInt8)
    (len : UInt32)
    (answers : List RecvAnswer) : RecvResult :=
  if server.isInitialize = false then
    .returned (-1) p
  else if server.clientSock = 0 then
    .returned (-1) p
  else
    recvLoop len answers 0 p

end TcpServer

end FzEvent

------------------------------------------------------------
-- All or Nothing
------------------------------------------------------------

namespace FzEvent

namespace RecvAnswer

/- The result is 0 or -1. -/
def IsFailure : RecvAnswer → Prop
| .bytes _ _ => False
| .closed => True
| .failed => True

instance (answer : RecvAnswer) :
    Decidable answer.IsFailure :=
  match answer with
  | .bytes _ _ => .isFalse id
  | .closed => .isTrue trivial
  | .failed => .isTrue trivial

end RecvAnswer

/- The bytes in front of the first 0 or -1. -/
def leading : List RecvAnswer → List UInt8
| .bytes first rest :: answers =>
    (first :: rest) ++ leading answers
| _ => []

/- As many of them as were asked for. -/
def arrived
    (len : UInt32)
    (answers : List RecvAnswer) : List UInt8 :=
  (leading answers).take len.toNat

/-
  `fail` is the first result of 0 or -1, and the results
  before it have delivered less than `len` bytes.
-/
structure BreaksOff
    (len : UInt32)
    (answers before : List RecvAnswer)
    (fail : RecvAnswer) : Prop where
  isPrefix : before ++ [fail] <+: answers
  isFailure : fail.IsFailure
  first : ∀ answer ∈ before, ¬ answer.IsFailure
  length_lt : (leading before).length < len.toNat

/-
  The call returns 0 exactly when the `len` bytes arrive, and
  `p` then holds them; it stops with -1 at a result of 0 or
  -1 that comes before; and it writes inside `p` only.
-/
structure AllOrNothing
    (server : TcpServer)
    (p : List UInt8)
    (len : UInt32)
    (answers : List RecvAnswer) : Prop where
  zero_iff :
    (∃ p', server.recvBuffer p len answers =
        .returned 0 p') ↔
      (arrived len answers).length = len.toNat
  holds :
    ∀ p', server.recvBuffer p len answers = .returned 0 p' →
      p' = arrived len answers
  stops :
    ∀ before fail, BreaksOff len answers before fail →
      ∃ p', server.recvBuffer p len (before ++ [fail]) =
        .returned (-1) p'
  inside : server.recvBuffer p len answers ≠ .overrun

/-
  Nothing breaks off but at the very first result, which then
  is -1 and not added to a length of 2^32 - 1. A call for no
  bytes gets a result, and it is not -1.
-/
def ArrivesWhole
    (len : UInt32)
    (answers : List RecvAnswer) : Prop :=
  if len = 0 then
    ∃ first rest, answers = first :: rest ∧ first ≠ .failed
  else
    ∀ before fail, BreaksOff len answers before fail →
      before = [] ∧ fail = .failed ∧ len ≠ 0xffffffff

end FzEvent

------------------------------------------------------------
-- One Result
------------------------------------------------------------

namespace FzEvent

/- Bytes behind those that are already there. -/
theorem storeAt_append
    (got free data : List UInt8)
    (hFits : data.length ≤ free.length) :
    storeAt (got ++ free) got.length data =
      some (got ++ data ++ free.drop data.length) := by
  have hInside :
      got.length + data.length ≤ (got ++ free).length := by
    rw [List.length_append]
    omega
  rw [storeAt, if_pos hInside, List.take_left,
    List.drop_length_add_append]

theorem storeAt_nil
    {p : List UInt8}
    {off : Nat}
    (hInside : off ≤ p.length) :
    storeAt p off [] = some p := by
  simp [storeAt, hInside]

namespace TcpServer

variable {len : UInt32} {got free : List UInt8}

theorem toNat_ofNat_got
    (hLess : got.length ≤ len.toNat) :
    (UInt32.ofNat got.length).toNat = got.length := by
  have hLt := len.toNat_lt
  rw [UInt32.toNat_ofNat']
  exact Nat.mod_eq_of_lt (by omega)

/- The space that the loop asks for. -/
theorem toNat_space
    (hLess : got.length ≤ len.toNat) :
    (len - UInt32.ofNat got.length).toNat =
      len.toNat - got.length := by
  have hGot := toNat_ofNat_got hLess
  rw [UInt32.toNat_sub_of_le, hGot]
  rw [UInt32.le_iff_toNat_le, hGot]
  exact hLess

/- The bytes of a result lie behind those that are there. -/
theorem recvLoop_bytes
    (hLess : got.length ≤ len.toNat)
    (hSpace : got.length + free.length = len.toNat)
    {first : UInt8}
    {rest data : List UInt8}
    (hData :
      data = (first :: rest).take (len.toNat - got.length))
    (answers : List RecvAnswer) :
    recvLoop len (.bytes first rest :: answers)
        (UInt32.ofNat got.length) (got ++ free) =
      if (got ++ data).length < len.toNat then
        recvLoop len answers
          (UInt32.ofNat (got ++ data).length)
          (got ++ data ++ free.drop data.length)
      else
        .returned 0 (got ++ data) := by
  have hAnswer :
      (RecvAnswer.bytes first rest).data
        (len - UInt32.ofNat got.length) = data := by
    rw [RecvAnswer.data, toNat_space hLess, hData]
  have hResult :
      (RecvAnswer.bytes first rest).result
          (len - UInt32.ofNat got.length) =
        UInt32.ofNat data.length := by
    rw [RecvAnswer.result, toNat_space hLess, hData]
  have hFits : data.length ≤ len.toNat - got.length := by
    rw [hData]
    exact List.length_take_le _ _
  have hTotal :
      UInt32.ofNat got.length + UInt32.ofNat data.length =
        UInt32.ofNat (got ++ data).length := by
    rw [List.length_append, UInt32.ofNat_add]
  have hLength :
      (got ++ data).length = got.length + data.length :=
    List.length_append
  have hNext :
      (UInt32.ofNat (got ++ data).length).toNat =
        (got ++ data).length := by
    have hBound : (got ++ data).length ≤ len.toNat := by
      omega
    exact toNat_ofNat_got hBound
  rw [recvLoop, hAnswer, hResult, hTotal,
    toNat_ofNat_got hLess,
    storeAt_append got free data (by omega)]
  simp only [UInt32.lt_iff_toNat_lt, hNext]
  by_cases hMore : (got ++ data).length < len.toNat
  · rw [if_pos hMore, if_pos hMore]
  · have hFull : UInt32.ofNat (got ++ data).length = len := by
      apply UInt32.toNat_inj.mp
      omega
    have hNone : free.drop data.length = [] := by
      apply List.drop_eq_nil_of_le
      omega
    rw [if_neg hMore, if_neg hMore, if_pos hFull, hNone,
      List.append_nil]

/- A closed connection changes nothing: the loop goes on. -/
theorem recvLoop_closed
    {total : UInt32}
    {p : List UInt8}
    (hMore : total < len)
    (hLength : p.length = len.toNat)
    (answers : List RecvAnswer) :
    recvLoop len (.closed :: answers) total p =
      recvLoop len answers total p := by
  have hInside : total.toNat ≤ p.length := by
    rw [UInt32.lt_iff_toNat_lt] at hMore
    omega
  rw [recvLoop, RecvAnswer.data, RecvAnswer.result,
    storeAt_nil hInside]
  simp [hMore]

/- A failure takes one byte back: the loop goes on. -/
theorem recvLoop_failed
    {total : UInt32}
    {p : List UInt8}
    (hSome : total ≠ 0)
    (hMore : total < len)
    (hLength : p.length = len.toNat)
    (answers : List RecvAnswer) :
    recvLoop len (.failed :: answers) total p =
      recvLoop len answers (total - 1) p := by
  have hInside : total.toNat ≤ p.length := by
    rw [UInt32.lt_iff_toNat_lt] at hMore
    omega
  have hBack : total + 0xffffffff = total - 1 := by
    grind
  have hStill : total - 1 < len := by
    rw [UInt32.lt_iff_toNat_lt] at hMore ⊢
    have hPos : 0 < total.toNat := by
      apply Nat.pos_of_ne_zero
      intro hZero
      exact hSome (UInt32.toNat_inj.mp hZero)
    have hSub : (total - 1).toNat = total.toNat - 1 := by
      apply UInt32.toNat_sub_of_le
      rw [UInt32.le_iff_toNat_le]
      exact hPos
    omega
  rw [recvLoop, RecvAnswer.data, RecvAnswer.result,
    storeAt_nil hInside]
  simp [hBack, hStill]

/- A failure before the first byte ends the call. -/
theorem recvLoop_failed_zero
    (p : List UInt8)
    (answers : List RecvAnswer) :
    recvLoop len (.failed :: answers) 0 p =
      .returned (if len = 0xffffffff then 0 else -1) p := by
  have hLast : ¬ (0xffffffff : UInt32) < len := by
    rw [UInt32.lt_iff_toNat_lt]
    have hLt := len.toNat_lt
    have hMax : (0xffffffff : UInt32).toNat = 2 ^ 32 - 1 := rfl
    omega
  have hStore : storeAt p 0 [] = some p :=
    storeAt_nil (Nat.zero_le _)
  have hTotal : (0 : UInt32) + 0xffffffff = 0xffffffff := rfl
  rw [recvLoop, RecvAnswer.data, RecvAnswer.result,
    UInt32.toNat_zero, hStore]
  simp only [hTotal, if_neg hLast, eq_comm]

end TcpServer

end FzEvent

------------------------------------------------------------
-- Whole Runs
------------------------------------------------------------

namespace FzEvent

theorem leading_append
    {before : List RecvAnswer}
    (hBefore : ∀ answer ∈ before, ¬ answer.IsFailure)
    (tail : List RecvAnswer) :
    leading (before ++ tail) = leading before ++ leading tail := by
  induction before with
  | nil => rfl
  | cons answer before ih =>
      rw [List.forall_mem_cons] at hBefore
      cases answer with
      | bytes first rest =>
          simp only [List.cons_append, leading,
            ih hBefore.2, List.append_assoc]
      | closed => exact absurd trivial hBefore.1
      | failed => exact absurd trivial hBefore.1

theorem leading_failure
    {fail : RecvAnswer}
    (hFail : fail.IsFailure)
    (after : List RecvAnswer) :
    leading (fail :: after) = [] := by
  cases fail with
  | bytes first rest => exact absurd hFail id
  | closed => rfl
  | failed => rfl

/- Some bytes arrive with every result that is no failure. -/
theorem leading_eq_nil
    {before : List RecvAnswer}
    (hBefore : ∀ answer ∈ before, ¬ answer.IsFailure)
    (hNone : leading before = []) :
    before = [] := by
  cases before with
  | nil => rfl
  | cons answer before =>
      rw [List.forall_mem_cons] at hBefore
      cases answer with
      | bytes first rest => cases hNone
      | closed => exact absurd trivial hBefore.1
      | failed => exact absurd trivial hBefore.1

/- A list of results without a failure, or up to the first. -/
theorem exists_first_failure
    (answers : List RecvAnswer) :
    (∀ answer ∈ answers, ¬ answer.IsFailure) ∨
      ∃ before fail after, answers = before ++ fail :: after ∧
        fail.IsFailure ∧
          ∀ answer ∈ before, ¬ answer.IsFailure := by
  by_cases hSome : ∃ answer ∈ answers, answer.IsFailure
  · exact Or.inr (Window.exists_first hSome)
  · left
    intro answer hMem hFail
    exact hSome ⟨answer, hMem, hFail⟩

namespace TcpServer

variable {len : UInt32}

/- Results that do not complete the buffer are collected. -/
theorem recvLoop_leading
    {before : List RecvAnswer}
    (hBefore : ∀ answer ∈ before, ¬ answer.IsFailure)
    {got free : List UInt8}
    (hLess : (got ++ leading before).length < len.toNat)
    (hSpace : got.length + free.length = len.toNat)
    (tail : List RecvAnswer) :
    recvLoop len (before ++ tail) (UInt32.ofNat got.length)
        (got ++ free) =
      recvLoop len tail
        (UInt32.ofNat (got ++ leading before).length)
        (got ++ leading before ++
          free.drop (leading before).length) := by
  induction before generalizing got free with
  | nil => simp [leading]
  | cons answer before ih =>
      rw [List.forall_mem_cons] at hBefore
      cases answer with
      | closed => exact absurd trivial hBefore.1
      | failed => exact absurd trivial hBefore.1
      | bytes first rest =>
          simp only [leading, List.length_append,
            List.length_cons] at hLess
          have hData :
              first :: rest =
                (first :: rest).take
                  (len.toNat - got.length) := by
            rw [List.take_of_length_le]
            rw [List.length_cons]
            omega
          have hMore :
              (got ++ first :: rest).length < len.toNat := by
            rw [List.length_append, List.length_cons]
            omega
          rw [List.cons_append,
            recvLoop_bytes (by omega) hSpace hData,
            if_pos hMore, ih hBefore.2]
          · simp only [leading, List.append_assoc,
              List.length_append, List.drop_drop]
          · simp only [List.length_append, List.length_cons]
            omega
          · simp only [List.length_append, List.length_cons,
              List.length_drop]
            omega

/- Results that complete the buffer end the call. -/
theorem recvLoop_complete
    {answers : List RecvAnswer}
    {got free : List UInt8}
    (hLess : got.length < len.toNat)
    (hSpace : got.length + free.length = len.toNat)
    (hEnough : len.toNat ≤ (got ++ leading answers).length) :
    recvLoop len answers (UInt32.ofNat got.length)
        (got ++ free) =
      .returned 0 ((got ++ leading answers).take len.toNat) := by
  induction answers generalizing got free with
  | nil =>
      simp only [leading, List.append_nil] at hEnough
      omega
  | cons answer answers ih =>
      by_cases hFail : answer.IsFailure
      · rw [leading_failure hFail, List.append_nil] at hEnough
        omega
      · cases answer with
        | closed => exact absurd trivial hFail
        | failed => exact absurd trivial hFail
        | bytes first rest =>
            rw [recvLoop_bytes (Nat.le_of_lt hLess) hSpace rfl]
            split
            · next hMore =>
              have hAll :
                  (first :: rest).take
                      (len.toNat - got.length) =
                    first :: rest := by
                apply List.take_of_length_le
                simp only [List.length_append,
                  List.length_take, List.length_cons] at hMore
                rw [List.length_cons]
                omega
              rw [hAll] at hMore ⊢
              rw [ih hMore]
              · simp [leading]
              · simp only [List.length_append,
                  List.length_drop]
                rw [List.length_append] at hMore
                omega
              · simpa [leading] using hEnough
            · next hFull =>
              have hFits :
                  len.toNat - got.length ≤
                    (first :: rest).length := by
                simp only [List.length_append,
                  List.length_take, List.length_cons] at hFull
                rw [List.length_cons]
                omega
              rw [leading, List.take_append,
                List.take_of_length_le (Nat.le_of_lt hLess),
                List.take_append_of_le_length hFits]

end TcpServer

end FzEvent

------------------------------------------------------------
-- Inside the Memory
------------------------------------------------------------

namespace FzEvent

theorem length_of_storeAt
    {p p' data : List UInt8}
    {off : Nat}
    (hStore : storeAt p off data = some p') :
    p'.length = p.length := by
  unfold storeAt at hStore
  split at hStore
  · next hInside =>
    cases hStore
    simp only [List.length_append, List.length_take,
      List.length_drop]
    omega
  · cases hStore

theorem length_data_le
    (answer : RecvAnswer)
    (space : UInt32) :
    (answer.data space).length ≤ space.toNat := by
  cases answer with
  | bytes first rest => exact List.length_take_le _ _
  | closed => exact Nat.zero_le _
  | failed => exact Nat.zero_le _

namespace TcpServer

/-
  Failures and all, the loop writes only into the space that
  is left: the total never passes the length.
-/
theorem recvLoop_ne_overrun
    {len total : UInt32}
    {p : List UInt8}
    (hLength : p.length = len.toNat)
    (hTotal : total ≤ len)
    (answers : List RecvAnswer) :
    recvLoop len answers total p ≠ .overrun := by
  induction answers generalizing total p with
  | nil =>
      intro hEnd
      cases hEnd
  | cons answer answers ih =>
      have hSpace :
          (len - total).toNat = len.toNat - total.toNat :=
        UInt32.toNat_sub_of_le _ _ hTotal
      have hData := length_data_le answer (len - total)
      rw [UInt32.le_iff_toNat_le] at hTotal
      have hInside :
          total.toNat +
              (answer.data (len - total)).length ≤
            p.length := by
        omega
      rw [recvLoop]
      cases hStore : storeAt p total.toNat
          (answer.data (len - total)) with
      | none =>
          rw [storeAt, if_pos hInside] at hStore
          cases hStore
      | some p' =>
          dsimp only
          split
          · next hMore =>
            apply ih
            · rw [length_of_storeAt hStore, hLength]
            · exact UInt32.le_of_lt hMore
          · intro hEnd
            cases hEnd

end TcpServer

end FzEvent

------------------------------------------------------------
-- When the Word Arrives Whole
------------------------------------------------------------

namespace FzEvent

namespace TcpServer

section Connected

variable {server : TcpServer} {p : List UInt8} {len : UInt32}
variable (hInit : server.isInitialize = true)
variable (hSock : server.clientSock ≠ 0)
variable (hLength : p.length = len.toNat)

include hInit hSock

/- A connected server runs the loop. -/
theorem recvBuffer_eq
    (answers : List RecvAnswer) :
    server.recvBuffer p len answers =
      recvLoop len answers 0 p := by
  simp [recvBuffer, hInit, hSock]

/- A first result of -1 ends the call. -/
theorem recvBuffer_failed
    (tail : List RecvAnswer) :
    server.recvBuffer p len (.failed :: tail) =
      .returned (if len = 0xffffffff then 0 else -1) p := by
  rw [recvBuffer_eq hInit hSock]
  exact recvLoop_failed_zero p tail

include hLength

/- A call for no bytes ends with its first result. -/
theorem recvBuffer_zero
    (hZero : len = 0)
    (answer : RecvAnswer)
    (answers : List RecvAnswer) :
    server.recvBuffer p len (answer :: answers) =
      .returned (if answer = .failed then -1 else 0) [] := by
  subst hZero
  have hNil : p = [] := List.length_eq_zero_iff.mp hLength
  subst hNil
  rw [recvBuffer_eq hInit hSock]
  cases answer with
  | bytes first rest => rfl
  | closed => rfl
  | failed => rfl

theorem recvBuffer_complete
    {answers : List RecvAnswer}
    (hPos : len ≠ 0)
    (hEnough : len.toNat ≤ (leading answers).length) :
    server.recvBuffer p len answers =
      .returned 0 (arrived len answers) := by
  have hLess : ([] : List UInt8).length < len.toNat := by
    apply Nat.pos_of_ne_zero
    intro hZero
    exact hPos (UInt32.toNat_inj.mp hZero)
  have hSpace :
      ([] : List UInt8).length + p.length = len.toNat := by
    rw [List.length_nil, Nat.zero_add]
    exact hLength
  have hRun :=
    recvLoop_complete hLess hSpace
      (by rwa [List.nil_append] : len.toNat ≤
        ([] ++ leading answers).length)
  rw [recvBuffer_eq hInit hSock]
  exact hRun

/- Results that do not complete the buffer leave it waiting. -/
theorem recvBuffer_leading
    {before : List RecvAnswer}
    (hBefore : ∀ answer ∈ before, ¬ answer.IsFailure)
    (hLess : (leading before).length < len.toNat)
    (tail : List RecvAnswer) :
    ∃ p', p'.length = len.toNat ∧
      server.recvBuffer p len (before ++ tail) =
        recvLoop len tail
          (UInt32.ofNat (leading before).length) p' := by
  have hSpace :
      ([] : List UInt8).length + p.length = len.toNat := by
    rw [List.length_nil, Nat.zero_add]
    exact hLength
  have hRun :=
    recvLoop_leading hBefore
      (by rwa [List.nil_append] :
        ([] ++ leading before).length < len.toNat)
      hSpace tail
  refine ⟨leading before ++ p.drop (leading before).length,
    ?_, ?_⟩
  · rw [List.length_append, List.length_drop]
    omega
  · rw [recvBuffer_eq hInit hSock]
    exact hRun

/- Every other 0 or -1 that comes too early is ignored. -/
theorem recvBuffer_breaksOff
    {answers before : List RecvAnswer}
    {fail : RecvAnswer}
    (hBreak : BreaksOff len answers before fail)
    (hLater : ¬ (before = [] ∧ fail = .failed)) :
    ∃ p', server.recvBuffer p len (before ++ [fail]) =
      .waiting p' := by
  rcases hBreak with ⟨_, hFail, hBefore, hLess⟩
  rcases recvBuffer_leading hInit hSock hLength hBefore hLess
    [fail] with ⟨p', hLength', hRun⟩
  have hTotal :
      (UInt32.ofNat (leading before).length).toNat =
        (leading before).length :=
    toNat_ofNat_got (Nat.le_of_lt hLess)
  have hMore :
      UInt32.ofNat (leading before).length < len := by
    rw [UInt32.lt_iff_toNat_lt, hTotal]
    exact hLess
  refine ⟨p', ?_⟩
  rw [hRun]
  cases fail with
  | bytes first rest => exact absurd hFail id
  | closed => rw [recvLoop_closed hMore hLength', recvLoop]
  | failed =>
      have hSome :
          UInt32.ofNat (leading before).length ≠ 0 := by
        intro hZero
        rw [hZero, UInt32.toNat_zero] at hTotal
        have hNone : leading before = [] :=
          List.length_eq_zero_iff.mp hTotal.symm
        exact hLater ⟨leading_eq_nil hBefore hNone, rfl⟩
      rw [recvLoop_failed hSome hMore hLength', recvLoop]

/- How a call ends when only a first -1 comes too early. -/
theorem recvBuffer_of_breaksOff
    {answers : List RecvAnswer}
    (hPos : len ≠ 0)
    (hWhole :
      ∀ before fail, BreaksOff len answers before fail →
        before = [] ∧ fail = .failed ∧ len ≠ 0xffffffff) :
    (len.toNat ≤ (leading answers).length ∧
        server.recvBuffer p len answers =
          .returned 0 (arrived len answers)) ∨
      ((leading answers).length < len.toNat ∧
        ∃ p', server.recvBuffer p len answers = .waiting p' ∨
          server.recvBuffer p len answers =
            .returned (-1) p') := by
  by_cases hEnough : len.toNat ≤ (leading answers).length
  · left
    exact ⟨hEnough,
      recvBuffer_complete hInit hSock hLength hPos hEnough⟩
  · right
    rw [Nat.not_le] at hEnough
    refine ⟨hEnough, ?_⟩
    rcases exists_first_failure answers with
      hNone | ⟨before, fail, after, rfl, hFail, hBefore⟩
    · rcases recvBuffer_leading hInit hSock hLength hNone
        hEnough [] with ⟨p', _, hRun⟩
      rw [List.append_nil, recvLoop] at hRun
      exact ⟨p', Or.inl hRun⟩
    · rw [leading_append hBefore, leading_failure hFail,
        List.append_nil] at hEnough
      have hBreak :
          BreaksOff len (before ++ fail :: after) before
            fail :=
        ⟨⟨after, by simp⟩, hFail, hBefore, hEnough⟩
      rcases hWhole before fail hBreak with
        ⟨rfl, rfl, hMax⟩
      refine ⟨p, Or.inr ?_⟩
      rw [List.nil_append, recvBuffer_failed hInit hSock,
        if_neg hMax]

/- The call for no bytes. -/
theorem allOrNothing_zero_iff
    (hZero : len = 0)
    (answers : List RecvAnswer) :
    AllOrNothing server p len answers ↔
      ∃ first rest, answers = first :: rest ∧
        first ≠ .failed := by
  have hArrived : arrived len answers = [] := by
    rw [arrived, hZero]
    rfl
  have hLen : len.toNat = 0 := by
    rw [hZero]
    rfl
  constructor
  · intro hAll
    rcases hAll.zero_iff.mpr (by rw [hArrived, hLen]; rfl) with
      ⟨p', hReturned⟩
    rcases answers with _ | ⟨first, rest⟩
    · rw [recvBuffer_eq hInit hSock, recvLoop] at hReturned
      cases hReturned
    · refine ⟨first, rest, rfl, ?_⟩
      rintro rfl
      rw [recvBuffer_zero hInit hSock hLength hZero]
        at hReturned
      cases hReturned
  · rintro ⟨first, rest, rfl, hFirst⟩
    have hReturned :=
      recvBuffer_zero hInit hSock hLength hZero first rest
    rw [if_neg hFirst] at hReturned
    constructor
    · rw [hReturned, hArrived, hLen]
      exact iff_of_true ⟨[], rfl⟩ rfl
    · intro p' hOther
      rw [hReturned] at hOther
      cases hOther
      exact hArrived.symm
    · intro before fail hBreak
      have hLess := hBreak.length_lt
      omega
    · rw [hReturned]
      intro hEnd
      cases hEnd

/- Nothing breaks off in a call that is all or nothing. -/
theorem AllOrNothing.breaksOff_first
    {answers before : List RecvAnswer}
    {fail : RecvAnswer}
    (hAll : AllOrNothing server p len answers)
    (hBreak : BreaksOff len answers before fail) :
    before = [] ∧ fail = .failed ∧ len ≠ 0xffffffff := by
  rcases hAll.stops before fail hBreak with
    ⟨p', hReturned⟩
  by_cases hFirst : before = [] ∧ fail = .failed
  · rcases hFirst with ⟨rfl, rfl⟩
    refine ⟨rfl, rfl, ?_⟩
    intro hMax
    rw [List.nil_append,
      recvBuffer_failed hInit hSock,
      if_pos hMax] at hReturned
    cases hReturned
  · rcases recvBuffer_breaksOff hInit hSock
        hLength hBreak hFirst with ⟨p'', hWaiting⟩
    rw [hWaiting] at hReturned
    cases hReturned

/- The call for some bytes. -/
theorem allOrNothing_pos_iff
    (hPos : len ≠ 0)
    (answers : List RecvAnswer) :
    AllOrNothing server p len answers ↔
      ∀ before fail, BreaksOff len answers before fail →
        before = [] ∧ fail = .failed ∧ len ≠ 0xffffffff := by
  constructor
  · intro hAll before fail hBreak
    exact AllOrNothing.breaksOff_first hInit hSock hLength hAll
      hBreak
  · intro hWhole
    have hEnds :=
      recvBuffer_of_breaksOff hInit hSock hLength
        hPos hWhole
    have hCount :
        (arrived len answers).length = len.toNat ↔
          len.toNat ≤ (leading answers).length := by
      rw [arrived, List.length_take]
      omega
    constructor
    · rw [hCount]
      rcases hEnds with ⟨hEnough, hReturned⟩ |
        ⟨hLess, p', hWaiting | hReturned⟩
      · exact iff_of_true ⟨_, hReturned⟩ hEnough
      · simp [hWaiting, Nat.not_le.mpr hLess]
      · simp [hReturned, Nat.not_le.mpr hLess]
    · intro p'' hZero
      rcases hEnds with ⟨_, hReturned⟩ |
        ⟨_, p', hWaiting | hReturned⟩
      · rw [hReturned] at hZero
        cases hZero
        rfl
      · rw [hWaiting] at hZero
        cases hZero
      · rw [hReturned] at hZero
        cases hZero
    · intro before fail hBreak
      rcases hWhole before fail hBreak with
        ⟨rfl, rfl, hMax⟩
      refine ⟨p, ?_⟩
      rw [List.nil_append,
        recvBuffer_failed hInit hSock,
        if_neg hMax]
    · rw [recvBuffer_eq hInit hSock]
      apply recvLoop_ne_overrun hLength
      rw [UInt32.le_iff_toNat_le, UInt32.toNat_zero]
      exact Nat.zero_le _

end Connected

end TcpServer

/-
  Receiving is all or nothing exactly for the results among
  which no 0 or -1 comes too early, unless it is a -1 in the
  first place.
-/
theorem allOrNothing_iff
    {server : TcpServer}
    {p : List UInt8}
    {len : UInt32}
    (hInit : server.isInitialize = true)
    (hSock : server.clientSock ≠ 0)
    (hLength : p.length = len.toNat)
    (answers : List RecvAnswer) :
    AllOrNothing server p len answers ↔
      ArrivesWhole len answers := by
  unfold ArrivesWhole
  split
  · next hZero =>
    exact TcpServer.allOrNothing_zero_iff hInit hSock hLength
      hZero answers
  · next hPos =>
    exact TcpServer.allOrNothing_pos_iff hInit hSock hLength
      hPos answers

/- A control word in two pieces, on a connected server. -/
theorem allOrNothing_iff_twoPieces :
    AllOrNothing ⟨true, 4⟩ [0, 0, 0, 0] 4
        [.bytes 1 [2], .bytes 3 [4]] ↔
      ArrivesWhole 4 [.bytes 1 [2], .bytes 3 [4]] :=
  allOrNothing_iff rfl (by decide) rfl _

/-
  The client closes the connection in front of a control
  word: the call does not return, however often it asks.
-/
theorem not_allOrNothing_closed :
    ¬ ∃ n : Nat,
      AllOrNothing ⟨true, 4⟩ [0, 0, 0, 0] 4
        (List.replicate (n + 1) .closed) := by
  rintro ⟨n, hAll⟩
  have hBreak :
      BreaksOff 4 (List.replicate (n + 1) .closed) []
        .closed := by
    constructor
    · exact ⟨List.replicate n .closed, rfl⟩
    · trivial
    · intro answer hMem
      cases hMem
    · decide
  rcases hAll.stops [] .closed hBreak with ⟨p', hReturned⟩
  cases hReturned

end FzEvent

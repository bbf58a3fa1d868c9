import FzEvent.Lib.Window
import Mathlib.Data.List.Basic

/-
  `tcp_server::send_buffer` under partial writes.

  The kernel answers every `write()` with a `ssize_t`; a run
  is given by the list of these answers. After a partial
  write the code continues at the offset of the last answer
  instead of the sum of all answers, so from the third write
  on the bytes come from the wrong place.

  Main declarations:
    * `TcpServer.sendBuffer`
    * `FzEvent.SendsAll`
    * `FzEvent.Aligned`
    * `FzEvent.sendsAll_iff`
-/

------------------------------------------------------------
-- Sending a Buffer
------------------------------------------------------------

namespace FzEvent

open Window

/- The state of `tcp_server` that the transfers read. -/
structure TcpServer where
  isInitialize : Bool
  clientSock : Int32

/-
  What a call does to the socket: it returns after putting
  the bytes, or is still waiting when the answers are used up.
-/
inductive SendResult
| returned (ret : Int) (socket : List UInt8)
| waiting (socket : List UInt8)
deriving DecidableEq, Repr

namespace TcpServer

/-
  The loop of `send_buffer`: `t` is the last answer of
  `write()` as an unsigned word, `len` the remaining length.
-/
def sendLoop
    (p : List UInt8) :
    List Int32 → UInt32 → UInt32 → List UInt8 → SendResult
| [], _, len, socket =>
    if len = 0 then .returned 0 socket else .waiting socket
| r :: answers, t, len, socket =>
    if len = 0 then
      .returned 0 socket
    else if r.toUInt32 = 0xffffffff then
      .returned (-1) socket
    else
      sendLoop p answers r.toUInt32 (len - r.toUInt32)
        (socket ++ window p t.toNat r.toUInt32.toNat)

/- `send_buffer` -/
def sendBuffer
    (server : TcpServer)
    (p : List UInt8)
    (len : UInt32)
    (answers : List Int32) : SendResult :=
  if server.isInitialize then
    sendLoop p answers 0 len []
  else
    .returned (-1) []

end TcpServer

/- The number of bytes that the answers report as written. -/
def written : List Int32 → Nat
| [] => 0
| r :: answers => r.toUInt32.toNat + written answers

/-
  Stream integrity for one buffer and one way to split it:
  when the writes add up to the length the call returns 0
  and has sent the buffer; when a write fails before that,
  it returns -1 and has sent a prefix of the buffer.
-/
def SendsAll
    (server : TcpServer)
    (p : List UInt8)
    (len : UInt32)
    (answers : List Int32) : Prop :=
  (written answers = len.toNat →
    server.sendBuffer p len answers = .returned 0 p) ∧
  (written answers < len.toNat →
    ∃ sent,
      server.sendBuffer p len (answers ++ [-1]) =
        .returned (-1) sent ∧ sent <+: p)

end FzEvent

------------------------------------------------------------
-- The Bytes on the Socket
------------------------------------------------------------

namespace FzEvent

open Window

@[simp] theorem written_nil : written [] = 0 := rfl

@[simp] theorem written_cons
    (r : Int32)
    (answers : List Int32) :
    written (r :: answers) =
      r.toUInt32.toNat + written answers := rfl

/- The bytes the loop puts, starting from the offset `t`. -/
def sentBytes
    (p : List UInt8) :
    Nat → List Int32 → List UInt8
| _, [] => []
| t, r :: answers =>
    window p t r.toUInt32.toNat ++
      sentBytes p r.toUInt32.toNat answers

/- A positive answer is neither 0 nor the failure word. -/
theorem toUInt32_of_pos
    {r : Int32}
    (hPos : 0 < r.toInt) :
    r.toUInt32 ≠ 0xffffffff ∧ 0 < r.toUInt32.toNat := by
  constructor
  · intro hEq
    have hFail : r = -1 := by
      rw [← Int32.toInt32_toUInt32 r, hEq]
      rfl
    subst hFail
    exact absurd hPos (by decide)
  · apply Nat.pos_of_ne_zero
    intro hEq
    have hZero : r = 0 := by
      rw [← Int32.toInt32_toUInt32 r,
        UInt32.toNat_inj.mp
          (hEq.trans UInt32.toNat_zero.symm)]
      rfl
    subst hZero
    exact absurd hPos (by decide)

/- The loop consumes positive answers and puts their bytes. -/
theorem sendLoop_append
    (p : List UInt8)
    (answers tail : List Int32)
    (t len : UInt32)
    (socket : List UInt8)
    (hPos : ∀ r ∈ answers, 0 < r.toInt)
    (hLe : written answers ≤ len.toNat) :
    ∃ t' len' : UInt32,
      len'.toNat = len.toNat - written answers ∧
        TcpServer.sendLoop p (answers ++ tail) t len socket =
          TcpServer.sendLoop p tail t' len'
            (socket ++ sentBytes p t.toNat answers) := by
  induction answers generalizing t len socket with
  | nil => exact ⟨t, len, by simp, by simp [sentBytes]⟩
  | cons r answers ih =>
      rcases toUInt32_of_pos (hPos r (by simp)) with
        ⟨hNotFail, hByte⟩
      rw [written_cons] at hLe
      have hLen : len ≠ 0 := by
        rintro rfl
        rw [UInt32.toNat_zero] at hLe
        omega
      have hSub :
          (len - r.toUInt32).toNat =
            len.toNat - r.toUInt32.toNat := by
        apply UInt32.toNat_sub_of_le
        rw [UInt32.le_iff_toNat_le]
        omega
      rcases ih r.toUInt32 (len - r.toUInt32)
          (socket ++ window p t.toNat r.toUInt32.toNat)
          (fun r' hMem => hPos r' (by simp [hMem]))
          (by omega) with
        ⟨t', len', hLen', hRun⟩
      refine ⟨t', len', ?_, ?_⟩
      · rw [hLen', hSub, written_cons]
        omega
      · rw [List.cons_append, TcpServer.sendLoop,
          if_neg hLen, if_neg hNotFail, hRun, sentBytes,
          List.append_assoc]

/- When the writes add up, the call returns 0. -/
theorem sendBuffer_of_written_eq
    {server : TcpServer}
    {p : List UInt8}
    {len : UInt32}
    {answers : List Int32}
    (hInit : server.isInitialize = true)
    (hPos : ∀ r ∈ answers, 0 < r.toInt)
    (hSum : written answers = len.toNat) :
    server.sendBuffer p len answers =
      .returned 0 (sentBytes p 0 answers) := by
  rcases sendLoop_append p answers [] 0 len [] hPos
      (by omega) with
    ⟨t', len', hLen', hRun⟩
  have hDone : len' = 0 := by
    apply UInt32.toNat_inj.mp
    rw [hLen', UInt32.toNat_zero]
    omega
  rw [List.append_nil] at hRun
  rw [TcpServer.sendBuffer, if_pos hInit, hRun, hDone]
  simp [TcpServer.sendLoop]

/- When a write fails before that, it returns -1. -/
theorem sendBuffer_of_written_lt
    {server : TcpServer}
    {p : List UInt8}
    {len : UInt32}
    {answers : List Int32}
    (hInit : server.isInitialize = true)
    (hPos : ∀ r ∈ answers, 0 < r.toInt)
    (hSum : written answers < len.toNat) :
    server.sendBuffer p len (answers ++ [-1]) =
      .returned (-1) (sentBytes p 0 answers) := by
  rcases sendLoop_append p answers [-1] 0 len [] hPos
      (by omega) with
    ⟨t', len', hLen', hRun⟩
  have hMore : len' ≠ 0 := by
    rintro rfl
    rw [UInt32.toNat_zero] at hLen'
    omega
  have hFail : (-1 : Int32).toUInt32 = 0xffffffff := rfl
  rw [TcpServer.sendBuffer, if_pos hInit, hRun,
    TcpServer.sendLoop, if_neg hMore, if_pos hFail]
  simp

end FzEvent

------------------------------------------------------------
-- When the Right Bytes Are Sent
------------------------------------------------------------

namespace FzEvent

open Window

/-
  At every write the bytes at the offset the loop uses, the
  last answer `t`, are those at the right offset, the sum
  `s` of all answers so far.
-/
def Aligned
    (p : List UInt8) :
    Nat → Nat → List Int32 → Prop
| _, _, [] => True
| t, s, r :: answers =>
    window p t r.toUInt32.toNat =
        window p s r.toUInt32.toNat ∧
      Aligned p r.toUInt32.toNat (s + r.toUInt32.toNat)
        answers

instance decidableAligned
    (p : List UInt8)
    (t s : Nat)
    (answers : List Int32) :
    Decidable (Aligned p t s answers) :=
  match answers with
  | [] => .isTrue trivial
  | r :: answers =>
      have := decidableAligned p r.toUInt32.toNat
        (s + r.toUInt32.toNat) answers
      inferInstanceAs (Decidable (_ ∧ _))

theorem length_sentBytes
    {p : List UInt8}
    {answers : List Int32}
    {t s : Nat}
    (hOffset : t ≤ s)
    (hInside : s + written answers ≤ p.length) :
    (sentBytes p t answers).length = written answers := by
  induction answers generalizing t s with
  | nil => rfl
  | cons r answers ih =>
      rw [written_cons] at hInside
      rw [sentBytes, List.length_append,
        length_window (by omega),
        ih (s := s + r.toUInt32.toNat) (by omega) (by omega),
        written_cons]

/- The loop sends the right bytes exactly when aligned. -/
theorem sentBytes_eq_window_iff
    {p : List UInt8}
    {answers : List Int32}
    {t s : Nat}
    (hOffset : t ≤ s)
    (hInside : s + written answers ≤ p.length) :
    sentBytes p t answers = window p s (written answers) ↔
      Aligned p t s answers := by
  induction answers generalizing t s with
  | nil => simp [sentBytes, Aligned]
  | cons r answers ih =>
      rw [written_cons] at hInside
      rw [sentBytes, written_cons, window_add,
        window_append_inj (by omega) (by omega),
        ih (by omega) (by omega), Aligned]

/- Up to two writes every buffer is aligned. -/
theorem aligned_of_length_le
    (p : List UInt8)
    {answers : List Int32}
    (hLength : answers.length ≤ 2) :
    Aligned p 0 0 answers := by
  match answers, hLength with
  | [], _ => trivial
  | [r], _ => exact ⟨rfl, trivial⟩
  | [r, r'], _ =>
      exact ⟨rfl, by rw [Nat.zero_add], trivial⟩

/- From three writes on some buffer of the length is not. -/
theorem exists_not_aligned
    {answers : List Int32}
    {n : Nat}
    (hPos : ∀ r ∈ answers, 0 < r.toInt)
    (hInside : written answers ≤ n)
    (hLength : 2 < answers.length) :
    ∃ p : List UInt8,
      p.length = n ∧ ¬ Aligned p 0 0 answers := by
  match answers, hLength with
  | r₁ :: r₂ :: r₃ :: answers, _ =>
      have hPos₁ := (toUInt32_of_pos (hPos r₁ (by simp))).2
      have hPos₃ := (toUInt32_of_pos (hPos r₃ (by simp))).2
      simp only [written_cons] at hInside
      -- one marked byte, where the third write should start
      let mark := r₁.toUInt32.toNat + r₂.toUInt32.toNat
      refine ⟨(List.replicate n 0).set mark 1, by simp, ?_⟩
      intro hAligned
      have hThird := congrArg List.head? hAligned.2.2.1
      rw [head?_window _ _ hPos₃, head?_window _ _ hPos₃,
        Nat.zero_add, List.getElem?_set_self (by
          simp only [List.length_replicate]
          omega),
        List.getElem?_set_ne (by omega),
        List.getElem?_replicate, if_pos (by omega)] at hThird
      exact absurd hThird (by decide)

/- Stream integrity of one run is alignment of its writes. -/
theorem sendsAll_iff_aligned
    {server : TcpServer}
    {p : List UInt8}
    {len : UInt32}
    {answers : List Int32}
    (hInit : server.isInitialize = true)
    (hLength : p.length = len.toNat)
    (hPos : ∀ r ∈ answers, 0 < r.toInt)
    (hLe : written answers ≤ len.toNat) :
    SendsAll server p len answers ↔
      Aligned p 0 0 answers := by
  rw [← sentBytes_eq_window_iff (Nat.le_refl 0) (by omega)]
  unfold SendsAll
  by_cases hAll : written answers = len.toNat
  · rw [sendBuffer_of_written_eq hInit hPos hAll, hAll,
      ← hLength, window_length]
    simp
  · have hLt : written answers < len.toNat := by omega
    rw [sendBuffer_of_written_lt hInit hPos hLt]
    constructor
    · rintro ⟨-, hFail⟩
      rcases hFail hLt with ⟨sent, hSent, hPrefix⟩
      cases hSent
      have hTake := List.prefix_iff_eq_take.mp hPrefix
      rw [length_sentBytes (Nat.le_refl 0) (by omega)]
        at hTake
      simpa [window] using hTake
    · intro hSent
      refine ⟨fun hEq => absurd hEq hAll, fun _ => ?_⟩
      exact ⟨_, rfl, hSent ▸ window_isPrefix p _⟩

/-
  For a given sequence of answers, every buffer is sent
  intact exactly when there are at most two of them; for a
  given buffer, exactly when its writes are aligned.
-/
theorem sendsAll_iff
    (server : TcpServer)
    (len : UInt32)
    (answers : List Int32)
    (hInit : server.isInitialize = true)
    (hPos : ∀ r ∈ answers, 0 < r.toInt)
    (hLe : written answers ≤ len.toNat) :
    ((∀ p : List UInt8, p.length = len.toNat →
        SendsAll server p len answers) ↔
      answers.length ≤ 2) ∧
    ∀ p : List UInt8, p.length = len.toNat →
      (SendsAll server p len answers ↔
        Aligned p 0 0 answers) := by
  refine ⟨⟨fun hAll => ?_, fun hShort p hLength => ?_⟩,
    fun p hLength =>
      sendsAll_iff_aligned hInit hLength hPos hLe⟩
  · by_contra hLong
    rcases exists_not_aligned hPos hLe (by omega) with
      ⟨p, hLength, hNot⟩
    exact hNot ((sendsAll_iff_aligned hInit hLength hPos
      hLe).mp (hAll p hLength))
  · exact (sendsAll_iff_aligned hInit hLength hPos hLe).mpr
      (aligned_of_length_le p hShort)

/- Three bytes sent in two writes arrive. -/
theorem sendsAll_iff_two_writes :
    (∀ p : List UInt8, p.length = (3 : UInt32).toNat →
        SendsAll ⟨true, 5⟩ p 3 [2, 1]) ↔
      [(2 : Int32), 1].length ≤ 2 :=
  (sendsAll_iff ⟨true, 5⟩ 3 [2, 1] rfl (by simp)
    (by decide)).1

/-
  Three bytes sent one by one: the third write repeats the
  second byte.
-/
theorem not_sendsAll_of_three_writes :
    ¬ ∀ (server : TcpServer) (p : List UInt8) (len : UInt32)
        (answers : List Int32),
      server.isInitialize = true →
        p.length = len.toNat →
          (∀ r ∈ answers, 0 < r.toInt) →
            written answers ≤ len.toNat →
              SendsAll server p len answers := by
  intro hAll
  have hSends :=
    hAll ⟨true, 5⟩ [1, 2, 3] 3 [1, 1, 1] rfl rfl (by simp)
      (by decide)
  have hRun := hSends.1 (by decide)
  exact absurd hRun (by decide)

end FzEvent

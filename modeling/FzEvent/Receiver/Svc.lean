import FzEvent.Receiver.CEvtRcv

/-
  The receive loop `CEvtRcv::svc`, with its local buffer and
  `recv_n`.

  The connection is the byte string that still arrives; after
  its last byte it is closed.

  Main declarations:
    * `FzEvent.Buffer`, `FzEvent.RecvN` and `FzEvent.CLib`
    * `FzEvent.Handled`, `FzEvent.SvcState`, `FzEvent.SvcEnd`
    * `FzEvent.svcRound` and `FzEvent.svc`
-/

------------------------------------------------------------
-- The Buffer
------------------------------------------------------------

namespace FzEvent

/- `char buf[size]` -/
structure Buffer (size : Nat) where
  bytes : List UInt8
  length_bytes : bytes.length = size
deriving DecidableEq

namespace Buffer

def zero (size : Nat) : Buffer size :=
  ⟨List.replicate size 0, List.length_replicate⟩

variable {size : Nat}

/- The data lies at the start; what is behind it stays. -/
def fill
    (buf : Buffer size)
    (data : List UInt8)
    (hFits : data.length ≤ size) : Buffer size where
  bytes := data ++ buf.bytes.drop data.length
  length_bytes := by
    have hLength := buf.length_bytes
    rw [List.length_append, List.length_drop]
    omega

end Buffer

/- The three ways in which a call of `recv_n` ends. -/
inductive Recv (size : Nat)
| closed
| overflow
| received (buf : Buffer size) (rest : List UInt8)

/-
  `recv_n(buf, n)` of ACE, on the bytes that still arrive. It
  stores them as they come, so more than `size` of them
  overflow the buffer; it returns a positive number only when
  all of at least one byte have arrived, and they then lie at
  the start of the buffer.
-/
structure RecvN (size : Nat) where
  call : Buffer size → Nat → List UInt8 → Recv size
  call_received :
    ∀ buf n stream, 1 ≤ n → n ≤ size → n ≤ stream.length →
      ∃ buf', call buf n stream =
          .received buf' (stream.drop n) ∧
        stream.take n <+: buf'.bytes
  call_closed :
    ∀ buf n stream, n = 0 ∨ stream.length < n →
      min n stream.length ≤ size →
        call buf n stream = .closed
  call_overflow :
    ∀ buf n stream, size < min n stream.length →
      call buf n stream = .overflow

namespace RecvN

variable {size : Nat}

/- A `recv_n` that touches no other byte of the buffer. -/
def plain (size : Nat) : RecvN size where
  call buf n stream :=
    if hFits : min n stream.length ≤ size then
      if n = 0 ∨ stream.length < n then
        .closed
      else
        .received
          (buf.fill (stream.take n)
            (by rw [List.length_take]; exact hFits))
          (stream.drop n)
    else
      .overflow
  call_received := by
    intro buf n stream hNonempty hFits hLength
    have hMin : min n stream.length ≤ size := by omega
    have hArrives : ¬(n = 0 ∨ stream.length < n) := by omega
    refine ⟨_, by rw [dif_pos hMin, if_neg hArrives], ?_⟩
    exact List.prefix_append _ _
  call_closed := by
    intro buf n stream hMissing hMin
    rw [dif_pos hMin, if_pos hMissing]
  call_overflow := by
    intro buf n stream hLong
    rw [dif_neg (by omega)]

/- What arrives lies at the start of the buffer. -/
theorem call_append
    (recvN : RecvN size)
    {n : Nat}
    (buf : Buffer size)
    {data : List UInt8}
    (hLength : data.length = n)
    (hNonempty : 1 ≤ n)
    (hFits : n ≤ size)
    (rest : List UInt8) :
    ∃ buf' tail,
      recvN.call buf n (data ++ rest) =
          .received buf' rest ∧
        buf'.bytes = data ++ tail := by
  subst hLength
  rcases recvN.call_received buf data.length (data ++ rest)
      hNonempty hFits (by simp) with
    ⟨buf', hCall, tail, hBytes⟩
  rw [List.drop_left] at hCall
  rw [List.take_left] at hBytes
  exact ⟨buf', tail, hCall, hBytes.symm⟩

/- While bytes are missing, it has none to give back. -/
theorem call_of_length_lt
    (recvN : RecvN size)
    {n : Nat}
    (buf : Buffer size)
    {stream : List UInt8}
    (hMissing : stream.length < n)
    (hFits : n ≤ size) :
    recvN.call buf n stream = .closed :=
  recvN.call_closed buf n stream (Or.inr hMissing) (by omega)

/- Nothing is stored of a closed connection. -/
theorem call_nil
    (recvN : RecvN size)
    (buf : Buffer size)
    (n : Nat) :
    recvN.call buf n [] = .closed := by
  apply recvN.call_closed
  · rw [List.length_nil]
    omega
  · rw [List.length_nil]
    omega

/- A call that succeeds leaves the rest of the stream. -/
theorem call_eq_received
    {recvN : RecvN size}
    {n : Nat}
    {buf buf' : Buffer size}
    {stream rest : List UInt8}
    (hRecv :
      recvN.call buf n stream = .received buf' rest) :
    rest = stream.drop n ∧ 1 ≤ n ∧ n ≤ stream.length := by
  by_cases hLong : size < min n stream.length
  · rw [recvN.call_overflow buf n stream hLong] at hRecv
    cases hRecv
  · by_cases hMissing : n = 0 ∨ stream.length < n
    · rw [recvN.call_closed buf n stream hMissing (by omega)]
        at hRecv
      cases hRecv
    · rcases recvN.call_received buf n stream (by omega)
          (by omega) (by omega) with ⟨buf'', hCall, _⟩
      rw [hCall] at hRecv
      cases hRecv
      exact ⟨rfl, by omega, by omega⟩

end RecvN

/-
  The libraries of the receiver: `BUFSIZ`, an `int` of at
  least 256, and `recv_n` on a buffer of that size.
-/
structure CLib where
  bufsiz : Nat
  le_bufsiz : 256 ≤ bufsiz
  bufsiz_lt : bufsiz < 2 ^ 31
  recvN : RecvN bufsiz

/- `BUFSIZ` on Android -/
def CLib.android : CLib :=
  ⟨1024, by decide, by decide, .plain 1024⟩

/- `BUFSIZ` with MSVC -/
def CLib.msvc : CLib :=
  ⟨512, by decide, by decide, .plain 512⟩

end FzEvent

------------------------------------------------------------
-- Rounds
------------------------------------------------------------

namespace FzEvent

/- `DEVM_DEVICE_PACKET_TYPE_MASK` -/
def devmDevicePacketTypeMask : UInt32 := 0x80008000

/- `DEVM_DEVICE_PACKET_TYPE_SCREEN_CAPTURE` -/
def devmDevicePacketTypeScreenCapture : UInt32 := 0x00000000

/- `DEVM_DEVICE_PACKET_TYPE_EVENT_CAPTURE` -/
def devmDevicePacketTypeEventCapture : UInt32 := 0x80008000

/- `DEVM_DEVICE_PACKET_TYPE_CONTROL` -/
def devmDevicePacketTypeControl : UInt32 := 0x00008000

/- `DEVM_DEVICE_PACKET_TYPE_RESERVED1` -/
def devmDevicePacketTypeReserved1 : UInt32 := 0x80000000

/-
  What the switch of `svc` did with a packet. An event
  capture shows the time that `OnEventCapture` was called
  with and the event that it decoded.
-/
inductive Handled
| screenCapture
| eventCapture (tv : Timeval) (e : DevicePacketEvent)
| control
| reserved1
| discarded
deriving DecidableEq, Repr

/-
  The local buffer, the bytes still to arrive, the static
  members and the packets handled so far.
-/
structure SvcState (lib : CLib) where
  buf : Buffer lib.bufsiz
  stream : List UInt8
  rcv : CEvtRcv
  handled : List Handled
deriving DecidableEq

/-
  Why `svc` ended. `aborted` stands for a failed assertion or
  a read past the buffer.
-/
inductive SvcEnd
| headerClosed
| bodyClosed
| overflow
| aborted
deriving DecidableEq, Repr

/- The switch on the packet type. -/
def svcSwitch
    (rcv : CEvtRcv)
    (buf : List UInt8)
    (header : DevicePacketHeader)
    (len : UInt32) : Option (CEvtRcv × Handled) :=
  let type := header.type &&& devmDevicePacketTypeMask
  if type = devmDevicePacketTypeScreenCapture then
    some (rcv, .screenCapture)
  else if type = devmDevicePacketTypeEventCapture then
    (rcv.onEventCapture buf len header.tv).map
      fun p => (p.1, .eventCapture header.tv p.2)
  else if type = devmDevicePacketTypeControl then
    some (rcv, .control)
  else if type = devmDevicePacketTypeReserved1 then
    some (rcv, .reserved1)
  else
    some (rcv, .discarded)

/-
  The first half of a round: the header, the length of the
  body, the buffer and the bytes behind the header.
-/
def recvHeader
    {lib : CLib}
    (buf : Buffer lib.bufsiz)
    (stream : List UInt8) :
    Except SvcEnd
      (DevicePacketHeader × UInt32 × Buffer lib.bufsiz ×
        List UInt8) :=
  match lib.recvN.call buf (sizeofHeader + 4) stream with
  | .closed => .error .headerClosed
  | .overflow => .error .overflow
  | .received buf stream =>
      match parseHeader buf.bytes with
      | none => .error .aborted
      | some (header, len) => .ok (header, len, buf, stream)

/- One round of the loop of `svc`. -/
def svcRound
    {lib : CLib}
    (s : SvcState lib) : Except SvcEnd (SvcState lib) :=
  match recvHeader s.buf s.stream with
  | .error reason => .error reason
  | .ok (header, len, buf, stream) =>
      match lib.recvN.call buf len.toNat stream with
      | .closed => .error .bodyClosed
      | .overflow => .error .overflow
      | .received buf stream =>
          match svcSwitch s.rcv buf.bytes header len with
          | none => .error .aborted
          | some (rcv, handled) =>
              .ok ⟨buf, stream, rcv, s.handled ++ [handled]⟩

/- A header takes its bytes off the stream. -/
theorem length_lt_of_recvHeader
    {lib : CLib}
    {buf buf' : Buffer lib.bufsiz}
    {stream rest : List UInt8}
    {header : DevicePacketHeader}
    {len : UInt32}
    (hHeader :
      recvHeader buf stream = .ok (header, len, buf', rest)) :
    rest.length < stream.length := by
  unfold recvHeader at hHeader
  split at hHeader
  · cases hHeader
  · cases hHeader
  · next mid midStream hRecv =>
    have hTaken := RecvN.call_eq_received hRecv
    split at hHeader
    · cases hHeader
    · cases hHeader
      rw [hTaken.1, List.length_drop]
      omega

/- Every completed round takes bytes off the stream. -/
theorem length_lt_of_svcRound
    {lib : CLib}
    {s s' : SvcState lib}
    (hRound : svcRound s = .ok s') :
    s'.stream.length < s.stream.length := by
  unfold svcRound at hRound
  split at hRound
  · cases hRound
  · next header len buf stream hHeader =>
    have hLess := length_lt_of_recvHeader hHeader
    split at hRound
    · cases hRound
    · cases hRound
    · next buf' stream' hBody =>
      have hTaken := RecvN.call_eq_received hBody
      split at hRound
      · cases hRound
      · cases hRound
        rw [hTaken.1, List.length_drop]
        omega

/- `svc`: the state before its last round, and its end. -/
def svc
    {lib : CLib}
    (s : SvcState lib) : SvcState lib × SvcEnd :=
  match hRound : svcRound s with
  | .error reason => (s, reason)
  | .ok s' =>
      have := length_lt_of_svcRound hRound
      svc s'
termination_by s.stream.length

theorem svc_of_error
    {lib : CLib}
    {s : SvcState lib}
    {reason : SvcEnd}
    (hRound : svcRound s = .error reason) :
    svc s = (s, reason) := by
  rw [svc]
  split <;> simp_all

theorem svc_of_ok
    {lib : CLib}
    {s s' : SvcState lib}
    (hRound : svcRound s = .ok s') :
    svc s = svc s' := by
  rw [svc]
  split <;> simp_all

/- On a closed connection the loop ends at a header. -/
theorem svc_of_stream_nil
    {lib : CLib}
    {s : SvcState lib}
    (hNil : s.stream = []) :
    svc s = (s, .headerClosed) := by
  apply svc_of_error
  rw [svcRound, recvHeader, hNil, RecvN.call_nil]

end FzEvent

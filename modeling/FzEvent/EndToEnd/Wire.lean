import Mathlib.Data.Nat.Bitwise
import FzEvent.Receiver.Svc
import FzEvent.Transport.Packet

/-
  The wire between the recorder, which encodes packets, and
  the receiver, which decodes them in its loop.

  Main declarations:
    * `FzEvent.parseEvtPacket_encodeEventBody`
    * `FzEvent.SentPacket` with `bytes`, `Fits`, `handled`
    * `FzEvent.svc_packets`
-/

------------------------------------------------------------
-- Headers
------------------------------------------------------------

namespace FzEvent

/- Width and height lie where the type is read. -/
theorem encode_width_height
    (tv : Timeval)
    (width height : UInt16) :
    u16.encode width ++ u16.encode height =
      u32.encode (PacketHeader.ofSize tv width height).type := by
  have hWidth : width.toNat < 256 ^ 2 := width.toNat_lt
  have hHeight : height.toNat < 256 ^ 2 := height.toNat_lt
  have hType :
      (PacketHeader.ofSize tv width height).type.toNat =
        width.toNat + 256 ^ 2 * height.toNat := by
    simp only [PacketHeader.ofSize, UInt32.toNat_ofNat']
    omega
  calc
    u16.encode width ++ u16.encode height =
        ByteCodec.leBytes 2 width.toNat ++
          ByteCodec.leBytes 2 height.toNat := rfl
    _ = ByteCodec.leBytes 4
          (width.toNat + 256 ^ 2 * height.toNat) :=
        ByteCodec.leBytes_append 2 2 _ _ hWidth
    _ = u32.encode
          (PacketHeader.ofSize tv width height).type := by
        rw [← hType]
        rfl

/- Below 2^15 neither half sets a bit of the type mask. -/
theorem ofSize_type_and_mask
    (tv : Timeval)
    {width height : UInt16}
    (hWidth : width.toNat < 2 ^ 15)
    (hHeight : height.toNat < 2 ^ 15) :
    (PacketHeader.ofSize tv width height).type &&&
        devmDevicePacketTypeMask =
      devmDevicePacketTypeScreenCapture := by
  have hType :
      (PacketHeader.ofSize tv width height).type.toNat =
        width.toNat + 65536 * height.toNat := by
    simp only [PacketHeader.ofSize, UInt32.toNat_ofNat']
    omega
  have hMask :
      devmDevicePacketTypeMask.toNat = 2 ^ 15 ||| 2 ^ 31 := by
    decide
  have hLow :
      (width.toNat + 65536 * height.toNat).testBit 15 =
        false := by
    rw [Nat.testBit_eq_decide_div_mod_eq]
    simp only [decide_eq_false_iff_not]
    omega
  have hHigh :
      (width.toNat + 65536 * height.toNat).testBit 31 =
        false := by
    rw [Nat.testBit_eq_decide_div_mod_eq]
    simp only [decide_eq_false_iff_not]
    omega
  apply UInt32.toNat_inj.mp
  rw [UInt32.toNat_and, hType, hMask,
    Nat.and_or_distrib_left, Nat.and_two_pow,
    Nat.and_two_pow, hLow, hHigh]
  rfl

theorem ofType_type_and_mask
    (tv : Timeval) :
    (PacketHeader.ofType tv packetTypeEvent).type &&&
        devmDevicePacketTypeMask =
      devmDevicePacketTypeEventCapture := by
  simp [PacketHeader.ofType]
  decide

/- The header and the length of the body are read back. -/
theorem parseHeader_encode
    (tv : Timeval)
    (type len : UInt32)
    (rest : List UInt8) :
    parseHeader
        (timeval.encode tv ++
          (u32.encode type ++ (u32.encode len ++ rest))) =
      some (⟨tv, type⟩, len) := by
  simp [parseHeader]

end FzEvent

------------------------------------------------------------
-- Bodies
------------------------------------------------------------

namespace FzEvent

/- The loop of the decoder undoes the loop of the encoder. -/
theorem parseEvtEntries_encodeEntry
    (entries : List Entry)
    (rest : List UInt8)
    (len : UInt32) :
    parseEvtEntries entries.length
        (entries.flatMap encodeEntry ++ rest) len =
      some (entries,
        len + 18 * UInt32.ofNat entries.length) := by
  induction entries generalizing len with
  | nil => simp [parseEvtEntries]
  | cons entry entries ih =>
      have hLen :
          len + 8 + 4 + 2 + 4 +
              18 * UInt32.ofNat entries.length =
            len + 18 * UInt32.ofNat (entries.length + 1) := by
        rw [UInt32.ofNat_add]
        grind
      simp [parseEvtEntries, encodeEntry, ih, hLen]

/- The event that the receiver is to decode. -/
def EventInfo.received (ei : EventInfo) : DevicePacketEvent :=
  ⟨ei.eventType, ei.devId, ei.entries⟩

/- The body is decoded as it was encoded, to its length. -/
theorem parseEvtPacket_encodeEventBody
    {ei : EventInfo}
    (hCount : ei.count < 2 ^ 32)
    (rest : List UInt8) :
    parseEvtPacket (encodeEventBody ei ++ rest) =
      some (ei.received, eventBodyLen ei) := by
  have hToNat : (UInt32.ofNat ei.count).toNat = ei.count := by
    rw [UInt32.toNat_ofNat', Nat.mod_eq_of_lt hCount]
  simp only [parseEvtPacket, encodeEventBody,
    List.append_assoc, ByteCodec.Codec.read_encode_append,
    Option.bind_eq_bind, Option.bind_some, hToNat]
  rw [EventInfo.count, parseEvtEntries_encodeEntry]
  rfl

end FzEvent

------------------------------------------------------------
-- Packets
------------------------------------------------------------

namespace FzEvent

/- A packet together with what it was built from. -/
inductive SentPacket
| event (tv : Timeval) (ei : EventInfo)
| surface (tv : Timeval) (width height : UInt16)
    (body : List UInt8)
deriving DecidableEq

namespace SentPacket

/- The bytes that the recorder's encoders make. -/
def bytes : SentPacket → List UInt8
| .event tv ei =>
    (makeEventPacket
      (PacketHeader.ofType tv packetTypeEvent) ei).1
| .surface tv width height body =>
    (makeSurfacePacket
      (PacketHeader.ofSize tv width height) body
      (UInt32.ofNat body.length)).1

/-
  The body length of an event packet does not wrap around,
  width and height leave the type mask free, and the body
  takes at least one and at most `bufsiz` bytes.
-/
def Fits
    (bufsiz : Nat) : SentPacket → Prop
| .event _ ei =>
    26 + 18 * ei.count < 2 ^ 32 ∧ 10 + 18 * ei.count ≤ bufsiz
| .surface _ width height body =>
    width.toNat < 2 ^ 15 ∧ height.toNat < 2 ^ 15 ∧
      1 ≤ body.length ∧ body.length ≤ bufsiz

/- What the receiver is to do with the packet. -/
def handled : SentPacket → Handled
| .event tv ei => .eventCapture tv ei.received
| .surface _ _ _ _ => .screenCapture

/- The gesture in the packet, if it is one of an event. -/
def gesture? : SentPacket → Option EventInfo
| .event _ ei => some ei
| .surface _ _ _ _ => none

/- What the packet does to the receiver's files. -/
def receive
    (rcv : CEvtRcv) : SentPacket → CEvtRcv
| .event tv ei =>
    { rcv.reportEvent tv ei.received with
      sFpEvt :=
        rcv.sFpEvt.map (· ++ encodeGroup ei.received) }
| .surface _ _ _ _ => rcv

/-
  What the packet does to the receiver's files, if it is not
  an event that finds the event file closed.
-/
def accept
    (rcv : CEvtRcv) : SentPacket → Option CEvtRcv
| .event tv ei =>
    (rcv.reportEvent tv ei.received).writeEventFile ei.received
| .surface _ _ _ _ => some rcv

theorem accept_of_open
    {rcv : CEvtRcv}
    (hOpen : rcv.sFpEvt.isSome)
    (p : SentPacket) :
    p.accept rcv = some (p.receive rcv) := by
  rcases Option.isSome_iff_exists.mp hOpen with ⟨file, hFile⟩
  cases p with
  | event tv ei =>
      have hReported :
          (rcv.reportEvent tv ei.received).sFpEvt =
            some file := hFile
      rw [accept, CEvtRcv.writeEventFile_of_open hReported]
      simp [receive, hFile]
  | surface tv width height body => rfl

/-
  A packet that fits is a header and the body it announces,
  and the switch of `svc` accepts the packet on it.
-/
theorem exists_bytes_eq
    {bufsiz : Nat}
    {p : SentPacket}
    (hFits : p.Fits bufsiz)
    (hBufsiz : bufsiz < 2 ^ 31) :
    ∃ tv type len body,
      p.bytes =
          timeval.encode tv ++
            (u32.encode type ++ (u32.encode len ++ body)) ∧
        len.toNat = body.length ∧
        1 ≤ body.length ∧ body.length ≤ bufsiz ∧
        ∀ rcv tail,
          svcSwitch rcv (body ++ tail) ⟨tv, type⟩ len =
            (p.accept rcv).map fun rcv => (rcv, p.handled) := by
  cases p with
  | event tv ei =>
      rcases hFits with ⟨hWrap, hBody⟩
      have hLength := length_encodeEventBody ei
      have hCount : ei.count < 2 ^ 32 := by omega
      refine ⟨tv, (PacketHeader.ofType tv packetTypeEvent).type,
        eventBodyLen ei, encodeEventBody ei, ?_, ?_, ?_, ?_, ?_⟩
      · simp [SentPacket.bytes, makeEventPacket]
      · rw [toNat_eventBodyLen hWrap, hLength]
      · omega
      · omega
      · intro rcv tail
        simp only [svcSwitch, ofType_type_and_mask]
        rw [if_neg (by decide), if_pos trivial,
          CEvtRcv.onEventCapture,
          parseEvtPacket_encodeEventBody hCount tail]
        simp only [Option.bind_eq_bind, Option.bind_some, guard,
          if_pos, Option.pure_def, Option.map_bind, accept]
        cases (rcv.reportEvent tv ei.received).writeEventFile
          ei.received <;> rfl
  | surface tv width height body =>
      rcases hFits with ⟨hWidth, hHeight, hNonempty, hBody⟩
      have hLen :
          (UInt32.ofNat body.length).toNat = body.length := by
        rw [UInt32.toNat_ofNat', Nat.mod_eq_of_lt (by omega)]
      refine ⟨tv, (PacketHeader.ofSize tv width height).type,
        UInt32.ofNat body.length, body, ?_, hLen, hNonempty,
        hBody, ?_⟩
      · rw [← encode_width_height]
        simp [SentPacket.bytes, makeSurfacePacket, hLen]
      · intro rcv tail
        simp only [svcSwitch,
          ofSize_type_and_mask tv hWidth hHeight]
        rfl

theorem isSome_sFpEvt_receive
    {rcv : CEvtRcv}
    (hOpen : rcv.sFpEvt.isSome)
    (p : SentPacket) :
    (p.receive rcv).sFpEvt.isSome := by
  cases p with
  | event tv ei => simpa [receive] using hOpen
  | surface tv width height body => exact hOpen

end SentPacket

end FzEvent

------------------------------------------------------------
-- The Receive Loop on Packets
------------------------------------------------------------

namespace FzEvent

/- The header of a packet is taken off the stream. -/
theorem recvHeader_encode
    {lib : CLib}
    (buf : Buffer lib.bufsiz)
    (tv : Timeval)
    (type len : UInt32)
    (rest : List UInt8) :
    ∃ buf',
      recvHeader buf
          (timeval.encode tv ++
            (u32.encode type ++ (u32.encode len ++ rest))) =
        .ok (⟨tv, type⟩, len, buf', rest) := by
  have hSize : sizeofHeader + 4 ≤ lib.bufsiz :=
    le_trans (by decide) lib.le_bufsiz
  have hHead :
      (timeval.encode tv ++
        (u32.encode type ++ u32.encode len)).length =
          sizeofHeader + 4 := by
    simp [sizeofHeader]
  rcases lib.recvN.call_append buf hHead (by omega) hSize
      rest with
    ⟨buf', tail, hRecv, hBytes⟩
  have hParse :
      parseHeader buf'.bytes = some (⟨tv, type⟩, len) := by
    rw [hBytes]
    simpa only [List.append_assoc]
      using parseHeader_encode tv type len tail
  refine ⟨buf', ?_⟩
  simp only [List.append_assoc] at hRecv
  simp only [recvHeader, hRecv, hParse]

/- A round on a packet that has arrived. -/
theorem svcRound_of_arrived
    {lib : CLib}
    {s : SvcState lib}
    {p : SentPacket}
    (hFits : p.Fits lib.bufsiz)
    {rest : List UInt8}
    (hStream : s.stream = p.bytes ++ rest) :
    ∃ buf,
      svcRound s =
        match p.accept s.rcv with
        | none => .error .aborted
        | some rcv =>
            .ok ⟨buf, rest, rcv, s.handled ++ [p.handled]⟩ := by
  rcases SentPacket.exists_bytes_eq hFits lib.bufsiz_lt with
    ⟨tv, type, len, body, hBytes, hLen, hNonempty, hBody,
      hSwitch⟩
  have hSplit :
      s.stream =
        timeval.encode tv ++
          (u32.encode type ++
            (u32.encode len ++ (body ++ rest))) := by
    rw [hStream, hBytes]
    simp
  rcases recvHeader_encode s.buf tv type len
    (body ++ rest) with ⟨headBuf, hHeader⟩
  rcases lib.recvN.call_append headBuf
      (rfl : body.length = body.length) hNonempty hBody rest with
    ⟨bodyBuf, tail, hRecv, hTail⟩
  refine ⟨bodyBuf, ?_⟩
  simp only [svcRound, hSplit, hHeader, hLen, hRecv, hTail,
    hSwitch]
  cases p.accept s.rcv <;> rfl

/-
  The loop on packets that fit and that the receiver accepts
  takes exactly their bytes.
-/
theorem svc_append_accepted
    {lib : CLib}
    {s : SvcState lib}
    {packets : List SentPacket}
    (hFits : ∀ p ∈ packets, p.Fits lib.bufsiz)
    {rcv : CEvtRcv}
    (hAccept :
      packets.foldlM SentPacket.accept s.rcv = some rcv)
    {rest : List UInt8}
    (hStream :
      s.stream = packets.flatMap SentPacket.bytes ++ rest) :
    ∃ buf,
      svc s =
        svc ⟨buf, rest, rcv,
          s.handled ++ packets.map SentPacket.handled⟩ := by
  induction packets generalizing s with
  | nil =>
      cases hAccept
      refine ⟨s.buf, ?_⟩
      have hRest : s.stream = rest := by simpa using hStream
      simp [← hRest]
  | cons p packets ih =>
      rw [List.forall_mem_cons] at hFits
      rw [List.flatMap_cons, List.append_assoc] at hStream
      rw [List.foldlM_cons] at hAccept
      rcases Option.bind_eq_some_iff.mp hAccept with
        ⟨next, hFirst, hMore⟩
      rcases svcRound_of_arrived hFits.1 hStream with
        ⟨buf, hRound⟩
      rw [hFirst] at hRound
      rcases ih
          (s := ⟨buf, packets.flatMap SentPacket.bytes ++ rest,
            next, s.handled ++ [p.handled]⟩)
          hFits.2 hMore rfl with
        ⟨buf', hRest⟩
      refine ⟨buf', ?_⟩
      rw [svc_of_ok hRound, hRest]
      simp

/- With the event file open every packet is accepted. -/
theorem foldlM_accept_of_open
    {rcv : CEvtRcv}
    (hOpen : rcv.sFpEvt.isSome)
    (packets : List SentPacket) :
    packets.foldlM SentPacket.accept rcv =
      some (packets.foldl SentPacket.receive rcv) := by
  induction packets generalizing rcv with
  | nil => rfl
  | cons p packets ih =>
      rw [List.foldlM_cons, SentPacket.accept_of_open hOpen p,
        Option.bind_eq_bind, Option.bind_some,
        ih (SentPacket.isSome_sFpEvt_receive hOpen p),
        List.foldl_cons]

/- Captures are accepted in every state, and change none. -/
theorem foldlM_accept_of_captures
    {packets : List SentPacket}
    (hCaptures : ∀ p ∈ packets, p.gesture? = none)
    (rcv : CEvtRcv) :
    packets.foldlM SentPacket.accept rcv = some rcv := by
  induction packets with
  | nil => rfl
  | cons p packets ih =>
      rw [List.forall_mem_cons] at hCaptures
      cases p with
      | event tv ei => cases hCaptures.1
      | surface tv width height body =>
          rw [List.foldlM_cons, SentPacket.accept]
          exact ih hCaptures.2

/- The loop on packets that fit takes exactly their bytes. -/
theorem svc_append_packets
    {lib : CLib}
    {s : SvcState lib}
    (hOpen : s.rcv.sFpEvt.isSome)
    {packets : List SentPacket}
    (hFits : ∀ p ∈ packets, p.Fits lib.bufsiz)
    {rest : List UInt8}
    (hStream :
      s.stream = packets.flatMap SentPacket.bytes ++ rest) :
    ∃ buf,
      svc s =
        svc ⟨buf, rest,
          packets.foldl SentPacket.receive s.rcv,
          s.handled ++ packets.map SentPacket.handled⟩ :=
  svc_append_accepted hFits
    (foldlM_accept_of_open hOpen packets) hStream

/-
  With the event file closed the loop ends at the first event
  packet, in the assertion of `writeEventFile`.
-/
theorem svc_of_closed
    {lib : CLib}
    (buf : Buffer lib.bufsiz)
    {rcv : CEvtRcv}
    (hClosed : rcv.sFpEvt = none)
    {captures rest : List SentPacket}
    {tv : Timeval}
    {ei : EventInfo}
    (hCaptures : ∀ p ∈ captures, p.gesture? = none)
    (hFits :
      ∀ p ∈ captures ++ .event tv ei :: rest,
        p.Fits lib.bufsiz) :
    ∃ buf',
      svc ⟨buf,
          (captures ++ .event tv ei :: rest).flatMap
            SentPacket.bytes, rcv, []⟩ =
        (⟨buf',
            (SentPacket.event tv ei :: rest).flatMap
              SentPacket.bytes,
            rcv, captures.map SentPacket.handled⟩,
          .aborted) := by
  rw [List.forall_mem_append, List.forall_mem_cons] at hFits
  rw [List.flatMap_append]
  rcases svc_append_accepted
      (s := ⟨buf, captures.flatMap SentPacket.bytes ++
        (SentPacket.event tv ei :: rest).flatMap
          SentPacket.bytes, rcv, []⟩)
      hFits.1 (foldlM_accept_of_captures hCaptures rcv) rfl with
    ⟨buf', hLoop⟩
  refine ⟨buf', ?_⟩
  have hReject : (SentPacket.event tv ei).accept rcv = none := by
    rw [SentPacket.accept, CEvtRcv.writeEventFile,
      CEvtRcv.sFpEvt_reportEvent, hClosed]
  rw [hLoop, List.nil_append]
  apply svc_of_error
  rcases svcRound_of_arrived
      (s := ⟨buf', (SentPacket.event tv ei :: rest).flatMap
        SentPacket.bytes, rcv,
        captures.map SentPacket.handled⟩)
      hFits.2.1 List.flatMap_cons with
    ⟨_, hRound⟩
  rw [hRound, hReject]

/-
  On the packets of a connection the loop handles every
  packet as the kind it was built as, decodes every event as
  it was encoded, and ends with no byte left over, if the
  event file is open or no event is among them. With the file
  closed it handles the captures in front of the first event,
  and decodes this one to its length, but cannot write it.
-/
theorem svc_packets
    (lib : CLib)
    (buf : Buffer lib.bufsiz)
    (rcv : CEvtRcv)
    (packets : List SentPacket)
    (hFits : ∀ p ∈ packets, p.Fits lib.bufsiz) :
    (rcv.sFpEvt.isSome ∨
        (∀ p ∈ packets, p.gesture? = none) →
      ∃ buf' rcv',
        svc ⟨buf, packets.flatMap SentPacket.bytes, rcv, []⟩ =
          (⟨buf', [], rcv', packets.map SentPacket.handled⟩,
            .headerClosed)) ∧
    ∀ captures tv ei rest,
      packets = captures ++ .event tv ei :: rest →
        (∀ p ∈ captures, p.gesture? = none) →
          rcv.sFpEvt = none →
            (∃ buf',
              svc ⟨buf, packets.flatMap SentPacket.bytes, rcv,
                  []⟩ =
                (⟨buf',
                    (SentPacket.event tv ei :: rest).flatMap
                      SentPacket.bytes,
                    rcv, captures.map SentPacket.handled⟩,
                  .aborted)) ∧
              ∀ tail,
                parseEvtPacket (encodeEventBody ei ++ tail) =
                  some (ei.received, eventBodyLen ei) := by
  constructor
  · intro hAccepted
    obtain ⟨rcv', hAccept⟩ :
        ∃ rcv',
          packets.foldlM SentPacket.accept rcv = some rcv' := by
      rcases hAccepted with hOpen | hCaptures
      · exact ⟨_, foldlM_accept_of_open hOpen packets⟩
      · exact ⟨_, foldlM_accept_of_captures hCaptures rcv⟩
    rcases svc_append_accepted
        (s := ⟨buf, packets.flatMap SentPacket.bytes, rcv, []⟩)
        hFits hAccept (List.append_nil _).symm with
      ⟨buf', hLoop⟩
    refine ⟨buf', rcv', ?_⟩
    rw [hLoop, svc_of_stream_nil rfl, List.nil_append]
  · rintro captures tv ei rest rfl hCaptures hClosed
    refine ⟨svc_of_closed buf hClosed hCaptures hFits, ?_⟩
    have hEvent : (SentPacket.event tv ei).Fits lib.bufsiz :=
      hFits _ (by simp)
    have hCount : ei.count < 2 ^ 32 := by
      have hWrap := hEvent.1
      omega
    exact parseEvtPacket_encodeEventBody hCount

/- A screen capture, then a swipe. -/
def captureAndSwipe : List SentPacket :=
  [.surface ⟨1, 0⟩ 480 800 [1, 2, 3],
    .event ⟨2, 0⟩
      ⟨evAbs, 2,
        [⟨⟨1, 1⟩, 7, absMtTrackingId, 7⟩,
          ⟨⟨1, 2⟩, 7, absMtPositionX, 40⟩,
          ⟨⟨1, 3⟩, 7, absMtPositionX, 95⟩,
          ⟨⟨1, 4⟩, 7, absMtTrackingId, 0xffffffff⟩]⟩]

theorem fits_captureAndSwipe :
    ∀ p ∈ captureAndSwipe, p.Fits CLib.android.bufsiz := by
  simp [captureAndSwipe, SentPacket.Fits, CLib.android,
    EventInfo.count]

/- The receive loop on them, with a receiver in a state. -/
def svcOnCaptureAndSwipe
    (rcv : CEvtRcv) : SvcState CLib.android × SvcEnd :=
  svc ⟨Buffer.zero _,
    captureAndSwipe.flatMap SentPacket.bytes, rcv, []⟩

theorem svc_packets_captureAndSwipe :
    (∃ buf' rcv',
      svcOnCaptureAndSwipe CEvtRcv.init.makeEventFile =
        (⟨buf', [], rcv',
            captureAndSwipe.map SentPacket.handled⟩,
          .headerClosed)) ∧
    ∃ s,
      svcOnCaptureAndSwipe CEvtRcv.init = (s, .aborted) ∧
        s.handled = [.screenCapture] := by
  constructor
  · exact (svc_packets CLib.android (Buffer.zero _)
      CEvtRcv.init.makeEventFile captureAndSwipe
      fits_captureAndSwipe).1 (Or.inl rfl)
  · rcases (svc_packets CLib.android (Buffer.zero _)
        CEvtRcv.init captureAndSwipe fits_captureAndSwipe).2
        [.surface ⟨1, 0⟩ 480 800 [1, 2, 3]] _ _ [] rfl
        (by simp [SentPacket.gesture?]) rfl with
      ⟨⟨buf', hLoop⟩, _⟩
    exact ⟨_, hLoop, rfl⟩

/- Before `r` opens the event file the swipe ends the loop. -/
theorem not_svc_packets_of_closed :
    ¬ ∀ (lib : CLib) (buf : Buffer lib.bufsiz) (rcv : CEvtRcv)
        (packets : List SentPacket),
      (∀ p ∈ packets, p.Fits lib.bufsiz) →
        ∃ buf' rcv',
          svc ⟨buf, packets.flatMap SentPacket.bytes, rcv,
              []⟩ =
            (⟨buf', [], rcv',
                packets.map SentPacket.handled⟩,
              .headerClosed) := by
  intro hAll
  rcases hAll CLib.android (Buffer.zero _) CEvtRcv.init
      captureAndSwipe fits_captureAndSwipe with
    ⟨buf', rcv', hLoop⟩
  have hCaptures :
      ∀ p ∈ [SentPacket.surface ⟨1, 0⟩ 480 800 [1, 2, 3]],
        p.gesture? = none := by
    simp [SentPacket.gesture?]
  have hClosed : CEvtRcv.init.sFpEvt = none := rfl
  rcases svc_of_closed (Buffer.zero _) hClosed hCaptures
      fits_captureAndSwipe with
    ⟨_, hAborts⟩
  have hSame := hLoop.symm.trans hAborts
  cases hSame

end FzEvent

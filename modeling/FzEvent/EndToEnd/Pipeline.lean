import FzEvent.EndToEnd.Wire
import FzEvent.Lib.Channel
import FzEvent.Lib.Words
import FzEvent.Transport.TcpServer

/-
  From the send queue to the receiver while all threads run:
  any thread pushes packets, `send_packet` pops them and
  writes each with any number of calls of `write()`, and the
  rounds of `svc` take them off the connection.

  `svc` may be any number of bytes behind. It waits in
  `recv_n` for the rest of a packet, so a round is a step as
  soon as all of its bytes have arrived.

  A call of `push` or `pop` is one step here. The queue does
  not ensure that, as its lock is none: that no two calls
  overlap is an assumption about the schedule. The other one
  is that `write()` takes a packet in at most two pieces, for
  `send_buffer` writes any further piece from a wrong place.

  Main declarations:
    * `FzEvent.Sending`, `FzEvent.Sender`, `FzEvent.Pipeline`
    * `FzEvent.PipelineStep` and `FzEvent.pipeline`
    * `Pipeline.FitsInTwoWrites`
    * `Pipeline.Refines` and `FzEvent.refines_step`
    * `FzEvent.pipeline_refines_channel`
-/

------------------------------------------------------------
-- The Parties
------------------------------------------------------------

namespace FzEvent

open Transition Window

/- What the encoders return: the bytes and their number. -/
def SentPacket.container : SentPacket → List UInt8 × UInt32
| .event tv ei =>
    makeEventPacket (PacketHeader.ofType tv packetTypeEvent) ei
| .surface tv width height body =>
    makeSurfacePacket (PacketHeader.ofSize tv width height)
      body (UInt32.ofNat body.length)

/-
  `send_buffer` at the head of its loop: the buffer, the last
  answer `t` of `write()`, and the length that is left. The
  last field is an observation: how many answers there were.
-/
structure Sending where
  p : List UInt8
  t : UInt32
  len : UInt32
  writes : Nat
deriving DecidableEq, Repr

namespace Sending

/- The bytes that `write` puts when it answers `r`. -/
def put
    (d : Sending)
    (r : Int32) : List UInt8 :=
  window d.p d.t.toNat r.toUInt32.toNat

def next
    (d : Sending)
    (r : Int32) : Sending :=
  { d with
    t := r.toUInt32
    len := d.len - r.toUInt32
    writes := d.writes + 1 }

/- How many bytes have been written. -/
def done (d : Sending) : Nat :=
  d.p.length - d.len.toNat

/- The bytes that are still to be written. -/
def left (d : Sending) : List UInt8 :=
  d.p.drop d.done

/-
  Before the first and the second write, `t` is the number of
  bytes that have been written.
-/
def InPlace (d : Sending) : Prop :=
  d.writes < 2 →
    d.t.toNat = d.done ∧ (d.writes = 0 → d.done = 0)

end Sending

/-
  Where `send_packet` is: at the head of its loop, in
  `send_buffer`, or behind its loop.
-/
inductive Sender
| waiting
| sending (d : Sending)
| ended
deriving DecidableEq, Repr

/-
  The containers in the queue, the sending thread, and `svc`
  with the bytes that have arrived and not been received.
-/
structure Pipeline (lib : CLib) where
  sendQueue : List (List UInt8 × UInt32)
  sender : Sender
  svc : SvcState lib
deriving DecidableEq

/-
  The atomic steps: a push by any thread, the sending thread
  finding that the program ends, its `pop`, an answer of
  `write()`, its return from `send_buffer`, a round of `svc`.
-/
inductive PipelineStep
| push (p : SentPacket)
| stop
| pop
| write (r : Int32)
| returned
| receive
deriving DecidableEq

namespace Pipeline

variable {lib : CLib}

/-
  One step, `none` when the party cannot take it. `write()`
  answers a number up to the length asked for, or -1.
-/
def step
    (s : Pipeline lib) : PipelineStep → Option (Pipeline lib)
| .push p =>
    some { s with sendQueue := s.sendQueue ++ [p.container] }
| .stop =>
    match s.sender with
    | .waiting => some { s with sender := .ended }
    | _ => none
| .pop =>
    match s.sender, s.sendQueue with
    | .waiting, (data, len) :: rest =>
        some { s with
          sendQueue := rest
          sender := .sending ⟨data, 0, len, 0⟩ }
    | _, _ => none
| .write r =>
    match s.sender with
    | .sending d =>
        if d.len = 0 then
          none
        else if r.toUInt32 = 0xffffffff then
          -- the program is ended, and with it the thread
          some { s with sender := .ended }
        else if 0 < r.toInt ∧ r.toUInt32 ≤ d.len then
          some { s with
            sender := .sending (d.next r)
            svc := { s.svc with
              stream := s.svc.stream ++ d.put r } }
        else
          none
    | _ => none
| .returned =>
    match s.sender with
    | .sending d =>
        if d.len = 0 then
          some { s with sender := .waiting }
        else
          none
    | _ => none
| .receive =>
    match svcRound s.svc with
    | .ok svc => some { s with svc := svc }
    | .error _ => none

/-
  The condition on a step: a packet that is pushed fits the
  receiver, and no packet takes a third call of `write()`.
-/
def FitsInTwoWrites
    (s : Pipeline lib) : PipelineStep → Prop
| .push p => p.Fits lib.bufsiz
| .write _ => ∀ d, s.sender = .sending d → d.writes < 2
| _ => True

end Pipeline

instance (bufsiz : Nat) (p : SentPacket) :
    Decidable (p.Fits bufsiz) := by
  cases p <;> unfold SentPacket.Fits <;> infer_instance

instance {lib : CLib}
    (s : Pipeline lib)
    (l : PipelineStep) :
    Decidable (s.FitsInTwoWrites l) :=
  match l with
  | .push p => inferInstanceAs (Decidable (p.Fits lib.bufsiz))
  | .write _ =>
      match hSender : s.sender with
      | .sending d =>
          match Nat.decLt d.writes 2 with
          | .isTrue hFew =>
              .isTrue fun e hSame => by
                cases hSender.symm.trans hSame
                exact hFew
          | .isFalse hMany =>
              .isFalse fun hAll => hMany (hAll d hSender)
      | .waiting =>
          .isTrue fun _ hSame => nomatch hSender.symm.trans hSame
      | .ended =>
          .isTrue fun _ hSame => nomatch hSender.symm.trans hSame
  | .stop | .pop | .returned | .receive => .isTrue trivial

/- The threads, with a receiver in the state `svc`. -/
def pipeline
    {lib : CLib}
    (svc : SvcState lib) :
    System (Pipeline lib) PipelineStep where
  init := ⟨[], .waiting, svc⟩
  step := Pipeline.step

/- The packets that some steps push. -/
def PipelineStep.pushed (steps : List PipelineStep) :
    List SentPacket :=
  steps.filterMap fun
    | .push p => some p
    | _ => none

/- A step of `write` is a round of the loop of `send_buffer`. -/
theorem sendLoop_of_write
    {d : Sending}
    {r : Int32}
    (hMore : d.len ≠ 0)
    (hAnswer : r.toUInt32 ≠ 0xffffffff)
    (answers : List Int32)
    (socket : List UInt8) :
    TcpServer.sendLoop d.p (r :: answers) d.t d.len socket =
      TcpServer.sendLoop (d.next r).p answers (d.next r).t
        (d.next r).len (socket ++ d.put r) := by
  rw [TcpServer.sendLoop, if_neg hMore, if_neg hAnswer]
  rfl

end FzEvent

------------------------------------------------------------
-- Packets on the Way
------------------------------------------------------------

namespace FzEvent

namespace SentPacket

theorem container_fst
    (p : SentPacket) :
    p.container.1 = p.bytes := by
  cases p <;> rfl

/- The length beside the packet is that of its bytes. -/
theorem toNat_container_snd
    {lib : CLib}
    {p : SentPacket}
    (hFits : p.Fits lib.bufsiz) :
    p.container.2.toNat = p.bytes.length := by
  have hBufsiz := lib.bufsiz_lt
  have hWord : UInt32.size = 2 ^ 32 := rfl
  cases p with
  | event tv ei =>
      rcases hFits with ⟨hWrap, hBody⟩
      have hLength := length_encodeEventBody ei
      have hLen := toNat_eventBodyLen hWrap
      have hHead : (8 + 4 + 4 : UInt32).toNat = 16 := rfl
      have hSum :
          (makeEventPacket
            (PacketHeader.ofType tv packetTypeEvent)
            ei).2.toNat = 26 + 18 * ei.count := by
        rw [makeEventPacket, Words.toNat_add_of_lt, hLen, hHead]
        · omega
        · rw [hLen, hHead]
          omega
      rw [SentPacket.container, hSum]
      simp only [SentPacket.bytes, makeEventPacket,
        List.length_append, ByteCodec.Codec.length_encode,
        u32_width, timeval_width, hLength]
      omega
  | surface tv width height body =>
      rcases hFits with ⟨_, _, _, hBody⟩
      have hLen :
          (UInt32.ofNat body.length).toNat = body.length := by
        rw [UInt32.toNat_ofNat', Nat.mod_eq_of_lt (by omega)]
      have hHead : (8 + 2 + 2 + 4 : UInt32).toNat = 16 := rfl
      have hSum :
          (makeSurfacePacket
            (PacketHeader.ofSize tv width height) body
            (UInt32.ofNat body.length)).2.toNat =
              16 + body.length := by
        rw [makeSurfacePacket, Words.toNat_add_of_lt, hLen,
          hHead]
        rw [hLen, hHead]
        omega
      rw [SentPacket.container, hSum]
      simp only [SentPacket.bytes, makeSurfacePacket,
        List.length_append, ByteCodec.Codec.length_encode,
        u16_width, u32_width, timeval_width, hLen,
        List.take_length]
      omega

theorem bytes_ne_nil
    (p : SentPacket) :
    p.bytes ≠ [] := by
  intro hNil
  have hLength := congrArg List.length hNil
  cases p <;>
    simp [SentPacket.bytes, makeEventPacket, makeSurfacePacket]
      at hLength

end SentPacket

/-
  While a part of the packet is missing, `svc` is in one of
  its two calls of `recv_n`.
-/
theorem svcRound_of_missing
    {lib : CLib}
    {s : SvcState lib}
    {p : SentPacket}
    (hFits : p.Fits lib.bufsiz)
    {missing : List UInt8}
    (hMissing : missing ≠ [])
    (hStream : s.stream ++ missing = p.bytes) :
    svcRound s = .error .headerClosed ∨
      svcRound s = .error .bodyClosed := by
  have hSize : sizeofHeader + 4 ≤ lib.bufsiz :=
    le_trans (by decide) lib.le_bufsiz
  rcases SentPacket.exists_bytes_eq hFits lib.bufsiz_lt with
    ⟨tv, type, len, body, hBytes, hLen, _, hBody, _⟩
  have hShort := List.length_pos_iff.mpr hMissing
  have hHead :
      (timeval.encode tv ++
        (u32.encode type ++ u32.encode len)).length =
          sizeofHeader + 4 := by
    simp [sizeofHeader]
  by_cases hLess : s.stream.length < sizeofHeader + 4
  · left
    rw [svcRound, recvHeader,
      lib.recvN.call_of_length_lt s.buf hLess hSize]
  · right
    have hPrefix :
        timeval.encode tv ++
            (u32.encode type ++ u32.encode len) <+:
          s.stream := by
      have hFront :
          timeval.encode tv ++
              (u32.encode type ++ u32.encode len) <+:
            p.bytes :=
        ⟨body, by rw [hBytes]; simp⟩
      exact List.prefix_of_prefix_length_le hFront
        ⟨missing, hStream⟩ (by omega)
    rcases hPrefix with ⟨part, hPart⟩
    have hBodyPart : part ++ missing = body := by
      rw [hBytes, ← hPart] at hStream
      simpa using hStream
    have hLess : part.length < len.toNat := by
      rw [hLen, ← hBodyPart, List.length_append]
      omega
    rcases recvHeader_encode s.buf tv type len part with
      ⟨buf, hHeader⟩
    have hStreamEq :
        s.stream =
          timeval.encode tv ++
            (u32.encode type ++ (u32.encode len ++ part)) := by
      rw [← hPart]
      simp
    rw [svcRound, hStreamEq, hHeader]
    simp only [lib.recvN.call_of_length_lt buf hLess (by omega)]

end FzEvent

------------------------------------------------------------
-- The Refinement
------------------------------------------------------------

namespace FzEvent

open Channel Transition Window

namespace Pipeline

variable {lib : CLib}

/-
  What the sending thread still has of its packet: nothing at
  the head of its loop, and anything after a failure.
-/
def Left (sender : Sender) (left : List UInt8) : Prop :=
  match sender with
  | .waiting => left = []
  | .sending d =>
      left = d.left ∧ d.len.toNat ≤ d.p.length ∧ d.InPlace
  | .ended => True

/-
  The bytes that have arrived, those that the sending thread
  has, and those in the queue are the packets on the way.
-/
structure InTransit
    (s : Pipeline lib)
    (inFlight : List SentPacket) : Prop where
  fits : ∀ p ∈ inFlight, p.Fits lib.bufsiz
  lengths :
    ∀ q ∈ s.sendQueue, q.2.toNat = q.1.length
  framed :
    ∃ left, Left s.sender left ∧
      Framed SentPacket.bytes s.svc.stream
        (left ++ s.sendQueue.flatMap Prod.fst) inFlight

/-
  The threads as a channel `c` of packets: those on the way
  are in transit, and the receiver is as the packets that came
  out leave it.
-/
structure Refines
    (svc₀ : SvcState lib)
    (s : Pipeline lib)
    (c : State SentPacket) : Prop extends
    InTransit s c.inFlight where
  isOpen : s.svc.rcv.sFpEvt.isSome
  handled_eq :
    s.svc.handled =
      svc₀.handled ++ c.delivered.map SentPacket.handled
  rcv_eq :
    s.svc.rcv =
      c.delivered.foldl SentPacket.receive svc₀.rcv

/- What a step of the threads is for the channel. -/
def standsFor : PipelineStep → List (Step SentPacket)
| .push p => [.send p]
| .receive => [.deliver]
| _ => []

variable {svc₀ : SvcState lib}
variable {s t : Pipeline lib}
variable {c : State SentPacket}

/- Only a round of `svc` changes more of it than the stream. -/
theorem svc_of_step
    {l : PipelineStep}
    (hOther : l ≠ .receive)
    (hStep : s.step l = some t) :
    t.svc = { s.svc with stream := t.svc.stream } := by
  cases l with
  | receive => exact absurd rfl hOther
  | push p =>
      cases hStep
      rfl
  | write r =>
      simp only [step] at hStep
      split at hStep
      · split_ifs at hStep <;> cases hStep <;> rfl
      · cases hStep
  | returned =>
      simp only [step] at hStep
      split at hStep
      · split_ifs at hStep
        cases hStep
        rfl
      · cases hStep
  | _ =>
      simp only [step] at hStep
      split at hStep <;> cases hStep
      rfl

variable {inFlight : List SentPacket}

/- A thread pushes behind all other packets. -/
theorem InTransit.push
    (hTransit : InTransit s inFlight)
    {p : SentPacket}
    (hFits : p.Fits lib.bufsiz) :
    InTransit
      { s with sendQueue := s.sendQueue ++ [p.container] }
      (inFlight ++ [p]) where
  fits := by
    intro q hMem
    rcases List.mem_append.mp hMem with hOld | hNew
    · exact hTransit.fits q hOld
    · rw [List.mem_singleton.mp hNew]
      exact hFits
  lengths := by
    intro q hMem
    rcases List.mem_append.mp hMem with hOld | hNew
    · exact hTransit.lengths q hOld
    · rw [List.mem_singleton.mp hNew,
        SentPacket.toNat_container_snd hFits,
        SentPacket.container_fst]
  framed := by
    rcases hTransit.framed with ⟨left, hLeft, hFramed⟩
    refine ⟨left, hLeft, ?_⟩
    have hNext := hFramed.send p
    rw [List.append_assoc] at hNext
    simpa [SentPacket.container_fst] using hNext

theorem InTransit.stop
    (hTransit : InTransit s inFlight)
    (hStep : s.step .stop = some t) :
    InTransit t inFlight := by
  simp only [step] at hStep
  split at hStep
  · cases hStep
    rcases hTransit.framed with ⟨left, _, hFramed⟩
    exact ⟨hTransit.fits, hTransit.lengths,
      left, trivial, hFramed⟩
  · cases hStep

theorem InTransit.pop
    (hTransit : InTransit s inFlight)
    (hStep : s.step .pop = some t) :
    InTransit t inFlight := by
  simp only [step] at hStep
  split at hStep
  · next data len rest hSender hQueue =>
    cases hStep
    rcases hTransit.framed with ⟨left, hLeft, hFramed⟩
    rw [hSender] at hLeft
    rw [hLeft, hQueue, List.nil_append, List.flatMap_cons]
      at hFramed
    have hLength : len.toNat = data.length :=
      hTransit.lengths (data, len) (by simp [hQueue])
    refine ⟨hTransit.fits, ?_, data, ⟨?_, ?_, ?_⟩, hFramed⟩
    · intro q hMem
      apply hTransit.lengths q
      rw [hQueue]
      exact List.mem_cons_of_mem _ hMem
    · simp [Sending.left, Sending.done, hLength]
    · exact Nat.le_of_eq hLength
    · intro _
      simp [Sending.done, hLength]
  · cases hStep

theorem InTransit.returned
    (hTransit : InTransit s inFlight)
    (hStep : s.step .returned = some t) :
    InTransit t inFlight := by
  simp only [step] at hStep
  split at hStep
  · next d hSender =>
    split at hStep
    · next hDone =>
      cases hStep
      rcases hTransit.framed with ⟨left, hLeft, hFramed⟩
      rw [hSender] at hLeft
      refine ⟨hTransit.fits, hTransit.lengths, left, ?_,
        hFramed⟩
      simp [Left, hLeft.1, Sending.left, Sending.done, hDone]
    · cases hStep
  · cases hStep

/- What an answer of `write` adds to what was written. -/
theorem done_next
    {d : Sending}
    {r : Int32}
    (hAnswer : r.toUInt32 ≤ d.len)
    (hLen : d.len.toNat ≤ d.p.length) :
    (d.next r).done = d.done + r.toUInt32.toNat := by
  have hSub := UInt32.toNat_sub_of_le _ _ hAnswer
  rw [UInt32.le_iff_toNat_le] at hAnswer
  simp only [Sending.done, Sending.next, hSub]
  omega

/- A write in the right place splits what is left. -/
theorem left_eq_put_append
    {d : Sending}
    {r : Int32}
    (hPlace : d.t.toNat = d.done)
    (hAnswer : r.toUInt32 ≤ d.len)
    (hLen : d.len.toNat ≤ d.p.length) :
    d.left = d.put r ++ (d.next r).left := by
  rw [Sending.put, hPlace, window, Sending.left, Sending.left,
    done_next hAnswer hLen, ← List.drop_drop]
  exact (List.take_append_drop _ _).symm

/- Behind the first write the second one is in its place. -/
theorem inPlace_next
    {d : Sending}
    {r : Int32}
    (hPlace : d.InPlace)
    (hAnswer : r.toUInt32 ≤ d.len)
    (hLen : d.len.toNat ≤ d.p.length) :
    (d.next r).InPlace := by
  intro hLess
  have hFirst : d.writes = 0 := by
    simp only [Sending.next] at hLess
    omega
  have hStart := (hPlace (by omega)).2 hFirst
  rw [done_next hAnswer hLen, hStart, Nat.zero_add]
  refine ⟨rfl, ?_⟩
  intro hZero
  simp [Sending.next] at hZero

theorem InTransit.write
    (hTransit : InTransit s inFlight)
    {r : Int32}
    (hWrites : s.FitsInTwoWrites (.write r))
    (hStep : s.step (.write r) = some t) :
    InTransit t inFlight := by
  rcases hTransit.framed with ⟨left, hLeft, hFramed⟩
  simp only [step] at hStep
  split at hStep
  · next d hSender =>
    split_ifs at hStep with hNone hFailed hAnswer
    · cases hStep
      exact ⟨hTransit.fits, hTransit.lengths, left, trivial,
        hFramed⟩
    · cases hStep
      rw [hSender] at hLeft
      rcases hLeft with ⟨rfl, hLen, hPlace⟩
      have hHere := (hPlace (hWrites d hSender)).1
      have hSplit :=
        left_eq_put_append hHere hAnswer.2 hLen
      refine ⟨hTransit.fits, hTransit.lengths,
        (d.next r).left,
        ⟨rfl, ?_, inPlace_next hPlace hAnswer.2 hLen⟩, ?_⟩
      · have hSub :=
          UInt32.toNat_sub_of_le _ _ hAnswer.2
        simp only [Sending.next, hSub]
        omega
      · rw [hSplit, List.append_assoc] at hFramed
        exact hFramed.arrive
  · cases hStep

/- The packet that a step puts behind those on the way. -/
theorem InTransit.step
    (hTransit : InTransit s inFlight)
    {l : PipelineStep}
    (hOther : l ≠ .receive)
    (hWrites : s.FitsInTwoWrites l)
    (hStep : s.step l = some t) :
    InTransit t (inFlight ++ PipelineStep.pushed [l]) := by
  cases l with
  | receive => exact absurd rfl hOther
  | push p =>
      cases hStep
      exact hTransit.push hWrites
  | stop =>
      rw [PipelineStep.pushed, List.filterMap_cons_none rfl,
        List.filterMap_nil, List.append_nil]
      exact hTransit.stop hStep
  | pop =>
      rw [PipelineStep.pushed, List.filterMap_cons_none rfl,
        List.filterMap_nil, List.append_nil]
      exact hTransit.pop hStep
  | write r =>
      rw [PipelineStep.pushed, List.filterMap_cons_none rfl,
        List.filterMap_nil, List.append_nil]
      exact hTransit.write hWrites hStep
  | returned =>
      rw [PipelineStep.pushed, List.filterMap_cons_none rfl,
        List.filterMap_nil, List.append_nil]
      exact hTransit.returned hStep

/-
  A round of `svc` takes the next packet off those on the way;
  there is none before all of its bytes have arrived.
-/
theorem InTransit.receive
    (hTransit : InTransit s inFlight)
    (hStep : s.step .receive = some t) :
    ∃ p rest,
      inFlight = p :: rest ∧
        p.accept s.svc.rcv = some t.svc.rcv ∧
        t.svc.handled = s.svc.handled ++ [p.handled] ∧
        InTransit t rest := by
  rcases hTransit.framed with ⟨left, hLeft, hFramed⟩
  cases inFlight with
  | nil =>
      have hNil : s.svc.stream = [] := by
        rw [Framed, List.flatMap_nil] at hFramed
        exact (List.append_eq_nil_iff.mp hFramed).1
      simp only [Pipeline.step, svcRound, recvHeader, hNil,
        RecvN.call_nil] at hStep
      cases hStep
  | cons p rest =>
      have hFits : p.Fits lib.bufsiz :=
        hTransit.fits p List.mem_cons_self
      refine ⟨p, rest, rfl, ?_⟩
      rcases hFramed.next with
        ⟨stream, hStream⟩ | ⟨missing, hMissing, hPart⟩
      · rcases svcRound_of_arrived hFits hStream with
          ⟨buf, hRound⟩
        cases hAccept : p.accept s.svc.rcv with
        | none => simp [Pipeline.step, hRound, hAccept] at hStep
        | some rcv =>
            simp only [Pipeline.step, hRound, hAccept,
              Option.some.injEq] at hStep
            subst hStep
            rw [hStream] at hFramed
            refine ⟨rfl, rfl, ?_, hTransit.lengths, left, hLeft,
              hFramed.deliver⟩
            intro q hMem
            exact hTransit.fits q (List.mem_cons_of_mem p hMem)
      · rcases svcRound_of_missing hFits hMissing hPart with
          hRound | hRound
        · simp [Pipeline.step, hRound] at hStep
        · simp [Pipeline.step, hRound] at hStep

/- The channel is sent what the threads push. -/
theorem exec_standsFor
    {l : PipelineStep}
    (hOther : l ≠ .receive)
    (c : State SentPacket) :
    (fifo SentPacket).exec c (standsFor l) =
      some ⟨c.inFlight ++ PipelineStep.pushed [l],
        c.delivered⟩ := by
  cases l with
  | receive => exact absurd rfl hOther
  | push p => rfl
  | _ => simp [standsFor, PipelineStep.pushed]

/- The step lemma. -/
theorem refines_step
    (hRefines : Refines svc₀ s c)
    {l : PipelineStep}
    (hWrites : s.FitsInTwoWrites l)
    (hStep : s.step l = some t) :
    ∃ c', (fifo SentPacket).exec c (standsFor l) =
        some c' ∧
      Refines svc₀ t c' := by
  by_cases hReceive : l = .receive
  · subst hReceive
    rcases hRefines.toInTransit.receive hStep with
      ⟨p, rest, hFlight, hAccept, hHandled, hTransit⟩
    rw [SentPacket.accept_of_open hRefines.isOpen,
      Option.some_inj] at hAccept
    refine ⟨⟨rest, c.delivered ++ [p]⟩, ?_, hTransit, ?_, ?_,
      ?_⟩
    · rw [standsFor, System.exec_cons]
      simp [fifo, hFlight]
    · rw [← hAccept]
      exact SentPacket.isSome_sFpEvt_receive hRefines.isOpen p
    · simp [hHandled, hRefines.handled_eq]
    · simp [← hAccept, hRefines.rcv_eq]
  · have hTransit :=
      hRefines.toInTransit.step hReceive hWrites hStep
    have hSvc := svc_of_step hReceive hStep
    have hRcv : t.svc.rcv = s.svc.rcv := by rw [hSvc]
    have hHandled : t.svc.handled = s.svc.handled := by
      rw [hSvc]
    refine ⟨⟨c.inFlight ++ PipelineStep.pushed [l],
      c.delivered⟩, exec_standsFor hReceive c, hTransit, ?_,
      ?_, ?_⟩
    · rw [hRcv]
      exact hRefines.isOpen
    · rw [hHandled]
      exact hRefines.handled_eq
    · rw [hRcv]
      exact hRefines.rcv_eq

/- Before the first step nothing is on the way. -/
theorem inTransit_init
    (hStream : svc₀.stream = []) :
    InTransit (pipeline svc₀).init [] where
  fits _ hMem := nomatch hMem
  lengths _ hMem := nomatch hMem
  framed := ⟨[], rfl, by
    rw [pipeline, hStream]
    exact framed_nil⟩

theorem refines_init
    (hOpen : svc₀.rcv.sFpEvt.isSome)
    (hStream : svc₀.stream = []) :
    Refines svc₀ (pipeline svc₀).init
      (fifo SentPacket).init where
  toInTransit := inTransit_init hStream
  isOpen := hOpen
  handled_eq := (List.append_nil _).symm
  rcv_eq := rfl

/- The run lemma, from any state that the channel stands for. -/
theorem refines_exec
    {steps : List PipelineStep}
    (hRefines : Refines svc₀ s c)
    (hWrites :
      (pipeline svc₀).Meets FitsInTwoWrites s steps)
    (hRun : (pipeline svc₀).exec s steps = some t) :
    ∃ c', (fifo SentPacket).exec c
        (steps.flatMap standsFor) = some c' ∧
      Refines svc₀ t c' := by
  apply (pipeline svc₀).refinement_of_meets
    (fifo SentPacket) standsFor _ hRefines hWrites hRun
  intro s c l t hR hCond hStep
  exact refines_step hR hCond
    (show s.step l = some t from hStep)

/- What the channel is sent is what the threads push. -/
theorem sent_flatMap_standsFor
    (steps : List PipelineStep) :
    sent (steps.flatMap standsFor) =
      PipelineStep.pushed steps := by
  apply sent_flatMap
  intro l
  cases l <;> rfl

/- Nothing is queued, being sent, or waiting for `svc`. -/
def Drained (s : Pipeline lib) : Prop :=
  s.sendQueue = [] ∧ s.sender = .waiting ∧ s.svc.stream = []

/- With everything drained nothing is on the way. -/
theorem InTransit.eq_nil
    (hTransit : InTransit s inFlight)
    (hDrained : s.Drained) :
    inFlight = [] := by
  rcases hDrained with ⟨hQueue, hSender, hStream⟩
  rcases hTransit.framed with ⟨left, hLeft, hFramed⟩
  rw [hSender] at hLeft
  rw [hLeft, hQueue, hStream] at hFramed
  exact hFramed.messages_eq_nil
    (fun p _ => SentPacket.bytes_ne_nil p)

/- What has been pushed is handled or on its way, in order. -/
theorem exists_refines_of_exec
    {svc₀ : SvcState lib}
    (hOpen : svc₀.rcv.sFpEvt.isSome)
    (hStream : svc₀.stream = [])
    {steps : List PipelineStep}
    {s : Pipeline lib}
    (hWrites :
      (pipeline svc₀).Meets Pipeline.FitsInTwoWrites
        (pipeline svc₀).init steps)
    (hRun :
      (pipeline svc₀).exec (pipeline svc₀).init steps =
        some s) :
    ∃ c,
      PipelineStep.pushed steps = c.delivered ++ c.inFlight ∧
        Refines svc₀ s c := by
  rcases refines_exec (refines_init hOpen hStream) hWrites
      hRun with ⟨c, hChannel, hRefines⟩
  refine ⟨c, ?_, hRefines⟩
  rw [delivered_append_inFlight hChannel,
    sent_flatMap_standsFor]

end Pipeline

/-
  While any threads push and bytes arrive with any delay, the
  receiver handles the packets in the order of their pushes,
  each once and as it was built, and with everything drained
  it has handled them all.
-/
theorem pipeline_refines_channel
    {lib : CLib}
    {svc₀ : SvcState lib}
    (hOpen : svc₀.rcv.sFpEvt.isSome)
    (hStream : svc₀.stream = [])
    {steps : List PipelineStep}
    {s : Pipeline lib}
    (hWrites :
      (pipeline svc₀).Meets Pipeline.FitsInTwoWrites
        (pipeline svc₀).init steps)
    (hRun :
      (pipeline svc₀).exec (pipeline svc₀).init steps =
        some s) :
    ∃ delivered onTheWay,
      PipelineStep.pushed steps = delivered ++ onTheWay ∧
        s.svc.handled =
          svc₀.handled ++ delivered.map SentPacket.handled ∧
        s.svc.rcv =
          delivered.foldl SentPacket.receive svc₀.rcv ∧
        (s.Drained → onTheWay = []) := by
  rcases Pipeline.exists_refines_of_exec hOpen hStream hWrites
      hRun with ⟨c, hPushed, hRefines⟩
  exact ⟨c.delivered, c.inFlight, hPushed,
    hRefines.handled_eq, hRefines.rcv_eq,
    hRefines.toInTransit.eq_nil⟩

end FzEvent

------------------------------------------------------------
-- Draining
------------------------------------------------------------

namespace FzEvent

open Channel Transition Window

namespace Pipeline

/- The steps that the sending thread may still take. -/
def Sender.work : Sender → Nat
| .waiting => 1
| .sending d => 2 * d.len.toNat + 2
| .ended => 0

/-
  A byte counts twice before it is written, and once until it
  is received.
-/
def work {lib : CLib} (s : Pipeline lib) : Nat :=
  (s.sendQueue.map fun q => 2 * q.2.toNat + 2).sum +
    Sender.work s.sender + s.svc.stream.length

variable {lib : CLib}
variable {s t : Pipeline lib}

/- Every step but a push leaves less to do. -/
theorem work_lt
    {l : PipelineStep}
    (hNoPush : ∀ p, l ≠ .push p)
    (hStep : s.step l = some t) :
    t.work < s.work := by
  cases l with
  | push p => exact absurd rfl (hNoPush p)
  | stop =>
      simp only [step] at hStep
      split at hStep
      · next hSender =>
        cases hStep
        simp [work, Sender.work, hSender]
      · cases hStep
  | pop =>
      simp only [step] at hStep
      split at hStep
      · next data len rest hSender hQueue =>
        cases hStep
        simp only [work, Sender.work, hSender, hQueue,
          List.map_cons, List.sum_cons]
        omega
      · cases hStep
  | write r =>
      simp only [step] at hStep
      split at hStep
      · next d hSender =>
        split_ifs at hStep with hNone hFailed hAnswer
        · cases hStep
          simp only [work, Sender.work, hSender]
          omega
        · cases hStep
          have hSub := UInt32.toNat_sub_of_le _ _ hAnswer.2
          have hAsked := UInt32.le_iff_toNat_le.mp hAnswer.2
          have hByte := (toUInt32_of_pos hAnswer.1).2
          have hPut :
              (d.put r).length ≤ r.toUInt32.toNat := by
            rw [Sending.put, window]
            exact List.length_take_le _ _
          simp only [work, Sender.work, hSender, Sending.next,
            hSub, List.length_append]
          omega
      · cases hStep
  | returned =>
      simp only [step] at hStep
      split at hStep
      · next d hSender =>
        split at hStep
        · cases hStep
          simp only [work, Sender.work, hSender]
          omega
        · cases hStep
      · cases hStep
  | receive =>
      simp only [step] at hStep
      split at hStep
      · next svc hRound =>
        cases hStep
        have hLess := length_lt_of_svcRound hRound
        simp only [work]
        omega
      · cases hStep

/- Without a push only as many steps follow. -/
theorem length_le_work
    {svc₀ : SvcState lib}
    {steps : List PipelineStep}
    (hNoPush : ∀ l ∈ steps, ∀ p, l ≠ .push p)
    (hRun : (pipeline svc₀).exec s steps = some t) :
    steps.length + t.work ≤ s.work := by
  have hLess :
      ∀ (s : Pipeline lib) l t, True →
        (∀ p, l ≠ .push p) →
          (pipeline svc₀).step s l = some t →
            True ∧ t.work < s.work :=
    fun s l t _ hOther hStep =>
      ⟨trivial, work_lt hOther hStep⟩
  exact (pipeline svc₀).length_le_of_measure work hLess trivial
    ((pipeline svc₀).meets_of_forall s hNoPush) hRun

/- Neither the sending thread nor `svc` can go on. -/
def Stuck {lib : CLib} (s : Pipeline lib) : Prop :=
  ∀ l, (∀ p, l ≠ .push p) → l ≠ .stop → s.step l = none

theorem stuck_of_drained
    {lib : CLib}
    {s : Pipeline lib}
    (hDrained : s.Drained) :
    s.Stuck := by
  rcases hDrained with ⟨hQueue, hSender, hStream⟩
  intro l hNoPush hNoStop
  cases l with
  | push p => exact absurd rfl (hNoPush p)
  | stop => exact absurd rfl hNoStop
  | pop => simp [step, hSender, hQueue]
  | write r => simp [step, hSender]
  | returned => simp [step, hSender]
  | receive =>
      simp [step, svcRound, recvHeader, hStream, RecvN.call_nil]

/- A sending thread that cannot go on has an empty queue. -/
theorem Stuck.sender_eq
    (hStuck : s.Stuck)
    (hRuns : s.sender ≠ .ended) :
    s.sender = .waiting ∧ s.sendQueue = [] := by
  cases hSender : s.sender with
  | waiting =>
      refine ⟨rfl, ?_⟩
      cases hQueue : s.sendQueue with
      | nil => rfl
      | cons q rest =>
          have hPop := hStuck .pop (by simp) (by simp)
          simp [step, hSender, hQueue] at hPop
  | sending d =>
      by_cases hDone : d.len = 0
      · have hReturned := hStuck .returned (by simp) (by simp)
        simp [step, hSender, hDone] at hReturned
      · have hWrite := hStuck (.write 1) (by simp) (by simp)
        have hPos : 0 < d.len.toNat := by
          apply Nat.pos_of_ne_zero
          intro hZero
          exact hDone (UInt32.toNat_inj.mp hZero)
        have hAsked : (1 : Int32).toUInt32 ≤ d.len := by
          rw [UInt32.le_iff_toNat_le]
          exact hPos
        have hAnswer :
            ((1 : Int32).toUInt32 = 0xffffffff) = False := by
          decide
        simp [step, hSender, hDone, hAsked, hAnswer] at hWrite
  | ended => exact absurd hSender hRuns

variable {lib : CLib}

/- When none of them can go on, all has been delivered. -/
theorem Refines.inFlight_eq_nil_of_stuck
    {svc₀ : SvcState lib}
    {s : Pipeline lib}
    {c : State SentPacket}
    (hRefines : Refines svc₀ s c)
    (hStuck : s.Stuck)
    (hRuns : s.sender ≠ .ended) :
    c.inFlight = [] := by
  rcases hStuck.sender_eq hRuns with ⟨hSender, hQueue⟩
  rcases hRefines.framed with ⟨left, hLeft, hFramed⟩
  rw [hSender] at hLeft
  rw [hLeft, hQueue] at hFramed
  cases hFlight : c.inFlight with
  | nil => rfl
  | cons p rest =>
      have hFits : p.Fits lib.bufsiz :=
        hRefines.fits p (by simp [hFlight])
      have hStream :
          s.svc.stream =
            p.bytes ++ rest.flatMap SentPacket.bytes := by
        rw [hFlight] at hFramed
        simpa [Framed] using hFramed
      rcases svcRound_of_arrived hFits hStream with
        ⟨buf, hRound⟩
      rw [SentPacket.accept_of_open hRefines.isOpen] at hRound
      have hReceive := hStuck .receive (by simp) (by simp)
      simp [step, hRound] at hReceive

end Pipeline

/-
  When no thread pushes any more, only as many steps follow as
  there is work; and where they end with the program still
  running, every packet that was ever pushed has been handled,
  in the order of the pushes.
-/
theorem pipeline_drains
    {lib : CLib}
    {svc₀ : SvcState lib}
    (hOpen : svc₀.rcv.sFpEvt.isSome)
    (hStream : svc₀.stream = [])
    {steps more : List PipelineStep}
    {s t : Pipeline lib}
    (hWrites :
      (pipeline svc₀).Meets Pipeline.FitsInTwoWrites
        (pipeline svc₀).init (steps ++ more))
    (hRun :
      (pipeline svc₀).exec (pipeline svc₀).init steps =
        some s)
    (hNoPush : ∀ l ∈ more, ∀ p, l ≠ .push p)
    (hMore : (pipeline svc₀).exec s more = some t) :
    more.length ≤ s.work ∧
      (t.Stuck → t.sender ≠ .ended →
        t.svc.handled =
            svc₀.handled ++
              (PipelineStep.pushed steps).map
                SentPacket.handled ∧
          t.svc.rcv =
            (PipelineStep.pushed steps).foldl
              SentPacket.receive svc₀.rcv) := by
  have hBound := Pipeline.length_le_work hNoPush hMore
  refine ⟨by omega, ?_⟩
  intro hStuck hRuns
  have hAll :
      (pipeline svc₀).exec (pipeline svc₀).init
        (steps ++ more) = some t := by
    rw [System.exec_append, hRun, Option.bind_some, hMore]
  rcases Pipeline.exists_refines_of_exec hOpen hStream hWrites
      hAll with ⟨c, hSent, hRefines⟩
  have hNone : PipelineStep.pushed more = [] := by
    rw [PipelineStep.pushed, List.filterMap_eq_nil_iff]
    intro l hMem
    cases l with
    | push p => exact absurd rfl (hNoPush _ hMem p)
    | _ => rfl
  have hDelivered :
      c.delivered = PipelineStep.pushed steps := by
    rw [hRefines.inFlight_eq_nil_of_stuck hStuck hRuns,
      List.append_nil, PipelineStep.pushed,
      List.filterMap_append] at hSent
    rw [← hSent]
    simpa [PipelineStep.pushed] using hNone
  exact ⟨by rw [hRefines.handled_eq, hDelivered],
    by rw [hRefines.rcv_eq, hDelivered]⟩

/- A screen capture, sent in two writes. -/
def sendOneCapture : List PipelineStep :=
  [.push (.surface ⟨1, 0⟩ 480 800 [7]), .pop, .write 16]

def sendItsRest : List PipelineStep :=
  [.write 1, .receive, .returned]

/- A receiver that has just opened its event file. -/
def freshSvc : SvcState CLib.msvc :=
  ⟨Buffer.zero CLib.msvc.bufsiz, [],
    CEvtRcv.init.makeEventFile, []⟩

theorem fitsInTwoWrites_sendOneCapture :
    (pipeline freshSvc).Meets Pipeline.FitsInTwoWrites
      (pipeline freshSvc).init
      (sendOneCapture ++ sendItsRest) := by
  decide +kernel

/- The capture is on its way, then it is handled. -/
theorem exec_sendOneCapture :
    ∃ s t,
      (pipeline freshSvc).exec (pipeline freshSvc).init
          sendOneCapture = some s ∧
        (pipeline freshSvc).exec s sendItsRest = some t ∧
        t.Drained := by
  have hRun :
      ((pipeline freshSvc).exec (pipeline freshSvc).init
          (sendOneCapture ++ sendItsRest)).map
        (fun t => (t.sendQueue, t.sender, t.svc.stream)) =
          some ([], .waiting, []) := by
    decide +kernel
  rcases Option.map_eq_some_iff.mp hRun with ⟨t, hAll, hEnd⟩
  rw [System.exec_append, Option.bind_eq_some_iff] at hAll
  rcases hAll with ⟨s, hFirst, hRest⟩
  simp only [Prod.mk.injEq] at hEnd
  exact ⟨s, t, hFirst, hRest, hEnd⟩

theorem pipeline_refines_channel_sendOneCapture :
    ∃ t : Pipeline CLib.msvc,
      t.Drained ∧ t.svc.handled = [.screenCapture] := by
  rcases exec_sendOneCapture with ⟨s, t, hFirst, hRest, hEnd⟩
  have hAll :
      (pipeline freshSvc).exec (pipeline freshSvc).init
        (sendOneCapture ++ sendItsRest) = some t := by
    rw [System.exec_append, hFirst, Option.bind_some, hRest]
  rcases pipeline_refines_channel rfl rfl
      fitsInTwoWrites_sendOneCapture hAll with
    ⟨delivered, onTheWay, hPushed, hHandled, _, hDrained⟩
  rw [hDrained hEnd, List.append_nil] at hPushed
  refine ⟨t, hEnd, ?_⟩
  rw [hHandled, ← hPushed]
  rfl

theorem pipeline_drains_sendOneCapture :
    ∃ t : Pipeline CLib.msvc,
      t.Drained ∧ t.svc.handled = [.screenCapture] := by
  rcases exec_sendOneCapture with ⟨s, t, hFirst, hRest, hEnd⟩
  have hAll :=
    pipeline_drains rfl rfl fitsInTwoWrites_sendOneCapture hFirst
      (by simp [sendItsRest]) hRest
  have hRuns : t.sender ≠ .ended := by
    rw [hEnd.2.1]
    simp
  refine ⟨t, hEnd, ?_⟩
  rw [(hAll.2 (Pipeline.stuck_of_drained hEnd) hRuns).1]
  rfl

end FzEvent

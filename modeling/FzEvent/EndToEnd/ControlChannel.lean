import FzEvent.EndToEnd.RemotePlay
import FzEvent.Lib.Channel
import FzEvent.Transport.RecvBuffer

/-
  The control words from the operator to the receiving thread
  of the device: `sendCmd` writes four bytes, `recv()` gives
  them back in pieces of any size, and `recv_packet` acts on a
  word as soon as `recv_buffer` has all of it.

  Main declarations:
    * `FzEvent.SwitchedOn` and `FzEvent.runningMode_of_exec`
    * `FzEvent.ControlChannel` and `FzEvent.controlChannel`
    * `ControlChannel.Refines`
    * `FzEvent.controlChannel_refines_channel`
-/

------------------------------------------------------------
-- Mode Bits
------------------------------------------------------------

namespace FzEvent

open Transition

/- The message in a handled word. -/
def PlayMessage.control (l : PlayMessage) : ControlMessage :=
  controlMessage l.word

/-
  A message `start` has been handled, and no message `stop`
  after it.
-/
def SwitchedOn
    (start stop : ControlMessage)
    (messages : List PlayMessage) : Prop :=
  ∃ before l after,
    messages = before ++ l :: after ∧ l.control = start ∧
      ∀ m ∈ after, m.control ≠ stop

theorem not_switchedOn_nil
    (start stop : ControlMessage) :
    ¬ SwitchedOn start stop [] := by
  rintro ⟨before, l, after, hSplit, _⟩
  simp at hSplit

/- What one more message does to a switch. -/
theorem switchedOn_concat_iff
    {start stop : ControlMessage}
    (messages : List PlayMessage)
    (l : PlayMessage) :
    SwitchedOn start stop (messages ++ [l]) ↔
      l.control = start ∨
        l.control ≠ stop ∧ SwitchedOn start stop messages := by
  constructor
  · rintro ⟨before, m, after, hSplit, hStart, hAfter⟩
    rcases List.eq_nil_or_concat after with
      rfl | ⟨after', m', rfl⟩
    · left
      have hLast := List.append_inj_right' hSplit rfl
      rw [List.singleton_inj] at hLast
      rw [hLast, hStart]
    · right
      rw [List.concat_eq_append, ← List.cons_append,
        ← List.append_assoc] at hSplit
      have hFirst := List.append_inj_left' hSplit rfl
      have hLast := List.append_inj_right' hSplit rfl
      rw [List.singleton_inj] at hLast
      subst hLast
      refine ⟨hAfter l (by simp), before, m, after', hFirst,
        hStart, ?_⟩
      intro m' hMem
      exact hAfter m' (by simp [hMem])
  · rintro (hStart | ⟨hOther, before, m, after, hSplit, hStart,
      hAfter⟩)
    · exact ⟨messages, l, [], rfl, hStart, by simp⟩
    · refine ⟨before, m, after ++ [l], ?_, hStart, ?_⟩
      · rw [hSplit]
        simp
      · intro m' hMem
        rcases List.mem_append.mp hMem with hOld | hNew
        · exact hAfter m' hOld
        · rw [List.mem_singleton.mp hNew]
          exact hOther

end FzEvent

namespace FzEvent

open Transition

/- `running_mode` as the three switches that it holds. -/
structure ModeBits where
  screenCapture : Bool
  eventRecord : Bool
  eventPlay : Bool
deriving DecidableEq, Repr

namespace ModeBits

def bit (on : Bool) (mode : UInt32) : UInt32 :=
  if on then mode else 0

def word (m : ModeBits) : UInt32 :=
  bit m.screenCapture runningScreenCapture |||
    bit m.eventRecord runningEventRecord |||
    bit m.eventPlay runningEventPlay

/- What a message does to the switches. -/
def next
    (m : ModeBits) : ControlMessage → ModeBits
| .captureStart => { m with screenCapture := true }
| .captureStop => { m with screenCapture := false }
| .eventRecordStart => { m with eventRecord := true }
| .eventRecordStop => { m with eventRecord := false }
| .eventPlayStart => { m with eventPlay := true }
| .eventPlayStop => { m with eventPlay := false }
| _ => m

/- Every bit is that of its switch, and there are no others. -/
theorem word_spec
    (m : ModeBits) :
    (m.word &&& runningScreenCapture ≠ 0 ↔
        m.screenCapture = true) ∧
      (m.word &&& runningEventRecord ≠ 0 ↔
        m.eventRecord = true) ∧
      (m.word &&& runningEventPlay ≠ 0 ↔
        m.eventPlay = true) ∧
      m.word &&&
          ~~~(runningScreenCapture ||| runningEventRecord |||
            runningEventPlay) = 0 := by
  rcases m with ⟨_ | _, _ | _, _ | _⟩ <;> decide

/- Setting a bit turns its switch on. -/
theorem word_or
    (m : ModeBits) :
    m.word ||| runningScreenCapture =
        (m.next .captureStart).word ∧
      m.word ||| runningEventRecord =
        (m.next .eventRecordStart).word ∧
      m.word ||| runningEventPlay =
        (m.next .eventPlayStart).word := by
  rcases m with ⟨_ | _, _ | _, _ | _⟩ <;> decide

/- Clearing a bit turns its switch off. -/
theorem word_and_not
    (m : ModeBits) :
    m.word &&& ~~~runningScreenCapture =
        (m.next .captureStop).word ∧
      m.word &&& ~~~runningEventRecord =
        (m.next .eventRecordStop).word ∧
      m.word &&& ~~~runningEventPlay =
        (m.next .eventPlayStop).word := by
  rcases m with ⟨_ | _, _ | _, _ | _⟩ <;> decide

/- The switches as the handled messages leave them. -/
structure Of
    (messages : List PlayMessage)
    (m : ModeBits) : Prop where
  screenCapture_iff :
    m.screenCapture = true ↔
      SwitchedOn .captureStart .captureStop messages
  eventRecord_iff :
    m.eventRecord = true ↔
      SwitchedOn .eventRecordStart .eventRecordStop messages
  eventPlay_iff :
    m.eventPlay = true ↔
      SwitchedOn .eventPlayStart .eventPlayStop messages

theorem of_nil : Of [] ⟨false, false, false⟩ where
  screenCapture_iff := by
    simp [not_switchedOn_nil]
  eventRecord_iff := by
    simp [not_switchedOn_nil]
  eventPlay_iff := by
    simp [not_switchedOn_nil]

theorem Of.next
    {messages : List PlayMessage}
    {m : ModeBits}
    (hOf : Of messages m)
    (l : PlayMessage) :
    Of (messages ++ [l]) (m.next l.control) where
  screenCapture_iff := by
    rw [switchedOn_concat_iff, ← hOf.screenCapture_iff]
    cases l.control <;> simp [ModeBits.next]
  eventRecord_iff := by
    rw [switchedOn_concat_iff, ← hOf.eventRecord_iff]
    cases l.control <;> simp [ModeBits.next]
  eventPlay_iff := by
    rw [switchedOn_concat_iff, ← hOf.eventPlay_iff]
    cases l.control <;> simp [ModeBits.next]

end ModeBits

namespace RemotePlay

variable {openable : Int32 → Bool}
variable {s t : RemotePlay}

/- What a handled word does beside the event list. -/
structure Handles
    (s t : RemotePlay)
    (message : ControlMessage) : Prop where
  running_eq : s.running = true
  runningMode_eq :
    ∀ m : ModeBits, s.runningMode = m.word →
      t.runningMode = (m.next message).word
  immediately_eq :
    t.immediately =
      s.immediately +
        if message = .captureImmediately then 1 else 0
  running_iff : t.running = false ↔ message = .terminate

/- The step lemma. -/
theorem handles_of_step
    {l : PlayMessage}
    (hStep : (remotePlay openable).step s l = some t) :
    s.Handles t l.control := by
  have hRunning : s.running = true := by
    by_contra hStopped
    simp [remotePlay, recvPacket, hStopped] at hStep
  have hControl : controlMessage l.word = l.control := rfl
  simp only [remotePlay, recvPacket, hRunning, if_true,
    hControl] at hStep
  cases hMessage : l.control with
  | captureStart =>
      rw [hMessage] at hStep
      cases hStep
      refine ⟨hRunning, ?_, rfl, by simp [setRunningMode, hRunning]⟩
      intro m hWord
      rw [setRunningMode, hWord]
      exact m.word_or.1
  | captureStop =>
      rw [hMessage] at hStep
      cases hStep
      refine ⟨hRunning, ?_, rfl,
        by simp [unsetRunningMode, hRunning]⟩
      intro m hWord
      rw [unsetRunningMode, hWord]
      exact m.word_and_not.1
  | captureImmediately =>
      rw [hMessage] at hStep
      cases hStep
      exact ⟨hRunning, fun m hWord => hWord, rfl, by simp⟩
  | eventRecordStart =>
      rw [hMessage] at hStep
      cases hStep
      refine ⟨hRunning, ?_, rfl, by simp [setRunningMode, hRunning]⟩
      intro m hWord
      rw [setRunningMode, hWord]
      exact m.word_or.2.1
  | eventRecordStop =>
      rw [hMessage] at hStep
      cases hStep
      refine ⟨hRunning, ?_, rfl,
        by simp [unsetRunningMode, hRunning]⟩
      intro m hWord
      rw [unsetRunningMode, hWord]
      exact m.word_and_not.2.1
  | eventPlayStart =>
      rw [hMessage] at hStep
      simp only [Option.map_map, Option.map_eq_some_iff] at hStep
      rcases hStep with ⟨list, _, rfl⟩
      refine ⟨hRunning, ?_, rfl, by simp [setRunningMode, hRunning]⟩
      intro m hWord
      rw [Function.comp_apply, setRunningMode, hWord]
      exact m.word_or.2.2
  | eventPlayStep =>
      rw [hMessage] at hStep
      cases hStep
      exact ⟨hRunning, fun m hWord => hWord, rfl,
        by simp [hRunning]⟩
  | eventPlayStop =>
      rw [hMessage] at hStep
      cases hStep
      refine ⟨hRunning, ?_, rfl,
        by simp [unsetRunningMode, hRunning]⟩
      intro m hWord
      rw [unsetRunningMode, hWord]
      exact m.word_and_not.2.2
  | terminate =>
      rw [hMessage] at hStep
      cases hStep
      exact ⟨hRunning, fun m hWord => hWord, rfl, by simp⟩
  | unknown =>
      rw [hMessage] at hStep
      cases hStep
      exact ⟨hRunning, fun m hWord => hWord, rfl,
        by simp [hRunning]⟩

end RemotePlay

/- How many handled messages start an immediate capture. -/
def immediateCaptures (messages : List PlayMessage) : Nat :=
  messages.countP fun l => l.control = .captureImmediately

/- The run lemma. -/
theorem exists_modeBits_of_exec
    {openable : Int32 → Bool}
    {messages : List PlayMessage}
    {s : RemotePlay}
    (hRun :
      (remotePlay openable).exec (remotePlay openable).init
        messages = some s) :
    ∃ m : ModeBits,
      s.runningMode = m.word ∧ ModeBits.Of messages m ∧
        s.immediately = immediateCaptures messages ∧
        (s.running = false ↔
          ∃ l ∈ messages, l.control = .terminate) := by
  refine (remotePlay openable).invariant_of_exec
    (fun messages s =>
      ∃ m : ModeBits,
        s.runningMode = m.word ∧ ModeBits.Of messages m ∧
          s.immediately = immediateCaptures messages ∧
          (s.running = false ↔
            ∃ l ∈ messages, l.control = .terminate))
    ⟨⟨false, false, false⟩, rfl, ModeBits.of_nil, rfl, ?_⟩
    ?_ hRun
  · simp [remotePlay, RemotePlay.init]
  · rintro messages t l s -
      ⟨m, hWord, hOf, hImmediately, hRunning⟩ hStep
    have hHandles := RemotePlay.handles_of_step hStep
    refine ⟨m.next l.control, hHandles.runningMode_eq m hWord,
      hOf.next l, ?_, ?_⟩
    · rw [hHandles.immediately_eq, hImmediately,
        immediateCaptures, immediateCaptures,
        List.countP_append]
      simp [List.countP_cons]
    · rw [hHandles.running_iff]
      have hNone :
          ∀ l ∈ messages, l.control ≠ .terminate := by
        intro l' hMem hTerminate
        have hStopped := hRunning.mpr ⟨l', hMem, hTerminate⟩
        rw [hHandles.running_eq] at hStopped
        cases hStopped
      constructor
      · intro hTerminate
        exact ⟨l, by simp, hTerminate⟩
      · rintro ⟨l', hMem, hTerminate⟩
        rcases List.mem_append.mp hMem with hOld | hNew
        · exact absurd hTerminate (hNone l' hOld)
        · rw [← List.mem_singleton.mp hNew]
          exact hTerminate

/-
  After any sequence of control words, with any index bits and
  unknown words between, a bit of `running_mode` is set exactly
  when its start came and its stop did not come after it, and
  no other bit ever is.
-/
theorem runningMode_of_exec
    {openable : Int32 → Bool}
    {messages : List PlayMessage}
    {s : RemotePlay}
    (hRun :
      (remotePlay openable).exec (remotePlay openable).init
        messages = some s) :
    (s.runningMode &&& runningScreenCapture ≠ 0 ↔
        SwitchedOn .captureStart .captureStop messages) ∧
      (s.runningMode &&& runningEventRecord ≠ 0 ↔
        SwitchedOn .eventRecordStart .eventRecordStop
          messages) ∧
      (s.runningMode &&& runningEventPlay ≠ 0 ↔
        SwitchedOn .eventPlayStart .eventPlayStop messages) ∧
      s.runningMode &&&
          ~~~(runningScreenCapture ||| runningEventRecord |||
            runningEventPlay) = 0 := by
  rcases exists_modeBits_of_exec hRun with ⟨m, hWord, hOf, _⟩
  rw [hWord, ← hOf.screenCapture_iff, ← hOf.eventRecord_iff,
    ← hOf.eventPlay_iff]
  exact m.word_spec

end FzEvent

------------------------------------------------------------
-- The Connection
------------------------------------------------------------

namespace FzEvent

open Channel Transition

/-
  The bytes on the way to the device; `recv_buffer` of
  `recv_packet` with its memory and `total_recv_len`; and what
  the messages handled so far have left.
-/
structure ControlChannel where
  stream : List UInt8
  recvBuffer : List UInt8
  totalRecvLen : UInt32
  device : RemotePlay
deriving DecidableEq

/-
  The steps: `sendCmd`, a call of `recv()` that gives at most
  so many bytes, and a round of `recv_packet` on a whole word,
  with the event file that is present.
-/
inductive ControlStep
| sendCmd (cmdCode : UInt32)
| recv (piece : Nat)
| recvPacket (groups : List (List FileRecord))
    (locals : Nat → EventPlayer.ReadVars)

namespace ControlChannel

/- `sizeof(recv_buffer)` -/
def recvBufferLen : UInt32 := 4

/-
  What `recv()` answers: bytes in the order in which they were
  sent, at least one. It waits while there are none.
-/
def answer
    (stream : List UInt8)
    (piece : Nat) : Option RecvAnswer :=
  match stream.take (max 1 piece) with
  | [] => none
  | first :: rest => some (.bytes first rest)

def step
    (openable : Int32 → Bool)
    (s : ControlChannel) : ControlStep → Option ControlChannel
| .sendCmd cmdCode =>
    some { s with stream := s.stream ++ u32.encode cmdCode }
| .recv piece =>
    if s.device.running ∧ s.totalRecvLen < recvBufferLen then do
      let answer ← answer s.stream piece
      let space := recvBufferLen - s.totalRecvLen
      let data := answer.data space
      let recvBuffer ←
        storeAt s.recvBuffer s.totalRecvLen.toNat data
      return { s with
        stream := s.stream.drop data.length
        recvBuffer := recvBuffer
        totalRecvLen := s.totalRecvLen + answer.result space }
    else
      none
| .recvPacket groups locals =>
    if s.totalRecvLen = recvBufferLen then do
      let device ← (remotePlay openable).step s.device
        ⟨u32.decode s.recvBuffer, groups, locals⟩
      return { s with totalRecvLen := 0, device := device }
    else
      none

end ControlChannel

/- The operator and the receiving thread. -/
def controlChannel (openable : Int32 → Bool) :
    System ControlChannel ControlStep where
  init := ⟨[], [0, 0, 0, 0], 0, .init⟩
  step := ControlChannel.step openable

/- The words that some steps send. -/
def ControlStep.cmdCodes (steps : List ControlStep) :
    List UInt32 :=
  steps.filterMap fun
    | .sendCmd cmdCode => some cmdCode
    | _ => none

end FzEvent

------------------------------------------------------------
-- Words in Order
------------------------------------------------------------

namespace FzEvent

open Channel Transition

namespace ControlChannel

variable {openable : Int32 → Bool}
variable {s t : ControlChannel}
variable {c : State UInt32}

/-
  The connection as a channel `c` of words: the bytes of the
  word that is being received and those on the way are the
  words in flight, and the device has handled the others.
-/
structure Refines
    (openable : Int32 → Bool)
    (s : ControlChannel)
    (c : State UInt32) : Prop where
  framed :
    ∃ got free,
      s.recvBuffer = got ++ free ∧
        got.length + free.length = 4 ∧
        s.totalRecvLen = UInt32.ofNat got.length ∧
        Framed u32.encode (got ++ s.stream) [] c.inFlight
  handled :
    ∃ messages : List PlayMessage,
      messages.map PlayMessage.word = c.delivered ∧
        (remotePlay openable).exec (remotePlay openable).init
          messages = some s.device

/- What a step of the connection is for the channel. -/
def standsFor : ControlStep → List (Step UInt32)
| .sendCmd cmdCode => [.send cmdCode]
| .recv _ => []
| .recvPacket _ _ => [.deliver]

theorem Refines.sendCmd
    (hRefines : Refines openable s c)
    (cmdCode : UInt32) :
    Refines openable
      { s with stream := s.stream ++ u32.encode cmdCode }
      { c with inFlight := c.inFlight ++ [cmdCode] } where
  framed := by
    rcases hRefines.framed with
      ⟨got, free, hBuffer, hLength, hTotal, hFramed⟩
    refine ⟨got, free, hBuffer, hLength, hTotal, ?_⟩
    have hNext := hFramed.send cmdCode
    rw [List.nil_append, ← List.append_nil (u32.encode _)]
      at hNext
    rw [← List.append_assoc]
    exact hNext.arrive
  handled := hRefines.handled

/- What an answer delivers is the front of the stream. -/
theorem data_of_answer
    {stream : List UInt8}
    {piece : Nat}
    {a : RecvAnswer}
    (hAnswer : answer stream piece = some a)
    (space : UInt32) :
    a.data space <+: stream ∧
      a.result space =
        UInt32.ofNat (a.data space).length ∧
      (a.data space).length ≤ space.toNat := by
  unfold answer at hAnswer
  split at hAnswer
  · cases hAnswer
  · next first rest hTake =>
    cases hAnswer
    refine ⟨?_, rfl, List.length_take_le _ _⟩
    rw [RecvAnswer.data, ← hTake]
    exact (List.take_prefix _ _).trans (List.take_prefix _ _)

/- What is missing of the word. -/
theorem toNat_space
    {got free : List UInt8}
    (hLength : got.length + free.length = 4)
    (hTotal : s.totalRecvLen = UInt32.ofNat got.length) :
    (recvBufferLen - s.totalRecvLen).toNat = free.length := by
  have hLen : recvBufferLen.toNat = 4 := rfl
  rw [hTotal, TcpServer.toNat_space (by omega), hLen]
  omega

/- A call of `recv()` moves bytes into the word. -/
theorem Refines.recv
    (hRefines : Refines openable s c)
    {piece : Nat}
    (hStep : s.step openable (.recv piece) = some t) :
    Refines openable t c := by
  rcases hRefines.framed with
    ⟨got, free, hBuffer, hLength, hTotal, hFramed⟩
  simp only [step] at hStep
  split at hStep
  · next hLoop =>
    simp only [Option.bind_eq_bind, Option.bind_eq_some_iff]
      at hStep
    rcases hStep with ⟨a, hAnswer, recvBuffer, hStore, hNext⟩
    cases hNext
    have hGot :
        (UInt32.ofNat got.length).toNat = got.length := by
      rw [UInt32.toNat_ofNat', Nat.mod_eq_of_lt (by omega)]
    have hSpace := toNat_space hLength hTotal
    have hData := data_of_answer hAnswer
      (recvBufferLen - s.totalRecvLen)
    rcases hData with ⟨⟨rest, hRest⟩, hResult, hFits⟩
    rw [hSpace] at hFits
    let data := a.data (recvBufferLen - s.totalRecvLen)
    rw [hBuffer, hTotal, hGot, ← hTotal,
      storeAt_append got free _ hFits, Option.some_inj]
      at hStore
    refine ⟨⟨got ++ data, free.drop data.length, hStore.symm,
      ?_, ?_, ?_⟩, hRefines.handled⟩
    · rw [List.length_append, List.length_drop]
      have hLe : data.length ≤ free.length := hFits
      omega
    · rw [hResult, hTotal, List.length_append,
        UInt32.ofNat_add, ← hTotal]
    · have hDrop : s.stream.drop data.length = rest := by
        rw [← hRest, List.drop_left]
      rw [show (a.data
          (recvBufferLen - s.totalRecvLen)).length =
            data.length from rfl, hDrop, List.append_assoc,
        show data ++ rest = s.stream from hRest]
      exact hFramed
  · cases hStep

/- A whole word is the next one that was sent. -/
theorem Refines.recvPacket
    (hRefines : Refines openable s c)
    {groups : List (List FileRecord)}
    {locals : Nat → EventPlayer.ReadVars}
    (hStep :
      s.step openable (.recvPacket groups locals) = some t) :
    ∃ c', (fifo UInt32).step c .deliver = some c' ∧
      Refines openable t c' := by
  rcases hRefines.framed with
    ⟨got, free, hBuffer, hLength, hTotal, hFramed⟩
  rcases hRefines.handled with ⟨messages, hWords, hRun⟩
  simp only [step] at hStep
  split at hStep
  · next hFull =>
    simp only [Option.bind_eq_bind, Option.bind_eq_some_iff]
      at hStep
    rcases hStep with ⟨device, hDevice, hNext⟩
    cases hNext
    have hGot : got.length = 4 := by
      rw [hFull] at hTotal
      have hToNat := congrArg UInt32.toNat hTotal
      rw [UInt32.toNat_ofNat',
        Nat.mod_eq_of_lt (by omega)] at hToNat
      exact hToNat.symm
    have hFree : free = [] := by
      apply List.eq_nil_of_length_eq_zero
      omega
    cases hFlight : c.inFlight with
    | nil =>
        rw [hFlight, Framed, List.append_nil, List.flatMap_nil]
          at hFramed
        have hNil := (List.append_eq_nil_iff.mp hFramed).1
        rw [hNil] at hGot
        cases hGot
    | cons word rest =>
        rw [hFlight] at hFramed
        have hWord : got = u32.encode word := by
          have hSplit := hFramed
          rw [Framed, List.append_nil, List.flatMap_cons]
            at hSplit
          apply List.append_inj_left hSplit
          rw [hGot, ByteCodec.Codec.length_encode]
          rfl
        rw [hWord] at hFramed
        refine ⟨⟨rest, c.delivered ++ [word]⟩, ?_, ?_⟩
        · simp [fifo, hFlight]
        constructor
        · exact ⟨[], s.recvBuffer, rfl, by simp [hBuffer, hGot,
            hFree], rfl, hFramed.deliver⟩
        · refine ⟨messages ++
            [⟨u32.decode s.recvBuffer, groups, locals⟩], ?_, ?_⟩
          · rw [List.map_append, hWords, hBuffer, hFree,
              List.append_nil, hWord]
            simp [ByteCodec.Codec.decode_encode]
          · rw [System.exec_append, hRun, Option.bind_some,
              System.exec_cons, hDevice]
            rfl
  · cases hStep

/- A step of `recv` is a round of the loop of `recv_buffer`. -/
theorem recvLoop_of_recv
    {piece : Nat}
    (hStep : s.step openable (.recv piece) = some t) :
    ∃ a, answer s.stream piece = some a ∧
      ∀ answers,
        TcpServer.recvLoop recvBufferLen (a :: answers)
            s.totalRecvLen s.recvBuffer =
          if t.totalRecvLen < recvBufferLen then
            TcpServer.recvLoop recvBufferLen answers
              t.totalRecvLen t.recvBuffer
          else
            .returned
              (if t.totalRecvLen = recvBufferLen then 0 else -1)
              t.recvBuffer := by
  simp only [step] at hStep
  split at hStep
  · simp only [Option.bind_eq_bind, Option.bind_eq_some_iff]
      at hStep
    rcases hStep with ⟨a, hAnswer, recvBuffer, hStore, hNext⟩
    cases hNext
    refine ⟨a, hAnswer, ?_⟩
    intro answers
    rw [TcpServer.recvLoop, hStore]
  · cases hStep

/- The step lemma. -/
theorem refines_step
    (hRefines : Refines openable s c)
    {l : ControlStep}
    (hStep : s.step openable l = some t) :
    ∃ c', (fifo UInt32).exec c (standsFor l) = some c' ∧
      Refines openable t c' := by
  cases l with
  | sendCmd cmdCode =>
      cases hStep
      exact ⟨_, rfl, hRefines.sendCmd cmdCode⟩
  | recv piece => exact ⟨c, rfl, hRefines.recv hStep⟩
  | recvPacket groups locals =>
      rcases hRefines.recvPacket hStep with
        ⟨c', hDeliver, hNext⟩
      refine ⟨c', ?_, hNext⟩
      rw [standsFor, System.exec_cons, hDeliver]
      rfl

theorem refines_init :
    Refines openable (controlChannel openable).init
      (fifo UInt32).init where
  framed := ⟨[], [0, 0, 0, 0], rfl, rfl, rfl, framed_nil⟩
  handled := ⟨[], rfl, rfl⟩

/- What the channel is sent are the words of `sendCmd`. -/
theorem sent_flatMap_standsFor
    (steps : List ControlStep) :
    sent (steps.flatMap standsFor) =
      ControlStep.cmdCodes steps := by
  apply sent_flatMap
  intro l
  cases l <;> rfl

/- The receiving thread cannot go on. -/
def Stuck
    (openable : Int32 → Bool)
    (s : ControlChannel) : Prop :=
  ∀ l, (∀ cmdCode, l ≠ .sendCmd cmdCode) →
    s.step openable l = none

/- Every word is handled, if no file hangs the thread. -/
theorem exists_step_of_running
    (openable : Int32 → Bool)
    {device : RemotePlay}
    (hRunning : device.running = true)
    (word : UInt32)
    (locals : Nat → EventPlayer.ReadVars) :
    ∃ device',
      (remotePlay openable).step device
        ⟨word, [], locals⟩ = some device' := by
  have hFile : WellFormedFile openable [] := by
    constructor <;> simp [GroupTimes]
  cases hWord : controlMessage word with
  | eventPlayStart =>
      have hHandled :=
        recvPacket_of_start openable hRunning hWord hFile locals
      exact ⟨_, by simp only [remotePlay, hHandled]; rfl⟩
  | eventPlayStep =>
      have hHandled :=
        recvPacket_of_step openable hRunning hWord
          (some (encodeFile [])) locals
      exact ⟨_, by simp only [remotePlay, hHandled]; rfl⟩
  | eventPlayStop =>
      have hHandled :=
        recvPacket_of_stop openable hRunning hWord
          (some (encodeFile [])) locals
      exact ⟨_, by simp only [remotePlay, hHandled]; rfl⟩
  | _ =>
      have hOther :
          controlMessage word ≠ .eventPlayStart ∧
            controlMessage word ≠ .eventPlayStep ∧
            controlMessage word ≠ .eventPlayStop := by
        simp [hWord]
      rcases recvPacket_of_other openable hRunning hOther
          (some (encodeFile [])) locals with
        ⟨device', hHandled, _⟩
      exact ⟨device', by simp [remotePlay, hHandled]⟩

/- Variables of `read_event` that hold zeros. -/
def noLocals : Nat → EventPlayer.ReadVars :=
  fun _ => ⟨⟨0, 0⟩, 0, 0, 0, 0⟩

/- It waits for bytes only when no word is on the way. -/
theorem Refines.inFlight_eq_nil
    (hRefines : Refines openable s c)
    (hStuck : s.Stuck openable)
    (hRunning : s.device.running = true) :
    c.inFlight = [] := by
  rcases hRefines.framed with
    ⟨got, free, hBuffer, hLength, hTotal, hFramed⟩
  have hGot :
      (UInt32.ofNat got.length).toNat = got.length := by
    rw [UInt32.toNat_ofNat', Nat.mod_eq_of_lt (by omega)]
  have hLen : recvBufferLen.toNat = 4 := rfl
  have hMore : got.length ≠ 4 := by
    intro hFull
    have hDone : s.totalRecvLen = recvBufferLen := by
      rw [hTotal, hFull]
      rfl
    rcases exists_step_of_running openable hRunning
        (u32.decode s.recvBuffer) noLocals with
      ⟨device, hDevice⟩
    have hNone := hStuck (.recvPacket [] noLocals) (by simp)
    simp [step, hDone, hDevice] at hNone
  have hLess : s.totalRecvLen < recvBufferLen := by
    rw [UInt32.lt_iff_toNat_lt, hTotal, hGot, hLen]
    omega
  have hNil : s.stream = [] := by
    cases hStream : s.stream with
    | nil => rfl
    | cons b bs =>
        have hSpace := toNat_space hLength hTotal
        have hData :
            [b].take (recvBufferLen - s.totalRecvLen).toNat =
              [b] := by
          apply List.take_of_length_le
          rw [hSpace, List.length_singleton]
          omega
        have hStore :
            storeAt s.recvBuffer s.totalRecvLen.toNat [b] =
              some (got ++ [b] ++ free.drop 1) := by
          rw [hBuffer, hTotal, hGot]
          exact storeAt_append got free [b]
            (by rw [List.length_singleton]; omega)
        have hNone := hStuck (.recv 1) (by simp)
        simp [step, hRunning, hLess, answer, hStream,
          RecvAnswer.data, hData, hStore] at hNone
  cases hFlight : c.inFlight with
  | nil => rfl
  | cons word rest =>
      exfalso
      rw [hFlight, hNil, Framed] at hFramed
      have hBytes := congrArg List.length hFramed
      simp only [List.append_nil, List.flatMap_cons,
        List.length_append, ByteCodec.Codec.length_encode,
        u32_width] at hBytes
      omega

end ControlChannel

end FzEvent

namespace FzEvent

open Channel Transition

/-
  However the bytes of the words are cut into pieces, the
  device handles the words that were sent, each once and in
  order; and it waits for bytes only when it has handled them
  all or has been terminated.
-/
theorem controlChannel_refines_channel
    {openable : Int32 → Bool}
    {steps : List ControlStep}
    {s : ControlChannel}
    (hRun :
      (controlChannel openable).exec
        (controlChannel openable).init steps = some s) :
    ∃ (messages : List PlayMessage) (pending : List UInt32),
      ControlStep.cmdCodes steps =
          messages.map PlayMessage.word ++ pending ∧
        (remotePlay openable).exec (remotePlay openable).init
          messages = some s.device ∧
        (s.Stuck openable →
          pending = [] ∨
            ∃ l ∈ messages, l.control = .terminate) := by
  have hStep :
      ∀ (s : ControlChannel) (c : State UInt32)
        (l : ControlStep) (t : ControlChannel),
        ControlChannel.Refines openable s c → True →
          (controlChannel openable).step s l = some t →
            ∃ c', (fifo UInt32).exec c
                (ControlChannel.standsFor l) = some c' ∧
              ControlChannel.Refines openable t c' := by
    intro s c l t hR _ hNext
    exact ControlChannel.refines_step hR hNext
  rcases (controlChannel openable).refinement_of_meets
      (fifo UInt32) ControlChannel.standsFor hStep
      ControlChannel.refines_init
      ((controlChannel openable).meets_true _ steps) hRun with
    ⟨c, hChannel, hRefines⟩
  rcases hRefines.handled with ⟨messages, hWords, hDevice⟩
  refine ⟨messages, c.inFlight, ?_, hDevice, ?_⟩
  · rw [hWords, delivered_append_inFlight hChannel,
      ControlChannel.sent_flatMap_standsFor]
  · intro hStuck
    rcases exists_modeBits_of_exec hDevice with
      ⟨_, _, _, _, hRunning⟩
    cases hRuns : s.device.running with
    | true =>
        exact Or.inl (hRefines.inFlight_eq_nil hStuck hRuns)
    | false => exact Or.inr (hRunning.mp hRuns)

/- The recording is switched on by a word in two pieces. -/
def sendRecordStart : List ControlStep :=
  [.sendCmd controlMessageEventRecordStart, .recv 3, .recv 3,
    .recvPacket [] ControlChannel.noLocals]

theorem controlChannel_refines_channel_sendRecordStart :
    ∃ s messages,
      (controlChannel fun _ => true).exec
          (controlChannel fun _ => true).init
          sendRecordStart = some s ∧
        (remotePlay fun _ => true).exec
          (remotePlay fun _ => true).init messages =
            some s.device ∧
        s.device.runningMode = runningEventRecord := by
  have hEnd :
      ((controlChannel fun _ => true).exec
          (controlChannel fun _ => true).init
          sendRecordStart).map
        (fun s => s.device.runningMode) =
          some runningEventRecord := by
    decide +kernel
  rcases Option.map_eq_some_iff.mp hEnd with
    ⟨s, hRun, hMode⟩
  rcases controlChannel_refines_channel hRun with
    ⟨messages, _, _, hDevice, _⟩
  exact ⟨s, messages, hRun, hDevice, hMode⟩

theorem runningMode_of_exec_sendRecordStart :
    SwitchedOn .eventRecordStart .eventRecordStop
      [⟨controlMessageEventRecordStart, [],
        ControlChannel.noLocals⟩] := by
  have hEnd :
      ((remotePlay fun _ => true).exec
          (remotePlay fun _ => true).init
          [⟨controlMessageEventRecordStart, [],
            ControlChannel.noLocals⟩]).map
        RemotePlay.runningMode = some runningEventRecord := by
    decide +kernel
  rcases Option.map_eq_some_iff.mp hEnd with
    ⟨s, hRun, hMode⟩
  rw [← (runningMode_of_exec hRun).2.1, hMode]
  decide

end FzEvent

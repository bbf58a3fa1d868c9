import FzEvent.Lib.Transition
import FzEvent.Receiver.CEvtRcv

/-
  A recording session between the receiver and the device:
  the operator thread, the `svc` thread, the device's threads
  and the messages in flight both ways.

  The operator opens the event file after sending the start
  message and closes it right after sending the stop message,
  without waiting for the device.

  Main declarations:
    * `FzEvent.Session`, `FzEvent.SessionStep`
    * `FzEvent.recordingSession`
    * `Session.OpenWhileHandling` and `Session.Timely`
    * `FzEvent.openWhileHandling_of_timely`
    * `Session.exists_not_openWhileHandling`
-/

------------------------------------------------------------
-- Parties and Messages
------------------------------------------------------------

namespace FzEvent

/- `CONTROL_MESSAGE_EVENT_RECORD_START` -/
def controlMessageEventRecordStart : UInt32 := 0x00020001

/- `CONTROL_MESSAGE_EVENT_RECORD_STOP` -/
def controlMessageEventRecordStop : UInt32 := 0x00020002

/- `CONTROL_MESSAGE_TERMINATE` -/
def controlMessageTerminate : UInt32 := 0x00080001

/-
  Where the operator thread is: it may send the start message,
  has to open the file, may send the stop message, has to
  close the file, or has left its loop.
-/
inductive OperatorPc
| idle
| startSent
| recording
| stopSent
| done
deriving DecidableEq, Repr

/- An event packet by its header time and its event. -/
structure EventPacket where
  tv : Timeval
  e : DevicePacketEvent
deriving DecidableEq, Repr

/-
  The operator, the messages to the device, the device's
  `running` and `RUNNING_EVENT_RECORD`, whether the recorder
  thread is inside an iteration, the device's `send_queue`,
  the packets to the receiver, the packet that `svc` handles,
  and the receiver's static members.
-/
structure Session where
  operator : OperatorPc
  toDevice : List UInt32
  running : Bool
  recordMode : Bool
  iterating : Bool
  sendQueue : List EventPacket
  toReceiver : List EventPacket
  svc : Option EventPacket
  rcv : CEvtRcv
deriving DecidableEq

/- The atomic steps of the parties. -/
inductive SessionStep
| sendStart
| openFile
| sendStop
| closeFile
| sendTerminate
| recvPacket
| checkMode
| finishIteration (packet : Option EventPacket)
| sendPacket
| svcReceive
| svcHandle
deriving DecidableEq, Repr

end FzEvent

------------------------------------------------------------
-- Steps
------------------------------------------------------------

namespace FzEvent

namespace Session

def init : Session where
  operator := .idle
  toDevice := []
  running := true
  recordMode := false
  iterating := false
  sendQueue := []
  toReceiver := []
  svc := none
  rcv := CEvtRcv.init

/- `sendCmd` in the operator's state `pc`. -/
def sendCmd
    (s : Session)
    (pc : OperatorPc)
    (cmdCode : UInt32) : Session :=
  { s with
    operator := pc
    toDevice := s.toDevice ++ [cmdCode] }

/- The switch of `recv_packet` on a message of the operator. -/
def recvPacket
    (s : Session)
    (message : UInt32) : Session :=
  let code := message &&& 0x00ff00ff
  if code = controlMessageEventRecordStart then
    { s with recordMode := true }
  else if code = controlMessageEventRecordStop then
    { s with recordMode := false }
  else if code = controlMessageTerminate then
    { s with running := false }
  else
    s

@[simp] theorem recvPacket_sendQueue
    (s : Session)
    (message : UInt32) :
    (s.recvPacket message).sendQueue = s.sendQueue := by
  unfold recvPacket
  dsimp only
  split_ifs <;> rfl

@[simp] theorem recvPacket_toReceiver
    (s : Session)
    (message : UInt32) :
    (s.recvPacket message).toReceiver = s.toReceiver := by
  unfold recvPacket
  dsimp only
  split_ifs <;> rfl

@[simp] theorem recvPacket_svc
    (s : Session)
    (message : UInt32) :
    (s.recvPacket message).svc = s.svc := by
  unfold recvPacket
  dsimp only
  split_ifs <;> rfl

@[simp] theorem recvPacket_rcv
    (s : Session)
    (message : UInt32) :
    (s.recvPacket message).rcv = s.rcv := by
  unfold recvPacket
  dsimp only
  split_ifs <;> rfl

/-
  One step of a party, `none` when the party cannot take it
  or an assertion fails in it.
-/
def step
    (s : Session) : SessionStep → Option Session
| .sendStart =>
    if s.operator = .idle then
      some (s.sendCmd .startSent controlMessageEventRecordStart)
    else
      none
| .openFile =>
    if s.operator = .startSent then
      some { s with
        operator := .recording
        rcv :=
          { s.rcv.makeEventFile with sEventSequence := 0 } }
    else
      none
| .sendStop =>
    if s.operator = .recording then
      some (s.sendCmd .stopSent controlMessageEventRecordStop)
    else
      none
| .closeFile =>
    if s.operator = .stopSent then
      s.rcv.closeEventFile.map fun rcv =>
        { s with operator := .idle, rcv := rcv }
    else
      none
| .sendTerminate =>
    if s.operator = .idle ∨ s.operator = .recording then
      some (s.sendCmd .done controlMessageTerminate)
    else
      none
| .recvPacket =>
    match s.toDevice with
    | [] => none
    | message :: rest =>
        some ({ s with toDevice := rest }.recvPacket message)
| .checkMode =>
    if s.iterating = false ∧ s.running = true ∧
        s.recordMode = true then
      some { s with iterating := true }
    else
      none
| .finishIteration packet =>
    if s.iterating then
      some { s with
        iterating := false
        sendQueue := s.sendQueue ++ packet.toList }
    else
      none
| .sendPacket =>
    match s.sendQueue with
    | [] => none
    | packet :: rest =>
        some { s with
          sendQueue := rest
          toReceiver := s.toReceiver ++ [packet] }
| .svcReceive =>
    match s.svc, s.toReceiver with
    | none, packet :: rest =>
        some { s with toReceiver := rest, svc := some packet }
    | _, _ => none
| .svcHandle =>
    match s.svc with
    | none => none
    | some packet =>
        ((s.rcv.reportEvent packet.tv packet.e).writeEventFile
            packet.e).map fun rcv =>
          { s with svc := none, rcv := rcv }

end Session

open Transition in
/- The session as a system. -/
def recordingSession : System Session SessionStep where
  init := Session.init
  step := Session.step

end FzEvent

------------------------------------------------------------
-- Timely Steps
------------------------------------------------------------

namespace FzEvent

namespace Session

/- The event file is open. -/
def FileOpen (s : Session) : Prop :=
  s.rcv.sFpEvt ≠ none
deriving Decidable

/- Some event packet is on its way to the event file. -/
def OnItsWay (s : Session) : Prop :=
  s.sendQueue ≠ [] ∨ s.toReceiver ≠ [] ∨ s.svc ≠ none
deriving Decidable

/- While `svc` handles an event packet, the file is open. -/
def OpenWhileHandling (s : Session) : Prop :=
  s.svc ≠ none → s.FileOpen
deriving Decidable

/-
  The condition on a step: the recorder pushes a packet only
  while the file is open, and the operator closes the file
  only when no packet is on its way.
-/
def Timely
    (s : Session) : SessionStep → Prop
| .finishIteration packet => packet ≠ none → s.FileOpen
| .closeFile => ¬ s.OnItsWay
| _ => True

instance (s : Session) (l : SessionStep) :
    Decidable (s.Timely l) := by
  cases l <;> unfold Timely <;> infer_instance

/- With the file closed, no packet is on its way. -/
def Quiet (s : Session) : Prop :=
  s.OnItsWay → s.FileOpen

theorem quiet_init : init.Quiet := by
  intro hWay
  simp [OnItsWay, init] at hWay

theorem openWhileHandling_of_quiet
    {s : Session}
    (hQuiet : s.Quiet) :
    s.OpenWhileHandling := by
  intro hSvc
  exact hQuiet (Or.inr (Or.inr hSvc))

/- Steps that put no packet on its way and keep the file. -/
theorem quiet_of_eq
    {s t : Session}
    (hQuiet : s.Quiet)
    (hWay : t.OnItsWay → s.OnItsWay)
    (hFile : t.rcv.sFpEvt = s.rcv.sFpEvt) :
    t.Quiet := by
  intro hNew
  have hOpen := hQuiet (hWay hNew)
  unfold FileOpen at hOpen ⊢
  rw [hFile]
  exact hOpen

/- The step lemma. -/
theorem quiet_step
    {s t : Session}
    {l : SessionStep}
    (hQuiet : s.Quiet)
    (hTimely : s.Timely l)
    (hStep : s.step l = some t) :
    t.Quiet := by
  cases l with
  | sendStart =>
      simp only [step] at hStep
      split at hStep
      · cases hStep
        exact quiet_of_eq hQuiet id rfl
      · cases hStep
  | openFile =>
      simp only [step] at hStep
      split at hStep
      · cases hStep
        intro _
        exact CEvtRcv.sFpEvt_makeEventFile_ne_none s.rcv
      · cases hStep
  | sendStop =>
      simp only [step] at hStep
      split at hStep
      · cases hStep
        exact quiet_of_eq hQuiet id rfl
      · cases hStep
  | closeFile =>
      simp only [step] at hStep
      split at hStep
      · rcases Option.map_eq_some_iff.mp hStep with
          ⟨rcv, hClose, hStep⟩
        subst hStep
        intro hWay
        exact absurd hWay hTimely
      · cases hStep
  | sendTerminate =>
      simp only [step] at hStep
      split at hStep
      · cases hStep
        exact quiet_of_eq hQuiet id rfl
      · cases hStep
  | recvPacket =>
      simp only [step] at hStep
      split at hStep
      · cases hStep
      · next message rest hMessages =>
        cases hStep
        apply quiet_of_eq hQuiet
        · simp [OnItsWay]
        · simp
  | checkMode =>
      simp only [step] at hStep
      split at hStep
      · cases hStep
        exact quiet_of_eq hQuiet id rfl
      · cases hStep
  | finishIteration packet =>
      simp only [step] at hStep
      split at hStep
      · cases hStep
        cases packet with
        | none =>
            refine quiet_of_eq hQuiet ?_ rfl
            simp [OnItsWay]
        | some packet =>
            intro _
            exact hTimely (by simp)
      · cases hStep
  | sendPacket =>
      simp only [step] at hStep
      split at hStep
      · cases hStep
      · next packet rest hQueue =>
        cases hStep
        refine quiet_of_eq hQuiet ?_ rfl
        intro _
        exact Or.inl (by simp [hQueue])
  | svcReceive =>
      simp only [step] at hStep
      split at hStep
      · next packet rest hSvc hPackets =>
        cases hStep
        refine quiet_of_eq hQuiet ?_ rfl
        intro _
        exact Or.inr (Or.inl (by simp [hPackets]))
      · cases hStep
  | svcHandle =>
      simp only [step] at hStep
      split at hStep
      · cases hStep
      · next packet hSvc =>
        rcases Option.map_eq_some_iff.mp hStep with
          ⟨rcv, hWrite, hStep⟩
        subst hStep
        intro _
        exact CEvtRcv.sFpEvt_ne_none_of_writeEventFile hWrite

end Session

end FzEvent

------------------------------------------------------------
-- Untimely Steps
------------------------------------------------------------

namespace FzEvent

namespace Session

/- `svc` gets past the assertion exactly with the file open. -/
theorem isSome_svcHandle_iff
    {s : Session}
    {packet : EventPacket}
    (hSvc : s.svc = some packet) :
    (s.step .svcHandle).isSome ↔ s.FileOpen := by
  simp only [step, hSvc, Option.isSome_map]
  unfold CEvtRcv.writeEventFile FileOpen
  rw [CEvtRcv.sFpEvt_reportEvent]
  cases s.rcv.sFpEvt with
  | none => simp
  | some file => simp

/- An untimely step leaves a packet before a closed file. -/
theorem onItsWay_of_not_timely
    {s t : Session}
    {l : SessionStep}
    (hStep : s.step l = some t)
    (hNot : ¬ s.Timely l) :
    t.OnItsWay ∧ ¬ t.FileOpen := by
  cases l with
  | finishIteration packet =>
      simp only [step] at hStep
      split at hStep
      · cases hStep
        simp only [Timely, not_forall] at hNot
        rcases hNot with ⟨hPacket, hClosed⟩
        refine ⟨Or.inl ?_, hClosed⟩
        cases packet with
        | none => exact absurd rfl hPacket
        | some packet => simp
      · cases hStep
  | closeFile =>
      simp only [step] at hStep
      split at hStep
      · rcases Option.map_eq_some_iff.mp hStep with
          ⟨rcv, hClose, hStep⟩
        subst hStep
        refine ⟨not_not.mp hNot, ?_⟩
        unfold FileOpen
        rw [CEvtRcv.sFpEvt_of_closeEventFile hClose]
        simp
      · cases hStep
  | sendStart => exact absurd trivial hNot
  | openFile => exact absurd trivial hNot
  | sendStop => exact absurd trivial hNot
  | sendTerminate => exact absurd trivial hNot
  | recvPacket => exact absurd trivial hNot
  | checkMode => exact absurd trivial hNot
  | sendPacket => exact absurd trivial hNot
  | svcReceive => exact absurd trivial hNot
  | svcHandle => exact absurd trivial hNot

/-
  A packet before a closed file reaches `svc` when only the
  connection and `svc` take steps.
-/
theorem exists_not_openWhileHandling
    {s : Session}
    (hWay : s.OnItsWay)
    (hClosed : ¬ s.FileOpen) :
    ∃ tail t,
      (∀ l ∈ tail,
        l = SessionStep.sendPacket ∨ l = .svcReceive) ∧
      recordingSession.exec s tail = some t ∧
      ¬ t.OpenWhileHandling := by
  cases hSvc : s.svc with
  | some packet =>
      refine ⟨[], s, by simp, rfl, ?_⟩
      intro hOpen
      exact hClosed (hOpen (by simp [hSvc]))
  | none =>
      cases hPackets : s.toReceiver with
      | cons packet rest =>
          refine ⟨[.svcReceive],
            { s with toReceiver := rest, svc := some packet },
            by simp, ?_, ?_⟩
          · simp [recordingSession, Transition.System.exec,
              step, hSvc, hPackets]
          · intro hOpen
            exact hClosed (hOpen (by simp))
      | nil =>
          cases hQueue : s.sendQueue with
          | cons packet rest =>
              refine ⟨[.sendPacket, .svcReceive],
                { s with
                  sendQueue := rest
                  toReceiver := []
                  svc := some packet },
                by simp, ?_, ?_⟩
              · simp [recordingSession, Transition.System.exec,
                  step, hSvc, hPackets, hQueue]
              · intro hOpen
                exact hClosed (hOpen (by simp))
          | nil =>
              exact absurd hWay
                (by simp [OnItsWay, hSvc, hPackets, hQueue])

/-
  The condition leaves out only steps that go wrong: after an
  untimely step the assertion fails once the packets that are
  on their way arrive.
-/
theorem exists_not_openWhileHandling_of_not_timely
    {s t : Session}
    {l : SessionStep}
    (hStep : recordingSession.step s l = some t)
    (hNot : ¬ s.Timely l) :
    ∃ tail u,
      (∀ l ∈ tail,
        l = SessionStep.sendPacket ∨ l = .svcReceive) ∧
      recordingSession.exec s (l :: tail) = some u ∧
      ¬ u.OpenWhileHandling := by
  rcases onItsWay_of_not_timely hStep hNot with ⟨hWay, hClosed⟩
  rcases exists_not_openWhileHandling hWay hClosed with
    ⟨tail, u, hTail, hRun, hBad⟩
  refine ⟨tail, u, hTail, ?_, hBad⟩
  exact (recordingSession.exec_cons_eq_some_iff).mpr
    ⟨t, hStep, hRun⟩

end Session

end FzEvent

------------------------------------------------------------
-- Whole Sessions
------------------------------------------------------------

namespace FzEvent

open Transition

/-
  In a session whose steps all meet the condition, the event
  file is open whenever `svc` handles an event packet.
-/
theorem openWhileHandling_of_timely
    (steps : List SessionStep)
    (hTimely :
      recordingSession.Meets Session.Timely
        recordingSession.init steps) :
    recordingSession.Always Session.OpenWhileHandling
      recordingSession.init steps := by
  intro before after s hSplit hRun
  rw [hSplit, System.meets_append_iff] at hTimely
  apply Session.openWhileHandling_of_quiet
  exact recordingSession.invariant_of_meets Session.Quiet
    (fun _ _ _ hInv hCond hStep =>
      Session.quiet_step hInv hCond hStep)
    Session.quiet_init hTimely.1 hRun

/- A tap, as the receiver decodes it. -/
def tapPacket : EventPacket :=
  ⟨⟨1, 0⟩, ⟨evAbs, 2,
    [⟨⟨1, 0⟩, 7, absMtTrackingId, 7⟩,
      ⟨⟨1, 5⟩, 7, absMtTrackingId, 0xffffffff⟩,
      ⟨⟨1, 5⟩, -1, synReport, 0⟩]⟩⟩

/- The stop message waits until the tap has been written. -/
def patientSession : List SessionStep :=
  [.sendStart, .openFile, .recvPacket, .checkMode,
    .finishIteration (some tapPacket), .sendPacket,
    .svcReceive, .svcHandle, .sendStop, .recvPacket,
    .closeFile]

theorem openWhileHandling_of_timely_patientSession :
    recordingSession.Always Session.OpenWhileHandling
      recordingSession.init patientSession :=
  openWhileHandling_of_timely patientSession (by decide)

/- The operator stops while the tap is still on its way. -/
def hastySession : List SessionStep :=
  [.sendStart, .openFile, .recvPacket, .checkMode,
    .finishIteration (some tapPacket), .sendStop, .closeFile,
    .sendPacket, .svcReceive]

theorem not_always_openWhileHandling :
    ¬ ∀ steps,
      recordingSession.Always Session.OpenWhileHandling
        recordingSession.init steps := by
  intro hAll
  have hReached :
      ∃ s,
        recordingSession.exec recordingSession.init
            hastySession = some s ∧
          ¬ s.OpenWhileHandling := by
    exact ⟨_, rfl, by decide⟩
  rcases hReached with ⟨s, hRun, hBad⟩
  exact hBad (hAll hastySession hastySession [] s
    (List.append_nil _).symm hRun)

end FzEvent

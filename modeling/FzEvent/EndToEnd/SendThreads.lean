import FzEvent.Capture.ScreenCapture
import FzEvent.EndToEnd.RemotePlay

/-
  The threads of the device side around the send queue: the
  capture, event, sending and receiving threads, and the one
  that each `CAPTURE_IMMEDIATELY` message starts.

  The capture and the event thread test the size of the queue
  well before they push. Between the two every other thread
  may take any number of steps.

  Main declarations:
    * `FzEvent.SendQueue`
    * `FzEvent.SendThreads` and `FzEvent.sendThreads`
    * `SendThreads.total` and `SendThreads.Bounded`
    * `FzEvent.size_le_of_reachable`
-/

------------------------------------------------------------
-- The Queue and the Mode Bits
------------------------------------------------------------

namespace FzEvent

/-
  The send queue: how many nodes are linked, and the counter
  that `size` returns.
-/
structure SendQueue where
  nodes : Nat
  count : UInt32
  count_eq : count = UInt32.ofNat nodes
deriving DecidableEq

namespace SendQueue

def empty : SendQueue where
  nodes := 0
  count := 0
  count_eq := rfl

def push (q : SendQueue) : SendQueue where
  nodes := q.nodes + 1
  count := q.count + 1
  count_eq := by
    rw [q.count_eq, UInt32.ofNat_add]
    rfl

/- `pop`; a null pointer is returned from an empty queue. -/
def pop (q : SendQueue) : Option SendQueue :=
  match hNodes : q.nodes with
  | 0 => none
  | nodes + 1 =>
      some {
        nodes := nodes
        count := q.count - 1
        count_eq := by
          rw [q.count_eq, hNodes, Nat.succ_eq_add_one,
            UInt32.ofNat_add]
          exact UInt32.add_sub_cancel _ _ }

def size (q : SendQueue) : UInt32 :=
  q.count

@[simp] theorem nodes_push
    (q : SendQueue) :
    q.push.nodes = q.nodes + 1 := rfl

theorem nodes_pop
    {q q' : SendQueue}
    (hPop : q.pop = some q') :
    q.nodes = q'.nodes + 1 := by
  unfold pop at hPop
  split at hPop
  · cases hPop
  · next nodes hNodes =>
    cases hPop
    exact hNodes

/- The counter is right as long as it does not wrap. -/
theorem size_toNat
    (q : SendQueue)
    (hLt : q.nodes < 2 ^ 32) :
    q.size.toNat = q.nodes := by
  rw [size, q.count_eq, UInt32.toNat_ofNat_of_lt' hLt]

end SendQueue

/- `send_queue_size_max` -/
def sendQueueSizeMax : Nat := 50

/- `check_send_queue_max` -/
def SendQueue.checkSendQueueMax (q : SendQueue) : Bool :=
  sendQueueSizeMax ≤ q.size.toNat

end FzEvent

------------------------------------------------------------
-- The Threads
------------------------------------------------------------

namespace FzEvent

open Transition

namespace SendThreads

/- What `get_surface` does next. -/
inductive SurfacePhase
| running
| mode
| size
| getBuffer
| push
| ended
deriving DecidableEq, Repr

/- What `get_event` does next. -/
inductive EventPhase
| running
| mode
| size
| shutdown
| getEvent
| push
| ended
deriving DecidableEq, Repr

/- What `send_packet` does next. -/
inductive SendPhase
| running
| pop
| send
| shutdown
| ended
deriving DecidableEq, Repr

/- What `recv_packet` does next. -/
inductive RecvPhase
| running
| recv
| ended
deriving DecidableEq, Repr

/- What a `get_surface_immediately` does next. -/
inductive ImmediatelyPhase
| mode
| getBuffer
| push
| ended
deriving DecidableEq, Repr

end SendThreads

/-
  What the threads share, where each of them stands, and the
  number of packets that `get_surface_immediately` has pushed.
-/
structure SendThreads where
  running : Bool
  runningMode : UInt32
  queue : SendQueue
  getSurface : SendThreads.SurfacePhase
  getEvent : SendThreads.EventPhase
  sendPacket : SendThreads.SendPhase
  recvPacket : SendThreads.RecvPhase
  getSurfaceImmediately : List SendThreads.ImmediatelyPhase
  immediatelyPushed : Nat
deriving DecidableEq

namespace SendThreads

def init : SendThreads where
  running := true
  runningMode := 0
  queue := .empty
  getSurface := .running
  getEvent := .running
  sendPacket := .running
  recvPacket := .running
  getSurfaceImmediately := []
  immediatelyPushed := 0

/- `get_running_mode` -/
def getRunningMode
    (s : SendThreads)
    (mask : UInt32) : Bool :=
  s.runningMode &&& mask ≠ 0

/-
  The next step of `get_surface`. A round fails when there is
  no buffer or no packet.
-/
def surfaceStep
    (s : SendThreads)
    (fails : Bool) : Option SendThreads :=
  match s.getSurface with
  | .running =>
      some { s with
        getSurface := if s.running then .mode else .ended }
  | .mode =>
      some { s with
        getSurface :=
          if s.getRunningMode runningScreenCapture then .size
          else .running }
  | .size =>
      some { s with
        getSurface :=
          if captureSkipQueueSize < s.queue.size.toNat then
            .running
          else
            .getBuffer }
  | .getBuffer =>
      some { s with
        getSurface := if fails then .running else .push }
  | .push =>
      some { s with
        queue := s.queue.push
        getSurface := .running }
  | .ended => none

/-
  The next step of `get_event`. A full queue ends the program
  but not the round; `found` tells whether the event getter
  has an event to send.
-/
def eventStep
    (s : SendThreads)
    (found : Bool) : Option SendThreads :=
  match s.getEvent with
  | .running =>
      some { s with
        getEvent := if s.running then .mode else .ended }
  | .mode =>
      some { s with
        getEvent :=
          if s.getRunningMode runningEventRecord then .size
          else .running }
  | .size =>
      some { s with
        getEvent :=
          if s.queue.checkSendQueueMax then .shutdown
          else .getEvent }
  | .shutdown =>
      some { s with running := false, getEvent := .getEvent }
  | .getEvent =>
      some { s with
        getEvent := if found then .push else .running }
  | .push =>
      some { s with
        queue := s.queue.push
        getEvent := .running }
  | .ended => none

/- The next step of `send_packet`. -/
def sendStep
    (s : SendThreads)
    (fails : Bool) : Option SendThreads :=
  match s.sendPacket with
  | .running =>
      some { s with
        sendPacket := if s.running then .pop else .ended }
  | .pop =>
      match s.queue.pop with
      | none => some { s with sendPacket := .running }
      | some queue =>
          some { s with queue := queue, sendPacket := .send }
  | .send =>
      some { s with
        sendPacket := if fails then .shutdown else .running }
  | .shutdown =>
      some { s with
        running := false
        sendPacket := .running }
  | .ended => none

/- What the receiving thread does on a message. -/
def handle
    (s : SendThreads) : ControlMessage → SendThreads
| .captureStart =>
    { s with
      runningMode := s.runningMode ||| runningScreenCapture }
| .captureStop =>
    { s with
      runningMode :=
        s.runningMode &&& ~~~runningScreenCapture }
| .captureImmediately =>
    { s with
      getSurfaceImmediately :=
        s.getSurfaceImmediately ++ [.mode] }
| .eventRecordStart =>
    { s with
      runningMode := s.runningMode ||| runningEventRecord }
| .eventRecordStop =>
    { s with
      runningMode := s.runningMode &&& ~~~runningEventRecord }
| .eventPlayStart =>
    { s with
      runningMode := s.runningMode ||| runningEventPlay }
| .eventPlayStep => s
| .eventPlayStop =>
    { s with
      runningMode := s.runningMode &&& ~~~runningEventPlay }
| .terminate => { s with running := false }
| .unknown => s

/-
  The next step of `recv_packet`; `none` is a failed call. A
  message that is never complete, or an event file that is
  never loaded, is a step that is not taken.
-/
def recvStep
    (s : SendThreads)
    (recvBuffer : Option UInt32) : Option SendThreads :=
  match s.recvPacket with
  | .running =>
      some { s with
        recvPacket := if s.running then .recv else .ended }
  | .recv =>
      match recvBuffer with
      | none => some { s with recvPacket := .running }
      | some word =>
          some { s.handle (controlMessage word) with
            recvPacket := .running }
  | .ended => none

/- The next step of the i-th `get_surface_immediately`. -/
def immediatelyStep
    (s : SendThreads)
    (i : Nat) : Option SendThreads :=
  let move (next : ImmediatelyPhase) :=
    { s with
      getSurfaceImmediately :=
        s.getSurfaceImmediately.set i next }
  match s.getSurfaceImmediately[i]? with
  | some .mode =>
      some (move
        (if s.getRunningMode runningScreenCapture then .ended
          else .getBuffer))
  | some .getBuffer => some (move .push)
  | some .push =>
      some { move .ended with
        queue := s.queue.push
        immediatelyPushed := s.immediatelyPushed + 1 }
  | _ => none

/- A round of `destroy` in `main`, behind all `join` calls. -/
def destroyStep (s : SendThreads) : Option SendThreads :=
  if s.getSurface = .ended ∧ s.getEvent = .ended ∧
      s.sendPacket = .ended ∧ s.recvPacket = .ended then
    s.queue.pop.map fun queue => { s with queue := queue }
  else
    none

/- The steps, with what the calls outside return. -/
inductive Label
| surface (fails : Bool)
| event (found : Bool)
| send (fails : Bool)
| recv (recvBuffer : Option UInt32)
| immediately (i : Nat)
| destroy
deriving DecidableEq, Repr

def step
    (s : SendThreads) : Label → Option SendThreads
| .surface fails => s.surfaceStep fails
| .event found => s.eventStep found
| .send fails => s.sendStep fails
| .recv recvBuffer => s.recvStep recvBuffer
| .immediately i => s.immediatelyStep i
| .destroy => s.destroyStep

end SendThreads

/- The threads from the time they are created. -/
def sendThreads : System SendThreads SendThreads.Label where
  init := SendThreads.init
  step := SendThreads.step

end FzEvent

------------------------------------------------------------
-- The Bound
------------------------------------------------------------

namespace FzEvent

open Transition

namespace SendThreads

/- The capture thread has a permission that it may spend. -/
def SurfacePhase.pending : SurfacePhase → Nat
| .getBuffer => 1
| .push => 1
| _ => 0

/- The event thread may push before it tests again. -/
def EventPhase.pending : EventPhase → Nat
| .shutdown => 1
| .getEvent => 1
| .push => 1
| _ => 0

/- The packets that are queued or allowed to be. -/
def total (s : SendThreads) : Nat :=
  s.queue.nodes + s.getSurface.pending + s.getEvent.pending

/-
  The event thread can still come to its test of the size,
  or is at it.
-/
def MayTest (s : SendThreads) : Prop :=
  s.getEvent = .mode ∨ s.getEvent = .size ∨
    s.running = true ∧ s.getEvent ≠ .shutdown

/-
  The invariant: the last permission of all is given by the
  event thread, when it ends the program.
-/
structure Bounded (s : SendThreads) : Prop where
  total_le : s.total ≤ 52 + s.immediatelyPushed
  mayTest_le :
    s.MayTest → s.total ≤ 51 + s.immediatelyPushed

/- So many packets that the counter may have wrapped. -/
def MayWrap (s : SendThreads) : Prop :=
  2 ^ 32 ≤ 52 + s.immediatelyPushed

theorem bounded_init : init.Bounded :=
  ⟨by decide, fun _ => by decide⟩

variable {s t : SendThreads}

/-
  A step of a thread other than the event thread that pushes
  only what it is allowed to and does not start the program
  again.
-/
structure StaysWithin (s t : SendThreads) : Prop where
  getEvent_eq : t.getEvent = s.getEvent
  running_imp : t.running = true → s.running = true
  total_le :
    t.total + s.immediatelyPushed ≤
      s.total + t.immediatelyPushed
  pushed_le : s.immediatelyPushed ≤ t.immediatelyPushed

theorem Bounded.of_staysWithin
    (hInv : s.Bounded)
    (hStep : s.StaysWithin t) :
    t.Bounded := by
  have hTotal := hStep.total_le
  constructor
  · have hLe := hInv.total_le
    omega
  · intro hMay
    have hMayBefore : s.MayTest := by
      rw [MayTest, hStep.getEvent_eq] at hMay
      rcases hMay with hMode | hSize | ⟨hRun, hPhase⟩
      · exact Or.inl hMode
      · exact Or.inr (Or.inl hSize)
      · exact Or.inr
          (Or.inr ⟨hStep.running_imp hRun, hPhase⟩)
    have hLe := hInv.mayTest_le hMayBefore
    omega

/- The counter is right while it cannot have wrapped. -/
theorem Bounded.size_toNat
    (hInv : s.Bounded)
    (hSmall : ¬ s.MayWrap) :
    s.queue.size.toNat = s.queue.nodes := by
  apply SendQueue.size_toNat
  have hLe := hInv.total_le
  rw [total] at hLe
  rw [MayWrap] at hSmall
  omega

theorem SurfacePhase.pending_le
    (phase : SurfacePhase) :
    phase.pending ≤ 1 := by
  cases phase <;> decide

theorem EventPhase.pending_le
    (phase : EventPhase) :
    phase.pending ≤ 1 := by
  cases phase <;> decide

/- Much less than the bound is enough. -/
theorem Bounded.of_total_le
    (hTotal : t.total ≤ 51) :
    t.Bounded :=
  ⟨by omega, fun _ => by omega⟩

end SendThreads

end FzEvent

------------------------------------------------------------
-- What the Steps Keep
------------------------------------------------------------

namespace FzEvent

open Transition

namespace SendThreads

variable {s t : SendThreads}

/- A step that changes neither the queue nor `running`. -/
theorem staysWithin_of_eq
    (hEvent : t.getEvent = s.getEvent)
    (hRunning : t.running = s.running)
    (hTotal : t.total ≤ s.total)
    (hPushed : t.immediatelyPushed = s.immediatelyPushed) :
    s.StaysWithin t := by
  refine ⟨hEvent, ?_, by omega, by omega⟩
  rw [hRunning]
  exact id

/-
  The capture thread pushes only with a permission, and gets
  one only from a queue that is almost empty.
-/
theorem surfaceStep_spec
    {fails : Bool}
    (hStep : s.surfaceStep fails = some t) :
    s.StaysWithin t ∨
      s.queue.size.toNat ≤ captureSkipQueueSize ∧
        t.queue = s.queue ∧
        t.immediatelyPushed = s.immediatelyPushed := by
  unfold surfaceStep at hStep
  cases hPhase : s.getSurface with
  | running =>
      rw [hPhase] at hStep
      cases hStep
      refine Or.inl (staysWithin_of_eq rfl rfl ?_ rfl)
      cases hRunning : s.running <;>
        simp [total, hPhase, SurfacePhase.pending]
  | mode =>
      rw [hPhase] at hStep
      cases hStep
      refine Or.inl (staysWithin_of_eq rfl rfl ?_ rfl)
      cases hMode : s.getRunningMode runningScreenCapture <;>
        simp [total, hPhase, SurfacePhase.pending]
  | size =>
      rw [hPhase] at hStep
      cases hStep
      by_cases hSkip :
          captureSkipQueueSize < s.queue.size.toNat
      · refine Or.inl (staysWithin_of_eq rfl rfl ?_ rfl)
        simp [total, hPhase, hSkip, SurfacePhase.pending]
      · exact Or.inr ⟨Nat.not_lt.mp hSkip, rfl, rfl⟩
  | getBuffer =>
      rw [hPhase] at hStep
      cases hStep
      refine Or.inl (staysWithin_of_eq rfl rfl ?_ rfl)
      cases fails <;>
        simp [total, hPhase, SurfacePhase.pending]
  | push =>
      rw [hPhase] at hStep
      cases hStep
      refine Or.inl (staysWithin_of_eq rfl rfl ?_ rfl)
      simp [total, hPhase, SurfacePhase.pending]
  | ended =>
      rw [hPhase] at hStep
      cases hStep

theorem bounded_surfaceStep
    {fails : Bool}
    (hInv : s.Bounded)
    (hSmall : ¬ s.MayWrap)
    (hStep : s.surfaceStep fails = some t) :
    t.Bounded := by
  rcases surfaceStep_spec hStep with
    hWithin | ⟨hSize, hQueue, _⟩
  · exact hInv.of_staysWithin hWithin
  · rw [hInv.size_toNat hSmall, captureSkipQueueSize] at hSize
    have hSurface := t.getSurface.pending_le
    have hOther := t.getEvent.pending_le
    apply Bounded.of_total_le
    rw [total, hQueue]
    omega

/- The event thread looks whether the program runs. -/
theorem Bounded.eventRunning
    (hInv : s.Bounded)
    (hPhase : s.getEvent = .running) :
    Bounded { s with
      getEvent := if s.running then .mode else .ended } := by
  have hTotal := hInv.total_le
  rw [total, hPhase] at hTotal
  cases hRunning : s.running with
  | false => exact ⟨hTotal, by simp [MayTest]⟩
  | true =>
      have hMay : s.MayTest := by
        simp [MayTest, hPhase, hRunning]
      have hLe := hInv.mayTest_le hMay
      rw [total, hPhase] at hLe
      exact ⟨hTotal, fun _ => hLe⟩

theorem Bounded.eventMode
    (hInv : s.Bounded)
    (hPhase : s.getEvent = .mode) :
    Bounded { s with
      getEvent :=
        if s.getRunningMode runningEventRecord then .size
        else .running } := by
  have hTotal := hInv.total_le
  have hLe := hInv.mayTest_le (Or.inl hPhase)
  rw [total, hPhase] at hTotal hLe
  cases s.getRunningMode runningEventRecord with
  | false => exact ⟨hTotal, fun _ => hLe⟩
  | true => exact ⟨hTotal, fun _ => hLe⟩

/-
  The event thread lets itself push below the limit. At the
  limit it does so for the last time.
-/
theorem Bounded.eventSize
    (hInv : s.Bounded)
    (hSmall : ¬ s.MayWrap)
    (hPhase : s.getEvent = .size) :
    Bounded { s with
      getEvent :=
        if s.queue.checkSendQueueMax then .shutdown
        else .getEvent } := by
  have hLe := hInv.mayTest_le (Or.inr (Or.inl hPhase))
  have hSurface := s.getSurface.pending_le
  simp only [total, hPhase, EventPhase.pending] at hLe
  cases hMax : s.queue.checkSendQueueMax with
  | true =>
      constructor
      · simp only [total, EventPhase.pending, if_true]
        omega
      · simp [MayTest]
  | false =>
      rw [SendQueue.checkSendQueueMax,
        hInv.size_toNat hSmall, sendQueueSizeMax,
        decide_eq_false_iff_not] at hMax
      apply Bounded.of_total_le
      simp only [total, EventPhase.pending,
        Bool.false_eq_true, if_false]
      omega

theorem Bounded.eventShutdown
    (hInv : s.Bounded)
    (hPhase : s.getEvent = .shutdown) :
    Bounded { s with
      running := false
      getEvent := .getEvent } := by
  have hTotal := hInv.total_le
  rw [total, hPhase] at hTotal
  exact ⟨hTotal, by simp [MayTest]⟩

/- The event thread has nothing to send. -/
theorem Bounded.eventNone
    (hInv : s.Bounded)
    (hPhase : s.getEvent = .getEvent) :
    Bounded { s with getEvent := .running } := by
  have hTotal := hInv.total_le
  simp only [total, hPhase, EventPhase.pending] at hTotal
  constructor
  · simp only [total, EventPhase.pending]
    omega
  · intro _
    simp only [total, EventPhase.pending]
    omega

theorem Bounded.eventFound
    (hInv : s.Bounded)
    (hPhase : s.getEvent = .getEvent) :
    Bounded { s with getEvent := .push } := by
  have hTotal := hInv.total_le
  rw [total, hPhase] at hTotal
  refine ⟨hTotal, ?_⟩
  intro hMay
  have hMayBefore : s.MayTest := by
    simpa [MayTest, hPhase] using hMay
  have hLe := hInv.mayTest_le hMayBefore
  rw [total, hPhase] at hLe
  exact hLe

/- The permission turns into a packet. -/
theorem Bounded.eventPush
    (hInv : s.Bounded)
    (hPhase : s.getEvent = .push) :
    Bounded { s with
      queue := s.queue.push
      getEvent := .running } := by
  have hTotal := hInv.total_le
  simp only [total, hPhase, EventPhase.pending] at hTotal
  constructor
  · simp only [total, EventPhase.pending, SendQueue.nodes_push]
    omega
  · intro hMay
    have hMayBefore : s.MayTest := by
      simpa [MayTest, hPhase] using hMay
    have hLe := hInv.mayTest_le hMayBefore
    simp only [total, hPhase, EventPhase.pending] at hLe
    simp only [total, EventPhase.pending, SendQueue.nodes_push]
    omega

theorem bounded_eventStep
    {found : Bool}
    (hInv : s.Bounded)
    (hSmall : ¬ s.MayWrap)
    (hStep : s.eventStep found = some t) :
    t.Bounded := by
  unfold eventStep at hStep
  cases hPhase : s.getEvent with
  | running =>
      rw [hPhase] at hStep
      cases hStep
      exact hInv.eventRunning hPhase
  | mode =>
      rw [hPhase] at hStep
      cases hStep
      exact hInv.eventMode hPhase
  | size =>
      rw [hPhase] at hStep
      cases hStep
      exact hInv.eventSize hSmall hPhase
  | shutdown =>
      rw [hPhase] at hStep
      cases hStep
      exact hInv.eventShutdown hPhase
  | getEvent =>
      rw [hPhase] at hStep
      cases hStep
      cases found with
      | false => exact hInv.eventNone hPhase
      | true => exact hInv.eventFound hPhase
  | push =>
      rw [hPhase] at hStep
      cases hStep
      exact hInv.eventPush hPhase
  | ended =>
      rw [hPhase] at hStep
      cases hStep

theorem sendStep_spec
    {fails : Bool}
    (hStep : s.sendStep fails = some t) :
    s.StaysWithin t := by
  unfold sendStep at hStep
  cases hPhase : s.sendPacket with
  | running =>
      rw [hPhase] at hStep
      cases hStep
      exact staysWithin_of_eq rfl rfl (Nat.le_refl _) rfl
  | pop =>
      rw [hPhase] at hStep
      cases hPop : s.queue.pop with
      | none =>
          simp only [hPop] at hStep
          cases hStep
          exact staysWithin_of_eq rfl rfl (Nat.le_refl _) rfl
      | some queue =>
          simp only [hPop] at hStep
          cases hStep
          have hNodes := SendQueue.nodes_pop hPop
          refine staysWithin_of_eq rfl rfl ?_ rfl
          simp only [total]
          omega
  | send =>
      rw [hPhase] at hStep
      cases hStep
      exact staysWithin_of_eq rfl rfl (Nat.le_refl _) rfl
  | shutdown =>
      rw [hPhase] at hStep
      cases hStep
      refine ⟨rfl, ?_, Nat.le_refl _, Nat.le_refl _⟩
      intro hRun
      cases hRun
  | ended =>
      rw [hPhase] at hStep
      cases hStep

/- No message touches the queue or starts the program. -/
theorem handle_spec
    (s : SendThreads)
    (message : ControlMessage) :
    s.StaysWithin (s.handle message) := by
  cases message <;> constructor <;> simp [handle, total]

theorem recvStep_spec
    {recvBuffer : Option UInt32}
    (hStep : s.recvStep recvBuffer = some t) :
    s.StaysWithin t := by
  unfold recvStep at hStep
  cases hPhase : s.recvPacket with
  | running =>
      rw [hPhase] at hStep
      cases hStep
      exact staysWithin_of_eq rfl rfl (Nat.le_refl _) rfl
  | recv =>
      rw [hPhase] at hStep
      cases recvBuffer with
      | none =>
          cases hStep
          exact staysWithin_of_eq rfl rfl (Nat.le_refl _) rfl
      | some word =>
          cases hStep
          have hWithin := s.handle_spec (controlMessage word)
          exact ⟨hWithin.getEvent_eq, hWithin.running_imp,
            hWithin.total_le, hWithin.pushed_le⟩
  | ended =>
      rw [hPhase] at hStep
      cases hStep

theorem immediatelyStep_spec
    {i : Nat}
    (hStep : s.immediatelyStep i = some t) :
    s.StaysWithin t := by
  unfold immediatelyStep at hStep
  cases hPhase : s.getSurfaceImmediately[i]? with
  | none =>
      rw [hPhase] at hStep
      cases hStep
  | some phase =>
      rw [hPhase] at hStep
      cases phase with
      | mode =>
          cases hStep
          exact staysWithin_of_eq rfl rfl (Nat.le_refl _) rfl
      | getBuffer =>
          cases hStep
          exact staysWithin_of_eq rfl rfl (Nat.le_refl _) rfl
      | push =>
          cases hStep
          refine ⟨rfl, id, ?_, Nat.le_succ _⟩
          simp only [total, SendQueue.nodes_push]
          omega
      | ended => cases hStep

theorem destroyStep_spec
    (hStep : s.destroyStep = some t) :
    s.StaysWithin t := by
  rw [destroyStep] at hStep
  split at hStep
  · rw [Option.map_eq_some_iff] at hStep
    rcases hStep with ⟨queue, hPop, rfl⟩
    have hNodes := SendQueue.nodes_pop hPop
    refine staysWithin_of_eq rfl rfl ?_ rfl
    simp only [total]
    omega
  · cases hStep

theorem bounded_step
    {l : Label}
    (hInv : s.Bounded)
    (hSmall : ¬ s.MayWrap)
    (hStep : s.step l = some t) :
    t.Bounded := by
  cases l with
  | surface fails =>
      exact bounded_surfaceStep hInv hSmall hStep
  | event found => exact bounded_eventStep hInv hSmall hStep
  | send fails =>
      exact hInv.of_staysWithin (sendStep_spec hStep)
  | recv recvBuffer =>
      exact hInv.of_staysWithin (recvStep_spec hStep)
  | immediately i =>
      exact hInv.of_staysWithin (immediatelyStep_spec hStep)
  | destroy =>
      exact hInv.of_staysWithin (destroyStep_spec hStep)

theorem immediatelyPushed_eventStep
    {found : Bool}
    (hStep : s.eventStep found = some t) :
    t.immediatelyPushed = s.immediatelyPushed := by
  unfold eventStep at hStep
  split at hStep <;> cases hStep <;> rfl

/- The packets of immediate captures are counted for ever. -/
theorem mayWrap_step
    {l : Label}
    (hWrap : s.MayWrap)
    (hStep : s.step l = some t) :
    t.MayWrap := by
  have hPushed :
      s.immediatelyPushed ≤ t.immediatelyPushed := by
    cases l with
    | surface fails =>
        rcases surfaceStep_spec hStep with
          hWithin | ⟨_, _, hPushed⟩
        · exact hWithin.pushed_le
        · exact hPushed.ge
    | event found =>
        exact (immediatelyPushed_eventStep hStep).ge
    | send fails => exact (sendStep_spec hStep).pushed_le
    | recv recvBuffer => exact (recvStep_spec hStep).pushed_le
    | immediately i =>
        exact (immediatelyStep_spec hStep).pushed_le
    | destroy => exact (destroyStep_spec hStep).pushed_le
  rw [MayWrap] at hWrap ⊢
  omega

/- What holds in every reachable state. -/
theorem mayWrap_or_bounded
    (hReach : sendThreads.Reachable s) :
    s.MayWrap ∨ s.Bounded := by
  have hInit : init.MayWrap ∨ init.Bounded :=
    Or.inr bounded_init
  have hStep :
      ∀ (s : SendThreads) (l : Label) (t : SendThreads),
        s.MayWrap ∨ s.Bounded → s.step l = some t →
          t.MayWrap ∨ t.Bounded := by
    intro s l t hInv hNext
    by_cases hWrap : s.MayWrap
    · exact Or.inl (mayWrap_step hWrap hNext)
    · rcases hInv with hWrap' | hBounded
      · exact absurd hWrap' hWrap
      · exact Or.inr (bounded_step hBounded hWrap hNext)
  exact sendThreads.invariant_of_reachable hInit hStep hReach

end SendThreads

/-
  In every interleaving the size of the send queue is at most
  52, not counting the packets of immediate captures.
-/
theorem size_le_of_reachable
    {s : SendThreads}
    (hReach : sendThreads.Reachable s) :
    s.queue.size.toNat ≤ 52 + s.immediatelyPushed := by
  rcases SendThreads.mayWrap_or_bounded hReach with
    hWrap | hBounded
  · have hLt := s.queue.size.toNat_lt
    rw [SendThreads.MayWrap] at hWrap
    omega
  · by_cases hWrap : s.MayWrap
    · have hLt := s.queue.size.toNat_lt
      rw [SendThreads.MayWrap] at hWrap
      omega
    · have hLe := hBounded.total_le
      rw [hBounded.size_toNat hWrap]
      rw [SendThreads.total] at hLe
      omega

/-
  A run up to the bound: the capture thread keeps the
  permission it got from an empty queue, and the event thread
  fills the queue and pushes once more behind its limit.
-/
def fillQueue : List SendThreads.Label :=
  [.recv none, .recv (some controlMessageCaptureStart),
      .recv none, .recv (some controlMessageEventRecordStart)] ++
    List.replicate 4 (.surface false) ++
    List.replicate (49 * 5 + 3) (.event true) ++
    [.surface false] ++ List.replicate 8 (.event true)

theorem size_le_of_reachable_fillQueue :
    ∃ s, sendThreads.exec sendThreads.init fillQueue = some s ∧
      s.queue.size = 52 ∧ s.immediatelyPushed = 0 ∧
        s.queue.size.toNat ≤ 52 + s.immediatelyPushed := by
  have hEnd :
      (sendThreads.exec sendThreads.init fillQueue).map
          (fun s => (s.queue.size, s.immediatelyPushed)) =
        some (52, 0) := by
    decide +kernel
  rcases Option.map_eq_some_iff.mp hEnd with
    ⟨s, hRun, hValues⟩
  rw [Prod.mk.injEq] at hValues
  exact ⟨s, hRun, hValues.1, hValues.2,
    size_le_of_reachable ⟨fillQueue, hRun⟩⟩

end FzEvent

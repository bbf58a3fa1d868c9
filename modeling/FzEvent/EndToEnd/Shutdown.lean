import FzEvent.EndToEnd.SendThreads

/-
  The end of the program: what its threads still do once
  `running` has been cleared, by a `TERMINATE` message, a full
  queue or a failed send.

  No thread tests `running` inside a round, so each may finish
  the round that it is in, if the call in it returns. Any of
  the calls may stay away: `write()` and the pipe of the
  screen capture may block, `recv_buffer` waits for a message
  and goes round for ever when the peer has gone, and an event
  file without an end is never loaded.

  Main declarations:
    * `SendThreads.remaining`
    * `SendThreads.Call` and `SendThreads.call?`
    * `SendThreads.AtRest` and `SendThreads.Settled`
    * `FzEvent.comesToRest_of_not_running`
-/

------------------------------------------------------------
-- The Steps that Remain
------------------------------------------------------------

namespace FzEvent

open Transition

namespace SendThreads

/-
  How many steps a thread may still cause, with those that
  take the packets it pushes off the queue again.
-/
def SurfacePhase.remaining : SurfacePhase → Nat
| .ended => 0
| .running => 1
| .push => 3
| .getBuffer => 4
| .size => 5
| .mode => 6

def EventPhase.remaining : EventPhase → Nat
| .ended => 0
| .running => 1
| .push => 3
| .getEvent => 4
| .shutdown => 5
| .size => 6
| .mode => 7

def SendPhase.remaining : SendPhase → Nat
| .ended => 0
| .running => 1
| .shutdown => 2
| .send => 3
| .pop => 3

def ImmediatelyPhase.remaining : ImmediatelyPhase → Nat
| .ended => 0
| .push => 2
| .getBuffer => 3
| .mode => 4

/- The last message may start one more thread. -/
def RecvPhase.remaining : RecvPhase → Nat
| .ended => 0
| .running => 1
| .recv => 6

def remainingImmediately
    (phases : List ImmediatelyPhase) : Nat :=
  (phases.map ImmediatelyPhase.remaining).sum

/- The steps of all threads; a queued packet is one step. -/
def remaining (s : SendThreads) : Nat :=
  s.queue.nodes + s.getSurface.remaining +
    s.getEvent.remaining + s.sendPacket.remaining +
    s.recvPacket.remaining +
    remainingImmediately s.getSurfaceImmediately

/- The program has ended, and this state has less left. -/
structure Nearer (s t : SendThreads) : Prop where
  running_eq : t.running = false
  remaining_lt : t.remaining < s.remaining

variable {s t : SendThreads}

theorem nearer_surfaceStep
    (hStopped : s.running = false)
    {fails : Bool}
    (hStep : s.surfaceStep fails = some t) :
    s.Nearer t := by
  unfold surfaceStep at hStep
  cases hPhase : s.getSurface with
  | running =>
      rw [hPhase] at hStep
      cases hStep
      refine ⟨hStopped, ?_⟩
      simp [remaining, hPhase, hStopped, SurfacePhase.remaining]
  | mode =>
      rw [hPhase] at hStep
      cases hStep
      refine ⟨hStopped, ?_⟩
      cases hMode : s.getRunningMode runningScreenCapture <;>
        simp [remaining, hPhase, SurfacePhase.remaining]
  | size =>
      rw [hPhase] at hStep
      cases hStep
      refine ⟨hStopped, ?_⟩
      by_cases hSkip :
          captureSkipQueueSize < s.queue.size.toNat <;>
        simp [remaining, hPhase, hSkip, SurfacePhase.remaining]
  | getBuffer =>
      rw [hPhase] at hStep
      cases hStep
      refine ⟨hStopped, ?_⟩
      cases fails <;>
        simp [remaining, hPhase, SurfacePhase.remaining]
  | push =>
      rw [hPhase] at hStep
      cases hStep
      refine ⟨hStopped, ?_⟩
      simp only [remaining, hPhase, SurfacePhase.remaining,
        SendQueue.nodes_push]
      omega
  | ended =>
      rw [hPhase] at hStep
      cases hStep

theorem nearer_eventStep
    (hStopped : s.running = false)
    {found : Bool}
    (hStep : s.eventStep found = some t) :
    s.Nearer t := by
  unfold eventStep at hStep
  cases hPhase : s.getEvent with
  | running =>
      rw [hPhase] at hStep
      cases hStep
      refine ⟨hStopped, ?_⟩
      simp [remaining, hPhase, hStopped, EventPhase.remaining]
  | mode =>
      rw [hPhase] at hStep
      cases hStep
      refine ⟨hStopped, ?_⟩
      cases hMode : s.getRunningMode runningEventRecord <;>
        simp [remaining, hPhase, EventPhase.remaining]
  | size =>
      rw [hPhase] at hStep
      cases hStep
      refine ⟨hStopped, ?_⟩
      cases hFull : s.queue.checkSendQueueMax <;>
        simp [remaining, hPhase, EventPhase.remaining]
  | shutdown =>
      rw [hPhase] at hStep
      cases hStep
      refine ⟨rfl, ?_⟩
      simp [remaining, hPhase, EventPhase.remaining]
  | getEvent =>
      rw [hPhase] at hStep
      cases hStep
      refine ⟨hStopped, ?_⟩
      cases found <;>
        simp [remaining, hPhase, EventPhase.remaining]
  | push =>
      rw [hPhase] at hStep
      cases hStep
      refine ⟨hStopped, ?_⟩
      simp only [remaining, hPhase, EventPhase.remaining,
        SendQueue.nodes_push]
      omega
  | ended =>
      rw [hPhase] at hStep
      cases hStep

theorem nearer_sendStep
    (hStopped : s.running = false)
    {fails : Bool}
    (hStep : s.sendStep fails = some t) :
    s.Nearer t := by
  unfold sendStep at hStep
  cases hPhase : s.sendPacket with
  | running =>
      rw [hPhase] at hStep
      cases hStep
      refine ⟨hStopped, ?_⟩
      simp [remaining, hPhase, hStopped, SendPhase.remaining]
  | pop =>
      rw [hPhase] at hStep
      cases hPop : s.queue.pop with
      | none =>
          simp only [hPop] at hStep
          cases hStep
          refine ⟨hStopped, ?_⟩
          simp [remaining, hPhase, SendPhase.remaining]
      | some queue =>
          simp only [hPop] at hStep
          cases hStep
          have hNodes := SendQueue.nodes_pop hPop
          refine ⟨hStopped, ?_⟩
          simp only [remaining, hPhase, SendPhase.remaining]
          omega
  | send =>
      rw [hPhase] at hStep
      cases hStep
      refine ⟨hStopped, ?_⟩
      cases fails <;>
        simp [remaining, hPhase, SendPhase.remaining]
  | shutdown =>
      rw [hPhase] at hStep
      cases hStep
      refine ⟨rfl, ?_⟩
      simp [remaining, hPhase, SendPhase.remaining]
  | ended =>
      rw [hPhase] at hStep
      cases hStep

/- No message starts the program again. -/
theorem handle_of_not_running
    (hStopped : s.running = false)
    (message : ControlMessage) :
    (s.handle message).running = false ∧
      (s.handle message).remaining ≤ s.remaining + 4 := by
  cases message with
  | captureImmediately =>
      refine ⟨hStopped, ?_⟩
      simp only [handle, remaining, remainingImmediately,
        List.map_append, List.sum_append, List.map_cons,
        List.map_nil, List.sum_cons, List.sum_nil,
        ImmediatelyPhase.remaining]
      omega
  | terminate => exact ⟨rfl, Nat.le_add_right _ _⟩
  | _ => exact ⟨hStopped, Nat.le_add_right _ _⟩

@[simp] theorem recvPacket_handle
    (s : SendThreads)
    (message : ControlMessage) :
    (s.handle message).recvPacket = s.recvPacket := by
  cases message <;> rfl

theorem nearer_recvStep
    (hStopped : s.running = false)
    {recvBuffer : Option UInt32}
    (hStep : s.recvStep recvBuffer = some t) :
    s.Nearer t := by
  unfold recvStep at hStep
  cases hPhase : s.recvPacket with
  | running =>
      rw [hPhase] at hStep
      cases hStep
      refine ⟨hStopped, ?_⟩
      simp [remaining, hPhase, hStopped, RecvPhase.remaining]
  | recv =>
      rw [hPhase] at hStep
      cases recvBuffer with
      | none =>
          cases hStep
          refine ⟨hStopped, ?_⟩
          simp [remaining, hPhase, RecvPhase.remaining]
      | some word =>
          cases hStep
          have hHandled :=
            handle_of_not_running hStopped
              (controlMessage word)
          refine ⟨hHandled.1, ?_⟩
          have hLe := hHandled.2
          simp only [remaining, recvPacket_handle, hPhase,
            RecvPhase.remaining] at hLe ⊢
          omega
  | ended =>
      rw [hPhase] at hStep
      cases hStep

/- Only the thread that moves counts differently. -/
theorem remainingImmediately_set
    {phases : List ImmediatelyPhase}
    {i : Nat}
    {phase : ImmediatelyPhase}
    (hPhase : phases[i]? = some phase)
    (next : ImmediatelyPhase) :
    remainingImmediately (phases.set i next) +
        phase.remaining =
      remainingImmediately phases + next.remaining := by
  induction phases generalizing i with
  | nil => simp at hPhase
  | cons first phases ih =>
      cases i with
      | zero =>
          rw [List.getElem?_cons_zero, Option.some_inj]
            at hPhase
          subst hPhase
          simp only [remainingImmediately, List.set_cons_zero,
            List.map_cons, List.sum_cons]
          omega
      | succ i =>
          rw [List.getElem?_cons_succ] at hPhase
          have hRest := ih hPhase
          simp only [remainingImmediately, List.set_cons_succ,
            List.map_cons, List.sum_cons] at hRest ⊢
          omega

theorem nearer_immediatelyStep
    (hStopped : s.running = false)
    {i : Nat}
    (hStep : s.immediatelyStep i = some t) :
    s.Nearer t := by
  unfold immediatelyStep at hStep
  cases hPhase : s.getSurfaceImmediately[i]? with
  | none =>
      rw [hPhase] at hStep
      cases hStep
  | some phase =>
      have hSet := remainingImmediately_set hPhase
      rw [hPhase] at hStep
      cases phase with
      | mode =>
          cases hStep
          refine ⟨hStopped, ?_⟩
          cases hMode : s.getRunningMode runningScreenCapture
          · have hNext := hSet .getBuffer
            simp only [ImmediatelyPhase.remaining] at hNext
            simp only [remaining, Bool.false_eq_true, if_false]
            omega
          · have hNext := hSet .ended
            simp only [ImmediatelyPhase.remaining] at hNext
            simp only [remaining, if_true]
            omega
      | getBuffer =>
          cases hStep
          refine ⟨hStopped, ?_⟩
          have hNext := hSet .push
          simp only [ImmediatelyPhase.remaining] at hNext
          simp only [remaining]
          omega
      | push =>
          cases hStep
          refine ⟨hStopped, ?_⟩
          have hNext := hSet .ended
          simp only [ImmediatelyPhase.remaining] at hNext
          simp only [remaining, SendQueue.nodes_push]
          omega
      | ended => cases hStep

theorem nearer_destroyStep
    (hStopped : s.running = false)
    (hStep : s.destroyStep = some t) :
    s.Nearer t := by
  rw [destroyStep] at hStep
  split at hStep
  · rw [Option.map_eq_some_iff] at hStep
    rcases hStep with ⟨queue, hPop, rfl⟩
    have hNodes := SendQueue.nodes_pop hPop
    refine ⟨hStopped, ?_⟩
    simp only [remaining]
    omega
  · cases hStep

/- The step lemma: every step brings the end nearer. -/
theorem nearer_step
    (hStopped : s.running = false)
    {l : Label}
    (hStep : s.step l = some t) :
    s.Nearer t := by
  cases l with
  | surface fails => exact nearer_surfaceStep hStopped hStep
  | event found => exact nearer_eventStep hStopped hStep
  | send fails => exact nearer_sendStep hStopped hStep
  | recv recvBuffer => exact nearer_recvStep hStopped hStep
  | immediately i => exact nearer_immediatelyStep hStopped hStep
  | destroy => exact nearer_destroyStep hStopped hStep

/- The run lemma. -/
theorem length_le_remaining
    (hStopped : s.running = false)
    {ls : List Label}
    (hRun : sendThreads.exec s ls = some t) :
    t.running = false ∧
      ls.length + t.remaining ≤ s.remaining := by
  have hStep :
      ∀ (s : SendThreads) (l : Label) (t : SendThreads),
        s.running = false → True →
          sendThreads.step s l = some t →
            t.running = false ∧ t.remaining < s.remaining := by
    intro s l t hStopped _ hStep
    have hNearer := nearer_step hStopped hStep
    exact ⟨hNearer.running_eq, hNearer.remaining_lt⟩
  have hMeets := sendThreads.meets_true s ls
  refine ⟨?_, sendThreads.length_le_of_measure remaining hStep
    hStopped hMeets hRun⟩
  exact sendThreads.invariant_of_meets
    (fun s => s.running = false)
    (fun s l t hInv hCond hNext =>
      (hStep s l t hInv hCond hNext).1)
    hStopped hMeets hRun

end SendThreads

end FzEvent

------------------------------------------------------------
-- At Rest
------------------------------------------------------------

namespace FzEvent

open Transition

namespace SendThreads

/-
  The calls that may stay away: the picture of a capturing
  thread, the events of the devices, the sending of a packet,
  and the receiving of a message with what it asks for.
-/
inductive Call
| getBuffer
| getEvent
| sendBuffer
| recvBuffer
| getBufferImmediately (i : Nat)
deriving DecidableEq, Repr

/- The call from which a step returns. -/
def call?
    (s : SendThreads) : Label → Option Call
| .surface _ =>
    if s.getSurface = .getBuffer then some .getBuffer else none
| .event _ =>
    if s.getEvent = .getEvent then some .getEvent else none
| .send _ =>
    if s.sendPacket = .send then some .sendBuffer else none
| .recv _ =>
    if s.recvPacket = .recv then some .recvBuffer else none
| .immediately i =>
    if s.getSurfaceImmediately[i]? = some .getBuffer then
      some (.getBufferImmediately i)
    else
      none
| .destroy => none

/- The step is the return from a call that stays away. -/
def Missing
    (hangs : Call → Prop)
    (s : SendThreads)
    (l : Label) : Prop :=
  ∃ c, s.call? l = some c ∧ hangs c

/-
  No thread has a step but returns from calls that stay away,
  and `main` has nothing left to free.
-/
def AtRest
    (hangs : Call → Prop)
    (s : SendThreads) : Prop :=
  ∀ l, s.step l ≠ none → s.Missing hangs l

/-
  Every thread has ended or is in a call that stays away; and
  when `main` could join the four threads, the queue is free.
-/
structure Settled
    (hangs : Call → Prop)
    (s : SendThreads) : Prop where
  getSurface_eq :
    s.getSurface = .ended ∨
      s.getSurface = .getBuffer ∧ hangs .getBuffer
  getEvent_eq :
    s.getEvent = .ended ∨
      s.getEvent = .getEvent ∧ hangs .getEvent
  sendPacket_eq :
    s.sendPacket = .ended ∨
      s.sendPacket = .send ∧ hangs .sendBuffer
  recvPacket_eq :
    s.recvPacket = .ended ∨
      s.recvPacket = .recv ∧ hangs .recvBuffer
  immediately_eq :
    ∀ (i : Nat) phase,
      s.getSurfaceImmediately[i]? = some phase →
        phase = .ended ∨
          phase = .getBuffer ∧ hangs (.getBufferImmediately i)
  nodes_eq :
    s.getSurface = .ended → s.getEvent = .ended →
      s.sendPacket = .ended → s.recvPacket = .ended →
        s.queue.nodes = 0

variable {hangs : Call → Prop}
variable {s : SendThreads}

/- At rest a step that is no return cannot be taken. -/
theorem AtRest.step_eq_none
    (hRest : s.AtRest hangs)
    {l : Label}
    (hOther : s.call? l = none) :
    s.step l = none := by
  by_contra hSome
  rcases hRest l hSome with ⟨c, hCall, _⟩
  rw [hOther] at hCall
  cases hCall

/- At rest a step that could be taken is a missing return. -/
theorem AtRest.hangs_call
    (hRest : s.AtRest hangs)
    {l : Label}
    {c : Call}
    (hSome : s.step l ≠ none)
    (hCall : s.call? l = some c) :
    hangs c := by
  rcases hRest l hSome with ⟨c', hCall', hHangs⟩
  rw [hCall, Option.some_inj] at hCall'
  rw [hCall']
  exact hHangs

theorem AtRest.getSurface_eq
    (hRest : s.AtRest hangs) :
    s.getSurface = .ended ∨
      s.getSurface = .getBuffer ∧ hangs .getBuffer := by
  cases hPhase : s.getSurface with
  | ended => exact Or.inl rfl
  | getBuffer =>
      right
      refine ⟨rfl, ?_⟩
      apply hRest.hangs_call (l := .surface false)
      · simp [step, surfaceStep, hPhase]
      · simp [call?, hPhase]
  | _ =>
      have hNone := hRest.step_eq_none (l := .surface false)
        (by simp [call?, hPhase])
      simp [step, surfaceStep, hPhase] at hNone

theorem AtRest.getEvent_eq
    (hRest : s.AtRest hangs) :
    s.getEvent = .ended ∨
      s.getEvent = .getEvent ∧ hangs .getEvent := by
  cases hPhase : s.getEvent with
  | ended => exact Or.inl rfl
  | getEvent =>
      right
      refine ⟨rfl, ?_⟩
      apply hRest.hangs_call (l := .event false)
      · simp [step, eventStep, hPhase]
      · simp [call?, hPhase]
  | _ =>
      have hNone := hRest.step_eq_none (l := .event false)
        (by simp [call?, hPhase])
      simp [step, eventStep, hPhase] at hNone

theorem AtRest.sendPacket_eq
    (hRest : s.AtRest hangs) :
    s.sendPacket = .ended ∨
      s.sendPacket = .send ∧ hangs .sendBuffer := by
  cases hPhase : s.sendPacket with
  | ended => exact Or.inl rfl
  | send =>
      right
      refine ⟨rfl, ?_⟩
      apply hRest.hangs_call (l := .send false)
      · simp [step, sendStep, hPhase]
      · simp [call?, hPhase]
  | pop =>
      have hNone := hRest.step_eq_none (l := .send false)
        (by simp [call?, hPhase])
      cases hPop : s.queue.pop <;>
        simp [step, sendStep, hPhase, hPop] at hNone
  | _ =>
      have hNone := hRest.step_eq_none (l := .send false)
        (by simp [call?, hPhase])
      simp [step, sendStep, hPhase] at hNone

theorem AtRest.recvPacket_eq
    (hRest : s.AtRest hangs) :
    s.recvPacket = .ended ∨
      s.recvPacket = .recv ∧ hangs .recvBuffer := by
  cases hPhase : s.recvPacket with
  | ended => exact Or.inl rfl
  | recv =>
      right
      refine ⟨rfl, ?_⟩
      apply hRest.hangs_call (l := .recv none)
      · simp [step, recvStep, hPhase]
      · simp [call?, hPhase]
  | running =>
      have hNone := hRest.step_eq_none (l := .recv none)
        (by simp [call?, hPhase])
      simp [step, recvStep, hPhase] at hNone

theorem AtRest.immediately_eq
    (hRest : s.AtRest hangs)
    {i : Nat}
    {phase : ImmediatelyPhase}
    (hPhase : s.getSurfaceImmediately[i]? = some phase) :
    phase = .ended ∨
      phase = .getBuffer ∧ hangs (.getBufferImmediately i) := by
  cases phase with
  | ended => exact Or.inl rfl
  | getBuffer =>
      right
      refine ⟨rfl, ?_⟩
      apply hRest.hangs_call (l := .immediately i)
      · simp [step, immediatelyStep, hPhase]
      · simp [call?, hPhase]
  | _ =>
      have hNone := hRest.step_eq_none (l := .immediately i)
        (by simp [call?, hPhase])
      simp [step, immediatelyStep, hPhase] at hNone

/- With the four threads ended `main` has freed the queue. -/
theorem AtRest.settled
    (hRest : s.AtRest hangs) :
    s.Settled hangs where
  getSurface_eq := hRest.getSurface_eq
  getEvent_eq := hRest.getEvent_eq
  sendPacket_eq := hRest.sendPacket_eq
  recvPacket_eq := hRest.recvPacket_eq
  immediately_eq _ _ hPhase := hRest.immediately_eq hPhase
  nodes_eq := by
    intro hSurface hEvent hSend hRecv
    have hNone : s.destroyStep = none :=
      hRest.step_eq_none (l := .destroy) rfl
    rw [destroyStep,
      if_pos ⟨hSurface, hEvent, hSend, hRecv⟩,
      Option.map_eq_none_iff] at hNone
    unfold SendQueue.pop at hNone
    split at hNone
    · assumption
    · cases hNone

theorem remainingImmediately_le
    (phases : List ImmediatelyPhase) :
    remainingImmediately phases ≤ 4 * phases.length := by
  induction phases with
  | nil => exact Nat.le_refl _
  | cons phase phases ih =>
      have hLe : phase.remaining ≤ 4 := by
        cases phase <;> decide
      simp only [remainingImmediately, List.map_cons,
        List.sum_cons, List.length_cons] at ih ⊢
      omega

/- What remains, whatever the threads are at. -/
theorem remaining_le
    (s : SendThreads) :
    s.remaining ≤
      s.queue.nodes + 22 +
        4 * s.getSurfaceImmediately.length := by
  have hSurface : s.getSurface.remaining ≤ 6 := by
    cases s.getSurface <;> decide
  have hEvent : s.getEvent.remaining ≤ 7 := by
    cases s.getEvent <;> decide
  have hSend : s.sendPacket.remaining ≤ 3 := by
    cases s.sendPacket <;> decide
  have hRecv : s.recvPacket.remaining ≤ 6 := by
    cases s.recvPacket <;> decide
  have hImmediately :=
    remainingImmediately_le s.getSurfaceImmediately
  rw [remaining]
  omega

/-
  A program that has ended can come to rest, without any call
  that stays away.
-/
theorem exists_atRest
    (hStopped : s.running = false)
    (hangs : Call → Prop) :
    ∃ ls t,
      sendThreads.exec s ls = some t ∧
        sendThreads.Meets (fun s l => ¬s.Missing hangs l) s
          ls ∧
        t.AtRest hangs := by
  have hStep :
      ∀ (s : SendThreads) (l : Label) (t : SendThreads),
        s.running = false → ¬s.Missing hangs l →
          sendThreads.step s l = some t →
            t.running = false ∧
              t.remaining < s.remaining := by
    intro s l t hStopped _ hNext
    have hNearer := nearer_step hStopped hNext
    exact ⟨hNearer.running_eq, hNearer.remaining_lt⟩
  rcases sendThreads.exists_final_of_measure remaining hStep
    hStopped with ⟨ls, t, hRun, hReturns, hFinal⟩
  refine ⟨ls, t, hRun, hReturns, ?_⟩
  intro l hSome
  by_contra hOther
  exact hSome (hFinal l hOther)

end SendThreads

/-
  Once `running` is cleared no interleaving goes on for more
  than the remaining steps, where a call is one step, which is
  taken when it returns. Whatever calls stay away, the threads
  can come to rest without them, and at rest every thread has
  ended or is in one of those calls.
-/
theorem comesToRest_of_not_running
    {s t : SendThreads}
    (hStopped : s.running = false)
    {ls : List SendThreads.Label}
    (hRun : sendThreads.exec s ls = some t) :
    t.running = false ∧
      ls.length ≤
        s.queue.nodes + 22 +
          4 * s.getSurfaceImmediately.length ∧
      ∀ hangs : SendThreads.Call → Prop,
        (∃ more u,
          sendThreads.exec t more = some u ∧
            sendThreads.Meets (fun s l => ¬s.Missing hangs l) t
              more ∧
            u.AtRest hangs) ∧
        (t.AtRest hangs → t.Settled hangs) := by
  rcases SendThreads.length_le_remaining hStopped hRun with
    ⟨hStill, hLength⟩
  refine ⟨hStill, ?_, ?_⟩
  · have hLe := s.remaining_le
    omega
  · intro hangs
    exact ⟨SendThreads.exists_atRest hStill hangs,
      fun hRest => hRest.settled⟩

/- A `TERMINATE` message at once, and every thread ends. -/
def terminateAtOnce : List SendThreads.Label :=
  [.recv none, .recv (some controlMessageTerminate)]

def endAll : List SendThreads.Label :=
  [.recv none, .surface false, .event false, .send false]

theorem comesToRest_of_not_running_terminateAtOnce :
    ∃ s t,
      sendThreads.exec sendThreads.init terminateAtOnce =
          some s ∧
        sendThreads.exec s endAll = some t ∧
        t.running = false ∧ t.Settled (fun _ => False) ∧
        endAll.length ≤
          s.queue.nodes + 22 +
            4 * s.getSurfaceImmediately.length := by
  have hStart :
      (sendThreads.exec sendThreads.init terminateAtOnce).map
        SendThreads.running = some false := by
    decide
  rcases Option.map_eq_some_iff.mp hStart with
    ⟨s, hRun, hStopped⟩
  have hEnd :
      ((sendThreads.exec sendThreads.init terminateAtOnce).bind
          fun s => sendThreads.exec s endAll) =
        some { SendThreads.init with
          running := false
          getSurface := .ended
          getEvent := .ended
          sendPacket := .ended
          recvPacket := .ended } := by
    decide
  rw [hRun, Option.bind_some] at hEnd
  have hAll := comesToRest_of_not_running hStopped hEnd
  refine ⟨s, _, hRun, hEnd, hAll.1, ?_, hAll.2.1⟩
  apply (hAll.2.2 (fun _ => False)).2
  intro l hSome
  exact absurd (by cases l <;> rfl) hSome

end FzEvent

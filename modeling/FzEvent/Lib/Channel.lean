import FzEvent.Lib.Transition

/-
  Reliable first-in first-out channels, and channels that
  carry every message as a frame of bytes, of which any
  number may have arrived.

  Main declarations:
    * `Channel.State`, `Channel.Step` and `Channel.fifo`
    * `Channel.sent` and
      `Channel.delivered_append_inFlight`
    * `Channel.Framed` with `Framed.send`, `Framed.arrive`,
      `Framed.deliver` and `Framed.next`
-/

------------------------------------------------------------
-- The Channel
------------------------------------------------------------

namespace Channel

open Transition

variable {P : Type}

/- The messages on the way and those that came out. -/
structure State (P : Type) where
  inFlight : List P
  delivered : List P
deriving DecidableEq, Repr

inductive Step (P : Type)
| send (p : P)
| deliver
deriving DecidableEq, Repr

/- What is sent first comes out first. -/
def fifo (P : Type) : System (State P) (Step P) where
  init := ⟨[], []⟩
  step c
  | .send p =>
      some { c with inFlight := c.inFlight ++ [p] }
  | .deliver =>
      match c.inFlight with
      | [] => none
      | p :: rest => some ⟨rest, c.delivered ++ [p]⟩

/- The messages that some steps send, in this order. -/
def sent (steps : List (Step P)) : List P :=
  steps.filterMap fun
    | .send p => some p
    | .deliver => none

/-
  Where every label stands for some steps of the channel, what
  is sent is what the labels carry.
-/
theorem sent_flatMap
    {ℓ : Type}
    {standsFor : ℓ → List (Step P)}
    {carried : ℓ → Option P}
    (hCarried :
      ∀ l, sent (standsFor l) = (carried l).toList)
    (ls : List ℓ) :
    sent (ls.flatMap standsFor) = ls.filterMap carried := by
  induction ls with
  | nil => rfl
  | cons l ls ih =>
      have hApp :
          sent (standsFor l ++ ls.flatMap standsFor) =
            sent (standsFor l) ++ sent (ls.flatMap standsFor) :=
        List.filterMap_append
      rw [List.flatMap_cons, hApp, ih, hCarried,
        List.filterMap_cons]
      cases carried l <;> rfl

/- One step loses no message and keeps the order. -/
theorem delivered_append_inFlight_step
    {c d : State P}
    {step : Step P}
    (hStep : (fifo P).step c step = some d) :
    d.delivered ++ d.inFlight =
      c.delivered ++ c.inFlight ++ sent [step] := by
  cases step with
  | send p =>
      cases hStep
      simp [sent]
  | deliver =>
      simp only [fifo] at hStep
      split at hStep
      · cases hStep
      · next p rest hFlight =>
        cases hStep
        simp [sent, hFlight]

/- No message is lost, doubled or overtaken. -/
theorem delivered_append_inFlight
    {c : State P}
    {steps : List (Step P)}
    (hRun :
      (fifo P).exec (fifo P).init steps = some c) :
    c.delivered ++ c.inFlight = sent steps := by
  refine (fifo P).invariant_of_exec
    (fun steps c => c.delivered ++ c.inFlight = sent steps)
    rfl ?_ hRun
  intro earlier d step next _ hBefore hStep
  rw [delivered_append_inFlight_step hStep, hBefore]
  exact List.filterMap_append.symm

end Channel

------------------------------------------------------------
-- Frames
------------------------------------------------------------

namespace Channel

variable {P β : Type}

/-
  The bytes that have arrived and those that still come are
  the frames of the messages.
-/
def Framed
    (frame : P → List β)
    (arrived coming : List β)
    (messages : List P) : Prop :=
  arrived ++ coming = messages.flatMap frame

variable {frame : P → List β}
variable {arrived coming : List β}
variable {messages : List P}

theorem framed_nil : Framed frame [] [] [] := rfl

/- A message that is sent comes behind all others. -/
theorem Framed.send
    (hFramed : Framed frame arrived coming messages)
    (p : P) :
    Framed frame arrived (coming ++ frame p)
      (messages ++ [p]) := by
  rw [Framed, ← List.append_assoc, hFramed,
    List.flatMap_append, List.flatMap_singleton]

/- Bytes arrive in the order in which they come. -/
theorem Framed.arrive
    {data : List β}
    (hFramed :
      Framed frame arrived (data ++ coming) messages) :
    Framed frame (arrived ++ data) coming messages := by
  rw [Framed, List.append_assoc]
  exact hFramed

/- A whole frame is taken off. -/
theorem Framed.deliver
    {p : P}
    (hFramed :
      Framed frame (frame p ++ arrived) coming
        (p :: messages)) :
    Framed frame arrived coming messages := by
  rw [Framed, List.flatMap_cons, List.append_assoc] at hFramed
  exact List.append_cancel_left hFramed

/- The next frame has arrived, or a strict part of it has. -/
theorem Framed.next
    {p : P}
    (hFramed : Framed frame arrived coming (p :: messages)) :
    (∃ rest, arrived = frame p ++ rest) ∨
      ∃ missing, missing ≠ [] ∧ arrived ++ missing = frame p := by
  rw [Framed, List.flatMap_cons, List.append_eq_append_iff]
    at hFramed
  rcases hFramed with ⟨missing, hFrame, _⟩ | ⟨rest, hArrived, _⟩
  · cases missing with
    | nil =>
        left
        exact ⟨[], by rw [hFrame, List.append_nil,
          List.append_nil]⟩
    | cons b bs =>
        right
        exact ⟨b :: bs, List.cons_ne_nil b bs, hFrame.symm⟩
  · exact Or.inl ⟨rest, hArrived⟩

/- When nothing comes any more, nothing is on the way. -/
theorem Framed.messages_eq_nil
    (hFrames : ∀ p ∈ messages, frame p ≠ [])
    (hFramed : Framed frame ([] : List β) [] messages) :
    messages = [] := by
  cases messages with
  | nil => rfl
  | cons p messages =>
      rw [Framed, List.nil_append, List.flatMap_cons] at hFramed
      have hNil := (List.append_eq_nil_iff.mp hFramed.symm).1
      exact absurd hNil (hFrames p List.mem_cons_self)

end Channel

import FzEvent.Lib.Transition
import Mathlib.Data.List.Basic

/-
  The threads that use the screen grabber `sg`: the capture
  thread `get_surface` and one `get_surface_immediately` for
  each `CAPTURE_IMMEDIATELY` message.

  A thread tests the mode bit `RUNNING_SCREEN_CAPTURE` once
  and enters `get_buffer` later. Nothing keeps a second
  thread from passing its test in the meantime.

  Main declarations:
    * `FzEvent.ScreenCapture`, `FzEvent.CaptureStep` and
      `FzEvent.captureThreads`
    * `ScreenCapture.inside` and `ScreenCapture.admitted`
    * `ScreenCapture.Guarded`
    * `FzEvent.inside_le_one_of_guarded`
    * `FzEvent.exists_two_inside_of_not_guarded`
-/

------------------------------------------------------------
-- The Threads
------------------------------------------------------------

namespace FzEvent

/- What the capture thread does next. -/
inductive SurfacePhase
| test
| queue
| enter
| inside
deriving DecidableEq, Repr

/- What an immediate thread does next. -/
inductive ImmediatelyPhase
| test
| enter
| inside
| done
deriving DecidableEq, Repr

/- `CAPTURE_SKIP_QUEUE_SIZE` -/
def captureSkipQueueSize : Nat := 5

/-
  Whether the program runs, the mode bit, the capture thread,
  and the thread of every `CAPTURE_IMMEDIATELY` so far.
-/
structure ScreenCapture where
  running : Bool
  screenCapture : Bool
  getSurface : SurfacePhase
  getSurfaceImmediately : List ImmediatelyPhase
deriving DecidableEq, Repr

/-
  The receiving thread handles a message, or a thread takes
  its next step. The size of the send queue, which the sender
  changes, comes with the step that looks at it.
-/
inductive CaptureStep
| captureStart
| captureStop
| captureImmediately
| terminate
| surfaceTest
| surfaceQueue (queueSize : Nat)
| surfaceEnter
| surfaceExit
| immediatelyTest (i : Nat)
| immediatelyEnter (i : Nat)
| immediatelyExit (i : Nat)
deriving DecidableEq, Repr

namespace ScreenCapture

def init : ScreenCapture where
  running := true
  screenCapture := false
  getSurface := .test
  getSurfaceImmediately := []

/- The thread of the i-th message goes from `p` to `q`. -/
def moveImmediately
    (s : ScreenCapture)
    (i : Nat)
    (p q : ImmediatelyPhase) : Option ScreenCapture :=
  if s.getSurfaceImmediately[i]? = some p then
    some { s with
      getSurfaceImmediately :=
        s.getSurfaceImmediately.set i q }
  else
    none

/- The capture thread goes from `p` to `q`. -/
def moveSurface
    (s : ScreenCapture)
    (p q : SurfacePhase) : Option ScreenCapture :=
  if s.getSurface = p then
    some { s with getSurface := q }
  else
    none

/-
  One step. The loops of the capture thread and of the
  receiving thread end when the program does not run.
-/
def step
    (s : ScreenCapture) :
    CaptureStep → Option ScreenCapture
| .captureStart =>
    if s.running then
      some { s with screenCapture := true }
    else
      none
| .captureStop =>
    if s.running then
      some { s with screenCapture := false }
    else
      none
| .captureImmediately =>
    if s.running then
      some { s with
        getSurfaceImmediately :=
          s.getSurfaceImmediately ++ [.test] }
    else
      none
| .terminate =>
    if s.running then
      some { s with running := false }
    else
      none
| .surfaceTest =>
    if s.running then
      s.moveSurface .test
        (if s.screenCapture then .queue else .test)
    else
      none
| .surfaceQueue queueSize =>
    s.moveSurface .queue
      (if captureSkipQueueSize < queueSize then
        .test
      else
        .enter)
| .surfaceEnter => s.moveSurface .enter .inside
| .surfaceExit => s.moveSurface .inside .test
| .immediatelyTest i =>
    s.moveImmediately i .test
      (if s.screenCapture then .done else .enter)
| .immediatelyEnter i => s.moveImmediately i .enter .inside
| .immediatelyExit i => s.moveImmediately i .inside .done

end ScreenCapture

open Transition in
def captureThreads : System ScreenCapture CaptureStep where
  init := ScreenCapture.init
  step := ScreenCapture.step

end FzEvent

------------------------------------------------------------
-- Threads at the Grabber
------------------------------------------------------------

namespace FzEvent

/- In `get_buffer`. -/
def SurfacePhase.isInside : SurfacePhase → Bool
| .inside => true
| _ => false

/- Past the test of the bit and not yet out of `get_buffer`. -/
def SurfacePhase.isAdmitted : SurfacePhase → Bool
| .test => false
| .queue | .enter | .inside => true

def ImmediatelyPhase.isInside : ImmediatelyPhase → Bool
| .inside => true
| _ => false

def ImmediatelyPhase.isAdmitted : ImmediatelyPhase → Bool
| .enter | .inside => true
| .test | .done => false

namespace ScreenCapture

/- How many threads are inside `get_buffer`. -/
def inside (s : ScreenCapture) : Nat :=
  s.getSurface.isInside.toNat +
    s.getSurfaceImmediately.countP ImmediatelyPhase.isInside

/- How many threads have passed their test and are not out. -/
def admitted (s : ScreenCapture) : Nat :=
  s.getSurface.isAdmitted.toNat +
    s.getSurfaceImmediately.countP ImmediatelyPhase.isAdmitted

theorem inside_le_admitted
    (s : ScreenCapture) :
    s.inside ≤ s.admitted := by
  apply Nat.add_le_add
  · cases s.getSurface <;> decide
  · apply List.countP_mono_left
    intro p hMem hInside
    cases p <;> trivial

/-
  A thread passes its test of the bit only while no thread is
  on its way to the grabber or inside.
-/
def Guarded
    (s : ScreenCapture) : CaptureStep → Prop
| .surfaceTest => s.screenCapture = true → s.admitted = 0
| .immediatelyTest _ =>
    s.screenCapture = false → s.admitted = 0
| _ => True

instance (s : ScreenCapture) (l : CaptureStep) :
    Decidable (s.Guarded l) := by
  unfold Guarded
  exact match l with
    | .surfaceTest =>
        inferInstanceAs
          (Decidable (s.screenCapture = true →
            s.admitted = 0))
    | .immediatelyTest _ =>
        inferInstanceAs
          (Decidable (s.screenCapture = false →
            s.admitted = 0))
    | .captureStart | .captureStop => .isTrue trivial
    | .captureImmediately | .terminate => .isTrue trivial
    | .surfaceQueue _ | .surfaceEnter => .isTrue trivial
    | .surfaceExit | .immediatelyEnter _ => .isTrue trivial
    | .immediatelyExit _ => .isTrue trivial

end ScreenCapture

/- Replacing an element changes a count by that element. -/
theorem countP_set_add
    {α : Type}
    (p : α → Bool)
    {l : List α}
    {i : Nat}
    {a : α}
    (hGet : l[i]? = some a)
    (b : α) :
    (l.set i b).countP p + (if p a then 1 else 0) =
      l.countP p + (if p b then 1 else 0) := by
  induction l generalizing i with
  | nil => simp at hGet
  | cons c l ih =>
      cases i with
      | zero =>
          simp only [List.getElem?_cons_zero,
            Option.some.injEq] at hGet
          rw [List.set_cons_zero, List.countP_cons,
            List.countP_cons, hGet]
          omega
      | succ i =>
          rw [List.getElem?_cons_succ] at hGet
          have hRest := ih hGet
          rw [List.set_cons_succ, List.countP_cons,
            List.countP_cons]
          omega

namespace ScreenCapture

variable {s t : ScreenCapture}

/- What a step of an immediate thread does to the count. -/
theorem admitted_moveImmediately
    {i : Nat}
    {p q : ImmediatelyPhase}
    (hMove : s.moveImmediately i p q = some t) :
    t.admitted + (if p.isAdmitted then 1 else 0) =
      s.admitted + (if q.isAdmitted then 1 else 0) := by
  unfold moveImmediately at hMove
  split at hMove
  · next hGet =>
    cases hMove
    have hCount :=
      countP_set_add ImmediatelyPhase.isAdmitted hGet q
    simp only [admitted]
    omega
  · cases hMove

/- What a step of the capture thread does to the count. -/
theorem admitted_moveSurface
    {p q : SurfacePhase}
    (hMove : s.moveSurface p q = some t) :
    t.admitted + p.isAdmitted.toNat =
      s.admitted + q.isAdmitted.toNat := by
  unfold moveSurface at hMove
  split at hMove
  · next hPhase =>
    cases hMove
    simp only [admitted, hPhase]
    omega
  · cases hMove

/-
  A guarded step keeps at most one thread between its test
  and its way out.
-/
theorem admitted_step
    {l : CaptureStep}
    (hAdmitted : s.admitted ≤ 1)
    (hGuarded : s.Guarded l)
    (hStep : s.step l = some t) :
    t.admitted ≤ 1 := by
  cases l with
  | captureStart =>
      simp only [step] at hStep
      split at hStep <;> cases hStep
      exact hAdmitted
  | captureStop =>
      simp only [step] at hStep
      split at hStep <;> cases hStep
      exact hAdmitted
  | captureImmediately =>
      simp only [step] at hStep
      split at hStep <;> cases hStep
      simpa [admitted, ImmediatelyPhase.isAdmitted]
        using hAdmitted
  | terminate =>
      simp only [step] at hStep
      split at hStep <;> cases hStep
      exact hAdmitted
  | surfaceTest =>
      simp only [step] at hStep
      split at hStep
      · have hCount := admitted_moveSurface hStep
        cases hMode : s.screenCapture with
        | true =>
            have hNone := hGuarded hMode
            simp [hMode, SurfacePhase.isAdmitted] at hCount
            omega
        | false =>
            simp [hMode, SurfacePhase.isAdmitted] at hCount
            omega
      · cases hStep
  | surfaceQueue queueSize =>
      have hCount := admitted_moveSurface hStep
      by_cases hFull : captureSkipQueueSize < queueSize
      · simp [hFull, SurfacePhase.isAdmitted] at hCount
        omega
      · simp [hFull, SurfacePhase.isAdmitted] at hCount
        omega
  | surfaceEnter =>
      have hCount := admitted_moveSurface hStep
      simp [SurfacePhase.isAdmitted] at hCount
      omega
  | surfaceExit =>
      have hCount := admitted_moveSurface hStep
      simp [SurfacePhase.isAdmitted] at hCount
      omega
  | immediatelyTest i =>
      have hCount := admitted_moveImmediately hStep
      cases hMode : s.screenCapture with
      | true =>
          simp [hMode, ImmediatelyPhase.isAdmitted] at hCount
          omega
      | false =>
          have hNone := hGuarded hMode
          simp [hMode, ImmediatelyPhase.isAdmitted] at hCount
          omega
  | immediatelyEnter i =>
      have hCount := admitted_moveImmediately hStep
      simp [ImmediatelyPhase.isAdmitted] at hCount
      omega
  | immediatelyExit i =>
      have hCount := admitted_moveImmediately hStep
      simp [ImmediatelyPhase.isAdmitted] at hCount
      omega

end ScreenCapture

end FzEvent

------------------------------------------------------------
-- When a Second Thread Is Admitted
------------------------------------------------------------

namespace FzEvent

namespace ScreenCapture

variable {s : ScreenCapture} {i j : Nat}

/- An admitted capture thread can get inside. -/
theorem exists_surface_inside
    (hAdmitted : s.getSurface.isAdmitted = true) :
    ∃ ls,
      captureThreads.exec s ls =
        some { s with getSurface := .inside } := by
  cases hPhase : s.getSurface with
  | test =>
      simp [hPhase, SurfacePhase.isAdmitted] at hAdmitted
  | queue =>
      refine ⟨[.surfaceQueue 0, .surfaceEnter], ?_⟩
      simp [captureThreads, Transition.System.exec, step,
        moveSurface, hPhase]
  | enter =>
      refine ⟨[.surfaceEnter], ?_⟩
      simp [captureThreads, Transition.System.exec, step,
        moveSurface, hPhase]
  | inside =>
      refine ⟨[], ?_⟩
      rw [← hPhase]
      rfl

/- An admitted immediate thread can get inside. -/
theorem exists_immediately_inside
    {p : ImmediatelyPhase}
    (hPhase : s.getSurfaceImmediately[i]? = some p)
    (hAdmitted : p.isAdmitted = true) :
    ∃ ls u,
      captureThreads.exec s ls = some u ∧
        u.getSurface = s.getSurface ∧
          u.getSurfaceImmediately[i]? = some .inside ∧
            ∀ j, j ≠ i →
              u.getSurfaceImmediately[j]? =
                s.getSurfaceImmediately[j]? := by
  cases p with
  | test => cases hAdmitted
  | done => cases hAdmitted
  | inside =>
      exact ⟨[], s, rfl, rfl, hPhase, fun _ _ => rfl⟩
  | enter =>
      have hStep :
          s.step (.immediatelyEnter i) =
            some { s with
              getSurfaceImmediately :=
                s.getSurfaceImmediately.set i .inside } := by
        simp [step, moveImmediately, hPhase]
      refine ⟨[.immediatelyEnter i], _,
        (captureThreads.exec_cons_eq_some_iff).mpr
          ⟨_, hStep, rfl⟩, rfl, ?_, ?_⟩
      · rw [List.getElem?_set_self']
        simp [hPhase]
      · intro j hOther
        exact List.getElem?_set_ne hOther.symm

/- Two threads inside are counted. -/
theorem two_le_inside_of_surface
    (hSurface : s.getSurface = .inside)
    (hInside : s.getSurfaceImmediately[i]? = some .inside) :
    2 ≤ s.inside := by
  have hPos :
      0 < s.getSurfaceImmediately.countP ImmediatelyPhase.isInside :=
    List.countP_pos_iff.mpr
      ⟨.inside, List.mem_of_getElem? hInside, rfl⟩
  have hOne : s.getSurface.isInside.toNat = 1 := by
    rw [hSurface]
    rfl
  rw [inside, hOne]
  omega

theorem two_le_inside_of_ne
    (hOther : j ≠ i)
    (hInside : s.getSurfaceImmediately[i]? = some .inside)
    (hInside' : s.getSurfaceImmediately[j]? = some .inside) :
    2 ≤ s.inside := by
  have hCount :=
    countP_set_add ImmediatelyPhase.isInside hInside .done
  have hRest :
      (s.getSurfaceImmediately.set i .done)[j]? =
        some .inside := by
    rw [List.getElem?_set_ne hOther.symm]
    exact hInside'
  have hPos :
      0 < (s.getSurfaceImmediately.set i .done).countP
        ImmediatelyPhase.isInside :=
    List.countP_pos_iff.mpr
      ⟨.inside, List.mem_of_getElem? hRest, rfl⟩
  simp only [ImmediatelyPhase.isInside, if_true, Bool.false_eq_true,
    if_false] at hCount
  rw [inside]
  omega

/- Some immediate thread is admitted. -/
theorem exists_admitted_immediately
    (hAdmitted :
      s.getSurfaceImmediately.countP
        ImmediatelyPhase.isAdmitted ≠ 0) :
    ∃ i : Nat, ∃ p,
      s.getSurfaceImmediately[i]? = some p ∧
        p.isAdmitted = true := by
  rcases List.countP_pos_iff.mp
      (Nat.pos_of_ne_zero hAdmitted) with
    ⟨p, hMem, hPhase⟩
  rcases List.mem_iff_getElem?.mp hMem with ⟨i, hGet⟩
  exact ⟨i, p, hGet, hPhase⟩

/- The capture thread and an immediate one both get inside. -/
theorem exists_two_inside_of_surface
    {p : ImmediatelyPhase}
    (hSurface : s.getSurface.isAdmitted = true)
    (hPhase : s.getSurfaceImmediately[i]? = some p)
    (hAdmitted : p.isAdmitted = true) :
    ∃ ls u,
      captureThreads.exec s ls = some u ∧ 2 ≤ u.inside := by
  rcases exists_immediately_inside hPhase hAdmitted with
    ⟨ls, u, hRun, hSame, hInside, -⟩
  rw [← hSame] at hSurface
  rcases exists_surface_inside hSurface with ⟨ms, hRun'⟩
  have hTwo :
      2 ≤ ({ u with getSurface := .inside } :
        ScreenCapture).inside :=
    two_le_inside_of_surface rfl hInside
  refine ⟨ls ++ ms, _, ?_, hTwo⟩
  rw [Transition.System.exec_append, hRun]
  exact hRun'

/- Two immediate threads both get inside. -/
theorem exists_two_inside_of_ne
    {p q : ImmediatelyPhase}
    (hOther : j ≠ i)
    (hPhase : s.getSurfaceImmediately[i]? = some p)
    (hAdmitted : p.isAdmitted = true)
    (hPhase' : s.getSurfaceImmediately[j]? = some q)
    (hAdmitted' : q.isAdmitted = true) :
    ∃ ls u,
      captureThreads.exec s ls = some u ∧ 2 ≤ u.inside := by
  rcases exists_immediately_inside hPhase hAdmitted with
    ⟨ls, u, hRun, -, hInside, hKept⟩
  rw [← hKept j hOther] at hPhase'
  rcases exists_immediately_inside hPhase' hAdmitted' with
    ⟨ms, v, hRun', -, hInside', hKept'⟩
  rw [← hKept' i hOther.symm] at hInside
  refine ⟨ls ++ ms, v, ?_,
    two_le_inside_of_ne hOther hInside hInside'⟩
  rw [Transition.System.exec_append, hRun]
  exact hRun'

/-
  Without the guard: from a test that is passed while another
  thread is past its own, some run brings both inside.
-/
theorem exists_two_inside_of_not_guarded
    {t : ScreenCapture}
    {l : CaptureStep}
    (hNot : ¬ s.Guarded l)
    (hStep : s.step l = some t) :
    ∃ ls u,
      captureThreads.exec t ls = some u ∧ 2 ≤ u.inside := by
  cases l with
  | surfaceTest =>
      simp only [Guarded, Classical.not_imp] at hNot
      rcases hNot with ⟨hMode, hBusy⟩
      simp only [step, moveSurface, hMode, if_true] at hStep
      split at hStep
      · split at hStep
        · next hTest =>
          cases hStep
          have hOthers :
              s.getSurfaceImmediately.countP
                ImmediatelyPhase.isAdmitted ≠ 0 := by
            simpa [admitted, hTest,
              SurfacePhase.isAdmitted] using hBusy
          rcases exists_admitted_immediately hOthers with
            ⟨i, p, hPhase, hAdmitted⟩
          exact exists_two_inside_of_surface rfl hPhase
            hAdmitted
        · cases hStep
      · cases hStep
  | immediatelyTest i =>
      simp only [Guarded, Classical.not_imp] at hNot
      rcases hNot with ⟨hMode, hBusy⟩
      simp only [step, moveImmediately, hMode,
        Bool.false_eq_true, if_false] at hStep
      split at hStep
      · next hTest =>
        cases hStep
        have hEnter :
            (s.getSurfaceImmediately.set i .enter)[i]? =
              some .enter := by
          rw [List.getElem?_set_self']
          simp [hTest]
        by_cases hSurface : s.getSurface.isAdmitted = true
        · exact exists_two_inside_of_surface hSurface hEnter
            rfl
        · have hOthers :
              s.getSurfaceImmediately.countP
                ImmediatelyPhase.isAdmitted ≠ 0 := by
            simpa [admitted, hSurface] using hBusy
          rcases exists_admitted_immediately hOthers with
            ⟨j, p, hPhase, hAdmitted⟩
          have hOther : j ≠ i := by
            rintro rfl
            rw [hTest, Option.some.injEq] at hPhase
            rw [← hPhase] at hAdmitted
            cases hAdmitted
          have hKept :
              (s.getSurfaceImmediately.set i .enter)[j]? =
                some p := by
            rw [List.getElem?_set_ne hOther.symm]
            exact hPhase
          exact exists_two_inside_of_ne hOther hEnter rfl
            hKept hAdmitted
      · cases hStep
  | captureStart => exact absurd trivial hNot
  | captureStop => exact absurd trivial hNot
  | captureImmediately => exact absurd trivial hNot
  | terminate => exact absurd trivial hNot
  | surfaceQueue queueSize => exact absurd trivial hNot
  | surfaceEnter => exact absurd trivial hNot
  | surfaceExit => exact absurd trivial hNot
  | immediatelyEnter i => exact absurd trivial hNot
  | immediatelyExit i => exact absurd trivial hNot

end ScreenCapture

end FzEvent

------------------------------------------------------------
-- Whole Runs
------------------------------------------------------------

namespace FzEvent

/-
  In every run in which a thread passes its test only while
  no other thread is past it, at most one thread is inside
  `get_buffer` in every state.
-/
theorem inside_le_one_of_guarded
    (ls : List CaptureStep)
    (hGuarded :
      captureThreads.Meets ScreenCapture.Guarded
        captureThreads.init ls) :
    captureThreads.Always (fun s => s.inside ≤ 1)
      captureThreads.init ls := by
  intro before after t hSplit hRun
  rw [hSplit, Transition.System.meets_append_iff] at hGuarded
  have hAdmitted : t.admitted ≤ 1 :=
    captureThreads.invariant_of_meets
      (fun s => s.admitted ≤ 1)
      (fun s l u hInv hCond hStep =>
        ScreenCapture.admitted_step hInv hCond hStep)
      (by decide) hGuarded.1 hRun
  exact Nat.le_trans t.inside_le_admitted hAdmitted

/- A capture, then one image after the bit is clear again. -/
def captureThenImmediately : List CaptureStep :=
  [.captureStart, .surfaceTest, .surfaceQueue 0,
    .surfaceEnter, .captureStop, .surfaceExit, .surfaceTest,
    .captureImmediately, .immediatelyTest 0,
    .immediatelyEnter 0]

theorem inside_le_one_captureThenImmediately :
    captureThreads.Always (fun s => s.inside ≤ 1)
      captureThreads.init captureThenImmediately :=
  inside_le_one_of_guarded captureThenImmediately (by decide)

/- Two images are asked for one after the other. -/
def immediatelyTwice : List CaptureStep :=
  [.captureImmediately, .captureImmediately,
    .immediatelyTest 0, .immediatelyEnter 0,
    .immediatelyTest 1, .immediatelyEnter 1]

theorem not_inside_le_one :
    ¬ ∀ ls,
      captureThreads.Always (fun s => s.inside ≤ 1)
        captureThreads.init ls := by
  intro hAll
  have hInside :
      (captureThreads.exec captureThreads.init
        immediatelyTwice).map ScreenCapture.inside =
          some 2 := by
    decide
  rcases Option.map_eq_some_iff.mp hInside with
    ⟨t, hRun, hTwo⟩
  have hOne : t.inside ≤ 1 :=
    hAll immediatelyTwice immediatelyTwice [] t
      (List.append_nil _).symm hRun
  omega

end FzEvent

import FzEvent.Lib.Transition
import Mathlib.Logic.Function.Basic

/-
  Threads that run programs of atomic steps on a shared
  memory, with critical sections marked by an entry and an
  exit macro.

  What the macros do to the mutex is a parameter, so the
  guarantees that a pair of macros gives can be compared.

  Main declarations:
    * `LockedProgram.Prog` and `LockedProgram.Macros`
    * `LockedProgram.system`
    * `Prog.run` and `LockedProgram.returnsAlone_of_run`
    * `World.Exclusive`, `World.Balanced` and `World.Guarded`
    * `LockedProgram.always_iff_guarded`
-/

------------------------------------------------------------
-- Programs
------------------------------------------------------------

namespace LockedProgram

/- The calls on a mutex. -/
inductive MutexCall
| lock
| unlock
deriving DecidableEq, Repr

/- The mutex calls that the two macros expand to. -/
structure Macros where
  enter : MutexCall
  exit : MutexCall

/-
  A sequential program: macros at the entry and exit of
  critical sections, atomic actions on the memory, and a
  result. An action that the memory does not allow, such as
  an access through a null pointer, is `none`; what follows
  an action may depend on the memory it found.
-/
inductive Prog (μ ρ : Type)
| enter (rest : Prog μ ρ)
| exit (rest : Prog μ ρ)
| act (update : μ → Option μ) (rest : μ → Prog μ ρ)
| ret (result : ρ)

/-
  A thread: the rest of its operation, whether it is between
  entry and exit, and how often the operation has acquired
  and released the mutex.
-/
structure Thread (μ ρ : Type) where
  prog : Option (Prog μ ρ)
  inside : Bool
  acquired : Nat
  released : Nat

namespace Thread

variable {μ ρ : Type}

/- A thread between two operations. -/
def idle : Thread μ ρ where
  prog := none
  inside := false
  acquired := 0
  released := 0

/- Count one mutex call of the operation. -/
def counting
    (thread : Thread μ ρ)
    (call : MutexCall) : Thread μ ρ :=
  match call with
  | .lock => { thread with acquired := thread.acquired + 1 }
  | .unlock => { thread with released := thread.released + 1 }

end Thread

/-
  All threads on one memory and one mutex. `returned` holds
  the mutex calls of every operation that has returned.
-/
structure World (T μ ρ : Type) where
  locked : Bool
  memory : μ
  threads : T → Thread μ ρ
  returned : List (Nat × Nat)

/- A thread calls an operation, or takes its next step. -/
inductive Label (T κ : Type)
| call (i : T) (op : κ)
| run (i : T)
deriving DecidableEq, Repr

end LockedProgram

------------------------------------------------------------
-- Interleaved Execution
------------------------------------------------------------

namespace LockedProgram

open Transition

variable {T κ μ ρ : Type} [DecidableEq T]

/- The mutex after a call; a second `lock` has to wait. -/
def mutexAfter
    (call : MutexCall)
    (locked : Bool) : Option Bool :=
  match call with
  | .lock => if locked then none else some true
  | .unlock => some false

namespace World

/- Replace one thread. -/
def setThread
    (w : World T μ ρ)
    (i : T)
    (thread : Thread μ ρ) : World T μ ρ :=
  { w with threads := Function.update w.threads i thread }

/- Run a macro: its mutex call, then the rest of the program. -/
def runMacro
    (w : World T μ ρ)
    (i : T)
    (call : MutexCall)
    (inside : Bool)
    (rest : Prog μ ρ) : Option (World T μ ρ) := do
  let locked ← mutexAfter call w.locked
  return { w with locked := locked }.setThread i
    { (w.threads i).counting call with
      prog := some rest
      inside := inside }

/- One atomic step of a thread. -/
def runThread
    (macros : Macros)
    (w : World T μ ρ)
    (i : T) : Option (World T μ ρ) :=
  match (w.threads i).prog with
  | none => none
  | some (.enter rest) => w.runMacro i macros.enter true rest
  | some (.exit rest) => w.runMacro i macros.exit false rest
  | some (.act update rest) => do
      let memory ← update w.memory
      return { w with memory := memory }.setThread i
        { w.threads i with prog := some (rest w.memory) }
  | some (.ret _) =>
      some ({ w with
        returned :=
          ((w.threads i).acquired, (w.threads i).released) ::
            w.returned }.setThread i Thread.idle)

end World

/- The threads as a system, over the code of the operations. -/
def system
    (macros : Macros)
    (code : κ → Prog μ ρ)
    (memory : μ) :
    System (World T μ ρ) (Label T κ) where
  init :=
    { locked := false
      memory := memory
      threads := fun _ => Thread.idle
      returned := [] }
  step w label :=
    match label with
    | .call i op =>
        match (w.threads i).prog with
        | some _ => none
        | none =>
            some (w.setThread i
              { (Thread.idle : Thread μ ρ) with
                prog := some (code op) })
    | .run i => w.runThread macros i

end LockedProgram

------------------------------------------------------------
-- A Program Alone
------------------------------------------------------------

namespace LockedProgram

open Transition

namespace Prog

variable {μ ρ σ : Type}

/- What a program returns and leaves when it runs alone. -/
def run : Prog μ ρ → μ → Option (ρ × μ)
| .enter rest, m => rest.run m
| .exit rest, m => rest.run m
| .act update rest, m =>
    match update m with
    | none => none
    | some m' => (rest m).run m'
| .ret result, m => some (result, m)

/- Go on with a program that depends on the result. -/
def andThen : Prog μ ρ → (ρ → Prog μ σ) → Prog μ σ
| .enter rest, next => .enter (rest.andThen next)
| .exit rest, next => .exit (rest.andThen next)
| .act update rest, next =>
    .act update (fun m => (rest m).andThen next)
| .ret result, next => next result

theorem run_andThen
    (p : Prog μ ρ)
    (next : ρ → Prog μ σ)
    (m : μ) :
    (p.andThen next).run m =
      (p.run m).bind fun out => (next out.1).run out.2 := by
  induction p generalizing m with
  | enter rest ih => exact ih m
  | exit rest ih => exact ih m
  | act update rest ih =>
      rw [andThen, run, run]
      cases update m with
      | none => rfl
      | some m' => exact ih m m'
  | ret result => rfl

end Prog

variable {T κ μ ρ : Type} [DecidableEq T]
variable {macros : Macros} {code : κ → Prog μ ρ} {memory : μ}

/-
  Some steps of thread `i` alone bring it to return `result`
  from the memory `m`.
-/
def ReturnsAlone
    (S : System (World T μ ρ) (Label T κ))
    (w : World T μ ρ)
    (i : T)
    (result : ρ)
    (m : μ) : Prop :=
  ∃ n w',
    S.exec w (List.replicate n (.run i)) = some w' ∧
      w'.memory = m ∧
      (w'.threads i).prog = some (.ret result) ∧
      ∀ j, j ≠ i → w'.threads j = w.threads j

theorem ReturnsAlone.of_step
    {S : System (World T μ ρ) (Label T κ)}
    {w v : World T μ ρ}
    {i : T}
    {thread : Thread μ ρ}
    {result : ρ}
    {m : μ}
    (hStep : S.step w (.run i) = some (v.setThread i thread))
    (hThreads : v.threads = w.threads)
    (hRest : ReturnsAlone S (v.setThread i thread) i result m) :
    ReturnsAlone S w i result m := by
  rcases hRest with ⟨n, w', hExec, hMemory, hRet, hOthers⟩
  refine ⟨n + 1, w', ?_, hMemory, hRet, ?_⟩
  · rw [List.replicate_succ, System.exec_cons, hStep]
    exact hExec
  · intro j hOther
    rw [hOthers j hOther, ← hThreads]
    exact Function.update_of_ne hOther _ _

/-
  Under macros that only unlock, a thread that is scheduled
  alone does what its program does.
-/
theorem returnsAlone_of_run
    (hEnter : macros.enter = .unlock)
    (hExit : macros.exit = .unlock)
    {p : Prog μ ρ}
    {w : World T μ ρ}
    {i : T}
    (hProg : (w.threads i).prog = some p)
    {result : ρ}
    {m : μ}
    (hRun : p.run w.memory = some (result, m)) :
    ReturnsAlone (system macros code memory) w i result m := by
  induction p generalizing w with
  | enter rest ih =>
      rw [Prog.run] at hRun
      have hStep :
          (system macros code memory).step w (.run i) =
            some ({ w with locked := false }.setThread i
              { (w.threads i).counting .unlock with
                prog := some rest
                inside := true }) := by
        simp only [system, World.runThread, hProg, hEnter]
        rfl
      apply ReturnsAlone.of_step hStep rfl
      exact ih (by simp [World.setThread]) hRun
  | exit rest ih =>
      rw [Prog.run] at hRun
      have hStep :
          (system macros code memory).step w (.run i) =
            some ({ w with locked := false }.setThread i
              { (w.threads i).counting .unlock with
                prog := some rest
                inside := false }) := by
        simp only [system, World.runThread, hProg, hExit]
        rfl
      apply ReturnsAlone.of_step hStep rfl
      exact ih (by simp [World.setThread]) hRun
  | act update rest ih =>
      rw [Prog.run] at hRun
      cases hUpdate : update w.memory with
      | none => simp [hUpdate] at hRun
      | some m' =>
          rw [hUpdate] at hRun
          have hStep :
              (system macros code memory).step w (.run i) =
                some ({ w with memory := m' }.setThread i
                  { w.threads i with
                    prog := some (rest w.memory) }) := by
            simp only [system, World.runThread, hProg, hUpdate]
            rfl
          apply ReturnsAlone.of_step hStep rfl
          exact ih w.memory (by simp [World.setThread]) hRun
  | ret value =>
      cases hRun
      exact ⟨0, w, rfl, rfl, hProg, fun _ _ => rfl⟩

end LockedProgram

------------------------------------------------------------
-- Mutual Exclusion and Balance
------------------------------------------------------------

namespace LockedProgram

open Transition

variable {T κ μ ρ : Type} [DecidableEq T]

namespace World

/- At most one thread is between entry and exit. -/
def Exclusive (w : World T μ ρ) : Prop :=
  ∀ i j,
    (w.threads i).inside = true →
      (w.threads j).inside = true → i = j

/-
  Every operation that has returned acquired the mutex once
  and released it once.
-/
def Balanced (w : World T μ ρ) : Prop :=
  ∀ calls ∈ w.returned, calls = (1, 1)

/-
  A step that neither returns from an operation nor enters a
  critical section while another thread is inside one.
-/
def Guarded
    (w : World T μ ρ) : Label T κ → Prop
| .call _ _ => True
| .run i =>
    match (w.threads i).prog with
    | some (.enter _) =>
        ∀ j, j ≠ i → (w.threads j).inside = false
    | some (.ret _) => False
    | _ => True

/- No operation in progress has acquired the mutex. -/
def NeverAcquired (w : World T μ ρ) : Prop :=
  ∀ i, (w.threads i).acquired = 0

/- A thread that does not enter keeps exclusion. -/
theorem Exclusive.setThread
    {w : World T μ ρ}
    {i : T}
    {thread : Thread μ ρ}
    (hExclusive : w.Exclusive)
    (hInside :
      thread.inside = true → (w.threads i).inside = true) :
    (w.setThread i thread).Exclusive := by
  have hOld :
      ∀ j, ((w.setThread i thread).threads j).inside = true →
        (w.threads j).inside = true := by
    intro j hNew
    by_cases hSame : j = i
    · subst hSame
      simp only [World.setThread,
        Function.update_self] at hNew
      exact hInside hNew
    · simpa [World.setThread, hSame] using hNew
  intro j k hj hk
  exact hExclusive j k (hOld j hj) (hOld k hk)

/- Entering keeps exclusion when nobody else is inside. -/
theorem exclusive_setThread_iff
    {w : World T μ ρ}
    {i : T}
    {thread : Thread μ ρ}
    (hInside : thread.inside = true) :
    (w.setThread i thread).Exclusive ↔
      ∀ j, j ≠ i → (w.threads j).inside = false := by
  constructor
  · intro hExclusive j hOther
    by_contra hNot
    apply hOther
    apply hExclusive
    · simpa [World.setThread, hOther] using hNot
    · simpa [World.setThread] using hInside
  · intro hAlone j k hj hk
    have hOnly :
        ∀ l, ((w.setThread i thread).threads l).inside = true →
          l = i := by
      intro l hl
      by_contra hOther
      have hOut := hAlone l hOther
      simp only [World.setThread,
        Function.update_of_ne hOther] at hl
      rw [hOut] at hl
      exact absurd hl (by decide)
    rw [hOnly j hj, hOnly k hk]

theorem NeverAcquired.setThread
    {w : World T μ ρ}
    {i : T}
    {thread : Thread μ ρ}
    (hNever : w.NeverAcquired)
    (hThread : thread.acquired = 0) :
    (w.setThread i thread).NeverAcquired := by
  intro j
  by_cases hSame : j = i
  · subst hSame
    simpa [World.setThread] using hThread
  · simpa [World.setThread, hSame] using hNever j

end World

end LockedProgram

------------------------------------------------------------
-- Macros That Never Lock
------------------------------------------------------------

namespace LockedProgram

open Transition

variable {T κ μ ρ : Type} [DecidableEq T]
variable {macros : Macros} {code : κ → Prog μ ρ} {memory : μ}

/- Macros that only unlock never acquire the mutex. -/
theorem neverAcquired_step
    (hEnter : macros.enter = .unlock)
    (hExit : macros.exit = .unlock)
    {w w' : World T μ ρ}
    {label : Label T κ}
    (hNever : w.NeverAcquired)
    (hStep :
      (system macros code memory).step w label = some w') :
    w'.NeverAcquired := by
  cases label with
  | call i op =>
      cases hProg : (w.threads i).prog with
      | some prog => simp [system, hProg] at hStep
      | none =>
          simp only [system, hProg, Option.some.injEq] at hStep
          rw [← hStep]
          exact hNever.setThread rfl
  | run i =>
      simp only [system, World.runThread] at hStep
      cases hProg : (w.threads i).prog with
      | none => simp [hProg] at hStep
      | some prog =>
          cases prog with
          | enter rest =>
              simp only [hProg, World.runMacro, hEnter,
                mutexAfter, Option.bind_eq_bind,
                Option.bind_some, Option.pure_def,
                Option.some.injEq] at hStep
              rw [← hStep]
              exact World.NeverAcquired.setThread hNever
                (hNever i)
          | exit rest =>
              simp only [hProg, World.runMacro, hExit,
                mutexAfter, Option.bind_eq_bind,
                Option.bind_some, Option.pure_def,
                Option.some.injEq] at hStep
              rw [← hStep]
              exact World.NeverAcquired.setThread hNever
                (hNever i)
          | act update rest =>
              simp only [hProg, Option.bind_eq_bind,
                Option.bind_eq_some_iff, Option.pure_def,
                Option.some.injEq] at hStep
              rcases hStep with ⟨m, -, hEq⟩
              rw [← hEq]
              exact World.NeverAcquired.setThread hNever
                (hNever i)
          | ret result =>
              simp only [hProg, Option.some.injEq] at hStep
              rw [← hStep]
              exact World.NeverAcquired.setThread hNever rfl

/-
  The step lemma: under macros that only unlock, a step
  keeps exclusion and balance exactly when it is guarded.
-/
theorem exclusive_and_balanced_step_iff
    (hEnter : macros.enter = .unlock)
    (hExit : macros.exit = .unlock)
    {w w' : World T μ ρ}
    {label : Label T κ}
    (hNever : w.NeverAcquired)
    (hSafe : w.Exclusive ∧ w.Balanced)
    (hStep :
      (system macros code memory).step w label = some w') :
    w'.Exclusive ∧ w'.Balanced ↔ w.Guarded label := by
  rcases hSafe with ⟨hExclusive, hBalanced⟩
  cases label with
  | call i op =>
      cases hProg : (w.threads i).prog with
      | some prog => simp [system, hProg] at hStep
      | none =>
          simp only [system, hProg, Option.some.injEq] at hStep
          rw [← hStep]
          have hKeep :
              (w.setThread i
                { (Thread.idle : Thread μ ρ) with
                  prog := some (code op) }).Exclusive :=
            hExclusive.setThread
              (fun hIn => absurd hIn (by simp [Thread.idle]))
          exact iff_of_true ⟨hKeep, hBalanced⟩ trivial
  | run i =>
      simp only [system, World.runThread] at hStep
      simp only [World.Guarded]
      cases hProg : (w.threads i).prog with
      | none => simp [hProg] at hStep
      | some prog =>
          cases prog with
          | enter rest =>
              simp only [hProg, World.runMacro, hEnter,
                mutexAfter, Option.bind_eq_bind,
                Option.bind_some, Option.pure_def,
                Option.some.injEq] at hStep
              rw [← hStep, World.exclusive_setThread_iff rfl]
              exact and_iff_left hBalanced
          | exit rest =>
              simp only [hProg, World.runMacro, hExit,
                mutexAfter, Option.bind_eq_bind,
                Option.bind_some, Option.pure_def,
                Option.some.injEq] at hStep
              rw [← hStep]
              refine iff_of_true ⟨?_, hBalanced⟩ trivial
              exact World.Exclusive.setThread hExclusive
                (fun hIn => absurd hIn (by simp))
          | act update rest =>
              simp only [hProg, Option.bind_eq_bind,
                Option.bind_eq_some_iff, Option.pure_def,
                Option.some.injEq] at hStep
              rcases hStep with ⟨m, -, hEq⟩
              rw [← hEq]
              refine iff_of_true ⟨?_, hBalanced⟩ trivial
              exact World.Exclusive.setThread hExclusive
                (fun hIn => hIn)
          | ret result =>
              simp only [hProg, Option.some.injEq] at hStep
              rw [← hStep]
              refine iff_of_false ?_ (fun hFalse => hFalse)
              rintro ⟨-, hBad⟩
              have hCalls :=
                hBad ((w.threads i).acquired,
                  (w.threads i).released) (by
                    simp [World.setThread])
              rw [hNever i] at hCalls
              exact absurd hCalls (by simp)

/-
  Under macros that only unlock, a run keeps exclusion and
  balance in all its states exactly when every step of it is
  guarded.
-/
theorem always_iff_guarded
    (hEnter : macros.enter = .unlock)
    (hExit : macros.exit = .unlock)
    (labels : List (Label T κ))
    (hRun :
      ((system (T := T) macros code memory).exec
        (system macros code memory).init labels).isSome) :
    (system macros code memory).Always
        (fun w => w.Exclusive ∧ w.Balanced)
        (system macros code memory).init labels ↔
      (system macros code memory).Meets
        (fun (w : World T μ ρ) label => w.Guarded label)
        (system macros code memory).init labels := by
  refine (system macros code memory).always_iff_meets
    World.NeverAcquired
    (fun w l w' hInv _ hStep =>
      neverAcquired_step hEnter hExit hInv hStep)
    (fun w l w' hInv hSafe hStep =>
      exclusive_and_balanced_step_iff hEnter hExit hInv
        hSafe hStep) ?_ ?_ hRun
  · intro i
    rfl
  · refine ⟨?_, ?_⟩
    · intro i j hi
      exact absurd hi (by simp [system, Thread.idle])
    · intro calls hMem
      exact absurd hMem (by simp [system])

end LockedProgram

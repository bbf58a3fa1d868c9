import FzEvent.Recorder.GetEvent

/-
  Whether every completed gesture is pushed, once and whole.

  Main declarations:
    * `FzEvent.Delivered`
    * `RecorderLoop.Settled` and `RecorderLoop.Pending`
    * `FzEvent.Undisturbed` and `exists_step`
    * `FzEvent.delivered_of_undisturbed`
-/

------------------------------------------------------------
-- The Delivery Property
------------------------------------------------------------

namespace FzEvent

/-
  As many packets as calls that returned `PARSE_END`, none of
  them empty, and each with the entries added since the
  `PARSE_END` before.
-/
structure Delivered (s : RecorderLoop) : Prop where
  length_eq : s.pushed.length = s.gestures.length
  count_pos : ∀ ei ∈ s.pushed, 1 ≤ ei.count
  entries_eq : s.pushed.map EventInfo.entries = s.gestures

/-
  The condition on a step. A device is read only while no
  completed gesture waits in the buffer, inside the slot
  table; an event that completes a gesture comes from a device
  with a number and is not the reserved key 0 on an empty
  buffer; and an iteration that finds the pointer set has a
  gesture to push.
-/
def Undisturbed
    (s : RecorderLoop) : LoopStep → Prop
| .read name event =>
    (s.evt = true → s.parser.ei.count = 0) ∧
      s.parser.InBounds event ∧
        (s.parser.Completes event →
          (devIdOf? name).isSome ∧
            (event.code = synReport →
              s.parser.ei.count ≠ 0))
| .finish => s.evt = true → s.parser.ei.count ≠ 0

instance (s : RecorderLoop) (l : LoopStep) :
    Decidable (Undisturbed s l) := by
  cases l <;> unfold Undisturbed <;> infer_instance

end FzEvent

------------------------------------------------------------
-- Settled and Pending States
------------------------------------------------------------

namespace FzEvent

namespace RecorderLoop

/- No completed gesture waits in the buffer. -/
structure Settled (s : RecorderLoop) : Prop where
  count_of_evt : s.evt = true → s.parser.ei.count = 0
  gestures_eq :
    s.gestures = s.pushed.map EventInfo.entries
  since_eq : s.since = s.parser.ei.entries
  count_pos : ∀ ei ∈ s.pushed, 1 ≤ ei.count

/- The last completed gesture waits in the buffer. -/
structure Pending (s : RecorderLoop) : Prop where
  evt_eq : s.evt = true
  count_ne : s.parser.ei.count ≠ 0
  gestures_eq :
    s.gestures =
      s.pushed.map EventInfo.entries ++ [s.parser.ei.entries]
  since_eq : s.since = []
  count_pos : ∀ ei ∈ s.pushed, 1 ≤ ei.count

theorem settled_init : init.Settled where
  count_of_evt := by simp [init]
  gestures_eq := rfl
  since_eq := rfl
  count_pos := by simp [init]

theorem delivered_of_settled
    {s : RecorderLoop}
    (hSettled : s.Settled) :
    Delivered s where
  length_eq := by rw [hSettled.gestures_eq, List.length_map]
  count_pos := hSettled.count_pos
  entries_eq := hSettled.gestures_eq.symm

/-
  A device is read in a settled state: the state stays
  settled, or the event completes a gesture.
-/
theorem exists_getEventRound
    {s : RecorderLoop}
    {name : List Char}
    {event : InputEvent}
    (hSettled : s.Settled)
    (hUndisturbed : Undisturbed s (.read name event)) :
    ∃ t,
      s.getEventRound name event = some t ∧
        (t.Settled ∨ t.Pending) := by
  rcases hUndisturbed with ⟨hWaits, hInBounds, hCompletes⟩
  rcases Parser.exists_parseEvent hInBounds with
    ⟨ret, parser, hParse, hEnd⟩
  have hEntries := entries_eq_append_added hParse
  have hSince :
      s.since ++ added s.parser parser =
        parser.ei.entries := by
    rw [hSettled.since_eq, hEntries]
  by_cases hRet : ret = .parseEnd
  · subst hRet
    rcases hCompletes (hEnd.mp rfl) with ⟨hName, hReport⟩
    rcases Option.isSome_iff_exists.mp hName with ⟨devId, hDevId⟩
    have hCount :=
      Parser.count_ne_zero_of_parseEnd hParse hReport
    refine ⟨_, getEventRound_of_parseEnd hParse hDevId,
      Or.inr ?_⟩
    refine ⟨rfl, hCount, ?_, rfl, hSettled.count_pos⟩
    simp only [hSettled.gestures_eq, hSince]
    rfl
  · refine ⟨_, getEventRound_of_ne hParse hRet name,
      Or.inl ?_⟩
    refine ⟨?_, hSettled.gestures_eq, hSince,
      hSettled.count_pos⟩
    intro hEvt
    cases hEvt

/- The rest of an iteration settles the state. -/
theorem exists_finish
    {s : RecorderLoop}
    (hState : s.Settled ∨ s.Pending)
    (hUndisturbed : Undisturbed s .finish) :
    ∃ t, s.finish = some t ∧ t.Settled := by
  rcases hState with hSettled | hPending
  · have hEvt : s.evt = false := by
      by_contra hNot
      have hTrue : s.evt = true := by simpa using hNot
      exact hUndisturbed hTrue (hSettled.count_of_evt hTrue)
    exact ⟨s, finish_of_not_evt hEvt, hSettled⟩
  · refine ⟨_,
      finish_of_evt hPending.evt_eq hPending.count_ne, ?_⟩
    refine ⟨fun _ => rfl, ?_, hPending.since_eq, ?_⟩
    · simp only [hPending.gestures_eq, List.map_append]
      rfl
    · intro ei hMem
      rcases List.mem_append.mp hMem with hOld | hNew
      · exact hPending.count_pos ei hOld
      · rw [List.mem_singleton] at hNew
        subst hNew
        exact Nat.one_le_iff_ne_zero.mpr hPending.count_ne

/- The step lemma. -/
theorem exists_step
    {s : RecorderLoop}
    {l : LoopStep}
    (hState : s.Settled ∨ s.Pending)
    (hUndisturbed : Undisturbed s l) :
    ∃ t,
      recorderLoop.step s l = some t ∧
        (t.Settled ∨ t.Pending) := by
  cases l with
  | read name event =>
      have hSettled : s.Settled := by
        rcases hState with hSettled | hPending
        · exact hSettled
        · exact absurd (hUndisturbed.1 hPending.evt_eq)
            hPending.count_ne
      exact exists_getEventRound hSettled hUndisturbed
  | finish =>
      rcases exists_finish hState hUndisturbed with
        ⟨t, hStep, hSettled⟩
      exact ⟨t, hStep, Or.inl hSettled⟩

end RecorderLoop

end FzEvent

------------------------------------------------------------
-- Whole Runs
------------------------------------------------------------

namespace FzEvent

open Transition

/- Every step of the iterations meets the condition. -/
def UndisturbedRun
    (polls : List (List (List Char × InputEvent))) : Prop :=
  recorderLoop.Meets Undisturbed recorderLoop.init
    (iterations polls)

instance (polls : List (List (List Char × InputEvent))) :
    Decidable (UndisturbedRun polls) :=
  System.decidableMeets _ _ _ _

/- An iteration that meets the condition settles the state. -/
theorem exists_exec_iteration
    {s : RecorderLoop}
    (hSettled : s.Settled)
    {reads : List (List Char × InputEvent)}
    (hMeets :
      recorderLoop.Meets Undisturbed s (iteration reads)) :
    ∃ t,
      recorderLoop.exec s (iteration reads) = some t ∧
        t.Settled := by
  unfold iteration at hMeets
  rw [System.meets_append_iff] at hMeets
  rcases hMeets with ⟨hReads, hFinish⟩
  rcases recorderLoop.exec_isSome_of_meets
        (fun _ _ hInv hCond =>
          RecorderLoop.exists_step hInv hCond)
        (Or.inl hSettled) hReads with
    ⟨mid, hRun, hState⟩
  have hLast :=
    ((recorderLoop.meets_cons_iff _ _ _ _).mp
      (hFinish mid hRun)).1
  rcases RecorderLoop.exists_finish hState hLast with
    ⟨t, hStep, hDone⟩
  refine ⟨t, ?_, hDone⟩
  rw [iteration, System.exec_append, hRun, Option.bind_some,
    System.exec_cons]
  exact Option.bind_eq_some_iff.mpr ⟨t, hStep, rfl⟩

/- So do several iterations. -/
theorem exists_exec_iterations
    {s : RecorderLoop}
    (hSettled : s.Settled)
    {polls : List (List (List Char × InputEvent))}
    (hMeets :
      recorderLoop.Meets Undisturbed s (iterations polls)) :
    ∃ t,
      recorderLoop.exec s (iterations polls) = some t ∧
        t.Settled := by
  induction polls generalizing s with
  | nil => exact ⟨s, rfl, hSettled⟩
  | cons reads polls ih =>
      rw [iterations, List.flatMap_cons,
        System.meets_append_iff] at hMeets
      rcases hMeets with ⟨hFirst, hRest⟩
      rcases exists_exec_iteration hSettled hFirst with
        ⟨mid, hRun, hMid⟩
      rcases ih hMid (hRest mid hRun) with ⟨t, hTail, hDone⟩
      refine ⟨t, ?_, hDone⟩
      rw [iterations, List.flatMap_cons, System.exec_append,
        hRun]
      exact hTail

/-
  In a run whose steps all meet the condition the recorder
  does not fault, and after every iteration each completed
  gesture has been pushed once and whole.
-/
theorem delivered_of_undisturbed
    (polls : List (List (List Char × InputEvent)))
    (hRun : UndisturbedRun polls)
    (n : Nat) :
    ∃ s,
      recorderLoop.exec recorderLoop.init
          (iterations (polls.take n)) = some s ∧
        Delivered s := by
  have hSplit :
      iterations polls =
        iterations (polls.take n) ++
          iterations (polls.drop n) := by
    rw [iterations, iterations, iterations,
      ← List.flatMap_append, List.take_append_drop]
  unfold UndisturbedRun at hRun
  rw [hSplit, System.meets_append_iff] at hRun
  rcases exists_exec_iterations RecorderLoop.settled_init hRun.1 with
    ⟨s, hExec, hSettled⟩
  exact ⟨s, hExec, RecorderLoop.delivered_of_settled hSettled⟩

/- The power key goes down and up, each with its report. -/
def powerKey : List (List (List Char × InputEvent)) :=
  [[(eventDevice '0', ⟨⟨1, 0⟩, evKey, 116, 1⟩)],
    [(eventDevice '0', .report)], [],
    [(eventDevice '0', ⟨⟨2, 0⟩, evKey, 116, 0⟩)],
    [(eventDevice '0', .report)]]

theorem delivered_of_undisturbed_powerKey :
    ∃ s,
      recorderLoop.exec recorderLoop.init
          (iterations (powerKey.take 5)) = some s ∧
        Delivered s :=
  delivered_of_undisturbed powerKey (by decide) 5

/-
  A key and, in the same poll, a report of another device:
  the report clears the pointer before the packet is pushed.
-/
def keyAndReport : List (List (List Char × InputEvent)) :=
  [[(eventDevice '1', ⟨⟨1, 0⟩, evKey, 116, 1⟩),
    (eventDevice '2', .report)]]

theorem not_delivered_of_exec :
    ¬ ∀ polls s,
      recorderLoop.exec recorderLoop.init
          (iterations polls) = some s →
        Delivered s := by
  intro hAll
  have hLost :
      (recorderLoop.exec recorderLoop.init
          (iterations keyAndReport)).map
        (fun s => (s.pushed.length, s.gestures.length)) =
          some (0, 1) := by
    decide
  rcases Option.map_eq_some_iff.mp hLost with ⟨s, hRun, hCounts⟩
  have hLength := (hAll keyAndReport s hRun).length_eq
  rw [Prod.mk.injEq] at hCounts
  rw [hCounts.1, hCounts.2] at hLength
  exact absurd hLength (by decide)

end FzEvent

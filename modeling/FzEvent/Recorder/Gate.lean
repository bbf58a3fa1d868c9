import FzEvent.Recorder.GetEvent
import Mathlib.Data.Fintype.Basic
import Mathlib.Logic.Function.Basic

/-
  The mode bit `RUNNING_EVENT_RECORD` as a gate in front of
  the recorder thread.

  The bit is looked at once per iteration. The devices stay
  open, so the kernel queues the events that occur while the
  bit is clear, and `event_info` and the slot table outlive a
  stop message.

  Main declarations:
    * `FzEvent.Stamped`, `FzEvent.Source`
    * `FzEvent.GatedRecorder`, `FzEvent.GateStep` and
      `FzEvent.gatedRecorder`
    * `FzEvent.ReadWhileOn` and `GatedRecorder.Gated`
    * `GatedRecorder.Fresh`
    * `FzEvent.gated_and_withinInterval`
-/

------------------------------------------------------------
-- The Gated Recorder
------------------------------------------------------------

namespace FzEvent

/-
  A queued event, with the number of the interval between a
  start and a stop message in which it occurred, if any.
-/
structure Stamped where
  event : InputEvent
  occurredIn : Option Nat
deriving DecidableEq

/- An entry, and the event that was read when it was added. -/
structure Source where
  entry : Entry
  read : Stamped
deriving DecidableEq

/-
  The mode bit, the number of intervals so far, whether an
  iteration is in progress that has passed the check of the
  bit, the unread events of the opened devices and the
  recorder thread. The last two fields are observations: the
  entries of `event_info` and of each pushed packet with the
  events they stem from.
-/
structure GatedRecorder (D : Type) where
  recordMode : Bool
  intervals : Nat
  iterating : Bool
  unread : D → List Stamped
  loop : RecorderLoop
  sources : List Source
  packets : List (List Source)

/-
  A message is handled, an event occurs on a device, the
  kernel drops the oldest event of a device, the recorder
  thread passes the check of the bit, reads a device, or ends
  its iteration.
-/
inductive GateStep (D : Type)
| start
| stop
| occur (dev : D) (event : InputEvent)
| drop (dev : D)
| check
| read (dev : D)
| finish
deriving DecidableEq

namespace GatedRecorder

variable {D : Type} [DecidableEq D]

def init : GatedRecorder D where
  recordMode := false
  intervals := 0
  iterating := false
  unread := fun _ => []
  loop := RecorderLoop.init
  sources := []
  packets := []

/- The stamp of an event that occurs now. -/
def stamp
    (s : GatedRecorder D)
    (event : InputEvent) : Stamped :=
  ⟨event, if s.recordMode then some s.intervals else none⟩

/- Reading the oldest event of a device. -/
def readDevice
    (names : D → List Char)
    (s : GatedRecorder D)
    (dev : D) : Option (GatedRecorder D) :=
  match s.iterating, s.unread dev with
  | true, x :: rest =>
      (s.loop.getEventRound (names dev) x.event).map fun loop =>
        { s with
          unread := Function.update s.unread dev rest
          loop := loop
          sources :=
            s.sources ++
              (RecorderLoop.added s.loop.parser
                loop.parser).map (fun entry => ⟨entry, x⟩) }
  | _, _ => none

/- The end of an iteration, with the push if there is one. -/
def finishIteration
    (s : GatedRecorder D) : Option (GatedRecorder D) :=
  if s.iterating then
    s.loop.finish.map fun loop =>
      if s.loop.evt then
        { s with
          iterating := false
          loop := loop
          sources := []
          packets := s.packets ++ [s.sources] }
      else
        { s with iterating := false, loop := loop }
  else
    none

/- What a read is made of. -/
theorem of_readDevice
    {names : D → List Char}
    {s t : GatedRecorder D}
    {dev : D}
    (hRead : s.readDevice names dev = some t) :
    ∃ x rest loop,
      s.iterating = true ∧ s.unread dev = x :: rest ∧
      s.loop.getEventRound (names dev) x.event = some loop ∧
      t = { s with
        unread := Function.update s.unread dev rest
        loop := loop
        sources :=
          s.sources ++
            (RecorderLoop.added s.loop.parser
              loop.parser).map (fun entry => ⟨entry, x⟩) } := by
  unfold readDevice at hRead
  split at hRead
  · next x rest hIterating hUnread =>
    rcases Option.map_eq_some_iff.mp hRead with
      ⟨loop, hRound, hResult⟩
    exact ⟨x, rest, loop, hIterating, hUnread, hRound,
      hResult.symm⟩
  · cases hRead

/- What the end of an iteration is made of. -/
omit [DecidableEq D] in
theorem of_finishIteration
    {s t : GatedRecorder D}
    (hFinish : s.finishIteration = some t) :
    ∃ loop,
      s.loop.finish = some loop ∧
      ((s.loop.evt = true ∧
          t = { s with
            iterating := false
            loop := loop
            sources := []
            packets := s.packets ++ [s.sources] }) ∨
        (s.loop.evt = false ∧
          t = { s with iterating := false, loop := loop })) := by
  unfold finishIteration at hFinish
  split at hFinish
  · rcases Option.map_eq_some_iff.mp hFinish with
      ⟨loop, hLoop, hResult⟩
    refine ⟨loop, hLoop, ?_⟩
    cases hEvt : s.loop.evt with
    | true =>
        rw [hEvt, if_pos rfl] at hResult
        exact Or.inl ⟨rfl, hResult.symm⟩
    | false =>
        rw [hEvt, if_neg (by simp)] at hResult
        exact Or.inr ⟨rfl, hResult.symm⟩
  · cases hFinish

/-
  One step. A start message while the bit is set, or a stop
  message while it is clear, changes nothing.
-/
def step
    (names : D → List Char)
    (s : GatedRecorder D) :
    GateStep D → Option (GatedRecorder D)
| .start =>
    if s.recordMode then
      some s
    else
      some { s with
        recordMode := true
        intervals := s.intervals + 1 }
| .stop => some { s with recordMode := false }
| .occur dev event =>
    some { s with
      unread :=
        Function.update s.unread dev
          (s.unread dev ++ [s.stamp event]) }
| .drop dev =>
    some { s with
      unread :=
        Function.update s.unread dev (s.unread dev).tail }
| .check =>
    if s.iterating = false ∧ s.recordMode = true then
      some { s with iterating := true }
    else
      none
| .read dev => s.readDevice names dev
| .finish => s.finishIteration

end GatedRecorder

open Transition in
/- The recorder behind its gate, for devices of given names. -/
def gatedRecorder
    {D : Type}
    [DecidableEq D]
    (names : D → List Char) :
    System (GatedRecorder D) (GateStep D) where
  init := GatedRecorder.init
  step := GatedRecorder.step names

end FzEvent

------------------------------------------------------------
-- What the Gate Ensures
------------------------------------------------------------

namespace FzEvent

open Transition

variable {D : Type} [DecidableEq D]
variable {names : D → List Char}

/-
  Behind the steps an iteration is in progress, and the bit
  was set when the recorder passed its check.
-/
def CheckedOn
    (names : D → List Char)
    (steps : List (GateStep D)) : Prop :=
  ∃ before inside s,
    steps = before ++ .check :: inside ∧
      .finish ∉ inside ∧
      (gatedRecorder names).exec (gatedRecorder names).init
        before = some s ∧
      s.recordMode = true

/- The event occurred on the device, and was stamped then. -/
def OccurredOn
    (names : D → List Char)
    (steps : List (GateStep D))
    (dev : D)
    (x : Stamped) : Prop :=
  ∃ before after s,
    steps = before ++ .occur dev x.event :: after ∧
      (gatedRecorder names).exec (gatedRecorder names).init
        before = some s ∧
      s.stamp x.event = x

/-
  One of the steps added the entry: it read the event, from a
  device on which the event had occurred, in an iteration that
  had found the bit set.
-/
def ReadWhileOn
    (names : D → List Char)
    (steps : List (GateStep D))
    (x : Source) : Prop :=
  ∃ before dev after s t,
    steps = before ++ .read dev :: after ∧
      (gatedRecorder names).exec (gatedRecorder names).init
        before = some s ∧
      s.step names (.read dev) = some t ∧
      (s.unread dev).head? = some x.read ∧
      x.entry ∈
        RecorderLoop.added s.loop.parser t.loop.parser ∧
      OccurredOn names before dev x.read ∧
      CheckedOn names before

/- Steps behind a step change nothing of what led to it. -/
omit [DecidableEq D] in
theorem append_cons_append
    {before after steps : List (GateStep D)}
    {l : GateStep D}
    (hSplit : steps = before ++ l :: after)
    (more : List (GateStep D)) :
    steps ++ more = before ++ l :: (after ++ more) := by
  rw [hSplit, List.append_assoc, List.cons_append]

theorem CheckedOn.append
    {steps : List (GateStep D)}
    (hChecked : CheckedOn names steps)
    {l : GateStep D}
    (hInside : l ≠ .finish) :
    CheckedOn names (steps ++ [l]) := by
  rcases hChecked with ⟨before, inside, s, hSplit, hNone, hOn⟩
  refine ⟨before, inside ++ [l], s,
    append_cons_append hSplit [l], ?_, hOn⟩
  rw [List.mem_append, List.mem_singleton]
  rintro (hOld | hLast)
  · exact hNone hOld
  · exact hInside hLast.symm

theorem OccurredOn.append
    {steps : List (GateStep D)}
    {dev : D}
    {x : Stamped}
    (hOccurred : OccurredOn names steps dev x)
    (more : List (GateStep D)) :
    OccurredOn names (steps ++ more) dev x := by
  rcases hOccurred with ⟨before, after, s, hSplit, hRun⟩
  exact ⟨before, after ++ more, s,
    append_cons_append hSplit more, hRun⟩

theorem ReadWhileOn.append
    {steps : List (GateStep D)}
    {x : Source}
    (hRead : ReadWhileOn names steps x)
    (more : List (GateStep D)) :
    ReadWhileOn names (steps ++ more) x := by
  rcases hRead with ⟨before, dev, after, s, t, hSplit, hRun⟩
  exact ⟨before, dev, after ++ more, s, t,
    append_cons_append hSplit more, hRun⟩

namespace GatedRecorder

/-
  The sources are the entries of the buffer and of the pushed
  packets, and the steps read each while the bit was on.
-/
structure Gated
    (names : D → List Char)
    (steps : List (GateStep D))
    (s : GatedRecorder D) : Prop where
  entries_sources :
    s.sources.map Source.entry = s.loop.parser.ei.entries
  entries_packets :
    s.packets.map (List.map Source.entry) =
      s.loop.pushed.map EventInfo.entries
  checkedOn : s.iterating = true → CheckedOn names steps
  occurredOn :
    ∀ dev, ∀ x ∈ s.unread dev, OccurredOn names steps dev x
  read_sources :
    ∀ x ∈ s.sources, ReadWhileOn names steps x
  read_packets :
    ∀ p ∈ s.packets, ∀ x ∈ p, ReadWhileOn names steps x

theorem gated_init :
    (init : GatedRecorder D).Gated names [] where
  entries_sources := rfl
  entries_packets := rfl
  checkedOn := by simp [init]
  occurredOn := by simp [init]
  read_sources := by simp [init]
  read_packets := by simp [init]

variable {steps : List (GateStep D)}
variable {s t : GatedRecorder D}

/- A step that leaves the recorder alone. -/
theorem Gated.other
    (hGated : s.Gated names steps)
    {l : GateStep D}
    (hLoop : t.loop = s.loop)
    (hSources : t.sources = s.sources)
    (hPackets : t.packets = s.packets)
    (hChecked :
      t.iterating = true → CheckedOn names (steps ++ [l]))
    (hOccurred :
      ∀ dev, ∀ x ∈ t.unread dev,
        OccurredOn names (steps ++ [l]) dev x) :
    t.Gated names (steps ++ [l]) where
  entries_sources := by
    rw [hLoop, hSources]
    exact hGated.entries_sources
  entries_packets := by
    rw [hLoop, hPackets]
    exact hGated.entries_packets
  checkedOn := hChecked
  occurredOn := hOccurred
  read_sources := by
    rw [hSources]
    exact fun x hMem => (hGated.read_sources x hMem).append _
  read_packets := by
    rw [hPackets]
    exact fun p hPacket x hMem =>
      (hGated.read_packets p hPacket x hMem).append _

/- An event that occurs is stamped by this step. -/
theorem Gated.occur
    (hGated : s.Gated names steps)
    (hRun :
      (gatedRecorder names).exec (gatedRecorder names).init
        steps = some s)
    {dev : D}
    {event : InputEvent} :
    Gated names (steps ++ [.occur dev event])
      { s with
        unread :=
          Function.update s.unread dev
            (s.unread dev ++ [s.stamp event]) } := by
  apply hGated.other
  · rfl
  · rfl
  · rfl
  · exact fun hOn => (hGated.checkedOn hOn).append (by simp)
  · intro other x hMem
    by_cases hDev : other = dev
    · subst hDev
      simp only [Function.update_self, List.mem_append,
        List.mem_singleton] at hMem
      rcases hMem with hOld | rfl
      · exact (hGated.occurredOn other x hOld).append _
      · exact ⟨steps, [], s, rfl, hRun, rfl⟩
    · simp only [Function.update_of_ne hDev] at hMem
      exact (hGated.occurredOn other x hMem).append _

/- Events that are dropped leave fewer of them. -/
theorem Gated.drop
    (hGated : s.Gated names steps)
    {dev : D} :
    Gated names (steps ++ [.drop dev])
      { s with
        unread :=
          Function.update s.unread dev
            (s.unread dev).tail } := by
  apply hGated.other
  · rfl
  · rfl
  · rfl
  · exact fun hOn => (hGated.checkedOn hOn).append (by simp)
  · intro other x hMem
    by_cases hDev : other = dev
    · subst hDev
      simp only [Function.update_self] at hMem
      exact (hGated.occurredOn other x
        (List.mem_of_mem_tail hMem)).append _
    · simp only [Function.update_of_ne hDev] at hMem
      exact (hGated.occurredOn other x hMem).append _

/- What a read adds stems from this step. -/
theorem Gated.read
    (hGated : s.Gated names steps)
    (hRun :
      (gatedRecorder names).exec (gatedRecorder names).init
        steps = some s)
    {dev : D}
    (hRead : s.readDevice names dev = some t) :
    t.Gated names (steps ++ [.read dev]) := by
  rcases of_readDevice hRead with
    ⟨x, rest, loop, hIterating, hUnread, hRound, rfl⟩
  rcases RecorderLoop.of_getEventRound hRound with
    ⟨hEntries, hPushed⟩
  have hOccurred : OccurredOn names steps dev x := by
    apply hGated.occurredOn dev x
    rw [hUnread]
    exact List.mem_cons_self
  have hChecked := hGated.checkedOn hIterating
  refine ⟨?_, ?_, fun _ => hChecked.append (by simp), ?_, ?_,
    ?_⟩
  · rw [List.map_append, List.map_map, hGated.entries_sources,
      hEntries]
    exact congrArg _ (List.map_id _)
  · rw [hPushed]
    exact hGated.entries_packets
  · intro other y hMem
    apply OccurredOn.append
    apply hGated.occurredOn other y
    by_cases hDev : other = dev
    · subst hDev
      simp only [Function.update_self] at hMem
      rw [hUnread]
      exact List.mem_cons_of_mem x hMem
    · simpa only [Function.update_of_ne hDev] using hMem
  · intro y hMem
    rcases List.mem_append.mp hMem with hOld | hNew
    · exact (hGated.read_sources y hOld).append _
    · rcases List.mem_map.mp hNew with ⟨entry, hEntry, rfl⟩
      refine ⟨steps, dev, [], s, _, rfl, hRun, hRead, ?_, hEntry,
        hOccurred, hChecked⟩
      rw [hUnread]
      rfl
  · intro p hPacket y hMem
    exact (hGated.read_packets p hPacket y hMem).append _

/- A push hands the sources over with the entries. -/
theorem Gated.finish
    (hGated : s.Gated names steps)
    (hFinish : s.finishIteration = some t) :
    t.Gated names (steps ++ [.finish]) := by
  rcases of_finishIteration hFinish with ⟨loop, hLoop, hResult⟩
  rcases RecorderLoop.of_finish hLoop with
    ⟨hEvt, hEmpty, hPushed⟩ | ⟨hEvt, hSame⟩
  · rcases hResult with ⟨-, rfl⟩ | ⟨hNot, -⟩
    · refine ⟨hEmpty.symm, ?_, by simp, ?_, by simp, ?_⟩
      · rw [hPushed, List.map_append, List.map_append,
          hGated.entries_packets]
        simp [hGated.entries_sources]
      · exact fun dev x hMem =>
          (hGated.occurredOn dev x hMem).append _
      · intro p hMem x hSource
        apply ReadWhileOn.append
        rcases List.mem_append.mp hMem with hOld | hNew
        · exact hGated.read_packets p hOld x hSource
        · rw [List.mem_singleton.mp hNew] at hSource
          exact hGated.read_sources x hSource
    · rw [hEvt] at hNot
      cases hNot
  · rcases hResult with ⟨hYes, -⟩ | ⟨-, rfl⟩
    · rw [hEvt] at hYes
      cases hYes
    · apply hGated.other
      · exact hSame
      · rfl
      · rfl
      · simp
      · exact fun dev x hMem =>
          (hGated.occurredOn dev x hMem).append _

/- The step lemma for every run. -/
theorem Gated.step
    (hGated : s.Gated names steps)
    (hRun :
      (gatedRecorder names).exec (gatedRecorder names).init
        steps = some s)
    {l : GateStep D}
    (hStep : s.step names l = some t) :
    t.Gated names (steps ++ [l]) := by
  have hUnread :
      ∀ dev, ∀ x ∈ s.unread dev,
        OccurredOn names (steps ++ [l]) dev x :=
    fun dev x hMem => (hGated.occurredOn dev x hMem).append _
  cases l with
  | start =>
      have hOn :
          s.iterating = true →
            CheckedOn names (steps ++ [.start]) :=
        fun hOn => (hGated.checkedOn hOn).append (by simp)
      simp only [GatedRecorder.step] at hStep
      split at hStep <;> cases hStep
      · exact hGated.other rfl rfl rfl hOn hUnread
      · exact hGated.other rfl rfl rfl hOn hUnread
  | stop =>
      cases hStep
      exact hGated.other rfl rfl rfl
        (fun hOn => (hGated.checkedOn hOn).append (by simp))
        hUnread
  | occur dev event =>
      cases hStep
      exact hGated.occur hRun
  | drop dev =>
      cases hStep
      exact hGated.drop
  | check =>
      simp only [GatedRecorder.step] at hStep
      split at hStep
      · next hCheck =>
        cases hStep
        have hOn : CheckedOn names (steps ++ [.check]) :=
          ⟨steps, [], s, rfl, by simp, hRun, hCheck.2⟩
        exact hGated.other rfl rfl rfl (fun _ => hOn) hUnread
      · cases hStep
  | read dev => exact hGated.read hRun hStep
  | finish => exact hGated.finish hStep

/- The run lemma for every run. -/
theorem gated_of_exec
    (hRun :
      (gatedRecorder names).exec (gatedRecorder names).init
        steps = some s) :
    s.Gated names steps :=
  (gatedRecorder names).invariant_of_exec
    (fun steps s => s.Gated names steps) gated_init
    (fun _ _ _ _ hBefore hInv hStep => hInv.step hBefore hStep)
    hRun

end GatedRecorder

end FzEvent

------------------------------------------------------------
-- When the Gate Suffices
------------------------------------------------------------

namespace FzEvent

open Transition System

namespace GatedRecorder

variable {D : Type}

/-
  All entries of a packet stem from events that occurred in
  one and the same interval.
-/
def WithinInterval (s : GatedRecorder D) : Prop :=
  ∀ p ∈ s.packets, ∃ i, ∀ x ∈ p,
    x.read.occurredIn = some i

/-
  The condition under which the gate suffices: when an
  interval begins, no opened device has an unread event and
  `event_info` is empty; and no event occurs between a stop
  message and the end of the iteration in progress.
-/
def Drained
    (s : GatedRecorder D) : GateStep D → Prop
| .start =>
    s.recordMode = false →
      (∀ dev, s.unread dev = []) ∧
        s.loop.parser.ei.count = 0
| .occur _ _ => s.iterating = true → s.recordMode = true
| _ => True

instance [Fintype D] (s : GatedRecorder D) (l : GateStep D) :
    Decidable (s.Drained l) := by
  cases l <;> unfold Drained <;> infer_instance

/-
  What is unread while it can be read, and what the buffer
  and the packets hold, is from one interval each.
-/
structure Fresh (s : GatedRecorder D) : Prop where
  unread :
    s.recordMode = true ∨ s.iterating = true →
      ∀ dev, ∀ x ∈ s.unread dev,
        x.occurredIn = some s.intervals
  sources :
    ∀ x ∈ s.sources, x.read.occurredIn = some s.intervals
  packets : s.WithinInterval

theorem fresh_init : (init : GatedRecorder D).Fresh where
  unread := by simp [init]
  sources := by simp [init]
  packets := by simp [WithinInterval, init]

/- Events that occur while they can be read are of now. -/
theorem fresh_occur
    [DecidableEq D]
    {s : GatedRecorder D}
    {dev : D}
    {event : InputEvent}
    (hFresh : s.Fresh)
    (hDrained : s.Drained (.occur dev event)) :
    Fresh { s with
      unread :=
        Function.update s.unread dev
          (s.unread dev ++ [s.stamp event]) } := by
  refine ⟨?_, hFresh.sources, hFresh.packets⟩
  intro hReadable other x hMem
  have hMode : s.recordMode = true := by
    rcases hReadable with hMode | hIterating
    · exact hMode
    · exact hDrained hIterating
  by_cases hDev : other = dev
  · subst hDev
    simp only [Function.update_self, List.mem_append,
      List.mem_singleton] at hMem
    rcases hMem with hOld | rfl
    · exact hFresh.unread hReadable other x hOld
    · simp [stamp, hMode]
  · simp only [Function.update_of_ne hDev] at hMem
    exact hFresh.unread hReadable other x hMem

/- What is read is of the present interval. -/
theorem fresh_readDevice
    [DecidableEq D]
    {names : D → List Char}
    {s t : GatedRecorder D}
    {dev : D}
    (hFresh : s.Fresh)
    (hRead : s.readDevice names dev = some t) :
    t.Fresh := by
  rcases of_readDevice hRead with
    ⟨x, rest, loop, hIterating, hUnread, -, rfl⟩
  refine ⟨?_, ?_, hFresh.packets⟩
  · intro hReadable other y hMem
    by_cases hDev : other = dev
    · subst hDev
      simp only [Function.update_self] at hMem
      apply hFresh.unread hReadable other y
      rw [hUnread]
      exact List.mem_cons_of_mem _ hMem
    · simp only [Function.update_of_ne hDev] at hMem
      exact hFresh.unread hReadable other y hMem
  · intro y hMem
    rcases List.mem_append.mp hMem with hOld | hNew
    · exact hFresh.sources y hOld
    · rcases List.mem_map.mp hNew with ⟨entry, _, rfl⟩
      apply hFresh.unread (Or.inr hIterating) dev x
      rw [hUnread]
      exact List.mem_cons_self

/- A packet takes the interval of the buffer's entries. -/
theorem fresh_finishIteration
    {s t : GatedRecorder D}
    (hFresh : s.Fresh)
    (hFinish : s.finishIteration = some t) :
    t.Fresh := by
  rcases of_finishIteration hFinish with ⟨loop, hLoop, hResult⟩
  rcases hResult with ⟨-, rfl⟩ | ⟨-, rfl⟩
  · refine ⟨?_, by simp, ?_⟩
    · intro hReadable
      apply hFresh.unread
      exact Or.inl (by simpa using hReadable)
    · intro p hMem
      rcases List.mem_append.mp hMem with hOld | hNew
      · exact hFresh.packets p hOld
      · rw [List.mem_singleton.mp hNew]
        exact ⟨s.intervals, hFresh.sources⟩
  · refine ⟨?_, hFresh.sources, hFresh.packets⟩
    intro hReadable
    apply hFresh.unread
    exact Or.inl (by simpa using hReadable)

/- The step lemma under the condition. -/
theorem fresh_step
    [DecidableEq D]
    {names : D → List Char}
    {s t : GatedRecorder D}
    {l : GateStep D}
    (hSources :
      s.sources.map Source.entry = s.loop.parser.ei.entries)
    (hFresh : s.Fresh)
    (hDrained : s.Drained l)
    (hStep : s.step names l = some t) :
    t.Fresh := by
  cases l with
  | start =>
      simp only [step] at hStep
      split at hStep
      · cases hStep
        exact hFresh
      · next hMode =>
        cases hStep
        rcases hDrained (by simpa using hMode) with
          ⟨hUnread, hCount⟩
        have hNone : s.sources = [] := by
          apply List.eq_nil_of_length_eq_zero
          rw [← List.length_map Source.entry, hSources]
          exact hCount
        refine ⟨?_, ?_, hFresh.packets⟩
        · intro _ dev x hMem
          simp [hUnread dev] at hMem
        · intro x hMem
          simp [hNone] at hMem
  | stop =>
      cases hStep
      refine ⟨?_, hFresh.sources, hFresh.packets⟩
      intro hReadable
      apply hFresh.unread
      simpa using Or.inr hReadable
  | occur dev event =>
      cases hStep
      exact fresh_occur hFresh hDrained
  | drop dev =>
      cases hStep
      refine ⟨?_, hFresh.sources, hFresh.packets⟩
      intro hReadable other x hMem
      apply hFresh.unread hReadable other x
      by_cases hDev : other = dev
      · subst hDev
        simp only [Function.update_self] at hMem
        exact List.mem_of_mem_tail hMem
      · simpa only [Function.update_of_ne hDev] using hMem
  | check =>
      simp only [step] at hStep
      split at hStep
      · next hCheck =>
        cases hStep
        refine ⟨?_, hFresh.sources, hFresh.packets⟩
        intro _
        exact hFresh.unread (Or.inl hCheck.2)
      · cases hStep
  | read dev => exact fresh_readDevice hFresh hStep
  | finish => exact fresh_finishIteration hFresh hStep

/- The run lemma under the condition. -/
theorem fresh_of_meets
    [DecidableEq D]
    {names : D → List Char}
    {steps : List (GateStep D)}
    {s : GatedRecorder D}
    (hRun :
      (gatedRecorder names).exec (gatedRecorder names).init
        steps = some s)
    (hMeets :
      (gatedRecorder names).Meets Drained
        (gatedRecorder names).init steps) :
    s.Fresh := by
  refine (gatedRecorder names).invariant_of_exec
    (fun steps s =>
      (gatedRecorder names).Meets Drained
          (gatedRecorder names).init steps →
        s.Fresh)
    (fun _ => fresh_init) ?_ hRun hMeets
  intro before s l t hBefore hInv hStep hMeets
  rw [meets_append_iff] at hMeets
  have hDrained :=
    ((gatedRecorder names).meets_cons_iff _ _ _ _).mp
      (hMeets.2 s hBefore)
  exact fresh_step (gated_of_exec hBefore).entries_sources
    (hInv hMeets.1) hDrained.1 hStep

end GatedRecorder

end FzEvent

------------------------------------------------------------
-- Whole Runs
------------------------------------------------------------

namespace FzEvent

open Transition

/-
  In every run the entries of the pushed packets stem from
  events that an iteration read which had found the bit set.
  In a run that meets the condition, they stem from events of
  one interval for each packet.
-/
theorem gated_and_withinInterval
    {D : Type}
    [DecidableEq D]
    (names : D → List Char)
    (steps : List (GateStep D))
    (s : GatedRecorder D)
    (hRun :
      (gatedRecorder names).exec (gatedRecorder names).init
        steps = some s) :
    (s.packets.map (List.map Source.entry) =
        s.loop.pushed.map EventInfo.entries ∧
      ∀ p ∈ s.packets, ∀ x ∈ p, ReadWhileOn names steps x) ∧
    ((gatedRecorder names).Meets GatedRecorder.Drained
        (gatedRecorder names).init steps →
      s.WithinInterval) := by
  have hGated := GatedRecorder.gated_of_exec hRun
  refine ⟨⟨hGated.entries_packets, hGated.read_packets⟩, ?_⟩
  intro hMeets
  exact GatedRecorder.fresh_of_meets hRun hMeets |>.packets

/- A device that is the only one. -/
def soleDevice (_ : Fin 1) : List Char :=
  eventDevice '0'

/- The power key, pressed while recording. -/
def pressWhileOn : List (GateStep (Fin 1)) :=
  [.start, .occur 0 ⟨⟨1, 0⟩, evKey, 116, 1⟩, .check, .read 0,
    .finish, .occur 0 .report, .check, .read 0, .finish, .stop]

theorem gated_and_withinInterval_pressWhileOn :
    ∃ s,
      (gatedRecorder soleDevice).exec
          (gatedRecorder soleDevice).init pressWhileOn =
            some s ∧
        s.packets.map List.length = [1] ∧
        (∀ p ∈ s.packets, ∀ x ∈ p,
          ReadWhileOn soleDevice pressWhileOn x) ∧
        s.WithinInterval := by
  refine ⟨_, rfl, rfl, ?_⟩
  have hBoth :=
    gated_and_withinInterval soleDevice pressWhileOn _ rfl
  exact ⟨hBoth.1.2, hBoth.2 (by decide)⟩

/- The power key, pressed before recording starts. -/
def pressWhileOff : List (GateStep (Fin 1)) :=
  [.occur 0 ⟨⟨1, 0⟩, evKey, 116, 1⟩, .start, .check, .read 0,
    .finish]

theorem not_withinInterval_of_exec :
    ¬ ∀ (steps : List (GateStep (Fin 1)))
        (s : GatedRecorder (Fin 1)),
      (gatedRecorder soleDevice).exec
          (gatedRecorder soleDevice).init steps = some s →
        s.WithinInterval := by
  intro hAll
  have hPackets :
      ((gatedRecorder soleDevice).exec
          (gatedRecorder soleDevice).init pressWhileOff).map
        (fun s =>
          s.packets.map
            (List.map fun x => x.read.occurredIn)) =
          some [[none]] := by
    decide
  rcases Option.map_eq_some_iff.mp hPackets with ⟨s, hRun, hEq⟩
  have hWithin := hAll pressWhileOff s hRun
  rcases List.map_eq_singleton_iff.mp hEq with ⟨p, hOne, hReads⟩
  rcases List.map_eq_singleton_iff.mp hReads with
    ⟨x, hSource, hNone⟩
  rcases hWithin p (by simp [hOne]) with ⟨i, hSame⟩
  have hOccurred := hSame x (by simp [hSource])
  rw [hNone] at hOccurred
  cases hOccurred

end FzEvent

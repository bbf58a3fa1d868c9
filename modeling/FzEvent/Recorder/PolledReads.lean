import FzEvent.Recorder.PollTable

/-
  Which descriptors `get_event` reads.

  Between the poll and the reads, `read_notify` changes the
  table. An entry moves together with its `revents`, and a
  device that is opened takes over what its slot holds: the
  flag of the device that was last in the table when a
  removal gave the slot up.

  Main declarations:
    * `PollTable.getEvent`
    * `FzEvent.Handover`
    * `Handover.follows_calls`
    * `FzEvent.onlyPolledRead_iff`
-/

------------------------------------------------------------
-- The Reads
------------------------------------------------------------

namespace FzEvent

/- A `read` of `get_event`; no event is a short read. -/
structure DeviceRead where
  name : List Char
  fd : Int32
  event : Option InputEvent
deriving DecidableEq

namespace PollTable

/-
  The notices, handled if the poll reports them or the entry
  still says so.
-/
def handleNotices
    (dirname : List Char)
    (eventBuf : List UInt8)
    (errno : Int32)
    (calls : Nat → OpenCalls)
    (t : PollTable) : PollTable :=
  if t.ufds.head?.any PollFd.ready then
    (t.readNotify dirname eventBuf errno calls).2
  else
    t

/-
  The loop of `get_event` over the devices; `read` is by
  place. A short read ends it.
-/
def readLoop :
    List (List Char × PollFd) → (Nat → Option InputEvent) →
      List DeviceRead
| [], _ => []
| entry :: entries, read =>
    if entry.2.ready then
      match read 0 with
      | none => [⟨entry.1, entry.2.fd, none⟩]
      | some event =>
          ⟨entry.1, entry.2.fd, some event⟩ ::
            readLoop entries (fun i => read (i + 1))
    else
      readLoop entries (fun i => read (i + 1))

/- The reads of one call of `get_event`. -/
def getEvent
    (dirname : List Char)
    (revents : Option (Nat → UInt16))
    (eventBuf : List UInt8)
    (errno : Int32)
    (calls : Nat → OpenCalls)
    (read : Nat → Option InputEvent)
    (t : PollTable) : List DeviceRead :=
  readLoop
    ((t.poll revents).handleNotices dirname eventBuf errno
      calls).entries
    read

/- The descriptors for which the poll reports `POLLIN`. -/
def reported
    (revents : Option (Nat → UInt16))
    (t : PollTable) : List Int32 :=
  match revents with
  | none => []
  | some revents =>
      ((t.poll (some revents)).entries.filter
        (fun entry => entry.2.ready)).map
          (fun entry => entry.2.fd)

end PollTable

/- A read that fails ends the loop before place `i`. -/
def EndsBefore
    (read : Nat → Option InputEvent)
    (ready : List Bool)
    (i : Nat) : Prop :=
  ∃ j, j < i ∧ ready[j]? = some true ∧ read j = none

namespace PollTable

theorem endsBefore_succ_iff
    (read : Nat → Option InputEvent)
    (flag : Bool)
    (ready : List Bool)
    (i : Nat) :
    EndsBefore read (flag :: ready) (i + 1) ↔
      (flag = true ∧ read 0 = none) ∨
        EndsBefore (fun i => read (i + 1)) ready i := by
  constructor
  · rintro ⟨j, hBefore, hReady, hFails⟩
    cases j with
    | zero =>
        exact Or.inl ⟨Option.some.inj hReady, hFails⟩
    | succ j =>
        exact Or.inr
          ⟨j, Nat.lt_of_succ_lt_succ hBefore, hReady, hFails⟩
  · rintro (⟨rfl, hFails⟩ | ⟨j, hBefore, hReady, hFails⟩)
    · exact ⟨0, Nat.succ_pos i, rfl, hFails⟩
    · exact ⟨j + 1, Nat.succ_lt_succ hBefore, hReady, hFails⟩

/- The loop reads what is ready, up to a read that fails. -/
theorem mem_readLoop_iff
    (entries : List (List Char × PollFd))
    (read : Nat → Option InputEvent)
    (r : DeviceRead) :
    r ∈ readLoop entries read ↔
      ∃ i entry, entries[i]? = some entry ∧
        entry.2.ready = true ∧
          r = ⟨entry.1, entry.2.fd, read i⟩ ∧
            ¬ EndsBefore read
              (entries.map fun entry => entry.2.ready) i := by
  induction entries generalizing read with
  | nil => simp [readLoop]
  | cons first entries ih =>
      have hHead :
          ∀ ready, ¬ EndsBefore read ready 0 := by
        rintro ready ⟨j, hBefore, _⟩
        exact absurd hBefore (Nat.not_lt_zero j)
      have hSplit :
          (∃ i entry, (first :: entries)[i]? = some entry ∧
            entry.2.ready = true ∧
              r = ⟨entry.1, entry.2.fd, read i⟩ ∧
                ¬ EndsBefore read
                  ((first :: entries).map
                    fun entry => entry.2.ready) i) ↔
            (first.2.ready = true ∧
              r = ⟨first.1, first.2.fd, read 0⟩) ∨
            (¬ (first.2.ready = true ∧ read 0 = none) ∧
              r ∈ readLoop entries (fun i => read (i + 1))) := by
        rw [ih]
        constructor
        · rintro ⟨i, entry, hEntry, hReady, hRead, hReached⟩
          cases i with
          | zero =>
              cases hEntry
              exact Or.inl ⟨hReady, hRead⟩
          | succ i =>
              rw [List.map_cons, endsBefore_succ_iff, not_or]
                at hReached
              exact Or.inr ⟨hReached.1, i, entry, hEntry,
                hReady, hRead, hReached.2⟩
        · rintro (⟨hReady, hRead⟩ |
            ⟨hGoesOn, i, entry, hEntry, hReady, hRead, hReached⟩)
          · exact ⟨0, first, rfl, hReady, hRead, hHead _⟩
          · refine ⟨i + 1, entry, hEntry, hReady, hRead, ?_⟩
            rw [List.map_cons, endsBefore_succ_iff, not_or]
            exact ⟨hGoesOn, hReached⟩
      rw [hSplit, readLoop]
      cases hReady : first.2.ready with
      | false => simp
      | true =>
          cases hRead : read 0 with
          | none => simp
          | some event => simp

end PollTable

end FzEvent

------------------------------------------------------------
-- Handing Over Slots
------------------------------------------------------------

namespace FzEvent

/-
  A device of the table. `ready` is the `POLLIN` of its slot,
  `polled` tells whether the poll has reported on it.
-/
structure Watched where
  device : List Char
  fd : Int32
  ready : Bool
  polled : Bool
deriving DecidableEq

/-
  The devices, and the flags that are left in the slots
  behind them.
-/
structure Handover where
  watched : List Watched
  leftOver : List Bool
deriving DecidableEq

namespace Handover

/- The flag of the slot that the next device would take. -/
def nextFlag
    (junk : Nat → PollFd)
    (h : Handover) : Bool :=
  h.leftOver.headD (junk (h.watched.length + 1)).ready

/-
  A device that is opened takes over the flag of its slot. A
  removal leaves the flag of the last device behind.
-/
def serve
    (h : Handover) : TableCall → Handover
| .openDevice device calls =>
    match calls.growth with
    | none => h
    | some junk =>
        if calls.deviceNames.isSome then
          { watched :=
              h.watched ++
                [⟨device, calls.fd, h.nextFlag junk, false⟩]
            leftOver := [] }
        else
          { h with leftOver := [h.nextFlag junk] }
| .closeDevice device =>
    match h.watched.findIdx? (·.device == device) with
    | none => h
    | some j =>
        { watched := h.watched.eraseIdx j
          leftOver :=
            (h.watched.getLast?.map Watched.ready).toList ++
              h.leftOver }

def run
    (h : Handover)
    (calls : List TableCall) : Handover :=
  calls.foldl serve h

/- The table behind the poll. -/
def start
    (revents : Option (Nat → UInt16))
    (t : PollTable) : Handover where
  watched :=
    (t.poll revents).entries.map fun entry =>
      ⟨entry.1, entry.2.fd, entry.2.ready, revents.isSome⟩
  leftOver := (t.poll revents).spare.map PollFd.ready

/-
  A device that the poll has not reported on carries `POLLIN`
  only behind a read that fails.
-/
def Harmless
    (read : Nat → Option InputEvent)
    (h : Handover) : Prop :=
  ∀ i w, h.watched[i]? = some w → w.polled = false →
    w.ready = true →
      EndsBefore read (h.watched.map Watched.ready) i

/- The arrays hold these devices and these flags. -/
structure Follows
    (h : Handover)
    (t : PollTable) : Prop where
  watched_eq :
    h.watched.map (fun w => (w.device, w.fd, w.ready)) =
      t.entries.map fun entry =>
        (entry.1, entry.2.fd, entry.2.ready)
  leftOver_eq : h.leftOver = t.spare.map PollFd.ready

variable {h : Handover} {t : PollTable}

theorem follows_start
    (revents : Option (Nat → UInt16))
    (t : PollTable) :
    (start revents t).Follows (t.poll revents) where
  watched_eq := by
    rw [start, List.map_map]
    rfl
  leftOver_eq := rfl

theorem Follows.length_eq
    (hFollows : h.Follows t) :
    h.watched.length + 1 = t.nfds := by
  have hLength := congrArg List.length hFollows.watched_eq
  rw [List.length_map, List.length_map,
    PollTable.length_entries] at hLength
  have hPos := t.nfds_pos
  omega

theorem Follows.nextFlag_eq
    (hFollows : h.Follows t)
    (junk : Nat → PollFd) :
    h.nextFlag junk = (t.spare.headD (junk t.nfds)).ready := by
  rw [nextFlag, hFollows.length_eq, hFollows.leftOver_eq]
  cases t.spare with
  | nil => rfl
  | cons cell cells => rfl

theorem Follows.ready_eq
    (hFollows : h.Follows t) :
    h.watched.map Watched.ready =
      t.entries.map fun entry => entry.2.ready := by
  have hReady :=
    congrArg (List.map fun p => p.2.2) hFollows.watched_eq
  simpa [Function.comp_def] using hReady

theorem Follows.getElem?_eq
    (hFollows : h.Follows t)
    (i : Nat) :
    h.watched[i]?.map (fun w => (w.device, w.fd, w.ready)) =
      t.entries[i]?.map fun entry =>
        (entry.1, entry.2.fd, entry.2.ready) := by
  rw [← List.getElem?_map, hFollows.watched_eq,
    List.getElem?_map]

theorem Follows.exists_entry
    {i : Nat}
    {w : Watched}
    (hFollows : h.Follows t)
    (hWatched : h.watched[i]? = some w) :
    ∃ entry, t.entries[i]? = some entry ∧
      entry.2.fd = w.fd ∧ entry.2.ready = w.ready := by
  have hEntry := hFollows.getElem?_eq i
  rw [hWatched, Option.map_some, eq_comm,
    Option.map_eq_some_iff] at hEntry
  rcases hEntry with ⟨entry, hEntry, hSame⟩
  rw [Prod.mk.injEq, Prod.mk.injEq] at hSame
  exact ⟨entry, hEntry, hSame.2⟩

theorem Follows.exists_watched
    {i : Nat}
    {entry : List Char × PollFd}
    (hFollows : h.Follows t)
    (hEntry : t.entries[i]? = some entry) :
    ∃ w, h.watched[i]? = some w ∧
      w.fd = entry.2.fd ∧ w.ready = entry.2.ready := by
  have hWatched := hFollows.getElem?_eq i
  rw [hEntry, Option.map_some, Option.map_eq_some_iff]
    at hWatched
  rcases hWatched with ⟨w, hWatched, hSame⟩
  rw [Prod.mk.injEq, Prod.mk.injEq] at hSame
  exact ⟨w, hWatched, hSame.2⟩

theorem Follows.findIdx?_eq
    (hFollows : h.Follows t)
    (device : List Char) :
    h.watched.findIdx? (·.device == device) =
      t.names.findIdx? (· == device) := by
  have hDevices :=
    congrArg (List.map Prod.fst) hFollows.watched_eq
  have hNames : h.watched.map Watched.device = t.names := by
    rw [← t.map_fst_pairs, t.pairs_eq_map_entries]
    simpa [Function.comp_def] using hDevices
  rw [← hNames, List.findIdx?_map]
  rfl

end Handover

end FzEvent

------------------------------------------------------------
-- The Arrays Hand Over
------------------------------------------------------------

namespace FzEvent

namespace Handover

variable {h : Handover} {t : PollTable}

theorem drop_length_sub_one
    {α : Type}
    (xs : List α) :
    xs.drop (xs.length - 1) = xs.getLast?.toList := by
  rcases List.eq_nil_or_concat xs with rfl | ⟨ys, y, rfl⟩
  · rfl
  · simp

/- What a removal leaves behind the devices. -/
theorem spare_removeEntry_eq
    {j : Nat}
    (hFollows : h.Follows t)
    (hInside : j + 1 < t.nfds)
    (hNames : t.nfds ≤ t.deviceNames.length) :
    (t.removeEntry (j + 1) (Nat.succ_pos j) hInside
        hNames).spare.map PollFd.ready =
      (h.watched.getLast?.map Watched.ready).toList ++
        h.leftOver := by
  have hLast :
      t.inUse.drop (t.nfds - 1) =
        t.devices.drop (t.devices.length - 1) := by
    rw [PollTable.devices, List.drop_drop, List.length_drop,
      PollTable.length_inUse]
    congr 1
    omega
  have hReady :
      t.devices.map PollFd.ready =
        h.watched.map Watched.ready := by
    rw [hFollows.ready_eq, PollTable.entries]
    have hZip :
        (t.names.zip t.devices).map Prod.snd = t.devices := by
      apply List.map_snd_zip
      simp
    calc t.devices.map PollFd.ready
        = ((t.names.zip t.devices).map Prod.snd).map
            PollFd.ready := by rw [hZip]
      _ = (t.names.zip t.devices).map
            fun entry => entry.2.ready := by
          rw [List.map_map]
          rfl
  calc (t.removeEntry (j + 1) (Nat.succ_pos j) hInside
          hNames).spare.map PollFd.ready
      = (t.inUse.drop (t.nfds - 1) ++ t.spare).map
          PollFd.ready := by
        rw [PollTable.spare_removeEntry,
          ← t.inUse_append_spare, List.drop_append_of_le_length
            (by simp)]
    _ = ((t.devices.map PollFd.ready).drop
            ((t.devices.map PollFd.ready).length - 1)) ++
          h.leftOver := by
        rw [hLast, List.map_append, List.map_drop,
          List.length_map, hFollows.leftOver_eq]
    _ = (h.watched.getLast?.map Watched.ready).toList ++
          h.leftOver := by
        rw [hReady, drop_length_sub_one, List.getLast?_map]

/- One call on the arrays is one on the devices. -/
theorem follows_serve
    (hFollows : h.Follows t)
    (call : TableCall) :
    (h.serve call).Follows (call.serve t) := by
  cases call with
  | openDevice device calls =>
      simp only [TableCall.serve, TableCall.result]
      rcases t.openDevice_cases device calls with
        ⟨hGrowth, hCall⟩ | ⟨junk, hGrowth, hNames, hCall⟩ |
        ⟨junk, junkNames, hGrowth, hNames, hCall⟩
      · rw [hCall, serve, hGrowth]
        exact hFollows
      · rw [hCall, serve, hGrowth, hNames]
        refine ⟨?_, ?_⟩
        · rw [PollTable.entries_growUfds]
          exact hFollows.watched_eq
        · rw [PollTable.spare_growUfds, List.map_singleton,
            ← hFollows.nextFlag_eq]
          rfl
      · rw [hCall, serve, hGrowth, hNames]
        refine ⟨?_, ?_⟩
        · simp only [Option.isSome_some, if_true]
          rw [PollTable.entries_addDevice, List.map_append,
            List.map_append, hFollows.watched_eq,
            hFollows.nextFlag_eq]
          rfl
        · have hSpare :=
            (PollTable.inUse_addDevice device calls.fd
              junkNames (t.spare_growUfds junk)
              (t.lt_length_growUfds junk)).2
          rw [hSpare]
          rfl
  | closeDevice device =>
      simp only [TableCall.serve, TableCall.result]
      rcases t.closeDevice_cases device with
        ⟨hNone, hCall⟩ | ⟨j, hInside, hNames, hFound, hCall⟩
      · rw [hCall, serve, hFollows.findIdx?_eq, hNone]
        exact hFollows
      · rw [hCall, serve, hFollows.findIdx?_eq, hFound]
        refine ⟨?_, ?_⟩
        · rw [PollTable.entries_removeEntry,
            ← List.eraseIdx_map, ← List.eraseIdx_map,
            hFollows.watched_eq]
        · exact (spare_removeEntry_eq hFollows hInside
            hNames).symm

theorem follows_calls
    (hFollows : h.Follows t)
    (calls : List TableCall) :
    (h.run calls).Follows
      (calls.foldl (fun t call => call.serve t) t) := by
  induction calls generalizing h t with
  | nil => exact hFollows
  | cons call calls ih => exact ih (follows_serve hFollows call)

/- Where a device of the table comes from. -/
theorem mem_serve
    {w : Watched}
    {call : TableCall}
    (hMem : w ∈ (h.serve call).watched) :
    w ∈ h.watched ∨
      w.polled = false ∧
        ∃ device calls, call = .openDevice device calls ∧
          w.fd = calls.fd := by
  cases call with
  | openDevice device calls =>
      rw [serve] at hMem
      split at hMem
      · exact Or.inl hMem
      · split at hMem
        · rw [List.mem_append, List.mem_singleton] at hMem
          rcases hMem with hOld | rfl
          · exact Or.inl hOld
          · exact Or.inr ⟨rfl, device, calls, rfl, rfl⟩
        · exact Or.inl hMem
  | closeDevice device =>
      rw [serve] at hMem
      split at hMem
      · exact Or.inl hMem
      · exact Or.inl (List.mem_of_mem_eraseIdx hMem)

theorem mem_run
    {w : Watched}
    {calls : List TableCall}
    (hMem : w ∈ (h.run calls).watched) :
    w ∈ h.watched ∨
      w.polled = false ∧
        ∃ device opened,
          TableCall.openDevice device opened ∈ calls ∧
            w.fd = opened.fd := by
  induction calls generalizing h with
  | nil => exact Or.inl hMem
  | cons call calls ih =>
      rcases ih hMem with hServed |
        ⟨hPolled, device, opened, hCall, hFd⟩
      · rcases mem_serve hServed with hOld |
          ⟨hPolled, device, opened, rfl, hFd⟩
        · exact Or.inl hOld
        · exact Or.inr ⟨hPolled, device, opened,
            List.mem_cons_self, hFd⟩
      · exact Or.inr ⟨hPolled, device, opened,
          List.mem_cons_of_mem _ hCall, hFd⟩

end Handover

namespace PollTable

/- A batch opens what its records are given. -/
theorem exists_of_mem_notifyCalls
    {dirname device : List Char}
    {records : List NotifyRecord}
    {calls : Nat → OpenCalls}
    {opened : OpenCalls}
    (hMem :
      TableCall.openDevice device opened ∈
        notifyCalls dirname records calls) :
    ∃ k, opened = calls k := by
  induction records generalizing calls with
  | nil => cases hMem
  | cons r rs ih =>
      rw [notifyCalls, List.mem_append] at hMem
      rcases hMem with hFirst | hRest
      · refine ⟨0, ?_⟩
        rw [Option.mem_toList, NotifyRecord.call] at hFirst
        split at hFirst
        · split at hFirst
          · cases hFirst
            rfl
          · cases hFirst
        · cases hFirst
      · rcases ih hRest with ⟨k, hOpened⟩
        exact ⟨k + 1, hOpened⟩

/- The calls that handle the notices of this poll. -/
def noticed
    (dirname : List Char)
    (records : List NotifyRecord)
    (calls : Nat → OpenCalls)
    (t : PollTable) : List TableCall :=
  if t.ufds.head?.any PollFd.ready then
    notifyCalls dirname records calls
  else
    []

theorem fresh_of_noticed
    {dirname device : List Char}
    {records : List NotifyRecord}
    {calls : Nat → OpenCalls}
    {opened : OpenCalls}
    {fds : List Int32}
    {t : PollTable}
    (hFresh : ∀ k, (calls k).fd ∉ fds)
    (hMem :
      TableCall.openDevice device opened ∈
        t.noticed dirname records calls) :
    opened.fd ∉ fds := by
  rw [noticed] at hMem
  split at hMem
  · rcases exists_of_mem_notifyCalls hMem with ⟨k, rfl⟩
    exact hFresh k
  · cases hMem

theorem handleNotices_eq
    (dirname : List Char)
    (records : List NotifyRecord)
    (errno : Int32)
    (calls : Nat → OpenCalls)
    (t : PollTable) :
    t.handleNotices dirname
        (records.flatMap NotifyRecord.bytes) errno calls =
      (t.noticed dirname records calls).foldl
        (fun t call => call.serve t) t := by
  rw [handleNotices, noticed]
  split
  · exact readNotify_eq dirname records errno calls t
  · rfl

end PollTable

end FzEvent

------------------------------------------------------------
-- Only Polled Devices
------------------------------------------------------------

namespace FzEvent

namespace Handover

variable {revents : Option (Nat → UInt16)} {t : PollTable}

/- A ready device that was polled is one that is reported. -/
theorem mem_reported
    {w : Watched}
    (hMem : w ∈ (start revents t).watched)
    (hPolled : w.polled = true)
    (hReady : w.ready = true) :
    w.fd ∈ t.reported revents := by
  rw [start, List.mem_map] at hMem
  rcases hMem with ⟨entry, hEntry, rfl⟩
  cases revents with
  | none => cases hPolled
  | some revents =>
      rw [PollTable.reported, List.mem_map]
      exact ⟨entry, List.mem_filter.mpr ⟨hEntry, hReady⟩, rfl⟩

/- What is reported was in the table, and was polled. -/
theorem polled_of_mem_reported
    {fd : Int32}
    (hMem : fd ∈ t.reported revents) :
    revents.isSome = true ∧ fd ∈ t.inUse.map PollFd.fd := by
  cases revents with
  | none => cases hMem
  | some revents =>
      rw [PollTable.reported, List.mem_map] at hMem
      rcases hMem with ⟨entry, hEntry, rfl⟩
      have hDevice :
          entry.2 ∈ (t.poll (some revents)).devices :=
        (List.of_mem_zip (List.mem_filter.mp hEntry).1).2
      refine ⟨rfl, ?_⟩
      rw [← PollTable.map_fd_inUse_poll (some revents) t]
      exact List.mem_map_of_mem (List.mem_of_mem_drop hDevice)

/- A device that was not polled is not reported. -/
theorem not_mem_reported
    {w : Watched}
    {calls : List TableCall}
    (hMem : w ∈ ((start revents t).run calls).watched)
    (hPolled : w.polled = false)
    (hFresh :
      ∀ device opened,
        TableCall.openDevice device opened ∈ calls →
          opened.fd ∉ t.inUse.map PollFd.fd) :
    w.fd ∉ t.reported revents := by
  intro hReported
  have hKnown := polled_of_mem_reported hReported
  rcases mem_run hMem with hOld |
    ⟨_, device, opened, hCall, hFd⟩
  · rw [start, List.mem_map] at hOld
    rcases hOld with ⟨entry, _, rfl⟩
    rw [hKnown.1] at hPolled
    cases hPolled
  · apply hFresh device opened hCall
    rw [← hFd]
    exact hKnown.2

end Handover

/-
  The call of `get_event` reads only descriptors that its
  poll reports, exactly when no device that was not polled
  carries `POLLIN` in the slot it got, unless behind a read
  that fails. A descriptor that `open` returns is not one of
  the table, which stay open.
-/
theorem onlyPolledRead_iff
    (dirname : List Char)
    (t : PollTable)
    (revents : Option (Nat → UInt16))
    (records : List NotifyRecord)
    (errno : Int32)
    (calls : Nat → OpenCalls)
    (read : Nat → Option InputEvent)
    (hFresh :
      ∀ k, (calls k).fd ∉ t.inUse.map PollFd.fd) :
    (∀ r ∈ t.getEvent dirname revents
        (records.flatMap NotifyRecord.bytes) errno calls read,
      r.fd ∈ t.reported revents) ↔
      ((Handover.start revents t).run
        ((t.poll revents).noticed dirname records
          calls)).Harmless read := by
  have hFollows :=
    Handover.follows_calls (Handover.follows_start revents t)
      ((t.poll revents).noticed dirname records calls)
  rw [← PollTable.handleNotices_eq dirname records errno]
    at hFollows
  constructor
  · intro hOnly i w hWatched hPolled hReady
    by_contra hReached
    rcases hFollows.exists_entry hWatched with
      ⟨entry, hEntry, hFd, hSame⟩
    rw [hFollows.ready_eq] at hReached
    have hRead :=
      hOnly _ ((PollTable.mem_readLoop_iff _ read _).mpr
        ⟨i, entry, hEntry, hSame.trans hReady, rfl, hReached⟩)
    apply Handover.not_mem_reported
      (List.mem_of_getElem? hWatched) hPolled
      (fun _ _ hMem =>
        PollTable.fresh_of_noticed hFresh hMem)
    rw [← hFd]
    exact hRead
  · intro hHarmless r hMem
    rcases (PollTable.mem_readLoop_iff _ read r).mp hMem with
      ⟨i, entry, hEntry, hReady, rfl, hReached⟩
    rcases hFollows.exists_watched hEntry with
      ⟨w, hWatched, hFd, hSame⟩
    rw [← hFollows.ready_eq] at hReached
    have hFlag := hSame.trans hReady
    cases hPolled : w.polled with
    | false =>
        exact absurd (hHarmless i w hWatched hPolled hFlag)
          hReached
    | true =>
        rcases Handover.mem_run
          (List.mem_of_getElem? hWatched) with hOld |
          ⟨hUnpolled, _⟩
        · rw [← hFd]
          exact Handover.mem_reported hOld hPolled hFlag
        · rw [hPolled] at hUnpolled
          cases hUnpolled

/- Devices `a` and `b`, as the scan leaves them. -/
def scannedTable : PollTable :=
  tableAfter ['d'] 3 [⟨0, 0, 0⟩] (by decide)
    [.scanDir (some [['a'], ['b']])
      (opensAs fun k => if k = 0 then 4 else 5)]

/- A record with a name of one byte. -/
def shortRecord
    (mask : UInt32)
    (name : UInt8)
    (hName : name ≠ 0) : NotifyRecord where
  wd := 1
  mask := mask
  cookie := 0
  name := [name]
  padding := 1
  nul_free b hMem := by
    rw [List.mem_singleton] at hMem
    rw [hMem]
    exact hName
  terminated := Or.inr Nat.one_pos
  fits := by
    rw [inotifyEvent_width, List.length_singleton]
    decide

/- `a` is deleted and `c` is created. -/
def replacedDevice : List NotifyRecord :=
  [shortRecord 0x200 97 (by decide),
    shortRecord inCreate 99 (by decide)]

/- The poll reports the notices and `b`. -/
def noticesAndLast (i : Nat) : UInt16 :=
  if i = 1 then 0 else pollIn

/- Every read gives an event. -/
def alwaysEvent (_ : Nat) : Option InputEvent :=
  some ⟨⟨0, 0⟩, 0, 0, 0⟩

theorem onlyPolledRead_iff_replacedDevice :
    (∀ r ∈ scannedTable.getEvent ['d'] (some noticesAndLast)
        (replacedDevice.flatMap NotifyRecord.bytes) 0
        (opensAs fun _ => 6) alwaysEvent,
      r.fd ∈ scannedTable.reported (some noticesAndLast)) ↔
      ((Handover.start (some noticesAndLast)
        scannedTable).run
          ((scannedTable.poll (some noticesAndLast)).noticed
            ['d'] replacedDevice
              (opensAs fun _ => 6))).Harmless alwaysEvent :=
  onlyPolledRead_iff ['d'] scannedTable (some noticesAndLast)
    replacedDevice 0 (opensAs fun _ => 6) alwaysEvent
    (fun k => by
      have hNew :
          (6 : Int32) ∉ scannedTable.inUse.map PollFd.fd := by
        decide
      exact hNew)

/- `c` takes over the flag of `b`, and is read. -/
theorem unpolledRead_replacedDevice :
    ¬ ∀ r ∈ scannedTable.getEvent ['d'] (some noticesAndLast)
        (replacedDevice.flatMap NotifyRecord.bytes) 0
        (opensAs fun _ => 6) alwaysEvent,
      r.fd ∈ scannedTable.reported (some noticesAndLast) := by
  decide

end FzEvent

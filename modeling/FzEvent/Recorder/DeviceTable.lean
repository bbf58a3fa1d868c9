import Mathlib.Data.Finset.Basic
import FzEvent.Lib.Transition

/-
  The table of open devices of the event getter: the list
  `device_names[1..nfds-1]` under `init` and `read_notify`,
  while nodes come and go in the device directory.

  Both the scan of the directory and the notices of the
  kernel open devices. A node that appears between the watch
  and the end of the scan can be opened by both.

  Main declarations:
    * `FzEvent.Notice` and `FzEvent.directory`
    * `FzEvent.DeviceTable` and `FzEvent.deviceTable`
    * `DeviceTable.Tracked`
    * `DeviceTable.OpensApart`
    * `FzEvent.always_watchedOnce_iff_opensApart`
-/

------------------------------------------------------------
-- The Directory
------------------------------------------------------------

namespace FzEvent

open Transition

/-
  A change of the directory, which is also the notice that
  the kernel queues for it: `IN_CREATE` or `IN_DELETE`. A
  device node is named by its path.
-/
inductive Notice
| created (path : String)
| deleted (path : String)
deriving DecidableEq, Repr

/- The nodes of the directory under its changes. -/
def directory : System (Finset String) Notice where
  init := ∅
  step nodes
  | .created path =>
      if path ∈ nodes then none else some (insert path nodes)
  | .deleted path =>
      if path ∈ nodes then some (nodes.erase path) else none

/-
  An open directory stream. It returns the entries that are
  `due`, and may return those that came or went since
  `opendir`, each once.
-/
structure DirStream where
  due : Finset String
  optional : Finset String
deriving DecidableEq

namespace DirStream

def closed : DirStream where
  due := ∅
  optional := ∅

/- `opendir` -/
def ofNodes (nodes : Finset String) : DirStream where
  due := nodes
  optional := ∅

/- The stream after a change of the directory. -/
def change
    (stream : DirStream) : Notice → DirStream
| .created path =>
    { stream with optional := insert path stream.optional }
| .deleted path =>
    if path ∈ stream.due then
      { due := stream.due.erase path
        optional := insert path stream.optional }
    else
      stream

/- The stream after `readdir` has returned the entry. -/
def take
    (stream : DirStream)
    (path : String) : DirStream where
  due := stream.due.erase path
  optional := stream.optional.erase path

end DirStream

end FzEvent

------------------------------------------------------------
-- The Table
------------------------------------------------------------

namespace FzEvent

open Transition

/- How far `init` is. `ready` is any return from it. -/
inductive InitPhase
| start
| watched
| scanning
| ready
deriving DecidableEq, Repr

/-
  The table, and what fills it. `queue` holds the notices
  that are not read yet. `scanned` is history that no step
  reads: what the scan opened, up to the notice that its
  node was deleted.
-/
structure DeviceTable where
  nodes : Finset String
  watching : Bool
  queue : List Notice
  phase : InitPhase
  stream : DirStream
  deviceNames : List String
  scanned : Finset String
deriving DecidableEq

namespace DeviceTable

def init (nodes : Finset String) : DeviceTable where
  nodes := nodes
  watching := false
  queue := []
  phase := .start
  stream := .closed
  deviceNames := []
  scanned := ∅

/-
  `open_device`; `opens` tells whether all its calls succeed.
  A node that is not there cannot be opened.
-/
def openDevice
    (path : String)
    (opens : Bool)
    (s : DeviceTable) : Option DeviceTable :=
  if opens then
    if path ∈ s.nodes then
      some { s with deviceNames := s.deviceNames ++ [path] }
    else
      none
  else
    some s

/- `close_device`: the first entry of the name goes. -/
def closeDevice
    (path : String)
    (s : DeviceTable) : DeviceTable :=
  { s with deviceNames := s.deviceNames.erase path }

/- A change, which is queued once the watch is there. -/
def change
    (notice : Notice)
    (s : DeviceTable) : Option DeviceTable :=
  (directory.step s.nodes notice).map fun nodes =>
    { s with
      nodes := nodes
      queue :=
        if s.watching then s.queue ++ [notice] else s.queue
      stream := s.stream.change notice }

/- `inotify_add_watch`; without a watch `init` returns. -/
def addWatch
    (ok : Bool)
    (s : DeviceTable) : Option DeviceTable :=
  if s.phase = .start then
    if ok then
      some { s with watching := true, phase := .watched }
    else
      some { s with phase := .ready }
  else
    none

/- `opendir` in `scan_dir`; `init` returns when it fails. -/
def openDir
    (ok : Bool)
    (s : DeviceTable) : Option DeviceTable :=
  if s.phase = .watched then
    if ok then
      some { s with
        phase := .scanning
        stream := .ofNodes s.nodes }
    else
      some { s with phase := .ready }
  else
    none

/- A round of the loop of `scan_dir`. -/
def readDir
    (path : String)
    (opens : Bool)
    (s : DeviceTable) : Option DeviceTable :=
  if s.phase = .scanning ∧
      (path ∈ s.stream.due ∨ path ∈ s.stream.optional) then
    openDevice path opens { s with
      stream := s.stream.take path
      scanned :=
        if opens then insert path s.scanned else s.scanned }
  else
    none

/- The end of `scan_dir`, and of `init`. -/
def closeDir (s : DeviceTable) : Option DeviceTable :=
  if s.phase = .scanning ∧ s.stream.due = ∅ then
    some { s with phase := .ready, stream := .closed }
  else
    none

/- A round of the loop of `read_notify`. -/
def readNotify
    (opens : Bool)
    (s : DeviceTable) : Option DeviceTable :=
  if s.phase = .ready then
    match s.queue with
    | [] => none
    | .created path :: queue =>
        openDevice path opens { s with queue := queue }
    | .deleted path :: queue =>
        some (closeDevice path { s with
          queue := queue
          scanned := s.scanned.erase path })
  else
    none

/- The steps of the kernel and of the event getter. -/
inductive Label
| change (notice : Notice)
| addWatch (ok : Bool)
| openDir (ok : Bool)
| readDir (path : String) (opens : Bool)
| closeDir
| readNotify (opens : Bool)
deriving DecidableEq, Repr

def step
    (s : DeviceTable) : Label → Option DeviceTable
| .change notice => s.change notice
| .addWatch ok => s.addWatch ok
| .openDir ok => s.openDir ok
| .readDir path opens => s.readDir path opens
| .closeDir => s.closeDir
| .readNotify opens => s.readNotify opens

/- No device path occurs twice in the table. -/
def WatchedOnce (s : DeviceTable) : Prop :=
  ∀ path, s.deviceNames.count path ≤ 1

/- The device that the step opens. -/
def opened
    (s : DeviceTable) : Label → Option String
| .readDir path true => some path
| .readNotify true =>
    match s.queue with
    | .created path :: _ => some path
    | _ => none
| _ => none

/-
  The step opens no device that the scan has opened, before
  the notice that the scanned node was deleted.
-/
def OpensApart
    (s : DeviceTable)
    (l : Label) : Prop :=
  ∀ path, s.opened l = some path → path ∉ s.scanned

end DeviceTable

/- The event getter on a directory with these nodes. -/
def deviceTable
    (nodes : Finset String) :
    System DeviceTable DeviceTable.Label where
  init := DeviceTable.init nodes
  step := DeviceTable.step

end FzEvent

------------------------------------------------------------
-- Nodes, Notices and Entries
------------------------------------------------------------

namespace FzEvent

open Transition

namespace DeviceTable

/-
  The invariant while no path occurs twice. From the nodes
  that are announced, the queue leads to the nodes that are
  there; an entry is announced, or the scan has made it.
-/
structure Tracked (s : DeviceTable) : Prop where
  unwatched :
    s.watching = false → s.queue = [] ∧ s.deviceNames = []
  scanning : s.phase = .scanning → s.watching = true
  watched : s.phase = .watched → s.watching = true
  unready :
    s.phase ≠ .ready →
      ∀ path ∈ s.deviceNames, path ∈ s.scanned
  scanned_subset :
    ∀ path ∈ s.scanned, path ∈ s.deviceNames
  announced :
    ∃ announced,
      directory.exec announced s.queue = some s.nodes ∧
        ∀ path ∈ s.deviceNames,
          path ∈ s.scanned ∨ path ∈ announced

theorem tracked_init (nodes : Finset String) :
    (init nodes).Tracked where
  unwatched _ := ⟨rfl, rfl⟩
  scanning hPhase := by cases hPhase
  watched hPhase := by cases hPhase
  unready _ path hMem := by cases hMem
  scanned_subset path hMem := by simp [init] at hMem
  announced := ⟨nodes, rfl, fun path hMem => by cases hMem⟩

theorem watchedOnce_iff_nodup
    (s : DeviceTable) :
    s.WatchedOnce ↔ s.deviceNames.Nodup :=
  List.nodup_iff_count_le_one.symm

/- One more entry is one too many if it is there already. -/
theorem nodup_append_singleton_iff
    {names : List String}
    (hNodup : names.Nodup)
    (path : String) :
    (names ++ [path]).Nodup ↔ path ∉ names := by
  rw [← List.concat_eq_append, List.nodup_concat]
  exact and_iff_left hNodup

theorem openDevice_eq_some_iff
    {path : String}
    {opens : Bool}
    {s t : DeviceTable} :
    openDevice path opens s = some t ↔
      opens = true ∧ path ∈ s.nodes ∧
          t = { s with
            deviceNames := s.deviceNames ++ [path] } ∨
        opens = false ∧ t = s := by
  cases opens <;> simp [openDevice, eq_comm]

end DeviceTable

end FzEvent

------------------------------------------------------------
-- What the Steps Keep
------------------------------------------------------------

namespace FzEvent

open Transition

namespace DeviceTable

variable {s t : DeviceTable}

theorem tracked_change
    {notice : Notice}
    (hInv : s.Tracked)
    (hStep : s.change notice = some t) :
    t.Tracked := by
  rw [change, Option.map_eq_some_iff] at hStep
  rcases hStep with ⟨nodes, hNodes, rfl⟩
  refine ⟨?_, hInv.scanning, hInv.watched, hInv.unready,
    hInv.scanned_subset, ?_⟩
  · intro hUnwatched
    have hNothing := hInv.unwatched hUnwatched
    simp only at hUnwatched
    simpa [hUnwatched] using hNothing
  · cases hWatching : s.watching with
    | false =>
        have hNothing := hInv.unwatched hWatching
        refine ⟨nodes, ?_, ?_⟩
        · simp [hNothing.1]
        · simp [hNothing.2]
    | true =>
        rcases hInv.announced with ⟨announced, hLeads, hEntry⟩
        refine ⟨announced, ?_, hEntry⟩
        simp [System.exec_append, System.exec_cons, hLeads,
          hNodes]

theorem tracked_addWatch
    {ok : Bool}
    (hInv : s.Tracked)
    (hStep : s.addWatch ok = some t) :
    t.Tracked := by
  rw [addWatch] at hStep
  split at hStep
  · next hPhase =>
    have hScanned := hInv.unready (by simp [hPhase])
    cases ok with
    | false =>
        cases hStep
        refine ⟨hInv.unwatched, ?_, ?_, ?_,
          hInv.scanned_subset, hInv.announced⟩
        · simp
        · simp
        · simp
    | true =>
        cases hStep
        exact ⟨by simp, by simp, by simp, fun _ => hScanned,
          hInv.scanned_subset, hInv.announced⟩
  · cases hStep

theorem tracked_openDir
    {ok : Bool}
    (hInv : s.Tracked)
    (hStep : s.openDir ok = some t) :
    t.Tracked := by
  rw [openDir] at hStep
  split at hStep
  · next hPhase =>
    have hScanned := hInv.unready (by simp [hPhase])
    have hWatching := hInv.watched hPhase
    cases ok with
    | false =>
        cases hStep
        exact ⟨hInv.unwatched, by simp, by simp, by simp,
          hInv.scanned_subset, hInv.announced⟩
    | true =>
        cases hStep
        exact ⟨hInv.unwatched, fun _ => hWatching, by simp,
          fun _ => hScanned, hInv.scanned_subset,
          hInv.announced⟩
  · cases hStep

theorem tracked_readDir
    {path : String}
    {opens : Bool}
    (hInv : s.Tracked)
    (hStep : s.readDir path opens = some t) :
    t.Tracked := by
  rw [readDir] at hStep
  split at hStep
  · next hGuard =>
    have hScanned := hInv.unready (by simp [hGuard.1])
    have hWatching := hInv.scanning hGuard.1
    rcases hInv.announced with ⟨announced, hLeads, hEntry⟩
    rw [openDevice_eq_some_iff] at hStep
    rcases hStep with ⟨rfl, _, rfl⟩ | ⟨rfl, rfl⟩
    · have hSubset :
          ∀ other ∈ s.deviceNames ++ [path],
            other ∈ insert path s.scanned := by
        intro other hMem
        rw [List.mem_append, List.mem_singleton] at hMem
        rw [Finset.mem_insert]
        rcases hMem with hMem | hNew
        · exact Or.inr (hScanned other hMem)
        · exact Or.inl hNew
      refine ⟨by simp [hWatching], fun _ => hWatching,
        fun _ => hWatching, fun _ => hSubset, ?_,
        announced, hLeads,
        fun other hMem => Or.inl (hSubset other hMem)⟩
      intro other hMem
      rw [if_pos rfl, Finset.mem_insert] at hMem
      rw [List.mem_append, List.mem_singleton]
      rcases hMem with hNew | hMem
      · exact Or.inr hNew
      · exact Or.inl (hInv.scanned_subset other hMem)
    · exact ⟨hInv.unwatched, hInv.scanning, hInv.watched,
        hInv.unready, hInv.scanned_subset, announced, hLeads,
        hEntry⟩
  · cases hStep

theorem tracked_closeDir
    (hInv : s.Tracked)
    (hStep : s.closeDir = some t) :
    t.Tracked := by
  rw [closeDir] at hStep
  split at hStep
  · cases hStep
    exact ⟨hInv.unwatched, by simp, by simp, by simp,
      hInv.scanned_subset, hInv.announced⟩
  · cases hStep

/- Notices are read only behind a watch. -/
theorem watching_of_queue
    {notice : Notice}
    {queue : List Notice}
    (hInv : s.Tracked)
    (hQueue : s.queue = notice :: queue) :
    s.watching = true := by
  cases hWatching : s.watching with
  | true => rfl
  | false =>
      have hNothing := (hInv.unwatched hWatching).1
      rw [hQueue] at hNothing
      cases hNothing

/-
  A created node was not announced; from now on it is. What
  the queue leads to stays the same.
-/
theorem announced_created
    {path : String}
    {queue : List Notice}
    {announced nodes : Finset String}
    (hLeads :
      directory.exec announced (.created path :: queue) =
        some nodes) :
    path ∉ announced ∧
      directory.exec (insert path announced) queue =
        some nodes := by
  rw [System.exec_cons_eq_some_iff] at hLeads
  rcases hLeads with ⟨next, hNext, hRest⟩
  simp only [directory] at hNext
  split at hNext
  · cases hNext
  · next hNew =>
    cases hNext
    exact ⟨hNew, hRest⟩

theorem announced_deleted
    {path : String}
    {queue : List Notice}
    {announced nodes : Finset String}
    (hLeads :
      directory.exec announced (.deleted path :: queue) =
        some nodes) :
    directory.exec (announced.erase path) queue =
      some nodes := by
  rw [System.exec_cons_eq_some_iff] at hLeads
  rcases hLeads with ⟨next, hNext, hRest⟩
  simp only [directory] at hNext
  split at hNext
  · cases hNext
    exact hRest
  · cases hNext

/- The notice of a deletion takes the only entry away. -/
theorem tracked_deleted
    {path : String}
    {queue : List Notice}
    {announced : Finset String}
    (hNodup : s.deviceNames.Nodup)
    (hSubset : ∀ other ∈ s.scanned, other ∈ s.deviceNames)
    (hEntry :
      ∀ other ∈ s.deviceNames,
        other ∈ s.scanned ∨ other ∈ announced)
    (hLeads :
      directory.exec (announced.erase path) queue =
        some s.nodes)
    (hWatching : s.watching = true)
    (hPhase : s.phase = .ready) :
    (closeDevice path { s with
      queue := queue
      scanned := s.scanned.erase path }).Tracked where
  unwatched hUnwatched := by
    rw [closeDevice, hWatching] at hUnwatched
    cases hUnwatched
  scanning _ := hWatching
  watched _ := hWatching
  unready hUnready := absurd hPhase hUnready
  scanned_subset other hMem := by
    have hScan := Finset.mem_erase.mp hMem
    exact (List.mem_erase_of_ne hScan.1).mpr
      (hSubset other hScan.2)
  announced := by
    refine ⟨announced.erase path, hLeads, ?_⟩
    intro other hMem
    have hOther := hNodup.mem_erase_iff.mp hMem
    rcases hEntry other hOther.2 with hScan | hTold
    · exact Or.inl (Finset.mem_erase.mpr ⟨hOther.1, hScan⟩)
    · exact Or.inr (Finset.mem_erase.mpr ⟨hOther.1, hTold⟩)

theorem tracked_readNotify
    {opens : Bool}
    (hInv : s.Tracked)
    (hNodup : s.deviceNames.Nodup)
    (hStep : s.readNotify opens = some t) :
    t.Tracked := by
  rw [readNotify] at hStep
  split at hStep
  · next hPhase =>
    rcases hInv.announced with ⟨announced, hLeads, hEntry⟩
    split at hStep
    · cases hStep
    · next path queue hQueue =>
      have hWatching := watching_of_queue hInv hQueue
      rw [hQueue] at hLeads
      have hRest := (announced_created hLeads).2
      rw [openDevice_eq_some_iff] at hStep
      rcases hStep with ⟨_, _, rfl⟩ | ⟨_, rfl⟩
      · refine ⟨by simp [hWatching], by simp [hPhase],
          by simp [hPhase], by simp [hPhase], ?_,
          insert path announced, hRest, ?_⟩
        · intro other hMem
          exact List.mem_append_left _
            (hInv.scanned_subset other hMem)
        · intro other hMem
          rw [List.mem_append, List.mem_singleton] at hMem
          rw [Finset.mem_insert]
          rcases hMem with hMem | hNew
          · rcases hEntry other hMem with hScan | hTold
            · exact Or.inl hScan
            · exact Or.inr (Or.inr hTold)
          · exact Or.inr (Or.inl hNew)
      · refine ⟨by simp [hWatching], by simp [hPhase],
          by simp [hPhase], by simp [hPhase],
          hInv.scanned_subset, insert path announced, hRest,
          ?_⟩
        intro other hMem
        rw [Finset.mem_insert]
        rcases hEntry other hMem with hScan | hTold
        · exact Or.inl hScan
        · exact Or.inr (Or.inr hTold)
    · next path queue hQueue =>
      have hWatching := watching_of_queue hInv hQueue
      rw [hQueue] at hLeads
      cases hStep
      exact tracked_deleted hNodup hInv.scanned_subset hEntry
        (announced_deleted hLeads) hWatching hPhase
  · cases hStep

theorem tracked_step
    {l : Label}
    (hInv : s.Tracked)
    (hOnce : s.WatchedOnce)
    (hStep : s.step l = some t) :
    t.Tracked := by
  cases l with
  | change notice => exact tracked_change hInv hStep
  | addWatch ok => exact tracked_addWatch hInv hStep
  | openDir ok => exact tracked_openDir hInv hStep
  | readDir path opens => exact tracked_readDir hInv hStep
  | closeDir => exact tracked_closeDir hInv hStep
  | readNotify opens =>
      exact tracked_readNotify hInv
        (s.watchedOnce_iff_nodup.mp hOnce) hStep

end DeviceTable

end FzEvent

------------------------------------------------------------
-- Watched Once
------------------------------------------------------------

namespace FzEvent

open Transition

namespace DeviceTable

variable {s t : DeviceTable}

/-
  What a step does to the names: it opens a device, or no
  name is added.
-/
theorem deviceNames_step
    {l : Label}
    (hStep : s.step l = some t) :
    (∃ path, s.opened l = some path ∧
        t.deviceNames = s.deviceNames ++ [path]) ∨
      s.opened l = none ∧
        t.deviceNames.Sublist s.deviceNames := by
  cases l with
  | change notice =>
      simp only [step, change, Option.map_eq_some_iff] at hStep
      rcases hStep with ⟨nodes, _, rfl⟩
      exact Or.inr ⟨rfl, List.Sublist.refl _⟩
  | addWatch ok =>
      simp only [step, addWatch] at hStep
      split at hStep
      · cases ok <;> cases hStep <;>
          exact Or.inr ⟨rfl, List.Sublist.refl _⟩
      · cases hStep
  | openDir ok =>
      simp only [step, openDir] at hStep
      split at hStep
      · cases ok <;> cases hStep <;>
          exact Or.inr ⟨rfl, List.Sublist.refl _⟩
      · cases hStep
  | readDir path opens =>
      simp only [step, readDir] at hStep
      split at hStep
      · rw [openDevice_eq_some_iff] at hStep
        rcases hStep with ⟨rfl, _, rfl⟩ | ⟨rfl, rfl⟩
        · exact Or.inl ⟨path, rfl, rfl⟩
        · exact Or.inr ⟨rfl, List.Sublist.refl _⟩
      · cases hStep
  | closeDir =>
      simp only [step, closeDir] at hStep
      split at hStep
      · cases hStep
        exact Or.inr ⟨rfl, List.Sublist.refl _⟩
      · cases hStep
  | readNotify opens =>
      simp only [step, readNotify] at hStep
      split at hStep
      · split at hStep
        · cases hStep
        · next path queue hQueue =>
          rw [openDevice_eq_some_iff] at hStep
          rcases hStep with ⟨rfl, _, rfl⟩ | ⟨rfl, rfl⟩
          · exact Or.inl ⟨path, by simp [opened, hQueue], rfl⟩
          · exact Or.inr ⟨rfl, List.Sublist.refl _⟩
        · next path queue hQueue =>
          cases hStep
          refine Or.inr ⟨?_, List.erase_sublist⟩
          cases opens <;> simp [opened, hQueue]
      · cases hStep

/- A device that a step opens is there only by the scan. -/
theorem mem_deviceNames_iff_of_opened
    {path : String}
    {l : Label}
    (hInv : s.Tracked)
    (hStep : s.step l = some t)
    (hOpened : s.opened l = some path) :
    path ∈ s.deviceNames ↔ path ∈ s.scanned := by
  refine ⟨?_, hInv.scanned_subset path⟩
  intro hMem
  cases l with
  | change notice => cases hOpened
  | addWatch ok => cases hOpened
  | openDir ok => cases hOpened
  | closeDir => cases hOpened
  | readDir entry opens =>
      apply hInv.unready _ path hMem
      intro hReady
      simp [step, readDir, hReady] at hStep
  | readNotify opens =>
      cases opens with
      | false => cases hOpened
      | true =>
          simp only [opened] at hOpened
          split at hOpened
          · next created queue hQueue =>
            cases hOpened
            rcases hInv.announced with
              ⟨announced, hLeads, hEntry⟩
            rw [hQueue] at hLeads
            rcases hEntry path hMem with hScan | hTold
            · exact hScan
            · exact absurd hTold (announced_created hLeads).1
          · cases hOpened

/- A step keeps the names apart exactly if it opens apart. -/
theorem watchedOnce_step_iff
    {l : Label}
    (hInv : s.Tracked)
    (hOnce : s.WatchedOnce)
    (hStep : s.step l = some t) :
    t.WatchedOnce ↔ s.OpensApart l := by
  rw [watchedOnce_iff_nodup] at hOnce ⊢
  rcases deviceNames_step hStep with
    ⟨path, hOpened, hNames⟩ | ⟨hNone, hSublist⟩
  · have hScan :=
      mem_deviceNames_iff_of_opened hInv hStep hOpened
    rw [hNames, nodup_append_singleton_iff hOnce, hScan]
    simp [OpensApart, hOpened]
  · apply iff_of_true (hOnce.sublist hSublist)
    intro path hOpened
    rw [hNone] at hOpened
    cases hOpened

end DeviceTable

/-
  No device is in the table twice, in any state of a run,
  exactly when neither the scan nor a notice ever opens a
  device that the scan has opened and whose deletion has not
  been read since.
-/
theorem always_watchedOnce_iff_opensApart
    (nodes : Finset String)
    (ls : List DeviceTable.Label)
    (hRun :
      ((deviceTable nodes).exec (DeviceTable.init nodes)
        ls).isSome) :
    (deviceTable nodes).Always DeviceTable.WatchedOnce
        (DeviceTable.init nodes) ls ↔
      (deviceTable nodes).Meets DeviceTable.OpensApart
        (DeviceTable.init nodes) ls := by
  refine (deviceTable nodes).always_iff_meets
    DeviceTable.Tracked ?_ ?_ (DeviceTable.tracked_init nodes)
    ?_ hRun
  · intro s l t hInv hOnce hStep
    exact DeviceTable.tracked_step hInv hOnce hStep
  · intro s l t hInv hOnce hStep
    exact DeviceTable.watchedOnce_step_iff hInv hOnce hStep
  · intro path
    exact Nat.zero_le 1

/- A node appears between the watch and the scan. -/
def plugIn : List DeviceTable.Label :=
  [.addWatch true, .change (.created "/dev/input/event1"),
    .openDir true, .readDir "/dev/input/event1" true,
    .closeDir]

theorem always_watchedOnce_iff_opensApart_plugIn :
    (deviceTable ∅).Always DeviceTable.WatchedOnce
        (DeviceTable.init ∅) plugIn ↔
      (deviceTable ∅).Meets DeviceTable.OpensApart
        (DeviceTable.init ∅) plugIn :=
  always_watchedOnce_iff_opensApart ∅ plugIn (by decide)

/-
  The notice of that node, read behind the scan, opens its
  device again.
-/
theorem not_always_watchedOnce_plugIn :
    ((deviceTable ∅).exec (DeviceTable.init ∅)
      (plugIn ++ [.readNotify true])).isSome ∧
      ¬ (deviceTable ∅).Always DeviceTable.WatchedOnce
        (DeviceTable.init ∅)
        (plugIn ++ [.readNotify true]) := by
  have hRun :
      ∃ t, (deviceTable ∅).exec (DeviceTable.init ∅)
          (plugIn ++ [.readNotify true]) = some t ∧
        t.deviceNames =
          ["/dev/input/event1", "/dev/input/event1"] :=
    ⟨_, rfl, rfl⟩
  rcases hRun with ⟨t, hRun, hNames⟩
  refine ⟨by rw [hRun]; rfl, ?_⟩
  intro hAlways
  have hOnce :=
    hAlways _ [] t (List.append_nil _).symm hRun
      "/dev/input/event1"
  rw [hNames] at hOnce
  exact absurd hOnce (by decide)

end FzEvent

import Mathlib.Data.List.InsertIdx
import FzEvent.Lib.Block
import FzEvent.Common.InputEvent
import FzEvent.Recorder.DeviceTable

/-
  The poll table of the event getter: the arrays `ufds` and
  `device_names` with their common count `nfds`, and the
  functions that change them.

  Both arrays are grown with `realloc` and closed up with
  `memmove`, one after the other. Entry 0 of `ufds` is the
  inotify descriptor; the names begin at 1.

  Main declarations:
    * `FzEvent.PollTable`
    * `PollTable.openDevice` and `PollTable.closeDevice`
    * `PollTable.scanDir` and `PollTable.readNotify`
    * `FzEvent.pairs_of_steps`
-/

------------------------------------------------------------
-- The Arrays
------------------------------------------------------------

namespace FzEvent

/- `struct pollfd` -/
structure PollFd where
  fd : Int32
  events : UInt16
  revents : UInt16
deriving DecidableEq, Repr

/- `POLLIN` -/
def pollIn : UInt16 := 1

/- The test of `revents` in `get_event`. -/
def PollFd.ready (ufd : PollFd) : Bool :=
  ufd.revents &&& pollIn != 0

/-
  The two blocks and the count. A block may have more cells
  than are in use. Without devices there are no names yet.
-/
structure PollTable where
  ufds : List PollFd
  deviceNames : List (List Char)
  nfds : Nat
  nfds_pos : 0 < nfds
  nfds_le_ufds : nfds ≤ ufds.length
  nfds_le_names : nfds = 1 ∨ nfds ≤ deviceNames.length

namespace PollTable

/-
  The table of `init`. It asks `calloc` for no bytes at all, and
  writes entry 0 into what it gets. C promises no cell there:
  `block` has the cells that the allocator gives all the same
  and that its `realloc` keeps, and `hRoom` says that entry 0
  is one of them. `revents` is not set.
-/
def init
    (nfd : Int32)
    (block : List PollFd)
    (hRoom : 0 < block.length) : PollTable where
  ufds :=
    block.modify 0 fun ufd =>
      { ufd with fd := nfd, events := pollIn }
  deviceNames := []
  nfds := 1
  nfds_pos := Nat.one_pos
  nfds_le_ufds := by
    rw [List.length_modify]
    exact hRoom
  nfds_le_names := Or.inl rfl

end PollTable

/-
  What the calls of `open_device` return: `open`, the two
  `ioctl`s it depends on, and the two `realloc`s, which give
  a null pointer or cells of any contents.
-/
structure OpenCalls where
  fd : Int32
  version : Int32
  id : Int32
  ufds : Option (Nat → PollFd)
  deviceNames : Option (Nat → List Char)

namespace PollTable

open Block

/- The array `ufds` after its `realloc`. -/
def growUfds
    (junk : Nat → PollFd)
    (t : PollTable) : PollTable where
  ufds := realloc (t.nfds + 1) junk t.ufds
  deviceNames := t.deviceNames
  nfds := t.nfds
  nfds_pos := t.nfds_pos
  nfds_le_ufds := by simp
  nfds_le_names := t.nfds_le_names

/-
  The second `realloc`, and the new entry: `revents` is left
  as it is.
-/
def addDevice
    (device : List Char)
    (fd : Int32)
    (junk : Nat → List Char)
    (t : PollTable)
    (hRoom : t.nfds < t.ufds.length) : PollTable where
  ufds :=
    t.ufds.modify t.nfds fun ufd =>
      { ufd with fd := fd, events := pollIn }
  deviceNames :=
    (realloc (t.nfds + 1) junk t.deviceNames).set t.nfds device
  nfds := t.nfds + 1
  nfds_pos := Nat.succ_pos t.nfds
  nfds_le_ufds := by
    rw [List.length_modify]
    exact hRoom
  nfds_le_names := by simp

theorem lt_length_growUfds
    (junk : Nat → PollFd)
    (t : PollTable) :
    (t.growUfds junk).nfds < (t.growUfds junk).ufds.length := by
  simp [growUfds]

/- `open_device` -/
def openDevice
    (device : List Char)
    (calls : OpenCalls)
    (t : PollTable) : Int32 × PollTable :=
  if calls.fd < 0 then
    (-1, t)
  else if calls.version ≠ 0 then
    (-1, t)
  else if calls.id ≠ 0 then
    (-1, t)
  else
    match calls.ufds with
    | none => (-1, t)
    | some junk =>
        match calls.deviceNames with
        | none => (-1, t.growUfds junk)
        | some junkNames =>
            (0, (t.growUfds junk).addDevice device calls.fd
              junkNames (t.lt_length_growUfds junk))

/- The names in use, which begin at index 1. -/
def names (t : PollTable) : List (List Char) :=
  (t.deviceNames.take t.nfds).drop 1

/- The loop of `close_device`: the first entry of the name. -/
def entryOf
    (device : List Char)
    (t : PollTable) : Option Nat :=
  (t.names.findIdx? (· == device)).map (· + 1)

theorem bounds_of_entryOf
    {device : List Char}
    {t : PollTable}
    {i : Nat}
    (hEntry : t.entryOf device = some i) :
    0 < i ∧ i < t.nfds ∧ t.nfds ≤ t.deviceNames.length := by
  rw [entryOf, Option.map_eq_some_iff] at hEntry
  rcases hEntry with ⟨j, hFound, rfl⟩
  have hInside : j < t.names.length := by
    rw [List.findIdx?_eq_some_iff_getElem] at hFound
    exact hFound.1
  rw [names, List.length_drop, List.length_take] at hInside
  have hNames := t.nfds_le_names
  omega

/- The two moves of `close_device`. -/
def removeEntry
    (i : Nat)
    (t : PollTable)
    (hPos : 0 < i)
    (hInside : i < t.nfds)
    (hNames : t.nfds ≤ t.deviceNames.length) : PollTable where
  ufds := memmove i (i + 1) (t.nfds - i - 1) t.ufds
  deviceNames :=
    memmove i (i + 1) (t.nfds - i - 1) t.deviceNames
  nfds := t.nfds - 1
  nfds_pos := by omega
  nfds_le_ufds := by
    rw [length_memmove_down hInside t.nfds_le_ufds]
    exact (Nat.sub_le _ _).trans t.nfds_le_ufds
  nfds_le_names := by
    rw [length_memmove_down hInside hNames]
    exact Or.inr ((Nat.sub_le _ _).trans hNames)

/- `close_device`; the descriptor stays open. -/
def closeDevice
    (device : List Char)
    (t : PollTable) : Int32 × PollTable :=
  match hEntry : t.entryOf device with
  | none => (-1, t)
  | some i =>
      (0, t.removeEntry i (bounds_of_entryOf hEntry).1
        (bounds_of_entryOf hEntry).2.1
        (bounds_of_entryOf hEntry).2.2)

end PollTable

end FzEvent

------------------------------------------------------------
-- Scans and Notices
------------------------------------------------------------

namespace FzEvent

open ByteCodec

/- `IN_CREATE` -/
def inCreate : UInt32 := 0x100

/- `EINTR` -/
def eintr : Int32 := 4

/- `struct inotify_event` without the name. -/
structure InotifyEvent where
  wd : UInt32
  mask : UInt32
  cookie : UInt32
  len : UInt32
deriving DecidableEq, Repr

/- The sixteen bytes in front of the name. -/
def inotifyEvent : Codec InotifyEvent :=
  ((u32.prod u32).prod (u32.prod u32)).map
    (fun p => ⟨p.1.1, p.1.2, p.2.1, p.2.2⟩)
    (fun e => ((e.wd, e.mask), (e.cookie, e.len)))
    (fun _ => rfl) (fun _ => rfl)

@[simp] theorem inotifyEvent_width :
    inotifyEvent.width = 16 := rfl

/- The C string at the head of the bytes. -/
def cString (bytes : List UInt8) : List Char :=
  (bytes.takeWhile (· != 0)).map Char.ofUInt8

/- The path that `scan_dir` and `read_notify` put together. -/
def devname
    (dirname filename : List Char) : List Char :=
  dirname ++ '/' :: filename

/- The entries that `scan_dir` skips: `.` and `..`. -/
def isDotEntry (name : List Char) : Bool :=
  name == ['.'] || name == ['.', '.']

namespace PollTable

/- The loop of `scan_dir`; `calls` is by entry. -/
def scanLoop
    (dirname : List Char) :
    List (List Char) → (Nat → OpenCalls) → PollTable →
      PollTable
| [], _, t => t
| name :: names, calls, t =>
    scanLoop dirname names (fun k => calls (k + 1))
      (if isDotEntry name then t
      else (t.openDevice (devname dirname name) (calls 0)).2)

/- `scan_dir`; `opendir` may give no directory stream. -/
def scanDir
    (dirname : List Char)
    (dir : Option (List (List Char)))
    (calls : Nat → OpenCalls)
    (t : PollTable) : Int32 × PollTable :=
  match dir with
  | none => (-1, t)
  | some names => (0, t.scanLoop dirname names calls)

/-
  The loop of `read_notify` over the bytes that are left;
  `calls` is by record. Every round takes sixteen bytes or
  more, which bounds the rounds.
-/
def readNotifyLoop
    (dirname : List Char) :
    Nat → List UInt8 → (Nat → OpenCalls) → PollTable →
      PollTable
| 0, _, _, t => t
| rounds + 1, bytes, calls, t =>
    match inotifyEvent.read bytes with
    | none => t
    | some (event, rest) =>
        readNotifyLoop dirname rounds
          (rest.drop event.len.toNat)
          (fun k => calls (k + 1))
          (if event.len ≠ 0 then
            let device := devname dirname (cString rest)
            if event.mask &&& inCreate ≠ 0 then
              (t.openDevice device (calls 0)).2
            else
              (t.closeDevice device).2
          else t)

/-
  `read_notify`; `eventBuf` holds the bytes that `read` has
  returned, none when it fails.
-/
def readNotify
    (dirname : List Char)
    (eventBuf : List UInt8)
    (errno : Int32)
    (calls : Nat → OpenCalls)
    (t : PollTable) : Int32 × PollTable :=
  if eventBuf.length < inotifyEvent.width then
    (if errno = eintr then 0 else 1, t)
  else
    (0, t.readNotifyLoop dirname eventBuf.length eventBuf calls)

end PollTable

end FzEvent

------------------------------------------------------------
-- What Is in Use
------------------------------------------------------------

namespace FzEvent

open Block

/-
  The cells that the second `realloc` of `open_device` finds
  behind the first, if the calls come that far.
-/
def OpenCalls.growth
    (calls : OpenCalls) : Option (Nat → PollFd) :=
  if calls.fd < 0 ∨ calls.version ≠ 0 ∨ calls.id ≠ 0 then
    none
  else
    calls.ufds

/- All calls of `open_device` that it depends on succeed. -/
def OpenCalls.opens (calls : OpenCalls) : Bool :=
  calls.growth.isSome && calls.deviceNames.isSome

namespace PollTable

/- The cells of `ufds` that are in use. -/
def inUse (t : PollTable) : List PollFd :=
  t.ufds.take t.nfds

/- The cells of `ufds` behind them. -/
def spare (t : PollTable) : List PollFd :=
  t.ufds.drop t.nfds

/- The entries that have a name. -/
def devices (t : PollTable) : List PollFd :=
  t.inUse.drop 1

/- `(device_names[i], ufds[i])` for `1 <= i < nfds`. -/
def entries (t : PollTable) : List (List Char × PollFd) :=
  t.names.zip t.devices

/- `(device_names[i], ufds[i].fd)` for `1 <= i < nfds`. -/
def pairs (t : PollTable) : List (List Char × Int32) :=
  t.names.zip (t.devices.map PollFd.fd)

@[simp] theorem length_inUse
    (t : PollTable) :
    t.inUse.length = t.nfds := by
  rw [inUse, List.length_take]
  exact Nat.min_eq_left t.nfds_le_ufds

theorem inUse_append_spare
    (t : PollTable) :
    t.inUse ++ t.spare = t.ufds :=
  List.take_append_drop t.nfds t.ufds

@[simp] theorem length_devices
    (t : PollTable) :
    t.devices.length = t.nfds - 1 := by
  rw [devices, List.length_drop, length_inUse]

@[simp] theorem length_names
    (t : PollTable) :
    t.names.length = t.nfds - 1 := by
  have hNames := t.nfds_le_names
  rw [names, List.length_drop, List.length_take]
  omega

@[simp] theorem length_entries
    (t : PollTable) :
    t.entries.length = t.nfds - 1 := by
  simp [entries]

theorem pairs_eq_map_entries
    (t : PollTable) :
    t.pairs = t.entries.map (Prod.map id PollFd.fd) := by
  rw [pairs, entries, List.zip_map_right]

/- The entry for the notices comes first. -/
theorem head?_ufds
    (t : PollTable) :
    t.ufds.head? = t.inUse.head? := by
  rw [inUse, List.head?_take, if_neg (Nat.ne_of_gt t.nfds_pos)]

/- Nothing that is in use differs. -/
structure SameEntries (t u : PollTable) : Prop where
  nfds_eq : u.nfds = t.nfds
  inUse_eq : u.inUse = t.inUse
  deviceNames_eq :
    u.deviceNames.take u.nfds = t.deviceNames.take t.nfds

theorem SameEntries.refl (t : PollTable) : SameEntries t t :=
  ⟨rfl, rfl, rfl⟩

/- The array with one cell more. -/
theorem ufds_growUfds
    (junk : Nat → PollFd)
    (t : PollTable) :
    (t.growUfds junk).ufds =
      t.inUse ++ [t.spare.headD (junk t.nfds)] := by
  simp only [growUfds, inUse, spare]
  rw [realloc_add_one, realloc_of_le junk t.nfds_le_ufds]

@[simp] theorem inUse_growUfds
    (junk : Nat → PollFd)
    (t : PollTable) :
    (t.growUfds junk).inUse = t.inUse := by
  rw [inUse, ufds_growUfds]
  exact List.take_left' t.length_inUse

@[simp] theorem spare_growUfds
    (junk : Nat → PollFd)
    (t : PollTable) :
    (t.growUfds junk).spare =
      [t.spare.headD (junk t.nfds)] := by
  rw [spare, ufds_growUfds]
  exact List.drop_left' t.length_inUse

theorem sameEntries_growUfds
    (junk : Nat → PollFd)
    (t : PollTable) :
    SameEntries t (t.growUfds junk) :=
  ⟨rfl, t.inUse_growUfds junk, rfl⟩

/- The new entry stands behind the others. -/
theorem inUse_addDevice
    (device : List Char)
    (fd : Int32)
    (junk : Nat → List Char)
    {t : PollTable}
    {cell : PollFd}
    (hSpare : t.spare = [cell])
    (hRoom : t.nfds < t.ufds.length) :
    (t.addDevice device fd junk hRoom).inUse =
        t.inUse ++ [⟨fd, pollIn, cell.revents⟩] ∧
      (t.addDevice device fd junk hRoom).spare = [] := by
  have hUfds :
      (t.addDevice device fd junk hRoom).ufds =
        t.inUse ++ [⟨fd, pollIn, cell.revents⟩] := by
    have hBlock : t.ufds = t.inUse ++ [cell] := by
      rw [← hSpare, inUse_append_spare]
    calc (t.addDevice device fd junk hRoom).ufds
        = t.ufds.modify t.nfds fun ufd =>
            { ufd with fd := fd, events := pollIn } := rfl
      _ = (t.inUse ++ [cell]).modify t.inUse.length fun ufd =>
            { ufd with fd := fd, events := pollIn } := by
          rw [hBlock, length_inUse]
      _ = t.inUse ++ [⟨fd, pollIn, cell.revents⟩] :=
          modify_length_append _ _ _
  have hLength :
      (t.addDevice device fd junk hRoom).ufds.length =
        (t.addDevice device fd junk hRoom).nfds := by
    rw [hUfds, List.length_append, length_inUse]
    rfl
  refine ⟨?_, ?_⟩
  · rw [inUse, ← hLength, List.take_length, hUfds]
  · rw [spare, ← hLength, List.drop_length]

theorem names_addDevice
    (device : List Char)
    (fd : Int32)
    (junk : Nat → List Char)
    (t : PollTable)
    (hRoom : t.nfds < t.ufds.length) :
    (t.addDevice device fd junk hRoom).names =
      t.names ++ [device] := by
  have hPos := t.nfds_pos
  have hBlock :
      (t.addDevice device fd junk hRoom).deviceNames =
        realloc t.nfds junk t.deviceNames ++ [device] := by
    have hSet :
        (realloc (t.nfds + 1) junk t.deviceNames).set t.nfds
            device =
          realloc t.nfds junk t.deviceNames ++ [device] := by
      rw [realloc_add_one,
        List.set_append_right _ _ (by simp)]
      simp
    exact hSet
  have hOld :
      (realloc t.nfds junk t.deviceNames).drop 1 = t.names := by
    rcases t.nfds_le_names with hNone | hLe
    · have hEmpty : t.names = [] := by
        apply List.eq_nil_of_length_eq_zero
        rw [length_names, hNone]
      rw [hEmpty]
      apply List.eq_nil_of_length_eq_zero
      rw [List.length_drop, length_realloc, hNone]
    · rw [realloc_of_le junk hLe, names]
  rw [names, hBlock, List.take_of_length_le (by
    simp [addDevice]), List.drop_append_of_le_length (by
    rw [length_realloc]
    exact hPos), hOld]

/- What is in use when an entry is removed. -/
theorem inUse_removeEntry
    {i : Nat}
    {t : PollTable}
    (hPos : 0 < i)
    (hInside : i < t.nfds)
    (hNames : t.nfds ≤ t.deviceNames.length) :
    (t.removeEntry i hPos hInside hNames).inUse =
      t.inUse.eraseIdx i :=
  take_memmove_down hInside t.nfds_le_ufds

theorem spare_removeEntry
    {i : Nat}
    {t : PollTable}
    (hPos : 0 < i)
    (hInside : i < t.nfds)
    (hNames : t.nfds ≤ t.deviceNames.length) :
    (t.removeEntry i hPos hInside hNames).spare =
      t.ufds.drop (t.nfds - 1) :=
  drop_memmove_down hInside t.nfds_le_ufds

theorem drop_one_eraseIdx
    {α : Type}
    (xs : List α)
    (j : Nat) :
    (xs.eraseIdx (j + 1)).drop 1 = (xs.drop 1).eraseIdx j := by
  cases xs with
  | nil => rfl
  | cons x xs => rfl

theorem names_removeEntry
    {j : Nat}
    {t : PollTable}
    (hPos : 0 < j + 1)
    (hInside : j + 1 < t.nfds)
    (hNames : t.nfds ≤ t.deviceNames.length) :
    (t.removeEntry (j + 1) hPos hInside hNames).names =
      t.names.eraseIdx j := by
  have hTake :
      ((t.removeEntry (j + 1) hPos hInside
        hNames).deviceNames.take (t.nfds - 1)) =
        (t.deviceNames.take t.nfds).eraseIdx (j + 1) :=
    take_memmove_down hInside hNames
  have hCount :
      (t.removeEntry (j + 1) hPos hInside hNames).nfds =
        t.nfds - 1 := rfl
  rw [names, hCount, hTake, drop_one_eraseIdx, names]

end PollTable

end FzEvent

------------------------------------------------------------
-- One Call
------------------------------------------------------------

namespace FzEvent

/- A call of `open_device` or `close_device`. -/
inductive TableCall
| openDevice (device : List Char) (calls : OpenCalls)
| closeDevice (device : List Char)

/-
  The devices that are opened and not removed, in order: a
  path and its descriptor.
-/
abbrev OpenedDevices : Type :=
  List (List Char × Int32)

namespace TableCall

def result
    (t : PollTable) : TableCall → Int32 × PollTable
| .openDevice device calls => t.openDevice device calls
| .closeDevice device => t.closeDevice device

/- The table after the call. -/
def serve
    (t : PollTable)
    (call : TableCall) : PollTable :=
  (call.result t).2

/- What the call is for. -/
def register
    (opened : OpenedDevices) : TableCall → OpenedDevices
| .openDevice device calls =>
    if calls.opens then
      opened ++ [(device, calls.fd)]
    else
      opened
| .closeDevice device =>
    opened.eraseP fun entry => entry.1 == device

def Succeeds
    (opened : OpenedDevices) : TableCall → Prop
| .openDevice _ calls => calls.opens = true
| .closeDevice device => ∃ fd, (device, fd) ∈ opened

end TableCall

namespace PollTable

/- What `open_device` does, by the calls it depends on. -/
theorem openDevice_cases
    (device : List Char)
    (calls : OpenCalls)
    (t : PollTable) :
    (calls.growth = none ∧
        t.openDevice device calls = (-1, t)) ∨
      (∃ junk, calls.growth = some junk ∧
        calls.deviceNames = none ∧
          t.openDevice device calls = (-1, t.growUfds junk)) ∨
      ∃ junk junkNames, calls.growth = some junk ∧
        calls.deviceNames = some junkNames ∧
          t.openDevice device calls =
            (0, (t.growUfds junk).addDevice device calls.fd
              junkNames (t.lt_length_growUfds junk)) := by
  by_cases hFd : calls.fd < 0
  · refine Or.inl ⟨?_, ?_⟩
    · simp [OpenCalls.growth, hFd]
    · simp [openDevice, hFd]
  by_cases hVersion : calls.version = 0
  swap
  · refine Or.inl ⟨?_, ?_⟩
    · simp [OpenCalls.growth, hVersion]
    · simp [openDevice, hFd, hVersion]
  by_cases hId : calls.id = 0
  swap
  · refine Or.inl ⟨?_, ?_⟩
    · simp [OpenCalls.growth, hId]
    · simp [openDevice, hFd, hVersion, hId]
  have hGrowth : calls.growth = calls.ufds := by
    simp [OpenCalls.growth, hFd, hVersion, hId]
  rw [hGrowth]
  cases hUfds : calls.ufds with
  | none =>
      refine Or.inl ⟨rfl, ?_⟩
      simp [openDevice, hFd, hVersion, hId, hUfds]
  | some junk =>
      refine Or.inr ?_
      cases hNames : calls.deviceNames with
      | none =>
          refine Or.inl ⟨junk, rfl, rfl, ?_⟩
          simp [openDevice, hFd, hVersion, hId, hUfds, hNames]
      | some junkNames =>
          refine Or.inr ⟨junk, junkNames, rfl, rfl, ?_⟩
          simp [openDevice, hFd, hVersion, hId, hUfds, hNames]

/- What `close_device` does, by the entry it finds. -/
theorem closeDevice_cases
    (device : List Char)
    (t : PollTable) :
    (t.names.findIdx? (· == device) = none ∧
        t.closeDevice device = (-1, t)) ∨
      ∃ j, ∃ hInside : j + 1 < t.nfds,
        ∃ hNames : t.nfds ≤ t.deviceNames.length,
          t.names.findIdx? (· == device) = some j ∧
            t.closeDevice device =
              (0, t.removeEntry (j + 1) (Nat.succ_pos j)
                hInside hNames) := by
  rw [closeDevice]
  split
  · next hEntry =>
    refine Or.inl ⟨?_, rfl⟩
    rwa [entryOf, Option.map_eq_none_iff] at hEntry
  · next i hEntry =>
    have hBounds := bounds_of_entryOf hEntry
    rw [entryOf, Option.map_eq_some_iff] at hEntry
    rcases hEntry with ⟨j, hFound, rfl⟩
    exact Or.inr ⟨j, hBounds.2.1, hBounds.2.2, hFound, rfl⟩

variable {t : PollTable}

theorem devices_append
    {u : PollTable}
    {cells : List PollFd}
    (hInUse : u.inUse = t.inUse ++ cells) :
    u.devices = t.devices ++ cells := by
  rw [devices, hInUse, List.drop_append_of_le_length (by
    rw [length_inUse]
    exact t.nfds_pos), devices]

theorem entries_addDevice
    (device : List Char)
    (fd : Int32)
    (junk : Nat → PollFd)
    (junkNames : Nat → List Char) :
    ((t.growUfds junk).addDevice device fd junkNames
        (t.lt_length_growUfds junk)).entries =
      t.entries ++
        [(device,
          ⟨fd, pollIn,
            (t.spare.headD (junk t.nfds)).revents⟩)] := by
  have hInUse :=
    (inUse_addDevice device fd junkNames
      (t.spare_growUfds junk) (t.lt_length_growUfds junk)).1
  rw [inUse_growUfds] at hInUse
  rw [entries, names_addDevice, devices_append hInUse,
    List.zip_append (by
      rw [length_devices]
      exact t.length_names)]
  rfl

theorem entries_growUfds
    (junk : Nat → PollFd) :
    (t.growUfds junk).entries = t.entries := by
  rw [entries, devices, inUse_growUfds]
  rfl

theorem entries_removeEntry
    {j : Nat}
    (hInside : j + 1 < t.nfds)
    (hNames : t.nfds ≤ t.deviceNames.length) :
    (t.removeEntry (j + 1) (Nat.succ_pos j) hInside
        hNames).entries =
      t.entries.eraseIdx j := by
  rw [entries, names_removeEntry, devices, inUse_removeEntry,
    drop_one_eraseIdx, entries, Block.eraseIdx_zip, devices]

/- The names are the first halves of the pairs. -/
theorem map_fst_pairs
    (t : PollTable) :
    t.pairs.map Prod.fst = t.names := by
  rw [pairs, List.map_fst_zip]
  simp

theorem findIdx?_pairs
    (device : List Char)
    (t : PollTable) :
    t.pairs.findIdx? (fun entry => entry.1 == device) =
      t.names.findIdx? (· == device) := by
  rw [← map_fst_pairs, List.findIdx?_map]
  rfl

/- One call keeps the table in step with what is opened. -/
theorem pairs_serve
    (call : TableCall)
    (t : PollTable) :
    (call.serve t).pairs = call.register t.pairs := by
  cases call with
  | openDevice device calls =>
      simp only [TableCall.serve, TableCall.result,
        TableCall.register]
      rcases t.openDevice_cases device calls with
        ⟨hGrowth, hCall⟩ | ⟨junk, hGrowth, hNames, hCall⟩ |
        ⟨junk, junkNames, hGrowth, hNames, hCall⟩
      · simp [hCall, OpenCalls.opens, hGrowth]
      · simp [hCall, OpenCalls.opens, hNames,
          pairs_eq_map_entries, entries_growUfds]
      · simp [hCall, OpenCalls.opens, hGrowth, hNames,
          pairs_eq_map_entries, entries_addDevice]
  | closeDevice device =>
      simp only [TableCall.serve, TableCall.result,
        TableCall.register]
      rw [List.eraseP_eq_eraseIdx, findIdx?_pairs]
      rcases t.closeDevice_cases device with
        ⟨hNone, hCall⟩ | ⟨j, hInside, hNames, hFound, hCall⟩
      · rw [hCall, hNone]
      · rw [hCall, hFound, pairs_eq_map_entries,
          entries_removeEntry, ← List.eraseIdx_map,
          ← pairs_eq_map_entries]

/- No call touches the entry for the notices. -/
theorem head?_serve
    (call : TableCall)
    (t : PollTable) :
    (call.serve t).ufds.head? = t.ufds.head? := by
  have hSome : t.inUse ≠ [] := by
    rw [← List.length_pos_iff, length_inUse]
    exact t.nfds_pos
  rw [head?_ufds, head?_ufds]
  cases call with
  | openDevice device calls =>
      simp only [TableCall.serve, TableCall.result]
      rcases t.openDevice_cases device calls with
        ⟨_, hCall⟩ | ⟨junk, _, _, hCall⟩ |
        ⟨junk, junkNames, _, _, hCall⟩
      · rw [hCall]
      · rw [hCall, inUse_growUfds]
      · rw [hCall, (inUse_addDevice device calls.fd junkNames
          (t.spare_growUfds junk)
          (t.lt_length_growUfds junk)).1, inUse_growUfds,
          List.head?_append_of_ne_nil _ hSome]
  | closeDevice device =>
      simp only [TableCall.serve, TableCall.result]
      rcases t.closeDevice_cases device with
        ⟨_, hCall⟩ | ⟨j, hInside, hNames, _, hCall⟩
      · rw [hCall]
      · rw [hCall, inUse_removeEntry]
        cases hCells : t.inUse with
        | nil => exact absurd hCells hSome
        | cons first rest => rfl

/- A call that fails leaves all that is in use. -/
theorem sameEntries_of_fails
    {call : TableCall}
    (hFails : (call.result t).1 ≠ 0) :
    SameEntries t (call.serve t) := by
  cases call with
  | openDevice device calls =>
      simp only [TableCall.serve, TableCall.result] at hFails ⊢
      rcases t.openDevice_cases device calls with
        ⟨_, hCall⟩ | ⟨junk, _, _, hCall⟩ |
        ⟨junk, junkNames, _, _, hCall⟩
      · rw [hCall]
        exact SameEntries.refl t
      · rw [hCall]
        exact t.sameEntries_growUfds junk
      · rw [hCall] at hFails
        exact absurd rfl hFails
  | closeDevice device =>
      simp only [TableCall.serve, TableCall.result] at hFails ⊢
      rcases t.closeDevice_cases device with
        ⟨_, hCall⟩ | ⟨j, hInside, hNames, _, hCall⟩
      · rw [hCall]
        exact SameEntries.refl t
      · rw [hCall] at hFails
        exact absurd rfl hFails

theorem failure_ne_zero : (-1 : Int32) ≠ 0 := by
  decide

/- The return value tells whether the call has succeeded. -/
theorem result_eq_zero_iff
    (call : TableCall)
    (t : PollTable) :
    (call.result t).1 = 0 ↔ call.Succeeds t.pairs := by
  cases call with
  | openDevice device calls =>
      simp only [TableCall.result, TableCall.Succeeds,
        OpenCalls.opens]
      rcases t.openDevice_cases device calls with
        ⟨hGrowth, hCall⟩ | ⟨junk, hGrowth, hNames, hCall⟩ |
        ⟨junk, junkNames, hGrowth, hNames, hCall⟩
      · rw [hCall, hGrowth]
        exact iff_of_false failure_ne_zero Bool.false_ne_true
      · rw [hCall, hGrowth, hNames]
        exact iff_of_false failure_ne_zero Bool.false_ne_true
      · rw [hCall, hGrowth, hNames]
        exact iff_of_true rfl rfl
  | closeDevice device =>
      have hMem :
          (∃ fd, (device, fd) ∈ t.pairs) ↔
            device ∈ t.names := by
        rw [← map_fst_pairs, List.mem_map]
        constructor
        · rintro ⟨fd, hPair⟩
          exact ⟨(device, fd), hPair, rfl⟩
        · rintro ⟨⟨name, fd⟩, hPair, rfl⟩
          exact ⟨fd, hPair⟩
      simp only [TableCall.result, TableCall.Succeeds]
      rw [hMem]
      rcases t.closeDevice_cases device with
        ⟨hNone, hCall⟩ | ⟨j, hInside, hNames, hFound, hCall⟩
      · rw [hCall]
        refine iff_of_false failure_ne_zero ?_
        intro hName
        rw [List.findIdx?_eq_none_iff] at hNone
        simpa using hNone device hName
      · rw [hCall]
        refine iff_of_true rfl ?_
        rw [List.findIdx?_eq_some_iff_getElem] at hFound
        rcases hFound with ⟨hBound, hName, _⟩
        exact beq_iff_eq.mp hName ▸ List.getElem_mem hBound

end PollTable

end FzEvent

------------------------------------------------------------
-- The Table of Paths
------------------------------------------------------------

namespace FzEvent

namespace PollTable

theorem names_openDevice
    (device : List Char)
    (calls : OpenCalls)
    (t : PollTable) :
    (t.openDevice device calls).2.names =
      if calls.opens then t.names ++ [device] else t.names := by
  have hPairs := pairs_serve (.openDevice device calls) t
  rw [← map_fst_pairs, ← map_fst_pairs t]
  simp only [TableCall.serve, TableCall.result,
    TableCall.register] at hPairs
  rw [hPairs]
  split
  · rw [List.map_append]
    rfl
  · rfl

theorem names_closeDevice
    (device : List Char)
    (t : PollTable) :
    (t.closeDevice device).2.names = t.names.erase device := by
  have hPairs := pairs_serve (.closeDevice device) t
  rw [← map_fst_pairs, ← map_fst_pairs t,
    List.erase_eq_eraseP', List.eraseP_map]
  exact congrArg (List.map Prod.fst) hPairs

/-
  The names of the arrays move as those of the table of
  paths do.
-/
theorem names_deviceTable
    {s : DeviceTable}
    {t : PollTable}
    (hNames : t.names = s.deviceNames.map String.toList)
    (path : String) :
    (t.closeDevice path.toList).2.names =
        (s.closeDevice path).deviceNames.map String.toList ∧
      ∀ calls u, s.openDevice path calls.opens = some u →
        (t.openDevice path.toList calls).2.names =
          u.deviceNames.map String.toList := by
  refine ⟨?_, ?_⟩
  · rw [names_closeDevice, DeviceTable.closeDevice,
      List.map_erase
        (fun _ _ hEq => String.toList_inj.mp hEq), ← hNames]
  · intro calls u hOpen
    rw [names_openDevice]
    rw [DeviceTable.openDevice_eq_some_iff] at hOpen
    rcases hOpen with ⟨hOpens, _, rfl⟩ | ⟨hFails, rfl⟩
    · rw [hOpens, if_pos rfl, List.map_append, ← hNames]
      rfl
    · rw [hFails, if_neg Bool.false_ne_true, hNames]

end PollTable

end FzEvent

------------------------------------------------------------
-- The Calls of a Scan and of a Batch
------------------------------------------------------------

namespace FzEvent

open ByteCodec

/-
  A record as the kernel writes it: the name is terminated
  and padded with NULs, and fits into the buffer. Without a
  name there is no padding.
-/
structure NotifyRecord where
  wd : UInt32
  mask : UInt32
  cookie : UInt32
  name : List UInt8
  padding : Nat
  nul_free : ∀ b ∈ name, b ≠ 0
  terminated : name = [] ∨ 0 < padding
  fits : inotifyEvent.width + (name.length + padding) ≤ 512

namespace NotifyRecord

def len (r : NotifyRecord) : UInt32 :=
  UInt32.ofNat (r.name.length + r.padding)

def bytes (r : NotifyRecord) : List UInt8 :=
  inotifyEvent.encode ⟨r.wd, r.mask, r.cookie, r.len⟩ ++
    (r.name ++ List.replicate r.padding 0)

/- The name behind the directory. -/
def device
    (dirname : List Char)
    (r : NotifyRecord) : List Char :=
  devname dirname (r.name.map Char.ofUInt8)

/- What a record asks for, if it has a name. -/
def call
    (dirname : List Char)
    (calls : OpenCalls)
    (r : NotifyRecord) : Option TableCall :=
  if r.len ≠ 0 then
    if r.mask &&& inCreate ≠ 0 then
      some (.openDevice (r.device dirname) calls)
    else
      some (.closeDevice (r.device dirname))
  else
    none

theorem toNat_len
    (r : NotifyRecord) :
    r.len.toNat = r.name.length + r.padding := by
  have hFits := r.fits
  rw [inotifyEvent_width] at hFits
  rw [len, UInt32.toNat_ofNat_of_lt']
  rw [UInt32.size]
  omega

/- The name is read up to its first NUL. -/
theorem cString_name
    (rest : List UInt8)
    (r : NotifyRecord)
    (hLen : r.len ≠ 0) :
    cString (r.name ++ List.replicate r.padding 0 ++ rest) =
      r.name.map Char.ofUInt8 := by
  have hPadding : 0 < r.padding := by
    rcases r.terminated with hEmpty | hPos
    · have hLength := r.toNat_len
      rw [hEmpty, List.length_nil, Nat.zero_add] at hLength
      rw [← hLength]
      apply Nat.pos_of_ne_zero
      intro hZero
      exact hLen (UInt32.toNat_inj.mp hZero)
    · exact hPos
  rcases Nat.exists_eq_succ_of_ne_zero hPadding.ne' with
    ⟨more, hMore⟩
  have hTake :
      (r.name ++ List.replicate r.padding 0 ++ rest).takeWhile
        (· != 0) = r.name := by
    rw [List.append_assoc, List.takeWhile_append_of_pos (by
      intro b hMem
      simpa using r.nul_free b hMem), hMore,
      List.replicate_succ, List.cons_append,
      List.takeWhile_cons_of_neg (by simp), List.append_nil]
  rw [cString, hTake]

end NotifyRecord

namespace PollTable

/- The calls of `scan_dir` for these entries. -/
def scanCalls
    (dirname : List Char) :
    List (List Char) → (Nat → OpenCalls) → List TableCall
| [], _ => []
| name :: names, calls =>
    (if isDotEntry name then []
    else [.openDevice (devname dirname name) (calls 0)]) ++
      scanCalls dirname names (fun k => calls (k + 1))

/- The calls of `read_notify` for these records. -/
def notifyCalls
    (dirname : List Char) :
    List NotifyRecord → (Nat → OpenCalls) → List TableCall
| [], _ => []
| r :: rs, calls =>
    (r.call dirname (calls 0)).toList ++
      notifyCalls dirname rs (fun k => calls (k + 1))

theorem scanLoop_eq
    (dirname : List Char)
    (names : List (List Char))
    (calls : Nat → OpenCalls)
    (t : PollTable) :
    t.scanLoop dirname names calls =
      (scanCalls dirname names calls).foldl
        (fun t call => call.serve t) t := by
  induction names generalizing calls t with
  | nil => rfl
  | cons name names ih =>
      rw [scanLoop, scanCalls, List.foldl_append, ih]
      cases isDotEntry name with
      | true => rfl
      | false => rfl

/- One round of the loop of `read_notify`. -/
theorem readNotifyLoop_record
    (dirname : List Char)
    (rounds : Nat)
    (r : NotifyRecord)
    (rest : List UInt8)
    (calls : Nat → OpenCalls)
    (t : PollTable) :
    t.readNotifyLoop dirname (rounds + 1) (r.bytes ++ rest)
        calls =
      ((r.call dirname (calls 0)).toList.foldl
        (fun t call => call.serve t) t).readNotifyLoop dirname
          rounds rest (fun k => calls (k + 1)) := by
  have hDrop :
      (r.name ++ List.replicate r.padding 0 ++ rest).drop
        r.len.toNat = rest := by
    apply List.drop_left'
    rw [r.toNat_len]
    simp
  rw [readNotifyLoop, NotifyRecord.bytes, List.append_assoc,
    Codec.read_encode_append]
  simp only [hDrop]
  congr 1
  by_cases hLen : r.len = 0
  · simp [NotifyRecord.call, hLen]
  · simp only [NotifyRecord.call, ne_eq, hLen,
      not_false_eq_true, if_true, r.cString_name rest hLen]
    by_cases hCreate : r.mask &&& inCreate = 0
    · simp [hCreate, TableCall.serve, TableCall.result,
        NotifyRecord.device]
    · simp [hCreate, TableCall.serve, TableCall.result,
        NotifyRecord.device]

/- All records of a batch are handled, in order. -/
theorem readNotifyLoop_eq
    (dirname : List Char)
    {rounds : Nat}
    (records : List NotifyRecord)
    (calls : Nat → OpenCalls)
    (t : PollTable)
    (hRounds : records.length ≤ rounds) :
    t.readNotifyLoop dirname rounds
        (records.flatMap NotifyRecord.bytes) calls =
      (notifyCalls dirname records calls).foldl
        (fun t call => call.serve t) t := by
  induction records generalizing rounds calls t with
  | nil =>
      cases rounds with
      | zero => rfl
      | succ rounds => rfl
  | cons r rs ih =>
      cases rounds with
      | zero => exact absurd hRounds (Nat.not_succ_le_zero _)
      | succ rounds =>
          rw [List.flatMap_cons, readNotifyLoop_record,
            ih _ _ (Nat.le_of_succ_le_succ hRounds),
            notifyCalls, List.foldl_append]

theorem length_records_le
    (records : List NotifyRecord) :
    inotifyEvent.width * records.length ≤
      (records.flatMap NotifyRecord.bytes).length := by
  induction records with
  | nil => simp
  | cons r rs ih =>
      rw [List.flatMap_cons, List.length_append,
        List.length_cons, Nat.mul_succ, NotifyRecord.bytes,
        List.length_append, inotifyEvent.length_encode]
      omega

theorem readNotify_eq
    (dirname : List Char)
    (records : List NotifyRecord)
    (errno : Int32)
    (calls : Nat → OpenCalls)
    (t : PollTable) :
    (t.readNotify dirname
        (records.flatMap NotifyRecord.bytes) errno calls).2 =
      (notifyCalls dirname records calls).foldl
        (fun t call => call.serve t) t := by
  have hLength := length_records_le records
  rw [inotifyEvent_width] at hLength
  rw [readNotify]
  split
  · next hShort =>
    rw [inotifyEvent_width] at hShort
    have hNone : records = [] := by
      apply List.eq_nil_of_length_eq_zero
      omega
    rw [hNone]
    rfl
  · exact readNotifyLoop_eq dirname records calls t (by omega)

/- `poll`, which sets `revents` of all entries or fails. -/
def poll
    (revents : Option (Nat → UInt16))
    (t : PollTable) : PollTable :=
  match revents with
  | none => t
  | some revents =>
      { t with
        ufds :=
          (t.inUse.mapIdx fun i ufd =>
            { ufd with revents := revents i }) ++ t.spare
        nfds_le_ufds := by simp }

@[simp] theorem nfds_poll
    (revents : Option (Nat → UInt16))
    (t : PollTable) :
    (t.poll revents).nfds = t.nfds := by
  cases revents with
  | none => rfl
  | some revents => rfl

@[simp] theorem inUse_poll
    (revents : Nat → UInt16)
    (t : PollTable) :
    (t.poll (some revents)).inUse =
      t.inUse.mapIdx fun i ufd =>
        { ufd with revents := revents i } :=
  List.take_left' (by simp [nfds_poll])

/- The descriptors stay where they are. -/
theorem map_fd_inUse_poll
    (revents : Option (Nat → UInt16))
    (t : PollTable) :
    (t.poll revents).inUse.map PollFd.fd =
      t.inUse.map PollFd.fd := by
  cases revents with
  | none => rfl
  | some revents =>
      rw [inUse_poll]
      apply List.ext_getElem
      · simp
      · intro i _ _
        simp

theorem names_poll
    (revents : Option (Nat → UInt16))
    (t : PollTable) :
    (t.poll revents).names = t.names := by
  cases revents with
  | none => rfl
  | some revents => rfl

theorem pairs_poll
    (revents : Option (Nat → UInt16))
    (t : PollTable) :
    (t.poll revents).pairs = t.pairs := by
  rw [pairs, names_poll, devices, List.map_drop,
    map_fd_inUse_poll, ← List.map_drop]
  rfl

end PollTable

end FzEvent

------------------------------------------------------------
-- The Table over Whole Runs
------------------------------------------------------------

namespace FzEvent

/- What happens to the table from `init` on. -/
inductive TableStep
| single (call : TableCall)
| scanDir
    (dir : Option (List (List Char))) (calls : Nat → OpenCalls)
| poll (revents : Option (Nat → UInt16))
| readNotify
    (records : List NotifyRecord) (errno : Int32)
    (calls : Nat → OpenCalls)

namespace TableStep

open PollTable

def apply
    (dirname : List Char)
    (t : PollTable) : TableStep → PollTable
| .single call => call.serve t
| .scanDir dir calls => (t.scanDir dirname dir calls).2
| .poll revents => t.poll revents
| .readNotify records errno calls =>
    (t.readNotify dirname
      (records.flatMap NotifyRecord.bytes) errno calls).2

/- The calls that a step issues. -/
def issued
    (dirname : List Char) : TableStep → List TableCall
| .single call => [call]
| .scanDir none _ => []
| .scanDir (some names) calls => scanCalls dirname names calls
| .poll _ => []
| .readNotify records _ calls =>
    notifyCalls dirname records calls

end TableStep

/- The table of `init` after these steps. -/
def tableAfter
    (dirname : List Char)
    (nfd : Int32)
    (block : List PollFd)
    (hRoom : 0 < block.length)
    (steps : List TableStep) : PollTable :=
  steps.foldl (TableStep.apply dirname)
    (PollTable.init nfd block hRoom)

namespace PollTable

/-
  The entry for the notices is that of `nfd`, and the others
  pair the paths with the descriptors of what is opened.
-/
structure Paired
    (nfd : Int32)
    (opened : OpenedDevices)
    (t : PollTable) : Prop where
  notices : t.ufds.head?.map PollFd.fd = some nfd
  pairs_eq : t.pairs = opened

variable {nfd : Int32} {opened : OpenedDevices}
variable {t : PollTable}

theorem paired_init
    (nfd : Int32)
    {block : List PollFd}
    (hRoom : 0 < block.length) :
    (init nfd block hRoom).Paired nfd [] where
  notices := by
    cases block with
    | nil => exact absurd hRoom (Nat.lt_irrefl 0)
    | cons ufd rest => rfl
  pairs_eq := rfl

theorem paired_serve
    (hPaired : t.Paired nfd opened)
    (call : TableCall) :
    (call.serve t).Paired nfd (call.register opened) where
  notices := by rw [head?_serve, hPaired.notices]
  pairs_eq := by rw [pairs_serve, hPaired.pairs_eq]

theorem paired_calls
    (hPaired : t.Paired nfd opened)
    (calls : List TableCall) :
    (calls.foldl (fun t call => call.serve t) t).Paired nfd
      (calls.foldl TableCall.register opened) := by
  induction calls generalizing t opened with
  | nil => exact hPaired
  | cons call calls ih => exact ih (paired_serve hPaired call)

theorem paired_apply
    (hPaired : t.Paired nfd opened)
    (dirname : List Char)
    (step : TableStep) :
    (step.apply dirname t).Paired nfd
      ((step.issued dirname).foldl TableCall.register
        opened) := by
  cases step with
  | single call => exact paired_serve hPaired call
  | scanDir dir calls =>
      cases dir with
      | none => exact hPaired
      | some names =>
          rw [TableStep.apply, PollTable.scanDir, scanLoop_eq]
          exact paired_calls hPaired _
  | poll revents =>
      refine ⟨?_, ?_⟩
      · rw [← hPaired.notices, TableStep.apply, head?_ufds,
          head?_ufds, ← List.head?_map, ← List.head?_map,
          map_fd_inUse_poll]
      · rw [TableStep.apply, pairs_poll, hPaired.pairs_eq]
        rfl
  | readNotify records errno calls =>
      rw [TableStep.apply, readNotify_eq]
      exact paired_calls hPaired _

theorem paired_tableAfter
    (dirname : List Char)
    (nfd : Int32)
    {block : List PollFd}
    (hRoom : 0 < block.length)
    (steps : List TableStep) :
    (tableAfter dirname nfd block hRoom steps).Paired nfd
      ((steps.flatMap (TableStep.issued dirname)).foldl
        TableCall.register []) := by
  have hRun :
      ∀ (t : PollTable) (opened : OpenedDevices),
        t.Paired nfd opened →
          (steps.foldl (TableStep.apply dirname) t).Paired nfd
            ((steps.flatMap
              (TableStep.issued dirname)).foldl
                TableCall.register opened) := by
    induction steps with
    | nil => exact fun t opened hPaired => hPaired
    | cons step steps ih =>
        intro t opened hPaired
        rw [List.foldl_cons, List.flatMap_cons,
          List.foldl_append]
        exact ih _ _ (paired_apply hPaired dirname step)
  exact hRun _ _ (paired_init nfd hRoom)

end PollTable

/-
  In every run the entry for the notices stays, and the names
  and descriptors pair up as they were opened: a call that
  succeeds adds or removes its own entry, and a call that
  fails changes nothing that is in use.
-/
theorem pairs_of_steps
    (dirname : List Char)
    (nfd : Int32)
    {block : List PollFd}
    (hRoom : 0 < block.length)
    (steps : List TableStep) :
    (tableAfter dirname nfd block hRoom
        steps).ufds.head?.map PollFd.fd = some nfd ∧
      (tableAfter dirname nfd block hRoom steps).pairs =
        (steps.flatMap (TableStep.issued dirname)).foldl
          TableCall.register [] ∧
      ∀ call : TableCall,
        ((call.result
          (tableAfter dirname nfd block hRoom steps)).1 = 0 ↔
          call.Succeeds
            (tableAfter dirname nfd block hRoom steps).pairs) ∧
        ((call.result
          (tableAfter dirname nfd block hRoom steps)).1 ≠ 0 →
          (tableAfter dirname nfd block hRoom steps).SameEntries
            (call.result
              (tableAfter dirname nfd block hRoom steps)).2) := by
  have hPaired :=
    PollTable.paired_tableAfter dirname nfd hRoom steps
  refine ⟨hPaired.notices, hPaired.pairs_eq, ?_⟩
  intro call
  exact ⟨PollTable.result_eq_zero_iff call _,
    PollTable.sameEntries_of_fails⟩

/- Calls of `open_device` that succeed with these results. -/
def opensAs
    (fd : Nat → Int32)
    (k : Nat) : OpenCalls where
  fd := fd k
  version := 0
  id := 0
  ufds := some fun _ => ⟨0, 0, 0⟩
  deviceNames := some fun _ => []

/- `a` and `b` are opened, and `a` is removed. -/
def openTwo : List TableStep :=
  [.scanDir (some [['a'], ['b']])
      (opensAs fun k => if k = 0 then 4 else 5),
    .single (.closeDevice ['d', '/', 'a'])]

theorem pairs_of_steps_openTwo :
    (tableAfter ['d'] 3 [⟨9, 0, 1⟩, ⟨8, 0, 1⟩] (by decide)
      openTwo).pairs = [(['d', '/', 'b'], 5)] :=
  (pairs_of_steps ['d'] 3 _ openTwo).2.1.trans (by decide)

end FzEvent

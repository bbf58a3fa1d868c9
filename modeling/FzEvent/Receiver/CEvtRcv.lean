import FzEvent.Receiver.RecognizeEvent

/-
  The static functions of `CEvtRcv` that handle one received
  event: the text report and the event file.

  A failed `ACE_ASSERT` is `none`. Opening and writing files
  is assumed to succeed.

  Main declarations:
    * `FzEvent.CEvtRcv`, the static members and the files
    * `CEvtRcv.makeEventFile`, `writeEventFile` and
      `closeEventFile`
    * `CEvtRcv.onEventCapture`
-/

------------------------------------------------------------
-- Static Members
------------------------------------------------------------

namespace FzEvent

/-
  The static members of `CEvtRcv` and the files on disk:
  `_sFpEvt` is the content of the open event file, `closed`
  the event files closed so far, newest first.
-/
structure CEvtRcv where
  sEventSequence : UInt32
  sFpEvt : Option (List UInt8)
  closed : List (List UInt8)
  reports : List Report
deriving DecidableEq, Repr

namespace CEvtRcv

def init : CEvtRcv where
  sEventSequence := 0
  sFpEvt := none
  closed := []
  reports := []

end CEvtRcv

end FzEvent

------------------------------------------------------------
-- The Event File
------------------------------------------------------------

namespace FzEvent

/- `tok_type` and `end_file1` -/
def tokType : UInt32 := 0xffffffff

/- `end_file2` -/
def endFile2 : UInt32 := 0x8fffffff

/- The type that is written: 0 for a report. -/
def recordType
    (type : UInt16)
    (entry : Entry) : UInt16 :=
  if entry.code = 0 ∧ entry.value = 0 then 0 else type

/- What one round of the loop of `writeEventFile` writes. -/
def encodeRecord
    (devId : Int32)
    (type : UInt16)
    (entry : Entry) : List UInt8 :=
  timeval.encode entry.tv ++
    (s32.encode devId ++
      (u16.encode (recordType type entry) ++
        (u16.encode entry.code ++ u32.encode entry.value)))

/- The word pair after the records of an event. -/
def separator : List UInt8 :=
  u32.encode tokType ++ u32.encode tokType

/- The word pair at the end of the file. -/
def endOfFile : List UInt8 :=
  u32.encode tokType ++ u32.encode endFile2

/- All that one call of `writeEventFile` writes. -/
def encodeGroup (e : DevicePacketEvent) : List UInt8 :=
  e.entries.flatMap (encodeRecord e.devId e.type) ++ separator

namespace CEvtRcv

/- `makeEventFile` -/
def makeEventFile (s : CEvtRcv) : CEvtRcv :=
  match s.sFpEvt with
  | some _ => s
  | none => { s with sFpEvt := some [] }

/- `writeEventFile` -/
def writeEventFile
    (s : CEvtRcv)
    (e : DevicePacketEvent) : Option CEvtRcv :=
  match s.sFpEvt with
  | none => none
  | some file =>
      some { s with sFpEvt := some (file ++ encodeGroup e) }

/- `closeEventFile` -/
def closeEventFile (s : CEvtRcv) : Option CEvtRcv :=
  match s.sFpEvt with
  | none => none
  | some file =>
      some { s with
        sFpEvt := none
        closed := (file ++ endOfFile) :: s.closed }

/- One call of `writeEventFile` per event. -/
def writeEvents
    (s : CEvtRcv)
    (events : List DevicePacketEvent) : Option CEvtRcv :=
  events.foldlM writeEventFile s

theorem sFpEvt_makeEventFile_ne_none
    (s : CEvtRcv) :
    s.makeEventFile.sFpEvt ≠ none := by
  unfold makeEventFile
  split
  · next file hFile =>
    simp [hFile]
  · simp

/- The assertion passes only with the file open. -/
theorem sFpEvt_ne_none_of_writeEventFile
    {s t : CEvtRcv}
    {e : DevicePacketEvent}
    (hWrite : s.writeEventFile e = some t) :
    t.sFpEvt ≠ none := by
  unfold writeEventFile at hWrite
  split at hWrite
  · cases hWrite
  · cases hWrite
    simp

theorem sFpEvt_of_closeEventFile
    {s t : CEvtRcv}
    (hClose : s.closeEventFile = some t) :
    t.sFpEvt = none := by
  unfold closeEventFile at hClose
  split at hClose
  · cases hClose
  · cases hClose
    rfl

/- A written event is appended to the open file. -/
theorem writeEventFile_of_open
    {s : CEvtRcv}
    {file : List UInt8}
    (hOpen : s.sFpEvt = some file)
    (e : DevicePacketEvent) :
    s.writeEventFile e =
      some { s with
        sFpEvt := some (file ++ encodeGroup e) } := by
  simp [writeEventFile, hOpen]

theorem closeEventFile_of_open
    {s : CEvtRcv}
    {file : List UInt8}
    (hOpen : s.sFpEvt = some file) :
    s.closeEventFile =
      some { s with
        sFpEvt := none
        closed := (file ++ endOfFile) :: s.closed } := by
  simp [closeEventFile, hOpen]

/- The file is the concatenation of the written groups. -/
theorem writeEvents_of_open
    {s : CEvtRcv}
    {file : List UInt8}
    (hOpen : s.sFpEvt = some file)
    (events : List DevicePacketEvent) :
    s.writeEvents events =
      some { s with
        sFpEvt :=
          some (file ++ events.flatMap encodeGroup) } := by
  induction events generalizing s file with
  | nil => simp [writeEvents, ← hOpen]
  | cons e events ih =>
      have hTail :=
        ih (s := { s with
          sFpEvt := some (file ++ encodeGroup e) }) rfl
      simp only [writeEvents] at hTail
      simp only [writeEvents, List.foldlM_cons,
        writeEventFile_of_open hOpen, Option.bind_eq_bind,
        Option.bind_some, hTail, List.flatMap_cons,
        List.append_assoc]

/- A recording from its first to its last word. -/
theorem closeEventFile_writeEvents
    {s : CEvtRcv}
    (hClosed : s.sFpEvt = none)
    (events : List DevicePacketEvent) :
    (s.makeEventFile.writeEvents events).bind
        closeEventFile =
      some { s with
        closed :=
          (events.flatMap encodeGroup ++ endOfFile) ::
            s.closed } := by
  have hOpen : s.makeEventFile.sFpEvt = some [] := by
    simp [makeEventFile, hClosed]
  rw [writeEvents_of_open hOpen, Option.bind_some,
    closeEventFile_of_open rfl]
  simp [makeEventFile, hClosed]

end CEvtRcv

end FzEvent

------------------------------------------------------------
-- One Received Event
------------------------------------------------------------

namespace FzEvent

namespace CEvtRcv

/- `write` -/
def write
    (s : CEvtRcv)
    (tv : Timeval)
    (isKey isMultitouch isSwipe : Bool)
    (e : DevicePacketEvent) : CEvtRcv :=
  { s with
    sEventSequence := s.sEventSequence + 1
    reports := s.reports ++
      [⟨s.sEventSequence, tv,
        reportName isKey isMultitouch isSwipe, e⟩] }

/- The report that is written of a received event. -/
def reportEvent
    (s : CEvtRcv)
    (tv : Timeval)
    (e : DevicePacketEvent) : CEvtRcv :=
  let evtType := recognizeEvent e
  s.write tv (evtType = .key) (evtType = .multitouch)
    (evtType = .swipe) e

/-
  `OnEventCapture` on the memory `pBuffer`. It is `none` when
  the decoder reads past the memory or an assertion fails;
  otherwise the decoded event is returned with the state.
-/
def onEventCapture
    (s : CEvtRcv)
    (pBuffer : List UInt8)
    (len : UInt32)
    (tv : Timeval) :
    Option (CEvtRcv × DevicePacketEvent) := do
  let (e, lenGet) ← parseEvtPacket pBuffer
  guard (lenGet = len)
  let s ← (s.reportEvent tv e).writeEventFile e
  return (s, e)

@[simp] theorem sFpEvt_reportEvent
    (s : CEvtRcv)
    (tv : Timeval)
    (e : DevicePacketEvent) :
    (s.reportEvent tv e).sFpEvt = s.sFpEvt := rfl

/-
  With the file open, a decoded event of the length `len` is
  reported and appended.
-/
theorem onEventCapture_of_open
    {s : CEvtRcv}
    {file : List UInt8}
    (hOpen : s.sFpEvt = some file)
    {pBuffer : List UInt8}
    {e : DevicePacketEvent}
    {len : UInt32}
    (hParse : parseEvtPacket pBuffer = some (e, len))
    (tv : Timeval) :
    s.onEventCapture pBuffer len tv =
      some ({ s.reportEvent tv e with
        sFpEvt := some (file ++ encodeGroup e) }, e) := by
  have hOpen' : (s.reportEvent tv e).sFpEvt = some file := by
    rw [sFpEvt_reportEvent, hOpen]
  simp [onEventCapture, hParse, guard,
    writeEventFile_of_open hOpen']

end CEvtRcv

end FzEvent

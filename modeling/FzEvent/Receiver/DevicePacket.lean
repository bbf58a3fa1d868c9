import FzEvent.Recorder.EventInfo

/-
  The receiver's side of the packet format: `parseHeader` and
  `parseEvtPacket` on raw memory.

  A read past the end of the memory is `none`.

  Main declarations:
    * `FzEvent.DevicePacketHeader`, `DevicePacketEvent`
    * `FzEvent.parseHeader`
    * `FzEvent.parseEvtPacket`
-/

------------------------------------------------------------
-- Decoded Packets
------------------------------------------------------------

namespace FzEvent

/- `device_packet_header` -/
structure DevicePacketHeader where
  tv : Timeval
  type : UInt32
deriving DecidableEq, Repr

/-
  `device_packet_event`. The vectors `tv`, `id`, `code` and
  `value` are pushed together, `count` times, so they are one
  list of entries whose length is the count.
-/
structure DevicePacketEvent where
  type : UInt16
  devId : Int32
  entries : List Entry
deriving DecidableEq, Repr

namespace DevicePacketEvent

def count (e : DevicePacketEvent) : Nat :=
  e.entries.length

end DevicePacketEvent

end FzEvent

------------------------------------------------------------
-- Decoders
------------------------------------------------------------

namespace FzEvent

/- `sizeof(device_packet_header)` -/
def sizeofHeader : Nat := 12

/- `parseHeader`: the header and the body length. -/
def parseHeader
    (p : List UInt8) :
    Option (DevicePacketHeader × UInt32) := do
  let (tv, p) ← timeval.read p
  let (type, p) ← u32.read p
  let (len, _) ← u32.read p
  return (⟨tv, type⟩, len)

/- The loop of `parseEvtPacket`, with the length it counts. -/
def parseEvtEntries :
    Nat → List UInt8 → UInt32 → Option (List Entry × UInt32)
| 0, _, len => some ([], len)
| n + 1, p, len => do
    let (tv, p) ← timeval.read p
    let (id, p) ← s32.read p
    let (code, p) ← u16.read p
    let (value, p) ← u32.read p
    let (entries, len) ←
      parseEvtEntries n p (len + 8 + 4 + 2 + 4)
    return (⟨tv, id, code, value⟩ :: entries, len)

/- `parseEvtPacket`: the event and the number of bytes read. -/
def parseEvtPacket
    (p : List UInt8) :
    Option (DevicePacketEvent × UInt32) := do
  let (type, p) ← u16.read p
  let (count, p) ← u32.read p
  let (devId, p) ← s32.read p
  let (entries, len) ←
    parseEvtEntries count.toNat p (2 + 4 + 4)
  return (⟨type, devId, entries⟩, len)

end FzEvent

import FzEvent.Recorder.EventInfo

/-
  The packets that the recorder sends: `packet_header` and
  the two encoders `make_surface_packet` and
  `make_event_packet`.

  Main declarations:
    * `FzEvent.PacketHeader` with `ofSize` and `ofType`
    * `FzEvent.makeSurfacePacket`
    * `FzEvent.makeEventPacket`
-/

------------------------------------------------------------
-- Packet Headers
------------------------------------------------------------

namespace FzEvent

/- `PACKET_TYPE_MASK` -/
def packetTypeMask : UInt32 := 0x80008000

/- `PACKET_TYPE_EVENT` -/
def packetTypeEvent : UInt32 := 0x80008000

/-
  `packet_header`: the time and the union of `type` with the
  pair of `width` (low half) and `height` (high half).
-/
structure PacketHeader where
  tv : Timeval
  type : UInt32
deriving DecidableEq, Repr

namespace PacketHeader

/- `packet_header(width, height)` at the time `tv`. -/
def ofSize
    (tv : Timeval)
    (width height : UInt16) : PacketHeader where
  tv := tv
  type := UInt32.ofNat (width.toNat + 65536 * height.toNat)

/- `packet_header(type)` at the time `tv`. -/
def ofType
    (tv : Timeval)
    (type : UInt32) : PacketHeader where
  tv := tv
  type := packetTypeMask ||| type

def width (header : PacketHeader) : UInt16 :=
  UInt16.ofNat header.type.toNat

def height (header : PacketHeader) : UInt16 :=
  UInt16.ofNat (header.type.toNat / 65536)

@[simp] theorem tv_ofSize
    (tv : Timeval)
    (width height : UInt16) :
    (ofSize tv width height).tv = tv := rfl

@[simp] theorem tv_ofType
    (tv : Timeval)
    (type : UInt32) :
    (ofType tv type).tv = tv := rfl

@[simp] theorem width_ofSize
    (tv : Timeval)
    (width height : UInt16) :
    (ofSize tv width height).width = width := by
  have hWidth := width.toNat_lt
  have hHeight := height.toNat_lt
  apply UInt16.toNat_inj.mp
  simp only [PacketHeader.width, ofSize, UInt16.toNat_ofNat',
    UInt32.toNat_ofNat']
  omega

@[simp] theorem height_ofSize
    (tv : Timeval)
    (width height : UInt16) :
    (ofSize tv width height).height = height := by
  have hWidth := width.toNat_lt
  have hHeight := height.toNat_lt
  apply UInt16.toNat_inj.mp
  simp only [PacketHeader.height, ofSize, UInt16.toNat_ofNat',
    UInt32.toNat_ofNat']
  omega

end PacketHeader

end FzEvent

------------------------------------------------------------
-- Encoders
------------------------------------------------------------

namespace FzEvent

/-
  `make_surface_packet`: header, then `len` bytes of the
  body. The second component is `*out_len`.
-/
def makeSurfacePacket
    (header : PacketHeader)
    (body : List UInt8)
    (len : UInt32) : List UInt8 × UInt32 :=
  (timeval.encode header.tv ++
    (u16.encode header.width ++
      (u16.encode header.height ++
        (u32.encode len ++ body.take len.toNat))),
    8 + 2 + 2 + 4 + len)

/- One entry of the body: time, id, code and value. -/
def encodeEntry (entry : Entry) : List UInt8 :=
  timeval.encode entry.tv ++
    (s32.encode entry.id ++
      (u16.encode entry.code ++ u32.encode entry.value))

/- The body length as the code computes it, in 32 bits. -/
def eventBodyLen (ei : EventInfo) : UInt32 :=
  2 + 4 + 4 + (8 + 4 + 2 + 4) * UInt32.ofNat ei.count

/- The body of an event packet. -/
def encodeEventBody (ei : EventInfo) : List UInt8 :=
  u16.encode ei.eventType ++
    (u32.encode (UInt32.ofNat ei.count) ++
      (s32.encode ei.devId ++ ei.entries.flatMap encodeEntry))

/-
  `make_event_packet`: header, body length and body. The
  second component is `*_len`.
-/
def makeEventPacket
    (header : PacketHeader)
    (ei : EventInfo) : List UInt8 × UInt32 :=
  (timeval.encode header.tv ++
    (u32.encode header.type ++
      (u32.encode (eventBodyLen ei) ++ encodeEventBody ei)),
    eventBodyLen ei + (8 + 4 + 4))

/- The packet that the recorder makes of a gesture. -/
def gesturePacket
    (tv : Timeval)
    (ei : EventInfo) : List UInt8 :=
  (makeEventPacket (PacketHeader.ofType tv packetTypeEvent)
    ei).1

/- The body length wraps around at 2^32. -/
theorem toNat_eventBodyLen_eq_mod
    (ei : EventInfo) :
    (eventBodyLen ei).toNat =
      (10 + 18 * ei.count) % 2 ^ 32 := by
  have hFields : (8 + 4 + 2 + 4 : UInt32) = 18 := rfl
  have hHead : (2 + 4 + 4 : UInt32) = 10 := rfl
  simp only [eventBodyLen, hFields, hHead, UInt32.toNat_add,
    UInt32.toNat_mul, UInt32.toNat_ofNat',
    UInt32.reduceToNat]
  omega

theorem toNat_eventBodyLen
    {ei : EventInfo}
    (hBound : 26 + 18 * ei.count < 2 ^ 32) :
    (eventBodyLen ei).toNat = 10 + 18 * ei.count := by
  rw [toNat_eventBodyLen_eq_mod]
  exact Nat.mod_eq_of_lt (by omega)

theorem length_encodeEntry
    (entry : Entry) :
    (encodeEntry entry).length = 18 := by
  simp [encodeEntry]

theorem length_encodeEventBody
    (ei : EventInfo) :
    (encodeEventBody ei).length = 10 + 18 * ei.count := by
  have hEntries :
      (ei.entries.flatMap encodeEntry).length =
        18 * ei.entries.length := by
    induction ei.entries with
    | nil => rfl
    | cons entry entries ih =>
        rw [List.flatMap_cons, List.length_append, ih,
          length_encodeEntry, List.length_cons]
        omega
  simp only [encodeEventBody, List.length_append,
    ByteCodec.Codec.length_encode, hEntries, u16_width,
    u32_width, s32_width, EventInfo.count]
  omega

end FzEvent

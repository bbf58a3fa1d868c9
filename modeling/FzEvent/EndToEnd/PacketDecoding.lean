import FzEvent.EndToEnd.Wire

/-
  What `parseEvtPacket` accepts: which bytes it reads of a
  body, and when the length it counts is the length given.

  The loop is bounded by the count in the body alone, and the
  length is compared only behind the loop.

  Main declarations:
    * `FzEvent.parseEvtPacket_eq_some_iff`
    * `FzEvent.announcedCount` and `FzEvent.HoldsEntries`
    * `FzEvent.DecodesInside`
    * `FzEvent.decodesInside_iff_holdsEntries`
-/

------------------------------------------------------------
-- Successful Decoding
------------------------------------------------------------

namespace FzEvent

/- The gesture whose packet the decoded event would be. -/
def DevicePacketEvent.sent
    (e : DevicePacketEvent) : EventInfo :=
  ⟨e.type, e.devId, e.entries⟩

@[simp] theorem count_sent
    (e : DevicePacketEvent) :
    e.sent.count = e.count := rfl

/- The receiver's event and its gesture are the same data. -/
theorem parseEvtPacket_sent
    {e : DevicePacketEvent}
    (hCount : e.count < 2 ^ 32)
    (rest : List UInt8) :
    parseEvtPacket (encodeEventBody e.sent ++ rest) =
      some (e, eventBodyLen e.sent) := by
  rw [← count_sent] at hCount
  exact parseEvtPacket_encodeEventBody hCount rest

/- Reading one entry is reading in front of its encoding. -/
theorem parseEvtEntries_succ_eq_some_iff
    {n : Nat}
    {p : List UInt8}
    {len len' : UInt32}
    {entries : List Entry} :
    parseEvtEntries (n + 1) p len = some (entries, len') ↔
      ∃ entry rest others, entries = entry :: others ∧
        p = encodeEntry entry ++ rest ∧
        parseEvtEntries n rest (len + 8 + 4 + 2 + 4) =
          some (others, len') := by
  simp only [parseEvtEntries, Option.bind_eq_bind,
    Option.bind_eq_some_iff, Prod.exists,
    ByteCodec.Codec.read_eq_some_iff]
  constructor
  · rintro ⟨tv, _, rfl, id, _, rfl, code, _, rfl, value, rest,
      rfl, others, len'', hOthers, hEnd⟩
    cases hEnd
    exact ⟨⟨tv, id, code, value⟩, rest, others, rfl,
      by simp [encodeEntry], hOthers⟩
  · rintro ⟨entry, rest, others, rfl, rfl, hOthers⟩
    refine ⟨entry.tv, _, ?_, entry.id, _, rfl, entry.code, _,
      rfl, entry.value, rest, rfl, others, len', hOthers, rfl⟩
    simp [encodeEntry]

/- The loop reads exactly the encoding of its entries. -/
theorem exists_of_parseEvtEntries
    {n : Nat}
    {p : List UInt8}
    {len len' : UInt32}
    {entries : List Entry}
    (hParse : parseEvtEntries n p len = some (entries, len')) :
    entries.length = n ∧
      ∃ rest, p = entries.flatMap encodeEntry ++ rest := by
  induction n generalizing p len entries with
  | zero =>
      cases hParse
      exact ⟨rfl, p, rfl⟩
  | succ n ih =>
      rcases parseEvtEntries_succ_eq_some_iff.mp hParse with
        ⟨entry, rest, others, rfl, rfl, hOthers⟩
      rcases ih hOthers with ⟨hLength, tail, rfl⟩
      refine ⟨by rw [List.length_cons, hLength], tail, ?_⟩
      rw [List.flatMap_cons, List.append_assoc]

/- Decoding succeeds exactly in front of an encoded body. -/
theorem parseEvtPacket_eq_some_iff
    {p : List UInt8}
    {e : DevicePacketEvent}
    {lenGet : UInt32} :
    parseEvtPacket p = some (e, lenGet) ↔
      e.count < 2 ^ 32 ∧ lenGet = eventBodyLen e.sent ∧
        ∃ rest, p = encodeEventBody e.sent ++ rest := by
  constructor
  · intro hParse
    have hBytes :
        e.count < 2 ^ 32 ∧
          ∃ rest, p = encodeEventBody e.sent ++ rest := by
      simp only [parseEvtPacket, Option.bind_eq_bind,
        Option.bind_eq_some_iff, Prod.exists,
        ByteCodec.Codec.read_eq_some_iff] at hParse
      rcases hParse with
        ⟨type, _, rfl, count, _, rfl, devId, _, rfl, entries,
          _, hEntries, hEnd⟩
      cases hEnd
      rcases exists_of_parseEvtEntries hEntries with
        ⟨hLength, rest, rfl⟩
      have hCount :
          UInt32.ofNat entries.length = count := by
        rw [hLength, UInt32.ofNat_toNat]
      refine ⟨?_, rest, ?_⟩
      · rw [DevicePacketEvent.count, hLength]
        exact count.toNat_lt
      · simp [encodeEventBody, DevicePacketEvent.sent,
          EventInfo.count, hCount]
    rcases hBytes with ⟨hCount, rest, rfl⟩
    rw [parseEvtPacket_sent hCount] at hParse
    cases hParse
    exact ⟨hCount, rfl, rest, rfl⟩
  · rintro ⟨hCount, rfl, rest, rfl⟩
    exact parseEvtPacket_sent hCount rest

end FzEvent

------------------------------------------------------------
-- The Announced Count
------------------------------------------------------------

namespace FzEvent

/- The count in a body, when the body reaches that far. -/
def announcedCount (buffer : List UInt8) : Option UInt32 :=
  (u32.read (buffer.drop 2)).map Prod.fst

/- The body has room for the entries that it announces. -/
def HoldsEntries (buffer : List UInt8) : Prop :=
  ∃ count, announcedCount buffer = some count ∧
    10 + 18 * count.toNat ≤ buffer.length

theorem announcedCount_encodeEventBody
    (ei : EventInfo)
    (rest : List UInt8) :
    announcedCount (encodeEventBody ei ++ rest) =
      some (UInt32.ofNat ei.count) := by
  have hDrop :
      (encodeEventBody ei ++ rest).drop 2 =
        u32.encode (UInt32.ofNat ei.count) ++
          (s32.encode ei.devId ++
            (ei.entries.flatMap encodeEntry ++ rest)) := by
    simp only [encodeEventBody, List.append_assoc]
    exact List.drop_left' (u16.length_encode _)
  simp [announcedCount, hDrop]

/- Where there is room for the entries, they are read. -/
theorem exists_parseEvtEntries
    {n : Nat}
    {p : List UInt8}
    (hRoom : 18 * n ≤ p.length)
    (len : UInt32) :
    ∃ result, parseEvtEntries n p len = some result := by
  induction n generalizing p len with
  | zero => exact ⟨_, rfl⟩
  | succ n ih =>
      rcases timeval.exists_read
          (by rw [timeval_width]; omega : _ ≤ p.length) with
        ⟨tv, afterTv, hTv, hTvLength⟩
      rw [timeval_width] at hTvLength
      rcases s32.exists_read
          (by rw [s32_width]; omega : _ ≤ afterTv.length) with
        ⟨id, afterId, hId, hIdLength⟩
      rw [s32_width] at hIdLength
      rcases u16.exists_read
          (by rw [u16_width]; omega : _ ≤ afterId.length) with
        ⟨code, afterCode, hCode, hCodeLength⟩
      rw [u16_width] at hCodeLength
      rcases u32.exists_read
          (by rw [u32_width]; omega : _ ≤ afterCode.length) with
        ⟨value, rest, hValue, hValueLength⟩
      rw [u32_width] at hValueLength
      rcases ih (p := rest) (by omega)
          (len + 8 + 4 + 2 + 4) with
        ⟨⟨entries, len'⟩, hRest⟩
      exact ⟨_, by
        simp only [parseEvtEntries, hTv, hId, hCode, hValue,
          hRest, Option.bind_eq_bind, Option.bind_some]
        rfl⟩

/- The decoder stays in a body that holds its entries. -/
theorem exists_parseEvtPacket
    {buffer : List UInt8}
    (hHolds : HoldsEntries buffer) :
    ∃ result, parseEvtPacket buffer = some result := by
  rcases hHolds with ⟨count, hCount, hRoom⟩
  rcases u16.exists_read
      (by rw [u16_width]; omega : _ ≤ buffer.length) with
    ⟨type, afterType, hType, hTypeLength⟩
  rw [u16_width] at hTypeLength
  have hDrop : buffer.drop 2 = afterType := by
    rw [u16.read_eq_some_iff.mp hType]
    exact List.drop_left' (u16.length_encode _)
  rw [announcedCount, hDrop, Option.map_eq_some_iff] at hCount
  rcases hCount with ⟨⟨announced, afterCount⟩, hRead, hEq⟩
  dsimp only at hEq
  subst hEq
  have hCountLength := u32.length_of_read hRead
  rw [u32_width] at hCountLength
  rcases s32.exists_read
      (by rw [s32_width]; omega : _ ≤ afterCount.length) with
    ⟨devId, rest, hDevId, hRestLength⟩
  rw [s32_width] at hRestLength
  have hRestRoom : 18 * announced.toNat ≤ rest.length := by
    omega
  rcases exists_parseEvtEntries hRestRoom (2 + 4 + 4) with
    ⟨⟨entries, len⟩, hEntries⟩
  exact ⟨_, by
    simp only [parseEvtPacket, hType, hRead, hDevId, hEntries,
      Option.bind_eq_bind, Option.bind_some]
    rfl⟩

end FzEvent

------------------------------------------------------------
-- Decoding inside the Packet
------------------------------------------------------------

namespace FzEvent

/-
  The decoder finds all it reads in the `len` bytes of the
  buffer; and whatever lies behind them in memory, the length
  it counts is `len` exactly when the buffer is the body of a
  packet with the decoded event.
-/
structure DecodesInside
    (buffer : List UInt8)
    (len : UInt32) : Prop where
  inside : ∃ result, parseEvtPacket buffer = some result
  exact :
    ∀ beyond e lenGet,
      parseEvtPacket (buffer ++ beyond) = some (e, lenGet) →
        (lenGet = len ↔ buffer = encodeEventBody e.sent)

/- A decoded body holds the entries that it announces. -/
theorem holdsEntries_of_parseEvtPacket
    {buffer : List UInt8}
    {e : DevicePacketEvent}
    {lenGet : UInt32}
    (hParse : parseEvtPacket buffer = some (e, lenGet)) :
    HoldsEntries buffer := by
  rcases parseEvtPacket_eq_some_iff.mp hParse with
    ⟨hCount, _, rest, rfl⟩
  refine ⟨_, announcedCount_encodeEventBody _ rest, ?_⟩
  rw [UInt32.toNat_ofNat', count_sent,
    Nat.mod_eq_of_lt hCount, List.length_append,
    length_encodeEventBody, count_sent]
  omega

/-
  The decoder stays inside a buffer exactly when the buffer
  is as long as its own count requires. Then the assertion
  passes just for the encodings.
-/
theorem decodesInside_iff_holdsEntries
    {buffer : List UInt8}
    {len : UInt32}
    (hLen : buffer.length = len.toNat) :
    DecodesInside buffer len ↔ HoldsEntries buffer := by
  constructor
  · intro hDecodes
    rcases hDecodes.inside with ⟨⟨e, lenGet⟩, hParse⟩
    exact holdsEntries_of_parseEvtPacket hParse
  · intro hHolds
    rcases exists_parseEvtPacket hHolds with
      ⟨⟨e, lenGet⟩, hParse⟩
    refine ⟨⟨_, hParse⟩, ?_⟩
    intro beyond e' lenGet' hBeyond
    rcases parseEvtPacket_eq_some_iff.mp hParse with
      ⟨hCount, rfl, rest, rfl⟩
    rw [List.append_assoc, parseEvtPacket_sent hCount]
      at hBeyond
    cases hBeyond
    have hLength :
        (encodeEventBody e.sent ++ rest).length =
          10 + 18 * e.count + rest.length := by
      rw [List.length_append, length_encodeEventBody,
        count_sent]
    have hLt := len.toNat_lt
    -- The buffer is shorter than 2^32, so nothing wraps.
    have hBodyLen :
        (eventBodyLen e.sent).toNat = 10 + 18 * e.count := by
      rw [toNat_eventBodyLen_eq_mod, count_sent]
      exact Nat.mod_eq_of_lt (by omega)
    rw [← UInt32.toNat_inj, hBodyLen, ← hLen, hLength,
      List.append_right_eq_self, ← List.length_eq_zero_iff]
    omega

/- The body of a packet with one press of the key 116. -/
theorem decodesInside_iff_holdsEntries_key :
    DecodesInside
        [1, 0, 1, 0, 0, 0, 0, 0, 0, 0,
          1, 0, 0, 0, 0, 0, 0, 0, 255, 255, 255, 255, 116, 0,
          1, 0, 0, 0] 28 ↔
      HoldsEntries
        [1, 0, 1, 0, 0, 0, 0, 0, 0, 0,
          1, 0, 0, 0, 0, 0, 0, 0, 255, 255, 255, 255, 116, 0,
          1, 0, 0, 0] :=
  decodesInside_iff_holdsEntries (by decide)

/-
  A body of ten bytes that announces one entry: the decoder
  reads on behind its end.
-/
theorem not_decodesInside_truncated :
    ¬ DecodesInside [3, 0, 1, 0, 0, 0, 2, 0, 0, 0] 10 := by
  intro hDecodes
  rcases hDecodes.inside with ⟨result, hParse⟩
  have hNone :
      parseEvtPacket [3, 0, 1, 0, 0, 0, 2, 0, 0, 0] =
        none := by
    decide +kernel
  rw [hNone] at hParse
  cases hParse

end FzEvent

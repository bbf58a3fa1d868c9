import Mathlib.Data.List.Basic

/-
  `surface_getter::_get_raw_buffer`, which reads the frame
  from the pipe into the raw buffer.

  The first read asks for 1024 bytes however small the frame
  is. The size of the next read is adapted only when the rest
  of the frame is smaller as an unsigned word, so once the
  frame is overrun it is never adapted again.

  Main declarations:
    * `SurfaceGetter.fread` and `SurfaceGetter.rawRound`
    * `SurfaceGetter.getRawBuffer`
    * `SurfaceGetter.Fits`
    * `SurfaceGetter.FillsFrame`
    * `SurfaceGetter.fillsFrame_iff`
-/

------------------------------------------------------------
-- Reading the Pipe
------------------------------------------------------------

namespace FzEvent

namespace SurfaceGetter

/- `buff_size` -/
def buffSize : UInt32 := 1 * 1024

/-
  `fread(buff, 1, read_size, fp)`: the bytes that it delivers
  and those left in the pipe. It delivers at least one of the
  bytes asked for, unless the stream has ended, and otherwise
  as many of them as it likes.
-/
def fread
    (readSize : Int32)
    (piece : Nat)
    (fp : List UInt8) : List UInt8 × List UInt8 :=
  let ret := min (max 1 piece) readSize.toUInt32.toNat
  (fp.take ret, fp.drop ret)

/- What is read splits the stream. -/
theorem fread_append
    (readSize : Int32)
    (piece : Nat)
    (fp : List UInt8) :
    (fread readSize piece fp).1 ++ (fread readSize piece fp).2 =
      fp :=
  List.take_append_drop _ fp

/- A piece that is read shortens what is left. -/
theorem length_lt_of_fread
    {readSize : Int32}
    {piece : Nat}
    {fp : List UInt8}
    (hRead : (fread readSize piece fp).1 ≠ []) :
    (fread readSize piece fp).2.length < fp.length := by
  have hSplit :=
    congrArg List.length (fread_append readSize piece fp)
  have hPos := List.length_pos_iff.mpr hRead
  rw [List.length_append] at hSplit
  omega

/-
  The local variables, and the bytes stored from the start of
  `p` on. An `int` wraps around, which a frame of less than
  2^31 bytes does not bring about.
-/
structure RawBuffer where
  totalRead : Int32
  readSize : Int32
  stored : List UInt8
deriving DecidableEq, Repr

/- One round of the loop, which got `buff` from the pipe. -/
def rawRound
    (fbSize : Int32)
    (s : RawBuffer)
    (buff : List UInt8) : RawBuffer :=
  let totalRead := s.totalRead + Int32.ofNat buff.length
  { totalRead := totalRead
    readSize :=
      if (fbSize - totalRead).toUInt32 < buffSize then
        fbSize - totalRead
      else
        s.readSize
    stored := s.stored ++ buff }

/-
  The loop; call `k` of `fread` delivers `pieces k` bytes if
  it can.
-/
def rawLoop
    (fbSize : Int32)
    (pieces : Nat → Nat)
    (k : Nat)
    (s : RawBuffer)
    (fp : List UInt8) : RawBuffer :=
  if hEnd : (fread s.readSize (pieces k) fp).1 = [] then
    s
  else
    rawLoop fbSize pieces (k + 1)
      (rawRound fbSize s (fread s.readSize (pieces k) fp).1)
      (fread s.readSize (pieces k) fp).2
termination_by fp.length
decreasing_by exact length_lt_of_fread hEnd

/- The variables before the loop. -/
def RawBuffer.init : RawBuffer where
  totalRead := 0
  readSize := buffSize.toInt32
  stored := []

/- `_get_raw_buffer` for frames of `size` bytes. -/
def getRawBuffer
    (size : UInt32)
    (pieces : Nat → Nat)
    (fp : List UInt8) : List UInt8 :=
  (rawLoop size.toInt32 pieces 0 RawBuffer.init fp).stored

theorem length_fread_le
    (readSize : Int32)
    (piece : Nat)
    (fp : List UInt8) :
    (fread readSize piece fp).1.length ≤
      readSize.toUInt32.toNat := by
  simp only [fread, List.length_take]
  omega

/- Nothing is read only at the end or when nothing is asked. -/
theorem fread_eq_nil
    {readSize : Int32}
    {piece : Nat}
    {fp : List UInt8}
    (hEnd : (fread readSize piece fp).1 = []) :
    readSize.toUInt32.toNat = 0 ∨ fp = [] := by
  simp only [fread, List.take_eq_nil_iff] at hEnd
  rcases hEnd with hZero | hStream
  · left
    omega
  · exact Or.inr hStream

/- What has been stored stays. -/
theorem stored_prefix_rawLoop
    (fbSize : Int32)
    (pieces : Nat → Nat)
    (k : Nat)
    (s : RawBuffer)
    (fp : List UInt8) :
    s.stored <+: (rawLoop fbSize pieces k s fp).stored := by
  fun_induction rawLoop fbSize pieces k s fp with
  | case1 k s fp hEnd => exact List.prefix_rfl
  | case2 k s fp hEnd ih =>
      exact (List.prefix_append _ _).trans ih

end SurfaceGetter

end FzEvent

------------------------------------------------------------
-- The Bound
------------------------------------------------------------

namespace FzEvent

namespace SurfaceGetter

/-
  The variables agree with what is stored: the next read asks
  for the rest of the frame, but for at most 1024 bytes.
-/
structure Fits
    (size : UInt32)
    (s : RawBuffer) : Prop where
  length_le : s.stored.length ≤ size.toNat
  totalRead_eq :
    s.totalRead.toUInt32.toNat = s.stored.length
  readSize_eq :
    s.readSize.toUInt32.toNat =
      min 1024 (size.toNat - s.stored.length)

theorem toUInt32_ofNat
    {n : Nat}
    (hLt : n < UInt32.size) :
    (Int32.ofNat n).toUInt32.toNat = n := by
  rw [Int32.toUInt32_ofNat']
  exact UInt32.toNat_ofNat_of_lt' hLt

/-
  A piece that stays in the frame leaves the variables right,
  if the next read may ask for 1024 bytes where as many are
  still missing.
-/
theorem fits_rawRound
    {size : UInt32}
    {s : RawBuffer}
    {buff : List UInt8}
    (hTotal : s.totalRead.toUInt32.toNat = s.stored.length)
    (hInside :
      s.stored.length + buff.length ≤ size.toNat)
    (hFull :
      1024 ≤ size.toNat - (s.stored.length + buff.length) →
        s.readSize.toUInt32.toNat = 1024) :
    Fits size (rawRound size.toInt32 s buff) := by
  have hSizeLt := size.toNat_lt
  have hLess : buff.length ≤ size.toNat := by omega
  have hBuff : (Int32.ofNat buff.length).toUInt32.toNat =
      buff.length :=
    toUInt32_ofNat
      (Nat.lt_of_le_of_lt hLess size.toNat_lt_size)
  have hNext :
      (s.totalRead +
          Int32.ofNat buff.length).toUInt32.toNat =
        s.stored.length + buff.length := by
    rw [Int32.toUInt32_add, UInt32.toNat_add, hTotal, hBuff]
    exact Nat.mod_eq_of_lt (by omega)
  have hRest :
      (size.toInt32 - (s.totalRead +
          Int32.ofNat buff.length)).toUInt32.toNat =
        size.toNat - (s.stored.length + buff.length) := by
    rw [Int32.toUInt32_sub, UInt32.toUInt32_toInt32,
      UInt32.toNat_sub_of_le, hNext]
    rw [UInt32.le_iff_toNat_le, hNext]
    exact hInside
  constructor
  · simpa [rawRound] using hInside
  · simpa [rawRound] using hNext
  · have hBound : buffSize.toNat = 1024 := rfl
    simp only [rawRound, UInt32.lt_iff_toNat_lt, hRest, hBound,
      List.length_append]
    split
    · rw [hRest]
      omega
    · rw [hFull (by omega)]
      omega

/- The loop fills what is left of the frame, and no more. -/
theorem stored_rawLoop
    {size : UInt32}
    {pieces : Nat → Nat}
    {k : Nat}
    {s : RawBuffer}
    {fp : List UInt8}
    (hFits : Fits size s) :
    (rawLoop size.toInt32 pieces k s fp).stored =
      (s.stored ++ fp).take size.toNat := by
  fun_induction rawLoop size.toInt32 pieces k s fp with
  | case1 k s fp hEnd =>
      have hLength := hFits.length_le
      rcases fread_eq_nil hEnd with hZero | rfl
      · -- Nothing is asked for: the frame is complete.
        have hFull : size.toNat = s.stored.length := by
          rw [hFits.readSize_eq] at hZero
          omega
        rw [hFull, List.take_left]
      · rw [List.append_nil, List.take_of_length_le hLength]
  | case2 k s fp hEnd ih =>
      have hPiece :=
        length_fread_le s.readSize (pieces k) fp
      have hLength := hFits.length_le
      rw [hFits.readSize_eq] at hPiece
      have hInside :
          s.stored.length +
              (fread s.readSize (pieces k) fp).1.length ≤
            size.toNat := by
        omega
      have hNext :=
        fits_rawRound hFits.totalRead_eq hInside
          (fun hMissing => by rw [hFits.readSize_eq]; omega)
      rw [ih hNext, rawRound, List.append_assoc,
        fread_append]

end SurfaceGetter

end FzEvent

------------------------------------------------------------
-- Whole Frames
------------------------------------------------------------

namespace FzEvent

namespace SurfaceGetter

/-
  The call stores the first bytes of the stream, as many as
  the frame has, and none behind the end of the frame.
-/
structure FillsFrame
    (size : UInt32)
    (pieces : Nat → Nat)
    (fp : List UInt8) : Prop where
  stored_eq :
    getRawBuffer size pieces fp = fp.take size.toNat
  inside :
    (getRawBuffer size pieces fp).length ≤ size.toNat

/- The piece that the first `fread` delivers. -/
def firstPiece
    (pieces : Nat → Nat)
    (fp : List UInt8) : List UInt8 :=
  (fread buffSize.toInt32 (pieces 0) fp).1

theorem fits_init
    {size : UInt32}
    (hLarge : 1024 ≤ size.toNat) :
    Fits size RawBuffer.init := by
  constructor
  · exact Nat.zero_le _
  · rfl
  · have hAsked :
        RawBuffer.init.readSize.toUInt32.toNat = 1024 := rfl
    have hNone : RawBuffer.init.stored.length = 0 := rfl
    omega

/- The loop from its second round on. -/
theorem getRawBuffer_of_firstPiece
    {size : UInt32}
    {pieces : Nat → Nat}
    {fp : List UInt8}
    (hSome : firstPiece pieces fp ≠ []) :
    getRawBuffer size pieces fp =
      (rawLoop size.toInt32 pieces 1
        (rawRound size.toInt32 RawBuffer.init
          (firstPiece pieces fp))
        (fread buffSize.toInt32 (pieces 0) fp).2).stored := by
  rw [getRawBuffer, rawLoop]
  exact congrArg RawBuffer.stored (dif_neg hSome)

/- A small frame is filled when the first piece fits. -/
theorem getRawBuffer_of_le
    {size : UInt32}
    {pieces : Nat → Nat}
    {fp : List UInt8}
    (hPiece : (firstPiece pieces fp).length ≤ size.toNat) :
    getRawBuffer size pieces fp = fp.take size.toNat := by
  by_cases hNone : firstPiece pieces fp = []
  · rcases fread_eq_nil hNone with hZero | rfl
    · exact absurd hZero (by decide)
    · rw [getRawBuffer, rawLoop]
      simp [fread, RawBuffer.init]
  · have hNext :
        Fits size
          (rawRound size.toInt32 RawBuffer.init
            (firstPiece pieces fp)) := by
      apply fits_rawRound
      · rfl
      · simpa [RawBuffer.init] using hPiece
      · intro _
        rfl
    rw [getRawBuffer_of_firstPiece hNone, stored_rawLoop hNext]
    exact congrArg (List.take size.toNat)
      (fread_append buffSize.toInt32 (pieces 0) fp)

/- A first piece larger than the frame overruns it. -/
theorem not_fillsFrame_of_lt
    {size : UInt32}
    {pieces : Nat → Nat}
    {fp : List UInt8}
    (hOver : size.toNat < (firstPiece pieces fp).length) :
    ¬ FillsFrame size pieces fp := by
  intro hFills
  have hSome : firstPiece pieces fp ≠ [] := by
    rw [← List.length_pos_iff]
    omega
  have hStays :=
    (stored_prefix_rawLoop size.toInt32 pieces 1
      (rawRound size.toInt32 RawBuffer.init
        (firstPiece pieces fp))
      (fread buffSize.toInt32 (pieces 0) fp).2).length_le
  rw [← getRawBuffer_of_firstPiece hSome] at hStays
  have hFirst :
      (rawRound size.toInt32 RawBuffer.init
          (firstPiece pieces fp)).stored =
        firstPiece pieces fp := rfl
  rw [hFirst] at hStays
  have hInside := hFills.inside
  omega

/-
  The frame is filled and not overrun exactly when it has at
  least 1024 bytes, or when the first piece that comes out of
  the pipe is not larger than it.
-/
theorem fillsFrame_iff
    (size : UInt32)
    (pieces : Nat → Nat)
    (fp : List UInt8) :
    FillsFrame size pieces fp ↔
      1024 ≤ size.toNat ∨
        (firstPiece pieces fp).length ≤ size.toNat := by
  constructor
  · intro hFills
    right
    rw [← Nat.not_lt]
    intro hOver
    exact not_fillsFrame_of_lt hOver hFills
  · intro hCond
    have hStored :
        getRawBuffer size pieces fp = fp.take size.toNat := by
      rcases hCond with hLarge | hPiece
      · exact stored_rawLoop (fits_init hLarge)
      · exact getRawBuffer_of_le hPiece
    refine ⟨hStored, ?_⟩
    rw [hStored, List.length_take]
    omega

/-
  A frame of 15 times 17 pixels with four bytes each, from a
  program that puts one word more in front of the pixels: the
  last bytes are stored behind the end of the frame.
-/
theorem not_fillsFrame_small :
    ¬ ∀ size : UInt32, 0 < size →
      ∀ (pieces : Nat → Nat) (fp : List UInt8),
        FillsFrame size pieces fp := by
  intro hAll
  have hOver :
      (15 * 17 * 4 : UInt32).toNat <
        (firstPiece (fun _ => 1024)
          (List.replicate 1024 (0 : UInt8))).length := by
    simp only [firstPiece, fread, List.length_take,
      List.length_replicate]
    decide
  apply not_fillsFrame_of_lt hOver
  apply hAll
  decide

end SurfaceGetter

end FzEvent

import FzEvent.Common.InputEvent
import FzEvent.Lib.FixedPoint
import FzEvent.Lib.RowMajor
import FzEvent.Lib.Words

/-
  The image phase of `surface_getter`: the pixel formats of
  `_get_surface_info`, and the two loops that copy the raw
  image to 24 bits, `resize_raw_image` and `conv_image_bpp`.

  All of it is arithmetic of 32 bits without a sign. A loop is
  the list of its assignments.

  Main declarations:
    * `FzEvent.FbInfo` and `FzEvent.getSurfaceInfo`
    * `FzEvent.resizeRawImage` and `FzEvent.convImageBpp`
    * `FzEvent.exactMoves`
    * `FzEvent.ResizeExact` and `FzEvent.resize_inside`
    * `FzEvent.resize_eq_conv`
-/

------------------------------------------------------------
-- Pixel Formats
------------------------------------------------------------

namespace FzEvent

/- `fbinfo` -/
structure FbInfo where
  version : UInt32
  bpp : UInt32
  size : UInt32
  width : UInt32
  height : UInt32
  redOffset : UInt32
  redLength : UInt32
  blueOffset : UInt32
  blueLength : UInt32
  greenOffset : UInt32
  greenLength : UInt32
  alphaOffset : UInt32
  alphaLength : UInt32
deriving DecidableEq, Repr

/- `DDMS_RAWIMAGE_VERSION` -/
def ddmsRawimageVersion : UInt32 := 1

/- `_get_surface_info`; `none` is an unknown format. -/
def getSurfaceInfo
    (width height : UInt32)
    (format : Int32) : Option FbInfo :=
  let fbi (bpp bytes : UInt32) : FbInfo :=
    { version := ddmsRawimageVersion
      bpp := bpp
      size := width * height * bytes
      width := width
      height := height
      redOffset := 0
      redLength := 8
      blueOffset := 16
      blueLength := 8
      greenOffset := 8
      greenLength := 8
      alphaOffset := 24
      alphaLength := 0 }
  if format = 1 then
    -- RGBA_8888
    some { fbi 32 4 with alphaLength := 8 }
  else if format = 2 then
    -- RGBX_8888
    some (fbi 32 4)
  else if format = 3 then
    -- RGB_888
    some (fbi 24 3)
  else if format = 4 then
    -- RGB_565
    some { fbi 16 2 with
      redOffset := 11
      redLength := 5
      greenOffset := 5
      greenLength := 6
      blueOffset := 0
      blueLength := 5
      alphaOffset := 0 }
  else if format = 5 then
    some { fbi 32 4 with
      redOffset := 16
      blueOffset := 0
      alphaLength := 8 }
  else
    none

end FzEvent

------------------------------------------------------------
-- The Loops
------------------------------------------------------------

namespace FzEvent

open RowMajor

/- `out_pixel_per_bytes` -/
def outPixelPerBytes : UInt32 := 3

/- The three assignments for a pixel. -/
def pixelMoves
    (dest src : UInt32) : List Move :=
  [⟨(dest + 0).toNat, (src + 2).toNat⟩,
    ⟨(dest + 1).toNat, (src + 1).toNat⟩,
    ⟨(dest + 2).toNat, (src + 0).toNat⟩]

/-
  The ratio of `resize_raw_image` for a side of the image and
  the side of the target.
-/
def resizeRatio
    (side target : UInt32) : UInt32 :=
  (side <<< 16) / target + 1

/- The sampled coordinate, `x2` or `y2`. -/
def sampled
    (i ratio : UInt32) : UInt32 :=
  (i * ratio) >>> 16

/- The index of the pixel at a place of the target. -/
def resizeDest
    (resizeW i j : UInt32) : UInt32 :=
  i * resizeW * outPixelPerBytes + j * outPixelPerBytes

/- The index of the pixel that is sampled for the place. -/
def resizeSrc
    (fbi : FbInfo)
    (resizeW resizeH i j : UInt32) : UInt32 :=
  let pixelPerBytes := fbi.bpp / 8
  let xRatio := resizeRatio fbi.width resizeW
  let yRatio := resizeRatio fbi.height resizeH
  let y2 := sampled i yRatio
  let x2 := sampled j xRatio
  y2 * fbi.width * pixelPerBytes + x2 * pixelPerBytes

/- The assignments of `resize_raw_image`. -/
def resizeMoves
    (fbi : FbInfo)
    (resizeW resizeH : UInt32) : List Move :=
  (List.range resizeH.toNat).flatMap fun i =>
    (List.range resizeW.toNat).flatMap fun j =>
      pixelMoves
        (resizeDest resizeW (.ofNat i) (.ofNat j))
        (resizeSrc fbi resizeW resizeH (.ofNat i) (.ofNat j))

/- `resize_raw_image` -/
def resizeRawImage
    (fbi : FbInfo)
    (rawBuffer dest : List UInt8)
    (resizeW resizeH : UInt32) : Option (List UInt8) :=
  applyMoves rawBuffer dest (resizeMoves fbi resizeW resizeH)

/- The assignments of `conv_image_bpp`. -/
def convMoves
    (w h : UInt16)
    (srcBpp destBpp : UInt32) : List Move :=
  let srcBpp := srcBpp / 8
  let destBpp := destBpp / 8
  (List.range h.toNat).flatMap fun i =>
    (List.range w.toNat).flatMap fun j =>
      pixelMoves
        (.ofNat i * w.toUInt32 * destBpp + .ofNat j * destBpp)
        (.ofNat i * w.toUInt32 * srcBpp + .ofNat j * srcBpp)

/- `conv_image_bpp` -/
def convImageBpp
    (src dest : List UInt8)
    (w h : UInt16)
    (srcBpp destBpp : UInt32) : Option (List UInt8) :=
  applyMoves src dest (convMoves w h srcBpp destBpp)

end FzEvent

------------------------------------------------------------
-- Words without Overflow
------------------------------------------------------------

namespace FzEvent

open Words

/- The upper half of a word is the sampled place. -/
theorem toNat_shiftRight_half
    (a : UInt32) :
    (a >>> 16).toNat = a.toNat / 65536 := by
  rw [UInt32.toNat_shiftRight, Nat.shiftRight_eq_div_pow]
  rfl

/- A side of 16 bits keeps its bits when shifted up. -/
theorem toNat_shiftLeft_half
    {a : UInt32}
    (hHalf : a.toNat < 65536) :
    (a <<< 16).toNat = a.toNat * 65536 := by
  rw [UInt32.toNat_shiftLeft, Nat.shiftLeft_eq]
  apply Nat.mod_eq_of_lt
  exact Nat.mul_lt_mul_of_pos_right hHalf (by decide)

/- The ratio is the fixed-point ratio of the sides. -/
theorem toNat_resizeRatio
    {side target : UInt32}
    (hSide : side.toNat < 65536) :
    (resizeRatio side target).toNat =
      FixedPoint.ratio 65536 side.toNat target.toNat := by
  have hQuotient :
      side.toNat * 65536 / target.toNat ≤
        side.toNat * 65536 :=
    Nat.div_le_self _ _
  have hEq :
      ((side <<< 16) / target).toNat =
        side.toNat * 65536 / target.toNat := by
    rw [UInt32.toNat_div, toNat_shiftLeft_half hSide]
  have hSize : UInt32.size = 4294967296 := rfl
  rw [resizeRatio, toNat_add_of_lt, hEq]
  · rfl
  · rw [hEq, UInt32.toNat_one]
    omega

/- A product with the ratio does not overflow. -/
theorem toNat_mul_resizeRatio
    {side target i : UInt32}
    (hSide : side.toNat < 65536)
    (hTarget : target.toNat ≤ side.toNat)
    (hPlace : i.toNat < target.toNat) :
    (i * resizeRatio side target).toNat =
      i.toNat * (resizeRatio side target).toNat := by
  apply toNat_mul_of_lt
  rw [toNat_resizeRatio hSide]
  have hOne : target.toNat ≤ 65536 := by omega
  have hLt := FixedPoint.mul_ratio_lt hTarget hOne hPlace
  have hSize : UInt32.size = 4294967296 := rfl
  omega

/- What is sampled of a side of 16 bits. -/
theorem toNat_sampled
    {side target i : UInt32}
    (hSide : side.toNat < 65536)
    (hTarget : target.toNat ≤ side.toNat)
    (hPlace : i.toNat < target.toNat) :
    (sampled i (resizeRatio side target)).toNat =
      FixedPoint.sample 65536 i.toNat
        (FixedPoint.ratio 65536 side.toNat target.toNat) := by
  rw [sampled, toNat_shiftRight_half,
    toNat_mul_resizeRatio hSide hTarget hPlace,
    toNat_resizeRatio hSide]
  rfl

/-
  A sampled place lies inside the side, also of a side of more
  than 16 bits: then every 16-bit place does.
-/
theorem sampled_lt
    {side target i : UInt32}
    (hTarget : target.toNat ≤ side.toNat)
    (hPlace : i.toNat < target.toNat) :
    (sampled i (resizeRatio side target)).toNat <
      side.toNat := by
  by_cases hSide : side.toNat < 65536
  · rw [toNat_sampled hSide hTarget hPlace]
    apply FixedPoint.sample_lt hTarget _ hPlace
    omega
  · rw [sampled, toNat_shiftRight_half]
    have hWord :=
      (i * resizeRatio side target).toNat_lt_size
    have hSize : UInt32.size = 4294967296 := rfl
    omega

end FzEvent

------------------------------------------------------------
-- The Exact Loop
------------------------------------------------------------

namespace FzEvent

open RowMajor Words

/- The bytes of the pixel at `src`, the last one first. -/
def exactPixel
    (dest src : Nat) : List Move :=
  [⟨dest, src + 2⟩, ⟨dest + 1, src + 1⟩, ⟨dest + 2, src⟩]

/- Each pixel of the target, row by row, takes one pixel. -/
def exactMoves
    (h w pixelPerBytes : Nat)
    (source : Nat → Nat → Nat) : List Move :=
  (List.range h).flatMap fun i =>
    (List.range w).flatMap fun j =>
      exactPixel ((i * w + j) * 3) (source i j * pixelPerBytes)

theorem dest_exactPixel
    (dest src : Nat) :
    (exactPixel dest src).map Move.dest =
      (List.range 3).map fun c => dest + c := rfl

/- The target is written once, from its first byte on. -/
theorem dest_exactMoves
    (h w pixelPerBytes : Nat)
    (source : Nat → Nat → Nat) :
    (exactMoves h w pixelPerBytes source).map Move.dest =
      List.range (h * w * 3) := by
  simp only [exactMoves, List.map_flatMap, dest_exactPixel]
  rw [flatMap_row h w fun k =>
      (List.range 3).map fun c => k * 3 + c,
    range_flatMap_row]

/- Of every pixel inside the image the bytes are inside. -/
theorem src_exactMoves
    {h w pixelPerBytes pixels : Nat}
    {source : Nat → Nat → Nat}
    (hBytes : 3 ≤ pixelPerBytes)
    (hSource :
      ∀ i, i < h → ∀ j, j < w → source i j < pixels)
    {move : Move}
    (hMove : move ∈ exactMoves h w pixelPerBytes source) :
    move.src < pixels * pixelPerBytes := by
  simp only [exactMoves, List.mem_flatMap,
    List.mem_range] at hMove
  rcases hMove with ⟨i, hRow, j, hColumn, hPixel⟩
  have hNext :
      (source i j + 1) * pixelPerBytes ≤
        pixels * pixelPerBytes :=
    Nat.mul_le_mul_right _ (hSource i hRow j hColumn)
  rw [Nat.add_mul, Nat.one_mul] at hNext
  simp only [exactPixel, List.mem_cons, List.not_mem_nil,
    or_false] at hPixel
  rcases hPixel with rfl | rfl | rfl <;> dsimp only <;> omega

/- The assignments for a pixel whose indices do not overflow. -/
theorem pixelMoves_eq
    {dest src : UInt32}
    (hDest : dest.toNat + 2 < UInt32.size)
    (hSrc : src.toNat + 2 < UInt32.size) :
    pixelMoves dest src = exactPixel dest.toNat src.toNat := by
  have hByte :
      ∀ a c : UInt32, a.toNat + 2 < UInt32.size →
        c.toNat ≤ 2 → (a + c).toNat = a.toNat + c.toNat := by
    intro a c hLt hLe
    apply toNat_add_of_lt
    omega
  rw [pixelMoves, hByte src 2 hSrc (by decide),
    hByte src 1 hSrc (by decide), hByte src 0 hSrc (by decide),
    hByte dest 2 hDest (by decide),
    hByte dest 1 hDest (by decide),
    hByte dest 0 hDest (by decide)]
  rfl

/-
  A row-major index of words is exact below the end of an
  image whose size is a word.
-/
theorem toNat_pixelIndex
    {y x side bytes : UInt32}
    {h : Nat}
    (hRow : y.toNat < h)
    (hColumn : x.toNat < side.toNat)
    (hSize : h * side.toNat * bytes.toNat < UInt32.size) :
    (y * side * bytes + x * bytes).toNat =
      (y.toNat * side.toNat + x.toNat) * bytes.toNat := by
  have hIndex := index_lt hRow hColumn
  have hBytes :
      (y.toNat * side.toNat + x.toNat) * bytes.toNat ≤
        h * side.toNat * bytes.toNat :=
    Nat.mul_le_mul_right _ (Nat.le_of_lt hIndex)
  rw [Nat.add_mul] at hBytes
  by_cases hZero : bytes.toNat = 0
  · have hBytesZero : bytes = 0 := UInt32.toNat_inj.mp hZero
    rw [hBytesZero]
    simp
  · have hSide :
        y.toNat * side.toNat * 1 ≤
          y.toNat * side.toNat * bytes.toNat :=
      Nat.mul_le_mul_left _ (Nat.pos_of_ne_zero hZero)
    have hFirst : (y * side).toNat = y.toNat * side.toNat := by
      apply toNat_mul_of_lt
      omega
    have hSecond :
        (y * side * bytes).toNat =
          y.toNat * side.toNat * bytes.toNat := by
      rw [toNat_mul_of_lt, hFirst]
      rw [hFirst]
      omega
    have hThird : (x * bytes).toNat = x.toNat * bytes.toNat := by
      apply toNat_mul_of_lt
      omega
    rw [toNat_add_of_lt, hSecond, hThird, Nat.add_mul]
    rw [hSecond, hThird]
    omega

end FzEvent

------------------------------------------------------------
-- The Loops Are Exact
------------------------------------------------------------

namespace FzEvent

open RowMajor Words

/- `pixel_per_bytes` -/
def FbInfo.pixelPerBytes (fbi : FbInfo) : Nat :=
  (fbi.bpp / 8).toNat

/- `y2` in row `i` of the target. -/
def FbInfo.rowAt
    (fbi : FbInfo)
    (resizeH : UInt32)
    (i : Nat) : Nat :=
  (sampled (.ofNat i) (resizeRatio fbi.height resizeH)).toNat

/- `x2` in column `j` of the target. -/
def FbInfo.columnAt
    (fbi : FbInfo)
    (resizeW : UInt32)
    (j : Nat) : Nat :=
  (sampled (.ofNat j) (resizeRatio fbi.width resizeW)).toNat

/- The number of the sampled pixel in the image. -/
def FbInfo.pixelAt
    (fbi : FbInfo)
    (resizeW resizeH : UInt32)
    (i j : Nat) : Nat :=
  fbi.rowAt resizeH i * fbi.width.toNat +
    fbi.columnAt resizeW j

variable {fbi : FbInfo}
variable {resizeW resizeH : UInt32}

theorem rowAt_lt
    (hHeight : resizeH.toNat ≤ fbi.height.toNat)
    {i : Nat}
    (hRow : i < resizeH.toNat) :
    fbi.rowAt resizeH i < fbi.height.toNat := by
  apply sampled_lt hHeight
  rw [UInt32.toNat_ofNat_of_lt'
    (Nat.lt_trans hRow resizeH.toNat_lt_size)]
  exact hRow

theorem columnAt_lt
    (hWidth : resizeW.toNat ≤ fbi.width.toNat)
    {j : Nat}
    (hColumn : j < resizeW.toNat) :
    fbi.columnAt resizeW j < fbi.width.toNat := by
  apply sampled_lt hWidth
  rw [UInt32.toNat_ofNat_of_lt'
    (Nat.lt_trans hColumn resizeW.toNat_lt_size)]
  exact hColumn

/- In an image that is not scaled every row is sampled. -/
theorem rowAt_self
    (hHeight : fbi.height.toNat < 65536)
    {i : Nat}
    (hRow : i < fbi.height.toNat) :
    fbi.rowAt fbi.height i = i := by
  have hI := UInt32.toNat_ofNat_of_lt'
    (Nat.lt_trans hRow fbi.height.toNat_lt_size)
  rw [FbInfo.rowAt, toNat_sampled hHeight (Nat.le_refl _)
    (by rw [hI]; exact hRow), hI]
  apply FixedPoint.sample_self <;> omega

/- And so is every column. -/
theorem columnAt_self
    (hWidth : fbi.width.toNat < 65536)
    {j : Nat}
    (hColumn : j < fbi.width.toNat) :
    fbi.columnAt fbi.width j = j := by
  have hJ := UInt32.toNat_ofNat_of_lt'
    (Nat.lt_trans hColumn fbi.width.toNat_lt_size)
  rw [FbInfo.columnAt, toNat_sampled hWidth (Nat.le_refl _)
    (by rw [hJ]; exact hColumn), hJ]
  apply FixedPoint.sample_self <;> omega

/- Every sampled pixel is a pixel of the image. -/
theorem pixelAt_lt
    (hWidth : resizeW.toNat ≤ fbi.width.toNat)
    (hHeight : resizeH.toNat ≤ fbi.height.toNat)
    {i : Nat}
    (hRow : i < resizeH.toNat)
    {j : Nat}
    (hColumn : j < resizeW.toNat) :
    fbi.pixelAt resizeW resizeH i j <
      fbi.height.toNat * fbi.width.toNat :=
  index_lt (rowAt_lt hHeight hRow) (columnAt_lt hWidth hColumn)

/- The place of the target, without overflow. -/
theorem toNat_resizeDest
    (hTarget :
      resizeH.toNat * resizeW.toNat * 3 < UInt32.size)
    {i : Nat}
    (hRow : i < resizeH.toNat)
    {j : Nat}
    (hColumn : j < resizeW.toNat) :
    (resizeDest resizeW (.ofNat i) (.ofNat j)).toNat =
      (i * resizeW.toNat + j) * 3 := by
  have hI := UInt32.toNat_ofNat_of_lt'
    (Nat.lt_trans hRow resizeH.toNat_lt_size)
  have hJ := UInt32.toNat_ofNat_of_lt'
    (Nat.lt_trans hColumn resizeW.toNat_lt_size)
  have hRow32 : (UInt32.ofNat i).toNat < resizeH.toNat := by
    rw [hI]
    exact hRow
  have hColumn32 :
      (UInt32.ofNat j).toNat < resizeW.toNat := by
    rw [hJ]
    exact hColumn
  have hIndex :
      (resizeDest resizeW (.ofNat i) (.ofNat j)).toNat =
        ((UInt32.ofNat i).toNat * resizeW.toNat +
          (UInt32.ofNat j).toNat) * outPixelPerBytes.toNat :=
    toNat_pixelIndex hRow32 hColumn32 hTarget
  rw [hI, hJ] at hIndex
  exact hIndex

/- The pixel that is sampled, without overflow. -/
theorem toNat_resizeSrc
    (hWidth : resizeW.toNat ≤ fbi.width.toNat)
    (hHeight : resizeH.toNat ≤ fbi.height.toNat)
    (hSize :
      fbi.height.toNat * fbi.width.toNat *
        fbi.pixelPerBytes < UInt32.size)
    {i : Nat}
    (hRow : i < resizeH.toNat)
    {j : Nat}
    (hColumn : j < resizeW.toNat) :
    (resizeSrc fbi resizeW resizeH (.ofNat i)
        (.ofNat j)).toNat =
      fbi.pixelAt resizeW resizeH i j * fbi.pixelPerBytes :=
  toNat_pixelIndex (rowAt_lt hHeight hRow)
    (columnAt_lt hWidth hColumn) hSize

/- The last byte of a pixel inside the image is a word. -/
theorem lastByte_lt
    {pixel pixels bytes : Nat}
    (hPixel : pixel < pixels)
    (hBytes : 2 ≤ bytes)
    (hSize : pixels * bytes < UInt32.size) :
    pixel * bytes + 2 < UInt32.size := by
  have hNext : (pixel + 1) * bytes ≤ pixels * bytes :=
    Nat.mul_le_mul_right _ hPixel
  rw [Nat.add_mul, Nat.one_mul] at hNext
  omega

/- The scaling loop is the exact one. -/
theorem resizeMoves_eq_exact
    (hWidth : resizeW.toNat ≤ fbi.width.toNat)
    (hHeight : resizeH.toNat ≤ fbi.height.toNat)
    (hTarget :
      resizeH.toNat * resizeW.toNat * 3 < UInt32.size)
    (hBytes : 2 ≤ fbi.pixelPerBytes)
    (hSize :
      fbi.height.toNat * fbi.width.toNat *
        fbi.pixelPerBytes < UInt32.size) :
    resizeMoves fbi resizeW resizeH =
      exactMoves resizeH.toNat resizeW.toNat
        fbi.pixelPerBytes (fbi.pixelAt resizeW resizeH) := by
  apply List.flatMap_congr
  intro i hI
  apply List.flatMap_congr
  intro j hJ
  rw [List.mem_range] at hI hJ
  have hDest := toNat_resizeDest hTarget hI hJ
  have hSrc := toNat_resizeSrc hWidth hHeight hSize hI hJ
  rw [pixelMoves_eq, hDest, hSrc]
  · rw [hDest]
    exact lastByte_lt (index_lt hI hJ) (by decide) hTarget
  · rw [hSrc]
    exact lastByte_lt (pixelAt_lt hWidth hHeight hI hJ)
      hBytes hSize

/- The converting loop is the exact one. -/
theorem convMoves_eq_exact
    {w h : UInt16}
    {srcBpp : UInt32}
    (hTarget : h.toNat * w.toNat * 3 < UInt32.size)
    (hBytes : 2 ≤ (srcBpp / 8).toNat)
    (hSize :
      h.toNat * w.toNat * (srcBpp / 8).toNat <
        UInt32.size) :
    convMoves w h srcBpp 24 =
      exactMoves h.toNat w.toNat (srcBpp / 8).toNat
        (fun i j => i * w.toNat + j) := by
  apply List.flatMap_congr
  intro i hI
  apply List.flatMap_congr
  intro j hJ
  rw [List.mem_range] at hI hJ
  have hSide : w.toUInt32.toNat = w.toNat := rfl
  have hRow : (UInt32.ofNat i).toNat = i := by
    apply UInt32.toNat_ofNat_of_lt'
    exact Nat.lt_trans hI h.toUInt32.toNat_lt_size
  have hColumn : (UInt32.ofNat j).toNat = j := by
    apply UInt32.toNat_ofNat_of_lt'
    exact Nat.lt_trans hJ w.toUInt32.toNat_lt_size
  have hI32 : (UInt32.ofNat i).toNat < h.toNat := by
    rw [hRow]
    exact hI
  have hJ32 : (UInt32.ofNat j).toNat < w.toUInt32.toNat := by
    rw [hColumn]
    exact hJ
  have hThree : (24 / 8 : UInt32).toNat = 3 := rfl
  have hTarget32 :
      h.toNat * w.toUInt32.toNat * (24 / 8 : UInt32).toNat <
        UInt32.size := by
    rw [hSide, hThree]
    exact hTarget
  have hDest := toNat_pixelIndex hI32 hJ32 hTarget32
  have hSrc := toNat_pixelIndex hI32 hJ32 hSize
  rw [hRow, hColumn, hSide] at hDest hSrc
  rw [hThree] at hDest
  rw [pixelMoves_eq, hDest, hSrc]
  · rw [hDest]
    exact lastByte_lt (index_lt hI hJ) (by decide) hTarget
  · rw [hSrc]
    exact lastByte_lt (index_lt hI hJ) hBytes hSize

end FzEvent

------------------------------------------------------------
-- Inside Both Images
------------------------------------------------------------

namespace FzEvent

open RowMajor Words

/-
  The scaling to `resizeW` by `resizeH` computes without an
  overflow. An index that equals the sum of its parts has no
  part that overflowed.
-/
structure ResizeExact
    (fbi : FbInfo)
    (resizeW resizeH : UInt32) : Prop where
  width_shift :
    (fbi.width <<< 16).toNat = fbi.width.toNat * 65536
  height_shift :
    (fbi.height <<< 16).toNat = fbi.height.toNat * 65536
  x_ratio :
    (resizeRatio fbi.width resizeW).toNat =
      fbi.width.toNat * 65536 / resizeW.toNat + 1
  y_ratio :
    (resizeRatio fbi.height resizeH).toNat =
      fbi.height.toNat * 65536 / resizeH.toNat + 1
  x_product :
    ∀ j, j < resizeW.toNat →
      (.ofNat j * resizeRatio fbi.width resizeW).toNat =
        j * (resizeRatio fbi.width resizeW).toNat
  y_product :
    ∀ i, i < resizeH.toNat →
      (.ofNat i * resizeRatio fbi.height resizeH).toNat =
        i * (resizeRatio fbi.height resizeH).toNat
  dest_index :
    ∀ i, i < resizeH.toNat → ∀ j, j < resizeW.toNat →
      ∀ c, c < 3 →
        (resizeDest resizeW (.ofNat i) (.ofNat j) +
            .ofNat c).toNat =
          i * resizeW.toNat * 3 + j * 3 + c
  src_index :
    ∀ i, i < resizeH.toNat → ∀ j, j < resizeW.toNat →
      ∀ c, c < 3 →
        (resizeSrc fbi resizeW resizeH (.ofNat i) (.ofNat j) +
            .ofNat c).toNat =
          fbi.rowAt resizeH i * fbi.width.toNat *
              fbi.pixelPerBytes +
            fbi.columnAt resizeW j * fbi.pixelPerBytes + c

variable {fbi : FbInfo}
variable {resizeW resizeH : UInt32}

theorem toNat_ofNat_mul_resizeRatio
    {side target : UInt32}
    (hSide : side.toNat < 65536)
    (hTarget : target.toNat ≤ side.toNat)
    {i : Nat}
    (hPlace : i < target.toNat) :
    (.ofNat i * resizeRatio side target).toNat =
      i * (resizeRatio side target).toNat := by
  have hI := UInt32.toNat_ofNat_of_lt'
    (Nat.lt_trans hPlace target.toNat_lt_size)
  rw [toNat_mul_resizeRatio hSide hTarget (by omega), hI]

/- A byte of a pixel whose last byte is a word. -/
theorem toNat_add_ofNat
    {index : UInt32}
    (hLast : index.toNat + 2 < UInt32.size)
    {c : Nat}
    (hByte : c < 3) :
    (index + .ofNat c).toNat = index.toNat + c := by
  have hC : (UInt32.ofNat c).toNat = c := by
    apply UInt32.toNat_ofNat_of_lt'
    omega
  rw [toNat_add_of_lt, hC]
  omega

/- Between images of 16-bit sides nothing overflows. -/
theorem resizeExact
    (hWidth : resizeW.toNat ≤ fbi.width.toNat)
    (hHeight : resizeH.toNat ≤ fbi.height.toNat)
    (hWidth16 : fbi.width.toNat < 65536)
    (hHeight16 : fbi.height.toNat < 65536)
    (hTarget :
      resizeH.toNat * resizeW.toNat * 3 < UInt32.size)
    (hBytes : 2 ≤ fbi.pixelPerBytes)
    (hSize :
      fbi.height.toNat * fbi.width.toNat *
        fbi.pixelPerBytes < UInt32.size) :
    ResizeExact fbi resizeW resizeH where
  width_shift := toNat_shiftLeft_half hWidth16
  height_shift := toNat_shiftLeft_half hHeight16
  x_ratio := toNat_resizeRatio hWidth16
  y_ratio := toNat_resizeRatio hHeight16
  x_product := fun _ =>
    toNat_ofNat_mul_resizeRatio hWidth16 hWidth
  y_product := fun _ =>
    toNat_ofNat_mul_resizeRatio hHeight16 hHeight
  dest_index := by
    intro i hI j hJ c hByte
    have hDest := toNat_resizeDest hTarget hI hJ
    have hLast := lastByte_lt (index_lt hI hJ) (by decide)
      hTarget
    rw [toNat_add_ofNat (by rw [hDest]; exact hLast) hByte,
      hDest, Nat.add_mul]
  src_index := by
    intro i hI j hJ c hByte
    have hSrc := toNat_resizeSrc hWidth hHeight hSize hI hJ
    have hLast := lastByte_lt
      (pixelAt_lt hWidth hHeight hI hJ) hBytes hSize
    rw [toNat_add_ofNat (by rw [hSrc]; exact hLast) hByte,
      hSrc, FbInfo.pixelAt, Nat.add_mul]

/- A smaller target of a word-sized image is word-sized. -/
theorem target_lt_size
    (hWidth : resizeW.toNat ≤ fbi.width.toNat)
    (hHeight : resizeH.toNat ≤ fbi.height.toNat)
    (hSize :
      fbi.width.toNat * fbi.height.toNat * 4 < UInt32.size) :
    resizeH.toNat * resizeW.toNat * 3 < UInt32.size := by
  have hArea :
      resizeH.toNat * resizeW.toNat ≤
        fbi.height.toNat * fbi.width.toNat :=
    Nat.mul_le_mul hHeight hWidth
  rw [Nat.mul_comm fbi.height.toNat] at hArea
  omega

/-
  The downscaler stays inside both images, and fills the
  target from its first byte to its last one.
-/
theorem resize_inside
    (hWidth16 : fbi.width.toNat ≤ 65535)
    (hHeight16 : fbi.height.toNat ≤ 65535)
    (hSize :
      fbi.width.toNat * fbi.height.toNat * 4 < UInt32.size)
    (hTargetW : resizeW.toNat ≤ fbi.width.toNat)
    (hTargetH : resizeH.toNat ≤ fbi.height.toNat)
    (hBpp : fbi.bpp = 24 ∨ fbi.bpp = 32) :
    ResizeExact fbi resizeW resizeH ∧
      (∀ i, i < resizeH.toNat →
        fbi.rowAt resizeH i < fbi.height.toNat) ∧
      (∀ j, j < resizeW.toNat →
        fbi.columnAt resizeW j < fbi.width.toNat) ∧
      (∀ move ∈ resizeMoves fbi resizeW resizeH,
        move.src <
          fbi.width.toNat * fbi.height.toNat *
            fbi.pixelPerBytes) ∧
      (resizeMoves fbi resizeW resizeH).map Move.dest =
        List.range
          (3 * resizeW.toNat * resizeH.toNat) := by
  have hBytes :
      3 ≤ fbi.pixelPerBytes ∧ fbi.pixelPerBytes ≤ 4 := by
    rw [FbInfo.pixelPerBytes]
    rcases hBpp with hBpp | hBpp <;> rw [hBpp] <;> decide
  have hTwo : 2 ≤ fbi.pixelPerBytes := by omega
  have hImage :
      fbi.height.toNat * fbi.width.toNat *
        fbi.pixelPerBytes < UInt32.size := by
    rw [Nat.mul_comm fbi.height.toNat]
    exact Nat.lt_of_le_of_lt
      (Nat.mul_le_mul_left _ hBytes.2) hSize
  have hTarget := target_lt_size hTargetW hTargetH hSize
  have hMoves := resizeMoves_eq_exact hTargetW hTargetH
    hTarget hTwo hImage
  refine ⟨?_, ?_, ?_, ?_, ?_⟩
  · exact resizeExact hTargetW hTargetH (by omega) (by omega)
      hTarget hTwo hImage
  · intro i hRow
    exact rowAt_lt hTargetH hRow
  · intro j hColumn
    exact columnAt_lt hTargetW hColumn
  · intro move hMove
    rw [hMoves] at hMove
    rw [Nat.mul_comm fbi.width.toNat]
    apply src_exactMoves hBytes.1 _ hMove
    intro i hRow j hColumn
    exact pixelAt_lt hTargetW hTargetH hRow hColumn
  · rw [hMoves, dest_exactMoves]
    congr 1
    rw [Nat.mul_comm _ 3, Nat.mul_comm resizeH.toNat,
      Nat.mul_assoc]

/- The downscaler at a size where no ratio is whole. -/
theorem resize_inside_sevenToFive :
    ∃ fbi,
      getSurfaceInfo 7 3 1 = some fbi ∧
        (resizeMoves fbi 5 2).map Move.dest =
          List.range 30 :=
  ⟨_, rfl,
    (resize_inside (by decide) (by decide) (by decide)
      (by decide) (by decide) (Or.inr rfl)).2.2.2.2⟩

end FzEvent

------------------------------------------------------------
-- Unscaled Resize
------------------------------------------------------------

namespace FzEvent

open RowMajor Words

/- The moves of an image fit into buffers of its size. -/
theorem applyMoves_exact
    {h w pixelPerBytes pixels : Nat}
    {source : Nat → Nat → Nat}
    (hBytes : 3 ≤ pixelPerBytes)
    (hSource :
      ∀ i, i < h → ∀ j, j < w → source i j < pixels)
    {rawBuffer dest : List UInt8}
    (hRaw : rawBuffer.length = pixels * pixelPerBytes)
    (hDest : dest.length = h * w * 3) :
    ∃ out,
      applyMoves rawBuffer dest
          (exactMoves h w pixelPerBytes source) =
        some out := by
  have hOrder :=
    dest_exactMoves h w pixelPerBytes source
  have hLength :
      (exactMoves h w pixelPerBytes source).length =
        h * w * 3 := by
    rw [← List.length_map Move.dest, hOrder,
      List.length_range]
  rw [← hLength] at hOrder hDest
  rw [applyMoves_whole hOrder hDest]
  apply sources_of_inside
  intro move hMove
  rw [hRaw]
  exact src_exactMoves hBytes hSource hMove

/- Unscaled, the sampled pixels are those of the image. -/
theorem resizeMoves_self
    {fbi : FbInfo}
    (hWidth : fbi.width.toNat ≤ 65535)
    (hHeight : fbi.height.toNat ≤ 65535)
    (hPixel : fbi.pixelPerBytes = 4)
    (hSize :
      fbi.height.toNat * fbi.width.toNat * 4 <
        UInt32.size) :
    resizeMoves fbi fbi.width fbi.height =
      exactMoves fbi.height.toNat fbi.width.toNat 4
        (fun i j => i * fbi.width.toNat + j) := by
  rw [resizeMoves_eq_exact (Nat.le_refl _) (Nat.le_refl _)
    (by omega) (by rw [hPixel]; decide)
    (by rw [hPixel]; exact hSize), hPixel]
  apply List.flatMap_congr
  intro i hI
  apply List.flatMap_congr
  intro j hJ
  rw [List.mem_range] at hI hJ
  rw [FbInfo.pixelAt, rowAt_self (by omega) hI,
    columnAt_self (by omega) hJ]

/-
  Scaling an image to its own size is converting it, whatever
  the pixels are.
-/
theorem resize_eq_conv
    {fbi : FbInfo}
    (hWidth : fbi.width.toNat ≤ 65535)
    (hHeight : fbi.height.toNat ≤ 65535)
    (hSize :
      fbi.width.toNat * fbi.height.toNat * 4 < UInt32.size)
    (hBpp : fbi.bpp = 32)
    {rawBuffer dest : List UInt8}
    (hRaw :
      rawBuffer.length =
        fbi.width.toNat * fbi.height.toNat * 4)
    (hDest :
      dest.length =
        fbi.width.toNat * fbi.height.toNat * 3) :
    ∃ out,
      resizeRawImage fbi rawBuffer dest fbi.width fbi.height =
          some out ∧
        convImageBpp rawBuffer dest fbi.width.toUInt16
            fbi.height.toUInt16 32 24 =
          some out := by
  have hPixel : fbi.pixelPerBytes = 4 := by
    rw [FbInfo.pixelPerBytes, hBpp]
    rfl
  have hFour : (32 / 8 : UInt32).toNat = 4 := rfl
  have hWidth16 :
      fbi.width.toUInt16.toNat = fbi.width.toNat := by
    rw [UInt32.toNat_toUInt16]
    exact Nat.mod_eq_of_lt (by omega)
  have hHeight16 :
      fbi.height.toUInt16.toNat = fbi.height.toNat := by
    rw [UInt32.toNat_toUInt16]
    exact Nat.mod_eq_of_lt (by omega)
  rw [Nat.mul_comm fbi.width.toNat] at hSize hRaw hDest
  have hTarget :
      fbi.height.toNat * fbi.width.toNat * 3 <
        UInt32.size := by
    omega
  have hConv :
      convMoves fbi.width.toUInt16 fbi.height.toUInt16 32 24 =
        exactMoves fbi.height.toNat fbi.width.toNat 4
          (fun i j => i * fbi.width.toNat + j) := by
    rw [convMoves_eq_exact, hWidth16, hHeight16, hFour]
    · rw [hWidth16, hHeight16]
      exact hTarget
    · decide
    · rw [hWidth16, hHeight16, hFour]
      exact hSize
  have hResize :=
    resizeMoves_self hWidth hHeight hPixel hSize
  have hInside :
      ∀ i, i < fbi.height.toNat →
        ∀ j, j < fbi.width.toNat →
          i * fbi.width.toNat + j <
            fbi.height.toNat * fbi.width.toNat :=
    fun _ hI _ hJ => index_lt hI hJ
  rcases applyMoves_exact (by decide) hInside hRaw hDest with
    ⟨out, hOut⟩
  refine ⟨out, ?_, ?_⟩
  · rw [resizeRawImage, hResize]
    exact hOut
  · rw [convImageBpp, hConv]
    exact hOut

/- Two pixels, the blue byte of each first. -/
theorem resize_eq_conv_twoPixels :
    ∃ fbi,
      getSurfaceInfo 2 1 1 = some fbi ∧
        ∃ out,
          resizeRawImage fbi [10, 20, 30, 40, 50, 60, 70, 80]
              [0, 0, 0, 0, 0, 0] fbi.width fbi.height =
            some out ∧
          convImageBpp [10, 20, 30, 40, 50, 60, 70, 80]
              [0, 0, 0, 0, 0, 0] fbi.width.toUInt16
              fbi.height.toUInt16 32 24 =
            some out :=
  ⟨_, rfl,
    resize_eq_conv (by decide) (by decide) (by decide) rfl
      rfl rfl⟩

end FzEvent

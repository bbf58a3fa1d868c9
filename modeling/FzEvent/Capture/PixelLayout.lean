import FzEvent.Capture.RawImage
import FzEvent.Lib.ByteCodec

/-
  The order of the channels in what `get_buffer` sends.

  Both loops take the three lowest bytes of a pixel, the
  highest of them first. The layout of the pixel that
  `_get_surface_info` recorded is not consulted, so the bytes
  are the channels only where the layout happens to be that
  of the first format.

  Main declarations:
    * `FzEvent.resizeTarget` and `FzEvent.resizing`
    * `FzEvent.channel` and `FzEvent.OneLayout`
    * `FzEvent.LayoutsAgree`
    * `FzEvent.oneLayout_iff`
-/

------------------------------------------------------------
-- The Resizing Phase
------------------------------------------------------------

namespace FzEvent

open RowMajor

/- `threshold` -/
def threshold : Int32 := 589824

/-
  The loop that shrinks the target until it is below the
  threshold; `scale h` is `(int)((float)h * ratio)`. The sides
  of the target have a sign, those of the image have none.
-/
def resizeTarget
    (scale : UInt32 → UInt32)
    (resizeW : UInt32) : Nat → UInt32 × UInt32
| 0 => (resizeW, 0)
| h + 1 =>
    if threshold < (resizeW * .ofNat (h + 1)).toInt32 then
      resizeTarget scale (scale (.ofNat h)) h
    else
      (resizeW, .ofNat (h + 1))

/- What is sent for an image: its size and its assignments. -/
structure Resized where
  resizeW : UInt32
  resizeH : UInt32
  moves : List Move

/-
  The resizing phase of `get_buffer`: larger images are scaled
  down, and of the others those of 32 bits are converted. The
  rest is rejected. A side that became 0 ends in a division by
  zero.
-/
def resizing
    (scale : UInt32 → UInt32)
    (fbi : FbInfo) : Option Resized :=
  if threshold.toUInt32 < fbi.width * fbi.height then
    let (resizeW, resizeH) :=
      resizeTarget scale fbi.width fbi.height.toNat
    if resizeW = 0 ∨ resizeH = 0 then
      none
    else
      some ⟨resizeW, resizeH, resizeMoves fbi resizeW resizeH⟩
  else if fbi.bpp = 32 then
    some ⟨fbi.width, fbi.height,
      convMoves fbi.width.toUInt16 fbi.height.toUInt16
        fbi.bpp (outPixelPerBytes * 8)⟩
  else
    none

/- The pixels that are sent, by their number in the image. -/
def sampledPixels
    (scale : UInt32 → UInt32)
    (fbi : FbInfo) : List Nat :=
  if threshold.toUInt32 < fbi.width * fbi.height then
    let (resizeW, resizeH) :=
      resizeTarget scale fbi.width fbi.height.toNat
    (List.range resizeH.toNat).flatMap fun i =>
      (List.range resizeW.toNat).map fun j =>
        fbi.pixelAt resizeW resizeH i j
  else
    let w := fbi.width.toUInt16.toNat
    (List.range fbi.height.toUInt16.toNat).flatMap fun i =>
      (List.range w).map fun j => i * w + j

/- Without overflow the product is the area of the target. -/
theorem area_le_of_not_lt
    {resizeW resizeH : UInt32}
    (hProduct :
      resizeW.toNat * resizeH.toNat < 2147483648)
    (hArea : ¬threshold < (resizeW * resizeH).toInt32) :
    resizeH.toNat * resizeW.toNat ≤
      threshold.toUInt32.toNat := by
  have hWord :
      (resizeW * resizeH).toNat =
        resizeW.toNat * resizeH.toNat := by
    apply Words.toNat_mul_of_lt
    exact Nat.lt_trans hProduct (by decide)
  have hSign :
      (resizeW * resizeH).toInt32.toInt =
        (resizeW.toNat * resizeH.toNat : Nat) := by
    rw [← hWord] at hProduct ⊢
    exact Words.toInt_toInt32_of_lt hProduct
  have hThreshold : threshold.toInt = 589824 := rfl
  have hThresholdWord : threshold.toUInt32.toNat = 589824 := rfl
  rw [Int32.lt_iff_toInt_lt, hSign, hThreshold] at hArea
  rw [hThresholdWord, Nat.mul_comm]
  omega

/- The loop ends with a target below the threshold. -/
theorem resizeTarget_le
    {scale : UInt32 → UInt32}
    {width resizeW : UInt32}
    {h : Nat}
    (hScale :
      ∀ i : UInt32, i.toNat < h → scale i ≤ width)
    (hWidth : resizeW ≤ width)
    (hSize : width.toNat * h < 2147483648)
    (hWord : h < UInt32.size) :
    (resizeTarget scale resizeW h).1 ≤ width ∧
      (resizeTarget scale resizeW h).2.toNat ≤ h ∧
      (resizeTarget scale resizeW h).2.toNat *
          (resizeTarget scale resizeW h).1.toNat ≤
        threshold.toUInt32.toNat := by
  induction h generalizing resizeW with
  | zero =>
      refine ⟨hWidth, Nat.le_refl _, ?_⟩
      rw [resizeTarget, UInt32.toNat_zero, Nat.zero_mul]
      exact Nat.zero_le _
  | succ h ih =>
      have hNat : (UInt32.ofNat (h + 1)).toNat = h + 1 :=
        UInt32.toNat_ofNat_of_lt' hWord
      have hNext : (UInt32.ofNat h).toNat = h :=
        UInt32.toNat_ofNat_of_lt' (by omega)
      rw [resizeTarget]
      split
      · have hLess :
            width.toNat * h ≤ width.toNat * (h + 1) :=
          Nat.mul_le_mul_left _ (Nat.le_succ h)
        have hRest := ih
          (fun i hI => hScale i (by omega))
          (hScale (.ofNat h) (by omega))
          (Nat.lt_of_le_of_lt hLess hSize) (by omega)
        refine ⟨hRest.1, ?_, hRest.2.2⟩
        exact Nat.le_succ_of_le hRest.2.1
      · rename_i hArea
        refine ⟨hWidth, Nat.le_of_eq hNat, ?_⟩
        apply area_le_of_not_lt _ hArea
        rw [hNat]
        apply Nat.lt_of_le_of_lt _ hSize
        exact Nat.mul_le_mul_right _ hWidth

end FzEvent

------------------------------------------------------------
-- Channels
------------------------------------------------------------

namespace FzEvent

open ByteCodec RowMajor

/- The bits of a pixel from `offset` on, `length` of them. -/
def channel
    (offset length : UInt32)
    (pixel : List UInt8) : Nat :=
  leNat pixel >>> offset.toNat % (1 <<< length.toNat)

/- The bytes of pixel `p`. -/
def FbInfo.pixel
    (fbi : FbInfo)
    (rawBuffer : List UInt8)
    (p : Nat) : List UInt8 :=
  (rawBuffer.drop (p * fbi.pixelPerBytes)).take
    fbi.pixelPerBytes

/- The blue, the green and the red channel of a pixel. -/
def FbInfo.channels
    (fbi : FbInfo)
    (pixel : List UInt8) : List Nat :=
  [channel fbi.blueOffset fbi.blueLength pixel,
    channel fbi.greenOffset fbi.greenLength pixel,
    channel fbi.redOffset fbi.redLength pixel]

/-
  Every pixel that is sent is the blue, the green and the red
  channel of the pixel that was sampled for it.
-/
def OneLayout
    (fbi : FbInfo)
    (rawBuffer : List UInt8)
    (pixels : List Nat)
    (out : List UInt8) : Prop :=
  ∀ k p, pixels[k]? = some p →
    ((out.drop (3 * k)).take 3).map UInt8.toNat =
      fbi.channels (fbi.pixel rawBuffer p)

/- The bytes that the loops take from pixel `p`, in order. -/
def FbInfo.taken
    (fbi : FbInfo)
    (rawBuffer : List UInt8)
    (p : Nat) : Option (List UInt8) := do
  let blue ← rawBuffer[p * fbi.pixelPerBytes + 2]?
  let green ← rawBuffer[p * fbi.pixelPerBytes + 1]?
  let red ← rawBuffer[p * fbi.pixelPerBytes]?
  return [blue, green, red]

/- The moves for a list of pixels. -/
def pixelsMoves
    (pixelPerBytes : Nat) : Nat → List Nat → List Move
| _, [] => []
| k, p :: pixels =>
    exactPixel k (p * pixelPerBytes) ++
      pixelsMoves pixelPerBytes (k + 3) pixels

theorem pixelsMoves_append
    (pixelPerBytes k : Nat)
    (front back : List Nat) :
    pixelsMoves pixelPerBytes k (front ++ back) =
      pixelsMoves pixelPerBytes k front ++
        pixelsMoves pixelPerBytes (k + 3 * front.length)
          back := by
  induction front generalizing k with
  | nil => simp [pixelsMoves]
  | cons p front ih =>
      rw [List.cons_append, pixelsMoves, ih, pixelsMoves,
        List.append_assoc, List.length_cons]
      congr 3
      omega

/- A row of pixels is a row of moves. -/
theorem pixelsMoves_row
    (pixelPerBytes k w : Nat)
    (source : Nat → Nat) :
    pixelsMoves pixelPerBytes (k * 3)
        ((List.range w).map source) =
      (List.range w).flatMap fun j =>
        exactPixel ((k + j) * 3)
          (source j * pixelPerBytes) := by
  induction w with
  | zero => rfl
  | succ w ih =>
      rw [List.range_succ, List.map_append,
        pixelsMoves_append, ih, List.flatMap_append,
        List.flatMap_singleton, List.length_map,
        List.length_range, List.map_singleton, pixelsMoves,
        pixelsMoves, List.append_nil]
      congr 2
      omega

/- The exact loop goes through its pixels in order. -/
theorem exactMoves_eq
    (h w pixelPerBytes : Nat)
    (source : Nat → Nat → Nat) :
    exactMoves h w pixelPerBytes source =
      pixelsMoves pixelPerBytes 0
        ((List.range h).flatMap fun i =>
          (List.range w).map fun j => source i j) := by
  induction h with
  | zero => rfl
  | succ h ih =>
      have hLength :
          ((List.range h).flatMap fun i =>
            (List.range w).map fun j => source i j).length =
              h * w := by
        simp
      rw [exactMoves] at ih ⊢
      rw [List.range_succ, List.flatMap_append, ih,
        List.flatMap_append, List.flatMap_singleton,
        List.flatMap_singleton, pixelsMoves_append, hLength,
        Nat.zero_add, Nat.mul_comm 3, pixelsMoves_row]

end FzEvent

------------------------------------------------------------
-- What Is Sent
------------------------------------------------------------

namespace FzEvent

open ByteCodec RowMajor

theorem sources_exactPixel
    (fbi : FbInfo)
    (rawBuffer : List UInt8)
    (dest p : Nat) :
    sources rawBuffer
        (exactPixel dest (p * fbi.pixelPerBytes)) =
      fbi.taken rawBuffer p := by
  simp [sources, exactPixel, FbInfo.taken, Option.bind_assoc]

/- What the loop reads are the bytes of its pixels. -/
theorem sources_pixelsMoves
    (fbi : FbInfo)
    (rawBuffer : List UInt8)
    (k : Nat)
    (pixels : List Nat) :
    sources rawBuffer
        (pixelsMoves fbi.pixelPerBytes k pixels) =
      (pixels.mapM (fbi.taken rawBuffer)).map
        List.flatten := by
  induction pixels generalizing k with
  | nil => rfl
  | cons p pixels ih =>
      have hFirst := sources_exactPixel fbi rawBuffer k p
      have hRest := ih (k + 3)
      rw [sources] at hFirst hRest ⊢
      rw [pixelsMoves, List.mapM_append, hFirst, hRest,
        List.mapM_cons]
      cases fbi.taken rawBuffer p with
      | none => rfl
      | some bytes =>
          cases pixels.mapM (fbi.taken rawBuffer) with
          | none => rfl
          | some groups => rfl

theorem length_of_taken
    {fbi : FbInfo}
    {rawBuffer bytes : List UInt8}
    {p : Nat}
    (hTaken : fbi.taken rawBuffer p = some bytes) :
    bytes.length = 3 := by
  simp only [FbInfo.taken, Option.bind_eq_bind,
    Option.bind_eq_some_iff] at hTaken
  rcases hTaken with ⟨_, _, _, _, _, _, hEq⟩
  cases hEq
  rfl

/- The bytes of pixel `k` stand at place `3 * k`. -/
theorem taken_of_groups
    {fbi : FbInfo}
    {rawBuffer : List UInt8}
    {pixels : List Nat}
    {groups : List (List UInt8)}
    (hGroups :
      pixels.mapM (fbi.taken rawBuffer) = some groups)
    (rest : List UInt8)
    {k p : Nat}
    (hPixel : pixels[k]? = some p) :
    fbi.taken rawBuffer p =
      some (((groups.flatten ++ rest).drop (3 * k)).take
        3) := by
  induction pixels generalizing groups k with
  | nil => cases hPixel
  | cons first pixels ih =>
      rw [List.mapM_cons] at hGroups
      simp only [Option.bind_eq_bind,
        Option.bind_eq_some_iff] at hGroups
      rcases hGroups with
        ⟨bytes, hBytes, groups, hRest, hEq⟩
      cases hEq
      have hLength := length_of_taken hBytes
      rw [List.flatten_cons, List.append_assoc]
      cases k with
      | zero =>
          cases hPixel
          rw [hBytes, Nat.mul_zero, List.drop_zero,
            ← hLength, List.take_left]
      | succ k =>
          rw [List.getElem?_cons_succ] at hPixel
          rw [ih hRest hPixel, Nat.mul_succ, Nat.add_comm,
            ← List.drop_drop]
          congr 3
          rw [← hLength, List.drop_left]

/- The pixel is there and is sent with its own channels. -/
def FbInfo.PixelLayout
    (fbi : FbInfo)
    (rawBuffer : List UInt8)
    (p : Nat) : Prop :=
  ∃ bytes,
    fbi.taken rawBuffer p = some bytes ∧
      bytes.map UInt8.toNat =
        fbi.channels (fbi.pixel rawBuffer p)

theorem exists_groups
    {fbi : FbInfo}
    {rawBuffer : List UInt8}
    {pixels : List Nat}
    (hLayout : ∀ p ∈ pixels, fbi.PixelLayout rawBuffer p) :
    ∃ groups,
      pixels.mapM (fbi.taken rawBuffer) = some groups := by
  induction pixels with
  | nil => exact ⟨[], rfl⟩
  | cons p pixels ih =>
      rw [List.forall_mem_cons] at hLayout
      rcases hLayout with ⟨⟨bytes, hBytes, _⟩, hRest⟩
      rcases ih hRest with ⟨groups, hGroups⟩
      refine ⟨bytes :: groups, ?_⟩
      rw [List.mapM_cons, hBytes, hGroups]
      rfl

/- The law holds of an image if it holds of its pixels. -/
theorem oneLayout_iff_pixels
    (fbi : FbInfo)
    (rawBuffer : List UInt8)
    {dest : List UInt8}
    {h w : Nat}
    {source : Nat → Nat → Nat}
    {pixels : List Nat}
    (hPixels :
      pixels =
        (List.range h).flatMap fun i =>
          (List.range w).map fun j => source i j)
    (hDest : h * w * 3 ≤ dest.length) :
    (∃ out,
      applyMoves rawBuffer dest
          (exactMoves h w fbi.pixelPerBytes source) =
        some out ∧
        OneLayout fbi rawBuffer pixels out) ↔
      ∀ p ∈ pixels, fbi.PixelLayout rawBuffer p := by
  have hOrder :=
    dest_exactMoves h w fbi.pixelPerBytes source
  have hLength :
      (exactMoves h w fbi.pixelPerBytes source).length =
        h * w * 3 := by
    rw [← List.length_map Move.dest, hOrder,
      List.length_range]
  rw [← hLength] at hOrder hDest
  rw [List.range_eq_range'] at hOrder
  have hRun :
      applyMoves rawBuffer dest
          (exactMoves h w fbi.pixelPerBytes source) =
        (pixels.mapM (fbi.taken rawBuffer)).map
          fun groups =>
            groups.flatten ++
              dest.drop
                (exactMoves h w fbi.pixelPerBytes
                  source).length := by
    rw [applyMoves_inOrder hOrder (by omega), exactMoves_eq,
      ← hPixels, sources_pixelsMoves, Option.map_map]
    congr 1
    funext groups
    simp
  rw [hRun]
  constructor
  · rintro ⟨out, hOut, hLayout⟩ p hPixel
    rw [Option.map_eq_some_iff] at hOut
    rcases hOut with ⟨groups, hGroups, rfl⟩
    rcases List.mem_iff_getElem?.mp hPixel with ⟨k, hK⟩
    exact ⟨_, taken_of_groups hGroups _ hK, hLayout k p hK⟩
  · intro hLayout
    rcases exists_groups hLayout with ⟨groups, hGroups⟩
    refine ⟨_, by rw [hGroups]; rfl, ?_⟩
    intro k p hK
    rcases hLayout p (List.mem_of_getElem? hK) with
      ⟨bytes, hBytes, hChannels⟩
    rw [taken_of_groups hGroups
      (dest.drop (exactMoves h w fbi.pixelPerBytes
        source).length) hK] at hBytes
    cases hBytes
    exact hChannels

end FzEvent

------------------------------------------------------------
-- The Formats
------------------------------------------------------------

namespace FzEvent

open ByteCodec RowMajor

theorem taken_eq_some_iff
    {fbi : FbInfo}
    {rawBuffer bytes : List UInt8}
    {p : Nat} :
    fbi.taken rawBuffer p = some bytes ↔
      ∃ blue green red,
        rawBuffer[p * fbi.pixelPerBytes + 2]? = some blue ∧
        rawBuffer[p * fbi.pixelPerBytes + 1]? = some green ∧
        rawBuffer[p * fbi.pixelPerBytes]? = some red ∧
        bytes = [blue, green, red] := by
  simp only [FbInfo.taken, Option.bind_eq_bind,
    Option.bind_eq_some_iff, Option.pure_def,
    Option.some.injEq]
  constructor
  · rintro ⟨blue, hBlue, green, hGreen, red, hRed, rfl⟩
    exact ⟨blue, green, red, hBlue, hGreen, hRed, rfl⟩
  · rintro ⟨blue, green, red, hBlue, hGreen, hRed, rfl⟩
    exact ⟨blue, hBlue, green, hGreen, red, hRed, rfl⟩

theorem getElem?_pixel
    (fbi : FbInfo)
    (rawBuffer : List UInt8)
    (p : Nat)
    {c : Nat}
    (hByte : c < fbi.pixelPerBytes) :
    (fbi.pixel rawBuffer p)[c]? =
      rawBuffer[p * fbi.pixelPerBytes + c]? := by
  rw [FbInfo.pixel, List.getElem?_take_of_lt hByte,
    List.getElem?_drop]

theorem length_pixel
    {fbi : FbInfo}
    {rawBuffer : List UInt8}
    {p pixels : Nat}
    (hRaw : rawBuffer.length = pixels * fbi.pixelPerBytes)
    (hPixel : p < pixels) :
    (fbi.pixel rawBuffer p).length = fbi.pixelPerBytes := by
  have hNext :
      (p + 1) * fbi.pixelPerBytes ≤ rawBuffer.length := by
    rw [hRaw]
    exact Nat.mul_le_mul_right _ hPixel
  rw [Nat.add_mul, Nat.one_mul] at hNext
  rw [FbInfo.pixel, List.length_take, List.length_drop]
  omega

/- The lowest three bytes are taken in reverse. -/
theorem taken_of_pixel
    {fbi : FbInfo}
    {rawBuffer rest : List UInt8}
    {p : Nat}
    {a b c : UInt8}
    (hPixel : fbi.pixel rawBuffer p = a :: b :: c :: rest) :
    fbi.taken rawBuffer p = some [c, b, a] := by
  have hLength :
      (fbi.pixel rawBuffer p).length ≤ fbi.pixelPerBytes :=
    List.length_take_le _ _
  rw [hPixel] at hLength
  simp only [List.length_cons] at hLength
  have hByte :
      ∀ d, d < 3 →
        rawBuffer[p * fbi.pixelPerBytes + d]? =
          (a :: b :: c :: rest)[d]? := by
    intro d hLt
    rw [← hPixel, getElem?_pixel fbi rawBuffer p (by omega)]
  apply taken_eq_some_iff.mpr
  exact ⟨c, b, a, hByte 2 (by decide), hByte 1 (by decide),
    hByte 0 (by decide), rfl⟩

/- A byte of a pixel as a channel of eight bits. -/
theorem channel_byte
    (a b c : UInt8)
    (rest : List UInt8) :
    channel 0 8 (a :: b :: c :: rest) = a.toNat ∧
      channel 8 8 (a :: b :: c :: rest) = b.toNat ∧
      channel 16 8 (a :: b :: c :: rest) = c.toNat := by
  have hA : a.toNat < 256 := a.toNat_lt
  have hB : b.toNat < 256 := b.toNat_lt
  have hC : c.toNat < 256 := c.toNat_lt
  simp only [channel, leNat, Nat.shiftRight_eq_div_pow]
  refine ⟨?_, ?_, ?_⟩
  · show _ / 1 % 256 = _
    omega
  · show _ / 256 % 256 = _
    omega
  · show _ / 65536 % 256 = _
    omega

/- The channels of a pixel of 16 bits. -/
theorem channel_565
    (a b : UInt8) :
    channel 0 5 [a, b] = a.toNat % 32 ∧
      channel 5 6 [a, b] =
        a.toNat / 32 + 8 * (b.toNat % 8) ∧
      channel 11 5 [a, b] = b.toNat / 8 := by
  have hA : a.toNat < 256 := a.toNat_lt
  have hB : b.toNat < 256 := b.toNat_lt
  simp only [channel, leNat, Nat.shiftRight_eq_div_pow]
  refine ⟨?_, ?_, ?_⟩
  · show _ / 1 % 32 = _
    omega
  · show _ / 32 % 64 = _
    omega
  · show _ / 2048 % 32 = _
    omega

end FzEvent

------------------------------------------------------------
-- Where the Layouts Agree
------------------------------------------------------------

namespace FzEvent

open ByteCodec RowMajor

/-
  The bytes of pixel `p` are its channels: always in the first
  three formats; in format 5 where red and blue are equal; in
  RGB_565 only where the pixel is black and a zero byte
  follows.
-/
def PixelAgrees
    (format : Int32)
    (rawBuffer : List UInt8)
    (p : Nat) : Prop :=
  format = 1 ∨ format = 2 ∨ format = 3 ∨
    (format = 4 ∧
      rawBuffer[p * 2]? = some 0 ∧
      rawBuffer[p * 2 + 1]? = some 0 ∧
      rawBuffer[p * 2 + 2]? = some 0) ∨
    (format = 5 ∧ rawBuffer[p * 4]? = rawBuffer[p * 4 + 2]?)

/- Every pixel that is sent agrees. -/
def LayoutsAgree
    (format : Int32)
    (rawBuffer : List UInt8)
    (pixels : List Nat) : Prop :=
  ∀ p ∈ pixels, PixelAgrees format rawBuffer p

/- What `_get_surface_info` records for a format. -/
inductive RecordedAs (fbi : FbInfo) : Int32 → Prop
| rgb {format : Int32} :
    format = 1 ∨ format = 2 ∨ format = 3 →
    fbi.pixelPerBytes = 3 ∨ fbi.pixelPerBytes = 4 →
    (∀ pixel, fbi.channels pixel =
      [channel 16 8 pixel, channel 8 8 pixel,
        channel 0 8 pixel]) →
    RecordedAs fbi format
| rgb565 :
    fbi.pixelPerBytes = 2 →
    (∀ pixel, fbi.channels pixel =
      [channel 0 5 pixel, channel 5 6 pixel,
        channel 11 5 pixel]) →
    RecordedAs fbi 4
| bgra :
    fbi.pixelPerBytes = 4 →
    (∀ pixel, fbi.channels pixel =
      [channel 0 8 pixel, channel 8 8 pixel,
        channel 16 8 pixel]) →
    RecordedAs fbi 5

theorem recordedAs_of_getSurfaceInfo
    {width height : UInt32}
    {format : Int32}
    {fbi : FbInfo}
    (hInfo : getSurfaceInfo width height format = some fbi) :
    fbi.width = width ∧ fbi.height = height ∧
      RecordedAs fbi format := by
  have hFour : (32 / 8 : UInt32).toNat = 4 := rfl
  have hThree : (24 / 8 : UInt32).toNat = 3 := rfl
  have hTwo : (16 / 8 : UInt32).toNat = 2 := rfl
  unfold getSurfaceInfo at hInfo
  split at hInfo
  · rename_i hFormat
    cases hInfo
    exact ⟨rfl, rfl, .rgb (Or.inl hFormat) (Or.inr hFour)
      (fun _ => rfl)⟩
  split at hInfo
  · rename_i hFormat
    cases hInfo
    exact ⟨rfl, rfl, .rgb (Or.inr (Or.inl hFormat))
      (Or.inr hFour) (fun _ => rfl)⟩
  split at hInfo
  · rename_i hFormat
    cases hInfo
    exact ⟨rfl, rfl, .rgb (Or.inr (Or.inr hFormat))
      (Or.inl hThree) (fun _ => rfl)⟩
  split at hInfo
  · rename_i hFormat
    cases hInfo
    rw [hFormat]
    exact ⟨rfl, rfl, .rgb565 hTwo (fun _ => rfl)⟩
  split at hInfo
  · rename_i hFormat
    cases hInfo
    rw [hFormat]
    exact ⟨rfl, rfl, .bgra hFour (fun _ => rfl)⟩
  · cases hInfo

/- A pixel inside of at least three bytes. -/
theorem exists_pixel
    {fbi : FbInfo}
    {rawBuffer : List UInt8}
    {p pixels : Nat}
    (hBytes : 3 ≤ fbi.pixelPerBytes)
    (hRaw : rawBuffer.length = pixels * fbi.pixelPerBytes)
    (hPixel : p < pixels) :
    ∃ a b c rest,
      fbi.pixel rawBuffer p = a :: b :: c :: rest := by
  have hLength := length_pixel hRaw hPixel
  match hEq : fbi.pixel rawBuffer p with
  | [] =>
      rw [hEq, List.length_nil] at hLength
      omega
  | [_] =>
      rw [hEq, List.length_singleton] at hLength
      omega
  | [_, _] =>
      rw [hEq, List.length_cons,
        List.length_singleton] at hLength
      omega
  | a :: b :: c :: rest => exact ⟨a, b, c, rest, rfl⟩

theorem pixelLayout_of_rgb
    {fbi : FbInfo}
    {rawBuffer : List UInt8}
    {p pixels : Nat}
    (hBytes : 3 ≤ fbi.pixelPerBytes)
    (hChannels :
      ∀ pixel, fbi.channels pixel =
        [channel 16 8 pixel, channel 8 8 pixel,
          channel 0 8 pixel])
    (hRaw : rawBuffer.length = pixels * fbi.pixelPerBytes)
    (hPixel : p < pixels) :
    fbi.PixelLayout rawBuffer p := by
  rcases exists_pixel hBytes hRaw hPixel with
    ⟨a, b, c, rest, hEq⟩
  rcases channel_byte a b c rest with ⟨hA, hB, hC⟩
  refine ⟨[c, b, a], taken_of_pixel hEq, ?_⟩
  rw [hChannels, hEq, hA, hB, hC]
  rfl

theorem pixelLayout_bgra_iff
    {fbi : FbInfo}
    {rawBuffer : List UInt8}
    {p pixels : Nat}
    (hBytes : fbi.pixelPerBytes = 4)
    (hChannels :
      ∀ pixel, fbi.channels pixel =
        [channel 0 8 pixel, channel 8 8 pixel,
          channel 16 8 pixel])
    (hRaw : rawBuffer.length = pixels * fbi.pixelPerBytes)
    (hPixel : p < pixels) :
    fbi.PixelLayout rawBuffer p ↔
      rawBuffer[p * 4]? = rawBuffer[p * 4 + 2]? := by
  rcases exists_pixel (by omega) hRaw hPixel with
    ⟨a, b, c, rest, hEq⟩
  have hTaken := taken_of_pixel hEq
  rcases channel_byte a b c rest with ⟨hA, hB, hC⟩
  have hFirst := getElem?_pixel fbi rawBuffer p
    (show 0 < fbi.pixelPerBytes by omega)
  have hThird := getElem?_pixel fbi rawBuffer p
    (show 2 < fbi.pixelPerBytes by omega)
  rw [hEq, hBytes] at hFirst hThird
  rw [Nat.add_zero] at hFirst
  rw [← hFirst, ← hThird, FbInfo.PixelLayout, hTaken]
  simp only [Option.some.injEq, exists_eq_left']
  rw [hChannels, hEq, hA, hB, hC]
  simp only [List.map_cons, List.map_nil, List.cons.injEq,
    UInt8.toNat_inj, List.getElem?_cons_zero,
    List.getElem?_cons_succ, Option.some.injEq]
  constructor
  · intro hSame
    exact hSame.1.symm
  · rintro rfl
    exact ⟨rfl, trivial, rfl, trivial⟩

theorem pixelLayout_565_iff
    {fbi : FbInfo}
    {rawBuffer : List UInt8}
    {p pixels : Nat}
    (hBytes : fbi.pixelPerBytes = 2)
    (hChannels :
      ∀ pixel, fbi.channels pixel =
        [channel 0 5 pixel, channel 5 6 pixel,
          channel 11 5 pixel])
    (hRaw : rawBuffer.length = pixels * fbi.pixelPerBytes)
    (hPixel : p < pixels) :
    fbi.PixelLayout rawBuffer p ↔
      rawBuffer[p * 2]? = some 0 ∧
        rawBuffer[p * 2 + 1]? = some 0 ∧
        rawBuffer[p * 2 + 2]? = some 0 := by
  have hLength := length_pixel hRaw hPixel
  rw [hBytes] at hLength
  rcases List.length_eq_two.mp hLength with ⟨a, b, hEq⟩
  have hLow := getElem?_pixel fbi rawBuffer p
    (show 0 < fbi.pixelPerBytes by omega)
  have hHigh := getElem?_pixel fbi rawBuffer p
    (show 1 < fbi.pixelPerBytes by omega)
  rw [hEq, hBytes] at hLow hHigh
  rw [Nat.add_zero] at hLow
  rcases channel_565 a b with ⟨hBlue, hGreen, hRed⟩
  rw [FbInfo.PixelLayout, ← hLow, ← hHigh]
  constructor
  · rintro ⟨bytes, hTaken, hSame⟩
    rcases taken_eq_some_iff.mp hTaken with
      ⟨blue, green, red, hB, hG, hR, rfl⟩
    rw [hBytes] at hB hG hR
    rw [← hLow] at hR
    rw [← hHigh] at hG
    cases hR
    cases hG
    rw [hChannels, hEq, hBlue, hGreen, hRed] at hSame
    simp only [List.map_cons, List.map_nil,
      List.cons.injEq] at hSame
    rcases hSame with ⟨hSameB, hSameG, hSameR, _⟩
    have hHighLt : b.toNat < 256 := b.toNat_lt
    -- the low byte has no upper bits, so the high byte is
    -- eight times its own lower bits
    have hUpper : a.toNat / 32 = 0 := by omega
    have hLower : b.toNat % 8 = 0 := by
      rw [hUpper] at hSameG
      omega
    have hZero : a.toNat = 0 ∧ b.toNat = 0 := by omega
    have hA : a = 0 := UInt8.toNat_inj.mp hZero.1
    have hZeroB : b = 0 := UInt8.toNat_inj.mp hZero.2
    have hNext : blue = 0 := by
      apply UInt8.toNat_inj.mp
      rw [hSameB, hZero.1]
      rfl
    rw [hB, hA, hZeroB, hNext]
    exact ⟨rfl, rfl, rfl⟩
  · rintro ⟨hA, hB, hNext⟩
    cases hA
    cases hB
    refine ⟨[0, 0, 0], ?_, ?_⟩
    · apply taken_eq_some_iff.mpr
      rw [hBytes, ← hLow, ← hHigh]
      exact ⟨0, 0, 0, hNext, rfl, rfl, rfl⟩
    · rw [hChannels, hEq, hBlue, hGreen, hRed]
      rfl

/- The pixel is sent with its channels if it agrees. -/
theorem pixelLayout_iff
    {fbi : FbInfo}
    {format : Int32}
    {rawBuffer : List UInt8}
    {p pixels : Nat}
    (hRecorded : RecordedAs fbi format)
    (hRaw : rawBuffer.length = pixels * fbi.pixelPerBytes)
    (hPixel : p < pixels) :
    fbi.PixelLayout rawBuffer p ↔
      PixelAgrees format rawBuffer p := by
  cases hRecorded with
  | rgb hFormat hBytes hChannels =>
      constructor
      · intro _
        rw [PixelAgrees]
        rcases hFormat with hOne | hTwo | hThree
        · exact Or.inl hOne
        · exact Or.inr (Or.inl hTwo)
        · exact Or.inr (Or.inr (Or.inl hThree))
      · intro _
        exact pixelLayout_of_rgb (by omega) hChannels hRaw
          hPixel
  | rgb565 hBytes hChannels =>
      rw [pixelLayout_565_iff hBytes hChannels hRaw hPixel,
        PixelAgrees]
      simp
  | bgra hBytes hChannels =>
      rw [pixelLayout_bgra_iff hBytes hChannels hRaw hPixel,
        PixelAgrees]
      simp

end FzEvent

------------------------------------------------------------
-- One Layout
------------------------------------------------------------

namespace FzEvent

open RowMajor

/- What is sent for the image has the one layout. -/
def SendsOneLayout
    (scale : UInt32 → UInt32)
    (fbi : FbInfo)
    (resized : Resized)
    (rawBuffer dest : List UInt8) : Prop :=
  ∃ out,
    applyMoves rawBuffer dest resized.moves = some out ∧
      OneLayout fbi rawBuffer (sampledPixels scale fbi) out

/-
  The assignments are the exact loop over the pixels that are
  sampled, and these are pixels of the image.
-/
def LoopsExactly
    (scale : UInt32 → UInt32)
    (fbi : FbInfo)
    (resized : Resized) : Prop :=
  ∃ h w source,
    resized.moves =
        exactMoves h w fbi.pixelPerBytes source ∧
      (sampledPixels scale fbi =
        (List.range h).flatMap fun i =>
          (List.range w).map fun j => source i j) ∧
      (∀ i, i < h → ∀ j, j < w →
        source i j < fbi.height.toNat * fbi.width.toNat) ∧
      h * w * 3 ≤
        resized.resizeW.toNat * resized.resizeH.toNat * 3

section

variable {scale : UInt32 → UInt32} {fbi : FbInfo}

/- The path that scales down. -/
theorem loopsExactly_resizeMoves
    {resizeW resizeH : UInt32}
    (hLarge : threshold.toUInt32 < fbi.width * fbi.height)
    (hPair :
      resizeTarget scale fbi.width fbi.height.toNat =
        (resizeW, resizeH))
    (hScale :
      ∀ h : UInt32, h < fbi.height → scale h ≤ fbi.width)
    (hBytes : 2 ≤ fbi.pixelPerBytes)
    (hSize :
      fbi.height.toNat * fbi.width.toNat *
        fbi.pixelPerBytes < UInt32.size) :
    LoopsExactly scale fbi
      ⟨resizeW, resizeH, resizeMoves fbi resizeW resizeH⟩ := by
  have hArea :
      fbi.height.toNat * fbi.width.toNat * 2 ≤
        fbi.height.toNat * fbi.width.toNat *
          fbi.pixelPerBytes :=
    Nat.mul_le_mul_left _ hBytes
  have hWord : UInt32.size = 4294967296 := rfl
  have hTarget := resizeTarget_le
    (fun i hI => hScale i (UInt32.lt_iff_toNat_lt.mpr hI))
    (UInt32.le_refl fbi.width)
    (by rw [Nat.mul_comm]; omega) fbi.height.toNat_lt_size
  rw [hPair] at hTarget
  rcases hTarget with ⟨hWidth, hHeight, hBound⟩
  dsimp only at hWidth hHeight hBound
  have hSmall : threshold.toUInt32.toNat = 589824 := rfl
  refine ⟨resizeH.toNat, resizeW.toNat,
    fbi.pixelAt resizeW resizeH, ?_, ?_, ?_, ?_⟩
  · exact resizeMoves_eq_exact hWidth hHeight (by omega)
      hBytes hSize
  · rw [sampledPixels, if_pos hLarge, hPair]
  · intro i hRow j hColumn
    exact pixelAt_lt hWidth hHeight hRow hColumn
  · rw [Nat.mul_comm resizeW.toNat]

/- The path that converts, with its parameters of 16 bits. -/
theorem loopsExactly_convMoves
    (hSmall : ¬threshold.toUInt32 < fbi.width * fbi.height)
    (hBpp : fbi.bpp = 32)
    (hSize :
      fbi.height.toNat * fbi.width.toNat *
        fbi.pixelPerBytes < UInt32.size) :
    LoopsExactly scale fbi
      ⟨fbi.width, fbi.height,
        convMoves fbi.width.toUInt16 fbi.height.toUInt16
          fbi.bpp (outPixelPerBytes * 8)⟩ := by
  have hPixel : fbi.pixelPerBytes = 4 := by
    rw [FbInfo.pixelPerBytes, hBpp]
    rfl
  have hWidth :
      fbi.width.toUInt16.toNat ≤ fbi.width.toNat := by
    rw [UInt32.toNat_toUInt16]
    exact Nat.mod_le _ _
  have hHeight :
      fbi.height.toUInt16.toNat ≤ fbi.height.toNat := by
    rw [UInt32.toNat_toUInt16]
    exact Nat.mod_le _ _
  have hPart := Nat.mul_le_mul hHeight hWidth
  have hFour : (fbi.bpp / 8).toNat = 4 := hPixel
  rw [hPixel] at hSize
  refine ⟨fbi.height.toUInt16.toNat,
    fbi.width.toUInt16.toNat,
    fun i j => i * fbi.width.toUInt16.toNat + j,
    ?_, ?_, ?_, ?_⟩
  · apply convMoves_eq_exact
    · omega
    · omega
    · rw [hFour]
      omega
  · rw [sampledPixels, if_neg hSmall]
  · intro i hRow j hColumn
    exact Nat.lt_of_lt_of_le (index_lt hRow hColumn) hPart
  · rw [Nat.mul_comm fbi.width.toNat]
    exact Nat.mul_le_mul_right 3 hPart

theorem resizing_exact
    {resized : Resized}
    (hResizing : resizing scale fbi = some resized)
    (hScale :
      ∀ h : UInt32, h < fbi.height → scale h ≤ fbi.width)
    (hBytes : 2 ≤ fbi.pixelPerBytes)
    (hSize :
      fbi.height.toNat * fbi.width.toNat *
        fbi.pixelPerBytes < UInt32.size) :
    LoopsExactly scale fbi resized := by
  unfold resizing at hResizing
  split at hResizing
  · rename_i hLarge
    rcases hPair :
        resizeTarget scale fbi.width fbi.height.toNat with
      ⟨resizeW, resizeH⟩
    rw [hPair] at hResizing
    dsimp only at hResizing
    split at hResizing
    · cases hResizing
    · cases hResizing
      exact loopsExactly_resizeMoves hLarge hPair hScale hBytes
        hSize
  · rename_i hSmall
    split at hResizing
    · rename_i hBpp
      cases hResizing
      exact loopsExactly_convMoves hSmall hBpp hSize
    · cases hResizing

end

/-
  An image is sent in the one layout if and only if the pixels
  that are sampled agree.
-/
theorem oneLayout_iff
    {scale : UInt32 → UInt32}
    {width height : UInt32}
    {format : Int32}
    {fbi : FbInfo}
    {resized : Resized}
    (hInfo : getSurfaceInfo width height format = some fbi)
    (hResizing : resizing scale fbi = some resized)
    (hScale : ∀ h : UInt32, h < height → scale h ≤ width)
    {rawBuffer dest : List UInt8}
    (hSize : rawBuffer.length < UInt32.size)
    (hRaw :
      rawBuffer.length =
        height.toNat * width.toNat * fbi.pixelPerBytes)
    (hDest :
      dest.length =
        resized.resizeW.toNat * resized.resizeH.toNat * 3) :
    SendsOneLayout scale fbi resized rawBuffer dest ↔
      LayoutsAgree format rawBuffer
        (sampledPixels scale fbi) := by
  rcases recordedAs_of_getSurfaceInfo hInfo with
    ⟨hWidth, hHeight, hRecorded⟩
  subst hWidth hHeight
  have hBytes : 2 ≤ fbi.pixelPerBytes := by
    cases hRecorded with
    | rgb _ hBytes _ => omega
    | rgb565 hBytes _ => omega
    | bgra hBytes _ => omega
  rw [hRaw] at hSize
  rcases resizing_exact hResizing hScale hBytes hSize with
    ⟨h, w, source, hMoves, hPixels, hSource, hFits⟩
  rw [SendsOneLayout, hMoves,
    oneLayout_iff_pixels fbi rawBuffer hPixels (by omega),
    LayoutsAgree, hPixels]
  apply forall₂_congr
  intro p hPixel
  simp only [List.mem_flatMap, List.mem_map,
    List.mem_range] at hPixel
  rcases hPixel with ⟨i, hRow, j, hColumn, rfl⟩
  exact pixelLayout_iff hRecorded hRaw
    (hSource i hRow j hColumn)

/- A pixel of the first format. -/
theorem oneLayout_iff_rgba :
    ∃ fbi resized,
      getSurfaceInfo 1 1 1 = some fbi ∧
        resizing id fbi = some resized ∧
        (SendsOneLayout id fbi resized [10, 20, 30, 40]
            [0, 0, 0] ↔
          LayoutsAgree 1 [10, 20, 30, 40]
            (sampledPixels id fbi)) :=
  ⟨_, _, rfl, rfl,
    oneLayout_iff rfl rfl
      (fun _ hLt => UInt32.le_of_lt hLt) (by decide) rfl rfl⟩

/- A pixel of format 5 is sent with red and blue exchanged. -/
theorem layouts_disagree :
    ∃ fbi resized,
      getSurfaceInfo 1 1 5 = some fbi ∧
        resizing id fbi = some resized ∧
        applyMoves [10, 20, 30, 40] [0, 0, 0] resized.moves =
            some [30, 20, 10] ∧
          fbi.channels (fbi.pixel [10, 20, 30, 40] 0) =
              [10, 20, 30] ∧
            ¬SendsOneLayout id fbi resized [10, 20, 30, 40]
              [0, 0, 0] := by
  refine ⟨_, _, rfl, rfl, by decide, by decide, ?_⟩
  rintro ⟨out, hOut, hLayout⟩
  have hFirst := hLayout 0 0 (by decide)
  cases hOut
  revert hFirst
  decide

end FzEvent

import FzEvent.Capture.PixelLayout
import FzEvent.Capture.SurfaceGetter
import FzEvent.Lib.Block

/-
  `surface_getter::get_buffer` over the whole life of the
  object.

  The three buffers are allocated by the first frame that is
  accepted, and the sides of the target are kept from then on.
  The headers of all later frames are read and ignored. A call
  that finds no program to run takes the old frame again, and a
  frame that is too short leaves the end of the old one.

  Main declarations:
    * `FzEvent.SurfaceGetter` and `FzEvent.Shot`
    * `SurfaceGetter.getBuffer` and `SurfaceGetter.getBuffers`
    * `FzEvent.Screen` and `Screen.next`
    * `FbInfo.Supported` and `FzEvent.Shows`
    * `FbInfo.Supported.fitting`
    * `FbInfo.Supported.exists_picture`
-/

------------------------------------------------------------
-- The Object
------------------------------------------------------------

namespace FzEvent

open Block ByteCodec

/- What `compress2` leaves behind. -/
structure Compressed where
  isOk : Bool
  written : List UInt8
  destLen : UInt32
deriving DecidableEq, Repr

/-
  What `get_buffer` takes from zlib and from the floating point
  unit. `scale w h i` is `(int)((float)i * (w / (float)h))`,
  two roundings of 24 bits and a cut; `grown n` is what
  `n += (n+12) * 0.1f` leaves in `n`.
-/
structure ImageLib where
  compress2 : UInt32 → List UInt8 → Compressed
  uncompress : List UInt8 → Option (List UInt8)
  written_le :
    ∀ room source,
      (compress2 room source).written.length ≤ room.toNat
  destLen_le :
    ∀ room source,
      (compress2 room source).destLen ≤ room
  length_written :
    ∀ room source,
      (compress2 room source).isOk →
        (compress2 room source).written.length =
          (compress2 room source).destLen.toNat
  uncompress_written :
    ∀ room source,
      (compress2 room source).isOk →
        uncompress (compress2 room source).written =
          some source
  grown : UInt32 → UInt32
  scale : UInt32 → UInt32 → UInt32 → UInt32
  scale_le :
    ∀ w h i : UInt32,
      w.toNat ≤ 65535 → h.toNat ≤ 65535 → i < h →
        scale w h i ≤ w
  le_scale :
    ∀ w h i : UInt32,
      w.toNat ≤ 65535 → h.toNat ≤ 65535 → i < h →
        i.toNat * w.toNat <
          ((scale w h i).toNat + 2) * h.toNat
  scale_mul_le :
    ∀ w h i : UInt32,
      w.toNat ≤ 65535 → h.toNat ≤ 65535 → i < h →
        (scale w h i).toNat * h.toNat ≤
          i.toNat * w.toNat + h.toNat

/- Memory that is read before anything was written to it. -/
inductive Fresh
| w
| h
| f
| rawBuffer
| resizeBuffer
| compressBuffer
deriving DecidableEq, Repr

/-
  What one call finds outside: what `screencap` writes, if
  `popen` succeeds, in which pieces it is read, and what fresh
  memory holds.
-/
structure Shot where
  screencap : Option (List UInt8)
  pieces : Nat → Nat
  junk : Fresh → Nat → UInt8

/- The sides of the target before the first frame, `-1`. -/
def noSide : UInt32 := -1

/- `fbi` of an object with static storage -/
def FbInfo.zero : FbInfo where
  version := 0
  bpp := 0
  size := 0
  width := 0
  height := 0
  redOffset := 0
  redLength := 0
  blueOffset := 0
  blueLength := 0
  greenOffset := 0
  greenLength := 0
  alphaOffset := 0
  alphaLength := 0

/- The members that change; both options stay `true`. -/
structure SurfaceGetter where
  isGetSurfaceInfo : Bool
  fbi : FbInfo
  rawBuffer : Option (List UInt8)
  resizeBuffer : Option (List UInt8)
  compressBuffer : Option (List UInt8)
  resizeW : UInt32
  resizeH : UInt32
deriving DecidableEq, Repr

namespace SurfaceGetter

/- `surface_getter::init` -/
def init : SurfaceGetter where
  isGetSurfaceInfo := true
  fbi := .zero
  rawBuffer := none
  resizeBuffer := none
  compressBuffer := none
  resizeW := noSide
  resizeH := noSide

/-
  `fread(&x, 1, sizeof(x), fp)`: where the stream ends early,
  the variable keeps the bytes that it had.
-/
def readInt
    (junk : Nat → UInt8)
    (fp : List UInt8) : UInt32 × List UInt8 :=
  (.ofNat (leNat (realloc 4 junk (fp.take 4))), fp.drop 4)

/- The pixels of a frame go to the raw buffer. -/
def readRaw
    (s : SurfaceGetter)
    (shot : Shot)
    (fp : List UInt8) : Option SurfaceGetter := do
  let size := s.fbi.width * s.fbi.height * (s.fbi.bpp / 8)
  let rawBuffer := s.rawBuffer.getD
    (malloc size.toNat (shot.junk .rawBuffer))
  let rawBuffer ← memcpy
    (getRawBuffer s.fbi.size shot.pieces fp) rawBuffer
  return { s with rawBuffer := some rawBuffer }

/-
  `_get_surface_screencap_access`, whose result is not used;
  `none` is an access outside a buffer, here and below.
-/
def screencapAccess
    (s : SurfaceGetter)
    (shot : Shot) : Option SurfaceGetter :=
  match shot.screencap with
  | none => some s
  | some fp =>
      let (w, fp) := readInt (shot.junk .w) fp
      let (h, fp) := readInt (shot.junk .h) fp
      let (f, fp) := readInt (shot.junk .f) fp
      if s.isGetSurfaceInfo then
        match getSurfaceInfo w h f.toInt32 with
        | none => some s
        | some fbi =>
            readRaw
              { s with isGetSurfaceInfo := false, fbi := fbi }
              shot fp
      else
        readRaw s shot fp

/-
  The resizing phase; the inner `none` is a frame that is not
  supported. A side that became 0 is a division by zero.
-/
def resizingPhase
    (lib : ImageLib)
    (s : SurfaceGetter)
    (shot : Shot) : Option (Option SurfaceGetter) :=
  if threshold.toUInt32 < s.fbi.width * s.fbi.height then
    let (resizeW, resizeH) :=
      if s.resizeW = noSide ∨ s.resizeH = noSide then
        resizeTarget (lib.scale s.fbi.width s.fbi.height)
          s.fbi.width s.fbi.height.toNat
      else
        (s.resizeW, s.resizeH)
    let size := resizeW * resizeH * outPixelPerBytes
    let resizeBuffer := s.resizeBuffer.getD
      (malloc size.toNat (shot.junk .resizeBuffer))
    if resizeW = 0 ∨ resizeH = 0 then
      none
    else do
      let rawBuffer ← s.rawBuffer
      let resizeBuffer ←
        resizeRawImage s.fbi rawBuffer resizeBuffer resizeW
          resizeH
      return some { s with
        resizeBuffer := some resizeBuffer
        resizeW := resizeW
        resizeH := resizeH }
  else if s.fbi.bpp = 32 then do
    let resizeW := s.fbi.width
    let resizeH := s.fbi.height
    let size := resizeW * resizeH * outPixelPerBytes
    let resizeBuffer := s.resizeBuffer.getD
      (malloc size.toNat (shot.junk .resizeBuffer))
    let rawBuffer ← s.rawBuffer
    let resizeBuffer ←
      convImageBpp rawBuffer resizeBuffer resizeW.toUInt16
        resizeH.toUInt16 s.fbi.bpp (outPixelPerBytes * 8)
    return some { s with
      resizeBuffer := some resizeBuffer
      resizeW := resizeW
      resizeH := resizeH }
  else
    some none

/-
  The compressing phase, with the length that `compress2`
  stores. A failure is only logged.
-/
def compressPhase
    (lib : ImageLib)
    (s : SurfaceGetter)
    (shot : Shot) : Option (SurfaceGetter × UInt32) := do
  let size := s.resizeW * s.resizeH * outPixelPerBytes
  let room := lib.grown size
  let compressBuffer := s.compressBuffer.getD
    (malloc room.toNat (shot.junk .compressBuffer))
  let resizeBuffer ← s.resizeBuffer
  if size.toNat ≤ resizeBuffer.length then
    let compressed :=
      lib.compress2 room (resizeBuffer.take size.toNat)
    let compressBuffer ←
      memcpy compressed.written compressBuffer
    return ({ s with compressBuffer := some compressBuffer },
      compressed.destLen)
  else
    none

/- What `get_buffer` gives its caller. -/
inductive Outcome
| failure
| success (p : List UInt8) (outLength : UInt32)
    (w h : UInt16)
deriving DecidableEq, Repr

/- `surface_getter::get_buffer` -/
def getBuffer
    (lib : ImageLib)
    (s : SurfaceGetter)
    (shot : Shot) : Option (SurfaceGetter × Outcome) := do
  let s ← s.screencapAccess shot
  match ← s.resizingPhase lib shot with
  | none => return (s, .failure)
  | some s =>
      let (s, size) ← s.compressPhase lib shot
      let compressBuffer ← s.compressBuffer
      if size.toNat ≤ compressBuffer.length then
        return (s, .success (compressBuffer.take size.toNat)
          size s.resizeW.toUInt16 s.resizeH.toUInt16)
      else
        none

/- Call after call, as the capturing thread makes them. -/
def getBuffers
    (lib : ImageLib) :
    SurfaceGetter → List Shot →
      Option (SurfaceGetter × List Outcome)
| s, [] => some (s, [])
| s, shot :: shots => do
    let (s, outcome) ← s.getBuffer lib shot
    let (s, outcomes) ← getBuffers lib s shots
    return (s, outcome :: outcomes)

end SurfaceGetter

end FzEvent

------------------------------------------------------------
-- The Screen
------------------------------------------------------------

namespace FzEvent

open Block RowMajor

/- The header in front of the pixels, and the pixels. -/
def Shot.frame?
    (shot : Shot) :
    Option (UInt32 × UInt32 × Int32 × List UInt8) :=
  shot.screencap.map fun fp =>
    let (w, fp) := SurfaceGetter.readInt (shot.junk .w) fp
    let (h, fp) := SurfaceGetter.readInt (shot.junk .h) fp
    let (f, fp) := SurfaceGetter.readInt (shot.junk .f) fp
    (w, h, f.toInt32, fp)

/- The geometry that a header of a known format states. -/
def Shot.fbInfo?
    (shot : Shot) : Option FbInfo := do
  let (w, h, format, _) ← shot.frame?
  getSurfaceInfo w h format

/- The first geometry that is stated. -/
def firstFbInfo? (shots : List Shot) : Option FbInfo :=
  (shots.filterMap Shot.fbInfo?).head?

/-
  What the object stands for: a screen whose geometry is fixed
  and which shows the pixels that came last.
-/
structure Screen where
  fbi : FbInfo
  raw : List UInt8
deriving DecidableEq, Repr

namespace Screen

/- The pixels of a frame are shown, as many as there are. -/
def draw
    (screen : Screen)
    (pixels : List UInt8) : Screen :=
  { screen with
    raw :=
      overlay (pixels.take screen.fbi.size.toNat) screen.raw }

/- A screen that shows what its memory happens to hold. -/
def blank
    (fbi : FbInfo)
    (junk : Nat → UInt8) : Screen where
  fbi := fbi
  raw := malloc fbi.size.toNat junk

/- The screen after a shot; `none` is a screen still off. -/
def next
    (screen : Option Screen)
    (shot : Shot) : Option Screen :=
  match shot.frame? with
  | none => screen
  | some (w, h, format, pixels) =>
      match screen with
      | some screen => some (screen.draw pixels)
      | none =>
          (getSurfaceInfo w h format).map fun fbi =>
            (blank fbi (shot.junk .rawBuffer)).draw pixels

/- The screen after every shot. -/
def history :
    Option Screen → List Shot → List (Option Screen)
| _, [] => []
| screen, shot :: shots =>
    next screen shot :: history (next screen shot) shots

end Screen

namespace FbInfo

/- The sides of what is sent. -/
def target
    (lib : ImageLib)
    (fbi : FbInfo) : UInt32 × UInt32 :=
  if threshold.toUInt32 < fbi.width * fbi.height then
    resizeTarget (lib.scale fbi.width fbi.height) fbi.width
      fbi.height.toNat
  else
    (fbi.width, fbi.height)

/- What is sent, three bytes for every pixel. -/
def picture
    (lib : ImageLib)
    (fbi : FbInfo)
    (raw : List UInt8) : Option (List UInt8) :=
  ((sampledPixels (lib.scale fbi.width fbi.height) fbi).mapM
    (fbi.taken raw)).map List.flatten

/- Small frames of less than 32 bits are not sent at all. -/
def Unsent (fbi : FbInfo) : Prop :=
  ¬threshold.toUInt32 < fbi.width * fbi.height ∧
    fbi.bpp ≠ 32

/-
  The geometries that the object is safe for: sides of 16
  bits, a size without overflow and of at least one read, and
  more than two bytes for a pixel if it is scaled down.
-/
structure Supported (fbi : FbInfo) : Prop where
  width_le : fbi.width.toNat ≤ 65535
  height_le : fbi.height.toNat ≤ 65535
  area_lt :
    fbi.width.toNat * fbi.height.toNat * 4 < UInt32.size
  size_le : 1024 ≤ fbi.size.toNat
  bpp_ne :
    threshold.toUInt32 < fbi.width * fbi.height →
      fbi.bpp ≠ 16

end FbInfo

/-
  What a caller gets when the screen is as given: nothing for
  a screen that is off or of a kind that is not sent, and
  otherwise the picture on the screen, compressed.
-/
def Shows
    (lib : ImageLib)
    (screen : Option Screen)
    (outcome : SurfaceGetter.Outcome) : Prop :=
  match screen with
  | none => outcome = .failure
  | some screen =>
      (screen.fbi.Unsent ∧ outcome = .failure) ∨
        (¬screen.fbi.Unsent ∧
          ∃ picture p size,
            screen.fbi.picture lib screen.raw = some picture ∧
            outcome =
              .success p size
                (screen.fbi.target lib).1.toUInt16
                (screen.fbi.target lib).2.toUInt16 ∧
            p.length = size.toNat ∧
            ((lib.compress2 (lib.grown (.ofNat picture.length))
                picture).isOk →
              lib.uncompress p = some picture) ∧
            picture.length =
              3 * ((screen.fbi.target lib).1.toNat *
                (screen.fbi.target lib).2.toNat) ∧
            (screen.fbi.target lib).1.toNat *
                (screen.fbi.target lib).2.toNat ≤ 589824)

end FzEvent

------------------------------------------------------------
-- The Geometry
------------------------------------------------------------

namespace FzEvent

open RowMajor Words

namespace FbInfo

/- What `_get_surface_info` leaves in `fbi`. -/
structure Known (fbi : FbInfo) : Prop where
  size_eq : fbi.size = fbi.width * fbi.height * (fbi.bpp / 8)
  bpp_eq : fbi.bpp = 32 ∨ fbi.bpp = 24 ∨ fbi.bpp = 16

theorem known_of_getSurfaceInfo
    {width height : UInt32}
    {format : Int32}
    {fbi : FbInfo}
    (hInfo : getSurfaceInfo width height format = some fbi) :
    fbi.Known := by
  have hSize :
      ∀ bytes bpp : UInt32, bytes = bpp / 8 →
        width * height * bytes = width * height * (bpp / 8) :=
    fun _ _ hBytes => congrArg (width * height * ·) hBytes
  unfold getSurfaceInfo at hInfo
  split at hInfo
  · cases hInfo
    exact ⟨hSize 4 32 rfl, Or.inl rfl⟩
  split at hInfo
  · cases hInfo
    exact ⟨hSize 4 32 rfl, Or.inl rfl⟩
  split at hInfo
  · cases hInfo
    exact ⟨hSize 3 24 rfl, Or.inr (Or.inl rfl)⟩
  split at hInfo
  · cases hInfo
    exact ⟨hSize 2 16 rfl, Or.inr (Or.inr rfl)⟩
  split at hInfo
  · cases hInfo
    exact ⟨hSize 4 32 rfl, Or.inl rfl⟩
  · cases hInfo

variable {fbi : FbInfo}

theorem Known.pixelPerBytes_le
    (hKnown : fbi.Known) :
    2 ≤ fbi.pixelPerBytes ∧ fbi.pixelPerBytes ≤ 4 := by
  rw [pixelPerBytes]
  rcases hKnown.bpp_eq with hBpp | hBpp | hBpp <;>
    rw [hBpp] <;> decide

/- A supported frame has its exact number of bytes. -/
theorem Supported.toNat_size
    (hSupported : fbi.Supported)
    (hKnown : fbi.Known) :
    fbi.size.toNat =
      fbi.height.toNat * fbi.width.toNat *
        fbi.pixelPerBytes := by
  have hBytes := hKnown.pixelPerBytes_le
  have hArea := hSupported.area_lt
  have hImage :
      fbi.width.toNat * fbi.height.toNat *
          fbi.pixelPerBytes < UInt32.size :=
    Nat.lt_of_le_of_lt (Nat.mul_le_mul_left _ hBytes.2) hArea
  have hPixels :
      (fbi.width * fbi.height).toNat =
        fbi.width.toNat * fbi.height.toNat := by
    apply toNat_mul_of_lt
    omega
  rw [hKnown.size_eq, toNat_mul_of_lt, hPixels,
    Nat.mul_comm fbi.height.toNat]
  · rfl
  · rw [hPixels]
    exact hImage

theorem Supported.size_lt
    (hSupported : fbi.Supported)
    (hKnown : fbi.Known) :
    fbi.height.toNat * fbi.width.toNat *
      fbi.pixelPerBytes < UInt32.size := by
  rw [← hSupported.toNat_size hKnown]
  exact fbi.size.toNat_lt_size

theorem Supported.toNat_area
    (hSupported : fbi.Supported) :
    (fbi.width * fbi.height).toNat =
      fbi.width.toNat * fbi.height.toNat := by
  have hArea := hSupported.area_lt
  apply toNat_mul_of_lt
  omega

/- There is a pixel. -/
theorem Supported.side_pos
    (hSupported : fbi.Supported)
    (hKnown : fbi.Known) :
    0 < fbi.width.toNat ∧ 0 < fbi.height.toNat := by
  have hSize := hSupported.size_le
  rw [hSupported.toNat_size hKnown] at hSize
  constructor
  · by_contra hZero
    have hNone : fbi.width.toNat = 0 := by omega
    rw [hNone] at hSize
    omega
  · by_contra hZero
    have hNone : fbi.height.toNat = 0 := by omega
    rw [hNone] at hSize
    omega

/- A frame that is sent has the three bytes that are taken. -/
theorem Supported.three_le
    (hSupported : fbi.Supported)
    (hKnown : fbi.Known)
    (hSent : ¬fbi.Unsent) :
    3 ≤ fbi.pixelPerBytes := by
  rw [pixelPerBytes]
  rcases hKnown.bpp_eq with hBpp | hBpp | hBpp
  · rw [hBpp]
    decide
  · rw [hBpp]
    decide
  · exfalso
    apply hSent
    refine ⟨?_, ?_⟩
    · intro hLarge
      exact hSupported.bpp_ne hLarge hBpp
    · rw [hBpp]
      decide

end FbInfo

end FzEvent

------------------------------------------------------------
-- The Target
------------------------------------------------------------

namespace FzEvent

open Words

/-
  The loop ends before a side becomes 0: a target that is not
  small enough has at least ten rows, and its width is at most
  two less than the ratio demands.
-/
theorem resizeTarget_pos
    (scale : UInt32 → UInt32)
    {W H : Nat}
    (hW : W ≤ 65535)
    (hLow : ∀ i : UInt32, i.toNat < H →
      i.toNat * W < ((scale i).toNat + 2) * H)
    (hHigh : ∀ i : UInt32, i.toNat < H →
      (scale i).toNat * H ≤ i.toNat * W + H)
    (hLe : ∀ i : UInt32, i.toNat < H → (scale i).toNat ≤ W)
    {resizeW : UInt32}
    {h : Nat}
    (hHeight : H ≤ 65535)
    (hRows : h ≤ H)
    (hPos : 0 < h)
    (hWidthPos : 0 < resizeW.toNat)
    (hWidth : resizeW.toNat ≤ W)
    (hRatio : resizeW.toNat * H ≤ h * W + H)
    (hArea : W * H < 2147483648) :
    0 < (resizeTarget scale resizeW h).1.toNat ∧
      0 < (resizeTarget scale resizeW h).2.toNat := by
  have hWord : UInt32.size = 4294967296 := rfl
  induction h generalizing resizeW with
  | zero => omega
  | succ h ih =>
      have hNat : (UInt32.ofNat (h + 1)).toNat = h + 1 :=
        UInt32.toNat_ofNat_of_lt' (by omega)
      have hNext : (UInt32.ofNat h).toNat = h :=
        UInt32.toNat_ofNat_of_lt' (by omega)
      rw [resizeTarget]
      split
      · rename_i hLarge
        have hBound :
            resizeW.toNat * (h + 1) ≤ W * H :=
          Nat.mul_le_mul hWidth hRows
        have hProduct :
            (resizeW * .ofNat (h + 1)).toNat =
              resizeW.toNat * (h + 1) := by
          rw [toNat_mul_of_lt, hNat]
          rw [hNat]
          omega
        have hOver : 589824 < resizeW.toNat * (h + 1) := by
          rw [Int32.lt_iff_toInt_lt,
            toInt_toInt32_of_lt (by omega), hProduct] at hLarge
          have hThreshold : threshold.toInt = 589824 := rfl
          omega
        have hTen : 10 ≤ h + 1 := by
          by_contra hFew
          have hMost :
              resizeW.toNat * (h + 1) ≤ 65535 * 9 :=
            Nat.mul_le_mul (by omega) (by omega)
          omega
        have hLower := hLow (.ofNat h) (by omega)
        have hUpper := hHigh (.ofNat h) (by omega)
        rw [hNext] at hLower hUpper
        apply ih (by omega) (by omega) _ (hLe _ (by omega))
          hUpper
        by_contra hZero
        have hNone : (scale (.ofNat h)).toNat = 0 := by omega
        rw [hNone, Nat.zero_add] at hLower
        -- Nine rows are narrower than two, so one is narrower
        -- than a quarter, and the area cannot be reached.
        have hNine : 9 * W ≤ h * W :=
          Nat.mul_le_mul_right W (by omega)
        rw [Nat.add_mul, Nat.one_mul] at hRatio
        have hNarrow : resizeW.toNat * H < 4 * H := by omega
        have hFour : resizeW.toNat < 4 :=
          Nat.lt_of_mul_lt_mul_right hNarrow
        have hSmall :
            resizeW.toNat * (h + 1) ≤ 4 * 65535 :=
          Nat.mul_le_mul (by omega) (by omega)
        omega
      · exact ⟨hWidthPos, by rw [hNat]; omega⟩

namespace FbInfo

variable {lib : ImageLib} {fbi : FbInfo}

/- What is known of the sides of what is sent. -/
structure Fitting
    (lib : ImageLib)
    (fbi : FbInfo) : Prop where
  width_le :
    (fbi.target lib).1.toNat ≤ fbi.width.toNat
  height_le :
    (fbi.target lib).2.toNat ≤ fbi.height.toNat
  width_pos : 0 < (fbi.target lib).1.toNat
  height_pos : 0 < (fbi.target lib).2.toNat
  area_le :
    (fbi.target lib).1.toNat * (fbi.target lib).2.toNat ≤
      589824

theorem Supported.scale_le
    (hSupported : fbi.Supported)
    (lib : ImageLib)
    {i : UInt32}
    (hRow : i.toNat < fbi.height.toNat) :
    lib.scale fbi.width fbi.height i ≤ fbi.width :=
  lib.scale_le _ _ i hSupported.width_le hSupported.height_le
    (UInt32.lt_iff_toNat_lt.mpr hRow)

theorem Supported.fitting
    (hSupported : fbi.Supported)
    (hKnown : fbi.Known)
    (lib : ImageLib) :
    fbi.Fitting lib := by
  have hWidth := hSupported.width_le
  have hHeight := hSupported.height_le
  have hArea := hSupported.area_lt
  have hWord : UInt32.size = 4294967296 := rfl
  have hSides := hSupported.side_pos hKnown
  have hThreshold : threshold.toUInt32.toNat = 589824 := rfl
  by_cases hLarge :
      threshold.toUInt32 < fbi.width * fbi.height
  · have hLe := resizeTarget_le
      (fun i hI => hSupported.scale_le lib (i := i) hI)
      (UInt32.le_refl fbi.width)
      (by omega) fbi.height.toNat_lt_size
    have hPos := resizeTarget_pos
      (lib.scale fbi.width fbi.height) hWidth
      (fun i hI => lib.le_scale _ _ i hWidth hHeight
        (UInt32.lt_iff_toNat_lt.mpr hI))
      (fun i hI => lib.scale_mul_le _ _ i hWidth hHeight
        (UInt32.lt_iff_toNat_lt.mpr hI))
      (fun i hI => UInt32.le_iff_toNat_le.mp
        (hSupported.scale_le lib hI))
      hHeight (Nat.le_refl _) hSides.2 hSides.1
      (Nat.le_refl _)
      (by rw [Nat.mul_comm]; exact Nat.le_add_right _ _)
      (by omega)
    rw [hThreshold, Nat.mul_comm] at hLe
    constructor <;> rw [target, if_pos hLarge]
    · exact UInt32.le_iff_toNat_le.mp hLe.1
    · exact hLe.2.1
    · exact hPos.1
    · exact hPos.2
    · exact hLe.2.2
  · have hPixels := hSupported.toNat_area
    rw [UInt32.lt_iff_toNat_lt, hPixels, hThreshold] at hLarge
    have hSame : fbi.target lib = (fbi.width, fbi.height) := by
      rw [target, if_neg]
      rw [UInt32.lt_iff_toNat_lt, hPixels, hThreshold]
      exact hLarge
    constructor <;> rw [hSame]
    · exact hSides.1
    · exact hSides.2
    · exact Nat.not_lt.mp hLarge

/- The words of the size do not overflow. -/
theorem Fitting.toNat_size
    (hFitting : fbi.Fitting lib) :
    ((fbi.target lib).1 * (fbi.target lib).2 *
        outPixelPerBytes).toNat =
      3 * ((fbi.target lib).1.toNat *
        (fbi.target lib).2.toNat) := by
  have hArea := hFitting.area_le
  have hWord : UInt32.size = 4294967296 := rfl
  have hThree : outPixelPerBytes.toNat = 3 := rfl
  have hProduct :
      ((fbi.target lib).1 * (fbi.target lib).2).toNat =
        (fbi.target lib).1.toNat *
          (fbi.target lib).2.toNat := by
    apply toNat_mul_of_lt
    omega
  rw [toNat_mul_of_lt, hProduct, hThree, Nat.mul_comm]
  rw [hProduct, hThree]
  omega

end FbInfo

end FzEvent

------------------------------------------------------------
-- The Picture
------------------------------------------------------------

namespace FzEvent

open Block RowMajor

/- Values are read one by one. -/
theorem length_of_sources
    {raw values : List UInt8}
    {moves : List Move}
    (hSources : sources raw moves = some values) :
    values.length = moves.length := by
  induction moves generalizing values with
  | nil =>
      cases hSources
      rfl
  | cons move moves ih =>
      rw [sources, List.mapM_cons] at hSources
      simp only [Option.bind_eq_bind,
        Option.bind_eq_some_iff] at hSources
      rcases hSources with ⟨value, _, rest, hRest, hEq⟩
      cases hEq
      rw [List.length_cons, List.length_cons, ih hRest]

/- A loop that is exact fills the buffer with the picture. -/
theorem applyMoves_picture
    {scale : UInt32 → UInt32}
    {fbi : FbInfo}
    {resized : Resized}
    (hLoops : LoopsExactly scale fbi resized)
    (hBytes : 3 ≤ fbi.pixelPerBytes)
    {raw dest : List UInt8}
    (hRaw :
      raw.length =
        fbi.height.toNat * fbi.width.toNat *
          fbi.pixelPerBytes)
    (hDest :
      dest.length = 3 * (sampledPixels scale fbi).length) :
    ∃ out,
      applyMoves raw dest resized.moves = some out ∧
        ((sampledPixels scale fbi).mapM
            (fbi.taken raw)).map List.flatten =
          some out ∧
        out.length = dest.length := by
  rcases hLoops with
    ⟨h, w, source, hMoves, hPixels, hSource, _⟩
  have hCount : (sampledPixels scale fbi).length = h * w := by
    rw [hPixels]
    simp
  have hOrder :=
    dest_exactMoves h w fbi.pixelPerBytes source
  have hLength :
      (exactMoves h w fbi.pixelPerBytes source).length =
        h * w * 3 := by
    rw [← List.length_map Move.dest, hOrder,
      List.length_range]
  rw [hCount] at hDest
  rcases applyMoves_exact hBytes hSource hRaw
      (by rw [hDest, Nat.mul_comm]) with ⟨out, hOut⟩
  have hSources :
      sources raw
          (exactMoves h w fbi.pixelPerBytes source) =
        some out := by
    rw [← hOut, applyMoves_whole]
    · rw [hOrder, hLength]
    · omega
  refine ⟨out, by rw [hMoves, hOut], ?_, ?_⟩
  · rw [hPixels, ← hSources, exactMoves_eq,
      sources_pixelsMoves]
  · rw [length_of_sources hSources]
    omega

namespace FbInfo

variable {lib : ImageLib} {fbi : FbInfo}

theorem toNat_toUInt16_of_le
    {side : UInt32}
    (hLe : side.toNat ≤ 65535) :
    side.toUInt16.toNat = side.toNat := by
  rw [UInt32.toNat_toUInt16]
  exact Nat.mod_eq_of_lt (by omega)

/- As many pixels are sent as the target has. -/
theorem Supported.length_sampledPixels
    (hSupported : fbi.Supported)
    (lib : ImageLib) :
    (sampledPixels (lib.scale fbi.width fbi.height)
        fbi).length =
      (fbi.target lib).1.toNat *
        (fbi.target lib).2.toNat := by
  rw [sampledPixels, target]
  split
  · simp [Nat.mul_comm]
  · simp [toNat_toUInt16_of_le hSupported.width_le,
      toNat_toUInt16_of_le hSupported.height_le,
      Nat.mul_comm]

/- The resizing phase of a frame that is sent. -/
theorem Supported.resizing_eq
    (hSupported : fbi.Supported)
    (hKnown : fbi.Known)
    (hSent : ¬fbi.Unsent)
    (lib : ImageLib) :
    resizing (lib.scale fbi.width fbi.height) fbi =
      some ⟨(fbi.target lib).1, (fbi.target lib).2,
        if threshold.toUInt32 < fbi.width * fbi.height then
          resizeMoves fbi (fbi.target lib).1
            (fbi.target lib).2
        else
          convMoves fbi.width.toUInt16 fbi.height.toUInt16
            fbi.bpp (outPixelPerBytes * 8)⟩ := by
  have hFitting := hSupported.fitting hKnown lib
  by_cases hLarge :
      threshold.toUInt32 < fbi.width * fbi.height
  · have hTarget :
        fbi.target lib =
          resizeTarget (lib.scale fbi.width fbi.height)
            fbi.width fbi.height.toNat := by
      rw [target, if_pos hLarge]
    rw [resizing, if_pos hLarge, ← hTarget]
    dsimp only
    rw [if_neg, if_pos hLarge]
    rintro (hZero | hZero)
    · have hPos := hFitting.width_pos
      rw [hZero] at hPos
      exact absurd hPos (by decide)
    · have hPos := hFitting.height_pos
      rw [hZero] at hPos
      exact absurd hPos (by decide)
  · have hBpp : fbi.bpp = 32 := by
      by_contra hOther
      exact hSent ⟨hLarge, hOther⟩
    rw [resizing, if_neg hLarge, if_pos hBpp, target,
      if_neg hLarge, if_neg hLarge]

/- The picture is there and has its size. -/
theorem Supported.exists_picture
    (hSupported : fbi.Supported)
    (hKnown : fbi.Known)
    (hSent : ¬fbi.Unsent)
    {raw dest : List UInt8}
    (hRaw : raw.length = fbi.size.toNat)
    (hDest :
      dest.length =
        3 * ((fbi.target lib).1.toNat *
          (fbi.target lib).2.toNat)) :
    ∃ picture,
      fbi.picture lib raw = some picture ∧
        picture.length = dest.length ∧
        (applyMoves raw dest
            (if threshold.toUInt32 < fbi.width * fbi.height then
              resizeMoves fbi (fbi.target lib).1
                (fbi.target lib).2
            else
              convMoves fbi.width.toUInt16
                fbi.height.toUInt16 fbi.bpp
                (outPixelPerBytes * 8)) =
          some picture) := by
  have hBytes := hSupported.three_le hKnown hSent
  have hLoops := resizing_exact
    (hSupported.resizing_eq hKnown hSent lib)
    (fun h hRow => hSupported.scale_le lib
      (UInt32.lt_iff_toNat_lt.mp hRow))
    (by omega) (hSupported.size_lt hKnown)
  rw [hSupported.toNat_size hKnown] at hRaw
  rw [← hSupported.length_sampledPixels lib] at hDest
  rcases applyMoves_picture hLoops hBytes hRaw hDest with
    ⟨out, hOut, hPicture, hLength⟩
  exact ⟨out, hPicture, hLength, hOut⟩

end FbInfo

end FzEvent

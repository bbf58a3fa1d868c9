import FzEvent.Capture.GetBuffer

/-
  Runs of `surface_getter::get_buffer` against the screen that
  the object stands for.

  Each phase has its lemma: the first one draws on the screen,
  the second one makes the picture of it, and the third one
  compresses the picture. No phase leaves a buffer, so what a
  call returns is the screen.

  Main declarations:
    * `SurfaceGetter.Holds` and `SurfaceGetter.StandsFor`
    * `SurfaceGetter.exists_getBuffer`
    * `FzEvent.getBuffers_refines`
-/

------------------------------------------------------------
-- The Phases
------------------------------------------------------------

namespace FzEvent

open Block RowMajor

namespace SurfaceGetter

/-
  The buffers that are there have the sizes that the geometry
  asks for, and sides that are set are the ones of the target.
-/
structure Buffers
    (lib : ImageLib)
    (fbi : FbInfo)
    (s : SurfaceGetter) : Prop where
  sides :
    (s.resizeW = noSide ∨ s.resizeH = noSide) ∨
      (s.resizeW, s.resizeH) = fbi.target lib
  resizeBuffer :
    ∀ buffer, s.resizeBuffer = some buffer →
      buffer.length =
        3 * ((fbi.target lib).1.toNat *
          (fbi.target lib).2.toNat)
  compressBuffer :
    ∀ buffer, s.compressBuffer = some buffer →
      buffer.length =
        (lib.grown ((fbi.target lib).1 *
          (fbi.target lib).2 * outPixelPerBytes)).toNat

/- The object holds the pixels of the screen. -/
structure Holds
    (lib : ImageLib)
    (screen : Screen)
    (s : SurfaceGetter) : Prop where
  isGetSurfaceInfo : s.isGetSurfaceInfo = false
  fbi_eq : s.fbi = screen.fbi
  rawBuffer_eq : s.rawBuffer = some screen.raw
  length_raw : screen.raw.length = screen.fbi.size.toNat
  buffers : Buffers lib screen.fbi s
  known : screen.fbi.Known
  supported : screen.fbi.Supported

/- An object that has accepted no frame is as it was made. -/
def StandsFor
    (lib : ImageLib)
    (s : SurfaceGetter) : Option Screen → Prop
| none => s = init
| some screen => Holds lib screen s

/- A block that is there, or a new one, has the given size. -/
theorem length_getD_malloc
    {block : Option (List UInt8)}
    {n : Nat}
    (hLength : ∀ b, block = some b → b.length = n)
    (junk : Nat → UInt8) :
    (block.getD (malloc n junk)).length = n := by
  cases block with
  | none => exact length_malloc n junk
  | some b => exact hLength b rfl

/- The raw buffer takes the pixels, and no more of them. -/
theorem readRaw_eq
    {s : SurfaceGetter}
    (hKnown : s.fbi.Known)
    (hSupported : s.fbi.Supported)
    (hRaw :
      ∀ raw, s.rawBuffer = some raw →
        raw.length = s.fbi.size.toNat)
    (shot : Shot)
    (fp : List UInt8) :
    s.readRaw shot fp =
      some { s with
        rawBuffer :=
          some (overlay (fp.take s.fbi.size.toNat)
            (s.rawBuffer.getD (malloc s.fbi.size.toNat
              (shot.junk .rawBuffer)))) } := by
  have hStored :
      getRawBuffer s.fbi.size shot.pieces fp =
        fp.take s.fbi.size.toNat :=
    stored_rawLoop (fits_init hSupported.size_le)
  rw [readRaw, ← hKnown.size_eq, hStored, memcpy_of_le]
  · rfl
  · rw [length_getD_malloc hRaw, List.length_take]
    exact Nat.min_le_left _ _

theorem screencapAccess_eq
    (s : SurfaceGetter)
    (shot : Shot) :
    s.screencapAccess shot =
      match shot.frame? with
      | none => some s
      | some (w, h, format, fp) =>
          if s.isGetSurfaceInfo then
            match getSurfaceInfo w h format with
            | none => some s
            | some fbi =>
                readRaw
                  { s with
                    isGetSurfaceInfo := false, fbi := fbi }
                  shot fp
          else
            readRaw s shot fp := by
  rw [screencapAccess, Shot.frame?]
  cases shot.screencap with
  | none => rfl
  | some fp => rfl

/- The geometry of the first frame is fixed by the shot. -/
theorem fbInfo?_of_frame?
    {shot : Shot}
    {w h : UInt32}
    {format : Int32}
    {fp : List UInt8}
    (hFrame : shot.frame? = some (w, h, format, fp)) :
    shot.fbInfo? = getSurfaceInfo w h format := by
  rw [Shot.fbInfo?, hFrame]
  rfl

/- The first phase draws on the screen. -/
theorem standsFor_screencapAccess
    {lib : ImageLib}
    {s : SurfaceGetter}
    {screen : Option Screen}
    (hStands : StandsFor lib s screen)
    {shot : Shot}
    (hFirst :
      screen = none →
        ∀ fbi, shot.fbInfo? = some fbi → fbi.Supported) :
    ∃ t,
      s.screencapAccess shot = some t ∧
        StandsFor lib t (Screen.next screen shot) := by
  rw [screencapAccess_eq, Screen.next]
  cases hFrame : shot.frame? with
  | none => exact ⟨s, rfl, hStands⟩
  | some frame =>
      rcases frame with ⟨w, h, format, fp⟩
      dsimp only
      cases screen with
      | none =>
          subst hStands
          cases hInfo : getSurfaceInfo w h format with
          | none => exact ⟨init, rfl, rfl⟩
          | some fbi =>
              have hGeometry : shot.fbInfo? = some fbi := by
                rw [fbInfo?_of_frame? hFrame, hInfo]
              have hSupported := hFirst rfl fbi hGeometry
              have hKnown := FbInfo.known_of_getSurfaceInfo hInfo
              refine ⟨_, readRaw_eq hKnown hSupported
                (by simp [init]) shot fp, ?_⟩
              constructor
              · rfl
              · rfl
              · rfl
              · simp only [Screen.draw, Screen.blank]
                rw [length_overlay, length_malloc]
                rw [length_malloc, List.length_take]
                exact Nat.min_le_left _ _
              · constructor
                · exact Or.inl (Or.inl rfl)
                · simp [init]
                · simp [init]
              · exact hKnown
              · exact hSupported
      | some screen =>
          rcases hStands with
            ⟨hInfo, hFbi, hRaw, hLength, hBuffers, hKnown,
              hSupported⟩
          rw [if_neg (by rw [hInfo]; decide)]
          rw [← hFbi] at hLength hKnown hSupported
          refine ⟨_, readRaw_eq hKnown hSupported ?_ shot fp, ?_⟩
          · intro raw hSome
            rw [hRaw] at hSome
            cases hSome
            exact hLength
          · rw [hFbi] at hLength hKnown hSupported
            constructor
            · exact hInfo
            · exact hFbi
            · simp only [Screen.draw, hRaw, hFbi]
              rfl
            · simp only [Screen.draw]
              rw [length_overlay, hLength]
              rw [hLength, List.length_take]
              exact Nat.min_le_left _ _
            · exact ⟨hBuffers.sides, hBuffers.resizeBuffer,
                hBuffers.compressBuffer⟩
            · exact hKnown
            · exact hSupported

variable {lib : ImageLib} {screen : Screen}
variable {s : SurfaceGetter}

/- A frame that is not sent ends the call. -/
theorem resizingPhase_of_unsent
    (hUnsent : s.fbi.Unsent)
    (shot : Shot) :
    s.resizingPhase lib shot = some none := by
  rw [resizingPhase, if_neg hUnsent.1, if_neg hUnsent.2]

/- Any other is scaled, or converted, into the buffer. -/
theorem Holds.resizingPhase_eq
    (hHolds : Holds lib screen s)
    (hSent : ¬screen.fbi.Unsent)
    (shot : Shot) :
    ∃ picture,
      screen.fbi.picture lib screen.raw = some picture ∧
        picture.length =
          3 * ((screen.fbi.target lib).1.toNat *
            (screen.fbi.target lib).2.toNat) ∧
        s.resizingPhase lib shot =
          some (some { s with
            resizeBuffer := some picture
            resizeW := (screen.fbi.target lib).1
            resizeH := (screen.fbi.target lib).2 }) := by
  have hFitting :=
    hHolds.supported.fitting hHolds.known lib
  have hSize := hFitting.toNat_size
  have hDest := length_getD_malloc
    hHolds.buffers.resizeBuffer (shot.junk .resizeBuffer)
  rcases hHolds.supported.exists_picture hHolds.known hSent
      hHolds.length_raw hDest with
    ⟨picture, hPicture, hLength, hMoves⟩
  refine ⟨picture, hPicture, hLength.trans hDest, ?_⟩
  rw [resizingPhase, hHolds.fbi_eq, hHolds.rawBuffer_eq]
  by_cases hLarge :
      threshold.toUInt32 <
        screen.fbi.width * screen.fbi.height
  · rw [if_pos hLarge] at hMoves
    have hTarget :
        (if s.resizeW = noSide ∨ s.resizeH = noSide then
          resizeTarget
            (lib.scale screen.fbi.width screen.fbi.height)
            screen.fbi.width screen.fbi.height.toNat
        else
          (s.resizeW, s.resizeH)) =
          screen.fbi.target lib := by
      split
      · rw [FbInfo.target, if_pos hLarge]
      · rename_i hSet
        exact hHolds.buffers.sides.resolve_left hSet
    rw [if_pos hLarge, hTarget]
    simp only [Option.bind_eq_bind, Option.bind_some]
    rw [if_neg, hSize, resizeRawImage, hMoves]
    · rfl
    · rintro (hZero | hZero)
      · have hPos := hFitting.width_pos
        rw [hZero] at hPos
        exact absurd hPos (by decide)
      · have hPos := hFitting.height_pos
        rw [hZero] at hPos
        exact absurd hPos (by decide)
  · have hBpp : screen.fbi.bpp = 32 := by
      by_contra hOther
      exact hSent ⟨hLarge, hOther⟩
    have hTarget :
        screen.fbi.target lib =
          (screen.fbi.width, screen.fbi.height) := by
      rw [FbInfo.target, if_neg hLarge]
    rw [if_neg hLarge] at hMoves
    rw [hTarget] at hSize hMoves ⊢
    rw [if_neg hLarge, if_pos hBpp]
    simp only [Option.bind_eq_bind, Option.bind_some]
      at hSize hMoves ⊢
    rw [hSize, convImageBpp, hMoves]
    rfl

/- What was scaled is compressed into the buffer. -/
theorem compressPhase_eq
    {size : UInt32}
    {picture : List UInt8}
    (hBuffer : s.resizeBuffer = some picture)
    (hSides : s.resizeW * s.resizeH * outPixelPerBytes = size)
    (hLength : picture.length = size.toNat)
    (hRoom :
      ∀ buffer, s.compressBuffer = some buffer →
        buffer.length = (lib.grown size).toNat)
    (shot : Shot) :
    ∃ buffer,
      buffer.length = (lib.grown size).toNat ∧
        buffer.take
            (lib.compress2 (lib.grown size)
              picture).written.length =
          (lib.compress2 (lib.grown size) picture).written ∧
        s.compressPhase lib shot =
          some ({ s with compressBuffer := some buffer },
            (lib.compress2 (lib.grown size)
              picture).destLen) := by
  have hNew := length_getD_malloc hRoom
    (shot.junk .compressBuffer)
  have hFits :
      (lib.compress2 (lib.grown size)
          picture).written.length ≤
        (s.compressBuffer.getD (malloc (lib.grown size).toNat
          (shot.junk .compressBuffer))).length := by
    rw [hNew]
    exact lib.written_le _ _
  refine ⟨_, (length_overlay hFits).trans hNew,
    take_overlay _ _, ?_⟩
  have hTake : picture.take size.toNat = picture := by
    rw [← hLength, List.take_length]
  rw [compressPhase, hBuffer, hSides]
  simp only [Option.bind_eq_bind, Option.bind_some]
  rw [if_pos (Nat.le_of_eq hLength.symm), hTake,
    memcpy_of_le hFits]
  rfl

end SurfaceGetter

end FzEvent

------------------------------------------------------------
-- Whole Runs
------------------------------------------------------------

namespace FzEvent

open Block RowMajor

namespace SurfaceGetter

variable {lib : ImageLib} {screen : Option Screen}
variable {s : SurfaceGetter}

/- With the pixels drawn, the call shows the screen. -/
theorem Holds.exists_getBuffer
    {screen : Screen}
    {t : SurfaceGetter}
    {shot : Shot}
    (hAccess : s.screencapAccess shot = some t)
    (hHolds : Holds lib screen t) :
    ∃ u outcome,
      s.getBuffer lib shot = some (u, outcome) ∧
        Holds lib screen u ∧
        Shows lib (some screen) outcome := by
  by_cases hUnsent : screen.fbi.Unsent
  · have hPhase : t.resizingPhase lib shot = some none := by
      apply resizingPhase_of_unsent
      rw [hHolds.fbi_eq]
      exact hUnsent
    refine ⟨t, .failure, ?_, hHolds, Or.inl ⟨hUnsent, rfl⟩⟩
    simp [getBuffer, hAccess, hPhase]
  · have hFitting :=
      hHolds.supported.fitting hHolds.known lib
    rcases hHolds.resizingPhase_eq hUnsent shot with
      ⟨picture, hPicture, hLength, hPhase⟩
    let resized : SurfaceGetter :=
      { t with
        resizeBuffer := some picture
        resizeW := (screen.fbi.target lib).1
        resizeH := (screen.fbi.target lib).2 }
    have hWord :
        UInt32.ofNat picture.length =
          (screen.fbi.target lib).1 *
            (screen.fbi.target lib).2 * outPixelPerBytes := by
      rw [hLength, ← hFitting.toNat_size, UInt32.ofNat_toNat]
    have hSize :
        picture.length =
          (UInt32.ofNat picture.length).toNat := by
      rw [hWord, hLength, hFitting.toNat_size]
    rcases compressPhase_eq (s := resized) rfl
        hWord.symm hSize
        (by rw [hWord]; exact hHolds.buffers.compressBuffer)
        shot with
      ⟨buffer, hBuffer, hWritten, hCompress⟩
    have hDest :=
      UInt32.le_iff_toNat_le.mp
        (lib.destLen_le (lib.grown (.ofNat picture.length))
          picture)
    refine ⟨{ resized with compressBuffer := some buffer },
      .success
        (buffer.take (lib.compress2 (lib.grown
          (.ofNat picture.length)) picture).destLen.toNat)
        (lib.compress2 (lib.grown (.ofNat picture.length))
          picture).destLen
        (screen.fbi.target lib).1.toUInt16
        (screen.fbi.target lib).2.toUInt16, ?_, ?_, ?_⟩
    · simp only [getBuffer, hAccess, hPhase,
        Option.bind_eq_bind, Option.bind_some]
      rw [hCompress]
      simp only [Option.bind_some]
      rw [if_pos (by rw [hBuffer]; exact hDest)]
      rfl
    · constructor
      · exact hHolds.isGetSurfaceInfo
      · exact hHolds.fbi_eq
      · exact hHolds.rawBuffer_eq
      · exact hHolds.length_raw
      · constructor
        · exact Or.inr rfl
        · intro b hSome
          cases hSome
          exact hLength
        · intro b hSome
          cases hSome
          rw [hBuffer, hWord]
      · exact hHolds.known
      · exact hHolds.supported
    · refine Or.inr ⟨hUnsent, picture, _, _, hPicture, rfl,
        ?_, ?_, hLength, hFitting.area_le⟩
      · rw [List.length_take, hBuffer]
        exact Nat.min_eq_left hDest
      · intro hOk
        rw [← lib.length_written _ _ hOk, hWritten]
        exact lib.uncompress_written _ _ hOk

/- One call. -/
theorem exists_getBuffer
    (hStands : StandsFor lib s screen)
    {shot : Shot}
    (hFirst :
      screen = none →
        ∀ fbi, shot.fbInfo? = some fbi → fbi.Supported) :
    ∃ t outcome,
      s.getBuffer lib shot = some (t, outcome) ∧
        StandsFor lib t (Screen.next screen shot) ∧
        Shows lib (Screen.next screen shot) outcome := by
  rcases standsFor_screencapAccess hStands hFirst with
    ⟨t, hAccess, hNext⟩
  cases hScreen : Screen.next screen shot with
  | none =>
      -- The object is as it was made, and has no geometry.
      rw [hScreen] at hNext
      have hPhase : t.resizingPhase lib shot = some none := by
        rw [hNext]
        apply resizingPhase_of_unsent
        exact ⟨by decide, by decide⟩
      refine ⟨t, .failure, ?_, hNext, rfl⟩
      simp [getBuffer, hAccess, hPhase]
  | some drawn =>
      rw [hScreen] at hNext
      exact Holds.exists_getBuffer hAccess hNext

theorem next_eq_none_iff
    {shot : Shot} :
    Screen.next screen shot = none ↔
      screen = none ∧ shot.fbInfo? = none := by
  cases hFrame : shot.frame? with
  | none =>
      simp [Screen.next, Shot.fbInfo?, hFrame]
  | some frame =>
      rcases frame with ⟨w, h, format, fp⟩
      rw [fbInfo?_of_frame? hFrame]
      cases screen <;> simp [Screen.next, hFrame]

/- Every call of a run shows the screen. -/
theorem exists_getBuffers
    (hStands : StandsFor lib s screen)
    {shots : List Shot}
    (hFirst :
      screen = none →
        ∀ fbi, firstFbInfo? shots = some fbi →
          fbi.Supported) :
    ∃ t outcomes,
      getBuffers lib s shots = some (t, outcomes) ∧
        List.Forall₂ (Shows lib)
          (Screen.history screen shots) outcomes := by
  induction shots generalizing s screen with
  | nil => exact ⟨s, [], rfl, .nil⟩
  | cons shot shots ih =>
      have hShot :
          screen = none →
            ∀ fbi, shot.fbInfo? = some fbi →
              fbi.Supported := by
        intro hOff fbi hGeometry
        apply hFirst hOff fbi
        simp [firstFbInfo?, hGeometry]
      rcases exists_getBuffer hStands hShot with
        ⟨t, outcome, hCall, hNext, hShows⟩
      have hRest :
          Screen.next screen shot = none →
            ∀ fbi, firstFbInfo? shots = some fbi →
              fbi.Supported := by
        intro hOff fbi hGeometry
        rw [next_eq_none_iff] at hOff
        apply hFirst hOff.1 fbi
        rw [← hGeometry]
        simp [firstFbInfo?, hOff.2]
      rcases ih hNext hRest with ⟨u, outcomes, hCalls, hAll⟩
      exact ⟨u, outcome :: outcomes,
        by simp [getBuffers, hCall, hCalls], .cons hShows hAll⟩

end SurfaceGetter

/-
  From the first call on, with any frames, later ones of any
  size and format, no call accesses memory outside a buffer,
  and every call shows the screen: the geometry is that of the
  first known frame, and what a later frame does not draw over
  is still there.
-/
theorem getBuffers_refines
    {lib : ImageLib}
    {shots : List Shot}
    (hFirst :
      ∀ fbi, firstFbInfo? shots = some fbi →
        fbi.Supported) :
    ∃ s outcomes,
      SurfaceGetter.getBuffers lib .init shots =
          some (s, outcomes) ∧
        List.Forall₂ (Shows lib) (Screen.history none shots)
          outcomes := by
  have hStands :
      SurfaceGetter.StandsFor lib .init none := rfl
  exact SurfaceGetter.exists_getBuffers hStands
    (fun _ => hFirst)

/- What zlib makes of 768 bytes that are 7. -/
def deflatedSevens : List UInt8 :=
  [120, 1, 99, 103, 31, 5, 163, 33, 48, 114, 67, 0, 0, 143,
    81, 21, 1]

/- The exact product, cut. -/
theorem toNat_floorScale
    {w h i : UInt32}
    (hRow : i < h) :
    (UInt32.ofNat (i.toNat * w.toNat / h.toNat)).toNat =
        i.toNat * w.toNat / h.toNat ∧
      i.toNat * w.toNat / h.toNat ≤ w.toNat := by
  have hLe : i.toNat * w.toNat / h.toNat ≤ w.toNat := by
    apply Nat.div_le_of_le_mul
    apply Nat.mul_le_mul_right
    exact Nat.le_of_lt (UInt32.lt_iff_toNat_lt.mp hRow)
  refine ⟨UInt32.toNat_ofNat_of_lt' ?_, hLe⟩
  exact Nat.lt_of_le_of_lt hLe w.toNat_lt_size

/- zlib on these bytes; every other text has no room. -/
def sevensLib : ImageLib where
  compress2 room source :=
    if source = List.replicate 768 7 ∧ 17 ≤ room.toNat then
      ⟨true, deflatedSevens, 17⟩
    else
      ⟨false, [], 0⟩
  uncompress p :=
    if p = deflatedSevens then
      some (List.replicate 768 7)
    else
      none
  written_le := by
    intro room source
    split
    · rename_i hRoom
      exact hRoom.2
    · exact Nat.zero_le _
  destLen_le := by
    intro room source
    split
    · rename_i hRoom
      exact UInt32.le_iff_toNat_le.mpr hRoom.2
    · exact UInt32.zero_le
  length_written := by
    intro room source
    split
    · exact fun _ => rfl
    · exact fun hOk => nomatch hOk
  uncompress_written := by
    intro room source
    split
    · rename_i hRoom
      intro _
      rw [if_pos rfl, hRoom.1]
    · exact fun hOk => nomatch hOk
  grown n := n + (n + 12) / 10
  scale w h i := .ofNat (i.toNat * w.toNat / h.toNat)
  scale_le := by
    intro w h i _ _ hRow
    rw [UInt32.le_iff_toNat_le, (toNat_floorScale hRow).1]
    exact (toNat_floorScale hRow).2
  le_scale := by
    intro w h i _ _ hRow
    have hPos := UInt32.lt_iff_toNat_lt.mp hRow
    have hDiv := Nat.lt_div_mul_add (a := i.toNat * w.toNat)
      (b := h.toNat) (by omega)
    rw [(toNat_floorScale hRow).1, Nat.add_mul]
    omega
  scale_mul_le := by
    intro w h i _ _ hRow
    have hDiv := Nat.div_mul_le_self
      (i.toNat * w.toNat) h.toNat
    rw [(toNat_floorScale hRow).1]
    omega

/- A shot of what `screencap` writes, read in one piece. -/
def Shot.of (screencap : Option (List UInt8)) : Shot where
  screencap := screencap
  pieces := fun _ => 1024
  junk := fun _ _ => 0

/-
  No program, an unknown format, 16 times 16 pixels that are
  7, and the header of another geometry with no pixels.
-/
def sevensShots : List Shot :=
  [.of none, .of (some []),
    .of (some ([16, 0, 0, 0, 16, 0, 0, 0, 1, 0, 0, 0] ++
      List.replicate 1024 7)),
    .of (some [32, 0, 0, 0, 8, 0, 0, 0, 1, 0, 0, 0])]

theorem getBuffers_refines_sevensShots :
    ∃ s outcomes,
      SurfaceGetter.getBuffers sevensLib .init sevensShots =
          some (s, outcomes) ∧
        List.Forall₂ (Shows sevensLib)
          (Screen.history none sevensShots) outcomes :=
  getBuffers_refines (by
    intro fbi hFirst
    cases hFirst
    constructor <;> decide)

end FzEvent

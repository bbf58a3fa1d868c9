import Mathlib.Data.List.Infix
import FzEvent.Lib.Words
import FzEvent.Receiver.RecognizeEvent

/-
  When `recognize_event` names a touch event MULTITOUCH,
  SWIPE or TAP.

  The ids of an event are those of its contacts, with -1 at
  each report. The loop compares neighbouring ids, so it
  misses two contacts that never meet between two reports.

  Main declarations:
    * `FzEvent.TwoContacts` and `FzEvent.SharesFrame`
    * `FzEvent.multitouchLoop_iff_sharesFrame`
    * `FzEvent.recognizeEvent_multitouch_iff_iff`
    * `FzEvent.Strays` and `SwipeState.NoOverflow`
    * `SwipeState.ofEntries` and `swipeLoop_iff_strays`
    * `FzEvent.recognizeEvent_of_not_multitouch`
-/

------------------------------------------------------------
-- Contacts and Frames
------------------------------------------------------------

namespace FzEvent

/- Two different ids other than -1 occur. -/
def TwoContacts (ids : List Int32) : Prop :=
  ∃ a ∈ ids, ∃ b ∈ ids, a ≠ -1 ∧ b ≠ -1 ∧ a ≠ b
deriving Decidable

/- At most one id other than -1 occurs. -/
def OneContact (ids : List Int32) : Prop :=
  ∀ a ∈ ids, ∀ b ∈ ids, a ≠ -1 → b ≠ -1 → a = b
deriving Decidable

/-
  Two different ids occur in a stretch of the list without a
  -1, which is a part of the frame between two reports.
-/
def SharesFrame (ids : List Int32) : Prop :=
  ∃ frame, frame <:+: ids ∧ -1 ∉ frame ∧
    ∃ a ∈ frame, ∃ b ∈ frame, a ≠ b

theorem twoContacts_iff_not_oneContact
    (ids : List Int32) :
    TwoContacts ids ↔ ¬ OneContact ids := by
  simp only [TwoContacts, OneContact]
  push Not
  rfl

/- The contacts of a frame are contacts of the event. -/
theorem twoContacts_of_sharesFrame
    {ids : List Int32}
    (hFrame : SharesFrame ids) :
    TwoContacts ids := by
  rcases hFrame with
    ⟨frame, hInfix, hReport, a, hA, b, hB, hNe⟩
  refine ⟨a, hInfix.subset hA, b, hInfix.subset hB, ?_, ?_,
    hNe⟩
  · rintro rfl
    exact hReport hA
  · rintro rfl
    exact hReport hB

/- A frame further back is a frame of the whole list. -/
theorem sharesFrame_cons
    {ids : List Int32}
    (hFrame : SharesFrame ids)
    (id : Int32) :
    SharesFrame (id :: ids) := by
  rcases hFrame with ⟨frame, hInfix, hRest⟩
  exact ⟨frame, List.infix_cons hInfix, hRest⟩

/- A report in front belongs to no frame. -/
theorem sharesFrame_report_cons_iff
    (ids : List Int32) :
    SharesFrame (-1 :: ids) ↔ SharesFrame ids := by
  constructor
  · rintro ⟨frame, hInfix, hReport, a, hA, hRest⟩
    rcases List.infix_cons_iff.mp hInfix with
      hPrefix | hInfix
    · rcases frame with _ | ⟨id, frame⟩
      · cases hA
      · rcases List.cons_prefix_cons.mp hPrefix with ⟨rfl, _⟩
        exact absurd List.mem_cons_self hReport
    · exact ⟨frame, hInfix, hReport, a, hA, hRest⟩
  · intro hFrame
    exact sharesFrame_cons hFrame (-1)

/- Two different neighbours in one frame. -/
theorem sharesFrame_of_neighbours
    {prev id : Int32}
    (hPrev : prev ≠ -1)
    (hId : id ≠ -1)
    (hNe : id ≠ prev)
    (ids : List Int32) :
    SharesFrame (prev :: id :: ids) := by
  refine ⟨[prev, id], ⟨[], ids, rfl⟩, ?_, id, by simp, prev,
    by simp, hNe⟩
  simp [hPrev.symm, hId.symm]

/-
  The loop finds exactly the frames with two contacts: the
  contacts of a frame cannot differ while all neighbours in
  it are the same.
-/
theorem multitouchLoop_iff_sharesFrame
    (ids : List Int32)
    (prev : Int32) :
    multitouchLoop ids prev = true ↔
      SharesFrame (prev :: ids) := by
  induction ids generalizing prev with
  | nil =>
      constructor
      · intro hLoop
        cases hLoop
      · rintro ⟨frame, hInfix, _, a, hA, b, hB, hNe⟩
        have hAPrev := List.mem_singleton.mp (hInfix.subset hA)
        have hBPrev := List.mem_singleton.mp (hInfix.subset hB)
        exact absurd (hAPrev.trans hBPrev.symm) hNe
  | cons id ids ih =>
      simp only [multitouchLoop, Bool.or_eq_true,
        Bool.and_eq_true, bne_iff_ne, ih]
      constructor
      · rintro (⟨⟨hId, hPrev⟩, hNe⟩ | hFrame)
        · exact sharesFrame_of_neighbours hPrev hId hNe ids
        · exact sharesFrame_cons hFrame prev
      · rintro ⟨frame, hInfix, hReport, a, hA, b, hB, hNe⟩
        rcases List.infix_cons_iff.mp hInfix with
          hPrefix | hInfix
        · rcases frame with _ | ⟨first, frame⟩
          · cases hA
          rcases List.cons_prefix_cons.mp hPrefix with
            ⟨rfl, hTail⟩
          rcases frame with _ | ⟨second, frame⟩
          · rw [List.mem_singleton] at hA hB
            exact absurd (hA.trans hB.symm) hNe
          rcases List.cons_prefix_cons.mp hTail with
            ⟨rfl, _⟩
          simp only [List.mem_cons, not_or] at hReport
          by_cases hSame : second = first
          · subst hSame
            right
            refine ⟨second :: frame, hTail.isInfix, ?_, a,
              by simpa using hA, b, by simpa using hB, hNe⟩
            simp [hReport.2]
          · left
            exact ⟨⟨Ne.symm hReport.2.1, Ne.symm hReport.1⟩,
              hSame⟩
        · right
          exact ⟨frame, hInfix, hReport, a, hA, b, hB, hNe⟩

end FzEvent

------------------------------------------------------------
-- Multitouch
------------------------------------------------------------

namespace FzEvent

theorem recognizeEvent_eq_multitouch_iff
    {e : DevicePacketEvent}
    (hType : e.type = evAbs) :
    recognizeEvent e = .multitouch ↔
      SharesFrame (e.entries.map Entry.id) := by
  rw [← sharesFrame_report_cons_iff,
    ← multitouchLoop_iff_sharesFrame]
  simp only [recognizeEvent, hType, if_true]
  split
  · next hLoop => simp [hLoop]
  · next hLoop =>
    simp only [hLoop]
    split <;> simp

/-
  An event is named MULTITOUCH exactly when it has two
  contacts, if it has one only or if two of them share a
  frame, and not otherwise.
-/
theorem recognizeEvent_multitouch_iff_iff
    {e : DevicePacketEvent}
    (hType : e.type = evAbs) :
    (recognizeEvent e = .multitouch ↔
        TwoContacts (e.entries.map Entry.id)) ↔
      OneContact (e.entries.map Entry.id) ∨
        SharesFrame (e.entries.map Entry.id) := by
  rw [recognizeEvent_eq_multitouch_iff hType]
  constructor
  · intro hIff
    by_cases hOne : OneContact (e.entries.map Entry.id)
    · exact Or.inl hOne
    · right
      apply hIff.mpr
      exact (twoContacts_iff_not_oneContact _).mpr hOne
  · rintro (hOne | hFrame)
    · constructor
      · exact twoContacts_of_sharesFrame
      · intro hTwo
        exact absurd hOne
          ((twoContacts_iff_not_oneContact _).mp hTwo)
    · exact ⟨fun _ => twoContacts_of_sharesFrame hFrame,
        fun _ => hFrame⟩

/- Two fingers move in one frame. -/
def pinchEvent : DevicePacketEvent :=
  ⟨evAbs, 1,
    [⟨⟨1, 0⟩, 5, absMtPositionX, 10⟩,
      ⟨⟨1, 0⟩, 6, absMtPositionX, 90⟩,
      ⟨⟨1, 0⟩, -1, synReport, 0⟩]⟩

theorem recognizeEvent_multitouch_iff_iff_pinch :
    (recognizeEvent pinchEvent = .multitouch ↔
        TwoContacts (pinchEvent.entries.map Entry.id)) ↔
      OneContact (pinchEvent.entries.map Entry.id) ∨
        SharesFrame (pinchEvent.entries.map Entry.id) :=
  recognizeEvent_multitouch_iff_iff rfl

/-
  Two fingers that go down and lift in frames of their own:
  the event has the contacts 5 and 6 and is named TAP.
-/
theorem recognizeEvent_ne_multitouch_twoFrames :
    ¬ ∀ e : DevicePacketEvent, e.type = evAbs →
      (recognizeEvent e = .multitouch ↔
        TwoContacts (e.entries.map Entry.id)) := by
  intro hAll
  have hTwo :=
    (hAll
      ⟨evAbs, 1,
        [⟨⟨1, 0⟩, 5, absMtTrackingId, 5⟩,
          ⟨⟨1, 0⟩, -1, synReport, 0⟩,
          ⟨⟨2, 0⟩, 6, absMtTrackingId, 6⟩,
          ⟨⟨2, 0⟩, -1, synReport, 0⟩,
          ⟨⟨3, 0⟩, 5, absMtTrackingId, 0xffffffff⟩,
          ⟨⟨3, 0⟩, -1, synReport, 0⟩,
          ⟨⟨4, 0⟩, 6, absMtTrackingId, 0xffffffff⟩,
          ⟨⟨4, 0⟩, -1, synReport, 0⟩]⟩ rfl).mpr
      (by decide)
  exact absurd hTwo (by decide)

end FzEvent

------------------------------------------------------------
-- Coordinates
------------------------------------------------------------

namespace FzEvent

/- The values of the event under a code, in their order. -/
def valuesOf
    (code : UInt16)
    (entries : List Entry) : List Int32 :=
  (entries.filter fun entry => entry.code = code).map
    fun entry => entry.value.toInt32

/- Some value is more than 50 away from the first one. -/
def Strays (values : List Int32) : Prop :=
  ∃ first, values.head? = some first ∧
    ∃ value ∈ values,
      50 < (first.toInt - value.toInt).natAbs

/- All coordinates are at least 0. -/
def HasCoordinates (entries : List Entry) : Prop :=
  ∀ entry ∈ entries,
    entry.code = absMtPositionX ∨
        entry.code = absMtPositionY →
      entry.value.toNat < 2 ^ 31
deriving Decidable

theorem valuesOf_append
    (code : UInt16)
    (entries others : List Entry) :
    valuesOf code (entries ++ others) =
      valuesOf code entries ++ valuesOf code others := by
  simp [valuesOf]

theorem valuesOf_singleton
    (code : UInt16)
    (entry : Entry) :
    valuesOf code [entry] =
      if entry.code = code then [entry.value.toInt32]
      else [] := by
  by_cases hCode : entry.code = code <;> simp [valuesOf, hCode]

/- An unsigned word below 2^31 is the same number signed. -/
theorem toInt_toInt32
    {value : UInt32}
    (hLt : value.toNat < 2 ^ 31) :
    value.toInt32.toInt = value.toNat := by
  have hMsb : 2 * value.toBitVec.toNat < 2 ^ 32 := by
    have hNat : value.toBitVec.toNat = value.toNat := rfl
    omega
  exact BitVec.toInt_eq_toNat_of_lt hMsb

theorem nonneg_of_mem_valuesOf
    {entries : List Entry}
    (hCoordinates : HasCoordinates entries)
    {code : UInt16}
    (hCode : code = absMtPositionX ∨ code = absMtPositionY)
    {value : Int32}
    (hMem : value ∈ valuesOf code entries) :
    0 ≤ value.toInt := by
  simp only [valuesOf, List.mem_map, List.mem_filter,
    decide_eq_true_eq] at hMem
  rcases hMem with ⟨entry, ⟨hEntry, rfl⟩, rfl⟩
  rw [toInt_toInt32 (hCoordinates entry hEntry hCode)]
  omega

/- A coordinate is never the -1 of "not seen yet". -/
theorem ne_neg_one_of_nonneg
    {value : Int32}
    (hNonneg : 0 ≤ value.toInt) :
    value ≠ -1 := by
  rintro rfl
  exact absurd hNonneg (by decide)

theorem toInt_sub_of_nonneg
    {a b : Int32}
    (hA : 0 ≤ a.toInt)
    (hB : 0 ≤ b.toInt) :
    (a - b).toInt = a.toInt - b.toInt := by
  have hALt := a.toInt_lt
  have hBLt := b.toInt_lt
  apply Words.toInt_sub_of_bounds <;> omega

/- `abs` of such a difference is defined as well. -/
theorem toInt_abs_sub_of_nonneg
    {a b : Int32}
    (hA : 0 ≤ a.toInt)
    (hB : 0 ≤ b.toInt) :
    (a - b).abs.toInt = (a.toInt - b.toInt).natAbs := by
  have hALt := a.toInt_lt
  have hBLt := b.toInt_lt
  have hSub := toInt_sub_of_nonneg hA hB
  have hMin : (a - b).toBitVec ≠ BitVec.intMin 32 := by
    intro hEq
    have hMinus : (a - b).toInt = -2 ^ 31 := by
      rw [Int32.toInt, hEq]
      decide
    omega
  have hAbs :
      (a - b).abs.toInt = (a - b).toBitVec.abs.toInt := rfl
  rw [hAbs, BitVec.toInt_abs_eq_natAbs_of_ne_intMin hMin,
    ← hSub]
  rfl

end FzEvent

------------------------------------------------------------
-- The Swipe Loop
------------------------------------------------------------

namespace FzEvent

namespace SwipeState

/- The variables after each round of the loop. -/
def states : List Entry → SwipeState → List SwipeState
| [], _ => []
| entry :: entries, s =>
    s.next entry :: states entries (s.next entry)

/-
  No subtraction and no `abs` of the round leaves the range
  of an `int`.
-/
def NoOverflow (s : SwipeState) : Prop :=
  (s.firstX - s.x).toInt = s.firstX.toInt - s.x.toInt ∧
    (s.firstX - s.x).abs.toInt =
      (s.firstX.toInt - s.x.toInt).natAbs ∧
    (s.firstY - s.y).toInt = s.firstY.toInt - s.y.toInt ∧
    (s.firstY - s.y).abs.toInt =
      (s.firstY.toInt - s.y.toInt).natAbs

/- The first and the last coordinates that have been seen. -/
def ofEntries (entries : List Entry) : SwipeState where
  firstX := (valuesOf absMtPositionX entries).head?.getD (-1)
  firstY := (valuesOf absMtPositionY entries).head?.getD (-1)
  x := (valuesOf absMtPositionX entries).getLast?.getD (-1)
  y := (valuesOf absMtPositionY entries).getLast?.getD (-1)

theorem swipeLoop_eq_any
    (entries : List Entry)
    (s : SwipeState) :
    swipeLoop entries s = (states entries s).any exceeds := by
  induction entries generalizing s with
  | nil => rfl
  | cons entry entries ih =>
      rw [swipeLoop, states, List.any_cons, ih]

end SwipeState

/- The last value after one more entry. -/
theorem getLast?_valuesOf_append
    (code : UInt16)
    (entries : List Entry)
    (entry : Entry) :
    (valuesOf code (entries ++ [entry])).getLast?.getD (-1) =
      if entry.code = code then entry.value.toInt32
      else (valuesOf code entries).getLast?.getD (-1) := by
  rw [valuesOf_append, valuesOf_singleton]
  by_cases hCode : entry.code = code <;> simp [hCode]

/-
  The first value after one more entry: -1 gives way, and any
  other value stays.
-/
theorem head?_valuesOf_append
    {code : UInt16}
    {entries : List Entry}
    (hNonneg : ∀ value ∈ valuesOf code entries, 0 ≤ value.toInt)
    (entry : Entry) :
    (valuesOf code (entries ++ [entry])).head?.getD (-1) =
      if (valuesOf code entries).head?.getD (-1) = -1 then
        if entry.code = code then entry.value.toInt32
        else (valuesOf code entries).getLast?.getD (-1)
      else
        (valuesOf code entries).head?.getD (-1) := by
  rw [valuesOf_append, valuesOf_singleton]
  cases hValues : valuesOf code entries with
  | nil =>
      by_cases hCode : entry.code = code <;> simp [hCode]
  | cons first values =>
      rw [hValues] at hNonneg
      have hFirst : first ≠ -1 :=
        ne_neg_one_of_nonneg (hNonneg first List.mem_cons_self)
      simp [hFirst]

namespace SwipeState

/- One round sees one more entry. -/
theorem next_ofEntries
    {entries : List Entry}
    (hCoordinates : HasCoordinates entries)
    (entry : Entry) :
    (ofEntries entries).next entry =
      ofEntries (entries ++ [entry]) := by
  have hX :
      ∀ value ∈ valuesOf absMtPositionX entries,
        0 ≤ value.toInt :=
    fun _ => nonneg_of_mem_valuesOf hCoordinates (Or.inl rfl)
  have hY :
      ∀ value ∈ valuesOf absMtPositionY entries,
        0 ≤ value.toInt :=
    fun _ => nonneg_of_mem_valuesOf hCoordinates (Or.inr rfl)
  simp only [next, ofEntries, getLast?_valuesOf_append,
    head?_valuesOf_append hX, head?_valuesOf_append hY]
  rfl

/- Every round sees a longer part of the entries. -/
theorem mem_states_ofEntries_iff
    {before entries : List Entry}
    (hCoordinates : HasCoordinates (before ++ entries))
    (t : SwipeState) :
    t ∈ states entries (ofEntries before) ↔
      ∃ seen rest, entries = seen ++ rest ∧ seen ≠ [] ∧
        t = ofEntries (before ++ seen) := by
  induction entries generalizing before with
  | nil => simp [states]
  | cons entry entries ih =>
      have hBefore : HasCoordinates before :=
        fun other hMem =>
          hCoordinates other (List.mem_append_left _ hMem)
      have hNext :
          HasCoordinates ((before ++ [entry]) ++ entries) := by
        rwa [List.append_assoc, List.singleton_append]
      rw [states, List.mem_cons, next_ofEntries hBefore,
        ih hNext]
      constructor
      · rintro (rfl | ⟨seen, rest, rfl, hSeen, rfl⟩)
        · exact ⟨[entry], entries, rfl, by simp, rfl⟩
        · exact ⟨entry :: seen, rest, rfl, by simp,
            by simp [List.append_assoc]⟩
      · rintro ⟨seen, rest, hSplit, hSeen, rfl⟩
        rcases seen with _ | ⟨first, seen⟩
        · exact absurd rfl hSeen
        rw [List.cons_append, List.cons.injEq] at hSplit
        rcases hSplit with ⟨rfl, rfl⟩
        by_cases hLast : seen = []
        · left
          rw [hLast]
        · right
          exact ⟨seen, rest, rfl, hLast,
            by simp [List.append_assoc]⟩

/- The rounds from the start of the loop on. -/
theorem mem_states_iff_exists_seen
    {entries : List Entry}
    (hCoordinates : HasCoordinates entries)
    (t : SwipeState) :
    t ∈ states entries init ↔
      ∃ seen rest, entries = seen ++ rest ∧ seen ≠ [] ∧
        t = ofEntries seen := by
  have hWhole : HasCoordinates ([] ++ entries) := by
    rwa [List.nil_append]
  exact mem_states_ofEntries_iff hWhole t

end SwipeState

end FzEvent

------------------------------------------------------------
-- Swipes and Taps
------------------------------------------------------------

namespace FzEvent

/-
  The first and the last value, or -1 twice: the difference
  is exact, and it is 0 before the first value.
-/
theorem sub_seen
    {values : List Int32}
    (hNonneg : ∀ value ∈ values, 0 ≤ value.toInt) :
    let first := values.head?.getD (-1)
    let last := values.getLast?.getD (-1)
    (first - last).toInt = first.toInt - last.toInt ∧
      (first - last).abs.toInt =
        (first.toInt - last.toInt).natAbs := by
  intro first last
  by_cases hEmpty : values = []
  · subst hEmpty
    decide
  · have hFirst : 0 ≤ first.toInt := by
      apply hNonneg
      simp [first, List.head?_eq_some_head hEmpty]
    have hLast : 0 ≤ last.toInt := by
      apply hNonneg
      simp [last, List.getLast?_eq_some_getLast hEmpty]
    exact ⟨toInt_sub_of_nonneg hFirst hLast,
      toInt_abs_sub_of_nonneg hFirst hLast⟩

namespace SwipeState

theorem noOverflow_ofEntries
    {entries : List Entry}
    (hCoordinates : HasCoordinates entries) :
    (ofEntries entries).NoOverflow := by
  have hX :=
    sub_seen fun value =>
      nonneg_of_mem_valuesOf hCoordinates
        (Or.inl (rfl : absMtPositionX = absMtPositionX))
  have hY :=
    sub_seen fun value =>
      nonneg_of_mem_valuesOf hCoordinates
        (Or.inr (rfl : absMtPositionY = absMtPositionY))
  exact ⟨hX.1, hX.2, hY.1, hY.2⟩

/- The test of a round on whole numbers. -/
theorem exceeds_iff
    {s : SwipeState}
    (hSafe : s.NoOverflow) :
    s.exceeds = true ↔
      50 < (s.firstX.toInt - s.x.toInt).natAbs ∨
        50 < (s.firstY.toInt - s.y.toInt).natAbs := by
  have hVelocity : velocity.toInt = 50 := by decide
  simp only [exceeds, Bool.or_eq_true, decide_eq_true_eq,
    Int32.lt_iff_toInt_lt, hVelocity, hSafe.2.1, hSafe.2.2.2]
  omega

end SwipeState

/-
  Some value strays from the first exactly when at some time
  the value seen last does.
-/
theorem strays_iff_exists_seen
    (code : UInt16)
    (entries : List Entry) :
    Strays (valuesOf code entries) ↔
      ∃ seen rest, entries = seen ++ rest ∧ seen ≠ [] ∧
        50 <
          (((valuesOf code seen).head?.getD (-1)).toInt -
            ((valuesOf code seen).getLast?.getD
              (-1)).toInt).natAbs := by
  constructor
  · rintro ⟨first, hFirst, value, hMem, hFar⟩
    simp only [valuesOf, List.mem_map, List.mem_filter,
      decide_eq_true_eq] at hMem
    rcases hMem with ⟨entry, ⟨hEntry, hCode⟩, rfl⟩
    rcases List.append_of_mem hEntry with
      ⟨before, rest, rfl⟩
    refine ⟨before ++ [entry], rest, by simp, by simp, ?_⟩
    have hHead :
        (valuesOf code (before ++ [entry])).head? =
          some first := by
      rw [List.append_cons, valuesOf_append] at hFirst
      rw [← hFirst, List.head?_append_of_ne_nil]
      simp [valuesOf_append, valuesOf_singleton, hCode]
    rw [hHead, getLast?_valuesOf_append, if_pos hCode]
    exact hFar
  · rintro ⟨seen, rest, rfl, _, hFar⟩
    cases hValues : valuesOf code seen with
    | nil =>
        rw [hValues] at hFar
        exact absurd hFar (by decide)
    | cons first values =>
        refine ⟨first, ?_,
          (first :: values).getLast (by simp), ?_, ?_⟩
        · rw [valuesOf_append, hValues]
          rfl
        · rw [valuesOf_append, hValues]
          exact List.mem_append_left _ (List.getLast_mem _)
        · rw [hValues, List.head?_cons,
            List.getLast?_eq_some_getLast (by simp)] at hFar
          exact hFar

/- The loop finds exactly the events in which a value strays. -/
theorem swipeLoop_iff_strays
    {entries : List Entry}
    (hCoordinates : HasCoordinates entries) :
    swipeLoop entries SwipeState.init = true ↔
      Strays (valuesOf absMtPositionX entries) ∨
        Strays (valuesOf absMtPositionY entries) := by
  have hInit :
      SwipeState.init = SwipeState.ofEntries [] := rfl
  rw [SwipeState.swipeLoop_eq_any, List.any_eq_true, hInit,
    strays_iff_exists_seen, strays_iff_exists_seen]
  have hStates :=
    SwipeState.mem_states_iff_exists_seen hCoordinates
  have hSafe :
      ∀ seen rest, entries = seen ++ rest →
        (SwipeState.ofEntries seen).NoOverflow := by
    intro seen rest hSplit
    apply SwipeState.noOverflow_ofEntries
    intro entry hMem
    apply hCoordinates
    rw [hSplit]
    exact List.mem_append_left _ hMem
  constructor
  · rintro ⟨t, hMem, hExceeds⟩
    rcases (hStates t).mp hMem with
      ⟨seen, rest, hSplit, hSeen, rfl⟩
    rw [SwipeState.exceeds_iff (hSafe seen rest hSplit)]
      at hExceeds
    rcases hExceeds with hFar | hFar
    · exact Or.inl ⟨seen, rest, hSplit, hSeen, hFar⟩
    · exact Or.inr ⟨seen, rest, hSplit, hSeen, hFar⟩
  · rintro (⟨seen, rest, hSplit, hSeen, hFar⟩ |
      ⟨seen, rest, hSplit, hSeen, hFar⟩)
    · refine ⟨SwipeState.ofEntries seen,
        (hStates _).mpr ⟨seen, rest, hSplit, hSeen, rfl⟩, ?_⟩
      rw [SwipeState.exceeds_iff (hSafe seen rest hSplit)]
      exact Or.inl hFar
    · refine ⟨SwipeState.ofEntries seen,
        (hStates _).mpr ⟨seen, rest, hSplit, hSeen, rfl⟩, ?_⟩
      rw [SwipeState.exceeds_iff (hSafe seen rest hSplit)]
      exact Or.inr hFar

/-
  A touch event that is not MULTITOUCH is a SWIPE exactly
  when a coordinate strays more than 50 from the first one,
  and a TAP otherwise. No round of the loop overflows.
-/
theorem recognizeEvent_of_not_multitouch
    {e : DevicePacketEvent}
    (hType : e.type = evAbs)
    (hSingle : recognizeEvent e ≠ .multitouch)
    (hCoordinates : HasCoordinates e.entries) :
    (recognizeEvent e = .swipe ↔
      Strays (valuesOf absMtPositionX e.entries) ∨
        Strays (valuesOf absMtPositionY e.entries)) ∧
    (recognizeEvent e = .tap ↔
      ¬ (Strays (valuesOf absMtPositionX e.entries) ∨
        Strays (valuesOf absMtPositionY e.entries))) ∧
    ∀ s ∈ SwipeState.states e.entries SwipeState.init,
      s.NoOverflow := by
  rw [← swipeLoop_iff_strays hCoordinates]
  have hName :
      recognizeEvent e =
        if swipeLoop e.entries SwipeState.init then .swipe
        else .tap := by
    simp only [recognizeEvent, hType, if_true] at hSingle ⊢
    split at hSingle
    · exact absurd rfl hSingle
    · next hLoop => rw [if_neg hLoop]
  rw [hName]
  refine ⟨by split <;> simp_all, by split <;> simp_all, ?_⟩
  intro s hMem
  rcases (SwipeState.mem_states_iff_exists_seen hCoordinates
      s).mp hMem with ⟨seen, rest, hSplit, _, rfl⟩
  apply SwipeState.noOverflow_ofEntries
  intro entry hEntry
  apply hCoordinates
  rw [hSplit]
  exact List.mem_append_left _ hEntry

/- A finger that moves by 80 after a report. -/
def drag : DevicePacketEvent :=
  ⟨evAbs, 1,
    [⟨⟨1, 0⟩, 5, absMtTrackingId, 5⟩,
      ⟨⟨1, 0⟩, 5, absMtPositionX, 10⟩,
      ⟨⟨1, 0⟩, 5, absMtPositionY, 0⟩,
      ⟨⟨1, 0⟩, -1, synReport, 0⟩,
      ⟨⟨2, 0⟩, 5, absMtPositionX, 90⟩,
      ⟨⟨2, 0⟩, 5, absMtTrackingId, 0xffffffff⟩]⟩

theorem recognizeEvent_of_not_multitouch_drag :
    (recognizeEvent drag = .swipe ↔
      Strays (valuesOf absMtPositionX drag.entries) ∨
        Strays (valuesOf absMtPositionY drag.entries)) ∧
    (recognizeEvent drag = .tap ↔
      ¬ (Strays (valuesOf absMtPositionX drag.entries) ∨
        Strays (valuesOf absMtPositionY drag.entries))) ∧
    ∀ s ∈ SwipeState.states drag.entries SwipeState.init,
      s.NoOverflow :=
  recognizeEvent_of_not_multitouch rfl (by decide) (by decide)

end FzEvent

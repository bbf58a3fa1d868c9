import FzEvent.EndToEnd.Wire
import FzEvent.Recorder.GetEvent

/-
  Whether the packets that the recorder pushes fit into the
  receiver's buffer.

  The receiver passes the length that a packet announces to
  `recv_n` unchecked, and `event_info` has no bound: every
  recorded event adds 18 bytes, until the main loop clears the
  entries behind a push. A completed gesture that waits there
  for the end of the iteration grows with every device that is
  read after it.

  Main declarations:
    * `FzEvent.FitsBuffer` and `FzEvent.Overflows`
    * `CLib.maxEntries` and `FzEvent.HasRoom`
    * `FzEvent.exists_overflow_of_not_hasRoom`
    * `FzEvent.fitsBuffer_of_hasRoom`
-/

------------------------------------------------------------
-- One Packet
------------------------------------------------------------

namespace FzEvent

/-
  Whatever the buffer holds and whatever follows the packet,
  `svc` takes a body length from its header that is at most
  the size of the buffer.
-/
def FitsBuffer
    (lib : CLib)
    (packet : List UInt8) : Prop :=
  ∀ (buf : Buffer lib.bufsiz) (rest : List UInt8),
    ∃ header len buf' stream,
      recvHeader buf (packet ++ rest) =
          .ok (header, len, buf', stream) ∧
        len.toNat ≤ lib.bufsiz

/- The header of an event packet, and what lies behind it. -/
theorem recvHeader_gesturePacket
    {lib : CLib}
    (buf : Buffer lib.bufsiz)
    (tv : Timeval)
    (ei : EventInfo)
    (rest : List UInt8) :
    ∃ header buf',
      recvHeader buf (gesturePacket tv ei ++ rest) =
        .ok (header, eventBodyLen ei, buf',
          encodeEventBody ei ++ rest) := by
  rcases recvHeader_encode buf tv
        (PacketHeader.ofType tv packetTypeEvent).type
        (eventBodyLen ei) (encodeEventBody ei ++ rest) with
    ⟨buf', hHeader⟩
  refine ⟨⟨tv,
    (PacketHeader.ofType tv packetTypeEvent).type⟩, buf', ?_⟩
  rw [← hHeader]
  simp [gesturePacket, makeEventPacket, List.append_assoc]

theorem fitsBuffer_gesturePacket_iff
    (lib : CLib)
    (tv : Timeval)
    (ei : EventInfo) :
    FitsBuffer lib (gesturePacket tv ei) ↔
      (10 + 18 * ei.count) % 2 ^ 32 ≤ lib.bufsiz := by
  rw [← toNat_eventBodyLen_eq_mod]
  constructor
  · intro hFits
    rcases hFits (Buffer.zero lib.bufsiz) [] with
      ⟨header, len, buf', stream, hHeader, hLe⟩
    rcases recvHeader_gesturePacket (Buffer.zero lib.bufsiz) tv ei
          [] with
      ⟨header', buf'', hPacket⟩
    rw [hPacket] at hHeader
    cases hHeader
    exact hLe
  · intro hLe buf rest
    rcases recvHeader_gesturePacket buf tv ei rest with
      ⟨header, buf', hPacket⟩
    exact ⟨header, eventBodyLen ei, buf', _, hPacket, hLe⟩

/- A round on the packet stores bytes behind the buffer. -/
def Overflows
    (lib : CLib)
    (packet : List UInt8) : Prop :=
  ∀ s : SvcState lib,
    packet <+: s.stream → svcRound s = .error .overflow

/-
  A packet that announces more than the buffer holds, and
  keeps the promise, overflows the buffer.
-/
theorem overflows_gesturePacket
    {lib : CLib}
    {ei : EventInfo}
    (hWrap : 26 + 18 * ei.count < 2 ^ 32)
    (hLong : lib.bufsiz < 10 + 18 * ei.count)
    (tv : Timeval) :
    Overflows lib (gesturePacket tv ei) := by
  rintro s ⟨rest, hStream⟩
  rcases recvHeader_gesturePacket s.buf tv ei rest with
    ⟨header, buf', hHeader⟩
  have hLength :
      (encodeEventBody ei ++ rest).length =
        10 + 18 * ei.count + rest.length := by
    rw [List.length_append, length_encodeEventBody]
  have hTooMuch :
      lib.bufsiz <
        min (eventBodyLen ei).toNat
          (encodeEventBody ei ++ rest).length := by
    rw [toNat_eventBodyLen hWrap, hLength]
    omega
  simp only [svcRound, ← hStream, hHeader,
    lib.recvN.call_overflow _ _ _ hTooMuch]

/- How many entries a packet may have for the buffer. -/
def CLib.maxEntries (lib : CLib) : Nat :=
  (lib.bufsiz - 10) / 18

example : CLib.android.maxEntries = 56 := rfl

example : CLib.msvc.maxEntries = 27 := rfl

/- Up to the bound packets fit, and behind it they do not. -/
theorem fitsBuffer_iff_le_maxEntries
    (lib : CLib)
    (tv : Timeval)
    {ei : EventInfo}
    (hWrap : 26 + 18 * ei.count < 2 ^ 32) :
    FitsBuffer lib (gesturePacket tv ei) ↔
      ei.count ≤ lib.maxEntries := by
  have hSize := lib.le_bufsiz
  rw [fitsBuffer_gesturePacket_iff, CLib.maxEntries,
    Nat.mod_eq_of_lt (by omega)]
  omega

end FzEvent

------------------------------------------------------------
-- Whole Runs
------------------------------------------------------------

namespace FzEvent

open Transition

/-
  The condition on a step: a device is read only while the
  entries that have been collected leave room for those that
  the event adds.
-/
def HasRoom
    (lib : CLib)
    (s : RecorderLoop) : LoopStep → Prop
| .read _ event =>
    s.parser.ei.count + s.parser.roomFor event ≤ lib.maxEntries
| .finish => True

instance (lib : CLib) (s : RecorderLoop) (l : LoopStep) :
    Decidable (HasRoom lib s l) :=
  match l with
  | .read _ _ => Nat.decLe _ _
  | .finish => .isTrue trivial

/- Neither the collected nor the pushed entries are too many. -/
structure Bounded
    (max : Nat)
    (s : RecorderLoop) : Prop where
  count_le : s.parser.ei.count ≤ max
  pushed_le : ∀ ei ∈ s.pushed, ei.count ≤ max

/- A round adds what the event takes, and pushes nothing. -/
theorem count_getEventRound
    {s t : RecorderLoop}
    {name : List Char}
    {event : InputEvent}
    (hRound : s.getEventRound name event = some t) :
    t.parser.ei.count =
        s.parser.ei.count + s.parser.roomFor event ∧
      t.pushed = s.pushed := by
  refine ⟨?_, (RecorderLoop.of_getEventRound hRound).2⟩
  cases hParse : Parser.parseEvent event s.parser with
  | none => simp [RecorderLoop.getEventRound, hParse] at hRound
  | some result =>
      rcases result with ⟨ret, parser⟩
      rw [← Parser.count_parseEvent hParse]
      by_cases hRet : ret = .parseEnd
      · subst hRet
        cases hDevId : devIdOf? name with
        | none =>
            simp [RecorderLoop.getEventRound, hParse, hDevId]
              at hRound
        | some devId =>
            rw [RecorderLoop.getEventRound_of_parseEnd hParse
              hDevId] at hRound
            cases hRound
            rfl
      · rw [RecorderLoop.getEventRound_of_ne hParse hRet name]
          at hRound
        cases hRound
        rfl

/- The step lemma. -/
theorem bounded_step
    {lib : CLib}
    {s t : RecorderLoop}
    {l : LoopStep}
    (hBounded : Bounded lib.maxEntries s)
    (hRoom : HasRoom lib s l)
    (hStep : recorderLoop.step s l = some t) :
    Bounded lib.maxEntries t := by
  cases l with
  | read name event =>
      rcases count_getEventRound hStep with ⟨hCount, hPushed⟩
      refine ⟨?_, ?_⟩
      · rw [hCount]
        exact hRoom
      · rw [hPushed]
        exact hBounded.pushed_le
  | finish =>
      rcases RecorderLoop.of_finish hStep with
        ⟨_, hEmpty, hPushed⟩ | ⟨_, rfl⟩
      · refine ⟨?_, ?_⟩
        · rw [EventInfo.count, hEmpty]
          exact Nat.zero_le _
        · rw [hPushed]
          intro ei hMem
          rcases List.mem_append.mp hMem with hOld | hNew
          · exact hBounded.pushed_le ei hOld
          · rw [List.mem_singleton.mp hNew]
            exact hBounded.count_le
      · exact hBounded

/- The run lemma. -/
theorem bounded_of_meets
    {lib : CLib}
    {steps : List LoopStep}
    {s : RecorderLoop}
    (hRun :
      recorderLoop.exec recorderLoop.init steps = some s)
    (hRoom :
      recorderLoop.Meets (HasRoom lib) recorderLoop.init
        steps) :
    Bounded lib.maxEntries s := by
  have hStart : Bounded lib.maxEntries recorderLoop.init :=
    ⟨Nat.zero_le _, fun _ hMem => nomatch hMem⟩
  exact recorderLoop.invariant_of_meets
    (Bounded lib.maxEntries)
    (fun _ _ _ hInv hCond hStep =>
      bounded_step hInv hCond hStep)
    hStart hRoom hRun

/- A gesture that an iteration completes last is pushed. -/
theorem exists_push_of_parseEnd
    {s : RecorderLoop}
    {event : InputEvent}
    {parser : Parser}
    (hParse :
      Parser.parseEvent event s.parser =
        some (.parseEnd, parser))
    {name : List Char}
    {devId : Int32}
    (hDevice : devIdOf? name = some devId)
    (hCount : parser.ei.count ≠ 0) :
    ∃ t ei,
      recorderLoop.exec s [.read name event, .finish] =
          some t ∧
        ei ∈ t.pushed ∧ ei.count = parser.ei.count := by
  have hRound :=
    RecorderLoop.getEventRound_of_parseEnd hParse hDevice
  have hPush : (parser.ei.setDevId devId).count ≠ 0 := hCount
  have hFinish :
      RecorderLoop.finish { s with
        parser := { parser with ei := parser.ei.setDevId devId }
        evt := true
        since := []
        gestures := s.gestures ++
          [s.since ++ RecorderLoop.added s.parser parser] } =
        some _ :=
    RecorderLoop.finish_of_evt rfl hPush
  refine ⟨_, parser.ei.setDevId devId,
    (recorderLoop.exec_cons_eq_some_iff).mpr
      ⟨_, hRound, (recorderLoop.exec_cons_eq_some_iff).mpr
        ⟨_, hFinish, rfl⟩⟩, ?_, rfl⟩
  simp

/- The power key goes down. -/
def powerDown : InputEvent := ⟨⟨1, 0⟩, evKey, 116, 1⟩

/- Whatever has been collected, a key pushes it. -/
theorem exists_push_powerDown
    (s : RecorderLoop) :
    ∃ t ei,
      recorderLoop.exec s
          [.read (eventDevice '0') powerDown, .finish] =
        some t ∧
      ei ∈ t.pushed ∧ ei.count = s.parser.ei.count + 1 := by
  obtain ⟨parser, hParse, hCount⟩ :
      ∃ parser,
        Parser.parseEvent powerDown s.parser =
            some (.parseEnd, parser) ∧
          parser.ei.count = s.parser.ei.count + 1 :=
    ⟨_, rfl,
      EventInfo.count_add_of_ne (s.parser.ei.setType evKey) _ _
        _ (by decide)⟩
  have hDevice : devIdOf? (eventDevice '0') = some 0 := by
    decide
  rcases exists_push_of_parseEnd hParse hDevice (by omega) with
    ⟨t, ei, hRun, hMem, hSame⟩
  exact ⟨t, ei, hRun, hMem, hSame.trans hCount⟩

/-
  An event that is read without room for it leaves more
  entries than the buffer takes, and a key pushes them.
-/
theorem exists_overflow_of_not_hasRoom
    {lib : CLib}
    {s t : RecorderLoop}
    (hBounded : Bounded lib.maxEntries s)
    {l : LoopStep}
    (hNoRoom : ¬ HasRoom lib s l)
    (hStep : recorderLoop.step s l = some t) :
    ∃ more u ei,
      recorderLoop.exec t more = some u ∧ ei ∈ u.pushed ∧
        ∀ tv,
          ¬ FitsBuffer lib (gesturePacket tv ei) ∧
            Overflows lib (gesturePacket tv ei) := by
  cases l with
  | finish => exact absurd trivial hNoRoom
  | read name event =>
      have hCount := (count_getEventRound hStep).1
      have hMost := s.parser.roomFor_le event
      have hStart := hBounded.count_le
      have hSize := lib.le_bufsiz
      have hWord := lib.bufsiz_lt
      simp only [HasRoom, not_le] at hNoRoom
      rcases exists_push_powerDown t with
        ⟨u, ei, hRun, hMem, hPushed⟩
      have hMax : lib.maxEntries = (lib.bufsiz - 10) / 18 := rfl
      have hWrap : 26 + 18 * ei.count < 2 ^ 32 := by omega
      refine ⟨_, u, ei, hRun, hMem, ?_⟩
      intro tv
      rw [fitsBuffer_iff_le_maxEntries lib tv hWrap]
      exact ⟨by omega,
        overflows_gesturePacket hWrap (by omega) tv⟩

/-
  In every run in which each event is read while there is room
  for it, all packets fit. Where an event is the first to find
  no room, the run goes on to a packet that overflows the
  buffer.
-/
theorem fitsBuffer_of_hasRoom
    (lib : CLib)
    (steps : List LoopStep)
    (s : RecorderLoop)
    (hRun :
      recorderLoop.exec recorderLoop.init steps = some s)
    (hRoom :
      recorderLoop.Meets (HasRoom lib) recorderLoop.init
        steps) :
    (∀ ei ∈ s.pushed, ∀ tv,
      FitsBuffer lib (gesturePacket tv ei)) ∧
    ∀ l t,
      ¬ HasRoom lib s l →
        recorderLoop.step s l = some t →
          ∃ more u ei,
            recorderLoop.exec t more = some u ∧
              ei ∈ u.pushed ∧
                ∀ tv,
                  ¬ FitsBuffer lib (gesturePacket tv ei) ∧
                    Overflows lib (gesturePacket tv ei) := by
  have hBounded := bounded_of_meets hRun hRoom
  constructor
  · intro ei hMem tv
    have hCount := hBounded.pushed_le ei hMem
    have hSize := lib.le_bufsiz
    have hWord := lib.bufsiz_lt
    have hMax : lib.maxEntries = (lib.bufsiz - 10) / 18 := rfl
    exact (fitsBuffer_iff_le_maxEntries lib tv
      (by omega)).mpr hCount
  · intro l t hNoRoom hStep
    exact exists_overflow_of_not_hasRoom hBounded hNoRoom hStep

/-
  A contact is lifted, and in the same iteration a key goes
  down on another device: one packet with the entries of both.
-/
def liftAndKey : List LoopStep :=
  [.read (eventDevice '1') (.abs absMtTrackingId 7), .finish,
    .read (eventDevice '1') (.abs absMtTrackingId (-1)),
    .read (eventDevice '0') powerDown, .finish]

/- A contact moves. -/
def move : LoopStep :=
  .read (eventDevice '1') (.abs absMtPositionX 40)

/- A contact whose entries take all the room with MSVC. -/
def crowded : List LoopStep :=
  .read (eventDevice '1') (.abs absMtTrackingId 7) ::
    List.replicate 26 move

theorem fitsBuffer_of_hasRoom_liftAndKey :
    (∃ s,
      recorderLoop.exec recorderLoop.init liftAndKey = some s ∧
        s.pushed.map EventInfo.count = [4] ∧
        ∀ ei ∈ s.pushed, ∀ tv,
          FitsBuffer CLib.msvc (gesturePacket tv ei)) ∧
    ∃ more u ei,
      recorderLoop.exec recorderLoop.init
          (crowded ++ more) = some u ∧
        ei ∈ u.pushed ∧
          ∀ tv, Overflows CLib.msvc (gesturePacket tv ei) := by
  constructor
  · have hPushed :
        (recorderLoop.exec recorderLoop.init liftAndKey).map
          (fun s => s.pushed.map EventInfo.count) =
            some [4] := by
      decide
    rcases Option.map_eq_some_iff.mp hPushed with
      ⟨s, hRun, hCounts⟩
    exact ⟨s, hRun, hCounts,
      (fitsBuffer_of_hasRoom CLib.msvc liftAndKey s hRun
        (by decide)).1⟩
  · have hFull :
        (recorderLoop.exec recorderLoop.init crowded).map
          (fun s =>
            (decide (HasRoom CLib.msvc s move),
              (recorderLoop.step s move).isSome)) =
            some (false, true) := by
      decide +kernel
    rcases Option.map_eq_some_iff.mp hFull with
      ⟨s, hRun, hState⟩
    rw [Prod.mk.injEq, decide_eq_false_iff_not] at hState
    rcases Option.isSome_iff_exists.mp hState.2 with ⟨t, hStep⟩
    rcases (fitsBuffer_of_hasRoom CLib.msvc crowded s hRun
        (by decide +kernel)).2 _ t hState.1 hStep with
      ⟨more, u, ei, hMore, hMem, hLong⟩
    refine ⟨move :: more, u, ei, ?_, hMem, fun tv => (hLong tv).2⟩
    rw [System.exec_append, hRun, Option.bind_some,
      System.exec_cons_eq_some_iff]
    exact ⟨t, hStep, hMore⟩

end FzEvent

------------------------------------------------------------
-- Long Swipes
------------------------------------------------------------

namespace FzEvent

open Transition

/- One contact goes down, moves `n` times and lifts. -/
def swipe (n : Nat) : List LoopStep :=
  .read (eventDevice '1') (.abs absMtTrackingId 7) ::
    (List.replicate n move ++
      [.read (eventDevice '1') (.abs absMtTrackingId (-1)),
        .finish])

/- The recorder while the contact of a swipe is down. -/
structure Swiping
    (n : Nat)
    (s : RecorderLoop) : Prop where
  slotIndex :
    s.parser.eventIdMap.slotIndex? = some ⟨0, by decide⟩
  value :
    (s.parser.eventIdMap.pair ⟨0, by decide⟩).value = 7
  slotCount : s.parser.eventIdMap.slotCount = 1
  count_eq : s.parser.ei.count = n

/- Every move adds one entry. -/
theorem exec_moves
    (n : Nat)
    {m : Nat}
    {s : RecorderLoop}
    (hSwiping : Swiping m s) :
    ∃ t,
      recorderLoop.exec s (List.replicate n move) = some t ∧
        Swiping (m + n) t := by
  induction n generalizing m s with
  | zero => exact ⟨s, rfl, hSwiping⟩
  | succ n ih =>
      have hValue :
          (s.parser.eventIdMap.pair ⟨0, by decide⟩).value ≠
            0xffffffff := by
        rw [hSwiping.value]
        decide
      obtain ⟨parser, hParse, hMap, hCount⟩ :
          ∃ parser,
            Parser.parseEvent (.abs absMtPositionX 40)
                s.parser = some (.parseCon, parser) ∧
              parser.eventIdMap = s.parser.eventIdMap ∧
                parser.ei.count = s.parser.ei.count + 1 := by
        rw [Parser.parseEvent_eq]
        refine ⟨_,
          Parser.parsePosition_of_ne hSwiping.slotIndex hValue,
          rfl, ?_⟩
        exact EventInfo.count_add_of_ne _ _ _ _ (by decide)
      have hRound :=
        RecorderLoop.getEventRound_of_ne hParse (by simp)
          (eventDevice '1')
      have hNext :
          Swiping (m + 1) { s with
            parser := parser
            evt := false
            since :=
              s.since ++
                RecorderLoop.added s.parser parser } := by
        refine ⟨?_, ?_, ?_, ?_⟩
        · simp only [hMap, hSwiping.slotIndex]
        · simp only [hMap, hSwiping.value]
        · simp only [hMap, hSwiping.slotCount]
        · rw [hCount, hSwiping.count_eq]
      rcases ih hNext with ⟨t, hRun, hLast⟩
      refine ⟨t, ?_, by rwa [Nat.add_right_comm] at hLast⟩
      rw [List.replicate_succ, System.exec_cons_eq_some_iff]
      exact ⟨_, hRound, hRun⟩

/- A swipe with `n` moves is a packet of `n + 3` entries. -/
theorem exists_mem_pushed_swipe
    (n : Nat) :
    ∃ s ei,
      recorderLoop.exec recorderLoop.init (swipe n) = some s ∧
        ei ∈ s.pushed ∧ ei.count = n + 3 := by
  obtain ⟨s, hDown, hSwiping⟩ :
      ∃ s,
        recorderLoop.step recorderLoop.init
            (.read (eventDevice '1')
              (.abs absMtTrackingId 7)) = some s ∧
          Swiping 1 s :=
    ⟨_, rfl, rfl, rfl, rfl, rfl⟩
  rcases exec_moves n hSwiping with ⟨t, hMoves, hMoved⟩
  have hZero : t.parser.eventIdMap.slotCount - 1 = 0 := by
    rw [hMoved.slotCount]
    rfl
  obtain ⟨parser, hParse⟩ :
      ∃ parser,
        Parser.parseEvent (.abs absMtTrackingId (-1)) t.parser =
          some (.parseEnd, parser) := by
    rw [Parser.parseEvent_eq]
    exact ⟨_, Parser.parseLift_of_last hMoved.slotIndex hZero⟩
  have hDevice : devIdOf? (eventDevice '1') = some 1 := by
    decide
  have hAdded := Parser.count_parseEvent hParse
  have hRoom :
      t.parser.roomFor (.abs absMtTrackingId (-1)) = 2 :=
    if_pos hZero
  rw [hRoom, hMoved.count_eq] at hAdded
  rcases exists_push_of_parseEnd hParse hDevice (by omega) with
    ⟨u, ei, hUp, hMem, hSame⟩
  refine ⟨u, ei, ?_, hMem, by omega⟩
  rw [swipe, System.exec_cons_eq_some_iff]
  refine ⟨s, hDown, ?_⟩
  rw [System.exec_append, hMoves, Option.bind_some, hUp]

/- A swipe of 54 moves on Android, of 25 moves with MSVC. -/
theorem not_fitsBuffer_swipe :
    (¬ ∀ steps s,
      recorderLoop.exec recorderLoop.init steps = some s →
        ∀ ei ∈ s.pushed, ∀ tv,
          FitsBuffer CLib.android (gesturePacket tv ei)) ∧
    ¬ ∀ steps s,
      recorderLoop.exec recorderLoop.init steps = some s →
        ∀ ei ∈ s.pushed, ∀ tv,
          FitsBuffer CLib.msvc (gesturePacket tv ei) := by
  constructor
  · intro hAll
    rcases exists_mem_pushed_swipe 54 with
      ⟨s, ei, hRun, hMem, hCount⟩
    have hFits := hAll _ s hRun ei hMem ⟨0, 0⟩
    rw [fitsBuffer_gesturePacket_iff, hCount] at hFits
    exact absurd hFits (by decide)
  · intro hAll
    rcases exists_mem_pushed_swipe 25 with
      ⟨s, ei, hRun, hMem, hCount⟩
    have hFits := hAll _ s hRun ei hMem ⟨0, 0⟩
    rw [fitsBuffer_gesturePacket_iff, hCount] at hFits
    exact absurd hFits (by decide)

end FzEvent

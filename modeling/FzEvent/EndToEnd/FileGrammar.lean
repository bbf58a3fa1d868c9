import FzEvent.EndToEnd.ReaderAgreement

/-
  The grammar of event files, and the player's `read_event`
  as its parser: which byte strings it accepts, and what it
  makes of them.

  Main declarations:
    * `FzEvent.GrammarItem` and `FzEvent.IsEventFile`
    * `FzEvent.completeGroups`
    * `FzEvent.exists_items_of_readEventLoop`
    * `FzEvent.readEvent_accepts_grammar`
-/

------------------------------------------------------------
-- The Grammar
------------------------------------------------------------

namespace FzEvent

/- An item in front of the end marker. -/
inductive GrammarItem
| record (r : FileRecord)
| separator
deriving DecidableEq, Repr

namespace GrammarItem

def encode : GrammarItem → List UInt8
| .record r => r.encode
| .separator => FzEvent.separator

/- The first eight bytes of a record are no marker. -/
def IsValid : GrammarItem → Prop
| .record r => ¬ IsMarker r.tv
| .separator => True

def isSeparator : GrammarItem → Bool
| .record _ => false
| .separator => true

end GrammarItem

/- Items, the end marker, and then anything. -/
structure IsEventFile
    (items : List GrammarItem)
    (file : List UInt8) : Prop where
  isValid : ∀ item ∈ items, item.IsValid
  bytes :
    ∃ rest, file =
      items.flatMap GrammarItem.encode ++ (endOfFile ++ rest)

/-
  The records in front of each separator, back to the one
  before it. `group` holds those that are read already.
-/
def groupsFrom
    (group : List FileRecord) :
    List GrammarItem → List (List FileRecord)
| [] => []
| .record r :: items => groupsFrom (group ++ [r]) items
| .separator :: items => group :: groupsFrom [] items

/- The records behind the last separator. -/
def openGroup
    (group : List FileRecord) :
    List GrammarItem → List FileRecord
| [] => group
| .record r :: items => openGroup (group ++ [r]) items
| .separator :: items => openGroup [] items

def completeGroups
    (items : List GrammarItem) : List (List FileRecord) :=
  groupsFrom [] items

/- Every separator completes a group. -/
theorem length_groupsFrom
    (group : List FileRecord)
    (items : List GrammarItem) :
    (groupsFrom group items).length =
      items.countP GrammarItem.isSeparator := by
  induction items generalizing group with
  | nil => rfl
  | cons item items ih =>
      cases item with
      | record r =>
          rw [groupsFrom, ih, List.countP_cons_of_neg]
          simp [GrammarItem.isSeparator]
      | separator =>
          rw [groupsFrom, List.length_cons, ih,
            List.countP_cons_of_pos]
          simp [GrammarItem.isSeparator]

end FzEvent

------------------------------------------------------------
-- One Item
------------------------------------------------------------

namespace FzEvent

theorem eq_of_toUInt32_eq
    {a b : Int32}
    (hEq : a.toUInt32 = b.toUInt32) :
    a = b := by
  rw [← Int32.toInt32_toUInt32 a, hEq,
    Int32.toInt32_toUInt32]

/- The bytes of a separator are those of its time value. -/
theorem encode_of_isSeparator
    {tv : Timeval}
    (hSeparator : IsSeparator tv) :
    timeval.encode tv = separator := by
  have hTv : tv = ⟨tokType.toInt32, tokType.toInt32⟩ := by
    rcases tv with ⟨sec, usec⟩
    rw [Timeval.mk.injEq]
    exact ⟨eq_of_toUInt32_eq hSeparator.1,
      eq_of_toUInt32_eq hSeparator.2⟩
  rw [hTv]
  rfl

theorem encode_of_isEndOfFile
    {tv : Timeval}
    (hEnd : IsEndOfFile tv) :
    timeval.encode tv = endOfFile := by
  have hTv : tv = ⟨tokType.toInt32, endFile2.toInt32⟩ := by
    rcases tv with ⟨sec, usec⟩
    rw [Timeval.mk.injEq]
    exact ⟨eq_of_toUInt32_eq hEnd.1,
      eq_of_toUInt32_eq hEnd.2⟩
  rw [hTv]
  rfl

/- The item stands at the front of the file. -/
def FileItem.StandsAt
    (fp rest : List UInt8) : FileItem → Prop
| .separator => fp = FzEvent.separator ++ rest
| .endOfFile => fp = FzEvent.endOfFile ++ rest
| .record tv id type code value =>
    ¬ IsMarker tv ∧
      fp =
        (FileRecord.mk tv id type code value).encode ++ rest

/- What a round finds is what the file starts with. -/
theorem standsAt_of_readItem
    {fp rest : List UInt8}
    {item : FileItem}
    (hRead : readItem fp = some (item, rest)) :
    item.StandsAt fp rest := by
  simp only [readItem, Option.bind_eq_bind,
    Option.bind_eq_some_iff, Prod.exists,
    ByteCodec.Codec.read_eq_some_iff] at hRead
  rcases hRead with ⟨tv, afterTv, rfl, hRead⟩
  by_cases hSeparator : IsSeparator tv
  · rw [if_pos hSeparator] at hRead
    cases hRead
    exact congrArg (· ++ rest)
      (encode_of_isSeparator hSeparator)
  · by_cases hEnd : IsEndOfFile tv
    · rw [if_neg hSeparator, if_pos hEnd] at hRead
      cases hRead
      exact congrArg (· ++ rest) (encode_of_isEndOfFile hEnd)
    · rw [if_neg hSeparator, if_neg hEnd] at hRead
      simp only [Option.bind_eq_some_iff, Prod.exists,
        ByteCodec.Codec.read_eq_some_iff] at hRead
      rcases hRead with ⟨id, _, rfl, type, _, rfl, code, _,
        rfl, value, _, rfl, hItem⟩
      cases hItem
      refine ⟨not_or.mpr ⟨hSeparator, hEnd⟩, ?_⟩
      simp [FileRecord.encode]

end FzEvent

------------------------------------------------------------
-- The Loop
------------------------------------------------------------

namespace FzEvent

/- What the loop makes of items in front of a rest. -/
theorem readEventLoop_items
    {items : List GrammarItem}
    (hValid : ∀ item ∈ items, item.IsValid)
    (list : EventList)
    (group : List FileRecord)
    (rest : List UInt8) :
    readEventLoop list (lastId (-1) group)
        (group.map FileRecord.stored)
        (items.flatMap GrammarItem.encode ++ rest) =
      readEventLoop (list.insertGroups (groupsFrom group items))
        (lastId (-1) (openGroup group items))
        ((openGroup group items).map FileRecord.stored)
        rest := by
  induction items generalizing list group with
  | nil => rfl
  | cons item items ih =>
      rw [List.forall_mem_cons] at hValid
      rw [List.flatMap_cons, List.append_assoc]
      cases item with
      | record r =>
          have hNext := ih hValid.2 list (group ++ [r])
          have hId : lastId (-1) (group ++ [r]) = r.id := by
            simp [lastId]
          rw [hId, List.map_append] at hNext
          rw [groupsFrom, openGroup, ← hNext]
          exact readEventLoop_record
            (readItem_encode hValid.1 _) list _ _
      | separator =>
          have hNext := ih hValid.2 (list.insertGroup group) []
          rw [GrammarItem.encode,
            readEventLoop_separator (readItem_separator _),
            List.length_map]
          exact hNext

theorem readEventLoop_eventFile
    {items : List GrammarItem}
    (hValid : ∀ item ∈ items, item.IsValid)
    (list : EventList)
    (rest : List UInt8) :
    readEventLoop list (-1) []
        (items.flatMap GrammarItem.encode ++
          (endOfFile ++ rest)) =
      (list.insertGroups (completeGroups items), true) := by
  have hItems :=
    readEventLoop_items hValid list [] (endOfFile ++ rest)
  rw [readEventLoop_endOfFile (readItem_endOfFile rest)]
    at hItems
  exact hItems

/- The loop breaks only at the end marker of an event file. -/
theorem exists_items_of_readEventLoop
    {list : EventList}
    {id : Int32}
    {e : List InputEvent}
    {fp : List UInt8}
    (hDone : (readEventLoop list id e fp).2 = true) :
    ∃ items, IsEventFile items fp := by
  induction hSize : fp.length using Nat.strongRecOn
    generalizing list id e fp with
  | ind size ih =>
      subst hSize
      cases hRead : readItem fp with
      | none =>
          rw [readEventLoop] at hDone
          split at hDone <;> simp_all
      | some result =>
          rcases result with ⟨item, rest⟩
          have hBytes := standsAt_of_readItem hRead
          have hLess := length_lt_of_readItem hRead
          cases item with
          | endOfFile =>
              refine ⟨[], ?_, rest, hBytes⟩
              intro item hMem
              cases hMem
          | separator =>
              rw [readEventLoop_separator hRead] at hDone
              rcases ih rest.length hLess hDone rfl with
                ⟨items, hValid, tail, hTail⟩
              refine ⟨.separator :: items, ?_, tail, ?_⟩
              · exact List.forall_mem_cons.mpr
                  ⟨trivial, hValid⟩
              · rw [List.flatMap_cons, List.append_assoc,
                  ← hTail]
                exact hBytes
          | record tv devId type code value =>
              rw [readEventLoop_record hRead] at hDone
              rcases ih rest.length hLess hDone rfl with
                ⟨items, hValid, tail, hTail⟩
              refine ⟨.record ⟨tv, devId, type, code, value⟩ ::
                items, ?_, tail, ?_⟩
              · exact List.forall_mem_cons.mpr
                  ⟨hBytes.1, hValid⟩
              · rw [List.flatMap_cons, List.append_assoc,
                  ← hTail]
                exact hBytes.2

end FzEvent

------------------------------------------------------------
-- The Reader
------------------------------------------------------------

namespace FzEvent

theorem readEvent_fst
    (list : EventList)
    (file : List UInt8) :
    (readEvent list (some file)).1 =
      (readEventLoop list (-1) [] file).1 := by
  rw [readEvent]
  split <;> simp_all

/- The result is the count of the list, or -1. -/
theorem readEvent_snd
    (list : EventList)
    (file : List UInt8) :
    (readEvent list (some file)).2 =
      if (readEventLoop list (-1) [] file).2 = true then
        (readEventLoop list (-1) [] file).1.getCount
      else
        -1 := by
  rw [readEvent]
  split <;> simp_all

/- The nodes that groups add to a list. -/
theorem nodes_insertGroups
    (list : EventList)
    (groups : List (List FileRecord)) :
    (list.insertGroups groups).nodes =
      list.nodes ++
        groups.mapIdx fun k group =>
          ⟨list.seqNumber + k, lastId (-1) group, group.length,
            group.map FileRecord.stored⟩ := by
  induction groups generalizing list with
  | nil => simp [EventList.insertGroups]
  | cons group groups ih =>
      rw [EventList.insertGroups, List.foldl_cons,
        ← EventList.insertGroups, ih]
      have hShift :
          ∀ k : Nat,
            list.seqNumber + 1 + (k : Int) =
              list.seqNumber + ((k + 1 : Nat) : Int) := by
        intro k
        omega
      simp only [EventList.insertGroup, EventList.insert,
        List.append_assoc, List.mapIdx_cons,
        List.singleton_append, Nat.cast_zero, add_zero, hShift]

/- A file of the grammar is read to its end marker. -/
theorem readEvent_of_isEventFile
    {items : List GrammarItem}
    {file : List UInt8}
    (hFile : IsEventFile items file)
    (list : EventList) :
    readEvent list (some file) =
      (list.insertGroups (completeGroups items),
        (list.nodes.length +
          items.countP GrammarItem.isSeparator : Int)) := by
  rcases hFile with ⟨hValid, rest, rfl⟩
  have hLoop := readEventLoop_eventFile hValid list rest
  simp [readEvent, hLoop, EventList.getCount, completeGroups,
    length_groupsFrom]

/-
  The reader accepts exactly the event files. It then adds a
  node for every separator, with the records in front of it,
  and returns the new length; otherwise it returns -1.
-/
theorem readEvent_accepts_grammar
    (list : EventList)
    (file : List UInt8) :
    (0 ≤ (readEvent list (some file)).2 ↔
      ∃ items, IsEventFile items file) ∧
    (∀ items, IsEventFile items file →
      (readEvent list (some file)).1.nodes =
          list.nodes ++
            (completeGroups items).mapIdx (fun k group =>
              ⟨list.seqNumber + k, lastId (-1) group,
                group.length, group.map FileRecord.stored⟩) ∧
        (completeGroups items).length =
          items.countP GrammarItem.isSeparator ∧
        (readEvent list (some file)).2 =
          (readEvent list (some file)).1.nodes.length) ∧
    ((¬ ∃ items, IsEventFile items file) →
      (readEvent list (some file)).2 = -1) := by
  have hAccepts :
      (readEventLoop list (-1) [] file).2 = true ↔
        ∃ items, IsEventFile items file := by
    constructor
    · exact exists_items_of_readEventLoop
    · rintro ⟨items, hValid, rest, rfl⟩
      have hLoop := readEventLoop_eventFile hValid list rest
      exact congrArg Prod.snd hLoop
  refine ⟨?_, ?_, ?_⟩
  · rw [← hAccepts, readEvent_snd]
    split
    · next hDone =>
      exact iff_of_true (Int.natCast_nonneg _) hDone
    · next hDone =>
      exact iff_of_false (by decide) hDone
  · intro items hFile
    rw [readEvent_of_isEventFile hFile]
    refine ⟨nodes_insertGroups list _, length_groupsFrom [] items,
      ?_⟩
    simp [completeGroups, length_groupsFrom]
  · intro hNone
    rw [readEvent_snd, if_neg]
    rw [hAccepts]
    exact hNone

end FzEvent

import FzEvent.Lib.LinkedCells
import FzEvent.Transport.Qlist
import Mathlib.Data.Finset.Card
import Mathlib.Order.Interval.Finset.Nat

/-
  `qlist` as a queue: what its calls do when each of them runs
  by itself.

  A queue holds a list of nodes with their containers: the
  chain from `head` visits their addresses in the order of the
  pushes and ends at `tail`, and `count` is their number.

  Main declarations:
    * `Qlist.destroy` and `Qlist.Call`
    * `FzEvent.queueCalls`
    * `Qlist.Holds`
    * `Call.after` and `Call.result`
    * `FzEvent.queue_correct`
-/

------------------------------------------------------------
-- The Calls
------------------------------------------------------------

namespace FzEvent

open LockedProgram Transition

namespace Qlist

/- `size` -/
def size : QueueProg :=
  readCount fun n => .ret (.code n.toNat)

/-
  `destroy`, for so many rounds of its loop at most. With or
  without a container it goes on.
-/
def destroy : Nat → QueueProg
| 0 => .act (fun _ => none) (fun _ => .ret (.code 0))
| rounds + 1 =>
    isEmpty.andThen fun ret =>
      if ret = .bool false then
        pop.andThen fun _ => destroy rounds
      else
        .ret (.code 0)

/-
  A call. `push` says at which address `malloc` finds room,
  `destroy` how many rounds are looked at.
-/
inductive Call
| push (data : Addr) (len : UInt32) (a : Addr)
| pop
| size
| isEmpty
| destroy (rounds : Nat)
deriving DecidableEq, Repr

/- The program of a call. -/
def Call.prog : Call → QueueProg
| .push data len a => Qlist.push data len a
| .pop => Qlist.pop
| .size => Qlist.size
| .isEmpty => Qlist.isEmpty
| .destroy rounds => Qlist.destroy rounds

/- An address that `malloc` can return: a word, and not null. -/
def IsPointer (a : Addr) : Prop :=
  0 < a ∧ a < UInt32.size

instance (a : Addr) : Decidable (IsPointer a) :=
  inferInstanceAs (Decidable (0 < a ∧ a < UInt32.size))

/- `malloc` can give the call what it asks for. -/
def Call.Offered : Call → Prop
| .push _ _ a => IsPointer a
| _ => True

instance (call : Call) : Decidable call.Offered :=
  match call with
  | .push _ _ a => inferInstanceAs (Decidable (IsPointer a))
  | .pop => .isTrue trivial
  | .size => .isTrue trivial
  | .isEmpty => .isTrue trivial
  | .destroy _ => .isTrue trivial

end Qlist

/- Calls, each run by itself, with what they return. -/
def queueCalls :
    System Qlist (Qlist.Call × Qlist.Ret) where
  init := Qlist.empty
  step q label := do
    let out ← label.1.prog.run q
    if label.1.Offered ∧ out.1 = label.2 then
      return out.2
    else
      none

end FzEvent

------------------------------------------------------------
-- What a Queue Holds
------------------------------------------------------------

namespace FzEvent

open LockedProgram LinkedCells

namespace Qlist

/- The successors of the nodes. -/
def next
    (q : Qlist)
    (a : Addr) : Option (Option Addr) :=
  (q.heap a).map Node.next

/- There are less different nodes than words. -/
theorem length_lt_of_pointers
    {addrs : List Addr}
    (hNodup : addrs.Nodup)
    (hPointers : ∀ a ∈ addrs, IsPointer a) :
    addrs.length < UInt32.size := by
  have hInside : addrs.toFinset ⊆ Finset.Ico 1 UInt32.size := by
    intro a hMem
    rw [List.mem_toFinset] at hMem
    rw [Finset.mem_Ico]
    exact hPointers a hMem
  have hCard := Finset.card_le_card hInside
  rw [List.toFinset_card_of_nodup hNodup,
    Nat.card_Ico] at hCard
  have hPos : 0 < UInt32.size := by decide
  omega

/- The queue holds these nodes with these containers. -/
structure Holds
    (q : Qlist)
    (items : List (Addr × Container)) : Prop where
  linked : Linked q.next q.head (items.map Prod.fst)
  tail_eq : q.tail = (items.map Prod.fst).getLast?
  container_eq :
    ∀ item ∈ items,
      (q.heap item.1).bind Node.container = some item.2
  count_eq : q.count.toNat = items.length
  live : ∀ a, q.heap a ≠ none ↔ a ∈ items.map Prod.fst
  pointers : ∀ a ∈ items.map Prod.fst, IsPointer a

variable {q : Qlist}
variable {items : List (Addr × Container)}

/- The constructed queue holds nothing. -/
theorem holds_empty : empty.Holds [] where
  linked := rfl
  tail_eq := rfl
  container_eq := by simp
  count_eq := rfl
  live := by simp [empty]
  pointers := by simp

namespace Holds

theorem head_eq
    (hHolds : q.Holds items) :
    q.head = (items.map Prod.fst).head? :=
  hHolds.linked.head_eq

/- Both ends are null together. -/
theorem head_none_iff
    (hHolds : q.Holds items) :
    q.head = none ↔ q.tail = none := by
  rw [hHolds.head_eq, hHolds.tail_eq,
    List.head?_eq_none_iff, List.getLast?_eq_none_iff]

end Holds

end Qlist

end FzEvent

------------------------------------------------------------
-- Push
------------------------------------------------------------

namespace FzEvent

open LockedProgram LinkedCells

namespace Qlist

variable {q : Qlist}
variable {items : List (Addr × Container)}
variable {data : Addr} {len : UInt32} {a : Addr}

/- The queue after `push` into an empty one. -/
theorem run_push_first
    (hTail : q.tail = none)
    (hFree : q.heap a = none) :
    (push data len a).run q =
      some (.code 0,
        { head := some a
          tail := some a
          count := q.count + 1
          heap := Function.update q.heap a
            (some ⟨some ⟨data, len⟩, none⟩) }) := by
  simp [push, alloc, writeContainer, writeNext, readTail,
    writeTail, writeHead, pushDone, readCount, writeCount,
    Prog.run, store, hFree, hTail]

/- The queue after `push` behind a last node. -/
theorem run_push_behind
    {last : Addr}
    {node : Node}
    (hTail : q.tail = some last)
    (hLast : q.heap last = some node)
    (hFree : q.heap a = none) :
    (push data len a).run q =
      some (.code 0,
        { head := q.head
          tail := some a
          count := q.count + 1
          heap := Function.update
            (Function.update q.heap a
              (some ⟨some ⟨data, len⟩, none⟩))
            last (some { node with next := some a }) }) := by
  have hOther : last ≠ a := by
    rintro rfl
    rw [hLast] at hFree
    cases hFree
  simp [push, alloc, writeContainer, writeNext, readTail,
    readNext, writeTail, pushDone, readCount, writeCount,
    Prog.run, store, deref, hFree, hTail, hLast, hOther]

/- A node that is held is there, with its container. -/
theorem Holds.exists_node
    (hHolds : q.Holds items)
    {item : Addr × Container}
    (hMem : item ∈ items) :
    ∃ node,
      q.heap item.1 = some node ∧
        node.container = some item.2 := by
  have hContainer := hHolds.container_eq item hMem
  rw [Option.bind_eq_some_iff] at hContainer
  exact hContainer

/- A free address is not held. -/
theorem Holds.not_mem_of_free
    (hHolds : q.Holds items)
    (hFree : q.heap a = none) :
    a ∉ items.map Prod.fst := by
  intro hMem
  exact (hHolds.live a).mpr hMem hFree

/- The count after one more node. -/
theorem Holds.count_succ
    (hHolds : q.Holds items)
    (hPointer : IsPointer a)
    (hNew : a ∉ items.map Prod.fst) :
    (q.count + 1).toNat = items.length + 1 := by
  have hLength :
      (a :: items.map Prod.fst).length < UInt32.size := by
    apply length_lt_of_pointers
    · exact List.nodup_cons.mpr ⟨hNew, hHolds.linked.nodup⟩
    · exact List.forall_mem_cons.mpr
        ⟨hPointer, hHolds.pointers⟩
  rw [List.length_cons, List.length_map] at hLength
  have hOne : (1 : UInt32).toNat = 1 := rfl
  rw [UInt32.toNat_add, hHolds.count_eq, hOne]
  exact Nat.mod_eq_of_lt hLength

theorem forall_mem_snoc
    {α : Type}
    {a : α}
    {P : α → Prop}
    {addrs : List α}
    (hOld : ∀ b ∈ addrs, P b)
    (hNew : P a) :
    ∀ b ∈ addrs ++ [a], P b := by
  intro b hMem
  rcases List.mem_append.mp hMem with hMem | hMem
  · exact hOld b hMem
  · rw [List.mem_singleton.mp hMem]
    exact hNew

/- `push` into an empty queue. -/
theorem holds_push_first
    (hHolds : q.Holds [])
    (hPointer : IsPointer a)
    (hFree : q.heap a = none) :
    ∃ q',
      (push data len a).run q = some (.code 0, q') ∧
        q'.Holds [(a, ⟨data, len⟩)] := by
  have hCount := hHolds.count_succ hPointer
    (hHolds.not_mem_of_free hFree)
  refine ⟨_, run_push_first hHolds.tail_eq hFree, ?_⟩
  refine
    { linked := linked_singleton (by simp [next])
      tail_eq := rfl
      container_eq := by simp
      count_eq := hCount
      live := ?_
      pointers := List.forall_mem_singleton.mpr hPointer }
  intro b
  by_cases hSame : b = a
  · simp [hSame]
  · have hNone := (hHolds.live b).not
    simp only [List.map_nil, List.not_mem_nil,
      not_false_eq_true, iff_true, not_not] at hNone
    simp [hSame, hNone]

section

variable {front : List (Addr × Container)}
variable {last : Addr × Container} {node : Node}

/- The queue once the last node points to the new one. -/
def pushedBehind
    (q : Qlist)
    (data : Addr)
    (len : UInt32)
    (last a : Addr)
    (node : Node) : Qlist where
  head := q.head
  tail := some a
  count := q.count + 1
  heap :=
    appendCell q.heap last a { node with next := some a }
      ⟨some ⟨data, len⟩, none⟩

@[simp] theorem heap_pushedBehind
    (q : Qlist)
    (last : Addr) :
    (q.pushedBehind data len last a node).heap =
      appendCell q.heap last a { node with next := some a }
        ⟨some ⟨data, len⟩, none⟩ := rfl

/- Neither the last node nor a new one is among the front. -/
theorem Holds.apart
    (hHolds : q.Holds (front ++ [last]))
    (hFree : q.heap a = none) :
    last.1 ≠ a ∧
      ∀ b ∈ front.map Prod.fst, b ≠ last.1 ∧ b ≠ a := by
  have hLinked := hHolds.linked
  have hNew := hHolds.not_mem_of_free hFree
  rw [List.map_append, List.map_singleton] at hLinked hNew
  exact hLinked.apart hNew

theorem Holds.linked_pushedBehind
    (hHolds : q.Holds (front ++ [last]))
    (hFree : q.heap a = none) :
    Linked (q.pushedBehind data len last.1 a node).next q.head
      (front.map Prod.fst ++ [last.1, a]) := by
  have hLinked := hHolds.linked
  rw [List.map_append, List.map_singleton] at hLinked
  rcases hHolds.apart hFree with ⟨hOther, hFront⟩
  apply hLinked.snoc
  · rw [next, heap_pushedBehind, appendCell_last]
    rfl
  · rw [next, heap_pushedBehind, appendCell_new hOther]
    rfl
  · intro b hMem
    rw [next, next, heap_pushedBehind,
      appendCell_of_ne (hFront b hMem).1 (hFront b hMem).2]

/- The containers of the old nodes stay. -/
theorem Holds.container_pushedBehind
    (hHolds : q.Holds (front ++ [last]))
    (hFree : q.heap a = none)
    (hNode : q.heap last.1 = some node)
    {item : Addr × Container}
    (hMem : item ∈ front ++ [last]) :
    ((q.pushedBehind data len last.1 a node).heap
        item.1).bind Node.container =
      some item.2 := by
  by_cases hSame : item.1 = last.1
  · rcases hHolds.exists_node hMem with
      ⟨node', hNode', hContainer⟩
    rw [hSame, hNode] at hNode'
    cases hNode'
    rw [hSame, heap_pushedBehind, appendCell_last]
    exact hContainer
  · have hItem : item.1 ≠ a := by
      intro hEq
      apply hHolds.not_mem_of_free hFree
      rw [← hEq]
      exact List.mem_map_of_mem hMem
    rw [heap_pushedBehind, appendCell_of_ne hSame hItem]
    exact hHolds.container_eq item hMem

/- `push` behind the last node. -/
theorem holds_push_behind
    (hHolds : q.Holds (front ++ [last]))
    (hPointer : IsPointer a)
    (hFree : q.heap a = none) :
    ∃ q',
      (push data len a).run q = some (.code 0, q') ∧
        q'.Holds (front ++ [last] ++ [(a, ⟨data, len⟩)]) := by
  have hOther := (hHolds.apart hFree).1
  have hCount := hHolds.count_succ hPointer
    (hHolds.not_mem_of_free hFree)
  have hLastMem : last ∈ front ++ [last] := by simp
  rcases hHolds.exists_node hLastMem with ⟨node, hNode, _⟩
  have hTail : q.tail = some last.1 := by
    rw [hHolds.tail_eq]
    simp
  have hAddrs :
      (front ++ [last] ++
          [(a, (⟨data, len⟩ : Container))]).map Prod.fst =
        front.map Prod.fst ++ [last.1, a] := by
    simp
  refine ⟨q.pushedBehind data len last.1 a node,
    run_push_behind hTail hNode hFree, ?_⟩
  refine
    { linked := ?_
      tail_eq := by simp [pushedBehind]
      container_eq := ?_
      count_eq := ?_
      live := ?_
      pointers := ?_ }
  · rw [hAddrs]
    exact hHolds.linked_pushedBehind hFree
  · apply forall_mem_snoc
    · intro item hMem
      exact hHolds.container_pushedBehind hFree hNode hMem
    · rw [heap_pushedBehind, appendCell_new hOther]
      rfl
  · rw [List.length_append]
    exact hCount
  · rw [hAddrs]
    apply appendCell_live _ hOther
    intro b
    rw [hHolds.live b, List.map_append]
    rfl
  · rw [List.map_append]
    exact forall_mem_snoc hHolds.pointers hPointer

end

/- `push` puts the packet behind the others. -/
theorem holds_push
    (hHolds : q.Holds items)
    (hPointer : IsPointer a)
    (hFree : q.heap a = none) :
    ∃ q',
      (push data len a).run q = some (.code 0, q') ∧
        q'.Holds (items ++ [(a, ⟨data, len⟩)]) := by
  rcases List.eq_nil_or_concat items with
    rfl | ⟨front, last, rfl⟩
  · exact holds_push_first hHolds hPointer hFree
  · rw [List.concat_eq_append] at hHolds ⊢
    exact holds_push_behind hHolds hPointer hFree

end Qlist

end FzEvent

------------------------------------------------------------
-- Pop
------------------------------------------------------------

namespace FzEvent

open LockedProgram LinkedCells

namespace Qlist

variable {q : Qlist}
variable {items : List (Addr × Container)}

/- `pop` of an empty queue. -/
theorem run_pop_empty
    (hHead : q.head = none) :
    pop.run q = some (.container none, q) := by
  simp [pop, readHead, Prog.run, hHead]

/- The queue after `pop` of the only node. -/
theorem run_pop_last
    {a : Addr}
    {node : Node}
    (hHead : q.head = some a)
    (hNode : q.heap a = some node)
    (hNext : node.next = none) :
    pop.run q =
      some (.container node.container,
        { head := none
          tail := none
          count := q.count - 1
          heap := Function.update q.heap a none }) := by
  simp [pop, popDone, readHead, readContainer, readNext,
    writeHead, writeTail, free, readCount, writeCount,
    Prog.run, deref, store, hHead, hNode, hNext]

/- The queue after `pop` of a node with a successor. -/
theorem run_pop_first
    {a b : Addr}
    {node : Node}
    (hHead : q.head = some a)
    (hNode : q.heap a = some node)
    (hNext : node.next = some b) :
    pop.run q =
      some (.container node.container,
        { head := some b
          tail := q.tail
          count := q.count - 1
          heap := Function.update q.heap a none }) := by
  simp [pop, popDone, readHead, readContainer, readNext,
    writeHead, free, readCount, writeCount, Prog.run, deref,
    store, hHead, hNode, hNext]

/- The count does not underflow. -/
theorem Holds.count_pred
    {item : Addr × Container}
    (hHolds : q.Holds (item :: items)) :
    (q.count - 1).toNat = items.length := by
  have hCount := hHolds.count_eq
  have hOne : (1 : UInt32).toNat = 1 := rfl
  rw [List.length_cons] at hCount
  rw [UInt32.toNat_sub_of_le, hCount, hOne]
  · rfl
  · rw [UInt32.le_iff_toNat_le, hCount, hOne]
    exact Nat.le_add_left 1 _

section

variable {item : Addr × Container}

theorem Holds.not_mem_rest
    (hHolds : q.Holds (item :: items)) :
    item.1 ∉ items.map Prod.fst := by
  have hNodup := hHolds.linked.nodup
  rw [List.map_cons, List.nodup_cons] at hNodup
  exact hNodup.1

/- The chain of the others does not need the freed node. -/
theorem Holds.linked_freed
    {q' : Qlist}
    {p : Option Addr}
    (hHolds : q.Holds (item :: items))
    (hHeap : q'.heap = Function.update q.heap item.1 none)
    (hRest : Linked q.next p (items.map Prod.fst)) :
    Linked q'.next p (items.map Prod.fst) := by
  apply hRest.frame
  intro b hMem
  have hOther : b ≠ item.1 := by
    rintro rfl
    exact hHolds.not_mem_rest hMem
  rw [next, next, hHeap, Function.update_of_ne hOther]

theorem Holds.container_freed
    (hHolds : q.Holds (item :: items)) :
    ∀ other ∈ items,
      (Function.update q.heap item.1 none other.1).bind
          Node.container =
        some other.2 := by
  intro other hMem
  have hOther : other.1 ≠ item.1 := by
    intro hEq
    apply hHolds.not_mem_rest
    rw [← hEq]
    exact List.mem_map_of_mem hMem
  rw [Function.update_of_ne hOther]
  exact hHolds.container_eq other (List.mem_cons_of_mem _ hMem)

end

/- `pop` takes the first node and leaves the others. -/
theorem holds_pop
    {item : Addr × Container}
    (hHolds : q.Holds (item :: items)) :
    ∃ q',
      pop.run q = some (.container (some item.2), q') ∧
        q'.Holds items := by
  have hHead : q.head = some item.1 := hHolds.head_eq
  rcases hHolds.exists_node List.mem_cons_self with
    ⟨node, hNode, hContainer⟩
  have hNext : q.next item.1 = some node.next := by
    rw [next, hNode]
    rfl
  have hRest := hHolds.linked.tail hNext
  have hLive := freed_live hHolds.live hHolds.not_mem_rest
  have hPointers :
      ∀ b ∈ items.map Prod.fst, IsPointer b := by
    intro b hMem
    exact hHolds.pointers b (List.mem_cons_of_mem _ hMem)
  rw [← hContainer]
  cases items with
  | nil =>
      have hEnd : node.next = none := hRest
      exact ⟨_, run_pop_last hHead hNode hEnd,
        { linked := rfl
          tail_eq := rfl
          container_eq := hHolds.container_freed
          count_eq := hHolds.count_pred
          live := hLive
          pointers := hPointers }⟩
  | cons second items =>
      have hSecond : node.next = some second.1 := hRest.1
      refine ⟨_, run_pop_first hHead hNode hSecond,
        { linked := ?_
          tail_eq := ?_
          container_eq := hHolds.container_freed
          count_eq := hHolds.count_pred
          live := hLive
          pointers := hPointers }⟩
      · rw [← hSecond]
        exact hHolds.linked_freed rfl hRest
      · rw [hHolds.tail_eq, List.map_cons, List.map_cons,
          List.getLast?_cons_cons]

end Qlist

end FzEvent

------------------------------------------------------------
-- Size and Destroy
------------------------------------------------------------

namespace FzEvent

open LockedProgram

namespace Qlist

variable {q : Qlist}
variable {items : List (Addr × Container)}

/- `size` is the number of packets. -/
theorem run_size
    (hHolds : q.Holds items) :
    size.run q = some (.code items.length, q) := by
  rw [← hHolds.count_eq]
  rfl

/- `is_empty` says whether there are none. -/
theorem run_isEmpty
    (hHolds : q.Holds items) :
    isEmpty.run q = some (.bool items.isEmpty, q) := by
  have hRun : isEmpty.run q = some (.bool q.head.isNone, q) :=
    rfl
  rw [hRun, hHolds.head_eq]
  cases items <;> rfl

/- `destroy` takes one round for each packet and one more. -/
theorem run_destroy
    (hHolds : q.Holds items)
    {rounds : Nat}
    (hRounds : items.length < rounds) :
    ∃ q',
      (destroy rounds).run q = some (.code 0, q') ∧
        q'.Holds [] := by
  induction items generalizing q rounds with
  | nil =>
      cases rounds with
      | zero => cases hRounds
      | succ rounds =>
          refine ⟨q, ?_, hHolds⟩
          rw [destroy, Prog.run_andThen, run_isEmpty hHolds]
          rfl
  | cons item items ih =>
      cases rounds with
      | zero => cases hRounds
      | succ rounds =>
          rcases holds_pop hHolds with ⟨q', hPop, hHolds'⟩
          rcases ih hHolds' (Nat.lt_of_succ_lt_succ hRounds)
            with ⟨q'', hRest, hHolds''⟩
          refine ⟨q'', ?_, hHolds''⟩
          rw [destroy, Prog.run_andThen, run_isEmpty hHolds]
          simp only [List.isEmpty_cons, Option.bind_some,
            if_true, Prog.run_andThen, hPop]
          exact hRest

/- With fewer rounds it is not seen to return. -/
theorem run_destroy_short
    (hHolds : q.Holds items)
    {rounds : Nat}
    (hRounds : rounds ≤ items.length) :
    (destroy rounds).run q = none := by
  induction rounds generalizing q items with
  | zero => rfl
  | succ rounds ih =>
      cases items with
      | nil => cases hRounds
      | cons item items =>
          rcases holds_pop hHolds with ⟨q', hPop, hHolds'⟩
          rw [destroy, Prog.run_andThen, run_isEmpty hHolds]
          simp only [List.isEmpty_cons, Option.bind_some,
            if_true, Prog.run_andThen, hPop]
          exact ih hHolds' (Nat.le_of_succ_le_succ hRounds)

/- `push` at an address in use is not possible. -/
theorem run_push_used
    {data : Addr}
    {len : UInt32}
    {a : Addr}
    (hUsed : q.heap a ≠ none) :
    (push data len a).run q = none := by
  simp [push, alloc, Prog.run, hUsed]

end Qlist

end FzEvent

------------------------------------------------------------
-- The Queue of Packets
------------------------------------------------------------

namespace FzEvent

open LockedProgram Transition

namespace Qlist

/- The call can be made while these packets are queued. -/
def Call.Possible
    (items : List (Addr × Container)) : Call → Prop
| .push _ _ a => IsPointer a ∧ a ∉ items.map Prod.fst
| .destroy rounds => items.length < rounds
| _ => True

instance
    (items : List (Addr × Container))
    (call : Call) : Decidable (call.Possible items) :=
  match call with
  | .push _ _ a =>
      inferInstanceAs
        (Decidable
          (IsPointer a ∧ a ∉ items.map Prod.fst))
  | .pop => .isTrue trivial
  | .size => .isTrue trivial
  | .isEmpty => .isTrue trivial
  | .destroy rounds =>
      inferInstanceAs (Decidable (items.length < rounds))

/- The packets that are queued after a call. -/
def Call.after
    (items : List (Addr × Container)) :
    Call → List (Addr × Container)
| .push data len a => items ++ [(a, ⟨data, len⟩)]
| .pop => items.tail
| .size => items
| .isEmpty => items
| .destroy _ => []

/- What a call returns. -/
def Call.result
    (items : List (Addr × Container)) : Call → Ret
| .push _ _ _ => .code 0
| .pop => .container (items.head?.map Prod.snd)
| .size => .code items.length
| .isEmpty => .bool items.isEmpty
| .destroy _ => .code 0

/- What was pushed, and popped, since the last `destroy`. -/
structure History where
  pushed : List Container
  popped : List Container
deriving DecidableEq, Repr

/- The history after a call and its result. -/
def History.record
    (history : History)
    (label : Call × Ret) : History :=
  match label with
  | (.push data len _, _) =>
      { history with
        pushed := history.pushed ++ [⟨data, len⟩] }
  | (.pop, .container (some container)) =>
      { history with popped := history.popped ++ [container] }
  | (.destroy _, _) => ⟨[], []⟩
  | _ => history

/- The history of a run. -/
def history (labels : List (Call × Ret)) : History :=
  labels.foldl History.record ⟨[], []⟩

end Qlist

open Qlist

/- A queue of packets, without its nodes' fields. -/
def packetQueue :
    System (List (Addr × Container)) (Call × Ret) where
  init := []
  step items label :=
    if label.1.Possible items ∧
        label.2 = label.1.result items then
      some (label.1.after items)
    else
      none

end FzEvent

------------------------------------------------------------
-- The Queue Is Correct
------------------------------------------------------------

namespace FzEvent

open LockedProgram Transition

namespace Qlist

variable {q q' : Qlist}
variable {items : List (Addr × Container)}

/- A call that is possible returns what it should. -/
theorem run_of_possible
    (hHolds : q.Holds items)
    {call : Call}
    (hPossible : call.Possible items) :
    ∃ q',
      call.prog.run q = some (call.result items, q') ∧
        q'.Holds (call.after items) := by
  cases call with
  | push data len a =>
      have hFree : q.heap a = none := by
        have hLive := (hHolds.live a).not
        exact not_not.mp (hLive.mpr hPossible.2)
      exact holds_push hHolds hPossible.1 hFree
  | pop =>
      cases items with
      | nil =>
          exact ⟨q, run_pop_empty hHolds.head_eq, hHolds⟩
      | cons item items => exact holds_pop hHolds
  | size => exact ⟨q, run_size hHolds, hHolds⟩
  | isEmpty => exact ⟨q, run_isEmpty hHolds, hHolds⟩
  | destroy rounds => exact run_destroy hHolds hPossible

/- A call that returns was possible. -/
theorem possible_of_run
    (hHolds : q.Holds items)
    {call : Call}
    (hOffered : call.Offered)
    {out : Ret × Qlist}
    (hRun : call.prog.run q = some out) :
    call.Possible items := by
  cases call with
  | push data len a =>
      refine ⟨hOffered, ?_⟩
      intro hMem
      rw [Call.prog, run_push_used
        ((hHolds.live a).mpr hMem)] at hRun
      cases hRun
  | pop => trivial
  | size => trivial
  | isEmpty => trivial
  | destroy rounds =>
      apply Nat.lt_of_not_le
      intro hShort
      rw [Call.prog, run_destroy_short hHolds hShort] at hRun
      cases hRun

theorem offered_of_possible
    {call : Call}
    (hPossible : call.Possible items) :
    call.Offered := by
  cases call with
  | push data len a => exact hPossible.1
  | pop => trivial
  | size => trivial
  | isEmpty => trivial
  | destroy rounds => trivial

/- The step lemma: the calls do to the packets what they say. -/
theorem step_queueCalls
    (hHolds : q.Holds items)
    {label : Call × Ret}
    (hStep : queueCalls.step q label = some q') :
    packetQueue.step items label =
        some (label.1.after items) ∧
      q'.Holds (label.1.after items) := by
  simp only [queueCalls, Option.bind_eq_bind,
    Option.bind_eq_some_iff] at hStep
  rcases hStep with ⟨out, hRun, hOut⟩
  split at hOut
  · rename_i hLabel
    cases hOut
    have hPossible :=
      possible_of_run hHolds hLabel.1 hRun
    rcases run_of_possible hHolds hPossible with
      ⟨q'', hRun', hHolds'⟩
    rw [hRun] at hRun'
    cases hRun'
    exact ⟨if_pos ⟨hPossible, hLabel.2.symm⟩, hHolds'⟩
  · cases hOut

/- The call is offered with the result that it should have. -/
theorem step_of_possible
    (hHolds : q.Holds items)
    {call : Call}
    (hPossible : call.Possible items) :
    ∃ q',
      queueCalls.step q (call, call.result items) =
        some q' := by
  rcases run_of_possible hHolds hPossible with ⟨q', hRun, _⟩
  refine ⟨q', ?_⟩
  simp only [queueCalls, hRun, Option.bind_eq_bind,
    Option.bind_some]
  exact if_pos ⟨offered_of_possible hPossible, trivial⟩

/- What was pushed is what was popped and what is queued. -/
def History.Splits
    (history : History)
    (items : List (Addr × Container)) : Prop :=
  history.pushed = history.popped ++ items.map Prod.snd

theorem History.Splits.record
    {history : History}
    (hSplits : history.Splits items)
    {call : Call} :
    (history.record (call, call.result items)).Splits
      (call.after items) := by
  rw [Splits] at hSplits ⊢
  cases call with
  | push data len a =>
      simp only [History.record, Call.after, hSplits,
        List.map_append, List.append_assoc]
      rfl
  | pop =>
      cases items with
      | nil => exact hSplits
      | cons item items =>
          simp only [History.record, Call.after, Call.result,
            List.head?_cons, Option.map_some, hSplits,
            List.map_cons, List.tail_cons]
          simp
  | size => exact hSplits
  | isEmpty => exact hSplits
  | destroy rounds => rfl

theorem splits_of_exec
    {history : History}
    (hSplits : history.Splits items)
    {labels : List (Call × Ret)}
    {items' : List (Addr × Container)}
    (hRun : packetQueue.exec items labels = some items') :
    (labels.foldl History.record history).Splits items' := by
  induction labels generalizing items history with
  | nil =>
      cases hRun
      exact hSplits
  | cons label labels ih =>
      rcases (packetQueue.exec_cons_eq_some_iff).mp hRun with
        ⟨next, hStep, hRest⟩
      simp only [packetQueue] at hStep
      split at hStep
      · rename_i hLabel
        cases hStep
        apply ih _ hRest
        rw [show label =
          (label.1, label.1.result items) from
            Prod.ext rfl hLabel.2]
        exact hSplits.record
      · cases hStep

end Qlist

open Qlist

/-
  After every sequence of calls the queue holds the packets
  that a queue should hold: pushed, not yet popped, and in the
  order of the pushes. Every call then returns what it should.
-/
theorem queue_correct
    {labels : List (Call × Ret)}
    {q : Qlist}
    (hRun :
      queueCalls.exec queueCalls.init labels = some q) :
    ∃ items,
      packetQueue.exec packetQueue.init labels =
          some items ∧
        q.Holds items ∧
        (q.head = none ↔ q.tail = none) ∧
        (q.head = none ↔ items = []) ∧
        (history labels).pushed =
          (history labels).popped ++
            items.map Prod.snd ∧
        ∀ call : Call, call.Possible items →
          ∃ q',
            queueCalls.step q (call, call.result items) =
              some q' := by
  rcases queueCalls.simulation_of_meets packetQueue
      (R := Qlist.Holds)
      (fun s items label s' hHolds _ hStep =>
        ⟨_, step_queueCalls hHolds hStep⟩)
      holds_empty
      (queueCalls.meets_true _ labels) hRun with
    ⟨items, hExec, hHolds⟩
  have hStart : History.Splits ⟨[], []⟩ [] := rfl
  refine ⟨items, hExec, hHolds, hHolds.head_none_iff, ?_,
    splits_of_exec hStart hExec,
    fun call hPossible => step_of_possible hHolds hPossible⟩
  rw [hHolds.linked.eq_nil_iff, List.map_eq_nil_iff]

/- Two packets are pushed, and the first one is popped. -/
theorem queue_correct_popFirst :
    ∃ q items,
      queueCalls.exec queueCalls.init
          [(.push 100 1 8, .code 0),
            (.push 200 2 16, .code 0),
            (.pop, .container (some ⟨100, 1⟩)),
            (.size, .code 1)] =
          some q ∧
        q.Holds items ∧
        (q.head = none ↔ items = []) := by
  have hSome :
      (queueCalls.exec queueCalls.init
        [(.push 100 1 8, .code 0), (.push 200 2 16, .code 0),
          (.pop, .container (some ⟨100, 1⟩)),
          (.size, .code 1)]).isSome := by
    decide
  rcases Option.isSome_iff_exists.mp hSome with ⟨q, hRun⟩
  rcases queue_correct hRun with
    ⟨items, _, hHolds, _, hHead, _⟩
  exact ⟨q, items, hRun, hHolds, hHead⟩

end FzEvent

------------------------------------------------------------
-- Threads That Are Not Interrupted
------------------------------------------------------------

namespace FzEvent

open LockedProgram Transition

namespace Qlist

/- An operation of a thread as a call. -/
def Op.call : Op → Call
| .push data len a => .push data len a
| .pop => .pop
| .isEmpty => .isEmpty

theorem prog_call
    (op : Op) :
    op.call.prog = code op := by
  cases op <;> rfl

end Qlist

open Qlist

/-
  A thread that is not interrupted during an operation does to
  the packets what the call does.
-/
theorem sendQueue_returnsAlone
    {T : Type} [DecidableEq T]
    {w : World T Qlist Ret}
    {items : List (Addr × Container)}
    (hHolds : w.memory.Holds items)
    {i : T}
    {op : Op}
    (hProg : (w.threads i).prog = some (code op))
    (hPossible : op.call.Possible items) :
    ∃ q,
      ReturnsAlone (sendQueue T) w i (op.call.result items)
          q ∧
        q.Holds (op.call.after items) := by
  rcases run_of_possible hHolds hPossible with
    ⟨q, hRun, hHolds'⟩
  rw [prog_call] at hRun
  exact ⟨q, returnsAlone_of_run rfl rfl hProg hRun, hHolds'⟩

end FzEvent

import FzEvent.Lib.LockedProgram

/-
  The send queue `qlist`: `push`, `pop` and `is_empty` as
  programs of atomic steps over linked nodes.

  Each read or write of `head`, `tail`, `next`, `container`
  and `count` is one step, and so is each mutex call. The
  entry macro `_NODE_TRYLOCK` expands to an unlock.

  Main declarations:
    * `FzEvent.Qlist` and `FzEvent.Qlist.Op`
    * `Qlist.push`, `Qlist.pop` and `Qlist.isEmpty`
    * `FzEvent.sendQueue`
    * `FzEvent.sendQueue_always_iff_guarded`
-/

------------------------------------------------------------
-- Memory
------------------------------------------------------------

namespace FzEvent

open LockedProgram

abbrev Addr : Type := Nat

namespace Qlist

/- `node::_container`: a buffer that the user frees. -/
structure Container where
  data : Addr
  len : UInt32
deriving DecidableEq, Repr

/- `node`; a fresh node has no container yet. -/
structure Node where
  container : Option Container
  next : Option Addr
deriving DecidableEq, Repr

end Qlist

/- `qlist` with its nodes; a freed address holds no node. -/
structure Qlist where
  head : Option Addr
  tail : Option Addr
  count : UInt32
  heap : Addr → Option Qlist.Node

namespace Qlist

/- The constructed queue. -/
def empty : Qlist where
  head := none
  tail := none
  count := 0
  heap := fun _ => none

/- The node a pointer refers to, if it may be accessed. -/
def deref
    (q : Qlist)
    (p : Option Addr) : Option Node :=
  p.bind q.heap

/- Store a node at an address. -/
def store
    (q : Qlist)
    (a : Addr)
    (node : Option Node) : Qlist :=
  { q with heap := Function.update q.heap a node }

end Qlist

end FzEvent

------------------------------------------------------------
-- Atomic Accesses
------------------------------------------------------------

namespace FzEvent

open LockedProgram

namespace Qlist

/- What `push`, `pop` and `is_empty` return. -/
inductive Ret
| code (value : Int)
| container (value : Option Container)
| bool (value : Bool)
deriving DecidableEq, Repr

abbrev QueueProg : Type := Prog Qlist Ret

/- `malloc(sizeof(node))` at an address that is free. -/
def alloc
    (a : Addr)
    (rest : QueueProg) : QueueProg :=
  .act
    (fun q =>
      if q.heap a = none then
        some (q.store a (some ⟨none, none⟩))
      else
        none)
    (fun _ => rest)

/- `free` -/
def free
    (p : Option Addr)
    (rest : QueueProg) : QueueProg :=
  .act
    (fun q => do
      let a ← p
      let _ ← q.heap a
      return q.store a none)
    (fun _ => rest)

def readHead (rest : Option Addr → QueueProg) : QueueProg :=
  .act some (fun q => rest q.head)

def writeHead
    (p : Option Addr)
    (rest : QueueProg) : QueueProg :=
  .act (fun q => some { q with head := p }) (fun _ => rest)

def readTail (rest : Option Addr → QueueProg) : QueueProg :=
  .act some (fun q => rest q.tail)

def writeTail
    (p : Option Addr)
    (rest : QueueProg) : QueueProg :=
  .act (fun q => some { q with tail := p }) (fun _ => rest)

def readCount (rest : UInt32 → QueueProg) : QueueProg :=
  .act some (fun q => rest q.count)

def writeCount
    (n : UInt32)
    (rest : QueueProg) : QueueProg :=
  .act (fun q => some { q with count := n }) (fun _ => rest)

def readNext
    (p : Option Addr)
    (rest : Option Addr → QueueProg) : QueueProg :=
  .act
    (fun q => (q.deref p).map (fun _ => q))
    (fun q => rest ((q.deref p).bind Node.next))

def writeNext
    (p : Option Addr)
    (next : Option Addr)
    (rest : QueueProg) : QueueProg :=
  .act
    (fun q => do
      let a ← p
      let node ← q.heap a
      return q.store a (some { node with next := next }))
    (fun _ => rest)

def readContainer
    (p : Option Addr)
    (rest : Option Container → QueueProg) : QueueProg :=
  .act
    (fun q => (q.deref p).map (fun _ => q))
    (fun q => rest ((q.deref p).bind Node.container))

def writeContainer
    (p : Option Addr)
    (container : Container)
    (rest : QueueProg) : QueueProg :=
  .act
    (fun q => do
      let a ← p
      let node ← q.heap a
      return q.store a
        (some { node with container := some container }))
    (fun _ => rest)

end Qlist

end FzEvent

------------------------------------------------------------
-- Operations
------------------------------------------------------------

namespace FzEvent

open LockedProgram

namespace Qlist

/- `++count`, the exit macro and `return 0` of `push`. -/
def pushDone : QueueProg :=
  readCount fun n =>
    writeCount (n + 1) <|
      .exit <|
        .ret (.code 0)

/- `push`; `a` is the address that `malloc` returns. -/
def push
    (data : Addr)
    (len : UInt32)
    (a : Addr) : QueueProg :=
  alloc a <|
    writeContainer (some a) ⟨data, len⟩ <|
      writeNext (some a) none <|
        .enter <|
          readTail fun tail =>
            match tail with
            | some _ =>
                readTail fun tail =>
                  writeNext tail (some a) <|
                    readTail fun tail =>
                      readNext tail fun next =>
                        writeTail next pushDone
            | none =>
                writeTail (some a) <|
                  readTail fun tail =>
                    writeHead tail pushDone

/- `free`, `--count`, the exit macro and the result of `pop`. -/
def popDone
    (removeNode : Option Addr)
    (ret : Option Container) : QueueProg :=
  free removeNode <|
    readCount fun n =>
      writeCount (n - 1) <|
        .exit <|
          .ret (.container ret)

/- `pop`; on an empty queue it returns without the exit macro. -/
def pop : QueueProg :=
  .enter <|
    readHead fun head =>
      match head with
      | none => .ret (.container none)
      | some _ =>
          readHead fun removeNode =>
            readContainer removeNode fun ret =>
              readHead fun head =>
                readNext head fun next =>
                  match next with
                  | some _ =>
                      readHead fun head =>
                        readNext head fun next =>
                          writeHead next <|
                            popDone removeNode ret
                  | none =>
                      writeHead none <|
                        writeTail none <|
                          popDone removeNode ret

/- `is_empty` -/
def isEmpty : QueueProg :=
  .enter <|
    readHead fun head =>
      .exit <|
        .ret (.bool head.isNone)

/- The calls that threads make on the queue. -/
inductive Op
| push (data : Addr) (len : UInt32) (a : Addr)
| pop
| isEmpty
deriving DecidableEq, Repr

/- The program of a call. -/
def code : Op → QueueProg
| .push data len a => push data len a
| .pop => pop
| .isEmpty => isEmpty

end Qlist

end FzEvent

------------------------------------------------------------
-- The Lock Macros
------------------------------------------------------------

namespace FzEvent

open LockedProgram

/- `_NODE_UNLOCK` -/
def nodeUnlock : MutexCall :=
  .unlock

/- `_NODE_TRYLOCK`, which is defined as an unlock. -/
def nodeTrylock : MutexCall :=
  .unlock

/- The macros around the critical sections of `qlist`. -/
def nodeMacros : Macros where
  enter := nodeTrylock
  exit := nodeUnlock

/- Any number of threads on one queue. -/
def sendQueue (T : Type) [DecidableEq T] :
    Transition.System (World T Qlist Qlist.Ret)
      (Label T Qlist.Op) :=
  system nodeMacros Qlist.code Qlist.empty

/-
  A run of the queue keeps mutual exclusion and lock balance
  in all its states exactly when no thread enters a critical
  section while another one is inside, and no operation
  returns.
-/
theorem sendQueue_always_iff_guarded
    (T : Type) [DecidableEq T]
    (labels : List (Label T Qlist.Op))
    (hRun :
      ((sendQueue T).exec (sendQueue T).init
        labels).isSome) :
    (sendQueue T).Always
        (fun w => w.Exclusive ∧ w.Balanced)
        (sendQueue T).init labels ↔
      (sendQueue T).Meets
        (fun w label => w.Guarded label)
        (sendQueue T).init labels :=
  always_iff_guarded rfl rfl labels hRun

/- A push by one thread, up to its critical section. -/
def pushEntered
    (i data a : Nat) : List (Label Nat Qlist.Op) :=
  [.call i (.push data 1 a), .run i, .run i, .run i, .run i]

theorem sendQueue_always_iff_guarded_pushEntered :
    (sendQueue Nat).Always
        (fun w => w.Exclusive ∧ w.Balanced)
        (sendQueue Nat).init (pushEntered 0 100 0) ↔
      (sendQueue Nat).Meets
        (fun w label => w.Guarded label)
        (sendQueue Nat).init (pushEntered 0 100 0) :=
  sendQueue_always_iff_guarded Nat (pushEntered 0 100 0)
    (by decide)

/- Two producers enter their critical sections together. -/
theorem not_always_exclusive :
    ¬ ∀ labels : List (Label Nat Qlist.Op),
      ((sendQueue Nat).exec (sendQueue Nat).init
        labels).isSome →
      (sendQueue Nat).Always
        (fun w => w.Exclusive ∧ w.Balanced)
        (sendQueue Nat).init labels := by
  intro hAll
  have hAlways :=
    hAll (pushEntered 0 100 0 ++ pushEntered 1 200 1)
      (by decide)
  have hBoth :
      ((sendQueue Nat).exec (sendQueue Nat).init
        (pushEntered 0 100 0 ++ pushEntered 1 200 1)).map
          (fun w =>
            ((w.threads 0).inside, (w.threads 1).inside)) =
        some (true, true) := by
    decide
  rcases Option.map_eq_some_iff.mp hBoth with
    ⟨w, hRun, hInside⟩
  rw [Prod.mk.injEq] at hInside
  have hExclusive :=
    (hAlways _ [] w (List.append_nil _).symm hRun).1
  exact absurd
    (hExclusive 0 1 hInside.1 hInside.2) (by decide)

end FzEvent

import FzEvent.Lib.Transition
import FzEvent.Transport.TcpServer
import Mathlib.Data.List.Perm.Basic
import Mathlib.Data.List.Perm.Lattice

/-
  The two sockets of `tcp_server` over a whole run of the
  program: the loops around `init` and `wait_client`, the
  threads that send and receive, `destroy`, and the destructor
  at the end. Other parts of the program open and close
  descriptors of their own all the time.

  Main declarations:
    * `FzEvent.RunPhase`, `FzEvent.SocketCall`,
      `FzEvent.Sockets` and `FzEvent.sockets`
    * `Sockets.Accounts` and `Sockets.Placed`
    * `Sockets.Overwritten`
    * `FzEvent.sockets_owned`
    * `FzEvent.socket_called_once`
-/

------------------------------------------------------------
-- The Calls
------------------------------------------------------------

namespace FzEvent

open Transition

/-
  Where `run` is: in `make_socket`, at the first or second
  `fcntl` of `init`, at `bind`, behind a failed `init`, at
  `select`, `accept` or `fcntl` of `wait_client`, behind a
  failed `wait_client`, waiting for the end of the threads, in
  one of the halves of `destroy`, or at its end. `destroy` is
  called by `run` and by the destructor (`atExit`).
-/
inductive RunPhase
| makeSocket
| reuse
| nonblock
| bind
| initFailed
| select
| accept
| clientNonblock
| waitFailed
| running
| destroySock (atExit : Bool)
| destroyClient (atExit : Bool)
| exited
deriving DecidableEq, Repr

/-
  The system calls with their results, the clock's test behind
  a failure, the end of the threads, and what other parts of
  the program do with descriptors. `select` is `true` unless it
  returns 0.
-/
inductive SocketCall
| socket (answer : Option Int32)
| haveSocket
| reuse (ok : Bool)
| nonblock (ok : Bool)
| bind (ok : Bool)
| initAgain
| initTimeout
| select (ready : Bool)
| accept (answer : Option Int32)
| clientNonblock (ok : Bool)
| waitAgain
| waitTimeout
| write
| recv
| joined
| closeSock
| closeClient
| otherOpens (fd : Int32)
| otherCloses (fd : Int32)
deriving DecidableEq, Repr

/-
  The server with its listening socket. Of the kernel: the
  server's open descriptors, those of others, and which of the
  server's do not block. `lost` are clients that a later
  `accept` overwrote in the server's variable, with another one
  or with -1.
-/
structure Sockets where
  phase : RunPhase
  server : TcpServer
  sock : Int32
  mine : List Int32
  others : List Int32
  nonblocking : List Int32
  lost : List Int32

namespace Sockets

/- Standard input, output and error are open. -/
def init : Sockets where
  phase := .makeSocket
  server := ⟨false, 0⟩
  sock := 0
  mine := []
  others := [0, 1, 2]
  nonblocking := []
  lost := []

/- A descriptor that the kernel may give. -/
def Fresh (s : Sockets) (fd : Int32) : Prop :=
  0 ≤ fd.toInt ∧ fd ∉ s.mine ∧ fd ∉ s.others
deriving Decidable

/- A call on any other descriptor fails. -/
def IsOpen (s : Sockets) (fd : Int32) : Prop :=
  fd ∈ s.mine ∨ fd ∈ s.others
deriving Decidable

/- The descriptor in a variable of the server. -/
def held (fd : Int32) : List Int32 :=
  if fd = 0 ∨ fd = -1 then [] else [fd]

/- `accept` writes its result into `client_sock`. -/
def setClient
    (s : Sockets)
    (fd : Int32) : Sockets :=
  { s with
    server := { s.server with clientSock := fd }
    lost := held s.server.clientSock ++ s.lost }

/- `close`, whoever the descriptor belongs to -/
def close
    (s : Sockets)
    (fd : Int32) : Sockets :=
  { s with
    mine := s.mine.erase fd
    others := s.others.erase fd
    nonblocking := s.nonblocking.filter (· ≠ fd) }

/- `destroy` comes once more, in the destructor. -/
def behindDestroy : Bool → RunPhase
| true => .exited
| false => .destroySock true

/-
  One call, `none` when the program does not make it here or
  the kernel cannot answer so.
-/
def step
    (s : Sockets) : SocketCall → Option Sockets
| .socket none =>
    if s.phase = .makeSocket ∧ s.sock = 0 then
      some { s with sock := -1, phase := .initFailed }
    else
      none
| .socket (some fd) =>
    if s.phase = .makeSocket ∧ s.sock = 0 ∧ s.Fresh fd then
      some { s with
        sock := fd
        mine := fd :: s.mine
        phase := .reuse }
    else
      none
| .haveSocket =>
    if s.phase = .makeSocket ∧ s.sock ≠ 0 then
      some { s with phase := .reuse }
    else
      none
| .reuse ok =>
    if s.phase = .reuse ∧ (ok = true → s.IsOpen s.sock) then
      some { s with
        phase := if ok then .nonblock else .initFailed }
    else
      none
| .nonblock ok =>
    if s.phase = .nonblock ∧ (ok = true → s.IsOpen s.sock) then
      if ok then
        some { s with
          nonblocking := s.sock :: s.nonblocking
          phase := .bind }
      else
        some { s with phase := .initFailed }
    else
      none
| .bind ok =>
    if s.phase = .bind ∧ (ok = true → s.IsOpen s.sock) then
      if ok then
        -- the result of `listen` is not looked at
        some { s with
          server := { s.server with isInitialize := true }
          phase := .select }
      else
        some { s with phase := .initFailed }
    else
      none
| .initAgain =>
    if s.phase = .initFailed then
      some { s with phase := .makeSocket }
    else
      none
| .initTimeout =>
    if s.phase = .initFailed then
      some { s with phase := .destroySock true }
    else
      none
| .select ready =>
    if s.phase = .select then
      some { s with
        phase := if ready then .accept else .waitFailed }
    else
      none
| .accept none =>
    if s.phase = .accept then
      some { s.setClient (-1) with phase := .waitFailed }
    else
      none
| .accept (some fd) =>
    if s.phase = .accept ∧ s.IsOpen s.sock ∧ s.Fresh fd then
      some { s.setClient fd with
        mine := fd :: s.mine
        phase := .clientNonblock }
    else
      none
| .clientNonblock ok =>
    if s.phase = .clientNonblock ∧
        (ok = true → s.IsOpen s.sock) then
      if ok then
        -- on the listening socket once more
        some { s with
          nonblocking := s.sock :: s.nonblocking
          phase := .running }
      else
        some { s with phase := .waitFailed }
    else
      none
| .waitAgain =>
    if s.phase = .waitFailed then
      some { s with phase := .select }
    else
      none
| .waitTimeout =>
    if s.phase = .waitFailed then
      some { s with phase := .destroySock true }
    else
      none
| .write => if s.phase = .running then some s else none
| .recv => if s.phase = .running then some s else none
| .joined =>
    if s.phase = .running then
      some { s with phase := .destroySock false }
    else
      none
| .closeSock =>
    match s.phase with
    | .destroySock atExit =>
        if s.sock = 0 then
          some { s with phase := .destroyClient atExit }
        else
          some { s.close s.sock with
            sock := 0
            phase := .destroyClient atExit }
    | _ => none
| .closeClient =>
    match s.phase with
    | .destroyClient atExit =>
        if s.server.clientSock = 0 then
          some { s with
            server := ⟨false, 0⟩
            phase := behindDestroy atExit }
        else
          some { s.close s.server.clientSock with
            server := ⟨false, 0⟩
            phase := behindDestroy atExit }
    | _ => none
| .otherOpens fd =>
    if s.Fresh fd then
      some { s with others := fd :: s.others }
    else
      none
| .otherCloses fd =>
    -- nothing closes standard input
    if fd ∈ s.others ∧ fd ≠ 0 then
      some { s with others := s.others.filter (· ≠ fd) }
    else
      none

/- The descriptors that the server passes to system calls. -/
def uses
    (s : Sockets) : SocketCall → List Int32
| .reuse _ => [s.sock]
| .nonblock _ => [s.sock]
| .bind _ => [s.sock]
| .select _ => [s.sock]
| .accept _ => [s.sock]
| .clientNonblock _ => [s.sock]
| .write => [s.server.clientSock]
| .recv => [s.server.clientSock]
| .closeSock => if s.sock = 0 then [] else [s.sock]
| .closeClient =>
    if s.server.clientSock = 0 then
      []
    else
      [s.server.clientSock]
| _ => []

end Sockets

/- A run of the program, as far as the server's sockets go. -/
def sockets : System Sockets SocketCall where
  init := .init
  step := Sockets.step

end FzEvent

------------------------------------------------------------
-- Whose Descriptors
------------------------------------------------------------

namespace FzEvent

namespace Sockets

/- Neither "none" nor a failed call's result. -/
def IsHeld (fd : Int32) : Prop :=
  fd ≠ 0 ∧ fd ≠ -1

theorem held_of_isHeld
    {fd : Int32}
    (hHeld : IsHeld fd) :
    held fd = [fd] := by
  rw [held, if_neg]
  rintro (hZero | hFailed)
  · exact hHeld.1 hZero
  · exact hHeld.2 hFailed

/-
  The server's open descriptors are those in its variables and
  the lost clients, each once, and no one else has them.
-/
structure Accounts (s : Sockets) : Prop where
  stdin : 0 ∈ s.others
  others_nonneg : ∀ fd ∈ s.others, 0 ≤ fd.toInt
  isHeld : ∀ fd ∈ s.mine, IsHeld fd
  disjoint : ∀ fd ∈ s.mine, fd ∉ s.others
  nodup : s.mine.Nodup
  accounted :
    s.mine.Perm
      (held s.sock ++ (held s.server.clientSock ++ s.lost))
  flags : ∀ fd ∈ s.nonblocking, fd ∈ s.mine

variable {s t : Sockets}

theorem accounts_init : init.Accounts where
  stdin := List.mem_cons_self
  others_nonneg := by simp [init]
  isHeld _ hMem := nomatch hMem
  disjoint _ hMem := nomatch hMem
  nodup := List.nodup_nil
  accounted := by simp [init, held]
  flags _ hMem := nomatch hMem

/- A new descriptor is a proper one. -/
theorem Accounts.isHeld_of_fresh
    (hAccounts : s.Accounts)
    {fd : Int32}
    (hFresh : s.Fresh fd) :
    IsHeld fd := by
  constructor
  · rintro rfl
    exact hFresh.2.2 hAccounts.stdin
  · rintro rfl
    exact absurd hFresh.1 (by decide)

/- A variable that is held is an open descriptor. -/
theorem Accounts.sock_mem
    (hAccounts : s.Accounts)
    (hHeld : IsHeld s.sock) :
    s.sock ∈ s.mine := by
  rw [hAccounts.accounted.mem_iff, held_of_isHeld hHeld]
  simp

theorem Accounts.client_mem
    (hAccounts : s.Accounts)
    (hHeld : IsHeld s.server.clientSock) :
    s.server.clientSock ∈ s.mine := by
  rw [hAccounts.accounted.mem_iff, held_of_isHeld hHeld]
  simp

/- The two variables are never the same descriptor. -/
theorem Accounts.sock_ne_client
    (hAccounts : s.Accounts)
    (hSock : IsHeld s.sock)
    (hClient : IsHeld s.server.clientSock) :
    s.sock ≠ s.server.clientSock := by
  have hNodup := hAccounts.accounted.nodup_iff.mp
    hAccounts.nodup
  rw [held_of_isHeld hSock, held_of_isHeld hClient] at hNodup
  intro hSame
  simp [hSame] at hNodup

/- A step that keeps the descriptors. -/
theorem Accounts.of_eq
    (hAccounts : s.Accounts)
    (hSock : t.sock = s.sock)
    (hClient : t.server.clientSock = s.server.clientSock)
    (hMine : t.mine = s.mine)
    (hOthers : t.others = s.others)
    (hLost : t.lost = s.lost)
    (hFlags : ∀ fd ∈ t.nonblocking, fd ∈ s.mine) :
    t.Accounts where
  stdin := hOthers ▸ hAccounts.stdin
  others_nonneg := hOthers ▸ hAccounts.others_nonneg
  isHeld := hMine ▸ hAccounts.isHeld
  disjoint := by
    rw [hMine, hOthers]
    exact hAccounts.disjoint
  nodup := hMine ▸ hAccounts.nodup
  accounted := by
    rw [hMine, hSock, hClient, hLost]
    exact hAccounts.accounted
  flags := by
    rw [hMine]
    exact hFlags

/- The kernel gives a new descriptor. -/
theorem Accounts.of_fresh
    (hAccounts : s.Accounts)
    {fd : Int32}
    (hFresh : s.Fresh fd)
    (hMine : t.mine = fd :: s.mine)
    (hOthers : t.others = s.others)
    (hFlags : t.nonblocking = s.nonblocking)
    (hAccounted :
      t.mine.Perm
        (held t.sock ++ (held t.server.clientSock ++ t.lost))) :
    t.Accounts where
  stdin := hOthers ▸ hAccounts.stdin
  others_nonneg := hOthers ▸ hAccounts.others_nonneg
  isHeld := by
    rw [hMine, List.forall_mem_cons]
    exact ⟨hAccounts.isHeld_of_fresh hFresh, hAccounts.isHeld⟩
  disjoint := by
    rw [hMine, hOthers, List.forall_mem_cons]
    exact ⟨hFresh.2.2, hAccounts.disjoint⟩
  nodup := by
    rw [hMine, List.nodup_cons]
    exact ⟨hFresh.2.1, hAccounts.nodup⟩
  accounted := hAccounted
  flags := by
    rw [hMine, hFlags]
    intro other hMem
    exact List.mem_cons_of_mem _ (hAccounts.flags other hMem)

/- What is not the server's is not touched by its `close`. -/
theorem Accounts.others_erase
    (hAccounts : s.Accounts)
    {fd : Int32}
    (hOwn : fd ∈ s.mine ∨ fd = -1) :
    s.others.erase fd = s.others := by
  apply List.erase_of_not_mem
  rcases hOwn with hMine | rfl
  · exact hAccounts.disjoint fd hMine
  · intro hMem
    exact absurd (hAccounts.others_nonneg _ hMem) (by decide)

/- A variable is closed, and holds nothing any more. -/
theorem Accounts.of_close
    (hAccounts : s.Accounts)
    {fd : Int32}
    (hOwn : fd ∈ s.mine ∨ fd = -1)
    (hMine : t.mine = s.mine.erase fd)
    (hOthers : t.others = s.others.erase fd)
    (hFlags :
      t.nonblocking = s.nonblocking.filter (· ≠ fd))
    (hAccounted :
      t.mine.Perm
        (held t.sock ++ (held t.server.clientSock ++ t.lost))) :
    t.Accounts := by
  rw [hAccounts.others_erase hOwn] at hOthers
  have hSubset : ∀ other ∈ t.mine, other ∈ s.mine := by
    rw [hMine]
    exact fun other hMem => List.mem_of_mem_erase hMem
  constructor
  · exact hOthers ▸ hAccounts.stdin
  · exact hOthers ▸ hAccounts.others_nonneg
  · exact fun other hMem =>
      hAccounts.isHeld other (hSubset other hMem)
  · rw [hOthers]
    exact fun other hMem =>
      hAccounts.disjoint other (hSubset other hMem)
  · rw [hMine]
    exact hAccounts.nodup.erase fd
  · exact hAccounted
  · intro other hMem
    rw [hFlags, List.mem_filter, decide_eq_true_eq] at hMem
    rw [hMine, hAccounts.nodup.mem_erase_iff]
    exact ⟨hMem.2, hAccounts.flags other hMem.1⟩

end Sockets

end FzEvent

------------------------------------------------------------
-- Phase by Phase
------------------------------------------------------------

namespace FzEvent

open Transition

namespace Sockets

/- `init` has succeeded; the socket does not block. -/
structure Listening
    (isInitialize : Bool)
    (sock : Int32)
    (nonblocking : List Int32) : Prop where
  ready : isInitialize = true
  isHeld : IsHeld sock
  flagged : sock ∈ nonblocking

/- `accept` has succeeded; the client blocks. -/
structure Connected
    (server : TcpServer)
    (sock : Int32)
    (nonblocking : List Int32) : Prop extends
    Listening server.isInitialize sock nonblocking where
  client_isHeld : IsHeld server.clientSock
  blocking : server.clientSock ∉ nonblocking

/- What holds of the variables in each phase. -/
def Placed (s : Sockets) : Prop :=
  match s.phase with
  | .makeSocket => True
  | .reuse => s.sock ≠ 0
  | .nonblock => IsHeld s.sock
  | .bind => IsHeld s.sock ∧ s.sock ∈ s.nonblocking
  | .initFailed => s.sock ≠ 0
  | .select =>
      Listening s.server.isInitialize s.sock s.nonblocking
  | .accept =>
      Listening s.server.isInitialize s.sock s.nonblocking
  | .clientNonblock => Connected s.server s.sock s.nonblocking
  | .waitFailed =>
      Listening s.server.isInitialize s.sock s.nonblocking
  | .running => Connected s.server s.sock s.nonblocking
  | .destroySock _ => True
  | .destroyClient _ => s.sock = 0
  | .exited => s.sock = 0 ∧ s.server.clientSock = 0

variable {s t : Sockets}

/- `fcntl` succeeds on nothing but a descriptor. -/
theorem Accounts.isHeld_of_isOpen
    (hAccounts : s.Accounts)
    (hSock : s.sock ≠ 0)
    (hOpen : s.IsOpen s.sock) :
    IsHeld s.sock := by
  refine ⟨hSock, ?_⟩
  intro hFailed
  rw [hFailed] at hOpen
  rcases hOpen with hMine | hOther
  · exact (hAccounts.isHeld _ hMine).2 rfl
  · exact absurd (hAccounts.others_nonneg _ hOther) (by decide)

/- The invariant. -/
structure Owned (s : Sockets) : Prop where
  accounts : s.Accounts
  placed : s.Placed

theorem owned_init : init.Owned where
  accounts := accounts_init
  placed := trivial

/- A step that only goes to another phase. -/
theorem Accounts.setPhase
    (hAccounts : s.Accounts)
    (phase : RunPhase) :
    { s with phase := phase }.Accounts :=
  hAccounts.of_eq rfl rfl rfl rfl rfl hAccounts.flags

theorem Owned.socket
    (hOwned : s.Owned)
    {answer : Option Int32}
    (hStep : s.step (.socket answer) = some t) :
    t.Owned := by
  have hAccounts := hOwned.accounts
  cases answer with
  | none =>
      simp only [step] at hStep
      split_ifs at hStep with hHere
      cases hStep
      refine ⟨⟨hAccounts.stdin, hAccounts.others_nonneg,
        hAccounts.isHeld, hAccounts.disjoint, hAccounts.nodup,
        ?_, hAccounts.flags⟩, ?_⟩
      · have hSame := hAccounts.accounted
        rw [hHere.2] at hSame
        exact hSame
      · exact (by decide : (-1 : Int32) ≠ 0)
  | some fd =>
      simp only [step] at hStep
      split_ifs at hStep with hHere
      cases hStep
      have hHeld := hAccounts.isHeld_of_fresh hHere.2.2
      refine ⟨hAccounts.of_fresh hHere.2.2 rfl rfl rfl ?_,
        hHeld.1⟩
      have hSame := hAccounts.accounted
      rw [hHere.2.1] at hSame
      rw [held_of_isHeld hHeld]
      exact hSame.cons fd

theorem Owned.reuse
    (hOwned : s.Owned)
    {ok : Bool}
    (hStep : s.step (.reuse ok) = some t) :
    t.Owned := by
  have hAccounts := hOwned.accounts
  have hPlaced := hOwned.placed
  simp only [step] at hStep
  split_ifs at hStep with hHere hOk
  · cases hStep
    rw [Placed, hHere.1] at hPlaced
    exact ⟨hAccounts.setPhase _,
      hAccounts.isHeld_of_isOpen hPlaced (hHere.2 hOk)⟩
  · cases hStep
    rw [Placed, hHere.1] at hPlaced
    exact ⟨hAccounts.setPhase _, hPlaced⟩

theorem Owned.nonblock
    (hOwned : s.Owned)
    {ok : Bool}
    (hStep : s.step (.nonblock ok) = some t) :
    t.Owned := by
  have hAccounts := hOwned.accounts
  have hPlaced := hOwned.placed
  simp only [step] at hStep
  split_ifs at hStep with hHere hOk
  · cases hStep
    rw [Placed, hHere.1] at hPlaced
    refine ⟨hAccounts.of_eq rfl rfl rfl rfl rfl ?_, hPlaced,
      List.mem_cons_self⟩
    rw [List.forall_mem_cons]
    exact ⟨hAccounts.sock_mem hPlaced, hAccounts.flags⟩
  · cases hStep
    rw [Placed, hHere.1] at hPlaced
    exact ⟨hAccounts.setPhase _, hPlaced.1⟩

theorem Owned.bind
    (hOwned : s.Owned)
    {ok : Bool}
    (hStep : s.step (.bind ok) = some t) :
    t.Owned := by
  have hAccounts := hOwned.accounts
  have hPlaced := hOwned.placed
  simp only [step] at hStep
  split_ifs at hStep with hHere hOk
  · cases hStep
    rw [Placed, hHere.1] at hPlaced
    exact ⟨hAccounts.of_eq rfl rfl rfl rfl rfl hAccounts.flags,
      rfl, hPlaced.1, hPlaced.2⟩
  · cases hStep
    rw [Placed, hHere.1] at hPlaced
    exact ⟨hAccounts.setPhase _, hPlaced.1.1⟩

theorem Owned.accept
    (hOwned : s.Owned)
    {answer : Option Int32}
    (hStep : s.step (.accept answer) = some t) :
    t.Owned := by
  have hAccounts := hOwned.accounts
  have hPlaced := hOwned.placed
  cases answer with
  | none =>
      simp only [step] at hStep
      split_ifs at hStep with hHere
      cases hStep
      rw [Placed, hHere] at hPlaced
      exact ⟨⟨hAccounts.stdin, hAccounts.others_nonneg,
          hAccounts.isHeld, hAccounts.disjoint, hAccounts.nodup,
          hAccounts.accounted, hAccounts.flags⟩, hPlaced⟩
  | some fd =>
      simp only [step] at hStep
      split_ifs at hStep with hHere
      cases hStep
      rw [Placed, hHere.1] at hPlaced
      have hFresh := hHere.2.2
      have hHeld := hAccounts.isHeld_of_fresh hFresh
      refine ⟨hAccounts.of_fresh hFresh rfl rfl rfl ?_,
        hPlaced, hHeld, ?_⟩
      · have hMoved := hAccounts.accounted.cons fd
        rw [setClient, held_of_isHeld hHeld]
        exact hMoved.trans List.perm_middle.symm
      · intro hMem
        exact hFresh.2.1 (hAccounts.flags fd hMem)

theorem Owned.clientNonblock
    (hOwned : s.Owned)
    {ok : Bool}
    (hStep : s.step (.clientNonblock ok) = some t) :
    t.Owned := by
  have hAccounts := hOwned.accounts
  have hPlaced := hOwned.placed
  simp only [step] at hStep
  split_ifs at hStep with hHere hOk
  · cases hStep
    rw [Placed, hHere.1] at hPlaced
    refine ⟨hAccounts.of_eq rfl rfl rfl rfl rfl ?_,
      ⟨hPlaced.ready, hPlaced.isHeld,
        List.mem_cons_self⟩, hPlaced.client_isHeld, ?_⟩
    · rw [List.forall_mem_cons]
      exact ⟨hAccounts.sock_mem hPlaced.isHeld, hAccounts.flags⟩
    · have hOther :=
        hAccounts.sock_ne_client hPlaced.isHeld hPlaced.client_isHeld
      rw [List.mem_cons, not_or]
      exact ⟨hOther.symm, hPlaced.blocking⟩
  · cases hStep
    rw [Placed, hHere.1] at hPlaced
    exact ⟨hAccounts.setPhase _, hPlaced.toListening⟩

/- A variable that is not 0 is closed as the server's own. -/
theorem Accounts.mem_or_failed
    {fd : Int32}
    (hMem : IsHeld fd → fd ∈ s.mine)
    (hSome : fd ≠ 0) :
    fd ∈ s.mine ∨ fd = -1 := by
  by_cases hFailed : fd = -1
  · exact Or.inr hFailed
  · exact Or.inl (hMem ⟨hSome, hFailed⟩)

/- What is accounted for without a variable that is closed. -/
theorem perm_erase_held
    {mine rest : List Int32}
    {fd : Int32}
    (hPerm : mine.Perm (held fd ++ rest))
    (hNot : fd = -1 → fd ∉ mine)
    (hSome : fd ≠ 0) :
    (mine.erase fd).Perm rest := by
  by_cases hFailed : fd = -1
  · rw [List.erase_of_not_mem (hNot hFailed)]
    rw [held, if_pos (Or.inr hFailed)] at hPerm
    exact hPerm
  · rw [held_of_isHeld ⟨hSome, hFailed⟩] at hPerm
    have hErased := hPerm.erase fd
    rwa [List.singleton_append, List.erase_cons_head] at hErased

theorem Owned.closeSock
    (hOwned : s.Owned)
    (hStep : s.step .closeSock = some t) :
    t.Owned := by
  have hAccounts := hOwned.accounts
  simp only [step] at hStep
  split at hStep
  · next atExit hHere =>
    split_ifs at hStep with hNone
    · cases hStep
      exact ⟨hAccounts.setPhase _, hNone⟩
    · cases hStep
      refine ⟨hAccounts.of_close
        (Accounts.mem_or_failed hAccounts.sock_mem hNone)
        rfl rfl rfl ?_, rfl⟩
      apply perm_erase_held hAccounts.accounted _ hNone
      intro hFailed hMem
      exact (hAccounts.isHeld _ hMem).2 hFailed
  · cases hStep

theorem Owned.closeClient
    (hOwned : s.Owned)
    (hStep : s.step .closeClient = some t) :
    t.Owned := by
  have hAccounts := hOwned.accounts
  have hPlaced := hOwned.placed
  simp only [step] at hStep
  split at hStep
  · next atExit hHere =>
    rw [Placed, hHere] at hPlaced
    have hSame := hAccounts.accounted
    have hPhase :
        ∀ u : Sockets, u.sock = 0 → u.server.clientSock = 0 →
          u.phase = behindDestroy atExit → u.Placed := by
      intro u hSock hClient hNext
      rw [Placed, hNext]
      cases atExit with
      | true => exact ⟨hSock, hClient⟩
      | false => trivial
    split_ifs at hStep with hNone
    · cases hStep
      refine ⟨hAccounts.of_eq rfl hNone.symm rfl rfl rfl
        hAccounts.flags, ?_⟩
      exact hPhase _ hPlaced rfl rfl
    · cases hStep
      refine ⟨hAccounts.of_close
        (Accounts.mem_or_failed hAccounts.client_mem hNone)
        rfl rfl rfl ?_, hPhase _ hPlaced rfl rfl⟩
      have hHeldSock : held s.sock = [] := by
        rw [hPlaced]
        rfl
      rw [hHeldSock, List.nil_append] at hSame
      change (s.mine.erase s.server.clientSock).Perm
        (held s.sock ++ (held 0 ++ s.lost))
      rw [hHeldSock]
      apply perm_erase_held hSame _ hNone
      intro hFailed hMem
      exact (hAccounts.isHeld _ hMem).2 hFailed
  · cases hStep

theorem Owned.otherOpens
    (hOwned : s.Owned)
    {fd : Int32}
    (hStep : s.step (.otherOpens fd) = some t) :
    t.Owned := by
  have hAccounts := hOwned.accounts
  simp only [step] at hStep
  split_ifs at hStep with hFresh
  cases hStep
  refine ⟨⟨List.mem_cons_of_mem _ hAccounts.stdin, ?_,
    hAccounts.isHeld, ?_, hAccounts.nodup,
    hAccounts.accounted, hAccounts.flags⟩, hOwned.placed⟩
  · rw [List.forall_mem_cons]
    exact ⟨hFresh.1, hAccounts.others_nonneg⟩
  · intro own hMem hOther
    rcases List.mem_cons.mp hOther with rfl | hOld
    · exact hFresh.2.1 hMem
    · exact hAccounts.disjoint own hMem hOld

theorem Owned.otherCloses
    (hOwned : s.Owned)
    {fd : Int32}
    (hStep : s.step (.otherCloses fd) = some t) :
    t.Owned := by
  have hAccounts := hOwned.accounts
  simp only [step] at hStep
  split_ifs at hStep with hHere
  cases hStep
  refine ⟨⟨?_, ?_, hAccounts.isHeld, ?_, hAccounts.nodup,
    hAccounts.accounted, hAccounts.flags⟩, hOwned.placed⟩
  · simp [hAccounts.stdin, hHere.2.symm]
  · intro other hMem
    exact hAccounts.others_nonneg other
      (List.mem_of_mem_filter hMem)
  · intro own hMem hOther
    exact hAccounts.disjoint own hMem
      (List.mem_of_mem_filter hOther)

/- The step lemma. -/
theorem owned_step
    (hOwned : s.Owned)
    {call : SocketCall}
    (hStep : s.step call = some t) :
    t.Owned := by
  have hAccounts := hOwned.accounts
  have hPlaced := hOwned.placed
  cases call with
  | socket answer => exact hOwned.socket hStep
  | reuse ok => exact hOwned.reuse hStep
  | nonblock ok => exact hOwned.nonblock hStep
  | bind ok => exact hOwned.bind hStep
  | accept answer => exact hOwned.accept hStep
  | clientNonblock ok => exact hOwned.clientNonblock hStep
  | closeSock => exact hOwned.closeSock hStep
  | closeClient => exact hOwned.closeClient hStep
  | otherOpens fd => exact hOwned.otherOpens hStep
  | otherCloses fd => exact hOwned.otherCloses hStep
  | select ready =>
      simp only [step] at hStep
      split_ifs at hStep with hHere hReady <;>
        cases hStep <;>
        rw [Placed, hHere] at hPlaced
      · exact ⟨hAccounts.setPhase _, hPlaced⟩
      · exact ⟨hAccounts.setPhase _, hPlaced⟩
  | haveSocket =>
      simp only [step] at hStep
      split_ifs at hStep with hHere
      cases hStep
      exact ⟨hAccounts.setPhase _, hHere.2⟩
  | waitAgain =>
      simp only [step] at hStep
      split_ifs at hStep with hHere
      cases hStep
      rw [Placed, hHere] at hPlaced
      exact ⟨hAccounts.setPhase _, hPlaced⟩
  | write | recv =>
      simp only [step] at hStep
      split_ifs at hStep with hHere
      cases hStep
      exact hOwned
  | initAgain | initTimeout | waitTimeout | joined =>
      simp only [step] at hStep
      split_ifs at hStep with hHere
      cases hStep
      exact ⟨hAccounts.setPhase _, trivial⟩

/- The run lemma. -/
theorem owned_of_exec
    {calls : List SocketCall}
    (hRun : sockets.exec sockets.init calls = some s) :
    s.Owned :=
  sockets.invariant_of_reachable owned_init
    (fun _ _ _ hOwned hStep => owned_step hOwned hStep)
    ⟨calls, hRun⟩

end Sockets

end FzEvent

------------------------------------------------------------
-- Lost Clients
------------------------------------------------------------

namespace FzEvent

open Transition

namespace Sockets

/- The last `accept` gave this client. -/
def Arrived
    (calls : List SocketCall)
    (fd : Int32) : Prop :=
  ∃ before after,
    calls = before ++ .accept (some fd) :: after ∧
      ∀ answer, .accept answer ∉ after

/- And the `fcntl` behind it failed. -/
def Refused
    (calls : List SocketCall)
    (fd : Int32) : Prop :=
  ∃ before after,
    calls = before ++ .accept (some fd) :: after ∧
      (∀ answer, .accept answer ∉ after) ∧
      .clientNonblock false ∈ after

/-
  One more `accept` came behind the failed `fcntl`, with a
  client or with -1.
-/
def Overwritten
    (calls : List SocketCall)
    (fd : Int32) : Prop :=
  ∃ answer before after,
    calls = before ++ .accept answer :: after ∧
      Refused before fd

/- The client is still to come, or is to be replaced. -/
def isAhead : RunPhase → Bool
| .clientNonblock => false
| .running => false
| .destroySock _ => false
| .destroyClient _ => false
| .exited => false
| _ => true

/- A split of a longer list is behind its end or before it. -/
theorem split_concat_iff
    {calls : List SocketCall}
    {call found : SocketCall}
    {P : List SocketCall → List SocketCall → Prop} :
    (∃ before after,
        calls ++ [call] = before ++ found :: after ∧
          P before after) ↔
      call = found ∧ P calls [] ∨
        ∃ before after,
          calls = before ++ found :: after ∧
            P before (after ++ [call]) := by
  constructor
  · rintro ⟨before, after, hSplit, hHolds⟩
    rcases List.eq_nil_or_concat after with rfl | ⟨rest, last, rfl⟩
    · rcases List.append_inj' hSplit rfl with ⟨rfl, hLast⟩
      cases hLast
      exact Or.inl ⟨rfl, hHolds⟩
    · have hEnd :
          calls ++ [call] = (before ++ found :: rest) ++ [last] := by
        rw [hSplit, List.concat_eq_append]
        simp
      rcases List.append_inj' hEnd rfl with ⟨hSame, hLast⟩
      cases hLast
      rw [List.concat_eq_append] at hHolds
      exact Or.inr ⟨before, rest, hSame, hHolds⟩
  · rintro (⟨rfl, hHolds⟩ | ⟨before, after, rfl, hHolds⟩)
    · exact ⟨calls, [], rfl, hHolds⟩
    · exact ⟨before, after ++ [call], by simp, hHolds⟩

variable {calls : List SocketCall}
variable {call : SocketCall}
variable {fd : Int32}

theorem arrived_concat_accept
    {answer : Option Int32} :
    Arrived (calls ++ [.accept answer]) fd ↔
      answer = some fd := by
  rw [Arrived, split_concat_iff]
  constructor
  · rintro (⟨hSame, _⟩ | ⟨before, after, _, hNone⟩)
    · cases hSame
      rfl
    · exact absurd (by simp) (hNone answer)
  · rintro rfl
    exact Or.inl ⟨rfl, by simp⟩

theorem arrived_concat
    (hOther : ∀ answer, call ≠ .accept answer) :
    Arrived (calls ++ [call]) fd ↔ Arrived calls fd := by
  simp [Arrived, split_concat_iff, hOther, (hOther _).symm]

theorem refused_concat_accept
    {answer : Option Int32} :
    ¬Refused (calls ++ [.accept answer]) fd := by
  rw [Refused, split_concat_iff]
  rintro (⟨_, _, hFcntl⟩ | ⟨before, after, _, hNone, _⟩)
  · cases hFcntl
  · exact absurd (by simp) (hNone answer)

theorem refused_concat_fcntl :
    Refused (calls ++ [.clientNonblock false]) fd ↔
      Arrived calls fd := by
  simp [Refused, Arrived, split_concat_iff]

theorem refused_concat
    (hOther : ∀ answer, call ≠ .accept answer)
    (hFcntl : call ≠ .clientNonblock false) :
    Refused (calls ++ [call]) fd ↔ Refused calls fd := by
  simp [Refused, split_concat_iff, hOther, (hOther _).symm,
    hFcntl.symm]

theorem overwritten_concat_accept
    {answer : Option Int32} :
    Overwritten (calls ++ [.accept answer]) fd ↔
      Refused calls fd ∨ Overwritten calls fd := by
  simp only [Overwritten, split_concat_iff]
  constructor
  · rintro ⟨other, ⟨_, hRefused⟩ | hEarlier⟩
    · exact Or.inl hRefused
    · exact Or.inr ⟨other, hEarlier⟩
  · rintro (hRefused | ⟨other, hEarlier⟩)
    · exact ⟨answer, Or.inl ⟨rfl, hRefused⟩⟩
    · exact ⟨other, Or.inr hEarlier⟩

theorem overwritten_concat
    (hOther : ∀ answer, call ≠ .accept answer) :
    Overwritten (calls ++ [call]) fd ↔
      Overwritten calls fd := by
  simp only [Overwritten, split_concat_iff, hOther, false_and,
    false_or]

/- The calls that replace the client or let it go, and others. -/
theorem accept_or_fcntl_or_other
    (call : SocketCall) :
    (∃ answer, call = .accept answer) ∨
      (∃ ok, call = .clientNonblock ok) ∨
        (∀ answer, call ≠ .accept answer) ∧
          ∀ ok, call ≠ .clientNonblock ok := by
  cases call with
  | accept answer => exact Or.inl ⟨answer, rfl⟩
  | clientNonblock ok => exact Or.inr (Or.inl ⟨ok, rfl⟩)
  | _ => exact Or.inr (Or.inr ⟨nofun, nofun⟩)

variable {s t : Sockets}

/- Any other call keeps the client, or leaves the loops. -/
theorem step_other
    (hOther : ∀ answer, call ≠ .accept answer)
    (hFcntl : ∀ ok, call ≠ .clientNonblock ok)
    (hStep : s.step call = some t) :
    t.lost = s.lost ∧
      (t.phase = .clientNonblock →
        s.phase = .clientNonblock ∧
          t.server.clientSock = s.server.clientSock) ∧
      (isAhead t.phase = true →
        isAhead s.phase = true ∧
          t.server.clientSock = s.server.clientSock) := by
  cases call with
  | accept answer => exact absurd rfl (hOther answer)
  | clientNonblock ok => exact absurd rfl (hFcntl ok)
  | socket answer =>
      cases answer <;>
        simp only [step] at hStep <;>
        split_ifs at hStep with hHere <;>
        cases hStep <;>
        simp [isAhead, hHere.1]
  | closeSock | closeClient =>
      simp only [step] at hStep
      split at hStep
      · next atExit hHere =>
        split_ifs at hStep <;> cases hStep <;>
          cases atExit <;>
          simp [isAhead, close, behindDestroy]
      · cases hStep
  | reuse ok | select ok =>
      simp only [step] at hStep
      split_ifs at hStep with hHere hOk <;> cases hStep <;>
        simp [isAhead, hHere]
  | nonblock ok | bind ok =>
      simp only [step] at hStep
      split_ifs at hStep with hHere hOk <;> cases hStep <;>
        simp [isAhead, hHere.1]
  | otherOpens fd | otherCloses fd =>
      simp only [step] at hStep
      split_ifs at hStep
      cases hStep
      exact ⟨rfl, fun hHere => ⟨hHere, rfl⟩,
        fun hAhead => ⟨hAhead, rfl⟩⟩
  | _ =>
      simp only [step] at hStep
      split_ifs at hStep with hHere
      cases hStep
      simp [isAhead, hHere]

/-
  The lost clients are the overwritten ones. The variable has
  the last client: in front of the `fcntl` whatever becomes of
  it, and in the loops only when that failed.
-/
structure LostBy
    (calls : List SocketCall)
    (s : Sockets) : Prop where
  lost : ∀ fd, fd ∈ s.lost ↔ Overwritten calls fd
  arrived :
    s.phase = .clientNonblock →
      ∀ fd, Arrived calls fd ↔ fd = s.server.clientSock
  refused :
    isAhead s.phase = true →
      ∀ fd, Refused calls fd ↔ fd ∈ held s.server.clientSock

theorem lostBy_init : LostBy [] init where
  lost _ := by simp [init, Overwritten]
  arrived hHere := nomatch hHere
  refused _ _ := by simp [init, Refused, held]

theorem LostBy.accept
    (hLost : LostBy calls s)
    {answer : Option Int32}
    (hStep : s.step (.accept answer) = some t) :
    LostBy (calls ++ [.accept answer]) t := by
  have hOverwritten :
      s.phase = .accept →
        ∀ fd, fd ∈ held s.server.clientSock ++ s.lost ↔
          Overwritten (calls ++ [.accept answer]) fd := by
    intro hHere fd
    rw [overwritten_concat_accept, List.mem_append,
      hLost.refused (by rw [hHere]; rfl), hLost.lost]
  cases answer with
  | none =>
      simp only [step] at hStep
      split_ifs at hStep with hHere
      cases hStep
      refine ⟨hOverwritten hHere, nofun, ?_⟩
      intro _ fd
      simp [refused_concat_accept, setClient, held]
  | some new =>
      simp only [step] at hStep
      split_ifs at hStep with hHere
      cases hStep
      refine ⟨hOverwritten hHere.1, ?_, nofun⟩
      intro _ fd
      rw [arrived_concat_accept, Option.some.injEq]
      exact eq_comm

theorem LostBy.clientNonblock
    (hPlaced : s.Placed)
    (hLost : LostBy calls s)
    {ok : Bool}
    (hStep : s.step (.clientNonblock ok) = some t) :
    LostBy (calls ++ [.clientNonblock ok]) t := by
  have hOverwritten :
      ∀ fd, fd ∈ s.lost ↔
        Overwritten (calls ++ [.clientNonblock ok]) fd := by
    intro fd
    rw [overwritten_concat (by simp), hLost.lost]
  simp only [step] at hStep
  split_ifs at hStep with hHere hOk
  · cases hStep
    exact ⟨hOverwritten, nofun, nofun⟩
  · cases hStep
    rw [Bool.not_eq_true] at hOk
    subst hOk
    rw [Placed, hHere.1] at hPlaced
    refine ⟨hOverwritten, nofun, ?_⟩
    intro _ fd
    rw [refused_concat_fcntl, hLost.arrived hHere.1,
      held_of_isHeld hPlaced.client_isHeld, List.mem_singleton]

/- The step lemma. -/
theorem LostBy.step
    (hPlaced : s.Placed)
    (hLost : LostBy calls s)
    (hStep : s.step call = some t) :
    LostBy (calls ++ [call]) t := by
  rcases accept_or_fcntl_or_other call with
    ⟨answer, rfl⟩ | ⟨ok, rfl⟩ | ⟨hAccept, hFcntl⟩
  · exact hLost.accept hStep
  · exact hLost.clientNonblock hPlaced hStep
  · rcases step_other hAccept hFcntl hStep with
      ⟨hSame, hHere, hAhead⟩
    constructor
    · intro fd
      rw [hSame, overwritten_concat hAccept, hLost.lost]
    · intro hNext fd
      rcases hHere hNext with ⟨hBefore, hClient⟩
      rw [hClient, arrived_concat hAccept,
        hLost.arrived hBefore]
    · intro hNext fd
      rcases hAhead hNext with ⟨hBefore, hClient⟩
      rw [hClient, refused_concat hAccept (hFcntl false),
        hLost.refused hBefore]

/- The run lemma. -/
theorem lostBy_of_exec
    (hRun : sockets.exec sockets.init calls = some s) :
    LostBy calls s :=
  sockets.invariant_of_exec LostBy lostBy_init
    (fun _ _ _ _ hBefore hLost hStep =>
      hLost.step (owned_of_exec hBefore).placed hStep)
    hRun

/- A client that the next `accept` would overwrite. -/
def atRisk (s : Sockets) : Nat :=
  if isAhead s.phase then
    (held s.server.clientSock).length
  else
    0

theorem length_held_le :
    (held fd).length ≤ 1 := by
  rw [held]
  split_ifs <;> simp

/- One more client is lost only when `fcntl` failed on it. -/
theorem lost_step
    (hStep : s.step call = some t) :
    t.lost.length + t.atRisk ≤
      s.lost.length + s.atRisk +
        [call].count (.clientNonblock false) := by
  rcases accept_or_fcntl_or_other call with
    ⟨answer, rfl⟩ | ⟨ok, rfl⟩ | ⟨hAccept, hFcntl⟩
  · cases answer with
    | none =>
        simp only [step] at hStep
        split_ifs at hStep with hHere
        cases hStep
        simp [atRisk, isAhead, hHere, setClient, held,
          Nat.add_comm]
    | some new =>
        simp only [step] at hStep
        split_ifs at hStep with hHere
        cases hStep
        simp [atRisk, isAhead, hHere.1, setClient, Nat.add_comm]
  · simp only [step] at hStep
    split_ifs at hStep with hHere hOk
    · cases hStep
      simp only [atRisk, isAhead, Bool.false_eq_true, if_false]
      omega
    · cases hStep
      rw [Bool.not_eq_true] at hOk
      subst hOk
      have hOne := @length_held_le s.server.clientSock
      simp only [atRisk, isAhead, hHere.1,
        List.count_singleton_self, Bool.false_eq_true,
        if_true, if_false]
      omega
  · rcases step_other hAccept hFcntl hStep with
      ⟨hSame, _, hAhead⟩
    have hRisk : t.atRisk ≤ s.atRisk := by
      unfold atRisk
      by_cases hNext : isAhead t.phase = true
      · rcases hAhead hNext with ⟨hBefore, hClient⟩
        apply Nat.le_of_eq
        rw [if_pos hNext, if_pos hBefore, hClient]
      · rw [if_neg hNext]
        exact Nat.zero_le _
    rw [hSame]
    omega

/- The run lemma. -/
theorem lost_of_exec
    (hRun : sockets.exec sockets.init calls = some s) :
    s.lost.length + s.atRisk ≤
      calls.count (.clientNonblock false) := by
  refine sockets.invariant_of_exec
    (fun calls s =>
      s.lost.length + s.atRisk ≤
        calls.count (.clientNonblock false))
    (by decide) ?_ hRun
  intro earlier u call v _ hBefore hStep
  have hHere := lost_step hStep
  rw [List.count_append]
  omega

end Sockets

end FzEvent

------------------------------------------------------------
-- The Sockets of a Run
------------------------------------------------------------

namespace FzEvent

open Transition

namespace Sockets

/-
  Calls that may be made on -1, the result of a call that
  failed. They fail too, and do nothing.
-/
def FailsOnFailed (call : SocketCall) : Prop :=
  call = .reuse false ∨ call = .closeSock ∨
    call = .closeClient

/- A call is made on the server's own descriptor, or on -1. -/
theorem Owned.uses_own
    {s t : Sockets}
    (hOwned : s.Owned)
    {call : SocketCall}
    (hStep : s.step call = some t)
    {fd : Int32}
    (hUses : fd ∈ s.uses call) :
    fd ∈ s.mine ∨ fd = -1 ∧ FailsOnFailed call := by
  have hAccounts := hOwned.accounts
  have hPlaced := hOwned.placed
  cases call with
  | reuse ok =>
      simp only [step] at hStep
      split_ifs at hStep with hHere hOk
      · rw [Placed, hHere.1] at hPlaced
        cases List.mem_singleton.mp hUses
        exact Or.inl (hAccounts.sock_mem
          (hAccounts.isHeld_of_isOpen hPlaced (hHere.2 hOk)))
      · rw [Placed, hHere.1] at hPlaced
        cases List.mem_singleton.mp hUses
        rw [Bool.not_eq_true] at hOk
        rcases Accounts.mem_or_failed hAccounts.sock_mem hPlaced
          with hMine | hFailed
        · exact Or.inl hMine
        · exact Or.inr ⟨hFailed, Or.inl (by rw [hOk])⟩
  | nonblock ok =>
      simp only [step] at hStep
      split_ifs at hStep with hHere hOk <;>
        rw [Placed, hHere.1] at hPlaced <;>
        cases List.mem_singleton.mp hUses <;>
        exact Or.inl (hAccounts.sock_mem hPlaced)
  | bind ok =>
      simp only [step] at hStep
      split_ifs at hStep with hHere hOk <;>
        rw [Placed, hHere.1] at hPlaced <;>
        cases List.mem_singleton.mp hUses <;>
        exact Or.inl (hAccounts.sock_mem hPlaced.1)
  | select ready =>
      simp only [step] at hStep
      split_ifs at hStep with hHere <;>
        rw [Placed, hHere] at hPlaced <;>
        cases List.mem_singleton.mp hUses <;>
        exact Or.inl (hAccounts.sock_mem hPlaced.isHeld)
  | accept answer =>
      cases List.mem_singleton.mp hUses
      have hHere : s.phase = .accept := by
        cases answer <;> simp only [step] at hStep <;>
          split_ifs at hStep with h
        · exact h
        · exact h.1
      rw [Placed, hHere] at hPlaced
      exact Or.inl (hAccounts.sock_mem hPlaced.isHeld)
  | clientNonblock ok =>
      simp only [step] at hStep
      split_ifs at hStep with hHere hOk <;>
        rw [Placed, hHere.1] at hPlaced <;>
        cases List.mem_singleton.mp hUses <;>
        exact Or.inl (hAccounts.sock_mem hPlaced.isHeld)
  | write | recv =>
      simp only [step] at hStep
      split_ifs at hStep with hHere
      rw [Placed, hHere] at hPlaced
      cases List.mem_singleton.mp hUses
      exact Or.inl
        (hAccounts.client_mem hPlaced.client_isHeld)
  | closeSock =>
      unfold uses at hUses
      dsimp only at hUses
      split_ifs at hUses with hNone
      · exact absurd hUses List.not_mem_nil
      · rw [List.mem_singleton] at hUses
        subst hUses
        rcases Accounts.mem_or_failed hAccounts.sock_mem hNone
          with hMine | hFailed
        · exact Or.inl hMine
        · exact Or.inr ⟨hFailed, Or.inr (Or.inl rfl)⟩
  | closeClient =>
      unfold uses at hUses
      dsimp only at hUses
      split_ifs at hUses with hNone
      · exact absurd hUses List.not_mem_nil
      · rw [List.mem_singleton] at hUses
        subst hUses
        rcases Accounts.mem_or_failed hAccounts.client_mem hNone
          with hMine | hFailed
        · exact Or.inl hMine
        · exact Or.inr ⟨hFailed, Or.inr (Or.inr rfl)⟩
  | _ => cases hUses

end Sockets

/-
  In every run the server makes its calls on descriptors that
  are its own and open, or harmlessly on -1. While its threads
  run the two sockets are open, the listening one does not
  block, and the client does. At the end everything is closed
  but the lost clients: those whose `fcntl` failed and whose
  variable a later `accept` overwrote, also one that failed.
-/
theorem sockets_owned
    {calls : List SocketCall}
    {s : Sockets}
    (hRun : sockets.exec sockets.init calls = some s) :
    (∀ call t, s.step call = some t →
      ∀ fd ∈ s.uses call,
        (fd ∈ s.mine ∧ fd ∉ s.others) ∨
          (fd = -1 ∧ Sockets.FailsOnFailed call)) ∧
      (s.phase = .running →
        s.server.isInitialize = true ∧
          s.sock ∈ s.mine ∧ s.server.clientSock ∈ s.mine ∧
          s.sock ≠ s.server.clientSock ∧
          s.sock ∈ s.nonblocking ∧
          s.server.clientSock ∉ s.nonblocking) ∧
      (s.phase = .exited → s.mine.Perm s.lost) ∧
      (∀ fd, fd ∈ s.lost ↔ Sockets.Overwritten calls fd) ∧
      s.lost.length ≤
        calls.count (.clientNonblock false) := by
  have hOwned := Sockets.owned_of_exec hRun
  have hAccounts := hOwned.accounts
  have hPlaced := hOwned.placed
  refine ⟨?_, ?_, ?_, (Sockets.lostBy_of_exec hRun).lost, ?_⟩
  · intro call t hStep fd hUses
    rcases hOwned.uses_own hStep hUses with hMine | hFailed
    · exact Or.inl ⟨hMine, hAccounts.disjoint fd hMine⟩
    · exact Or.inr hFailed
  · intro hHere
    rw [Sockets.Placed, hHere] at hPlaced
    exact ⟨hPlaced.ready, hAccounts.sock_mem hPlaced.isHeld,
      hAccounts.client_mem hPlaced.client_isHeld,
      hAccounts.sock_ne_client hPlaced.isHeld
        hPlaced.client_isHeld,
      hPlaced.flagged, hPlaced.blocking⟩
  · intro hHere
    rw [Sockets.Placed, hHere] at hPlaced
    have hSame := hAccounts.accounted
    rw [hPlaced.1, hPlaced.2] at hSame
    exact hSame
  · have hLost := Sockets.lost_of_exec hRun
    omega

/- One client is replaced by another, which is served. -/
def serveSecond : List SocketCall :=
  [.socket (some 3), .reuse true, .nonblock true, .bind true,
    .select true, .accept (some 4), .clientNonblock false,
    .waitAgain, .select true, .accept (some 5),
    .clientNonblock true, .recv, .write, .joined, .closeSock,
    .otherOpens 3, .closeClient, .closeSock, .closeClient]

theorem sockets_owned_serveSecond :
    ∃ s, sockets.exec sockets.init serveSecond = some s ∧
      s.mine = [4] ∧ s.others = [3, 0, 1, 2] ∧
        Sockets.Overwritten serveSecond 4 := by
  have hRun :
      (sockets.exec sockets.init serveSecond).map
        (fun s => (s.phase, s.lost, s.others)) =
          some (.exited, [4], [3, 0, 1, 2]) := by
    decide
  rcases Option.map_eq_some_iff.mp hRun with ⟨s, hExec, hEnd⟩
  simp only [Prod.mk.injEq] at hEnd
  rcases sockets_owned hExec with ⟨_, _, hClosed, hLost, _⟩
  have hMine := hClosed hEnd.1
  rw [hEnd.2.1] at hMine hLost
  exact ⟨s, hExec, List.perm_singleton.mp hMine, hEnd.2.2,
    (hLost 4).mp List.mem_cons_self⟩

end FzEvent

------------------------------------------------------------
-- One Call of socket()
------------------------------------------------------------

namespace FzEvent

open Transition

namespace Sockets

def isSocket : SocketCall → Bool
| .socket _ => true
| _ => false

/- `socket()` has not been called. -/
structure Unasked (s : Sockets) : Prop where
  phase : s.phase = .makeSocket
  sock : s.sock = 0
  server : s.server.isInitialize = false
  client : s.server.clientSock = 0
  lost : s.lost = []

/- It has been called, and is not called again. -/
def Asked (s : Sockets) : Prop :=
  s.phase = .makeSocket → s.sock ≠ 0

/-
  It has failed: the program goes round the loop of `init`,
  or has left it behind the last attempt.
-/
structure GivenUp (s : Sockets) : Prop where
  sock :
    s.sock = -1 ∧
        (s.phase = .makeSocket ∨ s.phase = .reuse ∨
          s.phase = .initFailed ∨
          s.phase = .destroySock true) ∨
      s.sock = 0 ∧
        (s.phase = .destroyClient true ∨ s.phase = .exited)
  server : s.server.isInitialize = false
  client : s.server.clientSock = 0
  lost : s.lost = []

/- How often `socket()` has been called, and how it ended. -/
inductive Asking (calls : List SocketCall) (s : Sockets) : Prop
| unasked
    (hCalls : calls.countP isSocket = 0)
    (hState : s.Unasked)
| given
    (hCalls : calls.countP isSocket = 1)
    (hAnswer : .socket none ∉ calls)
    (hState : s.Asked)
| refused
    (hCalls : calls.countP isSocket = 1)
    (hState : s.GivenUp)

variable {s t : Sockets}
variable {call : SocketCall}

theorem Unasked.step
    (hUnasked : s.Unasked)
    (hStep : s.step call = some t) :
    isSocket call = false ∧ t.Unasked ∨
      call = .socket none ∧ t.GivenUp ∨
      (∃ fd, call = .socket (some fd)) ∧ t.Asked := by
  rcases hUnasked with ⟨hPhase, hSock, hServer, hClient, hLost⟩
  cases call with
  | socket answer =>
      right
      cases answer with
      | none =>
          left
          simp only [Sockets.step] at hStep
          split_ifs at hStep
          cases hStep
          exact ⟨rfl, Or.inl ⟨rfl, by simp⟩, hServer, hClient,
            hLost⟩
      | some fd =>
          right
          simp only [Sockets.step] at hStep
          split_ifs at hStep
          cases hStep
          refine ⟨⟨fd, rfl⟩, ?_⟩
          rintro ⟨⟩
  | otherOpens fd | otherCloses fd =>
      simp only [Sockets.step] at hStep
      split_ifs at hStep
      cases hStep
      exact Or.inl
        ⟨rfl, hPhase, hSock, hServer, hClient, hLost⟩
  | accept answer =>
      cases answer <;> simp [Sockets.step, hPhase] at hStep
  | _ => simp [Sockets.step, hPhase, hSock] at hStep

/- A socket, also a failed one, is kept until `destroy`. -/
theorem Asked.step
    (hPlaced : s.Placed)
    (hAsked : s.Asked)
    (hStep : s.step call = some t) :
    isSocket call = false ∧ t.Asked := by
  cases call with
  | socket answer =>
      exfalso
      cases answer with
      | none =>
          simp only [Sockets.step] at hStep
          split_ifs at hStep with hHere
          exact hAsked hHere.1 hHere.2
      | some fd =>
          simp only [Sockets.step] at hStep
          split_ifs at hStep with hHere
          exact hAsked hHere.1 hHere.2.1
  | initAgain =>
      simp only [Sockets.step] at hStep
      split_ifs at hStep with hHere
      cases hStep
      rw [Placed, hHere] at hPlaced
      exact ⟨rfl, fun _ => hPlaced⟩
  | otherOpens fd | otherCloses fd | write | recv =>
      simp only [Sockets.step] at hStep
      split_ifs at hStep
      cases hStep
      exact ⟨rfl, hAsked⟩
  | accept answer =>
      refine ⟨rfl, ?_⟩
      cases answer <;>
        simp only [Sockets.step] at hStep <;>
        split_ifs at hStep <;>
        cases hStep <;>
        rintro ⟨⟩
  | closeSock =>
      refine ⟨rfl, ?_⟩
      simp only [Sockets.step] at hStep
      split at hStep
      · split_ifs at hStep <;> cases hStep <;> rintro ⟨⟩
      · cases hStep
  | closeClient =>
      refine ⟨rfl, ?_⟩
      simp only [Sockets.step] at hStep
      split at hStep
      · next atExit _ =>
        split_ifs at hStep <;> cases hStep <;>
          cases atExit <;> rintro ⟨⟩
      · cases hStep
  | _ =>
      refine ⟨rfl, ?_⟩
      simp only [Sockets.step] at hStep
      split_ifs at hStep <;> cases hStep <;> rintro ⟨⟩

/- No call gets the program out of this. -/
theorem GivenUp.step
    (hAccounts : s.Accounts)
    (hGivenUp : s.GivenUp)
    (hStep : s.step call = some t) :
    isSocket call = false ∧ t.GivenUp := by
  rcases hGivenUp with ⟨hSock, hServer, hClient, hLost⟩
  have hFailed : ¬s.IsOpen (-1) := by
    rintro (hMine | hOther)
    · exact (hAccounts.isHeld _ hMine).2 rfl
    · exact absurd (hAccounts.others_nonneg _ hOther)
        (by decide)
  cases call with
  | socket answer =>
      exfalso
      have hNone : ¬(s.phase = .makeSocket ∧ s.sock = 0) := by
        rintro ⟨hPhase, hZero⟩
        simp [hPhase, hZero] at hSock
      cases answer with
      | none =>
          rw [Sockets.step, if_neg hNone] at hStep
          cases hStep
      | some fd =>
          simp only [Sockets.step] at hStep
          split_ifs at hStep with hHere
          exact hNone ⟨hHere.1, hHere.2.1⟩
  | reuse ok =>
      simp only [Sockets.step] at hStep
      split_ifs at hStep with hHere hOk
      · simp [hHere.1] at hSock
        rw [hSock] at hHere
        exact absurd (hHere.2 hOk) hFailed
      · cases hStep
        simp [hHere.1] at hSock
        exact ⟨rfl, Or.inl ⟨hSock, by simp⟩, hServer, hClient,
          hLost⟩
  | haveSocket | initAgain | initTimeout =>
      simp only [Sockets.step] at hStep
      split_ifs at hStep with hHere
      cases hStep
      simp [hHere] at hSock
      exact ⟨rfl, Or.inl ⟨hSock, by simp⟩, hServer, hClient,
        hLost⟩
  | closeSock =>
      simp only [Sockets.step] at hStep
      split at hStep
      · next atExit hHere =>
        simp [hHere] at hSock
        rcases hSock with ⟨hMinus, rfl⟩
        rw [if_neg (by simp [hMinus])] at hStep
        cases hStep
        exact ⟨rfl, Or.inr ⟨rfl, Or.inl rfl⟩, hServer, hClient,
          hLost⟩
      · cases hStep
  | closeClient =>
      simp only [Sockets.step] at hStep
      split at hStep
      · next atExit hHere =>
        simp [hHere] at hSock
        rcases hSock with ⟨hZero, rfl⟩
        rw [if_pos hClient] at hStep
        cases hStep
        exact ⟨rfl, Or.inr ⟨hZero, Or.inr rfl⟩, rfl, rfl, hLost⟩
      · cases hStep
  | otherOpens fd | otherCloses fd =>
      simp only [Sockets.step] at hStep
      split_ifs at hStep
      cases hStep
      exact ⟨rfl, hSock, hServer, hClient, hLost⟩
  | accept answer =>
      exfalso
      cases answer <;>
        simp only [Sockets.step] at hStep <;>
        split_ifs at hStep with hHere <;>
        simp [hHere] at hSock
  | _ =>
      exfalso
      simp only [Sockets.step] at hStep
      split_ifs at hStep with hHere <;> simp [hHere] at hSock

/- The run lemma. -/
theorem asking_of_exec
    {calls : List SocketCall}
    (hRun : sockets.exec sockets.init calls = some s) :
    Asking calls s := by
  refine sockets.invariant_of_exec Asking
    (.unasked rfl ⟨rfl, rfl, rfl, rfl, rfl⟩) ?_ hRun
  intro calls u call s hBefore hAsking hStep
  have hOwned := owned_of_exec hBefore
  have hCount :
      (calls ++ [call]).countP isSocket =
        calls.countP isSocket + [call].countP isSocket :=
    List.countP_append
  cases hAsking with
  | unasked hCalls hState =>
      rcases hState.step hStep with
        ⟨hOther, hNext⟩ | ⟨rfl, hNext⟩ |
          ⟨⟨fd, rfl⟩, hNext⟩
      · refine .unasked ?_ hNext
        rw [hCount, hCalls, List.countP_cons_of_neg]
        · rfl
        · simp [hOther]
      · refine .refused ?_ hNext
        rw [hCount, hCalls]
        rfl
      · refine .given ?_ ?_ hNext
        · rw [hCount, hCalls]
          rfl
        · intro hMem
          rcases List.mem_append.mp hMem with hOld | hNew
          · rw [List.countP_eq_zero] at hCalls
            exact hCalls _ hOld rfl
          · simp at hNew
  | given hCalls hAnswer hState =>
      rcases hState.step hOwned.placed hStep with
        ⟨hOther, hNext⟩
      refine .given ?_ ?_ hNext
      · rw [hCount, hCalls, List.countP_cons_of_neg]
        · rfl
        · simp [hOther]
      · intro hMem
        rcases List.mem_append.mp hMem with hOld | hNew
        · exact hAnswer hOld
        · rw [← List.mem_singleton.mp hNew] at hOther
          cases hOther
  | refused hCalls hState =>
      rcases hState.step hOwned.accounts hStep with
        ⟨hOther, hNext⟩
      refine .refused ?_ hNext
      rw [hCount, hCalls, List.countP_cons_of_neg]
      · rfl
      · simp [hOther]

end Sockets

/-
  A run asks for a socket once, however often it calls `init`.
  When it gets none then, every later attempt fails as well:
  no client is ever waited for.
-/
theorem socket_called_once
    {calls : List SocketCall}
    {s : Sockets}
    (hRun : sockets.exec sockets.init calls = some s) :
    calls.countP Sockets.isSocket ≤ 1 ∧
      (.socket none ∈ calls →
        s.server.isInitialize = false ∧
          s.server.clientSock = 0 ∧
          s.mine = [] ∧
          s.phase ∉ [.bind, .select, .accept, .clientNonblock,
            .waitFailed, .running]) := by
  have hAccounts := (Sockets.owned_of_exec hRun).accounts
  cases Sockets.asking_of_exec hRun with
  | unasked hCalls hState =>
      refine ⟨by omega, ?_⟩
      intro hMem
      rw [List.countP_eq_zero] at hCalls
      exact absurd rfl (hCalls _ hMem)
  | given hCalls hAnswer hState =>
      exact ⟨by omega, fun hMem => absurd hMem hAnswer⟩
  | refused hCalls hState =>
      refine ⟨by omega, fun _ => ?_⟩
      have hNone : Sockets.held s.sock = [] := by
        rcases hState.sock with ⟨hSock, _⟩ | ⟨hSock, _⟩ <;>
          rw [hSock] <;> rfl
      have hSame := hAccounts.accounted
      rw [hNone, hState.client, hState.lost] at hSame
      refine ⟨hState.server, hState.client, hSame.eq_nil, ?_⟩
      rcases hState.sock with
        ⟨_, h | h | h | h⟩ | ⟨_, h | h⟩ <;>
        rw [h] <;> decide

/- Three attempts without a socket, and the end of time. -/
def noSocket : List SocketCall :=
  [.socket none, .initAgain, .haveSocket, .reuse false,
    .initAgain, .haveSocket, .reuse false, .initTimeout]

theorem socket_called_once_noSocket :
    ∃ s, sockets.exec sockets.init noSocket = some s ∧
      s.mine = [] ∧ s.phase = .destroySock true := by
  have hRun :
      (sockets.exec sockets.init noSocket).map Sockets.phase =
        some (.destroySock true) := by
    decide
  rcases Option.map_eq_some_iff.mp hRun with ⟨s, hExec, hEnd⟩
  have hNone := (socket_called_once hExec).2 (by decide)
  exact ⟨s, hExec, hNone.2.2.1, hEnd⟩

end FzEvent

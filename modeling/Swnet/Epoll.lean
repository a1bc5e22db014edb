import Swnet.Ncb

/-!
# A socket and its epoll instance

What the kernel keeps for a link, as far as the library can see it, and the calls of `io.c` that
arm it.  Epoll is edge triggered: an edge is raised when a condition begins to hold, and on
`EPOLL_CTL_ADD` and `EPOLL_CTL_MOD` for every condition that holds already; it stays pending until
it is handed to `__iorun` or a `MOD` takes it out of the mask.

* `Sock.raise`   a condition begins to hold;
* `Sock.arm`     `EPOLL_CTL_ADD` or `EPOLL_CTL_MOD`;
* `ioModify`     and `ioAttach`, the two callers.
-/

namespace Swnet
open CMem

/-- the events of one `struct epoll_event` -/
structure Evts where
  epollin : Bool
  epollout : Bool
  epollrdhup : Bool
  epollerr : Bool
  epollhup : Bool
deriving DecidableEq, Repr

def Evts.none : Evts := ⟨false, false, false, false, false⟩

/-- the argument `mask` of `io_attach` and `io_modify` -/
structure Mask where
  epollin : Bool
  epollout : Bool
deriving DecidableEq, Repr

/-- the three other events are in every mask -/
def Evts.keep (m : Mask) (e : Evts) : Evts :=
  { e with epollin := e.epollin && m.epollin, epollout := e.epollout && m.epollout }

def Evts.union (e e' : Evts) : Evts :=
  ⟨e.epollin || e'.epollin, e.epollout || e'.epollout, e.epollrdhup || e'.epollrdhup,
    e.epollerr || e'.epollerr, e.epollhup || e'.epollhup⟩

def Evts.minus (e e' : Evts) : Evts :=
  ⟨e.epollin && !e'.epollin, e.epollout && !e'.epollout, e.epollrdhup && !e'.epollrdhup,
    e.epollerr && !e'.epollerr, e.epollhup && !e'.epollhup⟩

def Evts.within (e e' : Evts) : Bool :=
  (!e.epollin || e'.epollin) && (!e.epollout || e'.epollout) && (!e.epollrdhup || e'.epollrdhup) &&
    (!e.epollerr || e'.epollerr) && (!e.epollhup || e'.epollhup)

/-- The kernel's side of a link: the mask it is registered with (`none` before `EPOLL_CTL_ADD`), the
edges that are pending, the state of the send buffer, the receive queue and the accept queue,
whether the peer has shut down its side (`fin`) and whether there is a socket error. -/
structure Sock where
  mask : Option Mask
  edges : Evts
  connected : Bool
  full : Bool
  rxq : Bytes
  backlog : Nat
  fin : Bool
  err : Bool
deriving DecidableEq, Repr

/-- a connected socket with room in its send buffer -/
def Sock.established : Sock := ⟨some ⟨true, false⟩, Evts.none, true, false, [], 0, false, false⟩

/-- the conditions that hold -/
def Sock.ready (s : Sock) : Evts :=
  ⟨!s.rxq.isEmpty || decide (0 < s.backlog) || s.fin, s.connected && !s.full, s.fin, s.err, s.err⟩

def Sock.raise (s : Sock) (e : Evts) : Sock :=
  match s.mask with
  | none => s
  | some m => { s with edges := s.edges.union (e.keep m) }

def Sock.arm (s : Sock) (m : Mask) : Sock :=
  { s with mask := some m, edges := (s.edges.union s.ready).keep m }

/-- `io_modify`; `e` is the error number of `epoll_ctl(2)`, zero for success -/
def ioModify (s : Sock) (m : Mask) (e : Nat) : Int × Sock :=
  if e = 0 then (0, s.arm m) else (-e, s)

abbrev EEXIST : Nat := 17

/-- `io_attach`: the return value is `epfd`, of which only the sign is looked at.  `EEXIST` is taken
for success. -/
def ioAttach (s : Sock) (m : Mask) (e : Nat) : Int × Sock :=
  if e = 0 then (0, s.arm m) else if e = EEXIST then (0, s) else (-1, s)

/-! ## what the network does -/

/-- data of the peer arrives -/
def Sock.arrive (s : Sock) (data : Bytes) : Sock :=
  { s with rxq := s.rxq ++ data }.raise { Evts.none with epollin := true }

/-- somebody connects to a listening socket -/
def Sock.incoming (s : Sock) : Sock :=
  { s with backlog := s.backlog + 1 }.raise { Evts.none with epollin := true }

/-- the peer has shut down its side -/
def Sock.shutdown (s : Sock) : Sock :=
  { s with fin := true }.raise { Evts.none with epollin := true, epollrdhup := true }

/-- a full send buffer gets room -/
def Sock.room (s : Sock) : Sock :=
  { s with full := false }.raise { Evts.none with epollout := true }

/-- a connection that was under way is there -/
def Sock.establish (s : Sock) : Sock :=
  { s with connected := true }.raise { Evts.none with epollout := true }

/-- the connection is reset, or could not be made -/
def Sock.reset (s : Sock) : Sock :=
  { s with err := true }.raise ⟨true, true, true, true, true⟩

/-- `epoll_wait(2)` hands out some of the pending edges -/
def Sock.deliver (s : Sock) (e : Evts) : Sock := { s with edges := s.edges.minus e }

section
variable (s : Sock) (m : Mask) (e : Evts) (data : Bytes)

@[simp] theorem raise_mask : (s.raise e).mask = s.mask := by
  unfold Sock.raise
  split <;> rfl

@[simp] theorem raise_full : (s.raise e).full = s.full := by
  unfold Sock.raise
  split <;> rfl

@[simp] theorem raise_rxq : (s.raise e).rxq = s.rxq := by
  unfold Sock.raise
  split <;> rfl

@[simp] theorem raise_backlog : (s.raise e).backlog = s.backlog := by
  unfold Sock.raise
  split <;> rfl

@[simp] theorem raise_fin : (s.raise e).fin = s.fin := by
  unfold Sock.raise
  split <;> rfl

@[simp] theorem raise_err : (s.raise e).err = s.err := by
  unfold Sock.raise
  split <;> rfl

@[simp] theorem raise_connected : (s.raise e).connected = s.connected := by
  unfold Sock.raise
  split <;> rfl

theorem raise_edges (hm : s.mask = some m) : (s.raise e).edges = s.edges.union (e.keep m) := by
  unfold Sock.raise
  rw [hm]

end

end Swnet

import Swnet.Tcpal
import Swnet.Tx

/-!
# A link from its beginning

The threads that meet on one TCP link: the one that establishes it (in `tcp_connect`,
`tcp_connect2`, `tcp_listen` or `__tcp_syn_dpc`), the epoll thread in `__iorun`, the thread of the
pool in `tcp_tx_syn` or `__wp_exec`, and any number of threads in `tcp_write`.  A callback is open
from the event to the next step of the thread that posts it.

* `Link`        the state;
* `Link.step`   what a thread, or the network, can do next.
-/

namespace Swnet
open CMem

/-- how the link comes to be -/
inductive Path where
  | connect
  | connect2
  | listen
  | accept
deriving DecidableEq, Repr

inductive NcbRead where
  | tcpRx
  | tcpSyn
deriving DecidableEq, Repr

inductive NcbWrite where
  | tcpTx
  | tcpTxSyn
deriving DecidableEq, Repr

/-- what is posted to the callback -/
inductive Event where
  | accepted
  | connected
  | recvdata (data : Bytes)
deriving DecidableEq, Repr

/-- the link is announced by it -/
def Event.announces : Event → Bool
  | .recvdata _ => false
  | _ => true

/-- why `__iorun` closed the link -/
inductive Why where
  | shutdown
  | error
  | fatal
deriving DecidableEq, Repr

/-- in front of what the establishing thread is -/
inductive Epc where
  | cas
  | connecting
  | synNow
  | setRead
  | setWrite
  | attach
  | post
  | callback
  | modify
  | done
  | failed
deriving DecidableEq, Repr

/-- in front of what the thread of the pool is in `tcp_tx_syn` -/
inductive Spc where
  | idle
  | check
  | modify
  | setRead
  | setWrite
  | post
  | callback
  | done
deriving DecidableEq, Repr

def Spc.busy : Spc → Bool
  | .idle => false
  | .done => false
  | _ => true

/-- where the epoll thread is in `__iorun` with an event of the link -/
inductive Ipc where
  | idle
  /-- in front of the tests for `EPOLLRDHUP` and `EPOLLERR` -/
  | event (e : Evts)
  /-- in front of the test for `EPOLLIN` -/
  | fetch (e : Evts)
  /-- in the `ncb_read` that was found -/
  | read (p : NcbRead) (e : Evts)
  /-- in front of the test for `EPOLLOUT` -/
  | out (e : Evts)
deriving DecidableEq, Repr

/-- Behind the fields of the program: `events` are the posts, `sent` is what the peer has sent,
`chunks` are the answers of `recv(2)`, and `why` is set when `__iorun` closes a link that is open. -/
structure Link where
  path : Path
  tx : Tx
  ncbRead : Option NcbRead
  ncbWrite : Option NcbWrite
  est : Epc
  syn : Spc
  io : Ipc
  rx : Rx
  events : List Event
  sent : Bytes
  chunks : List Bytes
  why : Option Why

/-- the first step of the four functions -/
def Path.start : Path → Epc
  | .connect => .attach
  | .connect2 => .cas
  | .listen => .cas
  | .accept => .setRead

/-- a socket that epoll does not know; `connect(2)` and `accept(2)` return it connected -/
def Sock.fresh (path : Path) : Sock :=
  ⟨none, Evts.none, path = .connect ∨ path = .accept, false, [], 0, false, false⟩

def Link.init (path : Path) (rx : Rx) : Link :=
  ⟨path, Tx.init (Sock.fresh path), none, none, path.start, .idle, .idle, rx, [], [], [], none⟩

inductive LinkAct (Req : Type) where
  /-- a thread in `tcp_write`, or the thread of the pool in `__wp_exec` -/
  | tx (a : TxAct Req)
  /-- the establishing thread; `e` is the error number of its next call, zero for success -/
  | est (e : Nat)
  | syn (e : Nat)
  | poll (e : Evts)
  | event
  | fetch
  | recv (r : Recv)
  /-- `accept(2)` returns a descriptor or fails -/
  | accept (errno : Option Nat)
  /-- `mem`: whether `wp_queued` gets memory for its task -/
  | out (mem : Bool)
  | arrive (data : Bytes)
  | incoming
  | shutdown
  | establish
  | reset

abbrev EINPROGRESS : Nat := 115
abbrev EISCONN : Nat := 106
abbrev EALREADY : Nat := 114
abbrev ECONNABORTED : Nat := 103

/-- `ctrlcode` of `__tcp_syn_try` for a failed `accept(2)`: 0 for one more round; `ENFILE`, `ENOBUFS`,
`ENOMEM` and `EPERM` leave the listening link alone -/
def tcpSynTry (errno : Nat) : Int :=
  if errno = 4 ∨ errno = ECONNABORTED then 0
  else if errno = 11 then EAGAIN
  else if errno = 23 ∨ errno = 105 ∨ errno = 12 ∨ errno = 1 then errno
  else -1

/-- the bytes of an answer -/
def Recv.chunk : Recv → Bytes
  | .bytes chunk => chunk
  | .err _ => []

/-- what `recv(2)` can answer -/
def Sock.answers (s : Sock) : Recv → Bool
  | .bytes chunk =>
    if chunk = [] then s.rxq.isEmpty && s.fin
    else chunk.isPrefixOf s.rxq && decide (chunk.length ≤ TCP_BUFFER_SIZE)
  | .err e => decide (e ≠ EAGAIN) || s.rxq.isEmpty && !s.fin

/-- `EPOLL_CTL_ADD` knows whether the socket is registered -/
def Sock.adds (s : Sock) (e : Nat) : Bool :=
  (decide (e ≠ 0) || s.mask.isNone) && (decide (e ≠ EEXIST) || s.mask.isSome)

/-- `EPOLL_CTL_MOD` succeeds only for a registered socket -/
def Sock.modifies (s : Sock) (e : Nat) : Bool := decide (e ≠ 0) || s.mask.isSome

namespace Link

def told (s : Link) : Bool := s.events.any Event.announces

def setSock (s : Link) (k : Sock) : Link := { s with tx := { s.tx with sock := k } }

/-- `objclos` -/
def objclos (s : Link) : Link := { s with tx := { s.tx with closed := true } }

/-- `objclos` in `__iorun` -/
def closeBy (s : Link) (w : Why) : Link :=
  { s.objclos with why := if s.tx.closed then s.why else some w }

/-! ## the establishing thread -/

/-- `io_attach` in the four functions; a link that cannot be attached is closed -/
def attach (s : Link) (m : Mask) (e : Nat) (next : Epc) : Option Link :=
  if s.tx.sock.adds e then
    let p := ioAttach s.tx.sock m e
    if p.1 < 0 then some { s.objclos with est := .failed }
    else some { s.setSock p.2 with est := next }
  else none

/-- `tcp_connect` behind `connect(2)` -/
def tcpConnect (s : Link) (e : Nat) : Option Link :=
  match s.est with
  | .attach => s.attach ⟨true, false⟩ e .post
  | .post => some { s with events := s.events ++ [.connected], est := .callback }
  | .callback => some { s with est := .setRead }
  | .setRead => some { s with ncbRead := some .tcpRx, est := .setWrite }
  | .setWrite => some { s with ncbWrite := some .tcpTx, est := .done }
  | _ => none

/-- `tcp_connect2`.  Where `connect(2)` succeeds at once the socket is not attached and the `io_modify`
of `tcp_tx_syn` fails. -/
def tcpConnect2 (s : Link) (e : Nat) : Option Link :=
  match s.est with
  | .cas =>
    if s.ncbWrite = none then some { s with ncbWrite := some .tcpTxSyn, est := .connecting }
    else some { s with est := .failed }
  | .connecting =>
    if e = 0 then some { s with est := .synNow }
    else if e = EINPROGRESS then some { s with est := .attach }
    else some { s with est := .failed }
  | .synNow =>
    if s.tx.sock.modifies e then
      if (ioModify s.tx.sock ⟨true, false⟩ e).1 < 0 then some { s.objclos with est := .failed } else none
    else none
  | .attach => s.attach ⟨false, true⟩ e .done
  | _ => none

/-- `tcp_listen` behind `listen(2)` -/
def tcpListen (s : Link) (e : Nat) : Option Link :=
  match s.est with
  | .cas =>
    if s.ncbRead = none then some { s with ncbRead := some .tcpSyn, est := .setWrite }
    else some { s with est := .failed }
  | .setWrite => some { s with ncbWrite := none, est := .attach }
  | .attach => s.attach ⟨true, false⟩ e .done
  | _ => none

/-- `__tcp_syn_dpc` behind its two `malloc` calls -/
def tcpSynDpc (s : Link) (e : Nat) : Option Link :=
  match s.est with
  | .setRead => some { s with ncbRead := some .tcpRx, est := .setWrite }
  | .setWrite => some { s with ncbWrite := some .tcpTx, est := .attach }
  | .attach => s.attach ⟨false, false⟩ e .post
  | .post => some { s with events := s.events ++ [.accepted], est := .callback }
  | .callback => some { s with est := .modify }
  | .modify =>
    if s.tx.sock.modifies e then
      some { s.setSock (ioModify s.tx.sock ⟨true, false⟩ e).2 with est := .done }
    else none
  | _ => none

def estStep (s : Link) (e : Nat) : Option Link :=
  match s.path with
  | .connect => s.tcpConnect e
  | .connect2 => s.tcpConnect2 e
  | .listen => s.tcpListen e
  | .accept => s.tcpSynDpc e

/-! ## the thread of the pool -/

/-- `tcp_tx_syn`; in front of `check`, `e` is the error of the socket -/
def tcpTxSyn (s : Link) (e : Nat) : Option Link :=
  match s.syn with
  | .check =>
    if e = 0 then some { s with syn := .modify }
    else if e = EISCONN ∨ e = EALREADY then some { s with syn := .idle }
    else if e = 4 then some s
    else if e = 11 then some { s with syn := .idle }
    else some { s.objclos with syn := .idle }
  | .modify =>
    if s.tx.sock.modifies e then
      let p := ioModify s.tx.sock ⟨true, false⟩ e
      if p.1 < 0 then some { s.objclos with syn := .idle }
      else some { s.setSock p.2 with syn := .setRead }
    else none
  | .setRead => some { s with ncbRead := some .tcpRx, syn := .setWrite }
  | .setWrite => some { s with ncbWrite := some .tcpTx, syn := .post }
  | .post => some { s with events := s.events ++ [.connected], syn := .callback }
  | .callback => some { s with syn := .done }
  | _ => none

/-- `tcp_write` and `__wp_exec`: the application has the handle of an accepted link from its
`EVT_TCP_ACCEPTED`; `tcp_write` asks for both handlers first; `__wp_exec` calls the `ncb_write` that
it finds. -/
def txStep {Req : Type} (L : Sender Req) (s : Link) (a : TxAct Req) : Option Link :=
  match a with
  | .task => none
  | .call i _ _ =>
    if s.path = .accept ∧ s.told = false then none
    else if s.ncbRead.isNone || s.ncbWrite.isNone then
      if s.tx.writer i = .idle then some s else none
    else (s.tx.step L a).map fun t => { s with tx := t }
  | .exec =>
    if s.syn.busy then none
    else if s.tx.closed || s.ncbWrite == some .tcpTx then
      (s.tx.step L a).map fun t => { s with tx := t }
    else if s.tx.worker = .idle ∧ 0 < s.tx.tasks then
      some { s with tx := { s.tx with tasks := s.tx.tasks - 1 }
                    syn := if s.ncbWrite = some .tcpTxSyn then .check else s.syn }
    else none
  | a => (s.tx.step L a).map fun t => { s with tx := t }

/-! ## the epoll thread -/

/-- one `recv(2)` of `tcp_rx` with the parsing behind it -/
def recvStep (H : Heap) (s : Link) (r : Recv) : Option Link :=
  match s.io with
  | .read .tcpRx e =>
    if s.tx.sock.answers r then
      match tcpRxOnce H s.rx r with
      | .error _ => none
      | .ok (v, rx') =>
        let chunk := r.chunk
        let s' := { s.setSock { s.tx.sock with rxq := s.tx.sock.rxq.drop chunk.length } with
          rx := rx'
          events := s.events ++ (rx'.posts.drop s.rx.posts.length).map .recvdata
          chunks := if chunk = [] then s.chunks else s.chunks ++ [chunk] }
        if v = 0 then some s'
        else if v < 0 then
          some { s'.closeBy (if v ≠ -ECONNRESET then .fatal
            else if s.tx.sock.err then .error else .shutdown) with io := .out e }
        else some { s' with io := .out e }
    else none
  | _ => none

/-- one round of `tcp_syn`; a connection that is accepted, or lost, leaves the queue -/
def acceptStep (s : Link) (errno : Option Nat) : Option Link :=
  match s.io with
  | .read .tcpSyn e =>
    match errno with
    | none =>
      if 0 < s.tx.sock.backlog then
        some (s.setSock { s.tx.sock with backlog := s.tx.sock.backlog - 1 })
      else none
    | some n =>
      if n = 11 ∧ 0 < s.tx.sock.backlog then none
      else
        let s' := if n = ECONNABORTED then
            s.setSock { s.tx.sock with backlog := s.tx.sock.backlog - 1 } else s
        let v := tcpSynTry n
        if v = 0 then some s'
        else if v < 0 then some { s'.closeBy .fatal with io := .out e }
        else some { s' with io := .out e }
  | _ => none

/-- `__iorun` -/
def iorun {Req : Type} (H : Heap) (s : Link) : LinkAct Req → Option Link
  | .poll e =>
    -- an event carries the error of the socket
    if s.io = .idle ∧ e ≠ Evts.none ∧ e.within s.tx.sock.edges ∧
        (s.tx.sock.err = true ∨ e.epollhup = true → e.epollerr = true) then
      some { s.setSock (s.tx.sock.deliver e) with io := .event e }
    else none
  | .event =>
    match s.io with
    | .event e =>
      if e.epollrdhup || e.epollerr then
        some { s.closeBy (if e.epollerr || s.tx.sock.err then .error else .shutdown) with io := .idle }
      else if s.tx.closed then some { s with io := .idle }
      else some { s with io := .fetch e }
    | _ => none
  | .fetch =>
    match s.io with
    | .fetch e =>
      if e.epollin then
        match s.ncbRead with
        | some p => some { s with io := .read p e }
        | none => some { s with io := .out e }
      else some { s with io := .out e }
    | _ => none
  | .recv r => s.recvStep H r
  | .accept errno => s.acceptStep errno
  | .out mem =>
    match s.io with
    | .out e =>
      if e.epollout && !e.epollhup && mem then
        some { s with tx := { s.tx with tasks := s.tx.tasks + 1 }, io := .idle }
      else some { s with io := .idle }
    | _ => none
  | _ => none

/-! ## all together -/

/-- the network -/
def network {Req : Type} (s : Link) : LinkAct Req → Option Link
  | .arrive data =>
    if s.path ≠ .listen ∧ s.tx.sock.connected = true ∧ s.tx.sock.fin = false ∧ data ≠ [] then
      some { s.setSock (s.tx.sock.arrive data) with sent := s.sent ++ data }
    else none
  | .incoming => if s.path = .listen then some (s.setSock s.tx.sock.incoming) else none
  | .shutdown =>
    if s.path ≠ .listen ∧ s.tx.sock.connected = true ∧ s.tx.sock.fin = false then
      some (s.setSock s.tx.sock.shutdown)
    else none
  | .establish =>
    if s.path = .connect2 ∧ s.tx.sock.connected = false then some (s.setSock s.tx.sock.establish)
    else none
  | .reset => some (s.setSock s.tx.sock.reset)
  | _ => none

def step {Req : Type} (H : Heap) (L : Sender Req) (s : Link) (a : LinkAct Req) : Option Link :=
  match a with
  | .tx a => s.txStep L a
  | .est e => s.estStep e
  | .syn e => s.tcpTxSyn e
  | .arrive _ | .incoming | .shutdown | .establish | .reset => s.network a
  | a => s.iorun H a

end Link

end Swnet

import Mathlib.Logic.Function.Basic
import Swnet.Fifo
import Swnet.Lib.Runs
import Swnet.Write

/-!
# Sending

Any number of threads in `tcp_write` (or `udp_write`, `arp_nrequest`) on one link, and the thread of
the pool in `__wp_exec` and the `ncb_write` of the link.  A step of the system is what one thread
does up to the next point at which another thread can come in between: one critical section of
`fifo.c`, or one `send(2)` with the bookkeeping behind it.

* `txnRound`   one round of the loop of `tcp_txn`, `udp_txn` and `arp_txn`;
* `Tx`         the state; `kernel` are the bytes that the kernel has taken, in order;
* `Tx.step`    what a thread can do next.
-/

namespace Swnet
open CMem

inductive Proto where
  | tcp
  | udp
  | arp
deriving DecidableEq, Repr

/-! ## one node -/

/-- what `send(2)` or `sendto(2)` answers -/
inductive Sent where
  | bytes (k : Nat)
  | err (errno : Int)
deriving DecidableEq, Repr

/-- an answer of `send(2)` that does not end the link -/
def Sent.Mild : Sent → Prop
  | .bytes k => 0 < k
  | .err e => e = EINTR ∨ e = EAGAIN

def TxNode.advance (node : TxNode) (k : Nat) : TxNode := { node with offset := node.offset + k }

/-- the test of the loop: `none` for one more round, or the return value -/
def txnHead (node : TxNode) : Option Int :=
  if node.offset < node.wcb then none else some node.wcb

/-- one round of the loop: the node, and the return value if the loop ends -/
def txnRound (node : TxNode) : Sent → TxNode × Option Int
  | .bytes k => if k = 0 then (node, some (-1)) else (node.advance k, txnHead (node.advance k))
  | .err e =>
    if e = EAGAIN then (node, some (-EAGAIN)) else if e = EINTR then (node, none) else (node, some (-1))

def tcpTxn : TxNode → Sent → TxNode × Option Int := txnRound
def udpTxn : TxNode → Sent → TxNode × Option Int := txnRound
def arpTxn : TxNode → Sent → TxNode × Option Int := txnRound

def Proto.txn : Proto → TxNode → Sent → TxNode × Option Int
  | .tcp => tcpTxn
  | .udp => udpTxn
  | .arp => arpTxn

/-- `udp_tx` and `arp_tx` take a node out of the queue themselves once it is sent -/
def Proto.txPops : Proto → Bool
  | .tcp => false
  | .udp => true
  | .arp => true

/-- the bytes that the node is about -/
def packet (node : TxNode) : Bytes := node.data.take node.wcb.toNat

/-- the bytes that are still to be sent -/
def left (node : TxNode) : Bytes := (packet node).drop node.offset.toNat

/-- the next `k` bytes -/
def piece (node : TxNode) (k : Nat) : Bytes := (node.data.drop node.offset.toNat).take k

/-! ## the state -/

/-- where a thread is in `tcp_write` -/
inductive Wpc where
  | idle
  /-- in front of `fifo_is_blocking` -/
  | test (node : Nat)
  /-- in `tcp_txn` -/
  | send (node : Nat)
  /-- in front of `fifo_queue` -/
  | queue (node : Nat)
deriving DecidableEq, Repr

/-- where the thread of the pool is in `__wp_exec` -/
inductive Xpc where
  | idle
  /-- in `ncb_write`, in front of `fifo_top` -/
  | top
  | send (node : Nat)
  /-- in `udp_tx` or `arp_tx`, in front of their own `fifo_pop` -/
  | txPop
  /-- behind `ncb_write`, in front of `fifo_pop` -/
  | pop
deriving DecidableEq, Repr

/-- Behind the fields of the program: `kernel`, and a record of what has happened.  `rets` are the
calls that came as far as a node, with their return values; `queued` the nodes that `fifo_queue` took,
with their offsets; `popped` what `fifo_pop` took out; `drained` the bytes that the kernel took from
the pool. -/
structure Tx where
  fifo : Fifo
  sock : Sock
  nodes : Nat → TxNode
  count : Nat
  writer : Nat → Wpc
  worker : Xpc
  tasks : Nat
  closed : Bool
  kernel : Bytes
  rets : List (Nat × Int)
  queued : List (Nat × Int)
  popped : List Nat
  drained : Bytes

/-- nothing sent, nothing queued, nobody at work -/
def Tx.init (sock : Sock) : Tx :=
  ⟨Fifo.init, sock, fun _ => ⟨[], 0, 0⟩, 0, fun _ => .idle, .idle, 0, false, [], [], [], [], []⟩

/-- The kind of link: the protocol, and what the front part of a call makes of its arguments. -/
structure Sender (Req : Type) where
  proto : Proto
  front : Req → C (Except Int TxNode)
  fresh : ∀ q node, front q = .ok (.ok node) → node.offset = 0 ∧ 0 < node.wcb

inductive TxAct (Req : Type) where
  /-- thread `i` calls; `behind` is the memory behind the buffer that the call allocates -/
  | call (i : Nat) (q : Req) (behind : Bytes)
  | test (i : Nat)
  | send (i : Nat) (r : Sent)
  | queue (i : Nat) (e : Nat)
  /-- `wp_queued` -/
  | task
  | exec
  | top (ktcp : Option Nat)
  | wsend (r : Sent)
  | txPop (e : Nat)
  | pop (e : Nat)
  /-- the send buffer gets room -/
  | room
  | close

namespace Tx

def setWriter (s : Tx) (i : Nat) (pc : Wpc) : Tx :=
  { s with writer := Function.update s.writer i pc }

/-- thread `i` returns `v` from the call that built `node` -/
def ret (s : Tx) (i node : Nat) (v : Int) : Tx :=
  { s.setWriter i .idle with rets := s.rets ++ [(node, v)] }

/-- the kernel takes `k` bytes of the node -/
def take (s : Tx) (node k : Nat) : Tx :=
  { s with nodes := Function.update s.nodes node ((s.nodes node).advance k)
           kernel := s.kernel ++ piece (s.nodes node) k }

/-- the kernel's side of `send(2)` on a node: bytes are taken only while there is room, and `EAGAIN`
says that there is none -/
def transmit (s : Tx) (node : Nat) : Sent → Option Tx
  | .bytes k =>
    if (s.nodes node).offset + k ≤ (s.nodes node).wcb ∧ (0 < k → s.sock.full = false) then
      some (s.take node k)
    else none
  | .err e => some (if e = EAGAIN then { s with sock := { s.sock with full := true } } else s)

/-- `__wp_exec` behind `ncb_write`, which has returned `v` -/
def wpRet (proto : Proto) (s : Tx) (v : Int) : Tx :=
  if v = -1 then { s with worker := .idle, closed := true }
  else if v = -EAGAIN then { s with worker := .idle }
  else if v = 0 then { s with worker := .idle }
  else if proto.txPops && decide (0 < v) then { s with worker := .txPop }
  else { s with worker := .pop }

/-- one `fifo_pop` of the pool -/
def popOne (s : Tx) (e : Nat) : Option Nat × Tx :=
  let p := fifoPop s.fifo s.sock e
  (p.1, { s with fifo := p.2.1, sock := p.2.2, popped := s.popped ++ p.1.toList })

/-- What a thread does next.  `none`: it is not at that point, or the kernel cannot answer so. -/
def step {Req : Type} (L : Sender Req) (s : Tx) : TxAct Req → Option Tx
  | .call i q behind =>
    if s.writer i = .idle then
      if s.closed then some s
      else match L.front q with
        | .error _ => none
        | .ok (.error _) => some s
        | .ok (.ok node) =>
          if node.wcb ≤ (node.data ++ behind).length then
            some { s.setWriter i (.test s.count) with
              nodes := Function.update s.nodes s.count { node with data := node.data ++ behind }
              count := s.count + 1 }
          else none
    else none
  | .test i =>
    match s.writer i with
    | .test node =>
      if fifoIsBlocking s.fifo = 0 then
        match txnHead (s.nodes node) with
        | none => some (s.setWriter i (.send node))
        | some v => some (s.ret i node v)
      else some (s.setWriter i (.queue node))
    | _ => none
  | .send i r =>
    match s.writer i with
    | .send node =>
      (s.transmit node r).map fun s' =>
        match (L.proto.txn (s.nodes node) r).2 with
        | none => s'
        | some v => if v = -EAGAIN then s'.setWriter i (.queue node) else s'.ret i node v
    | _ => none
  | .queue i e =>
    match s.writer i with
    | .queue node =>
      let p := fifoQueue s.fifo s.sock node e
      if p.1 < 0 then some ({ s with fifo := p.2.1, sock := p.2.2 }.ret i node p.1)
      else some ({ s with fifo := p.2.1, sock := p.2.2,
                          queued := s.queued ++ [(node, (s.nodes node).offset)] }.ret i node 0)
    | _ => none
  | .task => some { s with tasks := s.tasks + 1 }
  | .exec =>
    if s.worker = .idle ∧ 0 < s.tasks then
      some { s with tasks := s.tasks - 1, worker := if s.closed then .idle else .top }
    else none
  | .top ktcp =>
    if s.worker = .top then
      if L.proto = .tcp ∧ ktcp.any (· ≠ TCP_ESTABLISHED) = true then some (wpRet L.proto s (-1))
      else match fifoTop s.fifo with
        | none => some (wpRet L.proto s 0)
        | some node =>
          match txnHead (s.nodes node) with
          | none => some { s with worker := .send node }
          | some v => some (wpRet L.proto s v)
    else none
  | .wsend r =>
    match s.worker with
    | .send node =>
      (s.transmit node r).map fun s' =>
        let s'' := { s' with drained := s.drained ++ s'.kernel.drop s.kernel.length }
        match (L.proto.txn (s.nodes node) r).2 with
        | none => s''
        | some v => wpRet L.proto s'' v
    | _ => none
  | .txPop e => if s.worker = .txPop then some { (s.popOne e).2 with worker := .pop } else none
  | .pop e =>
    if s.worker = .pop then
      let p := s.popOne e
      some { p.2 with worker := .idle, tasks := s.tasks + p.1.toList.length }
    else none
  | .room => if s.sock.full = true then some { s with sock := s.sock.room } else none
  | .close => some { s with closed := true }

end Tx

/-! ## the three kinds of link -/

/-- the arguments of a call, with what decides how its front part goes -/
structure WriteReq where
  k : Nat
  ktcp : Option Nat
  origin : Bytes
  cb : Int
  serializer : Option Serializer

theorem tcp_write_fresh {H : Heap} {k : Nat} {ncb : Ncb} {ready : Bool} {ktcp : Option Nat}
    {origin : Bytes} {cb : Int} {serializer : Option Serializer} {node : TxNode}
    (hcb : 0 ≤ ncb.tcp.template.cb_)
    (h : tcpWriteNode H k ncb ready ktcp origin cb serializer = .ok (.ok node)) :
    node.offset = 0 ∧ 0 < node.wcb := by
  obtain ⟨h1, _, h2, h3⟩ := writeNode_shape h
  exact ⟨h3, by omega⟩

theorem udp_write_fresh {maxUdpUnit : Nat} {H : Heap} {k : Nat} {origin : Bytes} {cb : Int}
    {serializer : Option Serializer} {node : TxNode}
    (h : udpWriteNode maxUdpUnit H k origin cb serializer = .ok (.ok node)) :
    node.offset = 0 ∧ 0 < node.wcb := by
  unfold udpWriteNode at h
  split at h
  · cases h
  cases hm : mallocInt H k cb with
  | none => rw [hm] at h; cases h
  | some buffer =>
    rw [hm] at h
    dsimp only at h
    cases hs : serializeData buffer 0 origin cb serializer with
    | error e => rw [hs] at h; cases h
    | ok p =>
      rw [hs, ok_bind] at h
      split at h
      · cases h
      cases hn : H.malloc (k + 1) TX_NODE_SIZE with
      | none => rw [hn] at h; cases h
      | some _ =>
        rw [hn] at h
        cases h
        exact ⟨rfl, by show 0 < cb; omega⟩

/-- a TCP link whose two handlers are set -/
def tcpSender (H : Heap) (ncb : Ncb) (hcb : 0 ≤ ncb.tcp.template.cb_) : Sender WriteReq where
  proto := .tcp
  front q := tcpWriteNode H q.k ncb true q.ktcp q.origin q.cb q.serializer
  fresh _ _ h := tcp_write_fresh hcb h

def udpSender (maxUdpUnit : Nat) (H : Heap) : Sender WriteReq where
  proto := .udp
  front q := udpWriteNode maxUdpUnit H q.k q.origin q.cb q.serializer
  fresh _ _ h := udp_write_fresh h

end Swnet

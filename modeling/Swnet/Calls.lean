import Swnet.Write
import Swnet.Establish

/-!
# The public calls on a link

Every function of `tcp.c`, `udp.c`, `arp.c` and `mxx.c` that is given the handle of a link, with what
it does to objects.  What a call finds, and what it is answered inside, are arguments.

* `Api`            the calls, and `Api.call` what they do;
* `balanced_iff`   when a call gives back every reference that it takes.
-/

namespace Swnet
open Traced Runs

section
variable {σ : Type}

/-! ## pipe messages -/

abbrev PIPE_BUF : Nat := 4096
/-- `sizeof(struct pipe_package_head)` -/
abbrev PIPE_HEAD_SIZE : Nat := 16

/-- What `pipe_write_message` is answered: the handle of the I/O block, whether `objrefr` finds it, its
`pipefdw` for the link, whether `malloc` has memory, and the answer of `write(2)`. -/
structure PipeOut where
  hld : Int
  found : Bool
  pipefdw : Int
  mem : Bool
  written : Int

/-- `io_pipefd` -/
def ioPipefd (o : PipeOut) : Call σ Int := do
  if o.hld < 0 then return -EPROTOTYPE
  match o.found with
  | false =>
    objrefr o.hld false
    return -ENOENT
  | true =>
    objrefr o.hld true
    objdefr o.hld
    return o.pipefdw

/-- `pipe_write_message`; a negative `cb` is large where it is compared with a `size_t` -/
def pipeWriteMessage (cb : Int) (o : PipeOut) : Call σ Int := do
  if cb < 0 ∨ cb ≥ PIPE_BUF - PIPE_HEAD_SIZE then return -EINVAL
  let pipefd ← ioPipefd o
  if pipefd ≤ 0 then return -1
  if o.mem = false then return -ENOMEM
  return o.written

/-! ## what sends a packet -/

/-- The way to the node of a packet: whether there is memory for the buffer, the answers of the builder
and of the serializer where there are such, and whether there is memory for the node. -/
structure BufferOut where
  mem : Bool
  builder : Option Int
  serializer : Option Int
  node : Bool

/-- the answer of a call that comes no further -/
def BufferOut.stop (o : BufferOut) : Option Int :=
  if o.mem = false then some (-ENOMEM)
  else if o.builder.any (· < 0) then some (-1)
  else if o.serializer.any (· < 0) then some (-1)
  else if o.node = false then some (-ENOMEM)
  else none

/-- the answers of `fifo_is_blocking`, of `tcp_txn` and its likes, and of `fifo_queue` -/
structure SendOut where
  blocking : Bool
  txn : Int
  queue : Int

/-- the end of `tcp_write`, `udp_write` and `arp_nrequest`, with its three exits -/
def sendNode (link : Int) (o : SendOut) : Call σ Int := do
  if o.blocking = false ∧ o.txn ≠ -EAGAIN then
    objdefr link
    return o.txn
  if o.queue < 0 then
    objdefr link
    return o.queue
  objdefr link
  return 0

/-! ## `tcp.c` -/

/-- `cb_` of the template that is given, `none` for a null pointer -/
def tcpSettst (link : Int) (tst : Option Int) (found : Option Proto) : Call σ Int := do
  match tst with
  | none => return -EINVAL
  | some cb_ =>
    if cb_ > TCP_MAXIMUM_TEMPLATE_SIZE then return -EINVAL
    let retval ← tcprefr link found
    if retval < 0 then return retval
    objdefr link
    return retval

/-- `tcp_settst_r` differs in how it stores the template -/
def tcpSettstR : Int → Option Int → Option Proto → Call σ Int := tcpSettst

def tcpGettst (link : Int) (tst : Bool) (found : Option Proto) : Call σ Int := do
  if tst = false then return -EINVAL
  let retval ← tcprefr link found
  if retval < 0 then return retval
  objdefr link
  return retval

/-- `tcp_gettst_r` differs in how it loads the template -/
def tcpGettstR : Int → Bool → Option Proto → Call σ Int := tcpGettst

/-- the common body of `tcp_awaken` and `udp_awaken` -/
def awaken (p : Proto) (link cb : Int) (found : Option Proto) (o : PipeOut) : Call σ Int := do
  if link < 0 then return -EINVAL
  let retval ← protoRefr p link found
  if retval < 0 then return retval
  let retval ← pipeWriteMessage cb o
  objdefr link
  return retval

def tcpAwaken : Int → Int → Option Proto → PipeOut → Call σ Int := awaken .tcp

/-- What `tcp_write` finds: the link, whether both handlers are set, and the state in `TCP_INFO`. -/
structure TcpWriteOut where
  found : Option Proto
  ready : Bool
  ktcp : Option Nat
  buffer : BufferOut
  send : SendOut

/-- `tcp_write` -/
def tcpWriteCall (link : Int) (origin : Bool) (cb : Int) (o : TcpWriteOut) : Call σ Int := do
  if link < 0 ∨ cb ≤ 0 ∨ cb > TCP_MAXIMUM_PACKET_SIZE ∨ origin = false then return -EINVAL
  let retval ← tcprefr link o.found
  if retval < 0 then return retval
  if o.ready = false then
    objdefr link
    return -EINVAL
  if o.ktcp.any (· ≠ TCP_ESTABLISHED) then
    objdefr link
    return -1
  match o.buffer.stop with
  | some v =>
    objdefr link
    return v
  | none => sendNode link o.send

/-- which address is asked for -/
inductive LinkAddr where
  | loc
  | remote
  | other

def tcpGetaddr (link : Int) (type : LinkAddr) (found : Option Proto) : Call σ Int := do
  let retval ← tcprefr link found
  if retval < 0 then return retval
  let retval := match type with
    | .other => -EINVAL
    | _ => retval
  objdefr link
  return retval

/-- The common body of `setopt` and `getopt`, which hand on what `setsockopt(2)` or `getsockopt(2)`
answers. -/
def sockopt (p : Proto) (link : Int) (found : Option Proto) (answer : Int) : Call σ Int := do
  let retval ← protoRefr p link found
  if retval < 0 then return retval
  objdefr link
  return answer

def tcpSetopt : Int → Option Proto → Int → Call σ Int := sockopt .tcp
def tcpGetopt : Int → Option Proto → Int → Call σ Int := sockopt .tcp

/-- `known`: it is one of the three attributes -/
def tcpSetattr (link : Int) (known : Bool) (found : Option Proto) : Call σ Int := do
  let retval ← tcprefr link found
  if retval < 0 then return retval
  let retval := if known then 0 else -EINVAL
  objdefr link
  return retval

def tcpGetattr (link : Int) (found : Option Proto) : Call σ Int := do
  let retval ← tcprefr link found
  if retval < 0 then return retval
  objdefr link
  return retval

/-! ## `udp.c` -/

def udpAwaken : Int → Int → Option Proto → PipeOut → Call σ Int := awaken .udp

/-- `udp_write`; the largest datagram is declared outside the library -/
def udpWriteCall (maxUdpUnit : Nat) (link : Int) (origin : Bool) (cb : Int) (ipstr : Bool) (port : Nat)
    (found : Option Proto) (buffer : BufferOut) (send : SendOut) : Call σ Int := do
  if ipstr = false ∨ port = 0 ∨ cb ≤ 0 ∨ link < 0 ∨ cb > maxUdpUnit ∨ origin = false then
    return -EINVAL
  let retval ← udprefr link found
  if retval < 0 then return retval
  match buffer.stop with
  | some v =>
    objdefr link
    return v
  | none => sendNode link send

def udpGetaddr (link : Int) (found : Option Proto) : Call σ Int := do
  let retval ← udprefr link found
  if retval < 0 then return retval
  objdefr link
  return retval

def udpSetopt : Int → Option Proto → Int → Call σ Int := sockopt .udp
def udpGetopt : Int → Option Proto → Int → Call σ Int := sockopt .udp

/-- What the calls for a group find: `UDP_FLAG_MULTICAST` of the link, its `mreq`, whether `malloc` has
memory for one, and the answers of the two `setsockopt(2)`. -/
structure GroupOut where
  found : Option Proto
  multicast : Bool
  mreq : Bool
  mem : Bool
  loopback : Int
  membership : Int

def udpJoingrp (link : Int) (ipstr : Bool) (port : Nat) (o : GroupOut) : Call σ Int := do
  if link < 0 ∨ ipstr = false ∨ port = 0 then return -EINVAL
  let retval ← udprefr link o.found
  if retval < 0 then return retval
  let retval :=
    if o.multicast = false then -1
    else if o.loopback < 0 then o.loopback
    -- without memory the answer is that of the first `setsockopt(2)`
    else if o.mreq = false ∧ o.mem = false then o.loopback
    else o.membership
  objdefr link
  return retval

def udpDropgrp (link : Int) (o : GroupOut) : Call σ Int := do
  let retval ← udprefr link o.found
  if retval < 0 then return retval
  let retval :=
    if o.multicast = false ∨ o.mreq = false then -1
    else if o.loopback < 0 then o.loopback
    else o.membership
  objdefr link
  return retval

/-! ## `arp.c` -/

/-- `arp_nrequest`; there is no builder and no serializer -/
def arpNrequest (link : Int) (found : Option Proto) (mem node : Bool) (send : SendOut) : Call σ Int := do
  let retval ← arprefr link found
  if retval < 0 then return retval
  match (BufferOut.mk mem none none node).stop with
  | some v =>
    objdefr link
    return v
  | none => sendNode link send

def arpRequest : Int → Option Proto → Bool → Bool → SendOut → Call σ Int := arpNrequest

/-! ## `mxx.c` -/

/-- The commands of `nis_cntl`.  For the two about templates `found` is what the inner call finds. -/
inductive Cmd where
  | setattr
  | getattr (attr : Int)
  | setctx
  | getctx
  | settst (tst : Option Int) (found : Option Proto)
  | gettst (tst : Bool) (found : Option Proto)
  | other

/-- `nis_cntl`; `found` is the protocol of the link that `objrefr` finds -/
def nisCntl (link : Int) (cmd : Cmd) (found : Option Proto) : Call σ Int := do
  match found with
  | none =>
    objrefr link false
    return -ENOENT
  | some p =>
    objrefr link true
    match cmd with
    | .setattr =>
      objdefr link
      return 0
    | .getattr attr =>
      objdefr link
      return if p = .arp then 0 else attr
    | .setctx =>
      objdefr link
      return 0
    | .getctx =>
      objdefr link
      return 0
    | .settst tst found =>
      let retval ← tcpSettstR link tst found
      objdefr link
      return retval
    | .gettst tst found =>
      let retval ← tcpGettstR link tst found
      objdefr link
      return retval
    | .other => return -EINVAL

end

/-! ## all of them -/

inductive Api where
  | tcpSettst (tst : Option Int) (found : Option Proto)
  | tcpSettstR (tst : Option Int) (found : Option Proto)
  | tcpGettst (tst : Bool) (found : Option Proto)
  | tcpGettstR (tst : Bool) (found : Option Proto)
  | establish (c : Establish)
  | tcpAwaken (cb : Int) (found : Option Proto) (o : PipeOut)
  | tcpWrite (origin : Bool) (cb : Int) (o : TcpWriteOut)
  | tcpGetaddr (type : LinkAddr) (found : Option Proto)
  | tcpSetopt (found : Option Proto) (answer : Int)
  | tcpGetopt (found : Option Proto) (answer : Int)
  | tcpSetattr (known : Bool) (found : Option Proto)
  | tcpGetattr (found : Option Proto)
  | udpAwaken (cb : Int) (found : Option Proto) (o : PipeOut)
  | udpWrite (maxUdpUnit : Nat) (origin : Bool) (cb : Int) (ipstr : Bool) (port : Nat)
      (found : Option Proto) (buffer : BufferOut) (send : SendOut)
  | udpGetaddr (found : Option Proto)
  | udpSetopt (found : Option Proto) (answer : Int)
  | udpGetopt (found : Option Proto) (answer : Int)
  | udpJoingrp (ipstr : Bool) (port : Nat) (o : GroupOut)
  | udpDropgrp (o : GroupOut)
  | arpNrequest (found : Option Proto) (mem node : Bool) (send : SendOut)
  | arpRequest (found : Option Proto) (mem node : Bool) (send : SendOut)
  | nisCntl (cmd : Cmd) (found : Option Proto)

def Api.call (link : Int) : Api → Call Lnk Int
  | .tcpSettst tst found => Swnet.tcpSettst link tst found
  | .tcpSettstR tst found => Swnet.tcpSettstR link tst found
  | .tcpGettst tst found => Swnet.tcpGettst link tst found
  | .tcpGettstR tst found => Swnet.tcpGettstR link tst found
  | .establish c => c.call link
  | .tcpAwaken cb found o => Swnet.tcpAwaken link cb found o
  | .tcpWrite origin cb o => tcpWriteCall link origin cb o
  | .tcpGetaddr type found => Swnet.tcpGetaddr link type found
  | .tcpSetopt found answer => Swnet.tcpSetopt link found answer
  | .tcpGetopt found answer => Swnet.tcpGetopt link found answer
  | .tcpSetattr known found => Swnet.tcpSetattr link known found
  | .tcpGetattr found => Swnet.tcpGetattr link found
  | .udpAwaken cb found o => Swnet.udpAwaken link cb found o
  | .udpWrite maxUdpUnit origin cb ipstr port found buffer send =>
    udpWriteCall maxUdpUnit link origin cb ipstr port found buffer send
  | .udpGetaddr found => Swnet.udpGetaddr link found
  | .udpSetopt found answer => Swnet.udpSetopt link found answer
  | .udpGetopt found answer => Swnet.udpGetopt link found answer
  | .udpJoingrp ipstr port o => Swnet.udpJoingrp link ipstr port o
  | .udpDropgrp o => Swnet.udpDropgrp link o
  | .arpNrequest found mem node send => Swnet.arpNrequest link found mem node send
  | .arpRequest found mem node send => Swnet.arpRequest link found mem node send
  | .nisCntl cmd found => Swnet.nisCntl link cmd found

/-! ## the calls, one by one -/

section
variable {σ : Type} {p : Proto} {link : Int} {found : Option Proto}

theorem balanced_pipeWriteMessage (cb : Int) (o : PipeOut) :
    Balanced (pipeWriteMessage cb o : Call σ Int) := by
  have hfd : Balanced (ioPipefd o : Call σ Int) := by
    unfold ioPipefd
    refine balanced_ite (balanced_pure _) ?_
    cases o.found with
    | false =>
      intro m
      apply leads_missing
      exact leads_pure rfl
    | true =>
      intro m
      apply leads_found
      apply leads_given
      exact leads_pure rfl
  unfold pipeWriteMessage
  refine balanced_ite (balanced_pure _) (balanced_bind hfd fun fd => ?_)
  exact balanced_ite (balanced_pure _) (balanced_ite (balanced_pure _) (balanced_pure _))

theorem returns_sendNode (o : SendOut) : Returns link (sendNode link o : Call σ Int) := by
  unfold sendNode
  exact returns_ite (returns_exit _) (returns_ite (returns_exit _) (returns_exit _))

/-- the two ways behind the node of a packet -/
theorem returns_buffer (b : Option Int) (o : SendOut) :
    Returns link (match b with
      | some v => do objdefr link; return v
      | none => sendNode link o : Call σ Int) := by
  cases b with
  | none => exact returns_sendNode o
  | some v => exact returns_exit v

theorem balanced_tcpSettst (tst : Option Int) :
    Balanced (tcpSettst link tst found : Call σ Int) := by
  unfold tcpSettst
  cases tst with
  | none => exact balanced_pure _
  | some cb_ => exact balanced_ite (balanced_pure _) (balanced_refr (returns_exit 0))

theorem balanced_tcpGettst (tst : Bool) : Balanced (tcpGettst link tst found : Call σ Int) := by
  unfold tcpGettst
  exact balanced_ite (balanced_pure _) (balanced_refr (returns_exit 0))

theorem balanced_awaken (cb : Int) (o : PipeOut) :
    Balanced (awaken p link cb found o : Call σ Int) := by
  unfold awaken
  refine balanced_ite (balanced_pure _) (balanced_refr ?_)
  exact returns_steady (balanced_pipeWriteMessage cb o).steady

theorem balanced_tcpWriteCall (origin : Bool) (cb : Int) (o : TcpWriteOut) :
    Balanced (tcpWriteCall link origin cb o : Call σ Int) := by
  unfold tcpWriteCall
  refine balanced_ite (balanced_pure _) (balanced_refr ?_)
  exact returns_ite (returns_exit _) (returns_ite (returns_exit _) (returns_buffer _ _))

theorem balanced_udpWriteCall (maxUdpUnit : Nat) (origin : Bool) (cb : Int) (ipstr : Bool)
    (port : Nat) (buffer : BufferOut) (send : SendOut) :
    Balanced (udpWriteCall maxUdpUnit link origin cb ipstr port found buffer send : Call σ Int) := by
  unfold udpWriteCall
  exact balanced_ite (balanced_pure _) (balanced_refr (returns_buffer _ _))

theorem balanced_arpNrequest (mem node : Bool) (send : SendOut) :
    Balanced (arpNrequest link found mem node send : Call σ Int) := by
  unfold arpNrequest
  exact balanced_refr (returns_buffer _ _)

theorem balanced_sockopt (answer : Int) : Balanced (sockopt p link found answer : Call σ Int) := by
  unfold sockopt
  exact balanced_refr (returns_exit _)

theorem balanced_tcpGetaddr (type : LinkAddr) :
    Balanced (tcpGetaddr link type found : Call σ Int) := by
  unfold tcpGetaddr
  exact balanced_refr (returns_exit _)

theorem balanced_tcpSetattr (known : Bool) :
    Balanced (tcpSetattr link known found : Call σ Int) := by
  unfold tcpSetattr
  exact balanced_refr (returns_exit _)

theorem balanced_udpJoingrp (ipstr : Bool) (port : Nat) (o : GroupOut) :
    Balanced (udpJoingrp link ipstr port o : Call σ Int) := by
  unfold udpJoingrp
  exact balanced_ite (balanced_pure _) (balanced_refr (returns_exit _))

theorem balanced_udpDropgrp (o : GroupOut) : Balanced (udpDropgrp link o : Call σ Int) := by
  unfold udpDropgrp
  exact balanced_refr (returns_exit _)

end

/-! ## the calls that establish a link -/

section
variable {link : Int}

theorem steady_attachLink (a : AttachOut) : Steady link (attachLink a) := by
  unfold attachLink
  refine steady_bind (balanced_ioAttach a).steady fun v => ?_
  exact steady_bind (balanced_store _).steady fun _ => steady_pure v

theorem steady_store {g : Lnk → Lnk} : Steady link (store g : Call Lnk Unit) :=
  (balanced_store g).steady

theorem steady_objclos : Steady link (objclos link : Call Lnk Unit) := (balanced_objclos link).steady

theorem steady_tcpTxSynCall (o : Outcome) : Steady link (tcpTxSynCall link o) := by
  unfold tcpTxSynCall
  refine steady_ite ?_ (steady_ite (steady_pure _) (steady_ite (steady_pure _) (steady_pure _)))
  refine steady_bind ?_ fun v => steady_ite ?_ ?_
  · unfold modifyLink
    exact steady_bind balanced_look.steady fun _ => steady_pure _
  · exact steady_bind steady_objclos fun _ => steady_pure _
  · refine steady_bind steady_store fun _ => steady_bind steady_store fun _ => ?_
    exact steady_bind (steady_post _ rfl) fun _ => steady_pure _

theorem steady_tcpConnectBody (o : Outcome) : Steady link (tcpConnectBody link o) := by
  unfold tcpConnectBody
  refine steady_ite (steady_pure _) (steady_ite (steady_pure _) ?_)
  refine steady_bind (steady_attachLink _) fun v => steady_ite ?_ ?_
  · exact steady_bind steady_objclos fun _ => steady_pure _
  · refine steady_bind (steady_post _ rfl) fun _ => ?_
    exact steady_bind steady_store fun _ => steady_bind steady_store fun _ => steady_pure _

theorem steady_tcpConnect2Body (o : Outcome) : Steady link (tcpConnect2Body link o) := by
  unfold tcpConnect2Body
  refine steady_ite (steady_pure _) (steady_ite (steady_pure _) ?_)
  refine steady_bind balanced_look.steady fun s => steady_ite (steady_pure _) ?_
  refine steady_bind steady_store fun _ => steady_ite ?_ (steady_ite ?_ (steady_pure _))
  · exact steady_bind (steady_tcpTxSynCall o) fun _ => steady_pure _
  · refine steady_bind (steady_attachLink _) fun v => steady_ite ?_ (steady_pure _)
    exact steady_bind steady_objclos fun _ => steady_pure _

theorem steady_tcpListenBody (o : Outcome) : Steady link (tcpListenBody link o) := by
  unfold tcpListenBody
  refine steady_ite (steady_pure _) (steady_ite (steady_pure _) ?_)
  refine steady_bind balanced_look.steady fun s => steady_ite (steady_pure _) ?_
  refine steady_bind steady_store fun _ => steady_bind steady_store fun _ => ?_
  refine steady_bind (steady_attachLink _) fun v => steady_ite ?_ (steady_pure _)
  exact steady_bind steady_objclos fun _ => steady_pure _

theorem balanced_establish (c : Establish) : Balanced (c.call link) := by
  cases c with
  | connect ipstr port o =>
    exact balanced_ite (balanced_pure _) (balanced_refr (returns_steady (steady_tcpConnectBody o)))
  | connect2 ipstr port o =>
    exact balanced_ite (balanced_pure _) (balanced_refr (returns_steady (steady_tcpConnect2Body o)))
  | listen block o =>
    exact balanced_ite (balanced_pure _) (balanced_refr (returns_steady (steady_tcpListenBody o)))

end

/-! ## `nis_cntl` -/

section
variable {link : Int} {found : Option Proto}

/-- the inner call of `nis_cntl` has a reference of its own -/
theorem returns_balanced {σ : Type} {y : Call σ Int} (hy : Balanced y) :
    Returns link (do let retval ← y; objdefr link; return retval) := returns_steady hy.steady

theorem balanced_nisCntl {σ : Type} {cmd : Cmd} (h : cmd = .other → found = none) :
    Balanced (nisCntl link cmd found : Call σ Int) := by
  intro m
  cases found with
  | none => exact leads_missing (leads_pure rfl)
  | some p =>
    apply leads_found
    cases cmd with
    | setattr => exact returns_exit _ m
    | getattr attr => exact returns_exit _ m
    | setctx => exact returns_exit _ m
    | getctx => exact returns_exit _ m
    | settst tst f => exact returns_balanced (balanced_tcpSettst tst) m
    | gettst tst f => exact returns_balanced (balanced_tcpGettst tst) m
    | other => cases h rfl

end

/-! ## every call -/

/-- an unknown command is given to `nis_cntl`, and the link is found -/
def Api.Leaks (c : Api) : Prop := ∃ p, c = .nisCntl .other (some p)

theorem balanced_api {link : Int} {c : Api} (h : ¬ c.Leaks) : Balanced (c.call link) := by
  cases c with
  | tcpSettst tst found => exact balanced_tcpSettst tst
  | tcpSettstR tst found => exact balanced_tcpSettst tst
  | tcpGettst tst found => exact balanced_tcpGettst tst
  | tcpGettstR tst found => exact balanced_tcpGettst tst
  | establish c => exact balanced_establish c
  | tcpAwaken cb found o => exact balanced_awaken cb o
  | tcpWrite origin cb o => exact balanced_tcpWriteCall origin cb o
  | tcpGetaddr type found => exact balanced_tcpGetaddr type
  | tcpSetopt found answer => exact balanced_sockopt answer
  | tcpGetopt found answer => exact balanced_sockopt answer
  | tcpSetattr known found => exact balanced_tcpSetattr known
  | tcpGetattr found => exact balanced_refr (returns_exit _)
  | udpAwaken cb found o => exact balanced_awaken cb o
  | udpWrite maxUdpUnit origin cb ipstr port found buffer send =>
    exact balanced_udpWriteCall maxUdpUnit origin cb ipstr port buffer send
  | udpGetaddr found => exact balanced_refr (returns_exit _)
  | udpSetopt found answer => exact balanced_sockopt answer
  | udpGetopt found answer => exact balanced_sockopt answer
  | udpJoingrp ipstr port o => exact balanced_udpJoingrp ipstr port o
  | udpDropgrp o => exact balanced_udpDropgrp o
  | arpNrequest found mem node send => exact balanced_arpNrequest mem node send
  | arpRequest found mem node send => exact balanced_arpNrequest mem node send
  | nisCntl cmd found =>
    refine balanced_nisCntl fun hc => ?_
    subst hc
    cases found with
    | none => rfl
    | some p => exact absurd ⟨p, rfl⟩ h

/-- **When a call gives back every reference that it takes.** -/
theorem balanced_iff (link : Int) (s : Lnk) (c : Api) :
    ((c.call link).trace s).countP (Act.takes link) = ((c.call link).trace s).count (.objdefr link) ↔
      ¬ c.Leaks := by
  constructor
  · rintro h ⟨p, rfl⟩
    change [Act.objrefr link true].countP (Act.takes link)
      = [Act.objrefr link true].count (.objdefr link) at h
    simp [Act.takes] at h
  · intro h
    have hb : Balanced (c.call link) := balanced_api h
    obtain ⟨m', h1, rfl⟩ := hb (fun _ => 0) s
    have h2 := @run_hold_count link _ _ _ h1
    omega

/-- an unknown command: the reference is never given back -/
theorem nisCntl_leaks : let c := Api.nisCntl .other (some .tcp)
    (c.call 5).val Lnk.created = -EINVAL ∧ (c.call 5).trace Lnk.created = [.objrefr 5 true] ∧
      ((c.call 5).trace Lnk.created).countP (Act.takes 5)
        ≠ ((c.call 5).trace Lnk.created).count (.objdefr 5) :=
  ⟨rfl, rfl, by decide⟩

end Swnet

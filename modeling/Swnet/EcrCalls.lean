import Swnet.Diagnostics
import Swnet.Establish

/-!
# What the calls say

`tcp_create`, `udp_create`, `tcp_connect` and `tcp_connect2` with every message that they give to
`nis_call_ecr`, those of `io_attach`, `tcp_tx_syn` and the destructor among them.

* `ioAttach`, `tcpTxSyn` and the others, with what they are answered beside their arguments;
* `Sim` between each of them and the function of the same name that says nothing;
* `tcpConnect_told`, `tcpConnect2_told`   the answer and the link of the two calls, without the messages.
-/

namespace Swnet
open CMem Traced

namespace Ecr

-- the formats are long lists of characters
set_option maxRecDepth 1000

abbrev Told (σ α : Type) := Prog EcrCall σ α

/-- a message -/
def callEcr {σ : Type} (fmt : String) (args : List Arg)
    (typed : (format fmt args).isSome := by rw [format_ofList]; exact of_decide_eq_true rfl) :
    Told σ Unit := tell ⟨fmt, args, typed⟩

/-! ## outcomes -/

/-- `errno` behind a system call that has failed -/
structure Errno where
  val : Nat
  pos : 0 < val
  int : val < 2 ^ 31

/-- the number as it is passed to `nis_call_ecr` -/
def Errno.word (e : Errno) : Int32 := Int32.ofNat e.val

/-- zero for a call that succeeds -/
def code : Option Errno → Nat
  | none => 0
  | some e => e.val

/-- a file descriptor from the kernel -/
structure Fd where
  val : Int32
  nonneg : 0 ≤ val.toInt

inductive FcntlCmd where
  | getfl
  | setfl
  | getfd
  | setfd

/-- What `io_attach` is answered: the `fcntl(2)` that fails, the handle of the I/O block, whether `objrefr`
finds it, its `epfd` for the link, and the error of `epoll_ctl(2)`. -/
structure Attached where
  fcntl : Option (FcntlCmd × Errno)
  hld : Int64
  found : Bool
  epfd : Fd
  ctl : Option Errno

abbrev EPOLLIN : Int32 := 1
abbrev EPOLLOUT : Int32 := 4

section
variable {σ : Type}

/-! ## `io.c` and `ncb.c` -/

/-- `io_fcntl` -/
def ioFcntl (fd : Int32) (o : Option (FcntlCmd × Errno)) : Told σ Int := do
  if fd < 0 then return -EINVAL
  match o with
  | none => return 0
  | some (.getfl, errno) =>
    callEcr "[nshost.io.io_fcntl] fatal error occurred syscall fcntl(2) with F_GETFL.error:%d"
      [.int errno.word]
    return -errno.val
  | some (.setfl, errno) =>
    callEcr "[nshost.io.io_fcntl] fatal error occurred syscall fcntl(2) with F_SETFL.error:%d"
      [.int errno.word]
    return -errno.val
  | some (.getfd, errno) =>
    callEcr "[nshost.io.io_fcntl] fatal error occurred syscall fcntl(2) with F_GETFD.error:%d"
      [.int errno.word]
    return -errno.val
  | some (.setfd, errno) =>
    callEcr "[nshost.io.io_fcntl] fatal error occurred syscall fcntl(2) with F_SETFD.error:%d"
      [.int errno.word]
    return -errno.val

/-- `io_attach`; it answers with `ncb->epfd` too, which it may have changed -/
def ioAttach (hld : Int64) (sockfd epfd mask : Int32) (o : Attached) : Told σ (Int × Int32) := do
  let retval ← ioFcntl sockfd o.fcntl
  if retval < 0 then return (retval, epfd)
  if o.hld < 0 then return (-EPROTOTYPE, epfd)
  if o.found = false then
    callEcr "[nshost.io.io_attach] failed reference assicoated io object block with handle:%lld"
      [.llong o.hld]
    return (-ENOENT, epfd)
  match o.ctl.filter (·.val ≠ EEXIST) with
  | some errno =>
    callEcr "[nshost.io.io_attach] fatal error occurred syscall epoll_ctl(2) when add link:%lld with sockfd:%d upon epollfd:%d with mask:%d, error:%u,"
      [.llong hld, .int sockfd, .int o.epfd.val, .int mask, .int errno.word]
    return (-1, -1)
  | none =>
    callEcr "[nshost.io.io_attach] success associate sockfd:%d with epfd:%d, link:%lld"
      [.int sockfd, .int o.epfd.val, .llong hld]
    return (o.epfd.val.toInt, o.epfd.val)

/-- `io_detach` -/
def ioDetach (hld : Int64) (sockfd epfd : Int32) (ctl : Option Errno) : Told σ Unit :=
  match ctl with
  | none => pure ()
  | some errno =>
    callEcr "[nshost.io.io_detach] fatal error occurred syscall epoll_ctl(2) when remove link:%lld with sockfd:%d from epollfd:%d, error:%u"
      [.llong hld, .int sockfd, .int epfd, .int errno.word]

/-- `io_close` -/
def ioClose (hld : Int64) (sockfd epfd : Int32) (ctl : Option Errno) : Told σ Unit :=
  if sockfd > 0 ∧ epfd > 0 then ioDetach hld sockfd epfd ctl else pure ()

/-- `ncb_deconstruct` -/
def ncbDeconstruct (hld : Int64) (sockfd epfd : Int32) (ctl : Option Errno) : Told σ Unit := do
  ioClose hld sockfd epfd ctl
  callEcr "[nshost.ncb.ncb_deconstruct] link:%lld finalization released" [.llong hld]

/-- `objdefr` or `objclos`: the destructor runs if it was the last reference; `last` is then the answer of
`epoll_ctl(2)` in `io_detach` -/
def release (hld : Int64) (sockfd epfd : Int32) (last : Option (Option Errno)) : Told σ Unit :=
  match last with
  | none => pure ()
  | some ctl => ncbDeconstruct hld sockfd epfd ctl

/-! ## `tcp_create` and `udp_create` -/

/-- the text for a local address that is not given -/
def anyHost : CStr := .lit "0.0.0.0"

/-- a `uint16_t` is promoted to an `int` -/
def portArg (port : UInt16) : Arg := .int (Int32.ofNat port.toNat)

/-- What `tcp_create` is answered: the socket, the error of `bind(2)`, the handle from `objallo`, and
whether `malloc` has memory for the two buffers. -/
structure TcpCreated where
  socket : Except Errno Fd
  bind : Option Errno
  hld : Int64
  packet : Bool
  rxBuffer : Bool
  last : Option (Option Errno)

/-- `tcp_create` -/
def tcpCreate (ipstr : Option CStr) (port : UInt16) (o : TcpCreated) : Told σ Int :=
  match o.socket with
  | .error errno => do
    callEcr "[nshost.tcp.create] fatal error occurred syscall socket(2),error:%d" [.int errno.word]
    return -1
  | .ok fd =>
    match o.bind with
    | some errno => do
      callEcr "[nshost.tcp.create] fatal error occurred syscall bind(2), local endpoint %s:%u, error:%d"
        [.str (ipstr.getD anyHost), portArg port, .int errno.word]
      return -1
    | none => do
      if o.hld < 0 then
        callEcr "[nshost.tcp.create] insufficient resource for allocate inner object." []
        return -1
      if o.packet = false ∨ o.rxBuffer = false then
        release o.hld fd.val 0 o.last
        return -ENOMEM
      return o.hld.toInt

/-- What `udp_create` is answered; `boardcast` is the error of `udp_set_boardcast`. -/
structure UdpCreated where
  socket : Except Errno Fd
  bind : Option Errno
  hld : Int64
  packet : Bool
  boardcast : Option Errno
  attach : Attached
  last : Option (Option Errno)

/-- `udp_create`; `boardcast` is the bit `UDP_FLAG_BROADCAST` of `flag` -/
def udpCreate (ipstr : Option CStr) (port : UInt16) (boardcast : Bool) (o : UdpCreated) : Told σ Int :=
  match o.socket with
  | .error errno => do
    callEcr "[nshost.udp.create] fatal error occurred syscall socket(2), error:%d" [.int errno.word]
    return -1
  | .ok fd =>
    match o.bind with
    | some errno => do
      callEcr "[nshost.udp.create] fatal error occurred syscall bind(2),local endpoint %s:%u, error:%d,"
        [.str (ipstr.getD anyHost), portArg port, .int errno.word]
      return -1
    | none => do
      if o.hld < 0 then
        callEcr "[nshost.udp.create] insufficient resource for allocate inner object" []
        return -1
      if o.packet = false ∨ boardcast = true ∧ o.boardcast.isSome then
        release o.hld fd.val 0 o.last
        return -1
      let (retval, epfd) ← ioAttach o.hld fd.val 0 EPOLLIN o.attach
      if retval < 0 then
        release o.hld fd.val epfd o.last
        return -1
      return o.hld.toInt

end

/-! ## `tcp_connect` and `tcp_connect2` -/

/-- What the two calls find and are answered, as in `Outcome`, with the descriptors of the link. -/
structure Connected where
  found : Option Proto
  sockfd : Int32
  epfd : Int32
  ktcp : Option UInt8
  fcntl : Option (FcntlCmd × Errno)
  connect : Option Errno
  again : code connect ≠ 4
  attach : Attached
  callback : Bool
  soError : Option Errno
  soAgain : code soError ≠ 4
  ctl : Option Errno
  last : Option (Option Errno)

def tcpKernelStateName : List CStr :=
  [.lit "TCP_UNDEFINED", .lit "TCP_ESTABLISHED", .lit "TCP_SYN_SENT", .lit "TCP_SYN_RECV",
    .lit "TCP_FIN_WAIT1", .lit "TCP_FIN_WAIT2", .lit "TCP_TIME_WAIT", .lit "TCP_CLOSE",
    .lit "TCP_CLOSE_WAIT", .lit "TCP_LAST_ACK", .lit "TCP_LISTEN", .lit "TCP_CLOSING"]

/-- `tcp_state2name(ktcp.tcpi_state)`; the macro makes a string of its argument -/
def tcpState2name (stat : UInt8) : CStr :=
  tcpKernelStateName[stat.toNat]?.getD (.lit "MalformedState:ktcp.tcpi_state")

/-- a state that a new connection cannot be made in -/
def Connected.illegal (o : Connected) : Option UInt8 := o.ktcp.filter (·.toNat ≠ TCP_CLOSE)

/-- `__tcprefr` -/
def tcprefr {σ : Type} (link : Int64) (o : Connected) : Told σ Int := do
  if link < 0 then return -EINVAL
  match o.found with
  | some q =>
    if q = .tcp then return 0
    release link o.sockfd o.epfd o.last
    return -EPROTOTYPE
  | none => return -ENOENT

/-- `io_modify`; a socket that is not registered cannot be modified -/
def ioModify (hld : Int64) (sockfd epfd mask : Int32) (ctl : Option Errno) : Told Lnk Int := do
  let s ← look
  match if s.attached = false then some ⟨EBADF, by decide, by decide⟩ else ctl with
  | none => return 0
  | some errno =>
    callEcr "[nshost.io.io_modify] fatal error occurred syscall epoll_ctl(2) when modify link:%lld with sockfd:%d upon epollfd:%d with mask:%d, error:%u, "
      [.llong hld, .int sockfd, .int epfd, .int mask, .int errno.word]
    return -errno.val

/-- `tcp_tx_syn` -/
def tcpTxSyn (link : Int64) (o : Connected) : Told Lnk Int :=
  match o.soError with
  | none => do
    let retval ← ioModify link o.sockfd o.epfd EPOLLIN o.ctl
    if retval < 0 then return -1
    store fun s => { s with ncbRead := some .tcpRx }
    store fun s => { s with ncbWrite := some .tcpTx }
    callEcr "[nshost.tcp.tcp_tx_syn] link:%lld connection established." [.llong link]
    return 0
  | some e => do
    if e.val = EISCONN ∨ e.val = EALREADY then return 0
    if e.val = EAGAIN then return -EAGAIN
    callEcr "[nshost.tcpio.tcp_tx_syn] fatal error occurred syscall poll(2), error:%d, link %lld."
      [.int e.word, .llong link]
    return -1

/-- the answers of `io_attach` without what is only reported -/
def Attached.out (sockfd : Int32) (o : Attached) : AttachOut where
  fcntl := if sockfd < 0 then EINVAL.toNat else code (o.fcntl.map Prod.snd)
  hld := o.hld.toInt
  found := o.found
  epfd := o.epfd.val.toInt.toNat
  ctl := code o.ctl

/-- `io_attach` for the link -/
def attachLink (link : Int64) (mask : Int32) (o : Connected) : Told Lnk (Int × Int32) := do
  let r ← ioAttach link o.sockfd o.epfd mask o.attach
  store (Lnk.attach (o.attach.out o.sockfd))
  return r

/-- the do-while of `tcp_connect`, with `ncb->epfd` behind it -/
def tcpConnectBody (link : Int64) (ipstr : CStr) (port : UInt16) (o : Connected) :
    Told Lnk (Int × Int32) := do
  if let some stat := o.illegal then
    callEcr "[nshost.tcp.connect] state illegal,link:%lld, kernel states:%s."
      [.llong link, .str (tcpState2name stat)]
    return (-1, o.epfd)
  if let some errno := o.connect then
    callEcr "[nshost.tcp.connect] fatal error occurred syscall connect(2), %s:%u, error:%u, link:%lld"
      [.str ipstr, portArg port, .int errno.word, .llong link]
    return (-1, o.epfd)
  let r ← attachLink link EPOLLIN o
  if r.1 < 0 then return r
  store fun s => { s with ncbRead := some .tcpRx }
  store fun s => { s with ncbWrite := some .tcpTx }
  return r

/-- the do-while of `tcp_connect2` likewise -/
def tcpConnect2Body (link : Int64) (ipstr : CStr) (port : UInt16) (o : Connected) :
    Told Lnk (Int × Int32) := do
  let retval ← ioFcntl o.sockfd o.fcntl
  if retval < 0 then return (-1, o.epfd)
  if let some stat := o.illegal then
    callEcr "[nshost.tcp.connect2] state illegal,link:%lld, kernel states:%s."
      [.llong link, .str (tcpState2name stat)]
    return (-1, o.epfd)
  let s ← look
  if s.ncbWrite ≠ none then
    callEcr "[nshost.tcp.connect2] link:%lld multithreading double call is not allowed." [.llong link]
    return (-1, o.epfd)
  store fun s => { s with ncbWrite := some .tcpTxSyn }
  match o.connect with
  | none =>
    callEcr "[nshost.tcp.connect2] asynchronous file descriptor but success immediate, link:%lld"
      [.llong link]
    -- the answer of `tcp_tx_syn` is dropped
    let _ ← tcpTxSyn link o
    return (0, o.epfd)
  | some errno =>
    if errno.val = EINPROGRESS then return ← attachLink link EPOLLOUT o
    if errno.val = EAGAIN then
      callEcr "[nshost.tcp.connect2] Insufficient entries in the routing cache, link:%lld" [.llong link]
      return (-1, o.epfd)
    callEcr "[nshost.tcp.connect2] fatal error occurred syscall connect(2) to target endpoint %s:%u, error:%d, link:%lld"
      [.str ipstr, portArg port, .int errno.word, .llong link]
    return (-1, o.epfd)

/-- what the two calls have in common -/
def connectCall (link : Int64) (ipstr : Option CStr) (port : UInt16) (o : Connected)
    (body : CStr → Told Lnk (Int × Int32)) : Told Lnk Int :=
  match ipstr with
  | none => return -EINVAL
  | some ipstr => do
    if link < 0 ∨ port = 0 then return -EINVAL
    let retval ← tcprefr link o
    if retval < 0 then return retval
    let r ← body ipstr
    release link o.sockfd r.2 o.last
    return r.1

def tcpConnect (link : Int64) (ipstr : Option CStr) (port : UInt16) (o : Connected) : Told Lnk Int :=
  connectCall link ipstr port o fun ipstr => tcpConnectBody link ipstr port o

def tcpConnect2 (link : Int64) (ipstr : Option CStr) (port : UInt16) (o : Connected) :
    Told Lnk Int :=
  connectCall link ipstr port o fun ipstr => tcpConnect2Body link ipstr port o

/-! ## the calls without their messages -/

/-- what the two calls are answered, for the calls that say nothing -/
def Connected.out (o : Connected) : Outcome where
  found := o.found
  ktcp := o.ktcp.map UInt8.toNat
  fcntl := if o.sockfd < 0 then EINVAL.toNat else code (o.fcntl.map Prod.snd)
  sys := code o.connect
  again := o.again
  attach := o.attach.out o.sockfd
  callback := o.callback
  soError := code o.soError
  soAgain := o.soAgain
  ctl := code o.ctl

section
variable {σ : Type} {link : Int64} {ipstr : CStr} {port : UInt16} {o : Connected} {fd : Int32}

theorem ioFcntl_sim (fd : Int32) (o : Option (FcntlCmd × Errno)) :
    Sim Eq (ioFcntl fd o : Told σ Int)
      (pure (Swnet.ioFcntl (if fd < 0 then EINVAL.toNat else code (o.map Prod.snd))) : Call σ Int) := by
  unfold ioFcntl
  by_cases h : fd < 0
  · rw [if_pos h, if_pos h]
    exact sim_pure rfl
  rw [if_neg h, if_neg h]
  cases o with
  | none => exact sim_pure rfl
  | some p =>
    obtain ⟨cmd, errno⟩ := p
    have hv : (-errno.val : Int) = Swnet.ioFcntl (code (some errno)) :=
      (if_neg (Nat.ne_of_gt errno.pos)).symm
    cases cmd <;> exact sim_tell_left (sim_pure hv)

theorem toInt_neg {x : Int64} : x.toInt < 0 ↔ x < 0 := by
  rw [Int64.lt_iff_toInt_lt, Int64.toInt_zero]

theorem code_some (e : Errno) : code (some e) ≠ 0 := Nat.ne_of_gt e.pos

/-- an error other than `n`, or none -/
theorem filter_code (c : Option Errno) (n : Nat) :
    c.filter (·.val ≠ n) = none ∧ ¬ (code c ≠ 0 ∧ code c ≠ n) ∨
      ∃ e, c.filter (·.val ≠ n) = some e ∧ code c ≠ 0 ∧ code c ≠ n := by
  cases c with
  | none => exact .inl ⟨rfl, fun h => h.1 rfl⟩
  | some e =>
    by_cases h : e.val = n
    · exact .inl ⟨Option.filter_some_neg (by simpa using h), fun hc => hc.2 h⟩
    · exact .inr ⟨e, Option.filter_some_pos (by simpa using h), code_some e, h⟩

theorem ioAttach_sim (hld : Int64) (sockfd epfd mask : Int32) (o : Attached) :
    Sim (fun r v => r.1 = v) (ioAttach hld sockfd epfd mask o : Told σ (Int × Int32))
      (ioAttachCall (o.out sockfd)) := by
  refine sim_said (v := Swnet.ioFcntl (o.out sockfd).fcntl) (ioFcntl_sim sockfd o.fcntl) ?_
  unfold ioAttachCall
  have hhld : o.hld < 0 ↔ (o.out sockfd).hld < 0 := toInt_neg.symm
  refine sim_ite Iff.rfl (sim_pure rfl) (sim_ite hhld (sim_pure rfl) ?_)
  rw [show (o.out sockfd).found = o.found from rfl]
  cases o.found with
  | false => exact sim_tell_left (sim_tell_right (sim_pure rfl))
  | true =>
    have hctl : (o.out sockfd).ctl = code o.ctl := rfl
    rw [if_neg (by decide), hctl]
    refine sim_tell_right ?_
    obtain ⟨h1, h2⟩ | ⟨e, h1, h2⟩ := filter_code o.ctl EEXIST
    · rw [h1, if_neg h2]
      refine sim_tell_left (sim_tell_right (sim_pure ?_))
      exact (Int.toNat_of_nonneg o.epfd.nonneg).symm
    · rw [h1, if_pos h2]
      exact sim_tell_left (sim_tell_right (sim_pure rfl))

theorem attachLink_sim (mask : Int32) :
    Sim (fun r v => r.1 = v) (attachLink link mask o) (Swnet.attachLink o.out.attach) :=
  sim_bind (ioAttach_sim _ _ _ _ _) fun _ _ h => sim_store (sim_pure h)

theorem ioModify_sim (sockfd epfd mask : Int32) (ctl : Option Errno) :
    Sim Eq (ioModify link sockfd epfd mask ctl) (modifyLink (code ctl)) := by
  refine sim_look fun s => ?_
  by_cases hs : s.attached = false
  · rw [if_pos hs, if_pos hs]
    exact sim_tell_left (sim_pure rfl)
  · rw [if_neg hs, if_neg hs]
    cases ctl with
    | none => exact sim_pure rfl
    | some errno => exact sim_tell_left (sim_pure rfl)

/-- a post changes nothing in the link -/
theorem sim_post {α β : Type} {R : α → β → Prop} {x : Told Lnk α} {g : Unit → Call Lnk β} {hld : Int}
    (callback : Bool) {e : Evt} (h : Sim R x (g ())) : Sim R x (ncbPost hld callback e >>= g) := by
  unfold ncbPost
  cases callback with
  | false => exact h
  | true => exact sim_tell_right h

theorem tcpTxSyn_sim : Sim Eq (tcpTxSyn link o) (tcpTxSynCall link.toInt o.out) := by
  unfold tcpTxSyn tcpTxSynCall
  rw [show o.out.soError = code o.soError from rfl]
  cases o.soError with
  | none =>
    rw [if_pos (show code none = 0 from rfl)]
    refine sim_bind (ioModify_sim _ _ _ _) fun v _ hv => ?_
    subst hv
    refine sim_ite Iff.rfl (sim_tell_right (sim_pure rfl)) ?_
    exact sim_store (sim_store (sim_tell_left (sim_post _ (sim_pure rfl))))
  | some e =>
    rw [if_neg (code_some e)]
    have hagain : (e.val : Int) = EAGAIN ↔ e.val = 11 := Int.ofNat_inj
    refine sim_ite Iff.rfl (sim_pure rfl) (sim_ite hagain (sim_pure rfl) ?_)
    exact sim_tell_left (sim_pure rfl)

/-- the state of the socket, as the two calls test it -/
theorem illegal_cases (o : Connected) :
    o.illegal = none ∧ o.out.ktcp.any (· ≠ TCP_CLOSE) = false ∨
      ∃ stat, o.illegal = some stat ∧ o.out.ktcp.any (· ≠ TCP_CLOSE) = true := by
  unfold Connected.illegal Connected.out
  cases o.ktcp with
  | none => exact .inl ⟨rfl, rfl⟩
  | some stat =>
    by_cases h : stat.toNat = TCP_CLOSE
    · exact .inl ⟨Option.filter_some_neg (by simpa using h), by simpa using h⟩
    · exact .inr ⟨stat, Option.filter_some_pos (by simpa using h), by simpa using h⟩

theorem tcpConnectBody_sim :
    Sim (fun r v => r.1 = v) (tcpConnectBody link ipstr port o)
      (Swnet.tcpConnectBody link.toInt o.out) := by
  unfold tcpConnectBody Swnet.tcpConnectBody
  obtain ⟨h1, h2⟩ | ⟨stat, h1, h2⟩ := illegal_cases o
  · rw [h1, if_neg (by rw [h2]; decide), show o.out.sys = code o.connect from rfl]
    cases o.connect with
    | some errno =>
      rw [if_pos (code_some errno)]
      exact sim_tell_left (sim_pure rfl)
    | none =>
      rw [if_neg fun h => h rfl]
      refine sim_bind (attachLink_sim _) fun r _ hr => ?_
      subst hr
      refine sim_ite Iff.rfl (sim_tell_right (sim_pure rfl)) ?_
      exact sim_post _ (sim_store (sim_store (sim_pure rfl)))
  · rw [h1, if_pos h2]
    exact sim_tell_left (sim_pure rfl)

theorem tcpConnect2Body_sim :
    Sim (fun r v => r.1 = v) (tcpConnect2Body link ipstr port o)
      (Swnet.tcpConnect2Body link.toInt o.out) := by
  unfold tcpConnect2Body Swnet.tcpConnect2Body
  refine sim_said (ioFcntl_sim o.sockfd o.fcntl) ?_
  rw [show (if o.sockfd < 0 then EINVAL.toNat else code (o.fcntl.map Prod.snd)) = o.out.fcntl from rfl]
  refine sim_ite Iff.rfl (sim_pure rfl) ?_
  obtain ⟨h1, h2⟩ | ⟨stat, h1, h2⟩ := illegal_cases o
  · rw [h1, if_neg (by rw [h2]; decide)]
    refine sim_look fun s => sim_ite Iff.rfl (sim_tell_left (sim_pure rfl)) (sim_store ?_)
    rw [show o.out.sys = code o.connect from rfl]
    cases o.connect with
    | none => exact sim_tell_left (sim_bind tcpTxSyn_sim fun _ _ _ => sim_pure rfl)
    | some errno =>
      rw [if_neg (code_some errno), show code (some errno) = errno.val from rfl]
      refine sim_ite Iff.rfl ?_ ?_
      · refine sim_bind_right (attachLink_sim _) fun r _ hr => ?_
        subst hr
        split
        · exact sim_tell_right (sim_pure rfl)
        · exact sim_pure rfl
      · split
        · exact sim_tell_left (sim_pure rfl)
        · exact sim_tell_left (sim_pure rfl)
  · rw [h1, if_pos h2]
    exact sim_tell_left (sim_pure rfl)

theorem release_sim (hld : Int64) (sockfd epfd : Int32) (last : Option (Option Errno)) :
    Sim Eq (release hld sockfd epfd last : Told σ Unit) (pure () : Call σ Unit) := by
  unfold release ncbDeconstruct ioClose ioDetach
  cases last with
  | none => exact sim_pure rfl
  | some ctl =>
    refine sim_said (v := ()) ?_ (sim_tell_left (sim_pure rfl))
    split
    · cases ctl with
      | none => exact sim_pure rfl
      | some errno => exact sim_tell_left (sim_pure rfl)
    · exact sim_pure rfl

theorem tcprefr_sim :
    Sim Eq (tcprefr link o : Told σ Int) (Swnet.tcprefr link.toInt o.found : Call σ Int) := by
  unfold tcprefr Swnet.tcprefr protoRefr
  refine sim_ite toInt_neg.symm (sim_pure rfl) ?_
  cases o.found with
  | none => exact sim_tell_right (sim_pure rfl)
  | some q =>
    refine sim_tell_right (sim_ite Iff.rfl (sim_pure rfl) ?_)
    exact sim_said (release_sim _ _ _ _) (sim_tell_right (sim_pure rfl))

/-- What the two calls have in common, where `C` is the test of the arguments. -/
theorem connectCall_sim {ipstr : Option CStr} {body : CStr → Told Lnk (Int × Int32)}
    {call : Call Lnk Int} (hb : ∀ s, Sim (fun r v => r.1 = v) (body s) call) {C : Prop} [Decidable C]
    (hC : C ↔ ipstr = none ∨ link < 0 ∨ port = 0) :
    Sim Eq (connectCall link ipstr port o body) (do
      if C then return -EINVAL
      let retval ← Swnet.tcprefr link.toInt o.found
      if retval < 0 then return retval
      let retval ← call
      objdefr link.toInt
      return retval) := by
  unfold connectCall
  cases ipstr with
  | none =>
    rw [if_pos (hC.mpr (.inl rfl))]
    exact sim_pure rfl
  | some s =>
    have hC : C ↔ link < 0 ∨ port = 0 := hC.trans (or_iff_right nofun)
    refine sim_ite hC.symm (sim_pure rfl) ?_
    refine sim_bind tcprefr_sim fun v _ hv => ?_
    subst hv
    refine sim_ite Iff.rfl (sim_pure rfl) ?_
    refine sim_bind (hb s) fun r _ hr => ?_
    subst hr
    exact sim_said (release_sim _ _ _ _) (sim_tell_right (sim_pure rfl))

end

theorem port_zero {port : UInt16} : port.toNat = 0 ↔ port = 0 := by
  rw [← UInt16.toNat_inj]
  rfl

/-- `tcp_connect` with its messages does to the link what it does without, and answers the same. -/
theorem tcpConnect_told (link : Int64) (ipstr : Option CStr) (port : UInt16) (o : Connected) :
    Sim Eq (tcpConnect link ipstr port o)
      (Swnet.tcpConnect link.toInt ipstr.isSome port.toNat o.out) := by
  refine connectCall_sim (fun _ => tcpConnectBody_sim) ?_
  rw [toInt_neg, port_zero, Option.isSome_eq_false_iff, Option.isNone_iff_eq_none, or_left_comm]

theorem tcpConnect2_told (link : Int64) (ipstr : Option CStr) (port : UInt16) (o : Connected) :
    Sim Eq (tcpConnect2 link ipstr port o)
      (Swnet.tcpConnect2 link.toInt ipstr.isSome port.toNat o.out) := by
  refine connectCall_sim (fun _ => tcpConnect2Body_sim) ?_
  rw [toInt_neg, port_zero, Option.isSome_eq_false_iff, Option.isNone_iff_eq_none, or_comm (a := port = 0)]

end Ecr

end Swnet

import Swnet.Calls

/-!
# The threads of the library

What the epoll threads, the threads of the pools and the threads of the application do to objects, and
what they post.

* `Reader`, `Writer`   the functions behind `ncb_read` and `ncb_write`;
* `iorunCall`          one event in `__iorun`;
* `wpExecCall`         `__wp_exec`;
* `Job`                every piece of code that a thread can be given;
* `leads_job`          no job posts for a link that it has no reference on.
-/

namespace Swnet
open Traced Runs

/-! ## what reads -/

/-- `n` packets are posted -/
def postTimes (link : Int) (callback : Bool) (e : Evt) : Nat → Call Lnk Unit
  | 0 => pure ()
  | n + 1 => do
    ncbPost link callback e
    postTimes link callback e n

/-- A connection from `accept(2)`: the handle of its link, whether the two `malloc` of `__tcp_syn_dpc`
have memory, and how `io_attach` ends. -/
structure Client where
  hld : Int
  mem : Bool
  attach : AttachOut

/-- `__tcp_syn_dpc` posts to the listening link -/
def tcpSynDpcCall (link : Int) (callback : Bool) (c : Client) : Call Lnk Int := do
  if c.mem = false then return -ENOMEM
  let retval ← ioAttachCall c.attach
  if retval < 0 then return -1
  ncbPost link callback .accepted
  return 0

/-- one round of `tcp_syn` that accepts -/
def tcpSynClient (link : Int) (callback : Bool) (c : Client) : Call Lnk Unit := do
  objrefr c.hld true
  let retval ← tcpSynDpcCall link callback c
  if retval < 0 then
    objclos c.hld
    objdefr c.hld
  else objdefr c.hld

/-- the rounds of `tcp_syn` that accept -/
def tcpSynClients (link : Int) (callback : Bool) : List Client → Call Lnk Unit
  | [] => pure ()
  | c :: cs => do
    tcpSynClient link callback c
    tcpSynClients link callback cs

/-- a message in a pipe: the link that it is for, whether `objrefr` finds it, and its callback -/
structure PipeMsg where
  link : Int
  found : Bool
  callback : Bool

/-- one message in `pipe_rx` -/
def pipeRxOnce (p : PipeMsg) : Call Lnk Unit := do
  match p.found with
  | false => objrefr p.link false
  | true =>
    objrefr p.link true
    ncbPost p.link p.callback .pipedata
    objdefr p.link

def pipeRxAll : List PipeMsg → Call Lnk Unit
  | [] => pure ()
  | p :: ps => do
    pipeRxOnce p
    pipeRxAll ps

/-- The functions behind `ncb_read`, with what they return: `tcp_rx`, `udp_rx` and `arp_rx` post packets
of their link. -/
inductive Reader where
  | rx (callback : Bool) (packets : Nat) (retval : Int)
  | tcpSyn (callback : Bool) (clients : List Client) (retval : Int)
  | pipeRx (msgs : List PipeMsg) (retval : Int)

def Reader.call (hld : Int) : Reader → Call Lnk Int
  | .rx callback packets retval => do
    postTimes hld callback .recvdata packets
    return retval
  | .tcpSyn callback clients retval => do
    tcpSynClients hld callback clients
    return retval
  | .pipeRx msgs retval => do
    pipeRxAll msgs
    return retval

/-! ## what writes -/

/-- the functions behind `ncb_write`: `tcp_tx`, `udp_tx`, `arp_tx` and `pipe_tx` post nothing -/
inductive Writer where
  | tx (retval : Int)
  | tcpTxSyn (o : Outcome)

def Writer.call (hld : Int) : Writer → Call Lnk Int
  | .tx retval => pure retval
  | .tcpTxSyn o => tcpTxSynCall hld o

/-- `wp_queued`: the handle of the pool and whether `objrefr` finds it -/
structure Pool where
  hld : Int
  found : Bool

def wpQueuedCall (w : Pool) : Call Lnk Unit := do
  if w.hld < 0 then return
  match w.found with
  | false => objrefr w.hld false
  | true =>
    objrefr w.hld true
    objdefr w.hld

/-! ## the threads of the library -/

/-- An event of `epoll_wait(2)` in `__iorun`: its flags, whether `objrefr` finds the object, the
`ncb_read` that is found there, and the pool. -/
structure IoEvent where
  epollrdhup : Bool
  epollerr : Bool
  epollin : Bool
  epollout : Bool
  epollhup : Bool
  found : Bool
  ncbRead : Option Reader
  pool : Pool

/-- the test of `__iorun` for `EPOLLIN` -/
def iorunIn (hld : Int) (o : IoEvent) : Call Lnk Unit :=
  if o.epollin then
    match o.ncbRead with
    | some r => do
      let retval ← r.call hld
      if retval < 0 then objclos hld
    | none => pure ()
  else pure ()

/-- the test of `__iorun` for `EPOLLOUT` -/
def iorunOut (o : IoEvent) : Call Lnk Unit :=
  if o.epollout && !o.epollhup then wpQueuedCall o.pool else pure ()

/-- `__iorun` with one event -/
def iorunCall (hld : Int) (o : IoEvent) : Call Lnk Unit := do
  if o.epollrdhup || o.epollerr then
    objclos hld
  else
    match o.found with
    | false => objrefr hld false
    | true =>
      objrefr hld true
      iorunIn hld o
      iorunOut o
      objdefr hld

/-- `__wp_exec` between its references -/
def wpExecFound (hld : Int) (w : Option Writer) : Call Lnk Unit := do
  match w with
  | some w =>
    let retval ← w.call hld
    if retval = -1 then objclos hld
  | none => pure ()

/-- `__wp_exec` -/
def wpExecCall (hld : Int) (found : Bool) (w : Option Writer) : Call Lnk Unit := do
  match found with
  | false => objrefr hld false
  | true =>
    objrefr hld true
    wpExecFound hld w
    objdefr hld

/-! ## the threads of the application -/

/-- `tcp_destroy`, `udp_destroy` and `arp_destroy` -/
def destroyCall (link : Int) (found : Bool) : Call Lnk Unit := do
  match found with
  | false => objreff link false
  | true =>
    objreff link true
    objdefr link

/-- `objclos` in the order of a list, as in `ncb_uninit` -/
def closeAll : List Int → Call Lnk Unit
  | [] => pure ()
  | hld :: hlds => do
    objclos hld
    closeAll hlds

/-- How `tcp_create`, `udp_create`, `arp_create` and `pipe_create` go on behind `objrefr`: whether they
come as far as `io_attach`, which `tcp_create` does not call. -/
structure CreateOut where
  done : Bool
  attach : Option AttachOut

def createAttach (o : CreateOut) : Call Lnk Int :=
  if o.done = false then pure (-1)
  else
    match o.attach with
    | none => pure 0
    | some a => ioAttachCall a

/-- `tcp_create`, `udp_create`, `arp_create` and `pipe_create` behind `objallo` -/
def createCall (hld : Int) (o : CreateOut) : Call Lnk Unit := do
  objrefr hld true
  let retval ← createAttach o
  objdefr hld
  if retval < 0 then objclos hld

inductive Job where
  | api (link : Int) (c : Api)
  | destroy (link : Int) (found : Bool)
  | create (hld : Int) (o : CreateOut)
  | close (hlds : List Int)
  | iorun (hld : Int) (o : IoEvent)
  | wpExec (hld : Int) (found : Bool) (w : Option Writer)

def Job.call : Job → Call Lnk Unit
  | .api link c => do
    let _ ← c.call link
    return
  | .destroy link found => destroyCall link found
  | .create hld o => createCall hld o
  | .close hlds => closeAll hlds
  | .iorun hld o => iorunCall hld o
  | .wpExec hld found w => wpExecCall hld found w

/-! ## references -/

section
variable {hld link : Int} {σ α : Type}

theorem returns_objdefr : Returns hld (objdefr hld : Call σ Unit) := returns_exit ()

theorem returns_bind {x : Call σ α} {f : α → Call σ Unit} (hx : Steady hld x)
    (hf : ∀ a, Returns hld (f a)) : Returns hld (x >>= f) := by
  intro m
  refine leads_bind (hx _ (by simp)) fun a n hn => ?_
  subst hn
  exact hf a m

/-- `objrefr` and what depends on its answer -/
theorem balanced_found {found : Bool} {x : Call σ Unit} (hx : Returns hld x) :
    Balanced (match found with
      | false => objrefr hld false
      | true => do objrefr hld true; x : Call σ Unit) := by
  intro m
  cases found with
  | false => exact leads_tell rfl rfl
  | true => exact leads_found (hx m)

theorem steady_postTimes (callback : Bool) {e : Evt} (he : e.closes = false) (n : Nat) :
    Steady link (postTimes link callback e n) := by
  induction n with
  | zero => exact steady_pure ()
  | succ n ih => exact steady_bind (steady_post callback he) fun _ => ih

theorem held_update {m : Int → Nat} (h : 0 < m link) :
    0 < Function.update m hld (m hld + 1) link := by
  by_cases hx : link = hld
  · subst hx
    simp
  · rwa [Function.update_of_ne hx]

end

/-! ## the functions behind the handlers -/

section
variable {hld link : Int}

theorem steady_tcpSynDpcCall (callback : Bool) (c : Client) :
    Steady link (tcpSynDpcCall link callback c) := by
  unfold tcpSynDpcCall
  refine steady_ite (steady_pure _) (steady_bind (balanced_ioAttach _).steady fun v => ?_)
  exact steady_ite (steady_pure _) (steady_bind (steady_post _ rfl) fun _ => steady_pure _)

/-- the thread has a reference on the listening link all the time, and one on the client for a while -/
theorem steady_tcpSynClient (callback : Bool) (c : Client) :
    Steady link (tcpSynClient link callback c) := by
  intro m hm
  apply leads_found
  refine leads_bind (steady_tcpSynDpcCall callback c _ (held_update hm)) fun v n hn => ?_
  subst hn
  split
  · refine leads_bind (balanced_objclos _ _) fun _ n hn => ?_
    subst hn
    exact returns_objdefr m
  · exact returns_objdefr m

theorem steady_tcpSynClients (callback : Bool) (cs : List Client) :
    Steady link (tcpSynClients link callback cs) := by
  induction cs with
  | nil => exact steady_pure ()
  | cons c cs ih => exact steady_bind (steady_tcpSynClient callback c) fun _ => ih

theorem balanced_pipeRxOnce (p : PipeMsg) : Balanced (pipeRxOnce p) := by
  unfold pipeRxOnce
  apply balanced_found
  exact returns_bind (steady_post _ rfl) fun _ => returns_objdefr

theorem balanced_pipeRxAll (ps : List PipeMsg) : Balanced (pipeRxAll ps) := by
  induction ps with
  | nil => exact balanced_pure ()
  | cons p ps ih => exact balanced_bind (balanced_pipeRxOnce p) fun _ => ih

theorem steady_reader (r : Reader) : Steady hld (r.call hld) := by
  cases r with
  | rx callback packets retval =>
    exact steady_bind (steady_postTimes _ rfl _) fun _ => steady_pure _
  | tcpSyn callback clients retval =>
    exact steady_bind (steady_tcpSynClients _ _) fun _ => steady_pure _
  | pipeRx msgs retval =>
    exact steady_bind (balanced_pipeRxAll _).steady fun _ => steady_pure _

theorem steady_writer (w : Writer) : Steady hld (w.call hld) := by
  cases w with
  | tx retval => exact steady_pure _
  | tcpTxSyn o => exact steady_tcpTxSynCall o

theorem balanced_wpQueuedCall (w : Pool) : Balanced (wpQueuedCall w) := by
  unfold wpQueuedCall
  refine balanced_ite (balanced_pure _) ?_
  apply balanced_found
  exact returns_objdefr

/-! ## the jobs -/

theorem steady_iorunIn (o : IoEvent) : Steady hld (iorunIn hld o) := by
  unfold iorunIn
  refine steady_ite ?_ (steady_pure _)
  cases o.ncbRead with
  | none => exact steady_pure _
  | some r =>
    refine steady_bind (steady_reader r) fun v => ?_
    exact steady_ite steady_objclos (steady_pure _)

theorem balanced_iorunOut (o : IoEvent) : Balanced (iorunOut o) := by
  unfold iorunOut
  exact balanced_ite (balanced_wpQueuedCall _) (balanced_pure _)

theorem balanced_iorunCall (o : IoEvent) : Balanced (iorunCall hld o) := by
  unfold iorunCall
  refine balanced_ite (balanced_objclos hld) ?_
  apply balanced_found
  refine returns_bind (steady_iorunIn o) fun _ => ?_
  exact returns_bind (balanced_iorunOut o).steady fun _ => returns_objdefr

theorem balanced_wpExecCall (found : Bool) (w : Option Writer) :
    Balanced (wpExecCall hld found w) := by
  unfold wpExecCall
  apply balanced_found
  refine returns_bind ?_ fun _ => returns_objdefr
  unfold wpExecFound
  cases w with
  | none => exact steady_pure _
  | some w =>
    refine steady_bind (steady_writer w) fun v => ?_
    exact steady_ite steady_objclos (steady_pure _)

theorem balanced_destroyCall (found : Bool) : Balanced (destroyCall link found) := by
  intro m
  unfold destroyCall
  cases found with
  | false => exact leads_tell rfl rfl
  | true => exact leads_tell_bind rfl (returns_objdefr m)

theorem balanced_closeAll (hlds : List Int) : Balanced (closeAll hlds) := by
  induction hlds with
  | nil => exact balanced_pure ()
  | cons hld hlds ih => exact balanced_bind (balanced_objclos hld) fun _ => ih

theorem balanced_createCall (o : CreateOut) : Balanced (createCall hld o) := by
  have hatt : Balanced (createAttach o) := by
    unfold createAttach
    refine balanced_ite (balanced_pure _) ?_
    cases o.attach with
    | none => exact balanced_pure _
    | some a => exact balanced_ioAttach a
  intro m
  apply leads_found
  refine leads_bind (hatt _) fun v n hn => ?_
  subst hn
  apply leads_given
  exact balanced_ite (balanced_objclos hld) (balanced_pure _) m

/-- **No job gives back a reference that it does not have, or posts for a link that it has none on.** -/
theorem leads_job (j : Job) (m : Int → Nat) : Leads hold m j.call fun _ _ => True := by
  have hbal : ∀ {x : Call Lnk Unit}, Balanced x → Leads hold m x fun _ _ => True :=
    fun hx => leads_mono (hx m) fun _ _ _ => trivial
  cases j with
  | api link c =>
    by_cases h : c.Leaks
    · -- `nis_cntl` keeps the reference
      obtain ⟨p, rfl⟩ := h
      exact leads_found (leads_pure trivial)
    · exact hbal (balanced_bind (balanced_api h) fun _ => balanced_pure ())
  | destroy link found => exact hbal (balanced_destroyCall found)
  | create hld o => exact hbal (balanced_createCall o)
  | close hlds => exact hbal (balanced_closeAll hlds)
  | iorun hld o => exact hbal (balanced_iorunCall o)
  | wpExec hld found w => exact hbal (balanced_wpExecCall found w)

end

end Swnet

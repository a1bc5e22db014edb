import Swnet.Acts
import Swnet.Lib.Lifetime

/-!
# The life of a link

What a link takes from `tcp_create`, `udp_create`, `arp_create` or `__tcp_syn` to the end of
`ncb_deconstruct`: its socket, its buffers, and the record of `udp_joingrp`.  `io_attach` and `io_close`
are cut at each access to a field that another thread may write meanwhile.  Of the object manager it is
assumed that neither `objrefr` nor `objreff` succeeds once closing was requested, and that the destructor
runs once, when closing was requested and there is no reference.

* `LinkLife.work`     what a thread does with a reference in its hand;
* `State.step`        the link and all its threads;
* `State.touches`     what a step takes, uses and gives back;
* `Change`, `Turn`    what a step can do, of the link and of a thread;
* `Sound`             one thread makes the link, and one at a time is in `io_close`.
-/

namespace Swnet
open Runs Lifetime

namespace LinkLife

/-- the functions that make a link -/
inductive Maker where
  | tcpCreate
  | udpCreate
  | arpCreate
  | tcpSyn
deriving DecidableEq, Repr

def Maker.proto : Maker → Proto
  | .tcpCreate => .tcp
  | .udpCreate => .udp
  | .arpCreate => .arp
  | .tcpSyn => .tcp

/-- what is taken; `mreq k` is from the `malloc` in `udp_joingrp` with the number `k` -/
inductive Part where
  | sockfd
  | packet
  | rxBuffer
  | mreq (k : Nat)
deriving DecidableEq, Repr

/-- the fields of the link, its buffers by whether there are any; and what the kernel knows: whether the
socket is open, and whether it is in the epoll instance -/
structure Body where
  sockfd : Int
  epfd : Int
  packet : Bool
  rxBuffer : Bool
  mreq : Option Nat
  mreqs : Nat
  opened : Bool
  watched : Bool
deriving DecidableEq, Repr

/-- `ncb_allocator`: all is zero -/
def Body.zero : Body := ⟨0, 0, false, false, none, 0, false, false⟩

/-- in `io_attach`: in front of `io_fcntl`, of the assignment of `epfd`, of `epoll_ctl(2)`, of the
assignment of -1, and of the return -/
inductive AttachPc where
  | fcntl
  | slot
  | add
  | undo
  | ret
deriving DecidableEq, Repr

/-- in `io_close`: in front of its two tests, of `io_detach`, of the assignment of -1 to `epfd`, of
`shutdown(2)`, of `close(2)`, and of the assignment of -1 to `sockfd` -/
inductive ClosePc where
  | test
  | epfd
  | detach
  | unset
  | shutdown
  | close
  | clear
deriving DecidableEq, Repr

/-- where a thread is; `making` is for the one that makes the link -/
inductive Pc where
  /-- not in a call on this link -/
  | out
  | options
  | packet
  | rxBuffer
  | boardcast
  | attach (making : Bool) (k : AttachPc)
  /-- the creation has failed; `orphan`: its reference is released, and `objclos` follows -/
  | failed
  | orphan
  /-- in a call, between two accesses to what is modelled here -/
  | hold
  /-- in `udp_joingrp`, in front of its `malloc` -/
  | mreq
  | close (k : ClosePc)
  /-- only `objdefr` is left -/
  | leave
deriving DecidableEq, Repr

/-- the thread has a reference -/
def Pc.holds : Pc → Bool
  | .out | .orphan => false
  | _ => true

/-- what a thread does next, with the answer of the system -/
inductive Do where
  | options (ok : Bool)
  | malloc (ok : Bool)
  | attach
  | fcntl (ok : Bool)
  | slot (ok : Bool)
  | add (ok : Bool)
  | undo
  | ret
  /-- any other system call on `sockfd` -/
  | sys
  /-- the record of the group is looked up -/
  | group
  | close
deriving DecidableEq, Repr

/-- a system call of a thread that is not in `io_close` -/
def Do.calls : Do → Bool
  | .fcntl _ | .add _ | .sys => true
  | _ => false

section
variable (m : Maker) (fd : Nat) (epfd : Int)

/-- `sockfd` is the number of the socket -/
def Body.names (b : Body) : Prop := b.sockfd = fd

instance decidableNames (b : Body) : Decidable (b.names fd) := inferInstanceAs (Decidable (b.sockfd = fd))

/-- `epoll_ctl(ncb->epfd, .., ncb->sockfd, ..)` finds the instance and the socket -/
def Body.reaches (b : Body) : Prop := b.names fd ∧ b.opened = true ∧ b.epfd = epfd ∧ 0 ≤ epfd

instance decidableReaches (b : Body) : Decidable (b.reaches fd epfd) :=
  inferInstanceAs (Decidable (b.names fd ∧ b.opened = true ∧ b.epfd = epfd ∧ 0 ≤ epfd))

/-- one step of `io_close` -/
def Body.close (b : Body) : ClosePc → Body × Option ClosePc
  | .test => (b, if b.sockfd > 0 then some .epfd else none)
  | .epfd => (b, some (if b.epfd > 0 then .detach else .shutdown))
  | .detach => (if b.reaches fd epfd then { b with watched := false } else b, some .unset)
  | .unset => ({ b with epfd := -1 }, some .shutdown)
  | .shutdown => (b, some .close)
  -- the kernel takes a socket that is closed out of its epoll instances
  | .close => (if b.names fd then { b with opened := false, watched := false } else b, some .clear)
  | .clear => ({ b with sockfd := -1 }, none)

/-- where a call goes on behind `io_attach` -/
def Pc.attached (making ok : Bool) : Pc :=
  if making = false then .hold else if ok = true then .leave else .failed

/-- where a thread goes on behind one step of `io_close` -/
def Pc.closing : Option ClosePc → Pc
  | some k => .close k
  | none => .leave

/-- one step of `io_attach`; `epfd` is the instance that the handle of the link belongs to -/
def Body.attach (b : Body) (making : Bool) : AttachPc → Do → Option (Body × Pc)
  | .fcntl, .fcntl ok =>
    some (b, if ok = true ∧ b.names fd ∧ b.opened = true then .attach making .slot
      else .attached making false)
  | .slot, .slot ok =>
    if ok = true then some ({ b with epfd := epfd }, .attach making .add)
    else some (b, .attached making false)
  | .add, .add ok =>
    -- `EEXIST` is none of the errors
    if b.reaches fd epfd ∧ (b.watched = true ∨ ok = true) then
      some ({ b with watched := true }, .attach making .ret)
    else some (b, .attach making .undo)
  | .undo, .undo => some ({ b with epfd := -1 }, .attach making .ret)
  | .ret, .ret => some (b, .attached making (decide (0 ≤ b.epfd)))
  | _, _ => none

/-- one step of a thread that has a reference -/
def work (b : Body) : Pc → Do → Option (Body × Pc)
  -- `__udp_update_opts`, `arp_bindsource`
  | .options, .options ok =>
    if ok = true then some (b, .packet)
    else if m.proto = .tcp then none else some (b, .failed)
  | .packet, .malloc ok =>
    if ok = true then
      some ({ b with packet := true }, if m.proto = .tcp then .rxBuffer else .boardcast)
    else some (b, .failed)
  | .rxBuffer, .malloc ok =>
    if ok = true then some ({ b with rxBuffer := true }, .boardcast) else some (b, .failed)
  -- `udp_set_boardcast`
  | .boardcast, .options ok =>
    if ok = true then some (b, if m = .tcpCreate then .leave else .attach true .fcntl)
    else if m = .udpCreate then some (b, .failed) else none
  | .hold, .attach => if m.proto = .tcp then some (b, .attach false .fcntl) else none
  | .hold, .sys => some (b, .hold)
  | .hold, .group =>
    if m.proto = .udp then some (b, if b.mreq = none then .mreq else .hold) else none
  | .mreq, .malloc ok =>
    if ok = true then some ({ b with mreq := some b.mreqs, mreqs := b.mreqs + 1 }, .hold)
    else some (b, .hold)
  | .attach making k, d => b.attach fd epfd making k d
  | .close k, .close =>
    let p := b.close fd epfd k
    some (p.1, .closing p.2)
  | _, _ => none

/-! ## the link and its threads -/

/-- how far the link is; between `start` and `alive` there is a socket and no object yet -/
inductive Stage where
  | start
  | socket
  | alive
  | dying (k : ClosePc)
  | free
  | released
  /-- no object came about -/
  | refused
deriving DecidableEq, Repr

/-- there is no object any more, or there never was one -/
def Stage.ended : Stage → Bool
  | .released | .refused => true
  | _ => false

/-- where the destructor goes on behind one step of `io_close` -/
def Stage.closing : Option ClosePc → Stage
  | some k => .dying k
  | none => .free

structure State (n : Nat) where
  stage : Stage
  closing : Bool
  body : Body
  pc : Fin n → Pc

inductive Step (n : Nat) where
  /-- `socket(2)` or `accept(2)` -/
  | socket
  /-- `bind(2)` or `objallo` fails -/
  | refused
  /-- `objallo` and `objrefr` -/
  | objallo (i : Fin n)
  | objrefr (i : Fin n)
  /-- the beginning of `tcp_destroy`, `udp_destroy` or `arp_destroy` -/
  | objreff (i : Fin n)
  | objdefr (i : Fin n)
  /-- by a thread whose creation has failed -/
  | objclos (i : Fin n)
  /-- by any other thread -/
  | order
  | work (i : Fin n) (d : Do)
  /-- `ncb_deconstruct`: it begins, closes, and frees -/
  | deconstruct
  | close
  | free
deriving DecidableEq

namespace State
variable {n : Nat}

def init (n : Nat) : State n := ⟨.start, false, Body.zero, fun _ => .out⟩

def setPc (s : State n) (i : Fin n) (p : Pc) : State n := { s with pc := Function.update s.pc i p }

def step (s : State n) : Step n → Option (State n)
  | .socket =>
    if s.stage = .start then
      some { s with stage := .socket, body := { s.body with opened := true } }
    else none
  | .refused =>
    if s.stage = .socket then
      some { s with stage := .refused, body := { s.body with opened := false } }
    else none
  | .objallo i =>
    if s.stage = .socket then
      some ({ s with stage := .alive, body := { s.body with sockfd := fd } }.setPc i .options)
    else none
  | .objrefr i =>
    if s.stage = .alive ∧ s.closing = false ∧ s.pc i = .out then some (s.setPc i .hold) else none
  | .objreff i =>
    if s.stage = .alive ∧ s.closing = false ∧ s.pc i = .out then
      some ({ s with closing := true }.setPc i (.close .test))
    else none
  | .objdefr i =>
    if s.pc i = .hold ∨ s.pc i = .leave then some (s.setPc i .out)
    else if s.pc i = .failed ∧ m ≠ .tcpSyn then some (s.setPc i .orphan)
    else none
  | .objclos i =>
    if s.pc i = .orphan then some ({ s with closing := true }.setPc i .out)
    else if s.pc i = .failed ∧ m = .tcpSyn then some ({ s with closing := true }.setPc i .leave)
    else none
  | .order => if s.stage = .alive then some { s with closing := true } else none
  | .work i d => (LinkLife.work m fd epfd s.body (s.pc i) d).map fun p => { s with body := p.1 }.setPc i p.2
  | .deconstruct =>
    if s.stage = .alive ∧ s.closing = true ∧ ∀ i, (s.pc i).holds = false then
      some { s with stage := .dying .test }
    else none
  | .close =>
    match s.stage with
    | .dying k =>
      let p := s.body.close fd epfd k
      some { s with stage := .closing p.2, body := p.1 }
    | _ => none
  | .free =>
    if s.stage = .free then
      some { s with stage := .released, body := { s.body with packet := false, rxBuffer := false } }
    else none

end State

/-! ## what is touched -/

/-- a system call on `sockfd`; -1 is no socket -/
def Body.use (b : Body) : List (Touch Part) := if b.names fd then [.use .sockfd] else []

/-- what a step of `io_close` touches -/
def Body.closeTouches (b : Body) : ClosePc → List (Touch Part)
  | .detach | .shutdown => b.use fd
  | .close => if b.names fd then [.drop .sockfd] else []
  | _ => []

/-- what a step of a thread touches -/
def workTouches (b : Body) : Pc → Do → List (Touch Part)
  | .packet, .malloc true => [.take .packet]
  | .rxBuffer, .malloc true => [.take .rxBuffer]
  | .attach _ .fcntl, .fcntl _ => b.use fd
  | .attach _ .add, .add _ => b.use fd
  | .hold, .sys => b.use fd
  | .hold, .group => b.mreq.toList.map fun k => .use (.mreq k)
  | .mreq, .malloc true => [.take (.mreq b.mreqs), .use (.mreq b.mreqs)]
  | .close k, .close => b.closeTouches fd k
  | _, _ => []

/-- the two `free` of `ncb_deconstruct` -/
def Body.freed (b : Body) : List Part :=
  (if b.packet = true then [.packet] else []) ++
    if b.rxBuffer = true ∧ m.proto = .tcp then [.rxBuffer] else []

def State.touches {n : Nat} (s : State n) : Step n → List (Touch Part)
  | .socket => [.take .sockfd]
  | .refused => [.drop .sockfd]
  | .work i d => workTouches fd s.body (s.pc i) d
  | .close =>
    match s.stage with
    | .dying k => s.body.closeTouches fd k
    | _ => []
  | .free => (s.body.freed m).map .drop
  | _ => []

/-! ## the invariant -/

/-- the thread is making the link -/
def Pc.making : Pc → Bool
  | .options | .packet | .rxBuffer | .boardcast | .attach true _ => true
  | _ => false

/-- what is still to be allocated by the thread that makes the link -/
structure Pending (b : Body) (p : Pc) : Prop where
  packet : p = .options ∨ p = .packet → b.packet = false
  rxBuffer : p = .options ∨ p = .packet ∨ p = .rxBuffer → b.rxBuffer = false
  tcp : p = .rxBuffer → m.proto = .tcp

/-- the socket when `io_close` is at `c`; only a number above zero gets past its first test -/
def Body.Shape (b : Body) : Option ClosePc → Prop
  | none | some .test => (b.names fd ∧ b.opened = true) ∨ (b.sockfd = -1 ∧ b.opened = false ∧ 0 < fd)
  | some .clear => b.opened = false ∧ 0 < fd
  | some _ => b.names fd ∧ b.opened = true ∧ 0 < fd

/-- the threads, and the one of them that is in `io_close`, at `c` -/
structure Sound {n : Nat} (s : State n) (c : Option ClosePc) : Prop where
  alive : ∀ i, (s.pc i).holds = true → s.stage = .alive
  before : s.stage = .start ∨ s.stage = .socket →
    (∀ i, s.pc i = .out) ∧ s.body.packet = false ∧ s.body.rxBuffer = false
  opened : s.stage = .start ∨ s.stage = .refused → s.body.opened = false
  socket : s.stage = .socket → s.body.opened = true
  maker : ∀ i j, (s.pc i).making = true → (s.pc j).making = true → i = j
  pending : ∀ i, Pending m s.body (s.pc i)
  tcp : s.body.rxBuffer = true → m.proto = .tcp
  ordered : ∀ i k, s.pc i = .close k → c = some k ∧ s.closing = true
  closer : ∀ i j k k', s.pc i = .close k → s.pc j = .close k' → i = j
  dying : ∀ k, s.stage = .dying k → c = some k
  closes : c ≠ none → (∃ i k, s.pc i = .close k) ∨ ∃ k, s.stage = .dying k
  shape : s.stage ≠ .start → s.stage ≠ .socket → s.stage ≠ .refused → s.body.Shape fd c
  closed : s.stage = .free ∨ s.stage = .released → s.body.opened = true → fd = 0

end

section
variable {m : Maker} {fd : Nat} {epfd : Int} {n : Nat} {s s' : State n} {b b' : Body}
  {c : Option ClosePc} {k : ClosePc} {i : Fin n} {p p' : Pc} {d : Do}

/-! ## one step of `io_close` -/

theorem close_shape (epfd : Int) (h : b.Shape fd (some k)) :
    (b.close fd epfd k).1.Shape fd (b.close fd epfd k).2 ∧
      ((b.close fd epfd k).2 = none → (b.close fd epfd k).1.opened = true → fd = 0) := by
  cases k with
  | test =>
    by_cases hs : b.sockfd > 0
    · have hclose : b.close fd epfd .test = (b, some .epfd) := by
        show (b, if b.sockfd > 0 then some ClosePc.epfd else none) = _
        rw [if_pos hs]
      rw [hclose]
      refine ⟨?_, nofun⟩
      rcases h with ⟨h1, h2⟩ | ⟨h1, _⟩
      · have h3 : b.sockfd = fd := h1
        exact ⟨h1, h2, by omega⟩
      · omega
    · have hclose : b.close fd epfd .test = (b, none) := by
        show (b, if b.sockfd > 0 then some ClosePc.epfd else none) = _
        rw [if_neg hs]
      rw [hclose]
      refine ⟨h, fun _ ho => ?_⟩
      rcases h with ⟨h1, _⟩ | ⟨_, h2, _⟩
      · have h3 : b.sockfd = fd := h1
        omega
      · exact absurd ho (by rw [h2]; exact Bool.false_ne_true)
  | epfd =>
    refine ⟨?_, nofun⟩
    show b.Shape fd (some (if b.epfd > 0 then .detach else .shutdown))
    split <;> exact h
  | detach =>
    refine ⟨?_, nofun⟩
    show (if b.reaches fd epfd then { b with watched := false } else b).Shape fd (some .unset)
    split <;> exact h
  | unset => exact ⟨h, nofun⟩
  | shutdown => exact ⟨h, nofun⟩
  | close =>
    refine ⟨?_, nofun⟩
    show (if b.names fd then { b with opened := false, watched := false } else b).Shape fd (some .clear)
    rw [if_pos h.1]
    exact ⟨rfl, h.2.2⟩
  | clear => exact ⟨Or.inr ⟨rfl, h.1, h.2⟩, fun _ ho => absurd (h.1.symm.trans ho) Bool.false_ne_true⟩

/-- `io_close` touches nothing but the socket -/
theorem close_keeps (fd : Nat) (epfd : Int) (b : Body) (k : ClosePc) :
    (b.close fd epfd k).1.packet = b.packet ∧ (b.close fd epfd k).1.rxBuffer = b.rxBuffer ∧
      (b.close fd epfd k).1.mreq = b.mreq ∧ (b.close fd epfd k).1.mreqs = b.mreqs := by
  cases k with
  | detach =>
    unfold Body.close
    dsimp only
    split <;> exact ⟨rfl, rfl, rfl, rfl⟩
  | close =>
    unfold Body.close
    dsimp only
    split <;> exact ⟨rfl, rfl, rfl, rfl⟩
  | _ => exact ⟨rfl, rfl, rfl, rfl⟩

/-! ## one step of a thread -/

/-- What a thread can do.  `quiet`: it goes on, perhaps with a system call on `sockfd`; nothing but
`epfd` and the registration changes. -/
inductive Turn (m : Maker) (fd : Nat) (epfd : Int) (b : Body) : Pc → Do → Body → Pc → Prop
  | quiet (p p' : Pc) (d : Do) (e : Int) (w : Bool) (hp : p.holds = true) (hp' : p'.holds = true)
      (hc : ∀ k, p ≠ .close k) (hc' : ∀ k, p' ≠ .close k) (hm : p'.making = true → p.making = true)
      (hl : p' = .packet → p = .options) (ho : p' ≠ .options) (hr : p' ≠ .rxBuffer)
      (ht : workTouches fd b p d = if d.calls = true then b.use fd else []) :
      Turn m fd epfd b p d { b with epfd := e, watched := w } p'
  | packet (p' : Pc) (hp' : p' = .rxBuffer ∧ m.proto = .tcp ∨ p' = .boardcast) :
      Turn m fd epfd b .packet (.malloc true) { b with packet := true } p'
  | rxBuffer : Turn m fd epfd b .rxBuffer (.malloc true) { b with rxBuffer := true } .boardcast
  | lookup (k : Nat) (hk : b.mreq = some k) : Turn m fd epfd b .hold .group b .hold
  | record : Turn m fd epfd b .mreq (.malloc true)
      { b with mreq := some b.mreqs, mreqs := b.mreqs + 1 } .hold
  | close (k : ClosePc) : Turn m fd epfd b (.close k) .close (b.close fd epfd k).1
      (.closing (b.close fd epfd k).2)

/-- from `p` the thread can get to `p'`, a place where nothing is to be allocated for the link -/
def Pc.Onwards (p p' : Pc) : Prop :=
  p' = .failed ∨ p' = .leave ∨ p' = .hold ∨ p' = .mreq ∨
    ∃ making k, p' = .attach making k ∧ (making = true → p.making = true)

theorem Turn.same (e : Int) (w : Bool) (hp : p.holds = true) (hc : ∀ k, p ≠ .close k)
    (hp' : p.Onwards p')
    (ht : workTouches fd b p d = if d.calls = true then b.use fd else []) :
    Turn m fd epfd b p d { b with epfd := e, watched := w } p' := by
  have hplace : p'.holds = true ∧ (∀ k, p' ≠ .close k) ∧ (p'.making = true → p.making = true) ∧
      p' ≠ .packet ∧ p' ≠ .options ∧ p' ≠ .rxBuffer := by
    rcases hp' with rfl | rfl | rfl | rfl | ⟨making, k, rfl, h⟩
    · exact ⟨rfl, nofun, nofun, nofun, nofun, nofun⟩
    · exact ⟨rfl, nofun, nofun, nofun, nofun, nofun⟩
    · exact ⟨rfl, nofun, nofun, nofun, nofun, nofun⟩
    · exact ⟨rfl, nofun, nofun, nofun, nofun, nofun⟩
    · refine ⟨rfl, nofun, fun hm => h ?_, nofun, nofun, nofun⟩
      cases making with
      | false => cases hm
      | true => rfl
  obtain ⟨h1, h2, h3, h4, h5, h6⟩ := hplace
  exact .quiet p p' d e w hp h1 hc h2 h3 (fun h => absurd h h4) h5 h6 ht

theorem pending_done (h1 : p ≠ .options) (h2 : p ≠ .packet) (h3 : p ≠ .rxBuffer) : Pending m b p where
  packet h := h.elim (absurd · h1) (absurd · h2)
  rxBuffer h := h.elim (absurd · h1) fun h => h.elim (absurd · h2) (absurd · h3)
  tcp h := absurd h h3

/-- a thread goes on outside of `io_close`, and the socket stays as it is -/
theorem Sound.thread (S : Sound m fd s c) {p' : Pc} {b' : Body} {closing : Bool}
    (hbegun : s.stage ≠ .start ∧ s.stage ≠ .socket)
    (hc : ∀ k, s.pc i ≠ .close k) (hc' : ∀ k, p' ≠ .close k)
    (hh : p'.holds = true → s.stage = .alive) (hm : p'.making = true → (s.pc i).making = true)
    (hcl : s.closing = true → closing = true) (hf : b'.sockfd = s.body.sockfd)
    (ho : b'.opened = s.body.opened) (hp : ∀ j, j ≠ i → Pending m b' (s.pc j)) (hp' : Pending m b' p')
    (ht : b'.rxBuffer = true → m.proto = .tcp) :
    Sound m fd { s with closing := closing, body := b', pc := Function.update s.pc i p' } c := by
  have hpc : ∀ (Q : Fin n → Pc → Prop), Q i p' → (∀ j, j ≠ i → Q j (s.pc j)) →
      ∀ j, Q j (Function.update s.pc i p' j) :=
    fun Q h1 h2 => (Function.forall_update_iff s.pc Q).mpr ⟨h1, h2⟩
  have hmaking : ∀ j, (Function.update s.pc i p' j).making = true → (s.pc j).making = true :=
    hpc (fun j q => q.making = true → (s.pc j).making = true) hm fun j _ h => h
  have hclose : ∀ j k, Function.update s.pc i p' j = .close k → s.pc j = .close k :=
    hpc (fun j q => ∀ k, q = .close k → s.pc j = .close k) (fun k h => absurd h (hc' k)) fun j _ k h => h
  refine ⟨?_, ?_, ?_, ?_, ?_, ?_, ht, ?_, ?_, S.dying, ?_, ?_, ?_⟩
  · exact hpc (fun _ q => q.holds = true → s.stage = .alive) hh fun j _ => S.alive j
  · rintro (h | h)
    · exact absurd h hbegun.1
    · exact absurd h hbegun.2
  · intro h
    rw [ho]
    exact S.opened h
  · intro h
    exact absurd h hbegun.2
  · intro j j' h h'
    exact S.maker j j' (hmaking j h) (hmaking j' h')
  · exact hpc (fun _ q => Pending m b' q) hp' hp
  · intro j k h
    obtain ⟨h1, h2⟩ := S.ordered j k (hclose j k h)
    exact ⟨h1, hcl h2⟩
  · intro j j' k k' h h'
    exact S.closer j j' k k' (hclose j k h) (hclose j' k' h')
  · intro h
    rcases S.closes h with ⟨j, k, hj⟩ | h
    · refine Or.inl ⟨j, k, ?_⟩
      have hne : j ≠ i := by
        rintro rfl
        exact hc k hj
      exact (Function.update_of_ne hne ..).trans hj
    · exact Or.inr h
  · intro h1 h2 h3
    have h := S.shape h1 h2 h3
    unfold Body.Shape Body.names at h ⊢
    rw [hf, ho]
    exact h
  · intro h1 h2
    rw [ho] at h2
    exact S.closed h1 h2

/-- where nobody is in `io_close` -/
theorem Sound.none_of (S : Sound m fd s c) (h : ∀ i k, s.pc i ≠ .close k)
    (hd : ∀ k, s.stage ≠ .dying k) : c = none := by
  by_contra hc
  rcases S.closes hc with ⟨i, k, hi⟩ | ⟨k, hk⟩
  · exact h i k hi
  · exact hd k hk

/-- the thread that is in `io_close` -/
theorem Sound.closeTurn (S : Sound m fd s c) (hpi : s.pc i = .close k) :
    Sound m fd ({ s with body := (s.body.close fd epfd k).1 }.setPc i
      (.closing (s.body.close fd epfd k).2)) (s.body.close fd epfd k).2 := by
  have halive : s.stage = .alive := S.alive i (by rw [hpi]; rfl)
  obtain ⟨rfl, hcl⟩ := S.ordered i k hpi
  have hshape : s.body.Shape fd (some k) := S.shape (by rw [halive]; exact nofun)
    (by rw [halive]; exact nofun) (by rw [halive]; exact nofun)
  obtain ⟨hs', _⟩ := close_shape epfd hshape
  obtain ⟨h1, h2, _, _⟩ := close_keeps fd epfd s.body k
  generalize (s.body.close fd epfd k).1 = b' at *
  generalize (s.body.close fd epfd k).2 = c' at *
  -- where the thread is then
  obtain ⟨q, hq, hq1, hq2, hq3, hq4⟩ : ∃ q, Pc.closing c' = q ∧ q.making = false ∧
        (∀ b : Body, Pending m b q) ∧ (∀ k', q = .close k' → c' = some k') ∧ (c' ≠ none → ∃ k', q = .close k') := by
    cases c' with
    | none => exact ⟨_, rfl, rfl, fun _ => pending_done nofun nofun nofun, nofun, absurd rfl⟩
    | some k' =>
      refine ⟨_, rfl, rfl, fun _ => pending_done nofun nofun nofun, fun k'' h => ?_, fun _ => ⟨k', rfl⟩⟩
      cases h
      rfl
  rw [hq]
  have hpc : ∀ (Q : Fin n → Pc → Prop), Q i q → (∀ j, j ≠ i → Q j (s.pc j)) →
      ∀ j, Q j (Function.update s.pc i q j) :=
    fun Q h1 h2 => (Function.forall_update_iff s.pc Q).mpr ⟨h1, h2⟩
  have hmaking : ∀ j, (Function.update s.pc i q j).making = true → (s.pc j).making = true :=
    hpc (fun j q => q.making = true → (s.pc j).making = true)
      (fun h => absurd (hq1.symm.trans h) Bool.false_ne_true) fun j _ h => h
  have hclose : ∀ j k', Function.update s.pc i q j = .close k' → j = i ∧ c' = some k' :=
    hpc (fun j q => ∀ k', q = .close k' → j = i ∧ c' = some k') (fun k' h => ⟨rfl, hq3 k' h⟩)
      fun j hj k' h => absurd (S.closer j i k' k h hpi) hj
  refine ⟨hpc (fun _ q => q.holds = true → s.stage = .alive) (fun _ => halive) fun j _ => S.alive j,
    ?_, ?_, ?_, ?_, ?_, ?_, ?_, ?_, ?_, ?_, fun _ _ _ => hs', ?_⟩
  · rintro (h | h) <;> exact absurd (halive.symm.trans h) nofun
  · rintro (h | h) <;> exact absurd (halive.symm.trans h) nofun
  · intro h
    exact absurd (halive.symm.trans h) nofun
  · intro j j' h h'
    exact S.maker j j' (hmaking j h) (hmaking j' h')
  · refine hpc (fun _ q => Pending m b' q) (hq2 b') fun j _ => ?_
    obtain ⟨h3, h4, h5⟩ := S.pending j
    exact ⟨fun h => h1.trans (h3 h), fun h => h2.trans (h4 h), h5⟩
  · intro h
    exact S.tcp (h2.symm.trans h)
  · intro j k' h
    exact ⟨(hclose j k' h).2, hcl⟩
  · intro j j' k' k'' h h'
    rw [(hclose j k' h).1, (hclose j' k'' h').1]
  · intro k' h
    exact absurd (halive.symm.trans h) nofun
  · intro h
    obtain ⟨k', hk'⟩ := hq4 h
    exact Or.inl ⟨i, k', (Function.update_self ..).trans hk'⟩
  · rintro (h | h) <;> exact absurd (halive.symm.trans h) nofun

theorem Sound.turn (S : Sound m fd s c) (T : Turn m fd epfd s.body (s.pc i) d b' p')
    (h : s.stage = .alive) : ∃ c', Sound m fd ({ s with body := b' }.setPc i p') c' := by
  have hbegun : s.stage ≠ .start ∧ s.stage ≠ .socket := by
    rw [h]
    exact ⟨nofun, nofun⟩
  generalize hpi : s.pc i = p at T
  have hothers : ∀ j, j ≠ i → ∀ q : Pc, p.making = true → q.making = true → s.pc j ≠ q := by
    intro j hj q hm hq he
    exact hj (S.maker j i (by rw [he]; exact hq) (by rw [hpi]; exact hm))
  have hP : Pending m s.body p := hpi ▸ S.pending i
  cases T with
  | quiet _ _ _ e w hp hp' hc hc' hm hl ho hr ht =>
    refine ⟨c, S.thread hbegun (fun k => by rw [hpi]; exact hc k) hc' (fun _ => h)
      (fun hq => by rw [hpi]; exact hm hq) id rfl rfl (fun j _ => ⟨(S.pending j).1, (S.pending j).2,
        (S.pending j).3⟩) ⟨?_, ?_, fun hq => absurd hq hr⟩ S.tcp⟩
    · rintro (hq | hq)
      · exact absurd hq ho
      · exact hP.packet (Or.inl (hl hq))
    · rintro (hq | hq | hq)
      · exact absurd hq ho
      · exact hP.rxBuffer (Or.inl (hl hq))
      · exact absurd hq hr
  | packet _ hq =>
    refine ⟨c, S.thread hbegun (fun k => by rw [hpi]; exact nofun) ?_ (fun _ => h)
      (fun _ => by rw [hpi]; rfl) id rfl rfl (fun j hj => ⟨?_, (S.pending j).2, (S.pending j).3⟩) ?_ S.tcp⟩
    · rcases hq with ⟨rfl, _⟩ | rfl <;> exact nofun
    · rintro (hq | hq)
      · exact absurd hq (hothers j hj _ rfl rfl)
      · exact absurd hq (hothers j hj _ rfl rfl)
    · rcases hq with ⟨rfl, ht⟩ | rfl
      · exact ⟨fun hq => hq.elim nofun nofun, fun _ => hP.rxBuffer (Or.inr (Or.inl rfl)), fun _ => ht⟩
      · exact pending_done nofun nofun nofun
  | rxBuffer =>
    refine ⟨c, S.thread hbegun (fun k => by rw [hpi]; exact nofun) nofun (fun _ => h)
      (fun _ => by rw [hpi]; rfl) id rfl rfl (fun j hj => ?_) (pending_done nofun nofun nofun)
      fun _ => hP.tcp rfl⟩
    exact pending_done (hothers j hj _ rfl rfl) (hothers j hj _ rfl rfl) (hothers j hj _ rfl rfl)
  | lookup k hk =>
    exact ⟨c, S.thread hbegun (fun k => by rw [hpi]; exact nofun) nofun (fun _ => h) nofun id rfl rfl
      (fun j _ => S.pending j) hP S.tcp⟩
  | record =>
    exact ⟨c, S.thread hbegun (fun k => by rw [hpi]; exact nofun) nofun (fun _ => h) nofun id rfl rfl
      (fun j _ => ⟨(S.pending j).1, (S.pending j).2, (S.pending j).3⟩)
      (pending_done nofun nofun nofun) S.tcp⟩
  | close k => exact ⟨_, S.closeTurn hpi⟩

theorem Turn.holds (T : Turn m fd epfd b p d b' p') : p.holds = true := by
  cases T with
  | quiet _ _ _ _ _ hp => exact hp
  | _ => rfl

theorem Sound.begun (S : Sound m fd s c) (h : s.pc i ≠ .out) : s.stage ≠ .start ∧ s.stage ≠ .socket :=
  ⟨fun hs => h ((S.before (Or.inl hs)).1 i), fun hs => h ((S.before (Or.inr hs)).1 i)⟩

/-- a thread changes only its place, to one outside of `io_close` -/
theorem Sound.move (S : Sound m fd s c) {p' : Pc} {closing : Bool}
    (hbegun : s.stage ≠ .start ∧ s.stage ≠ .socket) (hc : ∀ k, s.pc i ≠ .close k)
    (hp' : p' = .out ∨ p' = .orphan ∨ (p' = .hold ∨ p' = .leave) ∧ s.stage = .alive)
    (hcl : s.closing = true → closing = true) :
    Sound m fd ({ s with closing := closing }.setPc i p') c := by
  refine S.thread hbegun hc ?_ ?_ ?_ hcl rfl rfl (fun j _ => S.pending j) ?_ S.tcp
  · rcases hp' with rfl | rfl | ⟨rfl | rfl, _⟩ <;> exact nofun
  · rcases hp' with rfl | rfl | ⟨_, h⟩
    · exact nofun
    · exact nofun
    · exact fun _ => h
  · rcases hp' with rfl | rfl | ⟨rfl | rfl, _⟩ <;> exact nofun
  · rcases hp' with rfl | rfl | ⟨rfl | rfl, _⟩ <;> exact pending_done nofun nofun nofun

theorem Sound.objallo (S : Sound m fd s c) (h : s.stage = .socket) (i : Fin n) :
    Sound m fd ({ s with stage := .alive, body := { s.body with sockfd := fd } }.setPc i .options) none := by
  obtain ⟨hout, hpk, hrx⟩ := S.before (Or.inr h)
  have hpc : ∀ j p, Function.update s.pc i Pc.options j = p → p ≠ .out → j = i ∧ p = .options := by
    intro j p hj hp
    by_cases he : j = i
    · subst he
      rw [Function.update_self] at hj
      exact ⟨rfl, hj.symm⟩
    · rw [Function.update_of_ne he, hout j] at hj
      exact absurd hj.symm hp
  have hmaking : ∀ j, (Function.update s.pc i Pc.options j).making = true → j = i := fun j hj =>
    (hpc j _ rfl fun he => by
      rw [he] at hj
      cases hj).1
  refine ⟨fun _ _ => rfl, fun h => h.elim nofun nofun, fun h => h.elim nofun nofun, nofun, ?_, ?_, S.tcp, ?_,
    ?_, nofun, absurd rfl, fun _ _ _ => Or.inl ⟨rfl, S.socket h⟩, fun h => h.elim nofun nofun⟩
  · intro j j' hj hj'
    rw [hmaking j hj, hmaking j' hj']
  · intro j
    refine ⟨fun _ => hpk, fun _ => hrx, fun hj => ?_⟩
    cases (hpc j _ hj nofun).2
  · intro j k hj
    cases (hpc j _ hj nofun).2
  · intro j _ k _ hj
    cases (hpc j _ hj nofun).2

theorem Sound.objreff (S : Sound m fd s c) (h : s.stage = .alive) (hcl : s.closing = false)
    (i : Fin n) :
    Sound m fd ({ s with closing := true }.setPc i (.close .test)) (some .test) := by
  have hno : ∀ j k, s.pc j ≠ .close k := fun j k hj => by
    rw [(S.ordered j k hj).2] at hcl
    cases hcl
  have hnone : c = none := S.none_of hno (by rw [h]; exact nofun)
  subst hnone
  have hpc : ∀ (Q : Fin n → Pc → Prop), Q i (.close .test) → (∀ j, j ≠ i → Q j (s.pc j)) →
      ∀ j, Q j (Function.update s.pc i (.close .test) j) :=
    fun Q h1 h2 => (Function.forall_update_iff s.pc Q).mpr ⟨h1, h2⟩
  have hmaking : ∀ j, (Function.update s.pc i (Pc.close .test) j).making = true → (s.pc j).making = true :=
    hpc (fun j q => q.making = true → (s.pc j).making = true) nofun fun j _ h => h
  have hclose : ∀ j k, Function.update s.pc i (Pc.close .test) j = .close k → j = i ∧ k = .test :=
    hpc (fun j q => ∀ k, q = .close k → j = i ∧ k = .test) (fun k h => ⟨rfl, (Pc.close.inj h).symm⟩)
      fun j _ k h => absurd h (hno j k)
  have hshape := S.shape (by rw [h]; exact nofun) (by rw [h]; exact nofun) (by rw [h]; exact nofun)
  refine ⟨hpc (fun _ q => q.holds = true → s.stage = .alive) (fun _ => h) fun j _ => S.alive j,
    ?_, ?_, S.socket, fun j j' h1 h2 => S.maker j j' (hmaking j h1) (hmaking j' h2), ?_, S.tcp, ?_, ?_,
    fun k hk => absurd (h.symm.trans hk) nofun, fun _ => Or.inl ⟨i, .test, Function.update_self ..⟩,
    fun _ _ _ => hshape, ?_⟩
  · rintro (h1 | h1) <;> exact absurd (h.symm.trans h1) nofun
  · rintro (h1 | h1) <;> exact absurd (h.symm.trans h1) nofun
  · exact hpc (fun _ q => Pending m s.body q) (pending_done nofun nofun nofun) fun j _ => S.pending j
  · intro j k hj
    rw [(hclose j k hj).2]
    exact ⟨rfl, rfl⟩
  · intro j j' k k' hj hj'
    rw [(hclose j k hj).1, (hclose j' k' hj').1]
  · rintro (h1 | h1) <;> exact absurd (h.symm.trans h1) nofun

/-- nobody has begun in front of `objallo` -/
theorem Sound.unborn (S : Sound m fd s c) (hs : s.stage = .start ∨ s.stage = .socket) {stage : Stage}
    {opened : Bool} (h : stage = .socket ∧ opened = true ∨ stage = .refused ∧ opened = false) :
    Sound m fd { s with stage := stage, body := { s.body with opened := opened } } none := by
  obtain ⟨hout, hpk, hrx⟩ := S.before hs
  have hpc : ∀ i (p : Pc), p ≠ .out → s.pc i ≠ p := fun i p hp he => hp (he.symm.trans (hout i))
  have hst : stage ≠ .free ∧ stage ≠ .released ∧ (∀ k, stage ≠ .dying k) ∧ stage ≠ .start := by
    rcases h with ⟨rfl, _⟩ | ⟨rfl, _⟩ <;> exact ⟨nofun, nofun, nofun, nofun⟩
  refine ⟨fun i hi => absurd rfl (hpc i _ fun he => ?_), fun _ => ⟨hout, hpk, hrx⟩, ?_, ?_, S.maker,
    fun i => pending_done (hpc i _ nofun) (hpc i _ nofun) (hpc i _ nofun), S.tcp,
    fun i k hi => absurd hi (hpc i _ nofun), S.closer, fun k hk => absurd hk (hst.2.2.1 k), absurd rfl, ?_, ?_⟩
  · rw [he] at hi
    cases hi
  · rintro (he | he)
    · exact absurd he hst.2.2.2
    · rcases h with ⟨h1, _⟩ | ⟨_, h1⟩
      · exact absurd (h1.symm.trans he) nofun
      · exact h1
  · intro he
    rcases h with ⟨_, h1⟩ | ⟨h1, _⟩
    · exact h1
    · exact absurd (h1.symm.trans he) nofun
  · intro _ h1 h2
    rcases h with ⟨h3, _⟩ | ⟨h3, _⟩
    · exact absurd h3 h1
    · exact absurd h3 h2
  · rintro (he | he)
    · exact absurd he hst.1
    · exact absurd he hst.2.1

end

end LinkLife
end Swnet

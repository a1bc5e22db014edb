import Swnet.Link
import Swnet.TxBooks

/-!
# What a step of a link can do

* `Phase`       what the establishing thread, `tcp_tx_syn`, the two handlers and the posts can be
                together;
* `Base`        the state fits a phase, and before the link is ready nobody sends;
* `Turn`        the steps, with everything that is known about them;
* `step_turn`, `turn_base`   every step is one of them, and keeps `Base`;
* `run_turns`   what the turns keep beside `Base`, the runs keep.
-/

namespace Swnet
open CMem Runs

/-! ## the send side while nobody writes -/

/-- no call is running, nothing is queued and the pool has nothing in hand -/
structure Calm (t : Tx) : Prop where
  writers : ∀ i, t.writer i = .idle
  empty : t.fifo.head = []
  worker : t.worker = .idle ∨ t.worker = .top

/-- the steps of the send side that a link passes on as they are -/
def TxAct.Inner {Req : Type} : TxAct Req → Prop
  | .call _ _ _ => False
  | .task => False
  | .exec => False
  | _ => True

section
variable {Req : Type} {L : Sender Req} {t t' : Tx} {a : TxAct Req}

/-- what a step does to the socket -/
theorem move_sock (M : Move L t a t') :
    t'.sock = t.sock ∨ (¬ Calm t ∧ t'.sock = { t.sock with full := true }) ∨
      (¬ Calm t ∧ ∃ o, t'.sock = t.sock.arm ⟨true, o⟩) ∨
      (t.sock.full = true ∧ t'.sock = t.sock.room) := by
  cases M with
  | @queueYes i n e fifo' sock' hw ho hh hs =>
    rcases hs with ⟨_, _, rfl⟩ | ⟨_, rfl⟩
    · refine Or.inr (Or.inr (Or.inl ⟨fun h => ?_, true, rfl⟩))
      rw [h.writers i] at hw
      cases hw
    · exact Or.inl rfl
  | @txPop e n rest fifo' sock' hw hh ho hr hs =>
    rcases hs with ⟨_, rfl⟩ | ⟨_, rfl⟩
    · unfold ioModify
      split
      · refine Or.inr (Or.inr (Or.inl ⟨fun h => ?_, false, rfl⟩))
        rw [h.empty] at hh
        cases hh
      · exact Or.inl rfl
    · exact Or.inl rfl
  | @pop e n rest fifo' sock' hw hh ho hr hs =>
    rcases hs with ⟨_, rfl⟩ | ⟨_, rfl⟩
    · unfold ioModify
      split
      · refine Or.inr (Or.inr (Or.inl ⟨fun h => ?_, false, rfl⟩))
        rw [h.empty] at hh
        cases hh
      · exact Or.inl rfl
    · exact Or.inl rfl
  | @sendAgain i n hw =>
    refine Or.inr (Or.inl ⟨fun h => ?_, rfl⟩)
    rw [h.writers i] at hw
    cases hw
  | @wsendAgain n hw =>
    refine Or.inr (Or.inl ⟨fun h => ?_, rfl⟩)
    rcases h.worker with h | h <;> rw [h] at hw <;> cases hw
  | room hf => exact Or.inr (Or.inr (Or.inr ⟨hf, rfl⟩))
  | _ => exact Or.inl rfl

theorem move_closed (M : Move L t a t') (h : t.closed = true) : t'.closed = true := by
  cases M with
  | topFail => rfl
  | wsendFail => rfl
  | close => rfl
  | _ => exact h

theorem move_open (M : Move L t a t') (h : t'.closed = false) : t.closed = false := by
  cases hc : t.closed with
  | false => rfl
  | true => exact Bool.noConfusion (h.symm.trans (move_closed M hc))

theorem move_calm (C : Calm t) (ha : a.Inner) (M : Move L t a t') : Calm t' := by
  have hidle : ∀ {i pc}, t.writer i = pc → pc = .idle := fun h => h ▸ C.writers _
  have hpool : ∀ {pc}, t.worker = pc → pc = .idle ∨ pc = .top := fun h => h ▸ C.worker
  cases M with
  | same => exact C
  | call => exact ha.elim
  | task => exact ha.elim
  | exec => exact ha.elim
  | testSend hw => cases hidle hw
  | testQueue hw => cases hidle hw
  | sendSome hw => cases hidle hw
  | sendAll hw => cases hidle hw
  | sendAgain hw => cases hidle hw
  | sendFail hw => cases hidle hw
  | queueNo hw => cases hidle hw
  | queueYes hw => cases hidle hw
  | topFail hw => exact ⟨C.writers, C.empty, Or.inl rfl⟩
  | topNone hw => exact ⟨C.writers, C.empty, Or.inl rfl⟩
  | topSend hw hh =>
    rw [C.empty] at hh
    cases hh
  | wsendSome hw => rcases hpool hw with h | h <;> cases h
  | wsendAll hw => rcases hpool hw with h | h <;> cases h
  | wsendAgain hw => rcases hpool hw with h | h <;> cases h
  | wsendFail hw => exact ⟨C.writers, C.empty, Or.inl rfl⟩
  | txPop hw => rcases hpool hw with h | h <;> cases h
  | popNone hw => exact ⟨C.writers, C.empty, Or.inl rfl⟩
  | pop hw => rcases hpool hw with h | h <;> cases h
  | room hf => exact ⟨C.writers, C.empty, C.worker⟩
  | close => exact ⟨C.writers, C.empty, C.worker⟩

end

/-! ## phases -/

/-- What goes together: the two places, the two handlers and whether the link is announced. -/
inductive Phase : Path → Epc → Spc → Option NcbRead → Option NcbWrite → Bool → Prop where
  | connectAttach : Phase .connect .attach .idle none none false
  | connectFailed : Phase .connect .failed .idle none none false
  | connectPost : Phase .connect .post .idle none none false
  | connectCallback : Phase .connect .callback .idle none none true
  | connectRead : Phase .connect .setRead .idle none none true
  | connectWrite : Phase .connect .setWrite .idle (some .tcpRx) none true
  | connectDone : Phase .connect .done .idle (some .tcpRx) (some .tcpTx) true
  | connect2Cas : Phase .connect2 .cas .idle none none false
  | connect2 {est : Epc} {syn : Spc} (hs : syn = .idle ∨ syn = .check ∨ syn = .modify) :
      Phase .connect2 est syn none (some .tcpTxSyn) false
  | synRead : Phase .connect2 .done .setRead none (some .tcpTxSyn) false
  | synWrite : Phase .connect2 .done .setWrite (some .tcpRx) (some .tcpTxSyn) false
  | synPost : Phase .connect2 .done .post (some .tcpRx) (some .tcpTx) false
  | synCallback : Phase .connect2 .done .callback (some .tcpRx) (some .tcpTx) true
  | synDone : Phase .connect2 .done .done (some .tcpRx) (some .tcpTx) true
  | listenCas : Phase .listen .cas .idle none none false
  | listen {est : Epc} : Phase .listen est .idle (some .tcpSyn) none false
  | acceptRead : Phase .accept .setRead .idle none none false
  | acceptWrite : Phase .accept .setWrite .idle (some .tcpRx) none false
  | acceptAttach : Phase .accept .attach .idle (some .tcpRx) (some .tcpTx) false
  | acceptFailed : Phase .accept .failed .idle (some .tcpRx) (some .tcpTx) false
  | acceptPost : Phase .accept .post .idle (some .tcpRx) (some .tcpTx) false
  | acceptCallback : Phase .accept .callback .idle (some .tcpRx) (some .tcpTx) true
  | acceptModify : Phase .accept .modify .idle (some .tcpRx) (some .tcpTx) true
  | acceptDone : Phase .accept .done .idle (some .tcpRx) (some .tcpTx) true

/-- what epoll knows of the socket: nothing, or whether it is sure to watch for `EPOLLIN` -/
def Path.watched : Path → Epc → Spc → Option Bool
  | .connect, .attach, _ => none
  | .connect, .failed, _ => none
  | .connect, _, _ => some true
  | .connect2, .done, .idle => some false
  | .connect2, .done, .check => some false
  | .connect2, .done, .modify => some false
  | .connect2, .done, _ => some true
  | .connect2, _, _ => none
  | .listen, .done, _ => some true
  | .listen, _, _ => none
  | .accept, .post, _ => some false
  | .accept, .callback, _ => some false
  | .accept, .modify, _ => some false
  | .accept, .done, _ => some false
  | .accept, _, _ => none

def Sock.Known (k : Sock) : Option Bool → Prop
  | none => k.mask = none
  | some b => ∃ m, k.mask = some m ∧ (b = true → m.epollin = true)

namespace Link

/-- `tcp_write` gets past its first tests -/
def Ready (s : Link) : Prop :=
  s.ncbRead ≠ none ∧ s.ncbWrite ≠ none ∧ (s.path = .accept → s.told = true)

def watched (s : Link) : Option Bool := s.path.watched s.est s.syn

end Link

structure Base {Req : Type} (L : Sender Req) (s : Link) : Prop where
  books : Books L s.tx
  phase : Phase s.path s.est s.syn s.ncbRead s.ncbWrite s.told
  known : s.tx.sock.Known s.watched
  calm : ¬ s.Ready → Calm s.tx

/-- the mask of the path's `io_attach` -/
def Path.mask : Path → Mask
  | .connect => ⟨true, false⟩
  | .connect2 => ⟨false, true⟩
  | .listen => ⟨true, false⟩
  | .accept => ⟨false, false⟩

/-- What a step can do.  The steps of the establishing thread and of `tcp_tx_syn` are told apart by
what they change; `P` is the phase behind the step. -/
inductive Turn {Req : Type} (H : Heap) (L : Sender Req) (s : Link) : LinkAct Req → Link → Prop where
  | same {a : LinkAct Req} : Turn H L s a s
  -- `tcp_write` and `__wp_exec`
  | inner {a : TxAct Req} {t : Tx} (ha : a.Inner) (M : Move L s.tx a t) :
      Turn H L s (.tx a) { s with tx := t }
  | call {i : Nat} {q : Req} {behind : Bytes} {t : Tx} (hr : s.Ready)
      (M : Move L s.tx (.call i q behind) t) : Turn H L s (.tx (.call i q behind)) { s with tx := t }
  | exec {w : Xpc} (hw : s.tx.worker = .idle) (ht : 0 < s.tx.tasks)
      (hx : w = .top ∨ w = .idle ∧ s.tx.closed = true) :
      Turn H L s (.tx .exec) { s with tx := { s.tx with tasks := s.tx.tasks - 1, worker := w } }
  | execNone (hr : ¬ s.Ready) :
      Turn H L s (.tx .exec) { s with tx := { s.tx with tasks := s.tx.tasks - 1 } }
  | execSyn (ht : 0 < s.tx.tasks) (hr : ¬ s.Ready)
      (P : Phase s.path s.est .check s.ncbRead s.ncbWrite s.told)
      (hk : s.path.watched s.est .check = s.watched) :
      Turn H L s (.tx .exec)
        { s with tx := { s.tx with tasks := s.tx.tasks - 1 }, syn := .check }
  -- the link comes to be
  | pass {a : LinkAct Req} {est' : Epc} {syn' : Spc}
      (P : Phase s.path est' syn' s.ncbRead s.ncbWrite s.told)
      (hk : s.path.watched est' syn' = s.watched) (hd : s.path = .accept → est' ≠ .done)
      (hs : syn' ≠ .idle → s.syn ≠ .idle) : Turn H L s a { s with est := est', syn := syn' }
  | read {a : LinkAct Req} {p : NcbRead} {est' : Epc} {syn' : Spc}
      (P : Phase s.path est' syn' (some p) s.ncbWrite s.told)
      (hk : s.path.watched est' syn' = s.watched) (hd : s.path = .accept → est' ≠ .done)
      (hs : syn' ≠ .idle → s.syn ≠ .idle) (hc : s.path = .connect2 → s.syn ≠ .idle) :
      Turn H L s a { s with ncbRead := some p, est := est', syn := syn' }
  | write {a : LinkAct Req} {w : Option NcbWrite} {est' : Epc} {syn' : Spc}
      (hw : s.ncbWrite ≠ none → w ≠ none) (P : Phase s.path est' syn' s.ncbRead w s.told)
      (hk : s.path.watched est' syn' = s.watched) (hd : s.path = .accept → est' ≠ .done)
      (hs : syn' ≠ .idle → s.syn ≠ .idle) :
      Turn H L s a { s with ncbWrite := w, est := est', syn := syn' }
  | post {a : LinkAct Req} {v : Event} {est' : Epc} {syn' : Spc} (hv : v.announces = true)
      (P : Phase s.path est' syn' s.ncbRead s.ncbWrite true)
      (hk : s.path.watched est' syn' = s.watched) (hd : s.path = .accept → est' ≠ .done)
      (hs : syn' ≠ .idle → s.syn ≠ .idle) :
      Turn H L s a { s with events := s.events ++ [v], est := est', syn := syn' }
  | attach {a : LinkAct Req} {est' : Epc} (hr : ¬ s.Ready) (hm : s.tx.sock.mask = none)
      (P : Phase s.path est' s.syn s.ncbRead s.ncbWrite s.told)
      (hk : s.path.watched est' s.syn = some s.path.mask.epollin)
      (hd : s.path = .accept → est' ≠ .done) :
      Turn H L s a { s.setSock (s.tx.sock.arm s.path.mask) with est := est' }
  | modifySyn {a : LinkAct Req} (hp : s.path = .connect2) (hs : s.syn ≠ .idle) (hr : ¬ s.Ready)
      (P : Phase s.path s.est .setRead s.ncbRead s.ncbWrite s.told)
      (hk : s.path.watched s.est .setRead = some true) :
      Turn H L s a { s.setSock (s.tx.sock.arm ⟨true, false⟩) with syn := .setRead }
  | modifyDpc {e : Nat} (hp : s.path = .accept) (he : s.est = .modify)
      (P : Phase s.path .done s.syn s.ncbRead s.ncbWrite s.told)
      (hk : s.path.watched .done s.syn = s.watched) :
      Turn H L s (.est e) { s.setSock (ioModify s.tx.sock ⟨true, false⟩ e).2 with est := .done }
  | failed {a : LinkAct Req} {est' : Epc} {syn' : Spc}
      (P : Phase s.path est' syn' s.ncbRead s.ncbWrite s.told)
      (hk : s.path.watched est' syn' = s.watched) (hd : s.path = .accept → est' ≠ .done)
      (hs : syn' ≠ .idle → s.syn ≠ .idle) :
      Turn H L s a { s.objclos with est := est', syn := syn' }
  -- `__iorun`
  | poll {e : Evts} (hi : s.io = .idle) (he : e.within s.tx.sock.edges = true)
      (hh : s.tx.sock.err = true ∨ e.epollhup = true → e.epollerr = true) :
      Turn H L s (.poll e) { s.setSock (s.tx.sock.deliver e) with io := .event e }
  | eventClose {e : Evts} (hi : s.io = .event e) (he : (e.epollrdhup || e.epollerr) = true) :
      Turn H L s .event
        { s.closeBy (if e.epollerr || s.tx.sock.err then .error else .shutdown) with io := .idle }
  | eventDrop {e : Evts} (hi : s.io = .event e) (hc : s.tx.closed = true) :
      Turn H L s .event { s with io := .idle }
  | eventTake {e : Evts} (hi : s.io = .event e) (hr : e.epollrdhup = false) (he : e.epollerr = false)
      (hc : s.tx.closed = false) : Turn H L s .event { s with io := .fetch e }
  | fetchRead {e : Evts} {p : NcbRead} (hi : s.io = .fetch e) (he : e.epollin = true)
      (hr : s.ncbRead = some p) : Turn H L s .fetch { s with io := .read p e }
  | fetchOut {e : Evts} (hi : s.io = .fetch e) (he : e.epollin = true → s.ncbRead = none) :
      Turn H L s .fetch { s with io := .out e }
  | recv {e : Evts} {r : Recv} {v : Int} {rx' : Rx} {chunk : Bytes} (hi : s.io = .read .tcpRx e)
      (ha : s.tx.sock.answers r = true) (hx : tcpRxOnce H s.rx r = .ok (v, rx'))
      (hc : r = .bytes chunk ∨ chunk = [] ∧ ∃ n, r = .err n) {io' : Ipc} {closed' : Bool}
      {why' : Option Why} (hio : io' = s.io ∨ io' = .out e)
      (hv : v = 0 ∧ io' = s.io ∧ closed' = s.tx.closed ∧ why' = s.why ∨
        v < 0 ∧ io' = .out e ∧ closed' = true ∧
          why' = (if s.tx.closed then s.why else some (if v ≠ -ECONNRESET then .fatal
            else if s.tx.sock.err then .error else .shutdown)) ∨
        0 < v ∧ io' = .out e ∧ closed' = s.tx.closed ∧ why' = s.why) :
      Turn H L s (.recv r)
        { s with
          tx := { s.tx with sock := { s.tx.sock with rxq := s.tx.sock.rxq.drop chunk.length }
                            closed := closed' }
          rx := rx'
          events := s.events ++ (rx'.posts.drop s.rx.posts.length).map .recvdata
          chunks := if chunk = [] then s.chunks else s.chunks ++ [chunk]
          io := io'
          why := why' }
  | accept {e : Evts} {errno : Option Nat} {n : Nat} {io' : Ipc} {closed' : Bool} {why' : Option Why}
      (hi : s.io = .read .tcpSyn e) (hn : n ≤ s.tx.sock.backlog) (hio : io' = s.io ∨ io' = .out e)
      (hv : io' = s.io ∧ closed' = s.tx.closed ∧ why' = s.why ∨
        io' = .out e ∧ closed' = true ∧ why' = (if s.tx.closed then s.why else some .fatal) ∨
        io' = .out e ∧ closed' = s.tx.closed ∧ why' = s.why ∧ n = s.tx.sock.backlog ∧
          (∃ m, errno = some m ∧ (m = 11 ∧ s.tx.sock.backlog = 0 ∨ m ≠ 11 ∧ 0 < tcpSynTry m))) :
      Turn H L s (.accept errno)
        { s with tx := { s.tx with sock := { s.tx.sock with backlog := n }, closed := closed' }
                 io := io', why := why' }
  | outTask {e : Evts} {mem : Bool} (hi : s.io = .out e) (he : e.epollout = true)
      (hm : mem = true) :
      Turn H L s (.out mem) { s with tx := { s.tx with tasks := s.tx.tasks + 1 }, io := .idle }
  | outNone {e : Evts} {mem : Bool} (hi : s.io = .out e)
      (he : e.epollout = false ∨ e.epollhup = true ∨ mem = false) :
      Turn H L s (.out mem) { s with io := .idle }
  -- the network
  | arrive {data : Bytes} (hp : s.path ≠ .listen) (hf : s.tx.sock.fin = false) :
      Turn H L s (.arrive data) { s.setSock (s.tx.sock.arrive data) with sent := s.sent ++ data }
  | incoming (hp : s.path = .listen) : Turn H L s .incoming (s.setSock s.tx.sock.incoming)
  | shutdown (hp : s.path ≠ .listen) : Turn H L s .shutdown (s.setSock s.tx.sock.shutdown)
  | establish : Turn H L s .establish (s.setSock s.tx.sock.establish)
  | reset : Turn H L s .reset (s.setSock s.tx.sock.reset)

/-- `ncb_read` goes on, or is over -/
theorem Ipc.read_next {i i' : Ipc} {p : NcbRead} {e : Evts} (hi : i = .read p e)
    (h : i' = i ∨ i' = .out e) (e' : Evts) : i' ≠ .event e' := by
  rintro rfl
  rcases h with h | h
  · rw [hi] at h
    cases h
  · cases h

theorem Ipc.read_back {i i' : Ipc} {e : Evts} (h : i' = i ∨ i' = .out e) {p : NcbRead} {e' : Evts}
    (h' : i' = .read p e') : i = .read p e' := by
  rcases h with h | h <;> rw [h] at h'
  · exact h'
  · cases h'

/-! ## every step is one of them -/

section
variable {Req : Type} {H : Heap} {L : Sender Req} {s s' : Link}

theorem Sock.adds_none {k : Sock} {e : Nat} (h : k.adds e = true) (hm : k.mask = none) : e ≠ EEXIST := by
  rintro rfl
  unfold Sock.adds at h
  rw [hm] at h
  simp at h

theorem Sock.modifies_none {k : Sock} {e : Nat} (h : k.modifies e = true) (hm : k.mask = none) :
    e ≠ 0 := by
  rintro rfl
  unfold Sock.modifies at h
  rw [hm] at h
  simp at h

/-- `io_attach` of a socket that epoll does not know -/
theorem attach_cases {m : Mask} {e : Nat} {next : Epc} (hm : s.tx.sock.mask = none)
    (h : s.attach m e next = some s') :
    s' = { s.setSock (s.tx.sock.arm m) with est := next } ∨ s' = { s.objclos with est := .failed } := by
  unfold Link.attach at h
  by_cases ha : s.tx.sock.adds e = true
  · rw [if_pos ha] at h
    have hne := Sock.adds_none ha hm
    unfold ioAttach at h
    by_cases he : e = 0
    · rw [if_pos he] at h
      dsimp only at h
      rw [if_neg (Int.lt_irrefl 0)] at h
      exact Or.inl (Option.some.inj h).symm
    · rw [if_neg he, if_neg hne] at h
      dsimp only at h
      rw [if_pos (by decide)] at h
      exact Or.inr (Option.some.inj h).symm
  · rw [if_neg ha] at h
    cases h

theorem est_turn (B : Base L s) {e : Nat} (h : s.estStep e = some s') : Turn H L s (.est e) s' := by
  have P := B.phase
  have K := B.known
  obtain ⟨path, tx, ncbRead, ncbWrite, est, syn, io, rx, events, sent, chunks, why⟩ := s
  generalize ht : Link.told _ = told at P
  dsimp only at P
  cases P with
  | connectAttach =>
    rcases attach_cases K h with rfl | rfl
    · exact .attach (fun h => h.1 rfl) K (by rw [ht]; exact .connectPost) rfl nofun
    · exact .failed (by rw [ht]; exact .connectFailed) rfl nofun id
  | connectFailed => cases h
  | connectPost =>
    cases h
    exact .post rfl .connectCallback rfl nofun id
  | connectCallback =>
    cases h
    exact .pass (by rw [ht]; exact .connectRead) rfl nofun id
  | connectRead =>
    cases h
    exact .read (by rw [ht]; exact .connectWrite) rfl nofun id nofun
  | connectWrite =>
    cases h
    exact .write (fun _ => nofun) (by rw [ht]; exact .connectDone) rfl nofun id
  | connectDone => cases h
  | connect2Cas =>
    cases h
    exact .write (fun _ => nofun) (by rw [ht]; exact .connect2 (Or.inl rfl)) rfl nofun id
  | connect2 hs =>
    cases est with
    | cas =>
      cases h
      exact .pass (by rw [ht]; exact .connect2 hs) rfl nofun id
    | connecting =>
      change (if e = 0 then _ else if e = EINPROGRESS then _ else _) = some s' at h
      split at h
      · cases h
        exact .pass (by rw [ht]; exact .connect2 hs) rfl nofun id
      · split at h <;> cases h <;> exact .pass (by rw [ht]; exact .connect2 hs) rfl nofun id
    | synNow =>
      change (if tx.sock.modifies e then if (ioModify tx.sock ⟨true, false⟩ e).1 < 0 then _ else none
        else none) = some s' at h
      split at h
      · split at h
        · cases h
          exact .failed (by rw [ht]; exact .connect2 hs) rfl nofun id
        · cases h
      · cases h
    | attach =>
      rcases attach_cases K h with rfl | rfl
      · refine .attach (fun h => h.1 rfl) K (by rw [ht]; exact .connect2 hs) ?_ nofun
        rcases hs with rfl | rfl | rfl <;> rfl
      · exact .failed (by rw [ht]; exact .connect2 hs) rfl nofun id
    | setRead => cases h
    | setWrite => cases h
    | post => cases h
    | callback => cases h
    | modify => cases h
    | done => cases h
    | failed => cases h
  | synRead => cases h
  | synWrite => cases h
  | synPost => cases h
  | synCallback => cases h
  | synDone => cases h
  | listenCas =>
    cases h
    exact .read (by rw [ht]; exact .listen) rfl nofun id nofun
  | listen =>
    cases est with
    | cas =>
      cases h
      exact .pass (by rw [ht]; exact .listen) rfl nofun id
    | setWrite =>
      cases h
      exact .write (fun h => absurd rfl h) (by rw [ht]; exact .listen) rfl nofun id
    | attach =>
      rcases attach_cases K h with rfl | rfl
      · exact .attach (fun h => h.2.1 rfl) K (by rw [ht]; exact .listen) rfl nofun
      · exact .failed (by rw [ht]; exact .listen) rfl nofun id
    | connecting => cases h
    | synNow => cases h
    | setRead => cases h
    | post => cases h
    | callback => cases h
    | modify => cases h
    | done => cases h
    | failed => cases h
  | acceptRead =>
    cases h
    exact .read (by rw [ht]; exact .acceptWrite) rfl nofun id nofun
  | acceptWrite =>
    cases h
    exact .write (fun _ => nofun) (by rw [ht]; exact .acceptAttach) rfl nofun id
  | acceptAttach =>
    rcases attach_cases K h with rfl | rfl
    · exact .attach (fun h => by cases ht.symm.trans (h.2.2 rfl)) K (by rw [ht]; exact .acceptPost) rfl nofun
    · exact .failed (by rw [ht]; exact .acceptFailed) rfl nofun id
  | acceptFailed => cases h
  | acceptPost =>
    cases h
    exact .post rfl .acceptCallback rfl nofun id
  | acceptCallback =>
    cases h
    exact .pass (by rw [ht]; exact .acceptModify) rfl nofun id
  | acceptModify =>
    change (if tx.sock.modifies e then _ else none) = some s' at h
    split at h
    · cases h
      exact .modifyDpc rfl rfl (by rw [ht]; exact .acceptDone) rfl
    · cases h
  | acceptDone => cases h

theorem syn_turn (B : Base L s) {e : Nat} (h : s.tcpTxSyn e = some s') : Turn H L s (.syn e) s' := by
  have P := B.phase
  have K := B.known
  obtain ⟨path, tx, ncbRead, ncbWrite, est, syn, io, rx, events, sent, chunks, why⟩ := s
  generalize ht : Link.told _ = told at P
  dsimp only at P
  cases P with
  | connect2 hs =>
    rcases hs with rfl | rfl | rfl
    · cases h
    · -- the error of the socket
      have hk : ∀ y, y = .idle ∨ y = .modify →
          Path.watched .connect2 est y = Path.watched .connect2 est .check := by
        rintro y (rfl | rfl) <;> cases est <;> rfl
      change (if e = 0 then _ else if e = EISCONN ∨ e = EALREADY then _ else if e = 4 then _
        else if e = 11 then _ else _) = some s' at h
      split at h
      · cases h
        exact .pass (by rw [ht]; exact .connect2 (Or.inr (Or.inr rfl))) (hk _ (Or.inr rfl)) nofun fun _ => nofun
      split at h
      · cases h
        exact .pass (by rw [ht]; exact .connect2 (Or.inl rfl)) (hk _ (Or.inl rfl)) nofun fun _ => nofun
      split at h
      · cases h
        exact .same
      split at h
      · cases h
        exact .pass (by rw [ht]; exact .connect2 (Or.inl rfl)) (hk _ (Or.inl rfl)) nofun fun _ => nofun
      · cases h
        exact .failed (by rw [ht]; exact .connect2 (Or.inl rfl)) (hk _ (Or.inl rfl)) nofun fun _ => nofun
    · change (if tx.sock.modifies e then _ else none) = some s' at h
      split at h
      case isFalse => cases h
      case isTrue hm =>
        by_cases he : e = 0
        · subst he
          cases h
          -- a socket that epoll does not know cannot be modified
          have hd : est = .done := by
            cases est <;> first | rfl | exact absurd rfl (Sock.modifies_none hm K)
          subst hd
          exact .modifySyn rfl nofun (fun h => h.1 rfl) (by rw [ht]; exact .synRead) rfl
        · have hneg : (ioModify tx.sock ⟨true, false⟩ e).1 < 0 := by
            unfold ioModify
            rw [if_neg he]
            show -(e : Int) < 0
            omega
          dsimp only at h
          rw [if_pos hneg] at h
          cases h
          refine .failed (by rw [ht]; exact .connect2 (Or.inl rfl)) ?_ nofun fun _ => nofun
          cases est <;> rfl
  | synRead =>
    cases h
    exact .read (by rw [ht]; exact .synWrite) rfl nofun (fun _ => nofun) fun _ => nofun
  | synWrite =>
    cases h
    exact .write (fun _ => nofun) (by rw [ht]; exact .synPost) rfl nofun fun _ => nofun
  | synPost =>
    cases h
    exact .post rfl .synCallback rfl nofun fun _ => nofun
  | synCallback =>
    cases h
    exact .pass (by rw [ht]; exact .synDone) rfl nofun fun _ => nofun
  | _ => cases h

/-- `tcp_tx_syn` is the `ncb_write` only until it has set the other one -/
theorem Phase.not_ready {est : Epc} {syn : Spc} {path : Path} {r : Option NcbRead} {told : Bool}
    (P : Phase path est syn r (some .tcpTxSyn) told) (hb : syn.busy = false) :
    r = none ∧ Phase path est .check r (some .tcpTxSyn) told ∧
      path.watched est .check = path.watched est syn := by
  cases P with
  | connect2 hs =>
    refine ⟨rfl, .connect2 (Or.inr (Or.inl rfl)), ?_⟩
    rcases hs with rfl | rfl | rfl <;> cases est <;> rfl
  | synRead => cases hb
  | synWrite => cases hb

theorem tx_turn (B : Base L s) {a : TxAct Req} (h : s.txStep L a = some s') :
    Turn H L s (.tx a) s' := by
  have hinner : ∀ {a : TxAct Req}, a.Inner →
      (s.tx.step L a).map (fun t => { s with tx := t }) = some s' → Turn H L s (.tx a) s' := by
    intro a ha h
    obtain ⟨t, ht, rfl⟩ := Option.map_eq_some_iff.mp h
    exact .inner ha (step_move B.books ht)
  cases a with
  | task => cases h
  | call i q behind =>
    unfold Link.txStep at h
    dsimp only at h
    split at h
    · cases h
    rename_i htold
    split at h
    · split at h
      · cases h
        exact .same
      · cases h
    rename_i hset
    obtain ⟨t, ht, rfl⟩ := Option.map_eq_some_iff.mp h
    refine .call ⟨fun h0 => hset ?_, fun h0 => hset ?_, fun hp => ?_⟩ (step_move B.books ht)
    · rw [h0]
      rfl
    · rw [h0]
      exact Bool.or_true _
    · by_contra h0
      exact htold ⟨hp, Bool.eq_false_of_not_eq_true h0⟩
  | exec =>
    unfold Link.txStep at h
    dsimp only at h
    split at h
    · cases h
    rename_i hbusy
    split at h
    · rename_i hx
      obtain ⟨t, ht, rfl⟩ := Option.map_eq_some_iff.mp h
      cases step_move B.books ht with
      | same ha =>
        rcases ha with ⟨_, _, _, ha⟩ | ⟨_, ha⟩ | ha <;> cases ha
      | exec hw hpos =>
        refine .exec hw hpos ?_
        by_cases hc : s.tx.closed = true
        · rw [if_pos hc]
          exact Or.inr ⟨rfl, hc⟩
        · rw [if_neg hc]
          exact Or.inl rfl
    · rename_i hx
      split at h
      case isFalse => cases h
      case isTrue hw =>
        cases h
        have hx1 : s.ncbWrite ≠ some .tcpTx := by
          intro h0
          rw [h0] at hx
          exact hx (Bool.or_true _)
        by_cases hsyn : s.ncbWrite = some .tcpTxSyn
        · rw [if_pos hsyn]
          have P := B.phase
          rw [hsyn] at P
          obtain ⟨h1, h2, h3⟩ := P.not_ready (Bool.eq_false_of_not_eq_true hbusy)
          rw [← hsyn] at h2
          exact .execSyn hw.2 (fun hr => hr.1 h1) h2 h3
        · rw [if_neg hsyn]
          have hn : s.ncbWrite = none := by
            cases hw' : s.ncbWrite with
            | none => rfl
            | some w =>
              cases w with
              | tcpTx => exact absurd hw' hx1
              | tcpTxSyn => exact absurd hw' hsyn
          exact .execNone fun hr => hr.2.1 hn
  | test i => exact hinner trivial h
  | send i r => exact hinner trivial h
  | queue i e => exact hinner trivial h
  | top ktcp => exact hinner trivial h
  | wsend r => exact hinner trivial h
  | txPop e => exact hinner trivial h
  | pop e => exact hinner trivial h
  | room => exact hinner trivial h
  | close => exact hinner trivial h

theorem Recv.chunk_cases (r : Recv) : r = .bytes r.chunk ∨ r.chunk = [] ∧ ∃ n, r = .err n := by
  cases r with
  | bytes chunk => exact Or.inl rfl
  | err n => exact Or.inr ⟨rfl, n, rfl⟩

theorem recv_turn {r : Recv} (h : s.recvStep H r = some s') : Turn H L s (.recv r) s' := by
  unfold Link.recvStep at h
  split at h
  case h_2 => cases h
  case h_1 e hi =>
    split at h
    case isFalse => cases h
    case isTrue ha =>
      split at h
      · cases h
      case h_2 v rx' hx =>
        dsimp only at h
        by_cases hv : v = 0
        · rw [if_pos hv] at h
          cases h
          exact .recv hi ha hx (Recv.chunk_cases r) (Or.inl rfl) (Or.inl ⟨hv, rfl, rfl, rfl⟩)
        · rw [if_neg hv] at h
          by_cases hneg : v < 0
          · rw [if_pos hneg] at h
            cases h
            exact .recv hi ha hx (Recv.chunk_cases r) (Or.inr rfl) (Or.inr (Or.inl ⟨hneg, rfl, rfl, rfl⟩))
          · rw [if_neg hneg] at h
            cases h
            exact .recv hi ha hx (Recv.chunk_cases r) (Or.inr rfl) (Or.inr (Or.inr ⟨by omega, rfl, rfl, rfl⟩))

theorem accept_turn {errno : Option Nat} (h : s.acceptStep errno = some s') :
    Turn H L s (.accept errno) s' := by
  unfold Link.acceptStep at h
  split at h
  case h_2 => cases h
  case h_1 e hi =>
    cases errno with
    | none =>
      dsimp only at h
      split at h
      · cases h
        exact .accept hi (Nat.sub_le ..) (Or.inl rfl) (Or.inl ⟨rfl, rfl, rfl⟩)
      · cases h
    | some n =>
      dsimp only at h
      split at h
      · cases h
      rename_i hagain
      have hlost : ∃ k, k ≤ s.tx.sock.backlog ∧ (n ≠ ECONNABORTED → k = s.tx.sock.backlog) ∧
          (if n = ECONNABORTED then
            s.setSock { s.tx.sock with backlog := s.tx.sock.backlog - 1 } else s)
          = s.setSock { s.tx.sock with backlog := k } := by
        by_cases hn : n = ECONNABORTED
        · rw [if_pos hn]
          exact ⟨_, Nat.sub_le .., fun h => absurd hn h, rfl⟩
        · rw [if_neg hn]
          exact ⟨_, Nat.le_refl _, fun _ => rfl, rfl⟩
      obtain ⟨k, hk, hkeep, hs⟩ := hlost
      rw [hs] at h
      by_cases hv : tcpSynTry n = 0
      · rw [if_pos hv] at h
        cases h
        exact .accept hi hk (Or.inl rfl) (Or.inl ⟨rfl, rfl, rfl⟩)
      · rw [if_neg hv] at h
        by_cases hneg : tcpSynTry n < 0
        · rw [if_pos hneg] at h
          cases h
          exact .accept hi hk (Or.inr rfl) (Or.inr (Or.inl ⟨rfl, rfl, rfl⟩))
        · rw [if_neg hneg] at h
          cases h
          have hne : n ≠ ECONNABORTED := by
            rintro rfl
            exact hv rfl
          refine .accept hi hk (Or.inr rfl) (Or.inr (Or.inr ⟨rfl, rfl, rfl, hkeep hne, n, rfl, ?_⟩))
          by_cases h11 : n = 11
          · exact Or.inl ⟨h11, by omega⟩
          · exact Or.inr ⟨h11, by omega⟩

theorem iorun_turn {a : LinkAct Req} (h : s.iorun H a = some s') : Turn H L s a s' := by
  cases a with
  | poll e =>
    change (if _ then _ else none) = some s' at h
    split at h
    case isFalse => cases h
    case isTrue hp =>
      cases h
      exact .poll hp.1 hp.2.2.1 hp.2.2.2
  | event =>
    unfold Link.iorun at h
    dsimp only at h
    split at h
    case h_2 => cases h
    case h_1 e hi =>
      split at h
      case isTrue he =>
        cases h
        exact .eventClose hi he
      case isFalse he =>
        obtain ⟨h1, h2⟩ := Bool.or_eq_false_iff.mp (Bool.eq_false_of_not_eq_true he)
        split at h
        case isTrue hc =>
          cases h
          exact .eventDrop hi hc
        case isFalse hc =>
          cases h
          exact .eventTake hi h1 h2 (Bool.eq_false_of_not_eq_true hc)
  | fetch =>
    unfold Link.iorun at h
    dsimp only at h
    split at h
    case h_2 => cases h
    case h_1 e hi =>
      split at h
      case isTrue he =>
        split at h
        case h_1 p hp =>
          cases h
          exact .fetchRead hi he hp
        case h_2 hn =>
          cases h
          exact .fetchOut hi fun _ => hn
      case isFalse he =>
        cases h
        exact .fetchOut hi fun h0 => absurd h0 he
  | recv r => exact recv_turn h
  | accept errno => exact accept_turn h
  | out mem =>
    unfold Link.iorun at h
    dsimp only at h
    split at h
    case h_2 => cases h
    case h_1 e hi =>
      split at h
      case isTrue he =>
        cases h
        obtain ⟨h1, h2⟩ := Bool.and_eq_true_iff.mp he
        exact .outTask hi (Bool.and_eq_true_iff.mp h1).1 h2
      case isFalse he =>
        cases h
        refine .outNone hi ?_
        by_contra hn
        push Not at hn
        exact he (by simp [hn])
  | _ => cases h

theorem network_turn {a : LinkAct Req} (h : s.network a = some s') : Turn H L s a s' := by
  cases a with
  | arrive data =>
    change (if _ then _ else none) = some s' at h
    split at h
    case isFalse => cases h
    case isTrue hp =>
      cases h
      exact .arrive hp.1 hp.2.2.1
  | incoming =>
    change (if _ then _ else none) = some s' at h
    split at h
    case isFalse => cases h
    case isTrue hp =>
      cases h
      exact .incoming hp
  | shutdown =>
    change (if _ then _ else none) = some s' at h
    split at h
    case isFalse => cases h
    case isTrue hp =>
      cases h
      exact .shutdown hp.1
  | establish =>
    change (if _ then _ else none) = some s' at h
    split at h
    case isFalse => cases h
    case isTrue hp =>
      cases h
      exact .establish
  | reset =>
    cases h
    exact .reset
  | _ => cases h

theorem step_turn (B : Base L s) {a : LinkAct Req} (h : s.step H L a = some s') : Turn H L s a s' := by
  cases a with
  | tx a => exact tx_turn B h
  | est e => exact est_turn B h
  | syn e => exact syn_turn B h
  | arrive data => exact network_turn h
  | incoming => exact network_turn h
  | shutdown => exact network_turn h
  | establish => exact network_turn h
  | reset => exact network_turn h
  | poll e => exact iorun_turn h
  | event => exact iorun_turn h
  | fetch => exact iorun_turn h
  | recv r => exact iorun_turn h
  | accept errno => exact iorun_turn h
  | out mem => exact iorun_turn h

/-! ## and keeps the base -/

theorem Sock.Known.congr {k k' : Sock} {w : Option Bool} (h : k.Known w) (hm : k'.mask = k.mask) :
    k'.Known w := by
  cases w with
  | none => exact hm.trans h
  | some b =>
    obtain ⟨m, h1, h2⟩ := h
    exact ⟨m, hm.trans h1, h2⟩

theorem Sock.known_arm (k : Sock) (m : Mask) (b : Bool) (hb : b = true → m.epollin = true) :
    (k.arm m).Known (some b) := ⟨m, rfl, hb⟩

theorem told_append (evs es : List Event) :
    (evs ++ es).any Event.announces = (evs.any Event.announces || es.any Event.announces) :=
  List.any_append

theorem told_recv (evs : List Event) (ds : List Bytes) :
    (evs ++ ds.map Event.recvdata).any Event.announces = evs.any Event.announces := by
  have h : (ds.map Event.recvdata).any Event.announces = false := by
    rw [List.any_eq_false]
    intro v hv
    obtain ⟨d, _, rfl⟩ := List.mem_map.mp hv
    exact Bool.false_ne_true
  rw [told_append, h, Bool.or_false]

theorem Base.unwatched (B : Base L s) (h : s.watched = none) : ¬ s.Ready := by
  have P := B.phase
  obtain ⟨path, tx, ncbRead, ncbWrite, est, syn, io, rx, events, sent, chunks, why⟩ := s
  generalize ht : Link.told _ = told at P
  dsimp only at P
  rintro ⟨h1, h2, h3⟩
  cases P <;> first
    | exact h1 rfl
    | exact h2 rfl
    | exact Option.some_ne_none _ h
    | exact Bool.noConfusion (ht.symm.trans (h3 rfl))

theorem Base.known_move (B : Base L s) {a : TxAct Req} {t : Tx} (M : Move L s.tx a t) :
    t.sock.Known s.watched := by
  have K := B.known
  rcases move_sock M with h | ⟨_, h⟩ | ⟨hc, o, h⟩ | ⟨_, h⟩
  · rw [h]
    exact K
  · rw [h]
    exact K.congr rfl
  · rw [h]
    cases hw : s.watched with
    | none => exact absurd (B.calm (B.unwatched hw)) hc
    | some b => exact Sock.known_arm _ _ _ fun _ => rfl
  · rw [h]
    exact K.congr (raise_mask ..)

/-- a step after which the link is as far as before, and only the socket, the pool or `closed` change -/
theorem Base.keep (B : Base L s) {s' : Link} (hb : Books L s'.tx)
    (hp : s'.path = s.path) (he : s'.est = s.est) (hy : s'.syn = s.syn)
    (hr : s'.ncbRead = s.ncbRead) (hw : s'.ncbWrite = s.ncbWrite) (ht : s'.told = s.told)
    (hk : s'.tx.sock.Known s.watched) (hc : ¬ s.Ready → Calm s'.tx) : Base L s' := by
  refine ⟨hb, ?_, ?_, fun h => hc fun hs => h ?_⟩
  · rw [hp, he, hy, hr, hw, ht]
    exact B.phase
  · show s'.tx.sock.Known (s'.path.watched s'.est s'.syn)
    rw [hp, he, hy]
    exact hk
  · unfold Link.Ready
    rw [hp, hr, hw, ht]
    exact hs

theorem turn_base (B : Base L s) {a : LinkAct Req} (T : Turn H L s a s') : Base L s' := by
  have hsock : ∀ (k : Sock) (n : Nat) (c : Bool),
      Books L { s.tx with sock := k, tasks := n, closed := c } := B.books.outside
  have hcalm : ∀ (k : Sock) (n : Nat) (c : Bool), ¬ s.Ready →
      Calm { s.tx with sock := k, tasks := n, closed := c } := by
    intro k n c h
    have C := B.calm h
    exact ⟨C.writers, C.empty, C.worker⟩
  cases T with
  | same => exact B
  | inner ha M =>
    exact B.keep (move_books B.books M) rfl rfl rfl rfl rfl rfl (B.known_move M)
      fun h => move_calm (B.calm h) ha M
  | call hr M =>
    exact B.keep (move_books B.books M) rfl rfl rfl rfl rfl rfl (B.known_move M) fun h => absurd hr h
  | exec hw ht hx =>
    refine B.keep ?_ rfl rfl rfl rfl rfl rfl (B.known.congr rfl) fun h => ?_
    · have hs : ¬ L.Spent s.tx := by
        rintro (h | ⟨h, _⟩) <;> rw [hw] at h <;> cases h
      refine B.books.pool hs ?_ s.tx.sock _ s.tx.closed
      rcases hx with rfl | ⟨rfl, _⟩
      · exact Or.inr (Or.inl rfl)
      · exact Or.inl rfl
    · have C := B.calm h
      refine ⟨C.writers, C.empty, ?_⟩
      rcases hx with rfl | ⟨rfl, _⟩
      · exact Or.inr rfl
      · exact Or.inl rfl
  | execNone hr => exact B.keep (hsock ..) rfl rfl rfl rfl rfl rfl (B.known.congr rfl) (hcalm _ _ _)
  | execSyn ht hr P hk =>
    refine ⟨hsock .., P, ?_, fun _ => hcalm _ _ _ hr⟩
    show s.tx.sock.Known (s.path.watched s.est .check)
    rw [hk]
    exact B.known
  | @pass a est' syn' P hk hd hs =>
    refine ⟨B.books, P, ?_, B.calm⟩
    show s.tx.sock.Known (s.path.watched est' syn')
    rw [hk]
    exact B.known
  | @read a p est' syn' P hk hd hs hc =>
    refine ⟨B.books, P, ?_, fun h => B.calm fun hs => h ⟨nofun, hs.2⟩⟩
    show s.tx.sock.Known (s.path.watched est' syn')
    rw [hk]
    exact B.known
  | @write a w est' syn' hw P hk hd hs =>
    refine ⟨B.books, P, ?_, fun h => B.calm fun hs => h ⟨hs.1, hw hs.2.1, hs.2.2⟩⟩
    show s.tx.sock.Known (s.path.watched est' syn')
    rw [hk]
    exact B.known
  | @post a v est' syn' hv P hk hd hs =>
    have ht : (s.events ++ [v]).any Event.announces = true := by
      rw [told_append, List.any_cons, hv, Bool.true_or, Bool.or_true]
    refine ⟨B.books, ?_, ?_, fun h => B.calm fun hs => h ⟨hs.1, hs.2.1, fun _ => ht⟩⟩
    · show Phase s.path est' syn' s.ncbRead s.ncbWrite ((s.events ++ [v]).any Event.announces)
      rw [ht]
      exact P
    · show s.tx.sock.Known (s.path.watched est' syn')
      rw [hk]
      exact B.known
  | @attach a est' hr hm P hk hd =>
    refine ⟨hsock .., P, ?_, fun _ => hcalm _ _ _ hr⟩
    show (s.tx.sock.arm s.path.mask).Known (s.path.watched est' s.syn)
    rw [hk]
    exact Sock.known_arm _ _ _ id
  | modifySyn hp hs hr P hk =>
    refine ⟨hsock .., P, ?_, fun _ => hcalm _ _ _ hr⟩
    show (s.tx.sock.arm ⟨true, false⟩).Known (s.path.watched s.est .setRead)
    rw [hk]
    exact Sock.known_arm _ _ _ fun _ => rfl
  | @modifyDpc e hp he P hk =>
    refine ⟨hsock .., P, ?_, hcalm _ _ _⟩
    show (ioModify s.tx.sock ⟨true, false⟩ e).2.Known (s.path.watched .done s.syn)
    rw [hk]
    have K := B.known
    unfold ioModify
    split
    · cases hw : s.watched with
      | none =>
        unfold Link.watched at hw
        rw [hp, he] at hw
        cases hw
      | some b => exact Sock.known_arm _ _ _ fun _ => rfl
    · exact K
  | @failed a est' syn' P hk hd hs =>
    refine ⟨hsock .., P, ?_, hcalm _ _ _⟩
    show s.tx.sock.Known (s.path.watched est' syn')
    rw [hk]
    exact B.known
  | poll => exact B.keep (hsock ..) rfl rfl rfl rfl rfl rfl (B.known.congr rfl) (hcalm _ _ _)
  | eventClose => exact B.keep (hsock ..) rfl rfl rfl rfl rfl rfl (B.known.congr rfl) (hcalm _ _ _)
  | eventDrop => exact B.keep B.books rfl rfl rfl rfl rfl rfl B.known B.calm
  | eventTake => exact B.keep B.books rfl rfl rfl rfl rfl rfl B.known B.calm
  | fetchRead => exact B.keep B.books rfl rfl rfl rfl rfl rfl B.known B.calm
  | fetchOut => exact B.keep B.books rfl rfl rfl rfl rfl rfl B.known B.calm
  | recv =>
    exact B.keep (hsock ..) rfl rfl rfl rfl rfl (told_recv ..) (B.known.congr rfl) (hcalm _ _ _)
  | accept => exact B.keep (hsock ..) rfl rfl rfl rfl rfl rfl (B.known.congr rfl) (hcalm _ _ _)
  | outTask => exact B.keep (hsock ..) rfl rfl rfl rfl rfl rfl (B.known.congr rfl) (hcalm _ _ _)
  | outNone => exact B.keep B.books rfl rfl rfl rfl rfl rfl B.known B.calm
  | arrive =>
    exact B.keep (hsock ..) rfl rfl rfl rfl rfl rfl (B.known.congr (raise_mask ..)) (hcalm _ _ _)
  | incoming =>
    exact B.keep (hsock ..) rfl rfl rfl rfl rfl rfl (B.known.congr (raise_mask ..)) (hcalm _ _ _)
  | shutdown =>
    exact B.keep (hsock ..) rfl rfl rfl rfl rfl rfl (B.known.congr (raise_mask ..)) (hcalm _ _ _)
  | establish =>
    exact B.keep (hsock ..) rfl rfl rfl rfl rfl rfl (B.known.congr (raise_mask ..)) (hcalm _ _ _)
  | reset =>
    exact B.keep (hsock ..) rfl rfl rfl rfl rfl rfl (B.known.congr (raise_mask ..)) (hcalm _ _ _)

theorem base_init (path : Path) (rx : Rx) : Base L (Link.init path rx) where
  books := books_init _
  phase := by
    cases path
    · exact .connectAttach
    · exact .connect2Cas
    · exact .listenCas
    · exact .acceptRead
  known := by cases path <;> rfl
  calm := fun _ => ⟨fun _ => rfl, rfl, Or.inl rfl⟩

/-- what every turn keeps under a condition on its action, every run that meets the condition keeps -/
theorem run_turns {P : Link → Prop} {C : Link → LinkAct Req → Prop}
    (hturn : ∀ s a s', Base L s → P s → C s a → Turn H L s a s' → P s') {path : Path} {rx : Rx}
    {as : List (LinkAct Req)} (h0 : P (Link.init path rx))
    (hC : Meets (Link.step H L) C (Link.init path rx) as)
    (h : run (Link.step H L) (Link.init path rx) as = some s) : Base L s ∧ P s := by
  refine run_invariant_meets (Link.step H L) (I := fun s => Base L s ∧ P s) ?_ h hC
    ⟨base_init path rx, h0⟩
  intro s a s' hI hCa hs
  have T := step_turn hI.1 hs
  exact ⟨turn_base hI.1 T, hturn s a s' hI.1 hI.2 hCa T⟩

end

end Swnet

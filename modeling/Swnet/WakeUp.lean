import Swnet.Announce

/-!
# A pending send queue keeps its wake-up

`fifo_queue` puts `EPOLLOUT` into the mask when the queue begins to fill, and `fifo_pop` takes it out
with the last node.  In between nobody else may write the mask; `__tcp_syn_dpc` does.

* `WokenUp`            while nobody is at work on the link, a queue that is not empty has something
                       that will send it;
* `Spared`             the `io_modify` behind `EVT_TCP_ACCEPTED` finds the queue empty;
* `wokenUp_of_spared`  the one holds in every state of the runs that meet the other.
-/

namespace Swnet
open CMem Runs

/-- behind the tests for `EPOLLRDHUP` and `EPOLLERR` -/
def Ipc.Past (i : Ipc) (e : Evts) : Prop := i = .fetch e ∨ (∃ p, i = .read p e) ∨ i = .out e

/-- before the connection is there nothing of the send side moves -/
structure Joining (s : Link) : Prop where
  begun : s.path = .connect ∨ s.path = .accept → s.tx.sock.connected = true
  edges : s.tx.sock.edges.epollout = true → s.tx.sock.connected = true ∨ s.tx.sock.err = true
  event : ∀ e, s.io = .event e → e.epollout = true → s.tx.sock.connected = true ∨ e.epollerr = true
  past : ∀ e, s.io.Past e → e.epollout = true → s.tx.sock.connected = true
  tasks : 0 < s.tx.tasks → s.tx.sock.connected = true
  full : s.tx.sock.full = true → s.tx.sock.connected = true
  syn : s.syn ≠ .idle → s.tx.sock.connected = true
  read : s.path = .connect2 → s.ncbRead ≠ none → s.tx.sock.connected = true

/-- a queue that is not empty has `EPOLLOUT` in the mask and something that leads to the next send;
`carried`: the epoll thread has an `EPOLLOUT` event in hand -/
structure Waking (t : Tx) (carried : Bool) : Prop where
  mask : t.closed = false → t.fifo.head ≠ [] → ∃ m, t.sock.mask = some m ∧ m.epollout = true
  wake : t.closed = false → t.fifo.head ≠ [] →
    t.sock.edges.epollout = true ∨ carried = true ∨ 0 < t.tasks ∨ t.worker ≠ .idle ∨ t.sock.full = true

section
variable {Req : Type} {H : Heap} {L : Sender Req} {s s' : Link}

theorem Phase.listen_write {est : Epc} {syn : Spc} {r : Option NcbRead} {w : Option NcbWrite}
    {told : Bool} (P : Phase .listen est syn r w told) : w = none := by
  cases P <;> rfl

theorem Joining.ready (B : Base L s) (J : Joining s) (h : s.Ready) : s.tx.sock.connected = true := by
  cases hp : s.path with
  | connect => exact J.begun (Or.inl hp)
  | accept => exact J.begun (Or.inr hp)
  | connect2 => exact J.read hp h.1
  | listen =>
    have P := B.phase
    rw [hp] at P
    exact absurd P.listen_write h.2.1

theorem Joining.busy (B : Base L s) (J : Joining s) (h : ¬ Calm s.tx) :
    s.tx.sock.connected = true := by
  by_contra hc
  exact h (B.calm fun hr => hc (J.ready B hr))

/-- the connection is there, so there is nothing to keep -/
theorem joining_of_connected (h : s.tx.sock.connected = true) : Joining s :=
  ⟨fun _ => h, fun _ => Or.inl h, fun _ _ _ => Or.inl h, fun _ _ _ => h, fun _ => h, fun _ => h,
    fun _ => h, fun _ _ => h⟩

/-- a step that hands out no `EPOLLOUT` edge and raises none -/
theorem Joining.keep (J : Joining s) (hp : s'.path = s.path) (hi : s'.io = s.io)
    (hc : s'.tx.sock.connected = s.tx.sock.connected) (herr : s'.tx.sock.err = s.tx.sock.err)
    (he : s'.tx.sock.edges.epollout = true → s.tx.sock.edges.epollout = true)
    (ht : 0 < s'.tx.tasks → 0 < s.tx.tasks) (hf : s'.tx.sock.full = s.tx.sock.full)
    (hs : s'.syn ≠ .idle → s.tx.sock.connected = true)
    (hr : s.path = .connect2 → s'.ncbRead ≠ none → s.tx.sock.connected = true) : Joining s' := by
  refine ⟨?_, ?_, ?_, ?_, ?_, ?_, ?_, ?_⟩
  · rw [hp, hc]
    exact J.begun
  · rw [hc, herr]
    exact fun h => J.edges (he h)
  · rw [hi, hc]
    exact J.event
  · rw [hi, hc]
    exact J.past
  · rw [hc]
    exact fun h => J.tasks (ht h)
  · rw [hf, hc]
    exact J.full
  · rw [hc]
    exact hs
  · rw [hp, hc]
    exact hr

/-- what the events in hand say when `__iorun` goes on -/
theorem Joining.serve (J : Joining s) {io' : Ipc}
    (he : ∀ e, io' = .event e → e.epollout = true → s.tx.sock.connected = true ∨ e.epollerr = true)
    (hp : ∀ e, io'.Past e → e.epollout = true → s.tx.sock.connected = true) :
    Joining { s with io := io' } :=
  ⟨J.begun, J.edges, he, hp, J.tasks, J.full, J.syn, J.read⟩

theorem Joining.move (B : Base L s) (J : Joining s) {a : TxAct Req} {t : Tx} (M : Move L s.tx a t)
    (ha : Calm s.tx → t.tasks = s.tx.tasks) : Joining { s with tx := t } := by
  rcases move_sock M with h | ⟨hc, h⟩ | ⟨hc, o, h⟩ | ⟨hf, h⟩
  · by_cases hcalm : Calm s.tx
    · refine J.keep rfl rfl (congrArg _ h) (congrArg _ h) (fun h' => ?_) (fun h' => ?_) (congrArg _ h)
        J.syn J.read
      · rwa [show t.sock = s.tx.sock from h] at h'
      · rwa [show t.tasks = s.tx.tasks from ha hcalm] at h'
    · exact joining_of_connected (by rw [show t.sock = s.tx.sock from h]; exact J.busy B hcalm)
  · exact joining_of_connected (by
      show t.sock.connected = true
      rw [h]
      exact J.busy B hc)
  · exact joining_of_connected (by
      show t.sock.connected = true
      rw [h]
      exact J.busy B hc)
  · exact joining_of_connected (by
      show t.sock.connected = true
      rw [h]
      exact (raise_connected ..).trans (J.full hf))

theorem arm_out {k : Sock} {m : Mask} (hc : k.connected = true) (hm : m.epollout = true)
    (hf : k.full = false) : (k.arm m).edges.epollout = true := by
  show ((k.edges.epollout || (k.connected && !k.full)) && m.epollout) = true
  rw [hc, hf, hm]
  simp

/-- what the network raises -/
theorem Joining.network (J : Joining s) {k : Sock} {e : Evts} (hc : k.connected = s.tx.sock.connected)
    (hf : k.full = s.tx.sock.full) (he : k.edges = s.tx.sock.edges)
    (herr : s.tx.sock.err = true → k.err = true) (hout : e.epollout = true → k.err = true)
    (sent : Bytes) : Joining { s.setSock (k.raise e) with sent := sent } := by
  have hc' : (k.raise e).connected = s.tx.sock.connected := (raise_connected ..).trans hc
  refine ⟨?_, ?_, ?_, ?_, ?_, ?_, ?_, ?_⟩
  · exact fun h => hc'.trans (J.begun h)
  · intro h
    show (k.raise e).connected = true ∨ (k.raise e).err = true
    rw [hc', raise_err]
    cases hm : k.mask with
    | none =>
      change (k.raise e).edges.epollout = true at h
      unfold Sock.raise at h
      rw [hm, he] at h
      exact (J.edges h).imp id herr
    | some m =>
      change (k.raise e).edges.epollout = true at h
      rw [raise_edges k m e hm, he] at h
      change (s.tx.sock.edges.epollout || (e.epollout && m.epollout)) = true at h
      rcases (Bool.or_eq_true _ _).mp h with h | h
      · exact (J.edges h).imp id herr
      · exact Or.inr (hout ((Bool.and_eq_true _ _).mp h).1)
  · exact fun e' h h' => (J.event e' h h').imp hc'.trans id
  · exact fun e' h h' => hc'.trans (J.past e' h h')
  · exact fun h => hc'.trans (J.tasks h)
  · exact fun h => hc'.trans (J.full (((raise_full ..).trans hf).symm.trans h))
  · exact fun h => hc'.trans (J.syn h)
  · exact fun h h' => hc'.trans (J.read h h')

theorem Waking.move {t t' : Tx} {b : Bool} (W : Waking t b) {a : TxAct Req}
    (hc : ¬ Calm t → t.sock.connected = true) (ha : a ≠ .exec) (M : Move L t a t') : Waking t' b := by
  cases M with
  | exec => exact absurd rfl ha
  | @sendAgain i n hw => exact ⟨W.mask, fun _ _ => Or.inr (Or.inr (Or.inr (Or.inr rfl)))⟩
  | @queueYes i n e fifo' sock' hw ho hh hs =>
    have hconn := hc fun h => by
      rw [h.writers i] at hw
      cases hw
    rcases hs with ⟨_, _, rfl⟩ | ⟨hne, rfl⟩
    · -- the queue begins to fill
      refine ⟨fun _ _ => ⟨_, rfl, rfl⟩, fun _ _ => ?_⟩
      cases hf : t.sock.full with
      | true => exact Or.inr (Or.inr (Or.inr (Or.inr hf)))
      | false => exact Or.inl (arm_out hconn rfl hf)
    · exact ⟨fun h _ => W.mask h hne, fun h _ => W.wake h hne⟩
  | task =>
    exact ⟨W.mask, fun _ _ => Or.inr (Or.inr (Or.inl (Nat.succ_pos _)))⟩
  | topFail hw => exact ⟨nofun, nofun⟩
  | topNone hw hh => exact ⟨W.mask, fun _ h => absurd hh h⟩
  | topSend hw hh => exact ⟨W.mask, fun _ _ => Or.inr (Or.inr (Or.inr (Or.inl nofun)))⟩
  | wsendAll hw h0 hk =>
    refine ⟨W.mask, fun _ _ => Or.inr (Or.inr (Or.inr (Or.inl ?_)))⟩
    show (if L.proto.txPops = true then Xpc.txPop else Xpc.pop) ≠ .idle
    split <;> exact nofun
  | wsendAgain hw => exact ⟨W.mask, fun _ _ => Or.inr (Or.inr (Or.inr (Or.inr rfl)))⟩
  | wsendFail hw => exact ⟨nofun, nofun⟩
  | @txPop e n rest fifo' sock' hw hh ho hr hs =>
    have hne : t.fifo.head ≠ [] := by rw [hh]; exact List.cons_ne_nil _ _
    rcases hs with ⟨rfl, _⟩ | ⟨_, rfl⟩
    · exact ⟨fun _ h => absurd hr h, fun _ h => absurd hr h⟩
    · exact ⟨fun h _ => W.mask h hne, fun _ _ => Or.inr (Or.inr (Or.inr (Or.inl nofun)))⟩
  | popNone hw hh => exact ⟨W.mask, fun _ h => absurd hh h⟩
  | @pop e n rest fifo' sock' hw hh ho hr hs =>
    have hne : t.fifo.head ≠ [] := by rw [hh]; exact List.cons_ne_nil _ _
    rcases hs with ⟨rfl, _⟩ | ⟨_, rfl⟩
    · exact ⟨fun _ h => absurd hr h, fun _ h => absurd hr h⟩
    · exact ⟨fun h _ => W.mask h hne, fun _ _ => Or.inr (Or.inr (Or.inl (Nat.succ_pos _)))⟩
  | room hf =>
    refine ⟨fun h h' => ?_, fun h h' => Or.inl ?_⟩
    · obtain ⟨m, h1, h2⟩ := W.mask h h'
      exact ⟨m, (raise_mask ..).trans h1, h2⟩
    · obtain ⟨m, h1, h2⟩ := W.mask h h'
      show (Sock.raise _ _).edges.epollout = true
      rw [raise_edges { t.sock with full := false } m _ h1]
      show (t.sock.edges.epollout || (true && m.epollout)) = true
      rw [h2, Bool.true_and, Bool.or_true]
  | close => exact ⟨nofun, nofun⟩
  | _ => exact ⟨W.mask, W.wake⟩

theorem Waking.raise {t : Tx} {b : Bool} (W : Waking t b) {k : Sock} (hm : k.mask = t.sock.mask)
    (he : k.edges = t.sock.edges) (hf : k.full = t.sock.full) (e : Evts) :
    Waking { t with sock := k.raise e } b := by
  refine ⟨fun h h' => ?_, fun h h' => ?_⟩
  · obtain ⟨m, h1, h2⟩ := W.mask h h'
    exact ⟨m, (raise_mask ..).trans (hm.trans h1), h2⟩
  · rcases W.wake h h' with h | h | h | h | h
    · refine Or.inl ?_
      show (k.raise e).edges.epollout = true
      unfold Sock.raise
      split
      · rwa [he]
      · show (k.edges.epollout || _) = true
        rw [he, h, Bool.true_or]
    · exact Or.inr (Or.inl h)
    · exact Or.inr (Or.inr (Or.inl h))
    · exact Or.inr (Or.inr (Or.inr (Or.inl h)))
    · exact Or.inr (Or.inr (Or.inr (Or.inr ((raise_full ..).trans (hf.trans h)))))

end

end Swnet

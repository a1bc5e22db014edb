import Swnet.Announce

/-!
# No readability edge is lost

An edge that `__iorun` takes while `ncb_read` is not set is gone.  `tcp_listen` and `__tcp_syn_dpc`
set it before they arm epoll, `tcp_connect` and `tcp_tx_syn` behind.

* `Heard`              what waits in the receive queue, or in the accept queue, has an edge or the
                       reader of the link is at work;
* `Heeded`             the steps that lose no edge;
* `heard_of_heeded`    the one holds in every state of the runs that meet the other.
-/

namespace Swnet
open CMem Runs

/-- the epoll thread is on its way to `ncb_read`, or in it -/
def Ipc.serves : Ipc → Bool
  | .idle => false
  | .event e => e.epollin
  | .fetch e => e.epollin
  | .read _ _ => true
  | .out _ => false

/-- the receive queue, or the accept queue, is not empty -/
def Sock.Waiting (k : Sock) : Prop := k.rxq ≠ [] ∨ 0 < k.backlog

/-- epoll reports `EPOLLIN` -/
def Sock.Hears (k : Sock) : Prop := ∃ m, k.mask = some m ∧ m.epollin = true

/-- the establishing function has returned, and with success -/
def Link.Established (s : Link) : Prop := if s.path = .connect2 then s.syn = .done else s.est = .done

/-- nothing waits on an established link without an edge that is pending or being served -/
def Heard (s : Link) : Prop :=
  s.Established → s.tx.closed = false → s.tx.sock.Waiting →
    s.tx.sock.edges.epollin = true ∨ s.io.serves = true

/-- `__iorun` does not handle `EPOLLIN` on a link of `tcp_connect` or `tcp_connect2` while `ncb_read` is
NULL and something waits; `accept(2)` does not fail with `ENFILE`, `ENOBUFS`, `ENOMEM` or `EPERM` while
somebody waits; the `io_modify` of `__tcp_syn_dpc` succeeds -/
def Heeded {Req : Type} (s : Link) : LinkAct Req → Prop
  | .fetch => s.path = .connect ∨ s.path = .connect2 → ∀ e, s.io = .fetch e → e.epollin = true →
      s.ncbRead = none → ¬ s.tx.sock.Waiting
  | .accept errno => ∀ n, errno = some n → n ≠ 11 → 0 < tcpSynTry n → s.tx.sock.backlog = 0
  | .est e => s.path = .accept → s.est = .modify → e = 0
  | _ => True

structure Hearing (s : Link) : Prop where
  unseen : s.tx.sock.mask = none → s.tx.sock.edges.epollin = false ∧ s.io.serves = false
  stream : s.path ≠ .listen → s.tx.sock.backlog = 0
  server : s.path = .listen → s.tx.sock.rxq = []
  reader : ∀ p e, s.io = .read p e → (p = .tcpSyn ↔ s.path = .listen)
  armed : s.path = .accept → s.est = .done → s.tx.sock.Hears
  heard : s.tx.sock.Hears → s.tx.closed = false → s.tx.sock.Waiting →
    s.tx.sock.edges.epollin = true ∨ s.io.serves = true

/-! ## the socket -/

section
variable {k : Sock} {e : Evts} {m : Mask}

theorem Sock.raise_unseen (hm : k.mask = none) (e : Evts) : k.raise e = k := by
  unfold Sock.raise
  rw [hm]

/-- an edge that is pending stays so -/
theorem Sock.raise_keeps (h : k.edges.epollin = true) (e : Evts) :
    (k.raise e).edges.epollin = true := by
  unfold Sock.raise
  split
  · exact h
  · show (k.edges.epollin || _) = true
    rw [h, Bool.true_or]

theorem Sock.raise_in (hk : k.Hears) (he : e.epollin = true) : (k.raise e).edges.epollin = true := by
  obtain ⟨m, hm, hin⟩ := hk
  rw [raise_edges k m e hm]
  show (k.edges.epollin || (e.epollin && m.epollin)) = true
  rw [he, hin, Bool.true_and, Bool.or_true]

theorem Sock.Waiting.ready (h : k.Waiting) : k.ready.epollin = true := by
  show (!k.rxq.isEmpty || decide (0 < k.backlog) || k.fin) = true
  rcases h with h | h
  · cases hr : k.rxq with
    | nil => exact absurd hr h
    | cons b rest => rfl
  · rw [decide_eq_true h, Bool.or_true, Bool.true_or]

theorem Sock.arm_in (h : k.Waiting) (hm : m.epollin = true) : (k.arm m).edges.epollin = true := by
  show ((k.edges.epollin || k.ready.epollin) && m.epollin) = true
  rw [h.ready, hm, Bool.or_true, Bool.true_and]

end

/-! ## what `ncb_read` returns -/

section
variable {Req : Type} {H : Heap} {L : Sender Req} {s s' : Link}

theorem Sock.answers_again {k : Sock} (h : k.answers (.err EAGAIN) = true) :
    k.rxq = [] ∧ k.fin = false := by
  unfold Sock.answers at h
  dsimp only at h
  rw [decide_eq_false (fun h => h rfl), Bool.false_or, Bool.and_eq_true, List.isEmpty_iff,
    Bool.not_eq_true'] at h
  exact h

theorem loop_values (k : Nat) : ∀ {rx : Rx} {chunk : Bytes} {offset cpcb : Int} {r : Int × Rx},
    rxLoop H k rx chunk offset cpcb = .ok r → r.1 = 0 ∨ r.1 = -1 := by
  induction k with
  | zero =>
    intro rx chunk offset cpcb r h
    cases h
  | succ k ih =>
    intro rx chunk offset cpcb r h
    unfold rxLoop at h
    cases hp : tcpParsePkt H rx (chunk.drop offset.toNat) cpcb with
    | error e =>
      rw [hp] at h
      cases h
    | ok p =>
      rw [hp, ok_bind] at h
      split at h
      · cases h
        exact Or.inr rfl
      · cases ho : cint (offset + (cpcb - p.1)) with
        | error e =>
          rw [ho] at h
          cases h
        | ok o =>
          rw [ho, ok_bind] at h
          split at h
          · exact ih h
          · cases h
            exact Or.inl rfl

/-- `tcp_rx` ends without an error only where `recv(2)` has answered `EAGAIN` -/
theorem once_pos {rx : Rx} {r : Recv} {v : Int} {rx' : Rx} (h : tcpRxOnce H rx r = .ok (v, rx'))
    (hv : 0 < v) : r = .err EAGAIN := by
  cases r with
  | bytes chunk =>
    unfold tcpRxOnce at h
    dsimp only at h
    split at h
    · have := loop_values _ h
      dsimp only at this
      omega
    · cases h
      exact absurd hv (by decide)
  | err n =>
    unfold tcpRxOnce at h
    dsimp only at h
    split at h
    · cases h
      exact absurd hv (Int.lt_irrefl 0)
    · split at h
      · rename_i he
        rw [he]
      · cases h
        exact absurd hv (by decide)

/-! ## every step -/

theorem Base.handler (B : Base L s) (hp : s.path = .listen ∨ s.path = .accept)
    (hm : s.tx.sock.mask ≠ none) : s.ncbRead ≠ none := by
  have P := B.phase
  have K := B.known
  obtain ⟨path, tx, ncbRead, ncbWrite, est, syn, io, rx, events, sent, chunks, why⟩ := s
  generalize ht : Link.told _ = told at P
  dsimp only at P hp hm
  rcases hp with rfl | rfl <;> cases P <;> first
    | exact Option.some_ne_none _
    | exact absurd K hm

/-- the reader of a listening link is `tcp_syn`, and of no other -/
theorem Phase.reader {path : Path} {est : Epc} {syn : Spc} {p : NcbRead} {w : Option NcbWrite}
    {told : Bool} (P : Phase path est syn (some p) w told) : p = .tcpSyn ↔ path = .listen := by
  cases P <;> first | exact ⟨fun _ => rfl, fun _ => rfl⟩ | exact ⟨nofun, nofun⟩

theorem Base.hears (B : Base L s) (h : s.watched = some true) : s.tx.sock.Hears := by
  have K := B.known
  rw [h] at K
  obtain ⟨m, hm, hin⟩ := K
  exact ⟨m, hm, hin rfl⟩

theorem Base.established (B : Base L s) (h : s.Established) :
    s.path = .accept ∧ s.est = .done ∨ s.watched = some true := by
  have P := B.phase
  obtain ⟨path, tx, ncbRead, ncbWrite, est, syn, io, rx, events, sent, chunks, why⟩ := s
  generalize ht : Link.told _ = told at P
  unfold Link.Established at h
  dsimp only at P h
  cases path with
  | accept => exact Or.inl ⟨rfl, h⟩
  | connect =>
    cases h
    exact Or.inr rfl
  | listen =>
    cases h
    exact Or.inr rfl
  | connect2 =>
    cases h
    cases P with
    | connect2 hs => rcases hs with hs | hs | hs <;> cases hs
    | synDone => exact Or.inr rfl

/-- the same socket, or one that is registered, with the queues as they were and no edge lost -/
structure Sock.Follows (k k' : Sock) : Prop where
  mask : k.Hears → k'.Hears
  unseen : k'.mask = none → k.mask = none ∧ k'.edges = k.edges
  rxq : k'.rxq = k.rxq
  backlog : k'.backlog = k.backlog
  edges : k.edges.epollin = true → k'.edges.epollin = true
  fresh : k'.Hears → k.Waiting → k.Hears ∨ k'.edges.epollin = true

theorem Sock.Follows.waiting {k k' : Sock} (F : k.Follows k') : k'.Waiting ↔ k.Waiting := by
  unfold Sock.Waiting
  rw [F.rxq, F.backlog]

theorem Sock.follows_same {k k' : Sock} (hm : k'.mask = k.mask) (he : k'.edges = k.edges)
    (hr : k'.rxq = k.rxq) (hb : k'.backlog = k.backlog) : k.Follows k' := by
  have hh : k'.Hears ↔ k.Hears := by
    unfold Sock.Hears
    rw [hm]
  exact ⟨hh.mpr, fun h => ⟨hm ▸ h, he⟩, hr, hb, fun h => he ▸ h, fun h _ => Or.inl (hh.mp h)⟩

theorem Sock.follows_raise (k : Sock) (e : Evts) : k.Follows (k.raise e) := by
  have hh : (k.raise e).Hears ↔ k.Hears := by
    unfold Sock.Hears
    rw [raise_mask]
  refine ⟨hh.mpr, fun h => ?_, raise_rxq .., raise_backlog .., fun h => Sock.raise_keeps h e,
    fun h _ => Or.inl (hh.mp h)⟩
  rw [raise_mask] at h
  exact ⟨h, by rw [Sock.raise_unseen h]⟩

theorem Sock.Follows.trans {k k' k'' : Sock} (F : k.Follows k') (F' : k'.Follows k'') : k.Follows k'' where
  mask h := F'.mask (F.mask h)
  unseen h := by
    obtain ⟨h1, h2⟩ := F'.unseen h
    obtain ⟨h3, h4⟩ := F.unseen h1
    exact ⟨h3, h2.trans h4⟩
  rxq := F'.rxq.trans F.rxq
  backlog := F'.backlog.trans F.backlog
  edges h := F'.edges (F.edges h)
  fresh h hw := by
    rcases F'.fresh h (F.waiting.mpr hw) with h' | h'
    · exact (F.fresh h' hw).imp id F'.edges
    · exact Or.inr h'

/-- the same socket, with an edge to tell of -/
theorem Sock.follows_news (k : Sock) {j : Sock} (hm : j.mask = k.mask) (he : j.edges = k.edges)
    (hr : j.rxq = k.rxq) (hb : j.backlog = k.backlog) (e : Evts) : k.Follows (j.raise e) :=
  (Sock.follows_same hm he hr hb).trans (Sock.follows_raise j e)

theorem Sock.follows_arm (k : Sock) (m : Mask) (hm : m.epollin = true) : k.Follows (k.arm m) := by
  refine ⟨fun _ => ⟨m, rfl, hm⟩, nofun, rfl, rfl, fun h => ?_, fun _ h => Or.inr (Sock.arm_in h hm)⟩
  show ((k.edges.epollin || k.ready.epollin) && m.epollin) = true
  rw [h, hm, Bool.true_or, Bool.true_and]

theorem Sock.follows_attach {k : Sock} (hm : k.mask = none) (he : k.edges.epollin = false) (m : Mask) :
    k.Follows (k.arm m) where
  mask := by
    rintro ⟨m', h, _⟩
    rw [hm] at h
    cases h
  unseen := nofun
  rxq := rfl
  backlog := rfl
  edges := by
    intro h
    rw [he] at h
    cases h
  fresh := by
    rintro ⟨m', h, hin⟩ hw
    cases h
    exact Or.inr (Sock.arm_in hw hin)

theorem move_follows {a : TxAct Req} {t t' : Tx} (M : Move L t a t') : t.sock.Follows t'.sock := by
  rcases move_sock M with h | ⟨_, h⟩ | ⟨_, o, h⟩ | ⟨_, h⟩ <;> rw [h]
  · exact Sock.follows_same rfl rfl rfl rfl
  · exact Sock.follows_same rfl rfl rfl rfl
  · exact Sock.follows_arm _ _ rfl
  · exact Sock.follows_news t.sock (j := { t.sock with full := false }) rfl rfl rfl rfl _

/-- a step that neither reads nor delivers -/
theorem Hearing.follow (I : Hearing s) (F : s.tx.sock.Follows s'.tx.sock) (hp : s'.path = s.path)
    (hi : s'.io = s.io) (hc : s'.tx.closed = false → s.tx.closed = false)
    (hd : s'.path = .accept → s'.est = .done → s.est = .done ∨ s'.tx.sock.Hears) : Hearing s' := by
  refine ⟨fun h => ?_, fun h => ?_, fun h => ?_, fun p e h => ?_, fun h1 h2 => ?_, fun hh hcl hw => ?_⟩
  · obtain ⟨h1, h2⟩ := F.unseen h
    rw [h2, hi]
    exact I.unseen h1
  · rw [F.backlog]
    exact I.stream (hp ▸ h)
  · rw [F.rxq]
    exact I.server (hp ▸ h)
  · rw [hp]
    exact I.reader p e (hi ▸ h)
  · rcases hd h1 h2 with h | h
    · exact F.mask (I.armed (hp ▸ h1) h)
    · exact h
  · have hw' := F.waiting.mp hw
    rcases F.fresh hh hw' with h | h
    · rw [hi]
      exact (I.heard h (hc hcl) hw').imp F.edges id
    · exact Or.inl h

/-- a step of `__iorun` that leaves the queues alone -/
theorem Hearing.serve (I : Hearing s) {io' : Ipc} (hr : ∀ p e, io' ≠ .read p e)
    (hu : io'.serves = true → s.io.serves = true)
    (hs : s.tx.closed = false → s.tx.sock.Waiting → s.io.serves = true →
      s.tx.sock.edges.epollin = true ∨ io'.serves = true) : Hearing { s with io := io' } := by
  refine ⟨fun h => ⟨(I.unseen h).1, ?_⟩, I.stream, I.server, fun p e h => absurd h (hr p e), I.armed,
    fun hh hc hw => ?_⟩
  · cases h' : io'.serves with
    | false => rfl
    | true => exact (hu h').symm.trans (I.unseen h).2
  · rcases I.heard hh hc hw with h | h
    · exact Or.inl h
    · exact hs hc hw h

/-- something comes in -/
theorem Hearing.grow (I : Hearing s) {k : Sock} (hm : k.mask = s.tx.sock.mask)
    (he : k.edges = s.tx.sock.edges) (hst : s.path ≠ .listen → k.backlog = 0)
    (hsv : s.path = .listen → k.rxq = []) (sent : Bytes) :
    Hearing { s.setSock (k.raise { Evts.none with epollin := true }) with sent := sent } := by
  have hh : ∀ e, (k.raise e).Hears ↔ s.tx.sock.Hears := by
    intro e
    unfold Sock.Hears
    rw [raise_mask, hm]
  refine ⟨fun h => ?_, fun h => (raise_backlog ..).trans (hst h), fun h => (raise_rxq ..).trans (hsv h),
    I.reader, fun h1 h2 => (hh _).mpr (I.armed h1 h2), fun hk _ _ => Or.inl ?_⟩
  · have hn := (raise_mask ..).symm.trans h
    refine ⟨?_, (I.unseen (hm ▸ hn)).2⟩
    show (k.raise _).edges.epollin = false
    rw [Sock.raise_unseen hn, he]
    exact (I.unseen (hm ▸ hn)).1
  · refine Sock.raise_in ?_ rfl
    obtain ⟨m, h1, h2⟩ := (hh _).mp hk
    exact ⟨m, hm.trans h1, h2⟩

theorem turn_hearing (B : Base L s) (I : Hearing s) {a : LinkAct Req} (hA : Heeded s a)
    (T : Turn H L s a s') : Hearing s' := by
  have hsame : ∀ k : Sock, k.Follows k := fun k => Sock.follows_same rfl rfl rfl rfl
  cases T with
  | same => exact I
  | inner ha M =>
    exact I.follow (move_follows M) rfl rfl (move_open M) fun _ h => Or.inl h
  | call hr M =>
    exact I.follow (move_follows M) rfl rfl (move_open M) fun _ h => Or.inl h
  | exec hw ht hx => exact I.follow (hsame _) rfl rfl id fun _ h => Or.inl h
  | execNone hr => exact I.follow (hsame _) rfl rfl id fun _ h => Or.inl h
  | execSyn ht hr P hk => exact I.follow (hsame _) rfl rfl id fun _ h => Or.inl h
  | pass P hk hd hs => exact I.follow (hsame _) rfl rfl id fun h h' => absurd h' (hd h)
  | read P hk hd hs hc => exact I.follow (hsame _) rfl rfl id fun h h' => absurd h' (hd h)
  | write hw P hk hd hs => exact I.follow (hsame _) rfl rfl id fun h h' => absurd h' (hd h)
  | post hv P hk hd hs => exact I.follow (hsame _) rfl rfl id fun h h' => absurd h' (hd h)
  | failed P hk hd hs => exact I.follow (hsame _) rfl rfl nofun fun h h' => absurd h' (hd h)
  | attach hr hm P hk hd =>
    exact I.follow (Sock.follows_attach hm (I.unseen hm).1 _) rfl rfl id fun h h' => absurd h' (hd h)
  | modifySyn hp hs hr P hk =>
    exact I.follow (Sock.follows_arm _ _ rfl) rfl rfl id fun _ _ => Or.inr ⟨_, rfl, rfl⟩
  | modifyDpc hp he P hk =>
    have h0 := hA hp he
    subst h0
    exact I.follow (Sock.follows_arm _ _ rfl) rfl rfl id fun _ _ => Or.inr ⟨_, rfl, rfl⟩
  | @poll e hi he hh =>
    refine ⟨fun h => ?_, I.stream, I.server, fun _ _ => nofun, I.armed, fun hk hc hw => ?_⟩
    · have h1 := (I.unseen h).1
      exact ⟨by
        show (s.tx.sock.edges.epollin && !e.epollin) = false
        rw [h1, Bool.false_and], Evts.within_in he h1⟩
    · -- what is not handed out stays pending
      show (s.tx.sock.edges.epollin && !e.epollin) = true ∨ e.epollin = true
      rcases I.heard hk hc hw with h | h
      · cases he' : e.epollin with
        | true => exact Or.inr rfl
        | false => exact Or.inl (by rw [h]; rfl)
      · rw [hi] at h
        cases h
  | eventClose hi he =>
    refine ⟨fun h => ⟨(I.unseen h).1, rfl⟩, I.stream, I.server, fun _ _ => nofun, I.armed,
      fun _ hc => nomatch hc⟩
  | eventDrop hi hc => exact I.serve nofun nofun fun h => Bool.noConfusion (hc.symm.trans h)
  | eventTake hi hr he hc =>
    refine I.serve nofun (fun h => ?_) fun _ _ h => Or.inr ?_
    · rw [hi]
      exact h
    · rw [hi] at h
      exact h
  | @fetchRead e p hi he hr =>
    refine ⟨fun h => ?_, I.stream, I.server, fun p' e' h => ?_, I.armed, fun _ _ _ => Or.inr rfl⟩
    · have h1 := (I.unseen h).2
      rw [hi] at h1
      exact Bool.noConfusion (he.symm.trans h1)
    · cases h
      have P := B.phase
      rw [hr] at P
      exact P.reader
  | @fetchOut e hi he =>
    refine I.serve nofun nofun fun hc hw h => ?_
    rw [hi] at h
    have hn := he h
    by_cases hp : s.path = .connect ∨ s.path = .connect2
    · exact absurd hw (hA hp e hi h hn)
    · -- the two others have set `ncb_read` before epoll knew of the socket
      have hm : s.tx.sock.mask ≠ none := by
        intro hm
        have h1 := (I.unseen hm).2
        rw [hi] at h1
        exact Bool.noConfusion (h.symm.trans h1)
      refine absurd hn (B.handler ?_ hm)
      cases hpath : s.path with
      | connect => exact absurd (Or.inl hpath) hp
      | connect2 => exact absurd (Or.inr hpath) hp
      | listen => exact Or.inl rfl
      | accept => exact Or.inr rfl
  | @recv e r v rx' chunk hi ha hx hc io' closed' why' hio hv =>
    have hp : s.path ≠ .listen := fun h => nomatch (I.reader _ _ hi).mpr h
    refine ⟨fun h => ⟨(I.unseen h).1, ?_⟩, I.stream, fun h => absurd h hp,
      fun p e' h => I.reader p e' (Ipc.read_back hio h), I.armed, fun hk hcl hw => ?_⟩
    · rcases hio with h' | h' <;> rw [h']
      · exact (I.unseen h).2
      · rfl
    · rcases hv with ⟨_, rfl, _, _⟩ | ⟨_, _, rfl, _⟩ | ⟨hpos, _, _, _⟩
      · rw [hi]
        exact Or.inr rfl
      · cases hcl
      · -- the receive queue is empty
        have hr := once_pos hx hpos
        subst hr
        have hq := (Sock.answers_again ha).1
        rcases hw with hw | hw
        · exact absurd (by rw [hq]; exact List.drop_nil) hw
        · have hb := I.stream hp
          change 0 < s.tx.sock.backlog at hw
          omega
  | @accept e errno n io' closed' why' hi hn hio hv =>
    have hp : s.path = .listen := (I.reader _ _ hi).mp rfl
    refine ⟨fun h => ⟨(I.unseen h).1, ?_⟩, fun h => absurd hp h, I.server,
      fun p e' h => I.reader p e' (Ipc.read_back hio h), I.armed, fun hk hcl hw => ?_⟩
    · rcases hio with h' | h' <;> rw [h']
      · exact (I.unseen h).2
      · rfl
    · rcases hv with ⟨rfl, _, _⟩ | ⟨_, rfl, _⟩ | ⟨_, _, _, hb, m, hm, hcase⟩
      · rw [hi]
        exact Or.inr rfl
      · cases hcl
      · have h0 : s.tx.sock.backlog = 0 := by
          rcases hcase with h | ⟨h1, h2⟩
          · exact h.2
          · exact hA m hm h1 h2
        rcases hw with hw | hw
        · exact absurd (I.server hp) hw
        · change 0 < n at hw
          omega
  | outTask hi he hm =>
    have I' : Hearing { s with io := .idle } :=
      I.serve nofun nofun fun _ _ h => by rw [hi] at h; cases h
    exact I'.follow (hsame _) rfl rfl id fun _ h => Or.inl h
  | outNone hi he => exact I.serve nofun nofun fun _ _ h => by rw [hi] at h; cases h
  | @arrive data hp hf =>
    exact I.grow (k := { s.tx.sock with rxq := s.tx.sock.rxq ++ data }) rfl rfl I.stream
      (fun h => absurd h hp) _
  | incoming hp =>
    exact I.grow (k := { s.tx.sock with backlog := s.tx.sock.backlog + 1 }) rfl rfl
      (fun h => absurd hp h) I.server s.sent
  | shutdown hp =>
    have F := Sock.follows_news s.tx.sock (j := { s.tx.sock with fin := true }) rfl rfl rfl rfl
      { Evts.none with epollin := true, epollrdhup := true }
    exact I.follow F rfl rfl id fun _ h => Or.inl h
  | establish =>
    have F := Sock.follows_news s.tx.sock (j := { s.tx.sock with connected := true }) rfl rfl rfl rfl
      { Evts.none with epollout := true }
    exact I.follow F rfl rfl id fun _ h => Or.inl h
  | reset =>
    have F := Sock.follows_news s.tx.sock (j := { s.tx.sock with err := true }) rfl rfl rfl rfl
      ⟨true, true, true, true, true⟩
    exact I.follow F rfl rfl id fun _ h => Or.inl h

theorem Hearing.heardAll (B : Base L s) (I : Hearing s) : Heard s := by
  intro he hc hw
  rcases B.established he with ⟨h1, h2⟩ | h
  · exact I.heard (I.armed h1 h2) hc hw
  · exact I.heard (B.hears h) hc hw

theorem hearing_init (path : Path) (rx : Rx) : Hearing (Link.init path rx) where
  unseen := fun _ => ⟨rfl, rfl⟩
  stream := fun _ => rfl
  server := fun _ => rfl
  reader := nofun
  armed := by
    intro hp he
    cases hp
    cases he
  heard := by
    rintro ⟨m, hm, _⟩
    cases hm

end

/-- **No readability edge is lost while a link is being established**, as long as every one that is
handed out finds a reader. -/
theorem heard_of_heeded (H : Heap) (ncb : Ncb) (hcb : 0 ≤ ncb.tcp.template.cb_) (path : Path)
    (rx : Rx) (as : List (LinkAct WriteReq))
    (hA : Meets (Link.step H (tcpSender H ncb hcb)) Heeded (Link.init path rx) as) (s : Link)
    (h : run (Link.step H (tcpSender H ncb hcb)) (Link.init path rx) as = some s) : Heard s := by
  obtain ⟨B, R⟩ := run_turns (fun s a s' B R hC T => turn_hearing B R hC T)
    (hearing_init path rx) hA h
  exact R.heardAll B

/-- a byte comes in behind `tcp_tx_syn` -/
def dataLate : List (LinkAct WriteReq) :=
  connecting ++ [.syn 0, .syn 0, .syn 0, .syn 0, .syn 0, .arrive [7], .poll Evts.inOnly, .event, .fetch]

theorem heard_of_heeded_dataLate :
    ∃ s, run (Link.step Heap.zeros (tcpSender Heap.zeros Rx.plain.ncb (by decide)))
      (Link.init .connect2 Rx.plain) dataLate = some s ∧ Heard s := by
  have hsome : (run (Link.step Heap.zeros (tcpSender Heap.zeros Rx.plain.ncb (by decide)))
      (Link.init .connect2 Rx.plain) dataLate).isSome = true := rfl
  obtain ⟨s, hs⟩ := Option.isSome_iff_exists.mp hsome
  refine ⟨s, hs, heard_of_heeded _ _ _ _ _ dataLate ?_ s hs⟩
  refine meets_cons _ rfl nofun (meets_cons _ rfl nofun (meets_cons _ rfl nofun
    (meets_cons _ rfl trivial (meets_cons _ rfl trivial (meets_cons _ rfl trivial ?_)))))
  refine meets_cons _ rfl (fun _ e he hin => ?_) ?_
  · cases he
    cases hin
  refine meets_cons _ rfl trivial (meets_cons _ rfl trivial (meets_cons _ rfl trivial
    (meets_cons _ rfl trivial (meets_cons _ rfl trivial (meets_cons _ rfl trivial
    (meets_cons _ rfl trivial (meets_cons _ rfl trivial (meets_cons _ rfl trivial
    (meets_cons _ rfl trivial (meets_cons _ rfl trivial ?_))))))))))
  -- `ncb_read` is set
  exact meets_cons _ rfl (fun _ _ _ _ h => nomatch h) trivial

/-- `tcp_connect`: the byte comes between `io_attach` and `ncb_read` -/
def lostConnect : List (LinkAct WriteReq) :=
  [.est 0, .arrive [7], .poll Evts.inOnly, .event, .fetch, .out true, .est 0, .est 0, .est 0, .est 0]

/-- `tcp_tx_syn`: the byte comes between `io_modify` and `ncb_read` -/
def lostSyn : List (LinkAct WriteReq) :=
  connecting ++ [.syn 0, .arrive [7], .poll Evts.inOnly, .event, .fetch, .out true, .syn 0, .syn 0,
    .syn 0, .syn 0]

/-- what `Heard` looks at -/
def Link.hearing (s : Link) : Bool × Bool × Bytes × Bool × Bool :=
  (decide (if s.path = .connect2 then s.syn = .done else s.est = .done), s.tx.closed, s.tx.sock.rxq,
    s.tx.sock.edges.epollin, s.io.serves)

theorem not_heard {s : Link} {data : Bytes} (hd : data ≠ [])
    (h : s.hearing = (true, false, data, false, false)) : ¬ Heard s := by
  unfold Link.hearing at h
  simp only [Prod.mk.injEq, decide_eq_true_eq] at h
  obtain ⟨h1, h2, h3, h4, h5⟩ := h
  intro hH
  rcases hH h1 h2 (Or.inl (by rw [h3]; exact hd)) with h | h
  · exact Bool.noConfusion (h4.symm.trans h)
  · exact Bool.noConfusion (h5.symm.trans h)

theorem edges_lost :
    (∃ s, run (Link.step Heap.zeros (tcpSender Heap.zeros Rx.plain.ncb (by decide)))
      (Link.init .connect Rx.plain) lostConnect = some s ∧ ¬ Heard s) ∧
    ∃ s, run (Link.step Heap.zeros (tcpSender Heap.zeros Rx.plain.ncb (by decide)))
      (Link.init .connect2 Rx.plain) lostSyn = some s ∧ ¬ Heard s := by
  have h1 : (run (Link.step Heap.zeros (tcpSender Heap.zeros Rx.plain.ncb (by decide)))
      (Link.init .connect Rx.plain) lostConnect).map Link.hearing
      = some (true, false, [7], false, false) := by rfl
  have h2 : (run (Link.step Heap.zeros (tcpSender Heap.zeros Rx.plain.ncb (by decide)))
      (Link.init .connect2 Rx.plain) lostSyn).map Link.hearing
      = some (true, false, [7], false, false) := by rfl
  obtain ⟨s, hs, hb⟩ := Option.map_eq_some_iff.mp h1
  obtain ⟨t, ht, hc⟩ := Option.map_eq_some_iff.mp h2
  exact ⟨⟨s, hs, not_heard (List.cons_ne_nil _ _) hb⟩, t, ht, not_heard (List.cons_ne_nil _ _) hc⟩

end Swnet

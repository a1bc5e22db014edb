import Swnet.Nomem
import Swnet.Readable
import Swnet.Reassembly

/-!
# Data in front of an orderly shutdown

`tcp_rx` reads the receive queue to its end before it sees the shutdown, but `__iorun` closes a link
at `EPOLLRDHUP` without looking at it.

* `Delivered`         a link that `__iorun` has closed because of the shutdown has posted every packet;
* `Drained`           no `EPOLLRDHUP` event meets a receive queue that completes a packet;
* `delivered_iff`     the first holds all along a run if and only if its steps meet the second.
-/

namespace Swnet
open CMem Runs Framing

/-- the data of an `EVT_RECEIVEDATA` -/
def Event.data? : Event → Option Bytes
  | .recvdata data => some data
  | _ => none

def posted (s : Link) : List Bytes := s.events.filterMap Event.data?

section
variable (W : Wire) (A : Attr)

/-- once `__iorun` has closed the link because of the shutdown, every complete packet is posted -/
def Delivered (s : Link) : Prop := s.why = some .shutdown → posted s = (reference W A s.sent).1

/-- an `EPOLLRDHUP` event closes an open link without an error only if the receive queue completes no
packet -/
def Drained {Req : Type} (s : Link) : LinkAct Req → Prop
  | .event => ∀ e, s.io = .event e → e.epollrdhup = true → e.epollerr = false →
      s.tx.sock.err = false → s.tx.closed = false →
      (W.rule.split (s.chunks.flatten ++ s.tx.sock.rxq)).frames = (W.rule.split s.chunks.flatten).frames
  | _ => True

/-- no answer of `recv(2)` ends inside the header of a large packet -/
def Uncut {Req : Type} (s : Link) : LinkAct Req → Prop
  | .recv (.bytes chunk) => chunk ≠ [] → HeadersWhole W (s.chunks ++ [chunk])
  | _ => True

/-- the event is past the tests for `EPOLLRDHUP` and `EPOLLERR`, and `ncb_read` is not over -/
def Ipc.taken : Ipc → Bool
  | .fetch _ => true
  | .read _ _ => true
  | _ => false

structure Received (H : Heap) (g : Bytes) (s : Link) : Prop where
  sent : s.sent = s.chunks.flatten ++ s.tx.sock.rxq
  chunks : Chunks s.chunks
  whole : HeadersWhole W s.chunks
  parsed : rxChunks (total H) (Rx.fresh g A W.tst) s.chunks = .ok (0, s.rx) ∧ posted s = s.rx.posts ∨
    s.tx.closed = true ∧ s.io.taken = false ∧ s.why ≠ some .shutdown
  ended : s.why = some .shutdown → s.tx.sock.fin = true ∧ s.tx.closed = true ∧ s.io.taken = false ∧
    posted s = (reference W A s.sent).1
  edges : s.tx.sock.edges.epollrdhup = true → s.tx.sock.fin = true ∨ s.tx.sock.err = true
  event : ∀ e, s.io = .event e → e.epollrdhup = true → s.tx.sock.fin = true ∨ s.tx.sock.err = true

end

section
variable {Req : Type} {W : Wire} {A : Attr} {H : Heap} {L : Sender Req} {g : Bytes} {s s' : Link}

theorem posted_news {v : Event} (hv : v.announces = true) (evs : List Event) :
    (evs ++ [v]).filterMap Event.data? = evs.filterMap Event.data? := by
  cases v with
  | recvdata data => cases hv
  | accepted => rw [List.filterMap_append]; exact List.append_nil _
  | connected => rw [List.filterMap_append]; exact List.append_nil _

theorem posted_recv (evs : List Event) (ds : List Bytes) :
    (evs ++ ds.map Event.recvdata).filterMap Event.data? = evs.filterMap Event.data? ++ ds := by
  have h : (ds.map Event.recvdata).filterMap Event.data? = ds := by
    rw [List.filterMap_map]
    exact List.filterMap_some
  rw [List.filterMap_append, h]

/-- what `tcp_rx` has posted is the framing of what it has received -/
theorem posts_eq (hg : g.length = TCP_BUFFER_SIZE) {cs : List Bytes} (hcs : Chunks cs)
    (hw : HeadersWhole W cs) {rx : Rx} {v : Int}
    (h : rxChunks (total H) (Rx.fresh g A W.tst) cs = .ok (v, rx)) :
    rx.posts = (reference W A cs.flatten).1 := by
  obtain ⟨r, rx', h1, h2, _⟩ := reassembles_of_headersWhole (A := A) (total_succeeds H) hg hcs hw
  rw [h] at h1
  cases h1
  exact h2

/-- one more chunk behind the ones that are read -/
theorem parse_chunk {cs : List Bytes} {c : Bytes} (hc : c ≠ []) {rx rx' : Rx} {v : Int}
    (h : rxChunks (total H) (Rx.fresh g A W.tst) cs = .ok (0, rx))
    (hx : tcpRxOnce H rx (.bytes c) = .ok (v, rx')) :
    v = -1 ∨ v = 0 ∧ rxChunks (total H) (Rx.fresh g A W.tst) (cs ++ [c]) = .ok (0, rx') := by
  rcases once_heap H rx (.bytes c) with he | ⟨⟨rx1, h1⟩, _⟩
  · have hv : v = 0 ∨ v = -1 := by
      have hx' := hx
      unfold tcpRxOnce at hx'
      dsimp only at hx'
      rw [if_pos (List.length_pos_iff.mpr hc)] at hx'
      exact loop_values _ hx'
    rcases hv with rfl | hv
    · refine Or.inr ⟨rfl, ?_⟩
      rw [rxChunks_append h, rxChunks_go (he.symm.trans hx)]
      rfl
    · exact Or.inl hv
  · rw [hx] at h1
    cases h1
    exact Or.inl rfl

/-- an error of `recv(2)` changes nothing that is received -/
theorem once_err {n : Int} {rx rx' : Rx} {v : Int} (h : tcpRxOnce H rx (.err n) = .ok (v, rx')) :
    rx' = rx ∧ v ≠ -ECONNRESET := by
  unfold tcpRxOnce at h
  dsimp only at h
  split at h
  · cases h
    exact ⟨rfl, by decide⟩
  · split at h <;> cases h <;> exact ⟨rfl, by decide⟩

theorem Sock.answers_chunk {k : Sock} {c : Bytes} (hc : c ≠ []) (h : k.answers (.bytes c) = true) :
    c <+: k.rxq ∧ c.length ≤ TCP_BUFFER_SIZE := by
  unfold Sock.answers at h
  dsimp only at h
  rw [if_neg hc, Bool.and_eq_true, List.isPrefixOf_iff_prefix, decide_eq_true_eq] at h
  exact h

theorem Sock.answers_end {k : Sock} (h : k.answers (.bytes []) = true) : k.rxq = [] ∧ k.fin = true := by
  unfold Sock.answers at h
  dsimp only at h
  rw [if_pos rfl, Bool.and_eq_true, List.isEmpty_iff] at h
  exact h

/-- a step that neither receives nor posts data -/
theorem Received.keep (R : Received W A H g s) (hsent : s'.sent = s.sent) (hch : s'.chunks = s.chunks)
    (hrx : s'.rx = s.rx) (hp : posted s' = posted s) (hw : s'.why = s.why)
    (hc : s.tx.closed = true → s'.tx.closed = true)
    (ht : s.tx.closed = true → s.io.taken = false → s'.io.taken = false)
    (hq : s'.tx.sock.rxq = s.tx.sock.rxq)
    (hf : s.tx.sock.fin = true ∨ s.tx.sock.err = true → s'.tx.sock.fin = true ∨ s'.tx.sock.err = true)
    (hfin : s.tx.sock.fin = true → s'.tx.sock.fin = true)
    (he : s'.tx.sock.edges.epollrdhup = true → s'.tx.sock.fin = true ∨ s'.tx.sock.err = true)
    (hv : ∀ e, s'.io = .event e → e.epollrdhup = true → s.tx.sock.fin = true ∨ s.tx.sock.err = true) :
    Received W A H g s' := by
  refine ⟨?_, ?_, ?_, ?_, ?_, he, fun e h h' => hf (hv e h h')⟩
  · rw [hsent, hch, hq]
    exact R.sent
  · rw [hch]
    exact R.chunks
  · rw [hch]
    exact R.whole
  · rw [hch, hrx, hp, hw]
    exact R.parsed.imp id fun ⟨h1, h2, h3⟩ => ⟨hc h1, ht h1 h2, h3⟩
  · rw [hw, hsent, hp]
    intro h
    obtain ⟨h1, h2, h3, h4⟩ := R.ended h
    exact ⟨hfin h1, hc h2, ht h2 h3, h4⟩

/-- a step that is not the epoll thread's -/
theorem Received.aside (R : Received W A H g s) (hsent : s'.sent = s.sent)
    (hch : s'.chunks = s.chunks) (hrx : s'.rx = s.rx) (hp : posted s' = posted s) (hw : s'.why = s.why)
    (hc : s.tx.closed = true → s'.tx.closed = true) (hio : s'.io = s.io)
    (hq : s'.tx.sock.rxq = s.tx.sock.rxq) (hfin : s'.tx.sock.fin = s.tx.sock.fin)
    (herr : s'.tx.sock.err = s.tx.sock.err)
    (he : s'.tx.sock.edges.epollrdhup = true → s.tx.sock.fin = true ∨ s.tx.sock.err = true) :
    Received W A H g s' := by
  refine R.keep hsent hch hrx hp hw hc (fun _ h => hio ▸ h) hq (fun h => ?_) (fun h => hfin.trans h)
    (fun h => ?_) fun e h => R.event e (hio ▸ h)
  · rwa [hfin, herr]
  · rw [hfin, herr]
    exact he h

theorem arm_rdhup (k : Sock) (m : Mask) (h : (k.arm m).edges.epollrdhup = true) :
    k.edges.epollrdhup = true ∨ k.fin = true := (Bool.or_eq_true _ _).mp h

theorem raise_rdhup (k : Sock) (e : Evts) (h : (k.raise e).edges.epollrdhup = true) :
    k.edges.epollrdhup = true ∨ e.epollrdhup = true := by
  unfold Sock.raise at h
  split at h
  · exact Or.inl h
  · exact (Bool.or_eq_true _ _).mp h

theorem Received.move (R : Received W A H g s) {a : TxAct Req} {t : Tx} (M : Move L s.tx a t) :
    Received W A H g { s with tx := t } := by
  have hk : t.sock.rxq = s.tx.sock.rxq ∧ t.sock.fin = s.tx.sock.fin ∧ t.sock.err = s.tx.sock.err ∧
      (t.sock.edges.epollrdhup = true → s.tx.sock.fin = true ∨ s.tx.sock.err = true) := by
    rcases move_sock M with h | ⟨_, h⟩ | ⟨_, o, h⟩ | ⟨_, h⟩ <;> rw [h]
    · exact ⟨rfl, rfl, rfl, R.edges⟩
    · exact ⟨rfl, rfl, rfl, R.edges⟩
    · exact ⟨rfl, rfl, rfl, fun h => (arm_rdhup _ _ h).elim R.edges Or.inl⟩
    · refine ⟨raise_rxq .., raise_fin .., raise_err .., fun h => ?_⟩
      rcases raise_rdhup _ _ h with h | h
      · exact R.edges h
      · cases h
  obtain ⟨h1, h2, h3, h4⟩ := hk
  exact R.aside rfl rfl rfl rfl rfl (move_closed M) rfl h1 h2 h3 h4

theorem Evts.within_rdhup {e e' : Evts} (h : e.within e' = true) (he : e.epollrdhup = true) :
    e'.epollrdhup = true := by
  unfold Evts.within at h
  rw [he] at h
  simp only [Bool.and_eq_true, Bool.or_eq_true] at h
  simpa using h.1.1.2

/-- while `ncb_read` runs the link has not been given up -/
theorem Received.reading (R : Received W A H g s) {p : NcbRead} {e : Evts} (hi : s.io = .read p e) :
    (rxChunks (total H) (Rx.fresh g A W.tst) s.chunks = .ok (0, s.rx) ∧ posted s = s.rx.posts) ∧
      s.why ≠ some .shutdown := by
  refine ⟨R.parsed.resolve_right fun h => ?_, fun h => ?_⟩
  · have h2 := h.2.1
    rw [hi] at h2
    cases h2
  · have h2 := (R.ended h).2.2.1
    rw [hi] at h2
    cases h2

theorem Received.recv (hg : g.length = TCP_BUFFER_SIZE) (R : Received W A H g s) {e : Evts} {r : Recv}
    {v : Int} {rx' : Rx} {chunk : Bytes} (hU : Uncut W s (.recv r : LinkAct Req))
    (hi : s.io = .read .tcpRx e) (ha : s.tx.sock.answers r = true)
    (hx : tcpRxOnce H s.rx r = .ok (v, rx'))
    (hc : r = .bytes chunk ∨ chunk = [] ∧ ∃ n, r = .err n) {io' : Ipc} {closed' : Bool}
    {why' : Option Why} (hio : io' = s.io ∨ io' = .out e)
    (hv : v = 0 ∧ io' = s.io ∧ closed' = s.tx.closed ∧ why' = s.why ∨
      v < 0 ∧ io' = .out e ∧ closed' = true ∧
        why' = (if s.tx.closed then s.why else some (if v ≠ -ECONNRESET then .fatal
          else if s.tx.sock.err then .error else .shutdown)) ∨
      0 < v ∧ io' = .out e ∧ closed' = s.tx.closed ∧ why' = s.why) :
    Received W A H g
      { s with
        tx := { s.tx with sock := { s.tx.sock with rxq := s.tx.sock.rxq.drop chunk.length }
                          closed := closed' }
        rx := rx'
        events := s.events ++ (rx'.posts.drop s.rx.posts.length).map .recvdata
        chunks := if chunk = [] then s.chunks else s.chunks ++ [chunk]
        io := io'
        why := why' } := by
  obtain ⟨⟨hparse, hposted⟩, hwhy⟩ := R.reading hi
  have hevent := Ipc.read_next hi hio
  by_cases hcn : chunk = []
  · -- nothing is received: the end of the stream, or an error
    subst hcn
    have hrx : rx' = s.rx := by
      rcases hc with rfl | ⟨_, n, rfl⟩
      · cases hx
        rfl
      · exact (once_err hx).1
    subst hrx
    have hp : (s.events ++ (s.rx.posts.drop s.rx.posts.length).map Event.recvdata) = s.events := by
      rw [List.drop_length, List.map_nil, List.append_nil]
    refine ⟨R.sent, R.chunks, R.whole, Or.inl ⟨hparse, ?_⟩, fun h => ?_, R.edges,
      fun e' h => absurd h (hevent e')⟩
    · show (s.events ++ _).filterMap Event.data? = _
      rw [hp]
      exact hposted
    · rcases hv with ⟨_, _, _, rfl⟩ | ⟨_, rfl, rfl, rfl⟩ | ⟨_, _, _, rfl⟩
      · exact absurd h hwhy
      · -- `recv(2)` has returned zero
        change (if s.tx.closed = true then s.why else _) = _ at h
        split at h
        · exact absurd h hwhy
        · have hr : r = .bytes [] := by
            rcases hc with hr | ⟨_, n, rfl⟩
            · exact hr
            · rw [if_pos (once_err hx).2] at h
              cases h
          subst hr
          obtain ⟨h1, h2⟩ := Sock.answers_end ha
          refine ⟨h2, rfl, rfl, ?_⟩
          show (s.events ++ _).filterMap Event.data? = (reference W A s.sent).1
          rw [hp, R.sent, h1, List.append_nil, ← posts_eq hg R.chunks R.whole hparse]
          exact hposted
      · exact absurd h hwhy
  · have hr : r = .bytes chunk := hc.resolve_right fun h => hcn h.1
    subst hr
    obtain ⟨hpre, hlen⟩ := Sock.answers_chunk hcn ha
    have hwhole := hU hcn
    have hchunks : Chunks (s.chunks ++ [chunk]) := by
      intro x hx
      rcases List.mem_append.mp hx with hx | hx
      · exact R.chunks x hx
      · rw [List.mem_singleton.mp hx]
        exact ⟨hcn, hlen⟩
    have hsent : s.sent = (s.chunks ++ [chunk]).flatten ++ s.tx.sock.rxq.drop chunk.length := by
      obtain ⟨rest, hrest⟩ := hpre
      rw [R.sent, List.flatten_append, List.flatten_singleton, List.append_assoc, ← hrest,
        List.drop_left]
    have hnot : why' ≠ some .shutdown := by
      rcases hv with ⟨_, _, _, rfl⟩ | ⟨hneg, _, _, rfl⟩ | ⟨_, _, _, rfl⟩
      · exact hwhy
      · split
        · exact hwhy
        · have hv1 : v = -1 := by
            rcases parse_chunk hcn hparse hx with h | ⟨h, _⟩
            · exact h
            · omega
          rw [if_pos (by rw [hv1]; decide)]
          exact nofun
      · exact hwhy
    refine ⟨?_, ?_, ?_, ?_, fun h => absurd h hnot, R.edges, fun e' h => absurd h (hevent e')⟩
    · show s.sent = (if chunk = [] then s.chunks else s.chunks ++ [chunk]).flatten ++ _
      rw [if_neg hcn]
      exact hsent
    · show Chunks (if chunk = [] then s.chunks else s.chunks ++ [chunk])
      rwa [if_neg hcn]
    · show HeadersWhole W (if chunk = [] then s.chunks else s.chunks ++ [chunk])
      rwa [if_neg hcn]
    · rcases parse_chunk hcn hparse hx with h | ⟨h, hparse'⟩
      · -- a bad header, or no memory for a large packet
        subst h
        refine Or.inr ⟨?_, ?_, hnot⟩
        · rcases hv with ⟨h, _⟩ | ⟨_, _, h, _⟩ | ⟨h, _⟩
          · cases h
          · exact h
          · exact absurd h (by decide)
        · rcases hv with ⟨h, _⟩ | ⟨_, rfl, _⟩ | ⟨h, _⟩
          · cases h
          · rfl
          · exact absurd h (by decide)
      · refine Or.inl ⟨?_, ?_⟩
        · show rxChunks (total H) _ (if chunk = [] then s.chunks else s.chunks ++ [chunk]) = _
          rw [if_neg hcn]
          exact hparse'
        · show (s.events ++ _).filterMap Event.data? = rx'.posts
          have h1 := posts_eq hg R.chunks R.whole hparse
          have h2 := posts_eq hg hchunks hwhole hparse'
          have hpost : s.rx.posts <+: rx'.posts := by
            rw [h1, h2, List.flatten_append, List.flatten_singleton]
            exact (split_frames_le ..).map _
          obtain ⟨news, hnews⟩ := hpost
          rw [posted_recv, ← hnews, List.drop_left]
          exact congrArg (· ++ news) hposted

theorem turn_received (hg : g.length = TCP_BUFFER_SIZE) (R : Received W A H g s) {a : LinkAct Req}
    (hU : Uncut W s a) (hD : Drained W s a) (T : Turn H L s a s') : Received W A H g s' := by
  cases T with
  | same => exact R
  | inner ha M => exact R.move M
  | call hr M => exact R.move M
  | exec hw ht hx => exact R.aside rfl rfl rfl rfl rfl id rfl rfl rfl rfl R.edges
  | execNone hr => exact R.aside rfl rfl rfl rfl rfl id rfl rfl rfl rfl R.edges
  | execSyn ht hr P hk => exact R.aside rfl rfl rfl rfl rfl id rfl rfl rfl rfl R.edges
  | pass P hk hd hs => exact R.aside rfl rfl rfl rfl rfl id rfl rfl rfl rfl R.edges
  | read P hk hd hs hc => exact R.aside rfl rfl rfl rfl rfl id rfl rfl rfl rfl R.edges
  | write hw P hk hd hs => exact R.aside rfl rfl rfl rfl rfl id rfl rfl rfl rfl R.edges
  | post hv P hk hd hs =>
    exact R.aside rfl rfl rfl (posted_news hv _) rfl id rfl rfl rfl rfl R.edges
  | failed P hk hd hs =>
    exact R.aside rfl rfl rfl rfl rfl (fun _ => rfl) rfl rfl rfl rfl R.edges
  | attach hr hm P hk hd =>
    exact R.aside rfl rfl rfl rfl rfl id rfl rfl rfl rfl
      fun h => (arm_rdhup _ _ h).elim R.edges Or.inl
  | modifySyn hp hs hr P hk =>
    exact R.aside rfl rfl rfl rfl rfl id rfl rfl rfl rfl
      fun h => (arm_rdhup _ _ h).elim R.edges Or.inl
  | @modifyDpc e hp he P hk =>
    have hk : ∀ k : Sock, (ioModify k ⟨true, false⟩ e).2 = k.arm ⟨true, false⟩ ∨
        (ioModify k ⟨true, false⟩ e).2 = k := by
      intro k
      unfold ioModify
      split
      · exact Or.inl rfl
      · exact Or.inr rfl
    rcases hk s.tx.sock with h | h <;> rw [h]
    · exact R.aside rfl rfl rfl rfl rfl id rfl rfl rfl rfl
        fun h => (arm_rdhup _ _ h).elim R.edges Or.inl
    · exact R.aside rfl rfl rfl rfl rfl id rfl rfl rfl rfl R.edges
  | @poll e hi he hh =>
    refine R.keep rfl rfl rfl rfl rfl id (fun _ _ => rfl) rfl id id
      (fun h => R.edges ((Bool.and_eq_true _ _).mp h).1) fun e' h h' => ?_
    cases h
    exact R.edges (Evts.within_rdhup he h')
  | @eventClose e hi he =>
    by_cases hc : s.tx.closed = true
    · have hwhy : (s.closeBy (if (e.epollerr || s.tx.sock.err) = true then .error else .shutdown)).why
          = s.why := if_pos hc
      exact R.keep rfl rfl rfl rfl hwhy (fun _ => rfl) (fun _ _ => rfl) rfl id id R.edges nofun
    · have hopen := Bool.eq_false_of_not_eq_true hc
      have hparse := R.parsed.resolve_right fun h => hc h.1
      refine ⟨R.sent, R.chunks, R.whole, Or.inl hparse, fun h => ?_, R.edges, nofun⟩
      change (if s.tx.closed = true then s.why else some _) = _ at h
      rw [if_neg hc] at h
      by_cases herr : (e.epollerr || s.tx.sock.err) = true
      · rw [if_pos herr] at h
        cases h
      · -- the shutdown: everything that is complete has been read
        obtain ⟨h1, h2⟩ := Bool.or_eq_false_iff.mp (Bool.eq_false_of_not_eq_true herr)
        have hup : e.epollrdhup = true := by rwa [h1, Bool.or_false] at he
        have hfin := (R.event e hi hup).resolve_right fun h => Bool.noConfusion (h2.symm.trans h)
        have hframes := hD e hi hup h1 h2 hopen
        refine ⟨hfin, rfl, rfl, ?_⟩
        show posted s = (reference W A s.sent).1
        unfold reference
        rw [R.sent, hframes, hparse.2]
        exact posts_eq hg R.chunks R.whole hparse.1
  | eventDrop hi hc =>
    exact R.keep rfl rfl rfl rfl rfl id (fun _ _ => rfl) rfl id id R.edges nofun
  | eventTake hi hr he hc =>
    exact R.keep rfl rfl rfl rfl rfl id (fun h => Bool.noConfusion (hc.symm.trans h)) rfl id id R.edges
      nofun
  | fetchRead hi he hr =>
    refine R.keep rfl rfl rfl rfl rfl id (fun _ h => ?_) rfl id id R.edges nofun
    rw [hi] at h
    cases h
  | fetchOut hi he =>
    exact R.keep rfl rfl rfl rfl rfl id (fun _ _ => rfl) rfl id id R.edges nofun
  | recv hi ha hx hc hio hv => exact R.recv hg hU hi ha hx hc hio hv
  | @accept e errno n io' closed' why' hi hn hio hv =>
    obtain ⟨hparse, hwhy⟩ := R.reading hi
    have hnot : why' ≠ some .shutdown := by
      rcases hv with ⟨_, _, rfl⟩ | ⟨_, _, rfl⟩ | ⟨_, _, rfl, _⟩
      · exact hwhy
      · split
        · exact hwhy
        · exact nofun
      · exact hwhy
    exact ⟨R.sent, R.chunks, R.whole, Or.inl hparse, fun h => absurd h hnot, R.edges,
      fun e' h => absurd h (Ipc.read_next hi hio e')⟩
  | outTask hi he hm =>
    exact R.keep rfl rfl rfl rfl rfl id (fun _ _ => rfl) rfl id id R.edges nofun
  | outNone hi he =>
    exact R.keep rfl rfl rfl rfl rfl id (fun _ _ => rfl) rfl id id R.edges nofun
  | @arrive data hp hf =>
    have hfin : (s.tx.sock.arrive data).fin = s.tx.sock.fin := raise_fin ..
    have herr : (s.tx.sock.arrive data).err = s.tx.sock.err := raise_err ..
    refine ⟨?_, R.chunks, R.whole, R.parsed, fun h => ?_, fun h => ?_, fun e h h' => ?_⟩
    · show s.sent ++ data = s.chunks.flatten ++ (s.tx.sock.arrive data).rxq
      have h1 : (s.tx.sock.arrive data).rxq = s.tx.sock.rxq ++ data := raise_rxq ..
      rw [h1, R.sent, List.append_assoc]
    · exact Bool.noConfusion (hf.symm.trans (R.ended h).1)
    · show (s.tx.sock.arrive data).fin = true ∨ (s.tx.sock.arrive data).err = true
      rw [hfin, herr]
      rcases raise_rdhup _ _ h with h | h
      · exact R.edges h
      · cases h
    · show (s.tx.sock.arrive data).fin = true ∨ (s.tx.sock.arrive data).err = true
      rw [hfin, herr]
      exact R.event e h h'
  | incoming hp =>
    refine R.aside rfl rfl rfl rfl rfl id rfl (raise_rxq ..) (raise_fin ..) (raise_err ..) fun h => ?_
    rcases raise_rdhup _ _ h with h | h
    · exact R.edges h
    · cases h
  | shutdown hp =>
    have h1 : s.tx.sock.shutdown.fin = true := raise_fin ..
    exact R.keep rfl rfl rfl rfl rfl id (fun _ h => h) (raise_rxq ..) (fun _ => Or.inl h1)
      (fun _ => h1) (fun _ => Or.inl h1) R.event
  | establish =>
    refine R.aside rfl rfl rfl rfl rfl id rfl (raise_rxq ..) (raise_fin ..) (raise_err ..) fun h => ?_
    rcases raise_rdhup _ _ h with h | h
    · exact R.edges h
    · cases h
  | reset =>
    have h1 : s.tx.sock.reset.err = true := raise_err ..
    exact R.keep rfl rfl rfl rfl rfl id (fun _ h => h) (raise_rxq ..) (fun _ => Or.inr h1)
      (fun h => (raise_fin ..).trans h) (fun _ => Or.inr h1) R.event

theorem received_init (path : Path) :
    Received W A H g (Link.init path (Rx.fresh g A W.tst)) where
  sent := rfl
  chunks := nofun
  whole := by
    intro i h
    refine h.ne_nil ?_
    show ([].drop i).flatten = []
    rw [List.drop_nil]
    rfl
  parsed := Or.inl ⟨rfl, rfl⟩
  ended := nofun
  edges := nofun
  event := nofun

/-- an event that leaves packets unread closes the link without them -/
theorem drained_of_delivered (hg : g.length = TCP_BUFFER_SIZE) (R : Received W A H g s)
    {a : LinkAct Req} (h : s.step H L a = some s') (hd : Delivered W A s') : Drained W s a := by
  cases a with
  | event =>
    intro e hi hup herr hsock hopen
    have hs : s.step H L .event
        = some { s.closeBy (if e.epollerr || s.tx.sock.err then .error else .shutdown) with
          io := .idle } := by
      show s.iorun H (.event : LinkAct Req) = _
      unfold Link.iorun
      rw [hi]
      dsimp only
      rw [if_pos (by rw [hup]; rfl)]
    rw [h] at hs
    cases hs
    have hwhy : (s.closeBy (if (e.epollerr || s.tx.sock.err) = true then .error else .shutdown)).why
        = some .shutdown := by
      show (if s.tx.closed = true then s.why else _) = _
      rw [hopen, herr, hsock]
      rfl
    have hparse := R.parsed.resolve_right fun h => Bool.noConfusion (hopen.symm.trans h.1)
    have h1 : posted s = (reference W A s.sent).1 := hd hwhy
    rw [hparse.2, posts_eq hg R.chunks R.whole hparse.1, R.sent] at h1
    -- one list of packets is the beginning of the other, and they have one length
    have h2 := congrArg List.length h1
    unfold reference at h2
    rw [List.length_map, List.length_map] at h2
    exact ((split_frames_le ..).eq_of_length h2).symm
  | _ => exact trivial

end

theorem Wire.cb_nonneg (W : Wire) : 0 ≤ W.tst.cb_ := by
  rw [W.cb_eq]
  exact Int.natCast_nonneg _

/-- **Data sent before an orderly shutdown is delivered** exactly as long as no `EPOLLRDHUP` event meets
packets that are still to be read. -/
theorem delivered_iff (W : Wire) (A : Attr) (H : Heap) (g : Bytes) (hg : g.length = TCP_BUFFER_SIZE)
    (path : Path) (as : List (LinkAct WriteReq))
    (hU : Meets (Link.step H (tcpSender H (Rx.fresh g A W.tst).ncb W.cb_nonneg)) (Uncut W)
      (Link.init path (Rx.fresh g A W.tst)) as) (s : Link)
    (h : run (Link.step H (tcpSender H (Rx.fresh g A W.tst).ncb W.cb_nonneg))
      (Link.init path (Rx.fresh g A W.tst)) as = some s) :
    Meets (Link.step H (tcpSender H (Rx.fresh g A W.tst).ncb W.cb_nonneg)) (Drained W)
        (Link.init path (Rx.fresh g A W.tst)) as ↔
      ∀ bs, bs <+: as → ∀ t, run (Link.step H (tcpSender H (Rx.fresh g A W.tst).ncb W.cb_nonneg))
        (Link.init path (Rx.fresh g A W.tst)) bs = some t → Delivered W A t := by
  refine meets_iff _ (I := fun s => Base (tcpSender H (Rx.fresh g A W.tst).ncb W.cb_nonneg) s ∧
    Received W A H g s) ?_ (fun s hI hw => (hI.2.ended hw).2.2.2) ?_ h hU
    ⟨base_init path _, received_init path⟩
  · rintro s a s' ⟨B, R⟩ hU hD hs
    have T := step_turn B hs
    exact ⟨turn_base B T, turn_received hg R hU hD T⟩
  · rintro s a s' ⟨B, R⟩ hD hs hd
    exact hD (drained_of_delivered hg R hs hd)

/-- the shutdown comes behind `tcp_connect`, and with it what is in `data` -/
def lastWords (data : Bytes) : List (LinkAct WriteReq) :=
  [.est 0, .est 0, .est 0, .est 0, .est 0, .arrive data, .shutdown,
    .poll { Evts.inOnly with epollrdhup := true }, .event]

theorem delivered_iff_len4 :
    Meets (Link.step Heap.zeros (tcpSender Heap.zeros
        (Rx.fresh (List.replicate TCP_BUFFER_SIZE 0) Attr.clear Wire.len4.tst).ncb Wire.len4.cb_nonneg))
        (Drained Wire.len4)
        (Link.init .connect (Rx.fresh (List.replicate TCP_BUFFER_SIZE 0) Attr.clear Wire.len4.tst))
        (lastWords [1, 0, 0]) ↔
      ∀ bs, bs <+: lastWords [1, 0, 0] → ∀ t, run (Link.step Heap.zeros (tcpSender Heap.zeros
        (Rx.fresh (List.replicate TCP_BUFFER_SIZE 0) Attr.clear Wire.len4.tst).ncb Wire.len4.cb_nonneg))
        (Link.init .connect (Rx.fresh (List.replicate TCP_BUFFER_SIZE 0) Attr.clear Wire.len4.tst)) bs
          = some t → Delivered Wire.len4 Attr.clear t := by
  have hsome : (run (Link.step Heap.zeros (tcpSender Heap.zeros
      (Rx.fresh (List.replicate TCP_BUFFER_SIZE 0) Attr.clear Wire.len4.tst).ncb Wire.len4.cb_nonneg))
      (Link.init .connect (Rx.fresh (List.replicate TCP_BUFFER_SIZE 0) Attr.clear Wire.len4.tst))
      (lastWords [1, 0, 0])).isSome = true := rfl
  obtain ⟨s, hs⟩ := Option.isSome_iff_exists.mp hsome
  refine delivered_iff Wire.len4 Attr.clear Heap.zeros _ List.length_replicate .connect _ ?_ s hs
  exact meets_cons _ rfl trivial (meets_cons _ rfl trivial (meets_cons _ rfl trivial
    (meets_cons _ rfl trivial (meets_cons _ rfl trivial (meets_cons _ rfl trivial
    (meets_cons _ rfl trivial (meets_cons _ rfl trivial (meets_cons _ rfl trivial trivial))))))))

theorem lastWords_lost :
    ∃ s, run (Link.step Heap.zeros (tcpSender Heap.zeros
        (Rx.fresh (List.replicate TCP_BUFFER_SIZE 0) Attr.clear Wire.len4.tst).ncb Wire.len4.cb_nonneg))
        (Link.init .connect (Rx.fresh (List.replicate TCP_BUFFER_SIZE 0) Attr.clear Wire.len4.tst))
        (lastWords [1, 0, 0, 0, 7]) = some s ∧
      s.events = [.connected] ∧ ¬ Delivered Wire.len4 Attr.clear s := by
  have h : (run (Link.step Heap.zeros (tcpSender Heap.zeros
      (Rx.fresh (List.replicate TCP_BUFFER_SIZE 0) Attr.clear Wire.len4.tst).ncb Wire.len4.cb_nonneg))
      (Link.init .connect (Rx.fresh (List.replicate TCP_BUFFER_SIZE 0) Attr.clear Wire.len4.tst))
      (lastWords [1, 0, 0, 0, 7])).map (fun s => (s.events, s.why, s.sent))
      = some ([.connected], some .shutdown, [1, 0, 0, 0, 7]) := by rfl
  obtain ⟨s, hs, he⟩ := Option.map_eq_some_iff.mp h
  simp only [Prod.mk.injEq] at he
  obtain ⟨h1, h2, h3⟩ := he
  refine ⟨s, hs, h1, fun hd => ?_⟩
  have h4 := hd h2
  unfold posted at h4
  rw [h1, h3] at h4
  have hnext : Wire.len4.rule.next [1, 0, 0, 0, 7] = .frame [1, 0, 0, 0, 7] [] := by rfl
  unfold reference at h4
  rw [split_frame _ hnext] at h4
  cases h4

end Swnet

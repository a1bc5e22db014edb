import Swnet.Lib.Channel
import Swnet.RoundTrip
import Swnet.WireOrder

/-!
# A connection

Both ends of a TCP link with what the network does between them: any number of threads that call
`tcp_write` at one end, the pool that sends what they queue, and `__tcp_rx` at the other end, which
gets the bytes of the kernel in chunks of any size.

* `Peers`                    the two ends: a template, the two heaps, the attributes;
* `Transfer`, `Transfer.step`        the state, and what can happen next;
* `Transfer.Inv`                 what holds in every state that can be reached;
* `inv_posts`                the messages that are posted are the first of those that were accepted;
* `connection_is_a_channel`  a connection is a channel of messages.
-/

namespace Swnet
open CMem Runs Framing Channels

/-! ## the two ends -/

/-- a call of `tcp_write`; `k` and `ktcp` are what `malloc` and `TCP_INFO` answer to it -/
structure Message where
  k : Nat
  ktcp : Option Nat
  origin : Bytes
  serializer : Option Serializer
  payload : Bytes
  carries : Carries serializer origin payload

structure Peers (W : Wire) where
  /-- the end that writes: its template is `W` and headers are built -/
  H : Heap
  ncb : Ncb
  tst : ncb.tcp.template = W.tst
  build : ncb.attr.noBuild = false
  builds : ∀ n, 0 < n → n ≤ TCP_MAXIMUM_PACKET_SIZE → W.Builds n
  /-- the end that reads: `malloc` succeeds and the header is not delivered -/
  reader : Heap
  succeeds : reader.Succeeds
  attr : Attr
  bare : attr.fullyReceive = false
  garbage : Bytes
  size : garbage.length = TCP_BUFFER_SIZE

section
variable {W : Wire}

theorem Peers.nonneg (P : Peers W) : 0 ≤ P.ncb.tcp.template.cb_ := by
  rw [P.tst, W.cb_eq]
  exact Int.natCast_nonneg _

def Peers.sender (P : Peers W) : Sender Message where
  proto := .tcp
  front m := tcpWriteNode P.H m.k P.ncb true m.ktcp m.origin m.payload.length m.serializer
  fresh _ _ h := tcp_write_fresh P.nonneg h

/-! ## the state -/

/-- Behind the fields of the two ends: `texts` are the payloads of the nodes, `read` is how much
`recv(2)` has handed out, and `cuts` are the chunks. -/
structure Transfer where
  tx : Tx
  texts : Nat → Bytes
  read : Nat
  cuts : List Bytes
  rx : C (Int × Rx)

inductive TransferAct where
  | tx (a : TxAct Message)
  /-- `recv(2)` hands out `k` bytes, and `__tcp_rx` unpacks them -/
  | recv (k : Nat)

namespace Transfer

def init (P : Peers W) (sock : Sock) : Transfer :=
  ⟨Tx.init sock, fun _ => [], 0, [], .ok (0, Rx.fresh P.garbage P.attr W.tst)⟩

def chunk (c : Transfer) (k : Nat) : Bytes := (c.tx.kernel.drop c.read).take k

/-- a call that has come as far as a node has its payload noted -/
def noted (c : Transfer) (t : Tx) : TxAct Message → Nat → Bytes
  | .call _ m _ =>
    if t.count = c.tx.count then c.texts else Function.update c.texts c.tx.count m.payload
  | _ => c.texts

/-- `none`: it cannot happen, or the end that reads is gone after an error -/
def step (P : Peers W) (c : Transfer) : TransferAct → Option Transfer
  | .tx a => (c.tx.step P.sender a).map fun t => { c with tx := t, texts := c.noted t a }
  | .recv k =>
    if 0 < k ∧ k ≤ TCP_BUFFER_SIZE ∧ c.read + k ≤ c.tx.kernel.length then
      match c.rx with
      | .error _ => none
      | .ok p =>
        if p.1 < 0 then none
        else some { c with read := c.read + k, cuts := c.cuts ++ [c.chunk k]
                           rx := tcpRxOnce P.reader p.2 (.bytes (c.chunk k)) }
    else none

/-- the nodes of the calls that have returned a non-negative value, in order -/
def taken (c : Transfer) : List Nat := (c.tx.rets.filter fun r => decide (0 ≤ r.2)).map Prod.fst

/-- the messages that were accepted, and those that were posted -/
def view (c : Transfer) : Channel Bytes :=
  ⟨c.taken.map c.texts, match c.rx with
    | .ok p => p.2.posts
    | .error _ => []⟩

/-- what may happen: no call is let through beside another one, none fails half-way, and no chunk
ends inside the header of a packet that is larger than the packet buffer -/
def Smooth (W : Wire) (c : Transfer) : TransferAct → Prop
  | .tx a => Alone c.tx a ∧ NoFatal a
  | .recv k => HeadersWhole W (c.cuts ++ [c.chunk k])

/-- the packet of a node -/
structure Carried (W : Wire) (c : Transfer) (n : Nat) : Prop where
  built : ∃ hdr, hdr.length = W.cb ∧ W.parse hdr = some ((c.texts n).length : Int) ∧
    packet (c.tx.nodes n) = hdr ++ c.texts n
  ne_nil : c.texts n ≠ []
  le : (c.texts n).length ≤ TCP_MAXIMUM_PACKET_SIZE

structure Inv (P : Peers W) (c : Transfer) : Prop where
  books : Books P.sender c.tx
  ordered : Ordered c.tx
  line : Line c.tx
  carried : ∀ n, n < c.tx.count → Carried W c n
  chunks : Chunks c.cuts
  whole : HeadersWhole W c.cuts
  read : c.cuts.flatten = c.tx.kernel.take c.read
  le : c.read ≤ c.tx.kernel.length
  rx : ∃ r rx, c.rx = .ok (r, rx) ∧ 0 ≤ r ∧
    rxChunks P.reader (Rx.fresh P.garbage P.attr W.tst) c.cuts = .ok (0, rx)

end Transfer

/-! ## the packets -/

theorem built_isFrame {hdr p : Bytes} (hl : hdr.length = W.cb)
    (hp : W.parse hdr = some (p.length : Int)) (h0 : p ≠ [])
    (hm : p.length ≤ TCP_MAXIMUM_PACKET_SIZE) : W.rule.IsFrame (hdr ++ p) := by
  have hp1 := List.length_pos_iff.mpr h0
  have hsz : W.rule.size ((hdr ++ p).take W.rule.hd) = some p.length := by
    show (W.parse ((hdr ++ p).take W.cb)).bind accept = _
    rw [← hl, List.take_left, hp]
    show accept (p.length : Int) = _
    unfold accept
    rw [if_neg (by omega), Int.toNat_natCast]
  have hlen : (hdr ++ p).length = W.rule.hd + p.length := by
    rw [List.length_append, hl]
    rfl
  unfold Rule.IsFrame
  rw [next_ready W.rule (Nat.le_of_eq hlen.symm) hsz, ← hlen, List.take_length, List.drop_length]

/-- a call that comes as far as a node has a payload of a size that `tcp_write` accepts -/
theorem front_size {P : Peers W} {m : Message} {node : TxNode}
    (h : P.sender.front m = .ok (.ok node)) :
    m.payload ≠ [] ∧ m.payload.length ≤ TCP_MAXIMUM_PACKET_SIZE := by
  change tcpWriteNode P.H m.k P.ncb true m.ktcp m.origin m.payload.length m.serializer = _ at h
  unfold tcpWriteNode at h
  by_cases hg : (m.payload.length : Int) ≤ 0 ∨ (m.payload.length : Int) > TCP_MAXIMUM_PACKET_SIZE
  · rw [if_pos hg] at h
    cases h
  · refine ⟨?_, by omega⟩
    intro h0
    rw [h0] at hg
    exact hg (Or.inl (Int.le_refl 0))

theorem front_packet {P : Peers W} {m : Message} {node : TxNode} (behind : Bytes)
    (h : P.sender.front m = .ok (.ok node)) :
    ∃ hdr, hdr.length = W.cb ∧ W.parse hdr = some (m.payload.length : Int) ∧
      (node.data ++ behind).take node.wcb.toNat = hdr ++ m.payload := by
  obtain ⟨h0, hm⟩ := front_size h
  obtain ⟨hdr, h1, h2, rfl⟩ := writeNode_some
    (P.builds m.payload.length (List.length_pos_iff.mpr h0) hm) P.tst P.build m.carries h
  refine ⟨hdr, h1, h2, ?_⟩
  rw [Int.toNat_natCast, List.take_left]

/-- the nodes of a state and of the next one -/
theorem move_nodes {Req : Type} {L : Sender Req} {s s' : Tx} {a : TxAct Req} (M : Move L s a s') :
    (s'.count = s.count ∧ ∀ n, packet (s'.nodes n) = packet (s.nodes n)) ∨
      ∃ i q behind node, a = .call i q behind ∧ L.front q = .ok (.ok node) ∧
        s'.count = s.count + 1 ∧
        packet (s'.nodes s.count) = (node.data ++ behind).take node.wcb.toNat ∧
        ∀ n, n < s.count → packet (s'.nodes n) = packet (s.nodes n) := by
  cases M with
  | @call i q behind node hw hf hl =>
    refine Or.inr ⟨i, q, behind, node, rfl, hf, rfl, ?_, ?_⟩
    · show packet (Function.update s.nodes s.count _ s.count) = _
      rw [Function.update_self]
      rfl
    · intro n hn
      show packet (Function.update s.nodes s.count _ n) = _
      rw [Function.update_of_ne (Nat.ne_of_lt hn)]
  | sendSome | sendAll | wsendSome | wsendAll => exact Or.inl ⟨rfl, fun n => take_packet _ _ n⟩
  | _ => exact Or.inl ⟨rfl, fun _ => rfl⟩

/-- calls return one after the other -/
theorem move_rets {Req : Type} {L : Sender Req} {s s' : Tx} {a : TxAct Req} (M : Move L s a s') :
    s.rets <+: s'.rets := by
  cases M with
  | sendAll | sendFail | queueNo | queueYes => exact List.prefix_append _ _
  | _ => exact List.prefix_refl _

namespace Transfer
variable {P : Peers W} {c c' : Transfer}

theorem Carried.isFrame {n : Nat} (h : Carried W c n) :
    W.rule.IsFrame (packet (c.tx.nodes n)) := by
  obtain ⟨hdr, h1, h2, h3⟩ := h.built
  rw [h3]
  exact built_isFrame h1 h2 h.ne_nil h.le

theorem Carried.deliver {n : Nat} (h : Carried W c n) (P : Peers W) :
    deliver W P.attr (packet (c.tx.nodes n)) = c.texts n := by
  obtain ⟨hdr, h1, _, h3⟩ := h.built
  unfold Swnet.deliver
  rw [P.bare, if_neg (by decide), h3, ← h1, List.drop_left]

theorem Carried.congr {n : Nat} (h : Carried W c n) (hp : packet (c'.tx.nodes n) = packet (c.tx.nodes n))
    (ht : c'.texts n = c.texts n) : Carried W c' n := by
  obtain ⟨h1, h2, h3⟩ := h
  exact ⟨by rw [hp, ht]; exact h1, by rw [ht]; exact h2, by rw [ht]; exact h3⟩

theorem init_inv (P : Peers W) (sock : Sock) : Inv P (init P sock) where
  books := books_init sock
  ordered := ordered_init sock
  line := line_init sock
  carried n h := absurd h (Nat.not_lt_zero n)
  chunks c h := absurd h List.not_mem_nil
  whole := by
    intro i h
    have := h.ne_nil
    rw [show (init P sock).cuts = [] from rfl, List.drop_nil, List.flatten_nil] at this
    exact this rfl
  read := rfl
  le := Nat.zero_le _
  rx := ⟨0, _, rfl, Int.le_refl 0, rfl⟩

/-- the packets of the accepted calls -/
def frames (c : Transfer) : List Bytes := c.taken.map fun n => packet (c.tx.nodes n)

theorem frames_flatten (c : Transfer) : c.frames.flatten = accepted c.tx := by
  unfold frames taken accepted
  rw [List.map_map, List.flatMap_def]
  rfl

theorem Inv.taken_lt (I : Inv P c) {n : Nat} (h : n ∈ c.taken) : n < c.tx.count := by
  obtain ⟨r, hr, rfl⟩ := List.mem_map.mp h
  exact I.line.known r (List.mem_of_mem_filter hr)

theorem Inv.frames_ok (I : Inv P c) : ∀ f, f ∈ c.frames → W.rule.IsFrame f := by
  intro f hf
  obtain ⟨n, hn, rfl⟩ := List.mem_map.mp hf
  exact (I.carried n (I.taken_lt hn)).isFrame

theorem Inv.frames_deliver (I : Inv P c) :
    c.frames.map (Swnet.deliver W P.attr) = c.taken.map c.texts := by
  unfold frames
  rw [List.map_map]
  exact List.map_congr_left fun n hn => (I.carried n (I.taken_lt hn)).deliver P

/-- **How the bytes that were read are framed**: into the packets of the first accepted calls. -/
theorem Inv.split_read (I : Inv P c) {k : Nat} (hk : k ≤ c.tx.kernel.length) :
    (W.rule.split (c.tx.kernel.take k)).bad = false ∧
      (W.rule.split (c.tx.kernel.take k)).frames = c.frames.take (inside k c.frames) := by
  have hlen : (c.tx.kernel.take k).length = k := by rw [List.length_take]; omega
  have hpre : c.tx.kernel.take k <+: c.tx.kernel := List.take_prefix _ _
  rcases I.line.cases I.books with h | ⟨i, n, hp, _, h, hlt⟩
  · have hfl : c.tx.kernel.take k <+: c.frames.flatten := by
      rw [frames_flatten, ← h]
      exact hpre.trans (List.prefix_append _ _)
    rw [split_cutoff c.frames I.frames_ok hfl, hlen]
    exact ⟨rfl, rfl⟩
  · -- behind the accepted packets there is a part of one that does not end within what was read
    have hn := (I.books.held i n hp.node).1
    have hg := gone_length (I.books.nodes n hn) hlt
    have hfl : c.tx.kernel.take k <+: (c.frames ++ [packet (c.tx.nodes n)]).flatten := by
      rw [List.flatten_append, List.flatten_singleton, frames_flatten]
      rw [h] at hpre ⊢
      exact hpre.trans ((List.prefix_append_right_inj _).mpr (List.take_prefix _ _))
    have hframes : ∀ f, f ∈ c.frames ++ [packet (c.tx.nodes n)] → W.rule.IsFrame f := by
      intro f hf
      rcases List.mem_append.mp hf with hf | hf
      · exact I.frames_ok f hf
      · rw [List.mem_singleton.mp hf]
        exact (I.carried n hn).isFrame
    have hshort : k < c.frames.flatten.length + (packet (c.tx.nodes n)).length := by
      have h1 := congrArg List.length h
      rw [List.length_append] at h1
      rw [frames_flatten]
      omega
    rw [split_cutoff _ hframes hfl, hlen, inside_short hshort,
      List.take_append_of_le_length (inside_le _ _)]
    exact ⟨rfl, rfl⟩

/-- **What was posted**: of the accepted messages those that lie whole in what was read. -/
theorem Inv.posts (I : Inv P c) : ∃ r rx, c.rx = .ok (r, rx) ∧ 0 ≤ r ∧
    rx.posts = (c.taken.map c.texts).take (inside c.read c.frames) := by
  obtain ⟨r, rx, h1, h2, h3⟩ := I.rx
  obtain ⟨r', rx', h4, h5, _⟩ :=
    reassembles_of_headersWhole (A := P.attr) P.succeeds P.size I.chunks I.whole
  rw [h3] at h4
  cases h4
  refine ⟨r, rx, h1, h2, ?_⟩
  show rx.posts = _
  rw [h5]
  unfold reference
  rw [I.read, (I.split_read I.le).2, ← I.frames_deliver, List.map_take]

theorem Inv.got (I : Inv P c) :
    c.view.got = (c.taken.map c.texts).take (inside c.read c.frames) := by
  obtain ⟨r, rx, h1, _, h2⟩ := I.posts
  unfold view
  rw [h1]
  exact h2

/-! ## steps -/

/-- a step of the end that writes -/
theorem Inv.tx (I : Inv P c) {a : TxAct Message} {t : Tx} (hA : Alone c.tx a) (hF : NoFatal a)
    (h : c.tx.step P.sender a = some t) :
    Inv P { c with tx := t, texts := c.noted t a } ∧ c.tx.kernel <+: t.kernel := by
  have M := step_move I.books h
  have hker : c.tx.kernel <+: t.kernel := by
    cases M with
    | sendSome | sendAll | wsendSome | wsendAll => exact List.prefix_append _ _
    | _ => exact List.prefix_refl _
  obtain ⟨u, hu⟩ := hker
  refine ⟨⟨move_books I.books M, move_ordered rfl I.books I.ordered hA hF M,
    move_line rfl I.books I.ordered I.line hA hF M, ?_, I.chunks, I.whole, ?_, ?_, I.rx⟩, ⟨u, hu⟩⟩
  · intro n hn
    change n < t.count at hn
    rcases move_nodes M with ⟨hc, hp⟩ | ⟨i, m, behind, node, rfl, hf, hc, hnew, hp⟩
    · have ht : c.noted t a = c.texts := by
        cases a with
        | call i m behind => exact if_pos hc
        | _ => rfl
      refine (I.carried n (by omega)).congr (hp n) ?_
      show c.noted t a n = _
      rw [ht]
    · have ht : c.noted t (.call i m behind) = Function.update c.texts c.tx.count m.payload :=
        if_neg (by omega)
      by_cases hnc : n = c.tx.count
      · subst hnc
        have hself : c.noted t (.call i m behind) c.tx.count = m.payload := by
          rw [ht, Function.update_self]
        obtain ⟨h0, hm⟩ := front_size hf
        obtain ⟨hdr, h1, h2, h3⟩ := front_packet behind hf
        refine ⟨⟨hdr, h1, ?_, ?_⟩, ?_, ?_⟩
        · show W.parse hdr = some ((c.noted t (.call i m behind) c.tx.count).length : Int)
          rw [hself, h2]
        · show packet (t.nodes c.tx.count) = hdr ++ c.noted t (.call i m behind) c.tx.count
          rw [hself, hnew, h3]
        · show c.noted t (.call i m behind) c.tx.count ≠ []
          rwa [hself]
        · show (c.noted t (.call i m behind) c.tx.count).length ≤ _
          rwa [hself]
      · refine (I.carried n (by omega)).congr (hp n (by omega)) ?_
        show c.noted t (.call i m behind) n = _
        rw [ht, Function.update_of_ne hnc]
  · show c.cuts.flatten = t.kernel.take c.read
    rw [I.read, ← hu, List.take_append_of_le_length I.le]
  · show c.read ≤ t.kernel.length
    rw [← hu, List.length_append]
    have := I.le
    omega

theorem rxChunks_last {H : Heap} {rx0 rx rx' : Rx} {cs : List Bytes} {d : Bytes} {r : Int}
    (h1 : rxChunks H rx0 cs = .ok (0, rx)) (h2 : rxChunks H rx0 (cs ++ [d]) = .ok (r, rx'))
    (hr : 0 ≤ r) : ∃ q, tcpRxOnce H rx (.bytes d) = .ok (q, rx') ∧ 0 ≤ q ∧ r = 0 := by
  rw [rxChunks_append h1, rxChunks] at h2
  cases h3 : tcpRxOnce H rx (.bytes d) with
  | error e => rw [h3] at h2; cases h2
  | ok p =>
    obtain ⟨q, rx1⟩ := p
    rw [h3, ok_bind] at h2
    by_cases hp : q < 0
    · rw [if_pos hp] at h2
      cases h2
      omega
    · rw [if_neg hp] at h2
      cases h2
      exact ⟨q, rfl, by omega, rfl⟩

/-- a step of the end that reads -/
theorem Inv.recv (I : Inv P c) {k : Nat} (hW : HeadersWhole W (c.cuts ++ [c.chunk k]))
    (h : c.step P (.recv k) = some c') :
    Inv P c' ∧ c'.tx = c.tx ∧ c'.texts = c.texts ∧ c.read ≤ c'.read := by
  obtain ⟨r, rx, hrx, hr, hrun⟩ := I.rx
  unfold step at h
  dsimp only at h
  by_cases hg : 0 < k ∧ k ≤ TCP_BUFFER_SIZE ∧ c.read + k ≤ c.tx.kernel.length
  swap
  · rw [if_neg hg] at h
    cases h
  rw [if_pos hg, hrx] at h
  dsimp only at h
  rw [if_neg (by omega)] at h
  cases h
  obtain ⟨hk0, hkl, hle⟩ := hg
  have hlen : (c.chunk k).length = k := by
    unfold chunk
    rw [List.length_take, List.length_drop]
    omega
  have hread : (c.cuts ++ [c.chunk k]).flatten = c.tx.kernel.take (c.read + k) := by
    rw [List.flatten_append, List.flatten_singleton, I.read, List.take_add]
    rfl
  have hchunks : Chunks (c.cuts ++ [c.chunk k]) := by
    intro d hd
    rcases List.mem_append.mp hd with hd | hd
    · exact I.chunks d hd
    · rw [List.mem_singleton.mp hd]
      exact ⟨List.ne_nil_of_length_pos (by omega), by omega⟩
  obtain ⟨r', rx', h1, _, h3⟩ :=
    reassembles_of_headersWhole (A := P.attr) P.succeeds P.size hchunks hW
  have hr' : 0 ≤ r' := by
    unfold reference at h3
    rw [hread, (I.split_read hle).1] at h3
    exact Int.not_lt.mp fun h => Bool.false_ne_true (h3.mp h)
  obtain ⟨q, h4, h5, h6⟩ := rxChunks_last hrun h1 hr'
  rw [h6] at h1
  exact ⟨⟨I.books, I.ordered, I.line, fun n hn => (I.carried n hn).congr rfl rfl, hchunks, hW, hread,
    hle, q, rx', h4, h5, h1⟩, rfl, rfl, Nat.le_add_right _ _⟩

/-! ## the view from outside -/

theorem view_grows (I : Inv P c) (I' : Inv P c') (ht : c.taken <+: c'.taken)
    (hn : ∀ n, n < c.tx.count → c'.texts n = c.texts n ∧
      packet (c'.tx.nodes n) = packet (c.tx.nodes n)) (hr : c.read ≤ c'.read) :
    c.view.sent <+: c'.view.sent ∧ c.view.got <+: c'.view.got := by
  obtain ⟨u, hu⟩ := ht
  have hsent : c'.taken.map c'.texts = c.taken.map c.texts ++ u.map c'.texts := by
    rw [← hu, List.map_append]
    congr 1
    exact List.map_congr_left fun n h => (hn n (I.taken_lt h)).1
  have hframes : c'.frames = c.frames ++ u.map fun n => packet (c'.tx.nodes n) := by
    unfold frames
    rw [← hu, List.map_append]
    congr 1
    exact List.map_congr_left fun n h => (hn n (I.taken_lt h)).2
  refine ⟨⟨_, hsent.symm⟩, ?_⟩
  have hle : inside c.read c.frames ≤ (c.taken.map c.texts).length := by
    have h1 := inside_le c.read c.frames
    unfold frames at h1 ⊢
    rwa [List.length_map] at h1 ⊢
  have hlonger := @List.take_append_of_le_length _ _ (u.map c'.texts) _ hle
  rw [I.got, I'.got, ← hlonger, ← hsent]
  refine List.take_prefix_take_left ?_
  rw [hframes]
  exact inside_mono hr _ _

theorem views (P : Peers W) : Views (step P) (Inv P) (Smooth W) view where
  fine c I := by
    show c.view.got <+: c.taken.map c.texts
    rw [I.got]
    exact List.take_prefix _ _
  step c a c' I hC h := by
    cases a with
    | tx a =>
      obtain ⟨t, ht, rfl⟩ := Option.map_eq_some_iff.mp h
      have M := step_move I.books ht
      have I' := (I.tx hC.1 hC.2 ht).1
      refine ⟨I', view_grows I I' ?_ ?_ (Nat.le_refl _)⟩
      · exact ((move_rets M).filter _).map _
      · intro n hn
        rcases move_nodes M with ⟨hc, hp⟩ | ⟨i, m, behind, node, rfl, _, hc, _, hp⟩
        · refine ⟨?_, hp n⟩
          show c.noted t a n = _
          cases a with
          | call i m behind => exact congrFun (if_pos hc) n
          | _ => rfl
        · refine ⟨?_, hp n hn⟩
          show c.noted t (.call i m behind) n = _
          rw [show c.noted t (.call i m behind) = Function.update c.texts c.tx.count m.payload from
            if_neg (by omega), Function.update_of_ne (Nat.ne_of_lt hn)]
    | recv k =>
      obtain ⟨I', htx, htexts, hr⟩ := I.recv hC h
      refine ⟨I', view_grows I I' ?_ ?_ hr⟩
      · have hsame : c'.taken = c.taken := by
          unfold taken
          rw [htx]
        exact ⟨[], by rw [hsame, List.append_nil]⟩
      · intro n _
        rw [htx, htexts]
        exact ⟨rfl, rfl⟩

/-- everything that was accepted is in the kernel, and all of it was read -/
def Drained (c : Transfer) : Prop :=
  c.tx.fifo.head = [] ∧ (∀ i, c.tx.writer i = .idle) ∧ c.read = c.tx.kernel.length

theorem Inv.drained (I : Inv P c) (h : c.Drained) : c.view.got = c.view.sent := by
  obtain ⟨hh, hw, hr⟩ := h
  have hker : c.tx.kernel = accepted c.tx := by
    refine I.line.none hh fun i n hp => ?_
    rcases hp with hp | hp <;> rw [hw i] at hp <;> cases hp
  rw [I.got, hr, hker, ← frames_flatten, inside_all]
  refine List.take_of_length_le ?_
  unfold frames
  rw [List.length_map, List.length_map]

/-- what the runs of a connection come to -/
theorem run_channel {sock : Sock} {as : List TransferAct}
    (hC : Meets (step P) (Smooth W) (init P sock) as) (h : run (step P) (init P sock) as = some c) :
    (∃ r rx, c.rx = .ok (r, rx) ∧ 0 ≤ r) ∧
      (∃ bs, run Channel.step .empty bs = some c.view) ∧ (c.Drained → c.view.got = c.view.sent) := by
  obtain ⟨I, hbs⟩ := (views P).run (init_inv P sock) hC h
  obtain ⟨r, rx, h1, h2, _⟩ := I.posts
  exact ⟨⟨r, rx, h1, h2⟩, hbs, I.drained⟩

/-! ## one thread, small messages -/

/-- no cut falls inside the header of a large packet where there is none -/
theorem headersWhole_small {fs cs : List Bytes} (hf : ∀ f, f ∈ fs → SmallFrame W f)
    (hpre : cs.flatten <+: fs.flatten) : HeadersWhole W cs := by
  rintro i ⟨_, _, _, n, h4, h5, h6⟩
  have hF : ∀ f, f ∈ fs → W.rule.IsFrame f := fun f hfm => (hf f hfm).1
  have hst : (cs.take i).flatten ++ (cs.drop i).flatten <+: fs.flatten := by
    rwa [← List.flatten_append, List.take_append_drop]
  have hsp := split_cutoff fs hF ((List.prefix_append _ _).trans hst)
  have hfl := split_flatten_rest W.rule (cs.take i).flatten
  have hsmall := header_small (h := (W.rule.split (cs.take i).flatten).rest ++ (cs.drop i).flatten)
    (fs.drop (inside (cs.take i).flatten.length fs))
    (fun f hfm => hf f (List.mem_of_mem_drop hfm)) (by
      have e : fs.flatten = (fs.take (inside (cs.take i).flatten.length fs)).flatten
          ++ (fs.drop (inside (cs.take i).flatten.length fs)).flatten := by
        rw [← List.flatten_append, List.take_append_drop]
      rw [hsp] at hfl ⊢
      rw [← hfl, List.append_assoc, e] at hst
      exact (List.prefix_append_right_inj _).mp hst) (by omega) h4
  omega

/-- thread `i` is the only one that writes, and its packets fit into the packet buffer -/
def Plain (W : Wire) (i : Nat) : TransferAct → Prop
  | .tx (.call j m _) => j = i ∧ m.payload.length + W.cb ≤ TCP_BUFFER_SIZE
  | .tx a => OnlyWriter i a
  | .recv _ => True

theorem Plain.only {i : Nat} {a : TxAct Message} (h : Plain W i (.tx a)) : OnlyWriter i a := by
  cases a with
  | call j m behind => exact h.1
  | _ => exact h

/-- the packets of the kernel, the last of them perhaps not whole -/
theorem Inv.kernel_frames (I : Inv P c) : ∃ fs : List Bytes, (∀ f, f ∈ fs → ∃ n, n < c.tx.count ∧
    f = packet (c.tx.nodes n)) ∧ c.tx.kernel <+: fs.flatten := by
  have hframes : ∀ f, f ∈ c.frames → ∃ n, n < c.tx.count ∧ f = packet (c.tx.nodes n) := by
    intro f hf
    obtain ⟨n, hn, rfl⟩ := List.mem_map.mp hf
    exact ⟨n, I.taken_lt hn, rfl⟩
  rcases I.line.cases I.books with h | ⟨i, n, hp, _, h, _⟩
  · exact ⟨c.frames, hframes, by rw [frames_flatten, ← h]; exact List.prefix_append _ _⟩
  · refine ⟨c.frames ++ [packet (c.tx.nodes n)], ?_, ?_⟩
    · intro f hf
      rcases List.mem_append.mp hf with hf | hf
      · exact hframes f hf
      · exact ⟨n, (I.books.held i n hp.node).1, List.mem_singleton.mp hf⟩
    · rw [h, List.flatten_append, List.flatten_singleton, frames_flatten]
      exact (List.prefix_append_right_inj _).mpr (List.take_prefix _ _)

/-- all the packets fit into the packet buffer -/
def Small (c : Transfer) : Prop :=
  ∀ n, n < c.tx.count → (packet (c.tx.nodes n)).length ≤ TCP_BUFFER_SIZE

theorem Inv.whole_small (I : Inv P c) (hS : Small c) (k : Nat) :
    HeadersWhole W (c.cuts ++ [c.chunk k]) := by
  obtain ⟨fs, hf, hpre⟩ := I.kernel_frames
  have hsmall : ∀ f, f ∈ fs → SmallFrame W f := by
    intro f hfm
    obtain ⟨n, hn, rfl⟩ := hf f hfm
    exact ⟨(I.carried n hn).isFrame, hS n hn⟩
  refine headersWhole_small hsmall (List.IsPrefix.trans ?_ hpre)
  rw [List.flatten_append, List.flatten_singleton, I.read]
  unfold chunk
  rw [← List.take_add]
  exact List.take_prefix _ _

theorem run_smooth {sock : Sock} {i : Nat} {as : List TransferAct} (ha : ∀ a, a ∈ as → Plain W i a)
    (h : run (step P) (init P sock) as = some c) : Meets (step P) (Smooth W) (init P sock) as := by
  refine meets_of_invariant (I := fun c => Inv P c ∧ Seq i c.tx ∧ Small c)
    (D := fun _ a => Plain W i a) (step P) ?_ h (meets_all _ ha)
    ⟨init_inv P sock, run_seq (L := P.sender) rfl (List.forall_mem_nil _) rfl,
      fun n hn => absurd hn (Nat.not_lt_zero n)⟩
  rintro c a c' ⟨I, Q, hS⟩ hP h
  cases a with
  | tx a =>
    have h' := h
    obtain ⟨t, ht, rfl⟩ := Option.map_eq_some_iff.mp h'
    have M := step_move I.books ht
    have hF : NoFatal a := by
      have hO := hP.only
      cases a <;> first | exact hO | trivial
    have hA := Q.alone hP.only M
    refine ⟨⟨(I.tx hA hF ht).1, move_seq rfl I.books Q hP.only M, ?_⟩, hA, hF⟩
    intro n hn
    change n < t.count at hn
    show (packet (t.nodes n)).length ≤ _
    rcases move_nodes M with ⟨hc, hp⟩ | ⟨j, m, behind, node, rfl, hf, hc, hnew, hp⟩
    · rw [hp n]
      exact hS n (by omega)
    · by_cases hnc : n = c.tx.count
      · subst hnc
        obtain ⟨hdr, h1, _, h3⟩ := front_packet behind hf
        have hsize : m.payload.length + W.cb ≤ TCP_BUFFER_SIZE := hP.2
        rw [hnew, h3, List.length_append, h1]
        omega
      · rw [hp n (by omega)]
        exact hS n (by omega)
  | recv k =>
    have hW := I.whole_small hS k
    obtain ⟨I', htx, _, _⟩ := I.recv hW h
    refine ⟨⟨I', by rw [htx]; exact Q, ?_⟩, hW⟩
    unfold Small
    rw [htx]
    exact hS

end Transfer

end

/-- **A connection is a channel of messages.**  Whatever the threads, the pool and the network do: no
chunk makes the end that reads fail, and a run from one state to the next is a run of the channel
that takes the messages of the calls in the order of their returns.  What was accepted is posted once
it has come over. -/
theorem connection_is_a_channel (W : Wire) (P : Peers W) (sock : Sock) (as : List TransferAct)
    (hC : Meets (Transfer.step P) (Transfer.Smooth W) (Transfer.init P sock) as) (c : Transfer)
    (h : run (Transfer.step P) (Transfer.init P sock) as = some c) :
    (∃ r rx, c.rx = .ok (r, rx) ∧ 0 ≤ r) ∧
      (∃ bs, run Channel.step .empty bs = some c.view) ∧ (c.Drained → c.view.got = c.view.sent) :=
  Transfer.run_channel hC h

/-- **With one thread that writes small messages nothing else is needed**: the messages are posted in
the order of the calls, each once, for every way in which the pool and the network take turns. -/
theorem plain_connection (W : Wire) (P : Peers W) (sock : Sock) (i : Nat) (as : List TransferAct)
    (ha : ∀ a, a ∈ as → Transfer.Plain W i a) (c : Transfer)
    (h : run (Transfer.step P) (Transfer.init P sock) as = some c) :
    (∃ r rx, c.rx = .ok (r, rx) ∧ 0 ≤ r) ∧ c.view.got <+: c.view.sent ∧
      (c.Drained → c.view.got = c.view.sent) := by
  obtain ⟨h1, ⟨bs, h2⟩, h3⟩ := Transfer.run_channel (Transfer.run_smooth ha h) h
  exact ⟨h1, run_fine h2, h3⟩

/-- two links with four bytes of length in front of each message -/
def Peers.len4 : Peers Wire.len4 where
  H := Heap.zeros
  ncb := (Rx.fresh [] Attr.clear Wire.len4.tst).ncb
  tst := rfl
  build := rfl
  builds _ _ hn := len4_builds hn
  reader := Heap.zeros
  succeeds := Heap.zeros_succeeds
  attr := Attr.clear
  bare := rfl
  garbage := List.replicate TCP_BUFFER_SIZE 0
  size := List.length_replicate

/-- a message goes out in two parts, the second by way of the queue, and is read -/
def oneMessage : List TransferAct :=
  [.tx (.call 0 ⟨0, none, [7, 8], none, [7, 8], rfl⟩ []), .tx (.test 0), .tx (.send 0 (.bytes 3)),
    .tx (.send 0 (.err EAGAIN)), .tx (.queue 0 0), .tx .room, .tx .task, .tx .exec, .tx (.top none),
    .tx (.wsend (.bytes 3)), .tx (.pop 0), .recv 6]

theorem oneMessage_plain : ∀ a, a ∈ oneMessage → Transfer.Plain Wire.len4 0 a := by
  intro a ha
  simp only [oneMessage, List.mem_cons, List.not_mem_nil, or_false] at ha
  rcases ha with rfl | rfl | rfl | rfl | rfl | rfl | rfl | rfl | rfl | rfl | rfl | rfl
  · exact ⟨rfl, by decide⟩
  · trivial
  · exact Nat.succ_pos 2
  · exact Or.inr rfl
  · rfl
  all_goals trivial

theorem oneMessage_some :
    (run (Transfer.step Peers.len4) (Transfer.init Peers.len4 Sock.established) oneMessage).isSome = true :=
  rfl

theorem connection_is_a_channel_oneMessage :
    ∃ c, run (Transfer.step Peers.len4) (Transfer.init Peers.len4 Sock.established) oneMessage = some c ∧
      (∃ r rx, c.rx = .ok (r, rx) ∧ 0 ≤ r) ∧
      (∃ bs, run Channel.step .empty bs = some c.view) ∧ (c.Drained → c.view.got = c.view.sent) := by
  obtain ⟨c, hc⟩ := Option.isSome_iff_exists.mp oneMessage_some
  exact ⟨c, hc, connection_is_a_channel _ _ _ _ (Transfer.run_smooth oneMessage_plain hc) c hc⟩

theorem plain_connection_oneMessage :
    ∃ c, run (Transfer.step Peers.len4) (Transfer.init Peers.len4 Sock.established) oneMessage = some c ∧
      (∃ r rx, c.rx = .ok (r, rx) ∧ 0 ≤ r) ∧ c.view.got <+: c.view.sent ∧
      (c.Drained → c.view.got = c.view.sent) := by
  obtain ⟨c, hc⟩ := Option.isSome_iff_exists.mp oneMessage_some
  exact ⟨c, hc, plain_connection _ _ _ 0 _ oneMessage_plain c hc⟩

end Swnet

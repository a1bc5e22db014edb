import Swnet.TxSteps

/-!
# One call of `tcp_write`

The whole of `tcp_write`, from its arguments and everything that it is answered on the way, and the
life of the node that it builds.

* `tcpTxnLoop`        the loop of `tcp_txn`;
* `tcpWrite`          the call;
* `failsClean_iff`    when a failed call leaves no part of its packet behind;
* `sendsExactly_iff`  when `send(2)` is given the packet and nothing else.
-/

namespace Swnet
open CMem

/-! ## the loop -/

/-- the kernel takes no more than it is asked to -/
def TxNode.fits (node : TxNode) : Sent → Bool
  | .bytes k => decide (node.offset + k ≤ node.wcb)
  | .err _ => true

/-- The loop of `tcp_txn` with all the answers of `send(2)` in it: the node as it is left, and the
return value.  `none`: these cannot be the answers. -/
def tcpTxnLoop : TxNode → List Sent → Option (TxNode × Int)
  | node, [] => (txnHead node).map fun v => (node, v)
  | node, r :: rs =>
    if txnHead node = none ∧ node.fits r = true then
      match tcpTxn node r with
      | (node', none) => tcpTxnLoop node' rs
      | (node', some v) => if rs = [] then some (node', v) else none
    else none

/-- how many bytes the answers take -/
def taken : List Sent → Nat
  | [] => 0
  | .bytes k :: rs => k + taken rs
  | .err _ :: rs => taken rs

/-! ## the call -/

/-- What a call finds and is answered.  `refr` is the value of `__tcprefr`, `blocking` the answer of
`fifo_is_blocking`; `fifo` and `sock` are what `fifo_queue` finds, `id` is how it knows the node, and
`e` is the error number of its `epoll_ctl(2)`. -/
structure WriteEnv where
  refr : Int
  k : Nat
  ready : Bool
  ktcp : Option Nat
  blocking : Int
  sends : List Sent
  fifo : Fifo
  ok : fifo.Ok
  sock : Sock
  id : Nat
  e : Nat

/-- How a call ends.  `node` is the node as the queue gets it or `free` does; `closed`: whether the
call has ordered the link closed. -/
structure WriteEnd where
  ret : Int
  node : Option TxNode
  fifo : Fifo
  sock : Sock
  closed : Bool

/-- the end behind `fifo_queue` -/
def WriteEnv.queue (env : WriteEnv) (node : TxNode) : WriteEnd :=
  let p := fifoQueue env.fifo env.sock env.id env.e
  ⟨if p.1 < 0 then p.1 else 0, some node, p.2.1, p.2.2, false⟩

/-- an end in front of `fifo_queue` -/
def WriteEnv.stop (env : WriteEnv) (v : Int) (node : Option TxNode) : WriteEnd :=
  ⟨v, node, env.fifo, env.sock, false⟩

/-- `tcp_write` behind its node -/
def tcpWriteSend (env : WriteEnv) (node : TxNode) : Option WriteEnd :=
  if env.blocking = 0 then
    match tcpTxnLoop node env.sends with
    | none => none
    | some (node', v) => if v = -EAGAIN then some (env.queue node') else some (env.stop v (some node'))
  else if env.sends = [] then some (env.queue node) else none

/-- `tcp_write` -/
def tcpWrite (H : Heap) (ncb : Ncb) (env : WriteEnv) (origin : Bytes) (cb : Int)
    (serializer : Option Serializer) : C (Option WriteEnd) :=
  let early (v : Int) : Option WriteEnd := if env.sends = [] then some (env.stop v none) else none
  if cb ≤ 0 ∨ cb > TCP_MAXIMUM_PACKET_SIZE then .ok (early (-EINVAL))
  else if env.refr < 0 then .ok (early env.refr)
  else do
    match ← tcpWriteNode H env.k ncb env.ready env.ktcp origin cb serializer with
    | .error v => return early v
    | .ok node => return tcpWriteSend env node

/-! ## a failed call -/

/-- a call that fails has given the kernel no byte, or orders the link closed -/
def FailsClean (env : WriteEnv) (w : WriteEnd) : Prop :=
  w.ret < 0 → taken env.sends = 0 ∨ w.closed = true

/-- `fifo_queue` refuses: the queue is full, or `epoll_ctl(2)` fails -/
def WriteEnv.Refused (env : WriteEnv) : Prop :=
  env.fifo.size ≥ MAXIMUM_FIFO_SIZE ∨ (env.fifo.blocking = 0 ∧ env.e ≠ 0)

/-- no answer of `send(2)` ends the link, and after `EAGAIN` the queue takes the node -/
def WriteEnv.Unbroken (env : WriteEnv) : Prop :=
  (∀ r, r ∈ env.sends → r.Mild) ∧ (.err EAGAIN ∈ env.sends → ¬ env.Refused)

section
variable {node node' : TxNode} {rs : List Sent} {v : Int} {env : WriteEnv} {w : WriteEnd}

/-- the three ways out of `tcp_txn` -/
def TxnEnds (node : TxNode) (rs : List Sent) (v : Int) : Prop :=
  (v = node.wcb ∧ node.wcb ≤ node.offset + taken rs ∧ (∀ r, r ∈ rs → r.Mild) ∧ .err EAGAIN ∉ rs) ∨
    (v = -EAGAIN ∧ (∀ r, r ∈ rs → r.Mild) ∧ .err EAGAIN ∈ rs) ∨
    (v = -1 ∧ ∃ r, r ∈ rs ∧ ¬ r.Mild)

/-- one more round in front -/
theorem TxnEnds.more {r : Sent} (h : TxnEnds node' rs v) (hm : r.Mild) (hr : .err EAGAIN ≠ r)
    (hw : node'.wcb = node.wcb) (ho : node'.offset = node.offset + taken [r]) :
    TxnEnds node (r :: rs) v := by
  have ht : taken (r :: rs) = taken [r] + taken rs := by cases r <;> simp [taken]
  have hall : (∀ x, x ∈ rs → x.Mild) → ∀ x, x ∈ r :: rs → x.Mild := by
    intro h x hx
    rcases List.mem_cons.mp hx with rfl | hx
    · exact hm
    · exact h x hx
  rcases h with ⟨h1, h2, h3, h4⟩ | ⟨h1, h3, h4⟩ | ⟨h1, x, h3, h4⟩
  · refine Or.inl ⟨by rw [h1, hw], ?_, hall h3, ?_⟩
    · rw [hw, ho] at h2
      rw [ht]
      omega
    · simp only [List.mem_cons, not_or]
      exact ⟨hr, h4⟩
  · exact Or.inr (Or.inl ⟨h1, hall h3, List.mem_cons_of_mem _ h4⟩)
  · exact Or.inr (Or.inr ⟨h1, x, List.mem_cons_of_mem _ h3, h4⟩)

/-- what one round does -/
theorem round_cases (node : TxNode) (r : Sent) :
    (r.Mild ∧ .err EAGAIN ≠ r ∧ ∃ node', node'.wcb = node.wcb ∧
        node'.offset = node.offset + taken [r] ∧ tcpTxn node r = (node', txnHead node')) ∨
      (r = .err EINTR ∧ tcpTxn node r = (node, none)) ∨
      (r = .err EAGAIN ∧ tcpTxn node r = (node, some (-EAGAIN))) ∨
      (¬ r.Mild ∧ tcpTxn node r = (node, some (-1))) := by
  cases r with
  | bytes k =>
    by_cases hk : k = 0
    · subst hk
      exact Or.inr (Or.inr (Or.inr ⟨Nat.lt_irrefl 0, rfl⟩))
    · exact Or.inl ⟨Nat.pos_of_ne_zero hk, by simp, node.advance k, rfl, rfl, if_neg hk⟩
  | err e =>
    by_cases ha : e = EAGAIN
    · subst ha
      exact Or.inr (Or.inr (Or.inl ⟨rfl, rfl⟩))
    · by_cases hi : e = EINTR
      · subst hi
        exact Or.inr (Or.inl ⟨rfl, rfl⟩)
      · refine Or.inr (Or.inr (Or.inr ⟨fun hm => hm.elim hi ha, ?_⟩))
        exact (if_neg ha).trans (if_neg hi)

/-- `send(2)` is called only with something to send -/
theorem txnLoop_begun (h : tcpTxnLoop node rs = some (node', v)) (hrs : rs ≠ []) :
    node.offset < node.wcb := by
  cases rs with
  | nil => exact absurd rfl hrs
  | cons r rs =>
    unfold tcpTxnLoop txnHead at h
    by_contra hn
    rw [if_neg hn, if_neg (fun hg => by cases hg.1)] at h
    cases h

theorem txnLoop_ends (h : tcpTxnLoop node rs = some (node', v)) : TxnEnds node rs v := by
  induction rs generalizing node with
  | nil =>
    unfold tcpTxnLoop txnHead at h
    split at h
    · cases h
    · cases h
      refine Or.inl ⟨rfl, ?_, by simp, by simp⟩
      simp only [taken]
      omega
  | cons r rs ih =>
    unfold tcpTxnLoop at h
    split at h
    case isFalse => cases h
    case isTrue hg =>
      rcases round_cases node r with ⟨hm, hr, n, hw, ho, e⟩ | ⟨rfl, e⟩ | ⟨rfl, e⟩ | ⟨hm, e⟩
      · rw [e] at h
        cases hh : txnHead n with
        | none =>
          rw [hh] at h
          exact (ih h).more hm hr hw ho
        | some u =>
          -- the packet is sent
          rw [hh] at h
          unfold txnHead at hh
          dsimp only at h
          split at hh
          · cases hh
          · split at h
            · cases h
              cases hh
              subst rs
              have hend : TxnEnds node' [] node'.wcb := by
                refine Or.inl ⟨rfl, ?_, by simp, by simp⟩
                simp only [taken]
                omega
              exact hend.more hm hr hw ho
            · cases h
      · rw [e] at h
        exact (ih h).more (Or.inl rfl) (by decide) rfl (by simp [taken])
      · rw [e] at h
        dsimp only at h
        split at h
        · cases h
          refine Or.inr (Or.inl ⟨rfl, ?_, List.mem_cons_self ..⟩)
          intro x hx
          subst rs
          rw [List.mem_singleton.mp hx]
          exact Or.inr rfl
        · cases h
      · rw [e] at h
        dsimp only at h
        split at h
        · cases h
          exact Or.inr (Or.inr ⟨rfl, r, List.mem_cons_self .., hm⟩)
        · cases h

/-- when `fifo_queue` answers with an error -/
theorem queue_refused (env : WriteEnv) :
    (fifoQueue env.fifo env.sock env.id env.e).1 < 0 ↔ env.Refused := by
  have hs := env.ok.size
  unfold WriteEnv.Refused fifoQueue
  by_cases hf : env.fifo.size ≥ MAXIMUM_FIFO_SIZE
  · rw [if_pos hf]
    have hn : -EBUSY < 0 := by decide
    exact ⟨fun _ => Or.inl hf, fun _ => hn⟩
  rw [if_neg hf]
  by_cases hb : env.fifo.blocking = 0
  · rw [if_pos hb]
    unfold ioModify
    by_cases he : env.e = 0
    · rw [if_pos he]
      dsimp only
      rw [if_neg (Int.lt_irrefl 0)]
      refine ⟨fun h => ?_, fun h => ?_⟩
      · dsimp only at h
        omega
      · rcases h with h | h
        · exact absurd h hf
        · exact absurd he h.2
    · rw [if_neg he]
      dsimp only
      have hn : -(env.e : Int) < 0 := by omega
      rw [if_pos hn]
      exact ⟨fun _ => Or.inr ⟨hb, he⟩, fun _ => hn⟩
  · rw [if_neg hb]
    refine ⟨fun h => ?_, fun h => ?_⟩
    · dsimp only at h
      omega
    · rcases h with h | h
      · exact absurd h hf
      · exact absurd h.1 hb

theorem queue_ret (env : WriteEnv) (node : TxNode) : (env.queue node).ret < 0 ↔ env.Refused := by
  rw [← queue_refused]
  unfold WriteEnv.queue
  dsimp only
  split
  · rfl
  · rename_i h
    exact ⟨fun h0 => absurd h0 (Int.lt_irrefl 0), fun h0 => absurd h0 h⟩

/-- `send(2)` takes bytes only if it is called -/
theorem taken_pos (h : 0 < taken rs) : rs ≠ [] := by
  intro he
  rw [he] at h
  exact Nat.lt_irrefl 0 h

/-- the end of a call that comes to its node -/
theorem writeSend_failsClean (ho : node.offset = 0) (h : tcpWriteSend env node = some w) :
    FailsClean env w ↔ (0 < taken env.sends → env.Unbroken) := by
  have hor : ∀ w : WriteEnd, w.closed = false → 0 < taken env.sends →
      (FailsClean env w ↔ ¬ w.ret < 0) := by
    intro w hc ht
    unfold FailsClean
    rw [hc]
    constructor
    · intro hF hr
      rcases hF hr with h0 | h0
      · omega
      · cases h0
    · intro hr hn
      exact absurd hn hr
  by_cases ht : 0 < taken env.sends
  case neg =>
    refine ⟨fun _ h0 => absurd h0 ht, fun _ _ => Or.inl (Nat.eq_zero_of_not_pos ht)⟩
  unfold tcpWriteSend at h
  split at h
  case isFalse =>
    split at h
    · rename_i hs
      exact absurd hs (taken_pos ht)
    · cases h
  case isTrue hb =>
    cases hl : tcpTxnLoop node env.sends with
    | none =>
      rw [hl] at h
      cases h
    | some p =>
      obtain ⟨node', v⟩ := p
      rw [hl] at h
      dsimp only at h
      rcases txnLoop_ends hl with ⟨rfl, _, h3, h4⟩ | ⟨rfl, h3, h4⟩ | ⟨rfl, r, h3, h4⟩
      · -- the packet is sent
        have hp := txnLoop_begun hl (taken_pos ht)
        have hne : node.wcb ≠ -EAGAIN := by
          have hE : EAGAIN = 11 := rfl
          omega
        rw [if_neg hne] at h
        cases h
        rw [hor _ rfl ht]
        refine ⟨fun _ _ => ⟨h3, fun ha => absurd ha h4⟩, fun _ hn => ?_⟩
        have hn' : node.wcb < 0 := hn
        omega
      · -- the rest goes to the queue
        rw [if_pos rfl] at h
        cases h
        rw [hor _ rfl ht, queue_ret]
        exact ⟨fun hr _ => ⟨h3, fun _ => hr⟩, fun hU => (hU ht).2 h4⟩
      · -- the link is of no more use
        rw [if_neg (by decide)] at h
        cases h
        rw [hor _ rfl ht]
        refine ⟨fun hr => absurd (show (-1 : Int) < 0 by decide) hr, fun hU _ => ?_⟩
        exact h4 ((hU ht).1 r h3)

/-- **When a failed `tcp_write` leaves no stump.** -/
theorem failsClean_iff (H : Heap) (ncb : Ncb) (env : WriteEnv) (origin : Bytes)
    (cb : Int) (serializer : Option Serializer) (w : WriteEnd)
    (h : tcpWrite H ncb env origin cb serializer = .ok (some w)) :
    FailsClean env w ↔ (0 < taken env.sends → env.Unbroken) := by
  -- an end in front of the node
  have hearly : ∀ v : Int, (if env.sends = [] then some (env.stop v none) else none) = some w →
      (FailsClean env w ↔ (0 < taken env.sends → env.Unbroken)) := by
    intro v hv
    split at hv
    · rename_i hs
      have h0 : taken env.sends = 0 := by rw [hs]; rfl
      rw [h0]
      exact ⟨fun _ ht => absurd ht (Nat.lt_irrefl 0), fun _ _ => Or.inl h0⟩
    · cases hv
  unfold tcpWrite at h
  dsimp only at h
  split at h
  · exact hearly _ (Except.ok.inj h)
  split at h
  · exact hearly _ (Except.ok.inj h)
  cases hn : tcpWriteNode H env.k ncb env.ready env.ktcp origin cb serializer with
  | error e =>
    rw [hn] at h
    cases h
  | ok r =>
    rw [hn, ok_bind] at h
    cases r with
    | error v => exact hearly v (Except.ok.inj h)
    | ok node => exact writeSend_failsClean (writeNode_shape hn).2.2.2 (Except.ok.inj h)

end

/-- an established link with nothing queued; `send(2)` answers `sends` -/
def WriteEnv.plain (sends : List Sent) : WriteEnv :=
  ⟨0, 0, true, some TCP_ESTABLISHED, 0, sends, Fifo.init, fifo_init_ok, Sock.established, 0, 0⟩

/-- a template of `cb_` bytes without functions -/
def Ncb.bare (cb_ : Int) : Ncb := (Rx.fresh [] Attr.clear ⟨cb_, none, none⟩).ncb

theorem failsClean_iff_sent :
    ∃ w, tcpWrite Heap.zeros (Ncb.bare 0) (WriteEnv.plain [.bytes 1, .bytes 1]) [5, 6] 2 none
        = .ok (some w) ∧
      (FailsClean (WriteEnv.plain [.bytes 1, .bytes 1]) w ↔
        (0 < taken [.bytes 1, .bytes 1] → (WriteEnv.plain [.bytes 1, .bytes 1]).Unbroken)) :=
  ⟨_, rfl, failsClean_iff Heap.zeros (Ncb.bare 0) (WriteEnv.plain [.bytes 1, .bytes 1]) [5, 6] 2 none
    _ rfl⟩

/-- half of the packet is sent, then there is no memory for the other half -/
theorem stump_left :
    ∃ w, tcpWrite Heap.zeros (Ncb.bare 0) (WriteEnv.plain [.bytes 1, .err ENOMEM]) [5, 6] 2 none
        = .ok (some w) ∧
      w.ret = -1 ∧ w.closed = false ∧ ¬ FailsClean (WriteEnv.plain [.bytes 1, .err ENOMEM]) w := by
  refine ⟨_, rfl, rfl, rfl, fun h => ?_⟩
  rcases h (show (-1 : Int) < 0 by decide) with h0 | h0
  · cases h0
  · cases h0

/-! ## what `send(2)` is given -/

/-- the answers in the life of a node, in `tcp_write` and from the queue: `send(2)` is called while
something is left, and takes no more than it is asked to -/
def Answers : TxNode → List Sent → Prop
  | _, [] => True
  | node, r :: rs => node.offset < node.wcb ∧ node.fits r = true ∧ Answers (tcpTxn node r).1 rs

/-- what `send(2)` is asked for: from where in the buffer, and how many bytes -/
def asks : TxNode → List Sent → List (Int × Int)
  | _, [] => []
  | node, r :: rs => (node.offset, node.wcb - node.offset) :: asks (tcpTxn node r).1 rs

/-- the bytes that it takes -/
def given : TxNode → List Sent → Bytes
  | _, [] => []
  | node, .bytes k :: rs => piece node k ++ given (tcpTxn node (.bytes k)).1 rs
  | node, .err e :: rs => given (tcpTxn node (.err e)).1 rs

/-- what the header is: `hdr` is what the builder writes, if it is asked, whatever was in the buffer -/
def Ncb.Heads (ncb : Ncb) (n : Int) (hdr : Bytes) : Prop :=
  match (if ncb.attr.noBuild then none else ncb.tcp.template.builder_) with
  | none => hdr = []
  | some b => (hdr.length : Int) = ncb.tcp.template.cb_ ∧
      ∀ m : Bytes, hdr.length ≤ m.length → (b m n).2 = hdr ++ m.drop hdr.length

/-- The node is as long as its buffer, which holds the header and the payload; `send(2)` is asked for
the rest of it, never for more, and takes it from the front. -/
structure SendsExactly (node : TxNode) (hdr p : Bytes) : Prop where
  length : node.wcb = node.data.length
  data : node.data = hdr ++ p
  inside : ∀ rs, Answers node rs → ∀ a, a ∈ asks node rs →
    0 ≤ a.1 ∧ 0 < a.2 ∧ a.1 + a.2 = node.data.length
  order : ∀ rs, Answers node rs → given node rs = (hdr ++ p).take (taken rs)

section
variable {node : TxNode} {rs : List Sent} {H : Heap} {ncb : Ncb} {serializer : Option Serializer}
  {origin p hdr : Bytes}

/-- what an answer changes -/
theorem round_offset (node : TxNode) (r : Sent) :
    (tcpTxn node r).1 = node.advance (taken [r]) := by
  have h0 : node.advance 0 = node := by
    unfold TxNode.advance
    simp
  rcases r with k | e
  · have ht : taken [.bytes k] = k := rfl
    rw [ht]
    by_cases hk : k = 0
    · subst hk
      exact h0.symm
    · exact congrArg Prod.fst (if_neg hk)
  · have ht : taken [.err e] = 0 := rfl
    rw [ht, h0]
    show (txnRound node (.err e)).1 = node
    unfold txnRound
    dsimp only
    split
    · rfl
    · split <;> rfl

theorem asks_inside (ho : 0 ≤ node.offset) (hA : Answers node rs) {a : Int × Int}
    (ha : a ∈ asks node rs) : 0 ≤ a.1 ∧ 0 < a.2 ∧ a.1 + a.2 = node.wcb := by
  induction rs generalizing node with
  | nil => cases ha
  | cons r rs ih =>
    obtain ⟨h1, _, h3⟩ := hA
    rcases List.mem_cons.mp ha with rfl | ha
    · exact ⟨ho, by dsimp only; omega, by dsimp only; omega⟩
    · rw [round_offset] at h3 ha
      have hn : 0 ≤ (node.advance (taken [r])).offset := by
        show 0 ≤ node.offset + _
        omega
      have hrest := ih hn h3 ha
      exact hrest

theorem given_take (ho : 0 ≤ node.offset) (hw : node.wcb = node.data.length)
    (hA : Answers node rs) : given node rs = (node.data.drop node.offset.toNat).take (taken rs) := by
  induction rs generalizing node with
  | nil => simp [given, taken]
  | cons r rs ih =>
    obtain ⟨h1, h2, h3⟩ := hA
    rw [round_offset] at h3
    have hn : 0 ≤ (node.advance (taken [r])).offset := by
      show 0 ≤ node.offset + _
      omega
    have hl : (node.advance (taken [r])).wcb = (node.advance (taken [r])).data.length := hw
    have hnext := ih hn hl h3
    have hoff : (node.advance (taken [r])).offset.toNat = node.offset.toNat + taken [r] := by
      show (node.offset + _).toNat = _
      omega
    rw [hoff, show (node.advance (taken [r])).data = node.data from rfl, ← List.drop_drop] at hnext
    cases r with
    | bytes k =>
      have ht : taken [.bytes k] = k := rfl
      rw [ht] at hnext
      show piece node k ++ given (tcpTxn node (.bytes k)).1 rs = _
      rw [round_offset, ht, hnext]
      show (node.data.drop node.offset.toNat).take k ++ _ = _
      rw [show taken (.bytes k :: rs) = k + taken rs from rfl, List.take_add]
    | err e =>
      have ht : taken [.err e] = 0 := rfl
      rw [ht, List.drop_zero] at hnext
      show given (tcpTxn node (.err e)).1 rs = _
      rw [round_offset, ht, hnext]
      rfl

/-- the buffer that `tcp_write` fills -/
theorem writeBuffer_fills (hh : ncb.Heads p.length hdr) (hc : Carries serializer origin p)
    (hcb : 0 ≤ ncb.tcp.template.cb_) (hle : ncb.tcp.template.cb_ ≤ TCP_MAXIMUM_TEMPLATE_SIZE)
    (hp : p.length ≤ TCP_MAXIMUM_PACKET_SIZE) (k : Nat) :
    ∃ r, tcpWriteBuffer H k ncb origin p.length serializer = .ok r ∧
      ∀ b, r = .ok b → b = hdr ++ p := by
  have hs := sizes
  unfold Ncb.Heads at hh
  unfold tcpWriteBuffer
  dsimp only
  cases hb : (if ncb.attr.noBuild = true then none else ncb.tcp.template.builder_) with
  | none =>
    rw [hb] at hh
    dsimp only at hh ⊢
    subst hh
    cases hm : mallocInt H k p.length with
    | none => exact ⟨_, rfl, fun b h => by cases h⟩
    | some m =>
      have hl := mallocInt_length hm
      obtain ⟨r, hr, hw⟩ := serialize_ok (n := 0) m hc (by omega)
      dsimp only
      rw [show ((0 : Nat) : Int) = 0 from rfl] at hw
      rw [hw, ok_bind]
      dsimp only
      rw [if_neg (by omega)]
      refine ⟨_, rfl, fun b h => ?_⟩
      cases h
      rfl
  | some b =>
    rw [hb] at hh
    dsimp only at hh ⊢
    obtain ⟨h1, h2⟩ := hh
    rw [cint_ok (by unfold intMin; omega) (by unfold intMax; omega), ok_bind]
    cases hm : mallocInt H k (p.length + ncb.tcp.template.cb_) with
    | none => exact ⟨_, rfl, fun b h => by cases h⟩
    | some m =>
      have hl := mallocInt_length hm
      have hm' := h2 m (by omega)
      have hlen : (hdr ++ m.drop hdr.length).length = m.length := by
        rw [List.length_append, List.length_drop]
        omega
      have hu : usrcall m 0 (fun m => b m p.length) = .ok ((b m p.length).1, (b m p.length).2) :=
        usrcall_ok (n := 0) _ (Nat.zero_le _) (by rw [List.drop_zero, hm', hlen])
      dsimp only
      rw [hu, ok_bind]
      dsimp only
      split
      · exact ⟨_, rfl, fun b h => by cases h⟩
      · obtain ⟨r, hr, hw⟩ := serialize_ok (n := hdr.length) (b m p.length).2 hc
          (by rw [hm', hlen]; omega)
        rw [← h1, hw, ok_bind]
        dsimp only
        rw [if_neg (by omega), hm', List.take_left]
        refine ⟨_, rfl, fun b h => ?_⟩
        cases h
        rfl

/-- the length of a packet is an `int` -/
theorem writeNode_ok (hcb : 0 ≤ ncb.tcp.template.cb_)
    (hle : ncb.tcp.template.cb_ ≤ TCP_MAXIMUM_TEMPLATE_SIZE) {k : Nat} {cb : Int}
    {r : Except Int Bytes} (hr : tcpWriteBuffer H k ncb origin cb serializer = .ok r)
    (ready : Bool) (ktcp : Option Nat) :
    ∃ q, tcpWriteNode H k ncb ready ktcp origin cb serializer = .ok q := by
  have hs := sizes
  unfold tcpWriteNode
  split
  · exact ⟨_, rfl⟩
  split
  · exact ⟨_, rfl⟩
  split
  · exact ⟨_, rfl⟩
  rw [hr, ok_bind]
  cases r with
  | error v => exact ⟨_, rfl⟩
  | ok b =>
    dsimp only
    cases H.malloc (k + 1) TX_NODE_SIZE with
    | none => exact ⟨_, rfl⟩
    | some _ =>
      dsimp only
      rw [cint_ok (by unfold intMin; omega) (by unfold intMax; omega), ok_bind]
      exact ⟨_, rfl⟩

/-- a header as long as the template says is a built one, or there is none -/
theorem framed_of_length {n : Int} (hh : ncb.Heads n hdr)
    (hl : (hdr.length : Int) = ncb.tcp.template.cb_) : ncb.Framed := by
  unfold Ncb.Heads at hh
  unfold Ncb.Framed
  cases hB : (if ncb.attr.noBuild = true then none else ncb.tcp.template.builder_) with
  | none =>
    rw [hB] at hh
    dsimp only at hh
    subst hh
    exact Or.inr hl.symm
  | some b =>
    left
    split at hB
    · cases hB
    · rename_i hA
      exact ⟨by rw [hB]; rfl, Bool.eq_false_iff.mpr hA⟩

/-- **When `send(2)` is given the packet and nothing else.**  The user's builder fills the header and
the user's serializer the payload. -/
theorem sendsExactly_iff (H : Heap) (k : Nat) (ncb : Ncb) (ready : Bool) (ktcp : Option Nat)
    (origin : Bytes) (serializer : Option Serializer) (hdr p : Bytes)
    (hcb : 0 ≤ ncb.tcp.template.cb_) (hle : ncb.tcp.template.cb_ ≤ TCP_MAXIMUM_TEMPLATE_SIZE)
    (hp : p.length ≤ TCP_MAXIMUM_PACKET_SIZE) (hh : ncb.Heads p.length hdr)
    (hc : Carries serializer origin p) :
    ∃ r, tcpWriteNode H k ncb ready ktcp origin p.length serializer = .ok r ∧
      ∀ node, r = .ok node → (SendsExactly node hdr p ↔ ncb.Framed) := by
  obtain ⟨r, hr, hb⟩ := writeBuffer_fills (H := H) hh hc hcb hle hp k
  obtain ⟨q, hq⟩ := writeNode_ok hcb hle hr ready ktcp
  refine ⟨q, hq, fun node hn => ?_⟩
  subst hn
  obtain ⟨_, h2, h3, h4⟩ := writeNode_shape hq
  have hdata : node.data = hdr ++ p := by
    rw [hr] at h2
    exact hb _ (Except.ok.inj h2)
  constructor
  · intro S
    have hl := S.length
    rw [h3, hdata, List.length_append] at hl
    exact framed_of_length hh (by omega)
  · intro hF
    obtain ⟨hlen, _⟩ := writeNode_length hF hq
    refine ⟨hlen, hdata, fun rs hA a ha => ?_, fun rs hA => ?_⟩
    · have h5 := asks_inside (by omega) hA ha
      omega
    · rw [given_take (by omega) hlen hA, h4, hdata]
      rfl

end

theorem sendsExactly_iff_len4 :
    ∃ r, tcpWriteNode Heap.zeros 0 (Rx.fresh [] Attr.clear Wire.len4.tst).ncb true none [9]
        ([9] : Bytes).length none = .ok r ∧
      ∀ node, r = .ok node → (SendsExactly node [1, 0, 0, 0] [9] ↔
        (Rx.fresh [] Attr.clear Wire.len4.tst).ncb.Framed) :=
  sendsExactly_iff Heap.zeros 0 (Rx.fresh [] Attr.clear Wire.len4.tst).ncb true none [9] none
    [1, 0, 0, 0] [9] (by decide) (by decide) (by decide) ⟨rfl, fun _ _ => rfl⟩ rfl

/-- a template of four bytes without a builder: `send(2)` is asked for six bytes of a buffer of two -/
theorem bare_oversends :
    ∃ node, tcpWriteNode Heap.zeros 0 (Ncb.bare 4) true none [5, 6] 2 none = .ok (.ok node) ∧
      node.data = [5, 6] ∧ asks node [.bytes 2] = [(0, 6)] ∧ ¬ SendsExactly node [] [5, 6] := by
  refine ⟨_, rfl, rfl, rfl, fun S => ?_⟩
  have h := S.length
  change (6 : Int) = 2 at h
  omega

end Swnet

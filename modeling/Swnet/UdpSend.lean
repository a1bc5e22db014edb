import Swnet.TxBooks

/-!
# The datagrams of a UDP link

`udp_write` for any number of threads beside the pool.  A `sendto(2)` on a datagram socket takes the whole
packet or nothing; this is a condition on the answers here (`AllOrNothing`), since the loop of `udp_txn`
would go on behind a part.

* `udpSenderTo`      a UDP link, whose calls come with an address;
* `Tx.tells`         the calls that build a node, and the `sendto(2)` that take one;
* `Logged`           how what was told and the state belong together;
* `Answered`         what the value that a call returns says about its node;
* `datagrams_once`   each datagram is sent once at most, with the data of its call, and what the call
                     returns says whether it was.
-/

namespace Swnet
open CMem Runs

/-! ## the link -/

/-- the arguments of `udp_write`; `ipstr` is NULL or a text -/
structure UdpReq where
  write : WriteReq
  ipstr : Option String
  port : Nat

/-- `udp_write` up to the node -/
def udpFront (maxUdpUnit : Nat) (H : Heap) (q : UdpReq) : C (Except Int TxNode) :=
  if q.ipstr.isNone = true ∨ q.port = 0 then .ok (.error (-EINVAL))
  else udpWriteNode maxUdpUnit H q.write.k q.write.origin q.write.cb q.write.serializer

theorem udpFront_some {maxUdpUnit : Nat} {H : Heap} {q : UdpReq} {node : TxNode}
    (h : udpFront maxUdpUnit H q = .ok (.ok node)) :
    udpWriteNode maxUdpUnit H q.write.k q.write.origin q.write.cb q.write.serializer
      = .ok (.ok node) := by
  unfold udpFront at h
  split at h
  · cases h
  · exact h

def udpSenderTo (maxUdpUnit : Nat) (H : Heap) : Sender UdpReq where
  proto := .udp
  front := udpFront maxUdpUnit H
  fresh _ _ h := udp_write_fresh (udpFront_some h)

/-! ## what is told -/

inductive UdpEvent (Req : Type) where
  /-- a call that builds a node -/
  | call (q : Req)
  /-- `sendto(2)` takes bytes of a node -/
  | sendto (node : Nat) (data : Bytes)

def UdpEvent.call? {Req : Type} : UdpEvent Req → Option Req
  | .call q => some q
  | .sendto _ _ => none

def UdpEvent.sendto? {Req : Type} : UdpEvent Req → Option (Nat × Bytes)
  | .call _ => none
  | .sendto node data => some (node, data)

/-- the calls that have built the nodes, the first one first -/
def callsOf {Req : Type} (es : List (UdpEvent Req)) : List Req := es.filterMap UdpEvent.call?

/-- what was sent, with the numbers of the nodes -/
def sendtosOf {Req : Type} (es : List (UdpEvent Req)) : List (Nat × Bytes) :=
  es.filterMap UdpEvent.sendto?

section
variable {Req : Type} (L : Sender Req)

/-- a `sendto(2)` on a node -/
def Tx.sendto (s : Tx) (node : Nat) : Sent → List (UdpEvent Req)
  | .bytes k => if k = 0 then [] else [.sendto node (piece (s.nodes node) k)]
  | .err _ => []

def Tx.tells (s : Tx) : TxAct Req → List (UdpEvent Req)
  | .call i q behind =>
    if (s.step L (.call i q behind)).map Tx.count = some s.count then [] else [.call q]
  | .send i r =>
    match s.writer i with
    | .send node => s.sendto node r
    | _ => []
  | .wsend r =>
    match s.worker with
    | .send node => s.sendto node r
    | _ => []
  | _ => []

/-- `sendto(2)` takes all that is left of a packet, or nothing -/
def Tx.TakesAll (s : Tx) (node : Nat) : Sent → Prop
  | .bytes k => k = 0 ∨ (s.nodes node).offset + k = (s.nodes node).wcb
  | .err _ => True

def AllOrNothing (s : Tx) : TxAct Req → Prop
  | .send i r => ∀ node, s.writer i = .send node → s.TakesAll node r
  | .wsend r => ∀ node, s.worker = .send node → s.TakesAll node r
  | _ => True

/-- the state and all that was told -/
structure Logged (s : Tx) (es : List (UdpEvent Req)) : Prop where
  calls : (callsOf es).length = s.count
  made : ∀ n, n < s.count → ∃ q node behind, (callsOf es)[n]? = some q ∧ L.front q = .ok (.ok node) ∧
    packet (s.nodes n) = (node.data ++ behind).take node.wcb.toNat
  once : ((sendtosOf es).map Prod.fst).Nodup
  whole : ∀ d, d ∈ sendtosOf es → d.1 < s.count ∧ d.2 = packet (s.nodes d.1)
  unsent : ∀ n, n < s.count → n ∉ (sendtosOf es).map Prod.fst → (s.nodes n).offset = 0
  sent : ∀ n, n ∈ (sendtosOf es).map Prod.fst → (s.nodes n).offset = (s.nodes n).wcb
  kernel : s.kernel = ((sendtosOf es).map Prod.snd).flatten

/-- the value that the call has returned tells where its node is -/
structure Answered (s : Tx) (r : Nat × Int) : Prop where
  positive : 0 < r.2 → r.1 < s.count ∧ (s.nodes r.1).offset = (s.nodes r.1).wcb
  queued : r.2 = 0 → r.1 ∈ s.queued.map Prod.fst
  refused : r.2 < 0 → r.1 < s.count ∧ (s.nodes r.1).offset < (s.nodes r.1).wcb ∧
    (∀ i, (s.writer i).node ≠ some r.1) ∧ r.1 ∉ s.queued.map Prod.fst

/-- What every step does to the nodes: one that no thread has and that is not in the queue stays as it is,
and only a node that a thread has gets there. -/
structure Onward (s s' : Tx) : Prop where
  count : s.count ≤ s'.count
  others : ∀ n, n < s.count → (∀ i, (s.writer i).node ≠ some n) → n ∉ s.queued.map Prod.fst →
    s'.nodes n = s.nodes n
  full : ∀ n, n < s.count → (s.nodes n).offset = (s.nodes n).wcb →
    (s'.nodes n).offset = (s'.nodes n).wcb
  queue : ∀ n, n ∈ s'.queued.map Prod.fst →
    n ∈ s.queued.map Prod.fst ∨ ∃ i, (s.writer i).node = some n
  mono : s.queued.map Prod.fst ⊆ s'.queued.map Prod.fst
  hands : ∀ i n, (s'.writer i).node = some n → n = s.count ∨ ∃ j, (s.writer j).node = some n

variable {L} {s s' : Tx} {es : List (UdpEvent Req)}

/-! ## what is told, step by step -/

theorem callsOf_append (es fs : List (UdpEvent Req)) : callsOf (es ++ fs) = callsOf es ++ callsOf fs :=
  List.filterMap_append ..

theorem sendtosOf_append (es fs : List (UdpEvent Req)) :
    sendtosOf (es ++ fs) = sendtosOf es ++ sendtosOf fs := List.filterMap_append ..

theorem Logged.congr (G : Logged L s es) (hn : s'.nodes = s.nodes) (hc : s'.count = s.count)
    (hk : s'.kernel = s.kernel) : Logged L s' es where
  calls := by rw [hc, G.calls]
  made := by
    rw [hc, hn]
    exact G.made
  once := G.once
  whole := by
    rw [hc, hn]
    exact G.whole
  unsent := by
    rw [hc, hn]
    exact G.unsent
  sent := by
    rw [hn]
    exact G.sent
  kernel := by rw [hk, G.kernel]

/-- a call that builds a node -/
theorem Logged.call (G : Logged L s es) {q : Req} {node : TxNode} (behind : Bytes)
    (hf : L.front q = .ok (.ok node)) (hc : s'.count = s.count + 1)
    (hn : s'.nodes = Function.update s.nodes s.count { node with data := node.data ++ behind })
    (hk : s'.kernel = s.kernel) : Logged L s' (es ++ [.call q]) := by
  have hcalls : callsOf (es ++ [.call q]) = callsOf es ++ [q] := callsOf_append es _
  have hsends : sendtosOf (es ++ [UdpEvent.call q]) = sendtosOf es := by
    rw [sendtosOf_append]
    exact List.append_nil _
  have hlt : ∀ n, n ∈ (sendtosOf es).map Prod.fst → n < s.count := by
    intro n h
    obtain ⟨d, hd, rfl⟩ := List.mem_map.mp h
    exact (G.whole d hd).1
  have hold : ∀ n, n < s.count → s'.nodes n = s.nodes n := fun n h => by
    rw [hn, Function.update_of_ne (Nat.ne_of_lt h)]
  have hnew : s'.nodes s.count = { node with data := node.data ++ behind } := by
    rw [hn, Function.update_self]
  refine ⟨?_, ?_, ?_, ?_, ?_, ?_, ?_⟩
  · rw [hcalls, List.length_append, G.calls, hc]
    rfl
  · intro n h
    rw [hcalls]
    by_cases he : n = s.count
    · subst he
      refine ⟨q, node, behind, ?_, hf, by rw [hnew]; rfl⟩
      rw [← G.calls]
      exact List.getElem?_concat_length
    · obtain ⟨q', node', b, h1, h2, h3⟩ := G.made n (by omega)
      refine ⟨q', node', b, ?_, h2, by rw [hold n (by omega), h3]⟩
      rw [List.getElem?_append_left (by rw [G.calls]; omega), h1]
  · rw [hsends]
    exact G.once
  · intro d hd
    rw [hsends] at hd
    obtain ⟨h1, h2⟩ := G.whole d hd
    exact ⟨by omega, by rw [hold _ h1, h2]⟩
  · intro n h hns
    rw [hsends] at hns
    by_cases he : n = s.count
    · subst he
      rw [hnew]
      exact (L.fresh q node hf).1
    · rw [hold n (by omega)]
      exact G.unsent n (by omega) hns
  · intro n h
    rw [hsends] at h
    rw [hold n (hlt n h)]
    exact G.sent n h
  · rw [hsends, hk, G.kernel]

/-- the datagram of a node goes out -/
theorem Logged.goes (B : Books L s) (G : Logged L s es) {n k : Nat} (hn : n < s.count) (h0 : 0 < k)
    (hk : (s.nodes n).offset + k = (s.nodes n).wcb) (hnodes : s'.nodes = (s.take n k).nodes)
    (hc : s'.count = s.count) (hker : s'.kernel = (s.take n k).kernel) :
    Logged L s' (es ++ [.sendto n (piece (s.nodes n) k)]) := by
  have hnot : n ∉ (sendtosOf es).map Prod.fst := fun h => by
    have := G.sent n h
    omega
  have hoff := G.unsent n hn hnot
  have hpiece : piece (s.nodes n) k = packet (s.nodes n) := by
    have hO := B.nodes n hn
    have hlen : (packet (s.nodes n)).length = k := by
      rw [packet_length hO]
      omega
    rw [piece_packet hO (le_of_eq hk), left_all hoff, ← hlen, List.take_length]
  have hcalls : callsOf (es ++ [UdpEvent.sendto n (piece (s.nodes n) k)]) = callsOf es := by
    rw [callsOf_append]
    exact List.append_nil _
  have hsends : sendtosOf (es ++ [UdpEvent.sendto n (piece (s.nodes n) k)])
      = sendtosOf es ++ [(n, packet (s.nodes n))] := by
    rw [sendtosOf_append, ← hpiece]
    rfl
  have hfst : (sendtosOf (es ++ [UdpEvent.sendto n (piece (s.nodes n) k)])).map Prod.fst
      = (sendtosOf es).map Prod.fst ++ [n] := by
    rw [hsends, List.map_append]
    rfl
  have hpack : ∀ m, packet (s'.nodes m) = packet (s.nodes m) := fun m => by
    rw [hnodes]
    exact take_packet ..
  have hold : ∀ m, m ≠ n → s'.nodes m = s.nodes m := fun m hm => by
    rw [hnodes]
    exact Function.update_of_ne hm ..
  have hself : s'.nodes n = (s.nodes n).advance k := by
    rw [hnodes]
    exact Function.update_self ..
  refine ⟨?_, ?_, ?_, ?_, ?_, ?_, ?_⟩
  · rw [hcalls, G.calls, hc]
  · intro m hm
    obtain ⟨q, node, b, h1, h2, h3⟩ := G.made m (by omega)
    exact ⟨q, node, b, by rw [hcalls, h1], h2, by rw [hpack, h3]⟩
  · rw [hfst]
    refine List.nodup_append.mpr ⟨G.once, List.nodup_singleton n, ?_⟩
    intro a ha b hb
    rw [List.mem_singleton.mp hb]
    rintro rfl
    exact hnot ha
  · intro d hd
    rw [hsends] at hd
    rw [hc, hpack]
    rcases List.mem_append.mp hd with hd | hd
    · exact G.whole d hd
    · rw [List.mem_singleton.mp hd]
      exact ⟨hn, rfl⟩
  · intro m hm hns
    rw [hfst] at hns
    have hne : m ≠ n := fun h => hns (List.mem_append_right _ (List.mem_singleton.mpr h))
    rw [hold m hne]
    exact G.unsent m (by omega) fun h => hns (List.mem_append_left _ h)
  · intro m hm
    rw [hfst] at hm
    by_cases hne : m = n
    · subst hne
      rw [hself]
      exact hk
    · rw [hold m hne]
      rcases List.mem_append.mp hm with h | h
      · exact G.sent m h
      · exact absurd (List.mem_singleton.mp h) hne
  · rw [hker, hsends, List.map_append, List.flatten_append, ← G.kernel, ← hpiece]
    show s.kernel ++ piece (s.nodes n) k = s.kernel ++ [piece (s.nodes n) k].flatten
    rw [List.flatten_singleton]

theorem sendto_some (s : Tx) (n : Nat) {k : Nat} (h : 0 < k) :
    s.sendto n (.bytes k) = ([.sendto n (piece (s.nodes n) k)] : List (UdpEvent Req)) :=
  if_neg (by omega)

theorem tells_send {i n : Nat} (r : Sent) (hw : s.writer i = .send n) :
    s.tells L (.send i r) = s.sendto n r := by
  unfold Tx.tells
  dsimp only
  rw [hw]

theorem tells_wsend {n : Nat} (r : Sent) (hw : s.worker = .send n) :
    s.tells L (.wsend r) = s.sendto n r := by
  unfold Tx.tells
  dsimp only
  rw [hw]

/-- an answer of `sendto(2)` that takes nothing -/
theorem sendto_none (s : Tx) (n : Nat) {r : Sent}
    (h : r = .bytes 0 ∨ ∃ e, r = .err e ∧ e ≠ EAGAIN ∧ e ≠ EINTR) :
    s.sendto n r = ([] : List (UdpEvent Req)) := by
  rcases h with rfl | ⟨e, rfl, _, _⟩ <;> rfl

theorem wpRet_nodes (p : Proto) (s : Tx) (v : Int) : (Tx.wpRet p s v).nodes = s.nodes := by
  unfold Tx.wpRet
  split_ifs <;> rfl

/-- where the pool leaves the nodes as they are, `sendto(2)` has taken nothing -/
theorem wsend_quiet {n : Nat} {r : Sent} (hw : s.worker = .send n) (h : s.step L (.wsend r) = some s')
    (hn : s'.nodes = s.nodes) : s.sendto n r = ([] : List (UdpEvent Req)) := by
  cases r with
  | err e => rfl
  | bytes k =>
    refine if_pos ?_
    simp only [Tx.step] at h
    rw [hw] at h
    obtain ⟨t, ht, he⟩ := Option.map_eq_some_iff.mp h
    have htake : t = s.take n k := by
      unfold Tx.transmit at ht
      dsimp only at ht
      split at ht
      · cases ht
        rfl
      · cases ht
    have hnodes : s'.nodes = t.nodes := by
      cases hv : (L.proto.txn (s.nodes n) (.bytes k)).2 with
      | none =>
        rw [hv] at he
        cases he
        rfl
      | some v =>
        rw [hv] at he
        cases he
        exact wpRet_nodes ..
    have hoff : (s.nodes n).advance k = s.nodes n := by
      have := congrFun (hnodes.symm.trans hn) n
      rw [htake] at this
      rwa [show (s.take n k).nodes n = (s.nodes n).advance k from Function.update_self ..] at this
    have := congrArg TxNode.offset hoff
    change (s.nodes n).offset + k = (s.nodes n).offset at this
    omega

theorem Move.told (B : Books L s) (G : Logged L s es) {a : TxAct Req} (hW : AllOrNothing s a)
    (h : s.step L a = some s') (M : Move L s a s') : Logged L s' (es ++ s.tells L a) := by
  cases M with
  | same ha =>
    have hnil : s.tells L a = [] := by
      rcases ha with ⟨i, q, behind, rfl⟩ | ⟨i, rfl⟩ | rfl
      · unfold Tx.tells
        dsimp only
        rw [h]
        exact if_pos rfl
      · unfold Tx.tells
        dsimp only
        split <;> rfl
      · unfold Tx.tells
        dsimp only
        split <;> rfl
    rw [hnil, List.append_nil]
    exact G
  | @call i q behind node hw hf hl =>
    have hone : s.tells L (.call i q behind) = [.call q] := by
      unfold Tx.tells
      dsimp only
      rw [h]
      exact if_neg fun he => absurd (Option.some.inj he) (Nat.succ_ne_self s.count)
    rw [hone]
    exact G.call behind hf rfl rfl rfl
  | @sendSome i n k hw h0 hk =>
    have := hW n hw
    exact absurd this (by unfold Tx.TakesAll; omega)
  | @sendAll i n k hw h0 hk =>
    rw [tells_send _ hw, sendto_some s n h0]
    exact G.goes B (B.held i n (by rw [hw]; rfl)).1 h0 hk rfl rfl rfl
  | @sendAgain i n hw =>
    rw [tells_send _ hw]
    show Logged L _ (es ++ [])
    rw [List.append_nil]
    exact G.congr rfl rfl rfl
  | @sendFail i n r hw hr =>
    rw [tells_send _ hw, sendto_none s n hr, List.append_nil]
    exact G.congr rfl rfl rfl
  | @wsendSome n k hw h0 hk =>
    have := hW n hw
    exact absurd this (by unfold Tx.TakesAll; omega)
  | @wsendAll n k hw h0 hk =>
    rw [tells_wsend _ hw, sendto_some s n h0]
    have hq : n ∈ s.fifo.head := List.mem_of_head? (B.worker n hw)
    exact G.goes B (B.known n (B.in_queue hq)) h0 hk rfl rfl rfl
  | @wsendAgain n hw =>
    rw [tells_wsend _ hw]
    show Logged L _ (es ++ [])
    rw [List.append_nil]
    exact G.congr rfl rfl rfl
  | @wsendFail n r hw =>
    rw [tells_wsend _ hw, wsend_quiet hw h rfl, List.append_nil]
    exact G.congr rfl rfl rfl
  | _ =>
    show Logged L _ (es ++ [])
    rw [List.append_nil]
    exact G.congr rfl rfl rfl

/-! ## what the calls return -/

theorem Answered.onward {r : Nat × Int} (A : Answered s r) (O : Onward s s') : Answered s' r where
  positive h := by
    obtain ⟨h1, h2⟩ := A.positive h
    exact ⟨lt_of_lt_of_le h1 O.count, O.full _ h1 h2⟩
  queued h := O.mono (A.queued h)
  refused h := by
    obtain ⟨h1, h2, h3, h4⟩ := A.refused h
    refine ⟨lt_of_lt_of_le h1 O.count, by rwa [O.others _ h1 h3 h4], fun i hi => ?_, fun hq => ?_⟩
    · rcases O.hands i _ hi with h5 | ⟨j, hj⟩
      · exact absurd h5 (Nat.ne_of_lt h1)
      · exact h3 j hj
    · rcases O.queue _ hq with h5 | ⟨i, hi⟩
      · exact h4 h5
      · exact h3 i hi

/-- nodes, queue and count as they are, and the threads with what they had at most -/
theorem Onward.quiet (hn : s'.nodes = s.nodes) (hc : s'.count = s.count) (hq : s'.queued = s.queued)
    (hw : ∀ i n, (s'.writer i).node = some n → ∃ j, (s.writer j).node = some n) : Onward s s' where
  count := hc.ge
  others _ _ _ _ := by rw [hn]
  full _ _ h := by rwa [hn]
  queue n h := Or.inl (by rwa [hq] at h)
  mono := by rw [hq]; exact List.Subset.refl _
  hands i n h := Or.inr (hw i n h)

/-- a thread goes on with its node, or drops it -/
theorem hands_update {i : Nat} {pc : Wpc} (h : pc.node = none ∨ pc.node = (s.writer i).node) (j n : Nat)
    (hj : (Function.update s.writer i pc j).node = some n) : ∃ j, (s.writer j).node = some n := by
  by_cases he : j = i
  · subst he
    rw [Function.update_self] at hj
    rcases h with h | h
    · rw [h] at hj
      cases hj
    · exact ⟨j, h ▸ hj⟩
  · rw [Function.update_of_ne he] at hj
    exact ⟨j, hj⟩

/-- the kernel takes bytes of a node that a thread has, or that is in the queue -/
theorem Onward.takes (n k : Nat) (hn : (∃ i, (s.writer i).node = some n) ∨ n ∈ s.queued.map Prod.fst)
    (hlt : (s.nodes n).offset < (s.nodes n).wcb) (hnodes : s'.nodes = (s.take n k).nodes)
    (hc : s'.count = s.count) (hq : s'.queued = s.queued)
    (hw : ∀ i m, (s'.writer i).node = some m → ∃ j, (s.writer j).node = some m) : Onward s s' where
  count := hc.ge
  others m _ h1 h2 := by
    have hne : m ≠ n := by
      rintro rfl
      rcases hn with ⟨i, hi⟩ | hn
      · exact h1 i hi
      · exact h2 hn
    rw [hnodes]
    exact Function.update_of_ne hne ..
  full m _ h := by
    have hne : m ≠ n := by
      rintro rfl
      omega
    rw [hnodes, show (s.take n k).nodes m = s.nodes m from Function.update_of_ne hne ..]
    exact h
  queue m h := Or.inl (by rwa [hq] at h)
  mono := by rw [hq]; exact List.Subset.refl _
  hands i m h := Or.inr (hw i m h)

theorem Move.onward (B : Books L s) {a : TxAct Req} (M : Move L s a s') : Onward s s' := by
  cases M with
  | same => exact .quiet rfl rfl rfl fun i n h => ⟨i, h⟩
  | @call i q behind node hw hf hl =>
    refine ⟨Nat.le_succ _, fun n h _ _ => Function.update_of_ne (Nat.ne_of_lt h) .., ?_,
      fun n h => Or.inl h, List.Subset.refl _, ?_⟩
    · intro n h hfull
      show (Function.update s.nodes s.count _ n).offset = (Function.update s.nodes s.count _ n).wcb
      rwa [Function.update_of_ne (Nat.ne_of_lt h)]
    · intro j n h
      change (Function.update s.writer i (.test s.count) j).node = some n at h
      by_cases hj : j = i
      · subst hj
        rw [Function.update_self] at h
        exact Or.inl (Option.some.inj h).symm
      · rw [Function.update_of_ne hj] at h
        exact Or.inr ⟨j, h⟩
  | @testSend i n hw hh =>
    exact .quiet rfl rfl rfl (hands_update (Or.inr (by rw [hw]; rfl)))
  | @testQueue i n hw hh =>
    exact .quiet rfl rfl rfl (hands_update (Or.inr (by rw [hw]; rfl)))
  | @sendSome i n k hw h0 hk =>
    exact .takes n k (Or.inl ⟨i, by rw [hw]; rfl⟩) (B.begun i n (Or.inl hw)) rfl rfl rfl
      fun j m h => ⟨j, h⟩
  | @sendAll i n k hw h0 hk =>
    exact .takes n k (Or.inl ⟨i, by rw [hw]; rfl⟩) (B.begun i n (Or.inl hw)) rfl rfl rfl
      (hands_update (Or.inl rfl))
  | @sendAgain i n hw =>
    exact .quiet rfl rfl rfl (hands_update (Or.inr (by rw [hw]; rfl)))
  | sendFail hw hr => exact .quiet rfl rfl rfl (hands_update (Or.inl rfl))
  | queueNo hw hr hh => exact .quiet rfl rfl rfl (hands_update (Or.inl rfl))
  | @queueYes i n e fifo' sock' hw ho hh hs =>
    have hqueued : (s.queued ++ [(n, (s.nodes n).offset)]).map Prod.fst
        = s.queued.map Prod.fst ++ [n] := List.map_append ..
    refine ⟨Nat.le_refl _, fun _ _ _ _ => rfl, fun _ _ h => h, ?_, ?_, ?_⟩
    · intro m h
      change m ∈ (s.queued ++ [(n, (s.nodes n).offset)]).map Prod.fst at h
      rw [hqueued] at h
      rcases List.mem_append.mp h with h | h
      · exact Or.inl h
      · rw [List.mem_singleton.mp h]
        exact Or.inr ⟨i, by rw [hw]; rfl⟩
    · show s.queued.map Prod.fst ⊆ (s.queued ++ [(n, (s.nodes n).offset)]).map Prod.fst
      rw [hqueued]
      exact List.subset_append_left ..
    · exact fun j m h => Or.inr (hands_update (Or.inl rfl) j m h)
  | @wsendSome n k hw h0 hk =>
    have hq := B.in_queue (List.mem_of_head? (B.worker n hw))
    exact .takes n k (Or.inr hq) (by omega) rfl rfl rfl fun j m h => ⟨j, h⟩
  | @wsendAll n k hw h0 hk =>
    have hq := B.in_queue (List.mem_of_head? (B.worker n hw))
    exact .takes n k (Or.inr hq) (by omega) rfl rfl rfl fun j m h => ⟨j, h⟩
  | _ => exact .quiet rfl rfl rfl fun i n h => ⟨i, h⟩

/-- a call that is refused has its node nowhere any more -/
theorem answered_refused (B : Books L s) {i n : Nat} {v : Int} (hv : v < 0)
    (hw : s.writer i = .send n ∨ s.writer i = .queue n) (hc : s'.count = s.count)
    (hn : s'.nodes = s.nodes) (hq : s'.queued = s.queued)
    (hwr : s'.writer = Function.update s.writer i .idle) : Answered s' (n, v) where
  positive h := absurd hv (by show ¬ v < 0; have : 0 < v := h; omega)
  queued h := absurd hv (by show ¬ v < 0; have : v = 0 := h; omega)
  refused _ := by
    have hi : (s.writer i).node = some n := by
      rcases hw with hw | hw <;> rw [hw] <;> rfl
    obtain ⟨h1, h2⟩ := B.held i n hi
    refine ⟨by rw [hc]; exact h1, by rw [hn]; exact B.begun i n hw, fun j hj => ?_, by rwa [hq]⟩
    rw [hwr] at hj
    by_cases he : j = i
    · subst he
      rw [Function.update_self] at hj
      cases hj
    · rw [Function.update_of_ne he] at hj
      exact he (B.apart j i n hj hi)

/-- the calls that return -/
theorem Move.answered (B : Books L s) {a : TxAct Req} (M : Move L s a s')
    (A : ∀ r, r ∈ s.rets → Answered s r) : ∀ r, r ∈ s'.rets → Answered s' r := by
  have O := M.onward B
  have hnew : ∀ r', s'.rets = s.rets ++ [r'] → Answered s' r' → ∀ r, r ∈ s'.rets → Answered s' r := by
    intro r' h hA r hr
    rw [h] at hr
    rcases List.mem_append.mp hr with hr | hr
    · exact (A r hr).onward O
    · rw [List.mem_singleton.mp hr]
      exact hA
  cases M with
  | @sendAll i n k hw h0 hk =>
    have hn := (B.held i n (by rw [hw]; rfl)).1
    have hpos := (B.nodes n hn).pos
    refine hnew (n, (s.nodes n).wcb) rfl ⟨fun _ => ⟨hn, ?_⟩, fun h => ?_, fun h => ?_⟩
    · show (Function.update s.nodes n ((s.nodes n).advance k) n).offset
        = (Function.update s.nodes n ((s.nodes n).advance k) n).wcb
      rw [Function.update_self]
      exact hk
    · exact absurd h (show (s.nodes n).wcb ≠ 0 by omega)
    · exact absurd h (show ¬ (s.nodes n).wcb < 0 by omega)
  | @sendFail i n r hw hr =>
    exact hnew (n, -1) rfl (answered_refused B (by decide) (Or.inl hw) rfl rfl rfl rfl)
  | @queueNo i n e r hw hr hh =>
    exact hnew (n, r) rfl (answered_refused B hr (Or.inr hw) rfl rfl rfl rfl)
  | @queueYes i n e fifo' sock' hw ho hh hs =>
    refine hnew (n, 0) rfl ⟨fun h => absurd h (lt_irrefl (0 : Int)), fun _ => ?_,
      fun h => absurd h (lt_irrefl (0 : Int))⟩
    show n ∈ (s.queued ++ [(n, (s.nodes n).offset)]).map Prod.fst
    rw [List.map_append]
    exact List.mem_append_right _ (List.mem_cons_self ..)
  | _ => exact fun r hr => (A r hr).onward O

/-! ## the runs -/

theorem logged_init (sock : Sock) : Logged L (Tx.init sock) [] where
  calls := rfl
  made n h := absurd h (Nat.not_lt_zero n)
  once := List.nodup_nil
  whole _ h := absurd h List.not_mem_nil
  unsent n h := absurd h (Nat.not_lt_zero n)
  sent _ h := absurd h List.not_mem_nil
  kernel := rfl

theorem run_told {sock : Sock} {as : List (TxAct Req)}
    (hW : Meets (Tx.step L) AllOrNothing (Tx.init sock) as)
    (h : run (Tx.step L) (Tx.init sock) as = some s) :
    Logged L s (trace (Tx.step L) (Tx.tells L) (Tx.init sock) as) ∧
      ∀ r, r ∈ s.rets → Answered s r := by
  have hstep : ∀ s a s' es, (Books L s ∧ Logged L s es ∧ ∀ r, r ∈ s.rets → Answered s r) →
      AllOrNothing s a → s.step L a = some s' →
      Books L s' ∧ Logged L s' (es ++ s.tells L a) ∧ ∀ r, r ∈ s'.rets → Answered s' r := by
    intro s a s' es hI hWa hs
    have M := step_move hI.1 hs
    exact ⟨move_books hI.1 M, M.told hI.1 hI.2.1 hWa hs, M.answered hI.1 hI.2.2⟩
  have hR := @run_logged _ _ (Tx.step L) _ (Tx.tells L) AllOrNothing
    (fun s es => Books L s ∧ Logged L s es ∧ ∀ r, r ∈ s.rets → Answered s r) hstep _ _ _ h hW []
    ⟨books_init sock, logged_init sock, fun r hr => absurd hr List.not_mem_nil⟩
  exact hR.2

end

/-! ## the theorem -/

/-- the data of a node: `cb` bytes, those at `origin` where there is no serializer -/
theorem udpWriteNode_data {maxUdpUnit : Nat} {H : Heap} {k : Nat} {origin : Bytes} {cb : Int}
    {serializer : Option Serializer} {node : TxNode}
    (h : udpWriteNode maxUdpUnit H k origin cb serializer = .ok (.ok node)) :
    node.wcb = cb ∧ (node.data.length : Int) = cb ∧
      (serializer = none → node.data = origin.take cb.toNat) := by
  unfold udpWriteNode at h
  split at h
  · cases h
  · cases hm : mallocInt H k cb with
    | none =>
      rw [hm] at h
      cases h
    | some buffer =>
      rw [hm] at h
      obtain ⟨p, hp, h⟩ := bind_ok h
      have hlen := mallocInt_length hm
      split at h
      · cases h
      · split at h
        · cases h
        · cases h
          refine ⟨rfl, by rw [serialize_length hp, hlen], ?_⟩
          rintro rfl
          obtain ⟨b, hb, h⟩ := bind_ok hp
          cases h
          unfold memcpy at hb
          split at hb
          · cases hb
            show buffer.take 0 ++ origin.take cb.toNat ++ buffer.drop (0 + cb).toNat = _
            rw [List.take_zero, List.nil_append, Int.zero_add, List.drop_eq_nil_of_le (by omega),
              List.append_nil]
          · cases hb

/-- **Each datagram goes out once at most, whole, and for the call that it belongs to.**  `calls` are the
calls that came as far as a node and `sent` what `sendto(2)` took, in order, whatever the threads and the
pool do.  A call that returns a positive value has its datagram sent; one that returns an error never
has; and behind a zero it is sent, waits, or was taken out of the queue unsent. -/
theorem datagrams_once (maxUdpUnit : Nat) (H : Heap) (sock : Sock) (as : List (TxAct UdpReq))
    (hW : Meets (Tx.step (udpSenderTo maxUdpUnit H)) AllOrNothing (Tx.init sock) as) (s : Tx)
    (h : run (Tx.step (udpSenderTo maxUdpUnit H)) (Tx.init sock) as = some s) :
    let log := trace (Tx.step (udpSenderTo maxUdpUnit H)) (Tx.tells (udpSenderTo maxUdpUnit H))
      (Tx.init sock) as
    let calls := callsOf log
    let sent := sendtosOf log
    (sent.map Prod.fst).Nodup ∧ s.kernel = (sent.map Prod.snd).flatten ∧
      (∀ d, d ∈ sent → ∃ q node, calls[d.1]? = some q ∧ udpFront maxUdpUnit H q = .ok (.ok node) ∧
        d.2 = node.data ∧ (d.2.length : Int) = q.write.cb ∧
        (q.write.serializer = none → d.2 = q.write.origin.take q.write.cb.toNat)) ∧
      (∀ r, r ∈ s.rets → (0 < r.2 → r.1 ∈ sent.map Prod.fst) ∧ (r.2 < 0 → r.1 ∉ sent.map Prod.fst) ∧
        (r.2 = 0 → r.1 ∈ sent.map Prod.fst ∨ r.1 ∈ s.fifo.head ∨
          (r.1 ∈ s.popped ∧ (s.nodes r.1).offset = 0))) := by
  intro log calls sent
  have B := run_books h
  obtain ⟨G, A⟩ := run_told hW h
  refine ⟨G.once, G.kernel, fun d hd => ?_, fun r hr => ⟨fun hpos => ?_, fun hneg hs => ?_,
    fun hzero => ?_⟩⟩
  · obtain ⟨hlt, hdata⟩ := G.whole d hd
    obtain ⟨q, node, behind, h1, h2, h3⟩ := G.made d.1 hlt
    obtain ⟨h4, h5, h6⟩ := udpWriteNode_data (udpFront_some h2)
    have hself : d.2 = node.data := by
      rw [hdata, h3, h4, List.take_append_of_le_length (by omega), List.take_of_length_le (by omega)]
    exact ⟨q, node, h1, h2, hself, by rw [hself, h5], fun hs => by rw [hself, h6 hs]⟩
  · obtain ⟨h1, h2⟩ := (A r hr).positive hpos
    by_contra hns
    have h3 := G.unsent r.1 h1 hns
    have h4 := (B.nodes r.1 h1).pos
    omega
  · obtain ⟨_, h2, _, _⟩ := (A r hr).refused hneg
    have h3 := G.sent r.1 hs
    omega
  · have hq := (A r hr).queued hzero
    by_cases hs : r.1 ∈ sent.map Prod.fst
    · exact Or.inl hs
    · have hoff := G.unsent r.1 (B.known r.1 hq) hs
      rw [B.queued] at hq
      rcases List.mem_append.mp hq with hq | hq
      · exact Or.inr (Or.inr ⟨hq, hoff⟩)
      · exact Or.inr (Or.inl hq)

def udpByte (b : UInt8) : UdpReq := ⟨⟨0, none, [b], 1, none⟩, some "10.0.0.1", 9⟩

/-- one datagram is sent at once, and one by way of the queue -/
def udpOneEach : List (TxAct UdpReq) :=
  [.call 0 (udpByte 1) [], .test 0, .send 0 (.bytes 1), .call 1 (udpByte 2) [], .test 1,
    .send 1 (.err EAGAIN), .queue 1 0, .room, .task, .exec, .top none, .wsend (.bytes 1), .txPop 0,
    .pop 0]

theorem udpOneEach_whole :
    Meets (Tx.step (udpSenderTo 1472 Heap.zeros)) AllOrNothing (Tx.init Sock.established) udpOneEach := by
  refine meets_cons _ rfl trivial (meets_cons _ rfl trivial (meets_cons _ rfl ?_ (meets_cons _ rfl trivial
    (meets_cons _ rfl trivial (meets_cons _ rfl (fun _ _ => trivial) (meets_cons _ rfl trivial
    (meets_cons _ rfl trivial (meets_cons _ rfl trivial (meets_cons _ rfl trivial
    (meets_cons _ rfl trivial (meets_cons _ rfl ?_ (meets_cons _ rfl trivial
    (meets_cons _ rfl trivial trivial)))))))))))))
  · intro n hn
    cases hn
    exact Or.inr rfl
  · intro n hn
    cases hn
    exact Or.inr rfl

theorem datagrams_once_udpOneEach :
    ∃ s, run (Tx.step (udpSenderTo 1472 Heap.zeros)) (Tx.init Sock.established) udpOneEach = some s ∧
      ((sendtosOf (trace (Tx.step (udpSenderTo 1472 Heap.zeros)) (Tx.tells (udpSenderTo 1472 Heap.zeros))
        (Tx.init Sock.established) udpOneEach)).map Prod.fst).Nodup ∧
      s.kernel = ((sendtosOf (trace (Tx.step (udpSenderTo 1472 Heap.zeros))
        (Tx.tells (udpSenderTo 1472 Heap.zeros)) (Tx.init Sock.established) udpOneEach)).map
          Prod.snd).flatten := by
  have h : (run (Tx.step (udpSenderTo 1472 Heap.zeros)) (Tx.init Sock.established) udpOneEach).isSome
      = true := rfl
  obtain ⟨s, hs⟩ := Option.isSome_iff_exists.mp h
  have h1 := datagrams_once 1472 Heap.zeros _ _ udpOneEach_whole s hs
  exact ⟨s, hs, h1.1, h1.2.1⟩

end Swnet

import Swnet.TxBooks

/-!
# One thread that writes

While only one thread calls `tcp_write` on a link, the kernel takes the packets in the order of the
calls, whether they go out directly, in parts, or by way of the queue.

* `Seq`                  what the kernel has, what is queued and what the running call still has in
                         hand is what was accepted and what is running;
* `single_writer_order`  the bytes of the kernel are a prefix of it, in every state of every run.
-/

namespace Swnet
open CMem Runs

/-- the packets of the calls that have returned a non-negative value, in order -/
def accepted (s : Tx) : Bytes :=
  (s.rets.filter fun r => decide (0 ≤ r.2)).flatMap fun r => packet (s.nodes r.1)

/-- the packet of the call that thread `i` is in -/
def running (s : Tx) (i : Nat) : Bytes :=
  match (s.writer i).node with
  | none => []
  | some n => packet (s.nodes n)

/-- the part of it that is still in hand -/
def inHand (s : Tx) (i : Nat) : Bytes :=
  match (s.writer i).node with
  | none => []
  | some n => left (s.nodes n)

/-- what the queue holds -/
def inQueue (s : Tx) : Bytes := s.fifo.head.flatMap fun n => left (s.nodes n)

section
variable {Req : Type} {L : Sender Req} {s s' : Tx} {a : TxAct Req} {i : Nat}

/-- the actions of a run in which only thread `i` writes, its `send(2)` does not fail and the
`epoll_ctl(2)` of its `fifo_queue` succeeds -/
def OnlyWriter (i : Nat) : TxAct Req → Prop
  | .call j _ _ => j = i
  | .send _ r => r.Mild
  | .queue _ e => e = 0
  | _ => True

structure Seq (i : Nat) (s : Tx) : Prop where
  others : ∀ j, j ≠ i → s.writer j = .idle
  order : s.kernel ++ (inQueue s ++ inHand s i) = accepted s ++ running s i
  direct : ∀ n, s.writer i = .send n → s.fifo.head = []
  late : ∀ n, s.writer i = .queue n → s.fifo.head = [] ∨ (s.nodes n).offset = 0
  known : ∀ r, r ∈ s.rets → r.1 < s.count
  refused : ∀ r, r ∈ s.rets → r.2 < 0 → (s.nodes r.1).offset = 0 ∧
    r.1 ∉ s.queued.map Prod.fst ∧ (s.writer i).node ≠ some r.1

theorem accepted_ret (s : Tx) (i n : Nat) (v : Int) :
    accepted (s.ret i n v) = accepted s ++ if 0 ≤ v then packet (s.nodes n) else [] := by
  show ((s.rets ++ [(n, v)]).filter fun r => decide (0 ≤ r.2)).flatMap (fun r => packet (s.nodes r.1))
    = _
  unfold accepted
  rw [List.filter_append, List.flatMap_append]
  by_cases hv : 0 ≤ v
  · rw [if_pos hv]
    simp [hv]
  · rw [if_neg hv]
    simp [hv]

theorem running_of {n : Nat} (h : (s.writer i).node = some n) : running s i = packet (s.nodes n) := by
  unfold running
  rw [h]

theorem inHand_of {n : Nat} (h : (s.writer i).node = some n) : inHand s i = left (s.nodes n) := by
  unfold inHand
  rw [h]

theorem inQueue_nil (h : s.fifo.head = []) : inQueue s = [] := by
  unfold inQueue
  rw [h]
  rfl

theorem inQueue_cons {n : Nat} {rest : List Nat} (h : s.fifo.head = n :: rest) :
    inQueue s = left (s.nodes n) ++ rest.flatMap fun m => left (s.nodes m) := by
  unfold inQueue
  rw [h]
  rfl

theorem accepted_take (n k : Nat) : accepted (s.take n k) = accepted s :=
  List.flatMap_congr fun _ _ => take_packet ..

/-- where the thread is not in `tcp_txn` and has sent nothing, the packet in hand does not count -/
theorem Seq.untouched (Q : Seq i s) {n : Nat} (hw : (s.writer i).node = some n)
    (h0 : (s.nodes n).offset = 0) : s.kernel ++ inQueue s = accepted s := by
  have h1 := Q.order
  rw [running_of hw, inHand_of hw, left_all h0, ← List.append_assoc] at h1
  exact List.append_cancel_right h1

/-- a thread that is not idle is the one that writes -/
theorem Seq.here (Q : Seq i s) {j : Nat} {pc : Wpc} (hw : s.writer j = pc) (hpc : pc ≠ .idle) :
    j = i := by
  by_contra hj
  exact hpc (hw.symm.trans (Q.others j hj))

theorem idle_node {w : Nat → Wpc} (h : w i = .idle) : (w i).node = none := by
  rw [h]
  rfl

/-- the thread goes on with the same node, and nothing else changes -/
theorem Seq.setWriter (Q : Seq i s) {pc : Wpc} (hpc : pc.node = (s.writer i).node)
    (hd : ∀ n, pc = .send n → s.fifo.head = [])
    (hl : ∀ n, pc = .queue n → s.fifo.head = [] ∨ (s.nodes n).offset = 0) (sock : Sock) :
    Seq i ({ s with sock := sock }.setWriter i pc) := by
  have hself : Function.update s.writer i pc i = pc := Function.update_self ..
  have hnode : ((Tx.setWriter { s with sock := sock } i pc).writer i).node = (s.writer i).node :=
    (congrArg Wpc.node hself).trans hpc
  refine ⟨?_, ?_, ?_, ?_, Q.known, ?_⟩
  · intro j hj
    show Function.update s.writer i pc j = .idle
    rw [Function.update_of_ne hj]
    exact Q.others j hj
  · have h1 := Q.order
    unfold inHand running at h1 ⊢
    rw [hnode]
    exact h1
  · intro n hn
    exact hd n (hself.symm.trans hn)
  · intro n hn
    exact hl n (hself.symm.trans hn)
  · intro r hr h0
    obtain ⟨h1, h2, h3⟩ := Q.refused r hr h0
    exact ⟨h1, h2, by rw [hnode]; exact h3⟩

/-- a call returns: `v` is non-negative and the packet has left the hand, or nothing of it was sent -/
theorem Seq.ret {t : Tx} {n : Nat} {v : Int}
    (hothers : ∀ j, j ≠ i → t.writer j = .idle)
    (horder : t.kernel ++ inQueue t = accepted t ++ if 0 ≤ v then packet (t.nodes n) else [])
    (hknown : ∀ r, r ∈ t.rets → r.1 < t.count) (hn : n < t.count)
    (hrefused : ∀ r, r ∈ t.rets → r.2 < 0 → (t.nodes r.1).offset = 0 ∧ r.1 ∉ t.queued.map Prod.fst)
    (hv : v < 0 → (t.nodes n).offset = 0 ∧ n ∉ t.queued.map Prod.fst) : Seq i (t.ret i n v) := by
  have hself : Function.update t.writer i .idle i = .idle := Function.update_self ..
  have hmem : ∀ r, r ∈ t.rets ++ [(n, v)] → r ∈ t.rets ∨ r = (n, v) := by
    intro r hr
    rcases List.mem_append.mp hr with hr | hr
    · exact Or.inl hr
    · exact Or.inr (List.mem_singleton.mp hr)
  refine ⟨?_, ?_, ?_, ?_, ?_, ?_⟩
  · intro j hj
    show Function.update t.writer i .idle j = .idle
    rw [Function.update_of_ne hj]
    exact hothers j hj
  · have e1 : running (t.ret i n v) i = [] := by
      unfold running
      rw [show ((t.ret i n v).writer i).node = none from idle_node hself]
    have e2 : inHand (t.ret i n v) i = [] := by
      unfold inHand
      rw [show ((t.ret i n v).writer i).node = none from idle_node hself]
    rw [e1, e2, List.append_nil, List.append_nil, accepted_ret]
    exact horder
  · intro m hm
    cases hself.symm.trans hm
  · intro m hm
    cases hself.symm.trans hm
  · intro r hr
    rcases hmem r hr with hr | rfl
    · exact hknown r hr
    · exact hn
  · intro r hr h0
    have h3 : ((t.ret i n v).writer i).node ≠ some r.1 := by
      rw [show ((t.ret i n v).writer i).node = none from idle_node hself]
      exact fun h => by cases h
    rcases hmem r hr with hr | rfl
    · exact ⟨(hrefused r hr h0).1, (hrefused r hr h0).2, h3⟩
    · exact ⟨(hv h0).1, (hv h0).2, h3⟩

/-- a step of the pool that touches neither a node nor the queue -/
theorem Seq.pool (Q : Seq i s) (w : Xpc) (sock : Sock) (tasks : Nat) (closed : Bool) :
    Seq i { s with worker := w, sock := sock, tasks := tasks, closed := closed } :=
  ⟨Q.others, Q.order, Q.direct, Q.late, Q.known, Q.refused⟩

theorem Seq.call (B : Books L s) (Q : Seq i s) (hw : s.writer i = .idle) {node : TxNode}
    (h0 : node.offset = 0) :
    Seq i { s.setWriter i (.test s.count) with
      nodes := Function.update s.nodes s.count node, count := s.count + 1 } := by
  have hself : Function.update s.writer i (.test s.count) i = .test s.count := Function.update_self ..
  have hof : ∀ m, m < s.count → Function.update s.nodes s.count node m = s.nodes m :=
    fun m hm => Function.update_of_ne (Nat.ne_of_lt hm) ..
  have hnew : Function.update s.nodes s.count node s.count = node := Function.update_self ..
  refine ⟨?_, ?_, ?_, ?_, ?_, ?_⟩
  · intro j hj
    show Function.update s.writer i _ j = .idle
    rw [Function.update_of_ne hj]
    exact Q.others j hj
  · have h1 := Q.order
    unfold inHand running at h1
    rw [idle_node hw] at h1
    dsimp only at h1
    rw [List.append_nil, List.append_nil] at h1
    unfold inHand running
    rw [show (({ s.setWriter i (.test s.count) with
      nodes := Function.update s.nodes s.count node, count := s.count + 1 } : Tx).writer i).node
        = some s.count from congrArg Wpc.node hself]
    show s.kernel ++ (s.fifo.head.flatMap (fun m => left (Function.update s.nodes s.count node m))
        ++ left (Function.update s.nodes s.count node s.count))
      = (s.rets.filter fun r => decide (0 ≤ r.2)).flatMap
          (fun r => packet (Function.update s.nodes s.count node r.1))
        ++ packet (Function.update s.nodes s.count node s.count)
    have e1 : s.fifo.head.flatMap (fun m => left (Function.update s.nodes s.count node m)) = inQueue s :=
      List.flatMap_congr fun m hm => by rw [hof m (B.known m (B.in_queue hm))]
    have e2 : (s.rets.filter fun r => decide (0 ≤ r.2)).flatMap
        (fun r => packet (Function.update s.nodes s.count node r.1)) = accepted s :=
      List.flatMap_congr fun r hr => by rw [hof r.1 (Q.known r (List.mem_of_mem_filter hr))]
    rw [e1, e2, hnew, left_all h0, ← List.append_assoc, h1]
  · intro n hn
    cases hself.symm.trans hn
  · intro n hn
    cases hself.symm.trans hn
  · intro r hr
    exact Nat.lt_succ_of_lt (Q.known r hr)
  · intro r hr hneg
    have hlt := Q.known r hr
    obtain ⟨h1, h2, _⟩ := Q.refused r hr hneg
    refine ⟨?_, h2, ?_⟩
    · show (Function.update s.nodes s.count node r.1).offset = 0
      rw [hof r.1 hlt]
      exact h1
    · intro h
      have h4 : (Function.update s.writer i (.test s.count) i).node = some r.1 := h
      rw [hself] at h4
      have h5 : s.count = r.1 := Option.some.inj h4
      omega

/-- bytes that the pool sends -/
theorem Seq.takeFront (B : Books L s) (Q : Seq i s) {n k : Nat} (hw : s.worker = .send n)
    (hk : (s.nodes n).offset + k ≤ (s.nodes n).wcb) (w : Xpc) (drained : Bytes) :
    Seq i { s.take n k with drained := drained, worker := w } := by
  obtain ⟨rest, hh⟩ := head_of_head? (B.worker n hw)
  have hmem : n ∈ s.fifo.head := by rw [hh]; exact List.mem_cons_self ..
  have hO := B.nodes n (B.known n (B.in_queue hmem))
  have hself : (s.take n k).nodes n = (s.nodes n).advance k := Function.update_self ..
  have hof : ∀ m, m ≠ n → (s.take n k).nodes m = s.nodes m := fun m hm => Function.update_of_ne hm ..
  have hhand : ∀ m, (s.writer i).node = some m → m ≠ n := fun m hm hmn => B.node_ne hm hmem hmn.symm
  refine ⟨Q.others, ?_, Q.direct, ?_, Q.known, ?_⟩
  · have h1 := Q.order
    have e1 : inHand (s.take n k) i = inHand s i := by
      unfold inHand
      cases hc : (s.writer i).node with
      | none => rw [show ((s.take n k).writer i).node = none from hc]
      | some m =>
        rw [show ((s.take n k).writer i).node = some m from hc]
        dsimp only
        rw [hof m (hhand m hc)]
    have e2 : running (s.take n k) i = running s i := by
      unfold running
      cases hc : (s.writer i).node with
      | none => rw [show ((s.take n k).writer i).node = none from hc]
      | some m =>
        rw [show ((s.take n k).writer i).node = some m from hc]
        exact take_packet ..
    have e3 : inQueue s = piece (s.nodes n) k ++ inQueue (s.take n k) := by
      rw [inQueue_cons hh, inQueue_cons (s := s.take n k) hh, hself, left_advance hO hk,
        List.append_assoc]
      congr 2
      exact List.flatMap_congr fun m hm => by rw [hof m (B.front_ne hh hm)]
    show (s.kernel ++ piece (s.nodes n) k) ++ (inQueue (s.take n k) ++ inHand (s.take n k) i)
      = accepted (s.take n k) ++ running (s.take n k) i
    rw [accepted_take, e2, ← h1, e1, e3, List.append_assoc, List.append_assoc]
  · intro m hm
    rcases Q.late m hm with h | h
    · exact Or.inl h
    · right
      show ((s.take n k).nodes m).offset = 0
      rw [hof m (hhand m (by rw [show s.writer i = .queue m from hm]; rfl))]
      exact h
  · intro r hr h0
    obtain ⟨h1, h2, h3⟩ := Q.refused r hr h0
    refine ⟨?_, h2, h3⟩
    have hne : r.1 ≠ n := by
      intro he
      rw [he] at h2
      exact h2 (B.in_queue hmem)
    show ((s.take n k).nodes r.1).offset = 0
    rw [hof r.1 hne]
    exact h1

/-- bytes that the thread sends itself: the state before the thread goes on -/
theorem Seq.takeHeld (B : Books L s) (Q : Seq i s) {n k : Nat} (hw : s.writer i = .send n)
    (hk : (s.nodes n).offset + k ≤ (s.nodes n).wcb) : Seq i (s.take n k) := by
  have hn : (s.writer i).node = some n := by rw [hw]; rfl
  have hhead := Q.direct n hw
  have hO := B.nodes n (B.held i n hn).1
  have hself : (s.take n k).nodes n = (s.nodes n).advance k := Function.update_self ..
  refine ⟨Q.others, ?_, Q.direct, fun m _ => Or.inl hhead, Q.known, ?_⟩
  · have h1 := Q.order
    rw [inQueue_nil hhead, running_of hn, inHand_of hn, left_advance hO hk] at h1
    rw [inQueue_nil (s := s.take n k) hhead, accepted_take, running_of (s := s.take n k) hn,
      inHand_of (s := s.take n k) hn, take_packet, hself]
    show (s.kernel ++ piece (s.nodes n) k) ++ _ = _
    rw [← h1, List.append_assoc]
    rfl
  · intro r hr h0
    obtain ⟨h1, h2, h3⟩ := Q.refused r hr h0
    refine ⟨?_, h2, h3⟩
    have hne : r.1 ≠ n := by
      intro he
      rw [he] at h3
      exact h3 hn
    show (Function.update s.nodes n _ r.1).offset = 0
    rw [Function.update_of_ne hne]
    exact h1

/-- a node leaves the queue -/
theorem Seq.popFront (B : Books L s) (Q : Seq i s) (hs : L.Spent s) {n : Nat} {rest : List Nat}
    {fifo' : Fifo} (hh : s.fifo.head = n :: rest) (hr : fifo'.head = rest) (sock : Sock) (w : Xpc)
    (tasks : Nat) :
    Seq i { s with fifo := fifo', sock := sock, popped := s.popped ++ [n], worker := w,
                   tasks := tasks } := by
  have hne : s.fifo.head ≠ [] := by rw [hh]; exact List.cons_ne_nil _ _
  obtain ⟨m, rest', hh', he⟩ := B.spent hs
  rw [hh] at hh'
  cases hh'
  have hO := B.nodes n (B.known n (B.in_queue (by rw [hh]; exact List.mem_cons_self ..)))
  refine ⟨Q.others, ?_, ?_, ?_, Q.known, Q.refused⟩
  · have h1 := Q.order
    rw [inQueue_cons hh, left_nil hO he, List.nil_append] at h1
    show s.kernel ++ (fifo'.head.flatMap (fun m => left (s.nodes m)) ++ inHand s i)
      = accepted s ++ running s i
    rw [hr]
    exact h1
  · intro m hm
    exact absurd (Q.direct m hm) hne
  · intro m hm
    rcases Q.late m hm with h | h
    · exact absurd h hne
    · exact Or.inr h

theorem Seq.enqueue (B : Books L s) (Q : Seq i s) {n : Nat} {fifo' : Fifo} (hw : s.writer i = .queue n)
    (hh : fifo'.head = s.fifo.head ++ [n]) (sock : Sock) :
    Seq i ({ s with fifo := fifo', sock := sock,
                    queued := s.queued ++ [(n, (s.nodes n).offset)] }.ret i n 0) := by
  have hn : (s.writer i).node = some n := by rw [hw]; rfl
  refine Seq.ret Q.others ?_ Q.known (B.held i n hn).1 ?_ (fun h => absurd h (by decide))
  · have h1 := Q.order
    rw [running_of hn, inHand_of hn] at h1
    show s.kernel ++ fifo'.head.flatMap (fun m => left (s.nodes m)) = accepted s ++ if (0 : Int) ≤ 0 then
      packet (s.nodes n) else []
    rw [hh, List.flatMap_append, List.flatMap_singleton, if_pos (Int.le_refl 0)]
    exact h1
  · intro r hr h0
    obtain ⟨h1, h2, h3⟩ := Q.refused r hr h0
    refine ⟨h1, ?_⟩
    show r.1 ∉ (s.queued ++ [(n, (s.nodes n).offset)]).map Prod.fst
    rw [List.map_append, List.mem_append]
    rintro (h4 | h4)
    · exact h2 h4
    · rw [List.mem_singleton.mp h4] at h3
      exact h3 hn

theorem move_seq (hp : L.proto = .tcp) (B : Books L s) (Q : Seq i s) (ha : OnlyWriter i a)
    (h : Move L s a s') : Seq i s' := by
  cases h with
  | same => exact Q
  | @call j q behind node hw hf hl =>
    have hj : j = i := ha
    subst hj
    exact Q.call B hw (L.fresh _ _ hf).1
  | @testSend j n hw hh =>
    have hj := Q.here hw (by simp)
    subst hj
    exact Q.setWriter (by rw [hw]; rfl) (fun _ _ => hh) (fun _ h => by cases h) s.sock
  | @testQueue j n hw hh =>
    have hj := Q.here hw (by simp)
    subst hj
    exact Q.setWriter (by rw [hw]; rfl) (fun _ h => by cases h)
      (fun m h => by cases h; exact Or.inr (B.fresh j n hw)) s.sock
  | @sendSome j n k hw h0 hk =>
    have hj := Q.here hw (by simp)
    subst hj
    exact Q.takeHeld B hw (by omega)
  | @sendAll j n k hw h0 hk =>
    have hj := Q.here hw (by simp)
    subst hj
    have hn : (s.writer j).node = some n := by rw [hw]; rfl
    have hO := B.nodes n (B.held j n hn).1
    have hpos := hO.pos
    have T := Q.takeHeld B hw (Int.le_of_eq hk)
    refine Seq.ret T.others ?_ T.known (B.held j n hn).1
      (fun r hr hneg => ⟨(T.refused r hr hneg).1, (T.refused r hr hneg).2.1⟩) (fun h => by omega)
    have h1 := T.order
    have hself : (s.take n k).nodes n = (s.nodes n).advance k := Function.update_self ..
    rw [running_of (s := s.take n k) hn, inHand_of (s := s.take n k) hn] at h1
    rw [if_pos (by omega), ← h1, hself, left_nil (hO.advance (Int.le_of_eq hk)) hk, List.append_nil]
  | @sendAgain j n hw =>
    have hj := Q.here hw (by simp)
    subst hj
    exact Q.setWriter (by rw [hw]; rfl) (fun _ h => by cases h) (fun _ _ => Or.inl (Q.direct n hw)) _
  | @sendFail j n r hw hr =>
    have hmild : r.Mild := ha
    rcases hr with rfl | ⟨e, rfl, h1, h2⟩
    · exact absurd hmild (Nat.lt_irrefl 0)
    · rcases hmild with h | h
      · exact absurd h h2
      · exact absurd h h1
  | @queueNo j n e r hw hr hh =>
    have hj := Q.here hw (by simp)
    subst hj
    have hn : (s.writer j).node = some n := by rw [hw]; rfl
    -- refused because the queue is full, so the packet came here from `fifo_is_blocking`
    have h0 : (s.nodes n).offset = 0 := by
      rcases hh with hh | ⟨_, he⟩
      · exact (Q.late n hw).resolve_left hh
      · exact absurd ha he
    refine Seq.ret Q.others ?_ Q.known (B.held j n hn).1
      (fun r hr hneg => ⟨(Q.refused r hr hneg).1, (Q.refused r hr hneg).2.1⟩)
      (fun _ => ⟨h0, (B.held j n hn).2⟩)
    rw [if_neg (by omega), List.append_nil]
    exact Q.untouched hn h0
  | @queueYes j n e fifo' sock' hw ho hh hs =>
    have hj := Q.here hw (by simp)
    subst hj
    exact Q.enqueue B hw hh sock'
  | task => exact Q.pool ..
  | exec hw ht => exact Q.pool ..
  | topFail hw => exact Q.pool ..
  | topNone hw hh => exact Q.pool ..
  | topSend hw hh => exact Q.pool ..
  | @wsendSome n k hw h0 hk => exact Q.takeFront B hw (by omega) s.worker _
  | wsendAll hw h0 hk => exact Q.takeFront B hw (by omega) _ _
  | wsendAgain hw => exact Q.pool ..
  | wsendFail hw => exact Q.pool ..
  | txPop hw hh ho hr hs =>
    have h1 := B.pops hw
    rw [hp] at h1
    cases h1
  | popNone hw hh => exact Q.pool ..
  | pop hw hh ho hr hs => exact Q.popFront B (Or.inr ⟨hw, by rw [hp]; rfl⟩) hh hr _ _ _
  | room => exact Q.pool ..
  | close => exact Q.pool ..

theorem run_seq (hp : L.proto = .tcp) {sock : Sock} {as : List (TxAct Req)}
    (ha : ∀ a, a ∈ as → OnlyWriter i a) (h : run (Tx.step L) (Tx.init sock) as = some s) :
    Seq i s := by
  refine run_moves (C := fun _ a => OnlyWriter i a)
    (fun s a s' B Q hCa M => move_seq hp B Q hCa M) ?_ (meets_all _ ha) h
  refine ⟨fun _ _ => rfl, rfl, ?_, ?_, ?_, ?_⟩
  · intro n hn
    cases hn
  · intro n hn
    cases hn
  · intro r hr
    exact absurd hr List.not_mem_nil
  · intro r hr
    exact absurd hr List.not_mem_nil

/-- where the header is built or there is none, a packet is the buffer that `tcp_write` filled -/
theorem packet_built {H : Heap} {ncb : Ncb} {hcb : 0 ≤ ncb.tcp.template.cb_} (hf : ncb.Framed)
    (B : Books (tcpSender H ncb hcb) s) {n : Nat} (hn : n < s.count) :
    ∃ q : WriteReq, tcpWriteNode H q.k ncb true q.ktcp q.origin q.cb q.serializer
      = .ok (.ok ⟨packet (s.nodes n), (packet (s.nodes n)).length, 0⟩) := by
  obtain ⟨q, node, behind, hq, hp⟩ := B.made n hn
  have hq' : tcpWriteNode H q.k ncb true q.ktcp q.origin q.cb q.serializer = .ok (.ok node) := hq
  obtain ⟨h1, h2⟩ := writeNode_length hf hq'
  have hpk : packet (s.nodes n) = node.data := by
    rw [hp, h1, Int.toNat_natCast, List.take_left]
  refine ⟨q, ?_⟩
  rw [hq', hpk, ← h1]
  congr 2
  rw [← h2]

end

/-- **With a single writer the direct path and the queued path preserve order.** -/
theorem single_writer_order (H : Heap) (ncb : Ncb) (hcb : 0 ≤ ncb.tcp.template.cb_) (hf : ncb.Framed)
    (sock : Sock) (i : Nat) (as : List (TxAct WriteReq)) (ha : ∀ a, a ∈ as → OnlyWriter i a) (s : Tx)
    (h : run (Tx.step (tcpSender H ncb hcb)) (Tx.init sock) as = some s) :
    s.kernel <+: accepted s ++ running s i ∧
      (∀ r, r ∈ s.rets → r.2 < 0 → (s.nodes r.1).offset = 0) ∧
      (s.fifo.head = [] → s.writer i = .idle → s.kernel = accepted s) ∧
      ∀ n, n < s.count → ∃ q : WriteReq,
        tcpWriteNode H q.k ncb true q.ktcp q.origin q.cb q.serializer
          = .ok (.ok ⟨packet (s.nodes n), (packet (s.nodes n)).length, 0⟩) := by
  have B := run_books h
  have Q : Seq i s := run_seq (L := tcpSender H ncb hcb) rfl ha h
  have horder := Q.order
  refine ⟨⟨_, horder⟩, fun r hr h0 => (Q.refused r hr h0).1, ?_, fun n hn => packet_built hf B hn⟩
  intro hh hw
  unfold running inHand at horder
  rw [idle_node hw, inQueue_nil hh] at horder
  dsimp only at horder
  rwa [List.append_nil, List.append_nil, List.append_nil] at horder

/-- a packet goes out in two parts, the second by way of the queue -/
def twoParts : List (TxAct WriteReq) :=
  [.call 0 ⟨0, none, [7], 1, none⟩ [], .test 0, .send 0 (.bytes 3), .send 0 (.err EAGAIN), .queue 0 0,
    .room, .task, .exec, .top none, .wsend (.bytes 2), .pop 0]

theorem single_writer_order_len4 :
    ∃ s, run (Tx.step (tcpSender Heap.zeros (Rx.fresh [] Attr.clear Wire.len4.tst).ncb (by decide)))
        (Tx.init Sock.established) twoParts = some s ∧
      s.kernel <+: accepted s ++ running s 0 ∧
      (∀ r, r ∈ s.rets → r.2 < 0 → (s.nodes r.1).offset = 0) ∧
      (s.fifo.head = [] → s.writer 0 = .idle → s.kernel = accepted s) ∧
      ∀ n, n < s.count → ∃ q : WriteReq,
        tcpWriteNode Heap.zeros q.k (Rx.fresh [] Attr.clear Wire.len4.tst).ncb true q.ktcp q.origin q.cb
          q.serializer = .ok (.ok ⟨packet (s.nodes n), (packet (s.nodes n)).length, 0⟩) := by
  have hsome : (run (Tx.step (tcpSender Heap.zeros (Rx.fresh [] Attr.clear Wire.len4.tst).ncb
      (by decide))) (Tx.init Sock.established) twoParts).isSome = true := rfl
  obtain ⟨s, hs⟩ := Option.isSome_iff_exists.mp hsome
  refine ⟨s, hs, single_writer_order _ _ _ (Or.inl ⟨rfl, rfl⟩) _ 0 twoParts ?_ s hs⟩
  intro a ha
  simp only [twoParts, List.mem_cons, List.not_mem_nil, or_false] at ha
  rcases ha with rfl | rfl | rfl | rfl | rfl | rfl | rfl | rfl | rfl | rfl | rfl
  · rfl
  · trivial
  · exact Nat.succ_pos 2
  · exact Or.inr rfl
  · rfl
  all_goals trivial

end Swnet

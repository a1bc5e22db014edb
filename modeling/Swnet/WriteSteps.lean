import Swnet.TxBooks
import Swnet.WriteCall

/-!
# The calls of a run

`Tx` has `tcp_write` in steps, between which other threads and the pool come in; `tcpWrite` is the whole
call, as a function of what it finds and is answered.  Here the steps of each call are put together again.

* `Tx.reports`        what a step tells of the call that it belongs to;
* `Going`             the loop of `tcp_txn` behind some of its answers;
* `Told`, `Reported`  the calls under way, and those that have returned;
* `calls_are_writes`  each call that has returned is a `tcpWrite` of what it was answered;
-/

namespace Swnet
open CMem Runs

/-! ## what is told -/

/-- what a call does and is answered -/
inductive CallEvent (Req : Type) where
  | call (q : Req)
  /-- by `fifo_is_blocking` -/
  | test (blocking : Int)
  /-- by `send(2)` -/
  | send (r : Sent)
  /-- what `fifo_queue` finds -/
  | queue (fifo : Fifo) (sock : Sock) (e : Nat)

section
variable {Req : Type} (L : Sender Req)

/-- the step of a call, with the node of the call -/
def Tx.reports (s : Tx) : TxAct Req → List (Nat × CallEvent Req)
  | .call i q behind =>
    if (s.step L (.call i q behind)).map Tx.count = some s.count then [] else [(s.count, .call q)]
  | .test i =>
    match s.writer i with
    | .test n => [(n, .test (fifoIsBlocking s.fifo))]
    | _ => []
  | .send i r =>
    match s.writer i with
    | .send n => [(n, .send r)]
    | _ => []
  | .queue i e =>
    match s.writer i with
    | .queue n => [(n, .queue s.fifo s.sock e)]
    | _ => []
  | _ => []

/-- the call that built the node -/
def historyOf (n : Nat) (es : List (Nat × CallEvent Req)) : List (CallEvent Req) :=
  (es.filter fun e => e.1 = n).map Prod.snd

/-- `tcp_txn` is in its loop and has been answered `rs` -/
def Going (node : TxNode) (rs : List Sent) : Prop :=
  ∀ rs', tcpTxnLoop node (rs ++ rs') = tcpTxnLoop (node.advance (taken rs)) rs'

/-- A call that is under way, where its thread is.  `nd` is the node as it is now. -/
inductive Told (nd : TxNode) (hist : List (CallEvent Req)) : Wpc → Prop
  | test (n : Nat) (q : Req) (node : TxNode) (hf : L.front q = .ok (.ok node)) (hw : nd.wcb = node.wcb)
      (hh : hist = [.call q]) : Told nd hist (.test n)
  | send (n : Nat) (q : Req) (node : TxNode) (rs : List Sent) (hf : L.front q = .ok (.ok node))
      (hw : nd.wcb = node.wcb) (ho : nd.offset = taken rs) (hg : Going node rs)
      (hh : hist = .call q :: .test 0 :: rs.map .send) : Told nd hist (.send n)
  | queue (n : Nat) (q : Req) (node : TxNode) (b : Int) (rs : List Sent)
      (hf : L.front q = .ok (.ok node))
      (he : b ≠ 0 ∧ rs = [] ∨ b = 0 ∧ ∃ node', tcpTxnLoop node rs = some (node', -EAGAIN))
      (hh : hist = .call q :: .test b :: rs.map .send) : Told nd hist (.queue n)

/-- what a call that has the node tells, given all that it finds and is answered -/
def WriteEnv.events (env : WriteEnv) (node : TxNode) : List (CallEvent Req) :=
  .test env.blocking :: (env.sends.map .send ++
    if env.blocking ≠ 0 ∨ (tcpTxnLoop node env.sends).map Prod.snd = some (-EAGAIN) then
      [.queue env.fifo env.sock env.e]
    else [])

/-- a call that has returned `v`: the steps behind its node are `tcpWriteSend` -/
def Ended (n : Nat) (hist : List (CallEvent Req)) (v : Int) : Prop :=
  ∃ q node env w, L.front q = .ok (.ok node) ∧ tcpWriteSend env node = some w ∧ w.ret = v ∧
    env.refr = 0 ∧ env.ready = true ∧ env.id = n ∧ hist = .call q :: env.events node

/-- the state and all that was told -/
structure Reported (s : Tx) (es : List (Nat × CallEvent Req)) : Prop where
  held : ∀ i n, (s.writer i).node = some n → Told L (s.nodes n) (historyOf n es) (s.writer i)
  ended : ∀ r, r ∈ s.rets → r.1 < s.count ∧ (∀ i, (s.writer i).node ≠ some r.1) ∧
    Ended L r.1 (historyOf r.1 es) r.2
  unborn : ∀ n, s.count ≤ n → historyOf n es = []

variable {L} {s s' : Tx} {es : List (Nat × CallEvent Req)} {node : TxNode} {rs : List Sent} {r : Sent}

/-! ## the loop, answer by answer -/

theorem taken_append (rs rs' : List Sent) : taken (rs ++ rs') = taken rs + taken rs' := by
  induction rs with
  | nil => exact (Nat.zero_add _).symm
  | cons r rs ih =>
    cases r with
    | bytes k =>
      show k + taken (rs ++ rs') = k + taken rs + taken rs'
      omega
    | err e => exact ih

theorem advance_advance (node : TxNode) (j k : Nat) :
    (node.advance j).advance k = node.advance (j + k) := by
  unfold TxNode.advance
  dsimp only
  rw [Int.add_assoc, Nat.cast_add]

/-- what a round answers depends on the two numbers of the node only -/
theorem round_answer {nd nd' : TxNode} (ho : nd.offset = nd'.offset) (hw : nd.wcb = nd'.wcb) (r : Sent) :
    (txnRound nd r).2 = (txnRound nd' r).2 := by
  cases r with
  | bytes k =>
    unfold txnRound txnHead TxNode.advance
    dsimp only
    split
    · rfl
    · dsimp only
      rw [ho, hw]
  | err e =>
    unfold txnRound
    dsimp only
    split
    · rfl
    · split <;> rfl

theorem going_nil (node : TxNode) : Going node [] := by
  intro rs'
  have h0 : node.advance 0 = node := by
    unfold TxNode.advance
    rw [Int.natCast_zero, Int.add_zero]
  show tcpTxnLoop node rs' = tcpTxnLoop (node.advance 0) rs'
  rw [h0]

/-- one round of the loop -/
theorem loop_round (hl : (node.advance (taken rs)).offset < node.wcb)
    (hf : (node.advance (taken rs)).fits r = true) (hg : Going node rs) (rs' : List Sent) :
    tcpTxnLoop node (rs ++ r :: rs') =
      (tcpTxn (node.advance (taken rs)) r).2.elim (tcpTxnLoop (node.advance (taken (rs ++ [r]))) rs')
        fun v => if rs' = [] then some (node.advance (taken (rs ++ [r])), v) else none := by
  have hguard : txnHead (node.advance (taken rs)) = none ∧ (node.advance (taken rs)).fits r = true :=
    ⟨txnHead_none hl, hf⟩
  have hnode : (tcpTxn (node.advance (taken rs)) r).1 = node.advance (taken (rs ++ [r])) := by
    rw [round_offset, advance_advance, taken_append]
  rw [hg (r :: rs'), ← hnode]
  show (if txnHead _ = none ∧ _ then _ else none) = _
  rw [if_pos hguard]
  obtain ⟨nd, o⟩ := tcpTxn (node.advance (taken rs)) r
  cases o <;> rfl

theorem going_snoc (hl : (node.advance (taken rs)).offset < node.wcb)
    (hf : (node.advance (taken rs)).fits r = true) (hg : Going node rs)
    (hv : (tcpTxn (node.advance (taken rs)) r).2 = none) : Going node (rs ++ [r]) := by
  intro rs'
  rw [List.append_assoc, List.singleton_append, loop_round hl hf hg, hv]
  rfl

theorem going_end (hl : (node.advance (taken rs)).offset < node.wcb)
    (hf : (node.advance (taken rs)).fits r = true) (hg : Going node rs) {v : Int}
    (hv : (tcpTxn (node.advance (taken rs)) r).2 = some v) :
    tcpTxnLoop node (rs ++ [r]) = some (node.advance (taken (rs ++ [r])), v) := by
  rw [loop_round hl hf hg, hv]
  rfl

/-! ## the events of a node -/

theorem historyOf_append (n : Nat) (es fs : List (Nat × CallEvent Req)) :
    historyOf n (es ++ fs) = historyOf n es ++ historyOf n fs := by
  unfold historyOf
  rw [List.filter_append, List.map_append]

theorem historyOf_self (n : Nat) (es : List (Nat × CallEvent Req)) (e : CallEvent Req) :
    historyOf n (es ++ [(n, e)]) = historyOf n es ++ [e] := by
  rw [historyOf_append]
  unfold historyOf
  rw [List.filter_cons_of_pos (by simp)]
  rfl

theorem historyOf_other {n m : Nat} (h : m ≠ n) (es : List (Nat × CallEvent Req)) (e : CallEvent Req) :
    historyOf m (es ++ [(n, e)]) = historyOf m es := by
  rw [historyOf_append]
  unfold historyOf
  rw [List.filter_cons_of_neg (by simpa using fun h' => h h'.symm)]
  exact List.append_nil _

/-! ## one step -/

/-- a step that belongs to no call -/
theorem Reported.same (G : Reported L s es) (hw : s'.writer = s.writer) (hr : s'.rets = s.rets)
    (hc : s'.count = s.count) (hn : ∀ i n, (s.writer i).node = some n → s'.nodes n = s.nodes n) :
    Reported L s' es where
  held i n h := by
    rw [hw] at h ⊢
    rw [hn i n h]
    exact G.held i n h
  ended r h := by
    rw [hc, hw]
    rw [hr] at h
    exact G.ended r h
  unborn n h := by
    rw [hc] at h
    exact G.unborn n h

section
variable {i n : Nat} {e : CallEvent Req}

/-- the call of thread `i` goes on -/
theorem Reported.goesOn (B : Books L s) (G : Reported L s es) (pc : Wpc) (hi : (s.writer i).node = some n)
    (hpc : pc.node = some n) (hw : s'.writer = Function.update s.writer i pc)
    (hn : ∀ m, m ≠ n → s'.nodes m = s.nodes m) (hc : s'.count = s.count) (hr : s'.rets = s.rets)
    (hT : Told L (s'.nodes n) (historyOf n es ++ [e]) pc) : Reported L s' (es ++ [(n, e)]) where
  held j m h := by
    rw [hw] at h ⊢
    by_cases hj : j = i
    · subst hj
      rw [Function.update_self] at h ⊢
      obtain rfl := Option.some.inj (hpc.symm.trans h)
      rw [historyOf_self]
      exact hT
    · rw [Function.update_of_ne hj] at h ⊢
      have hm : m ≠ n := by
        rintro rfl
        exact hj (B.apart j i m h hi)
      rw [hn m hm, historyOf_other hm]
      exact G.held j m h
  ended r h := by
    rw [hr] at h
    obtain ⟨h1, h2, h3⟩ := G.ended r h
    have hm : r.1 ≠ n := fun he => h2 i (by rw [he]; exact hi)
    rw [hc, historyOf_other hm]
    refine ⟨h1, fun j => ?_, h3⟩
    rw [hw]
    by_cases hj : j = i
    · subst hj
      rw [Function.update_self, hpc]
      exact fun he => hm (Option.some.inj he).symm
    · rw [Function.update_of_ne hj]
      exact h2 j
  unborn m h := by
    rw [hc] at h
    have hm : m ≠ n := by
      rintro rfl
      exact absurd (B.held i m hi).1 (by omega)
    rw [historyOf_other hm]
    exact G.unborn m h

/-- the call of thread `i` returns -/
theorem Reported.returns (B : Books L s) (G : Reported L s es) (v : Int) (hi : (s.writer i).node = some n)
    (hw : s'.writer = Function.update s.writer i .idle) (hn : ∀ m, m ≠ n → s'.nodes m = s.nodes m)
    (hc : s'.count = s.count) (hr : s'.rets = s.rets ++ [(n, v)])
    (hE : Ended L n (historyOf n es ++ [e]) v) : Reported L s' (es ++ [(n, e)]) := by
  have hfree : ∀ m, (∀ j, (s.writer j).node ≠ some m) ∨ m = n →
      ∀ j, (s'.writer j).node ≠ some m := by
    intro m hm j
    rw [hw]
    by_cases hj : j = i
    · subst hj
      rw [Function.update_self]
      exact nofun
    · rw [Function.update_of_ne hj]
      rcases hm with hm | rfl
      · exact hm j
      · exact fun h => hj (B.apart j i m h hi)
  have hlt := (B.held i n hi).1
  refine ⟨fun j m h => ?_, fun r h => ?_, fun m h => ?_⟩
  · have hj : j ≠ i := by
      rintro rfl
      rw [hw, Function.update_self] at h
      cases h
    have hm : m ≠ n := by
      rintro rfl
      exact hfree m (Or.inr rfl) j h
    rw [hw, Function.update_of_ne hj] at h ⊢
    rw [hn m hm, historyOf_other hm]
    exact G.held j m h
  · rw [hc]
    rw [hr] at h
    rcases List.mem_append.mp h with h | h
    · obtain ⟨h1, h2, h3⟩ := G.ended r h
      have hm : r.1 ≠ n := fun he => h2 i (by rw [he]; exact hi)
      rw [historyOf_other hm]
      exact ⟨h1, hfree r.1 (Or.inl h2), h3⟩
    · rw [List.mem_singleton.mp h, historyOf_self]
      exact ⟨hlt, hfree n (Or.inr rfl), hE⟩
  · rw [hc] at h
    have hm : m ≠ n := by
      rintro rfl
      omega
    rw [historyOf_other hm]
    exact G.unborn m h

/-- a call that builds a node -/
theorem Reported.call (B : Books L s) (G : Reported L s es) {q : Req} {node : TxNode} {behind : Bytes}
    (hi : s.writer i = .idle) (hf : L.front q = .ok (.ok node)) :
    Reported L { s.setWriter i (.test s.count) with
      nodes := Function.update s.nodes s.count { node with data := node.data ++ behind }
      count := s.count + 1 } (es ++ [(s.count, .call q)]) where
  held j m h := by
    change (Function.update s.writer i (.test s.count) j).node = some m at h
    show Told L (Function.update s.nodes s.count { node with data := node.data ++ behind } m) _
      (Function.update s.writer i (.test s.count) j)
    by_cases hj : j = i
    · subst hj
      rw [Function.update_self] at h ⊢
      cases h
      rw [Function.update_self, historyOf_self, G.unborn s.count (Nat.le_refl _)]
      exact .test _ q node hf rfl rfl
    · rw [Function.update_of_ne hj] at h ⊢
      have hm : m ≠ s.count := Nat.ne_of_lt (B.held j m h).1
      rw [Function.update_of_ne hm, historyOf_other hm]
      exact G.held j m h
  ended r h := by
    obtain ⟨h1, h2, h3⟩ := G.ended r h
    have hm : r.1 ≠ s.count := Nat.ne_of_lt h1
    rw [historyOf_other hm]
    refine ⟨Nat.lt_succ_of_lt h1, fun j => ?_, h3⟩
    show (Function.update s.writer i (.test s.count) j).node ≠ some r.1
    by_cases hj : j = i
    · subst hj
      rw [Function.update_self]
      exact fun he => hm (Option.some.inj he).symm
    · rw [Function.update_of_ne hj]
      exact h2 j
  unborn m h := by
    have hm : m ≠ s.count := Nat.ne_of_gt h
    rw [historyOf_other hm]
    exact G.unborn m (Nat.le_of_succ_le h)

end

section
variable {i : Nat} {e : Nat}

/-- `fifo_is_blocking` -/
theorem Reported.test (B : Books L s) (G : Reported L s es) (h : s.step L (.test i) = some s') :
    Reported L s' (es ++ s.reports L (.test i)) := by
  have hreports : ∀ n, s.writer i = .test n →
      s.reports L (.test i) = [(n, .test (fifoIsBlocking s.fifo))] := by
    intro n hw
    unfold Tx.reports
    dsimp only
    rw [hw]
  have hnode : ∀ n, s.writer i = .test n → (s.writer i).node = some n := fun n hw => by
    rw [hw]
    rfl
  have htold : ∀ n, s.writer i = .test n → ∃ q node, L.front q = .ok (.ok node) ∧
      (s.nodes n).wcb = node.wcb ∧ historyOf n es = [.call q] := by
    intro n hw
    have hT := G.held i n (hnode n hw)
    rw [hw] at hT
    cases hT with
    | test _ q node hf hwcb hh => exact ⟨q, node, hf, hwcb, hh⟩
  cases test_move B h with
  | same ha => rcases ha with ⟨_, _, _, ha⟩ | ⟨_, ha⟩ | ha <;> cases ha
  | @testSend _ n hw hh =>
    obtain ⟨q, node, hf, hwcb, hhist⟩ := htold n hw
    rw [hreports n hw]
    refine G.goesOn B (.send n) (hnode n hw) rfl rfl (fun _ _ => rfl) rfl rfl ?_
    refine .send n q node [] hf hwcb ?_ (going_nil node) ?_
    · exact B.fresh i n hw
    · have hb : fifoIsBlocking s.fifo = 0 := B.fifo.blocking_zero.mpr hh
      rw [hhist, hb]
      rfl
  | @testQueue _ n hw hh =>
    obtain ⟨q, node, hf, _, hhist⟩ := htold n hw
    rw [hreports n hw]
    refine G.goesOn B (.queue n) (hnode n hw) rfl rfl (fun _ _ => rfl) rfl rfl ?_
    refine .queue n q node (fifoIsBlocking s.fifo) [] hf (Or.inl ⟨?_, rfl⟩) ?_
    · exact fun hb => hh (B.fifo.blocking_zero.mp hb)
    · rw [hhist]
      rfl

/-- `send(2)` in `tcp_txn` -/
theorem Reported.send (B : Books L s) (G : Reported L s es) (h : s.step L (.send i r) = some s') :
    Reported L s' (es ++ s.reports L (.send i r)) := by
  simp only [Tx.step] at h
  cases hw : s.writer i with
  | idle =>
    rw [hw] at h
    cases h
  | test n =>
    rw [hw] at h
    cases h
  | queue n =>
    rw [hw] at h
    cases h
  | send n =>
    rw [hw] at h
    obtain ⟨u, hu, he⟩ := Option.map_eq_some_iff.mp h
    have hreports : s.reports L (.send i r) = [(n, .send r)] := by
      unfold Tx.reports
      dsimp only
      rw [hw]
    have hnode : (s.writer i).node = some n := by
      rw [hw]
      rfl
    have hT := G.held i n hnode
    rw [hw] at hT
    cases hT with
    | send _ q node rs hf hwcb ho hg hh =>
    have hfresh := (L.fresh q node hf).1
    have hoff : (node.advance (taken rs)).offset = (s.nodes n).offset := by
      show node.offset + taken rs = _
      rw [ho, hfresh, Int.zero_add]
    have hbegun := B.begun i n (Or.inl hw)
    have hl : (node.advance (taken rs)).offset < node.wcb := by omega
    have hkeep : u.writer = s.writer ∧ u.count = s.count ∧ u.rets = s.rets ∧
        ∀ m, m ≠ n → u.nodes m = s.nodes m := by
      unfold Tx.transmit at hu
      split at hu
      · obtain ⟨_, hu⟩ := Option.ite_none_right_eq_some.mp hu
        cases hu
        exact ⟨rfl, rfl, rfl, fun m hm => Function.update_of_ne hm ..⟩
      · cases hu
        split <;> exact ⟨rfl, rfl, rfl, fun _ _ => rfl⟩
    have hfits : (node.advance (taken rs)).fits r = true := by
      cases r with
      | bytes k =>
        obtain ⟨⟨hk, _⟩, _⟩ := Option.ite_none_right_eq_some.mp hu
        refine decide_eq_true ?_
        show (node.advance (taken rs)).offset + k ≤ node.wcb
        omega
      | err e => rfl
    have hnext : (u.nodes n).wcb = node.wcb ∧ (u.nodes n).offset = taken (rs ++ [r]) := by
      rw [taken_append]
      unfold Tx.transmit at hu
      split at hu
      · rename_i k
        obtain ⟨_, hu⟩ := Option.ite_none_right_eq_some.mp hu
        cases hu
        have hself : (s.take n k).nodes n = (s.nodes n).advance k := Function.update_self ..
        rw [hself]
        refine ⟨hwcb, ?_⟩
        show (s.nodes n).offset + k = ((taken rs + k : Nat) : Int)
        omega
      · cases hu
        split <;> exact ⟨hwcb, ho⟩
    have hanswer : (L.proto.txn (s.nodes n) r).2 = (tcpTxn (node.advance (taken rs)) r).2 := by
      rw [txn_eq]
      exact round_answer hoff.symm hwcb r
    have hhist : historyOf n es ++ [.send r] = .call q :: .test 0 :: (rs ++ [r]).map .send := by
      rw [hh, List.map_append]
      rfl
    rw [hreports]
    rw [hanswer] at he
    cases hv : (tcpTxn (node.advance (taken rs)) r).2 with
    | none =>
      rw [hv] at he
      cases he
      refine G.goesOn B (.send n) hnode rfl ?_ hkeep.2.2.2 hkeep.2.1 hkeep.2.2.1 ?_
      · rw [hkeep.1, ← hw, Function.update_eq_self]
      · exact .send n q node _ hf hnext.1 hnext.2 (going_snoc hl hfits hg hv) hhist
    | some v =>
      rw [hv] at he
      have hloop := going_end hl hfits hg hv
      dsimp only at he
      split at he
      · rename_i hagain
        subst hagain
        cases he
        refine G.goesOn B (.queue n) hnode rfl ?_ hkeep.2.2.2 hkeep.2.1 hkeep.2.2.1 ?_
        · show Function.update u.writer i (.queue n) = _
          rw [hkeep.1]
        · exact .queue n q node 0 _ hf (Or.inr ⟨rfl, _, hloop⟩) hhist
      · rename_i hother
        cases he
        refine G.returns B v hnode ?_ hkeep.2.2.2 hkeep.2.1 ?_ ?_
        · show Function.update u.writer i .idle = _
          rw [hkeep.1]
        · show u.rets ++ [(n, v)] = _
          rw [hkeep.2.2.1]
        · refine ⟨q, node, ⟨0, 0, true, none, 0, rs ++ [r], s.fifo, B.fifo, s.sock, n, 0⟩,
            ⟨v, some (node.advance (taken (rs ++ [r]))), s.fifo, s.sock, false⟩, hf, ?_, rfl, rfl, rfl,
            rfl, ?_⟩
          · unfold tcpWriteSend
            rw [if_pos rfl]
            dsimp only
            rw [hloop]
            exact if_neg hother
          · unfold WriteEnv.events
            dsimp only
            rw [hhist, hloop, if_neg, List.append_nil]
            rintro (h0 | h0)
            · exact h0 rfl
            · exact hother (Option.some.inj h0)

/-- `fifo_queue` -/
theorem Reported.queue (B : Books L s) (G : Reported L s es) (h : s.step L (.queue i e) = some s') :
    Reported L s' (es ++ s.reports L (.queue i e)) := by
  simp only [Tx.step] at h
  cases hw : s.writer i with
  | idle =>
    rw [hw] at h
    cases h
  | test n =>
    rw [hw] at h
    cases h
  | send n =>
    rw [hw] at h
    cases h
  | queue n =>
    rw [hw] at h
    have hreports : s.reports L (.queue i e) = [(n, .queue s.fifo s.sock e)] := by
      unfold Tx.reports
      dsimp only
      rw [hw]
    have hnode : (s.writer i).node = some n := by
      rw [hw]
      rfl
    have hT := G.held i n hnode
    rw [hw] at hT
    cases hT with
    | queue _ q node b rs hf hend hh =>
    have hE : Ended L n (historyOf n es ++ [.queue s.fifo s.sock e])
        (if (fifoQueue s.fifo s.sock n e).1 < 0 then (fifoQueue s.fifo s.sock n e).1 else 0) := by
      let env : WriteEnv := ⟨0, 0, true, none, b, rs, s.fifo, B.fifo, s.sock, n, e⟩
      have hsend : ∃ nd, tcpWriteSend env node = some (env.queue nd) := by
        unfold tcpWriteSend
        rcases hend with ⟨hb, hrs⟩ | ⟨hb, nd, hloop⟩
        · exact ⟨node, (if_neg hb).trans (if_pos hrs)⟩
        · have hl : tcpTxnLoop node env.sends = some (nd, -EAGAIN) := hloop
          rw [hl]
          exact ⟨nd, (if_pos hb).trans (if_pos rfl)⟩
      have hqueues : env.blocking ≠ 0 ∨ (tcpTxnLoop node env.sends).map Prod.snd = some (-EAGAIN) := by
        rcases hend with ⟨hb, _⟩ | ⟨_, nd, hloop⟩
        · exact Or.inl hb
        · exact Or.inr (congrArg (Option.map Prod.snd) hloop)
      obtain ⟨nd, hnd⟩ := hsend
      refine ⟨q, node, env, env.queue nd, hf, hnd, rfl, rfl, rfl, rfl, ?_⟩
      unfold WriteEnv.events
      rw [if_pos hqueues, hh]
      rfl
    rw [hreports]
    dsimp only at h
    split at h
    · rename_i hneg
      cases h
      rw [if_pos hneg] at hE
      exact G.returns B _ hnode rfl (fun _ _ => rfl) rfl rfl hE
    · rename_i hneg
      cases h
      rw [if_neg hneg] at hE
      exact G.returns B _ hnode rfl (fun _ _ => rfl) rfl rfl hE

/-- the front part of a call -/
theorem Reported.begin (B : Books L s) (G : Reported L s es) {q : Req} {behind : Bytes}
    (h : s.step L (.call i q behind) = some s') :
    Reported L s' (es ++ s.reports L (.call i q behind)) := by
  have hreports : s.reports L (.call i q behind) =
      if s'.count = s.count then [] else [(s.count, .call q)] := by
    unfold Tx.reports
    dsimp only
    rw [h, Option.map_some]
    by_cases hc : s'.count = s.count
    · rw [if_pos hc, if_pos (congrArg some hc)]
    · rw [if_neg hc, if_neg (fun he => hc (Option.some.inj he))]
  rw [hreports]
  cases step_move B h with
  | same _ =>
    rw [if_pos rfl, List.append_nil]
    exact G
  | call hw hf _ =>
    rw [if_neg (Nat.succ_ne_self s.count)]
    exact G.call B hw hf

/-- **one step** -/
theorem step_reported (B : Books L s) (G : Reported L s es) {a : TxAct Req}
    (h : s.step L a = some s') : Reported L s' (es ++ s.reports L a) := by
  have hM := step_move B h
  -- the node that the pool sends is in nobody's hands
  have hfront : ∀ m k, s.worker = .send m → ∀ j n, (s.writer j).node = some n →
      (s.take m k).nodes n = s.nodes n := by
    intro m k hw j n hn
    obtain ⟨rest, hh⟩ := head_of_head? (B.worker m hw)
    have hmem : m ∈ s.fifo.head := by
      rw [hh]
      exact List.mem_cons_self ..
    exact Function.update_of_ne (fun he => B.node_ne hn hmem he.symm) ..
  cases a with
  | call i q behind => exact G.begin B h
  | test i => exact G.test B h
  | send i r => exact G.send B h
  | queue i e => exact G.queue B h
  | wsend r =>
    change Reported L s' (es ++ [])
    rw [List.append_nil]
    cases hM with
    | same _ => exact G
    | wsendSome hw => exact G.same rfl rfl rfl (hfront _ _ hw)
    | wsendAll hw => exact G.same rfl rfl rfl (hfront _ _ hw)
    | wsendAgain _ => exact G.same rfl rfl rfl fun _ _ _ => rfl
    | wsendFail _ => exact G.same rfl rfl rfl fun _ _ _ => rfl
  | _ =>
    change Reported L s' (es ++ [])
    rw [List.append_nil]
    cases hM <;> exact G.same rfl rfl rfl fun _ _ _ => rfl

end

theorem reported_init (sock : Sock) : Reported L (Tx.init sock) ([] : List (Nat × CallEvent Req)) where
  held _ _ h := by cases h
  ended _ h := absurd h List.not_mem_nil
  unborn _ _ := rfl

theorem run_reported {sock : Sock} {as : List (TxAct Req)}
    (h : run (Tx.step L) (Tx.init sock) as = some s) :
    Reported L s (trace (Tx.step L) (Tx.reports L) (Tx.init sock) as) := by
  have hstep : ∀ (t : Tx) a t' es, Books L t ∧ Reported L t es → True → t.step L a = some t' →
      Books L t' ∧ Reported L t' (es ++ t.reports L a) := fun _ _ _ _ hR _ h =>
    ⟨step_books hR.1 h, step_reported hR.1 hR.2 h⟩
  have hC : Meets (Tx.step L) (fun _ _ => True) (Tx.init sock) as :=
    @meets_all _ _ (Tx.step L) (fun _ => True) _ as fun _ _ => trivial
  exact (run_logged (Tx.step L) hstep h hC ⟨books_init sock, reported_init sock⟩).2

end

/-- the call of `tcp_write` that built node `n`, did and was answered `hist` and has returned `v`, in one
piece -/
def IsWrite (H : Heap) (ncb : Ncb) (n : Nat) (hist : List (CallEvent WriteReq)) (v : Int) : Prop :=
  ∃ q node env w, hist = .call q :: env.events node ∧
    tcpWriteNode H q.k ncb true q.ktcp q.origin q.cb q.serializer = .ok (.ok node) ∧
    env.k = q.k ∧ env.ktcp = q.ktcp ∧ env.ready = true ∧ env.refr = 0 ∧ env.id = n ∧
    tcpWrite H ncb env q.origin q.cb q.serializer = .ok (some w) ∧ w.ret = v

/-- **Each call is a `tcp_write` of what it was answered**, whatever comes in between its steps. -/
theorem calls_are_writes (H : Heap) (ncb : Ncb) (hcb : 0 ≤ ncb.tcp.template.cb_) (sock : Sock)
    (as : List (TxAct WriteReq)) (s : Tx)
    (h : run (Tx.step (tcpSender H ncb hcb)) (Tx.init sock) as = some s) (r : Nat × Int)
    (hr : r ∈ s.rets) :
    IsWrite H ncb r.1 (historyOf r.1 (trace (Tx.step (tcpSender H ncb hcb))
      (Tx.reports (tcpSender H ncb hcb)) (Tx.init sock) as)) r.2 := by
  obtain ⟨_, _, q, node, env, w, hf, hsend, hret, hrefr, hready, hid, hhist⟩ :=
    (run_reported h).ended r hr
  have hnode : tcpWriteNode H q.k ncb true q.ktcp q.origin q.cb q.serializer = .ok (.ok node) := hf
  have hcheck : ¬ (q.cb ≤ 0 ∨ q.cb > TCP_MAXIMUM_PACKET_SIZE) := by
    intro hc
    unfold tcpWriteNode at hnode
    rw [if_pos hc] at hnode
    cases hnode
  have hwrite : tcpWrite H ncb { env with k := q.k, ktcp := q.ktcp } q.origin q.cb q.serializer =
      .ok (some w) := by
    unfold tcpWrite
    dsimp only
    rw [if_neg hcheck, if_neg (by omega), hready, hnode, ok_bind]
    exact congrArg Except.ok hsend
  exact ⟨q, node, { env with k := q.k, ktcp := q.ktcp }, w, hhist, hnode, rfl, rfl, hready, hrefr, hid,
    hwrite, hret⟩

/-- a call that sends a byte and queues the rest, while another one waits behind it -/
def restQueued : List (TxAct WriteReq) :=
  [.call 0 ⟨0, none, [1, 2, 3], 3, none⟩ [], .call 1 ⟨2, none, [4], 1, none⟩ [], .test 0,
    .send 0 (.bytes 1), .test 1, .send 0 (.err EAGAIN), .queue 0 0, .send 1 (.err EINTR),
    .send 1 (.err EAGAIN), .queue 1 0]

theorem calls_are_writes_restQueued :
    ∃ s, run (Tx.step (tcpSender Heap.zeros (Rx.fresh [] Attr.clear ⟨0, none, none⟩).ncb (by decide)))
        (Tx.init Sock.established) restQueued = some s ∧ s.rets = [(0, 0), (1, 0)] ∧
      ∀ r, r ∈ s.rets → IsWrite Heap.zeros (Rx.fresh [] Attr.clear ⟨0, none, none⟩).ncb r.1
        (historyOf r.1 (trace (Tx.step (tcpSender Heap.zeros (Rx.fresh [] Attr.clear ⟨0, none, none⟩).ncb
          (by decide))) (Tx.reports (tcpSender Heap.zeros (Rx.fresh [] Attr.clear ⟨0, none, none⟩).ncb
          (by decide))) (Tx.init Sock.established) restQueued)) r.2 := by
  have hrets : (run (Tx.step (tcpSender Heap.zeros (Rx.fresh [] Attr.clear ⟨0, none, none⟩).ncb
      (by decide))) (Tx.init Sock.established) restQueued).map Tx.rets = some [(0, 0), (1, 0)] := rfl
  obtain ⟨s, hs, hr⟩ := Option.map_eq_some_iff.mp hrets
  exact ⟨s, hs, hr, calls_are_writes _ _ _ _ restQueued s hs⟩

end Swnet

import Swnet.ManyWriters
import Swnet.SingleWriter

/-!
# The order on the wire

Any number of threads write on one link.  As long as no call is let through beside another one
(`Alone`) and none fails half-way (`NoFatal`), the kernel gets the packets in the order in which the
calls return, and nothing of a call that is refused.

* `Line`             what the kernel has and what is queued is what was accepted, but for the part of
                     one packet that is being sent;
* `move_line`        a step, and `run_line` a run;
* `writes_in_order`  the packets of the calls that have returned, in order, each once;
* `Seq.alone`        a link with one thread that writes is such a link.
-/

namespace Swnet
open CMem Runs

/-- no call is half-way through its packet -/
def Untouched (s : Tx) : Prop := ∀ i n, Past s i n → (s.nodes n).offset = 0

structure Line (s : Tx) : Prop where
  known : ∀ r, r ∈ s.rets → r.1 < s.count
  once : (s.rets.map Prod.fst).Nodup
  apart : ∀ i n, (s.writer i).node = some n → n ∉ s.rets.map Prod.fst
  queue : s.fifo.head ≠ [] → s.kernel ++ inQueue s = accepted s
  begun : s.fifo.head = [] → ∀ i n, Past s i n → (s.nodes n).offset ≠ 0 →
    s.kernel = accepted s ++ gone (s.nodes n)
  none : s.fifo.head = [] → Untouched s → s.kernel = accepted s

section
variable {Req : Type} {L : Sender Req} {s s' : Tx} {a : TxAct Req}

/-- a packet that a thread is sending itself is the only one that is begun -/
theorem Line.sending (N : Line s) (O : Ordered s) {i n : Nat} (hw : s.writer i = .send n) :
    s.kernel = accepted s ++ gone (s.nodes n) := by
  obtain ⟨hh, hS⟩ := O.direct i n hw
  by_cases h0 : (s.nodes n).offset = 0
  · rw [gone_none h0, List.append_nil]
    refine N.none hh fun j m hp => ?_
    by_cases hj : j = i
    · subst hj
      rcases hp with hp | hp <;> rw [hw] at hp <;> cases hp
      exact h0
    · exact absurd hp (hS j m hj)
  · exact N.begun hh i n (Or.inl hw) h0

/-- a packet that waits in front of `fifo_queue` while the queue is empty -/
theorem Line.waiting (N : Line s) (O : Ordered s) (hh : s.fifo.head = []) {i n : Nat}
    (hw : s.writer i = .queue n) : s.kernel = accepted s ++ gone (s.nodes n) := by
  by_cases h0 : (s.nodes n).offset = 0
  · rw [gone_none h0, List.append_nil]
    refine N.none hh fun j m hp => ?_
    by_contra hb
    by_cases hj : j = i
    · subst hj
      rcases hp with hp | hp <;> rw [hw] at hp <;> cases hp
      exact hb h0
    · rcases hp with hp | hp
      · exact (O.direct j m hp).2 i n (Ne.symm hj) (Or.inr hw)
      · exact (O.late j m hp hb).2 i n (Ne.symm hj) (Or.inr hw)
  · exact N.begun hh i n (Or.inr hw) h0

/-- a step of the pool that touches neither a node nor the queue -/
theorem Line.pool (N : Line s) (w : Xpc) (sock : Sock) (tasks : Nat) (closed : Bool) :
    Line { s with worker := w, sock := sock, tasks := tasks, closed := closed } :=
  ⟨N.known, N.once, N.apart, N.queue, N.begun, N.none⟩

/-- a call returns, and its node is in nobody's hand any more -/
theorem Line.returned (B : Books L s) (N : Line s) {t : Tx} {i n : Nat} {v : Int}
    (hw : (s.writer i).node = some n) (hc : t.count = s.count) (hr : t.rets = s.rets)
    (hwr : t.writer = s.writer) :
    (∀ r, r ∈ (t.ret i n v).rets → r.1 < (t.ret i n v).count) ∧
      ((t.ret i n v).rets.map Prod.fst).Nodup ∧
      ∀ j m, ((t.ret i n v).writer j).node = some m → m ∉ (t.ret i n v).rets.map Prod.fst := by
  have hnew : (t.ret i n v).rets.map Prod.fst = s.rets.map Prod.fst ++ [n] := by
    show (t.rets ++ [(n, v)]).map Prod.fst = _
    rw [hr, List.map_append]
    rfl
  refine ⟨?_, ?_, ?_⟩
  · intro r hm
    show r.1 < t.count
    rw [hc]
    change r ∈ t.rets ++ [(n, v)] at hm
    rw [hr] at hm
    rcases List.mem_append.mp hm with hm | hm
    · exact N.known r hm
    · rw [List.mem_singleton.mp hm]
      exact (B.held i n hw).1
  · rw [hnew, List.nodup_append]
    refine ⟨N.once, List.nodup_singleton n, ?_⟩
    rintro m hm _ hm' rfl
    rw [List.mem_singleton.mp hm'] at hm
    exact N.apart i n hw hm
  · intro j m hm
    rw [hnew, List.mem_append]
    change (Function.update t.writer i .idle j).node = some m at hm
    rw [hwr] at hm
    by_cases hj : j = i
    · subst hj
      rw [Function.update_self] at hm
      cases hm
    · rw [Function.update_of_ne hj] at hm
      rintro (h | h)
      · exact N.apart j m hm h
      · rw [List.mem_singleton.mp h] at hm
        exact hj (B.apart j i n hm hw)

/-- a thread goes from one place to the next with the same node in hand -/
theorem Line.goes (N : Line s) {i n : Nat} {pc : Wpc} (hw : (s.writer i).node = some n)
    (hpc : pc = .send n ∨ pc = .queue n) (sock : Sock)
    (hold : s.fifo.head = [] → Past s i n ∨ (s.nodes n).offset = 0) :
    Line (Tx.setWriter { s with sock := sock } i pc) := by
  have hnode : pc.node = some n := by rcases hpc with rfl | rfl <;> rfl
  have hself : Past (Tx.setWriter { s with sock := sock } i pc) i n := by
    show Function.update s.writer i pc i = _ ∨ Function.update s.writer i pc i = _
    rw [Function.update_self]
    exact hpc
  have hpast : ∀ {j m}, Past (Tx.setWriter { s with sock := sock } i pc) j m →
      j = i ∧ m = n ∨ j ≠ i ∧ Past s j m := by
    intro j m hp
    by_cases hj : j = i
    · subst hj
      exact Or.inl ⟨rfl, Option.some.inj (hp.node.symm.trans hself.node)⟩
    · exact Or.inr ⟨hj, past_of_ne hj hp⟩
  refine ⟨N.known, N.once, ?_, N.queue, ?_, ?_⟩
  · intro j m hm
    exact N.apart j m (node_update (Or.inr (hnode.trans hw.symm)) hm)
  · intro hh j m hp hb
    rcases hpast hp with ⟨rfl, rfl⟩ | ⟨_, hp'⟩
    · exact N.begun hh j m ((hold hh).resolve_right hb) hb
    · exact N.begun hh j m hp' hb
  · intro hh hU
    refine N.none hh fun j m hp => ?_
    by_cases hj : j = i
    · subst hj
      have hm : n = m := Option.some.inj (hw.symm.trans hp.node)
      subst hm
      exact hU j n hself
    · refine hU j m ?_
      show Function.update s.writer i pc j = _ ∨ Function.update s.writer i pc j = _
      rw [Function.update_of_ne hj]
      exact hp

theorem Line.call (B : Books L s) (N : Line s) {i : Nat} {node : TxNode}
    (hw : s.writer i = .idle) :
    Line { s.setWriter i (.test s.count) with
      nodes := Function.update s.nodes s.count node, count := s.count + 1 } := by
  have hof : ∀ m, m < s.count → Function.update s.nodes s.count node m = s.nodes m :=
    fun m hm => Function.update_of_ne (Nat.ne_of_lt hm) ..
  have hpast : ∀ {j m}, (Function.update s.writer i (.test s.count) j = .send m ∨
      Function.update s.writer i (.test s.count) j = .queue m) → j ≠ i ∧ Past s j m := by
    intro j m h
    by_cases hj : j = i
    · subst hj
      rw [Function.update_self] at h
      rcases h with h | h <;> cases h
    · exact ⟨hj, past_of_ne hj h⟩
  have hacc : accepted { s.setWriter i (.test s.count) with
      nodes := Function.update s.nodes s.count node, count := s.count + 1 } = accepted s :=
    List.flatMap_congr fun r hr => by
      show packet (Function.update s.nodes s.count node r.1) = _
      rw [hof r.1 (N.known r (List.mem_of_mem_filter hr))]
  have hqueue : inQueue { s.setWriter i (.test s.count) with
      nodes := Function.update s.nodes s.count node, count := s.count + 1 } = inQueue s :=
    List.flatMap_congr fun m hm => by
      show left (Function.update s.nodes s.count node m) = _
      rw [hof m (B.known m (B.in_queue hm))]
  refine ⟨fun r hr => Nat.lt_succ_of_lt (N.known r hr), N.once, ?_, ?_, ?_, ?_⟩
  · intro j m hm
    change (Function.update s.writer i (.test s.count) j).node = some m at hm
    by_cases hj : j = i
    · subst hj
      rw [Function.update_self] at hm
      cases hm
      intro h
      obtain ⟨r, hr, he⟩ := List.mem_map.mp h
      exact absurd (N.known r hr) (by rw [he]; exact Nat.lt_irrefl _)
    · rw [Function.update_of_ne hj] at hm
      exact N.apart j m hm
  · intro hh
    rw [hacc, hqueue]
    exact N.queue hh
  · intro hh j m hp hb
    obtain ⟨_, hp'⟩ := hpast hp
    change (Function.update s.nodes s.count node m).offset ≠ 0 at hb
    rw [hacc]
    show s.kernel = accepted s ++ gone (Function.update s.nodes s.count node m)
    rw [hof m (B.held j m hp'.node).1] at hb ⊢
    exact N.begun hh j m hp' hb
  · intro hh hU
    rw [hacc]
    refine N.none hh fun j m hp => ?_
    have hj : j ≠ i := by
      rintro rfl
      rcases hp with hp | hp <;> rw [hw] at hp <;> cases hp
    have h1 := hU j m (by
      show Function.update s.writer i _ j = _ ∨ Function.update s.writer i _ j = _
      rw [Function.update_of_ne hj]
      exact hp)
    change (Function.update s.nodes s.count node m).offset = 0 at h1
    rwa [hof m (B.held j m hp.node).1] at h1

/-! ## bytes move -/

theorem Line.sendSome (B : Books L s) (N : Line s) (O : Ordered s) {i n k : Nat}
    (hw : s.writer i = .send n) (h0 : 0 < k) (hk : (s.nodes n).offset + k < (s.nodes n).wcb) :
    Line (s.take n k) := by
  have hn : (s.writer i).node = some n := by rw [hw]; rfl
  have hO := B.nodes n (B.held i n hn).1
  have hnn := hO.nonneg
  obtain ⟨hh, hS⟩ := O.direct i n hw
  have hself : (s.take n k).nodes n = (s.nodes n).advance k := Function.update_self ..
  refine ⟨N.known, N.once, N.apart, fun h => absurd hh h, ?_, ?_⟩
  · intro _ j m hp _
    have hj : j = i := by
      by_contra hj
      exact hS j m hj hp
    subst hj
    have hm : n = m := Option.some.inj (hn.symm.trans hp.node)
    subst hm
    rw [accepted_take, hself, gone_advance hO (by omega), ← List.append_assoc, ← N.sending O hw]
    rfl
  · intro _ hU
    have h1 := hU i n (Or.inl hw)
    rw [hself] at h1
    change (s.nodes n).offset + k = 0 at h1
    omega

theorem Line.sendAll (B : Books L s) (N : Line s) (O : Ordered s) {i n k : Nat}
    (hw : s.writer i = .send n) (hk : (s.nodes n).offset + k = (s.nodes n).wcb) {v : Int}
    (hv : 0 ≤ v) : Line ((s.take n k).ret i n v) := by
  have hn : (s.writer i).node = some n := by rw [hw]; rfl
  have hO := B.nodes n (B.held i n hn).1
  obtain ⟨hh, hS⟩ := O.direct i n hw
  obtain ⟨h1, h2, h3⟩ := N.returned B (t := s.take n k) (v := v) hn rfl rfl rfl
  have hker : (s.take n k).kernel = accepted ((s.take n k).ret i n v) := by
    have hg := gone_advance hO (Int.le_of_eq hk)
    rw [gone_all (hO.advance (Int.le_of_eq hk)) hk, packet_advance] at hg
    rw [accepted_ret, if_pos hv, accepted_take, take_packet, hg, ← List.append_assoc,
      ← N.sending O hw]
    rfl
  refine ⟨h1, h2, h3, fun h => absurd hh h, ?_, fun _ _ => hker⟩
  intro _ j m hp _
  by_cases hj : j = i
  · subst hj
    have h4 := hp.node
    change (Function.update s.writer j .idle j).node = some m at h4
    rw [Function.update_self] at h4
    cases h4
  · exact absurd (past_of_ne hj hp) (hS j m hj)

theorem Line.takeFront (B : Books L s) (N : Line s) {n k : Nat} (hw : s.worker = .send n)
    (hk : (s.nodes n).offset + k ≤ (s.nodes n).wcb) (w : Xpc) (drained : Bytes) :
    Line { s.take n k with drained := drained, worker := w } := by
  obtain ⟨rest, hh⟩ := head_of_head? (B.worker n hw)
  have hne : s.fifo.head ≠ [] := by rw [hh]; exact List.cons_ne_nil _ _
  have hmem : n ∈ s.fifo.head := by rw [hh]; exact List.mem_cons_self ..
  have hO := B.nodes n (B.known n (B.in_queue hmem))
  have hself : (s.take n k).nodes n = (s.nodes n).advance k := Function.update_self ..
  have hof : ∀ m, m ≠ n → (s.take n k).nodes m = s.nodes m := fun m hm => Function.update_of_ne hm ..
  refine ⟨N.known, N.once, N.apart, ?_, fun h => absurd h hne, fun h => absurd h hne⟩
  intro _
  have h1 := N.queue hne
  have e : inQueue s = piece (s.nodes n) k ++ inQueue (s.take n k) := by
    rw [inQueue_cons hh, inQueue_cons (s := s.take n k) hh, hself, left_advance hO hk,
      List.append_assoc]
    congr 2
    exact List.flatMap_congr fun m hm => by rw [hof m (B.front_ne hh hm)]
  show (s.kernel ++ piece (s.nodes n) k) ++ inQueue (s.take n k) = accepted (s.take n k)
  rw [accepted_take, ← h1, e, List.append_assoc]

/-- the front of the queue, all of which is sent, is taken out -/
theorem Line.popFront (B : Books L s) (N : Line s) (O : Ordered s) (hs : L.Spent s) {n : Nat}
    {rest : List Nat} {fifo' : Fifo} (hh : s.fifo.head = n :: rest) (hr : fifo'.head = rest)
    (sock : Sock) (w : Xpc) (tasks : Nat) :
    Line { s with fifo := fifo', sock := sock, popped := s.popped ++ [n], worker := w,
                  tasks := tasks } := by
  have hne : s.fifo.head ≠ [] := by rw [hh]; exact List.cons_ne_nil _ _
  obtain ⟨m, rest', hh', he⟩ := B.spent hs
  rw [hh] at hh'
  cases hh'
  have hO := B.nodes n (B.known n (B.in_queue (by rw [hh]; exact List.mem_cons_self ..)))
  have hq : s.kernel ++ fifo'.head.flatMap (fun m => left (s.nodes m)) = accepted s := by
    have h1 := N.queue hne
    rwa [inQueue_cons hh, left_nil hO he, List.nil_append, ← hr] at h1
  refine ⟨N.known, N.once, N.apart, fun _ => hq, ?_, ?_⟩
  · intro _ j m hp hb
    rcases hp with hp | hp
    · exact absurd (O.direct j m hp).1 hne
    · exact absurd (O.late j m hp hb).1 hne
  · intro hnil _
    change fifo'.head = [] at hnil
    rw [hnil] at hq
    show s.kernel = accepted s
    rw [← hq]
    exact (List.append_nil _).symm

/-! ## the queue takes a packet, or does not -/

theorem Line.refuse (B : Books L s) (N : Line s) {i n : Nat} (hw : s.writer i = .queue n) {v : Int}
    (hv : v < 0) (h0 : s.fifo.head = [] → (s.nodes n).offset = 0) : Line (s.ret i n v) := by
  have hn : (s.writer i).node = some n := by rw [hw]; rfl
  obtain ⟨h1, h2, h3⟩ := N.returned B (t := s) (v := v) hn rfl rfl rfl
  have hacc : accepted (s.ret i n v) = accepted s := by
    rw [accepted_ret, if_neg (by omega), List.append_nil]
  have hpast : ∀ {j m}, Past (s.ret i n v) j m → Past s j m := by
    intro j m hp
    by_cases hj : j = i
    · subst hj
      have h4 := hp.node
      change (Function.update s.writer j .idle j).node = some m at h4
      rw [Function.update_self] at h4
      cases h4
    · exact past_of_ne hj hp
  refine ⟨h1, h2, h3, ?_, ?_, ?_⟩
  · intro hh
    rw [hacc]
    exact N.queue hh
  · intro hh j m hp hb
    rw [hacc]
    exact N.begun hh j m (hpast hp) hb
  · intro hh hU
    rw [hacc]
    refine N.none hh fun j m hp => ?_
    by_cases hj : j = i
    · subst hj
      have hm : n = m := Option.some.inj (hn.symm.trans hp.node)
      subst hm
      exact h0 hh
    · refine hU j m ?_
      show Function.update s.writer i .idle j = _ ∨ Function.update s.writer i .idle j = _
      rw [Function.update_of_ne hj]
      exact hp

theorem Line.enqueue (B : Books L s) (N : Line s) (O : Ordered s) {i n : Nat}
    (hw : s.writer i = .queue n) {fifo' : Fifo} (hf : fifo'.head = s.fifo.head ++ [n]) (sock : Sock)
    (queued : List (Nat × Int)) :
    Line (Tx.ret { s with fifo := fifo', sock := sock, queued := queued } i n 0) := by
  have hn : (s.writer i).node = some n := by rw [hw]; rfl
  have hne : fifo'.head ≠ [] := by
    rw [hf]
    exact List.append_ne_nil_of_right_ne_nil _ (List.cons_ne_nil _ _)
  obtain ⟨h1, h2, h3⟩ := N.returned B (v := 0)
    (t := { s with fifo := fifo', sock := sock, queued := queued }) hn rfl rfl rfl
  refine ⟨h1, h2, h3, ?_, fun h => absurd h hne, fun h => absurd h hne⟩
  intro _
  rw [accepted_ret, if_pos (Int.le_refl 0)]
  show s.kernel ++ fifo'.head.flatMap (fun m => left (s.nodes m)) = accepted s ++ packet (s.nodes n)
  rw [hf, List.flatMap_append, List.flatMap_singleton]
  by_cases hh : s.fifo.head = []
  · rw [hh, List.flatMap_nil, List.nil_append, N.waiting O hh hw, List.append_assoc, gone_left]
  · -- behind a queue that is in use nobody has sent anything
    have h0 : (s.nodes n).offset = 0 := by
      by_contra hb
      exact hh (O.late i n hw hb).1
    rw [left_all h0, ← List.append_assoc]
    exact congrArg (· ++ packet (s.nodes n)) (N.queue hh)

/-! ## steps and runs -/

theorem move_line (hp : L.proto = .tcp) (B : Books L s) (O : Ordered s) (N : Line s)
    (hA : Alone s a) (hF : NoFatal a) (h : Move L s a s') : Line s' := by
  cases h with
  | same => exact N
  | call hw hf hl => exact N.call B hw
  | @testSend i n hw hh =>
    exact N.goes (by rw [hw]; rfl) (Or.inl rfl) s.sock (fun _ => Or.inr (B.fresh i n hw))
  | @testQueue i n hw hh =>
    exact N.goes (by rw [hw]; rfl) (Or.inr rfl) s.sock (fun h => absurd h hh)
  | sendSome hw h0 hk => exact N.sendSome B O hw h0 hk
  | @sendAll i n k hw h0 hk =>
    have hpos := (B.nodes n (B.held i n (by rw [hw]; rfl)).1).pos
    exact N.sendAll B O hw hk (Int.le_of_lt hpos)
  | @sendAgain i n hw =>
    exact N.goes (by rw [hw]; rfl) (Or.inr rfl) _ (fun _ => Or.inl (Or.inl hw))
  | @sendFail i n r hw hr =>
    have hmild : r.Mild := hF
    rcases hr with rfl | ⟨e, rfl, h1, h2⟩
    · exact absurd hmild (Nat.lt_irrefl 0)
    · rcases hmild with h | h
      · exact absurd h h2
      · exact absurd h h1
  | @queueNo i n e r hw hr hh =>
    refine N.refuse B hw hr fun hnil => ?_
    rcases hh with hh | ⟨_, he⟩
    · exact absurd hnil hh
    · by_contra h0
      exact he (hA n hw h0)
  | queueYes hw ho hh hs => exact N.enqueue B O hw hh _ _
  | task => exact N.pool ..
  | exec hw ht => exact N.pool ..
  | topFail hw => exact N.pool ..
  | topNone hw hh => exact N.pool ..
  | topSend hw hh => exact N.pool ..
  | wsendSome hw h0 hk => exact N.takeFront B hw (by omega) s.worker _
  | wsendAll hw h0 hk => exact N.takeFront B hw (by omega) _ _
  | wsendAgain hw => exact N.pool ..
  | wsendFail hw => exact N.pool ..
  | txPop hw hh ho hr hs =>
    have h1 := B.pops hw
    rw [hp] at h1
    cases h1
  | popNone hw hh => exact N.pool ..
  | pop hw hh ho hr hs => exact N.popFront B O (Or.inr ⟨hw, by rw [hp]; rfl⟩) hh hr _ _ _
  | room => exact N.pool ..
  | close => exact N.pool ..

theorem line_init (sock : Sock) : Line (Tx.init sock) := by
  refine ⟨?_, List.nodup_nil, ?_, fun h => absurd rfl h, ?_, fun _ _ => rfl⟩
  · intro r hr
    cases hr
  · intro i n hn
    cases hn
  · intro _ i n hp
    rcases hp with hp | hp <;> cases hp

theorem run_line (hp : L.proto = .tcp) {sock : Sock} {as : List (TxAct Req)}
    (hF : ∀ a, a ∈ as → NoFatal a) (hA : Meets (Tx.step L) Alone (Tx.init sock) as)
    (h : run (Tx.step L) (Tx.init sock) as = some s) : Ordered s ∧ Line s := by
  refine run_moves (P := fun s => Ordered s ∧ Line s) (C := fun s a => Alone s a ∧ NoFatal a) ?_
    ⟨ordered_init sock, line_init sock⟩ (meets_and _ hA (meets_all _ hF)) h
  intro s a s' B I hC M
  exact ⟨move_ordered hp B I.1 hC.1 hC.2 M, move_line hp B I.1 I.2 hC.1 hC.2 M⟩

/-- **One thread that writes is never let through beside another call.** -/
theorem Seq.alone {i : Nat} (Q : Seq i s) (hO : OnlyWriter i a) (M : Move L s a s') : Alone s a := by
  cases a with
  | test j =>
    intro _ k n hpast
    have hk : k = i := by
      rcases hpast with hk | hk <;> exact Q.here hk (by simp)
    subst hk
    -- the thread that asks is the only one that is not idle
    have hw : ∃ m, s.writer j = .test m := by
      cases M with
      | same ha => rcases ha with ⟨_, _, _, h⟩ | ⟨_, h⟩ | h <;> cases h
      | testSend hw => exact ⟨_, hw⟩
      | testQueue hw => exact ⟨_, hw⟩
    obtain ⟨m, hm⟩ := hw
    have hj : j = k := Q.here hm (by simp)
    subst hj
    rcases hpast with h1 | h1 <;> rw [hm] at h1 <;> cases h1
  | queue j e => exact fun _ _ _ => hO
  | _ => trivial

/-- what the kernel has, in full or with the part of one packet behind it -/
theorem Line.cases (B : Books L s) (N : Line s) :
    s.kernel ++ inQueue s = accepted s ∨
      ∃ i n, Past s i n ∧ s.fifo.head = [] ∧ s.kernel = accepted s ++ gone (s.nodes n) ∧
        (s.nodes n).offset < (s.nodes n).wcb := by
  by_cases hh : s.fifo.head = []
  · by_cases hb : ∃ i n, Past s i n ∧ (s.nodes n).offset ≠ 0
    · obtain ⟨i, n, h1, h2⟩ := hb
      exact Or.inr ⟨i, n, h1, hh, N.begun hh i n h1 h2, B.begun i n h1⟩
    · push Not at hb
      rw [inQueue_nil hh, List.append_nil]
      exact Or.inl (N.none hh hb)
  · exact Or.inl (N.queue hh)

theorem gone_length {node : TxNode} (h : node.Ok) (hlt : node.offset < node.wcb) :
    (gone node).length < (packet node).length := by
  have h1 := h.nonneg
  have h2 := packet_length h
  unfold gone
  rw [List.length_take]
  omega

end

/-- **The kernel gets the packets in the order in which the calls return.**  No call returns twice;
behind the packets of the accepted calls there is at most a proper part of one packet, whose call is
under way. -/
theorem writes_in_order (H : Heap) (ncb : Ncb) (hcb : 0 ≤ ncb.tcp.template.cb_) (sock : Sock)
    (as : List (TxAct WriteReq)) (hF : ∀ a, a ∈ as → NoFatal a)
    (hA : Meets (Tx.step (tcpSender H ncb hcb)) Alone (Tx.init sock) as) (s : Tx)
    (h : run (Tx.step (tcpSender H ncb hcb)) (Tx.init sock) as = some s) :
    (s.rets.map Prod.fst).Nodup ∧
      (s.kernel ++ inQueue s = accepted s ∨
        ∃ i n, Past s i n ∧ s.kernel = accepted s ++ gone (s.nodes n) ∧
          (gone (s.nodes n)).length < (packet (s.nodes n)).length) := by
  have B := run_books h
  have N := (run_line (L := tcpSender H ncb hcb) rfl hF hA h).2
  refine ⟨N.once, ?_⟩
  rcases N.cases B with h1 | ⟨i, n, h1, _, h2, h3⟩
  · exact Or.inl h1
  · exact Or.inr ⟨i, n, h1, h2, gone_length (B.nodes n (B.held i n h1.node).1) h3⟩

theorem twoInTurn_noFatal : ∀ a, a ∈ twoInTurn → NoFatal a := by
  intro a ha
  simp only [twoInTurn, List.mem_cons, List.not_mem_nil, or_false] at ha
  rcases ha with rfl | rfl | rfl | rfl | rfl | rfl | rfl | rfl | rfl | rfl | rfl | rfl | rfl | rfl
  all_goals first | trivial | exact Nat.one_pos | exact Or.inr rfl

theorem writes_in_order_twoInTurn :
    ∃ s, run (Tx.step (tcpSender Heap.zeros (Rx.fresh [] Attr.clear ⟨0, none, none⟩).ncb (by decide)))
        (Tx.init Sock.established) twoInTurn = some s ∧
      (s.rets.map Prod.fst).Nodup ∧
      (s.kernel ++ inQueue s = accepted s ∨
        ∃ i n, Past s i n ∧ s.kernel = accepted s ++ gone (s.nodes n) ∧
          (gone (s.nodes n)).length < (packet (s.nodes n)).length) := by
  have hsome : (run (Tx.step (tcpSender Heap.zeros (Rx.fresh [] Attr.clear ⟨0, none, none⟩).ncb
      (by decide))) (Tx.init Sock.established) twoInTurn).isSome = true := rfl
  obtain ⟨s, hs⟩ := Option.isSome_iff_exists.mp hsome
  exact ⟨s, hs, writes_in_order _ _ _ _ twoInTurn twoInTurn_noFatal (twoInTurn_alone _) s hs⟩

end Swnet

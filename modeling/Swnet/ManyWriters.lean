import Swnet.TxBooks

/-!
# Several threads that write

`tcp_write` asks `fifo_is_blocking` and then sends, or queues what is left; in between, another
thread can do the same.

* `Clean`           the bytes of the kernel are whole packets and a part of one;
* `Alone`           no `fifo_is_blocking` answers 0 while another call is past its own;
* `clean_of_alone`  the one holds in every state of the runs that meet the other.
-/

namespace Swnet
open CMem Runs

/-- whole packets, followed by at most one proper prefix of a packet -/
def Clean (s : Tx) : Prop :=
  ∃ (ws : List Nat) (t : Bytes), s.kernel = ws.flatMap (fun n => packet (s.nodes n)) ++ t ∧ (∀ n, n ∈ ws → n < s.count) ∧
    (t = [] ∨ ∃ n, n < s.count ∧ t <+: packet (s.nodes n) ∧ t.length < (packet (s.nodes n)).length)

/-- thread `i` is past its `fifo_is_blocking` with the node `n` -/
def Past (s : Tx) (i n : Nat) : Prop := s.writer i = .send n ∨ s.writer i = .queue n

/-- no other thread is -/
def Single (s : Tx) (i : Nat) : Prop := ∀ j n, j ≠ i → ¬ Past s j n

section
variable {Req : Type} {L : Sender Req} {s s' : Tx} {a : TxAct Req}

/-- `fifo_is_blocking` does not answer 0 while another call on the link is past its own and not yet
done, and `epoll_ctl(2)` does not fail for a packet of which a part is sent -/
def Alone (s : Tx) : TxAct Req → Prop
  | .test _ => fifoIsBlocking s.fifo = 0 → ∀ j n, ¬ Past s j n
  | .queue i e => ∀ n, s.writer i = .queue n → (s.nodes n).offset ≠ 0 → e = 0
  | _ => True

/-- the call does not fail half-way through its packet -/
def NoFatal : TxAct Req → Prop
  | .send _ r => r.Mild
  | _ => True

/-- `t` is what the kernel has of the packet that comes next -/
structure Tail (s : Tx) (t : Bytes) : Prop where
  front : ∀ n, s.fifo.head.head? = some n → t = gone (s.nodes n)
  begun : s.fifo.head = [] → ∀ i n, Past s i n → (s.nodes n).offset ≠ 0 → t = gone (s.nodes n)
  none : s.fifo.head = [] → (∀ i n, Past s i n → (s.nodes n).offset = 0) → t = []

structure Ordered (s : Tx) : Prop where
  shape : ∃ (ws : List Nat) (t : Bytes), s.kernel = ws.flatMap (fun n => packet (s.nodes n)) ++ t ∧
    (∀ n, n ∈ ws → n < s.count) ∧ Tail s t
  direct : ∀ i n, s.writer i = .send n → s.fifo.head = [] ∧ Single s i
  late : ∀ i n, s.writer i = .queue n → (s.nodes n).offset ≠ 0 → s.fifo.head = [] ∧ Single s i
  rest : ∀ n, n ∈ s.fifo.head.tail → (s.nodes n).offset = 0

theorem Past.node {i n : Nat} (h : Past s i n) : (s.writer i).node = some n := by
  rcases h with h | h <;> rw [h] <;> rfl

theorem Ordered.clean (B : Books L s) (O : Ordered s) : Clean s := by
  obtain ⟨ws, t, hk, hws, T⟩ := O.shape
  -- the tail belongs to one node, or there is none
  have ht : t = [] ∨ ∃ n, n < s.count ∧ t = gone (s.nodes n) := by
    cases hh : s.fifo.head with
    | cons n rest =>
      refine Or.inr ⟨n, B.known n (B.in_queue (by rw [hh]; exact List.mem_cons_self ..)), ?_⟩
      exact T.front n (by rw [hh]; rfl)
    | nil =>
      by_cases hb : ∃ i n, Past s i n ∧ (s.nodes n).offset ≠ 0
      · obtain ⟨i, n, h1, h2⟩ := hb
        exact Or.inr ⟨n, (B.held i n h1.node).1, T.begun hh i n h1 h2⟩
      · push Not at hb
        exact Or.inl (T.none hh hb)
  rcases ht with rfl | ⟨n, hn, rfl⟩
  · exact ⟨ws, [], hk, hws, Or.inl rfl⟩
  have hpre : gone (s.nodes n) <+: packet (s.nodes n) := List.take_prefix _ _
  by_cases hl : (gone (s.nodes n)).length < (packet (s.nodes n)).length
  · exact ⟨ws, _, hk, hws, Or.inr ⟨n, hn, hpre, hl⟩⟩
  · have he : gone (s.nodes n) = packet (s.nodes n) := hpre.eq_of_length_le (Nat.le_of_not_lt hl)
    refine ⟨ws ++ [n], [], ?_, ?_, Or.inl rfl⟩
    · rw [hk, he, List.flatMap_append, List.flatMap_singleton, List.append_nil]
    · intro m hm
      rcases List.mem_append.mp hm with hm | hm
      · exact hws m hm
      · rw [List.mem_singleton.mp hm]
        exact hn

theorem past_of_ne {w : Nat → Wpc} {i j n : Nat} {pc : Wpc} (hj : j ≠ i)
    (h : Function.update w i pc j = .send n ∨ Function.update w i pc j = .queue n) :
    w j = .send n ∨ w j = .queue n := by
  rwa [Function.update_of_ne hj] at h

/-- a packet that a thread is sending itself is the one that comes next -/
theorem Ordered.tail_send (O : Ordered s) {i n : Nat} (hw : s.writer i = .send n) {t : Bytes}
    (T : Tail s t) : t = gone (s.nodes n) := by
  obtain ⟨hh, hS⟩ := O.direct i n hw
  by_cases h0 : (s.nodes n).offset = 0
  · rw [gone_none h0]
    refine T.none hh fun j m hp => ?_
    by_cases hj : j = i
    · subst hj
      rcases hp with hp | hp <;> rw [hw] at hp <;> cases hp
      exact h0
    · exact absurd hp (hS j m hj)
  · exact T.begun hh i n (Or.inl hw) h0

theorem flat_take (ws : List Nat) (n k : Nat) :
    ws.flatMap (fun m => packet ((s.take n k).nodes m)) = ws.flatMap (fun m => packet (s.nodes m)) :=
  List.flatMap_congr fun _ _ => take_packet ..

/-- a step of the pool that touches neither a node nor the queue -/
theorem Ordered.pool (O : Ordered s) (w : Xpc) (sock : Sock) (tasks : Nat) (closed : Bool) :
    Ordered { s with worker := w, sock := sock, tasks := tasks, closed := closed } := by
  obtain ⟨ws, t, hk, hws, T⟩ := O.shape
  exact ⟨⟨ws, t, hk, hws, T.front, T.begun, T.none⟩, O.direct, O.late, O.rest⟩

theorem Ordered.call (B : Books L s) (O : Ordered s) {i : Nat} {node : TxNode}
    (hw : s.writer i = .idle) :
    Ordered { s.setWriter i (.test s.count) with
      nodes := Function.update s.nodes s.count node, count := s.count + 1 } := by
  have hof : ∀ m, m < s.count → Function.update s.nodes s.count node m = s.nodes m :=
    fun m hm => Function.update_of_ne (Nat.ne_of_lt hm) ..
  have hpast : ∀ {j m}, (Function.update s.writer i (.test s.count) j = .send m ∨
      Function.update s.writer i (.test s.count) j = .queue m) → j ≠ i ∧ Past s j m := by
    intro j m h
    by_cases hj : j = i
    · subst hj
      rw [Function.update_self] at h
      rcases h with h | h <;> cases h
    · exact ⟨hj, past_of_ne hj h⟩
  have hnode : ∀ {j m}, Past s j m → Function.update s.nodes s.count node m = s.nodes m :=
    fun h => hof _ (B.held _ _ h.node).1
  have hqueue : ∀ {m}, m ∈ s.fifo.head → Function.update s.nodes s.count node m = s.nodes m :=
    fun h => hof _ (B.known _ (B.in_queue h))
  have hsingle : ∀ j, Single s j → Single { s.setWriter i (.test s.count) with
      nodes := Function.update s.nodes s.count node, count := s.count + 1 } j :=
    fun j hS l m hl hp => hS l m hl (hpast hp).2
  obtain ⟨ws, t, hk, hws, T⟩ := O.shape
  refine ⟨⟨ws, t, ?_, fun n hn => Nat.lt_succ_of_lt (hws n hn), ?_, ?_, ?_⟩, ?_, ?_, ?_⟩
  · show s.kernel = ws.flatMap (fun n => packet (Function.update s.nodes s.count node n)) ++ t
    rw [hk]
    congr 1
    exact List.flatMap_congr fun n hn => by rw [hof n (hws n hn)]
  · intro n hn
    show t = gone (Function.update s.nodes s.count node n)
    rw [hqueue (List.mem_of_head? hn)]
    exact T.front n hn
  · intro hh j n hp h0
    have hp' := (hpast hp).2
    change (Function.update s.nodes s.count node n).offset ≠ 0 at h0
    show t = gone (Function.update s.nodes s.count node n)
    rw [hnode hp'] at h0 ⊢
    exact T.begun hh j n hp' h0
  · intro hh hall
    refine T.none hh fun j n hp => ?_
    have hj : j ≠ i := by
      rintro rfl
      rcases hp with hp | hp <;> rw [hw] at hp <;> cases hp
    have h1 := hall j n (by
      show Function.update s.writer i _ j = _ ∨ Function.update s.writer i _ j = _
      rw [Function.update_of_ne hj]
      exact hp)
    change (Function.update s.nodes s.count node n).offset = 0 at h1
    rwa [hnode hp] at h1
  · intro j n hn
    obtain ⟨hj, _⟩ := hpast (Or.inl hn)
    change Function.update s.writer i _ j = .send n at hn
    rw [Function.update_of_ne hj] at hn
    obtain ⟨h1, h2⟩ := O.direct j n hn
    exact ⟨h1, hsingle j h2⟩
  · intro j n hn h0
    obtain ⟨hj, hp⟩ := hpast (Or.inr hn)
    change Function.update s.writer i _ j = .queue n at hn
    change (Function.update s.nodes s.count node n).offset ≠ 0 at h0
    rw [Function.update_of_ne hj] at hn
    rw [hnode hp] at h0
    obtain ⟨h1, h2⟩ := O.late j n hn h0
    exact ⟨h1, hsingle j h2⟩
  · intro n hn
    show (Function.update s.nodes s.count node n).offset = 0
    rw [hqueue (List.mem_of_mem_tail hn)]
    exact O.rest n hn

/-- `fifo_is_blocking` has answered 0 and nobody else is at work -/
theorem Ordered.testSend (B : Books L s) (O : Ordered s) {i n : Nat} (hw : s.writer i = .test n)
    (hh : s.fifo.head = []) (ha : ∀ j m, ¬ Past s j m) : Ordered (s.setWriter i (.send n)) := by
  have h0 := B.fresh i n hw
  have hpast : ∀ {j m}, Past (s.setWriter i (.send n)) j m → j = i ∧ m = n := by
    intro j m hp
    by_cases hj : j = i
    · subst hj
      change Function.update s.writer j _ j = _ ∨ Function.update s.writer j _ j = _ at hp
      rw [Function.update_self] at hp
      rcases hp with hp | hp <;> cases hp
      exact ⟨rfl, rfl⟩
    · exact absurd (past_of_ne hj hp) (ha j m)
  obtain ⟨ws, t, hk, hws, T⟩ := O.shape
  have ht : t = [] := T.none hh fun j m hp => absurd hp (ha j m)
  refine ⟨⟨ws, t, hk, hws, T.front, ?_, fun _ _ => ht⟩, ?_, ?_, O.rest⟩
  · intro _ j m hp hne
    obtain ⟨_, rfl⟩ := hpast hp
    exact absurd h0 hne
  · intro j m hp
    obtain ⟨rfl, _⟩ := hpast (Or.inl hp)
    exact ⟨hh, fun l k hl hp' => hl (hpast hp').1⟩
  · intro j m hp hne
    obtain ⟨_, rfl⟩ := hpast (Or.inr hp)
    exact absurd h0 hne

/-- a thread goes on in front of a queue that is not empty, with a packet of which nothing is sent, or
with none -/
theorem Ordered.behind (O : Ordered s) (hh : s.fifo.head ≠ []) {i : Nat} {pc : Wpc}
    (hpc : pc = .idle ∨ ∃ n, pc = .queue n ∧ (s.nodes n).offset = 0) (rets : List (Nat × Int)) :
    Ordered { s.setWriter i pc with rets := rets } := by
  obtain ⟨ws, t, hk, hws, T⟩ := O.shape
  refine ⟨⟨ws, t, hk, hws, T.front, fun h => absurd h hh, fun h => absurd h hh⟩, ?_, ?_, O.rest⟩
  · intro j m hp
    change Function.update s.writer i pc j = .send m at hp
    by_cases hj : j = i
    · subst hj
      rw [Function.update_self] at hp
      rcases hpc with rfl | ⟨n, rfl, _⟩ <;> cases hp
    · rw [Function.update_of_ne hj] at hp
      exact absurd (O.direct j m hp).1 hh
  · intro j m hp hne
    change Function.update s.writer i pc j = .queue m at hp
    by_cases hj : j = i
    · subst hj
      rw [Function.update_self] at hp
      rcases hpc with rfl | ⟨n, rfl, h0⟩
      · cases hp
      · cases hp
        exact absurd h0 hne
    · rw [Function.update_of_ne hj] at hp
      exact absurd (O.late j m hp hne).1 hh

theorem Ordered.sendSome (B : Books L s) (O : Ordered s) {i n k : Nat} (hw : s.writer i = .send n)
    (h0 : 0 < k) (hk : (s.nodes n).offset + k < (s.nodes n).wcb) : Ordered (s.take n k) := by
  have hO := B.nodes n (B.held i n (by rw [hw]; rfl)).1
  have hnn := hO.nonneg
  obtain ⟨hh, hS⟩ := O.direct i n hw
  have hself : (s.take n k).nodes n = (s.nodes n).advance k := Function.update_self ..
  have hpast : ∀ {j m}, Past s j m → j = i ∧ m = n := by
    intro j m hp
    have hj : j = i := by
      by_contra hj
      exact hS j m hj hp
    subst hj
    rcases hp with hp | hp <;> rw [hw] at hp <;> cases hp
    exact ⟨rfl, rfl⟩
  obtain ⟨ws, t, hker, hws, T⟩ := O.shape
  have ht := O.tail_send hw T
  refine ⟨⟨ws, gone ((s.nodes n).advance k), ?_, hws, ?_, ?_, ?_⟩, O.direct, ?_, ?_⟩
  · show s.kernel ++ piece (s.nodes n) k = _
    rw [flat_take, hker, ht, gone_advance hO (by omega), List.append_assoc]
  · intro m hm
    change s.fifo.head.head? = some m at hm
    rw [hh] at hm
    cases hm
  · intro _ j m hp _
    obtain ⟨_, rfl⟩ := hpast hp
    rw [hself]
  · intro _ hall
    have h1 := hall i n (Or.inl hw)
    rw [hself] at h1
    change (s.nodes n).offset + k = 0 at h1
    omega
  · intro j m hp _
    obtain ⟨rfl, _⟩ := hpast (Or.inr hp)
    change s.writer j = .queue m at hp
    rw [hw] at hp
    cases hp
  · intro m hm
    change m ∈ s.fifo.head.tail at hm
    rw [hh] at hm
    cases hm

theorem Ordered.sendAll (B : Books L s) (O : Ordered s) {i n k : Nat} (hw : s.writer i = .send n)
    (hk : (s.nodes n).offset + k = (s.nodes n).wcb) (v : Int) : Ordered ((s.take n k).ret i n v) := by
  have hn := (B.held i n (by rw [hw]; rfl)).1
  have hO := B.nodes n hn
  obtain ⟨hh, hS⟩ := O.direct i n hw
  have hpast : ∀ j m, ¬ Past ((s.take n k).ret i n v) j m := by
    intro j m hp
    by_cases hj : j = i
    · subst hj
      change Function.update s.writer j _ j = _ ∨ Function.update s.writer j _ j = _ at hp
      rw [Function.update_self] at hp
      rcases hp with hp | hp <;> cases hp
    · exact hS j m hj (past_of_ne hj hp)
  obtain ⟨ws, t, hker, hws, T⟩ := O.shape
  have ht := O.tail_send hw T
  refine ⟨⟨ws ++ [n], [], ?_, ?_, ?_, ?_, fun _ _ => rfl⟩, ?_, ?_, ?_⟩
  · show s.kernel ++ piece (s.nodes n) k
      = (ws ++ [n]).flatMap (fun m => packet ((s.take n k).nodes m)) ++ []
    have hg := gone_advance hO (Int.le_of_eq hk)
    rw [gone_all (hO.advance (Int.le_of_eq hk)) hk, packet_advance] at hg
    rw [flat_take, hker, ht, List.append_nil, List.flatMap_append, List.flatMap_singleton, hg,
      List.append_assoc]
  · intro m hm
    rcases List.mem_append.mp hm with hm | hm
    · exact hws m hm
    · rw [List.mem_singleton.mp hm]
      exact hn
  · intro m hm
    change s.fifo.head.head? = some m at hm
    rw [hh] at hm
    cases hm
  · exact fun _ j m hp => absurd hp (hpast j m)
  · exact fun j m hp => absurd (Or.inl hp) (hpast j m)
  · exact fun j m hp => absurd (Or.inr hp) (hpast j m)
  · intro m hm
    change m ∈ s.fifo.head.tail at hm
    rw [hh] at hm
    cases hm

theorem Ordered.sendAgain (O : Ordered s) {i n : Nat} (hw : s.writer i = .send n) (sock : Sock) :
    Ordered (Tx.setWriter { s with sock := sock } i (.queue n)) := by
  obtain ⟨hh, hS⟩ := O.direct i n hw
  have hpast : ∀ {j m}, Past (Tx.setWriter { s with sock := sock } i (.queue n)) j m →
      j = i ∧ m = n := by
    intro j m hp
    by_cases hj : j = i
    · subst hj
      change Function.update s.writer j _ j = _ ∨ Function.update s.writer j _ j = _ at hp
      rw [Function.update_self] at hp
      rcases hp with hp | hp <;> cases hp
      exact ⟨rfl, rfl⟩
    · exact absurd (past_of_ne hj hp) (hS j m hj)
  obtain ⟨ws, t, hker, hws, T⟩ := O.shape
  have ht := O.tail_send hw T
  refine ⟨⟨ws, t, hker, hws, T.front, ?_, ?_⟩, ?_, ?_, O.rest⟩
  · intro _ j m hp _
    obtain ⟨_, rfl⟩ := hpast hp
    exact ht
  · intro _ hall
    have h1 : Function.update s.writer i (.queue n) i = .queue n := Function.update_self ..
    have h2 : (s.nodes n).offset = 0 := hall i n (Or.inr h1)
    rw [ht, gone_none h2]
  · intro j m hp
    obtain ⟨rfl, rfl⟩ := hpast (Or.inl hp)
    change Function.update s.writer j _ j = .send m at hp
    rw [Function.update_self] at hp
    cases hp
  · intro j m hp _
    obtain ⟨rfl, _⟩ := hpast (Or.inr hp)
    exact ⟨hh, fun l k hl hp' => hl (hpast hp').1⟩

/-- `fifo_queue` has failed for a packet of which nothing is sent, and the queue is empty -/
theorem Ordered.refuse (O : Ordered s) {i n : Nat} (hw : s.writer i = .queue n)
    (hh : s.fifo.head = []) (h0 : (s.nodes n).offset = 0) (v : Int) : Ordered (s.ret i n v) := by
  have hpi : Past s i n := Or.inr hw
  have hpast : ∀ {j m}, Past (s.ret i n v) j m → j ≠ i ∧ Past s j m := by
    intro j m hp
    by_cases hj : j = i
    · subst hj
      change Function.update s.writer j _ j = _ ∨ Function.update s.writer j _ j = _ at hp
      rw [Function.update_self] at hp
      rcases hp with hp | hp <;> cases hp
    · exact ⟨hj, past_of_ne hj hp⟩
  obtain ⟨ws, t, hker, hws, T⟩ := O.shape
  refine ⟨⟨ws, t, hker, hws, T.front, ?_, ?_⟩, ?_, ?_, O.rest⟩
  · exact fun _ j m hp hne => T.begun hh j m (hpast hp).2 hne
  · intro _ hall
    refine T.none hh fun j m hp => ?_
    by_cases hj : j = i
    · subst hj
      rcases hp with hp | hp <;> rw [hw] at hp <;> cases hp
      exact h0
    · refine hall j m ?_
      show Function.update s.writer i _ j = _ ∨ Function.update s.writer i _ j = _
      rw [Function.update_of_ne hj]
      exact hp
  · intro j m hp
    obtain ⟨hj, _⟩ := hpast (Or.inl hp)
    change Function.update s.writer i _ j = .send m at hp
    rw [Function.update_of_ne hj] at hp
    exact absurd hpi ((O.direct j m hp).2 i n (Ne.symm hj))
  · intro j m hp hne
    obtain ⟨hj, _⟩ := hpast (Or.inr hp)
    change Function.update s.writer i _ j = .queue m at hp
    rw [Function.update_of_ne hj] at hp
    exact absurd hpi ((O.late j m hp hne).2 i n (Ne.symm hj))

theorem Ordered.enqueue (O : Ordered s) {i n : Nat} (hw : s.writer i = .queue n) {fifo' : Fifo}
    (hf : fifo'.head = s.fifo.head ++ [n]) (sock : Sock) (queued : List (Nat × Int)) :
    Ordered (Tx.ret { s with fifo := fifo', sock := sock, queued := queued } i n 0) := by
  have hpi : Past s i n := Or.inr hw
  have hne : fifo'.head ≠ [] := by
    rw [hf]
    exact List.append_ne_nil_of_right_ne_nil _ (List.cons_ne_nil _ _)
  have hwr : ∀ {j m}, Past (Tx.ret { s with fifo := fifo', sock := sock, queued := queued } i n 0) j m →
      j ≠ i ∧ s.writer j = Function.update s.writer i .idle j ∧ Past s j m := by
    intro j m hp
    by_cases hj : j = i
    · subst hj
      change Function.update s.writer j _ j = _ ∨ Function.update s.writer j _ j = _ at hp
      rw [Function.update_self] at hp
      rcases hp with hp | hp <;> cases hp
    · exact ⟨hj, (Function.update_of_ne hj ..).symm, past_of_ne hj hp⟩
  obtain ⟨ws, t, hker, hws, T⟩ := O.shape
  refine ⟨⟨ws, t, hker, hws, ?_, fun h => absurd h hne, fun h => absurd h hne⟩, ?_, ?_, ?_⟩
  · intro m hm
    change fifo'.head.head? = some m at hm
    rw [hf] at hm
    cases hh : s.fifo.head with
    | cons f rest =>
      rw [hh] at hm
      exact T.front m (by rw [hh]; exact hm)
    | nil =>
      rw [hh] at hm
      cases hm
      show t = gone (s.nodes n)
      by_cases h0 : (s.nodes n).offset = 0
      · -- a packet with a part of it sent would be the only one
        rw [gone_none h0]
        refine T.none hh fun j m hp => ?_
        by_contra hb
        by_cases hj : j = i
        · subst hj
          rcases hp with hp | hp <;> rw [hw] at hp <;> cases hp
          exact hb h0
        · rcases hp with hp | hp
          · exact (O.direct j m hp).2 i n (Ne.symm hj) hpi
          · exact (O.late j m hp hb).2 i n (Ne.symm hj) hpi
      · exact T.begun hh i n hpi h0
  · intro j m hp
    obtain ⟨hj, he, _⟩ := hwr (Or.inl hp)
    exact absurd hpi ((O.direct j m (he.trans hp)).2 i n (Ne.symm hj))
  · intro j m hp hb
    obtain ⟨hj, he, _⟩ := hwr (Or.inr hp)
    exact absurd hpi ((O.late j m (he.trans hp) hb).2 i n (Ne.symm hj))
  · intro m hm
    change m ∈ fifo'.head.tail at hm
    show (s.nodes m).offset = 0
    rw [hf] at hm
    cases hh : s.fifo.head with
    | nil => rw [hh] at hm; cases hm
    | cons f rest =>
      rw [hh] at hm
      rcases List.mem_append.mp hm with hm | hm
      · exact O.rest m (by rw [hh]; exact hm)
      · rw [List.mem_singleton.mp hm]
        by_contra h0
        have h1 := (O.late i n hw h0).1
        rw [hh] at h1
        cases h1

theorem Ordered.takeFront (B : Books L s) (O : Ordered s) {n k : Nat} (hw : s.worker = .send n)
    (hk : (s.nodes n).offset + k ≤ (s.nodes n).wcb) (w : Xpc) (drained : Bytes) :
    Ordered { s.take n k with drained := drained, worker := w } := by
  obtain ⟨rest, hh⟩ := head_of_head? (B.worker n hw)
  have hne : s.fifo.head ≠ [] := by rw [hh]; exact List.cons_ne_nil _ _
  have hmem : n ∈ s.fifo.head := by rw [hh]; exact List.mem_cons_self ..
  have hO := B.nodes n (B.known n (B.in_queue hmem))
  have hself : (s.take n k).nodes n = (s.nodes n).advance k := Function.update_self ..
  have hof : ∀ m, m ≠ n → (s.take n k).nodes m = s.nodes m := fun m hm => Function.update_of_ne hm ..
  obtain ⟨ws, t, hker, hws, T⟩ := O.shape
  have ht := T.front n (by rw [hh]; rfl)
  refine ⟨⟨ws, gone ((s.nodes n).advance k), ?_, hws, ?_, fun h => absurd h hne,
    fun h => absurd h hne⟩, ?_, ?_, ?_⟩
  · show s.kernel ++ piece (s.nodes n) k
      = ws.flatMap (fun m => packet ((s.take n k).nodes m)) ++ gone ((s.nodes n).advance k)
    rw [flat_take, hker, ht, gone_advance hO hk, List.append_assoc]
  · intro m hm
    change s.fifo.head.head? = some m at hm
    rw [hh] at hm
    cases hm
    show _ = gone ((s.take n k).nodes n)
    rw [hself]
  · intro j m hp
    exact absurd (O.direct j m hp).1 hne
  · intro j m hp hb
    have hmn : m ≠ n := by
      rintro rfl
      exact B.node_ne (i := j) (by rw [show s.writer j = .queue m from hp]; rfl) hmem rfl
    change ((s.take n k).nodes m).offset ≠ 0 at hb
    rw [hof m hmn] at hb
    exact absurd (O.late j m hp hb).1 hne
  · intro m hm
    change m ∈ s.fifo.head.tail at hm
    show ((s.take n k).nodes m).offset = 0
    have hm' : m ∈ rest := by rwa [hh] at hm
    rw [hof m (B.front_ne hh hm')]
    exact O.rest m hm

theorem Ordered.popFront (B : Books L s) (O : Ordered s) (hs : L.Spent s) {n : Nat}
    {rest : List Nat} {fifo' : Fifo} (hh : s.fifo.head = n :: rest) (hr : fifo'.head = rest)
    (sock : Sock) (w : Xpc) (tasks : Nat) :
    Ordered { s with fifo := fifo', sock := sock, popped := s.popped ++ [n], worker := w,
                     tasks := tasks } := by
  have hne : s.fifo.head ≠ [] := by rw [hh]; exact List.cons_ne_nil _ _
  obtain ⟨m, rest', hh', he⟩ := B.spent hs
  rw [hh] at hh'
  cases hh'
  have hn := B.known n (B.in_queue (by rw [hh]; exact List.mem_cons_self ..))
  obtain ⟨ws, t, hker, hws, T⟩ := O.shape
  have ht := T.front n (by rw [hh]; rfl)
  -- behind a queue that is not empty nobody has sent anything
  have hzero : ∀ j m, Past s j m → (s.nodes m).offset = 0 := by
    intro j m hp
    by_contra hb
    rcases hp with hp | hp
    · exact hne (O.direct j m hp).1
    · exact hne (O.late j m hp hb).1
  refine ⟨⟨ws ++ [n], [], ?_, ?_, ?_, ?_, fun _ _ => rfl⟩, ?_, ?_, ?_⟩
  · show s.kernel = (ws ++ [n]).flatMap (fun m => packet (s.nodes m)) ++ []
    rw [hker, ht, gone_all (B.nodes n hn) he, List.append_nil, List.flatMap_append,
      List.flatMap_singleton]
  · intro m hm
    rcases List.mem_append.mp hm with hm | hm
    · exact hws m hm
    · rw [List.mem_singleton.mp hm]
      exact hn
  · intro m hm
    change fifo'.head.head? = some m at hm
    rw [hr] at hm
    show [] = gone (s.nodes m)
    rw [gone_none (O.rest m (by rw [hh]; exact List.mem_of_head? hm))]
  · exact fun _ j m hp hb => absurd (hzero j m hp) hb
  · exact fun j m hp => absurd (O.direct j m hp).1 hne
  · exact fun j m hp hb => absurd (hzero j m (Or.inr hp)) hb
  · intro m hm
    change m ∈ fifo'.head.tail at hm
    rw [hr] at hm
    exact O.rest m (by rw [hh]; exact List.mem_of_mem_tail hm)

theorem move_ordered (hp : L.proto = .tcp) (B : Books L s) (O : Ordered s) (hA : Alone s a)
    (hF : NoFatal a) (h : Move L s a s') : Ordered s' := by
  cases h with
  | same => exact O
  | call hw hf hl => exact O.call B hw
  | testSend hw hh => exact O.testSend B hw hh (hA (B.fifo.blocking_zero.mpr hh))
  | @testQueue i n hw hh => exact O.behind hh (Or.inr ⟨n, rfl, B.fresh i n hw⟩) s.rets
  | sendSome hw h0 hk => exact O.sendSome B hw h0 hk
  | sendAll hw h0 hk => exact O.sendAll B hw hk _
  | sendAgain hw => exact O.sendAgain hw _
  | @sendFail i n r hw hr =>
    have hmild : r.Mild := hF
    rcases hr with rfl | ⟨e, rfl, h1, h2⟩
    · exact absurd hmild (Nat.lt_irrefl 0)
    · rcases hmild with h | h
      · exact absurd h h2
      · exact absurd h h1
  | @queueNo i n e r hw hr hh =>
    rcases hh with hh | ⟨hh, he⟩
    · exact O.behind hh (Or.inl rfl) _
    · refine O.refuse hw hh ?_ r
      by_contra h0
      exact he (hA n hw h0)
  | queueYes hw ho hh hs => exact O.enqueue hw hh _ _
  | task => exact O.pool ..
  | exec hw ht => exact O.pool ..
  | topFail hw => exact O.pool ..
  | topNone hw hh => exact O.pool ..
  | topSend hw hh => exact O.pool ..
  | wsendSome hw h0 hk => exact O.takeFront B hw (by omega) s.worker _
  | wsendAll hw h0 hk => exact O.takeFront B hw (by omega) _ _
  | wsendAgain hw => exact O.pool ..
  | wsendFail hw => exact O.pool ..
  | txPop hw hh ho hr hs =>
    have h1 := B.pops hw
    rw [hp] at h1
    cases h1
  | popNone hw hh => exact O.pool ..
  | pop hw hh ho hr hs => exact O.popFront B (Or.inr ⟨hw, by rw [hp]; rfl⟩) hh hr _ _ _
  | room => exact O.pool ..
  | close => exact O.pool ..

theorem ordered_init (sock : Sock) : Ordered (Tx.init sock) := by
  have hpast : ∀ i n, ¬ Past (Tx.init sock) i n := by
    intro i n hp
    rcases hp with hp | hp <;> cases hp
  refine ⟨⟨[], [], rfl, ?_, ?_, ?_, fun _ _ => rfl⟩, ?_, ?_, ?_⟩
  · intro n hn
    cases hn
  · intro n hn
    cases hn
  · exact fun _ i n hp => absurd hp (hpast i n)
  · exact fun i n hp => absurd (Or.inl hp) (hpast i n)
  · exact fun i n hp => absurd (Or.inr hp) (hpast i n)
  · intro n hn
    cases hn

theorem run_ordered (hp : L.proto = .tcp) {sock : Sock} {as : List (TxAct Req)}
    (hF : ∀ a, a ∈ as → NoFatal a) (hA : Meets (Tx.step L) Alone (Tx.init sock) as)
    (h : run (Tx.step L) (Tx.init sock) as = some s) : Ordered s := by
  refine run_moves (C := fun s a => Alone s a ∧ NoFatal a) ?_ (ordered_init sock)
    (meets_and _ hA (meets_all _ hF)) h
  intro s a s' B O hC M
  exact move_ordered hp B O hC.1 hC.2 M

end

/-- **Packets do not interleave as long as no call is let through beside another one.** -/
theorem clean_of_alone (H : Heap) (ncb : Ncb) (hcb : 0 ≤ ncb.tcp.template.cb_) (sock : Sock)
    (as : List (TxAct WriteReq)) (hF : ∀ a, a ∈ as → NoFatal a)
    (hA : Meets (Tx.step (tcpSender H ncb hcb)) Alone (Tx.init sock) as) (s : Tx)
    (h : run (Tx.step (tcpSender H ncb hcb)) (Tx.init sock) as = some s) : Clean s :=
  (run_ordered (L := tcpSender H ncb hcb) rfl hF hA h).clean (run_books h)

/-- a packet goes out in two parts, and a second call waits behind it in the queue -/
def twoInTurn : List (TxAct WriteReq) :=
  [.call 0 ⟨0, none, [1, 1], 2, none⟩ [], .call 1 ⟨0, none, [2, 2], 2, none⟩ [], .test 0,
    .send 0 (.bytes 1), .send 0 (.err EAGAIN), .queue 0 0, .test 1, .queue 1 0, .room, .task, .exec,
    .top none, .wsend (.bytes 1), .pop 0]

theorem twoInTurn_alone (hcb : 0 ≤ (Rx.fresh [] Attr.clear ⟨0, none, none⟩).ncb.tcp.template.cb_) :
    Meets (Tx.step (tcpSender Heap.zeros (Rx.fresh [] Attr.clear ⟨0, none, none⟩).ncb hcb)) Alone
      (Tx.init Sock.established) twoInTurn := by
  have hfree : ∀ j n, Function.update (Function.update (fun _ => Wpc.idle) 0 (.test 0)) 1 (.test 1) j
      ≠ Wpc.send n ∧ Function.update (Function.update (fun _ => Wpc.idle) 0 (.test 0)) 1 (.test 1) j
      ≠ Wpc.queue n := by
    intro j n
    by_cases h1 : j = 1
    · subst h1
      exact ⟨nofun, nofun⟩
    by_cases h0 : j = 0
    · subst h0
      exact ⟨nofun, nofun⟩
    rw [Function.update_of_ne h1, Function.update_of_ne h0]
    exact ⟨nofun, nofun⟩
  refine meets_cons _ rfl trivial (meets_cons _ rfl trivial (meets_cons _ rfl ?_ ?_))
  · intro _ j n hp
    exact hp.elim (hfree j n).1 (hfree j n).2
  refine meets_cons _ rfl trivial (meets_cons _ rfl trivial (meets_cons _ rfl (fun _ _ _ => rfl) ?_))
  -- the queue is in use, so the second call is not let through
  refine meets_cons _ rfl (fun h => by cases h) (meets_cons _ rfl (fun _ _ _ => rfl) ?_)
  exact meets_cons _ rfl trivial (meets_cons _ rfl trivial (meets_cons _ rfl trivial
    (meets_cons _ rfl trivial (meets_cons _ rfl trivial (meets_cons _ rfl trivial trivial)))))

theorem clean_of_alone_twoInTurn :
    ∃ s, run (Tx.step (tcpSender Heap.zeros (Rx.fresh [] Attr.clear ⟨0, none, none⟩).ncb (by decide)))
      (Tx.init Sock.established) twoInTurn = some s ∧ Clean s := by
  have hsome : (run (Tx.step (tcpSender Heap.zeros (Rx.fresh [] Attr.clear ⟨0, none, none⟩).ncb
      (by decide))) (Tx.init Sock.established) twoInTurn).isSome = true := rfl
  obtain ⟨s, hs⟩ := Option.isSome_iff_exists.mp hsome
  refine ⟨s, hs, clean_of_alone _ _ _ _ twoInTurn ?_ (twoInTurn_alone _) s hs⟩
  intro a ha
  simp only [twoInTurn, List.mem_cons, List.not_mem_nil, or_false] at ha
  rcases ha with rfl | rfl | rfl | rfl | rfl | rfl | rfl | rfl | rfl | rfl | rfl | rfl | rfl | rfl
  all_goals first | trivial | exact Nat.one_pos | exact Or.inr rfl

/-- both calls are let through, and the kernel takes one byte of each -/
def twoBeside : List (TxAct WriteReq) :=
  [.call 0 ⟨0, none, [1, 1], 2, none⟩ [], .call 1 ⟨0, none, [2, 2], 2, none⟩ [], .test 0, .test 1,
    .send 0 (.bytes 1), .send 0 (.err EAGAIN), .room, .send 1 (.bytes 1)]

theorem twoBeside_mixes :
    (∀ a, a ∈ twoBeside → NoFatal a) ∧
    ∃ s, run (Tx.step (tcpSender Heap.zeros (Rx.fresh [] Attr.clear ⟨0, none, none⟩).ncb (by decide)))
        (Tx.init Sock.established) twoBeside = some s ∧
      s.closed = false ∧ s.kernel = [1, 2] ∧ ¬ Clean s := by
  refine ⟨?_, ?_⟩
  · intro a ha
    simp only [twoBeside, List.mem_cons, List.not_mem_nil, or_false] at ha
    rcases ha with rfl | rfl | rfl | rfl | rfl | rfl | rfl | rfl
    all_goals first | trivial | exact Nat.one_pos | exact Or.inr rfl
  have h : (run (Tx.step (tcpSender Heap.zeros (Rx.fresh [] Attr.clear ⟨0, none, none⟩).ncb (by decide)))
      (Tx.init Sock.established) twoBeside).map
        (fun s => (s.closed, s.kernel, s.count, packet (s.nodes 0), packet (s.nodes 1)))
      = some (false, [1, 2], 2, [1, 1], [2, 2]) := by rfl
  obtain ⟨s, hs, he⟩ := Option.map_eq_some_iff.mp h
  injection he with h1 h2
  injection h2 with h2 h3
  injection h3 with h3 h4
  injection h4 with h4 h5
  have hpacket : ∀ n, n < s.count → packet (s.nodes n) = [1, 1] ∨ packet (s.nodes n) = [2, 2] := by
    intro n hn
    rw [h3] at hn
    rcases (show n = 0 ∨ n = 1 by omega) with rfl | rfl
    · exact Or.inl h4
    · exact Or.inr h5
  refine ⟨s, hs, h1, h2, ?_⟩
  rintro ⟨ws, t, hk, hws, ht⟩
  rw [h2] at hk
  cases ws with
  | nil =>
    -- one proper part of a packet of two bytes
    rcases ht with rfl | ⟨n, hn, _, hlt⟩
    · cases hk
    · have hl : ([1, 2] : Bytes).length = t.length := congrArg List.length hk
      rcases hpacket n hn with hp | hp <;> rw [hp, ← hl] at hlt <;> exact absurd hlt (Nat.lt_irrefl 2)
  | cons n ws =>
    rw [List.flatMap_cons] at hk
    rcases hpacket n (hws n (List.mem_cons_self ..)) with hp | hp <;> rw [hp] at hk <;> cases hk

end Swnet

import Swnet.Drain
import Swnet.Lib.Lifetime

/-!
# The memory of the nodes

What `tcp_write`, `udp_write` and `arp_nrequest`, the pool and `fifo_uninit` do to the memory of a
node, which is the node and its buffer: `tcp_write` frees it unless it has queued it, `fifo_pop` and `fifo_uninit` free what they
take out of the queue.  Everything else that touches a node is a use; so is the queue, which writes
into the nodes beside the one that it links.

* `Tx.touches`       what a step does to the blocks;
* `fifoUninit`       what `fifo_uninit` does;
* `Cared`            the blocks that are allocated are those in somebody's hand and in the queue;
* `nodes_settled`    over the life of a link no block is used after it is freed, freed twice or lost.
-/

namespace Swnet
open CMem Runs Lifetime

/-- `list_del` writes into the node and into its neighbour, and then the node is freed -/
def unlinked : List Nat → List (Touch Nat)
  | [] => []
  | n :: rest => .use n :: rest.head?.toList.map .use ++ [.drop n]

/-- the loop of `fifo_uninit` -/
def fifoUninit : List Nat → List (Touch Nat)
  | [] => []
  | n :: rest => unlinked (n :: rest) ++ fifoUninit rest

/-- `tcp_write` behind `tcp_txn`: the node is freed unless it is to be queued -/
def freed (n : Nat) : Option Int → List (Touch Nat)
  | none => []
  | some v => if v = -EAGAIN then [] else [.drop n]

section
variable {Req : Type} (L : Sender Req)

/-- what the step that a thread takes does to the nodes -/
def Tx.touches (s : Tx) : TxAct Req → List (Touch Nat)
  | .call _ q _ =>
    if s.closed then []
    else match L.front q with
      | .ok (.ok _) => [.take s.count]
      | _ => []
  | .test i =>
    match s.writer i with
    | .test n =>
      if fifoIsBlocking s.fifo = 0 then .use n :: freed n (txnHead (s.nodes n)) else []
    | _ => []
  | .send i r =>
    match s.writer i with
    | .send n => .use n :: freed n (L.proto.txn (s.nodes n) r).2
    | _ => []
  | .queue i e =>
    match s.writer i with
    | .queue n =>
      .use n :: s.fifo.head.getLast?.toList.map .use ++
        (if (fifoQueue s.fifo s.sock n e).1 < 0 then [.drop n] else [])
    | _ => []
  | .top _ => (fifoTop s.fifo).toList.map .use
  | .wsend _ =>
    match s.worker with
    | .send n => [.use n]
    | _ => []
  | .txPop _ => unlinked s.fifo.head
  | .pop _ => unlinked s.fifo.head
  | _ => []

/-- a thread has the node in hand, or the queue holds it -/
def Owned (s : Tx) (n : Nat) : Prop := (∃ i, (s.writer i).node = some n) ∨ n ∈ s.fifo.head

structure Cared (s : Tx) (l : Nat → Fate) : Prop where
  fresh : ∀ n, s.count ≤ n → l n = .fresh
  held : ∀ n, Owned s n → l n = .held
  gone : ∀ n, n < s.count → ¬ Owned s n → l n = .gone

variable {L} {s s' : Tx} {a : TxAct Req} {l : Nat → Fate}

/-! ## the verdicts of `tcp_txn` -/

theorem txn_some {node : TxNode} {k : Nat} (p : Proto) (h0 : 0 < k)
    (hk : node.offset + k < node.wcb) : (p.txn node (.bytes k)).2 = none := by
  rw [txn_eq]
  unfold txnRound
  dsimp only
  rw [if_neg (by omega)]
  exact txnHead_none hk

theorem txn_all {node : TxNode} {k : Nat} (p : Proto) (h0 : 0 < k)
    (hk : node.offset + k = node.wcb) : (p.txn node (.bytes k)).2 = some node.wcb := by
  rw [txn_eq]
  unfold txnRound
  dsimp only
  rw [if_neg (by omega)]
  exact txnHead_some hk

theorem txn_fail {node : TxNode} {r : Sent} (p : Proto)
    (hr : r = .bytes 0 ∨ ∃ e, r = .err e ∧ e ≠ EAGAIN ∧ e ≠ EINTR) :
    (p.txn node r).2 = some (-1) := by
  rw [txn_eq]
  rcases hr with rfl | ⟨e, rfl, h1, h2⟩
  · rfl
  · unfold txnRound
    dsimp only
    rw [if_neg h1, if_neg h2]

theorem txn_again (p : Proto) (node : TxNode) : (p.txn node (.err EAGAIN)).2 = some (-EAGAIN) := by
  rw [txn_eq]
  rfl

theorem txn_intr (p : Proto) (node : TxNode) : (p.txn node (.err EINTR)).2 = none := by
  rw [txn_eq]
  rfl

/-! ## how the owners change -/

theorem Books.owned_lt (B : Books L s) {n : Nat} (h : Owned s n) : n < s.count := by
  rcases h with ⟨i, hi⟩ | h
  · exact (B.held i n hi).1
  · exact B.known n (B.in_queue h)

theorem Cared.congr (D : Cared s l) (hc : s'.count = s.count) (ho : ∀ n, Owned s' n ↔ Owned s n) :
    Cared s' l where
  fresh n hn := D.fresh n (by omega)
  held n hn := D.held n ((ho n).mp hn)
  gone n hn h := D.gone n (by omega) (fun h' => h ((ho n).mpr h'))

/-- a node is freed -/
theorem Cared.drop (B : Books L s) (D : Cared s l) {n : Nat} (hn : Owned s n)
    (t : Tx) (hc : t.count = s.count) (ho : ∀ m, Owned t m ↔ Owned s m ∧ m ≠ n) :
    watch l (.drop n) = some (Function.update l n .gone) ∧
      Cared t (Function.update l n .gone) := by
  refine ⟨watch_drop (D.held n hn), ?_, ?_, ?_⟩
  · intro m hm
    have hne : m ≠ n := by
      have := B.owned_lt hn
      omega
    rw [Function.update_of_ne hne]
    exact D.fresh m (by omega)
  · intro m hm
    obtain ⟨h1, h2⟩ := (ho m).mp hm
    rw [Function.update_of_ne h2]
    exact D.held m h1
  · intro m hm hno
    by_cases hne : m = n
    · subst hne
      exact Function.update_self ..
    · rw [Function.update_of_ne hne]
      exact D.gone m (by omega) fun h => hno ((ho m).mpr ⟨h, hne⟩)

theorem owned_setWriter {w : Nat → Wpc} {i : Nat} {pc : Wpc} (hpc : pc.node = (w i).node) (n : Nat) :
    (∃ j, (Function.update w i pc j).node = some n) ↔ ∃ j, (w j).node = some n := by
  have he : ∀ j, (Function.update w i pc j).node = (w j).node := by
    intro j
    by_cases hj : j = i
    · subst hj
      rw [Function.update_self, hpc]
    · rw [Function.update_of_ne hj]
  exact exists_congr fun j => by rw [he j]

/-- a thread lets its node go -/
theorem Books.owned_idle (B : Books L s) {i n : Nat} (hw : (s.writer i).node = some n) (m : Nat) :
    (∃ j, (Function.update s.writer i .idle j).node = some m) ↔
      (∃ j, (s.writer j).node = some m) ∧ m ≠ n := by
  constructor
  · rintro ⟨j, hj⟩
    by_cases hji : j = i
    · subst hji
      rw [Function.update_self] at hj
      cases hj
    · rw [Function.update_of_ne hji] at hj
      refine ⟨⟨j, hj⟩, ?_⟩
      rintro rfl
      exact hji (B.apart j i m hj hw)
  · rintro ⟨⟨j, hj⟩, hne⟩
    refine ⟨j, ?_⟩
    rw [Function.update_of_ne ?_]
    · exact hj
    · rintro rfl
      exact hne (Option.some.inj (hj.symm.trans hw))

theorem Books.owned_ret (B : Books L s) {i n : Nat} (hw : (s.writer i).node = some n) {t : Tx}
    (hwr : t.writer = s.writer) (hf : t.fifo = s.fifo) (v : Int) (m : Nat) :
    Owned (t.ret i n v) m ↔ Owned s m ∧ m ≠ n := by
  have hq : m ∈ s.fifo.head → m ≠ n := fun hm => B.node_ne hw hm
  unfold Owned
  show (∃ j, (Function.update t.writer i .idle j).node = some m) ∨ m ∈ t.fifo.head ↔ _
  rw [hwr, hf, B.owned_idle hw m]
  constructor
  · rintro (⟨h1, h2⟩ | h)
    · exact ⟨Or.inl h1, h2⟩
    · exact ⟨Or.inr h, hq h⟩
  · rintro ⟨h1 | h1, h2⟩
    · exact Or.inl ⟨h1, h2⟩
    · exact Or.inr h1

theorem Books.owned_pop (B : Books L s) {n : Nat} {rest : List Nat} (hh : s.fifo.head = n :: rest)
    (m : Nat) : (∃ j, (s.writer j).node = some m) ∨ m ∈ rest ↔ Owned s m ∧ m ≠ n := by
  have hmem : n ∈ s.fifo.head := by rw [hh]; exact List.mem_cons_self ..
  unfold Owned
  rw [hh, List.mem_cons]
  constructor
  · rintro (⟨j, hj⟩ | h)
    · exact ⟨Or.inl ⟨j, hj⟩, fun he => B.node_ne hj hmem he.symm⟩
    · exact ⟨Or.inr (Or.inr h), B.front_ne hh h⟩
  · rintro ⟨h | rfl | h, hne⟩
    · exact Or.inl h
    · exact absurd rfl hne
    · exact Or.inr h

/-! ## every step -/

theorem watch_use_cons {n : Nat} (h : l n = .held) (es : List (Touch Nat)) :
    run watch l (.use n :: es) = run watch l es := by
  rw [run_cons, watch_use h, Option.bind_some]

theorem Cared.writer (D : Cared s l) {i n : Nat} (h : (s.writer i).node = some n) : l n = .held :=
  D.held n (Or.inl ⟨i, h⟩)

/-- a node is taken out of the queue -/
theorem Cared.unlink (B : Books L s) (D : Cared s l) {n : Nat} {rest : List Nat}
    (hh : s.fifo.head = n :: rest) (hc : s'.count = s.count)
    (ho : ∀ m, Owned s' m ↔ (∃ j, (s.writer j).node = some m) ∨ m ∈ rest) :
    ∃ l', run watch l (unlinked s.fifo.head) = some l' ∧ Cared s' l' := by
  have hn : Owned s n := Or.inr (by rw [hh]; exact List.mem_cons_self ..)
  obtain ⟨h1, h2⟩ := D.drop B hn _ hc fun m => (ho m).trans (B.owned_pop hh m)
  refine ⟨_, ?_, h2⟩
  have hrest : ∀ m, m ∈ rest.head?.toList → l m = .held := by
    intro m hm
    refine D.held m (Or.inr ?_)
    rw [hh]
    exact List.mem_cons_of_mem _ (List.mem_of_head? (Option.mem_toList.mp hm))
  rw [hh]
  show run watch l (.use n :: (rest.head?.toList.map .use ++ [.drop n])) = _
  rw [watch_use_cons (D.held n hn), run_append, run_uses hrest, Option.bind_some, run_cons, h1]
  rfl

theorem call_cared (D : Cared s l) {i : Nat} {q : Req} {behind : Bytes}
    (h : s.step L (.call i q behind) = some s') :
    ∃ l', run watch l (s.touches L (.call i q behind)) = some l' ∧ Cared s' l' := by
  simp only [Tx.step] at h
  by_cases hw : s.writer i = .idle
  swap
  · rw [if_neg hw] at h
    cases h
  rw [if_pos hw] at h
  unfold Tx.touches
  dsimp only
  cases hcl : s.closed with
  | true =>
    rw [hcl, if_pos rfl] at h
    cases h
    exact ⟨l, rfl, D⟩
  | false =>
    rw [hcl, if_neg (by decide)] at h
    rw [if_neg (by decide)]
    cases hf : L.front q with
    | error e => rw [hf] at h; cases h
    | ok r =>
      rw [hf] at h
      cases r with
      | error e =>
        cases h
        exact ⟨l, rfl, D⟩
      | ok node =>
        dsimp only at h ⊢
        by_cases hl : node.wcb ≤ (node.data ++ behind).length
        swap
        · rw [if_neg hl] at h
          cases h
        rw [if_pos hl] at h
        cases h
        -- the owners: those of before, and the thread that has made the node
        have ho : ∀ m, Owned { s.setWriter i (.test s.count) with
            nodes := Function.update s.nodes s.count { node with data := node.data ++ behind }
            count := s.count + 1 } m ↔ Owned s m ∨ m = s.count := by
          intro m
          unfold Owned
          show (∃ j, (Function.update s.writer i (.test s.count) j).node = some m) ∨ m ∈ s.fifo.head ↔ _
          constructor
          · rintro (⟨j, hj⟩ | hm)
            · by_cases hji : j = i
              · subst hji
                rw [Function.update_self] at hj
                exact Or.inr (Option.some.inj hj).symm
              · rw [Function.update_of_ne hji] at hj
                exact Or.inl (Or.inl ⟨j, hj⟩)
            · exact Or.inl (Or.inr hm)
          · rintro ((⟨j, hj⟩ | hm) | rfl)
            · refine Or.inl ⟨j, ?_⟩
              rw [Function.update_of_ne ?_]
              · exact hj
              · rintro rfl
                rw [hw] at hj
                cases hj
            · exact Or.inr hm
            · exact Or.inl ⟨i, by rw [Function.update_self]; rfl⟩
        refine ⟨Function.update l s.count .held, ?_, ?_, ?_, ?_⟩
        · rw [run_cons, watch_take (D.fresh _ (Nat.le_refl _))]
          rfl
        · intro m hm
          change s.count + 1 ≤ m at hm
          rw [Function.update_of_ne (by omega)]
          exact D.fresh m (by omega)
        · intro m hm
          by_cases hmc : m = s.count
          · subst hmc
            exact Function.update_self ..
          · rw [Function.update_of_ne hmc]
            exact D.held m (((ho m).mp hm).resolve_right hmc)
        · intro m hm hno
          change m < s.count + 1 at hm
          have hmc : m ≠ s.count := fun he => hno ((ho m).mpr (Or.inr he))
          rw [Function.update_of_ne hmc]
          exact D.gone m (by omega) fun h => hno ((ho m).mpr (Or.inl h))

theorem send_cared (B : Books L s) (D : Cared s l) {i : Nat} {r : Sent}
    (h : s.step L (.send i r) = some s') :
    ∃ l', run watch l (s.touches L (.send i r)) = some l' ∧ Cared s' l' := by
  have M := send_move B h
  unfold Tx.touches
  dsimp only
  cases M with
  | same ha =>
    refine ⟨l, ?_, D⟩
    have hr : r = .err EINTR := by
      rcases ha with ⟨_, _, _, h⟩ | ⟨_, h⟩ | h <;> cases h
      rfl
    subst hr
    cases hw : s.writer i with
    | send n =>
      dsimp only
      rw [txn_intr, watch_use_cons (D.writer (i := i) (by rw [hw]; rfl))]
      rfl
    | _ => rfl
  | @sendSome i n k hw h0 hk =>
    have hn : (s.writer i).node = some n := by rw [hw]; rfl
    rw [hw]
    dsimp only
    rw [txn_some _ h0 hk, watch_use_cons (D.writer hn)]
    exact ⟨l, rfl, D.congr rfl fun _ => Iff.rfl⟩
  | @sendAll i n k hw h0 hk =>
    have hn : (s.writer i).node = some n := by rw [hw]; rfl
    have hpos := (B.nodes n (B.held i n hn).1).pos
    have he : EAGAIN = 11 := rfl
    obtain ⟨h1, h2⟩ := D.drop B (Or.inl ⟨i, hn⟩) ((s.take n k).ret i n (s.nodes n).wcb) rfl
      (B.owned_ret hn (t := s.take n k) rfl rfl _)
    rw [hw]
    dsimp only
    rw [txn_all _ h0 hk, watch_use_cons (D.writer hn)]
    unfold freed
    dsimp only
    rw [if_neg (by omega), run_cons, h1]
    exact ⟨_, rfl, h2⟩
  | @sendAgain i n hw =>
    have hn : (s.writer i).node = some n := by rw [hw]; rfl
    rw [hw]
    dsimp only
    rw [txn_again, watch_use_cons (D.writer hn)]
    refine ⟨l, rfl, D.congr rfl fun m => or_congr_left ?_⟩
    exact owned_setWriter (show (Wpc.queue n).node = _ from hn.symm) m
  | @sendFail i n r hw hr =>
    have hn : (s.writer i).node = some n := by rw [hw]; rfl
    have he : EAGAIN = 11 := rfl
    obtain ⟨h1, h2⟩ := D.drop B (Or.inl ⟨i, hn⟩) (s.ret i n (-1)) rfl
      (B.owned_ret hn (t := s) rfl rfl _)
    rw [hw]
    dsimp only
    rw [txn_fail _ hr, watch_use_cons (D.writer hn)]
    unfold freed
    dsimp only
    rw [if_neg (by omega), run_cons, h1]
    exact ⟨_, rfl, h2⟩

theorem queue_cared (B : Books L s) (D : Cared s l) {i e : Nat}
    (h : s.step L (.queue i e) = some s') :
    ∃ l', run watch l (s.touches L (.queue i e)) = some l' ∧ Cared s' l' := by
  simp only [Tx.step] at h
  unfold Tx.touches
  dsimp only
  cases hw : s.writer i with
  | queue n =>
    have hn : (s.writer i).node = some n := by rw [hw]; rfl
    have hlast : ∀ m, m ∈ s.fifo.head.getLast?.toList → l m = .held := fun m hm =>
      D.held m (Or.inr (List.mem_of_getLast? (Option.mem_toList.mp hm)))
    rw [hw] at h
    dsimp only at h ⊢
    rw [List.cons_append, watch_use_cons (D.writer hn), run_append, run_uses hlast, Option.bind_some]
    obtain ⟨r, fifo', sock', hq⟩ : ∃ r f t, fifoQueue s.fifo s.sock n e = (r, f, t) :=
      ⟨_, _, _, rfl⟩
    rw [hq] at h ⊢
    dsimp only at h ⊢
    rcases fifo_queue_spec B.fifo hq with ⟨hr, rfl, rfl, _⟩ | ⟨hr, _, hh, _⟩
    · rw [if_pos hr] at h ⊢
      cases h
      obtain ⟨h1, h2⟩ := D.drop B (Or.inl ⟨i, hn⟩) (s.ret i n r) rfl
        (B.owned_ret hn (t := s) rfl rfl _)
      rw [run_cons, h1]
      exact ⟨_, rfl, h2⟩
    · rw [if_neg (by omega)] at h ⊢
      cases h
      refine ⟨l, rfl, D.congr rfl fun m => ?_⟩
      unfold Owned
      show (∃ j, (Function.update s.writer i .idle j).node = some m) ∨ m ∈ fifo'.head ↔ _
      rw [hh, B.owned_idle hn m, List.mem_append, List.mem_singleton]
      constructor
      · rintro (⟨h1, _⟩ | h1 | rfl)
        · exact Or.inl h1
        · exact Or.inr h1
        · exact Or.inl ⟨i, hn⟩
      · rintro (h1 | h1)
        · by_cases hm : m = n
          · exact Or.inr (Or.inr hm)
          · exact Or.inl ⟨h1, hm⟩
        · exact Or.inr (Or.inl h1)
  | idle => rw [hw] at h; cases h
  | test n => rw [hw] at h; cases h
  | send n => rw [hw] at h; cases h

/-- **Every step treats the nodes as it should.** -/
theorem step_cared (B : Books L s) (D : Cared s l) (h : s.step L a = some s') :
    ∃ l', run watch l (s.touches L a) = some l' ∧ Cared s' l' := by
  have M := step_move B h
  cases a with
  | call i q behind => exact call_cared D h
  | test i =>
    unfold Tx.touches
    dsimp only
    cases M with
    | same ha => rcases ha with ⟨_, _, _, h⟩ | ⟨_, h⟩ | h <;> cases h
    | @testSend i n hw hh =>
      have hn : (s.writer i).node = some n := by rw [hw]; rfl
      have hpos := (B.nodes n (B.held i n hn).1).pos
      have h0 := B.fresh i n hw
      rw [hw]
      dsimp only
      have hb : fifoIsBlocking s.fifo = 0 := B.fifo.blocking_zero.mpr hh
      rw [if_pos hb, txnHead_none (by omega), watch_use_cons (D.writer hn)]
      refine ⟨l, rfl, D.congr rfl fun m => or_congr_left ?_⟩
      exact owned_setWriter (show (Wpc.send n).node = _ from hn.symm) m
    | @testQueue i n hw hh =>
      have hn : (s.writer i).node = some n := by rw [hw]; rfl
      rw [hw]
      dsimp only
      have hb : ¬ fifoIsBlocking s.fifo = 0 := fun hb => hh (B.fifo.blocking_zero.mp hb)
      rw [if_neg hb]
      refine ⟨l, rfl, D.congr rfl fun m => or_congr_left ?_⟩
      exact owned_setWriter (show (Wpc.queue n).node = _ from hn.symm) m
  | send i r => exact send_cared B D h
  | queue i e => exact queue_cared B D h
  | top ktcp =>
    have htop : ∀ m, m ∈ (fifoTop s.fifo).toList → l m = .held := fun m hm =>
      D.held m (Or.inr (List.mem_of_head? (Option.mem_toList.mp hm)))
    refine ⟨l, run_uses htop, D.congr ?_ ?_⟩
    · cases M <;> rfl
    · intro m
      cases M <;> exact Iff.rfl
  | wsend r =>
    have hD : Cared s' l := by
      refine D.congr ?_ ?_
      · cases M <;> rfl
      · intro m
        cases M <;> exact Iff.rfl
    refine ⟨l, ?_, hD⟩
    unfold Tx.touches
    dsimp only
    cases hw : s.worker with
    | send n => exact watch_use_cons (D.held n (Or.inr (List.mem_of_head? (B.worker n hw)))) []
    | _ => rfl
  | txPop e =>
    cases M with
    | same ha => rcases ha with ⟨_, _, _, h⟩ | ⟨_, h⟩ | h <;> cases h
    | txPop hw hh ho hr hs => exact D.unlink B hh rfl fun m => by rw [← hr]; exact Iff.rfl
  | pop e =>
    cases M with
    | same ha => rcases ha with ⟨_, _, _, h⟩ | ⟨_, h⟩ | h <;> cases h
    | popNone hw hh =>
      refine ⟨l, ?_, D.congr rfl fun _ => Iff.rfl⟩
      show run watch l (unlinked s.fifo.head) = _
      rw [hh]
      rfl
    | pop hw hh ho hr hs => exact D.unlink B hh rfl fun m => by rw [← hr]; exact Iff.rfl
  | task =>
    cases M
    · exact ⟨l, rfl, D⟩
    · exact ⟨l, rfl, D.congr rfl fun _ => Iff.rfl⟩
  | exec =>
    cases M
    · exact ⟨l, rfl, D⟩
    · exact ⟨l, rfl, D.congr rfl fun _ => Iff.rfl⟩
  | room =>
    cases M
    · exact ⟨l, rfl, D⟩
    · exact ⟨l, rfl, D.congr rfl fun _ => Iff.rfl⟩
  | close =>
    cases M
    · exact ⟨l, rfl, D⟩
    · exact ⟨l, rfl, D.congr rfl fun _ => Iff.rfl⟩

theorem cared_init (sock : Sock) : Cared (Tx.init sock) (unborn Nat) where
  fresh _ _ := rfl
  held n h := by
    rcases h with ⟨i, hi⟩ | h
    · cases hi
    · exact absurd h List.not_mem_nil
  gone n h := absurd h (Nat.not_lt_zero n)

theorem run_cared {sock : Sock} {as : List (TxAct Req)}
    (h : run (Tx.step L) (Tx.init sock) as = some s) :
    ∃ l, run watch (unborn Nat) (trace (Tx.step L) (Tx.touches L) (Tx.init sock) as) = some l ∧
      Cared s l := by
  obtain ⟨l, h1, h2⟩ := run_watched (Tx.step L) (R := fun s l => Books L s ∧ Cared s l)
    (fun s a s' l R hs => by
      obtain ⟨l', h1, h2⟩ := step_cared R.1 R.2 hs
      exact ⟨l', h1, move_books R.1 (step_move R.1 hs), h2⟩) h ⟨books_init sock, cared_init sock⟩
  exact ⟨l, h1, h2.2⟩

/-! ## the end of a link -/

/-- `fifo_uninit` on a queue of blocks that are allocated -/
theorem run_fifoUninit {q : List Nat} (hq : q.Nodup) (hl : ∀ n, n ∈ q → l n = .held) :
    ∃ l', run watch l (fifoUninit q) = some l' ∧ (∀ n, n ∈ q → l' n = .gone) ∧
      ∀ n, n ∉ q → l' n = l n := by
  induction q generalizing l with
  | nil => exact ⟨l, rfl, fun n h => absurd h List.not_mem_nil, fun _ _ => rfl⟩
  | cons n rest ih =>
    obtain ⟨hn, hr⟩ := List.nodup_cons.mp hq
    have hself := hl n (List.mem_cons_self ..)
    have hne : ∀ m, m ∈ rest → m ≠ n := fun m hm he => hn (he ▸ hm)
    obtain ⟨l', h1, h2, h3⟩ := ih (l := Function.update l n .gone) hr fun m hm => by
      rw [Function.update_of_ne (hne m hm)]
      exact hl m (List.mem_cons_of_mem _ hm)
    have hone : run watch l (unlinked (n :: rest)) = some (Function.update l n .gone) := by
      show run watch l (.use n :: (rest.head?.toList.map .use ++ [.drop n])) = _
      rw [watch_use_cons hself, run_append, run_uses fun m hm =>
        hl m (List.mem_cons_of_mem _ (List.mem_of_head? (Option.mem_toList.mp hm))),
        Option.bind_some, run_cons, watch_drop hself]
      rfl
    refine ⟨l', ?_, ?_, ?_⟩
    · show run watch l (unlinked (n :: rest) ++ fifoUninit rest) = _
      rw [run_append, hone]
      exact h1
    · intro m hm
      rcases List.mem_cons.mp hm with rfl | hm
      · rw [h3 m hn, Function.update_self]
      · exact h2 m hm
    · intro m hm
      rw [h3 m fun h => hm (List.mem_cons_of_mem _ h),
        Function.update_of_ne fun he => hm (by rw [he]; exact List.mem_cons_self ..)]

/-- what happens to the nodes over the life of a link: the run, and `ncb_deconstruct` behind it -/
def nodesOfLink (L : Sender Req) (sock : Sock) (as : List (TxAct Req)) : List (Touch Nat) :=
  trace (Tx.step L) (Tx.touches L) (Tx.init sock) as ++
    ((run (Tx.step L) (Tx.init sock) as).elim [] fun s => fifoUninit s.fifo.head)

end

/-- **No node is used after it is freed, freed twice or lost.**  For every kind of link, every
interleaving of the calls with the pool, and every state in which the link is destroyed, which is
when no thread is in a call any more. -/
theorem nodes_settled {Req : Type} (L : Sender Req) (sock : Sock) (as : List (TxAct Req)) (s : Tx)
    (h : run (Tx.step L) (Tx.init sock) as = some s) (hw : ∀ i, s.writer i = .idle) :
    Settled (nodesOfLink L sock as) ∧ ∀ n, n < s.count →
      (nodesOfLink L sock as).count (.take n) = 1 ∧ (nodesOfLink L sock as).count (.drop n) = 1 := by
  have B := run_books h
  obtain ⟨l, h1, D⟩ := run_cared h
  have hnodup : s.fifo.head.Nodup := by
    have h2 := B.nodup
    rw [B.queued] at h2
    exact (List.nodup_append.mp h2).2.1
  obtain ⟨l', h2, h3, h4⟩ := run_fifoUninit hnodup fun n hn => D.held n (Or.inr hn)
  have hrun : run watch (unborn Nat) (nodesOfLink L sock as) = some l' := by
    unfold nodesOfLink
    rw [run_append, h1, h]
    exact h2
  have hown : ∀ n, n ∉ s.fifo.head → ¬ Owned s n := by
    rintro n hn (⟨i, hi⟩ | hq)
    · rw [hw i] at hi
      cases hi
    · exact hn hq
  have hend : ∀ n, l' n = if n < s.count then .gone else .fresh := by
    intro n
    by_cases hq : n ∈ s.fifo.head
    · rw [h3 n hq, if_pos (B.known n (B.in_queue hq))]
    · rw [h4 n hq]
      by_cases hc : n < s.count
      · rw [if_pos hc]
        exact D.gone n hc (hown n hq)
      · rw [if_neg hc]
        exact D.fresh n (Nat.le_of_not_lt hc)
  have hS : Settled (nodesOfLink L sock as) := by
    refine ⟨l', hrun, fun n => ?_⟩
    rw [hend n]
    split <;> decide
  refine ⟨hS, fun n hn => ?_⟩
  have ht := count_take hrun n
  rw [hend n, if_pos hn] at ht
  have ht' : (nodesOfLink L sock as).count (.take n) = 1 := ht
  exact ⟨ht', (hS.counts n).1.trans ht'⟩

/-- a thread that does not call stays out -/
theorem move_idle {Req : Type} {L : Sender Req} {s s' : Tx} {a : TxAct Req} {j : Nat}
    (hj : s.writer j = .idle) (ha : ∀ q behind, a ≠ .call j q behind) (M : Move L s a s') :
    s'.writer j = .idle := by
  have hne : ∀ {i : Nat} {pc : Wpc}, s.writer i = pc → pc ≠ .idle → j ≠ i := by
    rintro i pc hw hpc rfl
    exact hpc (hw.symm.trans hj)
  cases M with
  | @call i q behind node hw hf hl =>
    have hji : j ≠ i := fun he => ha q behind (by rw [he])
    exact (Function.update_of_ne hji ..).trans hj
  | testSend hw | testQueue hw | sendAll hw | sendAgain hw | sendFail hw | queueNo hw | queueYes hw =>
    exact (Function.update_of_ne (hne hw nofun) ..).trans hj
  | _ => exact hj

theorem udpTwo_idle : ∃ s, run (Tx.step (udpSender 1472 Heap.zeros)) (Tx.init Sock.established) udpTwo
    = some s ∧ ∀ i, s.writer i = .idle := by
  have h0 : (run (Tx.step (udpSender 1472 Heap.zeros)) (Tx.init Sock.established) udpTwo).map
      (fun s => s.writer 0) = some .idle := by rfl
  obtain ⟨s, hs, hz⟩ := Option.map_eq_some_iff.mp h0
  refine ⟨s, hs, fun i => ?_⟩
  by_cases hi : i = 0
  · rw [hi, hz]
  · -- only the first thread calls
    refine run_moves (P := fun s => s.writer i = .idle) (C := fun _ a => ∀ q behind, a ≠ .call i q behind)
      (fun _ _ _ _ hj ha M => move_idle hj ha M) rfl (meets_all _ ?_) hs
    intro a ha q behind
    simp only [udpTwo, List.mem_cons, List.not_mem_nil, or_false] at ha
    rintro rfl
    simp [hi] at ha

theorem nodes_settled_udpTwo :
    ∃ s, run (Tx.step (udpSender 1472 Heap.zeros)) (Tx.init Sock.established) udpTwo = some s ∧
      Settled (nodesOfLink (udpSender 1472 Heap.zeros) Sock.established udpTwo) ∧ ∀ n, n < s.count →
      (nodesOfLink (udpSender 1472 Heap.zeros) Sock.established udpTwo).count (.take n) = 1 ∧
      (nodesOfLink (udpSender 1472 Heap.zeros) Sock.established udpTwo).count (.drop n) = 1 := by
  obtain ⟨s, hs, hw⟩ := udpTwo_idle
  exact ⟨s, hs, nodes_settled _ _ _ s hs hw⟩

end Swnet

import Swnet.TxBooks

/-!
# What leaves the queue has been sent

`udp_tx` and `arp_tx` take a node out of the queue once it is sent, and `__wp_exec` takes one out
behind every `ncb_write` that has sent something.  The second `fifo_pop` finds the next node.

* `Drains`             no node leaves the queue before it is sent; what the kernel has taken from the
                       pool is what was queued, in order;
* `Lone`               the condition on a `fifo_pop` of `__wp_exec`;
* `drains_iff`         the one holds all along a run if and only if every step meets the other.
-/

namespace Swnet
open CMem Runs

/-- the bytes that were still to be sent when the node was queued -/
def queuedBytes (s : Tx) (q : Nat × Int) : Bytes := (packet (s.nodes q.1)).drop q.2.toNat

def Drains (s : Tx) : Prop :=
  (∀ n, n ∈ s.popped → (s.nodes n).offset = (s.nodes n).wcb) ∧
  s.queued.map Prod.fst = s.popped ++ s.fifo.head ∧
  s.drained ++ s.fifo.head.flatMap (fun n => left (s.nodes n)) = s.queued.flatMap (queuedBytes s)

section
variable {Req : Type} {L : Sender Req} {s s' : Tx} {a : TxAct Req}

/-- when `__wp_exec` takes a node out behind `udp_tx` or `arp_tx`, none is left -/
def Lone (L : Sender Req) (s : Tx) (a : TxAct Req) : Prop :=
  ∀ e, a = .pop e → L.proto.txPops = true → s.fifo.head = []

/-- bytes that a thread sends itself do not concern the queue -/
theorem Drains.takeHeld (B : Books L s) (D : Drains s) {i n k : Nat}
    (hw : (s.writer i).node = some n) : Drains (s.take n k) := by
  obtain ⟨h1, h2, h3⟩ := D
  have hof : ∀ m, m ∈ s.queued.map Prod.fst → (s.take n k).nodes m = s.nodes m := by
    intro m hm
    refine Function.update_of_ne ?_ ..
    rintro rfl
    exact (B.held i m hw).2 hm
  refine ⟨?_, h2, ?_⟩
  · intro m hm
    rw [hof m (by rw [B.queued]; exact List.mem_append_left _ hm)]
    exact h1 m hm
  · have e1 : (s.take n k).fifo.head.flatMap (fun m => left ((s.take n k).nodes m))
        = s.fifo.head.flatMap (fun m => left (s.nodes m)) :=
      List.flatMap_congr fun m hm => by rw [hof m (B.in_queue hm)]
    have e2 : (s.take n k).queued.flatMap (queuedBytes (s.take n k))
        = s.queued.flatMap (queuedBytes s) :=
      List.flatMap_congr fun q _ => by unfold queuedBytes; rw [take_packet]
    rw [e1, e2]
    exact h3

/-- bytes that the pool sends are the front of what the queue holds -/
theorem Drains.takeFront (B : Books L s) (D : Drains s) {n k : Nat} (hw : s.worker = .send n)
    (hk : (s.nodes n).offset + k ≤ (s.nodes n).wcb) (w : Xpc) :
    Drains { s.take n k with drained := s.drained ++ piece (s.nodes n) k, worker := w } := by
  obtain ⟨h1, h2, h3⟩ := D
  obtain ⟨rest, hh⟩ := head_of_head? (B.worker n hw)
  have hmem : n ∈ s.fifo.head := by rw [hh]; exact List.mem_cons_self ..
  have hO := B.nodes n (B.known n (B.in_queue hmem))
  have hof : ∀ m, m ≠ n → (s.take n k).nodes m = s.nodes m := fun m hm => Function.update_of_ne hm ..
  refine ⟨?_, h2, ?_⟩
  · intro m hm
    show ((s.take n k).nodes m).offset = ((s.take n k).nodes m).wcb
    have hne : m ≠ n := by
      rintro rfl
      have h4 := B.nodup
      rw [B.queued] at h4
      exact (List.nodup_append.mp h4).2.2 m hm m hmem rfl
    rw [hof m hne]
    exact h1 m hm
  · show (s.drained ++ piece (s.nodes n) k) ++ s.fifo.head.flatMap (fun m => left ((s.take n k).nodes m))
      = s.queued.flatMap (queuedBytes (s.take n k))
    have e2 : s.queued.flatMap (queuedBytes (s.take n k)) = s.queued.flatMap (queuedBytes s) :=
      List.flatMap_congr fun q _ => by unfold queuedBytes; rw [take_packet]
    have e1 : rest.flatMap (fun m => left ((s.take n k).nodes m))
        = rest.flatMap (fun m => left (s.nodes m)) :=
      List.flatMap_congr fun m hm => by rw [hof m (B.front_ne hh hm)]
    have e3 : (s.take n k).nodes n = (s.nodes n).advance k := Function.update_self ..
    rw [hh, List.flatMap_cons, left_advance hO hk] at h3
    rw [e2, ← h3, hh, List.flatMap_cons, e1, e3, List.append_assoc, List.append_assoc]

theorem Drains.popFront (B : Books L s) (D : Drains s) (hs : L.Spent s) {n : Nat} {rest : List Nat}
    {fifo' : Fifo} (hh : s.fifo.head = n :: rest) (hr : fifo'.head = rest) (sock : Sock) (w : Xpc)
    (tasks : Nat) :
    Drains { s with fifo := fifo', sock := sock, popped := s.popped ++ [n], worker := w,
                    tasks := tasks } := by
  obtain ⟨h1, h2, h3⟩ := D
  obtain ⟨m, rest', hh', he⟩ := B.spent hs
  rw [hh] at hh'
  cases hh'
  have hO := B.nodes n (B.known n (B.in_queue (by rw [hh]; exact List.mem_cons_self ..)))
  refine ⟨?_, ?_, ?_⟩
  · intro m hm
    rcases List.mem_append.mp hm with hm | hm
    · exact h1 m hm
    · rw [List.mem_singleton.mp hm]
      exact he
  · show s.queued.map Prod.fst = (s.popped ++ [n]) ++ fifo'.head
    rw [h2, hh, hr, List.append_assoc]
    rfl
  · show s.drained ++ fifo'.head.flatMap (fun n => left (s.nodes n)) = s.queued.flatMap (queuedBytes s)
    rw [hh, List.flatMap_cons, left_nil hO he, List.nil_append] at h3
    rw [hr, h3]

/-- a step that meets the condition -/
theorem move_drains (B : Books L s) (D : Drains s) (hC : Lone L s a) (h : Move L s a s') :
    Drains s' := by
  cases h with
  | @call i q behind node hw hf hl =>
    obtain ⟨h1, h2, h3⟩ := D
    have hof : ∀ m, m ∈ s.queued.map Prod.fst →
        Function.update s.nodes s.count { node with data := node.data ++ behind } m = s.nodes m :=
      fun m hm => Function.update_of_ne (Nat.ne_of_lt (B.known m hm)) ..
    refine ⟨?_, h2, ?_⟩
    · intro m hm
      show (Function.update s.nodes s.count _ m).offset = (Function.update s.nodes s.count _ m).wcb
      rw [hof m (by rw [B.queued]; exact List.mem_append_left _ hm)]
      exact h1 m hm
    · show s.drained ++ s.fifo.head.flatMap (fun m => left (Function.update s.nodes s.count _ m))
        = s.queued.flatMap (fun q => (packet (Function.update s.nodes s.count _ q.1)).drop q.2.toNat)
      have e1 : s.fifo.head.flatMap (fun m => left (Function.update s.nodes s.count
            { node with data := node.data ++ behind } m))
          = s.fifo.head.flatMap (fun m => left (s.nodes m)) :=
        List.flatMap_congr fun m hm => by rw [hof m (B.in_queue hm)]
      have e2 : s.queued.flatMap (fun q => (packet (Function.update s.nodes s.count
            { node with data := node.data ++ behind } q.1)).drop q.2.toNat)
          = s.queued.flatMap (queuedBytes s) :=
        List.flatMap_congr fun q hq => by rw [hof q.1 (List.mem_map_of_mem hq)]; rfl
      rw [e1, e2]
      exact h3
  | sendSome hw h0 hk => exact D.takeHeld B (by rw [hw]; rfl)
  | sendAll hw h0 hk => exact D.takeHeld B (by rw [hw]; rfl)
  | @queueYes i n e fifo' sock' hw ho hh hs =>
    obtain ⟨h1, h2, h3⟩ := D
    refine ⟨h1, ?_, ?_⟩
    · show (s.queued ++ [(n, (s.nodes n).offset)]).map Prod.fst = s.popped ++ fifo'.head
      rw [List.map_append, h2, hh, List.append_assoc]
      rfl
    · show s.drained ++ fifo'.head.flatMap (fun n => left (s.nodes n))
        = (s.queued ++ [(n, (s.nodes n).offset)]).flatMap (queuedBytes s)
      rw [hh, List.flatMap_append, List.flatMap_append, ← List.append_assoc, h3]
      rfl
  | wsendSome hw h0 hk => exact D.takeFront B hw (by omega) _
  | wsendAll hw h0 hk => exact D.takeFront B hw (by omega) _
  | txPop hw hh ho hr hs => exact D.popFront B (Or.inl hw) hh hr _ _ _
  | @pop e n rest fifo' sock' hw hh ho hr hs =>
    have hp : L.proto.txPops = false := by
      cases ht : L.proto.txPops with
      | false => rfl
      | true =>
        have h4 := hC e rfl ht
        rw [hh] at h4
        cases h4
    exact D.popFront B (Or.inr ⟨hw, hp⟩) hh hr _ _ _
  | _ => exact D

/-- a step that does not meet it throws the next node away -/
theorem move_loses (B : Books L s) (hC : ¬ Lone L s a) (h : Move L s a s') : ¬ Drains s' := by
  unfold Lone at hC
  push Not at hC
  obtain ⟨e, rfl, ht, hne⟩ := hC
  cases h with
  | same ha => rcases ha with ⟨_, _, _, h⟩ | ⟨_, h⟩ | h <;> cases h
  | popNone hw hh => exact absurd hh hne
  | @pop _ n rest fifo' sock' hw hh ho hr hs =>
    intro D
    have h1 := D.1 n (List.mem_append_right _ (List.mem_singleton_self n))
    have h2 : ¬ L.Spent s := by
      rintro (h2 | ⟨_, h2⟩)
      · rw [hw] at h2
        cases h2
      · rw [ht] at h2
        cases h2
    have h3 := B.front h2 n (by rw [hh]; rfl)
    change (s.nodes n).offset = (s.nodes n).wcb at h1
    omega

theorem drains_init (sock : Sock) : Drains (Tx.init sock) :=
  ⟨fun _ hn => absurd hn List.not_mem_nil, rfl, rfl⟩

/-- **When no queued packet is discarded unsent.**  Whatever threads queue, whatever the kernel
answers and however many tasks the pool executes. -/
theorem drains_iff (L : Sender Req) (sock : Sock) (as : List (TxAct Req)) (s : Tx)
    (h : run (Tx.step L) (Tx.init sock) as = some s) :
    Meets (Tx.step L) (Lone L) (Tx.init sock) as ↔
      ∀ bs, bs <+: as → ∀ t, run (Tx.step L) (Tx.init sock) bs = some t → Drains t := by
  refine meets_iff (Tx.step L) (I := fun s => Books L s ∧ Drains s) (D := fun _ _ => True) ?_
    (fun s hI => hI.2) ?_ h (meets_all _ fun _ _ => trivial) ⟨books_init sock, drains_init sock⟩
  · intro s a s' hI _ hC hs
    have M := step_move hI.1 hs
    exact ⟨move_books hI.1 M, move_drains hI.1 hI.2 hC M⟩
  · intro s a s' hI hC hs
    exact move_loses hI.1 hC (step_move hI.1 hs)

end

/-- with `tcp_tx` there is nothing to meet -/
theorem tcp_drains {Req : Type} {L : Sender Req} (hp : L.proto = .tcp) {sock : Sock}
    {as : List (TxAct Req)} {s : Tx} (h : run (Tx.step L) (Tx.init sock) as = some s) : Drains s := by
  have hC : ∀ s a, Lone L s a := by
    intro s a e _ ht
    rw [hp] at ht
    cases ht
  refine run_moves (C := fun _ _ => True) ?_ (drains_init sock) (meets_all _ fun _ _ => trivial) h
  intro s a s' B D _ M
  exact move_drains B D (hC s a) M

/-- a datagram of one byte -/
def oneByte (b : UInt8) : WriteReq := ⟨0, none, [b], 1, none⟩

/-- two datagrams go to the queue because the send buffer is full; then it gets room -/
def udpTwo : List (TxAct WriteReq) :=
  [.call 0 (oneByte 1) [], .test 0, .send 0 (.err EAGAIN), .queue 0 0,
    .call 0 (oneByte 2) [], .test 0, .queue 0 0,
    .room, .task, .exec, .top none, .wsend (.bytes 1), .txPop 0, .pop 0]

theorem udpTwo_drops : ∃ s, run (Tx.step (udpSender 1472 Heap.zeros)) (Tx.init Sock.established) udpTwo = some s ∧
    s.closed = false ∧ s.kernel = [1] ∧ ¬ Drains s := by
  have h : (run (Tx.step (udpSender 1472 Heap.zeros)) (Tx.init Sock.established) udpTwo).map
      (fun s => (s.closed, s.kernel, s.popped, (s.nodes 1).offset, (s.nodes 1).wcb))
      = some (false, [1], [0, 1], 0, 1) := by rfl
  obtain ⟨s, hs, he⟩ := Option.map_eq_some_iff.mp h
  injection he with h1 h2
  injection h2 with h2 h3
  injection h3 with h3 h4
  injection h4 with h4 h5
  refine ⟨s, hs, h1, h2, fun D => ?_⟩
  have h6 := D.1 1 (by rw [h3]; decide)
  rw [h4, h5] at h6
  cases h6

theorem drains_iff_udp :
    Meets (Tx.step (udpSender 1472 Heap.zeros)) (Lone (udpSender 1472 Heap.zeros)) (Tx.init Sock.established)
        (udpTwo.take 4 ++ udpTwo.drop 7) ↔
      ∀ bs, bs <+: udpTwo.take 4 ++ udpTwo.drop 7 → ∀ t,
        run (Tx.step (udpSender 1472 Heap.zeros)) (Tx.init Sock.established) bs = some t → Drains t :=
  drains_iff _ _ _ _ rfl

end Swnet

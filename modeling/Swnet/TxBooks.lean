import Swnet.TxSteps

/-!
# The books are kept

No step of sending loses a node or has it in two places.

* `Books.pool`, `Books.setWriter`, `Books.takeHeld`, `Books.takeFront`, `Books.popFront`, `Books.call`,
  `Books.enqueue`   the kinds of change that a step can make;
* `move_books`      a step, and `run_books` a run;
* `run_moves`       what the steps keep beside the books, the runs keep.
-/

namespace Swnet
open CMem Runs

section
variable {Req : Type} {L : Sender Req} {s s' : Tx} {a : TxAct Req}

theorem node_update {w : Nat → Wpc} {i j n : Nat} {pc : Wpc}
    (hp : pc.node = none ∨ pc.node = (w i).node) (h : (Function.update w i pc j).node = some n) :
    (w j).node = some n := by
  by_cases hj : j = i
  · subst hj
    rw [Function.update_self] at h
    rcases hp with hp | hp
    · rw [hp] at h
      cases h
    · rwa [hp] at h
  · rwa [Function.update_of_ne hj] at h

theorem Books.in_queue (B : Books L s) {n : Nat} (h : n ∈ s.fifo.head) : n ∈ s.queued.map Prod.fst := by
  rw [B.queued]
  exact List.mem_append_right _ h

theorem Books.node_ne (B : Books L s) {i n m : Nat} (hw : (s.writer i).node = some n)
    (h : m ∈ s.fifo.head) : m ≠ n := by
  rintro rfl
  exact (B.held i m hw).2 (B.in_queue h)

/-- the front of the queue is nowhere else in it -/
theorem Books.front_ne (B : Books L s) {n m : Nat} {rest : List Nat} (hh : s.fifo.head = n :: rest)
    (h : m ∈ rest) : m ≠ n := by
  have h1 := B.nodup
  rw [B.queued, hh] at h1
  have h2 := (List.nodup_cons.mp (List.nodup_append.mp h1).2.1).1
  rintro rfl
  exact h2 h

theorem take_packet (n k m : Nat) : packet ((s.take n k).nodes m) = packet (s.nodes m) := by
  by_cases h : m = n
  · subst h
    show packet (Function.update s.nodes m ((s.nodes m).advance k) m) = _
    rw [Function.update_self, packet_advance]
  · show packet (Function.update s.nodes n ((s.nodes n).advance k) m) = _
    rw [Function.update_of_ne h]

/-- the books say nothing about the socket, the tasks and whether the link is closed -/
theorem Books.outside (B : Books L s) (sock : Sock) (tasks : Nat) (closed : Bool) :
    Books L { s with sock := sock, tasks := tasks, closed := closed } :=
  ⟨B.fifo, B.nodes, B.held, B.apart, B.fresh, B.begun, B.queued, B.known, B.nodup, B.tail, B.spent,
    B.front, B.worker, B.pops, B.made⟩

/-- a step of the pool that touches neither a node nor the queue -/
theorem Books.pool (B : Books L s) {w : Xpc} (hs : ¬ L.Spent s) (hw : w = .idle ∨ w = .top ∨
    ∃ n, w = .send n ∧ s.fifo.head.head? = some n) (sock : Sock) (tasks : Nat) (closed : Bool) :
    Books L { s with worker := w, sock := sock, tasks := tasks, closed := closed } where
  fifo := B.fifo
  nodes := B.nodes
  held := B.held
  apart := B.apart
  fresh := B.fresh
  begun := B.begun
  queued := B.queued
  known := B.known
  nodup := B.nodup
  tail := B.tail
  spent := by
    rintro (h | ⟨h, _⟩) <;> rcases hw with rfl | rfl | ⟨n, rfl, _⟩ <;> cases h
  front := fun _ => B.front hs
  worker := by
    intro n h
    rcases hw with rfl | rfl | ⟨m, rfl, hm⟩
    · cases h
    · cases h
    · cases h
      exact hm
  pops := by
    intro h
    rcases hw with rfl | rfl | ⟨n, rfl, _⟩ <;> cases h
  made := B.made

/-- a step of a thread from one place to the next, with the same node in hand or with none -/
theorem Books.setWriter (B : Books L s) {i : Nat} {pc : Wpc}
    (hp : pc.node = none ∨ pc.node = (s.writer i).node)
    (hpc : pc = .idle ∨ ∃ n, (pc = .send n ∨ pc = .queue n) ∧ (s.nodes n).offset < (s.nodes n).wcb)
    (sock : Sock) (rets : List (Nat × Int)) :
    Books L { s.setWriter i pc with sock := sock, rets := rets } where
  fifo := B.fifo
  nodes := B.nodes
  held j n h := B.held j n (node_update hp h)
  apart j k n h h' := B.apart j k n (node_update hp h) (node_update hp h')
  fresh := by
    intro j n h
    by_cases hj : j = i
    · subst hj
      change Function.update s.writer j pc j = .test n at h
      rw [Function.update_self] at h
      rcases hpc with rfl | ⟨m, rfl | rfl, _⟩ <;> cases h
    · change Function.update s.writer i pc j = .test n at h
      rw [Function.update_of_ne hj] at h
      exact B.fresh j n h
  begun := by
    intro j n h
    by_cases hj : j = i
    · subst hj
      change Function.update s.writer j pc j = .send n ∨ Function.update s.writer j pc j = .queue n at h
      rw [Function.update_self] at h
      rcases hpc with rfl | ⟨m, rfl | rfl, hm⟩ <;> rcases h with h | h <;> cases h <;> exact hm
    · change Function.update s.writer i pc j = .send n ∨ Function.update s.writer i pc j = .queue n at h
      rw [Function.update_of_ne hj] at h
      exact B.begun j n h
  queued := B.queued
  known := B.known
  nodup := B.nodup
  tail := B.tail
  spent := B.spent
  front := B.front
  worker := B.worker
  pops := B.pops
  made := B.made

/-- the kernel takes bytes from a node that a thread sends itself -/
theorem Books.takeHeld (B : Books L s) {i n k : Nat} (hw : s.writer i = .send n)
    (hk : (s.nodes n).offset + k ≤ (s.nodes n).wcb) {pc : Wpc}
    (hpc : pc = .idle ∨ pc = .send n ∧ (s.nodes n).offset + k < (s.nodes n).wcb)
    (rets : List (Nat × Int)) : Books L { (s.take n k).setWriter i pc with rets := rets } := by
  have hn : (s.writer i).node = some n := by rw [hw]; rfl
  have hp : pc.node = none ∨ pc.node = (s.writer i).node := by
    rcases hpc with rfl | ⟨rfl, _⟩
    · exact Or.inl rfl
    · exact Or.inr hn.symm
  have hself : (s.take n k).nodes n = (s.nodes n).advance k := Function.update_self ..
  have hof : ∀ m, m ≠ n → (s.take n k).nodes m = s.nodes m := fun m hm => Function.update_of_ne hm ..
  have hne : ∀ m, m ∈ s.fifo.head → (s.take n k).nodes m = s.nodes m :=
    fun m hm => hof m (B.node_ne hn hm)
  -- nobody else has the node
  have hother : ∀ j m, j ≠ i → (s.writer j).node = some m → m ≠ n := by
    rintro j m hj hm rfl
    exact hj (B.apart j i m hm hn)
  refine ⟨B.fifo, ?_, fun j m h => B.held j m (node_update hp h),
    fun j l m h h' => B.apart j l m (node_update hp h) (node_update hp h'), ?_, ?_, B.queued, B.known,
    B.nodup, ?_, ?_, ?_, B.worker, B.pops, fun m hm => ?_⟩
  · intro m hm
    show ((s.take n k).nodes m).Ok
    by_cases hmn : m = n
    · subst hmn
      rw [hself]
      exact (B.nodes m hm).advance hk
    · rw [hof m hmn]
      exact B.nodes m hm
  · intro j m hj
    change Function.update s.writer i pc j = .test m at hj
    show ((s.take n k).nodes m).offset = 0
    by_cases hji : j = i
    · subst hji
      rw [Function.update_self] at hj
      rcases hpc with rfl | ⟨rfl, _⟩ <;> cases hj
    · rw [Function.update_of_ne hji] at hj
      rw [hof m (hother j m hji (by rw [hj]; rfl))]
      exact B.fresh j m hj
  · intro j m hj
    change Function.update s.writer i pc j = .send m ∨ Function.update s.writer i pc j = .queue m at hj
    show ((s.take n k).nodes m).offset < ((s.take n k).nodes m).wcb
    by_cases hji : j = i
    · subst hji
      rw [Function.update_self] at hj
      rcases hpc with rfl | ⟨rfl, hlt⟩ <;> rcases hj with hj | hj <;> cases hj
      rw [hself]
      exact hlt
    · rw [Function.update_of_ne hji] at hj
      rw [hof m (hother j m hji (by rcases hj with hj | hj <;> rw [hj] <;> rfl))]
      exact B.begun j m hj
  · intro m hm
    show ((s.take n k).nodes m).offset < ((s.take n k).nodes m).wcb
    rw [hne m (List.mem_of_mem_tail hm)]
    exact B.tail m hm
  · intro hs
    obtain ⟨m, rest, hh, he⟩ := B.spent hs
    refine ⟨m, rest, hh, ?_⟩
    show ((s.take n k).nodes m).offset = ((s.take n k).nodes m).wcb
    rw [hne m (by rw [hh]; exact List.mem_cons_self ..)]
    exact he
  · intro hs m hm
    show ((s.take n k).nodes m).offset < ((s.take n k).nodes m).wcb
    rw [hne m (List.mem_of_head? hm)]
    exact B.front hs m hm
  · show ∃ q node behind, _ ∧ packet ((s.take n k).nodes m) = _
    rw [take_packet]
    exact B.made m hm

/-- the kernel takes bytes from the front of the queue -/
theorem Books.takeFront (B : Books L s) {n k : Nat} (hw : s.worker = .send n)
    (hk : (s.nodes n).offset + k ≤ (s.nodes n).wcb) {w : Xpc}
    (hpc : (w = .send n ∧ (s.nodes n).offset + k < (s.nodes n).wcb) ∨
      ((s.nodes n).offset + k = (s.nodes n).wcb ∧ w = if L.proto.txPops then .txPop else .pop))
    (drained : Bytes) : Books L { s.take n k with drained := drained, worker := w } := by
  obtain ⟨rest, hh⟩ := head_of_head? (B.worker n hw)
  have hmem : n ∈ s.fifo.head := by rw [hh]; exact List.mem_cons_self ..
  have hself : (s.take n k).nodes n = (s.nodes n).advance k := Function.update_self ..
  have hof : ∀ m, m ≠ n → (s.take n k).nodes m = s.nodes m := fun m hm => Function.update_of_ne hm ..
  have hother : ∀ j m, (s.writer j).node = some m → m ≠ n := fun j m hm hmn =>
    B.node_ne hm hmem hmn.symm
  refine ⟨B.fifo, ?_, B.held, B.apart, ?_, ?_, B.queued, B.known, B.nodup, ?_, ?_, ?_, ?_, ?_,
    fun m hm => ?_⟩
  · intro m hm
    show ((s.take n k).nodes m).Ok
    by_cases hmn : m = n
    · subst hmn
      rw [hself]
      exact (B.nodes m hm).advance hk
    · rw [hof m hmn]
      exact B.nodes m hm
  · intro j m hj
    show ((s.take n k).nodes m).offset = 0
    rw [hof m (hother j m (by rw [show s.writer j = .test m from hj]; rfl))]
    exact B.fresh j m hj
  · intro j m hj
    change s.writer j = .send m ∨ s.writer j = .queue m at hj
    show ((s.take n k).nodes m).offset < ((s.take n k).nodes m).wcb
    rw [hof m (hother j m (by rcases hj with hj | hj <;> rw [hj] <;> rfl))]
    exact B.begun j m hj
  · intro m hm
    show ((s.take n k).nodes m).offset < ((s.take n k).nodes m).wcb
    have hm' : m ∈ rest := by
      change m ∈ s.fifo.head.tail at hm
      rwa [hh] at hm
    rw [hof m (B.front_ne hh hm')]
    exact B.tail m hm
  · intro hs
    refine ⟨n, rest, hh, ?_⟩
    show ((s.take n k).nodes n).offset = ((s.take n k).nodes n).wcb
    rcases hpc with ⟨rfl, _⟩ | ⟨he, _⟩
    · rcases hs with hs | ⟨hs, _⟩ <;> cases hs
    · rw [hself]
      exact he
  · intro hs m hm
    change s.fifo.head.head? = some m at hm
    rw [hh] at hm
    cases hm
    show ((s.take n k).nodes n).offset < ((s.take n k).nodes n).wcb
    rw [hself]
    rcases hpc with ⟨_, hlt⟩ | ⟨_, rfl⟩
    · exact hlt
    · refine absurd ?_ hs
      cases ht : L.proto.txPops with
      | true => exact Or.inl (by rw [if_pos rfl])
      | false => exact Or.inr ⟨by rw [if_neg (by decide)], ht⟩
  · intro m hm
    rcases hpc with ⟨rfl, _⟩ | ⟨_, rfl⟩
    · cases hm
      exact B.worker n hw
    · cases ht : L.proto.txPops with
      | true => rw [ht] at hm; cases hm
      | false => rw [ht] at hm; cases hm
  · intro hm
    rcases hpc with ⟨rfl, _⟩ | ⟨_, rfl⟩
    · cases hm
    · cases ht : L.proto.txPops with
      | true => rfl
      | false => rw [ht] at hm; cases hm
  · show ∃ q node behind, _ ∧ packet ((s.take n k).nodes m) = _
    rw [take_packet]
    exact B.made m hm

/-- the front of the queue is taken out -/
theorem Books.popFront (B : Books L s) {n : Nat} {rest : List Nat} {fifo' : Fifo}
    (hh : s.fifo.head = n :: rest) (ho : fifo'.Ok) (hr : fifo'.head = rest) {w : Xpc}
    (hw : w = .idle ∨ w = .pop ∧ L.proto.txPops = true) (sock : Sock) (tasks : Nat) :
    Books L { s with fifo := fifo', sock := sock, popped := s.popped ++ [n], worker := w,
                     tasks := tasks } where
  fifo := ho
  nodes := B.nodes
  held := B.held
  apart := B.apart
  fresh := B.fresh
  begun := B.begun
  queued := by
    show s.queued.map Prod.fst = (s.popped ++ [n]) ++ fifo'.head
    rw [B.queued, hh, hr, List.append_assoc]
    rfl
  known := B.known
  nodup := B.nodup
  tail := by
    intro m hm
    change m ∈ fifo'.head.tail at hm
    rw [hr] at hm
    refine B.tail m ?_
    rw [hh]
    exact List.mem_of_mem_tail hm
  spent := by
    rintro (h | ⟨h, h'⟩)
    · rcases hw with rfl | ⟨rfl, _⟩ <;> cases h
    · rcases hw with rfl | ⟨rfl, ht⟩
      · cases h
      · rw [ht] at h'
        cases h'
  front := by
    intro _ m hm
    change fifo'.head.head? = some m at hm
    rw [hr] at hm
    refine B.tail m ?_
    rw [hh]
    exact List.mem_of_head? hm
  worker := by
    intro m hm
    rcases hw with rfl | ⟨rfl, _⟩ <;> cases hm
  pops := by
    intro h
    rcases hw with rfl | ⟨rfl, _⟩ <;> cases h
  made := B.made

/-- a new node is made -/
theorem Books.call (B : Books L s) {i : Nat} {node : TxNode} (hw : s.writer i = .idle)
    (h0 : node.offset = 0) (hpos : 0 < node.wcb) (hl : node.wcb ≤ node.data.length)
    (hmade : ∃ q nd behind, L.front q = .ok (.ok nd) ∧
      packet node = (nd.data ++ behind).take nd.wcb.toNat) :
    Books L { s.setWriter i (.test s.count) with
      nodes := Function.update s.nodes s.count node, count := s.count + 1 } := by
  have hself : Function.update s.nodes s.count node s.count = node := Function.update_self ..
  have hof : ∀ m, m < s.count → Function.update s.nodes s.count node m = s.nodes m :=
    fun m hm => Function.update_of_ne (Nat.ne_of_lt hm) ..
  have hq : ∀ m, m ∈ s.fifo.head → m < s.count := fun m hm => B.known m (B.in_queue hm)
  have hwr : ∀ j m, (Function.update s.writer i (.test s.count) j).node = some m →
      (j = i ∧ m = s.count) ∨ (j ≠ i ∧ (s.writer j).node = some m) := by
    intro j m hj
    by_cases hji : j = i
    · subst hji
      rw [Function.update_self] at hj
      cases hj
      exact Or.inl ⟨rfl, rfl⟩
    · rw [Function.update_of_ne hji] at hj
      exact Or.inr ⟨hji, hj⟩
  refine ⟨B.fifo, ?_, ?_, ?_, ?_, ?_, B.queued, fun m hm => Nat.lt_succ_of_lt (B.known m hm), B.nodup,
    ?_, ?_, ?_, B.worker, B.pops, ?_⟩
  · intro m hm
    show (Function.update s.nodes s.count node m).Ok
    by_cases hmc : m = s.count
    · subst hmc
      rw [hself]
      exact ⟨hpos, by omega, by omega, hl⟩
    · have hlt : m < s.count := by
        change m < s.count + 1 at hm
        omega
      rw [hof m hlt]
      exact B.nodes m hlt
  · intro j m hj
    rcases hwr j m hj with ⟨_, rfl⟩ | ⟨_, hj'⟩
    · exact ⟨Nat.lt_succ_self _, fun hm => absurd (B.known _ hm) (Nat.lt_irrefl _)⟩
    · obtain ⟨h1, h2⟩ := B.held j m hj'
      exact ⟨Nat.lt_succ_of_lt h1, h2⟩
  · intro j l m hj hl
    rcases hwr j m hj with ⟨rfl, he⟩ | ⟨_, hj'⟩ <;> rcases hwr l m hl with ⟨rfl, he'⟩ | ⟨_, hl'⟩
    · rfl
    · subst he
      exact absurd (B.held l _ hl').1 (Nat.lt_irrefl _)
    · subst he'
      exact absurd (B.held j _ hj').1 (Nat.lt_irrefl _)
    · exact B.apart j l m hj' hl'
  · intro j m hj
    show (Function.update s.nodes s.count node m).offset = 0
    rcases hwr j m (by rw [show Function.update s.writer i (.test s.count) j = .test m from hj]; rfl)
      with ⟨_, rfl⟩ | ⟨hji, hj'⟩
    · rw [hself]
      exact h0
    · rw [hof m (B.held j m hj').1]
      refine B.fresh j m ?_
      rw [← Function.update_of_ne hji (Wpc.test s.count) s.writer]
      exact hj
  · intro j m hj
    change Function.update s.writer i _ j = .send m ∨ Function.update s.writer i _ j = .queue m at hj
    show (Function.update s.nodes s.count node m).offset < (Function.update s.nodes s.count node m).wcb
    by_cases hji : j = i
    · subst hji
      rw [Function.update_self] at hj
      rcases hj with hj | hj <;> cases hj
    · rw [Function.update_of_ne hji] at hj
      rw [hof m (B.held j m (by rcases hj with hj | hj <;> rw [hj] <;> rfl)).1]
      exact B.begun j m hj
  · intro m hm
    show (Function.update s.nodes s.count node m).offset < (Function.update s.nodes s.count node m).wcb
    rw [hof m (hq m (List.mem_of_mem_tail hm))]
    exact B.tail m hm
  · intro hs
    obtain ⟨m, rest, hh, he⟩ := B.spent hs
    refine ⟨m, rest, hh, ?_⟩
    show (Function.update s.nodes s.count node m).offset = (Function.update s.nodes s.count node m).wcb
    rw [hof m (hq m (by rw [hh]; exact List.mem_cons_self ..))]
    exact he
  · intro hs m hm
    show (Function.update s.nodes s.count node m).offset < (Function.update s.nodes s.count node m).wcb
    rw [hof m (hq m (List.mem_of_head? hm))]
    exact B.front hs m hm
  · intro m hm
    show ∃ q nd behind, _ ∧ packet (Function.update s.nodes s.count node m) = _
    by_cases hmc : m = s.count
    · subst hmc
      rw [hself]
      exact hmade
    · have hlt : m < s.count := by
        change m < s.count + 1 at hm
        omega
      rw [hof m hlt]
      exact B.made m hlt

/-- a thread hands its node to the queue -/
theorem Books.enqueue (B : Books L s) {i n : Nat} {fifo' : Fifo} (hw : s.writer i = .queue n)
    (ho : fifo'.Ok) (hh : fifo'.head = s.fifo.head ++ [n]) (sock : Sock) :
    Books L ({ s with fifo := fifo', sock := sock,
                      queued := s.queued ++ [(n, (s.nodes n).offset)] }.ret i n 0) := by
  have hn : (s.writer i).node = some n := by rw [hw]; rfl
  obtain ⟨hlt, hnq⟩ := B.held i n hn
  have hpart := B.begun i n (Or.inr hw)
  have hmap : (s.queued ++ [(n, (s.nodes n).offset)]).map Prod.fst = s.queued.map Prod.fst ++ [n] := by
    rw [List.map_append]
    rfl
  -- the thread has nothing in hand afterwards, the others what they had
  have hwr : ∀ j m, (Function.update s.writer i .idle j).node = some m →
      j ≠ i ∧ (s.writer j).node = some m := by
    intro j m hj
    by_cases hji : j = i
    · subst hji
      rw [Function.update_self] at hj
      cases hj
    · rw [Function.update_of_ne hji] at hj
      exact ⟨hji, hj⟩
  refine ⟨ho, B.nodes, ?_, ?_, ?_, ?_, ?_, ?_, ?_, ?_, ?_, ?_, ?_, B.pops, B.made⟩
  · intro j m hj
    obtain ⟨hji, hj'⟩ := hwr j m hj
    obtain ⟨h1, h2⟩ := B.held j m hj'
    refine ⟨h1, ?_⟩
    show m ∉ (s.queued ++ [(n, (s.nodes n).offset)]).map Prod.fst
    rw [hmap, List.mem_append, List.mem_singleton]
    rintro (h | rfl)
    · exact h2 h
    · exact hji (B.apart j i m hj' hn)
  · exact fun j l m hj hl => B.apart j l m (hwr j m hj).2 (hwr l m hl).2
  · intro j m hj
    change Function.update s.writer i .idle j = .test m at hj
    obtain ⟨hji, _⟩ := hwr j m (by rw [hj]; rfl)
    rw [Function.update_of_ne hji] at hj
    exact B.fresh j m hj
  · intro j m hj
    change Function.update s.writer i .idle j = .send m ∨
      Function.update s.writer i .idle j = .queue m at hj
    obtain ⟨hji, _⟩ := hwr j m (by rcases hj with hj | hj <;> rw [hj] <;> rfl)
    rw [Function.update_of_ne hji] at hj
    exact B.begun j m hj
  · show (s.queued ++ [(n, (s.nodes n).offset)]).map Prod.fst = s.popped ++ fifo'.head
    rw [hmap, hh, B.queued, List.append_assoc]
  · intro m hm
    change m ∈ (s.queued ++ [(n, (s.nodes n).offset)]).map Prod.fst at hm
    rw [hmap, List.mem_append, List.mem_singleton] at hm
    rcases hm with hm | rfl
    · exact B.known m hm
    · exact hlt
  · show ((s.queued ++ [(n, (s.nodes n).offset)]).map Prod.fst).Nodup
    rw [hmap]
    exact List.nodup_append.mpr ⟨B.nodup, List.nodup_singleton n, fun x hx y hy hxy => by
      rw [List.mem_singleton] at hy
      subst hy
      subst hxy
      exact hnq hx⟩
  · intro m hm
    change m ∈ fifo'.head.tail at hm
    show (s.nodes m).offset < (s.nodes m).wcb
    rw [hh] at hm
    cases hl : s.fifo.head with
    | nil => rw [hl] at hm; cases hm
    | cons f rest =>
      rw [hl] at hm
      rcases List.mem_append.mp hm with hm | hm
      · exact B.tail m (by rw [hl]; exact hm)
      · rw [List.mem_singleton.mp hm]
        exact hpart
  · intro hs
    obtain ⟨m, rest, hl, he⟩ := B.spent hs
    refine ⟨m, rest ++ [n], ?_, he⟩
    show fifo'.head = _
    rw [hh, hl]
    rfl
  · intro hs m hm
    change fifo'.head.head? = some m at hm
    show (s.nodes m).offset < (s.nodes m).wcb
    rw [hh] at hm
    cases hl : s.fifo.head with
    | nil =>
      rw [hl] at hm
      cases hm
      exact hpart
    | cons f rest =>
      rw [hl] at hm
      refine B.front hs m ?_
      rw [hl]
      exact hm
  · intro m hm
    obtain ⟨rest, hl⟩ := head_of_head? (B.worker m hm)
    show fifo'.head.head? = some m
    rw [hh, hl]
    rfl

theorem not_spent {w : Xpc} (hw : s.worker = w) (h : w = .idle ∨ w = .top ∨ ∃ n, w = .send n) :
    ¬ L.Spent s := by
  subst hw
  rintro (h' | ⟨h', _⟩) <;> rw [h'] at h <;> rcases h with h | h | ⟨n, h⟩ <;> cases h

theorem fresh_part (B : Books L s) {i n : Nat} (hw : s.writer i = .test n) :
    (s.nodes n).offset < (s.nodes n).wcb := by
  have h1 := B.fresh i n hw
  have h2 := (B.nodes n (B.held i n (by rw [hw]; rfl)).1).pos
  omega

/-- **The books are kept.** -/
theorem move_books (B : Books L s) (h : Move L s a s') : Books L s' := by
  cases h with
  | same => exact B
  | call hw hf hl =>
    obtain ⟨h0, hpos⟩ := L.fresh _ _ hf
    exact B.call hw h0 hpos hl ⟨_, _, _, hf, rfl⟩
  | @testSend i n hw hh =>
    exact B.setWriter (Or.inr (by rw [hw]; rfl)) (Or.inr ⟨n, Or.inl rfl, fresh_part B hw⟩) _ _
  | @testQueue i n hw hh =>
    exact B.setWriter (Or.inr (by rw [hw]; rfl)) (Or.inr ⟨n, Or.inr rfl, fresh_part B hw⟩) _ _
  | @sendSome i n k hw h0 hk =>
    have h1 := B.takeHeld hw (by omega) (Or.inr ⟨rfl, hk⟩) s.rets
    have e : (s.take n k).setWriter i (.send n) = s.take n k := by
      unfold Tx.setWriter
      rw [← show (s.take n k).writer i = .send n from hw, Function.update_eq_self]
    rw [e] at h1
    exact h1
  | @sendAll i n k hw h0 hk => exact B.takeHeld hw (by omega) (Or.inl rfl) _
  | @sendAgain i n hw =>
    exact B.setWriter (Or.inr (by rw [hw]; rfl))
      (Or.inr ⟨n, Or.inr rfl, B.begun i n (Or.inl hw)⟩) _ _
  | sendFail hw hr => exact B.setWriter (Or.inl rfl) (Or.inl rfl) _ _
  | queueNo hw hr hh => exact B.setWriter (Or.inl rfl) (Or.inl rfl) _ _
  | queueYes hw ho hh hs => exact B.enqueue hw ho hh _
  | task => exact ⟨B.fifo, B.nodes, B.held, B.apart, B.fresh, B.begun, B.queued, B.known, B.nodup,
      B.tail, B.spent, B.front, B.worker, B.pops, B.made⟩
  | exec hw ht =>
    refine B.pool (not_spent hw (Or.inl rfl)) ?_ _ _ _
    cases s.closed with
    | true => exact Or.inl rfl
    | false => exact Or.inr (Or.inl rfl)
  | topFail hw =>
    exact B.pool (not_spent hw (Or.inr (Or.inl rfl))) (Or.inl rfl) _ _ _
  | topNone hw hh =>
    exact B.pool (not_spent hw (Or.inr (Or.inl rfl))) (Or.inl rfl) _ _ _
  | @topSend _ n hw hh =>
    exact B.pool (not_spent hw (Or.inr (Or.inl rfl)))
      (Or.inr (Or.inr ⟨n, rfl, hh⟩)) _ _ _
  | @wsendSome n k hw h0 hk =>
    have h1 := B.takeFront hw (by omega) (Or.inl ⟨rfl, hk⟩) (s.drained ++ piece (s.nodes n) k)
    rw [← hw] at h1
    exact h1
  | wsendAll hw h0 hk => exact B.takeFront hw (by omega) (Or.inr ⟨hk, rfl⟩) _
  | wsendAgain hw =>
    exact B.pool (not_spent hw (Or.inr (Or.inr ⟨_, rfl⟩))) (Or.inl rfl) _ _ _
  | wsendFail hw =>
    exact B.pool (not_spent hw (Or.inr (Or.inr ⟨_, rfl⟩))) (Or.inl rfl) _ _ _
  | txPop hw hh ho hr hs => exact B.popFront hh ho hr (Or.inr ⟨rfl, B.pops hw⟩) _ _
  | popNone hw hh =>
    have hs : ¬ L.Spent s := by
      intro hs
      obtain ⟨m, rest, hl, _⟩ := B.spent hs
      rw [hh] at hl
      cases hl
    exact B.pool hs (Or.inl rfl) _ _ _
  | pop hw hh ho hr hs => exact B.popFront hh ho hr (Or.inl rfl) _ _
  | room => exact ⟨B.fifo, B.nodes, B.held, B.apart, B.fresh, B.begun, B.queued, B.known, B.nodup,
      B.tail, B.spent, B.front, B.worker, B.pops, B.made⟩
  | close => exact ⟨B.fifo, B.nodes, B.held, B.apart, B.fresh, B.begun, B.queued, B.known, B.nodup,
      B.tail, B.spent, B.front, B.worker, B.pops, B.made⟩

theorem books_init (sock : Sock) : Books L (Tx.init sock) where
  fifo := fifo_init_ok
  nodes n h := absurd h (Nat.not_lt_zero n)
  held i n h := by cases h
  apart i j n h _ := by cases h
  fresh i n h := by cases h
  begun i n h := by rcases h with h | h <;> cases h
  queued := rfl
  known n h := absurd h (List.not_mem_nil)
  nodup := List.nodup_nil
  tail n h := absurd h (List.not_mem_nil)
  spent := by rintro (h | ⟨h, _⟩) <;> cases h
  front _ n h := by cases h
  worker n h := by cases h
  pops h := by cases h
  made n h := absurd h (Nat.not_lt_zero n)

theorem step_books (B : Books L s) (h : s.step L a = some s') : Books L s' :=
  move_books B (step_move B h)

theorem run_books {sock : Sock} {as : List (TxAct Req)}
    (h : run (Tx.step L) (Tx.init sock) as = some s) : Books L s :=
  run_invariant (Tx.step L) (fun _ _ _ B hs => step_books B hs) h (books_init sock)

/-- what every move keeps under a condition on its action, every run that meets the condition keeps -/
theorem run_moves {P : Tx → Prop} {C : Tx → TxAct Req → Prop}
    (hmove : ∀ s a s', Books L s → P s → C s a → Move L s a s' → P s') {sock : Sock}
    {as : List (TxAct Req)} (h0 : P (Tx.init sock)) (hC : Meets (Tx.step L) C (Tx.init sock) as)
    (h : run (Tx.step L) (Tx.init sock) as = some s) : P s := by
  refine (run_invariant_meets (Tx.step L) (I := fun s => Books L s ∧ P s) ?_ h hC
    ⟨books_init sock, h0⟩).2
  intro s a s' hI hCa hs
  have M := step_move hI.1 hs
  exact ⟨move_books hI.1 M, hmove s a s' hI.1 hI.2 hCa M⟩

end

end Swnet

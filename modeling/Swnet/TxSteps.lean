import Mathlib.Data.List.Nodup
import Swnet.Tx

/-!
# What a step of sending can do

The steps of `Tx.step` from a state in which the books are kept (`Books`), one constructor of `Move`
for each; no later module looks into `Tx.step` again.

* `Books`       every node is in one place: with one thread, in the queue, or taken out of it;
* `call_move` … `pop_move`   an action of a writer or of the pool is a `Move`;
* `step_move`   so is every step.
-/

namespace Swnet
open CMem

/-! ## one node -/

structure TxNode.Ok (node : TxNode) : Prop where
  pos : 0 < node.wcb
  nonneg : 0 ≤ node.offset
  le : node.offset ≤ node.wcb
  fits : node.wcb ≤ node.data.length

/-- the bytes of the packet that are sent -/
def gone (node : TxNode) : Bytes := (packet node).take node.offset.toNat

section
variable {node : TxNode} {k : Nat}

theorem packet_advance : packet (node.advance k) = packet node := rfl

theorem gone_left (node : TxNode) : gone node ++ left node = packet node := List.take_append_drop ..

theorem packet_length (h : node.Ok) : (packet node).length = node.wcb.toNat := by
  have h1 := h.pos
  have h2 := h.fits
  unfold packet
  rw [List.length_take]
  omega

theorem TxNode.Ok.advance (h : node.Ok) (hk : node.offset + k ≤ node.wcb) : (node.advance k).Ok :=
  ⟨h.pos, by have := h.nonneg; show 0 ≤ node.offset + k; omega, hk, h.fits⟩

theorem left_all (h : node.offset = 0) : left node = packet node := by
  unfold left
  rw [h]
  exact List.drop_zero

theorem gone_none (h : node.offset = 0) : gone node = [] := by
  unfold gone
  rw [h]
  exact List.take_zero

theorem left_nil (h : node.Ok) (he : node.offset = node.wcb) : left node = [] := by
  unfold left
  rw [he]
  exact List.drop_eq_nil_of_le (by rw [packet_length h])

theorem gone_all (h : node.Ok) (he : node.offset = node.wcb) : gone node = packet node := by
  have h1 := gone_left node
  rwa [left_nil h he, List.append_nil] at h1

theorem piece_packet (h : node.Ok) (hk : node.offset + k ≤ node.wcb) :
    piece node k = (left node).take k := by
  have h1 := h.nonneg
  unfold piece left packet
  rw [List.drop_take, List.take_take, Nat.min_eq_left (by omega)]

theorem offset_advance (h : node.Ok) :
    (node.advance k).offset.toNat = node.offset.toNat + k := by
  have h1 := h.nonneg
  show (node.offset + k).toNat = _
  omega

theorem left_advance (h : node.Ok) (hk : node.offset + k ≤ node.wcb) :
    left node = piece node k ++ left (node.advance k) := by
  have e : left (node.advance k) = (left node).drop k := by
    show (packet node).drop (node.advance k).offset.toNat = _
    rw [offset_advance h]
    unfold left
    rw [List.drop_drop]
  rw [piece_packet h hk, e, List.take_append_drop]

theorem gone_advance (h : node.Ok) (hk : node.offset + k ≤ node.wcb) :
    gone (node.advance k) = gone node ++ piece node k := by
  have h1 := gone_left (node.advance k)
  rw [packet_advance, ← gone_left node, left_advance h hk, ← List.append_assoc] at h1
  exact List.append_cancel_right h1

theorem txnHead_some (h : node.offset = node.wcb) : txnHead node = some node.wcb :=
  if_neg (by omega)

theorem txnHead_none (h : node.offset < node.wcb) : txnHead node = none := if_pos h

end

theorem txn_eq (p : Proto) : p.txn = txnRound := by cases p <;> rfl

/-! ## the books -/

/-- the node that a thread has in hand -/
def Wpc.node : Wpc → Option Nat
  | .idle => none
  | .test n => some n
  | .send n => some n
  | .queue n => some n

section
variable {Req : Type} (L : Sender Req)

/-- the front of the queue is sent and is going to be taken out -/
def Sender.Spent (s : Tx) : Prop :=
  s.worker = .txPop ∨ (s.worker = .pop ∧ L.proto.txPops = false)

structure Books (s : Tx) : Prop where
  fifo : s.fifo.Ok
  nodes : ∀ n, n < s.count → (s.nodes n).Ok
  held : ∀ i n, (s.writer i).node = some n → n < s.count ∧ n ∉ s.queued.map Prod.fst
  apart : ∀ i j n, (s.writer i).node = some n → (s.writer j).node = some n → i = j
  fresh : ∀ i n, s.writer i = .test n → (s.nodes n).offset = 0
  begun : ∀ i n, s.writer i = .send n ∨ s.writer i = .queue n → (s.nodes n).offset < (s.nodes n).wcb
  queued : s.queued.map Prod.fst = s.popped ++ s.fifo.head
  known : ∀ n, n ∈ s.queued.map Prod.fst → n < s.count
  nodup : (s.queued.map Prod.fst).Nodup
  tail : ∀ n, n ∈ s.fifo.head.tail → (s.nodes n).offset < (s.nodes n).wcb
  spent : L.Spent s → ∃ n rest, s.fifo.head = n :: rest ∧ (s.nodes n).offset = (s.nodes n).wcb
  front : ¬ L.Spent s → ∀ n, s.fifo.head.head? = some n → (s.nodes n).offset < (s.nodes n).wcb
  worker : ∀ n, s.worker = .send n → s.fifo.head.head? = some n
  pops : s.worker = .txPop → L.proto.txPops = true
  made : ∀ n, n < s.count → ∃ q node behind, L.front q = .ok (.ok node) ∧
    packet (s.nodes n) = (node.data ++ behind).take node.wcb.toNat

/-- what a step can do -/
inductive Move (s : Tx) : TxAct Req → Tx → Prop where
  | same {a : TxAct Req} (ha : (∃ i q behind, a = .call i q behind) ∨
      (∃ i, a = .send i (.err EINTR)) ∨ a = .wsend (.err EINTR)) : Move s a s
  | call {i : Nat} {q : Req} {behind : Bytes} {node : TxNode} (hw : s.writer i = .idle)
      (hf : L.front q = .ok (.ok node)) (hl : node.wcb ≤ (node.data ++ behind).length) :
      Move s (.call i q behind) { s.setWriter i (.test s.count) with
        nodes := Function.update s.nodes s.count { node with data := node.data ++ behind }
        count := s.count + 1 }
  | testSend {i n : Nat} (hw : s.writer i = .test n) (hh : s.fifo.head = []) :
      Move s (.test i) (s.setWriter i (.send n))
  | testQueue {i n : Nat} (hw : s.writer i = .test n) (hh : s.fifo.head ≠ []) :
      Move s (.test i) (s.setWriter i (.queue n))
  | sendSome {i n k : Nat} (hw : s.writer i = .send n) (h0 : 0 < k)
      (hk : (s.nodes n).offset + k < (s.nodes n).wcb) : Move s (.send i (.bytes k)) (s.take n k)
  | sendAll {i n k : Nat} (hw : s.writer i = .send n) (h0 : 0 < k)
      (hk : (s.nodes n).offset + k = (s.nodes n).wcb) :
      Move s (.send i (.bytes k)) ((s.take n k).ret i n (s.nodes n).wcb)
  | sendAgain {i n : Nat} (hw : s.writer i = .send n) :
      Move s (.send i (.err EAGAIN))
        ({ s with sock := { s.sock with full := true } }.setWriter i (.queue n))
  | sendFail {i n : Nat} {r : Sent} (hw : s.writer i = .send n)
      (hr : r = .bytes 0 ∨ ∃ e, r = .err e ∧ e ≠ EAGAIN ∧ e ≠ EINTR) :
      Move s (.send i r) (s.ret i n (-1))
  | queueNo {i n e : Nat} {r : Int} (hw : s.writer i = .queue n) (hr : r < 0)
      (hh : s.fifo.head ≠ [] ∨ s.fifo.head = [] ∧ e ≠ 0) : Move s (.queue i e) (s.ret i n r)
  | queueYes {i n e : Nat} {fifo' : Fifo} {sock' : Sock} (hw : s.writer i = .queue n) (ho : fifo'.Ok)
      (hh : fifo'.head = s.fifo.head ++ [n])
      (hs : s.fifo.head = [] ∧ e = 0 ∧ sock' = s.sock.arm ⟨true, true⟩ ∨
        s.fifo.head ≠ [] ∧ sock' = s.sock) :
      Move s (.queue i e)
        ({ s with fifo := fifo', sock := sock',
                  queued := s.queued ++ [(n, (s.nodes n).offset)] }.ret i n 0)
  | task : Move s .task { s with tasks := s.tasks + 1 }
  | exec (hw : s.worker = .idle) (ht : 0 < s.tasks) :
      Move s .exec { s with tasks := s.tasks - 1, worker := if s.closed then .idle else .top }
  | topFail {ktcp : Option Nat} (hw : s.worker = .top) :
      Move s (.top ktcp) { s with worker := .idle, closed := true }
  | topNone {ktcp : Option Nat} (hw : s.worker = .top) (hh : s.fifo.head = []) :
      Move s (.top ktcp) { s with worker := .idle }
  | topSend {ktcp : Option Nat} {n : Nat} (hw : s.worker = .top) (hh : s.fifo.head.head? = some n) :
      Move s (.top ktcp) { s with worker := .send n }
  | wsendSome {n k : Nat} (hw : s.worker = .send n) (h0 : 0 < k)
      (hk : (s.nodes n).offset + k < (s.nodes n).wcb) :
      Move s (.wsend (.bytes k)) { s.take n k with drained := s.drained ++ piece (s.nodes n) k }
  | wsendAll {n k : Nat} (hw : s.worker = .send n) (h0 : 0 < k)
      (hk : (s.nodes n).offset + k = (s.nodes n).wcb) :
      Move s (.wsend (.bytes k)) { s.take n k with
        drained := s.drained ++ piece (s.nodes n) k
        worker := if L.proto.txPops then .txPop else .pop }
  | wsendAgain {n : Nat} (hw : s.worker = .send n) :
      Move s (.wsend (.err EAGAIN))
        { s with sock := { s.sock with full := true }, worker := .idle }
  | wsendFail {n : Nat} {r : Sent} (hw : s.worker = .send n) :
      Move s (.wsend r) { s with worker := .idle, closed := true }
  | txPop {e n : Nat} {rest : List Nat} {fifo' : Fifo} {sock' : Sock} (hw : s.worker = .txPop)
      (hh : s.fifo.head = n :: rest) (ho : fifo'.Ok) (hr : fifo'.head = rest)
      (hs : rest = [] ∧ sock' = (ioModify s.sock ⟨true, false⟩ e).2 ∨ rest ≠ [] ∧ sock' = s.sock) :
      Move s (.txPop e)
        { s with fifo := fifo', sock := sock', popped := s.popped ++ [n], worker := .pop }
  | popNone {e : Nat} (hw : s.worker = .pop) (hh : s.fifo.head = []) :
      Move s (.pop e) { s with worker := .idle }
  | pop {e n : Nat} {rest : List Nat} {fifo' : Fifo} {sock' : Sock} (hw : s.worker = .pop)
      (hh : s.fifo.head = n :: rest) (ho : fifo'.Ok) (hr : fifo'.head = rest)
      (hs : rest = [] ∧ sock' = (ioModify s.sock ⟨true, false⟩ e).2 ∨ rest ≠ [] ∧ sock' = s.sock) :
      Move s (.pop e)
        { s with fifo := fifo', sock := sock', popped := s.popped ++ [n], worker := .idle,
                 tasks := s.tasks + 1 }
  | room (hf : s.sock.full = true) : Move s .room { s with sock := s.sock.room }
  | close : Move s .close { s with closed := true }

variable {L} {s s' : Tx} {a : TxAct Req}

theorem take_zero (s : Tx) (n : Nat) : s.take n 0 = s := by
  have e : (s.nodes n).advance 0 = s.nodes n := by
    unfold TxNode.advance
    rw [Int.natCast_zero, Int.add_zero]
  unfold Tx.take piece
  rw [e, Function.update_eq_self, List.take_zero, List.append_nil]

/-- what one `send(2)` on a node can come to -/
theorem transmit_cases {n : Nat} {r : Sent} {t : Tx}
    (h : s.transmit n r = some t) :
    (∃ k, r = .bytes k ∧ 0 < k ∧ (s.nodes n).offset + k < (s.nodes n).wcb ∧ t = s.take n k ∧
        (L.proto.txn (s.nodes n) r).2 = none) ∨
      (∃ k, r = .bytes k ∧ 0 < k ∧ (s.nodes n).offset + k = (s.nodes n).wcb ∧ t = s.take n k ∧
        (L.proto.txn (s.nodes n) r).2 = some (s.nodes n).wcb) ∨
      (r = .err EAGAIN ∧ t = { s with sock := { s.sock with full := true } } ∧
        (L.proto.txn (s.nodes n) r).2 = some (-EAGAIN)) ∨
      (r = .err EINTR ∧ t = s ∧ (L.proto.txn (s.nodes n) r).2 = none) ∨
      ((r = .bytes 0 ∨ ∃ e, r = .err e ∧ e ≠ EAGAIN ∧ e ≠ EINTR) ∧ t = s ∧
        (L.proto.txn (s.nodes n) r).2 = some (-1)) := by
  rw [txn_eq]
  cases r with
  | bytes k =>
    unfold Tx.transmit at h
    dsimp only at h
    by_cases hg : (s.nodes n).offset + k ≤ (s.nodes n).wcb ∧ (0 < k → s.sock.full = false)
    · rw [if_pos hg] at h
      cases h
      by_cases h0 : k = 0
      · subst h0
        exact Or.inr (Or.inr (Or.inr (Or.inr ⟨Or.inl rfl, take_zero s n, rfl⟩)))
      · have e : txnRound (s.nodes n) (.bytes k)
            = ((s.nodes n).advance k, txnHead ((s.nodes n).advance k)) := if_neg h0
        rw [e]
        by_cases hk : (s.nodes n).offset + k < (s.nodes n).wcb
        · exact Or.inl ⟨k, rfl, Nat.pos_of_ne_zero h0, hk, rfl, txnHead_none hk⟩
        · have hk' : (s.nodes n).offset + k = (s.nodes n).wcb := by omega
          exact Or.inr (Or.inl ⟨k, rfl, Nat.pos_of_ne_zero h0, hk', rfl, txnHead_some hk'⟩)
    · rw [if_neg hg] at h
      cases h
  | err e =>
    unfold Tx.transmit at h
    dsimp only at h
    cases h
    by_cases h1 : e = EAGAIN
    · subst h1
      exact Or.inr (Or.inr (Or.inl ⟨rfl, rfl, rfl⟩))
    · rw [if_neg h1]
      unfold txnRound
      dsimp only
      rw [if_neg h1]
      by_cases h2 : e = EINTR
      · subst h2
        exact Or.inr (Or.inr (Or.inr (Or.inl ⟨rfl, rfl, rfl⟩)))
      · rw [if_neg h2]
        exact Or.inr (Or.inr (Or.inr (Or.inr ⟨Or.inr ⟨e, rfl, h1, h2⟩, rfl, rfl⟩)))

theorem wpRet_fatal (p : Proto) (s : Tx) :
    Tx.wpRet p s (-1) = { s with worker := .idle, closed := true } := if_pos rfl

theorem wpRet_again (p : Proto) (s : Tx) : Tx.wpRet p s (-EAGAIN) = { s with worker := .idle } := rfl

theorem wpRet_sent (p : Proto) (s : Tx) {v : Int} (hv : 0 < v) :
    Tx.wpRet p s v = { s with worker := if p.txPops then .txPop else .pop } := by
  have he : EAGAIN = 11 := rfl
  unfold Tx.wpRet
  rw [if_neg (by omega), if_neg (by omega), if_neg (by omega), decide_eq_true hv, Bool.and_true]
  cases p.txPops <;> rfl

theorem head_of_head? {xs : List Nat} {n : Nat} (h : xs.head? = some n) : ∃ rest, xs = n :: rest := by
  cases xs with
  | nil => cases h
  | cons m rest =>
    cases h
    exact ⟨rest, rfl⟩

/-! ## every step is a move -/

theorem call_move {i : Nat} {q : Req} {behind : Bytes}
    (h : s.step L (.call i q behind) = some s') : Move L s (.call i q behind) s' := by
  simp only [Tx.step] at h
  by_cases hw : s.writer i = .idle
  · rw [if_pos hw] at h
    cases hc : s.closed with
    | true =>
      rw [hc, if_pos rfl] at h
      cases h
      exact .same (Or.inl ⟨i, q, behind, rfl⟩)
    | false =>
      rw [hc, if_neg (by decide)] at h
      cases hf : L.front q with
      | error e => rw [hf] at h; cases h
      | ok r =>
        rw [hf] at h
        cases r with
        | error e =>
          cases h
          exact .same (Or.inl ⟨i, q, behind, rfl⟩)
        | ok node =>
          dsimp only at h
          by_cases hl : node.wcb ≤ (node.data ++ behind).length
          · rw [if_pos hl] at h
            cases h
            exact .call hw hf hl
          · rw [if_neg hl] at h
            cases h
  · rw [if_neg hw] at h
    cases h

theorem test_move (B : Books L s) {i : Nat}
    (h : s.step L (.test i) = some s') : Move L s (.test i) s' := by
  simp only [Tx.step] at h
  cases hw : s.writer i with
  | test n =>
    rw [hw] at h
    dsimp only at h
    by_cases hb : fifoIsBlocking s.fifo = 0
    · have hn := B.held i n (by rw [hw]; rfl)
      have hpos := (B.nodes n hn.1).pos
      have h0 := B.fresh i n hw
      rw [if_pos hb, txnHead_none (by omega)] at h
      cases h
      exact .testSend hw (B.fifo.blocking_zero.mp hb)
    · rw [if_neg hb] at h
      cases h
      exact .testQueue hw (fun hh => hb (B.fifo.blocking_zero.mpr hh))
  | idle => rw [hw] at h; cases h
  | send n => rw [hw] at h; cases h
  | queue n => rw [hw] at h; cases h

theorem send_move (B : Books L s) {i : Nat} {r : Sent}
    (h : s.step L (.send i r) = some s') : Move L s (.send i r) s' := by
  simp only [Tx.step] at h
  cases hw : s.writer i with
  | send n =>
    rw [hw] at h
    obtain ⟨t, ht, he⟩ := Option.map_eq_some_iff.mp h
    have hpos := (B.nodes n (B.held i n (by rw [hw]; rfl)).1).pos
    rcases transmit_cases (L := L) ht with ⟨k, rfl, h0, hk, rfl, hv⟩ | ⟨k, rfl, h0, hk, rfl, hv⟩ |
      ⟨rfl, rfl, hv⟩ | ⟨rfl, rfl, hv⟩ | ⟨hr, rfl, hv⟩
    · rw [hv] at he
      cases he
      exact .sendSome hw h0 hk
    · rw [hv] at he
      dsimp only at he
      have heagain : EAGAIN = 11 := rfl
      rw [if_neg (by omega)] at he
      cases he
      exact .sendAll hw h0 hk
    · rw [hv] at he
      cases he
      exact .sendAgain hw
    · rw [hv] at he
      cases he
      exact .same (Or.inr (Or.inl ⟨i, rfl⟩))
    · rw [hv] at he
      cases he
      exact .sendFail hw hr
  | idle => rw [hw] at h; cases h
  | test n => rw [hw] at h; cases h
  | queue n => rw [hw] at h; cases h

theorem queue_move (B : Books L s) {i : Nat} {e : Nat}
    (h : s.step L (.queue i e) = some s') : Move L s (.queue i e) s' := by
  simp only [Tx.step] at h
  cases hw : s.writer i with
  | queue n =>
    rw [hw] at h
    dsimp only at h
    obtain ⟨r, fifo', sock', hq⟩ : ∃ r f t, fifoQueue s.fifo s.sock n e = (r, f, t) :=
      ⟨_, _, _, rfl⟩
    rw [hq] at h
    dsimp only at h
    rcases fifo_queue_spec B.fifo hq with ⟨hr, rfl, rfl, hh⟩ | ⟨hr, ho, hh, hs⟩
    · rw [if_pos hr] at h
      cases h
      exact .queueNo hw hr hh
    · rw [if_neg (by omega)] at h
      cases h
      exact .queueYes hw ho hh hs
  | idle => rw [hw] at h; cases h
  | test n => rw [hw] at h; cases h
  | send n => rw [hw] at h; cases h

theorem top_move (B : Books L s) {ktcp : Option Nat}
    (h : s.step L (.top ktcp) = some s') : Move L s (.top ktcp) s' := by
  simp only [Tx.step] at h
  by_cases hw : s.worker = .top
  · rw [if_pos hw] at h
    by_cases hk : L.proto = .tcp ∧ ktcp.any (· ≠ TCP_ESTABLISHED) = true
    · rw [if_pos hk, wpRet_fatal] at h
      cases h
      exact .topFail hw
    · rw [if_neg hk] at h
      cases ht : fifoTop s.fifo with
      | none =>
        rw [ht] at h
        cases h
        exact .topNone hw (List.head?_eq_none_iff.mp ht)
      | some n =>
        have hlt : (s.nodes n).offset < (s.nodes n).wcb := by
          refine B.front ?_ n ht
          rintro (h1 | ⟨h1, _⟩) <;> rw [hw] at h1 <;> cases h1
        rw [ht] at h
        dsimp only at h
        rw [txnHead_none hlt] at h
        cases h
        exact .topSend hw ht
  · rw [if_neg hw] at h
    cases h

theorem wsend_move (B : Books L s) {r : Sent}
    (h : s.step L (.wsend r) = some s') : Move L s (.wsend r) s' := by
  simp only [Tx.step] at h
  cases hw : s.worker with
  | send n =>
    rw [hw] at h
    obtain ⟨t, ht, he⟩ := Option.map_eq_some_iff.mp h
    obtain ⟨rest, hh⟩ := head_of_head? (B.worker n hw)
    have hn : n < s.count := B.known n (by rw [B.queued, hh]; simp)
    have hpos := (B.nodes n hn).pos
    have hdr : ∀ k, (s.take n k).kernel.drop s.kernel.length = piece (s.nodes n) k :=
      fun k => List.drop_left
    rcases transmit_cases (L := L) ht with ⟨k, rfl, h0, hk, rfl, hv⟩ | ⟨k, rfl, h0, hk, rfl, hv⟩ |
      ⟨rfl, rfl, hv⟩ | ⟨rfl, rfl, hv⟩ | ⟨hr, rfl, hv⟩
    · rw [hv] at he
      dsimp only at he
      rw [hdr] at he
      cases he
      exact .wsendSome hw h0 hk
    · rw [hv] at he
      dsimp only at he
      rw [hdr, wpRet_sent _ _ hpos] at he
      cases he
      exact .wsendAll hw h0 hk
    · rw [hv] at he
      dsimp only at he
      rw [List.drop_length, List.append_nil, wpRet_again] at he
      cases he
      exact .wsendAgain hw
    · rw [hv] at he
      dsimp only at he
      rw [List.drop_length, List.append_nil] at he
      cases he
      exact .same (Or.inr (Or.inr rfl))
    · rw [hv] at he
      dsimp only at he
      rw [List.drop_length, List.append_nil, wpRet_fatal] at he
      cases he
      exact .wsendFail hw
  | idle => rw [hw] at h; cases h
  | top => rw [hw] at h; cases h
  | txPop => rw [hw] at h; cases h
  | pop => rw [hw] at h; cases h

theorem txPop_move (B : Books L s) {e : Nat}
    (h : s.step L (.txPop e) = some s') : Move L s (.txPop e) s' := by
  simp only [Tx.step] at h
  by_cases hw : s.worker = .txPop
  · rw [if_pos hw] at h
    obtain ⟨n, rest, hh, _⟩ := B.spent (Or.inl hw)
    obtain ⟨fifo', sock', hp, ho, hr, hs⟩ := fifo_pop_spec s.sock e B.fifo hh
    unfold Tx.popOne at h
    rw [hp] at h
    cases h
    exact .txPop hw hh ho hr hs
  · rw [if_neg hw] at h
    cases h

theorem pop_move (B : Books L s) {e : Nat}
    (h : s.step L (.pop e) = some s') : Move L s (.pop e) s' := by
  simp only [Tx.step] at h
  by_cases hw : s.worker = .pop
  · rw [if_pos hw] at h
    cases hh : s.fifo.head with
    | nil =>
      unfold Tx.popOne at h
      rw [fifo_pop_nil hh] at h
      dsimp only [Option.toList, List.length_nil] at h
      rw [List.append_nil, Nat.add_zero] at h
      cases h
      exact .popNone hw hh
    | cons n rest =>
      obtain ⟨fifo', sock', hp, ho, hr, hs⟩ := fifo_pop_spec s.sock e B.fifo hh
      unfold Tx.popOne at h
      rw [hp] at h
      cases h
      exact .pop hw hh ho hr hs
  · rw [if_neg hw] at h
    cases h

/-- **Every step is a move.** -/
theorem step_move (B : Books L s) (h : s.step L a = some s') : Move L s a s' := by
  cases a with
  | call i q behind => exact call_move h
  | test i => exact test_move B h
  | send i r => exact send_move B h
  | queue i e => exact queue_move B h
  | task =>
    cases h
    exact .task
  | exec =>
    simp only [Tx.step] at h
    by_cases hg : s.worker = .idle ∧ 0 < s.tasks
    · rw [if_pos hg] at h
      cases h
      exact .exec hg.1 hg.2
    · rw [if_neg hg] at h
      cases h
  | top ktcp => exact top_move B h
  | wsend r => exact wsend_move B h
  | txPop e => exact txPop_move B h
  | pop e => exact pop_move B h
  | room =>
    simp only [Tx.step] at h
    split at h
    · rename_i hf
      cases h
      exact .room hf
    · cases h
  | close =>
    cases h
    exact .close

end

end Swnet

import Swnet.TcpalSpec

/-!
# A failing malloc

`malloc` is called in one place, for a large block.  Where the receive path runs against a heap `H`
it does what it would do against `H.total`, which never fails, or it ends in -1 at a chunk that would
have left a large block marked.

* `pkt_heap`, `loop_heap`, `once_heap`   for one call, for the loop over a chunk, for the chunk.
-/

namespace Swnet
open CMem

/-- `H` with a block of zeros wherever `H` has none -/
def total (H : Heap) : Heap where
  malloc k n := some ((H.malloc k n).getD (List.replicate n 0))
  size := by
    intro k n b hb
    cases hb
    cases hm : H.malloc k n with
    | none => exact List.length_replicate
    | some b => exact H.size hm

theorem total_succeeds (H : Heap) : (total H).Succeeds := fun _ _ => rfl

/-- `x` is the answer where `malloc` may fail and `y` the answer where it does not -/
def Failed (x y : C (Int × Rx)) : Prop :=
  (∃ rx, x = .ok (-1, rx)) ∧ ∀ r, y = .ok r → r.1 = 0 ∧ ncbLbMarked r.2.ncb = true

section
variable (H : Heap) (rx : Rx) (data chunk cpbuff : Bytes) (cpcb overplus : Int)

theorem body_heap :
    tcpParseBody H rx data cpcb cpbuff overplus = tcpParseBody (total H) rx data cpcb cpbuff overplus ∨
      Failed (tcpParseBody H rx data cpcb cpbuff overplus)
        (tcpParseBody (total H) rx data cpcb cpbuff overplus) := by
  unfold tcpParseBody
  dsimp only
  cases rx.ncb.tcp.template.parser_ with
  | none => exact Or.inl rfl
  | some parser_ =>
    dsimp only
    cases parser_ rx.ncb.packet rx.ncb.tcp.rxParseOffset with
    | none => exact Or.inl rfl
    | some n =>
      dsimp only
      by_cases hn : n > TCP_MAXIMUM_PACKET_SIZE ∨ n ≤ 0
      · rw [if_pos hn, if_pos hn]
        exact Or.inl rfl
      · rw [if_neg hn, if_neg hn]
        cases cint (n + rx.ncb.tcp.template.cb_) with
        | error e => exact Or.inl rfl
        | ok t =>
          rw [ok_bind, ok_bind]
          by_cases ht : t > TCP_BUFFER_SIZE
          · rw [if_pos ht, if_pos ht]
            cases hm : H.malloc rx.mallocs t.toNat with
            | some lb =>
              have e : (total H).malloc rx.mallocs t.toNat = some lb := by
                show some ((H.malloc rx.mallocs t.toNat).getD _) = some lb
                rw [hm]
                rfl
              rw [e]
              exact Or.inl rfl
            | none =>
              refine Or.inr ⟨⟨_, rfl⟩, fun r hr => ?_⟩
              have e : (total H).malloc rx.mallocs t.toNat = some (List.replicate t.toNat 0) := by
                show some ((H.malloc rx.mallocs t.toNat).getD _) = some _
                rw [hm]
                rfl
              rw [e] at hr
              dsimp only at hr
              cases hc : memcpy (List.replicate t.toNat 0) 0 data cpcb with
              | error e => rw [hc] at hr; cases hr
              | ok lb =>
                rw [hc, ok_bind] at hr
                cases hr
                have h0 : 0 < t := by omega
                exact ⟨rfl, decide_eq_true h0⟩
          · rw [if_neg ht, if_neg ht]
            exact Or.inl rfl

theorem pkt_heap :
    tcpParsePkt H rx data cpcb = tcpParsePkt (total H) rx data cpcb ∨
      Failed (tcpParsePkt H rx data cpcb) (tcpParsePkt (total H) rx data cpcb) := by
  unfold tcpParsePkt
  dsimp only
  split
  · exact Or.inl rfl
  split
  · exact Or.inl rfl
  split
  · exact Or.inl rfl
  cases cint (rx.ncb.tcp.rxParseOffset + cpcb) with
  | error e => exact Or.inl rfl
  | ok reach =>
    rw [ok_bind, ok_bind]
    split
    · exact Or.inl rfl
    split
    · cases cint (rx.ncb.tcp.template.cb_ - rx.ncb.tcp.rxParseOffset) with
      | error e => exact Or.inl rfl
      | ok used =>
        rw [ok_bind, ok_bind]
        cases cint (cpcb - used) with
        | error e => exact Or.inl rfl
        | ok overplus =>
          rw [ok_bind, ok_bind]
          cases memcpy rx.ncb.packet rx.ncb.tcp.rxParseOffset data used with
          | error e => exact Or.inl rfl
          | ok packet => exact body_heap H _ data _ cpcb overplus
    · exact body_heap H rx data data cpcb cpcb

theorem loop_heap (k : Nat) : ∀ (rx : Rx) (offset cpcb : Int),
    rxLoop H k rx chunk offset cpcb = rxLoop (total H) k rx chunk offset cpcb ∨
      Failed (rxLoop H k rx chunk offset cpcb) (rxLoop (total H) k rx chunk offset cpcb) := by
  induction k with
  | zero => exact fun rx offset cpcb => Or.inl rfl
  | succ k ih =>
    intro rx offset cpcb
    rw [rxLoop, rxLoop]
    rcases pkt_heap H rx (chunk.drop offset.toNat) cpcb with h | ⟨⟨rx1, h1⟩, h2⟩
    · rw [h]
      cases tcpParsePkt (total H) rx (chunk.drop offset.toNat) cpcb with
      | error e => exact Or.inl rfl
      | ok p =>
        rw [ok_bind, ok_bind]
        by_cases hp : p.1 < 0
        · rw [if_pos hp, if_pos hp]
          exact Or.inl rfl
        · rw [if_neg hp, if_neg hp]
          cases cint (offset + (cpcb - p.1)) with
          | error e => exact Or.inl rfl
          | ok o =>
            rw [ok_bind, ok_bind]
            by_cases h0 : p.1 > 0
            · rw [if_pos h0, if_pos h0]
              exact ih p.2 o p.1
            · rw [if_neg h0, if_neg h0]
              exact Or.inl rfl
    · right
      rw [h1, ok_bind, if_pos (show (-1 : Int) < 0 by decide)]
      refine ⟨⟨rx1, rfl⟩, fun r hr => ?_⟩
      cases hp : tcpParsePkt (total H) rx (chunk.drop offset.toNat) cpcb with
      | error e => rw [hp] at hr; cases hr
      | ok p =>
        obtain ⟨h0, hm⟩ := h2 p hp
        rw [hp, ok_bind, h0, if_neg (Int.lt_irrefl 0)] at hr
        cases hc : cint (offset + (cpcb - 0)) with
        | error e => rw [hc] at hr; cases hr
        | ok o =>
          rw [hc, ok_bind, if_neg (Int.lt_irrefl 0)] at hr
          cases hr
          exact ⟨rfl, hm⟩

/-- **One chunk against a heap that may fail.** -/
theorem once_heap (r : Recv) :
    tcpRxOnce H rx r = tcpRxOnce (total H) rx r ∨
      Failed (tcpRxOnce H rx r) (tcpRxOnce (total H) rx r) := by
  cases r with
  | err e => exact Or.inl rfl
  | bytes chunk =>
    unfold tcpRxOnce
    dsimp only
    by_cases h : 0 < chunk.length
    · rw [if_pos h, if_pos h]
      exact loop_heap H chunk chunk.length rx 0 chunk.length
    · rw [if_neg h, if_neg h]
      exact Or.inl rfl

end

end Swnet

import Swnet.TcpalSpec

/-!
# No peer drives the unpacking out of its buffers

`ParserOk` is what holds of a link between two receives, in the fields of the control block.  It is
kept by every step of unpacking (`pkt_inv`), by the loop over a chunk (`once_inv`, from the rule
`once_rule` for that loop) and hence by every sequence of receives (`parser_inside`); no step of any
of them ends in a fault, so every copy and every posted slice stays inside its buffer and no
addition overflows.
-/

namespace Swnet
open CMem Framing

/-- bytes of an unfinished packet: once the header is there it announces a packet that is not
complete and fits the packet buffer -/
def Small (W : Wire) (h : Bytes) : Prop :=
  W.cb ≤ h.length → ∃ n, W.rule.size (h.take W.cb) = some n ∧ h.length < n + W.cb ∧
    n + W.cb ≤ TCP_BUFFER_SIZE

theorem small_nil (W : Wire) : Small W [] := fun h => absurd h (Nat.not_le.mpr W.pos)

/-- the invariant, with the bytes that are held -/
inductive Inv (W : Wire) (A : Attr) (rx : Rx) : Prop where
  | idle {h : Bytes} (I : Idle W A rx h) (S : Small W h)
  | big {lb : Bytes} {o : Nat} (B : Big W A rx lb o)

/-- the invariant as it reads in `ncb.h` -/
def ParserOk (W : Wire) (rx : Rx) : Prop :=
  let tcp := rx.ncb.tcp
  rx.ncb.packet.length = TCP_BUFFER_SIZE ∧
  ((ncbLbMarked rx.ncb = false ∧ 0 ≤ tcp.rxParseOffset ∧ tcp.rxParseOffset < TCP_BUFFER_SIZE ∧
      ((W.cb : Int) ≤ tcp.rxParseOffset → ∃ n, W.parse (rx.ncb.packet.take W.cb) = some n ∧
        tcp.rxParseOffset < n + W.cb ∧ n + W.cb ≤ TCP_BUFFER_SIZE)) ∨
    (ncbLbMarked rx.ncb = true ∧ tcp.rxParseOffset = 0 ∧ 0 < tcp.lboffset ∧
      tcp.lboffset < tcp.lbsize ∧ tcp.lbsize ≤ (TCP_MAXIMUM_PACKET_SIZE + W.cb : Nat) ∧
      ∃ lb, tcp.lbdata = some lb ∧ tcp.lbsize = lb.length))

section
variable {W : Wire} {A : Attr} {H : Heap} {rx : Rx} {h data lb : Bytes} {o n : Nat}

theorem Idle.marked (I : Idle W A rx h) : ncbLbMarked rx.ncb = false := by
  unfold ncbLbMarked
  rw [I.lb]
  rfl

theorem Big.marked (B : Big W A rx lb o) : ncbLbMarked rx.ncb = true := by
  have h1 := B.lt
  unfold ncbLbMarked
  rw [B.blk, B.lbsize]
  simp only [Option.isSome_some, Bool.true_and, decide_eq_true_eq]
  omega

theorem rule_size {s : Bytes} (hn : W.rule.size s = some n) : W.parse s = some (n : Int) ∧ 0 < n ∧
    n ≤ TCP_MAXIMUM_PACKET_SIZE := by
  change (W.parse s).bind accept = some n at hn
  obtain ⟨x, hx, hxn⟩ := Option.bind_eq_some_iff.mp hn
  obtain ⟨rfl, h0, h1⟩ := accept_some hxn
  exact ⟨hx, h0, h1⟩

theorem Inv.ok (h : Inv W A rx) : ParserOk W rx := by
  obtain ⟨hB, _, hT⟩ := sizes
  have hle := W.le
  cases h with
  | @idle h I S =>
    refine ⟨I.size, Or.inl ⟨I.marked, ?_, ?_, ?_⟩⟩
    · rw [I.off]; omega
    · rw [I.off]
      by_cases hc : W.cb ≤ h.length
      · obtain ⟨n, _, h1, h2⟩ := S hc
        omega
      · omega
    · intro hc
      rw [I.off] at hc ⊢
      have hc' : W.cb ≤ h.length := by omega
      obtain ⟨n, hn, h1, h2⟩ := S hc'
      have e : rx.ncb.packet.take W.cb = h.take W.cb := by
        rw [← I.held, List.take_take, Nat.min_eq_left hc']
      exact ⟨n, by rw [e]; exact (rule_size hn).1, by omega, by omega⟩
  | @big lb o B =>
    have h1 := B.pos
    have h2 := B.lt
    have h3 := B.le
    refine ⟨B.size, Or.inr ⟨B.marked, B.off, ?_, ?_, ?_, lb, B.blk, B.lbsize⟩⟩
    · rw [B.lboff]; omega
    · rw [B.lboff, B.lbsize]; omega
    · rw [B.lbsize]; omega

/-- the size that a buffered header announces does not change when more bytes arrive -/
theorem small_size (S : Small W h) (hn : W.rule.size ((h ++ data).take W.cb) = some n)
    (hc : W.cb ≤ h.length) : h.length < n + W.cb ∧ n + W.cb ≤ TCP_BUFFER_SIZE := by
  obtain ⟨m, hm, h1, h2⟩ := S hc
  rw [List.take_append_of_le_length hc, hm] at hn
  cases hn
  exact ⟨h1, h2⟩

theorem small_append (hn : W.rule.size (h.take W.cb) = some n) (h1 : h.length < n + W.cb)
    (h2 : n + W.cb ≤ TCP_BUFFER_SIZE) : Small W h := fun _ => ⟨n, hn, h1, h2⟩

/-- **One step of unpacking**: a fatal error, or a remainder smaller than what was given and the
invariant again; never a fault. -/
theorem pkt_inv (hI : Inv W A rx) (hd : data ≠ []) (hdl : data.length ≤ TCP_BUFFER_SIZE) :
    ∃ rx', tcpParsePkt H rx data data.length = .ok (-1, rx') ∨
      ∃ k : Nat, k < data.length ∧ tcpParsePkt H rx data data.length = .ok ((k : Int), rx') ∧
        Inv W A rx' := by
  have hpos : 0 < data.length := List.length_pos_iff.mpr hd
  cases hI with
  | @idle h I S =>
    by_cases hs : h.length + data.length < W.cb
    · obtain ⟨rx', h1, _, I'⟩ := pkt_short (H := H) I hd hs
      refine ⟨rx', Or.inr ⟨0, hpos, h1, .idle I' ?_⟩⟩
      intro hc
      rw [List.length_append] at hc
      omega
    · have hl : W.cb ≤ h.length + data.length := by omega
      cases hn : W.rule.size ((h ++ data).take W.cb) with
      | none =>
        obtain ⟨rx', h1, _⟩ := pkt_bad (H := H) I hd hdl hl hn
        exact ⟨rx', Or.inl h1⟩
      | some n =>
        have hlt : h.length < n + W.cb := by
          have := (rule_size hn).2.1
          by_cases hc : W.cb ≤ h.length
          · exact (small_size S hn hc).1
          · omega
        by_cases hb : TCP_BUFFER_SIZE < n + W.cb
        · cases hm : H.malloc rx.mallocs (n + W.cb) with
          | none =>
            obtain ⟨rx', h1, _⟩ := pkt_nomem (H := H) I hd hdl hl hn hb hm
            exact ⟨rx', Or.inl h1⟩
          | some lb =>
            obtain ⟨rx', lb', h1, _, B, _⟩ := pkt_mark (H := H) I hd hdl hl hn hb hm
            exact ⟨rx', Or.inr ⟨0, hpos, h1, .big B⟩⟩
        · by_cases hge : n + W.cb ≤ h.length + data.length
          · obtain ⟨rx', h1, _, I'⟩ := pkt_done (H := H) I hd hdl hn (by omega) (by omega) hge
            exact ⟨rx', Or.inr ⟨_, by omega, h1, .idle I' (small_nil W)⟩⟩
          · obtain ⟨rx', h1, _, I'⟩ := pkt_more (H := H) I hd hdl hl hn (by omega) (by omega)
            refine ⟨rx', Or.inr ⟨0, hpos, h1, .idle I' (small_append hn ?_ (by omega))⟩⟩
            rw [List.length_append]
            omega
  | @big lb o B =>
    have hlt := B.lt
    by_cases hge : lb.length ≤ o + data.length
    · obtain ⟨rx', h1, _, I'⟩ := lb_done (H := H) B hd hdl hge
      exact ⟨rx', Or.inr ⟨_, by omega, h1, .idle I' (small_nil W)⟩⟩
    · obtain ⟨rx', lb', h1, _, B', _⟩ := lb_more (H := H) B hd (by omega)
      exact ⟨rx', Or.inr ⟨0, hpos, h1, .big B'⟩⟩

/-! ## the loop over a chunk -/

/-- the offset of the next call, when the last one has left `k` bytes -/
theorem next_offset {n p k : Nat} (hn : n ≤ TCP_BUFFER_SIZE) (hk : k < n - p) :
    cint ((p : Int) + (((n - p : Nat) : Int) - (k : Int))) = .ok ((n - k : Nat) : Int) := by
  have e : (p : Int) + (((n - p : Nat) : Int) - (k : Int)) = ((n - k : Nat) : Int) := by omega
  obtain ⟨hB, _, _⟩ := sizes
  rw [e]
  exact cint_nat (by omega)

/-- what the last `k` bytes of the rest are -/
theorem drop_rest {chunk : Bytes} {p k : Nat} (hk : k < chunk.length - p) :
    (chunk.drop p).drop (chunk.length - p - k) = chunk.drop (chunk.length - k) := by
  rw [List.drop_drop]
  congr 1
  omega

/-- **The rule for the loop of `__tcp_rx`.**  `P rx data` holds in front of a call on `data`, `Q` of
what `__tcp_rx` returns; the rest of the chunk is always what the call did not use. -/
theorem loop_rule {P : Rx → Bytes → Prop} {Q : Int × Rx → Prop}
    (hstep : ∀ rx data, P rx data → data ≠ [] → data.length ≤ TCP_BUFFER_SIZE →
      ∃ rx', (tcpParsePkt H rx data data.length = .ok (-1, rx') ∧ Q (-1, rx')) ∨
        ∃ k : Nat, k < data.length ∧ tcpParsePkt H rx data data.length = .ok ((k : Int), rx') ∧
          (k = 0 → Q (0, rx')) ∧ (0 < k → P rx' (data.drop (data.length - k))))
    (chunk : Bytes) (hl : chunk.length ≤ TCP_BUFFER_SIZE) :
    ∀ (fuel p : Nat) (rx : Rx), p < chunk.length → chunk.length - p ≤ fuel → P rx (chunk.drop p) →
      ∃ r, rxLoop H fuel rx chunk p ((chunk.length - p : Nat) : Int) = .ok r ∧ Q r := by
  intro fuel
  induction fuel with
  | zero => intro p rx hp hf; omega
  | succ fuel ih =>
    intro p rx hp hf hP
    have hlen : (chunk.drop p).length = chunk.length - p := List.length_drop
    have hne : chunk.drop p ≠ [] := by
      apply List.ne_nil_of_length_pos
      omega
    obtain ⟨rx', hcase⟩ := hstep rx (chunk.drop p) hP hne (by omega)
    rw [hlen] at hcase
    unfold rxLoop
    rw [Int.toNat_natCast]
    rcases hcase with ⟨h1, hQ⟩ | ⟨k, hk, h1, hz, hp'⟩
    · refine ⟨_, ?_, hQ⟩
      rw [h1, ok_bind]
      rfl
    · rw [h1, ok_bind]
      have hk0 : ¬ ((k : Int) < 0) := by omega
      simp only [if_neg hk0, next_offset hl hk, ok_bind]
      by_cases h0 : k = 0
      · refine ⟨_, ?_, hz h0⟩
        rw [if_neg (by omega)]
        rfl
      · rw [if_pos (by omega)]
        have hP' := hp' (by omega)
        rw [drop_rest hk] at hP'
        have ek : chunk.length - (chunk.length - k) = k := by omega
        have := ih (chunk.length - k) rx' (by omega) (by omega) hP'
        rwa [ek] at this

theorem once_rule {P : Rx → Bytes → Prop} {Q : Int × Rx → Prop}
    (hstep : ∀ rx data, P rx data → data ≠ [] → data.length ≤ TCP_BUFFER_SIZE →
      ∃ rx', (tcpParsePkt H rx data data.length = .ok (-1, rx') ∧ Q (-1, rx')) ∨
        ∃ k : Nat, k < data.length ∧ tcpParsePkt H rx data data.length = .ok ((k : Int), rx') ∧
          (k = 0 → Q (0, rx')) ∧ (0 < k → P rx' (data.drop (data.length - k))))
    (hd : data ≠ []) (hdl : data.length ≤ TCP_BUFFER_SIZE) (hP : P rx data) :
    ∃ r, tcpRxOnce H rx (.bytes data) = .ok r ∧ Q r := by
  have hpos : 0 < data.length := List.length_pos_iff.mpr hd
  have h1 := loop_rule hstep data hdl data.length 0 rx hpos (Nat.le_refl _) hP
  simp only [tcpRxOnce, if_pos hpos]
  exact h1

end

/-! ## every sequence of receives -/

def Rx.setAttr (rx : Rx) (A : Attr) : Rx := { rx with ncb := { rx.ncb with attr := A } }

theorem fresh_idle (W : Wire) (A : Attr) {g : Bytes} (hg : g.length = TCP_BUFFER_SIZE) :
    Idle W A (Rx.fresh g A W.tst) [] := ⟨rfl, rfl, hg, rfl, rfl, rfl⟩

end Swnet

import Mathlib.Data.List.Induction
import Swnet.Nomem
import Swnet.Reassembly
import Swnet.Write

/-!
# Receiving undoes writing

Small packets, from `tcp_write` on one side to `ncb_post_recvdata` on the other.  `malloc` plays no
part at the receiver.

* `write_isFrame`         what `tcp_write` builds is one frame of the receiver's rule;
* `small_once`            one chunk, if no large packet is announced in it;
* `receive_undoes_write`  every cut of every prefix of what was written.
-/

namespace Swnet
open CMem Framing

/-- `node` is what some call of `tcp_write` with the payload `p` built for the template of `W` -/
def Writes (W : Wire) (p : Bytes) (node : TxNode) : Prop :=
  ∃ H k ncb ready ktcp origin serializer, ncb.tcp.template = W.tst ∧ ncb.attr.noBuild = false ∧
    Carries serializer origin p ∧
    tcpWriteNode H k ncb ready ktcp origin p.length serializer = .ok (.ok node)

/-- a frame of `W` that fits into the packet buffer -/
def SmallFrame (W : Wire) (f : Bytes) : Prop := W.rule.IsFrame f ∧ f.length ≤ TCP_BUFFER_SIZE

section
variable {W : Wire} {A : Attr} {H : Heap} {rx : Rx} {h data : Bytes}

theorem write_isFrame {p : Bytes} {node : TxNode} (hW : W.Builds p.length) (hp0 : p ≠ [])
    (hp : p.length + W.cb ≤ TCP_BUFFER_SIZE) (hw : Writes W p node) :
    SmallFrame W node.data ∧ node.data.drop W.cb = p := by
  have hs := sizes
  have hp1 := List.length_pos_iff.mpr hp0
  obtain ⟨H, k, ncb, ready, ktcp, origin, serializer, ht, hA, hc, hn⟩ := hw
  obtain ⟨hdr, h1, h2, rfl⟩ := writeNode_some hW ht hA hc hn
  have hsz : W.rule.size ((hdr ++ p).take W.rule.hd) = some p.length := by
    show (W.parse ((hdr ++ p).take W.cb)).bind accept = _
    rw [← h1, List.take_left, h2]
    show accept (p.length : Int) = _
    unfold accept
    rw [if_neg (by omega), Int.toNat_natCast]
  refine ⟨⟨?_, ?_⟩, ?_⟩
  · have hl : (hdr ++ p).length = W.rule.hd + p.length := by
      rw [List.length_append, h1]
      rfl
    unfold Rule.IsFrame
    rw [next_ready W.rule (by omega) hsz, ← hl, List.take_length, List.drop_length]
  · show (hdr ++ p).length ≤ _
    rw [List.length_append, h1]
    omega
  · show (hdr ++ p).drop W.cb = p
    rw [← h1, List.drop_left]

/-- every header in a stream of small frames announces a small packet -/
theorem header_small (fs : List Bytes) (hf : ∀ f ∈ fs, SmallFrame W f) (hp : h <+: fs.flatten)
    {n : Nat} (hc : W.cb ≤ h.length) (hn : W.rule.size (h.take W.cb) = some n) :
    n + W.cb ≤ TCP_BUFFER_SIZE := by
  have hpos := W.pos
  cases fs with
  | nil =>
    rw [List.flatten_nil, List.prefix_nil] at hp
    rw [hp, List.length_nil] at hc
    omega
  | cons f fs =>
    obtain ⟨hF, hl⟩ := hf f (List.mem_cons_self ..)
    obtain ⟨t, ht⟩ := hp
    obtain ⟨m, h1, h2, h3, h4⟩ := next_frame W.rule hF
    have e : h.take W.cb = f.take W.cb := by
      have h5 := congrArg (List.take W.cb) ht
      rwa [List.flatten_cons, List.take_append_of_le_length hc,
        List.take_append_of_le_length (by show W.rule.hd ≤ _; omega)] at h5
    rw [e] at hn
    rw [show W.rule.hd = W.cb from rfl] at h1 h2
    rw [hn] at h1
    cases h1
    omega

theorem rep_small (R : Rep W A rx h)
    (hs : ∀ n, W.cb ≤ h.length → W.rule.size (h.take W.cb) = some n → n + W.cb ≤ TCP_BUFFER_SIZE) :
    Idle W A rx h := by
  cases R with
  | idle I S => exact I
  | big B e hc hn hl =>
    have h1 := hs _ hc hn
    have h2 := B.big
    omega

/-- **One chunk of a stream of small packets**, against any heap. -/
theorem small_once (R : Rep W A rx h) (hd : data ≠ []) (hdl : data.length ≤ TCP_BUFFER_SIZE)
    (hs : ∀ n, W.cb ≤ (h ++ data).length → W.rule.size ((h ++ data).take W.cb) = some n →
      n + W.cb ≤ TCP_BUFFER_SIZE)
    (hr : ∀ n, W.cb ≤ (W.rule.split (h ++ data)).rest.length →
      W.rule.size ((W.rule.split (h ++ data)).rest.take W.cb) = some n → n + W.cb ≤ TCP_BUFFER_SIZE)
    (hb : (W.rule.split (h ++ data)).bad = false) :
    ∃ rx', tcpRxOnce H rx (.bytes data) = .ok (0, rx') ∧
      rx'.posts = rx.posts ++ (W.rule.split (h ++ data)).frames.map (deliver W A) ∧
      Rep W A rx' (W.rule.split (h ++ data)).rest := by
  have hw : Whole W h data := Or.inr (Or.inr fun n hl hn =>
    hs n (by rw [List.length_append]; exact hl) hn)
  obtain ⟨⟨r, rx'⟩, h1, h2, h3⟩ := once_split (total_succeeds H) R hw hd hdl
  rcases h3 with ⟨h3, _⟩ | ⟨_, h4, R'⟩
  · rw [hb] at h3
    cases h3
  have h4' : r = 0 := h4
  subst h4'
  refine ⟨rx', ?_, h2, R'⟩
  -- the block that a failing `malloc` would have given is never asked for
  rcases once_heap H rx (.bytes data) with he | ⟨_, hm⟩
  · rw [he, h1]
  · have h5 := (hm _ h1).2
    rw [(rep_small R' hr).marked] at h5
    cases h5

/-- a sequence of chunks out of a stream of small frames -/
theorem small_run {fs : List Bytes} (hf : ∀ f ∈ fs, SmallFrame W f) {g : Bytes}
    (hg : g.length = TCP_BUFFER_SIZE) (cs : List Bytes) (hcs : Chunks cs)
    (hpre : cs.flatten <+: fs.flatten) :
    ∃ rx, rxChunks H (Rx.fresh g A W.tst) cs = .ok (0, rx) ∧
      rx.posts = (fs.take (inside cs.flatten.length fs)).map (deliver W A) ∧
      Idle W A rx (cs.flatten.drop (insideLength cs.flatten.length fs)) := by
  have hF : ∀ f ∈ fs, W.rule.IsFrame f := fun f hfm => (hf f hfm).1
  -- what the framing leaves over begins a small packet
  have hsmall : ∀ s t : Bytes, s ++ t <+: fs.flatten → ∀ n,
      W.cb ≤ ((W.rule.split s).rest ++ t).length →
      W.rule.size (((W.rule.split s).rest ++ t).take W.cb) = some n → n + W.cb ≤ TCP_BUFFER_SIZE := by
    intro s t hst n hl hn
    have hsp := split_cutoff fs hF ((List.prefix_append s t).trans hst)
    have hfl := split_flatten_rest W.rule s
    refine header_small (fs.drop (inside s.length fs))
      (fun f hfm => hf f (List.mem_of_mem_drop hfm)) ?_ hl hn
    rw [hsp] at hfl ⊢
    have e : fs.flatten = (fs.take (inside s.length fs)).flatten
        ++ (fs.drop (inside s.length fs)).flatten := by
      rw [← List.flatten_append, List.take_append_drop]
    rw [← hfl, List.append_assoc, e] at hst
    exact (List.prefix_append_right_inj _).mp hst
  have hrun : ∃ rx, rxChunks H (Rx.fresh g A W.tst) cs = .ok (0, rx) ∧
      rx.posts = (W.rule.split cs.flatten).frames.map (deliver W A) ∧
      Rep W A rx (W.rule.split cs.flatten).rest := by
    induction cs using List.reverseRecOn with
    | nil =>
      refine ⟨_, rfl, ?_, ?_⟩
      · rw [List.flatten_nil, split_nil]
        rfl
      · rw [List.flatten_nil, split_nil]
        exact rep_nil (fresh_idle W A hg)
    | append_singleton cs c ih =>
      have efl : (cs ++ [c]).flatten = cs.flatten ++ c := by
        rw [List.flatten_append, List.flatten_singleton]
      rw [efl] at hpre ⊢
      have hpre1 := (List.prefix_append cs.flatten c).trans hpre
      obtain ⟨rx, h1, h2, R⟩ := ih (fun x hx => hcs x (List.mem_append_left _ hx)) hpre1
      obtain ⟨hc0, hcl⟩ := hcs c (List.mem_append_right _ (List.mem_singleton_self c))
      have hb0 : (W.rule.split cs.flatten).bad = false := by rw [split_cutoff fs hF hpre1]
      have hb1 : (W.rule.split (cs.flatten ++ c)).bad = false := by rw [split_cutoff fs hF hpre]
      have happ := split_append W.rule cs.flatten c hb0
      have hb2 : (W.rule.split ((W.rule.split cs.flatten).rest ++ c)).bad = false := by
        rw [happ] at hb1
        exact hb1
      obtain ⟨rx', h3, h4, R'⟩ := small_once (H := H) R hc0 hcl (hsmall _ _ hpre) (by
        intro n hl hn
        have h5 := hsmall (cs.flatten ++ c) [] (by rwa [List.append_nil]) n
        rw [List.append_nil, happ] at h5
        exact h5 hl hn) hb2
      refine ⟨rx', ?_, ?_, ?_⟩
      · rw [rxChunks_append h1, rxChunks_go h3]
        rfl
      · rw [happ, h4, h2, List.map_append]
      · rw [happ]
        exact R'
  obtain ⟨rx, h1, h2, R⟩ := hrun
  have hsp := split_cutoff fs hF hpre
  have I := rep_small R (by
    intro n hl hn
    have h5 := hsmall cs.flatten [] (by rwa [List.append_nil]) n
    rw [List.append_nil] at h5
    exact h5 hl hn)
  rw [hsp] at h2 I
  exact ⟨rx, h1, h2, I⟩

/-- **Receiving undoes writing.**  Of every prefix of what was written, however it is cut, the
receiver posts the payloads that lie in it whole, and holds the rest. -/
theorem receive_undoes_write (W : Wire) (ps : List Bytes) (nodes : List TxNode)
    (hps : ∀ p ∈ ps, p ≠ [] ∧ p.length + W.cb ≤ TCP_BUFFER_SIZE ∧ W.Builds p.length)
    (hn : List.Forall₂ (Writes W) ps nodes) (A : Attr) (hA : A.fullyReceive = false) (H : Heap)
    (g : Bytes) (hg : g.length = TCP_BUFFER_SIZE) (cs : List Bytes) (hcs : Chunks cs)
    (hpre : cs.flatten <+: (nodes.map TxNode.data).flatten) :
    let n := cs.flatten.length
    let rest := cs.flatten.drop (insideLength n (nodes.map TxNode.data))
    ∃ rx, rxChunks H (Rx.fresh g A W.tst) cs = .ok (0, rx) ∧
      rx.posts = ps.take (inside n (nodes.map TxNode.data)) ∧
      rx.ncb.tcp.rxParseOffset = rest.length ∧ rx.ncb.packet.take rest.length = rest := by
  intro n rest
  have hframes : (∀ f ∈ nodes.map TxNode.data, SmallFrame W f) ∧
      (nodes.map TxNode.data).map (deliver W A) = ps := by
    clear_value n rest
    clear hpre
    induction hn with
    | nil => exact ⟨fun f hf => absurd hf (List.not_mem_nil), rfl⟩
    | @cons p node ps nodes hw _ ih =>
      obtain ⟨h1, h2⟩ := ih (fun q hq => hps q (List.mem_cons_of_mem _ hq))
      obtain ⟨hp0, hp, hW⟩ := hps p (List.mem_cons_self ..)
      obtain ⟨h3, h4⟩ := write_isFrame hW hp0 hp hw
      refine ⟨?_, ?_⟩
      · intro f hf
        rw [List.map_cons, List.mem_cons] at hf
        rcases hf with rfl | hf
        · exact h3
        · exact h1 f hf
      · rw [List.map_cons, List.map_cons, h2]
        unfold deliver
        rw [hA, if_neg (by decide), h4]
  obtain ⟨rx, h1, h2, I⟩ := small_run (A := A) (H := H) hframes.1 hg cs hcs hpre
  refine ⟨rx, h1, ?_, I.off, I.held⟩
  rw [h2, List.map_take, hframes.2]

end

theorem receive_undoes_write_len4 :
    let n := [[1, 0], [0, 0, 7, 2, 0, 0]].flatten.length
    let bufs : List Bytes := [[1, 0, 0, 0, 7], [2, 0, 0, 0, 8, 9]]
    let rest := [[1, 0], [0, 0, 7, 2, 0, 0]].flatten.drop (insideLength n bufs)
    ∃ rx, rxChunks Heap.zeros (Rx.fresh (List.replicate TCP_BUFFER_SIZE 0) Attr.clear Wire.len4.tst)
        [[1, 0], [0, 0, 7, 2, 0, 0]] = .ok (0, rx) ∧
      rx.posts = [[7], [8, 9]].take (inside n bufs) ∧
      rx.ncb.tcp.rxParseOffset = rest.length ∧ rx.ncb.packet.take rest.length = rest :=
  receive_undoes_write Wire.len4 [[7], [8, 9]] [⟨[1, 0, 0, 0, 7], 5, 0⟩, ⟨[2, 0, 0, 0, 8, 9], 6, 0⟩]
    (by
      intro p hp
      simp only [List.mem_cons, List.not_mem_nil, or_false] at hp
      rcases hp with rfl | rfl
      · exact ⟨by decide, by decide, len4_builds (by decide)⟩
      · exact ⟨by decide, by decide, len4_builds (by decide)⟩)
    (.cons ⟨Heap.zeros, 0, (Rx.fresh [] Attr.clear Wire.len4.tst).ncb, true, some TCP_ESTABLISHED, [7],
        none, rfl, rfl, rfl, rfl⟩
      (.cons ⟨Heap.zeros, 0, (Rx.fresh [] Attr.clear Wire.len4.tst).ncb, true, none, [8, 9], none, rfl,
        rfl, rfl, rfl⟩ .nil))
    Attr.clear rfl Heap.zeros _ List.length_replicate [[1, 0], [0, 0, 7, 2, 0, 0]]
    (by
      intro c hc
      simp only [List.mem_cons, List.not_mem_nil, or_false] at hc
      rcases hc with rfl | rfl <;> decide)
    ⟨[0, 8, 9], rfl⟩

end Swnet

import Swnet.TcpalSafe

/-!
# Reassembly against the framing of the uncut stream

`reference` frames the uncut stream by `Wire.rule`; `Reassembles` says that `__tcp_rx` on a cut of
the stream posts the same packets and fails at the same place.

* `pkt_next`         one call of `tcp_parse_pkt` is one `Rule.next` of what is held and what arrives,
                     unless the call completes a header that began in an earlier chunk and announces
                     a large block;
* `once_split`       one chunk is one `Rule.split`;
* `run_follow`       a sequence of chunks, as long as no cut falls inside such a header
                     (`CutsHeader`), or the packet behind it does not come to its end anyway
                     (`Follow.lost`);
* `not_reassembles`  behind such a cut the block never fills: the bytes of the header that arrived
                     early are not in it;
* `reassembles_iff`  the two together.
-/

namespace Swnet
open CMem Framing

/-- the packets to post for a stream, and whether it ends in a malformed header -/
def reference (W : Wire) (A : Attr) (s : Bytes) : List Bytes × Bool :=
  ((W.rule.split s).frames.map (deliver W A), (W.rule.split s).bad)

def Reassembles (W : Wire) (A : Attr) (H : Heap) (garbage : Bytes) (cs : List Bytes) : Prop :=
  ∃ r rx, rxChunks H (Rx.fresh garbage A W.tst) cs = .ok (r, rx) ∧
    rx.posts = (reference W A cs.flatten).1 ∧ (r < 0 ↔ (reference W A cs.flatten).2 = true)

/-- between `s` and `t` the stream is cut inside the header of a packet that is larger than the
packet buffer and complete in `s ++ t` -/
def CutsHeader (W : Wire) (s t : Bytes) : Prop :=
  (W.rule.split s).bad = false ∧ (W.rule.split s).rest ≠ [] ∧ (W.rule.split s).rest.length < W.cb ∧
    ∃ n, W.rule.size (((W.rule.split s).rest ++ t).take W.cb) = some n ∧
      TCP_BUFFER_SIZE < n + W.cb ∧ n + W.cb ≤ ((W.rule.split s).rest ++ t).length

/-- no boundary between two chunks falls inside the header of a large packet -/
def HeadersWhole (W : Wire) (cs : List Bytes) : Prop :=
  ∀ i, ¬ CutsHeader W (cs.take i).flatten (cs.drop i).flatten

/-- what `recv(2)` can answer -/
def Chunks (cs : List Bytes) : Prop := ∀ c ∈ cs, c ≠ [] ∧ c.length ≤ TCP_BUFFER_SIZE

/-- the state holds exactly the bytes `h` of an unfinished packet -/
inductive Rep (W : Wire) (A : Attr) (rx : Rx) (h : Bytes) : Prop where
  | idle (I : Idle W A rx h) (S : Small W h)
  | big {lb : Bytes} {n : Nat} (B : Big W A rx lb h.length) (e : lb.take h.length = h)
      (hc : W.cb ≤ h.length) (hn : W.rule.size (h.take W.cb) = some n) (hl : lb.length = n + W.cb)

section
variable {W : Wire} {A : Attr} {H : Heap} {rx : Rx} {h data : Bytes}

theorem Rep.idle_of_short (R : Rep W A rx h) (hc : h.length < W.cb) : Idle W A rx h := by
  cases R with
  | idle I S => exact I
  | big B e hc' hn hl => omega

theorem rep_nil (I : Idle W A rx []) : Rep W A rx [] := .idle I (small_nil W)

/-- the call does not complete a header of which some bytes came earlier and which announces a large
block -/
def Whole (W : Wire) (h data : Bytes) : Prop :=
  h = [] ∨ W.cb ≤ h.length ∨ ∀ n, W.cb ≤ h.length + data.length →
    W.rule.size ((h ++ data).take W.cb) = some n → n + W.cb ≤ TCP_BUFFER_SIZE

theorem rest_drop {n : Nat} (hn : h.length ≤ n) (hl : n ≤ h.length + data.length) :
    (h ++ data).drop n = data.drop (data.length - ((h ++ data).drop n).length) := by
  rw [List.length_drop, List.length_append, List.drop_append, List.drop_eq_nil_of_le hn,
    List.nil_append]
  congr 1
  omega

/-- **One call is one step of framing.** -/
theorem pkt_next (hH : H.Succeeds) (R : Rep W A rx h) (hw : Whole W h data) (hd : data ≠ [])
    (hdl : data.length ≤ TCP_BUFFER_SIZE) :
    ∃ rx', (W.rule.next (h ++ data) = .bad ∧ rx'.posts = rx.posts ∧
        tcpParsePkt H rx data data.length = .ok (-1, rx')) ∨
      (W.rule.next (h ++ data) = .more ∧ rx'.posts = rx.posts ∧
        tcpParsePkt H rx data data.length = .ok (0, rx') ∧ Rep W A rx' (h ++ data)) ∨
      (∃ f r, W.rule.next (h ++ data) = .frame f r ∧ rx'.posts = rx.posts ++ [deliver W A f] ∧
        tcpParsePkt H rx data data.length = .ok ((r.length : Int), rx') ∧ Rep W A rx' [] ∧
        r.length < data.length ∧ r = data.drop (data.length - r.length)) := by
  have hpos : 0 < data.length := List.length_pos_iff.mpr hd
  cases R with
  | idle I S =>
    by_cases hs : h.length + data.length < W.cb
    · obtain ⟨rx', h1, h2, I'⟩ := pkt_short (H := H) I hd hs
      have hlen : (h ++ data).length < W.rule.hd := by rw [List.length_append]; exact hs
      refine ⟨rx', Or.inr (Or.inl ⟨next_short _ hlen, h2, h1, .idle I' ?_⟩)⟩
      intro hc
      exact absurd hc (Nat.not_le.mpr hlen)
    · have hl : W.cb ≤ h.length + data.length := by omega
      have hl' : W.rule.hd ≤ (h ++ data).length := by rw [List.length_append]; exact hl
      cases hn : W.rule.size ((h ++ data).take W.cb) with
      | none =>
        obtain ⟨rx', h1, h2⟩ := pkt_bad (H := H) I hd hdl hl hn
        exact ⟨rx', Or.inl ⟨next_none _ hl' hn, h2, h1⟩⟩
      | some n =>
        have hlt : h.length < n + W.cb := by
          have := (rule_size hn).2.1
          by_cases hc : W.cb ≤ h.length
          · exact (small_size S hn hc).1
          · omega
        by_cases hb : TCP_BUFFER_SIZE < n + W.cb
        · -- a large block: nothing of the packet may have been held
          have hh : h = [] := by
            rcases hw with h0 | h0 | h0
            · exact h0
            · exact absurd (small_size S hn h0).2 (by omega)
            · exact absurd (h0 n hl hn) (by omega)
          obtain ⟨lb, hm, _⟩ := hH.get rx.mallocs (n + W.cb)
          obtain ⟨rx', lb', h1, h2, B, h3, h4⟩ := pkt_mark (H := H) I hd hdl hl hn hb hm
          subst hh
          rw [List.nil_append] at hn hl' ⊢
          have hmore : W.rule.next data = .more :=
            next_wait _ hl' hn (by show data.length < W.cb + n; omega)
          exact ⟨rx', Or.inr (Or.inl ⟨hmore, h2, h1, .big B h4 hl' hn h3⟩)⟩
        · by_cases hge : n + W.cb ≤ h.length + data.length
          · obtain ⟨rx', h1, h2, I'⟩ := pkt_done (H := H) I hd hdl hn (by omega) (by omega) hge
            have hf := next_ready W.rule (s := h ++ data) (n := n)
              (by show W.cb + n ≤ _; rw [List.length_append]; omega) hn
            have hrl : ((h ++ data).drop (W.cb + n)).length = h.length + data.length - (n + W.cb) := by
              rw [List.length_drop, List.length_append, Nat.add_comm W.cb n]
            refine ⟨rx', Or.inr (Or.inr ⟨_, _, hf, ?_, ?_, rep_nil I', ?_, ?_⟩)⟩
            · rw [h2, Nat.add_comm n W.cb]
              rfl
            · rw [h1]
              congr 3
              exact hrl.symm
            · show ((h ++ data).drop (W.cb + n)).length < _
              omega
            · exact rest_drop (n := W.cb + n) (by omega) (by omega)
          · obtain ⟨rx', h1, h2, I'⟩ := pkt_more (H := H) I hd hdl hl hn (by omega) (by omega)
            have hmore : W.rule.next (h ++ data) = .more :=
              next_wait _ hl' hn (by show _ < W.cb + n; rw [List.length_append]; omega)
            refine ⟨rx', Or.inr (Or.inl ⟨hmore, h2, h1, .idle I' (small_append hn ?_ (by omega))⟩)⟩
            rw [List.length_append]
            omega
  | @big lb n B e hc hn hl =>
    have hn' : W.rule.size ((h ++ data).take W.cb) = some n := by
      rw [List.take_append_of_le_length hc, hn]
    have hlt := B.lt
    by_cases hge : lb.length ≤ h.length + data.length
    · obtain ⟨rx', h1, h2, I'⟩ := lb_done (H := H) B hd hdl hge
      have hf := next_ready W.rule (s := h ++ data) (n := n)
        (by show W.cb + n ≤ _; rw [List.length_append]; omega) hn'
      have hrl : ((h ++ data).drop (W.cb + n)).length = h.length + data.length - lb.length := by
        rw [List.length_drop, List.length_append, hl, Nat.add_comm W.cb n]
      refine ⟨rx', Or.inr (Or.inr ⟨_, _, hf, ?_, ?_, rep_nil I', ?_, ?_⟩)⟩
      · rw [h2, e, hl, Nat.add_comm n W.cb]
        rfl
      · rw [h1]
        congr 3
        exact hrl.symm
      · show ((h ++ data).drop (W.cb + n)).length < _
        omega
      · exact rest_drop (n := W.cb + n) (by omega) (by omega)
    · obtain ⟨rx', lb', h1, h2, B', h3, h4⟩ := lb_more (H := H) B hd (by omega)
      have hmore : W.rule.next (h ++ data) = .more :=
        next_wait _ (by show W.cb ≤ _; rw [List.length_append]; omega) hn'
          (by show _ < W.cb + n; rw [List.length_append]; omega)
      have hlen : (h ++ data).length = h.length + data.length := List.length_append
      rw [← hlen] at B'
      refine ⟨rx', Or.inr (Or.inl ⟨hmore, h2, h1, .big (n := n) B' ?_ ?_ hn' ?_⟩)⟩
      · rw [hlen, h4, e]
      · omega
      · rw [h3, hl]

theorem whole_nil (data : Bytes) : Whole W [] data := Or.inl rfl

/-- **One chunk is one run of framing.** -/
theorem once_split (hH : H.Succeeds) (R : Rep W A rx h) (hw : Whole W h data) (hd : data ≠ [])
    (hdl : data.length ≤ TCP_BUFFER_SIZE) :
    ∃ r, tcpRxOnce H rx (.bytes data) = .ok r ∧
      r.2.posts = rx.posts ++ (W.rule.split (h ++ data)).frames.map (deliver W A) ∧
      ((W.rule.split (h ++ data)).bad = true ∧ r.1 = -1 ∨
        (W.rule.split (h ++ data)).bad = false ∧ r.1 = 0 ∧
          Rep W A r.2 (W.rule.split (h ++ data)).rest) := by
  -- in front of a call: `fs` is posted already and the rest of the chunk is still to be framed
  refine once_rule (P := fun rx1 d => ∃ h1 fs, Rep W A rx1 h1 ∧ Whole W h1 d ∧
      rx1.posts = rx.posts ++ fs.map (deliver W A) ∧
      (W.rule.split (h ++ data)).frames = fs ++ (W.rule.split (h1 ++ d)).frames ∧
      (W.rule.split (h ++ data)).rest = (W.rule.split (h1 ++ d)).rest ∧
      (W.rule.split (h ++ data)).bad = (W.rule.split (h1 ++ d)).bad) ?_ hd hdl
    ⟨h, [], R, hw, by simp, rfl, rfl, rfl⟩
  rintro rx1 d ⟨h1, fs, R1, hw1, hp, hf, hr, hb⟩ hd1 hdl1
  obtain ⟨rx2, hcase⟩ := pkt_next hH R1 hw1 hd1 hdl1
  rcases hcase with ⟨hn, hp2, hc⟩ | ⟨hn, hp2, hc, R2⟩ | ⟨f, r, hn, hp2, hc, R2, hl, hrest⟩
  · refine ⟨rx2, Or.inl ⟨hc, ?_, Or.inl ⟨?_, rfl⟩⟩⟩
    · rw [hf, split_bad _ hn, List.append_nil, ← hp]
      exact hp2
    · rw [hb, split_bad _ hn]
  · refine ⟨rx2, Or.inr ⟨0, List.length_pos_iff.mpr hd1, hc, fun _ => ⟨?_, Or.inr ⟨?_, rfl, ?_⟩⟩,
      fun h0 => absurd h0 (Nat.lt_irrefl 0)⟩⟩
    · rw [hf, split_more _ hn, List.append_nil, ← hp]
      exact hp2
    · rw [hb, split_more _ hn]
    · rw [hr, split_more _ hn]
      exact R2
  · have hs := split_frame _ hn
    rw [hs] at hf hr hb
    have hp3 : rx2.posts = rx.posts ++ (fs ++ [f]).map (deliver W A) := by
      rw [hp2, hp, List.map_append, ← List.append_assoc]
      rfl
    have hf3 : (W.rule.split (h ++ data)).frames = (fs ++ [f]) ++ (W.rule.split r).frames := by
      rw [hf, List.append_assoc]
      rfl
    refine ⟨rx2, Or.inr ⟨r.length, hl, hc, fun h0 => ?_, fun _ => ?_⟩⟩
    · have hr0 : r = [] := List.length_eq_zero_iff.mp h0
      subst hr0
      rw [split_nil] at hf3
      refine ⟨?_, Or.inr ⟨?_, rfl, ?_⟩⟩
      · rw [hf3, List.append_nil, ← hp3]
      · rw [hb]
        show (W.rule.split []).bad = false
        rw [split_nil]
      · rw [hr]
        show Rep W A rx2 (W.rule.split []).rest
        rw [split_nil]
        exact R2
    · rw [← hrest]
      exact ⟨[], fs ++ [f], R2, whole_nil _, hp3, hf3, hr, hb⟩

/-! ## a sequence of chunks -/

/-- Between two chunks, with `h` left over by the framing and `m` bytes still to come: the state
holds `h`, or a large block that can never fill stands for a packet that cannot become complete. -/
inductive Follow (W : Wire) (A : Attr) (rx : Rx) (h : Bytes) (m : Nat) : Prop where
  | rep (R : Rep W A rx h)
  | lost {lb : Bytes} {o n : Nat} (B : Big W A rx lb o) (hc : W.cb ≤ h.length)
      (hn : W.rule.size (h.take W.cb) = some n) (hh : h.length + m < n + W.cb)
      (hl : o + m < lb.length)

theorem once_more {rx' : Rx} (hd : data ≠ []) (hdl : data.length ≤ TCP_BUFFER_SIZE)
    (h1 : tcpParsePkt H rx data data.length = .ok (0, rx')) :
    tcpRxOnce H rx (.bytes data) = .ok (0, rx') := by
  have hr := once_rule (H := H) (P := fun x d => x = rx ∧ d = data) (Q := fun p => p = (0, rx'))
    (fun x d hP _ _ => ⟨rx', Or.inr ⟨0, ?_, ?_, fun _ => rfl, fun h0 => absurd h0 (Nat.lt_irrefl 0)⟩⟩)
    hd hdl ⟨rfl, rfl⟩
  · obtain ⟨r, h2, rfl⟩ := hr
    exact h2
  · rw [hP.2]
    exact List.length_pos_iff.mpr hd
  · rw [hP.1, hP.2]
    exact h1

/-- a block that cannot fill takes every chunk and posts nothing -/
theorem lost_once {lb : Bytes} {o m : Nat} (B : Big W A rx lb o) (hd : data ≠ [])
    (hdl : data.length ≤ TCP_BUFFER_SIZE) (hl : o + (data.length + m) < lb.length) :
    ∃ rx' lb', tcpRxOnce H rx (.bytes data) = .ok (0, rx') ∧ rx'.posts = rx.posts ∧
      Big W A rx' lb' (o + data.length) ∧ o + data.length + m < lb'.length := by
  obtain ⟨rx', lb', h1, h2, B', h3, _⟩ := lb_more (H := H) B hd (by omega)
  exact ⟨rx', lb', once_more hd hdl h1, h2, B', by omega⟩

theorem rxChunks_go {rx' : Rx} {c : Bytes} {cs : List Bytes}
    (h1 : tcpRxOnce H rx (.bytes c) = .ok (0, rx')) :
    rxChunks H rx (c :: cs) = rxChunks H rx' cs := by
  rw [rxChunks, h1, ok_bind, if_neg (Int.lt_irrefl 0)]

theorem rxChunks_stop {rx' : Rx} {c : Bytes} {cs : List Bytes}
    (h1 : tcpRxOnce H rx (.bytes c) = .ok (-1, rx')) :
    rxChunks H rx (c :: cs) = .ok (-1, rx') := by
  rw [rxChunks, h1, ok_bind, if_pos (show (-1 : Int) < 0 by decide)]
  rfl

theorem split_more_append (R : Rule UInt8) {s c : Bytes} (hs : (R.split s).bad = false)
    (hn : R.next ((R.split s).rest ++ c) = .more) :
    R.split (s ++ c) = ⟨(R.split s).frames, (R.split s).rest ++ c, false⟩ := by
  rw [split_append R s c hs, split_more R hn, List.append_nil]

/-- **A sequence of chunks** that is followed by the bytes `t` later on. -/
theorem run_follow (hH : H.Succeeds) (t : Bytes) (cs : List Bytes) (hcs : Chunks cs) :
    ∀ (s : Bytes) (rx : Rx), (W.rule.split s).bad = false →
      Follow W A rx (W.rule.split s).rest (cs.flatten.length + t.length) →
      rx.posts = (W.rule.split s).frames.map (deliver W A) →
      (∀ i, i < cs.length →
        ¬ CutsHeader W (s ++ (cs.take i).flatten) ((cs.drop i).flatten ++ t)) →
      ∃ r rx', rxChunks H rx cs = .ok (r, rx') ∧
        rx'.posts = (W.rule.split (s ++ cs.flatten)).frames.map (deliver W A) ∧
        ((W.rule.split (s ++ cs.flatten)).bad = true ∧ r = -1 ∨
          (W.rule.split (s ++ cs.flatten)).bad = false ∧ r = 0 ∧
            Follow W A rx' (W.rule.split (s ++ cs.flatten)).rest t.length) := by
  induction cs with
  | nil =>
    intro s rx hs hF hp _
    rw [List.flatten_nil, List.length_nil, Nat.zero_add] at hF
    rw [List.flatten_nil, List.append_nil]
    exact ⟨0, rx, rfl, hp, Or.inr ⟨hs, rfl, hF⟩⟩
  | cons c cs ih =>
    intro s rx hs hF hp hcut
    obtain ⟨hc0, hcl⟩ := hcs c (List.mem_cons_self ..)
    have hcs' : Chunks cs := fun x hx => hcs x (List.mem_cons_of_mem _ hx)
    have hcut' : ∀ i, i < cs.length →
        ¬ CutsHeader W ((s ++ c) ++ (cs.take i).flatten) ((cs.drop i).flatten ++ t) := by
      intro i hi
      have := hcut (i + 1) (by rw [List.length_cons]; omega)
      rwa [List.take_succ_cons, List.flatten_cons, List.drop_succ_cons, ← List.append_assoc] at this
    have hfl : (c :: cs).flatten = c ++ cs.flatten := List.flatten_cons
    have hlen : (c :: cs).flatten.length = c.length + cs.flatten.length := by
      rw [hfl, List.length_append]
    rw [hlen] at hF
    rw [hfl, ← List.append_assoc]
    set h := (W.rule.split s).rest with hh
    cases hF with
    | rep R =>
      by_cases hw : Whole W h c
      · obtain ⟨⟨r, rx1⟩, h1, h2, h3⟩ := once_split (A := A) hH R hw hc0 hcl
        have hsp := split_append W.rule s c hs
        rw [← hh] at hsp
        have hp1 : rx1.posts = (W.rule.split (s ++ c)).frames.map (deliver W A) := by
          rw [h2, hp, hsp, List.map_append]
        rcases h3 with ⟨hb, hr⟩ | ⟨hb, hr, R1⟩
        · have hbad : (W.rule.split (s ++ c)).bad = true := by rw [hsp]; exact hb
          obtain ⟨e1, e2⟩ := split_append_bad W.rule (s ++ c) cs.flatten hbad
          change r = -1 at hr
          subst hr
          exact ⟨-1, rx1, rxChunks_stop h1, by rw [hp1, e1], Or.inl ⟨e2, rfl⟩⟩
        · have hbad : (W.rule.split (s ++ c)).bad = false := by rw [hsp]; exact hb
          have hrest : (W.rule.split (s ++ c)).rest = (W.rule.split (h ++ c)).rest := by rw [hsp]
          change r = 0 at hr
          subst hr
          rw [rxChunks_go h1]
          exact ih hcs' (s ++ c) rx1 hbad (.rep (hrest ▸ R1)) hp1 hcut'
      · -- a large block whose header began earlier: its packet is not complete in the stream
        unfold Whole at hw
        push Not at hw
        obtain ⟨hne, hhc, n, hl, hn, hb⟩ := hw
        have I := R.idle_of_short hhc
        have hlong : h.length + (c.length + cs.flatten.length + t.length) < n + W.cb := by
          by_contra hge
          refine hcut 0 (by rw [List.length_cons]; omega) ⟨?_, ?_, ?_, n, ?_, hb, ?_⟩ <;>
            simp only [List.take_zero, List.flatten_nil, List.append_nil, List.drop_zero, ← hh, hfl]
          · exact hs
          · exact hne
          · exact hhc
          · rw [List.append_assoc, ← List.append_assoc,
              List.take_append_of_le_length (by rw [List.length_append]; exact hl)]
            exact hn
          · simp only [List.length_append]
            omega
        obtain ⟨lb, hm, _⟩ := hH.get rx.mallocs (n + W.cb)
        obtain ⟨rx1, lb', h1, h2, B, h3, _⟩ := pkt_mark (H := H) I hc0 hcl hl hn hb hm
        have hlenc : (h ++ c).length = h.length + c.length := List.length_append
        have hmore : W.rule.next (h ++ c) = .more :=
          next_wait _ (by rw [hlenc]; exact hl) hn
            (by show (h ++ c).length < W.cb + n; omega)
        have hsp := split_more_append W.rule hs hmore
        rw [rxChunks_go (once_more hc0 hcl h1)]
        refine ih hcs' (s ++ c) rx1 (by rw [hsp]) ?_ (by rw [h2, hp, hsp]) hcut'
        rw [hsp, ← hh]
        show Follow W A rx1 (h ++ c) _
        have hpos : 0 < h.length := List.length_pos_iff.mpr hne
        exact .lost B (by omega) hn (by omega) (by omega)
    | @lost lb o n B hc hn hhm hl =>
      obtain ⟨rx1, lb', h1, h2, B', h3⟩ :=
        lost_once (H := H) (m := cs.flatten.length + t.length) B hc0 hcl (by omega)
      have hlenc : (h ++ c).length = h.length + c.length := List.length_append
      have hn' : W.rule.size ((h ++ c).take W.cb) = some n := by
        rw [List.take_append_of_le_length hc, hn]
      have hmore : W.rule.next (h ++ c) = .more :=
        next_wait _ (by show W.cb ≤ (h ++ c).length; omega) hn'
          (by show (h ++ c).length < W.cb + n; omega)
      have hsp := split_more_append W.rule hs hmore
      rw [rxChunks_go h1]
      refine ih hcs' (s ++ c) rx1 (by rw [hsp]) ?_ (by rw [h2, hp, hsp]) hcut'
      rw [hsp, ← hh]
      show Follow W A rx1 (h ++ c) _
      exact .lost B' (by omega) hn' (by omega) (by omega)

/-! ## behind a cut header -/

theorem lost_run (es : List Bytes) (hes : Chunks es) : ∀ (rx : Rx) (lb : Bytes) (o : Nat),
    Big W A rx lb o → o + es.flatten.length < lb.length →
      ∃ rx', rxChunks H rx es = .ok (0, rx') ∧ rx'.posts = rx.posts := by
  induction es with
  | nil => intro rx lb o _ _; exact ⟨rx, rfl, rfl⟩
  | cons c es ih =>
    intro rx lb o B hl
    obtain ⟨hc0, hcl⟩ := hes c (List.mem_cons_self ..)
    rw [List.flatten_cons, List.length_append] at hl
    obtain ⟨rx1, lb', h1, h2, B', h3⟩ := lost_once (H := H) B hc0 hcl hl
    obtain ⟨rx2, h4, h5⟩ :=
      ih (fun x hx => hes x (List.mem_cons_of_mem _ hx)) rx1 lb' (o + c.length) B' h3
    exact ⟨rx2, by rw [rxChunks_go h1, h4], by rw [h5, h2]⟩

/-- some bytes of the header of a large packet are held: nothing is posted up to the last byte of
that packet -/
theorem cut_run (hH : H.Succeeds) {n : Nat} (hb : TCP_BUFFER_SIZE < n + W.cb) (es : List Bytes)
    (hes : Chunks es) : ∀ (rx : Rx) (h : Bytes), Idle W A rx h → h ≠ [] → h.length < W.cb →
      W.rule.size ((h ++ es.flatten).take W.cb) = some n →
      (h ++ es.flatten).length = n + W.cb →
      ∃ rx', rxChunks H rx es = .ok (0, rx') ∧ rx'.posts = rx.posts := by
  induction es with
  | nil => intro rx h _ _ _ _ _; exact ⟨rx, rfl, rfl⟩
  | cons c es ih =>
    intro rx h I hne hhc hn hlen
    obtain ⟨hc0, hcl⟩ := hes c (List.mem_cons_self ..)
    have hes' : Chunks es := fun x hx => hes x (List.mem_cons_of_mem _ hx)
    rw [List.flatten_cons, ← List.append_assoc] at hn hlen
    by_cases hs : h.length + c.length < W.cb
    · obtain ⟨rx1, h1, h2, I'⟩ := pkt_short (H := H) I hc0 hs
      obtain ⟨rx2, h3, h4⟩ := ih hes' rx1 (h ++ c) I' (by simp [hne])
        (by rw [List.length_append]; exact hs) hn hlen
      exact ⟨rx2, by rw [rxChunks_go (once_more hc0 hcl h1), h3], by rw [h4, h2]⟩
    · have hl : W.cb ≤ h.length + c.length := by omega
      rw [List.take_append_of_le_length (by rw [List.length_append]; exact hl)] at hn
      obtain ⟨lb, hm, _⟩ := hH.get rx.mallocs (n + W.cb)
      obtain ⟨rx1, lb', h1, h2, B, h3, _⟩ := pkt_mark (H := H) I hc0 hcl hl hn hb hm
      have hpos : 0 < h.length := List.length_pos_iff.mpr hne
      rw [List.length_append, List.length_append] at hlen
      obtain ⟨rx2, h4, h5⟩ := lost_run (H := H) es hes' rx1 lb' c.length B (by omega)
      exact ⟨rx2, by rw [rxChunks_go (once_more hc0 hcl h1), h4], by rw [h5, h2]⟩

theorem rxChunks_append {rx' : Rx} {cs es : List Bytes} (h1 : rxChunks H rx cs = .ok (0, rx')) :
    rxChunks H rx (cs ++ es) = rxChunks H rx' es := by
  induction cs generalizing rx with
  | nil =>
    cases h1
    rfl
  | cons c cs ih =>
    rw [List.cons_append]
    rw [rxChunks] at h1 ⊢
    cases h2 : tcpRxOnce H rx (.bytes c) with
    | error e => rw [h2] at h1; cases h1
    | ok p =>
      rw [h2, ok_bind] at h1
      rw [ok_bind]
      by_cases hp : p.1 < 0
      · rw [if_pos hp] at h1
        cases h1
        exact absurd hp (Int.lt_irrefl 0)
      · rw [if_neg hp] at h1 ⊢
        exact ih h1

theorem follow_nil (g : Bytes) (hg : g.length = TCP_BUFFER_SIZE) (m : Nat) :
    Follow W A (Rx.fresh g A W.tst) (W.rule.split []).rest m := by
  rw [split_nil]
  exact .rep (rep_nil (fresh_idle W A hg))

/-- **Behind a cut header the packet is lost**: at its last byte the reference posts it and the code
does not. -/
theorem not_reassembles (hH : H.Succeeds) {g : Bytes} (hg : g.length = TCP_BUFFER_SIZE)
    {cs es : List Bytes} (hcs : Chunks cs) (hes : Chunks es) {n : Nat}
    (hcut : ∀ i, i < cs.length →
      ¬ CutsHeader W (cs.take i).flatten ((cs.drop i).flatten ++ es.flatten))
    (hs : (W.rule.split cs.flatten).bad = false) (hne : (W.rule.split cs.flatten).rest ≠ [])
    (hhc : (W.rule.split cs.flatten).rest.length < W.cb)
    (hn : W.rule.size (((W.rule.split cs.flatten).rest ++ es.flatten).take W.cb) = some n)
    (hb : TCP_BUFFER_SIZE < n + W.cb)
    (hlen : ((W.rule.split cs.flatten).rest ++ es.flatten).length = n + W.cb) :
    ¬ Reassembles W A H g (cs ++ es) := by
  rintro ⟨r, rx, hrun, hposts, _⟩
  obtain ⟨r1, rx1, h1, h2, h3⟩ := run_follow (A := A) hH es.flatten cs hcs []
    (Rx.fresh g A W.tst) (by rw [split_nil]) (follow_nil g hg _) (by rw [split_nil]; rfl) hcut
  rw [List.nil_append] at h2 h3
  rcases h3 with ⟨h3, _⟩ | ⟨_, hr1, hF⟩
  · rw [hs] at h3
    cases h3
  · subst hr1
    have I : Idle W A rx1 (W.rule.split cs.flatten).rest := by
      cases hF with
      | rep R => exact R.idle_of_short hhc
      | lost B hc _ _ _ => omega
    obtain ⟨rx2, h4, h5⟩ := cut_run hH hb es hes rx1 _ I hne hhc hn hlen
    rw [rxChunks_append h1, h4] at hrun
    cases hrun
    have hframe : W.rule.next ((W.rule.split cs.flatten).rest ++ es.flatten)
        = .frame ((W.rule.split cs.flatten).rest ++ es.flatten) [] := by
      have h6 := next_ready W.rule (s := (W.rule.split cs.flatten).rest ++ es.flatten) (n := n)
        (by show W.cb + n ≤ _; omega) hn
      rwa [List.take_of_length_le (by show _ ≤ W.cb + n; omega),
        List.drop_eq_nil_of_le (by show _ ≤ W.cb + n; omega)] at h6
    have hsp := split_append W.rule cs.flatten es.flatten hs
    rw [split_frame W.rule hframe, split_nil] at hsp
    rw [h5, h2] at hposts
    have h7 := congrArg List.length hposts
    simp only [reference, List.flatten_append, hsp, List.length_map, List.length_append,
      Split.cons, List.length_cons, List.length_nil] at h7
    omega

end

/-! ## cutting a cut short -/

/-- the first `n` bytes of a stream, cut as the whole stream is -/
def cutAt : Nat → List Bytes → List Bytes
  | _, [] => []
  | n, c :: cs => if n = 0 then [] else c.take n :: cutAt (n - c.length) cs

theorem cutAt_flatten (n : Nat) (cs : List Bytes) : (cutAt n cs).flatten = cs.flatten.take n := by
  induction cs generalizing n with
  | nil => simp [cutAt]
  | cons c cs ih =>
    unfold cutAt
    by_cases hn : n = 0
    · simp [hn]
    · rw [if_neg hn, List.flatten_cons, ih, List.flatten_cons, List.take_append]

theorem cutAt_chunks (n : Nat) (cs : List Bytes) (hcs : Chunks cs) : Chunks (cutAt n cs) := by
  induction cs generalizing n with
  | nil => exact hcs
  | cons c cs ih =>
    intro x hx
    unfold cutAt at hx
    by_cases hn : n = 0
    · rw [if_pos hn] at hx
      cases hx
    · rw [if_neg hn] at hx
      obtain ⟨h0, h1⟩ := hcs c (List.mem_cons_self ..)
      rcases List.mem_cons.mp hx with rfl | hx
      · refine ⟨?_, ?_⟩
        · rw [Ne, List.take_eq_nil_iff]
          rintro (h | h)
          · exact hn h
          · exact h0 h
        · rw [List.length_take]
          omega
      · exact ih _ (fun y hy => hcs y (List.mem_cons_of_mem _ hy)) x hx

/-- the chunks in front of the last one are whole -/
theorem cutAt_take (n : Nat) (cs : List Bytes) :
    ∀ i, i < (cutAt n cs).length → (cutAt n cs).take i = cs.take i := by
  induction cs generalizing n with
  | nil => intro i hi; exact absurd hi (Nat.not_lt_zero i)
  | cons c cs ih =>
    intro i hi
    unfold cutAt at hi ⊢
    by_cases hn : n = 0
    · rw [if_pos hn] at hi
      exact absurd hi (Nat.not_lt_zero i)
    · rw [if_neg hn] at hi ⊢
      cases i with
      | zero => rfl
      | succ i =>
        rw [List.length_cons] at hi
        have hl : (cutAt (n - c.length) cs).length ≠ 0 := by omega
        have hcl : c.length < n := by
          by_contra hge
          have h0 : n - c.length = 0 := by omega
          rw [h0] at hl
          cases cs <;> exact hl rfl
        rw [List.take_succ_cons, List.take_succ_cons, ih _ i (by omega),
          List.take_of_length_le (Nat.le_of_lt hcl)]

theorem cutAt_append (m : Nat) (cs es : List Bytes) (hcs : Chunks cs) :
    cutAt (cs.flatten.length + m) (cs ++ es) = cs ++ cutAt m es := by
  induction cs with
  | nil => rw [List.flatten_nil, List.length_nil, Nat.zero_add]; rfl
  | cons c cs ih =>
    have hpos : 0 < c.length := List.length_pos_iff.mpr (hcs c (List.mem_cons_self ..)).1
    have ih' := ih (fun x hx => hcs x (List.mem_cons_of_mem _ hx))
    rw [List.flatten_cons, List.length_append, List.cons_append, cutAt, if_neg (by omega),
      List.take_of_length_le (by omega), Nat.add_assoc, Nat.add_sub_cancel_left, ih']
    rfl

section
variable {W : Wire} {A : Attr} {H : Heap}

theorem CutsHeader.append {s t : Bytes} (h : CutsHeader W s t) (u : Bytes) :
    CutsHeader W s (t ++ u) := by
  obtain ⟨h1, h2, h3, n, h4, h5, h6⟩ := h
  refine ⟨h1, h2, h3, n, ?_, h5, ?_⟩
  · rw [← List.append_assoc, List.take_append_of_le_length (by omega)]
    exact h4
  · rw [← List.append_assoc, List.length_append]
    omega

theorem CutsHeader.ne_nil {s t : Bytes} (h : CutsHeader W s t) : t ≠ [] := by
  rintro rfl
  obtain ⟨_, _, h3, n, _, _, h6⟩ := h
  rw [List.append_nil] at h6
  omega

theorem headersWhole_cutAt {cs : List Bytes} (h : HeadersWhole W cs) (n : Nat) :
    HeadersWhole W (cutAt n cs) := by
  intro i hc
  have hi : i < (cutAt n cs).length := by
    by_contra hge
    have := hc.ne_nil
    rw [List.drop_eq_nil_of_le (by omega)] at this
    exact this rfl
  have htake := cutAt_take n cs i hi
  rw [htake] at hc
  -- what follows the cut in the short stream is a part of what follows it in the long one
  have hpre : ((cutAt n cs).drop i).flatten <+: (cs.drop i).flatten := by
    have h1 : (cutAt n cs).flatten <+: cs.flatten := by
      rw [cutAt_flatten]
      exact List.take_prefix _ _
    have h2 : cs.flatten = (cs.take i).flatten ++ (cs.drop i).flatten := by
      rw [← List.flatten_append, List.take_append_drop]
    rw [← List.take_append_drop i (cutAt n cs), htake, List.flatten_append, h2] at h1
    exact (List.prefix_append_right_inj _).mp h1
  obtain ⟨u, hu⟩ := hpre
  refine h i ?_
  rw [← hu]
  exact hc.append u

theorem reassembles_of_headersWhole (hH : H.Succeeds) {g : Bytes}
    (hg : g.length = TCP_BUFFER_SIZE) {cs : List Bytes} (hcs : Chunks cs)
    (hw : HeadersWhole W cs) : Reassembles W A H g cs := by
  obtain ⟨r, rx, h1, h2, h3⟩ := run_follow (A := A) hH [] cs hcs [] (Rx.fresh g A W.tst)
    (by rw [split_nil]) (follow_nil g hg _) (by rw [split_nil]; rfl) (by
      intro i _
      rw [List.append_nil]
      exact hw i)
  refine ⟨r, rx, h1, h2, ?_⟩
  show r < 0 ↔ (W.rule.split cs.flatten).bad = true
  rw [List.nil_append] at h3
  rcases h3 with ⟨hb, hr⟩ | ⟨hb, hr, _⟩ <;> rw [hb, hr] <;> decide

/-- a cut inside the header of a large packet shows at the latest at the end of that packet -/
theorem exists_not_reassembles (hH : H.Succeeds) {g : Bytes} (hg : g.length = TCP_BUFFER_SIZE)
    {cs : List Bytes} (hcs : Chunks cs) (hw : ¬ HeadersWhole W cs) :
    ∃ n, ¬ Reassembles W A H g (cutAt n cs) := by
  classical
  unfold HeadersWhole at hw
  push Not at hw
  -- the first cut of that kind
  obtain ⟨h1, h2, h3, n, h4, h5, h6⟩ := Nat.find_spec hw
  have hmin : ∀ j, j < Nat.find hw → ¬ CutsHeader W (cs.take j).flatten (cs.drop j).flatten :=
    fun j hj => Nat.find_min hw hj
  generalize Nat.find hw = i at h1 h2 h3 h4 h6 hmin
  set h := (W.rule.split (cs.take i).flatten).rest with hh
  have htk : Chunks (cs.take i) := fun x hx => hcs x (List.mem_of_mem_take hx)
  have hdr : Chunks (cs.drop i) := fun x hx => hcs x (List.mem_of_mem_drop hx)
  have hflat : (cutAt (n + W.cb - h.length) (cs.drop i)).flatten
      = (cs.drop i).flatten.take (n + W.cb - h.length) := cutAt_flatten _ _
  refine ⟨(cs.take i).flatten.length + (n + W.cb - h.length), ?_⟩
  have e := cutAt_append (n + W.cb - h.length) (cs.take i) (cs.drop i) htk
  rw [List.take_append_drop] at e
  rw [e]
  refine not_reassembles hH hg htk (cutAt_chunks _ _ hdr) (n := n) ?_ h1 h2 h3 ?_ h5 ?_
  · intro j hj hc
    have hji : j < i := by
      rw [List.length_take] at hj
      omega
    refine hmin j hji ?_
    have e1 : (cs.take i).take j = cs.take j := by
      rw [List.take_take, Nat.min_eq_left (Nat.le_of_lt hji)]
    have e2 : (cs.drop j).flatten = ((cs.take i).drop j).flatten ++ (cs.drop i).flatten := by
      rw [← List.flatten_append]
      congr 1
      nth_rewrite 1 [← List.take_append_drop i cs]
      rw [List.drop_append_of_le_length (by omega)]
    have e3 := hc.append ((cs.drop i).flatten.drop (n + W.cb - h.length))
    rwa [hflat, List.append_assoc, List.take_append_drop, ← e2, e1] at e3
  · rw [hflat, ← hh, List.take_append, List.take_take, Nat.min_eq_left (by omega),
      ← List.take_append]
    exact h4
  · rw [hflat, ← hh, List.length_append, List.length_take]
    rw [List.length_append] at h6
    omega

/-- **When the cut of the stream does not matter.**  For every stream and every cut of it, the code
follows the reference framing up to every byte of the stream if and only if no boundary between two
chunks falls inside the header of a large packet that the stream carries completely. -/
theorem reassembles_iff (W : Wire) (A : Attr) (H : Heap) (hH : H.Succeeds) (g : Bytes)
    (hg : g.length = TCP_BUFFER_SIZE) (cs : List Bytes) (hcs : Chunks cs) :
    HeadersWhole W cs ↔ ∀ n, Reassembles W A H g (cutAt n cs) := by
  constructor
  · intro hw n
    exact reassembles_of_headersWhole hH hg (cutAt_chunks n cs hcs) (headersWhole_cutAt hw n)
  · intro h
    by_contra hw
    obtain ⟨n, hn⟩ := exists_not_reassembles (A := A) hH hg hcs hw
    exact hn (h n)

end

theorem reassembles_iff_len4 :
    HeadersWhole Wire.len4 [[2, 0], [0, 0, 7, 8]] ↔ ∀ n, Reassembles Wire.len4 Attr.clear
      Heap.zeros (List.replicate TCP_BUFFER_SIZE 0) (cutAt n [[2, 0], [0, 0, 7, 8]]) :=
  reassembles_iff Wire.len4 Attr.clear Heap.zeros Heap.zeros_succeeds _ List.length_replicate _ (by
    intro c hc
    simp only [List.mem_cons, List.not_mem_nil, or_false] at hc
    rcases hc with rfl | rfl <;> decide)

/-- a packet of 70000 bytes, with the first byte of its header in a chunk of its own -/
def splitLarge : List Bytes :=
  [[112]] ++ [[17, 1, 0] ++ List.replicate 69000 0, List.replicate 1000 0]

theorem splitLarge_not_reassembles : Chunks splitLarge ∧
    ¬ Reassembles Wire.len4 Attr.clear Heap.zeros (List.replicate TCP_BUFFER_SIZE 0) splitLarge := by
  have hshort : Wire.len4.rule.split [112] = ⟨[], [112], false⟩ :=
    split_more _ (next_short _ (by decide))
  have hfl : ([[112]] : List Bytes).flatten = [112] := rfl
  have hc1 : Chunks [[112]] := by
    intro c hc
    rw [List.mem_singleton.mp hc]
    decide
  have hc2 : Chunks [[17, 1, 0] ++ List.replicate 69000 0, List.replicate 1000 0] := by
    intro c hc
    simp only [List.mem_cons, List.not_mem_nil, or_false] at hc
    rcases hc with rfl | rfl
    · exact ⟨List.cons_ne_nil _ _, by rw [List.length_append, List.length_replicate]; decide⟩
    · refine ⟨?_, by rw [List.length_replicate]; decide⟩
      rw [Ne, List.replicate_eq_nil_iff]
      decide
  refine ⟨?_, ?_⟩
  · intro c hc
    rcases List.mem_append.mp hc with hc | hc
    · exact hc1 c hc
    · exact hc2 c hc
  · refine not_reassembles Heap.zeros_succeeds List.length_replicate hc1 hc2 (n := 70000) ?_ ?_ ?_
      ?_ ?_ (by decide) ?_
    · intro i hi hc
      have h0 : i = 0 := by
        rw [List.length_singleton] at hi
        omega
      subst h0
      have h1 := hc.2.1
      rw [List.take_zero, List.flatten_nil, split_nil] at h1
      exact h1 rfl
    · rw [hfl, hshort]
    · rw [hfl, hshort]
      decide
    · rw [hfl, hshort]
      decide
    · rw [hfl, hshort]
      rfl
    · have hcb : Wire.len4.cb = 4 := rfl
      rw [hfl, hshort, hcb, List.length_append, List.flatten_cons, List.flatten_cons,
        List.flatten_nil, List.append_nil, List.length_append, List.length_append,
        List.length_replicate, List.length_replicate]
      decide

end Swnet

import Swnet.Lib.Framing
import Swnet.Tcpal

/-!
# What one step of unpacking does

`Wire` is a template that frames a stream (`0 < cb_ <= 32`, a `parser_` that looks at the first
`cb_` bytes only), `Wire.rule` the framing that it announces.  A parser state that is met is

* `Idle W A rx h`     no large block, the bytes `h` of an unfinished packet in `packet`;
* `Big W A rx lb o`   a large block `lb` with `o` bytes in it.

Each branch of `tcp_parse_pkt` has one lemma (`pkt_short`, `pkt_bad`, `pkt_nomem`, `pkt_mark`,
`pkt_done`, `pkt_more`, `lb_more`, `lb_done`); each says that the branch is reached without a fault,
what it returns, what it posts, and the state that it leaves.
-/

namespace Swnet
open CMem Framing

/-- a template with a header and a `parser_` that is a function `parse` of the header -/
structure Wire where
  tst : Tst
  cb : Nat
  parse : Bytes → Option Int
  cb_eq : tst.cb_ = cb
  pos : 0 < cb
  le : cb ≤ TCP_MAXIMUM_TEMPLATE_SIZE
  local_ : ∃ p, tst.parser_ = some p ∧ ∀ (pkt : Bytes) (off : Int),
    cb ≤ pkt.length → (cb : Int) ≤ off → p pkt off = parse (pkt.take cb)

/-- the body sizes that are accepted -/
def accept (n : Int) : Option Nat :=
  if n > TCP_MAXIMUM_PACKET_SIZE ∨ n ≤ 0 then none else some n.toNat

theorem accept_some {x : Int} {n : Nat} (h : accept x = some n) :
    x = n ∧ 0 < n ∧ n ≤ TCP_MAXIMUM_PACKET_SIZE := by
  unfold accept at h
  split at h
  · cases h
  · cases h
    omega

def Wire.rule (W : Wire) : Rule UInt8 := ⟨W.cb, W.pos, fun h => (W.parse h).bind accept⟩

/-- the little-endian number in the first four bytes -/
def le32 (h : Bytes) : Int :=
  ((h.getD 0 0).toNat + 256 * (h.getD 1 0).toNat + 65536 * (h.getD 2 0).toNat
    + 16777216 * (h.getD 3 0).toNat : Nat)

def le32Bytes (n : Int) : Bytes :=
  [UInt8.ofNat n.toNat, UInt8.ofNat (n.toNat / 256), UInt8.ofNat (n.toNat / 65536),
    UInt8.ofNat (n.toNat / 16777216)]

theorem le32_take (pkt : Bytes) : le32 (pkt.take 4) = le32 pkt := by
  unfold le32
  simp only [List.getD_eq_getElem?_getD, List.getElem?_take, Nat.reduceLT, if_true]

/-- a template of the kind that applications use: four bytes of length in front of each packet -/
def Wire.len4 : Wire where
  tst := ⟨4, some fun buf n => (0, le32Bytes n ++ buf.drop 4), some fun pkt _ => some (le32 pkt)⟩
  cb := 4
  parse h := some (le32 h)
  cb_eq := rfl
  pos := by decide
  le := by decide
  local_ := ⟨_, rfl, fun pkt _ _ _ => by rw [le32_take]⟩

/-- what is posted for a frame -/
def deliver (W : Wire) (A : Attr) (f : Bytes) : Bytes := if A.fullyReceive then f else f.drop W.cb

structure Idle (W : Wire) (A : Attr) (rx : Rx) (h : Bytes) : Prop where
  tst : rx.ncb.tcp.template = W.tst
  attr : rx.ncb.attr = A
  size : rx.ncb.packet.length = TCP_BUFFER_SIZE
  lb : rx.ncb.tcp.lbdata = none
  off : rx.ncb.tcp.rxParseOffset = h.length
  held : rx.ncb.packet.take h.length = h

structure Big (W : Wire) (A : Attr) (rx : Rx) (lb : Bytes) (o : Nat) : Prop where
  tst : rx.ncb.tcp.template = W.tst
  attr : rx.ncb.attr = A
  size : rx.ncb.packet.length = TCP_BUFFER_SIZE
  blk : rx.ncb.tcp.lbdata = some lb
  off : rx.ncb.tcp.rxParseOffset = 0
  lboff : rx.ncb.tcp.lboffset = o
  lbsize : rx.ncb.tcp.lbsize = lb.length
  pos : 0 < o
  lt : o < lb.length
  le : lb.length ≤ TCP_MAXIMUM_PACKET_SIZE + W.cb
  big : TCP_BUFFER_SIZE < lb.length

theorem post_ok (rx : Rx) {buf : Bytes} {p n : Nat} (h : p + n ≤ buf.length) :
    ncbPostRecvdata rx n buf p
      = .ok { rx with posts := rx.posts ++ [(buf.drop p).take n] } := by
  unfold ncbPostRecvdata
  rw [slice_nat h, ok_bind]
  rfl

section
variable {W : Wire} {A : Attr} {H : Heap} {rx : Rx} {h u data lb : Bytes} {o n : Nat}

theorem Idle.le (I : Idle W A rx h) : h.length ≤ TCP_BUFFER_SIZE := by
  have h1 := congrArg List.length I.held
  rw [List.length_take, I.size] at h1
  omega

/-- `parser_` on the buffered header -/
theorem Idle.parse (I : Idle W A rx h) (hc : W.cb ≤ h.length) :
    ∃ p, rx.ncb.tcp.template.parser_ = some p ∧
      p rx.ncb.packet rx.ncb.tcp.rxParseOffset = W.parse (h.take W.cb) := by
  obtain ⟨p, hp, hloc⟩ := W.local_
  have hle := I.le
  refine ⟨p, by rw [I.tst, hp], ?_⟩
  rw [hloc _ _ (by rw [I.size]; omega) (by rw [I.off]; omega)]
  have e : rx.ncb.packet.take W.cb = h.take W.cb := by
    rw [← I.held, List.take_take, Nat.min_eq_left hc]
  rw [e]

/-! ## the part behind the header -/

theorem body_bad (I : Idle W A rx h) (hc : W.cb ≤ h.length)
    (hn : W.rule.size (h.take W.cb) = none) (cpcb ov : Int) :
    tcpParseBody H rx data cpcb u ov = .ok (-1, rx) := by
  obtain ⟨p, hp, hpv⟩ := I.parse hc
  unfold tcpParseBody
  simp only [hp, hpv]
  cases hx : W.parse (h.take W.cb) with
  | none => rfl
  | some x =>
    have hx' : accept x = none := by
      change (W.parse (h.take W.cb)).bind accept = none at hn
      rwa [hx] at hn
    unfold accept at hx'
    split at hx'
    · rename_i hb
      simp only [if_pos hb]
    · cases hx'

/-- an accepted header: the part that does not depend on how much has arrived -/
theorem body_some (I : Idle W A rx h)
    (hn : W.rule.size (h.take W.cb) = some n) :
    0 < n ∧ n ≤ TCP_MAXIMUM_PACKET_SIZE ∧ W.parse (h.take W.cb) = some (n : Int) ∧
      cint ((n : Int) + rx.ncb.tcp.template.cb_) = .ok ((n + W.cb : Nat) : Int) := by
  change (W.parse (h.take W.cb)).bind accept = some n at hn
  obtain ⟨x, hx, hxn⟩ := Option.bind_eq_some_iff.mp hn
  obtain ⟨rfl, h0, h1⟩ := accept_some hxn
  have hle := W.le
  obtain ⟨_, hM, hT⟩ := sizes
  refine ⟨h0, h1, hx, ?_⟩
  rw [I.tst, W.cb_eq]
  exact_mod_cast cint_nat (n := n + W.cb) (by omega)

theorem body_nomem (data u : Bytes) (I : Idle W A rx h) (hc : W.cb ≤ h.length)
    (hn : W.rule.size (h.take W.cb) = some n) (hb : TCP_BUFFER_SIZE < n + W.cb)
    (hm : H.malloc rx.mallocs (n + W.cb) = none) (cpcb ov : Int) :
    ∃ rx', tcpParseBody H rx data cpcb u ov = .ok (-1, rx') ∧ rx'.posts = rx.posts := by
  obtain ⟨p, hp, hpv⟩ := I.parse hc
  obtain ⟨h0, h1, hx, ht⟩ := body_some I hn
  have hgood : ¬ ((n : Int) > TCP_MAXIMUM_PACKET_SIZE ∨ (n : Int) ≤ 0) := by omega
  have hbig : ((n + W.cb : Nat) : Int) > TCP_BUFFER_SIZE := by omega
  refine ⟨(rx.setTcp { rx.ncb.tcp with lbdata := none }).malloced, ?_, rfl⟩
  unfold tcpParseBody
  simp only [hp, hpv, hx, if_neg hgood, ht, ok_bind, if_pos hbig, Int.toNat_natCast, hm]
  rfl

/-- a large packet: the block gets the bytes of this call only -/
theorem body_mark (I : Idle W A rx h) (hc : W.cb ≤ h.length)
    (hn : W.rule.size (h.take W.cb) = some n) (hb : TCP_BUFFER_SIZE < n + W.cb)
    (hm : H.malloc rx.mallocs (n + W.cb) = some lb) (hd : data ≠ [])
    (hdl : data.length ≤ TCP_BUFFER_SIZE) (ov : Int) :
    ∃ rx' lb', tcpParseBody H rx data data.length u ov = .ok (0, rx') ∧ rx'.posts = rx.posts ∧
      Big W A rx' lb' data.length ∧ lb'.length = n + W.cb ∧ lb'.take data.length = data := by
  obtain ⟨p, hp, hpv⟩ := I.parse hc
  obtain ⟨h0, h1, hx, ht⟩ := body_some I hn
  have hl : lb.length = n + W.cb := H.size hm
  have hgood : ¬ ((n : Int) > TCP_MAXIMUM_PACKET_SIZE ∨ (n : Int) ≤ 0) := by omega
  have hbig : ((n + W.cb : Nat) : Int) > TCP_BUFFER_SIZE := by omega
  have hfit : 0 + data.length ≤ lb.length := by omega
  have hcp := memcpy_nat (p := 0) hfit (Nat.le_refl data.length)
  have hlen := memcpy_length (p := 0) hfit (Nat.le_refl data.length)
  have htk := memcpy_take (p := 0) hfit (Nat.le_refl data.length)
  rw [List.take_length] at hcp hlen htk
  have hpos : 0 < data.length := List.length_pos_iff.mpr hd
  refine ⟨(rx.setTcp ⟨0, some (lb.take 0 ++ data ++ lb.drop (0 + data.length)), data.length,
    (n + W.cb : Nat), rx.ncb.tcp.template⟩).malloced,
    lb.take 0 ++ data ++ lb.drop (0 + data.length), ?_, rfl, ?_, ?_, ?_⟩
  · unfold tcpParseBody
    simp only [hp, hpv, hx, if_neg hgood, ht, ok_bind, if_pos hbig, Int.toNat_natCast, hm]
    rw [show memcpy lb 0 data data.length = _ from hcp, ok_bind]
    rfl
  · exact ⟨I.tst, I.attr, I.size, rfl, rfl, rfl, by rw [hlen, hl]; rfl, hpos,
      by rw [hlen]; omega, by rw [hlen]; omega, by rw [hlen]; omega⟩
  · rw [hlen, hl]
  · rw [Nat.zero_add] at htk ⊢
    exact htk

/-- the packet is complete -/
theorem body_done (data u : Bytes) (I : Idle W A rx h) (hc : W.cb ≤ h.length)
    (hn : W.rule.size (h.take W.cb) = some n) (hb : n + W.cb ≤ TCP_BUFFER_SIZE)
    (hlt : h.length ≤ n + W.cb) (hge : n + W.cb ≤ h.length + u.length)
    (hu : u.length ≤ TCP_BUFFER_SIZE) (cpcb : Int) :
    ∃ rx', tcpParseBody H rx data cpcb u u.length
        = .ok (((h.length + u.length - (n + W.cb) : Nat) : Int), rx') ∧
      rx'.posts = rx.posts ++ [deliver W A ((h ++ u).take (n + W.cb))] ∧ Idle W A rx' [] := by
  obtain ⟨p, hp, hpv⟩ := I.parse hc
  obtain ⟨h0, h1, hx, ht⟩ := body_some I hn
  obtain ⟨hB, _, _⟩ := sizes
  have hgood : ¬ ((n : Int) > TCP_MAXIMUM_PACKET_SIZE ∨ (n : Int) ≤ 0) := by omega
  have hsmall : ¬ ((n + W.cb : Nat) : Int) > TCP_BUFFER_SIZE := by omega
  have hle := I.le
  have hreach : cint (rx.ncb.tcp.rxParseOffset + (u.length : Int))
      = .ok ((h.length + u.length : Nat) : Int) := by
    rw [I.off]
    exact_mod_cast cint_nat (n := h.length + u.length) (by omega)
  have hge' : ((h.length + u.length : Nat) : Int) ≥ ((n + W.cb : Nat) : Int) := by omega
  have hneed : cint (((n + W.cb : Nat) : Int) - rx.ncb.tcp.rxParseOffset)
      = .ok ((n + W.cb - h.length : Nat) : Int) := by
    rw [I.off, Int.natCast_sub hlt |>.symm]
    exact cint_nat (by omega)
  have hret : cint ((u.length : Int) - ((n + W.cb - h.length : Nat) : Int))
      = .ok ((h.length + u.length - (n + W.cb) : Nat) : Int) := by
    have e : (u.length : Int) - ((n + W.cb - h.length : Nat) : Int)
        = ((h.length + u.length - (n + W.cb) : Nat) : Int) := by omega
    rw [e]
    exact cint_nat (by omega)
  have hfit : h.length + (n + W.cb - h.length) ≤ rx.ncb.packet.length := by rw [I.size]; omega
  have hsrc : n + W.cb - h.length ≤ u.length := by omega
  have hcp := memcpy_nat hfit hsrc
  have hlen := memcpy_length hfit hsrc
  have htk := memcpy_take hfit hsrc
  have e1 : h.length + (n + W.cb - h.length) = n + W.cb := by omega
  rw [I.held, e1] at hcp hlen htk
  have hframe : h ++ u.take (n + W.cb - h.length) = (h ++ u).take (n + W.cb) := by
    rw [List.take_append, List.take_of_length_le hlt]
  set pk := h ++ u.take (n + W.cb - h.length) ++ rx.ncb.packet.drop (n + W.cb) with hpk
  have hpl : pk.length = TCP_BUFFER_SIZE := by rw [hlen, I.size]
  rw [hframe] at htk
  refine ⟨{ (rx.setPacket pk).setTcp { rx.ncb.tcp with rxParseOffset := 0 } with
    posts := rx.posts ++ [deliver W A ((h ++ u).take (n + W.cb))] }, ?_, rfl, ?_⟩
  · unfold tcpParseBody
    simp only [hp, hpv, hx, if_neg hgood, ht, ok_bind, if_neg hsmall, hreach, if_pos hge', hneed]
    rw [I.off, hcp, ok_bind, hret, ok_bind, I.attr]
    cases hA : A.fullyReceive with
    | true =>
      rw [if_pos rfl, show (0 : Int) = ((0 : Nat) : Int) from rfl,
        post_ok _ (by rw [hpl]; omega), ok_bind]
      simp only [deliver, hA, if_true, List.drop_zero, htk]
      rfl
    | false =>
      rw [if_neg (by simp), I.tst, W.cb_eq, post_ok _ (by rw [hpl]; omega), ok_bind]
      have e : (pk.drop W.cb).take n = ((h ++ u).take (n + W.cb)).drop W.cb := by
        rw [← htk, List.drop_take, Nat.add_sub_cancel]
      simp only [deliver, hA, Bool.false_eq_true, if_false, e]
      rfl
  · exact ⟨I.tst, I.attr, hpl, I.lb, rfl, rfl⟩

/-- the packet is not complete yet -/
theorem body_more (data u : Bytes) (I : Idle W A rx h) (hc : W.cb ≤ h.length)
    (hn : W.rule.size (h.take W.cb) = some n) (hb : n + W.cb ≤ TCP_BUFFER_SIZE)
    (hlt : h.length + u.length < n + W.cb) (cpcb : Int) :
    ∃ rx', tcpParseBody H rx data cpcb u u.length = .ok (0, rx') ∧ rx'.posts = rx.posts ∧
      Idle W A rx' (h ++ u) := by
  obtain ⟨p, hp, hpv⟩ := I.parse hc
  obtain ⟨h0, h1, hx, ht⟩ := body_some I hn
  obtain ⟨hB, _, _⟩ := sizes
  have hgood : ¬ ((n : Int) > TCP_MAXIMUM_PACKET_SIZE ∨ (n : Int) ≤ 0) := by omega
  have hsmall : ¬ ((n + W.cb : Nat) : Int) > TCP_BUFFER_SIZE := by omega
  have hreach : cint (rx.ncb.tcp.rxParseOffset + (u.length : Int))
      = .ok ((h.length + u.length : Nat) : Int) := by
    rw [I.off]
    exact_mod_cast cint_nat (n := h.length + u.length) (by omega)
  have hge' : ¬ ((h.length + u.length : Nat) : Int) ≥ ((n + W.cb : Nat) : Int) := by omega
  have hfit : h.length + u.length ≤ rx.ncb.packet.length := by rw [I.size]; omega
  have hcp := memcpy_nat hfit (Nat.le_refl u.length)
  have hlen := memcpy_length hfit (Nat.le_refl u.length)
  have htk := memcpy_take hfit (Nat.le_refl u.length)
  rw [I.held, List.take_length] at hcp hlen htk
  refine ⟨(rx.setPacket (h ++ u ++ rx.ncb.packet.drop (h.length + u.length))).setTcp
    { rx.ncb.tcp with rxParseOffset := ((h.length + u.length : Nat) : Int) }, ?_, rfl, ?_⟩
  · unfold tcpParseBody
    simp only [hp, hpv, hx, if_neg hgood, ht, ok_bind, if_neg hsmall, hreach, if_neg hge']
    rw [I.off, hcp, ok_bind]
    rfl
  · refine ⟨I.tst, I.attr, by rw [Rx.setTcp_packet, Rx.setPacket_packet, hlen, I.size], I.lb, ?_, ?_⟩
    · rw [Rx.setTcp_tcp, List.length_append]
    · rw [Rx.setTcp_packet, Rx.setPacket_packet, List.length_append, htk]

/-! ## the whole call -/

theorem pkt_idle (I : Idle W A rx h) (hd : data ≠ []) :
    ((data.length : Int) = 0) = False ∧ ncbLbMarked rx.ncb = false ∧
      ¬ (rx.ncb.tcp.template.cb_ = 0 ∨ rx.ncb.tcp.template.parser_.isNone = true) := by
  obtain ⟨p, hp, _⟩ := W.local_
  have hpos : 0 < data.length := List.length_pos_iff.mpr hd
  have hcb := W.pos
  refine ⟨eq_false (by omega), ?_, ?_⟩
  · unfold ncbLbMarked
    rw [I.lb]
    rfl
  · rw [I.tst, W.cb_eq, hp]
    rintro (h | h)
    · omega
    · cases h

/-- the header is not complete yet -/
theorem pkt_short (I : Idle W A rx h) (hd : data ≠ []) (hl : h.length + data.length < W.cb) :
    ∃ rx', tcpParsePkt H rx data data.length = .ok (0, rx') ∧ rx'.posts = rx.posts ∧
      Idle W A rx' (h ++ data) := by
  obtain ⟨h0, hmk, hno⟩ := pkt_idle I hd
  obtain ⟨hB, _, hT⟩ := sizes
  have hle := W.le
  have hreach : cint (rx.ncb.tcp.rxParseOffset + (data.length : Int))
      = .ok ((h.length + data.length : Nat) : Int) := by
    rw [I.off]
    exact_mod_cast cint_nat (n := h.length + data.length) (by omega)
  have hlt : ((h.length + data.length : Nat) : Int) < rx.ncb.tcp.template.cb_ := by
    rw [I.tst, W.cb_eq]
    omega
  have hfit : h.length + data.length ≤ rx.ncb.packet.length := by rw [I.size]; omega
  have hcp := memcpy_nat hfit (Nat.le_refl data.length)
  have hlen := memcpy_length hfit (Nat.le_refl data.length)
  have htk := memcpy_take hfit (Nat.le_refl data.length)
  rw [I.held, List.take_length] at hcp hlen htk
  refine ⟨(rx.setPacket (h ++ data ++ rx.ncb.packet.drop (h.length + data.length))).setTcp
    { rx.ncb.tcp with rxParseOffset := ((h.length + data.length : Nat) : Int) }, ?_, rfl, ?_⟩
  · unfold tcpParsePkt
    simp only [h0, if_false, if_neg hno, hmk, Bool.false_eq_true, hreach, ok_bind, if_pos hlt]
    rw [I.off, hcp, ok_bind]
    rfl
  · refine ⟨I.tst, I.attr, by rw [Rx.setTcp_packet, Rx.setPacket_packet, hlen, I.size], I.lb, ?_, ?_⟩
    · rw [Rx.setTcp_tcp, List.length_append]
    · rw [Rx.setTcp_packet, Rx.setPacket_packet, List.length_append, htk]

/-- with the header complete the call goes on in `tcpParseBody`, where `h'` is in the packet buffer
and `u` is not used yet -/
theorem pkt_head (I : Idle W A rx h) (hd : data ≠ []) (hl : W.cb ≤ h.length + data.length)
    (hdl : data.length ≤ TCP_BUFFER_SIZE) :
    ∃ rx' h' u, tcpParsePkt H rx data data.length
        = tcpParseBody H rx' data data.length u u.length ∧
      Idle W A rx' h' ∧ h' ++ u = h ++ data ∧ W.cb ≤ h'.length ∧ u.length ≤ data.length ∧
      (h'.length = h.length ∨ h'.length = W.cb) ∧ rx'.posts = rx.posts ∧
      rx'.mallocs = rx.mallocs := by
  obtain ⟨h0, hmk, hno⟩ := pkt_idle I hd
  obtain ⟨hB, _, hT⟩ := sizes
  have hle := W.le
  have hil := I.le
  have hreach : cint (rx.ncb.tcp.rxParseOffset + (data.length : Int))
      = .ok ((h.length + data.length : Nat) : Int) := by
    rw [I.off]
    exact_mod_cast cint_nat (n := h.length + data.length) (by omega)
  have hge : ¬ ((h.length + data.length : Nat) : Int) < rx.ncb.tcp.template.cb_ := by
    rw [I.tst, W.cb_eq]
    omega
  by_cases hs : h.length < W.cb
  · have hlt : rx.ncb.tcp.rxParseOffset < rx.ncb.tcp.template.cb_ := by
      rw [I.off, I.tst, W.cb_eq]
      omega
    have hused : cint (rx.ncb.tcp.template.cb_ - rx.ncb.tcp.rxParseOffset)
        = .ok ((W.cb - h.length : Nat) : Int) := by
      rw [I.off, I.tst, W.cb_eq, Int.natCast_sub (Nat.le_of_lt hs) |>.symm]
      exact cint_nat (by omega)
    have hov : cint ((data.length : Int) - ((W.cb - h.length : Nat) : Int))
        = .ok ((data.drop (W.cb - h.length)).length : Int) := by
      rw [List.length_drop, Int.natCast_sub (by omega) |>.symm]
      exact cint_nat (by omega)
    have hfit : h.length + (W.cb - h.length) ≤ rx.ncb.packet.length := by rw [I.size]; omega
    have hsrc : W.cb - h.length ≤ data.length := by omega
    have hcp := memcpy_nat hfit hsrc
    have hlen := memcpy_length hfit hsrc
    have htk := memcpy_take hfit hsrc
    have e1 : h.length + (W.cb - h.length) = W.cb := by omega
    rw [I.held, e1] at hcp hlen htk
    have hl' : (h ++ data.take (W.cb - h.length)).length = W.cb := by
      rw [List.length_append, List.length_take]
      omega
    refine ⟨(rx.setPacket (h ++ data.take (W.cb - h.length) ++ rx.ncb.packet.drop W.cb)).setTcp
      { rx.ncb.tcp with rxParseOffset := rx.ncb.tcp.template.cb_ },
      h ++ data.take (W.cb - h.length), data.drop (W.cb - h.length), ?_, ?_, ?_, ?_, ?_, ?_, rfl, rfl⟩
    · unfold tcpParsePkt
      simp only [h0, if_false, if_neg hno, hmk, Bool.false_eq_true, hreach, ok_bind, if_neg hge,
        if_pos hlt, hused, hov, Int.toNat_natCast]
      rw [I.off, hcp, ok_bind]
    · refine ⟨I.tst, I.attr, by rw [Rx.setTcp_packet, Rx.setPacket_packet, hlen, I.size], I.lb, ?_, ?_⟩
      · rw [Rx.setTcp_tcp, I.tst, W.cb_eq, hl']
      · rw [Rx.setTcp_packet, Rx.setPacket_packet, hl', htk]
    · rw [List.append_assoc, List.take_append_drop]
    · omega
    · rw [List.length_drop]
      omega
    · exact Or.inr hl'
  · have hlt : ¬ rx.ncb.tcp.rxParseOffset < rx.ncb.tcp.template.cb_ := by
      rw [I.off, I.tst, W.cb_eq]
      omega
    refine ⟨rx, h, data, ?_, I, rfl, by omega, Nat.le_refl _, Or.inl rfl, rfl, rfl⟩
    unfold tcpParsePkt
    simp only [h0, if_false, if_neg hno, hmk, Bool.false_eq_true, hreach, ok_bind, if_neg hge,
      if_neg hlt]

/-- the header is the same, wherever it is cut -/
theorem head_take {h h' u data : Bytes} {c : Nat} (e : h' ++ u = h ++ data) (hc : c ≤ h'.length) :
    h'.take c = (h ++ data).take c := by
  rw [← e, List.take_append_of_le_length hc]

theorem pkt_bad (I : Idle W A rx h) (hd : data ≠ []) (hdl : data.length ≤ TCP_BUFFER_SIZE)
    (hl : W.cb ≤ h.length + data.length) (hn : W.rule.size ((h ++ data).take W.cb) = none) :
    ∃ rx', tcpParsePkt H rx data data.length = .ok (-1, rx') ∧ rx'.posts = rx.posts := by
  obtain ⟨rx1, h', u, hp, I', e, hc, _, _, hpo, _⟩ := pkt_head (H := H) I hd hl hdl
  rw [← head_take e hc] at hn
  exact ⟨rx1, by rw [hp, body_bad I' hc hn], hpo⟩

theorem pkt_nomem (I : Idle W A rx h) (hd : data ≠ []) (hdl : data.length ≤ TCP_BUFFER_SIZE)
    (hl : W.cb ≤ h.length + data.length) (hn : W.rule.size ((h ++ data).take W.cb) = some n)
    (hb : TCP_BUFFER_SIZE < n + W.cb) (hm : H.malloc rx.mallocs (n + W.cb) = none) :
    ∃ rx', tcpParsePkt H rx data data.length = .ok (-1, rx') ∧ rx'.posts = rx.posts := by
  obtain ⟨rx1, h', u, hp, I', e, hc, _, _, hpo, hma⟩ := pkt_head (H := H) I hd hl hdl
  rw [← head_take e hc] at hn
  rw [← hma] at hm
  obtain ⟨rx2, h2, hpo2⟩ := body_nomem data u I' hc hn hb hm data.length u.length
  exact ⟨rx2, by rw [hp, h2], by rw [hpo2, hpo]⟩

theorem pkt_mark (I : Idle W A rx h) (hd : data ≠ []) (hdl : data.length ≤ TCP_BUFFER_SIZE)
    (hl : W.cb ≤ h.length + data.length) (hn : W.rule.size ((h ++ data).take W.cb) = some n)
    (hb : TCP_BUFFER_SIZE < n + W.cb) (hm : H.malloc rx.mallocs (n + W.cb) = some lb) :
    ∃ rx' lb', tcpParsePkt H rx data data.length = .ok (0, rx') ∧ rx'.posts = rx.posts ∧
      Big W A rx' lb' data.length ∧ lb'.length = n + W.cb ∧ lb'.take data.length = data := by
  obtain ⟨rx1, h', u, hp, I', e, hc, _, _, hpo, hma⟩ := pkt_head (H := H) I hd hl hdl
  rw [← head_take e hc] at hn
  rw [← hma] at hm
  obtain ⟨rx2, lb', h2, hpo2, hB, hlb, htk⟩ := body_mark (u := u) I' hc hn hb hm hd hdl u.length
  exact ⟨rx2, lb', by rw [hp, h2], by rw [hpo2, hpo], hB, hlb, htk⟩

theorem pkt_done (I : Idle W A rx h) (hd : data ≠ []) (hdl : data.length ≤ TCP_BUFFER_SIZE)
    (hn : W.rule.size ((h ++ data).take W.cb) = some n) (hb : n + W.cb ≤ TCP_BUFFER_SIZE)
    (hlt : h.length ≤ n + W.cb) (hge : n + W.cb ≤ h.length + data.length) :
    ∃ rx', tcpParsePkt H rx data data.length
        = .ok (((h.length + data.length - (n + W.cb) : Nat) : Int), rx') ∧
      rx'.posts = rx.posts ++ [deliver W A ((h ++ data).take (n + W.cb))] ∧ Idle W A rx' [] := by
  obtain ⟨rx1, h', u, hp, I', e, hc, hul, hor, hpo, _⟩ := pkt_head (H := H) I hd (by omega) hdl
  rw [← head_take e hc] at hn
  have hlen : h'.length + u.length = h.length + data.length := by
    rw [← List.length_append, e, List.length_append]
  have hcb : h'.length ≤ n + W.cb := by omega
  obtain ⟨rx2, h2, hpo2, I2⟩ := body_done (H := H) data u I' hc hn hb hcb (by omega)
    (by omega) data.length
  refine ⟨rx2, ?_, ?_, I2⟩
  · rw [hp, h2, hlen]
  · rw [hpo2, hpo, e]

theorem pkt_more (I : Idle W A rx h) (hd : data ≠ []) (hdl : data.length ≤ TCP_BUFFER_SIZE)
    (hl : W.cb ≤ h.length + data.length) (hn : W.rule.size ((h ++ data).take W.cb) = some n)
    (hb : n + W.cb ≤ TCP_BUFFER_SIZE) (hlt : h.length + data.length < n + W.cb) :
    ∃ rx', tcpParsePkt H rx data data.length = .ok (0, rx') ∧ rx'.posts = rx.posts ∧
      Idle W A rx' (h ++ data) := by
  obtain ⟨rx1, h', u, hp, I', e, hc, _, _, hpo, _⟩ := pkt_head (H := H) I hd hl hdl
  rw [← head_take e hc] at hn
  have hlen : h'.length + u.length = h.length + data.length := by
    rw [← List.length_append, e, List.length_append]
  obtain ⟨rx2, h2, hpo2, I2⟩ := body_more (H := H) data u I' hc hn hb (by omega) data.length
  refine ⟨rx2, ?_, ?_, ?_⟩
  · rw [hp, h2]
  · rw [hpo2, hpo]
  · rwa [e] at I2

/-! ## inside a large block -/

theorem pkt_big (B : Big W A rx lb o) (hd : data ≠ []) :
    tcpParsePkt H rx data data.length = tcpParseMarkedLb rx data data.length := by
  obtain ⟨p, hp, _⟩ := W.local_
  have hpos : 0 < data.length := List.length_pos_iff.mpr hd
  have hcb := W.pos
  have hb := B.big
  have hmk : ncbLbMarked rx.ncb = true := by
    unfold ncbLbMarked
    rw [B.blk, B.lbsize]
    simp only [Option.isSome_some, Bool.true_and, decide_eq_true_eq]
    omega
  have hno : ¬ (rx.ncb.tcp.template.cb_ = 0 ∨ rx.ncb.tcp.template.parser_.isNone = true) := by
    rw [B.tst, W.cb_eq, hp]
    rintro (h | h)
    · omega
    · cases h
  unfold tcpParsePkt
  simp only [eq_false (show ¬ (data.length : Int) = 0 by omega), if_false, if_neg hno, hmk, if_true]

theorem lb_more (B : Big W A rx lb o) (hd : data ≠ []) (hlt : o + data.length < lb.length) :
    ∃ rx' lb', tcpParsePkt H rx data data.length = .ok (0, rx') ∧ rx'.posts = rx.posts ∧
      Big W A rx' lb' (o + data.length) ∧ lb'.length = lb.length ∧
      lb'.take (o + data.length) = lb.take o ++ data := by
  obtain ⟨hB, hM, hT⟩ := sizes
  have hle := W.le
  have hlb := B.le
  have hreach : cint ((data.length : Int) + rx.ncb.tcp.lboffset)
      = .ok ((data.length + o : Nat) : Int) := by
    rw [B.lboff]
    exact_mod_cast cint_nat (n := data.length + o) (by omega)
  have hoff : cint (rx.ncb.tcp.lboffset + (data.length : Int))
      = .ok ((o + data.length : Nat) : Int) := by
    rw [B.lboff]
    exact_mod_cast cint_nat (n := o + data.length) (by omega)
  have hlt' : ((data.length + o : Nat) : Int) < rx.ncb.tcp.lbsize := by rw [B.lbsize]; omega
  have hfit : o + data.length ≤ lb.length := by omega
  have hcp := memcpy_nat hfit (Nat.le_refl data.length)
  have hlen := memcpy_length hfit (Nat.le_refl data.length)
  have htk := memcpy_take hfit (Nat.le_refl data.length)
  rw [List.take_length] at hcp hlen htk
  have hpos := B.pos
  have hbig := B.big
  refine ⟨rx.setTcp { rx.ncb.tcp with
    lbdata := some (lb.take o ++ data ++ lb.drop (o + data.length))
    lboffset := ((o + data.length : Nat) : Int) }, _, ?_, rfl, ?_, hlen, htk⟩
  · rw [pkt_big B hd]
    unfold tcpParseMarkedLb
    simp only [hreach, ok_bind, if_pos hlt', B.blk, Option.getD_some]
    rw [hoff, B.lboff, hcp, ok_bind, ok_bind]
    rfl
  · exact ⟨B.tst, B.attr, B.size, rfl, B.off, rfl, by rw [hlen]; exact B.lbsize, by omega,
      by rw [hlen]; omega, by rw [hlen]; omega, by rw [hlen]; omega⟩

theorem lb_done (B : Big W A rx lb o) (hd : data ≠ []) (hdl : data.length ≤ TCP_BUFFER_SIZE)
    (hge : lb.length ≤ o + data.length) :
    ∃ rx', tcpParsePkt H rx data data.length
        = .ok (((o + data.length - lb.length : Nat) : Int), rx') ∧
      rx'.posts = rx.posts ++ [deliver W A ((lb.take o ++ data).take lb.length)] ∧
      Idle W A rx' [] := by
  obtain ⟨hB, hM, hT⟩ := sizes
  have hle := W.le
  have hlb := B.le
  have hol := B.lt
  have hbig := B.big
  have hreach : cint ((data.length : Int) + rx.ncb.tcp.lboffset)
      = .ok ((data.length + o : Nat) : Int) := by
    rw [B.lboff]
    exact_mod_cast cint_nat (n := data.length + o) (by omega)
  have hge' : ¬ ((data.length + o : Nat) : Int) < rx.ncb.tcp.lbsize := by rw [B.lbsize]; omega
  have hov : cint (rx.ncb.tcp.lbsize - rx.ncb.tcp.lboffset)
      = .ok ((lb.length - o : Nat) : Int) := by
    rw [B.lbsize, B.lboff, Int.natCast_sub (Nat.le_of_lt hol) |>.symm]
    exact cint_nat (by omega)
  have hret : cint ((data.length : Int) - ((lb.length - o : Nat) : Int))
      = .ok ((o + data.length - lb.length : Nat) : Int) := by
    have e : (data.length : Int) - ((lb.length - o : Nat) : Int)
        = ((o + data.length - lb.length : Nat) : Int) := by omega
    rw [e]
    exact cint_nat (by omega)
  have hcb : cint (rx.ncb.tcp.lbsize - rx.ncb.tcp.template.cb_)
      = .ok ((lb.length - W.cb : Nat) : Int) := by
    rw [B.lbsize, B.tst, W.cb_eq, Int.natCast_sub (by omega) |>.symm]
    exact cint_nat (by omega)
  have hfit : o + (lb.length - o) ≤ lb.length := by omega
  have hsrc : lb.length - o ≤ data.length := by omega
  have hcp := memcpy_nat hfit hsrc
  have e1 : o + (lb.length - o) = lb.length := by omega
  have hframe : lb.take o ++ data.take (lb.length - o) = (lb.take o ++ data).take lb.length := by
    have hto : (lb.take o).length = o := by rw [List.length_take]; omega
    have h2 : (lb.take o).take lb.length = lb.take o := List.take_of_length_le (by omega)
    rw [List.take_append, h2, hto]
  rw [e1, List.drop_length, List.append_nil, hframe] at hcp
  set fr := (lb.take o ++ data).take lb.length with hfr
  have hfl : fr.length = lb.length := by
    rw [hfr, List.length_take, List.length_append, List.length_take]
    omega
  refine ⟨{ rx.setTcp { rx.ncb.tcp with lbdata := none, lboffset := 0, lbsize := 0 } with
    posts := rx.posts ++ [deliver W A fr] }, ?_, rfl, ?_⟩
  · rw [pkt_big B hd]
    unfold tcpParseMarkedLb
    simp only [hreach, ok_bind, if_neg hge', B.blk, Option.getD_some, hov]
    rw [B.lboff, hcp, ok_bind, B.attr]
    cases hA : A.fullyReceive with
    | true =>
      rw [if_pos rfl, B.lbsize, show (0 : Int) = ((0 : Nat) : Int) from rfl,
        post_ok _ (by rw [hfl]; omega), ok_bind, hret, ok_bind]
      simp only [deliver, hA, if_true, List.drop_zero, List.take_of_length_le (Nat.le_of_eq hfl)]
      rfl
    | false =>
      rw [if_neg (by simp), hcb, ok_bind, B.tst, W.cb_eq, post_ok _ (by rw [hfl]; omega), ok_bind,
        hret, ok_bind]
      have e : (fr.drop W.cb).take (lb.length - W.cb) = fr.drop W.cb := by
        rw [List.take_of_length_le (by rw [List.length_drop, hfl])]
      simp only [deliver, hA, Bool.false_eq_true, if_false, e]
      rfl
  · exact ⟨B.tst, B.attr, B.size, rfl, B.off, rfl⟩

end

end Swnet

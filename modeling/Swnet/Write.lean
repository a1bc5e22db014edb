import Swnet.TcpalSpec

/-!
# Building a packet

The part of `tcp_write` in front of `fifo_is_blocking`: the checks, the two ways to fill the buffer
and the node that is sent or queued.

* `tcpWriteNode`     the node, or the value that `tcp_write` returns;
* `writeNode_built`, `writeNode_some`  with a builder, the node holds the header and the payload and
                     nothing else.
-/

namespace Swnet
open CMem

/-- `struct tx_node`; `data` is the memory that the pointer of that name leads to -/
structure TxNode where
  data : Bytes
  wcb : Int
  offset : Int
deriving DecidableEq, Repr

/-- `sizeof(struct tx_node)` -/
abbrev TX_NODE_SIZE : Nat := 72

/-- `nis_serializer_t`: from the memory at `packet`, `origin` and `cb` to the return value and the
memory it leaves behind -/
abbrev Serializer := Bytes → Bytes → Int → Int × Bytes

/-- a call of user code that may write from `buffer + pos` on -/
def usrcall (buffer : Bytes) (pos : Int) (f : Bytes → Int × Bytes) : C (Int × Bytes) :=
  let r := f (buffer.drop pos.toNat)
  if 0 ≤ pos ∧ pos ≤ buffer.length ∧ r.2.length = (buffer.drop pos.toNat).length then
    .ok (r.1, buffer.take pos.toNat ++ r.2)
  else .error .bounds

/-- `malloc` of an `int`; a negative one is too large a `size_t` -/
def mallocInt (H : Heap) (k : Nat) (n : Int) : Option Bytes :=
  if n < 0 then none else H.malloc k n.toNat

/-- serialize data into packet or direct use data pointer by `origin` -/
def serializeData (buffer : Bytes) (pos : Int) (origin : Bytes) (cb : Int)
    (serializer : Option Serializer) : C (Int × Bytes) :=
  match serializer with
  | some s => usrcall buffer pos fun m => s m origin cb
  | none => do
    let b ← memcpy buffer pos origin cb
    return (0, b)

/-- the buffer of the packet; `k` counts the calls of `malloc` -/
def tcpWriteBuffer (H : Heap) (k : Nat) (ncb : Ncb) (origin : Bytes) (cb : Int)
    (serializer : Option Serializer) : C (Except Int Bytes) :=
  let template := ncb.tcp.template
  match (if ncb.attr.noBuild then none else template.builder_) with
  | none =>
    match mallocInt H k cb with
    | none => .ok (.error (-ENOMEM))
    | some buffer => do
      let p ← serializeData buffer 0 origin cb serializer
      if p.1 < 0 then return .error (-1) else return .ok p.2
  | some builder_ => do
    let packetLength ← cint (cb + template.cb_)
    match mallocInt H k packetLength with
    | none => return .error (-ENOMEM)
    | some buffer =>
      let q ← usrcall buffer 0 fun m => builder_ m cb
      if q.1 < 0 then return .error (-1)
      else
        let p ← serializeData q.2 template.cb_ origin cb serializer
        if p.1 < 0 then return .error (-1) else return .ok p.2

/-- `tcp_write` up to `fifo_is_blocking`.  `ready`: both handlers of the link are set; `ktcp`: the
state that `TCP_INFO` reports, if it can be had. -/
def tcpWriteNode (H : Heap) (k : Nat) (ncb : Ncb) (ready : Bool) (ktcp : Option Nat)
    (origin : Bytes) (cb : Int) (serializer : Option Serializer) : C (Except Int TxNode) :=
  if cb ≤ 0 ∨ cb > TCP_MAXIMUM_PACKET_SIZE then .ok (.error (-EINVAL))
  else if ready = false then .ok (.error (-EINVAL))
  else if ktcp.any (· ≠ TCP_ESTABLISHED) then .ok (.error (-1))
  else do
    match ← tcpWriteBuffer H k ncb origin cb serializer with
    | .error e => return .error e
    | .ok buffer =>
      match H.malloc (k + 1) TX_NODE_SIZE with
      | none => return .error (-ENOMEM)
      | some _ =>
        let wcb ← cint (cb + ncb.tcp.template.cb_)
        return .ok ⟨buffer, wcb, 0⟩

/-- `udp_write` up to `fifo_is_blocking`; the largest datagram is declared outside the library -/
def udpWriteNode (maxUdpUnit : Nat) (H : Heap) (k : Nat) (origin : Bytes) (cb : Int)
    (serializer : Option Serializer) : C (Except Int TxNode) :=
  if cb ≤ 0 ∨ cb > maxUdpUnit then .ok (.error (-EINVAL))
  else
    match mallocInt H k cb with
    | none => .ok (.error (-ENOMEM))
    | some buffer => do
      let p ← serializeData buffer 0 origin cb serializer
      if p.1 < 0 then return .error (-1)
      else
        match H.malloc (k + 1) TX_NODE_SIZE with
        | none => return .error (-ENOMEM)
        | some _ => return .ok ⟨p.2, cb, 0⟩

/-! ## what a builder promises -/

/-- the builder writes a header from which the parser reads `n` back -/
def Wire.Builds (W : Wire) (n : Nat) : Prop :=
  ∃ b, W.tst.builder_ = some b ∧ ∀ m : Bytes, W.cb ≤ m.length →
    0 ≤ (b m n).1 ∧ (b m n).2.length = m.length ∧ W.parse ((b m n).2.take W.cb) = some (n : Int)

theorem len4_builds {n : Nat} (hn : n ≤ TCP_MAXIMUM_PACKET_SIZE) : Wire.len4.Builds n := by
  refine ⟨_, rfl, fun m hm => ⟨Int.le_refl 0, ?_, ?_⟩⟩
  · show (le32Bytes n ++ m.drop 4).length = m.length
    have hm' : 4 ≤ m.length := hm
    rw [List.length_append, List.length_drop]
    show 4 + (m.length - 4) = m.length
    omega
  · show some (le32 ((le32Bytes n ++ m.drop 4).take 4)) = some (n : Int)
    have hs := sizes
    rw [le32_take]
    congr 1
    unfold le32 le32Bytes
    simp only [List.cons_append, List.getD_cons_zero, List.getD_cons_succ, List.nil_append,
      UInt8.toNat_ofNat']
    omega

/-- the payload `p` comes from `origin`: as it is, or written by the serializer -/
def Carries (serializer : Option Serializer) (origin p : Bytes) : Prop :=
  match serializer with
  | none => origin = p
  | some s => ∀ m : Bytes, m.length = p.length →
      0 ≤ (s m origin p.length).1 ∧ (s m origin p.length).2 = p

section
variable {W : Wire} {H : Heap} {ncb : Ncb} {serializer : Option Serializer} {origin p : Bytes}

theorem usrcall_ok {buffer : Bytes} {n : Nat} (f : Bytes → Int × Bytes) (hn : n ≤ buffer.length)
    (hf : (f (buffer.drop n)).2.length = (buffer.drop n).length) :
    usrcall buffer n f = .ok ((f (buffer.drop n)).1, buffer.take n ++ (f (buffer.drop n)).2) := by
  unfold usrcall
  rw [Int.toNat_natCast]
  exact if_pos ⟨by omega, by omega, hf⟩

theorem serialize_ok {n : Nat} (buffer : Bytes) (hc : Carries serializer origin p)
    (hb : buffer.length = n + p.length) :
    ∃ r, 0 ≤ r ∧ serializeData buffer n origin p.length serializer = .ok (r, buffer.take n ++ p) := by
  have hd : (buffer.drop n).length = p.length := by
    rw [List.length_drop]
    omega
  cases serializer with
  | none =>
    have ho : origin = p := hc
    subst ho
    refine ⟨0, Int.le_refl 0, ?_⟩
    unfold serializeData
    rw [memcpy_nat (by omega) (Nat.le_refl _), ok_bind, List.take_length,
      List.drop_eq_nil_of_le (by omega), List.append_nil]
    rfl
  | some s =>
    obtain ⟨h1, h2⟩ := hc (buffer.drop n) hd
    refine ⟨_, h1, ?_⟩
    unfold serializeData
    have hn : n ≤ buffer.length := by omega
    have hu := usrcall_ok (fun m => s m origin p.length) hn (by rw [h2, hd])
    dsimp only at hu ⊢
    rw [hu, h2]

theorem serialize_length {buffer : Bytes} {pos cb : Int} {r : Int × Bytes}
    (h : serializeData buffer pos origin cb serializer = .ok r) : r.2.length = buffer.length := by
  unfold serializeData at h
  cases serializer with
  | none =>
    dsimp only at h
    unfold memcpy at h
    split at h
    · rename_i hg
      cases h
      simp only [List.length_append, List.length_take, List.length_drop]
      omega
    · cases h
  | some s =>
    dsimp only at h
    unfold usrcall at h
    dsimp only at h
    split at h
    · rename_i hg
      cases h
      rw [List.length_append, hg.2.2, ← List.length_append, List.take_append_drop]
    · cases h

theorem usrcall_length {buffer : Bytes} {pos : Int} {f : Bytes → Int × Bytes} {r : Int × Bytes}
    (h : usrcall buffer pos f = .ok r) : r.2.length = buffer.length := by
  unfold usrcall at h
  dsimp only at h
  split at h
  · rename_i hg
    cases h
    rw [List.length_append, hg.2.2, ← List.length_append, List.take_append_drop]
  · cases h

theorem mallocInt_length {k : Nat} {n : Int} {m : Bytes} (h : mallocInt H k n = some m) :
    (m.length : Int) = n := by
  unfold mallocInt at h
  split at h
  · cases h
  · have h1 := H.size h
    omega

/-- The header is built, or there is none: the two cases in which the buffer is as long as `wcb`
says. -/
def Ncb.Framed (ncb : Ncb) : Prop :=
  (ncb.tcp.template.builder_.isSome = true ∧ ncb.attr.noBuild = false) ∨ ncb.tcp.template.cb_ = 0

theorem writeBuffer_length (hf : ncb.Framed) {k : Nat} {cb : Int} {b : Bytes}
    (h : tcpWriteBuffer H k ncb origin cb serializer = .ok (.ok b)) :
    (b.length : Int) = cb + ncb.tcp.template.cb_ := by
  unfold tcpWriteBuffer at h
  dsimp only at h
  cases hb : (if ncb.attr.noBuild = true then none else ncb.tcp.template.builder_) with
  | none =>
    have h0 : ncb.tcp.template.cb_ = 0 := by
      rcases hf with ⟨h1, h2⟩ | h1
      · rw [h2, if_neg (by decide)] at hb
        rw [hb] at h1
        cases h1
      · exact h1
    rw [hb] at h
    dsimp only at h
    cases hm : mallocInt H k cb with
    | none => rw [hm] at h; cases h
    | some m =>
      rw [hm] at h
      dsimp only at h
      cases hs : serializeData m 0 origin cb serializer with
      | error e => rw [hs] at h; cases h
      | ok r =>
        rw [hs, ok_bind] at h
        split at h
        · cases h
        · cases h
          rw [serialize_length hs, mallocInt_length hm, h0, Int.add_zero]
  | some builder_ =>
    rw [hb] at h
    dsimp only at h
    unfold cint at h
    split at h
    · rw [ok_bind] at h
      cases hm : mallocInt H k (cb + ncb.tcp.template.cb_) with
      | none => rw [hm] at h; cases h
      | some m =>
        rw [hm] at h
        dsimp only at h
        cases hu : usrcall m 0 (fun m => builder_ m cb) with
        | error e => rw [hu] at h; cases h
        | ok q =>
          rw [hu, ok_bind] at h
          split at h
          · cases h
          · cases hs : serializeData q.2 ncb.tcp.template.cb_ origin cb serializer with
            | error e => rw [hs] at h; cases h
            | ok r =>
              rw [hs, ok_bind] at h
              split at h
              · cases h
              · cases h
                rw [serialize_length hs, usrcall_length hu, mallocInt_length hm]
    · cases h

/-- the node holds the buffer, and says that it is `cb_` bytes longer than the payload -/
theorem writeNode_shape {k : Nat} {ready : Bool} {ktcp : Option Nat} {cb : Int} {node : TxNode}
    (h : tcpWriteNode H k ncb ready ktcp origin cb serializer = .ok (.ok node)) :
    0 < cb ∧ tcpWriteBuffer H k ncb origin cb serializer = .ok (.ok node.data) ∧
      node.wcb = cb + ncb.tcp.template.cb_ ∧ node.offset = 0 := by
  unfold tcpWriteNode at h
  split at h
  · cases h
  rename_i hcb
  split at h
  · cases h
  split at h
  · cases h
  cases hb : tcpWriteBuffer H k ncb origin cb serializer with
  | error e => rw [hb] at h; cases h
  | ok r =>
    rw [hb, ok_bind] at h
    cases r with
    | error e => cases h
    | ok b =>
      dsimp only at h
      cases hm : H.malloc (k + 1) TX_NODE_SIZE with
      | none => rw [hm] at h; cases h
      | some _ =>
        rw [hm] at h
        dsimp only at h
        unfold cint at h
        split at h
        · cases h
          exact ⟨by omega, rfl, rfl, rfl⟩
        · cases h

theorem writeNode_length (hf : ncb.Framed) {k : Nat} {ready : Bool} {ktcp : Option Nat} {cb : Int}
    {node : TxNode} (h : tcpWriteNode H k ncb ready ktcp origin cb serializer = .ok (.ok node)) :
    node.wcb = node.data.length ∧ node.offset = 0 := by
  obtain ⟨_, hb, hw, ho⟩ := writeNode_shape h
  exact ⟨hw.trans (writeBuffer_length hf hb).symm, ho⟩

/-- a template with a builder and no `LINKATTR_TCP_NO_BUILD` -/
theorem writeBuffer_built (hW : W.Builds p.length) (ht : ncb.tcp.template = W.tst)
    (hA : ncb.attr.noBuild = false) (hc : Carries serializer origin p)
    (hp : p.length ≤ TCP_MAXIMUM_PACKET_SIZE) {k : Nat} {m : Bytes}
    (hm : H.malloc k (p.length + W.cb) = some m) :
    ∃ hdr, hdr.length = W.cb ∧ W.parse hdr = some (p.length : Int) ∧
      tcpWriteBuffer H k ncb origin p.length serializer = .ok (.ok (hdr ++ p)) := by
  have hs := sizes
  have hle := W.le
  have hml := H.size hm
  obtain ⟨b, hb, hbs⟩ := hW
  obtain ⟨hb1, hb2, hb3⟩ := hbs m (by omega)
  have hhdr : ((b m p.length).2.take W.cb).length = W.cb := by
    rw [List.length_take, hb2]
    omega
  obtain ⟨r, hr, hw⟩ := serialize_ok (n := W.cb) (b m p.length).2 hc (by omega)
  refine ⟨(b m p.length).2.take W.cb, hhdr, hb3, ?_⟩
  have e : mallocInt H k ((p.length + W.cb : Nat) : Int) = some m := by
    unfold mallocInt
    rw [if_neg (by omega), Int.toNat_natCast, hm]
  have hu : usrcall m 0 (fun x => b x p.length) = .ok ((b m p.length).1, (b m p.length).2) :=
    usrcall_ok (n := 0) _ (Nat.zero_le _) hb2
  unfold tcpWriteBuffer
  rw [ht, hA]
  dsimp only
  rw [if_neg (show ¬ (false = true) by decide), W.cb_eq, hb]
  dsimp only
  rw [← Int.natCast_add, cint_nat (by omega), ok_bind, e]
  dsimp only
  rw [hu, ok_bind]
  dsimp only
  rw [if_neg (by omega), hw, ok_bind]
  dsimp only
  rw [if_neg (by omega)]
  rfl

theorem writeBuffer_nomem (hW : W.Builds p.length) (ht : ncb.tcp.template = W.tst)
    (hA : ncb.attr.noBuild = false) (hp : p.length ≤ TCP_MAXIMUM_PACKET_SIZE) {k : Nat}
    (hm : H.malloc k (p.length + W.cb) = none) :
    tcpWriteBuffer H k ncb origin p.length serializer = .ok (.error (-ENOMEM)) := by
  have hs := sizes
  have hle := W.le
  obtain ⟨b, hb, _⟩ := hW
  have e : mallocInt H k ((p.length + W.cb : Nat) : Int) = none := by
    unfold mallocInt
    rw [if_neg (by omega), Int.toNat_natCast, hm]
  unfold tcpWriteBuffer
  rw [ht, hA]
  dsimp only
  rw [if_neg (show ¬ (false = true) by decide), W.cb_eq, hb]
  dsimp only
  rw [← Int.natCast_add, cint_nat (by omega), ok_bind, e]
  rfl

/-- **What `tcp_write` builds**, where memory suffices and the link is up. -/
theorem writeNode_built (hW : W.Builds p.length) (ht : ncb.tcp.template = W.tst)
    (hA : ncb.attr.noBuild = false) (hH : H.Succeeds) (k : Nat) {ktcp : Option Nat}
    (hk : ktcp.any (· ≠ TCP_ESTABLISHED) = false) (hc : Carries serializer origin p)
    (hp0 : p ≠ []) (hp : p.length ≤ TCP_MAXIMUM_PACKET_SIZE) :
    ∃ hdr, hdr.length = W.cb ∧ W.parse hdr = some (p.length : Int) ∧
      tcpWriteNode H k ncb true ktcp origin p.length serializer
        = .ok (.ok ⟨hdr ++ p, (hdr ++ p).length, 0⟩) := by
  have hs := sizes
  have hle := W.le
  have hp1 := List.length_pos_iff.mpr hp0
  obtain ⟨m, hm, _⟩ := hH.get k (p.length + W.cb)
  obtain ⟨hdr, h1, h2, h3⟩ := writeBuffer_built hW ht hA hc hp hm
  obtain ⟨_, hn, _⟩ := hH.get (k + 1) TX_NODE_SIZE
  refine ⟨hdr, h1, h2, ?_⟩
  unfold tcpWriteNode
  rw [if_neg (by omega), if_neg (by decide), hk, if_neg (by decide), h3, ok_bind]
  dsimp only
  rw [hn, ht, W.cb_eq, ← Int.natCast_add]
  dsimp only
  rw [cint_nat (by omega), ok_bind, List.length_append, h1, Nat.add_comm]
  rfl

/-- **What `tcp_write` builds**, if it builds anything. -/
theorem writeNode_some (hW : W.Builds p.length) (ht : ncb.tcp.template = W.tst)
    (hA : ncb.attr.noBuild = false) (hc : Carries serializer origin p) {k : Nat} {ready : Bool}
    {ktcp : Option Nat} {node : TxNode}
    (h : tcpWriteNode H k ncb ready ktcp origin p.length serializer = .ok (.ok node)) :
    ∃ hdr, hdr.length = W.cb ∧ W.parse hdr = some (p.length : Int) ∧
      node = ⟨hdr ++ p, (hdr ++ p).length, 0⟩ := by
  have hs := sizes
  have hle := W.le
  unfold tcpWriteNode at h
  by_cases h1 : (p.length : Int) ≤ 0 ∨ (p.length : Int) > TCP_MAXIMUM_PACKET_SIZE
  · rw [if_pos h1] at h
    cases h
  rw [if_neg h1] at h
  by_cases h2 : ready = false
  · rw [if_pos h2] at h
    cases h
  rw [if_neg h2] at h
  by_cases h3 : ktcp.any (· ≠ TCP_ESTABLISHED) = true
  · rw [if_pos h3] at h
    cases h
  rw [if_neg h3] at h
  cases hm : H.malloc k (p.length + W.cb) with
  | none =>
    rw [writeBuffer_nomem hW ht hA (by omega) hm, ok_bind] at h
    cases h
  | some m =>
    obtain ⟨hdr, h4, h5, h6⟩ := writeBuffer_built hW ht hA hc (by omega) hm
    rw [h6, ok_bind] at h
    dsimp only at h
    cases hn : H.malloc (k + 1) TX_NODE_SIZE with
    | none =>
      rw [hn] at h
      cases h
    | some _ =>
      rw [hn, ht, W.cb_eq, ← Int.natCast_add] at h
      dsimp only at h
      rw [cint_nat (by omega), ok_bind] at h
      cases h
      refine ⟨hdr, h4, h5, ?_⟩
      rw [List.length_append, h4, Nat.add_comm]

end

end Swnet

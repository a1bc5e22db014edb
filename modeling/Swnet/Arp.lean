import Swnet.Ncb
import Swnet.Lib.Bytes
import Swnet.Registry

/-!
# ARP frames

`arp_nrequest` of `arp.c`, and the layout that `__arp_rx` of `arpio.c` reads.  The structures of `arp.h` are
packed: an `Ethernet_Head` of 14 bytes, and a `union arp_layer` of 46, of which the
`Address_Resolution_Protocol` takes 28.

* `Arp.arpNrequest`  the request, up to the node with its frame;
* `Arp.arpRxOnce`    `__arp_rx`;
* `Arp.arpFrame_iff` when two runs of a request make one frame.
-/

namespace Swnet
open CMem

namespace Arp

/-! ## the layout -/

/-- `sizeof(struct Ethernet_Head)` -/
abbrev ETHERNET_HEAD_SIZE : Nat := 14
/-- `sizeof(struct Address_Resolution_Protocol)` -/
abbrev ADDRESS_RESOLUTION_PROTOCOL_SIZE : Nat := 28
/-- `sizeof(union arp_layer)`, which is that of `Eth_Padding` -/
abbrev ARP_LAYER_SIZE : Nat := 46
abbrev NIS_P_ARP_SIZE : Nat := ETHERNET_HEAD_SIZE + ARP_LAYER_SIZE

abbrev ETH_P_IP : Nat := 0x0800
abbrev ARP_OP_REQ : Nat := 1
abbrev ARP_OP_REPLY : Nat := 2

/-- `htons`: the number whose bytes in memory are those of `v` in network order -/
def htons (v : Nat) : Nat := ofLE (toBE 2 v)

/-- `ntohl` -/
def ntohl (v : Nat) : Nat := ofBE (toLE 4 v)

/-- a physical address, six bytes -/
structure Phyaddr where
  bytes : Bytes
  size : bytes.length = 6
deriving DecidableEq

def BOARDCAST_PHYADDR : Phyaddr := ⟨[0xff, 0xff, 0xff, 0xff, 0xff, 0xff], rfl⟩

/-- `ncb->u.arp` -/
structure NcbArp where
  source : UInt32
  ifindex : Nat
  sourcePhyaddr : Phyaddr
deriving DecidableEq

/-- `struct Ethernet_Head`; the numbers are as they are in memory -/
structure EthernetHead where
  ethDestMac : Bytes
  ethSrceMac : Bytes
  ethLayerType : Nat
deriving DecidableEq, Repr

/-- `struct Address_Resolution_Protocol` -/
structure AddressResolutionProtocol where
  arpHardwareType : Nat
  arpProtocolType : Nat
  arpHardwareSize : Nat
  arpProtocolSize : Nat
  arpOpCode : Nat
  arpSenderMac : Bytes
  arpSenderIp : Nat
  arpTargetMac : Bytes
  arpTargetIp : Nat
deriving DecidableEq, Repr

/-- the head of a frame -/
def ethernetHead (frame : Bytes) : C EthernetHead := do
  let dest ← slice frame 0 6
  let srce ← slice frame 6 6
  let type ← slice frame 12 2
  return ⟨dest, srce, ofLE type⟩

/-- what is behind the head of a frame -/
def addressResolutionProtocol (frame : Bytes) : C AddressResolutionProtocol := do
  let hardwareType ← slice frame 14 2
  let protocolType ← slice frame 16 2
  let hardwareSize ← slice frame 18 1
  let protocolSize ← slice frame 19 1
  let opCode ← slice frame 20 2
  let senderMac ← slice frame 22 6
  let senderIp ← slice frame 28 4
  let targetMac ← slice frame 32 6
  let targetIp ← slice frame 38 4
  return ⟨ofLE hardwareType, ofLE protocolType, ofLE hardwareSize, ofLE protocolSize, ofLE opCode,
    senderMac, ofLE senderIp, targetMac, ofLE targetIp⟩

/-! ## `arp_nrequest` -/

/-- the assignments of `arp_nrequest`, in order, with the offsets of the fields -/
def arpWrites (ncb : NcbArp) (target : UInt32) : List (Nat × Bytes) :=
  [(0, BOARDCAST_PHYADDR.bytes),
   (6, ncb.sourcePhyaddr.bytes),
   (12, toLE 2 (htons ETH_P_ARP)),
   (14, toLE 2 (htons 1)),
   (16, toLE 2 (htons ETH_P_IP)),
   (18, toLE 1 6),
   (19, toLE 1 4),
   (20, toLE 2 (htons ARP_OP_REQ)),
   (22, ncb.sourcePhyaddr.bytes),
   (28, toLE 4 ncb.source.toNat),
   (32, BOARDCAST_PHYADDR.bytes),
   (38, toLE 4 target.toNat)]

/-- what `arp_nrequest` puts into its `struct tx_node`; all else there is 0 -/
structure ArpNode where
  data : Bytes
  wcb : Int
  offset : Int
  sllIfindex : Nat
deriving DecidableEq, Repr

/-- The answers inside of `arp_nrequest`: of `__arprefr`, of `malloc` for the frame, with what is in that
memory, and for the node, of `fifo_is_blocking`, of `arp_txn` and of `fifo_queue`. -/
structure ArpOut where
  refr : Int
  mem : Option (Nat → Byte)
  node : Bool
  blocking : Bool
  txn : Int
  queue : Int

/-- `arp_nrequest`, with the node that is handed to `arp_txn` or to `fifo_queue` -/
def arpNrequest (ncb : NcbArp) (target : UInt32) (o : ArpOut) : C (Int × Option ArpNode) :=
  if o.refr < 0 then .ok (o.refr, none)
  else
    match o.mem with
    | none => .ok (-ENOMEM, none)
    | some mem => do
      let arpRequest ← writeAll (bytesAt mem NIS_P_ARP_SIZE) (arpWrites ncb target)
      if o.node = false then return (-ENOMEM, none)
      else
        let node : ArpNode := ⟨arpRequest, NIS_P_ARP_SIZE, 0, ncb.ifindex⟩
        if o.blocking = false ∧ o.txn ≠ -EAGAIN then return (o.txn, some node)
        else if o.queue < 0 then return (o.queue, some node)
        else return (0, some node)

/-! ## `__arp_rx` -/

/-- `__arp_rx`: its answer, the packet buffer, and what is given to the callback.  `got` is what
`recvfrom(2)` has put into the buffer, or its `errno`. -/
def arpRxOnce (callback : Bool) (packet : Bytes) (got : Except Int Bytes) :
    C (Int × Bytes × Option AddressResolutionProtocol) :=
  match got with
  | .error errno =>
    if errno = EAGAIN then .ok (EAGAIN, packet, none)
    else if errno = EINTR then .ok (0, packet, none)
    else .ok (-1, packet, none)
  | .ok data => do
    let recvcb := min data.length NIS_P_ARP_SIZE
    let packet ← memcpy packet 0 data recvcb
    if recvcb = 0 then return (-1, packet, none)
    else if recvcb < NIS_P_ARP_SIZE then return (0, packet, none)
    else do
      let eth ← ethernetHead packet
      let arp ← addressResolutionProtocol packet
      if eth.ethLayerType = htons ETH_P_ARP ∧ arp.arpOpCode = htons ARP_OP_REPLY ∧ callback then
        return (0, packet, some { arp with
          arpSenderIp := ntohl arp.arpSenderIp
          arpTargetIp := ntohl arp.arpTargetIp })
      else return (0, packet, none)

/-! ## the frame of a request -/

/-- the fields of a request -/
def requestFields (ncb : NcbArp) (target : UInt32) : List Bytes :=
  [BOARDCAST_PHYADDR.bytes, ncb.sourcePhyaddr.bytes, toLE 2 (htons ETH_P_ARP), toLE 2 (htons 1),
    toLE 2 (htons ETH_P_IP), toLE 1 6, toLE 1 4, toLE 2 (htons ARP_OP_REQ), ncb.sourcePhyaddr.bytes,
    toLE 4 ncb.source.toNat, BOARDCAST_PHYADDR.bytes, toLE 4 target.toNat]

section
variable {ncb : NcbArp} {target : UInt32} {o : ArpOut} {v : Int} {node : ArpNode}

/-- the fields lie one behind the other -/
theorem arpWrites_place : arpWrites ncb target = place 0 (requestFields ncb target) := by
  simp only [arpWrites, requestFields, place, ncb.sourcePhyaddr.size, BOARDCAST_PHYADDR.size,
    toLE_length]

/-- they cover the two structures, and no more -/
theorem requestFields_length : (requestFields ncb target).flatten.length
    = ETHERNET_HEAD_SIZE + ADDRESS_RESOLUTION_PROTOCOL_SIZE := by
  simp only [requestFields, List.flatten_cons, List.flatten_nil, List.length_append, List.length_nil,
    ncb.sourcePhyaddr.size, BOARDCAST_PHYADDR.size, toLE_length]
  rfl

/-- the frame, with what `malloc` left behind the fields -/
def requestFrame (ncb : NcbArp) (target : UInt32) (mem : Nat → Byte) : Bytes :=
  (requestFields ncb target).flatten ++
    (bytesAt mem NIS_P_ARP_SIZE).drop (ETHERNET_HEAD_SIZE + ADDRESS_RESOLUTION_PROTOCOL_SIZE)

theorem requestFrame_length (mem : Nat → Byte) :
    (requestFrame ncb target mem).length = NIS_P_ARP_SIZE := by
  rw [requestFrame, List.length_append, requestFields_length, List.length_drop, bytesAt_length]
  rfl

theorem writes_frame (mem : Nat → Byte) :
    writeAll (bytesAt mem NIS_P_ARP_SIZE) (arpWrites ncb target)
      = .ok (requestFrame ncb target mem) := by
  have h := @writeAll_place [] (bytesAt mem NIS_P_ARP_SIZE) 0 (requestFields ncb target) rfl
    (by rw [requestFields_length, bytesAt_length]; decide)
  rw [requestFields_length, ← arpWrites_place] at h
  exact h

/-- what the node holds that `arp_nrequest` hands on -/
theorem nrequest_node (h : arpNrequest ncb target o = .ok (v, some node)) :
    ∃ mem, o.mem = some mem ∧ node = ⟨requestFrame ncb target mem, NIS_P_ARP_SIZE, 0, ncb.ifindex⟩ := by
  unfold arpNrequest at h
  split at h
  · exact nomatch h
  · split at h
    · exact nomatch h
    · rename_i mem hmem
      refine ⟨mem, hmem, ?_⟩
      rw [writes_frame, ok_bind] at h
      split at h
      · exact nomatch h
      · dsimp only at h
        split at h
        · cases h
          rfl
        · split at h <;> cases h <;> rfl

/-- A frame that is read as a request for `target` from the link. -/
structure ReadsBack (ncb : NcbArp) (target : UInt32) (frame : Bytes) : Prop where
  head : ethernetHead frame
    = .ok ⟨BOARDCAST_PHYADDR.bytes, ncb.sourcePhyaddr.bytes, htons ETH_P_ARP⟩
  layer : addressResolutionProtocol frame
    = .ok ⟨htons 1, htons ETH_P_IP, 6, 4, htons ARP_OP_REQ, ncb.sourcePhyaddr.bytes,
        ncb.source.toNat, BOARDCAST_PHYADDR.bytes, target.toNat⟩

theorem ofLE_toLE_lt {k n : Nat} (h : n < 256 ^ k) : ofLE (toLE k n) = n := by
  rw [ofLE_toLE, Nat.mod_eq_of_lt h]

/-- the `k`-th field of a request -/
theorem slice_requestFrame (mem : Nat → Byte) {k p n : Nat} {f : Bytes}
    (hf : (requestFields ncb target)[k]? = some f)
    (hp : ((requestFields ncb target).take k).flatten.length = p) (hn : f.length = n) :
    slice (requestFrame ncb target mem) p n = .ok f := by
  obtain ⟨hk, hf⟩ := List.getElem?_eq_some_iff.mp hf
  have hsplit : requestFields ncb target
      = (requestFields ncb target).take k ++ f :: (requestFields ncb target).drop (k + 1) := by
    rw [← hf, ← List.drop_eq_getElem_cons hk, List.take_append_drop]
  rw [requestFrame, hsplit]
  refine slice_place _ f _ _ ?_ hn
  exact hp

/-- the offset of the `k`-th field -/
theorem requestFields_offset (k : Nat) : ((requestFields ncb target).take k).flatten.length
    = (([6, 6, 2, 2, 2, 1, 1, 2, 6, 4, 6, 4] : List Nat).take k).sum := by
  have hmap : (requestFields ncb target).map List.length = [6, 6, 2, 2, 2, 1, 1, 2, 6, 4, 6, 4] := by
    simp only [requestFields, List.map_cons, List.map_nil, ncb.sourcePhyaddr.size,
      BOARDCAST_PHYADDR.size, toLE_length]
  rw [List.length_flatten, List.map_take, hmap]

theorem requestFrame_readsBack (mem : Nat → Byte) :
    ReadsBack ncb target (requestFrame ncb target mem) := by
  have field : ∀ {k p n : Nat} {f : Bytes}, (requestFields ncb target)[k]? = some f →
      (([6, 6, 2, 2, 2, 1, 1, 2, 6, 4, 6, 4] : List Nat).take k).sum = p → f.length = n →
        slice (requestFrame ncb target mem) p n = .ok f := fun hf hp hn =>
    slice_requestFrame mem hf ((requestFields_offset _).trans hp) hn
  have hmac := ncb.sourcePhyaddr.size
  have hcast := BOARDCAST_PHYADDR.size
  have h2 : ∀ v, (toLE 2 v).length = 2 := fun v => toLE_length 2 v
  have h4 : ∀ v, (toLE 4 v).length = 4 := fun v => toLE_length 4 v
  have hsrc : ofLE (toLE 4 ncb.source.toNat) = ncb.source.toNat := ofLE_toLE_lt ncb.source.toNat_lt
  have htgt : ofLE (toLE 4 target.toNat) = target.toNat := ofLE_toLE_lt target.toNat_lt
  generalize hframe : requestFrame ncb target mem = frame at field
  have dest : slice frame 0 6 = _ := field (k := 0) (p := 0) rfl rfl hcast
  have srce : slice frame 6 6 = _ := field (k := 1) (p := 6) rfl rfl hmac
  have type : slice frame 12 2 = _ := field (k := 2) (p := 12) rfl rfl (h2 _)
  have hardwareType : slice frame 14 2 = _ := field (k := 3) (p := 14) rfl rfl (h2 _)
  have protocolType : slice frame 16 2 = _ := field (k := 4) (p := 16) rfl rfl (h2 _)
  have hardwareSize : slice frame 18 1 = _ := field (k := 5) (p := 18) (n := 1) rfl rfl rfl
  have protocolSize : slice frame 19 1 = _ := field (k := 6) (p := 19) (n := 1) rfl rfl rfl
  have opCode : slice frame 20 2 = _ := field (k := 7) (p := 20) rfl rfl (h2 _)
  have senderMac : slice frame 22 6 = _ := field (k := 8) (p := 22) rfl rfl hmac
  have senderIp : slice frame 28 4 = _ := field (k := 9) (p := 28) rfl rfl (h4 _)
  have targetMac : slice frame 32 6 = _ := field (k := 10) (p := 32) rfl rfl hcast
  have targetIp : slice frame 38 4 = _ := field (k := 11) (p := 38) rfl rfl (h4 _)
  constructor
  · unfold ethernetHead
    rw [dest, ok_bind, srce, ok_bind, type, ok_bind]
    rfl
  · unfold addressResolutionProtocol
    rw [hardwareType, ok_bind, protocolType, ok_bind, hardwareSize, ok_bind, protocolSize, ok_bind,
      opCode, ok_bind, senderMac, ok_bind, senderIp, ok_bind, targetMac, ok_bind, targetIp, ok_bind,
      hsrc, htgt]
    rfl

/-- the frames of two runs -/
theorem requestFrame_eq {m1 m2 : Nat → Byte} :
    requestFrame ncb target m1 = requestFrame ncb target m2 ↔
      ∀ i, ETHERNET_HEAD_SIZE + ADDRESS_RESOLUTION_PROTOCOL_SIZE ≤ i → i < NIS_P_ARP_SIZE →
        m1 i = m2 i := by
  rw [requestFrame, requestFrame, List.append_right_inj, bytesAt_drop_eq]

/-- `__arp_rx` takes a request for no reply -/
theorem arpRxOnce_request (callback : Bool) {packet : Bytes} (hp : packet.length = NIS_P_ARP_SIZE)
    (mem : Nat → Byte) :
    arpRxOnce callback packet (.ok (requestFrame ncb target mem))
      = .ok (0, requestFrame ncb target mem, none) := by
  have hlen : (requestFrame ncb target mem).length = NIS_P_ARP_SIZE := requestFrame_length mem
  obtain ⟨hhead, hlayer⟩ : ReadsBack ncb target (requestFrame ncb target mem) :=
    requestFrame_readsBack mem
  have hmin : min (requestFrame ncb target mem).length NIS_P_ARP_SIZE = NIS_P_ARP_SIZE := by
    rw [hlen, min_self]
  have hcopy := memcpy_field (a := []) (f := packet) (c := []) rfl hlen hp
  rw [List.nil_append, List.append_nil, List.nil_append, List.append_nil] at hcopy
  have hcopy : memcpy packet 0 (requestFrame ncb target mem) (NIS_P_ARP_SIZE : Nat) = _ := hcopy
  have hop : ¬ htons ARP_OP_REQ = htons ARP_OP_REPLY := by decide
  unfold arpRxOnce
  dsimp only
  rw [hmin, hcopy, ok_bind, if_neg (by decide), if_neg (by decide), hhead, ok_bind, hlayer, ok_bind,
    if_neg fun h => hop h.2.1]
  rfl

end

/-- Two runs of `arp_nrequest` for one target hand on the same frame, which reads as that request, if
and only if `malloc` left the same bytes behind the `Address_Resolution_Protocol` in both. -/
theorem arpFrame_iff {ncb : NcbArp} {target : UInt32} {o1 o2 : ArpOut} {v1 v2 : Int}
    {n1 n2 : ArpNode} (h1 : arpNrequest ncb target o1 = .ok (v1, some n1))
    (h2 : arpNrequest ncb target o2 = .ok (v2, some n2)) :
    ∃ m1 m2, o1.mem = some m1 ∧ o2.mem = some m2 ∧
      (n1.data.length = NIS_P_ARP_SIZE ∧ n1 = n2 ∧ ReadsBack ncb target n1.data ∧
          ReadsBack ncb target n2.data ↔
        ∀ i, ETHERNET_HEAD_SIZE + ADDRESS_RESOLUTION_PROTOCOL_SIZE ≤ i → i < NIS_P_ARP_SIZE →
          m1 i = m2 i) := by
  obtain ⟨m1, hm1, rfl⟩ := nrequest_node h1
  obtain ⟨m2, hm2, rfl⟩ := nrequest_node h2
  refine ⟨m1, m2, hm1, hm2, fun h => ?_, fun h => ⟨?_, ?_, ?_, ?_⟩⟩
  · exact requestFrame_eq.mp (congrArg ArpNode.data h.2.1)
  · exact requestFrame_length m1
  · rw [requestFrame_eq.mpr h]
  · exact requestFrame_readsBack m1
  · exact requestFrame_readsBack m2

/-- a link with fresh memory that is zero in both runs -/
theorem arpFrame_iff_zeros : ∃ n,
    arpNrequest ⟨0x0201a8c0, 2, BOARDCAST_PHYADDR⟩ 0x0101a8c0
      ⟨0, some fun _ => 0, true, false, 60, 0⟩ = .ok (60, some n) ∧
    arpNrequest ⟨0x0201a8c0, 2, BOARDCAST_PHYADDR⟩ 0x0101a8c0
      ⟨0, some fun _ => 0, true, true, 0, 1⟩ = .ok (0, some n) ∧
    ReadsBack ⟨0x0201a8c0, 2, BOARDCAST_PHYADDR⟩ 0x0101a8c0 n.data := by
  have h1 : arpNrequest ⟨0x0201a8c0, 2, BOARDCAST_PHYADDR⟩ 0x0101a8c0
      ⟨0, some fun _ => 0, true, false, 60, 0⟩ = .ok (60, some _) := rfl
  have h2 : arpNrequest ⟨0x0201a8c0, 2, BOARDCAST_PHYADDR⟩ 0x0101a8c0
      ⟨0, some fun _ => 0, true, true, 0, 1⟩ = .ok (0, some _) := rfl
  obtain ⟨m1, m2, hm1, hm2, hiff⟩ := arpFrame_iff h1 h2
  cases hm1
  cases hm2
  obtain ⟨_, heq, hreads, _⟩ := hiff.mpr fun _ _ _ => rfl
  exact ⟨_, h1, heq ▸ h2, hreads⟩

/-- two runs that find other bytes in the heap -/
theorem arpFrame_stale : ∃ n1 n2,
    arpNrequest ⟨0x0201a8c0, 2, BOARDCAST_PHYADDR⟩ 0x0101a8c0
      ⟨0, some fun _ => 0, true, false, 60, 0⟩ = .ok (60, some n1) ∧
    arpNrequest ⟨0x0201a8c0, 2, BOARDCAST_PHYADDR⟩ 0x0101a8c0
      ⟨0, some fun _ => 0xaa, true, false, 60, 0⟩ = .ok (60, some n2) ∧
    n1.data.drop 42 = List.replicate 18 0 ∧ n2.data.drop 42 = List.replicate 18 0xaa ∧
    n1.data ≠ n2.data := by
  refine ⟨_, _, rfl, rfl, by decide +kernel, by decide +kernel, by decide +kernel⟩

end Arp

end Swnet

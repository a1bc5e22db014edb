import Swnet.Ncb

/-!
# Receiving datagrams

`udpio.c`, the receive half.  `MAX_UDP_UNIT` is a parameter; the packet buffer has that size.

* `udpRxOnce`, `udpRx`   `__udp_rx` and `udp_rx`;
* `keepsOpen_iff`        when `udp_rx` takes all that has arrived and the link stays open.
-/

namespace Swnet
open CMem

/-- `struct sockaddr_in`: the bytes of `sin_addr` and of `sin_port` in network order -/
structure SockaddrIn where
  sinAddr : UInt8 × UInt8 × UInt8 × UInt8
  sinPort : UInt8 × UInt8
deriving DecidableEq, Repr

/-- `inet_ntop(AF_INET, ..)` -/
def inetNtop (a : UInt8 × UInt8 × UInt8 × UInt8) : String :=
  toString a.1.toNat ++ "." ++ toString a.2.1.toNat ++ "." ++ toString a.2.2.1.toNat ++ "." ++
    toString a.2.2.2.toNat

/-- `ntohs` of two bytes in network order -/
def ntohs (p : UInt8 × UInt8) : Nat := p.1.toNat * 256 + p.2.toNat

/-- the packet of an `EVT_RECEIVEDATA` on a UDP link; `data` are the `Size` bytes at `Data` -/
structure UdpPacket where
  data : Bytes
  remoteAddress : String
  remotePort : Nat
deriving DecidableEq, Repr

/-- the packet buffer of the link, and what was given to its callback so far -/
structure UdpRx where
  packet : Bytes
  posts : List UdpPacket
deriving DecidableEq, Repr

/-- what `recvfrom(2)` answers: a datagram, empty or not, or an error -/
inductive Recvfrom where
  | datagram (data : Bytes) (remote : SockaddrIn)
  | err (errno : Int)
deriving DecidableEq, Repr

section
variable (maxUdpUnit : Nat) (callback : Bool)

/-- `__udp_rx`; `recvfrom(2)` cuts a datagram off that is longer than `MAX_UDP_UNIT` -/
def udpRxOnce (s : UdpRx) : Recvfrom → C (Int × UdpRx)
  | .datagram data remote => do
    let recvcb := min data.length maxUdpUnit
    let packet ← memcpy s.packet 0 data recvcb
    if recvcb = 0 then return (-1, { s with packet := packet })
    else do
      let bytes ← slice packet 0 recvcb
      let p : UdpPacket := ⟨bytes, inetNtop remote.sinAddr, ntohs remote.sinPort⟩
      return (0, ⟨packet, if callback then s.posts ++ [p] else s.posts⟩)
  | .err errno =>
    if errno = EAGAIN then .ok (EAGAIN, s)
    else if errno = EINTR then .ok (0, s)
    else .ok (-1, s)

/-- `udp_rx` against the answers of `recvfrom(2)`, with those that it has not asked for; `none` when it
asks for one more than there are -/
def udpRx : UdpRx → List Recvfrom → C (Option (Int × UdpRx × List Recvfrom))
  | _, [] => .ok none
  | s, r :: rs => do
    let p ← udpRxOnce maxUdpUnit callback s r
    if p.1 = 0 then udpRx p.2 rs else return some (p.1, p.2, rs)

end

/-- what the callback is to be given for a datagram that is not empty -/
def Recvfrom.packet? : Recvfrom → Option UdpPacket
  | .datagram data remote =>
    if data = [] then none else some ⟨data, inetNtop remote.sinAddr, ntohs remote.sinPort⟩
  | .err _ => none

/-- a datagram that `recvfrom(2)` need not cut off, or an interruption -/
def Recvfrom.Arrives (maxUdpUnit : Nat) : Recvfrom → Prop
  | .datagram data _ => data.length ≤ maxUdpUnit
  | .err errno => errno = EINTR

/-- the link behind a datagram -/
def UdpRx.received (callback : Bool) (s : UdpRx) (data : Bytes) (remote : SockaddrIn) : UdpRx :=
  ⟨data ++ s.packet.drop data.length,
    s.posts ++ if callback then (Recvfrom.datagram data remote).packet?.toList else []⟩

/-- `v` is not negative, nothing is left over, and every datagram that is not empty is given to the
callback, in order -/
def KeepsOpen (callback : Bool) (s : UdpRx) (rs : List Recvfrom) (v : Int) (s' : UdpRx)
    (rest : List Recvfrom) : Prop :=
  0 ≤ v ∧ rest = [] ∧
    s'.posts = s.posts ++ if callback then rs.filterMap Recvfrom.packet? else []

section
variable {maxUdpUnit : Nat} {callback : Bool} {s : UdpRx} {data : Bytes} {remote : SockaddrIn}

theorem packet_empty : (Recvfrom.datagram [] remote).packet? = none := rfl

theorem packet_some (h : data ≠ []) : (Recvfrom.datagram data remote).packet?
    = some ⟨data, inetNtop remote.sinAddr, ntohs remote.sinPort⟩ := if_neg h

/-- what `__udp_rx` does with a datagram: an empty one is taken for an error -/
theorem udpRxOnce_datagram (hs : s.packet.length = maxUdpUnit) (hd : data.length ≤ maxUdpUnit) :
    udpRxOnce maxUdpUnit callback s (.datagram data remote)
      = .ok (if data = [] then -1 else 0, s.received callback data remote) := by
  have hcopy := @memcpy_nat s.packet data 0 data.length
    (by omega) (Nat.le_refl _)
  rw [List.take_zero, List.nil_append, List.take_length, Nat.zero_add] at hcopy
  have hcopy : memcpy s.packet 0 data (data.length : Int) = _ := hcopy
  have hread : slice (data ++ s.packet.drop data.length) 0 (data.length : Int) = .ok data := by
    have h1 := @slice_nat (data ++ s.packet.drop data.length) 0 data.length
      (by rw [List.length_append]; omega)
    rw [List.drop_zero, List.take_left] at h1
    exact h1
  unfold udpRxOnce UdpRx.received
  simp only [Nat.min_eq_left hd, hcopy, ok_bind]
  by_cases h0 : data = []
  · subst h0
    rw [packet_empty]
    cases callback <;> simp <;> rfl
  · have hl : data.length ≠ 0 := fun h => h0 (List.length_eq_zero_iff.mp h)
    rw [if_neg hl, hread, ok_bind, if_neg h0, packet_some h0]
    cases callback
    · simp
      rfl
    · rfl

theorem received_length (hs : s.packet.length = maxUdpUnit) (hd : data.length ≤ maxUdpUnit) :
    (s.received callback data remote).packet.length = maxUdpUnit := by
  show (data ++ s.packet.drop data.length).length = _
  rw [List.length_append, List.length_drop]
  omega

/-- what is posted for a datagram comes before what the rest of the call posts -/
theorem keepsOpen_cons {rs rest : List Recvfrom} {v : Int} {s' : UdpRx} (h0 : data ≠ []) :
    KeepsOpen callback s (.datagram data remote :: rs) v s' rest ↔
      KeepsOpen callback (s.received callback data remote) rs v s' rest := by
  unfold KeepsOpen UdpRx.received
  rw [List.filterMap_cons, packet_some h0]
  cases callback <;> simp

end

/-- **When no datagram closes a UDP link.**  Whatever arrives in front of the `EAGAIN`. -/
theorem keepsOpen_iff (maxUdpUnit : Nat) (callback : Bool) (s : UdpRx) (rs : List Recvfrom)
    (hs : s.packet.length = maxUdpUnit) (hr : ∀ r, r ∈ rs → r.Arrives maxUdpUnit) :
    ∃ v s' rest, udpRx maxUdpUnit callback s (rs ++ [.err EAGAIN]) = .ok (some (v, s', rest)) ∧
      (KeepsOpen callback s rs v s' rest ↔ ∀ data remote, .datagram data remote ∈ rs → data ≠ []) := by
  induction rs generalizing s with
  | nil =>
    refine ⟨EAGAIN, s, [], rfl, fun _ _ _ h => absurd h List.not_mem_nil, fun _ => ⟨by decide, rfl, ?_⟩⟩
    simp
  | cons r rs ih =>
    have hrest : ∀ r, r ∈ rs → r.Arrives maxUdpUnit := fun q hq => hr q (List.mem_cons_of_mem _ hq)
    cases r with
    | err e =>
      have he : e = EINTR := hr _ (List.mem_cons_self ..)
      subst he
      obtain ⟨v, s', rest, h1, h2⟩ := ih s hs hrest
      refine ⟨v, s', rest, h1, ?_⟩
      have hk : KeepsOpen callback s (.err EINTR :: rs) v s' rest ↔ KeepsOpen callback s rs v s' rest :=
        Iff.rfl
      rw [hk, h2]
      simp
    | datagram data remote =>
      have hd : data.length ≤ maxUdpUnit := hr _ (List.mem_cons_self ..)
      have hone : udpRxOnce maxUdpUnit callback s (.datagram data remote) = _ :=
        udpRxOnce_datagram hs hd
      rw [List.cons_append]
      unfold udpRx
      rw [hone, ok_bind]
      by_cases h0 : data = []
      · rw [if_pos h0]
        refine ⟨_, _, _, rfl, fun hk => absurd hk.1 (show ¬ (0 : Int) ≤ -1 by decide), fun hall => ?_⟩
        exact absurd h0 (hall data remote (List.mem_cons_self ..))
      · rw [if_neg h0]
        obtain ⟨v, s', rest, h1, h2⟩ := ih _ (received_length hs hd) hrest
        refine ⟨v, s', rest, h1, ?_⟩
        rw [keepsOpen_cons h0, h2]
        refine ⟨fun hall d q hmem => ?_, fun hall d q hmem => hall d q (List.mem_cons_of_mem _ hmem)⟩
        rcases List.mem_cons.mp hmem with heq | hmem
        · cases heq
          exact h0
        · exact hall d q hmem

/-- a datagram of two bytes, an interruption, and one of one byte -/
def threeAnswers : List Recvfrom :=
  [.datagram [1, 2] ⟨(10, 0, 0, 7), (0, 53)⟩, .err EINTR, .datagram [3] ⟨(10, 0, 0, 8), (1, 0)⟩]

theorem keepsOpen_iff_threeAnswers : ∃ v s' rest,
    udpRx 4 true ⟨[0, 0, 0, 0], []⟩ (threeAnswers ++ [.err EAGAIN]) = .ok (some (v, s', rest)) ∧
      (KeepsOpen true ⟨[0, 0, 0, 0], []⟩ threeAnswers v s' rest ↔
        ∀ data remote, .datagram data remote ∈ threeAnswers → data ≠ []) := by
  refine keepsOpen_iff 4 true ⟨[0, 0, 0, 0], []⟩ threeAnswers rfl fun r hr => ?_
  simp only [threeAnswers, List.mem_cons, List.not_mem_nil, or_false] at hr
  rcases hr with rfl | rfl | rfl
  · exact show 2 ≤ 4 by decide
  · rfl
  · exact show 1 ≤ 4 by decide

/-- an empty datagram in front of another one -/
def emptyFirst : List Recvfrom :=
  [.datagram [] ⟨(10, 0, 0, 7), (0, 53)⟩, .datagram [3] ⟨(10, 0, 0, 8), (1, 0)⟩]

/-- the link goes, and the other datagram is not read -/
theorem emptyFirst_closes : (∀ r, r ∈ emptyFirst → r.Arrives 4) ∧ ∃ v s' rest,
    udpRx 4 true ⟨[0, 0, 0, 0], []⟩ (emptyFirst ++ [.err EAGAIN]) = .ok (some (v, s', rest)) ∧
      v < 0 ∧ rest ≠ [] ∧ ¬ KeepsOpen true ⟨[0, 0, 0, 0], []⟩ emptyFirst v s' rest := by
  refine ⟨fun r hr => ?_, _, _, _, rfl, by decide, by decide, fun hk => absurd hk.1 (by decide)⟩
  simp only [emptyFirst, List.mem_cons, List.not_mem_nil, or_false] at hr
  rcases hr with rfl | rfl
  · exact show 0 ≤ 4 by decide
  · exact show 1 ≤ 4 by decide

end Swnet

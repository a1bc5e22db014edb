import Swnet.Arp

/-!
# The interface of an ARP link

`arp_bindsource` over a list of `getifaddrs(3)`.  The addresses are memory behind a pointer, and a
sockaddr of any family begins with the two bytes of `sa_family`.  A null pointer that is followed is a
`Fault.bounds`.

* `arpBindsource`     the function;
* `BindsOwner`        the link is bound to the interface that has the address;
* `bindsOwner_iff`    for which lists that is so.
-/

namespace Swnet
open CMem Arp

abbrev AF_INET : Nat := 2
abbrev AF_INET6 : Nat := 10
abbrev AF_PACKET : Nat := 17

/-- a `struct ifaddrs`: the name of the interface, and what `ifa_addr` points at -/
structure Ifaddrs where
  ifaName : String
  ifaAddr : Option (Nat → Byte)

/-- `sa_family` -/
def saFamily (p : Nat → Byte) : Nat := ofLE (bytesAt p 2)

/-- `sin_addr.s_addr` of what is taken for a `struct sockaddr_in` -/
def sAddr (p : Nat → Byte) : UInt32 := UInt32.ofNat (ofLE (bytesAt (fun i => p (4 + i)) 4))

/-- What the kernel knows of an interface by its name: the index from `if_nametoindex`, and the physical
address from the `ioctl(2)` in `nis_getifmac`, which may fail. -/
structure Interfaces where
  ifNametoindex : String → Nat
  hwaddr : String → Option Phyaddr

/-- `nis_getifmac` on a buffer that holds `pyhaddr` -/
def Interfaces.nisGetifmac (I : Interfaces) (ethName : String) (pyhaddr : Phyaddr) : Phyaddr :=
  (I.hwaddr ethName).getD pyhaddr

/-- the loop of `arp_bindsource` -/
def ifsrc (srcIp : UInt32) : List Ifaddrs → C (Option Ifaddrs)
  | [] => .ok none
  | ifa :: ifs =>
    match ifa.ifaAddr with
    | none => .error .bounds
    | some p => if sAddr p = srcIp then .ok (some ifa) else ifsrc srcIp ifs

/-- `arp_bindsource`.  `srcIp` is what `inet_addr` makes of the source, and `ifs` the list of
`getifaddrs(3)`, or its `errno`. -/
def arpBindsource (I : Interfaces) (srcIp : UInt32) (ifs : Except Int (List Ifaddrs)) (ncb : NcbArp) :
    C (Int × NcbArp) :=
  match ifs with
  | .error errno => .ok (-errno, ncb)
  | .ok ifs => do
    match ← ifsrc srcIp ifs with
    | none => return (-ENOENT, ncb)
    | some ifa =>
      return (0, ⟨srcIp, I.ifNametoindex ifa.ifaName, I.nisGetifmac ifa.ifaName ncb.sourcePhyaddr⟩)

/-- an entry with this IPv4 address -/
def Ifaddrs.Owns (srcIp : UInt32) (ifa : Ifaddrs) : Prop :=
  ∃ p, ifa.ifaAddr = some p ∧ saFamily p = AF_INET ∧ sAddr p = srcIp

/-- an entry that `arp_bindsource` takes, or falls over -/
def Ifaddrs.Stops (srcIp : UInt32) (ifa : Ifaddrs) : Prop :=
  ∀ p, ifa.ifaAddr = some p → sAddr p = srcIp

/-- `ifa` is the first entry of the list with the property -/
def First (P : Ifaddrs → Prop) (ifs : List Ifaddrs) (ifa : Ifaddrs) : Prop :=
  ∃ us vs, ifs = us ++ ifa :: vs ∧ P ifa ∧ ∀ u ∈ us, ¬ P u

/-- No null pointer is followed; the answer is 0 exactly where an entry has the address, and then the
index and the physical address are those of the first such entry. -/
def BindsOwner (I : Interfaces) (srcIp : UInt32) (ifs : List Ifaddrs) (ncb : NcbArp) : Prop :=
  ∃ v ncb', arpBindsource I srcIp (.ok ifs) ncb = .ok (v, ncb') ∧
    (0 ≤ v ↔ ∃ ifa ∈ ifs, ifa.Owns srcIp) ∧
    ∀ ifa, First (Ifaddrs.Owns srcIp) ifs ifa →
      ncb' = ⟨srcIp, I.ifNametoindex ifa.ifaName, I.nisGetifmac ifa.ifaName ncb.sourcePhyaddr⟩

/-- Where the search stops there is an address, and it is an IPv4 address, or belongs to an interface
that cannot be told from the owner. -/
def StopsRight (I : Interfaces) (srcIp : UInt32) (ifs : List Ifaddrs) (ncb : NcbArp) : Prop :=
  ∀ ifa, First (Ifaddrs.Stops srcIp) ifs ifa →
    ∃ p, ifa.ifaAddr = some p ∧ (saFamily p = AF_INET ∨
      ∃ own, First (Ifaddrs.Owns srcIp) ifs own ∧
        I.ifNametoindex ifa.ifaName = I.ifNametoindex own.ifaName ∧
        I.nisGetifmac ifa.ifaName ncb.sourcePhyaddr = I.nisGetifmac own.ifaName ncb.sourcePhyaddr)

/-! ## the first entry -/

section
variable {P Q : Ifaddrs → Prop} {ifs : List Ifaddrs} {ifa ifb : Ifaddrs}

theorem first_cons_pos (h : P ifa) : First P (ifa :: ifs) ifa :=
  ⟨[], ifs, rfl, h, fun _ hu => absurd hu List.not_mem_nil⟩

theorem First.cons (h : ¬ P ifa) (hf : First P ifs ifb) : First P (ifa :: ifs) ifb := by
  obtain ⟨us, vs, rfl, hP, hus⟩ := hf
  refine ⟨ifa :: us, vs, rfl, hP, fun u hu => ?_⟩
  obtain rfl | hu := List.mem_cons.mp hu
  · exact h
  · exact hus u hu

theorem first_or_none (P : Ifaddrs → Prop) (ifs : List Ifaddrs) :
    (∃ ifa, First P ifs ifa) ∨ ∀ ifa ∈ ifs, ¬ P ifa := by
  induction ifs with
  | nil => exact .inr fun _ h => absurd h List.not_mem_nil
  | cons ifa ifs ih =>
    by_cases h : P ifa
    · exact .inl ⟨ifa, first_cons_pos h⟩
    · obtain ⟨ifb, hf⟩ | hnone := ih
      · exact .inl ⟨ifb, hf.cons h⟩
      · refine .inr fun u hu => ?_
        obtain rfl | hu := List.mem_cons.mp hu
        · exact h
        · exact hnone u hu

theorem First.mem (h : First P ifs ifa) : ifa ∈ ifs ∧ P ifa := by
  obtain ⟨us, vs, rfl, hP, -⟩ := h
  exact ⟨List.mem_append_right _ (List.mem_cons_self ..), hP⟩

/-- what comes first among more entries, and is one of the fewer, comes first among these -/
theorem First.mono (h : First P ifs ifa) (hPQ : ∀ u, Q u → P u) (hQ : Q ifa) : First Q ifs ifa := by
  obtain ⟨us, vs, hifs, -, hus⟩ := h
  exact ⟨us, vs, hifs, hQ, fun u hu hq => hus u hu (hPQ u hq)⟩

theorem First.unique (ha : First P ifs ifa) (hb : First P ifs ifb) : ifa = ifb := by
  induction ifs with
  | nil => exact absurd ha.mem.1 List.not_mem_nil
  | cons c ifs ih =>
    obtain ⟨us, vs, hu, hPa, hus⟩ := ha
    obtain ⟨us', vs', hu', hPb, hus'⟩ := hb
    cases us with
    | nil =>
      cases us' with
      | nil =>
        cases hu
        cases hu'
        rfl
      | cons c' us' =>
        cases hu
        cases hu'
        exact absurd hPa (hus' _ (List.mem_cons_self ..))
    | cons d us =>
      cases us' with
      | nil =>
        cases hu
        cases hu'
        exact absurd hPb (hus _ (List.mem_cons_self ..))
      | cons d' us' =>
        exact ih ⟨us, vs, (List.cons.inj hu).2, hPa, fun u hm => hus u (List.mem_cons_of_mem _ hm)⟩
          ⟨us', vs', (List.cons.inj hu').2, hPb, fun u hm => hus' u (List.mem_cons_of_mem _ hm)⟩

end

/-! ## the search -/

section
variable {srcIp : UInt32} {ifs : List Ifaddrs} {ifa : Ifaddrs} {p : Nat → Byte}

theorem Ifaddrs.Owns.stops (h : ifa.Owns srcIp) : ifa.Stops srcIp := by
  obtain ⟨p, hp, -, hs⟩ := h
  intro q hq
  rw [hp] at hq
  cases hq
  exact hs

/-- an entry that is passed by -/
theorem not_stops (h : ¬ ifa.Stops srcIp) : ∃ p, ifa.ifaAddr = some p ∧ ¬ sAddr p = srcIp := by
  obtain ⟨p, hp⟩ := not_forall.mp h
  obtain ⟨hp, hs⟩ := Classical.not_imp.mp hp
  exact ⟨p, hp, hs⟩

theorem ifsrc_pass (h : ¬ ifa.Stops srcIp) : ifsrc srcIp (ifa :: ifs) = ifsrc srcIp ifs := by
  obtain ⟨p, hp, hs⟩ := not_stops h
  rw [ifsrc, hp]
  exact if_neg hs

theorem ifsrc_none (h : ∀ ifa ∈ ifs, ¬ ifa.Stops srcIp) : ifsrc srcIp ifs = .ok none := by
  induction ifs with
  | nil => rfl
  | cons ifa ifs ih =>
    rw [ifsrc_pass (h ifa (List.mem_cons_self ..))]
    exact ih fun u hu => h u (List.mem_cons_of_mem _ hu)

/-- the search up to where it stops -/
theorem ifsrc_first (h : First (Ifaddrs.Stops srcIp) ifs ifa) :
    ∃ vs, ifsrc srcIp ifs = ifsrc srcIp (ifa :: vs) := by
  obtain ⟨us, vs, rfl, -, hus⟩ := h
  refine ⟨vs, ?_⟩
  induction us with
  | nil => rfl
  | cons u us ih =>
    rw [List.cons_append, ifsrc_pass (hus u (List.mem_cons_self ..))]
    exact ih fun w hw => hus w (List.mem_cons_of_mem _ hw)

theorem ifsrc_taken (h : First (Ifaddrs.Stops srcIp) ifs ifa) (hp : ifa.ifaAddr = some p) :
    ifsrc srcIp ifs = .ok (some ifa) := by
  obtain ⟨vs, hvs⟩ := ifsrc_first h
  rw [hvs, ifsrc, hp]
  exact if_pos (h.mem.2 p hp)

theorem ifsrc_null (h : First (Ifaddrs.Stops srcIp) ifs ifa) (hp : ifa.ifaAddr = none) :
    ifsrc srcIp ifs = .error .bounds := by
  obtain ⟨vs, hvs⟩ := ifsrc_first h
  rw [hvs, ifsrc, hp]

end

/-- `arp_bindsource` binds to the owner of the address if and only if its search stops where it should. -/
theorem bindsOwner_iff (I : Interfaces) (srcIp : UInt32) (ifs : List Ifaddrs) (ncb : NcbArp) :
    BindsOwner I srcIp ifs ncb ↔ StopsRight I srcIp ifs ncb := by
  obtain ⟨ifa, hf⟩ | hnone := first_or_none (Ifaddrs.Stops srcIp) ifs
  · cases hp : ifa.ifaAddr with
    | none =>
      constructor
      · rintro ⟨v, ncb', hb, -⟩
        rw [arpBindsource, ifsrc_null hf hp] at hb
        exact nomatch hb
      · intro h
        obtain ⟨p, hp', -⟩ := h ifa hf
        rw [hp] at hp'
        exact nomatch hp'
    | some p =>
      have hb : arpBindsource I srcIp (.ok ifs) ncb = .ok (0, ⟨srcIp, I.ifNametoindex ifa.ifaName,
          I.nisGetifmac ifa.ifaName ncb.sourcePhyaddr⟩) := by
        rw [arpBindsource, ifsrc_taken hf hp]
        rfl
      constructor
      · rintro ⟨v, ncb', hb', hv, hown⟩ ifb hf'
        rw [hb] at hb'
        cases hb'
        cases hf.unique hf'
        obtain ⟨own, hmem⟩ := hv.mp (Int.le_refl 0)
        obtain ⟨own, hfo⟩ | hno := first_or_none (Ifaddrs.Owns srcIp) ifs
        · have h := hown own hfo
          exact ⟨p, hp, .inr ⟨own, hfo, congrArg NcbArp.ifindex h, congrArg NcbArp.sourcePhyaddr h⟩⟩
        · exact absurd hmem.2 (hno own hmem.1)
      · intro h
        obtain ⟨q, hq, hcase⟩ := h ifa hf
        rw [hp] at hq
        cases hq
        obtain ⟨own, hfo, hix, hmac⟩ : ∃ own, First (Ifaddrs.Owns srcIp) ifs own ∧
            I.ifNametoindex ifa.ifaName = I.ifNametoindex own.ifaName ∧
            I.nisGetifmac ifa.ifaName ncb.sourcePhyaddr
              = I.nisGetifmac own.ifaName ncb.sourcePhyaddr := by
          obtain hfam | hown := hcase
          · have howns : ifa.Owns srcIp := ⟨p, hp, hfam, hf.mem.2 p hp⟩
            exact ⟨ifa, hf.mono (fun _ hu => hu.stops) howns, rfl, rfl⟩
          · exact hown
        refine ⟨0, _, hb, ⟨fun _ => ⟨own, hfo.mem⟩, fun _ => Int.le_refl 0⟩, fun ifb hfb => ?_⟩
        cases hfo.unique hfb
        rw [hix, hmac]
  · have hno : ∀ ifa ∈ ifs, ¬ ifa.Owns srcIp := fun ifa hm ho => hnone ifa hm ho.stops
    have hb : arpBindsource I srcIp (.ok ifs) ncb = .ok (-ENOENT, ncb) := by
      rw [arpBindsource, ifsrc_none hnone]
      rfl
    have hneg : ¬ (0 : Int) ≤ -ENOENT := by decide
    constructor
    · exact fun _ ifa hf => absurd hf.mem.2 (hnone ifa hf.mem.1)
    · refine fun _ => ⟨-ENOENT, ncb, hb, ⟨fun h => absurd h hneg, ?_⟩, fun ifa hf => ?_⟩
      · rintro ⟨ifa, hm, ho⟩
        exact absurd ho (hno ifa hm)
      · exact absurd hf.mem.2 (hno ifa hf.mem.1)

/-- the memory of a sockaddr with this family and this byte at 4 -/
def sockaddrBytes (family addr : Byte) : Nat → Byte
  | 0 => family
  | 4 => addr
  | _ => 0

/-- An entry without an address in front of the owner; and an `AF_PACKET` entry there, whose
`sll_ifindex` reads as the source. -/
theorem bindsOther :
    ¬ BindsOwner ⟨fun n => n.length, fun _ => none⟩ (sAddr (sockaddrBytes 2 2))
      [⟨"tun0", none⟩, ⟨"lo", some (sockaddrBytes 2 2)⟩] ⟨0, 0, BOARDCAST_PHYADDR⟩ ∧
    ¬ BindsOwner ⟨fun n => n.length, fun _ => none⟩ (sAddr (sockaddrBytes 2 2))
      [⟨"eth0", some (sockaddrBytes 17 2)⟩, ⟨"lo", some (sockaddrBytes 2 2)⟩] ⟨0, 0, BOARDCAST_PHYADDR⟩ := by
  constructor
  · rintro ⟨v, ncb', hb, -⟩
    exact nomatch hb
  · rintro ⟨v, ncb', hb, -, hown⟩
    have hb' : (0, (⟨sAddr (sockaddrBytes 2 2), 4, BOARDCAST_PHYADDR⟩ : NcbArp)) = (v, ncb') :=
      Except.ok.inj hb
    have h := hown ⟨"lo", some (sockaddrBytes 2 2)⟩
      ⟨[⟨"eth0", some (sockaddrBytes 17 2)⟩], [], rfl, ⟨_, rfl, by decide, rfl⟩, fun u hu => ?_⟩
    · rw [← (Prod.mk.inj hb').2] at h
      exact absurd (congrArg NcbArp.ifindex h) (by decide)
    · rw [List.mem_singleton.mp hu]
      rintro ⟨p, hp, hfam, -⟩
      cases hp
      exact absurd hfam (by decide)

end Swnet

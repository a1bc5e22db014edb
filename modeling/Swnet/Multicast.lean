import Swnet.Ncb
import Swnet.Lib.Runs
import Swnet.Acts

/-!
# Multicast groups

`udp_joingrp` and `udp_dropgrp` on one link.  The address of its socket is a parameter.

* `Multicast.udpJoingrp`, `udpDropgrp`   the functions, with what they ask the kernel for;
* `Mcast.Right`                          the record names the group that the kernel was last given;
* `Multicast.recordRight_iff`            when that is so in a sequence of calls.
-/

namespace Swnet
open Runs

namespace Multicast

/-- `struct ip_mreq`: the group and the address of the interface -/
structure IpMreq where
  imrMultiaddr : Nat
  imrInterface : Nat
deriving DecidableEq, Repr

/-- `IP_ADD_MEMBERSHIP` and `IP_DROP_MEMBERSHIP`, with whether the kernel does it -/
inductive Membership where
  | add (m : IpMreq) (ok : Bool)
  | drop (m : IpMreq) (ok : Bool)
deriving DecidableEq, Repr

/-- the answers inside of `udp_joingrp`: of `setsockopt(2)` for `IP_MULTICAST_LOOP`, of `malloc`, and of
`setsockopt(2)` for `IP_ADD_MEMBERSHIP` -/
structure JoinOut where
  loop : Bool
  mem : Bool
  add : Bool
deriving DecidableEq, Repr

/-- the answers inside of `udp_dropgrp` -/
structure DropOut where
  loop : Bool
  drop : Bool
deriving DecidableEq, Repr

section
variable (localAddr : Nat)

/-- `udp_joingrp`: its answer, what it asks the kernel for, and the record behind it.  `ipstr` is the
address that `inet_addr` reads in the string, if there is a string, `refr` the answer of `__udprefr`, and
`multicast` the flag of the link. -/
def udpJoingrp (link : Int) (ipstr : Option Nat) (port : Nat) (refr : Int) (multicast : Bool)
    (mreq : Option IpMreq) (o : JoinOut) : Int × List Membership × Option IpMreq :=
  match ipstr with
  | none => (-EINVAL, [], mreq)
  | some addr =>
    if link < 0 ∨ port = 0 then (-EINVAL, [], mreq)
    else if refr < 0 then (refr, [], mreq)
    else if multicast = false then (-1, [], mreq)
    else if o.loop = false then (-1, [], mreq)
    -- `retval` is the 0 of the first `setsockopt(2)` here
    else if mreq = none ∧ o.mem = false then (0, [], mreq)
    else
      let m : IpMreq := ⟨addr, localAddr⟩
      (if o.add then 0 else -1, [.add m o.add], some m)

/-- `udp_dropgrp` -/
def udpDropgrp (refr : Int) (multicast : Bool) (mreq : Option IpMreq) (o : DropOut) :
    Int × List Membership × Option IpMreq :=
  if refr < 0 then (refr, [], mreq)
  else
    match multicast, mreq with
    | true, some m =>
      if o.loop = false then (-1, [], mreq)
      else (if o.drop then 0 else -1, [.drop m o.drop], mreq)
    | _, _ => (-1, [], mreq)

end

/-! ## the kernel -/

/-- the groups that the kernel has joined -/
def joined (ops : List Membership) : List IpMreq :=
  ops.foldl (fun ms op =>
    match op with
    | .add m true => ms.insert m
    | .drop m true => ms.filter (· ≠ m)
    | _ => ms) []

/-- the group of the last successful join -/
def lastJoined (ops : List Membership) : Option IpMreq :=
  ops.foldl (fun l op =>
    match op with
    | .add m true => some m
    | _ => l) none

theorem joined_add (ops : List Membership) (m : IpMreq) : m ∈ joined (ops ++ [.add m true]) := by
  rw [joined, List.foldl_append]
  exact List.mem_insert_self

theorem lastJoined_add (ops : List Membership) (m : IpMreq) :
    lastJoined (ops ++ [.add m true]) = some m := by
  rw [lastJoined, List.foldl_append]
  rfl

theorem lastJoined_failed (ops : List Membership) (m : IpMreq) :
    lastJoined (ops ++ [.add m false]) = lastJoined ops := by
  rw [lastJoined, List.foldl_append]
  rfl

theorem lastJoined_drop (ops : List Membership) (m : IpMreq) (ok : Bool) :
    lastJoined (ops ++ [.drop m ok]) = lastJoined ops := by
  rw [lastJoined, List.foldl_append]
  rfl

/-! ## a sequence of calls -/

/-- the last call, with its answer and what it asked the kernel for -/
inductive GrpDone where
  | join (ipstr : Option Nat) (retval : Int) (ops : List Membership)
  | drop (retval : Int) (ops : List Membership)

/-- a multicast link: its record, all that the kernel was asked for, and the last call -/
structure Mcast where
  mreq : Option IpMreq
  ops : List Membership
  done : Option GrpDone

def Mcast.start : Mcast := ⟨none, [], none⟩

inductive GrpCall where
  | join (link : Int) (ipstr : Option Nat) (port : Nat) (o : JoinOut)
  | drop (o : DropOut)

namespace Mcast
variable (localAddr : Nat)

/-- a call on the link, which exists -/
def step (s : Mcast) : GrpCall → Option Mcast
  | .join link ipstr port o =>
    let r := udpJoingrp localAddr link ipstr port 0 true s.mreq o
    some ⟨r.2.2, s.ops ++ r.2.1, some (.join ipstr r.1 r.2.1)⟩
  | .drop o =>
    let r := udpDropgrp 0 true s.mreq o
    some ⟨r.2.2, s.ops ++ r.2.1, some (.drop r.1 r.2.1)⟩

/-- The last call went as it should.  A join that is not negative has joined its group; one that has not
joined leaves the group of the last successful join in the record; a drop asks for that group. -/
def Right (s : Mcast) : Prop :=
  match s.done with
  | none => True
  | some (.join ipstr retval ops) =>
    (0 ≤ retval → ∃ addr, ipstr = some addr ∧ .add ⟨addr, localAddr⟩ true ∈ ops ∧
      ⟨addr, localAddr⟩ ∈ joined s.ops) ∧
    ((∀ m, .add m true ∉ ops) → s.mreq = lastJoined s.ops)
  | some (.drop _ ops) => ∃ ok, ops = (lastJoined s.ops).toList.map (Membership.drop · ok)

/-- In a join that comes so far, `malloc` does not fail, and the kernel refuses no group other than the
one in the record; a drop with a record can set `IP_MULTICAST_LOOP`. -/
def Keeps (s : Mcast) : GrpCall → Prop
  | .join link ipstr port o =>
    ∀ addr, ipstr = some addr → 0 ≤ link → port ≠ 0 → o.loop = true →
      (s.mreq = none → o.mem = true) ∧ (o.add = false → s.mreq = some ⟨addr, localAddr⟩)
  | .drop o => s.mreq ≠ none → o.loop = true

/-- the record names the group of the last successful join, and the last call went right -/
structure Inv (s : Mcast) : Prop where
  recorded : s.mreq = lastJoined s.ops
  right : s.Right localAddr

/-! ## one call -/

section
variable {localAddr} {s s' : Mcast} {link : Int} {ipstr : Option Nat} {port addr : Nat} {o : JoinOut}

/-- a join that is refused before it gets to the record -/
theorem join_refused (hI : s.Inv localAddr) {v : Int} (hv : v < 0) (ipstr : Option Nat) :
    Inv localAddr ⟨s.mreq, s.ops ++ [], some (.join ipstr v [])⟩ := by
  rw [List.append_nil]
  exact ⟨hI.recorded, fun h => absurd h (by omega), fun _ => hI.recorded⟩

/-- what `udp_joingrp` does where its arguments are in order and loopback can be set -/
theorem join_reaches (hl : 0 ≤ link) (hp : port ≠ 0) (ho : o.loop = true) (mreq : Option IpMreq) :
    udpJoingrp localAddr link (some addr) port 0 true mreq o
      = if mreq = none ∧ o.mem = false then (0, [], mreq)
        else (if o.add then 0 else -1, [.add ⟨addr, localAddr⟩ o.add], some ⟨addr, localAddr⟩) := by
  unfold udpJoingrp
  dsimp only
  rw [if_neg (fun h => h.elim (by omega) hp), if_neg (by decide), if_neg (by decide),
    if_neg (by rw [ho]; decide)]

/-- where it is not so, it answers with an error and has done nothing -/
theorem join_stops (h : ¬ ∃ addr, ipstr = some addr ∧ 0 ≤ link ∧ port ≠ 0 ∧ o.loop = true)
    (mreq : Option IpMreq) :
    ∃ v : Int, v < 0 ∧ udpJoingrp localAddr link ipstr port 0 true mreq o = (v, [], mreq) := by
  unfold udpJoingrp
  cases ipstr with
  | none => exact ⟨-EINVAL, by decide, rfl⟩
  | some addr =>
    dsimp only
    by_cases harg : link < 0 ∨ port = 0
    · rw [if_pos harg]
      exact ⟨-EINVAL, by decide, rfl⟩
    have hloop : o.loop = false := by
      refine Bool.eq_false_iff.mpr fun ho => h ⟨addr, rfl, ?_, ?_, ho⟩
      · exact Int.not_lt.mp fun hl => harg (.inl hl)
      · exact fun hp => harg (.inr hp)
    rw [if_neg harg, if_neg (by decide), if_neg (by decide), if_pos hloop]
    exact ⟨-1, by decide, rfl⟩

theorem join_inv (hI : s.Inv localAddr) (hC : s.Keeps localAddr (.join link ipstr port o))
    (h : s.step localAddr (.join link ipstr port o) = some s') : s'.Inv localAddr := by
  by_cases hr : ∃ addr, ipstr = some addr ∧ 0 ≤ link ∧ port ≠ 0 ∧ o.loop = true
  · obtain ⟨addr, rfl, hl, hp, ho⟩ := hr
    obtain ⟨hmem, hadd⟩ := hC addr rfl hl hp ho
    simp only [step, join_reaches hl hp ho] at h
    rw [if_neg (fun hn => by rw [hmem hn.1] at hn; exact nomatch hn.2)] at h
    cases h
    cases hok : o.add with
    | true =>
      refine ⟨(lastJoined_add ..).symm, fun _ => ⟨addr, rfl, ?_, joined_add ..⟩, fun hno => ?_⟩
      · exact List.mem_singleton.mpr rfl
      · exact absurd (List.mem_singleton.mpr rfl) (hno ⟨addr, localAddr⟩)
    -- the kernel refuses the group that is in the record
    | false =>
      have hrec : some ⟨addr, localAddr⟩ = lastJoined (s.ops ++ [.add ⟨addr, localAddr⟩ false]) := by
        rw [lastJoined_failed, ← hI.recorded, hadd hok]
      have hneg : ¬ (0 : Int) ≤ -1 := by decide
      exact ⟨hrec, fun h0 => absurd h0 hneg, fun _ => hrec⟩
  · obtain ⟨v, hv, hj⟩ := @join_stops localAddr link ipstr port o hr s.mreq
    simp only [step, hj] at h
    cases h
    exact join_refused hI hv ipstr

theorem drop_inv {o : DropOut} (hI : s.Inv localAddr) (hC : s.Keeps localAddr (.drop o))
    (h : s.step localAddr (.drop o) = some s') : s'.Inv localAddr := by
  have hrec := hI.recorded
  cases hm : s.mreq with
  | none =>
    simp only [step, udpDropgrp, hm] at h
    cases h
    rw [hm] at hrec
    refine ⟨?_, true, ?_⟩
    · show none = lastJoined (s.ops ++ [])
      rw [List.append_nil, ← hrec]
    · show [] = (lastJoined (s.ops ++ [])).toList.map _
      rw [List.append_nil, ← hrec]
      rfl
  | some m =>
    have ho : o.loop = true := hC (by rw [hm]; exact nofun)
    simp only [step, udpDropgrp, hm, ho] at h
    cases h
    rw [hm] at hrec
    refine ⟨?_, o.drop, ?_⟩
    · show some m = lastJoined (s.ops ++ [.drop m o.drop])
      rw [lastJoined_drop, ← hrec]
    · show [Membership.drop m o.drop] = (lastJoined (s.ops ++ [.drop m o.drop])).toList.map _
      rw [lastJoined_drop, ← hrec]
      rfl

theorem step_inv {a : GrpCall} (hI : s.Inv localAddr) (hC : s.Keeps localAddr a)
    (h : s.step localAddr a = some s') : s'.Inv localAddr := by
  cases a with
  | join link ipstr port o => exact join_inv hI hC h
  | drop o => exact drop_inv hI hC h

variable (localAddr) in
/-- every call ends -/
theorem run_some (s : Mcast) (as : List GrpCall) : ∃ t, run (step localAddr) s as = some t := by
  induction as generalizing s with
  | nil => exact ⟨s, rfl⟩
  | cons a as ih =>
    obtain ⟨s', hs'⟩ : ∃ s', s.step localAddr a = some s' := by
      cases a with
      | join link ipstr port o => exact ⟨_, rfl⟩
      | drop o => exact ⟨_, rfl⟩
    rw [run_cons, hs']
    exact ih s'

/-- a call that does not meet the condition goes wrong -/
theorem not_right {a : GrpCall} (hI : s.Inv localAddr) (hC : ¬ s.Keeps localAddr a)
    (h : s.step localAddr a = some s') : ¬ s'.Right localAddr := by
  have hrec := hI.recorded
  cases a with
  | join link ipstr port o =>
    simp only [Keeps, not_forall] at hC
    obtain ⟨addr, rfl, hl, hp, ho, hbad⟩ := hC
    simp only [step, join_reaches hl hp ho] at h
    by_cases hmal : s.mreq = none ∧ o.mem = false
    -- no memory for the record, and the answer is 0
    · rw [if_pos hmal] at h
      cases h
      intro hR
      obtain ⟨_, _, hm, _⟩ := hR.1 (Int.le_refl 0)
      exact absurd hm List.not_mem_nil
    · rw [if_neg hmal] at h
      cases h
      have hadd : o.add = false ∧ s.mreq ≠ some ⟨addr, localAddr⟩ := by
        by_contra hno
        refine hbad ⟨fun hnone => ?_, fun hok => ?_⟩
        · exact Bool.of_not_eq_false fun hmem => hmal ⟨hnone, hmem⟩
        · exact by_contra fun hne => hno ⟨hok, hne⟩
      intro hR
      refine hadd.2 ?_
      rw [hadd.1] at hR
      have hnew := hR.2 fun m hm => nomatch List.mem_singleton.mp hm
      rw [lastJoined_failed, ← hrec] at hnew
      exact hnew.symm
  | drop o =>
    simp only [Keeps, not_forall] at hC
    obtain ⟨hne, ho⟩ := hC
    obtain ⟨m, hm⟩ := Option.ne_none_iff_exists'.mp hne
    have ho : o.loop = false := Bool.eq_false_iff.mpr ho
    simp only [step, udpDropgrp, hm, ho] at h
    cases h
    rintro ⟨ok, hR⟩
    have hR : [] = (lastJoined (s.ops ++ [])).toList.map (Membership.drop · ok) := hR
    rw [List.append_nil, ← hrec, hm] at hR
    exact nomatch hR

end

end Mcast

/-- Membership and record stay together in a sequence of calls if and only if every call meets `Keeps`. -/
theorem recordRight_iff (localAddr : Nat) (as : List GrpCall) :
    Meets (Mcast.step localAddr) (Mcast.Keeps localAddr) Mcast.start as ↔
      ∀ bs, bs <+: as → ∀ s, run (Mcast.step localAddr) Mcast.start bs = some s →
        s.Right localAddr := by
  obtain ⟨t, ht⟩ := Mcast.run_some localAddr Mcast.start as
  exact meets_iff (Mcast.step localAddr) (I := Mcast.Inv localAddr) (D := fun _ _ => True)
    (fun _ a _ hI _ hC h => Mcast.step_inv hI hC h) (fun _ hI => hI.right)
    (fun _ _ _ hI hC h => Mcast.not_right hI hC h) ht (meets_all _ fun _ _ => trivial)
    ⟨rfl, trivial⟩

/-- A join without memory for the record is answered with 0; a join that the kernel refuses overwrites
the record, and the drop behind it asks for the wrong group. -/
theorem recordWrong :
    (∃ s, run (Mcast.step 0) Mcast.start [.join 1 (some 224) 5000 ⟨true, false, true⟩] = some s ∧
      s.done = some (.join (some 224) 0 []) ∧ joined s.ops = [] ∧ ¬ s.Right 0) ∧
    ∃ s, run (Mcast.step 0) Mcast.start [.join 1 (some 224) 5000 ⟨true, true, true⟩,
        .join 1 (some 225) 5000 ⟨true, true, false⟩, .drop ⟨true, false⟩] = some s ∧
      s.done = some (.drop (-1) [.drop ⟨225, 0⟩ false]) ∧ joined s.ops = [⟨224, 0⟩] ∧
      ¬ s.Right 0 := by
  refine ⟨⟨_, rfl, rfl, rfl, fun hR => ?_⟩, _, rfl, rfl, rfl, fun hR => ?_⟩
  · obtain ⟨_, _, hm, _⟩ := hR.1 (Int.le_refl 0)
    exact absurd hm List.not_mem_nil
  · obtain ⟨ok, hasks⟩ := hR
    cases ok
    · exact absurd hasks (by decide)
    · exact absurd hasks (by decide)

end Multicast

end Swnet

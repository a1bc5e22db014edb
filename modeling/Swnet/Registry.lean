import Mathlib.Data.List.Nodup
import Mathlib.Data.List.Perm.Subperm
import Swnet.Lib.Clist
import Swnet.Lib.Bytes
import Swnet.Lib.Runs
import Swnet.Startup

/-!
# The registry of the links

`nl_head` and `nl_count` of `ncb.c`.  The head is at address 0, and a link is known by the address of its
`nl_entry`; the mutex makes each of the three functions one step.

* `Registry.ncbAllocator`, `ncbDeconstruct`, `ncbUninit`   the functions;
* `Registry.Inv s xs`   the list holds `xs`, and the counter counts right;
* `registry_counts`     so it is in every sequence of calls, and no call goes wrong;
* `shutdown_iff`        when `tcp_uninit` and `udp_uninit` close the links of their I/O block.
-/

namespace Swnet
open CMem Clist Runs

/-- what `ncb_uninit` reads of a link -/
structure NcbId where
  protocol : Int
  hld : Int
deriving DecidableEq, Repr

/-- The registry, with what the links are.  `alive` are the links that are allocated and not yet
deconstructed, and `takenOut` those among them that an `ncb_uninit` has met. -/
structure Registry where
  nlHead : Links
  nlCount : Int
  ncb : Nat → NcbId
  alive : List Nat
  takenOut : List Nat

/-- the end of a process: a fault, or an assertion that fails -/
inductive Abort where
  | fault (f : Fault)
  | assertion
deriving DecidableEq, Repr

/-- the list in memory, the array of `ncb_uninit` and the number of handles in it -/
structure Collect where
  links : Links
  hlds : List Int
  nlCountProto : Nat

namespace Registry

/-- `LIST_HEAD(nl_head)` with no link -/
def start (m : Links) : Registry := ⟨m.init 0, 0, fun _ => ⟨0, 0⟩, [], []⟩

/-- `ncb_allocator`, for an object at `a` -/
def ncbAllocator (s : Registry) (a : Nat) : Registry :=
  { s with
    nlHead := s.nlHead.addTail a 0
    nlCount := s.nlCount + 1
    ncb := Function.update s.ncb a ⟨0, 0⟩
    alive := s.alive ++ [a] }

/-- the creator of a link sets its `protocol` and its `hld` -/
def setNcb (s : Registry) (a : Nat) (v : NcbId) : Registry :=
  { s with ncb := Function.update s.ncb a v }

/-- `ncb_deconstruct`, with its assertion -/
def ncbDeconstruct (s : Registry) (a : Nat) : Except Abort Registry :=
  let nlHead := s.nlHead.unlink a
  if s.nlCount > 0 then
    .ok { s with
      nlHead := nlHead
      nlCount := s.nlCount - 1
      alive := s.alive.erase a
      takenOut := s.takenOut.filter (· ≠ a) }
  else .error .assertion

/-- the body of the loop in `ncb_uninit` -/
def collect (ncb : Nat → NcbId) (protocol : Int) (cursor : Nat) (w : Collect) : C Collect :=
  if (ncb cursor).protocol = protocol then
    let links := w.links.unlink cursor
    if w.nlCountProto < w.hlds.length then
      .ok ⟨links, w.hlds.set w.nlCountProto (ncb cursor).hld, w.nlCountProto + 1⟩
    else .error .bounds
  else .ok w

/-- `ncb_uninit`, with the handles that it gives to `objclos`, in order.  `mem` is the memory that
`malloc` finds for the array. -/
def ncbUninit (s : Registry) (protocol : Int) (mem : Option (Nat → Int)) : C (Registry × List Int) :=
  if s.nlCount ≤ 0 then .ok (s, [])
  else
    match mem with
    | none => .ok (s, [])
    | some mem => do
      let n := s.nlCount.toNat
      let w ← forEachSafe Collect.links 0 (collect s.ncb protocol) (n + 1) (s.nlHead.next 0)
        ⟨s.nlHead, (List.range n).map mem, 0⟩
      return ({ s with
        nlHead := w.links
        takenOut := s.takenOut ++ s.alive.filter fun a => (s.ncb a).protocol = protocol },
        w.hlds.take w.nlCountProto)

end Registry

/-! ## the walk -/

section
variable {m : Links} {ncb : Nat → NcbId} {protocol : Int} {xs : List Nat}

/-- the links of a protocol, and the others -/
abbrev ofProto (ncb : Nat → NcbId) (protocol : Int) (xs : List Nat) : List Nat :=
  xs.filter fun a => (ncb a).protocol = protocol
abbrev notOfProto (ncb : Nat → NcbId) (protocol : Int) (xs : List Nat) : List Nat :=
  xs.filter fun a => ¬ (ncb a).protocol = protocol

/-- What the walk has done: `seen` is behind it, `ys` is to come, and `n` entries are in the array. -/
structure Walked (m : Links) (ncb : Nat → NcbId) (protocol : Int) (xs : List Nat) (n : Nat)
    (kept ys : List Nat) (w : Collect) : Prop where
  ring : Ring w.links 0 (kept ++ ys)
  split : ∃ seen, xs = seen ++ ys ∧ kept = notOfProto ncb protocol seen ∧
    w.nlCountProto = (ofProto ncb protocol seen).length ∧
    w.hlds.take w.nlCountProto = (ofProto ncb protocol seen).map (fun a => (ncb a).hld) ∧
    ∀ a ∈ ofProto ncb protocol seen, w.links.Alone a
  size : w.hlds.length = n
  apart : ∀ b, m.Alone b → b ∉ 0 :: xs → w.links.Alone b

theorem take_set {l : List Int} {i : Nat} {v : Int} (h : i < l.length) :
    (l.set i v).take (i + 1) = l.take i ++ [v] := by
  rw [List.take_add_one, List.getElem?_set_self h, List.take_set_of_le (Nat.le_refl i)]
  rfl

theorem ofProto_concat (seen : List Nat) {x : Nat} (h : (ncb x).protocol = protocol) :
    ofProto ncb protocol (seen ++ [x]) = ofProto ncb protocol seen ++ [x] ∧
      notOfProto ncb protocol (seen ++ [x]) = notOfProto ncb protocol seen := by
  constructor
  · rw [ofProto, List.filter_append, List.filter_cons_of_pos (by simpa using h)]
    rfl
  · rw [notOfProto, List.filter_append, List.filter_cons_of_neg (by simpa using h)]
    exact List.append_nil _

theorem notOfProto_concat (seen : List Nat) {x : Nat} (h : ¬ (ncb x).protocol = protocol) :
    ofProto ncb protocol (seen ++ [x]) = ofProto ncb protocol seen ∧
      notOfProto ncb protocol (seen ++ [x]) = notOfProto ncb protocol seen ++ [x] := by
  constructor
  · rw [ofProto, List.filter_append, List.filter_cons_of_neg (by simpa using h)]
    exact List.append_nil _
  · rw [notOfProto, List.filter_append, List.filter_cons_of_pos (by simpa using h)]
    rfl

theorem collect_walked {n : Nat} (hn : xs.length ≤ n) {kept ys : List Nat} {x : Nat} {w : Collect}
    (hnd : (0 :: xs).Nodup) (h : Walked m ncb protocol xs n kept (x :: ys) w) :
    ∃ w' kept', Registry.collect ncb protocol x w = .ok w' ∧ Walked m ncb protocol xs n kept' ys w' := by
  obtain ⟨seen, rfl, rfl, hcount, htake, halone⟩ := h.split
  have happ : seen ++ x :: ys = (seen ++ [x]) ++ ys := by rw [List.append_assoc]; rfl
  have hd : ∀ a ∈ seen, a ≠ 0 ∧ a ≠ x ∧ a ∉ ys := by
    intro a ha
    obtain ⟨h0, hnd⟩ := List.nodup_cons.mp hnd
    have hdis := (List.nodup_append.mp hnd).2.2 a ha
    exact ⟨fun h => h0 (h ▸ List.mem_append_left _ ha), hdis x (List.mem_cons_self ..),
      fun h => hdis a (List.mem_cons_of_mem _ h) rfl⟩
  unfold Registry.collect
  by_cases hp : (ncb x).protocol = protocol
  · have hroom : w.nlCountProto < w.hlds.length := by
      have hle : (ofProto ncb protocol seen).length ≤ seen.length := List.length_filter_le ..
      rw [List.length_append, List.length_cons] at hn
      rw [hcount, h.size]
      omega
    obtain ⟨hof, hnot⟩ := ofProto_concat seen hp
    obtain ⟨R, hx⟩ := h.ring.unlink
    rw [if_pos hp, if_pos hroom]
    refine ⟨_, _, rfl, R, ⟨seen ++ [x], happ, hnot.symm, ?_, ?_, ?_⟩, ?_, fun b hb hmem => ?_⟩
    · rw [hof, List.length_append, ← hcount]
      rfl
    · show (w.hlds.set w.nlCountProto _).take (w.nlCountProto + 1) = _
      rw [take_set hroom, htake, hof, List.map_append]
      rfl
    -- those that are out stay out when `x` goes
    · intro a ha
      rw [hof] at ha
      obtain ha | ha := List.mem_append.mp ha
      · obtain ⟨h0, hax, hays⟩ := hd a (List.mem_of_mem_filter ha)
        refine h.ring.alone_unlink (halone a ha) hax fun hmem => ?_
        obtain hmem | hmem := List.mem_cons.mp hmem
        · exact h0 hmem
        · obtain hmem | hmem := List.mem_append.mp hmem
          · exact of_decide_eq_true (List.mem_filter.mp hmem).2
              (of_decide_eq_true (List.mem_filter.mp ha).2)
          · exact hays hmem
      · rw [List.mem_singleton.mp ha]
        exact hx
    · rw [List.length_set]
      exact h.size
    · obtain ⟨h0, hmem⟩ := not_or.mp (fun h => hmem (List.mem_cons.mpr h))
      refine h.ring.alone_unlink (h.apart b hb fun hm => ?_) (fun hbx => ?_) fun hm => ?_
      · exact (List.mem_cons.mp hm).elim h0 hmem
      · exact hmem (by rw [hbx]; simp)
      · obtain hm | hm := List.mem_cons.mp hm
        · exact h0 hm
        · obtain hm | hm := List.mem_append.mp hm
          · exact hmem (List.mem_append_left _ (List.mem_of_mem_filter hm))
          · exact hmem (List.mem_append_right _ (List.mem_cons_of_mem _ hm))
  · obtain ⟨hof, hnot⟩ := notOfProto_concat seen hp
    rw [if_neg hp]
    refine ⟨w, _, rfl, ?_, ⟨seen ++ [x], happ, hnot.symm, ?_⟩, h.size, h.apart⟩
    · have hring := h.ring
      rwa [List.append_cons] at hring
    · rw [hof]
      exact ⟨hcount, htake, halone⟩

/-- What the loop of `ncb_uninit` comes to. -/
theorem walk_spec (ncb : Nat → NcbId) (protocol : Int) (R : Ring m 0 xs) (stale : List Int)
    (hn : xs.length ≤ stale.length) :
    ∃ w, forEachSafe Collect.links 0 (Registry.collect ncb protocol) (stale.length + 1) (m.next 0)
        ⟨m, stale, 0⟩ = .ok w ∧
      Ring w.links 0 (notOfProto ncb protocol xs) ∧
      w.hlds.take w.nlCountProto = (ofProto ncb protocol xs).map (fun a => (ncb a).hld) ∧
      (∀ a ∈ ofProto ncb protocol xs, w.links.Alone a) ∧
      ∀ b, m.Alone b → b ∉ 0 :: xs → w.links.Alone b := by
  have h0 : Walked m ncb protocol xs stale.length [] xs ⟨m, stale, 0⟩ :=
    ⟨R, ⟨[], rfl, rfl, rfl, rfl, fun _ h => absurd h List.not_mem_nil⟩, rfl, fun _ hb _ => hb⟩
  obtain ⟨w, kept, hw, h⟩ := forEachSafe_ring Collect.links 0 (Registry.collect ncb protocol)
    (I := Walked m ncb protocol xs stale.length) (fun _ _ _ h => h.ring)
    (fun _ _ _ _ h => collect_walked hn R.nodup h) (Nat.lt_succ_of_le hn) h0
  obtain ⟨seen, hseen, rfl, -, htake, halone⟩ := h.split
  rw [List.append_nil] at hseen
  subst hseen
  refine ⟨w, ?_, ?_, htake, halone, h.apart⟩
  · rw [R.next_root]
    exact hw
  · have hring := h.ring
    rwa [List.append_nil] at hring

end

/-! ## the invariant -/

namespace Registry

/-- The list holds `xs`: the links that are alive and not taken out.  What was taken out is in no list. -/
structure Inv (s : Registry) (xs : List Nat) : Prop where
  ring : Ring s.nlHead 0 xs
  count : s.nlCount = s.alive.length
  alive : (0 :: s.alive).Nodup
  mem : ∀ a, a ∈ xs ↔ a ∈ s.alive ∧ a ∉ s.takenOut
  out : ∀ a ∈ s.takenOut, a ∈ s.alive ∧ s.nlHead.Alone a

section
variable {s : Registry} {xs : List Nat} {a : Nat}

theorem start_inv (m : Links) : Inv (start m) [] :=
  ⟨ring_init m 0, rfl, List.nodup_singleton 0,
    fun _ => ⟨fun h => absurd h List.not_mem_nil, fun h => absurd h.1 List.not_mem_nil⟩,
    fun _ h => absurd h List.not_mem_nil⟩

/-- the inequality that the array of `ncb_uninit` rests on -/
theorem Inv.length_le (h : Inv s xs) : xs.length ≤ s.alive.length :=
  ((List.nodup_cons.mp h.ring.nodup).2.subperm fun a ha => ((h.mem a).mp ha).1).length_le

/-- what was taken out is not in the ring, and it is not the root -/
theorem Inv.out_apart (h : Inv s xs) (ha : a ∈ s.takenOut) : a ∉ 0 :: xs := by
  intro hm
  obtain hm | hm := List.mem_cons.mp hm
  · rw [hm] at ha
    exact (List.nodup_cons.mp h.alive).1 (h.out 0 ha).1
  · exact ((h.mem a).mp hm).2 ha

theorem allocator_inv (h : Inv s xs) (h0 : a ≠ 0) (ha : a ∉ s.alive) :
    Inv (s.ncbAllocator a) (xs ++ [a]) := by
  have hxs : a ∉ 0 :: xs := by
    intro hm
    obtain hm | hm := List.mem_cons.mp hm
    · exact h0 hm
    · exact ha ((h.mem a).mp hm).1
  have hout : a ∉ s.takenOut := fun hm => ha (h.out a hm).1
  refine ⟨h.ring.addTail hxs, ?_, ?_, fun b => ?_, fun b hb => ⟨?_, ?_⟩⟩
  · show s.nlCount + 1 = ((s.alive ++ [a]).length : Int)
    rw [h.count, List.length_append]
    rfl
  · have hnd := h.alive
    show (0 :: (s.alive ++ [a])).Nodup
    rw [← List.cons_append]
    refine List.nodup_append.mpr ⟨hnd, List.nodup_singleton a, fun b hb c hc => ?_⟩
    rw [List.mem_singleton.mp hc]
    rintro rfl
    exact (List.mem_cons.mp hb).elim h0 ha
  · show b ∈ xs ++ [a] ↔ b ∈ s.alive ++ [a] ∧ b ∉ s.takenOut
    rw [List.mem_append, List.mem_append, h.mem, List.mem_singleton, or_and_right]
    refine or_congr_right ⟨fun hb => ⟨hb, hb ▸ hout⟩, fun hb => hb.1⟩
  · exact List.mem_append_left _ (h.out b hb).1
  · exact h.ring.alone_addTail (h.out b hb).2 (fun hba => hout (hba ▸ hb)) (h.out_apart hb)

/-- `ncb_deconstruct`, for a link that is in the list or was taken out before -/
theorem deconstruct_inv (h : Inv s xs) (ha : a ∈ s.alive) :
    ∃ s', s.ncbDeconstruct a = .ok s' ∧ Inv s' (xs.erase a) := by
  have hpos : s.nlCount > 0 := by
    rw [h.count]
    exact Int.natCast_pos.mpr (List.length_pos_of_mem ha)
  have hnd : s.alive.Nodup := (List.nodup_cons.mp h.alive).2
  have hxs : xs.Nodup := (List.nodup_cons.mp h.ring.nodup).2
  have hlinks : Ring (s.nlHead.unlink a) 0 (xs.erase a) ∧
      ∀ b ∈ s.takenOut, b ≠ a → (s.nlHead.unlink a).Alone b := by
    by_cases hmem : a ∈ xs
    · obtain ⟨us, vs, rfl⟩ := List.append_of_mem hmem
      have hus : a ∉ us := fun hu => (List.nodup_append.mp hxs).2.2 a hu a (List.mem_cons_self ..) rfl
      rw [List.erase_append_right _ hus, List.erase_cons_head]
      refine ⟨h.ring.unlink.1, fun b hb hba => ?_⟩
      have hsub : (us ++ vs).Sublist (us ++ a :: vs) := (List.sublist_cons_self a vs).append_left us
      exact h.ring.alone_unlink (h.out b hb).2 hba fun hm =>
        h.out_apart hb ((hsub.cons_cons 0).subset hm)
    · have hout : a ∈ s.takenOut := by_contra fun hn => hmem ((h.mem a).mpr ⟨ha, hn⟩)
      rw [alone_unlink (h.out a hout).2, List.erase_of_not_mem hmem]
      exact ⟨h.ring, fun b hb _ => (h.out b hb).2⟩
  refine ⟨_, if_pos hpos, hlinks.1, ?_, ?_, fun b => ?_, fun b hb => ?_⟩
  · show s.nlCount - 1 = ((s.alive.erase a).length : Int)
    have hlen := List.length_erase_of_mem ha
    have := List.length_pos_of_mem ha
    rw [h.count, hlen]
    omega
  · exact h.alive.sublist (List.Sublist.cons_cons 0 (List.erase_sublist))
  · show b ∈ xs.erase a ↔ b ∈ s.alive.erase a ∧ b ∉ s.takenOut.filter (· ≠ a)
    rw [hxs.mem_erase_iff, hnd.mem_erase_iff, h.mem, List.mem_filter, decide_eq_true_eq]
    tauto
  · obtain ⟨hb, hba⟩ := List.mem_filter.mp hb
    have hba : b ≠ a := of_decide_eq_true hba
    exact ⟨hnd.mem_erase_iff.mpr ⟨hba, (h.out b hb).1⟩, hlinks.2 b hb hba⟩

/-- what `ncb_uninit` collects, and what it leaves behind -/
theorem uninit_inv (h : Inv s xs) (protocol : Int) (stale : Nat → Int) :
    ∃ s', s.ncbUninit protocol (some stale)
        = .ok (s', (ofProto s.ncb protocol xs).map fun a => (s.ncb a).hld) ∧
      Inv s' (notOfProto s.ncb protocol xs) ∧ s'.alive = s.alive ∧ s'.ncb = s.ncb := by
  unfold ncbUninit
  by_cases hpos : s.nlCount ≤ 0
  · have hnil : xs = [] := by
      have hlen := h.length_le
      rw [h.count] at hpos
      exact List.eq_nil_of_length_eq_zero (by omega)
    rw [if_pos hpos]
    subst hnil
    exact ⟨s, rfl, h, rfl, rfl⟩
  rw [if_neg hpos]
  have hn : s.nlCount.toNat = s.alive.length := by rw [h.count, Int.toNat_natCast]
  have hsize : ((List.range s.nlCount.toNat).map stale).length = s.nlCount.toNat := by
    rw [List.length_map, List.length_range]
  obtain ⟨w, hw, hring, htake, halone, hkeep⟩ := walk_spec s.ncb protocol h.ring
    ((List.range s.nlCount.toNat).map stale) (by rw [hsize, hn]; exact h.length_le)
  rw [hsize] at hw
  dsimp only
  rw [hw, ok_bind, htake]
  refine ⟨_, rfl, ⟨hring, h.count, h.alive, fun b => ?_, fun b hb => ?_⟩, rfl, rfl⟩
  · show b ∈ notOfProto s.ncb protocol xs ↔ b ∈ s.alive ∧ b ∉ s.takenOut ++ _
    rw [List.mem_filter, h.mem, List.mem_append, List.mem_filter, decide_eq_true_eq,
      decide_eq_true_eq]
    tauto
  · have hcases : b ∈ s.takenOut ∨ b ∈ ofProto s.ncb protocol xs := by
      by_cases hout : b ∈ s.takenOut
      · exact .inl hout
      · obtain hb | hb := List.mem_append.mp hb
        · exact .inl hb
        · obtain ⟨hal, hp⟩ := List.mem_filter.mp hb
          exact .inr (List.mem_filter.mpr ⟨(h.mem b).mpr ⟨hal, hout⟩, hp⟩)
    obtain hb | hb := hcases
    · exact ⟨(h.out b hb).1, hkeep b (h.out b hb).2 (h.out_apart hb)⟩
    · exact ⟨((h.mem b).mp (List.mem_of_mem_filter hb)).1, halone b hb⟩

end

/-! ## every sequence of calls -/

inductive Act where
  | alloc (a : Nat)
  | set (a : Nat) (v : NcbId)
  | deconstruct (a : Nat)
  | uninit (protocol : Int) (mem : Option (Nat → Int))

/-- An object is where no other one is; what is not alive is not deconstructed. -/
def step : Except Abort Registry → Act → Option (Except Abort Registry)
  | .error _, _ => none
  | .ok s, .alloc a => if a ≠ 0 ∧ a ∉ s.alive then some (.ok (s.ncbAllocator a)) else none
  | .ok s, .set a v => if a ∈ s.alive then some (.ok (s.setNcb a v)) else none
  | .ok s, .deconstruct a => if a ∈ s.alive then some (s.ncbDeconstruct a) else none
  | .ok s, .uninit protocol mem =>
    match s.ncbUninit protocol mem with
    | .error f => some (.error (.fault f))
    | .ok r => some (.ok r.1)

def Sound : Except Abort Registry → Prop
  | .error _ => False
  | .ok s => ∃ xs, Inv s xs

/-- `ncb_uninit`, also where `malloc` fails -/
theorem uninit_cases {s : Registry} {xs : List Nat} (h : Inv s xs) (protocol : Int)
    (mem : Option (Nat → Int)) :
    ∃ s' ys, s.ncbUninit protocol mem
      = .ok (s', if mem.isSome then (ofProto s.ncb protocol xs).map fun a => (s.ncb a).hld else []) ∧
      Inv s' ys := by
  cases mem with
  | none =>
    refine ⟨s, xs, ?_, h⟩
    unfold ncbUninit
    split <;> rfl
  | some stale =>
    obtain ⟨s', hs, hI, -⟩ := uninit_inv h protocol stale
    exact ⟨s', _, hs, hI⟩

theorem step_sound {s r : Except Abort Registry} {a : Act} (hs : Sound s) (h : step s a = some r) :
    Sound r := by
  cases s with
  | error f => exact hs.elim
  | ok s =>
    obtain ⟨xs, hI⟩ := hs
    cases a with
    | alloc a =>
      obtain ⟨⟨h0, ha⟩, h⟩ := Option.ite_none_right_eq_some.mp h
      cases h
      exact ⟨_, allocator_inv hI h0 ha⟩
    | set a v =>
      obtain ⟨-, h⟩ := Option.ite_none_right_eq_some.mp h
      cases h
      exact ⟨xs, hI.ring, hI.count, hI.alive, hI.mem, hI.out⟩
    | deconstruct a =>
      obtain ⟨ha, h⟩ := Option.ite_none_right_eq_some.mp h
      obtain ⟨s', hs', hI'⟩ := deconstruct_inv hI ha
      cases h
      rw [hs']
      exact ⟨_, hI'⟩
    | uninit protocol mem =>
      obtain ⟨s', ys, hs', hI'⟩ := uninit_cases hI protocol mem
      simp only [step, hs'] at h
      cases h
      exact ⟨ys, hI'⟩

theorem run_inv {m : Links} {as : List Act} {r : Except Abort Registry}
    (h : run step (.ok (start m)) as = some r) : ∃ s xs, r = .ok s ∧ Inv s xs := by
  have hr : Sound r := run_invariant step (I := Sound) (fun _ _ _ hs hstep => step_sound hs hstep) h
    ⟨[], start_inv m⟩
  cases r with
  | error f => exact hr.elim
  | ok s =>
    obtain ⟨xs, hI⟩ := hr
    exact ⟨s, xs, rfl, hI⟩

/-- What the registry says of the links, when its list holds `xs`. -/
structure Registered (s : Registry) (xs : List Nat) : Prop where
  count : s.nlCount = s.alive.length
  alive : s.alive.Nodup
  ring : Ring s.nlHead 0 xs
  once : xs.Nodup
  mem : ∀ a, a ∈ xs ↔ a ∈ s.alive ∧ a ∉ s.takenOut
  length : xs.length ≤ s.nlCount
  /-- the assertion of `ncb_deconstruct` holds -/
  deconstruct : ∀ a ∈ s.alive, ∃ s', s.ncbDeconstruct a = .ok s'
  /-- `ncb_uninit` stays inside its array, and has each link of the protocol in it once -/
  uninit : ∀ protocol mem, ∃ s', s.ncbUninit protocol mem
    = .ok (s', if mem.isSome then (ofProto s.ncb protocol xs).map fun a => (s.ncb a).hld else [])

theorem Inv.registered {s : Registry} {xs : List Nat} (h : Inv s xs) : Registered s xs where
  count := h.count
  alive := (List.nodup_cons.mp h.alive).2
  ring := h.ring
  once := (List.nodup_cons.mp h.ring.nodup).2
  mem := h.mem
  length := by
    rw [h.count]
    exact Int.ofNat_le.mpr h.length_le
  deconstruct a ha := by
    obtain ⟨s', hs', -⟩ := deconstruct_inv h ha
    exact ⟨s', hs'⟩
  uninit protocol mem := by
    obtain ⟨s', -, hs', -⟩ := uninit_cases h protocol mem
    exact ⟨s', hs'⟩

end Registry

/-- In every sequence of allocations, deconstructions and shutdowns no fault occurs and no assertion
fails, and the registry counts right. -/
theorem registry_counts (m : Links) (as : List Registry.Act) {r : Except Abort Registry}
    (h : run Registry.step (.ok (Registry.start m)) as = some r) :
    ∃ s xs, r = .ok s ∧ Registry.Registered s xs := by
  obtain ⟨s, xs, hr, hI⟩ := Registry.run_inv h
  exact ⟨s, xs, hr, hI.registered⟩

/-- two links, of which a shutdown takes one out before both are deconstructed -/
theorem registry_counts_twoLinks :
    ∃ s xs, run Registry.step (.ok (Registry.start ⟨fun _ => 9, fun _ => 9⟩))
      [.alloc 1, .set 1 ⟨6, 70⟩, .alloc 2, .set 2 ⟨17, 71⟩, .uninit 17 (some fun _ => -5),
        .deconstruct 2] = some (.ok s) ∧ s.nlCount = 1 ∧ Registry.Registered s xs := by
  have h : (run Registry.step (.ok (Registry.start ⟨fun _ => 9, fun _ => 9⟩))
      [.alloc 1, .set 1 ⟨6, 70⟩, .alloc 2, .set 2 ⟨17, 71⟩, .uninit 17 (some fun _ => -5),
        .deconstruct 2]).map (fun r => r.map Registry.nlCount) = some (.ok 1) := by
    decide
  obtain ⟨r, hr, hc⟩ := Option.map_eq_some_iff.mp h
  obtain ⟨s, xs, rfl, hs⟩ := registry_counts _ _ hr
  exact ⟨s, xs, hr, Except.ok.inj hc, hs⟩

/-! ## the shutdown of a module -/

abbrev IPPROTO_TCP : Int := 6
abbrev IPPROTO_UDP : Int := 17
abbrev ETH_P_ARP : Nat := 0x0806

/-- the number that `tcp_uninit` and `udp_uninit` give to `ncb_uninit` -/
def Ipproto.number : Ipproto → Int
  | .tcp => IPPROTO_TCP
  | .udp => IPPROTO_UDP

/-- whose handle `io_attach` takes for a link: `tcphld`, `udphld`, or none -/
def ioAttachSlot (protocol : Int) : Option Ipproto :=
  if IPPROTO_TCP = protocol then some .tcp
  else if IPPROTO_UDP = protocol ∨ ETH_P_ARP = protocol then some .udp
  else none

/-- `wp_queued` likewise -/
def wpQueuedSlot (protocol : Int) : Option Ipproto :=
  if IPPROTO_TCP = protocol then some .tcp
  else if IPPROTO_UDP = protocol ∨ ETH_P_ARP = protocol then some .udp
  else none

namespace Registry

/-- a link that is alive and that no shutdown has met -/
def Live (s : Registry) (a : Nat) : Prop := a ∈ s.alive ∧ a ∉ s.takenOut

/-- The handles `hs` are given to `objclos`: the live links of the I/O block `p`, which are those of the
pool as well, once each, and no other live link. -/
def ClosesOwn (s : Registry) (p : Ipproto) (hs : List Int) : Prop :=
  ∀ a, s.Live a →
    hs.count (s.ncb a).hld = (if ioAttachSlot (s.ncb a).protocol = some p then 1 else 0) ∧
    hs.count (s.ncb a).hld = (if wpQueuedSlot (s.ncb a).protocol = some p then 1 else 0)

/-- how the classes of `io_attach` differ from the filter of `ncb_uninit` -/
theorem slot_iff (protocol : Int) (p : Ipproto) :
    ioAttachSlot protocol = some p ↔ protocol = p.number ∨ p = .udp ∧ protocol = ETH_P_ARP := by
  unfold ioAttachSlot
  cases p with
  | tcp =>
    show _ ↔ protocol = IPPROTO_TCP ∨ Ipproto.tcp = .udp ∧ _
    split
    · rename_i h
      exact ⟨fun _ => .inl h.symm, fun _ => rfl⟩
    · rename_i h
      have hno : ¬ (protocol = IPPROTO_TCP ∨ Ipproto.tcp = .udp ∧ protocol = ETH_P_ARP) := by
        rintro (hp | ⟨hp, -⟩)
        · exact h hp.symm
        · cases hp
      split
      · exact ⟨fun h => (nomatch h), fun hp => absurd hp hno⟩
      · exact ⟨fun h => (nomatch h), fun hp => absurd hp hno⟩
  | udp =>
    show _ ↔ protocol = IPPROTO_UDP ∨ Ipproto.udp = .udp ∧ _
    split
    · rename_i h
      subst h
      exact ⟨fun h => (nomatch h), fun h => absurd h (by decide)⟩
    · split
      · rename_i h
        exact ⟨fun _ => h.imp Eq.symm fun h => ⟨rfl, h.symm⟩, fun _ => rfl⟩
      · rename_i h
        exact ⟨fun h => (nomatch h), fun hp => absurd (hp.imp Eq.symm fun hp => hp.2.symm) h⟩

/-- the orders for a live link -/
theorem count_closes {s : Registry} {xs : List Nat} (h : Inv s xs)
    (hd : (s.alive.map fun a => (s.ncb a).hld).Nodup) (protocol : Int) {a : Nat} (ha : s.Live a) :
    ((ofProto s.ncb protocol xs).map fun a => (s.ncb a).hld).count (s.ncb a).hld
      = if (s.ncb a).protocol = protocol then 1 else 0 := by
  have hinj : ∀ b ∈ xs, ∀ c ∈ xs, (s.ncb b).hld = (s.ncb c).hld → b = c := fun b hb c hc =>
    List.inj_on_of_nodup_map hd ((h.mem b).mp hb).1 ((h.mem c).mp hc).1
  have hnd : ((ofProto s.ncb protocol xs).map fun a => (s.ncb a).hld).Nodup :=
    ((List.nodup_cons.mp h.ring.nodup).2.filter _).map_on fun b hb c hc =>
      hinj b (List.mem_of_mem_filter hb) c (List.mem_of_mem_filter hc)
  have hmem : (s.ncb a).hld ∈ (ofProto s.ncb protocol xs).map (fun a => (s.ncb a).hld)
      ↔ (s.ncb a).protocol = protocol := by
    refine ⟨fun hm => ?_, fun hp => List.mem_map_of_mem
      (List.mem_filter.mpr ⟨(h.mem a).mpr ha, decide_eq_true hp⟩)⟩
    obtain ⟨b, hb, hba⟩ := List.mem_map.mp hm
    rw [← hinj b (List.mem_of_mem_filter hb) a ((h.mem a).mpr ha) hba]
    exact of_decide_eq_true (List.mem_filter.mp hb).2
  rw [hnd.count]
  exact if_congr hmem rfl rfl

end Registry

/-- A shutdown closes the links of its own I/O block and no others if and only if it is that of TCP, or
no ARP link is there: `ncb_uninit` does not look for these. -/
theorem shutdown_iff (m : Links) (as : List Registry.Act) {s : Registry}
    (h : run Registry.step (.ok (Registry.start m)) as = some (.ok s))
    (hd : (s.alive.map fun a => (s.ncb a).hld).Nodup) (p : Ipproto) (mem : Nat → Int) :
    ∃ s' hs, s.ncbUninit p.number (some mem) = .ok (s', hs) ∧
      (s.ClosesOwn p hs ↔ p = .tcp ∨ ∀ a, s.Live a → (s.ncb a).protocol ≠ ETH_P_ARP) := by
  obtain ⟨_, xs, hr, hI⟩ := Registry.run_inv h
  cases hr
  obtain ⟨s', hs, -⟩ := Registry.uninit_inv hI p.number mem
  refine ⟨s', _, hs, ?_, ?_⟩
  · intro hc
    cases p with
    | tcp => exact .inl rfl
    | udp =>
      refine .inr fun a ha hp => ?_
      have h1 := (hc a ha).1
      rw [Registry.count_closes hI hd _ ha, hp] at h1
      exact absurd h1 (by decide)
  · intro hp a ha
    have hslot : (s.ncb a).protocol = p.number ↔ ioAttachSlot (s.ncb a).protocol = some p := by
      rw [Registry.slot_iff]
      refine ⟨.inl, fun h => h.elim id fun h => ?_⟩
      obtain rfl | hp := hp
      · exact nomatch h.1
      · exact absurd h.2 (hp a ha)
    rw [Registry.count_closes hI hd _ ha]
    exact ⟨if_congr hslot rfl rfl, if_congr hslot rfl rfl⟩

/-- a TCP and a UDP link under `udp_uninit` -/
theorem shutdown_iff_twoLinks :
    ∃ s s' hs, run Registry.step (.ok (Registry.start ⟨fun _ => 9, fun _ => 9⟩))
      [.alloc 1, .set 1 ⟨6, 70⟩, .alloc 2, .set 2 ⟨17, 71⟩] = some (.ok s) ∧
      s.ncbUninit Ipproto.udp.number (some fun _ => -5) = .ok (s', hs) ∧ s.ClosesOwn .udp hs := by
  have hr : run Registry.step (.ok (Registry.start ⟨fun _ => 9, fun _ => 9⟩))
      [.alloc 1, .set 1 ⟨6, 70⟩, .alloc 2, .set 2 ⟨17, 71⟩] = some (.ok _) := rfl
  obtain ⟨s', hs, hu, hiff⟩ := shutdown_iff _ _ hr (by decide) .udp fun _ => -5
  refine ⟨_, s', hs, hr, hu, hiff.mpr (.inr fun a ha => ?_)⟩
  have hal : ∀ a ∈ [1, 2], (Function.update (Function.update (Function.update (Function.update
      (fun _ => (⟨0, 0⟩ : NcbId)) 1 ⟨0, 0⟩) 1 ⟨6, 70⟩) 2 ⟨0, 0⟩) 2 ⟨17, 71⟩ a).protocol
        ≠ ETH_P_ARP := by decide
  exact hal a ha.1

/-- a UDP and an ARP link under `udp_uninit`: the ARP link is served by the block, and not closed -/
theorem shutdown_leaves_arp :
    ∃ s s', run Registry.step (.ok (Registry.start ⟨fun _ => 9, fun _ => 9⟩))
      [.alloc 1, .set 1 ⟨17, 70⟩, .alloc 2, .set 2 ⟨ETH_P_ARP, 71⟩] = some (.ok s) ∧
      s.ncbUninit Ipproto.udp.number (some fun _ => -5) = .ok (s', [70]) ∧
      ioAttachSlot (s.ncb 2).protocol = some .udp ∧ ¬ s.ClosesOwn .udp [70] := by
  refine ⟨_, _, rfl, rfl, by decide, fun hc => ?_⟩
  have h := (hc 2 ⟨by decide, by decide⟩).1
  exact absurd h (by decide)

end Swnet

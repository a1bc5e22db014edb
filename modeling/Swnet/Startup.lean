import Mathlib.Logic.Function.Basic
import Swnet.Acts

/-!
# `tcp_init` and `tcp_uninit`

The two global handles of a protocol, in `io.c` and in `wpool.c`, and the objects behind them, while
there are no links.  An object has no reference between two calls, so that `objclos` runs its destructor.

* `initProto`       `tcp_init` and `udp_init`, `uninitProto` their undoing;
* `RolledBack`      nothing is left of an initialisation that failed;
* `rolledBack_iff`  when that is so in a sequence of calls.
-/

namespace Swnet
open Runs

inductive Ipproto where
  | tcp
  | udp
deriving DecidableEq, Repr

/-- `struct io_object_block` with an `epoptr` or without, and `struct wpool` with its thread or without -/
inductive Obj where
  | block (epoptr : Bool)
  | pool (thread : Bool)
deriving DecidableEq, Repr

/-- `tcphld` and `udphld` of the two files, -1 if empty, and the objects that are alive -/
structure Globals where
  iohld : Ipproto → Int
  wphld : Ipproto → Int
  objs : Nat → Option Obj

/-- before the first call -/
def Globals.fresh : Globals := ⟨fun _ => -1, fun _ => -1, fun _ => none⟩

/-- The answers of `objallo` and of `malloc` in `io_init`, and of `objallo` and `posix__pthread_create` in
`wp_init`. -/
structure InitOut where
  ioHld : Option Nat
  epoptr : Bool
  wpHld : Option Nat
  thread : Bool

/-- a slot that holds the handle is emptied, `tcphld` first -/
def emptySlot (slots : Ipproto → Int) (h : Nat) : Ipproto → Int :=
  if slots .tcp = h then Function.update slots .tcp (-1)
  else if slots .udp = h then Function.update slots .udp (-1)
  else slots

namespace Globals

/-- `objallo` gives a handle that no object has -/
def objallo (s : Globals) (h : Nat) (o : Obj) : Option Globals :=
  if (s.objs h).isSome then none else some { s with objs := Function.update s.objs h (some o) }

/-- `objclos`.  `__io_uninit` reads `epoptr`, and a null pointer there ends the process; `__wp_uninit` is
taken to get over its join also where there is no thread. -/
def objclos (s : Globals) (h : Nat) : Option Globals :=
  match s.objs h with
  | some (.block true) =>
    some { s with iohld := emptySlot s.iohld h, objs := Function.update s.objs h none }
  | some (.block false) => none
  | some (.pool _) =>
    some { s with wphld := emptySlot s.wphld h, objs := Function.update s.objs h none }
  | none => some s

/-- `io_init`; no other thread fills the slot after the test -/
def ioInit (s : Globals) (p : Ipproto) (o : InitOut) : Option (Int × Globals) :=
  if 0 ≤ s.iohld p then some (EALREADY, s)
  else
    match o.ioHld with
    | none => some (-1, s)
    | some h =>
      (s.objallo h (.block o.epoptr)).map fun t =>
        (if o.epoptr then 0 else -ENOMEM, { t with iohld := Function.update t.iohld p h })

/-- `wp_init` -/
def wpInit (s : Globals) (p : Ipproto) (o : InitOut) : Option (Int × Globals) :=
  if 0 ≤ s.wphld p then some (EALREADY, s)
  else
    match o.wpHld with
    | none => some (-1, s)
    | some h =>
      (s.objallo h (.pool o.thread)).map fun t =>
        (if o.thread then 0 else -1, { t with wphld := Function.update t.wphld p h })

/-- `io_uninit` -/
def ioUninit (s : Globals) (p : Ipproto) : Option Globals :=
  if 0 ≤ s.iohld p then s.objclos (s.iohld p).toNat else some s

/-- `wp_uninit` -/
def wpUninit (s : Globals) (p : Ipproto) : Option Globals :=
  if 0 ≤ s.wphld p then s.objclos (s.wphld p).toNat else some s

/-- the common body of `tcp_init` and `udp_init` -/
def initProto (s : Globals) (p : Ipproto) (o : InitOut) : Option (Int × Globals) := do
  let (retval, s) ← s.ioInit p o
  if retval ≠ 0 then return (retval, s)
  let (retval, s) ← s.wpInit p o
  if retval < 0 then
    let s ← s.ioUninit p
    return (retval, s)
  return (retval, s)

/-- the common body of `tcp_uninit` and `udp_uninit`; there is no link for `ncb_uninit` -/
def uninitProto (s : Globals) (p : Ipproto) : Option Globals := do
  let s ← s.ioUninit p
  s.wpUninit p

def tcpInit (s : Globals) : InitOut → Option (Int × Globals) := s.initProto .tcp
def udpInit (s : Globals) : InitOut → Option (Int × Globals) := s.initProto .udp
def tcpUninit (s : Globals) : Option Globals := s.uninitProto .tcp
def udpUninit (s : Globals) : Option Globals := s.uninitProto .udp

/-- both slots are empty -/
def Empty (s : Globals) (p : Ipproto) : Prop := s.iohld p = -1 ∧ s.wphld p = -1

/-- the epoll block is there, and the worker thread runs -/
def InPlace (s : Globals) (p : Ipproto) : Prop :=
  ∃ h k : Nat, s.iohld p = h ∧ s.objs h = some (.block true) ∧
    s.wphld p = k ∧ s.objs k = some (.pool true)

/-- The slots are empty, and an initialisation whose calls succeed answers zero and puts all in place. -/
def RolledBack (s : Globals) (p : Ipproto) : Prop :=
  s.Empty p ∧ ∀ h k, s.objs h = none → s.objs k = none → h ≠ k →
    ∃ t, s.initProto p ⟨some h, true, some k, true⟩ = some (0, t) ∧ t.InPlace p

end Globals

/-! ## sequences of calls -/

inductive InitCall where
  | init (p : Ipproto) (o : InitOut)
  | uninit (p : Ipproto)

/-- the globals, with the answer of the last call if it was an initialisation -/
structure Started where
  lib : Globals
  last : Option (Ipproto × Int)

def Started.fresh : Started := ⟨Globals.fresh, none⟩

def Started.step (s : Started) : InitCall → Option Started
  | .init p o => (s.lib.initProto p o).map fun r => ⟨r.2, some (p, r.1)⟩
  | .uninit p => (s.lib.uninitProto p).map fun t => ⟨t, none⟩

/-- if the last call was an initialisation that failed, nothing is left of it -/
def Started.Clean (s : Started) : Prop :=
  ∀ p v, s.last = some (p, v) → v < 0 → s.lib.RolledBack p

/-- the call has memory for its epoll block and a thread for its pool, where it comes so far -/
def InitCall.Supplied (s : Globals) : InitCall → Prop
  | .init p o =>
    (s.iohld p < 0 → o.ioHld.isSome = true → o.epoptr = true) ∧
    (s.iohld p < 0 → o.ioHld.isSome = true → s.wphld p < 0 → o.wpHld.isSome = true → o.thread = true)
  | .uninit _ => True

/-- What holds between two calls that are supplied: the slots of a protocol are both empty or both filled,
and no two protocols share an object. -/
structure Globals.Inv (s : Globals) : Prop where
  each : ∀ p, s.Empty p ∨ s.InPlace p
  io : ∀ p q, 0 ≤ s.iohld p → s.iohld p = s.iohld q → p = q
  wp : ∀ p q, 0 ≤ s.wphld p → s.wphld p = s.wphld q → p = q

section
variable {s t : Globals} {p q : Ipproto} {o : InitOut} {h k : Nat} {v : Int}

/-! ## the parts -/

theorem emptySlot_eq {slots : Ipproto → Int} (hp : slots p = h) (hq : ∀ q, q ≠ p → slots q ≠ h) :
    emptySlot slots h = Function.update slots p (-1) := by
  unfold emptySlot
  cases p with
  | tcp => rw [if_pos hp]
  | udp => rw [if_neg (hq .tcp (by decide)), if_pos hp]

theorem initProto_stop (h1 : s.ioInit p o = some (v, t)) (hv : v ≠ 0) :
    s.initProto p o = some (v, t) := by
  unfold Globals.initProto
  rw [h1]
  simp [hv]

theorem initProto_on (h1 : s.ioInit p o = some (0, t)) :
    s.initProto p o = (t.wpInit p o).bind fun r =>
      if r.1 < 0 then (r.2.ioUninit p).map fun u => (r.1, u) else some r := by
  unfold Globals.initProto
  rw [h1]
  cases hw : t.wpInit p o with
  | none => simp [hw]
  | some r =>
    by_cases hr : r.1 < 0
    · cases hu : r.2.ioUninit p <;> simp [hw, hr, hu]
    · simp [hw, hr]

/-- the I/O slot is filled with a new block -/
def Globals.withBlock (s : Globals) (p : Ipproto) (h : Nat) (b : Bool) : Globals :=
  { s with iohld := Function.update s.iohld p h,
           objs := Function.update s.objs h (some (.block b)) }

/-- the worker slot is filled with a new pool -/
def Globals.withPool (s : Globals) (p : Ipproto) (k : Nat) (b : Bool) : Globals :=
  { s with wphld := Function.update s.wphld p k,
           objs := Function.update s.objs k (some (.pool b)) }

/-- `io_init` where the slot is empty -/
theorem ioInit_new (hs : s.iohld p < 0) (ho : o.ioHld = some h) (hh : s.objs h = none) :
    s.ioInit p o = some (if o.epoptr then 0 else -ENOMEM, s.withBlock p h o.epoptr) := by
  unfold Globals.ioInit Globals.objallo
  rw [if_neg (by omega), ho]
  simp [hh, Globals.withBlock]

theorem ioInit_none (hs : s.iohld p < 0) (ho : o.ioHld = none) : s.ioInit p o = some (-1, s) := by
  unfold Globals.ioInit
  rw [if_neg (by omega), ho]

/-- `wp_init` where the slot is empty -/
theorem wpInit_new (hs : s.wphld p < 0) (ho : o.wpHld = some k) (hk : s.objs k = none) :
    s.wpInit p o = some (if o.thread then 0 else -1, s.withPool p k o.thread) := by
  unfold Globals.wpInit Globals.objallo
  rw [if_neg (by omega), ho]
  simp [hk, Globals.withPool]

theorem wpInit_none (hs : s.wphld p < 0) (ho : o.wpHld = none) : s.wpInit p o = some (-1, s) := by
  unfold Globals.wpInit
  rw [if_neg (by omega), ho]

/-- an allocation is only possible with a new handle -/
theorem ioInit_fresh (hs : s.iohld p < 0) (ho : o.ioHld = some h) (h1 : s.ioInit p o = some (v, t)) :
    s.objs h = none := by
  unfold Globals.ioInit Globals.objallo at h1
  rw [if_neg (by omega), ho] at h1
  by_contra hh
  rw [← ne_eq, ← Option.isSome_iff_ne_none] at hh
  simp [hh] at h1

theorem wpInit_fresh (hs : s.wphld p < 0) (ho : o.wpHld = some k) (h1 : s.wpInit p o = some (v, t)) :
    s.objs k = none := by
  unfold Globals.wpInit Globals.objallo at h1
  rw [if_neg (by omega), ho] at h1
  by_contra hk
  rw [← ne_eq, ← Option.isSome_iff_ne_none] at hk
  simp [hk] at h1

theorem ioUninit_empty (hs : s.iohld p < 0) : s.ioUninit p = some s := if_neg (by omega)
theorem wpUninit_empty (hs : s.wphld p < 0) : s.wpUninit p = some s := if_neg (by omega)

theorem ioUninit_filled (hs : s.iohld p = h) (ho : s.objs h = some (.block true)) :
    s.ioUninit p =
      some { s with iohld := emptySlot s.iohld h, objs := Function.update s.objs h none } := by
  unfold Globals.ioUninit Globals.objclos
  rw [if_pos (by omega), hs, Int.toNat_natCast, ho]

theorem wpUninit_filled {b : Bool} (hs : s.wphld p = k) (ho : s.objs k = some (.pool b)) :
    s.wpUninit p =
      some { s with wphld := emptySlot s.wphld k, objs := Function.update s.objs k none } := by
  unfold Globals.wpUninit Globals.objclos
  rw [if_pos (by omega), hs, Int.toNat_natCast, ho]

/-- `io_uninit` takes back what `io_init` has done -/
theorem ioUninit_undo (hs : s.iohld p = -1) (hq : ∀ q, q ≠ p → s.iohld q ≠ h) (hh : s.objs h = none) :
    (s.withBlock p h true).ioUninit p = some s := by
  rw [ioUninit_filled (h := h) (by simp [Globals.withBlock]) (by simp [Globals.withBlock])]
  unfold Globals.withBlock
  dsimp only
  rw [emptySlot_eq (p := p) (by simp) fun q hqp => by
      rw [Function.update_of_ne hqp]
      exact hq q hqp]
  rw [Function.update_idem, Function.update_idem, ← hs, ← hh, Function.update_eq_self,
    Function.update_eq_self]

/-! ## an initialisation -/

theorem other_slot (hI : s.Inv) (hh : s.objs h = none) (q : Ipproto) :
    s.iohld q ≠ h ∧ s.wphld q ≠ h := by
  rcases hI.each q with ⟨h1, h2⟩ | ⟨x, y, h1, h2, h3, h4⟩
  · omega
  · constructor
    · intro he
      rw [h1] at he
      rw [← Int.ofNat.inj he, h2] at hh
      cases hh
    · intro he
      rw [h3] at he
      rw [← Int.ofNat.inj he, h4] at hh
      cases hh

/-- What an initialisation does to empty slots.  In the third case all is taken back; in the second and
the last it is not. -/
theorem initProto_empty (hE : s.Empty p) (hq : ∀ h, s.objs h = none → ∀ q, q ≠ p → s.iohld q ≠ h)
    (hi : s.initProto p o = some (v, t)) :
    (o.ioHld = none ∧ v = -1 ∧ t = s) ∨
    (∃ h, o.ioHld = some h ∧ o.epoptr = false ∧ v = -ENOMEM ∧ t.iohld p = h) ∨
    (∃ h, o.ioHld = some h ∧ o.epoptr = true ∧ o.wpHld = none ∧ v = -1 ∧ t = s) ∨
    ∃ h k, o.ioHld = some h ∧ o.epoptr = true ∧ o.wpHld = some k ∧ s.objs h = none ∧
      s.objs k = none ∧ h ≠ k ∧
      (o.thread = true ∧ v = 0 ∧ t = (s.withBlock p h true).withPool p k true ∨
        o.thread = false ∧ v = -1 ∧ t.wphld p = k) := by
  have hio : s.iohld p < 0 := by rw [hE.1]; decide
  have hwp : s.wphld p < 0 := by rw [hE.2]; decide
  cases hh : o.ioHld with
  | none =>
    rw [initProto_stop (ioInit_none hio hh) (by decide)] at hi
    cases hi
    exact Or.inl ⟨rfl, rfl, rfl⟩
  | some h =>
    right
    have hfresh : s.objs h = none := by
      cases h1 : s.ioInit p o with
      | none =>
        unfold Globals.initProto at hi
        rw [h1] at hi
        cases hi
      | some r => exact ioInit_fresh hio hh h1
    have h1 := ioInit_new hio hh hfresh
    cases he : o.epoptr with
    | false =>
      rw [he] at h1
      rw [initProto_stop h1 (by decide)] at hi
      cases hi
      exact Or.inl ⟨h, rfl, rfl, rfl, Function.update_self ..⟩
    | true =>
      right
      rw [he] at h1
      rw [initProto_on h1] at hi
      cases hk : o.wpHld with
      | none =>
        -- the worker slot is still empty, and the I/O slot is emptied again
        have h2 : (s.withBlock p h true).wpInit p o = some (-1, s.withBlock p h true) :=
          wpInit_none hwp hk
        have h3 := ioUninit_undo hE.1 (hq h hfresh) hfresh
        rw [h2, Option.bind_some, if_pos (show (-1 : Int) < 0 by decide), h3] at hi
        cases hi
        exact Or.inl ⟨h, rfl, rfl, rfl, rfl, rfl⟩
      | some k =>
        right
        have hkf : (s.withBlock p h true).objs k = none := by
          cases h2 : (s.withBlock p h true).wpInit p o with
          | none =>
            rw [h2] at hi
            cases hi
          | some r => exact wpInit_fresh (p := p) hwp hk h2
        have hne : h ≠ k := by
          rintro rfl
          simp [Globals.withBlock] at hkf
        have hks : s.objs k = none := by
          rw [← hkf]
          exact (Function.update_of_ne (Ne.symm hne) _ _).symm
        have h2 := wpInit_new (s := s.withBlock p h true) (p := p) hwp hk hkf
        refine ⟨h, k, rfl, rfl, rfl, hfresh, hks, hne, ?_⟩
        rw [h2, Option.bind_some] at hi
        cases ht : o.thread with
        | true =>
          rw [ht] at hi
          dsimp only at hi
          rw [if_pos rfl, if_neg (by decide)] at hi
          cases hi
          exact Or.inl ⟨rfl, rfl, rfl⟩
        | false =>
          -- the I/O slot is emptied again, and the worker slot stays filled
          right
          have h3 := ioUninit_filled (s := (s.withBlock p h true).withPool p k false) (p := p) (h := h)
            (Function.update_self ..) ((Function.update_of_ne hne _ _).trans (Function.update_self ..))
          rw [ht] at hi
          dsimp only at hi
          rw [if_neg Bool.false_ne_true, if_pos (by decide), h3] at hi
          cases hi
          exact ⟨rfl, rfl, Function.update_self ..⟩

theorem inPlace_fill (hne : h ≠ k) : ((s.withBlock p h true).withPool p k true).InPlace p :=
  ⟨h, k, Function.update_self .., (Function.update_of_ne hne _ _).trans (Function.update_self ..),
    Function.update_self .., Function.update_self ..⟩

/-- nothing is in the way of the next initialisation -/
theorem rolledBack_of_empty (hE : s.Empty p) : s.RolledBack p := by
  refine ⟨hE, fun h k hh hk hne => ⟨(s.withBlock p h true).withPool p k true, ?_, inPlace_fill hne⟩⟩
  have hk' : (s.withBlock p h true).objs k = none :=
    (Function.update_of_ne (Ne.symm hne) _ _).trans hk
  have hwp : (s.withBlock p h true).wphld p < 0 := by
    rw [show (s.withBlock p h true).wphld p = s.wphld p from rfl, hE.2]
    decide
  rw [initProto_on (t := s.withBlock p h true) (ioInit_new (by rw [hE.1]; decide) rfl hh),
    wpInit_new hwp rfl hk']
  rfl

/-! ## the invariant -/

theorem inv_fresh : Globals.fresh.Inv :=
  have hno : ¬ (0 : Int) ≤ -1 := by decide
  ⟨fun _ => Or.inl ⟨rfl, rfl⟩, fun _ _ h => absurd h hno, fun _ _ h => absurd h hno⟩

/-- a protocol whose slots and objects are as they were -/
theorem inPlace_frame {objs' : Nat → Option Obj} {io' wp' : Ipproto → Int} (hq : s.InPlace q)
    (hio : io' q = s.iohld q) (hwp : wp' q = s.wphld q)
    (hb : ∀ x : Nat, s.iohld q = x → s.objs x = some (.block true) → objs' x = s.objs x)
    (hp : ∀ x : Nat, s.wphld q = x → s.objs x = some (.pool true) → objs' x = s.objs x) :
    Globals.InPlace ⟨io', wp', objs'⟩ q := by
  obtain ⟨x, y, h1, h2, h3, h4⟩ := hq
  exact ⟨x, y, hio.trans h1, (hb x h1 h2).trans h2, hwp.trans h3, (hp y h3 h4).trans h4⟩

theorem update_other {objs : Nat → Option Obj} {x : Nat} {a b : Option Obj} {o : Obj} (hx : objs x = some o)
    (hh : objs h ≠ some o) (hk : objs k ≠ some o) :
    Function.update (Function.update objs h a) k b x = objs x := by
  have hxh : x ≠ h := fun he => hh (he ▸ hx)
  have hxk : x ≠ k := fun he => hk (he ▸ hx)
  rw [Function.update_of_ne hxk, Function.update_of_ne hxh]

theorem inj_update {slots : Ipproto → Int} {x : Int} (hinj : ∀ p q, 0 ≤ slots p → slots p = slots q → p = q)
    (hx : 0 ≤ x → ∀ q, slots q ≠ x) : ∀ q r, 0 ≤ Function.update slots p x q →
      Function.update slots p x q = Function.update slots p x r → q = r := by
  intro q r h0 he
  by_cases hq : q = p
  · by_cases hr : r = p
    · rw [hq, hr]
    · rw [hq, Function.update_self, Function.update_of_ne hr] at he
      rw [hq, Function.update_self] at h0
      exact absurd he.symm (hx h0 r)
  · rw [Function.update_of_ne hq] at h0 he
    by_cases hr : r = p
    · rw [hr, Function.update_self] at he
      exact absurd he (hx (he ▸ h0) q)
    · rw [Function.update_of_ne hr] at he
      exact hinj q r h0 he

theorem inv_fill (hI : s.Inv) (hh : s.objs h = none) (hk : s.objs k = none) (hne : h ≠ k) :
    ((s.withBlock p h true).withPool p k true).Inv := by
  refine ⟨fun q => ?_, ?_, ?_⟩
  · by_cases hq : q = p
    · subst hq
      exact Or.inr (inPlace_fill hne)
    · refine (hI.each q).imp (fun hE => ?_) fun hP => ?_
      · exact ⟨(Function.update_of_ne hq _ _).trans hE.1, (Function.update_of_ne hq _ _).trans hE.2⟩
      · refine inPlace_frame hP (Function.update_of_ne hq _ _) (Function.update_of_ne hq _ _) ?_ ?_
        · exact fun x _ hx => update_other hx (by simp [hh]) (by simp [hk])
        · exact fun x _ hx => update_other hx (by simp [hh]) (by simp [hk])
  · exact inj_update hI.io fun _ q => (other_slot hI hh q).1
  · exact inj_update hI.wp fun _ q => (other_slot hI hk q).2

/-- `io_uninit` and `wp_uninit` empty the slots that are filled -/
theorem uninitProto_inPlace (hI : s.Inv) (hP : s.InPlace p) (hu : s.uninitProto p = some t) :
    t.Inv ∧ t.Empty p := by
  obtain ⟨h, k, h1, h2, h3, h4⟩ := hP
  have hne : k ≠ h := by
    rintro rfl
    rw [h2] at h4
    cases h4
  have hio : ∀ q, q ≠ p → s.iohld q ≠ h := fun q hq he =>
    hq (hI.io q p (by omega) (he.trans h1.symm))
  have hwp : ∀ q, q ≠ p → s.wphld q ≠ k := fun q hq he =>
    hq (hI.wp q p (by omega) (he.trans h3.symm))
  unfold Globals.uninitProto at hu
  have h4' : Function.update s.objs h none k = some (.pool true) :=
    (Function.update_of_ne hne _ _).trans h4
  have hw := wpUninit_filled (k := k) (p := p)
    (s := { s with iohld := emptySlot s.iohld h, objs := Function.update s.objs h none }) h3 h4'
  rw [ioUninit_filled h1 h2, Option.bind_eq_bind, Option.bind_some, hw, emptySlot_eq h1 hio,
    emptySlot_eq h3 hwp] at hu
  cases hu
  refine ⟨⟨fun q => ?_, ?_, ?_⟩, Function.update_self .., Function.update_self ..⟩
  · by_cases hq : q = p
    · subst hq
      exact Or.inl ⟨Function.update_self .., Function.update_self ..⟩
    · refine (hI.each q).imp (fun hE => ?_) fun hP => ?_
      · exact ⟨(Function.update_of_ne hq _ _).trans hE.1, (Function.update_of_ne hq _ _).trans hE.2⟩
      · refine inPlace_frame hP (Function.update_of_ne hq _ _) (Function.update_of_ne hq _ _) ?_ ?_
        · intro x hx hb
          have hxh : x ≠ h := fun he => hio q hq (he ▸ hx)
          have hxk : x ≠ k := by
            rintro rfl
            rw [h4] at hb
            cases hb
          exact (Function.update_of_ne hxk _ _).trans (Function.update_of_ne hxh _ _)
        · intro x hx hb
          have hxk : x ≠ k := fun he => hwp q hq (he ▸ hx)
          have hxh : x ≠ h := by
            rintro rfl
            rw [h2] at hb
            cases hb
          exact (Function.update_of_ne hxk _ _).trans (Function.update_of_ne hxh _ _)
  · exact inj_update hI.io fun h0 => absurd h0 (by decide)
  · exact inj_update hI.wp fun h0 => absurd h0 (by decide)

theorem uninitProto_empty (hE : s.Empty p) : s.uninitProto p = some s := by
  unfold Globals.uninitProto
  rw [ioUninit_empty (by rw [hE.1]; decide), Option.bind_eq_bind, Option.bind_some]
  exact wpUninit_empty (by rw [hE.2]; decide)

theorem initProto_again (hP : s.InPlace p) : s.initProto p o = some ((EALREADY : Int), s) := by
  obtain ⟨h, _, h1, _⟩ := hP
  exact initProto_stop (if_pos (by omega)) (by decide)

/-! ## one call -/

variable {c : InitCall}

/-- a call that is supplied -/
theorem inv_initProto (hI : s.Inv) (hc : (InitCall.init p o).Supplied s)
    (hi : s.initProto p o = some (v, t)) : t.Inv ∧ (v < 0 → t.RolledBack p) := by
  rcases hI.each p with hE | hP
  swap
  · rw [initProto_again hP] at hi
    cases hi
    exact ⟨hI, fun hv => absurd hv (by decide)⟩
  have hio : s.iohld p < 0 := by rw [hE.1]; decide
  have hwp : s.wphld p < 0 := by rw [hE.2]; decide
  rcases initProto_empty hE (fun h hh q _ => (other_slot hI hh q).1) hi with
    ⟨_, rfl, rfl⟩ | ⟨h, hh, he, _⟩ | ⟨h, _, _, _, rfl, rfl⟩ |
      ⟨h, k, hh, he, hk, hho, hko, hne, ⟨_, rfl, rfl⟩ | ⟨hth, _⟩⟩
  · exact ⟨hI, fun _ => rolledBack_of_empty hE⟩
  · have h1 := hc.1 hio (by rw [hh]; rfl)
    rw [he] at h1
    cases h1
  · exact ⟨hI, fun _ => rolledBack_of_empty hE⟩
  · exact ⟨inv_fill hI hho hko hne, fun hv => absurd hv (by decide)⟩
  · have h1 := hc.2 hio (by rw [hh]; rfl) hwp (by rw [hk]; rfl)
    rw [hth] at h1
    cases h1

/-- a call that is not leaves something behind -/
theorem init_leaves (hI : s.Inv) (hc : ¬ (InitCall.init p o).Supplied s)
    (hi : s.initProto p o = some (v, t)) : v < 0 ∧ ¬ t.Empty p := by
  rcases hI.each p with hE | hP
  swap
  · obtain ⟨h, _, h1, _⟩ := hP
    exact absurd ⟨fun h => by omega, fun h => by omega⟩ hc
  rcases initProto_empty hE (fun h hh q _ => (other_slot hI hh q).1) hi with
    ⟨hh, _⟩ | ⟨h, _, _, rfl, ht⟩ | ⟨h, hh, he, hk, _⟩ |
      ⟨h, k, hh, he, hk, _, _, _, ⟨hth, _⟩ | ⟨_, rfl, ht⟩⟩
  · exact absurd ⟨fun _ h => by simp [hh] at h, fun _ h => by simp [hh] at h⟩ hc
  · refine ⟨by decide, fun hE' => ?_⟩
    have := ht.symm.trans hE'.1
    omega
  · exact absurd ⟨fun _ _ => he, fun _ _ _ h => by simp [hk] at h⟩ hc
  · exact absurd ⟨fun _ _ => he, fun _ _ _ _ => hth⟩ hc
  · refine ⟨by decide, fun hE' => ?_⟩
    have := ht.symm.trans hE'.2
    omega

/-- an uninitialisation, whatever it finds -/
theorem inv_uninitProto (hI : s.Inv) (hu : s.uninitProto p = some t) : t.Inv := by
  rcases hI.each p with hE | hP
  · rw [uninitProto_empty hE] at hu
    cases hu
    exact hI
  · exact (uninitProto_inPlace hI hP hu).1

end

/-! ## every sequence -/

/-- **When nothing is left of an initialisation that fails.** -/
theorem rolledBack_iff (cs : List InitCall) (t : Started)
    (h : run Started.step Started.fresh cs = some t) :
    Meets Started.step (fun s c => c.Supplied s.lib) Started.fresh cs ↔
      ∀ bs, bs <+: cs → ∀ u, run Started.step Started.fresh bs = some u → u.Clean := by
  refine meets_iff Started.step (I := fun s => s.lib.Inv ∧ s.Clean) (D := fun _ _ => True) ?_
    (fun _ h => h.2) ?_ h (meets_all Started.step (D := fun _ => True) fun _ _ => trivial) ?_
  · intro s c s' hI _ hC hstep
    cases c with
    | init p o =>
      obtain ⟨r, hr, rfl⟩ := Option.map_eq_some_iff.mp hstep
      obtain ⟨h1, h2⟩ := inv_initProto hI.1 hC hr
      refine ⟨h1, fun q v hl hv => ?_⟩
      cases hl
      exact h2 hv
    | uninit p =>
      obtain ⟨u, hu, rfl⟩ := Option.map_eq_some_iff.mp hstep
      refine ⟨inv_uninitProto hI.1 hu, fun q v hl _ => ?_⟩
      cases hl
  · intro s c s' hI hC hstep hclean
    cases c with
    | init p o =>
      obtain ⟨r, hr, rfl⟩ := Option.map_eq_some_iff.mp hstep
      obtain ⟨hv, hne⟩ := init_leaves hI.1 hC hr
      exact hne (hclean p r.1 rfl hv).1
    | uninit p => exact hC trivial
  · refine ⟨inv_fresh, fun q v hl _ => ?_⟩
    cases hl

/-- no object for the block, then all succeeds, then the end -/
def secondTry : List InitCall :=
  [.init .tcp ⟨none, true, none, true⟩, .init .tcp ⟨some 0, true, some 1, true⟩, .uninit .tcp]

theorem rolledBack_iff_secondTry : ∃ t, run Started.step Started.fresh secondTry = some t ∧
    (Meets Started.step (fun s c => c.Supplied s.lib) Started.fresh secondTry ↔
      ∀ bs, bs <+: secondTry → ∀ u, run Started.step Started.fresh bs = some u → u.Clean) :=
  ⟨_, rfl, rolledBack_iff secondTry _ rfl⟩

/-- no thread for the pool: the next `tcp_init` answers `EALREADY`, and there is still none -/
theorem noThread_stays :
    (∃ t, run Started.step Started.fresh [.init .tcp ⟨some 0, true, some 1, false⟩] = some t ∧
      t.last = some (.tcp, -1) ∧ t.lib.wphld .tcp = 1 ∧ ¬ t.Clean) ∧
    ∃ t, run Started.step Started.fresh
        [.init .tcp ⟨some 0, true, some 1, false⟩, .init .tcp ⟨some 2, true, some 3, true⟩] = some t ∧
      t.last = some (.tcp, 114) ∧ t.lib.objs 1 = some (.pool false) := by
  refine ⟨⟨_, rfl, rfl, rfl, fun h => ?_⟩, ⟨_, rfl, rfl, rfl⟩⟩
  have h1 : (1 : Int) = -1 := (h .tcp (-1) rfl (by decide)).1.2
  cases h1

/-- no memory for the epoll block: the slot is filled, and `tcp_uninit` reads a null pointer -/
theorem noMemory_stays :
    (∃ t, run Started.step Started.fresh [.init .tcp ⟨some 0, false, some 1, true⟩] = some t ∧
      t.last = some (.tcp, -ENOMEM) ∧ t.lib.iohld .tcp = 0 ∧ ¬ t.Clean) ∧
    run Started.step Started.fresh
      [.init .tcp ⟨some 0, false, some 1, true⟩, .uninit .tcp] = none := by
  refine ⟨⟨_, rfl, rfl, rfl, fun h => ?_⟩, rfl⟩
  have h1 : (0 : Int) = -1 := (h .tcp (-ENOMEM) rfl (by decide)).1.1
  cases h1

end Swnet

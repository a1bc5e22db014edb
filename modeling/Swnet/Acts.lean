import Mathlib.Logic.Function.Basic
import Swnet.Lib.Traced
import Swnet.Link

/-!
# References

What the functions of the library do to objects, and what they post.  Whether `objrefr` finds an
object is not theirs to say, so it is an argument of the call that makes it.

* `Act`          one call of the object manager, or one post;
* `hold`         the references that a thread has on every object, read off its acts;
* `protoRefr`    `__tcprefr`, `__udprefr` and `__arprefr`;
* `Steady`       a piece of code between `objrefr` and `objdefr` that leaves the references alone;
* `Returns`      a piece of code that ends with its `objdefr`.
-/

namespace Swnet
open Traced Runs

/-- the event codes -/
inductive Evt where
  | preClose
  | closed
  | recvdata
  | pipedata
  | accepted
  | connected
deriving DecidableEq, Repr

/-- posted by the destructor alone -/
def Evt.closes : Evt → Bool
  | .preClose => true
  | .closed => true
  | _ => false

inductive Act where
  | objrefr (hld : Int) (found : Bool)
  | objreff (hld : Int) (found : Bool)
  | objdefr (hld : Int)
  | objclos (hld : Int)
  | post (hld : Int) (e : Evt)
deriving DecidableEq, Repr

abbrev Call (σ α : Type) := Prog Act σ α

section
variable {σ : Type}

def objrefr (hld : Int) (found : Bool) : Call σ Unit := tell (.objrefr hld found)
def objreff (hld : Int) (found : Bool) : Call σ Unit := tell (.objreff hld found)
def objdefr (hld : Int) : Call σ Unit := tell (.objdefr hld)
def objclos (hld : Int) : Call σ Unit := tell (.objclos hld)

/-- the posts of `ncb.c`: nothing is posted if the link has no callback -/
def ncbPost (hld : Int) (callback : Bool) (e : Evt) : Call σ Unit :=
  if callback then tell (.post hld e) else pure ()

end

/-! ## what a thread holds -/

/-- The references of a thread, object by object.  `none`: it gives back one that it does not have,
posts for a link that it has none on, or posts what is the destructor's. -/
def hold (m : Int → Nat) : Act → Option (Int → Nat)
  | .objrefr hld found => some (if found then Function.update m hld (m hld + 1) else m)
  | .objreff hld found => some (if found then Function.update m hld (m hld + 1) else m)
  | .objdefr hld => if m hld = 0 then none else some (Function.update m hld (m hld - 1))
  | .objclos _ => some m
  | .post hld e => if m hld = 0 ∨ e.closes = true then none else some m

/-- the act takes a reference on the object -/
def Act.takes (hld : Int) (a : Act) : Bool :=
  decide (a = .objrefr hld true) || decide (a = .objreff hld true)

section
variable {hld x : Int} {found : Bool} {e : Evt}

theorem takes_objrefr : (Act.objrefr x found).takes hld = true ↔ x = hld ∧ found = true := by
  simp [Act.takes]

theorem takes_objreff : (Act.objreff x found).takes hld = true ↔ x = hld ∧ found = true := by
  simp [Act.takes]

@[simp] theorem takes_objdefr : (Act.objdefr x).takes hld = false := by simp [Act.takes]
@[simp] theorem takes_objclos : (Act.objclos x).takes hld = false := by simp [Act.takes]
@[simp] theorem takes_post : (Act.post x e).takes hld = false := by simp [Act.takes]

end

theorem update_refr (m : Int → Nat) (x hld : Int) (found : Bool) :
    (if found then Function.update m x (m x + 1) else m) hld
      = m hld + (if found = true ∧ hld = x then 1 else 0) := by
  cases found with
  | false => simp
  | true =>
    by_cases hx : hld = x
    · subst hx
      simp
    · simp [hx]

/-- what a thread holds behind one act -/
theorem hold_count {a : Act} {m n : Int → Nat} (h : hold m a = some n) (hld : Int) :
    n hld + (if a = .objdefr hld then 1 else 0) = m hld + (if a.takes hld = true then 1 else 0) := by
  cases a with
  | objrefr x found =>
    cases h
    rw [update_refr]
    cases found <;> simp [Act.takes, eq_comm]
  | objreff x found =>
    cases h
    rw [update_refr]
    cases found <;> simp [Act.takes, eq_comm]
  | objdefr x =>
    change (if m x = 0 then none else some _) = some n at h
    split at h
    · cases h
    · cases h
      by_cases hx : hld = x
      · subst hx
        simp
        omega
      · simp [Function.update_of_ne hx, Ne.symm hx]
  | objclos x =>
    cases h
    simp
  | post x e =>
    change (if m x = 0 ∨ e.closes = true then none else some m) = some n at h
    split at h
    · cases h
    · cases h
      simp

/-- what a thread holds behind a trace -/
theorem run_hold_count {hld : Int} {tr : List Act} {m m' : Int → Nat} (h : run hold m tr = some m') :
    m' hld + tr.count (.objdefr hld) = m hld + tr.countP (Act.takes hld) := by
  induction tr generalizing m with
  | nil =>
    cases h
    rfl
  | cons a tr ih =>
    obtain ⟨n, h1, h2⟩ := run_cons_some hold h
    have h3 := ih h2
    have htake := hold_count h1 hld
    rw [List.count_cons, List.countP_cons]
    simp only [beq_iff_eq]
    omega

/-- between its beginning and its end the code leaves the references as they are, if there is one on
the link -/
def Steady {σ α : Type} (link : Int) (x : Call σ α) : Prop :=
  ∀ m, 0 < m link → Leads hold m x fun _ m' => m' = m

/-- the same without a reference -/
def Balanced {σ α : Type} (x : Call σ α) : Prop := ∀ m, Leads hold m x fun _ m' => m' = m

section
variable {σ α β : Type} {link hld : Int} {x : Call σ α} {f : α → Call σ β} {m : Int → Nat}

theorem Balanced.steady (h : Balanced x) : Steady link x := fun m _ => h m

theorem balanced_pure (a : α) : Balanced (pure a : Call σ α) := fun _ => leads_pure rfl

theorem balanced_bind (hx : Balanced x) (hf : ∀ a, Balanced (f a)) : Balanced (x >>= f) := by
  intro m
  refine leads_bind (hx m) fun a n hn => ?_
  subst hn
  exact hf a _

theorem balanced_objclos (hld : Int) : Balanced (objclos hld : Call σ Unit) :=
  fun _ => leads_tell rfl rfl

theorem balanced_store (g : σ → σ) : Balanced (store g : Call σ Unit) := fun _ => leads_store rfl

theorem balanced_look : Balanced (look : Call σ σ) := fun _ => leads_look fun _ => rfl

theorem steady_pure (a : α) : Steady link (pure a : Call σ α) := (balanced_pure a).steady

theorem steady_bind (hx : Steady link x) (hf : ∀ a, Steady link (f a)) : Steady link (x >>= f) := by
  intro m hm
  refine leads_bind (hx m hm) fun a n hn => ?_
  subst hn
  exact hf a _ hm

theorem balanced_ite {y : Call σ α} {c : Prop} [Decidable c] (hx : Balanced x) (hy : Balanced y) :
    Balanced (if c then x else y) := by
  split
  · exact hx
  · exact hy

theorem steady_ite {y : Call σ α} {c : Prop} [Decidable c] (hx : Steady link x)
    (hy : Steady link y) : Steady link (if c then x else y) := by
  split
  · exact hx
  · exact hy

theorem steady_post (callback : Bool) {e : Evt} (he : e.closes = false) :
    Steady link (ncbPost link callback e : Call σ Unit) := by
  intro m hm
  unfold ncbPost
  split
  · exact leads_tell (if_neg (by simp [he]; omega)) rfl
  · exact leads_pure rfl

theorem leads_found {f : Unit → Call σ β} {R : β → (Int → Nat) → Prop}
    (h : Leads hold (Function.update m hld (m hld + 1)) (f ()) R) :
    Leads hold m (objrefr hld true >>= f) R := leads_tell_bind rfl h

theorem leads_missing {f : Unit → Call σ β} {R : β → (Int → Nat) → Prop}
    (h : Leads hold m (f ()) R) : Leads hold m (objrefr hld false >>= f) R := leads_tell_bind rfl h

/-- the reference that was taken last is given back -/
theorem leads_given {f : Unit → Call σ β} {R : β → (Int → Nat) → Prop} (h : Leads hold m (f ()) R) :
    Leads hold (Function.update m hld (m hld + 1)) (objdefr hld >>= f) R := by
  refine leads_tell_bind ?_ h
  show (if Function.update m hld (m hld + 1) hld = 0 then none else _) = some m
  simp

end

/-! ## `__tcprefr` and its likes -/

abbrev EPROTOTYPE : Int := 91
abbrev ENOENT : Int := 2

/-- The common body of `__tcprefr`, `__udprefr` and `__arprefr`.  `found` is the protocol of the link
that `objrefr` finds, `none` where it finds none. -/
def protoRefr {σ : Type} (p : Proto) (hld : Int) (found : Option Proto) : Call σ Int := do
  if hld < 0 then return -EINVAL
  match found with
  | some q =>
    objrefr hld true
    if q = p then return 0
    objdefr hld
    return -EPROTOTYPE
  | none =>
    objrefr hld false
    return -ENOENT

def tcprefr {σ : Type} : Int → Option Proto → Call σ Int := protoRefr .tcp
def udprefr {σ : Type} : Int → Option Proto → Call σ Int := protoRefr .udp
def arprefr {σ : Type} : Int → Option Proto → Call σ Int := protoRefr .arp

section
variable {σ : Type} {p : Proto} {hld : Int} {found : Option Proto} {m : Int → Nat}

/-- there is a reference exactly if the answer is zero -/
theorem leads_protoRefr : Leads hold m (protoRefr p hld found : Call σ Int) fun v m' =>
    v = 0 ∧ m' = Function.update m hld (m hld + 1) ∨ v < 0 ∧ m' = m := by
  unfold protoRefr
  split
  · exact leads_pure (Or.inr ⟨by decide, rfl⟩)
  cases found with
  | none =>
    apply leads_missing
    exact leads_pure (Or.inr ⟨by decide, rfl⟩)
  | some q =>
    apply leads_found
    split
    · exact leads_pure (Or.inl ⟨rfl, rfl⟩)
    · apply leads_given
      exact leads_pure (Or.inr ⟨by decide, rfl⟩)

/-- a piece of code that gives one reference on the link back, and no other -/
def Returns {σ α : Type} (link : Int) (x : Call σ α) : Prop :=
  ∀ m, Leads hold (Function.update m link (m link + 1)) x fun _ m' => m' = m

theorem returns_exit {α : Type} (a : α) : Returns hld (do objdefr hld; return a : Call σ α) :=
  fun _ => leads_given (leads_pure rfl)

theorem returns_steady {α : Type} {y : Call σ α} (hy : Steady hld y) :
    Returns hld (do let retval ← y; objdefr hld; return retval) := by
  intro m
  refine leads_bind (hy _ (by simp)) fun b n hn => ?_
  subst hn
  exact returns_exit b m

theorem returns_ite {α : Type} {x y : Call σ α} {c : Prop} [Decidable c] (hx : Returns hld x)
    (hy : Returns hld y) : Returns hld (if c then x else y) := by
  split
  · exact hx
  · exact hy

/-- a function that begins with `__tcprefr` or the like -/
theorem balanced_refr {y : Int → Call σ Int} (hy : Returns hld (y 0)) :
    Balanced (do
      let retval ← (protoRefr p hld found : Call σ Int)
      if retval < 0 then return retval
      y retval) := by
  intro m
  refine leads_bind leads_protoRefr fun v n hn => ?_
  rcases hn with ⟨rfl, rfl⟩ | ⟨hv, rfl⟩
  · rw [if_neg (Int.lt_irrefl 0)]
    exact hy m
  · rw [if_pos hv]
    exact leads_pure rfl

end

/-! ## `io_attach` -/

/-- What `io_attach` is answered: the error number of `io_fcntl`, the handle of the I/O block, whether
`objrefr` finds it, its `epfd` for the link, and the error number of `epoll_ctl(2)`. -/
structure AttachOut where
  fcntl : Nat
  hld : Int
  found : Bool
  epfd : Nat
  ctl : Nat

/-- `io_fcntl`; the error number is that of the first `fcntl(2)` that fails, zero if none does -/
def ioFcntl (e : Nat) : Int := if e = 0 then 0 else -e

/-- `io_attach` with what it does to the I/O block -/
def ioAttachCall {σ : Type} (o : AttachOut) : Call σ Int := do
  if ioFcntl o.fcntl < 0 then return ioFcntl o.fcntl
  if o.hld < 0 then return -EPROTOTYPE
  match o.found with
  | false =>
    objrefr o.hld false
    return -ENOENT
  | true =>
    objrefr o.hld true
    let epfd : Int := if o.ctl ≠ 0 ∧ o.ctl ≠ EEXIST then -1 else o.epfd
    objdefr o.hld
    return epfd

/-- it answers with an `epfd` -/
def AttachOut.Good (o : AttachOut) : Prop :=
  o.fcntl = 0 ∧ 0 ≤ o.hld ∧ o.found = true ∧ (o.ctl = 0 ∨ o.ctl = EEXIST)

theorem balanced_ioAttach {σ : Type} (o : AttachOut) : Balanced (ioAttachCall o : Call σ Int) := by
  unfold ioAttachCall
  split
  · exact balanced_pure _
  split
  · exact balanced_pure _
  cases o.found with
  | false =>
    intro m
    apply leads_missing
    exact leads_pure rfl
  | true =>
    intro m
    apply leads_found
    apply leads_given
    exact leads_pure rfl

end Swnet

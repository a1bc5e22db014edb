import Mathlib.Data.List.Basic
import Mathlib.Tactic.Ring

/-!
# C integers and byte buffers

The part of C that a parser over byte buffers rests on.  A C `int` is an `Int` whose arithmetic
is checked (`cint`); a buffer is a list of bytes, and every copy checks both sides.  A statement
without a defined result ends in a `Fault`.

* `memcpy`       `memcpy(dst + at, src + from, n)`, the new contents of `dst`;
* `slice`        the `n` bytes at `buf + from`, as somebody who is handed them reads them;
* `memcpy_nat`   the copy of a non-negative number of bytes that fits;
* `memcpy_take`  the written buffer up to the end of the copy.
-/

namespace CMem

abbrev Byte := UInt8
abbrev Bytes := List Byte

/-- what a C program can do that the language gives no meaning to, and a loop that does not end -/
inductive Fault where
  | overflow
  | bounds
  | spin
deriving DecidableEq, Repr

abbrev C (α : Type) := Except Fault α

instance decEqExcept {ε α : Type} [DecidableEq ε] [DecidableEq α] : DecidableEq (Except ε α)
  | .ok a, .ok b => decidable_of_iff (a = b) (by simp)
  | .error a, .error b => decidable_of_iff (a = b) (by simp)
  | .ok _, .error _ => isFalse (by simp)
  | .error _, .ok _ => isFalse (by simp)

theorem ok_bind {α β : Type} (a : α) (f : α → C β) : (Except.ok a >>= f) = f a := rfl

theorem bind_ok {α β : Type} {x : C α} {f : α → C β} {b : β} (h : (x >>= f) = .ok b) :
    ∃ a, x = .ok a ∧ f a = .ok b := by
  cases x with
  | error e => cases h
  | ok a => exact ⟨a, rfl, h⟩

def intMin : Int := -2147483648
def intMax : Int := 2147483647

/-- the result of an `int` operation whose exact value is `x` -/
def cint (x : Int) : C Int := if intMin ≤ x ∧ x ≤ intMax then .ok x else .error .overflow

theorem cint_ok {x : Int} (h0 : intMin ≤ x) (h1 : x ≤ intMax) : cint x = .ok x :=
  if_pos ⟨h0, h1⟩

theorem cint_val {x y : Int} (h : cint x = .ok y) : y = x := by
  unfold cint at h
  split at h
  · cases h
    rfl
  · cases h

/-- a small non-negative result -/
theorem cint_nat {n : Nat} (h : n ≤ 2147483647) : cint (n : Int) = .ok (n : Int) :=
  cint_ok (by unfold intMin; omega) (by unfold intMax; omega)

def memcpy (dst : Bytes) (pos : Int) (src : Bytes) (n : Int) : C Bytes :=
  if 0 ≤ n ∧ 0 ≤ pos ∧ pos + n ≤ dst.length ∧ n ≤ src.length then
    .ok (dst.take pos.toNat ++ src.take n.toNat ++ dst.drop (pos + n).toNat)
  else .error .bounds

def slice (buf : Bytes) (pos n : Int) : C Bytes :=
  if 0 ≤ n ∧ 0 ≤ pos ∧ pos + n ≤ buf.length then .ok ((buf.drop pos.toNat).take n.toNat)
  else .error .bounds

section
variable {dst src buf : Bytes} {p n : Nat}

theorem memcpy_nat (hd : p + n ≤ dst.length) (hs : n ≤ src.length) :
    memcpy dst p src n = .ok (dst.take p ++ src.take n ++ dst.drop (p + n)) := by
  unfold memcpy
  rw [if_pos ⟨by omega, by omega, by omega, by omega⟩]
  have e : ((p : Int) + (n : Int)).toNat = p + n := by omega
  rw [e, Int.toNat_natCast, Int.toNat_natCast]

theorem slice_nat (h : p + n ≤ buf.length) : slice buf p n = .ok ((buf.drop p).take n) := by
  unfold slice
  rw [if_pos ⟨by omega, by omega, by omega⟩, Int.toNat_natCast, Int.toNat_natCast]

/-- a copy does not change the size of the buffer -/
theorem memcpy_length (hd : p + n ≤ dst.length) (hs : n ≤ src.length) :
    (dst.take p ++ src.take n ++ dst.drop (p + n)).length = dst.length := by
  simp only [List.length_append, List.length_take, List.length_drop]
  omega

/-- what the buffer holds up to the end of the copy -/
theorem memcpy_take (hd : p + n ≤ dst.length) (hs : n ≤ src.length) :
    (dst.take p ++ src.take n ++ dst.drop (p + n)).take (p + n) = dst.take p ++ src.take n := by
  have e : (dst.take p ++ src.take n).length = p + n := by
    rw [List.length_append, List.length_take, List.length_take]
    omega
  rw [← e, List.take_left]

end

/-- The allocator as a program sees it: what the `k`-th call of `malloc` of the run answers when
asked for `n` bytes.  A block comes with arbitrary contents. -/
structure Heap where
  malloc : Nat → Nat → Option Bytes
  size : ∀ {k n b}, malloc k n = some b → b.length = n

/-- an allocator that never answers NULL -/
def Heap.Succeeds (H : Heap) : Prop := ∀ k n, (H.malloc k n).isSome

/-- fresh memory that happens to be zero -/
def Heap.zeros : Heap where
  malloc _ n := some (List.replicate n 0)
  size h := by cases h; exact List.length_replicate

theorem Heap.zeros_succeeds : Heap.zeros.Succeeds := fun _ _ => rfl

theorem Heap.Succeeds.get {H : Heap} (h : H.Succeeds) (k n : Nat) :
    ∃ b, H.malloc k n = some b ∧ b.length = n := by
  obtain ⟨b, hb⟩ := Option.isSome_iff_exists.mp (h k n)
  exact ⟨b, hb, H.size hb⟩

end CMem

import Swnet.Lib.Mem
import Mathlib.Data.Nat.Digits.Defs

/-!
# Numbers in memory

A number of `k` bytes, the lowest byte first (`toLE`, `ofLE`) or last (`toBE`, `ofBE`), the integer
types over it, and the contents of memory that nobody has written.

* `ofLE_toLE`                      what is stored is read back, up to the size;
* `sizeT`                          an `int` where a `size_t` is expected;
* `memcpy_field`, `slice_field`    a field of a record is written and read in its place;
* `writeAll_place`, `slice_place`  the same for a record whose fields lie one behind the other.
-/

namespace CMem

/-- the low `k` bytes of `v` -/
def toLE : Nat → Nat → Bytes
  | 0, _ => []
  | k + 1, v => UInt8.ofNat v :: toLE k (v / 256)

def ofLE (bs : Bytes) : Nat := Nat.ofDigits 256 (bs.map UInt8.toNat)

def toBE (k v : Nat) : Bytes := (toLE k v).reverse
def ofBE (bs : Bytes) : Nat := ofLE bs.reverse

section
variable (k v : Nat)

@[simp] theorem toLE_length : (toLE k v).length = k := by
  induction k generalizing v with
  | zero => rfl
  | succ k ih => rw [toLE, List.length_cons, ih]

theorem ofLE_toLE : ofLE (toLE k v) = v % 256 ^ k := by
  induction k generalizing v with
  | zero => rw [pow_zero, Nat.mod_one]; rfl
  | succ k ih =>
    have hlow : (UInt8.ofNat v).toNat = v % 256 := UInt8.toNat_ofNat'
    have hrest : Nat.ofDigits 256 ((toLE k (v / 256)).map UInt8.toNat) = v / 256 % 256 ^ k :=
      ih (v / 256)
    show Nat.ofDigits 256 ((UInt8.ofNat v).toNat :: (toLE k (v / 256)).map UInt8.toNat) = _
    rw [Nat.ofDigits_cons, hlow, hrest, pow_succ', Nat.mod_mul]

end

/-! ## the integer types -/

/-- an `int` as a little-endian machine stores it -/
def int32LE (v : Int32) : Bytes := toLE 4 v.toBitVec.toNat
def int32OfLE (bs : Bytes) : Int32 := ⟨⟨BitVec.ofNat 32 (ofLE bs)⟩⟩

/-- an `int64_t` likewise -/
def int64LE (v : Int64) : Bytes := toLE 8 v.toBitVec.toNat
def int64OfLE (bs : Bytes) : Int64 := ⟨⟨BitVec.ofNat 64 (ofLE bs)⟩⟩

@[simp] theorem int32LE_length (v : Int32) : (int32LE v).length = 4 := toLE_length ..
@[simp] theorem int64LE_length (v : Int64) : (int64LE v).length = 8 := toLE_length ..

theorem int32OfLE_int32LE (v : Int32) : int32OfLE (int32LE v) = v := by
  have h : ofLE (int32LE v) = v.toBitVec.toNat := by
    rw [int32LE, ofLE_toLE]
    exact Nat.mod_eq_of_lt v.toBitVec.isLt
  unfold int32OfLE
  rw [h, BitVec.ofNat_toNat, BitVec.setWidth_eq]
  rfl

theorem int64OfLE_int64LE (v : Int64) : int64OfLE (int64LE v) = v := by
  have h : ofLE (int64LE v) = v.toBitVec.toNat := by
    rw [int64LE, ofLE_toLE]
    exact Nat.mod_eq_of_lt v.toBitVec.isLt
  unfold int64OfLE
  rw [h, BitVec.ofNat_toNat, BitVec.setWidth_eq]
  rfl

/-- an `int` converted to a `size_t`: a negative one is large -/
def sizeT (v : Int) : Nat := (v % 2 ^ 64).toNat

theorem sizeT_nat {n : Nat} (h : n < 2 ^ 64) : sizeT n = n := by
  unfold sizeT
  omega

/-- a comparison with a small bound finds a negative `int` too -/
theorem sizeT_lt {v : Int32} {n : Nat} (h : n < 2 ^ 63) :
    sizeT v.toInt < n ↔ 0 ≤ v.toInt ∧ v.toInt < n := by
  have h0 := v.le_toInt
  have h1 := v.toInt_lt
  unfold sizeT
  omega

/-! ## memory behind a pointer -/

/-- the `n` bytes that stand at a pointer -/
def bytesAt (p : Nat → Byte) (n : Nat) : Bytes := (List.range n).map p

@[simp] theorem bytesAt_length (p : Nat → Byte) (n : Nat) : (bytesAt p n).length = n := by
  rw [bytesAt, List.length_map, List.length_range]

/-- memory that agrees from `k` on -/
theorem bytesAt_drop_eq {p q : Nat → Byte} {n k : Nat} :
    (bytesAt p n).drop k = (bytesAt q n).drop k ↔ ∀ i, k ≤ i → i < n → p i = q i := by
  rw [bytesAt, bytesAt, ← List.map_drop, ← List.map_drop, List.map_inj_left]
  refine forall_congr' fun i => ?_
  have hi : i ∈ (List.range n).drop k ↔ k ≤ i ∧ i < n := by
    rw [List.range_eq_range', List.drop_range', List.mem_range'_1]
    omega
  rw [hi, and_imp]

/-! ## the fields of a record -/

section
variable {a f c src : Bytes} {p n : Nat}

theorem memcpy_field (hp : a.length = p) (hn : src.length = n) (hf : f.length = n) :
    memcpy (a ++ f ++ c) p src n = .ok (a ++ src ++ c) := by
  subst hp hn
  rw [memcpy_nat (by simp only [List.length_append]; omega) (Nat.le_refl _)]
  have e : a.length + src.length = (a ++ f).length := by rw [List.length_append, hf]
  rw [e, List.drop_left, List.append_assoc a f c, List.take_left, List.take_length]

theorem slice_field (hp : a.length = p) (hn : f.length = n) : slice (a ++ f ++ c) p n = .ok f := by
  subst hp hn
  rw [slice_nat (by simp only [List.length_append]; omega), List.append_assoc, List.drop_left,
    List.take_left]

/-- memory of `p + n` bytes is `p` bytes and `n` more -/
theorem fields {b : Bytes} (h : b.length = p + n) :
    ∃ x y, b = x ++ y ∧ x.length = p ∧ y.length = n :=
  ⟨b.take p, b.drop p, (List.take_append_drop p b).symm, by rw [List.length_take]; omega,
    by rw [List.length_drop]; omega⟩

end

/-! ## a record that is written field by field -/

/-- each write has an offset -/
def writeAll (buf : Bytes) (ws : List (Nat × Bytes)) : C Bytes :=
  ws.foldlM (fun b w => memcpy b w.1 w.2 w.2.length) buf

/-- the writes of fields that lie one behind the other from `p` on -/
def place : Nat → List Bytes → List (Nat × Bytes)
  | _, [] => []
  | p, f :: fs => (p, f) :: place (p + f.length) fs

/-- Such writes leave the bytes behind the last field as they are. -/
theorem writeAll_place {a rest : Bytes} {p : Nat} {fs : List Bytes} (hp : a.length = p)
    (h : fs.flatten.length ≤ rest.length) :
    writeAll (a ++ rest) (place p fs) = .ok (a ++ fs.flatten ++ rest.drop fs.flatten.length) := by
  induction fs generalizing a rest p with
  | nil =>
    rw [List.flatten_nil, List.append_nil]
    rfl
  | cons f fs ih =>
    rw [List.flatten_cons, List.length_append] at h
    obtain ⟨old, rest', hrest, hold, -⟩ := fields (b := rest) (p := f.length)
      (n := rest.length - f.length) (by omega)
    subst hrest
    have hw : memcpy (a ++ (old ++ rest')) p f f.length = .ok (a ++ f ++ rest') := by
      rw [← List.append_assoc]
      exact memcpy_field hp rfl hold
    have hlen : (a ++ f).length = p + f.length := by rw [List.length_append, hp]
    rw [List.length_append, hold] at h
    show (memcpy (a ++ (old ++ rest')) p f f.length >>= fun b => writeAll b (place (p + f.length) fs))
      = _
    rw [hw, ok_bind, ih hlen (by omega), List.flatten_cons, List.length_append, ← hold,
      List.drop_length_add_append, List.append_assoc a f]

/-- a field is read back -/
theorem slice_place (us : List Bytes) (f : Bytes) (vs : List Bytes) (tail : Bytes) {p n : Nat}
    (hp : us.flatten.length = p) (hn : f.length = n) :
    slice ((us ++ f :: vs).flatten ++ tail) p n = .ok f := by
  have e : (us ++ f :: vs).flatten ++ tail = us.flatten ++ f ++ (vs.flatten ++ tail) := by
    rw [List.flatten_append, List.flatten_cons, List.append_assoc, List.append_assoc,
      List.append_assoc]
  rw [e]
  exact slice_field hp hn

end CMem

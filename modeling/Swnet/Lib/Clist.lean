import Mathlib.Data.List.Chain
import Mathlib.Logic.Function.Basic
import Swnet.Lib.Mem

/-!
# Circular doubly linked lists

Lists of links that are embedded in other objects, with one link that belongs to no object for a head.
A link is known by its address; the memory says what its `next` and its `prev` are.

* `Links.init`, `addTail`, `del`, `first`   the operations;
* `Ring m root xs`    from `root` on, the memory links `xs` in their order, and `root` again;
* `Ring.addTail`, `Ring.unlink`   what the operations do to a ring;
* `alone_del`         a link that is in no ring can be taken out once more;
* `forEachSafe_ring`  a walk that may unlink every link it visits comes past each of them once.
-/

namespace Clist
open CMem

structure Links where
  next : Nat → Nat
  prev : Nat → Nat

namespace Links

def setNext (m : Links) (a b : Nat) : Links := { m with next := Function.update m.next a b }
def setPrev (m : Links) (a b : Nat) : Links := { m with prev := Function.update m.prev a b }

/-- `INIT_LIST_HEAD` -/
def init (m : Links) (a : Nat) : Links := (m.setNext a a).setPrev a a

/-- `list_add_tail` -/
def addTail (m : Links) (a root : Nat) : Links :=
  let p := m.prev root
  (((m.setPrev root a).setNext a root).setPrev a p).setNext p a

/-- `list_del`, which leaves the link itself as it is -/
def del (m : Links) (a : Nat) : Links := (m.setPrev (m.next a) (m.prev a)).setNext (m.prev a) (m.next a)

/-- `list_del` with the `INIT_LIST_HEAD` behind it -/
def unlink (m : Links) (a : Nat) : Links := (m.del a).init a

/-- `list_first_entry_or_null` -/
def first (m : Links) (root : Nat) : Option Nat := if m.next root = root then none else some (m.next root)

/-- the two ends of a pair of neighbours -/
def Joined (m : Links) (a b : Nat) : Prop := m.next a = b ∧ m.prev b = a

/-- a link that is in no list -/
def Alone (m : Links) (a : Nat) : Prop := m.next a = a ∧ m.prev a = a

end Links

structure Ring (m : Links) (root : Nat) (xs : List Nat) : Prop where
  nodup : (root :: xs).Nodup
  chain : List.IsChain m.Joined (root :: xs ++ [root])

section
variable {m m' : Links} {root a b : Nat} {xs ys : List Nat}

/-- a chain looks at `next` of all its links but the last, and at `prev` of all but the first -/
theorem chain_congr {l : List Nat} (h : List.IsChain m.Joined l)
    (hn : ∀ x, x ∈ l.dropLast → m'.next x = m.next x) (hp : ∀ x, x ∈ l.tail → m'.prev x = m.prev x) :
    List.IsChain m'.Joined l := by
  induction l with
  | nil => exact .nil
  | cons a l ih =>
    cases l with
    | nil => exact .singleton a
    | cons b l =>
      obtain ⟨h1, h2⟩ := List.isChain_cons_cons.mp h
      refine List.isChain_cons_cons.mpr ⟨⟨?_, ?_⟩, ih h2 ?_ ?_⟩
      · rw [hn a (by simp)]
        exact h1.1
      · rw [hp b (by simp)]
        exact h1.2
      · exact fun x hx => hn x (by simp [hx])
      · exact fun x hx => hp x (List.mem_cons_of_mem _ hx)

theorem Ring.congr (R : Ring m root xs)
    (h : ∀ x, x ∈ root :: xs → m'.next x = m.next x ∧ m'.prev x = m.prev x) : Ring m' root xs := by
  refine ⟨R.nodup, chain_congr R.chain (fun x hx => (h x ?_).1) fun x hx => (h x ?_).2⟩
  · rwa [List.dropLast_concat] at hx
  · rw [List.cons_append, List.tail_cons] at hx
    rcases List.mem_append.mp hx with hx | hx
    · exact List.mem_cons_of_mem _ hx
    · rw [List.mem_singleton.mp hx]
      exact List.mem_cons_self ..

theorem ring_init (m : Links) (root : Nat) : Ring (m.init root) root [] := by
  refine ⟨by simp, ?_⟩
  show List.IsChain _ [root, root]
  exact List.isChain_pair.mpr ⟨Function.update_self .., Function.update_self ..⟩

theorem alone_init (m : Links) (a : Nat) : (m.init a).Alone a :=
  ⟨Function.update_self .., Function.update_self ..⟩

/-- the link in front of the head -/
theorem Ring.last (R : Ring m root xs) :
    ∃ l p, root :: xs = l ++ [p] ∧ m.Joined p root ∧ List.IsChain m.Joined (l ++ [p]) := by
  obtain ⟨l, p, hl⟩ : ∃ l p, root :: xs = l ++ [p] :=
    ⟨_, _, (List.dropLast_concat_getLast (List.cons_ne_nil root xs)).symm⟩
  have hc := R.chain
  rw [hl, List.append_assoc, List.singleton_append, List.isChain_append_cons_cons] at hc
  exact ⟨l, p, hl, hc.2.1, hc.1⟩

theorem Ring.addTail (R : Ring m root xs) (ha : a ∉ root :: xs) :
    Ring (m.addTail a root) root (xs ++ [a]) := by
  obtain ⟨l, p, hl, ⟨_, hp⟩, hc⟩ := R.last
  have hnd := R.nodup
  have hpa : p ≠ a := fun h => ha (by rw [hl, h]; simp)
  have hra : root ≠ a := fun h => ha (by rw [h]; simp)
  refine ⟨?_, ?_⟩
  · rw [← List.cons_append]
    exact List.nodup_append.mpr ⟨hnd, by simp, fun x hx y hy => by
      rw [List.mem_singleton.mp hy]
      rintro rfl
      exact ha hx⟩
  -- the chain up to `p` is the old one; behind it come `a` and the head
  · rw [List.cons_append, ← List.cons_append, ← List.cons_append, hl]
    rw [List.append_assoc, List.append_assoc, List.singleton_append, List.singleton_append,
      List.isChain_append_cons_cons, List.isChain_pair]
    refine ⟨chain_congr hc (fun x hx => ?_) (fun x hx => ?_), ⟨?_, ?_⟩, ?_, ?_⟩
    · rw [List.dropLast_concat] at hx
      have hxa : x ≠ a := fun h => ha (by rw [hl, ← h]; simp [hx])
      have hxp : x ≠ p := by
        rintro rfl
        rw [hl] at hnd
        exact (List.nodup_append.mp hnd).2.2 x hx x (by simp) rfl
      simp [Links.addTail, Links.setNext, Links.setPrev, hp, hxa, hxp]
    · rw [← hl, List.tail_cons] at hx
      have hxa : x ≠ a := fun h => ha (by rw [← h]; simp [hx])
      have hxr : x ≠ root := by
        rintro rfl
        exact (List.nodup_cons.mp hnd).1 hx
      simp [Links.addTail, Links.setNext, Links.setPrev, hxa, hxr]
    · simp [Links.addTail, Links.setNext, Links.setPrev, hp]
    · simp [Links.addTail, Links.setNext, Links.setPrev, hp]
    · simp [Links.addTail, Links.setNext, Links.setPrev, hp, hpa.symm]
    · simp [Links.addTail, Links.setNext, Links.setPrev, hra]

/-- the two neighbours of a link -/
theorem Ring.around (R : Ring m root (xs ++ a :: ys)) :
    ∃ l p n r, root :: xs = l ++ [p] ∧ ys ++ [root] = n :: r ∧ m.Joined p a ∧ m.Joined a n ∧
      List.IsChain m.Joined (l ++ [p]) ∧ List.IsChain m.Joined (n :: r) := by
  obtain ⟨l, p, hl⟩ : ∃ l p, root :: xs = l ++ [p] :=
    ⟨_, _, (List.dropLast_concat_getLast (List.cons_ne_nil root xs)).symm⟩
  obtain ⟨n, r, hn⟩ : ∃ n r, ys ++ [root] = n :: r :=
    List.exists_cons_of_ne_nil (by simp)
  have hc := R.chain
  rw [← List.cons_append, hl, List.append_assoc, List.append_assoc, List.singleton_append,
    List.cons_append, hn, List.isChain_append_cons_cons, List.isChain_cons_cons] at hc
  exact ⟨l, p, n, r, hl, hn, hc.2.1, hc.2.2.1, hc.1, hc.2.2.2⟩

theorem Ring.del (R : Ring m root (xs ++ a :: ys)) : Ring (m.del a) root (xs ++ ys) := by
  obtain ⟨l, p, n, r, hl, hn, ⟨_, hp⟩, ⟨hna, _⟩, hc1, hc2⟩ := R.around
  have hnd : ((root :: xs) ++ a :: ys).Nodup := R.nodup
  have hnd' : ((root :: xs) ++ ys).Nodup := hnd.sublist (by simp)
  have hdis := (List.nodup_append.mp hnd').2.2
  refine ⟨hnd', ?_⟩
  rw [← List.cons_append, hl, List.append_assoc, List.append_assoc, hn, List.singleton_append,
    List.isChain_append_cons_cons]
  refine ⟨chain_congr hc1 (fun x hx => ?_) (fun x hx => ?_), ⟨?_, ?_⟩,
    chain_congr hc2 (fun x hx => ?_) fun x hx => ?_⟩
  -- before the link: `p` is the last of these, and the next one is not among them
  · rw [List.dropLast_concat] at hx
    have hxp : x ≠ p := by
      rintro rfl
      rw [hl] at hnd'
      exact (List.nodup_append.mp (List.nodup_append.mp hnd').1).2.2 x hx x (by simp) rfl
    simp [Links.del, Links.setNext, Links.setPrev, hp, hxp]
  · rw [← hl, List.tail_cons] at hx
    have hxn : x ≠ n := by
      rintro rfl
      have hmem : x ∈ ys ++ [root] := by rw [hn]; simp
      rcases List.mem_append.mp hmem with h | h
      · exact hdis x (List.mem_cons_of_mem _ hx) x h rfl
      · rw [List.mem_singleton.mp h] at hx
        exact (List.nodup_cons.mp (List.nodup_append.mp hnd').1).1 hx
    simp [Links.del, Links.setNext, Links.setPrev, hna, hxn]
  · simp [Links.del, Links.setNext, Links.setPrev, hp, hna]
  · simp [Links.del, Links.setNext, Links.setPrev, hp, hna]
  -- behind the link
  · rw [← hn, List.dropLast_concat] at hx
    have hxp : x ≠ p := by
      rintro rfl
      exact hdis x (by rw [hl]; simp) x hx rfl
    simp [Links.del, Links.setNext, Links.setPrev, hp, hxp]
  · have hxn : x ≠ n := by
      rintro rfl
      have hys : (ys ++ [root]).Nodup := by
        refine List.nodup_append.mpr ⟨(List.nodup_append.mp hnd').2.1, by simp, fun u hu v hv => ?_⟩
        rw [List.mem_singleton.mp hv]
        exact fun h => hdis root (List.mem_cons_self ..) u hu h.symm
      rw [hn] at hys
      exact (List.nodup_cons.mp hys).1 hx
    simp [Links.del, Links.setNext, Links.setPrev, hna, hxn]

/-- the link is taken out, and is in no list behind that -/
theorem Ring.unlink (R : Ring m root (xs ++ a :: ys)) :
    Ring (m.unlink a) root (xs ++ ys) ∧ (m.unlink a).Alone a := by
  have ha : a ∉ root :: (xs ++ ys) := by
    have hnd : ((root :: xs) ++ a :: ys).Nodup := R.nodup
    exact (List.nodup_cons.mp (List.perm_middle.nodup_iff.mp hnd)).1
  refine ⟨R.del.congr fun x hx => ?_, alone_init _ a⟩
  have hxa : x ≠ a := fun h => ha (h ▸ hx)
  simp [Links.unlink, Links.init, Links.setNext, Links.setPrev, hxa]

theorem alone_del (h : m.Alone a) : m.del a = m := by
  obtain ⟨h1, h2⟩ := h
  unfold Links.del
  rw [h1, h2]
  simp only [Links.setNext, Links.setPrev]
  rw [Function.update_eq_self_iff.mpr h1.symm, Function.update_eq_self_iff.mpr h2.symm]

/-- a link that was taken out before can be taken out once more -/
theorem alone_unlink (h : m.Alone a) : m.unlink a = m := by
  obtain ⟨h1, h2⟩ := h
  unfold Links.unlink
  rw [alone_del ⟨h1, h2⟩]
  unfold Links.init
  simp only [Links.setNext, Links.setPrev]
  rw [Function.update_eq_self_iff.mpr h1.symm, Function.update_eq_self_iff.mpr h2.symm]

theorem Ring.first (R : Ring m root xs) : m.first root = xs.head? := by
  have hc := R.chain
  unfold Links.first
  cases xs with
  | nil =>
    rw [if_pos (List.isChain_pair.mp hc).1]
    rfl
  | cons x xs =>
    have h1 := (List.isChain_cons_cons.mp hc).1.1
    have hx : x ≠ root := fun h => (List.nodup_cons.mp R.nodup).1 (h ▸ List.mem_cons_self ..)
    rw [h1, if_neg hx]
    rfl

/-! ## what is in no list stays so -/

theorem Ring.alone_addTail (R : Ring m root xs) (hb : m.Alone b) (hba : b ≠ a)
    (hr : b ∉ root :: xs) : (m.addTail a root).Alone b := by
  obtain ⟨l, p, hl, ⟨_, hp⟩, _⟩ := R.last
  have hbp : b ≠ p := fun h => hr (by rw [hl, h]; simp)
  have hbr : b ≠ root := fun h => hr (by rw [h]; simp)
  exact ⟨by simp [Links.addTail, Links.setNext, Links.setPrev, hp, hbp, hba, hb.1],
    by simp [Links.addTail, Links.setNext, Links.setPrev, hbr, hba, hb.2]⟩

theorem Ring.alone_unlink (R : Ring m root (xs ++ a :: ys)) (hb : m.Alone b) (hba : b ≠ a)
    (hr : b ∉ root :: (xs ++ ys)) : (m.unlink a).Alone b := by
  obtain ⟨l, p, n, r, hl, hn, ⟨_, hp⟩, ⟨hna, _⟩, _⟩ := R.around
  have hbp : b ≠ p := by
    rintro rfl
    exact hr ((List.mem_append (s := root :: xs)).mpr (Or.inl (by rw [hl]; simp)))
  have hbn : b ≠ n := by
    rintro rfl
    have hmem : b ∈ ys ++ [root] := by rw [hn]; simp
    rcases List.mem_append.mp hmem with h | h
    · exact hr (List.mem_cons_of_mem _ (List.mem_append_right _ h))
    · exact hr (by rw [List.mem_singleton.mp h]; simp)
  exact ⟨by simp [Links.unlink, Links.del, Links.init, Links.setNext, Links.setPrev, hp, hna, hbp, hba, hb.1],
    by simp [Links.unlink, Links.del, Links.init, Links.setNext, Links.setPrev, hp, hna, hbn, hba, hb.2]⟩

/-! ## a walk -/

theorem Ring.next_root (R : Ring m root xs) : m.next root = xs.headD root := by
  have hc := R.chain
  cases xs with
  | nil => exact (List.isChain_pair.mp hc).1
  | cons x xs => exact (List.isChain_cons_cons.mp hc).1.1

theorem Ring.next (R : Ring m root (xs ++ a :: ys)) : m.next a = ys.headD root := by
  obtain ⟨l, p, n, r, _, hn, _, ⟨hna, _⟩, _, _⟩ := R.around
  rw [hna]
  cases ys with
  | nil =>
    cases hn
    rfl
  | cons y ys =>
    cases hn
    rfl

end

section
variable {σ : Type} (links : σ → Links) (root : Nat) (body : Nat → σ → C σ)

/-- `list_for_each_safe` with `cursor` in hand, for less than `k` links: the next link is read before the
body runs -/
def forEachSafe : Nat → Nat → σ → C σ
  | 0, _, _ => .error .spin
  | k + 1, cursor, s =>
    if cursor = root then .ok s
    else do
      let n := (links s).next cursor
      let s ← body cursor s
      forEachSafe k n s

/-- **The rule for a walk.**  `I kept ys s`: of the links that were visited `kept` are still in the list,
and `ys` are to come; the body may take out the link it is given. -/
theorem forEachSafe_ring {I : List Nat → List Nat → σ → Prop}
    (hring : ∀ kept ys s, I kept ys s → Ring (links s) root (kept ++ ys))
    (hbody : ∀ kept x ys s, I kept (x :: ys) s → ∃ s' kept', body x s = .ok s' ∧ I kept' ys s')
    {k : Nat} {kept ys : List Nat} {s : σ} (hk : ys.length < k) (hI : I kept ys s) :
    ∃ s' kept', forEachSafe links root body k (ys.headD root) s = .ok s' ∧ I kept' [] s' := by
  induction ys generalizing k kept s with
  | nil =>
    cases k with
    | zero => exact absurd hk (Nat.not_lt_zero _)
    | succ k => exact ⟨s, kept, if_pos rfl, hI⟩
  | cons x ys ih =>
    cases k with
    | zero => exact absurd hk (Nat.not_lt_zero _)
    | succ k =>
      have R := hring _ _ _ hI
      have hx : x ≠ root := by
        rintro rfl
        exact (List.nodup_cons.mp R.nodup).1 (by simp)
      obtain ⟨s1, kept1, h1, hI1⟩ := hbody kept x ys s hI
      obtain ⟨s', kept', h2, hI'⟩ := ih (Nat.lt_of_succ_lt_succ hk) hI1
      refine ⟨s', kept', ?_, hI'⟩
      unfold forEachSafe
      rw [List.headD_cons, if_neg hx, R.next, h1, ok_bind]
      exact h2

end

end Clist

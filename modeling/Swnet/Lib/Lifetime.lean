import Mathlib.Data.Finset.Card
import Mathlib.Logic.Function.Basic
import Swnet.Lib.Runs

/-!
# Lifetimes

Things that are taken, used and given back: blocks of memory, descriptors, references.  Every taking
has a name of its own, so a name is taken once at most.

* `Touch`, `watch`     the observer: it refuses to take what is not fresh, and to use or give back what
                       is not held;
* `run_uses`, `run_drops`   uses change nothing, and what is held can be given back;
* `count_take`, `count_drop`   in what the observer accepts, nothing is given back twice;
* `Settled`            a trace that is accepted and leaves nothing behind;
* `run_tagged`         things that belong to one of many owners;
* `Counted`            a counter of references, and who has them.
-/

namespace Lifetime
open Runs

inductive Touch (ι : Type) where
  | take (x : ι)
  | use (x : ι)
  | drop (x : ι)
deriving DecidableEq

inductive Fate where
  | fresh
  | held
  | gone
deriving DecidableEq

variable {ι : Type} [DecidableEq ι]

def watch (l : ι → Fate) : Touch ι → Option (ι → Fate)
  | .take x => if l x = .fresh then some (Function.update l x .held) else none
  | .use x => if l x = .held then some l else none
  | .drop x => if l x = .held then some (Function.update l x .gone) else none

/-- nothing has been taken yet -/
def unborn (ι : Type) : ι → Fate := fun _ => .fresh

section
variable {l m : ι → Fate} {x : ι}

theorem watch_take (h : l x = .fresh) : watch l (.take x) = some (Function.update l x .held) :=
  if_pos h

theorem watch_use (h : l x = .held) : watch l (.use x) = some l := if_pos h

theorem watch_drop (h : l x = .held) : watch l (.drop x) = some (Function.update l x .gone) :=
  if_pos h

theorem run_uses {xs : List ι} (h : ∀ x, x ∈ xs → l x = .held) :
    run watch l (xs.map .use) = some l := by
  induction xs with
  | nil => rfl
  | cons x xs ih =>
    rw [List.map_cons, run_cons, watch_use (h x (List.mem_cons_self ..)), Option.bind_some]
    exact ih fun y hy => h y (List.mem_cons_of_mem _ hy)

/-- different things that are held can be given back -/
theorem run_drops {xs : List ι} (hx : xs.Nodup) (h : ∀ x, x ∈ xs → l x = .held) :
    ∃ m, run watch l (xs.map .drop) = some m ∧ (∀ x, x ∈ xs → m x = .gone) ∧
      ∀ x, x ∉ xs → m x = l x := by
  induction xs generalizing l with
  | nil => exact ⟨l, rfl, fun x h => absurd h List.not_mem_nil, fun _ _ => rfl⟩
  | cons x xs ih =>
    obtain ⟨hn, hr⟩ := List.nodup_cons.mp hx
    have hne : ∀ y, y ∈ xs → y ≠ x := fun y hy he => hn (he ▸ hy)
    obtain ⟨m, h1, h2, h3⟩ := ih (l := Function.update l x .gone) hr fun y hy => by
      rw [Function.update_of_ne (hne y hy)]
      exact h y (List.mem_cons_of_mem _ hy)
    refine ⟨m, ?_, ?_, ?_⟩
    · rw [List.map_cons, run_cons, watch_drop (h x (List.mem_cons_self ..)), Option.bind_some]
      exact h1
    · intro y hy
      rcases List.mem_cons.mp hy with rfl | hy
      · rw [h3 y hn, Function.update_self]
      · exact h2 y hy
    · intro y hy
      rw [h3 y fun h => hy (List.mem_cons_of_mem _ h),
        Function.update_of_ne fun he => hy (by rw [he]; exact List.mem_cons_self ..)]

/-- what one event does to the life of `x` -/
theorem watch_cases {e : Touch ι} (h : watch l e = some m) (x : ι) :
    (e = .take x ∧ l x = .fresh ∧ m x = .held) ∨ (e = .drop x ∧ l x = .held ∧ m x = .gone) ∨
      (e ≠ .take x ∧ e ≠ .drop x ∧ m x = l x) := by
  cases e with
  | take y =>
    unfold watch at h
    dsimp only at h
    split at h
    · rename_i hf
      cases h
      by_cases hx : x = y
      · subst hx
        exact Or.inl ⟨rfl, hf, Function.update_self ..⟩
      · exact Or.inr (Or.inr ⟨fun he => hx (Touch.take.inj he).symm, nofun, Function.update_of_ne hx ..⟩)
    · cases h
  | use y =>
    unfold watch at h
    dsimp only at h
    split at h
    · cases h
      exact Or.inr (Or.inr ⟨nofun, nofun, rfl⟩)
    · cases h
  | drop y =>
    unfold watch at h
    dsimp only at h
    split at h
    · rename_i hf
      cases h
      by_cases hx : x = y
      · subst hx
        exact Or.inr (Or.inl ⟨rfl, hf, Function.update_self ..⟩)
      · exact Or.inr (Or.inr ⟨nofun, fun he => hx (Touch.drop.inj he).symm, Function.update_of_ne hx ..⟩)
    · cases h

theorem count_take {es : List (Touch ι)} (h : run watch l es = some m) (x : ι) :
    es.count (.take x) + (if l x = .fresh then 0 else 1) = if m x = .fresh then 0 else 1 := by
  induction es generalizing l with
  | nil =>
    cases h
    rw [List.count_nil, Nat.zero_add]
  | cons e es ih =>
    obtain ⟨k, h1, h2⟩ := run_cons_some watch h
    rw [← ih h2]
    rcases watch_cases h1 x with ⟨rfl, h3, h4⟩ | ⟨rfl, h3, h4⟩ | ⟨h3, _, h4⟩
    · rw [h3, h4, List.count_cons_self]
      rfl
    · rw [h3, h4, List.count_cons_of_ne (show Touch.drop x ≠ .take x by simp)]
      rfl
    · rw [h4, List.count_cons_of_ne h3]

theorem count_drop {es : List (Touch ι)} (h : run watch l es = some m) (x : ι) :
    es.count (.drop x) + (if l x = .gone then 1 else 0) = if m x = .gone then 1 else 0 := by
  induction es generalizing l with
  | nil =>
    cases h
    rw [List.count_nil, Nat.zero_add]
  | cons e es ih =>
    obtain ⟨k, h1, h2⟩ := run_cons_some watch h
    rw [← ih h2]
    rcases watch_cases h1 x with ⟨rfl, h3, h4⟩ | ⟨rfl, h3, h4⟩ | ⟨_, h3, h4⟩
    · rw [h3, h4, List.count_cons_of_ne (show Touch.take x ≠ .drop x by simp)]
      rfl
    · rw [h3, h4, List.count_cons_self]
      rfl
    · rw [h4, List.count_cons_of_ne h3]

/-- the trace is accepted from the beginning, and nothing is held behind it -/
def Settled (es : List (Touch ι)) : Prop :=
  ∃ m, run watch (unborn ι) es = some m ∧ ∀ x, m x ≠ .held

/-- **In a settled trace everything that is taken is given back, once.** -/
theorem Settled.counts {es : List (Touch ι)} (h : Settled es) (x : ι) :
    es.count (.drop x) = es.count (.take x) ∧ es.count (.take x) ≤ 1 := by
  obtain ⟨m, hm, hn⟩ := h
  have h1 := count_take hm x
  have h2 := count_drop hm x
  have h3 := hn x
  unfold unborn at h1 h2
  rw [if_pos rfl, Nat.add_zero] at h1
  rw [if_neg (by decide), Nat.add_zero] at h2
  rw [h1, h2]
  cases hx : m x with
  | fresh => exact ⟨rfl, Nat.zero_le 1⟩
  | held => exact absurd hx h3
  | gone => exact ⟨rfl, Nat.le_refl 1⟩

end

/-! ## owners -/

section
variable {κ : Type} [DecidableEq κ]

/-- the same, of a thing of the owner `k` -/
def Touch.tag (k : κ) : Touch ι → Touch (κ × ι)
  | .take x => .take (k, x)
  | .use x => .use (k, x)
  | .drop x => .drop (k, x)

theorem watch_tagged {l : κ × ι → Fate} {k : κ} {e : Touch ι} {m : ι → Fate}
    (h : watch (fun x => l (k, x)) e = some m) :
    watch l (e.tag k) = some fun y => if y.1 = k then m y.2 else l y := by
  have hupdate : ∀ (x : ι) (f : Fate), Function.update l (k, x) f =
      fun y => if y.1 = k then Function.update (fun x => l (k, x)) x f y.2 else l y := by
    intro x f
    funext y
    obtain ⟨k', x'⟩ := y
    by_cases hk : k' = k
    · subst hk
      rw [if_pos rfl]
      by_cases hx : x' = x
      · subst hx
        rw [Function.update_self, Function.update_self]
      · rw [Function.update_of_ne hx, Function.update_of_ne fun he => hx (Prod.mk.inj he).2]
    · rw [if_neg hk, Function.update_of_ne fun he => hk (Prod.mk.inj he).1]
  have hsame : l = fun y => if y.1 = k then l (k, y.2) else l y := by
    funext y
    split
    · rename_i hk
      rw [← hk]
    · rfl
  cases e with
  | take x =>
    obtain ⟨hf, he⟩ := Option.ite_none_right_eq_some.mp h
    cases he
    exact (watch_take hf).trans (congrArg some (hupdate x .held))
  | use x =>
    obtain ⟨hf, he⟩ := Option.ite_none_right_eq_some.mp h
    cases he
    exact (watch_use hf).trans (congrArg some hsame)
  | drop x =>
    obtain ⟨hf, he⟩ := Option.ite_none_right_eq_some.mp h
    cases he
    exact (watch_drop hf).trans (congrArg some (hupdate x .gone))

/-- what one owner does to his things leaves those of the others alone -/
theorem run_tagged {l : κ × ι → Fate} {k : κ} {es : List (Touch ι)} {m : ι → Fate}
    (h : run watch (fun x => l (k, x)) es = some m) :
    run watch l (es.map (.tag k)) = some fun y => if y.1 = k then m y.2 else l y := by
  induction es generalizing l with
  | nil =>
    cases h
    rw [List.map_nil, run]
    congr 1
    funext y
    split
    · rename_i hk
      rw [← hk]
    · rfl
  | cons e es ih =>
    obtain ⟨m1, h1, h2⟩ := run_cons_some watch h
    rw [List.map_cons, run_of_step watch _ (watch_tagged h1)]
    have hm1 : (fun x => (fun y : κ × ι => if y.1 = k then m1 y.2 else l y) (k, x)) = m1 :=
      funext fun x => if_pos rfl
    rw [ih (by rw [hm1]; exact h2)]
    congr 1
    funext y
    split <;> rfl

end

/-! ## references -/

/-- `n` counts those that have `P` -/
def Counted {κ : Type} (P : κ → Prop) (n : Nat) : Prop := ∃ H : Finset κ, H.card = n ∧ ∀ k, k ∈ H ↔ P k

section
variable {κ : Type} {P Q : κ → Prop} {n : Nat} {k : κ}

theorem counted_zero (h : ∀ k, ¬ P k) : Counted P 0 :=
  ⟨∅, rfl, fun k => ⟨fun hk => absurd hk (Finset.notMem_empty k), fun hk => absurd hk (h k)⟩⟩

theorem Counted.pos (h : Counted P n) (hk : P k) : 0 < n := by
  obtain ⟨H, rfl, hH⟩ := h
  exact Finset.card_pos.mpr ⟨k, (hH k).mpr hk⟩

theorem Counted.congr (h : Counted P n) (hQ : ∀ k, Q k ↔ P k) : Counted Q n := by
  obtain ⟨H, hn, hH⟩ := h
  exact ⟨H, hn, fun k => (hH k).trans (hQ k).symm⟩

variable [DecidableEq κ]

theorem Counted.add (h : Counted P n) (hk : ¬ P k) (hQ : ∀ j, Q j ↔ j = k ∨ P j) : Counted Q (n + 1) := by
  obtain ⟨H, rfl, hH⟩ := h
  refine ⟨insert k H, Finset.card_insert_of_notMem fun hm => hk ((hH k).mp hm), fun j => ?_⟩
  rw [Finset.mem_insert, hH j, hQ j]

theorem Counted.remove (h : Counted P n) (hk : P k) (hQ : ∀ j, Q j ↔ j ≠ k ∧ P j) :
    Counted Q (n - 1) := by
  obtain ⟨H, rfl, hH⟩ := h
  refine ⟨H.erase k, Finset.card_erase_of_mem ((hH k).mpr hk), fun j => ?_⟩
  rw [Finset.mem_erase, hH j, hQ j]

end

end Lifetime

import Mathlib.Data.List.Basic

/-!
# Loops that run until something else than zero

`do v = round() while (v == 0)`, where round `i` is told its number, so that the answers of the
world to it are a function of the number.

* `doWhile`       at most `k` rounds of the loop;
* `doWhile_some`  what it returns is the answer of the first round that answers something else than zero;
* `doWhile_iff`   it returns, with rounds enough, exactly if there is such a round.
-/

namespace Loops

variable {σ : Type} (round : Nat → σ → Int × σ)

/-- the state behind `k` rounds from round `i` on, whatever they answer -/
def after : Nat → Nat → σ → σ
  | 0, _, s => s
  | k + 1, i, s => after k (i + 1) (round i s).2

def doWhile : Nat → Nat → σ → Option (Int × σ)
  | 0, _, _ => none
  | k + 1, i, s => if (round i s).1 = 0 then doWhile k (i + 1) (round i s).2 else some (round i s)

theorem after_succ (k i : Nat) (s : σ) :
    after round (k + 1) i s = (round (i + k) (after round k i s)).2 := by
  induction k generalizing i s with
  | zero => rfl
  | succ k ih =>
    show after round (k + 1) (i + 1) (round i s).2 = _
    rw [ih]
    simp only [after]
    congr 2
    omega

theorem doWhile_some {k i : Nat} {s : σ} {p : Int × σ} (h : doWhile round k i s = some p) :
    ∃ m, p = round (i + m) (after round m i s) ∧ p.1 ≠ 0 ∧
      ∀ l, l < m → (round (i + l) (after round l i s)).1 = 0 := by
  induction k generalizing i s with
  | zero => cases h
  | succ k ih =>
    unfold doWhile at h
    split at h
    case isFalse hv =>
      cases h
      exact ⟨0, rfl, hv, fun l hl => absurd hl (Nat.not_lt_zero l)⟩
    case isTrue hv =>
      obtain ⟨m, h1, h2, h3⟩ := ih h
      refine ⟨m + 1, ?_, h2, fun l hl => ?_⟩
      · rw [h1, show i + (m + 1) = i + 1 + m by omega]
        rfl
      · cases l with
        | zero => exact hv
        | succ l =>
          rw [show i + (l + 1) = i + 1 + l by omega]
          exact h3 l (by omega)

theorem doWhile_of_round {m i : Nat} {s : σ} (h : (round (i + m) (after round m i s)).1 ≠ 0) :
    ∃ p, doWhile round (m + 1) i s = some p := by
  induction m generalizing i s with
  | zero => exact ⟨_, if_neg h⟩
  | succ m ih =>
    unfold doWhile
    split
    · apply ih
      rw [show i + 1 + m = i + (m + 1) by omega]
      exact h
    · exact ⟨_, rfl⟩

theorem doWhile_iff (i : Nat) (s : σ) :
    (∃ k p, doWhile round k i s = some p) ↔ ∃ m, (round (i + m) (after round m i s)).1 ≠ 0 := by
  constructor
  · rintro ⟨k, p, h⟩
    obtain ⟨m, h1, h2, _⟩ := doWhile_some round h
    exact ⟨m, h1 ▸ h2⟩
  · rintro ⟨m, h⟩
    exact ⟨m + 1, doWhile_of_round round h⟩

end Loops

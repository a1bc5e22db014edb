import Swnet.Lib.Runs

/-!
# Channels that keep the order

A channel takes values at one end and hands them out at the other, in the order in which they came
and each of them once.  What the values are, and which system behaves so, is left open.

* `Channel.step`        `put x` and `get`; a channel remembers all that it has taken and handed out;
* `run_fine`            what is handed out is a prefix of what was taken, in every run;
* `run_iff`             the runs from one state to another: both lists grow, and that is all;
* `Views`               a system that looks like a channel from outside: its steps let the two lists
                        grow;
* `Views.run`           every run of such a system is a run of the channel.
-/

namespace Channels
open Runs

structure Channel (α : Type) where
  sent : List α
  got : List α

inductive Act (α : Type) where
  | put (x : α)
  | get

variable {α : Type}

def Channel.empty : Channel α := ⟨[], []⟩

/-- what is taken and not handed out yet -/
def Channel.waiting (c : Channel α) : List α := c.sent.drop c.got.length

def Channel.step (c : Channel α) : Act α → Option (Channel α)
  | .put x => some ⟨c.sent ++ [x], c.got⟩
  | .get => c.waiting.head?.map fun x => ⟨c.sent, c.got ++ [x]⟩

/-- nothing is handed out that was not taken before -/
def Channel.Fine (c : Channel α) : Prop := c.got <+: c.sent

/-- `d` is what `c` can be later on -/
structure Channel.Grows (c d : Channel α) : Prop where
  sent : c.sent <+: d.sent
  got : c.got <+: d.got
  fine : d.Fine

section
variable {c d : Channel α}

theorem fine_empty : (Channel.empty : Channel α).Fine := List.prefix_refl _

theorem Channel.Fine.append (h : c.Fine) : c.got ++ c.waiting = c.sent := by
  obtain ⟨t, ht⟩ := h
  unfold Channel.waiting
  rw [← ht, List.drop_left]

theorem step_grows {a : Act α} (hc : c.Fine) (h : c.step a = some d) : c.Grows d := by
  cases a with
  | put x =>
    cases h
    exact ⟨List.prefix_append _ _, List.prefix_refl _, hc.trans (List.prefix_append _ _)⟩
  | get =>
    obtain ⟨x, hx, rfl⟩ := Option.map_eq_some_iff.mp h
    refine ⟨List.prefix_refl _, List.prefix_append _ _, ?_⟩
    show c.got ++ [x] <+: c.sent
    have happ := hc.append
    cases hw : c.waiting with
    | nil => rw [hw] at hx; cases hx
    | cons y rest =>
      rw [hw] at hx happ
      cases hx
      rw [← happ]
      exact ⟨rest, by rw [List.append_assoc]; rfl⟩

theorem Channel.Grows.refl (h : c.Fine) : c.Grows c := ⟨List.prefix_refl _, List.prefix_refl _, h⟩

theorem Channel.Grows.trans {e : Channel α} (h : c.Grows d) (h' : d.Grows e) : c.Grows e :=
  ⟨h.sent.trans h'.sent, h.got.trans h'.got, h'.fine⟩

theorem run_grows {as : List (Act α)} (hc : c.Fine) (h : run Channel.step c as = some d) :
    c.Grows d := by
  refine run_invariant (I := fun x => c.Grows x) Channel.step ?_ h (.refl hc)
  intro x a y hx hy
  exact hx.trans (step_grows hx.fine hy)

/-- **Nothing is handed out twice, out of order or without having been taken.** -/
theorem run_fine {as : List (Act α)} (h : run Channel.step .empty as = some d) : d.Fine :=
  (run_grows fine_empty h).fine

theorem run_put (c : Channel α) (xs : List α) :
    run Channel.step c (xs.map .put) = some ⟨c.sent ++ xs, c.got⟩ := by
  induction xs generalizing c with
  | nil => rw [List.append_nil]; rfl
  | cons x xs ih =>
    show run Channel.step ⟨c.sent ++ [x], c.got⟩ (xs.map .put) = _
    rw [ih, List.append_assoc]
    rfl

theorem run_get (sent got xs : List α) (h : got ++ xs <+: sent) :
    run Channel.step ⟨sent, got⟩ (List.replicate xs.length .get) = some ⟨sent, got ++ xs⟩ := by
  induction xs generalizing got with
  | nil => rw [List.append_nil]; rfl
  | cons x xs ih =>
    obtain ⟨t, rfl⟩ := h
    have hw : Channel.waiting ⟨got ++ x :: xs ++ t, got⟩ = x :: (xs ++ t) := by
      unfold Channel.waiting
      rw [List.append_assoc, List.drop_left]
      rfl
    have e : got ++ x :: xs = got ++ [x] ++ xs := by rw [List.append_assoc]; rfl
    rw [List.length_cons, List.replicate_succ, run_cons]
    unfold Channel.step
    rw [hw]
    show run Channel.step ⟨got ++ x :: xs ++ t, got ++ [x]⟩ _ = _
    rw [ih (got ++ [x]) (by rw [← e]; exact List.prefix_append _ _), ← e]

/-- **What a channel can become**: all the values come first, then they are handed out. -/
theorem run_iff (hc : c.Fine) : (∃ as, run Channel.step c as = some d) ↔ c.Grows d := by
  constructor
  · rintro ⟨as, h⟩
    exact run_grows hc h
  · rintro ⟨⟨xs, hs⟩, ⟨ys, hg⟩, hf⟩
    refine ⟨xs.map .put ++ List.replicate ys.length .get, ?_⟩
    rw [run_append, run_put, Option.bind_some, hs, run_get _ _ _ (by rw [hg]; exact hf), hg]

end

/-! ## systems that look like a channel -/

section
variable {σ β : Type} {step : σ → β → Option σ}

/-- `I` is an invariant under which the system, seen through `view`, only grows -/
structure Views (step : σ → β → Option σ) (I : σ → Prop) (C : σ → β → Prop) (view : σ → Channel α) :
    Prop where
  fine : ∀ s, I s → (view s).Fine
  step : ∀ s a s', I s → C s a → step s a = some s' → I s' ∧
    (view s).sent <+: (view s').sent ∧ (view s).got <+: (view s').got

variable {I : σ → Prop} {C : σ → β → Prop} {view : σ → Channel α}

/-- **A run of the system is a run of the channel.** -/
theorem Views.run (V : Views step I C view) {s t : σ} {as : List β} (hs : I s)
    (hC : Meets step C s as) (h : run step s as = some t) :
    I t ∧ ∃ bs, Runs.run Channel.step (view s) bs = some (view t) := by
  have hinv : I t ∧ (view s).Grows (view t) := by
    refine run_invariant_meets step (I := fun x => I x ∧ (view s).Grows (view x)) ?_ h hC
      ⟨hs, .refl (V.fine s hs)⟩
    intro x a y hx hCa hy
    obtain ⟨h1, h2, h3⟩ := V.step x a y hx.1 hCa hy
    exact ⟨h1, hx.2.trans ⟨h2, h3, V.fine y h1⟩⟩
  exact ⟨hinv.1, (run_iff (V.fine s hs)).mpr hinv.2⟩

end

end Channels

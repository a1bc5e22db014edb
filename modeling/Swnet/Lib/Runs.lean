import Mathlib.Data.List.Basic

/-!
# Runs of a labelled step function

A system is a partial function `step : σ → α → Option σ`: the action `a` is possible in `s` when
`step s a` is not `none`.

* `run step s as`         the state behind the actions `as`;
* `Meets C step s as`     every action of the run is taken in a state where `C` holds;
* `run_invariant`         what every step keeps, every run keeps;
* `run_invariant_meets`   the same for the runs whose steps meet `C`;
* `trace`, `run_watched`  what the steps of a run tell, and an observer that reads it along;
* `watched_iff`           the runs in which the observer can follow;
* `run_logged`            an observer with all that was told so far;
* `meets_iff`             a condition that is exact: `P` holds all along a run if and only if every step
                          of it meets `C`.
-/

namespace Runs

variable {σ α : Type} (step : σ → α → Option σ)

def run : σ → List α → Option σ
  | s, [] => some s
  | s, a :: as => (step s a).bind (fun s' => run s' as)

/-- every action of the list is taken where `C` holds -/
def Meets (C : σ → α → Prop) : σ → List α → Prop
  | _, [] => True
  | s, a :: as => C s a ∧ ∀ s', step s a = some s' → Meets C s' as

theorem run_cons (s : σ) (a : α) (as : List α) :
    run step s (a :: as) = (step s a).bind (fun s' => run step s' as) := rfl

theorem run_cons_some {s t : σ} {a : α} {as : List α} (h : run step s (a :: as) = some t) :
    ∃ s', step s a = some s' ∧ run step s' as = some t := Option.bind_eq_some_iff.mp h

theorem run_of_step {s t : σ} {a : α} (as : List α) (h : step s a = some t) :
    run step s (a :: as) = run step t as := by
  rw [run_cons, h]
  rfl

theorem run_append (s : σ) (as bs : List α) :
    run step s (as ++ bs) = (run step s as).bind (fun s' => run step s' bs) := by
  induction as generalizing s with
  | nil => rfl
  | cons a as ih =>
    rw [List.cons_append, run_cons, run_cons]
    cases step s a with
    | none => rfl
    | some s' => exact ih s'

theorem run_invariant {I : σ → Prop} (hstep : ∀ s a s', I s → step s a = some s' → I s')
    {s t : σ} {as : List α} (h : run step s as = some t) (hs : I s) : I t := by
  induction as generalizing s with
  | nil => cases h; exact hs
  | cons a as ih =>
    obtain ⟨s', h1, h2⟩ := run_cons_some step h
    exact ih h2 (hstep s a s' hs h1)

theorem run_invariant_meets {I : σ → Prop} {C : σ → α → Prop}
    (hstep : ∀ s a s', I s → C s a → step s a = some s' → I s')
    {s t : σ} {as : List α} (h : run step s as = some t) (hC : Meets step C s as) (hs : I s) :
    I t := by
  induction as generalizing s with
  | nil => cases h; exact hs
  | cons a as ih =>
    obtain ⟨s', h1, h2⟩ := run_cons_some step h
    exact ih h2 (hC.2 s' h1) (hstep s a s' hs hC.1 h1)

theorem meets_cons {C : σ → α → Prop} {s s' : σ} {a : α} {as : List α} (hs : step s a = some s')
    (hC : C s a) (h : Meets step C s' as) : Meets step C s (a :: as) :=
  ⟨hC, fun t ht => by
    rw [hs] at ht
    cases ht
    exact h⟩

/-- a run from a given state can be checked -/
instance decidableMeets (C : σ → α → Prop) [∀ s a, Decidable (C s a)] :
    ∀ (s : σ) (as : List α), Decidable (Meets step C s as)
  | _, [] => inferInstanceAs (Decidable True)
  | s, a :: as =>
    match h : step s a with
    | none => decidable_of_iff (C s a) ⟨fun hC => ⟨hC, fun s' h' => by
        rw [h] at h'
        cases h'⟩, And.left⟩
    | some s' =>
      have := decidableMeets C s' as
      decidable_of_iff (C s a ∧ Meets step C s' as)
        ⟨fun hM => meets_cons step h hM.1 hM.2, fun hM => ⟨hM.1, hM.2 s' h⟩⟩

/-- a condition on the actions alone -/
theorem meets_all {D : α → Prop} {s : σ} {as : List α} (h : ∀ a, a ∈ as → D a) :
    Meets step (fun _ a => D a) s as := by
  induction as generalizing s with
  | nil => exact trivial
  | cons a as ih =>
    exact ⟨h a (List.mem_cons_self ..), fun _ _ => ih fun b hb => h b (List.mem_cons_of_mem _ hb)⟩

theorem meets_and {C D : σ → α → Prop} {s : σ} {as : List α} (hC : Meets step C s as)
    (hD : Meets step D s as) : Meets step (fun s a => C s a ∧ D s a) s as := by
  induction as generalizing s with
  | nil => exact trivial
  | cons a as ih => exact ⟨⟨hC.1, hD.1⟩, fun s' h => ih (hC.2 s' h) (hD.2 s' h)⟩

/-- what the steps of a run tell, one after the other -/
def trace {ε : Type} (tells : σ → α → List ε) : σ → List α → List ε
  | _, [] => []
  | s, a :: as => tells s a ++ (step s a).elim [] fun s' => trace tells s' as

/-- An observer reads what the steps tell.  Where it can follow every step, it can follow a run. -/
theorem run_watched {μ ε : Type} {watch : μ → ε → Option μ} {tells : σ → α → List ε}
    {R : σ → μ → Prop} (hstep : ∀ s a s' m, R s m → step s a = some s' →
      ∃ m', run watch m (tells s a) = some m' ∧ R s' m')
    {s t : σ} {as : List α} (h : run step s as = some t) {m : μ} (hR : R s m) :
    ∃ m', run watch m (trace step tells s as) = some m' ∧ R t m' := by
  induction as generalizing s m with
  | nil =>
    cases h
    exact ⟨m, rfl, hR⟩
  | cons a as ih =>
    obtain ⟨s', h1, h2⟩ := run_cons_some step h
    obtain ⟨m1, h3, h4⟩ := hstep s a s' m hR h1
    obtain ⟨m2, h5, h6⟩ := ih h2 h4
    refine ⟨m2, ?_, h6⟩
    rw [trace, h1, run_append, h3]
    exact h5

/-- What a run tells, with a relation between the state and all that was told so far. -/
theorem run_logged {ε : Type} {tells : σ → α → List ε} {C : σ → α → Prop} {R : σ → List ε → Prop}
    (hstep : ∀ s a s' es, R s es → C s a → step s a = some s' → R s' (es ++ tells s a))
    {s t : σ} {as : List α} (h : run step s as = some t) (hC : Meets step C s as) {es : List ε}
    (hR : R s es) : R t (es ++ trace step tells s as) := by
  induction as generalizing s es with
  | nil =>
    cases h
    rwa [trace, List.append_nil]
  | cons a as ih =>
    obtain ⟨s', h1, h2⟩ := run_cons_some step h
    have h3 := ih h2 (hC.2 s' h1) (hstep s a s' es hR hC.1 h1)
    rw [trace, h1, ← List.append_assoc]
    exact h3

theorem meets_take {C : σ → α → Prop} {s t : σ} {as bs : List α} (hb : bs <+: as)
    (h : run step s bs = some t) (hC : Meets step C s as) : Meets step C s bs := by
  induction bs generalizing s as with
  | nil => exact trivial
  | cons b bs ih =>
    obtain ⟨cs, rfl⟩ := hb
    exact ⟨hC.1, fun s' hs => by
      rw [run_cons, hs] at h
      exact ih (List.prefix_append bs cs) h (hC.2 s' hs)⟩

/-- what holds wherever a run that meets `D` takes a step -/
theorem meets_of_invariant {I : σ → Prop} {C D : σ → α → Prop}
    (hstep : ∀ s a s', I s → D s a → step s a = some s' → I s' ∧ C s a)
    {s t : σ} {as : List α} (h : run step s as = some t) (hD : Meets step D s as) (hs : I s) :
    Meets step C s as := by
  induction as generalizing s with
  | nil => exact trivial
  | cons a as ih =>
    obtain ⟨s', h1, h2⟩ := run_cons_some step h
    obtain ⟨hs', hC⟩ := hstep s a s' hs hD.1 h1
    exact meets_cons step h1 hC (ih h2 (hD.2 s' h1) hs')

/-- a condition `C` that is exact in the runs that meet `D` -/
theorem meets_iff {I P : σ → Prop} {C D : σ → α → Prop}
    (hstep : ∀ s a s', I s → D s a → C s a → step s a = some s' → I s') (hP : ∀ s, I s → P s)
    (hbad : ∀ s a s', I s → ¬ C s a → step s a = some s' → ¬ P s')
    {s t : σ} {as : List α} (h : run step s as = some t) (hD : Meets step D s as) (hs : I s) :
    Meets step C s as ↔ ∀ bs, bs <+: as → ∀ u, run step s bs = some u → P u := by
  constructor
  · intro hC bs hb u hu
    have hI : ∀ s a s', I s → D s a ∧ C s a → step s a = some s' → I s' :=
      fun s a s' hs hDC h => hstep s a s' hs hDC.1 hDC.2 h
    exact hP u (run_invariant_meets step hI hu (meets_take step hb hu (meets_and step hD hC)) hs)
  · intro hall
    induction as generalizing s with
    | nil => exact trivial
    | cons a as ih =>
      obtain ⟨s', h1, h2⟩ := run_cons_some step h
      have hC : C s a := by
        by_contra hC
        refine hbad s a s' hs hC h1 (hall [a] ⟨as, rfl⟩ s' ?_)
        rw [run_cons, h1]
        rfl
      refine ⟨hC, fun s'' hs'' => ?_⟩
      rw [h1] at hs''
      cases hs''
      refine ih h2 (hD.2 s' h1) (hstep s a s' hs hD.1 hC h1) (fun bs hb u hu => hall (a :: bs) ?_ u ?_)
      · obtain ⟨cs, rfl⟩ := hb
        exact ⟨cs, rfl⟩
      · rw [run_cons, h1]
        exact hu

end Runs

import Swnet.Lib.Runs

/-!
# Programs that leave a trace

A program over a state `σ` that writes events `ε` on its way, and what can be said of the events by
an automaton that reads them: a partial function `δ : μ → ε → Option μ`.

* `Prog`         the programs, a monad;
* `Leads`        read from `m` on, the trace of a program is legal, and leads where `Q` holds;
* `leads_bind`   one program behind another;
* `Tells`        all that a program writes has a property;
* `Sim`          two programs that do the same and write different events.
-/

namespace Traced
open Runs

/-- the value, the state behind it and the trace -/
def Prog (ε σ α : Type) : Type := σ → α × σ × List ε

section
variable {ε σ α β : Type}

def Prog.val (x : Prog ε σ α) (s : σ) : α := (x s).1
def Prog.state (x : Prog ε σ α) (s : σ) : σ := (x s).2.1
def Prog.trace (x : Prog ε σ α) (s : σ) : List ε := (x s).2.2

instance : Monad (Prog ε σ) where
  pure a := fun s => (a, s, [])
  bind x f := fun s =>
    ((f (x.val s)).val (x.state s), (f (x.val s)).state (x.state s),
      x.trace s ++ (f (x.val s)).trace (x.state s))

/-- write an event -/
def tell (e : ε) : Prog ε σ Unit := fun s => ((), s, [e])
def look : Prog ε σ σ := fun s => (s, s, [])
def store (g : σ → σ) : Prog ε σ Unit := fun s => ((), g s, [])

variable (a : α) (x : Prog ε σ α) (f : α → Prog ε σ β) (e : ε) (g : σ → σ) (s : σ)

@[simp] theorem val_pure : (pure a : Prog ε σ α).val s = a := rfl
@[simp] theorem state_pure : (pure a : Prog ε σ α).state s = s := rfl
@[simp] theorem trace_pure : (pure a : Prog ε σ α).trace s = [] := rfl
@[simp] theorem val_bind : (x >>= f).val s = (f (x.val s)).val (x.state s) := rfl
@[simp] theorem state_bind : (x >>= f).state s = (f (x.val s)).state (x.state s) := rfl
@[simp] theorem trace_bind :
    (x >>= f).trace s = x.trace s ++ (f (x.val s)).trace (x.state s) := rfl
@[simp] theorem state_tell : (tell e : Prog ε σ Unit).state s = s := rfl
@[simp] theorem trace_tell : (tell e : Prog ε σ Unit).trace s = [e] := rfl
@[simp] theorem val_look : (look : Prog ε σ σ).val s = s := rfl
@[simp] theorem state_look : (look : Prog ε σ σ).state s = s := rfl
@[simp] theorem trace_look : (look : Prog ε σ σ).trace s = [] := rfl
@[simp] theorem state_store : (store g : Prog ε σ Unit).state s = g s := rfl
@[simp] theorem trace_store : (store g : Prog ε σ Unit).trace s = [] := rfl

theorem val_look_bind (f : σ → Prog ε σ β) : (look >>= f).val s = (f s).val s := rfl
theorem state_look_bind (f : σ → Prog ε σ β) : (look >>= f).state s = (f s).state s := rfl
theorem trace_look_bind (f : σ → Prog ε σ β) : (look >>= f).trace s = (f s).trace s := rfl

end

section
variable {ε σ α β μ : Type} (δ : μ → ε → Option μ)

def Leads (m : μ) (x : Prog ε σ α) (Q : α → μ → Prop) : Prop :=
  ∀ s, ∃ m', run δ m (x.trace s) = some m' ∧ Q (x.val s) m'

variable {δ} {m m' : μ} {x : Prog ε σ α} {f : α → Prog ε σ β} {Q : α → μ → Prop} {R : β → μ → Prop}

theorem leads_pure {a : α} (h : Q a m) : Leads δ m (pure a : Prog ε σ α) Q := fun _ => ⟨m, rfl, h⟩

theorem leads_bind (hx : Leads δ m x Q) (hf : ∀ a n, Q a n → Leads δ n (f a) R) :
    Leads δ m (x >>= f) R := by
  intro s
  obtain ⟨n, h1, h2⟩ := hx s
  obtain ⟨n', h3, h4⟩ := hf _ _ h2 (x.state s)
  refine ⟨n', ?_, h4⟩
  rw [trace_bind, run_append, h1]
  exact h3

theorem leads_tell {e : ε} {Q : Unit → μ → Prop} (he : δ m e = some m') (h : Q () m') :
    Leads δ m (tell e : Prog ε σ Unit) Q := by
  intro s
  refine ⟨m', ?_, h⟩
  rw [trace_tell, run_cons, he]
  rfl

/-- one event and the program behind it -/
theorem leads_tell_bind {e : ε} {f : Unit → Prog ε σ β} (he : δ m e = some m')
    (h : Leads δ m' (f ()) R) : Leads δ m (tell e >>= f) R :=
  leads_bind (leads_tell (Q := fun _ n => n = m') he rfl) fun _ _ hn => hn ▸ h

theorem leads_look {Q : σ → μ → Prop} (h : ∀ s, Q s m) : Leads δ m (look : Prog ε σ σ) Q :=
  fun s => ⟨m, rfl, h s⟩

theorem leads_store {g : σ → σ} {Q : Unit → μ → Prop} (h : Q () m) :
    Leads δ m (store g : Prog ε σ Unit) Q := fun _ => ⟨m, rfl, h⟩

theorem leads_mono {Q' : α → μ → Prop} (hx : Leads δ m x Q) (h : ∀ a n, Q a n → Q' a n) :
    Leads δ m x Q' := by
  intro s
  obtain ⟨n, h1, h2⟩ := hx s
  exact ⟨n, h1, h _ _ h2⟩

end

/-! ## a property of each event -/

/-- from `s` on the program writes only what has the property -/
def Tells {ε σ α : Type} (P : ε → Prop) (x : Prog ε σ α) (s : σ) : Prop := ∀ e ∈ x.trace s, P e

section
variable {ε σ α β : Type} {P : ε → Prop} {x : Prog ε σ α} {f : α → Prog ε σ β} {s : σ}

@[simp] theorem tells_pure (a : α) : Tells P (pure a : Prog ε σ α) s := fun _ h => nomatch h

@[simp] theorem tells_bind :
    Tells P (x >>= f) s ↔ Tells P x s ∧ Tells P (f (x.val s)) (x.state s) := by
  unfold Tells
  rw [trace_bind, List.forall_mem_append]

@[simp] theorem tells_tell (e : ε) : Tells P (tell e : Prog ε σ Unit) s ↔ P e := by
  unfold Tells
  rw [trace_tell, List.forall_mem_singleton]

@[simp] theorem tells_look : Tells P (look : Prog ε σ σ) s := fun _ h => nomatch h

@[simp] theorem tells_store (g : σ → σ) : Tells P (store g : Prog ε σ Unit) s :=
  fun _ h => nomatch h

theorem tells_pure_bind {a : α} : Tells P (pure a >>= f) s ↔ Tells P (f a) s := Iff.rfl

theorem tells_look_bind {f : σ → Prog ε σ β} : Tells P (look >>= f) s ↔ Tells P (f s) s := Iff.rfl

theorem tells_store_bind {g : σ → σ} {f : Unit → Prog ε σ β} :
    Tells P (store g >>= f) s ↔ Tells P (f ()) (g s) := Iff.rfl

/-- a program that ends with `x` and an answer -/
theorem tells_bind_pure {g : α → β} : Tells P (x >>= fun a => pure (g a)) s ↔ Tells P x s :=
  tells_bind.trans (and_iff_left (tells_pure _))

theorem tells_last {g : α → β} (hx : Tells P x s) : Tells P (x >>= fun a => pure (g a)) s :=
  tells_bind_pure.mpr hx

theorem tells_then (hx : Tells P x s) (hf : ∀ a s, Tells P (f a) s) : Tells P (x >>= f) s :=
  tells_bind.mpr ⟨hx, hf _ _⟩

end

/-! ## one program with two traces -/

/-- from every state both programs come to the same state, with values that are in the relation -/
def Sim {ε ε' σ α β : Type} (R : α → β → Prop) (x : Prog ε σ α) (y : Prog ε' σ β) : Prop :=
  ∀ s, R (x.val s) (y.val s) ∧ x.state s = y.state s

section
variable {ε ε' σ α β α' β' : Type} {R : α → β → Prop} {Q : α' → β' → Prop}
  {x : Prog ε σ α} {y : Prog ε' σ β} {f : α → Prog ε σ α'} {g : β → Prog ε' σ β'}

theorem sim_pure {a : α} {b : β} (h : R a b) : Sim R (pure a : Prog ε σ α) (pure b : Prog ε' σ β) :=
  fun _ => ⟨h, rfl⟩

theorem sim_bind (hx : Sim R x y) (hf : ∀ a b, R a b → Sim Q (f a) (g b)) :
    Sim Q (x >>= f) (y >>= g) := by
  intro s
  obtain ⟨h1, h2⟩ := hx s
  obtain ⟨h3, h4⟩ := hf _ _ h1 (x.state s)
  rw [val_bind, val_bind, state_bind, state_bind, ← h2]
  exact ⟨h3, h4⟩

/-- the same where the first program ends with `x` -/
theorem sim_bind_right {Q : α → β' → Prop} (hx : Sim R x y)
    (hg : ∀ a b, R a b → Sim Q (pure a : Prog ε σ α) (g b)) :
    Sim Q x (y >>= g) := by
  intro s
  obtain ⟨h1, h2⟩ := hx s
  obtain ⟨h3, h4⟩ := hg _ _ h1 (x.state s)
  rw [val_bind, state_bind, ← h2]
  exact ⟨h3, h4⟩

/-- a program that does nothing but write -/
theorem sim_said {v : α'} {x : Prog ε σ α'} {f : α' → Prog ε σ α}
    (hx : Sim Eq x (pure v : Prog ε' σ α')) (hf : Sim R (f v) y) : Sim R (x >>= f) y := by
  intro s
  obtain ⟨h1, h2⟩ := hx s
  have h1 : x.val s = v := h1
  have h2 : x.state s = s := h2
  rw [val_bind, state_bind, h1, h2]
  exact hf s

/-- an event is written on one side only -/
theorem sim_tell_left {e : ε} {f : Unit → Prog ε σ α} (h : Sim R (f ()) y) :
    Sim R (tell e >>= f) y := h

theorem sim_tell_right {e : ε'} {g : Unit → Prog ε' σ β} (h : Sim R x (g ())) :
    Sim R x (tell e >>= g) := h

/-- the same test on both sides -/
theorem sim_ite {c d : Prop} [Decidable c] [Decidable d] {x' : Prog ε σ α} {y' : Prog ε' σ β}
    (hcd : c ↔ d) (ht : Sim R x y) (hf : Sim R x' y') :
    Sim R (if c then x else x') (if d then y else y') := by
  by_cases h : c
  · rw [if_pos h, if_pos (hcd.mp h)]
    exact ht
  · rw [if_neg h, if_neg (mt hcd.mpr h)]
    exact hf

theorem sim_look {f : σ → Prog ε σ α} {g : σ → Prog ε' σ β} (h : ∀ s, Sim R (f s) (g s)) :
    Sim R (look >>= f) (look >>= g) := fun s => h s s

theorem sim_store {k : σ → σ} {f : Unit → Prog ε σ α} {g : Unit → Prog ε' σ β}
    (h : Sim R (f ()) (g ())) : Sim R (store k >>= f) (store k >>= g) := fun s => h (k s)

end

end Traced

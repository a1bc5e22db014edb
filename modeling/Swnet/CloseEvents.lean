import Swnet.Threads

/-!
# The end of a link

One link with `ncb_deconstruct` for its destructor, and any number of threads at any jobs, interleaved
act by act.  What a thread finds in the link is part of its job.  Of the object manager it is assumed
that `objrefr` fails once closing was requested, and that the destructor runs once, when closing was
requested and there is no reference.

* `World.step`   what a thread or the destructor does next;
* `World.Inv`    the references are those of the threads, and the events are those of the life so far;
* `close_ends`   nothing is posted for the link behind its `EVT_PRE_CLOSE` but its `EVT_CLOSED`.
-/

namespace Swnet
open Traced Runs

/-- how far the destructor is -/
inductive Life where
  | alive
  | preclosed
  | closed
deriving DecidableEq, Repr

/-- what the destructor has posted -/
def Life.events : Life → List Evt
  | .alive => []
  | .preclosed => [.preClose]
  | .closed => [.preClose, .closed]

/-- a thread: its references on the link, and what it is still to do -/
structure Thread where
  held : Nat
  rest : List Act
deriving DecidableEq, Repr

/-- the link as the object manager knows it, its events so far and the threads -/
structure World where
  refs : Nat
  closing : Bool
  life : Life
  events : List Evt
  threads : List Thread
deriving DecidableEq, Repr

/-- a link that is just allocated -/
def World.init : World := ⟨0, false, .alive, [], []⟩

inductive WorldAct where
  /-- a thread begins a job; `s` is what it finds in the link -/
  | start (j : Job) (s : Lnk)
  /-- the next act of a thread -/
  | act (i : Nat)
  /-- the two ends of `ncb_deconstruct` -/
  | preclose
  | closed

/-- the references on the link of a thread behind one act -/
def Act.held (link : Int) (n : Nat) (a : Act) : Nat :=
  if a.takes link then n + 1 else if a = .objdefr link then n - 1 else n

namespace World

/-- one act of a thread on the link; acts on other objects do nothing to it -/
def act (link : Int) (w : World) : Act → Option World
  | .objrefr hld found =>
    if hld = link ∧ found = true then
      if w.closing = false ∧ w.life = .alive then some { w with refs := w.refs + 1 } else none
    else some w
  | .objreff hld found =>
    if hld = link ∧ found = true then
      if w.life = .alive then some { w with refs := w.refs + 1, closing := true } else none
    else some w
  | .objdefr hld => if hld = link then some { w with refs := w.refs - 1 } else some w
  | .objclos hld => if hld = link then some { w with closing := true } else some w
  | .post hld e => if hld = link then some { w with events := w.events ++ [e] } else some w

def step (link : Int) (w : World) : WorldAct → Option World
  | .start j s => some { w with threads := w.threads ++ [⟨0, j.call.trace s⟩] }
  | .act i =>
    match w.threads[i]? with
    | some ⟨held, a :: rest⟩ =>
      (w.act link a).map fun w' => { w' with threads := w.threads.set i ⟨a.held link held, rest⟩ }
    | _ => none
  | .preclose =>
    if w.life = .alive ∧ w.closing = true ∧ w.refs = 0 then
      some { w with life := .preclosed, events := w.events ++ [.preClose] }
    else none
  | .closed =>
    if w.life = .preclosed then some { w with life := .closed, events := w.events ++ [.closed] }
    else none

end World

/-- the thread has `t.held` references on the link, and some on other objects, from which the rest of its
acts is legal -/
def Thread.Legal (link : Int) (t : Thread) : Prop :=
  ∃ m : Int → Nat, m link = t.held ∧ ∃ m', run hold m t.rest = some m'

structure World.Inv (link : Int) (w : World) : Prop where
  refs : w.refs = (w.threads.map Thread.held).sum
  legal : ∀ t, t ∈ w.threads → t.Legal link
  dead : w.life ≠ .alive → w.refs = 0
  events : ∃ data, (∀ e, e ∈ data → e.closes = false) ∧ w.events = data ++ w.life.events

/-- the events of the destructor are behind all others, in their order and each at most once -/
def Sealed (events : List Evt) : Prop :=
  ∃ data tail, events = data ++ tail ∧ (∀ e, e ∈ data → e.closes = false) ∧
    tail <+: [.preClose, .closed]

section
variable {link : Int} {w w' : World} {t : Thread} {ts : List Thread} {a : Act} {rest : List Act}
  {i n : Nat}

/-! ## one act -/

/-- the sum when one thread has changed -/
theorem sum_set (h : ts[i]? = some t) (t' : Thread) :
    ((ts.set i t').map Thread.held).sum + t.held = (ts.map Thread.held).sum + t'.held := by
  induction ts generalizing i with
  | nil => cases h
  | cons x ts ih =>
    cases i with
    | zero =>
      cases h
      simp
      omega
    | succ i =>
      have h1 := ih (i := i) h
      simp only [List.set_cons_succ, List.map_cons, List.sum_cons]
      omega

theorem held_le_sum (h : ts[i]? = some t) : t.held ≤ (ts.map Thread.held).sum := by
  have h1 := sum_set h ⟨0, []⟩
  dsimp only at h1
  omega

/-- a legal act takes the references of the thread where `Act.held` says -/
theorem held_of_hold {m m' : Int → Nat} (h : hold m a = some m') :
    m' link = a.held link (m link) := by
  have h1 := hold_count h link
  unfold Act.held
  by_cases ht : a.takes link = true
  · have hd : a ≠ .objdefr link := by
      rintro rfl
      simp [Act.takes] at ht
    rw [if_pos ht, if_neg hd] at h1
    rw [if_pos ht]
    exact h1
  · rw [if_neg ht] at h1 ⊢
    by_cases hd : a = .objdefr link
    · rw [if_pos hd] at h1 ⊢
      omega
    · rw [if_neg hd] at h1 ⊢
      exact h1

theorem legal_cons (h : Thread.Legal link ⟨n, a :: rest⟩) :
    Thread.Legal link ⟨a.held link n, rest⟩ ∧ (a = .objdefr link → 0 < n) ∧
      ∀ e, a = .post link e → 0 < n ∧ e.closes = false := by
  obtain ⟨m, hm, m', h⟩ := h
  obtain ⟨m1, h1, h2⟩ := run_cons_some hold h
  dsimp only at hm
  refine ⟨⟨m1, ?_, m', h2⟩, ?_, ?_⟩
  · rw [held_of_hold h1, hm]
  · rintro rfl
    change (if m link = 0 then none else _) = some m1 at h1
    split at h1
    · cases h1
    · omega
  · rintro e rfl
    change (if m link = 0 ∨ e.closes = true then none else some m) = some m1 at h1
    split at h1
    · cases h1
    · rename_i hne
      rw [not_or] at hne
      exact ⟨by omega, Bool.eq_false_iff.mpr hne.2⟩

/-! ## one step -/

theorem inv_init (link : Int) : World.init.Inv link :=
  ⟨rfl, fun _ h => absurd h List.not_mem_nil, fun h => absurd rfl h,
    [], fun _ h => absurd h List.not_mem_nil, rfl⟩

/-- a job that is begun is legal from its first act -/
theorem inv_start (hw : w.Inv link) (j : Job) (s : Lnk) :
    World.Inv link { w with threads := w.threads ++ [⟨0, j.call.trace s⟩] } := by
  refine ⟨?_, ?_, hw.dead, hw.events⟩
  · simp [hw.refs]
  · intro t ht
    rcases List.mem_append.mp ht with ht | ht
    · exact hw.legal t ht
    · rw [List.mem_singleton.mp ht]
      obtain ⟨m', h1, _⟩ := leads_job j (fun _ => 0) s
      exact ⟨fun _ => 0, rfl, m', h1⟩

theorem held_takes (h : a.takes link = true) : a.held link n = n + 1 := if_pos h

theorem held_other (h : a.takes link = false) (hd : a ≠ .objdefr link) : a.held link n = n := by
  unfold Act.held
  rw [h, if_neg Bool.false_ne_true, if_neg hd]

/-- What an act does to the link: a reference is taken while it is alive, the life stays as it is, and
an event is written only by a post. -/
theorem act_spec (h : w.act link a = some w') (hn : a = .objdefr link → 0 < n) (hle : n ≤ w.refs) :
    w'.refs + n = w.refs + a.held link n ∧ w'.life = w.life ∧
      (a.takes link = true → w.life = .alive) ∧
      (w'.events = w.events ∨ ∃ e, a = .post link e ∧ w'.events = w.events ++ [e]) := by
  cases a with
  | objrefr hld found =>
    change (if hld = link ∧ found = true then
      if w.closing = false ∧ w.life = .alive then some { w with refs := w.refs + 1 } else none
      else some w) = some w' at h
    split at h
    · rename_i ht
      rw [held_takes (takes_objrefr.mpr ht)]
      split at h
      · rename_i hl
        cases h
        exact ⟨Nat.add_right_comm .., rfl, fun _ => hl.2, Or.inl rfl⟩
      · cases h
    · rename_i ht
      cases h
      rw [held_other (Bool.eq_false_iff.mpr (mt takes_objrefr.mp ht)) (by simp)]
      exact ⟨rfl, rfl, fun h => absurd (takes_objrefr.mp h) ht, Or.inl rfl⟩
  | objreff hld found =>
    change (if hld = link ∧ found = true then
      if w.life = .alive then some { w with refs := w.refs + 1, closing := true } else none
      else some w) = some w' at h
    split at h
    · rename_i ht
      rw [held_takes (takes_objreff.mpr ht)]
      split at h
      · rename_i hl
        cases h
        exact ⟨Nat.add_right_comm .., rfl, fun _ => hl, Or.inl rfl⟩
      · cases h
    · rename_i ht
      cases h
      rw [held_other (Bool.eq_false_iff.mpr (mt takes_objreff.mp ht)) (by simp)]
      exact ⟨rfl, rfl, fun h => absurd (takes_objreff.mp h) ht, Or.inl rfl⟩
  | objdefr hld =>
    change (if hld = link then some { w with refs := w.refs - 1 } else some w) = some w' at h
    split at h
    · rename_i ht
      subst ht
      cases h
      have h1 := hn rfl
      refine ⟨?_, rfl, fun h => by simp at h, Or.inl rfl⟩
      simp [Act.held]
      omega
    · rename_i ht
      cases h
      rw [held_other (by simp) (by simpa using ht)]
      exact ⟨rfl, rfl, fun h => by simp at h, Or.inl rfl⟩
  | objclos hld =>
    change (if hld = link then some { w with closing := true } else some w) = some w' at h
    rw [held_other (by simp) (by simp)]
    split at h <;> cases h <;> exact ⟨rfl, rfl, fun h => by simp at h, Or.inl rfl⟩
  | post hld e =>
    change (if hld = link then some { w with events := w.events ++ [e] } else some w) = some w' at h
    rw [held_other (by simp) (by simp)]
    split at h
    · rename_i ht
      subst ht
      cases h
      exact ⟨rfl, rfl, fun h => by simp at h, Or.inr ⟨e, rfl, rfl⟩⟩
    · cases h
      exact ⟨rfl, rfl, fun h => by simp at h, Or.inl rfl⟩

/-- the thread's act keeps the invariant: who posts has a reference, and the destructor has not begun -/
theorem inv_act (hw : w.Inv link) (hi : w.threads[i]? = some ⟨n, a :: rest⟩)
    (h : w.act link a = some w') :
    World.Inv link { w' with threads := w.threads.set i ⟨a.held link n, rest⟩ } := by
  obtain ⟨hl, hdefr, hpost⟩ := legal_cons (hw.legal _ (List.mem_of_getElem? hi))
  have hle : n ≤ w.refs := hw.refs ▸ held_le_sum hi
  obtain ⟨hr, hlife, hal, hev⟩ := act_spec h hdefr hle
  have hsum := sum_set hi ⟨a.held link n, rest⟩
  refine ⟨?_, ?_, ?_, ?_⟩
  · have := hw.refs
    dsimp only at hsum ⊢
    omega
  · intro t ht
    rcases List.mem_or_eq_of_mem_set ht with ht | rfl
    · exact hw.legal t ht
    · exact hl
  · intro hd
    dsimp only at hd ⊢
    rw [hlife] at hd
    have h0 := hw.dead hd
    have hnt : a.takes link = false := Bool.eq_false_iff.mpr fun ht => hd (hal ht)
    have hnd : a ≠ .objdefr link := fun h => by
      have := hdefr h
      omega
    rw [held_other hnt hnd] at hr
    omega
  · obtain ⟨data, hd, he⟩ := hw.events
    dsimp only
    rw [hlife]
    rcases hev with hev | ⟨e, ha, hev⟩
    · exact ⟨data, hd, hev.trans he⟩
    · obtain ⟨hpos, hce⟩ := hpost e ha
      have halive : w.life = .alive := by
        by_contra hdead
        have := hw.dead hdead
        omega
      rw [halive] at he ⊢
      refine ⟨data ++ [e], fun x hx => ?_, ?_⟩
      · rcases List.mem_append.mp hx with hx | hx
        · exact hd x hx
        · rw [List.mem_singleton.mp hx]
          exact hce
      · rw [hev, he]
        simp [Life.events]

theorem inv_step {b : WorldAct} (hw : w.Inv link) (h : w.step link b = some w') : w'.Inv link := by
  cases b with
  | start j s =>
    cases h
    exact inv_start hw j s
  | act i =>
    unfold World.step at h
    dsimp only at h
    split at h
    · rename_i held a rest hi
      obtain ⟨w1, h1, rfl⟩ := Option.map_eq_some_iff.mp h
      exact inv_act hw hi h1
    · cases h
  | preclose =>
    change (if w.life = .alive ∧ w.closing = true ∧ w.refs = 0 then _ else none) = some w' at h
    split at h
    · rename_i hc
      cases h
      obtain ⟨data, hd, he⟩ := hw.events
      rw [hc.1] at he
      refine ⟨hw.refs, hw.legal, fun _ => hc.2.2, data, hd, ?_⟩
      dsimp only
      rw [he]
      simp [Life.events]
    · cases h
  | closed =>
    change (if w.life = .preclosed then _ else none) = some w' at h
    split at h
    · rename_i hc
      cases h
      obtain ⟨data, hd, he⟩ := hw.events
      rw [hc] at he
      refine ⟨hw.refs, hw.legal, fun _ => hw.dead (by rw [hc]; decide), data, hd, ?_⟩
      dsimp only
      rw [he]
      simp [Life.events]
    · cases h

theorem inv_run {bs : List WorldAct} (h : run (World.step link) World.init bs = some w) :
    w.Inv link :=
  run_invariant (World.step link) (fun _ _ _ hw hs => inv_step hw hs) h (inv_init link)

end

/-- **Behind `EVT_PRE_CLOSE` there is nothing but `EVT_CLOSED`.** -/
theorem close_ends (link : Int) (bs : List WorldAct) (w : World)
    (h : run (World.step link) World.init bs = some w) : Sealed w.events := by
  obtain ⟨data, hd, he⟩ := (inv_run h).events
  refine ⟨data, w.life.events, he, hd, ?_⟩
  cases w.life with
  | alive => exact List.nil_prefix
  | preclosed => exact ⟨[.closed], rfl⟩
  | closed => exact List.prefix_refl _

/-- a packet is being posted when the application destroys the link -/
def destroyedWhileRead : List WorldAct :=
  [.start (.create 5 ⟨true, none⟩) Lnk.created, .act 0, .act 0,
    .start (.iorun 5 ⟨false, false, true, false, false, true, some (.rx true 1 11), ⟨2, true⟩⟩)
      Lnk.created, .act 1,
    .start (.destroy 5 true) Lnk.created, .act 2, .act 1, .act 2, .act 1, .preclose, .closed]

theorem close_ends_destroyed :
    ∃ w, run (World.step 5) World.init destroyedWhileRead = some w ∧
      w.events = [.recvdata, .preClose, .closed] ∧ Sealed w.events :=
  ⟨_, rfl, rfl, close_ends 5 destroyedWhileRead _ rfl⟩

end Swnet

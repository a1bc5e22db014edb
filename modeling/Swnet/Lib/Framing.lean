import Mathlib.Data.List.Basic

/-!
# Framing a stream by self-delimiting headers

A stream is cut into frames: every frame begins with a header of `hd` symbols, and the header
announces how many symbols follow.  Nothing here depends on what the symbols are or on who reads
the stream.

* `Rule.next`          the first frame of a stream, if it is there;
* `Rule.split`         the whole stream: its frames, what is left, and whether it is malformed;
* `split_append`       framing goes on from what was left: `s ++ t` is framed by framing `s` and
                       then `t` behind the rest of `s`;
* `split_append_bad`   a malformed stream stays malformed, with the same frames;
* `split_cutoff`       what is left of a list of frames that is cut off somewhere.
-/

namespace Framing

variable {α : Type}

/-- a header length and what a header announces (`none`: malformed) -/
structure Rule (α : Type) where
  hd : Nat
  pos : 0 < hd
  size : List α → Option Nat

/-- what the front of a stream is -/
inductive Next (α : Type) where
  | more
  | bad
  | frame (f rest : List α)

def Rule.next (R : Rule α) (s : List α) : Next α :=
  if s.length < R.hd then .more
  else match R.size (s.take R.hd) with
    | none => .bad
    | some n => if s.length < R.hd + n then .more
      else .frame (s.take (R.hd + n)) (s.drop (R.hd + n))

section
variable (R : Rule α) {s t f r : List α} {n : Nat}

theorem next_short (h : s.length < R.hd) : R.next s = .more := if_pos h

theorem next_none (h : R.hd ≤ s.length) (hn : R.size (s.take R.hd) = none) : R.next s = .bad := by
  unfold Rule.next
  rw [if_neg (by omega), hn]

theorem next_some (h : R.hd ≤ s.length) (hn : R.size (s.take R.hd) = some n) :
    R.next s = if s.length < R.hd + n then .more
      else .frame (s.take (R.hd + n)) (s.drop (R.hd + n)) := by
  unfold Rule.next
  rw [if_neg (by omega), hn]

theorem next_wait (h : R.hd ≤ s.length) (hn : R.size (s.take R.hd) = some n)
    (hl : s.length < R.hd + n) : R.next s = .more := by
  rw [next_some R h hn, if_pos hl]

theorem next_ready (h : R.hd + n ≤ s.length) (hn : R.size (s.take R.hd) = some n) :
    R.next s = .frame (s.take (R.hd + n)) (s.drop (R.hd + n)) := by
  rw [next_some R (by omega) hn, if_neg (by omega)]

/-- a frame is its header and the body that the header announces -/
theorem next_frame (h : R.next s = .frame f r) :
    ∃ n, R.size (s.take R.hd) = some n ∧ R.hd + n ≤ s.length ∧
      f = s.take (R.hd + n) ∧ r = s.drop (R.hd + n) := by
  unfold Rule.next at h
  split at h
  · cases h
  · split at h
    · cases h
    · rename_i n hn
      split at h
      · cases h
      · cases h
        exact ⟨n, hn, by omega, rfl, rfl⟩

theorem next_frame_append (h : R.next s = .frame f r) : f ++ r = s := by
  obtain ⟨n, _, _, rfl, rfl⟩ := next_frame R h
  exact List.take_append_drop _ _

theorem next_frame_length (h : R.next s = .frame f r) : r.length < s.length := by
  obtain ⟨n, _, hl, _, rfl⟩ := next_frame R h
  have := R.pos
  rw [List.length_drop]
  omega

theorem next_bad (h : R.next s = .bad) : R.hd ≤ s.length ∧ R.size (s.take R.hd) = none := by
  unfold Rule.next at h
  split at h
  · cases h
  · split at h
    · rename_i hn
      exact ⟨by omega, hn⟩
    · split at h <;> cases h

theorem next_append_frame (h : R.next s = .frame f r) (t : List α) :
    R.next (s ++ t) = .frame f (r ++ t) := by
  obtain ⟨n, hn, hl, rfl, rfl⟩ := next_frame R h
  have hh : R.size ((s ++ t).take R.hd) = some n := by
    rw [List.take_append_of_le_length (by omega), hn]
  rw [next_ready R (by rw [List.length_append]; omega) hh,
    List.take_append_of_le_length hl, List.drop_append_of_le_length hl]

theorem next_append_bad (h : R.next s = .bad) (t : List α) : R.next (s ++ t) = .bad := by
  obtain ⟨hl, hn⟩ := next_bad R h
  refine next_none R (by rw [List.length_append]; omega) ?_
  rw [List.take_append_of_le_length hl, hn]

end

/-! ## the whole stream -/

/-- the frames of a stream, the symbols behind the last frame, and whether these are malformed -/
structure Split (α : Type) where
  frames : List (List α)
  rest : List α
  bad : Bool

/-- one more frame in front -/
def Split.cons (f : List α) (x : Split α) : Split α := ⟨f :: x.frames, x.rest, x.bad⟩

def Rule.split (R : Rule α) (s : List α) : Split α :=
  match _h : R.next s with
  | .more => ⟨[], s, false⟩
  | .bad => ⟨[], s, true⟩
  | .frame f r => (R.split r).cons f
termination_by s.length
decreasing_by exact next_frame_length R _h

section
variable (R : Rule α) {s t f r : List α}

theorem split_more (h : R.next s = .more) : R.split s = ⟨[], s, false⟩ := by
  rw [Rule.split]
  split <;> simp_all

theorem split_bad (h : R.next s = .bad) : R.split s = ⟨[], s, true⟩ := by
  rw [Rule.split]
  split <;> simp_all

theorem split_frame (h : R.next s = .frame f r) : R.split s = (R.split r).cons f := by
  rw [Rule.split]
  split <;> simp_all

theorem split_nil : R.split [] = ⟨[], [], false⟩ := split_more R (next_short R R.pos)

/-- frames come from the front of the stream, one `next` at a time -/
theorem split_induction {P : List α → Prop}
    (more : ∀ s, R.next s = .more → P s) (bad : ∀ s, R.next s = .bad → P s)
    (frame : ∀ s f r, R.next s = .frame f r → P r → P s) (s : List α) : P s := by
  induction hk : s.length using Nat.strongRecOn generalizing s with
  | ind k ih =>
    cases h : R.next s with
    | more => exact more s h
    | bad => exact bad s h
    | frame f r =>
      exact frame s f r h (ih r.length (hk ▸ next_frame_length R h) r rfl)

theorem split_flatten_rest (s : List α) : (R.split s).frames.flatten ++ (R.split s).rest = s := by
  induction s using split_induction R with
  | more s h => rw [split_more R h]; rfl
  | bad s h => rw [split_bad R h]; rfl
  | frame s f r h ih =>
    rw [split_frame R h]
    show f ++ (R.split r).frames.flatten ++ (R.split r).rest = s
    rw [List.append_assoc, ih, next_frame_append R h]

theorem split_append (s t : List α) (h : (R.split s).bad = false) :
    R.split (s ++ t) = ⟨(R.split s).frames ++ (R.split ((R.split s).rest ++ t)).frames,
      (R.split ((R.split s).rest ++ t)).rest, (R.split ((R.split s).rest ++ t)).bad⟩ := by
  induction s using split_induction R with
  | more s hn => rw [split_more R hn]; rfl
  | bad s hn => rw [split_bad R hn] at h; cases h
  | frame s f r hn ih =>
    rw [split_frame R hn] at h ⊢
    rw [split_frame R (next_append_frame R hn t), ih h]
    rfl

theorem split_append_bad (s t : List α) (h : (R.split s).bad = true) :
    (R.split (s ++ t)).frames = (R.split s).frames ∧ (R.split (s ++ t)).bad = true := by
  induction s using split_induction R with
  | more s hn => rw [split_more R hn] at h; cases h
  | bad s hn =>
    rw [split_bad R hn, split_bad R (next_append_bad R hn t)]
    exact ⟨rfl, rfl⟩
  | frame s f r hn ih =>
    rw [split_frame R hn] at h ⊢
    rw [split_frame R (next_append_frame R hn t)]
    obtain ⟨h1, h2⟩ := ih h
    exact ⟨congrArg (f :: ·) h1, h2⟩

/-- the frames of a longer stream begin with the frames of the shorter one -/
theorem split_frames_le (s t : List α) : (R.split s).frames <+: (R.split (s ++ t)).frames := by
  cases h : (R.split s).bad with
  | false => rw [split_append R s t h]; exact List.prefix_append _ _
  | true => exact ⟨[], (List.append_nil _).trans (split_append_bad R s t h).1.symm⟩

end

/-- a string that is exactly one frame -/
def Rule.IsFrame (R : Rule α) (f : List α) : Prop := R.next f = .frame f []

theorem Rule.IsFrame.next {R : Rule α} {f : List α} (h : R.IsFrame f) (t : List α) :
    R.next (f ++ t) = .frame f t := next_append_frame R h t

/-- a frame that is cut short is not a frame, nor malformed -/
theorem Rule.IsFrame.next_take {R : Rule α} {f : List α} (h : R.IsFrame f) {k : Nat} (hk : k < f.length) :
    R.next (f.take k) = .more := by
  cases hn : R.next (f.take k) with
  | more => rfl
  | bad =>
    have h1 := next_append_bad R hn (f.drop k)
    rw [List.take_append_drop, h] at h1
    cases h1
  | frame g r =>
    have h1 := next_append_frame R hn (f.drop k)
    rw [List.take_append_drop, h] at h1
    injection h1 with _ h2
    have h3 := congrArg List.length h2
    rw [List.length_append, List.length_drop, List.length_nil] at h3
    omega

/-- how many of the strings `fs`, laid end to end, end within the first `n` places -/
def inside : Nat → List (List α) → Nat
  | _, [] => 0
  | n, f :: fs => if f.length ≤ n then inside (n - f.length) fs + 1 else 0

theorem inside_le (n : Nat) (fs : List (List α)) : inside n fs ≤ fs.length := by
  induction fs generalizing n with
  | nil => exact Nat.le_refl 0
  | cons f fs ih =>
    rw [inside, List.length_cons]
    split
    · exact Nat.succ_le_succ (ih _)
    · exact Nat.zero_le _

theorem inside_all (fs : List (List α)) : inside fs.flatten.length fs = fs.length := by
  induction fs with
  | nil => rfl
  | cons f fs ih =>
    rw [inside, List.flatten_cons, List.length_append, if_pos (Nat.le_add_right _ _),
      Nat.add_sub_cancel_left, ih]
    rfl

theorem inside_mono {n m : Nat} (h : n ≤ m) (fs gs : List (List α)) :
    inside n fs ≤ inside m (fs ++ gs) := by
  induction fs generalizing n m with
  | nil => exact Nat.zero_le _
  | cons f fs ih =>
    rw [List.cons_append, inside, inside]
    by_cases hf : f.length ≤ n
    · rw [if_pos hf, if_pos (Nat.le_trans hf h)]
      exact Nat.succ_le_succ (ih (by omega))
    · rw [if_neg hf]
      exact Nat.zero_le _

/-- a string that is not there to its end does not count -/
theorem inside_short {n : Nat} {fs : List (List α)} {f : List α}
    (h : n < fs.flatten.length + f.length) : inside n (fs ++ [f]) = inside n fs := by
  induction fs generalizing n with
  | nil =>
    rw [List.flatten_nil, List.length_nil, Nat.zero_add] at h
    rw [List.nil_append]
    exact if_neg (Nat.not_le.mpr h)
  | cons g fs ih =>
    rw [List.flatten_cons, List.length_append] at h
    rw [List.cons_append, inside, inside]
    by_cases hg : g.length ≤ n
    · rw [if_pos hg, if_pos hg, ih (by omega)]
    · rw [if_neg hg, if_neg hg]

/-- the place where the first of the strings ends that do not end within `n` -/
def insideLength (n : Nat) (fs : List (List α)) : Nat := (fs.take (inside n fs)).flatten.length

/-- a stream of frames that is cut off somewhere -/
theorem split_cutoff {R : Rule α} (fs : List (List α)) (hf : ∀ f ∈ fs, R.IsFrame f) {s : List α}
    (hs : s <+: fs.flatten) :
    R.split s = ⟨fs.take (inside s.length fs), s.drop (insideLength s.length fs), false⟩ := by
  unfold insideLength
  induction fs generalizing s with
  | nil =>
    rw [List.flatten_nil, List.prefix_nil] at hs
    subst hs
    exact split_nil R
  | cons f fs ih =>
    have hF := hf f (List.mem_cons_self ..)
    obtain ⟨t, ht⟩ := hs
    rw [List.flatten_cons] at ht
    rw [inside]
    by_cases h : f.length ≤ s.length
    · -- the first frame is there
      have e : s = f ++ s.drop f.length := by
        have h1 := congrArg (List.take f.length) ht
        rw [List.take_left, List.take_append_of_le_length h] at h1
        conv_lhs => rw [← List.take_append_drop f.length s, h1]
      have hp : s.drop f.length <+: fs.flatten := by
        refine ⟨t, ?_⟩
        rw [e, List.append_assoc] at ht
        exact List.append_cancel_left ht
      have ih' := ih (fun g hg => hf g (List.mem_cons_of_mem _ hg)) hp
      rw [List.length_drop] at ih'
      rw [if_pos h, List.take_succ_cons, List.flatten_cons, List.length_append, ← List.drop_drop]
      conv_lhs => rw [e]
      rw [split_frame R (hF.next _), ih']
      rfl
    · have e : s = f.take s.length := by
        have h1 := congrArg (List.take s.length) ht
        rwa [List.take_left, List.take_append_of_le_length (by omega)] at h1
      rw [if_neg h]
      have hm := hF.next_take (k := s.length) (by omega)
      rw [← e] at hm
      exact split_more R hm

end Framing

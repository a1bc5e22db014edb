import Mathlib.Data.Nat.Count
import Swnet.Lib.Loops
import Swnet.Link

/-!
# The accept loop

`tcp_syn` on the thread of the listening link: what becomes of every descriptor that `accept(2)`
returns, and of the loop.  A descriptor is known by the number of the call that returned it.

* `tcpSynRound`        `__tcp_syn`;
* `tcpSyn_returns_iff` when the loop ends;
* `kept_iff`           when no descriptor is lost and no listener is given up for nothing.
-/

namespace Swnet
open Loops

abbrev TCP_LISTEN : Nat := 10

/-- what one accepted connection meets on its way to be a link -/
structure Conn where
  /-- the descriptor -/
  fd : Nat
  /-- the answer of `objallo` -/
  hld : Int
  /-- the two buffers -/
  packet : Bool
  rxBuffer : Bool
  /-- the answer of `io_attach` -/
  attach : Int
  /-- somebody orders the link closed before its reference is released -/
  closes : Bool

/-- what `accept(2)` answers -/
inductive Accepted where
  | conn (c : Conn)
  | err (errno : Nat)

/-- `tries` counts the calls of `accept(2)`; `opened` are the descriptors that are open, `links` the ones
that a live link has for its socket. -/
structure Syn where
  tries : Nat
  opened : List Nat
  links : List Nat
deriving DecidableEq, Repr

def Syn.init : Syn := ⟨0, [], []⟩

/-- the return value of `__tcp_syn_dpc` -/
def tcpSynDpc (c : Conn) : Int :=
  if c.packet = false then -ENOMEM
  else if c.rxBuffer = false then -ENOMEM
  else if c.attach < 0 then -1
  else 0

/-- `close(2)` -/
def Syn.close (s : Syn) (j : Nat) : Syn := { s with opened := s.opened.filter (· ≠ j) }

/-- `io_close` on the descriptor `fd` -/
def Syn.ioClose (s : Syn) (j fd : Nat) : Syn := if fd > 0 then s.close j else s

/-- `ncb_deconstruct` -/
def Syn.deconstruct (s : Syn) (j fd : Nat) : Syn :=
  { s with links := s.links.filter (· ≠ j) }.ioClose j fd

/-- `__tcp_syn` behind a successful `accept(2)` -/
def Syn.welcome (s : Syn) (c : Conn) : Syn :=
  let j := s.tries
  let s := { s with tries := j + 1, opened := s.opened ++ [j] }
  if c.hld < 0 then s.close j
  else
    let s := { s with links := s.links ++ [j] }
    -- the reference is the last one if the link is ordered closed
    if tcpSynDpc c < 0 ∨ c.closes = true then s.deconstruct j c.fd else s

/-- the check of `__tcp_syn`: `TCP_INFO` reports a listening socket, or cannot be had -/
def listens (ktcp : Option Nat) : Bool := ktcp.all (· == TCP_LISTEN)

section
variable (infos : Nat → Option Nat) (answers : Nat → Accepted)

/-- `__tcp_syn`, given what `TCP_INFO` reports in each round and what each call of `accept(2)` answers -/
def tcpSynRound (i : Nat) (s : Syn) : Int × Syn :=
  if listens (infos i) then
    match answers s.tries with
    | .conn c => (0, s.welcome c)
    | .err e => (tcpSynTry e, { s with tries := s.tries + 1 })
  else (0, s)

/-- at most `k` rounds of `tcp_syn` -/
def tcpSyn (k : Nat) : Option (Int × Syn) := doWhile (tcpSynRound infos answers) k 0 Syn.init

/-- an answer of `accept(2)` that ends the loop -/
def Accepted.Last : Accepted → Prop
  | .conn _ => False
  | .err e => tcpSynTry e ≠ 0

end

section
variable {infos : Nat → Option Nat} {answers : Nat → Accepted}

@[simp] theorem ioClose_tries (s : Syn) (j fd : Nat) : (s.ioClose j fd).tries = s.tries := by
  unfold Syn.ioClose
  split <;> rfl

theorem welcome_tries (s : Syn) (c : Conn) : (s.welcome c).tries = s.tries + 1 := by
  unfold Syn.welcome Syn.deconstruct
  dsimp only
  split
  · rfl
  · split
    · exact ioClose_tries ..
    · rfl

/-- a round calls `accept(2)` once if the check lets it -/
theorem round_tries (i : Nat) (s : Syn) :
    (tcpSynRound infos answers i s).2.tries = s.tries + if listens (infos i) = true then 1 else 0 := by
  unfold tcpSynRound
  split
  · cases answers s.tries with
    | conn c => exact welcome_tries s c
    | err e => rfl
  · rfl

theorem after_tries (m : Nat) (s : Syn) :
    (after (tcpSynRound infos answers) m 0 s).tries
      = s.tries + Nat.count (fun i => listens (infos i) = true) m := by
  induction m with
  | zero => simp [after]
  | succ m ih =>
    rw [after_succ, round_tries, ih, Nat.count_succ, Nat.zero_add]
    exact Nat.add_assoc ..

/-- a round that ends the loop -/
theorem round_last (i : Nat) (s : Syn) :
    (tcpSynRound infos answers i s).1 ≠ 0 ↔ listens (infos i) = true ∧ (answers s.tries).Last := by
  unfold tcpSynRound
  split
  · rename_i hl
    cases answers s.tries with
    | conn c => simp [Accepted.Last]
    | err e => simp [Accepted.Last, hl]
  · rename_i hl
    simp [hl]

/-- **When the accept loop ends.**  The answers of `accept(2)` up to number `n` go on, and that one is
final. -/
theorem tcpSyn_returns_iff (n : Nat) (hgo : ∀ j, j < n → ¬ (answers j).Last)
    (hlast : (answers n).Last) :
    (∃ k p, tcpSyn infos answers k = some p) ↔
      ∃ m, n < Nat.count (fun i => listens (infos i) = true) m := by
  unfold tcpSyn
  rw [doWhile_iff]
  have htries : ∀ m, (after (tcpSynRound infos answers) m 0 Syn.init).tries
      = Nat.count (fun i => listens (infos i) = true) m := by
    intro m
    rw [after_tries]
    exact Nat.zero_add _
  constructor
  · rintro ⟨m, hm⟩
    rw [Nat.zero_add, round_last, htries] at hm
    refine ⟨m + 1, ?_⟩
    rw [Nat.count_succ, if_pos hm.1]
    by_contra hn
    exact hgo _ (by omega) hm.2
  · rintro ⟨m, hm⟩
    -- the round in which number `n` is asked for
    induction m with
    | zero => simp at hm
    | succ m ih =>
      by_cases hlt : n < Nat.count (fun i => listens (infos i) = true) m
      · exact ih hlt
      · rw [Nat.count_succ] at hm
        by_cases hl : listens (infos m) = true
        · rw [if_pos hl] at hm
          have he : Nat.count (fun i => listens (infos i) = true) m = n := by omega
          refine ⟨m, ?_⟩
          rw [Nat.zero_add, round_last, htries, he]
          exact ⟨hl, hlast⟩
        · rw [if_neg hl] at hm
          omega

end

/-- an interruption, a connection, and then nothing pending -/
def callers : Nat → Accepted
  | 0 => .err 4
  | 1 => .conn ⟨7, 1, true, true, 5, false⟩
  | _ => .err 11

theorem tcpSyn_returns_iff_callers :
    (∃ k p, tcpSyn (fun _ => some TCP_LISTEN) callers k = some p) ↔
      ∃ m, 2 < Nat.count (fun _ => listens (some TCP_LISTEN) = true) m := by
  refine tcpSyn_returns_iff 2 (fun j hj h => ?_) (fun h => by cases h)
  rcases (show j = 0 ∨ j = 1 by omega) with rfl | rfl
  · exact h rfl
  · exact h

/-- while the socket is in another state the loop goes round without a call -/
theorem notListening_spins : (Accepted.err 11).Last ∧
    ∀ k, tcpSyn (fun _ => some 7) (fun _ => .err 11) k = none := by
  refine ⟨(fun h => by cases h), fun k => ?_⟩
  cases h : tcpSyn (fun _ => some 7) (fun _ => .err 11) k with
  | none => rfl
  | some p =>
    obtain ⟨m, h1, h2, _⟩ := doWhile_some _ h
    rw [h1, round_last] at h2
    cases h2.1

/-! ## descriptors and the listener -/

/-- every open descriptor is the socket of exactly one live link -/
def Syn.Kept (s : Syn) : Prop := ∀ j, j ∈ s.opened → s.links.count j = 1

abbrev EMFILE : Nat := 24

/-- interruption or abort, nothing pending, a limit on descriptors, no memory, a firewall -/
def Survivable (errno : Nat) : Prop :=
  errno = 4 ∨ errno = ECONNABORTED ∨ errno = 11 ∨ errno = EMFILE ∨ errno = 23 ∨ errno = 105 ∨
    errno = 12 ∨ errno = 1

/-- the connection becomes a link that stays -/
def Conn.lives (c : Conn) : Bool := decide (0 ≤ c.hld) && decide (0 ≤ tcpSynDpc c) && !c.closes

/-- the link is given up at once, and its descriptor is number zero, which `io_close` does not close -/
def Conn.leaks (c : Conn) : Bool := decide (0 ≤ c.hld) && !c.lives && decide (c.fd = 0)

def Accepted.lives : Accepted → Bool
  | .conn c => c.lives
  | .err _ => false

def Accepted.leaks : Accepted → Bool
  | .conn c => c.leaks
  | .err _ => false

section
variable {infos : Nat → Option Nat} {answers : Nat → Accepted} {s : Syn}

theorem filter_ne_of_lt {l : List Nat} {n : Nat} (h : ∀ j, j ∈ l → j < n) :
    (l ++ [n]).filter (· ≠ n) = l := by
  rw [List.filter_append, List.filter_eq_self.mpr]
  · simp
  · intro j hj
    have hlt := h j hj
    simp
    omega

/-- what becomes of one connection -/
theorem welcome_eq (ho : ∀ j, j ∈ s.opened → j < s.tries) (hl : ∀ j, j ∈ s.links → j < s.tries)
    (c : Conn) : s.welcome c = ⟨s.tries + 1,
      s.opened ++ (if (c.lives || c.leaks) = true then [s.tries] else []),
      s.links ++ (if c.lives = true then [s.tries] else [])⟩ := by
  unfold Syn.welcome Syn.deconstruct Syn.ioClose Syn.close
  dsimp only
  by_cases hh : c.hld < 0
  · have h1 : c.lives = false := by simp [Conn.lives, hh]
    have h2 : c.leaks = false := by simp [Conn.leaks, hh]
    rw [if_pos hh, h1, h2, filter_ne_of_lt ho]
    simp
  rw [if_neg hh]
  by_cases hd : tcpSynDpc c < 0 ∨ c.closes = true
  · have h1 : c.lives = false := by
      rcases hd with hd | hd
      · simp [Conn.lives, hd]
      · simp [Conn.lives, hd]
    rw [if_pos hd]
    by_cases hf : c.fd > 0
    · have h2 : c.leaks = false := by
        simp [Conn.leaks]
        omega
      rw [if_pos hf, h1, h2, filter_ne_of_lt ho, filter_ne_of_lt hl]
      simp
    · have h2 : c.leaks = true := by
        simp [Conn.leaks, h1]
        omega
      rw [if_neg hf, h1, h2, filter_ne_of_lt hl]
      simp
  · have h1 : c.lives = true := by
      rw [not_or] at hd
      simp [Conn.lives, hd.2]
      omega
    rw [if_neg hd, h1]
    simp

/-- the descriptors behind `m` rounds -/
theorem after_eq (hL : ∀ i, listens (infos i) = true) (m : Nat) :
    after (tcpSynRound infos answers) m 0 Syn.init
      = ⟨m, (List.range m).filter (fun j => (answers j).lives || (answers j).leaks),
          (List.range m).filter (fun j => (answers j).lives)⟩ := by
  induction m with
  | zero => rfl
  | succ m ih =>
    rw [after_succ, ih]
    unfold tcpSynRound
    rw [Nat.zero_add, if_pos (hL m)]
    have hlt : ∀ (q : Nat → Bool) j, j ∈ (List.range m).filter q → j < m := fun q j hj =>
      List.mem_range.mp (List.mem_filter.mp hj).1
    rw [List.range_succ, List.filter_append, List.filter_append]
    dsimp only
    cases ha : answers m with
    | conn c =>
      dsimp only
      rw [welcome_eq (hlt _) (hlt _)]
      simp [List.filter_singleton, ha, Accepted.lives, Accepted.leaks]
    | err e => simp [ha, Accepted.lives, Accepted.leaks]

theorem not_lives_of_leaks {a : Accepted} (h : a.leaks = true) : a.lives = false := by
  cases a with
  | conn c =>
    have h1 : c.leaks = true := h
    show c.lives = false
    simp only [Conn.leaks, Bool.and_eq_true, Bool.not_eq_true'] at h1
    exact h1.1.2
  | err e => rfl

/-- the loop goes on only after an interruption or an abort -/
theorem survivable_of_zero {e : Nat} (h : tcpSynTry e = 0) : Survivable e := by
  unfold tcpSynTry at h
  unfold Survivable
  split at h
  · rename_i h1
    exact h1.elim Or.inl fun h => Or.inr (Or.inl h)
  split at h
  · cases h
  split at h
  · rename_i h1
    omega
  · cases h

/-- only a limit on the descriptors of the process is taken for fatal by mistake -/
theorem not_survivable {e : Nat} (h : tcpSynTry e < 0) (hE : e ≠ EMFILE) : ¬ Survivable e := by
  unfold tcpSynTry at h
  unfold Survivable
  split at h
  · cases h
  split at h
  · cases h
  split at h
  · omega
  · omega

/-- the loop returns the errno of the first final answer, and the calls before it went on -/
theorem tcpSyn_some (hL : ∀ i, listens (infos i) = true) {k : Nat} {v : Int}
    (h : tcpSyn infos answers k = some (v, s)) :
    ∃ m e, answers m = .err e ∧ v = tcpSynTry e ∧ (∀ j, j < m → ¬ (answers j).Last) ∧
      s = ⟨m + 1, (List.range m).filter (fun j => (answers j).lives || (answers j).leaks),
        (List.range m).filter (fun j => (answers j).lives)⟩ := by
  obtain ⟨m, h1, h2, h3⟩ := doWhile_some _ h
  rw [after_eq hL] at h1
  have hgo : ∀ j, j < m → ¬ (answers j).Last := by
    intro j hj hlast
    have h4 := h3 j hj
    rw [after_eq hL] at h4
    exact (@round_last infos answers _ _).mpr ⟨hL _, hlast⟩ h4
  unfold tcpSynRound at h1
  rw [Nat.zero_add, if_pos (hL m)] at h1
  dsimp only at h1
  cases ha : answers m with
  | conn c =>
    rw [ha] at h1
    cases h1
    exact absurd rfl h2
  | err e =>
    rw [ha] at h1
    cases h1
    exact ⟨m, e, ha, rfl, hgo, rfl⟩

/-- a descriptor is lost exactly where the connection leaks -/
theorem filed_iff (t m : Nat) :
    (Syn.mk t ((List.range m).filter fun j => (answers j).lives || (answers j).leaks)
      ((List.range m).filter fun j => (answers j).lives)).Kept ↔
      ∀ j, j < m → (answers j).leaks = false := by
  constructor
  · intro hK j hj
    cases hlk : (answers j).leaks with
    | false => rfl
    | true =>
      have hlv : (answers j).lives = false := not_lives_of_leaks hlk
      have h1 := hK j (List.mem_filter.mpr ⟨List.mem_range.mpr hj, by rw [hlk]; simp⟩)
      have h2 : j ∉ (List.range m).filter (fun j => (answers j).lives) := by
        intro hmem
        have h3 := (List.mem_filter.mp hmem).2
        rw [hlv] at h3
        cases h3
      rw [List.count_eq_zero.mpr h2] at h1
      cases h1
  · intro hall j hj
    obtain ⟨hj, hp⟩ := List.mem_filter.mp hj
    rw [hall j (List.mem_range.mp hj), Bool.or_false] at hp
    refine List.count_eq_one_of_mem (List.nodup_range.filter _) ?_
    exact List.mem_filter.mpr ⟨hj, hp⟩

/-- the listener is given up for nothing exactly where the process ran out of descriptors -/
theorem deserved_iff {m e : Nat} (ha : answers m = .err e) (hgo : ∀ j, j < m → ¬ (answers j).Last) :
    (tcpSynTry e < 0 → ∃ j e', j < m + 1 ∧ answers j = .err e' ∧ ¬ Survivable e') ↔
      ∀ j, j < m + 1 → answers j ≠ .err EMFILE := by
  constructor
  · intro hS j hj he
    have hjm : j = m := by
      by_contra hne
      refine hgo j (by omega) ?_
      rw [he]
      exact show tcpSynTry EMFILE ≠ 0 by decide
    rw [hjm, ha] at he
    cases he
    obtain ⟨i, e', hi, hie, hn⟩ := hS (show tcpSynTry EMFILE < 0 by decide)
    by_cases him : i = m
    · rw [him, ha] at hie
      cases hie
      exact hn (by unfold Survivable; simp)
    · have h1 := hgo i (by omega)
      rw [hie] at h1
      exact hn (survivable_of_zero (not_not.mp h1))
  · intro hall hv
    refine ⟨m, e, Nat.lt_succ_self m, ha, not_survivable hv fun he => ?_⟩
    refine hall m (Nat.lt_succ_self m) ?_
    rw [ha, he]

/-- **When no descriptor is lost and no listener given up for nothing.** -/
theorem kept_iff (infos : Nat → Option Nat) (answers : Nat → Accepted)
    (hL : ∀ i, listens (infos i) = true) (k : Nat) (v : Int) (s : Syn)
    (h : tcpSyn infos answers k = some (v, s)) :
    (s.Kept ∧ (v < 0 → ∃ j e, j < s.tries ∧ answers j = .err e ∧ ¬ Survivable e)) ↔
      ∀ j, j < s.tries → (answers j).leaks = false ∧ answers j ≠ .err EMFILE := by
  obtain ⟨m, e, ha, rfl, hgo, rfl⟩ := tcpSyn_some hL h
  dsimp only
  rw [filed_iff, deserved_iff ha hgo]
  constructor
  · rintro ⟨hK, hS⟩ j hj
    refine ⟨?_, hS j hj⟩
    rcases Nat.lt_succ_iff_lt_or_eq.mp hj with hj | rfl
    · exact hK j hj
    · rw [ha]
      rfl
  · intro hall
    exact ⟨fun j hj => (hall j (Nat.lt_succ_of_lt hj)).1, fun j hj => (hall j hj).2⟩

end

theorem kept_iff_callers : ∃ v s, tcpSyn (fun _ => some TCP_LISTEN) callers 3 = some (v, s) ∧
    ((s.Kept ∧ (v < 0 → ∃ j e, j < s.tries ∧ callers j = .err e ∧ ¬ Survivable e)) ↔
      ∀ j, j < s.tries → (callers j).leaks = false ∧ callers j ≠ .err EMFILE) :=
  ⟨_, _, rfl, kept_iff (fun _ => some TCP_LISTEN) callers (fun _ => rfl) 3 _ _ rfl⟩

/-- the process is out of descriptors: the listener goes -/
theorem tooManyFiles_closes : ∃ v s, tcpSyn (fun _ => some TCP_LISTEN) (fun _ => .err EMFILE) 1
      = some (v, s) ∧
    v < 0 ∧ ¬ ∃ j e, j < s.tries ∧ (Accepted.err EMFILE) = .err e ∧ ¬ Survivable e := by
  refine ⟨_, _, rfl, by decide, ?_⟩
  rintro ⟨j, e, _, he, hn⟩
  cases he
  exact hn (by unfold Survivable; simp)

end Swnet

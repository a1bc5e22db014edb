import Mathlib.Data.List.FinRange
import Mathlib.Data.List.OfFn
import Swnet.Acts

/-!
# The I/O block

`__io_init` with its two loops, `pipe_create`, `io_attach` and `io_pipefd`, for any number of divisions.
An epoll instance is served by the thread of its division alone.

* `Io`             the block, what epoll watches and the open pipes;
* `Boot`           an initialisation in which all succeeds;
* `together_iff`   when a link and its pipe are watched by one epoll instance.
-/

namespace Swnet

/-- `struct epoll_object_block`; `none` is what `malloc` left there -/
structure EpollBlock where
  epfd : Int
  actived : Option Bool
  pipefdw : Option Int
deriving DecidableEq, Repr

/-- a descriptor that an epoll instance watches, with the handle in its events -/
structure Watch where
  epfd : Int
  fd : Int
  hld : Nat
deriving DecidableEq, Repr

/-- the block with its `d` divisions, what is watched, and the two ends of each open pipe -/
structure Io (d : Nat) where
  epoptr : Fin d → EpollBlock
  watches : List Watch
  pipes : List (Int × Int)

/-- the division of an object -/
def division (d : Nat) [NeZero d] (hld : Nat) : Fin d := Fin.ofNat d hld

/-- the answers of `epoll_create(2)` and `posix__pthread_create` -/
structure EpollOut where
  epfd : Int
  thread : Bool

/-- one round of the first loop of `__io_init` -/
def EpollOut.block (o : EpollOut) : EpollBlock :=
  if o.epfd < 0 then ⟨o.epfd, none, none⟩
  else if o.thread = false then ⟨-1, some false, none⟩
  else ⟨o.epfd, some true, none⟩

/-- What `pipe_create` is answered: the two ends from `pipe2(2)`, the handle from `objallo`, and the
error numbers in `io_attach`. -/
structure PipeEnd where
  fds : Option (Int × Int)
  hld : Option Nat
  fcntl : Nat
  ctl : Nat

namespace Io
variable {d : Nat} [NeZero d]

/-- `io_attach` -/
def ioAttach (s : Io d) (hld : Nat) (sockfd : Int) (fcntl ctl : Nat) : Int × Io d :=
  if ioFcntl fcntl < 0 then (ioFcntl fcntl, s)
  else
    let epfd := (s.epoptr (division d hld)).epfd
    if ctl ≠ 0 ∧ ctl ≠ EEXIST then (-1, s)
    else (epfd, { s with watches := s.watches ++ [⟨epfd, sockfd, hld⟩] })

/-- `pipe_create` -/
def pipeCreate (s : Io d) (o : PipeEnd) : Int × Io d :=
  match o.fds with
  | none => (-1, s)
  | some (rd, wr) =>
    match o.hld with
    | none => (-1, s)
    | some hld =>
      let p := s.ioAttach hld rd o.fcntl o.ctl
      if p.1 < 0 then (-1, p.2) else (wr, { p.2 with pipes := p.2.pipes ++ [(rd, wr)] })

/-- one round of the second loop of `__io_init` -/
def initPipe (s : Io d) (o : PipeEnd) (i : Fin d) : Io d :=
  let p := s.pipeCreate o
  { p.2 with
    epoptr := Function.update p.2.epoptr i { p.2.epoptr i with pipefdw := some p.1 } }

/-- `__io_init` behind its `malloc` -/
def ioInit (E : Fin d → EpollOut) (P : Fin d → PipeEnd) : Io d :=
  (List.finRange d).foldl (fun s i => s.initPipe (P i) i) ⟨fun i => (E i).block, [], []⟩

/-- `io_pipefd` -/
def ioPipefd (s : Io d) (hld : Nat) : Option Int := (s.epoptr (division d hld)).pipefdw

/-- links are attached, each with its handle and its socket -/
def attachAll (s : Io d) (ls : List (Nat × Nat)) : Io d :=
  ls.foldl (fun s l => (s.ioAttach l.1 l.2 0 0).2) s

def Watches (s : Io d) (epfd fd : Int) : Prop := ∃ hld, ⟨epfd, fd, hld⟩ ∈ s.watches

/-- the pipe that the link is given is read where its socket is -/
def Together (s : Io d) (hld : Nat) (sockfd : Int) : Prop :=
  ∃ epfd rd wr, s.Watches epfd sockfd ∧ s.ioPipefd hld = some wr ∧ (rd, wr) ∈ s.pipes ∧
    s.Watches epfd rd

end Io

/-! ## an initialisation in which all succeeds -/

/-- the descriptors from the kernel and the handles from `objallo` -/
structure Boot (d : Nat) where
  epfd : Fin d → Nat
  rd : Fin d → Nat
  wr : Fin d → Nat
  hld : Fin d → Nat

namespace Boot
variable {d : Nat}

def epoll (B : Boot d) (i : Fin d) : EpollOut := ⟨B.epfd i, true⟩
def pipe (B : Boot d) (i : Fin d) : PipeEnd := ⟨some (B.rd i, B.wr i), some (B.hld i), 0, 0⟩

/-- `__io_init` and then the links -/
def up [NeZero d] (B : Boot d) (ls : List (Nat × Nat)) : Io d :=
  (Io.ioInit B.epoll B.pipe).attachAll ls

/-- descriptors that are open at one time are different -/
def Fresh (B : Boot d) (ls : List (Nat × Nat)) : Prop :=
  (List.ofFn B.epfd ++ (List.ofFn B.rd ++ (List.ofFn B.wr ++ ls.map Prod.snd))).Nodup

end Boot

section
variable {d : Nat} [NeZero d] {B : Boot d} {s : Io d}

/-- the first loop leaves the instances of the kernel -/
def Io.Booted (B : Boot d) (s : Io d) : Prop := ∀ j, (s.epoptr j).epfd = B.epfd j

theorem ioAttach_good (hs : s.Booted B) (hld : Nat) (fd : Int) :
    s.ioAttach hld fd 0 0 = ((B.epfd (division d hld) : Int),
      { s with watches := s.watches ++ [⟨B.epfd (division d hld), fd, hld⟩] }) := by
  unfold Io.ioAttach
  rw [if_neg (by decide)]
  dsimp only
  rw [if_neg (by simp), hs]

theorem initPipe_good (hs : s.Booted B) (i : Fin d) :
    s.initPipe (B.pipe i) i =
      ⟨Function.update s.epoptr i { s.epoptr i with pipefdw := some (B.wr i) },
        s.watches ++ [⟨B.epfd (division d (B.hld i)), B.rd i, B.hld i⟩],
        s.pipes ++ [((B.rd i : Int), (B.wr i : Int))]⟩ := by
  unfold Io.initPipe Io.pipeCreate Boot.pipe
  dsimp only
  rw [ioAttach_good hs]
  dsimp only
  rw [if_neg (by omega)]

/-- the second loop: each division keeps its epoll instance and gets the write end of the pipe that was
made for it, and the read end goes where the handle of the pipe says -/
theorem foldl_initPipe (is : List (Fin d)) (hs : s.Booted B) :
    (is.foldl (fun s i => s.initPipe (B.pipe i) i) s).Booted B ∧
    (∀ j, (j ∈ is ∨ (s.epoptr j).pipefdw = some (B.wr j : Int)) →
      ((is.foldl (fun s i => s.initPipe (B.pipe i) i) s).epoptr j).pipefdw = some (B.wr j : Int)) ∧
    (is.foldl (fun s i => s.initPipe (B.pipe i) i) s).watches =
      s.watches ++ is.map (fun i => ⟨B.epfd (division d (B.hld i)), B.rd i, B.hld i⟩) ∧
    (is.foldl (fun s i => s.initPipe (B.pipe i) i) s).pipes =
      s.pipes ++ is.map (fun i => ((B.rd i : Int), (B.wr i : Int))) := by
  induction is generalizing s with
  | nil => exact ⟨hs, fun j h => h.resolve_left List.not_mem_nil, by simp, by simp⟩
  | cons i is ih =>
    rw [List.foldl_cons, initPipe_good hs]
    have hb : Io.Booted B (⟨Function.update s.epoptr i { s.epoptr i with pipefdw := some (B.wr i) },
        s.watches ++ [⟨B.epfd (division d (B.hld i)), B.rd i, B.hld i⟩],
        s.pipes ++ [((B.rd i : Int), (B.wr i : Int))]⟩ : Io d) := by
      intro j
      by_cases hj : j = i
      · subst hj
        simp [hs j]
      · simp [hj, hs j]
    obtain ⟨h1, h2, h3, h4⟩ := ih hb
    refine ⟨h1, fun j hj => h2 j ?_, by simp [h3], by simp [h4]⟩
    by_cases hji : j = i
    · subst hji
      exact Or.inr (by simp)
    · rcases hj with hj | hj
      · exact Or.inl ((List.mem_cons.mp hj).resolve_left hji)
      · exact Or.inr (by simp [hji, hj])

theorem attachAll_good (ls : List (Nat × Nat)) (hs : s.Booted B) :
    (s.attachAll ls).epoptr = s.epoptr ∧ (s.attachAll ls).pipes = s.pipes ∧
    (s.attachAll ls).watches = s.watches ++ ls.map fun l => ⟨B.epfd (division d l.1), l.2, l.1⟩ := by
  induction ls generalizing s with
  | nil => exact ⟨rfl, rfl, (List.append_nil _).symm⟩
  | cons l ls ih =>
    unfold Io.attachAll at ih ⊢
    rw [List.foldl_cons, ioAttach_good hs]
    obtain ⟨h1, h2, h3⟩ := ih
      (s := { s with watches := s.watches ++ [⟨B.epfd (division d l.1), l.2, l.1⟩] }) hs
    exact ⟨h1, h2, by simp [h3]⟩

/-- `__io_init` where all succeeds -/
theorem ioInit_good (B : Boot d) :
    (Io.ioInit B.epoll B.pipe).Booted B ∧
    (∀ j, ((Io.ioInit B.epoll B.pipe).epoptr j).pipefdw = some (B.wr j : Int)) ∧
    (Io.ioInit B.epoll B.pipe).watches =
      (List.finRange d).map (fun i => ⟨B.epfd (division d (B.hld i)), B.rd i, B.hld i⟩) ∧
    (Io.ioInit B.epoll B.pipe).pipes =
      (List.finRange d).map fun i => ((B.rd i : Int), (B.wr i : Int)) := by
  have h0 : Io.Booted B (⟨fun i => (B.epoll i).block, [], []⟩ : Io d) := by
    intro j
    show (B.epoll j).block.epfd = B.epfd j
    unfold EpollOut.block Boot.epoll
    dsimp only
    rw [if_neg (by omega), if_neg (by simp)]
  obtain ⟨h1, h2, h3, h4⟩ := foldl_initPipe (List.finRange d) h0
  exact ⟨h1, fun j => h2 j (Or.inl (List.mem_finRange j)), h3, h4⟩

/-- what the library has when all is up -/
structure Up (B : Boot d) (ls : List (Nat × Nat)) (s : Io d) : Prop where
  pipefd : ∀ hld, s.ioPipefd hld = some (B.wr (division d hld) : Int)
  pipes : ∀ rd wr : Int, (rd, wr) ∈ s.pipes ↔ ∃ i, rd = B.rd i ∧ wr = B.wr i
  watches : ∀ epfd fd : Int, s.Watches epfd fd ↔
    (∃ i, epfd = B.epfd (division d (B.hld i)) ∧ fd = B.rd i) ∨
      ∃ l, l ∈ ls ∧ epfd = B.epfd (division d l.1) ∧ fd = l.2

theorem up_spec (B : Boot d) (ls : List (Nat × Nat)) : Up B ls (B.up ls) := by
  obtain ⟨h1, h2, h3, h4⟩ := ioInit_good B
  obtain ⟨h5, h6, h7⟩ := attachAll_good ls h1
  refine ⟨fun hld => ?_, fun rd wr => ?_, fun epfd fd => ?_⟩
  · unfold Io.ioPipefd Boot.up
    rw [h5]
    exact h2 _
  · unfold Boot.up
    rw [h6, h4]
    simp [eq_comm]
  · unfold Io.Watches Boot.up
    rw [h7, h3]
    constructor
    · rintro ⟨hld, h⟩
      rcases List.mem_append.mp h with h | h
      · obtain ⟨i, _, hw⟩ := List.mem_map.mp h
        cases hw
        exact Or.inl ⟨i, rfl, rfl⟩
      · obtain ⟨l, hl, hw⟩ := List.mem_map.mp h
        cases hw
        exact Or.inr ⟨l, hl, rfl, rfl⟩
    · rintro (⟨i, rfl, rfl⟩ | ⟨l, hl, rfl, rfl⟩)
      · exact ⟨B.hld i, List.mem_append_left _ (List.mem_map.mpr ⟨i, List.mem_finRange i, rfl⟩)⟩
      · exact ⟨l.1, List.mem_append_right _ (List.mem_map.mpr ⟨l, hl, rfl⟩)⟩

/-! ## one thread or two -/

omit [NeZero d] in
/-- descriptors that are equal are the same one -/
theorem fresh_spec {ls : List (Nat × Nat)} (h : B.Fresh ls) :
    Function.Injective B.epfd ∧ Function.Injective B.rd ∧ Function.Injective B.wr ∧
      (∀ i l, l ∈ ls → B.rd i ≠ l.2) ∧ ∀ l l', l ∈ ls → l' ∈ ls → l.2 = l'.2 → l = l' := by
  obtain ⟨h1, h2, _⟩ := List.nodup_append.mp h
  obtain ⟨h3, h4, h5⟩ := List.nodup_append.mp h2
  obtain ⟨h6, h7, _⟩ := List.nodup_append.mp h4
  refine ⟨List.nodup_ofFn.mp h1, List.nodup_ofFn.mp h3, List.nodup_ofFn.mp h6, ?_, ?_⟩
  · intro i l hl
    exact h5 _ (List.mem_ofFn.mpr ⟨i, rfl⟩) _
      (List.mem_append_right _ (List.mem_map_of_mem hl))
  · intro l l' hl hl' he
    exact List.inj_on_of_nodup_map h7 hl hl' he

/-- in terms of the divisions -/
theorem together_division {ls : List (Nat × Nat)} (h : B.Fresh ls) {l : Nat × Nat} (hl : l ∈ ls) :
    (B.up ls).Together l.1 l.2 ↔ division d (B.hld (division d l.1)) = division d l.1 := by
  obtain ⟨hE, hR, hW, hRL, hL⟩ := fresh_spec h
  have U := up_spec B ls
  constructor
  · rintro ⟨epfd, rd, wr, h1, h2, h3, h4⟩
    -- the instance is that of the link's division
    have he : epfd = B.epfd (division d l.1) := by
      rcases (U.watches _ _).mp h1 with ⟨i, _, hi⟩ | ⟨l', hl', he, hf⟩
      · exact absurd (Int.ofNat.inj hi).symm (hRL i l hl)
      · rwa [hL l l' hl hl' (Int.ofNat.inj hf)]
    -- the pipe is the one that was made for it
    obtain ⟨i, rfl, hwi⟩ := (U.pipes _ _).mp h3
    rw [U.pipefd] at h2
    have hi : i = division d l.1 := hW (Int.ofNat.inj (hwi.symm.trans (Option.some.inj h2).symm))
    subst hi
    rcases (U.watches _ _).mp h4 with ⟨k, hk1, hk2⟩ | ⟨l', hl', _, hf⟩
    · rw [← hR (Int.ofNat.inj hk2), he] at hk1
      exact (hE (Int.ofNat.inj hk1)).symm
    · exact absurd (Int.ofNat.inj hf) (hRL _ l' hl')
  · intro hd
    refine ⟨B.epfd (division d l.1), B.rd (division d l.1), B.wr (division d l.1), ?_, ?_, ?_, ?_⟩
    · exact (U.watches _ _).mpr (Or.inr ⟨l, hl, rfl, rfl⟩)
    · exact U.pipefd l.1
    · exact (U.pipes _ _).mpr ⟨_, rfl, rfl⟩
    · exact (U.watches _ _).mpr (Or.inl ⟨division d l.1, by rw [hd], rfl⟩)

theorem division_eq {h k : Nat} : division d h = division d k ↔ h % d = k % d :=
  ⟨fun h => congrArg Fin.val h, fun h => Fin.ext h⟩

/-- Where `objallo` counts the handles up and `b` is the last one before the pipes, all links have their
pipe on their own thread, or none has. -/
theorem together_counted {b : Nat} (hB : ∀ i, B.hld i = b + 1 + i) {ls : List (Nat × Nat)}
    (h : B.Fresh ls) {l : Nat × Nat} (hl : l ∈ ls) :
    (B.up ls).Together l.1 l.2 ↔ d ∣ b + 1 := by
  rw [together_division h hl, division_eq, hB]
  change (b + 1 + l.1 % d) % d = l.1 % d ↔ d ∣ b + 1
  rw [Nat.add_mod_mod]
  constructor
  · intro he
    have h0 := Nat.sub_mod_eq_zero_of_mod_eq he
    rw [Nat.add_sub_cancel] at h0
    exact Nat.dvd_of_mod_eq_zero h0
  · rintro ⟨k, hk⟩
    rw [hk, Nat.mul_add_mod]

end

/-- **When a link and its pipe are watched by one epoll instance.** -/
theorem together_iff (d : Nat) [NeZero d] (B : Boot d) (ls : List (Nat × Nat)) (h : B.Fresh ls)
    (l : Nat × Nat) (hl : l ∈ ls) :
    (B.up ls).Together l.1 l.2 ↔ B.hld (division d l.1) % d = l.1 % d :=
  (together_division h hl).trans division_eq

/-- two divisions: the block has the handle 0, and the pipes have 1 and 2 -/
def twoDivisions : Boot 2 :=
  ⟨fun i => 10 + i, fun i => 12 + 2 * i, fun i => 13 + 2 * i, fun i => 1 + i⟩

theorem together_iff_swapped : (twoDivisions.up [(4, 16)]).Together 4 16 ↔ 1 % 2 = 4 % 2 :=
  together_iff 2 twoDivisions [(4, 16)] (by unfold Boot.Fresh; decide) (4, 16)
    (List.mem_singleton.mpr rfl)

/-- the socket 16 of the link 4 is watched by 10, and its pipe by 11 -/
theorem pipe_elsewhere : (twoDivisions.up [(4, 16)]).ioPipefd 4 = some 13 ∧
    (twoDivisions.up [(4, 16)]).watches = [⟨11, 12, 1⟩, ⟨10, 14, 2⟩, ⟨10, 16, 4⟩] ∧
    (twoDivisions.up [(4, 16)]).pipes = [(12, 13), (14, 15)] ∧
    ¬ (twoDivisions.up [(4, 16)]).Together 4 16 := by
  have hp : (twoDivisions.up [(4, 16)]).ioPipefd 4 = some 13 := by decide
  have hw : (twoDivisions.up [(4, 16)]).watches = [⟨11, 12, 1⟩, ⟨10, 14, 2⟩, ⟨10, 16, 4⟩] := by
    decide
  have hs : (twoDivisions.up [(4, 16)]).pipes = [(12, 13), (14, 15)] := by decide
  refine ⟨hp, hw, hs, ?_⟩
  rintro ⟨epfd, rd, wr, ⟨h1, hw1⟩, h2, h3, ⟨h4, hw4⟩⟩
  rw [hw] at hw1 hw4
  rw [hs] at h3
  rw [hp] at h2
  simp at hw1 h2 h3 hw4
  omega

end Swnet

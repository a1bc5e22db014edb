import Swnet.LinkLife

/-!
# What becomes of the parts of a link

* `Stale`             the socket is closed, and `sockfd` still has its number;
* `link_settles`      when nothing is lost, and nothing used that was given back;
* `close_detached`    when the socket is out of its epoll instance before it is closed.
-/

namespace Swnet
open Runs Lifetime

namespace LinkLife

section
variable (fd : Nat)

/-- the socket is closed, and `sockfd` is not yet -1 -/
def Body.Stale (b : Body) : Prop := b.names fd ∧ b.opened = false

instance decidableStale (b : Body) : Decidable (b.Stale fd) :=
  inferInstanceAs (Decidable (b.names fd ∧ b.opened = false))

/-- no thread makes a system call on a number that is no longer that of the socket -/
def State.Careful {n : Nat} (s : State n) : Step n → Prop
  | .work _ d => d.calls = true → ¬ s.body.Stale fd
  | _ => True

instance decidableCareful {n : Nat} (s : State n) (a : Step n) : Decidable (s.Careful fd a) := by
  cases a with
  | work i d => exact inferInstanceAs (Decidable (d.calls = true → ¬ s.body.Stale fd))
  | _ => exact inferInstanceAs (Decidable True)

end

/-- what is held -/
structure Held {n : Nat} (s : State n) (l : Part → Fate) : Prop where
  start : s.stage = .start → l .sockfd = .fresh
  sockfd : s.stage ≠ .start → l .sockfd = if s.body.opened = true then .held else .gone
  packet : s.stage.ended = false → l .packet = if s.body.packet = true then .held else .fresh
  rxBuffer : s.stage.ended = false → l .rxBuffer = if s.body.rxBuffer = true then .held else .fresh
  freed : s.stage.ended = true → l .packet ≠ .held ∧ l .rxBuffer ≠ .held
  mreq : ∀ k, l (.mreq k) = if k < s.body.mreqs then .held else .fresh
  record : ∀ k, s.body.mreq = some k → k < s.body.mreqs

section
variable {m : Maker} {fd : Nat} {epfd : Int} {n : Nat} {s s' : State n} {b b' : Body} {l : Part → Fate}
  {c : Option ClosePc} {k : ClosePc} {i : Fin n} {p p' : Pc} {d : Do}

/-! ## what is held -/

theorem Held.same (G : Held s l) (h1 : s'.stage = .start ↔ s.stage = .start)
    (h2 : s'.stage.ended = s.stage.ended) (ho : s'.body.opened = s.body.opened)
    (hp : s'.body.packet = s.body.packet) (hr : s'.body.rxBuffer = s.body.rxBuffer)
    (hm : s'.body.mreq = s.body.mreq) (hn : s'.body.mreqs = s.body.mreqs) : Held s' l where
  start h := G.start (h1.mp h)
  sockfd h := by
    rw [ho]
    exact G.sockfd fun h' => h (h1.mpr h')
  packet h := by
    rw [hp]
    exact G.packet (h2.symm.trans h)
  rxBuffer h := by
    rw [hr]
    exact G.rxBuffer (h2.symm.trans h)
  freed h := G.freed (h2.symm.trans h)
  mreq k := by
    rw [hn]
    exact G.mreq k
  record k h := by
    rw [hn]
    rw [hm] at h
    exact G.record k h

/-- a system call on `sockfd` -/
theorem use_held (hl : l .sockfd = if b.opened = true then .held else .gone) (h : ¬ b.Stale fd) :
    run watch l (b.use fd) = some l := by
  unfold Body.use
  split
  · rename_i hn
    have ho : b.opened = true := by
      by_contra ho
      exact h ⟨hn, Bool.not_eq_true _ ▸ ho⟩
    rw [if_pos ho] at hl
    rw [run_cons, watch_use hl]
    rfl
  · rfl

theorem close_touches (epfd : Int) (hs : b.Shape fd (some k))
    (hl : l .sockfd = if b.opened = true then .held else .gone) :
    ∃ l', run watch l (b.closeTouches fd k) = some l' ∧
      (l' .sockfd = if (b.close fd epfd k).1.opened = true then .held else .gone) ∧
      ∀ x, x ≠ .sockfd → l' x = l x := by
  have hsame : (b.close fd epfd k).1.opened = b.opened → run watch l (b.closeTouches fd k) = some l →
      ∃ l', run watch l (b.closeTouches fd k) = some l' ∧
        (l' .sockfd = if (b.close fd epfd k).1.opened = true then .held else .gone) ∧
        ∀ x, x ≠ .sockfd → l' x = l x := fun h1 h2 => ⟨l, h2, by rw [h1]; exact hl, fun _ _ => rfl⟩
  have huse : b.names fd ∧ b.opened = true ∧ 0 < fd → run watch l (b.use fd) = some l := fun h =>
    use_held hl fun hst => absurd (hst.2.symm.trans h.2.1) Bool.false_ne_true
  cases k with
  | test => exact hsame rfl rfl
  | epfd => exact hsame rfl rfl
  | detach =>
    refine hsame ?_ (huse hs)
    unfold Body.close
    dsimp only
    split <;> rfl
  | unset => exact hsame rfl rfl
  | shutdown => exact hsame rfl (huse hs)
  | close =>
    obtain ⟨h1, h2, _⟩ := hs
    rw [if_pos h2] at hl
    have hopened : (b.close fd epfd .close).1.opened = false := by
      unfold Body.close
      dsimp only
      rw [if_pos h1]
    refine ⟨Function.update l .sockfd .gone, ?_, ?_, fun x hx => Function.update_of_ne hx ..⟩
    · unfold Body.closeTouches
      dsimp only
      rw [if_pos h1, run_cons, watch_drop hl]
      rfl
    · rw [hopened, Function.update_self]
      rfl
  | clear => exact hsame rfl rfl

/-- `io_close` goes on -/
theorem Held.close (epfd : Int) (G : Held s l) (hs : s.body.Shape fd (some k)) (h0 : s.stage ≠ .start)
    (hov : s.stage.ended = false) (hb : s'.body = (s.body.close fd epfd k).1) (h0' : s'.stage ≠ .start)
    (hov' : s'.stage.ended = false) :
    ∃ l', run watch l (s.body.closeTouches fd k) = some l' ∧ Held s' l' := by
  obtain ⟨l', h1, h2, h3⟩ := close_touches epfd hs (G.sockfd h0)
  obtain ⟨h4, h5, h6, h7⟩ := close_keeps fd epfd s.body k
  rw [← hb] at h2 h4 h5 h6 h7
  have hended : s'.stage.ended ≠ true := fun h => absurd (hov'.symm.trans h) Bool.false_ne_true
  refine ⟨l', h1, ⟨fun h => absurd h h0', fun _ => h2, fun _ => ?_, fun _ => ?_, fun h => absurd h hended,
    fun j => ?_, fun j hj => ?_⟩⟩
  · rw [h3 .packet nofun, h4]
    exact G.packet hov
  · rw [h3 .rxBuffer nofun, h5]
    exact G.rxBuffer hov
  · rw [h3 (.mreq j) nofun, h7]
    exact G.mreq j
  · rw [h7]
    rw [h6] at hj
    exact G.record j hj

theorem Held.turn (S : Sound m fd s c) (G : Held s l) (T : Turn m fd epfd s.body (s.pc i) d b' p')
    (h : s.stage = .alive) (hC : s.Careful fd (.work i d)) :
    ∃ l', run watch l (workTouches fd s.body (s.pc i) d) = some l' ∧
      Held ({ s with body := b' }.setPc i p') l' := by
  have h0 : s.stage ≠ .start := by
    rw [h]
    exact nofun
  have hov : s.stage.ended = false := by
    rw [h]
    rfl
  generalize hpi : s.pc i = p at T
  have hP : Pending m s.body p := hpi ▸ S.pending i
  cases T with
  | quiet _ _ _ e w hp hp' hc hc' hm hl ho hr ht =>
    refine ⟨l, ?_, G.same Iff.rfl rfl rfl rfl rfl rfl rfl⟩
    rw [ht]
    split
    · rename_i hd
      exact use_held (G.sockfd h0) (hC hd)
    · rfl
  | packet _ hq =>
    have hfresh : l .packet = .fresh := by
      rw [G.packet hov, hP.packet (Or.inr rfl)]
      rfl
    refine ⟨Function.update l .packet .held, ?_, ⟨fun hs => absurd hs h0, fun _ => ?_, fun _ => ?_,
      fun _ => ?_, fun hs => absurd (hov.symm.trans hs) Bool.false_ne_true, fun k => ?_, G.record⟩⟩
    · show run watch l [.take .packet] = _
      rw [run_cons, watch_take hfresh]
      rfl
    · exact (Function.update_of_ne (by nofun) ..).trans (G.sockfd h0)
    · exact Function.update_self ..
    · exact (Function.update_of_ne (by nofun) ..).trans (G.rxBuffer hov)
    · exact (Function.update_of_ne (by nofun) ..).trans (G.mreq k)
  | rxBuffer =>
    have hfresh : l .rxBuffer = .fresh := by
      rw [G.rxBuffer hov, hP.rxBuffer (Or.inr (Or.inr rfl))]
      rfl
    refine ⟨Function.update l .rxBuffer .held, ?_, ⟨fun hs => absurd hs h0, fun _ => ?_, fun _ => ?_,
      fun _ => ?_, fun hs => absurd (hov.symm.trans hs) Bool.false_ne_true, fun k => ?_, G.record⟩⟩
    · show run watch l [.take .rxBuffer] = _
      rw [run_cons, watch_take hfresh]
      rfl
    · exact (Function.update_of_ne (by nofun) ..).trans (G.sockfd h0)
    · exact (Function.update_of_ne (by nofun) ..).trans (G.packet hov)
    · exact Function.update_self ..
    · exact (Function.update_of_ne (by nofun) ..).trans (G.mreq k)
  | lookup k hk =>
    refine ⟨l, ?_, G.same Iff.rfl rfl rfl rfl rfl rfl rfl⟩
    have hheld : l (.mreq k) = .held := by
      rw [G.mreq k, if_pos (G.record k hk)]
    show run watch l (s.body.mreq.toList.map fun k => .use (.mreq k)) = _
    rw [hk]
    show run watch l [.use (.mreq k)] = _
    rw [run_cons, watch_use hheld]
    rfl
  | record =>
    have hfresh : l (.mreq s.body.mreqs) = .fresh := by
      rw [G.mreq, if_neg (Nat.lt_irrefl _)]
    refine ⟨Function.update l (.mreq s.body.mreqs) .held, ?_, ⟨fun hs => absurd hs h0, fun _ => ?_,
      fun _ => ?_, fun _ => ?_, fun hs => absurd (hov.symm.trans hs) Bool.false_ne_true, fun k => ?_,
      fun k hk => ?_⟩⟩
    · show run watch l [.take (.mreq s.body.mreqs), .use (.mreq s.body.mreqs)] = _
      rw [run_cons, watch_take hfresh, Option.bind_some, run_cons, watch_use (Function.update_self ..)]
      rfl
    · exact (Function.update_of_ne (by nofun) ..).trans (G.sockfd h0)
    · exact (Function.update_of_ne (by nofun) ..).trans (G.packet hov)
    · exact (Function.update_of_ne (by nofun) ..).trans (G.rxBuffer hov)
    · show Function.update l (.mreq s.body.mreqs) .held (.mreq k) = if k < s.body.mreqs + 1 then _ else _
      by_cases hk : k = s.body.mreqs
      · subst hk
        rw [Function.update_self, if_pos (Nat.lt_succ_self _)]
      · rw [Function.update_of_ne fun he => hk (Part.mreq.inj he), G.mreq k]
        refine if_congr ?_ rfl rfl
        omega
    · cases hk
      exact Nat.lt_succ_self _
  | close k =>
    obtain ⟨rfl, _⟩ := S.ordered i k hpi
    have hshape := S.shape h0 (by rw [h]; exact nofun) (by rw [h]; exact nofun)
    refine G.close epfd hshape h0 hov ?_ ?_ ?_
    · rfl
    · exact h0
    · exact hov

/-- both `free` at the end -/
theorem Held.free (S : Sound m fd s c) (G : Held s l) (h : s.stage = .free) :
    ∃ l', run watch l ((s.body.freed m).map .drop) = some l' ∧
      Held { s with stage := .released, body := { s.body with packet := false, rxBuffer := false } } l' := by
  have h0 : s.stage ≠ .start := by
    rw [h]
    exact nofun
  have hov : s.stage.ended = false := by
    rw [h]
    rfl
  have hmem : ∀ x, x ∈ s.body.freed m ↔
      (x = .packet ∧ s.body.packet = true) ∨ (x = .rxBuffer ∧ s.body.rxBuffer = true) := by
    intro x
    unfold Body.freed
    rw [List.mem_append, List.mem_ite_nil_right, List.mem_ite_nil_right, List.mem_singleton,
      List.mem_singleton]
    constructor
    · rintro (⟨h1, h2⟩ | ⟨⟨h1, _⟩, h2⟩)
      · exact Or.inl ⟨h2, h1⟩
      · exact Or.inr ⟨h2, h1⟩
    · rintro (⟨h1, h2⟩ | ⟨h1, h2⟩)
      · exact Or.inl ⟨h2, h1⟩
      · exact Or.inr ⟨⟨h2, S.tcp h2⟩, h1⟩
  have hnodup : (s.body.freed m).Nodup := by
    unfold Body.freed
    split <;> split <;> simp
  obtain ⟨l', h1, h2, h3⟩ := run_drops (l := l) hnodup fun x hx => by
    rcases (hmem x).mp hx with ⟨rfl, hb⟩ | ⟨rfl, hb⟩
    · rw [G.packet hov, if_pos hb]
    · rw [G.rxBuffer hov, if_pos hb]
  have hkeep : ∀ x, x ≠ .packet → x ≠ .rxBuffer → l' x = l x := fun x hp hr =>
    h3 x fun hx => ((hmem x).mp hx).elim (fun h => hp h.1) fun h => hr h.1
  refine ⟨l', h1, ⟨nofun, fun _ => ?_, nofun, nofun, fun _ => ⟨?_, ?_⟩,
    fun k => ?_, G.record⟩⟩
  · rw [hkeep .sockfd nofun nofun]
    exact G.sockfd h0
  · by_cases hx : Part.packet ∈ s.body.freed m
    · rw [h2 _ hx]
      exact nofun
    · have hb : s.body.packet = false := by
        by_contra hb
        exact hx ((hmem _).mpr (Or.inl ⟨rfl, Bool.not_eq_false _ ▸ hb⟩))
      rw [h3 _ hx, G.packet hov, hb]
      exact nofun
  · by_cases hx : Part.rxBuffer ∈ s.body.freed m
    · rw [h2 _ hx]
      exact nofun
    · have hb : s.body.rxBuffer = false := by
        by_contra hb
        exact hx ((hmem _).mpr (Or.inr ⟨rfl, Bool.not_eq_false _ ▸ hb⟩))
      rw [h3 _ hx, G.rxBuffer hov, hb]
      exact nofun
  · rw [hkeep (.mreq k) nofun nofun]
    exact G.mreq k

end

/-! ## the theorem -/

section
variable {m : Maker} {fd : Nat} {epfd : Int} {n : Nat} {s : State n} {as : List (Step n)}

end

/-- the thread is in `io_attach` or `io_close` -/
def Pc.inside : Pc → Bool
  | .attach _ _ | .close _ => true
  | _ => false

/-- behind the place of `io_close` or `io_attach` where the socket is not in the instance any more -/
def ClosePc.off : ClosePc → Bool
  | .unset | .shutdown | .close => true
  | _ => false

def Pc.off : Pc → Bool
  | .attach _ .undo => true
  | .close k => k.off
  | _ => false

/-- at most one thread is in `io_attach` and `io_close` -/
def State.Apart {n : Nat} (s : State n) (_ : Step n) : Prop :=
  ∀ i j, (s.pc i).inside = true → (s.pc j).inside = true → i = j

instance decidableApart {n : Nat} (s : State n) (a : Step n) : Decidable (s.Apart a) :=
  inferInstanceAs (Decidable (∀ i j, (s.pc i).inside = true → (s.pc j).inside = true → i = j))

section
variable {m : Maker} {fd : Nat} {epfd : Int} {n : Nat} {s s' : State n} {b b' : Body} {c : Option ClosePc}
  {k : ClosePc} {i : Fin n} {p p' : Pc} {d : Do}

/-- where the socket is open, `sockfd` is its number -/
theorem Sound.names (S : Sound m fd s c) (hs : s.stage = .alive) (ho : s.body.opened = true) :
    s.body.names fd := by
  have hshape := S.shape (by rw [hs]; exact nofun) (by rw [hs]; exact nofun) (by rw [hs]; exact nofun)
  have hclosed : ¬ s.body.opened = false := fun h => absurd (h.symm.trans ho) Bool.false_ne_true
  cases c with
  | none => exact hshape.elim And.left fun h => absurd h.2.1 hclosed
  | some k =>
    cases k with
    | test => exact hshape.elim And.left fun h => absurd h.2.1 hclosed
    | clear => exact absurd hshape.1 hclosed
    | _ => exact hshape.1

end

/-- where they overlap, `close(2)` may find the socket in the instance -/
example : (run (State.step .tcpCreate 5 7) (State.init 2)
    [.socket, .objallo 0, .work 0 (.options true), .work 0 (.malloc true), .work 0 (.malloc true),
      .work 0 (.options true), .objdefr 0, .objrefr 0, .work 0 .attach, .work 0 (.fcntl true), .objreff 1,
      .work 1 .close, .work 1 .close, .work 0 (.slot true), .work 0 (.add true), .work 1 .close]).map
    (fun s => (s.pc 1, s.body.watched)) = some (.close .close, true) := by
  decide

end LinkLife
end Swnet

import Swnet.Reactor

/-!
# The reactor is torn down in order

Every run in which the blocks are set up before they are used or closed, and in which no thread joins
itself.

* `Sound`             this condition, step by step;
* `Fits`, `Inv`       what is known of a thread by where it is, and of the whole;
* `Turn.good`         a step of one thread on one block;
* `step_good`         one step keeps the invariant, and what it touches is accepted;
* `reactor_settles`   nothing is used behind its end, and all is given back in the end.
-/

namespace Swnet
open Runs Lifetime

namespace Reactor

/-! ## the invariant of the system -/

namespace Pc

/-- the block that the thread has a reference to -/
def holds : Pc → Option Nat
  | .malloc _ v | .make _ v _ | .pipes _ v | .ret _ v | .ctl v | .defr v => some v
  | _ => none

/-- the block that the thread has allocated and not yet set up -/
def builds : Pc → Option Nat
  | .cas _ h | .lost h | .find _ h | .refer _ h _ | .malloc _ h | .make _ h _ => some h
  | _ => none

/-- how many divisions it has set up; `none`: there is no array yet -/
def made : Pc → Option Nat
  | .make _ _ i => some i
  | _ => none

/-- the block that the thread has set up -/
def fills : Pc → Option Nat
  | .pipes _ v => some v
  | _ => none

/-- the slot that the thread has put a block into -/
def places : Pc → Option (Ipproto × Nat)
  | .find p h | .refer p h _ | .malloc p h | .make p h _ | .pipes p h | .ret p h => some (p, h)
  | _ => none

def names : Pc → Option Nat
  | .cas _ h | .lost h | .find _ h | .refer _ h _ | .malloc _ h | .make _ h _ | .pipes _ h | .ret _ h |
    .clos h | .aref h | .ctl h | .defr h | .dtor h => some h
  | _ => none

/-- the block that `io_uninit` is going to close, that `io_attach` is going to use, and that
`__io_uninit` tears down -/
def closes : Pc → Option Nat
  | .clos v => some v
  | _ => none

def watches : Pc → Option Nat
  | .ctl v => some v
  | _ => none

def tears : Pc → Option Nat
  | .dtor h => some h
  | _ => none

end Pc

/-- Memory and descriptors suffice, no epoll instance gets the number 0, and what `objallo` gives is
cleared.  A block that is ordered closed is set up before, and so is one that `io_attach` uses; no thread
joins itself; and a link that is in an epoll instance is closed before the block is. -/
def Sound (s : Sys) : Act → Prop
  | .allo _ _ d => d = 0
  | .malloc _ _ ok => ok = true
  | .create _ epfd _ => epfd ≠ none ∧ epfd ≠ some 0
  | .clos w => ∀ v ∈ (s.pc w).closes, (s.block v).stat = .live → (s.block v).Ready
  | .ctl w _ _ => ∀ v ∈ (s.pc w).watches, (s.block v).Ready
  | .dtor w _ => ∀ h ∈ (s.pc w).tears, ∀ j ∈ Sys.self h w, (s.block h).dtor ≠ some (.join j)
  | .modify h _ => (s.block h).stat ≠ .gone
  | _ => True

instance decidableSound (s : Sys) (a : Act) : Decidable (Sound s a) :=
  match a with
  | .allo _ _ d => inferInstanceAs (Decidable (d = 0))
  | .malloc _ _ ok => inferInstanceAs (Decidable (ok = true))
  | .create _ epfd _ => inferInstanceAs (Decidable (epfd ≠ none ∧ epfd ≠ some 0))
  | .clos w =>
    inferInstanceAs (Decidable (∀ v ∈ (s.pc w).closes, (s.block v).stat = .live → (s.block v).Ready))
  | .ctl w _ _ => inferInstanceAs (Decidable (∀ v ∈ (s.pc w).watches, (s.block v).Ready))
  | .dtor w _ =>
    inferInstanceAs (Decidable (∀ h ∈ (s.pc w).tears, ∀ j ∈ Sys.self h w,
      (s.block h).dtor ≠ some (.join j)))
  | .modify h _ => inferInstanceAs (Decidable ((s.block h).stat ≠ .gone))
  | .init .. | .cas .. | .find .. | .refer .. | .pipe .. | .piped .. | .ret .. | .uninit .. | .look .. |
    .attach .. | .aref .. | .defr .. | .turn .. => isTrue trivial

/-- what is known of a thread by where it is -/
structure Fits (slot : Ipproto → Int) (block : Nat → Block) (count : Nat) (c : Pc) : Prop where
  known : ∀ h, c.names = some h → h < count
  builds : ∀ h, c.builds = some h → (block h).stat = .live ∧ (block h).Begun c.made
  fills : ∀ h, c.fills = some h → (block h).Ready
  places : ∀ p h, c.places = some (p, h) → slot p = (h : Nat)
  found : ∀ p h v, c = .refer p h v → v = h

structure Inv (s : Sys) : Prop where
  block : ∀ h, (s.block h).Ok
  fresh : ∀ h, s.count ≤ h → s.block h = .new 0
  slot : ∀ p, s.slot p = -1 ∨ ∃ h : Nat, s.slot p = h ∧ h < s.count
  fits : ∀ w, Fits s.slot s.block s.count (s.pc w)
  own : ∀ w w' h, (s.pc w).builds = some h → (s.pc w').builds = some h → w = w'
  holders : ∀ h, Counted (fun w => (s.pc w).holds = some h) (s.block h).refs
  links : ∀ h j, (h, j) ∈ s.links → (s.block h).stat ≠ .gone → ((s.block h).entry j).epfd.fate = .held

def Sys.fate (s : Sys) (x : Nat × Part) : Fate := (s.block x.1).fate x.2

/-- a step that keeps the invariant and is accepted -/
def Good (s s' : Sys) (es : List (Touch (Nat × Part))) : Prop :=
  Inv s' ∧ run Lifetime.watch s.fate es = some s'.fate

section
variable {s s' : Sys} {w : Who} {c c₀ : Pc} {h : Nat} {b : Block} {p : Ipproto}

theorem Inv.hld (I : Inv s) {v : Nat} (hv : s.hld p = some v) : s.slot p = v ∧ v < s.count := by
  obtain ⟨hpos, he⟩ := Option.ite_none_right_eq_some.mp hv
  cases he
  rcases I.slot p with hs | ⟨k, hk, hlt⟩
  · omega
  · rw [hk, Int.toNat_natCast]
    exact ⟨rfl, hlt⟩

theorem hld_of_slot (hs : s.slot p = (h : Nat)) : s.hld p = some h := by
  unfold Sys.hld
  rw [hs, if_pos (Int.natCast_nonneg h), Int.toNat_natCast]

theorem Inv.fitsAt (I : Inv s) (hw : s.pc w = c) : Fits s.slot s.block s.count c := hw ▸ I.fits w

/-- a thread that has a reference keeps the destructor away -/
theorem Inv.held (I : Inv s) (hw : (s.pc w).holds = some h) :
    (s.block h).stat ≠ .gone ∧ 0 < (s.block h).refs := by
  have hpos := (I.holders h).pos (k := w) hw
  refine ⟨fun hg => ?_, hpos⟩
  rw [(I.block h).unused hg] at hpos
  exact Nat.lt_irrefl 0 hpos

/-- what holds of the block that is changed, and of the others, holds of all -/
theorem forall_update {P : Nat → Block → Prop} (hb : P h b) (hs : ∀ k, k ≠ h → P k (s.block k)) :
    ∀ k, P k (Function.update s.block h b k) :=
  (Function.forall_update_iff s.block P).mpr ⟨hb, hs⟩

theorem Fits.update {slot slot' : Ipproto → Int} (F : Fits slot s.block s.count c)
    (hb : c.builds = some h → b.stat = .live ∧ b.Begun c.made) (hf : c.fills = some h → b.Ready)
    (hp : ∀ p k, c.places = some (p, k) → slot' p = (k : Nat)) :
    Fits slot' (Function.update s.block h b) s.count c where
  known := F.known
  builds := forall_update (P := fun k b => c.builds = some k → b.stat = .live ∧ b.Begun c.made) hb
    fun k _ => F.builds k
  fills := forall_update (P := fun k b => c.fills = some k → b.Ready) hf fun k _ => F.fills k
  places := hp
  found := F.found

/-- the links of the other blocks are as they were -/
theorem Inv.links_update (I : Inv s)
    (hl : ∀ j, (h, j) ∈ s.links → b.stat ≠ .gone → (b.entry j).epfd.fate = .held) :
    ∀ k j, (k, j) ∈ s.links → (Function.update s.block h b k).stat ≠ .gone →
      ((Function.update s.block h b k).entry j).epfd.fate = .held :=
  forall_update (P := fun k b => ∀ j, (k, j) ∈ s.links → b.stat ≠ .gone → (b.entry j).epfd.fate = .held) hl
    fun k _ => I.links k

/-- what a thread does to its own place, to one block and to the slots -/
structure Turn (s : Sys) (w : Who) (c : Pc) (h : Nat) (b : Block) (slot : Ipproto → Int)
    (links : List (Nat × Nat)) : Prop where
  ok : b.Ok
  fresh : s.count ≤ h → b = .new 0
  fits : Fits slot (Function.update s.block h b) s.count c
  builds : ∀ w', w' ≠ w → (s.pc w').builds = some h → b.stat = .live ∧ b.Begun (s.pc w').made
  fills : ∀ w', w' ≠ w → (s.pc w').fills = some h → b.Ready
  places : ∀ w', w' ≠ w → ∀ p k, (s.pc w').places = some (p, k) → slot p = (k : Nat)
  slot : ∀ p, slot p = -1 ∨ ∃ k : Nat, slot p = k ∧ k < s.count
  own : c.builds = none ∨ c.builds = (s.pc w).builds
  refs : (c.holds = (s.pc w).holds ∧ b.refs = (s.block h).refs) ∨
    ((s.pc w).holds = none ∧ c.holds = some h ∧ b.refs = (s.block h).refs + 1) ∨
    ((s.pc w).holds = some h ∧ c.holds = none ∧ b.refs = (s.block h).refs - 1)
  links : ∀ k j, (k, j) ∈ links → (Function.update s.block h b k).stat ≠ .gone →
    ((Function.update s.block h b k).entry j).epfd.fate = .held

theorem Turn.inv (I : Inv s) {slot : Ipproto → Int} {links : List (Nat × Nat)}
    (T : Turn s w c h b slot links) :
    Inv ⟨slot, Function.update s.block h b, s.count, Function.update s.pc w c, links⟩ where
  block := forall_update (P := fun _ b => b.Ok) T.ok fun k _ => I.block k
  fresh := forall_update (P := fun k b => s.count ≤ k → b = .new 0) T.fresh fun k _ => I.fresh k
  slot := T.slot
  fits w' := by
    show Fits slot (Function.update s.block h b) s.count (Function.update s.pc w c w')
    by_cases hw : w' = w
    · subst hw
      rw [Function.update_self]
      exact T.fits
    · rw [Function.update_of_ne hw]
      have F := I.fits w'
      exact F.update (T.builds w' hw) (T.fills w' hw) (T.places w' hw)
  own := by
    have hback : ∀ w' k, (Function.update s.pc w c w').builds = some k → (s.pc w').builds = some k := by
      intro w' k hk
      by_cases hw : w' = w
      · subst hw
        rw [Function.update_self] at hk
        rcases T.own with h0 | h0
        · rw [h0] at hk
          cases hk
        · rwa [← h0]
      · rwa [Function.update_of_ne hw] at hk
    exact fun w1 w2 k h1 h2 => I.own w1 w2 k (hback w1 k h1) (hback w2 k h2)
  holders k := by
    show Counted (fun w' => (Function.update s.pc w c w').holds = some k)
      (Function.update s.block h b k).refs
    have hkeep : (c.holds = some k ↔ (s.pc w).holds = some k) →
        Counted (fun w' => (Function.update s.pc w c w').holds = some k) (s.block k).refs := by
      intro hc
      refine (I.holders k).congr fun w' => ?_
      by_cases hw : w' = w
      · subst hw
        rw [Function.update_self]
        exact hc
      · rw [Function.update_of_ne hw]
    by_cases hk : k = h
    · subst hk
      rw [Function.update_self]
      rcases T.refs with ⟨hc, hr⟩ | ⟨h0, hc, hr⟩ | ⟨h0, hc, hr⟩
      · rw [hr]
        exact hkeep (by rw [hc])
      · rw [hr]
        refine (I.holders k).add (k := w) (by rw [h0]; exact nofun) fun w' => ?_
        by_cases hw : w' = w
        · subst hw
          rw [Function.update_self]
          exact ⟨fun _ => Or.inl rfl, fun _ => hc⟩
        · rw [Function.update_of_ne hw]
          exact ⟨Or.inr, fun h1 => h1.resolve_left hw⟩
      · rw [hr]
        refine (I.holders k).remove (k := w) h0 fun w' => ?_
        by_cases hw : w' = w
        · subst hw
          rw [Function.update_self, hc]
          exact ⟨nofun, fun h1 => absurd rfl h1.1⟩
        · rw [Function.update_of_ne hw]
          exact ⟨fun h1 => ⟨hw, h1⟩, fun h1 => h1.2⟩
    · rw [Function.update_of_ne hk]
      refine hkeep ?_
      have hne : ∀ x : Option Nat, x = some h → x ≠ some k := by
        rintro x rfl he
        exact hk (Option.some.inj he).symm
      rcases T.refs with ⟨hc, _⟩ | ⟨h0, hc, _⟩ | ⟨h0, hc, _⟩
      · rw [hc]
      · exact iff_of_false (hne _ hc) (by rw [h0]; exact nofun)
      · exact iff_of_false (by rw [hc]; exact nofun) (hne _ h0)
  links := T.links

theorem fate_update (s : Sys) (h : Nat) (b : Block) (slot : Ipproto → Int) (pc : Who → Pc)
    (links : List (Nat × Nat)) :
    Sys.fate ⟨slot, Function.update s.block h b, s.count, pc, links⟩ =
      fun x => if x.1 = h then b.fate x.2 else s.fate x := by
  funext x
  show (Function.update s.block h b x.1).fate x.2 = _
  by_cases hx : x.1 = h
  · rw [if_pos hx, hx, Function.update_self]
  · rw [if_neg hx, Function.update_of_ne hx]
    rfl

/-- what a step does to one block is accepted if it is accepted there -/
theorem accepted {es : List (Touch Part)} (he : run Lifetime.watch (s.block h).fate es = some b.fate)
    (slot : Ipproto → Int) (pc : Who → Pc) (links : List (Nat × Nat)) :
    run Lifetime.watch s.fate (es.map (.tag h)) =
      some (Sys.fate ⟨slot, Function.update s.block h b, s.count, pc, links⟩) := by
  rw [fate_update]
  exact run_tagged he

theorem Turn.good (I : Inv s) {slot : Ipproto → Int} {links : List (Nat × Nat)} {es : List (Touch Part)}
    (T : Turn s w c h b slot links) (he : run Lifetime.watch (s.block h).fate es = some b.fate) :
    Good s ⟨slot, Function.update s.block h b, s.count, Function.update s.pc w c, links⟩
      (es.map (.tag h)) :=
  ⟨T.inv I, accepted he ..⟩

/-- a step that leaves the blocks alone -/
theorem Inv.moves (I : Inv s) {slot : Ipproto → Int} {links : List (Nat × Nat)}
    {es : List (Touch (Nat × Part))} (hw : s.pc w = c₀) (hF : Fits slot s.block s.count c)
    (hplaces : ∀ w', w' ≠ w → ∀ p k, (s.pc w').places = some (p, k) → slot p = (k : Nat))
    (hslot : ∀ p, slot p = -1 ∨ ∃ k : Nat, slot p = k ∧ k < s.count)
    (ho : c.builds = none ∨ c.builds = c₀.builds) (hh : c.holds = c₀.holds)
    (hlinks : ∀ k j, (k, j) ∈ links → (s.block k).stat ≠ .gone →
      ((s.block k).entry j).epfd.fate = .held)
    (he : run Lifetime.watch s.fate es = some s.fate) :
    Good s ⟨slot, s.block, s.count, Function.update s.pc w c, links⟩ es := by
  subst hw
  have hblock : Function.update s.block 0 (s.block 0) = s.block := Function.update_eq_self ..
  have T : Turn s w c 0 (s.block 0) slot links := by
    refine ⟨I.block 0, I.fresh 0, ?_, fun w' _ => (I.fits w').builds 0, fun w' _ => (I.fits w').fills 0,
      hplaces, hslot, ho, Or.inl ⟨hh, rfl⟩, ?_⟩
    · rw [hblock]
      exact hF
    · rw [hblock]
      exact hlinks
  have G := T.inv I
  rw [hblock] at G
  exact ⟨G, he⟩

/-- a thread that only goes on -/
theorem Inv.goOn (I : Inv s) (hw : s.pc w = c₀) (hF : Fits s.slot s.block s.count c)
    (ho : c.builds = none ∨ c.builds = c₀.builds) (hh : c.holds = c₀.holds) :
    Good s (s.setPc w c) [] :=
  I.moves hw hF (fun w' _ => (I.fits w').places) I.slot ho hh I.links rfl

theorem Inv.stays (I : Inv s) : Good s s [] := ⟨I, rfl⟩

/-- a use of an array behind a step -/
theorem Good.array {es : List (Touch (Nat × Part))} (G : Good s s' es)
    (ha : (s'.block h).epoptr = true) : Good s s' (es ++ [.use (h, .array)]) := by
  obtain ⟨hI, he⟩ := G
  have harray : s'.fate (h, .array) = .held := if_pos ha
  refine ⟨hI, ?_⟩
  rw [run_append, he]
  exact run_of_step _ _ (watch_use harray)

/-- what is known of a thread that neither builds nor names a block -/
theorem fits_away {slot : Ipproto → Int} {block : Nat → Block} {count : Nat} (hc : c.names = none) :
    Fits slot block count c := by
  cases c with
  | idle => exact ⟨nofun, nofun, nofun, nofun, nofun⟩
  | allo p => exact ⟨nofun, nofun, nofun, nofun, nofun⟩
  | look p => exact ⟨nofun, nofun, nofun, nofun, nofun⟩
  | _ => cases hc

theorem builds_names (hc : c.builds = some h) : c.names = some h := by
  cases c <;> first | exact hc | cases hc

/-! ## the steps of `io_init` -/

theorem Inv.allo (I : Inv s) (hw : s.pc w = .allo p) :
    Good s ({ s.setBlock s.count (.new 0) with count := s.count + 1 }.setPc w (.cas p s.count)) [] := by
  have hblock : Function.update s.block s.count (.new 0) = s.block := by
    rw [← I.fresh s.count (Nat.le_refl _)]
    exact Function.update_eq_self ..
  have hnew : s.block s.count = .new 0 := I.fresh s.count (Nat.le_refl _)
  have hs : ({ s.setBlock s.count (.new 0) with count := s.count + 1 }.setPc w (.cas p s.count)) =
      ⟨s.slot, s.block, s.count + 1, Function.update s.pc w (.cas p s.count), s.links⟩ := by
    show (⟨s.slot, Function.update s.block s.count (.new 0), s.count + 1, _, s.links⟩ : Sys) = _
    rw [hblock]
    rfl
  rw [hs]
  have hold : ∀ w' k, w' ≠ w → (s.pc w').builds = some k → k ≠ s.count := by
    rintro w' k _ hk rfl
    exact Nat.lt_irrefl _ ((I.fits w').known _ (builds_names hk))
  refine ⟨⟨I.block, fun k hk => I.fresh k (Nat.le_of_succ_le hk), fun p => ?_, fun w' => ?_, ?_,
    fun k => ?_, I.links⟩, rfl⟩
  · rcases I.slot p with h1 | ⟨k, h1, h2⟩
    · exact Or.inl h1
    · exact Or.inr ⟨k, h1, Nat.lt_succ_of_lt h2⟩
  · show Fits s.slot s.block (s.count + 1) (Function.update s.pc w (.cas p s.count) w')
    by_cases hw' : w' = w
    · subst hw'
      rw [Function.update_self]
      refine ⟨fun k hk => ?_, fun k hk => ?_, nofun, nofun, nofun⟩
      · cases hk
        exact Nat.lt_succ_self _
      · cases hk
        rw [hnew]
        exact ⟨rfl, rfl, rfl, fun _ => rfl⟩
    · rw [Function.update_of_ne hw']
      have F := I.fits w'
      exact ⟨fun k hk => Nat.lt_succ_of_lt (F.known k hk), F.builds, F.fills, F.places, F.found⟩
  · intro w1 w2 k h1 h2
    change (Function.update s.pc w (.cas p s.count) w1).builds = some k at h1
    change (Function.update s.pc w (.cas p s.count) w2).builds = some k at h2
    by_cases e1 : w1 = w
    · by_cases e2 : w2 = w
      · rw [e1, e2]
      · rw [e1, Function.update_self] at h1
        rw [Function.update_of_ne e2] at h2
        exact absurd (Option.some.inj h1).symm (hold w2 k e2 h2)
    · rw [Function.update_of_ne e1] at h1
      by_cases e2 : w2 = w
      · rw [e2, Function.update_self] at h2
        exact absurd (Option.some.inj h2).symm (hold w1 k e1 h1)
      · rw [Function.update_of_ne e2] at h2
        exact I.own w1 w2 k h1 h2
  · refine (I.holders k).congr fun w' => ?_
    show (Function.update s.pc w (.cas p s.count) w').holds = some k ↔ _
    by_cases hw' : w' = w
    · subst hw'
      rw [Function.update_self, hw]
      exact iff_of_false nofun nofun
    · rw [Function.update_of_ne hw']

theorem Inv.cas (I : Inv s) (hw : s.pc w = .cas p h) (hs : s.slot p = -1) :
    Good s ({ s with slot := Function.update s.slot p h }.setPc w (.find p h)) [] := by
  have F := I.fitsAt hw
  show Good s ⟨Function.update s.slot p h, s.block, s.count, Function.update s.pc w (.find p h), s.links⟩ []
  refine I.moves hw ⟨F.known, F.builds, nofun, fun q k hk => ?_, nofun⟩ (fun w' _ q k hk => ?_)
    (fun q => ?_) (Or.inr rfl) rfl I.links rfl
  · cases hk
    exact Function.update_self ..
  · have hq := (I.fits w').places q k hk
    have hne : q ≠ p := by
      rintro rfl
      omega
    rw [Function.update_of_ne hne]
    exact hq
  · by_cases hq : q = p
    · subst hq
      rw [Function.update_self]
      exact Or.inr ⟨h, rfl, F.known h rfl⟩
    · rw [Function.update_of_ne hq]
      exact I.slot q

/-! ## the object manager -/

/-- a step that leaves the array and the divisions alone -/
theorem Inv.manage (I : Inv s) (hw : s.pc w = c₀) (hlt : h < s.count) (hok : b.Ok)
    (ha : b.epoptr = (s.block h).epoptr) (hd : b.divisions = (s.block h).divisions)
    (he : b.entry = (s.block h).entry)
    (hstat : b.stat = (s.block h).stat ∨ ∀ w', w' ≠ w → (s.pc w').builds ≠ some h)
    (hgone : (s.block h).stat = .gone → b.stat = .gone)
    (hF : Fits s.slot (Function.update s.block h b) s.count c)
    (ho : c.builds = none ∨ c.builds = c₀.builds)
    (hr : (c.holds = c₀.holds ∧ b.refs = (s.block h).refs) ∨
      (c₀.holds = none ∧ c.holds = some h ∧ b.refs = (s.block h).refs + 1) ∨
      (c₀.holds = some h ∧ c.holds = none ∧ b.refs = (s.block h).refs - 1)) :
    Good s ((s.setBlock h b).setPc w c) [] := by
  subst hw
  have A : (s.block h).Alike b := .of_entry ha hd he
  have hnone : run Lifetime.watch (s.block h).fate [] = some b.fate := congrArg some A.fate.symm
  refine Turn.good I ⟨hok, fun hn => absurd hlt (Nat.not_lt_of_le hn), hF,
    fun w' hw' hb => ?_, fun w' _ hb => A.ready ((I.fits w').fills h hb), fun w' _ => (I.fits w').places,
    I.slot, ho, hr, I.links_update fun j hk hs => ?_⟩ hnone
  · rcases hstat with hs | hs
    · obtain ⟨h1, h2⟩ := (I.fits w').builds h hb
      refine ⟨hs.trans h1, ?_⟩
      unfold Block.Begun at h2 ⊢
      rw [ha, hd, he]
      exact h2
    · exact absurd hb (hs w' hw')
  · rw [he]
    exact I.links h j hk fun hg => hs (hgone hg)

/-- `objrefr` -/
theorem Inv.refer (I : Inv s) (hw : s.pc w = c₀) (hlt : h < s.count) (hs : (s.block h).stat ≠ .gone)
    (hF : Fits s.slot (Function.update s.block h { s.block h with refs := (s.block h).refs + 1 })
      s.count c)
    (ho : c.builds = none ∨ c.builds = c₀.builds) (h0 : c₀.holds = none) (hc : c.holds = some h) :
    Good s ((s.setBlock h { s.block h with refs := (s.block h).refs + 1 }).setPc w c) [] :=
  I.manage hw hlt ((I.block h).refs hs _) rfl rfl rfl (Or.inl rfl) id hF ho (Or.inr (Or.inl ⟨h0, hc, rfl⟩))

theorem fits_idle {slot : Ipproto → Int} {block : Nat → Block} {count : Nat} :
    Fits slot block count .idle := ⟨nofun, nofun, nofun, nofun, nofun⟩

theorem fits_dtor {slot : Ipproto → Int} {block : Nat → Block} (hlt : h < s.count) :
    Fits slot block s.count (.dtor h) :=
  ⟨fun k hk => by cases hk; exact hlt, nofun, nofun, nofun, nofun⟩

/-- where a thread goes on behind `objclos` and `objdefr` -/
theorem after_pc (b : Block) : ∃ c : Pc, s.after w h b = (s.setBlock h b).setPc w c ∧
    (c = .idle ∨ c = .dtor h) := by
  unfold Sys.after
  split
  · exact ⟨_, rfl, Or.inr rfl⟩
  · exact ⟨_, rfl, Or.inl rfl⟩

theorem objclos_refs (b : Block) : b.objclos.refs = b.refs ∧ b.objclos.epoptr = b.epoptr ∧
    b.objclos.divisions = b.divisions ∧ b.objclos.entry = b.entry := by
  unfold Block.objclos
  split
  · split <;> exact ⟨rfl, rfl, rfl, rfl⟩
  · exact ⟨rfl, rfl, rfl, rfl⟩

theorem Inv.objclos (I : Inv s) (hw : s.pc w = c₀) (hlt : h < s.count) (hh : c₀.holds = none)
    (hr : (s.block h).stat = .live → (s.block h).Ready ∨ (s.block h).Begun none)
    (hother : (s.block h).stat = .live → ∀ w', w' ≠ w → (s.pc w').builds ≠ some h) :
    Good s (s.after w h (s.block h).objclos) [] := by
  obtain ⟨c, hs, hc⟩ := after_pc (s := s) (w := w) (h := h) (s.block h).objclos
  obtain ⟨h1, h2, h3, h4⟩ := objclos_refs (s.block h)
  have hB := I.block h
  rw [hs]
  have hok : (s.block h).objclos.Ok := by
    unfold Block.objclos
    split
    · rename_i hl
      have hne : (s.block h).stat ≠ .gone := by
        rw [hl]
        exact nofun
      split
      · rename_i h0
        exact hB.doom hne h0 (hr hl)
      · exact hB.order hne (hr hl)
    · exact hB
  have hstat : (s.block h).objclos.stat = (s.block h).stat ∨
      ∀ w', w' ≠ w → (s.pc w').builds ≠ some h := by
    by_cases hl : (s.block h).stat = .live
    · exact Or.inr (hother hl)
    · unfold Block.objclos
      rw [if_neg hl]
      exact Or.inl rfl
  have hgone : (s.block h).stat = .gone → (s.block h).objclos.stat = .gone := by
    intro hg
    unfold Block.objclos
    rw [if_neg (by rw [hg]; exact nofun)]
    exact hg
  rcases hc with rfl | rfl
  · exact I.manage hw hlt hok h2 h3 h4 hstat hgone fits_idle (Or.inl rfl) (Or.inl ⟨hh.symm, h1⟩)
  · exact I.manage hw hlt hok h2 h3 h4 hstat hgone (fits_dtor hlt) (Or.inl rfl) (Or.inl ⟨hh.symm, h1⟩)

theorem Inv.objdefr (I : Inv s) (hw : s.pc w = .defr h) :
    Good s (s.after w h (s.block h).objdefr) [] := by
  obtain ⟨c, hs, hc⟩ := after_pc (s := s) (w := w) (h := h) (s.block h).objdefr
  have hB := I.block h
  have hlt : h < s.count := (I.fitsAt hw).known h rfl
  have hh : (s.pc w).holds = some h := by
    rw [hw]
    rfl
  obtain ⟨hne, hpos⟩ := I.held hh
  rw [hs]
  have hall : (s.block h).objdefr.Ok ∧ (s.block h).objdefr.refs = (s.block h).refs - 1 ∧
      (s.block h).objdefr.epoptr = (s.block h).epoptr ∧
      (s.block h).objdefr.divisions = (s.block h).divisions ∧
      (s.block h).objdefr.entry = (s.block h).entry ∧
      ((s.block h).objdefr.stat = (s.block h).stat ∨ (s.block h).stat = .closing) := by
    unfold Block.objdefr
    split
    · rename_i hcl
      have hrefs := hB.refs hne 0
      refine ⟨hrefs.doom hne rfl ?_, ?_, rfl, rfl, rfl, Or.inr hcl.1⟩
      · exact hB.closing hcl.1
      · show 0 = (s.block h).refs - 1
        omega
    · exact ⟨hB.refs hne _, rfl, rfl, rfl, rfl, Or.inl rfl⟩
  obtain ⟨hok, h1, h2, h3, h4, h5⟩ := hall
  have hstat : (s.block h).objdefr.stat = (s.block h).stat ∨
      ∀ w', w' ≠ w → (s.pc w').builds ≠ some h := by
    refine h5.imp id fun hcl w' _ hb => ?_
    have hl := ((I.fits w').builds h hb).1
    rw [hcl] at hl
    cases hl
  rcases hc with rfl | rfl
  · exact I.manage hw hlt hok h2 h3 h4 hstat (fun hg => absurd hg hne) fits_idle (Or.inl rfl)
      (Or.inr (Or.inr ⟨rfl, rfl, h1⟩))
  · exact I.manage hw hlt hok h2 h3 h4 hstat (fun hg => absurd hg hne) (fits_dtor hlt) (Or.inl rfl)
      (Or.inr (Or.inr ⟨rfl, rfl, h1⟩))

/-! ## the divisions -/

theorem fills_holds (hc : c.fills = some h) : c.holds = some h := by
  cases c <;> first | exact hc | cases hc

theorem places_kept (hc : c.places = some (p, h)) : c.builds = some h ∨ c.holds = some h := by
  cases c <;> cases hc <;> first | exact Or.inl rfl | exact Or.inr rfl

/-- the thread that allocated a block sets it up -/
theorem Inv.setUp (I : Inv s) (hw : s.pc w = c₀) (hb : c₀.builds = some h) (hok : b.Ok)
    (hr : b.refs = (s.block h).refs)
    (hF : Fits s.slot (Function.update s.block h b) s.count c)
    (ho : c.builds = none ∨ c.builds = c₀.builds) (hh : c.holds = c₀.holds)
    (hl : ∀ j, ((s.block h).entry j).epfd.fate = .held → (b.entry j).epfd.fate = .held)
    {es : List (Touch Part)} (he : run Lifetime.watch (s.block h).fate es = some b.fate) :
    Good s ((s.setBlock h b).setPc w c) (es.map (.tag h)) := by
  subst hw
  have F := I.fits w
  have hlt := F.known h (builds_names hb)
  obtain ⟨hlive, hbegun⟩ := F.builds h hb
  refine Turn.good I ⟨hok, fun hn => absurd hlt (Nat.not_lt_of_le hn), hF, fun w' hw' hb' => ?_,
    fun w' _ hf => ?_, fun w' _ => (I.fits w').places, I.slot, ho, Or.inl ⟨hh, hr⟩,
    I.links_update fun j hk _ => ?_⟩ he
  · exact absurd (I.own w' w h hb' hb) hw'
  · exact absurd ((I.fits w').fills h hf) (begun_not_ready hbegun)
  · exact hl j (I.links h j hk (by rw [hlive]; exact nofun))

theorem nprocs_pos (p : Ipproto) (n : Nat) : 0 < nprocs p n := by
  unfold nprocs
  exact Nat.lt_of_lt_of_le Nat.one_pos (Nat.le_max_left ..)

theorem Inv.malloc (I : Inv s) (hw : s.pc w = .malloc p h) (n : Nat) :
    Good s ((s.setBlock h ((s.block h).malloc (nprocs p n) true)).setPc w (.make p h 0))
      [.take (h, .array)] := by
  have F := I.fitsAt hw
  obtain ⟨hlive, hbegun⟩ := F.builds h rfl
  have hB := I.block h
  obtain ⟨h1, h2, h3, h4⟩ := Block.malloc_spec hlive (hB.dtor_none (by rw [hlive]; exact nofun)) hbegun
    (nprocs_pos p n)
  have he : run Lifetime.watch (s.block h).fate [.take .array] =
      some ((s.block h).malloc (nprocs p n) true).fate := by
    rw [h3]
    exact run_of_step _ _ (watch_take h4)
  refine I.setUp (c := .make p h 0) hw rfl h1 rfl ⟨F.known, fun k hk => ?_, nofun, F.places, nofun⟩
    (Or.inr rfl) rfl (fun j hj => ?_) he
  · cases hk
    rw [Function.update_self]
    exact ⟨hlive, h2⟩
  · rw [hbegun.2.2 j] at hj
    cases hj

theorem Inv.create (I : Inv s) {i : Nat} (hw : s.pc w = .make p h i) {e : Nat} (he : e ≠ 0)
    (thread : Bool) :
    Good s ((s.setBlock h ((s.block h).create i (some e) thread)).setPc w
        (if i + 1 < (s.block h).divisions then .make p h (i + 1) else .pipes p h))
      ((Block.createTouches i (some e) thread).map (.tag h)) := by
  have F := I.fitsAt hw
  obtain ⟨hlive, hbegun⟩ := F.builds h rfl
  obtain ⟨h1, h2, h3, h4⟩ := Block.create_spec (I.block h) hlive hbegun he thread
  have hlinks : ∀ j, ((s.block h).entry j).epfd.fate = .held →
      (((s.block h).create i (some e) thread).entry j).epfd.fate = .held := by
    intro j hj
    have hji : j ≠ i := by
      rintro rfl
      rw [hbegun.2.2.2 j (Nat.le_refl j)] at hj
      cases hj
    unfold Block.create
    rw [setEntry_of_ne hji]
    exact hj
  split
  · rename_i hlt
    refine I.setUp (c := .make p h (i + 1)) hw rfl h1 rfl
      ⟨F.known, fun k hk => ?_, nofun, F.places, nofun⟩ (Or.inr rfl) rfl hlinks h4
    cases hk
    rw [Function.update_self]
    exact ⟨hlive, h2 hlt⟩
  · rename_i hge
    refine I.setUp (c := .pipes p h) hw rfl h1 rfl ⟨F.known, nofun, fun k hk => ?_, F.places, nofun⟩
      (Or.inl rfl) rfl hlinks h4
    cases hk
    rw [Function.update_self]
    exact h3 hge

/-- uses of what a block holds -/
theorem run_uses_of {xs : List Part} (hx : ∀ x, x ∈ xs → (s.block h).fate x = .held) :
    run Lifetime.watch s.fate (xs.map fun x => .use (h, x)) = some s.fate := by
  have hmap : (xs.map fun x => Touch.use (h, x)) = (xs.map (Prod.mk h)).map .use := by
    rw [List.map_map]
    rfl
  rw [hmap]
  refine run_uses fun y hy => ?_
  obtain ⟨x, hxm, rfl⟩ := List.mem_map.mp hy
  exact hx x hxm

theorem watchUses_held (hr : b.Ready) (k : Nat) {x : Part}
    (hx : x ∈ b.watchUses (k % b.divisions)) : b.fate x = .held := by
  unfold Block.watchUses at hx
  rcases List.mem_cons.mp hx with rfl | hx
  · exact if_pos hr.1
  · split at hx
    · cases hx
    · rename_i hne
      rw [List.mem_singleton.mp hx]
      show (b.entry (k % b.divisions)).epfd.fate = .held
      have hset := hr.2.2 _ (Nat.mod_lt k hr.2.1)
      cases hfd : (b.entry (k % b.divisions)).epfd with
      | junk => exact absurd hfd hset
      | invalid => exact absurd hfd hne
      | fd e => rfl

/-- `io_attach` puts a link into a division that is open -/
theorem watch_links (s : Sys) (v k : Nat) (ok : Bool) :
    ∃ links, s.watch v k ok = { s with links := links } ∧ ∀ x j, (x, j) ∈ links →
      (x, j) ∈ s.links ∨ (x = v ∧ ((s.block v).entry j).epfd.fate = .held) := by
  unfold Sys.watch
  dsimp only
  cases hfd : ((s.block v).entry (k % (s.block v).divisions)).epfd with
  | fd e =>
    dsimp only
    split
    · refine ⟨_, rfl, fun x j hx => ?_⟩
      rcases List.mem_cons.mp hx with hx | hx
      · cases hx
        exact Or.inr ⟨rfl, congrArg Fd.fate hfd⟩
      · exact Or.inl hx
    · exact ⟨s.links, rfl, fun x j hx => Or.inl hx⟩
  | junk => exact ⟨s.links, rfl, fun x j hx => Or.inl hx⟩
  | invalid => exact ⟨s.links, rfl, fun x j hx => Or.inl hx⟩

theorem Inv.watch (I : Inv s) (hw : s.pc w = c₀) {v : Nat} (hr : (s.block v).Ready) (k : Nat) (ok : Bool)
    (hF : Fits s.slot s.block s.count c) (ho : c.builds = none ∨ c.builds = c₀.builds)
    (hh : c.holds = c₀.holds) :
    Good s ((s.watch v k ok).setPc w c)
      (((s.block v).watchUses (k % (s.block v).divisions)).map fun x => .use (v, x)) := by
  obtain ⟨links, hs, hl⟩ := watch_links s v k ok
  rw [hs]
  refine I.moves hw hF (fun w' _ => (I.fits w').places) I.slot ho hh (fun x j hx hg => ?_)
    (run_uses_of fun x => watchUses_held hr k)
  rcases hl x j hx with h1 | ⟨rfl, h1⟩
  · exact I.links x j h1 hg
  · exact h1

theorem Inv.turn (I : Inv s) {j : Nat} {r : Woken} (hb : (s.block h).turn j r = some b) :
    Good s (s.setBlock h b) (((s.block h).turnUses j r).map fun x => .use (h, x)) := by
  have hB := I.block h
  obtain ⟨hl, l, hl', rfl⟩ := Block.turn_cases hb
  have A := Block.setLoop_alike (b := s.block h) (j := j) (hl.trans hl'.symm)
  have hpc : Function.update s.pc (.user 0) (s.pc (.user 0)) = s.pc := Function.update_eq_self ..
  have hbuilds : ∀ w', (s.pc w').builds = some h → ((s.block h).setLoop j l).stat = .live ∧
      ((s.block h).setLoop j l).Begun (s.pc w').made := by
    intro w' hw'
    obtain ⟨h1, h2⟩ := (I.fits w').builds h hw'
    exact ⟨h1, Block.turn_begun hl h2⟩
  have T : Turn s (.user 0) (s.pc (.user 0)) h ((s.block h).setLoop j l) s.slot s.links := by
    refine ⟨hB.turn hl hl', fun hn => ?_, ?_, fun w' _ => hbuilds w',
      fun w' _ hf => A.ready ((I.fits w').fills h hf), fun w' _ => (I.fits w').places, I.slot, Or.inr rfl,
      Or.inl ⟨rfl, rfl⟩, I.links_update fun i hk hs => ?_⟩
    · rw [I.fresh h hn] at hl
      cases hl
    · have F := I.fits (.user 0)
      exact F.update (hbuilds _) (fun hf => A.ready (F.fills h hf)) F.places
    · rw [A.epfd]
      exact I.links h i hk hs
  have hI := T.inv I
  rw [hpc] at hI
  refine ⟨hI, ?_⟩
  rw [run_uses_of fun x hx => Block.turn_uses hB hb hx]
  have hsame := fate_update s h ((s.block h).setLoop j l) s.slot s.pc s.links
  rw [A.fate] at hsame
  refine congrArg some ?_
  refine Eq.trans ?_ hsame.symm
  funext x
  split
  · rename_i hx
    rw [← hx]
    rfl
  · rfl

/-! ## the destructor -/

theorem destroy_stat {self : Option Nat} {junk : Bool} {b' : Block} (hb : b.destroy self junk = some b') :
    b.dtor ≠ none ∧ b'.stat = b.stat ∧ b'.refs = b.refs := by
  unfold Block.destroy at hb
  cases hd : b.dtor with
  | none =>
    rw [hd] at hb
    cases hb
  | some d =>
    refine ⟨nofun, ?_⟩
    rw [hd] at hb
    cases d with
    | stop j =>
      dsimp only at hb
      split at hb <;> cases hb <;> exact ⟨rfl, rfl⟩
    | join j =>
      dsimp only at hb
      split at hb
      · cases hb
        exact ⟨rfl, rfl⟩
      · split at hb
        · cases hb
          exact ⟨rfl, rfl⟩
        · cases hb
    | close j =>
      dsimp only at hb
      split at hb <;> cases hb <;> exact ⟨rfl, rfl⟩
    | free =>
      cases hb
      exact ⟨rfl, rfl⟩
    | slots =>
      cases hb
      exact ⟨rfl, rfl⟩
    | done => cases hb

theorem emptySlot_of_ne {slot : Ipproto → Int} {k : Nat} (hs : slot p = k) (hk : k ≠ h) :
    emptySlot slot h p = k := by
  have hne : slot p ≠ (h : Nat) := by omega
  unfold emptySlot
  split
  · rename_i h1
    have hp : p ≠ .tcp := by
      rintro rfl
      exact hne h1
    rw [Function.update_of_ne hp]
    exact hs
  · split
    · rename_i h1
      have hp : p ≠ .udp := by
        rintro rfl
        exact hne h1
      rw [Function.update_of_ne hp]
      exact hs
    · exact hs

theorem emptySlot_known {slot : Ipproto → Int} {n : Nat}
    (hs : ∀ p, slot p = -1 ∨ ∃ k : Nat, slot p = k ∧ k < n) (h : Nat) (p : Ipproto) :
    emptySlot slot h p = -1 ∨ ∃ k : Nat, emptySlot slot h p = k ∧ k < n := by
  have hupdate : ∀ q : Ipproto, Function.update slot q (-1) p = -1 ∨
      ∃ k : Nat, Function.update slot q (-1) p = k ∧ k < n := by
    intro q
    by_cases hp : p = q
    · subst hp
      exact Or.inl (Function.update_self ..)
    · rw [Function.update_of_ne hp]
      exact hs p
  unfold emptySlot
  split
  · exact hupdate .tcp
  · split
    · exact hupdate .udp
    · exact hs p

theorem Inv.destroy (I : Inv s) (hw : s.pc w = .dtor h) {junk : Bool}
    (hself : ∀ j, (s.block h).dtor = some (.join j) → Sys.self h w ≠ some j)
    (hb : (s.block h).destroy (Sys.self h w) junk = some b) :
    Good s (if (s.block h).dtor = some .slots then
        { s.setBlock h b with slot := emptySlot s.slot h }.setPc w .idle
      else s.setBlock h b) ((s.block h).destroyTouches.map (.tag h)) := by
  have hB := I.block h
  have F := I.fitsAt hw
  have hlt := F.known h rfl
  obtain ⟨hd, hstat, hrefs⟩ := destroy_stat hb
  have hg := hB.gone.mpr hd
  obtain ⟨hok, he⟩ := Block.destroy_spec hB hg hself hb
  -- nobody sets the block up, and nobody has a reference to it
  have hbuilds : ∀ w', (s.pc w').builds ≠ some h := by
    intro w' hw'
    have hl := ((I.fits w').builds h hw').1
    rw [hg] at hl
    cases hl
  have hholds : ∀ w', (s.pc w').holds ≠ some h := fun w' hw' => (I.held hw').1 hg
  have hplaces : ∀ w' q k, (s.pc w').places = some (q, k) → k ≠ h := by
    rintro w' q k hk rfl
    rcases places_kept hk with h1 | h1
    · exact hbuilds w' h1
    · exact hholds w' h1
  have hT : ∀ (slot : Ipproto → Int) (c : Pc), c = .idle ∨ c = .dtor h →
      (∀ w' q k, (s.pc w').places = some (q, k) → slot q = (k : Nat)) →
      (∀ q, slot q = -1 ∨ ∃ k : Nat, slot q = k ∧ k < s.count) →
      Good s ⟨slot, Function.update s.block h b, s.count, Function.update s.pc w c, s.links⟩
        ((s.block h).destroyTouches.map (.tag h)) := by
    intro slot c hc hp hs
    refine Turn.good I ⟨hok, fun hn => absurd hlt (Nat.not_lt_of_le hn), ?_,
      fun w' _ hb' => absurd hb' (hbuilds w'), fun w' _ hf => absurd (fills_holds hf) (hholds w'),
      fun w' _ => hp w', hs, ?_, Or.inl ⟨?_, hrefs⟩, I.links_update fun j _ hs' => ?_⟩ he
    · rcases hc with rfl | rfl
      · exact fits_idle
      · exact fits_dtor hlt
    · rcases hc with rfl | rfl <;> exact Or.inl rfl
    · rw [hw]
      rcases hc with rfl | rfl <;> rfl
    · exact absurd (hstat.trans hg) hs'
  split
  · refine hT (emptySlot s.slot h) .idle (Or.inl rfl) (fun w' q k hk => ?_) (emptySlot_known I.slot h)
    exact emptySlot_of_ne ((I.fits w').places q k hk) (hplaces w' q k hk)
  · have hpc : Function.update s.pc w (.dtor h) = s.pc := by
      rw [← hw]
      exact Function.update_eq_self ..
    have G := hT s.slot (.dtor h) (Or.inr rfl) (fun w' => (I.fits w').places) I.slot
    rw [hpc] at G
    exact G

/-! ## runs -/

/-- **one step** -/
theorem step_good (I : Inv s) {a : Act} (hS : Sound s a) (h : s.step a = some s') :
    Good s s' (s.touches a) := by
  cases a with
  | init w p =>
    obtain ⟨hfree, he⟩ := Option.ite_none_right_eq_some.mp h
    cases he
    split
    · exact I.stays
    · exact I.goOn hfree.1 (fits_away rfl) (Or.inl rfl) rfl
  | allo w ok d =>
    simp only [Sys.step] at h
    split at h
    · rename_i p hw
      have hd : d = 0 := hS
      subst hd
      split at h <;> cases h
      · exact I.allo hw
      · exact I.goOn hw (fits_away rfl) (Or.inl rfl) rfl
    · cases h
  | cas w =>
    simp only [Sys.step] at h
    split at h
    · rename_i p k hw
      split at h <;> cases h
      · rename_i hs
        exact I.cas hw hs
      · have F := I.fitsAt hw
        exact I.goOn hw ⟨F.known, F.builds, nofun, nofun, nofun⟩ (Or.inr rfl) rfl
    · cases h
  | find w =>
    simp only [Sys.step] at h
    split at h
    · rename_i p k hw
      have F := I.fitsAt hw
      rw [hld_of_slot (F.places p k rfl)] at h
      cases h
      refine I.goOn hw ⟨F.known, F.builds, nofun, F.places, fun q x y hq => ?_⟩ (Or.inr rfl) rfl
      cases hq
      rfl
    · cases h
  | refer w =>
    simp only [Sys.step] at h
    split at h
    · rename_i p k v hw
      have F := I.fitsAt hw
      obtain rfl := F.found p k v rfl
      obtain ⟨hl, hb⟩ := F.builds v rfl
      rw [if_pos hl] at h
      cases h
      refine I.refer hw (F.known v rfl) (by rw [hl]; exact nofun)
        ⟨F.known, fun x hx => ?_, nofun, F.places, nofun⟩ (Or.inr rfl) rfl rfl
      cases hx
      rw [Function.update_self]
      exact ⟨hl, hb⟩
    · cases h
  | malloc w n ok =>
    have hok : ok = true := hS
    subst hok
    simp only [Sys.step] at h
    split at h
    · rename_i p v hw
      cases h
      have ht : s.touches (.malloc w n true) = [.take (v, .array)] := by
        unfold Sys.touches
        dsimp only
        rw [hw]
        rfl
      rw [ht]
      exact I.malloc hw n
    · cases h
  | create w epfd thread =>
    simp only [Sys.step] at h
    split at h
    · rename_i p v i hw
      cases h
      have ht : s.touches (.create w epfd thread) = (Block.createTouches i epfd thread).map (.tag v) := by
        unfold Sys.touches
        dsimp only
        rw [hw]
      rw [ht]
      obtain ⟨h1, h2⟩ := hS
      cases epfd with
      | none => exact absurd rfl h1
      | some e => exact I.create hw (fun he => h2 (congrArg some he)) thread
    · cases h
  | pipe w k ok =>
    simp only [Sys.step] at h
    split at h
    · rename_i p v hw
      have F := I.fitsAt hw
      have hs := hld_of_slot (F.places p v rfl)
      rw [hs] at h
      cases h
      have ht : s.touches (.pipe w k ok) = (if (s.block v).stat = .live then
          ((s.block v).watchUses (k % (s.block v).divisions)).map fun x => .use (v, x) else []) ++
            [.use (v, .array)] := by
        unfold Sys.touches
        dsimp only
        rw [hw]
        dsimp only
        rw [hs]
      rw [ht]
      have hready := F.fills v rfl
      split
      · have hpc : (s.watch v k ok).setPc w (s.pc w) = s.watch v k ok := by
          obtain ⟨links, he, _⟩ := watch_links s v k ok
          rw [he]
          unfold Sys.setPc
          dsimp only
          rw [Function.update_eq_self]
        have G := I.watch (w := w) (c := s.pc w) rfl hready k ok (I.fits w) (Or.inr rfl) rfl
        rw [hpc] at G
        obtain ⟨links, he, _⟩ := watch_links s v k ok
        refine G.array (h := v) ?_
        rw [he]
        exact hready.1
      · exact I.stays.array hready.1
    · cases h
  | piped w =>
    simp only [Sys.step] at h
    split at h
    · rename_i p v hw
      cases h
      have F := I.fitsAt hw
      exact I.goOn hw ⟨F.known, nofun, nofun, F.places, nofun⟩ (Or.inl rfl) rfl
    · cases h
  | ret w =>
    simp only [Sys.step] at h
    split at h
    · rename_i p v hw
      have F := I.fitsAt hw
      rw [hld_of_slot (F.places p v rfl)] at h
      cases h
      exact I.goOn hw ⟨F.known, nofun, nofun, nofun, nofun⟩ (Or.inl rfl) rfl
    · cases h
  | uninit w p =>
    obtain ⟨hfree, he⟩ := Option.ite_none_right_eq_some.mp h
    cases he
    split
    · exact I.goOn hfree.1 (fits_away rfl) (Or.inl rfl) rfl
    · exact I.stays
  | look w =>
    simp only [Sys.step] at h
    split at h
    · rename_i p hw
      split at h
      · cases h
        exact I.goOn hw (fits_away rfl) (Or.inl rfl) rfl
      · rename_i v hv
        cases h
        refine I.goOn hw ⟨fun x hx => ?_, nofun, nofun, nofun, nofun⟩ (Or.inl rfl) rfl
        cases hx
        exact (I.hld hv).2
    · cases h
  | clos w =>
    simp only [Sys.step] at h
    split at h
    · rename_i v hw
      cases h
      have F := I.fitsAt hw
      refine I.objclos hw (F.known v rfl) rfl (fun _ => Or.inr (F.builds v rfl).2)
        fun _ w' hw' hb => hw' (I.own w' w v hb (by rw [hw]; rfl))
    · rename_i v hw
      cases h
      have F := I.fitsAt hw
      have hready : (s.block v).stat = .live → (s.block v).Ready := hS v (by rw [hw]; rfl)
      exact I.objclos hw (F.known v rfl) rfl (fun hl => Or.inl (hready hl))
        fun hl w' _ hb => begun_not_ready ((I.fits w').builds v hb).2 (hready hl)
    · cases h
  | attach w p =>
    obtain ⟨hfree, he⟩ := Option.ite_none_right_eq_some.mp h
    split at he
    · cases he
      exact I.stays
    · rename_i v hv
      cases he
      refine I.goOn hfree.1 ⟨fun x hx => ?_, nofun, nofun, nofun, nofun⟩ (Or.inl rfl) rfl
      cases hx
      exact (I.hld hv).2
  | aref w =>
    simp only [Sys.step] at h
    split at h
    · rename_i v hw
      have F := I.fitsAt hw
      split at h <;> cases h
      · rename_i hl
        exact I.refer hw (F.known v rfl) (by rw [hl]; exact nofun) ⟨F.known, nofun, nofun, nofun, nofun⟩
          (Or.inl rfl) rfl rfl
      · exact I.goOn hw fits_idle (Or.inl rfl) rfl
    · cases h
  | ctl w k ok =>
    simp only [Sys.step] at h
    split at h
    · rename_i v hw
      cases h
      have F := I.fitsAt hw
      have ht : s.touches (.ctl w k ok) =
          ((s.block v).watchUses (k % (s.block v).divisions)).map fun x => .use (v, x) := by
        unfold Sys.touches
        dsimp only
        rw [hw]
      rw [ht]
      exact I.watch hw (hS v (by rw [hw]; rfl)) k ok ⟨F.known, nofun, nofun, nofun, nofun⟩ (Or.inl rfl) rfl
    · cases h
  | defr w =>
    simp only [Sys.step] at h
    split at h
    · rename_i v hw
      cases h
      exact I.objdefr hw
    · cases h
  | dtor w junk =>
    simp only [Sys.step] at h
    split at h
    · rename_i v hw
      obtain ⟨b, hb, he⟩ := Option.map_eq_some_iff.mp h
      cases he
      have ht : s.touches (.dtor w junk) = (s.block v).destroyTouches.map (.tag v) := by
        unfold Sys.touches
        dsimp only
        rw [hw]
      rw [ht]
      refine I.destroy hw (fun j hj hself => ?_) hb
      exact hS v (by rw [hw]; rfl) j hself hj
    · cases h
  | turn k j r =>
    simp only [Sys.step] at h
    split at h
    · cases h
    · obtain ⟨b, hb, he⟩ := Option.map_eq_some_iff.mp h
      cases he
      exact I.turn hb
  | modify k j =>
    obtain ⟨hm, he⟩ := Option.ite_none_right_eq_some.mp h
    cases he
    have hS' : (s.block k).stat ≠ .gone := hS
    exact ⟨I, run_of_step _ _ (watch_use (I.links k j hm hS'))⟩

theorem inv_init : Inv Sys.init where
  block _ := new_ok
  fresh _ _ := rfl
  slot _ := Or.inl rfl
  fits _ := fits_idle
  own _ _ _ h := by cases h
  holders _ := counted_zero fun _ => nofun
  links _ _ h := absurd h List.not_mem_nil

theorem fate_init : Sys.init.fate = unborn (Nat × Part) := by
  funext x
  obtain ⟨k, x⟩ := x
  cases x <;> rfl

theorem run_good {as : List Act} (hC : Meets Sys.step Sound Sys.init as)
    (h : run Sys.step Sys.init as = some s) :
    Good Sys.init s (trace Sys.step Sys.touches Sys.init as) := by
  have hstep : ∀ t a t' es, Good Sys.init t es → Sound t a → t.step a = some t' →
      Good Sys.init t' (es ++ t.touches a) := by
    intro t a t' es hG hS ht
    obtain ⟨h1, h2⟩ := step_good hG.1 hS ht
    refine ⟨h1, ?_⟩
    rw [run_append, hG.2]
    exact h2
  have h0 : Good Sys.init Sys.init [] := ⟨inv_init, rfl⟩
  exact run_logged Sys.step hstep h hC h0

end

/-- **The reactor is torn down in order**, if no thread joins itself, memory and descriptors suffice, and a
block is set up when it is used or ordered closed: no array, epoll instance or thread is used or given back
behind its end, and all that was taken has been given back, once, when all blocks are destroyed. -/
theorem reactor_settles (as : List Act) (hC : Meets Sys.step Sound Sys.init as) (s : Sys)
    (h : run Sys.step Sys.init as = some s) :
    (run Lifetime.watch (unborn (Nat × Part)) (trace Sys.step Sys.touches Sys.init as)).isSome = true ∧
      ((∀ k, k < s.count → (s.block k).dtor = some .done) →
        Settled (trace Sys.step Sys.touches Sys.init as)) := by
  obtain ⟨I, he⟩ := run_good hC h
  rw [fate_init] at he
  refine ⟨by rw [he]; rfl, fun hdone => ⟨s.fate, he, ?_⟩⟩
  rintro ⟨k, x⟩ hx
  by_cases hk : k < s.count
  · have ht := (I.block k).torn
    rw [hdone k hk] at ht
    obtain ⟨ha, hq⟩ := ht
    cases x with
    | array =>
      have hx' : (if (s.block k).epoptr = true then Fate.held else
        if (s.block k).divisions = 0 then .fresh else .gone) = .held := hx
      rw [ha, if_neg nofun] at hx'
      split at hx' <;> cases hx'
    | epfd j => exact (hq j).2 hx
    | thread j => exact (hq j).1 hx
  · have hfresh := I.fresh k (Nat.le_of_not_lt hk)
    change (s.block k).fate x = .held at hx
    rw [hfresh] at hx
    cases x <;> cases hx

/-- one division: it is set up, serves a link that thread 1 attaches and one that its own thread does, and
is torn down by thread 0 -/
def upAndDown : List Act :=
  [.init (.user 0) .tcp, .allo (.user 0) true 0, .cas (.user 0), .find (.user 0), .refer (.user 0),
    .malloc (.user 0) 1 true, .create (.user 0) (some 5) true, .turn 0 0 .again, .pipe (.user 0) 1 true,
    .piped (.user 0), .ret (.user 0), .defr (.user 0), .attach (.user 1) .tcp, .aref (.user 1),
    .turn 0 0 .again, .ctl (.user 1) 7 true, .defr (.user 1), .turn 0 0 .events,
    .attach (.epoll 0 0) .tcp, .aref (.epoll 0 0), .uninit (.user 0) .tcp, .look (.user 0),
    .ctl (.epoll 0 0) 9 true, .defr (.epoll 0 0), .turn 0 0 .again, .modify 0 0, .clos (.user 0),
    .dtor (.user 0) false, .turn 0 0 .again, .turn 0 0 .again, .dtor (.user 0) false,
    .dtor (.user 0) false, .dtor (.user 0) false, .dtor (.user 0) false]

theorem reactor_settles_upAndDown :
    ∃ s, run Sys.step Sys.init upAndDown = some s ∧
      Settled (trace Sys.step Sys.touches Sys.init upAndDown) := by
  have hend : (run Sys.step Sys.init upAndDown).map (fun s => (s.count, (s.block 0).dtor)) =
      some (1, some .done) := by decide +kernel
  obtain ⟨s, hs, hd⟩ := Option.map_eq_some_iff.mp hend
  obtain ⟨h1, h2⟩ := Prod.mk.inj hd
  have hC : Meets Sys.step Sound Sys.init upAndDown := by decide +kernel
  refine ⟨s, hs, (reactor_settles upAndDown hC s hs).2 fun k hk => ?_⟩
  have hk0 : k = 0 := by omega
  rw [hk0]
  exact h2

/-- The thread of the division closes the block in `__iorun`: it does not wait for itself, and reads
`actived` behind the `free`. -/
def joinsItself : List Act :=
  [.init (.user 0) .tcp, .allo (.user 0) true 0, .cas (.user 0), .find (.user 0), .refer (.user 0),
    .malloc (.user 0) 1 true, .create (.user 0) (some 5) true, .piped (.user 0), .ret (.user 0),
    .defr (.user 0), .turn 0 0 .again, .turn 0 0 .again, .turn 0 0 .events, .uninit (.epoll 0 0) .tcp,
    .look (.epoll 0 0), .clos (.epoll 0 0), .dtor (.epoll 0 0) false, .dtor (.epoll 0 0) false,
    .dtor (.epoll 0 0) false, .dtor (.epoll 0 0) false, .dtor (.epoll 0 0) false, .turn 0 0 .again,
    .turn 0 0 .again]

example : (run Sys.step Sys.init joinsItself).isSome = true ∧
    run Lifetime.watch (unborn (Nat × Part)) (trace Sys.step Sys.touches Sys.init joinsItself) = none := by
  refine ⟨by decide +kernel, rfl⟩

end Reactor

end Swnet

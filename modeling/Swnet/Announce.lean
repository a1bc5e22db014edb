import Swnet.LinkSteps

/-!
# Establishment is announced before data

`__tcp_syn_dpc` keeps `EPOLLIN` out of the mask until `EVT_TCP_ACCEPTED` is posted, `tcp_connect`
sets `ncb_read` behind `EVT_TCP_CONNECTED`, and `tcp_tx_syn` does neither.

* `Announced`            no `EVT_RECEIVEDATA` comes before the announcement;
* `AfterNews`            the `ncb_read` of `tcp_tx_syn` is not called before the announcement;
* `announced_of_after`   the one holds in every state of the runs that meet the other.
-/

namespace Swnet
open CMem Runs

/-- every `EVT_RECEIVEDATA` has an `EVT_TCP_ACCEPTED` or `EVT_TCP_CONNECTED` before it -/
def Announced (s : Link) : Prop :=
  ∀ before data after, s.events = before ++ Event.recvdata data :: after →
    ∃ v, v ∈ before ∧ v.announces = true

/-- on a link of `tcp_connect2`, `__iorun` does not answer an `EPOLLIN` event with `ncb_read` before
the link is announced -/
def AfterNews {Req : Type} (s : Link) : LinkAct Req → Prop
  | .fetch => s.path = .connect2 → s.told = false → ∀ e, s.io = .fetch e → e.epollin = true →
      s.ncbRead = none
  | _ => True

/-- the event that `__iorun` has in hand -/
def Ipc.evts : Ipc → Evts
  | .idle => Evts.none
  | .event e => e
  | .fetch e => e
  | .read _ e => e
  | .out e => e

/-- epoll does not report `EPOLLIN` -/
structure Sock.Deaf (k : Sock) : Prop where
  mask : ∀ m, k.mask = some m → m.epollin = false
  edges : k.edges.epollin = false

/-- the announcement comes first, and before it nothing is read -/
structure Quiet (s : Link) : Prop where
  first : s.events = [] ∨ ∃ v rest, s.events = v :: rest ∧ v.announces = true
  unread : s.told = false → ∀ e, s.io ≠ .read .tcpRx e
  deaf : s.told = false → s.path = .accept → s.tx.sock.Deaf ∧ s.io.evts.epollin = false

section
variable {Req : Type} {H : Heap} {L : Sender Req} {s s' : Link}

theorem Quiet.announced (Q : Quiet s) : Announced s := by
  intro before data after h
  cases before with
  | nil =>
    rcases Q.first with h0 | ⟨v, rest, h0, hv⟩
    · rw [h0] at h
      cases h
    · rw [h0] at h
      cases h
      cases hv
  | cons v before =>
    rcases Q.first with h0 | ⟨w, rest, h0, hw⟩
    · rw [h0] at h
      cases h
    · rw [h0] at h
      injection h with h1
      exact ⟨v, List.mem_cons_self .., h1 ▸ hw⟩

theorem Sock.Deaf.raise {k : Sock} (D : k.Deaf) (e : Evts) : (k.raise e).Deaf := by
  cases hm : k.mask with
  | none =>
    have h : k.raise e = k := by
      unfold Sock.raise
      rw [hm]
    rw [h]
    exact D
  | some m =>
    refine ⟨fun m' h => D.mask m' ((raise_mask ..).symm.trans h), ?_⟩
    rw [raise_edges k m e hm]
    show (k.edges.epollin || (e.epollin && m.epollin)) = false
    rw [D.edges, D.mask m hm, Bool.and_false, Bool.or_false]

theorem Sock.Deaf.deliver {k : Sock} (D : k.Deaf) (e : Evts) : (k.deliver e).Deaf :=
  ⟨D.mask, by
    show (k.edges.epollin && !e.epollin) = false
    rw [D.edges, Bool.false_and]⟩

theorem Evts.within_in {e e' : Evts} (h : e.within e' = true) (h0 : e'.epollin = false) :
    e.epollin = false := by
  unfold Evts.within at h
  rw [h0] at h
  cases he : e.epollin with
  | false => rfl
  | true =>
    rw [he] at h
    cases h

/-- `ncb_read` keeps the event in hand -/
theorem Ipc.read_evts {i i' : Ipc} {p : NcbRead} {e : Evts} (hi : i = .read p e)
    (h : i' = i ∨ i' = .out e) : i'.evts = i.evts := by
  rcases h with rfl | rfl
  · rfl
  · rw [hi]
    rfl

theorem told_first (Q : Quiet s) (h : s.told = true) :
    ∃ v rest, s.events = v :: rest ∧ v.announces = true := by
  rcases Q.first with h0 | h0
  · unfold Link.told at h
    rw [h0] at h
    cases h
  · exact h0

/-- a step without a post; what it does to the socket and to `__iorun` is left to be checked -/
theorem Quiet.keep (Q : Quiet s) (hv : s'.events = s.events) (hp : s'.path = s.path)
    (hu : s.told = false → ∀ e, s'.io ≠ .read .tcpRx e)
    (hd : s.told = false → s.path = .accept → s'.tx.sock.Deaf ∧ s'.io.evts.epollin = false) :
    Quiet s' := by
  have ht : s'.told = s.told := by
    unfold Link.told
    rw [hv]
  refine ⟨hv ▸ Q.first, fun h => hu (ht ▸ h), fun h h' => hd (ht ▸ h) (hp ▸ h')⟩

/-- news from the network -/
theorem Quiet.network (Q : Quiet s) {k : Sock} (hm : k.mask = s.tx.sock.mask)
    (he : k.edges = s.tx.sock.edges) (e : Evts) (sent : Bytes) :
    Quiet { s.setSock (k.raise e) with sent := sent } := by
  refine Q.keep rfl rfl Q.unread fun ht hp => ⟨?_, (Q.deaf ht hp).2⟩
  have D := (Q.deaf ht hp).1
  exact Sock.Deaf.raise ⟨fun m h => D.mask m (hm.symm.trans h), he ▸ D.edges⟩ e

theorem Quiet.move (B : Base L s) (Q : Quiet s) {a : TxAct Req} {t : Tx} (M : Move L s.tx a t) :
    Quiet { s with tx := t } := by
  refine Q.keep rfl rfl Q.unread fun ht hp => ⟨?_, (Q.deaf ht hp).2⟩
  have D := (Q.deaf ht hp).1
  have hr : ¬ s.Ready := fun h => by
    have := h.2.2 hp
    rw [ht] at this
    cases this
  show t.sock.Deaf
  rcases move_sock M with h | ⟨_, h⟩ | ⟨hc, _⟩ | ⟨_, h⟩
  · rw [h]
    exact D
  · rw [h]
    exact ⟨D.mask, D.edges⟩
  · exact absurd (B.calm hr) hc
  · rw [h]
    exact Sock.Deaf.raise (k := { s.tx.sock with full := false }) ⟨D.mask, D.edges⟩ _

/-- only `tcp_tx_syn` sets `ncb_read` to `tcp_rx` before the announcement, or `__tcp_syn_dpc` -/
theorem Phase.early {path : Path} {est : Epc} {syn : Spc} {w : Option NcbWrite} {t : Bool}
    (P : Phase path est syn (some .tcpRx) w t) : t = true ∨ path = .connect2 ∨ path = .accept := by
  cases P <;> first | exact Or.inl rfl | exact Or.inr (Or.inl rfl) | exact Or.inr (Or.inr rfl)

theorem Phase.accept_done {syn : Spc} {r : Option NcbRead} {w : Option NcbWrite} {t : Bool}
    (P : Phase .accept .done syn r w t) : t = true := by
  cases P
  rfl

theorem turn_quiet (B : Base L s) (Q : Quiet s) {a : LinkAct Req} (hA : AfterNews s a)
    (T : Turn H L s a s') : Quiet s' := by
  cases T with
  | same => exact Q
  | inner ha M => exact Q.move B M
  | call hr M => exact Q.move B M
  | exec hw ht hx => exact Q.keep rfl rfl Q.unread Q.deaf
  | execNone hr => exact Q.keep rfl rfl Q.unread Q.deaf
  | execSyn ht hr P hk => exact Q.keep rfl rfl Q.unread Q.deaf
  | pass P hk hd hs => exact Q.keep rfl rfl Q.unread Q.deaf
  | read P hk hd hs hc => exact Q.keep rfl rfl Q.unread Q.deaf
  | write hw P hk hd hs => exact Q.keep rfl rfl Q.unread Q.deaf
  | failed P hk hd hs => exact Q.keep rfl rfl Q.unread Q.deaf
  | @post a v est' syn' hv P hk hd hs =>
    have ht : (s.events ++ [v]).any Event.announces = true := by
      rw [told_append, List.any_cons, hv, Bool.true_or, Bool.or_true]
    refine ⟨Or.inr ?_, fun h => Bool.noConfusion (ht.symm.trans h),
      fun h => Bool.noConfusion (ht.symm.trans h)⟩
    rcases Q.first with h0 | ⟨w, rest, h0, hw⟩
    · exact ⟨v, [], congrArg (· ++ [v]) h0, hv⟩
    · exact ⟨w, rest ++ [v], congrArg (· ++ [v]) h0, hw⟩
  | attach hr hm P hk hd =>
    refine Q.keep rfl rfl Q.unread fun ht hp => ⟨⟨fun m h => ?_, ?_⟩, (Q.deaf ht hp).2⟩
    · cases h
      rw [hp]
      rfl
    · show ((s.tx.sock.edges.union s.tx.sock.ready).epollin && s.path.mask.epollin) = false
      rw [hp]
      exact Bool.and_false _
  | modifySyn hp hs hr P hk =>
    refine Q.keep rfl rfl Q.unread fun ht hp' => ?_
    rw [hp] at hp'
    cases hp'
  | modifyDpc hp he P hk =>
    refine Q.keep rfl rfl Q.unread fun ht hp' => ?_
    rw [hp] at P
    rw [P.accept_done] at ht
    cases ht
  | poll hi he hh =>
    refine Q.keep rfl rfl (fun _ _ => nofun) fun ht hp => ?_
    have D := (Q.deaf ht hp).1
    exact ⟨D.deliver _, Evts.within_in he D.edges⟩
  | eventClose hi he =>
    refine Q.keep rfl rfl (fun _ _ => nofun) fun ht hp => ?_
    have D := (Q.deaf ht hp).1
    exact ⟨⟨D.mask, D.edges⟩, rfl⟩
  | eventDrop hi hc =>
    exact Q.keep rfl rfl (fun _ _ => nofun) fun ht hp => ⟨(Q.deaf ht hp).1, rfl⟩
  | eventTake hi hr he hc =>
    refine Q.keep rfl rfl (fun _ _ => nofun) fun ht hp => ⟨(Q.deaf ht hp).1, ?_⟩
    have h := (Q.deaf ht hp).2
    rwa [hi] at h
  | @fetchRead e p hi he hr =>
    have hin : s.told = false → s.path ≠ .accept := by
      intro ht hp
      have h := (Q.deaf ht hp).2
      rw [hi] at h
      exact Bool.noConfusion (he.symm.trans h)
    refine Q.keep rfl rfl (fun ht e' h => ?_) fun ht hp => absurd hp (hin ht)
    cases h
    have P := B.phase
    rw [hr] at P
    rcases P.early with h | h | h
    · rw [h] at ht
      cases ht
    · rw [hA h ht _ hi he] at hr
      cases hr
    · exact hin ht h
  | fetchOut hi he =>
    refine Q.keep rfl rfl (fun _ _ => nofun) fun ht hp => ⟨(Q.deaf ht hp).1, ?_⟩
    have h := (Q.deaf ht hp).2
    rwa [hi] at h
  | @recv e r v rx' chunk hi ha hx hc io' closed' why' hio hv =>
    -- `tcp_rx` runs, so the link is announced
    have ht : s.told = true := by
      cases h : s.told with
      | true => rfl
      | false => exact absurd hi (Q.unread h e)
    have ht' : (s.events ++ (rx'.posts.drop s.rx.posts.length).map Event.recvdata).any
        Event.announces = true := (told_recv ..).trans ht
    obtain ⟨w, rest, h0, hw⟩ := told_first Q ht
    exact ⟨Or.inr ⟨w, rest ++ _, congrArg (· ++ _) h0, hw⟩,
      fun h => Bool.noConfusion (ht'.symm.trans h), fun h => Bool.noConfusion (ht'.symm.trans h)⟩
  | @accept e errno n io' closed' why' hi hn hio hv =>
    refine Q.keep rfl rfl (fun ht e' h => Q.unread ht e' (Ipc.read_back hio h)) fun ht hp => ?_
    obtain ⟨D, h⟩ := Q.deaf ht hp
    exact ⟨⟨D.mask, D.edges⟩, (congrArg Evts.epollin (Ipc.read_evts hi hio)).trans h⟩
  | outTask hi he hm =>
    exact Q.keep rfl rfl (fun _ _ => nofun) fun ht hp => ⟨(Q.deaf ht hp).1, rfl⟩
  | outNone hi he =>
    exact Q.keep rfl rfl (fun _ _ => nofun) fun ht hp => ⟨(Q.deaf ht hp).1, rfl⟩
  | @arrive data hp hf =>
    exact Q.network (k := { s.tx.sock with rxq := s.tx.sock.rxq ++ data }) rfl rfl _ _
  | incoming hp =>
    exact Q.network (k := { s.tx.sock with backlog := s.tx.sock.backlog + 1 }) rfl rfl _ s.sent
  | shutdown hp => exact Q.network (k := { s.tx.sock with fin := true }) rfl rfl _ s.sent
  | establish => exact Q.network (k := { s.tx.sock with connected := true }) rfl rfl _ s.sent
  | reset => exact Q.network (k := { s.tx.sock with err := true }) rfl rfl _ s.sent

theorem quiet_init (path : Path) (rx : Rx) : Quiet (Link.init path rx) :=
  ⟨Or.inl rfl, fun _ _ => nofun, fun _ _ => ⟨⟨nofun, rfl⟩, rfl⟩⟩

end

/-- **Establishment is announced before data.**  With `__tcp_syn_dpc` and `tcp_connect` in every run. -/
theorem announced_of_after (H : Heap) (ncb : Ncb) (hcb : 0 ≤ ncb.tcp.template.cb_) (path : Path)
    (rx : Rx) (as : List (LinkAct WriteReq))
    (hA : Meets (Link.step H (tcpSender H ncb hcb)) AfterNews (Link.init path rx) as) (s : Link)
    (h : run (Link.step H (tcpSender H ncb hcb)) (Link.init path rx) as = some s) : Announced s := by
  refine (run_turns ?_ (quiet_init path rx) hA h).2.announced
  intro s a s' B Q hC T
  exact turn_quiet B Q hC T

/-- a link without a template -/
def Rx.plain : Rx := Rx.fresh [] Attr.clear ⟨0, none, none⟩

def Evts.inOnly : Evts := { Evts.none with epollin := true }

def Evts.outOnly : Evts := { Evts.none with epollout := true }

/-- `tcp_connect2` until the connection is there and the pool is in `tcp_tx_syn` -/
def connecting : List (LinkAct WriteReq) :=
  [.est 0, .est EINPROGRESS, .est 0, .establish, .poll Evts.outOnly, .event, .fetch, .out true,
    .tx .exec, .syn 0]

/-- a byte comes in behind the announcement -/
def newsFirst : List (LinkAct WriteReq) :=
  connecting ++ [.syn 0, .syn 0, .syn 0, .syn 0, .arrive [7], .poll Evts.inOnly, .event, .fetch,
    .recv (.bytes [7])]

theorem announced_of_after_newsFirst :
    ∃ s, run (Link.step Heap.zeros (tcpSender Heap.zeros Rx.plain.ncb (by decide)))
      (Link.init .connect2 Rx.plain) newsFirst = some s ∧ Announced s := by
  have hsome : (run (Link.step Heap.zeros (tcpSender Heap.zeros Rx.plain.ncb (by decide)))
      (Link.init .connect2 Rx.plain) newsFirst).isSome = true := rfl
  obtain ⟨s, hs⟩ := Option.isSome_iff_exists.mp hsome
  refine ⟨s, hs, announced_of_after _ _ _ _ _ newsFirst ?_ s hs⟩
  refine meets_cons _ rfl trivial (meets_cons _ rfl trivial (meets_cons _ rfl trivial
    (meets_cons _ rfl trivial (meets_cons _ rfl trivial (meets_cons _ rfl trivial ?_)))))
  refine meets_cons _ rfl (fun _ _ e he hin => ?_) ?_
  · cases he
    cases hin
  refine meets_cons _ rfl trivial (meets_cons _ rfl trivial (meets_cons _ rfl trivial
    (meets_cons _ rfl trivial (meets_cons _ rfl trivial (meets_cons _ rfl trivial
    (meets_cons _ rfl trivial (meets_cons _ rfl trivial (meets_cons _ rfl trivial
    (meets_cons _ rfl trivial ?_)))))))))
  exact meets_cons _ rfl (fun _ ht => nomatch ht) (meets_cons _ rfl trivial trivial)

/-- the byte is read between the `ncb_read` and the announcement -/
def dataFirst : List (LinkAct WriteReq) :=
  connecting ++ [.syn 0, .syn 0, .arrive [7], .poll Evts.inOnly, .event, .fetch, .recv (.bytes [7])]

theorem dataFirst_unannounced :
    ∃ s, run (Link.step Heap.zeros (tcpSender Heap.zeros Rx.plain.ncb (by decide)))
      (Link.init .connect2 Rx.plain) dataFirst = some s ∧
      s.events = [.recvdata [7]] ∧ ¬ Announced s := by
  have h : (run (Link.step Heap.zeros (tcpSender Heap.zeros Rx.plain.ncb (by decide)))
      (Link.init .connect2 Rx.plain) dataFirst).map Link.events = some [.recvdata [7]] := by rfl
  obtain ⟨s, hs, he⟩ := Option.map_eq_some_iff.mp h
  refine ⟨s, hs, he, fun hA => ?_⟩
  obtain ⟨v, hv, _⟩ := hA [] [7] [] he
  cases hv

end Swnet

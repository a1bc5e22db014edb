import Swnet.Acts

/-!
# `tcp_connect`, `tcp_connect2` and `tcp_listen`

The three calls with every outcome of the system calls in them, one after the other on one link.

* `Establish`    the calls; `Establish.call` is what they do;
* `live_iff`     when an answer that is not negative means a live link;
* `retry_iff`    when a call that fails leaves the handlers of the link as they were.
-/

namespace Swnet
open Traced Runs

abbrev TCP_CLOSE : Nat := 7
abbrev EBADF : Nat := 9

/-- the part of a link that the calls are about; `attached`: a successful `io_attach` has registered its
socket with the `epfd` that it has -/
structure Lnk where
  ncbRead : Option NcbRead
  ncbWrite : Option NcbWrite
  attached : Bool
deriving DecidableEq, Repr

/-- a link from `tcp_create` -/
def Lnk.created : Lnk := ⟨none, none, false⟩

/-! ## outcomes -/

/-- What the calls are answered.  `found` is what `__tcprefr` finds, `ktcp` what `TCP_INFO` reports,
`fcntl` the error number of the `io_fcntl` of `tcp_connect2`, and `sys` the one of `listen(2)`, or of
`connect(2)` once it is not interrupted. -/
structure Outcome where
  found : Option Proto
  ktcp : Option Nat
  fcntl : Nat
  sys : Nat
  again : sys ≠ 4
  attach : AttachOut
  /-- whether the link has a callback -/
  callback : Bool
  /-- in `tcp_tx_syn`: the error of the socket once it is not `EINTR`, and of `epoll_ctl(2)` -/
  soError : Nat
  soAgain : soError ≠ 4
  ctl : Nat

/-! ## the functions -/

/-- `io_attach` writes `epfd` once it has found the I/O block -/
def Lnk.attach (o : AttachOut) (s : Lnk) : Lnk :=
  if o.fcntl = 0 ∧ 0 ≤ o.hld ∧ o.found = true then
    { s with attached := decide (o.ctl = 0 ∨ o.ctl = EEXIST) }
  else s

/-- `io_attach` -/
def attachLink (o : AttachOut) : Call Lnk Int := do
  let retval ← ioAttachCall o
  store (Lnk.attach o)
  return retval

/-- `io_modify`; a socket that is not registered cannot be modified -/
def modifyLink (e : Nat) : Call Lnk Int := do
  let s ← look
  return if s.attached = false then -EBADF else -e

/-- `tcp_tx_syn` -/
def tcpTxSynCall (link : Int) (o : Outcome) : Call Lnk Int := do
  if o.soError = 0 then
    let retval ← modifyLink o.ctl
    if retval < 0 then
      objclos link
      return -1
    store fun s => { s with ncbRead := some .tcpRx }
    store fun s => { s with ncbWrite := some .tcpTx }
    ncbPost link o.callback .connected
    return 0
  else if o.soError = EISCONN ∨ o.soError = EALREADY then return 0
  else if o.soError = 11 then return -EAGAIN
  else return -1

/-- the do-while of `tcp_connect` -/
def tcpConnectBody (link : Int) (o : Outcome) : Call Lnk Int := do
  if o.ktcp.any (· ≠ TCP_CLOSE) then return -1
  if o.sys ≠ 0 then return -1
  let retval ← attachLink o.attach
  if retval < 0 then
    objclos link
    return retval
  ncbPost link o.callback .connected
  store fun s => { s with ncbRead := some .tcpRx }
  store fun s => { s with ncbWrite := some .tcpTx }
  return retval

/-- the do-while of `tcp_connect2` -/
def tcpConnect2Body (link : Int) (o : Outcome) : Call Lnk Int := do
  if ioFcntl o.fcntl < 0 then return -1
  if o.ktcp.any (· ≠ TCP_CLOSE) then return -1
  let s ← look
  if s.ncbWrite ≠ none then return -1
  store fun s => { s with ncbWrite := some .tcpTxSyn }
  if o.sys = 0 then
    -- the answer of `tcp_tx_syn` is dropped
    let _ ← tcpTxSynCall link o
    return 0
  if o.sys = EINPROGRESS then
    let retval ← attachLink o.attach
    if retval < 0 then
      objclos link
    return retval
  return -1

/-- the do-while of `tcp_listen` -/
def tcpListenBody (link : Int) (o : Outcome) : Call Lnk Int := do
  if o.ktcp.any (· ≠ TCP_CLOSE) then return -1
  if o.sys ≠ 0 then return -1
  let s ← look
  if s.ncbRead ≠ none then return -1
  store fun s => { s with ncbRead := some .tcpSyn }
  store fun s => { s with ncbWrite := none }
  let retval ← attachLink o.attach
  if retval < 0 then
    objclos link
    -- `retval` is still the answer of `listen(2)`
    return 0
  return 0

/-- the three public calls -/
inductive Establish where
  | connect (ipstr : Bool) (port : Nat) (o : Outcome)
  | connect2 (ipstr : Bool) (port : Nat) (o : Outcome)
  | listen (block : Int) (o : Outcome)

def tcpConnect (link : Int) (ipstr : Bool) (port : Nat) (o : Outcome) : Call Lnk Int := do
  if link < 0 ∨ ipstr = false ∨ port = 0 then return -EINVAL
  let retval ← tcprefr link o.found
  if retval < 0 then return retval
  let retval ← tcpConnectBody link o
  objdefr link
  return retval

def tcpConnect2 (link : Int) (ipstr : Bool) (port : Nat) (o : Outcome) : Call Lnk Int := do
  if ipstr = false ∨ port = 0 ∨ link < 0 then return -EINVAL
  let retval ← tcprefr link o.found
  if retval < 0 then return retval
  let retval ← tcpConnect2Body link o
  objdefr link
  return retval

def tcpListen (link : Int) (block : Int) (o : Outcome) : Call Lnk Int := do
  if block < 0 ∨ block ≥ 0x7FFF then return -EINVAL
  let retval ← tcprefr link o.found
  if retval < 0 then return retval
  let retval ← tcpListenBody link o
  objdefr link
  return retval

def Establish.call (link : Int) : Establish → Call Lnk Int
  | .connect ipstr port o => tcpConnect link ipstr port o
  | .connect2 ipstr port o => tcpConnect2 link ipstr port o
  | .listen block o => tcpListen link block o

/-! ## what is said of a call -/

section
variable (link : Int) (s : Lnk) (c : Establish)

def Establish.answer : Int := (c.call link).val s
def Establish.behind : Lnk := (c.call link).state s

/-- the call has ordered the link closed -/
def Establish.closes : Bool := decide (Act.objclos link ∈ (c.call link).trace s)

/-- an answer that is not negative means a live link -/
def Establish.Live : Prop :=
  0 ≤ c.answer link s → c.closes link s = false ∧ (c.behind link s).attached = true

end

/-- the call gets past its checks of the arguments and of the link -/
def Establish.Admits (link : Int) : Establish → Prop
  | .connect ipstr port o => (0 ≤ link ∧ o.found = some .tcp) ∧ ipstr = true ∧ port ≠ 0
  | .connect2 ipstr port o => (0 ≤ link ∧ o.found = some .tcp) ∧ ipstr = true ∧ port ≠ 0
  | .listen block o => (0 ≤ link ∧ o.found = some .tcp) ∧ 0 ≤ block ∧ block < 0x7FFF

/-- the socket can be changed and is not in use -/
def Establish.Closed : Establish → Prop
  | .connect _ _ o => o.ktcp.all (· = TCP_CLOSE) = true
  | .connect2 _ _ o => o.fcntl = 0 ∧ o.ktcp.all (· = TCP_CLOSE) = true
  | .listen _ o => o.ktcp.all (· = TCP_CLOSE) = true

/-- `io_attach` succeeds where `tcp_listen` comes to it; where `connect(2)` of `tcp_connect2` succeeds
at once, the socket has been attached before, and `io_modify` succeeds if it is tried -/
def Establish.Firm (link : Int) (s : Lnk) : Establish → Prop
  | .connect .. => True
  | c@(.connect2 _ _ o) =>
    c.Admits link → c.Closed → s.ncbWrite = none → o.sys = 0 →
      s.attached = true ∧ (o.soError = 0 → o.ctl = 0)
  | c@(.listen _ o) => c.Admits link → c.Closed → s.ncbRead = none → o.sys = 0 → o.attach.Good

/-! ## the parts -/

section
variable {link : Int} {s : Lnk} {o : Outcome}

/-- a function that begins with `__tcprefr`, on a link that is found -/
theorem withRef_found {y : Call Lnk Int} {found : Option Proto}
    (h : 0 ≤ link ∧ found = some .tcp) :
    (do
      let retval ← (tcprefr link found : Call Lnk Int)
      if retval < 0 then return retval
      let retval ← y
      objdefr link
      return retval) s
      = (y.val s, y.state s, Act.objrefr link true :: (y.trace s ++ [Act.objdefr link])) := by
  obtain ⟨hl, rfl⟩ := h
  have h : (tcprefr link (some Proto.tcp) : Call Lnk Int) = do objrefr link true; return 0 := by
    unfold tcprefr protoRefr
    rw [if_neg (by omega)]
    rfl
  rw [h]
  rfl

/-- what a call answers that does nothing -/
def Refused (link : Int) (s : Lnk) (x : Call Lnk Int) : Prop :=
  x.val s < 0 ∧ x.state s = s ∧ Act.objclos link ∉ x.trace s

theorem refused_pure {v : Int} (hv : v < 0) : Refused link s (pure v) := ⟨hv, rfl, List.not_mem_nil⟩

/-- the same on a link that is not -/
theorem withRef_missing {y : Call Lnk Int} {found : Option Proto}
    (h : ¬ (0 ≤ link ∧ found = some .tcp)) :
    Refused link s (do
      let retval ← (tcprefr link found : Call Lnk Int)
      if retval < 0 then return retval
      let retval ← y
      objdefr link
      return retval) := by
  unfold tcprefr protoRefr
  by_cases hl : link < 0
  · rw [if_pos hl]
    exact refused_pure (by decide)
  · rw [if_neg hl]
    cases found with
    | none => exact ⟨show -ENOENT < 0 by decide, rfl, by simp [objrefr]⟩
    | some q =>
      have hq : ¬ q = .tcp := fun hq => h ⟨by omega, by rw [hq]⟩
      dsimp only
      rw [if_neg hq]
      refine ⟨show -EPROTOTYPE < 0 by decide, rfl, ?_⟩
      show Act.objclos link ∉ [Act.objrefr link true, Act.objdefr link]
      simp

/-- the part of the call between its two references -/
def Establish.body (link : Int) : Establish → Call Lnk Int
  | .connect _ _ o => tcpConnectBody link o
  | .connect2 _ _ o => tcpConnect2Body link o
  | .listen _ o => tcpListenBody link o

/-- a call that is admitted is its body -/
theorem call_admitted {c : Establish} (h : c.Admits link) :
    c.call link s = ((c.body link).val s, (c.body link).state s,
      Act.objrefr link true :: ((c.body link).trace s ++ [Act.objdefr link])) := by
  cases c with
  | connect ipstr port o =>
    obtain ⟨h1, h2, h3⟩ := h
    show tcpConnect link ipstr port o s = _
    unfold tcpConnect
    rw [if_neg (by rintro (h | h | h) <;> [omega; exact absurd h (by simp [h2]); exact h3 h])]
    exact withRef_found h1
  | connect2 ipstr port o =>
    obtain ⟨h1, h2, h3⟩ := h
    show tcpConnect2 link ipstr port o s = _
    unfold tcpConnect2
    rw [if_neg (by rintro (h | h | h) <;> [exact absurd h (by simp [h2]); exact h3 h; omega])]
    exact withRef_found h1
  | listen block o =>
    obtain ⟨h1, h2, h3⟩ := h
    show tcpListen link block o s = _
    unfold tcpListen
    rw [if_neg (by omega)]
    exact withRef_found h1

theorem call_refused {c : Establish} (h : ¬ c.Admits link) : Refused link s (c.call link) := by
  cases c with
  | connect ipstr port o =>
    show Refused link s (tcpConnect link ipstr port o)
    unfold tcpConnect
    by_cases ha : link < 0 ∨ ipstr = false ∨ port = 0
    · rw [if_pos ha]
      exact refused_pure (by decide)
    · rw [if_neg ha]
      refine withRef_missing fun h1 => h ⟨h1, ?_, fun h2 => ha (Or.inr (Or.inr h2))⟩
      exact Bool.eq_false_or_eq_true ipstr |>.resolve_right fun h2 => ha (Or.inr (Or.inl h2))
  | connect2 ipstr port o =>
    show Refused link s (tcpConnect2 link ipstr port o)
    unfold tcpConnect2
    by_cases ha : ipstr = false ∨ port = 0 ∨ link < 0
    · rw [if_pos ha]
      exact refused_pure (by decide)
    · rw [if_neg ha]
      refine withRef_missing fun h1 => h ⟨h1, ?_, fun h2 => ha (Or.inr (Or.inl h2))⟩
      exact Bool.eq_false_or_eq_true ipstr |>.resolve_right fun h2 => ha (Or.inl h2)
  | listen block o =>
    show Refused link s (tcpListen link block o)
    unfold tcpListen
    by_cases ha : block < 0 ∨ block ≥ 0x7FFF
    · rw [if_pos ha]
      exact refused_pure (by decide)
    · rw [if_neg ha]
      exact withRef_missing fun h1 => h ⟨h1, by omega⟩

theorem closes_iff {c : Establish} (h : c.Admits link) :
    c.closes link s = true ↔ Act.objclos link ∈ (c.body link).trace s := by
  have ht : (c.call link).trace s
      = Act.objrefr link true :: ((c.body link).trace s ++ [Act.objdefr link]) := by
    unfold Prog.trace
    rw [call_admitted h]
    rfl
  unfold Establish.closes
  rw [ht]
  simp

theorem answer_admitted {c : Establish} (h : c.Admits link) :
    c.answer link s = (c.body link).val s := by
  unfold Establish.answer Prog.val
  rw [call_admitted h]
  rfl

theorem behind_admitted {c : Establish} (h : c.Admits link) :
    c.behind link s = (c.body link).state s := by
  unfold Establish.behind Prog.state
  rw [call_admitted h]
  rfl

/-! ## `io_attach` -/

@[simp] theorem state_attachLink {a : AttachOut} : (attachLink a).state s = s.attach a := by
  have h : (ioAttachCall a : Call Lnk Int).state s = s := by
    unfold ioAttachCall
    split
    · rfl
    split
    · rfl
    cases a.found <;> rfl
  unfold attachLink
  rw [state_bind, h]
  rfl

@[simp] theorem closes_attachLink {a : AttachOut} : Act.objclos link ∉ (attachLink a).trace s := by
  have h : Act.objclos link ∉ (ioAttachCall a : Call Lnk Int).trace s := by
    unfold ioAttachCall
    split
    · simp
    split
    · simp
    cases a.found <;> simp [objrefr, objdefr]
  unfold attachLink
  simpa using h

/-- it answers with an `epfd` or a negative number -/
theorem attachLink_good_iff {a : AttachOut} : 0 ≤ (attachLink a).val s ↔ a.Good := by
  have h : (attachLink a).val s = (ioAttachCall a : Call Lnk Int).val s := rfl
  rw [h]
  unfold ioAttachCall AttachOut.Good ioFcntl
  by_cases hf : a.fcntl = 0
  · rw [hf, if_pos rfl, if_neg (Int.lt_irrefl 0)]
    by_cases hh : a.hld < 0
    · rw [if_pos hh]
      constructor
      · intro h
        exact absurd h (show ¬ 0 ≤ -EPROTOTYPE by decide)
      · intro h
        omega
    · rw [if_neg hh]
      cases hd : a.found with
      | false =>
        constructor
        · intro h
          exact absurd h (show ¬ 0 ≤ -ENOENT by decide)
        · intro h
          cases h.2.2.1
      | true =>
        show 0 ≤ (if a.ctl ≠ 0 ∧ a.ctl ≠ EEXIST then (-1 : Int) else a.epfd) ↔ _
        by_cases hc : a.ctl ≠ 0 ∧ a.ctl ≠ EEXIST
        · rw [if_pos hc]
          constructor
          · intro h
            omega
          · intro h
            omega
        · rw [if_neg hc]
          constructor
          · intro _
            exact ⟨rfl, by omega, rfl, by omega⟩
          · intro _
            omega
  · rw [if_neg hf, if_pos (by omega)]
    constructor
    · intro h
      rw [val_pure] at h
      omega
    · intro h
      exact absurd h.1 hf

theorem attachLink_negative {a : AttachOut} : (attachLink a).val s < 0 ↔ ¬ a.Good := by
  rw [← attachLink_good_iff (s := s)]
  omega

theorem attached_good {a : AttachOut} (h : a.Good) : (s.attach a).attached = true := by
  unfold Lnk.attach
  rw [if_pos ⟨h.1, h.2.1, h.2.2.1⟩]
  exact decide_eq_true h.2.2.2

/-! ## what the three functions can do -/

/-- an answer that is not negative, and the socket is attached -/
def Served (link : Int) (s : Lnk) (x : Call Lnk Int) : Prop :=
  0 ≤ x.val s ∧ Act.objclos link ∉ x.trace s ∧ (x.state s).attached = true

/-- a negative answer, and the link is closed -/
def GivenUp (link : Int) (s : Lnk) (x : Call Lnk Int) : Prop :=
  x.val s < 0 ∧ Act.objclos link ∈ x.trace s

theorem closed_any {k : Option Nat} : k.any (· ≠ TCP_CLOSE) = true ↔ ¬ k.all (· = TCP_CLOSE) = true := by
  cases k <;> simp

theorem tcpConnectBody_cases : Refused link s (tcpConnectBody link o) ∨
    GivenUp link s (tcpConnectBody link o) ∨ Served link s (tcpConnectBody link o) := by
  unfold tcpConnectBody
  split
  · exact Or.inl (refused_pure (by decide))
  split
  · exact Or.inl (refused_pure (by decide))
  by_cases hg : o.attach.Good
  · have hv : ¬ (attachLink o.attach).val s < 0 := mt attachLink_negative.mp (not_not.mpr hg)
    refine Or.inr (Or.inr ⟨?_, ?_, ?_⟩)
    · rw [val_bind, if_neg hv]
      simp only [val_bind, val_pure]
      exact attachLink_good_iff.mpr hg
    · rw [trace_bind, if_neg hv]
      unfold ncbPost
      cases o.callback <;> simp
    · rw [state_bind, if_neg hv]
      unfold ncbPost
      cases o.callback <;> simp [attached_good hg]
  · have hv : (attachLink o.attach).val s < 0 := attachLink_negative.mpr hg
    refine Or.inr (Or.inl ⟨?_, ?_⟩)
    · rw [val_bind, if_pos hv]
      exact hv
    · rw [trace_bind, if_pos hv]
      simp [objclos]

theorem tcpListenBody_cases :
    ¬ (o.ktcp.all (· = TCP_CLOSE) = true ∧ s.ncbRead = none ∧ o.sys = 0) ∧
      Refused link s (tcpListenBody link o) ∨
    (o.ktcp.all (· = TCP_CLOSE) = true ∧ s.ncbRead = none ∧ o.sys = 0) ∧
      (o.attach.Good ∧ Served link s (tcpListenBody link o) ∨
        ¬ o.attach.Good ∧ (tcpListenBody link o).val s = 0 ∧
          Act.objclos link ∈ (tcpListenBody link o).trace s) := by
  unfold tcpListenBody
  by_cases hk : o.ktcp.any (· ≠ TCP_CLOSE) = true
  · rw [if_pos hk]
    exact Or.inl ⟨fun h => closed_any.mp hk h.1, refused_pure (by decide)⟩
  rw [if_neg hk]
  by_cases hs : o.sys ≠ 0
  · rw [if_pos hs]
    exact Or.inl ⟨fun h => hs h.2.2, refused_pure (by decide)⟩
  rw [if_neg hs]
  by_cases hr : s.ncbRead ≠ none
  · refine Or.inl ⟨fun h => hr h.2.1, ?_⟩
    unfold Refused
    rw [val_look_bind, state_look_bind, trace_look_bind, if_pos hr]
    exact refused_pure (by decide)
  rw [ne_eq, not_not] at hs hr
  refine Or.inr ⟨⟨not_not.mp (mt closed_any.mpr hk), hr, hs⟩, ?_⟩
  have hn : ¬ s.ncbRead ≠ none := not_not.mpr hr
  unfold Served
  rw [val_look_bind, state_look_bind, trace_look_bind, if_neg hn]
  simp only [val_bind, state_bind, trace_bind, state_store]
  by_cases hg : o.attach.Good
  · left
    rw [if_neg (mt attachLink_negative.mp (not_not.mpr hg))]
    refine ⟨hg, le_refl _, by simp, ?_⟩
    simp [attached_good hg]
  · right
    rw [if_pos (attachLink_negative.mpr hg)]
    exact ⟨hg, rfl, by simp [objclos]⟩

/-- `tcp_tx_syn` closes a link that it cannot modify -/
theorem closes_tcpTxSynCall : Act.objclos link ∈ (tcpTxSynCall link o).trace s ↔
    o.soError = 0 ∧ ¬ (s.attached = true ∧ o.ctl = 0) := by
  unfold tcpTxSynCall
  by_cases h0 : o.soError = 0
  · rw [if_pos h0]
    have hm : (modifyLink o.ctl).val s < 0 ↔ ¬ (s.attached = true ∧ o.ctl = 0) := by
      show (if s.attached = false then -(EBADF : Int) else -o.ctl) < 0 ↔ _
      cases s.attached with
      | false => simp
      | true => simp; omega
    rw [trace_bind]
    by_cases hv : (modifyLink o.ctl).val s < 0
    · rw [if_pos hv]
      simp [objclos, h0, hm.mp hv]
    · rw [if_neg hv]
      have h1 := mt hm.mpr hv
      unfold ncbPost
      cases o.callback <;> simp [modifyLink, h0, h1]
  · rw [if_neg h0]
    split
    · simp [h0]
    split
    · simp [h0]
    · simp [h0]

theorem attached_tcpTxSynCall : ((tcpTxSynCall link o).state s).attached = s.attached := by
  unfold tcpTxSynCall
  split
  · rw [state_bind]
    split
    · rfl
    · unfold ncbPost
      cases o.callback <;> rfl
  split
  · rfl
  split <;> rfl

theorem tcpConnect2Body_cases :
    ¬ (o.fcntl = 0 ∧ o.ktcp.all (· = TCP_CLOSE) = true ∧ s.ncbWrite = none) ∧
      Refused link s (tcpConnect2Body link o) ∨
    (o.fcntl = 0 ∧ o.ktcp.all (· = TCP_CLOSE) = true ∧ s.ncbWrite = none) ∧
      (o.sys = 0 ∧ (tcpConnect2Body link o).val s = 0 ∧
          (Act.objclos link ∈ (tcpConnect2Body link o).trace s ↔
            o.soError = 0 ∧ ¬ (s.attached = true ∧ o.ctl = 0)) ∧
          ((tcpConnect2Body link o).state s).attached = s.attached ∨
        o.sys = EINPROGRESS ∧ (GivenUp link s (tcpConnect2Body link o) ∨
          Served link s (tcpConnect2Body link o)) ∨
        (o.sys ≠ 0 ∧ o.sys ≠ EINPROGRESS) ∧ (tcpConnect2Body link o).val s < 0 ∧
          Act.objclos link ∉ (tcpConnect2Body link o).trace s ∧
          (tcpConnect2Body link o).state s = { s with ncbWrite := some .tcpTxSyn }) := by
  unfold tcpConnect2Body
  have hio : ioFcntl o.fcntl < 0 ↔ o.fcntl ≠ 0 := by
    unfold ioFcntl
    split <;> omega
  by_cases hf : ioFcntl o.fcntl < 0
  · rw [if_pos hf]
    exact Or.inl ⟨fun h => hio.mp hf h.1, refused_pure (by decide)⟩
  rw [if_neg hf]
  by_cases hk : o.ktcp.any (· ≠ TCP_CLOSE) = true
  · rw [if_pos hk]
    exact Or.inl ⟨fun h => closed_any.mp hk h.2.1, refused_pure (by decide)⟩
  rw [if_neg hk]
  by_cases hw : s.ncbWrite ≠ none
  · refine Or.inl ⟨fun h => hw h.2.2, ?_⟩
    unfold Refused
    rw [val_look_bind, state_look_bind, trace_look_bind, if_pos hw]
    exact refused_pure (by decide)
  refine Or.inr ⟨⟨not_not.mp (mt hio.mpr hf), not_not.mp (mt closed_any.mpr hk), not_not.mp hw⟩, ?_⟩
  unfold GivenUp Served
  rw [val_look_bind, state_look_bind, trace_look_bind, if_neg hw]
  simp only [val_bind, state_bind, trace_bind, state_store]
  by_cases h0 : o.sys = 0
  · left
    rw [if_pos h0]
    refine ⟨h0, rfl, ?_, ?_⟩
    · simp only [trace_store, trace_bind, trace_pure, List.nil_append, List.append_nil]
      exact closes_tcpTxSynCall
    · rw [state_bind, state_pure]
      exact attached_tcpTxSynCall
  rw [if_neg h0]
  by_cases h1 : o.sys = EINPROGRESS
  · right; left
    rw [if_pos h1]
    refine ⟨h1, ?_⟩
    by_cases hg : o.attach.Good
    · right
      rw [val_bind, trace_bind, state_bind, if_neg (mt attachLink_negative.mp (not_not.mpr hg))]
      exact ⟨attachLink_good_iff.mpr hg, by simp, by simp [attached_good hg]⟩
    · left
      rw [val_bind, trace_bind, if_pos (attachLink_negative.mpr hg)]
      exact ⟨attachLink_negative.mpr hg, by simp [objclos]⟩
  · right; right
    rw [if_neg h1]
    exact ⟨⟨h0, h1⟩, show (-1 : Int) < 0 by decide, by simp, rfl⟩

end

/-! ## the answers -/

section
variable {link : Int} {s : Lnk} {c : Establish}

theorem live_of_negative (h : c.answer link s < 0) : c.Live link s := by
  intro h0
  omega

theorem live_of_refused (h : c.Admits link) (hb : Refused link s (c.body link)) : c.Live link s :=
  live_of_negative (by rw [answer_admitted h]; exact hb.1)

theorem closes_false (h : c.Admits link) (hb : Act.objclos link ∉ (c.body link).trace s) :
    c.closes link s = false := Bool.eq_false_iff.mpr fun hc => hb ((closes_iff h).mp hc)

theorem live_of_served (h : c.Admits link) (hb : Served link s (c.body link)) : c.Live link s := by
  intro _
  refine ⟨closes_false h hb.2.1, ?_⟩
  rw [behind_admitted h]
  exact hb.2.2

theorem live_of_givenUp (h : c.Admits link) (hb : GivenUp link s (c.body link)) : c.Live link s :=
  live_of_negative (by rw [answer_admitted h]; exact hb.1)

variable {ipstr : Bool} {port : Nat} {block : Int} {o : Outcome}

theorem live_connect (h : (Establish.connect ipstr port o).Admits link) :
    (Establish.connect ipstr port o).Live link s := by
  rcases @tcpConnectBody_cases link s o with hb | hb | hb
  · exact live_of_refused h hb
  · exact live_of_givenUp h hb
  · exact live_of_served h hb

theorem live_connect2 (h : (Establish.connect2 ipstr port o).Admits link) :
    (Establish.connect2 ipstr port o).Live link s ↔ (Establish.connect2 ipstr port o).Firm link s := by
  rcases @tcpConnect2Body_cases link s o with
    ⟨hn, hb⟩ | ⟨⟨hf, hk, hw⟩, ⟨h0, hv, hc, ha⟩ | ⟨h1, hb⟩ | ⟨⟨h0, _⟩, hv, _, _⟩⟩
  · refine ⟨fun _ _ hC hw _ => absurd ⟨hC.1, hC.2, hw⟩ hn, fun _ => live_of_refused h hb⟩
  · -- `connect(2)` succeeds at once
    have hc' := (closes_iff h).trans hc
    constructor
    · intro hL _ _ _ _
      obtain ⟨h1, h2⟩ := hL (by rw [answer_admitted h]; exact le_of_eq hv.symm)
      rw [behind_admitted h] at h2
      refine ⟨ha.symm.trans h2, fun he => ?_⟩
      by_contra hctl
      exact Bool.eq_false_iff.mp h1 (hc'.mpr ⟨he, fun h => hctl h.2⟩)
    · intro hF _
      obtain ⟨h1, h2⟩ := hF h ⟨hf, hk⟩ hw h0
      refine ⟨Bool.eq_false_iff.mpr fun hcl => ?_, ?_⟩
      · obtain ⟨he, hne⟩ := hc'.mp hcl
        exact hne ⟨h1, h2 he⟩
      · rw [behind_admitted h]
        exact ha.trans h1
  · refine ⟨fun _ _ _ _ h0 => ?_, fun _ => ?_⟩
    · rw [h0] at h1
      cases h1
    · rcases hb with hb | hb
      · exact live_of_givenUp h hb
      · exact live_of_served h hb
  · refine ⟨fun _ _ _ _ h => absurd h h0, fun _ => live_of_negative ?_⟩
    rw [answer_admitted h]
    exact hv

theorem live_listen (h : (Establish.listen block o).Admits link) :
    (Establish.listen block o).Live link s ↔ (Establish.listen block o).Firm link s := by
  rcases @tcpListenBody_cases link s o with
    ⟨hn, hb⟩ | ⟨⟨hk, hr, h0⟩, ⟨hg, hb⟩ | ⟨hg, hv, hc⟩⟩
  · exact ⟨fun _ _ hk hr h0 => absurd ⟨hk, hr, h0⟩ hn, fun _ => live_of_refused h hb⟩
  · exact ⟨fun _ _ _ _ _ => hg, fun _ => live_of_served h hb⟩
  · -- the link is closed and the answer is that of `listen(2)`
    constructor
    · intro hL
      obtain ⟨h1, _⟩ := hL (by rw [answer_admitted h]; exact le_of_eq hv.symm)
      exact absurd ((closes_iff h).mpr hc) (Bool.eq_false_iff.mp h1)
    · intro hF
      exact absurd (hF h hk hr h0) hg

end

theorem firm_of_refused {link : Int} {s : Lnk} {c : Establish} (h : ¬ c.Admits link) :
    c.Firm link s := by
  cases c with
  | connect ipstr port o => trivial
  | connect2 ipstr port o => exact fun h' => absurd h' h
  | listen block o => exact fun h' => absurd h' h

/-- **When an answer that is not negative means a live link.** -/
theorem live_iff (link : Int) (s : Lnk) (c : Establish) : c.Live link s ↔ c.Firm link s := by
  by_cases h : c.Admits link
  · cases c with
    | connect ipstr port o => exact ⟨fun _ => trivial, fun _ => live_connect h⟩
    | connect2 ipstr port o => exact live_connect2 h
    | listen block o => exact live_listen h
  · exact ⟨fun _ => firm_of_refused h, fun _ => live_of_negative (call_refused h).1⟩

/-- a call that succeeds but for one outcome of `io_attach` -/
def Outcome.calm (a : AttachOut) : Outcome :=
  ⟨some .tcp, some TCP_CLOSE, 0, 0, by decide, a, true, 0, by decide, 0⟩

/-- `epoll_ctl(2)` fails with `ENOSPC` in `tcp_listen`: the link is closed and the answer is zero -/
theorem deafListener : let c := Establish.listen 0 (Outcome.calm ⟨0, 1, true, 3, 28⟩)
    c.answer 5 Lnk.created = 0 ∧ c.closes 5 Lnk.created = true ∧ ¬ c.Live 5 Lnk.created := by
  refine ⟨rfl, rfl, fun h => ?_⟩
  exact Bool.noConfusion (h (by decide)).1

/-! ## one call after the other -/

/-- a call that has returned, with the link in front of it and behind it -/
structure Tried where
  before : Lnk
  after : Lnk
  answer : Int
  closes : Bool

structure History where
  lnk : Lnk
  log : List Tried

/-- a link on which nothing has been tried -/
def History.begin (s : Lnk) : History := ⟨s, []⟩

def Establish.tried (link : Int) (s : Lnk) (c : Establish) : Tried :=
  ⟨s, c.behind link s, c.answer link s, c.closes link s⟩

def History.step (link : Int) (s : History) (c : Establish) : Option History :=
  some ⟨c.behind link s.lnk, s.log ++ [c.tried link s.lnk]⟩

/-- a call that fails and does not close the link has changed neither of its handlers -/
def Tried.Undone (t : Tried) : Prop :=
  t.answer < 0 → t.closes = false →
    t.after.ncbRead = t.before.ncbRead ∧ t.after.ncbWrite = t.before.ncbWrite

def History.Retryable (s : History) : Prop := ∀ t, t ∈ s.log → t.Undone

/-- `connect(2)` of `tcp_connect2` succeeds or is in progress where it is reached -/
def Establish.Reaches (link : Int) (s : Lnk) : Establish → Prop
  | .connect .. => True
  | c@(.connect2 _ _ o) =>
    c.Admits link → c.Closed → s.ncbWrite = none → o.sys = 0 ∨ o.sys = EINPROGRESS
  | .listen .. => True

section
variable {link : Int} {s : Lnk} {c : Establish}

theorem undone_of_refused (h : Refused link s (c.call link)) : (c.tried link s).Undone := by
  intro _ _
  have h1 : c.behind link s = s := h.2.1
  exact ⟨congrArg Lnk.ncbRead h1, congrArg Lnk.ncbWrite h1⟩

theorem undone_of_closes (h : c.closes link s = true) : (c.tried link s).Undone := by
  intro _ h1
  exact absurd h (Bool.eq_false_iff.mp h1)

theorem undone_of_answer (h : 0 ≤ c.answer link s) : (c.tried link s).Undone := by
  intro h1 _
  exact absurd h (Int.not_le.mpr h1)

theorem refused_call (h : c.Admits link) (hb : Refused link s (c.body link)) :
    Refused link s (c.call link) := by
  refine ⟨?_, ?_, fun hc => ?_⟩
  · exact (answer_admitted h).trans_lt hb.1
  · exact (behind_admitted h).trans hb.2.1
  · exact hb.2.2 ((closes_iff h).mp (decide_eq_true hc))

theorem undone_of_served (h : c.Admits link) (hb : Served link s (c.body link)) :
    (c.tried link s).Undone := undone_of_answer (by rw [answer_admitted h]; exact hb.1)

theorem undone_of_givenUp (h : c.Admits link) (hb : GivenUp link s (c.body link)) :
    (c.tried link s).Undone := undone_of_closes ((closes_iff h).mpr hb.2)

/-- what one call leaves behind -/
theorem undone_iff : (c.tried link s).Undone ↔ c.Reaches link s := by
  by_cases h : c.Admits link
  swap
  · refine ⟨fun _ => ?_, fun _ => undone_of_refused (call_refused h)⟩
    cases c with
    | connect ipstr port o => trivial
    | connect2 ipstr port o => exact fun h' => absurd h' h
    | listen block o => trivial
  cases c with
  | connect ipstr port o =>
    refine ⟨fun _ => trivial, fun _ => ?_⟩
    rcases @tcpConnectBody_cases link s o with hb | hb | hb
    · exact undone_of_refused (refused_call h hb)
    · exact undone_of_givenUp h hb
    · exact undone_of_served h hb
  | connect2 ipstr port o =>
    rcases @tcpConnect2Body_cases link s o with
      ⟨hn, hb⟩ | ⟨⟨hf, hk, hw⟩, ⟨h0, hv, _, _⟩ | ⟨h1, hb⟩ | ⟨⟨h0, h1⟩, hv, hc, hs⟩⟩
    · exact ⟨fun _ _ hC hw => absurd ⟨hC.1, hC.2, hw⟩ hn,
        fun _ => undone_of_refused (refused_call h hb)⟩
    · refine ⟨fun _ _ _ _ => Or.inl h0, fun _ => undone_of_answer ?_⟩
      rw [answer_admitted h]
      exact le_of_eq hv.symm
    · refine ⟨fun _ _ _ _ => Or.inr h1, fun _ => ?_⟩
      rcases hb with hb | hb
      · exact undone_of_givenUp h hb
      · exact undone_of_served h hb
    · -- `ncb_write` is still `tcp_tx_syn`
      constructor
      · intro hU
        obtain ⟨_, h2⟩ := hU ((answer_admitted h).trans_lt hv) (closes_false h hc)
        have h3 : (Establish.connect2 ipstr port o).behind link s
            = { s with ncbWrite := some .tcpTxSyn } := (behind_admitted h).trans hs
        change ((Establish.connect2 ipstr port o).behind link s).ncbWrite = s.ncbWrite at h2
        rw [h3, hw] at h2
        cases h2
      · intro hR
        exact (hR h ⟨hf, hk⟩ hw).elim (fun h => absurd h h0) fun h => absurd h h1
  | listen block o =>
    refine ⟨fun _ => trivial, fun _ => ?_⟩
    rcases @tcpListenBody_cases link s o with
      ⟨_, hb⟩ | ⟨_, ⟨_, hb⟩ | ⟨_, hv, _⟩⟩
    · exact undone_of_refused (refused_call h hb)
    · exact undone_of_served h hb
    · exact undone_of_answer (by rw [answer_admitted h]; exact le_of_eq hv.symm)

end

section
variable {link : Int} {s t : History} {cs : List Establish}

theorem step_lnk {c : Establish} {s' : History} (h : s.step link c = some s') :
    s'.log = s.log ++ [c.tried link s.lnk] := by
  cases h
  rfl

theorem log_run (h : run (History.step link) s cs = some t) : s.log <+: t.log := by
  refine run_invariant (History.step link) (I := fun u => s.log <+: u.log) ?_ h (List.prefix_refl _)
  intro u c u' hu hstep
  rw [step_lnk hstep]
  exact hu.trans (List.prefix_append _ _)

end

/-- **When a call that fails leaves the handlers as they were.** -/
theorem retry_iff (link : Int) (s : Lnk) (cs : List Establish) (t : History)
    (h : run (History.step link) (History.begin s) cs = some t) :
    t.Retryable ↔
      Meets (History.step link) (fun u c => c.Reaches link u.lnk) (History.begin s) cs := by
  have hiff := meets_iff (History.step link) (I := History.Retryable) (P := History.Retryable)
    (C := fun u c => c.Reaches link u.lnk) (D := fun _ _ => True) ?_ (fun _ h => h) ?_ h
    (meets_all (History.step link) (D := fun _ => True) fun _ _ => trivial)
    (fun _ h => absurd h List.not_mem_nil)
  · rw [hiff]
    constructor
    · intro ht bs hb u hu
      -- the log of a shorter run is the beginning of the log
      obtain ⟨rest, rfl⟩ := hb
      rw [run_append, hu] at h
      exact fun x hx => ht x ((log_run h).subset hx)
    · intro hall
      exact hall cs (List.prefix_refl _) t h
  · intro u c u' hu _ hC hstep x hx
    rw [step_lnk hstep, List.mem_append, List.mem_singleton] at hx
    rcases hx with hx | rfl
    · exact hu x hx
    · exact undone_iff.mpr hC
  · intro u c u' _ hC hstep hR
    refine hC (undone_iff.mp (hR _ ?_))
    rw [step_lnk hstep]
    exact List.mem_append_right _ (List.mem_singleton.mpr rfl)

/-- `connect(2)` is refused, and the next call is refused as a double one -/
def Outcome.refused : Outcome :=
  ⟨some .tcp, some TCP_CLOSE, 0, 111, by decide, ⟨0, 1, true, 3, 0⟩, true, 0, by decide, 0⟩

theorem retry_iff_once : ∃ t, run (History.step 5) (History.begin Lnk.created)
      [.connect true 80 Outcome.refused, .listen 0 (Outcome.calm ⟨0, 1, true, 3, 0⟩)] = some t ∧
    (t.Retryable ↔ Meets (History.step 5) (fun u c => c.Reaches 5 u.lnk) (History.begin Lnk.created)
      [.connect true 80 Outcome.refused, .listen 0 (Outcome.calm ⟨0, 1, true, 3, 0⟩)]) :=
  ⟨_, rfl, retry_iff 5 Lnk.created _ _ rfl⟩

theorem secondConnect_refused : ∃ t, run (History.step 5) (History.begin Lnk.created)
      [.connect2 true 80 Outcome.refused,
        .connect2 true 80 (Outcome.calm ⟨0, 1, true, 3, 0⟩)] = some t ∧
    t.log.map (fun x => (x.answer, x.closes, x.after.ncbWrite)) =
      [(-1, false, some .tcpTxSyn), (-1, false, some .tcpTxSyn)] ∧ ¬ t.Retryable := by
  refine ⟨_, rfl, rfl, fun h => ?_⟩
  have h1 := (h _ (List.mem_cons_self ..) (by decide) rfl).2
  change some NcbWrite.tcpTxSyn = none at h1
  cases h1

end Swnet

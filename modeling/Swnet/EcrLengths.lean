import Swnet.EcrCalls

/-!
# How long the messages are

Only one message of each of the four calls has a string of the application in it, the one that names the
endpoint that `bind(2)` or `connect(2)` has refused.  Every other message has room in `logstr`.

* `tells_brief`     a message that has room whatever its numbers are;
* `Caller`          the four calls, and `Caller.call` what they say;
* `Caller.Short`    the string is short enough for the outcome of the call;
* `short_of_length` up to 1147 bytes it is, whatever the outcome;
* `diagnosed_iff`   that is when every message of the call is contained.
-/

namespace Swnet
open CMem Traced

namespace Ecr
open EcrCall

-- the formats are long lists of characters
set_option maxRecDepth 1000

/-! ## messages without a string of the application -/

section
variable {σ : Type} {s : σ} {link : Int64} {o : Connected} {cs : List Char} {args : List Arg}

/-- a message that has room whatever its arguments are -/
theorem tells_brief {t : (format (.ofList cs) args).isSome}
    (h : cs.length + (args.map Arg.room).sum < LOGSTR_SIZE) :
    Tells Contained (callEcr (.ofList cs) args t : Told σ Unit) s := by
  refine (tells_tell _).mpr (contained_of_room ?_)
  rw [String.toList_ofList]
  exact h

theorem tcpState2name_length (stat : UInt8) : (tcpState2name stat).bytes.length ≤ 33 := by
  have hall : ∀ s ∈ tcpKernelStateName, s.bytes.length ≤ 33 := by decide
  unfold tcpState2name
  cases h : tcpKernelStateName[stat.toNat]? with
  | none =>
    rw [Option.getD_none]
    decide
  | some name =>
    rw [Option.getD_some]
    exact hall name (List.mem_of_getElem? h)

/-- the name of a state has room too -/
theorem tells_state {stat : UInt8} {t : (format (.ofList cs) [.llong link, .str (tcpState2name stat)]).isSome}
    (h : cs.length < 1000) : Tells Contained (callEcr (.ofList cs) _ t : Told σ Unit) s := by
  refine tells_brief ?_
  have hname := tcpState2name_length stat
  show cs.length + (20 + ((tcpState2name stat).bytes.length + 0)) < 1280
  omega

theorem tells_ioFcntl (fd : Int32) (o : Option (FcntlCmd × Errno)) :
    Tells Contained (ioFcntl fd o : Told σ Int) s := by
  unfold ioFcntl
  split
  · exact tells_pure _
  cases o with
  | none => exact tells_pure _
  | some p =>
    obtain ⟨cmd, errno⟩ := p
    cases cmd <;> exact tells_last (tells_brief (of_decide_eq_true rfl))

/-- the answer of `io_fcntl` -/
theorem ioFcntl_cases (fd : Int32) (o : Option (FcntlCmd × Errno)) :
    0 ≤ fd ∧ o = none ∧ (ioFcntl fd o : Told σ Int) = pure 0 ∨
      ¬ (0 ≤ fd ∧ o = none) ∧ ∀ s : σ, (ioFcntl fd o).val s < 0 := by
  unfold ioFcntl
  by_cases h : fd < 0
  · rw [if_pos h]
    exact .inr ⟨fun hc => Int32.not_le.mpr h hc.1, fun _ => show -EINVAL < 0 by decide⟩
  rw [if_neg h]
  cases o with
  | none => exact .inl ⟨Int32.not_lt.mp h, rfl, rfl⟩
  | some p =>
    obtain ⟨cmd, errno⟩ := p
    have hv : (-errno.val : Int) < 0 := Int.neg_neg_of_pos (Int.natCast_pos.mpr errno.pos)
    have hbad : ¬ (0 ≤ fd ∧ some (cmd, errno) = none) := fun hc => nomatch hc.2
    cases cmd <;> exact .inr ⟨hbad, fun _ => hv⟩

theorem tells_ioAttach (hld : Int64) (sockfd epfd mask : Int32) (o : Attached) :
    Tells Contained (ioAttach hld sockfd epfd mask o : Told σ (Int × Int32)) s := by
  refine tells_then (tells_ioFcntl _ _) fun retval s => ?_
  split
  · exact tells_pure _
  split
  · exact tells_pure _
  split
  · exact tells_last (tells_brief (of_decide_eq_true rfl))
  split
  · exact tells_last (tells_brief (of_decide_eq_true rfl))
  · exact tells_last (tells_brief (of_decide_eq_true rfl))

theorem tells_release (hld : Int64) (sockfd epfd : Int32) (last : Option (Option Errno)) :
    Tells Contained (release hld sockfd epfd last : Told σ Unit) s := by
  unfold release ncbDeconstruct ioClose ioDetach
  cases last with
  | none => exact tells_pure _
  | some ctl =>
    refine tells_then ?_ fun _ _ => tells_brief (of_decide_eq_true rfl)
    split
    · cases ctl with
      | none => exact tells_pure _
      | some errno => exact tells_brief (of_decide_eq_true rfl)
    · exact tells_pure _

/-- the answer of `__tcprefr` for a handle that is not negative -/
theorem tcprefr_cases (h : ¬ link < 0) :
    o.found = some .tcp ∧ (tcprefr link o : Told σ Int) = pure 0 ∨
      o.found ≠ some .tcp ∧ ∀ s : σ, (tcprefr link o).val s < 0 := by
  unfold tcprefr
  rw [if_neg h]
  cases o.found with
  | none => exact .inr ⟨nofun, fun _ => show -ENOENT < 0 by decide⟩
  | some q =>
    dsimp only
    by_cases hq : q = .tcp
    · rw [if_pos hq]
      exact .inl ⟨congrArg some hq, rfl⟩
    · rw [if_neg hq]
      exact .inr ⟨fun h => hq (Option.some.inj h), fun _ => show -EPROTOTYPE < 0 by decide⟩

theorem tells_tcprefr : Tells Contained (tcprefr link o : Told σ Int) s := by
  unfold tcprefr
  split
  · exact tells_pure _
  cases o.found with
  | none => exact tells_pure _
  | some q =>
    dsimp only
    split
    · exact tells_pure _
    · exact tells_last (tells_release _ _ _ _)

end

section
variable {s : Lnk} {link : Int64} {o : Connected}

theorem tells_attachLink (mask : Int32) : Tells Contained (attachLink link mask o) s :=
  tells_then (tells_ioAttach _ _ _ _ _) fun _ _ => tells_last (tells_store _)

theorem tells_ioModify (sockfd epfd mask : Int32) (ctl : Option Errno) :
    Tells Contained (ioModify link sockfd epfd mask ctl) s := by
  refine tells_then tells_look fun s _ => ?_
  split
  · exact tells_pure _
  · exact tells_last (tells_brief (of_decide_eq_true rfl))

theorem tells_tcpTxSyn : Tells Contained (tcpTxSyn link o) s := by
  unfold tcpTxSyn
  cases o.soError with
  | none =>
    refine tells_then (tells_ioModify _ _ _ _) fun retval s => ?_
    split
    · exact tells_pure _
    refine tells_then (tells_store _) fun _ _ => tells_then (tells_store _) fun _ _ => ?_
    exact tells_last (tells_brief (of_decide_eq_true rfl))
  | some e =>
    dsimp only
    split
    · exact tells_pure _
    split
    · exact tells_pure _
    · exact tells_last (tells_brief (of_decide_eq_true rfl))

end

/-! ## messages that name an endpoint -/

/-- the text of such a message, which is the same in all of them but for its beginning and its end -/
def refusal (lead : Bytes) (ipstr : CStr) (port : UInt16) (errno : Errno) (rest : Bytes) : Bytes :=
  lead ++ (ipstr.bytes ++ (ascii ":" ++ (digits port.toNat ++ (ascii ", error:" ++ (digits errno.val ++ rest)))))

/-- the bytes that the endpoint and the error take in it -/
def named (ipstr : CStr) (port : UInt16) (errno : Errno) : Nat :=
  ipstr.bytes.length + (digits port.toNat).length + (digits errno.val).length

section
variable {σ : Type} {s : σ} {fmt : String} {args : List Arg} {text : Bytes}

/-- a message is contained if and only if its length fits -/
theorem tells_text {t : (format fmt args).isSome} (h : format fmt args = some text) :
    Tells Contained (callEcr fmt args t : Told σ Unit) s ↔ Fits text.length := by
  have hm : EcrCall.message ⟨fmt, args, t⟩ = text := Option.get_of_eq_some t h
  rw [callEcr, tells_tell, contained_iff, hm]

theorem decimal_unsigned {n : Nat} (h : n < 2 ^ 32) :
    decimal (Int32.ofNat n).toUInt32.toNat = digits n := by
  rw [Int32.toUInt32_ofNat', UInt32.toNat_ofNat_of_lt' h, decimal_nat]

theorem decimal_errno (errno : Errno) :
    decimal errno.word.toInt = digits errno.val ∧ decimal errno.word.toUInt32.toNat = digits errno.val := by
  have hi : errno.word.toInt = errno.val := Int32.toInt_ofNat_of_lt errno.int
  rw [hi, decimal_nat]
  exact ⟨rfl, decimal_unsigned (Nat.lt_trans errno.int (by decide))⟩

theorem decimal_port (port : UInt16) :
    decimal (Int32.ofNat port.toNat).toUInt32.toNat = digits port.toNat :=
  decimal_unsigned (Nat.lt_trans port.toNat_lt (by decide))

end

section
variable {σ : Type} {s : σ} {ipstr : CStr} {port : UInt16} {errno : Errno} {link : Int64}
  {fmt : String} {args : List Arg}

theorem tells_refusal (lead rest : Bytes) {t : (format fmt args).isSome} {n : Nat}
    (h : format fmt args = some (refusal lead ipstr port errno rest))
    (hn : lead.length + 9 + rest.length = n) :
    Tells Contained (callEcr fmt args t : Told σ Unit) s ↔ Fits (n + named ipstr port errno) := by
  have hlen : (refusal lead ipstr port errno rest).length = n + named ipstr port errno := by
    unfold refusal named
    simp only [List.length_append]
    rw [show (ascii ":").length = 1 from ascii_length _, show (ascii ", error:").length = 8 from ascii_length _]
    omega
  rw [tells_text h, hlen]

theorem tells_tcpCreate_refused
    {t : (format "[nshost.tcp.create] fatal error occurred syscall bind(2), local endpoint %s:%u, error:%d"
      [.str ipstr, portArg port, .int errno.word]).isSome} :
    Tells Contained (callEcr _ _ t : Told σ Unit) s ↔ Fits (82 + named ipstr port errno) := by
  refine tells_refusal (ascii
    "[nshost.tcp.create] fatal error occurred syscall bind(2), local endpoint ") [] ?_ ?_
  · rw [refusal, format_ofList, ascii_ofList, ascii_ofList, ascii_ofList, ← decimal_port,
      ← (decimal_errno errno).1]
    rfl
  · rw [ascii_length]
    rfl

theorem tells_udpCreate_refused
    {t : (format "[nshost.udp.create] fatal error occurred syscall bind(2),local endpoint %s:%u, error:%d,"
      [.str ipstr, portArg port, .int errno.word]).isSome} :
    Tells Contained (callEcr _ _ t : Told σ Unit) s ↔ Fits (82 + named ipstr port errno) := by
  refine tells_refusal (ascii
    "[nshost.udp.create] fatal error occurred syscall bind(2),local endpoint ")
    (ascii ",") ?_ ?_
  · rw [refusal, format_ofList, ascii_ofList, ascii_ofList, ascii_ofList, ascii_ofList, ← decimal_port,
      ← (decimal_errno errno).1]
    rfl
  · rw [ascii_length, ascii_length]
    rfl

theorem tells_tcpConnect_refused
    {t : (format "[nshost.tcp.connect] fatal error occurred syscall connect(2), %s:%u, error:%u, link:%lld"
      [.str ipstr, portArg port, .int errno.word, .llong link]).isSome} :
    Tells Contained (callEcr _ _ t : Told σ Unit) s
      ↔ Fits (78 + (decimal link.toInt).length + named ipstr port errno) := by
  refine tells_refusal (ascii "[nshost.tcp.connect] fatal error occurred syscall connect(2), ")
    (ascii ", link:" ++ (decimal link.toInt ++ [])) ?_ ?_
  · rw [refusal, format_ofList, ascii_ofList, ascii_ofList, ascii_ofList, ascii_ofList, ← decimal_port,
      ← (decimal_errno errno).2]
    rfl
  · rw [List.append_nil, List.length_append, ascii_length, ascii_length, ← Nat.add_assoc]
    rfl

theorem tells_tcpConnect2_refused
    {t : (format "[nshost.tcp.connect2] fatal error occurred syscall connect(2) to target endpoint %s:%u, error:%d, link:%lld"
      [.str ipstr, portArg port, .int errno.word, .llong link]).isSome} :
    Tells Contained (callEcr _ _ t : Told σ Unit) s
      ↔ Fits (97 + (decimal link.toInt).length + named ipstr port errno) := by
  refine tells_refusal (ascii
    "[nshost.tcp.connect2] fatal error occurred syscall connect(2) to target endpoint ")
    (ascii ", link:" ++ (decimal link.toInt ++ [])) ?_ ?_
  · rw [refusal, format_ofList, ascii_ofList, ascii_ofList, ascii_ofList, ascii_ofList, ← decimal_port,
      ← (decimal_errno errno).1]
    rfl
  · rw [List.append_nil, List.length_append, ascii_length, ascii_length, ← Nat.add_assoc]
    rfl

end

/-! ## the four calls -/

inductive Caller where
  | tcpCreate (ipstr : Option CStr) (port : UInt16) (o : TcpCreated)
  | udpCreate (ipstr : Option CStr) (port : UInt16) (boardcast : Bool) (o : UdpCreated)
  | tcpConnect (link : Int64) (ipstr : Option CStr) (port : UInt16) (o : Connected)
  | tcpConnect2 (link : Int64) (ipstr : Option CStr) (port : UInt16) (o : Connected)

def Caller.call : Caller → Told Lnk Int
  | .tcpCreate ipstr port o => Ecr.tcpCreate ipstr port o
  | .udpCreate ipstr port boardcast o => Ecr.udpCreate ipstr port boardcast o
  | .tcpConnect link ipstr port o => Ecr.tcpConnect link ipstr port o
  | .tcpConnect2 link ipstr port o => Ecr.tcpConnect2 link ipstr port o

/-- the two calls come to their do-while -/
def Entered (link : Int64) (port : UInt16) (o : Connected) : Prop :=
  0 ≤ link ∧ port ≠ 0 ∧ o.found = some .tcp

/-- Wherever the call says that `bind(2)` or `connect(2)` has refused the endpoint, the endpoint and the
numbers are short enough.  82, 78 and 97 are the bytes of the text around them. -/
def Caller.Short (s : Lnk) : Caller → Prop
  | .tcpCreate ipstr port o => ∀ fd errno, o.socket = .ok fd → o.bind = some errno →
      Fits (82 + named (ipstr.getD anyHost) port errno)
  | .udpCreate ipstr port _ o => ∀ fd errno, o.socket = .ok fd → o.bind = some errno →
      Fits (82 + named (ipstr.getD anyHost) port errno)
  | .tcpConnect link ipstr port o => ∀ host errno, ipstr = some host → Entered link port o →
      o.illegal = none → o.connect = some errno →
      Fits (78 + (decimal link.toInt).length + named host port errno)
  | .tcpConnect2 link ipstr port o => ∀ host errno, ipstr = some host → Entered link port o →
      0 ≤ o.sockfd → o.fcntl = none → o.illegal = none → s.ncbWrite = none → o.connect = some errno →
      errno.val ≠ EINPROGRESS → (errno.val : Int) ≠ EAGAIN →
      Fits (97 + (decimal link.toInt).length + named host port errno)

section
variable {s : Lnk} {link : Int64} {ipstr : Option CStr} {host : CStr} {port : UInt16} {o : Connected}

theorem tells_tcpCreate {o : TcpCreated} :
    Tells Contained (tcpCreate ipstr port o) s ↔ (Caller.tcpCreate ipstr port o).Short s := by
  unfold tcpCreate Caller.Short
  dsimp only
  cases o.socket with
  | error errno =>
    refine iff_of_true ?_ fun _ _ h => nomatch h
    exact tells_last (tells_brief (of_decide_eq_true rfl))
  | ok fd =>
    cases o.bind with
    | some errno =>
      refine tells_bind_pure.trans ?_
      refine tells_tcpCreate_refused.trans ⟨fun h _ _ _ he => ?_, fun h => h fd errno rfl rfl⟩
      cases he
      exact h
    | none =>
      refine iff_of_true ?_ fun _ _ _ h => nomatch h
      dsimp only
      split
      · exact tells_last (tells_brief (of_decide_eq_true rfl))
      split
      · exact tells_last (tells_release _ _ _ _)
      · exact tells_pure _

theorem tells_udpCreate {boardcast : Bool} {o : UdpCreated} :
    Tells Contained (udpCreate ipstr port boardcast o) s
      ↔ (Caller.udpCreate ipstr port boardcast o).Short s := by
  unfold udpCreate Caller.Short
  dsimp only
  cases o.socket with
  | error errno =>
    refine iff_of_true ?_ fun _ _ h => nomatch h
    exact tells_last (tells_brief (of_decide_eq_true rfl))
  | ok fd =>
    cases o.bind with
    | some errno =>
      refine tells_bind_pure.trans ?_
      refine tells_udpCreate_refused.trans ⟨fun h _ _ _ he => ?_, fun h => h fd errno rfl rfl⟩
      cases he
      exact h
    | none =>
      refine iff_of_true ?_ fun _ _ _ h => nomatch h
      dsimp only
      split
      · exact tells_last (tells_brief (of_decide_eq_true rfl))
      split
      · exact tells_last (tells_release _ _ _ _)
      refine tells_then (tells_ioAttach _ _ _ _ _) fun r _ => ?_
      obtain ⟨retval, epfd⟩ := r
      dsimp only
      split
      · exact tells_last (tells_release _ _ _ _)
      · exact tells_pure _

/-- the do-while of `tcp_connect` -/
theorem tells_tcpConnectBody :
    Tells Contained (tcpConnectBody link host port o) s ↔ (o.illegal = none → ∀ errno,
      o.connect = some errno → Fits (78 + (decimal link.toInt).length + named host port errno)) := by
  unfold tcpConnectBody
  cases o.illegal with
  | some stat =>
    refine iff_of_true ?_ fun h => nomatch h
    exact tells_last (tells_state (of_decide_eq_true rfl))
  | none =>
    cases o.connect with
    | some errno =>
      refine tells_bind_pure.trans ?_
      refine tells_tcpConnect_refused.trans ⟨fun h _ _ he => ?_, fun h => h rfl errno rfl⟩
      cases he
      exact h
    | none =>
      refine iff_of_true ?_ fun _ _ h => nomatch h
      refine tells_then (tells_attachLink _) fun r s => ?_
      split
      · exact tells_pure _
      · exact tells_then (tells_store _) fun _ _ => tells_last (tells_store _)

/-- the do-while of `tcp_connect2` -/
theorem tells_tcpConnect2Body :
    Tells Contained (tcpConnect2Body link host port o) s ↔ (0 ≤ o.sockfd → o.fcntl = none →
      o.illegal = none → s.ncbWrite = none → ∀ errno, o.connect = some errno →
      errno.val ≠ EINPROGRESS → (errno.val : Int) ≠ EAGAIN →
      Fits (97 + (decimal link.toInt).length + named host port errno)) := by
  unfold tcpConnect2Body
  obtain ⟨hs, hf, h⟩ | ⟨hbad, hneg⟩ := ioFcntl_cases (σ := Lnk) o.sockfd o.fcntl
  · rw [h]
    refine tells_pure_bind.trans ?_
    rw [if_neg (Int.lt_irrefl 0)]
    cases o.illegal with
    | some stat =>
      refine iff_of_true ?_ fun _ _ h => nomatch h
      exact tells_last (tells_state (of_decide_eq_true rfl))
    | none =>
      refine tells_look_bind.trans ?_
      by_cases hw : s.ncbWrite ≠ none
      · rw [if_pos hw]
        refine iff_of_true ?_ fun _ _ _ h => absurd h hw
        exact tells_last (tells_brief (of_decide_eq_true rfl))
      rw [if_neg hw]
      refine tells_store_bind.trans ?_
      cases o.connect with
      | none =>
        refine iff_of_true ?_ fun _ _ _ _ _ h => nomatch h
        refine tells_then (tells_brief (of_decide_eq_true rfl)) fun _ _ => ?_
        exact tells_last tells_tcpTxSyn
      | some errno =>
        dsimp only
        by_cases h1 : errno.val = EINPROGRESS
        · rw [if_pos h1]
          refine iff_of_true (tells_attachLink _) fun _ _ _ _ _ h hn => ?_
          cases h
          exact absurd h1 hn
        rw [if_neg h1]
        by_cases h2 : (errno.val : Int) = EAGAIN
        · rw [if_pos h2]
          refine iff_of_true ?_ fun _ _ _ _ _ h _ hn => ?_
          · exact tells_last (tells_brief (of_decide_eq_true rfl))
          · cases h
            exact absurd h2 hn
        rw [if_neg h2]
        refine tells_bind_pure.trans (tells_tcpConnect2_refused.trans ⟨?_, ?_⟩)
        · intro h _ _ _ _ _ he _ _
          cases he
          exact h
        · intro h
          exact h hs hf rfl (not_not.mp hw) errno rfl h1 h2
  · refine iff_of_true ?_ fun hs hf => absurd ⟨hs, hf⟩ hbad
    refine tells_bind.mpr ⟨tells_ioFcntl _ _, ?_⟩
    rw [if_pos (hneg s)]
    exact tells_pure _

/-- The two calls say what their do-while says. -/
theorem tells_connectCall {body : CStr → Told Lnk (Int × Int32)} :
    Tells Contained (connectCall link ipstr port o body) s ↔
      ∀ host, ipstr = some host → Entered link port o → Tells Contained (body host) s := by
  unfold connectCall
  cases ipstr with
  | none => exact iff_of_true (tells_pure _) fun _ h => nomatch h
  | some host =>
    dsimp only
    by_cases hargs : link < 0 ∨ port = 0
    · rw [if_pos hargs]
      refine iff_of_true (tells_pure _) fun _ _ he => ?_
      exact absurd hargs (not_or.mpr ⟨Int64.not_lt.mpr he.1, he.2.1⟩)
    rw [if_neg hargs]
    obtain ⟨hl, hp⟩ := not_or.mp hargs
    obtain ⟨hq, h0⟩ | ⟨hq, hneg⟩ := tcprefr_cases (σ := Lnk) hl
    · rw [h0]
      refine tells_pure_bind.trans ?_
      rw [if_neg (Int.lt_irrefl 0)]
      constructor
      · intro h _ heq _
        cases heq
        exact (tells_bind.mp h).1
      · intro h
        refine tells_then (h host rfl ⟨Int64.not_lt.mp hl, hp, hq⟩) fun _ _ => ?_
        exact tells_last (tells_release _ _ _ _)
    · refine iff_of_true ?_ fun _ _ he => absurd he.2.2 hq
      refine tells_bind.mpr ⟨tells_tcprefr, ?_⟩
      rw [if_pos (hneg s)]
      exact tells_pure _

end

/-- the string that the message can name -/
def Caller.host : Caller → CStr
  | .tcpCreate ipstr _ _ => ipstr.getD anyHost
  | .udpCreate ipstr _ _ _ => ipstr.getD anyHost
  | .tcpConnect _ ipstr _ _ => ipstr.getD anyHost
  | .tcpConnect2 _ ipstr _ _ => ipstr.getD anyHost

theorem named_le (ipstr : CStr) (port : UInt16) (errno : Errno) :
    named ipstr port errno ≤ ipstr.bytes.length + 15 := by
  have hp : (digits port.toNat).length ≤ 5 :=
    digits_length_le (by decide) (Nat.lt_trans port.toNat_lt (by decide))
  have he : (digits errno.val).length ≤ 10 :=
    digits_length_le (by decide) (Nat.lt_trans errno.int (by decide))
  unfold named
  omega

/-- No outcome makes a message too long for a string of at most 1147 bytes. -/
theorem short_of_length {s : Lnk} {c : Caller} (h : c.host.bytes.length ≤ 1147) : c.Short s := by
  have hnamed : ∀ (port : UInt16) (errno : Errno), named c.host port errno ≤ 1162 := fun port errno =>
    Nat.le_trans (named_le ..) (Nat.add_le_add_right h 15)
  have hlink : ∀ link : Int64, (decimal link.toInt).length ≤ 20 := fun link => by
    refine decimal_length_le (by decide) ?_
    have h0 := link.le_toInt
    have h1 := link.toInt_lt
    omega
  have hfits : ∀ n m, n ≤ 117 → m ≤ 1162 → Fits (n + m) := fun n m hn hm =>
    .inl (Nat.lt_of_le_of_lt (Nat.add_le_add hn hm) (by decide))
  cases c with
  | tcpCreate ipstr port o => exact fun _ errno _ _ => hfits _ _ (by decide) (hnamed port errno)
  | udpCreate ipstr port boardcast o => exact fun _ errno _ _ => hfits _ _ (by decide) (hnamed port errno)
  | tcpConnect link ipstr port o =>
    rintro host errno rfl - - -
    exact hfits _ _ (Nat.le_trans (Nat.add_le_add_left (hlink link) _) (by decide)) (hnamed port errno)
  | tcpConnect2 link ipstr port o =>
    rintro host errno rfl - - - - - - - -
    exact hfits _ _ (Nat.le_trans (Nat.add_le_add_left (hlink link) _) (by decide)) (hnamed port errno)

/-- Every message of a call is contained if and only if the endpoint that it names, if it has to name one,
is short enough. -/
theorem diagnosed_iff (s : Lnk) (c : Caller) : Tells Contained c.call s ↔ c.Short s := by
  cases c with
  | tcpCreate ipstr port o => exact tells_tcpCreate
  | udpCreate ipstr port boardcast o => exact tells_udpCreate
  | tcpConnect link ipstr port o =>
    refine tells_connectCall.trans ⟨fun h host errno hi he hk hc => ?_, fun h host hi he => ?_⟩
    · exact tells_tcpConnectBody.mp (h host hi he) hk errno hc
    · exact tells_tcpConnectBody.mpr fun hk errno hc => h host errno hi he hk hc
  | tcpConnect2 link ipstr port o =>
    refine tells_connectCall.trans ⟨fun h host errno hi he hs hf hk hw hc => ?_, fun h host hi he => ?_⟩
    · exact tells_tcpConnect2Body.mp (h host hi he) hs hf hk hw errno hc
    · exact tells_tcpConnect2Body.mpr fun hs hf hk hw errno hc =>
        h host errno hi he hs hf hk hw hc

/-- a string that is not an address, `inet_addr` makes INADDR_NONE of it -/
def longHost : CStr where
  bytes := List.replicate 1300 (charByte 'a')
  plain := fun h => absurd (List.eq_of_mem_replicate h) (by decide)

def ENETUNREACH : Errno := ⟨101, by decide, by decide⟩

/-- a link from `tcp_create`, and what `connect(2)` answers for that address -/
def unreachable : Connected where
  found := some .tcp
  sockfd := 9
  epfd := 0
  ktcp := some 7
  fcntl := none
  connect := some ENETUNREACH
  again := by decide
  attach := ⟨none, 1, true, ⟨5, by decide⟩, none⟩
  callback := true
  soError := none
  soAgain := by decide
  ctl := none
  last := none

/-- With that string `tcp_connect` gives `nis_call_ecr` a message whose terminator is stored outside. -/
theorem tcpConnect_overruns :
    ¬ Tells Contained (Caller.tcpConnect 1 (some longHost) 80 unreachable).call Lnk.created ∧
      ∃ d ∈ (Caller.tcpConnect 1 (some longHost) 80 unreachable).call.trace Lnk.created,
        nisCallEcr true true (List.replicate LOGSTR_SIZE 0) d.fmt d.args = .error .bounds := by
  have hnot : ¬ Tells Contained (Caller.tcpConnect 1 (some longHost) 80 unreachable).call Lnk.created := by
    intro h
    have hbody := tells_connectCall.mp h longHost rfl ⟨by decide, by decide, rfl⟩
    have hfits := tells_tcpConnectBody.mp hbody rfl ENETUNREACH rfl
    have hlen : named longHost 80 ENETUNREACH = 1305 := by
      have hport : (digits 80).length = 2 := by decide
      have herrno : (digits 101).length = 3 := by decide
      rw [named, longHost, List.length_replicate, show (80 : UInt16).toNat = 80 from rfl, hport,
        show ENETUNREACH.val = 101 from rfl, herrno]
    rw [hlen] at hfits
    exact absurd hfits (by decide)
  refine ⟨hnot, ?_⟩
  obtain ⟨d, hd, hc⟩ : ∃ d ∈ _, ¬ Contained d := by
    by_contra hall
    exact hnot fun d hd => not_not.mp fun hc => hall ⟨d, hd, hc⟩
  exact ⟨d, hd, overruns_of_not_contained hc List.length_replicate⟩

end Ecr

end Swnet

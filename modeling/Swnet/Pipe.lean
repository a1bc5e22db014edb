import Swnet.Calls
import Swnet.Lib.Bytes
import Swnet.Lib.Runs

/-!
# Pipe messages

`pipe.c` over a pipe in packet mode.  A packet is `struct pipe_package_head` with the data behind it:
`length` at 0, four bytes that nobody writes, `link` at 8, the data at 16.

* `Pipe.writeMessage`, `Pipe.rxTurn`   `pipe_write_message` and a turn of the loop in `pipe_rx`;
* `Pipe.step`                          the pipe with its writers, its reader and the links;
* `pipe_delivers`                      every accepted message comes out once, whole and in order.
-/

namespace Swnet
open CMem Runs

namespace Pipe

/-- An `EVT_PIPEDATA`, and as well the message that it is to bring: the link, `Size`, and the bytes. -/
structure PipeData where
  link : Int64
  size : Int32
  data : Bytes
deriving DecidableEq, Repr

/-! ## `pipe_write_message` -/

/-- `pipe_write_message` up to its `write(2)`: the answer of a call that comes no further, or the bytes
that are given to `write(2)`.  `hld` is the handle of the link, `pipefd` the answer of `io_pipefd`,
`mem` the memory that `malloc` finds, and `data` points at the data. -/
def writeMessage (hld : Int64) (pipefd : Int) (mem : Option (Nat → Byte)) (data : Nat → Byte)
    (cb : Int32) : C (Except Int Bytes) := do
  if sizeT cb.toInt ≥ PIPE_BUF - PIPE_HEAD_SIZE then return .error (-EINVAL)
  else if pipefd ≤ 0 then return .error (-1)
  else do
    let n ← cint (PIPE_HEAD_SIZE + cb.toInt)
    match mem with
    | none => return .error (-ENOMEM)
    | some mem => do
      let pipemsg := bytesAt mem n.toNat
      let pipemsg ← memcpy pipemsg PIPE_HEAD_SIZE (bytesAt data cb.toInt.toNat) cb.toInt
      let pipemsg ← memcpy pipemsg 0 (int32LE cb) 4
      let pipemsg ← memcpy pipemsg 8 (int64LE hld) 8
      return .ok pipemsg

/-! ## `pipe_rx` -/

/-- What a turn of the loop in `pipe_rx` comes to: the loop goes on, with or without an event, or
`pipe_rx` returns. -/
inductive Turn where
  | again (event : Option PipeData)
  | done (v : Int)
deriving DecidableEq, Repr

/-- A turn of the loop in `pipe_rx`.  `got` is what `read(2)` has put into the buffer, nothing where it
answers no more than 0, and `errno` is looked at then; `stale` was in the buffer before.  `links` is
what `objrefr` finds, with whether the link has a callback. -/
def rxTurn (links : Int64 → Option Bool) (stale : Nat → Byte) (got : Bytes) (errno : Int) :
    C Turn := do
  if got.length = 0 then
    if errno = 0 ∨ errno = EAGAIN then return .done 0
    else if errno = EINTR then return .again none
    else return .done (-1)
  else do
    let pipebuf ← memcpy (bytesAt stale PIPE_BUF) 0 got got.length
    if sizeT got.length < PIPE_HEAD_SIZE then return .again none
    else do
      let length := int32OfLE (← slice pipebuf 0 4)
      -- both sides are `size_t`
      if sizeT got.length ≠ sizeT (length.toInt + PIPE_HEAD_SIZE) then return .again none
      else do
        let link := int64OfLE (← slice pipebuf 8 8)
        match links link with
        | none => return .again none
        | some false => return .again none
        | some true => do
          let data ← slice pipebuf PIPE_HEAD_SIZE length.toInt
          return .again (some ⟨link, length, data⟩)

/-! ## the pipe -/

/-- A packet in the pipe.  `own` is the message of `pipe_write_message`, `none` where another program
has written the packet. -/
structure Packet where
  own : Option PipeData
  bytes : Bytes
deriving DecidableEq, Repr

/-- A packet that was read: its message, whether `objrefr` finds the link of the message, with a
callback, and the event that is posted. -/
structure Taken where
  own : Option PipeData
  link : Option Bool
  event : Option PipeData
deriving DecidableEq, Repr

/-- `accepted` are the messages whose `write(2)` was successful, `taken` the packets that were read, the
oldest first; `inRx` says that `pipe_rx` runs, and `seen` how many messages there were when it last
returned 0. -/
structure World where
  links : Int64 → Option Bool
  pending : List Packet
  inRx : Bool
  accepted : List PipeData
  taken : List Taken
  seen : Nat

def World.events (w : World) : List PipeData := w.taken.filterMap (·.event)

/-- the messages that were read and those that were not -/
def World.read (w : World) : List PipeData := w.taken.filterMap (·.own)
def World.unread (w : World) : List PipeData := w.pending.filterMap (·.own)

def World.start (links : Int64 → Option Bool) : World := ⟨links, [], false, [], [], 0⟩

/-- `bytes` in packets of no more than `PIPE_BUF` bytes, `k` times cut at most -/
def cut : Nat → Bytes → List Bytes
  | 0, bytes => [bytes]
  | k + 1, bytes =>
    if bytes.length ≤ PIPE_BUF then [bytes] else bytes.take PIPE_BUF :: cut k (bytes.drop PIPE_BUF)

/-- the packets of a `write(2)` on a pipe with `O_DIRECT` -/
def packets (bytes : Bytes) : List Bytes := cut bytes.length bytes

theorem packets_small {bytes : Bytes} (h : bytes.length ≤ PIPE_BUF) : packets bytes = [bytes] := by
  unfold packets
  cases bytes with
  | nil => rfl
  | cons b bs => exact if_pos h

inductive Act where
  /-- a call of `pipe_write_message`, and whether `write(2)` is successful -/
  | call (hld : Int64) (pipefd : Int) (mem : Option (Nat → Byte)) (data : Nat → Byte) (cb : Int32)
      (written : Bool)
  /-- a packet of another program -/
  | foreign (bytes : Bytes)
  /-- a link comes, goes, or changes its callback -/
  | links (hld : Int64) (v : Option Bool)
  /-- `pipe_rx` is called -/
  | enter
  /-- a turn of its loop, in which `read(2)` has a packet or fails with `errno` -/
  | turn (stale : Nat → Byte) (fails : Option Int)

/-- What comes of a turn. -/
def World.turned (w : World) (t : Turn) (p : Option Packet) : World :=
  match t with
  | .done v => { w with inRx := false, seen := if v = 0 then w.accepted.length else w.seen }
  | .again e =>
    match p with
    | none => w
    | some p =>
      { w with
        pending := w.pending.tail
        taken := w.taken ++ [⟨p.own, p.own.bind (fun m => w.links m.link), e⟩] }

/-- The pipe.  A turn reads the first packet; `read(2)` finds nothing only where there is none. -/
def step : C World → Act → Option (C World)
  | .error _, _ => none
  | .ok w, .call hld pipefd mem data cb written =>
    some do
      match ← writeMessage hld pipefd mem data cb with
      | .error _ => return w
      | .ok bytes =>
        if written then
          let m : PipeData := ⟨hld, cb, bytesAt data cb.toInt.toNat⟩
          return { w with
            pending := w.pending ++ (packets bytes).map (Packet.mk (some m))
            accepted := w.accepted ++ [m] }
        else return w
  | .ok w, .foreign bytes =>
    if bytes = [] then none else some (.ok { w with pending := w.pending ++ [⟨none, bytes⟩] })
  | .ok w, .links hld v =>
    some (.ok { w with links := fun h => if h = hld then v else w.links h })
  | .ok w, .enter => if w.inRx then none else some (.ok { w with inRx := true })
  | .ok w, .turn stale (some errno) =>
    if w.inRx = false ∨ ((errno = 0 ∨ errno = EAGAIN) ∧ w.pending ≠ []) then none
    else some do
      let t ← rxTurn w.links stale [] errno
      return w.turned t none
  | .ok w, .turn stale none =>
    match w.inRx, w.pending with
    | true, p :: _ => some do
      let t ← rxTurn w.links stale (p.bytes.take PIPE_BUF) 0
      return w.turned t (some p)
    | _, _ => none

/-! ## one packet -/

/-- a message that `pipe_write_message` does not refuse -/
structure PipeData.Fits (m : PipeData) : Prop where
  nonneg : 0 ≤ m.size.toInt
  small : m.size.toInt < (PIPE_BUF - PIPE_HEAD_SIZE : Nat)
  data : m.data.length = m.size.toInt.toNat

/-- the bytes of a message; `pad` is what `malloc` left in the hole of the head -/
def package (m : PipeData) (pad : Bytes) : Bytes :=
  int32LE m.size ++ pad ++ int64LE m.link ++ m.data

/-- the `cb` that `pipe_write_message` does not refuse -/
def InRange (cb : Int32) : Prop :=
  0 ≤ cb.toInt ∧ cb.toInt < (PIPE_BUF - PIPE_HEAD_SIZE : Nat)

section
variable {m : PipeData} {pad : Bytes} {hld : Int64} {pipefd : Int} {mem : Option (Nat → Byte)}
  {data : Nat → Byte} {cb : Int32} {links : Int64 → Option Bool} {stale : Nat → Byte} {errno : Int}

theorem package_length (hp : pad.length = 4) : (package m pad).length = 16 + m.data.length := by
  simp only [package, List.length_append, int32LE_length, int64LE_length, hp]

theorem package_le (hm : m.Fits) (hp : pad.length = 4) : (package m pad).length ≤ PIPE_BUF := by
  have h := hm.small
  rw [package_length hp, hm.data]
  unfold PIPE_BUF PIPE_HEAD_SIZE at *
  omega

theorem writeMessage_refuses (h : ¬ InRange cb) :
    writeMessage hld pipefd mem data cb = .ok (.error (-EINVAL)) := by
  have hbig : sizeT cb.toInt ≥ PIPE_BUF - PIPE_HEAD_SIZE :=
    Nat.not_lt.mp fun hlt => h ((sizeT_lt (v := cb) (by decide)).mp hlt)
  unfold writeMessage
  rw [if_pos hbig]
  rfl

theorem writeMessage_accepts (hld : Int64) (pipefd : Int) (mem : Option (Nat → Byte))
    (data : Nat → Byte) (h : InRange cb) :
    (∃ v, v ≠ -EINVAL ∧ writeMessage hld pipefd mem data cb = .ok (.error v)) ∨
    ∃ pad : Bytes, pad.length = 4 ∧ writeMessage hld pipefd mem data cb
      = .ok (.ok (package ⟨hld, cb, bytesAt data cb.toInt.toNat⟩ pad)) := by
  have hsmall : ¬ sizeT cb.toInt ≥ PIPE_BUF - PIPE_HEAD_SIZE :=
    Nat.not_le.mpr ((sizeT_lt (by decide)).mpr h)
  obtain ⟨k, hk⟩ : ∃ k : Nat, cb.toInt = k := ⟨cb.toInt.toNat, (Int.toNat_of_nonneg h.1).symm⟩
  have hlt : k < 4080 := by
    have := h.2
    unfold PIPE_BUF PIPE_HEAD_SIZE at this
    omega
  unfold writeMessage
  rw [if_neg hsmall]
  by_cases hfd : pipefd ≤ 0
  · rw [if_pos hfd]
    exact .inl ⟨-1, by decide, rfl⟩
  rw [if_neg hfd]
  have hn : cint ((PIPE_HEAD_SIZE : Nat) + cb.toInt) = .ok ((16 + k : Nat) : Int) := by
    rw [hk]
    exact cint_nat (n := 16 + k) (by omega)
  rw [hn, ok_bind]
  cases mem with
  | none => exact .inl ⟨-ENOMEM, by decide, rfl⟩
  | some mem =>
    refine .inr ?_
    rw [hk, Int.toNat_natCast, Int.toNat_natCast]
    -- the block of `malloc`, field by field
    obtain ⟨x, d, hb, hx, hd⟩ := fields (p := 16) (n := k) (bytesAt_length mem (16 + k))
    obtain ⟨y, l, rfl, hy, hl⟩ := fields (p := 8) (n := 8) hx
    obtain ⟨s, pad, rfl, hs, hpad⟩ := fields (p := 4) (n := 4) hy
    have c1 : memcpy (bytesAt mem (16 + k)) (PIPE_HEAD_SIZE : Nat) (bytesAt data k) k
        = .ok (s ++ pad ++ l ++ bytesAt data k ++ []) := by
      rw [hb, ← List.append_nil (s ++ pad ++ l ++ d)]
      exact memcpy_field hx (bytesAt_length _ _) hd
    have c2 : memcpy (s ++ pad ++ l ++ bytesAt data k ++ []) 0 (int32LE cb) 4
        = .ok ([] ++ int32LE cb ++ (pad ++ l ++ bytesAt data k)) := by
      have e : s ++ pad ++ l ++ bytesAt data k ++ [] = [] ++ s ++ (pad ++ l ++ bytesAt data k) := by
        simp only [List.append_assoc, List.append_nil, List.nil_append]
      rw [e]
      exact memcpy_field (p := 0) (n := 4) rfl (int32LE_length cb) hs
    have c3 : memcpy ([] ++ int32LE cb ++ (pad ++ l ++ bytesAt data k)) 8 (int64LE hld) 8
        = .ok (int32LE cb ++ pad ++ int64LE hld ++ bytesAt data k) := by
      have e : [] ++ int32LE cb ++ (pad ++ l ++ bytesAt data k)
          = (int32LE cb ++ pad) ++ l ++ bytesAt data k := by
        simp only [List.append_assoc, List.nil_append]
      rw [e]
      refine memcpy_field (p := 8) (n := 8) ?_ (int64LE_length hld) hl
      rw [List.length_append, int32LE_length, hpad]
    refine ⟨pad, hpad, ?_⟩
    dsimp only
    rw [c1, ok_bind, c2, ok_bind, c3, ok_bind]
    rfl

/-- the buffer behind a `read(2)` -/
theorem read_into (stale : Nat → Byte) {got : Bytes} (h : got.length ≤ PIPE_BUF) :
    ∃ rest, memcpy (bytesAt stale PIPE_BUF) 0 got got.length = .ok (got ++ rest) := by
  obtain ⟨x, y, hb, hx, -⟩ := fields (b := bytesAt stale PIPE_BUF) (p := got.length)
    (n := PIPE_BUF - got.length) (by rw [bytesAt_length]; omega)
  rw [hb, ← List.nil_append x]
  exact ⟨y, memcpy_field (p := 0) rfl rfl hx⟩

/-- the length that a packet of `n` bytes has to name -/
theorem length_eq {n : Nat} {length : Int32} (hn : n ≤ PIPE_BUF) :
    sizeT n = sizeT (length.toInt + (PIPE_HEAD_SIZE : Nat)) ↔
      length.toInt + (PIPE_HEAD_SIZE : Nat) = n := by
  have h0 := length.le_toInt
  have h1 := length.toInt_lt
  unfold sizeT PIPE_HEAD_SIZE PIPE_BUF at *
  omega

/-- whatever a packet holds, the loop goes on behind it -/
theorem rxTurn_packet (links : Int64 → Option Bool) (stale : Nat → Byte) (errno : Int)
    {got : Bytes} (h0 : got ≠ []) (h1 : got.length ≤ PIPE_BUF) :
    ∃ e, rxTurn links stale got errno = .ok (.again e) := by
  obtain ⟨rest, hread⟩ := read_into stale h1
  have hn : sizeT got.length = got.length := sizeT_nat (by unfold PIPE_BUF at h1; omega)
  unfold rxTurn
  rw [if_neg (fun h => h0 (List.eq_nil_of_length_eq_zero h)), hread, ok_bind]
  by_cases hshort : sizeT got.length < PIPE_HEAD_SIZE
  · rw [if_pos hshort]
    exact ⟨none, rfl⟩
  rw [hn] at hshort
  have h16 : 16 ≤ got.length := Nat.not_lt.mp hshort
  have hlen : (got ++ rest).length = got.length + rest.length := List.length_append
  have s1 := @slice_nat (got ++ rest) 0 4 (by omega)
  have s2 := @slice_nat (got ++ rest) 8 8 (by omega)
  rw [hn, if_neg hshort]
  rw [show slice (got ++ rest) 0 4 = _ from s1, ok_bind]
  set length := int32OfLE (((got ++ rest).drop 0).take 4)
  by_cases hbad : got.length = sizeT (length.toInt + (PIPE_HEAD_SIZE : Nat))
  · rw [if_neg (fun h => h hbad)]
    rw [show slice (got ++ rest) 8 8 = _ from s2, ok_bind]
    dsimp only
    cases links (int64OfLE (((got ++ rest).drop 8).take 8)) with
    | none => exact ⟨none, rfl⟩
    | some callback =>
      cases callback with
      | false => exact ⟨none, rfl⟩
      | true =>
        have hle : length.toInt + (PIPE_HEAD_SIZE : Nat) = got.length :=
          (length_eq h1).mp (hn.trans hbad)
        obtain ⟨k, hk⟩ : ∃ k : Nat, length.toInt = k :=
          ⟨length.toInt.toNat, by unfold PIPE_HEAD_SIZE at hle; omega⟩
        have s3 := @slice_nat (got ++ rest) PIPE_HEAD_SIZE k
          (by unfold PIPE_HEAD_SIZE at hle ⊢; omega)
        rw [← hk] at s3
        exact ⟨_, by dsimp only; rw [s3, ok_bind]; rfl⟩
  · rw [if_pos hbad]
    exact ⟨none, rfl⟩

/-- a message is read back as it was written -/
theorem rxTurn_package (hm : m.Fits) (hp : pad.length = 4) :
    rxTurn links stale (package m pad) errno
      = .ok (.again (if links m.link = some true then some m else none)) := by
  have hlen := package_length (m := m) hp
  have hle := package_le hm hp
  obtain ⟨rest, hread⟩ := read_into stale hle
  have hn : sizeT (package m pad).length = (package m pad).length :=
    sizeT_nat (by unfold PIPE_BUF at hle; omega)
  have hsize : m.size.toInt = m.data.length := by rw [hm.data]; have := hm.nonneg; omega
  have s1 : slice (package m pad ++ rest) 0 4 = .ok (int32LE m.size) := by
    have e : package m pad ++ rest
        = [] ++ int32LE m.size ++ (pad ++ int64LE m.link ++ m.data ++ rest) := by
      simp only [package, List.append_assoc, List.nil_append]
    rw [e]
    exact slice_field (p := 0) (n := 4) rfl (int32LE_length _)
  have s2 : slice (package m pad ++ rest) 8 8 = .ok (int64LE m.link) := by
    have e : package m pad ++ rest
        = (int32LE m.size ++ pad) ++ int64LE m.link ++ (m.data ++ rest) := by
      simp only [package, List.append_assoc]
    rw [e]
    refine slice_field (p := 8) (n := 8) ?_ (int64LE_length _)
    rw [List.length_append, int32LE_length, hp]
  have s3 : slice (package m pad ++ rest) (PIPE_HEAD_SIZE : Nat) m.size.toInt = .ok m.data := by
    have e : package m pad ++ rest = (int32LE m.size ++ pad ++ int64LE m.link) ++ m.data ++ rest :=
      rfl
    rw [e, hsize]
    refine slice_field ?_ rfl
    rw [List.length_append, List.length_append, int32LE_length, int64LE_length, hp]
  have hsame : sizeT (package m pad).length = sizeT (m.size.toInt + (PIPE_HEAD_SIZE : Nat)) := by
    rw [length_eq hle, hlen, hsize]
    unfold PIPE_HEAD_SIZE
    omega
  unfold rxTurn
  rw [if_neg (by omega), hread, ok_bind, if_neg (by rw [hn, hlen]; unfold PIPE_HEAD_SIZE; omega),
    s1, ok_bind, int32OfLE_int32LE, if_neg (fun h => h hsame), s2, ok_bind, int64OfLE_int64LE]
  dsimp only
  cases links m.link with
  | none => rfl
  | some callback =>
    cases callback with
    | false => rfl
    | true =>
      rw [if_pos rfl, s3]
      rfl

end

/-! ## the pipe over a run -/

/-- `errno` behind which `pipe_rx` returns 0 -/
abbrev Nothing (errno : Int) : Prop := errno = 0 ∨ errno = EAGAIN

/-- a packet of `pipe_write_message` holds the message that it is marked with -/
def Packet.Right (p : Packet) : Prop :=
  p.bytes ≠ [] ∧ ∀ m, p.own = some m → m.Fits ∧ ∃ pad, pad.length = 4 ∧ p.bytes = package m pad

/-- the event of a message is that message, where the link exists and has a callback -/
def Taken.Right (t : Taken) : Prop :=
  ∀ m, t.own = some m → t.event = if t.link = some true then some m else none

/-- What holds of the pipe at any time. -/
structure Inv (w : World) : Prop where
  order : w.read ++ w.unread = w.accepted
  packets : ∀ p ∈ w.pending, p.Right
  posted : ∀ t ∈ w.taken, t.Right
  seen : w.seen ≤ w.read.length

/-- a state without a fault -/
def Sound : C World → Prop
  | .error _ => False
  | .ok w => Inv w

section
variable {w : World} {stale : Nat → Byte} {errno : Int}

theorem start_inv (links : Int64 → Option Bool) : Inv (World.start links) :=
  ⟨rfl, fun _ h => absurd h List.not_mem_nil, fun _ h => absurd h List.not_mem_nil, Nat.le_refl _⟩

/-- a turn whose `read(2)` fails -/
theorem rxTurn_fails (links : Int64 → Option Bool) :
    rxTurn links stale [] errno = .ok (if Nothing errno then .done 0
      else if errno = EINTR then .again none else .done (-1)) := by
  unfold rxTurn Nothing
  rw [if_pos List.length_nil]
  split
  · rfl
  · split <;> rfl

theorem unread_append (w : World) (ps : List Packet) :
    (w.pending ++ ps).filterMap (·.own) = w.unread ++ ps.filterMap (·.own) :=
  List.filterMap_append

/-- one message more, behind all others -/
theorem accepted_inv {m : PipeData} {pad : Bytes} (hm : m.Fits) (hp : pad.length = 4) (hI : Inv w) :
    Inv { w with
      pending := w.pending ++ (Pipe.packets (package m pad)).map (Packet.mk (some m))
      accepted := w.accepted ++ [m] } := by
  rw [packets_small (package_le hm hp)]
  refine ⟨?_, fun p h => ?_, hI.posted, hI.seen⟩
  · show w.read ++ (w.pending ++ [Packet.mk (some m) (package m pad)]).filterMap Packet.own
      = w.accepted ++ [m]
    rw [unread_append, ← List.append_assoc, hI.order]
    rfl
  · obtain h | h := List.mem_append.mp h
    · exact hI.packets p h
    · obtain rfl := List.mem_singleton.mp h
      refine ⟨fun hnil => ?_, fun m' hm' => ?_⟩
      · have hlen := package_length (m := m) hp
        rw [show package m pad = [] from hnil, List.length_nil] at hlen
        omega
      · cases hm'
        exact ⟨hm, pad, hp, rfl⟩

theorem call_inv {hld : Int64} {pipefd : Int} {mem : Option (Nat → Byte)} {data : Nat → Byte}
    {cb : Int32} {written : Bool} (hI : Inv w) {r : C World}
    (h : step (.ok w) (.call hld pipefd mem data cb written) = some r) : Sound r := by
  by_cases hcb : InRange cb
  · obtain ⟨v, -, hv⟩ | ⟨pad, hp, hv⟩ := writeMessage_accepts hld pipefd mem data hcb
    · simp only [step, hv, ok_bind, Option.some.injEq] at h
      subst h
      exact hI
    · simp only [step, hv, ok_bind, Option.some.injEq] at h
      subst h
      cases written with
      | false => exact hI
      | true => exact accepted_inv ⟨hcb.1, hcb.2, bytesAt_length _ _⟩ hp hI
  · simp only [step, writeMessage_refuses hcb, ok_bind, Option.some.injEq] at h
    subst h
    exact hI

theorem foreign_inv {bytes : Bytes} (hb : bytes ≠ []) (hI : Inv w) :
    Inv { w with pending := w.pending ++ [⟨none, bytes⟩] } := by
  refine ⟨?_, fun p h => ?_, hI.posted, hI.seen⟩
  · show w.read ++ (w.pending ++ [Packet.mk none bytes]).filterMap Packet.own = w.accepted
    rw [unread_append, ← hI.order]
    exact congrArg (w.read ++ ·) (List.append_nil _)
  · obtain h | h := List.mem_append.mp h
    · exact hI.packets p h
    · obtain rfl := List.mem_singleton.mp h
      exact ⟨hb, fun _ h => nomatch h⟩

/-- a turn in which there is nothing to read, or `read(2)` fails -/
theorem fails_inv (hI : Inv w) (h : Nothing errno → w.pending = []) :
    Inv (w.turned (if Nothing errno then .done 0
      else if errno = EINTR then .again none else .done (-1)) none) := by
  by_cases hn : Nothing errno
  · rw [if_pos hn]
    have hread : w.read = w.accepted := by
      have := hI.order
      rwa [World.unread, h hn, List.filterMap_nil, List.append_nil] at this
    exact ⟨hI.order, hI.packets, hI.posted, hread ▸ Nat.le_refl _⟩
  · rw [if_neg hn]
    split
    · exact hI
    · exact ⟨hI.order, hI.packets, hI.posted, hI.seen⟩

/-- what a turn makes of a packet -/
theorem rxTurn_right (w : World) (stale : Nat → Byte) {p : Packet} (hp : p.Right) :
    ∃ e, rxTurn w.links stale (p.bytes.take PIPE_BUF) 0 = .ok (.again e) ∧
      Taken.Right ⟨p.own, p.own.bind (fun m => w.links m.link), e⟩ := by
  cases hown : p.own with
  | none =>
    have hne : p.bytes.take PIPE_BUF ≠ [] := by
      intro h
      obtain h | h := List.take_eq_nil_iff.mp h
      · exact absurd h (by decide)
      · exact hp.1 h
    obtain ⟨e, he⟩ := rxTurn_packet w.links stale 0 hne
      (List.length_take_le ..)
    exact ⟨e, he, fun _ h => nomatch h⟩
  | some m =>
    obtain ⟨hm, pad, hpad, hb⟩ := hp.2 m hown
    rw [hb, List.take_of_length_le (package_le hm hpad)]
    refine ⟨_, rxTurn_package hm hpad, fun m' hm' => ?_⟩
    cases hm'
    rfl

theorem taken_inv {p : Packet} {rest : List Packet} {e : Option PipeData}
    (hp : w.pending = p :: rest)
    (he : Taken.Right ⟨p.own, p.own.bind (fun m => w.links m.link), e⟩) (hI : Inv w) :
    Inv (w.turned (.again e) (some p)) := by
  have hread : (w.turned (.again e) (some p)).read = w.read ++ p.own.toList := by
    show (w.taken ++ [Taken.mk p.own (p.own.bind fun m => w.links m.link) e]).filterMap Taken.own
      = _
    rw [List.filterMap_append]
    cases hown : p.own <;> rfl
  have hunread : w.unread = p.own.toList ++ rest.filterMap (·.own) := by
    rw [World.unread, hp]
    cases hown : p.own with
    | none => exact List.filterMap_cons_none hown
    | some m => exact List.filterMap_cons_some hown
  have htail : (w.turned (.again e) (some p)).pending = rest := by
    show w.pending.tail = rest
    rw [hp, List.tail_cons]
  refine ⟨?_, fun q h => ?_, fun t h => ?_, ?_⟩
  · rw [hread, World.unread, htail, List.append_assoc, ← hunread]
    exact hI.order
  · rw [htail] at h
    exact hI.packets q (by rw [hp]; exact List.mem_cons_of_mem _ h)
  · obtain h | h := List.mem_append.mp h
    · exact hI.posted t h
    · obtain rfl := List.mem_singleton.mp h
      exact he
  · rw [hread, List.length_append]
    exact Nat.le_add_right_of_le hI.seen

theorem step_sound {s r : C World} {a : Act} (hs : Sound s) (h : step s a = some r) : Sound r := by
  cases s with
  | error f => exact hs.elim
  | ok w =>
    have hI : Inv w := hs
    cases a with
    | call hld pipefd mem data cb written => exact call_inv hI h
    | foreign bytes =>
      by_cases hb : bytes = []
      · exact nomatch (if_pos hb).symm.trans h
      · cases (if_neg hb).symm.trans h
        exact foreign_inv hb hI
    | links hld v =>
      cases h
      exact ⟨hI.order, hI.packets, hI.posted, hI.seen⟩
    | enter =>
      simp only [step] at h
      split at h
      · exact nomatch h
      · cases h
        exact ⟨hI.order, hI.packets, hI.posted, hI.seen⟩
    | turn stale fails =>
      cases fails with
      | some errno =>
        simp only [step, rxTurn_fails, ok_bind] at h
        split at h
        · exact nomatch h
        · cases h
          rename_i hno
          exact fails_inv hI fun hn => by_contra fun hp => hno (.inr ⟨hn, hp⟩)
      | none =>
        simp only [step] at h
        split at h
        · rename_i p rest _ hp
          obtain ⟨e, he, ht⟩ := rxTurn_right w stale
            (hI.packets p (by rw [hp]; exact List.mem_cons_self ..))
          rw [he, ok_bind] at h
          cases h
          exact taken_inv hp ht hI
        · exact nomatch h

end

/-! ## delivery -/

/-- What the messages can rely on in a state `w`, and on the steps from there. -/
structure Delivers (w : World) : Prop where
  /-- the accepted messages are those that were read and those that are not, in order -/
  order : w.read ++ w.unread = w.accepted
  /-- a message that was read was posted, unless its link was gone -/
  posted : ∀ t ∈ w.taken, t.Right
  /-- `pipe_rx` has not returned 0 while a message was there -/
  seen : w.seen ≤ w.read.length
  /-- the calls that are refused; they write nothing -/
  refuses : ∀ hld pipefd mem data cb, (writeMessage hld pipefd mem data cb = .ok (.error (-EINVAL))
    ↔ ¬ InRange cb) ∧ ∀ written, ¬ InRange cb →
      step (.ok w) (.call hld pipefd mem data cb written) = some (.ok w)
  /-- an interruption changes nothing -/
  interrupted : w.inRx = true → ∀ stale, step (.ok w) (.turn stale (some EINTR)) = some (.ok w)
  /-- the loop takes whatever packet is there, and goes on -/
  goesOn : w.inRx = true → ∀ p rest, w.pending = p :: rest → ∀ stale,
    ∃ w', step (.ok w) (.turn stale none) = some (.ok w') ∧ w'.pending = rest ∧ w'.inRx = true

theorem Inv.delivers {w : World} (hI : Inv w) : Delivers w where
  order := hI.order
  posted := hI.posted
  seen := hI.seen
  refuses hld pipefd mem data cb := by
    refine ⟨⟨fun h hcb => ?_, writeMessage_refuses⟩, fun written hcb => ?_⟩
    · obtain ⟨v, hv, hw⟩ | ⟨pad, -, hw⟩ := writeMessage_accepts hld pipefd mem data hcb
      · rw [hw] at h
        cases h
        exact hv rfl
      · rw [hw] at h
        cases h
    · simp only [step, writeMessage_refuses hcb, ok_bind]
      rfl
  interrupted hrx stale := by
    have hno : ¬ Nothing EINTR := by decide
    simp only [step, rxTurn_fails, ok_bind]
    rw [if_neg (fun h => h.elim (fun h => by rw [hrx] at h; cases h) (fun h => hno h.1)),
      if_neg hno]
    rfl
  goesOn hrx p rest hp stale := by
    obtain ⟨e, he, -⟩ := rxTurn_right w stale
      (hI.packets p (by rw [hp]; exact List.mem_cons_self ..))
    refine ⟨w.turned (.again e) (some p), ?_, ?_, hrx⟩
    · simp only [step, hrx, hp, he, ok_bind]
      rfl
    · show w.pending.tail = rest
      rw [hp, List.tail_cons]

end Pipe

/-- In every run of writers, other programs and `pipe_rx`, nothing is undefined, and the accepted
messages come out once each, whole and in order. -/
theorem pipe_delivers (links : Int64 → Option Bool) (as : List Pipe.Act) {r : C Pipe.World}
    (h : run Pipe.step (.ok (Pipe.World.start links)) as = some r) :
    ∃ w, r = .ok w ∧ Pipe.Delivers w := by
  have hr : Pipe.Sound r := run_invariant Pipe.step (I := Pipe.Sound)
    (fun _ _ _ hs hstep => Pipe.step_sound hs hstep) h (Pipe.start_inv links)
  cases r with
  | error f => exact hr.elim
  | ok w => exact ⟨w, rfl, hr.delivers⟩

/-- two links, one of them gone, with a short packet and an interruption between -/
theorem pipe_delivers_twoLinks :
    ∃ w, run Pipe.step (.ok (Pipe.World.start fun h => if h = 7 then some true else none))
      [.call 7 5 (some fun _ => 170) (fun _ => 1) 2 true, .foreign [9, 9], .enter,
        .call 8 5 (some fun _ => 170) (fun _ => 2) 1 true, .turn (fun _ => 0) (some EINTR),
        .turn (fun _ => 0) none, .call 7 5 none (fun _ => 3) (-1) true, .turn (fun _ => 0) none,
        .turn (fun _ => 0) none, .turn (fun _ => 0) (some EAGAIN)] = some (.ok w) ∧
      w.events = [⟨7, 2, [1, 1]⟩] ∧ w.seen = 2 ∧ Pipe.Delivers w := by
  have h : (run Pipe.step (.ok (Pipe.World.start fun h => if h = 7 then some true else none))
      [.call 7 5 (some fun _ => 170) (fun _ => 1) 2 true, .foreign [9, 9], .enter,
        .call 8 5 (some fun _ => 170) (fun _ => 2) 1 true, .turn (fun _ => 0) (some EINTR),
        .turn (fun _ => 0) none, .call 7 5 none (fun _ => 3) (-1) true, .turn (fun _ => 0) none,
        .turn (fun _ => 0) none, .turn (fun _ => 0) (some EAGAIN)]).map
          (fun r => r.map fun w => (w.events, w.seen)) = some (.ok ([⟨7, 2, [1, 1]⟩], 2)) := by
    decide +kernel
  obtain ⟨r, hr, he⟩ := Option.map_eq_some_iff.mp h
  obtain ⟨w, rfl, hw⟩ := pipe_delivers _ _ hr
  have he : (w.events, w.seen) = ([⟨7, 2, [1, 1]⟩], 2) := Except.ok.inj he
  exact ⟨w, hr, congrArg Prod.fst he, congrArg Prod.snd he, hw⟩

end Swnet

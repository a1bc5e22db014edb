import Swnet.Lib.Lifetime
import Swnet.TcpalSafe

/-!
# The memory of a link that reads

`packet` and `rx_buffer` live as long as the link, and a large block from the `malloc` in
`tcp_parse_pkt` to the `free` in `__tcp_parse_marked_lb` or in `ncb_deconstruct`.  The user may store
other templates and attributes between any two calls of `tcp_parse_pkt`, also while a chunk is being
unpacked, and `tcp_settst` stores one field after the other.

* `pktTouches`        the blocks that one call of `tcp_parse_pkt` takes, uses and frees;
* `Receiver.step`     the thread that reads, call by call, and the stores of the other threads;
* `rounds_once`       what nobody interferes with is `tcpRxOnce`;
* `blocks_settled`    whatever is stored: no block is used when it is freed, freed twice or lost;
* `stores_are_safe`   a template that is stored between two packets causes no fault.
-/

namespace Swnet
open CMem Framing Runs Lifetime

/-- the blocks of a link; `large k` is from the call of `malloc` with the number `k` -/
inductive Block where
  | packet
  | rxBuffer
  | large (k : Nat)
deriving DecidableEq

/-! ## what is touched -/

/-- `lbdata` -/
def Rx.large (rx : Rx) : Block := .large (rx.mallocs - 1)

/-- `__tcp_parse_marked_lb` -/
def markedTouches (rx : Rx) (cpcb : Int) : List (Touch Block) :=
  [.use .rxBuffer, .use rx.large] ++
    if cpcb + rx.ncb.tcp.lboffset < rx.ncb.tcp.lbsize then [] else [.use rx.large, .drop rx.large]

/-- `tcp_parse_pkt` from the call of `parser_` on -/
def bodyTouches (H : Heap) (rx : Rx) (overplus : Int) : List (Touch Block) :=
  let tcp := rx.ncb.tcp
  match tcp.template.parser_ with
  | none => []
  | some parser_ =>
    .use .packet :: match parser_ rx.ncb.packet tcp.rxParseOffset with
    | none => []
    | some userDataSize =>
      let total := userDataSize + tcp.template.cb_
      if userDataSize > TCP_MAXIMUM_PACKET_SIZE ∨ userDataSize ≤ 0 then []
      else if total > TCP_BUFFER_SIZE then
        match H.malloc rx.mallocs total.toNat with
        | none => []
        | some _ => [.take (.large rx.mallocs), .use .rxBuffer, .use (.large rx.mallocs)]
      else if tcp.rxParseOffset + overplus ≥ total then
        [.use .rxBuffer, .use .packet, .use .packet]
      else [.use .rxBuffer, .use .packet]

/-- `tcp_parse_pkt` -/
def pktTouches (H : Heap) (rx : Rx) (data : Bytes) (cpcb : Int) : List (Touch Block) :=
  let tcp := rx.ncb.tcp
  if cpcb = 0 then []
  else if tcp.template.cb_ = 0 ∨ tcp.template.parser_.isNone = true then [.use .rxBuffer]
  else if ncbLbMarked rx.ncb = true then markedTouches rx cpcb
  else if tcp.rxParseOffset + cpcb < tcp.template.cb_ then [.use .rxBuffer, .use .packet]
  else if tcp.rxParseOffset < tcp.template.cb_ then
    let used := tcp.template.cb_ - tcp.rxParseOffset
    match memcpy rx.ncb.packet tcp.rxParseOffset data used with
    | .error _ => []
    | .ok packet' =>
      [.use .rxBuffer, .use .packet] ++ bodyTouches H ((rx.setPacket packet').setTcp
        { tcp with rxParseOffset := tcp.template.cb_ }) (cpcb - used)
  else bodyTouches H rx cpcb

/-- the blocks that `ncb_deconstruct` frees, when both buffers are there -/
def Rx.blocks (rx : Rx) : List Block :=
  .packet :: .rxBuffer :: if ncbLbMarked rx.ncb = true then [rx.large] else []

def deconstructTouches (rx : Rx) : List (Touch Block) := rx.blocks.map .drop

/-- a link and what its observer has seen -/
structure Keeps (rx : Rx) (l : Block → Fate) : Prop where
  packet : l .packet = .held
  rxBuffer : l .rxBuffer = .held
  fresh : ∀ k, rx.mallocs ≤ k → l (.large k) = .fresh
  large : ∀ k, l (.large k) = .held ↔ rx.ncb.tcp.lbdata.isSome = true ∧ k + 1 = rx.mallocs
  marked : rx.ncb.tcp.lbdata.isSome = true → 0 < rx.ncb.tcp.lbsize ∧ 0 < rx.mallocs

section
variable {H : Heap} {rx rx' : Rx} {l : Block → Fate} {data u : Bytes} {cpcb overplus r : Int}

/-! ## one call of `tcp_parse_pkt` -/

theorem Keeps.congr (K : Keeps rx l) (hd : rx'.ncb.tcp.lbdata.isSome = rx.ncb.tcp.lbdata.isSome)
    (hs : rx'.ncb.tcp.lbsize = rx.ncb.tcp.lbsize) (hm : rx'.mallocs = rx.mallocs) : Keeps rx' l where
  packet := K.packet
  rxBuffer := K.rxBuffer
  fresh k hk := K.fresh k (by omega)
  large k := by
    rw [K.large, hd, hm]
  marked h := by
    rw [hs, hm]
    exact K.marked (hd ▸ h)

theorem Keeps.held (K : Keeps rx l) (h : rx.ncb.tcp.lbdata.isSome = true) : l rx.large = .held := by
  refine (K.large _).mpr ⟨h, ?_⟩
  have := (K.marked h).2
  omega

/-- there is a block if and only if the macro says so -/
theorem Keeps.marked_iff (K : Keeps rx l) :
    ncbLbMarked rx.ncb = true ↔ rx.ncb.tcp.lbdata.isSome = true := by
  unfold ncbLbMarked
  rw [Bool.and_eq_true, decide_eq_true_eq]
  exact ⟨fun h => h.1, fun h => ⟨h, (K.marked h).1⟩⟩

theorem Keeps.uses (K : Keeps rx l) (bs : List Block)
    (h : ∀ b, b ∈ bs → b = .rxBuffer ∨ b = .packet ∨ b = rx.large ∧ rx.ncb.tcp.lbdata.isSome = true) :
    run watch l (bs.map .use) = some l := by
  refine run_uses fun b hb => ?_
  rcases h b hb with rfl | rfl | ⟨rfl, hl⟩
  · exact K.rxBuffer
  · exact K.packet
  · exact K.held hl

/-- a `malloc` that fails has its number, too -/
theorem Keeps.nomem (K : Keeps rx l) (hn : rx.ncb.tcp.lbdata.isSome = false)
    (hd : rx'.ncb.tcp.lbdata.isSome = false) (hm : rx'.mallocs = rx.mallocs + 1) : Keeps rx' l where
  packet := K.packet
  rxBuffer := K.rxBuffer
  fresh k hk := K.fresh k (by omega)
  large k := by
    rw [K.large, hd, hn]
    constructor <;> rintro ⟨h, _⟩ <;> cases h
  marked h := by
    rw [hd] at h
    cases h

/-- the large block is taken -/
theorem Keeps.take (K : Keeps rx l) (hn : rx.ncb.tcp.lbdata.isSome = false)
    (hd : rx'.ncb.tcp.lbdata.isSome = true) (hs : 0 < rx'.ncb.tcp.lbsize)
    (hm : rx'.mallocs = rx.mallocs + 1) :
    Keeps rx' (Function.update l (.large rx.mallocs) .held) where
  packet := (Function.update_of_ne (show Block.packet ≠ .large rx.mallocs from nofun) ..).trans K.packet
  rxBuffer :=
    (Function.update_of_ne (show Block.rxBuffer ≠ .large rx.mallocs from nofun) ..).trans K.rxBuffer
  fresh k hk := by
    have hne : Block.large k ≠ .large rx.mallocs := fun h => by
      have := Block.large.inj h
      omega
    rw [Function.update_of_ne hne, K.fresh k (by omega)]
  large k := by
    by_cases hk : k = rx.mallocs
    · subst hk
      rw [Function.update_self, hm]
      exact ⟨fun _ => ⟨hd, rfl⟩, fun _ => rfl⟩
    · rw [Function.update_of_ne (fun h => hk (Block.large.inj h)), K.large, hn, hm]
      constructor
      · rintro ⟨h, _⟩
        cases h
      · rintro ⟨_, h⟩
        omega
  marked _ := ⟨hs, by omega⟩

/-- the large block is freed -/
theorem Keeps.drop (K : Keeps rx l) (hl : rx.ncb.tcp.lbdata.isSome = true)
    (hn : rx'.ncb.tcp.lbdata.isSome = false) (hm : rx'.mallocs = rx.mallocs) :
    Keeps rx' (Function.update l rx.large .gone) where
  packet :=
    (Function.update_of_ne (show Block.packet ≠ .large (rx.mallocs - 1) from nofun) ..).trans K.packet
  rxBuffer :=
    (Function.update_of_ne (show Block.rxBuffer ≠ .large (rx.mallocs - 1) from nofun) ..).trans K.rxBuffer
  fresh k hk := by
    have hpos := (K.marked hl).2
    have hne : Block.large k ≠ rx.large := fun h => by
      have := Block.large.inj h
      omega
    rw [Function.update_of_ne hne, K.fresh k (by omega)]
  large k := by
    rw [hn]
    by_cases hk : Block.large k = rx.large
    · rw [hk, Function.update_self]
      exact ⟨nofun, fun h => nomatch h.1⟩
    · rw [Function.update_of_ne hk, K.large, hl]
      have := (K.marked hl).2
      constructor
      · rintro ⟨_, h⟩
        refine absurd ?_ hk
        unfold Rx.large
        rw [← h, Nat.add_sub_cancel]
      · rintro ⟨h, _⟩
        cases h
  marked h := by
    rw [hn] at h
    cases h

theorem post_rx {buf : Bytes} {cb pos : Int} (h : ncbPostRecvdata rx cb buf pos = .ok rx') :
    rx'.ncb = rx.ncb ∧ rx'.mallocs = rx.mallocs := by
  obtain ⟨_, _, h⟩ := bind_ok h
  cases h
  exact ⟨rfl, rfl⟩

theorem marked_keeps (K : Keeps rx l) (hl : rx.ncb.tcp.lbdata.isSome = true)
    (h : tcpParseMarkedLb rx data cpcb = .ok (r, rx')) :
    ∃ l', run watch l (markedTouches rx cpcb) = some l' ∧ Keeps rx' l' := by
  have hheld := K.held hl
  have huses : run watch l [.use .rxBuffer, .use rx.large] = some l :=
    K.uses [.rxBuffer, rx.large] (by simp [hl])
  unfold tcpParseMarkedLb at h
  unfold markedTouches
  rw [run_append, huses, Option.bind_some]
  obtain ⟨reach, hr, h⟩ := bind_ok h
  obtain rfl := cint_val hr
  split at h
  · rename_i hlt
    obtain ⟨lb, _, h⟩ := bind_ok h
    obtain ⟨off, _, h⟩ := bind_ok h
    cases h
    rw [if_pos hlt]
    exact ⟨l, rfl, K.congr (by rw [hl]; rfl) rfl rfl⟩
  · rename_i hge
    obtain ⟨beyond, _, h⟩ := bind_ok h
    obtain ⟨lb, _, h⟩ := bind_ok h
    obtain ⟨rx1, hm, h⟩ : ∃ rx1 : Rx, rx1.mallocs = rx.mallocs ∧ (cint (cpcb - beyond) >>= fun r =>
        pure (r, rx1.setTcp { rx.ncb.tcp with lbdata := none, lboffset := 0, lbsize := 0 }))
          = .ok (r, rx') := by
      dsimp only at h
      split at h
      · obtain ⟨rx1, hpost, h⟩ := bind_ok h
        exact ⟨rx1, (post_rx hpost).2, h⟩
      · obtain ⟨_, _, h⟩ := bind_ok h
        obtain ⟨rx1, hpost, h⟩ := bind_ok h
        exact ⟨rx1, (post_rx hpost).2, h⟩
    obtain ⟨_, _, h⟩ := bind_ok h
    cases h
    rw [if_neg hge, run_cons, watch_use hheld, Option.bind_some, run_cons, watch_drop hheld]
    exact ⟨_, rfl, K.drop hl rfl hm⟩

theorem body_keeps (K : Keeps rx l) (hn : rx.ncb.tcp.lbdata.isSome = false)
    (h : tcpParseBody H rx data cpcb u overplus = .ok (r, rx')) :
    ∃ l', run watch l (bodyTouches H rx overplus) = some l' ∧ Keeps rx' l' := by
  unfold tcpParseBody at h
  unfold bodyTouches
  dsimp only at h ⊢
  cases hp : rx.ncb.tcp.template.parser_ with
  | none =>
    rw [hp] at h
    cases h
    exact ⟨l, rfl, K⟩
  | some parser_ =>
    rw [hp] at h
    dsimp only at h ⊢
    rw [run_cons, watch_use K.packet, Option.bind_some]
    cases hx : parser_ rx.ncb.packet rx.ncb.tcp.rxParseOffset with
    | none =>
      rw [hx] at h
      cases h
      exact ⟨l, rfl, K⟩
    | some userDataSize =>
      rw [hx] at h
      dsimp only at h ⊢
      split at h
      · rename_i hbad
        cases h
        rw [if_pos hbad]
        exact ⟨l, rfl, K⟩
      · rename_i hgood
        rw [if_neg hgood]
        obtain ⟨total, ht, h⟩ := bind_ok h
        obtain rfl := cint_val ht
        split at h
        · rename_i hlarge
          rw [if_pos hlarge]
          cases hm : H.malloc rx.mallocs (userDataSize + rx.ncb.tcp.template.cb_).toNat with
          | none =>
            rw [hm] at h
            cases h
            exact ⟨l, rfl, K.nomem hn rfl rfl⟩
          | some lb =>
            rw [hm] at h
            obtain ⟨lb', _, h⟩ := bind_ok h
            cases h
            dsimp only
            rw [run_cons, watch_take (K.fresh rx.mallocs (Nat.le_refl _)), Option.bind_some]
            have K' : Keeps (rx.setTcp ⟨0, some lb', cpcb, userDataSize + rx.ncb.tcp.template.cb_,
                rx.ncb.tcp.template⟩).malloced (Function.update l (.large rx.mallocs) .held) := by
              refine K.take hn rfl ?_ rfl
              show 0 < userDataSize + rx.ncb.tcp.template.cb_
              omega
            exact ⟨_, K'.uses [.rxBuffer, .large rx.mallocs] (by simp [Rx.large, Rx.malloced]), K'⟩
        · rename_i hsmall
          rw [if_neg hsmall]
          obtain ⟨reach, hr, h⟩ := bind_ok h
          obtain rfl := cint_val hr
          split at h
          · rename_i hdone
            rw [if_pos hdone]
            obtain ⟨need, _, h⟩ := bind_ok h
            obtain ⟨packet', _, h⟩ := bind_ok h
            obtain ⟨retcb, _, h⟩ := bind_ok h
            refine ⟨l, K.uses [.rxBuffer, .packet, .packet] (by simp), ?_⟩
            split at h
            · obtain ⟨rx1, hpost, h⟩ := bind_ok h
              cases h
              exact K.congr rfl rfl (post_rx hpost).2
            · obtain ⟨rx1, hpost, h⟩ := bind_ok h
              cases h
              exact K.congr rfl rfl (post_rx hpost).2
          · rename_i hmore
            rw [if_neg hmore]
            obtain ⟨packet', _, h⟩ := bind_ok h
            cases h
            exact ⟨l, K.uses [.rxBuffer, .packet] (by simp), K.congr rfl rfl rfl⟩

theorem pkt_keeps (K : Keeps rx l) (h : tcpParsePkt H rx data cpcb = .ok (r, rx')) :
    ∃ l', run watch l (pktTouches H rx data cpcb) = some l' ∧ Keeps rx' l' := by
  unfold tcpParsePkt at h
  unfold pktTouches
  dsimp only at h ⊢
  split at h
  · rename_i h0
    cases h
    rw [if_pos h0]
    exact ⟨l, rfl, K⟩
  rename_i h0
  rw [if_neg h0]
  split at h
  · rename_i hno
    obtain ⟨rx1, hpost, h⟩ := bind_ok h
    cases h
    rw [if_pos hno]
    exact ⟨l, K.uses [.rxBuffer] (by simp), K.congr rfl rfl (post_rx hpost).2⟩
  rename_i hno
  rw [if_neg hno]
  split at h
  · rename_i hmk
    rw [if_pos hmk]
    exact marked_keeps K (K.marked_iff.mp hmk) h
  rename_i hmk
  rw [if_neg hmk]
  have hn : rx.ncb.tcp.lbdata.isSome = false := by
    rwa [K.marked_iff, Bool.not_eq_true] at hmk
  obtain ⟨reach, hr, h⟩ := bind_ok h
  obtain rfl := cint_val hr
  split at h
  · rename_i hshort
    obtain ⟨packet', _, h⟩ := bind_ok h
    cases h
    rw [if_pos hshort]
    exact ⟨l, K.uses [.rxBuffer, .packet] (by simp), K.congr rfl rfl rfl⟩
  rename_i hlong
  rw [if_neg hlong]
  split at h
  · rename_i hhead
    obtain ⟨used, hu, h⟩ := bind_ok h
    obtain rfl := cint_val hu
    obtain ⟨beyond, ho, h⟩ := bind_ok h
    obtain rfl := cint_val ho
    obtain ⟨packet', hm, h⟩ := bind_ok h
    rw [if_pos hhead, hm]
    dsimp only
    rw [run_append, show run watch l [.use .rxBuffer, .use .packet] = some l from
      K.uses [.rxBuffer, .packet] (by simp), Option.bind_some]
    exact body_keeps (K.congr rfl rfl rfl) hn h
  · rename_i hhead
    rw [if_neg hhead]
    exact body_keeps K hn h

end

/-! ## the thread that reads, and the others -/

/-- where the thread that reads is in `__tcp_rx` -/
inductive Reading where
  | idle
  | unpacking (chunk : Bytes) (offset cpcb : Int)
  | failed
  | fault (f : Fault)
deriving DecidableEq

structure Receiver where
  rx : Rx
  reading : Reading

inductive ReadAct where
  /-- `recv(2)` fills `rx_buffer` -/
  | recv (chunk : Bytes)
  /-- one round of the loop in `__tcp_rx` -/
  | round
  /-- the stores of `tcp_settst` -/
  | cb (n : Int)
  | builder (b : Option (Bytes → Int → Int × Bytes))
  | parser (p : Option (Bytes → Int → Option Int))
  /-- `tcp_setattr` -/
  | attr (A : Attr)

def Rx.setTemplate (rx : Rx) (t : Tst) : Rx := rx.setTcp { rx.ncb.tcp with template := t }

namespace Receiver

/-- a link as it is created, with the template of its listener or none -/
def fresh (garbage : Bytes) (A : Attr) (t : Tst) : Receiver := ⟨Rx.fresh garbage A t, .idle⟩

/-- behind `tcp_parse_pkt` -/
def next (rx : Rx) (chunk : Bytes) (offset cpcb r : Int) : Receiver :=
  if r < 0 then ⟨rx, .failed⟩
  else
    match cint (offset + (cpcb - r)) with
    | .error f => ⟨rx, .fault f⟩
    | .ok offset' => if r > 0 then ⟨rx, .unpacking chunk offset' r⟩ else ⟨rx, .idle⟩

def round (H : Heap) (rx : Rx) (chunk : Bytes) (offset cpcb : Int) : Receiver :=
  match tcpParsePkt H rx (chunk.drop offset.toNat) cpcb with
  | .error f => ⟨rx, .fault f⟩
  | .ok p => next p.2 chunk offset cpcb p.1

def step (H : Heap) (m : Receiver) : ReadAct → Option Receiver
  | .recv chunk =>
    match m.reading with
    | .idle =>
      if 0 < chunk.length ∧ chunk.length ≤ TCP_BUFFER_SIZE then
        some { m with reading := .unpacking chunk 0 chunk.length }
      else none
    | _ => none
  | .round =>
    match m.reading with
    | .unpacking chunk offset cpcb => some (round H m.rx chunk offset cpcb)
    | _ => none
  | .cb n =>
    -- the check in front of the stores
    if n ≤ TCP_MAXIMUM_TEMPLATE_SIZE then
      some { m with rx := m.rx.setTemplate { m.rx.ncb.tcp.template with cb_ := n } }
    else none
  | .builder b =>
    some { m with rx := m.rx.setTemplate { m.rx.ncb.tcp.template with builder_ := b } }
  | .parser p =>
    some { m with rx := m.rx.setTemplate { m.rx.ncb.tcp.template with parser_ := p } }
  | .attr A => some { m with rx := m.rx.setAttr A }

/-- the blocks that a step touches; behind a fault there is nothing to say -/
def touches (H : Heap) (m : Receiver) : ReadAct → List (Touch Block)
  | .recv _ => [.use .rxBuffer]
  | .round =>
    match m.reading with
    | .unpacking chunk offset cpcb =>
      match tcpParsePkt H m.rx (chunk.drop offset.toNat) cpcb with
      | .error _ => []
      | .ok _ => pktTouches H m.rx (chunk.drop offset.toNat) cpcb
    | _ => []
  | _ => []

/-- all that happens to the memory of a link, from `tcp_create` or `__tcp_syn_dpc` to `ncb_deconstruct`
in the state `m'` -/
def memoryOfLink (H : Heap) (m : Receiver) (as : List ReadAct) (m' : Receiver) : List (Touch Block) :=
  [.take .packet, .take .rxBuffer] ++
    (trace (step H) (touches H) m as ++ deconstructTouches m'.rx)

end Receiver

/-! ## nothing is lost -/

section
variable {H : Heap} {m m' : Receiver} {l : Block → Fate} {chunk : Bytes} {offset cpcb : Int}

/-- in a fault, or with the blocks that the observer knows of -/
def Followed (m : Receiver) (l : Block → Fate) : Prop := (∃ f, m.reading = .fault f) ∨ Keeps m.rx l

theorem round_some {rx rx' : Rx} {r : Int}
    (h : tcpParsePkt H rx (chunk.drop offset.toNat) cpcb = .ok (r, rx')) :
    Receiver.round H rx chunk offset cpcb = Receiver.next rx' chunk offset cpcb r := by
  unfold Receiver.round
  rw [h]

/-- what `__tcp_rx` leaves behind -/
def Receiver.behind (p : Int × Rx) : Receiver := ⟨p.2, if p.1 < 0 then .failed else .idle⟩

/-- **Rounds that nobody interferes with are the loop of `__tcp_rx`.** -/
theorem rounds_loop {k : Nat} {rx : Rx} {p : Int × Rx}
    (h : rxLoop H k rx chunk offset cpcb = .ok p) :
    ∃ n, run (Receiver.step H) ⟨rx, .unpacking chunk offset cpcb⟩ (List.replicate n .round)
      = some (Receiver.behind p) := by
  induction k generalizing rx offset cpcb with
  | zero => cases h
  | succ k ih =>
    unfold rxLoop at h
    obtain ⟨q, h1, h⟩ := bind_ok h
    have hstep : Receiver.step H ⟨rx, .unpacking chunk offset cpcb⟩ .round
        = some (Receiver.next q.2 chunk offset cpcb q.1) := congrArg some (round_some h1)
    unfold Receiver.next at hstep
    split at h
    · rename_i hneg
      rw [if_pos hneg] at hstep
      cases h
      refine ⟨1, ?_⟩
      rw [List.replicate_one, run_of_step _ _ hstep]
      rfl
    · rename_i hneg
      obtain ⟨offset', ho, h⟩ := bind_ok h
      rw [if_neg hneg, ho] at hstep
      dsimp only at hstep
      split at h
      · rename_i hpos
        rw [if_pos hpos] at hstep
        obtain ⟨n, hn⟩ := ih h
        refine ⟨n + 1, ?_⟩
        rw [List.replicate_succ, run_of_step _ _ hstep]
        exact hn
      · rename_i hpos
        rw [if_neg hpos] at hstep
        cases h
        refine ⟨1, ?_⟩
        rw [List.replicate_one, run_of_step _ _ hstep]
        rfl

theorem rounds_once {rx : Rx} {p : Int × Rx} (h0 : 0 < chunk.length)
    (h1 : chunk.length ≤ TCP_BUFFER_SIZE) (h : tcpRxOnce H rx (.bytes chunk) = .ok p) :
    ∃ n, run (Receiver.step H) ⟨rx, .idle⟩ (.recv chunk :: List.replicate n .round)
      = some (Receiver.behind p) := by
  unfold tcpRxOnce at h
  dsimp only at h
  rw [if_pos h0] at h
  obtain ⟨n, hn⟩ := rounds_loop h
  have hstep : Receiver.step H ⟨rx, .idle⟩ (.recv chunk)
      = some ⟨rx, .unpacking chunk 0 chunk.length⟩ := if_pos ⟨h0, h1⟩
  exact ⟨n, by rw [run_of_step _ _ hstep, hn]⟩

theorem next_followed {rx : Rx} (K : Keeps rx l) (r : Int) :
    Followed (Receiver.next rx chunk offset cpcb r) l := by
  unfold Receiver.next
  split
  · exact Or.inr K
  · split
    · rename_i f _
      exact Or.inl ⟨f, rfl⟩
    · split <;> exact Or.inr K

theorem round_keeps (K : Keeps m.rx l) (hm : m.reading = .unpacking chunk offset cpcb) :
    ∃ l', run watch l (m.touches H .round) = some l' ∧
      Followed (Receiver.round H m.rx chunk offset cpcb) l' := by
  unfold Receiver.round Receiver.touches
  rw [hm]
  dsimp only
  cases h : tcpParsePkt H m.rx (chunk.drop offset.toNat) cpcb with
  | error f => exact ⟨l, rfl, Or.inl ⟨f, rfl⟩⟩
  | ok p =>
    obtain ⟨l', h1, K'⟩ := pkt_keeps K h
    exact ⟨l', h1, next_followed K' p.1⟩

/-- a step that stores something, or begins a round -/
theorem store_keeps (K : Keeps m.rx l) {a : ReadAct} (h : m.step H a = some m') (ha : a ≠ .round) :
    run watch l (m.touches H a) = some l ∧ Keeps m'.rx l := by
  cases a with
  | recv chunk =>
    refine ⟨K.uses [.rxBuffer] (by simp), ?_⟩
    unfold Receiver.step at h
    dsimp only at h
    split at h
    · split at h
      · cases h
        exact K
      · cases h
    · cases h
  | round => exact absurd rfl ha
  | cb n =>
    unfold Receiver.step at h
    dsimp only at h
    split at h
    · cases h
      exact ⟨rfl, K.congr rfl rfl rfl⟩
    · cases h
  | builder b =>
    cases h
    exact ⟨rfl, K.congr rfl rfl rfl⟩
  | parser p =>
    cases h
    exact ⟨rfl, K.congr rfl rfl rfl⟩
  | attr A =>
    cases h
    exact ⟨rfl, K.congr rfl rfl rfl⟩

/-- in a fault nothing is read any more -/
theorem fault_stays {f : Fault} (hf : m.reading = .fault f) {a : ReadAct} (h : m.step H a = some m') :
    m'.reading = .fault f ∧ m.touches H a = [] := by
  unfold Receiver.step at h
  unfold Receiver.touches
  rw [hf] at h ⊢
  cases a with
  | recv chunk => cases h
  | round => cases h
  | cb n =>
    dsimp only at h
    split at h
    · cases h
      exact ⟨rfl, rfl⟩
    · cases h
  | builder b =>
    cases h
    exact ⟨rfl, rfl⟩
  | parser p =>
    cases h
    exact ⟨rfl, rfl⟩
  | attr A =>
    cases h
    exact ⟨rfl, rfl⟩

theorem step_followed (a : ReadAct) (F : Followed m l) (h : m.step H a = some m') :
    ∃ l', run watch l (m.touches H a) = some l' ∧ Followed m' l' := by
  rcases F with ⟨f, hf⟩ | K
  · obtain ⟨h1, h2⟩ := fault_stays hf h
    rw [h2]
    exact ⟨l, rfl, Or.inl ⟨f, h1⟩⟩
  · by_cases ha : a = .round
    · subst ha
      unfold Receiver.step at h
      dsimp only at h
      split at h
      · rename_i chunk offset cpcb hm
        cases h
        exact round_keeps K hm
      · cases h
    · obtain ⟨h1, K'⟩ := store_keeps K h ha
      exact ⟨l, h1, Or.inr K'⟩

end

/-- both buffers are there, and no large block yet -/
def created : Block → Fate
  | .large _ => .fresh
  | _ => .held

theorem fresh_keeps (garbage : Bytes) (A : Attr) (t : Tst) :
    Keeps (Receiver.fresh garbage A t).rx created where
  packet := rfl
  rxBuffer := rfl
  fresh _ _ := rfl
  large _ := ⟨nofun, fun h => nomatch h.1⟩
  marked h := nomatch h

theorem run_created : run watch (unborn Block) [.take .packet, .take .rxBuffer] = some created := by
  rw [run_cons, watch_take rfl, Option.bind_some, run_cons, watch_take rfl]
  refine congrArg some (funext fun b => ?_)
  cases b <;> rfl

theorem blocks_nodup (rx : Rx) : rx.blocks.Nodup := by
  unfold Rx.blocks Rx.large
  split <;> simp

/-- the destructor frees what is held -/
theorem Keeps.blocks {rx : Rx} {l : Block → Fate} (K : Keeps rx l) (b : Block) :
    b ∈ rx.blocks ↔ l b = .held := by
  unfold Rx.blocks
  rw [List.mem_cons, List.mem_cons]
  cases b with
  | packet => simp [K.packet]
  | rxBuffer => simp [K.rxBuffer]
  | large k =>
    rw [K.large, ← K.marked_iff, or_iff_right nofun, or_iff_right nofun]
    split
    · rename_i hmk
      have hpos := (K.marked (K.marked_iff.mp hmk)).2
      rw [List.mem_singleton]
      unfold Rx.large
      rw [Block.large.injEq]
      exact ⟨fun h => ⟨hmk, by omega⟩, fun h => by omega⟩
    · rename_i hmk
      exact ⟨fun h => absurd h List.not_mem_nil, fun h => absurd h.1 hmk⟩

/-- **No block is used when it is freed, freed twice or lost**, whatever template and whatever attributes
are stored, and when: also between two parts of one large block. -/
theorem blocks_settled (H : Heap) (garbage : Bytes) (A : Attr) (t : Tst) (as : List ReadAct) (m : Receiver)
    (h : run (Receiver.step H) (Receiver.fresh garbage A t) as = some m)
    (hf : ∀ f, m.reading ≠ .fault f) :
    Settled (Receiver.memoryOfLink H (Receiver.fresh garbage A t) as m) := by
  obtain ⟨l, h1, F⟩ := run_watched (Receiver.step H) (R := Followed)
    (fun s a s' l F h => step_followed a F h) h (Or.inr (fresh_keeps garbage A t))
  rcases F with ⟨f, hm⟩ | K
  · exact absurd hm (hf f)
  obtain ⟨l', h2, h3, h4⟩ := run_drops (blocks_nodup m.rx) fun b hb => (K.blocks b).mp hb
  refine ⟨l', ?_, fun b => ?_⟩
  · unfold Receiver.memoryOfLink
    rw [run_append, run_created, Option.bind_some, run_append, h1, Option.bind_some]
    exact h2
  · by_cases hb : b ∈ m.rx.blocks
    · rw [h3 b hb]
      exact nofun
    · rw [h4 b hb]
      exact fun h => hb ((K.blocks b).mpr h)

/-- a large block is announced, and while it waits the template is taken away -/
def switchMidway : List ReadAct :=
  [.recv [0, 16, 1, 0, 7], .round, .cb 0, .recv [1, 2, 3], .round]

def Receiver.len4 : Receiver :=
  Receiver.fresh (List.replicate TCP_BUFFER_SIZE 0) Attr.clear Wire.len4.tst

theorem switchMidway_idle :
    ∃ m, run (Receiver.step Heap.zeros) Receiver.len4 switchMidway = some m ∧ m.reading = .idle := by
  have I := fresh_idle Wire.len4 Attr.clear (List.length_replicate (n := TCP_BUFFER_SIZE) (a := 0))
  obtain ⟨rx, _, h1, _⟩ := pkt_mark (H := Heap.zeros) (n := 69632) I
    (show [(0 : UInt8), 16, 1, 0, 7] ≠ [] from nofun) (by decide) (by decide) rfl (by decide) rfl
  have h2 : tcpParsePkt Heap.zeros Receiver.len4.rx ([0, 16, 1, 0, 7].drop (0 : Int).toNat) 5
      = .ok (0, rx) := h1
  have h3 : Receiver.step Heap.zeros ⟨Receiver.len4.rx, .unpacking [0, 16, 1, 0, 7] 0 5⟩ .round
      = some ⟨rx, .idle⟩ := congrArg some (round_some h2)
  have h4 : ∃ m, run (Receiver.step Heap.zeros) ⟨rx, .idle⟩ [.cb 0, .recv [1, 2, 3], .round] = some m ∧
      m.reading = .idle := ⟨_, rfl, rfl⟩
  unfold switchMidway
  rw [run_of_step (t := ⟨Receiver.len4.rx, .unpacking [0, 16, 1, 0, 7] 0 5⟩) _ _ rfl,
    run_of_step _ _ h3]
  exact h4

theorem blocks_settled_switchMidway :
    ∃ m, run (Receiver.step Heap.zeros) Receiver.len4 switchMidway = some m ∧
      Settled (Receiver.memoryOfLink Heap.zeros Receiver.len4 switchMidway m) := by
  obtain ⟨m, hm, hi⟩ := switchMidway_idle
  exact ⟨m, hm, blocks_settled _ _ _ _ _ m hm fun f hf => by
    rw [hi] at hf
    cases hf⟩

/-! ## between two packets every store is safe -/

/-- no byte of a packet is held -/
def Boundary (rx : Rx) : Prop := rx.ncb.tcp.rxParseOffset = 0 ∧ rx.ncb.tcp.lbdata = none

/-- a template without a parser, or with one that reads the header alone -/
def Sound (t : Tst) : Prop := t.cb_ = 0 ∨ t.parser_ = none ∨ ∃ W : Wire, W.tst = t

/-- what the user is to keep: only between two packets another header or parser is stored, and all the
stores are made before anything is unpacked -/
def Careful (m : Receiver) : ReadAct → Prop
  | .round => Sound m.rx.ncb.tcp.template
  | .cb _ | .parser _ => Boundary m.rx
  | _ => True

/-- what is left of the chunk -/
def Reading.Inside : Reading → Prop
  | .unpacking chunk offset cpcb => ∃ p : Nat, offset = p ∧ p < chunk.length ∧
      chunk.length ≤ TCP_BUFFER_SIZE ∧ cpcb = (chunk.length - p : Nat)
  | .fault _ => False
  | _ => True

/-- the packet buffer, and what is held of a packet -/
structure Ready (rx : Rx) : Prop where
  size : rx.ncb.packet.length = TCP_BUFFER_SIZE
  held : Boundary rx ∨ ∃ W, Inv W rx.ncb.attr rx

structure Safe (m : Receiver) : Prop where
  ready : m.reading ≠ .failed → Ready m.rx
  inside : m.reading.Inside

section
variable {H : Heap} {m m' : Receiver} {rx rx' : Rx} {data chunk : Bytes} {W : Wire} {A : Attr}

theorem Inv.size (I : Inv W A rx) : rx.ncb.packet.length = TCP_BUFFER_SIZE := by
  cases I with
  | idle I _ => exact I.size
  | big B => exact B.size

theorem Inv.attr (I : Inv W A rx) : rx.ncb.attr = A := by
  cases I with
  | idle I _ => exact I.attr
  | big B => exact B.attr

theorem Inv.ready (I : Inv W A rx) : Ready rx := ⟨I.size, Or.inr ⟨W, I.attr.symm ▸ I⟩⟩

/-- a sound template, either of the two kinds -/
theorem Ready.cases (R : Ready rx) (hS : Sound rx.ncb.tcp.template) :
    (Boundary rx ∧ (rx.ncb.tcp.template.cb_ = 0 ∨ rx.ncb.tcp.template.parser_ = none)) ∨
      ∃ W, Inv W rx.ncb.attr rx := by
  rcases R.held with hB | hI
  · rcases hS with h0 | h0 | ⟨W, hW⟩
    · exact Or.inl ⟨hB, Or.inl h0⟩
    · exact Or.inl ⟨hB, Or.inr h0⟩
    · have I : Idle W rx.ncb.attr rx [] := ⟨hW.symm, rfl, R.size, hB.2, hB.1, rfl⟩
      exact Or.inr ⟨W, .idle I (small_nil W)⟩
  · exact Or.inr hI

theorem pkt_direct (hB : Boundary rx)
    (h : rx.ncb.tcp.template.cb_ = 0 ∨ rx.ncb.tcp.template.parser_ = none) (hd : data ≠ []) :
    ∃ rx', tcpParsePkt H rx data data.length = .ok (0, rx') ∧ Boundary rx' ∧
      rx'.ncb.packet = rx.ncb.packet := by
  have h0 : ¬ (data.length : Int) = 0 := by
    have := List.length_pos_iff.mpr hd
    omega
  have hno : rx.ncb.tcp.template.cb_ = 0 ∨ rx.ncb.tcp.template.parser_.isNone = true :=
    h.imp_right fun h => Option.isNone_iff_eq_none.mpr h
  have hs : slice data 0 data.length = _ := slice_nat (p := 0) (n := data.length) (by omega)
  unfold tcpParsePkt
  dsimp only
  rw [if_neg h0, if_pos hno, ncbPostRecvdata, hs, ok_bind]
  exact ⟨_, rfl, ⟨rfl, hB.2⟩, rfl⟩

/-- one call of `tcp_parse_pkt`, as `pkt_inv` for a template that may have been changed before -/
theorem pkt_ready (R : Ready rx) (hS : Sound rx.ncb.tcp.template) (hd : data ≠ [])
    (hdl : data.length ≤ TCP_BUFFER_SIZE) :
    ∃ rx', tcpParsePkt H rx data data.length = .ok (-1, rx') ∨
      ∃ k : Nat, k < data.length ∧ tcpParsePkt H rx data data.length = .ok ((k : Int), rx') ∧
        Ready rx' := by
  have hpos := List.length_pos_iff.mpr hd
  rcases R.cases hS with ⟨hB, h0⟩ | ⟨W, I⟩
  · obtain ⟨rx', h1, hB', hp⟩ := pkt_direct (H := H) hB h0 hd
    exact ⟨rx', Or.inr ⟨0, hpos, h1, hp ▸ R.size, Or.inl hB'⟩⟩
  · obtain ⟨rx', h1 | ⟨k, hk, h1, I'⟩⟩ := pkt_inv (H := H) I hd hdl
    · exact ⟨rx', Or.inl h1⟩
    · exact ⟨rx', Or.inr ⟨k, hk, h1, I'.ready⟩⟩

theorem next_failed (offset cpcb : Int) : Receiver.next rx chunk offset cpcb (-1) = ⟨rx, .failed⟩ :=
  if_pos (by decide)

/-- the loop goes on with the rest of the chunk -/
theorem next_rest {p k : Nat} (hc : chunk.length ≤ TCP_BUFFER_SIZE) (hk : k < chunk.length - p) :
    Receiver.next rx chunk p (chunk.length - p : Nat) k = if 0 < k then
      ⟨rx, .unpacking chunk (chunk.length - k : Nat) k⟩ else ⟨rx, .idle⟩ := by
  unfold Receiver.next
  rw [if_neg (by omega), next_offset hc hk]
  dsimp only
  split
  · rw [if_pos (by omega)]
  · rw [if_neg (by omega)]

theorem round_safe {p : Nat} (R : Ready rx) (hS : Sound rx.ncb.tcp.template) (hp : p < chunk.length)
    (hc : chunk.length ≤ TCP_BUFFER_SIZE) :
    Safe (Receiver.round H rx chunk p (chunk.length - p : Nat)) := by
  have hlen : (chunk.drop p).length = chunk.length - p := List.length_drop
  have hne : chunk.drop p ≠ [] := List.ne_nil_of_length_pos (by omega)
  obtain ⟨rx', h⟩ := pkt_ready (H := H) R hS hne (by omega)
  have hp' : chunk.drop p = chunk.drop (p : Int).toNat := by rw [Int.toNat_natCast]
  rw [hlen, hp'] at h
  rcases h with h | ⟨k, hk, h, R'⟩
  · rw [round_some h, next_failed]
    exact ⟨fun h => absurd rfl h, trivial⟩
  · rw [round_some h, next_rest hc hk]
    split
    · exact ⟨fun _ => R', chunk.length - k, rfl, by omega, hc, by omega⟩
    · exact ⟨fun _ => R', trivial⟩

/-- a store of a header or of a parser, while nothing is held -/
theorem Safe.store (S : Safe m) (hB : Boundary m.rx) (t : Tst) :
    Safe { m with rx := m.rx.setTemplate t } :=
  ⟨fun h => ⟨(S.ready h).size, Or.inl hB⟩, S.inside⟩

/-- `builder_` is not read here -/
theorem Safe.builder (S : Safe m) (b : Option (Bytes → Int → Int × Bytes)) :
    Safe { m with rx := m.rx.setTemplate { m.rx.ncb.tcp.template with builder_ := b } } := by
  refine ⟨fun h => ⟨(S.ready h).size, ?_⟩, S.inside⟩
  rcases (S.ready h).held with hB | ⟨W, hI⟩
  · exact Or.inl hB
  · obtain ⟨p, hp, hloc⟩ := W.local_
    have hW : m.rx.ncb.tcp.template = W.tst := by
      cases hI with
      | idle I _ => exact I.tst
      | big B => exact B.tst
    refine Or.inr ⟨⟨{ m.rx.ncb.tcp.template with builder_ := b }, W.cb, W.parse, ?_, W.pos, W.le, p, ?_,
      hloc⟩, ?_⟩
    · rw [hW, W.cb_eq]
    · rw [hW, hp]
    · cases hI with
      | idle I S => exact .idle ⟨rfl, rfl, I.size, I.lb, I.off, I.held⟩ S
      | big B => exact .big ⟨rfl, rfl, B.size, B.blk, B.off, B.lboff, B.lbsize, B.pos, B.lt, B.le, B.big⟩

theorem Safe.attr (S : Safe m) (A : Attr) : Safe { m with rx := m.rx.setAttr A } := by
  refine ⟨fun h => ⟨(S.ready h).size, ?_⟩, S.inside⟩
  rcases (S.ready h).held with hB | ⟨W, hI⟩
  · exact Or.inl hB
  · refine Or.inr ⟨W, ?_⟩
    cases hI with
    | idle I S => exact .idle ⟨I.tst, rfl, I.size, I.lb, I.off, I.held⟩ S
    | big B => exact .big ⟨B.tst, rfl, B.size, B.blk, B.off, B.lboff, B.lbsize, B.pos, B.lt, B.le, B.big⟩

theorem step_safe (a : ReadAct) (S : Safe m) (hC : Careful m a) (h : m.step H a = some m') :
    Safe m' := by
  unfold Receiver.step at h
  cases a with
  | recv chunk =>
    dsimp only at h
    split at h
    · rename_i hm
      split at h
      · rename_i hlen
        cases h
        exact ⟨fun _ => S.ready (by rw [hm]; exact nofun), 0, rfl, hlen.1, hlen.2, rfl⟩
      · cases h
    · cases h
  | round =>
    dsimp only at h
    split at h
    · rename_i chunk offset cpcb hm
      have hin := S.inside
      rw [hm] at hin
      obtain ⟨p, rfl, hp, hc, rfl⟩ := hin
      cases h
      exact round_safe (S.ready (by rw [hm]; exact nofun)) hC hp hc
    · cases h
  | cb n =>
    dsimp only at h
    split at h
    · cases h
      exact S.store hC _
    · cases h
  | builder b =>
    cases h
    exact S.builder b
  | parser p =>
    cases h
    exact S.store hC _
  | attr A =>
    cases h
    exact S.attr A

end

/-- **Templates may be exchanged while a link reads**: as long as they are stored between two packets, no
chunk causes a fault, whatever it contains, and whatever the attributes are. -/
theorem stores_are_safe (H : Heap) (garbage : Bytes) (hg : garbage.length = TCP_BUFFER_SIZE) (A : Attr)
    (t : Tst) (as : List ReadAct)
    (hC : Meets (Receiver.step H) Careful (Receiver.fresh garbage A t) as) (m : Receiver)
    (h : run (Receiver.step H) (Receiver.fresh garbage A t) as = some m) :
    ∀ f, m.reading ≠ .fault f := by
  have S : Safe m := run_invariant_meets (Receiver.step H) (fun _ a _ S hC h => step_safe a S hC h) h hC
    ⟨fun _ => ⟨hg, Or.inl ⟨rfl, rfl⟩⟩, trivial⟩
  intro f hf
  have hin := S.inside
  rw [hf] at hin
  exact hin

/-- a packet is unpacked, and then the link is used without a template -/
def switchBetween : List ReadAct :=
  [.recv [1, 0, 0, 0, 9], .round, .cb 0, .recv [1, 2, 3], .round]

theorem switchBetween_careful : Meets (Receiver.step Heap.zeros) Careful Receiver.len4 switchBetween ∧
    ∃ m, run (Receiver.step Heap.zeros) Receiver.len4 switchBetween = some m := by
  have I := fresh_idle Wire.len4 Attr.clear (List.length_replicate (n := TCP_BUFFER_SIZE) (a := 0))
  obtain ⟨rx, h1, _, I'⟩ := pkt_done (H := Heap.zeros) (n := 1) I
    (show [(1 : UInt8), 0, 0, 0, 9] ≠ [] from nofun) (by decide) rfl (by decide) (by decide) (by decide)
  have h2 : tcpParsePkt Heap.zeros Receiver.len4.rx ([1, 0, 0, 0, 9].drop (0 : Int).toNat) 5
      = .ok (0, rx) := h1
  have h3 : Receiver.step Heap.zeros ⟨Receiver.len4.rx, .unpacking [1, 0, 0, 0, 9] 0 5⟩ .round
      = some ⟨rx, .idle⟩ := congrArg some (round_some h2)
  have h4 : Receiver.step Heap.zeros Receiver.len4 (.recv [1, 0, 0, 0, 9])
      = some ⟨Receiver.len4.rx, .unpacking [1, 0, 0, 0, 9] 0 5⟩ := rfl
  have hsound : Sound Wire.len4.tst := Or.inr (Or.inr ⟨Wire.len4, rfl⟩)
  constructor
  · exact meets_cons _ h4 trivial (meets_cons _ h3 hsound (meets_cons _ rfl ⟨I'.off, I'.lb⟩
      (meets_cons _ rfl trivial (meets_cons _ rfl (Or.inl rfl) trivial))))
  · have h5 : ∃ m, run (Receiver.step Heap.zeros) ⟨rx, .idle⟩ [.cb 0, .recv [1, 2, 3], .round] = some m :=
      ⟨_, rfl⟩
    unfold switchBetween
    rw [run_of_step _ _ h4, run_of_step _ _ h3]
    exact h5

theorem stores_are_safe_switchBetween :
    ∃ m, run (Receiver.step Heap.zeros) Receiver.len4 switchBetween = some m ∧
      ∀ f, m.reading ≠ .fault f := by
  obtain ⟨hC, m, hm⟩ := switchBetween_careful
  exact ⟨m, hm, stores_are_safe Heap.zeros _ List.length_replicate _ _ _ hC m hm⟩

/-- in the middle of a packet it may not be done: here the packet would be shorter than what is held of
it, and `memcpy` is asked for a negative number of bytes -/
example : (run (Receiver.step Heap.zeros) (Receiver.fresh (List.replicate 16 0) Attr.clear Wire.len4.tst)
    [.recv [9, 0, 0, 0, 1, 2, 3, 4, 5, 6], .round, .cb 4, .parser (some fun _ _ => some 1),
      .recv [0], .round]).map Receiver.reading = some (.fault .bounds) := rfl

end Swnet

import Swnet.Ncb

/-!
# Unpacking a TCP stream

`tcpal.c` and the receive half of `tcpio.c`, statement by statement: `tcpParseMarkedLb` fills a
large block, `tcpParsePkt` takes one step of unpacking, `tcpRxOnce` is one `recv(2)` with the loop
that unpacks it, and `tcpRx` reads until the socket is empty.
-/

namespace Swnet
open CMem

/-- `__tcp_parse_marked_lb` -/
def tcpParseMarkedLb (rx : Rx) (cpbuff : Bytes) (cpcb : Int) : C (Int × Rx) := do
  let tcp := rx.ncb.tcp
  let lb := tcp.lbdata.getD []
  let reach ← cint (cpcb + tcp.lboffset)
  if reach < tcp.lbsize then
    let lb' ← memcpy lb tcp.lboffset cpbuff cpcb
    let off ← cint (tcp.lboffset + cpcb)
    return (0, rx.setTcp { tcp with lbdata := some lb', lboffset := off })
  else
    let overplus ← cint (tcp.lbsize - tcp.lboffset)
    let lb' ← memcpy lb tcp.lboffset cpbuff overplus
    let rx' ← if rx.ncb.attr.fullyReceive then ncbPostRecvdata rx tcp.lbsize lb' 0
      else do
        let cb ← cint (tcp.lbsize - tcp.template.cb_)
        ncbPostRecvdata rx cb lb' tcp.template.cb_
    let r ← cint (cpcb - overplus)
    return (r, rx'.setTcp { tcp with lbdata := none, lboffset := 0, lbsize := 0 })

/-- `tcp_parse_pkt` from the call of `parser_` on: the header is in `packet`, `overplus` bytes at
`cpbuff` are not used yet, `data` and `cpcb` are the arguments of the call -/
def tcpParseBody (H : Heap) (rx : Rx) (data : Bytes) (cpcb : Int) (cpbuff : Bytes)
    (overplus : Int) : C (Int × Rx) :=
  let tcp := rx.ncb.tcp
  match tcp.template.parser_ with
  | none => .ok (-1, rx)
  | some parser_ =>
    match parser_ rx.ncb.packet tcp.rxParseOffset with
    | none => .ok (-1, rx)
    | some userDataSize =>
      if userDataSize > TCP_MAXIMUM_PACKET_SIZE ∨ userDataSize ≤ 0 then .ok (-1, rx)
      else do
        let total ← cint (userDataSize + tcp.template.cb_)
        if total > TCP_BUFFER_SIZE then
          match H.malloc rx.mallocs total.toNat with
          | none => return (-1, (rx.setTcp { tcp with lbdata := none }).malloced)
          | some lb =>
            -- the copy starts at `data`, whatever `packet` already holds
            let lb' ← memcpy lb 0 data cpcb
            return (0, (rx.setTcp ⟨0, some lb', cpcb, total, tcp.template⟩).malloced)
        else
          let reach ← cint (tcp.rxParseOffset + overplus)
          if reach ≥ total then
            let need ← cint (total - tcp.rxParseOffset)
            let packet' ← memcpy rx.ncb.packet tcp.rxParseOffset cpbuff need
            let retcb ← cint (overplus - need)
            let rx1 := rx.setPacket packet'
            let rx' ← if rx.ncb.attr.fullyReceive then ncbPostRecvdata rx1 total packet' 0
              else ncbPostRecvdata rx1 userDataSize packet' tcp.template.cb_
            return (retcb, rx'.setTcp { tcp with rxParseOffset := 0 })
          else
            let packet' ← memcpy rx.ncb.packet tcp.rxParseOffset cpbuff overplus
            return (0, (rx.setPacket packet').setTcp { tcp with rxParseOffset := reach })

/-- `tcp_parse_pkt` -/
def tcpParsePkt (H : Heap) (rx : Rx) (data : Bytes) (cpcb : Int) : C (Int × Rx) :=
  let tcp := rx.ncb.tcp
  if cpcb = 0 then .ok (-1, rx)
  else if tcp.template.cb_ = 0 ∨ tcp.template.parser_.isNone = true then do
    let rx' ← ncbPostRecvdata rx cpcb data 0
    return (0, rx'.setTcp { tcp with rxParseOffset := 0 })
  else if ncbLbMarked rx.ncb = true then tcpParseMarkedLb rx data cpcb
  else do
    let reach ← cint (tcp.rxParseOffset + cpcb)
    if reach < tcp.template.cb_ then
      let packet' ← memcpy rx.ncb.packet tcp.rxParseOffset data cpcb
      return (0, (rx.setPacket packet').setTcp { tcp with rxParseOffset := reach })
    else if tcp.rxParseOffset < tcp.template.cb_ then
      let used ← cint (tcp.template.cb_ - tcp.rxParseOffset)
      let overplus ← cint (cpcb - used)
      let packet' ← memcpy rx.ncb.packet tcp.rxParseOffset data used
      tcpParseBody H ((rx.setPacket packet').setTcp
        { tcp with rxParseOffset := tcp.template.cb_ }) data cpcb (data.drop used.toNat) overplus
    else tcpParseBody H rx data cpcb data cpcb

/-! ## receiving -/

/-- what `recv(2)` answers; `bytes []` is the return value zero -/
inductive Recv where
  | bytes (chunk : Bytes)
  | err (errno : Int)

/-- the do-while loop of `__tcp_rx` over the received chunk; the first argument bounds the number
of rounds -/
def rxLoop (H : Heap) : Nat → Rx → Bytes → Int → Int → C (Int × Rx)
  | 0, _, _, _, _ => .error .spin
  | k + 1, rx, chunk, offset, cpcb => do
    let p ← tcpParsePkt H rx (chunk.drop offset.toNat) cpcb
    if p.1 < 0 then return (-1, p.2)
    else
      let offset' ← cint (offset + (cpcb - p.1))
      if p.1 > 0 then rxLoop H k p.2 chunk offset' p.1
      else return (0, p.2)

/-- `__tcp_rx`, given the answer of `recv(2)` -/
def tcpRxOnce (H : Heap) (rx : Rx) : Recv → C (Int × Rx)
  | .bytes chunk =>
    if 0 < chunk.length then rxLoop H chunk.length rx chunk 0 chunk.length
    else .ok (-ECONNRESET, rx)
  | .err errno =>
    if errno = EINTR then .ok (0, rx)
    else if errno = EAGAIN then .ok (EAGAIN, rx)
    else .ok (-1, rx)

/-- `tcp_rx` against the answers of `recv(2)`; `none` when the loop asks for one more answer than
the list has -/
def tcpRx (H : Heap) : Rx → List Recv → C (Option (Int × Rx))
  | _, [] => .ok none
  | rx, r :: rs => do
    let p ← tcpRxOnce H rx r
    if p.1 = 0 then tcpRx H p.2 rs else return some p

/-- a sequence of chunks handed to `__tcp_rx` one after the other, up to the first fatal error -/
def rxChunks (H : Heap) : Rx → List Bytes → C (Int × Rx)
  | rx, [] => .ok (0, rx)
  | rx, c :: cs => do
    let p ← tcpRxOnce H rx (.bytes c)
    if p.1 < 0 then return p else rxChunks H p.2 cs

end Swnet

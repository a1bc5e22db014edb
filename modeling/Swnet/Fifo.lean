import Swnet.Epoll

/-!
# The send queue of a link

`fifo.c`.  A node is known by its number; what it holds is kept elsewhere.  Every function is one
critical section.

* `fifo_queue_spec`, `fifo_pop_spec`   what the two that change the queue can do;
* `Fifo.Ok`                            what they keep.
-/

namespace Swnet

abbrev MAXIMUM_FIFO_SIZE : Nat := 100

/-- `struct tx_fifo` -/
structure Fifo where
  blocking : Int
  size : Int
  head : List Nat
deriving DecidableEq, Repr

/-- `fifo_init` -/
def Fifo.init : Fifo := ⟨0, 0, []⟩

/-- `fifo_queue`; `e` is the error number of its `io_modify`, if it comes to that -/
def fifoQueue (fifo : Fifo) (sock : Sock) (node : Nat) (e : Nat) : Int × Fifo × Sock :=
  if fifo.size ≥ MAXIMUM_FIFO_SIZE then (-EBUSY, fifo, sock)
  else if fifo.blocking = 0 then
    let n := ioModify sock ⟨true, true⟩ e
    if n.1 < 0 then (n.1, fifo, n.2)
    else (fifo.size + 1, ⟨1, fifo.size + 1, fifo.head ++ [node]⟩, n.2)
  else (fifo.size + 1, { fifo with size := fifo.size + 1, head := fifo.head ++ [node] }, sock)

/-- `fifo_top` -/
def fifoTop (fifo : Fifo) : Option Nat := fifo.head.head?

/-- `fifo_pop`: the node that is taken out and freed, if there is one -/
def fifoPop (fifo : Fifo) (sock : Sock) (e : Nat) : Option Nat × Fifo × Sock :=
  match fifo.head with
  | [] => (none, fifo, sock)
  | front :: rest =>
    let remain := fifo.size - 1
    if remain = 0 ∧ fifo.blocking = 1 then
      (some front, ⟨0, remain, rest⟩, (ioModify sock ⟨true, false⟩ e).2)
    else (some front, { fifo with size := remain, head := rest }, sock)

/-- `fifo_is_blocking` -/
def fifoIsBlocking (fifo : Fifo) : Int := fifo.blocking

/-! ## what they keep -/

structure Fifo.Ok (fifo : Fifo) : Prop where
  size : fifo.size = fifo.head.length
  le : fifo.head.length ≤ MAXIMUM_FIFO_SIZE
  blocking : fifo.blocking = if fifo.head = [] then 0 else 1

theorem fifo_init_ok : Fifo.init.Ok := ⟨rfl, Nat.zero_le _, rfl⟩

section
variable {fifo fifo' : Fifo} {sock sock' : Sock} {node e : Nat} {r : Int}

theorem Fifo.Ok.blocking_zero (h : fifo.Ok) : fifo.blocking = 0 ↔ fifo.head = [] := by
  rw [h.blocking]
  by_cases hh : fifo.head = []
  · rw [if_pos hh]
    exact ⟨fun _ => hh, fun _ => rfl⟩
  · rw [if_neg hh]
    exact ⟨fun h1 => absurd h1 (by decide), fun h1 => absurd h1 hh⟩

/-- what `fifo_queue` can do: refuse and change nothing, or append the node -/
theorem fifo_queue_spec (h : fifo.Ok) (hq : fifoQueue fifo sock node e = (r, fifo', sock')) :
    (r < 0 ∧ fifo' = fifo ∧ sock' = sock ∧
        (fifo.head ≠ [] ∨ (fifo.head = [] ∧ e ≠ 0))) ∨
      (0 < r ∧ fifo'.Ok ∧ fifo'.head = fifo.head ++ [node] ∧
        ((fifo.head = [] ∧ e = 0 ∧ sock' = sock.arm ⟨true, true⟩) ∨
          (fifo.head ≠ [] ∧ sock' = sock))) := by
  unfold fifoQueue at hq
  have hsz := h.size
  have hmax : MAXIMUM_FIFO_SIZE = 100 := rfl
  by_cases hfull : fifo.size ≥ MAXIMUM_FIFO_SIZE
  · rw [if_pos hfull] at hq
    cases hq
    refine Or.inl ⟨by decide, rfl, rfl, Or.inl fun hh => ?_⟩
    rw [hh, List.length_nil] at hsz
    omega
  rw [if_neg hfull] at hq
  have hlen : (fifo.head ++ [node]).length = fifo.head.length + 1 := by
    rw [List.length_append, List.length_singleton]
  have hne : fifo.head ++ [node] ≠ [] := List.append_ne_nil_of_right_ne_nil _ (List.cons_ne_nil _ _)
  by_cases hb : fifo.blocking = 0
  · rw [if_pos hb] at hq
    have hh := h.blocking_zero.mp hb
    unfold ioModify at hq
    by_cases he : e = 0
    · rw [if_pos he] at hq
      dsimp only at hq
      rw [if_neg (Int.lt_irrefl 0)] at hq
      cases hq
      refine Or.inr ⟨by omega, ⟨?_, ?_, ?_⟩, rfl, Or.inl ⟨hh, he, rfl⟩⟩
      · show fifo.size + 1 = ((fifo.head ++ [node]).length : Int)
        rw [hlen, hsz, Int.natCast_succ]
      · show (fifo.head ++ [node]).length ≤ _
        rw [hlen]
        omega
      · exact (if_neg hne).symm
    · rw [if_neg he] at hq
      dsimp only at hq
      rw [if_pos (by omega)] at hq
      cases hq
      exact Or.inl ⟨by omega, rfl, rfl, Or.inr ⟨hh, he⟩⟩
  · rw [if_neg hb] at hq
    cases hq
    have hh : fifo.head ≠ [] := fun h0 => hb (h.blocking_zero.mpr h0)
    refine Or.inr ⟨by omega, ⟨?_, ?_, ?_⟩, rfl, Or.inr ⟨hh, rfl⟩⟩
    · show fifo.size + 1 = ((fifo.head ++ [node]).length : Int)
      rw [hlen, hsz, Int.natCast_succ]
    · show (fifo.head ++ [node]).length ≤ _
      rw [hlen]
      omega
    · show fifo.blocking = _
      rw [h.blocking, if_neg hh]
      exact (if_neg hne).symm

theorem fifo_pop_nil (hh : fifo.head = []) : fifoPop fifo sock e = (none, fifo, sock) := by
  unfold fifoPop
  rw [hh]

/-- what `fifo_pop` does to a queue that is not empty -/
theorem fifo_pop_spec (sock : Sock) (e : Nat) {front : Nat} {rest : List Nat} (h : fifo.Ok)
    (hh : fifo.head = front :: rest) :
    ∃ fifo' sock', fifoPop fifo sock e = (some front, fifo', sock') ∧ fifo'.Ok ∧ fifo'.head = rest ∧
      ((rest = [] ∧ sock' = (ioModify sock ⟨true, false⟩ e).2) ∨ (rest ≠ [] ∧ sock' = sock)) := by
  have hsz := h.size
  have hle := h.le
  have hb : fifo.blocking = 1 := by
    rw [h.blocking, hh]
    exact if_neg (List.cons_ne_nil _ _)
  rw [hh, List.length_cons] at hsz hle
  unfold fifoPop
  rw [hh]
  dsimp only
  by_cases hr : rest = []
  · subst hr
    rw [List.length_nil] at hsz
    rw [if_pos ⟨by omega, hb⟩]
    refine ⟨_, _, rfl, ⟨?_, Nat.zero_le _, rfl⟩, rfl, Or.inl ⟨rfl, rfl⟩⟩
    show fifo.size - 1 = ((0 : Nat) : Int)
    omega
  · have hpos := List.length_pos_iff.mpr hr
    rw [if_neg (by omega)]
    refine ⟨_, _, rfl, ⟨?_, ?_, ?_⟩, rfl, Or.inr ⟨hr, rfl⟩⟩
    · show fifo.size - 1 = (rest.length : Int)
      omega
    · show rest.length ≤ _
      omega
    · show fifo.blocking = if rest = [] then 0 else 1
      rw [hb, if_neg hr]

end

end Swnet

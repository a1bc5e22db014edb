import Swnet.Fifo
import Swnet.Lib.Clist
import Swnet.Lib.Runs

/-!
# The send queue as it is stored

`fifo.c` once more, on the links in memory; the list at its head is at address 0, and a node is known
by the address of its link.

* `TxFifo.fifoQueue`, `fifoTop`, `fifoPop`, `fifoIsBlocking`   the functions;
* `Stores f fifo`    the links are those of the queue `fifo`; each function does to the one what the
                     function of its name does to the other;
* `fifo_keeps`       what holds of a queue in every sequence of calls.
-/

namespace Swnet
open Clist Runs

/-- `struct tx_fifo` and the memory it is in -/
structure TxFifo where
  blocking : Int
  size : Int
  links : Links

namespace TxFifo

/-- `fifo_init` -/
def fifoInit (links : Links) : TxFifo := ⟨0, 0, links.init 0⟩

/-- `fifo_queue`; `e` is the error number of its `io_modify`, if it comes to that -/
def fifoQueue (f : TxFifo) (sock : Sock) (node : Nat) (e : Nat) : Int × TxFifo × Sock :=
  if f.size ≥ MAXIMUM_FIFO_SIZE then (-EBUSY, f, sock)
  else
    let links := f.links.addTail node 0
    if f.blocking = 0 then
      let n := ioModify sock ⟨true, true⟩ e
      if n.1 < 0 then (n.1, { f with links := links.unlink node }, n.2)
      else (f.size + 1, ⟨1, f.size + 1, links⟩, n.2)
    else (f.size + 1, { f with size := f.size + 1, links := links }, sock)

/-- `fifo_top` -/
def fifoTop (f : TxFifo) : Option Nat := f.links.first 0

/-- `fifo_pop`: the node that is taken out, if there is one; `none` if the assertion fails -/
def fifoPop (f : TxFifo) (sock : Sock) (e : Nat) : Option (Option Nat × TxFifo × Sock) :=
  match f.links.first 0 with
  | none => some (none, f, sock)
  | some front =>
    if f.size > 0 then
      let links := f.links.unlink front
      let remain := f.size - 1
      if remain = 0 ∧ f.blocking = 1 then
        some (some front, ⟨0, remain, links⟩, (ioModify sock ⟨true, false⟩ e).2)
      else some (some front, { f with size := remain, links := links }, sock)
    else none

/-- `fifo_is_blocking` -/
def fifoIsBlocking (f : TxFifo) : Int := f.blocking

end TxFifo

/-- the links in memory are those of the queue -/
structure Stores (f : TxFifo) (fifo : Fifo) : Prop where
  blocking : f.blocking = fifo.blocking
  size : f.size = fifo.size
  ring : Ring f.links 0 fifo.head

section
variable {f : TxFifo} {fifo : Fifo} {sock : Sock} {node e : Nat}

theorem stores_init (links : Links) : Stores (TxFifo.fifoInit links) Fifo.init :=
  ⟨rfl, rfl, ring_init links 0⟩

/-- a node that is taken out again at once leaves the list as it was -/
theorem addTail_unlink {m : Links} {xs : List Nat} (R : Ring m 0 xs) (hn : node ∉ 0 :: xs) :
    Ring ((m.addTail node 0).unlink node) 0 xs := by
  have h := @Ring.unlink _ 0 node xs [] (R.addTail hn)
  rw [List.append_nil] at h
  exact h.1

theorem stores_queue (sock : Sock) (e : Nat) (S : Stores f fifo) (hn : node ∉ 0 :: fifo.head) :
    ∃ f', f.fifoQueue sock node e
        = ((fifoQueue fifo sock node e).1, f', (fifoQueue fifo sock node e).2.2) ∧
      Stores f' (fifoQueue fifo sock node e).2.1 := by
  unfold TxFifo.fifoQueue fifoQueue
  rw [S.size, S.blocking]
  split
  · exact ⟨f, rfl, S⟩
  · dsimp only
    split
    · split
      · exact ⟨_, rfl, rfl, rfl, addTail_unlink S.ring hn⟩
      · exact ⟨_, rfl, rfl, rfl, S.ring.addTail hn⟩
    · exact ⟨_, rfl, rfl, rfl, S.ring.addTail hn⟩

theorem stores_top (S : Stores f fifo) : f.fifoTop = fifoTop fifo := S.ring.first

/-- the assertion of `fifo_pop` holds -/
theorem stores_pop (sock : Sock) (e : Nat) (S : Stores f fifo) (h : fifo.Ok) :
    ∃ f', f.fifoPop sock e = some ((fifoPop fifo sock e).1, f', (fifoPop fifo sock e).2.2) ∧
      Stores f' (fifoPop fifo sock e).2.1 := by
  unfold TxFifo.fifoPop fifoPop
  rw [S.ring.first]
  cases hh : fifo.head with
  | nil =>
    refine ⟨f, rfl, S⟩
  | cons front rest =>
    have hpos : f.size > 0 := by
      rw [S.size, h.size, hh, List.length_cons]
      omega
    have R := S.ring
    rw [hh] at R
    have R' := (@Ring.unlink f.links 0 front [] rest R).1
    dsimp only [List.head?_cons]
    rw [if_pos hpos, S.size, S.blocking]
    split
    · exact ⟨_, rfl, rfl, rfl, R'⟩
    · exact ⟨_, rfl, rfl, rfl, R'⟩

end

/-! ## every sequence of calls -/

/-- the queue of a link, its socket, and the nodes that were queued and that were popped so far -/
structure FifoRun where
  fifo : TxFifo
  sock : Sock
  queued : List Nat
  popped : List Nat

inductive FifoCall where
  | queue (node : Nat) (e : Nat)
  | top
  | pop (e : Nat)
  | isBlocking

namespace FifoRun

def init (links : Links) (sock : Sock) : FifoRun := ⟨TxFifo.fifoInit links, sock, [], []⟩

/-- the nodes that were queued and not popped -/
def waiting (s : FifoRun) : List Nat := s.queued.drop s.popped.length

/-- One call.  The node of a `fifo_queue` comes from `malloc`, so that it is none of those that wait. -/
def step (s : FifoRun) : FifoCall → Option FifoRun
  | .queue node e =>
    if node = 0 ∨ node ∈ s.waiting then none
    else
      let r := s.fifo.fifoQueue s.sock node e
      some { s with fifo := r.2.1, sock := r.2.2,
                    queued := if r.1 < 0 then s.queued else s.queued ++ [node] }
  | .top => some s
  | .pop e =>
    (s.fifo.fifoPop s.sock e).map fun r =>
      { s with fifo := r.2.1, sock := r.2.2, popped := s.popped ++ r.1.toList }
  | .isBlocking => some s

end FifoRun

/-- `f` with the nodes `xs`: the representation, and what each of the calls will do next -/
structure TxFifo.Kept (f : TxFifo) (sock : Sock) (xs : List Nat) : Prop where
  ring : Ring f.links 0 xs
  size : f.size = xs.length
  max : xs.length ≤ MAXIMUM_FIFO_SIZE
  blocking : f.fifoIsBlocking = if xs = [] then 0 else 1
  top : f.fifoTop = xs.head?
  /-- the assertion holds, and the node that goes is the one that `fifo_top` shows -/
  pop : ∀ e, ∃ f' sock', f.fifoPop sock e = some (f.fifoTop, f', sock') ∧ Ring f'.links 0 xs.tail
  /-- a node that is refused is not kept, and nothing else is changed -/
  refused : ∀ node e r f' sock', node ∉ 0 :: xs → f.fifoQueue sock node e = (r, f', sock') → r < 0 →
    f'.size = f.size ∧ f'.blocking = f.blocking ∧ Ring f'.links 0 xs
  accepted : ∀ node e r f' sock', node ∉ 0 :: xs → f.fifoQueue sock node e = (r, f', sock') → 0 ≤ r →
    r = f'.size ∧ Ring f'.links 0 (xs ++ [node])

/-- what went in is what came out and what waits -/
structure FifoRun.Ok (s : FifoRun) (fifo : Fifo) : Prop where
  stores : Stores s.fifo fifo
  ok : fifo.Ok
  order : s.popped ++ fifo.head = s.queued

section
variable {s s' : FifoRun} {fifo : Fifo} {c : FifoCall}

theorem FifoRun.Ok.waiting (h : s.Ok fifo) : s.waiting = fifo.head := by
  unfold FifoRun.waiting
  rw [← h.order, List.drop_left]

theorem fifo_queue_size {sock : Sock} {node e : Nat} : 0 ≤ (fifoQueue fifo sock node e).1 →
    (fifoQueue fifo sock node e).1 = (fifoQueue fifo sock node e).2.1.size := by
  unfold fifoQueue
  split
  · exact fun h => absurd h (show ¬ (0 : Int) ≤ -EBUSY by decide)
  · dsimp only
    split
    · split
      · exact fun h => by omega
      · exact fun _ => rfl
    · exact fun _ => rfl

/-- the queue behind a `fifo_queue` -/
theorem fifo_queue_ok (h : fifo.Ok) (sock : Sock) (node e : Nat) :
    (fifoQueue fifo sock node e).2.1.Ok ∧
      (fifoQueue fifo sock node e).2.1.head
        = if (fifoQueue fifo sock node e).1 < 0 then fifo.head else fifo.head ++ [node] := by
  rcases hq : fifoQueue fifo sock node e with ⟨r, fifo', sock'⟩
  rcases fifo_queue_spec h hq with ⟨h1, rfl, _, _⟩ | ⟨h1, h2, h3, _⟩
  · rw [if_pos h1]
    exact ⟨h, rfl⟩
  · rw [if_neg (by omega)]
    exact ⟨h2, h3⟩

/-- the queue behind a `fifo_pop` -/
theorem fifo_pop_ok (h : fifo.Ok) (sock : Sock) (e : Nat) :
    (fifoPop fifo sock e).1 = fifo.head.head? ∧ (fifoPop fifo sock e).2.1.Ok ∧
      (fifoPop fifo sock e).2.1.head = fifo.head.tail := by
  cases hh : fifo.head with
  | nil =>
    rw [fifo_pop_nil hh]
    exact ⟨rfl, h, hh⟩
  | cons front rest =>
    obtain ⟨fifo', sock', hp, ho, hr, _⟩ := fifo_pop_spec sock e h hh
    rw [hp]
    exact ⟨rfl, ho, hr⟩

theorem FifoRun.Ok.kept (h : s.Ok fifo) : s.fifo.Kept s.sock fifo.head where
  ring := h.stores.ring
  size := h.stores.size.trans h.ok.size
  max := h.ok.le
  blocking := h.stores.blocking.trans h.ok.blocking
  top := stores_top h.stores
  pop := by
    intro e
    obtain ⟨f', h1, h2⟩ := stores_pop s.sock e h.stores h.ok
    obtain ⟨h3, _, h4⟩ := fifo_pop_ok h.ok s.sock e
    refine ⟨f', (fifoPop fifo s.sock e).2.2, ?_, ?_⟩
    · rw [h1, h3, stores_top h.stores]
      rfl
    · rw [← h4]
      exact h2.ring
  refused := by
    intro node e r f' sock' hn hq hr
    obtain ⟨f1, h1, h2⟩ := stores_queue s.sock e h.stores hn
    rw [hq] at h1
    cases h1
    rcases hq' : fifoQueue fifo s.sock node e with ⟨r, fifo', sock'⟩
    rw [hq'] at hr h2
    rcases fifo_queue_spec h.ok hq' with ⟨_, rfl, _, _⟩ | ⟨h3, _⟩
    · exact ⟨h2.size.trans h.stores.size.symm, h2.blocking.trans h.stores.blocking.symm, h2.ring⟩
    · omega
  accepted := by
    intro node e r f' sock' hn hq hr
    obtain ⟨f1, h1, h2⟩ := stores_queue s.sock e h.stores hn
    rw [hq] at h1
    cases h1
    obtain ⟨_, h3⟩ := fifo_queue_ok h.ok s.sock node e
    rw [if_neg (by omega)] at h3
    refine ⟨(fifo_queue_size hr).trans h2.size.symm, ?_⟩
    rw [← h3]
    exact h2.ring

theorem fifo_step (h : s.Ok fifo) (hs : s.step c = some s') : ∃ fifo', s'.Ok fifo' := by
  cases c with
  | queue node e =>
    change (if node = 0 ∨ node ∈ s.waiting then none else _) = some s' at hs
    split at hs
    · cases hs
    · rename_i hfree
      rw [h.waiting, ← List.mem_cons] at hfree
      obtain ⟨f', h1, h2⟩ := stores_queue s.sock e h.stores hfree
      obtain ⟨h3, h4⟩ := fifo_queue_ok h.ok s.sock node e
      rw [h1] at hs
      cases hs
      refine ⟨_, h2, h3, ?_⟩
      dsimp only
      rw [h4]
      split
      · exact h.order
      · rw [← List.append_assoc, h.order]
  | top =>
    cases hs
    exact ⟨fifo, h⟩
  | pop e =>
    obtain ⟨f', h1, h2⟩ := stores_pop s.sock e h.stores h.ok
    obtain ⟨h3, h4, h5⟩ := fifo_pop_ok h.ok s.sock e
    change (s.fifo.fifoPop s.sock e).map _ = some s' at hs
    rw [h1] at hs
    cases hs
    refine ⟨_, h2, h4, ?_⟩
    dsimp only
    rw [h3, h5, List.append_assoc, ← h.order]
    cases fifo.head with
    | nil => rfl
    | cons front rest => rfl
  | isBlocking =>
    cases hs
    exact ⟨fifo, h⟩

end

/-- **The queue keeps its representation and its order**, in every sequence of calls and with every
answer of `io_modify`. -/
theorem fifo_keeps (links : Links) (sock : Sock) (cs : List FifoCall) (s : FifoRun)
    (h : run FifoRun.step (FifoRun.init links sock) cs = some s) :
    ∃ xs, s.popped ++ xs = s.queued ∧ s.fifo.Kept s.sock xs := by
  obtain ⟨fifo, hs⟩ := run_invariant FifoRun.step (I := fun s => ∃ fifo, s.Ok fifo)
    (fun _ _ _ hI hs => hI.elim fun _ hI => fifo_step hI hs) h
    ⟨Fifo.init, stores_init links, fifo_init_ok, rfl⟩
  exact ⟨fifo.head, hs.order, hs.kept⟩

/-- the first node is refused, and two others go through the queue -/
def threeNodes : List FifoCall :=
  [.queue 5 9, .queue 6 0, .isBlocking, .queue 7 0, .top, .pop 0, .pop 9, .pop 0]

theorem fifo_keeps_threeNodes : ∃ s,
    run FifoRun.step (FifoRun.init ⟨id, id⟩ Sock.established) threeNodes = some s ∧
      s.popped = [6, 7] ∧ ∃ xs, s.popped ++ xs = s.queued ∧ s.fifo.Kept s.sock xs :=
  ⟨_, rfl, rfl, fifo_keeps ⟨id, id⟩ Sock.established threeNodes _ rfl⟩

end Swnet

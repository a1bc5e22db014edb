import Swnet.Acts
import Swnet.Lib.Runs

/-!
# The write tasks of a pool

`wpool.c` while the pool is active: its thread takes a task, lets the link write, and puts the task back or
frees it; in between other threads queue tasks and packets.  A task is known by its number in the order of
allocation, and the send queue of a link is the list of the lengths of its packets.

* `Tasks.step`          the pool, its thread in steps, and the other threads;
* `Tasks.Owned`         every task is in the list, in execution, or freed, and in one place only;
* `tasksOwned_iff`      when that is so all along a run.
-/

namespace Swnet
open Runs

namespace Tasks

/-! ## the write routines -/

/-- what `ncb->ncb_write` is set to -/
inductive NcbWrite where
  | tcpTx
  | tcpTxSyn
  | udpTx
  | arpTx
deriving DecidableEq, Repr

/-- how the loop in `tcp_txn`, `udp_txn` or `arp_txn` ends -/
inductive Txn where
  | sent
  | again
  | failed
deriving DecidableEq, Repr

/-- how `tcp_tx_syn` ends -/
inductive SynOut where
  | connected
  | modifyFailed
  | already
  | again
  | refused
deriving DecidableEq, Repr

/-- the state in `TCP_INFO`, where it is to be had, and the ends of the routines -/
structure TxOut where
  ktcp : Option Nat
  txn : Txn
  syn : SynOut
deriving DecidableEq, Repr

/-- the answer of `tcp_txn` and its likes for a packet of `wcb` bytes; the loop is not entered where there
is nothing to send -/
def txn (wcb : Int) (o : Txn) : Int :=
  if wcb ≤ 0 then wcb
  else
    match o with
    | .sent => wcb
    | .again => -EAGAIN
    | .failed => -1

/-- `fifo_pop` -/
def fifoPop : List Int → Int × List Int
  | [] => (0, [])
  | _ :: rest => (1, rest)

/-- `tcp_tx`, which leaves the packet in the queue -/
def tcpTx (fifo : List Int) (o : TxOut) : Int × List Int :=
  if o.ktcp.any (· ≠ TCP_ESTABLISHED) then (-1, fifo)
  else
    match fifo with
    | [] => (0, [])
    | wcb :: _ => (txn wcb o.txn, fifo)

/-- `tcp_tx_syn` -/
def tcpTxSyn (fifo : List Int) (o : TxOut) : Int × List Int :=
  match o.syn with
  | .connected => (0, fifo)
  | .modifyFailed => (-1, fifo)
  | .already => (0, fifo)
  | .again => (-EAGAIN, fifo)
  | .refused => (-1, fifo)

/-- the body of `udp_tx` and of `arp_tx`, which take the packet out of the queue -/
def dgramTx (fifo : List Int) (o : TxOut) : Int × List Int :=
  match fifo with
  | [] => (0, [])
  | wcb :: _ =>
    let retval := txn wcb o.txn
    if retval > 0 then (retval, (fifoPop fifo).2) else (retval, fifo)

def udpTx : List Int → TxOut → Int × List Int := dgramTx
def arpTx : List Int → TxOut → Int × List Int := dgramTx

/-- `(*ncb_write)(ncb)`, with the queue behind it -/
def NcbWrite.call : NcbWrite → List Int → TxOut → Int × List Int
  | .tcpTx => Tasks.tcpTx
  | .tcpTxSyn => Tasks.tcpTxSyn
  | .udpTx => Tasks.udpTx
  | .arpTx => Tasks.arpTx

/-- the routines that take out the packet they have sent -/
def NcbWrite.Pops (f : NcbWrite) : Prop := f = .udpTx ∨ f = .arpTx

/-! ## the pool -/

/-- Where the thread of the pool is: in front of `__wp_get_task`, in front of `__wp_exec` with a task, in
`__wp_exec` behind `ncb_write`, or behind an `__wp_exec` that came not so far. -/
inductive WpRun where
  | idle
  | got (task : Nat)
  | wrote (task : Nat) (hld : Int) (f : NcbWrite) (retval : Int)
  | returned (task : Nat) (retval : Int)
deriving DecidableEq, Repr

/-- the task in execution -/
def WpRun.task? : WpRun → Option Nat
  | .idle => none
  | .got task => some task
  | .wrote task _ _ _ => some task
  | .returned task _ => some task

/-- what came of the last task: whether `__wp_exec` put it back, and whether `__wp_run` freed it -/
structure WpEnd where
  back : Bool
  freed : Bool
deriving DecidableEq, Repr

/-- The pool.  `next` tasks were allocated so far, and `freed` holds those that were freed, each time.
`ncb` is what `objrefr` finds, with the `ncb_write` of the link. -/
structure Wpool where
  tasks : List Nat
  taskListSize : Int
  next : Nat
  hldOf : Nat → Int
  freed : List Nat
  run : WpRun
  ended : Option WpEnd
  ncb : Int → Option (Option NcbWrite)
  fifo : Int → List Int

def start (ncb : Int → Option (Option NcbWrite)) (fifo : Int → List Int) : Wpool :=
  ⟨[], 0, 0, fun _ => -1, [], .idle, none, ncb, fifo⟩

/-- `__wp_add_task` -/
def wpAddTask (s : Wpool) (task : Nat) : Wpool :=
  { s with tasks := s.tasks ++ [task], taskListSize := s.taskListSize + 1 }

/-- `__wp_get_task` -/
def wpGetTask (s : Wpool) : Option Nat × Wpool :=
  match s.tasks with
  | [] => (none, s)
  | task :: rest => (some task, { s with tasks := rest, taskListSize := s.taskListSize - 1 })

/-- `wp_queued`, for a link whose pool this is -/
def wpQueued (s : Wpool) (hld : Int) (mem : Bool) : Int × Wpool :=
  if mem = false then (-ENOMEM, s)
  else
    let task := s.next
    (0, wpAddTask { s with next := s.next + 1, hldOf := Function.update s.hldOf task hld } task)

/-- `__wp_exec` up to the answer of `ncb_write` -/
def wpExecWrite (s : Wpool) (task : Nat) (o : TxOut) : Wpool :=
  let hld := s.hldOf task
  match s.ncb hld with
  | none => { s with run := .returned task (-ENOENT) }
  | some none => { s with run := .returned task (-1) }
  | some (some f) =>
    let r := f.call (s.fifo hld) o
    { s with
      run := .wrote task hld f r.1
      fifo := Function.update s.fifo hld r.2
      ncb := if f = .tcpTxSyn ∧ o.syn = .connected then
          Function.update s.ncb hld (some (some .tcpTx)) else s.ncb }

/-- `__wp_exec` from the answer of `ncb_write` on, with whether it puts the task back -/
def wpExecEnd (s : Wpool) (task : Nat) (hld retval : Int) : Wpool × Bool :=
  if retval = -1 then (s, false)
  else if retval = -EAGAIN then (s, false)
  else if retval = 0 then (s, false)
  else
    let p := fifoPop (s.fifo hld)
    let s' := { s with fifo := Function.update s.fifo hld p.2 }
    if p.1 > 0 then (wpAddTask s' task, true) else (s', false)

/-- `__wp_run` behind `__wp_exec` -/
def wpRunEnd (p : Wpool × Bool) (task : Nat) (retval : Int) : Wpool :=
  if retval ≤ 0 then
    { p.1 with freed := p.1.freed ++ [task], run := .idle, ended := some ⟨p.2, true⟩ }
  else { p.1 with run := .idle, ended := some ⟨p.2, false⟩ }

inductive Act where
  /-- another thread, in `wp_queued` -/
  | queued (hld : Int) (mem : Bool)
  /-- another thread, in `fifo_queue` -/
  | fifoQueue (hld wcb : Int)
  /-- a link comes, goes, or gets another `ncb_write` -/
  | link (hld : Int) (v : Option (Option NcbWrite))
  /-- `fifo_uninit`, for a link that is not in use -/
  | fifoUninit (hld : Int)
  /-- the steps of the thread -/
  | get
  | write (o : TxOut)
  | finish

/-- the link that the thread holds a reference of -/
def WpRun.hld? : WpRun → Option Int
  | .wrote _ hld _ _ => some hld
  | _ => none

def step (s : Wpool) : Act → Option Wpool
  | .queued hld mem => some (wpQueued s hld mem).2
  | .fifoQueue hld wcb => some { s with fifo := Function.update s.fifo hld (s.fifo hld ++ [wcb]) }
  | .link hld v => some { s with ncb := Function.update s.ncb hld v }
  | .fifoUninit hld =>
    if s.run.hld? = some hld then none else some { s with fifo := Function.update s.fifo hld [] }
  | .get =>
    match s.run, wpGetTask s with
    | .idle, (none, _) => some s
    | .idle, (some task, s') => some { s' with run := .got task }
    | _, _ => none
  | .write o =>
    match s.run with
    | .got task => some (wpExecWrite s task o)
    | _ => none
  | .finish =>
    match s.run with
    | .wrote task hld _ retval => some (wpRunEnd (wpExecEnd s task hld retval) task retval)
    | .returned task retval => some (wpRunEnd (s, false) task retval)
    | _ => none

/-! ## the owners of a task -/

/-- in how many places a task is -/
def owners (s : Wpool) (task : Nat) : Nat :=
  s.tasks.count task + s.run.task?.toList.count task + s.freed.count task

/-- Every task that was allocated has one owner.  What `__wp_exec` puts back is what `__wp_run` does not
free, and the counter is the length of the list. -/
structure Owned (s : Wpool) : Prop where
  one : ∀ task, owners s task = if task < s.next then 1 else 0
  ended : ∀ e, s.ended = some e → e.freed = !e.back
  size : s.taskListSize = s.tasks.length

/-- When `__wp_exec` has its answer: a datagram that was sent has another packet behind it in the queue,
and no packet of negative length was written. -/
def Keeps (s : Wpool) : Act → Prop
  | .finish => ∀ task hld f retval, s.run = .wrote task hld f retval →
      (0 < retval → f.Pops → s.fifo hld ≠ []) ∧
      (retval < 0 → retval = -1 ∨ retval = -EAGAIN)
  | _ => True

/-- What is known of the answer that the thread has in hand: one that makes `__wp_exec` pop a packet comes
with a packet in the queue, unless the routine has popped one itself. -/
def RunOk (s : Wpool) : Prop :=
  match s.run with
  | .wrote _ hld f retval =>
    retval ≠ 0 → retval ≠ -1 → retval ≠ -EAGAIN → (0 < retval ∧ f.Pops) ∨ s.fifo hld ≠ []
  | .returned _ retval => retval ≤ 0
  | _ => True

structure Inv (s : Wpool) : Prop where
  owned : Owned s
  run : RunOk s

/-! ## the steps -/

section
variable {s s' : Wpool}

theorem call_spec (f : NcbWrite) (fifo : List Int) (o : TxOut) (h0 : (f.call fifo o).1 ≠ 0)
    (h1 : (f.call fifo o).1 ≠ -1) (h2 : (f.call fifo o).1 ≠ -EAGAIN) :
    (0 < (f.call fifo o).1 ∧ f.Pops) ∨ (f.call fifo o).2 ≠ [] := by
  have hdgram : (dgramTx fifo o).1 ≠ 0 → 0 < (dgramTx fifo o).1 ∨ (dgramTx fifo o).2 ≠ [] := by
    intro h0
    unfold dgramTx at h0 ⊢
    cases fifo with
    | nil => exact absurd rfl h0
    | cons wcb rest =>
      dsimp only
      split
      · rename_i hpos
        exact .inl hpos
      · exact .inr (List.cons_ne_nil _ _)
  cases f with
  | tcpTx =>
    refine .inr ?_
    change (tcpTx fifo o).1 ≠ 0 at h0
    change (tcpTx fifo o).1 ≠ -1 at h1
    show (tcpTx fifo o).2 ≠ []
    unfold tcpTx at h0 h1 ⊢
    split
    · rename_i hk
      rw [if_pos hk] at h1
      exact absurd rfl h1
    · rename_i hk
      rw [if_neg hk] at h0
      cases fifo with
      | nil => exact absurd rfl h0
      | cons wcb rest => exact List.cons_ne_nil _ _
  | tcpTxSyn =>
    change (tcpTxSyn fifo o).1 ≠ 0 at h0
    change (tcpTxSyn fifo o).1 ≠ -1 at h1
    change (tcpTxSyn fifo o).1 ≠ -EAGAIN at h2
    unfold tcpTxSyn at h0 h1 h2
    cases hs : o.syn <;> rw [hs] at h0 h1 h2
    · exact absurd rfl h0
    · exact absurd rfl h1
    · exact absurd rfl h0
    · exact absurd rfl h2
    · exact absurd rfl h1
  | udpTx => exact (hdgram h0).imp (fun h => ⟨h, .inl rfl⟩) id
  | arpTx => exact (hdgram h0).imp (fun h => ⟨h, .inr rfl⟩) id

theorem start_inv (ncb : Int → Option (Option NcbWrite)) (fifo : Int → List Int) :
    Inv (start ncb fifo) :=
  ⟨⟨fun _ => rfl, fun _ h => (nomatch h), rfl⟩, trivial⟩

theorem count_one (a b : Nat) : [a].count b = if a = b then 1 else 0 := by
  rw [List.count_singleton]
  simp only [beq_iff_eq]

/-- a task that is put into the list has one more owner -/
theorem owners_add (s : Wpool) (task t : Nat) :
    owners (wpAddTask s task) t = owners s t + if task = t then 1 else 0 := by
  show (s.tasks ++ [task]).count t + s.run.task?.toList.count t + s.freed.count t
    = s.tasks.count t + s.run.task?.toList.count t + s.freed.count t + _
  rw [List.count_append, count_one]
  omega

theorem size_add (h : s.taskListSize = s.tasks.length) (task : Nat) :
    (wpAddTask s task).taskListSize = (wpAddTask s task).tasks.length := by
  show s.taskListSize + 1 = ((s.tasks ++ [task]).length : Int)
  rw [h, List.length_append]
  rfl

theorem queued_inv (hI : Inv s) (hld : Int) (mem : Bool) : Inv (wpQueued s hld mem).2 := by
  unfold wpQueued
  cases mem with
  | false => exact hI
  | true =>
    refine ⟨⟨fun task => ?_, hI.owned.ended, size_add hI.owned.size s.next⟩, hI.run⟩
    have hone := hI.owned.one task
    refine (owners_add _ s.next task).trans ?_
    show owners s task + (if s.next = task then 1 else 0) = if task < s.next + 1 then 1 else 0
    rw [hone]
    split_ifs <;> omega

/-- a step that leaves the tasks alone -/
theorem inv_of_same (hI : Inv s) {ncb : Int → Option (Option NcbWrite)} {fifo : Int → List Int}
    (hf : ∀ hld, s.run.hld? = some hld → s.fifo hld ≠ [] → fifo hld ≠ []) :
    Inv { s with ncb := ncb, fifo := fifo } := by
  refine ⟨⟨hI.owned.one, hI.owned.ended, hI.owned.size⟩, ?_⟩
  have hrun := hI.run
  unfold RunOk at hrun ⊢
  dsimp only
  cases hr : s.run with
  | idle => trivial
  | got task => trivial
  | returned task retval =>
    rw [hr] at hrun
    exact hrun
  | wrote task hld f retval =>
    rw [hr] at hrun
    exact fun h0 h1 h2 => (hrun h0 h1 h2).imp id (hf hld (by rw [hr]; rfl))

theorem get_inv (hI : Inv s) (hr : s.run = .idle) {task : Nat} {s1 : Wpool}
    (hg : wpGetTask s = (some task, s1)) : Inv { s1 with run := .got task } := by
  unfold wpGetTask at hg
  cases ht : s.tasks with
  | nil =>
    rw [ht] at hg
    exact nomatch hg
  | cons t rest =>
    rw [ht] at hg
    cases hg
    refine ⟨⟨fun t => ?_, hI.owned.ended, ?_⟩, trivial⟩
    · have hone := hI.owned.one t
      unfold owners at hone ⊢
      rw [ht, hr, List.count_cons] at hone
      show rest.count t + [task].count t + s.freed.count t = _
      rw [List.count_singleton]
      show rest.count t + _ + s.freed.count t = if t < s.next then 1 else 0
      have hnil : WpRun.idle.task?.toList.count t = 0 := rfl
      omega
    · have hsize := hI.owned.size
      rw [ht, List.length_cons] at hsize
      show s.taskListSize - 1 = (rest.length : Int)
      omega

theorem write_inv (hI : Inv s) {task : Nat} (hr : s.run = .got task) (o : TxOut) :
    Inv (wpExecWrite s task o) := by
  have hone : ∀ run : WpRun, run.task? = some task → ∀ t,
      s.tasks.count t + run.task?.toList.count t + s.freed.count t = if t < s.next then 1 else 0 := by
    intro run hrun t
    have h := hI.owned.one t
    unfold owners at h
    rw [hr] at h
    rw [hrun]
    exact h
  unfold wpExecWrite
  dsimp only
  cases hn : s.ncb (s.hldOf task) with
  | none => exact ⟨⟨hone _ rfl, hI.owned.ended, hI.owned.size⟩, (by decide : -ENOENT ≤ 0)⟩
  | some w =>
    cases w with
    | none => exact ⟨⟨hone _ rfl, hI.owned.ended, hI.owned.size⟩, (by decide : (-1 : Int) ≤ 0)⟩
    | some f =>
      refine ⟨⟨hone _ rfl, hI.owned.ended, hI.owned.size⟩, fun h0 h1 h2 => ?_⟩
      refine (call_spec f _ o h0 h1 h2).imp id fun hne => ?_
      show Function.update s.fifo (s.hldOf task) _ (s.hldOf task) ≠ []
      rw [Function.update_self]
      exact hne

/-- what the thread knows of the queue behind `ncb_write` -/
theorem Inv.wrote (hI : Inv s) {task : Nat} {hld retval : Int} {f : NcbWrite}
    (hr : s.run = .wrote task hld f retval) (h0 : retval ≠ 0) (h1 : retval ≠ -1)
    (h2 : retval ≠ -EAGAIN) : 0 < retval ∧ f.Pops ∨ s.fifo hld ≠ [] := by
  have hrun := hI.run
  unfold RunOk at hrun
  rw [hr] at hrun
  exact hrun h0 h1 h2

/-- where the thread is does not matter to the list, nor to what was freed -/
theorem owners_run {task : Nat} (hr : s.run.task? = some task) (t : Nat) :
    owners s t = s.tasks.count t + (if task = t then 1 else 0) + s.freed.count t := by
  unfold owners
  rw [hr]
  show _ + [task].count t + _ = _
  rw [count_one]

/-- a task that is not put back, and freed -/
theorem freed_inv (hI : Inv s) {task : Nat} (hr : s.run.task? = some task) {retval : Int}
    (h : retval ≤ 0) : Inv (wpRunEnd (s, false) task retval) := by
  unfold wpRunEnd
  rw [if_pos h]
  refine ⟨⟨fun t => ?_, fun e he => ?_, hI.owned.size⟩, trivial⟩
  · have hone := hI.owned.one t
    rw [owners_run hr] at hone
    show s.tasks.count t + 0 + (s.freed ++ [task]).count t = if t < s.next then 1 else 0
    rw [List.count_append, count_one]
    omega
  · cases he
    rfl

/-- a task that is put back, and not freed -/
theorem back_inv (hI : Inv s) {task : Nat} (hr : s.run.task? = some task) {retval : Int}
    (h : 0 < retval) (fifo : Int → List Int) :
    Inv (wpRunEnd (wpAddTask { s with fifo := fifo } task, true) task retval) := by
  unfold wpRunEnd
  rw [if_neg (by omega)]
  refine ⟨⟨fun t => ?_, fun e he => ?_, size_add hI.owned.size task⟩, trivial⟩
  · have hone := hI.owned.one t
    rw [owners_run hr] at hone
    show (s.tasks ++ [task]).count t + 0 + s.freed.count t = if t < s.next then 1 else 0
    rw [List.count_append, count_one]
    omega
  · cases he
    rfl

/-- What `__wp_exec` does with an answer that makes it pop a packet, and finds one. -/
theorem execEnd_next {task : Nat} {hld retval : Int} (h0 : retval ≠ 0) (h1 : retval ≠ -1)
    (h2 : retval ≠ -EAGAIN) {wcb : Int} {rest : List Int} (hq : s.fifo hld = wcb :: rest) :
    wpExecEnd s task hld retval
      = (wpAddTask { s with fifo := Function.update s.fifo hld rest } task, true) := by
  unfold wpExecEnd
  rw [if_neg h1, if_neg h2, if_neg h0, hq]
  rfl

/-- and finds none -/
theorem execEnd_empty {task : Nat} {hld retval : Int} (h0 : retval ≠ 0) (h1 : retval ≠ -1)
    (h2 : retval ≠ -EAGAIN) (hq : s.fifo hld = []) :
    wpExecEnd s task hld retval = ({ s with fifo := Function.update s.fifo hld [] }, false) := by
  unfold wpExecEnd
  rw [if_neg h1, if_neg h2, if_neg h0, hq]
  rfl

/-- the answers with which it pops none -/
theorem execEnd_stays {task : Nat} {hld retval : Int}
    (h : retval = 0 ∨ retval = -1 ∨ retval = -EAGAIN) :
    wpExecEnd s task hld retval = (s, false) ∧ retval ≤ 0 := by
  unfold wpExecEnd
  obtain rfl | rfl | rfl := h
  · exact ⟨rfl, by decide⟩
  · exact ⟨rfl, by decide⟩
  · exact ⟨rfl, by decide⟩

theorem wrote_inv (hI : Inv s) {task : Nat} {hld retval : Int} {f : NcbWrite}
    (hr : s.run = .wrote task hld f retval)
    (hC : (0 < retval → f.Pops → s.fifo hld ≠ []) ∧ (retval < 0 → retval = -1 ∨ retval = -EAGAIN)) :
    Inv (wpRunEnd (wpExecEnd s task hld retval) task retval) := by
  have htask : s.run.task? = some task := by rw [hr]; rfl
  by_cases hstay : retval = 0 ∨ retval = -1 ∨ retval = -EAGAIN
  · obtain ⟨he, hle⟩ := @execEnd_stays s task hld retval hstay
    rw [he]
    exact freed_inv hI htask hle
  · obtain ⟨h0, h1⟩ := not_or.mp hstay
    obtain ⟨h1, h2⟩ := not_or.mp h1
    have hpos : 0 < retval := by
      have := hC.2
      omega
    have hne : s.fifo hld ≠ [] := (hI.wrote hr h0 h1 h2).elim (fun h => hC.1 h.1 h.2) id
    obtain ⟨wcb, rest, hq⟩ := List.exists_cons_of_ne_nil hne
    rw [execEnd_next h0 h1 h2 hq]
    exact back_inv hI htask hpos _

theorem step_inv {a : Act} (hI : Inv s) (hC : Keeps s a) (h : step s a = some s') : Inv s' := by
  cases a with
  | queued hld mem =>
    cases h
    exact queued_inv hI hld mem
  | fifoQueue hld wcb =>
    cases h
    refine inv_of_same hI fun k _ hne => ?_
    by_cases hk : k = hld
    · subst hk
      rw [Function.update_self]
      exact List.append_ne_nil_of_left_ne_nil hne _
    · rwa [Function.update_of_ne hk]
  | link hld v =>
    cases h
    exact inv_of_same hI fun _ _ hne => hne
  | fifoUninit hld =>
    obtain ⟨hne, h⟩ := Option.ite_none_left_eq_some.mp h
    cases h
    refine inv_of_same hI fun k hk hq => ?_
    have hkh : k ≠ hld := fun hkh => hne (hkh ▸ hk)
    rwa [Function.update_of_ne hkh]
  | get =>
    simp only [step] at h
    split at h
    · cases h
      exact hI
    · rename_i hr hg
      cases h
      exact get_inv hI hr hg
    · exact nomatch h
  | write o =>
    simp only [step] at h
    split at h
    · rename_i hr
      cases h
      exact write_inv hI hr o
    · exact nomatch h
  | finish =>
    simp only [step] at h
    split at h
    · rename_i task hld f retval hr
      cases h
      exact wrote_inv hI hr (hC task hld f retval hr)
    · rename_i task retval hr
      cases h
      have hrun := hI.run
      unfold RunOk at hrun
      rw [hr] at hrun
      exact freed_inv hI (by rw [hr]; rfl) hrun
    · exact nomatch h

/-- A step that does not meet the condition loses its task, or puts it back and frees it. -/
theorem not_owned {a : Act} (hI : Inv s) (hC : ¬ Keeps s a) (h : step s a = some s') :
    ¬ Owned s' := by
  cases a with
  | finish =>
    simp only [Keeps, not_forall] at hC
    obtain ⟨task, hld, f, retval, hr, hbad⟩ := hC
    simp only [step, hr, Option.some.injEq] at h
    subst h
    intro hO
    obtain hbad | hbad := not_and_or.mp hbad
    -- the packet was sent, and there is no other one
    · simp only [Classical.not_imp, not_not] at hbad
      obtain ⟨hpos, -, hnil⟩ := hbad
      have h2 : retval ≠ -EAGAIN := by unfold EAGAIN; omega
      rw [execEnd_empty (by omega) (by omega) h2 hnil] at hO
      unfold wpRunEnd at hO
      rw [if_neg (by omega)] at hO
      exact nomatch hO.ended _ rfl
    -- a negative length, and its packet is still there
    · simp only [Classical.not_imp, not_or] at hbad
      obtain ⟨hneg, h1, h2⟩ := hbad
      have hne : s.fifo hld ≠ [] :=
        (hI.wrote hr (by omega) h1 h2).elim (fun h => absurd h.1 (by omega)) id
      obtain ⟨wcb, rest, hq⟩ := List.exists_cons_of_ne_nil hne
      rw [execEnd_next (by omega) h1 h2 hq] at hO
      unfold wpRunEnd at hO
      rw [if_pos (by omega)] at hO
      exact nomatch hO.ended _ rfl
  | queued hld mem => exact absurd trivial hC
  | fifoQueue hld wcb => exact absurd trivial hC
  | link hld v => exact absurd trivial hC
  | fifoUninit hld => exact absurd trivial hC
  | get => exact absurd trivial hC
  | write o => exact absurd trivial hC

end

end Tasks

/-- In a run of the pool every task has exactly one owner all along if and only if every `__wp_exec` that
comes behind a datagram finds one more packet to pop, and no packet of negative length is written. -/
theorem tasksOwned_iff (ncb : Int → Option (Option Tasks.NcbWrite)) (fifo : Int → List Int)
    (as : List Tasks.Act) {s : Tasks.Wpool}
    (h : run Tasks.step (Tasks.start ncb fifo) as = some s) :
    Meets Tasks.step Tasks.Keeps (Tasks.start ncb fifo) as ↔
      ∀ bs, bs <+: as → ∀ u, run Tasks.step (Tasks.start ncb fifo) bs = some u → Tasks.Owned u :=
  meets_iff Tasks.step (I := Tasks.Inv) (D := fun _ _ => True)
    (fun _ _ _ hI _ hC hs => Tasks.step_inv hI hC hs) (fun _ hI => hI.owned)
    (fun _ _ _ hI hC hs => Tasks.not_owned hI hC hs) h (meets_all _ fun _ _ => trivial)
    (Tasks.start_inv ncb fifo)

/-- a TCP link that sends its one packet -/
theorem tasksOwned_iff_tcp :
    ∃ s, run Tasks.step (Tasks.start (fun _ => some (some .tcpTx)) fun _ => [10])
      [.queued 7 true, .get, .write ⟨some TCP_ESTABLISHED, .sent, .connected⟩, .finish] = some s ∧
      s.tasks = [0] ∧ s.freed = [] ∧ Tasks.Owned s := by
  have h : run Tasks.step (Tasks.start (fun _ => some (some .tcpTx)) fun _ => [10])
      [.queued 7 true, .get, .write ⟨some TCP_ESTABLISHED, .sent, .connected⟩, .finish] = some _ := rfl
  refine ⟨_, h, rfl, rfl, (tasksOwned_iff _ _ _ h).mp ?_ _ (List.prefix_refl _) _ h⟩
  refine ⟨trivial, fun s1 h1 => ⟨trivial, fun s2 h2 => ⟨trivial, fun s3 h3 => ?_⟩⟩⟩
  refine ⟨?_, fun _ _ => trivial⟩
  cases h1
  cases h2
  cases h3
  intro task hld f retval hr
  cases hr
  exact ⟨fun _ hp => hp.elim nofun nofun, fun hneg => absurd hneg (by decide)⟩

/-- a UDP link that sends its one packet: the task is lost -/
theorem task_lost :
    ∃ s, run Tasks.step (Tasks.start (fun _ => some (some .udpTx)) fun _ => [10])
      [.queued 7 true, .get, .write ⟨none, .sent, .connected⟩, .finish] = some s ∧
      s.next = 1 ∧ s.tasks = [] ∧ s.run = .idle ∧ s.freed = [] ∧ ¬ Tasks.Owned s := by
  refine ⟨_, rfl, rfl, rfl, rfl, rfl, fun hO => ?_⟩
  exact absurd (hO.one 0) (by decide)

end Swnet

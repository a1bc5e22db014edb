import Swnet.Lib.Lifetime
import Swnet.Startup

/-!
# The reactor

`io_init`, `__io_init`, `__epoll_proc`, `io_uninit` and `__io_uninit` beside each other and beside the
calls of `io_attach`: any number of threads, and the threads of the divisions, of which each one may be in
any of these calls too.  `objallo` gives each block a handle of its own; `objrefr` fails once closing was
requested, and the destructor is run by the thread whose `objclos` or `objdefr` leaves no reference behind
the request.

* `Block`             a block with its divisions, its references and its destructor;
* `Sys.step`          what a thread does next;
* `Sys.touches`       the arrays, epoll instances and threads that a step takes, uses and gives back;
* `Block.Ok`          how a block is, whether it is set up, serves or is torn down;
* `malloc_spec`, `create_spec`, `turn_uses`, `destroy_spec`   what each step makes of it.
-/

namespace Swnet
open Runs Lifetime

namespace Reactor

/-! ## one block -/

/-- the field `epfd`: as `malloc` left it, -1, or a number -/
inductive Fd where
  | junk
  | invalid
  | fd (e : Nat)
deriving DecidableEq, Repr

/-- where the thread of a division is in `__epoll_proc` -/
inductive Loop where
  | absent
  /-- in front of its first message -/
  | start
  /-- in front of `while (YES == epoptr->actived)` -/
  | test
  /-- in `epoll_wait(2)` -/
  | wait
  /-- in `__iorun` -/
  | serve
  /-- in front of its last message -/
  | leave
  | exited
  | joined
deriving DecidableEq, Repr

/-- `struct epoll_object_block` with its thread; in `actived`, `none` is what `malloc` left there -/
structure Entry where
  epfd : Fd
  actived : Option Bool
  loop : Loop
deriving DecidableEq, Repr

def Entry.blank : Entry := ⟨.junk, none, .absent⟩

/-- for the object manager: a block that can be referenced, one that is ordered closed, and one that is
destroyed -/
inductive Stat where
  | live
  | closing
  | gone
deriving DecidableEq, Repr

/-- where `__io_uninit` is: in front of the test of `actived`, of the join and of the test of `epfd` of a
division, of its `free`, and of its last two assignments -/
inductive Dtor where
  | stop (j : Nat)
  | join (j : Nat)
  | close (j : Nat)
  | free
  | slots
  | done
deriving DecidableEq, Repr

/-- `struct io_object_block` with what the object manager and the kernel know -/
structure Block where
  refs : Nat
  stat : Stat
  divisions : Nat
  epoptr : Bool
  entry : Nat → Entry
  dtor : Option Dtor

/-- an object as `objallo` gives it, with a number in the field `divisions` -/
def Block.new (divisions : Nat) : Block := ⟨0, .live, divisions, false, fun _ => .blank, none⟩

/-- what `epoll_wait(2)` comes to -/
inductive Woken where
  /-- the time is over, or a signal came -/
  | again
  | events
  | failed
deriving DecidableEq, Repr

/-- the divisions for `n` processors -/
def nprocs (p : Ipproto) (n : Nat) : Nat :=
  max 1 (match p with
    | .tcp => n
    | .udp => n / 2)

namespace Block

def setEntry (b : Block) (j : Nat) (e : Entry) : Block := { b with entry := Function.update b.entry j e }

def setLoop (b : Block) (j : Nat) (l : Loop) : Block := b.setEntry j { b.entry j with loop := l }

/-- `__io_init` up to its first loop -/
def malloc (b : Block) (d : Nat) (ok : Bool) : Block :=
  if ok then { b with divisions := d, epoptr := true, entry := fun _ => .blank }
  else { b with divisions := d, epoptr := false }

/-- one round of its first loop: `epfd` is the answer of `epoll_create(2)`, `thread` that of
`posix__pthread_create` -/
def create (b : Block) (j : Nat) (epfd : Option Nat) (thread : Bool) : Block :=
  b.setEntry j (match epfd with
    | none => ⟨.invalid, none, .absent⟩
    | some e => if thread then ⟨.fd e, some true, .start⟩ else ⟨.invalid, some false, .absent⟩)

/-- `__epoll_proc` -/
def turn (b : Block) (j : Nat) (r : Woken) : Option Block :=
  match (b.entry j).loop with
  | .start => some (b.setLoop j .test)
  | .test => some (b.setLoop j (if (b.entry j).actived = some true then .wait else .leave))
  | .wait =>
    match r with
    | .again => some (b.setLoop j .test)
    | .events => some (b.setLoop j .serve)
    | .failed => some (b.setLoop j .leave)
  | .serve => some (b.setLoop j .test)
  | .leave => some (b.setLoop j .exited)
  | _ => none

/-- where `__io_uninit` begins, and where it goes on behind a division -/
def next (b : Block) (j : Nat) : Dtor := if j < b.divisions then .stop j else .free

/-- The next step of `__io_uninit`.  `self` is the division whose thread runs it, if any: a thread that
joins itself is told so at once.  `junk`: whether what `malloc` left in `actived` is `YES`. -/
def destroy (b : Block) (self : Option Nat) (junk : Bool) : Option Block :=
  match b.dtor with
  | none => none
  | some (.stop j) =>
    if (b.entry j).actived.getD junk then
      some { b.setEntry j { b.entry j with actived := some false } with dtor := some (.join j) }
    else some { b with dtor := some (.close j) }
  | some (.join j) =>
    if (b.entry j).loop = .exited then some { b.setLoop j .joined with dtor := some (.close j) }
    else if self = some j ∨ (b.entry j).loop = .absent ∨ (b.entry j).loop = .joined then
      some { b with dtor := some (.close j) }
    else none
  | some (.close j) =>
    match (b.entry j).epfd with
    | .fd (_ + 1) =>
      some { b.setEntry j { b.entry j with epfd := .invalid } with dtor := some (b.next (j + 1)) }
    | _ => some { b with dtor := some (b.next (j + 1)) }
  | some .free => some { b with epoptr := false, dtor := some .slots }
  | some .slots => some { b with dtor := some .done }
  | some .done => none

/-- the destructor is going to run -/
def doom (b : Block) : Block := { b with stat := .gone, dtor := some (b.next 0) }

/-- `objclos` -/
def objclos (b : Block) : Block :=
  if b.stat = .live then if b.refs = 0 then b.doom else { b with stat := .closing } else b

/-- `objdefr` -/
def objdefr (b : Block) : Block :=
  if b.stat = .closing ∧ b.refs = 1 then { b with refs := 0 }.doom else { b with refs := b.refs - 1 }

end Block

/-! ## the system -/

/-- a thread of the application or of a pool, or that of a division of a block -/
inductive Who where
  | user (i : Nat)
  | epoll (h j : Nat)
deriving DecidableEq, Repr

/-- where a thread is in a call -/
inductive Pc where
  | idle
  /-- in `io_init`, in front of `objallo` -/
  | allo (p : Ipproto)
  /-- in front of the compare and swap, and in front of `objclos` if it failed -/
  | cas (p : Ipproto) (h : Nat)
  | lost (h : Nat)
  /-- in front of the read of `*hldptr`, and of `objrefr` on what it found -/
  | find (p : Ipproto) (h : Nat)
  | refer (p : Ipproto) (h v : Nat)
  /-- in `__io_init`: in front of `malloc`, of a round of the first loop, and in the second loop -/
  | malloc (p : Ipproto) (v : Nat)
  | make (p : Ipproto) (v i : Nat)
  | pipes (p : Ipproto) (v : Nat)
  /-- in front of the read in `objdefr(*hldptr)` -/
  | ret (p : Ipproto) (v : Nat)
  /-- in `io_uninit`, in front of the read in `objclos(*hldptr)`, and of `objclos` on what it found -/
  | look (p : Ipproto)
  | clos (v : Nat)
  /-- in `io_attach`, in front of `objrefr`, and of `epoll_ctl(2)` -/
  | aref (v : Nat)
  | ctl (v : Nat)
  /-- in front of `objdefr` -/
  | defr (v : Nat)
  /-- in `__io_uninit` -/
  | dtor (h : Nat)
deriving DecidableEq, Repr

/-- `links` are the divisions that `io_attach` has put links and pipes into -/
structure Sys where
  slot : Ipproto → Int
  block : Nat → Block
  count : Nat
  pc : Who → Pc
  links : List (Nat × Nat)

inductive Act where
  | init (w : Who) (p : Ipproto)
  /-- `divisions` is what the new object has there -/
  | allo (w : Who) (ok : Bool) (divisions : Nat)
  | cas (w : Who)
  | find (w : Who)
  | refer (w : Who)
  | malloc (w : Who) (procs : Nat) (ok : Bool)
  | create (w : Who) (epfd : Option Nat) (thread : Bool)
  /-- `io_attach` in `pipe_create`, for a pipe with the handle `k` -/
  | pipe (w : Who) (k : Nat) (ok : Bool)
  /-- the second loop is over -/
  | piped (w : Who)
  | ret (w : Who)
  | uninit (w : Who) (p : Ipproto)
  | look (w : Who)
  | clos (w : Who)
  | attach (w : Who) (p : Ipproto)
  | aref (w : Who)
  /-- for a link with the handle `k` -/
  | ctl (w : Who) (k : Nat) (ok : Bool)
  | defr (w : Who)
  | dtor (w : Who) (junk : Bool)
  | turn (h j : Nat) (r : Woken)
  /-- `io_modify` or `io_detach` of a link, by any thread -/
  | modify (h j : Nat)
deriving DecidableEq

namespace Sys

def init : Sys := ⟨fun _ => -1, fun _ => .new 0, 0, fun _ => .idle, []⟩

def setPc (s : Sys) (w : Who) (c : Pc) : Sys := { s with pc := Function.update s.pc w c }

def setBlock (s : Sys) (h : Nat) (b : Block) : Sys := { s with block := Function.update s.block h b }

/-- the thread can begin a call: that of a division does so out of `__iorun` only -/
def free (s : Sys) (w : Who) : Prop :=
  s.pc w = .idle ∧ ∀ h j, w = .epoll h j → ((s.block h).entry j).loop = .serve

instance decidableFree (s : Sys) (w : Who) : Decidable (s.free w) :=
  match w with
  | .user _ => decidable_of_iff (s.pc _ = .idle) ⟨fun h => ⟨h, nofun⟩, fun h => h.1⟩
  | .epoll h j => decidable_of_iff (s.pc (.epoll h j) = .idle ∧ ((s.block h).entry j).loop = .serve)
      ⟨fun hs => ⟨hs.1, fun _ _ he => by cases he; exact hs.2⟩, fun hs => ⟨hs.1, hs.2 h j rfl⟩⟩

/-- what is read from a slot -/
def hld (s : Sys) (p : Ipproto) : Option Nat := if 0 ≤ s.slot p then some (s.slot p).toNat else none

/-- where the destructor comes in if the block is doomed, and where the thread goes on else -/
def after (s : Sys) (w : Who) (h : Nat) (b : Block) : Sys :=
  (s.setBlock h b).setPc w (if b.stat = .gone ∧ (s.block h).stat ≠ .gone then .dtor h else .idle)

/-- `io_attach` between its `objrefr` and its `objdefr`, with the division for the handle `k` -/
def watch (s : Sys) (v k : Nat) (ok : Bool) : Sys :=
  let j := k % (s.block v).divisions
  match ((s.block v).entry j).epfd with
  | .fd _ => if ok then { s with links := (v, j) :: s.links } else s
  | _ => s

/-- the division whose thread this is -/
def self (h : Nat) : Who → Option Nat
  | .user _ => none
  | .epoll h' j => if h' = h then some j else none

def step (s : Sys) : Act → Option Sys
  | .init w p =>
    if s.free w then some (if (s.hld p).isSome then s else s.setPc w (.allo p)) else none
  | .allo w ok d =>
    match s.pc w with
    | .allo p =>
      if ok then some ({ s.setBlock s.count (.new d) with count := s.count + 1 }.setPc w (.cas p s.count))
      else some (s.setPc w .idle)
    | _ => none
  | .cas w =>
    match s.pc w with
    | .cas p h =>
      if s.slot p = -1 then
        some ({ s with slot := Function.update s.slot p h }.setPc w (.find p h))
      else some (s.setPc w (.lost h))
    | _ => none
  | .find w =>
    match s.pc w with
    | .find p h =>
      match s.hld p with
      | none => some (s.setPc w .idle)
      | some v => some (s.setPc w (.refer p h v))
    | _ => none
  | .refer w =>
    match s.pc w with
    | .refer p _ v =>
      if (s.block v).stat = .live then
        some ((s.setBlock v { s.block v with refs := (s.block v).refs + 1 }).setPc w (.malloc p v))
      else some (s.setPc w .idle)
    | _ => none
  | .malloc w procs ok =>
    match s.pc w with
    | .malloc p v =>
      some ((s.setBlock v ((s.block v).malloc (nprocs p procs) ok)).setPc w
        (if ok then .make p v 0 else .ret p v))
    | _ => none
  | .create w epfd thread =>
    match s.pc w with
    | .make p v i =>
      some ((s.setBlock v ((s.block v).create i epfd thread)).setPc w
        (if i + 1 < (s.block v).divisions then .make p v (i + 1) else .pipes p v))
    | _ => none
  | .pipe w k ok =>
    match s.pc w with
    | .pipes p _ =>
      match s.hld p with
      | none => some s
      | some v => some (if (s.block v).stat = .live then s.watch v k ok else s)
    | _ => none
  | .piped w =>
    match s.pc w with
    | .pipes p v => some (s.setPc w (.ret p v))
    | _ => none
  | .ret w =>
    match s.pc w with
    | .ret p _ =>
      match s.hld p with
      | none => some (s.setPc w .idle)
      | some v => some (s.setPc w (.defr v))
    | _ => none
  | .uninit w p =>
    if s.free w then some (if (s.hld p).isSome then s.setPc w (.look p) else s) else none
  | .look w =>
    match s.pc w with
    | .look p =>
      match s.hld p with
      | none => some (s.setPc w .idle)
      | some v => some (s.setPc w (.clos v))
    | _ => none
  | .clos w =>
    match s.pc w with
    | .lost v => some (s.after w v (s.block v).objclos)
    | .clos v => some (s.after w v (s.block v).objclos)
    | _ => none
  | .attach w p =>
    if s.free w then
      match s.hld p with
      | none => some s
      | some v => some (s.setPc w (.aref v))
    else none
  | .aref w =>
    match s.pc w with
    | .aref v =>
      if (s.block v).stat = .live then
        some ((s.setBlock v { s.block v with refs := (s.block v).refs + 1 }).setPc w (.ctl v))
      else some (s.setPc w .idle)
    | _ => none
  | .ctl w k ok =>
    match s.pc w with
    | .ctl v => some ((s.watch v k ok).setPc w (.defr v))
    | _ => none
  | .defr w =>
    match s.pc w with
    | .defr v => some (s.after w v (s.block v).objdefr)
    | _ => none
  | .dtor w junk =>
    match s.pc w with
    | .dtor h =>
      ((s.block h).destroy (self h w) junk).map fun b =>
        if (s.block h).dtor = some .slots then
          { s.setBlock h b with slot := emptySlot s.slot h }.setPc w .idle
        else s.setBlock h b
    | _ => none
  | .turn h j r =>
    if ((s.block h).entry j).loop = .serve ∧ s.pc (.epoll h j) ≠ .idle then none
    else ((s.block h).turn j r).map fun b => s.setBlock h b
  | .modify h j => if (h, j) ∈ s.links then some s else none

end Sys

/-! ## what is touched -/

/-- what a block takes: its array, and for each division the epoll instance and the thread -/
inductive Part where
  | array
  | epfd (j : Nat)
  | thread (j : Nat)
deriving DecidableEq, Repr

namespace Block

def createTouches (j : Nat) (epfd : Option Nat) (thread : Bool) : List (Touch Part) :=
  .use .array :: (match epfd with
    | none => []
    | some _ => .take (.epfd j) :: (if thread then [.take (.thread j)] else [.drop (.epfd j)]))

/-- what a thread uses; each message names the field `epfd` -/
def turnUses (b : Block) (j : Nat) (r : Woken) : List Part :=
  match (b.entry j).loop with
  | .start | .leave => [.array]
  | .test => .array :: (if (b.entry j).actived = some true then [.epfd j] else [])
  | .wait => .epfd j :: (if r = .failed then [.array] else [])
  | _ => []

/-- what `epoll_ctl(2)` on the division uses; on the number -1 it fails -/
def watchUses (b : Block) (j : Nat) : List Part :=
  .array :: (if (b.entry j).epfd = .invalid then [] else [.epfd j])

/-- to join what is no thread is to use one that there is not -/
def destroyTouches (b : Block) : List (Touch Part) :=
  match b.dtor with
  | some (.stop _) => [.use .array]
  | some (.join j) =>
    .use .array ::
      (if (b.entry j).loop = .exited then [.drop (.thread j)]
        else if (b.entry j).loop = .absent ∨ (b.entry j).loop = .joined then [.use (.thread j)] else [])
  | some (.close j) =>
    .use .array ::
      (match (b.entry j).epfd with
      | .fd (_ + 1) => [.drop (.epfd j)]
      | .junk => [.use (.epfd j)]
      | _ => [])
  | some .free => if b.epoptr then [.drop .array] else []
  | _ => []

end Block

namespace Sys

def touches (s : Sys) : Act → List (Touch (Nat × Part))
  | .malloc w _ ok =>
    match s.pc w with
    | .malloc _ v => if ok then [.take (v, .array)] else []
    | _ => []
  | .create w epfd thread =>
    match s.pc w with
    | .make _ v i => (Block.createTouches i epfd thread).map (.tag v)
    | _ => []
  | .pipe w k _ =>
    match s.pc w with
    | .pipes p h =>
      -- what `io_attach` does, and the store of the answer in `pipefdw`
      (match s.hld p with
      | none => []
      | some v =>
        if (s.block v).stat = .live then
          ((s.block v).watchUses (k % (s.block v).divisions)).map fun x => .use (v, x)
        else []) ++ [.use (h, .array)]
    | _ => []
  | .ctl w k _ =>
    match s.pc w with
    | .ctl v => ((s.block v).watchUses (k % (s.block v).divisions)).map fun x => .use (v, x)
    | _ => []
  | .dtor w _ =>
    match s.pc w with
    | .dtor h => (s.block h).destroyTouches.map (.tag h)
    | _ => []
  | .turn h j r => ((s.block h).turnUses j r).map fun x => .use (h, x)
  | .modify h j => [.use (h, .epfd j)]
  | _ => []

end Sys

/-! ## the invariant of a block -/

def Fd.fate : Fd → Fate
  | .junk => .fresh
  | .invalid => .gone
  | .fd _ => .held

def Loop.fate : Loop → Fate
  | .absent => .fresh
  | .joined => .gone
  | _ => .held

/-- what has become of the parts of a block -/
def Block.fate (b : Block) : Part → Fate
  | .array => if b.epoptr then .held else if b.divisions = 0 then .fresh else .gone
  | .epfd j => (b.entry j).epfd.fate
  | .thread j => (b.entry j).loop.fate

/-- nobody works on the division, and its instance is closed -/
def Entry.Quiet (e : Entry) : Prop := e.loop.fate ≠ .held ∧ e.epfd.fate ≠ .held

structure Entry.Ok (e : Entry) : Prop where
  number : e.epfd ≠ .fd 0
  served : e.loop.fate = .held → e.epfd.fate = .held
  actived : e.actived = some true → e.loop.fate = .held
  set : e.actived = none → e = .blank

namespace Block

/-- all divisions are set up; this is what `io_attach` relies on -/
def Ready (b : Block) : Prop :=
  b.epoptr = true ∧ 0 < b.divisions ∧ ∀ j, j < b.divisions → (b.entry j).epfd ≠ .junk

instance decidableReady (b : Block) : Decidable b.Ready :=
  inferInstanceAs (Decidable (b.epoptr = true ∧ 0 < b.divisions ∧
    ∀ j, j < b.divisions → (b.entry j).epfd ≠ .junk))

/-- as `objallo` gives it: no array, or one with the first divisions set up -/
def Begun (b : Block) : Option Nat → Prop
  | none => b.epoptr = false ∧ b.divisions = 0 ∧ ∀ j, b.entry j = .blank
  | some i => b.epoptr = true ∧ i < b.divisions ∧ (∀ j, j < i → (b.entry j).epfd ≠ .junk) ∧
      ∀ j, i ≤ j → b.entry j = .blank

/-- the threads of these divisions have not been told to stop -/
def Armed (b : Block) (j : Nat) : Prop :=
  ∀ i, j ≤ i → (b.entry i).loop.fate = .held → (b.entry i).actived = some true

/-- `__io_uninit` is at the division -/
structure Tearing (b : Block) (j : Nat) : Prop where
  lt : j < b.divisions
  array : b.epoptr = true
  set : ∀ i, i < b.divisions → (b.entry i).epfd ≠ .junk
  quiet : ∀ i, i < j → (b.entry i).Quiet

def Torn (b : Block) : Option Dtor → Prop
  | none => b.Armed 0
  | some (.stop j) => b.Tearing j ∧ b.Armed j
  | some (.join j) => b.Tearing j ∧ b.Armed (j + 1) ∧ (b.entry j).actived = some false ∧
      (b.entry j).loop.fate = .held
  | some (.close j) => b.Tearing j ∧ b.Armed (j + 1) ∧ (b.entry j).loop.fate ≠ .held
  | some .free => ∀ i, (b.entry i).Quiet
  | some .slots | some .done => b.epoptr = false ∧ ∀ i, (b.entry i).Quiet

structure Ok (b : Block) : Prop where
  entry : ∀ j, (b.entry j).Ok
  array : ∀ j, (b.entry j).epfd.fate = .held → b.epoptr = true
  beyond : ∀ j, b.divisions ≤ j → b.entry j = .blank
  sized : b.epoptr = true → 0 < b.divisions
  closing : b.stat = .closing → b.Ready ∨ b.Begun none
  gone : b.stat = .gone ↔ b.dtor ≠ none
  unused : b.stat = .gone → b.refs = 0
  torn : b.Torn b.dtor

end Block

section
variable {b b' : Block} {j : Nat} {e : Entry}

/-! ## what the steps make of a block -/

theorem setEntry_self (b : Block) (j : Nat) (e : Entry) : (b.setEntry j e).entry j = e :=
  Function.update_self ..

theorem setEntry_of_ne {i : Nat} (h : i ≠ j) (b : Block) (e : Entry) :
    (b.setEntry j e).entry i = b.entry i := Function.update_of_ne h ..

/-- what holds of the division that is changed, and of the others, holds of all -/
theorem forall_setEntry {P : Nat → Entry → Prop} (he : P j e) (h : ∀ i, i ≠ j → P i (b.entry i)) :
    ∀ i, P i ((b.setEntry j e).entry i) :=
  (Function.forall_update_iff b.entry P).mpr ⟨he, h⟩

theorem fate_setEntry (b : Block) (j : Nat) (e : Entry) :
    (b.setEntry j e).fate =
      Function.update (Function.update b.fate (.epfd j) e.epfd.fate) (.thread j) e.loop.fate := by
  funext x
  cases x with
  | array => rfl
  | epfd i =>
    rw [Function.update_of_ne (show Part.epfd i ≠ .thread j from nofun)]
    show ((b.setEntry j e).entry i).epfd.fate = _
    by_cases hi : i = j
    · subst hi
      rw [setEntry_self, Function.update_self]
    · rw [setEntry_of_ne hi, Function.update_of_ne fun he => hi (Part.epfd.inj he)]
      rfl
  | thread i =>
    show ((b.setEntry j e).entry i).loop.fate = _
    by_cases hi : i = j
    · subst hi
      rw [setEntry_self, Function.update_self]
    · rw [setEntry_of_ne hi, Function.update_of_ne fun he => hi (Part.thread.inj he)]
      rfl

theorem blank_ok : Entry.blank.Ok := ⟨nofun, nofun, nofun, fun _ => rfl⟩

theorem blank_quiet : Entry.blank.Quiet := ⟨nofun, nofun⟩

theorem begun_ok {d : Nat} (hd : b.epoptr = true → 0 < d) (hs : b.stat = .live) (hn : b.dtor = none)
    (he : ∀ i, b.entry i = .blank) (hb : b.divisions = d) : b.Ok where
  entry i := by
    rw [he i]
    exact blank_ok
  array i h := by
    rw [he i] at h
    cases h
  beyond i _ := he i
  sized h := by
    rw [hb]
    exact hd h
  closing h := by
    rw [hs] at h
    cases h
  gone := by
    rw [hs, hn]
    exact ⟨nofun, fun h => absurd rfl h⟩
  unused h := by
    rw [hs] at h
    cases h
  torn := by
    rw [hn]
    intro i _ h
    rw [he i] at h
    cases h

theorem new_ok : (Block.new 0).Ok := begun_ok nofun rfl rfl (fun _ => rfl) rfl

namespace Block

/-- the same array, and divisions that are alike for what is still to be torn down -/
structure Alike (b b' : Block) : Prop where
  epoptr : b'.epoptr = b.epoptr
  divisions : b'.divisions = b.divisions
  epfd : ∀ i, (b'.entry i).epfd = (b.entry i).epfd
  actived : ∀ i, (b'.entry i).actived = (b.entry i).actived
  loop : ∀ i, (b'.entry i).loop.fate = (b.entry i).loop.fate

theorem Alike.of_entry (ha : b'.epoptr = b.epoptr) (hd : b'.divisions = b.divisions)
    (he : b'.entry = b.entry) : b.Alike b' :=
  ⟨ha, hd, fun _ => by rw [he], fun _ => by rw [he], fun _ => by rw [he]⟩

theorem Alike.fate (A : b.Alike b') : b'.fate = b.fate := by
  funext x
  cases x with
  | array =>
    show (if b'.epoptr = true then Fate.held else if b'.divisions = 0 then .fresh else .gone) = _
    rw [A.epoptr, A.divisions]
    rfl
  | epfd i => exact congrArg Fd.fate (A.epfd i)
  | thread i => exact A.loop i

theorem Alike.quiet (A : b.Alike b') {i : Nat} (h : (b.entry i).Quiet) : (b'.entry i).Quiet := by
  unfold Entry.Quiet
  rw [A.loop, A.epfd]
  exact h

theorem Alike.armed (A : b.Alike b') (h : b.Armed j) : b'.Armed j := by
  intro i hi hf
  rw [A.loop] at hf
  rw [A.actived]
  exact h i hi hf

theorem Alike.ready (A : b.Alike b') (h : b.Ready) : b'.Ready := by
  unfold Ready
  rw [A.epoptr, A.divisions]
  refine ⟨h.1, h.2.1, fun i hi => ?_⟩
  rw [A.epfd]
  exact h.2.2 i hi

theorem Alike.tearing (A : b.Alike b') (h : b.Tearing j) : b'.Tearing j where
  lt := by
    rw [A.divisions]
    exact h.lt
  array := by
    rw [A.epoptr]
    exact h.array
  set i hi := by
    rw [A.epfd]
    rw [A.divisions] at hi
    exact h.set i hi
  quiet i hi := A.quiet (h.quiet i hi)

theorem Alike.torn (A : b.Alike b') {d : Option Dtor} (h : b.Torn d) : b'.Torn d := by
  cases d with
  | none => exact A.armed h
  | some d =>
    cases d with
    | stop j => exact ⟨A.tearing h.1, A.armed h.2⟩
    | join j =>
      refine ⟨A.tearing h.1, A.armed h.2.1, ?_⟩
      rw [A.actived, A.loop]
      exact h.2.2
    | close j =>
      refine ⟨A.tearing h.1, A.armed h.2.1, ?_⟩
      rw [A.loop]
      exact h.2.2
    | free => exact fun i => A.quiet (h i)
    | slots => exact ⟨A.epoptr.trans h.1, fun i => A.quiet (h.2 i)⟩
    | done => exact ⟨A.epoptr.trans h.1, fun i => A.quiet (h.2 i)⟩

theorem Ok.dtor_none (h : b.Ok) (hs : b.stat ≠ .gone) : b.dtor = none := by
  by_contra hn
  exact hs (h.gone.mpr hn)

theorem Ok.armed (h : b.Ok) (hs : b.stat ≠ .gone) : b.Armed 0 := by
  have ht := h.torn
  rwa [h.dtor_none hs] at ht

theorem Ok.refs (h : b.Ok) (hs : b.stat ≠ .gone) (r : Nat) : { b with refs := r }.Ok where
  entry := h.entry
  array := h.array
  beyond := h.beyond
  sized := h.sized
  closing := h.closing
  gone := h.gone
  unused hg := absurd hg hs
  torn := by
    have A : b.Alike { b with refs := r } := .of_entry rfl rfl rfl
    exact A.torn h.torn

theorem Ok.order (h : b.Ok) (hs : b.stat ≠ .gone) (hr : b.Ready ∨ b.Begun none) :
    { b with stat := .closing }.Ok where
  entry := h.entry
  array := h.array
  beyond := h.beyond
  sized := h.sized
  closing _ := hr
  gone := ⟨nofun, fun hn => absurd (h.gone.mpr hn) hs⟩
  unused := nofun
  torn := by
    have A : b.Alike { b with stat := .closing } := .of_entry rfl rfl rfl
    exact A.torn h.torn

theorem Ok.doom (h : b.Ok) (hs : b.stat ≠ .gone) (hr : b.refs = 0) (hb : b.Ready ∨ b.Begun none) :
    b.doom.Ok where
  entry := h.entry
  array := h.array
  beyond := h.beyond
  sized := h.sized
  closing := nofun
  gone := ⟨fun _ => nofun, fun _ => rfl⟩
  unused _ := hr
  torn := by
    have ha := h.armed hs
    show b.doom.Torn (some (b.next 0))
    unfold Block.next
    rcases hb with ⟨h1, h2, h3⟩ | ⟨_, h2, h3⟩
    · rw [if_pos h2]
      exact ⟨⟨h2, h1, h3, fun i hi => absurd hi (Nat.not_lt_zero i)⟩, ha⟩
    · rw [if_neg (by omega)]
      intro i
      show (b.entry i).Quiet
      rw [h3 i]
      exact blank_quiet

/-! ### setting up -/

theorem malloc_spec {d : Nat} (hs : b.stat = .live) (hn : b.dtor = none) (hb : b.Begun none)
    (hd : 0 < d) : (b.malloc d true).Ok ∧ (b.malloc d true).Begun (some 0) ∧
      (b.malloc d true).fate = Function.update b.fate .array .held ∧ b.fate .array = .fresh := by
  obtain ⟨h1, h2, h3⟩ := hb
  refine ⟨begun_ok (fun _ => hd) hs hn (fun _ => rfl) rfl, ⟨rfl, hd, ?_, fun _ _ => rfl⟩, ?_, ?_⟩
  · exact fun i hi => absurd hi (Nat.not_lt_zero i)
  · funext x
    cases x with
    | array =>
      rw [Function.update_self]
      rfl
    | epfd i =>
      show Entry.blank.epfd.fate = (b.entry i).epfd.fate
      rw [h3 i]
    | thread i =>
      show Entry.blank.loop.fate = (b.entry i).loop.fate
      rw [h3 i]
  · show (if b.epoptr = true then Fate.held else if b.divisions = 0 then .fresh else .gone) = _
    rw [h1, h2]
    rfl

theorem Ok.beyond_setEntry (h : b.Ok) (hj : j < b.divisions) {i : Nat} (hi : b.divisions ≤ i) :
    (b.setEntry j e).entry i = .blank := by
  have hne : i ≠ j := by
    rintro rfl
    exact absurd hi (Nat.not_le_of_lt hj)
  exact (setEntry_of_ne hne ..).trans (h.beyond i hi)

/-- a division that is set up by itself -/
theorem Ok.set (h : b.Ok) (hn : b.dtor = none) (hs : b.stat = .live) (ha : b.epoptr = true)
    (hj : j < b.divisions) (he : e.Ok) (hl : e.loop.fate = .held → e.actived = some true) :
    (b.setEntry j e).Ok where
  entry := forall_setEntry he fun i _ => h.entry i
  array _ _ := ha
  beyond _ hi := h.beyond_setEntry hj hi
  sized := h.sized
  closing hc := absurd (hs.symm.trans hc) nofun
  gone := h.gone
  unused := h.unused
  torn := by
    have ht := h.torn
    show (b.setEntry j e).Torn b.dtor
    rw [hn] at ht ⊢
    exact forall_setEntry (P := fun i e => 0 ≤ i → e.loop.fate = .held → e.actived = some true)
      (fun _ => hl) fun i _ => ht i

/-- one round of the first loop -/
theorem create_spec (h : b.Ok) (hs : b.stat = .live) (hb : b.Begun (some j)) {e : Nat} (he : e ≠ 0)
    (thread : Bool) :
    (b.create j (some e) thread).Ok ∧
      (j + 1 < b.divisions → (b.create j (some e) thread).Begun (some (j + 1))) ∧
      (¬ j + 1 < b.divisions → (b.create j (some e) thread).Ready) ∧
      run Lifetime.watch b.fate (createTouches j (some e) thread) =
        some (b.create j (some e) thread).fate := by
  obtain ⟨h1, h2, h3, h4⟩ := hb
  have hn := h.dtor_none (by rw [hs]; nofun)
  have hblank := h4 j (Nat.le_refl j)
  have harray : b.fate .array = .held := if_pos h1
  have hfd : b.fate (.epfd j) = .fresh := by
    show (b.entry j).epfd.fate = _
    rw [hblank]
    rfl
  have hset : ∀ i, i < j + 1 → ((b.create j (some e) thread).entry i).epfd ≠ .junk := by
    refine forall_setEntry (P := fun i e => i < j + 1 → e.epfd ≠ .junk) (fun _ => ?_) fun i hij hi => ?_
    · cases thread <;> nofun
    · exact h3 i (by omega)
  have hrest : ∀ i, j + 1 ≤ i → (b.create j (some e) thread).entry i = .blank := by
    intro i hi
    unfold create
    rw [setEntry_of_ne (by omega)]
    exact h4 i (by omega)
  refine ⟨?_, fun hlt => ⟨h1, hlt, hset, hrest⟩, fun hlt => ⟨h1, h.sized h1, fun i hi => hset i ?_⟩, ?_⟩
  · refine h.set hn hs h1 h2 ?_ ?_
    · cases thread with
      | false => exact ⟨nofun, nofun, nofun, nofun⟩
      | true => exact ⟨fun hz => he (Fd.fd.inj hz), fun _ => rfl, fun _ => rfl, nofun⟩
    · cases thread with
      | false => exact nofun
      | true => exact fun _ => rfl
  · have hi' : i < b.divisions := hi
    omega
  · unfold createTouches create
    dsimp only
    rw [fate_setEntry, run_of_step _ _ (watch_use harray), run_of_step _ _ (watch_take hfd)]
    cases thread with
    | false =>
      have hthread : b.fate (.thread j) = .fresh := by
        show (b.entry j).loop.fate = _
        rw [hblank]
        rfl
      rw [if_neg nofun, if_neg nofun,
        run_of_step _ _ (watch_drop (Function.update_self (Part.epfd j) Fate.held b.fate)),
        Function.update_idem]
      have hsame : Function.update b.fate (.epfd j) Fate.gone (.thread j) = .fresh := hthread
      show some _ = some (Function.update (Function.update b.fate (.epfd j) .gone) (.thread j) .fresh)
      rw [← hsame, Function.update_eq_self]
    | true =>
      have hthread : Function.update b.fate (.epfd j) Fate.held (.thread j) = .fresh := by
        show (b.entry j).loop.fate = _
        rw [hblank]
        rfl
      rw [if_pos rfl, if_pos rfl, run_of_step _ _ (watch_take hthread)]
      rfl

/-! ### serving -/

/-- a step of the thread of a division -/
theorem turn_cases {r : Woken} (h : b.turn j r = some b') :
    (b.entry j).loop.fate = .held ∧ ∃ l, l.fate = .held ∧ b' = b.setLoop j l := by
  unfold turn at h
  cases hl : (b.entry j).loop <;> rw [hl] at h
  case start | serve | leave =>
    cases h
    exact ⟨rfl, _, rfl, rfl⟩
  case test =>
    cases h
    refine ⟨rfl, _, ?_, rfl⟩
    split <;> rfl
  case wait =>
    cases r <;> cases h <;> exact ⟨rfl, _, rfl, rfl⟩
  all_goals cases h

theorem turn_uses (h : b.Ok) {r : Woken} (ht : b.turn j r = some b') {x : Part}
    (hx : x ∈ b.turnUses j r) : b.fate x = .held := by
  have hfd := (h.entry j).served (turn_cases ht).1
  have harray : b.fate .array = .held := if_pos (h.array j hfd)
  have hall : x = .array ∨ x = .epfd j := by
    unfold turnUses at hx
    cases hl : (b.entry j).loop <;> rw [hl] at hx <;> dsimp only at hx
    case test =>
      split at hx <;> simp at hx <;> tauto
    case wait =>
      split at hx <;> simp at hx <;> tauto
    all_goals simp at hx <;> tauto
  rcases hall with rfl | rfl
  · exact harray
  · exact hfd

theorem setLoop_alike {l : Loop} (hb : (b.entry j).loop.fate = l.fate) : b.Alike (b.setLoop j l) := by
  have hall : ∀ i, ((b.setLoop j l).entry i).epfd = (b.entry i).epfd ∧
      ((b.setLoop j l).entry i).actived = (b.entry i).actived ∧
      ((b.setLoop j l).entry i).loop.fate = (b.entry i).loop.fate :=
    forall_setEntry (P := fun i e => e.epfd = (b.entry i).epfd ∧ e.actived = (b.entry i).actived ∧
      e.loop.fate = (b.entry i).loop.fate) ⟨rfl, rfl, hb.symm⟩ fun i _ => ⟨rfl, rfl, rfl⟩
  exact ⟨rfl, rfl, fun i => (hall i).1, fun i => (hall i).2.1, fun i => (hall i).2.2⟩

/-- the thread that goes on has a division that is set up -/
theorem setLoop_blank {l : Loop} (hb : (b.entry j).loop.fate = .held) {i : Nat}
    (hi : b.entry i = .blank) : (b.setLoop j l).entry i = .blank := by
  have hij : i ≠ j := by
    rintro rfl
    rw [hi] at hb
    cases hb
  exact (setEntry_of_ne hij ..).trans hi

theorem turn_begun {l : Loop} (hb : (b.entry j).loop.fate = .held) {o : Option Nat} (h : b.Begun o) :
    (b.setLoop j l).Begun o := by
  cases o with
  | none => exact ⟨h.1, h.2.1, fun i => setLoop_blank hb (h.2.2 i)⟩
  | some k =>
    refine ⟨h.1, h.2.1, ?_, fun i hi => setLoop_blank hb (h.2.2.2 i hi)⟩
    exact forall_setEntry (P := fun i e => i < k → e.epfd ≠ .junk) (h.2.2.1 j) fun i _ => h.2.2.1 i

/-- the thread of a division goes on -/
theorem Ok.turn (h : b.Ok) {l : Loop} (hb : (b.entry j).loop.fate = .held) (hl : l.fate = .held) :
    (b.setLoop j l).Ok := by
  have A := setLoop_alike (b := b) (j := j) (hb.trans hl.symm)
  refine ⟨fun i => ?_, fun i hf => ?_, fun i hi => setLoop_blank hb (h.beyond i hi), h.sized,
    fun hc => (h.closing hc).imp A.ready (turn_begun hb), h.gone, h.unused, A.torn h.torn⟩
  · have hi := h.entry i
    refine ⟨?_, ?_, ?_, fun hn => setLoop_blank hb (hi.set ?_)⟩
    · rw [A.epfd]
      exact hi.number
    · rw [A.loop, A.epfd]
      exact hi.served
    · rw [A.loop, A.actived]
      exact hi.actived
    · rwa [A.actived] at hn
  · rw [A.epfd] at hf
    exact h.array i hf

/-! ### tearing down -/

theorem Ok.goTo (h : b.Ok) (hs : b.stat = .gone) {d : Dtor} (ht : b.Torn (some d)) :
    { b with dtor := some d }.Ok where
  entry := h.entry
  array := h.array
  beyond := h.beyond
  sized := h.sized
  closing hc := absurd (hs.symm.trans hc) nofun
  gone := ⟨fun _ => nofun, fun _ => hs⟩
  unused := h.unused
  torn := by
    have A : b.Alike { b with dtor := some d } := .of_entry rfl rfl rfl
    exact A.torn ht

theorem Ok.change (h : b.Ok) (hs : b.stat = .gone) (hj : j < b.divisions) (ha : b.epoptr = true)
    (he : e.Ok) {d : Dtor} (ht : (b.setEntry j e).Torn (some d)) :
    { b.setEntry j e with dtor := some d }.Ok where
  entry := forall_setEntry he fun i _ => h.entry i
  array _ _ := ha
  beyond _ hi := h.beyond_setEntry hj hi
  sized := h.sized
  closing hc := absurd (hs.symm.trans hc) nofun
  gone := ⟨fun _ => nofun, fun _ => hs⟩
  unused := h.unused
  torn := by
    have A : (b.setEntry j e).Alike { b.setEntry j e with dtor := some d } := .of_entry rfl rfl rfl
    exact A.torn ht

/-- a division that is changed without being opened again -/
theorem Tearing.change (h : b.Tearing j) (he : e.epfd ≠ .junk) : (b.setEntry j e).Tearing j where
  lt := h.lt
  array := h.array
  set := forall_setEntry (P := fun i e => i < b.divisions → e.epfd ≠ .junk) (fun _ => he)
    fun i _ => h.set i
  quiet i hi := by
    rw [setEntry_of_ne (Nat.ne_of_lt hi)]
    exact h.quiet i hi

theorem Armed.change (h : b.Armed (j + 1)) : (b.setEntry j e).Armed (j + 1) := by
  intro i hi hf
  rw [setEntry_of_ne (by omega)] at hf ⊢
  exact h i hi hf

theorem Armed.weaken (h : b.Armed j) : b.Armed (j + 1) := fun i hi => h i (by omega)

/-- behind a division that is quiet -/
theorem Tearing.next (hT : b.Tearing j)
    (hbeyond : ∀ i, j + 1 ≤ i → b.divisions ≤ i → b.entry i = .blank) (hA : b.Armed (j + 1))
    (hq : (b.entry j).Quiet) : b.Torn (some (b.next (j + 1))) := by
  have hquiet : ∀ i, i < j + 1 → (b.entry i).Quiet := by
    intro i hi
    by_cases hij : i = j
    · subst hij
      exact hq
    · exact hT.quiet i (by omega)
  unfold Block.next
  by_cases hlt : j + 1 < b.divisions
  · rw [if_pos hlt]
    exact ⟨⟨hlt, hT.array, hT.set, hquiet⟩, hA⟩
  · rw [if_neg hlt]
    intro i
    by_cases hi : i < j + 1
    · exact hquiet i hi
    · rw [hbeyond i (by omega) (by omega)]
      exact blank_quiet

theorem fate_goTo (b : Block) (d : Option Dtor) : { b with dtor := d }.fate = b.fate := by
  have A : b.Alike { b with dtor := d } := .of_entry rfl rfl rfl
  exact A.fate

theorem fate_change (b : Block) (j : Nat) (e : Entry) (d : Option Dtor) :
    { b.setEntry j e with dtor := d }.fate =
      Function.update (Function.update b.fate (.epfd j) e.epfd.fate) (.thread j) e.loop.fate :=
  (fate_goTo (b.setEntry j e) d).trans (fate_setEntry b j e)

/-- a division whose instance is as it was -/
theorem fate_change_loop (b : Block) (j : Nat) (a : Option Bool) (l : Loop) (d : Option Dtor) :
    { b.setEntry j ⟨(b.entry j).epfd, a, l⟩ with dtor := d }.fate =
      Function.update b.fate (.thread j) l.fate := by
  have hfd : Function.update b.fate (.epfd j) (b.entry j).epfd.fate = b.fate :=
    Function.update_eq_self ..
  rw [fate_change, hfd]

theorem watch_array (ha : b.epoptr = true) (es : List (Touch Part)) :
    run Lifetime.watch b.fate (.use .array :: es) = run Lifetime.watch b.fate es :=
  run_of_step _ _ (watch_use (if_pos ha))

theorem stop_spec (h : b.Ok) (hs : b.stat = .gone) (hd : b.dtor = some (.stop j)) {self : Option Nat}
    {junk : Bool} (hb : b.destroy self junk = some b') :
    b'.Ok ∧ run Lifetime.watch b.fate b.destroyTouches = some b'.fate := by
  have ht := h.torn
  rw [hd] at ht
  obtain ⟨hT, hA⟩ := ht
  have htouches : b.destroyTouches = [.use .array] := by
    unfold destroyTouches
    rw [hd]
  unfold destroy at hb
  rw [hd] at hb
  dsimp only at hb
  rw [htouches, watch_array hT.array]
  have hj := h.entry j
  cases ha : (b.entry j).actived with
  | none => exact absurd (congrArg Entry.epfd (hj.set ha)) (hT.set j hT.lt)
  | some v =>
    rw [ha] at hb
    cases v with
    | true =>
      cases hb
      have hl := hj.actived ha
      have he : Entry.Ok { b.entry j with actived := some false } := ⟨hj.number, hj.served, nofun, nofun⟩
      refine ⟨h.change hs hT.lt hT.array he ⟨hT.change (hT.set j hT.lt), hA.weaken.change, ?_⟩,
        congrArg some ?_⟩
      · rw [setEntry_self]
        exact ⟨rfl, hl⟩
      · refine ((fate_change_loop b j _ _ _).trans ?_).symm
        exact Function.update_eq_self ..
    | false =>
      cases hb
      refine ⟨h.goTo hs ⟨hT, hA.weaken, fun hf => ?_⟩, ?_⟩
      · rw [hA j (Nat.le_refl j) hf] at ha
        cases ha
      · rw [fate_goTo]
        rfl

theorem join_spec (h : b.Ok) (hs : b.stat = .gone) (hd : b.dtor = some (.join j)) {self : Option Nat}
    {junk : Bool} (hself : self ≠ some j) (hb : b.destroy self junk = some b') :
    b'.Ok ∧ run Lifetime.watch b.fate b.destroyTouches = some b'.fate := by
  have ht := h.torn
  rw [hd] at ht
  obtain ⟨hT, hA, ha, hl⟩ := ht
  have hj := h.entry j
  unfold destroy at hb
  rw [hd] at hb
  dsimp only at hb
  have hexited : (b.entry j).loop = .exited := by
    by_contra hne
    rw [if_neg hne] at hb
    split at hb
    · rename_i hc
      rcases hc with hc | hc | hc
      · exact hself hc
      · rw [hc] at hl
        cases hl
      · rw [hc] at hl
        cases hl
    · cases hb
  rw [if_pos hexited] at hb
  cases hb
  have htouches : b.destroyTouches = [.use .array, .drop (.thread j)] := by
    unfold destroyTouches
    rw [hd]
    dsimp only
    rw [if_pos hexited]
  have he : Entry.Ok { b.entry j with loop := .joined } := by
    refine ⟨hj.number, nofun, fun h1 => ?_, fun h1 => ?_⟩
    · rw [ha] at h1
      cases h1
    · rw [ha] at h1
      cases h1
  have hl' : ((b.setEntry j { b.entry j with loop := .joined }).entry j).loop.fate ≠ .held := by
    rw [setEntry_self]
    exact nofun
  refine ⟨h.change hs hT.lt hT.array he ⟨hT.change (hT.set j hT.lt), hA.change, hl'⟩, ?_⟩
  rw [htouches, watch_array hT.array]
  have hheld : b.fate (.thread j) = .held := hl
  refine (run_of_step Lifetime.watch _ (watch_drop hheld)).trans (congrArg some ?_)
  exact (fate_change_loop b j _ .joined _).symm

theorem close_spec (h : b.Ok) (hs : b.stat = .gone) (hd : b.dtor = some (.close j)) {self : Option Nat}
    {junk : Bool} (hb : b.destroy self junk = some b') :
    b'.Ok ∧ run Lifetime.watch b.fate b.destroyTouches = some b'.fate := by
  have ht := h.torn
  rw [hd] at ht
  obtain ⟨hT, hA, hl⟩ := ht
  have hj := h.entry j
  unfold destroy at hb
  rw [hd] at hb
  unfold destroyTouches
  rw [hd]
  dsimp only at hb ⊢
  rw [watch_array hT.array]
  cases hfd : (b.entry j).epfd with
  | junk => exact absurd hfd (hT.set j hT.lt)
  | invalid =>
    rw [hfd] at hb
    cases hb
    have hq : (b.entry j).Quiet := ⟨hl, by rw [hfd]; exact nofun⟩
    refine ⟨h.goTo hs (hT.next (fun i _ => h.beyond i) hA hq), congrArg some ?_⟩
    exact (fate_goTo b _).symm
  | fd k =>
    cases k with
    | zero => exact absurd hfd hj.number
    | succ k =>
      rw [hfd] at hb
      cases hb
      have hopen : b.fate (.epfd j) = .held := congrArg Fd.fate hfd
      have he : Entry.Ok { b.entry j with epfd := .invalid } := by
        refine ⟨nofun, fun h1 => absurd h1 hl, hj.actived, fun h1 => ?_⟩
        rw [hj.set h1] at hfd
        cases hfd
      have hT' : (b.setEntry j { b.entry j with epfd := .invalid }).Tearing j := hT.change nofun
      have hq : ((b.setEntry j { b.entry j with epfd := .invalid }).entry j).Quiet := by
        rw [setEntry_self]
        exact ⟨hl, nofun⟩
      have hbeyond : ∀ i, j + 1 ≤ i → b.divisions ≤ i →
          (b.setEntry j { b.entry j with epfd := .invalid }).entry i = .blank := fun i hi hd =>
        (setEntry_of_ne (by omega) ..).trans (h.beyond i hd)
      refine ⟨h.change hs hT.lt hT.array he ?_, ?_⟩
      · exact hT'.next hbeyond hA.change hq
      · refine (run_of_step Lifetime.watch _ (watch_drop hopen)).trans (congrArg some ?_)
        refine ((fate_change b j _ _).trans ?_).symm
        have hth : (b.entry j).loop.fate = Function.update b.fate (.epfd j) Fate.gone (.thread j) := rfl
        dsimp only
        rw [hth]
        exact Function.update_eq_self ..

theorem destroy_spec (h : b.Ok) (hs : b.stat = .gone) {self : Option Nat} {junk : Bool}
    (hself : ∀ j, b.dtor = some (.join j) → self ≠ some j) (hb : b.destroy self junk = some b') :
    b'.Ok ∧ run Lifetime.watch b.fate b.destroyTouches = some b'.fate := by
  cases hd : b.dtor with
  | none =>
    unfold destroy at hb
    rw [hd] at hb
    cases hb
  | some d =>
    cases d with
    | stop j => exact stop_spec h hs hd hb
    | join j => exact join_spec h hs hd (hself j hd) hb
    | close j => exact close_spec h hs hd hb
    | free =>
      have hq := h.torn
      rw [hd] at hq
      unfold destroy at hb
      rw [hd] at hb
      cases hb
      refine ⟨⟨h.entry, fun j hj => absurd hj (hq j).2, h.beyond, nofun, ?_, ?_, h.unused, rfl, hq⟩, ?_⟩
      · exact fun hc => absurd (hs.symm.trans hc) nofun
      · exact ⟨fun _ => nofun, fun _ => hs⟩
      · unfold destroyTouches
        rw [hd]
        dsimp only
        cases ha : b.epoptr with
        | true =>
          have hpos := h.sized ha
          have harray : b.fate .array = .held := if_pos ha
          rw [if_pos rfl, run_of_step _ _ (watch_drop harray)]
          refine congrArg some ?_
          funext x
          cases x with
          | array =>
            rw [Function.update_self]
            show _ = if false = true then Fate.held else if b.divisions = 0 then .fresh else .gone
            rw [if_neg nofun, if_neg (by omega)]
          | epfd i => rfl
          | thread i => rfl
        | false =>
          rw [if_neg nofun]
          have A : b.Alike { b with epoptr := false, dtor := some .slots } := .of_entry ha.symm rfl rfl
          exact congrArg some A.fate.symm
    | slots =>
      have hq := h.torn
      rw [hd] at hq
      unfold destroy at hb
      rw [hd] at hb
      cases hb
      refine ⟨h.goTo hs hq, ?_⟩
      unfold destroyTouches
      rw [hd]
      exact congrArg some (fate_goTo b _).symm
    | done =>
      unfold destroy at hb
      rw [hd] at hb
      cases hb

end Block

theorem begun_not_ready {o : Option Nat} (h : b.Begun o) : ¬ b.Ready := by
  intro hr
  cases o with
  | none => exact absurd (h.1.symm.trans hr.1) nofun
  | some i =>
    have hi := hr.2.2 i h.2.1
    rw [h.2.2.2 i (Nat.le_refl i)] at hi
    exact hi rfl

end

end Reactor

end Swnet

import Aesd.Infra.Chain
import Aesd.Infra.Threads
import Aesd.Server.SList

/-!
# `application` among its worker threads

Thread `0` runs `application`; the thread it creates for node `n` is thread `n` and runs
`data_transfer_worker`. They share the nodes: a worker sets its `thread_status` whenever it comes to
it, also while `application` walks over the list.

What a node looks like to `application` is all its own doing but for that status. So
`application` can be followed alone, with a picture of the list and with a book of what it did.

The file and the clients answer anything. The timestamp logger is left out: it has no node, and all
that a worker notices of it is a mutex that is held for a while.
-/

namespace Aesd.Server

open Infra

variable {β : Type}

/-! ## The system -/

/-- `struct node`. A field that was not stored to since `malloc` is `none`. -/
structure Node where
  clientFd : Int
  threadStatus : ThreadStatus
  thread : Option Nat
  sleNext : Option (Option Nat)

/-- How far the thread of a node has come. -/
inductive Life where
  | unborn
  | running
  | ended
  | joined
  deriving DecidableEq, Repr

/-- The memory that the threads share, and the threads. Memory that is freed is not handed out
again under the same number, so that an old pointer is never taken for a new one. -/
structure Process where
  node : Nat → Option Node
  /-- nodes that were not allocated so far are numbered from here on; there is no node `0` -/
  fresh : Nat
  slhFirst : Option Nat
  isTerminated : Bool
  mutex : Option Nat
  life : Nat → Life

namespace Process

/-- A store to a field of a node. -/
def modify (s : Process) (n : Nat) (f : Node → Node) : Process :=
  { s with node := Function.update s.node n ((s.node n).map f) }

/-- Thread `n` gets on. -/
def advance (s : Process) (n : Nat) (l : Life) : Process :=
  { s with life := Function.update s.life n l }

/-- `malloc`, and the first stores to the node -/
def malloc (s : Process) (clientFd : Int) : Process :=
  { s with
    node := Function.update s.node s.fresh (some ⟨clientFd, .unititialized, none, none⟩)
    fresh := s.fresh + 1 }

def free (s : Process) (n : Nat) : Process :=
  { s with node := Function.update s.node n none }

end Process

/-- Everything that is not up to the program. -/
structure Answers (β : Type) where
  /-- what its calls answer -/
  ret : (e : Sys β) → e.Ret
  /-- the client that is asked neither sends nor takes anything now -/
  waits : Bool

instance : CoeFun (Answers β) fun _ => (e : Sys β) → e.Ret := ⟨Answers.ret⟩

/--
What a call of thread `t` does. An access to a node that is not allocated, or to a field that was
never set, has no answer. `is_terminated` may be set by a signal before any read of it.
`pthread_join` waits for the thread to end, unless `joinFails` and it returns an error. `recv` and
`send` wait for the client.
-/
def processCall (joinFails : Bool) (t : Nat) :
    (e : Sys β) → Process → Answers β → Option (e.Ret × Process)
  | .setThreadStatus n status, s, _ =>
    (s.node n).map fun _ => ((), s.modify n fun x => { x with threadStatus := status })
  | .getThreadStatus n, s, _ => (s.node n).map fun x => (x.threadStatus, s)
  | .getClientFd n, s, _ => (s.node n).map fun x => (x.clientFd, s)
  | .setThread n thread, s, _ =>
    (s.node n).map fun _ => ((), s.modify n fun x => { x with thread := some thread })
  | .getThread n, s, _ => ((s.node n).bind Node.thread).map fun thread => (thread, s)
  | .setNext n next, s, _ =>
    (s.node n).map fun _ => ((), s.modify n fun x => { x with sleNext := some next })
  | .getNext n, s, _ => ((s.node n).bind Node.sleNext).map fun next => (next, s)
  | .setFirst first, s, _ => some ((), { s with slhFirst := first })
  | .getFirst, s, _ => some (s.slhFirst, s)
  | .mallocNode clientFd, s, _ => some (s.fresh, s.malloc clientFd)
  | .freeNode n, s, _ => (s.node n).map fun _ => ((), s.free n)
  | .isTerminated, s, a =>
    some (s.isTerminated || a .isTerminated,
      { s with isTerminated := s.isTerminated || a .isTerminated })
  | .setIsTerminated, s, _ => some ((), { s with isTerminated := true })
  | .mutexLock, s, _ => if s.mutex = none then some ((), { s with mutex := some t }) else none
  | .mutexUnlock, s, _ => if s.mutex = some t then some ((), { s with mutex := none }) else none
  | .pthreadCreate n, s, a =>
    if (a (.pthreadCreate n)).1 = 0 then some ((0, n), s.advance n .running)
    else some (a (.pthreadCreate n), s)
  | .pthreadJoin n, s, a =>
    if joinFails = true ∧ a (.pthreadJoin n) ≠ 0 then some (a (.pthreadJoin n), s)
    else if s.life n = .ended then some (0, s.advance n .joined)
    else none
  | .pthreadExit, s, _ => some ((), s.advance t .ended)
  | .recv fd len, s, a => if a.waits then none else some (a (.recv fd len), s)
  | .send fd buf len, s, a => if a.waits then none else some (a (.send fd buf len), s)
  -- files, connections and the time
  | e, s, a => some (a e, s)

/-- A thread makes calls once it was created. -/
def processSystem (joinFails : Bool) : System (@Sys.Ret β) Process (Answers β) where
  act w t e a :=
    if t = 0 ∨ w.state.life t = .running then processCall joinFails t e w.state a else none

abbrev ProcessWorld (β : Type) := World (@Sys.Ret β) Process

/-- The thread of a node, which finds its client in `thread_data`. -/
def workerThread (rounds : Nat) (file : String) (node : Nat) : ServerProg β (Option Int) :=
  .call (.getClientFd node) fun clientFd =>
    (dataTransferWorker rounds file node clientFd).bind fun _ => .ret none

/-- Nothing is allocated and no thread was created; `slh_first` is not set. -/
def processStart (garbage : Option Nat) : ProcessWorld β :=
  { state := {
      node := fun _ => none
      fresh := 1
      slhFirst := garbage
      isTerminated := false
      mutex := none
      life := fun _ => .unborn }
    trace := [] }

/-- `application` for up to `n` rounds of its loop, and the threads that it may create. -/
def serverStart (garbage : Option Nat) (n : Nat) (rounds : Nat → Nat) (file : String) :
    Config (@Sys.Ret β) Process (Option Int) :=
  { world := processStart garbage
    prog := fun t => if t = 0 then application n else workerThread (rounds t) file t }

/-! ## The book of `application` -/

/-- What `application` did so far. -/
structure Book where
  /-- the nodes whose threads were created -/
  created : List Nat
  /-- of these, the ones with no `pthread_join` so far, the newest first -/
  live : List Nat
  /-- the threads for which `pthread_join` returned 0 -/
  joined : List Nat
  freed : List Nat
  /-- the result of the last connection attempt, and `live` at that time -/
  connection : Option Int
  before : List Nat
  /-- the statuses read since then -/
  seen : List (Nat × ThreadStatus)
  /-- a connection attempt returned `-1`, or `pthread_create` or `pthread_join` an error -/
  reported : Bool
  /-- the nodes that were seen as `FAILED` -/
  failures : List Nat

namespace Book

def empty : Book := ⟨[], [], [], [], none, [], [], false, []⟩

def connect (b : Book) (result : Int) : Book :=
  { b with
    connection := some result
    before := b.live
    seen := []
    reported := b.reported || result == -1 }

def fail (b : Book) : Book := { b with reported := true }

def create (b : Book) (n : Nat) (result : Int) : Book :=
  if result = 0 then { b with created := n :: b.created, live := n :: b.live } else b.fail

def join (b : Book) (n : Nat) (result : Int) : Book :=
  { b with
    live := b.live.erase n
    joined := if result = 0 then n :: b.joined else b.joined
    reported := b.reported || result != 0 }

def free (b : Book) (n : Nat) : Book := { b with freed := n :: b.freed }

def see (b : Book) (n : Nat) (status : ThreadStatus) : Book :=
  { b with
    seen := b.seen ++ [(n, status)]
    failures := if status = .failed then n :: b.failures else b.failures }

def note (b : Book) : SysEvent β → Book
  | ⟨.createConnection, r⟩ => b.connect r.1
  | ⟨.pthreadCreate n, r⟩ => b.create n r.1
  | ⟨.pthreadJoin n, r⟩ => b.join n r
  | ⟨.freeNode n, _⟩ => b.free n
  | ⟨.getThreadStatus n, status⟩ => b.see n status
  | _ => b

theorem mem_join {b : Book} {n m : Nat} {result : Int} :
    m ∈ (b.join n result).joined ↔ result = 0 ∧ m = n ∨ m ∈ b.joined := by
  unfold join
  by_cases h : result = 0 <;> simp [h]

theorem mem_see {b : Book} {n m : Nat} {status : ThreadStatus} :
    m ∈ (b.see n status).failures ↔ status = .failed ∧ m = n ∨ m ∈ b.failures := by
  unfold see
  by_cases h : status = .failed <;> simp [h]

/-- The book of these calls. -/
def of (es : List (SysEvent β)) : Book := es.foldl note empty

@[simp] theorem of_push (es : List (SysEvent β)) (e : SysEvent β) :
    of (es ++ [e]) = (of es).note e := by
  simp [of, List.foldl_append]

end Book

/-! ## What `application` knows -/

/-- The nodes as `application` left them, the list head, and the book. -/
structure Picture where
  allocated : Nat → Bool
  thread : Nat → Option Nat
  next : Nat → Option (Option Nat)
  fresh : Nat
  first : Option Nat
  book : Book

/-- The picture is right. -/
def picture (w : ProcessWorld β) : Picture where
  allocated n := (w.state.node n).isSome
  thread n := (w.state.node n).bind Node.thread
  next n := (w.state.node n).bind Node.sleNext
  fresh := w.state.fresh
  first := w.state.slhFirst
  book := Book.of (w.own 0)

/-- What a call of `application` changes. -/
def Picture.after (v : Picture) (e : SysEvent β) : Picture :=
  let v' := { v with book := v.book.note e }
  match e with
  | ⟨.setThread n thread, _⟩ => { v' with thread := Function.update v.thread n (some thread) }
  | ⟨.setNext n next, _⟩ => { v' with next := Function.update v.next n (some next) }
  | ⟨.setFirst first, _⟩ => { v' with first := first }
  | ⟨.mallocNode _, _⟩ =>
    { v' with
      allocated := Function.update v.allocated v.fresh true
      thread := Function.update v.thread v.fresh none
      next := Function.update v.next v.fresh none
      fresh := v.fresh + 1 }
  | ⟨.freeNode n, _⟩ =>
    { v' with
      allocated := Function.update v.allocated n false
      thread := Function.update v.thread n none
      next := Function.update v.next n none }
  | _ => v'

/-- The list holds the live threads, each with its own node; nothing else is allocated. -/
structure Tidy (joinFails : Bool) (v : Picture) : Prop where
  chain : Chain v.next v.first v.book.live
  nodup : v.book.live.Nodup
  allocated : ∀ n, v.allocated n = true ↔ n ∈ v.book.live
  thread : ∀ n ∈ v.book.live, v.thread n = some n
  live : ∀ n ∈ v.book.live, n ∈ v.book.created ∧ n ∉ v.book.joined ∧ n ∉ v.book.freed
  created : ∀ n ∈ v.book.created, n < v.fresh ∧ (n ∈ v.book.live ∨ n ∈ v.book.freed ∧
    (n ∈ v.book.joined ∨ joinFails = true ∧ v.book.reported = true))
  joined : v.book.joined.Nodup ∧ ∀ n ∈ v.book.joined, n ∈ v.book.created
  freed : v.book.freed.Nodup ∧ ∀ n ∈ v.book.freed, n < v.fresh

/-- After a timeout every node of the list was looked at, and those are left that were not done. -/
def Walked (b : Book) : Prop :=
  b.connection = some 2 → b.before = b.seen.map Prod.fst ∧
    b.live = (b.seen.filter fun x => !x.2.isDone).map Prod.fst

/-- The picture by which `application` goes. -/
def mainView (joinFails : Bool) : View (@Sys.Ret β) Picture where
  may v e :=
    match e with
    | .getThreadStatus n | .setThread n _ | .setNext n _ => v.allocated n = true
    | .getThread n => ∃ thread, v.thread n = some thread
    | .getNext n => ∃ next, v.next n = some next
    | .freeNode n => v.allocated n = true ∧ n ∉ v.book.freed ∧
      (joinFails = false → n ∈ v.book.created → n ∈ v.book.joined)
    | .pthreadCreate n => v.allocated n = true ∧ n ∉ v.book.created
    | .pthreadJoin n => n ∈ v.book.created ∧ n ∉ v.book.joined
    -- the loop head, and what follows it
    | .isTerminated | .createConnection => Tidy joinFails v ∧ Walked v.book
    | .getFirst | .setFirst _ | .mallocNode _ | .setIsTerminated | .close _ => True
    | _ => False
  answers v e r :=
    match e, r with
    | .getFirst, r => r = v.first
    | .getNext n, r => v.next n = some r
    | .getThread n, r => v.thread n = some r
    | .mallocNode _, r => r = v.fresh
    | .pthreadCreate n, r => r.1 = 0 → r.2 = n
    | .pthreadJoin _, r => joinFails = false → r = 0
    | _, _ => True
  next := Picture.after
  spins := False

/-- What a worker goes by: the calls it made. It only touches its own node, and leaves a status of
`FAILED` as it is. -/
def workerView (t : Nat) : View (@Sys.Ret β) (List (SysEvent β)) where
  may es e :=
    match e with
    | .setThreadStatus n _ => n = t ∧ lastStatus es ≠ some .failed
    | .getClientFd n => n = t
    | .mutexLock | .mutexUnlock | .pthreadExit | .openFile _ _ | .write _ _ | .read _ _ => True
    | .close _ | .recv _ _ | .send _ _ _ => True
    | _ => False
  answers _ _ _ := True
  next es e := es ++ [e]
  spins := True

end Aesd.Server

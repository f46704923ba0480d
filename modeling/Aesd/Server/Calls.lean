import Aesd.Infra.Prog
import Aesd.Driver.Device

/-!
# What the server asks of its surroundings

The calls that the threads of `aesdsocket` make: system calls, calls of the thread library, and
accesses to memory that threads share. Everything else a thread does is local to it. Logging is
left out.

A byte that `read` hands over is a `β`; no function of the server looks at one.
-/

namespace Aesd.Server

open Infra

/-! ## Data -/

/-- `ThreadStatus` -/
inductive ThreadStatus where
  | unititialized
  | running
  | succeeded
  | failed
  deriving DecidableEq, Repr

/-- The two ways in which the result file is opened. -/
inductive OpenFlags where
  /-- `O_WRONLY | O_APPEND | O_CREAT` -/
  | append
  /-- `O_RDONLY` -/
  | rdonly
  deriving DecidableEq, Repr

/-- `struct timespec` -/
structure Timespec where
  tvSec : Int
  tvNsec : Int
  deriving DecidableEq, Repr

/-- `BUFFER_SIZE` -/
def bufferSize : Nat := 1024

/-- `line_len` -/
def lineLen : Nat := 32768

/-- `RESULT_FILE`, by `USE_AESD_CHAR_DEVICE` -/
def resultFile (useAesdCharDevice : Bool) : String :=
  if useAesdCharDevice then "/dev/aesdchar" else "/var/tmp/aesdsocketdata"

/-- A call's `ssize_t` result as a `size_t`; `none` is the result `-1`. -/
def sizeT : Option Nat → Nat
  | none => Driver.sizeMod - 1
  | some n => n

/-- A size that fits into one of the buffers is not taken for `-1`. -/
theorem sizeT_ne_error {n : Nat} (h : n ≤ lineLen) : sizeT (some n) ≠ sizeT none := by
  unfold lineLen at h
  show n ≠ 2 ^ 64 - 1
  omega

/-! ## Calls -/

/--
The calls. A `struct node` is named by a number; `none` is `NULL` where a node is expected.
`slh_first` is the one field of the list head, which `application` passes around by its address.
-/
inductive Sys (β : Type) where
  -- shared memory
  | setThreadStatus (node : Nat) (status : ThreadStatus)
  | getThreadStatus (node : Nat)
  | getClientFd (node : Nat)
  | setThread (node : Nat) (thread : Nat)
  | getThread (node : Nat)
  | setNext (node : Nat) (next : Option Nat)
  | getNext (node : Nat)
  | setFirst (first : Option Nat)
  | getFirst
  /-- `malloc` of a node, with the stores of `client_fd` and `UNITITIALIZED` to it -/
  | mallocNode (clientFd : Int)
  | freeNode (node : Nat)
  | isTerminated
  | setIsTerminated
  -- threads
  | mutexLock
  | mutexUnlock
  | semWait
  | semPost
  /-- starts `data_transfer_worker` on the node's `thread_data` -/
  | pthreadCreate (node : Nat)
  | pthreadJoin (thread : Nat)
  | pthreadExit
  -- the result file
  | openFile (file : String) (flags : OpenFlags)
  | write (fd : Int) (buffer : List UInt8)
  | read (fd : Int) (count : Nat)
  | close (fd : Int)
  -- the clients
  | createConnection
  | accept
  /-- the value of `errno` -/
  | errno
  | recv (fd : Int) (len : Nat)
  | send (fd : Int) (buf : List β) (len : Nat)
  -- the time
  | clockGettime
  | nanosleep (delay : Timespec)
  | localtimeR
  | strftime (maxsize : Nat)

/-- The answer to a call. Where a call returns `-1` for an error and a size otherwise, the answer
is an `Option`. -/
@[reducible] def Sys.Ret {β : Type} : Sys β → Type
  | .setThreadStatus _ _ | .setThread _ _ | .setNext _ _ | .setFirst _ | .freeNode _ => Unit
  | .setIsTerminated | .mutexLock | .mutexUnlock | .semWait | .semPost | .pthreadExit => Unit
  | .getThreadStatus _ => ThreadStatus
  | .getThread _ | .mallocNode _ => Nat
  | .getNext _ | .getFirst => Option Nat
  | .isTerminated | .localtimeR => Bool
  -- the error number, and the thread if there is none
  | .pthreadCreate _ => Int × Nat
  | .pthreadJoin _ | .getClientFd _ => Int
  | .openFile _ _ | .close _ => Int
  | .write _ _ | .send _ _ _ => Option Nat
  | .read _ _ => Option (List β)
  | .recv _ _ => Option (List UInt8)
  -- the result, and what is stored to `*client_fd_ptr`
  | .createConnection => Int × Int
  -- the descriptor, or the error number
  | .accept => Except Int Nat
  | .errno | .nanosleep _ => Int
  | .clockGettime => Timespec
  -- the text without its terminator
  | .strftime _ => List UInt8

/-- A program of the server. -/
abbrev ServerProg (β α : Type) := Prog (@Sys.Ret β) α

/-- Makes one call. -/
abbrev sys {β : Type} (e : Sys β) : ServerProg β e.Ret := Prog.perform e

/-- A call of the server with its answer. -/
abbrev SysEvent (β : Type) := Event (@Sys.Ret β)

/-- The calls of all threads. -/
abbrev Trace (β : Type) := List (Nat × SysEvent β)

/-! ## What the calls of a thread say -/

section History

variable {β : Type}

/-- The bytes that this call received. -/
def receivedBy : SysEvent β → List UInt8
  | ⟨.recv _ _, some bytes⟩ => bytes
  | _ => []

/-- The bytes that this call sent. -/
def sentBy : SysEvent β → List β
  | ⟨.send _ buf _, some n⟩ => buf.take n
  | _ => []

/-- The status that this call wrote. -/
def statusBy : SysEvent β → Option ThreadStatus
  | ⟨.setThreadStatus _ status, _⟩ => some status
  | _ => none

/-- The bytes that `recv` handed over. -/
def received (es : List (SysEvent β)) : List UInt8 := es.flatMap receivedBy

/-- The bytes that `send` accepted. -/
def sent (es : List (SysEvent β)) : List β := es.flatMap sentBy

/-- The status that was written last. -/
def lastStatus (es : List (SysEvent β)) : Option ThreadStatus := (es.filterMap statusBy).getLast?

theorem sent_cons (e : SysEvent β) (es : List (SysEvent β)) :
    sent (e :: es) = sentBy e ++ sent es := List.flatMap_cons

@[simp] theorem received_append (es es' : List (SysEvent β)) :
    received (es ++ es') = received es ++ received es' := List.flatMap_append

@[simp] theorem sent_append (es es' : List (SysEvent β)) :
    sent (es ++ es') = sent es ++ sent es' := List.flatMap_append

theorem lastStatus_push (es : List (SysEvent β)) (e : SysEvent β) :
    lastStatus (es ++ [e]) = (statusBy e).or (lastStatus es) := by
  unfold lastStatus
  rw [List.filterMap_append, List.getLast?_append]
  cases he : statusBy e <;> simp [he]

/-- What a thread has received and sent so far, and its status. -/
structure Account (es : List (SysEvent β)) (rcv : List UInt8) (snt : List β)
    (status : Option ThreadStatus) : Prop where
  received : received es = rcv
  sent : sent es = snt
  status : lastStatus es = status

theorem Account.push {es : List (SysEvent β)} {rcv : List UInt8} {snt : List β}
    {status : Option ThreadStatus} (h : Account es rcv snt status) (e : SysEvent β) :
    Account (es ++ [e]) (rcv ++ receivedBy e) (snt ++ sentBy e) ((statusBy e).or status) where
  received := by
    rw [received_append, h.received]
    simp [Server.received]
  sent := by
    rw [sent_append, h.sent]
    simp [Server.sent]
  status := by rw [lastStatus_push, h.status]

/-- A call that is none of these three. -/
theorem Account.quiet {es : List (SysEvent β)} {rcv : List UInt8} {snt : List β}
    {status : Option ThreadStatus} (h : Account es rcv snt status) (e : SysEvent β)
    (hr : receivedBy e = []) (hs : sentBy e = []) (ht : statusBy e = none) :
    Account (es ++ [e]) rcv snt status := by
  have hp := h.push e
  rwa [hr, hs, ht, List.append_nil, List.append_nil, Option.none_or] at hp

theorem Account.send {es : List (SysEvent β)} {rcv : List UInt8} {snt : List β}
    {status : Option ThreadStatus} (h : Account es rcv snt status) (fd : Int) (buf : List β)
    (len : Nat) (r : Option Nat) : Account (es ++ [⟨.send fd buf len, r⟩]) rcv
      (snt ++ sentBy ⟨.send fd buf len, r⟩) status := by
  simpa [receivedBy, statusBy] using h.push ⟨.send fd buf len, r⟩

end History

end Aesd.Server

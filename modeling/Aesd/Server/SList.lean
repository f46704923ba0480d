import Aesd.Server.Worker

/-!
# `application` and its list of threads

The macros of `queue.h` that the server uses, the list functions of `utilities.c`, and
`application` of `main.c`. Each link that is read or set is a call of its own, since the threads run
between any two of them. A loop over the list takes the number of its rounds; `application` is given
enough of them for any list that it can build.
-/

namespace Aesd.Server

open Infra Prog

variable {β : Type}

/-! ## `queue.h` -/

/-- The node behind a pointer. A program that follows `NULL` goes nowhere. -/
def nonNull : Option Nat → ServerProg β Nat
  | some node => .ret node
  | none => .spin

/-- `SLIST_INIT` -/
def slistInit : ServerProg β Unit := sys (.setFirst none)

/-- `SLIST_INSERT_HEAD` -/
def slistInsertHead (elm : Nat) : ServerProg β Unit := do
  sys (.setNext elm (← sys .getFirst))
  sys (.setFirst (some elm))

/-- `SLIST_REMOVE_HEAD` -/
def slistRemoveHead : ServerProg β Unit := do
  let first ← nonNull (← sys .getFirst)
  sys (.setFirst (← sys (.getNext first)))

/-- `SLIST_REMOVE_AFTER` -/
def slistRemoveAfter (elm : Nat) : ServerProg β Unit := do
  let next ← nonNull (← sys (.getNext elm))
  sys (.setNext elm (← sys (.getNext next)))

/-- One round of the search in `SLIST_REMOVE`, which reads the link twice. -/
def slistSearchRound (elm : Nat) (curelm : Option Nat) : ServerProg β (Option Nat ⊕ Nat) := do
  let curelm ← nonNull curelm
  if (← sys (.getNext curelm)) = some elm then
    return .inr curelm
  return .inl (← sys (.getNext curelm))

/-- `SLIST_REMOVE`, without `QUEUE_MACRO_DEBUG` -/
def slistRemove (rounds : Nat) (elm : Nat) : ServerProg β Unit := do
  if (← sys .getFirst) = some elm then
    slistRemoveHead
  else
    slistRemoveAfter (← iter (slistSearchRound elm) rounds (← sys .getFirst))

/-! ## `utilities.c` -/

/-- One round of `slist_free`. -/
def slistFreeRound (rounds : Nat) (_ : Unit) : ServerProg β (Unit ⊕ Unit) := do
  if (← sys .getFirst) = none then
    return .inr ()
  let tmp ← nonNull (← sys .getFirst)
  slistRemove rounds tmp
  sys (.freeNode tmp)
  return .inl ()

def slistFree (rounds : Nat) : ServerProg β Unit :=
  iter (slistFreeRound rounds) rounds ()

/-- What both loops over the threads do with a node they take out; the result is whether
`pthread_join` returned an error. -/
def joinThread (rounds : Nat) (slistNode : Nat) : ServerProg β Bool := do
  let pthreadJoinResult ← sys (.pthreadJoin (← sys (.getThread slistNode)))
  slistRemove rounds slistNode
  sys (.freeNode slistNode)
  return pthreadJoinResult ≠ 0

/-- One round of `slist_join_completed_threads`, from `slist_node` and `is_error`. The link is
read before the body of the loop (`SLIST_FOREACH_SAFE`); `FAILED` falls through to `SUCCEEDED`. -/
def slistJoinCompletedRound (rounds : Nat) :
    Option Nat × Bool → ServerProg β ((Option Nat × Bool) ⊕ Bool)
  | (none, isError) => return .inr isError
  | (some slistNode, isError) => do
    let slistNextNode ← sys (.getNext slistNode)
    match ← sys (.getThreadStatus slistNode) with
    | .unititialized | .running =>
      return .inl (slistNextNode, isError)
    | .failed =>
      let _ ← joinThread rounds slistNode
      return .inl (slistNextNode, true)
    | .succeeded =>
      return .inl (slistNextNode, isError || (← joinThread rounds slistNode))

def slistJoinCompletedThreads (rounds : Nat) : ServerProg β Bool := do
  iter (slistJoinCompletedRound rounds) rounds (← sys .getFirst, false)

/-- One round of `slist_join_threads`. -/
def slistJoinRound (rounds : Nat) :
    Option Nat × Bool → ServerProg β ((Option Nat × Bool) ⊕ Bool)
  | (none, isError) => return .inr isError
  | (some slistNode, isError) => do
    let slistNextNode ← sys (.getNext slistNode)
    return .inl (slistNextNode, isError || (← joinThread rounds slistNode))

def slistJoinThreads (rounds : Nat) : ServerProg β Bool := do
  iter (slistJoinRound rounds) rounds (← sys .getFirst, false)

/-! ## `main.c` -/

/-- `application` once a connection is created: the thread for it, and the new
`application_result`. -/
def startThread (applicationResult clientSocket : Int) : ServerProg β Int := do
  let slistData ← sys (.mallocNode clientSocket)
  let (pthreadCreateResult, threadId) ← sys (.pthreadCreate slistData)
  if pthreadCreateResult ≠ 0 then
    sys (.freeNode slistData)
    let _ ← sys (.close clientSocket)
    sys .setIsTerminated
    return -1
  -- Add thread to linked list
  sys (.setThread slistData threadId)
  slistInsertHead slistData
  return applicationResult

/-- The body of the loop of `application`, from `application_result`. -/
def applicationRound (rounds : Nat) (applicationResult : Int) : ServerProg β Int := do
  let (connectionResult, clientSocket) ← sys .createConnection
  if connectionResult = -1 then
    let _ ← sys (.close clientSocket)
    sys .setIsTerminated
    return -1
  else if connectionResult = 0 then
    startThread applicationResult clientSocket
  else if connectionResult = 1 then
    return applicationResult
  else if connectionResult = 2 then
    if ← slistJoinCompletedThreads rounds then
      sys .setIsTerminated
      return -1
    return applicationResult
  else
    return applicationResult

/-- At most `n` rounds of the loop of `application`: `none` if it does not end by then. -/
def applicationLoop (rounds : Nat) : Nat → Int → ServerProg β (Option Int)
  | 0, _ => return none
  | n + 1, applicationResult => do
    if ← sys .isTerminated then
      return some applicationResult
    applicationLoop rounds n (← applicationRound rounds applicationResult)

/-- What `application` does after its loop. -/
def applicationEnd (rounds : Nat) (applicationResult : Int) : ServerProg β Int := do
  -- Wait for all threads to join
  let isError ← slistJoinThreads rounds
  slistFree rounds
  return if isError then -1 else applicationResult

/-- `application`, for up to `n` rounds of its loop. The list gains at most one node a round. -/
def application (n : Nat) : ServerProg β (Option Int) := do
  slistInit
  match ← applicationLoop (n + 1) n 0 with
  | none => return none
  | some applicationResult => return some (← applicationEnd (n + 1) applicationResult)

/-! ## The same, call by call -/

theorem slistInsertHead_eq (elm : Nat) : (slistInsertHead elm : ServerProg β Unit)
    = .call .getFirst fun first => .call (.setNext elm first) fun _ =>
      .call (.setFirst (some elm)) .ret := rfl

theorem slistRemoveHead_eq : (slistRemoveHead : ServerProg β Unit)
    = .call .getFirst fun first => (nonNull first).bind fun node =>
      .call (.getNext node) fun next => .call (.setFirst next) .ret := rfl

theorem slistRemoveAfter_eq (elm : Nat) : (slistRemoveAfter elm : ServerProg β Unit)
    = .call (.getNext elm) fun next => (nonNull next).bind fun node =>
      .call (.getNext node) fun after => .call (.setNext elm after) .ret := rfl

theorem slistSearch_succ (elm rounds curelm : Nat) :
    (iter (slistSearchRound elm) (rounds + 1) (some curelm) : ServerProg β Nat)
      = .call (.getNext curelm) fun next => if next = some elm then .ret curelm
        else .call (.getNext curelm) (iter (slistSearchRound elm) rounds) := by
  rw [iter_succ]
  unfold slistSearchRound
  simp only [nonNull, bind_eq, ret_bind, perform_bind, call_bind, pure_eq]
  congr 1
  funext next
  split <;> rfl

theorem slistRemove_eq (rounds elm : Nat) : (slistRemove rounds elm : ServerProg β Unit)
    = .call .getFirst fun first => if first = some elm then slistRemoveHead
      else .call .getFirst fun first =>
        (iter (slistSearchRound elm) rounds first).bind slistRemoveAfter := rfl

theorem joinThread_eq (rounds node : Nat) : (joinThread rounds node : ServerProg β Bool)
    = .call (.getThread node) fun thread => .call (.pthreadJoin thread) fun result =>
      (slistRemove rounds node).bind fun _ => .call (.freeNode node) fun _ =>
        .ret (decide (result ≠ 0)) := rfl

/-- The statuses with which a thread is taken out of the list. -/
def ThreadStatus.isDone : ThreadStatus → Bool
  | .unititialized | .running => false
  | .succeeded | .failed => true

theorem slistJoinCompletedRound_eq (rounds node : Nat) (isError : Bool) :
    (slistJoinCompletedRound rounds (some node, isError) : ServerProg β _)
      = .call (.getNext node) fun next => .call (.getThreadStatus node) fun status =>
        if status.isDone then (joinThread rounds node).bind fun failed =>
          .ret (.inl (next, isError || failed || decide (status = .failed)))
        else .ret (.inl (next, isError)) := by
  unfold slistJoinCompletedRound
  simp only [bind_eq, perform_bind, pure_eq]
  congr 1
  funext next
  congr 1
  funext status
  cases status <;> simp [ThreadStatus.isDone]

theorem slistJoinCompleted_succ (rounds n node : Nat) (isError : Bool) :
    (iter (slistJoinCompletedRound rounds) (n + 1) (some node, isError) : ServerProg β Bool)
      = .call (.getNext node) fun next => .call (.getThreadStatus node) fun status =>
        if status.isDone then (joinThread rounds node).bind fun failed =>
          iter (slistJoinCompletedRound rounds) n
            (next, isError || failed || decide (status = .failed))
        else iter (slistJoinCompletedRound rounds) n (next, isError) := by
  rw [iter_succ, slistJoinCompletedRound_eq, call_bind]
  congr 1
  funext next
  rw [call_bind]
  congr 1
  funext status
  split
  · rw [bind_assoc]
    rfl
  · rfl

theorem slistJoin_succ (rounds n node : Nat) (isError : Bool) :
    (iter (slistJoinRound rounds) (n + 1) (some node, isError) : ServerProg β Bool)
      = .call (.getNext node) fun next => (joinThread rounds node).bind fun failed =>
        iter (slistJoinRound rounds) n (next, isError || failed) := by
  rw [iter_succ]
  unfold slistJoinRound
  simp only [bind_eq, perform_bind, call_bind, pure_eq, bind_assoc, ret_bind, Sum.elim_inl]

theorem startThread_eq (applicationResult clientSocket : Int) :
    (startThread applicationResult clientSocket : ServerProg β Int)
      = .call (.mallocNode clientSocket) fun node => .call (.pthreadCreate node) fun r =>
        if r.1 ≠ 0 then
          .call (.freeNode node) fun _ => .call (.close clientSocket) fun _ =>
            .call .setIsTerminated fun _ => .ret (-1)
        else
          .call (.setThread node r.2) fun _ => (slistInsertHead node).bind fun _ =>
            .ret applicationResult := rfl

theorem applicationRound_eq (rounds : Nat) (applicationResult : Int) :
    (applicationRound rounds applicationResult : ServerProg β Int)
      = .call .createConnection fun r =>
        if r.1 = -1 then
          .call (.close r.2) fun _ => .call .setIsTerminated fun _ => .ret (-1)
        else if r.1 = 0 then startThread applicationResult r.2
        else if r.1 = 1 then .ret applicationResult
        else if r.1 = 2 then (slistJoinCompletedThreads rounds).bind fun isError =>
          if isError then .call .setIsTerminated fun _ => .ret (-1) else .ret applicationResult
        else .ret applicationResult := rfl

theorem applicationLoop_succ (rounds n : Nat) (applicationResult : Int) :
    (applicationLoop rounds (n + 1) applicationResult : ServerProg β (Option Int))
      = .call .isTerminated fun terminated =>
        if terminated then .ret (some applicationResult)
        else (applicationRound rounds applicationResult).bind (applicationLoop rounds n) := rfl

theorem applicationEnd_eq (rounds : Nat) (applicationResult : Int) :
    (applicationEnd rounds applicationResult : ServerProg β Int)
      = (slistJoinThreads rounds).bind fun isError => (slistFree rounds).bind fun _ =>
        .ret (if isError then -1 else applicationResult) := rfl

theorem application_eq (n : Nat) : (application n : ServerProg β (Option Int))
    = .call (.setFirst none) fun _ => (applicationLoop (n + 1) n 0).bind fun result =>
      match result with
      | none => .ret none
      | some applicationResult => (applicationEnd (n + 1) applicationResult).bind fun r =>
        .ret (some r) := rfl

end Aesd.Server

import Aesd.Infra.Expand
import Aesd.Server.Application
import Aesd.Server.Connection

/-!
# `application` with its polling written out

So far a connection attempt was one call of `application`. Here it is the polling loop of
`socket_client.c`, whose `accept` is where a client socket comes from. What was proved about the
threads carries over: a run with the loop has a run with the call beside it.

In between, `application` has at most one socket in its hands. As long as the loop finds `EAGAIN`
in `errno` whenever it looks, `application` passes the socket on to a thread or closes it.
-/

namespace Aesd.Server

open Infra Prog

variable {β : Type}

/-! ## The system -/

/-- The call and its program: `client_socket` is 0 before it, and `timeout` is a second. -/
def polling (polls : Nat) : (e : Sys β) → Option (ServerProg β e.Ret)
  | .createConnection => some (socketClientCreateConnection polls 0 ⟨1, 0⟩)
  | _ => none

/-- `application`, and the threads that it may create. -/
def pollingStart (garbage : Option Nat) (n polls : Nat) (rounds : Nat → Nat) (file : String) :
    Config (@Sys.Ret β) Process (Option Int) :=
  { world := processStart garbage
    prog := fun t =>
      if t = 0 then (application n).expand (polling polls) else workerThread (rounds t) file t }

/-- The calls of the polling loop. -/
def Sys.polls : Sys β → Prop
  | .isTerminated | .clockGettime | .accept | .errno | .nanosleep _ => True
  | _ => False

theorem polling_eq_some {polls : Nat} {e : Sys β} {p : ServerProg β e.Ret}
    (h : polling polls e = some p) : e = .createConnection := by
  cases e with
  | createConnection => rfl
  | _ => cases h

theorem connectRound_calls (endTime : Timespec) (clientFdPtr clientFd : Int) :
    (connectRound endTime clientFdPtr clientFd : ServerProg β _).Calls Sys.polls := by
  unfold connectRound
  simp only [bind_eq, perform_bind, pure_eq]
  split
  · trivial
  · refine .call trivial fun terminated => ?_
    split
    · trivial
    · refine .call trivial fun currentTime => ?_
      split
      · trivial
      · refine .call trivial fun accepted => .call trivial fun errno => ?_
        split
        · exact .call trivial fun _ => trivial
        · trivial

theorem createConnection_calls (polls : Nat) (clientFdPtr : Int) (timeout : Timespec) :
    (socketClientCreateConnection polls clientFdPtr timeout : ServerProg β _).Calls Sys.polls := by
  rw [createConnection_eq]
  exact .call trivial fun startTime => .iter (connectRound_calls _ _) polls (-1)

/-! ## The run beside it -/

/-- The same state, in which a signal may not have been noticed so far. -/
def Lags (s s' : Process) : Prop :=
  ∃ b, s' = { s with isTerminated := b } ∧ (b = true → s.isTerminated = true)

theorem Lags.refl (s : Process) : Lags s s := ⟨s.isTerminated, rfl, id⟩

/-- Any call has the same effect in both states, with a suitable moment for the signal. -/
theorem processCall_lags {joinFails : Bool} {t : Nat} {e : Sys β} {s s' s₁ : Process}
    {a : Answers β} {r : e.Ret} (hs : Lags s s')
    (hcall : processCall joinFails t e s a = some (r, s₁)) :
    ∃ a' s₁', processCall joinFails t e s' a' = some (r, s₁') ∧ Lags s₁ s₁' := by
  obtain ⟨b, rfl, hb⟩ := hs
  cases e with
  | setThreadStatus n _ | setThread n _ | setNext n _ | freeNode n =>
    obtain ⟨x, hx, heq⟩ := Option.map_eq_some_iff.mp hcall
    cases heq
    exact ⟨a, _, Option.map_eq_some_iff.mpr ⟨x, hx, rfl⟩, b, rfl, hb⟩
  | getThreadStatus n | getClientFd n | getThread n | getNext n =>
    obtain ⟨x, hx, heq⟩ := Option.map_eq_some_iff.mp hcall
    cases heq
    exact ⟨a, _, Option.map_eq_some_iff.mpr ⟨_, hx, rfl⟩, b, rfl, hb⟩
  | isTerminated =>
    -- the short run notices the signal at the latest now
    cases hcall
    refine ⟨⟨fun e => match e with
      | .isTerminated => s.isTerminated || a .isTerminated
      | e => a e, a.waits⟩, { s with isTerminated := s.isTerminated || a .isTerminated }, ?_, _,
      rfl, id⟩
    cases b with
    | false => rfl
    | true =>
      rw [hb rfl]
      rfl
  | setIsTerminated =>
    cases hcall
    exact ⟨a, _, rfl, true, rfl, fun _ => rfl⟩
  | mutexLock | mutexUnlock =>
    obtain ⟨hfree, heq⟩ := Option.ite_none_right_eq_some.mp hcall
    cases heq
    exact ⟨a, _, if_pos hfree, b, rfl, hb⟩
  | pthreadCreate n =>
    simp only [processCall] at hcall
    split at hcall
    · cases hcall
      exact ⟨a, _, if_pos ‹_›, b, rfl, hb⟩
    · cases hcall
      exact ⟨a, _, if_neg ‹_›, b, rfl, hb⟩
  | pthreadJoin n =>
    simp only [processCall] at hcall
    split at hcall
    · cases hcall
      exact ⟨a, _, if_pos ‹_›, b, rfl, hb⟩
    · rename_i hjoin
      obtain ⟨hended, heq⟩ := Option.ite_none_right_eq_some.mp hcall
      cases heq
      exact ⟨a, _, (if_neg hjoin).trans (if_pos hended), b, rfl, hb⟩
  | recv _ _ | send _ _ _ =>
    obtain ⟨hready, heq⟩ := Option.ite_none_left_eq_some.mp hcall
    cases heq
    exact ⟨a, _, if_neg hready, b, rfl, hb⟩
  | _ =>
    cases hcall
    exact ⟨a, _, rfl, b, rfl, hb⟩

theorem polling_expands (polls : Nat) :
    Expands (@processSystem β false) (polling polls) 0 Sys.polls Lags where
  calls {e p} h := by
    obtain rfl := polling_eq_some h
    cases h
    exact createConnection_calls polls 0 ⟨1, 0⟩
  busy {e p} h := by
    obtain rfl := polling_eq_some h
    cases h
    exact nofun
  same {w w' t e a r s} hs hact := by
    obtain ⟨hrunning, hcall⟩ := processSystem_act hact
    obtain ⟨a', s', hcall', hs'⟩ := processCall_lags hs hcall
    obtain ⟨b, hw', -⟩ := hs
    refine ⟨a', s', (if_pos ?_).trans hcall', hs'⟩
    rw [hw']
    exact hrunning
  quiet {w w' e a r s} he hs hact := by
    obtain ⟨-, hcall⟩ := processSystem_act hact
    obtain ⟨b, hw', hb⟩ := hs
    cases e with
    | isTerminated =>
      cases hcall
      exact ⟨b, hw', fun h => by simp [hb h]⟩
    | clockGettime | accept | errno | nanosleep _ =>
      cases hcall
      exact ⟨b, hw', hb⟩
    | _ => exact he.elim
  any {s w' e p} h hs a r := by
    obtain rfl := polling_eq_some h
    exact ⟨⟨fun e => match e with
      | .createConnection => r
      | e => a e, a.waits⟩, w'.state, rfl, hs⟩

/-- **When `application` has returned**, every thread that it created was joined. -/
theorem polling_joined {garbage : Option Nat} {n polls : Nat} {rounds : Nat → Nat} {file : String}
    {schedule : List (Nat × Answers β)} {c : Config (@Sys.Ret β) Process (Option Int)} {r : Int}
    (hrun : (processSystem false).run (pollingStart garbage n polls rounds file) schedule = some c)
    (hret : c.prog 0 = .ret (some r)) (m : Nat) (hm : c.world.state.life m ≠ .unborn) :
    c.world.state.life m = .joined := by
  have hstart : Beside (polling polls) 0 Sys.polls Lags
      (pollingStart garbage n polls rounds file : Config (@Sys.Ret β) Process (Option Int))
      (serverStart garbage n rounds file) := by
    refine ⟨Lags.refl _, fun t ht => ?_, .level _⟩
    simp [pollingStart, serverStart, ht]
  obtain ⟨schedule', c', hrun', hbeside⟩ := hstart.run (polling_expands polls) hrun
  have htracks := hbeside.tracks
  rw [hret] at htracks
  have hgood := (server_good false garbage n rounds file).run hrun'
  have hdone : Done false r (picture c'.world) :=
    hgood.ret (htracks.ret (polling_expands polls)) rfl r rfl
  obtain ⟨b, hstate, -⟩ := hbeside.state
  have hlife : c'.world.state.life = c.world.state.life := by rw [hstate]
  rw [← hlife] at hm ⊢
  exact ((hdone.bookkeeping hgood.1).2.1 m hm).1

/-! ## The socket in the hands of `application` -/

/-- What `application` has to take care of: a socket, and the node that was allocated for one. -/
structure Hand where
  socket : Option Int
  node : Option (Nat × Int)

namespace Hand

def empty : Hand := ⟨none, none⟩

def next (h : Hand) : SysEvent β → Hand
  | ⟨.accept, .ok fd⟩ => { h with socket := some fd }
  | ⟨.close _, _⟩ => { h with socket := none }
  | ⟨.mallocNode fd, n⟩ => { h with node := some (n, fd) }
  -- the thread has the socket now
  | ⟨.pthreadCreate _, r⟩ => if r.1 = 0 then empty else h
  | _ => h

/-- After these calls. -/
def of (es : List (SysEvent β)) : Hand := es.foldl next empty

@[simp] theorem of_push (es : List (SysEvent β)) (x : SysEvent β) :
    of (es ++ [x]) = (of es).next x := by
  simp [of, List.foldl_append]

end Hand

/-- What `application` goes by, as long as `errno` is `EAGAIN` when it is read: it accepts with
empty hands, and closes or passes on what it has. -/
def handView : View (@Sys.Ret β) Hand where
  may h e :=
    match e with
    | .accept => h.socket = none
    | .close fd | .mallocNode fd => h.socket = some fd
    | .pthreadCreate n => ∃ fd, h.socket = some fd ∧ h.node = some (n, fd)
    | .getThreadStatus _ | .getThread _ | .setThread _ _ | .getNext _ | .setNext _ _ => True
    | .getFirst | .setFirst _ | .freeNode _ | .pthreadJoin _ => True
    | .isTerminated | .setIsTerminated | .clockGettime | .errno | .nanosleep _ => True
    | _ => False
  answers _ e r :=
    match e, r with
    | .errno, r => r = eagain
    | _, _ => True
  next := Hand.next
  spins := True

/-- The calls with which `application` walks over its list. -/
def Sys.walks : Sys β → Prop
  | .getThreadStatus _ | .getThread _ | .getNext _ | .setNext _ _ | .getFirst => True
  | .setFirst _ | .freeNode _ | .pthreadJoin _ => True
  | _ => False

theorem nonNull_calls (first : Option Nat) :
    (nonNull first : ServerProg β Nat).Calls Sys.walks := by
  cases first <;> trivial

theorem slistRemove_calls (rounds elm : Nat) :
    (slistRemove rounds elm : ServerProg β Unit).Calls Sys.walks := by
  have hround : ∀ curelm, (slistSearchRound elm curelm : ServerProg β _).Calls Sys.walks := by
    intro curelm
    unfold slistSearchRound
    simp only [bind_eq, perform_bind, pure_eq]
    refine .bind (nonNull_calls curelm) fun curelm => .call trivial fun next => ?_
    split
    · trivial
    · exact .call trivial fun next => trivial
  rw [slistRemove_eq]
  refine .call trivial fun first => ?_
  split
  · rw [slistRemoveHead_eq]
    exact .call trivial fun first => .bind (nonNull_calls first) fun node =>
      .call trivial fun next => .call trivial fun _ => trivial
  · refine .call trivial fun first => .bind (.iter hround rounds first) fun elm => ?_
    rw [slistRemoveAfter_eq]
    exact .call trivial fun next => .bind (nonNull_calls next) fun node =>
      .call trivial fun after => .call trivial fun _ => trivial

theorem joinThread_calls (rounds node : Nat) :
    (joinThread rounds node : ServerProg β Bool).Calls Sys.walks := by
  rw [joinThread_eq]
  exact .call trivial fun thread => .call trivial fun result =>
    .bind (slistRemove_calls rounds node) fun _ => .call trivial fun _ => trivial

theorem slistJoinCompleted_calls (rounds : Nat) :
    (slistJoinCompletedThreads rounds : ServerProg β Bool).Calls Sys.walks := by
  refine .call trivial fun first => .iter ?_ rounds _
  rintro ⟨_ | node, isError⟩
  · trivial
  · rw [slistJoinCompletedRound_eq]
    refine .call trivial fun next => .call trivial fun status => ?_
    split
    · exact .bind (joinThread_calls rounds node) fun _ => trivial
    · trivial

theorem slistJoin_calls (rounds : Nat) :
    (slistJoinThreads rounds : ServerProg β Bool).Calls Sys.walks := by
  refine .call trivial fun first => .iter ?_ rounds _
  rintro ⟨_ | node, isError⟩
  · trivial
  · unfold slistJoinRound
    simp only [bind_eq, perform_bind, pure_eq]
    exact .call trivial fun next => .bind (joinThread_calls rounds node) fun _ => trivial

theorem slistFree_calls (rounds : Nat) :
    (slistFree rounds : ServerProg β Unit).Calls Sys.walks := by
  refine .iter (fun _ => ?_) rounds _
  unfold slistFreeRound
  simp only [bind_eq, perform_bind, pure_eq]
  refine .call trivial fun first => ?_
  split
  · trivial
  · exact .call trivial fun first => .bind (nonNull_calls first) fun tmp =>
      .bind (slistRemove_calls rounds tmp) fun _ => .call trivial fun _ => trivial

section Hand

variable {polls : Nat} {h : Hand} {α : Type}

/-- A walk over the list, which has no connection attempt in it. -/
theorem hand_walks {p : ServerProg β α} (hp : p.Calls Sys.walks) :
    handView.wp (p.expand (polling polls)) (fun _ h' => h' = h) h := by
  have hknown : ∀ e : Sys β, e.walks → polling polls e = none := by
    intro e he
    cases e <;> first | exact he.elim | rfl
  rw [expand_eq_self (hp.mono hknown)]
  refine View.wp_calls ?_ ?_ trivial hp rfl
  · intro h' e _ he
    cases e <;> first | exact he.elim | exact trivial
  · rintro h' e r rfl he
    cases e <;> first | exact he.elim | rfl

/-- **A connection attempt**, as long as `errno` is `EAGAIN` whenever it is read: the socket that
was accepted is handed over, and there is no error. -/
theorem hand_createConnection (clientFdPtr : Int) (timeout : Timespec) (hh : h.socket = none) :
    handView.wp (socketClientCreateConnection polls clientFdPtr timeout : ServerProg β _)
      (fun r h' => r.1 = 0 ∧ h' = { h with socket := some r.2 } ∨ (r.1 = 1 ∨ r.1 = 2) ∧ h' = h)
      h := by
  rw [createConnection_eq]
  refine ⟨trivial, fun startTime _ => ?_⟩
  -- the polls before a client is there, by induction on the rounds
  have hloop : ∀ (polls : Nat), handView.wp
      (iter (connectRound (timespecAdd startTime timeout) clientFdPtr) polls (-1) :
        ServerProg β (Int × Int))
      (fun r h' => r.1 = 0 ∧ h' = { h with socket := some r.2 } ∨ (r.1 = 1 ∨ r.1 = 2) ∧ h' = h)
      h := by
    intro polls
    induction polls with
    | zero => trivial
    | succ polls ih =>
      rw [connectLoop_succ]
      refine ⟨trivial, fun terminated _ => ?_⟩
      cases terminated with
      | true => exact Or.inr ⟨Or.inl rfl, rfl⟩
      | false =>
        refine ⟨trivial, fun currentTime _ => ?_⟩
        cases helapsed : timespecIsElapsed (timespecAdd startTime timeout) currentTime with
        | true =>
          simp only [helapsed]
          exact Or.inr ⟨Or.inr rfl, rfl⟩
        | false =>
          simp only [helapsed]
          refine ⟨hh, fun accepted _ => ⟨trivial, fun errno herrno => ?_⟩⟩
          beta_reduce
          rw [if_pos (show errno = eagain from herrno)]
          refine ⟨trivial, fun _ _ => ?_⟩
          cases accepted with
          | error e => exact ih
          | ok fd =>
            cases polls with
            | zero => trivial
            | succ polls =>
              rw [show acceptResult (.ok fd) = (fd : Int) from rfl, connectLoop_done]
              exact Or.inl ⟨rfl, rfl⟩
  exact hloop polls

/-- The socket goes to a thread, or it is closed. -/
theorem hand_startThread (applicationResult clientSocket : Int)
    (hh : h.socket = some clientSocket) :
    handView.wp ((startThread applicationResult clientSocket : ServerProg β Int).expand
      (polling polls)) (fun _ h' => h'.socket = none) h := by
  rw [expand_eq_self (by
    rw [startThread_eq]
    refine .call rfl fun node => .call rfl fun r => ?_
    split
    · exact .call rfl fun _ => .call rfl fun _ => .call rfl fun _ => trivial
    · refine .call rfl fun _ => ?_
      rw [slistInsertHead_eq]
      exact .call rfl fun _ => .call rfl fun _ => .call rfl fun _ => trivial), startThread_eq]
  refine ⟨hh, fun node _ => ⟨⟨clientSocket, hh, rfl⟩, fun r _ => ?_⟩⟩
  beta_reduce
  by_cases hr : r.1 = 0
  · rw [if_neg (not_not.mpr hr), slistInsertHead_eq]
    refine ⟨trivial, fun _ _ => ⟨trivial, fun _ _ => ⟨trivial, fun _ _ => ⟨trivial,
      fun _ _ => ?_⟩⟩⟩⟩
    show ((h.next (⟨.mallocNode clientSocket, node⟩ : SysEvent β)).next
      (⟨.pthreadCreate node, r⟩ : SysEvent β)).socket = none
    simp [Hand.next, hr, Hand.empty]
  · rw [if_pos hr]
    refine ⟨trivial, fun _ _ => ⟨?_, fun _ _ => ⟨trivial, fun _ _ => rfl⟩⟩⟩
    show ((h.next (⟨.mallocNode clientSocket, node⟩ : SysEvent β)).next
      (⟨.pthreadCreate node, r⟩ : SysEvent β)).socket = some clientSocket
    simp [Hand.next, hr, hh]

theorem hand_round (rounds : Nat) (applicationResult : Int) (hh : h.socket = none) :
    handView.wp ((applicationRound rounds applicationResult : ServerProg β Int).expand
      (polling polls)) (fun _ h' => h'.socket = none) h := by
  rw [applicationRound_eq, expand_known rfl]
  refine View.wp_bind (View.wp_mono ?_ (hand_createConnection 0 ⟨1, 0⟩ hh))
  rintro ⟨result, clientSocket⟩ h' (⟨rfl, rfl⟩ | ⟨hresult, rfl⟩)
  · dsimp only
    rw [if_neg (by decide), if_pos rfl]
    exact hand_startThread applicationResult clientSocket rfl
  · dsimp only at hresult ⊢
    rcases hresult with rfl | rfl
    · rw [if_neg (by decide), if_neg (by decide), if_pos rfl]
      exact hh
    · rw [if_neg (by decide), if_neg (by decide), if_neg (by decide), if_pos rfl, expand_bind]
      refine View.wp_bind (View.wp_mono ?_ (hand_walks (slistJoinCompleted_calls rounds)))
      rintro isError _ rfl
      cases isError with
      | true => exact ⟨trivial, fun _ _ => hh⟩
      | false => exact hh

theorem hand_loop (rounds : Nat) : ∀ (n : Nat) (applicationResult : Int) (h : Hand),
    h.socket = none → handView.wp ((applicationLoop rounds n applicationResult :
      ServerProg β (Option Int)).expand (polling polls)) (fun _ h' => h'.socket = none) h
  | 0, _, _, hh => hh
  | n + 1, applicationResult, h, hh => by
    rw [applicationLoop_succ, expand_other rfl]
    refine ⟨trivial, fun terminated _ => ?_⟩
    cases terminated with
    | true => exact hh
    | false =>
      beta_reduce
      rw [if_neg Bool.false_ne_true, expand_bind]
      exact View.wp_bind (View.wp_mono (fun result h' hh' => hand_loop rounds n result h' hh')
        (hand_round rounds applicationResult hh))

/-- **`application`** has nothing in its hands when it returns. -/
theorem hand_application (n : Nat) :
    handView.wp ((application n : ServerProg β (Option Int)).expand (polling polls))
      (fun _ h' => h'.socket = none) Hand.empty := by
  rw [application_eq, expand_other rfl]
  refine ⟨trivial, fun _ _ => ?_⟩
  rw [expand_bind]
  refine View.wp_bind (View.wp_mono (fun result h' hh => ?_) (hand_loop (n + 1) n 0 _ rfl))
  cases result with
  | none => exact hh
  | some applicationResult =>
    dsimp only
    rw [expand_bind, applicationEnd_eq, expand_bind]
    refine View.wp_bind (View.wp_bind (View.wp_mono ?_ (hand_walks (slistJoin_calls _))))
    rintro isError _ rfl
    rw [expand_bind]
    refine View.wp_bind (View.wp_mono ?_ (hand_walks (slistFree_calls _)))
    rintro _ _ rfl
    exact hh

end Hand

end Aesd.Server

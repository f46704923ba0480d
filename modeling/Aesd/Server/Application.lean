import Aesd.Server.Reaping

/-!
# Whole runs of `application`

`application` and all its workers, in any order. First that each worker keeps to its own node; then
what follows for the list of threads, and for the result that `application` returns.
-/

namespace Aesd.Server

open Infra Prog

variable {β : Type}

/-! ## The workers -/

/-- The calls with which a worker transfers data. -/
def Sys.transfers : Sys β → Prop
  | .openFile _ _ | .write _ _ | .read _ _ | .close _ | .recv _ _ | .send _ _ _ => True
  | _ => False

theorem appendToFile_calls (file : String) (buffer : List UInt8) :
    (appendToFile file buffer : ServerProg β Int).Calls Sys.transfers := by
  rw [appendToFile_eq]
  refine .call trivial fun fd => .call trivial fun result => ?_
  split
  · trivial
  · split
    · trivial
    · refine .call trivial fun closed => ?_
      split <;> trivial

theorem receive_calls (file : String) (clientFd : Int) (rounds : Nat) :
    (socketClientReceiveAndWriteData rounds file clientFd : ServerProg β Int).Calls
      Sys.transfers := by
  refine .iter (fun _ => ?_) rounds ()
  unfold receiveRound
  simp only [bind_eq, perform_bind, pure_eq]
  refine .call trivial fun recvBuffer => ?_
  split
  · trivial
  · refine .bind (appendToFile_calls file _) fun result => ?_
    split
    · trivial
    · split <;> trivial

theorem sendLoop_calls (fd clientFd : Int) (rounds : Nat) (s : List β × Option Nat) :
    (iter (sendRound fd clientFd) rounds s).Calls Sys.transfers := by
  refine .iter (fun s => ?_) rounds s
  unfold sendRound socketClientSendLine
  simp only [bind_eq, perform_bind, pure_eq, call_bind]
  split
  · exact .call trivial fun _ => trivial
  · refine .call trivial fun bytesSent => .bind ?_ fun failed => ?_
    · split
      · trivial
      · split <;> trivial
    · split
      · trivial
      · exact .call trivial fun bytes => trivial

theorem sendFile_calls (rounds : Nat) (file : String) (clientFd : Int) :
    (socketClientSendFile rounds file clientFd : ServerProg β Int).Calls Sys.transfers := by
  rw [sendFile_eq]
  exact .call trivial fun fd => .call trivial fun bytes => sendLoop_calls fd clientFd rounds _

/-- All calls of `data_transfer_worker`. -/
def Sys.works : Sys β → Prop
  | .setThreadStatus _ _ | .mutexLock | .mutexUnlock | .pthreadExit => True
  | e => e.transfers

theorem Sys.works_of_transfers {e : Sys β} (he : e.transfers) : e.works := by
  cases e <;> first | exact he.elim | exact trivial

theorem endWorker_calls (node : Nat) (clientFd : Int) (status : ThreadStatus) :
    (endWorker node clientFd status : ServerProg β Unit).Calls Sys.works :=
  .call trivial fun _ => .call trivial fun _ => .call trivial fun _ => trivial

theorem dataTransferWorker_calls (rounds : Nat) (file : String) (node : Nat) (clientFd : Int) :
    (dataTransferWorker rounds file node clientFd : ServerProg β Unit).Calls Sys.works := by
  have hfail : (failWorker node clientFd : ServerProg β Unit).Calls Sys.works := by
    rw [failWorker_eq]
    exact .call trivial fun _ => endWorker_calls node clientFd .failed
  rw [dataTransferWorker_eq]
  refine .call trivial fun _ => .call trivial fun _ => ?_
  refine .bind ((receive_calls file clientFd rounds).mono fun _ => Sys.works_of_transfers)
    fun received => ?_
  split
  · exact hfail
  refine .call trivial fun _ => .call trivial fun _ => ?_
  refine .bind ((sendFile_calls rounds file clientFd).mono fun _ => Sys.works_of_transfers)
    fun replied => ?_
  split
  · exact hfail
  · exact .call trivial fun _ => endWorker_calls node clientFd .succeeded

/-- What a worker pays attention to. -/
def NotFailed (es : List (SysEvent β)) : Prop := lastStatus es ≠ some .failed

theorem NotFailed.push {es : List (SysEvent β)} (h : NotFailed es) {e : SysEvent β}
    (he : statusBy e = none) : NotFailed (es ++ [e]) := by
  unfold NotFailed
  rw [lastStatus_push, he, Option.none_or]
  exact h

variable {t : Nat} {es : List (SysEvent β)} {α : Type} {Q : α → List (SysEvent β) → Prop}

/-- A call of a worker that sets no status. -/
theorem wp_plain {e : Sys β} {k : e.Ret → ServerProg β α} (h : NotFailed es)
    (hmay : (workerView t).may es e) (he : ∀ r, statusBy ⟨e, r⟩ = none)
    (hk : ∀ r es', NotFailed es' → (workerView t).wp (k r) Q es') :
    (workerView t).wp (.call e k) Q es :=
  ⟨hmay, fun r _ => hk r _ (h.push (he r))⟩

/-- A part that transfers data. -/
theorem wp_transfers {p : ServerProg β Int} {f : Int → ServerProg β α} (h : NotFailed es)
    (hp : p.Calls Sys.transfers)
    (hf : ∀ a es', NotFailed es' → (workerView t).wp (f a) Q es') :
    (workerView t).wp (p.bind f) Q es := by
  refine View.wp_bind (View.wp_mono hf (View.wp_calls ?_ ?_ trivial hp h))
  · intro es' e _ he
    cases e <;> first | exact he.elim | exact trivial
  · intro es' e r h' he
    refine h'.push ?_
    cases e <;> first | exact he.elim | rfl

theorem wp_endWorker_any {clientFd : Int} {status : ThreadStatus} (h : NotFailed es)
    {Q : Unit → List (SysEvent β) → Prop} (hQ : ∀ es', Q () es') :
    (workerView t).wp (endWorker t clientFd status) Q es :=
  wp_plain h trivial (fun _ => rfl) fun _ _ h' => ⟨⟨rfl, h'⟩, fun _ _ => ⟨trivial, fun _ _ => hQ _⟩⟩

/-- **A worker** touches its own node only, and does not change a status of `FAILED`. -/
theorem wp_workerThread (rounds : Nat) (file : String) :
    (workerView t).wp (workerThread rounds file t : ServerProg β (Option Int)) (fun _ _ => True)
      [] := by
  have hfail : ∀ clientFd (es : List (SysEvent β)), NotFailed es →
      (workerView t).wp (failWorker t clientFd)
        (fun _ => (workerView t).wp (.ret none : ServerProg β (Option Int)) fun _ _ => True)
        es := by
    intro clientFd es h
    rw [failWorker_eq]
    exact wp_plain h trivial (fun _ => rfl) fun _ _ h' => wp_endWorker_any h' fun _ => trivial
  unfold workerThread
  refine wp_plain (by simp [NotFailed, lastStatus]) rfl (fun _ => rfl) fun clientFd es h => ?_
  refine View.wp_bind ?_
  rw [dataTransferWorker_eq]
  refine ⟨⟨rfl, h⟩, fun _ _ => ?_⟩
  have hrunning : NotFailed (es ++ [⟨.setThreadStatus t .running, ()⟩]) := by
    unfold NotFailed
    rw [lastStatus_push]
    simp [statusBy]
  refine wp_plain hrunning trivial (fun _ => rfl) fun _ _ h => ?_
  refine wp_transfers h (receive_calls file clientFd rounds) fun received _ h => ?_
  split
  · exact hfail clientFd _ h
  refine wp_plain h trivial (fun _ => rfl) fun _ _ h => ?_
  refine wp_plain h trivial (fun _ => rfl) fun _ _ h => ?_
  refine wp_transfers h (sendFile_calls rounds file clientFd) fun replied _ h => ?_
  split
  · exact hfail clientFd _ h
  exact wp_plain h trivial (fun _ => rfl) fun _ _ h => wp_endWorker_any h fun _ => trivial

/-! ## All threads together -/

theorem picture_start (garbage : Option Nat) : picture (processStart garbage : ProcessWorld β) =
    { allocated := fun _ => false
      thread := fun _ => none
      next := fun _ => none
      fresh := 1
      first := garbage
      book := Book.empty } := rfl

theorem looping_start (joinFails : Bool) (garbage : Option Nat) :
    Looping joinFails 0 { picture (processStart garbage : ProcessWorld β) with first := none } := by
  rw [picture_start]
  refine ⟨?_, fun hc => (by cases hc), fun n hn => (by cases hn), ?_, Or.inl rfl⟩
  · constructor <;> simp [Book.empty, Chain]
  · simp [Book.empty, Book.Trouble]

/-- **Every thread keeps to the contract**, from the start of `application` on. -/
theorem server_good (joinFails : Bool) (garbage : Option Nat) (n : Nat) (rounds : Nat → Nat)
    (file : String) : (@processContract β joinFails).Good
      (fun t result w => t = 0 → ∀ r, result = some r → Done joinFails r (picture w))
      (serverStart garbage n rounds file) := by
  refine ⟨processInv_start joinFails garbage, fun t => ?_⟩
  by_cases ht : t = 0
  · subst ht
    have hwp := (@knows_main β joinFails).wp (wp_application (n := n)
      (looping_start joinFails garbage) rfl)
    exact Contract.wp_mono (fun _ _ _ h _ => h) hwp
  · have hprog : (serverStart garbage n rounds file).prog t
        = (workerThread (rounds t) file t : ServerProg β (Option Int)) := if_neg ht
    rw [hprog]
    exact Contract.wp_mono (fun _ _ _ _ h0 => absurd h0 ht)
      ((knows_worker joinFails ht).wp (wp_workerThread (rounds t) file))

/-! ## The list of threads -/

/-- The node whose memory a call accesses. -/
def Sys.node : Sys β → Option Nat
  | .setThreadStatus n _ | .getThreadStatus n | .getClientFd n | .setThread n _ => some n
  | .getThread n | .setNext n _ | .getNext n | .freeNode n => some n
  | _ => none

/-- The list in memory: the nodes reached from `slh_first`. -/
def Holds (w : ProcessWorld β) (l : List Nat) : Prop :=
  Chain (fun n => (w.state.node n).bind Node.sleNext) w.state.slhFirst l

/-- What is true of the threads and of the list, whatever `application` does next. -/
structure Bookkeeping (c : Config (@Sys.Ret β) Process (Option Int)) : Prop where
  /-- at the loop head, and up to the connection attempt, the list holds the threads that were
  created and not joined, each once -/
  list : ∀ e k, c.prog 0 = .call e k → e = .isTerminated ∨ e = .createConnection →
    Holds c.world (Book.of (c.world.own 0)).live ∧ (Book.of (c.world.own 0)).live.Nodup ∧
      ∀ n, n ∈ (Book.of (c.world.own 0)).live ↔
        c.world.state.life n = .running ∨ c.world.state.life n = .ended
  /-- at the loop head after a timeout, the status of every node of the list was read once, in
  order, and the list is now what it was without the nodes seen as done -/
  walked : ∀ k, c.prog 0 = .call .isTerminated k → Walked (Book.of (c.world.own 0))
  /-- no thread touches a node that is not allocated -/
  access : ∀ t e k n, c.prog t = .call e k → t = 0 ∨ c.world.state.life t = .running →
    e.node = some n → (c.world.state.node n).isSome = true
  /-- a link that is followed was set -/
  link : ∀ n k, c.prog 0 = .call (.getNext n) k →
    ∃ x next, c.world.state.node n = some x ∧ x.sleNext = some next
  /-- a thread is joined after it was created, and not again -/
  join : ∀ n k, c.prog 0 = .call (.pthreadJoin n) k →
    c.world.state.life n = .running ∨ c.world.state.life n = .ended
  /-- a node is freed after its thread has ended, if there was one, and not again -/
  free : ∀ n k, c.prog 0 = .call (.freeNode n) k →
    (c.world.state.life n = .unborn ∨ c.world.state.life n = .joined) ∧
      n ∉ (Book.of (c.world.own 0)).freed
  /-- no walk runs into `NULL` or goes on for ever -/
  ends : c.prog 0 ≠ .spin
  /-- in the end the list is empty, every thread was joined and every node freed once, and no
  memory is left -/
  done : ∀ r, c.prog 0 = .ret (some r) → c.world.state.slhFirst = none ∧
    (∀ n, c.world.state.life n ≠ .unborn → c.world.state.life n = .joined ∧
      (Book.of (c.world.own 0)).joined.count n = 1 ∧ (Book.of (c.world.own 0)).freed.count n = 1) ∧
    ∀ n, c.world.state.node n = none

section Bookkeeping

variable {w : ProcessWorld β}

/-- A thread that was created and is not joined is running or has ended. -/
theorem life_of_created (hi : ProcessInv false w) {n : Nat}
    (hcreated : n ∈ (Book.of (w.own 0)).created) (hjoined : n ∉ (Book.of (w.own 0)).joined) :
    w.state.life n = .running ∨ w.state.life n = .ended := by
  have hb := (hi.2 n).born
  have hj := (hi.2 n).joined
  cases hl : w.state.life n <;> simp_all

/-- The threads that are neither unborn nor joined are the live ones. -/
theorem Tidy.mem_live_iff (hv : Tidy false (picture w)) (hi : ProcessInv false w) (n : Nat) :
    n ∈ (Book.of (w.own 0)).live ↔ w.state.life n = .running ∨ w.state.life n = .ended := by
  have hb := (hi.2 n).born
  have hj := (hi.2 n).joined
  constructor
  · intro hn
    obtain ⟨hcreated, hjoined, -⟩ := hv.live n hn
    exact life_of_created hi hcreated hjoined
  · intro hl
    have hcreated : n ∈ (Book.of (w.own 0)).created := by
      by_contra hc
      rw [hb.mpr hc] at hl
      simp at hl
    rcases (hv.created n hcreated).2 with hn | ⟨-, hn | ⟨hjf, -⟩⟩
    · exact hn
    · rw [hj.mpr hn] at hl
      simp at hl
    · cases hjf

/-- What `application` may access is there. -/
theorem main_access {joinFails : Bool} {e : Sys β} {n : Nat}
    (hmay : (mainView joinFails).may (picture w) e) (he : e.node = some n) :
    (w.state.node n).isSome = true := by
  cases e with
  | getThreadStatus m | setThread m _ | setNext m _ =>
    cases he
    exact hmay
  | getThread m | getNext m =>
    cases he
    obtain ⟨y, hy⟩ := hmay
    obtain ⟨x, hx, -⟩ := Option.bind_eq_some_iff.mp hy
    rw [hx]
    rfl
  | freeNode m =>
    cases he
    exact hmay.1
  | setThreadStatus m _ | getClientFd m => exact hmay.elim
  | _ => cases he

/-- What a running worker may access is there. -/
theorem worker_access (hi : ProcessInv false w) {t : Nat} {e : Sys β} {n : Nat}
    (hmay : (workerView t).may (w.own t) e) (ht : w.state.life t = .running)
    (he : e.node = some n) : (w.state.node n).isSome = true := by
  cases e with
  | setThreadStatus m _ =>
    cases he
    rw [hmay.1]
    exact (hi.2 t).alive rfl ht
  | getClientFd m =>
    cases he
    obtain rfl : n = t := hmay
    exact (hi.2 n).alive rfl ht
  | getThreadStatus m | setThread m _ | getThread m | setNext m _ | getNext m | freeNode m =>
    exact hmay.elim
  | _ => cases he

theorem Done.bookkeeping {r : Int} (h : Done false r (picture w)) (hi : ProcessInv false w) :
    w.state.slhFirst = none ∧
      (∀ n, w.state.life n ≠ .unborn → w.state.life n = .joined ∧
        (Book.of (w.own 0)).joined.count n = 1 ∧ (Book.of (w.own 0)).freed.count n = 1) ∧
      ∀ n, w.state.node n = none := by
  refine ⟨?_, fun n hn => ?_, fun n => ?_⟩
  · have hchain := h.tidy.chain
    rw [h.empty] at hchain
    exact hchain
  · have hcreated : n ∈ (Book.of (w.own 0)).created := by
      by_contra hc
      exact hn ((hi.2 n).born.mpr hc)
    rcases (h.tidy.created n hcreated).2 with hlive | ⟨hfreed, hjoined | ⟨hjf, -⟩⟩
    · rw [h.empty] at hlive
      cases hlive
    · exact ⟨(hi.2 n).joined.mpr hjoined, List.count_eq_one_of_mem h.tidy.joined.1 hjoined,
        List.count_eq_one_of_mem h.tidy.freed.1 hfreed⟩
    · cases hjf
  · cases hx : w.state.node n with
    | none => rfl
    | some x =>
      have hlive := (h.tidy.allocated n).mp (by simp [picture, hx])
      rw [h.empty] at hlive
      cases hlive

end Bookkeeping

/--
**Thread bookkeeping.**

Every state of every run, with any connection results and outcomes of `pthread_create`, any number
of clients, and any moments at which the workers change their status; `pthread_join` returns once
its thread has ended.
-/
theorem thread_bookkeeping (garbage : Option Nat) (n : Nat) (rounds : Nat → Nat) (file : String)
    (schedule : List (Nat × Answers β)) (c : Config (@Sys.Ret β) Process (Option Int))
    (hrun : (processSystem false).run (serverStart garbage n rounds file) schedule = some c) :
    Bookkeeping c := by
  have hgood := (server_good false garbage n rounds file).run hrun
  have hi : ProcessInv false c.world := hgood.1
  have hmain : ∀ {e : Sys β} {k}, c.prog 0 = .call e k →
      (mainView false).may (picture c.world) e := fun hp => hgood.call hp
  have hworker : ∀ {t : Nat} {e : Sys β} {k}, t ≠ 0 → c.prog t = .call e k →
      (workerView t).may (c.world.own t) e := by
    intro t e k ht hp
    have hpre := hgood.call hp
    simpa [processContract, ht] using hpre
  constructor
  case list =>
    intro e k hp he
    have htidy : Tidy false (picture c.world) := by
      rcases he with rfl | rfl
      · exact (hmain hp).1
      · exact (hmain hp).1
    exact ⟨htidy.chain, htidy.nodup, htidy.mem_live_iff hi⟩
  case walked =>
    intro k hp
    exact (hmain hp).2
  case access =>
    intro t e k m hp ht he
    by_cases h0 : t = 0
    · subst h0
      exact main_access (hmain hp) he
    · exact worker_access hi (hworker h0 hp) (ht.resolve_left h0) he
  case link =>
    intro m k hp
    obtain ⟨next, hnext⟩ := hmain hp
    obtain ⟨x, hx, hxn⟩ := Option.bind_eq_some_iff.mp hnext
    exact ⟨x, next, hx, hxn⟩
  case join =>
    intro m k hp
    obtain ⟨hcreated, hjoined⟩ := hmain hp
    exact life_of_created hi hcreated hjoined
  case free =>
    intro m k hp
    obtain ⟨-, hfreed, hjoined⟩ := hmain hp
    refine ⟨?_, hfreed⟩
    by_cases hcreated : m ∈ (Book.of (c.world.own 0)).created
    · exact Or.inr ((hi.2 m).joined.mpr (hjoined rfl hcreated))
    · exact Or.inl ((hi.2 m).born.mpr hcreated)
  case ends =>
    intro hp
    exact hgood.spin hp rfl
  case done =>
    intro r hp
    exact (hgood.ret hp rfl r rfl).bookkeeping hi

/-- Answers without an error, with this connection result, this outcome of `recv` and `read`, and
maybe a signal. -/
def goodAnswers (connection : Int) (message : Option (List UInt8)) (signal : Bool) :
    Answers UInt8 where
  ret
    | .createConnection => (connection, 4)
    | .recv _ _ | .read _ _ => message
    | .isTerminated => signal
    | .write _ buffer => some buffer.length
    | .send _ _ len => some len
    | .openFile _ _ => (5 : Int)
    | .close _ | .pthreadJoin _ | .getClientFd _ => (0 : Int)
    | .pthreadCreate n => (0, n)
    | .getThread _ | .mallocNode _ => (0 : Nat)
    | .getNext _ | .getFirst => (none : Option Nat)
    | .getThreadStatus _ => ThreadStatus.unititialized
    | .setThreadStatus _ _ | .setThread _ _ | .setNext _ _ | .setFirst _ | .freeNode _ => ()
    | .setIsTerminated | .mutexLock | .mutexUnlock | .semWait | .semPost | .pthreadExit => ()
    | .accept => .error 11
    | .errno | .nanosleep _ => (0 : Int)
    | .clockGettime => ⟨0, 0⟩
    | .localtimeR => true
    | .strftime _ => ([] : List UInt8)
  waits := false

/-- The next `k` turns of thread `t`. -/
def turns (k t : Nat) (connection : Int) (message : Option (List UInt8)) (signal : Bool) :
    List (Nat × Answers UInt8) :=
  List.replicate k (t, goodAnswers connection message signal)

/-- Two clients. The second is being served while a timeout finds the first one done, behind it in
the list; then there is a signal. -/
def twoClients : List (Nat × Answers UInt8) :=
  turns 17 0 0 none false ++ turns 2 2 0 none false ++
    turns 12 1 0 (some [97]) false ++ turns 6 1 0 (some []) false ++ turns 16 0 2 none false ++
    turns 10 2 0 (some [98]) false ++ turns 6 2 0 (some []) false ++ turns 11 0 0 none true

theorem thread_bookkeeping_two_clients :
    ∃ c, (processSystem false).run (serverStart (some 7) 4 (fun _ => 2) (resultFile false))
        twoClients = some c ∧ c.prog 0 = .ret (some 0) ∧ c.world.state.slhFirst = none ∧
      c.world.state.life 1 = .joined ∧ (Book.of (c.world.own 0)).joined.count 1 = 1 ∧
      (Book.of (c.world.own 0)).freed.count 1 = 1 := by
  have hrun : ((processSystem false).run
      (serverStart (some 7) 4 (fun _ => 2) (resultFile false)) twoClients).map
        (fun c => ((c.prog 0).returned, c.world.state.life 1)) = some (some (some 0), .joined) := by
    decide +kernel
  obtain ⟨c, hc, heq⟩ := Option.map_eq_some_iff.mp hrun
  obtain ⟨hret, hlife⟩ := Prod.mk.inj heq
  rw [returned_eq_some] at hret
  obtain ⟨hfirst, hone, -⟩ :=
    (thread_bookkeeping (some 7) 4 (fun _ => 2) (resultFile false) twoClients c hc).done 0 hret
  have h1 := hone 1 (by rw [hlife]; decide)
  exact ⟨c, hc, hret, hfirst, h1.1, h1.2⟩

/-! ## The result of `application` -/

/-- A connection attempt returned `-1`, or `pthread_create` or `pthread_join` an error. -/
def reports : SysEvent β → Bool
  | ⟨.createConnection, r⟩ => r.1 == -1
  | ⟨.pthreadCreate _, r⟩ => r.1 != 0
  | ⟨.pthreadJoin _, r⟩ => r != 0
  | _ => false

theorem Book.note_reported (b : Book) (e : SysEvent β) :
    (b.note e).reported = (b.reported || reports e) := by
  obtain ⟨e, r⟩ := e
  cases e with
  | pthreadCreate n =>
    show (b.create n r.1).reported = (b.reported || r.1 != 0)
    unfold Book.create
    split
    · simp [*]
    · simp [*, Book.fail]
  | createConnection | pthreadJoin _ => rfl
  | _ => exact (Bool.or_false _).symm

theorem Book.mem_note_failures (b : Book) (e : SysEvent β) (n : Nat) :
    n ∈ (b.note e).failures ↔ n ∈ b.failures ∨ e = ⟨.getThreadStatus n, .failed⟩ := by
  obtain ⟨e, r⟩ := e
  cases e with
  | getThreadStatus m =>
    refine Book.mem_see.trans ?_
    constructor
    · rintro (⟨hr, rfl⟩ | hn)
      · exact Or.inr (by rw [hr])
      · exact Or.inl hn
    · rintro (hn | heq)
      · exact Or.inr hn
      · cases heq
        exact Or.inl ⟨rfl, rfl⟩
  | pthreadCreate m =>
    show n ∈ (b.create m r.1).failures ↔ _
    unfold Book.create
    split <;> simp [Book.fail]
  | _ => simp [Book.note, Book.connect, Book.join, Book.free]

theorem Book.of_reported (es : List (SysEvent β)) :
    (Book.of es).reported = true ↔ ∃ e ∈ es, reports e = true := by
  induction es using List.reverseRecOn with
  | nil => simp [Book.of, Book.empty]
  | append_singleton es e ih =>
    rw [Book.of_push, Book.note_reported, Bool.or_eq_true, ih]
    simp [or_and_right, exists_or]

theorem Book.mem_of_failures (es : List (SysEvent β)) (n : Nat) :
    n ∈ (Book.of es).failures ↔ ⟨.getThreadStatus n, .failed⟩ ∈ es := by
  induction es using List.reverseRecOn with
  | nil => simp [Book.of, Book.empty]
  | append_singleton es e ih =>
    rw [Book.of_push, Book.mem_note_failures, ih, List.mem_append, List.mem_singleton]
    exact or_congr_right eq_comm

/-- The worker of node `n` has ended with status `FAILED`. -/
def EndedFailed (w : ProcessWorld β) (n : Nat) : Prop :=
  (w.state.life n = .ended ∨ w.state.life n = .joined) ∧ lastStatus (w.own n) = some .failed

/-- The reasons for which `application` is to return `-1`. -/
def ShouldFail (w : ProcessWorld β) : Prop :=
  (∃ e ∈ w.own 0, reports e = true) ∨ ∃ n, EndedFailed w n

/-- A thread that was seen as `FAILED` has ended so, or there was an error with it. -/
theorem Done.endedFailed {joinFails : Bool} {w : ProcessWorld β} {r : Int}
    (h : Done joinFails r (picture w)) (hi : ProcessInv joinFails w) {n : Nat}
    (hn : n ∈ (Book.of (w.own 0)).failures) :
    EndedFailed w n ∨ (Book.of (w.own 0)).reported = true := by
  rcases h.settled n hn with hjoined | hreported
  · exact Or.inl ⟨Or.inr ((hi.2 n).joined.mpr hjoined), (hi.2 n).failed hn⟩
  · exact Or.inr hreported

/--
**The result of `application`.**

In every complete run, `pthread_join` failing or not: `application` returns `-1` exactly when it
should, if and only if something else was reported, a walk after a timeout saw a `FAILED` worker, or
no worker ended so. A worker that fails after the last timeout is left to `slist_join_threads`,
which does not look at its status.
-/
theorem application_result_iff (joinFails : Bool) (garbage : Option Nat) (n : Nat)
    (rounds : Nat → Nat) (file : String) (schedule : List (Nat × Answers β))
    (c : Config (@Sys.Ret β) Process (Option Int)) (r : Int)
    (hrun : (processSystem joinFails).run (serverStart garbage n rounds file) schedule = some c)
    (hret : c.prog 0 = .ret (some r)) :
    (r = -1 ↔ ShouldFail c.world) ↔
      (∃ e ∈ c.world.own 0, reports e = true) ∨
        (∃ m, ⟨.getThreadStatus m, .failed⟩ ∈ c.world.own 0) ∨
        ¬∃ m, EndedFailed c.world m := by
  have hgood := (server_good joinFails garbage n rounds file).run hrun
  have hdone : Done joinFails r (picture c.world) := hgood.ret hret rfl r rfl
  have hresult : r = -1 ↔ (∃ e ∈ c.world.own 0, reports e = true) ∨
      ∃ m, ⟨.getThreadStatus m, .failed⟩ ∈ c.world.own 0 := by
    rw [hdone.trouble]
    show (Book.of (c.world.own 0)).reported = true ∨ (Book.of (c.world.own 0)).failures ≠ [] ↔ _
    simp only [Book.of_reported, ne_eq, List.eq_nil_iff_forall_not_mem, Book.mem_of_failures,
      not_forall, not_not]
  have hseen : (∃ m, ⟨.getThreadStatus m, .failed⟩ ∈ c.world.own 0) →
      (∃ m, EndedFailed c.world m) ∨ ∃ e ∈ c.world.own 0, reports e = true := by
    rintro ⟨m, hm⟩
    rw [← Book.of_reported]
    exact (hdone.endedFailed hgood.1 ((Book.mem_of_failures _ m).mpr hm)).imp_left fun h => ⟨m, h⟩
  unfold ShouldFail
  rw [hresult]
  constructor
  · intro h
    by_cases hE : ∃ m, EndedFailed c.world m
    · exact (h.mpr (Or.inr hE)).imp_right Or.inl
    · exact Or.inr (Or.inr hE)
  · rintro (hreported | hs | hE)
    · exact iff_of_true (Or.inl hreported) (Or.inl hreported)
    · exact iff_of_true (Or.inr hs) (hseen hs).symm
    · constructor
      · rintro (hreported | hs)
        · exact Or.inl hreported
        · exact (hseen hs).symm
      · rintro (hreported | hE')
        · exact Or.inl hreported
        · exact absurd hE' hE

/-- One client whose data cannot be received, up to the end of its worker. -/
def failingClient : List (Nat × Answers UInt8) :=
  turns 9 0 0 none false ++ turns 8 1 0 none false

/-- A timeout finds the failed worker, and `application` ends with an error. -/
theorem application_result_iff_after_timeout :
    ∃ c, (processSystem true).run (serverStart none 3 (fun _ => 2) (resultFile false))
        (failingClient ++ turns 16 0 2 none false) = some c ∧ c.prog 0 = .ret (some (-1)) ∧
      ((-1 : Int) = -1 ↔ ShouldFail c.world) := by
  have hrun : ((processSystem true).run (serverStart none 3 (fun _ => 2) (resultFile false))
      (failingClient ++ turns 16 0 2 none false)).map
        (fun c => ((c.prog 0).returned, (Book.of (c.world.own 0)).failures))
      = some (some (some (-1)), [1]) := by decide +kernel
  obtain ⟨c, hc, heq⟩ := Option.map_eq_some_iff.mp hrun
  obtain ⟨hret, hfailures⟩ := Prod.mk.inj heq
  rw [returned_eq_some] at hret
  refine ⟨c, hc, hret, (application_result_iff true none 3 (fun _ => 2) (resultFile false) _ c (-1)
    hc hret).mpr (Or.inr (Or.inl ⟨1, ?_⟩))⟩
  rw [← Book.mem_of_failures, hfailures]
  exact List.mem_singleton_self 1

/-- A signal comes first, and `application` returns 0 with a worker that ended `FAILED`. -/
theorem failed_worker_unreported :
    ∃ c, (processSystem false).run (serverStart none 3 (fun _ => 2) (resultFile false))
        (failingClient ++ turns 11 0 0 none true) = some c ∧ c.prog 0 = .ret (some 0) ∧
      EndedFailed c.world 1 ∧ ¬((0 : Int) = -1 ↔ ShouldFail c.world) := by
  have hrun : ((processSystem false).run (serverStart none 3 (fun _ => 2) (resultFile false))
      (failingClient ++ turns 11 0 0 none true)).map
        (fun c => ((c.prog 0).returned, c.world.state.life 1, lastStatus (c.world.own 1)))
      = some (some (some 0), .joined, some .failed) := by decide +kernel
  obtain ⟨c, hc, heq⟩ := Option.map_eq_some_iff.mp hrun
  simp only [Prod.mk.injEq] at heq
  obtain ⟨hret, hlife, hstatus⟩ := heq
  rw [returned_eq_some] at hret
  have hfailed : EndedFailed c.world 1 := ⟨Or.inr hlife, hstatus⟩
  exact ⟨c, hc, hret, hfailed, fun h => absurd (h.mpr (Or.inr ⟨1, hfailed⟩)) (by decide)⟩

end Aesd.Server

import Aesd.Infra.Threads
import Aesd.Server.Calls

/-!
# `main`

What the process sets up before `application` runs, and what it takes down afterwards or when
something fails: the listening socket and its address, the daemon, the signal handlers, the
semaphore and the timer, the logger and the mutex. `application` is one call here.

Every way out ends with `timer_delete`, `close` and `freeaddrinfo`, as far as the source thinks
that they are due. Some are not: `socket_server_create` stores the descriptor at its very end, so
before that `main` closes descriptor 0; and `main` deletes a timer that was never made.
-/

namespace Aesd.Server

open Infra Prog

/-! ## Calls -/

inductive Signal where
  | sigint
  | sigterm
  | sigusr1
  deriving DecidableEq, Repr

/-- The calls of `main`. What it prints is left out. `none` is an address that is `NULL`, and a
timer that was never stored. -/
inductive Boot where
  -- the system log
  | syslog (format : String)
  | closelog
  -- the listening socket
  | socket
  | setsockopt (fd : Int)
  | getaddrinfo (port : String)
  | bind (fd : Int) (address : Option Nat)
  | listen (fd : Int) (backlog : Nat)
  -- the daemon
  | fork
  | setsid
  | chdir (path : String)
  /-- `open("/dev/null", O_RDWR)` -/
  | openNull
  | dup (fd : Int)
  | exit (status : Int)
  -- signals and time
  | signal (sig : Signal)
  | semInit (value : Nat)
  | timerCreate (sig : Signal)
  | timerSettime (timer : Option Nat) (interval : Nat)
  -- threads
  /-- starts `log_timestamp_worker` -/
  | pthreadCreate
  | pthreadMutexInit
  | application (serverFd : Int)
  | pthreadJoin (thread : Nat)
  | remove (file : String)
  | errno
  | pthreadMutexDestroy
  | timerDelete (timer : Option Nat)
  | close (fd : Int)
  | freeaddrinfo (address : Option Nat)

/-- An error number. -/
abbrev ErrorNumber := { status : Int // status ≠ 0 }

@[reducible] def Boot.Ret : Boot → Type
  | .getaddrinfo _ | .pthreadCreate => Except ErrorNumber Nat
  -- the descriptor of the connection to the system log, as the call leaves it
  | .syslog _ => Option Nat
  -- `false` is `SIG_ERR`
  | .signal _ => Bool
  | .timerCreate _ => Option Nat
  | .exit _ | .freeaddrinfo _ | .closelog => Unit
  | _ => Int

abbrev BootProg (α : Type) := Prog Boot.Ret α

abbrev boot (e : Boot) : BootProg e.Ret := Prog.perform e

abbrev BootEvent := Event Boot.Ret

/-! ## The program -/

/-- `PORT` -/
def port : String := "9000"

/-- `BACKLOG` -/
def backlog : Nat := 2

/-- `TIMESTAMP_LOG_INTERVAL_S` -/
def timestampLogIntervalS : Nat := 10

/-- The result, and `*address_info`. -/
def socketServerCreateAddressInfo (addressInfo : Option Nat) : BootProg (Int × Option Nat) := do
  match ← boot (.getaddrinfo port) with
  | .ok address => return (0, some address)
  | .error status => return (status, addressInfo)

/-- The result, `*socket_fd_ptr` and `*address_info`. -/
def socketServerCreate (socketFdPtr : Int) (addressInfo : Option Nat) :
    BootProg (Int × Int × Option Nat) := do
  let socketFd ← boot .socket
  if socketFd = -1 then
    return (-1, socketFdPtr, addressInfo)
  if (← boot (.setsockopt socketFd)) < 0 then
    return (-1, socketFdPtr, addressInfo)
  let (status, addressInfo) ← socketServerCreateAddressInfo addressInfo
  if status ≠ 0 then
    let _ ← boot (.syslog "create_server_address_info")
    return (-1, socketFdPtr, addressInfo)
  if (← boot (.bind socketFd addressInfo)) = -1 then
    return (-1, socketFdPtr, addressInfo)
  if (← boot (.listen socketFd backlog)) = -1 then
    return (-1, socketFdPtr, addressInfo)
  return (0, socketFd, addressInfo)

def daemonize : BootProg Int := do
  let pid ← boot .fork
  if pid = -1 then
    return -1
  else if pid ≠ 0 then
    -- This process is the parent
    return 1
  if (← boot .setsid) = -1 then
    let _ ← boot (.syslog "setsid")
    return -1
  if (← boot (.chdir "/")) = -1 then
    let _ ← boot (.syslog "chdir")
    return -1
  let _ ← boot .openNull
  let _ ← boot (.dup 0)
  let _ ← boot (.dup 0)
  return 0

/-- The result, the server's socket and its address; `none` if the process has called `exit`. -/
def setupSocketServer (executeAsDaemon : Bool) (serverSocket : Int)
    (serverAddrinfo : Option Nat) : BootProg (Option (Int × Int × Option Nat)) := do
  let (created, serverSocket, serverAddrinfo) ← socketServerCreate serverSocket serverAddrinfo
  if created ≠ 0 then
    let _ ← boot (.syslog "create_server_socket")
    return some (-1, serverSocket, serverAddrinfo)
  if executeAsDaemon then
    let daemonResult ← daemonize
    if daemonResult = -1 then
      let _ ← boot (.syslog "daemonize")
      return some (-1, serverSocket, serverAddrinfo)
    else if daemonResult = 1 then
      boot (.exit 0)
      return none
  return some (0, serverSocket, serverAddrinfo)

/-- The result, and `*sugusr1_timer`. -/
def setupSignalHandlers : BootProg (Int × Option Nat) := do
  if !(← boot (.signal .sigint)) then
    return (-1, none)
  if !(← boot (.signal .sigterm)) then
    return (-1, none)
  if !(← boot (.signal .sigusr1)) then
    return (-1, none)
  if (← boot (.semInit 0)) ≠ 0 then
    return (-1, none)
  match ← boot (.timerCreate .sigusr1) with
  | none => return (-1, none)
  | some timer =>
    if (← boot (.timerSettime (some timer) timestampLogIntervalS)) ≠ 0 then
      return (-1, some timer)
    return (0, some timer)

/-- How the process ends. -/
inductive Exit where
  | returned (status : Int)
  | exited
  deriving DecidableEq, Repr

/-- Whether to execute as a daemon; `none` for a usage error. -/
def parseArguments (argv : List String) : Option Bool :=
  if argv.length = 2 ∧ argv[1]? = some "-d" then some true
  else if argv.length ≠ 1 then none
  else some false

/-- `main`, once the arguments are parsed. -/
def runMain (useAesdCharDevice executeAsDaemon : Bool) : BootProg Exit := do
  match ← setupSocketServer executeAsDaemon 0 none with
  | none => return .exited
  | some (socketResult, serverSocket, serverAddrinfo) =>
    if socketResult ≠ 0 then
      let _ ← boot (.syslog "setup_socket_server")
      let _ ← boot (.close serverSocket)
      boot (.freeaddrinfo serverAddrinfo)
      boot .closelog
      return .returned (-1)
    let (signalResult, logTimestampTimer) ← setupSignalHandlers
    if signalResult ≠ 0 then
      let _ ← boot (.syslog "setup_signal_handlers")
      let _ ← boot (.timerDelete logTimestampTimer)
      let _ ← boot (.close serverSocket)
      boot (.freeaddrinfo serverAddrinfo)
      boot .closelog
      return .returned (-1)
    match ← boot .pthreadCreate with
    | .error _ =>
      let _ ← boot (.syslog "pthread_create returned error: %d")
      let _ ← boot (.timerDelete logTimestampTimer)
      let _ ← boot (.close serverSocket)
      boot (.freeaddrinfo serverAddrinfo)
      boot .closelog
      return .returned (-1)
    | .ok timestampThreadId =>
      if (← boot .pthreadMutexInit) ≠ 0 then
        let _ ← boot (.timerDelete logTimestampTimer)
        let _ ← boot (.close serverSocket)
        boot (.freeaddrinfo serverAddrinfo)
        boot .closelog
        return .returned (-1)
      let result ← boot (.application serverSocket)
      let _ ← boot (.pthreadJoin timestampThreadId)
      if !useAesdCharDevice then
        if (← boot (.remove (resultFile useAesdCharDevice))) ≠ 0 then
          let _ ← boot .errno
      let _ ← boot .pthreadMutexDestroy
      let _ ← boot (.timerDelete logTimestampTimer)
      let _ ← boot (.close serverSocket)
      boot (.freeaddrinfo serverAddrinfo)
      let _ ← boot (.syslog "`aesdsocket` complete.")
      boot .closelog
      return .returned result

def main (useAesdCharDevice : Bool) (argv : List String) : BootProg Exit := do
  let _ ← boot (.syslog "Starting `aesdsocket`.")
  match parseArguments argv with
  | none =>
    boot .closelog
    return .returned 1
  | some executeAsDaemon => runMain useAesdCharDevice executeAsDaemon

/-- The calls that every way out makes. -/
def Boot.cleansUp : Boot → Bool
  | .timerDelete _ | .close _ | .freeaddrinfo _ => true
  | _ => false

def Boot.logs : Boot → Bool
  | .syslog _ | .closelog => true
  | _ => false

/-! ## What the process holds -/

structure Setup where
  socket : Option Int := none
  bound : Bool := false
  listening : Bool := false
  address : Option Nat := none
  handlers : List Signal := []
  semaphore : Bool := false
  timer : Option Nat := none
  armed : Bool := false
  logger : Option Nat := none
  mutex : Bool := false
  /-- `pthread_join` returned an error -/
  unjoined : Bool := false
  /-- something was taken down -/
  down : Bool := false
  deriving DecidableEq, Repr

namespace Setup

def next (l : Setup) : BootEvent → Setup
  | ⟨.socket, fd⟩ => if fd = -1 then l else { l with socket := some fd }
  | ⟨.getaddrinfo _, .ok address⟩ => { l with address := some address }
  | ⟨.bind _ _, r⟩ => if r = -1 then l else { l with bound := true }
  | ⟨.listen _ _, r⟩ => if r = -1 then l else { l with listening := true }
  | ⟨.signal sig, ok⟩ => if ok then { l with handlers := sig :: l.handlers } else l
  | ⟨.semInit _, r⟩ => if r = 0 then { l with semaphore := true } else l
  | ⟨.timerCreate _, some timer⟩ => { l with timer := some timer }
  | ⟨.timerSettime _ _, r⟩ => if r = 0 then { l with armed := true } else l
  | ⟨.pthreadCreate, .ok thread⟩ => { l with logger := some thread }
  | ⟨.pthreadMutexInit, r⟩ => if r = 0 then { l with mutex := true } else l
  | ⟨.pthreadJoin _, r⟩ => if r = 0 then { l with logger := none } else { l with unjoined := true }
  | ⟨.pthreadMutexDestroy, r⟩ => if r = 0 then { l with mutex := false } else l
  | ⟨.timerDelete timer, r⟩ =>
    { l with timer := if r = 0 ∧ l.timer = timer then none else l.timer, down := true }
  -- also when it returns an error
  | ⟨.close fd, _⟩ =>
    { l with socket := if l.socket = some fd then none else l.socket, down := true }
  | ⟨.freeaddrinfo address, _⟩ =>
    { l with address := if l.address = address then none else l.address, down := true }
  | _ => l

/-- After these calls. -/
def of (es : List BootEvent) : Setup := es.foldl next {}

/-- What `application` takes for granted. -/
def ready (l : Setup) (serverFd : Int) : Bool :=
  l.socket = some serverFd && l.bound && l.listening &&
    l.handlers.contains .sigint && l.handlers.contains .sigterm && l.handlers.contains .sigusr1 &&
    l.semaphore && l.timer.isSome && l.armed && l.logger.isSome && l.mutex

/-- The call is about something that is there. -/
def present (l : Setup) : Boot → Bool
  | .setsockopt fd => l.socket = some fd
  | .bind fd address => l.socket = some fd && address.isSome && l.address = address
  | .listen fd _ => l.socket = some fd && l.bound
  -- daemon execution must be handled after the socket is set up
  | .openNull | .dup _ => l.socket.isSome
  | .timerSettime timer _ => timer.isSome && l.timer = timer
  | .application serverFd => l.ready serverFd
  | .pthreadJoin thread => l.logger = some thread
  -- nobody is left who could lock it
  | .pthreadMutexDestroy => l.mutex && l.logger.isNone
  | .timerDelete timer => timer.isSome && l.timer = timer
  | .close fd => l.socket = some fd
  | .freeaddrinfo address => address.isSome && l.address = address
  | _ => true

/-- And nothing is done but clean up and log once something was taken down. -/
def legal (l : Setup) (e : Boot) : Bool := l.present e && (e.cleansUp || e.logs || !l.down)

/-- The calls that `main` makes whether or not they are due: it does not look at what
`pthread_join` returned. -/
def excused (l : Setup) : Boot → Bool
  | .pthreadMutexDestroy => l.unjoined
  | e => e.cleansUp

/-- All that is to be taken down is. -/
def cleared (l : Setup) : Bool :=
  l.socket.isNone && l.address.isNone && l.timer.isNone && l.logger.isNone && !l.mutex

end Setup

/-- The failures after which `main` does not take down what there is, or fails to. -/
def forgets : BootEvent → Bool
  | ⟨.socket, fd⟩ => fd = -1
  | ⟨.setsockopt _, r⟩ => r < 0
  | ⟨.getaddrinfo _, .error _⟩ => true
  -- it closes descriptor 0, which may be the socket
  | ⟨.bind fd _, r⟩ => r = -1 && fd ≠ 0
  | ⟨.listen fd _, r⟩ => r = -1 && fd ≠ 0
  | ⟨.signal _, ok⟩ => !ok
  | ⟨.semInit _, r⟩ => r ≠ 0
  | ⟨.timerCreate _, timer⟩ => timer.isNone
  | ⟨.pthreadMutexInit, r⟩ => r ≠ 0
  | ⟨.pthreadJoin _, r⟩ | ⟨.pthreadMutexDestroy, r⟩ | ⟨.timerDelete _, r⟩ => r ≠ 0
  | _ => false

/-- What `application` returned. -/
def ranBy : BootEvent → Option Int
  | ⟨.application _, result⟩ => some result
  | _ => none

/-! ## Keeping the books -/

/-- The state of the process, and what is to be known at the end about the calls so far. -/
structure Books where
  setup : Setup := {}
  lawful : Bool := true
  forgot : Bool := false
  ran : Option Int := none

namespace Books

def next (b : Books) (x : BootEvent) : Books where
  setup := b.setup.next x
  lawful := b.lawful && b.setup.legal x.1
  forgot := b.forgot || forgets x
  ran := (ranBy x).or b.ran

/-- What the books say of the calls. -/
structure Kept (es : List BootEvent) (b : Books) : Prop where
  setup : b.setup = Setup.of es
  lawful : b.lawful = true ↔ Always (fun pre x => (Setup.of pre).legal x.1 = true) es
  forgot : b.forgot = false ↔ ∀ x ∈ es, forgets x = false
  ran : b.ran = (es.filterMap ranBy).getLast?

theorem kept (es : List BootEvent) : Kept es (es.foldl next {}) := by
  induction es using List.reverseRecOn with
  | nil => exact ⟨rfl, iff_of_true rfl always_nil, iff_of_true rfl (by simp), rfl⟩
  | append_singleton es x ih =>
    rw [List.foldl_append, List.foldl_cons, List.foldl_nil]
    constructor
    case setup =>
      rw [next, ih.setup, Setup.of, Setup.of, List.foldl_append]
      rfl
    case lawful => rw [next, Bool.and_eq_true, ih.lawful, ih.setup, always_push]
    case forgot =>
      rw [next, Bool.or_eq_false_iff, ih.forgot, List.forall_mem_append]
      simp
    case ran =>
      rw [next, ih.ran, List.filterMap_append, List.getLast?_append]
      cases hx : ranBy x <;> simp [hx]

end Books

/-- Only some calls may be about something that is not there. -/
def booksView : View Boot.Ret Books where
  may b e := b.setup.legal e = true ∨ b.setup.excused e = true
  answers _ _ _ := True
  next := Books.next
  spins := False

/-! ## Step by step -/

/-- The clean-up of every way out but the first two. -/
def cleanUp (timer : Option Nat) (fd : Int) (address : Option Nat) (p : BootProg Exit) :
    BootProg Exit :=
  .call (.timerDelete timer) fun _ => .call (.close fd) fun _ => .call (.freeaddrinfo address)
    fun _ => p

def leave (status : Int) : BootProg Exit := .call .closelog fun _ => .ret (.returned status)

/-- A message before or after it. -/
def logged {α : Type} (format : String) (p : BootProg α) : BootProg α :=
  .call (.syslog format) fun _ => p

def removeResultFile (useAesdCharDevice : Bool) : BootProg Unit :=
  if !useAesdCharDevice then
    .call (.remove (resultFile useAesdCharDevice)) fun removed =>
      if removed ≠ 0 then .call .errno fun _ => .ret () else .ret ()
  else .ret ()

/-- With a server that listens. -/
def listeningSetup (fd : Int) (address : Nat) : Setup :=
  { socket := some fd, bound := true, listening := true, address := some address }

/-- And with the timer and all before it. -/
def timedSetup (fd : Int) (address timer : Nat) (armed : Bool) : Setup :=
  { listeningSetup fd address with
    handlers := [.sigusr1, .sigterm, .sigint], semaphore := true, timer := some timer
    armed := armed }

/-- And with the logger and the mutex. -/
def startedSetup (fd : Int) (address timer : Nat) (logger : Option Nat) (mutex : Bool) : Setup :=
  { timedSetup fd address timer true with logger := logger, mutex := mutex }

/-- A failing call of which nothing is said but that it is one of the failures. -/
theorem forgot_of_forgets {b : Books} {x : BootEvent} (h : forgets x = true) :
    (booksView.next b x).forgot = true := by
  simp [booksView, Books.next, h]

/-- A call that is as it should be. -/
theorem next_legal {l m : Setup} {forgot : Bool} {ran : Option Int} {x : BootEvent}
    (hnext : l.next x = m) (hlegal : l.legal x.1 = true) (hforgets : forgets x = false)
    (hran : ranBy x = none) :
    booksView.next { setup := l, forgot := forgot, ran := ran } x
      = { setup := m, forgot := forgot, ran := ran } := by
  simp [booksView, Books.next, hnext, hlegal, hforgets, hran]

section Log

variable {α : Type} {Q : α → Books → Prop} {b : Books}

theorem next_of_logs {e : Boot} (he : e.logs = true) (r : e.Ret) : booksView.next b ⟨e, r⟩ = b := by
  cases e with
  | syslog _ | closelog =>
    simp [booksView, Books.next, Setup.next, Setup.legal, Setup.present, Boot.logs, forgets, ranBy]
  | _ => cases he

theorem wp_logged {format : String} {p : BootProg α} (h : booksView.wp p Q b) :
    booksView.wp (logged format p) Q b :=
  ⟨Or.inl rfl, fun r _ => by rw [next_of_logs rfl r]; exact h⟩

theorem wp_leave {Q : Exit → Books → Prop} {status : Int} (h : Q (.returned status) b) :
    booksView.wp (leave status) Q b :=
  ⟨Or.inl rfl, fun r _ => by rw [next_of_logs rfl r]; exact h⟩

end Log

/-- What `socket_server_create` leaves behind. -/
def Created (x : Int × Int × Option Nat) (b : Books) : Prop :=
  (∃ fd a, x = (0, fd, some a) ∧ b = { setup := listeningSetup fd a }) ∨
  (x = (-1, 0, none) ∧ b.forgot = true ∧ b.ran = none) ∨
  ∃ fd a bound, x = (-1, 0, some a) ∧ b =
    { setup := { socket := some fd, bound := bound, address := some a }, forgot := decide (fd ≠ 0) }

theorem wp_socketServerCreate : booksView.wp (socketServerCreate 0 none) Created {} := by
  unfold socketServerCreate socketServerCreateAddressInfo
  simp only [bind_eq, perform_bind, pure_eq]
  refine ⟨Or.inl rfl, fun fd _ => ?_⟩
  dsimp only
  split
  · next hfd => exact Or.inr (Or.inl ⟨rfl, forgot_of_forgets (by simp [forgets, hfd]), rfl⟩)
  next hfd =>
  rw [next_legal (m := { socket := some fd }) (by simp [Setup.next, hfd]) rfl
    (by simp [forgets, hfd]) rfl]
  refine ⟨Or.inl (by simp [Setup.legal, Setup.present]), fun option _ => ?_⟩
  dsimp only
  split
  · next hopt => exact Or.inr (Or.inl ⟨rfl, forgot_of_forgets (by simp [forgets, hopt]), rfl⟩)
  next hopt =>
  rw [next_legal rfl (by simp [Setup.legal, Setup.present]) (by simp [forgets, hopt]) rfl]
  refine ⟨Or.inl rfl, fun info _ => ?_⟩
  cases info with
  | error status =>
    simp only [ret_bind, if_pos status.2]
    exact wp_logged (Or.inr (Or.inl ⟨rfl, forgot_of_forgets rfl, rfl⟩))
  | ok a =>
    rw [next_legal (m := { socket := some fd, address := some a }) rfl rfl rfl rfl]
    simp only [ret_bind, ne_eq, not_true, if_false]
    refine ⟨Or.inl (by simp [Setup.legal, Setup.present]), fun bound _ => ?_⟩
    dsimp only
    split
    · next hbound =>
      refine Or.inr (Or.inr ⟨fd, a, false, rfl, ?_⟩)
      simp [booksView, Books.next, Setup.next, Setup.legal, Setup.present, forgets, ranBy, hbound]
    next hbound =>
    rw [next_legal (m := { socket := some fd, bound := true, address := some a })
      (by simp [Setup.next, hbound]) (by simp [Setup.legal, Setup.present])
      (by simp [forgets, hbound]) rfl]
    refine ⟨Or.inl (by simp [Setup.legal, Setup.present]), fun listens _ => ?_⟩
    dsimp only
    split
    · next hlistens =>
      refine Or.inr (Or.inr ⟨fd, a, true, rfl, ?_⟩)
      simp [booksView, Books.next, Setup.next, Setup.legal, Setup.present, forgets, ranBy, hlistens]
    next hlistens =>
    rw [next_legal (m := listeningSetup fd a) (by simp [Setup.next, hlistens, listeningSetup])
      (by simp [Setup.legal, Setup.present]) (by simp [forgets, hlistens]) rfl]
    exact Or.inl ⟨fd, a, rfl, rfl⟩

/-- The daemon has what the process had. -/
theorem wp_daemonize {l : Setup} (hsocket : l.socket.isSome = true) (hup : l.down = false) :
    booksView.wp daemonize (fun _ b => b = { setup := l }) { setup := l } := by
  have hquiet : ∀ {e : Boot} {r : e.Ret}, l.next ⟨e, r⟩ = l → l.present e = true →
      forgets ⟨e, r⟩ = false → ranBy ⟨e, r⟩ = none →
      booksView.next { setup := l } ⟨e, r⟩ = { setup := l } := by
    intro e r hnext hpresent hforgets hran
    exact next_legal hnext (by simp [Setup.legal, hpresent, hup]) hforgets hran
  have hmay : ∀ {e : Boot}, l.present e = true → booksView.may { setup := l } e := by
    intro e hpresent
    exact Or.inl (by simp [Setup.legal, hpresent, hup])
  unfold daemonize
  simp only [bind_eq, perform_bind, pure_eq]
  refine ⟨hmay rfl, fun pid _ => ?_⟩
  rw [hquiet rfl rfl rfl rfl]
  dsimp only
  split
  · rfl
  split
  · rfl
  refine ⟨hmay rfl, fun session _ => ?_⟩
  rw [hquiet rfl rfl rfl rfl]
  dsimp only
  split
  · exact wp_logged rfl
  refine ⟨hmay rfl, fun directory _ => ?_⟩
  rw [hquiet rfl rfl rfl rfl]
  dsimp only
  split
  · exact wp_logged rfl
  refine ⟨hmay hsocket, fun null _ => ?_⟩
  rw [hquiet (e := .openNull) rfl hsocket rfl rfl]
  refine ⟨hmay hsocket, fun out _ => ?_⟩
  rw [hquiet (e := .dup 0) rfl hsocket rfl rfl]
  refine ⟨hmay hsocket, fun err _ => ?_⟩
  rw [hquiet (e := .dup 0) rfl hsocket rfl rfl]
  rfl

/-- What `setup_socket_server` leaves behind: when the daemon could not be made, the socket and the
address are known. -/
def Prepared (x : Int × Int × Option Nat) (b : Books) : Prop :=
  Created x b ∨ ∃ fd a, x = (-1, fd, some a) ∧ b = { setup := listeningSetup fd a }

theorem wp_setupSocketServer (executeAsDaemon : Bool) :
    booksView.wp (setupSocketServer executeAsDaemon 0 none)
      (fun x b => ∀ y, x = some y → Prepared y b) {} := by
  unfold setupSocketServer
  simp only [bind_eq, perform_bind, pure_eq]
  refine View.wp_bind (View.wp_mono (fun x b hcreated => ?_) wp_socketServerCreate)
  rcases hcreated with ⟨fd, a, rfl, rfl⟩ | ⟨rfl, hforgot⟩ | ⟨fd, a, bound, rfl, hb⟩
  · simp only [ne_eq, not_true, if_false]
    cases executeAsDaemon with
    | false =>
      intro y heq
      cases heq
      exact Or.inl (Or.inl ⟨fd, a, rfl, rfl⟩)
    | true =>
      refine View.wp_bind (View.wp_mono ?_ (wp_daemonize rfl rfl))
      rintro daemonResult _ rfl
      split
      · refine wp_logged ?_
        rintro _ ⟨⟩
        exact Or.inr ⟨fd, a, rfl, rfl⟩
      split
      · exact ⟨Or.inl rfl, fun _ _ => nofun⟩
      · rintro _ ⟨⟩
        exact Or.inl (Or.inl ⟨fd, a, rfl, rfl⟩)
  · refine wp_logged ?_
    rintro _ ⟨⟩
    exact Or.inl (Or.inr (Or.inl ⟨rfl, hforgot⟩))
  · refine wp_logged ?_
    rintro _ ⟨⟩
    exact Or.inl (Or.inr (Or.inr ⟨fd, a, bound, rfl, hb⟩))

/-- What `setup_signal_handlers` leaves behind. -/
def Installed (fd : Int) (a : Nat) (x : Int × Option Nat) (b : Books) : Prop :=
  (x = (-1, none) ∧ b.forgot = true ∧ b.ran = none) ∨
  (∃ timer, x = (-1, some timer) ∧ b = { setup := timedSetup fd a timer false }) ∨
  ∃ timer, x = (0, some timer) ∧ b = { setup := timedSetup fd a timer true }

theorem wp_setupSignalHandlers (fd : Int) (a : Nat) :
    booksView.wp setupSignalHandlers (Installed fd a) { setup := listeningSetup fd a } := by
  unfold setupSignalHandlers
  simp only [bind_eq, perform_bind, pure_eq]
  refine ⟨Or.inl rfl, fun sigint _ => ?_⟩
  cases sigint with
  | false => exact Or.inl ⟨rfl, forgot_of_forgets rfl, rfl⟩
  | true =>
  refine ⟨Or.inl rfl, fun sigterm _ => ?_⟩
  cases sigterm with
  | false => exact Or.inl ⟨rfl, forgot_of_forgets rfl, rfl⟩
  | true =>
  refine ⟨Or.inl rfl, fun sigusr1 _ => ?_⟩
  cases sigusr1 with
  | false => exact Or.inl ⟨rfl, forgot_of_forgets rfl, rfl⟩
  | true =>
  rw [next_legal rfl rfl rfl rfl, next_legal rfl rfl rfl rfl, next_legal rfl rfl rfl rfl]
  refine ⟨Or.inl rfl, fun semaphore _ => ?_⟩
  dsimp only
  split
  · next hsem => exact Or.inl ⟨rfl, forgot_of_forgets (by simp [forgets, hsem]), rfl⟩
  next hsem =>
  rw [ne_eq, not_not] at hsem
  rw [hsem, next_legal rfl rfl rfl rfl]
  refine ⟨Or.inl rfl, fun created _ => ?_⟩
  cases created with
  | none => exact Or.inl ⟨rfl, forgot_of_forgets rfl, rfl⟩
  | some timer =>
    rw [next_legal (m := timedSetup fd a timer false) rfl rfl rfl rfl]
    have hlegal : (timedSetup fd a timer false).legal
        (.timerSettime (some timer) timestampLogIntervalS) = true := by
      simp [Setup.legal, Setup.present, timedSetup, listeningSetup]
    refine ⟨Or.inl hlegal, fun set _ => ?_⟩
    dsimp only
    split
    · next hset =>
      refine Or.inr (Or.inl ⟨timer, rfl, next_legal ?_ hlegal rfl rfl⟩)
      exact if_neg hset
    · next hset =>
      refine Or.inr (Or.inr ⟨timer, rfl, next_legal ?_ hlegal rfl rfl⟩)
      exact if_pos (not_not.mp hset)

/-- What is to be shown of every way out. -/
def Accounted (exit : Exit) (b : Books) : Prop :=
  ∀ status, exit = .returned status →
    (b.lawful = true ∧ b.setup.cleared = true ↔ b.forgot = false) ∧
      (b.ran = some status ∨ b.ran = none ∧ status ≠ 0)

/-- A call failed after which something is left, or something was cleaned up that was not there. -/
structure Spoilt (status : Int) (b : Books) : Prop where
  forgot : b.forgot = true
  left : b.lawful = false ∨ b.setup.logger.isSome = true ∨ b.setup.mutex = true
  ran : b.ran = some status ∨ b.ran = none ∧ status ≠ 0

namespace Spoilt

variable {status : Int} {b : Books}

theorem accounted (h : Spoilt status b) : Accounted (.returned status) b := by
  intro status' heq
  cases heq
  refine ⟨iff_of_false ?_ (by simp [h.forgot]), h.ran⟩
  rintro ⟨hlawful, hcleared⟩
  simp only [Setup.cleared, Bool.and_eq_true, Bool.not_eq_true'] at hcleared
  rcases h.left with hl | hl | hl
  · rw [hl] at hlawful
    cases hlawful
  · rw [Option.isNone_iff_eq_none.mp hcleared.1.2] at hl
    cases hl
  · rw [hcleared.2] at hl
    cases hl

/-- It stays so. -/
theorem next (h : Spoilt status b) {x : BootEvent} (hx : x.1.cleansUp = true) :
    Spoilt status (booksView.next b x) := by
  obtain ⟨e, r⟩ := x
  have hsame : (b.setup.next ⟨e, r⟩).logger = b.setup.logger ∧
      (b.setup.next ⟨e, r⟩).mutex = b.setup.mutex ∧ ranBy ⟨e, r⟩ = none := by
    cases e <;> first | exact ⟨rfl, rfl, rfl⟩ | cases hx
  obtain ⟨hlogger, hmutex, hran⟩ := hsame
  refine ⟨?_, ?_, ?_⟩
  · simp [booksView, Books.next, h.forgot]
  · show (b.lawful && _) = false ∨ _
    rw [show (booksView.next b ⟨e, r⟩).setup = b.setup.next ⟨e, r⟩ from rfl, hlogger, hmutex]
    exact h.left.imp_left fun hl => by rw [hl, Bool.false_and]
  · rw [show (booksView.next b ⟨e, r⟩).ran = (ranBy ⟨e, r⟩).or b.ran from rfl, hran, Option.none_or]
    exact h.ran

theorem wp_cleanUp (h : Spoilt status b) {timer : Option Nat} {fd : Int} {address : Option Nat}
    {p : BootProg Exit} (hp : ∀ b, Accounted (.returned status) b → booksView.wp p Accounted b) :
    booksView.wp (cleanUp timer fd address p) Accounted b :=
  ⟨Or.inr rfl, fun _ _ => ⟨Or.inr rfl, fun _ _ => ⟨Or.inr rfl, fun _ _ =>
    hp _ (((h.next rfl).next rfl).next rfl).accounted⟩⟩⟩

end Spoilt

/-- Without a timer one is deleted that is not there. -/
theorem wp_cleanUp_forgot (fd : Int) (address : Option Nat) {status : Int} (hstatus : status ≠ 0)
    (b : Books) (hforgot : b.forgot = true) (hran : b.ran = none) :
    booksView.wp (cleanUp none fd address (leave status)) Accounted b := by
  have hspoilt : ∀ r : Int, Spoilt status (booksView.next b ⟨.timerDelete none, r⟩) := by
    intro r
    refine ⟨?_, Or.inl ?_, Or.inr ⟨?_, hstatus⟩⟩
    · simp [booksView, Books.next, hforgot]
    · simp [booksView, Books.next, Setup.legal, Setup.present]
    · simp [booksView, Books.next, ranBy, hran]
  exact ⟨Or.inr rfl, fun r _ => ⟨Or.inr rfl, fun _ _ => ⟨Or.inr rfl, fun _ _ =>
    wp_leave (((hspoilt r).next rfl).next rfl).accounted⟩⟩⟩

/-- A way out on which nothing is left but what `cleanUp` takes down. -/
theorem wp_cleanUp {l : Setup} {timer a : Nat} {fd : Int} (htimer : l.timer = some timer)
    (hsocket : l.socket = some fd) (haddress : l.address = some a) (hlogger : l.logger = none)
    (hmutex : l.mutex = false) {ran : Option Int} {status : Int}
    (hran : ran = some status ∨ ran = none ∧ status ≠ 0) {p : BootProg Exit}
    (hp : ∀ b, Accounted (.returned status) b → booksView.wp p Accounted b) :
    booksView.wp (cleanUp (some timer) fd (some a) p) Accounted { setup := l, ran := ran } := by
  refine ⟨Or.inr rfl, fun deleted _ => ⟨Or.inr rfl, fun _ _ => ⟨Or.inr rfl, fun _ _ => hp _ ?_⟩⟩⟩
  intro status' heq
  cases heq
  have hran' : (none : Option Int).or ran = some status ∨
      (none : Option Int).or ran = none ∧ status ≠ 0 := hran
  refine ⟨?_, hran'⟩
  by_cases hdeleted : deleted = 0
  · simp [booksView, Books.next, Setup.next, Setup.legal, Setup.present, Boot.cleansUp,
      Setup.cleared, forgets, htimer, hsocket, haddress, hlogger, hmutex, hdeleted]
  · simp [booksView, Books.next, Setup.next, Setup.cleared, forgets, htimer, hdeleted]

/-- The first way out does not know the socket. -/
theorem wp_created_failed {fd : Int} {a : Option Nat} {b : Books} (h : Prepared (-1, fd, a) b) :
    booksView.wp (.call (.close fd) fun _ => .call (.freeaddrinfo a) fun _ => leave (-1))
      Accounted b := by
  refine ⟨Or.inr rfl, fun _ _ => ⟨Or.inr rfl, fun _ _ => wp_leave ?_⟩⟩
  intro y heq
  cases heq
  rcases h with (⟨_, _, heq, -⟩ | ⟨heq, hforgot, hran⟩ | ⟨fd', a', bound, heq, rfl⟩) |
    ⟨fd', a', heq, rfl⟩
  · cases heq
  · cases heq
    refine ⟨?_, Or.inr ⟨?_, by decide⟩⟩
    · simp [booksView, Books.next, Setup.legal, Setup.present, hforgot]
    · simp [booksView, Books.next, ranBy, hran]
  · cases heq
    refine ⟨?_, Or.inr ⟨rfl, by decide⟩⟩
    by_cases hfd : fd' = 0
    · simp [booksView, Books.next, Setup.next, Setup.legal, Setup.present, Boot.cleansUp,
        Setup.cleared, forgets, hfd]
    · simp [booksView, Books.next, Setup.legal, Setup.present, forgets, hfd]
  · cases heq
    refine ⟨?_, Or.inr ⟨rfl, by decide⟩⟩
    simp [booksView, Books.next, Setup.next, Setup.legal, Setup.present, Boot.cleansUp,
      Setup.cleared, forgets, listeningSetup]

theorem runMain_eq (useAesdCharDevice executeAsDaemon : Bool) :
    runMain useAesdCharDevice executeAsDaemon
      = (setupSocketServer executeAsDaemon 0 none).bind fun
        | none => .ret .exited
        | some (socketResult, serverSocket, serverAddrinfo) =>
          if socketResult ≠ 0 then
            logged "setup_socket_server" (.call (.close serverSocket) fun _ =>
              .call (.freeaddrinfo serverAddrinfo) fun _ => leave (-1))
          else setupSignalHandlers.bind fun y =>
            if y.1 ≠ 0 then
              logged "setup_signal_handlers" (cleanUp y.2 serverSocket serverAddrinfo (leave (-1)))
            else .call .pthreadCreate fun
              | .error _ => logged "pthread_create returned error: %d"
                  (cleanUp y.2 serverSocket serverAddrinfo (leave (-1)))
              | .ok timestampThreadId => .call .pthreadMutexInit fun initialized =>
                if initialized ≠ 0 then cleanUp y.2 serverSocket serverAddrinfo (leave (-1))
                else .call (.application serverSocket) fun result =>
                  .call (.pthreadJoin timestampThreadId) fun _ =>
                    (removeResultFile useAesdCharDevice).bind fun _ =>
                      .call .pthreadMutexDestroy fun _ =>
                        cleanUp y.2 serverSocket serverAddrinfo
                          (logged "`aesdsocket` complete." (leave result)) := by
  unfold runMain cleanUp logged leave removeResultFile
  simp only [bind_eq, perform_bind, pure_eq]
  congr 1
  funext x
  cases x with
  | none => rfl
  | some x =>
    obtain ⟨socketResult, serverSocket, serverAddrinfo⟩ := x
    dsimp only
    split
    · rfl
    congr 1
    funext y
    split
    · rfl
    congr 1
    funext created
    cases created with
    | error _ => rfl
    | ok timestampThreadId =>
      dsimp only
      congr 1
      funext initialized
      split
      · rfl
      congr 1
      funext result
      congr 1
      funext joined
      cases useAesdCharDevice with
      | true => rfl
      | false =>
        simp only [Bool.not_false, if_true, call_bind]
        congr 1
        funext removed
        split
        · rfl
        · rfl

theorem wp_removeResultFile (useAesdCharDevice : Bool) {l : Setup} (hup : l.down = false)
    (forgot : Bool) (ran : Option Int) :
    booksView.wp (removeResultFile useAesdCharDevice)
      (fun _ b => b = { setup := l, forgot := forgot, ran := ran })
      { setup := l, forgot := forgot, ran := ran } := by
  have hlegal : ∀ e : Boot, l.present e = true → l.legal e = true := by
    intro e he
    simp [Setup.legal, he, hup]
  cases useAesdCharDevice with
  | true => rfl
  | false =>
    refine ⟨Or.inl (hlegal _ rfl), fun removed _ => ?_⟩
    rw [next_legal (m := l) rfl (hlegal _ rfl) rfl rfl]
    dsimp only
    split
    · exact ⟨Or.inl (hlegal _ rfl), fun _ _ => next_legal rfl (hlegal _ rfl) rfl rfl⟩
    · rfl

/-- From the end of `application` on. -/
theorem wp_applied (useAesdCharDevice : Bool) (fd : Int) (a timer thread : Nat) (result : Int)
    {p : BootProg Exit}
    (hp : ∀ b, Accounted (.returned result) b → booksView.wp p Accounted b) :
    booksView.wp (.call (.pthreadJoin thread) fun _ =>
      (removeResultFile useAesdCharDevice).bind fun _ => .call .pthreadMutexDestroy fun _ =>
        cleanUp (some timer) fd (some a) p) Accounted
      { setup := startedSetup fd a timer (some thread) true, ran := some result } := by
  have hjoin : (startedSetup fd a timer (some thread) true).legal (.pthreadJoin thread) = true := by
    simp [Setup.legal, Setup.present, startedSetup, timedSetup, listeningSetup]
  refine ⟨Or.inl hjoin, fun joined _ => ?_⟩
  by_cases hjoined : joined = 0
  · subst hjoined
    rw [next_legal (m := startedSetup fd a timer none true) rfl hjoin rfl rfl]
    refine View.wp_bind (View.wp_mono ?_ (wp_removeResultFile useAesdCharDevice rfl _ _))
    rintro _ _ rfl
    refine ⟨Or.inl rfl, fun destroyed _ => ?_⟩
    by_cases hdestroyed : destroyed = 0
    · subst hdestroyed
      rw [next_legal (m := startedSetup fd a timer none false) rfl rfl rfl rfl]
      exact wp_cleanUp rfl rfl rfl rfl rfl (Or.inl rfl) hp
    · -- the mutex is left
      refine Spoilt.wp_cleanUp ⟨forgot_of_forgets (by simp [forgets, hdestroyed]), ?_,
        Or.inl rfl⟩ hp
      simp [booksView, Books.next, Setup.next, startedSetup, hdestroyed]
  · -- the logger is left
    have hnext : booksView.next
        { setup := startedSetup fd a timer (some thread) true, ran := some result }
        ⟨.pthreadJoin thread, joined⟩
        = { setup := { startedSetup fd a timer (some thread) true with unjoined := true },
            forgot := true, ran := some result } := by
      simp [booksView, Books.next, Setup.next, forgets, ranBy, hjoin, hjoined]
    rw [hnext]
    refine View.wp_bind (View.wp_mono ?_ (wp_removeResultFile useAesdCharDevice rfl _ _))
    rintro _ _ rfl
    refine ⟨Or.inr rfl, fun destroyed _ => ?_⟩
    refine Spoilt.wp_cleanUp ⟨rfl, Or.inr (Or.inl ?_), Or.inl rfl⟩ hp
    simp only [booksView, Books.next, Setup.next]
    split <;> rfl

/-- From the start of the logger on. -/
theorem wp_started (useAesdCharDevice : Bool) (fd : Int) (a timer thread : Nat) :
    booksView.wp (.call .pthreadMutexInit fun initialized =>
      if initialized ≠ 0 then cleanUp (some timer) fd (some a) (leave (-1))
      else .call (.application fd) fun result => .call (.pthreadJoin thread) fun _ =>
        (removeResultFile useAesdCharDevice).bind fun _ => .call .pthreadMutexDestroy fun _ =>
          cleanUp (some timer) fd (some a) (logged "`aesdsocket` complete." (leave result)))
      Accounted { setup := startedSetup fd a timer (some thread) false } := by
  refine ⟨Or.inl rfl, fun initialized _ => ?_⟩
  dsimp only
  split
  · next hfailed =>
    -- the logger is left
    refine Spoilt.wp_cleanUp ⟨forgot_of_forgets (by simp [forgets, hfailed]), ?_,
      Or.inr ⟨rfl, by decide⟩⟩ fun _ => wp_leave
    simp [booksView, Books.next, Setup.next, startedSetup, hfailed]
  next hok =>
  obtain rfl : initialized = 0 := not_not.mp hok
  rw [next_legal (m := startedSetup fd a timer (some thread) true) rfl rfl rfl rfl]
  have hready : (startedSetup fd a timer (some thread) true).legal (.application fd) = true := by
    simp [Setup.legal, Setup.present, Setup.ready, startedSetup, timedSetup, listeningSetup]
  refine ⟨Or.inl hready, fun result _ => ?_⟩
  have hran : booksView.next { setup := startedSetup fd a timer (some thread) true }
      ⟨.application fd, result⟩
      = { setup := startedSetup fd a timer (some thread) true, ran := some result } := by
    simp [booksView, Books.next, Setup.next, forgets, ranBy, hready]
  rw [hran]
  exact wp_applied useAesdCharDevice fd a timer thread result fun _ h => wp_logged (wp_leave h)

/-- **Every way out.** -/
theorem wp_runMain (useAesdCharDevice executeAsDaemon : Bool) :
    booksView.wp (runMain useAesdCharDevice executeAsDaemon) Accounted {} := by
  rw [runMain_eq]
  refine View.wp_bind (View.wp_mono (fun x b hsetup => ?_) (wp_setupSocketServer executeAsDaemon))
  cases x with
  | none =>
    intro status heq
    cases heq
  | some x =>
    obtain ⟨socketResult, fd, address⟩ := x
    have hset := hsetup _ rfl
    dsimp only
    split
    · next hfailed =>
      have hresult : socketResult = -1 := by
        rcases hset with (⟨_, _, heq, -⟩ | ⟨heq, -⟩ | ⟨_, _, _, heq, -⟩) | ⟨_, _, heq, -⟩
        all_goals cases heq
        · exact absurd rfl hfailed
        all_goals rfl
      subst hresult
      exact wp_logged (wp_created_failed hset)
    next hok =>
    obtain ⟨a, rfl, rfl⟩ : ∃ a, address = some a ∧ b = { setup := listeningSetup fd a } := by
      rcases hset with (⟨_, a, heq, hb⟩ | ⟨heq, -⟩ | ⟨_, _, _, heq, -⟩) | ⟨_, _, heq, -⟩
      · cases heq
        exact ⟨a, rfl, hb⟩
      all_goals
        cases heq
        exact absurd (by decide) hok
    refine View.wp_bind (View.wp_mono (fun y b hinstalled => ?_) (wp_setupSignalHandlers fd a))
    rcases hinstalled with ⟨rfl, hforgot, hran⟩ | ⟨timer, rfl, rfl⟩ | ⟨timer, rfl, rfl⟩
    · rw [if_pos (by decide)]
      exact wp_logged (wp_cleanUp_forgot fd (some a) (by decide) b hforgot hran)
    · rw [if_pos (by simp)]
      exact wp_logged (wp_cleanUp rfl rfl rfl rfl rfl (Or.inr ⟨rfl, by decide⟩) fun _ => wp_leave)
    · rw [if_neg (by simp)]
      refine ⟨Or.inl rfl, fun created _ => ?_⟩
      cases created with
      | error _ =>
        rw [next_legal rfl rfl rfl rfl]
        exact wp_logged
          (wp_cleanUp rfl rfl rfl rfl rfl (Or.inr ⟨rfl, by decide⟩) fun _ => wp_leave)
      | ok thread =>
        rw [next_legal rfl rfl rfl rfl]
        exact wp_started useAesdCharDevice fd a timer thread

theorem main_eq (useAesdCharDevice : Bool) (argv : List String) :
    main useAesdCharDevice argv = logged "Starting `aesdsocket`."
      (match parseArguments argv with
        | none => leave 1
        | some executeAsDaemon => runMain useAesdCharDevice executeAsDaemon) := rfl

theorem wp_main (useAesdCharDevice : Bool) (argv : List String) :
    booksView.wp (main useAesdCharDevice argv) Accounted {} := by
  rw [main_eq]
  refine wp_logged ?_
  cases parseArguments argv with
  | none =>
    refine wp_leave ?_
    intro y heq
    cases heq
    exact ⟨iff_of_true ⟨rfl, rfl⟩ rfl, Or.inr ⟨rfl, by decide⟩⟩
  | some executeAsDaemon => exact wp_runMain useAesdCharDevice executeAsDaemon

/--
**What `main` sets up and takes down.**

In every run of `main`, with any arguments and any outcome of its calls, also one that is not over:
every call is about something that is there, the calls that clean up excepted. So `application`
runs with a socket that listens, handlers for all three signals, an armed timer, the logger and the
mutex; and the mutex is destroyed when the logger has been joined, or `pthread_join` has failed.

When `main` returns, it has cleaned up nothing but what was there, and all of it, exactly if none
of these failed: `socket`, `setsockopt`, `getaddrinfo`, `signal`, `sem_init`, `timer_create`,
`pthread_mutex_init`, `bind` or `listen` on a descriptor other than 0, `pthread_join`,
`pthread_mutex_destroy`, or `timer_delete`. Its status is the result of `application`, or not 0 when
that did not run.
-/
theorem main_life_cycle (useAesdCharDevice : Bool) (argv : List String) (es : List BootEvent)
    (q : BootProg Exit) (hrun : (main useAesdCharDevice argv).Leads es q) :
    Always (fun pre x => (Setup.of pre).legal x.1 = true ∨ (Setup.of pre).excused x.1 = true) es ∧
    ∀ status, q = .ret (.returned status) →
      (Always (fun pre x => (Setup.of pre).legal x.1 = true) es ∧ (Setup.of es).cleared = true ↔
        ∀ x ∈ es, forgets x = false) ∧
      ((es.filterMap ranBy).getLast? = some status ∨
        (es.filterMap ranBy).getLast? = none ∧ status ≠ 0) := by
  obtain ⟨hend, hmay⟩ :=
    View.wp_leads (wp_main useAesdCharDevice argv) hrun fun _ _ _ _ => trivial
  refine ⟨fun pre x post he => ?_, ?_⟩
  · have hx : (pre.foldl Books.next {}).setup.legal x.1 = true ∨
        (pre.foldl Books.next {}).setup.excused x.1 = true := hmay pre x post he
    rwa [(Books.kept pre).setup] at hx
  rintro status rfl
  have hkept := Books.kept es
  have haccounted := hend status rfl
  rw [show es.foldl booksView.next {} = es.foldl Books.next {} from rfl, hkept.lawful, hkept.setup,
    hkept.forgot, hkept.ran] at haccounted
  exact haccounted

/-- The port is in use: `main` closes descriptor 0 and leaves the socket open. -/
def portInUse : List BootEvent :=
  [⟨.syslog "Starting `aesdsocket`.", (some 3 : Option Nat)⟩, ⟨.socket, (4 : Int)⟩,
    ⟨.setsockopt 4, (0 : Int)⟩, ⟨.getaddrinfo port, .ok 0⟩, ⟨.bind 4 (some 0), (-1 : Int)⟩,
    ⟨.syslog "create_server_socket", (some 3 : Option Nat)⟩,
    ⟨.syslog "setup_socket_server", (some 3 : Option Nat)⟩, ⟨.close 0, (0 : Int)⟩,
    ⟨.freeaddrinfo (some 0), ()⟩, ⟨.closelog, ()⟩]

theorem main_life_cycle_port_in_use :
    (main true ["aesdsocket"]).Leads portInUse (.ret (.returned (-1))) ∧
      (Setup.of portInUse).socket = some 4 ∧
      ¬(Always (fun pre x => (Setup.of pre).legal x.1 = true) portInUse ∧
        (Setup.of portInUse).cleared = true) := by
  have hrun : (main true ["aesdsocket"]).Leads portInUse (.ret (.returned (-1))) :=
    ⟨_, rfl, _, rfl, _, rfl, _, rfl, _, rfl, _, rfl, _, rfl, _, rfl, _, rfl, _, rfl, rfl⟩
  refine ⟨hrun, by decide, fun hc => ?_⟩
  have hfailed := ((main_life_cycle true ["aesdsocket"] portInUse _ hrun).2 _ rfl).1.mp hc
  exact absurd (hfailed ⟨.bind 4 (some 0), (-1 : Int)⟩ (by simp [portInUse])) (by decide)

end Aesd.Server

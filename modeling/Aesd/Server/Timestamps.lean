import Aesd.Infra.Handles
import Aesd.Server.Application

/-!
# Signals and timestamps

The timestamp logger of the file backend among the signal handlers of `main.c`. Both handlers post
the semaphore that the logger waits for. `sigint_handler` sets `is_terminated` first, and the logger
looks at it between the wait and the line: so a post that a termination signal made is never the
one that a line comes from.

Thread 0 is the logger. Every other thread is one delivery of a signal, one place where
`application` sets `is_terminated`, or one of its workers, which take `result_file_mutex` as the
logger does; there may be any number of each, and they move when they like.
-/

namespace Aesd.Server

open Infra Prog

variable {β : Type}

/-! ## Handlers -/

/-- For `SIGINT` and `SIGTERM`. -/
def sigintHandler : ServerProg β Unit := do
  sys .setIsTerminated
  sys .semPost

def sigusr1Handler : ServerProg β Unit := do
  sys .semPost

/-- What a thread other than the logger is there for. -/
inductive Cause where
  | sigusr1
  | sigint
  | application
  | worker (rounds : Nat) (file : String) (node : Nat) (clientFd : Int)
  deriving DecidableEq, Repr

def Cause.handler : Cause → ServerProg β Unit
  | .sigusr1 => sigusr1Handler
  | .sigint => sigintHandler
  | .application => sys .setIsTerminated
  | .worker rounds file node clientFd => dataTransferWorker rounds file node clientFd

/-! ## The system -/

/-- `SEM_VALUE_MAX` -/
def semValueMax : Nat := 2147483647

/-- The semaphore, the flag, and who has the mutex. -/
structure Timing where
  semaphore : Nat
  isTerminated : Bool
  mutex : Option Nat

/-- What a call of thread `t` does. `sem_wait` returns after a decrement only, and `sem_post` fails
when the value cannot grow. `recv` and `send` wait for the client. All other calls answer
anything. -/
def timestampCall (t : Nat) : (e : Sys β) → Timing → Answers β → Option (e.Ret × Timing)
  | .semWait, s, _ =>
    if 0 < s.semaphore then some ((), { s with semaphore := s.semaphore - 1 }) else none
  | .semPost, s, _ =>
    if s.semaphore < semValueMax then some ((), { s with semaphore := s.semaphore + 1 })
    else some ((), s)
  | .isTerminated, s, _ => some (s.isTerminated, s)
  | .setIsTerminated, s, _ => some ((), { s with isTerminated := true })
  | .mutexLock, s, _ => if s.mutex = none then some ((), { s with mutex := some t }) else none
  | .mutexUnlock, s, _ => if s.mutex = some t then some ((), { s with mutex := none }) else none
  | .recv fd len, s, a => if a.waits then none else some (a (.recv fd len), s)
  | .send fd buf len, s, a => if a.waits then none else some (a (.send fd buf len), s)
  | e, s, a => some (a e, s)

def timestampSystem : System (@Sys.Ret β) Timing (Answers β) where
  act w t e a := timestampCall t e w.state a

/-- `sem_init` with the value 0, and nobody has done anything. -/
def timestampStart (rounds : Nat) (cause : Nat → Cause) : Config (@Sys.Ret β) Timing Unit :=
  { world := { state := { semaphore := 0, isTerminated := false, mutex := none }, trace := [] }
    prog := fun t => if t = 0 then logTimestampWorker false rounds else (cause t).handler }

/-! ## What is counted -/

def isPost : Nat × SysEvent β → Bool
  | (_, ⟨.semPost, _⟩) => true
  | _ => false

/-- The signal handler for `SIGUSR1` has done its work. -/
def isHandled (cause : Nat → Cause) (x : Nat × SysEvent β) : Bool :=
  isPost x && cause x.1 == .sigusr1

def isWait : Nat × SysEvent β → Bool
  | (0, ⟨.semWait, _⟩) => true
  | _ => false

/-- The logger begins to append a line. -/
def isBegun : Nat × SysEvent β → Bool
  | (0, ⟨.openFile _ _, _⟩) => true
  | _ => false

/-- The logger has appended a line, maybe not all of it. -/
def isAppended : Nat × SysEvent β → Bool
  | (0, ⟨.write _ _, some _⟩) => true
  | _ => false

/-- Since the logger saw that it is to go on, it has not waited. Up to then all posts came from
`SIGUSR1`, and there were enough of them for every wait. -/
def Cleared (cause : Nat → Cause) (tr : Trace β) : Prop :=
  ∃ before after, tr = before ++ (0, ⟨.isTerminated, false⟩) :: after ∧
    (∀ x ∈ before, isPost x = true → cause x.1 = .sigusr1) ∧ (∀ x ∈ after, isWait x = false) ∧
    tr.countP isWait ≤ before.countP (isHandled cause)

/-- What holds of the lines at any time. -/
structure LinesAccounted (cause : Nat → Cause) (tr : Trace β) : Prop where
  appended : tr.countP isAppended ≤ tr.countP isBegun
  begun : tr.countP isBegun ≤ tr.countP (isHandled cause)
  /-- each line comes from a post for `SIGUSR1`, one that no line before it came from -/
  released : Always (fun pre x => isBegun x = true → Cleared cause pre ∧
    pre.countP isBegun < pre.countP isWait) tr
  /-- once it has seen that it is to end, the logger begins nothing -/
  ends : Always (fun pre x => (0, ⟨.isTerminated, true⟩) ∈ pre → x.1 = 0 →
    x.2.1 = .pthreadExit) tr

/-! ## Where the logger is -/

/-- What the logger did last, of what matters. -/
inductive Stage where
  | start
  | waited
  | checked
  | opened
  | written
  | stopped
  deriving DecidableEq, Repr

namespace Stage

def next (p : Stage) : SysEvent β → Stage
  | ⟨.semWait, _⟩ => .waited
  | ⟨.isTerminated, terminated⟩ => if terminated then .stopped else .checked
  | ⟨.openFile _ _, _⟩ => .opened
  | ⟨.write _ _, _⟩ => .written
  | _ => p

/-- The lines that a wait which has returned still pays for. -/
def due : Stage → Nat
  | .waited | .checked => 1
  | _ => 0

/-- The lines that were begun and not written. -/
def unwritten : Stage → Nat
  | .opened => 1
  | _ => 0

/-- After these calls. -/
def of (es : List (SysEvent β)) : Stage := es.foldl next start

@[simp] theorem of_push (es : List (SysEvent β)) (x : SysEvent β) :
    of (es ++ [x]) = (of es).next x := by
  simp [of, List.foldl_append]

end Stage

/-- What the logger goes by. -/
def loggerView : View (@Sys.Ret β) Stage where
  may p e :=
    match e with
    | .semWait => p = .start ∨ p = .written
    | .isTerminated => p = .waited ∨ p = .checked
    | .openFile _ _ => p = .checked
    | .write _ _ => p = .opened
    | .clockGettime | .localtimeR | .strftime _ | .mutexLock => p = .checked
    | .close _ | .mutexUnlock => p = .written
    | .pthreadExit => p = .stopped
    | _ => False
  answers _ _ _ := True
  next := Stage.next
  spins := True

theorem logger_appendToFile (file : String) (buffer : List UInt8) :
    loggerView.wp (appendToFile file buffer : ServerProg β Int) (fun _ p => p = .written)
      .checked := by
  rw [appendToFile_eq]
  refine ⟨rfl, fun fd _ => ⟨rfl, fun result _ => ?_⟩⟩
  beta_reduce
  split
  · rfl
  · split
    · rfl
    · refine ⟨rfl, fun closed _ => ?_⟩
      beta_reduce
      split
      · rfl
      · rfl

/-- One round, from the loop head on. -/
theorem logger_round {p : Stage} (hp : p = .waited ∨ p = .checked) :
    loggerView.wp (logRound false () : ServerProg β (Unit ⊕ Unit))
      (fun x p' => x = .inl () → p' = .waited ∨ p' = .checked) p := by
  rw [logRound_eq]
  refine ⟨hp, fun terminated _ => ?_⟩
  cases terminated with
  | true => exact ⟨rfl, fun _ _ => nofun⟩
  | false =>
    refine ⟨rfl, fun _ _ => ⟨rfl, fun converted _ => ?_⟩⟩
    cases converted with
    | false => exact fun _ => Or.inr rfl
    | true =>
      refine ⟨rfl, fun timeString _ => ?_⟩
      beta_reduce
      split
      · exact fun _ => Or.inr rfl
      · refine ⟨rfl, fun _ _ => View.wp_bind (View.wp_mono ?_ (logger_appendToFile _ _))⟩
        rintro _ _ rfl
        exact ⟨rfl, fun _ _ => ⟨Or.inr rfl, fun _ _ _ => Or.inl rfl⟩⟩

/-- **The logger** begins a line only after a wait and a look at the flag. -/
theorem logger_wp (rounds : Nat) :
    loggerView.wp (logTimestampWorker false rounds : ServerProg β Unit) (fun _ _ => True)
      .start := by
  have hloop : ∀ (n : Nat) (p : Stage), p = .waited ∨ p = .checked →
      loggerView.wp (iter (logRound false) n () : ServerProg β Unit) (fun _ _ => True) p := by
    intro n
    induction n with
    | zero => exact fun p _ => trivial
    | succ n ih =>
      intro p hp
      refine View.wp_bind (View.wp_mono (fun x p' hx => ?_) (logger_round hp))
      rcases x with _ | _
      · exact ih p' (hx rfl)
      · trivial
  exact ⟨Or.inl rfl, fun _ _ => hloop rounds _ (Or.inl rfl)⟩

/-! ## The invariant -/

theorem countP_push {X : Type} (p : X → Bool) (xs : List X) (x : X) :
    (xs ++ [x]).countP p = xs.countP p + (p x).toNat := by
  rw [List.countP_append, List.countP_singleton]
  cases p x <;> rfl

abbrev TimingWorld (β : Type) := World (@Sys.Ret β) Timing

/-- The semaphore, the flag and the place of the logger, together with what was counted. -/
structure Accounts (cause : Nat → Cause) (w : TimingWorld β) : Prop where
  /-- every wait took a post -/
  value : w.state.semaphore + w.trace.countP isWait ≤ w.trace.countP isPost
  /-- a termination signal sets the flag before it posts -/
  clear : w.state.isTerminated = false →
    ∀ x ∈ w.trace, isPost x = true → cause x.1 = .sigusr1
  due : w.trace.countP isBegun + (Stage.of (w.own 0)).due ≤ w.trace.countP isWait
  unwritten : w.trace.countP isAppended + (Stage.of (w.own 0)).unwritten ≤ w.trace.countP isBegun
  cleared : Stage.of (w.own 0) = .checked → Cleared cause w.trace
  stopped : (0, ⟨.isTerminated, true⟩) ∈ w.trace → Stage.of (w.own 0) = .stopped
  lines : LinesAccounted cause w.trace

section Step

variable {cause : Nat → Cause} {w : TimingWorld β} {tr : Trace β} {x : Nat × SysEvent β}

theorem Cleared.push (h : Cleared cause tr) (hx : isWait x = false) :
    Cleared cause (tr ++ [x]) := by
  obtain ⟨before, after, rfl, hposts, hwaits, hcount⟩ := h
  refine ⟨before, after ++ [x], by simp, hposts, fun y hy => ?_, ?_⟩
  · rcases List.mem_append.mp hy with hy | hy
    · exact hwaits y hy
    · rw [List.mem_singleton.mp hy, hx]
  · rw [countP_push, hx]
    exact hcount

/-- With enough posts of the right kind before it, a look at the flag clears the next line. -/
theorem Cleared.check (hposts : ∀ x ∈ tr, isPost x = true → cause x.1 = .sigusr1)
    (hcount : tr.countP isWait ≤ tr.countP isPost) :
    Cleared cause (tr ++ [(0, ⟨.isTerminated, false⟩)]) := by
  refine ⟨tr, [], rfl, hposts, by simp, ?_⟩
  have hhandled : tr.countP (isHandled cause) = tr.countP isPost := by
    refine List.countP_congr fun x hx => ?_
    unfold isHandled
    rw [Bool.and_eq_true, beq_iff_eq, and_iff_left_iff_imp]
    exact hposts x hx
  rw [countP_push, hhandled]
  exact hcount

theorem Cleared.enough (h : Cleared cause tr) :
    tr.countP isWait ≤ tr.countP (isHandled cause) := by
  obtain ⟨before, after, rfl, -, -, hcount⟩ := h
  refine Nat.le_trans hcount ?_
  rw [List.countP_append]
  exact Nat.le_add_right _ _

/-- **One call**, by what it does to the semaphore, the flag and the place of the logger. -/
theorem Accounts.push (h : Accounts cause w) {t : Nat} {s : Timing} {e : SysEvent β} {p' : Stage}
    (hp' : Stage.of ((w.push t s e).own 0) = p')
    (hvalue : s.semaphore + (isWait (t, e)).toNat ≤ w.state.semaphore + (isPost (t, e)).toNat)
    (hclear : s.isTerminated = false →
      w.state.isTerminated = false ∧ (isPost (t, e) = true → cause t = .sigusr1))
    (hdue : (isBegun (t, e)).toNat + p'.due ≤ (isWait (t, e)).toNat + (Stage.of (w.own 0)).due)
    (hunwritten : (isAppended (t, e)).toNat + p'.unwritten
      ≤ (isBegun (t, e)).toNat + (Stage.of (w.own 0)).unwritten)
    (hbegun : isBegun (t, e) = true → Stage.of (w.own 0) = .checked)
    (hcleared : p' = .checked → Cleared cause (w.trace ++ [(t, e)]))
    (hstopped : Stage.of (w.own 0) = .stopped → p' = .stopped ∧ (t = 0 → e.1 = .pthreadExit))
    (hseen : (0, ⟨.isTerminated, true⟩) = (t, e) → p' = .stopped) :
    Accounts cause (w.push t s e) where
  value := by
    have hv := h.value
    rw [World.push_trace, World.push_state, countP_push, countP_push]
    omega
  clear hs y hy := by
    obtain ⟨hflag, hpost⟩ := hclear hs
    rcases List.mem_append.mp hy with hy | hy
    · exact h.clear hflag y hy
    · rw [List.mem_singleton.mp hy]
      exact hpost
  due := by
    have hd := h.due
    rw [hp', World.push_trace, countP_push, countP_push]
    omega
  unwritten := by
    have hu := h.unwritten
    rw [hp', World.push_trace, countP_push, countP_push]
    omega
  cleared := by
    rw [hp']
    exact hcleared
  stopped hm := by
    rw [hp']
    rcases List.mem_append.mp hm with hm | hm
    · exact (hstopped (h.stopped hm)).1
    · exact hseen (List.mem_singleton.mp hm)
  lines := by
    constructor
    case appended =>
      have hu := h.unwritten
      rw [World.push_trace, countP_push, countP_push]
      omega
    case begun =>
      have hb := h.lines.begun
      rw [World.push_trace, countP_push, countP_push]
      cases hx : isBegun (t, e) with
      | false =>
        rw [Bool.toNat_false]
        omega
      | true =>
        -- the wait before this line was paid for
        have hchecked := hbegun hx
        have hd := h.due
        have henough := (h.cleared hchecked).enough
        rw [hchecked] at hd
        simp only [Stage.due] at hd
        rw [Bool.toNat_true]
        omega
    case released =>
      refine always_push.mpr ⟨h.lines.released, fun hx => ?_⟩
      have hchecked := hbegun hx
      have hd := h.due
      rw [hchecked] at hd
      exact ⟨h.cleared hchecked, hd⟩
    case ends =>
      exact always_push.mpr ⟨h.lines.ends, fun hm h0 => (hstopped (h.stopped hm)).2 h0⟩

/-- The calls that change the semaphore or the flag. -/
def Sys.signals : Sys β → Bool
  | .semWait | .semPost | .setIsTerminated => true
  | _ => false

/-- All others leave both alone. -/
theorem timestampCall_quiet {t : Nat} {e : Sys β} {a : Answers β} {r : e.Ret} {s s' : Timing}
    (he : e.signals = false) (hact : timestampCall t e s a = some (r, s')) :
    s'.semaphore = s.semaphore ∧ s'.isTerminated = s.isTerminated := by
  cases e with
  | semWait | semPost | setIsTerminated => cases he
  | mutexLock | mutexUnlock =>
    obtain ⟨-, heq⟩ := Option.ite_none_right_eq_some.mp hact
    cases heq
    exact ⟨rfl, rfl⟩
  | recv _ _ | send _ _ _ =>
    obtain ⟨-, heq⟩ := Option.ite_none_left_eq_some.mp hact
    cases heq
    exact ⟨rfl, rfl⟩
  | _ =>
    cases hact
    exact ⟨rfl, rfl⟩

/-- A call of the logger that changes nothing of this. -/
theorem Accounts.quiet (h : Accounts cause w) {e : SysEvent β} {s : Timing}
    (hs : s.semaphore = w.state.semaphore ∧ s.isTerminated = w.state.isTerminated)
    (hp : Stage.of (w.own 0) ≠ .stopped ∨ e.1 = .pthreadExit)
    (hnext : ∀ p : Stage, p.next e = p) (hpost : isPost (0, e) = false)
    (hwait : isWait (0, e) = false) (hbegun : isBegun (0, e) = false)
    (happended : isAppended (0, e) = false) : Accounts cause (w.push 0 s e) := by
  have hown : Stage.of ((w.push 0 s e).own 0) = Stage.of (w.own 0) := by
    rw [World.own_push_self, Stage.of_push, hnext]
  refine h.push hown ?_ ?_ ?_ ?_ ?_ ?_ ?_ ?_
  · rw [hwait, hpost, hs.1]
  · intro hflag
    exact ⟨hs.2 ▸ hflag, fun hc => absurd hc (by rw [hpost]; decide)⟩
  · rw [hwait, hbegun]
  · rw [hbegun, happended]
  · intro hc
    rw [hbegun] at hc
    cases hc
  · intro hc
    exact (h.cleared hc).push hwait
  · intro hc
    exact ⟨hc, fun _ => hp.resolve_left fun hne => hne hc⟩
  · intro hc
    cases hc
    cases hnext .start

/-- The logger waits, looks at the flag, and writes. -/
theorem Accounts.logger (h : Accounts cause w) {e : Sys β} {a : Answers β} {r : e.Ret}
    {s : Timing} (hmay : loggerView.may (Stage.of (w.own 0)) e)
    (hact : timestampCall 0 e w.state a = some (r, s)) : Accounts cause (w.push 0 s ⟨e, r⟩) := by
  have hown : Stage.of ((w.push 0 s ⟨e, r⟩).own 0) = (Stage.of (w.own 0)).next ⟨e, r⟩ := by
    rw [World.own_push_self, Stage.of_push]
  cases e with
  | semWait =>
    obtain ⟨hpos, heq⟩ : 0 < w.state.semaphore ∧ _ := Option.ite_none_right_eq_some.mp hact
    cases heq
    refine h.push hown ?_ ?_ ?_ ?_ ?_ ?_ ?_ ?_
    · show w.state.semaphore - 1 + 1 ≤ w.state.semaphore + 0
      omega
    · exact fun hs => ⟨hs, nofun⟩
    · show 0 + 1 ≤ 1 + _
      omega
    · exact Nat.zero_le _
    · exact nofun
    · exact nofun
    · intro hc
      rcases hmay with hp | hp <;> rw [hp] at hc <;> cases hc
    · exact nofun
  | isTerminated =>
    cases hact
    cases hflag : w.state.isTerminated with
    | true =>
      rw [hflag] at hown
      refine h.push hown (Nat.le_refl _) (fun hs => ?_) (Nat.zero_le _) (Nat.zero_le _) nofun nofun
        ?_ fun _ => rfl
      · rw [hflag] at hs
        cases hs
      · intro hc
        rcases hmay with hp | hp <;> rw [hp] at hc <;> cases hc
    | false =>
      rw [hflag] at hown
      refine h.push hown (Nat.le_refl _) (fun hs => ⟨hs, nofun⟩) ?_ (Nat.zero_le _) nofun
        (fun _ => ?_) ?_ nofun
      · rcases hmay with hp | hp
        · rw [hp]
          exact Nat.le_refl _
        · rw [hp]
          exact Nat.le_refl _
      · have hv := h.value
        exact Cleared.check (h.clear hflag) (by omega)
      · intro hc
        rcases hmay with hp | hp <;> rw [hp] at hc <;> cases hc
  | openFile file flags =>
    cases hact
    have hp : Stage.of (w.own 0) = .checked := hmay
    refine h.push hown (Nat.le_refl _) (fun hs => ⟨hs, nofun⟩) ?_ ?_ (fun _ => hp) nofun ?_ nofun
    · rw [hp]
      exact Nat.le_refl _
    · rw [hp]
      exact Nat.le_refl _
    · rw [hp]
      exact nofun
  | write fd buffer =>
    cases hact
    have hp : Stage.of (w.own 0) = .opened := hmay
    refine h.push hown (Nat.le_refl _) (fun hs => ⟨hs, nofun⟩) (Nat.zero_le _) ?_ nofun nofun ?_
      nofun
    · rw [hp]
      cases a (.write fd buffer) with
      | none => exact Nat.zero_le _
      | some n => exact Nat.le_refl _
    · rw [hp]
      exact nofun
  | clockGettime | localtimeR | strftime _ | mutexLock | close _ | mutexUnlock =>
    refine h.quiet (timestampCall_quiet rfl hact) (Or.inl fun hc => ?_) (fun _ => rfl) rfl rfl rfl
      rfl
    rw [hc] at hmay
    cases hmay
  | pthreadExit =>
    exact h.quiet (timestampCall_quiet rfl hact) (Or.inr rfl) (fun _ => rfl) rfl rfl rfl rfl
  | _ => exact hmay.elim

/-- When another thread makes a call: a termination signal posts after it has set the flag, and
workers do not touch either. -/
def mayHandle (cause : Cause) (s : Timing) : Sys β → Prop
  | .semPost => cause = .sigusr1 ∨ cause = .sigint ∧ s.isTerminated = true
  | .setIsTerminated => True
  | e => e.works

theorem timestampCall_post {t : Nat} {a : Answers β} {r : Unit} {s s' : Timing}
    (hact : timestampCall t .semPost s a = some (r, s')) :
    s'.semaphore ≤ s.semaphore + 1 ∧ s'.isTerminated = s.isTerminated := by
  simp only [timestampCall] at hact
  split at hact
  · cases hact
    exact ⟨Nat.le_refl _, rfl⟩
  · cases hact
    exact ⟨Nat.le_succ _, rfl⟩

theorem Accounts.handler (h : Accounts cause w) {t : Nat} (ht : t ≠ 0) {e : Sys β}
    {a : Answers β} {r : e.Ret} {s : Timing} (hmay : mayHandle (cause t) w.state e)
    (hact : timestampCall t e w.state a = some (r, s)) : Accounts cause (w.push t s ⟨e, r⟩) := by
  have hown : Stage.of ((w.push t s ⟨e, r⟩).own 0) = Stage.of (w.own 0) := by
    rw [World.own_push_ne w s _ (Ne.symm ht)]
  obtain ⟨n, rfl⟩ := Nat.exists_eq_succ_of_ne_zero ht
  cases e with
  | semPost =>
    obtain ⟨hvalue, hflag⟩ := timestampCall_post hact
    refine h.push hown hvalue (fun hs => ?_) (Nat.le_refl _) (Nat.le_refl _) nofun
      (fun hc => (h.cleared hc).push rfl) (fun hc => ⟨hc, fun h0 => absurd h0 ht⟩) nofun
    rw [hflag] at hs
    refine ⟨hs, fun _ => hmay.resolve_right fun hc => ?_⟩
    rw [hc.2] at hs
    cases hs
  | setIsTerminated =>
    cases hact
    exact h.push hown (Nat.le_refl _) nofun (Nat.le_refl _) (Nat.le_refl _) nofun
      (fun hc => (h.cleared hc).push rfl) (fun hc => ⟨hc, fun h0 => absurd h0 ht⟩) nofun
  | setThreadStatus _ _ | mutexLock | mutexUnlock | pthreadExit | openFile _ _ | write _ _
  | read _ _ | close _ | recv _ _ | send _ _ _ =>
    obtain ⟨hvalue, hflag⟩ := timestampCall_quiet rfl hact
    exact h.push hown (Nat.le_of_eq hvalue) (fun hs => ⟨hflag ▸ hs, nofun⟩) (Nat.le_refl _)
      (Nat.le_refl _) nofun (fun hc => (h.cleared hc).push rfl)
      (fun hc => ⟨hc, fun h0 => absurd h0 ht⟩) nofun
  | _ => exact hmay.elim

end Step

/-! ## All runs -/

theorem timestampCall_flag {t : Nat} {e : Sys β} {a : Answers β} {r : e.Ret} {s s' : Timing}
    (hact : timestampCall t e s a = some (r, s')) (hs : s.isTerminated = true) :
    s'.isTerminated = true := by
  cases he : e.signals with
  | false => rw [(timestampCall_quiet he hact).2, hs]
  | true =>
    cases e with
    | semWait =>
      obtain ⟨-, heq⟩ : 0 < s.semaphore ∧ _ := Option.ite_none_right_eq_some.mp hact
      cases heq
      exact hs
    | semPost => rw [(timestampCall_post hact).2, hs]
    | setIsTerminated =>
      cases hact
      rfl
    | _ => cases he

/-- Nobody takes the flag back. -/
def timestampContract (cause : Nat → Cause) : Contract (@timestampSystem β) where
  inv := Accounts cause
  rely t w w' := w'.own t = w.own t ∧ (w.state.isTerminated = true → w'.state.isTerminated = true)
  pre w t e :=
    if t = 0 then loggerView.may (Stage.of (w.own 0)) e else mayHandle (cause t) w.state e
  spins _ := True
  rely_refl _ _ := ⟨rfl, id⟩
  rely_trans h₁ h₂ := ⟨h₂.1.trans h₁.1, fun hs => h₂.2 (h₁.2 hs)⟩
  keeps {w t e a r s} hi hp hact := by
    refine ⟨?_, fun t' ht' => ⟨World.own_push_ne w s _ ht', timestampCall_flag hact⟩⟩
    by_cases ht : t = 0
    · subst ht
      exact hi.logger hp hact
    · rw [if_neg ht] at hp
      exact hi.handler ht hp hact

theorem knows_logger (cause : Nat → Cause) : (@timestampContract β cause).Knows 0 loggerView
    (fun w => Stage.of (w.own 0)) where
  stable h := by rw [h.1]
  pre _ h := h
  act {w e a r s} _ _ _ := ⟨trivial, by rw [World.own_push_self, Stage.of_push]; rfl⟩
  spins _ := trivial

theorem handler_wp {cause : Nat → Cause} {t : Nat} (ht : t ≠ 0) (w : TimingWorld β) :
    (timestampContract cause).wp t (cause t).handler (fun _ _ => True) w := by
  have hpre : ∀ {w : TimingWorld β} {e}, mayHandle (cause t) w.state e →
      (timestampContract cause).pre w t e := by
    intro w e hmay
    show if t = 0 then _ else _
    rwa [if_neg ht]
  cases hc : cause t with
  | sigusr1 => exact fun w' _ _ => ⟨hpre (Or.inl hc), fun _ _ _ _ _ _ _ => trivial⟩
  | application => exact fun w' _ _ => ⟨hpre trivial, fun _ _ _ _ _ _ _ => trivial⟩
  | sigint =>
    refine fun w' _ _ => ⟨hpre trivial, fun a r s hact w'' hr _ => ?_⟩
    cases hact
    exact ⟨hpre (Or.inr ⟨hc, hr.2 rfl⟩), fun _ _ _ _ _ _ _ => trivial⟩
  | worker rounds file node clientFd =>
    refine Contract.wp_of_calls (fun {w e} _ he => hpre ?_) trivial
      (dataTransferWorker_calls rounds file node clientFd) w
    cases e <;> first | exact he.elim | exact trivial

theorem timestamps_good (rounds : Nat) (cause : Nat → Cause) :
    (@timestampContract β cause).Good (fun _ _ _ => True) (timestampStart rounds cause) := by
  refine ⟨?_, fun t => ?_⟩
  · constructor
    case lines =>
      exact ⟨Nat.le_refl _, Nat.le_refl _, always_nil, always_nil⟩
    all_goals simp [timestampStart, World.own, Stage.of, Stage.due, Stage.unwritten]
  · by_cases ht : t = 0
    · subst ht
      have hstart : Stage.of ((@timestampStart β rounds cause).world.own 0) = .start := rfl
      exact (knows_logger cause).wp (hstart ▸ logger_wp rounds)
    · have hprog : (timestampStart rounds cause).prog t = ((cause t).handler : ServerProg β Unit) :=
        if_neg ht
      rw [hprog]
      exact handler_wp ht _

/--
**Every timestamp is accounted for.**

In every run, with any number of `SIGUSR1`, `SIGINT` and `SIGTERM` at any time, any number of
workers, `application` setting `is_terminated` when it likes, and `localtime_r`, `strftime` and the
calls of `append_to_file` failing or not: no more lines were appended, or only begun, than
`SIGUSR1` signals were handled. Each line was begun after a look at the flag before which all posts
came from `SIGUSR1`, and none after the logger has seen the flag set.
-/
theorem timestamps_accounted (rounds : Nat) (cause : Nat → Cause)
    (schedule : List (Nat × Answers β)) (c : Config (@Sys.Ret β) Timing Unit)
    (hrun : timestampSystem.run (timestampStart rounds cause) schedule = some c) :
    LinesAccounted cause c.world.trace :=
  ((timestamps_good rounds cause).run hrun).1.lines

/-- Everything works, and the time is `"t"`. -/
def clockAnswers : Answers UInt8 where
  ret
    | .strftime _ => [116]
    | e => goodAnswers 0 none false e
  waits := false

/-- One `SIGUSR1` and its line, then a `SIGINT` that wakes the logger up to end. -/
theorem timestamps_accounted_one_line :
    ∃ c, timestampSystem.run
        (timestampStart 3 fun t => if t = 1 then .sigusr1 else .sigint)
        ((1, clockAnswers) :: List.replicate 10 (0, clockAnswers)
          ++ List.replicate 2 (2, clockAnswers) ++ List.replicate 3 (0, clockAnswers)) = some c ∧
      c.world.trace.countP isAppended = 1 ∧ c.world.trace.countP isPost = 2 ∧
      LinesAccounted (fun t => if t = 1 then .sigusr1 else .sigint) c.world.trace := by
  have hrun : (timestampSystem.run
      (timestampStart 3 fun t => if t = 1 then .sigusr1 else .sigint)
      ((1, clockAnswers) :: List.replicate 10 (0, clockAnswers)
        ++ List.replicate 2 (2, clockAnswers) ++ List.replicate 3 (0, clockAnswers))).map
      (fun c => (c.world.trace.countP isAppended, c.world.trace.countP isPost)) = some (1, 2) := by
    decide +kernel
  obtain ⟨c, hc, heq⟩ := Option.map_eq_some_iff.mp hrun
  obtain ⟨happended, hposts⟩ := Prod.mk.inj heq
  exact ⟨c, hc, happended, hposts, timestamps_accounted 3 _ _ c hc⟩

end Aesd.Server

import Aesd.Infra.Handles
import Aesd.Infra.Threads
import Aesd.Server.Connection

/-!
# How long a connection attempt waits

`timespec_add` carries into the seconds and `timespec_is_elapsed` compares seconds first. On times
whose nanoseconds are less than a second both are exact: the first is the sum and the second the
order of the times in nanoseconds.

The polling loop looks at the flag, then at the clock, and then calls `accept`. What the calls
answer is a sequence here, one `Poll` for each round.
-/

namespace Aesd.Server

open Infra Prog

variable {β : Type}

/-! ## Times in nanoseconds -/

namespace Timespec

/-- The nanoseconds are those of less than a second. -/
def Normalised (t : Timespec) : Prop := 0 ≤ t.tvNsec ∧ t.tvNsec < 1000000000

instance (t : Timespec) : Decidable t.Normalised := inferInstanceAs (Decidable (_ ∧ _))

def nanos (t : Timespec) : Int := t.tvSec * 1000000000 + t.tvNsec

end Timespec

section Times

variable {lhs rhs endTime currentTime : Timespec}

/-- A second is carried or not; the sum is the same. -/
theorem timespecAdd_nanos (lhs rhs : Timespec) :
    (timespecAdd lhs rhs).nanos = lhs.nanos + rhs.nanos := by
  unfold timespecAdd Timespec.nanos
  dsimp only
  split
  · dsimp only
    omega
  · dsimp only
    omega

/-- One carry is enough. -/
theorem timespecAdd_normalised (hl : lhs.Normalised) (hr : rhs.Normalised) :
    (timespecAdd lhs rhs).Normalised := by
  unfold Timespec.Normalised at hl hr
  unfold timespecAdd Timespec.Normalised
  dsimp only
  split
  · dsimp only
    omega
  · dsimp only
    omega

theorem timespecIsElapsed_iff (hend : endTime.Normalised) (hcurrent : currentTime.Normalised) :
    timespecIsElapsed endTime currentTime = true ↔ endTime.nanos < currentTime.nanos := by
  unfold Timespec.Normalised at hend hcurrent
  unfold timespecIsElapsed Timespec.nanos
  split
  · refine iff_of_false Bool.false_ne_true ?_
    omega
  · split
    · refine iff_of_true rfl ?_
      omega
    · -- the same second
      split
      · refine iff_of_false Bool.false_ne_true ?_
        omega
      · refine iff_of_true rfl ?_
        omega

/-- The deadline of a connection attempt. -/
theorem deadline_elapsed_iff (hl : lhs.Normalised) (hr : rhs.Normalised)
    (hcurrent : currentTime.Normalised) :
    timespecIsElapsed (timespecAdd lhs rhs) currentTime = true ↔
      lhs.nanos + rhs.nanos < currentTime.nanos := by
  rw [timespecIsElapsed_iff (timespecAdd_normalised hl hr) hcurrent, timespecAdd_nanos]

end Times

/-! ## The rounds -/

/-- What the calls of one round answer, as far as the round makes them. -/
structure Poll where
  isTerminated : Bool
  currentTime : Timespec
  accepted : Except Int Nat
  /-- what was left in `errno`, if `accept` succeeds -/
  errnoLeft : Int
  slept : Int

namespace Poll

/-- `errno` after `accept` -/
def errno (p : Poll) : Int :=
  match p.accepted with
  | .error e => e
  | .ok _ => p.errnoLeft

/-- Nothing stops the server, and nobody is there. -/
def FindsNobody (p : Poll) : Prop :=
  p.isTerminated = false ∧ ∃ e, p.accepted = .error e ∧ (e = eagain ∨ e = ewouldblock)

end Poll

/-- The calls, before the start time is taken (`none`) and in round `n`. A round ends with its
sleep. -/
def pollCall (startTime : Timespec) (polls : Nat → Poll) :
    (e : Sys β) → Option Nat → Option (e.Ret × Option Nat)
  | .clockGettime, none => some (startTime, some 0)
  | .isTerminated, some n => some ((polls n).isTerminated, some n)
  | .clockGettime, some n => some ((polls n).currentTime, some n)
  | .accept, some n => some ((polls n).accepted, some n)
  | .errno, some n => some ((polls n).errno, some n)
  | .nanosleep _, some n => some ((polls n).slept, some (n + 1))
  | _, _ => none

/-- What a program returns, and the round in which it does; `none` if it does not return. -/
def connects (startTime : Timespec) (polls : Nat → Poll) (p : ServerProg β (Int × Int))
    (round : Option Nat) : Option ((Int × Int) × Option Nat) :=
  (p.exec (pollCall startTime polls) round).map fun x => (x.1, x.2.2)

/-- Round `k` is the one that times out: it is reached, and the time is later than `deadline`. -/
def TimesOutIn (deadline : Int) (polls : Nat → Poll) (k : Nat) : Prop :=
  (∀ j < k, (polls j).FindsNobody) ∧ (polls k).isTerminated = false ∧
    deadline < (polls k).currentTime.nanos

section Rounds

variable {startTime : Timespec} {polls : Nat → Poll}

theorem connects_call {e : Sys β} {k : e.Ret → ServerProg β (Int × Int)} {r : e.Ret}
    {s s' : Option Nat} (h : pollCall startTime polls e s = some (r, s')) :
    connects startTime polls (.call e k) s = connects startTime polls (k r) s' :=
  exec_call_map Prod.mk h

/-- **One round.** -/
theorem connects_succ (rounds : Nat) (endTime : Timespec) (clientFdPtr : Int) (n : Nat) :
    connects startTime polls (iter (connectRound endTime clientFdPtr) (rounds + 1) (-1) :
        ServerProg β (Int × Int)) (some n)
      = if (polls n).isTerminated then some ((1, clientFdPtr), some n)
        else if timespecIsElapsed endTime (polls n).currentTime then
          some ((2, clientFdPtr), some n)
        else if (polls n).errno = eagain then
          connects startTime polls (iter (connectRound endTime clientFdPtr) rounds
            (acceptResult (polls n).accepted) : ServerProg β (Int × Int)) (some (n + 1))
        else some ((-1, clientFdPtr), some n) := by
  rw [connectLoop_succ, connects_call rfl]
  split
  · rfl
  · rw [connects_call rfl]
    split
    · rfl
    · rw [connects_call rfl, connects_call rfl]
      split
      · rw [connects_call rfl]
      · rfl

/-- After a successful `accept` there is no further round. -/
theorem connects_done (rounds : Nat) (endTime : Timespec) (clientFdPtr : Int) (fd : Nat)
    (s : Option Nat) :
    connects startTime polls (iter (connectRound endTime clientFdPtr) (rounds + 1) (fd : Int) :
      ServerProg β (Int × Int)) s = some ((0, (fd : Int)), s) := by
  rw [connectLoop_done]
  rfl

variable {endTime : Timespec} {clientFdPtr deadline : Int}

/-- A round behind the deadline is the last one. -/
theorem connects_late (rounds n : Nat)
    (htime : timespecIsElapsed endTime (polls n).currentTime = true) :
    connects startTime polls (iter (connectRound endTime clientFdPtr) (rounds + 1) (-1) :
        ServerProg β (Int × Int)) (some n)
      = some ((if (polls n).isTerminated then 1 else 2, clientFdPtr), some n) := by
  rw [connects_succ, htime, if_pos rfl]
  split
  · rfl
  · rfl

/-- A round after which the loop goes on. -/
theorem connects_nobody (rounds n : Nat) (hpoll : (polls n).FindsNobody)
    (htime : timespecIsElapsed endTime (polls n).currentTime = false) :
    connects startTime polls (iter (connectRound endTime clientFdPtr) (rounds + 1) (-1) :
        ServerProg β (Int × Int)) (some n)
      = connects startTime polls (iter (connectRound endTime clientFdPtr) rounds (-1) :
        ServerProg β (Int × Int)) (some (n + 1)) := by
  obtain ⟨hflag, e, haccept, he⟩ := hpoll
  have herrno : (polls n).errno = eagain := by
    rw [Poll.errno, haccept]
    exact he.elim id id
  rw [connects_succ, hflag, htime, if_neg Bool.false_ne_true, if_neg Bool.false_ne_true,
    if_pos herrno, haccept]
  rfl

/-- A round in time that finds a client, a failure, or the flag set. The round after it is the
last one at most. -/
theorem connects_somebody (rounds n : Nat) (hpoll : ¬(polls n).FindsNobody)
    (htime : timespecIsElapsed endTime (polls n).currentTime = false) :
    (∃ r, r.1 ≠ 2 ∧ connects startTime polls (iter (connectRound endTime clientFdPtr) (rounds + 1)
        (-1) : ServerProg β (Int × Int)) (some n) = some (r, some n)) ∨
    ∃ fd : Nat, connects startTime polls (iter (connectRound endTime clientFdPtr) (rounds + 1)
        (-1) : ServerProg β (Int × Int)) (some n)
      = connects startTime polls (iter (connectRound endTime clientFdPtr) rounds (fd : Int) :
        ServerProg β (Int × Int)) (some (n + 1)) := by
  rw [connects_succ, htime, if_neg Bool.false_ne_true]
  cases hflag : (polls n).isTerminated with
  | true => exact Or.inl ⟨(1, clientFdPtr), show (1 : Int) ≠ 2 by decide, if_pos rfl⟩
  | false =>
    rw [if_neg Bool.false_ne_true]
    by_cases herrno : (polls n).errno = eagain
    · rw [if_pos herrno]
      cases haccept : (polls n).accepted with
      | error e =>
        refine absurd ⟨hflag, e, haccept, Or.inl ?_⟩ hpoll
        rw [Poll.errno, haccept] at herrno
        exact herrno
      | ok fd => exact Or.inr ⟨fd, rfl⟩
    · rw [if_neg herrno]
      exact Or.inl ⟨(-1, clientFdPtr), show (-1 : Int) ≠ 2 by decide, rfl⟩

/-- **When the loop returns 2**, from round `n` on. By induction on the rounds that are left. -/
theorem connects_two_iff
    (hlate : ∀ n, timespecIsElapsed endTime (polls n).currentTime = true ↔
      deadline < (polls n).currentTime.nanos) :
    ∀ rounds n : Nat,
      (∃ fd s, connects startTime polls (iter (connectRound endTime clientFdPtr) rounds (-1) :
        ServerProg β (Int × Int)) (some n) = some ((2, fd), s)) ↔
      ∃ k, n ≤ k ∧ k < n + rounds ∧ (∀ j, n ≤ j → j < k → (polls j).FindsNobody) ∧
        (polls k).isTerminated = false ∧ deadline < (polls k).currentTime.nanos
  | 0, n => by
    refine iff_of_false ?_ ?_
    · rintro ⟨fd, s, hc⟩
      cases hc
    · rintro ⟨k, hle, hlt, -⟩
      omega
  | rounds + 1, n => by
    cases htime : timespecIsElapsed endTime (polls n).currentTime with
    | true =>
      rw [connects_late rounds n htime]
      cases hflag : (polls n).isTerminated with
      | true =>
        refine iff_of_false ?_ ?_
        · rintro ⟨fd, s, hc⟩
          cases hc
        · rintro ⟨k, hle, -, hbefore, hk, -⟩
          rcases Nat.eq_or_lt_of_le hle with rfl | hlt
          · rw [hflag] at hk
            cases hk
          · rw [(hbefore n (Nat.le_refl n) hlt).1] at hflag
            cases hflag
      | false =>
        refine iff_of_true ⟨clientFdPtr, some n, rfl⟩ ⟨n, Nat.le_refl n, by omega, ?_, hflag, ?_⟩
        · intro j hle hlt
          omega
        · exact (hlate n).mp htime
    | false =>
      -- this round does not time out: one behind it does, or none
      have hne : ∀ k, deadline < (polls k).currentTime.nanos → n ≠ k := by
        rintro k hk rfl
        rw [(hlate n).mpr hk] at htime
        cases htime
      by_cases hpoll : (polls n).FindsNobody
      · rw [connects_nobody rounds n hpoll htime, connects_two_iff hlate rounds (n + 1)]
        constructor
        · rintro ⟨k, hle, hlt, hbefore, hk⟩
          refine ⟨k, by omega, by omega, fun j hj hjk => ?_, hk⟩
          rcases Nat.eq_or_lt_of_le hj with rfl | hj
          · exact hpoll
          · exact hbefore j hj hjk
        · rintro ⟨k, hle, hlt, hbefore, hk⟩
          have := hne k hk.2
          exact ⟨k, by omega, by omega, fun j hj => hbefore j (by omega), hk⟩
      · refine iff_of_false ?_ ?_
        · rintro ⟨fd, s, hc⟩
          rcases connects_somebody rounds n hpoll htime with ⟨r, hr, heq⟩ | ⟨fd', heq⟩
          · rw [heq] at hc
            cases hc
            exact hr rfl
          · rw [heq] at hc
            cases rounds with
            | zero => cases hc
            | succ rounds =>
              rw [connects_done] at hc
              cases hc
        · rintro ⟨k, hle, -, hbefore, -, hk⟩
          have := hne k hk
          exact hpoll (hbefore n (Nat.le_refl n) (by omega))

/-- **The loop ends** in round `k` at the latest, if the time is past the deadline there. -/
theorem connects_ends {k : Nat} (hk : timespecIsElapsed endTime (polls k).currentTime = true) :
    ∀ rounds n : Nat, n ≤ k → k < n + rounds →
      ∃ r m, connects startTime polls (iter (connectRound endTime clientFdPtr) rounds (-1) :
        ServerProg β (Int × Int)) (some n) = some (r, some m) ∧ m ≤ k
  | 0, n, hle, hlt => by omega
  | rounds + 1, n, hle, hlt => by
    cases htime : timespecIsElapsed endTime (polls n).currentTime with
    | true =>
      rw [connects_late rounds n htime]
      exact ⟨_, n, rfl, hle⟩
    | false =>
      have hne : n ≠ k := by
        rintro rfl
        rw [hk] at htime
        cases htime
      by_cases hpoll : (polls n).FindsNobody
      · rw [connects_nobody rounds n hpoll htime]
        exact connects_ends hk rounds (n + 1) (by omega) (by omega)
      · rcases connects_somebody rounds n hpoll htime with ⟨r, -, heq⟩ | ⟨fd, heq⟩
        · exact ⟨r, n, heq, hle⟩
        · -- the descriptor is seen when the condition of the loop is tested again
          cases rounds with
          | zero => omega
          | succ rounds =>
            rw [heq, connects_done]
            exact ⟨_, n + 1, rfl, by omega⟩

end Rounds

/-! ## The calls of `accept` -/

/-- Each `accept` comes right after a look at the clock, which shows at most `deadline`. -/
def AcceptsInTime (deadline : Int) (es : List (SysEvent β)) : Prop :=
  Always (fun pre x => ∀ accepted, x = ⟨.accept, accepted⟩ →
    ∃ pre' now, pre = pre' ++ [⟨.clockGettime, now⟩] ∧ now.nanos ≤ deadline) es

/-- The time that the last call showed, if it was a look at the clock. -/
def justSampled : Option Timespec → SysEvent β → Option Timespec
  | _, ⟨.clockGettime, now⟩ => some now
  | _, _ => none

theorem justSampled_eq_some {sample : Option Timespec} {x : SysEvent β} {now : Timespec}
    (h : justSampled sample x = some now) : x = ⟨.clockGettime, now⟩ := by
  obtain ⟨e, r⟩ := x
  cases e <;> cases h
  rfl

theorem foldl_justSampled {es : List (SysEvent β)} {now : Timespec}
    (h : es.foldl justSampled none = some now) : ∃ es', es = es' ++ [⟨.clockGettime, now⟩] := by
  rcases List.eq_nil_or_concat es with rfl | ⟨es', x, rfl⟩
  · cases h
  · rw [List.concat_eq_append, List.foldl_append] at h
    exact ⟨es', by rw [List.concat_eq_append, justSampled_eq_some h]⟩

/-- What the loop goes by: it accepts after a look at the clock that is in time. -/
def sampleView (deadline : Int) : View (@Sys.Ret β) (Option Timespec) where
  may sample e := e = .accept → ∃ now, sample = some now ∧ now.nanos ≤ deadline
  answers _ e r :=
    match e, r with
    | .clockGettime, now => now.Normalised
    | _, _ => True
  next := justSampled
  spins := True

section Accepts

variable {startTime timeout : Timespec} {polls : Nat → Poll}

/-- **The polling loop accepts in time.** -/
theorem connectLoop_inTime (hstart : startTime.Normalised) (htimeout : timeout.Normalised)
    (clientFdPtr : Int) : ∀ (rounds : Nat) (sample : Option Timespec),
    (sampleView (startTime.nanos + timeout.nanos)).wp
      (iter (connectRound (timespecAdd startTime timeout) clientFdPtr) rounds (-1) :
        ServerProg β (Int × Int)) (fun _ _ => True) sample
  | 0, _ => trivial
  | rounds + 1, sample => by
    rw [connectLoop_succ]
    refine ⟨nofun, fun terminated _ => ?_⟩
    dsimp only
    split
    · trivial
    · refine ⟨nofun, fun now hnow => ?_⟩
      have hlate := deadline_elapsed_iff hstart htimeout (show now.Normalised from hnow)
      dsimp only
      split
      · trivial
      · next hin =>
        refine ⟨fun _ => ⟨now, rfl, Int.not_lt.mp fun hc => hin (hlate.mpr hc)⟩, fun accepted _ =>
          ⟨nofun, fun errno _ => ?_⟩⟩
        dsimp only
        split
        · refine ⟨nofun, fun _ _ => ?_⟩
          cases accepted with
          | error e => exact connectLoop_inTime hstart htimeout clientFdPtr rounds _
          | ok fd =>
            cases rounds with
            | zero => trivial
            | succ rounds =>
              rw [show acceptResult (.ok fd) = (fd : Int) from rfl, connectLoop_done]
              trivial
        · trivial

/-- The clock shows the times of the rounds. -/
theorem follows_normalised (hpolls : ∀ n, (polls n).currentTime.Normalised) {now : Timespec} :
    ∀ (es : List (SysEvent β)) (n : Nat), Follows (pollCall startTime polls) (some n) es →
      ⟨.clockGettime, now⟩ ∈ es → now.Normalised
  | [], _, _, hm => by cases hm
  | ⟨e, r⟩ :: es, n, ⟨s', hcall, hrest⟩, hm => by
    obtain ⟨m, rfl⟩ : ∃ m, s' = some m := by
      cases e <;> cases hcall <;> exact ⟨_, rfl⟩
    rcases List.mem_cons.mp hm with heq | hm
    · cases heq
      cases hcall
      exact hpolls _
    · exact follows_normalised hpolls es m hrest hm

/-- Every call of `accept` is made in time, whether the function returns or not. -/
theorem createConnection_inTime (hstart : startTime.Normalised) (htimeout : timeout.Normalised)
    (hpolls : ∀ n, (polls n).currentTime.Normalised) {rounds : Nat} {clientFdPtr : Int}
    {es : List (SysEvent β)} {q : ServerProg β (Int × Int)}
    (hrun : (socketClientCreateConnection rounds clientFdPtr timeout :
      ServerProg β (Int × Int)).Leads es q)
    (hes : Follows (pollCall startTime polls) none es) :
    AcceptsInTime (startTime.nanos + timeout.nanos) es := by
  rw [createConnection_eq] at hrun
  cases es with
  | nil => exact always_nil
  | cons x es =>
    obtain ⟨r, rfl, hloop⟩ := leads_call_cons.mp hrun
    obtain ⟨s, hcall, hrest⟩ := hes
    cases hcall
    have hmay := (View.wp_leads (connectLoop_inTime hstart htimeout clientFdPtr rounds none) hloop
      (by
        rintro pre ⟨e, r⟩ post rfl
        cases e <;> try trivial
        exact follows_normalised hpolls _ 0 hrest (by simp))).2
    refine always_cons.mpr ⟨nofun, ?_⟩
    rintro pre x post he accepted rfl
    obtain ⟨now, hnow, hle⟩ := hmay pre _ post he rfl
    obtain ⟨pre', rfl⟩ := foldl_justSampled hnow
    exact ⟨_ :: pre', now, rfl, hle⟩

end Accepts

/--
**The timeout is exact.**

For all normalised times, whatever the flag, `accept`, `errno` and the sleeps answer in each
round: the function returns 2 if and only if some round is reached with the flag clear, all
rounds before having found nobody, and its time is later than the start plus the timeout; every
`accept` is made in a round whose time is not; and a round whose time is later is the last one at
the latest. The times of the rounds may be any; that they do not decrease is not used.
-/
theorem connection_timeout_exact (startTime timeout : Timespec) (polls : Nat → Poll)
    (clientFdPtr : Int) (hstart : startTime.Normalised) (htimeout : timeout.Normalised)
    (hpolls : ∀ n, (polls n).currentTime.Normalised) :
    (∀ rounds, (∃ fd n, connects startTime polls (socketClientCreateConnection rounds clientFdPtr
        timeout : ServerProg β (Int × Int)) none = some ((2, fd), n)) ↔
      ∃ k < rounds, TimesOutIn (startTime.nanos + timeout.nanos) polls k) ∧
    (∀ rounds (es : List (SysEvent β)) q,
      (socketClientCreateConnection rounds clientFdPtr timeout).Leads es q →
      Follows (pollCall startTime polls) none es →
      AcceptsInTime (startTime.nanos + timeout.nanos) es) ∧
    ∀ k, startTime.nanos + timeout.nanos < (polls k).currentTime.nanos → ∀ rounds, k < rounds →
      ∃ r n, connects startTime polls (socketClientCreateConnection rounds clientFdPtr timeout :
        ServerProg β (Int × Int)) none = some (r, some n) ∧ n ≤ k := by
  have hlate := fun n => deadline_elapsed_iff hstart htimeout (hpolls n)
  refine ⟨fun rounds => ?_, fun rounds es q => createConnection_inTime hstart htimeout hpolls,
    fun k hk rounds hlt => ?_⟩
  · rw [createConnection_eq, connects_call rfl, connects_two_iff hlate rounds 0]
    constructor
    · rintro ⟨k, -, hlt, hbefore, hk⟩
      exact ⟨k, by omega, fun j => hbefore j (Nat.zero_le j), hk⟩
    · rintro ⟨k, hlt, hbefore, hk⟩
      exact ⟨k, Nat.zero_le k, by omega, fun j _ => hbefore j, hk⟩
  · rw [createConnection_eq, connects_call rfl]
    exact connects_ends ((hlate k).mpr hk) rounds 0 (Nat.zero_le k) (by omega)

/-- Nobody is there: the clock first shows 7 seconds, then a nanosecond more. -/
def aroundSevenSeconds (n : Nat) : Poll where
  isTerminated := false
  currentTime := ⟨7, min n 1⟩
  accepted := .error eagain
  errnoLeft := 0
  slept := 0

/-- The nanoseconds add up to exactly one second. At the deadline the loop still waits. -/
theorem connection_timeout_exact_carry :
    (∃ fd n, connects ⟨5, 999999999⟩ aroundSevenSeconds (socketClientCreateConnection 2 0 ⟨1, 1⟩ :
        ServerProg UInt8 (Int × Int)) none = some ((2, fd), n)) ∧
      ¬∃ fd n, connects ⟨5, 999999999⟩ aroundSevenSeconds (socketClientCreateConnection 1 0
        ⟨1, 1⟩ : ServerProg UInt8 (Int × Int)) none = some ((2, fd), n) := by
  have hpolls : ∀ n, (aroundSevenSeconds n).currentTime.Normalised := by
    intro n
    unfold Timespec.Normalised aroundSevenSeconds
    dsimp only
    omega
  have hstart : Timespec.Normalised ⟨5, 999999999⟩ := by decide
  have htimeout : Timespec.Normalised ⟨1, 1⟩ := by decide
  refine ⟨((connection_timeout_exact _ _ _ 0 hstart htimeout hpolls).1 2).mpr ?_, fun hc => ?_⟩
  · exact ⟨1, by decide, fun j _ => ⟨rfl, eagain, rfl, Or.inl rfl⟩, rfl, by decide⟩
  · obtain ⟨k, hk, -, -, hlate⟩ :=
      ((connection_timeout_exact _ _ _ 0 hstart htimeout hpolls).1 1).mp hc
    obtain rfl : k = 0 := by omega
    exact absurd hlate (by decide)

end Aesd.Server

import Aesd.Server.Calls

/-!
# Waiting for a client

`timespec_add` and `timespec_is_elapsed` of `utilities.c`, and `socket_client_create_connection`
of `socket_client.c`.

The polling loop looks at `errno` after every `accept`, whether it failed or not. A successful call
leaves `errno` alone, so the answer depends on what an earlier call left there: `EAGAIN` from the
round before, or `EINTR` from a sleep that a signal cut short.
-/

namespace Aesd.Server

open Infra Prog

variable {β : Type}

/-! ## Times -/

/-- Seconds are assumed to fit `time_t`. -/
def timespecAdd (lhs rhs : Timespec) : Timespec :=
  let result : Timespec := ⟨lhs.tvSec + rhs.tvSec, lhs.tvNsec + rhs.tvNsec⟩
  -- If nanoseconds exceed 1 second (1,000,000,000), adjust
  if result.tvNsec ≥ 1000000000 then ⟨result.tvSec + 1, result.tvNsec - 1000000000⟩ else result

def timespecIsElapsed (endTime currentTime : Timespec) : Bool :=
  if currentTime.tvSec < endTime.tvSec then false
  else if currentTime.tvSec > endTime.tvSec then true
  else if currentTime.tvNsec ≤ endTime.tvNsec then false
  else true

/-! ## `socket_client_create_connection` -/

/-- `EAGAIN`, which is also `EWOULDBLOCK` -/
def eagain : Int := 11

def ewouldblock : Int := eagain

/-- `EINTR` -/
def eintr : Int := 4

/-- `accept_delay` -/
def acceptDelay : Timespec := ⟨0, 10000000⟩

/-- What `accept` returns. -/
def acceptResult : Except Int Nat → Int
  | .ok fd => fd
  | .error _ => -1

/-- One round of the polling loop, from `client_fd`. The result of the function goes with the value
that `*client_fd_ptr` has then. -/
def connectRound (endTime : Timespec) (clientFdPtr clientFd : Int) :
    ServerProg β (Int ⊕ (Int × Int)) := do
  if ¬clientFd < 0 then
    return .inr (0, clientFd)
  if ← sys .isTerminated then
    return .inr (1, clientFdPtr)
  let currentTime ← sys .clockGettime
  if timespecIsElapsed endTime currentTime then
    return .inr (2, clientFdPtr)
  let clientFd := acceptResult (← sys .accept)
  let errno ← sys .errno
  if errno = eagain ∨ errno = ewouldblock then
    let _ ← sys (.nanosleep acceptDelay)
    return .inl clientFd
  return .inr (-1, clientFdPtr)

def socketClientCreateConnection (rounds : Nat) (clientFdPtr : Int) (timeout : Timespec) :
    ServerProg β (Int × Int) := do
  let startTime ← sys .clockGettime
  let endTime := timespecAdd startTime timeout
  iter (connectRound endTime clientFdPtr) rounds (-1)

/-! ## One round unfolded -/

theorem createConnection_eq (rounds : Nat) (clientFdPtr : Int) (timeout : Timespec) :
    (socketClientCreateConnection rounds clientFdPtr timeout : ServerProg β (Int × Int))
      = .call .clockGettime fun startTime =>
        iter (connectRound (timespecAdd startTime timeout) clientFdPtr) rounds (-1) := rfl

/-- The loop ends once `client_fd` is a descriptor. -/
theorem connectLoop_done (rounds : Nat) (endTime : Timespec) (clientFdPtr : Int) (fd : Nat) :
    (iter (connectRound endTime clientFdPtr) (rounds + 1) (fd : Int) : ServerProg β (Int × Int))
      = .ret (0, fd) := by
  rw [iter_succ]
  unfold connectRound
  rw [if_pos (by omega)]
  rfl

theorem connectLoop_succ (rounds : Nat) (endTime : Timespec) (clientFdPtr : Int) :
    (iter (connectRound endTime clientFdPtr) (rounds + 1) (-1) : ServerProg β (Int × Int))
      = .call .isTerminated fun terminated =>
        if terminated then .ret (1, clientFdPtr)
        else .call .clockGettime fun currentTime =>
          if timespecIsElapsed endTime currentTime then .ret (2, clientFdPtr)
          else .call .accept fun accepted => .call .errno fun errno =>
            if errno = eagain then .call (.nanosleep acceptDelay) fun _ =>
              iter (connectRound endTime clientFdPtr) rounds (acceptResult accepted)
            else .ret (-1, clientFdPtr) := by
  rw [iter_succ]
  unfold connectRound
  simp only [bind_eq, perform_bind, pure_eq, Int.reduceNeg, Int.reduceLT, not_true_eq_false,
    if_false, call_bind, ewouldblock, or_self]
  congr 1
  funext terminated
  cases terminated with
  | true => rfl
  | false =>
    simp only [Bool.false_eq_true, if_false, call_bind]
    congr 1
    funext currentTime
    split
    · rfl
    · rw [call_bind]
      congr 1
      funext accepted
      rw [call_bind]
      congr 1
      funext errno
      split <;> rfl

/-- **What one round can do**, when the function returns in the end. -/
theorem connectLoop_leads {rounds : Nat} {endTime : Timespec} {clientFdPtr : Int}
    {es : List (SysEvent β)} {r : Int × Int}
    (h : (iter (connectRound endTime clientFdPtr) (rounds + 1) (-1) :
      ServerProg β (Int × Int)).Leads es (.ret r)) :
    es = [⟨.isTerminated, true⟩] ∧ r = (1, clientFdPtr) ∨
    (∃ now, timespecIsElapsed endTime now = true ∧
      es = [⟨.isTerminated, false⟩, ⟨.clockGettime, now⟩] ∧ r = (2, clientFdPtr)) ∨
    (∃ now x e, timespecIsElapsed endTime now = false ∧ e ≠ eagain ∧
      es = [⟨.isTerminated, false⟩, ⟨.clockGettime, now⟩, ⟨.accept, x⟩, ⟨.errno, e⟩] ∧
      r = (-1, clientFdPtr)) ∨
    ∃ now x slept es', timespecIsElapsed endTime now = false ∧
      es = ⟨.isTerminated, false⟩ :: ⟨.clockGettime, now⟩ :: ⟨.accept, x⟩ :: ⟨.errno, eagain⟩ ::
        ⟨.nanosleep acceptDelay, slept⟩ :: es' ∧
      (iter (connectRound endTime clientFdPtr) rounds (acceptResult x) :
        ServerProg β (Int × Int)).Leads es' (.ret r) := by
  rw [connectLoop_succ] at h
  obtain ⟨terminated, es₁, rfl, h₁⟩ := leads_call_ret.mp h
  cases terminated with
  | true =>
    obtain ⟨rfl, hr⟩ := leads_ret.mp h₁
    cases hr
    exact Or.inl ⟨rfl, rfl⟩
  | false =>
    obtain ⟨now, es₂, rfl, h₂⟩ := leads_call_ret.mp h₁
    cases helapsed : timespecIsElapsed endTime now with
    | true =>
      rw [helapsed] at h₂
      obtain ⟨rfl, hr⟩ := leads_ret.mp h₂
      cases hr
      exact Or.inr (Or.inl ⟨now, helapsed, rfl, rfl⟩)
    | false =>
      rw [helapsed] at h₂
      obtain ⟨x, es₃, rfl, h₃⟩ := leads_call_ret.mp h₂
      obtain ⟨e, es₄, rfl, h₄⟩ := leads_call_ret.mp h₃
      by_cases he : e = eagain
      · rw [if_pos he] at h₄
        obtain ⟨slept, es₅, rfl, h₅⟩ := leads_call_ret.mp h₄
        exact Or.inr (Or.inr (Or.inr ⟨now, x, slept, es₅, helapsed, by rw [he], h₅⟩))
      · rw [if_neg he] at h₄
        obtain ⟨rfl, hr⟩ := leads_ret.mp h₄
        cases hr
        exact Or.inr (Or.inr (Or.inl ⟨now, x, e, helapsed, he, rfl, rfl⟩))

/-! ## `errno` -/

/-- `errno` after a call. A call that fails sets it; a signal that cuts a sleep short sets
`EINTR`; every other call leaves it as it was. -/
def errnoAfter (errno : Int) : SysEvent β → Int
  | ⟨.accept, .error e⟩ => e
  | ⟨.nanosleep _, r⟩ => if r = -1 then eintr else errno
  | _ => errno

/-- Each time `errno` is read, it is what the calls before left there. -/
def ErrnoRead (errno : Int) : List (SysEvent β) → Prop
  | [] => True
  | x :: es => (∀ r, x = ⟨.errno, r⟩ → r = errno) ∧ ErrnoRead (errnoAfter errno x) es

/-- Each time `accept` succeeds, `errno` is `EAGAIN` from before. -/
def AcceptsAfterEagain (errno : Int) : List (SysEvent β) → Prop
  | [] => True
  | x :: es => (∀ fd, x = ⟨.accept, .ok fd⟩ → errno = eagain) ∧
    AcceptsAfterEagain (errnoAfter errno x) es

/-! ## What is delivered -/

/-- Every descriptor that `accept` returned is delivered, and only its failures are errors. -/
structure Delivers (es : List (SysEvent β)) (result clientFd : Int) : Prop where
  delivered : ∀ fd : Nat, result = 0 ∧ clientFd = fd ↔ ⟨.accept, .ok fd⟩ ∈ es
  failed : result = -1 → ∃ e, e ≠ eagain ∧ e ≠ ewouldblock ∧ ⟨.accept, .error e⟩ ∈ es
  kept : result = 1 ∨ result = 2 ∨ result = -1 → ∀ fd, ⟨.accept, .ok fd⟩ ∉ es

section Delivers

variable {es : List (SysEvent β)} {x : SysEvent β} {errno result clientFd : Int}

/-- A call that accepts nothing and is no error does not count. -/
theorem delivers_cons (hok : ∀ fd, x ≠ ⟨.accept, .ok fd⟩)
    (herror : ∀ e, x = ⟨.accept, .error e⟩ → e = eagain) :
    Delivers (x :: es) result clientFd ↔ Delivers es result clientFd := by
  have hmem : ∀ fd, (⟨.accept, .ok fd⟩ : SysEvent β) ∈ x :: es ↔ ⟨.accept, .ok fd⟩ ∈ es := by
    intro fd
    rw [List.mem_cons]
    exact or_iff_right fun hc => hok fd hc.symm
  constructor
  · rintro ⟨hd, hf, hk⟩
    refine ⟨fun fd => (hd fd).trans (hmem fd), fun hr => ?_,
      fun hr fd => mt (hmem fd).mpr (hk hr fd)⟩
    obtain ⟨e, hne, hne', hm⟩ := hf hr
    rcases List.mem_cons.mp hm with hx | hm
    · exact absurd (herror e hx.symm) hne
    · exact ⟨e, hne, hne', hm⟩
  · rintro ⟨hd, hf, hk⟩
    refine ⟨fun fd => (hd fd).trans (hmem fd).symm, fun hr => ?_,
      fun hr fd => mt (hmem fd).mp (hk hr fd)⟩
    obtain ⟨e, hne, hne', hm⟩ := hf hr
    exact ⟨e, hne, hne', List.mem_cons_of_mem _ hm⟩

/-- The look at the flag and at the clock. -/
theorem delivers_poll {terminated : Bool} {now : Timespec} :
    Delivers (⟨.isTerminated, terminated⟩ :: ⟨.clockGettime, now⟩ :: es) result clientFd ↔
      Delivers es result clientFd := by
  rw [delivers_cons (by simp) (by simp), delivers_cons (by simp) (by simp)]

/-- Nothing was accepted, and nothing is said to be. -/
theorem delivers_nothing (h : result = 1 ∨ result = 2) :
    Delivers ([] : List (SysEvent β)) result clientFd := by
  refine ⟨fun fd => ⟨fun hc => ?_, fun hc => by cases hc⟩, fun hc => ?_,
    fun _ fd hc => by cases hc⟩
  · omega
  · omega

/-- **The polling loop**, from any value of `errno`. By induction on its rounds: a round that goes
on has made an `accept` that failed with `EAGAIN`, or has a descriptor. -/
theorem connectLoop_delivers (endTime : Timespec) (clientFdPtr : Int) :
    ∀ (rounds : Nat) (errno : Int) (es : List (SysEvent β)),
      (iter (connectRound endTime clientFdPtr) rounds (-1) : ServerProg β (Int × Int)).Leads es
        (.ret (result, clientFd)) → ErrnoRead errno es →
      (Delivers es result clientFd ↔ AcceptsAfterEagain errno es)
  | 0, _, _, hrun, _ => by
    cases (leads_spin.mp hrun).2
  | rounds + 1, errno, es, hrun, herrno => by
    rcases connectLoop_leads hrun with ⟨rfl, hr⟩ | ⟨now, -, rfl, hr⟩ | ⟨now, x, e, -, he, rfl, hr⟩ |
      ⟨now, x, slept, es', -, rfl, hrest⟩
    · cases hr
      rw [delivers_cons (by simp) (by simp)]
      simp [delivers_nothing, AcceptsAfterEagain]
    · cases hr
      rw [delivers_poll]
      simp [delivers_nothing, AcceptsAfterEagain]
    · cases hr
      rw [delivers_poll]
      cases x with
      | error e' =>
        simp only [ErrnoRead, errnoAfter, Sigma.mk.injEq, heq_eq_eq, true_and] at herrno
        obtain rfl : e = e' := by simpa using herrno
        refine iff_of_true ⟨?_, fun _ => ⟨e, he, he, List.mem_cons_self⟩, ?_⟩ ?_
        · intro fd
          simp
        · intro _ fd
          simp
        · simp [AcceptsAfterEagain]
      | ok fd =>
        have hread : e = errno := by simpa [ErrnoRead, errnoAfter] using herrno
        refine iff_of_false (fun h => h.kept (by simp) fd List.mem_cons_self) ?_
        simp [AcceptsAfterEagain, errnoAfter, ← hread, he]
    · rw [delivers_poll]
      cases x with
      | error e' =>
        simp only [ErrnoRead, errnoAfter] at herrno
        obtain ⟨-, -, -, hread, hsleep, herrno⟩ := herrno
        obtain rfl : eagain = e' := hread _ rfl
        rw [delivers_cons (by simp) (by simp), delivers_cons (by simp) (by simp),
          delivers_cons (by simp) (by simp), connectLoop_delivers endTime clientFdPtr rounds _ es'
            hrest herrno]
        simp [AcceptsAfterEagain, errnoAfter]
      | ok fd =>
        have hread : errno = eagain := by
          simp only [ErrnoRead, errnoAfter] at herrno
          exact (herrno.2.2.2.1 _ rfl).symm
        cases rounds with
        | zero => cases (leads_spin.mp hrest).2
        | succ rounds =>
          rw [show acceptResult (.ok fd) = (fd : Int) from rfl, connectLoop_done] at hrest
          obtain ⟨rfl, hr⟩ := leads_ret.mp hrest
          cases hr
          refine iff_of_true ⟨?_, fun hc => (by cases hc), fun hc => ?_⟩ ?_
          · intro fd'
            constructor
            · rintro ⟨-, hfd⟩
              rw [Int.ofNat_inj.mp hfd]
              exact List.mem_cons_self
            · intro hm
              obtain rfl : fd' = fd := by simpa using hm
              exact ⟨rfl, rfl⟩
          · simp at hc
          · simp [AcceptsAfterEagain, errnoAfter, hread]

end Delivers

/-- The calls that follow an `accept` that has succeeded, with these answers. -/
def afterAccept (errno slept : Int) : List (SysEvent β) :=
  if errno = eagain then [⟨.errno, errno⟩, ⟨.nanosleep acceptDelay, slept⟩] else [⟨.errno, errno⟩]

/-- The rest of the round, and the head of the next. -/
theorem afterAccept_leads (rounds : Nat) (endTime : Timespec) (clientFdPtr : Int) (fd : Nat)
    (errno slept : Int) :
    (.call .errno fun errno =>
        if errno = eagain then .call (.nanosleep acceptDelay) fun _ =>
          iter (connectRound endTime clientFdPtr) (rounds + 1) (fd : Int)
        else .ret (-1, clientFdPtr) : ServerProg β (Int × Int)).Leads (afterAccept errno slept)
      (.ret (if errno = eagain then (0, fd) else (-1, clientFdPtr))) := by
  unfold afterAccept
  by_cases he : errno = eagain
  · rw [if_pos he, if_pos he]
    refine ⟨errno, rfl, ?_⟩
    dsimp only
    rw [if_pos he]
    refine ⟨slept, rfl, ?_⟩
    dsimp only
    rw [connectLoop_done]
    exact leads_nil.mpr rfl
  · rw [if_neg he, if_neg he]
    refine ⟨errno, rfl, ?_⟩
    dsimp only
    rw [if_neg he]
    exact leads_nil.mpr rfl

/-- **The polling loop returns** once an `accept` has succeeded. By induction on its rounds: the
rounds before have failed, and this one stops or finds the descriptor at the head of the next. -/
theorem connectLoop_returns (endTime : Timespec) (clientFdPtr : Int) (fd : Nat)
    (errno slept : Int) : ∀ (rounds : Nat) (es : List (SysEvent β)) (q : ServerProg β (Int × Int)),
      (iter (connectRound endTime clientFdPtr) rounds (-1) : ServerProg β (Int × Int)).Leads
        (es ++ [⟨.accept, .ok fd⟩]) q →
      (iter (connectRound endTime clientFdPtr) (rounds + 1) (-1) : ServerProg β (Int × Int)).Leads
        (es ++ ⟨.accept, .ok fd⟩ :: afterAccept errno slept)
        (.ret (if errno = eagain then (0, fd) else (-1, clientFdPtr)))
  | 0, es, q, hrun => by
    have hnil := (leads_spin.mp hrun).1
    simp at hnil
  | rounds + 1, es, q, hrun => by
    rw [connectLoop_succ] at hrun ⊢
    obtain ⟨terminated, es₁, rfl, h₁⟩ := leads_call_push (by simp) hrun
    refine ⟨terminated, rfl, ?_⟩
    cases terminated with
    | true => simp at h₁
    | false =>
      obtain ⟨now, es₂, rfl, h₂⟩ := leads_call_push (by simp) h₁
      refine ⟨now, rfl, ?_⟩
      cases helapsed : timespecIsElapsed endTime now with
      | true => simp [helapsed] at h₂
      | false =>
        rw [helapsed] at h₂
        dsimp only
        rw [helapsed]
        cases es₂ with
        | nil => exact ⟨.ok fd, rfl, afterAccept_leads rounds endTime clientFdPtr fd errno slept⟩
        | cons y es₃ =>
          obtain ⟨x, rfl, h₃⟩ := h₂
          obtain ⟨e, es₄, rfl, h₄⟩ := leads_call_push (by simp) h₃
          refine ⟨x, rfl, e, rfl, ?_⟩
          dsimp only
          by_cases he : e = eagain
          · rw [if_pos he] at h₄ ⊢
            obtain ⟨slept', es₅, rfl, h₅⟩ := leads_call_push (by simp) h₄
            refine ⟨slept', rfl, ?_⟩
            cases x with
            | error e' =>
              exact connectLoop_returns endTime clientFdPtr fd errno slept rounds es₅ q h₅
            | ok fd' =>
              rw [show acceptResult (.ok fd') = (fd' : Int) from rfl] at h₅
              cases rounds with
              | zero =>
                have hnil := (leads_spin.mp h₅).1
                simp at hnil
              | succ rounds =>
                rw [connectLoop_done] at h₅
                simp at h₅
          · rw [if_neg he] at h₄
            simp at h₄

/--
**When every connection is delivered.**

For every value of `errno` at the start and all answers of the calls, whenever
`socket_client_create_connection` returns: it delivers exactly what `accept` returned, fails only
because `accept` failed, and loses no descriptor, if and only if each `accept` that succeeded
found `EAGAIN` in `errno`. With any other value there the round returns `-1`.

And a run in which an `accept` has succeeded returns: with one more round allowed, the test of
`errno` and at most one sleep are all that it still does.
-/
theorem connection_delivered_iff (rounds : Nat) (clientFdPtr : Int) (timeout : Timespec)
    (errno : Int) :
    (∀ (es : List (SysEvent β)) (result clientFd : Int),
      (socketClientCreateConnection rounds clientFdPtr timeout :
        ServerProg β (Int × Int)).Leads es (.ret (result, clientFd)) → ErrnoRead errno es →
      (Delivers es result clientFd ↔ AcceptsAfterEagain errno es)) ∧
    ∀ (es : List (SysEvent β)) (fd : Nat) (q : ServerProg β (Int × Int)),
      (socketClientCreateConnection rounds clientFdPtr timeout).Leads
        (es ++ [⟨.accept, .ok fd⟩]) q →
      ∀ tested slept, (socketClientCreateConnection (rounds + 1) clientFdPtr timeout).Leads
        (es ++ ⟨.accept, .ok fd⟩ :: afterAccept tested slept)
        (.ret (if tested = eagain then (0, fd) else (-1, clientFdPtr))) := by
  constructor
  · intro es result clientFd hrun herrno
    rw [createConnection_eq] at hrun
    obtain ⟨startTime, es', rfl, hloop⟩ := leads_call_ret.mp hrun
    rw [delivers_cons (by simp) (by simp),
      connectLoop_delivers _ clientFdPtr rounds errno es' hloop herrno.2]
    simp [AcceptsAfterEagain, errnoAfter]
  · intro es fd q hrun tested slept
    rw [createConnection_eq] at hrun ⊢
    obtain ⟨startTime, es', rfl, hloop⟩ := leads_call_push (by simp) hrun
    exact ⟨startTime, rfl, connectLoop_returns _ clientFdPtr fd tested slept rounds es' q hloop⟩

/-- The calls of one round that begins at time 0, up to `accept`. -/
def pollUntilAccept : List (SysEvent β) := [⟨.isTerminated, false⟩, ⟨.clockGettime, ⟨0, 0⟩⟩]

/-- The first poll finds nobody, and the client of the second one is delivered. -/
theorem connection_delivered_iff_second_poll : @Delivers UInt8
    (⟨.clockGettime, ⟨0, 0⟩⟩ :: pollUntilAccept ++ [⟨.accept, .error eagain⟩, ⟨.errno, eagain⟩,
      ⟨.nanosleep acceptDelay, (0 : Int)⟩] ++ pollUntilAccept ++ [⟨.accept, .ok 5⟩,
      ⟨.errno, eagain⟩, ⟨.nanosleep acceptDelay, (-1 : Int)⟩]) 0 5 := by
  refine ((connection_delivered_iff 3 0 ⟨1, 0⟩ 0).1 _ 0 5 ?_ ?_).mpr ?_
  · exact ⟨_, rfl, _, rfl, _, rfl, _, rfl, _, rfl, _, rfl, _, rfl, _, rfl, _, rfl, _, rfl, _, rfl,
      rfl⟩
  · simp [pollUntilAccept, ErrnoRead, errnoAfter]
  · simp [pollUntilAccept, AcceptsAfterEagain, errnoAfter]

/-- `errno` is 0 when the server starts, and a client is already waiting: descriptor 5 is accepted,
and the function returns `-1` without it. -/
theorem accepted_connection_lost :
    (socketClientCreateConnection 3 0 ⟨1, 0⟩ : ServerProg UInt8 (Int × Int)).Leads
        (⟨.clockGettime, ⟨0, 0⟩⟩ :: pollUntilAccept ++ [⟨.accept, .ok 5⟩, ⟨.errno, (0 : Int)⟩])
        (.ret (-1, 0)) ∧
      @ErrnoRead UInt8 0
        (⟨.clockGettime, ⟨0, 0⟩⟩ :: pollUntilAccept ++ [⟨.accept, .ok 5⟩, ⟨.errno, (0 : Int)⟩]) ∧
      ¬@Delivers UInt8
        (⟨.clockGettime, ⟨0, 0⟩⟩ :: pollUntilAccept ++ [⟨.accept, .ok 5⟩, ⟨.errno, (0 : Int)⟩])
        (-1) 0 := by
  refine ⟨?_, ?_, fun h => h.kept (by simp) 5 (by simp [pollUntilAccept])⟩
  · exact ⟨_, rfl, _, rfl, _, rfl, _, rfl, _, rfl, rfl⟩
  · simp [pollUntilAccept, ErrnoRead, errnoAfter]

end Aesd.Server

import Aesd.Server.Progress
import Aesd.Server.Timestamps

/-!
# The end of the logger

When `application` has returned, `main` joins the timestamp logger, and the logger may be waiting
for the semaphore. It ends when it looks at `is_terminated`, which it does after each wait:
`sigint_handler` sets the flag and then posts. After such a post the logger does not wait for the
semaphore in vain, and there is little it still does. With the regular file it may have to wait for
the mutex first, while a worker has it.
-/

namespace Aesd.Server

open Infra Prog

variable {β : Type}

/-- `is_terminated` is set. -/
def isSet : Nat × SysEvent β → Bool
  | (_, ⟨.setIsTerminated, _⟩) => true
  | _ => false

/-- The semaphore was posted after `is_terminated` had been set. -/
def Woken (tr : Trace β) : Prop :=
  ∃ before x after, tr = before ++ x :: after ∧ isPost x = true ∧ ∃ y ∈ before, isSet y = true

section Woken

variable {tr : Trace β} {x : Nat × SysEvent β}

theorem Woken.append (h : Woken tr) (xs : Trace β) : Woken (tr ++ xs) := by
  obtain ⟨before, x, after, rfl, hpost, hset⟩ := h
  exact ⟨before, x, after ++ xs, by simp, hpost, hset⟩

theorem Woken.set_before (h : Woken tr) : ∃ y ∈ tr, isSet y = true := by
  obtain ⟨before, x, after, rfl, -, y, hy, hset⟩ := h
  exact ⟨y, List.mem_append_left _ hy, hset⟩

theorem woken_push : Woken (tr ++ [x]) ↔
    Woken tr ∨ isPost x = true ∧ ∃ y ∈ tr, isSet y = true := by
  constructor
  · rintro ⟨before, z, after, he, hpost, hset⟩
    rcases List.eq_nil_or_concat after with rfl | ⟨after', u, rfl⟩
    · obtain ⟨rfl, hz⟩ := List.append_inj' he rfl
      cases hz
      exact Or.inr ⟨hpost, hset⟩
    · have he' : tr ++ [x] = (before ++ z :: after') ++ [u] := by simpa using he
      exact Or.inl ⟨before, z, after', (List.append_inj' he' rfl).1, hpost, hset⟩
  · rintro (h | ⟨hpost, hset⟩)
    · exact h.append [x]
    · exact ⟨tr, x, [], rfl, hpost, hset⟩

end Woken

/-! ## Where the logger is -/

inductive Watch where
  /-- before the first wait -/
  | start
  | woke
  /-- it has seen that it is to go on -/
  | on
  | leaves
  deriving DecidableEq, Repr

namespace Watch

def next (p : Watch) : SysEvent β → Watch
  | ⟨.semWait, _⟩ => .woke
  | ⟨.isTerminated, terminated⟩ => if terminated then .leaves else .on
  | _ => p

/-- After these calls. -/
def of (es : List (SysEvent β)) : Watch := es.foldl next start

@[simp] theorem of_push (es : List (SysEvent β)) (x : SysEvent β) :
    of (es ++ [x]) = (of es).next x := by
  simp [of, List.foldl_append]

end Watch

/-- Between two waits the logger looks at the flag. It only appends to the regular file. -/
def watchView (useAesdCharDevice : Bool) : View (@Sys.Ret β) Watch where
  may p e :=
    match e with
    | .semWait => p = .start ∨ p = .on
    | .isTerminated => p = .woke ∨ p = .on
    | .pthreadExit => p = .leaves
    | .clockGettime | .localtimeR | .strftime _ => p = .on
    | .openFile _ _ | .write _ _ | .close _ | .mutexLock | .mutexUnlock =>
      p = .on ∧ useAesdCharDevice = false
    | _ => False
  answers _ _ _ := True
  next := Watch.next
  spins := True

/-- Once it is woken up to end, the logger has a post to take, or it has taken one and not looked
at the flag since, or it has looked. -/
structure Ending (w : TimingWorld β) : Prop where
  flag : (∃ x ∈ w.trace, isSet x = true) → w.state.isTerminated = true
  awake : Woken w.trace → 0 < w.state.semaphore ∨ Watch.of (w.own 0) = .woke ∨
    Watch.of (w.own 0) = .leaves

def Cause.isWorker : Cause → Bool
  | .worker _ _ _ _ => true
  | _ => false

/-- The calls of the threads other than the logger. -/
def Cause.may (cause : Cause) (e : Sys β) : Prop :=
  e = .semPost ∨ e = .setIsTerminated ∨ cause.isWorker = true ∧ e.works

theorem Cause.may.worker {cause : Cause} {e : Sys β} (h : cause.may e) (hpost : e ≠ .semPost)
    (hset : e ≠ .setIsTerminated) : cause.isWorker = true :=
  ((h.resolve_left hpost).resolve_left hset).1

theorem quiet_of_works {e : Sys β} {r : e.Ret} {t : Nat} (he : e.works) :
    e.signals = false ∧ isPost (t, (⟨e, r⟩ : SysEvent β)) = false ∧
      isSet (t, (⟨e, r⟩ : SysEvent β)) = false := by
  cases e <;> first | exact he.elim | exact ⟨rfl, rfl, rfl⟩

section Step

variable {w : TimingWorld β} {s : Timing} {e : Sys β} {a : Answers β} {r : e.Ret}

theorem Ending.logger {useAesdCharDevice : Bool} (h : Ending w)
    (hmay : (watchView useAesdCharDevice).may (Watch.of (w.own 0)) e)
    (hact : timestampCall 0 e w.state a = some (r, s)) : Ending (w.push 0 s ⟨e, r⟩) := by
  have hquiet : isPost (0, (⟨e, r⟩ : SysEvent β)) = false ∧
      isSet (0, (⟨e, r⟩ : SysEvent β)) = false := by
    cases e <;> first | exact ⟨rfl, rfl⟩ | exact hmay.elim
  constructor
  case flag =>
    rintro ⟨x, hx, hset⟩
    rcases List.mem_append.mp hx with hx | hx
    · exact timestampCall_flag hact (h.flag ⟨x, hx, hset⟩)
    · rw [List.mem_singleton.mp hx, hquiet.2] at hset
      cases hset
  case awake =>
    intro hw
    have hwoken : Woken w.trace := by
      refine (woken_push.mp hw).resolve_right fun hc => ?_
      rw [hquiet.1] at hc
      cases hc.1
    have hawake := h.awake hwoken
    -- elsewhere there is a post that the call leaves alone
    have hon : e.signals = false → Watch.of (w.own 0) = .on → 0 < s.semaphore := by
      intro he hp
      rw [hp] at hawake
      rw [(timestampCall_quiet he hact).1]
      exact hawake.resolve_right (by decide)
    rw [World.own_push_self, Watch.of_push]
    cases e with
    | semWait => exact Or.inr (Or.inl rfl)
    | isTerminated =>
      -- the flag is set, so this look is the last
      cases hact
      rw [h.flag hwoken.set_before]
      exact Or.inr (Or.inr rfl)
    | pthreadExit => exact Or.inr (Or.inr hmay)
    | clockGettime | localtimeR | strftime _ => exact Or.inl (hon rfl hmay)
    | openFile _ _ | write _ _ | close _ | mutexLock | mutexUnlock => exact Or.inl (hon rfl hmay.1)
    | _ => exact hmay.elim

/-- Another thread. -/
theorem Ending.handler (h : Ending w) {t : Nat} (ht : t ≠ 0) {cause : Cause} (hmay : cause.may e)
    (hact : timestampCall t e w.state a = some (r, s)) : Ending (w.push t s ⟨e, r⟩) := by
  constructor
  case flag =>
    rintro ⟨x, hx, hset⟩
    rcases List.mem_append.mp hx with hx | hx
    · exact timestampCall_flag hact (h.flag ⟨x, hx, hset⟩)
    · rw [List.mem_singleton.mp hx] at hset
      rcases hmay with rfl | rfl | ⟨-, he⟩
      · cases hset
      · cases hact
        rfl
      · rw [(quiet_of_works he).2.2] at hset
        cases hset
  case awake =>
    intro hw
    rw [World.own_push_ne w s _ (Ne.symm ht)]
    rcases hmay with rfl | rfl | ⟨-, he⟩
    · -- even when the semaphore cannot grow
      refine Or.inl ?_
      simp only [timestampCall] at hact
      split at hact
      · cases hact
        exact Nat.succ_pos _
      · next hfull =>
        cases hact
        exact Nat.lt_of_lt_of_le (by decide) (Nat.le_of_not_lt hfull)
    · cases hact
      exact h.awake ((woken_push.mp hw).resolve_right fun hc => by cases hc.1)
    · obtain ⟨hsignals, hpost, -⟩ := quiet_of_works (r := r) (t := t) he
      rw [World.push_state, (timestampCall_quiet hsignals hact).1]
      refine h.awake ((woken_push.mp hw).resolve_right fun hc => ?_)
      rw [hpost] at hc
      cases hc.1

end Step

/-- Nobody takes a post or the flag back. -/
def shutdownContract (useAesdCharDevice : Bool) (cause : Nat → Cause) :
    Contract (@timestampSystem β) where
  inv := Ending
  rely t w w' := w'.own t = w.own t ∧ ∃ xs, w'.trace = w.trace ++ xs
  pre w t e :=
    if t = 0 then (watchView useAesdCharDevice).may (Watch.of (w.own 0)) e else (cause t).may e
  spins _ := True
  rely_refl _ _ := ⟨rfl, [], (List.append_nil _).symm⟩
  rely_trans := by
    rintro t w₁ w₂ w₃ ⟨h₁, xs, hxs⟩ ⟨h₂, ys, hys⟩
    exact ⟨h₂.trans h₁, xs ++ ys, by rw [hys, hxs, List.append_assoc]⟩
  keeps {w t e a r s} hi hp hact := by
    refine ⟨?_, fun t' ht' => ⟨World.own_push_ne w s _ ht', _, rfl⟩⟩
    by_cases ht : t = 0
    · subst ht
      exact hi.logger hp hact
    · rw [if_neg ht] at hp
      exact hi.handler ht hp hact

section Threads

variable {useAesdCharDevice : Bool} {cause : Nat → Cause}

end Threads

/-! ## Who has the mutex -/

/-- A thread has the mutex when it says so, and it is the logger or a worker. -/
structure Holders (cause : Nat → Cause) (w : TimingWorld β) : Prop where
  holding : ∀ t, w.state.mutex = some t ↔ Grip.of (w.own t) = .holding
  holder : ∀ t, t ≠ 0 → w.state.mutex = some t → (cause t).isWorker = true

theorem Holders.push {cause : Nat → Cause} {w : TimingWorld β} (h : Holders cause w) {t : Nat}
    {s : Timing} {e : SysEvent β}
    (hself : s.mutex = some t ↔ (Grip.of (w.own t)).next e = .holding)
    (hothers : ∀ t', t' ≠ t → (s.mutex = some t' ↔ w.state.mutex = some t'))
    (hworker : t ≠ 0 → s.mutex = some t → (cause t).isWorker = true) :
    Holders cause (w.push t s e) where
  holding t' := by
    rw [World.push_state]
    by_cases htt : t' = t
    · rw [htt, World.own_push_self, Grip.of_push]
      exact hself
    · rw [World.own_push_ne w s e htt, hothers t' htt]
      exact h.holding t'
  holder t' ht' := by
    rw [World.push_state]
    by_cases htt : t' = t
    · subst htt
      exact hworker ht'
    · rw [hothers t' htt]
      exact h.holder t' ht'

/-- The mutex changes hands by a lock or an unlock. -/
theorem timestampCall_mutex {t : Nat} {e : Sys β} {a : Answers β} {r : e.Ret} {s s' : Timing}
    (hlock : e ≠ .mutexLock) (hunlock : e ≠ .mutexUnlock)
    (hact : timestampCall t e s a = some (r, s')) : s'.mutex = s.mutex := by
  cases e with
  | mutexLock => exact absurd rfl hlock
  | mutexUnlock => exact absurd rfl hunlock
  | semWait =>
    obtain ⟨-, heq⟩ : 0 < s.semaphore ∧ _ := Option.ite_none_right_eq_some.mp hact
    cases heq
    rfl
  | semPost =>
    simp only [timestampCall] at hact
    split at hact <;> cases hact <;> rfl
  | recv _ _ | send _ _ _ =>
    obtain ⟨-, heq⟩ := Option.ite_none_left_eq_some.mp hact
    cases heq
    rfl
  | _ =>
    cases hact
    rfl

theorem Holders.call {useAesdCharDevice : Bool} {cause : Nat → Cause} {w : TimingWorld β} {t : Nat}
    {e : Sys β} {a : Answers β} {r : e.Ret} {s : Timing} (h : Holders cause w)
    (hpre : (shutdownContract useAesdCharDevice cause).pre w t e)
    (hheeds : gripView.may (Grip.of (w.own t)) e)
    (hact : timestampSystem.act w t e a = some (r, s)) : Holders cause (w.push t s ⟨e, r⟩) := by
  replace hact : timestampCall t e w.state a = some (r, s) := hact
  by_cases hlock : e = .mutexLock
  · subst hlock
    obtain ⟨hfree, heq⟩ := Option.ite_none_right_eq_some.mp hact
    cases heq
    refine h.push (by simp [Grip.next]) (fun t' ht' => ?_) fun ht _ => ?_
    · simp [hfree, Ne.symm ht']
    · have hmay : (cause t).may (.mutexLock : Sys β) := by
        simpa only [shutdownContract, if_neg ht] using hpre
      exact hmay.worker (fun hc => (by cases hc)) fun hc => (by cases hc)
  by_cases hunlock : e = .mutexUnlock
  · subst hunlock
    obtain ⟨hheld, heq⟩ := Option.ite_none_right_eq_some.mp hact
    cases heq
    refine h.push (by simp [Grip.next]) (fun t' ht' => ?_) fun _ hm => ?_
    · simp [hheld, Ne.symm ht']
    · cases hm
  have hm := timestampCall_mutex hlock hunlock hact
  refine h.push ?_ (fun t' _ => by rw [hm]) fun ht hs => h.holder t ht (hm ▸ hs)
  rw [hm, h.holding t]
  cases e with
  | mutexLock => exact absurd rfl hlock
  | mutexUnlock => exact absurd rfl hunlock
  | pthreadExit =>
    rw [show Grip.of (w.own t) = .free from hheeds]
    simp [Grip.next]
  | _ => rfl

/-- The calls that the logger makes at most, and the lines that it begins, if each look at the
flag finds it set. -/
structure Budget where
  calls : Nat
  lines : Nat

namespace Budget

/-- A look that finds the flag clear allows for the rest of the round and the end. -/
def next (b : Budget) : SysEvent β → Budget
  | ⟨.isTerminated, false⟩ => ⟨11, 1⟩
  | ⟨.openFile _ _, _⟩ => ⟨b.calls - 1, b.lines - 1⟩
  | _ => ⟨b.calls - 1, b.lines⟩

end Budget

end Aesd.Server

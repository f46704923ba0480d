import Aesd.Server.Polling

/-!
# The last round

A signal sets `is_terminated` whenever it comes: while `application` waits for a client, while it
accepts one, or while it starts a thread. It looks at the flag often enough that it does little
after that: one poll and one client at the most, and then it joins its threads.
-/

namespace Aesd.Server

open Infra Prog

variable {β : Type}

/-! ## What `application` does for its clients -/

/-- The calls of `application` that are neither about the flag nor about its list. -/
inductive Errand where
  | clock
  | accept
  | sleep
  | malloc
  | create
  deriving DecidableEq, Repr

def Sys.errand : Sys β → Option Errand
  | .clockGettime => some .clock
  | .accept => some .accept
  | .nanosleep _ => some .sleep
  | .mallocNode _ => some .malloc
  | .pthreadCreate _ => some .create
  | _ => none

/-- A call that is no errand and leaves the flag alone. -/
def Sys.isPlain : Sys β → Bool
  | .clockGettime | .accept | .nanosleep _ | .mallocNode _ | .pthreadCreate _ => false
  | .isTerminated | .setIsTerminated => false
  | _ => true

theorem Sys.kinds (e : Sys β) : e.isPlain = true ∧ e.errand = none ∨ (∃ k, e.errand = some k) ∨
    e = .isTerminated ∨ e = .setIsTerminated := by
  cases e <;> simp [isPlain, errand]

/-- One poll that finds a client, and the thread for it. -/
def oneRound : List Errand := [.clock, .accept, .sleep, .malloc, .create]

def errands (es : List (SysEvent β)) : List Errand := es.filterMap fun x => x.1.errand

/-- From here on the flag is known to be set. -/
def notices : SysEvent β → Bool
  | ⟨.isTerminated, r⟩ => r
  | ⟨.setIsTerminated, _⟩ => true
  | _ => false

/-- A reading of the flag. -/
def looks : SysEvent β → Bool
  | ⟨.isTerminated, _⟩ => true
  | _ => false

/-- **The flag** is set by the calls that notice it, and never cleared. -/
theorem processCall_isTerminated {joinFails : Bool} {t : Nat} {e : Sys β} {s s' : Process}
    {a : Answers β} {r : e.Ret} (h : processCall joinFails t e s a = some (r, s')) :
    s'.isTerminated = (s.isTerminated || notices ⟨e, r⟩) := by
  cases e with
  | setThreadStatus n _ | setThread n _ | setNext n _ | freeNode n =>
    obtain ⟨x, -, heq⟩ := Option.map_eq_some_iff.mp h
    cases heq
    exact (Bool.or_false _).symm
  | isTerminated =>
    cases h
    exact (Bool.or_self_left _ _).symm
  | setIsTerminated =>
    cases h
    exact (Bool.or_true _).symm
  | mutexLock | mutexUnlock =>
    obtain ⟨-, heq⟩ := Option.ite_none_right_eq_some.mp h
    cases heq
    exact (Bool.or_false _).symm
  | pthreadCreate n =>
    simp only [processCall] at h
    split at h <;> cases h <;> exact (Bool.or_false _).symm
  | pthreadJoin n =>
    simp only [processCall] at h
    split at h
    · cases h
      exact (Bool.or_false _).symm
    · obtain ⟨-, heq⟩ := Option.ite_none_right_eq_some.mp h
      cases heq
      exact (Bool.or_false _).symm
  | setFirst _ | mallocNode _ | pthreadExit =>
    cases h
    exact (Bool.or_false _).symm
  | _ =>
    rw [processCall_passive rfl h]
    exact (Bool.or_false _).symm

/-! ## Between two looks at the flag -/

/-- What `application` did since it looked last, whether it knows that the flag is set, and how
often it found it so. -/
structure Round where
  done : List Errand
  noticed : Bool
  found : Nat

namespace Round

def start : Round := ⟨[], false, 0⟩

def next (v : Round) : SysEvent β → Round
  | ⟨.isTerminated, true⟩ => ⟨[], true, v.found + 1⟩
  | ⟨.isTerminated, false⟩ => { v with done := [] }
  | ⟨.setIsTerminated, _⟩ => { v with noticed := true }
  | x => { v with done := v.done ++ x.1.errand.toList }

def of (es : List (SysEvent β)) : Round := es.foldl next start

@[simp] theorem of_push (es : List (SysEvent β)) (x : SysEvent β) :
    of (es ++ [x]) = (of es).next x := by
  simp [of, List.foldl_append]

theorem next_plain (v : Round) {e : Sys β} (he : e.isPlain = true) (r : e.Ret) :
    v.next ⟨e, r⟩ = v := by
  cases e <;> first | exact congrArg (Round.mk · _ _) (List.append_nil _) | cases he

theorem next_errand (v : Round) {e : Sys β} {k : Errand} (he : e.errand = some k) (r : e.Ret) :
    v.next ⟨e, r⟩ = { v with done := v.done ++ [k] } := by
  cases e <;> cases he <;> rfl

theorem next_noticed (v : Round) (x : SysEvent β) :
    (v.next x).noticed = (v.noticed || notices x) := by
  obtain ⟨e, r⟩ := x
  cases e with
  | isTerminated => cases r <;> simp [next, notices]
  | setIsTerminated => simp [next, notices]
  | _ => simp [next, notices]

end Round

/-- `application` looks before each errand, and does none once it knows. -/
def roundView : View (@Sys.Ret β) Round where
  may v e := (∀ k, e.errand = some k → v.noticed = false ∧ (v.done ++ [k]).Sublist oneRound) ∧
    (e = .isTerminated → v.found ≤ 1)
  answers v e r := v.noticed = true → ∀ b, (⟨e, r⟩ : SysEvent β) = ⟨.isTerminated, b⟩ → b = true
  next := Round.next
  spins := True

section Program

variable {α : Type} {Q : α → Round → Prop} {v : Round}

theorem round_plain {e : Sys β} {k : e.Ret → ServerProg β α} (he : e.isPlain = true)
    (h : ∀ r, roundView.wp (k r) Q v) : roundView.wp (.call e k) Q v := by
  have hnone : e.errand = none := by
    cases e <;> first | rfl | cases he
  refine ⟨⟨?_, ?_⟩, ?_⟩
  · intro x hx
    rw [hnone] at hx
    cases hx
  · intro heq
    subst heq
    cases he
  · intro r _
    show roundView.wp (k r) Q (v.next ⟨e, r⟩)
    rw [Round.next_plain v he]
    exact h r

/-- An errand has its turn. -/
theorem round_errand {e : Sys β} {k : e.Ret → ServerProg β α} (x : Errand)
    (he : e.errand = some x) (hn : v.noticed = false) (hturn : (v.done ++ [x]).Sublist oneRound)
    (h : ∀ r, roundView.wp (k r) Q { v with done := v.done ++ [x] }) :
    roundView.wp (.call e k) Q v := by
  refine ⟨⟨?_, ?_⟩, ?_⟩
  · intro y hy
    rw [he] at hy
    cases hy
    exact ⟨hn, hturn⟩
  · intro heq
    subst heq
    cases he
  · intro r _
    show roundView.wp (k r) Q (v.next ⟨e, r⟩)
    rw [Round.next_errand v he]
    exact h r

theorem round_look {k : Bool → ServerProg β α} (hfound : v.found ≤ 1)
    (hset : roundView.wp (k true) Q ⟨[], true, v.found + 1⟩)
    (hclear : v.noticed = false → roundView.wp (k false) Q { v with done := [] }) :
    roundView.wp (.call .isTerminated k) Q v := by
  refine ⟨⟨fun x hx => (by cases hx), fun _ => hfound⟩, ?_⟩
  intro r hr
  cases r with
  | true => exact hset
  | false =>
    cases hn : v.noticed with
    | true => cases hr hn false rfl
    | false => exact hclear hn

theorem round_notice {k : Unit → ServerProg β α}
    (h : roundView.wp (k ()) Q { v with noticed := true }) :
    roundView.wp (.call .setIsTerminated k) Q v :=
  ⟨⟨fun x hx => (by cases hx), fun heq => (by cases heq)⟩, fun _ _ => h⟩

/-- A walk over the list. -/
theorem round_walks {polls : Nat} {p : ServerProg β α} (hp : p.Calls Sys.walks) :
    roundView.wp (p.expand (polling polls)) (fun _ v' => v' = v) v := by
  have hknown : ∀ e : Sys β, e.walks → polling polls e = none := by
    intro e he
    cases e <;> first | exact he.elim | rfl
  rw [expand_eq_self (hp.mono hknown)]
  clear hknown
  induction p with
  | ret a => rfl
  | spin => trivial
  | call e k ih =>
    obtain ⟨he, hk⟩ := hp
    refine round_plain ?_ fun r => ih r (hk r)
    cases e <;> first | rfl | exact he.elim

end Program

/-! ## `application` -/

/-- A connection attempt is over: it has made one poll at the most since it looked last, or it has
found the flag set. -/
def Attempted (result : Int × Int) (v : Round) : Prop :=
  v.noticed = false ∧ v.found = 0 ∧ (result.1 = 0 → v.done = [.clock, .accept, .sleep]) ∨
    result.1 = 1 ∧ v.noticed = true ∧ v.found = 1

/-- Before `application` looks at the flag. -/
def Settled (v : Round) : Prop :=
  v.noticed = false ∧ v.found = 0 ∨ v.noticed = true ∧ v.found ≤ 1

theorem Settled.found_le {v : Round} (h : Settled v) : v.found ≤ 1 := by
  rcases h with ⟨-, hf⟩ | ⟨-, hf⟩
  · exact hf.le.trans (Nat.zero_le 1)
  · exact hf

theorem round_createConnection (polls : Nat) (clientFdPtr : Int) (timeout : Timespec) :
    roundView.wp (socketClientCreateConnection polls clientFdPtr timeout : ServerProg β _)
      Attempted Round.start := by
  rw [createConnection_eq]
  refine round_errand .clock rfl rfl (by decide) ?_
  intro startTime
  -- whatever was done before, each poll begins with a look at the flag
  suffices hloop : ∀ (polls : Nat) (done : List Errand), roundView.wp
      (iter (connectRound (timespecAdd startTime timeout) clientFdPtr) polls (-1) :
        ServerProg β (Int × Int)) Attempted ⟨done, false, 0⟩ from hloop polls _
  intro polls
  induction polls with
  | zero => exact fun _ => trivial
  | succ polls ih =>
    intro done
    rw [connectLoop_succ]
    refine round_look (Nat.zero_le 1) (Or.inr ⟨rfl, rfl, rfl⟩) ?_
    intro _
    show roundView.wp _ Attempted Round.start
    rw [if_neg Bool.false_ne_true]
    refine round_errand .clock rfl rfl (by decide) ?_
    intro currentTime
    split
    · exact Or.inl ⟨rfl, rfl, fun hc => (by cases hc)⟩
    · refine round_errand .accept rfl rfl (by decide) ?_
      intro accepted
      refine round_plain rfl ?_
      intro errno
      split
      · refine round_errand .sleep rfl rfl (by decide) ?_
        intro _
        cases accepted with
        | error e => exact ih _
        | ok fd =>
          cases polls with
          | zero => trivial
          | succ polls =>
            rw [show acceptResult (.ok fd) = (fd : Int) from rfl, connectLoop_done]
            exact Or.inl ⟨rfl, rfl, fun _ => rfl⟩
      · exact Or.inl ⟨rfl, rfl, fun hc => (by cases hc)⟩

theorem round_startThread (polls : Nat) (applicationResult clientSocket : Int) :
    roundView.wp ((startThread applicationResult clientSocket : ServerProg β Int).expand
      (polling polls)) (fun _ => Settled) ⟨[.clock, .accept, .sleep], false, 0⟩ := by
  rw [startThread_eq, expand_other rfl]
  refine round_errand .malloc rfl rfl (by decide) ?_
  intro node
  rw [expand_other rfl]
  refine round_errand .create rfl rfl (by decide) ?_
  intro r
  split
  · rw [expand_other rfl]
    refine round_plain rfl ?_
    intro _
    rw [expand_other rfl]
    refine round_plain rfl ?_
    intro _
    rw [expand_other rfl]
    exact round_notice (Or.inr ⟨rfl, Nat.zero_le 1⟩)
  · rw [slistInsertHead_eq]
    exact round_plain rfl fun _ => round_plain rfl fun _ => round_plain rfl fun _ =>
      round_plain rfl fun _ => Or.inl ⟨rfl, rfl⟩

theorem round_round (rounds polls : Nat) (applicationResult : Int) :
    roundView.wp ((applicationRound rounds applicationResult : ServerProg β Int).expand
      (polling polls)) (fun _ => Settled) Round.start := by
  rw [applicationRound_eq, expand_known rfl]
  refine View.wp_bind (View.wp_mono ?_ (round_createConnection polls 0 ⟨1, 0⟩))
  rintro ⟨result, clientSocket⟩ ⟨done, noticed, found⟩ hattempted
  have hsettled : Settled ⟨done, noticed, found⟩ := by
    rcases hattempted with ⟨hn, hf, -⟩ | ⟨-, hn, hf⟩
    · exact Or.inl ⟨hn, hf⟩
    · exact Or.inr ⟨hn, hf.le⟩
  dsimp only
  split
  · rw [expand_other rfl]
    refine round_plain rfl ?_
    intro _
    rw [expand_other rfl]
    exact round_notice (Or.inr ⟨rfl, hsettled.found_le⟩)
  · split
    · next hresult =>
      -- a client was accepted in the poll that was just made
      rcases hattempted with ⟨rfl, rfl, hdone⟩ | ⟨hone, -⟩
      · rw [show done = [.clock, .accept, .sleep] from hdone hresult]
        exact round_startThread polls applicationResult clientSocket
      · rw [show result = 0 from hresult] at hone
        cases hone
    · split
      · exact hsettled
      · split
        · rw [expand_bind]
          refine View.wp_bind (View.wp_mono ?_ (round_walks (slistJoinCompleted_calls rounds)))
          rintro isError _ rfl
          cases isError with
          | false => exact hsettled
          | true => exact round_notice (Or.inr ⟨rfl, hsettled.found_le⟩)
        · exact hsettled

theorem round_loop (rounds polls : Nat) : ∀ (n : Nat) (applicationResult : Int) (v : Round),
    Settled v → roundView.wp ((applicationLoop rounds n applicationResult :
      ServerProg β (Option Int)).expand (polling polls)) (fun _ _ => True) v
  | 0, _, _, _ => trivial
  | n + 1, applicationResult, ⟨done, noticed, found⟩, hsettled => by
    rw [applicationLoop_succ, expand_other rfl]
    refine round_look hsettled.found_le trivial ?_
    intro hn
    rcases hsettled with ⟨rfl, rfl⟩ | ⟨hn', -⟩
    · rw [if_neg Bool.false_ne_true, expand_bind]
      exact View.wp_bind (View.wp_mono (fun result v' h' => round_loop rounds polls n result v' h')
        (round_round rounds polls applicationResult))
    · cases hn.symm.trans hn'

theorem round_application (n polls : Nat) :
    roundView.wp ((application n : ServerProg β (Option Int)).expand (polling polls))
      (fun _ _ => True) Round.start := by
  rw [application_eq, expand_other rfl]
  refine round_plain rfl ?_
  intro _
  rw [expand_bind]
  refine View.wp_bind (View.wp_mono (fun result v' _ => ?_)
    (round_loop (n + 1) polls n 0 _ (Or.inl ⟨rfl, rfl⟩)))
  cases result with
  | none => trivial
  | some applicationResult =>
    dsimp only
    rw [expand_bind, applicationEnd_eq, expand_bind]
    refine View.wp_bind (View.wp_bind (View.wp_mono ?_ (round_walks (slistJoin_calls _))))
    rintro isError _ rfl
    rw [expand_bind]
    refine View.wp_bind (View.wp_mono ?_ (round_walks (slistFree_calls _)))
    rintro _ _ rfl
    trivial

/-! ## Among the workers -/

/-- Each call of `application` came when it may. -/
def Orderly (es : List (SysEvent β)) : Prop :=
  Always (fun pre x => roundView.may (Round.of pre) x.1) es

/-- The workers leave the flag alone. -/
def roundContract (joinFails : Bool) : Contract (@processSystem β joinFails) where
  inv w := Orderly (w.own 0) ∧
    ((Round.of (w.own 0)).noticed = true → w.state.isTerminated = true)
  rely t w w' := Round.of (w'.own t) = Round.of (w.own t)
  pre w t e := t = 0 → roundView.may (Round.of (w.own 0)) e
  spins _ := True
  rely_refl _ _ := rfl
  rely_trans h h' := h'.trans h
  keeps {w t e a r s} hi hpre hact := by
    obtain ⟨-, hcall⟩ := processSystem_act hact
    have hflag := processCall_isTerminated hcall
    refine ⟨?_, fun t' ht' => congrArg Round.of (World.own_push_ne w s ⟨e, r⟩ ht')⟩
    by_cases ht : t = 0
    · subst ht
      rw [World.own_push_self, Round.of_push, Round.next_noticed, World.push_state, hflag]
      refine ⟨always_push.mpr ⟨hi.1, hpre rfl⟩, ?_⟩
      intro hn
      rcases Bool.or_eq_true_iff.mp hn with hn | hn
      · rw [hi.2 hn, Bool.true_or]
      · rw [hn, Bool.or_true]
    · rw [World.own_push_ne w s ⟨e, r⟩ (Ne.symm ht), World.push_state, hflag]
      refine ⟨hi.1, ?_⟩
      intro hn
      rw [hi.2 hn, Bool.true_or]

theorem knows_round (joinFails : Bool) : (@roundContract β joinFails).Knows 0 roundView
    (fun w => Round.of (w.own 0)) where
  stable hrely := hrely
  pre _ hmay _ := hmay
  act {w e a r s} hi _ hact := by
    obtain ⟨-, hcall⟩ := processSystem_act hact
    refine ⟨fun hn b heq => ?_, by rw [World.own_push_self, Round.of_push]; rfl⟩
    cases heq
    cases hcall
    rw [hi.2 hn, Bool.true_or]
  spins _ := trivial

/-- A worker may do what it likes. -/
theorem round_worker {joinFails : Bool} {t : Nat} (ht : t ≠ 0) {α : Type} (p : ServerProg β α)
    (w : ProcessWorld β) : (roundContract joinFails).wp t p (fun _ _ => True) w := by
  induction p generalizing w with
  | ret a => exact fun _ _ _ => trivial
  | spin => exact fun _ _ _ => trivial
  | call e k ih => exact fun w' _ _ => ⟨fun h => absurd h ht, fun a r s _ => ih r _⟩

theorem round_good (joinFails : Bool) (garbage : Option Nat) (n polls : Nat) (rounds : Nat → Nat)
    (file : String) : (@roundContract β joinFails).Good (fun _ _ _ => True)
      (pollingStart garbage n polls rounds file) := by
  refine ⟨⟨always_nil, fun hn => (by cases hn)⟩, ?_⟩
  intro t
  by_cases ht : t = 0
  · subst ht
    exact (knows_round joinFails).wp (w := processStart garbage) (round_application n polls)
  · exact round_worker ht _ _

/-! ## What is left to do -/

theorem Round.of_noticed (es : List (SysEvent β)) : (Round.of es).noticed = es.any notices := by
  induction es using List.reverseRecOn with
  | nil => rfl
  | append_singleton es x ih =>
    rw [Round.of_push, Round.next_noticed, ih, List.any_append]
    simp

/-- What `application` may do, it does in turn. -/
theorem Round.next_inTurn {v : Round} {x : SysEvent β} (hmay : roundView.may v x.1)
    (hdone : v.done.Sublist oneRound) (hfound : v.found ≤ 2) :
    (v.next x).done.Sublist oneRound ∧ (v.next x).found ≤ 2 := by
  obtain ⟨e, r⟩ := x
  obtain ⟨hturn, hlook⟩ := hmay
  rcases e.kinds with ⟨hplain, -⟩ | ⟨k, hk⟩ | rfl | rfl
  · rw [Round.next_plain v hplain]
    exact ⟨hdone, hfound⟩
  · rw [Round.next_errand v hk]
    exact ⟨(hturn k hk).2, hfound⟩
  · cases r with
    | true => exact ⟨List.nil_sublist _, Nat.succ_le_succ (hlook rfl)⟩
    | false => exact ⟨List.nil_sublist _, hfound⟩
  · exact ⟨hdone, hfound⟩

theorem Orderly.inTurn {es : List (SysEvent β)} (h : Orderly es) :
    (Round.of es).done.Sublist oneRound ∧ (Round.of es).found ≤ 2 := by
  induction es using List.reverseRecOn with
  | nil => exact ⟨List.nil_sublist _, Nat.zero_le 2⟩
  | append_singleton es x ih =>
    obtain ⟨hes, hx⟩ := always_push.mp h
    rw [Round.of_push]
    exact Round.next_inTurn hx (ih hes).1 (ih hes).2

/-- **From a moment on at which the flag is set**: what was done since the last look, with all that
follows, is at most one round. -/
theorem errands_left : ∀ (post : List (SysEvent β)) (v : Round),
    Always (fun pre x => roundView.may (pre.foldl Round.next v) x.1) post →
    ⟨.isTerminated, false⟩ ∉ post → v.done.Sublist oneRound → v.found ≤ 2 →
    (v.done ++ errands post).Sublist oneRound ∧ v.found + post.countP looks ≤ 2 ∧
      (v.noticed = true → errands post = []) := by
  intro post
  induction post with
  | nil =>
    intro v _ _ hdone hfound
    exact ⟨by simpa [errands] using hdone, hfound, fun _ => rfl⟩
  | cons x post ih =>
    intro v hmay hset hdone hfound
    obtain ⟨hx, hrest⟩ := always_cons.mp hmay
    obtain ⟨hdone', hfound'⟩ := Round.next_inTurn hx hdone hfound
    obtain ⟨hsub, hlooks, hnone⟩ :=
      ih (v.next x) hrest (fun hmem => hset (List.mem_cons_of_mem x hmem)) hdone' hfound'
    obtain ⟨e, r⟩ := x
    rcases e.kinds with ⟨hplain, hk⟩ | ⟨k, hk⟩ | rfl | rfl
    · rw [Round.next_plain v hplain] at hsub hlooks hnone
      have herrands : errands (⟨e, r⟩ :: post) = errands post := List.filterMap_cons_none hk
      have hlook : looks ⟨e, r⟩ = false := by
        cases e <;> first | rfl | cases hplain
      rw [herrands, List.countP_cons_of_neg (by rw [hlook]; exact Bool.false_ne_true)]
      exact ⟨hsub, hlooks, hnone⟩
    · rw [Round.next_errand v hk] at hsub hlooks
      have herrands : errands (⟨e, r⟩ :: post) = k :: errands post := List.filterMap_cons_some hk
      have hlook : looks ⟨e, r⟩ = false := by
        cases e <;> first | rfl | cases hk
      rw [herrands, List.countP_cons_of_neg (by rw [hlook]; exact Bool.false_ne_true)]
      refine ⟨?_, hlooks, ?_⟩
      · rw [List.append_cons]
        exact hsub
      · intro hn
        cases (hx.1 k hk).1.symm.trans hn
    · cases r with
      | false => exact absurd List.mem_cons_self hset
      | true =>
        have herrands : errands (⟨.isTerminated, true⟩ :: post : List (SysEvent β)) = [] :=
          hnone rfl
        rw [herrands, List.countP_cons_of_pos (by rfl)]
        have hcount : v.found + 1 + post.countP looks ≤ 2 := hlooks
        exact ⟨by rwa [List.append_nil], by omega, fun _ => rfl⟩
    · have herrands : errands (⟨.setIsTerminated, r⟩ :: post : List (SysEvent β)) = [] := hnone rfl
      rw [herrands, List.countP_cons_of_neg (by exact Bool.false_ne_true)]
      exact ⟨by rwa [List.append_nil], hlooks, fun _ => rfl⟩

/--
**The last round.**

In every run of `application` among its workers, with any answers: take any moment after which no
reading of `is_terminated` finds it clear, such as that of a signal. From then on `application`
reads the clock, accepts, sleeps, allocates a node and creates a thread at most once each, in this
order, and it looks at the flag at most twice. Once it has seen the flag set, or set it itself, it
does none of this any more.
-/
theorem last_round (joinFails : Bool) (garbage : Option Nat) (n polls : Nat) (rounds : Nat → Nat)
    (file : String) (schedule : List (Nat × Answers β))
    (c : Config (@Sys.Ret β) Process (Option Int))
    (hrun : (processSystem joinFails).run (pollingStart garbage n polls rounds file) schedule
      = some c)
    (pre post : List (SysEvent β)) (hsplit : c.world.own 0 = pre ++ post)
    (hset : ⟨.isTerminated, false⟩ ∉ post) :
    (errands post).Sublist oneRound ∧ post.countP looks ≤ 2 ∧
    ((∃ x ∈ pre, notices x = true) → errands post = []) := by
  obtain ⟨⟨horderly, -⟩, -⟩ := (round_good joinFails garbage n polls rounds file).run hrun
  rw [hsplit] at horderly
  have hpre : Orderly pre := by
    intro p x q heq
    exact horderly p x (q ++ post) (by rw [heq]; simp)
  have hpost : Always (fun p x => roundView.may (p.foldl Round.next (Round.of pre)) x.1) post := by
    intro p x q heq
    rw [show p.foldl Round.next (Round.of pre) = Round.of (pre ++ p) from
      List.foldl_append.symm]
    exact horderly (pre ++ p) x q (by rw [heq]; simp)
  obtain ⟨hdone, hfound⟩ := hpre.inTurn
  obtain ⟨hsub, hlooks, hnone⟩ := errands_left post (Round.of pre) hpost hset hdone hfound
  refine ⟨(List.sublist_append_right _ _).trans hsub, by omega, ?_⟩
  intro hnoticed
  refine hnone ?_
  rw [Round.of_noticed, List.any_eq_true]
  exact hnoticed

/-- A signal during the poll that finds a client. -/
def lateSignal : List (Nat × Answers UInt8) :=
  List.replicate 14 (0, ⟨fun e => match e with
    | .accept => .ok 4
    | .errno => eagain
    | e => goodAnswers 0 none false e, false⟩) ++ turns 1 0 0 none true

/-- A reading that finds the flag clear. -/
def looksClear : SysEvent β → Bool
  | ⟨.isTerminated, r⟩ => !r
  | _ => false

/-- The whole of a last round may come after the signal. -/
theorem last_round_full :
    ∃ c pre post, (processSystem false).run (pollingStart none 3 3 (fun _ => 2) (resultFile true))
        lateSignal = some c ∧ c.world.own 0 = pre ++ post ∧ errands post = oneRound ∧
      post.countP looks ≤ 2 := by
  have hrun : ((processSystem false).run
      (pollingStart none 3 3 (fun _ => 2) (resultFile true)) lateSignal).map
      (fun c => (errands ((c.world.own 0).drop 4), ((c.world.own 0).drop 4).any looksClear))
      = some (oneRound, false) := by
    decide +kernel
  obtain ⟨c, hc, heq⟩ := Option.map_eq_some_iff.mp hrun
  obtain ⟨herrands, hclear⟩ := Prod.mk.inj heq
  have hset : (⟨.isTerminated, false⟩ : SysEvent UInt8) ∉ (c.world.own 0).drop 4 := by
    intro hmem
    rw [List.any_eq_true.mpr ⟨_, hmem, rfl⟩] at hclear
    cases hclear
  have hsplit := (List.take_append_drop 4 (c.world.own 0)).symm
  obtain ⟨-, hlooks, -⟩ := last_round false none 3 3 (fun _ => 2) (resultFile true) lateSignal c hc
    _ _ hsplit hset
  exact ⟨c, _, _, hc, hsplit, herrands, hlooks⟩

end Aesd.Server

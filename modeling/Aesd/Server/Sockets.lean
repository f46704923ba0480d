import Aesd.Server.Descriptors
import Aesd.Server.Polling

/-!
# Who closes a client socket

A socket that `accept` returned is in the hands of `application` until a thread is created for it,
and from then on it is the thread's. Each of them closes it on every way out, and nobody closes
anything else, as long as the polling loop finds `EAGAIN` in `errno` whenever it looks.

If it finds something else, `socket_client_create_connection` returns `-1` and has not stored a
descriptor. `application` then closes `client_socket`, which is still 0.
-/

namespace Aesd.Server

open Infra Prog
open Handling (held returns Fresh Owned held_push_out held_push_back held_push_none held_push)

variable {β : Type}

/-! ## The ledger -/

/-- What a call does with the descriptors of the process. -/
def processFd : Nat × SysEvent β → Handling Int
  | (_, ⟨.accept, .ok fd⟩) => .out fd
  | (_, ⟨.getClientFd _, _⟩) => .none
  | (_, x) => fdAct x

/-- Who is to close a descriptor. -/
inductive Holder where
  | application
  /-- the thread of a node, whose client it is -/
  | client (node : Nat)
  /-- a thread that opened the result file -/
  | file (thread : Nat)
  deriving DecidableEq, Repr

/-- The open descriptors, and the clients of the nodes. -/
structure Ledger where
  holder : Int → Option Holder
  clientOf : Nat → Option Int

namespace Ledger

def empty : Ledger := ⟨fun _ => none, fun _ => none⟩

/-- The thread of node `n` is created. -/
def handOver (l : Ledger) (n : Nat) (fd : Int) : Option Holder :=
  if l.clientOf n = some fd ∧ l.holder fd = some .application then some (.client n)
  else l.holder fd

def note (l : Ledger) : Nat × SysEvent β → Ledger
  | (_, ⟨.accept, .ok fd⟩) =>
    { l with holder := Function.update l.holder fd (some .application) }
  | (t, ⟨.openFile _ _, fd⟩) =>
    if 0 ≤ fd then { l with holder := Function.update l.holder fd (some (.file t)) } else l
  | (_, ⟨.close fd, _⟩) => { l with holder := Function.update l.holder fd none }
  | (_, ⟨.mallocNode fd, n⟩) => { l with clientOf := Function.update l.clientOf n (some fd) }
  | (_, ⟨.pthreadCreate n, r⟩) => if r.1 = 0 then { l with holder := l.handOver n } else l
  | _ => l

/-- After these calls. -/
def of (tr : Trace β) : Ledger := tr.foldl note empty

@[simp] theorem of_push (tr : Trace β) (x : Nat × SysEvent β) :
    of (tr ++ [x]) = (of tr).note x := by
  simp [of, List.foldl_append]

theorem handOver_isSome (l : Ledger) (n : Nat) (fd : Int) :
    (l.handOver n fd).isSome = (l.holder fd).isSome := by
  unfold handOver
  split
  · rename_i h
    rw [h.2]
    rfl
  · rfl

end Ledger

/-- The holder is thread `t`. -/
def Belongs (t : Nat) : Option Holder → Prop
  | some .application => t = 0
  | some (.client n) => n = t
  | some (.file u) => u = t
  | none => False

/-- Every socket is closed once, and nobody closes what is not his. -/
structure SocketsOwned (c : Config (@Sys.Ret β) Process (Option Int)) : Prop where
  closes : Always (fun pre x => ∀ fd, x.2.1 = .close fd →
    Belongs x.1 ((Ledger.of pre).holder fd)) c.world.trace
  once : ∀ r, c.prog 0 = .ret (some r) → ∀ pre t (fd : Nat) post,
    c.world.trace = pre ++ (t, ⟨.accept, .ok fd⟩) :: post → returns processFd fd post = 1

/-! ## The ledger is right -/

theorem processFd_accept (t fd : Nat) :
    processFd ((t, ⟨.accept, .ok fd⟩) : Nat × SysEvent β) = .out (fd : Int) := rfl

/-- One more call, and what is open. -/
theorem note_isSome (l : Ledger) (x : Nat × SysEvent β) (fd : Int) :
    ((l.note x).holder fd).isSome
      = Handling.after processFd (fun fd => (l.holder fd).isSome) x fd := by
  obtain ⟨t, e, r⟩ := x
  cases e with
  | accept =>
    cases r with
    | error e => rfl
    | ok fd' =>
      show (Function.update l.holder fd' (some .application) fd).isSome
        = Function.update (fun fd => (l.holder fd).isSome) fd' true fd
      by_cases h : fd = fd' <;> simp [h]
  | openFile file flags =>
    unfold Ledger.note Handling.after processFd fdAct
    dsimp only
    split
    · by_cases h : fd = r <;> simp [h]
    · rfl
  | close fd' =>
    show (Function.update l.holder fd' none fd).isSome
      = Function.update (fun fd => (l.holder fd).isSome) fd' false fd
    by_cases h : fd = fd' <;> simp [h]
  | pthreadCreate n =>
    show ((if r.1 = 0 then { l with holder := l.handOver n } else l : Ledger).holder fd).isSome
      = (l.holder fd).isSome
    split
    · exact l.handOver_isSome n fd
    · rfl
  | _ => rfl

/-- A descriptor is open exactly if it has a holder. -/
theorem holder_isSome (tr : Trace β) (fd : Int) :
    ((Ledger.of tr).holder fd).isSome = held processFd tr fd := by
  induction tr using List.reverseRecOn generalizing fd with
  | nil => rfl
  | append_singleton tr x ih =>
    rw [Ledger.of_push, note_isSome, held_push]
    congr 1
    exact funext ih

/-- A socket is not mistaken for a file while it is open. -/
theorem note_socket {l : Ledger} {x : Nat × SysEvent β} {fd : Int}
    (hl : l.holder fd = some .application ∨ ∃ n, l.holder fd = some (.client n))
    (hout : processFd x ≠ .out fd) (hback : processFd x ≠ .back fd) :
    (l.note x).holder fd = some .application ∨ ∃ n, (l.note x).holder fd = some (.client n) := by
  obtain ⟨t, e, r⟩ := x
  cases e with
  | accept =>
    cases r with
    | error e => exact hl
    | ok fd' =>
      have hne : fd ≠ fd' := fun hc => hout (by rw [hc]; rfl)
      show Function.update l.holder fd' _ fd = _ ∨ ∃ n, Function.update l.holder fd' _ fd = _
      simpa only [Function.update_of_ne hne] using hl
  | openFile file flags =>
    by_cases hfd : 0 ≤ r
    · have hne : fd ≠ r := fun hc => hout (by rw [hc]; exact fdAct_open hfd)
      simp only [Ledger.note, if_pos hfd, Function.update_of_ne hne]
      exact hl
    · simp only [Ledger.note, if_neg hfd]
      exact hl
  | close fd' =>
    have hne : fd ≠ fd' := fun hc => hback (by rw [hc]; rfl)
    show Function.update l.holder fd' _ fd = _ ∨ ∃ n, Function.update l.holder fd' _ fd = _
    simpa only [Function.update_of_ne hne] using hl
  | pthreadCreate n =>
    by_cases hr : r.1 = 0
    · simp only [Ledger.note, if_pos hr, Ledger.handOver]
      split
      · exact Or.inr ⟨n, rfl⟩
      · exact hl
    · simp only [Ledger.note, if_neg hr]
      exact hl
  | _ => exact hl

/-! ## The invariant -/

/-- What `application` has, with its nodes. -/
structure MainOwns (l : Ledger) (s : Process) (h : Hand) : Prop where
  hand : ∀ fd, l.holder fd = some .application ↔ h.socket = some fd
  /-- there is no node 0 -/
  zero : ∀ fd, l.holder fd ≠ some (.client 0)
  node : ∀ n fd, h.node = some (n, fd) →
    n ≠ 0 ∧ n < s.fresh ∧ s.life n = .unborn ∧ l.clientOf n = some fd
  nodes : ∀ n x, s.node n = some x → l.clientOf n = some x.clientFd
  fresh : 0 < s.fresh ∧ ∀ n, s.fresh ≤ n → s.life n = .unborn

/-- What the thread of node `n` has: from its creation on the socket, and what it opened. -/
structure WorkerOwns (n : Nat) (l : Ledger) (life : Life) (es : List (SysEvent β)) : Prop where
  unborn : life = .unborn → es = []
  client : ∀ fd, l.holder fd = some (.client n) → life = .running ∧ l.clientOf n = some fd ∧
    (Started n es → ⟨.getClientFd n, fd⟩ ∈ es ∧ held fdAct es fd = true)
  born : life = .running → ¬Started n es →
    ∃ fd, l.clientOf n = some fd ∧ l.holder fd = some (.client n)
  own : ∀ fd, held fdAct es fd = true → l.holder fd = some (.file n) ∨
    l.holder fd = some (.client n) ∧ ⟨.getClientFd n, fd⟩ ∈ es

def Owns (w : ProcessWorld β) : Prop :=
  MainOwns (Ledger.of w.trace) w.state (Hand.of (w.own 0)) ∧
    ∀ n, n ≠ 0 → WorkerOwns n (Ledger.of w.trace) (w.state.life n) (w.own n)

/-- After a call of `application`. -/
theorem owns_push_main {w : ProcessWorld β} {s : Process} {x : SysEvent β}
    (hmain : MainOwns ((Ledger.of w.trace).note (0, x)) s ((Hand.of (w.own 0)).next x))
    (hworkers : ∀ n, n ≠ 0 →
      WorkerOwns n ((Ledger.of w.trace).note (0, x)) (s.life n) (w.own n)) :
    Owns (w.push 0 s x) := by
  refine ⟨?_, fun n hn => ?_⟩
  · rw [World.push_trace, Ledger.of_push, World.own_push_self, Hand.of_push]
    exact hmain
  · rw [World.push_trace, Ledger.of_push, World.own_push_ne w s x hn]
    exact hworkers n hn

/-- After a call of a worker. -/
theorem owns_push_worker {w : ProcessWorld β} {s : Process} {x : SysEvent β} {t : Nat} (ht : t ≠ 0)
    (hmain : MainOwns ((Ledger.of w.trace).note (t, x)) s (Hand.of (w.own 0)))
    (hself : WorkerOwns t ((Ledger.of w.trace).note (t, x)) (s.life t) (w.own t ++ [x]))
    (hothers : ∀ n, n ≠ 0 → n ≠ t →
      WorkerOwns n ((Ledger.of w.trace).note (t, x)) (s.life n) (w.own n)) :
    Owns (w.push t s x) := by
  refine ⟨?_, fun n hn => ?_⟩
  · rw [World.push_trace, Ledger.of_push, World.own_push_ne w s x (Ne.symm ht)]
    exact hmain
  · rw [World.push_trace, Ledger.of_push]
    by_cases hnt : n = t
    · subst hnt
      rw [World.own_push_self]
      exact hself
    · rw [World.own_push_ne w s x hnt]
      exact hothers n hn hnt

/-- Nothing changes that matters here: no node is added, and no thread starts or ends. -/
structure Alike (s s' : Process) : Prop where
  nodes : ∀ n x', s'.node n = some x' → ∃ x, s.node n = some x ∧ x.clientFd = x'.clientFd
  fresh : s'.fresh = s.fresh
  running : ∀ n, s'.life n = .running ↔ s.life n = .running
  unborn : ∀ n, s'.life n = .unborn ↔ s.life n = .unborn

theorem Alike.of_eq {s s' : Process} (hnode : s'.node = s.node) (hfresh : s'.fresh = s.fresh)
    (hlife : s'.life = s.life) : Alike s s' where
  nodes n x' hx' := ⟨x', by rw [← hnode, hx'], rfl⟩
  fresh := hfresh
  running n := by rw [hlife]
  unborn n := by rw [hlife]

/-- A store to a field of a node other than `client_fd`. -/
theorem Alike.modify (s : Process) (n : Nat) {f : Node → Node}
    (hf : ∀ x, (f x).clientFd = x.clientFd) : Alike s (s.modify n f) where
  nodes m x' hx' := by
    simp only [Process.modify] at hx'
    by_cases hm : m = n
    · subst hm
      rw [Function.update_self] at hx'
      obtain ⟨x, hx, rfl⟩ := Option.map_eq_some_iff.mp hx'
      exact ⟨x, hx, (hf x).symm⟩
    · rw [Function.update_of_ne hm] at hx'
      exact ⟨x', hx', rfl⟩
  fresh := rfl
  running _ := Iff.rfl
  unborn _ := Iff.rfl

theorem Alike.free (s : Process) (n : Nat) : Alike s (s.free n) where
  nodes m x' hx' := by
    simp only [Process.free] at hx'
    by_cases hm : m = n
    · rw [hm, Function.update_self] at hx'
      cases hx'
    · rw [Function.update_of_ne hm] at hx'
      exact ⟨x', hx', rfl⟩
  fresh := rfl
  running _ := Iff.rfl
  unborn _ := Iff.rfl

theorem Alike.join {s : Process} {n : Nat} (hn : s.life n = .ended) :
    Alike s (s.advance n .joined) where
  nodes m x' hx' := ⟨x', hx', rfl⟩
  fresh := rfl
  running m := by
    by_cases hm : m = n
    · simp [Process.advance, hm, hn]
    · simp [Process.advance, hm]
  unborn m := by
    by_cases hm : m = n
    · simp [Process.advance, hm, hn]
    · simp [Process.advance, hm]

/-- The calls that add a node, or start or end a thread. -/
def Sys.isLoud : Sys β → Bool
  | .mallocNode _ | .pthreadCreate _ | .pthreadExit => true
  | _ => false

theorem processCall_alike {t : Nat} {e : Sys β} {s s' : Process} {a : Answers β} {r : e.Ret}
    (he : e.isLoud = false) (hcall : processCall false t e s a = some (r, s')) : Alike s s' := by
  cases e with
  | setThreadStatus n _ | setThread n _ | setNext n _ =>
    obtain ⟨x, -, heq⟩ := Option.map_eq_some_iff.mp hcall
    cases heq
    exact Alike.modify s n fun _ => rfl
  | freeNode n =>
    obtain ⟨x, -, heq⟩ := Option.map_eq_some_iff.mp hcall
    cases heq
    exact Alike.free s n
  | mutexLock | mutexUnlock =>
    obtain ⟨-, heq⟩ := Option.ite_none_right_eq_some.mp hcall
    cases heq
    exact Alike.of_eq rfl rfl rfl
  | pthreadJoin n =>
    simp only [processCall, Bool.false_eq_true, false_and, if_false] at hcall
    obtain ⟨hended, heq⟩ := Option.ite_none_right_eq_some.mp hcall
    cases heq
    exact Alike.join hended
  | mallocNode _ | pthreadCreate _ | pthreadExit => cases he
  | setFirst _ | isTerminated | setIsTerminated =>
    cases hcall
    exact Alike.of_eq rfl rfl rfl
  | _ =>
    obtain rfl := processCall_passive rfl hcall
    exact Alike.of_eq rfl rfl rfl

/-! ## What others do -/

section Frame

variable {l l' : Ledger} {s s' : Process} {h : Hand} {n : Nat} {life life' : Life}
  {es : List (SysEvent β)}

/-- A call that leaves the descriptors of thread `n` alone. -/
theorem WorkerOwns.frame (ho : WorkerOwns n l life es)
    (hclient : ∀ fd, l'.holder fd = some (.client n) ↔ l.holder fd = some (.client n))
    (hfile : ∀ fd, l.holder fd = some (.file n) → l'.holder fd = some (.file n))
    (hof : life = .running → l'.clientOf n = l.clientOf n)
    (hrunning : life' = .running ↔ life = .running)
    (hunborn : life' = .unborn ↔ life = .unborn) : WorkerOwns n l' life' es where
  unborn hu := ho.unborn (hunborn.mp hu)
  client fd hfd := by
    obtain ⟨hrun, hcl, hstarted⟩ := ho.client fd ((hclient fd).mp hfd)
    exact ⟨hrunning.mpr hrun, by rw [hof hrun, hcl], hstarted⟩
  born hrun hnot := by
    obtain ⟨fd, hcl, hfd⟩ := ho.born (hrunning.mp hrun) hnot
    exact ⟨fd, by rw [hof (hrunning.mp hrun), hcl], (hclient fd).mpr hfd⟩
  own fd hfd := by
    rcases ho.own fd hfd with hf | ⟨hc, hm⟩
    · exact Or.inl (hfile fd hf)
    · exact Or.inr ⟨(hclient fd).mpr hc, hm⟩

theorem WorkerOwns.alike (ho : WorkerOwns n l (s.life n) es) (hs : Alike s s') :
    WorkerOwns n l (s'.life n) es :=
  ho.frame (fun _ => Iff.rfl) (fun _ hf => hf) (fun _ => rfl) (hs.running n) (hs.unborn n)

/-- A call that leaves the descriptors of `application` alone. -/
theorem MainOwns.frame (hm : MainOwns l s h) (hs : Alike s s')
    (happ : ∀ fd, l'.holder fd = some .application ↔ l.holder fd = some .application)
    (hzero : ∀ fd, l'.holder fd = some (.client 0) → l.holder fd = some (.client 0))
    (hof : l'.clientOf = l.clientOf) : MainOwns l' s' h where
  hand fd := (happ fd).trans (hm.hand fd)
  zero fd hc := hm.zero fd (hzero fd hc)
  node m fd hn := by
    obtain ⟨h0, hlt, hunborn, hcl⟩ := hm.node m fd hn
    exact ⟨h0, by rw [hs.fresh]; exact hlt, (hs.unborn m).mpr hunborn, by rw [hof, hcl]⟩
  nodes m x' hx' := by
    obtain ⟨x, hx, hfd⟩ := hs.nodes m x' hx'
    rw [hof, hm.nodes m x hx, hfd]
  fresh := by
    rw [hs.fresh]
    exact ⟨hm.fresh.1, fun m hle => (hs.unborn m).mpr (hm.fresh.2 m hle)⟩

end Frame

/-! ## The calls of a worker -/

section Worker

variable {w : ProcessWorld β} {t : Nat} {s : Process} {x : SysEvent β}

/-- A call of thread `t`, by what it does to the ledger. -/
theorem Owns.worker (ho : Owns w) (ht : t ≠ 0) (hs : Alike w.state s)
    (hof : ((Ledger.of w.trace).note (t, x)).clientOf = (Ledger.of w.trace).clientOf)
    (happ : ∀ fd, ((Ledger.of w.trace).note (t, x)).holder fd = some .application ↔
      (Ledger.of w.trace).holder fd = some .application)
    (hclient : ∀ n, n ≠ t → ∀ fd, ((Ledger.of w.trace).note (t, x)).holder fd = some (.client n) ↔
      (Ledger.of w.trace).holder fd = some (.client n))
    (hfile : ∀ n, n ≠ t → ∀ fd, (Ledger.of w.trace).holder fd = some (.file n) →
      ((Ledger.of w.trace).note (t, x)).holder fd = some (.file n))
    (hself : WorkerOwns t ((Ledger.of w.trace).note (t, x)) (w.state.life t) (w.own t ++ [x])) :
    Owns (w.push t s x) := by
  refine owns_push_worker ht ?_ (hself.alike hs) fun n hn hnt => ?_
  · exact ho.1.frame hs happ (fun fd => (hclient 0 (Ne.symm ht) fd).mp) hof
  · exact (ho.2 n hn).frame (hclient n hnt) (hfile n hnt) (fun _ => by rw [hof]) (hs.running n)
      (hs.unborn n)

/-- Started or not, as before. -/
theorem started_push {es : List (SysEvent β)} (hx : ∀ c, x ≠ ⟨.getClientFd t, c⟩) :
    Started t (es ++ [x]) ↔ Started t es := by
  unfold Started
  refine exists_congr fun c => ?_
  rw [List.mem_append, List.mem_singleton]
  exact or_iff_left fun hc => hx c hc.symm

/-- A call that opens and closes nothing. -/
theorem Owns.quiet (ho : Owns w) (ht : t ≠ 0) (hrun : w.state.life t = .running)
    (hs : Alike w.state s) (hx : fdAct x = .none) (hnote : ∀ l : Ledger, l.note (t, x) = l) :
    Owns (w.push t s x) := by
  refine ho.worker ht hs (by rw [hnote]) (fun fd => by rw [hnote]) (fun n _ fd => by rw [hnote])
    (fun n _ fd hf => by rw [hnote, hf]) ?_
  have hw := ho.2 t ht
  rw [hnote]
  constructor
  · intro hc
    rw [hrun] at hc
    cases hc
  · intro fd hfd
    obtain ⟨hr, hcl, hstarted⟩ := hw.client fd hfd
    refine ⟨hr, hcl, fun hst => ?_⟩
    obtain ⟨hm, hheld⟩ := hstarted ((started_push (not_getClientFd hx)).mp hst)
    exact ⟨List.mem_append_left _ hm, by rw [held_push_none hx, hheld]⟩
  · intro hr hnot
    exact hw.born hr fun hst => hnot ((started_push (not_getClientFd hx)).mpr hst)
  · intro fd hfd
    rw [held_push_none hx] at hfd
    exact (hw.own fd hfd).imp_right fun ⟨hc, hm⟩ => ⟨hc, List.mem_append_left _ hm⟩

/-- The worker looks up its client. -/
theorem Owns.starts (ho : Owns w) (ht : t ≠ 0) (hrun : w.state.life t = .running)
    (hnot : ¬Started t (w.own t)) {c : Int} (hc : (Ledger.of w.trace).clientOf t = some c) :
    Owns (w.push t w.state ⟨.getClientFd t, c⟩) := by
  have hs : Alike w.state w.state := Alike.of_eq rfl rfl rfl
  refine ho.worker ht hs rfl (fun _ => Iff.rfl) (fun _ _ _ => Iff.rfl) (fun _ _ _ hf => hf) ?_
  have hw := ho.2 t ht
  have hout : fdAct (⟨.getClientFd t, c⟩ : SysEvent β) = .out c := rfl
  obtain ⟨fd, hcl, hholder⟩ := hw.born hrun hnot
  obtain rfl : c = fd := Option.some.inj (hc.symm.trans hcl)
  constructor
  · intro hu
    rw [hrun] at hu
    cases hu
  · intro fd hfd
    obtain ⟨hr, hcl', -⟩ := hw.client fd hfd
    obtain rfl : c = fd := Option.some.inj (hc.symm.trans hcl')
    exact ⟨hr, hcl', fun _ => ⟨by simp, by rw [held_push_out hout, Function.update_self]⟩⟩
  · intro _ hnot'
    exact absurd ⟨c, by simp⟩ hnot'
  · intro fd hfd
    rw [held_push_out hout] at hfd
    by_cases heq : fd = c
    · rw [heq]
      exact Or.inr ⟨hholder, by simp⟩
    · rw [Function.update_of_ne heq] at hfd
      exact (hw.own fd hfd).imp_right fun ⟨hc, hm⟩ => ⟨hc, List.mem_append_left _ hm⟩

/-- A worker opens the result file. -/
theorem Owns.opens (ho : Owns w) (ht : t ≠ 0) (hrun : w.state.life t = .running)
    (file : String) (flags : OpenFlags) {fd : Int} (hfd : 0 ≤ fd)
    (hnone : (Ledger.of w.trace).holder fd = none) :
    Owns (w.push t w.state ⟨.openFile file flags, fd⟩) := by
  have hs : Alike w.state w.state := Alike.of_eq rfl rfl rfl
  have hnote : (Ledger.of w.trace).note ((t, ⟨.openFile file flags, fd⟩) : Nat × SysEvent β)
      = ⟨Function.update (Ledger.of w.trace).holder fd (some (.file t)),
        (Ledger.of w.trace).clientOf⟩ := if_pos hfd
  have hx : ∀ c, (⟨.openFile file flags, fd⟩ : SysEvent β) ≠ ⟨.getClientFd t, c⟩ := nofun
  -- what has another holder stays as it is
  have hother : ∀ {fd'} {x : Holder}, x ≠ .file t →
      (Function.update (Ledger.of w.trace).holder fd (some (.file t)) fd' = some x ↔
        (Ledger.of w.trace).holder fd' = some x) := by
    intro fd' x hne
    by_cases heq : fd' = fd
    · rw [heq, Function.update_self, hnone]
      simp [Ne.symm hne]
    · rw [Function.update_of_ne heq]
  refine ho.worker ht hs (by rw [hnote]) (fun fd' => ?_) (fun n hn fd' => ?_)
    (fun n hn fd' hf => ?_) ?_
  · rw [hnote]
    exact hother nofun
  · rw [hnote]
    exact hother nofun
  · rw [hnote]
    exact (hother fun hc => hn (Holder.file.inj hc)).mpr hf
  have hw := ho.2 t ht
  rw [hnote]
  constructor
  · intro hu
    rw [hrun] at hu
    cases hu
  · intro fd' hfd'
    obtain ⟨hr, hcl, hstarted⟩ := hw.client fd' ((hother (x := .client t) nofun).mp hfd')
    refine ⟨hr, hcl, fun hst => ?_⟩
    obtain ⟨hm, hheld⟩ := hstarted ((started_push hx).mp hst)
    refine ⟨List.mem_append_left _ hm, ?_⟩
    rw [held_push_out (fdAct_open hfd)]
    by_cases heq : fd' = fd
    · rw [heq, Function.update_self]
    · rw [Function.update_of_ne heq, hheld]
  · intro hr hnot
    obtain ⟨fd', hcl, hholder⟩ := hw.born hr fun hst => hnot ((started_push hx).mpr hst)
    exact ⟨fd', hcl, (hother (x := .client t) nofun).mpr hholder⟩
  · intro fd' hheld
    by_cases heq : fd' = fd
    · refine Or.inl ?_
      dsimp only
      rw [heq, Function.update_self]
    · rw [held_push_out (fdAct_open hfd), Function.update_of_ne heq] at hheld
      dsimp only
      rw [Function.update_of_ne heq]
      exact (hw.own fd' hheld).imp_right fun ⟨hc, hm⟩ => ⟨hc, List.mem_append_left _ hm⟩

theorem Owns.belongs (ho : Owns w) (ht : t ≠ 0) {fd : Int}
    (hheld : held fdAct (w.own t) fd = true) : Belongs t ((Ledger.of w.trace).holder fd) := by
  rcases (ho.2 t ht).own fd hheld with hf | ⟨hc, -⟩
  · rw [hf]
    rfl
  · rw [hc]
    rfl

/-- A worker closes what it holds. -/
theorem Owns.closes (ho : Owns w) (ht : t ≠ 0) (hrun : w.state.life t = .running) {fd : Int}
    (hheld : held fdAct (w.own t) fd = true) (r : Int) :
    Owns (w.push t w.state ⟨.close fd, r⟩) := by
  have hs : Alike w.state w.state := Alike.of_eq rfl rfl rfl
  have hbelongs := ho.belongs ht hheld
  have hx : ∀ c, (⟨.close fd, r⟩ : SysEvent β) ≠ ⟨.getClientFd t, c⟩ := nofun
  -- what belongs to someone else stays as it is
  have hother : ∀ {fd'} {x : Holder}, ¬Belongs t (some x) →
      (Function.update (Ledger.of w.trace).holder fd none fd' = some x ↔
        (Ledger.of w.trace).holder fd' = some x) := by
    intro fd' x hne
    by_cases heq : fd' = fd
    · rw [heq, Function.update_self]
      refine iff_of_false nofun fun hc => hne ?_
      rwa [hc] at hbelongs
    · rw [Function.update_of_ne heq]
  refine ho.worker ht hs rfl (fun fd' => ?_) (fun n hn fd' => ?_) (fun n hn fd' hf => ?_) ?_
  · exact hother (x := .application) ht
  · exact hother (x := .client n) hn
  · exact (hother (x := .file n) hn).mpr hf
  have hw := ho.2 t ht
  show WorkerOwns t
    ⟨Function.update (Ledger.of w.trace).holder fd none, (Ledger.of w.trace).clientOf⟩ _ _
  have hkept : ∀ {fd'} {x : Holder},
      Function.update (Ledger.of w.trace).holder fd none fd' = some x →
      fd' ≠ fd ∧ (Ledger.of w.trace).holder fd' = some x := by
    intro fd' x hx
    by_cases heq : fd' = fd
    · rw [heq, Function.update_self] at hx
      cases hx
    · rw [Function.update_of_ne heq] at hx
      exact ⟨heq, hx⟩
  constructor
  · intro hu
    rw [hrun] at hu
    cases hu
  · intro fd' hfd'
    obtain ⟨hne, hfd''⟩ := hkept hfd'
    obtain ⟨hr, hcl, hstarted⟩ := hw.client fd' hfd''
    refine ⟨hr, hcl, fun hst => ?_⟩
    obtain ⟨hm, hheld'⟩ := hstarted ((started_push hx).mp hst)
    refine ⟨List.mem_append_left _ hm, ?_⟩
    rw [held_push_back (fdAct_close fd r), Function.update_of_ne hne, hheld']
  · intro hr hnot
    have hnot' : ¬Started t (w.own t) := fun hst => hnot ((started_push hx).mpr hst)
    obtain ⟨fd', hcl, hholder⟩ := hw.born hr hnot'
    refine ⟨fd', hcl, ?_⟩
    have hne : fd' ≠ fd := by
      rintro rfl
      -- it would hold its socket without having looked it up
      rcases hw.own fd' hheld with hf | ⟨-, hm⟩
      · rw [hholder] at hf
        cases hf
      · exact hnot' ⟨fd', hm⟩
    dsimp only
    rw [Function.update_of_ne hne, hholder]
  · intro fd' hheld'
    rw [held_push_back (fdAct_close fd r)] at hheld'
    by_cases heq : fd' = fd
    · rw [heq, Function.update_self] at hheld'
      cases hheld'
    · rw [Function.update_of_ne heq] at hheld'
      dsimp only
      rw [Function.update_of_ne heq]
      exact (hw.own fd' hheld').imp_right fun ⟨hc, hm⟩ => ⟨hc, List.mem_append_left _ hm⟩

/-- A worker ends, without its socket. -/
theorem Owns.exits (ho : Owns w) (ht : t ≠ 0) (hrun : w.state.life t = .running)
    (hstarted : Started t (w.own t))
    (hclosed : ∀ c, ⟨.getClientFd t, c⟩ ∈ w.own t → held fdAct (w.own t) c = false) :
    Owns (w.push t (w.state.advance t .ended) ⟨.pthreadExit, ()⟩) := by
  have hlife : ∀ n, n ≠ t → (w.state.advance t .ended).life n = w.state.life n :=
    fun n hn => Function.update_of_ne hn ..
  have hended : (w.state.advance t .ended).life t = .ended := Function.update_self ..
  have hw := ho.2 t ht
  -- a thread that was not created so far is another one
  have hunborn : ∀ n, w.state.life n = .unborn →
      (w.state.advance t .ended).life n = .unborn := by
    intro n hn
    have hne : n ≠ t := by
      rintro rfl
      rw [hrun] at hn
      cases hn
    rw [hlife n hne, hn]
  refine owns_push_worker ht ?_ ?_ fun n hn hnt => ?_
  · refine ⟨ho.1.hand, ho.1.zero, fun n fd hnode => ?_, ho.1.nodes, ho.1.fresh.1, fun n hle => ?_⟩
    · obtain ⟨h0, hlt, hn, hcl⟩ := ho.1.node n fd hnode
      exact ⟨h0, hlt, hunborn n hn, hcl⟩
    · exact hunborn n (ho.1.fresh.2 n hle)
  · rw [hended]
    refine ⟨nofun, fun fd hfd => ?_, nofun, fun fd hheld => ?_⟩
    · obtain ⟨-, -, hst⟩ := hw.client fd hfd
      obtain ⟨hm, hheld⟩ := hst hstarted
      rw [hclosed fd hm] at hheld
      cases hheld
    · rw [held_push_none rfl] at hheld
      exact (hw.own fd hheld).imp_right fun ⟨hc, hm⟩ => ⟨hc, List.mem_append_left _ hm⟩
  · rw [hlife n hnt]
    exact ho.2 n hn

end Worker

/-! ## The calls of `application` -/

section Main

variable {w : ProcessWorld β} {s : Process} {x : SysEvent β} {h : Hand}

/-- A call of `application` that opens and closes nothing. -/
theorem Owns.mainQuiet (ho : Owns w) (hs : Alike w.state s)
    (hnote : ∀ l : Ledger, l.note (0, x) = l) (hnext : ∀ h : Hand, h.next x = h) :
    Owns (w.push 0 s x) := by
  refine owns_push_main ?_ fun n hn => ?_
  · rw [hnote, hnext]
    exact ho.1.frame hs (fun _ => Iff.rfl) (fun _ hc => hc) rfl
  · rw [hnote]
    exact (ho.2 n hn).alike hs

/-- A descriptor changes hands between `application` and the kernel. -/
theorem Owns.mainHolder (ho : Owns w) (fd : Int) {x' : Option Holder}
    (hnote : (Ledger.of w.trace).note (0, x) =
      ⟨Function.update (Ledger.of w.trace).holder fd x', (Ledger.of w.trace).clientOf⟩)
    (hwas : (Ledger.of w.trace).holder fd = none ∨
      (Ledger.of w.trace).holder fd = some .application)
    (hx' : x' = none ∨ x' = some .application)
    (hnode : ∀ h : Hand, (h.next x).node = h.node)
    (hhand : ∀ fd', Function.update (Ledger.of w.trace).holder fd x' fd' = some .application ↔
      ((Hand.of (w.own 0)).next x).socket = some fd') : Owns (w.push 0 w.state x) := by
  -- a worker has neither the old nor the new holder
  have hother : ∀ {fd'} {y : Holder}, y ≠ .application →
      (Function.update (Ledger.of w.trace).holder fd x' fd' = some y ↔
        (Ledger.of w.trace).holder fd' = some y) := by
    intro fd' y hy
    by_cases heq : fd' = fd
    · rw [heq, Function.update_self]
      refine iff_of_false (fun hc => ?_) fun hc => ?_
      · rcases hx' with hx' | hx' <;> rw [hx'] at hc <;> cases hc
        exact hy rfl
      · rcases hwas with hwas | hwas <;> rw [hwas] at hc <;> cases hc
        exact hy rfl
    · rw [Function.update_of_ne heq]
  refine owns_push_main ?_ fun n hn => ?_
  · rw [hnote]
    refine ⟨hhand, fun fd' hc => ?_, fun n fd' hn => ?_, ho.1.nodes, ho.1.fresh⟩
    · exact ho.1.zero fd' ((hother (y := .client 0) nofun).mp hc)
    · rw [hnode] at hn
      exact ho.1.node n fd' hn
  · rw [hnote]
    exact (ho.2 n hn).frame (fun fd' => hother (y := .client n) nofun)
      (fun fd' hf => (hother (y := .file n) nofun).mpr hf) (fun _ => rfl) Iff.rfl Iff.rfl

theorem Owns.accepts (ho : Owns w) {fd : Nat} (hempty : (Hand.of (w.own 0)).socket = none)
    (hnone : (Ledger.of w.trace).holder fd = none) :
    Owns (w.push 0 w.state ⟨.accept, .ok fd⟩) := by
  refine ho.mainHolder fd rfl (Or.inl hnone) (Or.inr rfl) (fun _ => rfl) fun fd' => ?_
  show _ ↔ some (fd : Int) = some fd'
  by_cases heq : fd' = fd
  · rw [heq, Function.update_self]
    simp
  · rw [Function.update_of_ne heq, ho.1.hand fd', hempty]
    simp [Ne.symm heq]

theorem Owns.mainCloses (ho : Owns w) {fd : Int} (hsocket : (Hand.of (w.own 0)).socket = some fd)
    (r : Int) : Owns (w.push 0 w.state ⟨.close fd, r⟩) := by
  refine ho.mainHolder fd rfl (Or.inr ((ho.1.hand fd).mpr hsocket)) (Or.inl rfl)
    (fun _ => rfl) fun fd' => ?_
  show _ ↔ none = some fd'
  refine iff_of_false (fun hc => ?_) nofun
  by_cases heq : fd' = fd
  · rw [heq, Function.update_self] at hc
    cases hc
  · rw [Function.update_of_ne heq, ho.1.hand fd', hsocket] at hc
    exact heq (Option.some.inj hc).symm

/-- A node is allocated for a socket. -/
theorem Owns.mallocs (ho : Owns w) (fd : Int) :
    Owns (w.push 0 (w.state.malloc fd) ⟨.mallocNode fd, w.state.fresh⟩) := by
  obtain ⟨hm, hworkers⟩ := ho
  -- the new node has no thread so far
  have hunborn : w.state.life w.state.fresh = .unborn := hm.fresh.2 _ (Nat.le_refl _)
  have hof : ∀ n, n ≠ w.state.fresh → Function.update (Ledger.of w.trace).clientOf w.state.fresh
      (some fd) n = (Ledger.of w.trace).clientOf n := fun n hn => Function.update_of_ne hn ..
  refine owns_push_main ?_ fun n hn => ?_
  · refine ⟨hm.hand, hm.zero, fun n fd' hn => ?_, fun n x hx => ?_, Nat.succ_pos _, fun n hle => ?_⟩
    · obtain ⟨rfl, rfl⟩ : w.state.fresh = n ∧ fd = fd' := by simpa [Hand.next] using hn
      exact ⟨Nat.ne_of_gt hm.fresh.1, Nat.lt_succ_self _, hunborn, Function.update_self ..⟩
    · show Function.update (Ledger.of w.trace).clientOf w.state.fresh (some fd) n = _
      by_cases heq : n = w.state.fresh
      · rw [heq] at hx ⊢
        simp only [Process.malloc, Function.update_self, Option.some.injEq] at hx
        rw [Function.update_self, ← hx]
      · simp only [Process.malloc, Function.update_of_ne heq] at hx
        rw [hof n heq, hm.nodes n x hx]
    · exact hm.fresh.2 n (Nat.le_of_succ_le hle)
  · refine (hworkers n hn).frame (fun _ => Iff.rfl) (fun _ hf => hf) (fun hrun => ?_) Iff.rfl
      Iff.rfl
    refine hof n ?_
    rintro rfl
    rw [hunborn] at hrun
    cases hrun

/-- The thread of the node is created, and takes the socket over. -/
theorem Owns.creates (ho : Owns w) {n : Nat} {fd : Int}
    (hsocket : (Hand.of (w.own 0)).socket = some fd)
    (hnode : (Hand.of (w.own 0)).node = some (n, fd)) {r : Int × Nat} (hr : r.1 = 0) :
    Owns (w.push 0 (w.state.advance n .running) ⟨.pthreadCreate n, r⟩) := by
  obtain ⟨hm, hworkers⟩ := ho
  obtain ⟨h0, hlt, hunborn, hcl⟩ := hm.node n fd hnode
  have happ : (Ledger.of w.trace).holder fd = some .application := (hm.hand fd).mpr hsocket
  have hnote : (Ledger.of w.trace).note ((0, ⟨.pthreadCreate n, r⟩) : Nat × SysEvent β)
      = ⟨(Ledger.of w.trace).handOver n, (Ledger.of w.trace).clientOf⟩ := if_pos hr
  have hnext : (Hand.of (w.own 0)).next (⟨.pthreadCreate n, r⟩ : SysEvent β) = Hand.empty :=
    if_pos hr
  have hself : (Ledger.of w.trace).handOver n fd = some (.client n) := if_pos ⟨hcl, happ⟩
  have hkept : ∀ fd', fd' ≠ fd →
      (Ledger.of w.trace).handOver n fd' = (Ledger.of w.trace).holder fd' := by
    intro fd' hne
    refine if_neg fun hc => hne ?_
    exact Option.some.inj (hc.1.symm.trans hcl)
  have hlife : ∀ m, m ≠ n → (w.state.advance n .running).life m = w.state.life m :=
    fun m hne => Function.update_of_ne hne ..
  have hrunning : (w.state.advance n .running).life n = .running := Function.update_self ..
  refine owns_push_main ?_ fun m hm0 => ?_
  · rw [hnote, hnext]
    refine ⟨fun fd' => iff_of_false (fun hc => ?_) nofun, fun fd' hc => ?_, nofun, hm.nodes,
      hm.fresh.1, fun m hle => ?_⟩
    · dsimp only at hc
      by_cases heq : fd' = fd
      · rw [heq, hself] at hc
        cases hc
      · rw [hkept fd' heq, hm.hand fd', hsocket] at hc
        exact heq (Option.some.inj hc).symm
    · dsimp only at hc
      by_cases heq : fd' = fd
      · rw [heq, hself] at hc
        exact h0 (Holder.client.inj (Option.some.inj hc))
      · rw [hkept fd' heq] at hc
        exact hm.zero fd' hc
    · have hle' : w.state.fresh ≤ m := hle
      rw [hlife m (by omega), hm.fresh.2 m hle']
  · rw [hnote]
    by_cases heq : m = n
    · subst heq
      have hempty := (hworkers m hm0).unborn hunborn
      rw [hempty, hrunning]
      refine ⟨nofun, fun fd' hfd' => ⟨rfl, ?_, fun hst => ?_⟩, fun _ _ => ⟨fd, hcl, hself⟩,
        fun fd' hc => by cases hc⟩
      · by_cases hne : fd' = fd
        · rw [hne]
          exact hcl
        · dsimp only at hfd'
          rw [hkept fd' hne] at hfd'
          exact ((hworkers m hm0).client fd' hfd').2.1
      · obtain ⟨c, hc⟩ := hst
        cases hc
    · rw [hlife m heq]
      refine (hworkers m hm0).frame (fun fd' => ?_) (fun fd' hf => ?_) (fun _ => rfl) Iff.rfl
        Iff.rfl
      · dsimp only
        by_cases hne : fd' = fd
        · rw [hne, hself, happ]
          simp [Ne.symm heq]
        · rw [hkept fd' hne]
      · have hne : fd' ≠ fd := by
          rintro rfl
          rw [happ] at hf
          cases hf
        dsimp only
        rw [hkept fd' hne, hf]

end Main

/-! ## All threads together -/

/-- The calls that are considered. A new descriptor was not open before; files are written and read
as they can be; and `errno` is `EAGAIN` when `application` reads it. -/
def Considered (tr : Trace β) (x : Nat × SysEvent β) : Prop :=
  (∀ fd, processFd x = .out fd → held processFd tr fd = false) ∧ Answered x.2 ∧
    ∀ r, x = (0, ⟨.errno, r⟩) → r = eagain

/-- A close of one's own. -/
def ClosesOwn (tr : Trace β) (x : Nat × SysEvent β) : Prop :=
  ∀ fd, x.2.1 = .close fd → Belongs x.1 ((Ledger.of tr).holder fd)

section Step

variable {w : ProcessWorld β} {t : Nat} {e : Sys β} {a : Answers β} {r : e.Ret} {s : Process}

theorem holder_of_considered (hk : Considered w.trace (t, ⟨e, r⟩)) {fd : Int}
    (hout : processFd (t, (⟨e, r⟩ : SysEvent β)) = .out fd) :
    (Ledger.of w.trace).holder fd = none := by
  have hnone := hk.1 fd hout
  rw [← holder_isSome] at hnone
  exact Option.isSome_eq_false_iff.mp hnone |> Option.isNone_iff_eq_none.mp

/-- **A call of a worker.** -/
theorem Owns.workerStep (ho : Owns w) (ht : t ≠ 0) (hrun : w.state.life t = .running)
    (hmay : (descriptorView t).may (w.own t) e)
    (hcall : processCall false t e w.state a = some (r, s))
    (hk : Considered w.trace (t, ⟨e, r⟩)) : Owns (w.push t s ⟨e, r⟩) := by
  cases e with
  | getClientFd n =>
    obtain ⟨rfl, hnot⟩ := hmay
    obtain ⟨x, hx, heq⟩ := Option.map_eq_some_iff.mp hcall
    cases heq
    exact ho.starts ht hrun hnot (ho.1.nodes n x hx)
  | close fd =>
    cases hcall
    exact ho.closes ht hrun hmay _
  | pthreadExit =>
    cases hcall
    exact ho.exits ht hrun hmay.1 hmay.2
  | openFile file flags =>
    cases hcall
    by_cases hfd : 0 ≤ a (.openFile file flags)
    · exact ho.opens ht hrun file flags hfd (holder_of_considered hk (fdAct_open hfd))
    · exact ho.quiet ht hrun (Alike.of_eq rfl rfl rfl) (fdAct_open_failed file flags hfd)
        fun l => if_neg hfd
  | setThreadStatus _ _ | mutexLock | mutexUnlock | write _ _ | read _ _ | recv _ _ | send _ _ _ =>
    exact ho.quiet ht hrun (processCall_alike rfl hcall) rfl fun _ => rfl
  | _ => exact hmay.elim

theorem Owns.worker_closesOwn (ho : Owns w) (ht : t ≠ 0)
    (hmay : (descriptorView t).may (w.own t) e) : ClosesOwn w.trace (t, ⟨e, r⟩) := by
  intro fd hfd
  obtain rfl : e = .close fd := hfd
  exact ho.belongs ht hmay

/-- **A call of `application`.** -/
theorem Owns.mainStep (ho : Owns w) (hmay : handView.may (Hand.of (w.own 0)) e)
    (hcall : processCall false 0 e w.state a = some (r, s))
    (hk : Considered w.trace (0, ⟨e, r⟩)) : Owns (w.push 0 s ⟨e, r⟩) := by
  cases e with
  | accept =>
    cases hcall
    cases haccept : a .accept with
    | error e => exact ho.mainQuiet (Alike.of_eq rfl rfl rfl) (fun _ => rfl) fun _ => rfl
    | ok fd =>
      rw [haccept] at hk
      exact ho.accepts hmay (holder_of_considered hk (processFd_accept 0 fd))
  | close fd =>
    cases hcall
    exact ho.mainCloses hmay _
  | mallocNode fd =>
    cases hcall
    exact ho.mallocs fd
  | pthreadCreate n =>
    obtain ⟨fd, hsocket, hnode⟩ := hmay
    simp only [processCall] at hcall
    split at hcall
    · cases hcall
      exact ho.creates hsocket hnode rfl
    · rename_i hfailed
      cases hcall
      exact ho.mainQuiet (Alike.of_eq rfl rfl rfl) (fun _ => if_neg hfailed)
        fun _ => if_neg hfailed
  | getThreadStatus _ | getThread _ | setThread _ _ | getNext _ | setNext _ _ | getFirst =>
    exact ho.mainQuiet (processCall_alike rfl hcall) (fun _ => rfl) fun _ => rfl
  | setFirst _ | freeNode _ | pthreadJoin _ | isTerminated | setIsTerminated | clockGettime =>
    exact ho.mainQuiet (processCall_alike rfl hcall) (fun _ => rfl) fun _ => rfl
  | errno | nanosleep _ =>
    exact ho.mainQuiet (processCall_alike rfl hcall) (fun _ => rfl) fun _ => rfl
  | _ => exact hmay.elim

theorem Owns.main_closesOwn (ho : Owns w) (hmay : handView.may (Hand.of (w.own 0)) e) :
    ClosesOwn w.trace (0, ⟨e, r⟩) := by
  intro fd hfd
  obtain rfl : e = .close fd := hfd
  rw [(ho.1.hand fd).mpr hmay]
  rfl

end Step

/-- Each thread goes by what it did itself. -/
def socketContract : Contract ((@processSystem β false).filter Considered) where
  inv w := Owns w ∧ Always ClosesOwn w.trace
  rely t w w' := w'.own t = w.own t
  pre w t e :=
    if t = 0 then handView.may (Hand.of (w.own 0)) e else (descriptorView t).may (w.own t) e
  spins _ := True
  rely_refl _ _ := rfl
  rely_trans h₁ h₂ := h₂.trans h₁
  keeps {w t e a r s} hi hp hact := by
    obtain ⟨hact, hk⟩ := System.filter_act.mp hact
    obtain ⟨hrunning, hcall⟩ := processSystem_act hact
    have hstep : Owns (w.push t s ⟨e, r⟩) ∧ ClosesOwn w.trace (t, ⟨e, r⟩) := by
      by_cases ht : t = 0
      · subst ht
        exact ⟨hi.1.mainStep hp hcall hk, hi.1.main_closesOwn hp⟩
      · rw [if_neg ht] at hp
        exact ⟨hi.1.workerStep ht (hrunning.resolve_left ht) hp hcall hk,
          hi.1.worker_closesOwn ht hp⟩
    exact ⟨⟨hstep.1, always_push.mpr ⟨hi.2, hstep.2⟩⟩, fun t' ht' => World.own_push_ne w s _ ht'⟩

theorem knows_hand : (@socketContract β).Knows 0 handView (fun w => Hand.of (w.own 0)) where
  stable h := by rw [show _ = _ from h]
  pre _ h := h
  act {w e a r s} _ _ hact := by
    obtain ⟨-, -, -, hk⟩ := System.filter_act.mp hact
    refine ⟨?_, by rw [World.own_push_self, Hand.of_push]; rfl⟩
    cases e with
    | errno => exact hk r rfl
    | _ => trivial
  spins _ := trivial

theorem knows_descriptors {t : Nat} (ht : t ≠ 0) :
    (@socketContract β).Knows t (descriptorView t) (fun w => w.own t) where
  stable h := h
  pre _ h := by
    show if t = 0 then _ else _
    rwa [if_neg ht]
  act {w e a r s} hi hmay hact := by
    obtain ⟨-, hk⟩ := System.filter_act.mp hact
    refine ⟨⟨fun hne fd hout => ?_, hk.2.1⟩, World.own_push_self w s _ t⟩
    -- what the worker opens was open nowhere
    have hnone : (Ledger.of w.trace).holder fd = none := by
      refine holder_of_considered hk ?_
      rcases fdAct_eq_out hout with ⟨n, hx⟩ | ⟨file, flags, hx, hfd⟩
      · cases hx
        exact absurd rfl (hne n)
      · cases hx
        exact fdAct_open hfd
    by_contra hc
    have hbelongs := hi.1.belongs ht (by simpa using hc)
    rw [hnone] at hbelongs
    exact hbelongs
  spins _ := trivial

theorem owns_start (garbage : Option Nat) : Owns (processStart garbage : ProcessWorld β) := by
  refine ⟨⟨fun fd => ?_, nofun, nofun, nofun, Nat.one_pos, fun _ _ => rfl⟩, fun n _ => ?_⟩
  · exact iff_of_false nofun nofun
  · exact ⟨fun _ => rfl, nofun, nofun, nofun⟩

theorem sockets_good (garbage : Option Nat) (n polls : Nat) (rounds : Nat → Nat) (file : String) :
    (@socketContract β).Good (fun t _ w => t = 0 → (Hand.of (w.own 0)).socket = none)
      (pollingStart garbage n polls rounds file) := by
  refine ⟨⟨owns_start garbage, always_nil⟩, fun t => ?_⟩
  by_cases ht : t = 0
  · subst ht
    have hstart : Hand.of ((@pollingStart β garbage n polls rounds file).world.own 0)
        = Hand.empty := rfl
    refine Contract.wp_mono (Q := fun _ w => (Hand.of (w.own 0)).socket = none)
      (fun _ _ _ h _ => h) ?_
    exact knows_hand.wp (hstart ▸ hand_application n)
  · have hprog : (pollingStart garbage n polls rounds file).prog t
        = (workerThread (rounds t) file t : ServerProg β (Option Int)) := if_neg ht
    rw [hprog]
    exact Contract.wp_mono (fun _ _ _ _ h0 => absurd h0 ht)
      ((knows_descriptors ht).wp (descriptors_worker (rounds t) file))

/-- A socket that is neither closed nor returned again has its holder among `application` and the
workers. -/
theorem socket_untouched {fd : Int} : ∀ (post pre : Trace β),
    ((Ledger.of pre).holder fd = some .application ∨
      ∃ n, (Ledger.of pre).holder fd = some (.client n)) →
    (∀ x ∈ post, processFd x ≠ .out fd ∧ processFd x ≠ .back fd) →
    (Ledger.of (pre ++ post)).holder fd = some .application ∨
      ∃ n, (Ledger.of (pre ++ post)).holder fd = some (.client n)
  | [], pre, hpre, _ => by
    rw [List.append_nil]
    exact hpre
  | x :: post, pre, hpre, hrest => by
    obtain ⟨⟨hout, hback⟩, hrest⟩ := List.forall_mem_cons.mp hrest
    rw [show pre ++ x :: post = (pre ++ [x]) ++ post by simp]
    refine socket_untouched post (pre ++ [x]) ?_ hrest
    rw [Ledger.of_push]
    exact note_socket hpre hout hback

theorem processFd_eq_back {x : Nat × SysEvent β} {fd : Int} (h : processFd x = .back fd) :
    x.2.1 = .close fd := by
  obtain ⟨t, e, r⟩ := x
  cases e with
  | accept => cases r <;> cases h
  | getClientFd n => cases h
  | _ => exact fdAct_eq_back h

/--
**Client sockets are owned linearly**, in every run in which `errno` is `EAGAIN` whenever the
polling loop reads it.

For all answers of `accept`, `pthread_create` and the calls of the workers, and any order of
steps: each close is made by the holder of an open descriptor, which is `application` for a socket
without a thread, the thread of its node, or the thread that opened the result file. When
`application` has returned, every socket that `accept` returned was closed once.

The kernel does not return a descriptor that is open, and does not write or read without one.
-/
theorem sockets_owned (garbage : Option Nat) (n polls : Nat) (rounds : Nat → Nat) (file : String)
    (schedule : List (Nat × Answers β)) (c : Config (@Sys.Ret β) Process (Option Int))
    (hrun : (processSystem false).run (pollingStart garbage n polls rounds file) schedule = some c)
    (hfresh : Fresh processFd c.world.trace) (hfiles : ∀ x ∈ c.world.trace, Answered x.2)
    (herrno : ∀ r, (0, ⟨.errno, r⟩) ∈ c.world.trace → r = eagain) : SocketsOwned c := by
  have hconsidered : Always Considered c.world.trace := by
    intro pre x post he
    have hx : x ∈ c.world.trace := by simp [he]
    exact ⟨hfresh pre x post he, hfiles x hx, fun r hr => herrno r (hr ▸ hx)⟩
  have hgood := (sockets_good garbage n polls rounds file).run
    (System.run_filter hrun hconsidered)
  obtain ⟨⟨hmain, hworkers⟩, hcloses⟩ := hgood.1
  refine ⟨hcloses, fun r hret pre t fd post he => ?_⟩
  have howned : Owned processFd c.world.trace := by
    intro pre x post he fd hx
    have hbelongs := hcloses pre x post he fd (processFd_eq_back hx)
    rw [← holder_isSome]
    cases hholder : (Ledger.of pre).holder fd with
    | none =>
      rw [hholder] at hbelongs
      exact hbelongs.elim
    | some y => rfl
  have hsplit : c.world.trace = (pre ++ [(t, ⟨.accept, .ok fd⟩)]) ++ post := by simp [he]
  have hheld : held processFd (pre ++ [(t, ⟨.accept, .ok fd⟩)]) (fd : Int) = true := by
    rw [held_push_out (processFd_accept t fd), Function.update_self]
  rcases Handling.returns_of_held post _ (hsplit ▸ hfresh) (hsplit ▸ howned) hheld with
    hone | hrest
  · exact hone
  · -- nobody has a socket any more
    have hopen := socket_untouched post (pre ++ [(t, ⟨.accept, .ok fd⟩)]) (Or.inl (by
      rw [Ledger.of_push]
      exact Function.update_self ..)) hrest
    rw [← hsplit] at hopen
    rcases hopen with happ | ⟨m, hclient⟩
    · have hempty : (Hand.of (c.world.own 0)).socket = none := hgood.ret hret rfl
      rw [(hmain.hand fd).mp happ] at hempty
      cases hempty
    · have hm0 : m ≠ 0 := by
        rintro rfl
        exact hmain.zero fd hclient
      obtain ⟨hrunning, -⟩ := (hworkers m hm0).client fd hclient
      rw [polling_joined hrun hret m (by rw [hrunning]; nofun)] at hrunning
      cases hrunning

/-- Answers without an error, with this outcome of `accept` and value of `errno`. -/
def acceptAnswers (accepted : Except Int Nat) (errno : Int) (message : Option (List UInt8))
    (signal : Bool) : Answers UInt8 where
  ret
    | .accept => accepted
    | .errno => errno
    | e => goodAnswers 0 message signal e
  waits := false

/-- What `errno` was when `application` read it. -/
def errnoRead : Nat × SysEvent β → Option Int
  | (0, ⟨.errno, r⟩) => some r
  | _ => none

/-- One client with descriptor 4, accepted while `errno` is `EAGAIN` and served; then a signal. -/
def oneClient : List (Nat × Answers UInt8) :=
  List.replicate 14 (0, acceptAnswers (.ok 4) eagain none false) ++
    turns 12 1 0 (some [97]) false ++ turns 6 1 0 (some []) false ++ turns 11 0 0 none true

theorem sockets_owned_one_client :
    ∃ c, (processSystem false).run (pollingStart none 3 3 (fun _ => 2) (resultFile false))
        oneClient = some c ∧ c.prog 0 = .ret (some 0) ∧
      held processFd (c.world.trace.take 6) 4 = true ∧ SocketsOwned c := by
  have hrun : ((processSystem false).run (pollingStart none 3 3 (fun _ => 2) (resultFile false))
      oneClient).map (fun c => ((c.prog 0).returned, held processFd (c.world.trace.take 6) 4,
        decide (Fresh processFd c.world.trace), decide (∀ x ∈ c.world.trace, Answered x.2),
        c.world.trace.filterMap errnoRead)) = some (some (some 0), true, true, true, [eagain]) := by
    decide +kernel
  obtain ⟨c, hc, heq⟩ := Option.map_eq_some_iff.mp hrun
  simp only [Prod.mk.injEq, returned_eq_some, decide_eq_true_eq] at heq
  obtain ⟨hret, hheld, hfresh, hfiles, herrno⟩ := heq
  refine ⟨c, hc, hret, hheld, sockets_owned none 3 3 (fun _ => 2) (resultFile false) oneClient c hc
    hfresh hfiles fun r hr => ?_⟩
  have hmem : r ∈ c.world.trace.filterMap errnoRead := List.mem_filterMap.mpr ⟨_, hr, rfl⟩
  rw [herrno] at hmem
  exact List.mem_singleton.mp hmem

/-- A client is waiting when the server starts, with `errno` 0: `application` closes descriptor 0,
which it was never given, and returns without closing the client's descriptor 4. -/
theorem socket_lost :
    ∃ c, (processSystem false).run (pollingStart none 3 3 (fun _ => 2) (resultFile false))
        (List.replicate 12 (0, acceptAnswers (.ok 4) 0 none false)) = some c ∧
      c.prog 0 = .ret (some (-1)) ∧ Fresh processFd c.world.trace ∧
      (∀ x ∈ c.world.trace, Answered x.2) ∧ (0, ⟨.close 0, (0 : Int)⟩) ∈ c.world.trace ∧
      ¬SocketsOwned c := by
  have hrun : ((processSystem false).run (pollingStart none 3 3 (fun _ => 2) (resultFile false))
      (List.replicate 12 (0, acceptAnswers (.ok 4) 0 none false))).map
        (fun c => (c.world.trace, (c.prog 0).returned)) = some
      ([(0, ⟨.setFirst none, ()⟩), (0, ⟨.isTerminated, false⟩), (0, ⟨.clockGettime, ⟨0, 0⟩⟩),
        (0, ⟨.isTerminated, false⟩), (0, ⟨.clockGettime, ⟨0, 0⟩⟩), (0, ⟨.accept, .ok 4⟩),
        (0, ⟨.errno, (0 : Int)⟩), (0, ⟨.close 0, (0 : Int)⟩), (0, ⟨.setIsTerminated, ()⟩),
        (0, ⟨.isTerminated, true⟩), (0, ⟨.getFirst, none⟩), (0, ⟨.getFirst, none⟩)],
        some (some (-1))) := rfl
  obtain ⟨c, hc, heq⟩ := Option.map_eq_some_iff.mp hrun
  obtain ⟨htrace, hret⟩ := Prod.mk.inj heq
  rw [returned_eq_some] at hret
  refine ⟨c, hc, hret, ?_, ?_, ?_, fun howned => ?_⟩
  · rw [htrace]
    decide +kernel
  · rw [htrace]
    decide +kernel
  · simp [htrace]
  · have hone := howned.once (-1) hret (c.world.trace.take 5) 0 4 (c.world.trace.drop 6)
      (by rw [htrace]; rfl)
    rw [htrace] at hone
    exact absurd hone (by decide +kernel)

end Aesd.Server

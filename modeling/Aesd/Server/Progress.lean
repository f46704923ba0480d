import Aesd.Server.Application

/-!
# No deadlock

`application` waits in `pthread_join`, a worker waits for `result_file_mutex` and, in `recv` and
`send`, for its client. A worker gives the mutex back on each of its paths, does not lock it twice
and does not end while it has it, and `application` never takes it. So as long as anybody is left,
somebody can go on, or it is up to a client. A worker waits for its client with the mutex, and then
the other workers wait as well.
-/

namespace Aesd.Server

open Infra Prog

variable {β : Type}

/-! ## How a worker stands to the mutex -/

inductive Grip where
  | free
  | holding
  /-- it has called `pthread_exit` -/
  | gone
  deriving DecidableEq, Repr

namespace Grip

def next (g : Grip) : SysEvent β → Grip
  | ⟨.mutexLock, _⟩ => .holding
  | ⟨.mutexUnlock, _⟩ => .free
  | ⟨.pthreadExit, _⟩ => .gone
  | _ => g

/-- After these calls. -/
def of (es : List (SysEvent β)) : Grip := es.foldl next free

@[simp] theorem of_push (es : List (SysEvent β)) (x : SysEvent β) :
    of (es ++ [x]) = (of es).next x := by
  simp [of, List.foldl_append]

end Grip

/-- What a worker goes by. -/
def gripView : View (@Sys.Ret β) Grip where
  may g e :=
    match e with
    | .mutexUnlock => g = .holding
    | .mutexLock | .pthreadExit => g = .free
    | _ => True
  answers _ _ _ := True
  next := Grip.next
  spins := True

section Worker

variable {α : Type} {g : Grip} {Q : α → Grip → Prop}

end Worker

/-! ## The mutex and the threads -/

/-- A worker has the mutex when it says so, and has ended when it says so. -/
structure Gripped (w : ProcessWorld β) : Prop where
  main : w.state.mutex ≠ some 0
  zero : w.state.life 0 = .unborn
  holding : ∀ t, t ≠ 0 → (w.state.mutex = some t ↔ Grip.of (w.own t) = .holding)
  gone : ∀ t, t ≠ 0 →
    (w.state.life t = .ended ∨ w.state.life t = .joined ↔ Grip.of (w.own t) = .gone)

/-- A worker heeds how it stands to the mutex. -/
def heeds (w : ProcessWorld β) (t : Nat) (e : Sys β) : Prop :=
  t ≠ 0 → gripView.may (Grip.of (w.own t)) e

section Step

variable {joinFails : Bool} {w : ProcessWorld β} {s : Process}

/-- A call of `application`. -/
theorem Gripped.push_main (h : Gripped w) {e : SysEvent β} (hm : s.mutex = w.state.mutex)
    (h0 : s.life 0 = w.state.life 0) (hl : ∀ t, t ≠ 0 → (s.life t = .ended ∨ s.life t = .joined ↔
      w.state.life t = .ended ∨ w.state.life t = .joined)) : Gripped (w.push 0 s e) where
  main := by
    rw [World.push_state, hm]
    exact h.main
  zero := by
    rw [World.push_state, h0]
    exact h.zero
  holding t ht := by
    rw [World.push_state, World.own_push_ne w s e ht, hm]
    exact h.holding t ht
  gone t ht := by
    rw [World.push_state, World.own_push_ne w s e ht, hl t ht]
    exact h.gone t ht

theorem Gripped.main_call (h : Gripped w) (hi : ProcessInv joinFails w) {e : Sys β} {a : Answers β}
    {r : e.Ret} (hmay : (mainView joinFails).may (picture w) e)
    (hact : (processSystem joinFails).act w 0 e a = some (r, s)) :
    Gripped (w.push 0 s ⟨e, r⟩) := by
  obtain ⟨-, hcall⟩ := processSystem_act hact
  cases e with
  | getThreadStatus n | getThread n | getNext n | setThread n _ | setNext n _ | freeNode n =>
    obtain ⟨x, -, heq⟩ := Option.map_eq_some_iff.mp hcall
    cases heq
    exact h.push_main rfl rfl fun _ _ => Iff.rfl
  | setFirst _ | getFirst | isTerminated | setIsTerminated | close _ | createConnection
  | mallocNode _ =>
    cases hcall
    exact h.push_main rfl rfl fun _ _ => Iff.rfl
  | pthreadCreate n =>
    simp only [processCall] at hcall
    split at hcall
    · cases hcall
      have hn := ((hi.2 n).numbered hmay.1).1
      refine h.push_main rfl (Function.update_of_ne (by omega) ..) fun t _ => ?_
      by_cases htn : t = n
      · -- the thread is a new one
        have hunborn := (hi.2 n).born.mpr hmay.2
        rw [htn, hunborn]
        simp [Process.advance]
      · simp only [Process.advance, Function.update_of_ne htn]
    · cases hcall
      exact h.push_main rfl rfl fun _ _ => Iff.rfl
  | pthreadJoin n =>
    simp only [processCall] at hcall
    split at hcall
    · cases hcall
      exact h.push_main rfl rfl fun _ _ => Iff.rfl
    · split at hcall
      · next hended =>
        cases hcall
        have hn : 0 ≠ n := by
          rintro rfl
          rw [h.zero] at hended
          cases hended
        refine h.push_main rfl (Function.update_of_ne hn ..) fun t _ => ?_
        by_cases htn : t = n
        · rw [htn, hended]
          simp [Process.advance]
        · simp only [Process.advance, Function.update_of_ne htn]
      · cases hcall
  | _ => exact hmay.elim

/-- A call of a worker that has nothing to do with the mutex. -/
theorem Gripped.push_quiet (h : Gripped w) {t : Nat} {e : SysEvent β}
    (he : ∀ g : Grip, g.next e = g) (hm : s.mutex = w.state.mutex) (hl : s.life = w.state.life) :
    Gripped (w.push t s e) := by
  have hown : ∀ t', Grip.of ((w.push t s e).own t') = Grip.of (w.own t') := by
    intro t'
    by_cases ht : t' = t
    · rw [ht, World.own_push_self, Grip.of_push, he]
    · rw [World.own_push_ne w s e ht]
  constructor
  case main =>
    rw [World.push_state, hm]
    exact h.main
  case zero =>
    rw [World.push_state, hl]
    exact h.zero
  case holding =>
    intro t' ht'
    rw [World.push_state, hown, hm]
    exact h.holding t' ht'
  case gone =>
    intro t' ht'
    rw [World.push_state, hown, hl]
    exact h.gone t' ht'

/-- One that changes how it stands to it. -/
theorem Gripped.push_grip (h : Gripped w) {t : Nat} (ht : t ≠ 0) {e : SysEvent β} {g : Grip}
    (hg : (Grip.of (w.own t)).next e = g) (hm0 : s.mutex ≠ some 0)
    (hmt : s.mutex = some t ↔ g = .holding)
    (hlt : s.life t = .ended ∨ s.life t = .joined ↔ g = .gone)
    (hm : ∀ t', t' ≠ t → (s.mutex = some t' ↔ w.state.mutex = some t'))
    (hl : ∀ t', t' ≠ t → s.life t' = w.state.life t') : Gripped (w.push t s e) where
  main := hm0
  zero := by
    rw [World.push_state, hl 0 (Ne.symm ht)]
    exact h.zero
  holding t' ht' := by
    rw [World.push_state]
    by_cases htt : t' = t
    · rw [htt, World.own_push_self, Grip.of_push, hg]
      exact hmt
    · rw [World.own_push_ne w s e htt, hm t' htt]
      exact h.holding t' ht'
  gone t' ht' := by
    rw [World.push_state]
    by_cases htt : t' = t
    · rw [htt, World.own_push_self, Grip.of_push, hg]
      exact hlt
    · rw [World.own_push_ne w s e htt, hl t' htt]
      exact h.gone t' ht'

theorem Gripped.worker_call (h : Gripped w) {t : Nat} (ht : t ≠ 0) {e : Sys β} {a : Answers β}
    {r : e.Ret} (hmay : (workerView t).may (w.own t) e) (hheeds : heeds w t e)
    (hact : (processSystem joinFails).act w t e a = some (r, s)) :
    Gripped (w.push t s ⟨e, r⟩) := by
  obtain ⟨hrun, hcall⟩ := processSystem_act hact
  have hlife := hrun.resolve_left ht
  have hgrip := hheeds ht
  cases e with
  | setThreadStatus n _ =>
    obtain ⟨x, -, heq⟩ := Option.map_eq_some_iff.mp hcall
    cases heq
    exact h.push_quiet (fun _ => rfl) rfl rfl
  | getClientFd _ | openFile _ _ | write _ _ | read _ _ | close _ | recv _ _ | send _ _ _ =>
    obtain rfl := processCall_passive rfl hcall
    exact h.push_quiet (fun _ => rfl) rfl rfl
  | mutexLock =>
    obtain ⟨hfree, heq⟩ := Option.ite_none_right_eq_some.mp hcall
    cases heq
    refine h.push_grip ht rfl (by simpa using ht) (by simp [Grip.next]) ?_ (fun t' ht' => ?_)
      fun _ _ => rfl
    · simp [hlife, Grip.next]
    · simp [hfree, Ne.symm ht']
  | mutexUnlock =>
    obtain ⟨hheld, heq⟩ := Option.ite_none_right_eq_some.mp hcall
    cases heq
    refine h.push_grip ht rfl (by simp) (by simp [Grip.next]) ?_ (fun t' ht' => ?_) fun _ _ => rfl
    · simp [hlife, Grip.next]
    · simp [hheld, Ne.symm ht']
  | pthreadExit =>
    cases hcall
    have hfree : w.state.mutex ≠ some t := by
      rw [ne_eq, h.holding t ht, show Grip.of (w.own t) = .free from hgrip]
      decide
    refine h.push_grip ht rfl h.main ?_ ?_ (fun _ _ => Iff.rfl)
      fun t' ht' => Function.update_of_ne ht' ..
    · simp [Process.advance, hfree, Grip.next]
    · simp [Process.advance, Grip.next]
  | _ => exact hmay.elim

end Step

theorem Gripped.call {joinFails : Bool} {w : ProcessWorld β} {t : Nat} {e : Sys β} {a : Answers β}
    {r : e.Ret} {s : Process} (hi : (processContract joinFails).inv w) (h : Gripped w)
    (hp : (processContract joinFails).pre w t e) (hheeds : heeds w t e)
    (hact : (processSystem joinFails).act w t e a = some (r, s)) :
    Gripped (w.push t s ⟨e, r⟩) := by
  by_cases ht : t = 0
  · subst ht
    exact h.main_call hi hp hact
  · exact h.worker_call ht (by simpa [processContract, ht] using hp) hheeds hact

section Progress

variable {w : ProcessWorld β}

end Progress

section Progress

variable {c : Config (@Sys.Ret β) Process (Option Int)} {t : Nat}

end Progress

end Aesd.Server

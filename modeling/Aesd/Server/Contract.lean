import Aesd.Server.Process

/-!
# The contract of `application` and its workers

What each call of `application` and of a worker does to the picture that `application` has, and to
the invariant that ties threads, nodes and the book together. From that on each thread can be
looked at alone.
-/

namespace Aesd.Server

open Infra

variable {β : Type}

/-! ## The invariant -/

/-- The thread and the node with number `n` agree with the book and with the calls of the
thread. -/
structure Sound (joinFails : Bool) (b : Book) (fresh n : Nat) (life : Life) (node : Option Node)
    (own : List (SysEvent β)) : Prop where
  born : life = .unborn ↔ n ∉ b.created
  joined : life = .joined ↔ n ∈ b.joined
  silent : n ≠ 0 → life = .unborn → own = []
  numbered : node.isSome = true → 0 < n ∧ n < fresh
  fresh : fresh ≤ n → life = .unborn
  status : ∀ x, node = some x → x.threadStatus = (lastStatus own).getD .unititialized
  failed : n ∈ b.failures → lastStatus own = some .failed
  alive : joinFails = false → life = .running → node.isSome = true

def ProcessInv (joinFails : Bool) (w : ProcessWorld β) : Prop :=
  0 < w.state.fresh ∧ ∀ n, Sound joinFails (Book.of (w.own 0)) w.state.fresh n (w.state.life n)
    (w.state.node n) (w.own n)

/-! ## Calls and the picture -/

/-- A call of a thread that was created. -/
theorem processSystem_act {joinFails : Bool} {w : ProcessWorld β} {t : Nat} {e : Sys β}
    {a : Answers β} {r : e.Ret} {s : Process}
    (h : (processSystem joinFails).act w t e a = some (r, s)) :
    (t = 0 ∨ w.state.life t = .running) ∧ processCall joinFails t e w.state a = some (r, s) := by
  simp only [processSystem] at h
  split at h
  · exact ⟨‹_›, h⟩
  · cases h

/-- The calls that read the process, or are about files, clients and the time. -/
def Sys.passive : Sys β → Bool
  | .setThreadStatus _ _ | .setThread _ _ | .setNext _ _ | .setFirst _ | .mallocNode _ => false
  | .freeNode _ | .isTerminated | .setIsTerminated | .mutexLock | .mutexUnlock => false
  | .pthreadCreate _ | .pthreadJoin _ | .pthreadExit => false
  | _ => true

/-- They change nothing in it. -/
theorem processCall_passive {joinFails : Bool} {t : Nat} {e : Sys β} {s s' : Process}
    {a : Answers β} {r : e.Ret} (he : e.passive = true)
    (hcall : processCall joinFails t e s a = some (r, s')) : s' = s := by
  cases e with
  | getThreadStatus n | getClientFd n | getThread n | getNext n =>
    obtain ⟨x, -, heq⟩ := Option.map_eq_some_iff.mp hcall
    cases heq
    rfl
  | recv _ _ | send _ _ _ =>
    obtain ⟨-, heq⟩ := Option.ite_none_left_eq_some.mp hcall
    cases heq
    rfl
  | setThreadStatus _ _ | setThread _ _ | setNext _ _ | setFirst _ | mallocNode _ | freeNode _
  | isTerminated | setIsTerminated | mutexLock | mutexUnlock | pthreadCreate _ | pthreadJoin _
  | pthreadExit => cases he
  | _ =>
    cases hcall
    rfl

/-- A field of the nodes after a store to one of them. -/
theorem bind_update {κ : Type} (f : Node → Option κ) (node : Nat → Option Node) (n : Nat)
    (x : Option Node) : (fun m => (Function.update node n x m).bind f)
      = Function.update (fun m => (node m).bind f) n (x.bind f) :=
  funext fun m => Function.apply_update (fun _ y => y.bind f) node n x m

theorem isSome_update (node : Nat → Option Node) (n : Nat) (x : Option Node) :
    (fun m => (Function.update node n x m).isSome)
      = Function.update (fun m => (node m).isSome) n x.isSome :=
  funext fun m => Function.apply_update (fun _ y => y.isSome) node n x m

/-- The picture after a call of `application`. -/
theorem picture_push (w : ProcessWorld β) (s : Process) (e : SysEvent β) :
    picture (w.push 0 s e) =
      { allocated := fun n => (s.node n).isSome
        thread := fun n => (s.node n).bind Node.thread
        next := fun n => (s.node n).bind Node.sleNext
        fresh := s.fresh
        first := s.slhFirst
        book := (Book.of (w.own 0)).note e } := by
  simp [picture]

/-- A call of `application` does to the picture what the picture says. -/
theorem picture_main {joinFails : Bool} {w : ProcessWorld β} {e : Sys β} {a : Answers β}
    {r : e.Ret} {s : Process} (hmay : (mainView joinFails).may (picture w) e)
    (hact : (processSystem joinFails).act w 0 e a = some (r, s)) :
    (mainView joinFails).answers (picture w) e r ∧
      picture (w.push 0 s ⟨e, r⟩) = (picture w).after ⟨e, r⟩ := by
  obtain ⟨-, hcall⟩ := processSystem_act hact
  rw [picture_push]
  cases e with
  | getThreadStatus n =>
    obtain ⟨x, -, hx⟩ := Option.map_eq_some_iff.mp hcall
    cases hx
    exact ⟨trivial, rfl⟩
  | getThread n =>
    obtain ⟨x, hx, heq⟩ := Option.map_eq_some_iff.mp hcall
    cases heq
    exact ⟨hx, rfl⟩
  | getNext n =>
    obtain ⟨x, hx, heq⟩ := Option.map_eq_some_iff.mp hcall
    cases heq
    exact ⟨hx, rfl⟩
  | setThread n thread =>
    obtain ⟨x, hx, heq⟩ := Option.map_eq_some_iff.mp hcall
    cases heq
    refine ⟨trivial, ?_⟩
    simp [Process.modify, picture, Picture.after, bind_update, isSome_update, hx]
  | setNext n next =>
    obtain ⟨x, hx, heq⟩ := Option.map_eq_some_iff.mp hcall
    cases heq
    refine ⟨trivial, ?_⟩
    simp [Process.modify, picture, Picture.after, bind_update, isSome_update, hx]
  | setFirst first =>
    cases hcall
    exact ⟨trivial, rfl⟩
  | getFirst =>
    cases hcall
    exact ⟨rfl, rfl⟩
  | mallocNode clientFd =>
    cases hcall
    refine ⟨rfl, ?_⟩
    simp [Process.malloc, picture, Picture.after, bind_update, isSome_update]
  | freeNode n =>
    obtain ⟨x, hx, heq⟩ := Option.map_eq_some_iff.mp hcall
    cases heq
    refine ⟨trivial, ?_⟩
    simp [Process.free, picture, Picture.after, bind_update, isSome_update]
  | isTerminated =>
    cases hcall
    exact ⟨trivial, rfl⟩
  | setIsTerminated =>
    cases hcall
    exact ⟨trivial, rfl⟩
  | pthreadCreate n =>
    simp only [processCall] at hcall
    split at hcall
    · cases hcall
      exact ⟨fun _ => rfl, rfl⟩
    · cases hcall
      exact ⟨fun h => absurd h ‹_›, rfl⟩
  | pthreadJoin n =>
    simp only [processCall] at hcall
    split at hcall
    · rename_i hfail
      cases hcall
      refine ⟨fun h => ?_, rfl⟩
      rw [h] at hfail
      cases hfail.1
    · split at hcall
      · cases hcall
        exact ⟨fun _ => rfl, rfl⟩
      · cases hcall
  | close fd =>
    cases hcall
    exact ⟨trivial, rfl⟩
  | createConnection =>
    cases hcall
    exact ⟨trivial, rfl⟩
  | _ => exact hmay.elim

/-- A call of a worker does nothing to it. -/
theorem picture_worker {joinFails : Bool} {w : ProcessWorld β} {t : Nat} {e : Sys β}
    {a : Answers β} {r : e.Ret} {s : Process} (ht : t ≠ 0)
    (hmay : (workerView t).may (w.own t) e)
    (hact : (processSystem joinFails).act w t e a = some (r, s)) :
    picture (w.push t s ⟨e, r⟩) = picture w := by
  obtain ⟨-, hcall⟩ := processSystem_act hact
  unfold picture
  rw [World.own_push_ne w s _ (Ne.symm ht), World.push_state]
  cases e with
  | setThreadStatus n status =>
    obtain ⟨x, hx, heq⟩ := Option.map_eq_some_iff.mp hcall
    cases heq
    simp [Process.modify, bind_update, isSome_update, hx]
  | mutexLock | mutexUnlock =>
    simp only [processCall] at hcall
    split at hcall <;> cases hcall
    rfl
  | pthreadExit =>
    cases hcall
    rfl
  | getClientFd _ | openFile _ _ | write _ _ | read _ _ | close _ | recv _ _ | send _ _ _ =>
    rw [processCall_passive rfl hcall]
  | _ => exact hmay.elim

/-! ## Calls and the invariant -/

section Inv

variable {joinFails : Bool} {b b' : Book} {fresh n : Nat} {life : Life} {node node' : Option Node}
  {own own' : List (SysEvent β)} {w : ProcessWorld β} {s : Process}

/-- Changes that have nothing to do with the thread. -/
theorem Sound.quiet (h : Sound joinFails b fresh n life node own) (hc : b'.created = b.created)
    (hj : b'.joined = b.joined) (hf : b'.failures = b.failures)
    (hn : node'.map Node.threadStatus = node.map Node.threadStatus) (hs : n ≠ 0 → own' = own)
    (hl : lastStatus own' = lastStatus own) : Sound joinFails b' fresh n life node' own' where
  born := by rw [hc]; exact h.born
  joined := by rw [hj]; exact h.joined
  silent h0 hu := by rw [hs h0]; exact h.silent h0 hu
  numbered hx := by
    have hsome := congrArg Option.isSome hn
    rw [Option.isSome_map, Option.isSome_map] at hsome
    exact h.numbered (hsome ▸ hx)
  fresh := h.fresh
  status x hx := by
    rw [hx, Option.map_some] at hn
    obtain ⟨y, hy, hyx⟩ := Option.map_eq_some_iff.mp hn.symm
    rw [← hyx, hl]
    exact h.status y hy
  failed := by rw [hf, hl]; exact h.failed
  alive hjf hr := by
    have hsome := congrArg Option.isSome hn
    rw [Option.isSome_map, Option.isSome_map] at hsome
    rw [hsome]
    exact h.alive hjf hr

/-- After a call of `application` the calls of the other threads are the same, and no status was
written. -/
theorem ProcessInv.push_main {e : SysEvent β} (he : statusBy e = none) (hpos : 0 < s.fresh)
    (h : ∀ n, Sound joinFails ((Book.of (w.own 0)).note e) s.fresh n (s.life n) (s.node n)
      (w.own n)) : ProcessInv joinFails (w.push 0 s e) := by
  refine ⟨hpos, fun n => ?_⟩
  rw [World.own_push_self, Book.of_push]
  refine (h n).quiet rfl rfl rfl rfl (fun h0 => World.own_push_ne w s e h0) ?_
  by_cases h0 : n = 0
  · rw [h0, World.own_push_self, lastStatus_push, he, Option.none_or]
  · rw [World.own_push_ne w s e h0]

theorem mallocNode_sound (hi : ProcessInv joinFails w) (clientFd : Int) (n : Nat) :
    Sound joinFails (Book.of (w.own 0)) (w.state.fresh + 1) n (w.state.life n)
      ((w.state.malloc clientFd).node n) (w.own n) := by
  have h := hi.2 n
  by_cases hn : n = w.state.fresh
  · have hlife : w.state.life n = .unborn := h.fresh hn.ge
    have hpos := hi.1
    have hown : w.own n = [] := h.silent (by omega) hlife
    refine ⟨h.born, h.joined, h.silent, fun _ => by omega, fun _ => hlife, fun x hx => ?_,
      h.failed, fun _ hr => ?_⟩
    · simp only [Process.malloc, hn, Function.update_self, Option.some.injEq] at hx
      rw [← hx, hown]
      rfl
    · rw [hlife] at hr
      cases hr
  · simp only [Process.malloc, Function.update_of_ne hn]
    exact ⟨h.born, h.joined, h.silent, fun hx => by have := h.numbered hx; omega,
      fun hf => h.fresh (by omega), h.status, h.failed, h.alive⟩

theorem freeNode_sound (hi : ProcessInv joinFails w) {m : Nat}
    (hm : joinFails = false → m ∈ (Book.of (w.own 0)).created → m ∈ (Book.of (w.own 0)).joined)
    (n : Nat) : Sound joinFails ((Book.of (w.own 0)).free m) w.state.fresh n (w.state.life n)
      ((w.state.free m).node n) (w.own n) := by
  have h := hi.2 n
  by_cases hn : n = m
  · subst hn
    simp only [Process.free, Function.update_self]
    refine ⟨h.born, h.joined, h.silent, fun hx => (by cases hx), h.fresh, fun x hx => (by cases hx),
      h.failed, fun hjf hr => ?_⟩
    have hcreated : n ∈ (Book.of (w.own 0)).created := by
      by_contra hc
      rw [h.born.mpr hc] at hr
      cases hr
    rw [h.joined.mpr (hm hjf hcreated)] at hr
    cases hr
  · simp only [Process.free, Function.update_of_ne hn]
    exact h.quiet rfl rfl rfl rfl (fun _ => rfl) rfl

theorem pthreadCreate_sound (hi : ProcessInv joinFails w) {m : Nat}
    (hm : (w.state.node m).isSome = true) (hnew : m ∉ (Book.of (w.own 0)).created) (n : Nat) :
    Sound joinFails ((Book.of (w.own 0)).create m 0) w.state.fresh n
      ((w.state.advance m .running).life n) (w.state.node n) (w.own n) := by
  have h := hi.2 n
  by_cases hn : n = m
  · subst hn
    have hunborn := h.born.mpr hnew
    have hj : n ∉ (Book.of (w.own 0)).joined := fun hj => by
      rw [h.joined.mpr hj] at hunborn
      cases hunborn
    simp only [Process.advance, Function.update_self, Book.create, if_pos]
    refine ⟨by simp, by simp [hj], fun _ hu => (by cases hu), h.numbered, fun hf => ?_, h.status,
      h.failed, fun _ _ => hm⟩
    have := h.numbered hm
    omega
  · simp only [Process.advance, Function.update_of_ne hn, Book.create, if_pos]
    exact ⟨by simp [hn, h.born], h.joined, h.silent, h.numbered, h.fresh, h.status, h.failed,
      h.alive⟩

theorem pthreadJoin_sound (hi : ProcessInv joinFails w) {m : Nat} (hm : w.state.life m = .ended)
    (n : Nat) : Sound joinFails ((Book.of (w.own 0)).join m 0) w.state.fresh n
      ((w.state.advance m .joined).life n) (w.state.node n) (w.own n) := by
  have h := hi.2 n
  by_cases hn : n = m
  · subst hn
    simp only [Process.advance, Function.update_self, Book.join, if_pos]
    have hborn : n ∈ (Book.of (w.own 0)).created := by
      by_contra hc
      rw [h.born.mpr hc] at hm
      cases hm
    refine ⟨by simp [hborn], by simp, fun _ hu => (by cases hu), h.numbered, fun hf => ?_,
      h.status, h.failed, fun _ hr => (by cases hr)⟩
    rw [h.fresh hf] at hm
    cases hm
  · simp only [Process.advance, Function.update_of_ne hn, Book.join, if_pos]
    exact ⟨h.born, by simp [hn, h.joined], h.silent, h.numbered, h.fresh, h.status, h.failed,
      h.alive⟩

theorem getThreadStatus_sound (hi : ProcessInv joinFails w) {m : Nat} {x : Node}
    (hx : w.state.node m = some x) (n : Nat) :
    Sound joinFails ((Book.of (w.own 0)).see m x.threadStatus) w.state.fresh n (w.state.life n)
      (w.state.node n) (w.own n) := by
  have h := hi.2 n
  refine ⟨h.born, h.joined, h.silent, h.numbered, h.fresh, h.status, fun hf => ?_, h.alive⟩
  rcases Book.mem_see.mp hf with ⟨hfailed, rfl⟩ | hf
  · have hst := h.status x hx
    rw [hfailed] at hst
    cases hl : lastStatus (w.own n) with
    | none =>
      rw [hl] at hst
      cases hst
    | some status =>
      rw [hl] at hst
      rw [hst]
      rfl
  · exact h.failed hf

/-- **A call of `application`** keeps the invariant. -/
theorem ProcessInv.main {e : Sys β} {a : Answers β} {r : e.Ret} (hi : ProcessInv joinFails w)
    (hmay : (mainView joinFails).may (picture w) e)
    (hact : (processSystem joinFails).act w 0 e a = some (r, s)) :
    ProcessInv joinFails (w.push 0 s ⟨e, r⟩) := by
  obtain ⟨-, hcall⟩ := processSystem_act hact
  obtain ⟨hpos, hn⟩ := hi
  cases e with
  | getThreadStatus m =>
    obtain ⟨x, hx, heq⟩ := Option.map_eq_some_iff.mp hcall
    cases heq
    exact push_main rfl hpos (getThreadStatus_sound ⟨hpos, hn⟩ hx)
  | getThread m | getNext m =>
    obtain ⟨x, -, heq⟩ := Option.map_eq_some_iff.mp hcall
    cases heq
    exact push_main rfl hpos hn
  | setThread m _ | setNext m _ =>
    obtain ⟨x, hx, heq⟩ := Option.map_eq_some_iff.mp hcall
    cases heq
    refine push_main rfl hpos fun n => (hn n).quiet rfl rfl rfl ?_ (fun _ => rfl) rfl
    by_cases hnm : n = m
    · rw [hnm]
      simp [Process.modify, hx]
    · simp [Process.modify, Function.update_of_ne hnm]
  | setFirst _ | getFirst | isTerminated | setIsTerminated | close _ =>
    cases hcall
    exact push_main rfl hpos hn
  | createConnection =>
    cases hcall
    exact push_main rfl hpos fun n => (hn n).quiet rfl rfl rfl rfl (fun _ => rfl) rfl
  | mallocNode clientFd =>
    cases hcall
    exact push_main rfl (Nat.succ_pos _) (mallocNode_sound ⟨hpos, hn⟩ clientFd)
  | freeNode m =>
    obtain ⟨x, -, heq⟩ := Option.map_eq_some_iff.mp hcall
    cases heq
    exact push_main rfl hpos (freeNode_sound ⟨hpos, hn⟩ hmay.2.2)
  | pthreadCreate m =>
    simp only [processCall] at hcall
    split at hcall
    · cases hcall
      exact push_main rfl hpos (pthreadCreate_sound ⟨hpos, hn⟩ hmay.1 hmay.2)
    · rename_i herror
      cases hcall
      refine push_main rfl hpos fun n => (hn n).quiet ?_ ?_ ?_ rfl (fun _ => rfl) rfl
      all_goals simp only [Book.note, Book.create, if_neg herror, Book.fail]
  | pthreadJoin m =>
    simp only [processCall] at hcall
    split at hcall
    · rename_i herror
      cases hcall
      refine push_main rfl hpos fun n => (hn n).quiet ?_ ?_ ?_ rfl (fun _ => rfl) rfl
      all_goals simp only [Book.note, Book.join, if_neg herror.2]
    · split at hcall
      · cases hcall
        exact push_main rfl hpos (pthreadJoin_sound ⟨hpos, hn⟩ ‹_›)
      · cases hcall
  | _ => exact hmay.elim

/-- After a call of thread `t` only what concerns thread `t` has to be looked at. -/
theorem ProcessInv.push_worker {t : Nat} {e : SysEvent β} (hi : ProcessInv joinFails w) (ht : t ≠ 0)
    (hfresh : s.fresh = w.state.fresh) (hlife : ∀ n, n ≠ t → s.life n = w.state.life n)
    (hnode : ∀ n, n ≠ t → s.node n = w.state.node n)
    (h : Sound joinFails (Book.of (w.own 0)) w.state.fresh t (s.life t) (s.node t)
      (w.own t ++ [e])) : ProcessInv joinFails (w.push t s e) := by
  refine ⟨by rw [World.push_state, hfresh]; exact hi.1, fun n => ?_⟩
  rw [World.own_push_ne w s e (Ne.symm ht), World.push_state, hfresh]
  by_cases hn : n = t
  · rw [hn, World.own_push_self]
    exact h
  · rw [World.own_push_ne w s e hn, hlife n hn, hnode n hn]
    exact hi.2 n

/-- A call of a running thread that sets no status. -/
theorem Sound.push (h : Sound joinFails b fresh n .running node own) (e : SysEvent β)
    (he : statusBy e = none) (hl : life = .running ∨ life = .ended) :
    Sound joinFails b fresh n life node (own ++ [e]) := by
  have hlast : lastStatus (own ++ [e]) = lastStatus own := by
    rw [lastStatus_push, he, Option.none_or]
  have hnew : ¬fresh ≤ n := fun hf => by cases h.fresh hf
  have hb := h.born
  have hj := h.joined
  refine ⟨?_, ?_, ?_, h.numbered, fun hf => absurd hf hnew, by rw [hlast]; exact h.status,
    by rw [hlast]; exact h.failed, fun hjf _ => h.alive hjf rfl⟩
  all_goals rcases hl with rfl | rfl <;> simp_all

/-- **A call of a worker** keeps the invariant. -/
theorem ProcessInv.worker {t : Nat} {e : Sys β} {a : Answers β} {r : e.Ret} (ht : t ≠ 0)
    (hi : ProcessInv joinFails w) (hmay : (workerView t).may (w.own t) e)
    (hact : (processSystem joinFails).act w t e a = some (r, s)) :
    ProcessInv joinFails (w.push t s ⟨e, r⟩) := by
  obtain ⟨hrun, hcall⟩ := processSystem_act hact
  have hlife := hrun.resolve_left ht
  have h := hi.2 t
  rw [hlife] at h
  cases e with
  | setThreadStatus n status =>
    obtain ⟨x, hx, heq⟩ := Option.map_eq_some_iff.mp hcall
    cases heq
    obtain ⟨rfl, hfailed⟩ := hmay
    refine hi.push_worker ht rfl (fun _ _ => rfl) (fun m hm => Function.update_of_ne hm ..) ?_
    simp only [Process.modify, hlife, hx, Function.update_self, Option.map_some]
    refine ⟨h.born, h.joined, fun _ hu => (by cases hu), fun _ => h.numbered (by rw [hx]; rfl),
      h.fresh, fun y hy => ?_, fun hf => absurd (h.failed hf) hfailed, fun _ _ => rfl⟩
    cases hy
    rw [lastStatus_push]
    rfl
  | mutexLock | mutexUnlock =>
    simp only [processCall] at hcall
    split at hcall <;> cases hcall
    exact hi.push_worker ht rfl (fun _ _ => rfl) (fun _ _ => rfl) (h.push _ rfl (.inl hlife))
  | getClientFd _ | openFile _ _ | write _ _ | read _ _ | close _ | recv _ _ | send _ _ _ =>
    obtain rfl := processCall_passive rfl hcall
    exact hi.push_worker ht rfl (fun _ _ => rfl) (fun _ _ => rfl) (h.push _ rfl (.inl hlife))
  | pthreadExit =>
    cases hcall
    exact hi.push_worker ht rfl (fun n hn => Function.update_of_ne hn ..) (fun _ _ => rfl)
      (h.push _ rfl (.inr (Function.update_self ..)))
  | _ => exact hmay.elim

end Inv

/-! ## The contract -/

/-- `application` keeps to its picture, a worker to its own node. Nobody else changes either. -/
def processContract (joinFails : Bool) : Contract (@processSystem β joinFails) where
  inv := ProcessInv joinFails
  rely t w w' := if t = 0 then picture w' = picture w else w'.own t = w.own t
  pre w t e :=
    if t = 0 then (mainView joinFails).may (picture w) e else (workerView t).may (w.own t) e
  spins t := t ≠ 0
  rely_refl t w := by split <;> rfl
  rely_trans {t w₁ w₂ w₃} h₁ h₂ := by
    by_cases ht : t = 0
    · rw [if_pos ht] at h₁ h₂ ⊢
      exact h₂.trans h₁
    · rw [if_neg ht] at h₁ h₂ ⊢
      exact h₂.trans h₁
  keeps {w t e a r s} hi hpre hact := by
    by_cases ht : t = 0
    · subst ht
      rw [if_pos rfl] at hpre
      refine ⟨hi.main hpre hact, fun t' ht' => ?_⟩
      rw [if_neg ht']
      exact World.own_push_ne w s _ ht'
    · rw [if_neg ht] at hpre
      refine ⟨hi.worker ht hpre hact, fun t' ht' => ?_⟩
      split
      · exact picture_worker ht hpre hact
      · exact World.own_push_ne w s _ ht'

theorem knows_main (joinFails : Bool) :
    (@processContract β joinFails).Knows 0 (mainView joinFails) picture where
  stable h := h
  pre _ h := h
  act _ hmay hact := picture_main hmay hact
  spins h := h.elim

theorem knows_worker (joinFails : Bool) {t : Nat} (ht : t ≠ 0) :
    (@processContract β joinFails).Knows t (workerView t) (fun w => w.own t) where
  stable h := by simpa [processContract, ht] using h
  pre _ h := by simpa [processContract, ht] using h
  act {w e a r s} _ _ _ := ⟨trivial, World.own_push_self w s _ t⟩
  spins _ := ht

theorem processInv_start (joinFails : Bool) (garbage : Option Nat) :
    ProcessInv joinFails (processStart garbage : ProcessWorld β) := by
  refine ⟨Nat.one_pos, fun n => ?_⟩
  constructor <;> simp [processStart, World.own, Book.of, Book.empty]

end Aesd.Server

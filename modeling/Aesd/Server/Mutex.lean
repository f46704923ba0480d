import Aesd.Infra.Threads
import Aesd.Server.Worker

/-!
# `result_file_mutex`

Every access to the result file, and every transfer from and to a client, is made by a thread that
holds the mutex. So between a lock and the next unlock of a thread nobody else changes what these
calls act on, and a thread can be reasoned about as if it were alone.

What the calls do is a parameter: a regular file, or the device.
-/

namespace Aesd.Server

open Infra

variable {β F A : Type}

/-! ## The system -/

/-- The calls that need the mutex. -/
def guarded : Sys β → Bool
  | .openFile _ _ | .write _ _ | .read _ _ | .recv _ _ | .send _ _ _ => true
  | _ => false

/-- The calls that tell what happens to the result file. -/
def critical : Sys β → Bool
  | .mutexLock => true
  | e => guarded e

/-- What the calls of thread `t` do to the file and the clients. -/
structure Io (β F A : Type) where
  call : Nat → (e : Sys β) → F → A → Option (e.Ret × F)
  /-- a call that does not need the mutex changes nothing -/
  frame : ∀ {t e f a r f'}, guarded e = false → call t e f a = some (r, f') → f' = f

/-- The holder of `result_file_mutex`, and what it protects. -/
structure Shared (F : Type) where
  mutex : Option Nat
  file : F

/-- A free mutex is taken by the thread that locks it, and released by its holder only. -/
def Io.system (io : Io β F A) : System (@Sys.Ret β) (Shared F) A where
  act w t e a :=
    match e with
    | .mutexLock =>
      if w.state.mutex = none then some ((), { w.state with mutex := some t }) else none
    | .mutexUnlock =>
      if w.state.mutex = some t then some ((), { w.state with mutex := none }) else none
    | e => (io.call t e w.state.file a).map fun x => (x.1, { w.state with file := x.2 })

/-- A world of the server's threads. -/
abbrev ServerWorld (β F : Type) := World (@Sys.Ret β) (Shared F)

/-- The calls under the mutex so far, and the locks. -/
def history (w : ServerWorld β F) : List (Nat × SysEvent β) :=
  w.trace.filter fun x => critical x.2.1

theorem history_push (w : ServerWorld β F) (t : Nat) (s : Shared F) (e : SysEvent β) :
    history (w.push t s e) = history w ++ if critical e.1 then [(t, e)] else [] := by
  unfold history
  rw [World.push_trace, List.filter_append]
  cases hc : critical e.1 <;> simp [hc]

/-- The calls that the mutex is not about. -/
def Sys.plain : Sys β → Bool
  | .mutexLock | .mutexUnlock => false
  | _ => true

/-- What a call that is no lock and no unlock does. -/
theorem system_act_plain (io : Io β F A) {w : ServerWorld β F} {t : Nat} {e : Sys β} {a : A}
    {r : e.Ret} {s : Shared F} (he : e.plain = true)
    (h : io.system.act w t e a = some (r, s)) :
    ∃ f, io.call t e w.state.file a = some (r, f) ∧ s = { w.state with file := f } := by
  have hcall : io.system.act w t e a = (io.call t e w.state.file a).map fun x =>
      (x.1, { w.state with file := x.2 }) := by
    cases e <;> first | rfl | cases he
  rw [hcall] at h
  obtain ⟨⟨r', f⟩, hf, heq⟩ := Option.map_eq_some_iff.mp h
  cases heq
  exact ⟨f, hf, rfl⟩

theorem system_act_lock (io : Io β F A) {w : ServerWorld β F} {t : Nat} {a : A} {r : Unit}
    {s : Shared F} (h : io.system.act w t .mutexLock a = some (r, s)) :
    w.state.mutex = none ∧ s = { w.state with mutex := some t } := by
  simp only [Io.system] at h
  split at h
  · cases h
    exact ⟨‹_›, rfl⟩
  · cases h

theorem system_act_unlock (io : Io β F A) {w : ServerWorld β F} {t : Nat} {a : A} {r : Unit}
    {s : Shared F} (h : io.system.act w t .mutexUnlock a = some (r, s)) :
    w.state.mutex = some t ∧ s = { w.state with mutex := none } := by
  simp only [Io.system] at h
  split at h
  · cases h
    exact ⟨‹_›, rfl⟩
  · cases h

theorem critical_plain {e : Sys β} (he : e.plain = true) : critical e = guarded e := by
  cases e <;> first | rfl | cases he

/-! ## The contract -/

/-- What is true of the protected state and its history, and which calls keep it so. -/
structure Protected (io : Io β F A) where
  inv : Option Nat → F → List (Nat × SysEvent β) → Prop
  /-- what a thread heeds at its calls under the mutex -/
  pre : Nat → Sys β → Prop
  lock : ∀ {t f h}, inv none f h → inv (some t) f (h ++ [(t, ⟨.mutexLock, ()⟩)])
  unlock : ∀ {t f h}, inv (some t) f h → inv none f h
  call : ∀ {t e f a r f' h}, inv (some t) f h → guarded e = true → pre t e →
    io.call t e f a = some (r, f') → inv (some t) f' (h ++ [(t, ⟨e, r⟩)])

/-- Nobody touches the calls of another thread, or the protected state of the holder. -/
structure Undisturbed (t : Nat) (w w' : ServerWorld β F) : Prop where
  own : w'.own t = w.own t
  grows : history w <+: history w'
  held : w.state.mutex = some t → w'.state = w.state ∧ history w' = history w

theorem Undisturbed.refl (t : Nat) (w : ServerWorld β F) : Undisturbed t w w :=
  ⟨rfl, List.prefix_refl _, fun _ => ⟨rfl, rfl⟩⟩

theorem Undisturbed.trans {t : Nat} {w₁ w₂ w₃ : ServerWorld β F} (h₁ : Undisturbed t w₁ w₂)
    (h₂ : Undisturbed t w₂ w₃) : Undisturbed t w₁ w₃ where
  own := h₂.own.trans h₁.own
  grows := h₁.grows.trans h₂.grows
  held hm := by
    obtain ⟨hs, hh⟩ := h₁.held hm
    obtain ⟨hs', hh'⟩ := h₂.held (by rw [hs]; exact hm)
    exact ⟨hs'.trans hs, hh'.trans hh⟩

/-- A call of another thread. -/
theorem undisturbed_push {t t' : Nat} (ht : t' ≠ t) (w : ServerWorld β F) (s : Shared F)
    (e : SysEvent β) (hheld : w.state.mutex = some t' → s = w.state ∧ critical e.1 = false) :
    Undisturbed t' w (w.push t s e) where
  own := World.own_push_ne w s e ht
  grows := by
    rw [history_push]
    exact List.prefix_append _ _
  held hm := by
    obtain ⟨hs, hc⟩ := hheld hm
    rw [history_push, hc]
    exact ⟨hs, List.append_nil _⟩

/-- The contract of all threads. Loops may run for as long as they like. -/
def Protected.contract {io : Io β F A} (P : Protected io) : Contract io.system where
  inv w := P.inv w.state.mutex w.state.file (history w)
  rely := Undisturbed
  pre w t e := (guarded e = true → w.state.mutex = some t ∧ P.pre t e) ∧
    (e = .mutexUnlock → w.state.mutex = some t)
  spins _ := True
  rely_refl := Undisturbed.refl
  rely_trans := Undisturbed.trans
  keeps {w t e a r s} hi hp hact := by
    obtain ⟨hg, hu⟩ := hp
    cases he : e.plain with
    | true =>
      obtain ⟨f, hcall, rfl⟩ := system_act_plain io he hact
      simp only [history_push, critical_plain he, World.push_state]
      cases hge : guarded e with
      | true =>
        obtain ⟨hm, hpre⟩ := hg hge
        rw [hm] at hi ⊢
        refine ⟨P.call hi hge hpre hcall, fun t' ht => undisturbed_push ht w _ _ fun hm' => ?_⟩
        exact absurd (Option.some.inj (hm'.symm.trans hm)) ht
      | false =>
        rw [io.frame hge hcall]
        refine ⟨by simpa using hi, fun t' ht => undisturbed_push ht w _ _ fun _ => ⟨rfl, ?_⟩⟩
        rw [critical_plain he, hge]
    | false =>
      have hlock : e = .mutexLock ∨ e = .mutexUnlock := by
        cases e <;> first | exact Or.inl rfl | exact Or.inr rfl | cases he
      rcases hlock with rfl | rfl
      · obtain ⟨hm, rfl⟩ := system_act_lock io hact
        rw [hm] at hi
        refine ⟨?_, fun t' ht => undisturbed_push ht w _ _ fun hm' => ?_⟩
        · rw [history_push]
          exact P.lock hi
        · rw [hm] at hm'
          cases hm'
      · obtain ⟨hm, rfl⟩ := system_act_unlock io hact
        rw [hm] at hi
        refine ⟨?_, fun t' ht => undisturbed_push ht w _ _ fun hm' => ?_⟩
        · rw [history_push]
          simpa [critical, guarded] using P.unlock hi
        · exact absurd (Option.some.inj (hm'.symm.trans hm)) ht

/-! ## Inside a critical section -/

/-- Thread `t` holds the mutex over `f`, with this history and these calls of its own. -/
structure Inside (t : Nat) (f : F) (h : List (Nat × SysEvent β)) (own : List (SysEvent β))
    (w : ServerWorld β F) : Prop where
  mutex : w.state.mutex = some t
  file : w.state.file = f
  hist : history w = h
  own : w.own t = own

variable {io : Io β F A} {P : Protected io} {α : Type} {t : Nat} {f : F}
  {h : List (Nat × SysEvent β)} {own : List (SysEvent β)} {w w' : ServerWorld β F}
  {Q : α → ServerWorld β F → Prop}

theorem Inside.stable (hw : Inside t f h own w) (hu : Undisturbed t w w') :
    Inside t f h own w' := by
  obtain ⟨hs, hh⟩ := hu.held hw.mutex
  exact ⟨by rw [hs]; exact hw.mutex, by rw [hs]; exact hw.file, hh.trans hw.hist,
    hu.own.trans hw.own⟩

theorem inside_lock (hu : Undisturbed t w w') :
    Inside t w'.state.file (history w' ++ [(t, ⟨.mutexLock, ()⟩)]) (w.own t ++ [⟨.mutexLock, ()⟩])
      (w'.push t { w'.state with mutex := some t } ⟨.mutexLock, ()⟩) := by
  refine ⟨rfl, rfl, ?_, ?_⟩
  · rw [history_push]
    rfl
  · rw [World.own_push_self, hu.own]

/-- **A call inside a critical section.** -/
theorem wp_inside {e : Sys β} {k : e.Ret → ServerProg β α} (hw : Inside t f h own w)
    (he : e.plain = true) (hpre : guarded e = true → P.pre t e)
    (hk : ∀ a r f' w', io.call t e f a = some (r, f') →
      Inside t f' (h ++ if guarded e then [(t, ⟨e, r⟩)] else []) (own ++ [⟨e, r⟩]) w' →
      P.contract.wp t (k r) Q w') :
    P.contract.wp t (.call e k) Q w := by
  intro w₁ hu hi
  have hw₁ := hw.stable hu
  refine ⟨⟨fun hg => ⟨hw₁.mutex, hpre hg⟩, fun hc => ?_⟩, fun a r s hact => ?_⟩
  · rw [hc] at he
    cases he
  · obtain ⟨f', hcall, rfl⟩ := system_act_plain io he hact
    rw [hw₁.file] at hcall
    refine hk a r f' _ hcall ⟨hw₁.mutex, rfl, ?_, ?_⟩
    · rw [history_push, hw₁.hist, critical_plain he]
    · rw [World.own_push_self, hw₁.own]

/-- **Locking** starts one, from any world that the other threads can bring about. -/
theorem wp_lock {k : Unit → ServerProg β α} (hk : ∀ w₁ w', Undisturbed t w w₁ →
      P.inv none w₁.state.file (history w₁) →
      Inside t w₁.state.file (history w₁ ++ [(t, ⟨.mutexLock, ()⟩)])
        (w.own t ++ [⟨.mutexLock, ()⟩]) w' →
      P.contract.wp t (k ()) Q w') :
    P.contract.wp t (.call .mutexLock k) Q w := by
  intro w₁ hu hi
  refine ⟨⟨fun hg => (by cases hg), fun hc => (by cases hc)⟩, fun a r s hact => ?_⟩
  obtain ⟨hm, rfl⟩ := system_act_lock io hact
  have hi' : P.inv w₁.state.mutex w₁.state.file (history w₁) := hi
  rw [hm] at hi'
  exact hk w₁ _ hu hi' (inside_lock hu)

/-- **Unlocking** ends it. -/
theorem wp_unlock {k : Unit → ServerProg β α} (hw : Inside t f h own w)
    (hk : ∀ w', P.inv none f h → h <+: history w' → w'.own t = own ++ [⟨.mutexUnlock, ()⟩] →
      P.contract.wp t (k ()) Q w') :
    P.contract.wp t (.call .mutexUnlock k) Q w := by
  intro w₁ hu hi
  have hw₁ := hw.stable hu
  refine ⟨⟨fun hg => (by cases hg), fun _ => hw₁.mutex⟩, fun a r s hact => ?_⟩
  have hi' : P.inv w₁.state.mutex w₁.state.file (history w₁) := hi
  rw [hw₁.mutex, hw₁.file, hw₁.hist] at hi'
  refine hk _ (P.unlock hi') ?_ ?_
  · rw [history_push, hw₁.hist]
    exact List.prefix_append _ _
  · rw [World.own_push_self, hw₁.own]

/-- **A call outside**, which does not need the mutex. -/
theorem wp_outside {e : Sys β} {k : e.Ret → ServerProg β α} (hown : w.own t = own)
    (hh : h <+: history w) (he : e.plain = true) (hg : guarded e = false)
    (hk : ∀ r w', h <+: history w' → w'.own t = own ++ [⟨e, r⟩] →
      P.contract.wp t (k r) Q w') :
    P.contract.wp t (.call e k) Q w := by
  intro w₁ hu hi
  refine ⟨⟨fun hg' => ?_, fun hc => ?_⟩, fun a r s hact => ?_⟩
  · rw [hg] at hg'
    cases hg'
  · rw [hc] at he
    cases he
  · refine hk r _ ?_ ?_
    · rw [history_push]
      exact (hh.trans hu.grows).trans (List.prefix_append _ _)
    · rw [World.own_push_self, hu.own, hown]

end Aesd.Server

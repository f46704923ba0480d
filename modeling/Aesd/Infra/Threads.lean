import Mathlib.Logic.Function.Basic
import Aesd.Infra.Handles
import Aesd.Infra.Prog

/-!
# Threads that share a state

Any number of threads, each with a program, whose calls act on one state in any order. A schedule
says who moves next and which of the possible outcomes its call has; a call that cannot be answered
now (a mutex that is held) has none, and its thread waits.

What the threads do to each other is described by a contract: an invariant, for each thread what
the others may do to it (`rely`), and under which condition it makes a call (`pre`). `wp` is what a
thread needs to keep to it on its own; `Contract.Good.run` puts the threads together.
-/

namespace Infra

variable {E : Type} {R : E → Type} {σ A α β : Type}

/-! ## Worlds and schedules -/

/-- The state and all calls so far, each with the thread that made it. -/
structure World {E : Type} (R : E → Type) (σ : Type) where
  state : σ
  trace : List (Nat × Event R)

namespace World

/-- The calls of thread `t`. -/
def own (w : World R σ) (t : Nat) : List (Event R) :=
  (w.trace.filter fun x => x.1 == t).map Prod.snd

/-- Thread `t` has made a call. -/
def push (w : World R σ) (t : Nat) (s : σ) (e : Event R) : World R σ :=
  { state := s, trace := w.trace ++ [(t, e)] }

variable (w : World R σ) (s : σ) (e : Event R)

@[simp] theorem push_state (t : Nat) : (w.push t s e).state = s := rfl

@[simp] theorem push_trace (t : Nat) : (w.push t s e).trace = w.trace ++ [(t, e)] := rfl

@[simp] theorem own_push_self (t : Nat) : (w.push t s e).own t = w.own t ++ [e] := by
  simp [own, push, List.filter_append]

theorem own_push_ne {t t' : Nat} (h : t' ≠ t) : (w.push t s e).own t' = w.own t' := by
  simp [own, push, List.filter_append, Ne.symm h]

end World

/-- What a call of a thread does: its answer and the new state, if it can be answered. The `A`
picks one of the possible outcomes. -/
structure System {E : Type} (R : E → Type) (σ A : Type) where
  act : World R σ → Nat → (e : E) → A → Option (R e × σ)

/-- The world and what each thread has left to do. -/
structure Config {E : Type} (R : E → Type) (σ α : Type) where
  world : World R σ
  prog : Nat → Prog R α

namespace System

variable (S : System R σ A)

/-- Thread `t` makes its next call. -/
def step (c : Config R σ α) (t : Nat) (a : A) : Option (Config R σ α) :=
  match c.prog t with
  | .call e k => (S.act c.world t e a).map fun x =>
    { world := c.world.push t x.2 ⟨e, x.1⟩, prog := Function.update c.prog t (k x.1) }
  | _ => none

/-- The schedule, from `c` on. -/
def run (c : Config R σ α) : List (Nat × A) → Option (Config R σ α)
  | [] => some c
  | m :: ms => (S.step c m.1 m.2).bind fun c' => run c' ms

/-- The system in which only calls that `g` allows are made. -/
def restrict (g : World R σ → Nat → E → Bool) : System R σ A where
  act w t e a := if g w t e then S.act w t e a else none

variable {S}

theorem restrict_act {g : World R σ → Nat → E → Bool} {w : World R σ} {t : Nat} {e : E} {a : A}
    {x : R e × σ} (h : (S.restrict g).act w t e a = some x) :
    g w t e = true ∧ S.act w t e a = some x := by
  unfold restrict at h
  dsimp only at h
  split at h
  · exact ⟨‹_›, h⟩
  · cases h

/-- What one step does. -/
theorem step_eq_some {c c' : Config R σ α} {t : Nat} {a : A} (h : S.step c t a = some c') :
    ∃ e k r s, c.prog t = .call e k ∧ S.act c.world t e a = some (r, s) ∧
      c' = { world := c.world.push t s ⟨e, r⟩, prog := Function.update c.prog t (k r) } := by
  unfold step at h
  split at h
  · next e k hp =>
    obtain ⟨⟨r, s⟩, hact, rfl⟩ := Option.map_eq_some_iff.mp h
    exact ⟨e, k, r, s, hp, hact, rfl⟩
  · cases h

/-- One call, as a run. -/
theorem run_call {c : Config R σ α} {t : Nat} {a : A} {e : E} {k : R e → Prog R α} {r : R e} {s : σ}
    (hp : c.prog t = .call e k) (hact : S.act c.world t e a = some (r, s)) :
    S.run c [(t, a)] =
      some { world := c.world.push t s ⟨e, r⟩, prog := Function.update c.prog t (k r) } := by
  simp [run, step, hp, hact]

theorem run_append {c c₁ c₂ : Config R σ α} {ms₁ ms₂ : List (Nat × A)}
    (h₁ : S.run c ms₁ = some c₁) (h₂ : S.run c₁ ms₂ = some c₂) :
    S.run c (ms₁ ++ ms₂) = some c₂ := by
  induction ms₁ generalizing c with
  | nil =>
    cases h₁
    exact h₂
  | cons m ms₁ ih =>
    obtain ⟨c', hs, hr⟩ := Option.bind_eq_some_iff.mp h₁
    exact Option.bind_eq_some_iff.mpr ⟨c', hs, ih hr⟩

/-! ### Only some answers -/

open Classical in
/-- The system in which a call only has answers that `g` allows after the calls so far. -/
noncomputable def filter (S : System R σ A) (g : List (Nat × Event R) → Nat × Event R → Prop) :
    System R σ A where
  act w t e a := (S.act w t e a).filter fun x => g w.trace (t, ⟨e, x.1⟩)

theorem filter_act {g : List (Nat × Event R) → Nat × Event R → Prop} {w : World R σ} {t : Nat}
    {e : E} {a : A} {r : R e} {s : σ} : (S.filter g).act w t e a = some (r, s) ↔
      S.act w t e a = some (r, s) ∧ g w.trace (t, ⟨e, r⟩) := by
  simp [filter, Option.filter_eq_some_iff]

/-- A run only adds calls. -/
theorem run_trace {c c' : Config R σ α} {ms : List (Nat × A)} (h : S.run c ms = some c') :
    ∃ xs, c'.world.trace = c.world.trace ++ xs := by
  induction ms generalizing c with
  | nil =>
    cases h
    exact ⟨[], (List.append_nil _).symm⟩
  | cons m ms ih =>
    obtain ⟨c₁, hs, hr⟩ := Option.bind_eq_some_iff.mp h
    obtain ⟨e, k, r, s, -, -, rfl⟩ := step_eq_some hs
    obtain ⟨xs, hxs⟩ := ih hr
    exact ⟨(m.1, ⟨e, r⟩) :: xs, by rw [hxs]; simp⟩

/-- **A run whose answers are all allowed** is a run of the smaller system. -/
theorem run_filter {g : List (Nat × Event R) → Nat × Event R → Prop} {c c' : Config R σ α}
    {ms : List (Nat × A)} (h : S.run c ms = some c') (hg : Always g c'.world.trace) :
    (S.filter g).run c ms = some c' := by
  induction ms generalizing c with
  | nil => exact h
  | cons m ms ih =>
    obtain ⟨c₁, hs, hr⟩ := Option.bind_eq_some_iff.mp h
    obtain ⟨e, k, r, s, hp, hact, rfl⟩ := step_eq_some hs
    obtain ⟨xs, hxs⟩ := run_trace hr
    have hallowed : g c.world.trace (m.1, ⟨e, r⟩) :=
      hg c.world.trace (m.1, ⟨e, r⟩) xs (by rw [hxs]; simp)
    exact run_append (run_call hp (filter_act.mpr ⟨hact, hallowed⟩)) (ih hr)

/-- The calls are those of the schedule's threads. -/
theorem run_threads {c c' : Config R σ α} {ms : List (Nat × A)} (h : S.run c ms = some c') :
    c'.world.trace.map Prod.fst = c.world.trace.map Prod.fst ++ ms.map Prod.fst := by
  induction ms generalizing c with
  | nil =>
    cases h
    exact (List.append_nil _).symm
  | cons m ms ih =>
    obtain ⟨c₁, hs, hr⟩ := Option.bind_eq_some_iff.mp h
    obtain ⟨e, k, r, s, -, -, rfl⟩ := step_eq_some hs
    rw [ih hr, World.push_trace, List.map_append, List.append_assoc]
    rfl

/-- **Each thread runs its own program**, whatever the others do. -/
theorem run_leads {c c' : Config R σ α} {ms : List (Nat × A)} (h : S.run c ms = some c') (t : Nat) :
    ∃ es, c'.world.own t = c.world.own t ++ es ∧ (c.prog t).Leads es (c'.prog t) := by
  induction ms generalizing c with
  | nil =>
    cases h
    exact ⟨[], (List.append_nil _).symm, Prog.leads_nil.mpr rfl⟩
  | cons m ms ih =>
    obtain ⟨c₁, hs, hr⟩ := Option.bind_eq_some_iff.mp h
    obtain ⟨e, k, r, s, hp, -, rfl⟩ := step_eq_some hs
    obtain ⟨es, hown, hleads⟩ := ih hr
    dsimp only at hown hleads
    by_cases ht : t = m.1
    · subst ht
      rw [World.own_push_self, List.append_assoc] at hown
      rw [Function.update_self] at hleads
      refine ⟨⟨e, r⟩ :: es, hown, ?_⟩
      rw [hp]
      exact Prog.leads_call_cons.mpr ⟨r, rfl, hleads⟩
    · rw [World.own_push_ne _ _ _ ht] at hown
      rw [Function.update_of_ne ht] at hleads
      exact ⟨es, hown, hleads⟩

/-- **An invariant of all runs** in which every call is a `P`. -/
theorem run_invariant {P : E → Prop} {J : World R σ → Prop}
    (hstep : ∀ w t e a r s, P e → J w → S.act w t e a = some (r, s) → J (w.push t s ⟨e, r⟩))
    {c c' : Config R σ α} {ms : List (Nat × A)} (h : S.run c ms = some c') (hJ : J c.world)
    (hP : ∀ t, (c.prog t).Calls P) : J c'.world ∧ ∀ t, (c'.prog t).Calls P := by
  induction ms generalizing c with
  | nil =>
    cases h
    exact ⟨hJ, hP⟩
  | cons m ms ih =>
    obtain ⟨c₁, hs, hr⟩ := Option.bind_eq_some_iff.mp h
    obtain ⟨e, k, r, s, hp, hact, rfl⟩ := step_eq_some hs
    have hcall := hP m.1
    rw [hp] at hcall
    refine ih hr (hstep _ _ _ _ _ _ hcall.1 hJ hact) fun t => ?_
    dsimp only
    by_cases ht : t = m.1
    · subst ht
      rw [Function.update_self]
      exact hcall.2 r
    · rw [Function.update_of_ne ht]
      exact hP t

end System

/-! ## Contracts -/

/-- How the threads of a system get along. -/
structure Contract (S : System R σ A) where
  /-- holds always -/
  inv : World R σ → Prop
  /-- what the others may do while thread `t` makes no call -/
  rely : Nat → World R σ → World R σ → Prop
  /-- when thread `t` may make a call -/
  pre : World R σ → Nat → E → Prop
  /-- whether a loop of thread `t` may use up its rounds -/
  spins : Nat → Prop
  rely_refl : ∀ t w, rely t w w
  rely_trans : ∀ {t w₁ w₂ w₃}, rely t w₁ w₂ → rely t w₂ w₃ → rely t w₁ w₃
  /-- such a call keeps the invariant and is one of the things the others rely on -/
  keeps : ∀ {w t e a r s}, inv w → pre w t e → S.act w t e a = some (r, s) →
    inv (w.push t s ⟨e, r⟩) ∧ ∀ t', t' ≠ t → rely t' w (w.push t s ⟨e, r⟩)

namespace Contract

variable {S : System R σ A} (C : Contract S) (t : Nat)

/-- From world `w` on, thread `t` running `p` keeps to the contract, and `Q` holds of what it
returns and of the world from then on. -/
def wp : Prog R α → (α → World R σ → Prop) → World R σ → Prop
  | .ret a, Q, w => ∀ w', C.rely t w w' → C.inv w' → Q a w'
  | .call e k, Q, w => ∀ w', C.rely t w w' → C.inv w' → C.pre w' t e ∧
    ∀ a r s, S.act w' t e a = some (r, s) → wp (k r) Q (w'.push t s ⟨e, r⟩)
  | .spin, _, w => ∀ w', C.rely t w w' → C.inv w' → C.spins t

variable {C t} {Q Q' : α → World R σ → Prop} {w w' : World R σ}

/-- What the others do does not matter. -/
theorem wp_rely {p : Prog R α} (hr : C.rely t w w') (h : C.wp t p Q w) : C.wp t p Q w' := by
  cases p with
  | ret a =>
    intro w'' hr' hi
    exact h w'' (C.rely_trans hr hr') hi
  | call e k =>
    intro w'' hr' hi
    exact h w'' (C.rely_trans hr hr') hi
  | spin =>
    intro w'' hr' hi
    exact h w'' (C.rely_trans hr hr') hi

/-- The invariant may be assumed. -/
theorem wp_of_inv {p : Prog R α}
    (h : ∀ w', C.rely t w w' → C.inv w' → C.wp t p Q w') : C.wp t p Q w := by
  cases p with
  | ret a =>
    intro w' hr hi
    exact h w' hr hi w' (C.rely_refl t w') hi
  | call e k =>
    intro w' hr hi
    exact h w' hr hi w' (C.rely_refl t w') hi
  | spin =>
    intro w' hr hi
    exact h w' hr hi w' (C.rely_refl t w') hi

theorem wp_mono {p : Prog R α} (hQ : ∀ a w, C.inv w → Q a w → Q' a w) (h : C.wp t p Q w) :
    C.wp t p Q' w := by
  induction p generalizing w with
  | ret a =>
    intro w' hr hi
    exact hQ a w' hi (h w' hr hi)
  | call e k ih =>
    intro w' hr hi
    obtain ⟨hpre, hk⟩ := h w' hr hi
    exact ⟨hpre, fun a r s hact => ih r (hk a r s hact)⟩
  | spin => exact h

/-- What holds at the end goes on to hold. -/
theorem wp_stable {p : Prog R α} (h : C.wp t p Q w) :
    C.wp t p (fun a => C.wp t (.ret a) Q) w := by
  induction p generalizing w with
  | ret a =>
    intro w' hr _ w'' hr' hi'
    exact h w'' (C.rely_trans hr hr') hi'
  | call e k ih =>
    intro w' hr hi
    obtain ⟨hpre, hk⟩ := h w' hr hi
    exact ⟨hpre, fun a r s hact => ih r (hk a r s hact)⟩
  | spin => exact h

/-- One program after the other. -/
theorem wp_bind {f : α → Prog R β} {Q : β → World R σ → Prop} {p : Prog R α}
    (h : C.wp t p (fun a => C.wp t (f a) Q) w) : C.wp t (p.bind f) Q w := by
  induction p generalizing w with
  | ret a => exact wp_of_inv h
  | call e k ih =>
    intro w' hr hi
    obtain ⟨hpre, hk⟩ := h w' hr hi
    exact ⟨hpre, fun a r s hact => ih r (hk a r s hact)⟩
  | spin => exact h

/-- **A loop**, by an invariant that knows the number of rounds left. -/
theorem wp_iter {τ : Type} {body : τ → Prog R (τ ⊕ α)} (J : Nat → τ → World R σ → Prop)
    (hbody : ∀ n x w, J (n + 1) x w → C.wp t (body x) (Sum.elim (J n) Q) w)
    (hspin : ∀ x w, J 0 x w → C.spins t) :
    ∀ (n : Nat) (x : τ) (w : World R σ), J n x w → C.wp t (Prog.iter body n x) Q w
  | 0, x, w, hJ => fun _ _ _ => hspin x w hJ
  | n + 1, x, w, hJ => by
    refine wp_bind (wp_mono (fun y w' _ hy => ?_) (wp_stable (hbody n x w hJ)))
    cases y with
    | inl y => exact wp_of_inv fun w'' hr hi => wp_iter J hbody hspin n y w'' (hy w'' hr hi)
    | inr a => exact hy

/-- The contract when only some of the calls are made. -/
def restrict (C : Contract S) (g : World R σ → Nat → E → Bool) : Contract (S.restrict g) where
  inv := C.inv
  rely := C.rely
  pre := C.pre
  spins := C.spins
  rely_refl := C.rely_refl
  rely_trans := C.rely_trans
  keeps hi hp hact := C.keeps hi hp (System.restrict_act hact).2

end Contract

namespace Contract

variable {S : System R σ A} {C : Contract S}

/-- A thread that may make each of its calls at any time. -/
theorem wp_of_calls {P : E → Prop} {t : Nat} (hpre : ∀ {w e}, C.inv w → P e → C.pre w t e)
    (hspin : C.spins t) {p : Prog R α} (hp : p.Calls P) (w : World R σ) :
    C.wp t p (fun _ _ => True) w := by
  induction p generalizing w with
  | ret a => exact fun _ _ _ => trivial
  | call e k ih =>
    obtain ⟨he, hk⟩ := hp
    exact fun w' _ hi => ⟨hpre hi he, fun a r s _ => ih r (hk r) _⟩
  | spin => exact fun _ _ _ => hspin

end Contract

/-! ## What a thread knows by itself -/

/-- A thread's picture of the world: which calls it may make, what they answer, and how each
changes the picture. -/
structure View {E : Type} (R : E → Type) (V : Type) where
  may : V → E → Prop
  answers : V → (e : E) → R e → Prop
  next : V → Event R → V
  spins : Prop

namespace View

variable {V : Type} (D : View R V)

/-- Started with picture `v`, the program only makes calls that it may make, and `Q` holds of
what it returns and of the picture then. -/
def wp : Prog R α → (α → V → Prop) → V → Prop
  | .ret a, Q, v => Q a v
  | .call e k, Q, v => D.may v e ∧ ∀ r, D.answers v e r → wp (k r) Q (D.next v ⟨e, r⟩)
  | .spin, _, _ => D.spins

variable {D}

variable {Q Q' : α → V → Prop} {p : Prog R α} {v : V}

theorem wp_mono (hQ : ∀ a v, Q a v → Q' a v) (h : D.wp p Q v) : D.wp p Q' v := by
  induction p generalizing v with
  | ret a => exact hQ a v h
  | call e k ih =>
    obtain ⟨hmay, hk⟩ := h
    exact ⟨hmay, fun r hr => ih r (hk r hr)⟩
  | spin => exact h

theorem wp_bind {f : α → Prog R β} {Q : β → V → Prop} (h : D.wp p (fun a => D.wp (f a) Q) v) :
    D.wp (p.bind f) Q v := by
  induction p generalizing v with
  | ret a => exact h
  | call e k ih =>
    obtain ⟨hmay, hk⟩ := h
    exact ⟨hmay, fun r hr => ih r (hk r hr)⟩
  | spin => exact h

/-- **A run so far**: the program only made calls that it may make, and what is left of it is as
good as the whole was. -/
theorem wp_leads {es : List (Event R)} {q : Prog R α} (h : D.wp p Q v) (hes : p.Leads es q)
    (hans : ∀ pre x post, es = pre ++ x :: post → D.answers (pre.foldl D.next v) x.1 x.2) :
    D.wp q Q (es.foldl D.next v) ∧
      ∀ pre x post, es = pre ++ x :: post → D.may (pre.foldl D.next v) x.1 := by
  induction es generalizing p v with
  | nil =>
    rw [← Prog.leads_nil.mp hes]
    exact ⟨h, fun pre x post he => by simp at he⟩
  | cons y es ih =>
    cases p with
    | ret a => cases (Prog.leads_ret.mp hes).1
    | spin => cases (Prog.leads_spin.mp hes).1
    | call e k =>
      obtain ⟨r, rfl, hk⟩ := Prog.leads_call_cons.mp hes
      obtain ⟨hmay, hnext⟩ := h
      obtain ⟨hq, hrest⟩ := ih (hnext r (hans [] ⟨e, r⟩ es rfl)) hk fun pre x post he =>
        hans (⟨e, r⟩ :: pre) x post (by rw [he]; rfl)
      refine ⟨hq, fun pre x post he => ?_⟩
      cases pre with
      | nil =>
        cases he
        exact hmay
      | cons z pre =>
        obtain ⟨rfl, he'⟩ := List.cons.inj he
        exact hrest pre x post he'

/-- A program all of whose calls leave `J` alone. -/
theorem wp_calls {P : E → Prop} {J : V → Prop} (hmay : ∀ v e, J v → P e → D.may v e)
    (hnext : ∀ v e r, J v → P e → J (D.next v ⟨e, r⟩)) (hspin : D.spins) (hp : p.Calls P)
    (hv : J v) : D.wp p (fun _ => J) v := by
  induction p generalizing v with
  | ret a => exact hv
  | call e k ih =>
    obtain ⟨he, hk⟩ := hp
    exact ⟨hmay v e hv he, fun r _ => ih r (hk r) (hnext v e r hv he)⟩
  | spin => exact hspin

end View

namespace Contract

variable {S : System R σ A} {V : Type}

/-- Nobody else changes what thread `t` knows, and with that it can keep to the contract. -/
structure Knows (C : Contract S) (t : Nat) (D : View R V) (view : World R σ → V) : Prop where
  stable : ∀ {w w'}, C.rely t w w' → view w' = view w
  pre : ∀ {w e}, C.inv w → D.may (view w) e → C.pre w t e
  act : ∀ {w e a r s}, C.inv w → D.may (view w) e → S.act w t e a = some (r, s) →
    D.answers (view w) e r ∧ view (w.push t s ⟨e, r⟩) = D.next (view w) ⟨e, r⟩
  spins : D.spins → C.spins t

/-- **A thread can be looked at alone.** -/
theorem Knows.wp {C : Contract S} {t : Nat} {D : View R V} {view : World R σ → V}
    (hD : C.Knows t D view) {Q : α → V → Prop} {p : Prog R α} {w : World R σ}
    (h : D.wp p Q (view w)) : C.wp t p (fun a w' => Q a (view w')) w := by
  induction p generalizing w with
  | ret a =>
    intro w' hr _
    show Q a (view w')
    rw [hD.stable hr]
    exact h
  | call e k ih =>
    intro w' hr hi
    rw [← hD.stable hr] at h
    obtain ⟨hmay, hk⟩ := h
    refine ⟨hD.pre hi hmay, fun a r s hact => ih r ?_⟩
    obtain ⟨hans, hnext⟩ := hD.act hi hmay hact
    rw [hnext]
    exact hk r hans
  | spin =>
    intro _ _ _
    exact hD.spins h

end Contract

/-! ## More of the same threads -/

namespace Contract

variable {S : System R σ A} {V : Type}

end Contract

/-! ## Putting the threads together -/

namespace Contract

variable {S : System R σ A} {C : Contract S}

/-- Every thread keeps to the contract from here on. -/
def Good (C : Contract S) (Q : Nat → α → World R σ → Prop) (c : Config R σ α) : Prop :=
  C.inv c.world ∧ ∀ t, C.wp t (c.prog t) (Q t) c.world

variable {Q : Nat → α → World R σ → Prop} {c c' : Config R σ α}

/-- **One step** of any thread. -/
theorem Good.step (h : C.Good Q c) {t : Nat} {a : A} (hs : S.step c t a = some c') :
    C.Good Q c' := by
  obtain ⟨hi, hwp⟩ := h
  obtain ⟨e, k, r, s, hp, hact, rfl⟩ := System.step_eq_some hs
  have hcall := hwp t
  rw [hp] at hcall
  obtain ⟨hpre, hnext⟩ := hcall c.world (C.rely_refl t _) hi
  obtain ⟨hi', hothers⟩ := C.keeps hi hpre hact
  refine ⟨hi', fun t' => ?_⟩
  dsimp only
  by_cases ht : t' = t
  · subst ht
    rw [Function.update_self]
    exact hnext a r s hact
  · rw [Function.update_of_ne ht]
    exact wp_rely (hothers t' ht) (hwp t')

/-- **Every schedule.** -/
theorem Good.run {ms : List (Nat × A)} (h : C.Good Q c) (hr : S.run c ms = some c') :
    C.Good Q c' := by
  induction ms generalizing c with
  | nil =>
    cases hr
    exact h
  | cons m ms ih =>
    obtain ⟨c₁, hs, hr'⟩ := Option.bind_eq_some_iff.mp hr
    exact ih (h.step hs) hr'

theorem Good.ret (h : C.Good Q c) {t : Nat} {a : α} (hp : c.prog t = .ret a) : Q t a c.world := by
  have hw := h.2 t
  rw [hp] at hw
  exact hw c.world (C.rely_refl t _) h.1

theorem Good.call (h : C.Good Q c) {t : Nat} {e : E} {k : R e → Prog R α}
    (hp : c.prog t = .call e k) : C.pre c.world t e := by
  have hw := h.2 t
  rw [hp] at hw
  exact (hw c.world (C.rely_refl t _) h.1).1

theorem Good.spin (h : C.Good Q c) {t : Nat} (hp : c.prog t = .spin) : C.spins t := by
  have hw := h.2 t
  rw [hp] at hw
  exact hw c.world (C.rely_refl t _) h.1

end Contract

end Infra

import Mathlib.Data.List.Basic

/-!
# Programs over calls

A program is a tree: it returns, or makes a call and goes on with the answer. What a call does is
no part of it. `exec` runs a program on a state that answers every call in one way, and keeps
the calls it made together with their answers.

A loop has a number of rounds; a program whose loop needs more is `spin`.
-/

namespace Infra

/-! ## Programs -/

/-- A program that makes calls `e : E`, each answered by an `R e`, and returns an `α`. -/
inductive Prog {E : Type} (R : E → Type) (α : Type) where
  | ret (a : α)
  | call (e : E) (k : R e → Prog R α)
  /-- the rounds of a loop are used up -/
  | spin

/-- A call with its answer. -/
abbrev Event {E : Type} (R : E → Type) := (e : E) × R e

namespace Prog

variable {E : Type} {R : E → Type} {α β σ : Type}

/-- `p`, and `f` on what it returns. -/
def bind : Prog R α → (α → Prog R β) → Prog R β
  | .ret a, f => f a
  | .call e k, f => .call e fun r => (k r).bind f
  | .spin, _ => .spin

instance : Monad (Prog R) where
  pure := .ret
  bind := .bind

/-- The program that makes one call. -/
def perform (e : E) : Prog R (R e) := .call e .ret

/-- At most `rounds` rounds of `body`: each gives the next state of the loop or its result. -/
def iter (body : σ → Prog R (σ ⊕ α)) : (rounds : Nat) → σ → Prog R α
  | 0, _ => .spin
  | rounds + 1, s => (body s).bind (Sum.elim (iter body rounds) .ret)

/-- The program is done. -/
def isRet : Prog R α → Bool
  | .ret _ => true
  | _ => false

theorem isRet_iff {p : Prog R α} : p.isRet = true ↔ ∃ a, p = .ret a := by
  cases p <;> simp [isRet]

/-- What the program returned. -/
def returned : Prog R α → Option α
  | .ret a => some a
  | _ => none

theorem returned_eq_some {p : Prog R α} {a : α} : p.returned = some a ↔ p = .ret a := by
  cases p <;> simp [returned]

@[simp] theorem pure_eq (a : α) : (pure a : Prog R α) = .ret a := rfl

@[simp] theorem bind_eq (p : Prog R α) (f : α → Prog R β) : p >>= f = p.bind f := rfl

@[simp] theorem ret_bind (a : α) (f : α → Prog R β) : (Prog.ret a).bind f = f a := rfl

@[simp] theorem call_bind (e : E) (k : R e → Prog R α) (f : α → Prog R β) :
    (Prog.call e k).bind f = .call e fun r => (k r).bind f := rfl

@[simp] theorem spin_bind (f : α → Prog R β) : (Prog.spin : Prog R α).bind f = .spin := rfl

@[simp] theorem perform_bind (e : E) (f : R e → Prog R α) : (perform e).bind f = .call e f := rfl

theorem bind_assoc {γ : Type} (f : α → Prog R β) (g : β → Prog R γ) (p : Prog R α) :
    (p.bind f).bind g = p.bind fun a => (f a).bind g := by
  induction p with
  | ret a => rfl
  | call e k ih => exact congrArg (Prog.call e) (funext ih)
  | spin => rfl

theorem iter_succ (body : σ → Prog R (σ ⊕ α)) (rounds : Nat) (s : σ) :
    iter body (rounds + 1) s = (body s).bind (Sum.elim (iter body rounds) .ret) := rfl

/-! ## The calls of a program -/

/-- Every call that the program may make is a `P`. -/
def Calls (P : E → Prop) : Prog R α → Prop
  | .ret _ | .spin => True
  | .call e k => P e ∧ ∀ r, (k r).Calls P

theorem Calls.call {P : E → Prop} {e : E} {k : R e → Prog R α} (he : P e)
    (hk : ∀ r, (k r).Calls P) : (Prog.call e k).Calls P := ⟨he, hk⟩

theorem Calls.bind {P : E → Prop} {f : α → Prog R β} {p : Prog R α} (hp : p.Calls P)
    (hf : ∀ a, (f a).Calls P) : (p.bind f).Calls P := by
  induction p with
  | ret a => exact hf a
  | call e k ih =>
    obtain ⟨he, hk⟩ := hp
    exact ⟨he, fun r => ih r (hk r)⟩
  | spin => trivial

theorem Calls.iter {P : E → Prop} {body : σ → Prog R (σ ⊕ α)} (hbody : ∀ s, (body s).Calls P) :
    ∀ (rounds : Nat) (s : σ), (Prog.iter body rounds s).Calls P
  | 0, _ => trivial
  | rounds + 1, s => by
    refine (hbody s).bind fun x => ?_
    cases x with
    | inl s' => exact Calls.iter hbody rounds s'
    | inr a => trivial

theorem Calls.mono {P P' : E → Prop} {p : Prog R α} (hP : ∀ e, P e → P' e) (hp : p.Calls P) :
    p.Calls P' := by
  induction p with
  | ret a => trivial
  | call e k ih =>
    obtain ⟨he, hk⟩ := hp
    exact ⟨hP e he, fun r => ih r (hk r)⟩
  | spin => trivial

/-- The program makes the calls `es`, gets these answers, and is then `q`. -/
def Leads : Prog R α → List (Event R) → Prog R α → Prop
  | p, [], q => p = q
  | .call e k, x :: es, q => ∃ r, x = ⟨e, r⟩ ∧ (k r).Leads es q
  | _, _ :: _, _ => False

section Leads

variable {p q : Prog R α} {es : List (Event R)} {x : Event R} {a : α} {e : E} {k : R e → Prog R α}

@[simp] theorem leads_nil : p.Leads [] q ↔ p = q := by
  cases p <;> rfl

@[simp] theorem leads_call_cons :
    (Prog.call e k).Leads (x :: es) q ↔ ∃ r, x = ⟨e, r⟩ ∧ (k r).Leads es q := Iff.rfl

@[simp] theorem leads_ret : (Prog.ret a).Leads es q ↔ es = [] ∧ q = .ret a := by
  cases es with
  | nil => exact leads_nil.trans ⟨fun h => ⟨rfl, h.symm⟩, fun h => h.2.symm⟩
  | cons x es => exact ⟨False.elim, fun h => by cases h.1⟩

@[simp] theorem leads_spin : (Prog.spin : Prog R α).Leads es q ↔ es = [] ∧ q = .spin := by
  cases es with
  | nil => exact leads_nil.trans ⟨fun h => ⟨rfl, h.symm⟩, fun h => h.2.symm⟩
  | cons x es => exact ⟨False.elim, fun h => by cases h.1⟩

/-- A program that returns has made its first call. -/
theorem leads_call_ret : (Prog.call e k).Leads es (.ret a) ↔
    ∃ r es', es = ⟨e, r⟩ :: es' ∧ (k r).Leads es' (.ret a) := by
  cases es with
  | nil =>
    constructor
    · intro h
      cases leads_nil.mp h
    · rintro ⟨r, es', h, -⟩
      cases h
  | cons x es =>
    constructor
    · rintro ⟨r, rfl, h⟩
      exact ⟨r, es, rfl, h⟩
    · rintro ⟨r, es', h, hk⟩
      cases h
      exact ⟨r, rfl, hk⟩

/-- A program whose last call is another one has made its first call before. -/
theorem leads_call_push (hx : x.1 ≠ e) (h : (Prog.call e k).Leads (es ++ [x]) q) :
    ∃ r es', es = ⟨e, r⟩ :: es' ∧ (k r).Leads (es' ++ [x]) q := by
  cases es with
  | nil =>
    obtain ⟨r, rfl, -⟩ := h
    exact absurd rfl hx
  | cons y es =>
    obtain ⟨r, rfl, hk⟩ := h
    exact ⟨r, es, rfl, hk⟩

end Leads

/-! ## Running a program alone -/

/--
What the program returns, the calls it made, and the state it leaves. There is no result if a
call has none or if a loop used up its rounds.
-/
def exec (h : (e : E) → σ → Option (R e × σ)) : Prog R α → σ → Option (α × List (Event R) × σ)
  | .ret a, s => some (a, [], s)
  | .call e k, s => (h e s).bind fun x =>
    ((k x.1).exec h x.2).map fun y => (y.1, ⟨e, x.1⟩ :: y.2.1, y.2.2)
  | .spin, _ => none

variable {h : (e : E) → σ → Option (R e × σ)}

/-- One call, then the rest. -/
theorem exec_call {e : E} {k : R e → Prog R α} {s s₁ s₂ : σ} {r : R e} {a : α}
    {es : List (Event R)} (h₁ : h e s = some (r, s₁)) (h₂ : (k r).exec h s₁ = some (a, es, s₂)) :
    (Prog.call e k).exec h s = some (a, ⟨e, r⟩ :: es, s₂) := by
  simp [exec, h₁, h₂]

/-- One call, for what is returned and for the state then. -/
theorem exec_call_map {γ : Type} (f : α → σ → γ) {e : E} {k : R e → Prog R α} {s s₁ : σ} {r : R e}
    (h₁ : h e s = some (r, s₁)) :
    ((Prog.call e k).exec h s).map (fun x => f x.1 x.2.2)
      = ((k r).exec h s₁).map fun x => f x.1 x.2.2 := by
  rw [exec, h₁, Option.bind_some, Option.map_map]
  rfl

/-- The same without the calls. -/
def eval (h : (e : E) → σ → Option (R e × σ)) : Prog R α → σ → Option (α × σ)
  | .ret a, s => some (a, s)
  | .call e k, s => (h e s).bind fun x => (k x.1).eval h x.2
  | .spin, _ => none

@[simp] theorem eval_ret (a : α) (s : σ) : (Prog.ret a : Prog R α).eval h s = some (a, s) := rfl

@[simp] theorem eval_call (e : E) (k : R e → Prog R α) (s : σ) :
    (Prog.call e k).eval h s = (h e s).bind fun x => (k x.1).eval h x.2 := rfl

@[simp] theorem eval_perform (e : E) (s : σ) : (perform e).eval h s = h e s :=
  Option.bind_fun_some _

theorem eval_bind (f : α → Prog R β) (p : Prog R α) (s : σ) :
    (p.bind f).eval h s = (p.eval h s).bind fun x => (f x.1).eval h x.2 := by
  induction p generalizing s with
  | ret a => rfl
  | call e k ih =>
    rw [call_bind, eval_call, eval_call, Option.bind_assoc]
    exact congrArg (Option.bind _) (funext fun x => ih x.1 x.2)
  | spin => rfl

/-- The answers in `es` are those that the state gives, call after call. -/
def Follows (h : (e : E) → σ → Option (R e × σ)) : σ → List (Event R) → Prop
  | _, [] => True
  | s, x :: es => ∃ s', h x.1 s = some (x.2, s') ∧ Follows h s' es

end Prog

end Infra

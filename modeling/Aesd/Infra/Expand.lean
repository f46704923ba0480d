import Aesd.Infra.Threads

/-!
# Calls that are programs themselves

A program is first looked at with a call for everything it leaves to others. When one of these
calls is written out as a program, what was proved about the short version holds of the long one:
each run of the long version has a run of the short one beside it, in which the call is answered
at the moment its program returns (`Beside.run`).

The state may run ahead of the one beside it in what only the inner calls change.
-/

namespace Infra

variable {E : Type} {R : E → Type} {σ A α β : Type}

/-! ## Writing out a call -/

namespace Prog

variable {f : (e : E) → Option (Prog R (R e))}

/-- The program with every call `e` that `f` knows written out. -/
def expand (f : (e : E) → Option (Prog R (R e))) : Prog R α → Prog R α
  | .ret a => .ret a
  | .call e k =>
    match f e with
    | some p => p.bind fun r => (k r).expand f
    | none => .call e fun r => (k r).expand f
  | .spin => .spin

@[simp] theorem expand_ret (a : α) : (Prog.ret a : Prog R α).expand f = .ret a := rfl

@[simp] theorem expand_spin : (Prog.spin : Prog R α).expand f = .spin := rfl

theorem expand_known {e : E} {k : R e → Prog R α} {p : Prog R (R e)} (h : f e = some p) :
    (Prog.call e k).expand f = p.bind fun r => (k r).expand f := by
  rw [expand, h]

theorem expand_other {e : E} {k : R e → Prog R α} (h : f e = none) :
    (Prog.call e k).expand f = .call e fun r => (k r).expand f := by
  rw [expand, h]

theorem expand_bind (p : Prog R α) (g : α → Prog R β) :
    (p.bind g).expand f = (p.expand f).bind fun a => (g a).expand f := by
  induction p with
  | ret a => rfl
  | call e k ih =>
    cases h : f e with
    | some q =>
      rw [call_bind, expand_known h, expand_known h, bind_assoc]
      exact congrArg (Prog.bind q) (funext ih)
    | none =>
      rw [call_bind, expand_other h, expand_other h, call_bind]
      exact congrArg (Prog.call e) (funext ih)
  | spin => rfl

/-- A program without such calls. -/
theorem expand_eq_self {p : Prog R α} (h : p.Calls fun e => f e = none) : p.expand f = p := by
  induction p with
  | ret a => rfl
  | call e k ih =>
    obtain ⟨he, hk⟩ := h
    rw [expand_other he]
    exact congrArg (Prog.call e) (funext fun r => ih r (hk r))
  | spin => rfl

end Prog

/-! ## The two runs -/

/-- What makes a call as good as the program `f` has for it: thread `t₀` makes the calls, and
`sim s s'` says that `s'` is the state beside `s`. -/
structure Expands (S : System R σ A) (f : (e : E) → Option (Prog R (R e))) (t₀ : Nat)
    (inner : E → Prop) (sim : σ → σ → Prop) : Prop where
  calls : ∀ {e p}, f e = some p → p.Calls inner
  /-- the program makes a call at least -/
  busy : ∀ {e p}, f e = some p → ∀ r, p ≠ .ret r
  /-- a call that both runs make -/
  same : ∀ {w w' : World R σ} {t e a r s}, sim w.state w'.state → S.act w t e a = some (r, s) →
    ∃ a' s', S.act w' t e a' = some (r, s') ∧ sim s s'
  /-- a call that only the long run makes -/
  quiet : ∀ {w w' : World R σ} {e a r s}, inner e → sim w.state w'.state →
    S.act w t₀ e a = some (r, s) → sim s w'.state
  /-- the call that was written out can have any answer -/
  any : ∀ {s : σ} {w' : World R σ} {e p}, f e = some p → sim s w'.state → A → ∀ r : R e,
    ∃ a' s', S.act w' t₀ e a' = some (r, s') ∧ sim s s'

/-- What the long run has left to do, next to what the short one has. -/
inductive Tracks (f : (e : E) → Option (Prog R (R e))) (inner : E → Prop) :
    Prog R α → Prog R α → Prop where
  | level (p : Prog R α) : Tracks f inner (p.expand f) p
  /-- a call is being carried out -/
  | inside {e : E} (q : Prog R (R e)) (k : R e → Prog R α) : (f e).isSome = true →
    q.Calls inner → (∀ r, q ≠ .ret r) →
    Tracks f inner (q.bind fun r => (k r).expand f) (.call e k)

/-- The two configurations. -/
structure Beside (f : (e : E) → Option (Prog R (R e))) (t₀ : Nat) (inner : E → Prop)
    (sim : σ → σ → Prop) (c c' : Config R σ α) : Prop where
  state : sim c.world.state c'.world.state
  others : ∀ t, t ≠ t₀ → c.prog t = c'.prog t
  tracks : Tracks f inner (c.prog t₀) (c'.prog t₀)

section Runs

variable {S : System R σ A} {f : (e : E) → Option (Prog R (R e))} {t₀ : Nat} {inner : E → Prop}
  {sim : σ → σ → Prop}

theorem bind_ne_ret {p : Prog R α} {g : α → Prog R β} (hp : ∀ a, p ≠ .ret a) (b : β) :
    p.bind g ≠ .ret b := by
  cases p with
  | ret a => exact absurd rfl (hp a)
  | call e k => nofun
  | spin => nofun

theorem Tracks.ret (hS : Expands S f t₀ inner sim) {a : α} {p : Prog R α}
    (h : Tracks f inner (.ret a) p) : p = .ret a := by
  generalize hq : (Prog.ret a : Prog R α) = q at h
  cases h with
  | level =>
    cases p with
    | ret b => rfl
    | call e k =>
      cases hf : f e with
      | some p =>
        rw [Prog.expand_known hf] at hq
        exact absurd hq.symm (bind_ne_ret (hS.busy hf) a)
      | none =>
        rw [Prog.expand_other hf] at hq
        cases hq
    | spin => cases hq
  | inside q k hsome hcalls hne => exact absurd hq.symm (bind_ne_ret hne a)

/-- **The next call of the long run**: one that both make, or one inside. -/
theorem Tracks.call (hS : Expands S f t₀ inner sim) {e : E} {k : R e → Prog R α} {p : Prog R α}
    (h : Tracks f inner (.call e k) p) :
    (∃ k', p = .call e k' ∧ ∀ r, k r = (k' r).expand f) ∨
    ∃ (e' : E) (k' : R e' → Prog R α) (q : R e → Prog R (R e')), p = .call e' k' ∧
      (f e').isSome = true ∧ inner e ∧ (∀ r, (q r).Calls inner) ∧
      ∀ r, k r = (q r).bind fun r' => (k' r').expand f := by
  -- a call inside, by the program that is being carried out
  have hinside : ∀ {e'} (q : Prog R (R e')) (k' : R e' → Prog R α), (f e').isSome = true →
      q.Calls inner → (∀ r, q ≠ .ret r) →
      Prog.call e k = q.bind (fun r => (k' r).expand f) →
      ∃ q' : R e → Prog R (R e'), inner e ∧ (∀ r, (q' r).Calls inner) ∧
        ∀ r, k r = (q' r).bind fun r' => (k' r').expand f := by
    intro e' q k' _ hcalls hne heq
    cases q with
    | ret r => exact absurd rfl (hne r)
    | call e₁ k₁ =>
      cases heq
      exact ⟨k₁, hcalls.1, hcalls.2, fun r => rfl⟩
    | spin => cases heq
  generalize hq : (Prog.call e k : Prog R α) = q at h
  cases h with
  | level =>
    cases p with
    | ret b => cases hq
    | call e' k' =>
      cases hf : f e' with
      | some p =>
        rw [Prog.expand_known hf] at hq
        obtain ⟨q', hin, hcalls, hk⟩ :=
          hinside p k' (by rw [hf]; rfl) (hS.calls hf) (hS.busy hf) hq
        exact Or.inr ⟨e', k', q', rfl, by rw [hf]; rfl, hin, hcalls, hk⟩
      | none =>
        rw [Prog.expand_other hf] at hq
        cases hq
        exact Or.inl ⟨k', rfl, fun r => rfl⟩
    | spin => cases hq
  | inside q k' hsome hcalls hne =>
    obtain ⟨q', hin, hcalls', hk⟩ := hinside q k' hsome hcalls hne hq
    exact Or.inr ⟨_, k', q', rfl, hsome, hin, hcalls', hk⟩

/-- **One step**: the short run makes the same call, none, or the one that was written out. -/
theorem Beside.step (hS : Expands S f t₀ inner sim) {c c₁ c' : Config R σ α}
    (h : Beside f t₀ inner sim c c') {t : Nat} {a : A} (hs : S.step c t a = some c₁) :
    ∃ ms c₁', S.run c' ms = some c₁' ∧ Beside f t₀ inner sim c₁ c₁' := by
  obtain ⟨e, k, r, s, hp, hact, rfl⟩ := System.step_eq_some hs
  by_cases ht : t = t₀
  · subst ht
    have htracks := h.tracks
    rw [hp] at htracks
    rcases htracks.call hS with ⟨k', hp', hk⟩ | ⟨e', k', q, hp', hsome, hin, hcalls, hk⟩
    · obtain ⟨a', s', hact', hsim⟩ := hS.same h.state hact
      refine ⟨[(t, a')], _, System.run_call hp' hact', hsim, fun t' ht' => ?_, ?_⟩
      · simp only [Function.update_of_ne ht']
        exact h.others t' ht'
      · simp only [Function.update_self, hk r]
        exact .level _
    · have hquiet := hS.quiet hin h.state hact
      by_cases hret : ∃ r', q r = .ret r'
      · -- the call is done
        obtain ⟨r', hr'⟩ := hret
        obtain ⟨p, hf⟩ := Option.isSome_iff_exists.mp hsome
        obtain ⟨a', s', hact', hsim⟩ := hS.any hf hquiet a r'
        refine ⟨[(t, a')], _, System.run_call hp' hact', hsim, fun t' ht' => ?_, ?_⟩
        · simp only [Function.update_of_ne ht']
          exact h.others t' ht'
        · simp only [Function.update_self, hk r, hr', Prog.ret_bind]
          exact .level _
      · refine ⟨[], c', rfl, hquiet, fun t' ht' => ?_, ?_⟩
        · simp only [Function.update_of_ne ht']
          exact h.others t' ht'
        · simp only [Function.update_self, hk r, hp']
          exact .inside (q r) k' hsome (hcalls r) fun r' hr' => hret ⟨r', hr'⟩
  · obtain ⟨a', s', hact', hsim⟩ := hS.same h.state hact
    rw [h.others t ht] at hp
    refine ⟨[(t, a')], _, System.run_call hp hact', hsim, fun t' ht' => ?_, ?_⟩
    · dsimp only
      by_cases htt : t' = t
      · subst htt
        simp only [Function.update_self]
      · simp only [Function.update_of_ne htt]
        exact h.others t' ht'
    · simp only [Function.update_of_ne (Ne.symm ht)]
      exact h.tracks

/-- **Every run** of the long version has one of the short version beside it. -/
theorem Beside.run (hS : Expands S f t₀ inner sim) {c c₁ c' : Config R σ α}
    (h : Beside f t₀ inner sim c c') {ms : List (Nat × A)} (hr : S.run c ms = some c₁) :
    ∃ ms' c₁', S.run c' ms' = some c₁' ∧ Beside f t₀ inner sim c₁ c₁' := by
  induction ms generalizing c c' with
  | nil =>
    cases hr
    exact ⟨[], c', rfl, h⟩
  | cons m ms ih =>
    obtain ⟨c₂, hs, hr'⟩ := Option.bind_eq_some_iff.mp hr
    obtain ⟨ms₁, c₂', hrun₁, h₂⟩ := h.step hS hs
    obtain ⟨ms₂, c₁', hrun₂, h₁⟩ := ih h₂ hr'
    exact ⟨ms₁ ++ ms₂, c₁', System.run_append hrun₁ hrun₂, h₁⟩

end Runs

end Infra

import Aesd.Infra.Threads

/-!
# Operations under a lock

Threads that share a state and work on it in operations, each of which is a program of several
calls between a lock and an unlock. `run_atomic` says that nobody can tell: every run, however the
threads' calls are interleaved, is matched by one in which an operation is a single step. The steps
come in the order of the unlocks.
-/

namespace Infra

variable {E Op : Type} {R : E → Type} {RO : Op → Type} {σ A α β : Type}

/-! ## Calls under a lock -/

/-- The calls of a thread: the lock, and those that act on the state. -/
inductive Locked (E : Type) where
  | lock
  | unlock
  | inner (e : E)

@[reducible] def Locked.Ret (R : E → Type) : Locked E → Type
  | .lock | .unlock => Unit
  | .inner e => R e

/-- The state and the holder of the lock. What its calls will answer was chosen when it took the
lock. -/
structure Guarded (σ A : Type) where
  holder : Option (Nat × A)
  state : σ

/-- What decides the answer to a call of thread `t`. -/
def Guarded.choice (g : Guarded σ A) (t : Nat) (a : A) : A :=
  match g.holder with
  | some (t', a') => if t' = t then a' else a
  | none => a

/-- A free lock can be taken, and its holder can release it. No other call asks for the lock. -/
def lockSystem (h : A → (e : E) → σ → Option (R e × σ)) :
    System (Locked.Ret R) (Guarded σ A) A where
  act w t e a :=
    match e, w.state.holder with
    | .lock, none => some ((), { w.state with holder := some (t, a) })
    | .lock, some _ => none
    | .unlock, none => none
    | .unlock, some x => if x.1 = t then some ((), { w.state with holder := none }) else none
    | .inner e, _ => (h (w.state.choice t a) e w.state.state).map fun x =>
        (x.1, { w.state with state := x.2 })

namespace Prog

/-- The program as a part of a larger one that also locks. -/
def inner : Prog R α → Prog (Locked.Ret R) α
  | .ret a => .ret a
  | .call e k => .call (.inner e) fun r => (k r).inner
  | .spin => .spin

/-- The program between a lock and an unlock. -/
def locked (p : Prog R α) : Prog (Locked.Ret R) α :=
  .call .lock fun _ => p.inner.bind fun a => .call .unlock fun _ => .ret a

/-- The program without its locks and unlocks. -/
def unlocked : Prog (Locked.Ret R) α → Prog R α
  | .ret a => .ret a
  | .call .lock k => (k ()).unlocked
  | .call .unlock k => (k ()).unlocked
  | .call (.inner e) k => .call e fun r => (k r).unlocked
  | .spin => .spin

/-- Every operation of the program, written out as the calls that it makes. -/
def writeOut (prog : (op : Op) → Prog R (RO op)) : Prog RO α → Prog R α
  | .ret a => .ret a
  | .call op k => (prog op).bind fun r => (k r).writeOut prog
  | .spin => .spin

/-- The same where every operation is a body under the lock. -/
def sections (body : (op : Op) → Prog R (RO op)) : Prog RO α → Prog (Locked.Ret R) α
  | .ret a => .ret a
  | .call op k => .call .lock fun _ => (body op).inner.bind fun r =>
      .call .unlock fun _ => (k r).sections body
  | .spin => .spin

theorem writeOut_locked (body : (op : Op) → Prog R (RO op)) (p : Prog RO α) :
    p.writeOut (fun op => (body op).locked) = p.sections body := by
  induction p with
  | ret a => rfl
  | call op k ih =>
    rw [writeOut, sections, locked, call_bind]
    refine congrArg (Prog.call Locked.lock) (funext fun _ => ?_)
    rw [bind_assoc]
    exact congrArg (Prog.bind _) (funext fun r =>
      congrArg (Prog.call Locked.unlock) (funext fun _ => ih r))
  | spin => rfl

@[simp] theorem unlocked_inner (p : Prog R α) : p.inner.unlocked = p := by
  induction p with
  | ret a => rfl
  | call e k ih => exact congrArg (Prog.call e) (funext ih)
  | spin => rfl

theorem unlocked_bind (f : α → Prog (Locked.Ret R) β) (p : Prog (Locked.Ret R) α) :
    (p.bind f).unlocked = p.unlocked.bind fun a => (f a).unlocked := by
  induction p with
  | ret a => rfl
  | call e k ih =>
    cases e with
    | lock => exact ih ()
    | unlock => exact ih ()
    | inner e => exact congrArg (Prog.call e) (funext ih)
  | spin => rfl

/-- The program, which has the lock, gives it back exactly when it returns. -/
def Closes (p : Prog (Locked.Ret R) α) : Prop :=
  p = p.unlocked.inner.bind fun a => .call .unlock fun _ => .ret a

theorem closes_unlock (a : α) :
    Closes (Prog.call Locked.unlock fun _ => .ret a : Prog (Locked.Ret R) α) := rfl

theorem Closes.call {e : E} {k : R e → Prog (Locked.Ret R) α} (hk : ∀ r, (k r).Closes) :
    Closes (Prog.call (Locked.inner e) k) := congrArg (Prog.call (Locked.inner e)) (funext hk)

theorem Closes.inner_bind {f : α → Prog (Locked.Ret R) β} {p : Prog R α} (hf : ∀ a, (f a).Closes) :
    Closes (p.inner.bind f) := by
  induction p with
  | ret a => exact hf a
  | call e k ih => exact Closes.call ih
  | spin => rfl

/-- **A program that takes the lock first and gives it back last.** -/
theorem Closes.locked {p : Prog (Locked.Ret R) α} (hp : p.Closes) :
    Prog.call Locked.lock (fun _ => p) = p.unlocked.locked :=
  congrArg (Prog.call Locked.lock) (funext fun _ => hp)

end Prog

/-- The system in which an operation is one step. -/
def atomicSystem (body : (op : Op) → Prog R (RO op)) (h : A → (e : E) → σ → Option (R e × σ)) :
    System RO σ A where
  act w _ op a := (body op).eval (h a) w.state

/-! ## Both systems side by side -/

variable {body : (op : Op) → Prog R (RO op)} {h : A → (e : E) → σ → Option (R e × σ)}

/-- Nobody holds the lock, and nobody is in the middle of an operation. -/
structure Between (body : (op : Op) → Prog R (RO op))
    (c : Config (Locked.Ret R) (Guarded σ A) α) (c' : Config RO σ α) : Prop where
  holder : c.world.state.holder = none
  state : c.world.state.state = c'.world.state
  prog : ∀ t, c.prog t = (c'.prog t).sections body

/-- Thread `t` holds the lock. It has made some calls of operation `op` and has `p` left of it. -/
structure Within (body : (op : Op) → Prog R (RO op)) (h : A → (e : E) → σ → Option (R e × σ))
    (c : Config (Locked.Ret R) (Guarded σ A) α) (c' : Config RO σ α) (t : Nat) (a : A) (op : Op)
    (k : RO op → Prog RO α) (p : Prog R (RO op)) : Prop where
  holder : c.world.state.holder = some (t, a)
  next : c'.prog t = .call op k
  alone : (body op).eval (h a) c'.world.state = p.eval (h a) c.world.state.state
  prog : c.prog t = p.inner.bind fun r => .call .unlock fun _ => (k r).sections body
  others : ∀ t', t' ≠ t → c.prog t' = (c'.prog t').sections body

/-- The threads whose unlocks these are. -/
def unlocks (trace : List (Nat × Event (Locked.Ret R))) : List Nat :=
  trace.filterMap fun x => match x.2.1 with
    | .unlock => some x.1
    | _ => none

/-- The two systems are at the same point. -/
structure Matches (body : (op : Op) → Prog R (RO op)) (h : A → (e : E) → σ → Option (R e × σ))
    (c : Config (Locked.Ret R) (Guarded σ A) α) (c' : Config RO σ α) : Prop where
  order : unlocks c.world.trace = c'.world.trace.map Prod.fst
  now : Between body c c' ∨ ∃ t a op k p, Within body h c c' t a op k p

variable {c c₁ : Config (Locked.Ret R) (Guarded σ A) α} {c' : Config RO σ α}

/-- A thread that does not hold the lock is between two of its operations. -/
theorem Matches.prog_eq (hm : Matches body h c c') {t : Nat}
    (ht : ∀ x, c.world.state.holder = some x → x.1 ≠ t) :
    c.prog t = (c'.prog t).sections body := by
  rcases hm.now with hb | ⟨t', a, op, k, p, hw⟩
  · exact hb.prog t
  · exact hw.others t (Ne.symm (ht _ hw.holder))

theorem Matches.state_eq (hm : Matches body h c c') (hfree : c.world.state.holder = none) :
    c.world.state.state = c'.world.state := by
  rcases hm.now with hb | ⟨t', a, op, k, p, hw⟩
  · exact hb.state
  · rw [hw.holder] at hfree
    cases hfree

theorem unlocks_push (trace : List (Nat × Event (Locked.Ret R))) (t : Nat)
    (x : Event (Locked.Ret R)) :
    unlocks (trace ++ [(t, x)]) = unlocks trace ++ match x.1 with
      | .unlock => [t]
      | _ => [] := by
  unfold unlocks
  rw [List.filterMap_append]
  obtain ⟨e, r⟩ := x
  cases e <;> rfl

/-- **A step while the lock is free**: somebody takes it. -/
theorem Between.step (hb : Between body c c') {t : Nat} {a : A}
    (hs : (lockSystem h).step c t a = some c₁) :
    unlocks c₁.world.trace = unlocks c.world.trace ∧
      ∃ op k, Within body h c₁ c' t a op k (body op) := by
  obtain ⟨e, k, r, s, hp, hact, rfl⟩ := System.step_eq_some hs
  rw [hb.prog] at hp
  cases hc : c'.prog t with
  | ret x =>
    rw [hc] at hp
    cases hp
  | spin =>
    rw [hc] at hp
    cases hp
  | call op k' =>
    rw [hc] at hp
    cases hp
    simp only [lockSystem, hb.holder] at hact
    cases hact
    refine ⟨?_, op, k', rfl, hc, ?_, Function.update_self .., fun t' ht => ?_⟩
    · rw [World.push_trace, unlocks_push]
      exact List.append_nil _
    · rw [World.push_state, hb.state]
    · rw [← hb.prog]
      exact Function.update_of_ne ht ..

/-- **A step while thread `t` holds the lock** is one of thread `t`: a call of its operation, or the
unlock, which is when the operation takes place. -/
theorem Within.step {t t₁ : Nat} {a a₁ : A} {op : Op} {k : RO op → Prog RO α}
    {p : Prog R (RO op)} (hw : Within body h c c' t a op k p)
    (hs : (lockSystem h).step c t₁ a₁ = some c₁) :
    t₁ = t ∧
      ((unlocks c₁.world.trace = unlocks c.world.trace ∧
          ∃ p₁, Within body h c₁ c' t a op k p₁) ∨
        unlocks c₁.world.trace = unlocks c.world.trace ++ [t] ∧
          ∃ c₁', (atomicSystem body h).step c' t a = some c₁' ∧ Between body c₁ c₁' ∧
            c₁'.world.trace.map Prod.fst = c'.world.trace.map Prod.fst ++ [t]) := by
  obtain ⟨e, k₁, r, s, hp, hact, rfl⟩ := System.step_eq_some hs
  by_cases ht : t₁ = t
  · subst ht
    refine ⟨rfl, ?_⟩
    rw [hw.prog] at hp
    cases p with
    | spin => cases hp
    | call e' k' =>
      cases hp
      simp only [lockSystem, Guarded.choice, hw.holder, if_true] at hact
      obtain ⟨⟨r', s'⟩, hcall, heq⟩ := Option.map_eq_some_iff.mp hact
      cases heq
      refine Or.inl ⟨?_, k' r', rfl, hw.next, ?_, Function.update_self .., fun t' ht => ?_⟩
      · rw [World.push_trace, unlocks_push]
        exact List.append_nil _
      · rw [hw.alone, Prog.eval_call, hcall]
        rfl
      · rw [← hw.others t' ht]
        exact Function.update_of_ne ht ..
    | ret x =>
      cases hp
      simp only [lockSystem, hw.holder, if_true] at hact
      cases hact
      refine Or.inr ⟨?_, { world := c'.world.push t₁ c.world.state.state ⟨op, x⟩
                           prog := Function.update c'.prog t₁ (k x) }, ?_, ⟨rfl, rfl, fun t' => ?_⟩,
        ?_⟩
      · rw [World.push_trace, unlocks_push]
      · have hact : (atomicSystem body h).act c'.world t₁ op a
            = some (x, c.world.state.state) := hw.alone
        simp only [System.step, hw.next, hact, Option.map_some]
      · dsimp only
        by_cases ht : t' = t₁
        · subst ht
          rw [Function.update_self, Function.update_self]
        · rw [Function.update_of_ne ht, Function.update_of_ne ht, hw.others t' ht]
      · rw [World.push_trace, List.map_append]
        rfl
  · -- everybody else is about to take the lock
    rw [hw.others t₁ ht] at hp
    cases hc : c'.prog t₁ with
    | ret x =>
      rw [hc] at hp
      cases hp
    | spin =>
      rw [hc] at hp
      cases hp
    | call op' k' =>
      rw [hc] at hp
      cases hp
      simp only [lockSystem, hw.holder] at hact
      cases hact

/-- **One step** is none or one of the system with single steps. -/
theorem Matches.step (hm : Matches body h c c') {t : Nat} {a : A}
    (hs : (lockSystem h).step c t a = some c₁) :
    Matches body h c₁ c' ∨
      ∃ a' c₁', (atomicSystem body h).step c' t a' = some c₁' ∧ Matches body h c₁ c₁' := by
  rcases hm.now with hb | ⟨t', a', op, k, p, hw⟩
  · obtain ⟨ho, op, k, hw⟩ := hb.step hs
    exact Or.inl ⟨ho.trans hm.order, Or.inr ⟨t, a, op, k, _, hw⟩⟩
  · obtain ⟨rfl, ⟨ho, p₁, hw₁⟩ | ⟨ho, c₁', hs', hb, ho'⟩⟩ := hw.step hs
    · exact Or.inl ⟨ho.trans hm.order, Or.inr ⟨_, a', op, k, p₁, hw₁⟩⟩
    · exact Or.inr ⟨a', c₁', hs', by rw [ho, ho', hm.order], Or.inl hb⟩

/-- **Every run** of the operations' calls is a run of single steps. -/
theorem Matches.run (hm : Matches body h c c') {ms : List (Nat × A)}
    (hr : (lockSystem h).run c ms = some c₁) :
    ∃ ms' c₁', (atomicSystem body h).run c' ms' = some c₁' ∧ Matches body h c₁ c₁' := by
  induction ms generalizing c c' with
  | nil =>
    cases hr
    exact ⟨[], c', rfl, hm⟩
  | cons m ms ih =>
    obtain ⟨c₂, hs, hr⟩ := Option.bind_eq_some_iff.mp hr
    rcases hm.step hs with hm₂ | ⟨a', c₂', hs', hm₂⟩
    · exact ih hm₂ hr
    · obtain ⟨ms', c₁', hr', hm₁⟩ := ih hm₂ hr
      exact ⟨(m.1, a') :: ms', c₁', Option.bind_eq_some_iff.mpr ⟨c₂', hs', hr'⟩, hm₁⟩

/-! ## Runs from the start -/

/-- The lock is free, and each thread has its operations before it. -/
def lockedStart (A : Type) (body : (op : Op) → Prog R (RO op)) (s : σ)
    (clients : Nat → Prog RO α) : Config (Locked.Ret R) (Guarded σ A) α where
  world := { state := { holder := none, state := s }, trace := [] }
  prog t := (clients t).sections body

def atomicStart (s : σ) (clients : Nat → Prog RO α) : Config RO σ α where
  world := { state := s, trace := [] }
  prog := clients

theorem matches_start (s : σ) (clients : Nat → Prog RO α) :
    Matches body h (lockedStart A body s clients) (atomicStart s clients) :=
  ⟨rfl, Or.inl ⟨rfl, rfl, fun _ => rfl⟩⟩

/-- **Operations under a lock are atomic.** They take place in the order of the unlocks. -/
theorem run_atomic {s : σ} {clients : Nat → Prog RO α} {ms : List (Nat × A)}
    (hr : (lockSystem h).run (lockedStart A body s clients) ms = some c) :
    ∃ ms' c', (atomicSystem body h).run (atomicStart s clients) ms' = some c' ∧
      ms'.map Prod.fst = unlocks c.world.trace ∧ Matches body h c c' := by
  obtain ⟨ms', c', hr', hm⟩ := (matches_start s clients).run hr
  refine ⟨ms', c', hr', ?_, hm⟩
  rw [hm.order, System.run_threads hr']
  exact (List.nil_append _).symm

/-! ## Nobody is stuck -/

/-- While the lock is free, every call is answered. -/
theorem Between.can_step (hb : Between body c c') {t : Nat} {e : Locked E}
    {k : Locked.Ret R e → Prog (Locked.Ret R) α} (hp : c.prog t = .call e k) (a : A) :
    ∃ c₁, (lockSystem h).step c t a = some c₁ := by
  rw [hb.prog] at hp
  cases hc : c'.prog t with
  | ret x =>
    rw [hc] at hp
    cases hp
  | spin =>
    rw [hc] at hp
    cases hp
  | call op k' =>
    unfold System.step
    rw [hb.prog, hc]
    simp only [Prog.sections, lockSystem, hb.holder, Option.map_some]
    exact ⟨_, rfl⟩

/-- The holder of the lock can go on, if its operation comes to an end when it is alone. -/
theorem Within.can_step {t : Nat} {a : A} {op : Op} {k : RO op → Prog RO α}
    {p : Prog R (RO op)} (hw : Within body h c c' t a op k p)
    (htotal : ((body op).eval (h a) c'.world.state).isSome = true) (a₁ : A) :
    ∃ c₁, (lockSystem h).step c t a₁ = some c₁ := by
  obtain ⟨y, hy⟩ := Option.isSome_iff_exists.mp htotal
  rw [hw.alone] at hy
  unfold System.step
  rw [hw.prog]
  cases p with
  | spin => cases hy
  | ret r =>
    simp only [Prog.inner, Prog.ret_bind, lockSystem, hw.holder, if_true, Option.map_some]
    exact ⟨_, rfl⟩
  | call e k' =>
    obtain ⟨z, hz, -⟩ := Option.bind_eq_some_iff.mp hy
    simp only [Prog.inner, Prog.call_bind, lockSystem, Guarded.choice, hw.holder, if_true, hz,
      Option.map_some]
    exact ⟨_, rfl⟩

/-- **Every call is answered**, but for a lock that another thread holds, and that thread's call
is. -/
theorem Matches.can_step (hm : Matches body h c c')
    (htotal : ∀ t op k, c'.prog t = .call op k →
      ∀ a, ((body op).eval (h a) c'.world.state).isSome = true)
    {t : Nat} {e : Locked E} {k : Locked.Ret R e → Prog (Locked.Ret R) α}
    (hp : c.prog t = .call e k) (a : A) :
    (∃ c₁, (lockSystem h).step c t a = some c₁) ∨
      e = .lock ∧ ∃ x, c.world.state.holder = some x ∧ x.1 ≠ t ∧
        ∀ a', ∃ c₁, (lockSystem h).step c x.1 a' = some c₁ := by
  rcases hm.now with hb | ⟨t', a', op, k', p, hw⟩
  · exact Or.inl (hb.can_step hp a)
  · have hcan := hw.can_step (htotal t' op k' hw.next a')
    by_cases ht : t' = t
    · subst ht
      exact Or.inl (hcan a)
    · refine Or.inr ⟨?_, (t', a'), hw.holder, ht, hcan⟩
      rw [hw.others t (Ne.symm ht)] at hp
      cases hc : c'.prog t with
      | ret x =>
        rw [hc] at hp
        cases hp
      | spin =>
        rw [hc] at hp
        cases hp
      | call op k =>
        rw [hc] at hp
        cases hp
        rfl

end Infra

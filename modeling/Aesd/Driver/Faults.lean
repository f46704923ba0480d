import Aesd.Driver.Lines

/-!
# Writes that do not go through

Two things can go wrong in `aesd_write`. The allocator may refuse: the call returns `-ENOMEM`,
and what was staged is kept only if the staging entry had no buffer to lose. And the user copy
may stop early: the call returns what was copied, but stages and searches all `count` bytes.
-/

namespace Aesd.Driver

open Infra

variable {k k' : Kernel} {filp : Nat} {buf : List UInt8} {env : WriteEnv}

theorem Reachable.staging_lt (hk : Reachable k) : k.dev.bufferEntryStaging.size < 2 ^ 62 := by
  obtain ⟨cs, hcs, hrun⟩ := hk
  obtain ⟨k', hrun', -, hsz, -⟩ := runCalls_ok cs aesdInitModule Inv.init (Nat.two_pow_pos 62) hcs
  rw [hrun] at hrun'
  cases hrun'
  exact hsz

/-! ## A refused allocation -/

/-- The staging entry has no buffer: nothing is staged, or its buffer was lost before. -/
def NoStagingBuffer (k : Kernel) : Prop := ∀ id, k.dev.bufferEntryStaging.buffptr ≠ .block id

/-- The ring, the contents of its entries and of the staging entry, the size of the latter and
the buffer it owns are the same. -/
structure Untouched (k k' : Kernel) : Prop where
  ring : k'.dev.circularBuffer = k.dev.circularBuffer
  contents : (abs k').entries = (abs k).entries
  staged : (abs k').staged = (abs k).staged
  size : k'.dev.bufferEntryStaging.size = k.dev.bufferEntryStaging.size
  owns : ∀ id, k'.dev.bufferEntryStaging.buffptr = .block id ↔
    k.dev.bufferEntryStaging.buffptr = .block id

/-- The state after a call that was refused. -/
def refused (k : Kernel) : Kernel :=
  k.withStaging { k.dev.bufferEntryStaging with buffptr := .null } k.slab

/-- **A write returns `-ENOMEM` exactly if it was refused.** -/
theorem aesdWrite_enomem (hi : Inv k) (hsz : k.dev.bufferEntryStaging.size < 2 ^ 62)
    (hb : (Call.write filp buf env).Bounded) (h : aesdWrite filp buf env k = some (-enomem, k')) :
    k' = refused k := by
  obtain ⟨hlen, -⟩ := hb
  have hfit : request k buf.length < 2 ^ 64 := by unfold request; omega
  by_cases hs : request k buf.length = 0 ∨ env.serves (request k buf.length) = true
  · obtain ⟨k₁, hw, -⟩ := aesdWrite_served filp hi hfit (by omega) hs
    rw [hw] at h
    simp only [Option.some.injEq, Prod.mk.injEq] at h
    have hret := h.1
    rw [ssizeOf_of_lt (by unfold bytesCopied; omega)] at hret
    unfold enomem at hret
    omega
  · obtain ⟨hne, hs⟩ := not_or.mp hs
    unfold aesdWrite at h
    rw [aesdWriteStage_fail filp hi hfit hne (Bool.eq_false_iff.mpr hs)] at h
    cases h
    rfl

/-- **What a refused call leaves.** -/
theorem untouched_refused_iff (k : Kernel) : Untouched k (refused k) ↔ NoStagingBuffer k := by
  constructor
  · intro h id hp
    cases (h.owns id).mpr hp
  · intro h
    refine ⟨rfl, rfl, ?_, rfl, fun id => ⟨fun hc => (by cases hc), fun hc => absurd hc (h id)⟩⟩
    exact (bytesOf_no_block h).symm

/-! ## Runs without the refused calls -/

/-- The bytes the caller receives, the value returned and the state. -/
def Call.result (k : Kernel) : Call → Option (List UInt8 × Int × Kernel)
  | .write filp buf env => (aesdWrite filp buf env k).map fun r => ([], r.1, r.2)
  | .read filp count notCopied => aesdRead filp count notCopied k

/-- What the callers receive during a run. -/
def answers (k : Kernel) : List Call → List (List UInt8 × Int)
  | [] => []
  | c :: cs =>
    match c.result k with
    | none => []
    | some (bytes, ret, k') => (bytes, ret) :: answers k' cs

/-- The calls of a run that do not return `-ENOMEM` in it. -/
def kept (k : Kernel) : List Call → List Call
  | [] => []
  | c :: cs =>
    match c.result k with
    | none => []
    | some (_, ret, k') => if ret = -enomem then kept k' cs else c :: kept k' cs

theorem answers_cons {c : Call} {bytes : List UInt8} {ret : Int}
    (hr : c.result k = some (bytes, ret, k')) (cs : List Call) :
    answers k (c :: cs) = (bytes, ret) :: answers k' cs := by
  rw [answers, hr]

theorem kept_cons {c : Call} {bytes : List UInt8} {ret : Int}
    (hr : c.result k = some (bytes, ret, k')) (cs : List Call) :
    kept k (c :: cs) = if ret = -enomem then kept k' cs else c :: kept k' cs := by
  rw [kept, hr]

/-- Whenever a call of the run returns `-ENOMEM`, the staging entry had no buffer to lose. -/
def RefusedInTime (k : Kernel) : List Call → Prop
  | [] => True
  | c :: cs => ∀ bytes ret k', c.result k = some (bytes, ret, k') →
    (ret = -enomem → NoStagingBuffer k) ∧ RefusedInTime k' cs

theorem Call.exec_eq_result (k : Kernel) (c : Call) :
    c.exec k = (c.result k).map fun r => (r.2.1, r.2.2) := by
  cases c with
  | read filp count notCopied => rfl
  | write filp buf env =>
    rw [Call.exec, Call.result, Option.map_map]
    exact (Option.map_id' (x := aesdWrite filp buf env k)).symm

/-- The same state, but for the pointer of an empty staging entry. -/
def Alike (k k' : Kernel) : Prop :=
  k' = k ∨ k.dev.bufferEntryStaging.size = 0 ∧
    ∃ p, (∀ id, p ≠ .block id) ∧ k' = k.withStaging { buffptr := p, size := 0 } k.slab

theorem Alike.refl (k : Kernel) : Alike k k := Or.inl rfl

theorem Alike.abs_eq (hi : Inv k) (h : Alike k k') : abs k' = abs k := by
  rcases h with rfl | ⟨h0, p, hp, rfl⟩
  · rfl
  · have hold : bytesOf k.slab k.dev.bufferEntryStaging = [] := bytesOf_no_block (hi.empty h0)
    have hnew : bytesOf k.slab { buffptr := p, size := 0 } = [] := bytesOf_no_block hp
    unfold abs
    rw [Kernel.withStaging_staging, Kernel.withStaging_slab, Kernel.withStaging_ring, hold, hnew]

/-- `aesd_write` does not look at the pointer of an empty staging entry. -/
theorem aesdWrite_pointer (h0 : k.dev.bufferEntryStaging.size = 0) (p : Ptr) :
    aesdWrite filp buf env (k.withStaging { buffptr := p, size := 0 } k.slab)
      = aesdWrite filp buf env k := by
  unfold aesdWrite
  congr 1
  unfold aesdWriteStage stagingAlloc
  simp only [Kernel.withStaging_staging, Kernel.withStaging_slab, h0, if_true]
  rfl

/-- **Calls treat alike states alike.** -/
theorem Call.result_alike (h : Alike k k') {c : Call} {bytes : List UInt8} {ret : Int}
    {k₁ : Kernel} (hr : c.result k = some (bytes, ret, k₁)) :
    ∃ k₁', c.result k' = some (bytes, ret, k₁') ∧ Alike k₁ k₁' := by
  rcases h with rfl | ⟨h0, p, hp, rfl⟩
  · exact ⟨k₁, hr, Alike.refl k₁⟩
  · cases c with
    | write filp buf env =>
      refine ⟨k₁, ?_, Alike.refl k₁⟩
      rw [Call.result, aesdWrite_pointer h0]
      exact hr
    | read filp count notCopied =>
      simp only [Call.result] at hr ⊢
      unfold aesdRead at hr ⊢
      simp only [Kernel.withStaging_ring, Kernel.withStaging_slab, Kernel.withStaging_fPos]
      cases hf : aesdCircularBufferFindEntryOffsetForFpos k.dev.circularBuffer (k.fPos filp) with
      | none =>
        simp only [hf, Option.some.injEq, Prod.mk.injEq] at hr
        obtain ⟨rfl, rfl, rfl⟩ := hr
        exact ⟨_, rfl, Or.inr ⟨h0, p, hp, rfl⟩⟩
      | some r =>
        simp only [hf, Option.bind_eq_bind, Option.bind_eq_some_iff, Option.pure_def,
          Option.some.injEq, Prod.mk.injEq] at hr ⊢
        obtain ⟨ws, hload, rfl, rfl, rfl⟩ := hr
        exact ⟨_, ⟨ws, hload, rfl, rfl, rfl⟩, Or.inr ⟨h0, p, hp, rfl⟩⟩

/-- A refused call that has nothing to lose leads to a state like the one before it. -/
theorem alike_refused (hi : Inv k) (hn : NoStagingBuffer k) (h : Alike k k') :
    Alike (refused k) k' := by
  by_cases h0 : k.dev.bufferEntryStaging.size = 0
  · rcases h with rfl | ⟨-, p, hp, rfl⟩
    · refine Or.inr ⟨h0, _, hn, ?_⟩
      rw [← h0]
      rfl
    · exact Or.inr ⟨h0, p, hp, rfl⟩
  · have hnull : k.dev.bufferEntryStaging.buffptr = .null := by
      cases hp : k.dev.bufferEntryStaging.buffptr with
      | null => rfl
      | zeroSize => exact absurd (hi.kind hp) h0
      | block id => exact absurd hp (hn id)
    have hsame : refused k = k := by
      unfold refused
      rw [← hnull]
      rfl
    rw [hsame]
    exact h

/-- Reads do not fail for lack of memory. -/
theorem aesdRead_ret_nonneg {count notCopied : Nat} (hc : count < 2 ^ 31)
    {bytes : List UInt8} {ret : Int}
    (h : aesdRead filp count notCopied k = some (bytes, ret, k')) : 0 ≤ ret := by
  unfold aesdRead at h
  split at h
  · cases h
    exact Int.le_refl 0
  · simp only [Option.bind_eq_bind, Option.bind_eq_some_iff, Option.pure_def, Option.some.injEq,
      Prod.mk.injEq] at h
    obtain ⟨ws, -, -, rfl, -⟩ := h
    rw [ssizeOf_of_lt (by omega)]
    omega

theorem Call.result_enomem (hi : Inv k) (hsz : k.dev.bufferEntryStaging.size < 2 ^ 62) {c : Call}
    (hb : c.Bounded) {bytes : List UInt8}
    (hr : c.result k = some (bytes, -enomem, k')) : k' = refused k := by
  cases c with
  | read filp count notCopied =>
    have := aesdRead_ret_nonneg hb hr
    unfold enomem at this
    omega
  | write filp buf env =>
    rw [Call.result, Option.map_eq_some_iff] at hr
    obtain ⟨⟨ret, k₁⟩, hw, he⟩ := hr
    simp only [Prod.mk.injEq] at he
    obtain ⟨-, rfl, rfl⟩ := he
    exact aesdWrite_enomem hi hsz hb hw

/-- **A run and the run without its refused calls**, from alike states. -/
theorem runCalls_kept : ∀ (cs : List Call) (k₁ k₂ : Kernel), Inv k₁ →
    k₁.dev.bufferEntryStaging.size < 2 ^ 62 → (∀ c ∈ cs, c.Bounded) → Alike k₁ k₂ →
    RefusedInTime k₁ cs →
    ∃ k₁' k₂', runCalls k₁ cs = some k₁' ∧ runCalls k₂ (kept k₁ cs) = some k₂' ∧ Inv k₁' ∧
      Alike k₁' k₂' ∧
      answers k₂ (kept k₁ cs) = (answers k₁ cs).filter fun a => a.2 ≠ -enomem
  | [], k₁, k₂, hi, _, _, hlike, _ => ⟨k₁, k₂, rfl, rfl, hi, hlike, rfl⟩
  | c :: cs, k₁, k₂, hi, hsz, hcs, hlike, hin => by
    obtain ⟨ret, k₃, hexec, hi₃, hsz₃, -⟩ := Call.exec_ok hi hsz (hcs c List.mem_cons_self)
    obtain ⟨bytes, hres⟩ : ∃ bytes, c.result k₁ = some (bytes, ret, k₃) := by
      rw [Call.exec_eq_result, Option.map_eq_some_iff] at hexec
      obtain ⟨⟨bytes, ret', k'⟩, hr, he⟩ := hexec
      cases he
      exact ⟨bytes, hr⟩
    obtain ⟨hown, hin₃⟩ := hin bytes ret k₃ hres
    have hcs₃ : ∀ c' ∈ cs, c'.Bounded := fun c' hc' => hcs c' (List.mem_cons_of_mem _ hc')
    rw [runCalls, hexec, kept_cons hres, answers_cons hres]
    by_cases hret : ret = -enomem
    · -- the refused call is left out of the second run
      subst hret
      obtain rfl := Call.result_enomem hi hsz (hcs c List.mem_cons_self) hres
      obtain ⟨k₁', k₂', hr₁, hr₂, hi', hl', ha'⟩ :=
        runCalls_kept cs (refused k₁) k₂ hi₃ hsz₃ hcs₃ (alike_refused hi (hown rfl) hlike) hin₃
      refine ⟨k₁', k₂', hr₁, ?_, hi', hl', ?_⟩
      · rw [if_pos rfl]
        exact hr₂
      · rw [if_pos rfl, ha', List.filter_cons_of_neg (by simp)]
    · obtain ⟨k₄, hres₄, hl₄⟩ := Call.result_alike hlike hres
      obtain ⟨k₁', k₂', hr₁, hr₂, hi', hl', ha'⟩ :=
        runCalls_kept cs k₃ k₄ hi₃ hsz₃ hcs₃ hl₄ hin₃
      refine ⟨k₁', k₂', hr₁, ?_, hi', hl', ?_⟩
      · rw [if_neg hret, runCalls, Call.exec_eq_result, hres₄]
        exact hr₂
      · rw [if_neg hret, answers_cons hres₄, List.filter_cons_of_pos (by simpa using hret), ha']

/--
**When a write that fails for lack of memory is atomic.**

A call that returns `-ENOMEM` leaves the ring, the staged bytes and who owns their buffer as they
were exactly if the staging entry had no buffer: `krealloc`'s result goes into the live entry
before it is tested. In every run whose refused calls all find it so, leaving them out changes
neither the final contents nor what any other call returns.
-/
theorem enomem_atomic_iff (cs : List Call) (hcs : ∀ c ∈ cs, c.Bounded) :
    (∀ (k k' : Kernel) (filp : Nat) (buf : List UInt8) (env : WriteEnv),
      runCalls aesdInitModule cs = some k → (Call.write filp buf env).Bounded →
      aesdWrite filp buf env k = some (-enomem, k') → (Untouched k k' ↔ NoStagingBuffer k)) ∧
    (RefusedInTime aesdInitModule cs →
      ∃ k k', runCalls aesdInitModule cs = some k ∧
        runCalls aesdInitModule (kept aesdInitModule cs) = some k' ∧
        (abs k').entries = (abs k).entries ∧ (abs k').staged = (abs k).staged ∧
        answers aesdInitModule (kept aesdInitModule cs)
          = (answers aesdInitModule cs).filter fun a => a.2 ≠ -enomem) := by
  constructor
  · intro k k' filp buf env hrun hb hw
    have hk : Reachable k := ⟨cs, hcs, hrun⟩
    rw [aesdWrite_enomem hk.inv hk.staging_lt hb hw]
    exact untouched_refused_iff k
  · intro hin
    obtain ⟨k, k', hr, hr', hi, hl, ha⟩ := runCalls_kept cs aesdInitModule aesdInitModule Inv.init
      (Nat.two_pow_pos 62) hcs (Alike.refl _) hin
    have habs := hl.abs_eq hi
    exact ⟨k, k', hr, hr', congrArg _ habs, congrArg _ habs, ha⟩

/-- The allocator refuses a write while nothing is staged. The line that follows is stored as if
that write had not been made. -/
theorem enomem_atomic_iff_nothing_staged :
    ∃ k k', runCalls aesdInitModule
        [.write 0 [98] { serves := fun _ => false, notCopied := 0 },
          .write 0 [97, 10] { serves := fun n => decide (n < 4096), notCopied := 0 }] = some k ∧
      runCalls aesdInitModule
        [.write 0 [97, 10] { serves := fun n => decide (n < 4096), notCopied := 0 }] = some k' ∧
      (abs k').entries = (abs k).entries := by
  obtain ⟨k, k', hr, hr', he, -⟩ := (enomem_atomic_iff
    [.write 0 [98] { serves := fun _ => false, notCopied := 0 },
      .write 0 [97, 10] { serves := fun n => decide (n < 4096), notCopied := 0 }] (by
    intro c hc
    simp only [List.mem_cons, List.not_mem_nil, or_false] at hc
    rcases hc with rfl | rfl
    · exact ⟨by decide, fun n _ => rfl⟩
    · exact ⟨by decide, fun n hn => decide_eq_false (by omega)⟩)).2 (by
    intro bytes ret k₁ h₁
    refine ⟨fun _ id hc => (by cases hc), ?_⟩
    intro bytes₂ ret₂ k₂ h₂
    refine ⟨fun _ id hc => ?_, trivial⟩
    cases h₁
    cases hc)
  exact ⟨k, k', hr, hr', he⟩

/-- Eight bytes are staged. Then the allocator has no block of the next size, 16, for the ninth. -/
theorem enomem_loses_staged :
    ∃ k k', Reachable k ∧
      aesdWrite 0 [105] { serves := fun n => decide (n ≤ 8), notCopied := 0 } k
        = some (-enomem, k') ∧
      abs k = { entries := [], staged := [97, 98, 99, 100, 101, 102, 103, 104] } ∧
      abs k' = { entries := [], staged := [] } ∧ gap k' = 8 ∧ ¬ Untouched k k' := by
  have hb : ∀ c ∈ [Call.write 0 [97, 98, 99, 100, 101, 102, 103, 104]
      { serves := fun n => decide (n ≤ 8), notCopied := 0 }], c.Bounded := by
    intro c hc
    rw [List.mem_singleton.mp hc]
    exact ⟨by decide, fun n hn => decide_eq_false (by omega)⟩
  obtain ⟨k, hrun, hi, -⟩ := runCalls_ok _ aesdInitModule Inv.init (Nat.two_pow_pos 62) hb
  have hdec : (runCalls aesdInitModule [Call.write 0 [97, 98, 99, 100, 101, 102, 103, 104]
      { serves := fun n => decide (n ≤ 8), notCopied := 0 }]).map
      (fun k => (k.dev.bufferEntryStaging, abs k)) = some ({ buffptr := .block 0, size := 8 },
        { entries := [], staged := [97, 98, 99, 100, 101, 102, 103, 104] }) := by
    decide
  rw [hrun] at hdec
  simp only [Option.map_some, Option.some.injEq, Prod.mk.injEq] at hdec
  obtain ⟨hst, habs⟩ := hdec
  have hreq : request k [(105 : UInt8)].length = 9 := by
    unfold request
    rw [hst]
    rfl
  obtain ⟨k', hw, -, habs', hgap, -⟩ := @aesdWrite_refused k [105]
    { serves := fun n => decide (n ≤ 8), notCopied := 0 } 0 hi
    (by omega) (by omega) (by rw [hreq]; rfl)
  rw [habs] at habs'
  rw [hst] at hgap
  refine ⟨k, k', ⟨_, hb, hrun⟩, hw, habs, habs', hgap, fun hc => ?_⟩
  have hs := hc.staged
  rw [habs, habs'] at hs
  cases hs

/-! ## A short copy -/

/--
What the caller of a write that leaves `notCopied` bytes uncopied relies on: the value returned
and `f_pos` count the copied bytes, the device holds what a write of just these bytes into the same
memory leaves, and after a retry with the rest it holds what the two writes leave.
-/
def ShortWrite (k : Kernel) (filp : Nat) (p : List UInt8) (env : WriteEnv) : Prop :=
  let copied := p.take (p.length - env.notCopied)
  let rest := p.drop (p.length - env.notCopied)
  ∃ k₁ ret₂ k₂ ret₃ k₃ ret₄ k₄,
    aesdWrite filp p env k = some (((p.length - env.notCopied : Nat) : Int), k₁) ∧
    k₁.fPos = Function.update k.fPos filp
      ((k.fPos filp + (p.length - env.notCopied)) % 2 ^ 64) ∧
    aesdWrite filp copied (.good env.fresh) k = some (ret₂, k₂) ∧ abs k₁ = abs k₂ ∧
    aesdWrite filp rest .good k₁ = some (ret₃, k₃) ∧
    aesdWrite filp rest .good k₂ = some (ret₄, k₄) ∧ abs k₃ = abs k₄

/-- The zeros behind a short copy end no line. -/
theorem any_userBytes (p : List UInt8) (n : Nat) :
    (userBytes p n).any isNewline = (p.take (p.length - n)).any isNewline := by
  unfold userBytes
  have hzero : (List.replicate (min n p.length) (0 : UInt8)).any isNewline = false := by
    rw [List.any_replicate]
    split <;> rfl
  rw [List.any_append, hzero, Bool.or_false]

/--
**A short copy is a short write only if it is not short.**

For every reachable state, payload and number of uncopied bytes, unless the allocator refuses: the
value returned and `f_pos` are right in any case, but the staged size and the search for a newline
go by `count`, so the device holds the zeros behind the copied bytes as well.
-/
theorem short_write_iff (hk : Reachable k) (filp : Nat) (p : List UInt8) (env : WriteEnv)
    (hp : p.length < 2 ^ 31) (hn : env.notCopied ≤ p.length)
    (hs : request k p.length = 0 ∨ env.serves (request k p.length) = true) :
    ShortWrite k filp p env ↔ env.notCopied = 0 := by
  have hi := hk.inv
  have hsz := hk.staging_lt
  have hfit : request k p.length < 2 ^ 64 := by unfold request; omega
  obtain ⟨k₁, hw₁, hi₁, habs₁, hgap₁, hpos₁, -⟩ :=
    aesdWrite_served filp hi hfit (by omega) hs
  have hbc : bytesCopied p env = p.length - env.notCopied := by
    unfold bytesCopied
    rw [Nat.min_eq_left hn]
  rw [hbc] at hpos₁ hw₁
  rw [ssizeOf_of_lt (by omega)] at hw₁
  have hlen : (p.take (p.length - env.notCopied)).length ≤ p.length := by simp
  obtain ⟨k₂, hw₂, hk₂, habs₂, -⟩ := aesdWrite_good
    (p := p.take (p.length - env.notCopied)) env.fresh filp hi (by unfold request at *; omega)
  -- what is staged after either write leaves room for the rest
  have hroom : ∀ (k' : Kernel) (q : List UInt8), q.length ≤ p.length →
      abs k' = (restored env.fresh k).write 10 isNewline q →
      (abs k').staged.length + (p.drop (p.length - env.notCopied)).length < 2 ^ 64 := by
    intro k' q hq habs
    have hst := LineLog.length_staged_write 10 isNewline (restored env.fresh k) q
    rw [← habs, show (restored env.fresh k).staged.length = _ from hi.length_restaged env.fresh]
      at hst
    rw [List.length_drop]
    omega
  constructor
  · rintro ⟨k₁', ret₂, k₂', -, -, -, -, hw₁', -, hw₂', habs, -⟩
    rw [hw₁] at hw₁'
    rw [hw₂] at hw₂'
    cases hw₁'
    cases hw₂'
    rw [habs₁, habs₂] at habs
    have hsame := LineLog.write_inj (by omega) (any_userBytes p env.notCopied) habs
    have hl := congrArg List.length hsame
    simp only [length_userBytes, List.length_take] at hl
    omega
  · intro h0
    have habs : abs k₁ = abs k₂ := by
      rw [habs₁, habs₂, h0, userBytes_zero, Nat.sub_zero, List.take_length]
    obtain ⟨k₃, hw₃, -, habs₃, -⟩ := Whole.write ⟨hi₁, hgap₁⟩ filp
      (hroom k₁ _ (Nat.le_of_eq (length_userBytes ..)) habs₁)
    obtain ⟨k₄, hw₄, -, habs₄, -⟩ := hk₂.write filp (hroom k₂ _ hlen habs₂)
    refine ⟨k₁, _, k₂, _, k₃, _, k₄, hw₁, hpos₁, hw₂, habs, hw₃, hw₄, ?_⟩
    rw [habs₃, habs₄, habs]

/-- A write of `"a\n"` that is copied whole. -/
theorem short_write_iff_whole : ShortWrite aesdInitModule 0 [97, 10] .good :=
  (short_write_iff ⟨[], by simp, rfl⟩ 0 [97, 10] .good (by decide) (by decide) (Or.inr rfl)).mpr rfl

/-- The newline of `"a\n"` is not copied. The call returns 1, but a zero byte is staged behind the
`"a"`, and the retry commits `"a\0\n"`. -/
theorem short_write_stages_zero :
    Reachable aesdInitModule ∧
      (aesdWrite 0 [97, 10] { serves := fun _ => true, notCopied := 1 } aesdInitModule).map
        (fun r => (r.1, abs r.2)) = some (1, { entries := [], staged := [97, 0] }) ∧
      ((aesdWrite 0 [97, 10] { serves := fun _ => true, notCopied := 1 } aesdInitModule).bind
        fun r => (aesdWrite 0 [10] .good r.2).map fun r => abs r.2)
        = some { entries := [[97, 0, 10]], staged := [] } ∧
      ¬ ShortWrite aesdInitModule 0 [97, 10] { serves := fun _ => true, notCopied := 1 } := by
  refine ⟨⟨[], by simp, rfl⟩, by decide, by decide, ?_⟩
  rintro ⟨k₁, ret₂, k₂, -, -, -, -, hw₁, -, hw₂, habs, -⟩
  have h₁ : (aesdWrite 0 [97, 10] { serves := fun _ => true, notCopied := 1 } aesdInitModule).map
      (fun r => (abs r.2).staged) = some [97, 0] := by decide
  have h₂ : (aesdWrite 0 [97] .good aesdInitModule).map (fun r => (abs r.2).staged)
      = some [97] := by decide
  rw [hw₁] at h₁
  rw [show aesdWrite 0 [97] .good aesdInitModule = some (ret₂, k₂) from hw₂] at h₂
  simp only [Option.map_some, Option.some.injEq] at h₁ h₂
  rw [habs, h₂] at h₁
  cases h₁

end Aesd.Driver

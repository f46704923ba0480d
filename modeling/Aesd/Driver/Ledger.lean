import Mathlib.Data.List.Nodup
import Aesd.Driver.Write

/-!
# Buffer ownership over whole runs

From `aesd_init_module` through any system calls to `aesd_cleanup_module`: no call touches
memory it does not own, every entry has its own buffer of exactly its size, and nothing is
freed twice. What is still allocated in the end are the buffers lost by a failing `krealloc`.
-/

namespace Aesd.Driver

open Infra

variable {k : Kernel} {filp : Nat} {buf : List UInt8} {env : WriteEnv}

/-! ## `aesd_read` -/

theorem findEntryLoop_lt (buffer : AesdCircularBuffer) (charOffset : Nat) :
    ∀ (todo peekIdx cur idx b : Nat),
      findEntryLoop buffer charOffset todo peekIdx cur = some (idx, b) → idx < 10
  | 0, _, _, _, _, h => by cases h
  | todo + 1, peekIdx, cur, idx, b, h => by
    rw [findEntryLoop] at h
    unfold peek at h
    split at h
    · cases h
    · next i hp =>
      split at hp
      · cases hp
      · simp only [Option.some.injEq] at hp
        dsimp only at h
        split at h
        · simp only [Option.some.injEq, Prod.mk.injEq] at h
          rw [← h.1, ← hp]
          exact Nat.mod_lt _ (by decide)
        · exact findEntryLoop_lt buffer charOffset todo _ _ idx b h

/-- Any slot can be read up to its size. -/
theorem Inv.load_slot (hi : Inv k) {idx n : Nat} (hidx : idx < 10)
    (hn : n ≤ (k.dev.circularBuffer.slot idx).size) :
    k.slab.load (k.dev.circularBuffer.slot idx).buffptr 0 n
      = some ((bytesOf k.slab (k.dev.circularBuffer.slot idx)).take n) := by
  by_cases hz : k.dev.circularBuffer.slot idx = .zero
  · rw [hz] at hn ⊢
    obtain rfl : n = 0 := Nat.le_zero.mp hn
    simp
  · obtain ⟨id, ws, hp, hb, hl⟩ := hi.holds _ (mem_owners_of_live (live_of_slot hi hidx hz))
    rw [bytesOf_block hp hb, hp, Slab.load_block hb (by omega), List.drop_zero]

/-- **A read changes nothing but `f_pos`.** -/
theorem aesdRead_ok (hi : Inv k) (filp count notCopied : Nat) : ∃ bytes ret fPos,
    aesdRead filp count notCopied k = some (bytes, ret, { k with fPos := fPos }) := by
  unfold aesdRead
  cases hf : aesdCircularBufferFindEntryOffsetForFpos k.dev.circularBuffer (k.fPos filp) with
  | none => exact ⟨[], 0, k.fPos, rfl⟩
  | some r =>
    obtain ⟨idx, b⟩ := r
    have hidx : idx < 10 := findEntryLoop_lt _ _ _ _ _ idx b hf
    simp only [hi.load_slot hidx (Nat.min_le_right count _), Option.bind_eq_bind, Option.bind_some]
    exact ⟨_, _, _, rfl⟩

/-! ## One call -/

/-- What the kernel guarantees: counts below `2 ^ 31`, no allocation of `2 ^ 62` bytes or more. -/
def Call.Bounded : Call → Prop
  | .write _ buf env => buf.length < 2 ^ 31 ∧ ∀ n, 2 ^ 62 ≤ n → env.serves n = false
  | .read _ count _ => count < 2 ^ 31

/-- The block a failing `krealloc` leaves behind. -/
def Call.loses (k : Kernel) : Call → List Nat
  | .write _ buf env =>
    match k.dev.bufferEntryStaging.buffptr with
    | .block id =>
      if k.dev.bufferEntryStaging.size ≠ 0 ∧ env.serves (request k buf.length) = false then [id]
      else []
    | _ => []
  | .read _ _ _ => []

/-- A write that is served loses nothing. -/
theorem Call.loses_served
    (hs : request k buf.length = 0 ∨ env.serves (request k buf.length) = true) :
    (Call.write filp buf env).loses k = [] := by
  have hn : ¬ (k.dev.bufferEntryStaging.size ≠ 0 ∧ env.serves (request k buf.length) = false) := by
    rintro ⟨hne, hf⟩
    rcases hs with h0 | hs
    · unfold request at h0
      omega
    · rw [hs] at hf
      cases hf
  unfold Call.loses
  cases k.dev.bufferEntryStaging.buffptr with
  | null => rfl
  | zeroSize => rfl
  | block id => exact if_neg hn

theorem Inv.staged_length (hi : Inv k) :
    (abs k).staged.length + gap k = k.dev.bufferEntryStaging.size := hi.length_staged

/-- **One call**, whatever fails during it. -/
theorem Call.exec_ok (hi : Inv k) (hsz : k.dev.bufferEntryStaging.size < 2 ^ 62) {c : Call}
    (hb : c.Bounded) : ∃ ret k', c.exec k = some (ret, k') ∧ Inv k' ∧
      k'.dev.bufferEntryStaging.size < 2 ^ 62 ∧
      ∀ i, Leaked k' i ↔ Leaked k i ∨ i ∈ c.loses k := by
  cases c with
  | read filp count notCopied =>
    obtain ⟨bytes, ret, fPos, hr⟩ := aesdRead_ok hi filp count notCopied
    refine ⟨ret, { k with fPos := fPos }, by simp [Call.exec, hr],
      hi.withFPos fPos, hsz, fun i => ?_⟩
    show Leaked k i ↔ _
    simp [Call.loses]
  | write filp buf env =>
    obtain ⟨hlen, hlim⟩ := hb
    have hfit : request k buf.length < 2 ^ 64 := by unfold request; omega
    by_cases hs : request k buf.length = 0 ∨ env.serves (request k buf.length) = true
    · obtain ⟨k', hw, hi', habs, hgap, -, hleak⟩ :=
        aesdWrite_served filp hi hfit (by omega) hs
      refine ⟨_, k', hw, hi', ?_, fun i => ?_⟩
      · -- a request that was served is below the allocator's limit
        have hreq : request k buf.length < 2 ^ 62 := by
          rcases hs with h0 | hs
          · omega
          · by_contra hge
            rw [hlim _ (by omega)] at hs
            cases hs
        rw [← hi'.staged_length, habs, hgap]
        refine Nat.lt_of_le_of_lt (LineLog.length_staged_write ..) ?_
        rw [length_userBytes, restored, hi.length_restaged]
        exact hreq
      · rw [hleak i, Call.loses_served hs]
        simp
    · obtain ⟨hne, hs⟩ := not_or.mp hs
      obtain ⟨k', hw, hi', habs, hgap, -, hleak⟩ :=
        aesdWrite_refused filp hi hfit hne (Bool.eq_false_iff.mpr hs)
      refine ⟨_, k', hw, hi', ?_, fun i => ?_⟩
      · rw [← hi'.staged_length, habs, hgap]
        simpa using hsz
      · rw [hleak i]
        refine or_congr Iff.rfl ?_
        unfold Call.loses
        cases hp : k.dev.bufferEntryStaging.buffptr with
        | null => simp
        | zeroSize => simp
        | block id =>
          have hsne := (hi.staging_holds hp).1
          simp only [hsne, Bool.eq_false_iff.mpr hs, ne_eq, not_false_eq_true, and_self, if_true,
            List.mem_singleton, Ptr.block.injEq]
          exact eq_comm

/-! ## Runs -/

/-- The blocks that failing `krealloc`s leave behind during a run. -/
def lost (k : Kernel) : List Call → List Nat
  | [] => []
  | c :: cs =>
    match c.exec k with
    | none => []
    | some (_, k') => c.loses k ++ lost k' cs

/-- **A run**, whatever fails during it. -/
theorem runCalls_ok : ∀ (cs : List Call) (k : Kernel), Inv k →
    k.dev.bufferEntryStaging.size < 2 ^ 62 → (∀ c ∈ cs, c.Bounded) →
    ∃ k', runCalls k cs = some k' ∧ Inv k' ∧ k'.dev.bufferEntryStaging.size < 2 ^ 62 ∧
      ∀ i, Leaked k' i ↔ Leaked k i ∨ i ∈ lost k cs
  | [], k, hi, hsz, _ => ⟨k, rfl, hi, hsz, fun i => by simp [lost]⟩
  | c :: cs, k, hi, hsz, hb => by
    obtain ⟨ret, k₁, he, hi₁, hsz₁, hl₁⟩ := Call.exec_ok hi hsz (hb c List.mem_cons_self)
    obtain ⟨k₂, hr, hi₂, hsz₂, hl₂⟩ :=
      runCalls_ok cs k₁ hi₁ hsz₁ fun c' hc' => hb c' (List.mem_cons_of_mem _ hc')
    refine ⟨k₂, by rw [runCalls, he]; exact hr, hi₂, hsz₂, fun i => ?_⟩
    rw [hl₂, hl₁, lost, he, List.mem_append, or_assoc]

/-! ## Cleanup -/

/-- No two entries share a block. -/
def Apart (e e' : AesdBufferEntry) : Prop := ∀ id, e.buffptr = .block id → e'.buffptr ≠ .block id

/-- Freeing entries that are allocated and pairwise apart frees just their blocks. -/
theorem foldlM_freeEntry : ∀ (es : List AesdBufferEntry) (slab : Slab UInt8), slab.Wf →
    (∀ e ∈ es, ∀ id, e.buffptr = .block id → (slab.block id).isSome = true) →
    es.Pairwise Apart →
    ∃ slab', es.foldlM freeEntry slab = some slab' ∧ slab'.Wf ∧
      ∀ i, (slab'.block i).isSome = true ↔
        (slab.block i).isSome = true ∧ ∀ e ∈ es, e.buffptr ≠ .block i
  | [], slab, hw, _, _ => ⟨slab, rfl, hw, fun i => by simp⟩
  | e :: es, slab, hw, hall, hpw => by
    obtain ⟨hhd, htl⟩ := List.pairwise_cons.mp hpw
    obtain ⟨slab₁, hfree, hw₁, hsame⟩ : ∃ slab₁, freeEntry slab e = some slab₁ ∧ slab₁.Wf ∧
        ∀ i, (slab₁.block i).isSome = true ↔
          (slab.block i).isSome = true ∧ e.buffptr ≠ .block i := by
      unfold freeEntry
      cases hp : e.buffptr with
      | null => exact ⟨slab, by simp, hw, fun i => by simp⟩
      | zeroSize => exact ⟨slab, by simp, hw, fun i => by simp⟩
      | block id =>
        obtain ⟨ws, hb⟩ := Option.isSome_iff_exists.mp (hall e List.mem_cons_self id hp)
        refine ⟨_, by rw [if_pos (by simp), Slab.kfree_block hb], hw.free hb, fun i => ?_⟩
        by_cases hii : i = id
        · simp [hii]
        · simp [Function.update_of_ne hii, Ne.symm hii]
    obtain ⟨slab₂, hrest, hw₂, hsame₂⟩ := foldlM_freeEntry es slab₁ hw₁ (by
      intro e' he' id hp
      refine (hsame id).mpr ⟨hall e' (List.mem_cons_of_mem _ he') id hp, fun hc => ?_⟩
      exact hhd e' he' id hc hp) htl
    refine ⟨slab₂, by rw [List.foldlM_cons, hfree]; exact hrest, hw₂, fun i => ?_⟩
    rw [hsame₂, hsame, List.forall_mem_cons, and_assoc]

/-- The slots of the ring are apart, used or not. -/
theorem Inv.slots_apart (hi : Inv k) :
    ((List.range 10).map k.dev.circularBuffer.slot).Pairwise Apart := by
  rw [List.pairwise_map]
  obtain ⟨h, hr⟩ := hi.ring
  -- a slot with a block is live
  have hlive : ∀ i, i ∈ List.range 10 → ∀ id, (k.dev.circularBuffer.slot i).buffptr = .block id →
      i ∈ liveSlots k.dev.circularBuffer := by
    intro i hil id hp
    by_contra hn
    rw [hr.unused (List.mem_range.mp hil) hn] at hp
    cases hp
  have hnd := hi.live_nodup
  unfold live at hnd
  rw [List.map_map] at hnd
  refine List.Pairwise.imp_of_mem ?_ (List.nodup_range (n := 10))
  intro i j hil hjl hne id hp hp'
  refine hne (List.inj_on_of_nodup_map hnd (hlive i hil id hp) (hlive j hjl id hp') ?_)
  show (k.dev.circularBuffer.slot i).buffptr = (k.dev.circularBuffer.slot j).buffptr
  rw [hp, hp']

/-- **Cleanup frees every buffer that has an owner, once.** -/
theorem aesdCleanupModule_ok (hi : Inv k) : ∃ slab, aesdCleanupModule k = some slab ∧ slab.Wf ∧
    ∀ i, (slab.block i).isSome = true ↔ Leaked k i := by
  -- the entries visited, in order
  have hfold : aesdCleanupModule k = ((List.range 10).map k.dev.circularBuffer.slot
      ++ [k.dev.bufferEntryStaging]).foldlM freeEntry k.slab := by
    rw [List.foldlM_append, List.foldlM_map]
    unfold aesdCleanupModule
    simp
  have hslot : ∀ i, i < 10 → ∀ id, (k.dev.circularBuffer.slot i).buffptr = .block id →
      k.dev.circularBuffer.slot i ∈ live k.dev.circularBuffer := by
    intro i hlt id hp
    refine live_of_slot hi hlt fun hz => ?_
    rw [hz] at hp
    cases hp
  have hvisit : ∀ i, (∃ e ∈ (List.range 10).map k.dev.circularBuffer.slot
      ++ [k.dev.bufferEntryStaging], e.buffptr = .block i) ↔ Owned k i := by
    intro i
    rw [hi.owned_iff]
    constructor
    · rintro ⟨e, he, hp⟩
      rcases List.mem_append.mp he with hm | hm
      · obtain ⟨j, hj, rfl⟩ := List.mem_map.mp hm
        exact Or.inl ⟨_, hslot j (List.mem_range.mp hj) i hp, hp⟩
      · rw [List.mem_singleton.mp hm] at hp
        exact Or.inr hp
    · rintro (⟨e, he, hp⟩ | hp)
      · obtain ⟨j, hj, rfl⟩ := List.mem_map.mp he
        obtain ⟨m, -, rfl⟩ := List.mem_map.mp hj
        exact ⟨_, List.mem_append_left _ (List.mem_map_of_mem
          (List.mem_range.mpr (Nat.mod_lt _ (by omega)))), hp⟩
      · exact ⟨_, List.mem_append_right _ (List.mem_singleton_self _), hp⟩
  obtain ⟨slab, hrun, hw, hsome⟩ := foldlM_freeEntry _ k.slab hi.slab (by
      intro e he id hp
      exact hi.owned_allocated ((hvisit id).mp ⟨e, he, hp⟩)) (by
    rw [List.pairwise_append]
    refine ⟨hi.slots_apart, List.pairwise_singleton _ _, ?_⟩
    intro e he e' he' id hp hp'
    obtain ⟨j, hj, rfl⟩ := List.mem_map.mp he
    rw [List.mem_singleton.mp he'] at hp'
    exact hi.live_ne_staging (hslot j (List.mem_range.mp hj) id hp) hp' hp)
  refine ⟨slab, hfold.trans hrun, hw, fun i => ?_⟩
  rw [hsome, Leaked, ← hvisit]
  simp only [not_exists, not_and]

/-! ## The whole life of the module -/

/-- What `aesd_write` hands to `add_entry` is never empty. -/
theorem staged_nonempty (hi : Inv k) (hsz : k.dev.bufferEntryStaging.size < 2 ^ 62)
    (hb : (Call.write filp buf env).Bounded) {n : Nat} {k₁ : Kernel}
    (h : aesdWriteStage filp buf env k = some (.staged n true k₁)) :
    k₁.dev.bufferEntryStaging.size ≠ 0 := by
  obtain ⟨hlen, -⟩ := hb
  have hfit : request k buf.length < 2 ^ 64 := by unfold request; omega
  by_cases h0 : request k buf.length = 0
  · rw [aesdWriteStage_zero filp h0] at h
    cases h
  · cases hs : env.serves (request k buf.length) with
    | false =>
      rw [aesdWriteStage_fail filp hi hfit h0 hs] at h
      cases h
    | true =>
      obtain ⟨slab, hst, -⟩ := aesdWriteStage_ok filp hi hfit (by omega) h0 hs
      rw [hst] at h
      simp only [Option.some.injEq, Stage.staged.injEq] at h
      rw [← h.2.2]
      exact h0

/--
**Buffer ownership.**

After any calls with any failures the run has not touched memory it does not own (it has a
result); every occupied slot and a staging entry that has a buffer own one each, of exactly
their size; nothing was freed twice and nothing refers to what was freed; `add_entry` is never
given an empty entry. Cleanup then frees each of these buffers once, and only what a failing
`krealloc` lost stays allocated.
-/
theorem buffer_ownership (cs : List Call) (hcs : ∀ c ∈ cs, c.Bounded) :
    ∃ k, runCalls aesdInitModule cs = some k ∧
      (∀ e ∈ owners k, ∃ id ws, e.buffptr = .block id ∧ k.slab.block id = some ws ∧
        ws.length = e.size) ∧
      ((owners k).map AesdBufferEntry.buffptr).Nodup ∧
      k.slab.freed.Nodup ∧
      (∀ id ∈ k.slab.freed, (∀ i < 10, (k.dev.circularBuffer.slot i).buffptr ≠ .block id) ∧
        k.dev.bufferEntryStaging.buffptr ≠ .block id) ∧
      (∀ filp buf env n k₁, (Call.write filp buf env).Bounded →
        aesdWriteStage filp buf env k = some (.staged n true k₁) →
        k₁.dev.bufferEntryStaging.size ≠ 0) ∧
      ∃ slab, aesdCleanupModule k = some slab ∧ slab.freed.Nodup ∧
        ∀ i, (slab.block i).isSome = true ↔ i ∈ lost aesdInitModule cs := by
  obtain ⟨k, hrun, hi, hsz, hleak⟩ :=
    runCalls_ok cs aesdInitModule Inv.init (Nat.two_pow_pos 62) hcs
  obtain ⟨slab, hclean, hw, hsome⟩ := aesdCleanupModule_ok hi
  refine ⟨k, hrun, hi.holds, hi.distinct, hi.slab.freed_nodup, fun id hid => ⟨fun i hlt hp => ?_,
    fun hp => ?_⟩, fun filp buf env n k₁ hb => staged_nonempty hi hsz hb, slab, hclean,
    hw.freed_nodup, fun i => ?_⟩
  · have hz : k.dev.circularBuffer.slot i ≠ .zero := by
      intro hz
      rw [hz] at hp
      cases hp
    have hal := hi.owned_allocated ⟨_, mem_owners_of_live (live_of_slot hi hlt hz), hp⟩
    rw [hi.slab.freed_gone id hid] at hal
    cases hal
  · have hal := hi.owned_allocated ((hi.owned_iff id).mpr (Or.inr hp))
    rw [hi.slab.freed_gone id hid] at hal
    cases hal
  · rw [hsome, hleak]
    exact or_iff_right (Inv.leaked_init i)

/-- A line is begun, then the allocator refuses to grow its buffer: block 0 outlives the module. -/
theorem buffer_ownership_refused_krealloc :
    ∃ k slab, runCalls aesdInitModule
        [.write 0 [97] { serves := fun n => decide (n < 4096), notCopied := 0 },
          .write 0 [98] { serves := fun _ => false, notCopied := 0 }, .read 0 8 3] = some k ∧
      aesdCleanupModule k = some slab ∧ (slab.block 0).isSome = true := by
  obtain ⟨k, hrun, -, -, -, -, -, slab, hclean, -, hleft⟩ := buffer_ownership
    [.write 0 [97] { serves := fun n => decide (n < 4096), notCopied := 0 },
      .write 0 [98] { serves := fun _ => false, notCopied := 0 }, .read 0 8 3] (by
    intro c hc
    simp only [List.mem_cons, List.not_mem_nil, or_false] at hc
    rcases hc with rfl | rfl | rfl
    · exact ⟨by decide, fun n hn => decide_eq_false (by omega)⟩
    · exact ⟨by decide, fun n _ => rfl⟩
    · exact (by decide : (8 : Nat) < 2 ^ 31))
  exact ⟨k, slab, hrun, hclean, (hleft 0).mpr (by decide)⟩

end Aesd.Driver

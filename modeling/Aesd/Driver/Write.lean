import Aesd.Infra.LineLog
import Aesd.Driver.Ownership

/-!
# What a write does

`abs` reads a device state as a line log of ten entries. A write that is served is one
`LineLog.write` of the bytes that `copy_from_user` put into the buffer; a write that is refused
keeps the entries and loses the staged bytes, but not their number. The next write that is served
finds as many bytes of fresh memory in their place.

`Leaked` is the other side of the ownership invariant: the buffers that are allocated and that
no entry knows.
-/

namespace Aesd.Driver

open Infra

variable {k : Kernel} {buf : List UInt8} {env : WriteEnv}

/-! ## The abstract state -/

/-- `memchr(…, '\n', …)` stops here. -/
def isNewline (b : UInt8) : Bool := b == newline

/-- The contents of the live entries, oldest first, and of the staging entry. -/
def abs (k : Kernel) : LineLog UInt8 where
  entries := (live k.dev.circularBuffer).map (bytesOf k.slab)
  staged := bytesOf k.slab k.dev.bufferEntryStaging

theorem abs_init : abs aesdInitModule = LineLog.empty := rfl

theorem gap_init : gap aesdInitModule = 0 := rfl

@[simp] theorem abs_advance (filp n : Nat) : abs (k.advance filp n) = abs k := rfl

/-- The log that a served write goes on with. -/
def restored (fresh : Nat → UInt8) (k : Kernel) : LineLog UInt8 :=
  { abs k with staged := restaged fresh k }

/-- Nothing is lost, so nothing is made up. -/
theorem restored_of_no_gap (fresh : Nat → UInt8) (h : gap k = 0) : restored fresh k = abs k := by
  unfold restored restaged
  rw [h, Slab.freshWords_zero, List.append_nil]
  rfl

theorem any_isNewline (l : List UInt8) : l.any isNewline = l.contains newline := by
  rw [Bool.eq_iff_iff, List.any_eq_true, List.contains_iff_mem]
  constructor
  · rintro ⟨x, hx, hxn⟩
    have : x = newline := by simpa [isNewline] using hxn
    rwa [← this]
  · intro h
    exact ⟨newline, h, by simp [isNewline]⟩

/-! ## Lost buffers -/

/-- Allocated, and known to no entry. -/
def Leaked (k : Kernel) (i : Nat) : Prop := (k.slab.block i).isSome = true ∧ ¬ Owned k i

theorem Inv.owned_iff (hi : Inv k) (i : Nat) : Owned k i ↔
    (∃ e ∈ live k.dev.circularBuffer, e.buffptr = .block i) ∨
      k.dev.bufferEntryStaging.buffptr = .block i := by
  constructor
  · rintro ⟨e, he, hp⟩
    rcases List.mem_append.mp he with hl | hs
    · exact Or.inl ⟨e, hl, hp⟩
    · unfold stagingOwner at hs
      split at hs
      · rw [List.mem_singleton.mp hs] at hp
        exact Or.inr hp
      · cases hs
  · rintro (⟨e, he, hp⟩ | hp)
    · exact ⟨e, mem_owners_of_live he, hp⟩
    · exact ⟨_, (hi.staging_holds hp).2.1, hp⟩

theorem Inv.owned_allocated (hi : Inv k) {i : Nat} (h : Owned k i) :
    (k.slab.block i).isSome = true := by
  obtain ⟨e, he, hp⟩ := h
  obtain ⟨id, ws, hp', hb, -⟩ := hi.holds e he
  rw [hp] at hp'
  cases hp'
  rw [hb]
  rfl

theorem Inv.leaked_init (i : Nat) : ¬ Leaked aesdInitModule i := by
  rintro ⟨h, -⟩
  cases h

/-- Growing the staging buffer loses nothing: the buffer it replaces is retired. -/
theorem Inv.leaked_grow (hi : Inv k) {slab : Slab UInt8} {count : Nat}
    (hi' : Inv (k.withStaging (grownEntry k count) slab))
    (hf : ∀ i, i ≠ k.slab.next → slab.block i
      = if k.dev.bufferEntryStaging.buffptr = .block i then none else k.slab.block i) (i : Nat) :
    Leaked (k.withStaging (grownEntry k count) slab) i ↔ Leaked k i := by
  unfold Leaked
  rw [hi'.owned_iff, hi.owned_iff]
  simp only [Kernel.withStaging_ring, Kernel.withStaging_staging, Kernel.withStaging_slab]
  by_cases hn : i = k.slab.next
  · have hnone := hi.slab.block_next
    rw [hn, hnone]
    simp [grownEntry]
  · have hne : (grownEntry k count).buffptr ≠ .block i := by
      intro hc
      simp only [grownEntry, Ptr.block.injEq] at hc
      exact hn hc.symm
    rw [hf i hn]
    by_cases hp : k.dev.bufferEntryStaging.buffptr = .block i
    · simp [hp]
    · simp [hp, hne]

/-- The commit frees an owned buffer or none. -/
theorem Inv.leaked_commit (hi : Inv k) {id : Nat}
    (hp : k.dev.bufferEntryStaging.buffptr = .block id) {slab : Slab UInt8}
    (hwin : live (committedRing k)
      = (live k.dev.circularBuffer ++ [k.dev.bufferEntryStaging]).rtake 10)
    (hfree : ∀ i, (Owned k i → ¬ Owned (k.withRing (committedRing k) slab) i →
        slab.block i = none) ∧ (¬ Owned k i → slab.block i = k.slab.block i)) (i : Nat) :
    Leaked (k.withRing (committedRing k) slab) i ↔ Leaked k i := by
  obtain ⟨hgone, hsame⟩ := hfree i
  unfold Leaked
  by_cases ho : Owned k i
  · refine ⟨fun hl => ?_, fun hl => absurd ho hl.2⟩
    have hnone := hgone ho hl.2
    rw [Kernel.withRing_slab, hnone] at hl
    cases hl.1
  · rw [Kernel.withRing_slab, hsame ho]
    refine and_congr_right fun _ => not_congr ⟨fun hc => absurd ?_ ho, fun hc => absurd hc ho⟩
    obtain ⟨e, he, hp'⟩ := hc
    rw [owners_withRing, hwin] at he
    refine ⟨e, ?_, hp'⟩
    rcases List.mem_append.mp (mem_of_mem_rtake he) with hm | hm
    · exact mem_owners_of_live hm
    · rw [List.mem_singleton.mp hm]
      exact (hi.staging_holds hp).2.1

/-! ## `aesd_write` -/

/-- Nothing staged and nothing written. -/
theorem aesdWrite_nothing (filp : Nat) (hi : Inv k) (h0 : request k buf.length = 0) :
    ∃ k', aesdWrite filp buf env k = some (ssizeOf (bytesCopied buf env), k') ∧ Inv k' ∧
      abs k' = (restored env.fresh k).write 10 isNewline (userBytes buf env.notCopied) ∧
      gap k' = 0 ∧ k'.fPos = (k.advance filp (bytesCopied buf env)).fPos ∧
      ∀ i, Leaked k' i ↔ Leaked k i := by
  have hbuf : buf = [] := List.eq_nil_of_length_eq_zero (by unfold request at h0; omega)
  have hsz : k.dev.bufferEntryStaging.size = 0 := by unfold request at h0; omega
  have hbc : bytesCopied buf env = 0 := by subst hbuf; simp [bytesCopied]
  have hi' : Inv (k.withStaging { buffptr := .zeroSize, size := 0 } k.slab) :=
    hi.dropStaging (Or.inr ⟨rfl, rfl⟩)
  have hnil : restaged env.fresh k = [] :=
    List.eq_nil_of_length_eq_zero (by rw [hi.length_restaged, hsz])
  refine ⟨_, ?_, hi'.advance filp 0, ?_, rfl, by rw [hbc]; rfl, fun i => ?_⟩
  · unfold aesdWrite
    rw [aesdWriteStage_zero filp h0, hbc]
    rfl
  · have hzero : bytesOf k.slab { buffptr := .zeroSize, size := 0 } = [] := rfl
    subst hbuf
    simp [LineLog.write, userBytes, abs, restored, hnil, hzero]
  · show Leaked (k.withStaging { buffptr := .zeroSize, size := 0 } k.slab) i ↔ _
    unfold Leaked
    rw [hi'.owned_iff, hi.owned_iff]
    simp [hi.empty hsz i]

/--
**A write that is served.** It returns the bytes copied, advances `f_pos` by as much, is one
write of the line log and loses no buffer.
-/
theorem aesdWrite_served (filp : Nat) (hi : Inv k) (hfit : request k buf.length < 2 ^ 64)
    (hc : min env.notCopied buf.length < 2 ^ 63)
    (hs : request k buf.length = 0 ∨ env.serves (request k buf.length) = true) :
    ∃ k', aesdWrite filp buf env k = some (ssizeOf (bytesCopied buf env), k') ∧ Inv k' ∧
      abs k' = (restored env.fresh k).write 10 isNewline (userBytes buf env.notCopied) ∧
      gap k' = 0 ∧ k'.fPos = (k.advance filp (bytesCopied buf env)).fPos ∧
      ∀ i, Leaked k' i ↔ Leaked k i := by
  by_cases h0 : request k buf.length = 0
  · exact aesdWrite_nothing filp hi h0
  · obtain ⟨slab, hstage, hw, hb, hf⟩ :=
      aesdWriteStage_ok filp hi hfit hc h0 (hs.resolve_left h0)
    have hl : (restaged env.fresh k ++ userBytes buf env.notCopied).length
        = request k buf.length := by
      rw [List.length_append, hi.length_restaged, length_userBytes]
      rfl
    obtain ⟨hi₁, hbytes⟩ := hi.grow hw hb hl h0 hf
    have hstaged : bytesOf slab (grownEntry k buf.length)
        = restaged env.fresh k ++ userBytes buf env.notCopied := bytesOf_block rfl hb
    have hlive : (live k.dev.circularBuffer).map (bytesOf slab) = (restored env.fresh k).entries :=
      List.map_congr_left hbytes
    have hleak := hi.leaked_grow hi₁ hf
    have hadv : Inv ((k.withStaging (grownEntry k buf.length) slab).advance filp
        (bytesCopied buf env)) := hi₁.advance _ _
    have hany := any_isNewline (userBytes buf env.notCopied)
    unfold aesdWrite
    rw [hstage]
    cases hnl : (userBytes buf env.notCopied).contains newline with
    | false =>
      rw [hnl] at hany
      refine ⟨_, rfl, hadv, ?_, rfl, rfl, hleak⟩
      rw [LineLog.write_go_on _ hany, abs_advance]
      simp only [abs, restored, Kernel.withStaging_ring, Kernel.withStaging_staging,
        Kernel.withStaging_slab, hlive, hstaged]
    | true =>
      rw [hnl] at hany
      obtain ⟨slab₂, hcommit, hi₂, hwin, hbytes₂, hfree⟩ := aesdWriteCommit_ok hadv rfl
      refine ⟨_, by rw [Option.bind_eq_bind, Option.bind_some]; simp only [hcommit]; rfl,
        hi₂, ?_, rfl, rfl, fun i => ?_⟩
      · rw [LineLog.write_stop _ hany]
        simp only [abs, Kernel.withRing_ring, Kernel.withRing_staging, Kernel.withRing_slab]
        rw [List.map_congr_left hbytes₂, hwin, map_rtake, List.map_append]
        simp only [Kernel.advance_dev, Kernel.advance_slab, Kernel.withStaging_ring,
          Kernel.withStaging_slab, Kernel.withStaging_staging, List.map_cons, List.map_nil]
        rw [hlive, hstaged]
        rfl
      · rw [← hleak i]
        exact hadv.leaked_commit rfl hwin hfree i

/--
**A write that is refused.** It returns `-ENOMEM`. The ring is as before, but the staging entry
loses its buffer, which stays allocated, and keeps its size.
-/
theorem aesdWrite_refused (filp : Nat) (hi : Inv k) (hfit : request k buf.length < 2 ^ 64)
    (hne : request k buf.length ≠ 0) (hs : env.serves (request k buf.length) = false) :
    ∃ k', aesdWrite filp buf env k = some (-enomem, k') ∧ Inv k' ∧
      abs k' = { abs k with staged := [] } ∧ gap k' = k.dev.bufferEntryStaging.size ∧
      k'.fPos = k.fPos ∧
      ∀ i, Leaked k' i ↔ Leaked k i ∨ k.dev.bufferEntryStaging.buffptr = .block i := by
  have hi' : Inv (k.withStaging { k.dev.bufferEntryStaging with buffptr := .null } k.slab) :=
    hi.dropStaging (Or.inl rfl)
  refine ⟨_, ?_, hi', rfl, rfl, rfl, fun i => ?_⟩
  · unfold aesdWrite
    rw [aesdWriteStage_fail filp hi hfit hne hs]
    rfl
  · unfold Leaked
    rw [hi'.owned_iff, hi.owned_iff]
    simp only [Kernel.withStaging_ring, Kernel.withStaging_staging, Kernel.withStaging_slab]
    by_cases hp : k.dev.bufferEntryStaging.buffptr = .block i
    · have hsome := hi.owned_allocated ((hi.owned_iff i).mpr (Or.inr hp))
      have hnl : ¬ ∃ e ∈ live k.dev.circularBuffer, e.buffptr = .block i := by
        rintro ⟨e, he, hpe⟩
        exact hi.live_ne_staging he hp hpe
      simp [hp, hsome, hnl]
    · simp [hp]

end Aesd.Driver

import Aesd.Driver.Ledger

/-!
# The write side is a line log

Runs of writes that all succeed, and what happens to a byte stream that is cut into writes in
two ways. `memchr` only decides whether the staged bytes are committed; the commit takes all of
them, so a payload is never split at its newline.
-/

namespace Aesd.Driver

open Infra

/-! ## Runs of writes -/

variable {k : Kernel} {p : List UInt8}

/-- The buffers are in order and no staged byte is lost. -/
structure Whole (k : Kernel) : Prop where
  inv : Inv k
  gap_eq : gap k = 0

theorem Whole.init : Whole aesdInitModule := ⟨Inv.init, gap_init⟩

theorem Whole.withFPos (hk : Whole k) (fPos : Nat → Nat) : Whole { k with fPos := fPos } :=
  ⟨hk.inv.withFPos fPos, hk.gap_eq⟩

theorem Whole.request_eq (hk : Whole k) (count : Nat) :
    request k count = (abs k).staged.length + count := by
  unfold request
  rw [← hk.inv.staged_length, hk.gap_eq, Nat.add_zero]

/-- **One write in which nothing fails.** -/
theorem aesdWrite_good (fresh : Nat → UInt8) (filp : Nat) (hi : Inv k)
    (hfit : request k p.length < 2 ^ 64) :
    ∃ k', aesdWrite filp p (.good fresh) k = some (ssizeOf p.length, k') ∧ Whole k' ∧
      abs k' = (restored fresh k).write 10 isNewline p ∧
      k'.fPos = Function.update k.fPos filp ((k.fPos filp + p.length) % 2 ^ 64) := by
  have hserved : request k p.length = 0 ∨
      (WriteEnv.good fresh).serves (request k p.length) = true := Or.inr rfl
  obtain ⟨k', hw, hi', habs, hgap, hpos, -⟩ :=
    aesdWrite_served filp hi hfit (show min 0 p.length < 2 ^ 63 by omega) hserved
  have hbc : bytesCopied p (.good fresh) = p.length := by simp [bytesCopied, WriteEnv.good]
  rw [hbc] at hw hpos
  refine ⟨k', hw, ⟨hi', hgap⟩, ?_, hpos⟩
  rw [habs, show (WriteEnv.good fresh).notCopied = 0 from rfl, userBytes_zero]
  rfl

/-- The same while no staged byte is lost. -/
theorem Whole.write (hk : Whole k) (filp : Nat)
    (hfit : (abs k).staged.length + p.length < 2 ^ 64) :
    ∃ k', aesdWrite filp p .good k = some (ssizeOf p.length, k') ∧ Whole k' ∧
      abs k' = (abs k).write 10 isNewline p ∧
      k'.fPos = Function.update k.fPos filp ((k.fPos filp + p.length) % 2 ^ 64) := by
  have h := aesdWrite_good (p := p) (fun _ => 0) filp hk.inv (by rw [hk.request_eq]; exact hfit)
  rwa [restored_of_no_gap _ hk.gap_eq] at h

/-- A state that the kernel can bring the device into. -/
def Reachable (k : Kernel) : Prop :=
  ∃ cs : List Call, (∀ c ∈ cs, c.Bounded) ∧ runCalls aesdInitModule cs = some k

theorem Reachable.inv (h : Reachable k) : Inv k := by
  obtain ⟨cs, hcs, hrun⟩ := h
  obtain ⟨k', hrun', hi, -⟩ := runCalls_ok cs aesdInitModule Inv.init (Nat.two_pow_pos 62) hcs
  rw [hrun] at hrun'
  cases hrun'
  exact hi

/-- The same on the log: the two lines that the last write completes agree exactly if what they
begin with does. -/
theorem restored_cut_iff (fresh fresh₁ : Nat → UInt8) (k : Kernel) (p q : List UInt8) :
    (restored fresh k).write 10 isNewline (p ++ q)
        = ((restored fresh₁ k).write 10 isNewline p).write 10 isNewline q ↔
      (newline ∉ p ∨ q = []) ∧ ∀ i < gap k, fresh i = fresh₁ i := by
  have hent : (restored fresh k).entries = (restored fresh₁ k).entries := rfl
  rw [LineLog.write_cut_iff (by omega) hent, any_isNewline, ← Bool.not_eq_true,
    List.contains_iff_mem]
  refine and_congr_right fun _ => ?_
  unfold restored restaged
  rw [List.append_cancel_left_eq, Slab.freshWords_inj]

/--
**A cut matters exactly after a newline.**

Writing `p ++ q` and writing `p` and then `q` lead to the same ring contents and staged bytes if
and only if `p` has no newline or `q` is empty. A write whose payload has a newline commits the
staged bytes and the whole payload as one entry, whatever follows the newline.

That is so whatever the memory holds that the three calls are given, unless a refused `krealloc` has
lost the staging buffer before. The first write then makes up the staged bytes, from fresh memory,
and the two runs have to find the same there.
-/
theorem cut_write_iff (hk : Reachable k) (filp filp₁ filp₂ : Nat)
    (fresh fresh₁ fresh₂ : Nat → UInt8) (p q : List UInt8)
    (hfit : request k (p ++ q).length < 2 ^ 64) :
    ∃ r₁ k₁ r₂ k₂ r₃ k₃, aesdWrite filp (p ++ q) (.good fresh) k = some (r₁, k₁) ∧
      aesdWrite filp₁ p (.good fresh₁) k = some (r₂, k₂) ∧
      aesdWrite filp₂ q (.good fresh₂) k₂ = some (r₃, k₃) ∧
      gap k₁ = 0 ∧ gap k₃ = 0 ∧
      (abs k₁ = abs k₃ ↔ (newline ∉ p ∨ q = []) ∧ ∀ i < gap k, fresh i = fresh₁ i) ∧
      (newline ∈ p → abs k₂
        = { entries := ((abs k).entries ++ [restaged fresh₁ k ++ p]).rtake 10, staged := [] }) := by
  have hi := hk.inv
  rw [List.length_append] at hfit
  have hfit₁ : request k p.length < 2 ^ 64 := by unfold request at *; omega
  obtain ⟨k₁, hw₁, hk₁, habs₁, -⟩ :=
    aesdWrite_good (p := p ++ q) fresh filp hi (by rw [List.length_append]; exact hfit)
  obtain ⟨k₂, hw₂, hk₂, habs₂, -⟩ := aesdWrite_good fresh₁ filp₁ hi hfit₁
  have hfit₂ : request k₂ q.length < 2 ^ 64 := by
    have hstaged := LineLog.length_staged_write 10 isNewline (restored fresh₁ k) p
    rw [show (restored fresh₁ k).staged.length = _ from hi.length_restaged fresh₁] at hstaged
    rw [hk₂.request_eq, habs₂]
    unfold request at hfit
    omega
  obtain ⟨k₃, hw₃, hk₃, habs₃, -⟩ := aesdWrite_good fresh₂ filp₂ hk₂.inv hfit₂
  rw [restored_of_no_gap _ hk₂.gap_eq] at habs₃
  refine ⟨_, k₁, _, k₂, _, k₃, hw₁, hw₂, hw₃, hk₁.gap_eq, hk₃.gap_eq, ?_, fun hp => ?_⟩
  · rw [habs₁, habs₃, habs₂]
    exact restored_cut_iff fresh fresh₁ k p q
  · rw [habs₂, LineLog.write_stop _ ((any_isNewline p).trans (List.contains_iff_mem.mpr hp))]
    rfl

/-- A line that is begun, cut before its newline. -/
theorem cut_write_iff_after_begun_line :
    ∃ k r₁ k₁ r₂ k₂ r₃ k₃, Reachable k ∧
      aesdWrite 0 ([98] ++ [99, 10]) (.good fun _ => 1) k = some (r₁, k₁) ∧
      aesdWrite 0 [98] (.good fun _ => 2) k = some (r₂, k₂) ∧
      aesdWrite 0 [99, 10] (.good fun _ => 3) k₂ = some (r₃, k₃) ∧ abs k₁ = abs k₃ := by
  have hb : ∀ c ∈ [Call.write 0 [97] { serves := fun n => decide (n < 4096), notCopied := 0 }],
      c.Bounded := by
    intro c hc
    rw [List.mem_singleton.mp hc]
    exact ⟨by decide, fun n hn => decide_eq_false (by omega)⟩
  obtain ⟨k, hrun, hi, -⟩ := runCalls_ok _ aesdInitModule Inv.init (Nat.two_pow_pos 62) hb
  obtain ⟨hsz, hgap⟩ : k.dev.bufferEntryStaging.size = 1 ∧ gap k = 0 := by
    have hdec : (runCalls aesdInitModule [Call.write 0 [97]
        { serves := fun n => decide (n < 4096), notCopied := 0 }]).map
        (fun k => (k.dev.bufferEntryStaging.size, gap k)) = some (1, 0) := by decide
    rw [hrun] at hdec
    exact Prod.mk.inj (Option.some.inj hdec)
  obtain ⟨r₁, k₁, r₂, k₂, r₃, k₃, h1, h2, h3, -, -, hiff, -⟩ :=
    cut_write_iff ⟨_, hb, hrun⟩ 0 0 0 (fun _ => 1) (fun _ => 2) (fun _ => 3) [98] [99, 10]
      (by unfold request; rw [hsz]; decide)
  refine ⟨k, r₁, k₁, r₂, k₂, r₃, k₃, ⟨_, hb, hrun⟩, h1, h2, h3,
    hiff.mpr ⟨Or.inl (by decide), fun i hlt => ?_⟩⟩
  rw [hgap] at hlt
  omega

/-- The cut falls right behind a newline: one write makes one entry of `"a\nb"`, two writes
commit `"a\n"` and stage `"b"`. -/
theorem cut_write_after_newline_differs :
    Reachable aesdInitModule ∧
      (aesdWrite 0 ([97, 10] ++ [98]) .good aesdInitModule).map (fun r => abs r.2)
        = some { entries := [[97, 10, 98]], staged := [] } ∧
      ((aesdWrite 0 [97, 10] .good aesdInitModule).bind fun r =>
        (aesdWrite 0 [98] .good r.2).map fun r => abs r.2)
        = some { entries := [[97, 10]], staged := [98] } :=
  ⟨⟨[], by simp, rfl⟩, by decide, by decide⟩

end Aesd.Driver

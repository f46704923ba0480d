import Mathlib.Algebra.BigOperators.Group.List.Lemmas
import Aesd.Driver.Lines
import Aesd.Driver.Lookup

/-!
# What a reader receives

The content of the device is the concatenation of its live entries. `aesd_read` copies from the
first byte of the entry that `f_pos` falls into, since it does not use the byte offset that the
lookup stores. So it hands over the bytes at `f_pos` only at the start of an entry, at the end,
or where the content happens to repeat itself.
-/

namespace Aesd.Driver

open Infra

variable {k : Kernel} {filp : Nat}

/-! ## How large entries get -/

/-- `kmalloc` and `krealloc` serve no request of `m` bytes or more. -/
def Call.ServedBelow (m : Nat) : Call → Prop
  | .write _ _ env => ∀ n, m ≤ n → env.serves n = false
  | .read _ _ _ => True

/-- A state that the kernel can bring the device into when no buffer gets `m` bytes. -/
def ReachableBelow (m : Nat) (k : Kernel) : Prop :=
  ∃ cs : List Call, (∀ c ∈ cs, c.Bounded ∧ c.ServedBelow m) ∧ runCalls aesdInitModule cs = some k

/-- A write commits no more than it asked the allocator for. -/
theorem Call.exec_entries_lt {m : Nat} (hi : Inv k) (hsz : k.dev.bufferEntryStaging.size < 2 ^ 62)
    {c : Call} (hb : c.Bounded) (hm : c.ServedBelow m) (he : ∀ l ∈ (abs k).entries, l.length < m)
    {ret : Int} {k' : Kernel} (hx : c.exec k = some (ret, k')) :
    ∀ l ∈ (abs k').entries, l.length < m := by
  cases c with
  | read filp count notCopied =>
    obtain ⟨bytes, ret', fPos, hr⟩ := aesdRead_ok hi filp count notCopied
    rw [Call.exec, hr] at hx
    cases hx
    exact he
  | write filp buf env =>
    obtain ⟨hlen, -⟩ := hb
    have hfit : request k buf.length < 2 ^ 64 := by unfold request; omega
    by_cases hs : request k buf.length = 0 ∨ env.serves (request k buf.length) = true
    · obtain ⟨k₁, hw, -, habs, -⟩ := aesdWrite_served filp hi hfit (by omega) hs
      cases hw.symm.trans hx
      rw [habs]
      intro l hl
      rcases LineLog.mem_entries_write _ hl with hold | ⟨hnl, rfl⟩
      · exact he l hold
      · -- the payload has a newline, so something was asked for and served
        rw [List.length_append, length_userBytes, restored, hi.length_restaged]
        show request k buf.length < m
        rcases hs with h0 | hs
        · have hnil : buf = [] := List.eq_nil_of_length_eq_zero (by unfold request at h0; omega)
          simp [hnil, userBytes] at hnl
        · by_contra hge
          rw [hm _ (by omega)] at hs
          cases hs
    · obtain ⟨hne, hs⟩ := not_or.mp hs
      obtain ⟨k₁, hw, -, habs, -⟩ :=
        aesdWrite_refused filp hi hfit hne (Bool.eq_false_iff.mpr hs)
      cases hw.symm.trans hx
      rw [habs]
      exact he

theorem runCalls_entries_lt {m : Nat} : ∀ (cs : List Call) (k k' : Kernel), Inv k →
    k.dev.bufferEntryStaging.size < 2 ^ 62 → (∀ c ∈ cs, c.Bounded ∧ c.ServedBelow m) →
    (∀ l ∈ (abs k).entries, l.length < m) → runCalls k cs = some k' →
    ∀ l ∈ (abs k').entries, l.length < m
  | [], k, k', _, _, _, he, hrun => by
    cases hrun
    exact he
  | c :: cs, k, k', hi, hsz, hcs, he, hrun => by
    obtain ⟨hb, hm⟩ := hcs c List.mem_cons_self
    obtain ⟨ret, k₁, hx, hi₁, hsz₁, -⟩ := Call.exec_ok hi hsz hb
    rw [runCalls, hx] at hrun
    exact runCalls_entries_lt cs k₁ k' hi₁ hsz₁ (fun c' hc' => hcs c' (List.mem_cons_of_mem _ hc'))
      (Call.exec_entries_lt hi hsz hb hm he hx) hrun

namespace ReachableBelow

variable {m : Nat}

theorem inv (hk : ReachableBelow m k) : Inv k := by
  obtain ⟨cs, hcs, hrun⟩ := hk
  exact Reachable.inv ⟨cs, fun c hc => (hcs c hc).1, hrun⟩

theorem entries_lt (hk : ReachableBelow m k) : ∀ l ∈ (abs k).entries, l.length < m := by
  obtain ⟨cs, hcs, hrun⟩ := hk
  refine runCalls_entries_lt cs aesdInitModule k Inv.init (Nat.two_pow_pos 62) hcs ?_ hrun
  intro l hl
  cases hl

theorem live_size_lt (hk : ReachableBelow m k) :
    ∀ e ∈ live k.dev.circularBuffer, e.size < m := by
  intro e he
  rw [← (hk.inv.holds e (mem_owners_of_live he)).length_bytesOf]
  exact hk.entries_lt _ (List.mem_map_of_mem he)

end ReachableBelow

/-! ## The content -/

/-- The live entries, oldest first, end to end. -/
def content (k : Kernel) : List UInt8 := (abs k).entries.flatten

theorem Inv.length_entries (hi : Inv k) :
    (abs k).entries.map List.length = (live k.dev.circularBuffer).map AesdBufferEntry.size := by
  unfold abs
  rw [List.map_map]
  exact List.map_congr_left fun e he => (hi.holds e (mem_owners_of_live he)).length_bytesOf

theorem Inv.length_content (hi : Inv k) :
    (content k).length = totalSize k.dev.circularBuffer := by
  unfold content totalSize
  rw [List.length_flatten, hi.length_entries]

/-- Where the bytes of an entry are in the content. -/
theorem Inv.content_getElem? (hi : Inv k) {i j : Nat} {e : AesdBufferEntry}
    (he : (live k.dev.circularBuffer)[i]? = some e) (hj : j < e.size) :
    (content k)[entryStart k.dev.circularBuffer i + j]? = (bytesOf k.slab e)[j]? := by
  have hent : (abs k).entries[i]? = some (bytesOf k.slab e) := by
    unfold abs
    rw [List.getElem?_map, he]
    rfl
  obtain ⟨hlt, hget⟩ := List.getElem?_eq_some_iff.mp hent
  have hslice := List.drop_take_succ_flatten_eq_getElem (abs k).entries i hlt
  have hlen : (bytesOf k.slab e).length = e.size :=
    (hi.holds e (mem_owners_of_live (List.mem_of_getElem? he))).length_bytesOf
  rw [hget, hi.length_entries, ← List.map_take, ← List.map_take] at hslice
  change (List.take (entryStart k.dev.circularBuffer (i + 1)) (content k)).drop
    (entryStart k.dev.circularBuffer i) = _ at hslice
  have hsucc := entryStart_of_live he
  rw [← hslice, List.getElem?_drop, List.getElem?_take, if_pos (by omega)]

/-! ## Reads -/

/--
What a read that copies everything is for: it hands over the `n` bytes of the content at `f_pos`,
at most `count` and at least one if there is one, and moves `f_pos` behind them.
-/
def ReadsRight (filp count : Nat) (k : Kernel) : Prop :=
  ∃ (n : Nat) (bytes : List UInt8) (k' : Kernel),
    aesdRead filp count 0 k = some (bytes, (n : Int), k') ∧ n ≤ count ∧ bytes.length = n ∧
    bytes = ((content k).drop (k.fPos filp)).take n ∧
    k'.fPos = Function.update k.fPos filp (k.fPos filp + n) ∧
    k'.dev = k.dev ∧ k'.slab = k.slab ∧
    (0 < count → k.fPos filp < (content k).length → 0 < n) ∧
    ((content k).length ≤ k.fPos filp → n = 0)

/--
The position is at the end or at the first byte of an entry, or the entry around it begins with
the bytes that the content has from the position on.
-/
def Readable (k : Kernel) (pos count : Nat) : Prop :=
  totalSize k.dev.circularBuffer ≤ pos ∨
  ∃ i e, (live k.dev.circularBuffer)[i]? = some e ∧
    entryStart k.dev.circularBuffer i ≤ pos ∧ pos < entryStart k.dev.circularBuffer i + e.size ∧
    (pos = entryStart k.dev.circularBuffer i ∨ ∀ j, j < min count e.size →
      (content k)[pos + j]? = (content k)[entryStart k.dev.circularBuffer i + j]?)

/-- Some live entry is around a position before the end. -/
theorem Inv.entry_around (hi : Inv k) (htot : totalSize k.dev.circularBuffer < 2 ^ 64) {pos : Nat}
    (hpos : pos < totalSize k.dev.circularBuffer) :
    ∃ i e, (live k.dev.circularBuffer)[i]? = some e ∧
      entryStart k.dev.circularBuffer i ≤ pos ∧ pos < entryStart k.dev.circularBuffer (i + 1) ∧
      entryStart k.dev.circularBuffer (i + 1)
        = entryStart k.dev.circularBuffer i + e.size := by
  obtain ⟨h, hr⟩ := hi.ring
  rcases hr.findEntry_eq htot pos with ⟨i, hil, hle, hlt, -⟩ | ⟨hend, -⟩
  · exact ⟨i, _, live_getElem? hil, hle, hlt, entryStart_succ hil⟩
  · omega

/-- **One read**, exactly. -/
theorem readsRight_iff (hi : Inv k) (hsize : ∀ e ∈ live k.dev.circularBuffer, e.size < 2 ^ 59)
    (filp count : Nat) : ReadsRight filp count k ↔ Readable k (k.fPos filp) count := by
  have htotal : totalSize k.dev.circularBuffer ≤ 10 * 2 ^ 59 := by
    obtain ⟨h, hr⟩ := hi.ring
    exact hr.totalSize_le fun e he => Nat.le_of_lt (hsize e he)
  have htot : totalSize k.dev.circularBuffer < 2 ^ 64 := by omega
  have hlen := hi.length_content
  by_cases hend : totalSize k.dev.circularBuffer ≤ k.fPos filp
  · refine iff_of_true ⟨0, [], k, aesdRead_end filp hi htot hend count, Nat.zero_le _, rfl, by simp,
      ?_, rfl, rfl, fun _ hlt => absurd hlt (by omega), fun _ => rfl⟩ (Or.inl hend)
    rw [Nat.add_zero, Function.update_eq_self]
  · obtain ⟨i, e, he, hle, hlt, hsucc⟩ := hi.entry_around htot (Nat.not_le.mp hend)
    have hlt59 := hsize e (List.mem_of_getElem? he)
    obtain ⟨e', he', hread⟩ := aesdRead_around hi htot hle hlt count
    obtain rfl : e' = e := Option.some.inj (he'.symm.trans he)
    rw [ssizeOf_of_lt (by omega)] at hread
    have hcells : (bytesOf k.slab e').length = e'.size :=
      (hi.holds e' (mem_owners_of_live (List.mem_of_getElem? he))).length_bytesOf
    constructor
    · rintro ⟨n, bytes, k', hr, -, -, hbytes, -⟩
      rw [hread] at hr
      simp only [Option.some.injEq, Prod.mk.injEq, Int.natCast_inj] at hr
      obtain ⟨rfl, rfl, -⟩ := hr
      refine Or.inr ⟨i, e', he, hle, by omega, Or.inr fun j hj => ?_⟩
      have hj' := congrArg (·[j]?) hbytes
      simp only [List.getElem?_take, hj, if_true, List.getElem?_drop] at hj'
      rw [hi.content_getElem? he (by omega), hj']
    · intro hok
      -- the bytes of the entry are those at the position
      have hsame : ∀ j, j < min count e'.size →
          (bytesOf k.slab e')[j]? = (content k)[k.fPos filp + j]? := by
        intro j hj
        rw [← hi.content_getElem? he (show j < e'.size by omega)]
        rcases hok with hc | ⟨i₁, e₁, he₁, hle₁, hlt₁, hrep⟩
        · exact absurd hc hend
        · have hsucc₁ := entryStart_of_live he₁
          obtain rfl := entry_around_unique k.dev.circularBuffer (j := i₁) ⟨hle, hlt⟩ (by omega)
          obtain rfl : e₁ = e' := Option.some.inj (he₁.symm.trans he)
          rcases hrep with heq | hrep
          · rw [heq]
          · exact (hrep j hj).symm
      refine ⟨min count e'.size, _, _, hread, Nat.min_le_left _ _, ?_, ?_, ?_, rfl, rfl, ?_, ?_⟩
      · rw [List.length_take, hcells]
        omega
      · refine List.ext_getElem? fun j => ?_
        rw [List.getElem?_take, List.getElem?_take, List.getElem?_drop]
        by_cases hj : j < min count e'.size
        · rw [if_pos hj, if_pos hj, hsame j hj]
        · rw [if_neg hj, if_neg hj]
      · rw [Kernel.advance_fPos, Nat.mod_eq_of_lt (by unfold sizeMod; omega)]
      · omega
      · omega

/-! ## Sequences of reads -/

/-- Reads with these counts, one after the other: all the bytes received, and the state. -/
def readAll (filp : Nat) : List Nat → Kernel → Option (List UInt8 × Kernel)
  | [], k => some ([], k)
  | count :: counts, k => do
    let (bytes, _, k₁) ← aesdRead filp count 0 k
    let (rest, k₂) ← readAll filp counts k₁
    return (bytes ++ rest, k₂)

/-- Each of these reads is made at a position at which it is right. -/
def AllReadable (filp : Nat) : List Nat → Kernel → Prop
  | [], _ => True
  | count :: counts, k => Readable k (k.fPos filp) count ∧
    ∀ r, aesdRead filp count 0 k = some r → AllReadable filp counts r.2.2

/-- **A sequence of reads** hands over consecutive bytes. -/
theorem readAll_right (filp : Nat) : ∀ (counts : List Nat) (k : Kernel), Inv k →
    (∀ e ∈ live k.dev.circularBuffer, e.size < 2 ^ 59) → AllReadable filp counts k →
    ∃ bytes k', readAll filp counts k = some (bytes, k') ∧
      bytes = ((content k).drop (k.fPos filp)).take bytes.length ∧
      k'.fPos = Function.update k.fPos filp (k.fPos filp + bytes.length) ∧
      k'.dev = k.dev ∧ k'.slab = k.slab
  | [], k, _, _, _ => ⟨[], k, rfl, by simp, by simp, rfl, rfl⟩
  | count :: counts, k, hi, hsize, ⟨hfirst, hrest⟩ => by
    obtain ⟨n, bytes, k₁, hread, -, hlen, hbytes, hpos, hdev, hslab, -⟩ :=
      (readsRight_iff hi hsize filp count).mpr hfirst
    -- the next read finds the same device
    obtain ⟨dev₁, slab₁, fPos₁⟩ := k₁
    dsimp only at hpos hdev hslab
    subst hpos hdev hslab
    obtain ⟨rest, k₂, hall, hrest', hpos₂, hdev₂, hslab₂⟩ :=
      readAll_right filp counts
        { k with fPos := Function.update k.fPos filp (k.fPos filp + n) } (hi.withFPos _) hsize
        (hrest _ hread)
    dsimp only at hpos₂ hrest'
    rw [Function.update_self] at hpos₂ hrest'
    refine ⟨bytes ++ rest, k₂, ?_, ?_, ?_, hdev₂, hslab₂⟩
    · rw [readAll, hread]
      simp [hall]
    · rw [List.length_append, List.take_add, List.drop_drop, hlen, ← hbytes]
      exact congrArg (bytes ++ ·) hrest'
    · rw [hpos₂, List.length_append, hlen, Function.update_idem, Nat.add_assoc]

/--
**When a read is right.**

In every reachable state of the device (no buffer of it reaching `2 ^ 59` bytes, so that all
positions in it are `loff_t`), with the files at any positions, and for every file and count:
`aesd_read` hands over the bytes of the content at `f_pos` exactly if `f_pos` is at the end or at
the first byte of an entry, or the entry around it begins with what the content has from `f_pos`
on. A sequence of reads that all are made at such positions hands over consecutive bytes of the
content, each once.
-/
theorem aesd_read_right_iff (hk : ReachableBelow (2 ^ 59) k) (fPos : Nat → Nat) (filp : Nat) :
    (∀ count, ReadsRight filp count { k with fPos := fPos } ↔ Readable k (fPos filp) count) ∧
    ∀ counts, AllReadable filp counts { k with fPos := fPos } →
      ∃ bytes k', readAll filp counts { k with fPos := fPos } = some (bytes, k') ∧
        bytes = ((content k).drop (fPos filp)).take bytes.length ∧
        k'.fPos = Function.update fPos filp (fPos filp + bytes.length) ∧
        k'.dev = k.dev ∧ k'.slab = k.slab :=
  ⟨fun count => readsRight_iff (hk.inv.withFPos fPos) hk.live_size_lt filp count,
    fun counts => readAll_right filp counts { k with fPos := fPos } (hk.inv.withFPos fPos)
      hk.live_size_lt⟩

/-- An allocator that serves less than a page. -/
def pageEnv : WriteEnv where
  serves := fun n => decide (n < 4096)
  notCopied := 0

/-- The state after a write of `"ab\n"` through file 0 and a read of one byte through file 1. -/
theorem reachable_one_byte_read : ∃ k, ReachableBelow (2 ^ 59) k ∧ k.fPos 1 = 1 ∧ k.fPos 2 = 0 ∧
    content k = [97, 98, 10] ∧
    live k.dev.circularBuffer = [{ buffptr := .block 0, size := 3 }] ∧
    (aesdRead 1 3 0 k).map (fun r => (r.1, r.2.1)) = some ([97, 98, 10], 3) := by
  have hb : ∀ c ∈ [Call.write 0 [97, 98, 10] pageEnv, .read 1 1 0],
      c.Bounded ∧ c.ServedBelow (2 ^ 59) := by
    intro c hc
    simp only [List.mem_cons, List.not_mem_nil, or_false] at hc
    rcases hc with rfl | rfl
    · exact ⟨⟨by decide, fun n hn => decide_eq_false (by omega)⟩,
        fun n hn => decide_eq_false (by omega)⟩
    · exact ⟨(by decide : (1 : Nat) < 2 ^ 31), trivial⟩
  obtain ⟨k, hrun, -⟩ :=
    runCalls_ok _ aesdInitModule Inv.init (Nat.two_pow_pos 62) fun c hc => (hb c hc).1
  have hpos : (runCalls aesdInitModule [.write 0 [97, 98, 10] pageEnv, .read 1 1 0]).map
      (fun k => (k.fPos 1, k.fPos 2)) = some (1, 0) := by decide
  have hdev : (runCalls aesdInitModule [.write 0 [97, 98, 10] pageEnv, .read 1 1 0]).map
      (fun k => (content k, live k.dev.circularBuffer))
      = some ([97, 98, 10], [{ buffptr := .block 0, size := 3 }]) := by decide
  have hread : ((runCalls aesdInitModule [.write 0 [97, 98, 10] pageEnv, .read 1 1 0]).bind
      fun k => (aesdRead 1 3 0 k).map fun r => (r.1, r.2.1))
      = some ([97, 98, 10], 3) := by decide
  rw [hrun] at hpos hdev hread
  simp only [Option.map_some, Option.some.injEq, Prod.mk.injEq] at hpos hdev
  exact ⟨k, ⟨_, hb, hrun⟩, hpos.1, hpos.2, hdev.1, hdev.2, hread⟩

/-- File 2 stands at the first byte of the entry. -/
theorem aesd_read_right_iff_first_byte :
    ∃ k, ReachableBelow (2 ^ 59) k ∧ content k = [97, 98, 10] ∧
      ReadsRight 2 2 k := by
  obtain ⟨k, hk, -, hpos, hcont, hlive, -⟩ := reachable_one_byte_read
  refine ⟨k, hk, hcont, ((aesd_read_right_iff hk k.fPos 2).1 2).mpr (Or.inr
    ⟨0, { buffptr := .block 0, size := 3 }, by rw [hlive]; rfl, ?_⟩)⟩
  rw [hpos, entryStart_zero]
  exact ⟨Nat.le_refl 0, by decide, Or.inl rfl⟩

/-- File 1 has read `"a"`. Its next read hands over `"ab\n"`, where `"b\n"` is left. -/
theorem aesd_read_repeats_bytes :
    ∃ k, ReachableBelow (2 ^ 59) k ∧ k.fPos 1 = 1 ∧ content k = [97, 98, 10] ∧
      (aesdRead 1 3 0 k).map (fun r => (r.1, r.2.1)) = some ([97, 98, 10], 3) ∧
      ¬ ReadsRight 1 3 k := by
  obtain ⟨k, hk, hpos, -, hcont, -, hread⟩ := reachable_one_byte_read
  refine ⟨k, hk, hpos, hcont, hread, ?_⟩
  rintro ⟨n, bytes, k', hr, -, hlen, hbytes, -⟩
  rw [hr] at hread
  simp only [Option.map_some, Option.some.injEq, Prod.mk.injEq] at hread
  have hl := congrArg List.length hbytes
  rw [hread.1, hcont, hpos, List.length_take] at hl
  simp at hl
  omega

end Aesd.Driver

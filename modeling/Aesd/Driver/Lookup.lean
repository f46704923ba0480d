import Mathlib.Algebra.Order.BigOperators.Group.List
import Mathlib.Algebra.Order.Ring.Nat
import Aesd.Driver.Ledger

/-!
# Where a file position leads

The scan of `aesd_circular_buffer_find_entry_offset_for_fpos` visits ten slots, used or not, and
adds up sizes in `size_t`. As long as the live sizes sum to less than `2 ^ 64` it stops at the one
live entry that holds the byte at the position, or nowhere if the position is at the end.
-/

namespace Aesd.Driver

open Infra

variable {buffer : AesdCircularBuffer} {h : List AesdBufferEntry} {charOffset : Nat}

/-! ## Positions of entries -/

/-- The bytes of the first `n` live entries: where the one behind them starts. -/
def entryStart (buffer : AesdCircularBuffer) (n : Nat) : Nat :=
  (((live buffer).take n).map AesdBufferEntry.size).sum

/-- The bytes of all live entries. -/
def totalSize (buffer : AesdCircularBuffer) : Nat := ((live buffer).map AesdBufferEntry.size).sum

theorem length_live (buffer : AesdCircularBuffer) : (live buffer).length = liveCount buffer := by
  simp [live, liveSlots]

/-- The `n`-th live entry is in the slot that `peek` gives. -/
theorem live_getElem? {n : Nat} (hn : n < liveCount buffer) :
    (live buffer)[n]? = some (buffer.slot ((buffer.outOffs + n) % 10)) := by
  simp [live, liveSlots, hn]

theorem entryStart_zero (buffer : AesdCircularBuffer) : entryStart buffer 0 = 0 := rfl

theorem entryStart_succ {n : Nat} (hn : n < liveCount buffer) : entryStart buffer (n + 1)
    = entryStart buffer n + (buffer.slot ((buffer.outOffs + n) % 10)).size := by
  unfold entryStart
  rw [List.take_add_one, live_getElem? hn]
  simp

theorem entryStart_of_live {n : Nat} {e : AesdBufferEntry} (he : (live buffer)[n]? = some e) :
    entryStart buffer (n + 1) = entryStart buffer n + e.size := by
  have hn : n < liveCount buffer := by
    rw [← length_live]
    exact (List.getElem?_eq_some_iff.mp he).1
  have hsucc := entryStart_succ hn
  rw [live_getElem? hn, Option.some.injEq] at he
  rwa [he] at hsucc

theorem entryStart_of_le (buffer : AesdCircularBuffer) {n : Nat} (hn : liveCount buffer ≤ n) :
    entryStart buffer n = totalSize buffer := by
  unfold entryStart totalSize
  rw [List.take_of_length_le (by rw [length_live]; exact hn)]

theorem entryStart_mono (buffer : AesdCircularBuffer) {m n : Nat} (hmn : m ≤ n) :
    entryStart buffer m ≤ entryStart buffer n := by
  induction n, hmn using Nat.le_induction with
  | base => exact Nat.le_refl _
  | succ n _ ih =>
    refine Nat.le_trans ih ?_
    by_cases hn : n < liveCount buffer
    · rw [entryStart_succ hn]
      exact Nat.le_add_right _ _
    · rw [entryStart_of_le buffer (by omega), entryStart_of_le buffer (by omega)]

theorem entryStart_le_total (buffer : AesdCircularBuffer) (n : Nat) :
    entryStart buffer n ≤ totalSize buffer := by
  rw [← entryStart_of_le buffer (n := max n (liveCount buffer)) (by omega)]
  exact entryStart_mono buffer (by omega)

/-! ## The scan -/

namespace RingOf

theorem liveCount_le (H : RingOf buffer h) : liveCount buffer ≤ 10 := by
  rw [H.liveCount_eq]
  omega

theorem isEmpty_iff (H : RingOf buffer h) : isEmpty buffer = true ↔ liveCount buffer = 0 := by
  unfold isEmpty
  rw [H.liveCount_eq, H.full_eq, H.inOffs_eq, H.outOffs_eq]
  simp only [Bool.and_eq_true, Bool.not_eq_eq_eq_not, Bool.not_true, decide_eq_false_iff_not,
    beq_iff_eq]
  split <;> omega

theorem peek_eq (H : RingOf buffer h) (hne : liveCount buffer ≠ 0) (n : Nat) :
    peek buffer n = some ((buffer.outOffs + n) % 10) := by
  unfold peek
  rw [if_neg (mt H.isEmpty_iff.mp hne)]

/-- The slots that `peek` gives behind the live entries are unused. -/
theorem slot_behind (H : RingOf buffer h) {n : Nat} (hn : liveCount buffer ≤ n) (h10 : n < 10) :
    buffer.slot ((buffer.outOffs + n) % 10) = .zero := by
  refine H.unused (Nat.mod_lt _ (by omega)) fun hm => ?_
  obtain ⟨i, hi, he⟩ := List.mem_map.mp hm
  rw [List.mem_range] at hi
  omega

theorem slot_size (H : RingOf buffer h) {n : Nat} (hn : n < liveCount buffer) :
    (buffer.slot ((buffer.outOffs + n) % 10)).size ≠ 0 := by
  refine H.nonempty _ (mem_of_mem_rtake (n := 10) ?_)
  rw [← H.live_eq]
  exact List.mem_of_getElem? (live_getElem? hn)

/--
**The scan**, `todo` rounds before its end. It has passed `n` entries and the position lies
behind them.
-/
theorem findEntryLoop_eq (H : RingOf buffer h) (hne : liveCount buffer ≠ 0)
    (htot : totalSize buffer < 2 ^ 64) : ∀ (todo n : Nat), todo + n = 10 →
    entryStart buffer n ≤ charOffset →
    (∃ i, i < liveCount buffer ∧ entryStart buffer i ≤ charOffset ∧
      charOffset < entryStart buffer (i + 1) ∧
      findEntryLoop buffer charOffset todo n (entryStart buffer n)
        = some ((buffer.outOffs + i) % 10, charOffset - entryStart buffer i)) ∨
    (totalSize buffer ≤ charOffset ∧
      findEntryLoop buffer charOffset todo n (entryStart buffer n) = none)
  | 0, n, hn, hle => by
    refine Or.inr ⟨?_, rfl⟩
    rwa [entryStart_of_le buffer (by have := H.liveCount_le; omega)] at hle
  | todo + 1, n, hn, hle => by
    have hcur := entryStart_le_total buffer n
    rw [findEntryLoop, H.peek_eq hne n]
    dsimp only
    by_cases hlive : n < liveCount buffer
    · have hsucc := entryStart_succ hlive
      have hend := entryStart_le_total buffer (n + 1)
      have hsz := H.slot_size hlive
      have hmax : (entryStart buffer n + ((buffer.slot ((buffer.outOffs + n) % 10)).size
          + sizeMod - 1) % sizeMod) % sizeMod = entryStart buffer (n + 1) - 1 := by
        unfold sizeMod
        omega
      rw [hmax]
      by_cases hstop : entryStart buffer (n + 1) - 1 ≥ charOffset
      · have hbyte : (charOffset + sizeMod - entryStart buffer n) % sizeMod
            = charOffset - entryStart buffer n := by
          unfold sizeMod
          omega
        refine Or.inl ⟨n, hlive, hle, by omega, ?_⟩
        rw [if_pos hstop, hbyte]
      · rw [if_neg hstop, show (entryStart buffer n
          + (buffer.slot ((buffer.outOffs + n) % 10)).size) % sizeMod = entryStart buffer (n + 1) by
            unfold sizeMod; omega]
        exact findEntryLoop_eq H hne htot todo (n + 1) (by omega) (by omega)
    · -- an unused slot: `size - 1` wraps, so the scan compares with the byte before the position
      rw [H.slot_behind (by omega) (by omega)]
      have htotal := entryStart_of_le buffer (n := n) (by omega)
      have hpos : 0 < totalSize buffer := by
        have hone := entryStart_le_total buffer (0 + 1)
        have := entryStart_succ (show 0 < liveCount buffer by omega)
        have := H.slot_size (n := 0) (by omega)
        omega
      rw [if_neg (by simp only [AesdBufferEntry.zero]; unfold sizeMod; omega),
        show (entryStart buffer n + AesdBufferEntry.zero.size) % sizeMod
          = entryStart buffer (n + 1) by
            rw [entryStart_of_le buffer (n := n + 1) (by omega)]
            simp only [AesdBufferEntry.zero]
            unfold sizeMod
            omega]
      refine findEntryLoop_eq H hne htot todo (n + 1) (by omega) ?_
      rw [entryStart_of_le buffer (n := n + 1) (by omega)]
      omega

theorem totalSize_le (H : RingOf buffer h) {m : Nat} (hm : ∀ e ∈ live buffer, e.size ≤ m) :
    totalSize buffer ≤ 10 * m := by
  refine (List.sum_le_card_nsmul _ m ?_).trans ?_
  · intro x hx
    obtain ⟨e, he, rfl⟩ := List.mem_map.mp hx
    exact hm e he
  · rw [List.length_map, length_live, nsmul_eq_mul, Nat.cast_id]
    exact Nat.mul_le_mul_right m H.liveCount_le

/-- **The lookup.** It finds the live entry around the position, or the position is at the end. -/
theorem findEntry_eq (H : RingOf buffer h) (htot : totalSize buffer < 2 ^ 64) (charOffset : Nat) :
    (∃ i, i < liveCount buffer ∧ entryStart buffer i ≤ charOffset ∧
      charOffset < entryStart buffer (i + 1) ∧
      aesdCircularBufferFindEntryOffsetForFpos buffer charOffset
        = some ((buffer.outOffs + i) % 10, charOffset - entryStart buffer i)) ∨
    (totalSize buffer ≤ charOffset ∧
      aesdCircularBufferFindEntryOffsetForFpos buffer charOffset = none) := by
  by_cases hne : liveCount buffer = 0
  · refine Or.inr ⟨?_, ?_⟩
    · rw [← entryStart_of_le buffer (n := 0) (by omega), entryStart_zero]
      exact Nat.zero_le _
    · unfold aesdCircularBufferFindEntryOffsetForFpos aesdcharMaxWriteOperationsSupported
      rw [findEntryLoop]
      unfold peek
      rw [if_pos (H.isEmpty_iff.mpr hne)]
  · exact H.findEntryLoop_eq hne htot 10 0 rfl (Nat.zero_le _)

end RingOf

/-- No two live entries are around one position. -/
theorem entry_around_unique (buffer : AesdCircularBuffer) {i j : Nat}
    (hi : entryStart buffer i ≤ charOffset ∧ charOffset < entryStart buffer (i + 1))
    (hj : entryStart buffer j ≤ charOffset ∧ charOffset < entryStart buffer (j + 1)) : i = j := by
  rcases Nat.lt_trichotomy i j with hc | hc | hc
  · have := entryStart_mono buffer (show i + 1 ≤ j from hc)
    omega
  · exact hc
  · have := entryStart_mono buffer (show j + 1 ≤ i from hc)
    omega

/--
**The lookup is exact.**

On every ring that `add_entry` can build, as long as its live sizes sum to less than `2 ^ 64`: a
slot and a byte are returned exactly if the position is before the end; the slot is then that of
a live entry, never an unused one, the position is the sum of the older sizes plus the byte, and
no other live entry and byte of it are at this position.
-/
theorem find_entry_offset_exact (es : List AesdBufferEntry) (charOffset : Nat)
    (htot : totalSize (addEntries es) < 2 ^ 64) :
    let buffer := addEntries es
    let found := aesdCircularBufferFindEntryOffsetForFpos buffer charOffset
    ((∃ idx b, found = some (idx, b)) ↔ charOffset < totalSize buffer) ∧
    (totalSize buffer ≤ charOffset → found = none) ∧
    ∀ idx b, found = some (idx, b) → ∃ i, i < liveCount buffer ∧
      idx = (buffer.outOffs + i) % 10 ∧ idx ∈ liveSlots buffer ∧
      (live buffer)[i]? = some (buffer.slot idx) ∧ (buffer.slot idx).size ≠ 0 ∧
      charOffset = (((live buffer).take i).map AesdBufferEntry.size).sum + b ∧
      b < (buffer.slot idx).size ∧
      ∀ i' b' e', (live buffer)[i']? = some e' → b' < e'.size →
        charOffset = (((live buffer).take i').map AesdBufferEntry.size).sum + b' →
        i' = i ∧ b' = b := by
  intro buffer found
  have H : RingOf buffer _ := ringOf_addEntries es
  rcases H.findEntry_eq htot charOffset with ⟨i, hi, hle, hlt, he⟩ | ⟨hle, he⟩
  · have hend : charOffset < totalSize buffer :=
      Nat.lt_of_lt_of_le hlt (entryStart_le_total buffer (i + 1))
    refine ⟨⟨fun _ => hend, fun _ => ⟨_, _, he⟩⟩, fun hc => absurd hc (by omega), ?_⟩
    intro idx b hf
    have hf' := he.symm.trans hf
    simp only [Option.some.injEq, Prod.mk.injEq] at hf'
    obtain ⟨rfl, rfl⟩ := hf'
    have hsucc := entryStart_succ hi
    refine ⟨i, hi, rfl, List.mem_map.mpr ⟨i, List.mem_range.mpr hi, rfl⟩, live_getElem? hi,
      H.slot_size hi, ?_, by omega, ?_⟩
    · show charOffset = entryStart buffer i + _
      omega
    · intro i' b' e' hl hb' hat
      replace hat : charOffset = entryStart buffer i' + b' := hat
      have hsucc' := entryStart_of_live hl
      obtain rfl := entry_around_unique buffer ⟨hle, hlt⟩ (j := i') (by omega)
      exact ⟨rfl, by omega⟩
  · refine ⟨⟨?_, fun hc => absurd hc (by omega)⟩, fun _ => he, ?_⟩
    · rintro ⟨idx, b, hf⟩
      cases he.symm.trans hf
    · intro idx b hf
      cases he.symm.trans hf

/-- Two entries in a ring with eight unused slots: position 3 is the first byte of the second,
and position 5 is at the end. -/
theorem find_entry_offset_exact_two_entries :
    aesdCircularBufferFindEntryOffsetForFpos
        (addEntries [⟨.block 0, 3⟩, ⟨.null, 0⟩, ⟨.block 1, 2⟩]) 5 = none ∧
      ∃ idx b, aesdCircularBufferFindEntryOffsetForFpos
        (addEntries [⟨.block 0, 3⟩, ⟨.null, 0⟩, ⟨.block 1, 2⟩]) 3 = some (idx, b) :=
  ⟨(find_entry_offset_exact _ 5 (by decide)).2.1 (by decide),
    (find_entry_offset_exact _ 3 (by decide)).1.mpr (by decide)⟩

/-! ## Reading -/

variable {k : Kernel} {filp : Nat}

/-- **A read inside an entry** hands over this entry from its first byte, as far as there is
room, wherever inside it the position is. -/
theorem aesdRead_around (hi : Inv k) (htot : totalSize k.dev.circularBuffer < 2 ^ 64) {n : Nat}
    (hle : entryStart k.dev.circularBuffer n ≤ k.fPos filp)
    (hlt : k.fPos filp < entryStart k.dev.circularBuffer (n + 1)) (count : Nat) :
    ∃ e, (live k.dev.circularBuffer)[n]? = some e ∧
      aesdRead filp count 0 k = some ((bytesOf k.slab e).take (min count e.size),
        ssizeOf (min count e.size), k.advance filp (min count e.size)) := by
  obtain ⟨h, hr⟩ := hi.ring
  rcases hr.findEntry_eq htot (k.fPos filp) with ⟨i, hil, hle', hlt', he⟩ | ⟨hend, -⟩
  · -- no other entry is around this position
    obtain rfl := entry_around_unique k.dev.circularBuffer ⟨hle', hlt'⟩ ⟨hle, hlt⟩
    refine ⟨_, live_getElem? hil, ?_⟩
    unfold aesdRead
    rw [he]
    simp only [hi.load_slot (Nat.mod_lt _ (by omega)) (Nat.min_le_right count _),
      Option.bind_eq_bind, Option.bind_some, Nat.zero_min, Nat.sub_zero]
    rw [List.take_take, Nat.min_self]
    rfl
  · have := entryStart_le_total k.dev.circularBuffer (n + 1)
    omega

/-- **A read at the start of an entry** hands over this entry, as far as there is room. -/
theorem aesdRead_entry (hi : Inv k) (htot : totalSize k.dev.circularBuffer < 2 ^ 64) {n : Nat}
    (hn : n < liveCount k.dev.circularBuffer)
    (hpos : k.fPos filp = entryStart k.dev.circularBuffer n) (count : Nat) :
    ∃ e, (live k.dev.circularBuffer)[n]? = some e ∧
      aesdRead filp count 0 k = some ((bytesOf k.slab e).take (min count e.size),
        ssizeOf (min count e.size), k.advance filp (min count e.size)) := by
  obtain ⟨h, hr⟩ := hi.ring
  have hsucc := entryStart_succ hn
  have hsz := hr.slot_size hn
  exact aesdRead_around hi htot (by omega) (by omega) count

/-- **A read at the end** hands over nothing. -/
theorem aesdRead_end (filp : Nat) (hi : Inv k) (htot : totalSize k.dev.circularBuffer < 2 ^ 64)
    (hpos : totalSize k.dev.circularBuffer ≤ k.fPos filp) (count : Nat) :
    aesdRead filp count 0 k = some ([], 0, k) := by
  obtain ⟨h, hr⟩ := hi.ring
  unfold aesdRead
  rcases hr.findEntry_eq htot (k.fPos filp) with ⟨i, hil, -, hlt, -⟩ | ⟨-, he⟩
  · have := entryStart_le_total k.dev.circularBuffer (i + 1)
    omega
  · rw [he]

end Aesd.Driver

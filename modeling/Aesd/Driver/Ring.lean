import Aesd.Infra.Cyclic
import Aesd.Driver.CircularBuffer

/-!
# The ring is a bounded FIFO

`full` is never cleared and `out_offs` is only ever set to `in_offs`, so the whole state of
the ring is a function of the non-empty entries added so far. `RingOf` states that function;
everything else about the ring follows from it.
-/

namespace Aesd.Driver

open Infra

/-! ## Live entries -/

/-- How many entries are live: all of them when full, `(in_offs - out_offs) mod 10` otherwise. -/
def liveCount (buffer : AesdCircularBuffer) : Nat :=
  if buffer.full then 10 else (buffer.inOffs + 10 - buffer.outOffs) % 10

/-- The slots of the live entries, oldest first. -/
def liveSlots (buffer : AesdCircularBuffer) : List Nat :=
  (List.range (liveCount buffer)).map fun i => (buffer.outOffs + i) % 10

/-- The live entries, oldest first. -/
def live (buffer : AesdCircularBuffer) : List AesdBufferEntry :=
  (liveSlots buffer).map buffer.slot

/-! ## The ring after a history -/

/-- `buffer` is what adding the non-empty entries `h` to an empty ring leaves. -/
structure RingOf (buffer : AesdCircularBuffer) (h : List AesdBufferEntry) : Prop where
  inOffs_eq : buffer.inOffs = h.length % 10
  outOffs_eq : buffer.outOffs = if 10 ≤ h.length then h.length % 10 else 0
  full_eq : buffer.full = decide (10 ≤ h.length)
  slots : Cyclic 10 .zero buffer.slot h
  nonempty : ∀ e ∈ h, e.size ≠ 0

namespace RingOf

variable {buffer : AesdCircularBuffer} {h : List AesdBufferEntry}

theorem init : RingOf aesdCircularBufferInit [] where
  inOffs_eq := rfl
  outOffs_eq := rfl
  full_eq := rfl
  slots := Cyclic.nil fun i _ => AesdCircularBuffer.slot_init i
  nonempty := by intro e he; cases he

theorem inOffs_lt (H : RingOf buffer h) : buffer.inOffs < 10 := by
  rw [H.inOffs_eq]
  exact Nat.mod_lt _ (by omega)

theorem outOffs_lt (H : RingOf buffer h) : buffer.outOffs < 10 := by
  rw [H.outOffs_eq]
  split
  · exact Nat.mod_lt _ (by omega)
  · omega

theorem liveCount_eq (H : RingOf buffer h) : liveCount buffer = min 10 h.length := by
  unfold liveCount
  rw [H.full_eq, H.inOffs_eq, H.outOffs_eq]
  by_cases hf : 10 ≤ h.length
  · rw [if_pos (by simpa using hf)]
    omega
  · rw [if_neg (by simpa using hf), if_neg hf]
    omega

/-- **The live entries are the last ten of the history.** -/
theorem live_eq (H : RingOf buffer h) : live buffer = h.rtake 10 := by
  rw [← H.slots.window]
  unfold live liveSlots
  rw [List.map_map, H.liveCount_eq]
  refine List.map_congr_left fun i _ => ?_
  -- `out_offs` is the slot of the oldest live entry, in the full and in the filling phase
  show buffer.slot ((buffer.outOffs + i) % 10) = _
  congr 1
  rw [H.outOffs_eq]
  split <;> omega

/-- A slot that is not live was never written. -/
theorem unused (H : RingOf buffer h) {i : Nat} (hi : i < 10) (hn : i ∉ liveSlots buffer) :
    buffer.slot i = .zero := by
  refine H.slots.fresh i ?_ hi
  by_contra hlt
  refine hn (List.mem_map.mpr ?_)
  rw [H.liveCount_eq, H.outOffs_eq]
  by_cases hf : 10 ≤ h.length
  · refine ⟨(i + 10 - h.length % 10) % 10, List.mem_range.mpr (by omega), ?_⟩
    rw [if_pos hf]
    omega
  · refine ⟨i, List.mem_range.mpr (by omega), ?_⟩
    rw [if_neg hf]
    omega

/-- The slot the next entry goes to is the oldest live one if the ring is full. -/
theorem oldest (H : RingOf buffer h) (hf : buffer.full = true) :
    (live buffer).head? = some (buffer.slot buffer.inOffs) := by
  have hlen : 10 ≤ h.length := by simpa [H.full_eq] using hf
  rw [H.live_eq, H.inOffs_eq]
  exact H.slots.oldest (by omega) hlen

end RingOf

/-! ## `aesd_circular_buffer_add_entry` -/

section AddEntry

variable {buffer : AesdCircularBuffer} {h : List AesdBufferEntry} {e : AesdBufferEntry}

theorem addEntry_empty (he : e.size = 0) :
    aesdCircularBufferAddEntry buffer e = (.null, buffer) := by
  unfold aesdCircularBufferAddEntry
  rw [if_pos he]

/-- The pointer that is returned was read before the slot is overwritten. -/
theorem addEntry_fst (buffer : AesdCircularBuffer) (he : e.size ≠ 0) :
    (aesdCircularBufferAddEntry buffer e).1
      = if buffer.full then (buffer.slot buffer.inOffs).buffptr else .null := by
  unfold aesdCircularBufferAddEntry
  rw [if_neg he]
  by_cases hf : buffer.full = true
  · simp [hf]
  · simp only [hf, Bool.false_eq_true, if_false]
    split <;> rfl

theorem addEntry_slot (he : e.size ≠ 0) (i : Nat) : (aesdCircularBufferAddEntry buffer e).2.slot i
    = (buffer.setSlot buffer.inOffs e).slot i := by
  unfold aesdCircularBufferAddEntry
  rw [if_neg he]
  refine AesdCircularBuffer.slot_congr ?_ i
  dsimp only
  split
  · rfl
  · split <;> rfl

theorem addEntry_inOffs (he : e.size ≠ 0) : (aesdCircularBufferAddEntry buffer e).2.inOffs
    = nextIdx buffer.inOffs % 2 ^ 8 := by
  unfold aesdCircularBufferAddEntry
  rw [if_neg he]
  dsimp only
  split
  · rfl
  · split <;> rfl

theorem addEntry_outOffs (he : e.size ≠ 0) : (aesdCircularBufferAddEntry buffer e).2.outOffs
    = if buffer.full then nextIdx buffer.inOffs % 2 ^ 8 else buffer.outOffs := by
  unfold aesdCircularBufferAddEntry
  rw [if_neg he]
  dsimp only
  split
  · rfl
  · split <;> rfl

theorem addEntry_full (he : e.size ≠ 0) : (aesdCircularBufferAddEntry buffer e).2.full
    = (buffer.full || decide (nextIdx buffer.inOffs % 2 ^ 8 = buffer.outOffs)) := by
  unfold aesdCircularBufferAddEntry
  rw [if_neg he]
  dsimp only [AesdCircularBuffer.setSlot]
  by_cases hf : buffer.full = true
  · simp [hf]
  · simp only [hf, Bool.false_eq_true, if_false, Bool.false_or]
    split <;> simp_all

/-- The index arithmetic of one step, in terms of the number of entries added before it. -/
theorem nextIdx_mod (n : Nat) : nextIdx (n % 10) % 2 ^ 8 = (n + 1) % 10 := by
  unfold nextIdx aesdcharMaxWriteOperationsSupported
  split <;> omega

/-- **One step.** Adding a non-empty entry appends it to the history. -/
theorem RingOf.addEntry (H : RingOf buffer h) (he : e.size ≠ 0) :
    RingOf (aesdCircularBufferAddEntry buffer e).2 (h ++ [e]) where
  inOffs_eq := by
    rw [addEntry_inOffs he, H.inOffs_eq, nextIdx_mod, List.length_append]
    rfl
  outOffs_eq := by
    rw [addEntry_outOffs he, H.full_eq, H.inOffs_eq, H.outOffs_eq, nextIdx_mod, List.length_append]
    simp only [List.length_cons, List.length_nil, decide_eq_true_eq]
    split <;> split <;> omega
  full_eq := by
    rw [addEntry_full he, H.full_eq, H.inOffs_eq, H.outOffs_eq, nextIdx_mod, List.length_append]
    simp only [List.length_cons, List.length_nil]
    rw [← Bool.decide_or]
    congr 1
    refine propext ⟨fun hc => ?_, fun hc => ?_⟩
    · split at hc <;> omega
    · split <;> omega
  slots := by
    refine H.slots.push (by omega) ?_ fun i _ hne => ?_
    · rw [addEntry_slot he, ← H.inOffs_eq]
      exact AesdCircularBuffer.slot_setSlot_self buffer e H.inOffs_lt
    · rw [addEntry_slot he]
      exact AesdCircularBuffer.slot_setSlot_ne buffer e (by rw [H.inOffs_eq]; exact hne)
  nonempty := by
    intro e' he'
    rcases List.mem_append.mp he' with hm | hm
    · exact H.nonempty e' hm
    · rw [List.mem_singleton.mp hm]; exact he

/-- A full ring drops its oldest entry. -/
theorem RingOf.live_addEntry_full (H : RingOf buffer h) (he : e.size ≠ 0)
    (hf : buffer.full = true) :
    live (aesdCircularBufferAddEntry buffer e).2 = (live buffer).tail ++ [e] := by
  rw [(H.addEntry he).live_eq, H.live_eq]
  exact rtake_push_full (by omega) (by simpa [H.full_eq] using hf) e

/-- In every case the new entry becomes the newest of the ten. -/
theorem RingOf.live_addEntry (H : RingOf buffer h) (he : e.size ≠ 0) :
    live (aesdCircularBufferAddEntry buffer e).2 = (live buffer ++ [e]).rtake 10 := by
  rw [(H.addEntry he).live_eq, H.live_eq, rtake_push]

end AddEntry

/-! ## Runs -/

/-- The ring after `aesd_circular_buffer_init` and one `add_entry` for each of `es`. -/
def addEntries (es : List AesdBufferEntry) : AesdCircularBuffer :=
  es.foldl (fun buffer e => (aesdCircularBufferAddEntry buffer e).2) aesdCircularBufferInit

/-- **The whole run.** The history is the list of the non-empty entries. -/
theorem ringOf_addEntries (es : List AesdBufferEntry) :
    RingOf (addEntries es) (es.filter fun e => e.size ≠ 0) := by
  induction es using List.reverseRecOn with
  | nil => exact RingOf.init
  | append_singleton es e ih =>
    have hrun : addEntries (es ++ [e]) = (aesdCircularBufferAddEntry (addEntries es) e).2 := by
      simp [addEntries]
    rw [hrun, List.filter_append]
    by_cases he : e.size = 0
    · rw [addEntry_empty he]
      simpa [he] using ih
    · simpa [he] using ih.addEntry he

/--
**The ring is a bounded FIFO of the ten latest non-empty entries.**

After any sequence `es` of calls both indices are in range, `full` says that ten entries have
been added, the live entries are the last ten of them and every other slot is still zero. The
next call, with any entry `e`, returns the `buffptr` of exactly the entry it evicts.
-/
theorem addEntries_bounded_fifo (es : List AesdBufferEntry) :
    let buffer := addEntries es
    let kept := es.filter fun e => e.size ≠ 0
    (buffer.inOffs < 10 ∧ buffer.outOffs < 10) ∧
    (buffer.full = true ↔ 10 ≤ kept.length) ∧
    live buffer = kept.rtake (min kept.length 10) ∧
    (∀ i < 10, i ∉ liveSlots buffer → buffer.slot i = .zero) ∧
    ∀ e : AesdBufferEntry,
      (buffer.full = true → e.size ≠ 0 → ∃ oldest rest, live buffer = oldest :: rest ∧
        (aesdCircularBufferAddEntry buffer e).1 = oldest.buffptr ∧
        live (aesdCircularBufferAddEntry buffer e).2 = rest ++ [e]) ∧
      (buffer.full = false → e.size ≠ 0 → (aesdCircularBufferAddEntry buffer e).1 = .null ∧
        live (aesdCircularBufferAddEntry buffer e).2 = live buffer ++ [e]) ∧
      (e.size = 0 → aesdCircularBufferAddEntry buffer e = (.null, buffer)) := by
  intro buffer kept
  have H : RingOf buffer kept := ringOf_addEntries es
  refine ⟨⟨H.inOffs_lt, H.outOffs_lt⟩, by simp [H.full_eq], ?_, fun i hi => H.unused hi,
    fun e => ⟨fun hf he => ?_, fun hf he => ?_, fun he => addEntry_empty he⟩⟩
  · rw [H.live_eq]
    unfold List.rtake
    congr 1
    omega
  · obtain ⟨rest, hrest⟩ := List.head?_eq_some_iff.mp (H.oldest hf)
    refine ⟨buffer.slot buffer.inOffs, rest, hrest, ?_, ?_⟩
    · rw [addEntry_fst buffer he, if_pos hf]
    · rw [H.live_addEntry_full he hf, hrest, List.tail_cons]
  · have hlen : kept.length < 10 := by simpa [H.full_eq] using hf
    refine ⟨by rw [addEntry_fst buffer he, hf]; rfl, ?_⟩
    rw [H.live_addEntry he]
    refine rtake_of_length_le ?_
    rw [H.live_eq, List.length_append, length_rtake]
    simp only [List.length_cons, List.length_nil]
    omega

end Aesd.Driver

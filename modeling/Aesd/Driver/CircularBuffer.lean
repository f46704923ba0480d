import Mathlib.Algebra.Order.Ring.Nat
import Aesd.Infra.Slab

/-!
# `aesd-circular-buffer.c`

The ring of the last ten entries, as the driver's own code computes it. `size_t` is 64 bits
wide and wraps; the two indices are `uint8_t`. A pointer to an entry of the ring is modelled
by the index of its slot.
-/

namespace Aesd.Driver

open Infra

/-! ## Machine integers -/

/-- `size_t`, and the bit pattern of `loff_t`, count modulo `2 ^ 64`. -/
abbrev sizeMod : Nat := 2 ^ 64

/-- The value of a `size_t` after conversion to `ssize_t`. -/
def ssizeOf (n : Nat) : Int := if n < 2 ^ 63 then (n : Int) else (n : Int) - 2 ^ 64

theorem ssizeOf_of_lt {n : Nat} (h : n < 2 ^ 63) : ssizeOf n = n := by
  unfold ssizeOf
  rw [if_pos h]

/-! ## The data -/

/-- `AESDCHAR_MAX_WRITE_OPERATIONS_SUPPORTED` -/
abbrev aesdcharMaxWriteOperationsSupported : Nat := 10

/-- `struct aesd_buffer_entry` -/
structure AesdBufferEntry where
  buffptr : Ptr
  size : Nat
  deriving DecidableEq, Repr

/-- What `memset(…, 0, …)` leaves in an entry. -/
def AesdBufferEntry.zero : AesdBufferEntry := { buffptr := .null, size := 0 }

/-- `struct aesd_circular_buffer` -/
structure AesdCircularBuffer where
  entry : Vector AesdBufferEntry aesdcharMaxWriteOperationsSupported
  inOffs : Nat
  outOffs : Nat
  full : Bool
  deriving DecidableEq, Repr

namespace AesdCircularBuffer

/-- `buffer->entry[i]` -/
def slot (buffer : AesdCircularBuffer) (i : Nat) : AesdBufferEntry :=
  (buffer.entry[i]?).getD .zero

/-- `memcpy(&buffer->entry[i], e, sizeof(*e))` -/
def setSlot (buffer : AesdCircularBuffer) (i : Nat) (e : AesdBufferEntry) : AesdCircularBuffer :=
  { buffer with entry := buffer.entry.setIfInBounds i e }

end AesdCircularBuffer

/-! ## Functions -/

def nextIdx (index : Nat) : Nat :=
  if index + 1 ≥ aesdcharMaxWriteOperationsSupported then 0 else index + 1

def isEmpty (buffer : AesdCircularBuffer) : Bool :=
  !buffer.full && buffer.inOffs == buffer.outOffs

/-- The slot `offset` places after `out_offs`. A too large offset only lacks its warning. -/
def peek (buffer : AesdCircularBuffer) (offset : Nat) : Option Nat :=
  if isEmpty buffer then none
  else some ((buffer.outOffs + offset) % aesdcharMaxWriteOperationsSupported)

/--
The loop of `aesd_circular_buffer_find_entry_offset_for_fpos`, `todo` rounds before its end.
`currentCharOffset` and `size - 1` are `size_t`, so the latter wraps on an unused slot.
-/
def findEntryLoop (buffer : AesdCircularBuffer) (charOffset : Nat) :
    (todo peekIdx currentCharOffset : Nat) → Option (Nat × Nat)
  | 0, _, _ => none
  | todo + 1, peekIdx, currentCharOffset =>
    match peek buffer peekIdx with
    | none => none
    | some idx =>
      let size := (buffer.slot idx).size
      let currentMaxOffset := (currentCharOffset + (size + sizeMod - 1) % sizeMod) % sizeMod
      if currentMaxOffset ≥ charOffset then
        some (idx, (charOffset + sizeMod - currentCharOffset) % sizeMod)
      else
        findEntryLoop buffer charOffset todo (peekIdx + 1) ((currentCharOffset + size) % sizeMod)

/-- Returns the slot and the byte stored to `*entry_offset_byte_rtn`; `none` is `NULL`, with
nothing stored. -/
def aesdCircularBufferFindEntryOffsetForFpos (buffer : AesdCircularBuffer) (charOffset : Nat) :
    Option (Nat × Nat) :=
  findEntryLoop buffer charOffset aesdcharMaxWriteOperationsSupported 0 0

/-- Returns the `buffptr` that was replaced (`NULL` if none was) and the new ring. -/
def aesdCircularBufferAddEntry (buffer : AesdCircularBuffer) (addEntry : AesdBufferEntry) :
    Ptr × AesdCircularBuffer :=
  -- Don't add an empty buffer entry
  if addEntry.size = 0 then (.null, buffer)
  else
    let replacedBuffptr := if buffer.full then (buffer.slot buffer.inOffs).buffptr else .null
    let stored := buffer.setSlot buffer.inOffs addEntry
    let inOffs := nextIdx buffer.inOffs % 2 ^ 8
    let moved := { stored with inOffs := inOffs }
    if buffer.full then (replacedBuffptr, { moved with outOffs := inOffs })
    else if inOffs = buffer.outOffs then (replacedBuffptr, { moved with full := true })
    else (replacedBuffptr, moved)

/-- `memset(buffer, 0, sizeof(struct aesd_circular_buffer))` -/
def aesdCircularBufferInit : AesdCircularBuffer where
  entry := Vector.replicate aesdcharMaxWriteOperationsSupported .zero
  inOffs := 0
  outOffs := 0
  full := false

/-! ## Slots -/

namespace AesdCircularBuffer

variable (buffer : AesdCircularBuffer) (e : AesdBufferEntry)

theorem slot_setSlot_self {i : Nat} (hi : i < 10) : (buffer.setSlot i e).slot i = e := by
  simp [slot, setSlot, hi]

theorem slot_setSlot_ne {i j : Nat} (h : j ≠ i) : (buffer.setSlot i e).slot j = buffer.slot j := by
  simp [slot, setSlot, Ne.symm h]

@[simp] theorem slot_init (i : Nat) : aesdCircularBufferInit.slot i = .zero := by
  unfold slot aesdCircularBufferInit
  rw [Vector.getElem?_replicate]
  split <;> rfl

/-- Slots do not depend on the index fields. -/
theorem slot_congr {b b' : AesdCircularBuffer} (h : b.entry = b'.entry) (i : Nat) :
    b.slot i = b'.slot i := by
  unfold slot
  rw [h]

end AesdCircularBuffer

end Aesd.Driver

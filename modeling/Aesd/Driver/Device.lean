import Aesd.Driver.Ring

/-!
# `aesd-char-driver/main.c`

The file operations of the driver. `device_mutex` is held from the first to the last access
of each of them, so every call is one step on the state below. A call that would touch memory
it does not own has no result (`none`).

What the kernel decides during a call is an argument of it: which sizes the allocator serves
at that moment, what the memory it hands out happens to hold, and how many bytes a user copy leaves
uncopied.
-/

namespace Aesd.Driver

open Infra

/-! ## State -/

/-- `struct aesd_dev`, without its lock and its `cdev`. -/
structure AesdDev where
  circularBuffer : AesdCircularBuffer
  bufferEntryStaging : AesdBufferEntry
  deriving DecidableEq, Repr

/-- The device, the memory its pointers lead to, and `f_pos` of every open file. -/
structure Kernel where
  dev : AesdDev
  slab : Slab UInt8
  fPos : Nat → Nat

namespace Kernel

/-- `buffer_entry_staging = entry`, with the heap as it is then. -/
def withStaging (k : Kernel) (entry : AesdBufferEntry) (slab : Slab UInt8) : Kernel :=
  { k with dev := { k.dev with bufferEntryStaging := entry }, slab := slab }

/-- A new ring and a cleared staging entry, with the heap as it is then. -/
def withRing (k : Kernel) (circularBuffer : AesdCircularBuffer) (slab : Slab UInt8) : Kernel :=
  { k with
    dev := { circularBuffer := circularBuffer, bufferEntryStaging := .zero }
    slab := slab }

/-- `*f_pos += n` -/
def advance (k : Kernel) (filp n : Nat) : Kernel :=
  { k with fPos := Function.update k.fPos filp ((k.fPos filp + n) % sizeMod) }

section Fields

variable (k : Kernel) (entry : AesdBufferEntry) (ring : AesdCircularBuffer) (slab : Slab UInt8)
  (filp n : Nat)

@[simp] theorem withStaging_ring :
    (k.withStaging entry slab).dev.circularBuffer = k.dev.circularBuffer := rfl
@[simp] theorem withStaging_staging :
    (k.withStaging entry slab).dev.bufferEntryStaging = entry := rfl
@[simp] theorem withStaging_slab : (k.withStaging entry slab).slab = slab := rfl
@[simp] theorem withStaging_fPos : (k.withStaging entry slab).fPos = k.fPos := rfl
@[simp] theorem withRing_ring : (k.withRing ring slab).dev.circularBuffer = ring := rfl
@[simp] theorem withRing_staging : (k.withRing ring slab).dev.bufferEntryStaging = .zero := rfl
@[simp] theorem withRing_slab : (k.withRing ring slab).slab = slab := rfl
@[simp] theorem withRing_fPos : (k.withRing ring slab).fPos = k.fPos := rfl
@[simp] theorem advance_dev : (k.advance filp n).dev = k.dev := rfl
@[simp] theorem advance_slab : (k.advance filp n).slab = k.slab := rfl
@[simp] theorem advance_fPos : (k.advance filp n).fPos
    = Function.update k.fPos filp ((k.fPos filp + n) % sizeMod) := rfl

end Fields

end Kernel

/-- `'\n'` -/
def newline : UInt8 := 10

/-- `ENOMEM` -/
def enomem : Int := 12

/-! ## User copies -/

/--
`copy_from_user` with `notCopied` bytes it could not read (at most all of them). The kernel
fills what is missing with zeros.
-/
def userBytes (buf : List UInt8) (notCopied : Nat) : List UInt8 :=
  buf.take (buf.length - notCopied) ++ List.replicate (min notCopied buf.length) 0

@[simp] theorem length_userBytes (buf : List UInt8) (notCopied : Nat) :
    (userBytes buf notCopied).length = buf.length := by
  simp only [userBytes, List.length_append, List.length_take, List.length_replicate]
  omega

@[simp] theorem userBytes_zero (buf : List UInt8) : userBytes buf 0 = buf := by simp [userBytes]

/-! ## `aesd_write` -/

/-- What the kernel answers during one `aesd_write`. -/
structure WriteEnv where
  /-- the sizes `kmalloc` and `krealloc` can serve -/
  serves : Nat → Bool
  /-- the bytes `copy_from_user` leaves uncopied, capped at `count` -/
  notCopied : Nat
  /-- what the memory that is handed out holds, by its offset -/
  fresh : Nat → UInt8 := fun _ => 0

/-- An environment in which nothing fails. -/
def WriteEnv.good (fresh : Nat → UInt8 := fun _ => 0) : WriteEnv where
  serves := fun _ => true
  notCopied := 0
  fresh := fresh

/-- Where `aesd_write` stands once it has looked for the end of the line. -/
inductive Stage where
  /-- it has returned an error -/
  | failed (ret : Int) (k : Kernel)
  /-- `bytes_copied` bytes are staged; `endOfLine` says that `memchr` found a newline -/
  | staged (bytesCopied : Nat) (endOfLine : Bool) (k : Kernel)

/-- The allocation of the staging buffer: a fresh one if nothing is staged, else a larger one. -/
def stagingAlloc (env : WriteEnv) (count : Nat) (k : Kernel) : Option (Ptr × Slab UInt8) :=
  let staging := k.dev.bufferEntryStaging
  if staging.size = 0 then some (Slab.kmalloc env.serves env.fresh count k.slab)
  else Slab.krealloc env.serves env.fresh ((staging.size + count) % sizeMod) staging.buffptr k.slab

/-- `aesd_write` up to the call of `memchr`. -/
def aesdWriteStage (filp : Nat) (buf : List UInt8) (env : WriteEnv) (k : Kernel) :
    Option Stage := do
  let count := buf.length
  let staging := k.dev.bufferEntryStaging
  let (buffptr, slab) ← stagingAlloc env count k
  if buffptr = .null then
    -- the result went into the live entry before the test, so `kfree` here gets `NULL`
    let slab ← slab.kfree buffptr
    return .failed (-enomem) (k.withStaging { staging with buffptr := buffptr } slab)
  let stagingOffset := if staging.size = 0 then 0 else staging.size
  let size := if staging.size = 0 then count else (staging.size + count) % sizeMod
  let slab ← slab.store buffptr stagingOffset (userBytes buf env.notCopied)
  let notCopied := min env.notCopied count
  let retval := ssizeOf notCopied
  if retval < 0 then
    let slab ← slab.kfree buffptr
    return .failed retval (k.withStaging { buffptr := buffptr, size := size } slab)
  let bytesCopied := count - notCopied
  let line ← slab.load buffptr stagingOffset count
  return .staged bytesCopied (line.contains newline)
    ((k.withStaging { buffptr := buffptr, size := size } slab).advance filp bytesCopied)

/-- The rest of `aesd_write` once the line is complete: move the staged entry into the ring. -/
def aesdWriteCommit (k : Kernel) : Option Kernel := do
  let (replacedBuffptr, circularBuffer) :=
    aesdCircularBufferAddEntry k.dev.circularBuffer k.dev.bufferEntryStaging
  let slab ← if replacedBuffptr ≠ .null then k.slab.kfree replacedBuffptr else some k.slab
  return k.withRing circularBuffer slab

/-- The value returned by `aesd_write` and the state it leaves. -/
def aesdWrite (filp : Nat) (buf : List UInt8) (env : WriteEnv) (k : Kernel) :
    Option (Int × Kernel) := do
  match ← aesdWriteStage filp buf env k with
  | .failed ret k' => return (ret, k')
  | .staged bytesCopied false k' => return (ssizeOf bytesCopied, k')
  | .staged bytesCopied true k' => return (ssizeOf bytesCopied, ← aesdWriteCommit k')

/-! ## `aesd_read` -/

/--
The bytes the user buffer receives, the value returned and the state. `notCopied` is what
`copy_to_user` leaves uncopied, capped at the number of bytes it was asked for.

The byte offset that the lookup stores to `byte_rtn` is not used.
-/
def aesdRead (filp : Nat) (count notCopied : Nat) (k : Kernel) :
    Option (List UInt8 × Int × Kernel) :=
  match aesdCircularBufferFindEntryOffsetForFpos k.dev.circularBuffer (k.fPos filp) with
  | none => some ([], 0, k)
  | some (idx, _) => do
    let entry := k.dev.circularBuffer.slot idx
    let bytesToCopy := min count entry.size
    let bytes ← k.slab.load entry.buffptr 0 bytesToCopy
    let bytesNotWritten := min notCopied bytesToCopy
    let bytesWritten := bytesToCopy - bytesNotWritten
    return (bytes.take bytesWritten, ssizeOf bytesWritten, k.advance filp bytesWritten)

/-! ## Open, init and cleanup -/

/-- `aesd_open`: all files share the one device; the VFS starts each at position 0. -/
def aesdOpen (filp : Nat) (k : Kernel) : Kernel :=
  { k with fPos := Function.update k.fPos filp 0 }

/-- The state `aesd_init_module` leaves when it succeeds. -/
def aesdInitModule : Kernel where
  dev := { circularBuffer := aesdCircularBufferInit, bufferEntryStaging := .zero }
  slab := Slab.empty
  fPos := fun _ => 0

/-- One round of the cleanup loop, and its last statement on the staging entry. -/
def freeEntry (slab : Slab UInt8) (entry : AesdBufferEntry) : Option (Slab UInt8) :=
  if entry.buffptr ≠ .null then slab.kfree entry.buffptr else some slab

/-- `aesd_cleanup_module`: `AESD_CIRCULAR_BUFFER_FOREACH` visits all ten slots, used or not. -/
def aesdCleanupModule (k : Kernel) : Option (Slab UInt8) := do
  let slab ← (List.range aesdcharMaxWriteOperationsSupported).foldlM
    (fun slab index => freeEntry slab (k.dev.circularBuffer.slot index)) k.slab
  freeEntry slab k.dev.bufferEntryStaging

/-! ## Runs -/

/-- One system call on an open file of the device. -/
inductive Call where
  | write (filp : Nat) (buf : List UInt8) (env : WriteEnv)
  | read (filp : Nat) (count notCopied : Nat)

/-- The `count` argument of the call. -/
def Call.count : Call → Nat
  | .write _ buf _ => buf.length
  | .read _ count _ => count

/-- The value the call returns and the state it leaves. -/
def Call.exec (k : Kernel) : Call → Option (Int × Kernel)
  | .write filp buf env => aesdWrite filp buf env k
  | .read filp count notCopied => (aesdRead filp count notCopied k).map fun r => (r.2.1, r.2.2)

/-- The state after the calls, in the order the device mutex admits them. -/
def runCalls (k : Kernel) : List Call → Option Kernel
  | [] => some k
  | c :: cs => (c.exec k).bind fun r => runCalls r.2 cs

end Aesd.Driver

import Aesd.Driver.Device
import Aesd.Infra.Atomic

/-!
# The file operations, one access at a time

`aesd_read` and `aesd_write` as programs over single accesses to what the calls share: the fields of
`struct aesd_dev`, the heap and the file positions. Every path through them takes `device_mutex`
first and gives it back last, and what is between is a function of `Device.lean`.

`f_pos` is the location that the VFS passes to the operation. That the VFS itself loads
`file->f_pos` into it before the call, and stores it back after, is not part of this.
-/

namespace Aesd.Driver

open Infra Prog

/-! ## Accesses -/

/-- One access. `Staging` is `buffer_entry_staging`, and an entry of the ring is named by its
index. -/
inductive Access where
  | getFull
  | setFull (full : Bool)
  | getInOffs
  | setInOffs (inOffs : Nat)
  | getOutOffs
  | setOutOffs (outOffs : Nat)
  | getEntryBuffptr (i : Nat)
  | getEntrySize (i : Nat)
  | setEntry (i : Nat) (entry : AesdBufferEntry)
  | getStagingBuffptr
  | setStagingBuffptr (buffptr : Ptr)
  | getStagingSize
  | setStagingSize (size : Nat)
  | getFPos (filp : Nat)
  | setFPos (filp fPos : Nat)
  | kmalloc (n : Nat)
  | krealloc (p : Ptr) (n : Nat)
  | kfree (p : Ptr)
  | copyFromUser (p : Ptr) (offset : Nat) (buf : List UInt8)
  | copyToUser (p : Ptr) (n : Nat)
  | memchr (p : Ptr) (offset : Nat) (c : UInt8) (n : Nat)

/-- What it gives. A user copy gives the number of bytes that were not copied, and
`copy_to_user` the bytes that were; of the pointer that `memchr` returns only the test for `NULL`
is left. -/
@[reducible] def Access.Ret : Access → Type
  | .getFull | .memchr _ _ _ _ => Bool
  | .getInOffs | .getOutOffs | .getEntrySize _ | .getStagingSize | .getFPos _ => Nat
  | .getEntryBuffptr _ | .getStagingBuffptr | .kmalloc _ | .krealloc _ _ => Ptr
  | .copyFromUser _ _ _ => Nat
  | .copyToUser _ _ => List UInt8 × Nat
  | _ => Unit

/-- A program that leaves the locking to its caller. -/
abbrev DevProg := Prog Access.Ret

abbrev dev (e : Access) : DevProg e.Ret := perform e

/-- A program that does the locking. -/
abbrev FileProg := Prog (Locked.Ret Access.Ret)

abbrev sys (e : Access) : FileProg e.Ret := perform (Locked.inner e)

abbrev mutexLock : FileProg Unit := perform Locked.lock

abbrev mutexUnlock : FileProg Unit := perform Locked.unlock

namespace Kernel

def mapRing (k : Kernel) (f : AesdCircularBuffer → AesdCircularBuffer) : Kernel :=
  { k with dev := { k.dev with circularBuffer := f k.dev.circularBuffer } }

def mapStaging (k : Kernel) (f : AesdBufferEntry → AesdBufferEntry) : Kernel :=
  { k with dev := { k.dev with bufferEntryStaging := f k.dev.bufferEntryStaging } }

end Kernel

/-- What an access does, while the kernel is as `env` says. One to memory that is not owned has no
result. The two offsets are `uint8_t`. -/
def access (env : WriteEnv) : (e : Access) → Kernel → Option (e.Ret × Kernel)
  | .getFull, k => some (k.dev.circularBuffer.full, k)
  | .setFull full, k => some ((), k.mapRing fun ring => { ring with full := full })
  | .getInOffs, k => some (k.dev.circularBuffer.inOffs, k)
  | .setInOffs inOffs, k =>
    some ((), k.mapRing fun ring => { ring with inOffs := inOffs % 2 ^ 8 })
  | .getOutOffs, k => some (k.dev.circularBuffer.outOffs, k)
  | .setOutOffs outOffs, k =>
    some ((), k.mapRing fun ring => { ring with outOffs := outOffs % 2 ^ 8 })
  | .getEntryBuffptr i, k => some ((k.dev.circularBuffer.slot i).buffptr, k)
  | .getEntrySize i, k => some ((k.dev.circularBuffer.slot i).size, k)
  | .setEntry i entry, k => some ((), k.mapRing fun ring => ring.setSlot i entry)
  | .getStagingBuffptr, k => some (k.dev.bufferEntryStaging.buffptr, k)
  | .setStagingBuffptr buffptr, k =>
    some ((), k.mapStaging fun staging => { staging with buffptr := buffptr })
  | .getStagingSize, k => some (k.dev.bufferEntryStaging.size, k)
  | .setStagingSize size, k => some ((), k.mapStaging fun staging => { staging with size := size })
  | .getFPos filp, k => some (k.fPos filp, k)
  | .setFPos filp fPos, k => some ((), { k with fPos := Function.update k.fPos filp fPos })
  | .kmalloc n, k =>
    let (p, slab) := Slab.kmalloc env.serves env.fresh n k.slab
    some (p, { k with slab := slab })
  | .krealloc p n, k => (Slab.krealloc env.serves env.fresh n p k.slab).map fun x =>
      (x.1, { k with slab := x.2 })
  | .kfree p, k => (k.slab.kfree p).map fun slab => ((), { k with slab := slab })
  | .copyFromUser p offset buf, k =>
    (k.slab.store p offset (userBytes buf env.notCopied)).map fun slab =>
      (min env.notCopied buf.length, { k with slab := slab })
  | .copyToUser p n, k => (k.slab.load p 0 n).map fun bytes =>
      ((bytes.take (n - min env.notCopied n), min env.notCopied n), k)
  | .memchr p offset c n, k => (k.slab.load p offset n).map fun bytes =>
      (bytes.contains c, k)

/-! ## `aesd-circular-buffer.c` -/

namespace Accesses

/-- `&&` makes the second test only if the first holds. -/
def isEmpty : DevProg Bool := do
  if ← dev .getFull then return false
  let inOffs ← dev .getInOffs
  let outOffs ← dev .getOutOffs
  return inOffs == outOffs

def peek (offset : Nat) : DevProg (Option Nat) := do
  if ← isEmpty then return none
  let outOffs ← dev .getOutOffs
  return some ((outOffs + offset) % aesdcharMaxWriteOperationsSupported)

/-- The loop, `todo` rounds before its end. -/
def findEntryLoop (charOffset : Nat) :
    (todo peekIdx currentCharOffset : Nat) → DevProg (Option (Nat × Nat))
  | 0, _, _ => return none
  | todo + 1, peekIdx, currentCharOffset => do
    match ← peek peekIdx with
    | none => return none
    | some currentEntry =>
      let size ← dev (.getEntrySize currentEntry)
      let currentMaxOffset := (currentCharOffset + (size + sizeMod - 1) % sizeMod) % sizeMod
      if currentMaxOffset ≥ charOffset then
        return some (currentEntry, (charOffset + sizeMod - currentCharOffset) % sizeMod)
      let size ← dev (.getEntrySize currentEntry)
      findEntryLoop charOffset todo (peekIdx + 1) ((currentCharOffset + size) % sizeMod)

def aesdCircularBufferFindEntryOffsetForFpos (charOffset : Nat) :
    DevProg (Option (Nat × Nat)) :=
  findEntryLoop charOffset aesdcharMaxWriteOperationsSupported 0 0

/-- The end of `add_entry`, once the entry is stored and `in_offs` is advanced. -/
def moveOutOffs : DevProg Unit := do
  if ← dev .getFull then
    let inOffs ← dev .getInOffs
    dev (.setOutOffs inOffs)
  else
    let inOffs ← dev .getInOffs
    let outOffs ← dev .getOutOffs
    if inOffs = outOffs then
      dev (.setFull true)

/-- The pointer that `add_entry` is about to overwrite, if the ring is full. -/
def replacedEntry : DevProg Ptr := do
  if ← dev .getFull then
    let inOffs ← dev .getInOffs
    dev (.getEntryBuffptr inOffs)
  else
    return .null

/-- `add_entry` for the staging entry, which is the one it is called with. -/
def aesdCircularBufferAddEntry : DevProg Ptr := do
  if (← dev .getStagingSize) = 0 then
    return .null
  let replacedBuffptr ← replacedEntry
  let inOffs ← dev .getInOffs
  let buffptr ← dev .getStagingBuffptr
  let size ← dev .getStagingSize
  dev (.setEntry inOffs { buffptr := buffptr, size := size })
  let inOffs ← dev .getInOffs
  dev (.setInOffs (nextIdx inOffs))
  moveOutOffs
  return replacedBuffptr

/-! ## `main.c` -/

/-- `*f_pos += n` -/
def advance (filp n : Nat) : DevProg Unit := do
  let fPos ← dev (.getFPos filp)
  dev (.setFPos filp ((fPos + n) % sizeMod))

/-- The bytes the user buffer receives, and the value returned. -/
def aesdRead (filp count : Nat) : FileProg (List UInt8 × Int) := do
  mutexLock
  let fPos ← sys (.getFPos filp)
  match ← (aesdCircularBufferFindEntryOffsetForFpos fPos).inner with
  | none =>
    mutexUnlock
    return ([], 0)
  | some (bufferEntry, _) =>
    let size ← sys (.getEntrySize bufferEntry)
    let bytesToCopy := min count size
    let buffptr ← sys (.getEntryBuffptr bufferEntry)
    let (bytes, bytesNotWritten) ← sys (.copyToUser buffptr bytesToCopy)
    let bytesWritten := bytesToCopy - bytesNotWritten
    (advance filp bytesWritten).inner
    mutexUnlock
    return (bytes, ssizeOf bytesWritten)

/-- The staging buffer grows by `count` bytes. Gives `staging_offset`, or `none` for `-ENOMEM`,
which is returned at once. -/
def stagingAlloc (count : Nat) : FileProg (Option Nat) := do
  if (← sys .getStagingSize) = 0 then
    let buffptr ← sys (.kmalloc count)
    sys (.setStagingBuffptr buffptr)
    let buffptr ← sys .getStagingBuffptr
    if buffptr = .null then
      mutexUnlock
      return none
    sys (.setStagingSize count)
    return some 0
  else
    let buffptr ← sys .getStagingBuffptr
    let size ← sys .getStagingSize
    let buffptr ← sys (.krealloc buffptr ((size + count) % sizeMod))
    sys (.setStagingBuffptr buffptr)
    let buffptr ← sys .getStagingBuffptr
    if buffptr = .null then
      let buffptr ← sys .getStagingBuffptr
      sys (.kfree buffptr)
      mutexUnlock
      return none
    let stagingOffset ← sys .getStagingSize
    let size ← sys .getStagingSize
    sys (.setStagingSize ((size + count) % sizeMod))
    return some stagingOffset

/-- The line is complete: it goes into the ring. -/
def aesdWriteCommit : DevProg Unit := do
  let replacedBuffptr ← aesdCircularBufferAddEntry
  if replacedBuffptr ≠ .null then
    dev (.kfree replacedBuffptr)
  dev (.setStagingBuffptr .null)
  dev (.setStagingSize 0)

/-- From `copy_from_user` on. -/
def aesdWriteCopy (filp : Nat) (buf : List UInt8) (stagingOffset : Nat) : FileProg Int := do
  let count := buf.length
  let writePtr ← sys .getStagingBuffptr
  let notCopied ← sys (.copyFromUser writePtr stagingOffset buf)
  if ssizeOf notCopied < 0 then
    let buffptr ← sys .getStagingBuffptr
    sys (.kfree buffptr)
    mutexUnlock
    return ssizeOf notCopied
  let bytesCopied := count - notCopied
  (advance filp bytesCopied).inner
  if !(← sys (.memchr writePtr stagingOffset newline count)) then
    mutexUnlock
    return ssizeOf bytesCopied
  aesdWriteCommit.inner
  mutexUnlock
  return ssizeOf bytesCopied

/-- The value returned. -/
def aesdWrite (filp : Nat) (buf : List UInt8) : FileProg Int := do
  mutexLock
  match ← stagingAlloc buf.length with
  | none => return -enomem
  | some stagingOffset => aesdWriteCopy filp buf stagingOffset

/-! ## Run alone -/

section Alone

variable (env : WriteEnv) (k : Kernel)

theorem eval_isEmpty : isEmpty.eval (access env) k
    = some (Driver.isEmpty k.dev.circularBuffer, k) := by
  unfold isEmpty Driver.isEmpty
  simp only [bind_eq, perform_bind, eval_call, access, Option.bind_some]
  cases k.dev.circularBuffer.full <;> rfl

theorem eval_peek (offset : Nat) : (peek offset).eval (access env) k
    = some (Driver.peek k.dev.circularBuffer offset, k) := by
  unfold peek Driver.peek
  rw [bind_eq, eval_bind, eval_isEmpty, Option.bind_some]
  split <;> rfl

theorem eval_findEntryLoop (charOffset : Nat) : ∀ todo peekIdx currentCharOffset : Nat,
    (findEntryLoop charOffset todo peekIdx currentCharOffset).eval (access env) k
      = some (Driver.findEntryLoop k.dev.circularBuffer charOffset todo peekIdx currentCharOffset,
          k)
  | 0, _, _ => rfl
  | todo + 1, peekIdx, currentCharOffset => by
    unfold findEntryLoop Driver.findEntryLoop
    rw [bind_eq, eval_bind, eval_peek, Option.bind_some]
    cases Driver.peek k.dev.circularBuffer peekIdx with
    | none => rfl
    | some currentEntry =>
      simp only [bind_eq, perform_bind, eval_call, access, Option.bind_some]
      split
      · rfl
      · exact eval_findEntryLoop charOffset todo _ _

theorem eval_findEntry (charOffset : Nat) :
    (aesdCircularBufferFindEntryOffsetForFpos charOffset).eval (access env) k
      = some (Driver.aesdCircularBufferFindEntryOffsetForFpos k.dev.circularBuffer charOffset,
          k) :=
  eval_findEntryLoop env k charOffset _ 0 0

theorem eval_replacedEntry : replacedEntry.eval (access env) k
    = some (if k.dev.circularBuffer.full = true
        then (k.dev.circularBuffer.slot k.dev.circularBuffer.inOffs).buffptr else .null, k) := by
  unfold replacedEntry
  simp only [bind_eq, perform_bind, eval_call, access, Option.bind_some]
  split <;> rfl

theorem eval_moveOutOffs : moveOutOffs.eval (access env) k
    = some ((), k.mapRing fun ring =>
        if ring.full = true then { ring with outOffs := ring.inOffs % 2 ^ 8 }
        else if ring.inOffs = ring.outOffs then { ring with full := true } else ring) := by
  unfold moveOutOffs Kernel.mapRing
  simp only [bind_eq, perform_bind, eval_call, access, Option.bind_some]
  split
  · rfl
  · simp only [eval_call, access, Option.bind_some]
    split <;> rfl

theorem eval_addEntry : aesdCircularBufferAddEntry.eval (access env) k
    = some ((Driver.aesdCircularBufferAddEntry k.dev.circularBuffer k.dev.bufferEntryStaging).1,
        k.mapRing fun ring =>
          (Driver.aesdCircularBufferAddEntry ring k.dev.bufferEntryStaging).2) := by
  unfold aesdCircularBufferAddEntry Driver.aesdCircularBufferAddEntry
  simp only [bind_eq, perform_bind, eval_call, access, Option.bind_some]
  split
  · rfl
  · simp only [eval_bind, eval_replacedEntry, eval_moveOutOffs, Option.bind_some, eval_call,
      eval_ret, pure_eq, access, Kernel.mapRing, Nat.mod_mod, AesdCircularBuffer.setSlot]
    cases k.dev.circularBuffer.full with
    | true => rfl
    | false =>
      simp only [Bool.false_eq_true, if_false]
      split <;> rfl

theorem eval_advance (filp n : Nat) :
    (advance filp n).eval (access env) k = some ((), k.advance filp n) := rfl

theorem eval_aesdWriteCommit : aesdWriteCommit.eval (access env) k
    = (Driver.aesdWriteCommit k).map fun k' => ((), k') := by
  unfold aesdWriteCommit Driver.aesdWriteCommit
  simp only [bind_eq, eval_bind, eval_addEntry, Option.bind_some, Kernel.mapRing]
  generalize Driver.aesdCircularBufferAddEntry k.dev.circularBuffer k.dev.bufferEntryStaging = r
  by_cases hr : r.1 = .null
  · simp only [hr, ne_eq, not_true_eq_false, if_false]
    rfl
  · simp only [hr, ne_eq, not_false_eq_true, if_true, perform_bind, eval_call, access]
    cases k.slab.kfree r.1 <;> rfl

theorem eval_aesdRead (filp count : Nat) : (aesdRead filp count).unlocked.eval (access env) k
    = (Driver.aesdRead filp count env.notCopied k).map fun r => ((r.1, r.2.1), r.2.2) := by
  unfold aesdRead Driver.aesdRead
  simp only [bind_eq, perform_bind, unlocked, unlocked_bind, unlocked_inner, eval_call, access,
    Option.bind_some, eval_bind, eval_findEntry]
  cases Driver.aesdCircularBufferFindEntryOffsetForFpos k.dev.circularBuffer (k.fPos filp) with
  | none => rfl
  | some r =>
    simp only [unlocked, unlocked_bind, unlocked_inner, eval_call, access, Option.bind_some,
      eval_bind, eval_advance]
    cases k.slab.load (k.dev.circularBuffer.slot r.1).buffptr 0
      (min count (k.dev.circularBuffer.slot r.1).size) <;> rfl

theorem eval_stagingAlloc (count : Nat) : (stagingAlloc count).unlocked.eval (access env) k
    = (Driver.stagingAlloc env count k).map fun r =>
        if r.1 = .null then
          (none, k.withStaging { k.dev.bufferEntryStaging with buffptr := .null } r.2)
        else
          (some (if k.dev.bufferEntryStaging.size = 0 then 0 else k.dev.bufferEntryStaging.size),
            k.withStaging
              { buffptr := r.1
                size := if k.dev.bufferEntryStaging.size = 0 then count
                  else (k.dev.bufferEntryStaging.size + count) % sizeMod } r.2) := by
  unfold stagingAlloc Driver.stagingAlloc
  simp only [bind_eq, perform_bind, unlocked, eval_call, access, Option.bind_some]
  by_cases hsz : k.dev.bufferEntryStaging.size = 0
  · simp only [hsz, if_true, unlocked, eval_call, access, Option.bind_some, Option.map_some,
      Kernel.mapStaging]
    generalize Slab.kmalloc env.serves env.fresh count k.slab = r
    by_cases hr : r.1 = .null
    · simp only [hr, if_true]
      rfl
    · simp only [hr, if_false]
      rfl
  · simp only [hsz, if_false, unlocked, eval_call, access, Option.bind_some, Kernel.mapStaging]
    cases Slab.krealloc env.serves env.fresh ((k.dev.bufferEntryStaging.size + count) % sizeMod)
        k.dev.bufferEntryStaging.buffptr k.slab with
    | none => rfl
    | some r =>
      simp only [Option.map_some, Option.bind_some]
      by_cases hr : r.1 = .null
      · simp only [hr, if_true]
        rfl
      · simp only [hr, if_false]
        rfl

/-- From `copy_from_user` on, the staging entry being the one of size `size` at `buffptr`. -/
theorem eval_aesdWriteCopy (filp : Nat) (buf : List UInt8) (stagingOffset : Nat) :
    (aesdWriteCopy filp buf stagingOffset).unlocked.eval (access env) k
      = (k.slab.store k.dev.bufferEntryStaging.buffptr stagingOffset
          (userBytes buf env.notCopied)).bind fun slab =>
        if ssizeOf (min env.notCopied buf.length) < 0 then
          (slab.kfree k.dev.bufferEntryStaging.buffptr).map fun slab =>
            (ssizeOf (min env.notCopied buf.length), k.withStaging k.dev.bufferEntryStaging slab)
        else (slab.load k.dev.bufferEntryStaging.buffptr stagingOffset buf.length).bind fun line =>
          let k' := (k.withStaging k.dev.bufferEntryStaging slab).advance filp
            (buf.length - min env.notCopied buf.length)
          (if line.contains newline = true then Driver.aesdWriteCommit k' else some k').map
            fun k' => (ssizeOf (buf.length - min env.notCopied buf.length), k') := by
  unfold aesdWriteCopy
  simp only [bind_eq, perform_bind, unlocked, eval_call, access, Option.bind_some, Option.bind_map]
  refine congrArg (Option.bind _) (funext fun slab => ?_)
  rw [Function.comp_apply]
  by_cases hn : ssizeOf (min env.notCopied buf.length) < 0
  · simp only [hn, if_true, unlocked, eval_call, access, Option.bind_some]
    cases slab.kfree k.dev.bufferEntryStaging.buffptr <;> rfl
  · simp only [hn, if_false, unlocked_bind, unlocked_inner, unlocked, eval_bind, eval_advance,
      eval_call, access, Option.bind_some, Kernel.advance_slab]
    cases slab.load k.dev.bufferEntryStaging.buffptr stagingOffset buf.length with
    | none => rfl
    | some line =>
      simp only [Option.map_some, Option.bind_some]
      cases line.contains newline with
      | false => rfl
      | true =>
        simp only [Bool.not_true, Bool.false_eq_true, if_false, if_true, unlocked_bind,
          unlocked_inner, eval_bind, eval_aesdWriteCommit, Option.bind_map]
        exact (Option.map_eq_bind ..).symm

theorem eval_aesdWrite (filp : Nat) (buf : List UInt8) :
    (aesdWrite filp buf).unlocked.eval (access env) k = Driver.aesdWrite filp buf env k := by
  unfold aesdWrite Driver.aesdWrite aesdWriteStage
  simp only [bind_eq, perform_bind, unlocked, unlocked_bind, eval_bind, eval_stagingAlloc,
    Option.bind_eq_bind]
  cases Driver.stagingAlloc env buf.length k with
  | none => rfl
  | some r =>
    obtain ⟨buffptr, slab⟩ := r
    simp only [Option.map_some, Option.bind_some]
    by_cases hp : buffptr = .null
    · subst hp
      rfl
    · simp only [hp, if_false, eval_aesdWriteCopy, Kernel.withStaging_staging,
        Kernel.withStaging_slab, Option.bind_assoc]
      refine congrArg (Option.bind _) (funext fun slab => ?_)
      by_cases hn : ssizeOf (min env.notCopied buf.length) < 0
      · rw [if_pos hn, if_pos hn]
        cases slab.kfree buffptr <;> rfl
      · rw [if_neg hn, if_neg hn, Option.bind_assoc]
        refine congrArg (Option.bind _) (funext fun line => ?_)
        cases line.contains newline with
        | false => rfl
        | true => exact Option.map_eq_bind ..

end Alone

/-! ## Every path gives the mutex back -/

theorem aesdRead_locked (filp count : Nat) :
    aesdRead filp count = (aesdRead filp count).unlocked.locked := by
  unfold aesdRead
  simp only [bind_eq, perform_bind, pure_eq]
  refine Closes.locked (Closes.call fun fPos => Closes.inner_bind fun r => ?_)
  cases r with
  | none => exact closes_unlock _
  | some r =>
    refine Closes.call fun size => Closes.call fun p => Closes.call fun x => ?_
    exact Closes.inner_bind fun _ => closes_unlock _

theorem aesdWriteCopy_closes (filp : Nat) (buf : List UInt8) (stagingOffset : Nat) :
    (aesdWriteCopy filp buf stagingOffset).Closes := by
  unfold aesdWriteCopy
  simp only [bind_eq, perform_bind, pure_eq]
  refine Closes.call fun writePtr => Closes.call fun notCopied => ?_
  split
  · exact Closes.call fun buffptr => Closes.call fun _ => closes_unlock _
  · refine Closes.inner_bind fun _ => Closes.call fun endOfLine => ?_
    split
    · exact closes_unlock _
    · exact Closes.inner_bind fun _ => closes_unlock _

/-- A failed allocation has given the mutex back. -/
theorem stagingAlloc_closes (count : Nat) {f : Option Nat → FileProg Int}
    (hnone : f none = .ret (-enomem)) (hsome : ∀ n, (f (some n)).Closes) :
    ((stagingAlloc count).bind f).Closes := by
  unfold stagingAlloc
  simp only [bind_eq, perform_bind, call_bind, pure_eq]
  refine Closes.call fun size => ?_
  split
  · refine Closes.call fun buffptr => Closes.call fun _ => Closes.call fun buffptr => ?_
    dsimp only
    split
    · rw [call_bind, ret_bind, hnone]
      exact closes_unlock _
    · exact Closes.call fun _ => hsome 0
  · refine Closes.call fun buffptr => Closes.call fun size => Closes.call fun p =>
      Closes.call fun _ => Closes.call fun buffptr => ?_
    dsimp only
    split
    · refine Closes.call fun buffptr => Closes.call fun _ => ?_
      rw [call_bind, ret_bind, hnone]
      exact closes_unlock _
    · exact Closes.call fun offset => Closes.call fun size => Closes.call fun _ => hsome offset

theorem aesdWrite_locked (filp : Nat) (buf : List UInt8) :
    aesdWrite filp buf = (aesdWrite filp buf).unlocked.locked := by
  unfold aesdWrite
  simp only [bind_eq, perform_bind, pure_eq]
  refine Closes.locked (stagingAlloc_closes _ rfl fun n => ?_)
  exact aesdWriteCopy_closes filp buf n

end Accesses

end Aesd.Driver

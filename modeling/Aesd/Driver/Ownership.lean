import Aesd.Driver.Device

/-!
# Who owns which buffer

A buffer is allocated for the staging entry, moves into a ring slot when the line is complete,
and is freed when the ring evicts the entry or the module is unloaded. `Inv` is what every
system call keeps, whatever the allocator and the user copies do.

The one path that does not hand a buffer on is a failing `krealloc`: the result `NULL` is
assigned to the staging entry, which keeps its size but no longer knows its buffer.
-/

namespace Aesd.Driver

open Infra

variable {k : Kernel} {buf : List UInt8} {env : WriteEnv}

/-! ## What an entry holds -/

/-- The entry's buffer is allocated and exactly as large as the entry says. -/
def Holds (slab : Slab UInt8) (e : AesdBufferEntry) : Prop :=
  ∃ id ws, e.buffptr = .block id ∧ slab.block id = some ws ∧ ws.length = e.size

/-- The bytes of an entry, as far as it has a buffer. -/
def bytesOf (slab : Slab UInt8) (e : AesdBufferEntry) : List UInt8 :=
  match e.buffptr with
  | .block id => (slab.block id).getD []
  | _ => []

theorem bytesOf_block {slab : Slab UInt8} {e : AesdBufferEntry} {id : Nat} {ws : List UInt8}
    (hp : e.buffptr = .block id) (hb : slab.block id = some ws) : bytesOf slab e = ws := by
  unfold bytesOf
  rw [hp]
  simp [hb]

theorem bytesOf_no_block {slab : Slab UInt8} {e : AesdBufferEntry}
    (hp : ∀ id, e.buffptr ≠ .block id) : bytesOf slab e = [] := by
  unfold bytesOf
  cases h : e.buffptr with
  | null => rfl
  | zeroSize => rfl
  | block id => exact absurd h (hp id)

theorem Holds.length_bytesOf {slab : Slab UInt8} {e : AesdBufferEntry} (h : Holds slab e) :
    (bytesOf slab e).length = e.size := by
  obtain ⟨id, ws, hp, hb, hl⟩ := h
  rw [bytesOf_block hp hb, hl]

/-- Both only read the entry's own block. -/
theorem Holds.frame {slab slab' : Slab UInt8} {e : AesdBufferEntry} (h : Holds slab e)
    (hf : ∀ id, e.buffptr = .block id → slab'.block id = slab.block id) :
    Holds slab' e ∧ bytesOf slab' e = bytesOf slab e := by
  obtain ⟨id, ws, hp, hb, hl⟩ := h
  have hb' : slab'.block id = some ws := by rw [hf id hp, hb]
  exact ⟨⟨id, ws, hp, hb', hl⟩, by rw [bytesOf_block hp hb', bytesOf_block hp hb]⟩

/-! ## The invariant -/

/-- The staging entry owns a buffer if it is not empty and its pointer is not `NULL`. -/
def stagingOwner (k : Kernel) : List AesdBufferEntry :=
  if k.dev.bufferEntryStaging.size ≠ 0 ∧ k.dev.bufferEntryStaging.buffptr ≠ .null then
    [k.dev.bufferEntryStaging]
  else []

/-- The staged bytes whose buffer is lost. -/
def gap (k : Kernel) : Nat :=
  if k.dev.bufferEntryStaging.buffptr = .null then k.dev.bufferEntryStaging.size else 0

/-- The entries that own a buffer. -/
def owners (k : Kernel) : List AesdBufferEntry := live k.dev.circularBuffer ++ stagingOwner k

/-- What holds between two system calls. -/
structure Inv (k : Kernel) : Prop where
  slab : k.slab.Wf
  ring : ∃ h, RingOf k.dev.circularBuffer h
  holds : ∀ e ∈ owners k, Holds k.slab e
  distinct : ((owners k).map AesdBufferEntry.buffptr).Nodup
  /-- An empty staging entry points to nothing that could be lost. -/
  empty : k.dev.bufferEntryStaging.size = 0 → ∀ id, k.dev.bufferEntryStaging.buffptr ≠ .block id
  /-- A staging entry of some size lost its buffer or has one. -/
  kind : k.dev.bufferEntryStaging.buffptr = .zeroSize → k.dev.bufferEntryStaging.size = 0

theorem mem_owners_of_live {e : AesdBufferEntry} (he : e ∈ live k.dev.circularBuffer) :
    e ∈ owners k := List.mem_append_left _ he

theorem live_of_slot {k : Kernel} (hi : Inv k) {i : Nat} (hlt : i < 10)
    (hne : k.dev.circularBuffer.slot i ≠ .zero) :
    k.dev.circularBuffer.slot i ∈ live k.dev.circularBuffer := by
  obtain ⟨h, hr⟩ := hi.ring
  by_contra hn
  refine hne (hr.unused hlt fun hm => hn ?_)
  exact List.mem_map.mpr ⟨i, hm, rfl⟩

namespace Inv

theorem init : Inv aesdInitModule where
  slab := Slab.Wf.empty
  ring := ⟨[], RingOf.init⟩
  holds := by intro e he; cases he
  distinct := List.nodup_nil
  empty := by intro _ id hc; cases hc
  kind := by intro hc; cases hc

/-- A staging entry that owns its buffer. -/
theorem staging_holds (hi : Inv k) {id : Nat}
    (hp : k.dev.bufferEntryStaging.buffptr = .block id) :
    k.dev.bufferEntryStaging.size ≠ 0 ∧ k.dev.bufferEntryStaging ∈ owners k ∧
      ∃ ws, k.slab.block id = some ws ∧ ws.length = k.dev.bufferEntryStaging.size := by
  have hs : k.dev.bufferEntryStaging.size ≠ 0 := fun h0 => hi.empty h0 id hp
  have hm : k.dev.bufferEntryStaging ∈ owners k := by
    refine List.mem_append_right _ ?_
    unfold stagingOwner
    rw [if_pos ⟨hs, by rw [hp]; simp⟩]
    exact List.mem_singleton_self _
  obtain ⟨id', ws, hp', hb, hl⟩ := hi.holds _ hm
  rw [hp] at hp'
  cases hp'
  exact ⟨hs, hm, ws, hb, hl⟩

/-- No live entry shares its buffer with the staging entry. -/
theorem live_ne_staging (hi : Inv k) {e : AesdBufferEntry} (he : e ∈ live k.dev.circularBuffer)
    {id : Nat} (hp : k.dev.bufferEntryStaging.buffptr = .block id) : e.buffptr ≠ .block id := by
  obtain ⟨hs, -, -⟩ := hi.staging_holds hp
  have hd := hi.distinct
  unfold owners stagingOwner at hd
  rw [if_pos ⟨hs, by rw [hp]; simp⟩, List.map_append, List.nodup_append] at hd
  intro hc
  refine hd.2.2 e.buffptr (List.mem_map_of_mem he) k.dev.bufferEntryStaging.buffptr (by simp) ?_
  rw [hc, hp]

/-- A byte is staged in a buffer, or its buffer is lost. -/
theorem length_staged (hi : Inv k) :
    (bytesOf k.slab k.dev.bufferEntryStaging).length + gap k
      = k.dev.bufferEntryStaging.size := by
  unfold gap
  cases hp : k.dev.bufferEntryStaging.buffptr with
  | null => simp [bytesOf, hp]
  | zeroSize => simp [bytesOf, hp, hi.kind hp]
  | block id =>
    obtain ⟨-, -, ws, hb, hl⟩ := hi.staging_holds hp
    rw [bytesOf_block hp hb, hl]
    simp

/-- The buffer of a live entry is older than the next id. -/
theorem live_block (hi : Inv k) {e : AesdBufferEntry} (he : e ∈ live k.dev.circularBuffer)
    {id : Nat} (hp : e.buffptr = .block id) : id ≠ k.slab.next := by
  obtain ⟨id', ws, hp', hb, -⟩ := hi.holds e (mem_owners_of_live he)
  rw [hp] at hp'
  cases hp'
  exact hi.slab.ne_next hb

end Inv

/-! ## The staging buffer -/

/-- The size `aesd_write` asks the allocator for. -/
def request (k : Kernel) (count : Nat) : Nat := k.dev.bufferEntryStaging.size + count

/-- What a new staging buffer starts with: the staged bytes or, if their buffer is lost, as many
bytes of whatever the fresh memory holds. -/
def restaged (fresh : Nat → UInt8) (k : Kernel) : List UInt8 :=
  bytesOf k.slab k.dev.bufferEntryStaging ++ Slab.freshWords fresh (gap k)

theorem Inv.length_restaged (hi : Inv k) (fresh : Nat → UInt8) :
    (restaged fresh k).length = k.dev.bufferEntryStaging.size := by
  rw [restaged, List.length_append, Slab.length_freshWords, hi.length_staged]

/--
**A served request.** Whether the buffer is fresh, grown, or made up for one that was lost,
it starts with the staged bytes and has room for `count` more. The buffer it replaces is gone,
every other block is as before.
-/
theorem stagingAlloc_ok (hi : Inv k) {count : Nat} (hfit : request k count < 2 ^ 64)
    (hne : request k count ≠ 0) (hs : env.serves (request k count) = true) :
    ∃ slab room, stagingAlloc env count k = some (.block k.slab.next, slab) ∧ slab.Wf ∧
      room.length = count ∧ slab.block k.slab.next = some (restaged env.fresh k ++ room) ∧
      ∀ i, i ≠ k.slab.next → slab.block i
        = if k.dev.bufferEntryStaging.buffptr = .block i then none else k.slab.block i := by
  unfold request at hfit hne hs
  unfold stagingAlloc restaged gap
  -- a fresh allocation of `n` bytes, used by the first and by the lost-buffer case
  have fresh : ∀ n, n ≠ 0 → env.serves n = true →
      (∀ i, k.dev.bufferEntryStaging.buffptr ≠ .block i) →
      ∃ slab, some (Slab.kmalloc env.serves env.fresh n k.slab) = some (.block k.slab.next, slab) ∧
        slab.Wf ∧ slab.block k.slab.next = some (Slab.freshWords env.fresh n) ∧
        ∀ i, i ≠ k.slab.next → slab.block i
          = if k.dev.bufferEntryStaging.buffptr = .block i then none else k.slab.block i := by
    intro n hn hsn hnb
    rw [Slab.kmalloc_ok hn hsn]
    refine ⟨_, rfl, hi.slab.alloc _, by simp, fun i hni => ?_⟩
    rw [if_neg (hnb i)]
    exact Function.update_of_ne hni _ _
  by_cases h0 : k.dev.bufferEntryStaging.size = 0
  · have hnb := hi.empty h0
    rw [h0, Nat.zero_add] at hne hs
    obtain ⟨slab, heq, hw, hb, hf⟩ := fresh count hne hs hnb
    refine ⟨slab, Slab.freshWords env.fresh count, by simp only [h0, if_true]; exact heq, hw,
      Slab.length_freshWords .., ?_, hf⟩
    rw [hb, bytesOf_no_block hnb, h0, ite_self, Slab.freshWords_zero, List.nil_append,
      List.nil_append]
  · simp only [h0, if_false, sizeMod]
    rw [Nat.mod_eq_of_lt hfit]
    cases hp : k.dev.bufferEntryStaging.buffptr with
    | zeroSize => exact absurd (hi.kind hp) h0
    | null =>
      have hnb : ∀ i, k.dev.bufferEntryStaging.buffptr ≠ .block i := by
        intro i
        rw [hp]
        simp
      rw [Slab.krealloc_null]
      obtain ⟨slab, heq, hw, hb, hf⟩ := fresh _ hne hs hnb
      rw [hp] at hf
      refine ⟨slab, (List.range count).map fun i => env.fresh (k.dev.bufferEntryStaging.size + i),
        heq, hw, by simp, ?_, hf⟩
      rw [hb, bytesOf_no_block hnb, List.nil_append, if_pos rfl, Slab.freshWords_add]
    | block id =>
      obtain ⟨-, -, ws, hb, hl⟩ := hi.staging_holds hp
      have hidn := hi.slab.ne_next hb
      rw [Slab.krealloc_ok hne hs hb]
      refine ⟨_, (Slab.freshWords env.fresh (k.dev.bufferEntryStaging.size + count)).drop ws.length,
        rfl, (hi.slab.free hb).alloc _, ?_, ?_, fun i hni => ?_⟩
      · rw [List.length_drop, Slab.length_freshWords, hl, Nat.add_sub_cancel_left]
      · rw [bytesOf_block hp hb, if_neg (by simp), Slab.freshWords_zero, List.append_nil]
        simp only [Function.update_self]
        rw [List.take_of_length_le (by omega)]
      · simp only [Function.update_of_ne hni]
        by_cases hii : i = id
        · rw [hii, Function.update_self, if_pos rfl]
        · rw [Function.update_of_ne hii, if_neg (by simpa using Ne.symm hii)]

/-- **A refused request.** The pointer is lost, the heap is as before. -/
theorem stagingAlloc_fail (hi : Inv k) {count : Nat} (hfit : request k count < 2 ^ 64)
    (hne : request k count ≠ 0) (hs : env.serves (request k count) = false) :
    stagingAlloc env count k = some (.null, k.slab) := by
  unfold request at hfit hne hs
  unfold stagingAlloc
  by_cases h0 : k.dev.bufferEntryStaging.size = 0
  · rw [h0, Nat.zero_add] at hne hs
    simp only [h0, if_true]
    rw [Slab.kmalloc_fail hne hs]
  · simp only [h0, if_false, sizeMod]
    rw [Nat.mod_eq_of_lt hfit]
    cases hp : k.dev.bufferEntryStaging.buffptr with
    | zeroSize => exact absurd (hi.kind hp) h0
    | null => rw [Slab.krealloc_null, Slab.kmalloc_fail hne hs]
    | block id =>
      obtain ⟨-, -, ws, hb, -⟩ := hi.staging_holds hp
      exact Slab.krealloc_fail hne hs hb

/-- Nothing staged and nothing to stage: `kmalloc(0)`. -/
theorem stagingAlloc_zero {count : Nat} (h : request k count = 0) :
    stagingAlloc env count k = some (.zeroSize, k.slab) := by
  unfold request at h
  unfold stagingAlloc
  rw [show count = 0 by omega]
  simp only [show k.dev.bufferEntryStaging.size = 0 by omega, if_true, Slab.kmalloc_zero]

/-! ## `aesd_write` up to `memchr` -/

/-- The bytes that `copy_from_user` did copy. -/
def bytesCopied (buf : List UInt8) (env : WriteEnv) : Nat :=
  buf.length - min env.notCopied buf.length

/-- The staging entry after a served request for `count` more bytes. -/
def grownEntry (k : Kernel) (count : Nat) : AesdBufferEntry :=
  { buffptr := .block k.slab.next, size := request k count }

/-- No branch of `aesd_write` on the copy's result is taken while counts fit `ssize_t`. -/
theorem not_ssizeOf_neg {n : Nat} (h : n < 2 ^ 63) : ¬ ssizeOf n < 0 := by
  rw [ssizeOf_of_lt h]
  omega

/--
**A served write.** The staging entry gets the new buffer, whose bytes are the staged ones
followed by the user's; `memchr` sees exactly the user's part.
-/
theorem aesdWriteStage_ok (filp : Nat) (hi : Inv k) (hfit : request k buf.length < 2 ^ 64)
    (hc : min env.notCopied buf.length < 2 ^ 63)
    (hne : request k buf.length ≠ 0) (hs : env.serves (request k buf.length) = true) :
    ∃ slab, aesdWriteStage filp buf env k = some (.staged (bytesCopied buf env)
        ((userBytes buf env.notCopied).contains newline)
        ((k.withStaging (grownEntry k buf.length) slab).advance filp (bytesCopied buf env))) ∧
      slab.Wf ∧
      slab.block k.slab.next = some (restaged env.fresh k ++ userBytes buf env.notCopied) ∧
      ∀ i, i ≠ k.slab.next → slab.block i
        = if k.dev.bufferEntryStaging.buffptr = .block i then none else k.slab.block i := by
  obtain ⟨slab₁, room, halloc, hw₁, hroom, hb₁, hf₁⟩ := stagingAlloc_ok hi hfit hne hs
  -- both branches of the source agree on the offset and the size
  have hoff : (if k.dev.bufferEntryStaging.size = 0 then 0 else k.dev.bufferEntryStaging.size)
      = k.dev.bufferEntryStaging.size := by split <;> omega
  have hsize : (if k.dev.bufferEntryStaging.size = 0 then buf.length
        else (k.dev.bufferEntryStaging.size + buf.length) % sizeMod) = request k buf.length := by
    unfold request sizeMod at *
    split
    · omega
    · exact Nat.mod_eq_of_lt hfit
  have hlen := hi.length_restaged env.fresh
  obtain ⟨slab₂, hstore, hw₂, hb₂, hf₂⟩ : ∃ slab₂,
      slab₁.store (.block k.slab.next) k.dev.bufferEntryStaging.size
        (userBytes buf env.notCopied) = some slab₂ ∧ slab₂.Wf ∧
      slab₂.block k.slab.next = some (restaged env.fresh k ++ userBytes buf env.notCopied) ∧
      ∀ i, i ≠ k.slab.next → slab₂.block i = slab₁.block i := by
    by_cases hnil : userBytes buf env.notCopied = []
    · have hz : room = [] := by
        refine List.eq_nil_of_length_eq_zero ?_
        rw [hroom, ← length_userBytes buf env.notCopied, hnil]
        rfl
      refine ⟨slab₁, by rw [hnil, Slab.store_nil], hw₁, ?_, fun i _ => rfl⟩
      rw [hb₁, hnil, hz]
    · rw [Slab.store_block hnil hb₁ (by
        rw [length_userBytes, List.length_append, hlen, hroom])]
      refine ⟨_, rfl, hw₁.write hb₁ _, ?_, fun i hni => Function.update_of_ne hni _ _⟩
      simp only [Function.update_self]
      rw [List.take_append_of_le_length (by omega), List.take_of_length_le (by omega),
        List.drop_of_length_le (by simp [hlen, hroom]), List.append_nil]
  have hload : slab₂.load (.block k.slab.next) k.dev.bufferEntryStaging.size buf.length
      = some (userBytes buf env.notCopied) := by
    rw [Slab.load_block hb₂ (by simp [hlen]), ← hlen, List.drop_left,
      List.take_of_length_le (by simp)]
  refine ⟨slab₂, ?_, hw₂, hb₂, fun i hni => by rw [hf₂ i hni, hf₁ i hni]⟩
  unfold aesdWriteStage
  simp only [halloc, hoff, hsize, hstore, hload, not_ssizeOf_neg hc, Option.bind_eq_bind,
    Option.bind_some, reduceCtorEq, if_false, Option.pure_def]
  rfl

/-- **A refused write.** Nothing changes but the pointer of the staging entry. -/
theorem aesdWriteStage_fail (filp : Nat) (hi : Inv k) (hfit : request k buf.length < 2 ^ 64)
    (hne : request k buf.length ≠ 0) (hs : env.serves (request k buf.length) = false) :
    aesdWriteStage filp buf env k = some (.failed (-enomem) (k.withStaging
      { k.dev.bufferEntryStaging with buffptr := .null } k.slab)) := by
  unfold aesdWriteStage
  simp [stagingAlloc_fail hi hfit hne hs]

/-- **An empty write** while nothing is staged. -/
theorem aesdWriteStage_zero (filp : Nat) (h : request k buf.length = 0) :
    aesdWriteStage filp buf env k = some (.staged 0 false
      ((k.withStaging { buffptr := .zeroSize, size := 0 } k.slab).advance filp 0)) := by
  have hbuf : buf = [] := List.eq_nil_of_length_eq_zero (by unfold request at h; omega)
  have hsz : k.dev.bufferEntryStaging.size = 0 := by unfold request at h; omega
  subst hbuf
  unfold aesdWriteStage
  simp only [stagingAlloc_zero h]
  simp [hsz, userBytes, ssizeOf]

/-! ## Each step keeps the invariant -/

/-- File positions are no part of the invariant. -/
theorem Inv.withFPos (hi : Inv k) (fPos : Nat → Nat) : Inv { k with fPos := fPos } :=
  ⟨hi.slab, hi.ring, hi.holds, hi.distinct, hi.empty, hi.kind⟩

theorem Inv.advance (hi : Inv k) (filp n : Nat) : Inv (k.advance filp n) := hi.withFPos _

theorem Inv.live_nodup (hi : Inv k) :
    ((live k.dev.circularBuffer).map AesdBufferEntry.buffptr).Nodup := by
  have hd := hi.distinct
  unfold owners at hd
  rw [List.map_append] at hd
  exact (List.nodup_append.mp hd).1

/-- The staging entry is replaced by one without a buffer. -/
theorem Inv.dropStaging (hi : Inv k) {entry : AesdBufferEntry}
    (hp : entry.buffptr = .null ∨ entry.buffptr = .zeroSize ∧ entry.size = 0) :
    Inv (k.withStaging entry k.slab) := by
  have hown : owners (k.withStaging entry k.slab) = live k.dev.circularBuffer := by
    unfold owners stagingOwner
    rcases hp with hp | ⟨hp, h0⟩
    · simp [hp]
    · simp [h0]
  refine ⟨hi.slab, hi.ring, ?_, ?_, ?_, ?_⟩
  · rw [hown]
    exact fun e he => hi.holds e (mem_owners_of_live he)
  · rw [hown]
    exact hi.live_nodup
  · intro _ id hc
    rw [Kernel.withStaging_staging] at hc
    rcases hp with hp | ⟨hp, _⟩ <;> (rw [hp] at hc; cases hc)
  · intro hc
    rw [Kernel.withStaging_staging] at hc
    rcases hp with hp | ⟨_, h0⟩
    · rw [hp] at hc
      cases hc
    · exact h0

/-- The staging entry gets the block with the next id. -/
theorem Inv.grow (hi : Inv k) {slab : Slab UInt8} {count : Nat} {ws : List UInt8}
    (hw : slab.Wf) (hb : slab.block k.slab.next = some ws) (hl : ws.length = request k count)
    (hne : request k count ≠ 0)
    (hf : ∀ i, i ≠ k.slab.next → slab.block i
      = if k.dev.bufferEntryStaging.buffptr = .block i then none else k.slab.block i) :
    Inv (k.withStaging (grownEntry k count) slab) ∧
      ∀ e ∈ live k.dev.circularBuffer, bytesOf slab e = bytesOf k.slab e := by
  have hframe : ∀ e ∈ live k.dev.circularBuffer,
      Holds slab e ∧ bytesOf slab e = bytesOf k.slab e := by
    intro e he
    refine (hi.holds e (mem_owners_of_live he)).frame fun id hp => ?_
    rw [hf id (hi.live_block he hp), if_neg]
    exact fun hc => hi.live_ne_staging he hc hp
  have hown : owners (k.withStaging (grownEntry k count) slab)
      = live k.dev.circularBuffer ++ [grownEntry k count] := by
    unfold owners stagingOwner
    rw [if_pos ⟨hne, by simp [grownEntry]⟩]
    rfl
  refine ⟨⟨hw, hi.ring, ?_, ?_, fun h0 => absurd h0 hne, by intro hc; cases hc⟩,
    fun e he => (hframe e he).2⟩
  · rw [hown]
    intro e he
    rcases List.mem_append.mp he with he | he
    · exact (hframe e he).1
    · rw [List.mem_singleton.mp he]
      exact ⟨_, ws, rfl, hb, hl⟩
  · rw [hown, List.map_append, List.nodup_append]
    refine ⟨hi.live_nodup, by simp, ?_⟩
    intro a ha b hb' hab
    obtain ⟨e, he, rfl⟩ := List.mem_map.mp ha
    rw [List.map_singleton, List.mem_singleton] at hb'
    rw [hb'] at hab
    exact hi.live_block he hab rfl

/-- The ring after `add_entry` of the staged entry. -/
def committedRing (k : Kernel) : AesdCircularBuffer :=
  (aesdCircularBufferAddEntry k.dev.circularBuffer k.dev.bufferEntryStaging).2

/-- After a commit the live entries are all there is to own. -/
theorem owners_withRing (ring : AesdCircularBuffer) (slab : Slab UInt8) :
    owners (k.withRing ring slab) = live ring := by
  simp [owners, stagingOwner, AesdBufferEntry.zero]

theorem Inv.withRing (hi : Inv k) {slab : Slab UInt8} (hs : k.dev.bufferEntryStaging.size ≠ 0)
    (hw : slab.Wf) (hh : ∀ e ∈ live (committedRing k), Holds slab e)
    (hd : ((live (committedRing k)).map AesdBufferEntry.buffptr).Nodup) :
    Inv (k.withRing (committedRing k) slab) := by
  obtain ⟨h, hr⟩ := hi.ring
  refine ⟨hw, ⟨_, hr.addEntry hs⟩, ?_, ?_, ?_, ?_⟩
  · rw [owners_withRing]; exact hh
  · rw [owners_withRing]; exact hd
  · intro _ i hc; cases hc
  · intro hc; cases hc

/-- `i` is the buffer of an entry of the ring, or of the staging entry. -/
def Owned (k : Kernel) (i : Nat) : Prop := ∃ e ∈ owners k, e.buffptr = .block i

/--
**The commit.** The staged entry becomes the newest live one; if the ring was full, the buffer
of the entry it evicts is freed, and no other.
-/
theorem aesdWriteCommit_ok (hi : Inv k) {id : Nat}
    (hp : k.dev.bufferEntryStaging.buffptr = .block id) :
    ∃ slab, aesdWriteCommit k = some (k.withRing (committedRing k) slab) ∧
      Inv (k.withRing (committedRing k) slab) ∧
      live (committedRing k)
        = (live k.dev.circularBuffer ++ [k.dev.bufferEntryStaging]).rtake 10 ∧
      (∀ e ∈ live (committedRing k), bytesOf slab e = bytesOf k.slab e) ∧
      ∀ i, (Owned k i → ¬ Owned (k.withRing (committedRing k) slab) i → slab.block i = none) ∧
        (¬ Owned k i → slab.block i = k.slab.block i) := by
  obtain ⟨hs, -, -⟩ := hi.staging_holds hp
  obtain ⟨h, hr⟩ := hi.ring
  have hown : owners k = live k.dev.circularBuffer ++ [k.dev.bufferEntryStaging] := by
    unfold owners stagingOwner
    rw [if_pos ⟨hs, by rw [hp]; simp⟩]
  have hwin : live (committedRing k)
      = (live k.dev.circularBuffer ++ [k.dev.bufferEntryStaging]).rtake 10 := hr.live_addEntry hs
  have hfst := addEntry_fst k.dev.circularBuffer hs
  unfold Owned
  simp only [owners_withRing]
  cases hf : k.dev.circularBuffer.full with
  | false =>
    have hlive : live (committedRing k) = owners k := by
      rw [hwin, hown]
      refine rtake_of_length_le ?_
      have hlen : h.length < 10 := by simpa [hr.full_eq] using hf
      rw [List.length_append, hr.live_eq, length_rtake]
      simp only [List.length_cons, List.length_nil]
      omega
    refine ⟨k.slab, ?_, hi.withRing hs hi.slab ?_ ?_, hwin, fun e _ => rfl,
      fun i => ⟨fun ho hn => absurd ho (by rw [hlive] at hn; exact hn), fun _ => rfl⟩⟩
    · unfold aesdWriteCommit
      simp [hfst, hf, committedRing]
    · rw [hlive]; exact hi.holds
    · rw [hlive]; exact hi.distinct
  | true =>
    obtain ⟨rest, hrest⟩ := List.head?_eq_some_iff.mp (hr.oldest hf)
    have hlive : live (committedRing k) = rest ++ [k.dev.bufferEntryStaging] := by
      rw [committedRing, hr.live_addEntry_full hs hf, hrest, List.tail_cons]
    have hown' : owners k = k.dev.circularBuffer.slot k.dev.circularBuffer.inOffs ::
        live (committedRing k) := by
      rw [hown, hrest, hlive, List.cons_append]
    obtain ⟨old, ws, hop, hob, -⟩ := hi.holds _ (by rw [hown']; exact List.mem_cons_self)
    have hd := hi.distinct
    rw [hown', List.map_cons, List.nodup_cons, hop] at hd
    -- no other owner has the evicted buffer
    have hkeep : ∀ slab : Slab UInt8, slab.block = Function.update k.slab.block old none →
        ∀ e ∈ live (committedRing k), Holds slab e ∧ bytesOf slab e = bytesOf k.slab e := by
      intro slab hblock e he
      refine (hi.holds e (by rw [hown']; exact List.mem_cons_of_mem _ he)).frame fun i hpi => ?_
      rw [hblock]
      refine Function.update_of_ne ?_ _ _
      rintro rfl
      exact hd.1 (List.mem_map.mpr ⟨e, he, hpi⟩)
    refine ⟨{ k.slab with
        block := Function.update k.slab.block old none, freed := old :: k.slab.freed }, ?_,
      hi.withRing hs (hi.slab.free hob) (fun e he => (hkeep _ rfl e he).1) hd.2, hwin,
      fun e he => (hkeep _ rfl e he).2, fun i => ⟨?_, fun hn => ?_⟩⟩
    · unfold aesdWriteCommit
      simp [hfst, hf, hop, Slab.kfree_block hob, committedRing]
    · rintro ⟨e, he, hpe⟩ hn
      rw [hown'] at he
      rcases List.mem_cons.mp he with rfl | he
      · rw [hop] at hpe
        cases hpe
        simp
      · exact absurd ⟨e, he, hpe⟩ hn
    · refine Function.update_of_ne ?_ _ _
      rintro rfl
      exact hn ⟨_, by rw [hown']; exact List.mem_cons_self, hop⟩

end Aesd.Driver

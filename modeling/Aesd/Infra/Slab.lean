import Mathlib.Logic.Function.Basic
import Mathlib.Data.List.Basic
import Mathlib.Tactic.Common

/-!
# A kernel heap with a ledger

`kmalloc`, `krealloc` and `kfree` over blocks of words. Every allocation gets an id that was
never used before; the ledger keeps the ids that were given back. An access that the C
standard leaves undefined (outside a block, to a block that is gone, a second `kfree`) has no
result: the operation returns `none`.

* What fresh memory holds is anybody's guess: an allocation takes what its words happen to be,
  by their offset, as an argument.
* `kmalloc(0)` returns `ZERO_SIZE_PTR`, which is not `NULL` and owns nothing.
* A `krealloc` that succeeds moves the words to a fresh id and retires the old one. One that
  fails leaves the old block as it was.

Whether a request is met is the caller's to say: the operations take the set of sizes that
the allocator is willing to serve at that moment.
-/

namespace Infra

/-- A pointer returned by the allocator. -/
inductive Ptr where
  | null
  | zeroSize
  | block (id : Nat)
  deriving DecidableEq, Repr, Inhabited

/-- The blocks that are allocated, the next unused id, and the ids that were given back. -/
structure Slab (β : Type) where
  block : Nat → Option (List β)
  next : Nat
  freed : List Nat

namespace Slab

variable {β : Type}

def empty : Slab β where
  block := fun _ => none
  next := 0
  freed := []

/-! ## Operations -/

/-- `n` words of fresh memory. -/
def freshWords (fresh : Nat → β) (n : Nat) : List β := (List.range n).map fresh

@[simp] theorem length_freshWords (fresh : Nat → β) (n : Nat) :
    (freshWords fresh n).length = n := by simp [freshWords]

@[simp] theorem freshWords_zero (fresh : Nat → β) : freshWords fresh 0 = [] := rfl

theorem freshWords_add (fresh : Nat → β) (m n : Nat) : freshWords fresh (m + n)
    = freshWords fresh m ++ (List.range n).map (fun i => fresh (m + i)) := by
  rw [freshWords, List.range_add, List.map_append, List.map_map]
  rfl

theorem freshWords_inj {fresh fresh' : Nat → β} {n : Nat} :
    freshWords fresh n = freshWords fresh' n ↔ ∀ i < n, fresh i = fresh' i := by
  simp [freshWords]

def kmalloc (serves : Nat → Bool) (fresh : Nat → β) (n : Nat) (h : Slab β) : Ptr × Slab β :=
  if n = 0 then (.zeroSize, h)
  else if serves n then
    (.block h.next,
      { h with
        block := Function.update h.block h.next (some (freshWords fresh n))
        next := h.next + 1 })
  else (.null, h)

def kfree : Ptr → Slab β → Option (Slab β)
  | .null, h => some h
  | .zeroSize, h => some h
  | .block id, h =>
    match h.block id with
    | none => none
    | some _ =>
      some { h with block := Function.update h.block id none, freed := id :: h.freed }

def krealloc (serves : Nat → Bool) (fresh : Nat → β) (n : Nat) :
    Ptr → Slab β → Option (Ptr × Slab β)
  | .null, h => some (kmalloc serves fresh n h)
  | .zeroSize, h => some (kmalloc serves fresh n h)
  | .block id, h =>
    match h.block id with
    | none => none
    | some old =>
      if n = 0 then (kfree (.block id) h).map fun h' => (.zeroSize, h')
      else if serves n then
        some (.block h.next,
          { block := Function.update (Function.update h.block id none) h.next
              (some (old.take n ++ (freshWords fresh n).drop old.length))
            next := h.next + 1
            freed := id :: h.freed })
      else some (.null, h)

/-- Write `ws` at `p + off`. Writing nothing is allowed anywhere. -/
def store (p : Ptr) (off : Nat) (ws : List β) (h : Slab β) : Option (Slab β) :=
  if ws = [] then some h
  else
    match p with
    | .block id =>
      match h.block id with
      | none => none
      | some old =>
        if off + ws.length ≤ old.length then
          some { h with
            block := Function.update h.block id
              (some (old.take off ++ ws ++ old.drop (off + ws.length))) }
        else none
    | _ => none

/-- Read `n` words at `p + off`. Reading nothing is allowed anywhere. -/
def load (p : Ptr) (off n : Nat) (h : Slab β) : Option (List β) :=
  if n = 0 then some []
  else
    match p with
    | .block id =>
      match h.block id with
      | none => none
      | some ws => if off + n ≤ ws.length then some ((ws.drop off).take n) else none
    | _ => none

/-! ## What each operation does -/

section Operations

variable {serves : Nat → Bool} {fresh : Nat → β} {n id off : Nat} {h : Slab β}
  {ws old : List β}

@[simp] theorem kmalloc_zero : kmalloc serves fresh 0 h = (.zeroSize, h) := by simp [kmalloc]

theorem kmalloc_ok (hn : n ≠ 0) (hs : serves n = true) :
    kmalloc serves fresh n h = (.block h.next,
      { h with
        block := Function.update h.block h.next (some (freshWords fresh n))
        next := h.next + 1 }) := by
  simp [kmalloc, hn, hs]

theorem kmalloc_fail (hn : n ≠ 0) (hs : serves n = false) :
    kmalloc serves fresh n h = (.null, h) := by
  simp [kmalloc, hn, hs]

@[simp] theorem krealloc_null :
    krealloc serves fresh n .null h = some (kmalloc serves fresh n h) := rfl

theorem krealloc_ok (hn : n ≠ 0) (hs : serves n = true) (hb : h.block id = some old) :
    krealloc serves fresh n (.block id) h = some (.block h.next,
      { block := Function.update (Function.update h.block id none) h.next
          (some (old.take n ++ (freshWords fresh n).drop old.length))
        next := h.next + 1
        freed := id :: h.freed }) := by
  simp [krealloc, hb, hn, hs]

theorem krealloc_fail (hn : n ≠ 0) (hs : serves n = false) (hb : h.block id = some old) :
    krealloc serves fresh n (.block id) h = some (.null, h) := by
  simp [krealloc, hb, hn, hs]

@[simp] theorem kfree_null : kfree .null h = some h := rfl

@[simp] theorem kfree_zeroSize : kfree .zeroSize h = some h := rfl

theorem kfree_block (hb : h.block id = some old) :
    kfree (.block id) h =
      some { h with block := Function.update h.block id none, freed := id :: h.freed } := by
  simp [kfree, hb]

@[simp] theorem store_nil (p : Ptr) : store p off [] h = some h := by simp [store]

theorem store_block (hw : ws ≠ []) (hb : h.block id = some old)
    (hl : off + ws.length ≤ old.length) :
    store (.block id) off ws h = some { h with
      block := Function.update h.block id
        (some (old.take off ++ ws ++ old.drop (off + ws.length))) } := by
  simp [store, hw, hb, hl]

@[simp] theorem load_zero (p : Ptr) : load p off 0 h = some [] := by simp [load]

theorem load_block (hb : h.block id = some ws) (hl : off + n ≤ ws.length) :
    load (.block id) off n h = some ((ws.drop off).take n) := by
  unfold load
  split
  · next hn => simp [hn]
  · simp [hb, hl]

end Operations

/-! ## The ledger -/

/-- An id is in exactly one of three places: not given out yet, allocated, or given back once. -/
structure Wf (h : Slab β) : Prop where
  live_lt : ∀ id ws, h.block id = some ws → id < h.next
  freed_lt : ∀ id ∈ h.freed, id < h.next
  freed_gone : ∀ id ∈ h.freed, h.block id = none
  freed_nodup : h.freed.Nodup

namespace Wf

variable {h : Slab β}

theorem empty : Wf (Slab.empty : Slab β) where
  live_lt := by intro id ws hb; cases hb
  freed_lt := by intro id hm; cases hm
  freed_gone := by intro id hm; cases hm
  freed_nodup := List.nodup_nil

theorem block_next (hw : Wf h) : h.block h.next = none := by
  cases hb : h.block h.next with
  | none => rfl
  | some ws => exact absurd (hw.live_lt _ _ hb) (Nat.lt_irrefl _)

theorem ne_next (hw : Wf h) {id : Nat} {ws : List β} (hb : h.block id = some ws) :
    id ≠ h.next := Nat.ne_of_lt (hw.live_lt id ws hb)

theorem not_freed (hw : Wf h) {id : Nat} {ws : List β} (hb : h.block id = some ws) :
    id ∉ h.freed := by
  intro hm
  rw [hw.freed_gone id hm] at hb
  cases hb

/-- Handing out the next id. -/
theorem alloc (hw : Wf h) (ws : List β) :
    Wf { h with block := Function.update h.block h.next (some ws), next := h.next + 1 } where
  live_lt := by
    intro id ws' hb
    simp only at hb ⊢
    by_cases he : id = h.next
    · omega
    · rw [Function.update_of_ne he] at hb
      have := hw.live_lt id ws' hb
      omega
  freed_lt := by
    intro id hm
    have := hw.freed_lt id hm
    simp only
    omega
  freed_gone := by
    intro id hm
    simp only
    rw [Function.update_of_ne (Nat.ne_of_lt (hw.freed_lt id hm))]
    exact hw.freed_gone id hm
  freed_nodup := hw.freed_nodup

/-- Giving an allocated id back. -/
theorem free (hw : Wf h) {id : Nat} {ws : List β} (hb : h.block id = some ws) :
    Wf { h with block := Function.update h.block id none, freed := id :: h.freed } where
  live_lt := by
    intro i ws' hi
    simp only at hi ⊢
    by_cases he : i = id
    · rw [he, Function.update_self] at hi; cases hi
    · rw [Function.update_of_ne he] at hi
      exact hw.live_lt i ws' hi
  freed_lt := by
    intro i hm
    rcases List.mem_cons.mp hm with rfl | hm
    · exact hw.live_lt i ws hb
    · exact hw.freed_lt i hm
  freed_gone := by
    intro i hm
    simp only
    by_cases he : i = id
    · rw [he, Function.update_self]
    · rw [Function.update_of_ne he]
      rcases List.mem_cons.mp hm with he' | hm
      · exact absurd he' he
      · exact hw.freed_gone i hm
  freed_nodup := List.nodup_cons.mpr ⟨hw.not_freed hb, hw.freed_nodup⟩

/-- Changing what an allocated block holds. -/
theorem write (hw : Wf h) {id : Nat} {old : List β} (hb : h.block id = some old)
    (ws : List β) :
    Wf { h with block := Function.update h.block id (some ws) } where
  live_lt := by
    intro i ws' hi
    simp only at hi ⊢
    by_cases he : i = id
    · rw [he]; exact hw.live_lt id old hb
    · rw [Function.update_of_ne he] at hi
      exact hw.live_lt i ws' hi
  freed_lt := hw.freed_lt
  freed_gone := by
    intro i hm
    simp only
    have hne : i ≠ id := fun he => hw.not_freed hb (he ▸ hm)
    rw [Function.update_of_ne hne]
    exact hw.freed_gone i hm
  freed_nodup := hw.freed_nodup

end Wf

end Slab

end Infra

import Mathlib.Data.List.DropRight
import Mathlib.Data.List.Basic
import Mathlib.Tactic.Common

/-!
# Cyclic arrays

An array of `c` slots that is written round and round holds the last `c` items of
everything ever written to it. The item with index `j` of the history sits in slot `j % c`
until the item `j + c` takes its place.

The module says nothing about who keeps the indices. A user states its own index fields in
terms of the length of the history and gets the window from `Cyclic.window`.
-/

namespace Infra

variable {α β : Type}

/-! ## The last items of a list -/

theorem rtake_of_length_le {l : List α} {n : Nat} (h : l.length ≤ n) : l.rtake n = l := by
  unfold List.rtake
  rw [show l.length - n = 0 by omega, List.drop_zero]

theorem length_rtake (l : List α) (n : Nat) : (l.rtake n).length = min n l.length := by
  unfold List.rtake
  rw [List.length_drop]
  omega

theorem map_rtake (f : α → β) (l : List α) (n : Nat) : (l.rtake n).map f = (l.map f).rtake n := by
  unfold List.rtake
  rw [List.map_drop, List.length_map]

theorem mem_of_mem_rtake {l : List α} {n : Nat} {x : α} (h : x ∈ l.rtake n) : x ∈ l :=
  List.mem_of_mem_drop h

/-- Pushing onto the window and cutting again is pushing onto the whole history. -/
theorem rtake_push (l : List α) (n : Nat) (x : α) :
    (l.rtake n ++ [x]).rtake n = (l ++ [x]).rtake n := by
  cases n with
  | zero => simp
  | succ n =>
    rw [List.rtake_concat_succ, List.rtake_concat_succ]
    congr 1
    unfold List.rtake
    rw [List.length_drop, List.drop_drop]
    congr 1
    omega

/-- A push onto a full window drops its first item. -/
theorem rtake_push_full {l : List α} {n : Nat} (hn : 0 < n) (h : n ≤ l.length) (x : α) :
    (l ++ [x]).rtake n = (l.rtake n).tail ++ [x] := by
  obtain ⟨m, rfl⟩ : ∃ m, n = m + 1 := ⟨n - 1, by omega⟩
  rw [List.rtake_concat_succ]
  congr 1
  unfold List.rtake
  rw [← List.drop_one, List.drop_drop]
  congr 1
  omega

/-! ## Slots -/

/--
`slot` is a cyclic array of `c` slots to which the items of `h` were written in order,
starting at slot 0 of an array filled with `z`.
-/
structure Cyclic (c : Nat) (z : α) (slot : Nat → α) (h : List α) : Prop where
  /-- One of the last `c` items is found at its index modulo `c`. -/
  recent : ∀ j (hj : j < h.length), h.length ≤ j + c → slot (j % c) = h[j]
  /-- A slot that was never reached is as it was. -/
  fresh : ∀ i, h.length ≤ i → i < c → slot i = z

namespace Cyclic

variable {c : Nat} {z : α} {slot slot' : Nat → α} {h : List α}

theorem nil (hz : ∀ i, i < c → slot i = z) : Cyclic c z slot [] where
  recent := fun j hj => absurd hj (by simp)
  fresh := fun i _ hi => hz i hi

/-- Two of the last `c + 1` indices share a slot only if they are equal. -/
theorem mod_ne {j n : Nat} (hj : j < n) (hn : n < j + c) : j % c ≠ n % c := by
  intro he
  have hd : c ∣ n - j := Nat.dvd_of_mod_eq_zero (Nat.sub_mod_eq_zero_of_mod_eq he.symm)
  have := Nat.le_of_dvd (by omega) hd
  omega

/-- **One write.** The next item goes to slot `h.length % c`, the others keep theirs. -/
theorem push (hc : 0 < c) (H : Cyclic c z slot h) {x : α} (hnew : slot' (h.length % c) = x)
    (hold : ∀ i, i < c → i ≠ h.length % c → slot' i = slot i) :
    Cyclic c z slot' (h ++ [x]) where
  recent := by
    intro j hj hjc
    simp only [List.length_append, List.length_cons, List.length_nil] at hj hjc
    rcases Nat.lt_or_ge j h.length with hlt | hge
    · rw [List.getElem_append_left hlt,
        hold (j % c) (Nat.mod_lt j hc) (mod_ne hlt (by omega))]
      exact H.recent j hlt (by omega)
    · obtain rfl : j = h.length := by omega
      rw [hnew]
      simp
  fresh := by
    intro i hi hic
    simp only [List.length_append, List.length_cons, List.length_nil] at hi
    rw [hold i hic ?_]
    · exact H.fresh i (by omega) hic
    · rw [Nat.mod_eq_of_lt (by omega)]
      omega

/-- **The window.** Read from the slot of the oldest item still there, the array lists the
last `c` items of the history in order. -/
theorem window (H : Cyclic c z slot h) :
    (List.range (min c h.length)).map (fun i => slot ((h.length - min c h.length + i) % c))
      = h.rtake c := by
  have hst : h.length - min c h.length = h.length - c := by omega
  refine List.ext_getElem ?_ fun i hi hi' => ?_
  · simp only [List.length_map, List.length_range, length_rtake]
  · simp only [List.length_map, List.length_range] at hi
    rw [List.getElem_map, List.getElem_range,
      H.recent (h.length - min c h.length + i) (by omega) (by omega)]
    simp only [List.rtake, List.getElem_drop, hst]

/-- The slot the next item will take holds the oldest item of a full array. -/
theorem oldest (H : Cyclic c z slot h) (hc : 0 < c) (hfull : c ≤ h.length) :
    (h.rtake c).head? = some (slot (h.length % c)) := by
  have hj := H.recent (h.length - c) (by omega) (by omega)
  rw [show (h.length - c) % c = h.length % c by
    rw [← Nat.add_mod_right, Nat.sub_add_cancel hfull]] at hj
  unfold List.rtake
  rw [List.head?_drop, List.getElem?_eq_getElem (by omega), hj]

end Cyclic

end Infra

import Mathlib.Logic.Function.Basic
import Mathlib.Data.List.Nodup

/-!
# Singly linked lists in memory

Nodes of type `κ`, each with a link that leads to another node or nowhere. `next n` is the link of
`n`; it is `none` where there is no node, or one whose link was never set. A pointer to a list is an
`Option κ`.
-/

namespace Infra

variable {κ : Type} {next next' : κ → Option (Option κ)} {p : Option κ} {n m : κ}
  {l a b : List κ}

/-- The list that starts at `p` has the nodes `l`, in this order. -/
def Chain (next : κ → Option (Option κ)) : Option κ → List κ → Prop
  | p, [] => p = none
  | p, n :: l => p = some n ∧ ∃ q, next n = some q ∧ Chain next q l

namespace Chain

theorem head (h : Chain next p l) : p = l.head? := by
  cases l with
  | nil => exact h
  | cons n l => exact h.1

/-- Only the links of the list's own nodes matter. -/
theorem congr (h : Chain next p l) (heq : ∀ n ∈ l, next' n = next n) : Chain next' p l := by
  induction l generalizing p with
  | nil => exact h
  | cons n l ih =>
    obtain ⟨hp, q, hq, hl⟩ := h
    refine ⟨hp, q, ?_, ih hl fun m hm => heq m (List.mem_cons_of_mem _ hm)⟩
    rw [heq n List.mem_cons_self, hq]

/-- The rest of a list is a list. -/
theorem suffix (h : Chain next p (a ++ b)) : Chain next b.head? b := by
  induction a generalizing p with
  | nil =>
    have hp : p = b.head? := head h
    rw [← hp]
    exact h
  | cons c a ih =>
    obtain ⟨-, q, -, hl⟩ := h
    exact ih hl

/-- The link of a node leads to what follows it. -/
theorem link_eq (h : Chain next p (a ++ n :: b)) : next n = some b.head? := by
  obtain ⟨-, q, hq, hb⟩ := suffix h
  rw [hq, hb.head]

variable [DecidableEq κ]

/-- **Insertion** of a new first node. -/
theorem insertHead (h : Chain next p l) (hn : n ∉ l) :
    Chain (Function.update next n (some p)) (some n) (n :: l) := by
  refine ⟨rfl, p, Function.update_self .., h.congr fun m hm => ?_⟩
  have hmn : m ≠ n := fun hmn => hn (hmn ▸ hm)
  exact Function.update_of_ne hmn ..

/-- **Removal** of the node after `n`: the link of `n` skips it. -/
theorem removeAfter (hd : (a ++ n :: m :: b).Nodup) (h : Chain next p (a ++ n :: m :: b)) :
    Chain (Function.update next n (some b.head?)) p (a ++ n :: b) := by
  induction a generalizing p with
  | nil =>
    have hb := suffix (a := [n, m]) h
    have hn := (List.nodup_cons.mp hd).1
    refine ⟨h.1, _, Function.update_self .., hb.congr fun k hk => ?_⟩
    refine Function.update_of_ne (fun hkn => hn ?_) ..
    rw [← hkn]
    exact List.mem_cons_of_mem _ hk
  | cons c a ih =>
    obtain ⟨hp, q, hq, hl⟩ := h
    obtain ⟨hc, hd'⟩ := List.nodup_cons.mp hd
    refine ⟨hp, q, ?_, ih hd' hl⟩
    rw [Function.update_of_ne _, hq]
    rintro rfl
    exact hc (List.mem_append_right _ List.mem_cons_self)

end Chain

end Infra

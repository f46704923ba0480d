import Aesd.Infra.Cyclic

/-!
# A log of the last lines

What a line device is for, over any alphabet and any number of lines to keep: payloads are
staged until one of them holds a stop symbol; then everything staged becomes one entry, and
only the last `c` entries are kept.

`groups` cuts a sequence of payloads without any state. `run_empty` says that the log computes it.
-/

namespace Infra

/-- The entries kept, oldest first, and what is staged. -/
structure LineLog (α : Type) where
  entries : List (List α)
  staged : List α
  deriving DecidableEq, Repr

namespace LineLog

variable {α : Type} {c : Nat} {stop : α → Bool}

def empty : LineLog α where
  entries := []
  staged := []

/-- One payload. -/
def write (c : Nat) (stop : α → Bool) (log : LineLog α) (p : List α) : LineLog α :=
  if p.any stop then
    { entries := (log.entries ++ [log.staged ++ p]).rtake c, staged := [] }
  else { log with staged := log.staged ++ p }

theorem write_stop (log : LineLog α) {p : List α} (h : p.any stop = true) :
    log.write c stop p
      = { entries := (log.entries ++ [log.staged ++ p]).rtake c, staged := [] } := by
  simp [write, h]

theorem write_go_on (log : LineLog α) {p : List α} (h : p.any stop = false) :
    log.write c stop p = { log with staged := log.staged ++ p } := by
  simp [write, h]

theorem length_staged_write (c : Nat) (stop : α → Bool) (log : LineLog α) (p : List α) :
    (log.write c stop p).staged.length ≤ log.staged.length + p.length := by
  unfold write
  split
  · exact Nat.zero_le _
  · rw [List.length_append]

/-- An entry was there before or is the one that this payload completed. -/
theorem mem_entries_write (log : LineLog α) {p e : List α}
    (h : e ∈ (log.write c stop p).entries) :
    e ∈ log.entries ∨ p.any stop = true ∧ e = log.staged ++ p := by
  cases hp : p.any stop with
  | false =>
    rw [write_go_on log hp] at h
    exact Or.inl h
  | true =>
    rw [write_stop log hp] at h
    rcases List.mem_append.mp (mem_of_mem_rtake h) with hm | hm
    · exact Or.inl hm
    · exact Or.inr ⟨rfl, List.mem_singleton.mp hm⟩

/-- Payloads that both end the line or both do not are told apart by the log. -/
theorem write_inj (hc : 0 < c) {log : LineLog α} {p q : List α} (hany : p.any stop = q.any stop)
    (h : log.write c stop p = log.write c stop q) : p = q := by
  cases hp : p.any stop with
  | false =>
    rw [write_go_on log hp, write_go_on log (hany ▸ hp)] at h
    exact List.append_cancel_left (congrArg LineLog.staged h)
  | true =>
    rw [write_stop log hp, write_stop log (hany ▸ hp)] at h
    obtain ⟨n, rfl⟩ : ∃ n, c = n + 1 := ⟨c - 1, by omega⟩
    have hent := congrArg LineLog.entries h
    simp only [List.rtake_concat_succ] at hent
    have hlast := (List.append_inj' hent rfl).2
    simp only [List.cons.injEq, and_true] at hlast
    exact List.append_cancel_left hlast

/-- A sequence of payloads. -/
def run (c : Nat) (stop : α → Bool) (log : LineLog α) (ps : List (List α)) : LineLog α :=
  ps.foldl (write c stop) log

/-! ## Groups -/

/--
The payloads cut into groups, each up to and including the first payload with a stop symbol,
and what follows the last such payload. `begun` is a group that is not finished yet.
-/
def groups (stop : α → Bool) (begun : List α) : List (List α) → List (List α) × List α
  | [] => ([], begun)
  | p :: ps =>
    if p.any stop then
      let r := groups stop [] ps
      ((begun ++ p) :: r.1, r.2)
    else groups stop (begun ++ p) ps

/-- **The log keeps the last `c` complete groups and stages the rest.** -/
theorem run_eq_groups : ∀ (ps : List (List α)) (done : List (List α)) (log : LineLog α),
    log.entries = done.rtake c →
    (log.run c stop ps).entries = (done ++ (groups stop log.staged ps).1).rtake c ∧
      (log.run c stop ps).staged = (groups stop log.staged ps).2
  | [], done, log, h => by simp [run, groups, h]
  | p :: ps, done, log, h => by
    show (run c stop (log.write c stop p) ps).entries = _ ∧
      (run c stop (log.write c stop p) ps).staged = _
    rw [groups]
    cases hp : p.any stop with
    | true =>
      have hw := write_stop (c := c) log hp
      have ih := run_eq_groups ps (done ++ [log.staged ++ p]) (log.write c stop p)
        (by rw [hw, h, rtake_push])
      rw [hw] at ih ⊢
      simpa using ih
    | false =>
      have hw := write_go_on (c := c) log hp
      have ih := run_eq_groups ps done (log.write c stop p) (by rw [hw, h])
      rw [hw] at ih ⊢
      simpa using ih

theorem run_empty (c : Nat) (stop : α → Bool) (ps : List (List α)) :
    (empty.run c stop ps).entries = (groups stop [] ps).1.rtake c ∧
      (empty.run c stop ps).staged = (groups stop [] ps).2 := by
  simpa [empty] using run_eq_groups ps [] (empty : LineLog α) (by simp [empty])

/-- Payloads that all have a stop symbol are the groups. -/
theorem groups_of_stops (stop : α → Bool) : ∀ ps : List (List α),
    (∀ p ∈ ps, p.any stop = true) → groups stop [] ps = (ps, [])
  | [], _ => rfl
  | p :: ps, h => by
    obtain ⟨hp, hps⟩ := List.forall_mem_cons.mp h
    rw [groups, hp, if_pos rfl, groups_of_stops stop ps hps, List.nil_append]

/-- **A cut that changes nothing**: the first part does not end the line, or the second is empty. -/
theorem write_append (log : LineLog α) {p q : List α} (h : p.any stop = false ∨ q = []) :
    (log.write c stop p).write c stop q = log.write c stop (p ++ q) := by
  rcases h with hp | rfl
  · rw [write_go_on log hp]
    cases hq : q.any stop with
    | true =>
      rw [write_stop _ hq, write_stop log (by rw [List.any_append, hp, hq]; rfl),
        List.append_assoc]
    | false =>
      rw [write_go_on _ hq, write_go_on log (by rw [List.any_append, hp, hq]; rfl),
        List.append_assoc]
  · rw [write_go_on _ (show ([] : List α).any stop = false from rfl)]
    simp

/-- What is staged can be told from the log after a payload. -/
theorem write_left_inj (hc : 0 < c) {log log' : LineLog α} (he : log.entries = log'.entries)
    (p : List α) : log.write c stop p = log'.write c stop p ↔ log.staged = log'.staged := by
  constructor
  · intro h
    cases hp : p.any stop with
    | false =>
      rw [write_go_on log hp, write_go_on log' hp] at h
      exact List.append_cancel_right (congrArg LineLog.staged h)
    | true =>
      rw [write_stop log hp, write_stop log' hp] at h
      obtain ⟨n, rfl⟩ : ∃ n, c = n + 1 := ⟨c - 1, by omega⟩
      have hent := congrArg LineLog.entries h
      simp only [List.rtake_concat_succ] at hent
      have hlast := (List.append_inj' hent rfl).2
      simp only [List.cons.injEq, and_true] at hlast
      exact List.append_cancel_right hlast
  · intro h
    unfold write
    rw [he, h]

/-- **Cutting a payload.** Two writes do what one does exactly if the first part does not end
the line or the second is empty, and what is staged before is the same. -/
theorem write_cut_iff (hc : 0 < c) {log log' : LineLog α} (he : log.entries = log'.entries)
    (p q : List α) : log.write c stop (p ++ q) = (log'.write c stop p).write c stop q ↔
      (p.any stop = false ∨ q = []) ∧ log.staged = log'.staged := by
  by_cases hcut : p.any stop = false ∨ q = []
  · rw [write_append log' hcut, write_left_inj hc he]
    exact (and_iff_right hcut).symm
  · refine iff_of_false (fun h => ?_) fun h => hcut h.1
    obtain ⟨hp, hq⟩ := not_or.mp hcut
    rw [Bool.not_eq_false] at hp
    rw [write_stop log (show (p ++ q).any stop = true by rw [List.any_append, hp]; rfl),
      write_stop log' hp] at h
    cases hqs : q.any stop with
    | false =>
      rw [write_go_on _ hqs] at h
      exact hq (congrArg LineLog.staged h).symm
    | true =>
      -- both logs end in what the last write committed, so that would be the same line
      rw [write_stop _ hqs] at h
      obtain ⟨n, rfl⟩ : ∃ n, c = n + 1 := ⟨c - 1, by omega⟩
      have hent := congrArg LineLog.entries h
      simp only [List.rtake_concat_succ, List.nil_append] at hent
      have hlast := (List.append_inj' hent rfl).2
      simp only [List.cons.injEq, and_true] at hlast
      have hlen := congrArg List.length hlast
      simp only [List.length_append] at hlen
      have hnil : p = [] := List.eq_nil_of_length_eq_zero (by omega)
      rw [hnil] at hp
      cases hp

end LineLog

end Infra

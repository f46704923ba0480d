import Aesd.Server.Contract

/-!
# How `application` keeps its list

`application` and the functions it calls, followed with the picture of the list alone: what each
of them needs of the list, and what it leaves.
-/

namespace Aesd.Server

open Infra Prog View

variable {β α : Type} {joinFails : Bool} {v : Picture} {Q : α → Picture → Prop}

/-! ## Single calls -/

theorem wp_getFirst {k : Option Nat → ServerProg β α}
    (h : (mainView joinFails).wp (k v.first) Q v) :
    (mainView joinFails).wp (.call .getFirst k) Q v :=
  ⟨trivial, fun _ hr => hr ▸ h⟩

theorem wp_setFirst {first : Option Nat} {k : Unit → ServerProg β α}
    (h : (mainView joinFails).wp (k ()) Q { v with first := first }) :
    (mainView joinFails).wp (.call (.setFirst first) k) Q v :=
  ⟨trivial, fun _ _ => h⟩

theorem wp_getNext {n : Nat} {next : Option Nat} {k : Option Nat → ServerProg β α}
    (hn : v.next n = some next) (h : (mainView joinFails).wp (k next) Q v) :
    (mainView joinFails).wp (.call (.getNext n) k) Q v := by
  refine ⟨⟨next, hn⟩, fun r hr => ?_⟩
  obtain rfl : next = r := Option.some.inj (hn.symm.trans hr)
  exact h

theorem wp_setNext {n : Nat} {next : Option Nat} {k : Unit → ServerProg β α}
    (hn : v.allocated n = true)
    (h : (mainView joinFails).wp (k ()) Q { v with next := Function.update v.next n (some next) }) :
    (mainView joinFails).wp (.call (.setNext n next) k) Q v :=
  ⟨hn, fun _ _ => h⟩

theorem wp_getThread {n thread : Nat} {k : Nat → ServerProg β α} (hn : v.thread n = some thread)
    (h : (mainView joinFails).wp (k thread) Q v) :
    (mainView joinFails).wp (.call (.getThread n) k) Q v := by
  refine ⟨⟨thread, hn⟩, fun r hr => ?_⟩
  obtain rfl : thread = r := Option.some.inj (hn.symm.trans hr)
  exact h

theorem wp_getThreadStatus {n : Nat} {k : ThreadStatus → ServerProg β α}
    (hn : v.allocated n = true)
    (h : ∀ status, (mainView joinFails).wp (k status) Q
      { v with book := v.book.see n status }) :
    (mainView joinFails).wp (.call (.getThreadStatus n) k) Q v :=
  ⟨hn, fun status _ => h status⟩

theorem wp_mallocNode {clientFd : Int} {k : Nat → ServerProg β α}
    (h : (mainView joinFails).wp (k v.fresh) Q
      { v with
        allocated := Function.update v.allocated v.fresh true
        thread := Function.update v.thread v.fresh none
        next := Function.update v.next v.fresh none
        fresh := v.fresh + 1 }) :
    (mainView joinFails).wp (.call (.mallocNode clientFd) k) Q v :=
  ⟨trivial, fun _ hr => hr ▸ h⟩

theorem wp_pthreadCreate {n : Nat} {k : Int × Nat → ServerProg β α} (hn : v.allocated n = true)
    (hnew : n ∉ v.book.created)
    (hok : (mainView joinFails).wp (k (0, n)) Q { v with book := v.book.create n 0 })
    (herror : ∀ r, r.1 ≠ 0 → (mainView joinFails).wp (k r) Q { v with book := v.book.fail }) :
    (mainView joinFails).wp (.call (.pthreadCreate n) k) Q v := by
  refine ⟨⟨hn, hnew⟩, fun r hr => ?_⟩
  obtain ⟨result, thread⟩ := r
  by_cases h0 : result = 0
  · obtain rfl : thread = n := hr h0
    subst h0
    exact hok
  · have hbook : v.book.create n result = v.book.fail := if_neg h0
    show (mainView joinFails).wp (k (result, thread)) Q { v with book := v.book.create n result }
    rw [hbook]
    exact herror (result, thread) h0

/-! ## `SLIST_REMOVE` -/

/-- The search ends at the node before `n`, and each round takes it one node further. -/
theorem wp_slistSearch {n : Nat} {b : List Nat} {Q : Nat → Picture → Prop} :
    ∀ {y x : List Nat} {c rounds : Nat}, Chain v.next v.first (x ++ c :: (y ++ n :: b)) →
      (x ++ c :: (y ++ n :: b)).Nodup → y.length < rounds →
      (∀ a m, x ++ c :: y = a ++ [m] → Q m v) →
      (mainView joinFails).wp (iter (slistSearchRound n) rounds (some c) : ServerProg β Nat) Q v
  | [], x, c, rounds + 1, hchain, _, _, hQ => by
    rw [slistSearch_succ]
    refine wp_getNext hchain.link_eq ?_
    rw [List.nil_append, List.head?_cons, if_pos rfl]
    exact hQ x c rfl
  | d :: y, x, c, rounds + 1, hchain, hnodup, hlen, hQ => by
    have hdn : ¬some d = some n := by
      rintro ⟨⟩
      simp [List.nodup_append] at hnodup
    rw [slistSearch_succ]
    refine wp_getNext hchain.link_eq ?_
    rw [List.cons_append, List.head?_cons, if_neg hdn]
    refine wp_getNext hchain.link_eq ?_
    rw [List.cons_append, List.head?_cons]
    have hsplit : x ++ c :: (d :: y ++ n :: b) = (x ++ [c]) ++ d :: (y ++ n :: b) := by simp
    rw [hsplit] at hchain hnodup
    refine wp_slistSearch hchain hnodup (Nat.lt_of_succ_lt_succ hlen) fun a m ham => hQ a m ?_
    rw [← ham, List.append_assoc]
    rfl

/-- **`SLIST_REMOVE`** takes `n` out of the list, wherever it is. -/
theorem wp_slistRemove {rounds n : Nat} {a b : List Nat} {Q : Unit → Picture → Prop}
    (hchain : Chain v.next v.first (a ++ n :: b)) (hnodup : (a ++ n :: b).Nodup)
    (halloc : ∀ m ∈ a, v.allocated m = true) (hlen : a.length ≤ rounds)
    (hQ : ∀ next first, Chain next first (a ++ b) → Q () { v with next := next, first := first }) :
    (mainView joinFails).wp (slistRemove rounds n : ServerProg β Unit) Q v := by
  rw [slistRemove_eq]
  refine wp_getFirst ?_
  cases a with
  | nil =>
    rw [List.nil_append] at hchain
    have hfirst : v.first = some n := hchain.head
    rw [if_pos hfirst, slistRemoveHead_eq]
    refine wp_getFirst ?_
    rw [hfirst]
    exact wp_getNext (hchain.link_eq (a := [])) (wp_setFirst (hQ _ _ (hchain.suffix (a := [n]))))
  | cons c a =>
    have hfirst : v.first = some c := hchain.head
    have hcn : ¬v.first = some n := by
      rw [hfirst]
      rintro ⟨⟩
      simp at hnodup
    rw [if_neg hcn]
    refine wp_getFirst ?_
    rw [hfirst]
    refine wp_bind (wp_slistSearch (x := []) hchain hnodup hlen fun a' m ham => ?_)
    rw [List.nil_append] at ham
    have hsplit : (c :: a) ++ n :: b = a' ++ m :: n :: b := by
      rw [ham, List.append_assoc]
      rfl
    have hsplit' : (a' ++ [m]) ++ n :: b = a' ++ m :: n :: b := by simp
    rw [hsplit] at hchain hnodup
    rw [slistRemoveAfter_eq]
    refine wp_getNext hchain.link_eq ?_
    rw [List.head?_cons]
    refine wp_getNext (hsplit' ▸ hchain).link_eq ?_
    refine wp_setNext (halloc m (by rw [ham]; simp)) (hQ _ _ ?_)
    rw [ham, List.append_assoc]
    exact hchain.removeAfter hnodup

/-! ## Taking a thread out -/

/-- Something happened for which `application` should return `-1`. -/
def Book.Trouble (b : Book) : Prop := b.reported = true ∨ b.failures ≠ []

/-- Every thread that was seen as `FAILED` was joined, or there was an error. -/
def Book.Settled (b : Book) : Prop := ∀ n ∈ b.failures, n ∈ b.joined ∨ b.reported = true

theorem erase_middle {a b : List Nat} {n : Nat} (h : (a ++ n :: b).Nodup) :
    (a ++ n :: b).erase n = a ++ b := by
  have hn : n ∉ a := by
    rw [List.nodup_append] at h
    exact fun ha => h.2.2 n ha n List.mem_cons_self rfl
  rw [List.erase_append_right _ hn, List.erase_cons_head]

/-- The list without `n`, whose thread was joined and whose node was freed. -/
theorem Tidy.reap (hv : Tidy joinFails v) {n : Nat} {a b : List Nat} {result : Int}
    (hlive : v.book.live = a ++ n :: b) (hresult : joinFails = false → result = 0)
    {next : Nat → Option (Option Nat)} {first : Option Nat} (hchain : Chain next first (a ++ b)) :
    Tidy joinFails
      { allocated := Function.update v.allocated n false
        thread := Function.update v.thread n none
        next := Function.update next n none
        fresh := v.fresh
        first := first
        book := (v.book.join n result).free n } := by
  have hnodup := hlive ▸ hv.nodup
  have herase : v.book.live.erase n = a ++ b := by rw [hlive, erase_middle hnodup]
  have hmem : ∀ m, m ∈ v.book.live.erase n ↔ m ≠ n ∧ m ∈ v.book.live := fun m =>
    hv.nodup.mem_erase_iff
  have hn : n ∈ v.book.live := by simp [hlive]
  obtain ⟨hcreated, hjoined, hfreed⟩ := hv.live n hn
  refine ⟨?_, hv.nodup.erase n, fun m => ?_, fun m hm => ?_, fun m hm => ?_, fun m hm => ?_,
    ⟨?_, fun m hm => ?_⟩, List.nodup_cons.mpr ⟨hfreed, hv.freed.1⟩, fun m hm => ?_⟩
  · show Chain (Function.update next n none) first (v.book.live.erase n)
    rw [herase]
    refine hchain.congr fun m hm => ?_
    rw [← herase, hmem] at hm
    exact Function.update_of_ne hm.1 ..
  · show Function.update v.allocated n false m = true ↔ m ∈ v.book.live.erase n
    rw [hmem, ← hv.allocated m]
    by_cases hmn : m = n
    · simp [hmn]
    · simp [hmn]
  · obtain ⟨hmn, hm⟩ := (hmem m).mp hm
    exact (Function.update_of_ne hmn ..).trans (hv.thread m hm)
  · obtain ⟨hmn, hm⟩ := (hmem m).mp hm
    obtain ⟨h₁, h₂, h₃⟩ := hv.live m hm
    refine ⟨h₁, fun h => ?_, fun h => ?_⟩
    · rcases Book.mem_join.mp h with ⟨-, h⟩ | h
      · exact hmn h
      · exact h₂ h
    · rcases List.mem_cons.mp h with h | h
      · exact hmn h
      · exact h₃ h
  · obtain ⟨hlt, hcases⟩ := hv.created m hm
    refine ⟨hlt, ?_⟩
    by_cases hmn : m = n
    · refine Or.inr ⟨by rw [hmn]; exact List.mem_cons_self, ?_⟩
      by_cases hr : result = 0
      · exact Or.inl (Book.mem_join.mpr (Or.inl ⟨hr, hmn⟩))
      · have hjf : joinFails = true := by
          by_contra hj
          exact hr (hresult (Bool.eq_false_iff.mpr hj))
        exact Or.inr ⟨hjf, by simp [Book.join, Book.free, hr]⟩
    · rcases hcases with hm' | ⟨hf, hj | ⟨hjf, hrep⟩⟩
      · exact Or.inl ((hmem m).mpr ⟨hmn, hm'⟩)
      · exact Or.inr ⟨List.mem_cons_of_mem _ hf, Or.inl (Book.mem_join.mpr (Or.inr hj))⟩
      · exact Or.inr ⟨List.mem_cons_of_mem _ hf, Or.inr ⟨hjf, by simp [Book.join, Book.free, hrep]⟩⟩
  · show (if result = 0 then n :: v.book.joined else v.book.joined).Nodup
    split
    · exact List.nodup_cons.mpr ⟨hjoined, hv.joined.1⟩
    · exact hv.joined.1
  · rcases Book.mem_join.mp hm with ⟨-, rfl⟩ | hm
    · exact hcreated
    · exact hv.joined.2 m hm
  · rcases List.mem_cons.mp hm with rfl | hm
    · exact (hv.created m hcreated).1
    · exact hv.freed.2 m hm

/-- **A node is taken out**: its thread is joined first, and it is freed last. -/
theorem wp_joinThread (hv : Tidy joinFails v) {rounds n : Nat} {a b : List Nat}
    {Q : Bool → Picture → Prop} (hlive : v.book.live = a ++ n :: b) (hlen : a.length ≤ rounds)
    (hQ : ∀ result v', Tidy joinFails v' → v'.book = (v.book.join n result).free n →
      Q (decide (result ≠ 0)) v') :
    (mainView joinFails).wp (joinThread rounds n : ServerProg β Bool) Q v := by
  have hn : n ∈ v.book.live := by simp [hlive]
  obtain ⟨hcreated, hjoined, hfreed⟩ := hv.live n hn
  rw [joinThread_eq]
  refine wp_getThread (hv.thread n hn) ⟨⟨hcreated, hjoined⟩, fun result hresult => wp_bind ?_⟩
  refine wp_slistRemove (hlive ▸ hv.chain) (hlive ▸ hv.nodup)
    (fun m hm => (hv.allocated m).mpr (by simp [hlive, hm])) hlen fun next first hchain => ?_
  refine ⟨⟨(hv.allocated n).mpr hn, hfreed, fun hjf _ => ?_⟩, fun _ _ => ?_⟩
  · exact Book.mem_join.mpr (Or.inl ⟨hresult hjf, rfl⟩)
  · exact hQ result _ (hv.reap hlive hresult hchain) rfl

theorem Book.trouble_reap (b : Book) (n : Nat) (result : Int) :
    ((b.join n result).free n).Trouble ↔ b.Trouble ∨ decide (result ≠ 0) = true := by
  show (b.reported || result != 0) = true ∨ b.failures ≠ [] ↔ _
  simp only [Trouble, Bool.or_eq_true, bne_iff_ne, decide_eq_true_eq]
  tauto

theorem Book.trouble_see (b : Book) (n : Nat) (status : ThreadStatus) :
    (b.see n status).Trouble ↔ b.Trouble ∨ status = .failed := by
  show b.reported = true ∨ (if status = .failed then n :: b.failures else b.failures) ≠ [] ↔ _
  by_cases h : status = .failed <;> simp [Trouble, h]

/-- The thread that is taken out is the only one that may have been left open. -/
theorem Book.settled_reap {b : Book} {n : Nat} (result : Int)
    (h : ∀ m ∈ b.failures, m = n ∨ m ∈ b.joined ∨ b.reported = true) :
    ((b.join n result).free n).Settled := by
  intro m hm
  by_cases hr : result = 0
  · rcases h m hm with hmn | hj | hrep
    · exact Or.inl (Book.mem_join.mpr (Or.inl ⟨hr, hmn⟩))
    · exact Or.inl (Book.mem_join.mpr (Or.inr hj))
    · exact Or.inr (by simp [Book.join, Book.free, hrep])
  · exact Or.inr (by simp [Book.join, Book.free, hr])

/-! ## The loops over the list -/

/-- In `slist_join_completed_threads`, with the nodes `a` behind it and `rest` before it. -/
structure Walking (joinFails : Bool) (trouble : Prop) (a rest : List Nat) (isError : Bool)
    (v : Picture) : Prop where
  tidy : Tidy joinFails v
  settled : v.book.Settled
  live : v.book.live = a ++ rest
  connection : v.book.connection = some 2
  before : v.book.before = v.book.seen.map Prod.fst ++ rest
  kept : (v.book.seen.filter fun x => !x.2.isDone).map Prod.fst = a
  trouble : v.book.Trouble ↔ trouble ∨ isError = true

theorem Tidy.see (hv : Tidy joinFails v) (n : Nat) (status : ThreadStatus) :
    Tidy joinFails { v with book := v.book.see n status } :=
  ⟨hv.chain, hv.nodup, hv.allocated, hv.thread, hv.live, hv.created, hv.joined, hv.freed⟩

/-- A node that is not done stays. -/
theorem Walking.keep {T : Prop} {a rest : List Nat} {n : Nat} {isError : Bool}
    {status : ThreadStatus} (h : Walking joinFails T a (n :: rest) isError v)
    (hs : status.isDone = false) :
    Walking joinFails T (a ++ [n]) rest isError { v with book := v.book.see n status } := by
  have hfailed : status ≠ .failed := by
    rintro rfl
    cases hs
  refine ⟨h.tidy.see n status, ?_, ?_, h.connection, ?_, ?_, ?_⟩
  · intro m hm
    rcases Book.mem_see.mp hm with ⟨hc, -⟩ | hm
    · exact absurd hc hfailed
    · exact h.settled m hm
  · show v.book.live = _
    rw [h.live, List.append_assoc]
    rfl
  · show v.book.before = (v.book.seen ++ [(n, status)]).map Prod.fst ++ rest
    rw [h.before, List.map_append, List.append_assoc]
    rfl
  · show ((v.book.seen ++ [(n, status)]).filter fun x => !x.2.isDone).map Prod.fst = _
    simp [List.filter_append, hs, h.kept]
  · show (v.book.see n status).Trouble ↔ _
    rw [Book.trouble_see, h.trouble]
    simp [hfailed]

/-- A node that is done goes. -/
theorem Walking.reap {T : Prop} {a rest : List Nat} {n : Nat} {isError : Bool}
    {status : ThreadStatus} (h : Walking joinFails T a (n :: rest) isError v)
    (hs : status.isDone = true) {v' : Picture} {result : Int} (htidy : Tidy joinFails v')
    (hbook : v'.book = ((v.book.see n status).join n result).free n) :
    Walking joinFails T a rest
      (isError || decide (result ≠ 0) || decide (status = .failed)) v' := by
  refine ⟨htidy, ?_, ?_, ?_, ?_, ?_, ?_⟩
  · rw [hbook]
    refine Book.settled_reap result fun m hm => ?_
    rcases Book.mem_see.mp hm with ⟨-, hmn⟩ | hm
    · exact Or.inl hmn
    · exact Or.inr (h.settled m hm)
  · rw [hbook]
    show v.book.live.erase n = _
    have hnodup := h.tidy.nodup
    rw [h.live] at hnodup ⊢
    exact erase_middle hnodup
  · rw [hbook]
    exact h.connection
  · rw [hbook]
    show v.book.before = (v.book.seen ++ [(n, status)]).map Prod.fst ++ rest
    rw [h.before, List.map_append, List.append_assoc]
    rfl
  · rw [hbook]
    show ((v.book.seen ++ [(n, status)]).filter fun x => !x.2.isDone).map Prod.fst = _
    simp [List.filter_append, hs, h.kept]
  · rw [hbook, Book.trouble_reap, Book.trouble_see, h.trouble]
    simp only [Bool.or_eq_true, decide_eq_true_eq]
    tauto

/-- The walk of `slist_join_completed_threads`, by induction on what is before it. -/
theorem wp_slistJoinCompleted {T : Prop} {rounds : Nat} {Q : Bool → Picture → Prop} :
    ∀ {rest a : List Nat} {isError : Bool} {n : Nat} {v : Picture},
      Walking joinFails T a rest isError v → rest.length < n → (a ++ rest).length ≤ rounds →
      (∀ a' isError' v', Walking joinFails T a' [] isError' v' →
        a'.length ≤ (a ++ rest).length → Q isError' v') →
      (mainView joinFails).wp
        (iter (slistJoinCompletedRound rounds) n (rest.head?, isError) : ServerProg β Bool) Q v
  | [], a, isError, n + 1, v, h, _, _, hQ => hQ a isError v h (by simp)
  | m :: rest, a, isError, n + 1, v, h, hn, hlen, hQ => by
    have hmem : m ∈ v.book.live := by simp [h.live]
    have hrest : rest.length < n := Nat.lt_of_succ_lt_succ hn
    have halen : a.length ≤ rounds := by
      rw [List.length_append] at hlen
      omega
    rw [List.head?_cons, slistJoinCompleted_succ]
    refine wp_getNext (h.live ▸ h.tidy.chain).link_eq ?_
    refine wp_getThreadStatus ((h.tidy.allocated m).mpr hmem) fun status => ?_
    cases hs : status.isDone with
    | false =>
      rw [if_neg Bool.false_ne_true]
      refine wp_slistJoinCompleted (h.keep hs) hrest ?_ fun a' isError' v' h' ha' => ?_
      · simpa using hlen
      · exact hQ a' isError' v' h' (by simpa using ha')
    | true =>
      rw [if_pos rfl]
      refine wp_bind (wp_joinThread (h.tidy.see m status) h.live halen
        fun result v' htidy hbook => ?_)
      refine wp_slistJoinCompleted (h.reap hs htidy hbook) hrest ?_ fun a' isError' v'' h' ha' => ?_
      · simp only [List.length_append, List.length_cons] at hlen ⊢
        omega
      · refine hQ a' isError' v'' h' ?_
        simp only [List.length_append, List.length_cons] at ha' ⊢
        omega

/-- **`slist_join_completed_threads`**, after a timeout. -/
theorem wp_slistJoinCompletedThreads (hv : Tidy joinFails v) (hsettled : v.book.Settled)
    (hconn : v.book.connection = some 2) (hbefore : v.book.before = v.book.live)
    (hseen : v.book.seen = []) {rounds : Nat} (hlen : v.book.live.length < rounds)
    {Q : Bool → Picture → Prop}
    (hQ : ∀ a isError v', Walking joinFails v.book.Trouble a [] isError v' →
      a.length ≤ v.book.live.length → Q isError v') :
    (mainView joinFails).wp (slistJoinCompletedThreads rounds : ServerProg β Bool) Q v := by
  have hw : Walking joinFails v.book.Trouble [] v.book.live false v :=
    ⟨hv, hsettled, rfl, hconn, by rw [hseen, hbefore]; rfl, by rw [hseen]; rfl, by simp⟩
  refine wp_getFirst ?_
  rw [hv.chain.head]
  exact wp_slistJoinCompleted hw hlen (by simpa using hlen.le) hQ

/-- The walk of `slist_join_threads`, by induction on what is left of the list. -/
theorem wp_slistJoin {T : Prop} {rounds : Nat} {Q : Bool → Picture → Prop}
    (hQ : ∀ isError v', Tidy joinFails v' → v'.book.Settled → v'.book.live = [] →
      (v'.book.Trouble ↔ T ∨ isError = true) → Q isError v') :
    ∀ {rest : List Nat} {isError : Bool} {n : Nat} {v : Picture}, Tidy joinFails v →
      v.book.Settled → v.book.live = rest → (v.book.Trouble ↔ T ∨ isError = true) →
      rest.length < n → (mainView joinFails).wp
        (iter (slistJoinRound rounds) n (rest.head?, isError) : ServerProg β Bool) Q v
  | [], isError, n + 1, v, hv, hsettled, hlive, htrouble, _ =>
    hQ isError v hv hsettled hlive htrouble
  | m :: rest, isError, n + 1, v, hv, hsettled, hlive, htrouble, hn => by
    have hchain := hv.chain
    have hnodup := hv.nodup
    rw [hlive] at hchain hnodup
    rw [List.head?_cons, slistJoin_succ]
    refine wp_getNext (hchain.link_eq (a := [])) (wp_bind ?_)
    refine wp_joinThread hv (a := []) hlive (Nat.zero_le _) fun result v' htidy hbook => ?_
    refine wp_slistJoin hQ htidy ?_ ?_ ?_ (Nat.lt_of_succ_lt_succ hn)
    · rw [hbook]
      exact Book.settled_reap result fun k hk => Or.inr (hsettled k hk)
    · rw [hbook]
      show v.book.live.erase m = rest
      rw [hlive, List.erase_cons_head]
    · rw [hbook, Book.trouble_reap, htrouble, Bool.or_eq_true, or_assoc]

/-- **`slist_join_threads`** leaves an empty list. -/
theorem wp_slistJoinThreads (hv : Tidy joinFails v) (hsettled : v.book.Settled) {rounds : Nat}
    (hlen : v.book.live.length < rounds) {Q : Bool → Picture → Prop}
    (hQ : ∀ isError v', Tidy joinFails v' → v'.book.Settled → v'.book.live = [] →
      (v'.book.Trouble ↔ v.book.Trouble ∨ isError = true) → Q isError v') :
    (mainView joinFails).wp (slistJoinThreads rounds : ServerProg β Bool) Q v := by
  refine wp_getFirst ?_
  rw [hv.chain.head]
  exact wp_slistJoin hQ hv hsettled rfl (by simp) hlen

/-- **`slist_free`** has nothing left to do then. -/
theorem wp_slistFree {rounds : Nat} {Q : Unit → Picture → Prop} (hfirst : v.first = none)
    (h : Q () v) : (mainView joinFails).wp (slistFree (rounds + 1) : ServerProg β Unit) Q v := by
  unfold slistFree
  rw [iter_succ]
  unfold slistFreeRound
  refine wp_bind (wp_getFirst ?_)
  rw [hfirst]
  exact h

/-! ## `application` -/

/-- At the head of the loop. -/
structure Looping (joinFails : Bool) (applicationResult : Int) (v : Picture) : Prop where
  tidy : Tidy joinFails v
  walked : Walked v.book
  settled : v.book.Settled
  trouble : applicationResult = -1 ↔ v.book.Trouble
  range : applicationResult = 0 ∨ applicationResult = -1

theorem Tidy.connect (hv : Tidy joinFails v) (result : Int) :
    Tidy joinFails { v with book := v.book.connect result } := by
  refine ⟨hv.chain, hv.nodup, hv.allocated, hv.thread, hv.live, fun n hn => ?_, hv.joined,
    hv.freed⟩
  obtain ⟨hlt, hcases⟩ := hv.created n hn
  refine ⟨hlt, hcases.imp_right fun ⟨hf, hj⟩ => ⟨hf, hj.imp_right fun ⟨hjf, hr⟩ => ⟨hjf, ?_⟩⟩⟩
  show (v.book.reported || result == -1) = true
  rw [hr, Bool.true_or]

/-- A number that was not handed out so far is nowhere in the book. -/
theorem Tidy.fresh_not_mem (hv : Tidy joinFails v) :
    v.fresh ∉ v.book.created ∧ v.fresh ∉ v.book.live ∧ v.fresh ∉ v.book.freed := by
  have hc : v.fresh ∉ v.book.created := fun h => Nat.lt_irrefl _ (hv.created _ h).1
  exact ⟨hc, fun h => hc (hv.live _ h).1, fun h => Nat.lt_irrefl _ (hv.freed.2 _ h)⟩

/-- A node whose thread was created is the first of the list. -/
theorem Tidy.insert (hv : Tidy joinFails v) :
    Tidy joinFails
      { allocated := Function.update v.allocated v.fresh true
        thread := Function.update (Function.update v.thread v.fresh none) v.fresh (some v.fresh)
        next := Function.update (Function.update v.next v.fresh none) v.fresh (some v.first)
        fresh := v.fresh + 1
        first := some v.fresh
        book := v.book.create v.fresh 0 } := by
  obtain ⟨hc, hl, hf⟩ := hv.fresh_not_mem
  have hj : v.fresh ∉ v.book.joined := fun h => hc (hv.joined.2 _ h)
  rw [Function.update_idem, Function.update_idem]
  refine ⟨hv.chain.insertHead hl, List.nodup_cons.mpr ⟨hl, hv.nodup⟩, fun n => ?_, fun n hn => ?_,
    fun n hn => ?_, fun n hn => ?_, ⟨hv.joined.1, fun n hn => ?_⟩, hv.freed.1, fun n hn => ?_⟩
  · show Function.update v.allocated v.fresh true n = true ↔ n ∈ v.fresh :: v.book.live
    by_cases hn : n = v.fresh
    · simp [hn]
    · simp [hn, hv.allocated n]
  · show Function.update v.thread v.fresh (some v.fresh) n = some n
    rcases List.mem_cons.mp hn with rfl | hn
    · simp
    · rw [Function.update_of_ne (ne_of_mem_of_not_mem hn hl), hv.thread n hn]
  · rcases List.mem_cons.mp hn with rfl | hn
    · exact ⟨List.mem_cons_self, hj, hf⟩
    · obtain ⟨h₁, h₂⟩ := hv.live n hn
      exact ⟨List.mem_cons_of_mem _ h₁, h₂⟩
  · rcases List.mem_cons.mp hn with rfl | hn
    · exact ⟨Nat.lt_succ_self _, Or.inl List.mem_cons_self⟩
    · obtain ⟨hlt, hcases⟩ := hv.created n hn
      exact ⟨Nat.lt_succ_of_lt hlt, hcases.imp_left (List.mem_cons_of_mem _)⟩
  · exact List.mem_cons_of_mem _ (hv.joined.2 n hn)
  · exact Nat.lt_succ_of_lt (hv.freed.2 n hn)

/-- A node for which there is no thread is freed again. -/
theorem Tidy.abandon (hv : Tidy joinFails v) :
    Tidy joinFails
      { allocated := Function.update (Function.update v.allocated v.fresh true) v.fresh false
        thread := Function.update (Function.update v.thread v.fresh none) v.fresh none
        next := Function.update (Function.update v.next v.fresh none) v.fresh none
        fresh := v.fresh + 1
        first := v.first
        book := v.book.fail.free v.fresh } := by
  obtain ⟨hc, hl, hf⟩ := hv.fresh_not_mem
  rw [Function.update_idem, Function.update_idem, Function.update_idem]
  refine ⟨?_, hv.nodup, fun n => ?_, fun n hn => ?_, fun n hn => ?_, fun n hn => ?_, hv.joined,
    List.nodup_cons.mpr ⟨hf, hv.freed.1⟩, fun n hn => ?_⟩
  · exact hv.chain.congr fun n hn => Function.update_of_ne (ne_of_mem_of_not_mem hn hl) ..
  · show Function.update v.allocated v.fresh false n = true ↔ n ∈ v.book.live
    by_cases hn : n = v.fresh
    · simp [hn, hl]
    · simp [hn, hv.allocated n]
  · show Function.update v.thread v.fresh none n = some n
    rw [Function.update_of_ne (ne_of_mem_of_not_mem hn hl), hv.thread n hn]
  · obtain ⟨h₁, h₂, h₃⟩ := hv.live n hn
    refine ⟨h₁, h₂, fun h => ?_⟩
    rcases List.mem_cons.mp h with rfl | h
    · exact hl hn
    · exact h₃ h
  · obtain ⟨hlt, hcases⟩ := hv.created n hn
    refine ⟨Nat.lt_succ_of_lt hlt, hcases.imp_right fun ⟨hf', hj⟩ => ?_⟩
    exact ⟨List.mem_cons_of_mem _ hf', hj.imp_right fun ⟨hjf, _⟩ => ⟨hjf, rfl⟩⟩
  · rcases List.mem_cons.mp hn with rfl | hn
    · exact Nat.lt_succ_self _
    · exact Nat.lt_succ_of_lt (hv.freed.2 n hn)

/-- **A connection is created**: there is a thread for it in the list, or an error. -/
theorem wp_startThread (hv : Tidy joinFails v) {applicationResult clientSocket : Int}
    {Q : Int → Picture → Prop}
    (hok : ∀ v', Tidy joinFails v' → v'.book = v.book.create v.fresh 0 → Q applicationResult v')
    (herror : ∀ v', Tidy joinFails v' → v'.book = v.book.fail.free v.fresh → Q (-1) v') :
    (mainView joinFails).wp (startThread applicationResult clientSocket : ServerProg β Int) Q
      v := by
  obtain ⟨hc, -, hf⟩ := hv.fresh_not_mem
  rw [startThread_eq]
  refine wp_mallocNode (wp_pthreadCreate (Function.update_self ..) hc ?_ fun r hr => ?_)
  · rw [if_neg (fun h => h rfl)]
    refine ⟨Function.update_self .., fun _ _ => wp_bind ?_⟩
    rw [slistInsertHead_eq]
    refine wp_getFirst (wp_setNext (Function.update_self ..) (wp_setFirst ?_))
    exact hok _ hv.insert rfl
  · rw [if_pos hr]
    refine ⟨⟨Function.update_self .., hf, fun _ hcreated => absurd hcreated hc⟩, fun _ _ => ?_⟩
    refine ⟨trivial, fun _ _ => ⟨trivial, fun _ _ => ?_⟩⟩
    exact herror _ hv.abandon rfl

theorem Book.trouble_connect (b : Book) (result : Int) :
    (b.connect result).Trouble ↔ b.Trouble ∨ result = -1 := by
  show (b.reported || result == -1) = true ∨ b.failures ≠ [] ↔ _
  simp only [Trouble, Bool.or_eq_true, beq_iff_eq]
  tauto

theorem Book.Settled.connect {b : Book} (h : b.Settled) (result : Int) :
    (b.connect result).Settled := by
  intro n hn
  refine (h n hn).imp_right fun hr => ?_
  show (b.reported || result == -1) = true
  rw [hr, Bool.true_or]

/-- Another round after an error. -/
theorem Looping.error (htidy : Tidy joinFails v) (hwalked : Walked v.book)
    (hsettled : v.book.Settled) (htrouble : v.book.Trouble) : Looping joinFails (-1) v :=
  ⟨htidy, hwalked, hsettled, ⟨fun _ => htrouble, fun _ => rfl⟩, Or.inr rfl⟩

/-- A connection attempt that leaves the list alone. -/
theorem Looping.connect {applicationResult : Int} (h : Looping joinFails applicationResult v)
    {r : Int} (hr : r ≠ 2) (herror : r ≠ -1) :
    Looping joinFails applicationResult { v with book := v.book.connect r } := by
  refine ⟨h.tidy.connect r, fun hc => absurd (Option.some.inj hc) hr, h.settled.connect r, ?_,
    h.range⟩
  rw [h.trouble]
  show v.book.Trouble ↔ (v.book.connect r).Trouble
  rw [Book.trouble_connect]
  simp [herror]

/-- **A round of the loop.** -/
theorem wp_applicationRound {applicationResult : Int} (h : Looping joinFails applicationResult v)
    {rounds : Nat} (hlen : v.book.live.length < rounds) {Q : Int → Picture → Prop}
    (hQ : ∀ result v', Looping joinFails result v' →
      v'.book.live.length ≤ v.book.live.length + 1 → Q result v') :
    (mainView joinFails).wp (applicationRound rounds applicationResult : ServerProg β Int) Q v := by
  rw [applicationRound_eq]
  refine ⟨⟨h.tidy, h.walked⟩, fun r _ => ?_⟩
  show (mainView joinFails).wp _ Q { v with book := v.book.connect r.1 }
  have htidy := h.tidy.connect r.1
  have hsettled := h.settled.connect r.1
  have htrouble := Book.trouble_connect v.book r.1
  dsimp only
  by_cases herror : r.1 = -1
  · rw [if_pos herror]
    refine ⟨trivial, fun _ _ => ⟨trivial, fun _ _ => hQ (-1) _ ?_ (Nat.le_succ _)⟩⟩
    refine Looping.error htidy (fun hc => ?_) hsettled (htrouble.mpr (Or.inr herror))
    rw [Option.some.inj hc] at herror
    cases herror
  rw [if_neg herror]
  by_cases hcreated : r.1 = 0
  · rw [if_pos hcreated]
    have hnot : r.1 ≠ 2 := by rw [hcreated]; decide
    refine wp_startThread htidy (fun v' htidy' hbook => ?_) fun v' htidy' hbook => ?_
    · have hconn := h.connect hnot herror
      refine hQ applicationResult v' ⟨htidy', ?_, ?_, ?_, h.range⟩ ?_
      · rw [hbook]
        exact fun hc => absurd (Option.some.inj hc) hnot
      · rw [hbook]
        exact hconn.settled
      · rw [hbook]
        exact hconn.trouble
      · rw [hbook]
        exact Nat.le_refl _
    · refine hQ (-1) v' (Looping.error htidy' ?_ ?_ ?_) ?_
      · rw [hbook]
        exact fun hc => absurd (Option.some.inj hc) hnot
      · rw [hbook]
        exact fun _ _ => Or.inr rfl
      · rw [hbook]
        exact Or.inl rfl
      · rw [hbook]
        exact Nat.le_succ _
  rw [if_neg hcreated]
  by_cases hexternal : r.1 = 1
  · rw [if_pos hexternal]
    exact hQ applicationResult _ (h.connect (by rw [hexternal]; decide) herror) (Nat.le_succ _)
  rw [if_neg hexternal]
  by_cases htimeout : r.1 = 2
  · rw [if_pos htimeout]
    refine wp_bind (wp_slistJoinCompletedThreads htidy hsettled (congrArg some htimeout) rfl rfl
      hlen fun a isError v' hw ha => ?_)
    have hwalked : Walked v'.book := fun _ => ⟨by rw [hw.before, List.append_nil],
      by rw [hw.live, hw.kept, List.append_nil]⟩
    have hlen' : v'.book.live.length ≤ v.book.live.length + 1 := by
      rw [hw.live, List.append_nil]
      exact Nat.le_succ_of_le ha
    cases isError with
    | true =>
      refine ⟨trivial, fun _ _ => hQ (-1) v' ?_ hlen'⟩
      exact Looping.error hw.tidy hwalked hw.settled (hw.trouble.mpr (Or.inr rfl))
    | false =>
      refine hQ applicationResult v' ⟨hw.tidy, hwalked, hw.settled, ?_, h.range⟩ hlen'
      rw [hw.trouble, h.trouble, htrouble]
      simp [herror]
  · rw [if_neg htimeout]
    exact hQ applicationResult _ (h.connect htimeout herror) (Nat.le_succ _)

/-- **The loop**, by induction on its rounds: there is room for one node in each of them. -/
theorem wp_applicationLoop {rounds : Nat} {Q : Option Int → Picture → Prop}
    (hnone : ∀ v, Q none v)
    (hsome : ∀ result v, Looping joinFails result v → v.book.live.length < rounds →
      Q (some result) v) :
    ∀ {n : Nat} {applicationResult : Int} {v : Picture}, Looping joinFails applicationResult v →
      v.book.live.length + n < rounds → (mainView joinFails).wp
        (applicationLoop rounds n applicationResult : ServerProg β (Option Int)) Q v
  | 0, _, v, _, _ => hnone v
  | n + 1, applicationResult, v, h, hlen => by
    have hroom : v.book.live.length < rounds := by omega
    rw [applicationLoop_succ]
    refine ⟨⟨h.tidy, h.walked⟩, fun terminated _ => ?_⟩
    cases terminated with
    | true => exact hsome applicationResult v h hroom
    | false =>
      refine wp_bind (wp_applicationRound h hroom fun result v' h' hlen' => ?_)
      exact wp_applicationLoop hnone hsome h' (by omega)

/-- What is left when `application` returns: nothing. -/
structure Done (joinFails : Bool) (applicationResult : Int) (v : Picture) : Prop where
  tidy : Tidy joinFails v
  empty : v.book.live = []
  settled : v.book.Settled
  trouble : applicationResult = -1 ↔ v.book.Trouble

/-- **`application`.** -/
theorem wp_application {n : Nat} {v : Picture} (hv : Looping joinFails 0 { v with first := none })
    (hlive : v.book.live = []) : (mainView joinFails).wp (application n : ServerProg β (Option Int))
      (fun result v' => ∀ r, result = some r → Done joinFails r v') v := by
  rw [application_eq]
  refine wp_setFirst (wp_bind (wp_applicationLoop ?_ (fun result v' h hlen => ?_) hv ?_))
  · rintro v' r ⟨⟩
  · dsimp only
    rw [applicationEnd_eq, bind_assoc]
    refine wp_bind (wp_slistJoinThreads h.tidy h.settled hlen
      fun isError v'' htidy hsettled hempty htrouble => ?_)
    have hfirst : v''.first = none := by
      have hchain := htidy.chain
      rwa [hempty] at hchain
    refine wp_bind (wp_bind (wp_slistFree hfirst ?_))
    rintro r ⟨⟩
    refine ⟨htidy, hempty, hsettled, ?_⟩
    rw [htrouble, ← h.trouble]
    cases isError <;> simp
  · show v.book.live.length + n < n + 1
    rw [hlive, List.length_nil]
    omega

end Aesd.Server

import Mathlib.Logic.Function.Basic
import Mathlib.Data.List.Basic

/-!
# Handles that are given out and taken back

Numbered things that are given out, used, and given back, after which the same number may be given
out again: descriptors, slots, tickets. A history is a list of events of any kind; `act` says what
an event does with a handle.

Whether a handle that was given out came back once and no more can be read off the history
(`returns`), or off who holds what (`held`). `returned_once_iff` says that these agree.
-/

namespace Infra

/-! ## Histories -/

/-- `P` holds of every event and of the history before it. -/
def Always {X : Type} (P : List X → X → Prop) (xs : List X) : Prop :=
  ∀ pre x post, xs = pre ++ x :: post → P pre x

theorem always_nil {X : Type} {P : List X → X → Prop} : Always P [] := by
  intro pre x post he
  simp at he

theorem always_cons {X : Type} {P : List X → X → Prop} {xs : List X} {x : X} :
    Always P (x :: xs) ↔ P [] x ∧ Always (fun pre => P (x :: pre)) xs := by
  constructor
  · intro hp
    exact ⟨hp [] x xs rfl, fun pre y post he => hp (x :: pre) y post (by rw [he]; rfl)⟩
  · rintro ⟨hx, hp⟩ pre y post he
    cases pre with
    | nil =>
      cases he
      exact hx
    | cons z pre =>
      obtain ⟨rfl, he'⟩ := List.cons.inj he
      exact hp pre y post he'

theorem always_push {X : Type} {P : List X → X → Prop} {xs : List X} {x : X} :
    Always P (xs ++ [x]) ↔ Always P xs ∧ P xs x := by
  constructor
  · intro hp
    exact ⟨fun pre y post he => hp pre y (post ++ [x]) (by simp [he]), hp xs x [] rfl⟩
  · rintro ⟨hp, hx⟩ pre y post he
    rcases List.eq_nil_or_concat post with rfl | ⟨post', z, rfl⟩
    · obtain ⟨rfl, hy⟩ := List.append_inj' he rfl
      cases hy
      exact hx
    · have he' : xs ++ [x] = (pre ++ y :: post') ++ [z] := by simpa using he
      exact hp pre y post' (List.append_inj' he' rfl).1

/-! ## Handles -/

/-- What an event does. -/
inductive Handling (H : Type) where
  | out (h : H)
  | back (h : H)
  | none
  deriving DecidableEq, Repr

namespace Handling

variable {H X : Type} [DecidableEq H] (act : X → Handling H)

/-- The handles that are out, after one more event. -/
def after (held : H → Bool) (x : X) : H → Bool :=
  match act x with
  | .out h => Function.update held h true
  | .back h => Function.update held h false
  | .none => held

/-- The handles that are out at the end. -/
def held (xs : List X) : H → Bool := xs.foldl (after act) fun _ => false

/-- How often `h` is given back before it is given out again. -/
def returns (h : H) : List X → Nat
  | [] => 0
  | x :: xs =>
    match act x with
    | .out h' => if h' = h then 0 else returns h xs
    | .back h' => if h' = h then returns h xs + 1 else returns h xs
    | .none => returns h xs

/-- Only handles that are not out are given out. -/
def Fresh (xs : List X) : Prop :=
  Always (fun pre x => ∀ h, act x = .out h → held act pre h = false) xs

/-- Only handles that are out are given back. -/
def Owned (xs : List X) : Prop :=
  Always (fun pre x => ∀ h, act x = .back h → held act pre h = true) xs

variable {act}

@[simp] theorem held_nil (h : H) : held act [] h = false := rfl

theorem held_push (xs : List X) (x : X) : held act (xs ++ [x]) = after act (held act xs) x := by
  simp [held]

/-! ## One more event -/

section Push

variable {xs : List X} {x : X} {h : H}

theorem held_push_out (hx : act x = .out h) :
    held act (xs ++ [x]) = Function.update (held act xs) h true := by
  rw [held_push, after, hx]

theorem held_push_back (hx : act x = .back h) :
    held act (xs ++ [x]) = Function.update (held act xs) h false := by
  rw [held_push, after, hx]

theorem held_push_none (hx : act x = .none) : held act (xs ++ [x]) = held act xs := by
  rw [held_push, after, hx]

/-- An event with another handle. -/
theorem held_push_other (hout : act x ≠ .out h) (hback : act x ≠ .back h) :
    held act (xs ++ [x]) h = held act xs h := by
  cases hx : act x with
  | out h' =>
    rw [held_push_out hx]
    exact Function.update_of_ne (fun hc => hout (by rw [hx, hc])) ..
  | back h' =>
    rw [held_push_back hx]
    exact Function.update_of_ne (fun hc => hback (by rw [hx, hc])) ..
  | none => rw [held_push_none hx]

end Push

/-! ## Computed -/

/-- Only handles that are not out are given out, from the handles that are out now. -/
def freshFrom (act : X → Handling H) (held : H → Bool) : List X → Bool
  | [] => true
  | x :: xs =>
    (match act x with
      | .out h => !held h
      | _ => true) && freshFrom act (after act held x) xs

theorem freshFrom_iff : ∀ (xs pre : List X), freshFrom act (held act pre) xs = true ↔
    Always (fun pre' x => ∀ h, act x = .out h → held act (pre ++ pre') h = false) xs
  | [], pre => iff_of_true rfl always_nil
  | x :: xs, pre => by
    have hrest := freshFrom_iff xs (pre ++ [x])
    simp only [List.append_assoc, List.singleton_append] at hrest
    rw [always_cons, ← hrest, freshFrom, Bool.and_eq_true, held_push, List.append_nil]
    refine and_congr_left fun _ => ?_
    cases hx : act x with
    | out h => simp
    | back h => simp
    | none => simp

instance (xs : List X) : Decidable (Fresh act xs) :=
  decidable_of_iff (freshFrom act (held act []) xs = true) (freshFrom_iff xs [])

/-! ## Once and no more -/

section Once

variable {h : H}

theorem returns_out {x : X} {xs : List X} (hx : act x = .out h) : returns act h (x :: xs) = 0 := by
  rw [returns, hx]
  exact if_pos rfl

theorem returns_back {x : X} {xs : List X} (hx : act x = .back h) :
    returns act h (x :: xs) = returns act h xs + 1 := by
  rw [returns, hx]
  exact if_pos rfl

theorem returns_other {x : X} {xs : List X} (hout : act x ≠ .out h) (hback : act x ≠ .back h) :
    returns act h (x :: xs) = returns act h xs := by
  rw [returns]
  cases hx : act x with
  | out h' => exact if_neg fun hc => hout (by rw [hx, hc])
  | back h' => exact if_neg fun hc => hback (by rw [hx, hc])
  | none => rfl

/-- What is not out is not given back. -/
theorem returns_of_not_held : ∀ (post pre : List X), Owned act (pre ++ post) →
    held act pre h = false → returns act h post = 0
  | [], _, _, _ => rfl
  | x :: post, pre, ho, hn => by
    by_cases hout : act x = .out h
    · exact returns_out hout
    · have hback : act x ≠ .back h := by
        intro hc
        rw [ho pre x post rfl h hc] at hn
        cases hn
      rw [returns_other hout hback]
      refine returns_of_not_held post (pre ++ [x]) (by simpa using ho) ?_
      rw [held_push_other hout hback, hn]

/-- What is out comes back once, or nothing happens to it any more. -/
theorem returns_of_held : ∀ (post pre : List X), Fresh act (pre ++ post) →
    Owned act (pre ++ post) → held act pre h = true →
    returns act h post = 1 ∨ ∀ x ∈ post, act x ≠ .out h ∧ act x ≠ .back h
  | [], _, _, _, _ => Or.inr fun x hx => by cases hx
  | x :: post, pre, hf, ho, hheld => by
    have hout : act x ≠ .out h := by
      intro hc
      rw [hf pre x post rfl h hc] at hheld
      cases hheld
    by_cases hback : act x = .back h
    · refine Or.inl ?_
      rw [returns_back hback, returns_of_not_held post (pre ++ [x]) (by simpa using ho) (by
        rw [held_push_back hback, Function.update_self])]
    · rw [returns_other hout hback]
      rcases returns_of_held post (pre ++ [x]) (by simpa using hf) (by simpa using ho) (by
        rw [held_push_other hout hback, hheld]) with hone | hrest
      · exact Or.inl hone
      · exact Or.inr (List.forall_mem_cons.mpr ⟨⟨hout, hback⟩, hrest⟩)

theorem held_untouched : ∀ (post pre : List X),
    (∀ x ∈ post, act x ≠ .out h ∧ act x ≠ .back h) → held act (pre ++ post) h = held act pre h
  | [], pre, _ => by rw [List.append_nil]
  | x :: post, pre, hrest => by
    obtain ⟨⟨hout, hback⟩, hrest⟩ := List.forall_mem_cons.mp hrest
    rw [show pre ++ x :: post = (pre ++ [x]) ++ post by simp, held_untouched post _ hrest,
      held_push_other hout hback]

/-- What is out at the end was given out and did not come back. -/
theorem exists_out_of_held : ∀ (post pre : List X), held act (pre ++ post) h = true →
    held act pre h = true ∧ returns act h post = 0 ∨
      ∃ a x b, post = a ++ x :: b ∧ act x = .out h ∧ returns act h b = 0
  | [], pre, hheld => Or.inl ⟨by simpa using hheld, rfl⟩
  | x :: post, pre, hheld => by
    rcases exists_out_of_held post (pre ++ [x]) (by simpa using hheld) with
      ⟨hh, hr⟩ | ⟨a, y, b, rfl, hy, hr⟩
    · by_cases hout : act x = .out h
      · exact Or.inr ⟨[], x, post, rfl, hout, hr⟩
      · by_cases hback : act x = .back h
        · rw [held_push_back hback, Function.update_self] at hh
          cases hh
        · rw [held_push_other hout hback] at hh
          exact Or.inl ⟨hh, by rw [returns_other hout hback, hr]⟩
    · exact Or.inr ⟨x :: a, y, b, rfl, hy, hr⟩

/-- **Everything came back once exactly if nothing is out at the end.** -/
theorem returned_once_iff {xs : List X} (hf : Fresh act xs) (ho : Owned act xs) :
    (∀ pre x post h, xs = pre ++ x :: post → act x = .out h → returns act h post = 1) ↔
      ∀ h, held act xs h = false := by
  constructor
  · intro hall h
    by_contra hc
    rcases exists_out_of_held xs [] (h := h) (by simpa using hc) with
      ⟨hh, -⟩ | ⟨a, x, b, rfl, hx, hr⟩
    · cases hh
    · rw [hall a x b h rfl hx] at hr
      cases hr
  · rintro hend pre x post h rfl hx
    have hheld : held act (pre ++ [x]) h = true := by
      rw [held_push_out hx, Function.update_self]
    have hsplit : pre ++ x :: post = (pre ++ [x]) ++ post := by simp
    rcases returns_of_held post (pre ++ [x]) (hsplit ▸ hf) (hsplit ▸ ho) hheld with hone | hrest
    · exact hone
    · have hout := hend h
      rw [hsplit, held_untouched post _ hrest, hheld] at hout
      cases hout

end Once

end Handling

end Infra

import Aesd.Server.Worker

/-!
# What a reply offers to the client

`socket_client_send_file` passes the result of `read` on as the length of a `send`. As long as
`open` and every `read` succeed, each `send` offers exactly what the `read` before it stored. The
loop ends on a result of 0 only: after a failing `read` the length is that of `-1` as a `size_t`.
-/

namespace Aesd.Server

open Infra Prog

variable {β : Type}

/-! ## What is promised -/

/-- `open` returned no descriptor, or `read` returned `-1`. -/
def readFails : SysEvent β → Prop
  | ⟨.openFile _ _, fd⟩ => fd < 0
  | ⟨.read _ _, bytes⟩ => bytes = none
  | _ => False

/-- `read` returns no more than it was asked for, and nothing without a descriptor. -/
def ReadsBounded (es : List (SysEvent β)) : Prop :=
  ∀ fd count bytes, ⟨.read fd count, some bytes⟩ ∈ es → 0 ≤ fd ∧ bytes.length ≤ count

/-- The calls made right before a `send` end with a `read` that stored what is sent. -/
def FollowsRead (pre : List (SysEvent β)) (buf : List β) (len : Nat) : Prop :=
  ∃ pre' fd count bytes, pre = pre' ++ [⟨.read fd count, some bytes⟩] ∧ len = bytes.length ∧
    len ≤ 32768 ∧ buf.take len = bytes

/-- Every `send` follows such a `read`; after a failing `open` or `read` there is no `send`, and
the function returns `-1`. -/
structure Offers (es : List (SysEvent β)) (q : ServerProg β Int) : Prop where
  sends : ∀ pre fd buf len r post, es = pre ++ ⟨.send fd buf len, r⟩ :: post →
    FollowsRead pre buf len
  stops : ∀ pre x post, es = pre ++ x :: post → readFails x →
    (∀ fd buf len r, ⟨.send fd buf len, r⟩ ∉ post) ∧ ∀ a, q = .ret a → a = -1

/-! ## The loop -/

theorem FollowsRead.cons {x : SysEvent β} {pre : List (SysEvent β)} {buf : List β} {len : Nat}
    (h : FollowsRead pre buf len) : FollowsRead (x :: pre) buf len := by
  obtain ⟨pre', fd, count, bytes, rfl, hlen⟩ := h
  exact ⟨x :: pre', fd, count, bytes, rfl, hlen⟩

variable {fd clientFd : Int}

/-- What the loop does after a `read`: it ends, or sends and reads again. -/
theorem sendLoop_leads {rounds : Nat} {line : List β} {bytesRead : Option Nat}
    {es : List (SysEvent β)} {q : ServerProg β Int}
    (h : (iter (sendRound fd clientFd) rounds (line, bytesRead)).Leads es q) :
    es = [] ∧ (∀ a, q ≠ .ret a) ∨
    (bytesRead = some 0 ∧ ∃ r, es = [⟨.close fd, r⟩]) ∨
    (bytesRead ≠ some 0 ∧ ∃ r es', es = ⟨.send clientFd line (sizeT bytesRead), r⟩ :: es' ∧
      (es' = [] ∨ ∃ n, rounds = n + 1 ∧ (readLoop n fd clientFd line).Leads es' q)) := by
  cases rounds with
  | zero =>
    obtain ⟨rfl, rfl⟩ := leads_spin.mp h
    exact Or.inl ⟨rfl, fun a hc => by cases hc⟩
  | succ rounds =>
    by_cases hzero : bytesRead = some 0
    · rw [hzero, sendRound_end] at h
      cases es with
      | nil =>
        refine Or.inl ⟨rfl, fun a hc => ?_⟩
        rw [hc] at h
        cases leads_nil.mp h
      | cons x es =>
        obtain ⟨r, rfl, h'⟩ := leads_call_cons.mp h
        obtain ⟨rfl, -⟩ := leads_ret.mp h'
        exact Or.inr (Or.inl ⟨hzero, r, rfl⟩)
    · rw [sendRound_next rounds fd clientFd line bytesRead hzero] at h
      cases es with
      | nil =>
        refine Or.inl ⟨rfl, fun a hc => ?_⟩
        rw [hc] at h
        cases leads_nil.mp h
      | cons x es =>
        obtain ⟨r, rfl, h'⟩ := leads_call_cons.mp h
        refine Or.inr (Or.inr ⟨hzero, r, es, rfl, ?_⟩)
        split at h'
        · exact Or.inl (leads_ret.mp h').1
        · split at h'
          · exact Or.inl (leads_ret.mp h').1
          · exact Or.inr ⟨rounds, rfl, h'⟩

/-- **While no `read` fails**, every `send` follows the `read` it sends from. -/
theorem readLoop_sends : ∀ (rounds : Nat) (line : List β) (es : List (SysEvent β))
    (q : ServerProg β Int), (readLoop rounds fd clientFd line).Leads es q → ReadsBounded es →
    (∀ x ∈ es, ¬readFails x) → ∀ pre fd' buf len r post,
      es = pre ++ ⟨.send fd' buf len, r⟩ :: post → FollowsRead pre buf len
  | rounds, line, [], q, _, _, _, pre, _, _, _, _, _, he => by simp at he
  | rounds, line, x :: es, q, h, hb, hok, pre, fd', buf, len, r, post, he => by
    obtain ⟨bytes, rfl, h₁⟩ := leads_call_cons.mp h
    obtain ⟨b, rfl⟩ : ∃ b, bytes = some b := by
      cases bytes with
      | none => exact absurd rfl (hok _ List.mem_cons_self)
      | some b => exact ⟨b, rfl⟩
    obtain ⟨-, hlen⟩ := hb _ _ _ List.mem_cons_self
    cases pre with
    | nil => cases he
    | cons y pre =>
      obtain ⟨rfl, he₁⟩ := List.cons.inj he
      rcases sendLoop_leads h₁ with ⟨rfl, -⟩ | ⟨-, r', rfl⟩ | ⟨-, r', es', rfl, hrest⟩
      · simp at he₁
      · cases pre with
        | nil => cases he₁
        | cons z pre => simp at he₁
      · cases pre with
        | nil =>
          cases he₁
          refine ⟨[], fd, lineLen, b, rfl, rfl, hlen, ?_⟩
          exact List.take_left
        | cons z pre =>
          obtain ⟨rfl, he₂⟩ := List.cons.inj he₁
          rcases hrest with rfl | ⟨n, rfl, hnext⟩
          · simp at he₂
          · refine (readLoop_sends n _ es' q hnext (fun f c b' hm => hb f c b' ?_)
              (fun y hy => hok y ?_) pre fd' buf len r post he₂).cons.cons
            · exact List.mem_cons_of_mem _ (List.mem_cons_of_mem _ hm)
            · exact List.mem_cons_of_mem _ (List.mem_cons_of_mem _ hy)

/-- **A `read` that failed** is followed by a `send`, when the function returns in the end. -/
theorem readLoop_failed : ∀ (rounds : Nat) (line : List β) (es : List (SysEvent β)) (a : Int),
    (readLoop rounds fd clientFd line).Leads es (.ret a) → (∃ x ∈ es, readFails x) →
    ∃ pre x fd' buf len r post, es = pre ++ x :: ⟨.send fd' buf len, r⟩ :: post ∧ readFails x
  | rounds, line, es, a, h, hfail => by
    obtain ⟨bytes, es₁, rfl, h₁⟩ := leads_call_ret.mp h
    rcases sendLoop_leads h₁ with ⟨-, hc⟩ | ⟨hzero, r', rfl⟩ | ⟨-, r', es', rfl, hrest⟩
    · exact absurd rfl (hc a)
    · -- the last `read` returned 0
      obtain ⟨x, hx, hf⟩ := hfail
      simp only [List.mem_cons, List.not_mem_nil, or_false] at hx
      rcases hx with rfl | rfl
      · rw [show bytes = none from hf] at hzero
        cases hzero
      · exact hf.elim
    · cases bytes with
      | none => exact ⟨[], _, clientFd, _, _, r', es', rfl, rfl⟩
      | some b =>
        obtain ⟨x, hx, hf⟩ := hfail
        simp only [List.mem_cons] at hx
        rcases hx with rfl | rfl | hx
        · cases hf
        · exact hf.elim
        · rcases hrest with rfl | ⟨n, rfl, hnext⟩
          · cases hx
          · obtain ⟨pre, y, fd', buf, len, r, post, rfl, hy⟩ :=
              readLoop_failed n _ es' a hnext ⟨x, hx, hf⟩
            exact ⟨_ :: _ :: pre, y, fd', buf, len, r, post, rfl, hy⟩

/--
**What a reply offers.**

For all outcomes of `open`, `read` and `send`, and whether the function has returned or not: if no
`open` or `read` failed so far, every `send` so far follows a successful `read` and has its length
and its bytes. When the function has returned, that and the promise for failures hold if and only
if nothing failed: a failing `open` or `read` is always followed by one more `send`.
-/
theorem reply_offers_iff (rounds : Nat) (file : String) (clientFd : Int) (es : List (SysEvent β))
    (q : ServerProg β Int)
    (hrun : (socketClientSendFile rounds file clientFd : ServerProg β Int).Leads es q)
    (hreads : ReadsBounded es) :
    ((∀ x ∈ es, ¬readFails x) → Offers es q) ∧
      ∀ a, q = .ret a → (Offers es q ↔ ∀ x ∈ es, ¬readFails x) := by
  have hgood : (∀ x ∈ es, ¬readFails x) → Offers es q := by
    intro hok
    refine ⟨fun pre fd' buf len r post he => ?_, fun pre x post he hx => ?_⟩
    · rw [sendFile_eq] at hrun
      cases es with
      | nil => simp at he
      | cons y es =>
        obtain ⟨fd, rfl, hloop⟩ := leads_call_cons.mp hrun
        cases pre with
        | nil => cases he
        | cons z pre =>
          obtain ⟨rfl, he₁⟩ := List.cons.inj he
          exact (readLoop_sends rounds [] es q hloop
            (fun f c b hm => hreads f c b (List.mem_cons_of_mem _ hm))
            (fun y hy => hok y (List.mem_cons_of_mem _ hy)) pre fd' buf len r post he₁).cons
    · exact absurd hx (hok x (by simp [he]))
  refine ⟨hgood, fun a hq => ⟨fun hoffers => ?_, hgood⟩⟩
  rw [hq, sendFile_eq] at hrun
  obtain ⟨fd, es', rfl, hloop⟩ := leads_call_ret.mp hrun
  by_contra hc
  simp only [not_forall, not_not] at hc
  obtain ⟨x, hx, hf⟩ := hc
  -- without a descriptor the first `read` fails
  have hfail : ∃ y ∈ es', readFails y := by
    rcases List.mem_cons.mp hx with rfl | hx
    · obtain ⟨bytes, es'', rfl, -⟩ := leads_call_ret.mp hloop
      refine ⟨_, List.mem_cons_self, ?_⟩
      cases bytes with
      | none => rfl
      | some b =>
        have hfd := (hreads fd lineLen b (by simp)).1
        exact absurd hf (Int.not_lt.mpr hfd)
    · exact ⟨x, hx, hf⟩
  obtain ⟨pre, y, fd', buf, len, r, post, rfl, hy⟩ := readLoop_failed rounds [] es' a hloop hfail
  exact (hoffers.stops (_ :: pre) y _ rfl hy).1 fd' buf len r List.mem_cons_self

/-- A file with the one byte `a`, sent in one piece. -/
theorem reply_offers_iff_one_byte :
    let es : List (SysEvent UInt8) := [⟨.openFile "/var/tmp/aesdsocketdata" .rdonly, (5 : Int)⟩,
      ⟨.read 5 32768, some [97]⟩, ⟨.send 4 [97] 1, some 1⟩, ⟨.read 5 32768, some []⟩,
      ⟨.close 5, (0 : Int)⟩]
    Offers es (.ret 0) ↔ ∀ x ∈ es, ¬readFails x := by
  intro es
  have hrun : (socketClientSendFile 2 "/var/tmp/aesdsocketdata" 4 : ServerProg UInt8 Int).Leads es
      (.ret 0) :=
    ⟨_, rfl, _, rfl, _, rfl, _, rfl, _, rfl, rfl⟩
  refine (reply_offers_iff 2 "/var/tmp/aesdsocketdata" 4 es (.ret 0) hrun ?_).2 0 rfl
  intro fd count bytes hm
  simp only [es, List.mem_cons, List.not_mem_nil, or_false] at hm
  rcases hm with hm | hm | hm | hm | hm <;> cases hm <;> decide

/-- The first `read` fails. The `send` after it has length `2^64 - 1`. -/
theorem failed_read_is_sent :
    let es : List (SysEvent UInt8) := [⟨.openFile "/var/tmp/aesdsocketdata" .rdonly, (5 : Int)⟩,
      ⟨.read 5 32768, none⟩, ⟨.send 4 [] 18446744073709551615, none⟩]
    (socketClientSendFile 2 "/var/tmp/aesdsocketdata" 4 : ServerProg UInt8 Int).Leads es
        (.ret (-1)) ∧
      ReadsBounded es ∧ ¬Offers es (.ret (-1)) := by
  intro es
  refine ⟨⟨_, rfl, _, rfl, _, rfl, rfl⟩, ?_, ?_⟩
  · intro fd count bytes hm
    simp only [es, List.mem_cons, List.not_mem_nil, or_false] at hm
    rcases hm with hm | hm | hm <;> cases hm
  · intro hc
    exact (hc.stops [_] _ _ rfl rfl).1 _ _ _ _ List.mem_cons_self

end Aesd.Server

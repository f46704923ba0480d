import Aesd.Infra.Handles
import Aesd.Server.Process

/-!
# The descriptors of a worker

A worker holds the socket of its client and, for a while, a descriptor of the result file. It
closes the socket on every way out. The descriptor of the file is forgotten on three of them: when
`write` does not write everything, when `read` fails, and when `send` does not send everything.
-/

namespace Aesd.Server

open Infra Prog
open Handling (held returns Fresh Owned held_push_out held_push_back held_push_none)

variable {β : Type}

/-! ## Descriptors -/

/-- What a call of a worker does with a descriptor. The socket is handed over by `application`. -/
def fdAct : SysEvent β → Handling Int
  | ⟨.getClientFd _, fd⟩ => .out fd
  | ⟨.openFile _ _, fd⟩ => if 0 ≤ fd then .out fd else .none
  | ⟨.close fd, _⟩ => .back fd
  | _ => .none

/-- Without a descriptor nothing is written or read, and no more is read than was asked for. -/
def Answered : SysEvent β → Prop
  | ⟨.write fd _, some _⟩ => 0 ≤ fd
  | ⟨.read fd count, some bytes⟩ => 0 ≤ fd ∧ bytes.length ≤ count
  | _ => True

/-- The same, computed. -/
def answered : SysEvent β → Bool
  | ⟨.write fd _, some _⟩ => 0 ≤ fd
  | ⟨.read fd count, some bytes⟩ => 0 ≤ fd ∧ bytes.length ≤ count
  | _ => true

theorem answered_iff (x : SysEvent β) : answered x = true ↔ Answered x := by
  obtain ⟨e, r⟩ := x
  cases e with
  | write fd buffer => cases r <;> simp [answered, Answered]
  | read fd count => cases r <;> simp [answered, Answered]
  | _ => exact iff_of_true rfl trivial

instance : DecidablePred (@Answered β) := fun x => decidable_of_iff _ (answered_iff x)

/-- An incomplete `write`, a failing `read`, or an incomplete `send` of what was read. -/
def spoils : SysEvent β → Prop
  | ⟨.write fd buffer, result⟩ => 0 ≤ fd ∧ result ≠ some buffer.length
  | ⟨.read fd _, bytes⟩ => 0 ≤ fd ∧ bytes = none
  | ⟨.send _ _ len, bytesSent⟩ => len ≤ lineLen ∧ bytesSent ≠ some len
  | _ => False

theorem fdAct_open {file : String} {flags : OpenFlags} {fd : Int} (hfd : 0 ≤ fd) :
    fdAct (⟨.openFile file flags, fd⟩ : SysEvent β) = .out fd := if_pos hfd

theorem fdAct_open_failed (file : String) (flags : OpenFlags) {fd : Int} (hfd : ¬0 ≤ fd) :
    fdAct (⟨.openFile file flags, fd⟩ : SysEvent β) = .none := if_neg hfd

theorem fdAct_close (fd r : Int) : fdAct (⟨.close fd, r⟩ : SysEvent β) = .back fd := rfl

theorem fdAct_eq_back {x : SysEvent β} {fd : Int} (h : fdAct x = .back fd) : x.1 = .close fd := by
  obtain ⟨e, r⟩ := x
  cases e with
  | close fd' =>
    cases h
    rfl
  | openFile file flags =>
    simp only [fdAct] at h
    split at h <;> cases h
  | _ => cases h

theorem fdAct_eq_out {x : SysEvent β} {fd : Int} (h : fdAct x = .out fd) :
    (∃ n, x = ⟨.getClientFd n, fd⟩) ∨ ∃ file flags, x = ⟨.openFile file flags, fd⟩ ∧ 0 ≤ fd := by
  obtain ⟨e, r⟩ := x
  cases e with
  | getClientFd n =>
    cases h
    exact Or.inl ⟨n, rfl⟩
  | openFile file flags =>
    simp only [fdAct] at h
    split at h
    · cases h
      exact Or.inr ⟨file, flags, rfl, ‹_›⟩
    · cases h
  | _ => cases h

/-- The worker has looked up its client. -/
def Started (t : Nat) (es : List (SysEvent β)) : Prop := ∃ c, ⟨.getClientFd t, c⟩ ∈ es

/-- What a worker goes by. It looks up its client once, closes what it holds, and does not exit
with the socket. -/
def descriptorView (t : Nat) : View (@Sys.Ret β) (List (SysEvent β)) where
  may es e :=
    match e with
    | .getClientFd n => n = t ∧ ¬Started t es
    | .close fd => held fdAct es fd = true
    | .pthreadExit => Started t es ∧ ∀ c, ⟨.getClientFd t, c⟩ ∈ es → held fdAct es c = false
    | .setThreadStatus _ _ | .mutexLock | .mutexUnlock | .openFile _ _ | .write _ _ => True
    | .read _ _ | .recv _ _ | .send _ _ _ => True
    | _ => False
  answers es e r := ((∀ n, e ≠ .getClientFd n) → ∀ fd, fdAct ⟨e, r⟩ = .out fd →
    held fdAct es fd = false) ∧ Answered ⟨e, r⟩
  next es x := es ++ [x]
  spins := True

/-! ## What is held -/

/-- The worker of client `c` holds its socket and maybe one more descriptor, and nothing was
spoiled so far. -/
structure Keeps (t : Nat) (c : Int) (extra : Option Int) (es : List (SysEvent β)) : Prop where
  client : ∀ c', ⟨.getClientFd t, c'⟩ ∈ es ↔ c' = c
  holds : ∀ fd, held fdAct es fd = true ↔ fd = c ∨ extra = some fd
  other : extra ≠ some c
  whole : ∀ x ∈ es, ¬spoils x

/-- The worker has lost a descriptor, and something was spoiled. -/
structure Leaks (t : Nat) (c : Int) (es : List (SysEvent β)) : Prop where
  client : ∀ c', ⟨.getClientFd t, c'⟩ ∈ es ↔ c' = c
  socket : held fdAct es c = true
  lost : ∃ fd, fd ≠ c ∧ held fdAct es fd = true
  spoiled : ∃ x ∈ es, spoils x

section Held

variable {t : Nat} {c : Int} {extra : Option Int} {es : List (SysEvent β)} {x : SysEvent β}

/-- The client is read only once. -/
theorem client_push (h : ∀ c', ⟨.getClientFd t, c'⟩ ∈ es ↔ c' = c)
    (hx : ∀ c', x ≠ ⟨.getClientFd t, c'⟩) (c' : Int) :
    ⟨.getClientFd t, c'⟩ ∈ es ++ [x] ↔ c' = c := by
  rw [List.mem_append, List.mem_singleton, h c']
  exact or_iff_left fun hc => hx c' hc.symm

theorem not_getClientFd (hx : fdAct x = .none) (c' : Int) : x ≠ ⟨.getClientFd t, c'⟩ := by
  rintro rfl
  cases hx

theorem whole_push (h : ∀ y ∈ es, ¬spoils y) (hx : ¬spoils x) : ∀ y ∈ es ++ [x], ¬spoils y := by
  intro y hy
  rcases List.mem_append.mp hy with hy | hy
  · exact h y hy
  · rw [List.mem_singleton.mp hy]
    exact hx

/-- A call that opens and closes nothing. -/
theorem Keeps.quiet (h : Keeps t c extra es) (hx : fdAct x = .none) (hok : ¬spoils x) :
    Keeps t c extra (es ++ [x]) where
  client := client_push h.client (not_getClientFd hx)
  holds fd := by rw [held_push_none hx, h.holds fd]
  other := h.other
  whole := whole_push h.whole hok

theorem Keeps.opens (h : Keeps t c none es) (file : String) (flags : OpenFlags) {fd : Int}
    (hfd : 0 ≤ fd) (hfresh : held fdAct es fd = false) :
    Keeps t c (some fd) (es ++ [⟨.openFile file flags, fd⟩]) where
  client := client_push h.client fun c' hc => by cases hc
  holds fd' := by
    rw [held_push_out (fdAct_open hfd)]
    by_cases heq : fd' = fd
    · simp [heq]
    · rw [Function.update_of_ne heq, h.holds fd']
      simp [Ne.symm heq]
  other hc := by
    cases hc
    rw [(h.holds c).mpr (Or.inl rfl)] at hfresh
    cases hfresh
  whole := whole_push h.whole fun hc => hc.elim

theorem Keeps.closes {fd : Int} (h : Keeps t c (some fd) es) (r : Int) :
    Keeps t c none (es ++ [⟨.close fd, r⟩]) where
  client := client_push h.client fun c' hc => by cases hc
  holds fd' := by
    rw [held_push_back (fdAct_close fd r)]
    by_cases heq : fd' = fd
    · have hne : fd' ≠ c := fun hc => h.other (by rw [← heq, hc])
      simp [heq ▸ hne, heq]
    · rw [Function.update_of_ne heq, h.holds fd']
      simp [Ne.symm heq]
  other := nofun
  whole := whole_push h.whole fun hc => hc.elim

/-- From here on the descriptor is lost. -/
theorem Keeps.leaks {fd : Int} (h : Keeps t c (some fd) es) (hx : fdAct x = .none)
    (hbad : spoils x) : Leaks t c (es ++ [x]) where
  client := client_push h.client (not_getClientFd hx)
  socket := by rw [held_push_none hx, (h.holds c).mpr (Or.inl rfl)]
  lost := by
    refine ⟨fd, fun hc => h.other (by rw [hc]), ?_⟩
    rw [held_push_none hx, (h.holds fd).mpr (Or.inr rfl)]
  spoiled := ⟨x, by simp, hbad⟩

theorem Leaks.quiet (h : Leaks t c es) (hx : fdAct x = .none) : Leaks t c (es ++ [x]) where
  client := client_push h.client (not_getClientFd hx)
  socket := by rw [held_push_none hx, h.socket]
  lost := by
    rw [held_push_none hx]
    exact h.lost
  spoiled := by
    obtain ⟨y, hy, hbad⟩ := h.spoiled
    exact ⟨y, List.mem_append_left _ hy, hbad⟩

end Held

/-! ## The functions of a worker -/

section Functions

variable {t : Nat} {c : Int} {es : List (SysEvent β)}

/-- What a function leaves to the worker: the socket alone, or an error and a lost descriptor. -/
def Leaves (t : Nat) (c result : Int) (es : List (SysEvent β)) : Prop :=
  Keeps t c none es ∨ result = -1 ∧ Leaks t c es

/-- A call that opens and closes nothing, with the socket alone. -/
theorem Keeps.call {α : Type} {Q : α → List (SysEvent β) → Prop} {extra : Option Int} {e : Sys β}
    {k : e.Ret → ServerProg β α} (h : Keeps t c extra es) (hmay : (descriptorView t).may es e)
    (hact : ∀ r, fdAct ⟨e, r⟩ = .none) (hok : ∀ r, ¬spoils ⟨e, r⟩)
    (hk : ∀ r es', Keeps t c extra es' → (descriptorView t).wp (k r) Q es') :
    (descriptorView t).wp (.call e k) Q es :=
  ⟨hmay, fun r _ => hk r _ (h.quiet (hact r) (hok r))⟩

theorem descriptors_appendToFile (file : String) (buffer : List UInt8) (h : Keeps t c none es) :
    (descriptorView t).wp (appendToFile file buffer) (Leaves t c) es := by
  rw [appendToFile_eq]
  refine ⟨trivial, fun fd hopen => ⟨trivial, fun result hwrite => ?_⟩⟩
  beta_reduce
  by_cases hfd : 0 ≤ fd
  · have h₁ := h.opens file .append hfd (hopen.1 nofun fd (fdAct_open hfd))
    by_cases hresult : result = some buffer.length
    · subst hresult
      have h₂ := h₁.quiet (x := ⟨.write fd buffer, some buffer.length⟩) rfl fun hc => hc.2 rfl
      rw [if_neg (by simp), if_neg fun hc => hc rfl]
      refine ⟨(h₂.holds fd).mpr (Or.inr rfl), fun closed _ => ?_⟩
      beta_reduce
      split
      · exact Or.inl (h₂.closes closed)
      · exact Or.inl (h₂.closes closed)
    · have h₂ := h₁.leaks (x := ⟨.write fd buffer, result⟩) rfl ⟨hfd, hresult⟩
      split
      · exact Or.inr ⟨rfl, h₂⟩
      · rw [if_pos (by cases result <;> simp_all [sizeT])]
        exact Or.inr ⟨rfl, h₂⟩
  · -- there is no descriptor, and `write` fails
    obtain rfl : result = none := by
      cases result with
      | none => rfl
      | some n => exact absurd hwrite.2 hfd
    have h₁ := h.quiet (fdAct_open_failed file .append hfd) fun hc => hc.elim
    rw [if_pos rfl]
    exact Or.inl (h₁.quiet rfl fun hc => hfd hc.1)

theorem descriptors_receive (file : String) (clientFd : Int) :
    ∀ (rounds : Nat) (es : List (SysEvent β)), Keeps t c none es →
    (descriptorView t).wp (socketClientReceiveAndWriteData rounds file clientFd) (Leaves t c) es
  | 0, _, _ => trivial
  | rounds + 1, es, h => by
    rw [receive_succ]
    refine h.call trivial (fun _ => rfl) (fun _ hc => hc.elim) fun recvBuffer es₁ h₁ => ?_
    split
    · exact Or.inl h₁
    · refine View.wp_bind (View.wp_mono (fun result es₂ h₂ => ?_)
        (descriptors_appendToFile file (recvBuffer.getD []) h₁))
      rcases h₂ with h₂ | ⟨rfl, h₂⟩
      · split
        · exact Or.inl h₂
        · split
          · exact descriptors_receive file clientFd rounds es₂ h₂
          · exact Or.inl h₂
      · rw [if_pos rfl]
        exact Or.inr ⟨rfl, h₂⟩

/-- After a `read` that failed, the reply ends with an error at the next `send`. -/
theorem descriptors_sendLoop_failed {fd clientFd : Int} {rounds : Nat} {line : List β}
    {P : List (SysEvent β) → Prop}
    (hP : ∀ r, P (es ++ [⟨.send clientFd line (sizeT none), r⟩])) :
    (descriptorView t).wp (iter (sendRound fd clientFd) rounds (line, none))
      (fun result es' => result = -1 ∧ P es') es := by
  cases rounds with
  | zero => trivial
  | succ rounds =>
    rw [sendRound_next rounds fd clientFd line none nofun]
    refine ⟨trivial, fun bytesSent _ => ?_⟩
    beta_reduce
    split
    · exact ⟨rfl, hP bytesSent⟩
    · exact ⟨rfl, hP bytesSent⟩

theorem descriptors_readLoop {fd : Int} (hfd : 0 ≤ fd) (clientFd : Int) :
    ∀ (rounds : Nat) (line : List β) (es : List (SysEvent β)), Keeps t c (some fd) es →
    (descriptorView t).wp (readLoop rounds fd clientFd line) (Leaves t c) es
  | rounds, line, es, h => by
    refine ⟨trivial, fun bytes hread => ?_⟩
    cases bytes with
    | none =>
      have h₁ := h.leaks (x := ⟨.read fd lineLen, none⟩) rfl ⟨hfd, rfl⟩
      exact View.wp_mono (fun result es' hr => Or.inr hr)
        (descriptors_sendLoop_failed fun r => h₁.quiet rfl)
    | some bytes =>
      have h₁ := h.quiet (x := ⟨.read fd lineLen, some bytes⟩) rfl fun hc => by cases hc.2
      have hlen : bytes.length ≤ lineLen := hread.2.2
      cases rounds with
      | zero => trivial
      | succ rounds =>
        beta_reduce
        rw [Option.map_some]
        by_cases hzero : some bytes.length = some 0
        · -- the end of the file
          rw [hzero, sendRound_end]
          exact ⟨(h₁.holds fd).mpr (Or.inr rfl), fun r _ => Or.inl (h₁.closes r)⟩
        · rw [sendRound_next rounds fd clientFd _ _ hzero]
          refine ⟨trivial, fun bytesSent _ => ?_⟩
          beta_reduce
          by_cases hsent : bytesSent = some bytes.length
          · rw [hsent, if_neg (sizeT_ne_error hlen), if_neg fun hc => hc rfl]
            exact descriptors_readLoop hfd clientFd rounds _ _ (h₁.quiet rfl fun hc => hc.2 rfl)
          · have h₂ := h₁.leaks (x := ⟨.send clientFd (storeLine line (some bytes)) bytes.length,
              bytesSent⟩) rfl ⟨hlen, hsent⟩
            split
            · exact Or.inr ⟨rfl, h₂⟩
            · rw [if_pos (by cases bytesSent <;> simp_all [sizeT])]
              exact Or.inr ⟨rfl, h₂⟩

theorem descriptors_sendFile (rounds : Nat) (file : String) (clientFd : Int)
    (h : Keeps t c none es) :
    (descriptorView t).wp (socketClientSendFile rounds file clientFd) (Leaves t c) es := by
  rw [sendFile_eq]
  refine ⟨trivial, fun fd hopen => ?_⟩
  by_cases hfd : 0 ≤ fd
  · exact descriptors_readLoop hfd clientFd rounds [] _
      (h.opens file .rdonly hfd (hopen.1 nofun fd (fdAct_open hfd)))
  · -- there is no descriptor, and `read` fails
    have h₁ := h.quiet (fdAct_open_failed file .rdonly hfd) fun hc => hc.elim
    refine ⟨trivial, fun bytes hread => ?_⟩
    obtain rfl : bytes = none := by
      cases bytes with
      | none => rfl
      | some n => exact absurd hread.2.1 hfd
    have h₂ := h₁.quiet (x := ⟨.read fd lineLen, none⟩) rfl fun hc => hfd hc.1
    refine View.wp_mono (fun result es' hr => Or.inl hr.2) (descriptors_sendLoop_failed fun r => ?_)
    exact h₂.quiet rfl fun hc => absurd hc.1 (by decide)

end Functions

/-! ## The whole worker -/

/-- The socket is closed, and a descriptor is left exactly if something was spoiled. -/
structure Ended (t : Nat) (es : List (SysEvent β)) : Prop where
  started : Started t es
  socket : ∀ c, ⟨.getClientFd t, c⟩ ∈ es → held fdAct es c = false
  rest : (∀ fd, held fdAct es fd = false) ↔ ∀ x ∈ es, ¬spoils x

section Worker

variable {t : Nat} {c : Int} {es : List (SysEvent β)}

theorem Keeps.ends (h : Keeps t c none es) (r : Int) : Ended t (es ++ [⟨.close c, r⟩]) where
  started := ⟨c, List.mem_append_left _ ((h.client c).mpr rfl)⟩
  socket c' hc' := by
    rw [held_push_back (fdAct_close c r),
      (client_push h.client (fun c' hc => by cases hc) c').mp hc', Function.update_self]
  rest := by
    refine iff_of_true (fun fd => ?_) (whole_push h.whole fun hc => hc.elim)
    rw [held_push_back (fdAct_close c r)]
    by_cases hfd : fd = c
    · rw [hfd, Function.update_self]
    · rw [Function.update_of_ne hfd, ← Bool.not_eq_true, h.holds fd]
      simp [hfd]

theorem Leaks.ends (h : Leaks t c es) (r : Int) : Ended t (es ++ [⟨.close c, r⟩]) where
  started := ⟨c, List.mem_append_left _ ((h.client c).mpr rfl)⟩
  socket c' hc' := by
    rw [held_push_back (fdAct_close c r),
      (client_push h.client (fun c' hc => by cases hc) c').mp hc', Function.update_self]
  rest := by
    obtain ⟨fd, hne, hheld⟩ := h.lost
    obtain ⟨x, hx, hbad⟩ := h.spoiled
    refine iff_of_false (fun hc => ?_) fun hc => hc x (List.mem_append_left _ hx) hbad
    have hfd := hc fd
    rw [held_push_back (fdAct_close c r), Function.update_of_ne hne, hheld] at hfd
    cases hfd

theorem Ended.quiet {x : SysEvent β} (h : Ended t es) (hx : fdAct x = .none) (hok : ¬spoils x) :
    Ended t (es ++ [x]) where
  started := by
    obtain ⟨c', hc'⟩ := h.started
    exact ⟨c', List.mem_append_left _ hc'⟩
  socket c' hc' := by
    rw [held_push_none hx]
    rcases List.mem_append.mp hc' with hc' | hc'
    · exact h.socket c' hc'
    · exact absurd (List.mem_singleton.mp hc').symm (not_getClientFd hx c')
  rest := by
    rw [held_push_none hx, h.rest]
    exact ⟨fun hall => whole_push hall hok, fun hall y hy => hall y (List.mem_append_left _ hy)⟩

theorem descriptors_endWorker {status : ThreadStatus} (h : Keeps t c none es ∨ Leaks t c es) :
    (descriptorView t).wp (endWorker t c status) (fun _ => Ended t) es := by
  have hsocket : held fdAct es c = true := by
    rcases h with h | h
    · exact (h.holds c).mpr (Or.inl rfl)
    · exact h.socket
  refine ⟨hsocket, fun r _ => ⟨trivial, fun _ _ => ?_⟩⟩
  have hended : Ended t (es ++ [⟨.close c, r⟩]) := by
    rcases h with h | h
    · exact h.ends r
    · exact h.ends r
  have hstatus := hended.quiet (x := ⟨.setThreadStatus t status, ()⟩) rfl fun hc => hc.elim
  exact ⟨⟨hstatus.started, hstatus.socket⟩, fun _ _ => hstatus.quiet rfl fun hc => hc.elim⟩

theorem descriptors_failWorker (h : Keeps t c none es ∨ Leaks t c es) :
    (descriptorView t).wp (failWorker t c) (fun _ => Ended t) es := by
  rw [failWorker_eq]
  refine ⟨trivial, fun _ _ => descriptors_endWorker (h.imp (fun h => ?_) fun h => ?_)⟩
  · exact h.quiet rfl fun hc => hc.elim
  · exact h.quiet rfl

/-- **A worker** closes its socket and nothing that it does not hold. -/
theorem descriptors_worker (rounds : Nat) (file : String) :
    (descriptorView t).wp (workerThread rounds file t : ServerProg β (Option Int))
      (fun _ => Ended t) [] := by
  refine ⟨⟨rfl, by simp [Started]⟩, fun c _ => View.wp_bind (View.wp_mono (fun _ _ h => h) ?_)⟩
  have h₀ : Keeps t c none ([⟨.getClientFd t, c⟩] : List (SysEvent β)) := by
    refine ⟨fun c' => by simp, fun fd => ?_, nofun, fun x hx => ?_⟩
    · by_cases hfd : fd = c
      · simp [held, Handling.after, fdAct, hfd]
      · simp [held, Handling.after, fdAct, hfd]
    · rw [List.mem_singleton.mp hx]
      exact fun hc => hc.elim
  rw [dataTransferWorker_eq]
  refine h₀.call trivial (fun _ => rfl) (fun _ hc => hc.elim) fun _ _ h => ?_
  refine h.call trivial (fun _ => rfl) (fun _ hc => hc.elim) fun _ _ h => ?_
  refine View.wp_bind (View.wp_mono (fun received es₁ h₁ => ?_)
    (descriptors_receive file c rounds _ h))
  rcases h₁ with h₁ | ⟨rfl, h₁⟩
  · split
    · exact descriptors_failWorker (Or.inl h₁)
    · refine h₁.call trivial (fun _ => rfl) (fun _ hc => hc.elim) fun _ _ h => ?_
      refine h.call trivial (fun _ => rfl) (fun _ hc => hc.elim) fun _ _ h => ?_
      refine View.wp_bind (View.wp_mono (fun replied es₂ h₂ => ?_)
        (descriptors_sendFile rounds file c h))
      rcases h₂ with h₂ | ⟨rfl, h₂⟩
      · split
        · exact descriptors_failWorker (Or.inl h₂)
        · refine h₂.call trivial (fun _ => rfl) (fun _ hc => hc.elim) fun _ _ h => ?_
          exact descriptors_endWorker (Or.inl h)
      · rw [if_pos rfl]
        exact descriptors_failWorker (Or.inr h₂)
  · rw [if_pos rfl]
    exact descriptors_failWorker (Or.inr h₁)

end Worker

/-- The pictures of a worker are the calls it made. -/
theorem foldl_next (t : Nat) (es : List (SysEvent β)) :
    es.foldl (descriptorView t).next [] = es := by
  induction es using List.reverseRecOn with
  | nil => rfl
  | append_singleton es x ih =>
    rw [List.foldl_append, ih]
    rfl

/--
**No descriptor of the result file leaks, if nothing is cut short.**

For all outcomes of the calls of one worker, when it has ended: every descriptor that `open`
returned was passed to `close` exactly once before the same number was opened again, if and only
if every `write` was complete, no `read` failed and every `send` of what was read was complete.
`open` returns no descriptor that the worker still holds.
-/
theorem descriptors_closed_once_iff (rounds : Nat) (file : String) (t : Nat)
    (es : List (SysEvent β))
    (hrun : (workerThread rounds file t : ServerProg β (Option Int)).Leads es (.ret none))
    (hfresh : Fresh fdAct es) (hfiles : ∀ x ∈ es, Answered x) :
    (∀ pre file' flags fd post, es = pre ++ ⟨.openFile file' flags, fd⟩ :: post → 0 ≤ fd →
      returns fdAct fd post = 1) ↔ ∀ x ∈ es, ¬spoils x := by
  obtain ⟨hended, hmay⟩ := View.wp_leads (descriptors_worker rounds file) hrun (by
    intro pre x post he
    rw [foldl_next]
    exact ⟨fun _ => hfresh pre x post he, hfiles x (by simp [he])⟩)
  rw [foldl_next] at hended
  have howned : Owned fdAct es := by
    intro pre x post he fd hx
    have hclose := hmay pre x post he
    rw [foldl_next, fdAct_eq_back hx] at hclose
    exact hclose
  rw [← hended.rest]
  constructor
  · intro hopens fd
    by_contra hc
    rcases Handling.exists_out_of_held es [] (h := fd) (by simpa using hc) with
      ⟨hh, -⟩ | ⟨pre, x, post, rfl, hx, hr⟩
    · cases hh
    · rcases fdAct_eq_out hx with ⟨n, rfl⟩ | ⟨file', flags, rfl, hfd⟩
      · -- the socket is closed
        have hn := hmay pre _ post rfl
        obtain ⟨rfl, -⟩ : n = t ∧ _ := hn
        exact hc (hended.socket fd (by simp))
      · rw [hopens pre file' flags fd post rfl hfd] at hr
        cases hr
  · intro hall pre file' flags fd post he hfd
    exact (Handling.returned_once_iff hfresh howned).mpr hall pre _ post fd he (fdAct_open hfd)

/-- The calls of a worker that receives `"a\n"` and finds the file with `"a\n"` in it. -/
def servedClient : List (SysEvent UInt8) :=
  [⟨.getClientFd 1, (4 : Int)⟩, ⟨.setThreadStatus 1 .running, ()⟩, ⟨.mutexLock, ()⟩,
    ⟨.recv 4 1024, some [97, 10]⟩, ⟨.openFile (resultFile false) .append, (5 : Int)⟩,
    ⟨.write 5 [97, 10], some 2⟩, ⟨.close 5, (0 : Int)⟩, ⟨.mutexUnlock, ()⟩, ⟨.mutexLock, ()⟩,
    ⟨.openFile (resultFile false) .rdonly, (5 : Int)⟩, ⟨.read 5 32768, some [97, 10]⟩,
    ⟨.send 4 [97, 10] 2, some 2⟩, ⟨.read 5 32768, some []⟩, ⟨.close 5, (0 : Int)⟩,
    ⟨.mutexUnlock, ()⟩, ⟨.close 4, (0 : Int)⟩, ⟨.setThreadStatus 1 .succeeded, ()⟩,
    ⟨.pthreadExit, ()⟩]

/-- Both times descriptor 5 is closed once. -/
theorem descriptors_closed_once_iff_served :
    returns fdAct 5 (servedClient.drop 5) = 1 ∧ returns fdAct 5 (servedClient.drop 10) = 1 := by
  have hrun : (workerThread 2 (resultFile false) 1 : ServerProg UInt8 (Option Int)).Leads
      servedClient (.ret none) :=
    ⟨_, rfl, _, rfl, _, rfl, _, rfl, _, rfl, _, rfl, _, rfl, _, rfl, _, rfl, _, rfl, _, rfl,
      _, rfl, _, rfl, _, rfl, _, rfl, _, rfl, _, rfl, _, rfl, rfl⟩
  have hclosed := (descriptors_closed_once_iff 2 (resultFile false) 1 servedClient hrun
    (by decide +kernel) (by decide +kernel)).mpr (by simp [servedClient, spoils])
  exact ⟨hclosed (servedClient.take 4) _ .append 5 _ rfl (by decide),
    hclosed (servedClient.take 9) _ .rdonly 5 _ rfl (by decide)⟩

/-- The client has gone when the reply is sent: descriptor 5 is not closed. -/
theorem descriptor_lost :
    let es : List (SysEvent UInt8) :=
      [⟨.getClientFd 1, (4 : Int)⟩, ⟨.setThreadStatus 1 .running, ()⟩, ⟨.mutexLock, ()⟩,
        ⟨.recv 4 1024, some [97, 10]⟩, ⟨.openFile (resultFile false) .append, (5 : Int)⟩,
        ⟨.write 5 [97, 10], some 2⟩, ⟨.close 5, (0 : Int)⟩, ⟨.mutexUnlock, ()⟩, ⟨.mutexLock, ()⟩,
        ⟨.openFile (resultFile false) .rdonly, (5 : Int)⟩, ⟨.read 5 32768, some [97, 10]⟩,
        ⟨.send 4 [97, 10] 2, none⟩, ⟨.mutexUnlock, ()⟩, ⟨.close 4, (0 : Int)⟩,
        ⟨.setThreadStatus 1 .failed, ()⟩, ⟨.pthreadExit, ()⟩]
    (workerThread 2 (resultFile false) 1 : ServerProg UInt8 (Option Int)).Leads es (.ret none) ∧
      Fresh fdAct es ∧ (∀ x ∈ es, Answered x) ∧
      es = es.take 9 ++ ⟨.openFile (resultFile false) .rdonly, (5 : Int)⟩ :: es.drop 10 ∧
      returns fdAct 5 (es.drop 10) = 0 := by
  refine ⟨?_, ?_, ?_, rfl, rfl⟩
  · exact ⟨_, rfl, _, rfl, _, rfl, _, rfl, _, rfl, _, rfl, _, rfl, _, rfl, _, rfl, _, rfl, _, rfl,
      _, rfl, _, rfl, _, rfl, _, rfl, _, rfl, rfl⟩
  · decide +kernel
  · decide +kernel

end Aesd.Server

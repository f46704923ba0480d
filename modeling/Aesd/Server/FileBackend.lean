import Aesd.Server.Mutex

/-!
# The regular file

`USE_AESD_CHAR_DEVICE != 1`: the workers and the timestamp logger share one file that is opened
with `O_APPEND`. Any call may fail, `write`, `send` and `read` may be short, and `recv` hands over
anything. The file is then the concatenation of what the critical sections stored, in the order in
which the mutex was taken, and a reply is the file at one moment.
-/

namespace Aesd.Server

open Infra Prog

/-! ## The file -/

/-- The file and its descriptors. -/
structure RegularFile where
  bytes : List UInt8
  /-- the descriptor that the next `open` returns -/
  nextFd : Nat
  /-- the position of each descriptor -/
  offset : Nat → Nat

/-- What becomes of a call, as far as it may depend on anything else than the file. -/
structure Outcome where
  fail : Bool
  size : Nat
  bytes : List UInt8
  flag : Bool
  now : Timespec

/--
The calls of the workers and of the logger. `write` appends a prefix of its buffer; `read` hands
over the next bytes, none only at the end; a descriptor that `open` did not return is refused.
-/
def fileCall : (e : Sys UInt8) → RegularFile → Outcome → Option (e.Ret × RegularFile)
  | .openFile _ _, f, o =>
    if o.fail then some (-1, f)
    else some ((f.nextFd : Int),
      { f with nextFd := f.nextFd + 1, offset := Function.update f.offset f.nextFd 0 })
  | .write fd buffer, f, o =>
    if o.fail ∨ fd < 0 then some (none, f)
    else some (some (min o.size buffer.length),
      { f with bytes := f.bytes ++ buffer.take (min o.size buffer.length) })
  | .read fd count, f, o =>
    if o.fail ∨ fd < 0 then some (none, f)
    else
      let left := f.bytes.drop (f.offset fd.toNat)
      let bytes := left.take (min (max 1 o.size) count)
      some (some bytes, { f with
        offset := Function.update f.offset fd.toNat (f.offset fd.toNat + bytes.length) })
  | .close _, f, o => some (if o.fail then -1 else 0, f)
  | .recv _ len, f, o => some (if o.fail then none else some (o.bytes.take len), f)
  | .send _ _ len, f, o => some (if o.fail then none else some (min o.size len), f)
  | .isTerminated, f, o => some (o.flag, f)
  | .clockGettime, f, o => some (o.now, f)
  | .localtimeR, f, o => some (o.flag, f)
  | .strftime maxsize, f, o => some (o.bytes.take (maxsize - 1), f)
  | .setThreadStatus _ _, f, _ => some ((), f)
  | .semWait, f, _ => some ((), f)
  | .pthreadExit, f, _ => some ((), f)
  | _, _, _ => none

section Calls

variable {f f' : RegularFile} {o : Outcome}

theorem fileCall_open {file : String} {flags : OpenFlags} {fd : Int}
    (h : fileCall (.openFile file flags) f o = some (fd, f')) :
    f'.bytes = f.bytes ∧ (0 ≤ fd → f'.offset fd.toNat = 0) := by
  simp only [fileCall] at h
  split at h
  · cases h
    exact ⟨rfl, fun hc => by omega⟩
  · cases h
    exact ⟨rfl, fun _ => by simp⟩

theorem fileCall_write {fd : Int} {buffer : List UInt8} {r : Option Nat}
    (h : fileCall (.write fd buffer) f o = some (r, f')) :
    (r = none ∧ f' = f) ∨
      ∃ n, n ≤ buffer.length ∧ r = some n ∧ f'.bytes = f.bytes ++ buffer.take n := by
  simp only [fileCall] at h
  split at h
  · cases h
    exact Or.inl ⟨rfl, rfl⟩
  · cases h
    exact Or.inr ⟨_, Nat.min_le_right _ _, rfl, rfl⟩

theorem fileCall_read {fd : Int} {count : Nat} {r : Option (List UInt8)} (hc : 0 < count)
    (h : fileCall (.read fd count) f o = some (r, f')) :
    (r = none ∧ f' = f) ∨ ∃ bytes, 0 ≤ fd ∧ r = some bytes ∧ bytes.length ≤ count ∧
      bytes <+: f.bytes.drop (f.offset fd.toNat) ∧ f'.bytes = f.bytes ∧
      f'.offset fd.toNat = f.offset fd.toNat + bytes.length ∧
      (bytes = [] → f.bytes.length ≤ f.offset fd.toNat) := by
  simp only [fileCall] at h
  split at h
  · cases h
    exact Or.inl ⟨rfl, rfl⟩
  · next hf =>
    cases h
    refine Or.inr ⟨_, by omega, rfl, ?_, List.take_prefix _ _, rfl, Function.update_self .., ?_⟩
    · rw [List.length_take]
      omega
    · intro hn
      have hlen := congrArg List.length hn
      rw [List.length_take, List.length_drop, List.length_nil] at hlen
      omega

theorem fileCall_recv {fd : Int} {len : Nat} {r : Option (List UInt8)}
    (h : fileCall (.recv fd len) f o = some (r, f')) :
    f' = f ∧ ∀ bytes, r = some bytes → bytes.length ≤ len := by
  simp only [fileCall] at h
  split at h
  · cases h
    exact ⟨rfl, fun bytes hb => by cases hb⟩
  · cases h
    refine ⟨rfl, fun bytes hb => ?_⟩
    cases hb
    exact (List.length_take ..).le.trans (Nat.min_le_left _ _)

theorem fileCall_send {fd : Int} {buf : List UInt8} {len : Nat} {r : Option Nat}
    (h : fileCall (.send fd buf len) f o = some (r, f')) :
    f' = f ∧ ∀ n, r = some n → n ≤ len := by
  simp only [fileCall] at h
  split at h
  · cases h
    exact ⟨rfl, fun n hn => by cases hn⟩
  · cases h
    refine ⟨rfl, fun n hn => ?_⟩
    cases hn
    exact Nat.min_le_right _ _

end Calls

/-- These calls, whoever makes them. -/
def fileIo : Io UInt8 RegularFile Outcome where
  call _ := fileCall
  frame {t e f a r f'} hg h := by
    cases e <;> simp only [fileCall, guarded, Bool.true_eq_false, Option.some.injEq,
      Prod.mk.injEq, reduceCtorEq] at hg h <;> exact h.2.symm

/-! ## Sections -/

/-- The last section, if it is of thread `t`, has stored these bytes too. -/
def storeInSection (done : List (Nat × List UInt8)) (t : Nat) (bytes : List UInt8) :
    List (Nat × List UInt8) :=
  match done.getLast? with
  | some (holder, before) =>
    if holder = t then done.dropLast ++ [(t, before ++ bytes)] else done
  | none => done

/-- A lock starts a section, a write stores to the section of its thread. -/
def addSection (done : List (Nat × List UInt8)) :
    Nat × SysEvent UInt8 → List (Nat × List UInt8)
  | (t, ⟨.mutexLock, _⟩) => done ++ [(t, [])]
  | (t, ⟨.write _ buffer, some n⟩) => storeInSection done t (buffer.take n)
  | _ => done

/-- The critical sections so far, each with its thread and the bytes it stored. -/
def sections (trace : List (Nat × SysEvent UInt8)) : List (Nat × List UInt8) :=
  trace.foldl addSection []

/-- What the sections stored, one after the other. -/
def stored (trace : List (Nat × SysEvent UInt8)) : List UInt8 :=
  (sections trace).flatMap Prod.snd

theorem sections_push (h : List (Nat × SysEvent UInt8)) (x : Nat × SysEvent UInt8) :
    sections (h ++ [x]) = addSection (sections h) x := by
  simp [sections]

theorem addSection_lock (done : List (Nat × List UInt8)) (t : Nat) :
    addSection done (t, ⟨.mutexLock, ()⟩) = done ++ [(t, [])] := rfl

theorem addSection_write (done : List (Nat × List UInt8)) (t : Nat) (bytes : List UInt8)
    (fd : Int) (buffer : List UInt8) (n : Nat) :
    addSection (done ++ [(t, bytes)]) (t, ⟨.write fd buffer, some n⟩)
      = done ++ [(t, bytes ++ buffer.take n)] := by
  simp [addSection, storeInSection]

/-- The other calls store nothing. -/
theorem addSection_other (done : List (Nat × List UInt8)) {t : Nat} {e : Sys UInt8} {r : e.Ret}
    (hl : e ≠ .mutexLock) (hw : ∀ fd buffer, e ≠ .write fd buffer) :
    addSection done (t, ⟨e, r⟩) = done := by
  cases e <;> first | exact absurd rfl (hw _ _) | exact absurd rfl hl | rfl

/-- Only locks and writes count, and both are in the history. -/
theorem sections_history (w : ServerWorld UInt8 RegularFile) :
    sections (history w) = sections w.trace := by
  unfold sections history
  rw [List.foldl_filter]
  congr 1
  funext done x
  split
  · rfl
  · next hc =>
    obtain ⟨t, e, r⟩ := x
    refine (addSection_other done (fun he => ?_) fun fd buffer he => ?_).symm
    · subst he
      exact hc rfl
    · subst he
      exact hc rfl

/-- A call under the mutex that is no write. -/
theorem sections_other (h : List (Nat × SysEvent UInt8)) {t : Nat} {e : Sys UInt8} {r : e.Ret}
    (hl : e ≠ .mutexLock) (hw : ∀ fd buffer, e ≠ .write fd buffer) :
    sections (h ++ if guarded e then [(t, ⟨e, r⟩)] else []) = sections h := by
  cases guarded e with
  | false => simp
  | true =>
    simp only [if_true]
    rw [sections_push, addSection_other _ hl hw]

/-- What `storeInSection` does: it adds to the last section or does nothing. -/
theorem storeInSection_cases (done : List (Nat × List UInt8)) (t : Nat) (bytes : List UInt8) :
    (∃ init before, done = init ++ [(t, before)] ∧
      storeInSection done t bytes = init ++ [(t, before ++ bytes)]) ∨
    storeInSection done t bytes = done := by
  unfold storeInSection
  split
  · next holder before hlast =>
    obtain ⟨init, rfl⟩ := List.getLast?_eq_some_iff.mp hlast
    split
    · next heq =>
      subst heq
      exact Or.inl ⟨init, before, rfl, by simp⟩
    · exact Or.inr rfl
  · exact Or.inr rfl

/-- A call adds at the end of what the sections stored, if anything. -/
theorem stored_push (h : List (Nat × SysEvent UInt8)) (x : Nat × SysEvent UInt8) :
    stored h <+: stored (h ++ [x]) := by
  unfold stored
  rw [sections_push]
  generalize sections h = done
  unfold addSection
  split
  · simp
  · next t fd buffer n =>
    rcases storeInSection_cases done t (buffer.take n) with ⟨init, before, rfl, he⟩ | he
    · simp [he]
    · simp [he]
  · exact List.prefix_refl _

/-- What was stored stays where it is. -/
theorem stored_mono {h h' : List (Nat × SysEvent UInt8)} (hp : h <+: h') :
    stored h <+: stored h' := by
  obtain ⟨more, rfl⟩ := hp
  induction more using List.reverseRecOn with
  | nil => simp
  | append_singleton more x ih =>
    rw [← List.append_assoc]
    exact ih.trans (stored_push _ x)

/-! ## The invariant -/

/-- A call under the mutex either is a write or leaves the bytes alone. -/
theorem fileCall_guarded {e : Sys UInt8} {f f' : RegularFile} {o : Outcome} {r : e.Ret}
    (hg : guarded e = true) (h : fileCall e f o = some (r, f')) :
    (∃ fd buffer, e = .write fd buffer) ∨
      (e ≠ .mutexLock ∧ (∀ fd buffer, e ≠ .write fd buffer) ∧ f'.bytes = f.bytes) := by
  cases e <;> cases hg
  case openFile => exact Or.inr ⟨by simp, by simp, (fileCall_open h).1⟩
  case write fd buffer => exact Or.inl ⟨fd, buffer, rfl⟩
  case read fd count =>
    refine Or.inr ⟨by simp, by simp, ?_⟩
    simp only [fileCall] at h
    split at h <;> cases h <;> rfl
  case recv => exact Or.inr ⟨by simp, by simp, by rw [(fileCall_recv h).1]⟩
  case send => exact Or.inr ⟨by simp, by simp, by rw [(fileCall_send h).1]⟩

/-- The file is what the sections stored, and the last section belongs to the holder. -/
def fileProtected : Protected fileIo where
  inv m f h := f.bytes = stored h ∧
    ∀ t, m = some t → ∃ done bytes, sections h = done ++ [(t, bytes)]
  pre _ _ := True
  lock {t f h} hi := by
    refine ⟨?_, fun t' ht => ⟨sections h, [], ?_⟩⟩
    · rw [hi.1, stored, stored, sections_push, addSection_lock]
      simp
    · cases ht
      rw [sections_push, addSection_lock]
  unlock {t f h} hi := ⟨hi.1, fun t' ht => by cases ht⟩
  call {t e f a r f' h} hi hg hp hcall := by
    obtain ⟨hb, hlast⟩ := hi
    obtain ⟨done, bytes, hs⟩ := hlast t rfl
    rcases fileCall_guarded hg hcall with ⟨fd, buffer, rfl⟩ | ⟨hl, hw, hsame⟩
    · rw [stored, sections_push, hs]
      rcases fileCall_write hcall with ⟨rfl, rfl⟩ | ⟨n, -, rfl, hn⟩
      · -- a failed write stores nothing
        refine ⟨?_, fun t' ht => ⟨done, bytes, ?_⟩⟩
        · rw [hb, stored, hs]
          rfl
        · cases ht
          rfl
      · refine ⟨?_, fun t' ht => ⟨done, bytes ++ buffer.take n, ?_⟩⟩
        · rw [hn, hb, stored, hs, addSection_write]
          simp
        · cases ht
          exact addSection_write ..
    · rw [stored, sections_push, addSection_other _ hl hw, hsame]
      exact ⟨hb, fun t' ht => by cases ht; exact ⟨done, bytes, hs⟩⟩

/-! ## Storing -/

variable {α : Type} {t : Nat} {f : RegularFile} {h : List (Nat × SysEvent UInt8)}
  {own : List (SysEvent UInt8)} {w : ServerWorld UInt8 RegularFile} {rcv snt : List UInt8}
  {status : Option ThreadStatus} {done : List (Nat × List UInt8)} {bytes : List UInt8}
  {Q : α → ServerWorld UInt8 RegularFile → Prop}

/-- **`append_to_file`** adds to the section of its thread, and all it was given if it succeeds. -/
theorem wp_appendToFile {k : Int → ServerProg UInt8 α} (hw : Inside t f h own w)
    (hs : sections h = done ++ [(t, bytes)]) (hl : Account own rcv snt status) (file : String)
    (buffer : List UInt8)
    (hk : ∀ ret f' h' own' w' part, Inside t f' h' own' w' →
      sections h' = done ++ [(t, bytes ++ part)] → (ret ≠ -1 → part = buffer) →
      Account own' rcv snt status → fileProtected.contract.wp t (k ret) Q w') :
    fileProtected.contract.wp t ((appendToFile file buffer).bind k) Q w := by
  rw [appendToFile_eq, call_bind]
  refine wp_inside hw rfl (fun _ => trivial) fun a fd f₁ w₁ hopen hw₁ => ?_
  have hl₁ := hl.quiet ⟨.openFile file .append, fd⟩ rfl rfl rfl
  rw [call_bind]
  refine wp_inside hw₁ rfl (fun _ => trivial) fun a r f₂ w₂ hwrite hw₂ => ?_
  have hl₂ := hl₁.quiet ⟨.write fd buffer, r⟩ rfl rfl rfl
  have hs₁ : sections (h ++ [(t, ⟨.openFile file .append, fd⟩)]) = done ++ [(t, bytes)] := by
    rw [sections_push, addSection_other _ (by simp) (by simp), hs]
  rcases fileCall_write hwrite with ⟨rfl, -⟩ | ⟨n, hn, rfl, -⟩
  · refine hk (-1) f₂ _ _ w₂ [] hw₂ ?_ (fun hc => absurd rfl hc) hl₂
    simp only [guarded, if_true]
    rw [sections_push, hs₁, List.append_nil]
    rfl
  · have hs₂ : sections ((h ++ [(t, ⟨.openFile file .append, fd⟩)])
        ++ [(t, ⟨.write fd buffer, some n⟩)]) = done ++ [(t, bytes ++ buffer.take n)] := by
      rw [sections_push, hs₁, addSection_write]
    rw [if_neg (by simp)]
    by_cases hfull : sizeT (some n) ≠ buffer.length
    · rw [if_pos hfull]
      exact hk (-1) f₂ _ _ w₂ _ hw₂ hs₂ (fun hc => absurd rfl hc) hl₂
    · rw [if_neg hfull, call_bind]
      refine wp_inside hw₂ rfl (fun hc => by cases hc) fun a r f₃ w₃ _ hw₃ => ?_
      have hl₃ := hl₂.quiet ⟨.close fd, r⟩ rfl rfl rfl
      have hall : buffer.take n = buffer := by
        rw [show n = buffer.length from not_not.mp hfull, List.take_length]
      rw [hall] at hs₂
      split
      · exact hk (-1) f₃ _ _ w₃ _ hw₃ (by simpa [guarded] using hs₂) (fun hc => absurd rfl hc) hl₃
      · exact hk 0 f₃ _ _ w₃ _ hw₃ (by simpa [guarded] using hs₂) (fun _ => rfl) hl₃

/-- The receive loop is over: unless it failed, the section is what the thread has received. -/
def Received (t : Nat) (ret : Int) (w : ServerWorld UInt8 RegularFile) : Prop :=
  ∃ f h own rcv, Inside t f h own w ∧ Account own rcv [] (some .running) ∧
    (ret ≠ -1 → ∃ done, sections h = done ++ [(t, rcv)])

theorem wp_ret_received {ret : Int} (hr : Received t ret w) :
    fileProtected.contract.wp t (.ret ret) (Received t) w := by
  obtain ⟨f, h, own, rcv, hw, hl, hs⟩ := hr
  exact fun w' hu _ => ⟨f, h, own, rcv, hw.stable hu, hl, hs⟩

/-- **The receive loop**, from a section that holds what was received so far. -/
theorem wp_receive (file : String) (clientFd : Int) : ∀ (rounds : Nat) {f : RegularFile}
    {h : List (Nat × SysEvent UInt8)} {own : List (SysEvent UInt8)} {rcv : List UInt8}
    {done : List (Nat × List UInt8)} {w : ServerWorld UInt8 RegularFile}, Inside t f h own w →
    Account own rcv [] (some .running) → sections h = done ++ [(t, rcv)] →
    fileProtected.contract.wp t (socketClientReceiveAndWriteData rounds file clientFd)
      (Received t) w
  | 0, _, _, _, _, _, _, _, _, _ => fun _ _ _ => trivial
  | rounds + 1, f, h, own, rcv, done, w, hw, hl, hs => by
    rw [receive_succ]
    refine wp_inside hw rfl (fun _ => trivial) fun a r f₁ w₁ hrecv hw₁ => ?_
    have hs₁ : sections (h ++ [(t, ⟨.recv clientFd bufferSize, r⟩)]) = done ++ [(t, rcv)] := by
      rw [sections_push, addSection_other _ (by simp) (by simp), hs]
    cases r with
    | none =>
      rw [Option.map_none, if_pos rfl]
      exact wp_ret_received ⟨f₁, _, _, rcv, hw₁, hl.quiet _ rfl rfl rfl, fun hc => absurd rfl hc⟩
    | some chunk =>
      have hlen : chunk.length ≤ lineLen :=
        ((fileCall_recv hrecv).2 chunk rfl).trans (by decide)
      have hl₁ : Account (own ++ [⟨.recv clientFd bufferSize, some chunk⟩]) (rcv ++ chunk) []
          (some .running) := hl.push _
      rw [Option.map_some, if_neg (sizeT_ne_error hlen), Option.getD_some]
      refine wp_appendToFile hw₁ hs₁ hl₁ file chunk
        fun ret f' h' own' w' part hw' hs' hpart hl' => ?_
      by_cases hret : ret = -1
      · rw [if_pos hret]
        exact wp_ret_received ⟨f', h', own', _, hw', hl', fun hc => absurd rfl hc⟩
      · rw [hpart hret] at hs'
        rw [if_neg hret]
        split
        · exact wp_receive file clientFd rounds hw' hl' hs'
        · exact wp_ret_received ⟨f', h', own', _, hw', hl', fun _ => ⟨done, hs'⟩⟩

/-! ## Replying -/

/-- The send loop is over: unless it failed, the thread has sent the file. -/
def Replied (t : Nat) (rcv file : List UInt8) (ret : Int) (w : ServerWorld UInt8 RegularFile) :
    Prop :=
  ∃ f h own snt, Inside t f h own w ∧ stored h = file ∧ Account own rcv snt (some .running) ∧
    (ret ≠ -1 → snt = file)

theorem wp_ret_replied {file : List UInt8} {ret : Int} (hr : Replied t rcv file ret w) :
    fileProtected.contract.wp t (.ret ret) (Replied t rcv file) w := by
  obtain ⟨f, h, own, snt, hw, hh, hl, hs⟩ := hr
  exact fun w' hu _ => ⟨f, h, own, snt, hw.stable hu, hh, hl, hs⟩

/-- A call under the mutex that is no write keeps what is stored. -/
theorem stored_other (h : List (Nat × SysEvent UInt8)) {e : Sys UInt8} (r : e.Ret)
    (hl : e ≠ .mutexLock) (hw : ∀ fd buffer, e ≠ .write fd buffer) :
    stored (h ++ if guarded e then [(t, ⟨e, r⟩)] else []) = stored h := by
  unfold stored
  rw [sections_other h hl hw]

/-- **The send loop**, from a `read` where what was sent so far ends. -/
theorem wp_readLoop (fd clientFd : Int) : ∀ (rounds : Nat) (line : List UInt8) {f : RegularFile}
    {h : List (Nat × SysEvent UInt8)} {own : List (SysEvent UInt8)} {snt : List UInt8}
    {w : ServerWorld UInt8 RegularFile}, Inside t f h own w → stored h = f.bytes →
    Account own rcv snt (some .running) →
    (0 ≤ fd → snt = f.bytes.take (f.offset fd.toNat)) →
    fileProtected.contract.wp t (readLoop rounds fd clientFd line) (Replied t rcv f.bytes) w := by
  intro rounds
  induction rounds with
  | zero =>
    intro line f h own snt w hw hh hl hsnt
    exact wp_inside hw rfl (fun _ => trivial) fun _ _ _ _ _ _ _ _ _ => trivial
  | succ rounds ih =>
    intro line f h own snt w hw hh hl hsnt
    refine wp_inside hw rfl (fun _ => trivial) fun a r f₁ w₁ hread hw₁ => ?_
    have hl₁ := hl.quiet ⟨.read fd lineLen, r⟩ rfl rfl rfl
    have hh₁ := (stored_other (t := t) h (e := .read fd lineLen) r (by simp) (by simp)).trans hh
    rcases fileCall_read (by decide) hread with
      ⟨rfl, rfl⟩ | ⟨bytes, hfd, rfl, hlen, hpre, hsame, hoff, hend⟩
    · -- a failed read: `bytes_read` is `-1`, and no `send` counts as complete
      rw [Option.map_none, sendRound_next rounds fd clientFd _ none (by simp)]
      refine wp_inside hw₁ rfl (fun _ => trivial) fun a r f₂ w₂ hsend hw₂ => ?_
      have hfail : Replied t rcv f₁.bytes (-1) w₂ :=
        ⟨f₂, _, _, _, hw₂, (stored_other _ r (by simp) (by simp)).trans hh₁,
          hl₁.send clientFd _ _ r, fun hc => absurd rfl hc⟩
      split
      · exact wp_ret_replied hfail
      · exact wp_ret_replied hfail
    · have hnext : f.bytes.take (f.offset fd.toNat) ++ bytes
          = f.bytes.take (f.offset fd.toNat + bytes.length) := by
        rw [List.take_add, ← List.prefix_iff_eq_take.mp hpre]
      by_cases hnil : bytes = []
      · subst hnil
        rw [Option.map_some, List.length_nil, sendRound_end]
        refine wp_inside hw₁ rfl (fun hc => by cases hc) fun a r f₂ w₂ hclose hw₂ => ?_
        refine wp_ret_replied ⟨f₂, _, _, _, hw₂, (stored_other _ r (by simp) (by simp)).trans hh₁,
          hl₁.quiet ⟨.close fd, r⟩ rfl rfl rfl, fun _ => ?_⟩
        rw [hsnt hfd, List.take_of_length_le (hend rfl)]
      · have hne : (some bytes.length : Option Nat) ≠ some 0 := by
          simpa using hnil
        rw [Option.map_some, sendRound_next rounds fd clientFd _ _ hne]
        refine wp_inside hw₁ rfl (fun _ => trivial) fun a r f₂ w₂ hsend hw₂ => ?_
        obtain ⟨rfl, hle⟩ := fileCall_send hsend
        have hh₂ := (stored_other (t := t) _ (e := .send clientFd (storeLine line (some bytes))
          bytes.length) r (by simp) (by simp)).trans hh₁
        have hl₂ := hl₁.send clientFd (storeLine line (some bytes)) bytes.length r
        have hfail : Replied t rcv f.bytes (-1) w₂ :=
          ⟨f₂, _, _, _, hw₂, hh₂, hl₂, fun hc => absurd rfl hc⟩
        split
        · exact wp_ret_replied hfail
        · split
          · exact wp_ret_replied hfail
          · next hnone hfull =>
            -- a complete `send` of the bytes that were read
            have hr : r = some bytes.length := by
              cases r with
              | none => exact absurd rfl hnone
              | some m => exact congrArg some (not_not.mp hfull)
            subst hr
            rw [← hsame]
            refine ih _ hw₂ (hh₂.trans hsame.symm) hl₂ fun _ => ?_
            rw [hsame, hoff, ← hnext, ← hsnt hfd, sentBy, storeLine, List.take_left]

/-! ## The threads -/

/-- A worker that succeeded has sent back what it received, and no more than is stored. -/
def Faithful (t : Nat) (w : ServerWorld UInt8 RegularFile) : Prop :=
  lastStatus (w.own t) = some .succeeded → received (w.own t) <:+: sent (w.own t) ∧
    sent (w.own t) <+: stored (history w)

theorem wp_endWorker (node : Nat) (clientFd : Int) {result : ThreadStatus} (hown : w.own t = own)
    (hh : h <+: history w) (hl : Account own rcv snt (some .running))
    (hdone : result = .succeeded → rcv <:+: snt ∧ snt <+: stored h) :
    fileProtected.contract.wp t (endWorker node clientFd result) (fun _ => Faithful t) w := by
  refine wp_outside hown hh rfl rfl fun r w₁ hh₁ hown₁ => ?_
  refine wp_outside hown₁ hh₁ rfl rfl fun _ w₂ hh₂ hown₂ => ?_
  refine wp_outside hown₂ hh₂ rfl rfl fun _ w₃ hh₃ hown₃ => ?_
  have hl₁ := hl.quiet ⟨.close clientFd, r⟩ rfl rfl rfl
  have hl₂ := (hl₁.push ⟨.setThreadStatus node result, ()⟩).quiet ⟨.pthreadExit, ()⟩ rfl rfl rfl
  intro w' hu _ hst
  rw [hu.own, hown₃] at hst ⊢
  rw [hl₂.status] at hst
  obtain ⟨hin, hpre⟩ := hdone (by simpa [statusBy] using hst)
  rw [hl₂.received, hl₂.sent]
  simp only [receivedBy, sentBy, List.append_nil]
  exact ⟨hin, hpre.trans (stored_mono (hh₃.trans hu.grows))⟩

theorem wp_failWorker (node : Nat) (clientFd : Int) (hw : Inside t f h own w)
    (hl : Account own rcv snt (some .running)) :
    fileProtected.contract.wp t (failWorker node clientFd) (fun _ => Faithful t) w := by
  rw [failWorker_eq]
  refine wp_unlock hw fun w' _ hh hown => ?_
  exact wp_endWorker node clientFd hown hh (hl.quiet ⟨.mutexUnlock, ()⟩ rfl rfl rfl)
    fun hc => by cases hc

/-- **A worker**, whatever the others do and whatever fails. -/
theorem wp_dataTransferWorker (rounds : Nat) (file : String) (node : Nat) (clientFd : Int)
    (hown : w.own t = []) : fileProtected.contract.wp t
      (dataTransferWorker rounds file node clientFd) (fun _ => Faithful t) w := by
  rw [dataTransferWorker_eq]
  refine wp_outside hown (List.prefix_refl _) rfl rfl fun _ w₁ _ hown₁ => ?_
  refine wp_lock fun w₂ w₂' _ _ hw₂ => ?_
  rw [hown₁] at hw₂
  refine Contract.wp_bind (Contract.wp_mono (fun ret w₃ _ hr => ?_)
    (wp_receive file clientFd rounds hw₂ ⟨rfl, rfl, rfl⟩ (sections_push _ _)))
  obtain ⟨f₃, h₃, own₃, rcv, hw₃, hl₃, hs₃⟩ := hr
  split
  · exact wp_failWorker node clientFd hw₃ hl₃
  · next hne =>
    -- what was received is the last section, and stays in the file
    obtain ⟨done, hs₃⟩ := hs₃ hne
    have hin : rcv <:+: stored h₃ := by
      rw [stored, hs₃]
      simpa using (List.suffix_append (done.flatMap Prod.snd) rcv).isInfix
    refine wp_unlock hw₃ fun w₄ _ hh₄ hown₄ => ?_
    have hl₄ := hl₃.quiet ⟨.mutexUnlock, ()⟩ rfl rfl rfl
    refine wp_lock fun w₅ w₅' hu₅ hi₅ hw₅ => ?_
    rw [hown₄] at hw₅
    have hl₅ := hl₄.quiet ⟨.mutexLock, ()⟩ rfl rfl rfl
    have hst₅ : stored (history w₅ ++ [(t, ⟨.mutexLock, ()⟩)]) = w₅.state.file.bytes := by
      rw [hi₅.1, stored, sections_push, addSection_lock]
      simp [stored]
    have hin₅ : rcv <:+: w₅.state.file.bytes := by
      rw [hi₅.1]
      exact hin.trans (stored_mono (hh₄.trans hu₅.grows)).isInfix
    refine Contract.wp_bind (Contract.wp_mono (fun ret w₆ _ hr => ?_)
      (show fileProtected.contract.wp t _ (Replied t rcv w₅.state.file.bytes) w₅' from ?_))
    · obtain ⟨f₆, h₆, own₆, snt, hw₆, hh₆, hl₆, hs₆⟩ := hr
      split
      · exact wp_failWorker node clientFd hw₆ hl₆
      · next hne =>
        refine wp_unlock hw₆ fun w₇ _ hh₇ hown₇ => ?_
        refine wp_endWorker node clientFd hown₇ hh₇ (hl₆.quiet ⟨.mutexUnlock, ()⟩ rfl rfl rfl)
          fun _ => ?_
        rw [hs₆ hne, hh₆]
        exact ⟨hin₅, List.prefix_refl _⟩
    · rw [sendFile_eq]
      refine wp_inside hw₅ rfl (fun _ => trivial) fun a fd f₆ w₆ hopen hw₆ => ?_
      obtain ⟨hb, hoff⟩ := fileCall_open hopen
      rw [← hb]
      refine wp_readLoop fd clientFd rounds [] hw₆ ?_
        (hl₅.quiet ⟨.openFile file .rdonly, fd⟩ rfl rfl rfl) fun hfd => ?_
      · rw [stored_other _ fd (by simp) (by simp), hst₅, hb]
      · rw [hoff hfd, List.take_zero]

/-- **The timestamp logger** keeps to the same rules. -/
theorem wp_logTimestampWorker (rounds : Nat) : fileProtected.contract.wp t
    (logTimestampWorker false rounds) (fun _ _ => True) w := by
  refine wp_outside rfl (List.prefix_refl _) rfl rfl fun _ w₁ _ _ => ?_
  refine Contract.wp_iter (fun _ _ _ => True) (fun n _ w _ => ?_) (fun _ _ _ => trivial) rounds ()
    w₁ trivial
  have hgo : ∀ (x : Unit ⊕ Unit) (w : ServerWorld UInt8 RegularFile),
      fileProtected.contract.wp t (.ret x)
        (Sum.elim (fun _ _ => True) (fun _ _ => True)) w := by
    intro x w w' _ _
    cases x <;> trivial
  rw [logRound_eq]
  refine wp_outside rfl (List.prefix_refl _) rfl rfl fun r w _ _ => ?_
  split
  · exact wp_outside rfl (List.prefix_refl _) rfl rfl fun _ w _ _ => hgo _ w
  · refine wp_outside rfl (List.prefix_refl _) rfl rfl fun _ w _ _ => ?_
    refine wp_outside rfl (List.prefix_refl _) rfl rfl fun r w _ _ => ?_
    split
    · exact hgo _ w
    · refine wp_outside rfl (List.prefix_refl _) rfl rfl fun r w _ _ => ?_
      split
      · exact hgo _ w
      · refine wp_lock fun w₂ w _ _ hw => ?_
        refine wp_appendToFile hw (sections_push _ _) ⟨rfl, rfl, rfl⟩ _ _
          fun ret f' h' own' w' part hw' _ _ _ => ?_
        refine wp_unlock hw' fun w _ _ _ => ?_
        exact wp_outside rfl (List.prefix_refl _) rfl rfl fun _ w _ _ => hgo _ w

/-! ## The server -/

/-- Thread 0 is the logger, every other one a worker with its own client; no file yet. -/
def fileServer (rounds : Nat → Nat) (clientFd : Nat → Int) :
    Config (@Sys.Ret UInt8) (Shared RegularFile) Unit where
  world := { state := { mutex := none, file := { bytes := [], nextFd := 3, offset := fun _ => 0 } }
             trace := [] }
  prog t := if t = 0 then logTimestampWorker false (rounds t)
    else dataTransferWorker (rounds t) (resultFile false) t (clientFd t)

/-- Thread `t` has finished, and reports success. -/
def Succeeded {β F : Type} (c : Config (@Sys.Ret β) (Shared F) Unit) (t : Nat) : Prop :=
  (c.prog t).isRet = true ∧ lastStatus (c.world.own t) = some .succeeded

theorem fileServer_good (rounds : Nat → Nat) (clientFd : Nat → Int) :
    fileProtected.contract.Good (fun t _ w => t ≠ 0 → Faithful t w)
      (fileServer rounds clientFd) := by
  refine ⟨⟨rfl, fun t ht => by cases ht⟩, fun t => ?_⟩
  show fileProtected.contract.wp t (if t = 0 then _ else _) _ _
  split
  · next h0 =>
    exact Contract.wp_mono (fun _ _ _ _ hc => absurd h0 hc) (wp_logTimestampWorker (rounds t))
  · exact Contract.wp_mono (fun _ _ _ h _ => h)
      (wp_dataTransferWorker (rounds t) (resultFile false) t (clientFd t) rfl)

/-- The threads that have taken the mutex, in this order. -/
def lockOrder (trace : List (Nat × SysEvent UInt8)) : List Nat :=
  trace.filterMap fun
    | (t, ⟨.mutexLock, _⟩) => some t
    | _ => none

theorem addSection_fst (done : List (Nat × List UInt8)) (x : Nat × SysEvent UInt8) :
    (addSection done x).map Prod.fst = done.map Prod.fst ++ lockOrder [x] := by
  obtain ⟨t, e, r⟩ := x
  cases e
  case write fd buffer =>
    cases r with
    | none => simp [addSection, lockOrder]
    | some n =>
      rcases storeInSection_cases done t (buffer.take n) with ⟨init, before, rfl, he⟩ | he
      · simp [addSection, lockOrder, he]
      · simp [addSection, lockOrder, he]
  all_goals simp [addSection, lockOrder]

/-- There is one section for each time the mutex was taken. -/
theorem sections_lockOrder (trace : List (Nat × SysEvent UInt8)) :
    (sections trace).map Prod.fst = lockOrder trace := by
  induction trace using List.reverseRecOn with
  | nil => rfl
  | append_singleton trace x ih =>
    rw [sections_push, addSection_fst, ih, lockOrder, lockOrder, lockOrder, List.filterMap_append]

/--
**Agreement over the regular file.**

For any number of workers and the timestamp logger, any clients, any schedule and any failures:
whenever the mutex is free, the file is the concatenation of what the critical sections stored, one
for each time the mutex was taken and in that order. A worker that succeeded has sent back what it
received as one block, and of two such workers' replies one is a prefix of the other.
-/
theorem file_backend_agreement (rounds : Nat → Nat) (clientFd : Nat → Int)
    (schedule : List (Nat × Outcome))
    (c : Config (@Sys.Ret UInt8) (Shared RegularFile) Unit)
    (hrun : fileIo.system.run (fileServer rounds clientFd) schedule = some c) :
    (c.world.state.mutex = none → c.world.state.file.bytes
      = ((sections c.world.trace).map Prod.snd).flatten) ∧
    (sections c.world.trace).map Prod.fst = lockOrder c.world.trace ∧
    (∀ t, t ≠ 0 → Succeeded c t → received (c.world.own t) <:+: sent (c.world.own t)) ∧
    ∀ t t', t ≠ 0 → t' ≠ 0 → Succeeded c t → Succeeded c t' →
      sent (c.world.own t) <+: sent (c.world.own t') ∨
        sent (c.world.own t') <+: sent (c.world.own t) := by
  have hgood := (fileServer_good rounds clientFd).run hrun
  have hfaith : ∀ t, t ≠ 0 → Succeeded c t → received (c.world.own t) <:+: sent (c.world.own t) ∧
      sent (c.world.own t) <+: stored (history c.world) := by
    rintro t ht ⟨hret, hst⟩
    obtain ⟨_, hp⟩ := isRet_iff.mp hret
    exact hgood.ret hp ht hst
  refine ⟨fun _ => ?_, sections_lockOrder _, fun t ht hs => (hfaith t ht hs).1,
    fun t t' ht ht' hs hs' => ?_⟩
  · rw [hgood.1.1, stored, sections_history, List.flatMap_def]
  · exact List.prefix_or_prefix_of_prefix (hfaith t ht hs).2 (hfaith t' ht' hs').2

/-- An outcome without a failure. -/
def Outcome.good (bytes : List UInt8) : Outcome :=
  { fail := false, size := 32768, bytes := bytes, flag := false, now := ⟨0, 0⟩ }

/-- A worker's turns when its client sends `message` and one `read` takes the whole file: the first
critical section, and the rest. -/
def firstTurns (t : Nat) (message : List UInt8) : List (Nat × Outcome) :=
  List.replicate 7 (t, Outcome.good message)

def restTurns (t : Nat) : List (Nat × Outcome) := List.replicate 10 (t, Outcome.good [])

/-- Two workers, the second stores between the critical sections of the first. -/
theorem file_backend_agreement_interleaved :
    ∃ c, fileIo.system.run (fileServer (fun _ => 3) fun t => t)
        (firstTurns 1 [97] ++ firstTurns 2 [98] ++ restTurns 1 ++ restTurns 2) = some c ∧
      Succeeded c 1 ∧ Succeeded c 2 ∧ sent (c.world.own 1) = [97, 98] ∧
      (sent (c.world.own 1) <+: sent (c.world.own 2) ∨
        sent (c.world.own 2) <+: sent (c.world.own 1)) := by
  have hrun : (fileIo.system.run (fileServer (fun _ => 3) fun t => t)
      (firstTurns 1 [97] ++ firstTurns 2 [98] ++ restTurns 1 ++ restTurns 2)).map (fun c =>
        ((c.prog 1).isRet, lastStatus (c.world.own 1), (c.prog 2).isRet,
          lastStatus (c.world.own 2), sent (c.world.own 1)))
      = some (true, some .succeeded, true, some .succeeded, [97, 98]) := by decide +kernel
  obtain ⟨c, hc, heq⟩ := Option.map_eq_some_iff.mp hrun
  simp only [Prod.mk.injEq] at heq
  obtain ⟨h1, h1', h2, h2', hsent⟩ := heq
  exact ⟨c, hc, ⟨h1, h1'⟩, ⟨h2, h2'⟩, hsent, (file_backend_agreement (fun _ => 3) (fun t => t) _ c
    hc).2.2.2 1 2 (by decide) (by decide) ⟨h1, h1'⟩ ⟨h2, h2'⟩⟩

end Aesd.Server

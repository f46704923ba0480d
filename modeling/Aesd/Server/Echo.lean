import Aesd.Driver.Lines
import Aesd.Driver.Lookup
import Aesd.Server.Worker

/-!
# One worker on the device

What the transfer functions do when `RESULT_FILE` is the character device and nobody else
touches it meanwhile: the worker holds `result_file_mutex`, or clients are served one after
another. Each call of the server that concerns the file is the file operation of the driver.
-/

namespace Aesd.Server

open Infra Prog Driver

/-! ## The device under the server -/

/-- The driver, the descriptors of the server and its clients. -/
structure DeviceHost where
  kernel : Kernel
  /-- the descriptor that the next `open` returns -/
  nextFd : Nat
  /-- for each client the bytes that `recv` has not handed over yet -/
  inbox : Int → List UInt8
  /-- outcomes of the coming `send`s: an error, or a limit on the bytes accepted. When they are
  used up every `send` is complete. -/
  sends : List (Option Nat)

/-- A call's result from the driver's `ssize_t`. -/
def ssizeResult (ret : Int) : Option Nat := if ret < 0 then none else some ret.toNat

/-- What `send` answers to `len` bytes. -/
def sendResult (len : Nat) (s : DeviceHost) : Option Nat × DeviceHost :=
  match s.sends with
  | [] => (some len, s)
  | outcome :: sends => (outcome.map (min · len), { s with sends := sends })

/--
The calls of a worker on the device, in which nothing but `send` fails. `recv` hands over as
much as it can. The calls about threads do nothing to the device; there is no result for a call
that a worker does not make.
-/
def deviceCall : (e : Sys UInt8) → DeviceHost → Option (e.Ret × DeviceHost)
  | .openFile _ _, s =>
    some ((s.nextFd : Int), { s with kernel := aesdOpen s.nextFd s.kernel, nextFd := s.nextFd + 1 })
  | .write fd buffer, s =>
    (aesdWrite fd.toNat buffer .good s.kernel).map fun x =>
      (ssizeResult x.1, { s with kernel := x.2 })
  | .read fd count, s =>
    (aesdRead fd.toNat count 0 s.kernel).map fun x =>
      (if x.2.1 < 0 then none else some x.1, { s with kernel := x.2.2 })
  | .close _, s => some (0, s)
  | .recv fd len, s =>
    some (some ((s.inbox fd).take len),
      { s with inbox := Function.update s.inbox fd ((s.inbox fd).drop len) })
  | .send _ _ len, s => some (sendResult len s)
  | .setThreadStatus _ _, s => some ((), s)
  | .pthreadExit, s => some ((), s)
  | _, _ => none

/-! ## Replying -/

section Reply

variable {β : Type}

/-- Every `send` took all it was given. -/
def SendsComplete (es : List (SysEvent β)) : Prop :=
  ∀ fd buf len, ∀ n, (⟨.send fd buf len, n⟩ : SysEvent β) ∈ es → n = some len

/-- The calls of `read`. -/
def reads (es : List (SysEvent β)) : Nat :=
  es.countP fun
    | ⟨.read _ _, _⟩ => true
    | _ => false

theorem sendsComplete_send {fd : Int} {buf : List β} {len : Nat} {n : Option Nat}
    {es : List (SysEvent β)} : SendsComplete (⟨.send fd buf len, n⟩ :: es) ↔
      n = some len ∧ SendsComplete es := by
  constructor
  · intro h
    exact ⟨h fd buf len n List.mem_cons_self, fun fd' buf' len' n' hm =>
      h fd' buf' len' n' (List.mem_cons_of_mem _ hm)⟩
  · rintro ⟨h, hes⟩ fd' buf' len' n' hm
    rcases List.mem_cons.mp hm with he | hm
    · cases he
      exact h
    · exact hes fd' buf' len' n' hm

theorem sendsComplete_read {fd : Int} {count : Nat} {r : Option (List β)}
    {es : List (SysEvent β)} : SendsComplete (⟨.read fd count, r⟩ :: es) ↔ SendsComplete es := by
  simp [SendsComplete]

end Reply

variable {s : DeviceHost}

theorem sendResult_eq (len : Nat) (s : DeviceHost) :
    ∃ n sends, sendResult len s = (n, { s with sends := sends }) ∧
      (∀ m, n = some m → m ≤ len) ∧ (s.sends = [] → n = some len ∧ sends = []) := by
  cases hs : s.sends with
  | nil =>
    have hcomplete : sendResult len s = (some len, s) := by simp only [sendResult, hs]
    exact ⟨some len, s.sends, hcomplete, by simp, fun _ => ⟨rfl, hs⟩⟩
  | cons o os =>
    refine ⟨o.map (min · len), os, by simp only [sendResult, hs], ?_, fun h => by cases h⟩
    intro m hm
    obtain ⟨m', -, rfl⟩ := Option.map_eq_some_iff.mp hm
    exact Nat.min_le_right m' len

/-- `s` with other file positions and other coming outcomes of `send`. -/
def DeviceHost.at (s : DeviceHost) (fPos : Nat → Nat) (sends : List (Option Nat)) : DeviceHost :=
  { s with kernel := { s.kernel with fPos := fPos }, sends := sends }

/-- A `read` at the start of the `n`-th live entry, which fits into the line buffer. -/
theorem deviceCall_read_entry (hi : Inv s.kernel)
    (hlen : ∀ e ∈ live s.kernel.dev.circularBuffer, e.size ≤ lineLen)
    (htot : totalSize s.kernel.dev.circularBuffer < 2 ^ 64) {fd n : Nat} {fPos : Nat → Nat}
    (sends : List (Option Nat)) (hn : n < liveCount s.kernel.dev.circularBuffer)
    (hpos : fPos fd = entryStart s.kernel.dev.circularBuffer n) :
    ∃ cells fPos', (abs s.kernel).entries.drop n = cells :: (abs s.kernel).entries.drop (n + 1) ∧
      cells.length ≤ lineLen ∧ cells.length ≠ 0 ∧
      fPos' fd = entryStart s.kernel.dev.circularBuffer (n + 1) ∧
      deviceCall (.read fd lineLen) (s.at fPos sends) = some (some cells, s.at fPos' sends) := by
  obtain ⟨e, he, hread⟩ := aesdRead_entry (k := { s.kernel with fPos := fPos }) (hi.withFPos fPos)
    htot hn hpos lineLen
  have hmem : e ∈ live s.kernel.dev.circularBuffer := List.mem_of_getElem? he
  have hlive := live_getElem? hn
  have hsz : e.size = (s.kernel.dev.circularBuffer.slot
      ((s.kernel.dev.circularBuffer.outOffs + n) % 10)).size := by
    have : some e = _ := he.symm.trans hlive
    rw [Option.some.inj this]
  have hcells : (bytesOf s.kernel.slab e).length = e.size :=
    Holds.length_bytesOf (hi.holds e (mem_owners_of_live hmem))
  have hmin : min lineLen e.size = e.size := Nat.min_eq_right (hlen e hmem)
  obtain ⟨h, hr⟩ := hi.ring
  have hend := entryStart_le_total s.kernel.dev.circularBuffer (n + 1)
  have hsucc := entryStart_succ hn
  refine ⟨bytesOf s.kernel.slab e, Function.update fPos fd (fPos fd + e.size), ?_, ?_, ?_, ?_, ?_⟩
  · have hget : (abs s.kernel).entries[n]? = some (bytesOf s.kernel.slab e) := by
      show ((live s.kernel.dev.circularBuffer).map (bytesOf s.kernel.slab))[n]? = _
      rw [List.getElem?_map, he, Option.map_some]
    rw [List.drop_eq_getElem?_toList_append, hget]
    rfl
  · rw [hcells]
    exact hlen e hmem
  · rw [hcells, hsz]
    exact hr.slot_size hn
  · rw [Function.update_self, hpos, hsucc, hsz]
  · rw [hmin, List.take_of_length_le (Nat.le_of_eq hcells)] at hread
    have hmod : (fPos fd + e.size) % sizeMod = fPos fd + e.size :=
      Nat.mod_eq_of_lt (by unfold sizeMod; omega)
    have hneg : ¬ ssizeOf e.size < 0 := by
      have hle := hlen e hmem
      unfold lineLen at hle
      exact not_ssizeOf_neg (by omega)
    simp only [deviceCall, DeviceHost.at, Int.toNat_natCast, hread, Option.map_some, if_neg hneg,
      Kernel.advance, hmod]

/-- A `read` behind the last live entry. -/
theorem deviceCall_read_end (hi : Inv s.kernel)
    (htot : totalSize s.kernel.dev.circularBuffer < 2 ^ 64) {fd n : Nat} {fPos : Nat → Nat}
    (sends : List (Option Nat)) (hn : liveCount s.kernel.dev.circularBuffer ≤ n)
    (hpos : fPos fd = entryStart s.kernel.dev.circularBuffer n) :
    deviceCall (.read fd lineLen) (s.at fPos sends) = some (some [], s.at fPos sends) := by
  have hread := aesdRead_end (k := { s.kernel with fPos := fPos }) fd (hi.withFPos fPos) htot
    (by show _ ≤ fPos fd; rw [hpos, entryStart_of_le _ hn]) lineLen
  simp only [deviceCall, DeviceHost.at, Int.toNat_natCast, hread, Option.map_some]
  rfl

section Round

variable {s₁ s₂ : DeviceHost} {fd clientFd : Int} {line cells : List UInt8}
  {out : Option Nat}

/-- A round that sends all it has read. -/
theorem readLoop_sent {rounds : Nat} {s₃ : DeviceHost} {ret : Int}
    {es : List (SysEvent UInt8)}
    (hread : deviceCall (.read fd lineLen) s = some (some cells, s₁))
    (hsend : deviceCall (.send clientFd (storeLine line (some cells)) cells.length) s₁
      = some (some cells.length, s₂))
    (hne : cells.length ≠ 0) (hle : cells.length ≤ lineLen)
    (hrest : (readLoop rounds fd clientFd (storeLine line (some cells))).exec deviceCall s₂
      = some (ret, es, s₃)) :
    (readLoop (rounds + 1) fd clientFd line).exec deviceCall s
      = some (ret, ⟨.read fd lineLen, some cells⟩ ::
        ⟨.send clientFd (storeLine line (some cells)) cells.length, some cells.length⟩ :: es,
        s₃) := by
  refine exec_call hread ?_
  rw [Option.map_some, sendRound_next rounds fd clientFd _ _ (by simpa using hne)]
  refine exec_call hsend ?_
  rw [if_neg (sizeT_ne_error hle), if_neg (by simp)]
  exact hrest

/-- A round whose `send` fails or is short. -/
theorem readLoop_cut (rounds : Nat)
    (hread : deviceCall (.read fd lineLen) s = some (some cells, s₁))
    (hsend : deviceCall (.send clientFd (storeLine line (some cells)) cells.length) s₁
      = some (out, s₂))
    (hne : cells.length ≠ 0) (hcut : out ≠ some cells.length) :
    (readLoop (rounds + 1) fd clientFd line).exec deviceCall s
      = some (-1, [⟨.read fd lineLen, some cells⟩,
        ⟨.send clientFd (storeLine line (some cells)) cells.length, out⟩], s₂) := by
  refine exec_call hread ?_
  rw [Option.map_some, sendRound_next rounds fd clientFd _ _ (by simpa using hne)]
  refine exec_call hsend ?_
  cases out with
  | none => rw [if_pos rfl]; rfl
  | some m =>
    have hm : sizeT (some m) ≠ sizeT (some cells.length) := by
      simp only [sizeT]
      rintro rfl
      exact hcut rfl
    by_cases hbig : sizeT (some m) = sizeT none
    · rw [if_pos hbig]
      rfl
    · rw [if_neg hbig, if_pos hm]
      rfl

end Round

/--
**The send loop**, from a `read` at the start of the `n`-th live entry on. `todo` entries are left.
-/
theorem readLoop_exec (hi : Inv s.kernel)
    (hlen : ∀ e ∈ live s.kernel.dev.circularBuffer, e.size ≤ lineLen)
    (htot : totalSize s.kernel.dev.circularBuffer < 2 ^ 64) (fd : Nat) (clientFd : Int) :
    ∀ (todo n rounds : Nat) (line : List UInt8) (fPos : Nat → Nat)
      (sends : List (Option Nat)), n + todo = liveCount s.kernel.dev.circularBuffer →
      fPos fd = entryStart s.kernel.dev.circularBuffer n → todo < rounds →
    ∃ ret es fPos' sends', (readLoop rounds fd clientFd line).exec deviceCall (s.at fPos sends)
        = some (ret, es, s.at fPos' sends') ∧
      reads es ≤ todo + 1 ∧ (ret = 0 ∨ ret = -1) ∧ (ret = 0 ↔ SendsComplete es) ∧
      (ret = 0 → sent es = ((abs s.kernel).entries.drop n).flatten) ∧
      sent es <+: ((abs s.kernel).entries.drop n).flatten ∧
      (∀ e ∈ es, e.1.replying = true) ∧ (sends = [] → ret = 0 ∧ sends' = [])
  | 0, n, rounds + 1, line, fPos, sends, hn, hpos, _ => by
    have hnil : (abs s.kernel).entries.drop n = [] := by
      refine List.drop_of_length_le ?_
      rw [show (abs s.kernel).entries = (live s.kernel.dev.circularBuffer).map _ from rfl,
        List.length_map, length_live]
      omega
    refine ⟨0, [⟨.read fd lineLen, some []⟩, ⟨.close fd, 0⟩], fPos, sends, ?_, ?_, Or.inl rfl,
      ?_, ?_, ?_, by simp [Sys.replying], fun h => ⟨rfl, h⟩⟩
    · refine exec_call (deviceCall_read_end hi htot sends (by omega) hpos) ?_
      exact exec_call rfl rfl
    · simp [reads]
    · simp [SendsComplete]
    · simp [hnil, sent, sentBy]
    · simp [hnil, sent, sentBy]
  | todo + 1, n, rounds + 1, line, fPos, sends, hn, hpos, hr => by
    obtain ⟨cells, fPos₁, hdrop, hcl, hne, hpos₁, hread⟩ :=
      deviceCall_read_entry hi hlen htot sends (by omega) hpos
    obtain ⟨out, sends₁, hsend, hout, hgood⟩ := sendResult_eq cells.length (s.at fPos₁ sends)
    have hcall : deviceCall (.send clientFd (storeLine line (some cells)) cells.length)
        (s.at fPos₁ sends) = some (out, s.at fPos₁ sends₁) := congrArg some hsend
    have htake : (storeLine line (some cells)).take cells.length = cells :=
      List.take_left
    by_cases hfull : out = some cells.length
    · subst hfull
      obtain ⟨ret, es, fPos₂, sends₂, hexec, hreads, hret, hiff, hall, hpre, hcalls, hnofail⟩ :=
        readLoop_exec hi hlen htot fd clientFd todo (n + 1) rounds (storeLine line (some cells))
          fPos₁ sends₁ (by omega) hpos₁ (by omega)
      refine ⟨ret, ⟨.read fd lineLen, some cells⟩ ::
        ⟨.send clientFd (storeLine line (some cells)) cells.length, some cells.length⟩ :: es,
        fPos₂, sends₂, readLoop_sent hread hcall hne hcl hexec, ?_, hret, ?_, ?_, ?_,
        by simpa [Sys.replying] using hcalls, ?_⟩
      · simp only [reads, List.countP_cons] at hreads ⊢
        simp only [if_true, Bool.false_eq_true, if_false]
        omega
      · rw [hiff, sendsComplete_read, sendsComplete_send]
        simp
      · intro h0
        rw [hdrop, List.flatten_cons, ← hall h0]
        simp only [sent_cons, sentBy, htake, List.nil_append]
      · rw [hdrop, List.flatten_cons]
        simp only [sent_cons, sentBy, htake, List.nil_append]
        exact (List.prefix_append_right_inj cells).mpr hpre
      · intro h0
        exact hnofail (hgood h0).2
    · refine ⟨-1, [⟨.read fd lineLen, some cells⟩,
        ⟨.send clientFd (storeLine line (some cells)) cells.length, out⟩], fPos₁, sends₁,
        readLoop_cut rounds hread hcall hne hfull, ?_, Or.inr rfl, ?_, by simp, ?_,
        by simp [Sys.replying], ?_⟩
      · simp [reads]
      · rw [sendsComplete_read, sendsComplete_send]
        simp [hfull]
      · rw [hdrop, List.flatten_cons]
        cases out with
        | none => simp [sent, sentBy]
        | some m =>
          simp only [sent, sentBy, List.flatMap_cons, List.flatMap_nil, List.nil_append,
            List.append_nil]
          rw [← Nat.min_eq_left (hout m rfl), ← List.take_take, htake]
          exact (List.take_prefix m cells).trans (List.prefix_append _ _)
      · intro h0
        exact absurd (hgood h0).1 hfull

/-- `socket_client_send_file` when no entry is longer than the line buffer. -/
theorem sendFile_exec (hi : Inv s.kernel)
    (hlen : ∀ e ∈ live s.kernel.dev.circularBuffer, e.size ≤ lineLen) (file : String)
    (clientFd : Int) {rounds : Nat} (hr : 11 ≤ rounds) :
    ∃ ret es s',
      (socketClientSendFile rounds file clientFd).exec deviceCall s = some (ret, es, s') ∧
      reads es ≤ 11 ∧ (ret = 0 ∨ ret = -1) ∧ (ret = 0 ↔ SendsComplete es) ∧
      (ret = 0 → sent es = (abs s.kernel).entries.flatten) ∧
      sent es <+: (abs s.kernel).entries.flatten ∧ (∀ e ∈ es, e.1.replying = true) ∧
      (s.sends = [] → ret = 0 ∧ ∃ fPos, s' = { s with
        kernel := { s.kernel with fPos := fPos }, nextFd := s.nextFd + 1 }) := by
  obtain ⟨h, hring⟩ := hi.ring
  have htot : totalSize s.kernel.dev.circularBuffer < 2 ^ 64 := by
    have := hring.totalSize_le hlen
    unfold lineLen at this
    omega
  have hcount := hring.liveCount_le
  obtain ⟨ret, es, fPos, sends, hexec, hreads, hret, hiff, hall, hpre, hcalls, hnofail⟩ :=
    readLoop_exec (s := { s with nextFd := s.nextFd + 1 }) hi hlen htot s.nextFd clientFd
      (liveCount s.kernel.dev.circularBuffer) 0 rounds [] (Function.update s.kernel.fPos s.nextFd 0)
      s.sends (Nat.zero_add _) (Function.update_self ..) (by omega)
  refine ⟨ret, ⟨.openFile file .rdonly, (s.nextFd : Int)⟩ :: es,
    DeviceHost.at { s with nextFd := s.nextFd + 1 } fPos sends, ?_, ?_, hret, ?_, hall, hpre,
    by simpa [Sys.replying] using hcalls, ?_⟩
  · rw [sendFile_eq]
    exact exec_call rfl hexec
  · simp only [reads, List.countP_cons] at hreads ⊢
    simp only [Bool.false_eq_true, if_false]
    omega
  · rw [hiff]
    simp [SendsComplete]
  · intro h0
    obtain ⟨rfl, rfl⟩ := hnofail h0
    exact ⟨rfl, fPos, by simp only [DeviceHost.at, h0]⟩

/--
**The reply is a snapshot of the device.**

From any state the kernel can bring the device into, with every live entry short enough for one
`read`, and whatever the outcomes of `send`: `socket_client_send_file` is done after at most
eleven reads. It returns 0 exactly if every `send` was complete, and then it has sent the live
entries, oldest first; otherwise it has sent a prefix of that.
-/
theorem send_file_snapshot (s : DeviceHost) (hk : Reachable s.kernel)
    (hlen : ∀ e ∈ live s.kernel.dev.circularBuffer, e.size ≤ 32768) (file : String)
    (clientFd : Int) (rounds : Nat) (hr : 11 ≤ rounds) :
    ∃ ret es s',
      (socketClientSendFile rounds file clientFd).exec deviceCall s = some (ret, es, s') ∧
      reads es ≤ 11 ∧ (ret = 0 ∨ ret = -1) ∧ (ret = 0 ↔ SendsComplete es) ∧
      (ret = 0 → sent es
        = ((live s.kernel.dev.circularBuffer).map (bytesOf s.kernel.slab)).flatten) ∧
      (ret = -1 → sent es
        <+: ((live s.kernel.dev.circularBuffer).map (bytesOf s.kernel.slab)).flatten) := by
  obtain ⟨ret, es, s', hexec, hreads, hret, hiff, hall, hpre, -, -⟩ :=
    sendFile_exec hk.inv hlen file clientFd hr
  exact ⟨ret, es, s', hexec, hreads, hret, hiff, hall, fun _ => hpre⟩

/-- One entry of two bytes, of which `send` takes one. -/
theorem send_file_snapshot_partial_send :
    ∃ s ret es s', Reachable s.kernel ∧ s.sends = [some 1] ∧
      (live s.kernel.dev.circularBuffer).map AesdBufferEntry.size = [2] ∧
      (socketClientSendFile 11 (resultFile true) 4).exec deviceCall s = some (ret, es, s') ∧
      reads es ≤ 11 := by
  have hb : ∀ c ∈ [Call.write 0 [97, 10] { serves := fun n => decide (n < 4096), notCopied := 0 }],
      c.Bounded := by
    intro c hc
    rw [List.mem_singleton.mp hc]
    exact ⟨by decide, fun n hn => decide_eq_false (by omega)⟩
  obtain ⟨k, hrun, -⟩ := runCalls_ok _ aesdInitModule Inv.init (Nat.two_pow_pos 62) hb
  have hsz : (live k.dev.circularBuffer).map AesdBufferEntry.size = [2] := by
    have hdec : (runCalls aesdInitModule [Call.write 0 [97, 10]
        { serves := fun n => decide (n < 4096), notCopied := 0 }]).map
        (fun k => (live k.dev.circularBuffer).map AesdBufferEntry.size) = some [2] := by decide
    rw [hrun] at hdec
    exact Option.some.inj hdec
  obtain ⟨ret, es, s', hexec, hreads, -⟩ := send_file_snapshot
    { kernel := k, nextFd := 3, inbox := fun _ => [], sends := [some 1] } ⟨_, hb, hrun⟩ (by
      intro e he
      have hm := List.mem_map_of_mem (f := AesdBufferEntry.size) he
      rw [show (live k.dev.circularBuffer).map AesdBufferEntry.size = [2] from hsz,
        List.mem_singleton] at hm
      omega) (resultFile true) 4 11 (Nat.le_refl 11)
  exact ⟨_, ret, es, s', ⟨_, hb, hrun⟩, rfl, hsz, hexec, hreads⟩

/-! ## Receiving -/

theorem ssizeResult_natCast (n : Nat) : ssizeResult (n : Int) = some n := by
  unfold ssizeResult
  rw [if_neg (by omega), Int.toNat_natCast]

/-- `s` once `recv` has filled its buffer from the client. -/
def DeviceHost.drained (s : DeviceHost) (clientFd : Int) : DeviceHost :=
  { s with inbox := Function.update s.inbox clientFd ((s.inbox clientFd).drop bufferSize) }

/-- `s` after one round of the receive loop, the driver being in state `k` then. -/
def DeviceHost.stored (s : DeviceHost) (clientFd : Int) (k : Kernel) : DeviceHost :=
  { s.drained clientFd with kernel := k, nextFd := s.nextFd + 1 }

/-- A client that has sent `message` and closed its sending side. -/
def DeviceHost.connect (s : DeviceHost) (clientFd : Int) (message : List UInt8) : DeviceHost :=
  { s with inbox := Function.update s.inbox clientFd message }

/-- The device has taken the messages `ms`, each one line, and no other bytes. -/
structure Took (s : DeviceHost) (ms : List (List UInt8)) : Prop where
  whole : Whole s.kernel
  abs_eq : abs s.kernel = { entries := ms.rtake 10, staged := [] }
  short : ∀ m ∈ ms, m.length ≤ lineLen
  sends_nil : s.sends = []

/-- A message of one line: its only newline is its last byte. -/
def OneLine (message : List UInt8) : Prop :=
  ∃ body, message = body ++ [newline] ∧ newline ∉ body

theorem OneLine.mem {message : List UInt8} (h : OneLine message) : newline ∈ message := by
  obtain ⟨body, rfl, -⟩ := h
  exact List.mem_append_right _ (List.mem_singleton_self _)

/-- The line log takes a line as one entry. -/
theorem write_oneLine {message : List UInt8} (h : OneLine message) (ms : List (List UInt8)) :
    LineLog.write 10 isNewline { entries := ms.rtake 10, staged := [] } message
      = { entries := (ms ++ [message]).rtake 10, staged := [] } := by
  rw [LineLog.write_stop _ (by rw [any_isNewline, List.contains_iff_mem]; exact h.mem)]
  simp only [List.nil_append]
  rw [rtake_push]

end Aesd.Server

import Aesd.Driver.Concurrent

/-!
# What concurrent readers see

A reader may come between any two writes, and it may come while a line is only staged. What it
gets is a part of one line that was complete by then: nothing that is still staged, nothing of two
lines at once, and nothing that was thrown out of the ring before.
-/

namespace Aesd.Driver

open Infra Prog

/-- **A read** gives the beginning of a live entry, or nothing. -/
theorem aesdRead_prefix {k k' : Kernel} (hi : Inv k) {filp count notCopied : Nat}
    (hcount : count < 2 ^ 31) {bytes : List UInt8} {ret : Int}
    (h : aesdRead filp count notCopied k = some (bytes, ret, k')) :
    ret = bytes.length ∧ bytes.length ≤ count ∧
      (bytes = [] ∨ ∃ l ∈ (abs k).entries, bytes <+: l) := by
  unfold aesdRead at h
  cases hf : aesdCircularBufferFindEntryOffsetForFpos k.dev.circularBuffer (k.fPos filp) with
  | none =>
    rw [hf] at h
    cases h
    exact ⟨rfl, Nat.zero_le _, Or.inl rfl⟩
  | some x =>
    obtain ⟨idx, b⟩ := x
    have hidx : idx < 10 := findEntryLoop_lt _ _ _ _ _ idx b hf
    rw [hf] at h
    simp only [hi.load_slot hidx (Nat.min_le_right count _), Option.bind_eq_bind,
      Option.bind_some, Option.pure_def, Option.some.injEq, Prod.mk.injEq] at h
    obtain ⟨rfl, rfl, -⟩ := h
    rw [List.take_take, ssizeOf_of_lt (by omega)]
    by_cases hz : k.dev.circularBuffer.slot idx = .zero
    · -- a slot that was never used
      rw [hz, show AesdBufferEntry.zero.size = 0 from rfl]
      simp
    · have hlive := live_of_slot hi hidx hz
      have hlen : (bytesOf k.slab (k.dev.circularBuffer.slot idx)).length
          = (k.dev.circularBuffer.slot idx).size :=
        (hi.holds _ (mem_owners_of_live hlive)).length_bytesOf
      rw [List.length_take, hlen]
      refine ⟨?_, ?_, ?_⟩
      · omega
      · omega
      · exact Or.inr ⟨_, List.mem_map_of_mem hlive, List.take_prefix _ _⟩

/-- The lines that were complete after these operations, the last ten of them. -/
def committed (trace : List (Nat × Event FileOp.Ret)) : List (List UInt8) :=
  (LineLog.groups isNewline [] (payloads trace)).1.rtake 10

/-- What a read gives after operations whose writes were all complete. -/
def SeesCommitted (before : List (Nat × Event FileOp.Ret)) (x : Nat × Event FileOp.Ret) : Prop :=
  ∀ filp count bytes ret, x.2 = ⟨.read filp count, (bytes, ret)⟩ →
    (∀ y ∈ before, Complete y.2) →
    ret = bytes.length ∧ bytes.length ≤ count ∧
      (bytes = [] ∨ ∃ line ∈ committed before, bytes <+: line)

section

variable {A α : Type} {env : A → WriteEnv} {clients : Nat → Prog FileOp.Ret α}
  {ms : List (Nat × A)} {c : Config (Locked.Ret Access.Ret) (Guarded Kernel A) α}

/-- **One operation.** -/
theorem Logged.sees {w : World FileOp.Ret Kernel} (hl : Logged w) (hk : Sound w.state) {t : Nat}
    {op : FileOp} {r : op.Ret} {s : Kernel} {env : WriteEnv} (hop : op.Bounded)
    (hexec : op.exec env w.state = some (r, s)) : SeesCommitted w.trace (t, ⟨op, r⟩) := by
  intro filp count bytes ret hx hall
  cases hx
  obtain ⟨⟨bytes', ret', k'⟩, hread, heq⟩ := Option.map_eq_some_iff.mp hexec
  cases heq
  obtain ⟨hret, hle, hsees⟩ := aesdRead_prefix hk.inv hop hread
  refine ⟨hret, hle, ?_⟩
  rcases hsees with hnil | ⟨l, hmem, hprefix⟩
  · exact Or.inl hnil
  · rw [(hl.groups hall).1] at hmem
    exact Or.inr ⟨l, hmem, hprefix⟩

theorem sequential_sees (henv : ∀ a n, 2 ^ 62 ≤ n → (env a).serves n = false)
    (hclients : ∀ t, (clients t).Calls FileOp.Bounded) {c' : Config FileOp.Ret Kernel α}
    (hr : (sequentialSystem env).run (atomicStart aesdInitModule clients) ms = some c') :
    Always SeesCommitted c'.world.trace := by
  refine (System.run_invariant
    (J := fun w => (Sound w.state ∧ Logged w) ∧ Always SeesCommitted w.trace) ?_ hr
    ⟨⟨Sound.init, Logged.init⟩, always_nil⟩ hclients).1.2
  intro w t op a r s hop hw hact
  obtain ⟨⟨hk, hl⟩, hsees⟩ := hw
  obtain ⟨r', k', hexec, hk'⟩ := hk.exec (henv a) hop
  rw [show op.exec (env a) w.state = some (r, s) from hact] at hexec
  cases hexec
  exact ⟨⟨hk', hl.push hk hop hact⟩, always_push.mpr ⟨hsees, hl.sees hk hop hact⟩⟩

/--
**Readers see complete lines only.**

Let any threads read and write through any files, with their accesses interleaved in any way that
the mutex allows. Take the run in which the same threads make their operations one after the
other, in the order of the calls of `mutex_unlock`, with the same answers. A read in it that only
complete writes come before gives at most as much as it was asked for, and returns that many. If
that is something, it is the beginning of one of the last ten lines that were complete by then.
-/
theorem concurrent_reads_committed (henv : ∀ a n, 2 ^ 62 ≤ n → (env a).serves n = false)
    (hclients : ∀ t, (clients t).Calls FileOp.Bounded)
    (hr : (deviceSystem env).run (deviceStart A aesdInitModule clients) ms = some c) :
    ∃ ms' c', (sequentialSystem env).run (atomicStart aesdInitModule clients) ms' = some c' ∧
      ms'.map Prod.fst = unlocks c.world.trace ∧
      (∀ t, (clients t).Leads (c'.world.own t) (c'.prog t)) ∧
      (∀ t, (∀ x, c.world.state.holder = some x → x.1 ≠ t) →
        c.prog t = (c'.prog t).writeOut FileOp.prog) ∧
      ∀ before t filp count bytes ret after,
        c'.world.trace = before ++ (t, ⟨.read filp count, (bytes, ret)⟩) :: after →
        (∀ y ∈ before, Complete y.2) →
        ret = (bytes.length : Int) ∧ bytes.length ≤ count ∧
          (bytes = [] ∨ ∃ line ∈ committed before, bytes <+: line) := by
  rw [deviceStart_eq] at hr
  obtain ⟨ms', c', hr', hms, hm⟩ := run_atomic hr
  rw [atomicSystem_eq] at hr'
  refine ⟨ms', c', hr', hms, ?_, ?_, ?_⟩
  · exact sequential_leads hr'
  · intro t ht
    rw [writeOut_prog]
    exact hm.prog_eq ht
  · intro before t filp count bytes ret after heq hall
    exact sequential_sees henv hclients hr' before _ after heq filp count bytes ret rfl hall

end

/-- A line, the beginning of another one, and a reader. -/
def stagedWhileRead : Nat → Prog FileOp.Ret Unit
  | 0 => .call (.write 0 [97, 10]) fun _ => .ret ()
  | 1 => .call (.write 1 [98]) fun _ => .ret ()
  | 2 => .call (.read 2 8) fun _ => .ret ()
  | _ => .ret ()

/-- The reader comes when the second writer is done. -/
def readerLast : List (Nat × Unit) :=
  List.replicate 25 (0, ()) ++ List.replicate 12 (1, ()) ++ List.replicate 13 (2, ())

theorem stagedWhileRead_bounded (t : Nat) : (stagedWhileRead t).Calls FileOp.Bounded := by
  match t with
  | 0 => exact ⟨(by decide : 2 < 2 ^ 31), fun _ => trivial⟩
  | 1 => exact ⟨(by decide : 1 < 2 ^ 31), fun _ => trivial⟩
  | 2 => exact ⟨(by decide : 8 < 2 ^ 31), fun _ => trivial⟩
  | _ + 3 => trivial

/-- The reader gets the line, and nothing of what is staged. -/
theorem concurrent_reads_committed_staged : ∃ c ms' c' before bytes ret,
    (deviceSystem smallBlocks).run (deviceStart Unit aesdInitModule stagedWhileRead) readerLast
      = some c ∧
    (sequentialSystem smallBlocks).run (atomicStart aesdInitModule stagedWhileRead) ms'
      = some c' ∧
    c'.world.trace = before ++ [(2, ⟨.read 2 8, (bytes, ret)⟩)] ∧
    payloads before = [[97, 10], [98]] ∧ bytes = [97, 10] ∧
    ∃ line ∈ committed before, bytes <+: line := by
  have h : ((deviceSystem smallBlocks).run (deviceStart Unit aesdInitModule stagedWhileRead)
      readerLast).map (fun c => unlocks c.world.trace) = some [0, 1, 2] := by decide +kernel
  obtain ⟨c, hr, hu⟩ := Option.map_eq_some_iff.mp h
  obtain ⟨ms', c', hr', hms, -, -, hreads⟩ :=
    concurrent_reads_committed smallBlocks_limit stagedWhileRead_bounded hr
  obtain rfl : ms' = [(0, ()), (1, ()), (2, ())] := by
    rw [hu] at hms
    match ms', hms with
    | [(0, ()), (1, ()), (2, ())], _ => rfl
  have htrace : c'.world.trace = [(0, ⟨.write 0 [97, 10], (2 : Int)⟩),
      (1, ⟨.write 1 [98], (1 : Int)⟩)] ++ [(2, ⟨.read 2 8, ([97, 10], (2 : Int))⟩)] := by
    cases hr'
    rfl
  refine ⟨c, _, c', _, _, _, hr, hr', htrace, rfl, rfl, ?_⟩
  obtain ⟨-, -, hnil | hsees⟩ := hreads _ _ _ _ _ _ [] htrace (by
    intro y hy
    rcases List.mem_cons.mp hy with rfl | hy
    · rfl
    · rw [List.mem_singleton.mp hy]
      rfl)
  · cases hnil
  · exact hsees

end Aesd.Driver

import Aesd.Driver.Accesses
import Aesd.Driver.Lines
import Aesd.Infra.Atomic

/-!
# Many threads on one device

Any number of threads read and write through any files, and their accesses come in any order that
`device_mutex` allows. What they see is what they would see if every operation were the one step of
`Device.lean`; no access of theirs touches memory it does not own, and none of them waits for
ever.
-/

namespace Aesd.Driver

open Infra Prog

/-! ## The operations -/

/-- The file operations that take `device_mutex`. -/
inductive FileOp where
  | read (filp count : Nat)
  | write (filp : Nat) (buf : List UInt8)

/-- A read gives the bytes that the user buffer receives. -/
@[reducible] def FileOp.Ret : FileOp → Type
  | .read _ _ => List UInt8 × Int
  | .write _ _ => Int

namespace FileOp

/-- The accesses it makes. -/
def prog : (op : FileOp) → FileProg op.Ret
  | .read filp count => Accesses.aesdRead filp count
  | .write filp buf => Accesses.aesdWrite filp buf

/-- Those between `mutex_lock` and `mutex_unlock`. -/
def body (op : FileOp) : DevProg op.Ret := op.prog.unlocked

theorem prog_eq (op : FileOp) : op.prog = op.body.locked := by
  cases op with
  | read filp count => exact Accesses.aesdRead_locked filp count
  | write filp buf => exact Accesses.aesdWrite_locked filp buf

/-- The same in one step. -/
def exec (env : WriteEnv) : (op : FileOp) → Kernel → Option (op.Ret × Kernel)
  | .read filp count, k =>
    (aesdRead filp count env.notCopied k).map fun r => ((r.1, r.2.1), r.2.2)
  | .write filp buf, k => aesdWrite filp buf env k

def call (env : WriteEnv) : FileOp → Call
  | .read filp count => .read filp count env.notCopied
  | .write filp buf => .write filp buf env

/-- `MAX_RW_COUNT` -/
def Bounded : FileOp → Prop
  | .read _ count => count < 2 ^ 31
  | .write _ buf => buf.length < 2 ^ 31

theorem eval_body (env : WriteEnv) (op : FileOp) (k : Kernel) :
    op.body.eval (access env) k = op.exec env k := by
  cases op with
  | read filp count => exact Accesses.eval_aesdRead env k filp count
  | write filp buf => exact Accesses.eval_aesdWrite env k filp buf

theorem exec_call (env : WriteEnv) (op : FileOp) (k : Kernel) :
    ((op.call env).exec k).map Prod.snd = (op.exec env k).map Prod.snd := by
  cases op with
  | read filp count =>
    simp only [call, Call.exec, exec, Option.map_map]
    rfl
  | write filp buf => rfl

end FileOp

/-! ## The systems -/

section Systems

variable {A α : Type} (env : A → WriteEnv)

/-- The threads' accesses in any order. What the kernel decides for an operation is chosen when it
gets the mutex. -/
def deviceSystem : System (Locked.Ret Access.Ret) (Guarded Kernel A) A :=
  lockSystem fun a => access (env a)

/-- The threads' operations one after the other. -/
def sequentialSystem : System FileOp.Ret Kernel A where
  act w _ op a := op.exec (env a) w.state

theorem atomicSystem_eq :
    atomicSystem FileOp.body (fun a => access (env a)) = sequentialSystem env := by
  unfold atomicSystem sequentialSystem
  congr 1
  funext w t op a
  exact FileOp.eval_body (env a) op w.state

/-- A free mutex, the device in state `k`, and threads with their operations before them. -/
def deviceStart (A : Type) (k : Kernel) (clients : Nat → Prog FileOp.Ret α) :
    Config (Locked.Ret Access.Ret) (Guarded Kernel A) α where
  world := { state := { holder := none, state := k }, trace := [] }
  prog t := (clients t).writeOut FileOp.prog

theorem writeOut_prog (p : Prog FileOp.Ret α) :
    p.writeOut FileOp.prog = p.sections FileOp.body := by
  rw [funext FileOp.prog_eq]
  exact writeOut_locked FileOp.body p

theorem deviceStart_eq (k : Kernel) (clients : Nat → Prog FileOp.Ret α) :
    deviceStart A k clients = lockedStart A FileOp.body k clients := by
  unfold deviceStart lockedStart
  simp only [writeOut_prog]

end Systems

variable {A α : Type} {env : A → WriteEnv} {k : Kernel} {clients : Nat → Prog FileOp.Ret α}
  {ms : List (Nat × A)} {c : Config (Locked.Ret Access.Ret) (Guarded Kernel A) α}

/-! ## Linearizability -/

/-- Each thread does what its program says. -/
theorem sequential_leads {c' : Config FileOp.Ret Kernel α}
    (hr : (sequentialSystem env).run (atomicStart k clients) ms = some c') (t : Nat) :
    (clients t).Leads (c'.world.own t) (c'.prog t) := by
  obtain ⟨es, hown, hleads⟩ := System.run_leads hr t
  rw [show (atomicStart k clients).world.own t = [] from rfl, List.nil_append] at hown
  rw [hown]
  exact hleads

/--
**The device is linearizable.**

Whatever the threads do and however their accesses are interleaved, there is a run in which the same
threads make their operations one after the other, in the order of the calls of `mutex_unlock`.
Each thread that is not inside an operation has got the same answers there and has the same
left to do. While the mutex is free, the device is in the same state.
-/
theorem device_linearizable (hr : (deviceSystem env).run (deviceStart A k clients) ms = some c) :
    ∃ ms' c', (sequentialSystem env).run (atomicStart k clients) ms' = some c' ∧
      ms'.map Prod.fst = unlocks c.world.trace ∧
      (∀ t, (clients t).Leads (c'.world.own t) (c'.prog t)) ∧
      (∀ t, (∀ x, c.world.state.holder = some x → x.1 ≠ t) →
        c.prog t = (c'.prog t).writeOut FileOp.prog) ∧
      (c.world.state.holder = none → c.world.state.state = c'.world.state) := by
  rw [deviceStart_eq] at hr
  obtain ⟨ms', c', hr', hms, hm⟩ := run_atomic hr
  rw [atomicSystem_eq] at hr'
  refine ⟨ms', c', hr', hms, sequential_leads hr', ?_, ?_⟩
  · intro t ht
    rw [writeOut_prog]
    exact hm.prog_eq ht
  · intro hfree
    exact hm.state_eq hfree

/-- Two threads write a line each, through files of their own. -/
def twoWriters : Nat → Prog FileOp.Ret Unit
  | 0 => .call (.write 0 [97, 10]) fun _ => .ret ()
  | 1 => .call (.write 1 [98, 10]) fun _ => .ret ()
  | _ => .ret ()

/-- A kernel that serves what is smaller than a page. -/
def smallBlocks (_ : Unit) : WriteEnv where
  serves n := decide (n < 4096)
  notCopied := 0

theorem smallBlocks_limit (a : Unit) (n : Nat) (hn : 2 ^ 62 ≤ n) :
    (smallBlocks a).serves n = false := decide_eq_false (by omega)

/-- Thread 1 gets the mutex first. -/
def secondFirst : List (Nat × Unit) := List.replicate 25 (1, ()) ++ List.replicate 25 (0, ())

theorem twoWriters_run : ∃ c, (deviceSystem smallBlocks).run
    (deviceStart Unit aesdInitModule twoWriters) secondFirst = some c ∧
      unlocks c.world.trace = [1, 0] ∧ c.world.state.holder = none := by
  have h : ((deviceSystem smallBlocks).run (deviceStart Unit aesdInitModule twoWriters)
      secondFirst).map (fun c => (unlocks c.world.trace, c.world.state.holder))
        = some ([1, 0], none) := by decide
  obtain ⟨c, hr, hc⟩ := Option.map_eq_some_iff.mp h
  obtain ⟨hu, hh⟩ := Prod.mk.inj hc
  exact ⟨c, hr, hu, hh⟩

theorem device_linearizable_two_writers : ∃ c ms' c',
    (deviceSystem smallBlocks).run (deviceStart Unit aesdInitModule twoWriters) secondFirst
      = some c ∧
    (sequentialSystem smallBlocks).run (atomicStart aesdInitModule twoWriters) ms' = some c' ∧
    ms'.map Prod.fst = [1, 0] ∧ c.world.state.state = c'.world.state := by
  obtain ⟨c, hr, hu, hh⟩ := twoWriters_run
  obtain ⟨ms', c', hr', hms, -, -, hstate⟩ := device_linearizable hr
  exact ⟨c, ms', c', hr, hr', hms.trans hu, hstate hh⟩

/-! ## No access fails, and nobody waits for ever -/

/-- A device that the kernel brought into this state. -/
structure Sound (k : Kernel) : Prop where
  inv : Inv k
  small : k.dev.bufferEntryStaging.size < 2 ^ 62

theorem Sound.init : Sound aesdInitModule := ⟨Inv.init, Nat.two_pow_pos 62⟩

/-- **One operation**, whatever the kernel decides. -/
theorem Sound.exec (hk : Sound k) {env : WriteEnv} (henv : ∀ n, 2 ^ 62 ≤ n → env.serves n = false)
    {op : FileOp} (hop : op.Bounded) : ∃ r k', op.exec env k = some (r, k') ∧ Sound k' := by
  have hb : (op.call env).Bounded := by
    cases op with
    | read filp count => exact hop
    | write filp buf => exact ⟨hop, henv⟩
  obtain ⟨ret, k', he, hi, hsz, -⟩ := Call.exec_ok hk.inv hk.small hb
  have hmap := FileOp.exec_call env op k
  rw [he] at hmap
  obtain ⟨⟨r, k₁⟩, hexec, rfl⟩ := Option.map_eq_some_iff.mp hmap.symm
  exact ⟨r, k₁, hexec, hi, hsz⟩

theorem sequential_sound (henv : ∀ a n, 2 ^ 62 ≤ n → (env a).serves n = false)
    (hclients : ∀ t, (clients t).Calls FileOp.Bounded) {c' : Config FileOp.Ret Kernel α}
    (hr : (sequentialSystem env).run (atomicStart aesdInitModule clients) ms = some c') :
    Sound c'.world.state ∧ ∀ t, (c'.prog t).Calls FileOp.Bounded := by
  refine System.run_invariant (J := fun w => Sound w.state) ?_ hr Sound.init hclients
  intro w t op a r s hop hw hact
  obtain ⟨r', k', hexec, hk'⟩ := hw.exec (henv a) hop
  rw [show op.exec (env a) w.state = some (r, s) from hact] at hexec
  cases hexec
  exact hk'

/--
**No access fails, and nobody waits for ever.**

In every state that any threads can reach, with counts and allocations as the kernel bounds them, a
thread's next call has an answer, or it is `mutex_lock` and another thread has the mutex; the
next call of that thread has an answer. While the mutex is free, the buffers of the device are in
order.
-/
theorem device_calls_answered (henv : ∀ a n, 2 ^ 62 ≤ n → (env a).serves n = false)
    (hclients : ∀ t, (clients t).Calls FileOp.Bounded)
    (hr : (deviceSystem env).run (deviceStart A aesdInitModule clients) ms = some c) :
    (∀ t e next, c.prog t = .call e next → ∀ a,
      (∃ c₁, (deviceSystem env).step c t a = some c₁) ∨
        e = .lock ∧ ∃ x, c.world.state.holder = some x ∧ x.1 ≠ t ∧
          ∀ a', ∃ c₁, (deviceSystem env).step c x.1 a' = some c₁) ∧
      (c.world.state.holder = none → Inv c.world.state.state) := by
  rw [deviceStart_eq] at hr
  obtain ⟨ms', c', hr', -, hm⟩ := run_atomic hr
  rw [atomicSystem_eq] at hr'
  obtain ⟨hk, hcalls⟩ := sequential_sound henv hclients hr'
  refine ⟨fun t e next hp a => hm.can_step ?_ hp a, fun hfree => ?_⟩
  · intro t op next hnext a
    have hop := hcalls t
    rw [hnext] at hop
    obtain ⟨r, k', hexec, -⟩ := hk.exec (henv a) hop.1
    rw [FileOp.eval_body, hexec]
    rfl
  · rw [hm.state_eq hfree]
    exact hk.inv

theorem twoWriters_bounded (t : Nat) : (twoWriters t).Calls FileOp.Bounded := by
  match t with
  | 0 => exact ⟨(by decide : 2 < 2 ^ 31), fun _ => trivial⟩
  | 1 => exact ⟨(by decide : 2 < 2 ^ 31), fun _ => trivial⟩
  | _ + 2 => trivial

/-- Thread 1 has the mutex and thread 0 asks for it. -/
theorem device_calls_answered_mutex_held : ∃ c,
    (deviceSystem smallBlocks).run (deviceStart Unit aesdInitModule twoWriters) [(1, ())]
      = some c ∧
    (deviceSystem smallBlocks).step c 0 () = none ∧
    ∃ x, c.world.state.holder = some x ∧ x.1 = 1 ∧
      ∀ a', ∃ c₁, (deviceSystem smallBlocks).step c x.1 a' = some c₁ := by
  refine ⟨_, rfl, rfl, ?_⟩
  rcases (device_calls_answered smallBlocks_limit twoWriters_bounded
    (rfl : (deviceSystem smallBlocks).run (deviceStart Unit aesdInitModule twoWriters) [(1, ())]
      = some _)).1 0 _ _ rfl () with ⟨c₁, hs⟩ | ⟨-, x, hx, -, hstep⟩
  · cases hs
  · refine ⟨x, hx, ?_, hstep⟩
    cases hx
    rfl

/-! ## What concurrent writers leave -/

/-- The payload of a write. -/
def payload : Event FileOp.Ret → Option (List UInt8)
  | ⟨.write _ buf, _⟩ => some buf
  | ⟨.read _ _, _⟩ => none

/-- A write gave its count: all of it was stored. -/
def Complete : Event FileOp.Ret → Prop
  | ⟨.write _ buf, r⟩ => r = (buf.length : Int)
  | ⟨.read _ _, _⟩ => True

/-- The payloads of the writes, in the order of the calls. -/
def payloads (trace : List (Nat × Event FileOp.Ret)) : List (List UInt8) :=
  trace.filterMap fun x => payload x.2

/-- **A complete write** is one write of the line log, and leaves no staged byte lost. -/
theorem Sound.write_complete (hk : Sound k) {env : WriteEnv} {filp : Nat} {buf : List UInt8}
    {k' : Kernel} (hlen : buf.length < 2 ^ 31)
    (hexec : aesdWrite filp buf env k = some ((buf.length : Int), k')) :
    abs k' = (restored env.fresh k).write 10 isNewline buf ∧ gap k' = 0 := by
  have hsz := hk.small
  have hfit : request k buf.length < 2 ^ 64 := by unfold request; omega
  by_cases hs : request k buf.length = 0 ∨ env.serves (request k buf.length) = true
  · obtain ⟨k₁, hw, -, habs, hgap, -⟩ := aesdWrite_served filp hk.inv hfit (by omega) hs
    rw [hexec] at hw
    obtain ⟨hret, rfl⟩ := Prod.mk.inj (Option.some.inj hw)
    have hcopied : buf.length = bytesCopied buf env := by
      have hle : bytesCopied buf env ≤ buf.length := Nat.sub_le ..
      rw [ssizeOf_of_lt (by omega)] at hret
      exact Int.ofNat.inj hret
    have hbytes : userBytes buf env.notCopied = buf := by
      unfold bytesCopied at hcopied
      obtain h0 | h0 : env.notCopied = 0 ∨ buf.length = 0 := by omega
      · rw [h0, userBytes_zero]
      · rw [List.length_eq_zero_iff.mp h0]
        simp [userBytes]
    rw [habs, hbytes]
    exact ⟨rfl, hgap⟩
  · obtain ⟨h0, hs⟩ := not_or.mp hs
    obtain ⟨k₁, hw, -⟩ := aesdWrite_refused filp hk.inv hfit h0 (Bool.eq_false_iff.mpr hs)
    rw [hexec] at hw
    obtain ⟨hret, -⟩ := Prod.mk.inj (Option.some.inj hw)
    unfold enomem at hret
    omega

/-- The device after a run in which all writes were complete. -/
def Logged (w : World FileOp.Ret Kernel) : Prop :=
  (∀ x ∈ w.trace, Complete x.2) →
    abs w.state = LineLog.empty.run 10 isNewline (payloads w.trace) ∧ gap w.state = 0

theorem Logged.init : Logged { state := aesdInitModule, trace := [] } :=
  fun _ => ⟨abs_init, gap_init⟩

theorem Logged.push {w : World FileOp.Ret Kernel} (hl : Logged w) (hk : Sound w.state) {t : Nat}
    {op : FileOp} {r : op.Ret} {s : Kernel} {env : WriteEnv} (hop : op.Bounded)
    (hexec : op.exec env w.state = some (r, s)) : Logged (w.push t s ⟨op, r⟩) := by
  intro hall
  rw [World.push_trace] at hall ⊢
  obtain ⟨hold, hgap⟩ := hl fun x hx => hall x (List.mem_append_left _ hx)
  have hnew := hall (t, ⟨op, r⟩) (List.mem_append_right _ (List.mem_singleton_self _))
  rw [World.push_state]
  cases op with
  | read filp count =>
    have hs : abs s = abs w.state ∧ gap s = gap w.state := by
      obtain ⟨bytes, ret, fPos, hread⟩ := aesdRead_ok hk.inv filp count env.notCopied
      simp only [FileOp.exec, hread, Option.map_some, Option.some.injEq, Prod.mk.injEq] at hexec
      rw [← hexec.2]
      exact ⟨rfl, rfl⟩
    rw [hs.1, hs.2, hold]
    exact ⟨by simp [payloads, payload], hgap⟩
  | write filp buf =>
    have hret : r = (buf.length : Int) := hnew
    subst hret
    obtain ⟨habs, hgap'⟩ := hk.write_complete hop hexec
    rw [habs, restored_of_no_gap _ hgap, hold]
    exact ⟨by simp [payloads, payload, LineLog.run], hgap'⟩

theorem sequential_logged (henv : ∀ a n, 2 ^ 62 ≤ n → (env a).serves n = false)
    (hclients : ∀ t, (clients t).Calls FileOp.Bounded) {c' : Config FileOp.Ret Kernel α}
    (hr : (sequentialSystem env).run (atomicStart aesdInitModule clients) ms = some c') :
    Logged c'.world := by
  refine (System.run_invariant (J := fun w => Sound w.state ∧ Logged w) ?_ hr
    ⟨Sound.init, Logged.init⟩ hclients).1.2
  intro w t op a r s hop hw hact
  obtain ⟨r', k', hexec, hk'⟩ := hw.1.exec (henv a) hop
  rw [show op.exec (env a) w.state = some (r, s) from hact] at hexec
  cases hexec
  exact ⟨hk', hw.2.push hw.1 hop hact⟩

/-- The log, in the terms of the payloads. -/
theorem Logged.groups {w : World FileOp.Ret Kernel} (hl : Logged w)
    (hall : ∀ x ∈ w.trace, Complete x.2) :
    (abs w.state).entries = (LineLog.groups isNewline [] (payloads w.trace)).1.rtake 10 ∧
      (abs w.state).staged = (LineLog.groups isNewline [] (payloads w.trace)).2 := by
  rw [(hl hall).1]
  exact LineLog.run_empty 10 isNewline (payloads w.trace)

/--
**What concurrent writers leave.**

Let the mutex be free, and `w` be what the same threads do when they make their operations one after
the other, in the order of the calls of `mutex_unlock`. If all writes in it were complete, the ring
holds the last ten groups of their payloads and the staging entry what follows them. If moreover
every payload has a newline, the entries are the last ten payloads themselves: no line is torn.
-/
theorem concurrent_writes_logged (henv : ∀ a n, 2 ^ 62 ≤ n → (env a).serves n = false)
    (hclients : ∀ t, (clients t).Calls FileOp.Bounded)
    (hr : (deviceSystem env).run (deviceStart A aesdInitModule clients) ms = some c)
    (hfree : c.world.state.holder = none) :
    ∃ ms' c', (sequentialSystem env).run (atomicStart aesdInitModule clients) ms' = some c' ∧
      ms'.map Prod.fst = unlocks c.world.trace ∧
      (∀ t, c.prog t = (c'.prog t).writeOut FileOp.prog) ∧
      ((∀ x ∈ c'.world.trace, Complete x.2) →
        let groups := LineLog.groups isNewline [] (payloads c'.world.trace)
        let k := c.world.state.state
        (live k.dev.circularBuffer).map (bytesOf k.slab) = groups.1.rtake 10 ∧
          bytesOf k.slab k.dev.bufferEntryStaging = groups.2 ∧
          ((∀ p ∈ payloads c'.world.trace, newline ∈ p) →
            groups = (payloads c'.world.trace, []))) := by
  rw [deviceStart_eq] at hr
  obtain ⟨ms', c', hr', hms, hm⟩ := run_atomic hr
  rw [atomicSystem_eq] at hr'
  refine ⟨ms', c', hr', hms, fun t => ?_, fun hall => ⟨?_, ?_, fun hlines => ?_⟩⟩
  · rw [writeOut_prog]
    refine hm.prog_eq fun x hx => ?_
    rw [hfree] at hx
    cases hx
  · rw [hm.state_eq hfree]
    exact ((sequential_logged henv hclients hr').groups hall).1
  · rw [hm.state_eq hfree]
    exact ((sequential_logged henv hclients hr').groups hall).2
  · refine LineLog.groups_of_stops _ _ fun p hp => ?_
    exact List.any_eq_true.mpr ⟨newline, hlines p hp, beq_self_eq_true newline⟩

theorem concurrent_writes_logged_two_writers : ∃ c,
    (deviceSystem smallBlocks).run (deviceStart Unit aesdInitModule twoWriters) secondFirst
      = some c ∧
    (live c.world.state.state.dev.circularBuffer).map (bytesOf c.world.state.state.slab)
      = [[98, 10], [97, 10]] := by
  obtain ⟨c, hr, hu, hh⟩ := twoWriters_run
  obtain ⟨ms', c', hr', hms, -, hlog⟩ :=
    concurrent_writes_logged smallBlocks_limit twoWriters_bounded hr hh
  refine ⟨c, hr, ?_⟩
  obtain rfl : ms' = [(1, ()), (0, ())] := by
    rw [hu] at hms
    match ms', hms with
    | [(1, ()), (0, ())], _ => rfl
  have htrace : c'.world.trace = [(1, ⟨.write 1 [98, 10], (2 : Int)⟩),
      (0, ⟨.write 0 [97, 10], (2 : Int)⟩)] := by
    cases hr'
    rfl
  rw [htrace] at hlog
  obtain ⟨hent, -⟩ := hlog (by
    intro x hx
    rcases List.mem_cons.mp hx with rfl | hx
    · rfl
    · rw [List.mem_singleton.mp hx]
      rfl)
  exact hent

end Aesd.Driver

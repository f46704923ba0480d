import Aesd.Driver.Lines

/-!
# Loading and unloading the module

`aesd_init_module` and `aesd_cleanup_module` with the registrations they make: a device number and
the character device under it. The module may be loaded again after it was unloaded, and loading
it may fail; the heap outlives it.

The kernel keeps a module from being unloaded while one of its files is open.
-/

namespace Aesd.Driver

open Infra

/-! ## The machine -/

structure Machine where
  kernel : Kernel
  /-- `aesd_major` -/
  aesdMajor : Nat
  /-- the device numbers that are registered for the module, by their major number -/
  regions : List Nat
  /-- the number under which the character device is found -/
  cdev : Option Nat
  loaded : Bool
  /-- the open files -/
  files : List Nat

namespace Machine

/-- Before the module was ever loaded. -/
def start : Machine where
  kernel := Driver.aesdInitModule
  aesdMajor := 0
  regions := []
  cdev := none
  loaded := false
  files := []

/-- How `alloc_chrdev_region` and `cdev_add` turn out. -/
structure InitEnv where
  region : Except { result : Int // result < 0 } Nat
  cdevAdd : { err : Int // err ≤ 0 }

/-- `aesd_setup_cdev`, with the result of `cdev_add`. -/
def aesdSetupCdev (err : Int) (m : Machine) : Int × Machine :=
  if err ≠ 0 then (err, m) else (err, { m with cdev := some m.aesdMajor })

/-- `memset`, `aesd_circular_buffer_init` and `mutex_init`. -/
def clear (m : Machine) : Machine :=
  { m with kernel := { Driver.aesdInitModule with slab := m.kernel.slab } }

def aesdInitModule (env : InitEnv) (m : Machine) : Int × Machine :=
  match env.region with
  -- `dev` is 0 then
  | .error result => (result, { m with aesdMajor := 0 })
  | .ok major =>
    let m := clear { m with aesdMajor := major, regions := major :: m.regions }
    let (result, m) := aesdSetupCdev env.cdevAdd.1 m
    if result ≠ 0 then (result, { m with regions := m.regions.erase major }) else (result, m)

/-- `cdev_del`, the buffers, and `unregister_chrdev_region`. -/
def aesdCleanupModule (m : Machine) : Option Machine :=
  (Driver.aesdCleanupModule m.kernel).map fun slab =>
    { m with
      kernel := { m.kernel with slab := slab }
      cdev := none
      regions := m.regions.erase m.aesdMajor }

end Machine

open Machine (InitEnv)

/-! ## Actions -/

inductive Action where
  | insmod (env : InitEnv)
  | openFile (filp : Nat)
  | call (c : Call)
  | release (filp : Nat)
  | rmmod

def Call.filp : Call → Nat
  | .write filp _ _ => filp
  | .read filp _ _ => filp

namespace Machine

/-- The kernel lets it happen. -/
def admits (m : Machine) : Action → Bool
  | .insmod _ => !m.loaded
  | .openFile filp => m.cdev.isSome && !m.files.contains filp
  | .call c => m.files.contains c.filp
  | .release filp => m.files.contains filp
  | .rmmod => m.loaded && m.files.isEmpty

/-- What happens then; `none` if the module touches memory that is not its own. -/
def step (m : Machine) : Action → Option Machine
  | .insmod env =>
    let (result, m') := m.aesdInitModule env
    some { m' with loaded := result = 0 }
  | .openFile filp => some { m with kernel := aesdOpen filp m.kernel, files := filp :: m.files }
  | .call c => (c.exec m.kernel).map fun r => { m with kernel := r.2 }
  | .release filp => some { m with files := m.files.erase filp }
  | .rmmod => m.aesdCleanupModule.map fun m' => { m' with loaded := false }

/-- The blocks that a failing `krealloc` leaves behind. -/
def loses (m : Machine) : Action → List Nat
  | .call c => c.loses m.kernel
  | _ => []

end Machine

/-- Calls as the kernel passes them on. -/
def Action.Bounded : Action → Prop
  | .call c => c.Bounded
  | _ => True

/-- All that may have happened so far, with the blocks that were left behind. -/
inductive Lives : List Action → Machine → List Nat → Prop where
  | start : Lives [] Machine.start []
  | step {as : List Action} {m m' : Machine} {lost : List Nat} {a : Action} :
      Lives as m lost → m.admits a = true → a.Bounded → m.step a = some m' →
      Lives (as ++ [a]) m' (lost ++ m.loses a)

/-! ## What the device is meant to hold -/

/-- A line log, and the number of staged bytes that are lost. -/
structure Held where
  log : LineLog UInt8
  gap : Nat
  deriving DecidableEq, Repr

def Held.empty : Held where
  log := LineLog.empty
  gap := 0

def held (k : Kernel) : Held where
  log := abs k
  gap := gap k

/-- A call on what is held. When the allocator refuses, what was staged is lost, but not its size;
the next write that is served finds bytes of fresh memory there. -/
def Call.onHeld (held : Held) : Call → Held
  | .write _ buf env =>
    let request := held.log.staged.length + held.gap + buf.length
    if request = 0 ∨ env.serves request = true then
      let restaged := held.log.staged ++ Slab.freshWords env.fresh held.gap
      { log := { held.log with staged := restaged }.write 10 isNewline
          (userBytes buf env.notCopied)
        gap := 0 }
    else
      { log := { held.log with staged := [] }
        gap := held.log.staged.length + held.gap }
  | .read _ _ _ => held

/-- The calls since the module was loaded. -/
def thisLife (as : List Action) : List Call :=
  as.foldl (fun cs a => match a with
    | .insmod _ => []
    | .call c => cs ++ [c]
    | _ => cs) []

/-- What the calls since then make the device hold. -/
def contents (as : List Action) : Held :=
  (thisLife as).foldl Call.onHeld Held.empty

theorem contents_push (as : List Action) (a : Action) : contents (as ++ [a]) =
    match a with
    | .insmod _ => Held.empty
    | .call c => c.onHeld (contents as)
    | _ => contents as := by
  unfold contents thisLife
  rw [List.foldl_append, List.foldl_cons, List.foldl_nil]
  cases a with
  | call c => simp only [List.foldl_append, List.foldl_cons, List.foldl_nil]
  | _ => rfl

/-- **A call does to the device what it does to what is held.** -/
theorem Call.exec_onHeld {k : Kernel} (hi : Inv k) (hsz : k.dev.bufferEntryStaging.size < 2 ^ 62)
    {c : Call} (hb : c.Bounded) {ret : Int} {k' : Kernel} (h : c.exec k = some (ret, k')) :
    held k' = c.onHeld (held k) := by
  cases c with
  | read filp count notCopied =>
    obtain ⟨bytes, ret', fPos, hr⟩ := aesdRead_ok hi filp count notCopied
    simp only [Call.exec, hr, Option.map_some, Option.some.injEq, Prod.mk.injEq] at h
    rw [← h.2]
    rfl
  | write filp buf env =>
    obtain ⟨hlen, -⟩ := hb
    have hfit : request k buf.length < 2 ^ 64 := by
      unfold request
      omega
    have hw : aesdWrite filp buf env k = some (ret, k') := h
    have hreq : (held k).log.staged.length + (held k).gap + buf.length = request k buf.length := by
      unfold request
      rw [← hi.staged_length]
      rfl
    unfold Call.onHeld
    dsimp only
    rw [hreq]
    split
    · next hs =>
      obtain ⟨k₁, hw₁, -, habs, hgap, -⟩ := aesdWrite_served filp hi hfit (by omega) hs
      rw [hw] at hw₁
      cases hw₁
      unfold held
      rw [habs, hgap]
      rfl
    · next hs =>
      obtain ⟨hne, hs⟩ := not_or.mp hs
      obtain ⟨k₁, hw₁, -, habs, hgap, -⟩ :=
        aesdWrite_refused filp hi hfit hne (Bool.eq_false_iff.mpr hs)
      rw [hw] at hw₁
      cases hw₁
      unfold held
      rw [habs, hgap, ← hi.staged_length]

/-! ## The invariant -/

/-- While the module is loaded. -/
structure Alive (k : Kernel) (contents : Held) (lost : List Nat) : Prop where
  inv : Inv k
  size : k.dev.bufferEntryStaging.size < 2 ^ 62
  contents : held k = contents
  leaked : ∀ i, Leaked k i ↔ i ∈ lost

/-- While it is not. -/
structure Dead (k : Kernel) (lost : List Nat) : Prop where
  slab : k.slab.Wf
  left : ∀ i, (k.slab.block i).isSome = true ↔ i ∈ lost

/-- Between two actions. -/
structure ModuleInv (as : List Action) (m : Machine) (lost : List Nat) : Prop where
  regions : m.regions = if m.loaded then [m.aesdMajor] else []
  cdev : m.cdev = if m.loaded then some m.aesdMajor else none
  files : m.loaded = false → m.files = []
  alive : m.loaded = true → Alive m.kernel (contents as) lost
  dead : m.loaded = false → Dead m.kernel lost

/-- A new life starts with nothing. -/
theorem Dead.clear {k : Kernel} {lost : List Nat} (h : Dead k lost) :
    Alive { aesdInitModule with slab := k.slab } Held.empty lost := by
  have howners : owners { aesdInitModule with slab := k.slab } = [] := by
    show owners aesdInitModule = []
    rfl
  have hlive : live aesdInitModule.dev.circularBuffer = [] := rfl
  constructor
  case inv =>
    refine ⟨h.slab, Inv.init.ring, ?_, ?_, Inv.init.empty, Inv.init.kind⟩
    · intro e he
      rw [howners] at he
      cases he
    · rw [howners]
      exact List.nodup_nil
  case size => exact Nat.two_pow_pos 62
  case contents =>
    unfold held abs
    dsimp only
    rw [hlive]
    rfl
  case leaked =>
    intro i
    rw [← h.left i]
    refine and_iff_left ?_
    rintro ⟨e, he, -⟩
    rw [howners] at he
    cases he

theorem ModuleInv.start : ModuleInv [] Machine.start [] where
  regions := rfl
  cdev := rfl
  files _ := rfl
  alive h := by cases h
  dead _ := ⟨Slab.Wf.empty, fun i => by simp [Machine.start, aesdInitModule, Slab.empty]⟩

section Step

variable {as : List Action} {m m' : Machine} {lost : List Nat}

/-- The three ways `aesd_init_module` goes. -/
theorem aesdInitModule_refused {env : InitEnv} {result : { result : Int // result < 0 }}
    (hr : env.region = .error result) :
    m.aesdInitModule env = (result.1, { m with aesdMajor := 0 }) := by
  simp [Machine.aesdInitModule, hr]

theorem aesdInitModule_failed {env : InitEnv} {major : Nat} (hr : env.region = .ok major)
    (herr : env.cdevAdd.1 ≠ 0) :
    m.aesdInitModule env = (env.cdevAdd.1, Machine.clear { m with aesdMajor := major }) := by
  simp [Machine.aesdInitModule, hr, Machine.aesdSetupCdev, herr, Machine.clear]

theorem aesdInitModule_loaded {env : InitEnv} {major : Nat} (hr : env.region = .ok major)
    (herr : env.cdevAdd.1 = 0) : m.aesdInitModule env = (0, Machine.clear
      { m with aesdMajor := major, regions := major :: m.regions, cdev := some major }) := by
  simp [Machine.aesdInitModule, hr, Machine.aesdSetupCdev, herr, Machine.clear]

/-- **Loading** leaves nothing registered when it fails. -/
theorem ModuleInv.insmod (h : ModuleInv as m lost) (hl : m.loaded = false) (env : InitEnv) :
    ∃ m', m.step (.insmod env) = some m' ∧ ModuleInv (as ++ [.insmod env]) m' lost := by
  have hdead := h.dead hl
  have hregions := h.regions
  have hcdev := h.cdev
  rw [hl] at hregions hcdev
  cases hr : env.region with
  | error result =>
    have hne : result.1 ≠ 0 := by
      have hneg := result.2
      omega
    refine ⟨_, by rw [Machine.step, aesdInitModule_refused hr], ?_⟩
    dsimp only
    rw [decide_eq_false hne]
    exact ⟨hregions, hcdev, fun _ => h.files hl, fun hc => (by cases hc), fun _ => hdead⟩
  | ok major =>
    by_cases herr : env.cdevAdd.1 = 0
    · refine ⟨_, by rw [Machine.step, aesdInitModule_loaded hr herr], ?_⟩
      refine ⟨?_, rfl, fun hc => (by cases hc), fun _ => ?_, fun hc => (by cases hc)⟩
      · show major :: m.regions = [major]
        rw [hregions]
        rfl
      · rw [contents_push]
        exact hdead.clear
    · refine ⟨_, by rw [Machine.step, aesdInitModule_failed hr herr], ?_⟩
      rw [decide_eq_false herr]
      exact ⟨hregions, hcdev, fun _ => h.files hl, fun hc => (by cases hc),
        fun _ => ⟨hdead.slab, hdead.left⟩⟩

/-- A call on an open file. -/
theorem ModuleInv.call (h : ModuleInv as m lost) (hl : m.loaded = true) {c : Call}
    (hb : c.Bounded) : ∃ m', m.step (.call c) = some m' ∧
      ModuleInv (as ++ [.call c]) m' (lost ++ c.loses m.kernel) := by
  have halive := h.alive hl
  obtain ⟨ret, k', hexec, hi, hsz, hleak⟩ := Call.exec_ok halive.inv halive.size hb
  refine ⟨{ m with kernel := k' }, by rw [Machine.step, hexec]; rfl, h.regions, h.cdev, h.files,
    fun _ => ⟨hi, hsz, ?_, ?_⟩, ?_⟩
  · rw [contents_push, ← halive.contents]
    exact Call.exec_onHeld halive.inv halive.size hb hexec
  · intro i
    rw [hleak, halive.leaked, List.mem_append]
  · intro hc
    rw [show m.loaded = false from hc] at hl
    cases hl

/-- **Unloading** frees what has an owner. -/
theorem ModuleInv.rmmod (h : ModuleInv as m lost) (hl : m.loaded = true) (hf : m.files = []) :
    ∃ m', m.step .rmmod = some m' ∧ ModuleInv (as ++ [.rmmod]) m' lost := by
  have halive := h.alive hl
  obtain ⟨slab, hclean, hw, hsome⟩ := aesdCleanupModule_ok halive.inv
  have hstep : m.step .rmmod = some { m with
      kernel := { m.kernel with slab := slab }, cdev := none
      regions := m.regions.erase m.aesdMajor, loaded := false } := by
    rw [Machine.step, Machine.aesdCleanupModule, hclean]
    rfl
  refine ⟨_, hstep, ?_, rfl, fun _ => hf, fun hc => (by cases hc), fun _ => ⟨hw, ?_⟩⟩
  · show m.regions.erase m.aesdMajor = []
    rw [h.regions, hl]
    exact List.erase_cons_head ..
  · intro i
    rw [hsome, halive.leaked]

/-- Opening and closing a file changes nothing of the device. -/
theorem ModuleInv.keep (h : ModuleInv as m lost) (hl : m.loaded = true) {a : Action}
    (ha : contents (as ++ [a]) = contents as) (fPos : Nat → Nat) (files : List Nat) :
    ModuleInv (as ++ [a]) { m with kernel := { m.kernel with fPos := fPos }, files := files }
      lost := by
  have halive := h.alive hl
  have hinv := halive.inv
  refine ⟨h.regions, h.cdev, ?_, ?_, ?_⟩
  · intro hc
    rw [show m.loaded = false from hc] at hl
    cases hl
  · intro _
    rw [ha]
    exact ⟨⟨hinv.slab, hinv.ring, hinv.holds, hinv.distinct, hinv.empty, hinv.kind⟩, halive.size,
      halive.contents, halive.leaked⟩
  · intro hc
    rw [show m.loaded = false from hc] at hl
    cases hl

/-- A machine with a file or a device has the module loaded. -/
theorem ModuleInv.loaded_of_file (h : ModuleInv as m lost) {filp : Nat}
    (hf : m.files.contains filp = true) : m.loaded = true := by
  by_contra hl
  rw [h.files (Bool.eq_false_iff.mpr hl)] at hf
  cases hf

/-- **One action** that the kernel lets happen. -/
theorem ModuleInv.step (h : ModuleInv as m lost) {a : Action} (hadmits : m.admits a = true)
    (hb : a.Bounded) : ∃ m', m.step a = some m' ∧ ModuleInv (as ++ [a]) m' (lost ++ m.loses a) := by
  cases a with
  | insmod env =>
    rw [show m.loses (.insmod env) = [] from rfl, List.append_nil]
    exact h.insmod (by simpa [Machine.admits] using hadmits) env
  | call c => exact h.call (h.loaded_of_file hadmits) hb
  | rmmod =>
    rw [show m.loses .rmmod = [] from rfl, List.append_nil]
    simp only [Machine.admits, Bool.and_eq_true, List.isEmpty_iff] at hadmits
    exact h.rmmod hadmits.1 hadmits.2
  | openFile filp =>
    rw [show m.loses (.openFile filp) = [] from rfl, List.append_nil]
    simp only [Machine.admits, Bool.and_eq_true] at hadmits
    have hl : m.loaded = true := by
      by_contra hl
      rw [h.cdev, Bool.eq_false_iff.mpr hl] at hadmits
      cases hadmits.1
    exact ⟨_, rfl, h.keep hl (contents_push as _) _ _⟩
  | release filp =>
    rw [show m.loses (.release filp) = [] from rfl, List.append_nil]
    exact ⟨_, rfl, h.keep (h.loaded_of_file hadmits) (contents_push as _) m.kernel.fPos _⟩

end Step

theorem Lives.inv {as : List Action} {m : Machine} {lost : List Nat} (h : Lives as m lost) :
    ModuleInv as m lost := by
  induction h with
  | start => exact ModuleInv.start
  | step _ hadmits hb hstep ih =>
    obtain ⟨m', hstep', hinv⟩ := ih.step hadmits hb
    rw [hstep] at hstep'
    cases hstep'
    exact hinv

/--
**Any number of lives.**

However often the module is loaded, successfully or not, used and unloaded, with any allocation or
user copy failing: nothing that the kernel lets happen next touches memory that is not the module's
own. One device number and one character device are registered while the module is loaded, none
while it is not. The device holds what the calls since the module was loaded make it hold, whatever
was before. And while the module is not loaded, exactly the blocks are allocated that failing
`krealloc`s have left behind, in this life and all before it.
-/
theorem module_lives (as : List Action) (m : Machine) (lost : List Nat) (h : Lives as m lost) :
    (∀ a, m.admits a = true → a.Bounded → (m.step a).isSome = true) ∧
    (m.regions = if m.loaded then [m.aesdMajor] else []) ∧
    (m.cdev = if m.loaded then some m.aesdMajor else none) ∧
    (m.loaded = true → held m.kernel = contents as ∧ ∀ i, Leaked m.kernel i ↔ i ∈ lost) ∧
    (m.loaded = false → ∀ i, (m.kernel.slab.block i).isSome = true ↔ i ∈ lost) := by
  have hinv := h.inv
  refine ⟨?_, hinv.regions, hinv.cdev, ?_, ?_⟩
  · intro a hadmits hb
    obtain ⟨m', hstep, -⟩ := hinv.step hadmits hb
    rw [hstep]
    rfl
  · intro hl
    exact ⟨(hinv.alive hl).contents, (hinv.alive hl).leaked⟩
  · intro hl
    exact (hinv.dead hl).left

/-- The actions one after the other, with what they leave behind. -/
def runActions (m : Machine) (lost : List Nat) : List Action → Option (Machine × List Nat)
  | [] => some (m, lost)
  | a :: as =>
    if m.admits a then (m.step a).bind fun m' => runActions m' (lost ++ m.loses a) as else none

theorem Lives.run {as bs : List Action} {m m' : Machine} {lost l : List Nat} (h : Lives as m lost)
    (hb : ∀ a ∈ bs, a.Bounded) (hr : runActions m lost bs = some (m', l)) :
    Lives (as ++ bs) m' l := by
  induction bs generalizing as m lost with
  | nil =>
    cases hr
    rw [List.append_nil]
    exact h
  | cons a bs ih =>
    unfold runActions at hr
    split at hr
    · next hadmits =>
      obtain ⟨m₁, hstep, hr⟩ := Option.bind_eq_some_iff.mp hr
      rw [List.append_cons]
      exact ih (h.step hadmits (hb a List.mem_cons_self) hstep)
        (fun b hmem => hb b (List.mem_cons_of_mem a hmem)) hr
    · cases hr

/-- A first try in which `cdev_add` fails, then a life in which a line is begun and its buffer
lost, and a second life that knows nothing of it. -/
def twoLives : List Action :=
  [.insmod { region := .ok 240, cdevAdd := ⟨-12, by decide⟩ },
    .insmod { region := .ok 240, cdevAdd := ⟨0, by decide⟩ },
    .openFile 3, .call (.write 3 [97] { serves := fun n => decide (n < 4096), notCopied := 0 }),
    .call (.write 3 [98] { serves := fun _ => false, notCopied := 0 }), .release 3, .rmmod,
    .insmod { region := .ok 241, cdevAdd := ⟨0, by decide⟩ }]

theorem twoLives_bounded : ∀ a ∈ twoLives, a.Bounded := by
  intro a ha
  simp only [twoLives, List.mem_cons, List.not_mem_nil, or_false] at ha
  rcases ha with rfl | rfl | rfl | rfl | rfl | rfl | rfl | rfl
  case inr.inr.inr.inl => exact ⟨by decide, fun n hn => decide_eq_false (by omega)⟩
  case inr.inr.inr.inr.inl => exact ⟨by decide, fun n _ => rfl⟩
  all_goals trivial

theorem module_lives_twice : ∃ m lost, Lives twoLives m lost ∧ m.regions = [241] ∧
    held m.kernel = Held.empty ∧ Leaked m.kernel 0 := by
  have hend : (runActions Machine.start [] twoLives).map
      (fun r => (r.1.loaded, r.1.aesdMajor, r.2)) = some (true, 241, [0]) := by decide
  obtain ⟨⟨m, lost⟩, hrun, heq⟩ := Option.map_eq_some_iff.mp hend
  obtain ⟨hloaded, hmajor, hlost⟩ : m.loaded = true ∧ m.aesdMajor = 241 ∧ lost = [0] := by
    simpa using heq
  have hlives := Lives.start.run twoLives_bounded hrun
  obtain ⟨-, hregions, -, halive, -⟩ := module_lives twoLives m lost hlives
  obtain ⟨hheld, hleak⟩ := halive hloaded
  refine ⟨m, lost, hlives, ?_, hheld, (hleak 0).mpr ?_⟩
  · rw [hregions, hloaded, hmajor]
    rfl
  · rw [hlost]
    exact List.mem_singleton_self 0

end Aesd.Driver

import Aesd.Server.Main

/-!
# The descriptors of the daemon

`daemonize` opens `/dev/null` and duplicates descriptor 0 twice, meant for the three standard
streams. It closes nothing before, and the server's socket is open by then. A new descriptor is the
lowest one that is free: descriptor 0 is not. It is what the process was started with, the
connection that the first `syslog` has opened, or the socket.

Once there are signal handlers and threads, these log and open files as well, and so does
`application`. Their changes come between the calls of `main`.
-/

namespace Aesd.Server

open Infra Prog

/-! ## Descriptor tables -/

inductive Opened where
  /-- the process was started with it -/
  | inherited (fd : Nat)
  /-- the connection to the system log -/
  | log
  | server
  /-- `daemonize` opened it -/
  | null
  /-- not `main` itself -/
  | elsewhere
  deriving DecidableEq, Repr

/-- What a signal handler, a thread or `application` does to the descriptors. -/
inductive Elsewhere where
  | syslog (fd : Option Nat)
  | opens (fd : Int)
  | closes (fd : Int)

abbrev Change := BootEvent ⊕ Elsewhere

/-- The calls of `main` among them. -/
def ofMain (xs : List Change) : List BootEvent := xs.filterMap Sum.getLeft?

@[simp] theorem ofMain_push_inl (xs : List Change) (x : BootEvent) :
    ofMain (xs ++ [.inl x]) = ofMain xs ++ [x] := by
  simp [ofMain]

@[simp] theorem ofMain_push_inr (xs : List Change) (x : Elsewhere) :
    ofMain (xs ++ [.inr x]) = ofMain xs := by
  simp [ofMain]

structure Table where
  file : Nat → Option Opened
  /-- the descriptor that `syslog` sends to -/
  logFile : Option Nat

namespace Table

/-- The process is started with these descriptors. -/
def start (isOpen : Nat → Bool) : Table where
  file n := if isOpen n then some (.inherited n) else none
  logFile := none

def store (T : Table) (fd : Int) (x : Option Opened) : Table :=
  if 0 ≤ fd then { T with file := Function.update T.file fd.toNat x } else T

/-- The connection to the system log is closed. -/
def hangUp (T : Table) : Table where
  file := match T.logFile with
    | none => T.file
    | some fd => Function.update T.file fd none
  logFile := none

/-- It is where `syslog` leaves it. -/
def connect (T : Table) : Option Nat → Table
  | none => T.hangUp
  | some fd => { file := Function.update T.hangUp.file fd (some .log), logFile := some fd }

def next (T : Table) : Change → Table
  | .inl ⟨.syslog _, fd⟩ | .inr (.syslog fd) => T.connect fd
  | .inl ⟨.closelog, _⟩ => T.hangUp
  | .inl ⟨.socket, fd⟩ => T.store fd (some .server)
  | .inl ⟨.openNull, fd⟩ => T.store fd (some .null)
  | .inl ⟨.dup old, fd⟩ => T.store fd (T.file old.toNat)
  | .inr (.opens fd) => T.store fd (some .elsewhere)
  | .inl ⟨.close fd, _⟩ | .inr (.closes fd) => T.store fd none
  | _ => T

/-- After these changes. -/
def of (isOpen : Nat → Bool) (xs : List Change) : Table := xs.foldl next (start isOpen)

@[simp] theorem of_push (isOpen : Nat → Bool) (xs : List Change) (x : Change) :
    of isOpen (xs ++ [x]) = (of isOpen xs).next x := by
  simp [of, List.foldl_append]

/-- `-1`, or the lowest descriptor that is free. -/
def Lowest (T : Table) (fd : Int) : Prop :=
  fd = -1 ∨ 0 ≤ fd ∧ T.file fd.toNat = none ∧ ∀ n < fd.toNat, T.file n ≠ none

instance (T : Table) (fd : Int) : Decidable (T.Lowest fd) :=
  inferInstanceAs (Decidable (_ ∨ _ ∧ _ ∧ _))

/-- What POSIX says of a new descriptor. `syslog` opens a connection when there is none; one that is
lost it closes and opens anew. -/
def Allots (T : Table) : Change → Prop
  | .inl ⟨.socket, fd⟩ | .inl ⟨.openNull, fd⟩ | .inl ⟨.dup _, fd⟩ | .inr (.opens fd) => T.Lowest fd
  | .inl ⟨.syslog _, some fd⟩ | .inr (.syslog (some fd)) =>
    T.logFile = some fd ∧ T.file fd = some .log ∨ T.hangUp.Lowest fd
  | _ => True

section Store

variable {T : Table} {fd : Int} {x : Option Opened} {n : Nat}

theorem store_file : (T.store fd x).file n = T.file n ∨ (T.store fd x).file n = x := by
  unfold store
  split
  · by_cases hn : n = fd.toNat
    · rw [hn]
      exact Or.inr (Function.update_self ..)
    · exact Or.inl (Function.update_of_ne hn ..)
  · exact Or.inl rfl

theorem store_logFile : (T.store fd x).logFile = T.logFile := by
  unfold store
  split <;> rfl

/-- A descriptor that is in use is not given out. -/
theorem store_of_lowest (hfd : T.Lowest fd) (hn : T.file n ≠ none) :
    (T.store fd x).file n = T.file n := by
  unfold store
  obtain rfl | ⟨hpos, hfree, -⟩ := hfd
  · rfl
  · rw [if_pos hpos]
    refine Function.update_of_ne ?_ ..
    rintro rfl
    exact hn hfree

theorem store_of_ne (hfd : fd ≠ n) : (T.store fd x).file n = T.file n := by
  unfold store
  split
  · next hpos =>
    refine Function.update_of_ne ?_ ..
    rintro rfl
    exact hfd (Int.toNat_of_nonneg hpos).symm
  · rfl

/-- After a new descriptor, descriptor 0 is in use. -/
theorem zero_of_lowest (hfd : T.Lowest fd) (hne : fd ≠ -1) :
    (T.store fd x).file 0 = x ∨ (T.store fd x).file 0 = T.file 0 ∧ T.file 0 ≠ none := by
  unfold store
  obtain ⟨hpos, -, hlow⟩ := hfd.resolve_left hne
  rw [if_pos hpos]
  dsimp only
  by_cases h0 : fd.toNat = 0
  · rw [h0]
    exact Or.inl (Function.update_self ..)
  · exact Or.inr ⟨Function.update_of_ne (Ne.symm h0) .., hlow 0 (Nat.pos_of_ne_zero h0)⟩

theorem hangUp_file : T.hangUp.file n = T.file n ∨ T.hangUp.file n = none := by
  unfold hangUp
  cases T.logFile with
  | none => exact Or.inl rfl
  | some m =>
    by_cases hn : n = m
    · rw [hn]
      exact Or.inr (Function.update_self ..)
    · exact Or.inl (Function.update_of_ne hn ..)

theorem hangUp_of_ne (hn : T.logFile ≠ some n) : T.hangUp.file n = T.file n := by
  unfold hangUp
  cases hlog : T.logFile with
  | none => rfl
  | some m =>
    refine Function.update_of_ne ?_ ..
    rintro rfl
    exact hn hlog

theorem connect_file (fd : Option Nat) : (T.connect fd).file n = T.file n ∨
    (T.connect fd).file n = none ∨ (T.connect fd).file n = some .log := by
  cases fd with
  | none => exact (hangUp_file (T := T)).imp_right Or.inl
  | some m =>
    by_cases hn : n = m
    · rw [hn]
      exact Or.inr (Or.inr (Function.update_self ..))
    · rw [show (T.connect (some m)).file n = T.hangUp.file n from Function.update_of_ne hn ..]
      exact (hangUp_file (T := T)).imp_right Or.inl

end Store

end Table

/-! ## How far `main` is -/

inductive Stand where
  /-- no socket was opened -/
  | start
  /-- it has opened one, and has had nothing to log since -/
  | serving
  /-- something failed, or there are signal handlers -/
  | over
  deriving DecidableEq, Repr

namespace Stand

def next (p : Stand) : BootEvent → Stand
  | ⟨.syslog _, _⟩ => if p = .start then p else .over
  | ⟨.socket, fd⟩ => if p = .start ∧ fd ≠ -1 then .serving else .over
  | ⟨.signal _, _⟩ | ⟨.closelog, _⟩ | ⟨.close _, _⟩ => .over
  | _ => p

/-- After these calls. -/
def of (es : List BootEvent) : Stand := es.foldl next start

@[simp] theorem of_push (es : List BootEvent) (x : BootEvent) :
    of (es ++ [x]) = (of es).next x := by
  simp [of, List.foldl_append]

/-- It stays so. -/
theorem over_next (x : BootEvent) : Stand.over.next x = .over := by
  obtain ⟨e, r⟩ := x
  cases e <;> rfl

theorem over_of_signal {es : List BootEvent} {sig : Signal} {ok : Bool}
    (h : (⟨.signal sig, ok⟩ : BootEvent) ∈ es) : of es = .over := by
  induction es using List.reverseRecOn with
  | nil => cases h
  | append_singleton es x ih =>
    rw [of_push]
    rcases List.mem_append.mp h with h | h
    · rw [ih h, over_next]
    · rw [← List.mem_singleton.mp h]
      rfl

end Stand

/-- The daemon is made from the serving process. -/
def standView : View Boot.Ret Stand where
  may p e :=
    match e with
    | .socket => p = .start
    | .openNull => p = .serving
    | .dup old => old = 0 ∧ p = .serving
    | _ => True
  answers _ _ _ := True
  next := Stand.next
  spins := True

/-- A call that opens no file. -/
def Boot.opensNone : Boot → Prop
  | .socket | .openNull | .dup _ => False
  | _ => True

section Main

variable {α : Type} {Q : α → Stand → Prop} {p : Stand}

theorem stand_of_calls {m : BootProg α} (h : m.Calls Boot.opensNone) :
    standView.wp m (fun _ _ => True) p := by
  refine View.wp_calls (J := fun _ => True) (fun _ e _ he => ?_) (fun _ _ _ _ _ => trivial)
    trivial h trivial
  cases e <;> first | exact he.elim | exact trivial

theorem leave_calls (status : Int) : (leave status).Calls Boot.opensNone :=
  .call trivial fun _ => trivial

theorem cleanUp_calls (timer : Option Nat) (fd : Int) (address : Option Nat) {m : BootProg Exit}
    (hm : m.Calls Boot.opensNone) : (cleanUp timer fd address m).Calls Boot.opensNone :=
  .call trivial fun _ => .call trivial fun _ => .call trivial fun _ => hm

theorem setupSignalHandlers_calls : setupSignalHandlers.Calls Boot.opensNone := by
  unfold setupSignalHandlers
  simp only [bind_eq, perform_bind, pure_eq]
  refine .call trivial fun sigint => ?_
  split
  · trivial
  refine .call trivial fun sigterm => ?_
  split
  · trivial
  refine .call trivial fun sigusr1 => ?_
  split
  · trivial
  refine .call trivial fun semaphore => ?_
  split
  · trivial
  refine .call trivial fun created => ?_
  cases created with
  | none => trivial
  | some timer =>
    refine .call trivial fun set => ?_
    split <;> trivial

theorem removeResultFile_calls (useAesdCharDevice : Bool) :
    (removeResultFile useAesdCharDevice).Calls Boot.opensNone := by
  unfold removeResultFile
  split
  · refine .call trivial fun removed => ?_
    split
    · exact .call trivial fun _ => trivial
    · trivial
  · trivial

/-- It has a socket when `socket_server_create` says so. -/
theorem stand_socketServerCreate :
    standView.wp (socketServerCreate 0 none) (fun x p => x.1 = 0 → p = .serving) .start := by
  unfold socketServerCreate socketServerCreateAddressInfo
  simp only [bind_eq, perform_bind, pure_eq]
  refine ⟨rfl, fun fd _ => ?_⟩
  dsimp only
  split
  · exact nofun
  next hfd =>
  rw [show standView.next .start ⟨.socket, fd⟩ = .serving from if_pos ⟨rfl, hfd⟩]
  refine ⟨trivial, fun option _ => ?_⟩
  dsimp only
  split
  · exact nofun
  refine ⟨trivial, fun info _ => ?_⟩
  cases info with
  | error status =>
    simp only [ret_bind, if_pos status.2]
    exact ⟨trivial, fun _ _ => nofun⟩
  | ok a =>
    simp only [ret_bind, ne_eq, not_true, if_false]
    refine ⟨trivial, fun bound _ => ?_⟩
    dsimp only
    split
    · exact nofun
    refine ⟨trivial, fun listens _ => ?_⟩
    dsimp only
    split
    · exact nofun
    · exact fun _ => rfl

theorem stand_daemonize : standView.wp daemonize (fun _ _ => True) .serving := by
  unfold daemonize
  simp only [bind_eq, perform_bind, pure_eq]
  refine ⟨trivial, fun pid _ => ?_⟩
  dsimp only
  split
  · trivial
  split
  · trivial
  refine ⟨trivial, fun session _ => ?_⟩
  dsimp only
  split
  · exact ⟨trivial, fun _ _ => trivial⟩
  refine ⟨trivial, fun directory _ => ?_⟩
  dsimp only
  split
  · exact ⟨trivial, fun _ _ => trivial⟩
  · exact ⟨rfl, fun _ _ => ⟨⟨rfl, rfl⟩, fun _ _ => ⟨⟨rfl, rfl⟩, fun _ _ => trivial⟩⟩⟩

theorem stand_setupSocketServer (executeAsDaemon : Bool) :
    standView.wp (setupSocketServer executeAsDaemon 0 none) (fun _ _ => True) .start := by
  unfold setupSocketServer
  simp only [bind_eq, perform_bind, pure_eq]
  refine View.wp_bind (View.wp_mono (fun x p hp => ?_) stand_socketServerCreate)
  split
  · exact ⟨trivial, fun _ _ => trivial⟩
  next hcreated =>
  split
  · rw [hp (not_not.mp hcreated)]
    refine View.wp_bind (View.wp_mono (fun daemonResult p _ => ?_) stand_daemonize)
    split
    · exact ⟨trivial, fun _ _ => trivial⟩
    split
    · exact ⟨trivial, fun _ _ => trivial⟩
    · trivial
  · trivial

/-- **`main`** opens its files in this order. -/
theorem stand_main (useAesdCharDevice : Bool) (argv : List String) :
    standView.wp (main useAesdCharDevice argv) (fun _ _ => True) .start := by
  rw [main_eq]
  refine ⟨trivial, fun _ _ => ?_⟩
  dsimp only
  cases parseArguments argv with
  | none => exact stand_of_calls (leave_calls 1)
  | some executeAsDaemon =>
    dsimp only
    rw [runMain_eq]
    refine View.wp_bind (View.wp_mono (fun x p _ => stand_of_calls ?_)
      (stand_setupSocketServer executeAsDaemon))
    cases x with
    | none => trivial
    | some x =>
      dsimp only
      split
      · exact .call trivial fun _ => .call trivial fun _ => .call trivial fun _ => leave_calls (-1)
      refine .bind setupSignalHandlers_calls fun y => ?_
      split
      · exact .call trivial fun _ => cleanUp_calls _ _ _ (leave_calls (-1))
      refine .call trivial fun created => ?_
      cases created with
      | error _ => exact .call trivial fun _ => cleanUp_calls _ _ _ (leave_calls (-1))
      | ok thread =>
        refine .call trivial fun initialized => ?_
        split
        · exact cleanUp_calls _ _ _ (leave_calls (-1))
        · exact .call trivial fun result => .call trivial fun _ =>
            .bind (removeResultFile_calls useAesdCharDevice) fun _ => .call trivial fun _ =>
              cleanUp_calls _ _ _ (.call trivial fun _ => leave_calls result)

end Main

/-! ## Descriptor 0 -/

/-- It is a standard input, or what was opened before the daemon is made. -/
def Table.ZeroInUse (T : Table) : Prop :=
  T.file 0 = some (.inherited 0) ∨ T.file 0 = some .log ∨ T.file 0 = some .server

theorem Table.ZeroInUse.ne_none {T : Table} (h : T.ZeroInUse) : T.file 0 ≠ none := by
  obtain h | h | h := h <;> rw [h] <;> exact Option.some_ne_none _

/-- It is not `/dev/null`, and it is in use while `main` serves. -/
structure ZeroTaken (p : Stand) (T : Table) : Prop where
  not_null : T.file 0 ≠ some .null
  start : p = .start → T.file 0 = none ∨ T.ZeroInUse
  serving : p = .serving → T.ZeroInUse

section Zero

variable {p : Stand} {T T' : Table}

/-- Nothing is asked for any more but that it is not `/dev/null`. -/
theorem ZeroTaken.over (h : ZeroTaken p T) {x : Option Opened}
    (hT : T'.file 0 = T.file 0 ∨ T'.file 0 = x) (hx : x ≠ some .null) : ZeroTaken .over T' := by
  refine ⟨?_, nofun, nofun⟩
  obtain hT | hT := hT
  · rw [hT]
    exact h.not_null
  · rw [hT]
    exact hx

/-- `syslog`, of `main` or elsewhere. -/
theorem ZeroTaken.connect (h : ZeroTaken p T) (fd : Option Nat) :
    ZeroTaken (if p = .start then p else .over) (T.connect fd) := by
  have hfile := Table.connect_file (T := T) (n := 0) fd
  refine ⟨?_, fun hp => ?_, fun hp => ?_⟩
  · obtain hf | hf | hf := hfile
    · rw [hf]
      exact h.not_null
    all_goals
      rw [hf]
      decide
  · have hstart : p = .start := by
      by_contra hne
      rw [if_neg hne] at hp
      cases hp
    unfold Table.ZeroInUse
    obtain hf | hf | hf := hfile
    · rw [hf]
      exact h.start hstart
    · exact Or.inl hf
    · exact Or.inr (Or.inr (Or.inl hf))
  · split at hp
    · next hstart =>
      rw [hstart] at hp
      cases hp
    · cases hp

/-- A new descriptor while `main` serves. -/
theorem ZeroTaken.opens (h : ZeroTaken .serving T) {fd : Int} (x : Option Opened)
    (hfd : T.Lowest fd) : ZeroTaken .serving (T.store fd x) := by
  have hzero := Table.store_of_lowest (x := x) hfd (h.serving rfl).ne_none
  refine ⟨by rw [hzero]; exact h.not_null, nofun, fun _ => ?_⟩
  unfold Table.ZeroInUse
  rw [hzero]
  exact h.serving rfl

theorem ZeroTaken.socket (h : ZeroTaken .start T) {fd : Int} (hfd : T.Lowest fd) :
    ZeroTaken (Stand.start.next ⟨.socket, fd⟩) (T.store fd (some .server)) := by
  by_cases hne : fd = -1
  · subst hne
    exact ⟨h.not_null, nofun, nofun⟩
  rw [show Stand.start.next ⟨.socket, fd⟩ = .serving from if_pos ⟨rfl, hne⟩]
  unfold Table.Lowest at hfd
  obtain hz | ⟨hz, hused⟩ := Table.zero_of_lowest (x := some .server) hfd hne
  · exact ⟨by rw [hz]; decide, nofun, fun _ => Or.inr (Or.inr hz)⟩
  · refine ⟨by rw [hz]; exact h.not_null, nofun, fun _ => ?_⟩
    unfold Table.ZeroInUse
    rw [hz]
    exact (h.start rfl).resolve_left hused

/-- **One call of `main`.** -/
theorem ZeroTaken.call (h : ZeroTaken p T) {x : BootEvent} (hmay : standView.may p x.1)
    (hallots : T.Allots (.inl x)) : ZeroTaken (p.next x) (T.next (.inl x)) := by
  obtain ⟨e, r⟩ := x
  cases e with
  | syslog format => exact h.connect r
  | socket =>
    obtain rfl : p = .start := hmay
    exact h.socket hallots
  | openNull =>
    obtain rfl : p = .serving := hmay
    exact h.opens (some .null) hallots
  | dup old =>
    obtain ⟨rfl, rfl⟩ : old = 0 ∧ p = .serving := hmay
    exact h.opens (T.file 0) hallots
  | closelog => exact h.over Table.hangUp_file nofun
  | close fd => exact h.over Table.store_file nofun
  | signal sig => exact h.over (x := none) (Or.inl rfl) nofun
  | _ => exact h

/-- `daemonize` opens a file. -/
def opensStream : Change → Prop
  | .inl ⟨.openNull, _⟩ | .inl ⟨.dup _, _⟩ => True
  | _ => False

theorem ZeroTaken.opensStream (h : ZeroTaken p T) {x : BootEvent} (hmay : standView.may p x.1)
    (hopens : opensStream (.inl x)) : T.ZeroInUse := by
  obtain ⟨e, r⟩ := x
  cases e with
  | openNull => exact h.serving hmay
  | dup old => exact h.serving hmay.2
  | _ => exact hopens.elim

/-- What the process starts with. -/
theorem zeroTaken_start (isOpen : Nat → Bool) : ZeroTaken .start (Table.start isOpen) := by
  have hfile : (Table.start isOpen).file 0 = none ∨
      (Table.start isOpen).file 0 = some (.inherited 0) := by
    show (if isOpen 0 = true then _ else _) = _ ∨ (if isOpen 0 = true then _ else _) = _
    split
    · exact Or.inr rfl
    · exact Or.inl rfl
  refine ⟨?_, fun _ => hfile.imp_right Or.inl, nofun⟩
  obtain hf | hf := hfile <;> rw [hf] <;> decide

/-- **Elsewhere.** -/
theorem ZeroTaken.elsewhere (h : ZeroTaken .over T) (x : Elsewhere) :
    ZeroTaken .over (T.next (.inr x)) := by
  cases x with
  | syslog fd => exact h.connect fd
  | opens fd => exact h.over Table.store_file (by decide)
  | closes fd => exact h.over Table.store_file nofun

end Zero

/-! ## What stays -/

def closes (fd : Int) : Change → Prop
  | .inl ⟨.close fd', _⟩ | .inr (.closes fd') => fd' = fd
  | _ => False

/-- A descriptor that the process was started with. -/
structure Kept (n : Nat) (T : Table) : Prop where
  file : T.file n = some (.inherited n)
  not_log : T.logFile ≠ some n

section Kept

variable {n : Nat} {T : Table}

theorem Kept.ne_none (h : Kept n T) : T.file n ≠ none := by
  rw [h.file]
  exact Option.some_ne_none _

theorem Kept.store (h : Kept n T) {fd : Int} {x : Option Opened}
    (hstore : (T.store fd x).file n = T.file n) : Kept n (T.store fd x) :=
  ⟨by rw [hstore]; exact h.file, by rw [Table.store_logFile]; exact h.not_log⟩

theorem Kept.hangUp (h : Kept n T) : Kept n T.hangUp :=
  ⟨by rw [Table.hangUp_of_ne h.not_log]; exact h.file, nofun⟩

theorem Kept.connect (h : Kept n T) {fd : Option Nat} (hfd : ∀ m, fd = some m →
    T.logFile = some m ∧ T.file m = some .log ∨ T.hangUp.Lowest m) : Kept n (T.connect fd) := by
  cases fd with
  | none => exact h.hangUp
  | some m =>
    have hne : n ≠ m := by
      rintro rfl
      obtain ⟨hlog, -⟩ | hlow := hfd n rfl
      · exact h.not_log hlog
      · obtain hneg | ⟨-, hfree, -⟩ := hlow
        · cases hneg
        · exact h.hangUp.ne_none hfree
    refine ⟨?_, fun hc => hne (Option.some.inj hc).symm⟩
    rw [show (T.connect (some m)).file n = T.hangUp.file n from Function.update_of_ne hne ..]
    exact h.hangUp.file

/-- **A descriptor that nobody closes stays.** -/
theorem Kept.step (h : Kept n T) {x : Change} (hallots : T.Allots x) (hclose : ¬ closes n x) :
    Kept n (T.next x) := by
  rcases x with ⟨e, r⟩ | x
  · cases e with
    | syslog format =>
      refine h.connect fun m hm => ?_
      subst hm
      exact hallots
    | closelog => exact h.hangUp
    | socket | openNull | dup old => exact h.store (Table.store_of_lowest hallots h.ne_none)
    | close fd => exact h.store (Table.store_of_ne hclose)
    | _ => exact h
  · cases x with
    | syslog fd =>
      refine h.connect fun m hm => ?_
      subst hm
      exact hallots
    | opens fd => exact h.store (Table.store_of_lowest hallots h.ne_none)
    | closes fd => exact h.store (Table.store_of_ne hclose)

end Kept

/-! ## All runs -/

section Runs

variable {isOpen : Nat → Bool} {xs : List Change}

theorem zeroTaken_run (hmay : Always (fun pre x => standView.may (Stand.of pre) x.1) (ofMain xs))
    (helsewhere : Always (fun pre x => x.isRight = true →
      ∃ sig, (⟨.signal sig, true⟩ : BootEvent) ∈ ofMain pre) xs)
    (hallots : Always (fun pre x => (Table.of isOpen pre).Allots x) xs) :
    Always (fun pre x => opensStream x → (Table.of isOpen pre).ZeroInUse) xs ∧
      ZeroTaken (Stand.of (ofMain xs)) (Table.of isOpen xs) := by
  induction xs using List.reverseRecOn with
  | nil => exact ⟨always_nil, zeroTaken_start isOpen⟩
  | append_singleton xs x ih =>
    obtain ⟨he, hex⟩ := always_push.mp helsewhere
    obtain ⟨ha, hax⟩ := always_push.mp hallots
    rw [Table.of_push, always_push]
    rcases x with x | x
    · rw [ofMain_push_inl] at hmay ⊢
      rw [Stand.of_push]
      obtain ⟨hm, hmx⟩ := always_push.mp hmay
      obtain ⟨hopens, h⟩ := ih hm he ha
      exact ⟨⟨hopens, h.opensStream hmx⟩, h.call hmx hax⟩
    · rw [ofMain_push_inr] at hmay ⊢
      obtain ⟨hopens, h⟩ := ih hmay he ha
      -- there are signal handlers, so the daemon has been made
      obtain ⟨sig, hsig⟩ := hex rfl
      rw [Stand.over_of_signal hsig] at h ⊢
      exact ⟨⟨hopens, False.elim⟩, h.elsewhere x⟩

theorem kept_run {n : Nat} (hn : isOpen n = true)
    (hallots : Always (fun pre x => (Table.of isOpen pre).Allots x) xs)
    (hclose : ∀ x ∈ xs, ¬ closes n x) : Kept n (Table.of isOpen xs) := by
  induction xs using List.reverseRecOn with
  | nil => exact ⟨if_pos hn, nofun⟩
  | append_singleton xs x ih =>
    obtain ⟨ha, hax⟩ := always_push.mp hallots
    rw [Table.of_push]
    exact (ih ha fun y hy => hclose y (List.mem_append_left _ hy)).step hax (hclose x (by simp))

end Runs

/--
**The daemon keeps its standard streams.**

Whatever descriptors the process was started with, in every run of `main` in which a new descriptor
is the lowest free one, and in which others log, open and close files in between once there is a
signal handler: whenever `daemonize` opens or duplicates a file, descriptor 0 is the standard input
of the process, the connection to the system log or the server's socket, and it is never the
`/dev/null` that `daemonize` opens. Every descriptor that the process was started with is what it
was, unless somebody has closed it.
-/
theorem daemon_keeps_streams (useAesdCharDevice : Bool) (argv : List String) (isOpen : Nat → Bool)
    (xs : List Change) (q : BootProg Exit)
    (hrun : (main useAesdCharDevice argv).Leads (ofMain xs) q)
    (helsewhere : Always (fun pre x => x.isRight = true →
      ∃ sig, (⟨.signal sig, true⟩ : BootEvent) ∈ ofMain pre) xs)
    (hallots : Always (fun pre x => (Table.of isOpen pre).Allots x) xs) :
    Always (fun pre x => opensStream x → (Table.of isOpen pre).ZeroInUse) xs ∧
      (Table.of isOpen xs).file 0 ≠ some .null ∧
      ∀ n, isOpen n = true → (∀ x ∈ xs, ¬ closes n x) →
        (Table.of isOpen xs).file n = some (.inherited n) := by
  have hmay : Always (fun pre x => standView.may (Stand.of pre) x.1) (ofMain xs) :=
    (View.wp_leads (stand_main useAesdCharDevice argv) hrun fun _ _ _ _ => trivial).2
  obtain ⟨hopens, hzero⟩ := zeroTaken_run hmay helsewhere hallots
  exact ⟨hopens, hzero.not_null, fun n hn hclose => (kept_run hn hallots hclose).file⟩

/-- Started without a standard input, up to the end of `daemonize`. -/
def daemonCalls : List Change :=
  [.inl ⟨.syslog "Starting `aesdsocket`.", (some 0 : Option Nat)⟩, .inl ⟨.socket, (3 : Int)⟩,
    .inl ⟨.setsockopt 3, (0 : Int)⟩, .inl ⟨.getaddrinfo port, .ok 0⟩,
    .inl ⟨.bind 3 (some 0), (0 : Int)⟩, .inl ⟨.listen 3 backlog, (0 : Int)⟩,
    .inl ⟨.fork, (0 : Int)⟩, .inl ⟨.setsid, (7 : Int)⟩, .inl ⟨.chdir "/", (0 : Int)⟩,
    .inl ⟨.openNull, (4 : Int)⟩, .inl ⟨.dup 0, (5 : Int)⟩, .inl ⟨.dup 0, (6 : Int)⟩]

/-- The other two streams are open. -/
def twoStreams (n : Nat) : Bool := n == 1 || n == 2

theorem daemon_keeps_streams_log :
    (∃ q, (main true ["aesdsocket", "-d"]).Leads (ofMain daemonCalls) q) ∧
      (Table.of twoStreams daemonCalls).file 0 = some .log ∧
      (Table.of twoStreams daemonCalls).file 4 = some .null ∧
      ∀ n, twoStreams n = true →
        (Table.of twoStreams daemonCalls).file n = some (.inherited n) := by
  have hrun : ∃ q, (main true ["aesdsocket", "-d"]).Leads (ofMain daemonCalls) q :=
    ⟨_, _, rfl, _, rfl, _, rfl, _, rfl, _, rfl, _, rfl, _, rfl, _, rfl, _, rfl, _, rfl, _, rfl, _,
      rfl, rfl⟩
  obtain ⟨q, hq⟩ := hrun
  have helsewhere : Always (fun pre x => x.isRight = true →
      ∃ sig, (⟨.signal sig, true⟩ : BootEvent) ∈ ofMain pre) daemonCalls := by
    simp [daemonCalls, always_cons, always_nil]
  have hallots : Always (fun pre x => (Table.of twoStreams pre).Allots x) daemonCalls := by
    simp only [daemonCalls, always_cons]
    refine ⟨Or.inr ?_, ?_, trivial, trivial, trivial, trivial, trivial, trivial, trivial, ?_, ?_,
      ?_, always_nil⟩
    all_goals
      show Table.Lowest _ _
      decide
  refine ⟨⟨q, hq⟩, by decide, by decide, fun n hn => ?_⟩
  refine (daemon_keeps_streams true _ twoStreams daemonCalls q hq helsewhere hallots).2.2 n hn ?_
  simp [daemonCalls, closes]

end Aesd.Server

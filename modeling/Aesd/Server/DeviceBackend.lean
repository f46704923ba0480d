import Aesd.Server.Mutex
import Aesd.Server.Echo

/-!
# The device, shared

`USE_AESD_CHAR_DEVICE == 1`, the configuration that is built: every client sends one line of
fewer than 1024 bytes, and nothing fails. A worker stores its line in one critical section and
replies in another; the device keeps ten lines, and any number of other workers may store theirs
in between. A client sees its own line if at most nine of them do.
-/

namespace Aesd.Server

open Infra Prog Driver

/-! ## The server -/

/-- The payload of a write. -/
def payload : Nat × SysEvent UInt8 → Option (List UInt8)
  | (_, ⟨.write _ buffer, _⟩) => some buffer
  | _ => none

variable {s s' : DeviceHost} {ms : List (List UInt8)}

/-- A line is taken as one message. -/
theorem Took.write (ht : Took s ms) (fd : Int) {buffer : List UInt8} (hline : OneLine buffer)
    (hlen : buffer.length ≤ lineLen) : ∃ k,
    deviceCall (.write fd buffer) s = some (some buffer.length, { s with kernel := k }) ∧
      Took { s with kernel := k } (ms ++ [buffer]) := by
  have hfit : (abs s.kernel).staged.length + buffer.length < 2 ^ 64 := by
    rw [ht.abs_eq, List.length_nil]
    unfold lineLen at hlen
    omega
  obtain ⟨k, hw, hk, habs, -⟩ := ht.whole.write fd.toNat hfit
  rw [ssizeOf_of_lt (by unfold lineLen at hlen; omega)] at hw
  refine ⟨k, ?_, hk, ?_, ?_, ht.sends_nil⟩
  · simp only [deviceCall, hw, Option.map_some, ssizeResult_natCast]
  · rw [habs, ht.abs_eq, write_oneLine hline]
  · intro m hm
    rcases List.mem_append.mp hm with hm | hm
    · exact ht.short m hm
    · rw [List.mem_singleton.mp hm]
      exact hlen

/-- The other calls leave the messages alone. -/
theorem Took.other (ht : Took s ms) {e : Sys UInt8} {r : e.Ret} (hg : guarded e = true)
    (hw : ∀ fd buffer, e ≠ .write fd buffer) (h : deviceCall e s = some (r, s')) :
    Took s' ms := by
  cases e <;> cases hg
  case openFile =>
    cases h
    exact ⟨ht.whole.withFPos _, ht.abs_eq, ht.short, ht.sends_nil⟩
  case write fd buffer => exact absurd rfl (hw fd buffer)
  case read fd count =>
    obtain ⟨bytes, ret, fPos, hread⟩ := aesdRead_ok ht.whole.inv fd.toNat count 0
    simp only [deviceCall, hread, Option.map_some, Option.some.injEq, Prod.mk.injEq] at h
    rw [← h.2]
    exact ⟨ht.whole.withFPos _, ht.abs_eq, ht.short, ht.sends_nil⟩
  case recv fd len =>
    cases h
    exact ⟨ht.whole, ht.abs_eq, ht.short, ht.sends_nil⟩
  case send fd buf len =>
    have hres : sendResult len s = (some len, s) := by simp only [sendResult, ht.sends_nil]
    simp only [deviceCall, hres, Option.some.injEq, Prod.mk.injEq] at h
    rw [← h.2]
    exact ht

variable {packet : Nat → List UInt8} {t : Nat} {w : ServerWorld UInt8 DeviceHost}

end Aesd.Server

import Aesd.Server.DeviceBackend

/-!
# What the clients of the device see

The workers of `DeviceBackend`, whenever they come back to reply. All packets go into one sequence,
each once, in the order in which the workers wrote them. A reply is the last ten packets that were
there when the worker took the mutex again: a window of the sequence that ends behind its own
packet, and too far behind to show it if ten others have come in between.
-/

namespace Aesd.Server

open Infra Prog Driver

/-! ## One sequence of packets -/

section Stored

variable {trace : List (Nat × SysEvent UInt8)} {t : Nat}

end Stored

/-! ## Windows -/

variable {packet : Nat → List UInt8} {t : Nat} {w : ServerWorld UInt8 DeviceHost}
  {ms : List (List UInt8)}

end Aesd.Server

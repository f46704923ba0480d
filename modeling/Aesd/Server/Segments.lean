import Aesd.Server.Worker

/-!
# A packet in several pieces

TCP hands a packet over in pieces of any size. The receive loop of
`socket_client_receive_and_write_data` takes a piece of less than `BUFFER_SIZE` bytes for the end of
the packet, wherever its newline is, and one of exactly `BUFFER_SIZE` bytes for a sign of more.
-/

namespace Aesd.Server

open Infra Prog

/-! ## The wire -/

/-- The pieces that are still to be received, whether the client ends its side of the connection
after them, and the result file. -/
structure Wire where
  pieces : List (List UInt8)
  closed : Bool
  file : List UInt8

/-- The calls while nothing fails. Once all pieces are received, `recv` reports the end of the
stream if the client ended it, and waits for ever otherwise. -/
def wireCall : (e : Sys UInt8) → Wire → Option (e.Ret × Wire)
  | .recv _ _, s =>
    match s.pieces with
    | piece :: pieces => some (some piece, { s with pieces := pieces })
    | [] => if s.closed then some (some [], s) else none
  | .openFile _ _, s => some ((3 : Int), s)
  | .write _ buffer, s => some (some buffer.length, { s with file := s.file ++ buffer })
  | .close _, s => some ((0 : Int), s)
  | _, _ => none

/-- What a program returns, and the result file then; `none` if it does not return. -/
def outcome (p : ServerProg UInt8 Int) (s : Wire) : Option (Int × List UInt8) :=
  (p.exec wireCall s).map fun x => (x.1, x.2.2.file)

/-- The outcome of `socket_client_receive_and_write_data`. -/
def receives (rounds : Nat) (file : String) (clientFd : Int) (s : Wire) :
    Option (Int × List UInt8) :=
  outcome (socketClientReceiveAndWriteData rounds file clientFd) s

/-- One newline, at the end. -/
def IsPacket (packet : List UInt8) : Prop :=
  ∃ line, packet = line ++ [Driver.newline] ∧ Driver.newline ∉ line

/-- The packet in pieces that `recv` can hand over. -/
structure Segments (packet : List UInt8) (pieces : List (List UInt8)) : Prop where
  flatten : pieces.flatten = packet
  sizes : ∀ piece ∈ pieces, piece ≠ [] ∧ piece.length ≤ bufferSize

/-- Every piece but the last fills the buffer, and the last does not, unless the client then ends
the stream. -/
def Filled (closed : Bool) (pieces : List (List UInt8)) : Prop :=
  (∀ piece ∈ pieces.dropLast, piece.length = bufferSize) ∧
    (closed = true ∨ ∃ last, pieces.getLast? = some last ∧ last.length < bufferSize)

/-! ## The loop -/

/-- What the loop appends to the file. -/
def appended (closed : Bool) : List (List UInt8) → Option (List UInt8)
  | [] => if closed then some [] else none
  | piece :: pieces =>
    if piece.length = bufferSize then (appended closed pieces).map (piece ++ ·) else some piece

theorem outcome_call {e : Sys UInt8} {k : e.Ret → ServerProg UInt8 Int} {s s' : Wire} {r : e.Ret}
    (h : wireCall e s = some (r, s')) : outcome (.call e k) s = outcome (k r) s' :=
  exec_call_map (fun (result : Int) (wire : Wire) => (result, wire.file)) h

/-- One round, when there is something to receive. -/
theorem receives_round (rounds : Nat) (file : String) (clientFd : Int) (s : Wire)
    {piece : List UInt8} (hsize : piece.length ≤ bufferSize) {s' : Wire}
    (hrecv : wireCall (.recv clientFd bufferSize) s = some (some piece, s')) :
    receives (rounds + 1) file clientFd s =
      if piece.length = bufferSize then
        receives rounds file clientFd { s' with file := s'.file ++ piece }
      else some (0, s'.file ++ piece) := by
  have hne : ¬sizeT (some piece.length) = sizeT none :=
    sizeT_ne_error (by unfold bufferSize at hsize; unfold lineLen; omega)
  unfold receives
  rw [receive_succ, outcome_call hrecv, Option.map_some, Option.getD_some, if_neg hne,
    appendToFile_eq, call_bind, outcome_call rfl,
    call_bind, outcome_call rfl, if_neg (by simp),
    if_neg (show ¬sizeT (some piece.length) ≠ piece.length from fun hc => hc rfl), call_bind,
    outcome_call rfl, if_neg (by decide), ret_bind, if_neg (by decide)]
  by_cases hfull : piece.length = bufferSize
  · rw [if_pos hfull, if_pos (show sizeT (some piece.length) = bufferSize from hfull)]
  · rw [if_neg hfull, if_neg (show ¬sizeT (some piece.length) = bufferSize from hfull)]
    rfl

/-- **The loop.** -/
theorem receives_eq (file : String) (clientFd : Int) (closed : Bool) :
    ∀ (pieces : List (List UInt8)) (rounds : Nat) (before : List UInt8),
      (∀ piece ∈ pieces, piece.length ≤ bufferSize) → pieces.length < rounds →
      receives rounds file clientFd ⟨pieces, closed, before⟩
        = (appended closed pieces).map fun bytes => (0, before ++ bytes)
  | [], rounds + 1, before, _, _ => by
    cases closed with
    | true =>
      have hsize : ([] : List UInt8).length ≤ bufferSize := Nat.zero_le _
      rw [receives_round rounds file clientFd _ hsize rfl]
      rfl
    | false => rfl
  | piece :: pieces, rounds + 1, before, hsizes, hrounds => by
    rw [receives_round rounds file clientFd _ (hsizes piece List.mem_cons_self) rfl, appended]
    by_cases hfull : piece.length = bufferSize
    · rw [if_pos hfull, if_pos hfull, receives_eq file clientFd closed pieces rounds
        (before ++ piece) (fun p hp => hsizes p (List.mem_cons_of_mem _ hp))
        (Nat.lt_of_succ_lt_succ hrounds), Option.map_map]
      simp [Function.comp_def]
    · rw [if_neg hfull, if_neg hfull]
      rfl

/-- **What is appended is the packet exactly if the pieces fill the buffer.** -/
theorem appended_flatten_iff (closed : Bool) : ∀ pieces : List (List UInt8), pieces ≠ [] →
    (∀ piece ∈ pieces, piece ≠ [] ∧ piece.length ≤ bufferSize) →
    (appended closed pieces = some pieces.flatten ↔ Filled closed pieces)
  | [piece], _, hsizes => by
    have hle := (hsizes piece (List.mem_singleton_self _)).2
    rw [appended, Filled]
    by_cases hfull : piece.length = bufferSize
    · cases closed <;> simp [hfull, appended]
    · have hlt : piece.length < bufferSize := by omega
      simp [hlt, hfull]
  | piece :: next :: pieces, _, hsizes => by
    obtain ⟨hne, -⟩ := hsizes next (by simp)
    have ih := appended_flatten_iff closed (next :: pieces) (by simp)
      fun p hp => hsizes p (List.mem_cons_of_mem _ hp)
    rw [appended, Filled, List.dropLast_cons_cons, List.getLast?_cons_cons, List.forall_mem_cons,
      and_assoc, List.flatten_cons]
    by_cases hfull : piece.length = bufferSize
    · rw [if_pos hfull, iff_true_intro hfull, true_and]
      refine Iff.trans ?_ ih
      cases appended closed (next :: pieces) with
      | none => simp
      | some bytes => simp
    · -- the loop stops here, and the next piece is not empty
      rw [if_neg hfull]
      refine iff_of_false (fun hc => hne ?_) fun hc => hfull hc.1
      have hnil : (next :: pieces).flatten = [] := by simpa using hc
      exact List.flatten_eq_nil_iff.mp hnil next List.mem_cons_self

/--
**When the receive loop does not depend on segmentation.**

For every packet and any two ways to cut it into pieces, nothing failing: both runs return 0 and
have appended the whole packet, once and in order, if and only if in both of them every piece but
the last fills the buffer, and the last does not or is followed by the end of the stream.
-/
theorem segments_received_iff (packet : List UInt8) (hpacket : IsPacket packet)
    (pieces₁ pieces₂ : List (List UInt8)) (h₁ : Segments packet pieces₁)
    (h₂ : Segments packet pieces₂) (closed₁ closed₂ : Bool) (before : List UInt8) (file : String)
    (clientFd : Int) (rounds : Nat) (hrounds₁ : pieces₁.length < rounds)
    (hrounds₂ : pieces₂.length < rounds) :
    (receives rounds file clientFd ⟨pieces₁, closed₁, before⟩ = some (0, before ++ packet) ∧
      receives rounds file clientFd ⟨pieces₂, closed₂, before⟩ = some (0, before ++ packet)) ↔
    Filled closed₁ pieces₁ ∧ Filled closed₂ pieces₂ := by
  -- one of the two runs
  have hone : ∀ (pieces : List (List UInt8)) (closed : Bool), Segments packet pieces →
      pieces.length < rounds →
      (receives rounds file clientFd ⟨pieces, closed, before⟩ = some (0, before ++ packet) ↔
        Filled closed pieces) := by
    intro pieces closed h hrounds
    have hne : pieces ≠ [] := by
      rintro rfl
      obtain ⟨line, rfl, -⟩ := hpacket
      have := h.flatten
      simp at this
    rw [← appended_flatten_iff closed pieces hne h.sizes, h.flatten,
      receives_eq file clientFd closed pieces rounds before (fun p hp => (h.sizes p hp).2) hrounds]
    cases appended closed pieces with
    | none => simp
    | some bytes => simp
  rw [hone pieces₁ closed₁ h₁ hrounds₁, hone pieces₂ closed₂ h₂ hrounds₂]

/-- 1025 bytes, in one full piece and the newline, and in the same with the end of the stream. -/
theorem segments_received_iff_full_piece :
    receives 3 (resultFile false) 4 ⟨[List.replicate 1024 97, [10]], false, []⟩
        = some (0, [] ++ (List.replicate 1024 97 ++ [10])) ∧
      receives 3 (resultFile false) 4 ⟨[List.replicate 1024 97, [10]], true, []⟩
        = some (0, [] ++ (List.replicate 1024 97 ++ [10])) := by
  have hs : Segments (List.replicate 1024 97 ++ [10]) [List.replicate 1024 97, [10]] := by
    refine ⟨by simp only [List.flatten_cons, List.flatten_nil, List.append_nil], ?_⟩
    intro piece hp
    rcases List.mem_cons.mp hp with rfl | hp
    · exact ⟨List.ne_nil_of_length_pos (by rw [List.length_replicate]; decide),
        by rw [List.length_replicate]; exact Nat.le_refl _⟩
    · rw [List.mem_singleton.mp hp]
      exact ⟨by decide, by decide⟩
  have hfull : ∀ piece ∈ [List.replicate 1024 (97 : UInt8)], piece.length = bufferSize := by
    intro piece hp
    rw [List.mem_singleton.mp hp, List.length_replicate]
    rfl
  exact (segments_received_iff _
    ⟨_, rfl, fun hc => absurd (List.eq_of_mem_replicate hc) (by decide)⟩ _ _ hs hs false true []
    (resultFile false) 4 3 (by decide) (by decide)).mpr
    ⟨⟨hfull, Or.inr ⟨[10], rfl, by decide⟩⟩, hfull, Or.inl rfl⟩

/-- `"a\n"` in two pieces: the loop returns 0 after the `"a"`. -/
theorem segments_cut_before_newline :
    IsPacket [97, 10] ∧ Segments [97, 10] [[97], [10]] ∧ Segments [97, 10] [[97, 10]] ∧
      receives 3 (resultFile false) 4 ⟨[[97], [10]], false, []⟩ = some (0, [97]) ∧
      receives 3 (resultFile false) 4 ⟨[[97, 10]], false, []⟩ = some (0, [97, 10]) := by
  refine ⟨⟨[97], rfl, by simp [Driver.newline]⟩, ⟨rfl, ?_⟩, ⟨rfl, ?_⟩, ?_, ?_⟩
  · simp [bufferSize]
  · simp [bufferSize]
  · rw [receives_eq _ _ _ _ _ _ (by simp [bufferSize]) (by simp)]
    rfl
  · rw [receives_eq _ _ _ _ _ _ (by simp [bufferSize]) (by simp)]
    rfl

end Aesd.Server

import Aesd.Server.Calls

/-!
# The threads that touch the result file

`append_to_file` of `utilities.c`, the transfer functions of `socket_client.c`, and the two
thread functions of `main.c`. A loop of the source takes the number of its rounds.
-/

namespace Aesd.Server

open Infra Prog

variable {β : Type}

/-! ## `append_to_file` -/

/-- A descriptor that was opened is only closed if the write was complete. -/
def appendToFile (file : String) (buffer : List UInt8) : ServerProg β Int := do
  let fd ← sys (.openFile file .append)
  let result ← sys (.write fd buffer)
  if result = none then
    return -1
  else if sizeT result ≠ buffer.length then
    return -1
  if (← sys (.close fd)) = -1 then
    return -1
  return 0

/-! ## `socket_client.c` -/

/-- One round of the receive loop: stop with a result, or go on. -/
def receiveRound (file : String) (clientFd : Int) (_ : Unit) : ServerProg β (Unit ⊕ Int) := do
  let recvBuffer ← sys (.recv clientFd bufferSize)
  let bytesReceived := sizeT (recvBuffer.map List.length)
  if bytesReceived = sizeT none then
    return .inr (-1)
  -- Add data to end of the file
  if (← appendToFile file (recvBuffer.getD [])) = -1 then
    return .inr (-1)
  if bytesReceived = bufferSize then
    return .inl ()
  return .inr 0

def socketClientReceiveAndWriteData (rounds : Nat) (file : String) (clientFd : Int) :
    ServerProg β Int :=
  iter (receiveRound file clientFd) rounds ()

def socketClientSendLine (clientFd : Int) (line : List β) (length : Nat) : ServerProg β Int := do
  let bytesSent := sizeT (← sys (.send clientFd line length))
  if bytesSent = sizeT none then
    return -1
  if bytesSent ≠ length then
    return -1
  return 0

/-- What `read` leaves in the line buffer: the bytes it read, and behind them what was there. -/
def storeLine (line : List β) : Option (List β) → List β
  | none => line
  | some bytes => bytes ++ line.drop bytes.length

/-- One round of the send loop, from the line buffer and `bytes_read`. -/
def sendRound (fd clientFd : Int) (s : List β × Option Nat) :
    ServerProg β ((List β × Option Nat) ⊕ Int) := do
  let (line, bytesRead) := s
  if bytesRead = some 0 then
    let _ ← sys (.close fd)
    return .inr 0
  if (← socketClientSendLine clientFd line (sizeT bytesRead)) ≠ 0 then
    return .inr (-1)
  let bytes ← sys (.read fd lineLen)
  return .inl (storeLine line bytes, bytes.map List.length)

/-- The line buffer holds nothing that is known before the first `read`. -/
def socketClientSendFile (rounds : Nat) (file : String) (clientFd : Int) : ServerProg β Int := do
  let fd ← sys (.openFile file .rdonly)
  let bytes ← sys (.read fd lineLen)
  iter (sendRound fd clientFd) rounds (storeLine [] bytes, bytes.map List.length)

/-- The calls of `socket_client_send_file`. -/
def Sys.replying : Sys β → Bool
  | .openFile _ _ | .read _ _ | .send _ _ _ | .close _ => true
  | _ => false

/-! ## The loops, one round unfolded -/

theorem appendToFile_eq (file : String) (buffer : List UInt8) :
    (appendToFile file buffer : ServerProg β Int) = .call (.openFile file .append) fun fd =>
      .call (.write fd buffer) fun result =>
        if result = none then .ret (-1)
        else if sizeT result ≠ buffer.length then .ret (-1)
        else .call (.close fd) fun closed => if closed = -1 then .ret (-1) else .ret 0 := by
  unfold appendToFile
  simp only [bind_eq, perform_bind, pure_eq]

theorem receive_succ (rounds : Nat) (file : String) (clientFd : Int) :
    (socketClientReceiveAndWriteData (rounds + 1) file clientFd : ServerProg β Int)
      = .call (.recv clientFd bufferSize) fun recvBuffer =>
        if sizeT (recvBuffer.map List.length) = sizeT none then .ret (-1)
        else (appendToFile file (recvBuffer.getD [])).bind fun result =>
          if result = -1 then .ret (-1)
          else if sizeT (recvBuffer.map List.length) = bufferSize then
            socketClientReceiveAndWriteData rounds file clientFd
          else .ret 0 := by
  unfold socketClientReceiveAndWriteData
  rw [iter_succ]
  unfold receiveRound
  simp only [bind_eq, perform_bind, pure_eq, call_bind]
  congr 1
  funext recvBuffer
  split
  · rfl
  · rw [bind_assoc]
    congr 1
    funext result
    split
    · rfl
    · split <;> rfl

/-- The send loop from the `read` before it on. -/
def readLoop (rounds : Nat) (fd clientFd : Int) (line : List β) : ServerProg β Int :=
  .call (.read fd lineLen) fun bytes =>
    iter (sendRound fd clientFd) rounds (storeLine line bytes, bytes.map List.length)

theorem sendFile_eq (rounds : Nat) (file : String) (clientFd : Int) :
    (socketClientSendFile rounds file clientFd : ServerProg β Int)
      = .call (.openFile file .rdonly) fun fd => readLoop rounds fd clientFd [] := rfl

theorem sendRound_end (rounds : Nat) (fd clientFd : Int) (line : List β) :
    iter (sendRound fd clientFd) (rounds + 1) (line, some 0)
      = .call (.close fd) fun _ => .ret 0 := rfl

theorem sendRound_next (rounds : Nat) (fd clientFd : Int) (line : List β) (bytesRead : Option Nat)
    (h : bytesRead ≠ some 0) : iter (sendRound fd clientFd) (rounds + 1) (line, bytesRead)
      = .call (.send clientFd line (sizeT bytesRead)) fun bytesSent =>
        if sizeT bytesSent = sizeT none then .ret (-1)
        else if sizeT bytesSent ≠ sizeT bytesRead then .ret (-1)
        else readLoop rounds fd clientFd line := by
  rw [iter_succ]
  unfold sendRound socketClientSendLine
  simp only [bind_eq, perform_bind, pure_eq, call_bind, if_neg h]
  congr 1
  funext bytesSent
  split
  · rfl
  · split <;> rfl

/-! ## Thread functions -/

/-- The end of a worker that failed, `result_file_mutex` still held. -/
def failWorker (node : Nat) (clientFd : Int) : ServerProg β Unit := do
  sys .mutexUnlock
  let _ ← sys (.close clientFd)
  sys (.setThreadStatus node .failed)
  sys .pthreadExit

/-- `data_transfer_worker` on the `thread_data` of `node`, whose `client_fd` nobody changes. -/
def dataTransferWorker (rounds : Nat) (file : String) (node : Nat) (clientFd : Int) :
    ServerProg β Unit := do
  sys (.setThreadStatus node .running)
  sys .mutexLock
  if (← socketClientReceiveAndWriteData rounds file clientFd) = -1 then
    failWorker node clientFd
  else
    sys .mutexUnlock
    -- Send the contents of the file back to the client
    sys .mutexLock
    if (← socketClientSendFile rounds file clientFd) = -1 then
      failWorker node clientFd
    else
      sys .mutexUnlock
      let _ ← sys (.close clientFd)
      sys (.setThreadStatus node .succeeded)
      sys .pthreadExit

/-- One round of `log_timestamp_worker`. What the clock says only reaches the text that `strftime`
makes; `localtime_r` answers whether it had a result. -/
def logRound (useAesdCharDevice : Bool) (_ : Unit) : ServerProg β (Unit ⊕ Unit) := do
  if ← sys .isTerminated then
    sys .pthreadExit
    return .inr ()
  let _ ← sys .clockGettime
  if !(← sys .localtimeR) then
    return .inl ()
  let timeString ← sys (.strftime 128)
  if timeString.length = 0 then
    return .inl ()
  if !useAesdCharDevice then
    sys .mutexLock
    let _ ← appendToFile (resultFile useAesdCharDevice) (timeString ++ [Driver.newline])
    sys .mutexUnlock
  sys .semWait
  return .inl ()

def logTimestampWorker (useAesdCharDevice : Bool) (rounds : Nat) : ServerProg β Unit := do
  -- Initial wait for first timestamp write
  sys .semWait
  iter (logRound useAesdCharDevice) rounds ()

/-- How a worker ends once it has released the mutex. -/
def endWorker (node : Nat) (clientFd : Int) (status : ThreadStatus) : ServerProg β Unit :=
  .call (.close clientFd) fun _ => .call (.setThreadStatus node status) fun _ =>
    .call .pthreadExit .ret

theorem failWorker_eq (node : Nat) (clientFd : Int) : (failWorker node clientFd : ServerProg β Unit)
    = .call .mutexUnlock fun _ => endWorker node clientFd .failed := rfl

theorem dataTransferWorker_eq (rounds : Nat) (file : String) (node : Nat) (clientFd : Int) :
    (dataTransferWorker rounds file node clientFd : ServerProg β Unit)
      = .call (.setThreadStatus node .running) fun _ => .call .mutexLock fun _ =>
        (socketClientReceiveAndWriteData rounds file clientFd).bind fun received =>
          if received = -1 then failWorker node clientFd
          else .call .mutexUnlock fun _ => .call .mutexLock fun _ =>
            (socketClientSendFile rounds file clientFd).bind fun replied =>
              if replied = -1 then failWorker node clientFd
              else .call .mutexUnlock fun _ => endWorker node clientFd .succeeded := rfl

/-- One round of the logger with the regular file. -/
theorem logRound_eq : (logRound false () : ServerProg β (Unit ⊕ Unit))
    = .call .isTerminated fun terminated =>
      if terminated then .call .pthreadExit fun _ => .ret (.inr ())
      else .call .clockGettime fun _ => .call .localtimeR fun converted =>
        if !converted then .ret (.inl ())
        else .call (.strftime 128) fun timeString =>
          if timeString.length = 0 then .ret (.inl ())
          else .call .mutexLock fun _ =>
            (appendToFile (resultFile false) (timeString ++ [Driver.newline])).bind fun _ =>
              .call .mutexUnlock fun _ => .call .semWait fun _ => .ret (.inl ()) := by
  unfold logRound
  simp only [bind_eq, perform_bind, pure_eq]
  rfl

end Aesd.Server

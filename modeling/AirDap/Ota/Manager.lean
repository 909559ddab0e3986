import AirDap.Dap.Protocol
import AirDap.Mode.Calls

/-! The OTA manager: one update session for the USB client and all network clients, under one
mutex. A pointer to a connection is the word of its address, and zero is the null pointer. The
calls of the mode state and of the arbiter retry without a bound in the source: they are given
any number of rounds. -/
namespace AirDap
open Concurrency

/-- `airdap_ota_status_t`. -/
inductive OtaStatus where
  | ok | invalidArgument | invalidState | invalidSize | invalidOffset | incompleteImage
  | writeFailed | validationFailed | activationFailed | internalError | unauthenticated | busy
  deriving DecidableEq, Repr

/-- The part of `esp_partition_t` that the manager reads. -/
structure Partition where
  address : Word
  size : ℕ
  deriving DecidableEq, Repr

inductive OtaSessionState where
  | idle | receiving | committed
  deriving DecidableEq, Repr

/-- `ota_session_t`. -/
structure OtaSession where
  partition : Option Partition
  handle : Word
  expectedSize : Word
  writtenSize : Word
  state : OtaSessionState
  connection : Word
  ownerSession : Word
  disconnected : Bool
  deriving DecidableEq, Repr

/-- The session that `reset_session` leaves. -/
def OtaSession.zero : OtaSession := ⟨none, 0, 0, 0, .idle, 0, 0, false⟩

/-- `airdap_ota_client_t`. The USB client is a null pointer. -/
structure OtaClient where
  connection : Word
  sessionId : Word
  authorize : Word
  deriving DecidableEq, Repr

/-- An access to the session, its mutex or the UART service, a call of the ESP OTA driver or
the callback that authorizes a client. -/
inductive OtaIo where
  | lockSession
  | unlockSession
  | loadSession
  | storeSession (session : OtaSession)
  | authorize (client : OtaClient)
  | uartSuspend
  | uartResume
  | getNextUpdatePartition
  | otaBegin (partition : Partition)
  | otaWrite (handle : Word) (data : List Byte)
  | otaEnd (handle : Word)
  | otaAbort (handle : Word)
  | setBootPartition (partition : Option Partition)
  | restart
  deriving DecidableEq

/-- A call that returns an error number answers whether it was `ESP_OK`; `esp_ota_begin` adds
the handle it left. -/
@[reducible] def OtaIo.Answer : OtaIo → Type
  | .lockSession | .authorize _ | .uartSuspend | .uartResume | .otaWrite _ _ | .otaEnd _
  | .otaAbort _ | .setBootPartition _ => Bool
  | .unlockSession | .storeSession _ | .restart => Unit
  | .loadSession => OtaSession
  | .getNextUpdatePartition => Option Partition
  | .otaBegin _ => Bool × Word

abbrev OtaCode (α : Type) := Code OtaIo.Answer α

def otaIo (i : OtaIo) : OtaCode i.Answer := io i

/-- What the session records of a client. -/
def clientIdentity : Option OtaClient → Word × Word
  | none => (0, 0)
  | some client => (client.connection, client.sessionId)

def authorized : Option OtaClient → OtaCode Bool
  | none => pure true
  | some client =>
    if client.connection ≠ 0 ∧ client.sessionId ≠ 0 ∧ client.authorize ≠ 0 then
      otaIo (.authorize client)
    else pure false

/-- `owns_session`. -/
def OwnsSession (session : OtaSession) (client : Option OtaClient) : Prop :=
  session.connection = (clientIdentity client).1 ∧
    session.ownerSession = (clientIdentity client).2

instance (session : OtaSession) (client : Option OtaClient) :
    Decidable (OwnsSession session client) := inferInstanceAs (Decidable (_ ∧ _))

def resetSession : OtaCode Unit := otaIo (.storeSession .zero)

def restoreIdleMode (rounds : ℕ) (event : ModeEvent) : OtaCode Bool := do
  if (← modeTransition rounds event) ≠ .ok then pure false
  else do
    if (← ownershipResume rounds) = .ok then otaIo .uartResume else pure false

def debugAllowedLocked : OtaCode Bool := do
  let session ← otaIo .loadSession
  if session.state ≠ .idle then pure false
  else do
    match ← modeGet with
    | .error _ => pure false
    | .ok mode => pure (mode.ota = otaIdle)

/-- The `esp_ota_abort` of a handle that a failed `esp_ota_begin` left. -/
def dropHandle (handle : Word) : OtaCode Unit :=
  if handle ≠ 0 then do
    let _ ← otaIo (.otaAbort handle)
    pure ()
  else pure ()

variable (rounds : ℕ) (client : Option OtaClient)

/-- The end of `begin_locked`, from `esp_ota_begin` on. -/
def openSession (imageSize : Word)
    (partition : Partition) (session : OtaSession) : OtaCode OtaStatus := do
  let (begun, handle) ← otaIo (.otaBegin partition)
  if !begun then do
    dropHandle handle
    let _ ← restoreIdleMode rounds .otaFailed
    pure .internalError
  else do
    otaIo (.storeSession { session with
      partition := some partition
      handle
      expectedSize := imageSize
      writtenSize := 0
      state := .receiving
      connection := (clientIdentity client).1
      ownerSession := (clientIdentity client).2 })
    pure .ok

/-- The middle of `begin_locked`: the mode, the arbiter and the UART give way to the update. -/
def enterUpdate (imageSize : Word)
    (partition : Partition) (session : OtaSession) : OtaCode OtaStatus := do
  if (← modeTransition rounds .otaStarted) ≠ .ok then pure .internalError
  else do
    let ownershipResult ← ownershipSuspend rounds
    if ownershipResult = .busy then do
      let modeResult ← modeTransition rounds .otaFailed
      pure (if modeResult = .ok then .invalidState else .internalError)
    else if ownershipResult ≠ .ok then do
      -- both branches on the result of the transition return the same status
      let _ ← modeTransition rounds .otaFailed
      pure .internalError
    else do
      if !(← otaIo .uartSuspend) then do
        let _ ← restoreIdleMode rounds .otaFailed
        pure .busy
      else do
        if !(← authorized client) then do
          let _ ← restoreIdleMode rounds .otaFailed
          pure .unauthenticated
        else openSession rounds client imageSize partition session

def beginLocked (imageSize : Word) :
    OtaCode OtaStatus := do
  let session ← otaIo .loadSession
  if session.state ≠ .idle then pure .invalidState
  else do
    match ← otaIo .getNextUpdatePartition with
    | none => pure .internalError
    | some partition =>
      if partition.size > 2 ^ 32 - 1 then pure .internalError
      else if imageSize = 0 ∨ imageSize.toNat > partition.size then pure .invalidSize
      else enterUpdate rounds client imageSize partition session

/-- The session is dropped and the rest of the device leaves the update: `status` if that
succeeds. -/
def dropSession (rounds : ℕ) (event : ModeEvent) (status : OtaStatus) : OtaCode OtaStatus := do
  resetSession
  let restored ← restoreIdleMode rounds event
  pure (if restored then status else .internalError)

/-- `write_locked`; `nextOffset` is the value behind the pointer of that name. -/
def writeLocked (rounds : ℕ) (offset : Word) (data : Option (List Byte))
    (nextOffset : Option Word) : OtaCode (OtaStatus × Option Word) := do
  let session ← otaIo .loadSession
  if session.state ≠ .receiving then pure (.invalidState, nextOffset)
  else
    match data, nextOffset with
    | some data, some _ =>
      if offset ≠ session.writtenSize then pure (.invalidOffset, nextOffset)
      else if data.length = 0 ∨
          data.length > (session.expectedSize - session.writtenSize).toNat then
        pure (.invalidSize, nextOffset)
      else do
        if !(← otaIo (.otaWrite session.handle data)) then do
          if !(← otaIo (.otaAbort session.handle)) then pure (.internalError, nextOffset)
          else do
            let status ← dropSession rounds .otaFailed .writeFailed
            pure (status, nextOffset)
        else do
          let writtenSize := session.writtenSize + BitVec.ofNat 32 data.length
          otaIo (.storeSession { session with writtenSize })
          pure (.ok, some writtenSize)
    | _, _ => pure (.invalidArgument, nextOffset)

def commitLocked : OtaCode OtaStatus := do
  let session ← otaIo .loadSession
  if session.state ≠ .receiving then pure .invalidState
  else if session.writtenSize ≠ session.expectedSize then pure .incompleteImage
  else do
    if !(← otaIo (.otaEnd session.handle)) then dropSession rounds .otaFailed .validationFailed
    else do
      if !(← authorized client) then do
        resetSession
        let _ ← restoreIdleMode rounds .otaFailed
        pure .unauthenticated
      else do
        if !(← otaIo (.setBootPartition session.partition)) then
          dropSession rounds .otaFailed .activationFailed
        else do
          otaIo (.storeSession { session with
            handle := 0
            expectedSize := 0
            writtenSize := 0
            state := .committed })
          let modeResult ← modeTransition rounds .otaCommitted
          pure (if modeResult = .ok then .ok else .internalError)

def abortLocked (rounds : ℕ) : OtaCode OtaStatus := do
  let session ← otaIo .loadSession
  if session.state = .idle then pure .ok
  else if session.state = .committed then pure .invalidState
  else do
    if !(← otaIo (.otaAbort session.handle)) then pure .internalError
    else dropSession rounds .otaAborted .ok

def rebootLocked : OtaCode OtaStatus := do
  let session ← otaIo .loadSession
  if session.state ≠ .committed then pure .invalidState
  else do
    otaIo .restart
    pure .ok

/-- What every call has in common: it runs under the mutex, or answers with `failed` if it
cannot take it. -/
def underLock {α : Type} (failed : α) (body : OtaCode α) : OtaCode α := do
  if ← otaIo .lockSession then do
    let result ← body
    otaIo .unlockSession
    pure result
  else pure failed

/-- What the calls of a client have in common: they are refused without authorization, and
with BUSY for the sessions in `refused`. `answer` is what the call returns with a status. -/
def forClient {α : Type} (client : Option OtaClient) (answer : OtaStatus → α)
    (refused : OtaSession → Prop) [DecidablePred refused] (body : OtaCode α) : OtaCode α :=
  underLock (answer .internalError) do
    if !(← authorized client) then pure (answer .unauthenticated)
    else do
      let session ← otaIo .loadSession
      if refused session then pure (answer .busy) else body

/-- A session that belongs to another client. -/
def Foreign (client : Option OtaClient) (session : OtaSession) : Prop :=
  session.state ≠ .idle ∧ ¬ OwnsSession session client

instance (client : Option OtaClient) : DecidablePred (Foreign client) :=
  fun _ => inferInstanceAs (Decidable (_ ∧ _))

/-- `airdap_ota_debug_allowed`. -/
def otaDebugAllowed : OtaCode Bool := underLock false debugAllowedLocked

def otaBeginForClient (imageSize : Word) :
    OtaCode OtaStatus :=
  forClient client id (Foreign client) (beginLocked rounds client imageSize)

def otaWriteForClient (offset : Word)
    (data : Option (List Byte)) (nextOffset : Option Word) : OtaCode (OtaStatus × Option Word) :=
  forClient client (·, nextOffset) (Foreign client) (writeLocked rounds offset data nextOffset)

def otaCommitForClient : OtaCode OtaStatus :=
  forClient client id (Foreign client) (commitLocked rounds client)

/-- The only call that also passes for a session whose owner is recorded as disconnected. -/
def otaAbortForClient : OtaCode OtaStatus :=
  forClient client id (fun session => Foreign client session ∧ session.disconnected = false)
    (abortLocked rounds)

def otaRebootForClient (client : Option OtaClient) : OtaCode OtaStatus :=
  underLock .internalError do
    if !(← authorized client) then pure .unauthenticated else rebootLocked

def otaDisconnectClient : OtaCode OtaStatus :=
  underLock .internalError do
    let session ← otaIo .loadSession
    if session.state = .receiving ∧ OwnsSession session client then do
      otaIo (.storeSession { session with disconnected := true })
      abortLocked rounds
    else pure .ok

/-- `airdap_ota_handle_disconnect`. -/
def otaHandleDisconnect (rounds : ℕ) : OtaCode Unit := do
  let _ ← otaDisconnectClient rounds none
  pure ()

def otaPrepareReboot (client : Option OtaClient) : OtaCode OtaStatus :=
  underLock .internalError do
    if !(← authorized client) then pure .unauthenticated
    else do
      let session ← otaIo .loadSession
      pure (if session.state = .committed then .ok else .invalidState)

end AirDap

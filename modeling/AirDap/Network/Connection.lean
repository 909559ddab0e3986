import AirDap.Frame.Sequence
import AirDap.Network.Dispatch

/-! A connection task of the network listener: the frames it reads, how each of them is served
and what is answered. Reading and serving go on without a bound in the source: they are given
any number of rounds. -/
namespace AirDap
open Concurrency

/-- The members of `network_connection_t` that the task itself works with. -/
structure NetworkConnection where
  uart : Bool
  authConnection : Word
  authSession : Word
  dapSession : Word
  uartSession : Word
  nextResponseToken : Word
  deriving DecidableEq, Repr

/-- The connection as `allocate_connection` leaves it. -/
def NetworkConnection.allocated (uart : Bool) : NetworkConnection := ⟨uart, 0, 0, 0, 0, 1⟩

/-- `sizeof(connection->response_buffer)`. -/
def responseBufferSize : ℕ := frameHeaderSize + frameDapRequestMaxPayloadSize

/-- The header of the response to a request. -/
def responseHeader (request : FrameHeader) (type : FrameType) (payload : List Byte) : FrameHeader :=
  { request with type := type.code, payloadLength := BitVec.ofNat 16 payload.length }

/-- `send_frame`. -/
def sendFrame (request : FrameHeader) (type : FrameType) (payload : List Byte) : NetCode Bool :=
  if payload.length > 2 ^ 16 - 1 then pure false
  else
    let encoded := frameEncode (responseHeader request type payload) (some payload) true
      responseBufferSize
    if encoded.error ≠ .none then pure false else net (.tlsWrite encoded.output)

/-- `send_error`. Only a real error has an encoding. -/
def sendError (request : FrameHeader) (error : FrameError) : NetCode Bool :=
  if error = .none then pure false
  else sendFrame request .error (Wire.halfBytes error.code)

def authErrorCode : AuthResult → FrameError
  | .busy => .busy
  | .noCredential | .authenticationFailed | .unauthenticated | .expired | .replay =>
    .unauthenticated
  | _ => .internal

def dapServiceErrorCode : ServiceResult → FrameError
  | .busy | .queueFull => .busy
  | .staleSession | .unauthenticated => .unauthenticated
  | _ => .internal

/-- `airdap_device_identity_t`. The version is the list of its bytes before the terminating
zero. -/
structure DeviceIdentity where
  uuid : Vector Byte 16
  capabilities : Word
  deviceId : Vector Byte 16
  firmwareVersion : List Byte

variable (identity : DeviceIdentity) (rounds : ℕ) (st : ServeState)

/-- `send_hello`. -/
def sendHello (request : FrameHeader) : NetCode Bool :=
  let size := identity.firmwareVersion.length
  if size = 0 ∨ size > 31 then sendError request .internal
  else sendFrame request .hello (identity.uuid.toList ++ Wire.wordBytes identity.capabilities ++
    identity.deviceId.toList ++ identity.firmwareVersion)

/-- `claim_service_connection`. -/
def claimServiceConnection (connection : NetworkConnection) : NetCode Bool := do
  if !(← net .registryLock) then pure false
  else do
    let available ← net (.claimService connection.uart)
    net .registryUnlock
    pure available

/-- What every failure of a bind has in common: an ERROR is sent and the task ends. -/
def bindFailed (request : FrameHeader) (error : FrameError) : NetCode (Option NetworkConnection) :=
  do
    let _ ← sendError request error
    pure none

variable (connection : NetworkConnection) (request : FrameHeader) (info : SessionInfo)

/-- The end of `bind_session`: the response with the session and its token. -/
def sendSession :
    NetCode (Option NetworkConnection) := do
  if ← sendFrame request .auth (Wire.wordBytes info.sessionId ++ info.sessionToken.toList) then
    pure (some connection)
  else pure none

/-- The middle of `bind_session` for a UART connection. -/
def openUartSession :
    NetCode (Option NetworkConnection) := do
  if !(← net .networkDataEnabled) then pure none
  else do
    let (result, uartSession) ← net .uartSessionOpen
    if result ≠ .ok then bindFailed request (networkUartErrorCode result)
    else do
      net (.storeUartSession uartSession)
      if (← net (.sessionValidate connection.authConnection info.sessionId)) ≠ .ok then
        bindFailed request .unauthenticated
      else sendSession { connection with uartSession } request info

/-- The middle of `bind_session` for a DAP connection. -/
def openDapSession :
    NetCode (Option NetworkConnection) := do
  let (result, dapSession) ← net .dapSessionOpen
  if result ≠ .ok then bindFailed request (dapServiceErrorCode result)
  else do
    if !(← net .registryLock) then do
      net (.dapSessionClose dapSession)
      bindFailed request .internal
    else do
      net (.storeDapSession dapSession)
      net .registryUnlock
      sendSession { connection with dapSession } request info

/-- `bind_session` from the publication of the session on. -/
def publishSession :
    NetCode (Option NetworkConnection) := do
  if !(← net .registryLock) then bindFailed request .internal
  else do
    net (.storeAuthSession info.sessionId)
    net .registryUnlock
    let connection := { connection with authSession := info.sessionId }
    let validation ← net (.sessionValidate connection.authConnection info.sessionId)
    if validation ≠ .ok then bindFailed request (authErrorCode validation)
    else if connection.uart then openUartSession connection request info
    else openDapSession connection request info

/-- `bind_session`: the connection with its sessions, or none if the task has to end. -/
def bindSession (payload : List Byte) :
    NetCode (Option NetworkConnection) := do
  if payload.length ≠ 0 ∧ payload.length ≠ 32 then bindFailed request .unsupportedType
  else do
    if !(← claimServiceConnection connection) then bindFailed request .busy
    else do
      let (result, info) ← net (.sessionBind connection.authConnection
        (if payload.length = 0 then none else some payload))
      if result ≠ .ok then bindFailed request (authErrorCode result)
      else publishSession connection request info

/-- Whether the data port of a UART connection is closed. -/
def dataPortClosed : NetCode Bool :=
  if connection.uart then do
    let enabled ← net .networkDataEnabled
    pure !enabled
  else pure false

/-- `validate_bound_session`. -/
def validateBoundSession : NetCode Bool := do
  if ← dataPortClosed connection then pure false
  else if connection.authSession = 0 then pure false
  else do
    let result ← net (.sessionValidate connection.authConnection connection.authSession)
    pure (result = .ok)

/-- The token of the next request, and the counter after it; zero is left out. -/
def takeToken (next : Word) : Word × Word :=
  if next = 0 then (next + 1, next + 2) else (next, next + 1)

/-- The loop around `xQueueReceive`: the response with the token, or none after a timeout.
Responses with other tokens are dropped. -/
def receiveLoop (token : Word) : ℕ → NetCode (Option (List Byte))
  | 0 => .spent
  | n + 1 => do
    match ← net .receiveResponse with
    | none => pure none
    | some item => if item.token = token then pure (some item.response) else receiveLoop token n

def admissionErrorCode (admission : ModeDapResult) : FrameError :=
  if admission = .unauthenticated then .unauthenticated
  else if admission = .busy ∨ admission = .offline then .busy
  else .internal

/-- The end of `send_dap_response`, from the response of the worker on. -/
def forwardResponse (response : List Byte) : NetCode Bool := do
  if !(← validateBoundSession connection) then do
    let _ ← sendError request .unauthenticated
    pure false
  else do
    if !(← net .networkDataEnabled) then sendError request .busy
    else sendFrame request .dapResponse response

/-- The part of `send_dap_response` that gives the request to the worker and waits. -/
def submitRequest (rounds : ℕ) (connection : NetworkConnection) (frame : RequestFrame)
    (token : Word) : NetCode Bool := do
  net (.storePendingToken token)
  let result ← net (.dapSubmit connection.dapSession frame.payload token)
  if result ≠ .ok then do
    net (.storePendingToken 0)
    sendError frame.header (dapServiceErrorCode result)
  else do
    match ← receiveLoop token rounds with
    | none => do
      net (.storePendingToken 0)
      sendError frame.header .timeout
    | some response => do
      net (.storePendingToken 0)
      forwardResponse connection frame.header response

/-- Only a DAP_Connect asks the mode state before it is submitted. -/
def submitAdmission (payload : List Byte) : NetCode ModeDapResult :=
  if byteAt payload 0 = DapCommand.connect.code then net .dapAdmission else pure .allowed

def usbOtaFirstCommand : Byte := 0x80
def usbOtaLastCommand : Byte := 0x85

/-- `send_dap_response`, with the connection it leaves. -/
def sendDapResponse (rounds : ℕ) (connection : NetworkConnection) (frame : RequestFrame) :
    NetCode (Bool × NetworkConnection) := do
  if !(← net .networkDataEnabled) then do
    let sent ← sendError frame.header .busy
    pure (sent, connection)
  else if frame.payload.length = 0 then do
    let sent ← sendError frame.header .truncated
    pure (sent, connection)
  else if usbOtaFirstCommand ≤ byteAt frame.payload 0 ∧
      byteAt frame.payload 0 ≤ usbOtaLastCommand then do
    let sent ← sendError frame.header .unsupportedType
    pure (sent, connection)
  else do
    if !(← validateBoundSession connection) then do
      let _ ← sendError frame.header .unauthenticated
      pure (false, connection)
    else do
      let admission ← submitAdmission frame.payload
      if admission ≠ .allowed then do
        let sent ← sendError frame.header (admissionErrorCode admission)
        pure (sent, connection)
      else do
        let (token, nextResponseToken) := takeToken connection.nextResponseToken
        let sent ← submitRequest rounds connection frame token
        pure (sent, { connection with nextResponseToken })

/-- The local variables of `run_connection`. -/
structure ServeState where
  connection : NetworkConnection
  helloComplete : Bool
  authenticated : Bool
  validator : Option SequenceValidator

/-- The `if (!send(..)) return;` of the cases: the task goes on in `st` if the frame was sent. -/
def continueIf (st : ServeState) (send : NetCode Bool) : NetCode (Option ServeState) := do
  if ← send then pure (some st) else pure none

/-- The CONTROL request is one of an update. -/
def isOtaRequest (payload : List Byte) : Bool :=
  !connection.uart && (payload.length > 0 && (ControlOpcode.otaQuery.code ≤ byteAt payload 0 &&
    byteAt payload 0 ≤ ControlOpcode.otaReboot.code))

/-- The dispatcher of a CONTROL request. -/
def controlDispatch (payload : List Byte) :
    NetCode (Except FrameError (List Byte)) :=
  if isOtaRequest connection payload then
    networkOtaDispatch connection.authConnection connection.authSession payload
      networkUartMaxResponse
  else if connection.uart then
    networkUartDispatch connection.authConnection connection.authSession connection.uartSession
      payload networkUartMaxResponse
  else networkControlDispatch connection.authConnection connection.authSession payload

/-- The end of a CONTROL request that succeeded: an update that is ready to reboot does so after
its response. -/
def finishControl (st : ServeState) (payload response : List Byte) : NetCode (Option ServeState) :=
  if isOtaRequest st.connection payload ∧ byteAt payload 0 = ControlOpcode.otaReboot.code ∧
      response.length = 2 ∧ byteAt response 1 = 0 then do
    let _ ← net (.ota (.reboot (some (networkOtaClient st.connection.authConnection
      st.connection.authSession))))
    pure none
  else pure (some st)

/-- The case CONTROL_REQUEST of `run_connection`. -/
def serveControl (st : ServeState) (frame : RequestFrame) : NetCode (Option ServeState) := do
  if !st.authenticated ∧ !st.connection.uart then
    continueIf st (sendError frame.header .unauthenticated)
  else do
    match ← controlDispatch st.connection frame.payload with
    | .error error => do
      if !(← sendError frame.header error) ∨ error = .unauthenticated then pure none
      else pure (some st)
    | .ok response => do
      if !(← validateBoundSession st.connection) then pure none
      else do
        if !(← sendFrame frame.header .controlResponse response) then pure none
        else finishControl st frame.payload response

/-- The case KEEPALIVE of `run_connection`. -/
def serveKeepalive (st : ServeState) (frame : RequestFrame) : NetCode (Option ServeState) := do
  if !st.authenticated ∨ frame.payload.length ≠ 0 then
    continueIf st (sendError frame.header .unauthenticated)
  else do
    if !(← validateBoundSession st.connection) then
      continueIf st (sendError frame.header .unauthenticated)
    else continueIf st (sendFrame frame.header .keepalive [])

/-- The case DAP_REQUEST of `run_connection`. -/
def serveDap (rounds : ℕ) (st : ServeState) (frame : RequestFrame) :
    NetCode (Option ServeState) := do
  if st.connection.uart then continueIf st (sendError frame.header .unsupportedType)
  else if !st.authenticated then continueIf st (sendError frame.header .unauthenticated)
  else do
    let (sent, connection) ← sendDapResponse rounds st.connection frame
    pure (if sent then some { st with connection } else none)

/-- The `switch` of `run_connection`, for a frame whose sequence number is right. -/
def serveFrame (frame : RequestFrame) :
    NetCode (Option ServeState) := do
  if frame.header.type = FrameType.hello.code then
    if frame.payload.length ≠ 0 then continueIf st (sendError frame.header .unsupportedType)
    else continueIf { st with helloComplete := true } (sendHello identity frame.header)
  else if frame.header.type = FrameType.auth.code then
    if !st.helloComplete ∨ st.authenticated then
      continueIf st (sendError frame.header .unauthenticated)
    else do
      match ← bindSession st.connection frame.header frame.payload with
      | none => pure none
      | some connection => pure (some { st with connection, authenticated := true })
  else if frame.header.type = FrameType.dapRequest.code then serveDap rounds st frame
  else if frame.header.type = FrameType.controlRequest.code then serveControl st frame
  else if frame.header.type = FrameType.keepalive.code then serveKeepalive st frame
  else continueIf st (sendError frame.header .unsupportedType)

/-- A frame that was read: the check of its sequence number, and the frame served. -/
def acceptFrame (frame : RequestFrame) :
    NetCode (Option ServeState) :=
  let init := sequenceValidatorInit frame.header.sessionId
  if st.validator = none ∧ init.1 ≠ .none then pure none
  else
    let checked := validateRequestSequence (st.validator.getD init.2) frame.header
    let st := { st with validator := some checked.2 }
    if checked.1 ≠ .none then continueIf st (sendError frame.header checked.1)
    else if !st.helloComplete ∧ frame.header.type ≠ FrameType.hello.code then do
      let _ ← sendError frame.header .unauthenticated
      pure none
    else serveFrame identity rounds st frame

/-- The body of the loop of `run_connection`, from the result of `read_frame` on. -/
def serveRead :
    FrameRead → NetCode (Option ServeState)
  | .dapPayloadTooLarge header => do
    let _ ← sendError header .payloadTooLarge
    pure none
  | .stopped => do
    -- the mode is read before the result is looked at
    let _ ← dataPortClosed st.connection
    pure none
  | .ok frame => do
    if ← dataPortClosed st.connection then pure none else acceptFrame identity rounds st frame

/-- The loop of `run_connection`. -/
def serveLoop (identity : DeviceIdentity) (rounds : ℕ) : ℕ → ServeState → NetCode Unit
  | 0, _ => .spent
  | n + 1, st => do
    let read ← net (.readFrame st.authenticated)
    match ← serveRead identity rounds st read with
    | none => pure ()
    | some st => serveLoop identity rounds n st

/-- `run_connection` on a connection as it is allocated. -/
def runConnection (uart : Bool) : NetCode Unit := do
  let connection := NetworkConnection.allocated uart
  if ← dataPortClosed connection then pure ()
  else do
    if !(← net .makeNonblocking) then pure ()
    else do
      match ← net .tlsAccept with
      | none => pure ()
      | some authConnection => do
        if !(← net .registryLock) then net (.connectionClose authConnection)
        else do
          net (.storeAuthConnection authConnection)
          net .registryUnlock
          serveLoop identity rounds rounds
            ⟨{ connection with authConnection }, false, false, none⟩

end AirDap

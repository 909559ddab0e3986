import AirDap.Auth.Session
import AirDap.Ota.Packets
import AirDap.Service.Machine
import AirDap.UsbIp.LineCoding

/-! The calls that a connection task of the network listener makes, and the three dispatchers
that carry out a CONTROL request with them. -/
namespace AirDap
open Concurrency

/-- `airdap_ota_info_t`. -/
structure NetworkOtaInfo extends OtaInfo where
  runningAddress : Word
  updateAddress : Word
  runningValid : Bool
  deriving DecidableEq, Repr

/-- A whole frame that `read_frame` has left in the buffer of the connection. -/
structure RequestFrame where
  header : FrameHeader
  payload : List Byte
  length_payload : payload.length = header.payloadLength.toNat

/-- `frame_read_result_t`. All the results with which the connection ends without an answer are
one. -/
inductive FrameRead where
  | ok (frame : RequestFrame)
  | dapPayloadTooLarge (header : FrameHeader)
  | stopped

/-- `dap_response_item_t`. -/
structure ResponseItem where
  token : Word
  response : List Byte
  deriving DecidableEq, Repr

/-- A call, a store to a variable that other tasks read, or a read of the stream. The task is
the only one that stores the numbers of its sessions, so it knows what it would load. -/
inductive NetCall where
  | networkDataEnabled
  | makeNonblocking
  | tlsAccept
  | connectionClose (connection : Word)
  | storeAuthConnection (connection : Word)
  | readFrame (authenticated : Bool)
  | tlsWrite (bytes : List Byte)
  | registryLock
  | registryUnlock
  | claimService (uart : Bool)
  | storeAuthSession (session : Word)
  | storeDapSession (session : Word)
  | storeUartSession (session : Word)
  | storePendingToken (token : Word)
  | sessionBind (connection : Word) (ownerToken : Option (List Byte))
  | sessionValidate (connection sessionId : Word)
  | dapSessionOpen
  | dapSessionClose (session : Word)
  | dapAdmission
  | dapSubmit (session : Word) (request : List Byte) (token : Word)
  | receiveResponse
  | uartSessionOpen
  | uartSessionStatus (session : Word)
  | uartStatus
  | uartTxAcquire (session : Word)
  | uartConfigure (session : Word) (settings : LineSettings)
  | uartWrite (session : Word) (data : List Byte)
  | uartRead (session : Word) (capacity : ℕ)
  | controlOperationBegin
  | operationEnd (operation : Operation)
  | resetSetAsserted (asserted : Bool)
  | powerSetAllowed (allowed : Bool)
  | powerGetActive
  | otaGetInfo
  | ota (request : OtaRequest)

/-- A call that returns an error number answers whether it was `ESP_OK`, and a value that it
leaves behind a pointer comes with it. -/
@[reducible] def NetCall.Answer : NetCall → Type
  | .networkDataEnabled | .makeNonblocking | .tlsWrite _ | .registryLock | .claimService _
  | .resetSetAsserted _ | .powerSetAllowed _ => Bool
  | .connectionClose _ | .storeAuthConnection _ | .registryUnlock | .storeAuthSession _
  | .storeDapSession _ | .storeUartSession _ | .storePendingToken _ | .dapSessionClose _
  | .operationEnd _ => Unit
  | .tlsAccept => Option Word
  | .readFrame _ => FrameRead
  | .sessionBind _ _ => AuthResult × SessionInfo
  | .sessionValidate _ _ => AuthResult
  | .dapSessionOpen => ServiceResult × Word
  | .dapAdmission => ModeDapResult
  | .dapSubmit _ _ _ => ServiceResult
  | .receiveResponse => Option ResponseItem
  | .uartSessionOpen => UartResult × Word
  | .uartSessionStatus _ => UartResult × SessionStatus
  | .uartStatus => Option LineSettings
  | .uartTxAcquire _ | .uartConfigure _ _ => UartResult
  | .uartWrite _ _ => UartResult × ℕ
  | .uartRead _ _ => UartResult × List Byte
  | .controlOperationBegin => ModeDapResult × Operation
  | .powerGetActive => Option Bool
  | .otaGetInfo => Except OtaStatus NetworkOtaInfo
  | .ota request => request.Value

abbrev NetCode (α : Type) := Prog NetCall NetCall.Answer α

def net (c : NetCall) : NetCode c.Answer := .act c .ret

/-- The opcodes of board control and of an update. -/
inductive ControlOpcode where
  | resetSet | powerSet | powerGet | otaQuery | otaBegin | otaWrite | otaCommit | otaAbort
  | otaReboot
  deriving DecidableEq, Repr

def ControlOpcode.code : ControlOpcode → Byte
  | .resetSet => 0x20
  | .powerSet => 0x21
  | .powerGet => 0x22
  | .otaQuery => 0x30
  | .otaBegin => 0x31
  | .otaWrite => 0x32
  | .otaCommit => 0x33
  | .otaAbort => 0x34
  | .otaReboot => 0x35

/-! `network_control.c` -/

inductive BoardRequest where
  | resetSet (asserted : Bool)
  | powerSet (allowed : Bool)
  | powerGet
  deriving DecidableEq, Repr

/-- What the payload of a request asks of the board, or the error it is refused with. -/
def boardRequest (payload : List Byte) : Except FrameError BoardRequest :=
  let opcode := byteAt payload 0
  let requiredSize := if opcode = ControlOpcode.powerGet.code then 1 else 2
  let value := byteAt payload 1 ≠ 0
  if payload.length = 0 then .error .truncated
  else if opcode ≠ ControlOpcode.resetSet.code ∧ opcode ≠ ControlOpcode.powerSet.code ∧
      opcode ≠ ControlOpcode.powerGet.code then .error .unsupportedType
  else if payload.length < requiredSize then .error .truncated
  else if payload.length ≠ requiredSize ∨ (requiredSize = 2 ∧ byteAt payload 1 > 1) then
    .error .invalidArgument
  else if opcode = ControlOpcode.resetSet.code then .ok (.resetSet value)
  else if opcode = ControlOpcode.powerSet.code then .ok (.powerSet value)
  else .ok .powerGet

/-- The operation on the board and its response. -/
def BoardRequest.perform : BoardRequest → NetCode (Except FrameError (List Byte))
  | .resetSet asserted => do
    if ← net (.resetSetAsserted asserted) then
      pure (.ok [ControlOpcode.resetSet.code, if asserted then 1 else 0])
    else pure (.error .internal)
  | .powerSet allowed => do
    if ← net (.powerSetAllowed allowed) then
      pure (.ok [ControlOpcode.powerSet.code, if allowed then 1 else 0])
    else pure (.error .internal)
  | .powerGet => do
    match ← net .powerGetActive with
    | some active => pure (.ok [ControlOpcode.powerGet.code, if active then 1 else 0])
    | none => pure (.error .internal)

def BoardRequest.setsPower : BoardRequest → Bool
  | .powerSet _ => true
  | _ => false

variable (connection sessionId : Word)

/-- The part of `airdap_network_control_dispatch` between the begin and the end of the
operation. -/
def boardOperation (request : BoardRequest) (operation : Operation) :
    NetCode (Except FrameError (List Byte)) := do
  if request.setsPower ∧ operation.owner ≠ ownerNone then pure (.error .busy)
  else do
    if (← net (.sessionValidate connection sessionId)) ≠ .ok then pure (.error .unauthenticated)
    else request.perform

/-- `airdap_network_control_dispatch`. -/
def networkControlDispatch (payload : List Byte) :
    NetCode (Except FrameError (List Byte)) := do
  if connection = 0 ∨ sessionId = 0 then pure (.error .unauthenticated)
  else do
    if (← net (.sessionValidate connection sessionId)) ≠ .ok then pure (.error .unauthenticated)
    else
      match boardRequest payload with
      | .error error => pure (.error error)
      | .ok request => do
        let (admission, operation) ← net .controlOperationBegin
        if admission ≠ .allowed then
          pure (.error (if admission = .busy ∨ admission = .offline then .busy else .internal))
        else do
          let result ← boardOperation connection sessionId request operation
          net (.operationEnd operation)
          pure result

/-! `network_uart.c` -/

/-- `airdap_network_uart_error_code`. -/
def networkUartErrorCode : UartResult → FrameError
  | .ok | .alreadyOwner => .none
  | .busy | .notOwner => .busy
  | .invalidArgument => .invalidArgument
  | .unauthenticated | .staleSession => .unauthenticated
  | .invalidState | .ioError => .internal

def uartReply (result : UartResult) (response : List Byte) : Except FrameError (List Byte) :=
  if networkUartErrorCode result = .none then .ok response
  else .error (networkUartErrorCode result)

/-- The `switch` of `airdap_network_uart_dispatch`, for a request that is well formed. -/
def networkUartCommand (session : Word) (opcode : Byte) :
    UartRequest → NetCode (Except FrameError (List Byte))
  | .status => do
    let (result, status) ← net (.uartSessionStatus session)
    if result ≠ .ok then pure (uartReply result [opcode])
    else do
      match ← net .uartStatus with
      | none => pure (.error .internal)
      | some line =>
        pure (.ok ([opcode] ++ Wire.wordBytes line.baudRate ++
          [line.stopBits, line.parity, line.dataBits, if status.txOwner then 1 else 0] ++
          Wire.halfBytes (BitVec.ofNat 16 status.rxBufferedBytes) ++
          Wire.wordBytes status.rxDroppedBytes))
  | .acquireTx => do
    let result ← net (.uartTxAcquire session)
    pure (uartReply result [opcode])
  | .configure settings => do
    let result ← net (.uartConfigure session settings)
    pure (uartReply result [opcode])
  | .write data => do
    let (result, count) ← net (.uartWrite session data)
    pure (uartReply result ([opcode] ++ Wire.halfBytes (BitVec.ofNat 16 count)))
  | .read capacity => do
    let (result, data) ← net (.uartRead session capacity)
    if result ≠ .ok then pure (uartReply result [opcode])
    else do
      let (result, status) ← net (.uartSessionStatus session)
      if result ≠ .ok then pure (uartReply result [opcode])
      else pure (.ok ([opcode] ++ Wire.wordBytes status.rxDroppedBytes ++ data))

/-- `AIRDAP_NETWORK_UART_MAX_RESPONSE`. -/
def networkUartMaxResponse : ℕ := 5 + networkUartMaxData

/-- `airdap_network_uart_dispatch`. -/
def networkUartDispatch (authConnection authSession uartSession : Word) (request : List Byte)
    (responseCapacity : ℕ) : NetCode (Except FrameError (List Byte)) := do
  if authConnection = 0 ∨ authSession = 0 ∨ uartSession = 0 then pure (.error .unauthenticated)
  else do
    if (← net (.sessionValidate authConnection authSession)) ≠ .ok then
      pure (.error .unauthenticated)
    else if responseCapacity < networkUartMaxResponse then pure (.error .internal)
    else
      match networkUartRequest request with
      | .error error => pure (.error error)
      | .ok command => networkUartCommand uartSession (byteAt request 0) command

/-! `network_ota.c` -/

/-- `AIRDAP_NETWORK_OTA_MAX_RESPONSE`. -/
def networkOtaMaxResponse : ℕ := 49

/-- `AIRDAP_NETWORK_OTA_MAX_DATA`. -/
def networkOtaMaxData : ℕ := 4091

/-- The client of a network connection. Its callback is the address of `authorize`, which is not
the null pointer. -/
def networkOtaClient : OtaClient := ⟨connection, sessionId, 1⟩

/-- `authorize`. -/
def networkAuthorize : NetCode Bool := do
  if connection = 0 ∨ sessionId = 0 then pure false
  else do
    let result ← net (.sessionValidate connection sessionId)
    pure (result = .ok)

/-- The answer to a query behind its opcode and status. -/
def otaInfoData (info : NetworkOtaInfo) : List Byte :=
  [info.protocolVersion, info.flags] ++ Wire.wordBytes info.maxImageSize ++
    Wire.wordBytes info.runningAddress ++ Wire.wordBytes info.updateAddress ++
    [if info.runningValid then 1 else 0] ++ info.runningVersion

/-- The `switch` of `airdap_network_ota_dispatch`: the status, and the data of a success. -/
def networkOtaCommand (client : OtaClient) (request : List Byte) :
    NetCode (OtaStatus × List Byte) :=
  let opcode := byteAt request 0
  if opcode = ControlOpcode.otaQuery.code then do
    match ← net .otaGetInfo with
    | .error status => pure (status, [])
    | .ok info => pure (.ok, otaInfoData info)
  else if opcode = ControlOpcode.otaBegin.code then do
    let status ← net (.ota (.begin (some client) (readU32Be request 1)))
    pure (status, [])
  else if opcode = ControlOpcode.otaWrite.code then do
    let (status, nextOffset) ← net (.ota (.write (some client) (readU32Be request 1)
      (some (request.drop 5)) (some 0)))
    pure (status, Wire.wordBytes (nextOffset.getD 0))
  else if opcode = ControlOpcode.otaCommit.code then do
    let status ← net (.ota (.commit (some client)))
    pure (status, [])
  else if opcode = ControlOpcode.otaAbort.code then do
    let status ← net (.ota (.abort (some client)))
    pure (status, [])
  else do
    let status ← net (.ota (.prepareReboot (some client)))
    pure (status, [])

def networkOtaResponse (opcode : Byte) (status : OtaStatus) (data : List Byte) :
    Except FrameError (List Byte) :=
  if status = .unauthenticated then .error .unauthenticated
  else if status = .busy then .error .busy
  else .ok ([opcode, status.code] ++ if status = .ok then data else [])

/-- The size that a request with the opcode has at least. -/
def networkOtaMinimum (opcode : Byte) : ℕ :=
  if opcode = ControlOpcode.otaWrite.code then 6
  else if opcode = ControlOpcode.otaBegin.code then 5 else 1

/-- The checks of `airdap_network_ota_dispatch` between the authorization and the `switch`. -/
def networkOtaError (request : List Byte) (responseCapacity : ℕ) : FrameError :=
  let opcode := byteAt request 0
  if responseCapacity < networkOtaMaxResponse then .internal
  else if request.length = 0 then .truncated
  else if opcode < ControlOpcode.otaQuery.code ∨ opcode > ControlOpcode.otaReboot.code then
    .unsupportedType
  else if request.length < networkOtaMinimum opcode then .truncated
  else if (opcode ≠ ControlOpcode.otaWrite.code ∧ request.length ≠ networkOtaMinimum opcode) ∨
      request.length > 5 + networkOtaMaxData then .invalidArgument
  else .none

/-- `airdap_network_ota_dispatch`. -/
def networkOtaDispatch (request : List Byte)
    (responseCapacity : ℕ) : NetCode (Except FrameError (List Byte)) := do
  if !(← networkAuthorize connection sessionId) then pure (.error .unauthenticated)
  else if networkOtaError request responseCapacity ≠ .none then
    pure (.error (networkOtaError request responseCapacity))
  else do
    let (status, data) ← networkOtaCommand (networkOtaClient connection sessionId) request
    pure (networkOtaResponse (byteAt request 0) status data)

end AirDap

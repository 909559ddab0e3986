import AirDap.Dap.Protocol
import AirDap.Ownership.Arbiter

/-! The backend of the command processors of the two transports. It carries out the callbacks
of the processor with the operations of the components below it. -/
namespace AirDap
open Concurrency

inductive Transport where
  | usb | network
  deriving DecidableEq, Repr

def Transport.owner : Transport → Owner
  | .usb => .usb
  | .network => .network

theorem Transport.owner_injective : Function.Injective Transport.owner := by
  intro a b h
  cases a <;> cases b <;> first | rfl | cases h

/-- An operation of the SWD engine or of the board. -/
inductive TargetCall where
  | setClock (clockHz : Word)
  | configureTransfer (idleCycles : Byte) (waitRetries : BitVec 16)
  | configureBus (turnaroundCycles : Byte) (dataPhase : Bool)
  | read (ap : Bool) (address : Byte)
  | write (ap : Bool) (address : Byte) (data : Word)
  | writeSequence (data : List Byte) (bitCount : ℕ)
  | readSequence (bitCount : ℕ)
  | drivePins (value select : Byte) (waitUs : Word)
  | resetSetAsserted (asserted : Bool)
  | resetIsAsserted
  | romDelayUs (delay : Word)
  deriving DecidableEq

/-- An operation that returns an error number answers whether it was `ESP_OK`; a read adds
the data and the acknowledge it left, a write the acknowledge. -/
@[reducible] def TargetCall.Answer : TargetCall → Type
  | .setClock _ | .configureTransfer _ _ | .configureBus _ _ | .writeSequence _ _
  | .resetSetAsserted _ | .resetIsAsserted => Bool
  | .read _ _ => Bool × Word × Byte
  | .write _ _ _ => Bool × Byte
  | .readSequence bitCount => Bool × Vector Byte (byteCount bitCount)
  | .drivePins _ _ _ => Bool × Byte
  | .romDelayUs _ => Unit

/-- A call that the backend makes. The claim of the transport and the handle of the running
operation belong to the mode state and the arbiter, which are the only ones to read them. -/
inductive LowerCall where
  | otaDebugAllowed
  | dapAcquire (owner : Owner)
  | operationBegin (owner : Owner)
  | operationEnd
  | ownershipRelease
  | ownershipCurrent
  | otaHandleDisconnect
  | otaProcess (debugConnected : Bool) (request : List Byte) (responseCapacity : ℕ)
  | target (c : TargetCall)
  deriving DecidableEq

/-- An acquire and a begin answer whether the result was `AIRDAP_MODE_DAP_ALLOWED`. -/
@[reducible] def LowerCall.Answer : LowerCall → Type
  | .otaDebugAllowed | .dapAcquire _ | .operationBegin _ => Bool
  | .operationEnd | .ownershipRelease | .otaHandleDisconnect => Unit
  | .ownershipCurrent => Word
  | .otaProcess _ _ _ => List Byte
  | .target c => c.Answer

abbrev LowerCode (α : Type) := Prog LowerCall LowerCall.Answer α

def lower (c : LowerCall) : LowerCode c.Answer := .act c .ret
def target (c : TargetCall) : LowerCode c.Answer := .act (.target c) .ret

/-- A target on which every operation succeeds, with `data` in every register. -/
def TargetCall.granted (data : Word) : (c : TargetCall) → c.Answer
  | .setClock _ | .configureTransfer _ _ | .configureBus _ _ | .writeSequence _ _
  | .resetSetAsserted _ => true
  | .resetIsAsserted => false
  | .read _ _ => (true, data, transferOk)
  | .write _ _ _ => (true, transferOk)
  | .readSequence _ => (true, .replicate _ 0)
  | .drivePins _ _ _ => (true, 0)
  | .romDelayUs _ => ()

/-- No update is running, and the pins are given to whoever asks. -/
def granted (data : Word) : (c : LowerCall) → c.Answer
  | .otaDebugAllowed | .dapAcquire _ | .operationBegin _ => true
  | .operationEnd | .ownershipRelease | .otaHandleDisconnect => ()
  | .ownershipCurrent => ownerNone
  | .otaProcess _ _ _ => []
  | .target c => c.granted data

def swdMinClockHz : Word := 100000
def swdMaxClockHz : Word := 10000000
def swdDefaultClockHz : Word := 5000000

def swjPinSwclk : Byte := 1 <<< 0
def swjPinSwdio : Byte := 1 <<< 1
def swjPinNreset : Byte := 1 <<< 7

/-- `dap_transport_context_t` without the claim. -/
structure TransportContext where
  owner : Owner
  processor : Processor
  clockHz : Word
  deriving DecidableEq

/-- What the callbacks of the backend have in common: they reserve the pins, work with them
and give them back, or answer with `refused` if the reservation is refused. -/
def withOperation {α : Type} (owner : Owner) (refused : α) (body : LowerCode α) :
    LowerCode α := do
  if ← lower (.operationBegin owner) then do
    let result ← body
    lower .operationEnd
    pure result
  else pure refused

def backendConnect (owner : Owner) (clockHz : Word) : LowerCode Bool := do
  if !(← lower .otaDebugAllowed) then pure false
  else do
    if !(← lower (.dapAcquire owner)) then pure false
    else withOperation owner false (target (.setClock clockHz))

def backendDisconnect (owner : Owner) : LowerCode Unit := do
  lower .ownershipRelease
  if owner = .usb then lower .otaHandleDisconnect else pure ()

/-- The body of `backend_set_clock`: whether it succeeded and the clock that the transport
keeps, which was `cached`. -/
def setClockOwned (clockHz cached : Word) : LowerCode (Bool × Word) := do
  let success ← target (.setClock clockHz)
  pure (success, if success then clockHz else cached)

def backendSetClock (owner : Owner) (selectedPort : Byte) (clockHz cached : Word) :
    LowerCode (Bool × Word) :=
  if clockHz < swdMinClockHz ∨ clockHz > swdMaxClockHz then pure (false, cached)
  else if selectedPort = dapPortDisabled then pure (true, clockHz)
  else withOperation owner (false, cached) (setClockOwned clockHz cached)

def backendConfigureTransfer (owner : Owner) (idleCycles : Byte) (waitRetries : BitVec 16) :
    LowerCode Bool :=
  withOperation owner false (target (.configureTransfer idleCycles waitRetries))

def backendConfigureSwd (owner : Owner) (turnaroundCycles : Byte) (dataPhase : Bool) :
    LowerCode Bool :=
  withOperation owner false (target (.configureBus turnaroundCycles dataPhase))

/-- The body of `backend_transfer`. -/
def transferOwned (ap read : Bool) (address : Byte) (data : Word) :
    LowerCode (Bool × Word × Byte) :=
  if read then do
    let (ok, data, ack) ← target (.read ap address)
    pure (ok, data, if ok then ack else transferError)
  else do
    let (ok, ack) ← target (.write ap address data)
    pure (ok, data, if ok then ack else transferError)

def backendTransfer (owner : Owner) (ap read : Bool) (address : Byte) (data : Word) :
    LowerCode (Bool × Word × Byte) :=
  withOperation owner (false, data, transferError) (transferOwned ap read address data)

def backendWriteSequence (owner : Owner) (data : List Byte) (bitCount : ℕ) : LowerCode Bool :=
  withOperation owner false (target (.writeSequence data bitCount))

def backendReadSequence (owner : Owner) (bitCount : ℕ) :
    LowerCode (Bool × Vector Byte (byteCount bitCount)) :=
  withOperation owner (false, .replicate _ 0) (target (.readSequence bitCount))

/-- The reset line of `swj_pins_owned`. -/
def swjPinsReset (value select : Byte) : LowerCode Bool :=
  if hasFlag select swjPinNreset then
    target (.resetSetAsserted (value &&& swjPinNreset = 0))
  else pure true

/-- The clock and data lines of `swj_pins_owned`. The wait is done with them, or without any
of them on its own and for three seconds at most. -/
def swjPinsSwd (value select : Byte) (waitUs : Word) : LowerCode (Bool × Byte) :=
  if select &&& (swjPinSwclk ||| swjPinSwdio) ≠ 0 then
    target (.drivePins value (select &&& (swjPinSwclk ||| swjPinSwdio)) waitUs)
  else if waitUs > 0 then do
    target (.romDelayUs (if waitUs > 3000000 then 3000000 else waitUs))
    pure (true, 0)
  else pure (true, 0)

def swjPinsOwned (value select : Byte) (waitUs : Word) : LowerCode (Bool × Byte) := do
  if !(← swjPinsReset value select) then pure (false, 0)
  else do
    let (ok, pins) ← swjPinsSwd value select waitUs
    if !ok then pure (false, 0)
    else do
      let asserted ← target .resetIsAsserted
      pure (true, if asserted then pins else pins ||| swjPinNreset)

def backendSwjPins (owner : Owner) (value select : Byte) (waitUs : Word) :
    LowerCode (Bool × Byte) :=
  withOperation owner (false, 0) (swjPinsOwned value select waitUs)

def resetTargetOwned : LowerCode Bool := do
  if !(← target (.resetSetAsserted true)) then pure false
  else do
    target (.romDelayUs 1000)
    target (.resetSetAsserted false)

def backendResetTarget (owner : Owner) : LowerCode Bool :=
  withOperation owner false resetTargetOwned

def backendDelayUs (delay : BitVec 16) : LowerCode Unit :=
  target (.romDelayUs (delay.setWidth 32))

def backendVendorCommand (request : List Byte) (responseCapacity : ℕ) :
    LowerCode (List Byte) := do
  let current ← lower .ownershipCurrent
  lower (.otaProcess (current ≠ ownerNone) request responseCapacity)

/-- A callback that does not change the clock. -/
def withClock {α : Type} (p : LowerCode α) (clockHz : Word) : LowerCode (α × Word) := do
  let answer ← p
  pure (answer, clockHz)

/-- The callbacks of the transport of `owner`, with its cached clock as their state. The port
that was selected when the packet came in is `selectedPort`: a packet that changes it makes
no callback afterwards. -/
def backendCall (owner : Owner) (selectedPort : Byte) :
    (c : BackendCall) → Word → LowerCode (c.Answer × Word)
  | .connect, clockHz => withClock (backendConnect owner clockHz) clockHz
  | .disconnect, clockHz => withClock (backendDisconnect owner) clockHz
  | .setClock hz, clockHz => backendSetClock owner selectedPort hz clockHz
  | .configureTransfer idle wait, clockHz =>
    withClock (backendConfigureTransfer owner idle wait) clockHz
  | .configureSwd turnaround dataPhase, clockHz =>
    withClock (backendConfigureSwd owner turnaround dataPhase) clockHz
  | .transfer ap read address data, clockHz =>
    withClock (backendTransfer owner ap read address data) clockHz
  | .writeSequence data bitCount, clockHz =>
    withClock (backendWriteSequence owner data bitCount) clockHz
  | .readSequence bitCount, clockHz => withClock (backendReadSequence owner bitCount) clockHz
  | .swjPins value select wait, clockHz =>
    withClock (backendSwjPins owner value select wait) clockHz
  | .resetTarget, clockHz => withClock (backendResetTarget owner) clockHz
  | .delayUs delay, clockHz => withClock (backendDelayUs delay) clockHz
  | .hostStatus _ _, clockHz => pure ((), clockHz)
  | .vendorCommand _ request capacity, clockHz =>
    withClock (backendVendorCommand request capacity) clockHz

/-- The callbacks that `airdap_dap_init` installs: all but the host status. -/
def installedBackend : DapBackend where
  connect := true
  disconnect := true
  setClock := true
  configureTransfer := true
  configureSwd := true
  transfer := true
  writeSequence := true
  readSequence := true
  swjPins := true
  resetTarget := true
  delayUs := true
  hostStatus := false
  vendorCommand := true

/-- A transport as `airdap_dap_init` leaves it. -/
def TransportContext.init (owner : Owner) (serialNumber firmwareVersion : List Byte) :
    TransportContext where
  owner
  processor := processorInit installedBackend (some serialNumber) (some firmwareVersion)
  clockHz := swdDefaultClockHz

/-- `airdap_dap_process` for the transport of an owner. -/
def dapProcess (context : TransportContext) (request : List Byte) (responseCapacity : ℕ) :
    LowerCode (List Byte × TransportContext) := do
  let ((response, processor), clockHz) ←
    (processPacket context.processor request responseCapacity).handle
      (backendCall context.owner context.processor.selectedPort) context.clockHz
  pure (response, { context with processor, clockHz })

/-- `airdap_dap_session_closed` for the transport of an owner. -/
def dapSessionClosed (context : TransportContext) : LowerCode TransportContext := do
  let (_, context) ← dapProcess context [0x03] 2
  pure context

end AirDap

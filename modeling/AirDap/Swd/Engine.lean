import AirDap.Concurrency.Sequential
import AirDap.Dap.Protocol
import AirDap.Wire.Bits

/-! A transfer on the debug wire: the protocol of `swd_protocol.c` over the line that
`swd_engine.c` drives with the SPI peripheral and the pin for the direction. -/
namespace AirDap
open Concurrency

namespace Swd

/-- `esp_err_t`, as far as it comes from here; an error of a driver has its code. -/
inductive SwdError where
  | ok | invalidArg | invalidState | invalidResponse | invalidCrc
  | driver (code : Word)
  deriving DecidableEq, Repr

/-- The direction pin, and the transactions of the SPI peripheral in half duplex. -/
inductive WireCall where
  | setDirection (output : Bool)
  | transmit (bits : List Bool)
  | receive (count : ℕ)
  deriving DecidableEq, Repr

/-- No code stands for ESP_OK. -/
@[reducible] def WireCall.Answer : WireCall → Type
  | .setDirection _ | .transmit _ => Option Word
  | .receive count => Except Word (Vector Bool count)

abbrev SwdCode (α : Type) := Prog WireCall WireCall.Answer α

def wire (c : WireCall) : SwdCode c.Answer := .act c .ret

inductive Port where
  | dp | ap
  deriving DecidableEq, Repr

inductive Direction where
  | write | read
  deriving DecidableEq, Repr

def Port.code : Port → Word
  | .dp => 0
  | .ap => 1

def Direction.code : Direction → Word
  | .write => 0
  | .read => 1

def ackOk : Byte := 1
def ackWait : Byte := 2
def ackFault : Byte := 4

/-- `airdap_swd_request_t`. -/
structure Request where
  port : Port
  direction : Direction
  address : Byte
  deriving DecidableEq, Repr

def Request.valid (request : Request) : Bool :=
  request.address ≤ 0x0C && request.address &&& 0x03 = 0

/-- The members of `swd_engine_t` that a transfer works with. -/
structure Engine where
  initialized : Bool
  hostOutput : Bool
  dataPhase : Bool
  idleCycles : Byte
  turnaroundCycles : Byte
  waitRetries : Word
  deriving DecidableEq, Repr

/-! `swd_engine.c` -/

def setHostOutput (enabled : Bool) (engine : Engine) : SwdCode (SwdError × Engine) := do
  match ← wire (.setDirection enabled) with
  | none => pure (.ok, { engine with hostOutput := enabled })
  | some code => pure (.driver code, engine)

def writeBits (bits : BitVec 64) (bitCount : ℕ) (engine : Engine) : SwdCode SwdError :=
  if !engine.hostOutput ∨ bitCount = 0 ∨ bitCount > 64 then pure .invalidState
  else do
    match ← wire (.transmit (Wire.bits bitCount bits)) with
    | none => pure .ok
    | some code => pure (.driver code)

/-- The bits are zero with an error, as the callers have set them before. -/
def readBits (bitCount : ℕ) (engine : Engine) : SwdCode (SwdError × BitVec 64) :=
  if engine.hostOutput ∨ bitCount = 0 ∨ bitCount > 64 then pure (.invalidState, 0)
  else do
    match ← wire (.receive bitCount) with
    | .ok received => pure (.ok, Wire.ofBits 64 received.toList)
    | .error code => pure (.driver code, 0)

def turnaround (hostOutput : Bool) (engine : Engine) : SwdCode (SwdError × Engine) :=
  if hostOutput then
    if engine.hostOutput then pure (.invalidState, engine)
    else do
      let (error, _) ← readBits engine.turnaroundCycles.toNat engine
      if error ≠ .ok then pure (error, engine) else setHostOutput true engine
  else if !engine.hostOutput then pure (.invalidState, engine)
  else do
    let (error, engine) ← setHostOutput false engine
    if error ≠ .ok then pure (error, engine)
    -- the read of the ACK gives the last clock of the turnaround
    else if engine.turnaroundCycles = 1 then pure (.ok, engine)
    else do
      let (error, _) ← readBits (engine.turnaroundCycles.toNat - 1) engine
      pure (error, engine)

/-! `swd_protocol.c` -/

def requestBitCount : ℕ := 8
def ackBitCount : ℕ := 3
def dataBitCount : ℕ := 33
def writeGuardBits : ℕ := 1
def writeEmbeddedIdleCycles : ℕ := 6
def writeFrameBits : ℕ := writeGuardBits + dataBitCount + writeEmbeddedIdleCycles

/-- The loop of `parity32` with rounds for all bits of the value. -/
def parityLoop : ℕ → Word → Bool → Bool
  | 0, _, parity => parity
  | rounds + 1, value, parity =>
    if value = 0 then parity
    else parityLoop rounds (value >>> 1) (parity ^^ value.getLsbD 0)

def parity32 (value : Word) : Bool := parityLoop 32 value false

/-- `airdap_swd_encode_request`. -/
def encodeRequest (request : Request) : Byte :=
  let addressBit2 := (request.address.setWidth 32 >>> 2) &&& 1
  let addressBit3 := (request.address.setWidth 32 >>> 3) &&& 1
  let requestParity := request.port.code ^^^ request.direction.code ^^^ addressBit2 ^^^ addressBit3
  BitVec.setWidth 8 ((1 : Word) ||| request.port.code <<< 1 ||| request.direction.code <<< 2 |||
    addressBit2 <<< 3 ||| addressBit3 <<< 4 ||| requestParity <<< 5 ||| (1 : Word) <<< 7)

/-- The bits that `write_idle_cycles` writes at once: one bit alone cannot be sent. -/
def idleChunk (remaining : ℕ) : ℕ :=
  if remaining = 65 then 63
  else if remaining = 1 then 2
  else if remaining > 64 then 64 else remaining

/-- `write_idle_cycles`, whose loop has a round for each cycle. -/
def idleLoop (engine : Engine) : ℕ → ℕ → SwdCode SwdError
  | 0, _ => pure .ok
  | rounds + 1, remaining =>
    if remaining = 0 then pure .ok
    else do
      let error ← writeBits 0 (idleChunk remaining) engine
      if error ≠ .ok then pure error else idleLoop engine rounds (remaining - idleChunk remaining)

def writeIdleCycles (idleCycles : ℕ) (engine : Engine) : SwdCode SwdError :=
  idleLoop engine idleCycles idleCycles

def writeDataPhaseAndIdle (dataBits : BitVec 64) (engine : Engine) : SwdCode SwdError := do
  let error ← writeBits (dataBits <<< writeGuardBits) writeFrameBits engine
  if error ≠ .ok then pure error
  else writeIdleCycles (engine.idleCycles.toNat - writeEmbeddedIdleCycles) engine

def restoreHostAndIdle (engine : Engine) : SwdCode (SwdError × Engine) := do
  let (error, engine) ← turnaround true engine
  if error ≠ .ok then pure (error, engine)
  else do
    let idleCycles := if engine.idleCycles = 0 then 1 else engine.idleCycles.toNat
    let error ← writeIdleCycles idleCycles engine
    pure (error, engine)

/-- A data phase of the target that is read and not used, and then the end of the attempt. -/
def skipDataPhase (engine : Engine) : SwdCode (SwdError × Engine) := do
  let (error, _) ← readBits dataBitCount engine
  if error ≠ .ok then do
    let (_, engine) ← restoreHostAndIdle engine
    pure (error, engine)
  else restoreHostAndIdle engine

def completeProtocolError (engine : Engine) : SwdCode (SwdError × Engine) := skipDataPhase engine

/-- A data phase that the host writes. -/
def writePhase (dataBits : BitVec 64) (engine : Engine) : SwdCode (SwdError × Engine) := do
  let (error, engine) ← turnaround true engine
  if error ≠ .ok then pure (error, engine)
  else do
    let error ← writeDataPhaseAndIdle dataBits engine
    pure (error, engine)

def completeErrorDataPhase (request : Request) (engine : Engine) :
    SwdCode (SwdError × Engine) :=
  if !engine.dataPhase then restoreHostAndIdle engine
  else if request.direction = .read then skipDataPhase engine
  else writePhase 0 engine

/-- What an attempt or a transfer returns, and the variables of the caller after it. -/
structure Result where
  error : SwdError
  data : Word
  ack : Byte
  engine : Engine
  deriving DecidableEq, Repr

/-- The data phase of an attempt that was answered with OK, for a read. -/
def readPhase (data : Word) (ack : Byte) (engine : Engine) : SwdCode Result := do
  let (error, dataBits) ← readBits dataBitCount engine
  if error ≠ .ok then do
    let (_, engine) ← restoreHostAndIdle engine
    pure ⟨error, data, ack, engine⟩
  else do
    let (error, engine) ← restoreHostAndIdle engine
    if error ≠ .ok then pure ⟨error, data, ack, engine⟩
    else if dataBits.getLsbD 32 ≠ parity32 (dataBits.setWidth 32) then
      pure ⟨.invalidCrc, data, ack, engine⟩
    else pure ⟨.ok, dataBits.setWidth 32, ack, engine⟩

/-- What `transfer_attempt` does with the ACK. -/
def afterAck (request : Request) (data : Word) (ack : Byte) (engine : Engine) :
    SwdCode Result :=
  if ack ≠ ackOk ∧ ack ≠ ackWait ∧ ack ≠ ackFault then do
    let (error, engine) ← completeProtocolError engine
    pure ⟨if error = .ok then .invalidResponse else error, data, ack, engine⟩
  else if ack ≠ ackOk then do
    let (error, engine) ← completeErrorDataPhase request engine
    pure ⟨error, data, ack, engine⟩
  else if request.direction = .read then readPhase data ack engine
  else do
    let dataBits : BitVec 64 :=
      data.setWidth 64 ||| BitVec.ofNat 64 (parity32 data).toNat <<< 32
    let (error, engine) ← writePhase dataBits engine
    pure ⟨error, data, ack, engine⟩

def transferAttempt (request : Request) (data : Word) (ack : Byte) (engine : Engine) :
    SwdCode Result := do
  let error ← writeBits ((encodeRequest request).setWidth 64) requestBitCount engine
  if error ≠ .ok then pure ⟨error, data, ack, engine⟩
  else do
    let (error, engine) ← turnaround false engine
    if error ≠ .ok then pure ⟨error, data, ack, engine⟩
    else do
      let (error, ackBits) ← readBits ackBitCount engine
      if error ≠ .ok then do
        let (_, engine) ← restoreHostAndIdle engine
        pure ⟨error, data, ack, engine⟩
      else afterAck request data (ackBits.setWidth 8) engine

/-- The loop of `airdap_swd_protocol_transfer`, which is given any number of rounds. The number
of the attempt is an unsigned integer of 32 bits. -/
def retryLoop (request : Request) : ℕ → Word → Result → SwdCode Result
  | 0, _, _ => .spent
  | rounds + 1, attempt, st =>
    if attempt ≤ st.engine.waitRetries then do
      let st ← transferAttempt request st.data st.ack st.engine
      if st.error ≠ .ok ∨ st.ack ≠ ackWait then pure st
      else retryLoop request rounds (attempt + 1) st
    else pure { st with error := .ok }

/-- `airdap_swd_protocol_transfer` with the input and output of `protocol_io`. -/
def protocolTransfer (rounds : ℕ) (request : Request) (data : Word) (ack : Byte)
    (engine : Engine) : SwdCode Result :=
  if !request.valid then pure ⟨.invalidArg, data, ack, engine⟩
  else retryLoop request rounds 0 ⟨.ok, data, ack, engine⟩

/-- `airdap_swd_transfer`. -/
def swdTransfer (rounds : ℕ) (request : Request) (data : Word) (ack : Byte) (engine : Engine) :
    SwdCode Result :=
  if !engine.initialized then pure ⟨.invalidState, data, ack, engine⟩
  else if !engine.hostOutput then do
    let (error, engine) ← setHostOutput true engine
    if error ≠ .ok then pure ⟨error, data, ack, engine⟩
    else protocolTransfer rounds request data ack engine
  else protocolTransfer rounds request data ack engine

/-- The engine after its initialisation, with the defaults of `swd_engine.c` apart from the
limit. -/
def idleEngine (waitRetries : Word) : Engine := ⟨true, true, false, 8, 1, waitRetries⟩

def idcodeRequest : Request := ⟨.dp, .read, 0⟩

end Swd
end AirDap

import AirDap.Concurrency.Program
import AirDap.Ownership.Word

/-! The CMSIS-DAP command processor. A buffer is the list of its bytes, and a null pointer
is a buffer without any. A response is the list of the bytes that are sent back. -/
namespace AirDap
open Concurrency

abbrev Byte := BitVec 8

def dapBufferSize : ℕ := 512
def dapPacketSize : ℕ := 508
def dapPortDisabled : Byte := 0
def dapPortSwd : Byte := 1
def sizeMax : ℕ := 2 ^ 32 - 1

/-- The number of bytes that hold `bitCount` bits. -/
def byteCount (bitCount : ℕ) : ℕ := (bitCount + 7) / 8

/-- A call of one of the callbacks in `airdap_dap_backend_t`. -/
inductive BackendCall where
  | connect
  | disconnect
  | setClock (clockHz : Word)
  | configureTransfer (idleCycles : Byte) (waitRetries : BitVec 16)
  | configureSwd (turnaroundCycles : Byte) (dataPhase : Bool)
  | transfer (ap read : Bool) (address : Byte) (data : Word)
  | writeSequence (data : List Byte) (bitCount : ℕ)
  | readSequence (bitCount : ℕ)
  | swjPins (value select : Byte) (waitUs : Word)
  | resetTarget
  | delayUs (delay : BitVec 16)
  | hostStatus (statusType : Byte) (active : Bool)
  | vendorCommand (debugConnected : Bool) (request : List Byte) (responseCapacity : ℕ)

/-- A transfer answers with the data and the status it leaves, and a read of a sequence with
the bytes of its buffer. -/
@[reducible] def BackendCall.Answer : BackendCall → Type
  | .connect | .setClock _ | .configureTransfer _ _ | .configureSwd _ _ | .writeSequence _ _
  | .resetTarget => Bool
  | .disconnect | .delayUs _ | .hostStatus _ _ => Unit
  | .transfer _ _ _ _ => Bool × Word × Byte
  | .readSequence bitCount => Bool × Vector Byte (byteCount bitCount)
  | .swjPins _ _ _ => Bool × Byte
  | .vendorCommand _ _ _ => List Byte

abbrev DapCode (α : Type) := Prog BackendCall BackendCall.Answer α

/-- Which callbacks of `airdap_dap_backend_t` are there. -/
structure DapBackend where
  connect : Bool
  disconnect : Bool
  setClock : Bool
  configureTransfer : Bool
  configureSwd : Bool
  transfer : Bool
  writeSequence : Bool
  readSequence : Bool
  swjPins : Bool
  resetTarget : Bool
  delayUs : Bool
  hostStatus : Bool
  vendorCommand : Bool
  deriving DecidableEq

/-- A callback that may be missing, with what its caller goes on with then. -/
def callback (present : Bool) (c : BackendCall) (absent : c.Answer) : DapCode c.Answer :=
  if present then .act c .ret else pure absent

/-- `airdap_dap_processor_t`. A C string is the list of its bytes before the terminating
zero. -/
structure Processor where
  backend : DapBackend
  serialNumber : List Byte
  firmwareVersion : List Byte
  matchMask : Word
  matchRetries : BitVec 16
  selectedPort : Byte
  deriving DecidableEq

def processorInit (backend : DapBackend) (serialNumber firmwareVersion : Option (List Byte)) :
    Processor where
  backend
  serialNumber := serialNumber.getD []
  firmwareVersion := firmwareVersion.getD []
  matchMask := BitVec.allOnes 32
  matchRetries := 0
  selectedPort := dapPortDisabled

/-- The commands that the processor knows. -/
inductive DapCommand where
  | info | hostStatus | connect | disconnect | transferConfigure | transfer | transferBlock
  | writeAbort | delay | resetTarget | swjPins | swjClock | swjSequence | swdConfigure
  | swdSequence | otaQuery | otaBegin | otaWrite | otaCommit | otaAbort | otaReboot
  deriving DecidableEq, Repr

namespace DapCommand

def code : DapCommand → Byte
  | info => 0x00
  | hostStatus => 0x01
  | connect => 0x02
  | disconnect => 0x03
  | transferConfigure => 0x04
  | transfer => 0x05
  | transferBlock => 0x06
  | writeAbort => 0x08
  | delay => 0x09
  | resetTarget => 0x0A
  | swjPins => 0x10
  | swjClock => 0x11
  | swjSequence => 0x12
  | swdConfigure => 0x13
  | swdSequence => 0x1D
  | otaQuery => 0x80
  | otaBegin => 0x81
  | otaWrite => 0x82
  | otaCommit => 0x83
  | otaAbort => 0x84
  | otaReboot => 0x85

def all : List DapCommand :=
  [info, hostStatus, connect, disconnect, transferConfigure, transfer, transferBlock,
    writeAbort, delay, resetTarget, swjPins, swjClock, swjSequence, swdConfigure, swdSequence,
    otaQuery, otaBegin, otaWrite, otaCommit, otaAbort, otaReboot]

/-- The command that a request starts with. -/
def ofByte (b : Byte) : Option DapCommand := all.find? fun c => c.code = b

theorem ofByte_code (c : DapCommand) : ofByte c.code = some c := by cases c <;> rfl

theorem code_of_ofByte {b : Byte} {c : DapCommand} (h : ofByte b = some c) : b = c.code := by
  have hc := List.find?_some h
  exact (of_decide_eq_true hc).symm

end DapCommand

def dapInvalid : Byte := 0xFF
def dapOk : Byte := 0x00
def dapError : Byte := 0xFF

def transferAp : Byte := 1 <<< 0
def transferRead : Byte := 1 <<< 1
def transferMatchValue : Byte := 1 <<< 4
def transferMatchMask : Byte := 1 <<< 5
def transferTimestamp : Byte := 1 <<< 7
def transferOk : Byte := 1 <<< 0
def transferError : Byte := 1 <<< 3
def transferMismatch : Byte := 1 <<< 4

/-- `(value & flag) != 0U`. -/
def hasFlag (value flag : Byte) : Bool := value &&& flag ≠ 0

def byteAt (data : List Byte) (index : ℕ) : Byte := data.getD index 0

def readU16 (data : List Byte) : BitVec 16 :=
  (byteAt data 0).setWidth 16 ||| (byteAt data 1).setWidth 16 <<< 8

def readU32 (data : List Byte) : Word :=
  (byteAt data 0).setWidth 32 ||| (byteAt data 1).setWidth 32 <<< 8 |||
    (byteAt data 2).setWidth 32 <<< 16 ||| (byteAt data 3).setWidth 32 <<< 24

def writeU16 (value : BitVec 16) : List Byte := [value.setWidth 8, (value >>> 8).setWidth 8]

def writeU32 (value : Word) : List Byte :=
  [value.setWidth 8, (value >>> 8).setWidth 8, (value >>> 16).setWidth 8,
    (value >>> 24).setWidth 8]

def invalidResponse (responseCapacity : ℕ) : List Byte :=
  if responseCapacity > 0 then [dapInvalid] else []

def statusResponse (command : Byte) (success : Bool) (responseCapacity : ℕ) : List Byte :=
  if responseCapacity < 2 then invalidResponse responseCapacity
  else [command, if success then dapOk else dapError]

/-! `airdap_dap_request_size` -/

/-- A size that is known once `length` bytes are there. -/
def sizeWhen (available length : ℕ) : ℕ := if available ≥ length then length else 0

/-- Whether an item of a transfer is followed by a data word. -/
def hasData (transferRequest : Byte) : Bool :=
  !hasFlag transferRequest transferRead || hasFlag transferRequest transferMatchValue

def transferSize (request : List Byte) : ℕ → ℕ → ℕ
  | 0, length => length
  | items + 1, length =>
    if request.length ≤ length then 0
    else
      let data := hasData (byteAt request length)
      if data ∧ length + 1 > sizeMax - 4 then sizeMax
      else
        let length := if data then length + 5 else length + 1
        if length > dapPacketSize then sizeMax
        else if request.length < length then 0
        else transferSize request items length

/-- The bits of an item of a sequence command. -/
def sequenceBits (info : Byte) : ℕ := if info &&& 0x3F = 0 then 64 else (info &&& 0x3F).toNat

def sequenceSize (request : List Byte) : ℕ → ℕ → ℕ
  | 0, length => length
  | items + 1, length =>
    if request.length ≤ length then 0
    else
      let info := byteAt request length
      if hasFlag info 0x80 then sequenceSize request items (length + 1)
      else
        let length := length + 1 + byteCount (sequenceBits info)
        if length > dapPacketSize then sizeMax
        else if request.length < length then 0
        else sequenceSize request items length

def otaWriteHeaderSize : ℕ := 7
def otaMaxWriteSize : ℕ := 496

/-- The bits of an SWJ sequence. -/
def swjSequenceBits (count : Byte) : ℕ := if count = 0 then 256 else count.toNat

/-- `airdap_dap_request_size`: zero when more bytes are needed and `sizeMax` for a request
that is malformed. -/
def requestSize (request : List Byte) : ℕ :=
  let available := request.length
  if available = 0 then 0
  else match DapCommand.ofByte (byteAt request 0) with
  | some .info | some .connect | some .swdConfigure => sizeWhen available 2
  | some .hostStatus | some .delay => sizeWhen available 3
  | some .disconnect | some .resetTarget | some .otaQuery | some .otaCommit | some .otaAbort
  | some .otaReboot => 1
  | some .transferConfigure | some .writeAbort => sizeWhen available 6
  | some .swjPins => sizeWhen available 7
  | some .swjClock | some .otaBegin => sizeWhen available 5
  | some .otaWrite =>
    if available < otaWriteHeaderSize then 0
    else
      let length := (readU16 (request.drop 5)).toNat
      if length > otaMaxWriteSize then sizeMax
      else sizeWhen available (length + otaWriteHeaderSize)
  | some .swjSequence =>
    if available < 2 then 0
    else
      let length := 2 + byteCount (swjSequenceBits (byteAt request 1))
      if length > dapPacketSize then sizeMax else sizeWhen available length
  | some .transferBlock =>
    if available < 5 then 0
    else
      let count := (readU16 (request.drop 2)).toNat
      if !hasFlag (byteAt request 4) transferRead ∧ count > (sizeMax - 5) / 4 then sizeMax
      else
        let length := if hasFlag (byteAt request 4) transferRead then 5 else 5 + count * 4
        if length > dapPacketSize then sizeMax else sizeWhen available length
  | some .transfer =>
    if available < 3 then 0 else transferSize request (byteAt request 2).toNat 3
  | some .swdSequence =>
    if available < 2 then 0 else sequenceSize request (byteAt request 1).toNat 2
  | none => 1

/-! DAP_Info -/

def charBytes (text : List Char) : List Byte := text.map fun c => BitVec.ofNat 8 c.toNat

def infoVendor : List Byte := charBytes ['A', 'i', 'r', 'D', 'A', 'P'] ++ [0]

def infoProduct : List Byte :=
  charBytes ['A', 'i', 'r', 'D', 'A', 'P', ' ', 'C', 'M', 'S', 'I', 'S', '-', 'D', 'A', 'P',
    ' ', 'v', '2'] ++ [0]

def infoProtocolVersion : List Byte := charBytes ['2', '.', '1', '.', '2'] ++ [0]

variable (processor : Processor) (request : List Byte) (responseCapacity : ℕ)

/-- What DAP_Info answers with, terminating zeros included. -/
def infoData (id : Byte) : List Byte :=
  if id = 0x01 then infoVendor
  else if id = 0x02 then infoProduct
  else if id = 0x03 then processor.serialNumber ++ [0]
  else if id = 0x04 then infoProtocolVersion
  else if id = 0x09 then processor.firmwareVersion ++ [0]
  else if id = 0xF0 then [1 <<< 0, 1 <<< 0]
  else if id = 0xFE then [1]
  else if id = 0xFF then writeU16 (BitVec.ofNat 16 dapPacketSize)
  else []

def processInfo :
    List Byte :=
  if request.length < 2 ∨ responseCapacity < 2 then invalidResponse responseCapacity
  else
    let data := infoData processor (byteAt request 1)
    if data.length > 255 ∨ responseCapacity < 2 + data.length then
      invalidResponse responseCapacity
    else [DapCommand.info.code, BitVec.ofNat 8 data.length] ++ data

/-! Transfers -/

/-- `transfer_once`: whether it succeeded, the data and the status. -/
def transferOnce (transferRequest : Byte) (data : Word) :
    DapCode (Bool × Word × Byte) := do
  let answer ← callback processor.backend.transfer
    (.transfer (hasFlag transferRequest transferAp) (hasFlag transferRequest transferRead)
      (transferRequest &&& 0x0C) data) (false, data, transferError)
  pure (if answer.1 then (answer.2.2 = transferOk, answer.2)
    else (false, answer.2.1, transferError))

/-- The reads of an item with a match value: whether one matched and the last status. -/
def matchLoop (processor : Processor) (transferRequest : Byte) (data : Word) :
    ℕ → Byte → DapCode (Bool × Byte)
  | 0, status => pure (false, status)
  | attempts + 1, _ => do
    let (done, actual, status) ← transferOnce processor transferRequest 0
    if !done then pure (false, status)
    else if actual &&& processor.matchMask = data &&& processor.matchMask then
      pure (true, status)
    else matchLoop processor transferRequest data attempts status

/-- The variables of `process_transfer`; `output` are the bytes after the header. -/
structure TransferState where
  processor : Processor
  input : ℕ
  output : List Byte
  completed : Byte
  status : Byte
  pendingWrite : Bool

/-- An item with a match value, with its data read: whether the items after it are done. -/
def matchItem (transferRequest : Byte) (data : Word) (st : TransferState) :
    DapCode (Bool × TransferState) := do
  let (matched, status) ← matchLoop st.processor transferRequest data
    (st.processor.matchRetries.toNat + 1) st.status
  pure (if matched then (true, { st with status, completed := st.completed + 1 })
    else (false, { st with
      status := if status = transferOk then status ||| transferMismatch else status }))

/-- The bytes that a read adds to the response. -/
def readBytes (transferRequest : Byte) (data : Word) : List Byte :=
  if hasFlag transferRequest transferTimestamp then writeU32 0 ++ writeU32 data
  else writeU32 data

/-- How an item of a transfer ends: the loop goes on, or it is done. An error is a return of
`invalid_response`. -/
inductive TransferStep where
  | next (st : TransferState)
  | ended (result : Except TransferState TransferState)

def TransferStep.goOn (k : TransferState → DapCode (Except TransferState TransferState)) :
    TransferStep → DapCode (Except TransferState TransferState)
  | .next st => k st
  | .ended result => pure result

/-- One pass of the loop of `process_transfer`. -/
def transferItem (request : List Byte) (responseCapacity : ℕ) (st : TransferState) :
    DapCode TransferStep :=
  if st.input ≥ request.length then pure (.ended (.error st))
  else
    let transferRequest := byteAt request st.input
    let read := hasFlag transferRequest transferRead
    let st := { st with input := st.input + 1 }
    if hasFlag transferRequest transferMatchMask then
      if read ∨ st.input + 4 > request.length then pure (.ended (.error st))
      else pure (.next { st with
        processor.matchMask := readU32 (request.drop st.input)
        input := st.input + 4
        completed := st.completed + 1 })
    else if hasData transferRequest ∧ st.input + 4 > request.length then
      pure (.ended (.error st))
    else
      let data := if hasData transferRequest then readU32 (request.drop st.input) else 0
      let st := if hasData transferRequest then { st with input := st.input + 4 } else st
      if hasFlag transferRequest transferMatchValue then do
        let (matched, st) ← matchItem transferRequest data st
        if matched then pure (.next st) else pure (.ended (.ok st))
      else do
        let (done, data, status) ← transferOnce st.processor transferRequest data
        if !done then pure (.ended (.ok { st with status }))
        else
          let st := { st with status, completed := st.completed + 1, pendingWrite := !read }
          if !read then pure (.next st)
          else if 3 + st.output.length + (readBytes transferRequest data).length >
              responseCapacity then pure (.ended (.error st))
          else
            let st := { st with output := st.output ++ readBytes transferRequest data }
            pure (.next st)

/-- The items of `process_transfer`. -/
def transferLoop (request : List Byte) (responseCapacity : ℕ) :
    ℕ → TransferState → DapCode (Except TransferState TransferState)
  | 0, st => pure (.ok st)
  | items + 1, st =>
    transferItem request responseCapacity st >>=
      TransferStep.goOn (transferLoop request responseCapacity items)

/-- The read of RDBUFF that completes the last write: the status after it. -/
def flushWrite (pending : Bool) (status : Byte) : DapCode Byte :=
  if pending ∧ status = transferOk then do
    let (_, _, status) ← transferOnce processor (transferRead ||| 0x0C) 0
    pure status
  else pure status

/-- The first pass of `process_transfer`: the end of the items and the size of the response. -/
def scanTransfers (request : List Byte) : ℕ → ℕ → ℕ → ℕ × ℕ
  | 0, scan, required => (scan, required)
  | items + 1, scan, required =>
    let transferRequest := byteAt request scan
    scanTransfers request items (if hasData transferRequest then scan + 5 else scan + 1)
      (if hasData transferRequest then required
        else if hasFlag transferRequest transferTimestamp then required + 8 else required + 4)

/-- The end of `process_transfer`. -/
def transferResponse (responseCapacity : ℕ) :
    Except TransferState TransferState → DapCode (List Byte × Processor)
  | .error st => pure (invalidResponse responseCapacity, st.processor)
  | .ok st => do
    let status ← flushWrite st.processor st.pendingWrite st.status
    pure ([DapCommand.transfer.code, st.completed, status] ++ st.output, st.processor)

def processTransfer :
    DapCode (List Byte × Processor) :=
  if request.length < 3 ∨ responseCapacity < 3 then
    pure (invalidResponse responseCapacity, processor)
  else
    let framedLength := requestSize request
    let items := (byteAt request 2).toNat
    if framedLength = 0 ∨ framedLength = sizeMax then
      pure (invalidResponse responseCapacity, processor)
    else if (scanTransfers request items 3 3).2 > responseCapacity ∨
        (scanTransfers request items 3 3).1 ≠ framedLength then
      pure (invalidResponse responseCapacity, processor)
    else if processor.selectedPort ≠ dapPortSwd then
      pure ([DapCommand.transfer.code, 0, 0], processor)
    else do
      let ended ← transferLoop request responseCapacity items
        ⟨processor, 3, [], 0, transferOk, false⟩
      transferResponse responseCapacity ended

/-- The variables of `process_transfer_block`; `output` are the bytes after the header. -/
structure BlockState where
  input : ℕ
  output : List Byte
  completed : BitVec 16
  status : Byte

/-- The words of `process_transfer_block`; `none` is a return of `invalid_response`. -/
def blockLoop (processor : Processor) (request : List Byte) (responseCapacity : ℕ)
    (transferRequest : Byte) : ℕ → BlockState → DapCode (Option BlockState)
  | 0, st => pure (some st)
  | words + 1, st =>
    let read := hasFlag transferRequest transferRead
    if !read ∧ st.input + 4 > request.length then pure none
    else if read ∧ 4 + st.output.length + 4 > responseCapacity then pure none
    else do
      let data := if read then 0 else readU32 (request.drop st.input)
      let st := if read then st else { st with input := st.input + 4 }
      let (done, data, status) ← transferOnce processor transferRequest data
      if !done then pure (some { st with status })
      else blockLoop processor request responseCapacity transferRequest words { st with
        status
        completed := st.completed + 1
        output := if read then st.output ++ writeU32 data else st.output }

def processTransferBlock : DapCode (List Byte) :=
  if request.length < 5 ∨ responseCapacity < 4 then pure (invalidResponse responseCapacity)
  else
    let count := (readU16 (request.drop 2)).toNat
    let transferRequest := byteAt request 4
    let read := hasFlag transferRequest transferRead
    if (read ∧ count > (responseCapacity - 4) / 4) ∨
        (!read ∧ count > (request.length - 5) / 4) then
      pure (invalidResponse responseCapacity)
    else if processor.selectedPort ≠ dapPortSwd then
      pure ([DapCommand.transferBlock.code] ++ writeU16 0 ++ [0])
    else do
      match ← blockLoop processor request responseCapacity transferRequest count
          ⟨5, [], 0, transferOk⟩ with
      | none => pure (invalidResponse responseCapacity)
      | some st => do
        let status ← flushWrite processor (!read && 0 < st.completed) st.status
        pure ([DapCommand.transferBlock.code] ++ writeU16 st.completed ++ [status] ++ st.output)

/-! SWD sequences -/

/-- The first pass of `process_swd_sequence`: the size of the response, or `none` for a
return of `invalid_response`. -/
def scanSequences (request : List Byte) : ℕ → ℕ → ℕ → Option ℕ
  | 0, _, required => some required
  | items + 1, scan, required =>
    if scan ≥ request.length then none
    else
      let info := byteAt request scan
      let bytes := byteCount (sequenceBits info)
      if hasFlag info 0x80 then scanSequences request items (scan + 1) (required + bytes)
      else if scan + 1 + bytes > request.length then none
      else scanSequences request items (scan + 1 + bytes) required

/-- The variables of `process_swd_sequence`; `output` are the bytes after the header. -/
structure SequenceState where
  input : ℕ
  output : List Byte
  success : Bool

/-- A read of a sequence unless an earlier item failed: the bytes and whether all is well. -/
def readSequenceItem (bitCount : ℕ) (success : Bool) :
    DapCode (Bool × Vector Byte (byteCount bitCount)) :=
  if success then
    callback processor.backend.readSequence (.readSequence bitCount) (false, .replicate _ 0)
  else pure (false, .replicate _ 0)

def writeSequenceItem (data : List Byte) (bitCount : ℕ)
    (success : Bool) : DapCode Bool :=
  if success then
    callback processor.backend.writeSequence
      (.writeSequence (data.take (byteCount bitCount)) bitCount) false
  else pure false

def sequenceLoop (processor : Processor) (request : List Byte) (responseCapacity : ℕ) :
    ℕ → SequenceState → DapCode (Option SequenceState)
  | 0, st => pure (some st)
  | items + 1, st =>
    if st.input ≥ request.length then pure none
    else
      let info := byteAt request st.input
      let bitCount := sequenceBits info
      let input := st.input + 1
      if hasFlag info 0x80 then
        if 2 + st.output.length + byteCount bitCount > responseCapacity then pure none
        else do
          let (success, bytes) ← readSequenceItem processor bitCount st.success
          sequenceLoop processor request responseCapacity items
            ⟨input, st.output ++ bytes.toList, success⟩
      else if input + byteCount bitCount > request.length then pure none
      else do
        let success ← writeSequenceItem processor (request.drop input) bitCount st.success
        sequenceLoop processor request responseCapacity items
          ⟨input + byteCount bitCount, st.output, success⟩

section Packet

variable (processor : Processor) (request : List Byte) (responseCapacity : ℕ)

def processSwdSequence : DapCode (List Byte) :=
  if request.length < 2 ∨ responseCapacity < 2 then pure (invalidResponse responseCapacity)
  else match scanSequences request (byteAt request 1).toNat 2 2 with
  | none => pure (invalidResponse responseCapacity)
  | some required =>
    if required > responseCapacity then pure (invalidResponse responseCapacity)
    else do
      match ← sequenceLoop processor request responseCapacity (byteAt request 1).toNat
          ⟨2, [], processor.selectedPort = dapPortSwd⟩ with
      | none => pure (invalidResponse responseCapacity)
      | some st =>
        pure ([DapCommand.swdSequence.code, if st.success then dapOk else dapError] ++ st.output)

/-! The other cases of `airdap_dap_process_packet` -/

def processHostStatus : DapCode (List Byte) :=
  if request.length < 3 ∨ byteAt request 1 > 1 then pure (invalidResponse responseCapacity)
  else do
    callback processor.backend.hostStatus
      (.hostStatus (byteAt request 1) (hasFlag (byteAt request 2) 1)) ()
    pure (statusResponse (byteAt request 0) true responseCapacity)

/-- Whether the backend is connected to a port that a DAP_Connect asks for. -/
def connectPort (port : Byte) : DapCode Bool :=
  if port = 0 ∨ port = dapPortSwd then callback processor.backend.connect .connect false
  else pure false

def disconnectUnless (connected : Bool) : DapCode Unit :=
  if connected then pure () else callback processor.backend.disconnect .disconnect ()

def processConnect : DapCode (List Byte × Processor) :=
  if request.length < 2 ∨ responseCapacity < 2 then
    pure (invalidResponse responseCapacity, processor)
  else do
    let connected ← connectPort processor (byteAt request 1)
    disconnectUnless processor connected
    let selectedPort := if connected then dapPortSwd else dapPortDisabled
    pure ([byteAt request 0, selectedPort], { processor with selectedPort })

def processDisconnect : DapCode (List Byte × Processor) := do
  callback processor.backend.disconnect .disconnect ()
  pure (statusResponse (byteAt request 0) true responseCapacity,
    { processor with selectedPort := dapPortDisabled })

def processTransferConfigure : DapCode (List Byte × Processor) :=
  if request.length < 6 then pure (invalidResponse responseCapacity, processor)
  else do
    let success ← callback processor.backend.configureTransfer
      (.configureTransfer (byteAt request 1) (readU16 (request.drop 2))) false
    pure (statusResponse (byteAt request 0) success responseCapacity,
      { processor with matchRetries := readU16 (request.drop 4) })

def processWriteAbort : DapCode (List Byte) :=
  if request.length < 6 then pure (invalidResponse responseCapacity)
  else if processor.selectedPort ≠ dapPortSwd then
    pure (statusResponse (byteAt request 0) false responseCapacity)
  else do
    let (success, _, _) ← transferOnce processor 0 (readU32 (request.drop 2))
    pure (statusResponse (byteAt request 0) success responseCapacity)

def processDelay : DapCode (List Byte) :=
  if request.length < 3 then pure (invalidResponse responseCapacity)
  else do
    callback processor.backend.delayUs (.delayUs (readU16 (request.drop 1))) ()
    pure (statusResponse (byteAt request 0) true responseCapacity)

def processResetTarget : DapCode (List Byte) :=
  if responseCapacity < 3 then pure (invalidResponse responseCapacity)
  else do
    let success ← callback processor.backend.resetTarget .resetTarget false
    pure [byteAt request 0, if success then dapOk else dapError, 0]

def processSwjPins : DapCode (List Byte) :=
  if request.length < 7 ∨ responseCapacity < 2 then pure (invalidResponse responseCapacity)
  else do
    let (success, pins) ← callback processor.backend.swjPins
      (.swjPins (byteAt request 1) (byteAt request 2) (readU32 (request.drop 3))) (false, 0)
    pure [byteAt request 0, if success then pins else 0]

def processSwjClock : DapCode (List Byte) :=
  if request.length < 5 then pure (invalidResponse responseCapacity)
  else if readU32 (request.drop 1) = 0 then
    pure (statusResponse (byteAt request 0) false responseCapacity)
  else do
    let success ← callback processor.backend.setClock (.setClock (readU32 (request.drop 1))) false
    pure (statusResponse (byteAt request 0) success responseCapacity)

def processSwjSequence : DapCode (List Byte) :=
  if request.length < 2 then pure (invalidResponse responseCapacity)
  else do
    let bitCount := swjSequenceBits (byteAt request 1)
    let success ← writeSequenceItem processor (request.drop 2) bitCount
      (2 + byteCount bitCount ≤ request.length ∧ processor.selectedPort = dapPortSwd)
    pure (statusResponse (byteAt request 0) success responseCapacity)

def processSwdConfigure : DapCode (List Byte) :=
  if request.length < 2 then pure (invalidResponse responseCapacity)
  else do
    let success ← callback processor.backend.configureSwd
      (.configureSwd ((byteAt request 1 &&& 0x03) + 1) (hasFlag (byteAt request 1) 0x04)) false
    pure (statusResponse (byteAt request 0) success responseCapacity)

def processVendorCommand : DapCode (List Byte) :=
  callback processor.backend.vendorCommand
    (.vendorCommand (processor.selectedPort ≠ dapPortDisabled) request responseCapacity)
    (invalidResponse responseCapacity)

/-- A case that leaves the processor as it is. -/
def keeping (p : DapCode (List Byte)) :
    DapCode (List Byte × Processor) := do
  let response ← p
  pure (response, processor)

/-- The `switch` of `airdap_dap_process_packet`. -/
def processCommand : Option DapCommand → DapCode (List Byte × Processor)
  | some .info => pure (processInfo processor request responseCapacity, processor)
  | some .hostStatus => keeping processor (processHostStatus processor request responseCapacity)
  | some .connect => processConnect processor request responseCapacity
  | some .disconnect => processDisconnect processor request responseCapacity
  | some .transferConfigure => processTransferConfigure processor request responseCapacity
  | some .transfer => processTransfer processor request responseCapacity
  | some .transferBlock =>
    keeping processor (processTransferBlock processor request responseCapacity)
  | some .writeAbort => keeping processor (processWriteAbort processor request responseCapacity)
  | some .delay => keeping processor (processDelay processor request responseCapacity)
  | some .resetTarget =>
    keeping processor (processResetTarget processor request responseCapacity)
  | some .swjPins => keeping processor (processSwjPins processor request responseCapacity)
  | some .swjClock => keeping processor (processSwjClock processor request responseCapacity)
  | some .swjSequence =>
    keeping processor (processSwjSequence processor request responseCapacity)
  | some .swdConfigure =>
    keeping processor (processSwdConfigure processor request responseCapacity)
  | some .swdSequence =>
    keeping processor (processSwdSequence processor request responseCapacity)
  | some .otaQuery | some .otaBegin | some .otaWrite | some .otaCommit | some .otaAbort
  | some .otaReboot =>
    keeping processor (processVendorCommand processor request responseCapacity)
  | none => pure (invalidResponse responseCapacity, processor)

/-- `airdap_dap_process_packet`. -/
def processPacket : DapCode (List Byte × Processor) :=
  if request.length = 0 ∨ responseCapacity = 0 then pure ([], processor)
  else processCommand processor request (min responseCapacity dapPacketSize)
    (DapCommand.ofByte (byteAt request 0))

end Packet

end AirDap

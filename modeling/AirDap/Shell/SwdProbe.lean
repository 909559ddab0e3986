import AirDap.Mode.Calls

/-! The `swd-idcode` command of the debug shell: it takes the pins as the diagnostic owner,
reads the IDCODE register of the target and gives the pins back. -/
namespace AirDap
open Concurrency

/-- The callbacks of the probe. -/
inductive ProbeIo where
  | cancelled
  | setClock (clockHz : Word)
  | writeSequence (data : List (BitVec 8)) (bitCount : ℕ)
  | readSequence (bitCount : ℕ)

/-- A callback answers with an error number, and a read with the bytes it left. -/
@[reducible] def ProbeIo.Answer : ProbeIo → Type
  | .cancelled => Bool
  | .setClock _ | .writeSequence _ _ => ℤ
  | .readSequence _ => ℤ × Vector (BitVec 8) 5

/-- Callbacks that are never cancelled, succeed and read zeros. -/
def ProbeIo.idleReply : (i : ProbeIo) → i.Answer
  | .cancelled => false
  | .setClock _ | .writeSequence _ _ => 0
  | .readSequence _ => (0, .replicate 5 0)

/-- `airdap_debug_shell_swd_probe_status_t`. -/
inductive ProbeStatus where
  | ok | usage | clockOutOfRange | invalidBackend | busy | ownershipFailed | cancelled
  | setClockFailed | connectFailed | responseInvalid | parityError | releaseFailed
  deriving DecidableEq, Repr

/-- Which callbacks of `airdap_debug_shell_swd_backend_t` are there. -/
structure ProbeBackend where
  setClock : Bool
  writeSequence : Bool
  readSequence : Bool
  cancelled : Bool

/-- `airdap_debug_shell_swd_probe_result_t`. -/
structure ProbeResult where
  clockKhz : Word
  idcode : Word
  responseBits : BitVec 64
  ack : BitVec 8
  receivedParity : BitVec 8
  expectedParity : BitVec 8
  operationError : ℤ
  releaseError : ℤ
  deriving DecidableEq, Repr

def ProbeResult.zero : ProbeResult := ⟨0, 0, 0, 0, 0, 0, 0, 0⟩

/-- The number of a result of the arbiter. -/
def OwnershipResult.code : OwnershipResult → ℤ
  | .ok => 0
  | .alreadyOwner => 1
  | .busy => 2
  | .notOwner => 3
  | .offline => 4
  | .invalidArgument => 5
  | .invalidState => 6

def swdDefaultClockKhz : Word := 100
def swdMinClockKhz : Word := 100
def swdMaxClockKhz : Word := 10000

/-- The digits at the head of an argument, with the flag that the value overflowed. -/
def scanDigits : List Char → Word → Bool → Word × Bool × List Char
  | [], value, overflow => (value, overflow, [])
  | c :: rest, value, overflow =>
    if '0' ≤ c ∧ c ≤ '9' then
      let digit : Word := BitVec.ofNat 32 (c.toNat - '0'.toNat)
      if value > (BitVec.allOnes 32 - digit) / 10 then scanDigits rest value true
      else if !overflow then scanDigits rest (value * 10 + digit) overflow
      else scanDigits rest value overflow
    else (value, overflow, c :: rest)

/-- A C string is the list of its characters before the terminating zero. -/
def parseClockKhz (arguments : List Char) : Except ProbeStatus Word :=
  match arguments.dropWhile (· = ' ') with
  | [] => .ok swdDefaultClockKhz
  | arguments =>
    let (value, overflow, cursor) := scanDigits arguments 0 false
    if cursor.length = arguments.length then .error .usage
    else if cursor.dropWhile (· = ' ') ≠ [] then .error .usage
    else if overflow ∨ value < swdMinClockKhz ∨ value > swdMaxClockKhz then
      .error .clockOutOfRange
    else .ok value

/-- The parity of the low `n` bits. -/
def parityBits (value : Word) : ℕ → BitVec 8
  | 0 => 0
  | n + 1 => parityBits value n ^^^ (if value.getLsbD n then 1 else 0)

def parity32 (value : Word) : BitVec 8 := parityBits value 32

def idcodeConnectRequest : List (BitVec 8) :=
  [0xFF, 0xFF, 0xFF, 0xFF, 0xFF, 0xFF, 0xFF, 0xFF, 0x9E, 0xE7,
    0xFF, 0xFF, 0xFF, 0xFF, 0xFF, 0xFF, 0xFF, 0x00, 0xA5]

def probeCancelled (backend : ProbeBackend) : Code ProbeIo.Answer Bool :=
  if backend.cancelled then io ProbeIo.cancelled else pure false

def releaseDiagnosticOwner (status : ProbeStatus) (claim : Option Claim)
    (operation : Option Operation) (result : ProbeResult) :
    Code ProbeIo.Answer (ProbeStatus × ProbeResult) := do
  let _ ← ownershipOperationEnd operation
  let released ← ownershipRelease claim
  let result := { result with releaseError := released.code }
  pure (if status = .ok ∧ result.releaseError ≠ OwnershipResult.ok.code then .releaseFailed
    else status, result)

/-- The bytes of the response as one number, the first byte lowest. -/
def responseBits (response : Vector (BitVec 8) 5) : BitVec 64 :=
  response.toList.zipIdx.foldl
    (fun bits (byte, index) => bits ||| (byte.setWidth 64 <<< (index * 8))) 0

/-- The response decoded into the result. -/
def decodeResponse (response : Vector (BitVec 8) 5) (result : ProbeResult) : ProbeResult :=
  let bits := result.responseBits ||| responseBits response
  let idcode := (bits >>> 3).setWidth 32
  { result with
    responseBits := bits
    ack := (bits &&& 0x7).setWidth 8
    idcode
    receivedParity := ((bits >>> 35) &&& 1).setWidth 8
    expectedParity := parity32 idcode }

def responseStatus (result : ProbeResult) : ProbeStatus :=
  if result.ack ≠ 1 then .responseInvalid
  else if result.receivedParity ≠ result.expectedParity then .parityError
  else .ok

/-- The exchange with the target, with the pins reserved: how it ended and what it found. -/
def probeExchange (backend : ProbeBackend) (result : ProbeResult) :
    Code ProbeIo.Answer (ProbeStatus × ProbeResult) := do
  if ← probeCancelled backend then pure (.cancelled, result)
  else do
    let error ← io (ProbeIo.setClock (result.clockKhz * 1000))
    let result := { result with operationError := error }
    if result.operationError ≠ 0 then pure (.setClockFailed, result)
    else do
      if ← probeCancelled backend then pure (.cancelled, result)
      else do
        let error ← io (ProbeIo.writeSequence idcodeConnectRequest
          (idcodeConnectRequest.length * 8))
        let result := { result with operationError := error }
        if result.operationError ≠ 0 then pure (.connectFailed, result)
        else do
          if ← probeCancelled backend then pure (.cancelled, result)
          else do
            let (error, response) ← io (ProbeIo.readSequence 37)
            let result := { result with operationError := error }
            if result.operationError ≠ 0 then pure (.connectFailed, result)
            else do
              if ← probeCancelled backend then pure (.cancelled, result)
              else
                let result := decodeResponse response result
                pure (responseStatus result, result)

/-- The probe from its acquire on. -/
def probeTarget (backend : ProbeBackend) (result : ProbeResult) :
    Code ProbeIo.Answer (ProbeStatus × ProbeResult) := do
  let (acquired, claim) ← modeDapAcquire ownerDiagnostic true (some .zero)
  if acquired = .busy then pure (.busy, result)
  else if acquired ≠ .allowed then
    pure (.ownershipFailed, { result with operationError := OwnershipResult.offline.code })
  else do
    let (begun, operation) ← dapOperationBegin ownerDiagnostic true claim (some .zero)
    if begun ≠ .allowed then do
      let result := { result with operationError :=
        if begun = ModeDapResult.busy then OwnershipResult.busy.code
          else OwnershipResult.offline.code }
      let released ← ownershipRelease claim
      pure (if begun = ModeDapResult.busy then ProbeStatus.busy else .ownershipFailed,
        { result with releaseError := released.code })
    else do
      let (status, result) ← probeExchange backend result
      releaseDiagnosticOwner status claim operation result

/-- `airdap_debug_shell_swd_probe`. -/
def swdProbe (arguments : Option (List Char)) (backend : Option ProbeBackend)
    (result : Option ProbeResult) : Code ProbeIo.Answer (ProbeStatus × Option ProbeResult) :=
  match result, arguments, backend with
  | none, _, _ => pure (.invalidBackend, none)
  | some _, some arguments, some backend =>
    if !backend.setClock || !backend.writeSequence || !backend.readSequence then
      pure (.invalidBackend, some .zero)
    else
      match parseClockKhz arguments with
      | .error status => pure (status, some .zero)
      | .ok clockKhz => do
        let (status, result) ← probeTarget backend { ProbeResult.zero with clockKhz }
        pure (status, some result)
  | some _, _, _ => pure (.invalidBackend, some .zero)

end AirDap

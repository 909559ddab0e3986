import AirDap.Dap.Protocol
import AirDap.Wire.BigEndian

/-! The frames of the network protocol: a header of twenty bytes in network byte order and a
payload whose length the header tells. -/
namespace AirDap

/-- `airdap_frame_message_type_t`. -/
inductive FrameType where
  | hello | auth | dapRequest | dapResponse | controlRequest | controlResponse | keepalive | error
  deriving DecidableEq, Repr

def FrameType.code : FrameType → Byte
  | .hello => 1
  | .auth => 2
  | .dapRequest => 3
  | .dapResponse => 4
  | .controlRequest => 5
  | .controlResponse => 6
  | .keepalive => 7
  | .error => 8

/-- `airdap_frame_error_code_t`. -/
inductive FrameError where
  | none | truncated | payloadTooLarge | unsupportedVersion | unsupportedType | invalidMagic
  | invalidFlags | invalidReserved | sessionMismatch | sequenceDuplicate | sequenceStale
  | sequenceOutOfOrder | responseMismatch | busy | unauthenticated | timeout | invalidArgument
  | internal
  deriving DecidableEq, Repr

/-- The value that an ERROR payload carries. -/
def FrameError.code : FrameError → BitVec 16
  | .none => 0x0000
  | .truncated => 0x0001
  | .payloadTooLarge => 0x0002
  | .unsupportedVersion => 0x0003
  | .unsupportedType => 0x0004
  | .invalidMagic => 0x0005
  | .invalidFlags => 0x0006
  | .invalidReserved => 0x0007
  | .sessionMismatch => 0x0010
  | .sequenceDuplicate => 0x0011
  | .sequenceStale => 0x0012
  | .sequenceOutOfOrder => 0x0013
  | .responseMismatch => 0x0014
  | .busy => 0x0020
  | .unauthenticated => 0x0021
  | .timeout => 0x0022
  | .invalidArgument => 0x0023
  | .internal => 0x00FF

def frameMagic : Word := 0x41444150
def frameHeaderSize : ℕ := 20
def frameProtocolVersion : Byte := 1
def frameMaxPayloadSize : ℕ := 4096
def frameDapRequestMaxPayloadSize : ℕ := 508

/-- `airdap_frame_header_t`. -/
structure FrameHeader where
  magic : Word
  version : Byte
  type : Byte
  flags : BitVec 16
  sessionId : Word
  sequence : Word
  payloadLength : BitVec 16
  reserved : BitVec 16
  deriving DecidableEq, Repr

def readU16Be (data : List Byte) (offset : ℕ) : BitVec 16 :=
  Wire.halfOf (byteAt data offset) (byteAt data (offset + 1))

def readU32Be (data : List Byte) (offset : ℕ) : Word :=
  Wire.wordOf (byteAt data offset) (byteAt data (offset + 1)) (byteAt data (offset + 2))
    (byteAt data (offset + 3))

def validMessageType (type : Byte) : Bool :=
  FrameType.hello.code ≤ type && type ≤ FrameType.error.code

def validateHeader (header : FrameHeader) : FrameError :=
  if header.magic ≠ frameMagic then .invalidMagic
  else if header.version ≠ frameProtocolVersion then .unsupportedVersion
  else if !validMessageType header.type then .unsupportedType
  else if header.flags ≠ 0 then .invalidFlags
  else if header.reserved ≠ 0 then .invalidReserved
  else if header.sessionId = 0 then .sessionMismatch
  else if header.sequence = 0 then .sequenceOutOfOrder
  else if header.payloadLength.toNat > frameMaxPayloadSize then .payloadTooLarge
  else if header.type = FrameType.dapRequest.code ∧
      header.payloadLength.toNat > frameDapRequestMaxPayloadSize then .payloadTooLarge
  else .none

/-- What `airdap_frame_decode` returns and leaves behind its pointers. A header, a payload and
a size are only left with OK. -/
inductive FrameDecoding where
  | ok (header : FrameHeader) (payload : List Byte) (frameSize : ℕ)
  | needMoreData (error : FrameError)
  | invalidFrame (error : FrameError)
  deriving DecidableEq, Repr

/-- The header in the first bytes of a frame. -/
def readHeader (input : List Byte) : FrameHeader where
  magic := readU32Be input 0
  version := byteAt input 4
  type := byteAt input 5
  flags := readU16Be input 6
  sessionId := readU32Be input 8
  sequence := readU32Be input 12
  payloadLength := readU16Be input 16
  reserved := readU16Be input 18

/-- `header->payload_length` and the header itself. -/
def FrameHeader.frameSize (header : FrameHeader) : ℕ :=
  frameHeaderSize + header.payloadLength.toNat

/-- `airdap_frame_decode` of the bytes at `input`, with a place for each of its results. -/
def frameDecode (input : List Byte) : FrameDecoding :=
  if input.length < frameHeaderSize then .needMoreData .truncated
  else
    let candidate := readHeader input
    let error := validateHeader candidate
    if error ≠ .none then .invalidFrame error
    else if input.length < candidate.frameSize then .needMoreData .truncated
    else .ok candidate ((input.drop frameHeaderSize).take candidate.payloadLength.toNat)
      candidate.frameSize

/-- What `airdap_frame_encode` returns, the size it leaves and the bytes it writes. -/
structure FrameEncoding where
  error : FrameError
  encodedSize : ℕ
  output : List Byte
  deriving DecidableEq, Repr

def writeHeader (header : FrameHeader) : List Byte :=
  Wire.wordBytes header.magic ++ [header.version, header.type] ++ Wire.halfBytes header.flags ++
    Wire.wordBytes header.sessionId ++ Wire.wordBytes header.sequence ++
    Wire.halfBytes header.payloadLength ++ Wire.halfBytes header.reserved

/-- `airdap_frame_encode` with a place for the size. The payload is `none` for the null pointer
and otherwise the bytes that can be read there; `output` tells whether there is a buffer. -/
def frameEncode (header : FrameHeader) (payload : Option (List Byte)) (output : Bool)
    (outputCapacity : ℕ) : FrameEncoding :=
  let error := validateHeader header
  if error ≠ .none then ⟨error, 0, []⟩
  else if header.payloadLength.toNat > 0 ∧ payload = none then ⟨.internal, 0, []⟩
  else if outputCapacity < header.frameSize then ⟨.truncated, header.frameSize, []⟩
  else if !output then ⟨.internal, header.frameSize, []⟩
  else ⟨.none, header.frameSize,
    writeHeader header ++ (payload.getD []).take header.payloadLength.toNat⟩

/-- The type that answers a request, and zero for a type that is not one. -/
def expectedResponseType (requestType : Byte) : Byte :=
  if requestType = FrameType.hello.code ∨ requestType = FrameType.auth.code ∨
      requestType = FrameType.keepalive.code then requestType
  else if requestType = FrameType.dapRequest.code then FrameType.dapResponse.code
  else if requestType = FrameType.controlRequest.code then FrameType.controlResponse.code
  else 0

/-- `airdap_frame_validate_response`. -/
def validateResponse (request response : FrameHeader) : FrameError :=
  let requestError := validateHeader request
  let responseError := validateHeader response
  let expectedType := expectedResponseType request.type
  if requestError ≠ .none then requestError
  else if responseError ≠ .none then responseError
  else if expectedType = 0 then .responseMismatch
  else if response.sessionId ≠ request.sessionId then .sessionMismatch
  else if response.sequence ≠ request.sequence ∨
      (response.type ≠ expectedType ∧ response.type ≠ FrameType.error.code) then .responseMismatch
  else .none

section Header

variable {input : List Byte}

@[simp] theorem length_writeHeader (header : FrameHeader) :
    (writeHeader header).length = frameHeaderSize := rfl

theorem readHeader_writeHeader (header : FrameHeader) (rest : List Byte) :
    readHeader (writeHeader header ++ rest) = header := by
  simp [readHeader, readU32Be, readU16Be, byteAt, writeHeader, Wire.wordBytes, Wire.halfBytes]

theorem take_eq_map_byteAt {n : ℕ} (h : n ≤ input.length) :
    input.take n = (List.range n).map (byteAt input) := by
  apply List.ext_getElem
  · simp [h]
  · intro i hi _
    rw [List.length_take] at hi
    simp [byteAt, show i < input.length by omega]

theorem readHeader_append (h : frameHeaderSize ≤ input.length) (more : List Byte) :
    readHeader (input ++ more) = readHeader input := by
  have hbyte (i : ℕ) (hi : i < 20) : byteAt (input ++ more) i = byteAt input i := by
    simp only [frameHeaderSize] at h
    simp only [byteAt, List.getD_eq_getElem?_getD]
    rw [List.getElem?_append_left (by omega)]
  simp [readHeader, readU32Be, readU16Be, hbyte]

theorem writeHeader_readHeader (h : frameHeaderSize ≤ input.length) :
    writeHeader (readHeader input) = input.take frameHeaderSize := by
  rw [take_eq_map_byteAt h]
  simp [writeHeader, readHeader, readU32Be, readU16Be, frameHeaderSize, List.range_succ]

end Header

section Decode

variable {input : List Byte} {header : FrameHeader} {payload : List Byte} {n : ℕ}

theorem frameDecode_ok_iff : frameDecode input = .ok header payload n ↔
    header.frameSize ≤ input.length ∧ frameHeaderSize ≤ input.length ∧
      readHeader input = header ∧ validateHeader header = .none ∧
      payload = (input.drop frameHeaderSize).take header.payloadLength.toNat ∧
      n = header.frameSize := by
  simp only [frameDecode]
  constructor
  · intro h
    split_ifs at h with hshort herror hsize
    injection h with hheader hpayload hn
    subst hheader
    exact ⟨Nat.not_lt.mp hsize, Nat.not_lt.mp hshort, rfl, not_not.mp herror, hpayload.symm,
      hn.symm⟩
  · rintro ⟨hsize, hlen, rfl, hvalid, rfl, rfl⟩
    simp [hvalid, Nat.not_lt.mpr hlen, Nat.not_lt.mpr hsize]

theorem frameDecode_invalid_iff {e : FrameError} : frameDecode input = .invalidFrame e ↔
    frameHeaderSize ≤ input.length ∧ validateHeader (readHeader input) = e ∧ e ≠ .none := by
  simp only [frameDecode]
  constructor
  · intro h
    split_ifs at h with hshort herror
    injection h with he
    exact ⟨Nat.not_lt.mp hshort, he, he ▸ herror⟩
  · rintro ⟨hlen, rfl, hvalid⟩
    simp [hvalid, Nat.not_lt.mpr hlen]

theorem frameDecode_needMoreData_iff {e : FrameError} : frameDecode input = .needMoreData e ↔
    e = .truncated ∧ (input.length < frameHeaderSize ∨
      validateHeader (readHeader input) = .none ∧
        input.length < (readHeader input).frameSize) := by
  simp only [frameDecode]
  constructor
  · intro h
    split_ifs at h with hshort herror hsize
    · injection h with he
      exact ⟨he.symm, .inl hshort⟩
    · injection h with he
      exact ⟨he.symm, .inr ⟨not_not.mp herror, hsize⟩⟩
  · rintro ⟨rfl, hshort | ⟨hvalid, hsize⟩⟩
    · simp [hshort]
    · simp [hvalid, hsize]

theorem frameDecode_append (h : ∀ e, frameDecode input ≠ .needMoreData e) (more : List Byte) :
    frameDecode (input ++ more) = frameDecode input := by
  cases hinput : frameDecode input with
  | needMoreData e => exact absurd hinput (h e)
  | invalidFrame e =>
    rw [frameDecode_invalid_iff] at hinput ⊢
    obtain ⟨hlen, hvalid, he⟩ := hinput
    rw [readHeader_append hlen, List.length_append]
    exact ⟨by omega, hvalid, he⟩
  | ok header payload n =>
    rw [frameDecode_ok_iff] at hinput ⊢
    obtain ⟨hsize, hlen, hheader, hvalid, hpayload, hn⟩ := hinput
    rw [readHeader_append hlen, List.length_append]
    refine ⟨by omega, by omega, hheader, hvalid, ?_, hn⟩
    have hdrop : header.payloadLength.toNat ≤ (input.drop frameHeaderSize).length := by
      rw [List.length_drop]
      unfold FrameHeader.frameSize at hsize
      omega
    rw [hpayload, List.drop_append_of_le_length hlen, List.take_append_of_le_length hdrop]

theorem frameDecode_complete {e : FrameError} (hlen : frameHeaderSize ≤ input.length)
    (h : frameDecode input = .needMoreData e) (more : List Byte) :
    ((readHeader input).frameSize ≤ (input ++ more).length →
      frameDecode (input ++ more) = .ok (readHeader input)
        (((input ++ more).drop frameHeaderSize).take (readHeader input).payloadLength.toNat)
        (readHeader input).frameSize) ∧
    ((input ++ more).length < (readHeader input).frameSize →
      frameDecode (input ++ more) = .needMoreData e) := by
  rw [frameDecode_needMoreData_iff] at h
  obtain ⟨rfl, hshort | ⟨hvalid, -⟩⟩ := h
  · omega
  · have hheader := readHeader_append hlen more
    have hlong : frameHeaderSize ≤ (input ++ more).length := by
      rw [List.length_append]
      omega
    constructor
    · intro hsize
      rw [frameDecode_ok_iff]
      exact ⟨hsize, hlong, hheader, hvalid, rfl, rfl⟩
    · intro hsize
      rw [frameDecode_needMoreData_iff, hheader]
      exact ⟨rfl, .inr ⟨hvalid, hsize⟩⟩

end Decode

section Encode

variable {header : FrameHeader} {payload : Option (List Byte)} {output : Bool} {capacity : ℕ}

theorem frameEncode_ok_iff : (frameEncode header payload output capacity).error = .none ↔
    validateHeader header = .none ∧ (header.payloadLength.toNat > 0 → payload ≠ none) ∧
      header.frameSize ≤ capacity ∧ output = true := by
  simp only [frameEncode]
  split_ifs with herror hnull hroom houtput <;> simp_all

theorem frameEncode_eq (h : (frameEncode header payload output capacity).error = .none) :
    frameEncode header payload output capacity = ⟨.none, header.frameSize,
      writeHeader header ++ (payload.getD []).take header.payloadLength.toNat⟩ := by
  obtain ⟨hvalid, hnull, hroom, rfl⟩ := frameEncode_ok_iff.mp h
  have hpayload : ¬ (header.payloadLength.toNat > 0 ∧ payload = none) := fun h => hnull h.1 h.2
  simp [frameEncode, hvalid, hpayload, Nat.not_lt.mpr hroom]

/-- The pointer leads to at least as many bytes as the header tells. -/
def Readable (header : FrameHeader) (payload : Option (List Byte)) : Prop :=
  ∀ bytes ∈ payload, header.payloadLength.toNat ≤ bytes.length

theorem frameDecode_frameEncode (hread : Readable header payload)
    (h : (frameEncode header payload output capacity).error = .none) (suffix : List Byte) :
    frameDecode ((frameEncode header payload output capacity).output ++ suffix) =
      .ok header ((payload.getD []).take header.payloadLength.toNat)
        (frameEncode header payload output capacity).encodedSize := by
  obtain ⟨hvalid, hnull, -⟩ := frameEncode_ok_iff.mp h
  have hlength : ((payload.getD []).take header.payloadLength.toNat).length =
      header.payloadLength.toNat := by
    cases payload with
    | none =>
      have hempty : ¬ header.payloadLength.toNat > 0 := fun hpos => hnull hpos rfl
      simp
      omega
    | some bytes => simpa using hread bytes rfl
  rw [frameEncode_eq h, frameDecode_ok_iff]
  simp only [List.append_assoc]
  refine ⟨?_, ?_, readHeader_writeHeader _ _, hvalid, ?_, trivial⟩
  · simp only [List.length_append, length_writeHeader, hlength]
    unfold FrameHeader.frameSize
    omega
  · simp only [List.length_append, length_writeHeader]
    omega
  · rw [List.drop_append_of_le_length (by simp), List.drop_of_length_le (by simp),
      List.nil_append, List.take_append_of_le_length hlength.ge, List.take_take, min_self]

theorem frameEncode_frameDecode {input bytes : List Byte} {n : ℕ}
    (h : frameDecode input = .ok header bytes n) (hroom : n ≤ capacity) :
    frameEncode header (some bytes) true capacity = ⟨.none, n, input.take n⟩ := by
  obtain ⟨hsize, hlen, rfl, hvalid, rfl, rfl⟩ := frameDecode_ok_iff.mp h
  have haccepted : (frameEncode (readHeader input)
      (some ((input.drop frameHeaderSize).take (readHeader input).payloadLength.toNat)) true
      capacity).error = .none :=
    frameEncode_ok_iff.mpr ⟨hvalid, fun _ => by simp, hroom, rfl⟩
  rw [frameEncode_eq haccepted, writeHeader_readHeader hlen]
  simp only [Option.getD_some, List.take_take, min_self, FrameHeader.frameSize]
  rw [List.take_add]

end Encode

/-- The frame codec. Decoding what was encoded gives back the header, the payload and the size,
whatever follows; encoding what was decoded gives back the bytes; a result other than
NEED_MORE_DATA does not change with further bytes; and after a whole header exactly the missing
bytes of the payload, whatever they are, complete the frame. -/
theorem frame_codec :
    (∀ header payload output capacity suffix, Readable header payload →
      (frameEncode header payload output capacity).error = .none →
        frameDecode ((frameEncode header payload output capacity).output ++ suffix) =
          .ok header ((payload.getD []).take header.payloadLength.toNat)
            (frameEncode header payload output capacity).encodedSize) ∧
    (∀ input header payload n capacity, frameDecode input = .ok header payload n → n ≤ capacity →
      frameEncode header (some payload) true capacity = ⟨.none, n, input.take n⟩) ∧
    (∀ input more, (∀ e, frameDecode input ≠ .needMoreData e) →
      frameDecode (input ++ more) = frameDecode input) ∧
    (∀ input e, frameHeaderSize ≤ input.length → frameDecode input = .needMoreData e →
      ∃ missing header, 0 < missing ∧ ∀ more : List Byte,
        (more.length < missing → frameDecode (input ++ more) = .needMoreData e) ∧
        (missing ≤ more.length → frameDecode (input ++ more) = .ok header
          ((input ++ more.take missing).drop frameHeaderSize) (input.length + missing))) := by
  refine ⟨fun _ _ _ _ suffix hread h => frameDecode_frameEncode hread h suffix,
    fun _ _ _ _ _ h hroom => frameEncode_frameDecode h hroom,
    fun _ more h => frameDecode_append h more, ?_⟩
  intro input e hlen h
  have hmissing : input.length < (readHeader input).frameSize := by
    obtain ⟨-, hshort | ⟨-, hsize⟩⟩ := frameDecode_needMoreData_iff.mp h
    · omega
    · exact hsize
  refine ⟨(readHeader input).frameSize - input.length, readHeader input, by omega, fun more => ?_⟩
  obtain ⟨hwhole, hpart⟩ := frameDecode_complete hlen h more
  rw [List.length_append] at hwhole hpart
  constructor
  · intro hfew
    exact hpart (by omega)
  · intro hmany
    rw [hwhole (by omega)]
    have hcut : ((input ++ more).drop frameHeaderSize).take
        (readHeader input).payloadLength.toNat =
        (input ++ more.take ((readHeader input).frameSize - input.length)).drop
          frameHeaderSize := by
      unfold FrameHeader.frameSize at hmissing ⊢
      rw [List.take_drop, List.take_append, List.take_of_length_le (by omega)]
    rw [hcut]
    congr 1
    omega

end AirDap

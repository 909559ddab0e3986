import AirDap.Frame.Sequence

/-! The frames as the host tools write and read them, and that the device reads and writes them
in the same way. -/
namespace AirDap

section Ensure

variable {ε α β : Type}

/-- `ensure!`. -/
def ensure (p : Prop) [Decidable p] (error : ε) : Except ε Unit :=
  if p then .ok () else .error error

theorem ensure_ok_iff {p : Prop} [Decidable p] {error : ε} {u : Unit} :
    ensure p error = .ok u ↔ p := by
  unfold ensure
  split_ifs with h <;> simp [h]

theorem bind_ok_iff {x : Except ε α} {f : α → Except ε β} {v : β} :
    (x >>= f) = .ok v ↔ ∃ u, x = .ok u ∧ f u = .ok v := by
  cases x <;> simp [bind, Except.bind]

theorem pure_ok_iff {v w : α} : (pure v : Except ε α) = .ok w ↔ w = v := by
  simp [pure, Except.pure, eq_comm]

end Ensure

/-- The reasons for which the host refuses a frame. -/
inductive HostFrameError where
  | invalidFields | truncated | invalidHeader | invalidReserved | mismatch | exceedsLimit
  | lengthMismatch | invalidErrorFrame | error (code : BitVec 16) | unexpectedType
  deriving DecidableEq, Repr

/-- `MAX_PAYLOAD`. -/
def hostMaxPayload : ℕ := 4096

/-- The bytes `ADAP`. -/
def hostMagic : List Byte := [0x41, 0x44, 0x41, 0x50]

/-- `encode_frame`. -/
def encodeFrame (kind : Byte) (session sequence : Word) (payload : List Byte) :
    Except HostFrameError (List Byte) := do
  ensure (session ≠ 0 ∧ sequence ≠ 0 ∧ payload.length ≤ hostMaxPayload) .invalidFields
  pure (hostMagic ++ [1, kind, 0, 0] ++ Wire.wordBytes session ++ Wire.wordBytes sequence ++
    Wire.halfBytes (BitVec.ofNat 16 payload.length) ++ [0, 0] ++ payload)

/-- The bytes from `first` up to `last`. -/
def byteRange (data : List Byte) (first last : ℕ) : List Byte :=
  (data.drop first).take (last - first)

/-- `check_header`: the size of the payload that the header tells. -/
def checkHeader (header : List Byte) (session sequence : Word) : Except HostFrameError ℕ := do
  ensure (header.length = 20 ∧ byteRange header 0 4 = hostMagic ∧ byteAt header 4 = 1)
    .invalidHeader
  ensure (byteRange header 6 8 = [0, 0] ∧ byteRange header 18 20 = [0, 0]) .invalidReserved
  ensure (byteRange header 8 12 = Wire.wordBytes session ∧
    byteRange header 12 16 = Wire.wordBytes sequence) .mismatch
  let size := (readU16Be header 16).toNat
  ensure (size ≤ hostMaxPayload) .exceedsLimit
  pure size

/-- The end of `decode_response`, for a frame of the right length. -/
def responsePayload (frame : List Byte) (expected : Byte) (size : ℕ) :
    Except HostFrameError (List Byte) :=
  if byteAt frame 5 = 8 then do
    ensure (size = 2) .invalidErrorFrame
    .error (.error (readU16Be frame 20))
  else do
    ensure (byteAt frame 5 = expected) .unexpectedType
    pure (frame.drop 20)

/-- `decode_response`. -/
def hostDecodeResponse (frame : List Byte) (expected : Byte) (session sequence : Word) :
    Except HostFrameError (List Byte) := do
  ensure (frame.length ≥ 20) .truncated
  let size ← checkHeader (frame.take 20) session sequence
  ensure (frame.length = 20 + size) .lengthMismatch
  responsePayload frame expected size

/-- The header of the frame that `encode_frame` writes. -/
def hostHeader (kind : Byte) (session sequence : Word) (payloadLength : ℕ) : FrameHeader where
  magic := frameMagic
  version := frameProtocolVersion
  type := kind
  flags := 0
  sessionId := session
  sequence := sequence
  payloadLength := BitVec.ofNat 16 payloadLength
  reserved := 0

section Requests

variable {kind : Byte} {session sequence : Word} {payload bytes : List Byte}

theorem encodeFrame_ok_iff : encodeFrame kind session sequence payload = .ok bytes ↔
    session ≠ 0 ∧ sequence ≠ 0 ∧ payload.length ≤ hostMaxPayload ∧
      bytes = writeHeader (hostHeader kind session sequence payload.length) ++ payload := by
  have hmagic : Wire.wordBytes frameMagic = hostMagic := by decide
  have hzero : Wire.halfBytes 0 = [0, 0] := by decide
  have hbytes : hostMagic ++ [1, kind, 0, 0] ++ Wire.wordBytes session ++
      Wire.wordBytes sequence ++ Wire.halfBytes (BitVec.ofNat 16 payload.length) ++ [0, 0] ++
        payload = writeHeader (hostHeader kind session sequence payload.length) ++ payload := by
    simp only [writeHeader, hostHeader, hmagic, hzero, frameProtocolVersion, List.append_assoc]
    rfl
  unfold encodeFrame
  rw [hbytes]
  simp only [bind_ok_iff, ensure_ok_iff, pure_ok_iff, exists_const, and_assoc]

theorem validateHeader_none_iff {header : FrameHeader} : validateHeader header = .none ↔
    header.magic = frameMagic ∧ header.version = frameProtocolVersion ∧
      validMessageType header.type = true ∧ header.flags = 0 ∧ header.reserved = 0 ∧
      header.sessionId ≠ 0 ∧ header.sequence ≠ 0 ∧
      header.payloadLength.toNat ≤ frameMaxPayloadSize ∧
      (header.type = FrameType.dapRequest.code →
        header.payloadLength.toNat ≤ frameDapRequestMaxPayloadSize) := by
  unfold validateHeader
  split_ifs <;> simp_all

theorem toNat_payloadLength (h : payload.length ≤ hostMaxPayload) :
    (BitVec.ofNat 16 payload.length).toNat = payload.length := by
  unfold hostMaxPayload at h
  rw [BitVec.toNat_ofNat]
  omega

theorem hostHeader_valid (hkind : requestMessageType kind = true)
    (hdap : kind = FrameType.dapRequest.code → payload.length ≤ frameDapRequestMaxPayloadSize)
    (h : encodeFrame kind session sequence payload = .ok bytes) :
    validateHeader (hostHeader kind session sequence payload.length) = .none := by
  obtain ⟨hsession, hsequence, hlength, -⟩ := encodeFrame_ok_iff.mp h
  rw [validateHeader_none_iff]
  simp only [hostHeader, toNat_payloadLength hlength]
  refine ⟨trivial, trivial, ?_, trivial, trivial, hsession, hsequence, hlength, hdap⟩
  simp only [requestMessageType, Bool.or_eq_true, decide_eq_true_eq] at hkind
  rcases hkind with (((rfl | rfl) | rfl) | rfl) | rfl <;> decide

theorem frameDecode_encodeFrame (hkind : requestMessageType kind = true)
    (hdap : kind = FrameType.dapRequest.code → payload.length ≤ frameDapRequestMaxPayloadSize)
    (h : encodeFrame kind session sequence payload = .ok bytes) :
    frameDecode bytes = .ok (hostHeader kind session sequence payload.length) payload
      bytes.length := by
  have hvalid := hostHeader_valid hkind hdap h
  obtain ⟨-, -, hlength, rfl⟩ := encodeFrame_ok_iff.mp h
  have hsize : (hostHeader kind session sequence payload.length).frameSize =
      frameHeaderSize + payload.length := by
    simp [FrameHeader.frameSize, hostHeader, toNat_payloadLength hlength]
  rw [frameDecode_ok_iff]
  simp only [List.length_append, length_writeHeader, hsize]
  refine ⟨le_rfl, Nat.le_add_right _ _, readHeader_writeHeader _ _, hvalid, ?_, trivial⟩
  rw [List.drop_left' (by simp), List.take_of_length_le]
  simp [hostHeader, toNat_payloadLength hlength]

end Requests

section Responses

variable {session sequence : Word} {frame payload : List Byte} {expected : Byte} {size : ℕ}

/-- The host accepts the headers that the device's check of the fields accepts. -/
theorem checkHeader_ok_iff (header : FrameHeader) :
    checkHeader (writeHeader header) session sequence = .ok size ↔
      header.magic = frameMagic ∧ header.version = frameProtocolVersion ∧ header.flags = 0 ∧
        header.reserved = 0 ∧ header.sessionId = session ∧ header.sequence = sequence ∧
        header.payloadLength.toNat ≤ hostMaxPayload ∧ size = header.payloadLength.toNat := by
  have hmagic : hostMagic = Wire.wordBytes frameMagic := by decide
  have hzero : ([0, 0] : List Byte) = Wire.halfBytes 0 := by decide
  have hfirst : byteRange (writeHeader header) 0 4 = Wire.wordBytes header.magic := rfl
  have hflags : byteRange (writeHeader header) 6 8 = Wire.halfBytes header.flags := rfl
  have hsession : byteRange (writeHeader header) 8 12 = Wire.wordBytes header.sessionId := rfl
  have hsequence : byteRange (writeHeader header) 12 16 = Wire.wordBytes header.sequence := rfl
  have hreserved : byteRange (writeHeader header) 18 20 = Wire.halfBytes header.reserved := rfl
  have hversion : byteAt (writeHeader header) 4 = header.version := rfl
  have hlength : readU16Be (writeHeader header) 16 = header.payloadLength := by
    have h := congrArg FrameHeader.payloadLength (readHeader_writeHeader header [])
    rwa [List.append_nil] at h
  simp only [checkHeader, hfirst, hflags, hsession, hsequence, hreserved, hversion, hlength,
    hmagic, hzero, Wire.wordBytes_injective.eq_iff, Wire.halfBytes_injective.eq_iff,
    length_writeHeader, frameHeaderSize, frameProtocolVersion, bind_ok_iff, ensure_ok_iff,
    pure_ok_iff, exists_const, true_and]
  tauto

theorem hostDecodeResponse_ok_iff :
    hostDecodeResponse frame expected session sequence = .ok payload ↔
    20 ≤ frame.length ∧ ∃ size, checkHeader (frame.take 20) session sequence = .ok size ∧
      frame.length = 20 + size ∧ byteAt frame 5 ≠ 8 ∧ byteAt frame 5 = expected ∧
      payload = frame.drop 20 := by
  have hend (size : ℕ) : responsePayload frame expected size = .ok payload ↔
      byteAt frame 5 ≠ 8 ∧ byteAt frame 5 = expected ∧ payload = frame.drop 20 := by
    unfold responsePayload
    split_ifs with herror
    · simp [bind_ok_iff, herror]
    · simp only [bind_ok_iff, ensure_ok_iff, pure_ok_iff, exists_const, herror, ne_eq,
        not_false_eq_true, true_and]
  simp only [hostDecodeResponse, bind_ok_iff, ensure_ok_iff, exists_const, hend, ge_iff_le]

theorem validateResponse_none_iff {request response : FrameHeader}
    (hrequest : validateHeader request = .none) (htype : expectedResponseType request.type ≠ 0) :
    validateResponse request response = .none ↔ validateHeader response = .none ∧
      response.sessionId = request.sessionId ∧ response.sequence = request.sequence ∧
      (response.type = expectedResponseType request.type ∨
        response.type = FrameType.error.code) := by
  simp only [validateResponse, hrequest, ne_eq, not_true, if_false, htype]
  by_cases hvalid : validateHeader response = .none
  · by_cases hsession : response.sessionId = request.sessionId
    · by_cases hsequence : response.sequence = request.sequence
      · by_cases hanswer : response.type = expectedResponseType request.type ∨
          response.type = FrameType.error.code
        · have hno : ¬ (¬ response.type = expectedResponseType request.type ∧
              ¬ response.type = FrameType.error.code) := by tauto
          simp [hvalid, hsession, hsequence, hanswer, hno]
        · simp_all
      · simp [hvalid, hsession, hsequence]
    · simp [hvalid, hsession]
  · simp [hvalid]

/-- The answers to requests are valid types and not requests of the target. -/
theorem expectedResponseType_spec {kind : Byte} (hkind : requestMessageType kind = true) :
    expectedResponseType kind ≠ 0 ∧ validMessageType (expectedResponseType kind) = true ∧
      expectedResponseType kind ≠ FrameType.dapRequest.code ∧
      expectedResponseType kind ≠ FrameType.error.code := by
  simp only [requestMessageType, Bool.or_eq_true, decide_eq_true_eq] at hkind
  rcases hkind with (((rfl | rfl) | rfl) | rfl) | rfl <;> decide

end Responses

/-- The host and the device agree on frames. What the host writes for a request is decoded by
the device to the fields and the payload of the request; and the host takes a byte string for
the answer to a request, with a payload, exactly if it is one frame for the device, whose header
answers the request, is not ERROR and has that payload. -/
theorem host_device_frames {kind : Byte} {session sequence : Word} {payload bytes : List Byte}
    (hkind : requestMessageType kind = true)
    (hdap : kind = FrameType.dapRequest.code → payload.length ≤ frameDapRequestMaxPayloadSize)
    (hencode : encodeFrame kind session sequence payload = .ok bytes) :
    frameDecode bytes = .ok (hostHeader kind session sequence payload.length) payload
      bytes.length ∧
    ∀ frame answer,
      hostDecodeResponse frame (expectedResponseType kind) session sequence = .ok answer ↔
      ∃ header, frameDecode frame = .ok header answer frame.length ∧
        validateResponse (hostHeader kind session sequence payload.length) header = .none ∧
        header.type ≠ FrameType.error.code := by
  have hrequest := hostHeader_valid hkind hdap hencode
  obtain ⟨hsession, hsequence, -, -⟩ := encodeFrame_ok_iff.mp hencode
  obtain ⟨hnonzero, htype, hnotDap, hnotError⟩ := expectedResponseType_spec hkind
  refine ⟨frameDecode_encodeFrame hkind hdap hencode, fun frame answer => ?_⟩
  rw [hostDecodeResponse_ok_iff]
  constructor
  · rintro ⟨hlength, size, hcheck, hsize, hno, hexpected, rfl⟩
    rw [show frame.take 20 = writeHeader (readHeader frame) from
      (writeHeader_readHeader hlength).symm, checkHeader_ok_iff] at hcheck
    obtain ⟨hmagic, hversion, hflags, hreserved, hid, hnumber, hlimit, rfl⟩ := hcheck
    have hheaderType : (readHeader frame).type = expectedResponseType kind := hexpected
    have hvalid : validateHeader (readHeader frame) = .none := by
      rw [validateHeader_none_iff]
      refine ⟨hmagic, hversion, hheaderType ▸ htype, hflags, hreserved, hid ▸ hsession,
        hnumber ▸ hsequence, hlimit, fun hdap => ?_⟩
      rw [hheaderType] at hdap
      exact absurd hdap hnotDap
    refine ⟨readHeader frame, ?_, ?_, hheaderType ▸ hnotError⟩
    · rw [frameDecode_ok_iff]
      refine ⟨hsize.ge, hlength, rfl, hvalid, ?_, hsize⟩
      rw [List.take_of_length_le]
      · rfl
      · rw [List.length_drop, hsize]
        exact (Nat.add_sub_cancel_left ..).le
    · rw [validateResponse_none_iff hrequest hnonzero]
      exact ⟨hvalid, hid, hnumber, .inl hheaderType⟩
  · rintro ⟨header, hdecode, hresponse, hno⟩
    obtain ⟨-, hlength, rfl, hvalid, rfl, hsize⟩ := frameDecode_ok_iff.mp hdecode
    rw [validateResponse_none_iff hrequest hnonzero] at hresponse
    obtain ⟨-, hid, hnumber, hanswer⟩ := hresponse
    obtain ⟨hmagic, hversion, -, hflags, hreserved, -, -, hlimit, -⟩ :=
      validateHeader_none_iff.mp hvalid
    have hheaderType : (readHeader frame).type = expectedResponseType kind :=
      hanswer.resolve_right hno
    refine ⟨hlength, (readHeader frame).payloadLength.toNat, ?_, hsize, hno, hheaderType, ?_⟩
    · change checkHeader (frame.take frameHeaderSize) session sequence = _
      rw [← writeHeader_readHeader hlength, checkHeader_ok_iff]
      exact ⟨hmagic, hversion, hflags, hreserved, hid, hnumber, hlimit, rfl⟩
    · rw [List.take_of_length_le]
      · rfl
      · rw [List.length_drop, hsize]
        exact (Nat.add_sub_cancel_left ..).le

/-- A HELLO with a payload and its answer. -/
theorem hello_frames : ∃ bytes, encodeFrame FrameType.hello.code 7 1 [0x41, 0x2A] = .ok bytes ∧
    frameDecode bytes = .ok (hostHeader FrameType.hello.code 7 1 2) [0x41, 0x2A] bytes.length ∧
    hostDecodeResponse bytes FrameType.hello.code 7 1 = .ok [0x41, 0x2A] := by
  obtain ⟨bytes, hencode⟩ :
      ∃ bytes, encodeFrame FrameType.hello.code 7 1 [0x41, 0x2A] = .ok bytes := ⟨_, rfl⟩
  obtain ⟨hdecode, hresponse⟩ := host_device_frames (by decide) (by decide) hencode
  exact ⟨bytes, hencode, hdecode, (hresponse bytes _).mpr ⟨_, hdecode, by decide, by decide⟩⟩

end AirDap

import AirDap.Buffer.Ring
import AirDap.Network.Connection

/-! `read_frame` with the reads it is made of. TLS gives the bytes of the stream in pieces of any
size, and between them it may ask to wait for the socket. -/
namespace AirDap
namespace FrameReader

def int64Max : ℤ := 2 ^ 63 - 1
def intMax : ℤ := 2 ^ 31 - 1
def listenerPollMs : ℤ := 100

/-- `poll_timeout_ms`, with what `esp_timer_get_time` returns. -/
def pollTimeoutMs (deadlineUs now : ℤ) : ℤ :=
  if deadlineUs = int64Max then listenerPollMs
  else if deadlineUs - now ≤ 0 then 0
  else min ((deadlineUs - now + 999) / 1000) intMax

/-- `io_result_t`. -/
inductive IoResult where
  | ok | closed | timeout | failed
  deriving DecidableEq, Repr

/-- What `poll` returns: nothing in time, an error, or the events. `fault` stands for POLLERR,
POLLHUP and POLLNVAL. -/
inductive PollResult where
  | none | interrupted | failed | events (fault wanted : Bool)
  deriving DecidableEq, Repr

/-- A round of `wait_for_socket`. -/
structure PollRound where
  now : ℤ
  result : PollResult
  deriving DecidableEq, Repr

/-- `wait_for_socket`. It is `none` while it waits. -/
def waitForSocket (deadlineUs : ℤ) : List PollRound → Option IoResult
  | [] => none
  | round :: rounds =>
    if deadlineUs ≠ int64Max ∧ pollTimeoutMs deadlineUs round.now = 0 then some .timeout
    else match round.result with
    | .none => if deadlineUs = int64Max then waitForSocket deadlineUs rounds else some .timeout
    | .interrupted => waitForSocket deadlineUs rounds
    | .failed => some .failed
    | .events fault wanted =>
      if fault then some .closed
      else if wanted then some .ok
      else waitForSocket deadlineUs rounds

/-- What `airdap_network_auth_tls_read` returns: bytes, none of them for a stream that was closed,
WANT_READ or WANT_WRITE with the rounds of the wait that follows, or another error. Bytes that
were not asked for stay for the next read. -/
inductive TlsResult where
  | received (bytes : List Byte)
  | wantRead (rounds : List PollRound)
  | wantWrite (rounds : List PollRound)
  | failed
  deriving DecidableEq, Repr

/-- `FRAME_BUFFER_SIZE`. -/
def frameBufferSize : ℕ := frameHeaderSize + frameMaxPayloadSize

abbrev FrameBuffer := Vector Byte frameBufferSize

/-- `tls_read_exact` of the next `size` bytes to the cells from `offset` on. It is `none` while
more of the stream is needed. -/
def tlsReadExact (deadlineUs : ℤ) (buffer : FrameBuffer) (offset : ℕ) :
    ℕ → List TlsResult → Option (IoResult × FrameBuffer × List TlsResult)
  | 0, incoming => some (.ok, buffer, incoming)
  | _ + 1, [] => none
  | size + 1, .received bytes :: incoming =>
    if bytes = [] then some (.closed, buffer, incoming)
    else if size + 1 < bytes.length then
      some (.ok, Buffer.store buffer offset (bytes.take (size + 1)),
        .received (bytes.drop (size + 1)) :: incoming)
    else tlsReadExact deadlineUs (Buffer.store buffer offset bytes) (offset + bytes.length)
      (size + 1 - bytes.length) incoming
  | size + 1, .wantRead rounds :: incoming | size + 1, .wantWrite rounds :: incoming =>
    match waitForSocket deadlineUs rounds with
    | none => none
    | some .ok => tlsReadExact deadlineUs buffer offset (size + 1) incoming
    | some result => some (result, buffer, incoming)
  | _ + 1, .failed :: incoming => some (.failed, buffer, incoming)

/-- `frame_read_result_t` with the header and the payload that are left with it. -/
inductive FrameReadResult where
  | ok (header : FrameHeader) (payload : List Byte)
  | closed | timeout
  | dapPayloadTooLarge (header : FrameHeader)
  | invalid | failed
  deriving DecidableEq, Repr

/-- The result of `read_frame` after a read that was not OK. -/
def ofIoResult : IoResult → FrameReadResult
  | .closed => .closed
  | .timeout => .timeout
  | _ => .failed

/-- The two bytes of the payload length in the buffer. -/
def lengthHigh (buffer : FrameBuffer) : Byte := byteAt buffer.toList 16
def lengthLow (buffer : FrameBuffer) : Byte := byteAt buffer.toList 17

/-- What `read_frame` makes of a header that was decoded without its length. -/
def oversizedResult (length : BitVec 16) : FrameDecoding → FrameReadResult
  | .ok header _ _ =>
    if header.type = FrameType.dapRequest.code then
      .dapPayloadTooLarge { header with payloadLength := length }
    else .invalid
  | _ => .invalid

/-- The decoding without the length, for a header whose length is too large: the result, and the
buffer with the length put back. -/
def readOversized (buffer : FrameBuffer) : FrameReadResult × FrameBuffer :=
  (oversizedResult (Wire.halfOf (lengthHigh buffer) (lengthLow buffer))
      (frameDecode (Buffer.load (Buffer.store buffer 16 [0, 0]) 0 frameHeaderSize)),
    Buffer.store (Buffer.store buffer 16 [0, 0]) 16 [lengthHigh buffer, lengthLow buffer])

/-- What `read_frame` makes of the decoding of a whole frame. -/
def decodedResult : FrameDecoding → FrameReadResult
  | .ok header payload _ => .ok header payload
  | _ => .invalid

variable (deadlineUs : ℤ) (buffer : FrameBuffer)

/-- The payload of a frame whose header is in the buffer. -/
def readPayload (payloadSize : ℕ)
    (incoming : List TlsResult) : Option (FrameReadResult × FrameBuffer × List TlsResult) :=
  if payloadSize = 0 ∨ payloadSize > frameMaxPayloadSize then some (.invalid, buffer, incoming)
  else match tlsReadExact deadlineUs buffer frameHeaderSize payloadSize incoming with
    | none => none
    | some (.ok, buffer, incoming) =>
      some (decodedResult (frameDecode (Buffer.load buffer 0 (frameHeaderSize + payloadSize))),
        buffer, incoming)
    | some (result, buffer, incoming) => some (ofIoResult result, buffer, incoming)

/-- What `read_frame` does after its first decoding. -/
def afterHeader (incoming : List TlsResult) :
    FrameDecoding → Option (FrameReadResult × FrameBuffer × List TlsResult)
  | .invalidFrame error =>
    if error = .payloadTooLarge then
      some ((readOversized buffer).1, (readOversized buffer).2, incoming)
    else some (.invalid, buffer, incoming)
  | .ok header payload _ => some (.ok header payload, buffer, incoming)
  | .needMoreData error =>
    if error ≠ .truncated then some (.invalid, buffer, incoming)
    else readPayload deadlineUs buffer (Wire.halfOf (lengthHigh buffer) (lengthLow buffer)).toNat
      incoming

/-- `read_frame`. -/
def readFrame (incoming : List TlsResult) :
    Option (FrameReadResult × FrameBuffer × List TlsResult) :=
  match tlsReadExact deadlineUs buffer 0 frameHeaderSize incoming with
  | none => none
  | some (.ok, buffer, incoming) =>
    afterHeader deadlineUs buffer incoming (frameDecode (Buffer.load buffer 0 frameHeaderSize))
  | some (result, buffer, incoming) => some (ofIoResult result, buffer, incoming)

/-! What is delivered -/

/-- The bytes of the stream. -/
def delivered : List TlsResult → List Byte
  | [] => []
  | .received bytes :: incoming => bytes ++ delivered incoming
  | _ :: incoming => delivered incoming

/-- Bytes, or a wait that ends well: no close, failure or timeout. -/
def Calm (deadlineUs : ℤ) : TlsResult → Prop
  | .received bytes => bytes ≠ []
  | .wantRead rounds | .wantWrite rounds => waitForSocket deadlineUs rounds = some .ok
  | .failed => False

section Read

variable {deadlineUs : ℤ} {arrived : List TlsResult}

theorem delivered_append (arrived later : List TlsResult) :
    delivered (arrived ++ later) = delivered arrived ++ delivered later := by
  induction arrived with
  | nil => rfl
  | cons result arrived ih => cases result <;> simp [delivered, ih]

variable (buffer : FrameBuffer)

/-- Once the bytes have arrived the read ends, and it takes those bytes and no others. -/
theorem tlsReadExact_arrived (offset : ℕ) (later : List TlsResult)
    {size : ℕ} (hcalm : ∀ result ∈ arrived, Calm deadlineUs result)
    (hsize : size ≤ (delivered arrived).length) :
    ∃ left, (∀ result ∈ left, Calm deadlineUs result) ∧
      delivered left = (delivered arrived).drop size ∧
      tlsReadExact deadlineUs buffer offset size (arrived ++ later) =
        some (.ok, Buffer.store buffer offset ((delivered arrived).take size), left ++ later) := by
  induction arrived generalizing buffer offset size with
  | nil =>
    obtain rfl := Nat.le_zero.mp hsize
    exact ⟨[], nofun, rfl, by simp [tlsReadExact]⟩
  | cons result arrived ih =>
    cases size with
    | zero => exact ⟨result :: arrived, hcalm, rfl, by simp [tlsReadExact]⟩
    | succ size =>
      obtain ⟨hfirst, hrest⟩ := List.forall_mem_cons.mp hcalm
      cases result with
      | received bytes =>
        rw [List.cons_append, tlsReadExact, if_neg hfirst]
        rw [delivered, List.length_append] at hsize
        rw [delivered]
        by_cases hlong : size + 1 < bytes.length
        · refine ⟨.received (bytes.drop (size + 1)) :: arrived, ?_, ?_, ?_⟩
          · refine List.forall_mem_cons.mpr ⟨fun hnil => ?_, hrest⟩
            rw [List.drop_eq_nil_iff] at hnil
            omega
          · rw [delivered, List.drop_append_of_le_length hlong.le]
          · rw [if_pos hlong, List.take_append_of_le_length hlong.le]
            rfl
        · obtain ⟨left, hleft, hdelivered, heq⟩ := ih (Buffer.store buffer offset bytes)
            (offset + bytes.length) hrest (show size + 1 - bytes.length ≤ _ by omega)
          have hdrop : bytes.drop (size + 1) = [] := List.drop_of_length_le (by omega)
          have htake : bytes.take (size + 1) = bytes := List.take_of_length_le (by omega)
          refine ⟨left, hleft, ?_, ?_⟩
          · rw [hdelivered, List.drop_append, hdrop, List.nil_append]
          · rw [if_neg hlong, heq, Buffer.store_store, List.take_append, htake]
      | wantRead rounds =>
        rw [List.cons_append, tlsReadExact, show waitForSocket deadlineUs rounds = _ from hfirst]
        exact ih buffer offset hrest hsize
      | wantWrite rounds =>
        rw [List.cons_append, tlsReadExact, show waitForSocket deadlineUs rounds = _ from hfirst]
        exact ih buffer offset hrest hsize
      | failed => exact hfirst.elim

end Read

/-! Headers -/

/-- A DAP request that is too large, with a header that is valid otherwise. -/
def OversizedRequest (header : FrameHeader) : Prop :=
  header.type = FrameType.dapRequest.code ∧
    frameDapRequestMaxPayloadSize < header.payloadLength.toNat ∧
    validateHeader { header with payloadLength := 0 } = .none

theorem check_congr {c : Prop} [Decidable c] {error all others last : FrameError}
    (herror : error ≠ .none) (h : all = if others ≠ .none then others else last) :
    (if c then error else all) =
      if (if c then error else others) ≠ .none then (if c then error else others) else last := by
  by_cases hc : c
  · simp only [if_pos hc, if_pos herror]
  · simp only [if_neg hc, h]

theorem validateHeader_eq (header : FrameHeader) :
    validateHeader header =
      if validateHeader { header with payloadLength := 0 } ≠ .none then
        validateHeader { header with payloadLength := 0 }
      else if header.payloadLength.toNat > frameMaxPayloadSize ∨
          (header.type = FrameType.dapRequest.code ∧
            header.payloadLength.toNat > frameDapRequestMaxPayloadSize) then .payloadTooLarge
      else .none := by
  have hzero : ¬ (0 : BitVec 16).toNat > frameMaxPayloadSize := by decide
  have hzero' : ¬ (0 : BitVec 16).toNat > frameDapRequestMaxPayloadSize := by decide
  simp only [validateHeader, hzero, hzero', and_false, if_false]
  iterate 7 refine check_congr nofun ?_
  rw [if_neg (not_not.mpr rfl)]
  by_cases hmax : header.payloadLength.toNat > frameMaxPayloadSize
  · rw [if_pos hmax, if_pos (.inl hmax)]
  · simp only [hmax, if_false, false_or]

theorem readHeader_of_bytes {input patched : List Byte} (hbyte : ∀ i < 20, byteAt patched i =
    if i = 16 ∨ i = 17 then 0 else byteAt input i) :
    readHeader patched = { readHeader input with payloadLength := 0 } := by
  simp [readHeader, readU32Be, readU16Be, hbyte]
  decide

section Header

variable {buffer : FrameBuffer}

theorem byteAt_load {count i : ℕ} (hi : i < count) :
    byteAt (Buffer.load buffer 0 count) i = byteAt buffer.toList i := by
  simp only [byteAt, Buffer.load, List.drop_zero, List.getD_eq_getElem?_getD]
  rw [List.getElem?_take_of_lt hi]

theorem readHeader_patched :
    readHeader (Buffer.load (Buffer.store buffer 16 [0, 0]) 0 frameHeaderSize) =
      { readHeader (Buffer.load buffer 0 frameHeaderSize) with payloadLength := 0 } := by
  have hbyte : ∀ i < 20, byteAt (Buffer.load (Buffer.store buffer 16 [0, 0]) 0 frameHeaderSize) i =
      if i = 16 ∨ i = 17 then 0 else byteAt (Buffer.load buffer 0 frameHeaderSize) i := by
    intro i hi
    have hi : i < frameHeaderSize := hi
    rw [byteAt_load hi, byteAt_load hi]
    simp only [byteAt, List.getD_eq_getElem?_getD]
    rw [Buffer.getElem?_store _ _ _ (by simp only [frameBufferSize, frameHeaderSize]; omega)]
    by_cases h16 : i = 16
    · rw [h16]
      rfl
    by_cases h17 : i = 17
    · rw [h17]
      rfl
    · rw [if_neg fun h => ?_, if_neg (by omega)]
      have hlength : i - 16 < 2 := h.2
      omega
  exact readHeader_of_bytes hbyte

theorem load_length_bytes :
    Buffer.load buffer 16 2 = [byteAt buffer.toList 16, byteAt buffer.toList 17] := by
  have hlength : buffer.toList.length = frameHeaderSize + frameMaxPayloadSize :=
    buffer.length_toList
  simp only [frameHeaderSize] at hlength
  have hhigh : 16 < buffer.toList.length := by omega
  have hlow : 17 < buffer.toList.length := by omega
  rw [Buffer.load, List.drop_eq_getElem_cons hhigh, List.drop_eq_getElem_cons hlow,
    List.take_succ_cons, List.take_succ_cons, List.take_zero, byteAt, byteAt,
    List.getD_eq_getElem _ _ hhigh, List.getD_eq_getElem _ _ hlow]

theorem restore_length :
    Buffer.store (Buffer.store buffer 16 [0, 0]) 16 [lengthHigh buffer, lengthLow buffer] =
      buffer := by
  rw [lengthHigh, lengthLow, ← load_length_bytes]
  exact Buffer.store_load buffer 16

theorem length_load_header (buffer : FrameBuffer) :
    (Buffer.load buffer 0 frameHeaderSize).length = frameHeaderSize :=
  Buffer.length_load _ (by rw [Nat.zero_add]; exact Nat.le_add_right _ _)

theorem frameDecode_patched :
    frameDecode (Buffer.load (Buffer.store buffer 16 [0, 0]) 0 frameHeaderSize) =
      if validateHeader { readHeader (Buffer.load buffer 0 frameHeaderSize) with
          payloadLength := 0 } ≠ .none then
        .invalidFrame (validateHeader { readHeader (Buffer.load buffer 0 frameHeaderSize) with
          payloadLength := 0 })
      else .ok { readHeader (Buffer.load buffer 0 frameHeaderSize) with payloadLength := 0 } []
        frameHeaderSize := by
  have hlength := length_load_header (Buffer.store buffer 16 [0, 0])
  have hsize (header : FrameHeader) :
      { header with payloadLength := 0 }.frameSize = frameHeaderSize := rfl
  rw [frameDecode, if_neg (by omega)]
  dsimp only
  rw [readHeader_patched, hsize, hlength, if_neg (lt_irrefl _)]
  rfl

theorem payloadLength_load :
    Wire.halfOf (lengthHigh buffer) (lengthLow buffer) =
      (readHeader (Buffer.load buffer 0 frameHeaderSize)).payloadLength := by
  have hhigh : 16 < frameHeaderSize := by decide
  have hlow : 17 < frameHeaderSize := by decide
  rw [lengthHigh, lengthLow, ← byteAt_load hhigh, ← byteAt_load hlow]
  rfl

theorem readOversized_eq {buffer : FrameBuffer} {header : FrameHeader}
    (hheader : readHeader (Buffer.load buffer 0 frameHeaderSize) = header) :
    readOversized buffer =
      (if validateHeader { header with payloadLength := 0 } = .none ∧
          header.type = FrameType.dapRequest.code then .dapPayloadTooLarge header
        else .invalid, buffer) := by
  rw [readOversized, frameDecode_patched, payloadLength_load, restore_length, hheader]
  by_cases hvalid : validateHeader { header with payloadLength := 0 } = .none
  · rw [if_neg (not_not.mpr hvalid)]
    by_cases htype : header.type = FrameType.dapRequest.code
    · rw [if_pos ⟨hvalid, htype⟩, oversizedResult, if_pos htype]
    · rw [if_neg fun h => htype h.2, oversizedResult, if_neg htype]
  · rw [if_pos hvalid, if_neg fun h => hvalid h.1]
    rfl

end Header

/-! The frame -/

/-- What `read_frame` leaves for a stream. -/
structure ReadsFrame (stream : List Byte) (result : FrameReadResult) (buffer : FrameBuffer)
    (left : List TlsResult) : Prop where
  ok : validateHeader (readHeader stream) = .none →
    delivered left = stream.drop (readHeader stream).frameSize ∧
    ∃ payload, frameDecode (stream.take (readHeader stream).frameSize) =
        .ok (readHeader stream) payload (readHeader stream).frameSize ∧
      result = .ok (readHeader stream) payload
  tooLarge : (∃ header, result = .dapPayloadTooLarge header) ↔ OversizedRequest (readHeader stream)
  received : ∀ header, result = .dapPayloadTooLarge header → header = readHeader stream
  invalid : validateHeader (readHeader stream) ≠ .none → ¬ OversizedRequest (readHeader stream) →
    result = .invalid
  kept : validateHeader (readHeader stream) ≠ .none →
    delivered left = stream.drop frameHeaderSize ∧
    Buffer.load buffer 0 frameHeaderSize = stream.take frameHeaderSize

theorem oversizedRequest_iff {header : FrameHeader} (h : validateHeader header ≠ .none) :
    OversizedRequest header ↔ validateHeader { header with payloadLength := 0 } = .none ∧
      header.type = FrameType.dapRequest.code := by
  constructor
  · rintro ⟨htype, -, hvalid⟩
    exact ⟨hvalid, htype⟩
  · rintro ⟨hvalid, htype⟩
    refine ⟨htype, ?_, hvalid⟩
    by_contra hshort
    rw [validateHeader_eq, if_neg (not_not.mpr hvalid), if_neg] at h
    · exact h rfl
    · simp only [frameMaxPayloadSize, frameDapRequestMaxPayloadSize] at hshort ⊢
      omega

theorem afterHeader_invalid {deadlineUs : ℤ} {buffer : FrameBuffer} {incoming : List TlsResult}
    {header : FrameHeader}
    (hheader : readHeader (Buffer.load buffer 0 frameHeaderSize) = header)
    (hinvalid : validateHeader header ≠ .none) :
    afterHeader deadlineUs buffer incoming (.invalidFrame (validateHeader header)) =
      some (if validateHeader { header with payloadLength := 0 } = .none ∧
          header.type = FrameType.dapRequest.code then .dapPayloadTooLarge header else .invalid,
        buffer, incoming) := by
  rw [afterHeader]
  by_cases hlarge : validateHeader header = .payloadTooLarge
  · rw [if_pos hlarge, readOversized_eq hheader]
  · rw [if_neg hlarge, if_neg]
    rintro ⟨hvalid, -⟩
    rw [validateHeader_eq, if_neg (not_not.mpr hvalid)] at hlarge hinvalid
    split at hlarge
    · exact hlarge rfl
    · rename_i hfits
      exact hinvalid (if_neg hfits)

theorem payloadLength_le {header : FrameHeader} (h : validateHeader header = .none) :
    header.payloadLength.toNat ≤ frameMaxPayloadSize := by
  by_contra hlong
  rw [validateHeader_eq] at h
  split at h
  · rename_i hother
    exact hother h
  · rw [if_pos (.inl (not_le.mp hlong))] at h
    cases h

section Stream

variable {deadlineUs : ℤ} {arrived : List TlsResult}

variable (buffer : FrameBuffer) (later : List TlsResult)

theorem load_store_take {bytes : List Byte} {count : ℕ} (hbytes : count ≤ bytes.length)
    (hcount : count ≤ frameBufferSize) :
    Buffer.load (Buffer.store buffer 0 (bytes.take count)) 0 count = bytes.take count := by
  have hlength : (bytes.take count).length = count := by rw [List.length_take, min_eq_left hbytes]
  have hload : Buffer.load (Buffer.store buffer 0 (bytes.take count)) 0 (bytes.take count).length =
      bytes.take count := Buffer.load_store buffer (by omega)
  rwa [hlength] at hload

theorem readHeader_take {bytes : List Byte} {count : ℕ} (hcount : frameHeaderSize ≤ count)
    (hbytes : frameHeaderSize ≤ bytes.length) :
    readHeader (bytes.take count) = readHeader bytes := by
  conv_rhs => rw [← List.take_append_drop count bytes]
  rw [readHeader_append]
  rw [List.length_take]
  omega

theorem readFrame_header (hcalm : ∀ result ∈ arrived, Calm deadlineUs result)
    (hhead : frameHeaderSize ≤ (delivered arrived).length) :
    ∃ left, (∀ result ∈ left, Calm deadlineUs result) ∧
      delivered left = (delivered arrived).drop frameHeaderSize ∧
      readFrame deadlineUs buffer (arrived ++ later) =
        afterHeader deadlineUs (Buffer.store buffer 0 ((delivered arrived).take frameHeaderSize))
          (left ++ later) (frameDecode ((delivered arrived).take frameHeaderSize)) := by
  obtain ⟨left, hleft, hrest, hread⟩ := tlsReadExact_arrived buffer 0 later hcalm hhead
  refine ⟨left, hleft, hrest, ?_⟩
  rw [readFrame, hread]
  exact congrArg (afterHeader deadlineUs _ _)
    (congrArg frameDecode (load_store_take buffer hhead (Nat.le_add_right _ _)))

theorem readFrame_valid (hcalm : ∀ result ∈ arrived, Calm deadlineUs result)
    (hhead : frameHeaderSize ≤ (delivered arrived).length)
    (hvalid : validateHeader (readHeader (delivered arrived)) = .none)
    (hbody : (readHeader (delivered arrived)).frameSize ≤ (delivered arrived).length) :
    ∃ payload buffer' left,
      frameDecode ((delivered arrived).take (readHeader (delivered arrived)).frameSize) =
        .ok (readHeader (delivered arrived)) payload (readHeader (delivered arrived)).frameSize ∧
      delivered left = (delivered arrived).drop (readHeader (delivered arrived)).frameSize ∧
      readFrame deadlineUs buffer (arrived ++ later) =
        some (.ok (readHeader (delivered arrived)) payload, buffer', left ++ later) := by
  obtain ⟨left, hleft, hrest, hread⟩ := readFrame_header buffer later hcalm hhead
  set header := readHeader (delivered arrived) with hheader
  have hlength : ((delivered arrived).take frameHeaderSize).length = frameHeaderSize := by
    rw [List.length_take, min_eq_left hhead]
  have hfirst : readHeader ((delivered arrived).take frameHeaderSize) = header :=
    readHeader_take le_rfl hhead
  have hmax : header.payloadLength.toNat ≤ frameMaxPayloadSize := payloadLength_le hvalid
  obtain ⟨payload, hdecode⟩ : ∃ payload,
      frameDecode ((delivered arrived).take header.frameSize) =
        .ok header payload header.frameSize := by
    have hframe : ((delivered arrived).take header.frameSize).length = header.frameSize := by
      rw [List.length_take, min_eq_left hbody]
    exact ⟨_, frameDecode_ok_iff.mpr ⟨hframe.ge, by rw [hframe]; exact Nat.le_add_right _ _,
      readHeader_take (Nat.le_add_right _ _) hhead, hvalid, rfl, rfl⟩⟩
  refine ⟨payload, ?_⟩
  by_cases hzero : header.payloadLength.toNat = 0
  · have hsize : header.frameSize = frameHeaderSize := by rw [FrameHeader.frameSize, hzero]; rfl
    refine ⟨Buffer.store buffer 0 ((delivered arrived).take frameHeaderSize), left, hdecode,
      by rw [hrest, hsize], ?_⟩
    rw [hsize] at hdecode
    rw [hread, hdecode]
    rfl
  · have hmore : frameDecode ((delivered arrived).take frameHeaderSize) =
        .needMoreData .truncated := by
      refine frameDecode_needMoreData_iff.mpr ⟨rfl, .inr ⟨by rw [hfirst]; exact hvalid, ?_⟩⟩
      rw [hfirst, hlength, FrameHeader.frameSize]
      omega
    have hpayload : header.payloadLength.toNat ≤ (delivered left).length := by
      rw [hrest, List.length_drop]
      rw [FrameHeader.frameSize] at hbody
      omega
    obtain ⟨left', -, hrest', hread'⟩ := tlsReadExact_arrived
      (Buffer.store buffer 0 ((delivered arrived).take frameHeaderSize)) frameHeaderSize later hleft
      hpayload
    have hstore : Buffer.store (Buffer.store buffer 0 ((delivered arrived).take frameHeaderSize))
        frameHeaderSize ((delivered left).take header.payloadLength.toNat) =
        Buffer.store buffer 0 ((delivered arrived).take header.frameSize) := by
      have hboth := Buffer.store_store buffer 0 ((delivered arrived).take frameHeaderSize)
        ((delivered left).take header.payloadLength.toNat)
      rw [hlength, Nat.zero_add] at hboth
      rw [hboth, hrest, ← List.take_add]
      rfl
    refine ⟨Buffer.store buffer 0 ((delivered arrived).take header.frameSize), left', hdecode, ?_,
      ?_⟩
    · rw [hrest', hrest, List.drop_drop]
      rfl
    · have hfits : header.frameSize ≤ frameBufferSize := Nat.add_le_add_left hmax _
      rw [hread, hmore, afterHeader, if_neg (not_not.mpr rfl), payloadLength_load,
        load_store_take buffer hhead (Nat.le_add_right _ _), hfirst, readPayload,
        if_neg (by omega), hread', hstore]
      have hframe := congrArg decodedResult
        ((congrArg frameDecode (load_store_take buffer hbody hfits)).trans hdecode)
      exact congrArg (fun result => some (result, _, left' ++ later)) hframe

end Stream

/-- A stream that comes in pieces of any size, with waits between them, is read as the frame that
it starts with. -/
theorem read_frame_of_stream (deadlineUs : ℤ) (buffer : FrameBuffer)
    (arrived later : List TlsResult) (hcalm : ∀ result ∈ arrived, Calm deadlineUs result)
    (hhead : frameHeaderSize ≤ (delivered arrived).length)
    (hbody : validateHeader (readHeader (delivered arrived)) = .none →
      (readHeader (delivered arrived)).frameSize ≤ (delivered arrived).length) :
    ∃ result buffer' left,
      readFrame deadlineUs buffer (arrived ++ later) = some (result, buffer', left) ∧
      ReadsFrame (delivered (arrived ++ later)) result buffer' left := by
  have hstream : readHeader (delivered (arrived ++ later)) = readHeader (delivered arrived) := by
    rw [delivered_append, readHeader_append hhead]
  set header := readHeader (delivered arrived) with hheader
  by_cases hvalid : validateHeader header = .none
  · obtain ⟨payload, buffer', left, hdecode, hleft, hread⟩ :=
      readFrame_valid buffer later hcalm hhead hvalid (hbody hvalid)
    have hnot : ¬ OversizedRequest header := by
      rintro ⟨htype, hlong, hother⟩
      rw [validateHeader_eq, if_neg (not_not.mpr hother), if_pos (.inr ⟨htype, hlong⟩)] at hvalid
      cases hvalid
    refine ⟨_, buffer', left ++ later, hread, ?_, ?_, nofun, ?_, ?_⟩
    · intro _
      rw [hstream, delivered_append, delivered_append, hleft,
        List.drop_append_of_le_length (hbody hvalid), List.take_append_of_le_length (hbody hvalid)]
      exact ⟨rfl, payload, hdecode, rfl⟩
    · rw [hstream]
      exact ⟨nofun, fun h => absurd h hnot⟩
    · rw [hstream]
      exact fun h => absurd hvalid h
    · rw [hstream]
      exact fun h => absurd hvalid h
  · obtain ⟨left, -, hleft, hread⟩ := readFrame_header buffer later hcalm hhead
    have hload := load_store_take buffer hhead (Nat.le_add_right _ _)
    have hfirst : readHeader ((delivered arrived).take frameHeaderSize) = header :=
      readHeader_take le_rfl hhead
    have hdecode : frameDecode ((delivered arrived).take frameHeaderSize) =
        .invalidFrame (validateHeader header) := by
      refine frameDecode_invalid_iff.mpr ⟨?_, by rw [hfirst], hvalid⟩
      rw [List.length_take, min_eq_left hhead]
    rw [hdecode, afterHeader_invalid (by rw [hload]; exact hfirst) hvalid] at hread
    refine ⟨_, _, _, hread, ?_, ?_, ?_, ?_, ?_⟩
    · rw [hstream]
      exact fun h => absurd h hvalid
    · rw [hstream, oversizedRequest_iff hvalid]
      split
      · rename_i hlarge
        exact ⟨fun _ => hlarge, fun _ => ⟨header, rfl⟩⟩
      · rename_i hlarge
        exact ⟨nofun, fun h => absurd h hlarge⟩
    · rw [hstream]
      intro header' h
      split at h
      · exact (FrameReadResult.dapPayloadTooLarge.inj h).symm
      · cases h
    · rw [hstream, oversizedRequest_iff hvalid]
      exact fun _ hlarge => if_neg hlarge
    · intro _
      rw [delivered_append, delivered_append, hleft, List.drop_append_of_le_length hhead,
        List.take_append_of_le_length hhead]
      exact ⟨rfl, hload⟩

/-- A keepalive with a payload of one byte, in two pieces and with a wait between them. -/
def keepalivePieces : List TlsResult :=
  [.received [0x41, 0x44, 0x41, 0x50, 1, 7, 0, 0, 0, 0, 0, 5],
    .wantRead [⟨0, .interrupted⟩, ⟨0, .events false true⟩],
    .received [0, 0, 0, 9, 0, 1, 0, 0, 0x2A, 0x41]]

theorem read_keepalive :
    ∃ result buffer left,
      readFrame int64Max (Vector.replicate frameBufferSize 0) (keepalivePieces ++ []) =
        some (result, buffer, left) ∧
      ReadsFrame (delivered (keepalivePieces ++ [])) result buffer left :=
  read_frame_of_stream int64Max (Vector.replicate frameBufferSize 0) keepalivePieces []
    (List.forall_mem_cons.mpr ⟨List.cons_ne_nil _ _, List.forall_mem_cons.mpr ⟨rfl,
      List.forall_mem_singleton.mpr (List.cons_ne_nil _ _)⟩⟩) (by decide) (by decide)

end FrameReader
end AirDap

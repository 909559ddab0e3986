import AirDap.Frame.Codec

/-! The check of the sequence numbers of requests. A session starts with the number one, the
numbers follow one another and zero is left out when they wrap. -/
namespace AirDap

def frameInitialSequence : Word := 1

def requestMessageType (type : Byte) : Bool :=
  type = FrameType.hello.code || type = FrameType.auth.code || type = FrameType.dapRequest.code ||
    type = FrameType.controlRequest.code || type = FrameType.keepalive.code

/-- `airdap_frame_sequence_validator_t`. -/
structure SequenceValidator where
  sessionId : Word
  expectedSequence : Word
  lastSequence : Word
  hasLastSequence : Bool
  deriving DecidableEq, Repr

def frameNextSequence (currentSequence : Word) : Word :=
  let next := currentSequence + 1
  if next = 0 then frameInitialSequence else next

/-- `airdap_frame_sequence_validator_init`, with the validator it leaves. -/
def sequenceValidatorInit (sessionId : Word) : FrameError × SequenceValidator :=
  if sessionId = 0 then (.sessionMismatch, ⟨0, 0, 0, false⟩)
  else (.none, ⟨sessionId, frameInitialSequence, 0, false⟩)

/-- How many numbers the request is ahead of the expected one, in the 64-bit arithmetic of the
source. -/
def forwardDistance (sequence expected : Word) : BitVec 64 :=
  let sequenceSpace : BitVec 64 := 0xFFFFFFFF
  let requestIndex := sequence.setWidth 64 - 1
  let expectedIndex := expected.setWidth 64 - 1
  (requestIndex + sequenceSpace - expectedIndex) % sequenceSpace

/-- `airdap_frame_validate_request_sequence`, with the validator it leaves. -/
def validateRequestSequence (validator : SequenceValidator) (request : FrameHeader) :
    FrameError × SequenceValidator :=
  let headerError := validateHeader request
  if headerError ≠ .none then (headerError, validator)
  else if !requestMessageType request.type then (.unsupportedType, validator)
  else if validator.sessionId = 0 ∨ request.sessionId ≠ validator.sessionId then
    (.sessionMismatch, validator)
  else if request.sequence = validator.expectedSequence then
    (.none, { validator with
      lastSequence := request.sequence
      hasLastSequence := true
      expectedSequence := frameNextSequence request.sequence })
  else if validator.hasLastSequence ∧ request.sequence = validator.lastSequence then
    (.sequenceDuplicate, validator)
  else if !validator.hasLastSequence then (.sequenceOutOfOrder, validator)
  else if forwardDistance request.sequence validator.expectedSequence ≤
      (0xFFFFFFFF : BitVec 64) / 2 then (.sequenceOutOfOrder, validator)
  else (.sequenceStale, validator)

/-- Headers presented one after the other: the validator they leave and the numbers that were
accepted. -/
def presentAll (validator : SequenceValidator) : List FrameHeader → SequenceValidator × List Word
  | [] => (validator, [])
  | request :: requests =>
    let checked := validateRequestSequence validator request
    let rest := presentAll checked.2 requests
    (rest.1, if checked.1 = .none then request.sequence :: rest.2 else rest.2)

/-- A valid header of a request of the session. -/
structure Presentable (sessionId : Word) (request : FrameHeader) : Prop where
  header : validateHeader request = .none
  type : requestMessageType request.type = true
  session : request.sessionId = sessionId

/-- There are as many numbers as there are words that are not zero. -/
def sequenceSpace : ℕ := 2 ^ 32 - 1

/-- The number that is accepted after `n` others. -/
def sequenceNumber (n : ℕ) : Word := BitVec.ofNat 32 (n % sequenceSpace + 1)

section Numbers

theorem toNat_sequenceNumber (n : ℕ) : (sequenceNumber n).toNat = n % sequenceSpace + 1 := by
  have h : n % sequenceSpace < sequenceSpace := Nat.mod_lt _ (by decide)
  unfold sequenceNumber
  rw [BitVec.toNat_ofNat]
  unfold sequenceSpace at h ⊢
  omega

theorem sequenceNumber_ne {n d : ℕ} (hpos : 0 < d) (hd : d < sequenceSpace) :
    sequenceNumber (n + d) ≠ sequenceNumber n := by
  intro h
  have hnat := congrArg BitVec.toNat h
  rw [toNat_sequenceNumber, toNat_sequenceNumber] at hnat
  unfold sequenceSpace at hnat hd
  omega

theorem frameNextSequence_number (n : ℕ) :
    frameNextSequence (sequenceNumber n) = sequenceNumber (n + 1) := by
  have hn := toNat_sequenceNumber n
  have hsucc := toNat_sequenceNumber (n + 1)
  have hsum : (sequenceNumber n + 1).toNat = (n % sequenceSpace + 2) % 2 ^ 32 := by
    rw [BitVec.toNat_add, hn]
    rfl
  have hzero : sequenceNumber n + 1 = 0 ↔ (n % sequenceSpace + 2) % 2 ^ 32 = 0 := by
    rw [← hsum]
    exact ⟨fun h => by rw [h]; rfl, fun h => BitVec.eq_of_toNat_eq h⟩
  unfold sequenceSpace at *
  simp only [frameNextSequence, hzero, frameInitialSequence]
  split_ifs with hwrap
  · apply BitVec.eq_of_toNat_eq
    rw [hsucc]
    change 1 = _
    omega
  · apply BitVec.eq_of_toNat_eq
    rw [hsum, hsucc]
    omega

theorem toNat_forwardDistance (m n : ℕ) : (forwardDistance (sequenceNumber m)
    (sequenceNumber n)).toNat =
      (m % sequenceSpace + sequenceSpace - n % sequenceSpace) % sequenceSpace := by
  have hm := toNat_sequenceNumber m
  have hn := toNat_sequenceNumber n
  unfold sequenceSpace at *
  have hindex (k : ℕ) (hk : (sequenceNumber k).toNat = k % (2 ^ 32 - 1) + 1) :
      ((sequenceNumber k).setWidth 64 - 1).toNat = k % (2 ^ 32 - 1) := by
    rw [BitVec.toNat_sub, BitVec.toNat_setWidth, hk]
    change (2 ^ 64 - 1 + (k % (2 ^ 32 - 1) + 1) % 2 ^ 64) % 2 ^ 64 = _
    omega
  have hspace : (0xFFFFFFFF : BitVec 64).toNat = 2 ^ 32 - 1 := by decide
  unfold forwardDistance
  rw [BitVec.toNat_umod, BitVec.toNat_sub, BitVec.toNat_add, hindex m hm, hindex n hn, hspace]
  omega

end Numbers

/-- The validator of a session that has accepted `n` requests. -/
structure Validated (sessionId : Word) (n : ℕ) (validator : SequenceValidator) : Prop where
  session : validator.sessionId = sessionId
  expected : validator.expectedSequence = sequenceNumber n
  hasLast : validator.hasLastSequence = true ↔ 0 < n
  last : 0 < n → validator.lastSequence = sequenceNumber (n - 1)

section Steps

variable {sessionId : Word} {n : ℕ} {validator : SequenceValidator} {request : FrameHeader}

theorem validated_init (h : sessionId ≠ 0) :
    Validated sessionId 0 (sequenceValidatorInit sessionId).2 := by
  rw [sequenceValidatorInit, if_neg h]
  constructor <;> simp [sequenceNumber, frameInitialSequence]

theorem validateRequestSequence_rejected
    (h : (validateRequestSequence validator request).1 ≠ .none) :
    (validateRequestSequence validator request).2 = validator := by
  simp only [validateRequestSequence] at h ⊢
  split_ifs at h ⊢ <;> first | rfl | exact absurd rfl h

theorem validateRequestSequence_presentable (hsession : sessionId ≠ 0)
    (hv : Validated sessionId n validator) (hrequest : Presentable sessionId request) :
    (validateRequestSequence validator request).1 =
      if request.sequence = sequenceNumber n then .none
      else if 0 < n ∧ request.sequence = validator.lastSequence then .sequenceDuplicate
      else if n = 0 then .sequenceOutOfOrder
      else if forwardDistance request.sequence (sequenceNumber n) ≤ (0xFFFFFFFF : BitVec 64) / 2
        then .sequenceOutOfOrder
      else .sequenceStale := by
  have hlast : validator.hasLastSequence = false ↔ n = 0 := by
    rw [← Bool.not_eq_true, hv.hasLast]
    omega
  simp only [validateRequestSequence, hrequest.header, hrequest.type, hrequest.session, hv.session,
    hv.expected, hv.hasLast, hsession, hlast, ne_eq, not_true_eq_false, if_false, Bool.not_true,
    Bool.false_eq_true, or_self, Bool.not_eq_true']
  split_ifs <;> rfl

theorem Validated.accepted (hv : Validated sessionId n validator)
    (h : (validateRequestSequence validator request).1 = .none) :
    request.sequence = sequenceNumber n ∧
      Validated sessionId (n + 1) (validateRequestSequence validator request).2 := by
  simp only [validateRequestSequence] at h ⊢
  split_ifs at h ⊢ with herror htype hsession hnext
  · exact absurd h herror
  · have hnumber : request.sequence = sequenceNumber n := hnext.trans hv.expected
    refine ⟨hnumber, ⟨hv.session, ?_, by simp, fun _ => hnumber⟩⟩
    simp only [hnumber, frameNextSequence_number]

theorem presentAll_validated (hv : Validated sessionId n validator) (requests : List FrameHeader) :
    (presentAll validator requests).2 =
        (List.range' n (presentAll validator requests).2.length).map sequenceNumber ∧
      Validated sessionId (n + (presentAll validator requests).2.length)
        (presentAll validator requests).1 := by
  induction requests generalizing n validator with
  | nil => exact ⟨rfl, hv⟩
  | cons request requests ih =>
    by_cases haccept : (validateRequestSequence validator request).1 = .none
    · obtain ⟨hnumber, hv'⟩ := hv.accepted haccept
      obtain ⟨hrest, hfinal⟩ := ih hv'
      simp only [presentAll, haccept, if_true, List.length_cons, List.range'_succ, List.map_cons]
      refine ⟨?_, ?_⟩
      · rw [← hnumber, ← hrest]
      · rwa [show n + ((presentAll (validateRequestSequence validator request).2
          requests).2.length + 1) = n + 1 + (presentAll (validateRequestSequence validator
          request).2 requests).2.length by omega]
    · have hsame := validateRequestSequence_rejected haccept
      simp only [presentAll, haccept, if_false]
      rw [hsame]
      exact ih hv

end Steps

section Windows

variable {sessionId : Word} {n : ℕ} {validator : SequenceValidator} {request : FrameHeader}

theorem forwardDistance_le_iff (m n : ℕ) :
    forwardDistance (sequenceNumber m) (sequenceNumber n) ≤ (0xFFFFFFFF : BitVec 64) / 2 ↔
      (m % sequenceSpace + sequenceSpace - n % sequenceSpace) % sequenceSpace ≤ 2 ^ 31 - 1 := by
  have hhalf : ((0xFFFFFFFF : BitVec 64) / 2).toNat = 2 ^ 31 - 1 := by decide
  rw [BitVec.le_def, toNat_forwardDistance, hhalf]

section

variable (hsession : sessionId ≠ 0)
include hsession

section

variable (hrequest : Presentable sessionId request)
include hrequest

theorem validate_expected (hv : Validated sessionId n validator)
    (h : request.sequence = sequenceNumber n) :
    (validateRequestSequence validator request).1 = .none := by
  rw [validateRequestSequence_presentable hsession hv hrequest, if_pos h]

theorem validate_first (hv : Validated sessionId 0 validator) (h : request.sequence ≠ 1) :
    (validateRequestSequence validator request).1 = .sequenceOutOfOrder := by
  have hfirst : request.sequence ≠ sequenceNumber 0 := h
  rw [validateRequestSequence_presentable hsession hv hrequest, if_neg hfirst]
  simp

theorem validate_last (hv : Validated sessionId (n + 1) validator)
    (h : request.sequence = sequenceNumber n) :
    (validateRequestSequence validator request).1 = .sequenceDuplicate := by
  have hne : request.sequence ≠ sequenceNumber (n + 1) := by
    rw [h]
    exact (sequenceNumber_ne (by decide) (by decide)).symm
  have hlast : validator.lastSequence = sequenceNumber n := hv.last (by omega)
  rw [validateRequestSequence_presentable hsession hv hrequest, if_neg hne, hlast]
  simp [h]

theorem validate_earlier {k : ℕ} (hv : Validated sessionId (n + k + 1) validator) (hpos : 1 ≤ k)
    (hk : k ≤ 2 ^ 31 - 2)
    (h : request.sequence = sequenceNumber n) :
    (validateRequestSequence validator request).1 = .sequenceStale := by
  have hspace : k + 1 < sequenceSpace := by
    unfold sequenceSpace
    omega
  have hnext : request.sequence ≠ sequenceNumber (n + k + 1) := by
    rw [h, Nat.add_assoc]
    exact (sequenceNumber_ne (by omega) hspace).symm
  have hlast : validator.lastSequence = sequenceNumber (n + k) := hv.last (by omega)
  have hnotlast : request.sequence ≠ validator.lastSequence := by
    rw [h, hlast]
    exact (sequenceNumber_ne (by omega) (by omega)).symm
  have hbehind : ¬ forwardDistance request.sequence (sequenceNumber (n + k + 1)) ≤
      (0xFFFFFFFF : BitVec 64) / 2 := by
    rw [h, forwardDistance_le_iff]
    unfold sequenceSpace
    omega
  rw [validateRequestSequence_presentable hsession hv hrequest, if_neg hnext,
    if_neg fun h => hnotlast h.2, if_neg (by omega), if_neg hbehind]

theorem validate_ahead (hv : Validated sessionId n validator) {d : ℕ} (hpos : 1 ≤ d)
    (hd : d ≤ 2 ^ 31 - 1)
    (h : request.sequence = sequenceNumber (n + d)) :
    (validateRequestSequence validator request).1 = .sequenceOutOfOrder := by
  have hspace : d + 1 < sequenceSpace := by
    unfold sequenceSpace
    omega
  have hnext : request.sequence ≠ sequenceNumber n := by
    rw [h]
    exact sequenceNumber_ne (by omega) (by omega)
  have hnotlast : ¬ (0 < n ∧ request.sequence = validator.lastSequence) := by
    rintro ⟨hn, heq⟩
    rw [h, hv.last hn, show n + d = n - 1 + (d + 1) by omega] at heq
    exact sequenceNumber_ne (by omega) hspace heq
  have hahead : forwardDistance request.sequence (sequenceNumber n) ≤
      (0xFFFFFFFF : BitVec 64) / 2 := by
    rw [h, forwardDistance_le_iff]
    unfold sequenceSpace
    omega
  rw [validateRequestSequence_presentable hsession hv hrequest, if_neg hnext, if_neg hnotlast,
    if_pos hahead]
  split_ifs <;> rfl

end

end

end Windows

/-- The validator of a session after any headers. The numbers it accepted are 1, 2, 3 and so on,
with 1 after 2³² - 1. A header that it rejects changes nothing. Of a valid request of the session
it accepts the next number; it reports any other first number as out of order, the last accepted
number as a duplicate, an older one as stale and one ahead of the expected number as out of
order. -/
theorem request_sequence {sessionId : Word} (hsession : sessionId ≠ 0)
    (requests : List FrameHeader) {validator : SequenceValidator} {accepted : List Word}
    (hrun : presentAll (sequenceValidatorInit sessionId).2 requests = (validator, accepted)) :
    accepted = (List.range accepted.length).map sequenceNumber ∧
    ∀ request,
      ((validateRequestSequence validator request).1 ≠ .none →
        (validateRequestSequence validator request).2 = validator) ∧
      (Presentable sessionId request →
        (request.sequence = sequenceNumber accepted.length →
          (validateRequestSequence validator request).1 = .none) ∧
        (accepted = [] → request.sequence ≠ 1 →
          (validateRequestSequence validator request).1 = .sequenceOutOfOrder) ∧
        (accepted.getLast? = some request.sequence →
          (validateRequestSequence validator request).1 = .sequenceDuplicate) ∧
        (∀ k, 1 ≤ k → k ≤ 2 ^ 31 - 2 → k < accepted.length →
          accepted[accepted.length - 1 - k]? = some request.sequence →
            (validateRequestSequence validator request).1 = .sequenceStale) ∧
        (accepted ≠ [] → ∀ d, 1 ≤ d → d ≤ 2 ^ 31 - 1 →
          request.sequence = sequenceNumber (accepted.length + d) →
            (validateRequestSequence validator request).1 = .sequenceOutOfOrder)) := by
  obtain ⟨hnumbers, hv⟩ := presentAll_validated (validated_init hsession) requests
  rw [hrun] at hnumbers hv
  simp only [Nat.zero_add, ← List.range_eq_range'] at hnumbers hv
  have hentry {i : ℕ} {number : Word} (hi : accepted[i]? = some number) :
      i < accepted.length ∧ number = sequenceNumber i := by
    obtain ⟨hlt, -⟩ := List.getElem?_eq_some_iff.mp hi
    rw [hnumbers] at hi
    simp only [List.getElem?_map, List.getElem?_range hlt, Option.map_some, Option.some.injEq] at hi
    exact ⟨hlt, hi.symm⟩
  refine ⟨hnumbers, fun request => ⟨validateRequestSequence_rejected, fun hrequest => ?_⟩⟩
  refine ⟨validate_expected hsession hrequest hv, ?_, ?_, ?_, ?_⟩
  · rintro rfl hne
    exact validate_first hsession hrequest hv hne
  · intro hlast
    rw [List.getLast?_eq_getElem?] at hlast
    obtain ⟨hlt, hnumber⟩ := hentry hlast
    obtain ⟨n, hn⟩ : ∃ n, accepted.length = n + 1 := ⟨accepted.length - 1, by omega⟩
    rw [hn] at hv hnumber
    exact validate_last hsession hrequest hv hnumber
  · intro k hpos hk hlt hearlier
    obtain ⟨-, hnumber⟩ := hentry hearlier
    obtain ⟨n, hn⟩ : ∃ n, accepted.length = n + k + 1 := ⟨accepted.length - 1 - k, by omega⟩
    rw [hn] at hv hnumber
    rw [show n + k + 1 - 1 - k = n by omega] at hnumber
    exact validate_earlier hsession hrequest hv hpos hk hnumber
  · intro _ d hpos hd hnumber
    exact validate_ahead hsession hrequest hv hpos hd hnumber

/-- A HELLO of session 7. -/
def helloRequest (sequence : Word) : FrameHeader :=
  ⟨frameMagic, frameProtocolVersion, FrameType.hello.code, 0, 7, sequence, 0, 0⟩

/-- Two requests were accepted, and the first one is presented again. -/
theorem request_sequence_stale : (validateRequestSequence (presentAll (sequenceValidatorInit 7).2
    [helloRequest 1, helloRequest 2]).1 (helloRequest 1)).1 = .sequenceStale := by
  have h := request_sequence (by decide : (7 : Word) ≠ 0) [helloRequest 1, helloRequest 2] rfl
  have hpresentable : Presentable 7 (helloRequest 1) := ⟨by decide, by decide, rfl⟩
  exact ((h.2 _).2 hpresentable).2.2.2.1 1 (by decide) (by decide) (by decide) (by decide)

end AirDap

import AirDap.Host.Frame

/-! The client of the host tools: one request at a time on a stream, numbered by a counter, and
no further request once an exchange has not ended well. -/
namespace AirDap

/-- The reasons for which a request fails. -/
inductive ClientError where
  | unusable | frame (error : HostFrameError) | stopped
  deriving DecidableEq, Repr

/-- The fields of `Client` that a request reads and writes. -/
structure HostClient where
  session : Word
  sequence : Word
  valid : Bool
  deriving DecidableEq, Repr

/-- What the stream does with a request: the exchange stops before an answer, because the
stream fails, the deadline passes or the future is dropped, with or without a byte of the frame
written; or the frame is written and these bytes come back. -/
inductive ClientExchange where
  | stopped (written : Bool)
  | answered (incoming : List Byte)

/-- One call of `request_timeout`. -/
structure ClientCall where
  kind : Byte
  payload : List Byte
  expected : Byte
  exchange : ClientExchange

/-- A frame on the stream, and whether its exchange ended in success. -/
structure SentFrame where
  bytes : List Byte
  success : Bool

/-- The header of the frame as the device reads it. -/
def SentFrame.header (frame : SentFrame) : FrameHeader := readHeader frame.bytes

/-- `sequence.wrapping_add(1).max(1)`. -/
def nextRequestSequence (sequence : Word) : Word :=
  if sequence + 1 = 0 then 1 else sequence + 1

/-- The answer read from the stream: a header, then the payload that it announces. -/
def readResponse (incoming : List Byte) (expected : Byte) (session sequence : Word) :
    Except ClientError (List Byte) := do
  ensure (20 ≤ incoming.length) .stopped
  let size ← (checkHeader (incoming.take 20) session sequence).mapError .frame
  ensure (20 + size ≤ incoming.length) .stopped
  (hostDecodeResponse (incoming.take (20 + size)) expected session sequence).mapError .frame

def ClientExchange.result (exchange : ClientExchange) (expected : Byte) (session sequence : Word) :
    Except ClientError (List Byte) :=
  match exchange with
  | .stopped _ => .error .stopped
  | .answered incoming => readResponse incoming expected session sequence

def ClientExchange.written : ClientExchange → Bool
  | .stopped written => written
  | .answered _ => true

/-- `request_timeout`: the client it leaves, the frame it writes and its result. -/
def HostClient.request (client : HostClient) (call : ClientCall) :
    HostClient × Option SentFrame × Except ClientError (List Byte) :=
  if !client.valid then (client, none, .error .unusable)
  else
    let client := { client with sequence := nextRequestSequence client.sequence }
    match encodeFrame call.kind client.session client.sequence call.payload with
    | .error error => (client, none, .error (.frame error))
    | .ok bytes =>
      let result := call.exchange.result call.expected client.session client.sequence
      ({ client with valid := result.isOk },
        if call.exchange.written then some ⟨bytes, result.isOk⟩ else none, result)

/-- Calls one after the other: the client they leave and the frames on the stream. -/
def HostClient.run (client : HostClient) : List ClientCall → HostClient × List SentFrame
  | [] => (client, [])
  | call :: calls =>
    let (client, frame, _) := client.request call
    let (client, frames) := client.run calls
    (client, frame.toList ++ frames)

/-- The client that `connect` makes. -/
def HostClient.connected (session : Word) : HostClient := ⟨session, 0, true⟩

section Runs

variable {client : HostClient} {calls : List ClientCall}

theorem HostClient.run_invalid (h : client.valid = false) (calls : List ClientCall) :
    (client.run calls).2 = [] := by
  induction calls generalizing client with
  | nil => rfl
  | cons call calls ih =>
    simp only [HostClient.run, HostClient.request, h, Bool.not_false, if_true]
    exact ih h

theorem HostClient.request_cases (hvalid : client.valid = true) (call : ClientCall) :
    (∃ error, encodeFrame call.kind client.session (nextRequestSequence client.sequence)
        call.payload = .error error ∧
      (client.request call).1 = { client with sequence := nextRequestSequence client.sequence } ∧
      (client.request call).2.1 = none) ∨
    ∃ bytes success, encodeFrame call.kind client.session (nextRequestSequence client.sequence)
        call.payload = .ok bytes ∧
      (client.request call).1 = ⟨client.session, nextRequestSequence client.sequence, success⟩ ∧
      ((client.request call).2.1 = some ⟨bytes, success⟩ ∨
        (success = false ∧ (client.request call).2.1 = none)) := by
  simp only [HostClient.request, hvalid, Bool.not_true, Bool.false_eq_true, if_false]
  cases hencode : encodeFrame call.kind client.session (nextRequestSequence client.sequence)
      call.payload with
  | error error => exact .inl ⟨error, rfl, rfl, rfl⟩
  | ok bytes =>
    refine .inr ⟨bytes, _, rfl, rfl, ?_⟩
    cases call.exchange with
    | stopped written =>
      cases written with
      | true => exact .inl rfl
      | false => exact .inr ⟨rfl, rfl⟩
    | answered incoming => exact .inl rfl

theorem HostClient.run_cons (call : ClientCall) (calls : List ClientCall) :
    (client.run (call :: calls)).2 =
      (client.request call).2.1.toList ++ ((client.request call).1.run calls).2 := rfl

theorem HostClient.run_stops (client : HostClient) (calls : List ClientCall)
    {before after : List SentFrame} {frame : SentFrame}
    (hrun : (client.run calls).2 = before ++ frame :: after) (hfail : frame.success = false) :
    after = [] := by
  induction calls generalizing client before with
  | nil => simp [HostClient.run] at hrun
  | cons call calls ih =>
    rw [HostClient.run_cons] at hrun
    cases hvalid : client.valid with
    | false =>
      have hnone : (client.run (call :: calls)).2 = [] := run_invalid hvalid _
      rw [HostClient.run_cons, hrun] at hnone
      simp at hnone
    | true =>
      rcases request_cases hvalid call with
        ⟨error, -, -, hnone⟩ | ⟨bytes, success, -, hclient, hsent⟩
      · rw [hnone] at hrun
        exact ih _ hrun
      · rcases hsent with hsent | ⟨rfl, hsent⟩
        · rw [hsent] at hrun
          cases before with
          | nil =>
            simp only [Option.toList_some, List.singleton_append, List.nil_append,
              List.cons.injEq] at hrun
            obtain ⟨rfl, hrest⟩ := hrun
            have hinvalid : (client.request call).1.valid = false := by
              rw [hclient]
              exact hfail
            rw [run_invalid hinvalid] at hrest
            exact hrest.symm
          | cons first before =>
            simp only [Option.toList_some, List.cons_append, List.cons.injEq] at hrun
            exact ih _ hrun.2
        · rw [hsent] at hrun
          exact ih _ hrun

/-- The counter of a client that has written `n` frames. -/
def counterAfter (n : ℕ) : Word := if n = 0 then 0 else sequenceNumber (n - 1)

theorem nextRequestSequence_counter (n : ℕ) :
    nextRequestSequence (counterAfter n) = sequenceNumber n := by
  cases n with
  | zero => decide
  | succ n => exact frameNextSequence_number n

theorem sequenceNumber_ne_zero (n : ℕ) : sequenceNumber n ≠ 0 := by
  intro h
  have hnat := congrArg BitVec.toNat h
  rw [toNat_sequenceNumber] at hnat
  exact absurd hnat (Nat.succ_ne_zero _)

theorem HostClient.request_refused (hvalid : client.valid = true) {call : ClientCall}
    (hlong : hostMaxPayload < call.payload.length) :
    client.request call = ({ client with sequence := nextRequestSequence client.sequence }, none,
      .error (.frame .invalidFields)) := by
  have hencode : encodeFrame call.kind client.session (nextRequestSequence client.sequence)
      call.payload = .error .invalidFields := by
    unfold encodeFrame ensure
    rw [if_neg fun h => absurd h.2.2 (Nat.not_le.mpr hlong)]
    rfl
  simp only [HostClient.request, hvalid, hencode, Bool.not_true, Bool.false_eq_true, if_false]

theorem readHeader_encodeFrame {kind : Byte} {session sequence : Word} {payload bytes : List Byte}
    (h : encodeFrame kind session sequence payload = .ok bytes) :
    readHeader bytes = hostHeader kind session sequence payload.length := by
  obtain ⟨-, -, -, rfl⟩ := encodeFrame_ok_iff.mp h
  exact readHeader_writeHeader _ _

/-- A request of a kind that the device knows, with a payload that fits in a frame and, in a DAP
request, in a packet. -/
def ClientCall.Known (call : ClientCall) : Prop :=
  requestMessageType call.kind = true ∧ call.payload.length ≤ hostMaxPayload ∧
    (call.kind = FrameType.dapRequest.code →
      call.payload.length ≤ frameDapRequestMaxPayloadSize)

instance (call : ClientCall) : Decidable call.Known := inferInstanceAs (Decidable (_ ∧ _ ∧ _))

/-- The frames carry the numbers that follow one another, and the device can check each. -/
theorem HostClient.run_numbers (hsession : client.session ≠ 0) {n : ℕ}
    (hcounter : client.valid = true → client.sequence = counterAfter n)
    (hknown : ∀ call ∈ calls, call.Known) :
    (client.run calls).2.map (·.header.sequence) =
        (List.range' n (client.run calls).2.length).map sequenceNumber ∧
      ∀ frame ∈ (client.run calls).2, Presentable client.session frame.header := by
  induction calls generalizing client n with
  | nil => simp [HostClient.run]
  | cons call calls ih =>
    have hrest := fun call hcall => hknown call (List.mem_cons_of_mem _ hcall)
    cases hvalid : client.valid with
    | false => simp [run_invalid hvalid]
    | true =>
      have hnumber : nextRequestSequence client.sequence = sequenceNumber n := by
        rw [hcounter hvalid, nextRequestSequence_counter]
      obtain ⟨hkind, hfit, hdap⟩ := hknown call (List.mem_cons_self ..)
      rw [run_cons]
      rcases request_cases hvalid call with
        ⟨error, herror, -⟩ | ⟨bytes, success, hok, hclient, hsent⟩
      · have hencode : encodeFrame call.kind client.session (nextRequestSequence client.sequence)
            call.payload = .ok _ :=
          encodeFrame_ok_iff.mpr ⟨hsession, hnumber ▸ sequenceNumber_ne_zero n, hfit, rfl⟩
        rw [hencode] at herror
        cases herror
      · rw [hclient]
        rcases hsent with hsent | ⟨rfl, hsent⟩
        · have hheader := readHeader_encodeFrame hok
          obtain ⟨hnumbers, hlater⟩ :=
            @ih ⟨client.session, nextRequestSequence client.sequence, success⟩ hsession (n + 1)
              (fun _ => hnumber) hrest
          rw [hsent]
          constructor
          · simp only [Option.toList_some, List.singleton_append, List.map_cons, List.length_cons,
              List.range'_succ, hnumbers, List.cons.injEq, and_true]
            rw [SentFrame.header, hheader, ← hnumber]
            rfl
          · have hfirst : Presentable client.session (readHeader bytes) := by
              rw [hheader]
              exact ⟨hostHeader_valid hkind hdap hok, hkind, rfl⟩
            exact List.forall_mem_cons.mpr ⟨hfirst, hlater⟩
        · rw [hsent, run_invalid rfl]
          simp

/-- A validator that has accepted `n` requests accepts the next ones in turn. -/
theorem presentAll_accepts {session : Word} (hsession : session ≠ 0) {n : ℕ}
    {validator : SequenceValidator} (hv : Validated session n validator)
    {headers : List FrameHeader} (hheaders : ∀ header ∈ headers, Presentable session header)
    (hnumbers : headers.map FrameHeader.sequence =
      (List.range' n headers.length).map sequenceNumber) :
    (presentAll validator headers).2 = headers.map FrameHeader.sequence := by
  induction headers generalizing n validator with
  | nil => rfl
  | cons header headers ih =>
    simp only [List.map_cons, List.length_cons, List.range'_succ, List.cons.injEq] at hnumbers
    have haccept := validate_expected hsession (hheaders header (List.mem_cons_self ..)) hv
      hnumbers.1
    obtain ⟨-, hv'⟩ := hv.accepted haccept
    simp only [presentAll, haccept, if_true, List.map_cons, List.cons.injEq, true_and]
    exact ih hv' (fun header h => hheaders header (List.mem_cons_of_mem _ h)) hnumbers.2

end Runs

/-- The frames of a client, for any calls that the device knows, whatever becomes of their
exchanges: they carry the numbers 1, 2, 3 and so on, with 1 after 2³² - 1; the device accepts the
number of each of them; and nothing follows a frame whose exchange did not end in success. -/
theorem client_sequence {session : Word} (hsession : session ≠ 0) {calls : List ClientCall}
    {frames : List SentFrame} (hrun : ((HostClient.connected session).run calls).2 = frames)
    (hknown : ∀ call ∈ calls, call.Known) :
    frames.map (·.header.sequence) = (List.range frames.length).map sequenceNumber ∧
    (presentAll (sequenceValidatorInit session).2 (frames.map SentFrame.header)).2 =
      frames.map (·.header.sequence) ∧
    ∀ before frame after, frames = before ++ frame :: after → frame.success = false →
      after = [] := by
  subst hrun
  obtain ⟨hnumbers, hpresentable⟩ := @HostClient.run_numbers (.connected session) calls hsession 0
    (fun _ => rfl) hknown
  rw [← List.range_eq_range'] at hnumbers
  refine ⟨hnumbers, ?_, fun before frame after h hfail => HostClient.run_stops _ _ h hfail⟩
  have hheaders : ∀ header ∈ ((HostClient.connected session).run calls).2.map SentFrame.header,
      Presentable session header := by
    intro header hheader
    obtain ⟨frame, hframe, rfl⟩ := List.mem_map.mp hheader
    exact hpresentable frame hframe
  rw [presentAll_accepts hsession (validated_init hsession) hheaders, List.map_map]
  · rfl
  · rw [List.map_map, List.length_map, ← List.range_eq_range']
    exact hnumbers

/-- A HELLO whose exchange stops, after one that does not fit in a frame. -/
def oversizedCalls : List ClientCall :=
  [⟨FrameType.hello.code, List.replicate 4097 0, FrameType.hello.code, .stopped false⟩,
    ⟨FrameType.hello.code, [], FrameType.hello.code, .stopped true⟩]

/-- The request that cannot be encoded uses up a number, and the device refuses the next one. -/
theorem oversizedCalls_gap : ∃ frame,
    ((HostClient.connected 7).run oversizedCalls).2 = [frame] ∧ frame.header.sequence = 2 ∧
      (validateRequestSequence (sequenceValidatorInit 7).2 frame.header).1 =
        .sequenceOutOfOrder := by
  have hrefused : (HostClient.connected 7).request
      ⟨FrameType.hello.code, List.replicate 4097 0, FrameType.hello.code, .stopped false⟩ =
      (⟨7, 1, true⟩, none, .error (.frame .invalidFields)) :=
    HostClient.request_refused rfl (by rw [List.length_replicate]; decide)
  refine ⟨⟨[0x41, 0x44, 0x41, 0x50, 1, 1, 0, 0, 0, 0, 0, 7, 0, 0, 0, 2, 0, 0, 0, 0], false⟩,
    ?_, by decide, by decide⟩
  rw [oversizedCalls, HostClient.run_cons, hrefused]
  rfl

/-- A DAP_Info that is answered, a control request that is not, and a request after it. -/
def unansweredCalls : List ClientCall :=
  [⟨FrameType.dapRequest.code, [0x00, 0xF0], FrameType.dapResponse.code,
      .answered (writeHeader (hostHeader FrameType.dapResponse.code 7 1 3) ++ [0x00, 1, 0x13])⟩,
    ⟨FrameType.controlRequest.code, [0x01, 0x00, 0x05], FrameType.controlResponse.code,
      .stopped true⟩,
    ⟨FrameType.keepalive.code, [], FrameType.keepalive.code, .stopped true⟩]

/-- The device accepts both frames, and the third request writes none. -/
theorem client_sequence_two : ∃ frames,
    ((HostClient.connected 7).run unansweredCalls).2 = frames ∧
      frames.map (·.header.sequence) = [1, 2] ∧
      (presentAll (sequenceValidatorInit 7).2 (frames.map SentFrame.header)).2 = [1, 2] := by
  obtain ⟨hnumbers, haccepted, -⟩ := client_sequence (by decide : (7 : Word) ≠ 0) rfl
    (by decide : ∀ call ∈ unansweredCalls, call.Known)
  have htwo := hnumbers.trans
    (by decide : _ = ([1, 2] : List Word))
  exact ⟨_, rfl, htwo, haccepted.trans htwo⟩

end AirDap

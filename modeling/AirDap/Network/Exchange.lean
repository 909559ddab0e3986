import AirDap.Host.Frame
import AirDap.Network.FrameReader

/-! The stream between the host and a connection task: a request of the host is read in pieces
of any size, and a response goes out by `tls_write_all` in pieces of any size. -/
namespace AirDap
namespace FrameReader

section Request

variable {kind : Byte} {session sequence : Word} {payload bytes rest : List Byte}
  {deadlineUs : ℤ} {arrived : List TlsResult}

/-- The device reads the request that the host wrote, and no byte of what follows it. -/
theorem readFrame_encodeFrame (hkind : requestMessageType kind = true)
    (hdap : kind = FrameType.dapRequest.code → payload.length ≤ frameDapRequestMaxPayloadSize)
    (hencode : encodeFrame kind session sequence payload = .ok bytes)
    (hcalm : ∀ result ∈ arrived, Calm deadlineUs result)
    (harrived : delivered arrived = bytes ++ rest) (buffer : FrameBuffer) (later : List TlsResult) :
    ∃ buffer' left, delivered left = rest ∧ readFrame deadlineUs buffer (arrived ++ later) =
      some (.ok (hostHeader kind session sequence payload.length) payload, buffer',
        left ++ later) := by
  have hdecode := frameDecode_encodeFrame hkind hdap hencode
  obtain ⟨-, hlength, hheader, hvalid, -, hsize⟩ := frameDecode_ok_iff.mp hdecode
  have hfirst := readHeader_append hlength rest
  rw [← harrived, hheader] at hfirst
  obtain ⟨payload', buffer', left, hframe, hleft, hread⟩ := readFrame_valid buffer later hcalm
    (by rw [harrived, List.length_append]; omega) (by rw [hfirst]; exact hvalid)
    (by rw [hfirst, ← hsize, harrived, List.length_append]; omega)
  rw [hfirst, ← hsize, harrived] at hframe hleft
  rw [List.take_left, hdecode] at hframe
  rw [hfirst, ← (FrameDecoding.ok.inj hframe).2.1] at hread
  exact ⟨buffer', left, hleft.trans List.drop_left, hread⟩

end Request

theorem keepalive_read : ∃ buffer left, delivered left = [0x41] ∧
    readFrame int64Max (Vector.replicate frameBufferSize 0) (keepalivePieces ++ []) =
      some (.ok (hostHeader 7 5 9 1) [0x2A], buffer, left ++ []) := by
  have hcalm : ∀ result ∈ keepalivePieces, Calm int64Max result :=
    List.forall_mem_cons.mpr ⟨List.cons_ne_nil _ _, List.forall_mem_cons.mpr ⟨rfl,
      List.forall_mem_singleton.mpr (List.cons_ne_nil _ _)⟩⟩
  exact @readFrame_encodeFrame 7 5 9 [0x2A] _ [0x41] int64Max keepalivePieces rfl (by decide) rfl
    hcalm rfl _ _

/-- What `airdap_network_auth_tls_write` returns: how many bytes it took, which is zero for a
closed stream, WANT_READ or WANT_WRITE with the rounds of the wait, or another error. -/
inductive TlsWrite where
  | written (count : ℕ)
  | want (rounds : List PollRound)
  | failed

/-- `tls_write_all`, with the time at each round of its loop: the result, which is `none` while
it goes on, and the bytes that TLS took. -/
def tlsWriteAll (deadlineUs : ℤ) : List Byte → List (ℤ × TlsWrite) → Option IoResult × List Byte
  | input, [] => (if input = [] then some .ok else none, [])
  | input, (now, write) :: writes =>
    if input = [] then (some .ok, [])
    else if deadlineUs ≠ int64Max ∧ deadlineUs ≤ now then (some .timeout, [])
    else match write with
    | .written count =>
      if count = 0 then (some .closed, [])
      else
        let (result, taken) := tlsWriteAll deadlineUs (input.drop count) writes
        (result, input.take count ++ taken)
    | .want rounds =>
      match waitForSocket deadlineUs rounds with
      | some .ok => tlsWriteAll deadlineUs input writes
      | result => (result, [])
    | .failed => (some .failed, [])

theorem tlsWriteAll_taken (deadlineUs : ℤ) (input : List Byte) (writes : List (ℤ × TlsWrite)) :
    ∃ rest, input = (tlsWriteAll deadlineUs input writes).2 ++ rest ∧
      ((tlsWriteAll deadlineUs input writes).1 = some .ok ↔ rest = []) := by
  fun_induction tlsWriteAll deadlineUs input writes with
  | case1 input => exact ⟨input, rfl, by simp⟩
  | case2 => exact ⟨[], by simp⟩
  | case3 input | case4 input | case8 input => exact ⟨input, rfl, by simpa⟩
  | case5 _ _ _ _ _ _ _ _ _ heq ih =>
    obtain ⟨rest, htaken, hend⟩ := ih
    rw [heq] at htaken hend
    exact ⟨rest, by rw [List.append_assoc, ← htaken, List.take_append_drop], hend⟩
  | case6 _ _ _ _ _ _ _ ih => exact ih
  | case7 input _ _ hinput _ _ hwait => exact ⟨input, rfl, by simpa [hinput] using hwait⟩

/-- The host takes the response to a valid request for its answer. TLS takes it from the first
byte on, and `tls_write_all` is OK exactly if TLS took all of it. -/
theorem sendFrame_taken {request : FrameHeader} {type : FrameType} {answer : List Byte}
    (hrequest : validateHeader request = .none) (htype : type ≠ .error)
    (hanswer : answer.length ≤ frameDapRequestMaxPayloadSize) :
    ∃ output, sendFrame request type answer = net (.tlsWrite output) ∧
      hostDecodeResponse output type.code request.sessionId request.sequence = .ok answer ∧
      ∀ deadlineUs writes, ∃ rest, output = (tlsWriteAll deadlineUs output writes).2 ++ rest ∧
        ((tlsWriteAll deadlineUs output writes).1 = some .ok ↔ rest = []) := by
  obtain ⟨hmagic, hversion, -, hflags, hreserved, hsession, hsequence, -⟩ :=
    validateHeader_none_iff.mp hrequest
  set header := responseHeader request type answer with hheader
  have hsmall : answer.length < 2 ^ 16 := hanswer.trans_lt (by decide)
  have hlength : header.payloadLength.toNat = answer.length := Nat.mod_eq_of_lt hsmall
  have hmax : header.payloadLength.toNat ≤ frameMaxPayloadSize :=
    hlength.trans_le (hanswer.trans (by decide))
  have hvalid : validateHeader header = .none :=
    validateHeader_none_iff.mpr ⟨hmagic, hversion, by cases type <;> rfl, hflags, hreserved,
      hsession, hsequence, hmax, fun _ => hlength.trans_le hanswer⟩
  have hencode : (frameEncode header (some answer) true responseBufferSize).error = .none :=
    frameEncode_ok_iff.mpr ⟨hvalid, fun _ => Option.some_ne_none _,
      Nat.add_le_add_left (hlength.trans_le hanswer) _, rfl⟩
  have hsize : (writeHeader header ++ answer).length = 20 + answer.length := List.length_append
  refine ⟨writeHeader header ++ answer, ?_, ?_, fun _ writes => tlsWriteAll_taken _ _ writes⟩
  · rw [sendFrame, if_neg (by omega)]
    dsimp only
    rw [← hheader, frameEncode_eq hencode, hlength, Option.getD_some, List.take_length]
    rfl
  · refine hostDecodeResponse_ok_iff.mpr ⟨by omega, answer.length, ?_, hsize, ?_, rfl, rfl⟩
    · exact (checkHeader_ok_iff header).mpr ⟨hmagic, hversion, hflags, hreserved, rfl, rfl, hmax,
        hlength.symm⟩
    · change type.code ≠ 8
      revert htype
      cases type <;> decide

theorem keepalive_taken : ∃ output,
    sendFrame (hostHeader 7 5 9 1) .keepalive [0x2A] = net (.tlsWrite output) ∧
      hostDecodeResponse output 7 5 9 = .ok [0x2A] := by
  obtain ⟨output, hsend, hdecode, -⟩ :=
    @sendFrame_taken (hostHeader 7 5 9 1) .keepalive [0x2A] (by decide) (by decide) (by decide)
  exact ⟨output, hsend, hdecode⟩

end FrameReader
end AirDap

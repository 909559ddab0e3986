import AirDap.Dap.Session

/-! What a session learns about the one before it. Closing a session deselects the port, and
that is all: the match mask, the match retries and the cached clock stay, and each of them
shows in the responses of the next session or in the operations it issues. -/
namespace AirDap
open Concurrency Prog

/-- The operation of the SWD engine or of the board that a call is. -/
def LowerCall.targetCall : LowerCall → Option TargetCall
  | .target c => some c
  | _ => none

abbrev LowerAnswer := (c : LowerCall) → c.Answer

/-- What a session shows on a context: its responses and the operations of the SWD engine and
the board that it issues, when the operations below the backend are answered by `answer`. -/
def TransportContext.observed (context : TransportContext) (answer : ℕ → LowerAnswer)
    (requests : List DapRequest) : Option (List (List Byte)) × List TargetCall :=
  let run := (serve context requests).play answer 0
  (run.1.map Prod.fst, run.2.filterMap LowerCall.targetCall)

/-- An earlier session with the answers that the operations below gave it. -/
structure EarlierSession where
  requests : List DapRequest
  answer : ℕ → LowerAnswer

/-- The context `c` is left when the session `e` on `c₀` has been closed. -/
def EarlierSession.Leaves (e : EarlierSession) (c₀ c : TransportContext) : Prop :=
  ((wholeSession c₀ e.requests).play e.answer 0).1 = some c

/-- The state of a transport that outlives its sessions. -/
structure TransportContext.SameSettings (c d : TransportContext) : Prop where
  matchMask : c.processor.matchMask = d.processor.matchMask
  matchRetries : c.processor.matchRetries = d.processor.matchRetries
  clockHz : c.clockHz = d.clockHz

theorem EarlierSession.leaves (e : EarlierSession) (c₀ : TransportContext) :
    ∃ c, e.Leaves c₀ c ∧ c₀.SameTransport c ∧ c.processor.selectedPort = dapPortDisabled :=
  (wholeSession_yields c₀ e.requests).play e.answer 0

/-- A transport between two sessions. -/
def closedContext (owner : Owner) (serialNumber firmwareVersion : List Byte) (matchMask : Word)
    (matchRetries : BitVec 16) (clockHz : Word) : TransportContext :=
  ⟨owner, ⟨installedBackend, serialNumber, firmwareVersion, matchMask, matchRetries,
    dapPortDisabled⟩, clockHz⟩

theorem EarlierSession.Leaves.eq_closedContext {e : EarlierSession} {c₀ c : TransportContext}
    (h : e.Leaves c₀ c) (hinstalled : c₀.processor.backend = installedBackend) :
    c = closedContext c₀.owner c₀.processor.serialNumber c₀.processor.firmwareVersion
      c.processor.matchMask c.processor.matchRetries c.clockHz := by
  obtain ⟨d, hd, hsame, hport⟩ := e.leaves c₀
  obtain rfl : c = d := Option.some.inj (h.symm.trans hd)
  obtain ⟨owner, ⟨backend, serial, firmware, mask, retries, port⟩, clock⟩ := c
  obtain ⟨howner, hbackend, hserial, hfirmware⟩ := hsame
  simp only at howner hbackend hserial hfirmware hport
  subst howner hserial hfirmware hport
  rw [hbackend, hinstalled]
  rfl

/-! A probing session -/

def connectRequest : DapRequest := ⟨[0x02, 0x00], dapBufferSize⟩

/-- A transfer of one item that sets the match mask to all ones. -/
def maskRequest : DapRequest :=
  ⟨[0x05, 0x00, 0x01, 0x20, 0xFF, 0xFF, 0xFF, 0xFF], dapBufferSize⟩

/-- A transfer of one item that reads a register until it matches zero. -/
def matchRequest : DapRequest :=
  ⟨[0x05, 0x00, 0x01, 0x12, 0x00, 0x00, 0x00, 0x00], dapBufferSize⟩

/-- An item with a match value reads its register until the value matches. -/
theorem transferLoop_match {request : List Byte} {capacity items : ℕ} {st : TransferState}
    (hlength : st.input + 5 ≤ request.length)
    (hmask : hasFlag (byteAt request st.input) transferMatchMask = false)
    (hmatch : hasFlag (byteAt request st.input) transferMatchValue = true) :
    transferLoop request capacity (items + 1) st = (do
      let r ← matchItem (byteAt request st.input) (readU32 (request.drop (st.input + 1)))
        { st with input := st.input + 5 }
      if r.1 then transferLoop request capacity items r.2 else pure (.ok r.2)) := by
  have hdata : hasData (byteAt request st.input) = true := by simp [hasData, hmatch]
  have hinput : ¬ st.input ≥ request.length := by omega
  have hword : ¬ (st.input + 1 + 4 > request.length) := by omega
  simp only [transferLoop, transferItem, hdata, hmask, hmatch, hinput, hword, and_false, if_false,
    if_true, bind_assoc, Bool.false_eq_true]
  refine congrArg _ (funext fun r => ?_)
  split <;> rfl

theorem transferLoop_mask {request : List Byte} {capacity items : ℕ} {st : TransferState}
    (hlength : st.input + 5 ≤ request.length)
    (hmask : hasFlag (byteAt request st.input) transferMatchMask = true)
    (hread : hasFlag (byteAt request st.input) transferRead = false) :
    transferLoop request capacity (items + 1) st =
      transferLoop request capacity items { st with
        processor.matchMask := readU32 (request.drop (st.input + 1))
        input := st.input + 5
        completed := st.completed + 1 } := by
  have hinput : ¬ st.input ≥ request.length := by omega
  have hword : ¬ (st.input + 1 + 4 > request.length) := by omega
  simp [transferLoop, transferItem, TransferStep.goOn, hmask, hread, hinput, hword, Nat.add_assoc]

/-- The calls of one read of a match. -/
def matchCalls (owner : Owner) : List LowerCall :=
  [.operationBegin owner, .target (.read false 0), .operationEnd]

theorem transferOnce_play {β : Type} {p : Processor} (hp : p.backend.transfer = true)
    (owner : Owner) (port : Byte) (clockHz data : Word) (f : Bool × Word × Byte → DapCode β)
    (n : ℕ) :
    ((transferOnce p 0x12#8 0 >>= f).handle (backendCall owner port) clockHz).play
      (fun _ => granted data) n =
      let rest := ((f (true, data, transferOk)).handle (backendCall owner port) clockHz).play
        (fun _ => granted data) (n + 3)
      (rest.1, matchCalls owner ++ rest.2) := by
  simp only [transferOnce, callback, hp, if_true]
  rfl

theorem matchLoop_play {p : Processor} (hp : p.backend.transfer = true) (owner : Owner)
    (port : Byte) (clockHz data : Word) (attempts : ℕ) (status : Byte) (n : ℕ) :
    ((matchLoop p 0x12#8 0#32 (attempts + 1) status).handle (backendCall owner port) clockHz).play
      (fun _ => granted data) n =
      if data &&& p.matchMask = 0#32 then (some ((true, transferOk), clockHz), matchCalls owner)
      else (some ((false, transferOk), clockHz),
        (List.replicate (attempts + 1) (matchCalls owner)).flatten) := by
  induction attempts generalizing status n with
  | zero =>
    rw [matchLoop, transferOnce_play hp]
    by_cases h : data &&& p.matchMask = 0#32 <;> simp [h, matchLoop, Prog.handle, Prog.play]
  | succ attempts ih =>
    rw [matchLoop, transferOnce_play hp]
    by_cases h : data &&& p.matchMask = 0#32
    · simp [h, Prog.handle, Prog.play]
    · simp [h, ih, List.replicate_succ]

/-- A transport with the port selected. -/
def openContext (owner : Owner) (serialNumber firmwareVersion : List Byte) (matchMask : Word)
    (matchRetries : BitVec 16) (clockHz : Word) : TransportContext :=
  ⟨owner, ⟨installedBackend, serialNumber, firmwareVersion, matchMask, matchRetries, dapPortSwd⟩,
    clockHz⟩

section Probe

variable (owner : Owner) (serial firmware : List Byte) (mask : Word) (retries : BitVec 16)
  (clockHz data : Word) (n : ℕ)

theorem connect_play :
    (dapProcess (closedContext owner serial firmware mask retries clockHz) connectRequest.data
      connectRequest.responseCapacity).play (fun _ => granted data) n =
      (some ([0x02, 0x01], openContext owner serial firmware mask retries clockHz),
        [.otaDebugAllowed, .dapAcquire owner, .operationBegin owner,
          .target (.setClock clockHz), .operationEnd]) := rfl

theorem mask_play :
    (dapProcess (openContext owner serial firmware mask retries clockHz) maskRequest.data
      maskRequest.responseCapacity).play (fun _ => granted data) n =
      (some ([0x05, 0x01, 0x01],
        openContext owner serial firmware (BitVec.allOnes 32) retries clockHz), []) := by
  have hpacket (p : Processor) (hport : p.selectedPort = dapPortSwd) :
      processPacket p maskRequest.data maskRequest.responseCapacity =
        pure ([0x05, 0x01, 0x01], { p with matchMask := BitVec.allOnes 32 }) := by
    have hitems : processPacket p maskRequest.data maskRequest.responseCapacity =
        transferLoop maskRequest.data dapPacketSize 1 ⟨p, 3, [], 0, transferOk, false⟩ >>=
          transferResponse dapPacketSize := by
      obtain ⟨backend, serial, firmware, mask, retries, port⟩ := p
      obtain rfl : port = dapPortSwd := hport
      rfl
    rw [hitems, transferLoop_mask (by decide : 3 + 5 ≤ 8) (by decide :
      hasFlag (byteAt maskRequest.data 3) transferMatchMask = true) (by decide :
      hasFlag (byteAt maskRequest.data 3) transferRead = false)]
    have hmask : readU32 (maskRequest.data.drop 4) = BitVec.allOnes 32 := by decide
    simp [transferLoop, transferResponse, flushWrite, hmask, DapCommand.code, transferOk]
  unfold dapProcess
  rw [hpacket _ rfl]
  rfl

theorem match_play :
    (dapProcess (openContext owner serial firmware mask retries clockHz) matchRequest.data
      matchRequest.responseCapacity).play (fun _ => granted data) n =
      (some (if data &&& mask = 0#32 then [0x05, 0x01, 0x01] else [0x05, 0x00, 0x11],
        openContext owner serial firmware mask retries clockHz),
        if data &&& mask = 0#32 then matchCalls owner
        else (List.replicate (retries.toNat + 1) (matchCalls owner)).flatten) := by
  have hpacket (p : Processor) (hport : p.selectedPort = dapPortSwd) :
      processPacket p matchRequest.data matchRequest.responseCapacity = (do
        let r ← matchLoop p 0x12#8 0#32 (p.matchRetries.toNat + 1) transferOk
        pure (if r.1 then [0x05, 0x01, r.2]
          else [0x05, 0x00, if r.2 = transferOk then r.2 ||| transferMismatch else r.2], p)) := by
    have hitems : processPacket p matchRequest.data matchRequest.responseCapacity =
        transferLoop matchRequest.data dapPacketSize 1 ⟨p, 3, [], 0, transferOk, false⟩ >>=
          transferResponse dapPacketSize := by
      obtain ⟨backend, serial, firmware, mask, retries, port⟩ := p
      obtain rfl : port = dapPortSwd := hport
      rfl
    rw [hitems, transferLoop_match (by decide : 3 + 5 ≤ 8) (by decide :
      hasFlag (byteAt matchRequest.data 3) transferMatchMask = false) (by decide :
      hasFlag (byteAt matchRequest.data 3) transferMatchValue = true)]
    have hbyte : byteAt matchRequest.data 3 = 0x12#8 := by decide
    have hword : readU32 (matchRequest.data.drop 4) = 0#32 := by decide
    simp only [matchItem, bind_assoc, Nat.reduceAdd, hbyte, hword]
    congr 1
    funext r
    obtain ⟨matched, status⟩ := r
    cases matched <;> rfl
  have hp : (openContext owner serial firmware mask retries clockHz).processor.backend.transfer =
      true := rfl
  unfold dapProcess
  rw [hpacket _ rfl, handle_bind, bind_assoc, play_bind, matchLoop_play hp]
  by_cases h : data &&& mask = 0#32
  · simp [h, openContext, Prog.handle, Prog.play, transferOk]
  · simp [h, openContext, Prog.handle, Prog.play, transferOk, transferMismatch]

theorem matchCalls_target :
    (matchCalls owner).filterMap LowerCall.targetCall = [.read false 0] := rfl

theorem observed_connect :
    ((closedContext owner serial firmware mask retries clockHz).observed
      (fun _ => granted data) [connectRequest]).2 = [.setClock clockHz] := by
  simp [TransportContext.observed, serve, play_bind, connect_play, Prog.play,
    LowerCall.targetCall, List.filterMap_cons]

theorem observed_match :
    ((closedContext owner serial firmware mask retries clockHz).observed
      (fun _ => granted data) [connectRequest, matchRequest]).1 =
      some [[0x02, 0x01],
        if data &&& mask = 0#32 then [0x05, 0x01, 0x01] else [0x05, 0x00, 0x11]] := by
  simp [TransportContext.observed, serve, play_bind, connect_play, match_play, Prog.play]

/-- The retries show in how often a match that fails reads its register. -/
theorem observed_retries :
    ((closedContext owner serial firmware mask retries clockHz).observed
      (fun _ => granted 1) [connectRequest, maskRequest, matchRequest]).2 =
      .setClock clockHz :: List.replicate (retries.toNat + 1) (.read false 0) := by
  simp [TransportContext.observed, serve, play_bind, connect_play, mask_play, match_play,
    Prog.play, LowerCall.targetCall, List.filterMap_cons, matchCalls_target]

end Probe

theorem mask_eq_of_and {a b : Word} (h : ∀ data : Word, data &&& a = 0#32 ↔ data &&& b = 0#32) :
    a = b := by
  have hab : ~~~b &&& a = 0#32 := (h (~~~b)).mpr (by simp)
  have hba : ~~~a &&& b = 0#32 := (h (~~~a)).mp (by simp)
  apply BitVec.eq_of_getLsbD_eq
  intro i hi
  have h₁ := congrArg (BitVec.getLsbD · i) hab
  have h₂ := congrArg (BitVec.getLsbD · i) hba
  simp [hi] at h₁ h₂
  cases ha : a.getLsbD i <;> cases hb : b.getLsbD i <;> simp_all

/-- Two sessions that were closed can be told apart by the next one exactly when they leave
different settings. -/
theorem next_session_isolated_iff {c₀ c₁ c₂ : TransportContext} {e₁ e₂ : EarlierSession}
    (hinstalled : c₀.processor.backend = installedBackend) (h₁ : e₁.Leaves c₀ c₁)
    (h₂ : e₂.Leaves c₀ c₂) :
    (∀ requests answer, c₁.observed answer requests = c₂.observed answer requests) ↔
      c₁.SameSettings c₂ := by
  have hc₁ := h₁.eq_closedContext hinstalled
  have hc₂ := h₂.eq_closedContext hinstalled
  constructor
  · intro h
    rw [hc₁, hc₂] at h
    constructor
    · apply mask_eq_of_and
      intro data
      have hobs := congrArg Prod.fst (h [connectRequest, matchRequest] fun _ => granted data)
      rw [observed_match, observed_match] at hobs
      split_ifs at hobs with ha hb hb
      · exact iff_of_true ha hb
      · exact absurd hobs (by decide)
      · exact absurd hobs (by decide)
      · exact iff_of_false ha hb
    · have hobs := congrArg Prod.snd
        (h [connectRequest, maskRequest, matchRequest] fun _ => granted 1)
      rw [observed_retries, observed_retries] at hobs
      have hlength := congrArg List.length hobs
      simp only [List.length_cons, List.length_replicate] at hlength
      apply BitVec.eq_of_toNat_eq
      omega
    · have hobs := congrArg Prod.snd (h [connectRequest] fun _ => granted 0)
      rw [observed_connect, observed_connect] at hobs
      simpa using hobs
  · rintro ⟨hmask, hretries, hclock⟩
    have heq : c₁ = c₂ := by rw [hc₁, hc₂, hmask, hretries, hclock]
    simp [heq]

/-- A session without a packet. -/
def emptySession : EarlierSession := ⟨[], fun _ => granted 0⟩

/-- A session that makes a match. -/
def matchingSession : EarlierSession := ⟨[connectRequest, matchRequest], fun _ => granted 0⟩

/-- A session that clears the match mask. -/
def maskingSession : EarlierSession :=
  ⟨[connectRequest, ⟨[0x05, 0x00, 0x01, 0x20, 0x00, 0x00, 0x00, 0x00], dapBufferSize⟩],
    fun _ => granted 0⟩

theorem emptySession_leaves : emptySession.Leaves (.init .usb [] [])
    (closedContext .usb [] [] (BitVec.allOnes 32) 0 swdDefaultClockHz) := rfl

theorem maskingSession_leaves : maskingSession.Leaves (.init .usb [] [])
    (closedContext .usb [] [] 0 0 swdDefaultClockHz) := rfl

theorem matchingSession_leaves : matchingSession.Leaves (.init .usb [] [])
    (closedContext .usb [] [] (BitVec.allOnes 32) 0 swdDefaultClockHz) := rfl

/-- The next session does not see that a match was made, and sees that the mask was cleared. -/
theorem earlier_sessions_isolated :
    ∃ c₁ c₂ c₃, emptySession.Leaves (.init .usb [] []) c₁ ∧
      matchingSession.Leaves (.init .usb [] []) c₂ ∧
      maskingSession.Leaves (.init .usb [] []) c₃ ∧
      (∀ requests answer, c₁.observed answer requests = c₂.observed answer requests) ∧
      ¬ ∀ requests answer, c₁.observed answer requests = c₃.observed answer requests := by
  refine ⟨_, _, _, emptySession_leaves, matchingSession_leaves, maskingSession_leaves, ?_, ?_⟩
  · exact (next_session_isolated_iff rfl emptySession_leaves matchingSession_leaves).mpr
      ⟨rfl, rfl, rfl⟩
  · intro h
    obtain ⟨hmask, -, -⟩ :=
      (next_session_isolated_iff rfl emptySession_leaves maskingSession_leaves).mp h
    exact absurd hmask (by decide)

/-- After a session that cleared the match mask, a match of the next one succeeds on a
register whose value differs from the one it waits for. -/
theorem maskingSession_shows :
    ∃ c₁ c₂, emptySession.Leaves (.init .usb [] []) c₁ ∧
      maskingSession.Leaves (.init .usb [] []) c₂ ∧
      (c₁.observed (fun _ => granted 1) [connectRequest, matchRequest]).1 =
        some [[0x02, 0x01], [0x05, 0x00, 0x11]] ∧
      (c₂.observed (fun _ => granted 1) [connectRequest, matchRequest]).1 =
        some [[0x02, 0x01], [0x05, 0x01, 0x01]] :=
  ⟨_, _, emptySession_leaves, maskingSession_leaves, observed_match .., observed_match ..⟩

end AirDap

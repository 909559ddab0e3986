import AirDap.Network.Connection

/-! What a connection may do for a frame. The gate follows the calls of the task by their answers
alone: it looks at the frames that were read, at the binds and validations that succeeded and at
the responses, not at the variables of the task. -/
namespace AirDap
open Concurrency Prog

/-- What the calls of a connection have shown so far. `greeted` tells that a frame before the
present one was a HELLO with an empty payload, and `validated` that the session was found valid
since the present frame was read. -/
structure GateState where
  connection : Option Word
  validator : Option SequenceValidator
  frame : Option FrameHeader
  passed : Bool
  greeted : Bool
  session : Option Word
  validated : Bool
  answered : Bool

namespace GateState

def start : GateState := ⟨none, none, none, false, false, none, false, false⟩

/-- The present frame is a HELLO with an empty payload that passed the sequence check. -/
def greets (s : GateState) : Bool :=
  s.passed && s.frame.any fun header =>
    header.type = FrameType.hello.code && header.payloadLength = 0

/-- A frame comes in, and `passed` tells whether it passed the sequence check. -/
def turn (s : GateState) (header : FrameHeader) (passed : Bool) : GateState :=
  { s with
    frame := some header
    passed
    greeted := s.greeted || s.greets
    validated := false
    answered := false }

/-- The check of a frame against the ones before it. -/
def check (s : GateState) (header : FrameHeader) : FrameError × SequenceValidator :=
  validateRequestSequence (s.validator.getD (sequenceValidatorInit header.sessionId).2) header

def next (s : GateState) : (c : NetCall) → c.Answer → GateState
  | .tlsAccept, some connection => { s with connection := some connection }
  | .readFrame _, .ok frame =>
    { s.turn frame.header ((s.check frame.header).1 = .none) with
      validator := some (s.check frame.header).2 }
  | .readFrame _, .dapPayloadTooLarge header => s.turn header false
  | .readFrame _, .stopped => { s with frame := none }
  | .sessionBind _ _, (.ok, info) => { s with session := some info.sessionId }
  | .sessionValidate connection sessionId, .ok =>
    if s.connection = some connection ∧ s.session = some sessionId then { s with validated := true }
    else s
  | .tlsWrite _, _ => { s with answered := true }
  | _, _ => s

/-- The frame passed the sequence check, a HELLO and then a bind came before, and the session
was validated since the frame was read. -/
structure Admits (s : GateState) : Prop where
  passed : s.passed = true
  greeted : s.greeted = true
  bound : s.session ≠ none
  validated : s.validated = true

/-- The bytes are the one response to the present frame. -/
structure Answers (s : GateState) (bytes : List Byte) (header : FrameHeader)
    (request : FrameHeader) : Prop where
  frame : s.frame = some request
  first : s.answered = false
  bytes_eq : ∃ payload, bytes = writeHeader header ++ payload ∧
    payload.length = header.payloadLength.toNat
  session : header.sessionId = request.sessionId
  sequence : header.sequence = request.sequence
  type : header.type = expectedResponseType request.type ∨ header.type = FrameType.error.code

/-- The bind belongs to an AUTH frame after a HELLO. -/
structure Binds (s : GateState) (connection : Word) : Prop where
  passed : s.passed = true
  greeted : s.greeted = true
  auth : ∃ header, s.frame = some header ∧ header.type = FrameType.auth.code
  connection : s.connection = some connection

def Allowed (s : GateState) : NetCall → Prop
  | .tlsWrite bytes => ∃ header request, s.Answers bytes header request
  | .sessionBind connection _ => s.Binds connection
  | .dapSubmit _ request _ =>
    s.Admits ∧ ¬ (usbOtaFirstCommand ≤ byteAt request 0 ∧ byteAt request 0 ≤ usbOtaLastCommand)
  | .dapSessionOpen | .uartSessionOpen | .uartSessionStatus _ | .uartStatus | .uartTxAcquire _
  | .uartConfigure _ _ | .uartWrite _ _ | .uartRead _ _ | .controlOperationBegin
  | .resetSetAsserted _ | .powerSetAllowed _ | .powerGetActive | .otaGetInfo | .ota _ => s.Admits
  | _ => True

end GateState

section Gate

variable {c : NetworkConnection} {f : FrameHeader} {v : Option SequenceValidator} {s : GateState}
  {α : Type}

/-- The code passes the gate from the state `s`, and `φ` holds of its result and of the state
after it. -/
abbrev Gated (φ : α → GateState → Prop) (p : NetCode α) (s : GateState) : Prop :=
  p.Follows GateState.Allowed GateState.next φ s

/-- What stays true while the frame `f` is served after a HELLO. -/
structure Serving (c : NetworkConnection) (f : FrameHeader) (v : Option SequenceValidator)
    (s : GateState) : Prop where
  connection : s.connection = some c.authConnection
  validator : s.validator = v
  frame : s.frame = some f
  passed : s.passed = true
  greeted : s.greeted = true
  session : c.authSession ≠ 0 → s.session = some c.authSession

/-- The frame is served and has no response yet. -/
def Unanswered (c : NetworkConnection) (f : FrameHeader) (v : Option SequenceValidator)
    (s : GateState) : Prop :=
  Serving c f v s ∧ s.answered = false

/-- The two states differ at most in the response. -/
def Sent (s s' : GateState) : Prop := ∃ answered, s' = { s with answered }

theorem Serving.sent (h : Serving c f v s) {s' : GateState} (hs : Sent s s') :
    Serving c f v s' := by
  obtain ⟨answered, rfl⟩ := hs
  exact ⟨h.connection, h.validator, h.frame, h.passed, h.greeted, h.session⟩

theorem gated_still {a : NetCall} {φ : α → GateState → Prop} {k : a.Answer → NetCode α}
    (ha : s.Allowed a) (hnext : s.next a = fun _ => s) (hk : ∀ r, Gated φ (k r) s) :
    Gated φ (net a >>= k) s := by
  refine follows_act ha fun r => ?_
  rw [hnext]
  exact hk r

theorem gated_sendFrame {type : FrameType} (payload : List Byte) (hframe : s.frame = some f)
    (hfirst : s.answered = false)
    (htype : type.code = expectedResponseType f.type ∨ type = .error) :
    Gated (fun _ => Sent s) (sendFrame f type payload) s := by
  unfold sendFrame
  refine follows_guard ⟨s.answered, rfl⟩ fun hsize => ?_
  refine follows_guard ⟨s.answered, rfl⟩ fun hencoded => ?_
  have hlength : (responseHeader f type payload).payloadLength.toNat = payload.length := by
    change (BitVec.ofNat 16 payload.length).toNat = _
    rw [BitVec.toNat_ofNat]
    omega
  have hbytes := frameEncode_eq (not_not.mp hencoded)
  refine ⟨⟨responseHeader f type payload, f, hframe, hfirst, ⟨payload, ?_, hlength.symm⟩, rfl,
    rfl, ?_⟩, fun sent => ⟨true, rfl⟩⟩
  · rw [hbytes]
    simp [hlength]
  · rcases htype with h | rfl
    · exact .inl h
    · exact .inr rfl

theorem gated_sendError (error : FrameError) (hframe : s.frame = some f)
    (hfirst : s.answered = false) : Gated (fun _ => Sent s) (sendError f error) s := by
  apply follows_ite
  · exact fun _ => ⟨s.answered, rfl⟩
  · exact fun _ => gated_sendFrame _ hframe hfirst (.inr rfl)

theorem Serving.congr (h : Serving c f v s) {c' : NetworkConnection}
    (hconnection : c'.authConnection = c.authConnection)
    (hsession : c'.authSession = c.authSession) : Serving c' f v s := by
  refine ⟨?_, h.validator, h.frame, h.passed, h.greeted, ?_⟩
  · rw [hconnection, h.connection]
  · rw [hsession]
    exact h.session

theorem Serving.admits (h : Serving c f v s) (hbound : s.session ≠ none)
    (hvalidated : s.validated = true) : s.Admits :=
  ⟨h.passed, h.greeted, hbound, hvalidated⟩

theorem gated_validate {sessionId : Word} {φ : α → GateState → Prop} {k : AuthResult → NetCode α}
    (h : Unanswered c f v s) (hsession : s.session = some sessionId)
    (hk : ∀ r s', Unanswered c f v s' → s'.session = some sessionId →
      (s.Admits ∨ r = .ok → s'.Admits) → Gated φ (k r) s') :
    Gated φ (net (.sessionValidate c.authConnection sessionId) >>= k) s := by
  obtain ⟨hserving, hfirst⟩ := h
  refine follows_act trivial fun r => ?_
  by_cases hr : r = .ok
  · subst hr
    have hnext : s.next (.sessionValidate c.authConnection sessionId) .ok =
        { s with validated := true } := if_pos ⟨hserving.connection, hsession⟩
    rw [hnext]
    have hafter : Serving c f v { s with validated := true } :=
      ⟨hserving.connection, hserving.validator, hserving.frame, hserving.passed, hserving.greeted,
        hserving.session⟩
    exact hk _ _ ⟨hafter, hfirst⟩ hsession fun _ =>
      hafter.admits (by rw [hsession]; exact Option.some_ne_none _) rfl
  · have hnext : s.next (.sessionValidate c.authConnection sessionId) r = s := by
      cases r <;> first | rfl | exact absurd rfl hr
    rw [hnext]
    exact hk _ _ ⟨hserving, hfirst⟩ hsession fun hs => hs.elim id fun h => absurd h hr

theorem gated_dataPortClosed {φ : α → GateState → Prop} {k : Bool → NetCode α}
    (hk : ∀ closed, Gated φ (k closed) s) : Gated φ (dataPortClosed c >>= k) s := by
  unfold dataPortClosed
  split
  · exact gated_still trivial rfl fun enabled => hk _
  · exact hk false

theorem gated_validateBoundSession {φ : α → GateState → Prop} {k : Bool → NetCode α}
    (h : Unanswered c f v s)
    (hk : ∀ valid s', Unanswered c f v s' → (valid = true → s'.Admits) → Gated φ (k valid) s') :
    Gated φ (validateBoundSession c >>= k) s := by
  have hrefused : Gated φ (k false) s := hk false s h fun h => by cases h
  unfold validateBoundSession
  rw [bind_assoc]
  apply gated_dataPortClosed
  intro closed
  cases closed with
  | true => exact hrefused
  | false =>
    by_cases hzero : c.authSession = 0
    · simpa [hzero] using hrefused
    · simp only [Bool.false_eq_true, if_false, hzero, bind_assoc]
      apply gated_validate h (h.1.session hzero)
      intro r s' hs' _ hadmits
      exact hk _ s' hs' fun hr => hadmits (.inr (of_decide_eq_true hr))

section Operations

/-- The calls that an admitted frame may make and that the gate does not watch otherwise. -/
def NetCall.Operates : NetCall → Prop
  | .uartSessionStatus _ | .uartStatus | .uartTxAcquire _ | .uartConfigure _ _ | .uartWrite _ _
  | .uartRead _ _ | .resetSetAsserted _ | .powerSetAllowed _ | .powerGetActive | .otaGetInfo
  | .ota _ => True
  | _ => False

theorem NetCall.Operates.allowed {a : NetCall} (ha : a.Operates) (hs : s.Admits) :
    s.Allowed a := by
  cases a <;> first | exact hs | exact ha.elim

theorem NetCall.Operates.next {a : NetCall} (ha : a.Operates) (r : a.Answer) : s.next a r = s := by
  cases a <;> first | rfl | exact ha.elim

theorem gated_operations {p : NetCode α} (hp : p.Everywhere fun a _ => a.Operates)
    (hs : s.Admits) : Gated (fun _ s' => s' = s) p s := by
  induction p with
  | ret v => rfl
  | act a k ih =>
    refine ⟨hp.1.allowed hs, fun r => ?_⟩
    rw [hp.1.next r]
    exact ih r (hp.2 r)
  | spent => trivial

theorem networkUartCommand_operates (session : Word) (opcode : Byte) (request : UartRequest) :
    (networkUartCommand session opcode request).Everywhere fun a _ => a.Operates := by
  cases request with
  | status =>
    refine ⟨trivial, fun r => ?_⟩
    apply everywhere_ite
    · exact fun _ => trivial
    · exact fun _ => ⟨trivial, fun line => by cases line <;> trivial⟩
  | acquireTx => exact ⟨trivial, fun _ => trivial⟩
  | configure settings => exact ⟨trivial, fun _ => trivial⟩
  | write data => exact ⟨trivial, fun _ => trivial⟩
  | read capacity =>
    refine ⟨trivial, fun r => ?_⟩
    apply everywhere_ite
    · exact fun _ => trivial
    · exact fun _ => ⟨trivial, fun _ => everywhere_ite (fun _ => trivial) fun _ => trivial⟩

theorem perform_operates (request : BoardRequest) :
    request.perform.Everywhere fun a _ => a.Operates := by
  cases request with
  | resetSet asserted => exact ⟨trivial, fun done => by cases done <;> trivial⟩
  | powerSet allowed => exact ⟨trivial, fun done => by cases done <;> trivial⟩
  | powerGet => exact ⟨trivial, fun active => by cases active <;> trivial⟩

theorem networkOtaCommand_operates (client : OtaClient) (request : List Byte) :
    (networkOtaCommand client request).Everywhere fun a _ => a.Operates := by
  unfold networkOtaCommand
  apply everywhere_ite
  · exact fun _ => ⟨trivial, fun info => by cases info <;> trivial⟩
  · intro _
    repeat
      apply everywhere_ite
      · exact fun _ => ⟨trivial, fun _ => trivial⟩
      intro _
    exact ⟨trivial, fun _ => trivial⟩

end Operations

section Dispatch

variable {payload : List Byte} {capacity : ℕ}

section

variable (h : Unanswered c f v s)
include h

theorem gated_networkUartDispatch :
    Gated (fun _ => Unanswered c f v) (networkUartDispatch c.authConnection c.authSession
      c.uartSession payload capacity) s := by
  unfold networkUartDispatch
  refine follows_guard h fun hnull => ?_
  apply gated_validate h (h.1.session fun hzero => hnull (.inr (.inl hzero)))
  intro r s' hs' _ hadmits
  refine follows_guard hs' fun hok => ?_
  refine follows_guard hs' fun _ => ?_
  cases networkUartRequest payload with
  | error error => exact hs'
  | ok command =>
    apply (gated_operations (networkUartCommand_operates _ _ command)
      (hadmits (.inr (not_not.mp hok)))).mono
    rintro _ _ rfl
    exact hs'

theorem gated_boardOperation (hsession : s.session = some c.authSession) (hs : s.Admits)
    (request : BoardRequest) (operation : Operation) :
    Gated (fun _ => Unanswered c f v) (boardOperation c.authConnection c.authSession request
      operation) s := by
  unfold boardOperation
  refine follows_guard h fun _ => ?_
  apply gated_validate h hsession
  intro r s' hs' _ hadmits
  refine follows_guard hs' fun _ => ?_
  apply (gated_operations (perform_operates request) (hadmits (.inl hs))).mono
  rintro _ _ rfl
  exact hs'

theorem gated_networkControlDispatch :
    Gated (fun _ => Unanswered c f v) (networkControlDispatch c.authConnection c.authSession
      payload) s := by
  unfold networkControlDispatch
  refine follows_guard h fun hnull => ?_
  apply gated_validate h (h.1.session fun hzero => hnull (.inr hzero))
  intro r s' hs' hsession hadmits
  refine follows_guard hs' fun hok => ?_
  have hadmitted := hadmits (.inr (not_not.mp hok))
  cases boardRequest payload with
  | error error => exact hs'
  | ok request =>
    refine gated_still (a := .controlOperationBegin) hadmitted rfl fun begun => ?_
    refine follows_guard hs' fun _ => ?_
    apply (gated_boardOperation hs' hsession hadmitted request begun.2).bind
    intro result s'' hs''
    exact gated_still trivial rfl fun _ => hs''

theorem gated_networkOtaDispatch :
    Gated (fun _ => Unanswered c f v) (networkOtaDispatch c.authConnection c.authSession payload
      capacity) s := by
  unfold networkOtaDispatch networkAuthorize
  by_cases hnull : c.authConnection = 0 ∨ c.authSession = 0
  · rw [if_pos hnull]
    exact h
  · rw [if_neg hnull, bind_assoc]
    apply gated_validate h (h.1.session fun hzero => hnull (.inr hzero))
    intro r s' hs' _ hadmits
    refine follows_guard hs' fun hok => ?_
    refine follows_guard hs' fun _ => ?_
    have hadmitted := hadmits (.inr (by simpa using hok))
    apply (gated_operations (networkOtaCommand_operates _ payload) hadmitted).bind
    rintro _ _ rfl
    exact hs'

theorem gated_controlDispatch :
    Gated (fun _ => Unanswered c f v) (controlDispatch c payload) s := by
  unfold controlDispatch
  split
  · exact gated_networkOtaDispatch h
  · split
    · exact gated_networkUartDispatch h
    · exact gated_networkControlDispatch h

end

end Dispatch

section Bind

variable {info : SessionInfo}

/-- The connection of a bind that succeeds is served on. -/
def Bound (f : FrameHeader) (v : Option SequenceValidator) (r : Option NetworkConnection)
    (s : GateState) : Prop := ∀ c ∈ r, Serving c f v s

theorem gated_bindFailed (error : FrameError) (hframe : s.frame = some f)
    (hfirst : s.answered = false) : Gated (Bound f v) (bindFailed f error) s :=
  (gated_sendError error hframe hfirst).bind fun _ _ _ _ h => by cases h

section

variable (hauth : f.type = FrameType.auth.code)
include hauth

theorem gated_sendSession (h : Unanswered c f v s)
    {c' : NetworkConnection} (hconnection : c'.authConnection = c.authConnection)
    (hsession : c'.authSession = c.authSession) :
    Gated (Bound f v) (sendSession c' f info) s := by
  have htype : FrameType.auth.code = expectedResponseType f.type := by
    rw [hauth]
    rfl
  apply (gated_sendFrame _ h.1.frame h.2 (.inl htype)).bind
  intro sent s' hs'
  cases sent with
  | false => exact fun _ h => by cases h
  | true =>
    rintro _ ⟨⟩
    exact (h.1.sent hs').congr hconnection hsession

theorem gated_openUartSession (h : Unanswered c f v s) (hs : s.Admits)
    (hsession : s.session = some info.sessionId) :
    Gated (Bound f v) (openUartSession c f info) s := by
  refine gated_still trivial rfl fun enabled => ?_
  refine follows_guard (fun _ h => by cases h) fun _ => ?_
  refine gated_still (a := .uartSessionOpen) hs rfl fun opened => ?_
  apply follows_ite
  · exact fun _ => gated_bindFailed _ h.1.frame h.2
  · intro _
    refine gated_still trivial rfl fun _ => ?_
    apply gated_validate h hsession
    intro r s' hs' _ _
    apply follows_ite
    · exact fun _ => gated_bindFailed _ hs'.1.frame hs'.2
    · exact fun _ => gated_sendSession hauth hs' rfl rfl

theorem gated_openDapSession (h : Unanswered c f v s) (hs : s.Admits) :
    Gated (Bound f v) (openDapSession c f info) s := by
  refine gated_still (a := .dapSessionOpen) hs rfl fun opened => ?_
  apply follows_ite
  · exact fun _ => gated_bindFailed _ h.1.frame h.2
  · intro _
    refine gated_still trivial rfl fun locked => ?_
    apply follows_ite
    · intro _
      exact gated_still trivial rfl fun _ => gated_bindFailed _ h.1.frame h.2
    · intro _
      refine gated_still trivial rfl fun _ => ?_
      exact gated_still trivial rfl fun _ => gated_sendSession hauth h rfl rfl

theorem gated_publishSession (h : Unanswered { c with authSession := info.sessionId } f v s)
    (hsession : s.session = some info.sessionId) :
    Gated (Bound f v) (publishSession c f info) s := by
  refine gated_still trivial rfl fun locked => ?_
  apply follows_ite
  · exact fun _ => gated_bindFailed _ h.1.frame h.2
  · intro _
    refine gated_still trivial rfl fun _ => ?_
    refine gated_still trivial rfl fun _ => ?_
    apply gated_validate h hsession
    intro r s' hs' hsession' hadmits
    apply follows_ite
    · exact fun _ => gated_bindFailed _ hs'.1.frame hs'.2
    · intro hok
      have hadmitted := hadmits (.inr (not_not.mp hok))
      apply follows_ite
      · exact fun _ => gated_openUartSession hauth hs' hadmitted hsession'
      · exact fun _ => gated_openDapSession hauth hs' hadmitted

theorem gated_bindSession {payload : List Byte} (h : Unanswered c f v s) :
    Gated (Bound f v) (bindSession c f payload) s := by
  have hclaimed : Gated (fun _ s' => s' = s) (claimServiceConnection c) s := by
    refine gated_still trivial rfl fun locked => ?_
    refine follows_guard rfl fun _ => ?_
    refine gated_still trivial rfl fun _ => ?_
    exact gated_still trivial rfl fun _ => rfl
  unfold bindSession
  apply follows_ite
  · exact fun _ => gated_bindFailed _ h.1.frame h.2
  · intro _
    apply hclaimed.bind
    intro claimed s' hs'
    rw [hs']
    apply follows_ite
    · exact fun _ => gated_bindFailed _ h.1.frame h.2
    · intro _
      refine ⟨⟨h.1.passed, h.1.greeted, ⟨f, h.1.frame, hauth⟩, h.1.connection⟩, ?_⟩
      rintro ⟨result, info⟩
      by_cases hok : result = .ok
      · subst hok
        exact gated_publishSession hauth ⟨⟨h.1.connection, h.1.validator, h.1.frame, h.1.passed,
          h.1.greeted, fun _ => rfl⟩, h.2⟩ rfl
      · have hnext : s.next (.sessionBind c.authConnection
            (if payload.length = 0 then none else some payload)) (result, info) = s := by
          cases result <;> first | rfl | exact absurd rfl hok
        rw [hnext]
        exact follows_ite (fun _ => gated_bindFailed _ h.1.frame h.2) fun h => absurd hok h

end

end Bind

section Requests

variable {frame : RequestFrame} {rounds : ℕ}

theorem gated_receiveLoop (token : Word) (rounds : ℕ) :
    Gated (fun _ s' => s' = s) (receiveLoop token rounds) s := by
  induction rounds with
  | zero => trivial
  | succ n ih =>
    refine gated_still trivial rfl fun item => ?_
    cases item with
    | none => rfl
    | some item => exact follows_guard rfl fun _ => ih

theorem gated_forwardResponse {response : List Byte} (h : Unanswered c f v s)
    (htype : f.type = FrameType.dapRequest.code) :
    Gated (fun _ => Serving c f v) (forwardResponse c f response) s := by
  have hpaired : FrameType.dapResponse.code = expectedResponseType f.type := by
    rw [htype]
    rfl
  apply gated_validateBoundSession h
  intro valid s' hs' _
  apply follows_ite
  · exact fun _ => (gated_sendError _ hs'.1.frame hs'.2).bind fun _ _ hs'' => hs'.1.sent hs''
  · intro _
    refine gated_still trivial rfl fun enabled => ?_
    apply follows_ite
    · exact fun _ => (gated_sendError _ hs'.1.frame hs'.2).mono fun _ _ => hs'.1.sent
    · exact fun _ => (gated_sendFrame _ hs'.1.frame hs'.2 (.inl hpaired)).mono
        fun _ _ => hs'.1.sent

theorem gated_submitRequest (h : Unanswered c frame.header v s) (hs : s.Admits) {token : Word}
    (htype : frame.header.type = FrameType.dapRequest.code)
    (hcommand : ¬ (usbOtaFirstCommand ≤ byteAt frame.payload 0 ∧
      byteAt frame.payload 0 ≤ usbOtaLastCommand)) :
    Gated (fun _ => Serving c frame.header v) (submitRequest rounds c frame token) s := by
  have hsendError (error : FrameError) :
      Gated (fun _ => Serving c frame.header v) (sendError frame.header error) s :=
    (gated_sendError _ h.1.frame h.2).mono fun _ _ => h.1.sent
  refine gated_still trivial rfl fun _ => ?_
  refine gated_still (a := .dapSubmit c.dapSession frame.payload token) ⟨hs, hcommand⟩
    rfl fun result => ?_
  apply follows_ite
  · intro _
    exact gated_still trivial rfl fun _ => hsendError _
  · intro _
    apply (gated_receiveLoop token rounds).bind
    rintro response _ rfl
    cases response with
    | none => exact gated_still trivial rfl fun _ => hsendError _
    | some response =>
      exact gated_still trivial rfl fun _ => gated_forwardResponse h htype

theorem gated_sendDapResponse (h : Unanswered c frame.header v s)
    (htype : frame.header.type = FrameType.dapRequest.code) :
    Gated (fun r => Serving r.2 frame.header v) (sendDapResponse rounds c frame) s := by
  have hsendError {s : GateState} (h : Unanswered c frame.header v s) (error : FrameError) :
      Gated (fun r => Serving r.2 frame.header v)
        (sendError frame.header error >>= fun sent => pure (sent, c)) s :=
    (gated_sendError _ h.1.frame h.2).bind fun _ _ hs' => h.1.sent hs'
  refine gated_still trivial rfl fun enabled => ?_
  apply follows_ite
  · exact fun _ => hsendError h _
  · intro _
    apply follows_ite
    · exact fun _ => hsendError h _
    · intro _
      apply follows_ite
      · exact fun _ => hsendError h _
      · intro hcommand
        apply gated_validateBoundSession h
        intro valid s' hs' hadmits
        cases valid with
        | false =>
          exact (gated_sendError _ hs'.1.frame hs'.2).bind fun _ _ hs'' => hs'.1.sent hs''
        | true =>
          have hadmission : Gated (fun _ s'' => s'' = s') (submitAdmission frame.payload) s' := by
            apply follows_ite
            · exact fun _ => ⟨trivial, fun _ => rfl⟩
            · exact fun _ => rfl
          apply hadmission.bind
          rintro admission _ rfl
          apply follows_ite
          · exact fun _ => hsendError hs' _
          · intro _
            apply (gated_submitRequest hs' (hadmits rfl) htype hcommand).bind
            intro sent s'' hs''
            exact hs''.congr rfl rfl

/-- What the gate knows of a task between two frames. -/
structure Tracked (st : ServeState) (s : GateState) : Prop where
  connection : s.connection = some st.connection.authConnection
  validator : s.validator = st.validator
  greeted : st.helloComplete = true → s.greeted = true ∨ s.greets = true
  session : st.connection.authSession ≠ 0 → s.session = some st.connection.authSession

/-- The task ends, or goes on in a state that the gate knows. -/
def Resumes (r : Option ServeState) (s : GateState) : Prop := ∀ st ∈ r, Tracked st s

/-- A frame has come in. -/
structure Taken (st : ServeState) (f : FrameHeader) (s : GateState) : Prop where
  connection : s.connection = some st.connection.authConnection
  validator : s.validator = st.validator
  frame : s.frame = some f
  first : s.answered = false
  greeted : st.helloComplete = true → s.greeted = true
  session : st.connection.authSession ≠ 0 → s.session = some st.connection.authSession

variable {st : ServeState}

theorem Serving.tracked (h : Serving c f v s) (hc : st.connection = c) (hv : st.validator = v) :
    Tracked st s := by
  subst hc hv
  exact ⟨h.connection, h.validator, fun _ => .inl h.greeted, h.session⟩

theorem Taken.unanswered (h : Taken st f s) (hhello : st.helloComplete = true)
    (hpassed : s.passed = true) : Unanswered st.connection f st.validator s :=
  ⟨⟨h.connection, h.validator, h.frame, hpassed, h.greeted hhello, h.session⟩, h.first⟩

theorem gated_continueIf {send : NetCode Bool} {st' : ServeState}
    (hsend : Gated (fun _ s' => Tracked st' s') send s) : Gated Resumes
    (continueIf st' send) s := by
  apply hsend.bind
  intro sent s' hs'
  cases sent with
  | false => exact fun _ h => by cases h
  | true =>
    rintro _ ⟨⟩
    exact hs'

theorem Taken.sendError (h : Taken st f s) (error : FrameError) :
    Gated Resumes (continueIf st (sendError f error)) s := by
  apply gated_continueIf
  apply (gated_sendError error h.frame h.first).mono
  rintro _ _ ⟨answered, rfl⟩
  exact ⟨h.connection, h.validator, fun hhello => .inl (h.greeted hhello), h.session⟩

theorem gated_finishControl {response : List Byte} {payload : List Byte}
    (h : Serving st.connection f st.validator s) (hs : s.Admits) :
    Gated Resumes (finishControl st payload response) s := by
  unfold finishControl
  apply follows_ite
  · intro _
    exact ⟨hs, fun _ _ h => by cases h⟩
  · rintro _ _ ⟨⟩
    exact h.tracked rfl rfl

theorem Sent.admits {s' : GateState} (h : Sent s s') (hs : s.Admits) : s'.Admits := by
  obtain ⟨answered, rfl⟩ := h
  exact ⟨hs.passed, hs.greeted, hs.bound, hs.validated⟩

section

variable (h : Taken st frame.header s)
include h

theorem gated_serveControl (hpassed : s.passed = true) (hhello : st.helloComplete = true)
    (htype : frame.header.type = FrameType.controlRequest.code) :
    Gated Resumes (serveControl st frame) s := by
  have hpaired : FrameType.controlResponse.code = expectedResponseType frame.header.type := by
    rw [htype]
    rfl
  unfold serveControl
  apply follows_ite
  · exact fun _ => h.sendError _
  · intro _
    apply (gated_controlDispatch (h.unanswered hhello hpassed)).bind
    intro result s' hs'
    cases result with
    | error error =>
      apply (gated_sendError error hs'.1.frame hs'.2).bind
      intro sent s'' hs''
      apply follows_ite
      · exact fun _ _ h => by cases h
      · rintro _ _ ⟨⟩
        exact (hs'.1.sent hs'').tracked rfl rfl
    | ok response =>
      apply gated_validateBoundSession hs'
      intro valid s'' hs'' hadmits
      cases valid with
      | false => exact fun _ h => by cases h
      | true =>
        apply (gated_sendFrame _ hs''.1.frame hs''.2 (.inl hpaired)).bind
        intro sent s₃ hs₃
        apply follows_ite
        · exact fun _ _ h => by cases h
        · exact fun _ => gated_finishControl (hs''.1.sent hs₃) (hs₃.admits (hadmits rfl))

theorem gated_serveKeepalive (hpassed : s.passed = true) (hhello : st.helloComplete = true)
    (htype : frame.header.type = FrameType.keepalive.code) :
    Gated Resumes (serveKeepalive st frame) s := by
  have hpaired : FrameType.keepalive.code = expectedResponseType frame.header.type := by
    rw [htype]
    rfl
  unfold serveKeepalive
  apply follows_ite
  · exact fun _ => h.sendError _
  · intro _
    apply gated_validateBoundSession (h.unanswered hhello hpassed)
    intro valid s' hs' _
    apply follows_ite
    · intro _
      exact gated_continueIf ((gated_sendError _ hs'.1.frame hs'.2).mono
        fun _ _ hs'' => (hs'.1.sent hs'').tracked rfl rfl)
    · intro _
      exact gated_continueIf ((gated_sendFrame _ hs'.1.frame hs'.2 (.inl hpaired)).mono
        fun _ _ hs'' => (hs'.1.sent hs'').tracked rfl rfl)

theorem gated_serveDap (hpassed : s.passed = true) (hhello : st.helloComplete = true)
    (htype : frame.header.type = FrameType.dapRequest.code) :
    Gated Resumes (serveDap rounds st frame) s := by
  unfold serveDap
  apply follows_ite
  · exact fun _ => h.sendError _
  · intro _
    apply follows_ite
    · exact fun _ => h.sendError _
    · intro _
      apply (gated_sendDapResponse (h.unanswered hhello hpassed) htype).bind
      rintro ⟨sent, connection⟩ s' hs'
      cases sent with
      | false => exact fun _ h => by cases h
      | true =>
        rintro _ ⟨⟩
        exact hs'.tracked rfl rfl

end

variable {identity : DeviceIdentity}

theorem gated_hello (h : Taken st frame.header s) (hpassed : s.passed = true)
    (htype : frame.header.type = FrameType.hello.code) (hempty : frame.payload.length = 0) :
    Gated Resumes (continueIf { st with helloComplete := true }
      (sendHello identity frame.header)) s := by
  have hpaired : FrameType.hello.code = expectedResponseType frame.header.type := by
    rw [htype]
    rfl
  have hlength : frame.header.payloadLength = 0 := by
    apply BitVec.eq_of_toNat_eq
    rw [← frame.length_payload, hempty]
    rfl
  have htracked (s' : GateState) (hs' : Sent s s') :
      Tracked { st with helloComplete := true } s' := by
    obtain ⟨answered, rfl⟩ := hs'
    refine ⟨h.connection, h.validator, fun _ => .inr ?_, h.session⟩
    simp [GateState.greets, hpassed, h.frame, htype, hlength]
  apply gated_continueIf
  unfold sendHello
  apply follows_ite
  · exact fun _ => (gated_sendError _ h.frame h.first).mono fun _ => htracked
  · exact fun _ => (gated_sendFrame _ h.frame h.first (.inl hpaired)).mono fun _ => htracked

theorem gated_serveFrame (h : Taken st frame.header s) (hpassed : s.passed = true)
    (hhello : frame.header.type ≠ FrameType.hello.code → st.helloComplete = true) :
    Gated Resumes (serveFrame identity rounds st frame) s := by
  unfold serveFrame
  apply follows_ite
  · intro htype
    apply follows_ite
    · exact fun _ => h.sendError _
    · exact fun hempty => gated_hello h hpassed htype (not_not.mp hempty)
  · intro hother
    have hgreeted := hhello hother
    apply follows_ite
    · intro hauth
      apply follows_ite
      · exact fun _ => h.sendError _
      · intro _
        apply (gated_bindSession hauth (h.unanswered hgreeted hpassed)).bind
        intro connection s' hs'
        cases connection with
        | none => exact fun _ h => by cases h
        | some connection =>
          rintro _ ⟨⟩
          exact (hs' connection rfl).tracked rfl rfl
    · intro _
      apply follows_ite
      · exact gated_serveDap h hpassed hgreeted
      · intro _
        apply follows_ite
        · exact gated_serveControl h hpassed hgreeted
        · intro _
          apply follows_ite
          · exact gated_serveKeepalive h hpassed hgreeted
          · exact fun _ => h.sendError _

theorem gated_acceptFrame (h : Tracked st s) (authenticated : Bool) :
    Gated Resumes (acceptFrame identity rounds st frame)
      (s.next (.readFrame authenticated) (.ok frame)) := by
  unfold acceptFrame
  refine follows_guard (fun _ h => by cases h) fun _ => ?_
  have hcheck : s.check frame.header = validateRequestSequence
      (st.validator.getD (sequenceValidatorInit frame.header.sessionId).2) frame.header := by
    rw [GateState.check, h.validator]
  have htaken : Taken { st with validator := some (s.check frame.header).2 } frame.header
      (s.next (.readFrame authenticated) (.ok frame)) := by
    refine ⟨h.connection, rfl, rfl, rfl, fun hhello => ?_, h.session⟩
    rcases h.greeted hhello with hgreeted | hgreets
    · simp [GateState.next, GateState.turn, hgreeted]
    · simp [GateState.next, GateState.turn, hgreets]
  rw [← hcheck]
  apply follows_ite
  · exact fun _ => htaken.sendError _
  · intro hpassed
    apply follows_ite
    · intro _
      exact (gated_sendError _ htaken.frame htaken.first).bind fun _ _ _ _ h => by cases h
    · intro hhello
      refine gated_serveFrame htaken ?_ fun htype => ?_
      · simpa [GateState.next, GateState.turn] using hpassed
      · simpa [htype] using hhello

theorem gated_serveRead (h : Tracked st s) (authenticated : Bool) (read : FrameRead) :
    Gated Resumes (serveRead identity rounds st read)
      (s.next (.readFrame authenticated) read) := by
  cases read with
  | ok frame =>
    apply gated_dataPortClosed
    intro closed
    cases closed with
    | true => exact fun _ h => by cases h
    | false => exact gated_acceptFrame h authenticated
  | dapPayloadTooLarge header =>
    exact (gated_sendError _ rfl rfl).bind fun _ _ _ _ h => by cases h
  | stopped => exact gated_dataPortClosed fun _ _ h => by cases h

theorem gated_serveLoop (h : Tracked st s) (n : ℕ) :
    Gated (fun _ _ => True) (serveLoop identity rounds n st) s := by
  induction n generalizing st s with
  | zero => trivial
  | succ n ih =>
    refine ⟨trivial, fun read => ?_⟩
    apply (gated_serveRead h st.authenticated read).bind
    intro result s' hs'
    cases result with
    | none => trivial
    | some st' => exact ih (hs' st' rfl)

/-- Whatever the calls of a connection answer, an operation is carried out for a frame only
after the checks of the gate, and a frame has at most one response, which is its own. -/
theorem connection_passes_gate (identity : DeviceIdentity) (rounds : ℕ) (uart : Bool) :
    (runConnection identity rounds uart).Follows GateState.Allowed GateState.next
      (fun _ _ => True) .start := by
  apply gated_dataPortClosed
  intro closed
  cases closed with
  | true => trivial
  | false =>
    refine gated_still trivial rfl fun nonblocking => ?_
    refine follows_guard trivial fun _ => ?_
    refine ⟨trivial, fun accepted => ?_⟩
    cases accepted with
    | none => trivial
    | some connection =>
      refine gated_still trivial rfl fun locked => ?_
      apply follows_ite
      · exact fun _ => ⟨trivial, fun _ => trivial⟩
      · intro _
        refine gated_still trivial rfl fun _ => ?_
        refine gated_still trivial rfl fun _ => ?_
        exact gated_serveLoop ⟨rfl, rfl, fun h => (by cases h), fun h => absurd rfl h⟩ rounds

end Requests

end Gate
end AirDap

import AirDap.Dap.Session
import AirDap.Mode.Calls
import AirDap.Mode.Trace

/-! The two transports at work: their packets run down to the atomic operations on the mode
word and the ownership word, among transitions, route commands and the calls of the OTA
manager that other threads make. -/
namespace AirDap
open Concurrency

/-- `dap_transport_context_t` with the claim. -/
structure Link where
  context : TransportContext
  claim : Claim

/-- The claim of the transport, the handle of its operation, which is `{0}` whenever no
operation is running, and what is kept below the backend. -/
structure LinkHandles (S : Type) where
  claim : Claim
  operation : Operation
  kept : S

/-- What lies below the backend: the OTA manager and the target. -/
structure Below {I : Type} (J : I → Type) (S : Type) where
  debugAllowed : Code J Bool
  handleDisconnect : Code J Unit
  otaProcess : Bool → List Byte → ℕ → Code J (List Byte)
  target : (c : TargetCall) → S → Code J (c.Answer × S)

section Below

variable {I S : Type} {J : I → Type}

/-- The calls of the backend carried out. -/
def lowerCode (below : Below J S) :
    (c : LowerCall) → LinkHandles S → Code J (c.Answer × LinkHandles S)
  | .otaDebugAllowed, st => do
    let allowed ← below.debugAllowed
    pure (allowed, st)
  | .dapAcquire owner, st => do
    let (result, claim) ← modeDapAcquire owner.code true (some st.claim)
    pure (result = .allowed, { st with claim := claim.getD st.claim })
  | .operationBegin owner, st => do
    let (result, operation) ←
      dapOperationBegin owner.code true (some st.claim) (some st.operation)
    pure (result = .allowed, { st with operation := operation.getD st.operation })
  | .operationEnd, st => do
    let operation ← ownershipOperationEnd (some st.operation)
    pure ((), { st with operation := operation.getD st.operation })
  | .ownershipRelease, st => do
    let _ ← ownershipRelease (some st.claim)
    pure ((), st)
  | .ownershipCurrent, st => do
    let current ← ownershipCurrent
    pure (current, st)
  | .otaHandleDisconnect, st => do
    below.handleDisconnect
    pure ((), st)
  | .otaProcess connected request capacity, st => do
    let response ← below.otaProcess connected request capacity
    pure (response, st)
  | .target c, st => do
    let (answer, kept) ← below.target c st.kept
    pure (answer, { st with kept })

/-- `airdap_dap_process` down to the atomic operations and what lies below the backend. -/
def packetCode (below : Below J S) (start : S) (link : Link) (request : List Byte)
    (responseCapacity : ℕ) : Code J (List Byte × Link) := do
  let ((response, context), st) ←
    (dapProcess link.context request responseCapacity).handle (lowerCode below)
      ⟨link.claim, .zero, start⟩
  pure (response, ⟨context, st.claim⟩)

/-- A program of the processor carried out as in `packetCode`. -/
def carried {α : Type} (below : Below J S) (owner : Owner) (selectedPort : Byte)
    (p : DapCode α) (clockHz : Word) (st : LinkHandles S) :
    Code J ((α × Word) × LinkHandles S) :=
  (p.handle (backendCall owner selectedPort) clockHz).handle (lowerCode below) st

theorem carried_bind {α β : Type} (below : Below J S) (owner : Owner) (selectedPort : Byte)
    (p : DapCode α) (f : α → DapCode β) (clockHz : Word) (st : LinkHandles S) :
    carried below owner selectedPort (p >>= f) clockHz st =
      carried below owner selectedPort p clockHz st >>= fun r =>
        carried below owner selectedPort (f r.1.1) r.1.2 r.2 := by
  simp only [carried, Prog.handle_bind]

theorem packetCode_eq (below : Below J S) (start : S) (link : Link) (request : List Byte)
    (capacity : ℕ) :
    packetCode below start link request capacity =
      carried below link.context.owner link.context.processor.selectedPort
        (processPacket link.context.processor request capacity) link.context.clockHz
        ⟨link.claim, .zero, start⟩ >>= fun r =>
          pure (r.1.1.1, ⟨{ link.context with processor := r.1.1.2, clockHz := r.1.2 },
            r.2.claim⟩) := by
  simp only [packetCode, dapProcess, carried, Prog.handle_bind, Prog.bind_assoc]
  rfl

end Below

/-- A call that the OTA manager makes. -/
inductive OtaStep where
  | transition (rounds : ℕ) (event : ModeEvent)
  | suspend (rounds : ℕ)
  | resume (rounds : ℕ)

abbrev LinkCode (α : Type) := Code LowerCall.Answer α

def OtaStep.code : OtaStep → LinkCode Unit
  | .transition rounds event => do
    let _ ← modeTransition rounds event
    pure ()
  | .suspend rounds => do
    let _ ← ownershipSuspend rounds
    pure ()
  | .resume rounds => do
    let _ ← ownershipResume rounds
    pure ()

/-- What the OTA manager does to the two words in one call. It may make any calls here. -/
def otaCode : List OtaStep → LinkCode Unit
  | [] => pure ()
  | step :: steps => do
    step.code
    otaCode steps

/-- The calls of the OTA manager that touch neither word, and the operations of the target,
are left to the device. -/
def linkBelow (ota : List OtaStep) : Below LowerCall.Answer Unit where
  debugAllowed := io LowerCall.otaDebugAllowed
  handleDisconnect := otaCode ota
  otaProcess connected request capacity := do
    otaCode ota
    io (LowerCall.otaProcess connected request capacity)
  target c _ := do
    let answer ← io (.target c)
    pure (answer, ())

/-- `airdap_dap_process` down to the atomic operations. -/
def linkProcess (ota : List OtaStep) (link : Link) (request : List Byte)
    (responseCapacity : ℕ) : LinkCode (List Byte × Link) :=
  packetCode (linkBelow ota) () link request responseCapacity

/-- The response to a packet tells the transport that it is disconnected: a DAP_Connect is
answered with the disabled port, or a DAP_Disconnect is answered. -/
def Disconnecting (request response : List Byte) : Prop :=
  (byteAt request 0 = DapCommand.connect.code ∧
      response = [DapCommand.connect.code, dapPortDisabled]) ∨
    (byteAt request 0 = DapCommand.disconnect.code ∧ response ≠ [])

inductive LinkCall where
  | packet (transport : Transport) (request : List Byte) (responseCapacity : ℕ)
      (ota : List OtaStep)
  | sessionClosed (transport : Transport) (ota : List OtaStep)
  | transition (rounds : ℕ) (event : ModeEvent)
  | setDapRoute (rounds : ℕ) (route : Word)
  | suspend (rounds : ℕ)
  | resume (rounds : ℕ)
  | revoke
  | revokeOwner (owner : Word)

namespace LinkCall

@[reducible] def Value : LinkCall → Type
  | .packet _ _ _ _ => List Byte × Link
  | .sessionClosed _ _ => Link
  | .transition _ _ => ModeStateResult
  | .setDapRoute _ _ => ModeDapResult
  | .suspend _ | .resume _ | .revoke | .revokeOwner _ => OwnershipResult

/-- The transport whose context the call uses. -/
def transport : LinkCall → Option Transport
  | .packet transport _ _ _ | .sessionClosed transport _ => some transport
  | _ => none

def code (links : Transport → Link) : (c : LinkCall) → LinkCode c.Value
  | .packet transport request capacity ota => linkProcess ota (links transport) request capacity
  | .sessionClosed transport ota => do
    let (_, link) ← linkProcess ota (links transport) [0x03] 2
    pure link
  | .transition rounds event => modeTransition rounds event
  | .setDapRoute rounds route => AirDap.setDapRoute rounds route
  | .suspend rounds => ownershipSuspend rounds
  | .resume rounds => ownershipResume rounds
  | .revoke => ownershipRevoke
  | .revokeOwner owner => ownershipRevokeOwner owner

/-- What a call leaves in the context of its transport. -/
def store (links : Transport → Link) : (c : LinkCall) → c.Value → Transport → Link
  | .packet transport _ _ _, v => Function.update links transport v.2
  | .sessionClosed transport _, v => Function.update links transport v
  | _, _ => links

/-- The call is a packet of the transport with the command DAP_Connect. -/
def Connects (transport : Transport) : LinkCall → Prop
  | .packet transport' request _ _ =>
    transport' = transport ∧ byteAt request 0 = DapCommand.connect.code
  | _ => False

/-- The call with this value tells the transport that it is disconnected, or closes its
session. -/
def Disconnects (transport : Transport) : (c : LinkCall) → c.Value → Prop
  | .packet transport' request _ _, v =>
    transport' = transport ∧ Disconnecting request v.1
  | .sessionClosed transport' _, _ => transport' = transport
  | _, _ => False

instance (transport : Transport) : DecidablePred (Connects transport)
  | .packet _ _ _ _ => inferInstanceAs (Decidable (_ ∧ _))
  | .sessionClosed _ _ | .transition _ _ | .setDapRoute _ _ | .suspend _ | .resume _ | .revoke
  | .revokeOwner _ => inferInstanceAs (Decidable False)

end LinkCall

variable {T : Type}

abbrev LinkEvent (T : Type) :=
  Event T (Act LowerCall) (Resp LowerCall.Answer) (Device (Transport → Link)) LinkCall
    LinkCall.Value

abbrev LinkConfig (T : Type) :=
  Config T (Act LowerCall) (Resp LowerCall.Answer) (Device (Transport → Link)) LinkCall
    LinkCall.Value

/-- All packets of a transport come in through one thread. -/
def linkMachine (host : Transport → T) : Machine T (Act LowerCall) (Resp LowerCall.Answer)
    (Device (Transport → Link)) LinkCall LinkCall.Value where
  may t c _ := ∀ transport, c.transport = some transport → host transport = t
  code _ c w := c.code w.memory
  exec _ := Device.exec
  finish _ c v w := { w with memory := c.store w.memory v }

/-- The event makes the transport the owner. -/
def Grants (transport : Transport) : LinkEvent T → Prop
  | .acted _ (.storeOwnership desired) _ _ => controlState desired = transport.owner.code
  | _ => False

/-- The event tells the transport that it is disconnected. -/
def Tells (transport : Transport) : LinkEvent T → Prop
  | .returned _ c v => c.Disconnects transport v
  | _ => False

/-- The transport was told that it is disconnected and has not acquired since. -/
def Disconnected (transport : Transport) : List (LinkEvent T) → Prop
  | [] => False
  | e :: h => Tells transport e ∨ (Disconnected transport h ∧ ¬ Grants transport e)

variable [DecidableEq T]

/-- A DAP_Connect of the transport reads the mode word for the first time, and finds that the
policy refuses the transport although it holds the pins. -/
def Forfeits (transport : Transport) (h : List (LinkEvent T)) : LinkEvent T → Prop
  | .acted t .loadMode control w =>
    (∃ c ∈ lastCall t h, c.1.Connects transport) ∧ (trace t h).modeReads = 0 ∧
      controlState w.ownershipControl = transport.owner.code ∧
      dapPolicy control transport.owner.code true false ≠ .allowed
  | _ => False

/-- A DAP_Connect of the transport was refused while the transport held the pins. -/
def Forfeited (transport : Transport) : List (LinkEvent T) → Prop
  | [] => False
  | e :: h => Forfeits transport h e ∨ Forfeited transport h

section Decidable

instance (transport : Transport) (h : List (LinkEvent T)) : DecidablePred (Forfeits transport h)
  | .acted _ .loadMode _ _ => inferInstanceAs (Decidable (_ ∧ _ ∧ _ ∧ _))
  | .acted _ .loadOwnership _ _ | .acted _ (.storeOwnership _) _ _
  | .acted _ (.casOwnership _ _) _ _ | .acted _ (.casOwnershipWeak _ _) _ _
  | .acted _ .lineReset _ _ | .acted _ .releasePins _ _ | .acted _ (.casModeWeak _ _) _ _
  | .acted _ .addPreemption _ _ | .acted _ .subPreemption _ _ | .acted _ .loadPreemptions _ _
  | .acted _ (.saveRoute _) _ _ | .acted _ (.io _) _ _ => inferInstanceAs (Decidable False)
  | .called _ _ _ | .returned _ _ _ => inferInstanceAs (Decidable False)

instance Forfeited.decidable (transport : Transport) :
    DecidablePred (Forfeited transport : List (LinkEvent T) → Prop)
  | [] => inferInstanceAs (Decidable False)
  | _ :: h =>
    have := Forfeited.decidable transport h
    inferInstanceAs (Decidable (_ ∨ _))

end Decidable
end AirDap

import AirDap.Ota.Manager
import AirDap.Ownership.Dispatch

/-! Threads that make calls of the OTA manager for any clients, while others use the arbiter
and the mode state for anything but an update. -/
namespace AirDap
open Concurrency

variable {T : Type}

/-- The variables of the OTA manager, with the thread that has taken its mutex, and the flag
of the UART service that an update sets. -/
structure OtaMemory (T : Type) where
  session : OtaSession
  sessionMutex : Option T
  uartSuspended : Bool

/-- A lock blocks until the mutex is free, or fails. A suspend that fails may have set the flag
of the UART or not. The ESP OTA driver and the authorization may answer anything. -/
def OtaMemory.exec (t : T) (m : OtaMemory T) : (i : OtaIo) → i.Answer → OtaMemory T → Prop
  | .lockSession, r, m' =>
    (r = true ∧ m.sessionMutex = none ∧ m' = { m with sessionMutex := some t }) ∨
    (r = false ∧ m' = m)
  | .unlockSession, _, m' => m' = { m with sessionMutex := none }
  | .loadSession, r, m' => r = m.session ∧ m' = m
  | .storeSession session, _, m' => m' = { m with session }
  | .uartSuspend, r, m' => m' = { m with uartSuspended := true } ∨ (r = false ∧ m' = m)
  | .uartResume, r, m' =>
    (r = true ∧ m' = { m with uartSuspended := false }) ∨ (r = false ∧ m' = m)
  | .authorize _, _, m' | .getNextUpdatePartition, _, m' | .otaBegin _, _, m'
  | .otaWrite _ _, _, m' | .otaEnd _, _, m' | .otaAbort _, _, m' | .setBootPartition _, _, m'
  | .restart, _, m' => m' = m

abbrev OtaDevice (T : Type) := Device (OtaMemory T)

def otaExec (t : T) (w : OtaDevice T) : (a : Act OtaIo) → Resp OtaIo.Answer a → OtaDevice T → Prop
  | .io i, r, w' => ∃ m, w.memory.exec t i r m ∧ w' = { w with memory := m }
  | a, r, w' => w.exec a r w'

/-- The calls of the manager. -/
inductive OtaRequest where
  | debugAllowed
  | begin (client : Option OtaClient) (imageSize : Word)
  | write (client : Option OtaClient) (offset : Word) (data : Option (List Byte))
      (nextOffset : Option Word)
  | commit (client : Option OtaClient)
  | abort (client : Option OtaClient)
  | reboot (client : Option OtaClient)
  | prepareReboot (client : Option OtaClient)
  | disconnect (client : Option OtaClient)
  deriving DecidableEq

@[reducible] def OtaRequest.Value : OtaRequest → Type
  | .debugAllowed => Bool
  | .write _ _ _ _ => OtaStatus × Option Word
  | _ => OtaStatus

def OtaRequest.code (rounds : ℕ) : (c : OtaRequest) → OtaCode c.Value
  | .debugAllowed => otaDebugAllowed
  | .begin client imageSize => otaBeginForClient rounds client imageSize
  | .write client offset data nextOffset => otaWriteForClient rounds client offset data nextOffset
  | .commit client => otaCommitForClient rounds client
  | .abort client => otaAbortForClient rounds client
  | .reboot client => otaRebootForClient client
  | .prepareReboot client => otaPrepareReboot client
  | .disconnect client => otaDisconnectClient rounds client

/-- The events of the mode state that belong to an update. -/
def ModeEvent.Ota : ModeEvent → Prop
  | .otaStarted | .otaAborted | .otaFailed | .otaCommitted | .otaReset => True
  | _ => False

/-- The calls of the arbiter that belong to an update. -/
def OwnershipCall.Ota {H : Type} : OwnershipCall H → Prop
  | .suspend _ | .resume _ => True
  | _ => False

/-- A call of a thread: of the manager, or of the arbiter or the mode state with any values
behind its pointers. -/
inductive OtaCall where
  | ota (rounds : ℕ) (request : OtaRequest)
  | ownership (c : OwnershipCall Operation)
  | transition (rounds : ℕ) (event : ModeEvent)
  | setDapRoute (rounds : ℕ) (route : Word)
  | dapAcquire (requestedOwner : Word) (authenticated : Bool) (claim : Option Claim)
  | controlOperationBegin (authenticated : Bool) (operation : Option Operation)
  | dapOperationBegin (requestedOwner : Word) (authenticated : Bool) (claim : Option Claim)
      (operation : Option Operation)

namespace OtaCall

@[reducible] def Value : OtaCall → Type
  | .ota _ request => request.Value
  | .ownership c => c.Value
  | .transition _ _ => ModeStateResult
  | .setDapRoute _ _ => ModeDapResult
  | .dapAcquire _ _ _ => ModeDapResult × Option Claim
  | .controlOperationBegin _ _ | .dapOperationBegin _ _ _ _ => ModeDapResult × Option Operation

def code : (c : OtaCall) → OtaCode c.Value
  | .ota rounds request => request.code rounds
  | .ownership c => c.code id
  | .transition rounds event => modeTransition rounds event
  | .setDapRoute rounds route => AirDap.setDapRoute rounds route
  | .dapAcquire requestedOwner authenticated claim =>
    modeDapAcquire requestedOwner authenticated claim
  | .controlOperationBegin authenticated operation =>
    AirDap.controlOperationBegin authenticated operation
  | .dapOperationBegin requestedOwner authenticated claim operation =>
    AirDap.dapOperationBegin requestedOwner authenticated claim operation

/-- Only the manager starts and ends an update. -/
def Allowed : OtaCall → Prop
  | .ownership c => ¬ c.Ota
  | .transition _ event => ¬ event.Ota
  | _ => True

/-- The request to the manager. -/
def request : OtaCall → Option OtaRequest
  | .ota _ request => some request
  | _ => none

end OtaCall

def otaMachine (T : Type) :
    Machine T (Act OtaIo) (Resp OtaIo.Answer) (OtaDevice T) OtaCall OtaCall.Value where
  may _ c _ := c.Allowed
  code _ c _ := c.code
  exec := otaExec
  finish _ _ _ w := w

abbrev OtaConfig (T : Type) :=
  Config T (Act OtaIo) (Resp OtaIo.Answer) (OtaDevice T) OtaCall OtaCall.Value

abbrev OtaEvent (T : Type) :=
  Event T (Act OtaIo) (Resp OtaIo.Answer) (OtaDevice T) OtaCall OtaCall.Value

/-- The OTA field of the mode word. -/
def otaField (control : Word) : Word := fieldValue control modeOtaMask modeOtaShift

/-- The OTA field that belongs to the state of the session. -/
def OtaSessionState.field : OtaSessionState → Word
  | .idle => otaIdle
  | .receiving => otaReceiving
  | .committed => otaReadyToReboot

/-- The session, the mode word, the ownership word and the UART service agree. -/
structure Joint (w : OtaDevice T) : Prop where
  mode : otaField w.modeControl = w.memory.session.state.field
  ownership : controlState w.ownershipControl = stateSuspended ↔ w.memory.session.state ≠ .idle
  uart : w.memory.uartSuspended = true ↔ w.memory.session.state ≠ .idle

/-- A word in which ACTIVE is only set for a free or held state. -/
def WellFormed (control : Word) : Prop :=
  isActive control → controlState control = ownerNone ∨ isOwner (controlState control) = true

/-- The device after the components are initialized: no update has begun. -/
structure OtaFresh (w : OtaDevice T) : Prop where
  session : w.memory.session = .zero
  mutex : w.memory.sessionMutex = none
  uart : w.memory.uartSuspended = false
  initialized : w.modeControl &&& modeInitialized ≠ 0
  mode : otaField w.modeControl = otaIdle
  wellFormed : WellFormed w.ownershipControl
  settled : controlState w.ownershipControl ≠ stateTransition ∧
    controlState w.ownershipControl ≠ stateSuspended ∧
    controlState w.ownershipControl ≠ stateUninitialized

end AirDap

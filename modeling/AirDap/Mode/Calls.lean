import AirDap.Mode.Word
import AirDap.Ownership.Calls

/-! The calls of the mode state. Loops that retry a compare-exchange without a bound in the
source are given any number of rounds. -/
namespace AirDap
open Concurrency

variable {I : Type} {J : I → Type}

/-- `airdap_mode_snapshot_t`. -/
structure ModeSnapshot where
  usbPresent : Bool
  wifi : Word
  provisioning : Word
  ota : Word
  dapOwner : Word
  deriving DecidableEq, Repr

/-- `airdap_mode_state_get` with a snapshot to write to. -/
def modeGet : Code J (Except ModeStateResult ModeSnapshot) := do
  let control ← loadMode
  if control &&& modeInitialized = 0 then pure (.error .invalidState)
  else do
    let dapOwner ← ownershipCurrent
    pure (.ok {
      usbPresent := control &&& modeUsbPresent ≠ 0
      wifi := fieldValue control modeWifiMask modeWifiShift
      provisioning := fieldValue control modeProvisioningMask modeProvisioningShift
      ota := fieldValue control modeOtaMask modeOtaShift
      dapOwner })

/-- Drops a USB preemption that was counted. -/
def endPreemption (counted : Bool) : Code J Unit :=
  if counted then subPreemption else pure ()

def transitionLoop (event : ModeEvent) : ℕ → Word → Code J ModeStateResult
  | 0, _ => .spent
  | rounds + 1, current => do
    let attaching := event = .usbAttached
    if current &&& modeInitialized = 0 then do
      endPreemption attaching
      pure .invalidState
    else
      match nextControl current event with
      | .error result => do
        endPreemption attaching
        pure result
      | .ok next => do
        match ← casModeWeak current next with
        | some observed => transitionLoop event rounds observed
        | none => do
          if event = .usbAttached ∧ routeOf next ≠ routeNetwork then do
            let _ ← ownershipRevokeOwner ownerNetwork
            endPreemption attaching
            pure .ok
          else do
            endPreemption attaching
            pure .ok

/-- `airdap_mode_state_transition`. -/
def modeTransition (rounds : ℕ) (event : ModeEvent) : Code J ModeStateResult :=
  if event = .usbAttached then do
    addPreemption
    transitionLoop event rounds (← loadMode)
  else do
    transitionLoop event rounds (← loadMode)

def dapAdmissionForControl (control requestedOwner : Word) (authenticated boardControl : Bool) :
    Code J ModeDapResult :=
  if dapPolicy control requestedOwner authenticated boardControl ≠ .allowed then
    pure (dapPolicy control requestedOwner authenticated boardControl)
  else do
    let owner ← ownershipCurrent
    pure (if owner ≠ ownerNone ∧ owner ≠ requestedOwner then .busy else .allowed)

def installRoute (selected : Word) : ℕ → Word → Code J Unit
  | 0, _ => .spent
  | rounds + 1, current => do
    match ← casModeWeak current (routedControl current selected) with
    | none => pure ()
    | some observed => installRoute selected rounds observed

/-- The body of `do … while (false)` in `airdap_mode_state_set_dap_route`. -/
def selectRoute (rounds : ℕ) (route current : Word) : Code J ModeDapResult :=
  if current &&& modeInitialized = 0 then pure .invalidState
  else if current &&& modeOtaMask ≠ 0 then pure .busy
  else do
    if (← loadPreemptions) ≠ 0 then pure .busy
    else
      let selected := selectedRoute current route
      if selected = routeOf current then pure .allowed
      else do
        let saved ← saveRoute selected
        if !saved then pure .storageError
        else do
          installRoute selected rounds current
          pure .allowed

/-- `airdap_mode_state_set_dap_route`. -/
def setDapRoute (rounds : ℕ) (route : Word) : Code J ModeDapResult :=
  if route < routeAuto ∨ route > routeNetworkAutoToggle then pure .invalidArgument
  else do
    let (begun, operation) ← ownershipControlBegin ownerDiagnostic (some .zero)
    if ownershipResult begun ≠ .allowed then pure (ownershipResult begun)
    else if operation.map Operation.owner ≠ some ownerNone then do
      let _ ← ownershipOperationEnd operation
      pure .busy
    else do
      let result ← selectRoute rounds route (← loadMode)
      let _ ← ownershipOperationEnd operation
      pure result

variable (requestedOwner : Word) (authenticated : Bool) (claim : Option Claim)

/-- The revocation in `dap_acquire` of a network owner by a USB request: the mode word and
the admission to go on with. -/
def preemptNetwork (before : Word)
    (result : ModeDapResult) : Code J (Word × ModeDapResult) :=
  if result = .busy ∧ requestedOwner = ownerUsb ∧ routeOf before ≠ routeNetwork then do
    if (← ownershipCurrent) = ownerNetwork then do
      let revoked ← ownershipRevokeOwner ownerNetwork
      if revoked = .ok ∨ revoked = .notOwner then do
        let before ← loadMode
        let result ← dapAdmissionForControl before requestedOwner authenticated false
        pure (before, result)
      else pure (before, ownershipResult revoked)
    else pure (before, result)
  else pure (before, result)

/-- The end of `dap_acquire` after an acquire that was allowed: the claim is given back if
the policy has changed since `before`. -/
def confirmAcquire (before : Word)
    (claim : Option Claim) : Code J (ModeDapResult × Option Claim) := do
  let after ← loadMode
  if dapPolicyStamp before requestedOwner ≠ dapPolicyStamp after requestedOwner then do
    let released ← ownershipRelease claim
    if released ≠ .ok ∧ released ≠ .notOwner then pure (ownershipResult released, claim)
    else do
      let latest ← dapAdmissionForControl after requestedOwner authenticated false
      pure (if latest = .allowed then .busy else latest, claim)
  else pure (.allowed, claim)

def acquireResult (acquired : OwnershipResult) : ModeDapResult :=
  if requestedOwner = ownerDiagnostic ∧ acquired = .alreadyOwner then .busy
  else ownershipResult acquired

/-- The static `dap_acquire`. -/
def dapAcquire :
    Code J (ModeDapResult × Option Claim) :=
  if claim.isNone then pure (.invalidArgument, claim)
  else do
    let before ← loadMode
    let result ← dapAdmissionForControl before requestedOwner authenticated false
    let (before, result) ← preemptNetwork requestedOwner authenticated before result
    if result ≠ .allowed then pure (result, some .zero)
    else do
      let (acquired, claim) ← ownershipAcquire requestedOwner (some .zero)
      if acquireResult requestedOwner acquired ≠ .allowed then
        pure (acquireResult requestedOwner acquired, claim)
      else confirmAcquire requestedOwner authenticated before claim

/-- `airdap_mode_state_dap_acquire`. -/
def modeDapAcquire :
    Code J (ModeDapResult × Option Claim) :=
  if requestedOwner = ownerUsb then do
    addPreemption
    let result ← dapAcquire requestedOwner authenticated claim
    subPreemption
    pure result
  else dapAcquire requestedOwner authenticated claim

/-- What both begins of the mode state do with the reservation they made. -/
def confirmOperation (authenticated boardControl : Bool) (before : Word)
    (operation : Option Operation) : Code J (ModeDapResult × Option Operation) := do
  let after ← loadMode
  if dapPolicyStamp before requestedOwner ≠ dapPolicyStamp after requestedOwner ∨
      (boardControl ∧
        (before ^^^ after) &&& (modeDebugShellActive ||| modeDebugShellEpochMask) ≠ 0) then do
    let operation ← ownershipOperationEnd operation
    let latest ← dapAdmissionForControl after requestedOwner authenticated boardControl
    pure (if latest = .allowed then .busy else latest, operation)
  else pure (.allowed, operation)

/-- A begin between two readings of the mode word. -/
def admittedBegin (authenticated boardControl : Bool)
    (operation : Option Operation) (begins : Code J (OwnershipResult × Option Operation)) :
    Code J (ModeDapResult × Option Operation) := do
  let before ← loadMode
  let result ← dapAdmissionForControl before requestedOwner authenticated boardControl
  if result ≠ .allowed then pure (result, operation)
  else do
    let (begun, operation) ← begins
    if ownershipResult begun ≠ .allowed then pure (ownershipResult begun, operation)
    else confirmOperation requestedOwner authenticated boardControl before operation

/-- `airdap_mode_state_control_operation_begin`. -/
def controlOperationBegin (authenticated : Bool) (operation : Option Operation) :
    Code J (ModeDapResult × Option Operation) :=
  if operation.isNone then pure (.invalidArgument, operation)
  else admittedBegin ownerNetwork authenticated true operation
    (ownershipControlBegin ownerNetwork operation)

/-- `airdap_mode_state_dap_operation_begin`. -/
def dapOperationBegin (operation : Option Operation) : Code J (ModeDapResult × Option Operation) :=
  if claim.isNone || operation.isNone then pure (.invalidArgument, operation)
  else admittedBegin requestedOwner authenticated false operation
    (ownershipOperationBegin claim operation)

end AirDap

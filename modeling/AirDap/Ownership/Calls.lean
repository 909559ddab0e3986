import AirDap.Device

/-! The calls of the SWD ownership arbiter. Pointer arguments are values that are `none`
for a null pointer, and a call returns the values it leaves behind them. The retry loops
of suspend and resume have no bound in the source: they are given any number of rounds. -/
namespace AirDap
open Concurrency

variable {I : Type} {J : I → Type}

def releasePins (generation releasedState : Word) : Code J OwnershipResult := do
  let released ← backendReleasePins
  storeOwnership (makeControl generation (if released then releasedState else stateOffline))
  pure (if released then .ok else .offline)

/-- `airdap_dap_ownership_initialize`; `backend` tells whether the backend and both of its
callbacks are there. -/
def ownershipInitialize (backend : Bool) : Code J OwnershipResult :=
  if !backend then pure .invalidArgument
  else do
    match ← casOwnership stateUninitialized stateTransition with
    | some _ => pure .invalidState
    | none => do
      storeOwnership ownerNone
      pure .ok

def ownershipCurrent : Code J Word := do
  let state := controlState (← loadOwnership)
  pure (if isOwner state then state else ownerNone)

def ownershipAcquire (owner : Word) (claim : Option Claim) :
    Code J (OwnershipResult × Option Claim) :=
  if claim.isNone || !isOwner owner then pure (.invalidArgument, claim)
  else do
    let expected ← loadOwnership
    let state := controlState expected
    if state = owner then pure (.alreadyOwner, some ⟨owner, controlGeneration expected⟩)
    else if state = stateOffline then pure (.offline, some .zero)
    else if state = stateUninitialized then pure (.invalidState, some .zero)
    else if state = stateSuspended then pure (.busy, some .zero)
    else if state ≠ ownerNone ∨ isActive expected then pure (.busy, some .zero)
    else do
      let generation := controlGeneration expected
      match ← casOwnership expected (makeControl generation stateTransition) with
      | some observed =>
        let observedState := controlState observed
        if observedState = owner then
          pure (.alreadyOwner, some ⟨owner, controlGeneration observed⟩)
        else if observedState = stateOffline then pure (.offline, some .zero)
        else if observedState = stateUninitialized then pure (.invalidState, some .zero)
        else if observedState = stateSuspended then pure (.busy, some .zero)
        else pure (.busy, some .zero)
      | none =>
        if generation = controlGenerationMax then do
          storeOwnership (makeControl generation stateOffline)
          pure (.offline, some .zero)
        else do
          let reset ← backendLineReset
          if !reset then do
            let _ ← releasePins generation ownerNone
            pure (.offline, some .zero)
          else do
            let nextGeneration := generation + 1
            storeOwnership (makeControl nextGeneration owner)
            pure (.ok, some ⟨owner, nextGeneration⟩)

def ownershipRelease (claim : Option Claim) : Code J OwnershipResult :=
  match claim with
  | none => pure .invalidArgument
  | some c =>
    if !validClaim (some c) then pure .invalidArgument
    else do
      match ← casOwnership (makeControl c.generation c.owner)
          (makeControl c.generation stateTransition) with
      | some observed => pure (claimFailureResult observed c)
      | none => releasePins c.generation ownerNone

def ownershipOperationBegin (claim : Option Claim) (operation : Option Operation) :
    Code J (OwnershipResult × Option Operation) :=
  match claim, operation with
  | some c, some op =>
    if !validClaim (some c) then pure (.invalidArgument, some op)
    else if op.active then pure (.invalidState, some op)
    else do
      let expected := makeControl c.generation c.owner
      match ← casOwnership expected (expected ||| controlActive) with
      | some observed => pure (claimFailureResult observed c, some op)
      | none => pure (.ok, some ⟨c.owner, c.generation, true⟩)
  | _, op => pure (.invalidArgument, op)

def ownershipControlBegin (owner : Word) (operation : Option Operation) :
    Code J (OwnershipResult × Option Operation) :=
  match operation with
  | none => pure (.invalidArgument, none)
  | some op =>
    if !isOwner owner then pure (.invalidArgument, some op)
    else if op.active then pure (.invalidState, some op)
    else do
      let current ← loadOwnership
      let state := controlState current
      if state = stateOffline then pure (.offline, some op)
      else if state = stateUninitialized then pure (.invalidState, some op)
      else if (state ≠ ownerNone ∧ state ≠ owner) ∨ isActive current then pure (.busy, some op)
      else do
        match ← casOwnership current (current ||| controlActive) with
        | some _ => pure (.busy, some op)
        | none => pure (.ok, some ⟨state, controlGeneration current, true⟩)

def ownershipOperationEnd (operation : Option Operation) : Code J (Option Operation) :=
  match operation with
  | none => pure none
  | some op =>
    if !op.active then pure (some op)
    else do
      let expected := makeControl op.generation op.owner ||| controlActive
      let _ ← casOwnership expected (expected &&& ~~~controlActive)
      pure (some .zero)

def ownershipRevoke : Code J OwnershipResult := do
  let current ← loadOwnership
  let state := controlState current
  if state = ownerNone ∧ ¬ isActive current then pure .ok
  else if state = stateOffline then pure .offline
  else if state = stateUninitialized then pure .invalidState
  else if !isOwner state || isActive current then pure .busy
  else do
    let generation := controlGeneration current
    match ← casOwnership current (makeControl generation stateTransition) with
    | some observed =>
      let observedState := controlState observed
      if observedState = ownerNone then pure .ok
      else if observedState = stateOffline then pure .offline
      else if observedState = stateUninitialized then pure .invalidState
      else pure .busy
    | none => releasePins generation ownerNone

def ownershipRevokeOwner (owner : Word) : Code J OwnershipResult :=
  if !isOwner owner then pure .invalidArgument
  else do
    let current ← loadOwnership
    let state := controlState current
    if state = stateOffline then pure .offline
    else if state = stateUninitialized then pure .invalidState
    else if state = stateTransition ∨ state = stateSuspended then pure .busy
    else if state ≠ owner then pure .notOwner
    else if isActive current then pure .busy
    else do
      let generation := controlGeneration current
      match ← casOwnership current (makeControl generation stateTransition) with
      | some observed =>
        let observedState := controlState observed
        if observedState = stateOffline then pure .offline
        else if observedState = stateUninitialized then pure .invalidState
        else if observedState = owner ∨ observedState = stateTransition ∨
            observedState = stateSuspended then pure .busy
        else pure .notOwner
      | none => releasePins generation ownerNone

def suspendLoop : ℕ → Word → Code J OwnershipResult
  | 0, _ => .spent
  | rounds + 1, current =>
    let state := controlState current
    if state = stateSuspended then pure .ok
    else if state = stateOffline then pure .offline
    else if state = stateUninitialized then pure .invalidState
    else if state = stateTransition ∨ isActive current then pure .busy
    else
      let generation := controlGeneration current
      if state = ownerNone then do
        match ← casOwnershipWeak current (makeControl generation stateSuspended) with
        | none => pure .ok
        | some observed => suspendLoop rounds observed
      else if !isOwner state then pure .busy
      else do
        match ← casOwnershipWeak current (makeControl generation stateTransition) with
        | some observed => suspendLoop rounds observed
        | none => releasePins generation stateSuspended

def ownershipSuspend (rounds : ℕ) : Code J OwnershipResult := do
  suspendLoop rounds (← loadOwnership)

def resumeLoop : ℕ → Word → Code J OwnershipResult
  | 0, _ => .spent
  | rounds + 1, current =>
    let state := controlState current
    if state = ownerNone then pure .ok
    else if state = stateOffline then pure .offline
    else if state = stateUninitialized then pure .invalidState
    else if state ≠ stateSuspended then pure .busy
    else do
      match ← casOwnershipWeak current (makeControl (controlGeneration current) ownerNone) with
      | none => pure .ok
      | some observed => resumeLoop rounds observed

def ownershipResume (rounds : ℕ) : Code J OwnershipResult := do
  resumeLoop rounds (← loadOwnership)

end AirDap

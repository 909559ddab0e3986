import AirDap.Ownership.Word

/-! The packed mode word: USB, Wi-Fi, provisioning and OTA state, the debug shell, the DAP
route and the epochs of the policy. -/
namespace AirDap

/-- `airdap_mode_event_t`; `unknown` is any other number passed for it. -/
inductive ModeEvent where
  | usbAttached | usbDetached
  | wifiStopped | wifiDisconnected | wifiConnecting | wifiOnline
  | provisioningStarted | provisioningSucceeded | provisioningTimedOut | provisioningReset
  | otaStarted | otaAborted | otaFailed | otaCommitted | otaReset
  | debugShellStarted | debugShellEnded
  | unknown (value : Word)
  deriving DecidableEq, Repr

/-- `airdap_mode_state_result_t`. -/
inductive ModeStateResult where
  | ok | invalidArgument | invalidState | invalidTransition | storageError
  deriving DecidableEq, Repr

/-- `airdap_mode_dap_result_t`. -/
inductive ModeDapResult where
  | allowed | busy | offline | unauthenticated | invalidArgument | invalidState | storageError
  deriving DecidableEq, Repr

def wifiStopped : Word := 0
def wifiDisconnected : Word := 1
def wifiConnecting : Word := 2
def wifiOnline : Word := 3

def provisioningIdle : Word := 0
def provisioningActive : Word := 1
def provisioningSucceeded : Word := 2
def provisioningTimedOut : Word := 3

def otaIdle : Word := 0
def otaReceiving : Word := 1
def otaReadyToReboot : Word := 2

/-! The values of `airdap_dap_route_t`. The last two are commands that are never stored. -/

def routeAuto : Word := 0
def routeUsb : Word := 1
def routeNetwork : Word := 2
def routeToggle : Word := 3
def routeNetworkAutoToggle : Word := 4

def modeUsbPresent : Word := 1 <<< 0
def modeWifiShift : ℕ := 1
def modeWifiMask : Word := 0x3 <<< modeWifiShift
def modeProvisioningShift : ℕ := 3
def modeProvisioningMask : Word := 0x3 <<< modeProvisioningShift
def modeOtaShift : ℕ := 5
def modeOtaMask : Word := 0x3 <<< modeOtaShift
def modeInitialized : Word := 1 <<< 7
def modeUsbOtaEpochShift : ℕ := 8
def modeUsbOtaEpochMask : Word := 0xFF <<< modeUsbOtaEpochShift
def modeWifiEpochShift : ℕ := 16
def modeWifiEpochMask : Word := 0xFF <<< modeWifiEpochShift
def modeDebugShellActive : Word := 1 <<< 24
def modeDebugShellEpochShift : ℕ := 25
def modeDebugShellEpochMask : Word := 0x1F <<< modeDebugShellEpochShift
def modeDapRouteShift : ℕ := 30
def modeDapRouteMask : Word := 0x3 <<< modeDapRouteShift

variable (control mask : Word) (shift : ℕ)

def replaceField (value : Word) : Word :=
  (control &&& ~~~mask) ||| (value <<< shift)

def fieldValue : Word := (control &&& mask) >>> shift

def incrementField : Word :=
  replaceField control mask shift ((fieldValue control mask shift + 1) &&& (mask >>> shift))

def routeOf (control : Word) : Word := fieldValue control modeDapRouteMask modeDapRouteShift

/-- The change that the `switch` of `next_control` makes before any epoch is counted. -/
def switchControl (current : Word) : ModeEvent → Except ModeStateResult Word
  | .usbAttached => .ok (current ||| modeUsbPresent)
  | .usbDetached => .ok (current &&& ~~~modeUsbPresent)
  | .debugShellStarted => .ok (current ||| modeDebugShellActive)
  | .debugShellEnded => .ok (current &&& ~~~modeDebugShellActive)
  | .wifiStopped => .ok (replaceField current modeWifiMask modeWifiShift wifiStopped)
  | .wifiDisconnected =>
    if fieldValue current modeWifiMask modeWifiShift = wifiStopped then .error .invalidTransition
    else .ok (replaceField current modeWifiMask modeWifiShift wifiDisconnected)
  | .wifiConnecting => .ok (replaceField current modeWifiMask modeWifiShift wifiConnecting)
  | .wifiOnline =>
    if fieldValue current modeWifiMask modeWifiShift ≠ wifiConnecting then
      .error .invalidTransition
    else .ok (replaceField current modeWifiMask modeWifiShift wifiOnline)
  | .provisioningStarted =>
    if fieldValue current modeProvisioningMask modeProvisioningShift = provisioningActive then
      .error .invalidTransition
    else .ok (replaceField current modeProvisioningMask modeProvisioningShift provisioningActive)
  | .provisioningSucceeded =>
    if fieldValue current modeProvisioningMask modeProvisioningShift ≠ provisioningActive then
      .error .invalidTransition
    else
      .ok (replaceField current modeProvisioningMask modeProvisioningShift provisioningSucceeded)
  | .provisioningTimedOut =>
    if fieldValue current modeProvisioningMask modeProvisioningShift ≠ provisioningActive then
      .error .invalidTransition
    else
      .ok (replaceField current modeProvisioningMask modeProvisioningShift provisioningTimedOut)
  | .provisioningReset =>
    .ok (replaceField current modeProvisioningMask modeProvisioningShift provisioningIdle)
  | .otaStarted =>
    if fieldValue current modeOtaMask modeOtaShift ≠ otaIdle then .error .invalidTransition
    else .ok (replaceField current modeOtaMask modeOtaShift otaReceiving)
  | .otaAborted | .otaFailed =>
    if fieldValue current modeOtaMask modeOtaShift ≠ otaReceiving then .error .invalidTransition
    else .ok (replaceField current modeOtaMask modeOtaShift otaIdle)
  | .otaCommitted =>
    if fieldValue current modeOtaMask modeOtaShift ≠ otaReceiving then .error .invalidTransition
    else .ok (replaceField current modeOtaMask modeOtaShift otaReadyToReboot)
  | .otaReset => .ok (replaceField current modeOtaMask modeOtaShift otaIdle)
  | .unknown _ => .error .invalidArgument

/-- The epoch that an event counts. -/
def countEpoch (current next : Word) : ModeEvent → Word
  | .usbAttached | .usbDetached
  | .otaStarted | .otaAborted | .otaFailed | .otaCommitted | .otaReset =>
    incrementField next modeUsbOtaEpochMask modeUsbOtaEpochShift
  | .wifiStopped | .wifiDisconnected | .wifiConnecting | .wifiOnline =>
    incrementField next modeWifiEpochMask modeWifiEpochShift
  | _ =>
    if (current ^^^ next) &&& modeDebugShellActive ≠ 0 then
      incrementField next modeDebugShellEpochMask modeDebugShellEpochShift
    else next

def nextControl (current : Word) (event : ModeEvent) : Except ModeStateResult Word := do
  let next ← switchControl current event
  pure (countEpoch current next event)

/-! The cases of the `switch` in `dap_admission_for_control`. -/

def usbPolicy (control : Word) : ModeDapResult :=
  if routeOf control = routeNetwork then .busy
  else if control &&& modeUsbPresent = 0 then .offline
  else .allowed

def networkPolicy (control : Word) (boardControl : Bool) : ModeDapResult :=
  if (if boardControl then control &&& modeDebugShellActive ≠ 0
      else routeOf control = routeUsb ∨
        (routeOf control = routeAuto ∧ control &&& modeUsbPresent ≠ 0)) then .busy
  else if fieldValue control modeWifiMask modeWifiShift ≠ wifiOnline then .offline
  else .allowed

def diagnosticPolicy (control : Word) : ModeDapResult :=
  if control &&& modeUsbPresent = 0 then .offline else .allowed

/-- The checks of `dap_admission_for_control` that read only the mode word. -/
def dapPolicy (control requestedOwner : Word) (authenticated boardControl : Bool) :
    ModeDapResult :=
  if requestedOwner ≠ ownerUsb ∧ requestedOwner ≠ ownerNetwork ∧
      requestedOwner ≠ ownerDiagnostic then .invalidArgument
  else if control &&& modeInitialized = 0 then .invalidState
  else if requestedOwner = ownerNetwork ∧ !authenticated then .unauthenticated
  else if fieldValue control modeOtaMask modeOtaShift ≠ otaIdle then .busy
  else if requestedOwner = ownerUsb then usbPolicy control
  else if requestedOwner = ownerNetwork then networkPolicy control boardControl
  else diagnosticPolicy control

def ownershipResult : OwnershipResult → ModeDapResult
  | .ok | .alreadyOwner => .allowed
  | .busy => .busy
  | .offline => .offline
  | .invalidArgument => .invalidArgument
  | .notOwner | .invalidState => .invalidState

theorem ownershipResult_ne {r : OwnershipResult} (hok : r ≠ .ok) (halready : r ≠ .alreadyOwner) :
    ownershipResult r ≠ .allowed := by
  cases r with
  | ok => exact absurd rfl hok
  | alreadyOwner => exact absurd rfl halready
  | _ => decide

def dapPolicyStamp (control owner : Word) : Word :=
  let stamp := control &&&
    (modeUsbPresent ||| modeOtaMask ||| modeUsbOtaEpochMask ||| modeDapRouteMask)
  if owner = ownerNetwork then stamp ||| (control &&& (modeWifiMask ||| modeWifiEpochMask))
  else stamp

/-- The route that a command selects. -/
def selectedRoute (current route : Word) : Word :=
  if route = routeToggle then
    if routeOf current = routeUsb ∨ (routeOf current = routeAuto ∧ current &&& modeUsbPresent ≠ 0)
    then routeNetwork else routeUsb
  else if route = routeNetworkAutoToggle then
    if routeOf current = routeNetwork then routeAuto else routeNetwork
  else route

/-- The mode word with a selected route. -/
def routedControl (current selected : Word) : Word :=
  incrementField (replaceField current modeDapRouteMask modeDapRouteShift selected)
    modeUsbOtaEpochMask modeUsbOtaEpochShift

section Fields

variable {c d m f : Word} {n : ℕ}

theorem and_eq_of_and_eq (h : c &&& m = d &&& m) (hf : m &&& f = f) : c &&& f = d &&& f := by
  rw [← hf, ← BitVec.and_assoc, h, BitVec.and_assoc]

theorem replaceField_and {v : Word} (hm : ~~~m &&& f = f) (hv : (v <<< n) &&& f = 0) :
    replaceField c m n v &&& f = c &&& f := by
  simp [replaceField, BitVec.and_or_distrib_right, BitVec.and_assoc, hm, hv]

theorem incrementField_and (hm : ~~~m &&& f = f) (hv : ((m >>> n) <<< n) &&& f = 0) :
    incrementField c m n &&& f = c &&& f := by
  apply replaceField_and hm
  simp [BitVec.shiftLeft_and_distrib, BitVec.and_assoc, hv]

theorem or_and_of_disjoint (h : m &&& f = 0) : (c ||| m) &&& f = c &&& f := by
  simp [BitVec.and_or_distrib_right, h]

theorem and_and_of_le (h : m &&& f = f) : (c &&& m) &&& f = c &&& f := by
  rw [BitVec.and_assoc, h]

theorem eq_of_guard {p : Prop} [Decidable p] {e : ModeStateResult} {a b : Word}
    (h : (if p then .error e else .ok a : Except ModeStateResult Word) = .ok b) : a = b := by
  split at h
  · cases h
  · cases h
    rfl

theorem not_and_of_disjoint (h : m &&& f = 0) : ~~~m &&& f = f := by
  apply BitVec.eq_of_getLsbD_eq
  intro i hi
  have hbit := congrArg (·.getLsbD i) h
  simp at hbit ⊢
  grind

theorem and_eq_zero_of_le (h : m &&& f = 0) (hd : d &&& m = d) : d &&& f = 0 := by
  rw [← hd, BitVec.and_assoc, h]
  simp

/-- The bits that an event may change. -/
def ModeEvent.changes : ModeEvent → Word
  | .usbAttached | .usbDetached => modeUsbPresent ||| modeUsbOtaEpochMask
  | .wifiStopped | .wifiDisconnected | .wifiConnecting | .wifiOnline =>
    modeWifiMask ||| modeWifiEpochMask
  | .provisioningStarted | .provisioningSucceeded | .provisioningTimedOut | .provisioningReset =>
    modeProvisioningMask ||| modeDebugShellEpochMask
  | .otaStarted | .otaAborted | .otaFailed | .otaCommitted | .otaReset =>
    modeOtaMask ||| modeUsbOtaEpochMask
  | .debugShellStarted | .debugShellEnded => modeDebugShellActive ||| modeDebugShellEpochMask
  | .unknown _ => modeDebugShellEpochMask

section Event

variable {event : ModeEvent} {next : Word}

theorem switchControl_and (hf : event.changes &&& f = 0) (h : switchControl c event = .ok next) :
    next &&& f = c &&& f := by
  have hdisjoint {d : Word} (hd : d &&& event.changes = d) : d &&& f = 0 := and_eq_zero_of_le hf hd
  have hreplace {m v : Word} {n : ℕ} (hm : m &&& event.changes = m)
      (hv : (v <<< n) &&& m = v <<< n) : replaceField c m n v &&& f = c &&& f :=
    replaceField_and (not_and_of_disjoint (hdisjoint hm)) (and_eq_zero_of_le (hdisjoint hm) hv)
  cases event with
  | usbAttached => cases h; exact or_and_of_disjoint (hdisjoint (by decide))
  | usbDetached => cases h; exact and_and_of_le (not_and_of_disjoint (hdisjoint (by decide)))
  | debugShellStarted => cases h; exact or_and_of_disjoint (hdisjoint (by decide))
  | debugShellEnded => cases h; exact and_and_of_le (not_and_of_disjoint (hdisjoint (by decide)))
  | wifiStopped => cases h; exact hreplace (by decide) (by decide)
  | wifiConnecting => cases h; exact hreplace (by decide) (by decide)
  | provisioningReset => cases h; exact hreplace (by decide) (by decide)
  | otaReset => cases h; exact hreplace (by decide) (by decide)
  | unknown value => cases h
  | _ =>
    rw [← eq_of_guard h]
    exact hreplace (by decide) (by decide)

theorem countEpoch_and (hf : event.changes &&& f = 0) (next : Word) :
    countEpoch c next event &&& f = next &&& f := by
  have hincrement {m : Word} {n : ℕ} (hm : m &&& event.changes = m)
      (hv : ((m >>> n) <<< n) &&& m = (m >>> n) <<< n) :
      incrementField next m n &&& f = next &&& f :=
    incrementField_and (not_and_of_disjoint (and_eq_zero_of_le hf hm))
      (and_eq_zero_of_le (and_eq_zero_of_le hf hm) hv)
  have hshell (hm : modeDebugShellEpochMask &&& event.changes = modeDebugShellEpochMask) :
      (if (c ^^^ next) &&& modeDebugShellActive ≠ 0 then
        incrementField next modeDebugShellEpochMask modeDebugShellEpochShift else next) &&& f =
        next &&& f := by
    split
    · exact hincrement hm (by decide)
    · rfl
  cases event with
  | unknown value => exact hshell (BitVec.and_self)
  | _ => first | exact hshell (by decide) | exact hincrement (by decide) (by decide)

theorem nextControl_and (hf : event.changes &&& f = 0) (h : nextControl c event = .ok next) :
    next &&& f = c &&& f := by
  unfold nextControl at h
  cases hs : switchControl c event with
  | error e => rw [hs] at h; cases h
  | ok switched =>
    rw [hs] at h
    cases h
    rw [countEpoch_and hf, switchControl_and hf hs]

/-- The bits that no event changes. -/
def settledMask : Word := modeInitialized ||| modeDapRouteMask

theorem nextControl_settled (h : nextControl c event = .ok next) :
    next &&& settledMask = c &&& settledMask := by
  refine nextControl_and ?_ h
  cases event with
  | unknown value => exact (by decide : modeDebugShellEpochMask &&& settledMask = 0)
  | _ => decide

end Event

theorem routeOf_eq (h : c &&& settledMask = d &&& settledMask) : routeOf c = routeOf d := by
  rw [routeOf, routeOf, fieldValue, fieldValue,
    and_eq_of_and_eq (f := modeDapRouteMask) h (by decide)]

theorem initialized_eq (h : c &&& settledMask = d &&& settledMask) :
    c &&& modeInitialized = d &&& modeInitialized :=
  and_eq_of_and_eq h (by decide)

theorem routeOf_lt (c : Word) : (routeOf c).toNat < 4 := by
  have h := (c &&& modeDapRouteMask).isLt
  rw [routeOf, fieldValue, BitVec.toNat_ushiftRight, Nat.shiftRight_eq_div_pow]
  change _ / 2 ^ 30 < 4
  omega

theorem routeOf_cases (c : Word) : routeOf c = routeAuto ∨ routeOf c = routeUsb ∨
    routeOf c = routeNetwork ∨ routeOf c = routeToggle := by
  have h := routeOf_lt c
  have hr : (routeOf c).toNat = 0 ∨ (routeOf c).toNat = 1 ∨ (routeOf c).toNat = 2 ∨
      (routeOf c).toNat = 3 := by omega
  rcases hr with hr | hr | hr | hr
  · exact .inl (BitVec.eq_of_toNat_eq hr)
  · exact .inr (.inl (BitVec.eq_of_toNat_eq hr))
  · exact .inr (.inr (.inl (BitVec.eq_of_toNat_eq hr)))
  · exact .inr (.inr (.inr (BitVec.eq_of_toNat_eq hr)))

end Fields

section Policy

variable {control before after owner : Word} {authenticated boardControl : Bool}

/-- The admission policy: what the mode word must show for an owner. A board-control
operation of the network depends on the debug shell instead of the route. -/
def Admissible (control owner : Word) (authenticated boardControl : Bool) : Prop :=
  control &&& modeInitialized ≠ 0 ∧ (owner = ownerNetwork → authenticated = true) ∧
  fieldValue control modeOtaMask modeOtaShift = otaIdle ∧
  ((owner = ownerUsb ∧ control &&& modeUsbPresent ≠ 0 ∧ routeOf control ≠ routeNetwork) ∨
    (owner = ownerNetwork ∧ fieldValue control modeWifiMask modeWifiShift = wifiOnline ∧
      if boardControl then control &&& modeDebugShellActive = 0
      else routeOf control = routeNetwork ∨
        (routeOf control = routeAuto ∧ control &&& modeUsbPresent = 0)) ∨
    (owner = ownerDiagnostic ∧ control &&& modeUsbPresent ≠ 0))

theorem refuse_iff {p : Prop} [Decidable p] {r r' : ModeDapResult} (hr : r ≠ .allowed) :
    (if p then r else r') = .allowed ↔ ¬ p ∧ r' = .allowed := by
  by_cases hp : p <;> simp [hp, hr]

theorem usbPolicy_allowed : usbPolicy control = .allowed ↔
    routeOf control ≠ routeNetwork ∧ control &&& modeUsbPresent ≠ 0 := by
  simp [usbPolicy, refuse_iff]

theorem diagnosticPolicy_allowed : diagnosticPolicy control = .allowed ↔
    control &&& modeUsbPresent ≠ 0 := by
  simp [diagnosticPolicy]

theorem networkPolicy_allowed (hroute : routeOf control ≠ routeToggle) :
    networkPolicy control boardControl = .allowed ↔
      fieldValue control modeWifiMask modeWifiShift = wifiOnline ∧
      if boardControl then control &&& modeDebugShellActive = 0
      else routeOf control = routeNetwork ∨
        (routeOf control = routeAuto ∧ control &&& modeUsbPresent = 0) := by
  rw [networkPolicy, refuse_iff (by decide), refuse_iff (by decide), ne_eq, not_not, and_comm]
  cases boardControl with
  | true => simp
  | false =>
    rcases routeOf_cases control with h | h | h | h
    · simp [h, routeAuto, routeUsb, routeNetwork]
    · simp [h, routeAuto, routeUsb, routeNetwork]
    · simp [h, routeAuto, routeUsb, routeNetwork]
    · exact absurd h hroute

/-- The checks of the mode word admit exactly what the policy allows. -/
theorem dapPolicy_allowed (hroute : routeOf control ≠ routeToggle) :
    dapPolicy control owner authenticated boardControl = .allowed ↔
      Admissible control owner authenticated boardControl := by
  rw [dapPolicy, refuse_iff (by decide), refuse_iff (by decide), refuse_iff (by decide),
    refuse_iff (by decide), Admissible]
  by_cases husb : owner = ownerUsb
  · have hn : ownerUsb ≠ ownerNetwork := by decide
    have hd : ownerUsb ≠ ownerDiagnostic := by decide
    simp [husb, hn, hd, usbPolicy_allowed, and_comm]
  · by_cases hnet : owner = ownerNetwork
    · have hu : ownerNetwork ≠ ownerUsb := by decide
      have hd : ownerNetwork ≠ ownerDiagnostic := by decide
      simp [hnet, hu, hd, networkPolicy_allowed hroute]
    · by_cases hdiag : owner = ownerDiagnostic
      · have hu : ownerDiagnostic ≠ ownerUsb := by decide
        have hn : ownerDiagnostic ≠ ownerNetwork := by decide
        simp [hdiag, hu, hn, diagnosticPolicy_allowed]
      · simp [husb, hnet, hdiag]

/-- The part of the mode word that the stamp of an owner keeps. -/
def stampMask (owner : Word) : Word :=
  (modeUsbPresent ||| modeOtaMask ||| modeUsbOtaEpochMask ||| modeDapRouteMask) |||
    if owner = ownerNetwork then modeWifiMask ||| modeWifiEpochMask else 0

theorem dapPolicyStamp_eq (control owner : Word) :
    dapPolicyStamp control owner = control &&& stampMask owner := by
  unfold dapPolicyStamp stampMask
  split <;> simp [BitVec.and_or_distrib_left]

theorem stamp_and (f : Word) (h : dapPolicyStamp before owner = dapPolicyStamp after owner)
    (hf : stampMask owner &&& f = f) : before &&& f = after &&& f := by
  rw [dapPolicyStamp_eq, dapPolicyStamp_eq] at h
  exact and_eq_of_and_eq h hf

theorem stamp_field (f : Word) (n : ℕ)
    (h : dapPolicyStamp before owner = dapPolicyStamp after owner)
    (hf : stampMask owner &&& f = f) : fieldValue before f n = fieldValue after f n := by
  rw [fieldValue, fieldValue, stamp_and f h hf]

theorem dapPolicy_of_stamp (h : dapPolicyStamp before owner = dapPolicyStamp after owner)
    (hinit : after &&& modeInitialized ≠ 0)
    (hshell : boardControl = true →
      before &&& modeDebugShellActive = after &&& modeDebugShellActive)
    (hallowed : dapPolicy before owner authenticated boardControl = .allowed) :
    dapPolicy after owner authenticated boardControl = .allowed := by
  have husb := stamp_and modeUsbPresent h (by unfold stampMask; split <;> decide)
  have hota := stamp_field modeOtaMask modeOtaShift h (by unfold stampMask; split <;> decide)
  have hroute : routeOf before = routeOf after :=
    stamp_field modeDapRouteMask modeDapRouteShift h (by unfold stampMask; split <;> decide)
  have hwifi (ho : owner = ownerNetwork) :=
    stamp_field modeWifiMask modeWifiShift h (by subst ho; decide)
  have hnetwork (ho : owner = ownerNetwork) :
      networkPolicy before boardControl = networkPolicy after boardControl := by
    unfold networkPolicy
    rw [hwifi ho, hroute, husb]
    cases boardControl with
    | true => rw [hshell rfl]
    | false => rfl
  unfold dapPolicy at hallowed ⊢
  rw [refuse_iff (by decide), refuse_iff (by decide), refuse_iff (by decide),
    refuse_iff (by decide)] at hallowed ⊢
  obtain ⟨howner, -, hauth, hidle, hswitch⟩ := hallowed
  refine ⟨howner, hinit, hauth, hota ▸ hidle, ?_⟩
  by_cases hu : owner = ownerUsb
  · rw [if_pos hu] at hswitch ⊢
    rwa [usbPolicy, hroute, husb] at hswitch
  · by_cases hn : owner = ownerNetwork
    · rw [if_neg hu, if_pos hn] at hswitch ⊢
      rwa [hnetwork hn] at hswitch
    · rw [if_neg hu, if_neg hn] at hswitch ⊢
      rwa [diagnosticPolicy, husb] at hswitch

theorem and_eq_of_xor_and {f : Word} (h : (before ^^^ after) &&& f = 0) :
    before &&& f = after &&& f := by
  apply BitVec.eq_of_getLsbD_eq
  intro i hi
  have hbit := congrArg (·.getLsbD i) h
  simp at hbit ⊢
  grind

theorem selectedRoute_stored {current route : Word} (h : ¬ route > routeNetworkAutoToggle) :
    selectedRoute current route = routeAuto ∨ selectedRoute current route = routeUsb ∨
      selectedRoute current route = routeNetwork := by
  have hroute : route = routeAuto ∨ route = routeUsb ∨ route = routeNetwork ∨
      route = routeToggle ∨ route = routeNetworkAutoToggle := by
    unfold routeNetworkAutoToggle at h
    unfold routeAuto routeUsb routeNetwork routeToggle routeNetworkAutoToggle
    bv_omega
  unfold selectedRoute
  rcases hroute with rfl | rfl | rfl | rfl | rfl
  · exact .inl rfl
  · exact .inr (.inl rfl)
  · exact .inr (.inr rfl)
  · rw [if_pos rfl]
    split
    · exact .inr (.inr rfl)
    · exact .inr (.inl rfl)
  · rw [if_neg (by decide), if_pos rfl]
    split
    · exact .inl rfl
    · exact .inr (.inr rfl)

theorem routeOf_routedControl (current : Word) {selected : Word}
    (h : selected = routeAuto ∨ selected = routeUsb ∨ selected = routeNetwork) :
    routeOf (routedControl current selected) = selected := by
  have hclear : current &&& ~~~modeDapRouteMask &&& modeDapRouteMask = 0 := by
    rw [BitVec.and_assoc, show ~~~modeDapRouteMask &&& modeDapRouteMask = 0 by decide]
    simp
  rw [routeOf, fieldValue, routedControl, incrementField_and (by decide) (by decide),
    replaceField, BitVec.and_or_distrib_right, hclear]
  rcases h with rfl | rfl | rfl <;> decide

theorem routedControl_initialized {current selected : Word}
    (h : selected = routeAuto ∨ selected = routeUsb ∨ selected = routeNetwork) :
    routedControl current selected &&& modeInitialized = current &&& modeInitialized := by
  rw [routedControl, incrementField_and (by decide) (by decide)]
  rcases h with rfl | rfl | rfl <;> exact replaceField_and (by decide) (by decide)

end Policy
end AirDap

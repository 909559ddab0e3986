import AirDap.Mode.Policy
import AirDap.Wifi.Credentials

/-! The provisioning window: a button command opens it, events of the provisioning manager, session
requests, a timer and further commands act on it and close it. All of them are handled by one event
loop, one after the other. -/
namespace AirDap

/-- `window_outcome_t`. -/
inductive WindowOutcome where
  | none | success | restore | clear | clearFailed
  deriving DecidableEq, Repr

/-- `airdap_button_command_t`; a value that is not a command is `count`. -/
inductive ButtonCommand where
  | none | dapToggle | provisioning | clearNetworkRestart | dapUsb | dapNetwork | dapAuto
  | restart | targetReset | wifiToggle | targetPowerToggle | targetPowerCycle
  | dapNetworkAutoToggle | count
  deriving DecidableEq, Repr

/-- The calls of other components that are of interest, in the order in which they are made. A
network clear is recorded with its success, and the restart after it with whether the window was
active then. -/
inductive WindowAct where
  | mode (event : ModeEvent)
  | stopProvisioning | managerDeinit | finishProvisioning
  | cleared (ok : Bool)
  | restart (windowActive : Bool)
  deriving DecidableEq, Repr

/-- `wifi_sta_config_t`. -/
structure StationConfig where
  ssid : Vector Byte 32
  password : Vector Byte 64
  deriving DecidableEq, Repr

/-- The static variables of the component, the flag of the network authentication and whether the
timer runs. The credentials that are pending are those that are valid. `log` has the latest call
first. -/
structure ProvisioningWindow where
  managerInitialized : Bool
  wifiManagerSuspended : Bool
  windowActive : Bool
  stopRequested : Bool
  pendingCredentials : Option Wifi.Credentials
  restartPending : Bool
  windowOutcome : WindowOutcome
  managedSession : Bool
  managedOwner : Word
  sessionControlStatus : Word
  pairing : Bool
  timer : Bool
  log : List WindowAct
  deriving DecidableEq, Repr

/-- What the steps of `start_window` come to. -/
structure StartSteps where
  identity : Bool
  credentials : EspErr
  managerInit : EspErr
  disableAutoStop : EspErr
  endpointCreate : EspErr
  prepareProvisioning : EspErr
  startProvisioning : EspErr
  endpointRegister : EspErr
  timerStart : EspErr
  deriving DecidableEq, Repr

/-- The events of the provisioning manager, with what the calls made for them come to. -/
inductive NetworkProvEvent where
  | credRecv (station : Option StationConfig) (stage : EspErr)
  | credFail
  | credSuccess (accept timer : EspErr)
  | ended
  | other
  deriving DecidableEq, Repr

/-- What the calls for a session request come to. -/
structure SessionSteps where
  reset : EspErr
  storage : EspErr
  timer : EspErr
  deriving DecidableEq, Repr

/-- What the calls for a button command come to. -/
structure ButtonSteps where
  busy : Bool
  device : EspErr
  route : ModeDapResult
  clear : EspErr
  start : StartSteps
  deriving DecidableEq, Repr

/-- The events that `provisioning_event_handler` handles. -/
inductive ProvisioningEvent where
  | network (event : NetworkProvEvent)
  | session (owner : Word) (command : Byte) (steps : SessionSteps)
  | timeout
  | button (command : ButtonCommand) (steps : ButtonSteps)
  deriving DecidableEq, Repr

namespace ProvisioningWindow

section

variable (w : ProvisioningWindow)

/-- A call of another component. -/
def act (a : WindowAct) : ProvisioningWindow := { w with log := a :: w.log }

/-- `publish_mode`; a failure is only logged. -/
def publishMode (event : ModeEvent) : ProvisioningWindow :=
  w.act (.mode event)

/-- `stop_window_timer`. -/
def stopWindowTimer : ProvisioningWindow := { w with timer := false }

/-- `clear_pending_credentials`. -/
def clearPendingCredentials : ProvisioningWindow :=
  { w with pendingCredentials := none }

/-- `maybe_restart_after_clear`. -/
def maybeRestartAfterClear : ProvisioningWindow :=
  if w.restartPending ∧ ¬ w.windowActive then
    { w with restartPending := false }.act (.restart w.windowActive)
  else w

end

section Flag

-- what setting the flag of the network authentication comes to
variable (sets : EspErr) (w : ProvisioningWindow)

/-- `set_pairing_window_active`. -/
def setPairing (active : Bool) : ProvisioningWindow :=
  if sets = .ok then { w with pairing := active } else w

/-- The outcome that is announced when the window stops. -/
def announce : WindowOutcome → ProvisioningWindow
  | .restore => w.publishMode .provisioningTimedOut
  | .clear => w.publishMode .provisioningReset
  | _ => w

/-- A success is not taken back by a stop that restores. -/
def effectiveOutcome (outcome : WindowOutcome) : WindowOutcome :=
  if w.windowOutcome = .success ∧ outcome = .restore then .success else outcome

/-- The part of `request_window_stop` that closes a managed session and the pairing. -/
def closeSession (outcome : WindowOutcome) : ProvisioningWindow :=
  let w := if w.managedSession ∧ outcome = .success then w.publishMode .provisioningSucceeded else w
  setPairing sets { w with managedSession := false } false

/-- `request_window_stop`. -/
def requestWindowStop (outcome : WindowOutcome) : ProvisioningWindow :=
  if !w.windowActive then w
  else
    let outcome := w.effectiveOutcome outcome
    let w := closeSession sets w outcome
    if w.stopRequested then
      if outcome = .clear ∧ w.windowOutcome ≠ .clear then
        { w with windowOutcome := .clear }.publishMode .provisioningReset
      else w
    else
      ({ w with stopRequested := true, windowOutcome := outcome }.stopWindowTimer.announce
        outcome).act .stopProvisioning

/-- The manager and the Wi-Fi controller are given back. -/
def releaseManager : ProvisioningWindow :=
  if w.managerInitialized then { w with managerInitialized := false }.act .managerDeinit else w

def resumeWifi : ProvisioningWindow :=
  if w.wifiManagerSuspended then
    { w with wifiManagerSuspended := false }.act .finishProvisioning
  else w

/-- `cleanup_failed_window_start`. -/
def cleanupFailedWindowStart : ProvisioningWindow :=
  let w := (setPairing sets w false).releaseManager.resumeWifi.clearPendingCredentials
  { w with windowActive := false, stopRequested := false, windowOutcome := .none }

/-- The end of `start_window`, once the manager provisions and the endpoint is there. -/
def openWindow (timerStart : EspErr) : ProvisioningWindow × EspErr :=
  let w := { w.clearPendingCredentials with
    windowActive := true, stopRequested := false, windowOutcome := .none }
  let w := w.publishMode .provisioningStarted
  if timerStart ≠ .ok then (requestWindowStop sets w .restore, timerStart)
  else ({ w with timer := true }, .ok)

/-- `start_window`. -/
def startWindow (steps : StartSteps) : ProvisioningWindow × EspErr :=
  if !steps.identity then (w, .invalidState)
  else if steps.credentials ≠ .ok then (w, steps.credentials)
  else if steps.managerInit ≠ .ok then (cleanupFailedWindowStart sets w, steps.managerInit)
  else
    let w := { w with managerInitialized := true }
    if steps.disableAutoStop ≠ .ok then (cleanupFailedWindowStart sets w, steps.disableAutoStop)
    else
      let w := { w with managedSession := false, sessionControlStatus := 0 }
      if steps.endpointCreate ≠ .ok then (cleanupFailedWindowStart sets w, steps.endpointCreate)
      else if steps.prepareProvisioning ≠ .ok then
        (cleanupFailedWindowStart sets w, steps.prepareProvisioning)
      else
        let w := { w with wifiManagerSuspended := true }
        if steps.startProvisioning ≠ .ok then
          (cleanupFailedWindowStart sets w, steps.startProvisioning)
        else if sets ≠ .ok then
          (cleanupFailedWindowStart sets (w.act .stopProvisioning), sets)
        else
          let w := setPairing sets w true
          if steps.endpointRegister ≠ .ok then
            (cleanupFailedWindowStart sets ((setPairing sets w false).act .stopProvisioning),
              steps.endpointRegister)
          else openWindow sets w steps.timerStart

/-- `capture_candidate_credentials`; a text ends before its first zero. -/
def captureCandidateCredentials (station : Option StationConfig)
    (stage : EspErr) : ProvisioningWindow × EspErr :=
  match station with
  | none => (w, .invalidArg)
  | some station =>
    let ssid := station.ssid.toList.takeWhile (· ≠ 0)
    let password := station.password.toList.takeWhile (· ≠ 0)
    if ssid = [] ∨ Wifi.ssidMaxLength < ssid.length ∨
        Wifi.passwordMaxLength < password.length then (w, .invalidSize)
    else if stage ≠ .ok then (w.clearPendingCredentials, stage)
    else
      let credentials : Wifi.Credentials := ⟨padded _ ssid, padded _ password,
        .ofNat _ ssid.length, .ofNat _ password.length⟩
      ({ w with pendingCredentials := some credentials }, .ok)

/-- `handle_window_end`. -/
def handleWindowEnd : ProvisioningWindow :=
  let w := setPairing sets { w with managedSession := false }.stopWindowTimer false
  let w := { w.releaseManager with windowActive := false, stopRequested := false }
  w.clearPendingCredentials.resumeWifi.maybeRestartAfterClear

/-- The candidate is accepted: without a managed session the window stays for a while. -/
def handleCredSuccess (accept timer : EspErr) : ProvisioningWindow :=
  if w.stopRequested ∨ w.windowOutcome ≠ .none then w.clearPendingCredentials
  else
    let error := if w.pendingCredentials.isSome then accept else .invalidState
    let w := w.clearPendingCredentials
    if error ≠ .ok then requestWindowStop sets w .restore
    else
      let w := { w with windowOutcome := .success }
      if w.managedSession then w
      else
        let w := (w.publishMode .provisioningSucceeded).stopWindowTimer
        if timer ≠ .ok then requestWindowStop sets w .success else { w with timer := true }

/-- `handle_network_event`. -/
def handleNetworkEvent (event : NetworkProvEvent) : ProvisioningWindow :=
  if !w.windowActive then w
  else match event with
    | .credRecv station stage =>
      if w.stopRequested ∨ w.windowOutcome ≠ .none then w
      else
        let (w, error) := w.captureCandidateCredentials station stage
        if error ≠ .ok then requestWindowStop sets w .restore else w
    | .credFail => w.clearPendingCredentials
    | .credSuccess accept timer => handleCredSuccess sets w accept timer
    | .ended => handleWindowEnd sets w
    | .other => w

/-- CLEAR_NETWORK_RESTART in `execute_button_command`. -/
def clearNetworkRestart (clear : EspErr) : ProvisioningWindow × EspErr :=
  let w := setPairing sets w false
  if sets ≠ .ok then (requestWindowStop sets w .clearFailed, sets)
  else
    let w := w.act (.cleared (clear = .ok))
    if clear ≠ .ok then (requestWindowStop sets w .clearFailed, clear)
    else
      let w := { w with restartPending := true }
      let w := if w.windowActive then requestWindowStop sets w .clear
        else w.publishMode .provisioningReset
      (w.maybeRestartAfterClear, .ok)

/-- `execute_button_command`. -/
def executeButtonCommand (command : ButtonCommand) (steps : ButtonSteps) :
    ProvisioningWindow × EspErr :=
  if steps.busy then (w, .invalidState)
  else match command with
    | .restart | .targetReset | .wifiToggle | .targetPowerToggle | .targetPowerCycle =>
      if w.windowActive then (w, .invalidState) else (w, steps.device)
    | .none => (w, .ok)
    | .dapToggle | .dapNetworkAutoToggle | .dapUsb | .dapNetwork | .dapAuto =>
      if steps.route = .allowed then (w, .ok)
      else (w, if steps.route = .storageError then .fail else .invalidState)
    | .provisioning =>
      if w.windowActive then
        (requestWindowStop sets w (if w.windowOutcome = .success then .success else .restore), .ok)
      else startWindow sets w steps.start
    | .clearNetworkRestart => clearNetworkRestart sets w steps.clear
    | .count => (w, .invalidArg)

/-- The commands of a session request, with the result that they are answered with. -/
def sessionCommand (owner : Word) (command : Byte) (steps : SessionSteps) :
    ProvisioningWindow × EspErr :=
  if command = 1 ∧ w.windowOutcome = .none then
    ({ w with managedOwner := owner, managedSession := true }, .ok)
  else if w.managedSession then
    if command = 2 then (w, .ok)
    else if command = 3 then
      let result := if steps.reset = .ok then steps.storage else steps.reset
      if result = .ok then ({ w with windowOutcome := .none }.clearPendingCredentials, .ok)
      else (w, result)
    else if command = 4 then (requestWindowStop sets w .restore, .ok)
    else (w, .invalidState)
  else (w, .invalidState)

/-- A session request that succeeds starts the timer again, unless it stops the window. -/
def extendWindow (command : Byte) (result timer : EspErr) :
    ProvisioningWindow × EspErr :=
  if result = .ok ∧ command ≠ 4 then
    let w := w.stopWindowTimer
    if timer ≠ .ok then (requestWindowStop sets w .restore, timer)
    else ({ w with timer := true }, .ok)
  else (w, result)

/-- `handle_session_control`. -/
def handleSessionControl (owner : Word) (command : Byte)
    (steps : SessionSteps) : ProvisioningWindow :=
  let (w, result) :=
    if w.windowActive ∧ ¬ w.stopRequested ∧ (¬ w.managedSession ∨ w.managedOwner = owner) then
      let (w, result) := sessionCommand sets w owner command steps
      extendWindow sets w command result steps.timer
    else (w, .invalidState)
  { w with sessionControlStatus := command.setWidth 32 ||| if result = .ok then 0x100 else 0 }

/-- `provisioning_event_handler`. -/
def handle : ProvisioningEvent → ProvisioningWindow
  | .network event => handleNetworkEvent sets w event
  | .session owner command steps => handleSessionControl sets w owner command steps
  | .timeout => requestWindowStop sets w .restore
  | .button command steps => (executeButtonCommand sets w command steps).1

end Flag

/-- The component before its first event. -/
def initial : ProvisioningWindow where
  managerInitialized := false
  wifiManagerSuspended := false
  windowActive := false
  stopRequested := false
  pendingCredentials := none
  restartPending := false
  windowOutcome := .none
  managedSession := false
  managedOwner := 0
  sessionControlStatus := 0
  pairing := false
  timer := false
  log := []

/-- The component after these events, each with what setting the flag comes to while it is
handled. -/
def run (events : List (EspErr × ProvisioningEvent)) : ProvisioningWindow :=
  events.foldl (fun w event => handle event.1 w event.2) initial

end ProvisioningWindow

end AirDap

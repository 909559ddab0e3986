import AirDap.Provisioning.Window

/-! When pairing over BLE is open, and when the device restarts after a network clear. -/
namespace AirDap

namespace WindowAct

/-- A call that is neither a network clear nor a restart. -/
def Neutral : WindowAct → Prop
  | .mode _ | .stopProvisioning | .managerDeinit | .finishProvisioning => True
  | .cleared _ | .restart _ => False

/-- A network clear has succeeded since the last restart. The latest call comes first. -/
def ClearedSince : List WindowAct → Prop
  | [] => False
  | .cleared ok :: before => ok = true ∨ ClearedSince before
  | .restart _ :: _ => False
  | .mode _ :: before | .stopProvisioning :: before | .managerDeinit :: before
  | .finishProvisioning :: before => ClearedSince before

/-- Every restart follows a network clear that has succeeded, and finds the window inactive. -/
def Justified : List WindowAct → Prop
  | [] => True
  | .restart active :: before => active = false ∧ ClearedSince before ∧ Justified before
  | .cleared _ :: before | .mode _ :: before | .stopProvisioning :: before
  | .managerDeinit :: before | .finishProvisioning :: before => Justified before

theorem Neutral.clearedSince_iff {a : WindowAct} (h : a.Neutral) (before : List WindowAct) :
    ClearedSince (a :: before) ↔ ClearedSince before := by
  cases a with
  | cleared ok => exact h.elim
  | restart active => exact h.elim
  | _ => exact Iff.rfl

theorem Neutral.justified_iff {a : WindowAct} (h : a.Neutral) (before : List WindowAct) :
    Justified (a :: before) ↔ Justified before := by
  cases a with
  | cleared ok => exact h.elim
  | restart active => exact h.elim
  | _ => exact Iff.rfl

theorem ClearedSince.exists_cleared {log : List WindowAct} (h : ClearedSince log) :
    ∃ between before, log = between ++ .cleared true :: before ∧
      ∀ a ∈ between, ∀ active, a ≠ .restart active := by
  induction log with
  | nil => exact h.elim
  | cons a log ih =>
    have hlater : ClearedSince log → (∀ active, a ≠ .restart active) →
        ∃ between before, a :: log = between ++ .cleared true :: before ∧
          ∀ a ∈ between, ∀ active, a ≠ .restart active := by
      intro hlog hne
      obtain ⟨between, before, rfl, hbetween⟩ := ih hlog
      refine ⟨a :: between, before, rfl, ?_⟩
      intro b hb
      rcases List.mem_cons.mp hb with rfl | hb
      · exact hne
      · exact hbetween b hb
    cases a with
    | cleared ok =>
      rcases h with rfl | hlog
      · exact ⟨[], log, rfl, by simp⟩
      · exact hlater hlog (by simp)
    | restart active => exact h.elim
    | mode event => exact hlater h (by simp)
    | stopProvisioning => exact hlater h (by simp)
    | managerDeinit => exact hlater h (by simp)
    | finishProvisioning => exact hlater h (by simp)

theorem Justified.of_append {after before : List WindowAct} (h : Justified (after ++ before)) :
    Justified before := by
  induction after with
  | nil => exact h
  | cons a after ih =>
    cases a with
    | restart active => exact ih h.2.2
    | _ => exact ih h

end WindowAct

namespace ProvisioningWindow

/-- Pairing is open only in an active window without a request to stop. -/
def Closed (w : ProvisioningWindow) : Prop :=
  w.pairing = true → w.windowActive = true ∧ w.stopRequested = false

/-- The restarts so far are justified, and so is one that is pending. -/
def Restartable (w : ProvisioningWindow) : Prop :=
  WindowAct.Justified w.log ∧ (w.restartPending = true → WindowAct.ClearedSince w.log)

/-- Only neutral calls are made, and no restart becomes pending. -/
def Extends (w r : ProvisioningWindow) : Prop :=
  r.restartPending = w.restartPending ∧
    ∃ acts : List WindowAct, (∀ a ∈ acts, a.Neutral) ∧ r.log = acts ++ w.log

namespace Extends

variable {w r t : ProvisioningWindow}

theorem refl (w : ProvisioningWindow) : w.Extends w := ⟨rfl, [], by simp, rfl⟩

theorem trans (h : w.Extends r) (h' : r.Extends t) : w.Extends t := by
  obtain ⟨hpending, acts, hacts, hlog⟩ := h
  obtain ⟨hpending', acts', hacts', hlog'⟩ := h'
  refine ⟨hpending'.trans hpending, acts' ++ acts, ?_, by rw [hlog', hlog, List.append_assoc]⟩
  intro a ha
  rcases List.mem_append.mp ha with ha | ha
  · exact hacts' a ha
  · exact hacts a ha

theorem of_eq (hpending : r.restartPending = w.restartPending) (hlog : r.log = w.log) :
    w.Extends r :=
  ⟨hpending, [], by simp, hlog⟩

theorem act (h : w.Extends r) {a : WindowAct} (ha : a.Neutral) : w.Extends (r.act a) :=
  h.trans ⟨rfl, [a], by simpa using ha, rfl⟩

theorem restartable (h : w.Extends r) (hw : w.Restartable) : r.Restartable := by
  obtain ⟨hpending, acts, hacts, hlog⟩ := h
  unfold Restartable
  rw [hpending, hlog]
  clear hlog
  induction acts with
  | nil => exact hw
  | cons a acts ih =>
    have hrest := ih fun b hb => hacts b (List.mem_cons_of_mem _ hb)
    have hneutral := hacts a (List.mem_cons_self ..)
    exact ⟨(hneutral.justified_iff _).mpr hrest.1,
      fun hp => (hneutral.clearedSince_iff _).mpr (hrest.2 hp)⟩

end Extends

section Functions

variable {sets : EspErr} {w r : ProvisioningWindow}

section

variable (h : w.Extends r)
include h

theorem Extends.setPairing (active : Bool) : w.Extends (setPairing sets r active) := by
  unfold ProvisioningWindow.setPairing
  split_ifs
  · exact h.trans (.of_eq rfl rfl)
  · exact h

variable (outcome : WindowOutcome)

theorem Extends.closeSession : w.Extends (closeSession sets r outcome) := by
  unfold ProvisioningWindow.closeSession
  refine Extends.setPairing ?_ false
  split_ifs
  · have hmode : w.Extends (r.act (.mode .provisioningSucceeded)) := h.act (by trivial)
    exact hmode.trans (.of_eq rfl rfl)
  · exact h.trans (.of_eq rfl rfl)

theorem Extends.announce : w.Extends (r.announce outcome) := by
  cases outcome with
  | restore => exact h.act (by trivial)
  | clear => exact h.act (by trivial)
  | _ => exact h

theorem Extends.requestWindowStop : w.Extends (requestWindowStop sets r outcome) := by
  have hclose : w.Extends (ProvisioningWindow.closeSession sets r (r.effectiveOutcome outcome)) :=
    h.closeSession _
  unfold ProvisioningWindow.requestWindowStop
  dsimp only
  split_ifs
  · exact h
  · exact Extends.act (hclose.trans (.of_eq rfl rfl)) (by trivial)
  · exact hclose
  · refine Extends.act (Extends.announce (hclose.trans ?_) _) (by trivial)
    exact .of_eq rfl rfl

theorem Extends.releaseManager : w.Extends r.releaseManager := by
  unfold ProvisioningWindow.releaseManager
  split_ifs
  · exact Extends.act (h.trans (.of_eq rfl rfl)) (by trivial)
  · exact h

theorem Extends.resumeWifi : w.Extends r.resumeWifi := by
  unfold ProvisioningWindow.resumeWifi
  split_ifs
  · exact Extends.act (h.trans (.of_eq rfl rfl)) (by trivial)
  · exact h

theorem Extends.cleanup : w.Extends (cleanupFailedWindowStart sets r) := by
  unfold cleanupFailedWindowStart
  exact (((h.setPairing false).releaseManager).resumeWifi).trans (.of_eq rfl rfl)

theorem Extends.openWindow (timerStart : EspErr) : w.Extends (openWindow sets r timerStart).1 := by
  have hopen : w.Extends (({ r.clearPendingCredentials with
      windowActive := true, stopRequested := false, windowOutcome := .none }).publishMode
        .provisioningStarted) := Extends.act (h.trans (.of_eq rfl rfl)) (by trivial)
  unfold ProvisioningWindow.openWindow
  dsimp only
  split_ifs
  · exact hopen.requestWindowStop _
  · exact hopen.trans (.of_eq rfl rfl)

end

/-- A start is refused at once, or fails and is cleaned up, or opens the window. -/
theorem startWindow_cases (sets : EspErr) (w : ProvisioningWindow) (steps : StartSteps) :
    (startWindow sets w steps).1 = w ∨
    (∃ r, w.Extends r ∧ (startWindow sets w steps).1 = cleanupFailedWindowStart sets r) ∨
    ∃ r, w.Extends r ∧ (startWindow sets w steps).1 = (openWindow sets r steps.timerStart).1 := by
  have hsuspended : w.Extends { w with
      managerInitialized := true, managedSession := false, sessionControlStatus := 0,
      wifiManagerSuspended := true } := .of_eq rfl rfl
  unfold startWindow
  by_cases hidentity : (!steps.identity) = true
  · rw [if_pos hidentity]
    exact .inl rfl
  rw [if_neg hidentity]
  by_cases hcredentials : steps.credentials ≠ .ok
  · rw [if_pos hcredentials]
    exact .inl rfl
  rw [if_neg hcredentials]
  -- from here on every failure is cleaned up
  refine .inr ?_
  by_cases hinit : steps.managerInit ≠ .ok
  · rw [if_pos hinit]
    exact .inl ⟨_, .refl w, rfl⟩
  rw [if_neg hinit]
  dsimp only
  by_cases hauto : steps.disableAutoStop ≠ .ok
  · rw [if_pos hauto]
    refine .inl ⟨_, ?_, rfl⟩
    exact .of_eq rfl rfl
  rw [if_neg hauto]
  by_cases hcreate : steps.endpointCreate ≠ .ok
  · rw [if_pos hcreate]
    refine .inl ⟨_, ?_, rfl⟩
    exact .of_eq rfl rfl
  rw [if_neg hcreate]
  by_cases hprepare : steps.prepareProvisioning ≠ .ok
  · rw [if_pos hprepare]
    refine .inl ⟨_, ?_, rfl⟩
    exact .of_eq rfl rfl
  rw [if_neg hprepare]
  by_cases hprovision : steps.startProvisioning ≠ .ok
  · rw [if_pos hprovision]
    refine .inl ⟨_, ?_, rfl⟩
    exact .of_eq rfl rfl
  rw [if_neg hprovision]
  by_cases hsets : sets ≠ .ok
  · rw [if_pos hsets]
    exact .inl ⟨_, hsuspended.act (by trivial), rfl⟩
  rw [if_neg hsets]
  by_cases hregister : steps.endpointRegister ≠ .ok
  · rw [if_pos hregister]
    exact .inl ⟨_, ((hsuspended.setPairing true).setPairing false).act (by trivial), rfl⟩
  rw [if_neg hregister]
  exact .inr ⟨_, hsuspended.setPairing true, rfl⟩

theorem extends_startWindow (steps : StartSteps) : w.Extends (startWindow sets w steps).1 := by
  obtain heq | ⟨r, hr, heq⟩ | ⟨r, hr, heq⟩ := startWindow_cases sets w steps
  · rw [heq]
    exact .refl w
  · rw [heq]
    exact hr.cleanup
  · rw [heq]
    exact hr.openWindow _

theorem extends_capture (station : Option StationConfig) (stage : EspErr) :
    w.Extends (w.captureCandidateCredentials station stage).1 := by
  unfold captureCandidateCredentials
  cases station with
  | none => exact .refl w
  | some station =>
    dsimp only
    split_ifs
    · exact .refl w
    · exact .of_eq rfl rfl
    · exact .of_eq rfl rfl

theorem extends_handleCredSuccess (accept timer : EspErr) :
    w.Extends (handleCredSuccess sets w accept timer) := by
  have hmode : w.Extends (({ w.clearPendingCredentials with windowOutcome := .success }.publishMode
      .provisioningSucceeded).stopWindowTimer) :=
    (Extends.act (.of_eq rfl rfl) (by trivial)).trans (.of_eq rfl rfl)
  unfold handleCredSuccess
  dsimp only
  split_ifs
  all_goals first
    | exact .of_eq rfl rfl
    | exact Extends.requestWindowStop (.of_eq rfl rfl) _
    | exact hmode.requestWindowStop _
    | exact hmode.trans (.of_eq rfl rfl)

variable (owner : Word) (command : Byte) (steps : SessionSteps)

theorem extends_sessionCommand :
    w.Extends (sessionCommand sets w owner command steps).1 := by
  unfold sessionCommand
  dsimp only
  split_ifs
  all_goals first
    | exact .of_eq rfl rfl
    | exact (Extends.refl w).requestWindowStop _

theorem Extends.extendWindow (h : w.Extends r) (command : Byte) (result timer : EspErr) :
    w.Extends (extendWindow sets r command result timer).1 := by
  unfold ProvisioningWindow.extendWindow
  dsimp only
  split_ifs
  · have hstopped : w.Extends r.stopWindowTimer := h.trans (.of_eq rfl rfl)
    exact hstopped.requestWindowStop _
  · exact h.trans (.of_eq rfl rfl)
  · exact h

theorem extends_handleSessionControl :
    w.Extends (handleSessionControl sets w owner command steps) := by
  unfold handleSessionControl
  dsimp only
  split_ifs
  all_goals first
    | exact .of_eq rfl rfl
    | exact ((extends_sessionCommand owner command steps).extendWindow command _ _).trans
        (.of_eq rfl rfl)

/-- A pending restart is made only with an inactive window, and is justified by its clear. -/
theorem Restartable.maybeRestart (h : w.Restartable) : w.maybeRestartAfterClear.Restartable := by
  unfold maybeRestartAfterClear
  split_ifs with hrestart
  · refine ⟨⟨by simpa using hrestart.2, h.2 hrestart.1, h.1⟩, ?_⟩
    intro hpending
    cases hpending
  · exact h

theorem Restartable.clearNetworkRestart (h : w.Restartable) (clear : EspErr) :
    (clearNetworkRestart sets w clear).1.Restartable := by
  have hset : (setPairing sets w false).Restartable :=
    ((Extends.refl w).setPairing false).restartable h
  have hcleared : ∀ ok, ((setPairing sets w false).act (.cleared ok)).Restartable :=
    fun ok => ⟨hset.1, fun hpending => .inr (hset.2 hpending)⟩
  unfold ProvisioningWindow.clearNetworkRestart
  dsimp only
  split_ifs with hsets hclear hactive
  · exact ((Extends.refl _).requestWindowStop _).restartable hset
  · exact ((Extends.refl _).requestWindowStop _).restartable (hcleared _)
  all_goals
    -- the restart becomes pending together with the clear that justifies it
    have hpending : Restartable { (setPairing sets w false).act (.cleared (clear = EspErr.ok)) with
        restartPending := true } :=
      ⟨hset.1, fun _ => .inl (by simpa using hclear)⟩
    refine Restartable.maybeRestart ?_
  · exact ((Extends.refl _).requestWindowStop _).restartable hpending
  · exact ((Extends.refl _).act (by trivial)).restartable hpending

theorem Restartable.handleWindowEnd (h : w.Restartable) : (handleWindowEnd sets w).Restartable := by
  unfold ProvisioningWindow.handleWindowEnd
  refine Restartable.maybeRestart (Extends.restartable ?_ h)
  refine Extends.resumeWifi ?_
  have hset :
      w.Extends (setPairing sets { w with managedSession := false }.stopWindowTimer false) :=
    Extends.setPairing (.of_eq rfl rfl) false
  exact hset.releaseManager.trans (.of_eq rfl rfl)

/-- Every handler is one of the functions above, or leaves the component as it is. -/
theorem handle_induct (P : ProvisioningWindow → Prop) (event : ProvisioningEvent) (hself : P w)
    (hstop : ∀ outcome, P (requestWindowStop sets w outcome))
    (hcapture : ∀ station stage, P (w.captureCandidateCredentials station stage).1)
    (hrefused : ∀ station stage,
      P (requestWindowStop sets (w.captureCandidateCredentials station stage).1 .restore))
    (hfail : P w.clearPendingCredentials)
    (hsuccess : ∀ accept timer, P (handleCredSuccess sets w accept timer))
    (hend : P (handleWindowEnd sets w))
    (hsession : ∀ owner command steps, P (handleSessionControl sets w owner command steps))
    (hstart : ∀ steps, P (startWindow sets w steps).1)
    (hclear : ∀ clear, P (clearNetworkRestart sets w clear).1) : P (handle sets w event) := by
  cases event with
  | network event =>
    cases event with
    | credRecv station stage =>
      simp only [handle, handleNetworkEvent]
      split_ifs
      · exact hself
      · exact hself
      · exact hrefused station stage
      · exact hcapture station stage
    | credFail => simp only [handle, handleNetworkEvent]; split_ifs <;> assumption
    | credSuccess accept timer =>
      simp only [handle, handleNetworkEvent]
      split_ifs
      · exact hself
      · exact hsuccess accept timer
    | ended => simp only [handle, handleNetworkEvent]; split_ifs <;> assumption
    | other => simp only [handle, handleNetworkEvent]; split_ifs <;> assumption
  | session owner command steps => exact hsession owner command steps
  | timeout => exact hstop _
  | button command steps =>
    cases command
    case provisioning =>
      simp only [handle, executeButtonCommand]
      split_ifs
      · exact hself
      · exact hstop _
      · exact hstop _
      · exact hstart steps.start
    case clearNetworkRestart =>
      simp only [handle, executeButtonCommand]
      split_ifs
      · exact hself
      · exact hclear steps.clear
    -- no other command touches the window
    all_goals
      simp only [handle, executeButtonCommand]
      split_ifs <;> exact hself

theorem Restartable.handle (h : w.Restartable) (event : ProvisioningEvent) :
    (handle sets w event).Restartable := by
  refine handle_induct Restartable event h ?_ ?_ ?_ ?_ ?_ ?_ ?_ ?_ ?_
  · exact fun outcome => ((Extends.refl w).requestWindowStop outcome).restartable h
  · exact fun station stage => (extends_capture station stage).restartable h
  · exact fun station stage =>
      ((extends_capture station stage).requestWindowStop _).restartable h
  · exact Extends.restartable (.of_eq rfl rfl) h
  · exact fun accept timer => (extends_handleCredSuccess accept timer).restartable h
  · exact h.handleWindowEnd
  · exact fun owner command steps =>
      (extends_handleSessionControl owner command steps).restartable h
  · exact fun steps => (extends_startWindow steps).restartable h
  · exact h.clearNetworkRestart

end Functions

section Pairing

/-! In this section setting the flag succeeds. -/

variable {w : ProvisioningWindow}

theorem closed_of_shut (h : w.pairing = false) : w.Closed := by
  intro hopen
  rw [h] at hopen
  cases hopen

theorem pairing_announce (outcome : WindowOutcome) :
    (w.announce outcome).pairing = w.pairing := by
  cases outcome <;> rfl

theorem pairing_requestWindowStop (hactive : w.windowActive = true) (outcome : WindowOutcome) :
    (requestWindowStop .ok w outcome).pairing = false := by
  unfold requestWindowStop
  dsimp only
  split_ifs with hinactive
  · rw [hactive] at hinactive
    cases hinactive
  · rfl
  · rfl
  · exact pairing_announce _

theorem Closed.requestWindowStop (h : w.Closed) (outcome : WindowOutcome) :
    (requestWindowStop .ok w outcome).Closed := by
  cases hactive : w.windowActive with
  | false =>
    unfold ProvisioningWindow.requestWindowStop
    rw [if_pos (by rw [hactive]; rfl)]
    exact h
  | true => exact closed_of_shut (pairing_requestWindowStop hactive outcome)

theorem pairing_releaseManager : w.releaseManager.pairing = w.pairing := by
  unfold releaseManager
  split_ifs <;> rfl

theorem pairing_resumeWifi : w.resumeWifi.pairing = w.pairing := by
  unfold resumeWifi
  split_ifs <;> rfl

theorem pairing_maybeRestart : w.maybeRestartAfterClear.pairing = w.pairing := by
  unfold maybeRestartAfterClear
  split_ifs <;> rfl

theorem closed_cleanup : (cleanupFailedWindowStart .ok w).Closed := by
  refine closed_of_shut ?_
  unfold cleanupFailedWindowStart
  dsimp only [clearPendingCredentials]
  rw [pairing_resumeWifi, pairing_releaseManager]
  rfl

theorem closed_openWindow (timerStart : EspErr) : (openWindow .ok w timerStart).1.Closed := by
  unfold openWindow
  dsimp only
  split_ifs
  · exact closed_of_shut (pairing_requestWindowStop rfl _)
  · exact fun _ => ⟨rfl, rfl⟩

theorem Closed.startWindow (h : w.Closed) (steps : StartSteps) :
    (startWindow .ok w steps).1.Closed := by
  obtain heq | ⟨r, -, heq⟩ | ⟨r, -, heq⟩ := startWindow_cases .ok w steps
  · rw [heq]
    exact h
  · rw [heq]
    exact closed_cleanup
  · rw [heq]
    exact closed_openWindow _

theorem closed_handleWindowEnd : (handleWindowEnd .ok w).Closed := by
  refine closed_of_shut ?_
  unfold handleWindowEnd
  rw [pairing_maybeRestart, pairing_resumeWifi]
  dsimp only [clearPendingCredentials]
  rw [pairing_releaseManager]
  rfl

section

variable (h : w.Closed)
include h

theorem Closed.of_eq {r : ProvisioningWindow} (hpairing : r.pairing = w.pairing)
    (hactive : r.windowActive = w.windowActive) (hstop : r.stopRequested = w.stopRequested) :
    r.Closed := by
  unfold Closed
  rw [hpairing, hactive, hstop]
  exact h

theorem Closed.capture (station : Option StationConfig) (stage : EspErr) :
    (w.captureCandidateCredentials station stage).1.Closed := by
  unfold captureCandidateCredentials
  cases station with
  | none => exact h
  | some station =>
    dsimp only
    split_ifs <;> exact h.of_eq rfl rfl rfl

theorem Closed.handleCredSuccess (accept timer : EspErr) :
    (handleCredSuccess .ok w accept timer).Closed := by
  unfold ProvisioningWindow.handleCredSuccess
  dsimp only
  split_ifs
  all_goals first
    | exact h.of_eq rfl rfl rfl
    | refine Closed.requestWindowStop ?_ _
      exact h.of_eq rfl rfl rfl

theorem Closed.sessionCommand (owner : Word) (command : Byte) (steps : SessionSteps) :
    (sessionCommand .ok w owner command steps).1.Closed := by
  unfold ProvisioningWindow.sessionCommand
  dsimp only
  split_ifs
  all_goals first
    | exact h.of_eq rfl rfl rfl
    | exact h.requestWindowStop _

theorem Closed.extendWindow (command : Byte) (result timer : EspErr) :
    (extendWindow .ok w command result timer).1.Closed := by
  unfold ProvisioningWindow.extendWindow
  dsimp only
  split_ifs
  · refine Closed.requestWindowStop ?_ _
    exact h.of_eq rfl rfl rfl
  · exact h.of_eq rfl rfl rfl
  · exact h

theorem Closed.handleSessionControl (owner : Word) (command : Byte) (steps : SessionSteps) :
    (handleSessionControl .ok w owner command steps).Closed := by
  unfold ProvisioningWindow.handleSessionControl
  dsimp only
  split_ifs
  all_goals first
    | exact h.of_eq rfl rfl rfl
    | exact ((h.sessionCommand owner command steps).extendWindow command _ _).of_eq rfl rfl rfl

end

theorem closed_clearNetworkRestart (clear : EspErr) :
    (clearNetworkRestart .ok w clear).1.Closed := by
  unfold ProvisioningWindow.clearNetworkRestart
  dsimp only
  split_ifs with hsets hclear hactive
  · exact absurd rfl hsets
  · exact Closed.requestWindowStop (closed_of_shut rfl) _
  · refine closed_of_shut ?_
    rw [pairing_maybeRestart]
    refine pairing_requestWindowStop ?_ _
    exact hactive
  · refine closed_of_shut ?_
    rw [pairing_maybeRestart]
    rfl

theorem Closed.handle (h : w.Closed) (event : ProvisioningEvent) : (handle .ok w event).Closed := by
  refine handle_induct Closed event h ?_ ?_ ?_ ?_ ?_ ?_ ?_ ?_ ?_
  · exact h.requestWindowStop
  · exact h.capture
  · exact fun station stage => (h.capture station stage).requestWindowStop _
  · exact h.of_eq rfl rfl rfl
  · exact h.handleCredSuccess
  · exact closed_handleWindowEnd
  · exact h.handleSessionControl
  · exact h.startWindow
  · exact closed_clearNetworkRestart

end Pairing

section

variable (events : List (EspErr × ProvisioningEvent))
include events

theorem restartable_run : (run events).Restartable :=
  List.foldlRecOn events _ ⟨trivial, fun hpending => by cases hpending⟩
    fun _ h event _ => h.handle event.2

theorem closed_run (hsets : ∀ event ∈ events, event.1 = .ok) : (run events).Closed := by
  refine List.foldlRecOn events _ (closed_of_shut rfl) fun w h event hevent => ?_
  rw [hsets event hevent]
  exact h.handle event.2

end

end ProvisioningWindow

/-- If setting the flag never fails, then after any events pairing is open only in an active
window without a request to stop; and every restart finds the window inactive and follows a
network clear that has succeeded, with no other restart in between. -/
theorem pairing_only_in_window (events : List (EspErr × ProvisioningEvent))
    (hsets : ∀ event ∈ events, event.1 = .ok) :
    ((ProvisioningWindow.run events).pairing = true →
      (ProvisioningWindow.run events).windowActive = true ∧
        (ProvisioningWindow.run events).stopRequested = false) ∧
    ∀ after before active,
      (ProvisioningWindow.run events).log = after ++ .restart active :: before →
      active = false ∧ ∃ between rest, before = between ++ .cleared true :: rest ∧
        ∀ a ∈ between, ∀ other, a ≠ .restart other := by
  refine ⟨ProvisioningWindow.closed_run events hsets, ?_⟩
  intro after before active hlog
  have hrun := (ProvisioningWindow.restartable_run events).1
  rw [hlog] at hrun
  have hjustified : WindowAct.Justified (.restart active :: before) := hrun.of_append
  exact ⟨hjustified.1, hjustified.2.1.exists_cleared⟩

/-- Every step of starting a window succeeds. -/
def plainStart : StartSteps where
  identity := true
  credentials := .ok
  managerInit := .ok
  disableAutoStop := .ok
  endpointCreate := .ok
  prepareProvisioning := .ok
  startProvisioning := .ok
  endpointRegister := .ok
  timerStart := .ok

/-- A command of the button whose steps succeed. -/
def plainButton (command : ButtonCommand) : ProvisioningEvent :=
  .button command ⟨false, .ok, .allowed, .ok, plainStart⟩

/-- A window opens, the networks are cleared in it, and the manager ends. -/
def clearedWindow : List (EspErr × ProvisioningEvent) :=
  [(.ok, plainButton .provisioning), (.ok, plainButton .clearNetworkRestart),
    (.ok, .network .ended)]

theorem clearedWindow_restarts :
    (ProvisioningWindow.run (clearedWindow.take 1)).pairing = true ∧
    (ProvisioningWindow.run clearedWindow).pairing = false ∧
    ∃ before, (ProvisioningWindow.run clearedWindow).log = [] ++ .restart false :: before ∧
      ∃ between rest, before = between ++ .cleared true :: rest ∧
        ∀ a ∈ between, ∀ other, a ≠ .restart other := by
  refine ⟨rfl, rfl, _, rfl, ?_⟩
  exact ((pairing_only_in_window clearedWindow (by decide)).2 [] _ false rfl).2

end AirDap

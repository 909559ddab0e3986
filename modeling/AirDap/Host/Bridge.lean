import AirDap.Concurrency.Sequential
import Mathlib.Tactic.SplitIfs

/-! The bridge of the host service: a task that serves USB/IP, its handle in the runtime, and the
flag that tells the other commands and the web page whether it listens. Every operation here runs
under the gate and the lock of the runtime, one after the other. -/
namespace AirDap

/-- The errors of the operations on the bridge. -/
inductive ServiceError where
  | refused | profileMissing | credentialMissing | portOccupied | bridgeRunning | storeFailed
  | serveFailed | mountFailed
  deriving DecidableEq, Repr

/-- The fields of `Profile` that decide about the bridge. -/
structure HostProfile where
  bridgeEnabled : Bool
  autoAttach : Bool
  deriving DecidableEq, Repr

/-- What `State` and `Runtime` hold about the bridge. `bridge` tells whether there is a handle,
`executable` whether a USB/IP client was found, and `number` is the port of the mount. -/
structure HostService where
  profile : Option HostProfile
  listening : Bool
  mountPort : Option ℕ
  bridgeError : Option ServiceError
  bridge : Bool
  executable : Bool
  number : Option ℕ
  ownsExport : Bool
  deriving DecidableEq, Repr

/-- What a command of the USB/IP client comes to: whether it succeeds, and the port that the mount
has then. -/
structure MountResult where
  ok : Bool
  number : Option ℕ
  deriving DecidableEq, Repr

/-- What `start_bridge` finds: a credential, a free port, and what attaching comes to. -/
structure StartResult where
  credential : Bool
  bind : Bool
  attach : MountResult
  deriving DecidableEq, Repr

/-- What `stop_bridge` finds: how the task of the bridge has ended, and what detaching comes to. -/
structure StopResult where
  serve : Bool
  detach : MountResult
  deriving DecidableEq, Repr

namespace HostService

variable (s : HostService)

/-- The error of a command of the USB/IP client. -/
def mountError (result : MountResult) : Option ServiceError :=
  if result.ok then none else some .mountFailed

/-- `attach`. -/
def attach (result : MountResult) : HostService × Option ServiceError :=
  ({ s with number := result.number, mountPort := result.number, bridgeError := mountError result },
    mountError result)

/-- `start_bridge`. -/
def startBridge (result : StartResult) : HostService × Option ServiceError :=
  if s.bridge then (s, none)
  else match s.profile with
    | none => (s, some .profileMissing)
    | some profile =>
      if !result.credential then (s, some .credentialMissing)
      else if !result.bind then (s, some .portOccupied)
      else
        let s := { s with
          bridge := true, ownsExport := true, listening := true, bridgeError := none }
        if profile.autoAttach then s.attach result.attach else (s, none)

/-- The end of `stop_bridge`, after the task of the bridge. -/
def release (result : MountResult) : HostService × Option ServiceError :=
  let s := { s with listening := false }
  if s.ownsExport ∧ s.executable then
    ({ s with
        number := result.number
        mountPort := result.number
        ownsExport := !result.ok
        bridgeError := mountError result }, mountError result)
  else ({ s with ownsExport := false, mountPort := s.number, bridgeError := none }, none)

/-- `stop_bridge`: the handle is taken first, and an error of the task that it stands for ends the
call. -/
def stopBridge (result : StopResult) : HostService × Option ServiceError :=
  if s.bridge then
    let s := { s with bridge := false }
    if !result.serve then (s, some .serveFailed) else s.release result.detach
  else s.release result.detach

end HostService

/-- The operations on the bridge: the commands `start`, `stop` and `profile` with whether their
checks pass (of a running provisioning, of the credential, of the new profile) and whether the
profile could be saved, `close`, and the first pass of `maintain` and a later one with whether an
attach is due. -/
inductive ServiceOp where
  | start (checked saved : Bool) (result : StartResult)
  | stop (saved : Bool) (result : StopResult)
  | profile (profile : HostProfile) (checked saved : Bool)
  | close (result : StopResult)
  | maintainFirst (result : StartResult)
  | maintain (due : Bool) (result : MountResult)

namespace HostService

/-- `start` and `stop` save in the profile whether the bridge is wanted. -/
def enable (s : HostService) (enabled : Bool) : HostService :=
  { s with profile := s.profile.map fun profile => { profile with bridgeEnabled := enabled } }

/-- One operation, with its error. -/
def perform (s : HostService) : ServiceOp → HostService × Option ServiceError
  | .start checked saved result =>
    if s.profile.isNone then (s, some .profileMissing)
    else if !checked then (s, some .refused)
    else if !saved then (s, some .storeFailed)
    else (s.enable true).startBridge result
  | .stop saved result =>
    if s.profile.isNone then (s, some .profileMissing)
    else if !saved then (s, some .storeFailed)
    else (s.enable false).stopBridge result
  | .profile profile checked saved =>
    if s.listening then (s, some .bridgeRunning)
    else if !checked then (s, some .refused)
    else if !saved then (s, some .storeFailed)
    else ({ s with profile := some { profile with bridgeEnabled := false } }, none)
  | .close result => s.stopBridge result
  | .maintainFirst result =>
    if s.profile.any (·.bridgeEnabled) then
      match s.startBridge result with
      | (s, none) => (s, none)
      | (s, some error) => ({ s with bridgeError := some error }, none)
    else (s, none)
  | .maintain due result =>
    if s.bridge ∧ s.profile.any (·.autoAttach) ∧ due then ((s.attach result).1, none)
    else (s, none)

/-- The service after these operations. -/
def run (s : HostService) (ops : List ServiceOp) : HostService :=
  ops.foldl (fun s op => (s.perform op).1) s

/-- The service that `new` makes. -/
def new (profile : Option HostProfile) (executable : Bool) : HostService where
  profile := profile
  listening := false
  mountPort := none
  bridgeError := none
  bridge := false
  executable := executable
  number := none
  ownsExport := false

/-- The flag tells whether there is a bridge. -/
def Consistent (s : HostService) : Prop := s.listening = s.bridge

instance (s : HostService) : Decidable s.Consistent := inferInstanceAs (Decidable (_ = _))

/-- The operation does not stop a bridge whose task has ended with an error. -/
def Serves (s : HostService) : ServiceOp → Prop
  | .stop saved result => s.bridge = true → s.profile.isSome → saved → result.serve = true
  | .close result => s.bridge = true → result.serve = true
  | _ => True

variable {s : HostService}

theorem consistent_attach (h : s.Consistent) (result : MountResult) :
    (s.attach result).1.Consistent := h

theorem consistent_startBridge (h : s.Consistent) (result : StartResult) :
    (s.startBridge result).1.Consistent := by
  cases hprofile : s.profile with
  | none =>
    simp only [startBridge, hprofile]
    split_ifs <;> exact h
  | some profile =>
    simp only [startBridge, hprofile]
    split_ifs
    · exact h
    · exact h
    · exact h
    · rfl
    · rfl

theorem release_flags (s : HostService) (result : MountResult) :
    (s.release result).1.listening = false ∧ (s.release result).1.bridge = s.bridge := by
  unfold release
  dsimp only
  split_ifs <;> exact ⟨rfl, rfl⟩

/-- Stopping leaves the flag right exactly if there is no task or it has ended well. -/
theorem consistent_stopBridge (h : s.Consistent) (result : StopResult) :
    (s.stopBridge result).1.Consistent ↔ (s.bridge = true → result.serve = true) := by
  unfold stopBridge
  cases hbridge : s.bridge with
  | false =>
    obtain ⟨hlistening, hsame⟩ := s.release_flags result.detach
    have hright : (s.release result.detach).1.Consistent := by
      rw [Consistent, hlistening, hsame, hbridge]
    simpa using hright
  | true =>
    have hlistening : s.listening = true := h.trans hbridge
    cases hserve : result.serve with
    | false => simp [Consistent, hlistening]
    | true =>
      obtain ⟨hflag, hsame⟩ := release_flags { s with bridge := false } result.detach
      have hright : ({ s with bridge := false }.release result.detach).1.Consistent := by
        rw [Consistent, hflag, hsame]
      simpa using hright

/-- An operation keeps the flag right exactly if it does not stop a bridge whose task has ended
with an error. -/
theorem consistent_perform (h : s.Consistent) (op : ServiceOp) :
    (s.perform op).1.Consistent ↔ s.Serves op := by
  cases op with
  | start checked saved result =>
    refine iff_of_true ?_ trivial
    dsimp only [perform]
    split_ifs
    · exact h
    · exact h
    · exact h
    · have henabled : (s.enable true).Consistent := h
      exact consistent_startBridge henabled result
  | stop saved result =>
    unfold perform
    dsimp only
    cases hprofile : s.profile with
    | none => simpa [Serves, hprofile] using h
    | some profile =>
      cases saved with
      | false => simpa [Serves, hprofile] using h
      | true =>
        have henabled : (s.enable false).Consistent := h
        have hstop := consistent_stopBridge henabled result
        simpa [Serves, hprofile, enable] using hstop
  | profile profile checked saved =>
    refine iff_of_true ?_ trivial
    dsimp only [perform]
    split_ifs <;> exact h
  | close result => exact consistent_stopBridge h result
  | maintainFirst result =>
    refine iff_of_true ?_ trivial
    have hstart := consistent_startBridge h result
    unfold perform
    dsimp only
    split_ifs
    · split
      next heq =>
        rw [heq] at hstart
        exact hstart
      next heq =>
        rw [heq] at hstart
        exact hstart
    · exact h
  | maintain due result =>
    refine iff_of_true ?_ trivial
    dsimp only [perform]
    split_ifs
    · exact consistent_attach h result
    · exact h

end HostService

/-- For any sequence of operations on the bridge, in which none stops a bridge whose task has
ended with an error, the flag tells after each of them whether there is a bridge; and from a
service whose flag is right, an operation leaves it right only if it meets this condition. -/
theorem bridge_flag (profile : Option HostProfile) (executable : Bool) (ops : List ServiceOp)
    (hserves : ∀ before op after, ops = before ++ op :: after →
      ((HostService.new profile executable).run before).Serves op) :
    ((HostService.new profile executable).run ops).Consistent ∧
    ∀ op, (((HostService.new profile executable).run ops).perform op).1.Consistent ↔
      ((HostService.new profile executable).run ops).Serves op := by
  have h : ((HostService.new profile executable).run ops).Consistent := by
    refine Concurrency.foldl_induct HostService.Consistent HostService.Serves ?_ ?_ ops hserves
    · rfl
    · exact fun _ op hop hs => (HostService.consistent_perform hs op).mpr hop
  exact ⟨h, HostService.consistent_perform h⟩

/-- A bridge that starts, and whose task has ended well when it is stopped. -/
theorem bridge_flag_restart :
    ((HostService.new (some ⟨false, false⟩) true).run
      [.start true true ⟨true, true, ⟨true, none⟩⟩,
        .stop true ⟨true, ⟨true, none⟩⟩]).Consistent := by
  refine (bridge_flag (some ⟨false, false⟩) true _ ?_).1
  intro before op after heq
  match before, heq with
  | [], heq =>
    cases heq
    trivial
  | [_], heq =>
    cases heq
    exact fun _ _ _ => rfl
  | _ :: _ :: before, heq => simp at heq

/-- A bridge whose task has ended with an error, for instance of `accept`, when it is stopped: the
handle is gone, and the flag stays. -/
theorem failed_serve_keeps_flag :
    ((HostService.new (some ⟨false, false⟩) true).run
      [.start true true ⟨true, true, ⟨true, none⟩⟩,
        .stop true ⟨false, ⟨true, none⟩⟩]).listening = true ∧
    ((HostService.new (some ⟨false, false⟩) true).run
      [.start true true ⟨true, true, ⟨true, none⟩⟩,
        .stop true ⟨false, ⟨true, none⟩⟩]).bridge = false := by
  decide

end AirDap

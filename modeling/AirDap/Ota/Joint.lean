import AirDap.Ota.Verified

/-! The OTA session, the OTA field of the mode word, the SUSPENDED state of the ownership word
and the UART service move by separate steps. Whenever the mutex is given back they agree. -/
namespace AirDap
open Concurrency

variable {T : Type}

section Joint

variable [DecidableEq T]

theorem OtaLog.act_resumed (log : OtaLog) (request : OtaRequest) {i : OtaIo} {r : i.Answer}
    (h : log.resumed = true) (hr : i = .uartResume → HEq r true) :
    (log.act request i r).resumed = true := by
  cases i with
  | uartResume =>
    cases eq_of_heq (hr rfl)
    exact h
  | otaBegin partition =>
    obtain ⟨begun, handle⟩ := r
    cases begun <;> exact h
  | otaWrite handle data => cases r <;> exact h
  | otaEnd handle => cases r <;> exact h
  | authorize client => cases r <;> exact h
  | _ => exact h

theorem otaLog_resumed {h : List (OtaEvent T)}
    (hh : ∀ t w, .acted t (.io .uartResume) false w ∉ h) : (otaLog h).resumed = true := by
  induction h with
  | nil => rfl
  | cons e h ih =>
    have ih' := ih fun t w hmem => hh t w (List.mem_cons_of_mem _ hmem)
    cases e with
    | called t c w => exact ih'
    | returned t c v => exact ih'
    | acted t a r w =>
      cases a with
      | io i =>
        unfold otaLog
        cases lastRequest t h with
        | none => exact ih'
        | some request =>
          refine OtaLog.act_resumed _ _ ih' fun hi => ?_
          subst hi
          cases r with
          | true => rfl
          | false => exact absurd (List.mem_cons_self ..) (hh t w)
      | _ => exact ih'

variable {w : OtaDevice T} {σ : OtaConfig T}

/-- In every run in which the UART can be resumed, the session, the mode, the arbiter and the
UART agree at every release of the mutex. -/
theorem ota_joint_state (hw : OtaFresh w) (hsteps : (otaMachine T).Steps (.start w) σ)
    (hresume : ∀ t w, .acted t (.io .uartResume) false w ∉ σ.history) {t : T} {r : Unit}
    {w' : OtaDevice T} (hrelease : .acted t (.io .unlockSession) r w' ∈ σ.history) : Joint w' := by
  obtain ⟨γ, hinv⟩ := ota_steps hw hsteps
  obtain ⟨h₁, h₂, hhistory⟩ := List.append_of_mem hrelease
  have hjustified := hinv.justified
  change AllJustified σ.history at hjustified
  rw [hhistory] at hjustified hresume
  obtain ⟨hrequest, hsound, -⟩ := hjustified.of_append
  obtain ⟨request, hrequest⟩ := hrequest ⟨_, rfl⟩
  refine (hsound request hrequest).joint rfl (otaLog_resumed fun t w hmem => hresume t w ?_)
  exact List.mem_append_right _ (List.mem_cons_of_mem _ hmem)

end Joint

section Replay

/-- A device that carries out every exchange it can, with a driver that answers `reply` to the
operations of a thread. -/
def otaAnswer (reply : T → (i : OtaIo) → i.Answer) (t : T) (w : OtaDevice T) :
    (a : Act OtaIo) → Resp OtaIo.Answer a × OtaDevice T
  | .io .lockSession =>
    if w.memory.sessionMutex.isNone then
      (true, { w with memory := { w.memory with sessionMutex := some t } })
    else (false, w)
  | .io .unlockSession => ((), { w with memory := { w.memory with sessionMutex := none } })
  | .io .loadSession => (w.memory.session, w)
  | .io (.storeSession session) => ((), { w with memory := { w.memory with session } })
  | .io .uartSuspend => (true, { w with memory := { w.memory with uartSuspended := true } })
  | .io .uartResume => (true, { w with memory := { w.memory with uartSuspended := false } })
  | .io i => (reply t i, w)
  | a => w.answer (reply t) a

theorem otaExec_answer (reply : T → (i : OtaIo) → i.Answer) (t : T) (w : OtaDevice T)
    (a : Act OtaIo) : otaExec t w a (otaAnswer reply t w a).1 (otaAnswer reply t w a).2 := by
  have hdevice := w.exec_answer (reply t) a
  cases a with
  | io i =>
    cases i with
    | lockSession =>
      unfold otaAnswer
      split
      · rename_i hfree
        exact ⟨_, .inl ⟨rfl, Option.isNone_iff_eq_none.mp hfree, rfl⟩, rfl⟩
      · exact ⟨_, .inr ⟨rfl, rfl⟩, rfl⟩
    | loadSession => exact ⟨_, ⟨rfl, rfl⟩, rfl⟩
    | uartSuspend => exact ⟨_, .inl rfl, rfl⟩
    | uartResume => exact ⟨_, .inl ⟨rfl, rfl⟩, rfl⟩
    | _ => exact ⟨_, rfl, rfl⟩
  | _ => exact hdevice

/-- A driver with one partition for updates that carries out everything. -/
def otaWilling : (i : OtaIo) → i.Answer
  | .lockSession | .authorize _ | .uartSuspend | .uartResume | .otaWrite _ _ | .otaEnd _
  | .otaAbort _ | .setBootPartition _ => true
  | .unlockSession | .storeSession _ | .restart => ()
  | .loadSession => .zero
  | .getNextUpdatePartition => some ⟨0x20000, 0x3F0000⟩
  | .otaBegin _ => (true, 1)

def otaDevice : OtaDevice T := ⟨ownerNone, modeInitialized, 0, 0, ⟨.zero, none, false⟩⟩

theorem otaDevice_fresh : OtaFresh (otaDevice : OtaDevice T) where
  session := rfl
  mutex := rfl
  uart := rfl
  initialized := (by decide : modeInitialized &&& modeInitialized ≠ 0)
  mode := (by decide : otaField modeInitialized = otaIdle)
  wellFormed ha := absurd ha (by decide : ¬ isActive ownerNone)
  settled := (by decide : controlState ownerNone ≠ stateTransition ∧
    controlState ownerNone ≠ stateSuspended ∧ controlState ownerNone ≠ stateUninitialized)

variable [DecidableEq T]

/-- Each thread in turn makes a request and runs it to its end, which takes at most `n`
operations. -/
def otaRun (reply : T → (i : OtaIo) → i.Answer) (n : ℕ) (requests : List (T × OtaRequest)) :
    OtaConfig T :=
  (otaMachine T).replay (otaAnswer reply)
    (requests.flatMap fun (t, request) =>
      (t, some (.ota 1 request)) :: List.replicate n (t, none)) (.start otaDevice)

theorem otaRun_steps (reply : T → (i : OtaIo) → i.Answer) (n : ℕ)
    (requests : List (T × OtaRequest)) :
    (otaMachine T).Steps (.start otaDevice) (otaRun reply n requests) := by
  refine Machine.replay_steps (otaExec_answer reply) _ _ fun turn hturn c hc w => ?_
  simp only [List.mem_flatMap, List.mem_cons, List.mem_replicate] at hturn
  obtain ⟨⟨t, request⟩, -, rfl | ⟨-, rfl⟩⟩ := hturn
  · cases hc
    trivial
  · cases hc

end Replay

/-- A begin of the USB client comes to a release of the mutex with everything suspended. -/
theorem usbBegin_joint : ∃ w', (.acted () (.io .unlockSession) () w' : OtaEvent Unit) ∈
    (otaRun (fun _ => otaWilling) 12 [((), .begin none 8)]).history ∧
      w'.memory.session.state = .receiving ∧ Joint w' := by
  obtain ⟨w', hrelease, hstate⟩ : ∃ w', (.acted () (.io .unlockSession) () w' : OtaEvent Unit) ∈
      (otaRun (fun _ => otaWilling) 12 [((), .begin none 8)]).history ∧
        w'.memory.session.state = .receiving :=
    ⟨_, List.mem_cons_of_mem _ (List.mem_cons_self ..), rfl⟩
  refine ⟨w', hrelease, hstate,
    ota_joint_state otaDevice_fresh (otaRun_steps _ 12 _) (fun t w h => ?_) hrelease⟩
  iterate 14
    rcases List.mem_cons.mp h with h | h
    · cases h
  cases h

end AirDap

import AirDap.Ota.Image

/-! What a client can do to the update of another: nothing, except to clean up after an owner
that is gone. -/
namespace AirDap
open Concurrency

variable {T : Type}

/-- The first check has not authorized the client. -/
def OtaEntry.Unauthorized (entry : OtaEntry) (client : Option OtaClient) : Prop :=
  client ≠ none ∧ entry.authorized ≠ some true

/-- A request that may not touch the session: of a client that is not authorized, or of one
that does not own the session it found. The abort of an authorized client passes once the
disconnect of the owner has been recorded. -/
def OtaRequest.Outsider (entry : OtaEntry) : OtaRequest → Prop
  | .debugAllowed => True
  | .begin client _ | .write client _ _ _ | .commit client =>
    entry.Unauthorized client ∨ ∃ session, entry.found = some session ∧ Foreign client session
  | .abort client => entry.Unauthorized client ∨ ∃ session, entry.found = some session ∧
      Foreign client session ∧ session.disconnected = false
  | .reboot client | .prepareReboot client => entry.Unauthorized client
  | .disconnect client => ∃ session, entry.found = some session ∧ ¬ OwnsSession session client

theorem OtaEntry.Unauthorized.not_admits {entry : OtaEntry} {client : Option OtaClient}
    (h : entry.Unauthorized client) : ¬ entry.Admits client := by
  rintro (hnone | hauthorized)
  · exact h.1 hnone
  · exact h.2 hauthorized

theorem OtaRequest.Outsider.not_entitled {entry : OtaEntry} {request : OtaRequest}
    (h : request.Outsider entry) : ¬ request.Entitled entry := by
  intro hentitled
  cases request with
  | debugAllowed => exact hentitled
  | prepareReboot client => exact hentitled
  | reboot client => exact h.not_admits hentitled
  | disconnect client =>
    obtain ⟨session, hfound, hforeign⟩ := h
    obtain ⟨session', hfound', -, howner⟩ := hentitled
    cases hfound.symm.trans hfound'
    exact hforeign howner
  | abort client =>
    obtain ⟨hadmits, session', hfound', hpass⟩ := hentitled
    rcases h with h | ⟨session, hfound, hforeign, hconnected⟩
    · exact h.not_admits hadmits
    · cases hfound.symm.trans hfound'
      simp [hpass hforeign] at hconnected
  | _ =>
    obtain ⟨hadmits, session', hfound', hpass⟩ := hentitled
    rcases h with h | ⟨session, hfound, hforeign⟩
    · exact h.not_admits hadmits
    · cases hfound.symm.trans hfound'
      exact hpass hforeign

/-- A harmless operation changes neither the session nor anything that an update suspends. -/
theorem Act.Harmless.unchanged {a : Act OtaIo} (ha : a.Harmless) {t : T} {w w' : OtaDevice T}
    {r : Resp OtaIo.Answer a} (hw : otaExec t w a r w') :
    w'.memory.session = w.memory.session ∧ w'.memory.uartSuspended = w.memory.uartSuspended ∧
      w'.modeControl = w.modeControl ∧ w'.ownershipControl = w.ownershipControl := by
  cases a with
  | loadOwnership | loadMode =>
    obtain ⟨-, rfl⟩ := hw
    simp
  | io i =>
    obtain ⟨m, hm, rfl⟩ := hw
    cases i with
    | lockSession => rcases hm with ⟨-, -, rfl⟩ | ⟨-, rfl⟩ <;> simp
    | unlockSession => cases hm; simp
    | loadSession => obtain ⟨-, rfl⟩ := hm; simp
    | authorize client => cases hm; simp
    | _ => exact ha.elim
  | _ => exact ha.elim

variable [DecidableEq T]

/-- In every run, an operation of a request that may not touch the session is no call of the
driver and changes nothing of the update. -/
theorem client_isolation {w : OtaDevice T} {σ : OtaConfig T} (hw : OtaFresh w)
    (hsteps : (otaMachine T).Steps (.start w) σ) {later earlier : List (OtaEvent T)} {t : T}
    {a : Act OtaIo} {r : Resp OtaIo.Answer a} {before : OtaDevice T}
    (hevent : σ.history = later ++ .acted t a r before :: earlier) {request : OtaRequest}
    (hrequest : lastRequest t earlier = some request)
    (houtsider : request.Outsider (otaEntry t earlier)) :
    a.Harmless ∧ ∀ after, otaExec t before a r after →
      after.memory.session = before.memory.session ∧
        after.memory.uartSuspended = before.memory.uartSuspended ∧
        after.modeControl = before.modeControl ∧
        after.ownershipControl = before.ownershipControl := by
  obtain ⟨γ, hinv⟩ := ota_steps hw hsteps
  have hjustified := hinv.justified
  change AllJustified σ.history at hjustified
  rw [hevent] at hjustified
  obtain ⟨-, hsound, -⟩ := hjustified.of_append
  have hharmless : a.Harmless := by
    by_contra h
    exact houtsider.not_entitled ((hsound request hrequest).entitled h)
  exact ⟨hharmless, fun after hafter => hharmless.unchanged hafter⟩

/-- Two clients of the network. -/
def otaOwner : OtaClient := ⟨0x1000, 7, 1⟩
def otaStranger : OtaClient := ⟨0x2000, 7, 1⟩

/-- The owner begins an update and another client tries to abort it. -/
def strangerRun : OtaConfig Bool :=
  otaRun (fun _ => otaWilling) 14
    [(false, .begin (some otaOwner) 3), (true, .abort (some otaStranger))]

theorem stranger_isolated : ∃ later earlier w', strangerRun.history =
    later ++ .acted true (.io .unlockSession) () w' :: earlier ∧
      (OtaRequest.abort (some otaStranger)).Outsider (otaEntry true earlier) ∧
      ∀ after, otaExec true w' (.io .unlockSession) () after →
        after.memory.session = w'.memory.session ∧
          after.memory.uartSuspended = w'.memory.uartSuspended ∧
          after.modeControl = w'.modeControl ∧ after.ownershipControl = w'.ownershipControl := by
  obtain ⟨later, earlier, w', hevent, hrequest, houtsider⟩ : ∃ later earlier w',
      strangerRun.history = later ++ .acted true (.io .unlockSession) () w' :: earlier ∧
        lastRequest true earlier = some (.abort (some otaStranger)) ∧
        (OtaRequest.abort (some otaStranger)).Outsider (otaEntry true earlier) :=
    ⟨[_], _, _, rfl, rfl, .inr ⟨_, rfl, ⟨by decide, by decide⟩, rfl⟩⟩
  have hsteps := otaRun_steps (fun _ : Bool => otaWilling) 14
    [(false, .begin (some otaOwner) 3), (true, .abort (some otaStranger))]
  exact ⟨later, earlier, w', hevent, houtsider,
    (client_isolation otaDevice_fresh hsteps hevent hrequest houtsider).2⟩

/-- A driver that carries out everything but authorizes nobody. -/
def otaRevoked : (i : OtaIo) → i.Answer
  | .authorize _ => false
  | i => otaWilling i

/-- The owner begins an update, is refused as not authorized, and disconnects. -/
def revokedRun : OtaConfig Bool :=
  otaRun (fun t => if t then otaRevoked else otaWilling) 14
    [(false, .begin (some otaOwner) 3), (true, .abort (some otaOwner)),
      (true, .disconnect (some otaOwner))]

/-- The disconnect of an owner that is not authorized calls the driver and ends the update. -/
theorem revoked_owner_disconnects :
    (otaMachine Bool).Steps (.start otaDevice) revokedRun ∧
      (∃ later earlier rounds, revokedRun.history =
        later ++ .returned true (.ota rounds (.abort (some otaOwner))) .unauthenticated ::
          earlier) ∧
      (∃ later earlier handle r w', revokedRun.history =
        later ++ .acted true (.io (.otaAbort handle)) r w' :: earlier ∧
          lastRequest true earlier = some (.disconnect (some otaOwner)) ∧
          w'.memory.session.state = .receiving) ∧
      revokedRun.world.memory.session.state = .idle := by
  refine ⟨otaRun_steps _ _ _, ?_, ?_, rfl⟩
  · exact ⟨[_, _, _, _, _, _, _, _, _, _, _, _, _, _], _, 1, rfl⟩
  · exact ⟨[_, _, _, _, _, _, _, _], _, _, _, _, rfl, rfl, rfl⟩

end AirDap

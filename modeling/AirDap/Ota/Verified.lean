import AirDap.Ota.Requests

/-! Every request to the OTA manager and every other call keeps the discipline, in any
interleaving. -/
namespace AirDap
open Concurrency Discipline

variable {T : Type} [DecidableEq T] {t : T} {request : OtaRequest} {x : OtaView T}
  {entry : OtaEntry} {s : OtaState T} {α : Type} {rounds : ℕ} {client : Option OtaClient}
  {ok : α → Prop}

/-- The request is outside the mutex again, and no failed write was passed over if `ok` holds
of what it returns. -/
def Finished (t : T) (request : OtaRequest) (ok : α → Prop) (v : α) (s : OtaState T) : Prop :=
  (∃ entry, Outside t (some request) entry false s) ∧ (ok v → (otaLog s.history).Tolerated)

/-- The request holds the mutex with everything at rest. -/
def Concluding (t : T) (request : OtaRequest) (ok : α → Prop) (v : α) (s : OtaState T) : Prop :=
  ∃ x entry, Gripped t request x entry false s ∧ Resting x ∧
    (ok v → x.memory.session.state ≠ .idle)

omit [DecidableEq T] in
theorem justified_of_harmless {a : Act OtaIo} {log : OtaLog} {w : OtaDevice T} (ha : a.Harmless)
    (hunlock : a ≠ .io .unlockSession) : Justified request log entry w a where
  joint h := absurd h hunlock
  complete partition h := by subst h; exact ha.elim
  tolerated partition h := by subst h; exact ha.elim
  entitled h := absurd ha h

section Lock

theorem wp_lockSession (hs : Outside t (some request) .start false s) {k : Bool → OtaCode α}
    {Q : α → OtaState T → Prop}
    (hok : ∀ x s₁, Gripped t request x ⟨some x.memory.session, none⟩ false s₁ → Resting x →
      OtaWp t (k true) Q s₁)
    (hno : ∀ s₁, Outside t (some request) .start false s₁ →
      OtaWp t (k false) Q s₁) :
    OtaWp t (otaIo .lockSession >>= k) Q s := by
  refine wp_act_of_stable outside_stable hs fun s₁ hs₁ => ⟨trivial, fun r w hw => ?_⟩
  obtain ⟨m, hm, rfl⟩ := hw
  have hlog : otaLog (.acted t (.io .lockSession) r s₁.world :: s₁.history) =
      otaLog s₁.history := otaLog_io hs₁.request
  have hview (m : OtaMemory T) : otaView (s₁.acted t (.io .lockSession) r
      { s₁.world with memory := m } s₁.ghost) = { otaView s₁ with memory := m } := by
    simp only [otaView, State.acted, hlog]
    rfl
  have hinv (hrest : m.sessionMutex = none → m = s₁.world.memory)
      (hsession : m.session = s₁.world.memory.session) :
      OtaInv (s₁.acted t (.io .lockSession) r { s₁.world with memory := m } s₁.ghost) := {
    word := hs₁.inv.word
    mode := hs₁.inv.mode
    sized := by
      have h := hs₁.inv.sized
      rwa [← hsession] at h
    contiguous := by
      have h := hs₁.inv.contiguous
      rwa [← hlog] at h
    justified := by
      refine ⟨fun _ => ⟨_, hs₁.request⟩, fun request' _ => ?_, hs₁.inv.justified⟩
      exact justified_of_harmless trivial (by simp)
    rest := fun h => by
      rw [hview, hrest h]
      exact hs₁.inv.rest (hrest h ▸ h) }
  rcases hm with ⟨rfl, hfree, rfl⟩ | ⟨rfl, rfl⟩
  · have hinv' := hinv (fun h => by cases h) rfl
    refine ⟨s₁.ghost, ⟨hinv', ?_⟩, hok { otaView s₁ with
      memory := { s₁.world.memory with sessionMutex := some t } } _ ?_ ?_⟩
    · exact {
        event := ⟨_, rfl, rfl⟩
        transition := fun _ _ => Iff.rfl
        word := fun _ _ _ => rfl
        mutex := fun u hu => by
          rw [hfree]
          simp [State.acted, hu.symm]
        view := fun _ => hview _ }
    · exact {
        inv := hinv'
        holds := rfl
        view := hview _
        request := hs₁.request
        entry := by
          refine otaEntry_io.trans ?_
          rw [hs₁.entry]
          rfl
        transition := hs₁.transition }
    · have hrested := hs₁.inv.rest hfree
      exact ⟨hrested.mode, hrested.ownership, hrested.uart, hrested.current, hrested.tolerated⟩
  · have hinv' := hinv (fun _ => rfl) rfl
    refine ⟨s₁.ghost, ⟨hinv', ?_⟩, hno _ ?_⟩
    · exact {
        event := ⟨_, rfl, rfl⟩
        transition := fun _ _ => Iff.rfl
        word := fun _ _ _ => rfl
        mutex := fun _ _ => Iff.rfl
        view := fun _ => hview _ }
    · exact {
        inv := hinv'
        mutex := hs₁.mutex
        request := hs₁.request
        entry := otaEntry_io.trans hs₁.entry
        transition := hs₁.transition }

theorem wp_unlockSession (hs : Gripped t request x entry false s) (hx : Resting x)
    {k : Unit → OtaCode α} {Q : α → OtaState T → Prop}
    (h : ∀ s₁, Outside t (some request) entry false s₁ → otaLog s₁.history = x.log →
      OtaWp t (k ()) Q s₁) :
    OtaWp t (otaIo .unlockSession >>= k) Q s := by
  refine wp_act_of_stable gripped_stable hs fun s₁ hs₁ => ⟨trivial, fun r w hw => ?_⟩
  obtain ⟨m, rfl, rfl⟩ := hw
  have hlogs : otaLog s₁.history = x.log := congrArg OtaView.log hs₁.view
  have hlog : otaLog (.acted t (.io .unlockSession) r s₁.world :: s₁.history) = x.log :=
    (otaLog_io hs₁.request).trans hlogs
  have hmemory : s₁.world.memory = x.memory := congrArg OtaView.memory hs₁.view
  have hholds : s₁.world.memory.sessionMutex = some t := hmemory ▸ hs₁.holds
  have hsuspended : controlState s₁.world.ownershipControl = stateSuspended ↔
      x.suspended = true := by
    rw [← hs₁.suspended, decide_eq_true_iff]
  have hjoint (hresumed : x.log.resumed = true) : Joint s₁.world := by
    have huart := hx.uart hresumed
    refine ⟨?_, ?_, ?_⟩
    · rw [hs₁.ota, hmemory]
      exact hx.mode
    · rw [hsuspended, hmemory]
      exact hx.ownership
    · rw [hmemory]
      exact huart
  have hinv : OtaInv (s₁.acted t (.io .unlockSession) r
      { s₁.world with memory := { s₁.world.memory with sessionMutex := none } } s₁.ghost) := {
    word := hs₁.inv.word
    mode := hs₁.inv.mode
    sized := hs₁.inv.sized
    contiguous := by
      have h := hs₁.inv.contiguous
      rwa [hlogs, ← hlog] at h
    justified := by
      refine ⟨fun _ => ⟨_, hs₁.request⟩, fun request' hr => ?_, hs₁.inv.justified⟩
      rw [hlogs]
      exact ⟨fun _ => hjoint, fun _ h => by simp at h, fun _ h => by simp at h,
        fun h => absurd trivial h⟩
    rest := fun _ => by
      simp only [otaView, State.acted, hlog, hs₁.ota, hs₁.suspended, hmemory]
      exact ⟨hx.mode, hx.ownership, hx.uart, hx.current, hx.tolerated⟩ }
  refine ⟨s₁.ghost, ⟨hinv, ?_⟩, h _ ?_ hlog⟩
  · exact {
      event := ⟨_, rfl, rfl⟩
      transition := fun _ _ => Iff.rfl
      word := fun _ _ _ => rfl
      mutex := fun u hu => by
        rw [hholds]
        simp [State.acted, hu.symm]
      view := fun h => absurd hholds h }
  · exact {
      inv := hinv
      mutex := by simp [State.acted]
      request := hs₁.request
      entry := otaEntry_io.trans hs₁.entry
      transition := hs₁.transition }

theorem wp_underLock {failed : α} {body : OtaCode α}
    (hs : Outside t (some request) .start false s) (hfailed : ¬ ok failed)
    (hbody : ∀ x s₁, Gripped t request x ⟨some x.memory.session, none⟩ false s₁ → Resting x →
      OtaWp t body (Concluding t request ok) s₁) :
    OtaWp t (underLock failed body) (Finished t request ok) s := by
  refine wp_lockSession hs (fun x s₁ hs₁ hx => ?_) fun s₁ hs₁ => ?_
  · refine (hbody x s₁ hs₁ hx).bind fun v s₂ hs₂ => ?_
    obtain ⟨x', entry, hs₂, hx', hok⟩ := hs₂
    refine wp_unlockSession hs₂ hx' fun s₃ hs₃ hlog => ⟨⟨entry, hs₃⟩, fun hv => ?_⟩
    rw [hlog]
    exact hx'.tolerated (hok hv)
  · exact ⟨⟨_, hs₁⟩, fun hv => absurd hv hfailed⟩

end Lock

section Entry

theorem wp_checkAuthorized {session : OtaSession} (hx : Resting x)
    (hs : Gripped t request x ⟨some session, none⟩ false s) :
    OtaWp t (authorized client) (fun r s => ∃ x' entry,
      Gripped t request x' entry false s ∧ Resting x' ∧ x'.memory = x.memory ∧
        entry.found = some session ∧ (r = true → entry.Admits client)) s := by
  cases client with
  | none => exact ⟨x, _, hs, hx, rfl, rfl, fun _ => .inl rfl⟩
  | some c =>
    refine wp_ite (fun _ => ?_) fun _ => ⟨x, _, hs, hx, rfl, rfl, fun h => by cases h⟩
    refine wp_gripped (k := .ret) hs (by simp) (by simp)
      (fun w => justified_of_harmless trivial (by simp)) (fun r m hm h => hm ▸ h)
      (fun r h => by cases r <;> exact h) fun r m s₁ hm hs₁ => ?_
    cases hm
    refine ⟨_, _, hs₁, ?_, rfl, rfl, fun h => .inr ?_⟩
    · cases r with
      | true =>
        exact ⟨hx.mode, hx.ownership, hx.uart,
          fun h => ⟨(hx.current h).total, (hx.current h).declared, (hx.current h).handle,
            (hx.current h).client⟩, hx.tolerated⟩
      | false => exact hx
    · subst h
      rfl

theorem wp_loadSession (hs : Gripped t request x entry false s) {k : OtaSession → OtaCode α}
    {Q : α → OtaState T → Prop}
    (h : ∀ s₁, Gripped t request x entry false s₁ →
      OtaWp t (k x.memory.session) Q s₁) :
    OtaWp t (otaIo .loadSession >>= k) Q s := by
  refine wp_gripped hs (by simp) (by simp) (fun w => justified_of_harmless trivial (by simp))
    (fun r m hm h => hm.2 ▸ h) (fun r h => h) fun r m s₁ hm hs₁ => ?_
  obtain ⟨rfl, rfl⟩ := hm
  exact h s₁ hs₁

theorem wp_forClient {answer : OtaStatus → α} {refused : OtaSession → Prop}
    [DecidablePred refused] {body : OtaCode α} (hs : Outside t (some request) .start false s)
    (hanswer : ∀ status, status ≠ .ok → ¬ ok (answer status))
    (hentitled : ∀ entry session, entry.Admits client → entry.found = some session →
      ¬ refused session → request.Entitled entry)
    (hbody : ∀ x s₁, Updating t request x s₁ → Resting x → ¬ refused x.memory.session →
      OtaWp t body (Concluded t request ok) s₁) :
    OtaWp t (forClient client answer refused body) (Finished t request ok) s := by
  refine wp_underLock hs (hanswer _ (by simp)) fun x s₁ hs₁ hx => ?_
  refine (wp_checkAuthorized hx hs₁).bind fun r s₂ hs₂ => ?_
  obtain ⟨x', entry, hs₂, hx', hmemory, hfound, hadmits⟩ := hs₂
  have hrefused {status : OtaStatus} {s : OtaState T} (hstatus : status ≠ .ok)
      (hs : Gripped t request x' entry false s) : Concluding t request ok (answer status) s :=
    ⟨x', entry, hs, hx', fun h => absurd h (hanswer status hstatus)⟩
  refine wp_guard (hrefused (by simp) hs₂) fun hr => ?_
  refine wp_loadSession hs₂ fun s₃ hs₃ => ?_
  refine wp_guard (hrefused (by simp) hs₃) fun hpass => ?_
  rw [← hmemory] at hfound
  refine (hbody x' s₃ ⟨entry, hs₃, hentitled entry _ (hadmits (by simpa using hr)) hfound hpass⟩
    hx' hpass).mono fun v s₄ hs₄ => ?_
  obtain ⟨x'', ⟨entry', hs₄, -⟩, hx'', hok⟩ := hs₄
  exact ⟨x'', entry', hs₄, hx'', hok⟩

theorem Restored.concluding {v : α} (hs : Restored t request s) (hv : ¬ ok v) :
    Concluding t request ok v s := by
  obtain ⟨x, ⟨entry, hs, -⟩, hx⟩ := hs
  exact ⟨x, entry, hs, hx, fun h => absurd h hv⟩

end Entry

theorem wp_modeGet (hs : Gripped t request x entry false s) :
    OtaWp t modeGet (fun _ s => Gripped t request x entry false s) s := by
  unfold modeGet
  refine wp_loadModeHeld hs fun control s₁ hinit _ hs₁ => ?_
  refine wp_ite (fun h => absurd h hinit) fun _ => ?_
  exact wp_loadOwnershipHeld hs₁ fun _ s₂ _ hs₂ => hs₂

section Requests

variable (hs : Outside t (some request) .start false s)
include hs

theorem wp_otaDebugAllowed :
    OtaWp t otaDebugAllowed (Finished t request fun _ => False) s := by
  refine wp_underLock hs (fun h => h) fun x s₁ hs₁ hx => ?_
  have hdone {v : Bool} {s : OtaState T}
      (hs : Gripped t request x ⟨some x.memory.session, none⟩ false s) :
      Concluding t request (fun _ => False) v s := ⟨x, _, hs, hx, fun h => h.elim⟩
  refine wp_loadSession hs₁ fun s₂ hs₂ => ?_
  refine wp_guard (hdone hs₂) fun _ => ?_
  refine (wp_modeGet hs₂).bind fun mode s₃ hs₃ => ?_
  cases mode <;> exact hdone hs₃

theorem wp_otaReboot (hrequest : request = .reboot client) :
    OtaWp t (otaRebootForClient client) (Finished t request fun _ => False) s := by
  subst hrequest
  refine wp_underLock hs (fun h => h) fun x s₁ hs₁ hx => ?_
  refine (wp_checkAuthorized hx hs₁).bind fun r s₂ hs₂ => ?_
  obtain ⟨x', entry, hs₂, hx', -, -, hadmits⟩ := hs₂
  refine wp_guard ⟨x', entry, hs₂, hx', fun h => h.elim⟩ fun hr => ?_
  refine (wp_rebootLocked ⟨entry, hs₂, hadmits (by simpa using hr)⟩ hx').mono fun v s₃ hs₃ => ?_
  exact hs₃.concluding fun h => h

theorem wp_otaPrepareReboot :
    OtaWp t (otaPrepareReboot client) (Finished t request fun _ => False) s := by
  refine wp_underLock hs (fun h => h) fun x s₁ hs₁ hx => ?_
  refine (wp_checkAuthorized hx hs₁).bind fun r s₂ hs₂ => ?_
  obtain ⟨x', entry, hs₂, hx', -, -, -⟩ := hs₂
  refine wp_guard ⟨x', entry, hs₂, hx', fun h => h.elim⟩ fun _ => ?_
  exact wp_loadSession hs₂ fun s₃ hs₃ => ⟨x', entry, hs₃, hx', fun h => h.elim⟩

theorem wp_otaDisconnect (hrequest : request = .disconnect client) :
    OtaWp t (otaDisconnectClient rounds client) (Finished t request fun _ => False) s := by
  subst hrequest
  refine wp_underLock hs (fun h => h) fun x s₁ hs₁ hx => ?_
  refine wp_loadSession hs₁ fun s₂ hs₂ => ?_
  refine wp_ite (fun howner => ?_) fun _ => ⟨x, _, hs₂, hx, fun h => h.elim⟩
  have hupdating : Updating t (.disconnect client) x s₂ :=
    ⟨_, hs₂, x.memory.session, rfl, howner.1, howner.2⟩
  have hcurrent := hx.current howner.1
  refine wp_otaIo hupdating ⟨hupdating.sized.written, hupdating.sized.expected⟩
    fun _ m s₃ hm hs₃ => ?_
  cases hm
  have hx' : Resting { x with memory :=
      { x.memory with session := { x.memory.session with disconnected := true } } } :=
    ⟨hx.mode, hx.ownership, hx.uart,
      fun _ => ⟨hcurrent.total, hcurrent.declared, hcurrent.handle, hcurrent.client⟩,
      hx.tolerated⟩
  exact (wp_abortLocked hs₃ hx').mono fun v s₄ hs₄ => hs₄.concluding fun h => h

theorem wp_request : OtaWp t (request.code rounds)
    (Finished t request (OtaCall.Succeeds (.ota rounds request))) s := by
  have hid (status : OtaStatus) (_ : status ≠ .ok) : ¬ (fun _ : OtaStatus => False) status :=
    fun h => h
  cases request with
  | debugAllowed => exact wp_otaDebugAllowed hs
  | reboot client => exact wp_otaReboot hs rfl
  | prepareReboot client => exact wp_otaPrepareReboot hs
  | disconnect client => exact wp_otaDisconnect hs rfl
  | begin client imageSize =>
    refine wp_forClient hs hid (fun entry session hadmits hfound hpass => ?_)
      fun x s₁ hs₁ hx _ => ?_
    · exact ⟨hadmits, session, hfound, hpass⟩
    · exact (wp_beginLocked hs₁ hx rfl).mono fun v s₂ hs₂ => hs₂.concluded fun h => h
  | write client offset data nextOffset =>
    change OtaWp t (forClient client (·, nextOffset) (Foreign client) _) _ s
    refine wp_forClient hs ?_ (fun entry session hadmits hfound hpass => ?_)
      fun x s₁ hs₁ hx _ => ?_
    · exact fun status h => h
    · exact ⟨hadmits, session, hfound, hpass⟩
    · exact wp_writeLocked hs₁ hx rfl
  | commit client =>
    refine wp_forClient hs ?_ (fun entry session hadmits hfound hpass => ?_)
      fun x s₁ hs₁ hx hpass => ?_
    · exact fun status h => h
    · exact ⟨hadmits, session, hfound, hpass⟩
    · exact wp_commitLocked hs₁ hx rfl hpass
  | abort client =>
    refine wp_forClient hs hid (fun entry session hadmits hfound hpass => ?_)
      fun x s₁ hs₁ hx _ => ?_
    · exact ⟨hadmits, session, hfound, fun h => by simpa [h] using hpass⟩
    · exact (wp_abortLocked hs₁ hx).mono fun v s₂ hs₂ => hs₂.concluded fun h => h

end Requests

section Machine

/-- What a thread knows between its calls. -/
structure OtaIdle (t : T) (s : OtaState T) : Prop where
  inv : OtaInv s
  mutex : s.world.memory.sessionMutex ≠ some t
  transition : s.ghost ≠ some t

theorem otaIdle_stable : (otaDiscipline T).Stable t (OtaIdle t) := by
  intro u s s' hu hs hg
  obtain ⟨hinv, hkept⟩ := hg
  exact ⟨hinv, fun h => hs.mutex ((hkept.mutex t hu.symm).mp h),
    fun h => hs.transition ((hkept.transition t hu.symm).mp h)⟩

theorem OtaInv.extend (hs : OtaInv s) {e : OtaEvent T} (he : e.thread = t)
    (hlog : otaLog (e :: s.history) = otaLog s.history)
    (hjustified : AllJustified (e :: s.history)) :
    (otaDiscipline T).guar t s { s with history := e :: s.history } := by
  have hview : otaView { s with history := e :: s.history } = otaView s := by
    simp only [otaView, hlog]
  refine ⟨⟨hs.word, hs.mode, hs.sized, ?_, hjustified, fun h => ?_⟩, ?_⟩
  · exact hlog ▸ hs.contiguous
  · rw [hview]
    exact hs.rest h
  · exact ⟨⟨e, he, rfl⟩, fun _ _ => Iff.rfl, fun _ _ _ => rfl, fun _ _ => Iff.rfl,
      fun _ => hview⟩

theorem OtaIdle.called (hs : OtaIdle t s) (c : OtaCall) :
    (otaDiscipline T).guar t s (s.called t c) ∧
      Outside t c.request .start false (s.called t c) := by
  have hguar : (otaDiscipline T).guar t s (s.called t c) :=
    hs.inv.extend (e := .called t c s.world) rfl rfl hs.inv.justified
  refine ⟨hguar, hguar.1, hs.mutex, ?_, if_pos rfl, ?_⟩
  · simp [State.called, lastRequest, lastCall]
  · simpa [State.called] using hs.transition

theorem Outside.returned {r : Option OtaRequest} (hs : Outside t r entry false s) {c : OtaCall}
    {v : c.Value} (hv : c.Succeeds v → (otaLog s.history).Tolerated) :
    (otaDiscipline T).guar t s (s.returned (otaMachine T) t c v) ∧
      OtaIdle t (s.returned (otaMachine T) t c v) := by
  have hguar : (otaDiscipline T).guar t s (s.returned (otaMachine T) t c v) :=
    hs.inv.extend (e := .returned t c v) rfl rfl ⟨hv, hs.inv.justified⟩
  refine ⟨hguar, hguar.1, hs.mutex, fun h => ?_⟩
  cases hs.transition.mp h

theorem ota_verifies :
    Verifies (otaDiscipline T) (otaMachine T) OtaIdle fun _ _ _ _ => True where
  exec := rfl
  stable _ := otaIdle_stable
  call {t c s} hs hmay := by
    obtain ⟨hguar, hs⟩ := hs.called c
    refine ⟨hguar, ?_⟩
    cases hrequest : c.request with
    | none =>
      rw [hrequest] at hs
      refine (wp_traffic (Traffic.code hmay hrequest) hs).mono fun v s hs => ?_
      refine ⟨trivial, hs.returned fun hv => ?_⟩
      cases c with
      | ota rounds request => cases hrequest
      | _ => exact hv.elim
    | some request =>
      cases c with
      | ota rounds request' =>
        refine (wp_request (by exact hs)).mono fun v s hs => ?_
        obtain ⟨⟨entry, hs⟩, hv⟩ := hs
        exact ⟨trivial, hs.returned hv⟩
      | _ => cases hrequest

omit [DecidableEq T] in
theorem OtaFresh.joint {w : OtaDevice T} (hw : OtaFresh w) : Joint w where
  mode := by rw [hw.mode, hw.session]; rfl
  ownership := by simp [hw.session, hw.settled, OtaSession.zero]
  uart := by simp [hw.uart, hw.session, OtaSession.zero]

theorem OtaFresh.inv {w : OtaDevice T} (hw : OtaFresh w) : OtaInv (⟨w, [], none⟩ : OtaState T) where
  word := ⟨hw.wellFormed, hw.settled.2.2, iff_of_false hw.settled.1 (by simp)⟩
  mode := hw.initialized
  sized := by
    rw [hw.session]
    exact sized_zero
  contiguous := trivial
  justified := trivial
  rest _ := by
    have hjoint := hw.joint
    refine resting_idle (by simp [otaView, hw.session, OtaSession.zero]) hw.mode ?_ fun _ => hw.uart
    simp [otaView, hw.settled]

theorem ota_steps {w : OtaDevice T} {σ : OtaConfig T} (hw : OtaFresh w)
    (hsteps : (otaMachine T).Steps (.start w) σ) : ∃ γ, OtaInv (σ.state γ) := by
  have hsafe : (Config.start w : OtaConfig T).Safe (otaDiscipline T) (otaMachine T) OtaIdle
      (fun _ _ _ _ => True) none :=
    Config.start_safe fun t => ⟨hw.inv, by simp [hw.mutex], by simp⟩
  obtain ⟨γ, -, hinv⟩ := hsteps.safe ota_verifies (J := OtaInv) (fun _ _ _ _ hg => hg.1) hsafe
    hw.inv
  exact ⟨γ, hinv⟩

end Machine
end AirDap

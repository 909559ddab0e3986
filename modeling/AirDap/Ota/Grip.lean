import AirDap.Ota.Rules

/-! The steps of a request while it holds the mutex: an operation of the manager, a transition
of the OTA field, and the suspend and resume of the arbiter, whatever other threads do to the
two words meanwhile. -/
namespace AirDap
open Concurrency Discipline

variable {T : Type} [DecidableEq T] {t : T} {request : OtaRequest} {x : OtaView T}
  {entry : OtaEntry} {b : Bool} {s : OtaState T} {a : Act OtaIo} {r : Resp OtaIo.Answer a}
  {w : OtaDevice T} {γ : Option T} {α : Type} {Q : α → OtaState T → Prop}

variable {log : OtaLog} {i : OtaIo}

theorem Gripped.acted (hs : Gripped t request x entry b s)
    (hjustified : Justified request x.log entry s.world a) (hword : Governed w.ownershipControl γ)
    (hmode : w.modeControl &&& modeInitialized ≠ 0) (hsized : Sized w.memory.session)
    (hlog : otaLog (.acted t a r s.world :: s.history) = log) (hchunks : Contiguous log.chunks)
    {entry' : OtaEntry} (hentry : otaEntry t (.acted t a r s.world :: s.history) = entry')
    (hmutex : w.memory.sessionMutex = some t) (hγ : ∀ u, u ≠ t → (γ = some u ↔ s.ghost = some u))
    (hkeep : ∀ u, u ≠ t → s.ghost = some u → w.ownershipControl = s.world.ownershipControl) :
    (otaDiscipline T).guar t s (s.acted t a r w γ) ∧
      Gripped t request ⟨w.memory, otaField w.modeControl,
        controlState w.ownershipControl = stateSuspended, log⟩ entry' (γ = some t)
        (s.acted t a r w γ) := by
  have hholds : s.world.memory.sessionMutex = some t :=
    (congrArg (·.memory.sessionMutex) hs.view).trans hs.holds
  have hlogs : otaLog s.history = x.log := congrArg OtaView.log hs.view
  have hinv : OtaInv (s.acted t a r w γ) := {
    word := hword
    mode := hmode
    sized := hsized
    contiguous := by
      change Contiguous (otaLog (.acted t a r s.world :: s.history)).chunks
      rw [hlog]
      exact hchunks
    justified := by
      refine ⟨fun _ => ⟨request, hs.request⟩, fun request' hr => ?_, hs.inv.justified⟩
      cases hr.symm.trans hs.request
      rw [hlogs, hs.entry]
      exact hjustified
    rest := fun h => by
      cases hmutex.symm.trans h }
  refine ⟨⟨hinv, ?_⟩, ?_⟩
  · exact {
      event := ⟨_, rfl, rfl⟩
      transition := hγ
      word := hkeep
      mutex := fun u _ => by
        change w.memory.sessionMutex = some u ↔ _
        rw [hmutex, hholds]
      view := fun h => absurd hholds h }
  · exact {
      inv := hinv
      holds := hmutex
      view := by
        rw [← hlog]
        rfl
      request := hs.request
      entry := hentry
      transition := by simp [State.acted] }

theorem Gripped.ghost_iff (hs : Gripped t request x entry b s) : decide (s.ghost = some t) = b := by
  simp [hs.transition]

theorem wp_gripped (hs : Gripped t request x entry false s) {k : i.Answer → OtaCode α}
    (hlock : i ≠ .lockSession) (hunlock : i ≠ .unlockSession)
    (hjustified : ∀ w : OtaDevice T, Justified request x.log entry w (.io i))
    (hsized : ∀ r m, x.memory.exec t i r m → Sized x.memory.session → Sized m.session)
    (hchunks : ∀ r, Contiguous x.log.chunks → Contiguous (x.log.act request i r).chunks)
    (h : ∀ r m s₁, x.memory.exec t i r m →
      Gripped t request { x with memory := m, log := x.log.act request i r }
        (entry.act x.memory.session i r) false s₁ → OtaWp t (k r) Q s₁) :
    OtaWp t (otaIo i >>= k) Q s := by
  refine wp_act_of_stable gripped_stable hs fun s₁ hs₁ => ⟨trivial, fun r w hw => ?_⟩
  obtain ⟨m, hm, rfl⟩ := hw
  have hmemory : s₁.world.memory = x.memory := congrArg OtaView.memory hs₁.view
  have hlogs : otaLog s₁.history = x.log := congrArg OtaView.log hs₁.view
  rw [hmemory] at hm
  have hmutex : m.sessionMutex = some t := by
    rw [← hs₁.holds]
    cases i with
    | lockSession => exact absurd rfl hlock
    | unlockSession => exact absurd rfl hunlock
    | loadSession => rw [hm.2]
    | uartSuspend => rcases hm with rfl | ⟨-, rfl⟩ <;> rfl
    | uartResume => rcases hm with ⟨-, rfl⟩ | ⟨-, rfl⟩ <;> rfl
    | _ => rw [hm]
  have hchunks' := hs₁.inv.contiguous
  rw [hlogs] at hchunks'
  have hlog : otaLog (.acted t (.io i) r s₁.world :: s₁.history) = x.log.act request i r := by
    rw [otaLog_io hs₁.request, hlogs]
  have hentry : otaEntry t (.acted t (.io i) r s₁.world :: s₁.history) =
      entry.act x.memory.session i r := by
    rw [otaEntry_io, hs₁.entry, hmemory]
  have hstep := hs₁.acted (r := r) (w := { s₁.world with memory := m }) (γ := s₁.ghost)
    (hjustified s₁.world) hs₁.inv.word hs₁.inv.mode
    (hsized r m hm (hmemory ▸ hs₁.inv.sized)) hlog (hchunks r hchunks') hentry hmutex
    (fun _ _ => Iff.rfl) fun _ _ _ => rfl
  rw [hs₁.ghost_iff] at hstep
  refine ⟨s₁.ghost, hstep.1, h r m _ hm ?_⟩
  have hota : otaField s₁.world.modeControl = x.ota := congrArg OtaView.ota hs₁.view
  have hsuspended : decide (controlState s₁.world.ownershipControl = stateSuspended) =
      x.suspended := congrArg OtaView.suspended hs₁.view
  rw [← hota, ← hsuspended]
  exact hstep.2

/-- A request that may change the session holds the mutex and sees the view `x`. -/
def Updating (t : T) (request : OtaRequest) (x : OtaView T) (s : OtaState T) : Prop :=
  ∃ entry, Gripped t request x entry false s ∧ request.Entitled entry

omit [DecidableEq T] in
theorem justified_of_entitled (hentitled : request.Entitled entry)
    (hunlock : a ≠ .io .unlockSession)
    (hboot : ∀ partition, a = .io (.setBootPartition partition) →
      Complete request log ∧ log.Tolerated) : Justified request log entry w a where
  joint h := absurd h hunlock
  complete partition h := (hboot partition h).1
  tolerated partition h := (hboot partition h).2
  entitled _ := hentitled

/-- Later answers of the authorization do not change what the first check found. -/
theorem OtaRequest.Entitled.act (hentitled : request.Entitled entry) {session : OtaSession}
    (hi : i ≠ .lockSession) (r : i.Answer) : request.Entitled (entry.act session i r) := by
  have hfound : (entry.act session i r).found = entry.found := by
    cases i with
    | lockSession => exact absurd rfl hi
    | _ => rfl
  have hadmits {client : Option OtaClient} (h : entry.Admits client) :
      (entry.act session i r).Admits client := by
    refine h.imp_right fun h => ?_
    cases i with
    | lockSession => exact absurd rfl hi
    | authorize client => simp [OtaEntry.act, h]
    | _ => exact h
  cases request with
  | debugAllowed | prepareReboot client => exact hentitled
  | reboot client => exact hadmits hentitled
  | disconnect client =>
    unfold OtaRequest.Entitled
    rw [hfound]
    exact hentitled
  | _ =>
    unfold OtaRequest.Entitled
    rw [hfound]
    exact ⟨hadmits hentitled.1, hentitled.2⟩

/-- What the holder must know before an operation of the manager. -/
def OtaDue (request : OtaRequest) (x : OtaView T) : OtaIo → Prop
  | .lockSession | .unlockSession => False
  | .storeSession session => Sized session
  | .otaWrite _ _ => request.offset.toNat = x.log.total
  | .setBootPartition _ => Complete request x.log ∧ x.log.Tolerated
  | _ => True

theorem wp_otaIo (hs : Updating t request x s) {k : i.Answer → OtaCode α}
    (hdue : OtaDue request x i) (h : ∀ r m s₁, x.memory.exec t i r m →
      Updating t request { x with memory := m, log := x.log.act request i r } s₁ →
      OtaWp t (k r) Q s₁) : OtaWp t (otaIo i >>= k) Q s := by
  obtain ⟨entry, hs, hentitled⟩ := hs
  have hlock : i ≠ .lockSession := by
    rintro rfl
    exact hdue
  have hunlock : i ≠ .unlockSession := by
    rintro rfl
    exact hdue
  refine wp_gripped hs hlock hunlock (fun w => ?_) (fun r m hm hx => ?_) (fun r hx => ?_)
    (fun r m s₁ hm hs₁ => h r m s₁ hm ⟨_, hs₁, hentitled.act hlock r⟩)
  · refine justified_of_entitled hentitled (by simpa using hunlock) fun partition hi => ?_
    cases hi
    exact hdue
  · cases i with
    | lockSession | unlockSession => exact hdue.elim
    | storeSession session => cases hm; exact hdue
    | loadSession => rw [hm.2]; exact hx
    | uartSuspend => rcases hm with rfl | ⟨-, rfl⟩ <;> exact hx
    | uartResume => rcases hm with ⟨-, rfl⟩ | ⟨-, rfl⟩ <;> exact hx
    | _ => rw [hm]; exact hx
  · cases i with
    | otaBegin partition =>
      obtain ⟨begun, handle⟩ := r
      cases begun with
      | true => trivial
      | false => exact hx
    | otaWrite handle data =>
      cases r with
      | true => exact ⟨hdue, hx⟩
      | false => exact hx
    | otaEnd handle => cases r <;> exact hx
    | authorize client => cases r <;> exact hx
    | uartResume => cases r <;> exact hx
    | _ => exact hx

section Words

section

variable (hs : Gripped t request x entry b s)
include hs

theorem Gripped.ota : otaField s.world.modeControl = x.ota :=
  congrArg OtaView.ota hs.view

theorem Gripped.suspended :
    decide (controlState s.world.ownershipControl = stateSuspended) = x.suspended :=
  congrArg OtaView.suspended hs.view

theorem Gripped.words (ha : ∀ i, a ≠ .io i) (hentitled : ¬ a.Harmless → request.Entitled entry)
    (hmemory : w.memory = s.world.memory) (hword : Governed w.ownershipControl γ)
    (hmode : w.modeControl &&& modeInitialized ≠ 0)
    (hγ : ∀ u, u ≠ t → (γ = some u ↔ s.ghost = some u))
    (hkeep : ∀ u, u ≠ t → s.ghost = some u → w.ownershipControl = s.world.ownershipControl) :
    (otaDiscipline T).guar t s (s.acted t a r w γ) ∧
      Gripped t request { x with
        ota := otaField w.modeControl
        suspended := controlState w.ownershipControl = stateSuspended } entry (γ = some t)
        (s.acted t a r w γ) := by
  have hmem : s.world.memory = x.memory := congrArg OtaView.memory hs.view
  have hlog : otaLog s.history = x.log := congrArg OtaView.log hs.view
  have hchunks := hs.inv.contiguous
  rw [hlog] at hchunks
  have hstep := hs.acted (r := r) (w := w) ⟨fun h => absurd h (ha _), fun _ h => absurd h (ha _),
    fun _ h => absurd h (ha _), hentitled⟩ hword hmode (hmemory ▸ hs.inv.sized)
    ((otaLog_of_ne_io ha).trans hlog) hchunks ((otaEntry_of_ne_io ha).trans hs.entry)
    (by rw [hmemory, hmem, hs.holds]) hγ hkeep
  rwa [hmemory, hmem] at hstep

theorem Gripped.observe (ha : ∀ i, a ≠ .io i) (hentitled : ¬ a.Harmless → request.Entitled entry) :
    (otaDiscipline T).guar t s (s.acted t a r s.world s.ghost) ∧
      Gripped t request x entry b (s.acted t a r s.world s.ghost) := by
  have hstep := hs.words (r := r) ha hentitled rfl hs.inv.word hs.inv.mode (fun _ _ => Iff.rfl)
    fun _ _ _ => rfl
  rwa [hs.ota, hs.suspended, hs.ghost_iff] at hstep

end

theorem wp_loadModeHeld (hs : Gripped t request x entry false s) {k : Word → OtaCode α}
    (h : ∀ control s₁, control &&& modeInitialized ≠ 0 → otaField control = x.ota →
      Gripped t request x entry false s₁ → OtaWp t (k control) Q s₁) :
    OtaWp t (loadMode >>= k) Q s := by
  refine wp_act_of_stable gripped_stable hs fun s₁ hs₁ => ⟨trivial, fun r w hw => ?_⟩
  obtain ⟨rfl, rfl⟩ := hw
  obtain ⟨hguar, hs₂⟩ := hs₁.observe (a := .loadMode) (r := s₁.world.modeControl) (by simp)
    fun h => absurd trivial h
  exact ⟨_, hguar, h _ _ hs₁.inv.mode hs₁.ota hs₂⟩

theorem wp_loadOwnershipHeld (hs : Gripped t request x entry false s) {k : Word → OtaCode α}
    (h : ∀ control s₁, decide (controlState control = stateSuspended) = x.suspended →
      Gripped t request x entry false s₁ → OtaWp t (k control) Q s₁) :
    OtaWp t (loadOwnership >>= k) Q s := by
  refine wp_act_of_stable gripped_stable hs fun s₁ hs₁ => ⟨trivial, fun r w hw => ?_⟩
  obtain ⟨rfl, rfl⟩ := hw
  obtain ⟨hguar, hs₂⟩ := hs₁.observe (a := .loadOwnership) (r := s₁.world.ownershipControl)
    (by simp) fun h => absurd trivial h
  exact ⟨_, hguar, h _ _ hs₁.suspended hs₂⟩

variable {current ota : Word} {k : Option Word → OtaCode α} {event : ModeEvent} {ota' : Word}
  {rounds : ℕ}

theorem wp_casModeHeld (hs : Updating t request x s) {next : Word}
    (hinit : next &&& modeInitialized = current &&& modeInitialized) (hota : otaField next = ota)
    (hok : ∀ s₁, Updating t request { x with ota } s₁ → OtaWp t (k none) Q s₁)
    (hno : ∀ control s₁, control &&& modeInitialized ≠ 0 → otaField control = x.ota →
      Updating t request x s₁ → OtaWp t (k (some control)) Q s₁) :
    OtaWp t (casModeWeak current next >>= k) Q s := by
  obtain ⟨entry, hs, hentitled⟩ := hs
  refine wp_act_of_stable gripped_stable hs fun s₁ hs₁ => ⟨trivial, fun r w hw => ?_⟩
  rcases hw with ⟨rfl, rfl, rfl⟩ | ⟨rfl, rfl⟩
  · have hstep := hs₁.words (a := .casModeWeak s₁.world.modeControl next) (r := none)
      (w := { s₁.world with modeControl := next }) (by simp) (fun _ => hentitled) rfl
      hs₁.inv.word (hinit ▸ hs₁.inv.mode) (fun _ _ => Iff.rfl) fun _ _ _ => rfl
    rw [hs₁.ghost_iff, hota, hs₁.suspended] at hstep
    exact ⟨_, hstep.1, hok _ ⟨_, hstep.2, hentitled⟩⟩
  · obtain ⟨hguar, hs₂⟩ := hs₁.observe (a := .casModeWeak current next)
      (r := some s₁.world.modeControl) (by simp) fun _ => hentitled
    exact ⟨_, hguar, hno _ _ hs₁.inv.mode hs₁.ota ⟨_, hs₂, hentitled⟩⟩

/-- What an event of an update does to the OTA field. -/
inductive OtaMove : ModeEvent → Word → Word → Prop
  | started : OtaMove .otaStarted otaIdle otaReceiving
  | aborted : OtaMove .otaAborted otaReceiving otaIdle
  | failed : OtaMove .otaFailed otaReceiving otaIdle
  | committed : OtaMove .otaCommitted otaReceiving otaReadyToReboot

/-- The mode word after an event of an update. -/
def movedControl (current ota : Word) : Word :=
  incrementField (replaceField current modeOtaMask modeOtaShift ota) modeUsbOtaEpochMask
    modeUsbOtaEpochShift

theorem otaField_movedControl (current : Word)
    (h : fieldValue (ota <<< modeOtaShift) modeOtaMask modeOtaShift = ota) :
    otaField (movedControl current ota) = ota := by
  have hclear : current &&& ~~~modeOtaMask &&& modeOtaMask = 0 := by
    rw [BitVec.and_assoc, show ~~~modeOtaMask &&& modeOtaMask = 0 by decide]
    simp
  rw [otaField, fieldValue, movedControl, incrementField_and (by decide) (by decide),
    replaceField, BitVec.and_or_distrib_right, hclear]
  simpa [fieldValue] using h

section

variable (h : OtaMove event ota ota')
include h

theorem OtaMove.nextControl (hota : otaField current = ota) :
    nextControl current event = .ok (movedControl current ota') := by
  have hfield : fieldValue current modeOtaMask modeOtaShift = ota := hota
  cases h <;> simp [AirDap.nextControl, switchControl, hfield] <;> rfl

theorem OtaMove.otaField (current : Word) : otaField (movedControl current ota') = ota' := by
  cases h <;> exact otaField_movedControl current (by decide)

theorem OtaMove.ne_usbAttached : event ≠ .usbAttached := by
  cases h <;> decide

theorem OtaMove.initialized (hota : AirDap.otaField current = ota) :
    movedControl current ota' &&& modeInitialized = current &&& modeInitialized :=
  initialized_eq (nextControl_settled (h.nextControl hota))

end

theorem wp_transition (hs : Updating t request x s) (hmove : OtaMove event x.ota ota) :
    OtaWp t (modeTransition rounds event)
      (fun r s => r = .ok ∧ Updating t request { x with ota } s) s := by
  have hattach := hmove.ne_usbAttached
  have hloop (rounds : ℕ) : ∀ current s, current &&& modeInitialized ≠ 0 →
      otaField current = x.ota → Updating t request x s →
      OtaWp t (transitionLoop event rounds current)
        (fun r s => r = .ok ∧ Updating t request { x with ota } s) s := by
    induction rounds with
    | zero => exact fun _ _ _ _ _ _ _ => trivial
    | succ rounds ih =>
      intro current s hinit hfield hs
      unfold transitionLoop
      rw [hmove.nextControl hfield]
      refine wp_ite (fun h => absurd h hinit) fun _ => ?_
      refine wp_casModeHeld hs (hmove.initialized hfield) (hmove.otaField current)
        (fun s₁ hs₁ => ?_) fun control s₁ hinit hfield hs₁ => ih control s₁ hinit hfield hs₁
      refine wp_ite (fun h => absurd h.1 hattach) fun _ => ?_
      simp only [endPreemption, hattach, decide_false, Bool.false_eq_true, if_false]
      exact ⟨rfl, hs₁⟩
  unfold modeTransition
  refine wp_ite (fun h => absurd h hattach) fun _ => ?_
  obtain ⟨entry, hs, hentitled⟩ := hs
  exact wp_loadModeHeld hs fun control s₁ hinit hfield hs₁ =>
    hloop rounds control s₁ hinit hfield ⟨entry, hs₁, hentitled⟩

/-- A compare-exchange of the ownership word that starts or ends the suspension, or takes the
word for a transition. -/
theorem wp_casOwnershipHeld (hs : Updating t request x s) {desired : Word}
    (hsource : controlState current ≠ stateTransition) (hwf : WellFormed desired)
    (hinit : controlState desired ≠ stateUninitialized) (hok : ∀ entry s₁, Gripped t request
        { x with suspended := controlState desired = stateSuspended } entry
        (controlState desired = stateTransition) s₁ → request.Entitled entry →
      OtaWp t (k none) Q s₁)
    (hno : ∀ control s₁, decide (controlState control = stateSuspended) = x.suspended →
      Updating t request x s₁ → OtaWp t (k (some control)) Q s₁) :
    OtaWp t (casOwnershipWeak current desired >>= k) Q s := by
  obtain ⟨entry, hs, hentitled⟩ := hs
  refine wp_act_of_stable gripped_stable hs fun s₁ hs₁ => ⟨trivial, fun r w hw => ?_⟩
  rcases hw with ⟨rfl, rfl, rfl⟩ | ⟨rfl, rfl⟩
  · have hghost : s₁.ghost = none := hs₁.inv.word.ghost_eq_none hsource
    let γ := if controlState desired = stateTransition then some t else none
    have hγ : decide (γ = some t) = decide (controlState desired = stateTransition) := by
      by_cases h : controlState desired = stateTransition <;> simp [γ, h]
    have hstep := hs₁.words (a := .casOwnershipWeak s₁.world.ownershipControl desired) (r := none)
      (w := { s₁.world with ownershipControl := desired }) (γ := γ) (by simp)
      (fun _ => hentitled) rfl
      ⟨hwf, hinit, by by_cases h : controlState desired = stateTransition <;> simp [γ, h]⟩
      hs₁.inv.mode
      (fun u hu => by
        rw [hghost]
        by_cases h : controlState desired = stateTransition <;> simp [γ, h, hu.symm])
      fun u _ h => by
        rw [hghost] at h
        cases h
    rw [hs₁.ota, hγ] at hstep
    exact ⟨_, hstep.1, hok _ _ hstep.2 hentitled⟩
  · obtain ⟨hguar, hs₂⟩ := hs₁.observe (a := .casOwnershipWeak current desired)
      (r := some s₁.world.ownershipControl) (by simp) fun _ => hentitled
    exact ⟨_, hguar, hno _ _ hs₁.suspended ⟨_, hs₂, hentitled⟩⟩

/-- The pins are given back inside the transition, and the word is suspended or goes offline. -/
theorem wp_releasePins {generation : Word} (hg : generation.toNat < 2 ^ 28)
    (hx : x.suspended = false) (hentitled : request.Entitled entry)
    (hs : Gripped t request x entry true s) :
    OtaWp t (releasePins generation stateSuspended)
      (fun r s => (r = .ok ∧ Updating t request { x with suspended := true } s) ∨
        (r ≠ .ok ∧ Updating t request x s)) s := by
  have hstore (state : Word) {s : OtaState T} (hlt : state.toNat < 8)
      (hne : state ≠ stateTransition ∧ state ≠ stateUninitialized)
      (hs : Gripped t request x entry true s) :
      OtaWp t (storeOwnership (makeControl generation state)) (fun _ s =>
        Updating t request { x with suspended := state = stateSuspended } s) s := by
    refine wp_act_of_stable gripped_stable hs fun s₁ hs₁ => ⟨trivial, fun r w hw => ?_⟩
    cases hw
    have hstate := controlState_makeControl hg hlt
    have hghost : s₁.ghost = some t := hs₁.transition.mpr rfl
    have hstep := hs₁.words (a := .storeOwnership (makeControl generation state)) (r := r)
      (w := { s₁.world with ownershipControl := makeControl generation state }) (γ := none)
      (by simp) (fun _ => hentitled) rfl
      ⟨fun ha => absurd ha (not_isActive_makeControl hg hlt), fun h => hne.2 (hstate.symm.trans h),
        iff_of_false (fun h => hne.1 (hstate.symm.trans h)) (by simp)⟩ hs₁.inv.mode
      (fun u hu => by simp [hghost, hu.symm])
      fun u hu h => absurd (Option.some.inj (hghost.symm.trans h)) hu.symm
    rw [hs₁.ota, hstate] at hstep
    exact ⟨_, hstep.1, entry, by simpa using hstep.2, hentitled⟩
  refine wp_act_of_stable gripped_stable hs fun s₁ hs₁ => ⟨trivial, fun r w hw => ?_⟩
  cases hw
  obtain ⟨hguar, hs₂⟩ := hs₁.observe (a := .releasePins) (r := r) (by simp) fun _ => hentitled
  refine ⟨_, hguar, ?_⟩
  cases r with
  | true =>
    exact (hstore stateSuspended (by decide) (by decide) hs₂).bind fun _ s₃ hs₃ => .inl ⟨rfl, hs₃⟩
  | false =>
    have hsame : ({ x with suspended := decide (stateOffline = stateSuspended) } : OtaView T) =
        x := by
      rw [show decide (stateOffline = stateSuspended) = x.suspended by rw [hx]; decide]
    refine (hstore stateOffline (by decide) (by decide) hs₂).bind
      fun _ s₃ hs₃ => .inr ⟨by simp, ?_⟩
    rwa [hsame] at hs₃

theorem wp_suspend (hx : x.suspended = false) (hs : Updating t request x s) :
    OtaWp t (ownershipSuspend rounds)
      (fun r s => (r = .ok ∧ Updating t request { x with suspended := true } s) ∨
        (r ≠ .ok ∧ Updating t request x s)) s := by
  have hloop (rounds : ℕ) : ∀ current s, controlState current ≠ stateSuspended →
      Updating t request x s → OtaWp t (suspendLoop rounds current)
        (fun r s => (r = .ok ∧ Updating t request { x with suspended := true } s) ∨
          (r ≠ .ok ∧ Updating t request x s)) s := by
    induction rounds with
    | zero => exact fun _ _ _ _ _ _ => trivial
    | succ rounds ih =>
      intro current s hcurrent hs
      have hrefused {r : OwnershipResult} (hr : r ≠ .ok) :
          (r = .ok ∧ Updating t request { x with suspended := true } s) ∨
            (r ≠ .ok ∧ Updating t request x s) := .inr ⟨hr, hs⟩
      have hretry (control : Word) (s : OtaState T)
          (h : decide (controlState control = stateSuspended) = x.suspended)
          (hs : Updating t request x s) := ih control s (by simpa [hx] using h) hs
      have hg := controlGeneration_lt current
      unfold suspendLoop
      refine wp_ite (fun h => absurd h hcurrent) fun _ => ?_
      refine wp_guard (hrefused (by simp)) fun _ => ?_
      refine wp_guard (hrefused (by simp)) fun _ => ?_
      refine wp_guard (hrefused (by simp)) fun hfree => ?_
      rw [not_or] at hfree
      refine wp_ite (fun _ => ?_) fun _ => wp_ite
        (fun _ => hrefused (by simp)) fun _ => ?_
      · have hstate := controlState_makeControl hg (by decide : stateSuspended.toNat < 8)
        refine wp_casOwnershipHeld hs hfree.1
          (fun ha => absurd ha (not_isActive_makeControl hg (by decide)))
          (by rw [hstate]; decide) (fun entry s₁ hs₁ hentitled => .inl ⟨rfl, entry, ?_, hentitled⟩)
          hretry
        simpa [hstate, show stateSuspended ≠ stateTransition by decide] using hs₁
      · have hstate := controlState_makeControl hg (by decide : stateTransition.toNat < 8)
        refine wp_casOwnershipHeld hs hfree.1
          (fun ha => absurd ha (not_isActive_makeControl hg (by decide)))
          (by rw [hstate]; decide) (fun entry s₁ hs₁ hentitled => ?_) hretry
        have hsame : ({ x with suspended := decide (controlState (makeControl
            (controlGeneration current) stateTransition) = stateSuspended) } : OtaView T) = x := by
          rw [hstate, show decide (stateTransition = stateSuspended) = x.suspended by
            rw [hx]; decide]
        rw [hsame, hstate] at hs₁
        exact wp_releasePins hg hx hentitled (by simpa using hs₁)
  obtain ⟨entry, hs, hentitled⟩ := hs
  exact wp_loadOwnershipHeld hs fun control s₁ hcontrol hs₁ =>
    hloop rounds control s₁ (by simpa [hx] using hcontrol) ⟨entry, hs₁, hentitled⟩

theorem wp_resume (hx : x.suspended = true) (hs : Updating t request x s) :
    OtaWp t (ownershipResume rounds)
      (fun r s => r = .ok ∧ Updating t request { x with suspended := false } s) s := by
  have hloop (rounds : ℕ) : ∀ current s, controlState current = stateSuspended →
      Updating t request x s → OtaWp t (resumeLoop rounds current)
        (fun r s => r = .ok ∧ Updating t request { x with suspended := false } s) s := by
    induction rounds with
    | zero => exact fun _ _ _ _ _ _ => trivial
    | succ rounds ih =>
      intro current s hcurrent hs
      have hg := controlGeneration_lt current
      have hstate := controlState_makeControl hg (by decide : ownerNone.toNat < 8)
      unfold resumeLoop
      simp only [hcurrent]
      refine wp_ite (fun h => absurd h (by decide)) fun _ => ?_
      refine wp_ite (fun h => absurd h (by decide)) fun _ => ?_
      refine wp_ite (fun h => absurd h (by decide)) fun _ => ?_
      refine wp_ite (fun h => absurd rfl h) fun _ => ?_
      refine wp_casOwnershipHeld hs (by rw [hcurrent]; decide)
        (fun ha => absurd ha (not_isActive_makeControl hg (by decide)))
        (by rw [hstate]; decide) (fun entry s₁ hs₁ hentitled => ⟨rfl, entry, ?_, hentitled⟩)
        fun control s₁ h hs₁ => ih control s₁ (by simpa [hx] using h) hs₁
      simpa [hstate, show ownerNone ≠ stateTransition by decide,
        show ownerNone ≠ stateSuspended by decide] using hs₁
  obtain ⟨entry, hs, hentitled⟩ := hs
  exact wp_loadOwnershipHeld hs fun control s₁ hcontrol hs₁ =>
    hloop rounds control s₁ (by simpa [hx] using hcontrol) ⟨entry, hs₁, hentitled⟩

end Words
end AirDap

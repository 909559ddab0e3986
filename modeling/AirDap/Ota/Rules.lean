import AirDap.Ota.Log
import AirDap.Ota.Traffic

/-! What a thread may assume and must keep while requests to the OTA manager and other calls
run. The ghost state is the thread that has put the ownership word in TRANSITION. What belongs
to the mutex of the session, the OTA field and the SUSPENDED state included, is a view that
only the holder of the mutex changes. -/
namespace AirDap
open Concurrency

variable {T : Type}

abbrev OtaState (T : Type) :=
  State T (Act OtaIo) (Resp OtaIo.Answer) (OtaDevice T) OtaCall OtaCall.Value (Option T)

abbrev OtaDiscipline (T : Type) :=
  Discipline T (Act OtaIo) (Resp OtaIo.Answer) (OtaDevice T) OtaCall OtaCall.Value (Option T)

/-- What belongs to the mutex of the session. -/
structure OtaView (T : Type) where
  memory : OtaMemory T
  ota : Word
  suspended : Bool
  log : OtaLog

/-- The image that was written fits the size that was declared, and that fits the partition. -/
structure Sized (session : OtaSession) : Prop where
  written : session.writtenSize.toNat ≤ session.expectedSize.toNat
  expected : ∀ partition, session.partition = some partition →
    session.expectedSize.toNat ≤ partition.size

/-- The session is the update that the driver calls have built. -/
structure Current (session : OtaSession) (log : OtaLog) : Prop where
  total : log.total = session.writtenSize.toNat
  declared : log.declared = session.expectedSize
  handle : log.handle = session.handle
  client : OwnsSession session log.client

/-- What is true of the view while the mutex is free. -/
structure Resting (x : OtaView T) : Prop where
  mode : x.ota = x.memory.session.state.field
  ownership : x.suspended = true ↔ x.memory.session.state ≠ .idle
  uart : x.log.resumed = true → (x.memory.uartSuspended = true ↔ x.memory.session.state ≠ .idle)
  current : x.memory.session.state = .receiving → Current x.memory.session x.log
  tolerated : x.memory.session.state ≠ .idle → x.log.Tolerated

variable [DecidableEq T]

def otaView (s : OtaState T) : OtaView T where
  memory := s.world.memory
  ota := otaField s.world.modeControl
  suspended := controlState s.world.ownershipControl = stateSuspended
  log := otaLog s.history

/-- The ownership word is initialized and well-formed, and in TRANSITION exactly while a thread
has put it there. -/
structure Governed (control : Word) (transition : Option T) : Prop where
  wellFormed : WellFormed control
  initialized : controlState control ≠ stateUninitialized
  transition : controlState control = stateTransition ↔ transition ≠ none

structure OtaInv (s : OtaState T) : Prop where
  word : Governed s.world.ownershipControl s.ghost
  mode : s.world.modeControl &&& modeInitialized ≠ 0
  sized : Sized s.world.memory.session
  contiguous : Contiguous (otaLog s.history).chunks
  justified : AllJustified s.history
  rest : s.world.memory.sessionMutex = none → Resting (otaView s)

/-- What a step of thread `u` keeps for the others. -/
structure OtaKept (u : T) (s s' : OtaState T) : Prop where
  event : ∃ e : OtaEvent T, e.thread = u ∧ s'.history = e :: s.history
  transition : ∀ t, t ≠ u → (s'.ghost = some t ↔ s.ghost = some t)
  word : ∀ t, t ≠ u → s.ghost = some t → s'.world.ownershipControl = s.world.ownershipControl
  mutex : ∀ t, t ≠ u →
    (s'.world.memory.sessionMutex = some t ↔ s.world.memory.sessionMutex = some t)
  view : s.world.memory.sessionMutex ≠ some u → otaView s' = { otaView s with
    memory := { s.world.memory with sessionMutex := s'.world.memory.sessionMutex } }

def otaDiscipline (T : Type) [DecidableEq T] : OtaDiscipline T where
  exec := otaExec
  guar t s s' := OtaInv s' ∧ OtaKept t s s'
  pre _ _ _ := True

abbrev OtaWp {α : Type} (t : T) (p : OtaCode α) (Q : α → OtaState T → Prop) (s : OtaState T) :
    Prop :=
  (otaDiscipline T).wp t p Q s

/-- Thread `t` is outside the mutex, in the request `request` if it is in one. -/
structure Outside (t : T) (request : Option OtaRequest) (entry : OtaEntry) (transition : Bool)
    (s : OtaState T) : Prop where
  inv : OtaInv s
  mutex : s.world.memory.sessionMutex ≠ some t
  request : lastRequest t s.history = request
  entry : otaEntry t s.history = entry
  transition : s.ghost = some t ↔ transition = true

/-- Thread `t` holds the mutex in the request `request` and sees the view `x`. -/
structure Gripped (t : T) (request : OtaRequest) (x : OtaView T) (entry : OtaEntry)
    (transition : Bool) (s : OtaState T) : Prop where
  inv : OtaInv s
  holds : x.memory.sessionMutex = some t
  view : otaView s = x
  request : lastRequest t s.history = some request
  entry : otaEntry t s.history = entry
  transition : s.ghost = some t ↔ transition = true

section Stable

variable {t u : T} {request : OtaRequest} {x : OtaView T} {entry : OtaEntry} {b : Bool}
  {s s' : OtaState T}

theorem OtaKept.lastRequest (h : OtaKept u s s') (hu : u ≠ t) :
    lastRequest t s'.history = lastRequest t s.history := by
  obtain ⟨e, rfl, he⟩ := h.event
  rw [he, lastRequest_of_ne hu]

theorem OtaKept.otaEntry (h : OtaKept u s s') (hu : u ≠ t) :
    otaEntry t s'.history = otaEntry t s.history := by
  obtain ⟨e, rfl, he⟩ := h.event
  rw [he, otaEntry_of_ne hu]

theorem outside_stable {r : Option OtaRequest} :
    (otaDiscipline T).Stable t (Outside t r entry b) := by
  intro u s s' hu hs hg
  obtain ⟨hinv, hkept⟩ := hg
  exact {
    inv := hinv
    mutex := fun h => hs.mutex ((hkept.mutex t hu.symm).mp h)
    request := (hkept.lastRequest hu).trans hs.request
    entry := (hkept.otaEntry hu).trans hs.entry
    transition := (hkept.transition t hu.symm).trans hs.transition }

theorem gripped_stable : (otaDiscipline T).Stable t (Gripped t request x entry b) := by
  intro u s s' hu hs hg
  obtain ⟨hinv, hkept⟩ := hg
  have hmutex : s.world.memory.sessionMutex = some t :=
    (congrArg (·.memory.sessionMutex) hs.view).trans hs.holds
  have hmutex' := (hkept.mutex t hu.symm).mpr hmutex
  have hview := hkept.view fun h => hu (Option.some.inj (h.symm.trans hmutex))
  rw [hmutex', ← hmutex] at hview
  exact {
    inv := hinv
    holds := hs.holds
    view := hview.trans hs.view
    request := (hkept.lastRequest hu).trans hs.request
    entry := (hkept.otaEntry hu).trans hs.entry
    transition := (hkept.transition t hu.symm).trans hs.transition }

end Stable

section Outside

variable {t : T} {request : Option OtaRequest} {entry : OtaEntry} {b : Bool} {s : OtaState T}
  {a : Act OtaIo} {r : Resp OtaIo.Answer a} {w : OtaDevice T} {γ : Option T}

theorem Outside.acted (hs : Outside t none entry b s) (ha : ∀ i, a ≠ .io i)
    (hmemory : w.memory = s.world.memory) (hword : Governed w.ownershipControl γ)
    (hmode : w.modeControl &&& updateMask = s.world.modeControl &&& updateMask)
    (hsuspended : controlState w.ownershipControl = stateSuspended ↔
      controlState s.world.ownershipControl = stateSuspended)
    (hγ : ∀ u, u ≠ t → (γ = some u ↔ s.ghost = some u))
    (hkeep : ∀ u, u ≠ t → s.ghost = some u →
      w.ownershipControl = s.world.ownershipControl) :
    (otaDiscipline T).guar t s (s.acted t a r w γ) ∧
      Outside t none entry (γ = some t) (s.acted t a r w γ) := by
  have hota : otaField w.modeControl = otaField s.world.modeControl := by
    rw [otaField, otaField, fieldValue, fieldValue,
      and_eq_of_and_eq (f := modeOtaMask) hmode (by decide)]
  have hview : otaView (s.acted t a r w γ) = otaView s := by
    simp only [otaView, State.acted, hmemory, hota, hsuspended, otaLog_of_ne_io ha]
  have hinv : OtaInv (s.acted t a r w γ) := {
    word := hword
    mode := by
      have h := hs.inv.mode
      rwa [← and_eq_of_and_eq (f := modeInitialized) hmode (by decide)] at h
    sized := by
      have h := hs.inv.sized
      rwa [← hmemory] at h
    contiguous := by
      have h := hs.inv.contiguous
      rwa [← otaLog_of_ne_io ha] at h
    justified := by
      refine ⟨fun h => h.elim fun i hi => absurd hi (ha i), fun request hr => ?_, hs.inv.justified⟩
      cases hr.symm.trans hs.request
    rest := fun h => by
      rw [hview]
      apply hs.inv.rest
      rw [← hmemory]
      exact h }
  refine ⟨⟨hinv, ?_⟩, ?_⟩
  · exact {
      event := ⟨_, rfl, rfl⟩
      transition := hγ
      word := hkeep
      mutex := fun u _ => by
        change w.memory.sessionMutex = some u ↔ _
        rw [hmemory]
      view := fun _ => by
        rw [hview]
        change otaView s = { otaView s with
          memory := { s.world.memory with sessionMutex := w.memory.sessionMutex } }
        rw [hmemory]
        rfl }
  · exact {
      inv := hinv
      mutex := fun h => hs.mutex ((congrArg OtaMemory.sessionMutex hmemory).symm.trans h)
      request := hs.request
      entry := (otaEntry_of_ne_io ha).trans hs.entry
      transition := by simp [State.acted] }

theorem Outside.observe (hs : Outside t none entry b s) (ha : ∀ i, a ≠ .io i)
    (hmemory : w.memory = s.world.memory)
    (hword : w.ownershipControl = s.world.ownershipControl)
    (hmode : w.modeControl &&& updateMask = s.world.modeControl &&& updateMask) :
    (otaDiscipline T).guar t s (s.acted t a r w s.ghost) ∧
      Outside t none entry b (s.acted t a r w s.ghost) := by
  have h := hs.acted (r := r) (γ := s.ghost) ha hmemory (hword ▸ hs.inv.word) hmode (by rw [hword])
    (fun _ _ => Iff.rfl) fun _ _ _ => hword
  have hb : decide (s.ghost = some t) = b := by simp [hs.transition]
  rwa [hb] at h

omit [DecidableEq T] in
theorem Governed.ghost_eq_none {control : Word} (h : Governed control γ)
    (hne : controlState control ≠ stateTransition) : γ = none := by
  by_contra hγ
  exact hne (h.transition.mpr hγ)

theorem Outside.exchange (hs : Outside t none entry false s) {d : Word}
    (he : Exchange s.world.ownershipControl d) :
    ∃ γ, (otaDiscipline T).guar t s (s.acted t (.casOwnership s.world.ownershipControl d) none
        { s.world with ownershipControl := d } γ) ∧
      Outside t none entry (trafficNext false (.casOwnership s.world.ownershipControl d) none)
        (s.acted t (.casOwnership s.world.ownershipControl d) none
          { s.world with ownershipControl := d } γ) := by
  have hsource : controlState s.world.ownershipControl ≠ stateTransition := fun h =>
    he.source (.inl h)
  have hghost : s.ghost = none := hs.inv.word.ghost_eq_none hsource
  refine ⟨if controlState d = stateTransition then some t else none, ?_⟩
  have hnext : trafficNext false (.casOwnership s.world.ownershipControl d) none =
      decide ((if controlState d = stateTransition then some t else none) = some t) := by
    by_cases h : controlState d = stateTransition <;> simp [trafficNext, h, hsource]
  rw [hnext]
  refine hs.acted (fun _ => by simp) rfl ⟨he.wellFormed, he.target.2, ?_⟩ rfl ?_ (fun u hu => ?_)
    (fun u hu h => ?_)
  · by_cases h : controlState d = stateTransition <;> simp [h]
  · exact iff_of_false he.target.1 fun h => he.source (.inr (.inl h))
  · rw [hghost]
    split
    · simpa using hu.symm
    · rfl
  · rw [hghost] at h
    cases h

theorem Outside.store (hs : Outside t none entry true s) {d : Word}
    (hd : ¬ Barred (controlState d)) (hwf : WellFormed d) :
    (otaDiscipline T).guar t s (s.acted t (.storeOwnership d) ()
        { s.world with ownershipControl := d } none) ∧
      Outside t none entry false (s.acted t (.storeOwnership d) ()
        { s.world with ownershipControl := d } none) := by
  have hghost : s.ghost = some t := hs.transition.mpr rfl
  have hstate : controlState s.world.ownershipControl = stateTransition :=
    hs.inv.word.transition.mpr (by simp [hghost])
  have hother (u : T) (hu : u ≠ t) : s.ghost ≠ some u := by
    rw [hghost]
    simpa using hu.symm
  refine hs.acted (γ := none) (fun _ => by simp) rfl
    ⟨hwf, fun h => hd (.inr (.inr h)), iff_of_false (fun h => hd (.inl h)) (by simp)⟩ rfl ?_
    (fun u hu => iff_of_false (by simp) (hother u hu)) fun u hu h => absurd h (hother u hu)
  rw [hstate]
  exact iff_of_false (fun h => hd (.inr (.inl h))) (by decide)

theorem Outside.traffic (hs : Outside t none entry b s) (ha : TrafficAllowed b a)
    (hw : otaExec t s.world a r w) :
    ∃ γ, (otaDiscipline T).guar t s (s.acted t a r w γ) ∧
      Outside t none entry (trafficNext b a r) (s.acted t a r w γ) := by
  cases a with
  | loadOwnership | loadMode | loadPreemptions =>
    obtain ⟨-, rfl⟩ := hw
    exact ⟨_, hs.observe (by simp) rfl rfl rfl⟩
  | addPreemption | subPreemption | lineReset | releasePins =>
    cases hw
    exact ⟨_, hs.observe (by simp) rfl rfl rfl⟩
  | saveRoute route =>
    rcases hw with rfl | ⟨-, rfl⟩ <;> exact ⟨_, hs.observe (by simp) rfl rfl rfl⟩
  | casModeWeak e d =>
    rcases hw with ⟨rfl, rfl, rfl⟩ | ⟨rfl, rfl⟩
    · exact ⟨_, hs.observe (by simp) rfl rfl ha⟩
    · exact ⟨_, hs.observe (by simp) rfl rfl rfl⟩
  | casOwnership e d =>
    obtain ⟨rfl, hexchange⟩ := ha
    rcases hw with ⟨rfl, rfl, rfl⟩ | ⟨-, rfl, rfl⟩
    · exact hs.exchange (hexchange hs.inv.word.wellFormed)
    · exact ⟨_, hs.observe (by simp) rfl rfl rfl⟩
  | storeOwnership d =>
    obtain ⟨rfl, hd, hwf⟩ := ha
    cases hw
    exact ⟨none, hs.store hd hwf⟩
  | casOwnershipWeak e d => exact ha.elim
  | io i => exact ha.elim

/-- A call outside an update ends outside the mutex and outside a transition. -/
theorem wp_traffic {α : Type} {p : OtaCode α} (hp : Traffic p false)
    (hs : Outside t none entry false s) :
    OtaWp t p (fun _ s => Outside t none entry false s) s := by
  refine (Discipline.wp_follows (P := fun b s => Outside t none entry b s) hp
    (fun b => outside_stable) (fun b a s hs ha => ⟨trivial, fun r w hw => hs.traffic ha hw⟩)
    (fun _ _ _ => trivial) hs).mono fun v s hs => ?_
  obtain ⟨b, rfl, hs⟩ := hs
  exact hs

end Outside
end AirDap

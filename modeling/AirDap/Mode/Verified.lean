import AirDap.Shell.ProbeSpec

/-! Every call of the mode state keeps the discipline, and what each of them promises when it
returns. -/
namespace AirDap
open Concurrency Function

variable {T H : Type} [DecidableEq T]

/-- The world in which the current call of `t` read the mode word after `n` earlier readings,
with the trace of the call before it. -/
def modeReading {I : Type} {J : I → Type} {M C : Type} {V : C → Type} (t : T) (n : ℕ) :
    List (Event T (Act I) (Resp J) (Device M) C V) → Option (Device M × Trace)
  | [] => none
  | .called u _ _ :: h => if u = t then none else modeReading t n h
  | .acted u .loadMode _ w :: h =>
    if u = t ∧ (trace t h).modeReads = n then some (w, trace t h) else modeReading t n h
  | _ :: h => modeReading t n h

/-- What a begin promises when it returns `v`: an allowed operation was reserved, and the
policy met, when the call read the mode word for the second time; after any other result the
handle is inactive, if it was before, and the reservation is gone. -/
structure Begun (t : T) (owner : Word) (authenticated boardControl : Bool) (owners : Word → Prop)
    (handle : H) (v : ModeDapResult × Option Operation)
    (history : List (Event T (Act ProbeIo) (Resp ProbeIo.Answer) (Device (H → Operation))
      (ModeCall H) ModeCall.Value)) : Prop where
  allowed : v.1 = .allowed → ∃ op w τ, v.2 = some op ∧ op.active = true ∧ owners op.owner ∧
    modeReading t 1 history = some (w, τ) ∧ τ.reserved = true ∧
    w.ownershipControl = makeControl op.generation op.owner ||| controlActive ∧
    Admissible w.modeControl owner authenticated boardControl
  refused : v.1 ≠ .allowed → ∀ c w₀, lastCall t history = some (c, w₀) →
    (w₀.memory handle).active = false →
      (∃ op, v.2 = some op ∧ op.active = false) ∧ (trace t history).reserved = false

/-- What holds at the instant a call returns. -/
def ModePost (t : T) : (c : ModeCall H) → c.Value → ModeState T H → Prop
  | .dapAcquire _ _ _, v, s => v.1 ≠ .allowed → Rolled t (trace t s.history).created s
  | .swdProbe _ _ _, _, s => Rolled t (trace t s.history).created s
  | .controlOperationBegin authenticated (some h), v, s =>
    Begun t ownerNetwork authenticated true (fun o => o = ownerNone ∨ o = ownerNetwork) h v
      s.history
  | .dapOperationBegin owner authenticated claim (some h), v, s =>
    Begun t owner authenticated false (fun o => ∃ cl, claim = some cl ∧ cl.owner = o) h v s.history
  | _, _, _ => True

/-- What a thread knows between its calls. -/
def Idle (user : H → T) (t : T) (s : ModeState T H) : Prop :=
  Owned (keyUser user) Sum.inl t none s ∧ Sane s

section Calls

variable [DecidableEq H] {user : H → T} {t : T} {c : ModeCall H} {v : c.Value}
  {w₀ : Device (H → Operation)} {τ : Trace} {R : ModeState T H → Prop} {s : ModeState T H}

omit [DecidableEq H] in
theorem idle_stable : (modeDiscipline user).Stable t (Idle user t) :=
  fun _ _ _ hu hs hg => ⟨hs.1.of_legal hu hg.1, hg.2.sane hs.2⟩

omit [DecidableEq T] [DecidableEq H] in
theorem Sane.called (hs : Sane s) : Sane (s.called t c) where
  route := hs.route
  grant := hs.grant

omit [DecidableEq T] in
theorem Sane.returned (hs : Sane s) : Sane (s.returned (modeMachine user) t c v) where
  route := hs.route
  grant := hs.grant

omit [DecidableEq H] in
theorem Idle.called (hs : Idle user t s) (c : ModeCall H) :
    (modeDiscipline user).guar t s (s.called t c) ∧
      On user t c s.world .start (fun _ => True) (s.called t c) := by
  have howned : Owned (keyUser user) Sum.inl t none (s.called t c) := ⟨hs.1.tracks, hs.1.handle⟩
  refine ⟨⟨⟨⟨.stay, .stay⟩, hs.1.tracks, fun _ _ => rfl, _, rfl, rfl⟩, id, Sane.called,
    fun h => absurd rfl h⟩, ⟨howned, hs.2.called, if_pos rfl, fun _ _ => rfl, if_pos rfl⟩, trivial⟩

theorem idle_returned (hsane : Sane s)
    (hlegal : Legal (keyUser user) Sum.inl t s (s.returned (modeMachine user) t c v))
    (howned : Owned (keyUser user) Sum.inl t none (s.returned (modeMachine user) t c v)) :
    (modeDiscipline user).guar t s (s.returned (modeMachine user) t c v) ∧
      Idle user t (s.returned (modeMachine user) t c v) :=
  ⟨⟨hlegal, id, Sane.returned, fun h => absurd rfl h⟩, howned, hsane.returned⟩

section

variable (hs : At user t c w₀ τ s)
include hs

theorem At.returned (hbusy : τ.busy c = none)
    (hsame : storeHandle s.world.memory c.handle (c.operation v) = s.world.memory) :
    (modeDiscipline user).guar t s (s.returned (modeMachine user) t c v) ∧
      Idle user t (s.returned (modeMachine user) t c v) := by
  have hfin : (modeMachine user).finish t c v s.world =
      { s.world with memory := s.world.memory } :=
    congrArg (fun m => { s.world with memory := m }) hsame
  have hlegal : Legal (keyUser user) Sum.inl t s (s.returned (modeMachine user) t c v) :=
    .returned hs.owned.tracks _ hfin fun _ _ => rfl
  refine idle_returned hs.sane hlegal ⟨hlegal.tracks, fun h hh _ => ?_⟩
  refine (hs.owned.handle h hh (by simp [hbusy])).of_eq ?_ (fun _ => Iff.rfl) fun _ _ => rfl
  exact congrFun hsame h

theorem At.returned_of_none (hc : c.handle = none) :
    (modeDiscipline user).guar t s (s.returned (modeMachine user) t c v) ∧
      Idle user t (s.returned (modeMachine user) t c v) := by
  refine hs.returned ?_ ?_
  · simp [Trace.busy, hc]
  · simp [hc, storeHandle]

theorem At.returned_write {h : H} {op : Operation} (hc : c.handle = some h) (hh : user h = t)
    (hv : c.operation v = some op)
    (hok : HandleOk Sum.inl h (s.returned (modeMachine user) t c v)) :
    (modeDiscipline user).guar t s (s.returned (modeMachine user) t c v) ∧
      Idle user t (s.returned (modeMachine user) t c v) := by
  have hfin : (modeMachine user).finish t c v s.world =
      { s.world with memory := update s.world.memory h op } := by
    simp only [modeMachine, hc, hv, storeHandle]
  have hbusy : Owned (keyUser user) Sum.inl t (some h) s := by
    refine ⟨hs.owned.tracks, fun h' hh' hne => hs.owned.handle h' hh' ?_⟩
    unfold Trace.busy
    split
    · rwa [hc]
    · simp
  refine idle_returned hs.sane (.returned hs.owned.tracks _ hfin fun h' hh' => ?_)
    (hbusy.write rfl hfin hok)
  refine update_of_ne ?_ ..
  rintro rfl
  exact hh' hh

end

section Begins

variable {owner : Word} {authenticated boardControl : Bool} {may : Option Owner → Prop} {h : H}
  {r : ModeDapResult × Option Operation}

omit [DecidableEq H] in
theorem OperationPost.begun {owners : Word → Prop} (hmay : ∀ o, may o → owners (heldCode o))
    (hpost : OperationPost user t c w₀ { Trace.start with modeReads := 1 } R (.inl h) may
      (dapPolicy · owner authenticated boardControl) (some (w₀.memory h)) r s) :
    Begun t owner authenticated boardControl owners h r s.history := by
  cases hpost with
  | @allowed _ o g hs hread hpolicy hm hidle =>
    refine ⟨fun _ => ?_, fun h => absurd rfl h⟩
    obtain ⟨history, hhist, htrace⟩ := hread
    refine ⟨_, s.world, _, rfl, rfl, hmay o hm, ?_, congrArg Trace.reserved htrace, ?_, ?_⟩
    · rw [hhist]
      exact if_pos ⟨rfl, congrArg Trace.modeReads htrace⟩
    · rw [show s.world.ownershipControl = s.ghost.control from hs.1.owned.tracks, Arbiter.control,
        hs.2.2.1, Arbiter.word, hs.2.2.2]
    · exact (dapPolicy_allowed hs.1.sane.route).mp hpolicy
  | ended hs hr hidle =>
    obtain ⟨τ, hτ, -, hs⟩ := hs
    refine ⟨fun he => absurd he hr, fun _ c w _ _ => ⟨⟨_, rfl, rfl⟩, ?_⟩⟩
    rw [hs.1.trace, hτ]
  | kept hs hr =>
    obtain ⟨τ, hτ, -, hs⟩ := hs
    refine ⟨fun he => absurd he hr, fun _ c' w hcall hact => ⟨⟨_, rfl, ?_⟩, ?_⟩⟩
    · cases hs.1.call.symm.trans hcall
      exact hact
    · rw [hs.1.trace, hτ]

theorem OperationPost.returned {policy : Word → ModeDapResult} (hc : c.handle = some h)
    (hh : user h = t) (hv : c.operation v = r.2)
    (hpost : OperationPost user t c w₀ τ R (.inl h) may policy (some (w₀.memory h)) r s) :
    (modeDiscipline user).guar t s (s.returned (modeMachine user) t c v) ∧
      Idle user t (s.returned (modeMachine user) t c v) := by
  have hwritten {op : Operation} (hop : c.operation v = some op) :
      (s.returned (modeMachine user) t c v).world.memory h = op := by
    change storeHandle s.world.memory c.handle (c.operation v) h = op
    rw [hc, hop]
    exact update_self ..
  cases hpost with
  | allowed hs hread hpolicy hm hidle =>
    refine hs.1.returned_write hc hh hv (.inr ⟨_, hs.2.2.1, ?_⟩)
    rw [hwritten hv]
    exact congrArg (Operation.mk _ · true) (congrArg (BitVec.ofNat 32) hs.2.2.2.symm)
  | ended hs hr hidle =>
    obtain ⟨τ, hτ, -, hs⟩ := hs
    have hact : (s.world.memory h).active = false := by
      rw [hs.1.kept h hh]
      exact (hidle h hc).2
    have hbusy : τ.busy c ≠ some h := by simp [Trace.busy, hτ]
    have hno := (hs.1.owned.handle h hh hbusy).of_inactive hact
    exact hs.1.returned_write hc hh hv (.inl ⟨by rw [hwritten hv]; rfl, hno⟩)
  | kept hs hr =>
    obtain ⟨τ, hτ, -, hs⟩ := hs
    refine hs.1.returned (by simp [Trace.busy, hτ]) ?_
    rw [hc, hv, ← hs.1.kept h hh]
    exact update_eq_self ..

end Begins

omit [DecidableEq H] in
theorem OwnershipPost.sane {call : OwnershipCall H} {r : call.Value}
    (hpost : OwnershipPost (On user t c w₀ τ R) t Sum.inl call r s)
    (hmay : ∀ h, call.handle = some h → user h = t) : Sane s := by
  cases hpost with
  | quiet hs hg hop => exact hs.1.sane
  | granted hs hg hc =>
    obtain ⟨s₀, γ, hs₀, -, -, -, rfl⟩ := hs
    exact hs₀.1.sane.granted
  | @reserved h o hs hg hc hop =>
    obtain ⟨s₀, γ, hs₀, hphase, hγ, hgen, rfl⟩ := hs
    have hstep : s₀.ghost.Step (keyUser user) t (.reserve (.inl h)) γ :=
      .reserve hphase hγ hgen (hmay h hc)
    exact hs₀.1.sane.moved hstep (fun o he => by cases he) rfl
  | @yielded h o g hs hg hc hop =>
    obtain ⟨s₀, γ, ⟨hs₀, hphase, hg₀⟩, hγ, hgen, rfl⟩ := hs
    have hstep : s₀.ghost.Step (keyUser user) t (.yield (.inl h)) γ :=
      .yield hphase hγ (hgen.trans hg₀.symm) (hmay h hc)
    exact hs₀.1.sane.moved hstep (fun o he => by cases he) rfl

/-- The call `c` of `t`, made in `s`, keeps the discipline and its promise. -/
def Keeps (user : H → T) (t : T) (c : ModeCall H) (s : ModeState T H) : Prop :=
  ModeWp user t (c.code s.world.memory) (fun v s => ModePost t c v s ∧
      (modeDiscipline user).guar t s (s.returned (modeMachine user) t c v) ∧
      Idle user t (s.returned (modeMachine user) t c v)) (s.called t c)

section

variable (hs : Idle user t s)
include hs

theorem keeps_ownership {call : OwnershipCall H} (hmay : ∀ h, call.handle = some h → user h = t) :
    Keeps user t (.ownership call) s := by
  let P := On user t (.ownership call) s.world .start fun _ => True
  have howned (s : ModeState T H) (hs : P s) : Owned (keyUser user) Sum.inl t none s := hs.1.owned
  have hready : Ready (modeDiscipline user) t P fun _ => True :=
    on_ready fun _ _ _ _ _ h => False.elim h
  have hspec := call.code_spec modeArbitrated (on_carries rides_true) on_loud hready howned
    (fun s hs => hs.1.kept) hmay (hs.called _).2
  refine hspec.mono fun v s₁ hpost => ⟨trivial, ?_⟩
  let s₂ := s₁.returned (modeMachine user) t (.ownership call) v
  have hret : Legal (keyUser user) Sum.inl t s₁ s₂ ∧ Owned (keyUser user) Sum.inl t none s₂ :=
    hpost.returned Sum.inl_injective howned hmay rfl
  exact idle_returned (hpost.sane hmay) hret.1 hret.2

theorem keeps_transition {rounds : ℕ} {event : ModeEvent} :
    Keeps user t (.transition rounds event) s := by
  refine (modeTransition_spec rounds rfl (fun _ _ => decide_eq_true) (hs.called _).2).mono
    fun v s₁ hs₁ => ⟨trivial, ?_⟩
  obtain ⟨τ, -, -, hs₁⟩ := hs₁
  exact hs₁.1.returned_of_none rfl

theorem keeps_setDapRoute {rounds : ℕ} {route : Word} :
    Keeps user t (.setDapRoute rounds route) s := by
  refine (setDapRoute_spec rounds route id rfl rfl (hs.called _).2).mono
    fun v s₁ hs₁ => ⟨trivial, ?_⟩
  obtain ⟨τ, -, -, hs₁⟩ := hs₁
  exact hs₁.1.returned_of_none rfl

theorem keeps_dapAcquire {owner : Word} {authenticated : Bool} {claim : Option Claim} :
    Keeps user t (.dapAcquire owner authenticated claim) s := by
  refine (modeDapAcquire_spec owner authenticated claim id (fun _ _ => decide_eq_true) rfl rfl
    (hs.called _).2).mono
    fun v s₁ hs₁ => ?_
  obtain ⟨created, τ, -, rfl, hs₁⟩ := hs₁
  refine ⟨fun hno => ?_, hs₁.1.returned_of_none rfl⟩
  rw [hs₁.1.trace]
  exact hs₁.2.2 hno

theorem keeps_swdProbe {arguments : Option (List Char)} {backend : Option ProbeBackend}
    {result : Option ProbeResult} : Keeps user t (.swdProbe arguments backend result) s := by
  refine (swdProbe_spec id rfl arguments backend result (hs.called _).2 rfl rfl).mono
    fun v s₁ hs₁ => ?_
  obtain ⟨created, τ, -, rfl, hs₁⟩ := hs₁
  refine ⟨?_, hs₁.1.returned_of_none rfl⟩
  change Rolled t (trace t s₁.history).created s₁
  rw [hs₁.1.trace]
  exact hs₁.2

end

section Begins

variable {authenticated : Bool} {operation : Option H}

theorem keeps_controlOperationBegin (hs : Idle user t s)
    (hmay : ∀ h, operation = some h → user h = t) :
    Keeps user t (.controlOperationBegin authenticated operation) s := by
  have hon := (hs.called (.controlOperationBegin authenticated operation)).2
  cases operation with
  | none => exact ⟨trivial, hon.1.returned_of_none rfl⟩
  | some h =>
    have hh : user h = t := hmay h rfl
    refine (controlOperationBegin_spec persists_true (.of_handle id rfl hh) authenticated hon rfl
      fun _ => HandleIdle.of_some rfl hh).mono
      fun v s₁ hpost => ⟨hpost.begun ?_, hpost.returned rfl hh rfl⟩
    rintro o (rfl | ho)
    · exact .inl rfl
    · exact .inr ho

theorem keeps_dapOperationBegin {owner : Word} {claim : Option Claim} (hs : Idle user t s)
    (hmay : ∀ h, operation = some h → user h = t) :
    Keeps user t (.dapOperationBegin owner authenticated claim operation) s := by
  have hon := (hs.called (.dapOperationBegin owner authenticated claim operation)).2
  cases operation with
  | none =>
    refine Discipline.wp_guard ⟨trivial, hon.1.returned_of_none rfl⟩ fun h => ?_
    exact absurd (Bool.or_true _) h
  | some h =>
    have hh : user h = t := hmay h rfl
    exact (dapOperationBegin_spec persists_true (.of_handle id rfl hh) authenticated hon rfl
      (fun _ => HandleIdle.of_some rfl hh) owner claim).mono
      fun v s₁ hpost => ⟨hpost.begun fun o ho => ho, hpost.returned rfl hh rfl⟩

end Begins

theorem mode_verifies (user : H → T) :
    Verifies (modeDiscipline user) (modeMachine user) (Idle user) ModePost where
  exec := rfl
  stable t := idle_stable
  call {t c s} hs hmay := by
    refine ⟨(hs.called c).1, ?_⟩
    change Keeps user t c s
    cases c with
    | ownership call => exact keeps_ownership hs hmay
    | transition rounds event => exact keeps_transition hs
    | setDapRoute rounds route => exact keeps_setDapRoute hs
    | dapAcquire owner authenticated claim => exact keeps_dapAcquire hs
    | swdProbe arguments backend result => exact keeps_swdProbe hs
    | controlOperationBegin authenticated operation => exact keeps_controlOperationBegin hs hmay
    | dapOperationBegin owner authenticated claim operation =>
      exact keeps_dapOperationBegin hs hmay

end Calls
section Reachable

variable [DecidableEq H] {user : H → T} {w : Device (H → Operation)} {σ : ModeConfig T H}

/-- A device on which both components are initialized and no call has been made. -/
structure Fresh (w : Device (H → Operation)) : Prop where
  ownership : w.ownershipControl = ownerNone
  handles : ∀ h, (w.memory h).active = false
  route : routeOf w.modeControl ≠ routeToggle

/-- Every thread of `σ` is verified, with the arbiter `γ`. -/
def ModeVerified (user : H → T) (σ : ModeConfig T H) (γ : Arbiter T (H ⊕ T)) : Prop :=
  σ.Safe (modeDiscipline user) (modeMachine user) (Idle user) ModePost γ ∧
    Tracks (σ.state γ) ∧ Sane (σ.state γ)

theorem Fresh.start (hw : Fresh w) (user : H → T) : ModeVerified user (.start w) .fresh := by
  have htr : Tracks (Config.state (.start w) .fresh : ModeState T H) :=
    hw.ownership.trans Arbiter.fresh_control.symm
  have hsane : Sane (Config.state (.start w) .fresh : ModeState T H) := by
    refine ⟨hw.route, fun hold => ?_⟩
    rcases hold with hold | ⟨k, hold⟩ <;> cases hold
  refine ⟨Config.start_safe fun t => ⟨⟨htr, fun h _ _ => .inl ⟨hw.handles h, ?_⟩⟩, hsane⟩, htr,
    hsane⟩
  intro o ho
  cases ho

omit [DecidableEq H] in
theorem tracks_sane (u : T) (s s' : ModeState T H) (hs : Tracks s ∧ Sane s)
    (hg : (modeDiscipline user).guar u s s') : Tracks s' ∧ Sane s' :=
  ⟨hg.1.tracks, hg.2.sane hs.2⟩

theorem mode_reachable (hw : Fresh w) (hσ : (modeMachine user).Steps (.start w) σ) :
    ∃ γ, ModeVerified user σ γ :=
  Machine.Steps.safe (mode_verifies user) tracks_sane hσ (hw.start user).1 (hw.start user).2

theorem mode_returned (hw : Fresh w) (hσ : (modeMachine user).Steps (.start w) σ) {t : T}
    {c : ModeCall H} {v : c.Value} (hret : σ.Returned t c v) :
    ∃ γ w' h, ModeVerified user σ γ ∧ σ.history = .returned t c v :: h ∧
      ModePost t c v ⟨w', h, γ⟩ ∧ σ.world = (modeMachine user).finish t c v w' := by
  obtain ⟨γ, w', h, hsafe, hJ, hpost⟩ :=
    Machine.Steps.returned (mode_verifies user) tracks_sane hσ (hw.start user).1
      (hw.start user).2 hret
  exact ⟨γ, w', h, ⟨hsafe, hJ⟩, hpost⟩

end Reachable
end AirDap

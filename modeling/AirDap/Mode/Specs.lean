import AirDap.Mode.Rules

/-! What the transitions and the route commands of the mode state do, under interference. -/
namespace AirDap
open Concurrency Discipline

variable {T H : Type} [DecidableEq T] {user : H → T} {t : T} {c : ModeCall H}
  {w₀ : Device (H → Operation)} {τ : Trace} {R : ModeState T H → Prop} {s : ModeState T H}

/-- A call of `t` that leaves no reservation, has created the given generations and holds
`R`. -/
def Ended (user : H → T) (t : T) (c : ModeCall H) (w₀ : Device (H → Operation))
    (created : List ℕ) (R : ModeState T H → Prop) (s : ModeState T H) : Prop :=
  ∃ τ, τ.reserved = false ∧ τ.created = created ∧ On user t c w₀ τ R s

theorem At.ended {created : List ℕ} (hs : At user t c w₀ τ s) (hτ : τ.reserved = false)
    (hc : τ.created = created) (hR : R s) : Ended user t c w₀ created R s := ⟨τ, hτ, hc, hs, hR⟩

theorem dapAdmission_spec (hR : Rides user t c w₀ τ R) (hs : On user t c w₀ τ R s)
    (control owner : Word) (authenticated boardControl : Bool) :
    ModeWp user t (dapAdmissionForControl control owner authenticated boardControl)
      (fun r s => On user t c w₀ τ R s ∧
        (r = .allowed → dapPolicy control owner authenticated boardControl = .allowed)) s := by
  unfold dapAdmissionForControl
  refine wp_guard ⟨hs, fun h => h⟩ fun hok => ?_
  rw [ne_eq, not_not] at hok
  refine (ownershipCurrent_spec modeArbitrated (on_carries hR) (on_ready ?_) hs).bind
    fun owner s₁ hs₁ => ⟨hs₁.1, fun _ => hok⟩
  intro s e _ h
  exact h.elim

section Transition

variable {event : ModeEvent}

theorem endPreemption_spec (hR : ∀ p, Rides user t c w₀ { τ with preempting := p } R)
    (hτ : τ.reserved = false) (hs : On user t c w₀ τ R s) (counted : Bool) {α : Type} (v : α) :
    ModeWp user t (endPreemption counted >>= fun _ => pure v)
      (fun _ => Ended user t c w₀ τ.created R) s := by
  cases counted with
  | true => exact wp_subPreemption (hR τ.preempting) hs fun s₁ hs₁ =>
    hs₁.1.ended hτ rfl hs₁.2
  | false => exact hs.1.ended hτ rfl hs.2

/-- An attached transition counts itself until it has revoked the network. -/
theorem transitionLoop_spec (rounds : ℕ) (current : Word) (hτ : τ.reserved = false)
    (hpre : event = .usbAttached → τ.preempting = true)
    (hc : ∀ e d, routeOf d ≠ routeNetwork → c.decides (.casModeWeak e d) none = true)
    (hs : On user t c w₀ τ (fun _ => True) s) :
    ModeWp user t (transitionLoop event rounds current)
      (fun _ => Ended user t c w₀ τ.created fun _ => True) s := by
  have hend {s : ModeState T H} (hs : On user t c w₀ τ (fun _ => True) s) (r : ModeStateResult) :=
    endPreemption_spec (fun _ => rides_true) hτ hs (event = .usbAttached) r
  induction rounds generalizing current s with
  | zero =>
    have hP : Carries (modeDiscipline user) (keyUser user) t (On user t c w₀ τ fun _ => True) :=
      on_carries rides_true
    exact fun s₁ hrely => hP.halted (hP.stable.rely hs hrely)
  | succ rounds ih =>
    unfold transitionLoop
    refine wp_ite (fun _ => hend hs _) fun _ => ?_
    cases hnext : nextControl current event with
    | error result => exact hend hs result
    | ok next =>
      refine wp_casEvent rides_true hs (nextControl_settled hnext) (fun s₁ hs₁ hmode hswapped => ?_)
        (fun s₁ observed hs₁ => ih observed hs₁)
      refine wp_ite (fun hattach => ?_) fun _ => hend hs₁ _
      have hrides : Rides user t c w₀ τ (Uncrossed t) := rides_uncrossed (hpre hattach.1)
      have hdecided : decided t s₁.history = true := by
        have hcall := hs₁.1.call
        obtain ⟨w, h, hh⟩ := hswapped
        rw [hh] at hcall ⊢
        exact decided_of_acted hcall (hc _ _ hattach.2)
      have hclear : On user t c w₀ τ (Uncrossed t) s₁ :=
        ⟨hs₁.1, hdecided, .inr (hmode ▸ hattach.2)⟩
      refine (ownershipRevokeOwner_spec modeArbitrated (on_carries hrides) ownerNetwork
        (on_ready fun _ _ hs _ _ _ => hs.2) hclear).bind fun _ s₂ hs₂ => ?_
      exact hend (hs₂.mono fun _ => trivial) _

theorem modeTransition_spec (rounds : ℕ) (hτ : τ.reserved = false)
    (hc : ∀ e d, routeOf d ≠ routeNetwork → c.decides (.casModeWeak e d) none = true)
    (hs : On user t c w₀ τ (fun _ => True) s) :
    ModeWp user t (modeTransition rounds event)
      (fun _ => Ended user t c w₀ τ.created fun _ => True) s := by
  unfold modeTransition
  refine wp_ite (fun hattach => ?_) fun hother => ?_
  · refine wp_addPreemption rides_true hs fun s₁ hs₁ => ?_
    refine wp_loadMode rides_true hs₁ fun s₂ hs₂ _ => ?_
    exact transitionLoop_spec (τ := { τ with preempting := true, modeReads := τ.modeReads + 1 })
      rounds _ hτ (fun _ => rfl) hc hs₂
  · refine wp_loadMode rides_true hs fun s₁ hs₁ _ => ?_
    exact transitionLoop_spec (τ := { τ with modeReads := τ.modeReads + 1 }) rounds _ hτ
      (fun h => absurd h hother) hc hs₁

end Transition

section Route

variable {k : H ⊕ T} {g : ℕ}

theorem wp_casRoute (hk : keyUser user k = t) (hs : On user t c w₀ τ (LentTo k none g) s)
    {current selected : Word}
    (hsel : selected = routeAuto ∨ selected = routeUsb ∨ selected = routeNetwork) {α : Type}
    {Q : α → ModeState T H → Prop} {f : Option Word → Code ProbeIo.Answer α}
    (h : ∀ r s₁, On user t c w₀ τ (LentTo k none g) s₁ → ModeWp user t (f r) Q s₁) :
    ModeWp user t (casModeWeak current (routedControl current selected) >>= f) Q s := by
  have hR : Rides user t c w₀ τ (LentTo k none g) := rides_lent hk
  refine wp_act_of_stable (on_carries hR).stable hs fun s₁ hs₁ => ⟨?_, fun r w hw => ?_⟩
  · refine ⟨⟨hs₁.1.owned.tracks, hs₁.1.sane⟩, fun b hb hexcl => ?_, fun e d he => ?_⟩
    · cases hb
      exact hexcl.elim
    · cases he
  · refine ⟨s₁.ghost, ?_⟩
    rcases hw with ⟨he, rfl, rfl⟩ | ⟨rfl, rfl⟩
    · have hroute := routeOf_routedControl current hsel
      let w : Device (H → Operation) :=
        { s₁.world with modeControl := routedControl current selected }
      let s₂ := s₁.acted t (.casModeWeak current (routedControl current selected)) none w s₁.ghost
      have hlegal : Legal (keyUser user) Sum.inl t s₁ s₂ :=
        ⟨⟨.stay, .stay⟩, hs₁.1.owned.tracks, fun _ _ => rfl, _, rfl, rfl⟩
      have hsane : Sane s₂ := by
        refine ⟨?_, fun hold => ?_⟩
        · change routeOf (routedControl current selected) ≠ routeToggle
          rw [hroute]
          rcases hsel with rfl | rfl | rfl <;> decide
        · change s₁.ghost.Holds .network at hold
          rcases hold with hold | ⟨k', hold⟩ <;> cases hs₁.2.1.symm.trans hold
      have horderly : Orderly t s₁ s₂ := by
        refine ⟨fun hinit => ?_, fun _ => hsane, fun _ => ⟨⟨k, hs₁.2.1⟩, _, rfl⟩⟩
        change routedControl current selected &&& modeInitialized ≠ 0
        rw [routedControl_initialized hsel, ← he]
        exact hinit
      refine ⟨⟨hlegal, horderly⟩, h none s₂ ⟨⟨⟨hs₁.1.owned.tracks, hs₁.1.owned.handle⟩, hsane,
        hs₁.1.call, hs₁.1.kept, ?_⟩, hs₁.2⟩⟩
      rw [← hs₁.1.trace]
      exact trace_self
    · obtain ⟨hg, hs₂⟩ := hs₁.acted hR (a := .casModeWeak current (routedControl current selected))
        trivial (r := some s₁.world.modeControl) (w := s₁.world) ⟨rfl, rfl, rfl⟩
      exact ⟨hg, h _ _ hs₂⟩

theorem installRoute_spec (hk : keyUser user k = t) (rounds : ℕ) (current : Word) {selected : Word}
    (hsel : selected = routeAuto ∨ selected = routeUsb ∨ selected = routeNetwork)
    (hs : On user t c w₀ τ (LentTo k none g) s) :
    ModeWp user t (installRoute selected rounds current)
      (fun _ => On user t c w₀ τ (LentTo k none g)) s := by
  have hP : Carries (modeDiscipline user) (keyUser user) t (On user t c w₀ τ (LentTo k none g)) :=
    on_carries (rides_lent hk)
  induction rounds generalizing current s with
  | zero => exact fun s₁ hrely => hP.halted (hP.stable.rely hs hrely)
  | succ rounds ih =>
    refine wp_casRoute hk hs hsel fun r s₁ hs₁ => ?_
    cases r with
    | none => exact hs₁
    | some observed => exact ih observed hs₁

theorem selectRoute_spec (hk : keyUser user k = t) (rounds : ℕ) {route : Word} (current : Word)
    (hroute : ¬ route > routeNetworkAutoToggle) (hs : On user t c w₀ τ (LentTo k none g) s) :
    ModeWp user t (selectRoute rounds route current)
      (fun _ => On user t c w₀ τ (LentTo k none g)) s := by
  unfold selectRoute
  refine wp_guard hs fun _ => ?_
  refine wp_guard hs fun _ => ?_
  refine wp_loadPreemptions (rides_lent hk) hs fun inflight s₁ hs₁ => ?_
  refine wp_guard hs₁ fun _ => ?_
  refine wp_guard hs₁ fun _ => ?_
  refine wp_saveRoute (rides_lent hk) hs₁ _ fun saved s₂ hs₂ => ?_
  refine wp_guard hs₂ fun _ => ?_
  exact (installRoute_spec hk rounds current (selectedRoute_stored hroute) hs₂).bind
    fun _ s₃ hs₃ => hs₃

/-- The call `c` of `t` may reserve the word with the handle `k`. -/
structure Reserving (user : H → T) (t : T) (c : ModeCall H) (k : H ⊕ T) : Prop where
  preempts : ¬ c.Preempts
  user : keyUser user k = t
  handle : ∀ h, Sum.inl h = k → c.handle = some h

omit [DecidableEq T] in
theorem Reserving.of_handle {h : H} (hpre : ¬ c.Preempts) (hc : c.handle = some h)
    (hh : user h = t) : Reserving user t c (.inl h) :=
  ⟨hpre, hh, fun _ he => Sum.inl.inj he ▸ hc⟩

omit [DecidableEq T] in
theorem Reserving.local (hpre : ¬ c.Preempts) : Reserving user t c (.inr t) where
  preempts := hpre
  user := rfl
  handle h he := by cases he

/-- The handle of the call is one of its thread and is inactive. -/
def HandleIdle (user : H → T) (t : T) (c : ModeCall H) (w₀ : Device (H → Operation)) : Prop :=
  ∀ h, c.handle = some h → user h = t ∧ (w₀.memory h).active = false

omit [DecidableEq T] in
theorem HandleIdle.of_some {h : H} (hc : c.handle = some h) (hh : user h = t) {op : Operation}
    (hop : some (w₀.memory h) = some op) (hactive : op.active = false) :
    HandleIdle user t c w₀ := by
  intro h' hh'
  cases hc.symm.trans hh'
  cases hop
  exact ⟨hh, hactive⟩

omit [DecidableEq T] in
theorem HandleIdle.of_none (hc : c.handle = none) : HandleIdle user t c w₀ := by
  intro h hh
  rw [hc] at hh
  cases hh

theorem Reserving.ready (hk : Reserving user t c k) {takes : Word → Prop} :
    Ready (modeDiscipline user) t (On user t c w₀ τ R) takes :=
  on_ready fun _ _ _ _ _ hpre => absurd hpre hk.preempts

theorem operationEnd_on (hR : Persists user R) (hk : Reserving user t c k)
    (hidle : HandleIdle user t c w₀) (hτ : τ.reserved = true) {o : Option Owner}
    (hs : On user t c w₀ τ (fun s => R s ∧ LentTo k o g s) s) :
    ModeWp user t (ownershipOperationEnd (some ⟨heldCode o, BitVec.ofNat 32 g, true⟩))
      (fun v s => On user t c w₀ { τ with reserved := false } R s ∧ v = some .zero) s := by
  refine (ownershipOperationEnd_spec modeArbitrated (on_carries hR.rides) hk.ready on_loud hk.user
    ⟨⟨hs.1, hs.2.1⟩, hs.2.2⟩).mono fun v s₁ hs₁ => ?_
  obtain ⟨hyield, hv⟩ := hs₁
  have hat := hyield.at hτ hk.user hk.handle hidle
  obtain ⟨s₀, γ, ⟨hs₀, hphase, hg⟩, hγ, hgen, rfl⟩ := hyield
  have hstep : s₀.ghost.Step (keyUser user) t (.yield k) γ :=
    .yield hphase hγ (hgen.trans hg.symm) hk.user
  exact ⟨⟨hat.1, hR (on_loud.yield hs₀ hstep) hs₀.2⟩, hv⟩

theorem Reserved.on (hR : Persists user R) (hk : Reserving user t c k) (hτ : τ.reserved = false)
    {o : Option Owner} (hs : Reserved (On user t c w₀ τ R) t k o s) :
    On user t c w₀ { τ with reserved := true }
      (fun s' => R s' ∧ LentTo k o s.ghost.generation s') s := by
  have hat := hs.at hτ hk.user hk.handle
  obtain ⟨s₀, γ, hs₀, hphase, hγ, hgen, rfl⟩ := hs
  have hstep : s₀.ghost.Step (keyUser user) t (.reserve k) γ := .reserve hphase hγ hgen hk.user
  exact ⟨hat.1, hR (on_loud.reserve hs₀ hphase trivial hstep) hs₀.2, hγ, rfl⟩

theorem setDapRoute_spec (rounds : ℕ) (route : Word) (hpre : ¬ c.Preempts) (hc : c.handle = none)
    (hτ : τ.reserved = false) (hs : On user t c w₀ τ (fun _ => True) s) :
    ModeWp user t (setDapRoute rounds route)
      (fun _ => Ended user t c w₀ τ.created fun _ => True) s := by
  have hk : Reserving user t c (.inr t) := .local hpre
  have hidle : HandleIdle user t c w₀ := .of_none hc
  have hfinish {τ' : Trace} {o : Option Owner} {g : ℕ} {s : ModeState T H}
      (hs : On user t c w₀ τ' (fun s => True ∧ LentTo (.inr t) o g s) s)
      (hτ : τ'.reserved = true) (hτ' : τ'.created = τ.created) (r : ModeDapResult) :
      ModeWp user t
        (ownershipOperationEnd (some ⟨heldCode o, BitVec.ofNat 32 g, true⟩) >>= fun _ => pure r)
        (fun _ => Ended user t c w₀ τ.created fun _ => True) s :=
    (operationEnd_on persists_true hk hidle hτ hs).bind fun _ s₁ hs₁ =>
      hs₁.1.1.ended rfl hτ' trivial
  unfold setDapRoute
  refine wp_guard (hs.1.ended hτ rfl hs.2) fun hroute => ?_
  rw [not_or] at hroute
  refine (ownershipControlBegin_spec modeArbitrated (on_carries rides_true) ownerDiagnostic
    (some .zero) hk.ready on_loud (fun _ _ => trivial) (fun _ => hk.user) hs).bind
      fun v s₁ hpost => ?_
  cases hpost with
  | kept hs₁ hok halready =>
    refine wp_guard (hs₁.1.ended hτ rfl hs₁.2) fun hallowed => ?_
    exact absurd (ownershipResult_ne hok halready) hallowed
  | ok hs₁ hmay hop =>
    have hs₁' := hs₁.on persists_true hk hτ
    refine wp_ite (fun h => absurd rfl h) fun _ => ?_
    refine wp_ite (fun _ => hfinish hs₁' rfl rfl _) fun hfree => ?_
    rw [ne_eq, not_not] at hfree
    have ho := heldCode_injective (Option.some.inj hfree : heldCode _ = heldCode none)
    subst ho
    refine wp_loadMode (persists_true.rides.and (rides_lent hk.user)) hs₁' fun s₂ hs₂ _ => ?_
    refine (selectRoute_spec hk.user rounds _ hroute.2 (hs₂.mono And.right)).bind
      fun r s₃ hs₃ => ?_
    exact hfinish (hs₃.mono fun h => ⟨trivial, h⟩) rfl rfl r

end Route
end AirDap

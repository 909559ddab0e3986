import AirDap.Mode.Machine

/-! Rules for verifying a call of the mode state: what the thread knows in the middle of the
call, and how each of its operations changes that. -/
namespace AirDap
open Concurrency

variable {T H : Type} [DecidableEq T]

/-- The handle that a call has reserved the word with and not written yet. -/
def Trace.busy (τ : Trace) (c : ModeCall H) : Option H := if τ.reserved then c.handle else none

/-- Thread `t` is in the call `c`, which it made in the world `w₀`, and has the trace `τ`. -/
structure At (user : H → T) (t : T) (c : ModeCall H) (w₀ : Device (H → Operation)) (τ : Trace)
    (s : ModeState T H) : Prop where
  owned : Owned (keyUser user) Sum.inl t (τ.busy c) s
  sane : Sane s
  call : lastCall t s.history = some (c, w₀)
  kept : ∀ h, user h = t → s.world.memory h = w₀.memory h
  trace : trace t s.history = τ

/-- An operation of `t` with a quiet move. -/
def OwnStep (user : H → T) (t : T) (s s' : ModeState T H) : Prop :=
  ∃ a r w γ m, s' = s.acted t a r w γ ∧ m.Quiet ∧ s.ghost.Step (keyUser user) t m γ

/-- `R` lasts until the next operation of `t` that is not quiet. -/
def Rides (user : H → T) (t : T) (c : ModeCall H) (w₀ : Device (H → Operation)) (τ : Trace)
    (R : ModeState T H → Prop) : Prop :=
  ∀ ⦃u s s'⦄, At user t c w₀ τ s → R s → (modeDiscipline user).guar u s s' →
    (u = t → OwnStep user t s s') → R s'

def On (user : H → T) (t : T) (c : ModeCall H) (w₀ : Device (H → Operation)) (τ : Trace)
    (R : ModeState T H → Prop) (s : ModeState T H) : Prop :=
  At user t c w₀ τ s ∧ R s

variable {user : H → T} {t u : T} {c : ModeCall H} {w₀ : Device (H → Operation)} {τ : Trace}
  {R : ModeState T H → Prop} {s s' : ModeState T H} {takes : Word → Prop}

theorem At.stable (hs : At user t c w₀ τ s) (hu : u ≠ t)
    (hg : (modeDiscipline user).guar u s s') : At user t c w₀ τ s' := by
  obtain ⟨e, he, hh⟩ := hg.1.event
  have hne : e.thread ≠ t := he ▸ hu
  refine ⟨hs.owned.of_legal hu hg.1, hg.2.sane hs.sane, ?_, fun h ht => ?_, ?_⟩
  · rw [hh, lastCall_of_ne hne, hs.call]
  · have hne : keyUser user (Sum.inl h) ≠ u := fun he => hu (he.symm.trans ht)
    rw [hg.1.memory h hne, hs.kept h ht]
  · rw [hh, trace_of_ne hne, hs.trace]

theorem At.quiet (hs : At user t c w₀ τ s) (hq : Quiet (keyUser user) t s s') :
    (modeDiscipline user).guar t s s' ∧ At user t c w₀ τ s' := by
  obtain ⟨hlegal, howned⟩ := hs.owned.quiet hq
  have htrace := hq.trace
  have horderly := hq.orderly
  obtain ⟨a, r, γ, m, rfl, hm, hstep⟩ := hq.exists_moved
  exact ⟨⟨hlegal, horderly⟩, howned, horderly.sane hs.sane, hs.call, hs.kept,
    htrace.trans hs.trace⟩

theorem modeArbitrated : Arbitrated (modeDiscipline user) (keyUser user) where
  exec _ := rfl
  guar h := h.1.step

theorem on_carries (hR : Rides user t c w₀ τ R) :
    Carries (modeDiscipline user) (keyUser user) t (On user t c w₀ τ R) where
  tracks hs := hs.1.owned.tracks
  stable _ _ _ hu hs hg := ⟨hs.1.stable hu hg, hR hs.1 hs.2 hg fun he => absurd he hu⟩
  quiet := by
    intro s s' hs hq
    obtain ⟨hg, hs'⟩ := hs.1.quiet hq
    refine ⟨hg, hs', hR hs.1 hs.2 hg fun _ => ?_⟩
    obtain ⟨a, r, γ, m, rfl, hm, hstep⟩ := hq.exists_moved
    exact ⟨a, r, _, γ, m, rfl, hm, hstep⟩
  halted hs := by
    refine ⟨⟨hs.1.owned.tracks, hs.1.sane⟩, fun b hb => ?_, fun e d he => ?_⟩
    · cases hb
    · cases he

theorem on_ready (h : ∀ s e, R s → takes e → controlState e = ownerNetwork → c.Preempts →
      Crossed s.history ∨ routeOf s.world.modeControl ≠ routeNetwork) :
    Ready (modeDiscipline user) t (On user t c w₀ τ R) takes := by
  intro s a hs ha
  refine ⟨⟨hs.1.owned.tracks, hs.1.sane⟩, fun b hb hexcl => ?_,
    fun e d he hstate c' w' hcall hpre => ?_⟩
  · cases hb
    cases a <;> first | exact ha | exact hexcl.elim
  · cases he
    cases hs.1.call.symm.trans hcall
    exact h s e hs.2 ha hstate hpre

theorem on_loud :
    Loud (modeDiscipline user) (keyUser user) t (On user t c w₀ τ R) fun _ => True where
  grant hs _ hstep := ⟨.moved hstep, id, fun hsane => hsane.granted, fun h => absurd rfl h⟩
  reserve hs _ _ hstep := by
    refine ⟨.moved hstep, id, fun hsane => hsane.moved hstep (fun o h => ?_) rfl,
      fun h => absurd rfl h⟩
    cases h
  yield hs hstep := by
    refine ⟨.moved hstep, id, fun hsane => hsane.moved hstep (fun o h => ?_) rfl,
      fun h => absurd rfl h⟩
    cases h

section Operations

variable {α : Type} {Q : α → ModeState T H → Prop} {a : Act ProbeIo}

theorem Act.Local.busy (ha : a.Local) (r : Resp ProbeIo.Answer a) :
    (τ.act a r).busy c = τ.busy c := by
  cases a <;> first | rfl | exact ha.elim

/-- What an operation leaves of the device when it does not install a route. -/
structure Settled (w w' : Device (H → Operation)) : Prop where
  ownership : w'.ownershipControl = w.ownershipControl
  memory : w'.memory = w.memory
  mode : w'.modeControl &&& settledMask = w.modeControl &&& settledMask

theorem On.acted (hR : Rides user t c w₀ τ R) (hs : On user t c w₀ τ R s) (ha : a.Local)
    {r : Resp ProbeIo.Answer a} {w : Device (H → Operation)} (hw : Settled s.world w) :
    (modeDiscipline user).guar t s (s.acted t a r w s.ghost) ∧
      On user t c w₀ (τ.act a r) R (s.acted t a r w s.ghost) := by
  have hroute := routeOf_eq hw.mode
  have hstore (d : Word) : a ≠ .storeOwnership d := by
    rintro rfl
    exact ha
  have htracks : Tracks (s.acted t a r w s.ghost) := hw.ownership.trans hs.1.owned.tracks
  have hlegal : Legal (keyUser user) Sum.inl t s (s.acted t a r w s.ghost) :=
    ⟨⟨.stay, .stay⟩, htracks, fun h _ => congrFun hw.memory h, _, rfl, rfl⟩
  have horderly : Orderly t s (s.acted t a r w s.ghost) := by
    refine ⟨fun hinit => ?_, fun hsane => hsane.acted hstore hroute, fun h => absurd hroute h⟩
    change w.modeControl &&& modeInitialized ≠ 0
    rwa [initialized_eq hw.mode]
  refine ⟨⟨hlegal, horderly⟩, ⟨⟨htracks, fun h hh hb => ?_⟩, hs.1.sane.acted hstore hroute,
    hs.1.call, fun h hh => ?_, ?_⟩, ?_⟩
  · rw [ha.busy r] at hb
    exact (hs.1.owned.handle h hh hb).of_eq (congrFun hw.memory h) (fun _ => Iff.rfl) fun _ _ => rfl
  · exact (congrFun hw.memory h).trans (hs.1.kept h hh)
  · rw [← hs.1.trace]
    exact trace_self
  · exact hR hs.1 hs.2 ⟨hlegal, horderly⟩ fun _ => ⟨a, r, w, _, .stay, rfl, trivial, .stay⟩

theorem wp_local (a : Act ProbeIo) (hR : Rides user t c w₀ τ R) (hs : On user t c w₀ τ R s)
    (ha : a.Local) {k : Resp ProbeIo.Answer a → Code ProbeIo.Answer α}
    (hexec : ∀ (w : Device (H → Operation)) (r : Resp ProbeIo.Answer a) w',
      w.exec a r w' → Settled w w')
    (h : ∀ s₁ r w, On user t c w₀ τ R s₁ → Device.exec s₁.world a r w →
      On user t c w₀ (τ.act a r) R (s₁.acted t a r w s₁.ghost) →
      ModeWp user t (k r) Q (s₁.acted t a r w s₁.ghost)) :
    ModeWp user t (.act a k) Q s := by
  refine Discipline.wp_act_of_stable (on_carries hR).stable hs fun s₁ hs₁ => ⟨?_, fun r w hw => ?_⟩
  · refine ⟨⟨hs₁.1.owned.tracks, hs₁.1.sane⟩, fun b hb hexcl => ?_, fun e d he => ?_⟩
    · cases hb
      cases a <;> first | exact ha.elim | exact hexcl.elim
    · cases he
      exact ha.elim
  · obtain ⟨hg, hs₂⟩ := hs₁.acted hR ha (r := r) (hexec _ r w hw)
    exact ⟨s₁.ghost, hg, h s₁ r w hs₁ hw hs₂⟩

section

variable (hR : Rides user t c w₀ τ R)
include hR

section

variable (hs : On user t c w₀ τ R s)
include hs

theorem wp_loadMode {k : Word → Code ProbeIo.Answer α}
    (h : ∀ s₁, On user t c w₀ { τ with modeReads := τ.modeReads + 1 } R s₁ →
      (∃ w h, s₁.history = .acted t .loadMode s₁.world.modeControl w :: h ∧ w = s₁.world ∧
        trace t h = τ) → ModeWp user t (k s₁.world.modeControl) Q s₁) :
    ModeWp user t (loadMode >>= k) Q s := by
  refine wp_local .loadMode hR hs trivial (fun w r w' hw => ?_) fun s₁ r w hs₁ hw hs₂ => ?_
  · rw [hw.2]
    exact ⟨rfl, rfl, rfl⟩
  · obtain ⟨rfl, rfl⟩ := hw
    exact h _ hs₂ ⟨_, _, rfl, rfl, hs₁.1.trace⟩

theorem wp_io (i : ProbeIo) {k : i.Answer → Code ProbeIo.Answer α}
    (h : ∀ r s₁, On user t c w₀ τ R s₁ → ModeWp user t (k r) Q s₁) :
    ModeWp user t (io i >>= k) Q s := by
  refine wp_local (.io i) hR hs trivial (fun w r w' hw => ?_) fun s₁ r w hs₁ hw hs₂ => h r _ hs₂
  cases hw
  exact ⟨rfl, rfl, rfl⟩

theorem wp_loadPreemptions {k : Word → Code ProbeIo.Answer α}
    (h : ∀ r s₁, On user t c w₀ τ R s₁ → ModeWp user t (k r) Q s₁) :
    ModeWp user t (loadPreemptions >>= k) Q s := by
  refine wp_local .loadPreemptions hR hs trivial (fun w r w' hw => ?_)
    fun s₁ r w hs₁ hw hs₂ => h r _ hs₂
  rw [hw.2]
  exact ⟨rfl, rfl, rfl⟩

theorem wp_saveRoute (route : Word) {k : Bool → Code ProbeIo.Answer α}
    (h : ∀ r s₁, On user t c w₀ τ R s₁ → ModeWp user t (k r) Q s₁) :
    ModeWp user t (saveRoute route >>= k) Q s := by
  refine wp_local (.saveRoute route) hR hs trivial (fun w r w' hw => ?_)
    fun s₁ r w hs₁ hw hs₂ => h r _ hs₂
  rcases hw with rfl | ⟨-, rfl⟩ <;> exact ⟨rfl, rfl, rfl⟩

theorem wp_addPreemption {k : Unit → Code ProbeIo.Answer α}
    (h : ∀ s₁, On user t c w₀ { τ with preempting := true } R s₁ →
      ModeWp user t (k ()) Q s₁) :
    ModeWp user t (addPreemption >>= k) Q s := by
  refine wp_local .addPreemption hR hs trivial (fun w r w' hw => ?_)
    fun s₁ r w hs₁ hw hs₂ => h _ hs₂
  cases hw
  exact ⟨rfl, rfl, rfl⟩

theorem wp_subPreemption {k : Unit → Code ProbeIo.Answer α}
    (h : ∀ s₁, On user t c w₀ { τ with preempting := false } R s₁ →
      ModeWp user t (k ()) Q s₁) :
    ModeWp user t (subPreemption >>= k) Q s := by
  refine wp_local .subPreemption hR hs trivial (fun w r w' hw => ?_)
    fun s₁ r w hs₁ hw hs₂ => h _ hs₂
  cases hw
  exact ⟨rfl, rfl, rfl⟩

theorem wp_casEvent {current next : Word}
    (hnext : next &&& settledMask = current &&& settledMask)
    {k : Option Word → Code ProbeIo.Answer α}
    (hok : ∀ s₁, On user t c w₀ τ R s₁ → s₁.world.modeControl = next →
      (∃ w h, s₁.history = .acted t (.casModeWeak current next) none w :: h) →
      ModeWp user t (k none) Q s₁) (hno : ∀ s₁ observed, On user t c w₀ τ R s₁ →
      ModeWp user t (k (some observed)) Q s₁) :
    ModeWp user t (casModeWeak current next >>= k) Q s := by
  refine wp_local (.casModeWeak current next) hR hs trivial (fun w r w' hw => ?_)
    fun s₁ r w hs₁ hw hs₂ => ?_
  · rcases hw with ⟨he, -, rfl⟩ | ⟨-, rfl⟩
    · exact ⟨rfl, rfl, he ▸ hnext⟩
    · exact ⟨rfl, rfl, rfl⟩
  · rcases hw with ⟨he, rfl, rfl⟩ | ⟨rfl, rfl⟩
    · exact hok _ hs₂ rfl ⟨_, _, rfl⟩
    · exact hno _ _ hs₂

end

end

end Operations

section Lasting

variable {R' : ModeState T H → Prop} {k : H ⊕ T} {o : Option Owner} {g : ℕ}

theorem On.mono (hs : On user t c w₀ τ R s) (h : R s → R' s) : On user t c w₀ τ R' s :=
  ⟨hs.1, h hs.2⟩

theorem Rides.and (h : Rides user t c w₀ τ R) (h' : Rides user t c w₀ τ R') :
    Rides user t c w₀ τ fun s => R s ∧ R' s :=
  fun _ _ _ hs hR hg how => ⟨h hs hR.1 hg how, h' hs hR.2 hg how⟩

theorem Rides.imp {p : Prop} (h : p → Rides user t c w₀ τ R) :
    Rides user t c w₀ τ fun s => p → R s :=
  fun _ _ _ hs hR hg how hp => h hp hs (hR hp) hg how

/-- `R` is kept by every step of every thread. -/
def Persists (user : H → T) (R : ModeState T H → Prop) : Prop :=
  ∀ ⦃u s s'⦄, (modeDiscipline user).guar u s s' → R s → R s'

theorem persists_true : Persists user fun _ => True := fun _ _ _ _ _ => trivial

theorem persists_initialized :
    Persists user fun s => s.world.modeControl &&& modeInitialized ≠ 0 :=
  fun _ _ _ hg hs => hg.2.initialized hs

theorem Persists.and (h : Persists user R) (h' : Persists user R') :
    Persists user fun s => R s ∧ R' s :=
  fun _ _ _ hg hR => ⟨h hg hR.1, h' hg hR.2⟩

theorem Persists.imp {p : Prop} (h : Persists user R) : Persists user fun s => p → R s :=
  fun _ _ _ hg hR hp => h hg (hR hp)

theorem Persists.rides (hR : Persists user R) : Rides user t c w₀ τ R :=
  fun _ _ _ _ hs hg _ => hR hg hs

theorem rides_true : Rides user t c w₀ τ fun _ => True := persists_true.rides

/-- The word is reserved for `o` at generation `g` by the handle `k`. -/
def LentTo (k : H ⊕ T) (o : Option Owner) (g : ℕ) (s : ModeState T H) : Prop :=
  s.ghost.phase = .lent o k ∧ s.ghost.generation = g

theorem rides_lent (hk : keyUser user k = t) : Rides user t c w₀ τ (LentTo k o g) := by
  intro u s s' _ hs hg how
  have he : s'.ghost = s.ghost := by
    by_cases hu : u = t
    · obtain ⟨a, r, w, γ, m, rfl, hm, hstep⟩ := how hu
      exact hstep.quiet_lent hm hs.1
    · obtain ⟨m, hstep⟩ := hg.1.step
      exact hstep.lent (hk ▸ hu) hs.1
  rw [LentTo, he]
  exact hs

/-- Thread `t` has seen another route than NETWORK, which is still another one unless a route
command has crossed a USB preemption. -/
def Uncrossed (t : T) (s : ModeState T H) : Prop :=
  decided t s.history = true ∧
    (Crossed s.history ∨ routeOf s.world.modeControl ≠ routeNetwork)

theorem rides_uncrossed (hτ : τ.preempting = true) : Rides user t c w₀ τ (Uncrossed t) := by
  intro u s s' hat hs hg how
  obtain ⟨hdecided, hs⟩ := hs
  obtain ⟨e, he, hh⟩ := hg.1.event
  have hdecided' : decided t s'.history = true := by
    by_cases hu : u = t
    · obtain ⟨a, r, w, γ, m, rfl, -, -⟩ := how hu
      exact Bool.or_eq_true_iff.mpr (.inr hdecided)
    · rw [hh, decided_of_ne (he ▸ hu)]
      exact hdecided
  refine ⟨hdecided', ?_⟩
  rcases hs with hs | hs
  · left
    rw [hh]
    exact .inr hs
  · by_cases hroute : routeOf s'.world.modeControl = routeOf s.world.modeControl
    · exact .inr (hroute ▸ hs)
    · by_cases hnet : routeOf s'.world.modeControl = routeNetwork
      · obtain ⟨-, e', he'⟩ := hg.2.route hroute
        left
        rw [he']
        exact .inl ⟨decide_eq_true ⟨hs, hnet⟩, t, by rw [hat.trace, hτ], hdecided⟩
      · exact .inr hnet

/-- The generations that the current call of `t` created are dead, unless the call failed to
release one of them. -/
def Rolled (t : T) (created : List ℕ) (s : ModeState T H) : Prop :=
  Contended t s.history ∨ ∀ g ∈ created, s.ghost.Dead g

theorem rides_rolled {created : List ℕ} : Rides user t c w₀ τ (Rolled t created) := by
  intro u s s' _ hs hg how
  rcases hs with hs | hs
  · left
    by_cases hu : u = t
    · obtain ⟨a, r, w, γ, m, rfl, -, -⟩ := how hu
      exact .inr hs
    · obtain ⟨e, he, hh⟩ := hg.1.event
      rw [hh]
      exact contended_of_ne (he ▸ hu) hs
  · obtain ⟨m, hstep⟩ := hg.1.step
    exact .inr fun g hg => hstep.dead (hs g hg)

end Lasting

section Moves

variable {k : H ⊕ T} {g : ℕ}

theorem Granted.at {o : Owner} (hs : Granted (On user t c w₀ τ R) t o s) :
    At user t c w₀ { τ with created := s.ghost.generation :: τ.created } s ∧
      s.ghost.phase = .held (some o) := by
  have howned := hs.owned fun _ hs => hs.1.owned
  obtain ⟨s₀, γ, hs₀, -, hγ, -, rfl⟩ := hs
  refine ⟨⟨howned, hs₀.1.sane.granted, hs₀.1.call, hs₀.1.kept, ?_⟩, hγ⟩
  have howner : isOwner (controlState γ.control) = true := by
    rw [Arbiter.controlState_control, hγ]
    exact isOwner_code o
  rw [← hs₀.1.trace]
  refine trace_self.trans ?_
  simp only [Trace.act, howner, if_true, Arbiter.controlGeneration_control, Arbiter.toNat_word]
  rfl

theorem Reserved.at {o : Option Owner} (hs : Reserved (On user t c w₀ τ R) t k o s)
    (hτ : τ.reserved = false) (hk : keyUser user k = t)
    (hc : ∀ h, Sum.inl h = k → c.handle = some h) :
    At user t c w₀ { τ with reserved := true } s ∧ s.ghost.phase = .lent o k := by
  have howned : Owned (keyUser user) Sum.inl t c.handle s := by
    refine hs.owned (fun s hs => ?_) hc
    have h := hs.1.owned
    rwa [Trace.busy, hτ, if_neg (by decide)] at h
  obtain ⟨s₀, γ, hs₀, hphase, hγ, hgen, rfl⟩ := hs
  have hstep : s₀.ghost.Step (keyUser user) t (.reserve k) γ := .reserve hphase hγ hgen hk
  have hsane := hs₀.1.sane.moved (a := .casOwnership s₀.ghost.control γ.control) (r := none)
    hstep (fun o h => by cases h) rfl
  refine ⟨⟨howned, hsane, hs₀.1.call, hs₀.1.kept, ?_⟩, hγ⟩
  have hbefore : ¬ isActive s₀.ghost.control := by
    rw [Arbiter.isActive_control, hphase]
    rintro ⟨o, k, h⟩
    cases h
  have hafter : isActive γ.control := γ.isActive_control.mpr ⟨o, k, hγ⟩
  rw [← hs₀.1.trace]
  exact trace_self.trans (if_pos ⟨hbefore, hafter⟩)

theorem Yielded.at {o : Option Owner} (hs : Yielded (On user t c w₀ τ R) t k o g s)
    (hτ : τ.reserved = true) (hk : keyUser user k = t)
    (hc : ∀ h, Sum.inl h = k → c.handle = some h)
    (hidle : ∀ h, c.handle = some h → user h = t ∧ (w₀.memory h).active = false) :
    At user t c w₀ { τ with reserved := false } s ∧ s.ghost.phase = .held o := by
  have howned : Owned (keyUser user) Sum.inl t c.handle s := by
    refine hs.owned (fun s hs => ?_) hc
    have h := hs.1.owned
    rwa [Trace.busy, hτ, if_pos rfl] at h
  obtain ⟨s₀, γ, ⟨hs₀, hphase, hg⟩, hγ, hgen, rfl⟩ := hs
  have hstep : s₀.ghost.Step (keyUser user) t (.yield k) γ :=
    .yield hphase hγ (hgen.trans hg.symm) hk
  have hsane := hs₀.1.sane.moved (a := .casOwnership s₀.ghost.control γ.control) (r := none)
    hstep (fun o h => by cases h) rfl
  have hnone : Owned (keyUser user) Sum.inl t none
      (moved s₀ t (.casOwnership s₀.ghost.control γ.control) none γ) := by
    cases hh : c.handle with
    | none => rwa [hh] at howned
    | some h =>
      rw [hh] at howned
      refine howned.of_busy (.inl ⟨?_, fun o' ho' => ?_⟩)
      · obtain ⟨hu, hact⟩ := hidle h hh
        change (s₀.world.memory h).active = false
        rw [hs₀.1.kept h hu, hact]
      · cases hγ.symm.trans ho'
  refine ⟨⟨hnone, hsane, hs₀.1.call, hs₀.1.kept, ?_⟩, hγ⟩
  have hbefore : isActive s₀.ghost.control := s₀.ghost.isActive_control.mpr ⟨o, k, hphase⟩
  have hafter : ¬ isActive γ.control := by
    rw [Arbiter.isActive_control, hγ]
    rintro ⟨o, k, h⟩
    cases h
  rw [← hs₀.1.trace]
  refine trace_self.trans ?_
  simp only [Trace.act, hbefore, hafter, not_true, not_false_iff, and_self, if_true, if_false]

end Moves

end AirDap

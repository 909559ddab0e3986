import AirDap.Dap.Link

/-! Rules for verifying the calls of the two transports. A transport that holds the pins has
the claim of the word, unless one of its connects was refused while it held them. -/
namespace AirDap
open Concurrency

variable {T : Type} [DecidableEq T]

abbrev LinkState (T : Type) :=
  DState T T LowerCall.Answer (Transport → Link) LinkCall LinkCall.Value

/-- The transport does not hold the pins, unless it has forfeited its claim. -/
def Free (tr : Transport) (s : LinkState T) : Prop :=
  Forfeited tr s.history ∨ ¬ s.ghost.Holds tr.owner

/-- `claim` is what the transport needs to give the pins back. -/
structure Secured (tr : Transport) (claim : Claim) (s : LinkState T) : Prop where
  owner : claim.owner = ownerNone ∨ claim.owner = tr.owner.code
  backed : Forfeited tr s.history ∨ (s.ghost.Holds tr.owner →
    s.ghost.phase = .held (some tr.owner) ∧ claim = ⟨tr.owner.code, s.ghost.word⟩ ∧
      0 < s.ghost.generation)

/-- What every step of thread `t` does: only the host of a transport makes it the owner,
reserves its pins or changes its context, and a transport that is told that it is
disconnected is free. -/
structure LinkLegal (host : Transport → T) (t : T) (s s' : LinkState T) : Prop where
  step : ∃ m, s.ghost.Step id t m s'.ghost
  tracks : Tracks s'
  memory : ∀ tr, host tr ≠ t → s'.world.memory tr = s.world.memory tr
  event : ∃ e : LinkEvent T, e.thread = t ∧ s'.history = e :: s.history ∧ ∀ tr,
    (Tells tr e → Free tr s') ∧
      (s'.ghost.Holds tr.owner → s.ghost.Holds tr.owner ∨ (host tr = t ∧ Grants tr e))
  lends : ∀ tr k, s'.ghost.phase = .lent (some tr.owner) k →
    s.ghost.phase = .lent (some tr.owner) k ∨ host tr = t

def linkDiscipline (host : Transport → T) :
    DDiscipline T T LowerCall.Answer (Transport → Link) LinkCall LinkCall.Value where
  exec _ := Device.exec
  guar := LinkLegal host
  pre _ _ _ := True

abbrev LinkWp {α : Type} (host : Transport → T) (t : T) (p : LinkCode α)
    (Q : α → LinkState T → Prop) (s : LinkState T) : Prop :=
  (linkDiscipline host).wp t p Q s

/-- The step neither makes the transport the owner nor reserves its pins. -/
structure Spares (tr : Transport) (s s' : LinkState T) : Prop where
  history : ∃ e, s'.history = e :: s.history
  step : ∃ u m, s.ghost.Step id u m s'.ghost
  holds : s'.ghost.Holds tr.owner → s.ghost.Holds tr.owner
  lends : ∀ k, s'.ghost.phase = .lent (some tr.owner) k →
    s.ghost.phase = .lent (some tr.owner) k

section Spares

variable {host : Transport → T} {tr : Transport} {claim : Claim} {t u : T} {s s' : LinkState T}
  {m : Move T}

theorem Spares.forfeited (h : Spares tr s s') (hs : Forfeited tr s.history) :
    Forfeited tr s'.history := by
  obtain ⟨e, he⟩ := h.history
  rw [he]
  exact .inr hs

theorem Free.spares (hs : Free tr s) (h : Spares tr s s') : Free tr s' :=
  hs.imp h.forfeited fun hno hold => hno (h.holds hold)

theorem Secured.spares (hs : Secured tr claim s) (h : Spares tr s s') : Secured tr claim s' where
  owner := hs.owner
  backed := by
    refine hs.backed.imp h.forfeited fun hback hold => ?_
    obtain ⟨hphase, hclaim, hpos⟩ := hback (h.holds hold)
    obtain ⟨u, m, hstep⟩ := h.step
    have hgen : s'.ghost.generation = s.ghost.generation := by
      rcases hstep.holds hold with ⟨-, hgen⟩ | ⟨-, htrans, -⟩
      · exact hgen
      · cases hphase.symm.trans htrans
    have hword : s'.ghost.word = s.ghost.word := congrArg (BitVec.ofNat 32) hgen
    refine ⟨?_, by rw [hclaim, hword], hgen ▸ hpos⟩
    rcases hold with hold | ⟨k, hold⟩
    · exact hold
    · cases hphase.symm.trans (h.lends k hold)

omit [DecidableEq T] in
theorem Spares.of_step (hstep : s.ghost.Step id u m s'.ghost)
    (hhistory : ∃ e, s'.history = e :: s.history) (hgrant : m ≠ .grant tr.owner)
    (hreserve : ∀ k, m = .reserve k → s.ghost.phase ≠ .held (some tr.owner)) :
    Spares tr s s' where
  history := hhistory
  step := ⟨u, m, hstep⟩
  holds hold := by
    rcases hstep.holds hold with ⟨hold, -⟩ | ⟨hm, -⟩
    · exact hold
    · exact absurd hm hgrant
  lends k hk := by
    rcases hstep.lent_before hk with h | ⟨hm, hheld⟩
    · exact h
    · exact absurd hheld (hreserve k hm)

omit [DecidableEq T] in
theorem Spares.of_quiet (hstep : s.ghost.Step id u m s'.ghost)
    (hhistory : ∃ e, s'.history = e :: s.history) (hm : m.Quiet) : Spares tr s s' := by
  apply Spares.of_step hstep hhistory
  · rintro rfl
    exact hm
  · rintro k rfl
    exact hm.elim

theorem LinkLegal.spares (h : LinkLegal host u s s') (hu : host tr ≠ u) : Spares tr s s' where
  history := by
    obtain ⟨e, -, hh, -⟩ := h.event
    exact ⟨e, hh⟩
  step := ⟨u, h.step⟩
  holds hold := by
    obtain ⟨e, -, -, he⟩ := h.event
    exact ((he tr).2 hold).resolve_right fun hg => hu hg.1
  lends k hk := (h.lends tr k hk).resolve_right hu

variable {a : Act LowerCall} {r : Resp LowerCall.Answer a} {w : Device (Transport → Link)}
  {γ : Arbiter T T}

/-- An operation that leaves the contexts alone is legal if the thread hosts what it grants
and reserves. -/
theorem LinkLegal.of_step (hstep : s.ghost.Step id t m γ) (htracks : w.ownershipControl = γ.control)
    (hmemory : w.memory = s.world.memory) (hgrant : ∀ tr : Transport, m = .grant tr.owner →
      host tr = t ∧ Grants tr (.acted t a r s.world : LinkEvent T))
    (hreserve : ∀ tr : Transport, ∀ k, m = .reserve k →
      s.ghost.phase = .held (some tr.owner) → host tr = t) :
    LinkLegal host t s (s.acted t a r w γ) where
  step := ⟨m, hstep⟩
  tracks := htracks
  memory tr _ := congrFun hmemory tr
  event := by
    refine ⟨_, rfl, rfl, fun tr => ⟨fun h => h.elim, fun hold => ?_⟩⟩
    rcases hstep.holds hold with ⟨hold, -⟩ | ⟨hm, -⟩
    · exact .inl hold
    · exact .inr (hgrant tr hm)
  lends tr k hk := by
    rcases hstep.lent_before hk with h | ⟨hm, hheld⟩
    · exact .inl h
    · exact .inr (hreserve tr k hm hheld)

theorem LinkLegal.of_moved (hstep : s.ghost.Step id t m γ)
    (hgrant : ∀ tr : Transport, m = .grant tr.owner →
      host tr = t ∧ Grants tr (.acted t a r s.world : LinkEvent T))
    (hreserve : ∀ tr : Transport, ∀ k, m = .reserve k →
      s.ghost.phase = .held (some tr.owner) → host tr = t) :
    LinkLegal host t s (moved s t a r γ) :=
  .of_step hstep rfl rfl hgrant hreserve

theorem LinkLegal.of_quiet (hstep : s.ghost.Step id t m γ) (hm : m.Quiet)
    (htracks : w.ownershipControl = γ.control) (hmemory : w.memory = s.world.memory) :
    LinkLegal host t s (s.acted t a r w γ) := by
  apply LinkLegal.of_step hstep htracks hmemory
  · rintro tr rfl
    exact hm.elim
  · rintro tr k rfl
    exact hm.elim

end Spares

/-- An operation of `t` with a quiet move that leaves the contexts alone. -/
def LinkOwnStep (t : T) (s s' : LinkState T) : Prop :=
  ∃ a r w γ m, s' = s.acted t a r w γ ∧ m.Quiet ∧ s.ghost.Step id t m γ ∧
    w.memory = s.world.memory

/-- `P` lasts until the next operation of `t` that is not quiet. -/
structure LinkRides (host : Transport → T) (t : T) (P : LinkState T → Prop) : Prop where
  tracks : ∀ {s}, P s → Tracks s
  keep : ∀ {u s s'}, P s → LinkLegal host u s s' → (u = t → LinkOwnStep t s s') → P s'

section Rides

variable {host : Transport → T} {tr : Transport} {claim : Claim} {t u : T} {s : LinkState T}
  {P P' : LinkState T → Prop} {o : Option Owner} {g : ℕ}

omit [DecidableEq T] in
theorem LinkOwnStep.spares {s' : LinkState T} (h : LinkOwnStep t s s') : Spares tr s s' := by
  obtain ⟨a, r, w, γ, m, rfl, hm, hstep, -⟩ := h
  exact .of_quiet hstep ⟨_, rfl⟩ hm

/-- What survives the steps that spare a transport lasts in the thread that hosts it. -/
theorem LinkRides.spares (hhost : host tr = t) {R : LinkState T → Prop}
    (hR : ∀ {s s'}, R s → Spares tr s s' → R s') : LinkRides host t fun s => Tracks s ∧ R s where
  tracks hs := hs.1
  keep := by
    intro u s s' hs hg how
    refine ⟨hg.tracks, hR hs.2 ?_⟩
    by_cases hu : u = t
    · exact (how hu).spares
    · apply hg.spares
      rw [hhost]
      exact Ne.symm hu

theorem LinkRides.lent (hP : LinkRides host t P) : LinkRides host t (Lent P t o g) where
  tracks hs := hP.tracks hs.1
  keep := by
    intro u s s' hs hg how
    have he : s'.ghost = s.ghost := by
      by_cases hu : u = t
      · obtain ⟨a, r, w, γ, m, rfl, hm, hstep, -⟩ := how hu
        exact hstep.quiet_lent hm hs.2.1
      · obtain ⟨m, hstep⟩ := hg.step
        exact hstep.lent hu hs.2.1
    refine ⟨hP.keep hs.1 hg how, ?_⟩
    rw [he]
    exact hs.2

theorem link_arbitrated : Arbitrated (linkDiscipline host) id where
  exec _ := rfl
  guar h := h.step

theorem LinkRides.carries (hP : LinkRides host t P) : Carries (linkDiscipline host) id t P where
  tracks := hP.tracks
  stable _ _ _ hu hs hg := hP.keep hs hg fun he => absurd he hu
  quiet := by
    intro s s' hs hq
    obtain ⟨a, r, γ, m, rfl, hm, hstep⟩ := hq.exists_moved
    have hg : LinkLegal host t s (moved s t a r γ) := .of_quiet hstep hm rfl rfl
    exact ⟨hg, hP.keep hs hg fun _ => ⟨a, r, _, γ, m, rfl, hm, hstep, rfl⟩⟩
  halted _ := trivial

theorem link_ready {takes : Word → Prop} : Ready (linkDiscipline host) t P takes :=
  fun _ _ _ _ => trivial

/-- The thread hosts the transport of the owner, if it is one. -/
def Hosts (host : Transport → T) (t : T) (o : Option Owner) : Prop :=
  ∀ tr : Transport, o = some tr.owner → host tr = t

theorem link_loud : Loud (linkDiscipline host) id t P (Hosts host t) where
  grant := by
    intro s o γ _ hmay hstep
    apply LinkLegal.of_moved hstep
    · rintro tr ⟨⟩
      refine ⟨hmay tr rfl, ?_⟩
      cases hstep with
      | grant before after generation => exact Arbiter.holds_iff_state.mp (.inl after)
    · rintro tr k ⟨⟩
  reserve := by
    intro s o k γ _ hphase hmay hstep
    apply LinkLegal.of_moved hstep
    · rintro tr ⟨⟩
    · intro tr k' _ hheld
      cases hphase.symm.trans hheld
      exact hmay tr rfl
  yield := by
    intro s k γ _ hstep
    apply LinkLegal.of_moved hstep
    · rintro tr ⟨⟩
    · rintro tr k' ⟨⟩

section Operations

variable {α : Type} {Q : α → LinkState T → Prop} {a : Act LowerCall}

/-- An operation that does not touch the ownership word, under any stable assertion. -/
theorem wp_link_act (hstable : (linkDiscipline host).Stable t P)
    (htracks : ∀ s, P s → Tracks s) (hs : P s) (ha : a.Local)
    {k : Resp LowerCall.Answer a → LinkCode α}
    (h : ∀ s₁ r w, P s₁ → Device.exec s₁.world a r w →
      LinkLegal host t s₁ (s₁.acted t a r w s₁.ghost) →
      LinkOwnStep t s₁ (s₁.acted t a r w s₁.ghost) →
      LinkWp host t (k r) Q (s₁.acted t a r w s₁.ghost)) :
    LinkWp host t (.act a k) Q s := by
  apply Discipline.wp_act_of_stable hstable hs
  intro s₁ hs₁
  refine ⟨trivial, fun r w hw => ?_⟩
  obtain ⟨hown, hmem⟩ := Device.exec_local ha hw
  have hg : LinkLegal host t s₁ (s₁.acted t a r w s₁.ghost) :=
    .of_quiet .stay trivial (hown.trans (htracks s₁ hs₁)) hmem
  exact ⟨s₁.ghost, hg, h s₁ r w hs₁ hw hg ⟨a, r, w, _, .stay, rfl, trivial, .stay, hmem⟩⟩

theorem wp_link_local (a : Act LowerCall) (hP : LinkRides host t P) (hs : P s) (ha : a.Local)
    {k : Resp LowerCall.Answer a → LinkCode α}
    (h : ∀ r s₁, P s₁ → LinkWp host t (k r) Q s₁) :
    LinkWp host t (.act a k) Q s :=
  wp_link_act hP.carries.stable (fun _ => hP.tracks) hs ha
    fun _ r _ hs₁ _ hg how => h r _ (hP.keep hs₁ hg fun _ => how)

end Operations

end Rides

/-- Thread `t` is in the call `c`, which it made in the world `w₀`, and has the claims of the
other transports that it hosts. -/
structure LinkAt (host : Transport → T) (t : T) (c : LinkCall) (w₀ : Device (Transport → Link))
    (s : LinkState T) : Prop where
  tracks : Tracks s
  call : lastCall t s.history = some (c, w₀)
  memory : ∀ tr, host tr = t → s.world.memory tr = w₀.memory tr
  others : ∀ tr, host tr = t → c.transport ≠ some tr → Secured tr (w₀.memory tr).claim s

def LinkOn (host : Transport → T) (t : T) (c : LinkCall) (w₀ : Device (Transport → Link))
    (R : LinkState T → Prop) (s : LinkState T) : Prop :=
  LinkAt host t c w₀ s ∧ R s

section At

variable {host : Transport → T} {tr : Transport} {claim : Claim} {t : T} {c : LinkCall}
  {w₀ : Device (Transport → Link)} {s : LinkState T} {R : LinkState T → Prop}
  {o : Option Owner} {g : ℕ}

theorem linkAt_rides : LinkRides host t (LinkAt host t c w₀) where
  tracks hs := hs.tracks
  keep := by
    intro u s s' hs hg how
    by_cases hu : u = t
    · have hspares {tr : Transport} : Spares tr s s' := (how hu).spares
      obtain ⟨a, r, w, γ, m, rfl, -, -, hmem⟩ := how hu
      exact ⟨hg.tracks, hs.call, fun tr htr => (congrFun hmem tr).trans (hs.memory tr htr),
        fun tr htr hne => (hs.others tr htr hne).spares hspares⟩
    · obtain ⟨e, he, hh, -⟩ := hg.event
      have hne (tr : Transport) (htr : host tr = t) : host tr ≠ u := htr ▸ Ne.symm hu
      refine ⟨hg.tracks, ?_, fun tr htr => ?_, fun tr htr hc => ?_⟩
      · rw [hh, lastCall_of_ne (he ▸ hu), hs.call]
      · rw [hg.memory tr (hne tr htr), hs.memory tr htr]
      · exact (hs.others tr htr hc).spares (hg.spares (hne tr htr))

theorem linkOn_rides (hhost : host tr = t) (hR : ∀ {s s'}, R s → Spares tr s s' → R s') :
    LinkRides host t (LinkOn host t c w₀ R) where
  tracks hs := hs.1.tracks
  keep hs hg how :=
    ⟨linkAt_rides.keep hs.1 hg how, ((LinkRides.spares hhost hR).keep ⟨hs.1.tracks, hs.2⟩ hg how).2⟩

theorem linkOn_secured (hhost : host tr = t) :
    LinkRides host t (LinkOn host t c w₀ (Secured tr claim)) :=
  linkOn_rides hhost fun hs h => hs.spares h

/-- A move of the call for its own transport leaves what it knows of the others. -/
theorem LinkAt.moved (hs : LinkAt host t c w₀ s) {a : Act LowerCall}
    {r : Resp LowerCall.Answer a} {γ : Arbiter T T}
    (hspares : ∀ tr, c.transport ≠ some tr → Spares tr s (moved s t a r γ)) :
    LinkAt host t c w₀ (AirDap.moved s t a r γ) where
  tracks := rfl
  call := hs.call
  memory := hs.memory
  others tr htr hne := (hs.others tr htr hne).spares (hspares tr hne)

end At
end AirDap

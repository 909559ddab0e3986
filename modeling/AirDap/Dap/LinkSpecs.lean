import AirDap.Dap.LinkRules
import AirDap.Mode.Parts

/-! What the calls below the backend do, under interference: the transport keeps the claim of
the word it holds. -/
namespace AirDap
open Concurrency Discipline

variable {T : Type} [DecidableEq T] {host : Transport → T} {tr : Transport} {claim : Claim} {t : T}
  {c : LinkCall} {w₀ : Device (Transport → Link)} {s : LinkState T} {P : LinkState T → Prop}
  {o : Option Owner} {g : ℕ}

/-! Transitions and the OTA manager keep every lasting assertion. -/

section Quiet

variable (hP : LinkRides host t P)
include hP

theorem link_local (a : Act LowerCall) (ha : a.Local) (s : LinkState T) (hs : P s) :
    LinkWp host t (.act a .ret) (fun _ => P) s :=
  wp_link_local a hP hs ha fun _ _ hs₁ => hs₁

theorem link_words : WordParts fun {_} (p : LinkCode _) =>
    ∀ s, P s → LinkWp host t p (fun _ => P) s where
  ret _ _ hs := hs
  bind hp hf s hs := (hp s hs).bind fun v s₁ hs₁ => hf v s₁ hs₁
  spent _ _ _ _ := trivial
  loadMode := link_local hP .loadMode trivial
  addPreemption := link_local hP .addPreemption trivial
  subPreemption := link_local hP .subPreemption trivial
  loadPreemptions := link_local hP .loadPreemptions trivial

theorem link_modeTransition (rounds : ℕ) (event : ModeEvent) (hs : P s) :
    LinkWp host t (modeTransition rounds event) (fun _ => P) s :=
  (link_words hP).transition (fun _ _ _ => link_local hP (.casModeWeak _ _) trivial)
    (fun _ _ hs => ownershipRevokeOwner_spec link_arbitrated hP.carries ownerNetwork link_ready hs)
    rounds s hs

theorem link_otaCode (ota : List OtaStep) (hs : P s) :
    LinkWp host t (otaCode ota) (fun _ => P) s := by
  induction ota generalizing s with
  | nil => exact hs
  | cons step ota ih =>
    have hstep : LinkWp host t step.code (fun _ => P) s := by
      cases step with
      | transition rounds event =>
        exact (link_modeTransition hP rounds event hs).bind fun _ s₁ hs₁ => hs₁
      | suspend rounds =>
        exact (ownershipSuspend_spec link_arbitrated hP.carries link_ready rounds hs).bind
          fun _ s₁ hs₁ => hs₁
      | resume rounds =>
        exact (ownershipResume_spec link_arbitrated hP.carries link_ready rounds hs).bind
          fun _ s₁ hs₁ => hs₁
    exact hstep.bind fun _ s₁ hs₁ => ih hs₁

/-- The admission is refused by the policy, or because another owner holds the pins. -/
theorem link_dapAdmission (hs : P s) (control : Word) (owner : Owner)
    (authenticated boardControl : Bool) :
    LinkWp host t (dapAdmissionForControl control owner.code authenticated boardControl)
      (fun r s => P s ∧ (r ≠ .allowed →
        dapPolicy control owner.code authenticated boardControl ≠ .allowed ∨
          ¬ s.ghost.Holds owner)) s := by
  unfold dapAdmissionForControl
  apply wp_ite
  · exact fun hno => ⟨hs, fun _ => .inl hno⟩
  · intro _
    apply (ownershipCurrent_spec link_arbitrated hP.carries link_ready hs).bind
    intro current s₁ hs₁
    refine ⟨hs₁.1, fun hbusy => .inr fun hold => hbusy ?_⟩
    exact if_neg fun h => h.2 (hs₁.2 owner hold)

theorem link_selectRoute (rounds : ℕ) (route current : Word) (hs : P s) :
    LinkWp host t (selectRoute rounds route current) (fun _ => P) s :=
  (link_words hP).selectRoute (link_local hP (.saveRoute _) trivial)
    (fun _ => link_local hP (.casModeWeak _ _) trivial) rounds s hs

end Quiet

/-! Moves that are not quiet -/

section Moves

variable {k : T}

/-- A reservation for an owner that is no other transport of the thread. -/
theorem Reserved.linkAt (hs : Reserved P t t o s) (hP : ∀ s, P s → LinkAt host t c w₀ s)
    (ho : ∀ tr, c.transport ≠ some tr → o ≠ some tr.owner) : LinkAt host t c w₀ s := by
  obtain ⟨s₀, γ, hs₀, hphase, hγ, hgen, rfl⟩ := hs
  apply (hP s₀ hs₀).moved
  intro tr hne
  refine .of_step (.reserve hphase hγ hgen rfl : s₀.ghost.Step id t (.reserve t) γ) ⟨_, rfl⟩
    (by simp) fun k _ hheld => ?_
  cases hphase.symm.trans hheld
  exact ho tr hne rfl

theorem Yielded.linkAt (hs : Yielded P t t o g s) (hP : ∀ s, P s → LinkAt host t c w₀ s) :
    LinkAt host t c w₀ s := by
  obtain ⟨s₀, γ, ⟨hs₀, hphase, hg⟩, hγ, hgen, rfl⟩ := hs
  apply (hP s₀ hs₀).moved
  intro tr _
  exact .of_step (.yield hphase hγ (hgen.trans hg.symm) rfl : s₀.ghost.Step id t (.yield t) γ)
    ⟨_, rfl⟩ (by simp) fun k hk => by cases hk

theorem Granted.linkAt {owner : Owner} (hs : Granted P t owner s)
    (hP : ∀ s, P s → LinkAt host t c w₀ s)
    (ho : ∀ tr, c.transport ≠ some tr → owner ≠ tr.owner) : LinkAt host t c w₀ s := by
  obtain ⟨s₀, γ, hs₀, hphase, hγ, hgen, rfl⟩ := hs
  apply (hP s₀ hs₀).moved
  intro tr hne
  refine .of_step (.grant hphase hγ hgen : s₀.ghost.Step id t (.grant owner) γ) ⟨_, rfl⟩
    (fun h => ?_) fun k hk => by cases hk
  cases h
  exact ho tr hne rfl

end Moves

/-- `airdap_mode_state_set_dap_route` reserves the pins for nobody or for the diagnostics. -/
theorem link_setDapRoute (rounds : ℕ) (route : Word) (hs : LinkAt host t c w₀ s) :
    LinkWp host t (setDapRoute rounds route) (fun _ => LinkAt host t c w₀) s := by
  have howner {o : Option Owner} (ho : o = none ∨ heldCode o = ownerDiagnostic) (tr : Transport) :
      o ≠ some tr.owner := by
    rintro rfl
    cases tr <;> revert ho <;> decide
  have hfinish {o : Option Owner} {g : ℕ} {s : LinkState T}
      (hs : Lent (LinkAt host t c w₀) t o g s) (r : ModeDapResult) :
      LinkWp host t
        (ownershipOperationEnd (some ⟨heldCode o, BitVec.ofNat 32 g, true⟩) >>= fun _ => pure r)
        (fun _ => LinkAt host t c w₀) s :=
    (ownershipOperationEnd_spec link_arbitrated linkAt_rides.carries link_ready link_loud rfl
      hs).bind fun _ s₁ hs₁ => hs₁.1.linkAt fun _ h => h
  unfold setDapRoute
  refine wp_guard hs fun _ => ?_
  apply (ownershipControlBegin_spec (k := t) link_arbitrated linkAt_rides.carries ownerDiagnostic
    (some .zero) link_ready link_loud (fun o ho tr h => absurd h (howner ho tr))
    (fun _ => rfl) hs).bind
  intro v s₁ hpost
  cases hpost with
  | kept hs₁ hok halready =>
    refine wp_guard hs₁ fun hallowed => ?_
    exact absurd (ownershipResult_ne hok halready) hallowed
  | @ok _ o hs₁ hmay hop =>
    have hlent : Lent (LinkAt host t c w₀) t o s₁.ghost.generation s₁ := by
      refine ⟨hs₁.linkAt (fun _ h => h) fun tr _ => howner hmay tr, ?_, rfl⟩
      obtain ⟨s₀, γ, -, -, hγ, -, rfl⟩ := hs₁
      exact hγ
    refine wp_ite (fun h => absurd rfl h) fun _ => ?_
    refine wp_ite (fun _ => hfinish hlent _) fun _ => ?_
    refine wp_link_local .loadMode linkAt_rides.lent hlent trivial fun current s₂ hs₂ => ?_
    apply (link_selectRoute linkAt_rides.lent rounds route current hs₂).bind
    exact fun r s₃ hs₃ => hfinish hs₃ r

/-! Calls for the transport of a packet -/

section Claim

theorem Free.secured_zero (hs : Free tr s) : Secured tr .zero s where
  owner := .inl rfl
  backed := hs.imp_right fun hno hold => absurd hold hno

theorem ReleasePost.free {r : OwnershipResult}
    (hpost : ReleasePost (LinkOn host t c w₀ (Secured tr claim)) t (some claim) r s) :
    Free tr s := by
  cases hpost with
  | invalid hs hclaim =>
    apply hs.2.backed.imp_right
    intro hback hold
    obtain ⟨-, rfl, hpos⟩ := hback hold
    rw [Arbiter.word, validClaim_of_lt hpos s.ghost.generation_lt] at hclaim
    cases hclaim
  | @refused s₀ cl hclaim hs₀ hne hs =>
    cases hclaim
    rcases hs₀.2.backed with hforf | hback
    · exact .inl (.inr hforf)
    · refine .inr fun hold => hne ?_
      obtain ⟨hphase, hcl, -⟩ := hback hold
      rw [hcl, Arbiter.control_held hphase]
      rfl
  | released hclaim hs => exact .inr (hs.not_holds tr.owner)

/-- What a begin leaves while the pins are reserved: the claim is the one of the word. -/
def Owed (tr : Transport) (claim : Claim) (o : Option Owner) (g : ℕ) (s : LinkState T) : Prop :=
  (claim.owner = ownerNone ∨ claim.owner = tr.owner.code) ∧
    (Forfeited tr s.history ∨
      (o = some tr.owner → claim = ⟨tr.owner.code, BitVec.ofNat 32 g⟩ ∧ 0 < g))

theorem Reserved.owed (hs : Reserved (LinkOn host t c w₀ (Secured tr claim)) t t o s)
    (hc : c.transport = some tr) (ho : claim.owner = heldCode o) :
    Lent (LinkOn host t c w₀ (Owed tr claim o s.ghost.generation)) t o s.ghost.generation s := by
  have hat : LinkAt host t c w₀ s := by
    apply hs.linkAt fun _ h => h.1
    rintro tr' hne rfl
    obtain ⟨s₀, γ, hs₀, -⟩ := hs
    rcases hs₀.2.owner with h | h
    · exact absurd
        (heldCode_injective (ho.symm.trans h : heldCode (some tr'.owner) = heldCode none))
        (by simp)
    · have h := Owner.code_injective (ho.symm.trans h : tr'.owner.code = tr.owner.code)
      rw [Transport.owner_injective h] at hne
      exact hne hc
  obtain ⟨s₀, γ, hs₀, hphase, hγ, hgen, rfl⟩ := hs
  refine ⟨⟨hat, hs₀.2.owner, ?_⟩, hγ, rfl⟩
  rcases hs₀.2.backed with hforf | hback
  · exact .inl (.inr hforf)
  · right
    rintro rfl
    obtain ⟨-, hcl, hpos⟩ := hback (.inl hphase)
    change claim = ⟨tr.owner.code, BitVec.ofNat 32 γ.generation⟩ ∧ 0 < γ.generation
    rw [hgen]
    exact ⟨hcl, hpos⟩

theorem Yielded.secured (hs : Yielded (LinkOn host t c w₀ (Owed tr claim o g)) t t o g s) :
    LinkOn host t c w₀ (Secured tr claim) s := by
  refine ⟨hs.linkAt fun _ h => h.1, ?_⟩
  obtain ⟨s₀, γ, ⟨hs₀, hphase, hg⟩, hγ, hgen, rfl⟩ := hs
  refine ⟨hs₀.2.1, ?_⟩
  rcases hs₀.2.2 with hforf | hback
  · exact .inl (.inr hforf)
  · right
    intro hold
    have ho : o = some tr.owner := by
      rcases hold with hold | ⟨k, hold⟩ <;> cases hγ.symm.trans hold
      rfl
    obtain ⟨hcl, hpos⟩ := hback ho
    refine ⟨ho ▸ hγ, ?_, ?_⟩
    · rw [hcl]
      exact congrArg (Claim.mk _) (congrArg (BitVec.ofNat 32) hgen.symm)
    · exact hgen ▸ hpos

variable (hhost : host tr = t)
include hhost

theorem link_release (hs : LinkOn host t c w₀ (Secured tr claim) s) :
    LinkWp host t (ownershipRelease (some claim))
      (fun _ => LinkOn host t c w₀ fun s => Secured tr claim s ∧ Free tr s) s := by
  apply (ownershipRelease_spec link_arbitrated (linkOn_secured hhost).carries (some claim)
    link_ready hs).mono
  exact fun _ s₁ hpost => ⟨hpost.holds.1, hpost.holds.2, hpost.free⟩

theorem linkOn_owed : LinkRides host t (LinkOn host t c w₀ (Owed tr claim o g)) :=
  linkOn_rides hhost fun hs h => ⟨hs.1, hs.2.imp_left h.forfeited⟩

theorem link_operationEnd
    (hs : Lent (LinkOn host t c w₀ (Owed tr claim o g)) t o g s) :
    LinkWp host t (ownershipOperationEnd (some ⟨heldCode o, BitVec.ofNat 32 g, true⟩))
      (fun v s => LinkOn host t c w₀ (Secured tr claim) s ∧ v = some .zero) s := by
  apply (ownershipOperationEnd_spec link_arbitrated (linkOn_owed hhost).carries link_ready
    link_loud rfl hs).mono
  exact fun v s₁ hs₁ => ⟨hs₁.1.secured, hs₁.2⟩

/-- The ways a begin of a packet ends. -/
inductive LinkBegun (host : Transport → T) (t : T) (c : LinkCall)
    (w₀ : Device (Transport → Link)) (tr : Transport) (claim : Claim) :
    ModeDapResult × Option Operation → LinkState T → Prop
  | allowed {s : LinkState T} {o : Option Owner} {g : ℕ}
      (hs : Lent (LinkOn host t c w₀ (Owed tr claim o g)) t o g s) :
      LinkBegun host t c w₀ tr claim (.allowed, some ⟨heldCode o, BitVec.ofNat 32 g, true⟩) s
  | refused {s : LinkState T} {r : ModeDapResult}
      (hs : LinkOn host t c w₀ (Secured tr claim) s) (hr : r ≠ .allowed) :
      LinkBegun host t c w₀ tr claim (r, some .zero) s

theorem link_confirmOperation (owner : Owner) (before : Word)
    (hs : Lent (LinkOn host t c w₀ (Owed tr claim o g)) t o g s) :
    LinkWp host t (confirmOperation owner.code true false before
      (some ⟨heldCode o, BitVec.ofNat 32 g, true⟩)) (LinkBegun host t c w₀ tr claim) s := by
  refine wp_link_local .loadMode (linkOn_owed hhost).lent hs trivial fun after s₁ hs₁ => ?_
  refine wp_ite (fun _ => ?_) fun _ => .allowed hs₁
  apply (link_operationEnd hhost hs₁).bind
  rintro v s₂ ⟨hs₂, rfl⟩
  apply (link_dapAdmission (linkOn_secured hhost) hs₂ after owner true false).bind
  intro latest s₃ hs₃
  refine .refused hs₃.1 ?_
  split
  · decide
  · assumption

theorem link_dapOperationBegin (hc : c.transport = some tr)
    (hs : LinkOn host t c w₀ (Secured tr claim) s) :
    LinkWp host t (dapOperationBegin tr.owner.code true (some claim) (some .zero))
      (LinkBegun host t c w₀ tr claim) s := by
  have hmay : ∀ cl o, some claim = some cl → cl.owner = heldCode o → Hosts host t o := by
    rintro cl o ⟨⟩ ho tr' rfl
    rcases hs.2.owner with h | h
    · exact absurd
        (heldCode_injective (ho.symm.trans h : heldCode (some tr'.owner) = heldCode none))
        (by simp)
    · have h := Owner.code_injective (ho.symm.trans h : tr'.owner.code = tr.owner.code)
      rw [Transport.owner_injective h]
      exact hhost
  refine wp_link_local .loadMode (linkOn_secured hhost) hs trivial fun before s₁ hs₁ => ?_
  apply (link_dapAdmission (linkOn_secured hhost) hs₁ before tr.owner true false).bind
  intro result s₂ hs₂
  refine wp_ite (fun hno => .refused hs₂.1 hno) fun _ => ?_
  apply (ownershipOperationBegin_spec (k := t) link_arbitrated (linkOn_secured hhost).carries
    (some claim) (some .zero) link_ready link_loud hmay (fun _ => rfl) hs₂.1).bind
  intro v s₃ hpost
  cases hpost with
  | kept hs₃ hok halready =>
    refine wp_ite (fun hno => .refused hs₃ hno) fun hallowed => ?_
    exact absurd (ownershipResult_ne hok halready) hallowed
  | ok hs₃ hmay hop =>
    obtain ⟨cl, hcl, ho⟩ := hmay
    cases hcl
    refine wp_ite (fun h => absurd rfl h) fun _ => ?_
    exact link_confirmOperation hhost tr.owner before (hs₃.owed hc ho)

end Claim

/-! The acquire of a DAP_Connect -/

section Acquire

/-- A transport that is refused does not hold the pins. -/
def RefusedFree (tr : Transport) (claim : Claim) (result : ModeDapResult) (s : LinkState T) :
    Prop :=
  Secured tr claim s ∧ (result ≠ .allowed → Free tr s)

theorem Granted.secured {R : LinkState T → Prop}
    (hs : Granted (LinkOn host t c w₀ R) t tr.owner s)
    (hc : c.transport = some tr) :
    LinkOn host t c w₀ (Secured tr ⟨tr.owner.code, s.ghost.word⟩) s := by
  refine ⟨hs.linkAt (fun _ h => h.1) fun tr' hne he => hne ?_, .inr rfl, .inr fun _ => ?_⟩
  · rw [hc, Transport.owner_injective he]
  · obtain ⟨s₀, γ, -, -, hγ, hgen, rfl⟩ := hs
    exact ⟨hγ, rfl, hgen ▸ Nat.succ_pos _⟩

variable (hhost : host tr = t)
include hhost

theorem linkOn_free : LinkRides host t (LinkOn host t c w₀ fun s =>
    Secured tr claim s ∧ Free tr s) :=
  linkOn_rides hhost fun hs h => ⟨hs.1.spares h, hs.2.spares h⟩

theorem link_confirmAcquire (before : Word) (hs : LinkOn host t c w₀ (Secured tr claim) s) :
    LinkWp host t (confirmAcquire tr.owner.code true before (some claim))
      (fun v s => v.2 = some claim ∧ LinkOn host t c w₀ (Secured tr claim) s) s := by
  refine wp_link_local .loadMode (linkOn_secured hhost) hs trivial fun after s₁ hs₁ => ?_
  refine wp_ite (fun _ => ?_) fun _ => ⟨rfl, hs₁⟩
  apply (link_release hhost hs₁).bind
  intro released s₂ hs₂
  have hs₂' : LinkOn host t c w₀ (Secured tr claim) s₂ := ⟨hs₂.1, hs₂.2.1⟩
  refine wp_guard ⟨rfl, hs₂'⟩ fun _ => ?_
  apply (link_dapAdmission (linkOn_secured hhost) hs₂' after tr.owner true false).bind
  exact fun latest s₃ hs₃ => ⟨rfl, hs₃.1⟩

theorem link_preemptNetwork (before : Word) (result : ModeDapResult)
    (hs : LinkOn host t c w₀ (RefusedFree tr claim result) s) :
    LinkWp host t (preemptNetwork tr.owner.code true before result)
      (fun v => LinkOn host t c w₀ (RefusedFree tr claim v.2)) s := by
  unfold preemptNetwork
  refine wp_ite (fun hbusy => ?_) fun _ => hs
  have hfree : LinkOn host t c w₀ (fun s => Secured tr claim s ∧ Free tr s) s :=
    ⟨hs.1, hs.2.1, hs.2.2 (by rw [hbusy.1]; decide)⟩
  have hdone {s : LinkState T} (r : ModeDapResult)
      (hs : LinkOn host t c w₀ (fun s => Secured tr claim s ∧ Free tr s) s) :
      LinkOn host t c w₀ (RefusedFree tr claim r) s := ⟨hs.1, hs.2.1, fun _ => hs.2.2⟩
  have hP : LinkRides host t (LinkOn host t c w₀ fun s => Secured tr claim s ∧ Free tr s) :=
    linkOn_free hhost
  apply (ownershipCurrent_spec link_arbitrated hP.carries link_ready hfree).bind
  intro current s₁ hs₁
  refine wp_ite (fun _ => ?_) fun _ => hdone _ hs₁.1
  apply (ownershipRevokeOwner_spec link_arbitrated hP.carries ownerNetwork link_ready hs₁.1).bind
  intro revoked s₂ hs₂
  refine wp_ite (fun _ => ?_) fun _ => hdone _ hs₂
  refine wp_link_local .loadMode hP hs₂ trivial fun before s₃ hs₃ => ?_
  apply (link_dapAdmission hP hs₃ before tr.owner true false).bind
  exact fun r s₄ hs₄ => hdone r hs₄.1

/-- The call of `t` has not read the mode word yet. -/
def Unread (t : T) (s : LinkState T) : Prop := (trace t s.history).modeReads = 0

theorem unread_stable : (linkDiscipline host).Stable t fun s =>
    LinkOn host t c w₀ (Secured tr claim) s ∧ Unread t s := by
  intro u s s' hu hs hg
  refine ⟨(linkOn_secured hhost).carries.stable hu hs.1 hg, ?_⟩
  obtain ⟨e, he, hh, -⟩ := hg.event
  rw [Unread, hh, trace_of_ne (he ▸ hu)]
  exact hs.2

theorem wp_link_unread {α : Type} {Q : α → LinkState T → Prop} (a : Act LowerCall)
    (hs : LinkOn host t c w₀ (Secured tr claim) s ∧ Unread t s) (ha : a.Local)
    (hread : ∀ (τ : Trace) (r : Resp LowerCall.Answer a), (τ.act a r).modeReads = τ.modeReads)
    {k : Resp LowerCall.Answer a → LinkCode α}
    (h : ∀ r s₁, LinkOn host t c w₀ (Secured tr claim) s₁ ∧ Unread t s₁ →
      LinkWp host t (k r) Q s₁) :
    LinkWp host t (.act a k) Q s := by
  apply wp_link_act (unread_stable hhost) (fun s hs => hs.1.1.tracks) hs ha
  intro s₁ r w hs₁ _ hg how
  refine h r _ ⟨(linkOn_secured hhost).keep hs₁.1 hg fun _ => how, ?_⟩
  have htrace : trace t (s₁.acted t a r w s₁.ghost).history = (trace t s₁.history).act a r :=
    trace_self
  rw [Unread, htrace, hread]
  exact hs₁.2

/-- The first reading of a DAP_Connect: a transport that the policy refuses is free, or has
forfeited its claim by this reading. -/
theorem wp_link_firstRead {α : Type} {Q : α → LinkState T → Prop}
    (hs : LinkOn host t c w₀ (Secured tr claim) s ∧ Unread t s) (hc : c.Connects tr)
    {k : Word → LinkCode α}
    (h : ∀ before s₁, LinkOn host t c w₀ (fun s => Secured tr claim s ∧
      (dapPolicy before tr.owner.code true false ≠ .allowed → Free tr s)) s₁ →
      LinkWp host t (k before) Q s₁) :
    LinkWp host t (loadMode >>= k) Q s := by
  refine wp_link_act (a := .loadMode) (unread_stable hhost) (fun s hs => hs.1.1.tracks) hs trivial
    fun s₁ r w hs₁ _ hg how => ?_
  have hs₂ := (linkOn_secured hhost).keep hs₁.1 hg fun _ => how
  refine h r _ ⟨hs₂.1, hs₂.2, fun hrefused => ?_⟩
  by_cases hold : s₁.ghost.Holds tr.owner
  · refine .inl (.inl ⟨⟨_, hs₁.1.1.call, hc⟩, hs₁.2, ?_, hrefused⟩)
    rw [hs₁.1.1.tracks]
    exact Arbiter.holds_iff_state.mp hold
  · exact .inr hold

theorem link_dapAcquire (hc : c.Connects tr) (htr : c.transport = some tr)
    (hs : LinkOn host t c w₀ (Secured tr claim) s ∧ Unread t s) :
    LinkWp host t (dapAcquire tr.owner.code true (some claim))
      (fun v s => ∃ claim', v.2 = some claim' ∧ LinkOn host t c w₀ (Secured tr claim') s) s := by
  have hhosts : ∀ o : Owner, tr.owner.code = o.code → Hosts host t (some o) := by
    intro o ho tr' h
    rw [Option.some.inj h] at ho
    rw [← Transport.owner_injective (Owner.code_injective ho)]
    exact hhost
  apply wp_link_firstRead hhost hs hc
  intro before s₁ hs₁
  have hP : LinkRides host t (LinkOn host t c w₀ fun s => Secured tr claim s ∧
      (dapPolicy before tr.owner.code true false ≠ .allowed → Free tr s)) :=
    linkOn_rides hhost fun hs h => ⟨hs.1.spares h, fun hno => (hs.2 hno).spares h⟩
  apply (link_dapAdmission hP hs₁ before tr.owner true false).bind
  intro result s₂ hs₂
  have hs₂' : LinkOn host t c w₀ (RefusedFree tr claim result) s₂ :=
    ⟨hs₂.1.1, hs₂.1.2.1, fun hno => (hs₂.2 hno).elim hs₂.1.2.2 .inr⟩
  apply (link_preemptNetwork hhost before result hs₂').bind
  intro v s₃ hs₃
  refine wp_ite (fun hno => ⟨_, rfl, hs₃.1, (hs₃.2.2 hno).secured_zero⟩) fun _ => ?_
  have hs₃' : LinkOn host t c w₀ (Secured tr claim) s₃ := ⟨hs₃.1, hs₃.2.1⟩
  apply (ownershipAcquire_spec link_arbitrated (linkOn_secured hhost).carries link_ready link_loud
    tr.owner.code hhosts (some .zero) hs₃').bind
  intro r s₄ hpost
  have hconfirm {claim' : Claim} (hs : LinkOn host t c w₀ (Secured tr claim') s₄)
      (acquired : OwnershipResult) :
      LinkWp host t (if acquireResult tr.owner.code acquired ≠ .allowed then
          pure (acquireResult tr.owner.code acquired, some claim')
        else confirmAcquire tr.owner.code true v.1 (some claim'))
        (fun v s => ∃ claim', v.2 = some claim' ∧ LinkOn host t c w₀ (Secured tr claim') s) s₄ :=
    wp_guard ⟨_, rfl, hs⟩ fun _ =>
      (link_confirmAcquire hhost v.1 hs).mono fun _ _ h => ⟨_, h⟩
  cases hpost with
  | ok howner hgranted =>
    rw [← Owner.code_injective howner] at hgranted
    exact hconfirm (hgranted.secured htr) _
  | already howner hs₄ hold =>
    rw [← Owner.code_injective howner] at hold
    refine hconfirm ⟨hs₄.1, .inr rfl, hs₄.2.backed.imp_right fun hback _ => ?_⟩ _
    obtain ⟨hphase, -, hpos⟩ := hback hold
    exact ⟨hphase, rfl, hpos⟩
  | failed hs₄ hok halready hno =>
    exact hconfirm ⟨hs₄.1, Free.secured_zero (.inr (hno tr.owner rfl))⟩ _
  | invalid hs₄ hbad => simp [isOwner_code] at hbad

theorem link_modeDapAcquire (hc : c.Connects tr) (htr : c.transport = some tr)
    (hs : LinkOn host t c w₀ (Secured tr claim) s ∧ Unread t s) :
    LinkWp host t (modeDapAcquire tr.owner.code true (some claim))
      (fun v s => ∃ claim', v.2 = some claim' ∧ LinkOn host t c w₀ (Secured tr claim') s) s := by
  unfold modeDapAcquire
  refine wp_ite (fun _ => ?_) fun _ => link_dapAcquire hhost hc htr hs
  refine wp_link_unread hhost .addPreemption hs trivial (fun _ _ => rfl) fun _ s₁ hs₁ => ?_
  apply (link_dapAcquire hhost hc htr hs₁).bind
  rintro v s₂ ⟨claim', hv, hs₂⟩
  exact wp_link_local .subPreemption (linkOn_secured hhost) hs₂ trivial
    fun _ s₃ hs₃ => ⟨claim', hv, hs₃⟩

end Acquire
end AirDap

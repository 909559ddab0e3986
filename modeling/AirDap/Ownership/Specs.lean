import AirDap.Ownership.Contract

/-! What each call of the arbiter does to the abstract arbiter, under interference. -/
namespace AirDap
open Concurrency Discipline Arbiter

variable {T K I : Type} {J : I → Type} {M C : Type} {V : C → Type}
  {D : DDiscipline T K J M C V} {user : K → T} {t : T} {P : DState T K J M C V → Prop}
  {takes : Word → Prop} {owners : Option Owner → Prop} {s : DState T K J M C V}

/-- The pins are given back: the call reports it and leaves `released`, or the arbiter goes
offline for good. -/
def PinsReleased (P : DState T K J M C V → Prop) (g : ℕ) (released : Phase T K)
    (r : OwnershipResult) (s : DState T K J M C V) : Prop :=
  P s ∧ s.ghost.generation = g ∧
    ((r = .ok ∧ s.ghost.phase = released) ∨ (r = .offline ∧ s.ghost.phase = .offline))

theorem PinsReleased.not_holds {g : ℕ} {r : OwnershipResult}
    (hs : PinsReleased P g (.held none) r s) (o : Owner) : ¬ s.ghost.Holds o := by
  intro hold
  rcases hs.2.2 with ⟨-, hphase⟩ | ⟨-, hphase⟩ <;>
    rcases hold with hold | ⟨k, hold⟩ <;> cases hphase.symm.trans hold

theorem releasePins_spec (hA : Arbitrated D user) (hP : Carries D user t P)
    (hr : Ready D t P takes) {g : ℕ} (hs : Seized P t g s) {generation : Word}
    (hw : generation = BitVec.ofNat 32 g) {released : Phase T K}
    (hrel : released = .held none ∨ released = .suspended) :
    D.wp t (releasePins generation released.state) (PinsReleased P g released) s := by
  refine wp_backendReleasePins hA hP hr hs fun r s₁ hs₁ => ?_
  refine wp_storeOwnership hA hP hr hs₁ fun s₂ hs₂ => ?_
  obtain ⟨hP₂, hphase, hg⟩ := hs₂
  let final : Phase T K := if r then released else .offline
  let γ : Arbiter T K := ⟨final, s₂.ghost.generation, s₂.ghost.generation_lt⟩
  have hfinal : final = .held none ∨ final = .suspended ∨ final = .offline := by
    cases r
    · exact .inr (.inr rfl)
    · exact hrel.imp_right .inl
  have hcontrol : makeControl generation (if r then released.state else stateOffline) =
      γ.control := by
    have hst : (if r then released.state else stateOffline) = final.state := by cases r <;> rfl
    rw [hst, hw, ← hg]
    rcases hfinal with h | h | h <;> simp [γ, Arbiter.control, Arbiter.word, h]
  have hstep : s₂.ghost.Step user t .settle γ := .settle hphase hfinal rfl
  rw [hcontrol]
  obtain ⟨hguar, hP₃⟩ := hP.quiet hP₂ (.store hstep)
  refine ⟨γ, rfl, hguar, hP₃, hg, ?_⟩
  cases r
  · exact .inr ⟨rfl, rfl⟩
  · exact .inl ⟨rfl, rfl⟩

theorem wp_seize (hA : Arbitrated D user) (hP : Carries D user t P) (hr : Ready D t P takes)
    (hs : P s) {seen : Arbiter T K} {o : Option Owner} (hseen : seen.phase = .held o)
    (htake : takes seen.control) {α : Type} {k : Option Word → Code J α}
    {Q : α → DState T K J M C V → Prop}
    (hok : ∀ s₁, Seized P t seen.generation s₁ → D.wp t (k none) Q s₁)
    (hno : ∀ s₁, P s₁ → D.wp t (k (some s₁.ghost.control)) Q s₁) :
    D.wp t (casOwnership seen.control (makeControl seen.word stateTransition) >>= k) Q s := by
  refine wp_casOwnership_quiet hA hP hr hs htake (fun s₁ _ he => ?_) (fun s₁ _ _ hs₁ => hno _ hs₁)
  obtain ⟨hphase, hgen⟩ :=
    control_eq_held seen.word_lt (he.trans (control_held hseen))
  rw [Arbiter.toNat_word] at hgen
  refine ⟨seen.seized t, .seize, rfl, trivial, .seize hphase rfl hgen.symm, fun s₂ hs₂ hγ => ?_⟩
  exact hok s₂ ⟨hs₂, by rw [hγ]; rfl, by rw [hγ]; rfl⟩

/-- `s` is the state right after thread `t` made `o` the owner. -/
def Granted (P : DState T K J M C V → Prop) (t : T) (o : Owner) (s : DState T K J M C V) : Prop :=
  ∃ s₀ γ, P s₀ ∧ s₀.ghost.phase = .transition t ∧ γ.phase = .held (some o) ∧
    γ.generation = s₀.ghost.generation + 1 ∧ s = moved s₀ t (.storeOwnership γ.control) () γ

/-- The ways an acquire ends. -/
inductive AcquirePost (P : DState T K J M C V → Prop) (t : T) (owner : Word)
    (claim : Option Claim) : OwnershipResult × Option Claim → DState T K J M C V → Prop
  | ok {s : DState T K J M C V} {o : Owner} (howner : owner = o.code) (hs : Granted P t o s) :
      AcquirePost P t owner claim (.ok, some ⟨owner, s.ghost.word⟩) s
  | already {s : DState T K J M C V} {o : Owner} (howner : owner = o.code) (hs : P s)
      (hold : s.ghost.Holds o) :
      AcquirePost P t owner claim (.alreadyOwner, some ⟨owner, s.ghost.word⟩) s
  | failed {s : DState T K J M C V} {r : OwnershipResult} (hs : P s) (hok : r ≠ .ok)
      (halready : r ≠ .alreadyOwner) (hno : ∀ o : Owner, owner = o.code → ¬ s.ghost.Holds o) :
      AcquirePost P t owner claim (r, some .zero) s
  | invalid {s : DState T K J M C V} (hs : P s) (hbad : claim = none ∨ isOwner owner = false) :
      AcquirePost P t owner claim (.invalidArgument, claim) s

section Acquire

variable (hA : Arbitrated D user) (hP : Carries D user t P)
  (hr : Ready D t P fun e => controlState e = ownerNone) {o : Owner} {claim : Option Claim}
include hA hP hr

/-- The exchange into the transition succeeded at the last generation. -/
theorem acquire_exhausted {g : ℕ} (hs : Seized P t g s) :
    D.wp t (storeOwnership (makeControl (BitVec.ofNat 32 g) stateOffline) >>= fun _ =>
      pure (.offline, some .zero)) (AcquirePost P t o.code claim) s := by
  refine wp_storeOwnership hA hP hr hs fun s₁ hs₁ => ?_
  let γ : Arbiter T K := ⟨.offline, s₁.ghost.generation, s₁.ghost.generation_lt⟩
  have hstep : s₁.ghost.Step user t .settle γ := .settle hs₁.2.1 (.inr (.inr rfl)) rfl
  have hctl : makeControl (BitVec.ofNat 32 g) stateOffline = γ.control := by
    rw [← hs₁.2.2]
    rfl
  rw [hctl]
  obtain ⟨hguar, hP₁⟩ := hP.quiet hs₁.1 (.store hstep)
  refine ⟨γ, rfl, hguar, .failed hP₁ (by decide) (by decide) fun o' _ hold => ?_⟩
  rcases hold with hold | ⟨k, hold⟩ <;> cases hold

theorem acquire_grant (hl : Loud D user t P owners) (hmay : owners (some o)) {g : ℕ}
    (hlt : g + 1 < 2 ^ 28) (hs : Seized P t g s) :
    D.wp t (storeOwnership (makeControl (BitVec.ofNat 32 g + 1) o.code) >>= fun _ =>
      pure (.ok, some ⟨o.code, BitVec.ofNat 32 g + 1⟩)) (AcquirePost P t o.code claim) s := by
  refine wp_storeOwnership hA hP hr hs fun s₁ hs₁ => ?_
  let γ : Arbiter T K := ⟨.held (some o), g + 1, hlt⟩
  have hword : BitVec.ofNat 32 g + 1 = γ.word := by
    apply BitVec.eq_of_toNat_eq
    rw [Arbiter.toNat_word, BitVec.toNat_add, BitVec.toNat_ofNat]
    change (g % 2 ^ 32 + 1) % 2 ^ 32 = g + 1
    omega
  have hgen : γ.generation = s₁.ghost.generation + 1 := congrArg (· + 1) hs₁.2.2.symm
  have hstep : s₁.ghost.Step user t (.grant o) γ := .grant hs₁.2.1 rfl hgen
  rw [hword, show makeControl γ.word o.code = γ.control from rfl]
  exact ⟨γ, rfl, hl.grant hs₁.1 hmay hstep,
    .ok (s := moved s₁ t (.storeOwnership γ.control) () γ) rfl
      ⟨s₁, γ, hs₁.1, hs₁.2.1, rfl, hgen, rfl⟩⟩

theorem ownershipAcquire_spec (hl : Loud D user t P owners) (owner : Word)
    (hmay : ∀ o : Owner, owner = o.code → owners (some o)) (claim : Option Claim) (hs : P s) :
    D.wp t (ownershipAcquire owner claim) (AcquirePost P t owner claim) s := by
  unfold ownershipAcquire
  refine wp_ite (fun hbad => .invalid hs (by simpa using hbad)) fun hvalid => ?_
  simp only [Bool.or_eq_true, Bool.not_eq_eq_eq_not, Bool.not_true, not_or,
    Bool.not_eq_false] at hvalid
  obtain ⟨o, rfl⟩ := isOwner_iff.mp hvalid.2
  have hfailed {r : OwnershipResult} {s : DState T K J M C V} (hs : P s) (hok : r ≠ .ok)
      (halready : r ≠ .alreadyOwner) (hstate : ¬ controlState s.ghost.control = o.code) :
      AcquirePost P t o.code claim (r, some .zero) s :=
    .failed hs hok halready fun o' ho' hold =>
      hstate ((holds_iff_state.mp hold).trans ho'.symm)
  refine wp_loadOwnership hA hP hr hs fun s₁ hs₁ => ?_
  rw [Arbiter.controlGeneration_control]
  refine wp_ite (fun hown => .already rfl hs₁ (holds_iff_state.mpr hown))
    fun hother => ?_
  refine wp_guard (hfailed hs₁ (by decide) (by decide) hother) fun _ => ?_
  refine wp_guard (hfailed hs₁ (by decide) (by decide) hother) fun _ => ?_
  refine wp_guard (hfailed hs₁ (by decide) (by decide) hother) fun _ => ?_
  refine wp_guard (hfailed hs₁ (by decide) (by decide) hother) fun hfree => ?_
  rw [not_or, not_not] at hfree
  have hphase : s₁.ghost.phase = .held none := held_of_state hfree.1 hfree.2
  refine wp_seize hA hP hr hs₁ hphase hfree.1 (fun s₂ hs₂ => ?_) (fun s₂ hs₂ => ?_)
  · refine wp_ite (fun _ => acquire_exhausted hA hP hr hs₂) fun hmax => ?_
    refine wp_lineReset hA hP hr hs₂ fun reset s₃ hs₃ => ?_
    refine wp_ite (fun _ => ?_) fun _ => ?_
    · refine (releasePins_spec hA hP hr hs₃ rfl (.inl rfl)).bind fun r s₄ hs₄ => ?_
      exact .failed hs₄.1 (by decide) (by decide) fun _ _ => hs₄.not_holds _
    · refine acquire_grant hA hP hr hl (hmay o rfl) ?_ hs₃
      have hne : s₁.ghost.generation ≠ 2 ^ 28 - 1 := by
        intro he
        apply hmax
        apply BitVec.eq_of_toNat_eq
        rw [Arbiter.toNat_word, he, toNat_controlGenerationMax]
      have hb := s₁.ghost.generation_lt
      omega
  · dsimp only
    rw [Arbiter.controlGeneration_control]
    refine wp_ite (fun hown => .already rfl hs₂ (holds_iff_state.mpr hown))
      fun hother => ?_
    refine wp_guard (hfailed hs₂ (by decide) (by decide) hother) fun _ => ?_
    refine wp_guard (hfailed hs₂ (by decide) (by decide) hother) fun _ => ?_
    exact wp_guard (hfailed hs₂ (by decide) (by decide) hother)
      fun _ => hfailed hs₂ (by decide) (by decide) hother

end Acquire

/-- The ways a release ends. -/
inductive ReleasePost (P : DState T K J M C V → Prop) (t : T) (claim : Option Claim) :
    OwnershipResult → DState T K J M C V → Prop
  | invalid {s : DState T K J M C V} (hs : P s) (hclaim : validClaim claim = false) :
      ReleasePost P t claim .invalidArgument s
  | refused {s₀ : DState T K J M C V} {c : Claim} (hclaim : claim = some c) (hs₀ : P s₀)
      (hne : s₀.ghost.control ≠ makeControl c.generation c.owner)
      (hs : P (missed s₀ t (makeControl c.generation c.owner)
        (makeControl c.generation stateTransition))) :
      ReleasePost P t claim (claimFailureResult s₀.ghost.control c)
        (missed s₀ t (makeControl c.generation c.owner)
          (makeControl c.generation stateTransition))
  | released {s : DState T K J M C V} {c : Claim} {r : OwnershipResult} (hclaim : claim = some c)
      (hs : PinsReleased P c.generation.toNat (.held none) r s) : ReleasePost P t claim r s

theorem ReleasePost.holds {claim : Option Claim} {r : OwnershipResult}
    (h : ReleasePost P t claim r s) : P s := by
  cases h with
  | invalid hs _ => exact hs
  | refused _ _ _ hs => exact hs
  | released _ hs => exact hs.1

theorem validClaim_spec {c : Claim} (h : validClaim (some c) = true) :
    ∃ o : Owner, c.owner = o.code ∧ c.generation.toNat < 2 ^ 28 := by
  simp only [validClaim, Bool.and_eq_true, decide_eq_true_eq] at h
  obtain ⟨o, ho⟩ := isOwner_iff.mp h.1.1
  refine ⟨o, ho, ?_⟩
  have hle := BitVec.le_def.mp h.2
  rw [toNat_controlGenerationMax] at hle
  omega

theorem validClaim_of_lt {o : Owner} {g : ℕ} (hpos : 0 < g) (hlt : g < 2 ^ 28) :
    validClaim (some ⟨o.code, BitVec.ofNat 32 g⟩) = true := by
  have hg : (BitVec.ofNat 32 g).toNat = g := by
    rw [BitVec.toNat_ofNat]
    omega
  have hle : BitVec.ofNat 32 g ≤ controlGenerationMax := by
    rw [BitVec.le_def, hg, toNat_controlGenerationMax]
    omega
  have hmod : 0 < g % 2 ^ 32 := by omega
  simpa [validClaim, isOwner_code, hle] using hmod

theorem ownershipRelease_spec (hA : Arbitrated D user) (hP : Carries D user t P)
    (claim : Option Claim)
    (hr : Ready D t P fun e => ∃ c, claim = some c ∧ e = makeControl c.generation c.owner)
    (hs : P s) : D.wp t (ownershipRelease claim) (ReleasePost P t claim) s := by
  unfold ownershipRelease
  cases claim with
  | none => exact .invalid hs rfl
  | some c =>
    refine wp_ite (fun h => .invalid hs (by simpa using h)) fun h => ?_
    obtain ⟨o, ho, hg⟩ := validClaim_spec (by simpa using h : validClaim (some c) = true)
    refine wp_casOwnership_quiet hA hP hr hs ⟨c, rfl, rfl⟩ (fun s₁ _ he => ?_)
      (fun s₁ hs₁ hne hs' => .refused rfl hs₁ hne hs')
    rw [ho] at he
    obtain ⟨hphase, hgen⟩ := control_eq_held (o := some o) hg he
    have hword : c.generation = s₁.ghost.word := by
      apply BitVec.eq_of_toNat_eq
      rw [Arbiter.toNat_word, hgen]
    refine ⟨s₁.ghost.seized t, .seize, ?_, trivial, .seize hphase rfl rfl, fun s₂ hs₂ hγ => ?_⟩
    · rw [hword]
      rfl
    · have hseized : Seized P t s₁.ghost.generation s₂ := ⟨hs₂, by rw [hγ]; rfl, by rw [hγ]; rfl⟩
      refine (releasePins_spec hA hP hr hseized hword (.inl rfl)).mono fun r s₃ hs₃ => ?_
      rw [hgen] at hs₃
      exact .released rfl hs₃

theorem ownershipCurrent_spec (hA : Arbitrated D user) (hP : Carries D user t P)
    (hr : Ready D t P fun _ => False) (hs : P s) :
    D.wp t (ownershipCurrent (J := J))
      (fun r s => P s ∧ ∀ o : Owner, s.ghost.Holds o → r = o.code) s := by
  refine wp_loadOwnership hA hP hr hs fun s₁ hs₁ => ⟨hs₁, fun o ho => ?_⟩
  rw [holds_iff_state.mp ho, isOwner_code]
  rfl

/-- `s` is the state right after thread `t` reserved the word of `o` with the handle `k`. -/
def Reserved (P : DState T K J M C V → Prop) (t : T) (k : K) (o : Option Owner)
    (s : DState T K J M C V) : Prop :=
  ∃ s₀ γ, P s₀ ∧ s₀.ghost.phase = .held o ∧ γ.phase = .lent o k ∧
    γ.generation = s₀.ghost.generation ∧
    s = moved s₀ t (.casOwnership s₀.ghost.control γ.control) none γ

/-- The ways a begin ends: it reserves for one of the owners it may reserve for, or it
returns another result and the handle as it was. -/
inductive BeginPost (P : DState T K J M C V → Prop) (t : T) (k : K) (may : Option Owner → Prop)
    (operation : Option Operation) :
    OwnershipResult × Option Operation → DState T K J M C V → Prop
  | ok {s : DState T K J M C V} {o : Option Owner} (hs : Reserved P t k o s) (hmay : may o)
      (hop : ∃ op, operation = some op ∧ op.active = false) :
      BeginPost P t k may operation (.ok, some ⟨heldCode o, s.ghost.word, true⟩) s
  | kept {s : DState T K J M C V} {r : OwnershipResult} (hs : P s) (hok : r ≠ .ok)
      (halready : r ≠ .alreadyOwner) :
      BeginPost P t k may operation (r, operation) s

theorem claimFailureResult_ne (w : Word) (c : Claim) :
    claimFailureResult w c ≠ .ok ∧ claimFailureResult w c ≠ .alreadyOwner := by
  unfold claimFailureResult
  dsimp only
  split_ifs <;> decide

section Operation

variable (hA : Arbitrated D user) (hP : Carries D user t P) {k : K}

include hA hP

theorem wp_reserve (hr : Ready D t P takes)
    (hl : Loud D user t P owners)
    (hk : user k = t) (hs : P s) {seen : Arbiter T K} {o : Option Owner} (hmay : owners o)
    (hseen : seen.phase = .held o) (htake : takes seen.control) {α : Type}
    {f : Option Word → Code J α} {Q : α → DState T K J M C V → Prop}
    (hok : ∀ s₁, Reserved P t k o s₁ → s₁.ghost.word = seen.word → D.wp t (f none) Q s₁)
    (hno : ∀ s₁, P s₁ → D.wp t (f (some s₁.ghost.control)) Q s₁) :
    D.wp t (casOwnership seen.control (seen.control ||| controlActive) >>= f) Q s := by
  refine wp_casOwnership hA hP hr hs htake (fun s₁ hs₁ he => ?_) (fun s₁ _ _ hs₁ => hno _ hs₁)
  obtain ⟨hphase, hgen⟩ :=
    control_eq_held seen.word_lt (he.trans (control_held hseen))
  rw [Arbiter.toNat_word] at hgen
  let γ := s₁.ghost.reserved o k
  have hstep : s₁.ghost.Step user t (.reserve k) γ := .reserve hphase rfl rfl hk
  rw [← he, control_reserved hphase k]
  refine ⟨γ, rfl, hl.reserve hs₁ hphase hmay hstep, hok _ ⟨s₁, γ, hs₁, hphase, rfl, rfl, rfl⟩ ?_⟩
  exact congrArg (BitVec.ofNat 32) hgen

theorem ownershipOperationBegin_spec (claim : Option Claim) (operation : Option Operation)
    (hr : Ready D t P fun e => ∃ c, claim = some c ∧ e = makeControl c.generation c.owner)
    (hl : Loud D user t P owners)
    (hmay : ∀ c o, claim = some c → c.owner = heldCode o → owners o)
    (hk : operation.isSome → user k = t) (hs : P s) :
    D.wp t (ownershipOperationBegin claim operation)
      (BeginPost P t k (fun o => ∃ c, claim = some c ∧ c.owner = heldCode o) operation) s := by
  unfold ownershipOperationBegin
  cases claim with
  | none => exact .kept hs (by decide) (by decide)
  | some c =>
    cases operation with
    | none => exact .kept hs (by decide) (by decide)
    | some op =>
      refine wp_guard (.kept hs (by decide) (by decide)) fun hvalid => ?_
      refine wp_guard (.kept hs (by decide) (by decide)) fun hactive => ?_
      obtain ⟨o, ho, hg⟩ := validClaim_spec (by simpa using hvalid : validClaim (some c) = true)
      let seen : Arbiter T K := ⟨.held (some o), c.generation.toNat, hg⟩
      have hword : seen.word = c.generation := BitVec.eq_of_toNat_eq seen.toNat_word
      have hctl : seen.control = makeControl c.generation c.owner := by
        rw [control_held rfl, hword, ho]
        rfl
      dsimp only
      rw [← hctl]
      refine wp_reserve hA hP hr hl (hk rfl) hs (o := some o) (hmay c _ rfl ho) rfl ⟨c, rfl, hctl⟩
        (fun s₁ hs₁ hw => ?_)
        (fun s₁ hs₁ => .kept hs₁ (claimFailureResult_ne _ _).1 (claimFailureResult_ne _ _).2)
      rw [ho, ← hword, ← hw]
      exact .ok hs₁ ⟨c, rfl, ho⟩ ⟨op, rfl, by simpa using hactive⟩

theorem ownershipControlBegin_spec (owner : Word) (operation : Option Operation)
    (hr : Ready D t P fun e => controlState e = ownerNone ∨ controlState e = owner)
    (hl : Loud D user t P owners) (hmay : ∀ o, o = none ∨ heldCode o = owner → owners o)
    (hk : operation.isSome → user k = t) (hs : P s) :
    D.wp t (ownershipControlBegin owner operation)
      (BeginPost P t k (fun o => o = none ∨ heldCode o = owner) operation) s := by
  unfold ownershipControlBegin
  cases operation with
  | none => exact .kept hs (by decide) (by decide)
  | some op =>
    refine wp_guard (.kept hs (by decide) (by decide)) fun howner => ?_
    refine wp_guard (.kept hs (by decide) (by decide)) fun hactive => ?_
    obtain ⟨owner, rfl⟩ := isOwner_iff.mp (by simpa using howner : isOwner owner = true)
    refine wp_loadOwnership hA hP hr hs fun s₁ hs₁ => ?_
    refine wp_guard (.kept hs₁ (by decide) (by decide)) fun _ => ?_
    refine wp_guard (.kept hs₁ (by decide) (by decide)) fun _ => ?_
    refine wp_guard (.kept hs₁ (by decide) (by decide)) fun hfree => ?_
    rw [not_or, not_and_or, not_not, not_not] at hfree
    have hstate : ∃ o, controlState s₁.ghost.control = heldCode o ∧
        (o = none ∨ heldCode o = owner.code) := by
      rcases hfree.1 with h | h
      · exact ⟨none, h, .inl rfl⟩
      · exact ⟨some owner, h, .inr rfl⟩
    obtain ⟨o, ho, how⟩ := hstate
    refine wp_reserve hA hP hr hl (hk rfl) hs₁ (hmay o how) (held_of_state ho hfree.2) hfree.1
      (fun s₂ hs₂ hw => ?_) (fun s₂ hs₂ => .kept hs₂ (by decide) (by decide))
    rw [Arbiter.controlGeneration_control, ho, ← hw]
    exact .ok hs₂ how ⟨op, rfl, by simpa using hactive⟩

end Operation

/-- The word is reserved for `o` at generation `g` by the handle `k`. -/
def Lent (P : DState T K J M C V → Prop) (k : K) (o : Option Owner) (g : ℕ)
    (s : DState T K J M C V) : Prop :=
  P s ∧ s.ghost.phase = .lent o k ∧ s.ghost.generation = g

/-- `s` is the state right after thread `t` ended the operation of the handle `k`. -/
def Yielded (P : DState T K J M C V → Prop) (t : T) (k : K) (o : Option Owner) (g : ℕ)
    (s : DState T K J M C V) : Prop :=
  ∃ s₀ γ, Lent P k o g s₀ ∧ γ.phase = .held o ∧ γ.generation = g ∧
    s = moved s₀ t (.casOwnership s₀.ghost.control γ.control) none γ

theorem Quiet.lent {s' : DState T K J M C V} (h : Quiet user t s s') {o : Option Owner} {k : K}
    (hs : s.ghost.phase = .lent o k) : s'.ghost = s.ghost := by
  obtain ⟨a, r, γ, m, rfl, hm, hstep⟩ := h.exists_moved
  exact hstep.quiet_lent hm hs

theorem Quiet.lent_iff {s' : DState T K J M C V} (h : Quiet user t s s') {o : Option Owner}
    {k : K} : s'.ghost.phase = .lent o k ↔ s.ghost.phase = .lent o k := by
  obtain ⟨a, r, γ, m, rfl, hm, hstep⟩ := h.exists_moved
  exact hstep.quiet_lent_iff hm

theorem Carries.lent (hA : Arbitrated D user) (hP : Carries D user t P) {k : K}
    (hk : user k = t) (o : Option Owner) (g : ℕ) : Carries D user t (Lent P k o g) where
  tracks hs := hP.tracks hs.1
  stable := by
    rintro u s s' hu ⟨hs, hphase, hg⟩ hguar
    obtain ⟨m, hstep⟩ := hA.guar hguar
    have he := hstep.lent (hk ▸ hu) hphase
    exact ⟨hP.stable hu hs hguar, he ▸ hphase, he ▸ hg⟩
  quiet := by
    rintro s s' ⟨hs, hphase, hg⟩ hq
    obtain ⟨hguar, hs'⟩ := hP.quiet hs hq
    have he := hq.lent hphase
    exact ⟨hguar, hs', he ▸ hphase, he ▸ hg⟩
  halted hs := hP.halted hs.1

theorem ownershipOperationEnd_inactive {operation : Option Operation}
    (hop : ∀ op, operation = some op → op.active = false) (hs : P s) :
    D.wp t (ownershipOperationEnd operation) (fun v s => P s ∧ v = operation) s := by
  unfold ownershipOperationEnd
  cases operation with
  | none => exact ⟨hs, rfl⟩
  | some op =>
    exact wp_guard ⟨hs, rfl⟩ fun h => absurd (by rw [hop op rfl]; rfl) h

theorem ownershipOperationEnd_spec (hA : Arbitrated D user) (hP : Carries D user t P) {k : K}
    (hr : Ready D t P fun e => isActive e)
    (hl : Loud D user t P owners)
    (hk : user k = t) {o : Option Owner} {g : ℕ} (hs : Lent P k o g s) :
    D.wp t (ownershipOperationEnd (some ⟨heldCode o, BitVec.ofNat 32 g, true⟩))
      (fun v s => Yielded P t k o g s ∧ v = some .zero) s := by
  have hgl : (BitVec.ofNat 32 g).toNat < 2 ^ 28 := by
    rw [← hs.2.2]
    exact s.ghost.word_lt
  have hctl {s₁ : DState T K J M C V} (hs₁ : Lent P k o g s₁) :
      s₁.ghost.control = makeControl (BitVec.ofNat 32 g) (heldCode o) ||| controlActive := by
    rw [Arbiter.control, hs₁.2.1, Arbiter.word, hs₁.2.2]
  unfold ownershipOperationEnd
  refine wp_casOwnership hA (hP.lent hA hk o g) (fun s₁ a hs₁ ha => hr hs₁.1 ha) hs
    (isActive_makeControl_active hgl (heldCode_lt o)) (fun s₁ hs₁ he => ?_)
    (fun s₁ hs₁ hne _ => absurd (hctl hs₁) hne)
  let γ : Arbiter T K := ⟨.held o, s₁.ghost.generation, s₁.ghost.generation_lt⟩
  have hstep : s₁.ghost.Step user t (.yield k) γ := .yield hs₁.2.1 rfl rfl hk
  have hdesired : (makeControl (BitVec.ofNat 32 g) (heldCode o) ||| controlActive) &&&
      ~~~controlActive = γ.control := by
    rw [makeControl_active_and_not hgl (heldCode_lt o), control_held rfl, Arbiter.word,
      hs₁.2.2]
  rw [hdesired, ← he]
  exact ⟨γ, rfl, hl.yield hs₁.1 hstep, ⟨s₁, γ, hs₁, rfl, hs₁.2.2, rfl⟩, rfl⟩

section Taking

variable (hA : Arbitrated D user) (hP : Carries D user t P)
include hA hP

theorem ownershipRevoke_spec
    (hr : Ready D t P fun e => isOwner (controlState e) = true ∧ ¬ isActive e) (hs : P s) :
    D.wp t (ownershipRevoke (J := J)) (fun _ s => P s) s := by
  refine wp_loadOwnership hA hP hr hs fun s₁ hs₁ => ?_
  refine wp_guard hs₁ fun _ => ?_
  refine wp_guard hs₁ fun _ => ?_
  refine wp_guard hs₁ fun _ => ?_
  refine wp_guard hs₁ fun hheld => ?_
  simp only [Bool.or_eq_true, Bool.not_eq_eq_eq_not, Bool.not_true, not_or, Bool.not_eq_false,
    decide_eq_true_eq] at hheld
  obtain ⟨o, ho⟩ := isOwner_iff.mp hheld.1
  have hphase : s₁.ghost.phase = .held (some o) := held_of_state ho hheld.2
  rw [Arbiter.controlGeneration_control]
  refine wp_seize hA hP hr hs₁ hphase hheld (fun s₂ hs₂ => ?_) (fun s₂ hs₂ => ?_)
  · exact (releasePins_spec hA hP hr hs₂ rfl (.inl rfl)).mono fun r s₃ hs₃ => hs₃.1
  · refine wp_guard hs₂ fun _ => ?_
    refine wp_guard hs₂ fun _ => ?_
    exact wp_guard hs₂ fun _ => hs₂

theorem ownershipRevokeOwner_spec (owner : Word)
    (hr : Ready D t P fun e => controlState e = owner ∧ ¬ isActive e) (hs : P s) :
    D.wp t (ownershipRevokeOwner owner) (fun _ s => P s) s := by
  unfold ownershipRevokeOwner
  refine wp_guard hs fun howner => ?_
  obtain ⟨o, rfl⟩ := isOwner_iff.mp (by simpa using howner : isOwner owner = true)
  refine wp_loadOwnership hA hP hr hs fun s₁ hs₁ => ?_
  refine wp_guard hs₁ fun _ => ?_
  refine wp_guard hs₁ fun _ => ?_
  refine wp_guard hs₁ fun _ => ?_
  refine wp_guard hs₁ fun hstate => ?_
  rw [not_not] at hstate
  refine wp_guard hs₁ fun hactive => ?_
  have hphase : s₁.ghost.phase = .held (some o) := held_of_state hstate hactive
  rw [Arbiter.controlGeneration_control]
  refine wp_seize hA hP hr hs₁ hphase ⟨hstate, hactive⟩ (fun s₂ hs₂ => ?_) (fun s₂ hs₂ => ?_)
  · exact (releasePins_spec hA hP hr hs₂ rfl (.inl rfl)).mono fun r s₃ hs₃ => hs₃.1
  · refine wp_guard hs₂ fun _ => ?_
    refine wp_guard hs₂ fun _ => ?_
    exact wp_guard hs₂ fun _ => hs₂

theorem suspendLoop_spec (hr : Ready D t P fun e => ¬ isActive e) (rounds : ℕ)
    (seen : Arbiter T K) (hs : P s) :
    D.wp t (suspendLoop (J := J) rounds seen.control) (fun _ s => P s) s := by
  induction rounds generalizing seen s with
  | zero => exact fun s₁ hrely => hP.halted (hP.stable.rely hs hrely)
  | succ rounds ih =>
    unfold suspendLoop
    refine wp_guard hs fun _ => ?_
    refine wp_guard hs fun _ => ?_
    refine wp_guard hs fun _ => ?_
    refine wp_guard hs fun hbusy => ?_
    rw [not_or] at hbusy
    rw [Arbiter.controlGeneration_control]
    refine wp_ite (fun hfree => ?_) fun _ => ?_
    · have hphase : seen.phase = .held none := held_of_state hfree hbusy.2
      refine wp_casOwnershipWeak hA hP hr hs hbusy.2 (fun s₁ _ he => ?_) (fun s₁ hs₁ => ih _ hs₁)
      obtain ⟨hphase₁, hgen⟩ :=
        control_eq_held seen.word_lt (he.trans (control_held hphase))
      rw [Arbiter.toNat_word] at hgen
      exact ⟨⟨.suspended, seen.generation, seen.generation_lt⟩, .suspend, rfl, trivial,
        .suspend hphase₁ rfl hgen.symm, fun s₂ hs₂ _ => hs₂⟩
    · refine wp_guard hs fun howner => ?_
      obtain ⟨o, ho⟩ :=
        isOwner_iff.mp (by simpa using howner : isOwner (controlState seen.control) = true)
      have hphase : seen.phase = .held (some o) := held_of_state ho hbusy.2
      refine wp_casOwnershipWeak hA hP hr hs hbusy.2 (fun s₁ _ he => ?_) (fun s₁ hs₁ => ih _ hs₁)
      obtain ⟨hphase₁, hgen⟩ :=
        control_eq_held seen.word_lt (he.trans (control_held hphase))
      rw [Arbiter.toNat_word] at hgen
      refine ⟨seen.seized t, .seize, rfl, trivial, .seize hphase₁ rfl hgen.symm,
        fun s₂ hs₂ hγ => ?_⟩
      have hseized : Seized P t seen.generation s₂ := ⟨hs₂, by rw [hγ]; rfl, by rw [hγ]; rfl⟩
      exact (releasePins_spec hA hP hr hseized rfl (.inr rfl)).mono fun r s₃ hs₃ => hs₃.1

theorem ownershipSuspend_spec (hr : Ready D t P fun e => ¬ isActive e) (rounds : ℕ) (hs : P s) :
    D.wp t (ownershipSuspend (J := J) rounds) (fun _ s => P s) s :=
  wp_loadOwnership hA hP hr hs fun s₁ hs₁ => suspendLoop_spec hA hP hr rounds s₁.ghost hs₁

theorem resumeLoop_spec (hr : Ready D t P fun e => controlState e = stateSuspended) (rounds : ℕ)
    (seen : Arbiter T K) (hs : P s) :
    D.wp t (resumeLoop (J := J) rounds seen.control) (fun _ s => P s) s := by
  induction rounds generalizing seen s with
  | zero => exact fun s₁ hrely => hP.halted (hP.stable.rely hs hrely)
  | succ rounds ih =>
    unfold resumeLoop
    refine wp_guard hs fun _ => ?_
    refine wp_guard hs fun _ => ?_
    refine wp_guard hs fun _ => ?_
    refine wp_guard hs fun hsus => ?_
    rw [not_not] at hsus
    rw [Arbiter.controlGeneration_control]
    refine wp_casOwnershipWeak hA hP hr hs hsus (fun s₁ _ he => ?_) (fun s₁ hs₁ => ih _ hs₁)
    obtain ⟨hstate, hgen, -⟩ := control_eq_control he
    have hphase : s₁.ghost.phase = .suspended := by
      rw [Arbiter.controlState_control] at hsus
      exact Phase.eq_suspended (hstate.trans hsus)
    exact ⟨⟨.held none, seen.generation, seen.generation_lt⟩, .resume, rfl, trivial,
      .resume hphase rfl hgen.symm, fun s₂ hs₂ _ => hs₂⟩

theorem ownershipResume_spec (hr : Ready D t P fun e => controlState e = stateSuspended)
    (rounds : ℕ) (hs : P s) :
    D.wp t (ownershipResume (J := J) rounds) (fun _ s => P s) s :=
  wp_loadOwnership hA hP hr hs fun s₁ hs₁ => resumeLoop_spec hA hP hr rounds s₁.ghost hs₁

end Taking
end AirDap

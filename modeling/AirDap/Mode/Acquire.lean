import AirDap.Mode.Specs

/-! What an acquire of the mode state does, under interference. The generations that it
creates are in its claim, and a claim that is not returned is released again. -/
namespace AirDap
open Concurrency Discipline

variable {T H : Type} [DecidableEq T] {user : H → T} {t : T} {c : ModeCall H}
  {w₀ : Device (H → Operation)} {τ : Trace} {R : ModeState T H → Prop} {s : ModeState T H}
  {claim : Option Claim} {created : List ℕ}

/-- Every generation that was created is the one of the claim, and its owner holds it or is
gone. -/
def Backed (created : List ℕ) (claim : Option Claim) (s : ModeState T H) : Prop :=
  ∀ g ∈ created, ∃ o : Owner, claim = some ⟨o.code, BitVec.ofNat 32 g⟩ ∧ 0 < g ∧ g < 2 ^ 28 ∧
    s.ghost.Given o g

theorem persists_backed : Persists user (Backed created claim) := by
  intro u s s' hg hs g hmem
  obtain ⟨m, hstep⟩ := hg.1.step
  obtain ⟨o, hclaim, hpos, hlt, hgiven⟩ := hs g hmem
  exact ⟨o, hclaim, hpos, hlt, hstep.given hgiven⟩

theorem ReleasePost.rolled {r : OwnershipResult}
    (hpost : ReleasePost (On user t c w₀ τ (Backed τ.created claim)) t claim r s) :
    Rolled t τ.created s := by
  cases hpost with
  | invalid hs hclaim =>
    right
    intro g hg
    obtain ⟨o, rfl, hpos, hlt, -⟩ := hs.2 g hg
    rw [validClaim_of_lt hpos hlt] at hclaim
    cases hclaim
  | @released _ cl r hclaim hs =>
    right
    intro g hg
    obtain ⟨hon, hgen, hphase⟩ := hs
    obtain ⟨o, hcl, -, hlt, -⟩ := hon.2 g hg
    cases hclaim.symm.trans hcl
    have hg' : g = s.ghost.generation := by
      rw [hgen, BitVec.toNat_ofNat]
      omega
    refine .inr ⟨hg', fun o' ho' => ?_⟩
    rcases hphase with ⟨-, hphase⟩ | ⟨-, hphase⟩ <;>
      rcases ho' with ho' | ⟨k, ho'⟩ <;> cases hphase.symm.trans ho'
  | @refused s₀ cl hclaim hs₀ hne hs =>
    by_cases hdead : ∀ g ∈ τ.created, s₀.ghost.Dead g
    · exact .inr hdead
    · left
      simp only [not_forall] at hdead
      obtain ⟨g, hg, hlive⟩ := hdead
      obtain ⟨o, hcl, -, hlt, hgiven⟩ := hs₀.2 g hg
      cases hclaim.symm.trans hcl
      obtain ⟨hgen, hold⟩ := hgiven.resolve_right hlive
      have hword : s₀.ghost.word = BitVec.ofNat 32 g := congrArg (BitVec.ofNat 32) hgen
      have hlt' : (BitVec.ofNat 32 g).toNat < 2 ^ 28 := hword ▸ s₀.ghost.word_lt
      rcases hold with hheld | ⟨k, hlent⟩
      · exact absurd (by rw [Arbiter.control_held hheld, hword]; rfl) hne
      · refine .inl ⟨rfl, ?_, ?_, ?_⟩
        · have hgen : controlGeneration (makeControl (BitVec.ofNat 32 g) o.code) =
              BitVec.ofNat 32 g := controlGeneration_makeControl hlt' (heldCode_lt (some o))
          rw [hs₀.1.trace, hgen, BitVec.toNat_ofNat]
          rwa [Nat.mod_eq_of_lt (by omega)]
        · exact controlState_makeControl hlt' (by decide : stateTransition.toNat < 8)
        · rw [Arbiter.control, hlent, hword]
          rfl

/-- The claim is not one of the network. -/
def NotNetwork (claim : Option Claim) : Prop :=
  ∀ cl, claim = some cl → controlState (makeControl cl.generation cl.owner) ≠ ownerNetwork

/-- What an acquire leaves: a backed claim, or nothing. -/
def Acquired (t : T) (created : List ℕ) (v : ModeDapResult × Option Claim) (s : ModeState T H) :
    Prop :=
  (v.1 = .allowed → Backed created v.2 s) ∧ (v.1 ≠ .allowed → Rolled t created s)

theorem rides_acquired {v : ModeDapResult × Option Claim} :
    Rides user t c w₀ τ (Acquired t created v) :=
  (Rides.imp fun _ => persists_backed.rides).and (Rides.imp fun _ => rides_rolled)

variable (owner before : Word) (authenticated : Bool)

theorem confirmAcquire_spec (hs : On user t c w₀ τ (Backed τ.created claim) s)
    (hτ : τ.reserved = false) (hpre : c.Preempts → NotNetwork claim) :
    ModeWp user t (confirmAcquire owner authenticated before claim)
      (fun v => Ended user t c w₀ τ.created (Acquired t τ.created v)) s := by
  refine wp_loadMode persists_backed.rides hs fun s₁ hs₁ _ => ?_
  have hready {τ' : Trace} : Ready (modeDiscipline user) t
      (On user t c w₀ τ' (Backed τ.created claim))
      fun e => ∃ cl, claim = some cl ∧ e = makeControl cl.generation cl.owner := by
    apply on_ready
    rintro s e - ⟨cl, hcl, rfl⟩ hstate hp
    exact absurd hstate (hpre hp cl hcl)
  refine wp_ite (fun _ => ?_) fun _ => ?_
  · refine (ownershipRelease_spec modeArbitrated (on_carries persists_backed.rides) claim hready
      hs₁).bind fun r s₂ hpost => ?_
    have hrolled : Rolled t τ.created s₂ := hpost.rolled
    have hs₂ := hpost.holds
    refine wp_ite (fun _ => ?_) fun _ => ?_
    · exact hs₂.1.ended hτ rfl ⟨fun _ => hs₂.2, fun _ => hrolled⟩
    · refine (dapAdmission_spec (persists_backed.rides.and rides_rolled) ⟨hs₂.1, hs₂.2, hrolled⟩
        _ owner authenticated false).bind fun latest s₃ hs₃ => ?_
      exact hs₃.1.1.ended hτ rfl ⟨fun _ => hs₃.1.2.1, fun _ => hs₃.1.2.2⟩
  · exact hs₁.1.ended hτ rfl ⟨fun _ => hs₁.2, fun h => absurd rfl h⟩

theorem preemptNetwork_spec (result : ModeDapResult)
    (hs : On user t c w₀ τ (fun s => c.Preempts → routeOf before ≠ routeNetwork → Uncrossed t s) s)
    (hτ : c.Preempts → τ.preempting = true) :
    ModeWp user t (preemptNetwork owner authenticated before result)
      (fun _ s => ∃ n, On user t c w₀ { τ with modeReads := n } (fun _ => True) s) s := by
  have hR : Rides user t c w₀ τ
      fun s => c.Preempts → routeOf before ≠ routeNetwork → Uncrossed t s :=
    Rides.imp fun hp => Rides.imp fun _ => rides_uncrossed (hτ hp)
  have hdone {s : ModeState T H}
      (hs : On user t c w₀ τ
        (fun s => c.Preempts → routeOf before ≠ routeNetwork → Uncrossed t s) s) :
      ∃ n, On user t c w₀ { τ with modeReads := n } (fun _ => True) s :=
    ⟨τ.modeReads, hs.1, trivial⟩
  unfold preemptNetwork
  refine wp_ite (fun hbusy => ?_) fun _ => hdone hs
  refine (ownershipCurrent_spec modeArbitrated (on_carries hR) (on_ready ?_) hs).bind
    fun current s₁ hs₁ => ?_
  · intro s e _ h
    exact h.elim
  refine wp_ite (fun _ => ?_) fun _ => hdone hs₁.1
  refine (ownershipRevokeOwner_spec modeArbitrated (on_carries hR) ownerNetwork (on_ready ?_)
    hs₁.1).bind fun revoked s₂ hs₂ => ?_
  · intro s e hs _ _ hp
    exact (hs hp hbusy.2.2).2
  refine wp_ite (fun _ => ?_) fun _ => hdone hs₂
  refine wp_loadMode rides_true (hs₂.mono fun _ => trivial) fun s₃ hs₃ _ => ?_
  refine (dapAdmission_spec rides_true hs₃ _ owner authenticated false).bind fun r s₄ hs₄ => ?_
  exact ⟨τ.modeReads + 1, hs₄.1⟩

theorem Granted.backed {o : Owner} (hs : Granted (On user t c w₀ τ R) t o s)
    (hτ : τ.created = []) :
    On user t c w₀ { τ with created := [s.ghost.generation] }
      (Backed [s.ghost.generation] (some ⟨o.code, s.ghost.word⟩)) s := by
  obtain ⟨hat, hphase⟩ := hs.at
  rw [hτ] at hat
  refine ⟨hat, fun g hg => ⟨o, ?_, ?_, ?_, ?_⟩⟩ <;> rw [List.mem_singleton.mp hg]
  · rfl
  · obtain ⟨s₀, γ, -, -, -, hgen, rfl⟩ := hs
    exact hgen ▸ Nat.succ_pos _
  · exact s.ghost.generation_lt
  · exact .inl ⟨rfl, .inl hphase⟩

theorem dapAcquire_spec (claim : Option Claim)
    (hpre : c.Preempts → owner = ownerUsb ∧ τ.preempting = true)
    (hc : c.Preempts → ∀ control, routeOf control ≠ routeNetwork → c.decides .loadMode control)
    (hτ : τ.reserved = false)
    (hcreated : τ.created = []) (hs : On user t c w₀ τ (fun _ => True) s) :
    ModeWp user t (dapAcquire owner authenticated claim)
      (fun v s => ∃ created, Ended user t c w₀ created (Acquired t created v) s) s := by
  have hnothing {τ' : Trace} {s : ModeState T H} {v : ModeDapResult × Option Claim}
      (hs : At user t c w₀ τ' s) (hτ' : τ'.reserved = false) (hc : τ'.created = [])
      (hv : v.1 ≠ .allowed) :
      ∃ created, Ended user t c w₀ created (Acquired t created v) s :=
    ⟨[], hs.ended hτ' hc ⟨fun h => absurd h hv, fun _ => .inr fun _ hg => by cases hg⟩⟩
  have hnot {g : Word} (hp : c.Preempts) (hg : g.toNat < 2 ^ 28) :
      NotNetwork (some ⟨owner, g⟩) := by
    rintro cl ⟨⟩
    rw [(hpre hp).1]
    change controlState (makeControl g (heldCode (some .usb))) ≠ _
    rw [controlState_makeControl hg (heldCode_lt _)]
    decide
  unfold dapAcquire
  refine wp_guard (hnothing hs.1 hτ hcreated (by simp)) fun _ => ?_
  refine wp_loadMode rides_true hs fun s₁ hs₁ hread => ?_
  have hclear : Rides user t c w₀ { τ with modeReads := τ.modeReads + 1 }
      fun s => c.Preempts → routeOf s₁.world.modeControl ≠ routeNetwork → Uncrossed t s :=
    Rides.imp fun hp => Rides.imp fun _ => rides_uncrossed (hpre hp).2
  have hdecided (hp : c.Preempts) (hroute : routeOf s₁.world.modeControl ≠ routeNetwork) :
      decided t s₁.history = true := by
    have hcall := hs₁.1.call
    obtain ⟨w, h, hh, -⟩ := hread
    rw [hh] at hcall ⊢
    exact decided_of_acted hcall (hc hp _ hroute)
  refine (dapAdmission_spec hclear ⟨hs₁.1, fun hp h => ⟨hdecided hp h, .inr h⟩⟩ _ owner
    authenticated false).bind fun result s₂ hs₂ => ?_
  refine (preemptNetwork_spec owner s₁.world.modeControl authenticated result hs₂.1
    fun hp => (hpre hp).2).bind fun v s₃ hs₃ => ?_
  obtain ⟨n, hs₃⟩ := hs₃
  obtain ⟨before, result⟩ := v
  refine wp_ite (fun hno => hnothing hs₃.1 hτ hcreated hno) fun _ => ?_
  refine (ownershipAcquire_spec modeArbitrated (on_carries rides_true) (on_ready ?_) on_loud owner
    (fun _ _ => trivial) (some .zero) hs₃).bind fun v s₄ hpost => ?_
  · intro s e _ hnone hstate _
    exact absurd (hnone.symm.trans hstate) (by decide)
  cases hpost with
  | ok howner hgranted =>
    have hs₄ := hgranted.backed hcreated
    rw [← howner] at hs₄
    refine wp_ite (fun hno => ?_) fun _ => ?_
    · refine absurd ?_ hno
      rw [acquireResult, if_neg fun h => by cases h.2]
      rfl
    · exact (confirmAcquire_spec owner before authenticated hs₄ hτ
        fun hp => hnot hp s₄.ghost.word_lt).mono fun v s₅ hs₅ => ⟨_, hs₅⟩
  | already howner hs₄ hold =>
    refine wp_ite (fun hno => hnothing hs₄.1 hτ hcreated hno) fun _ => ?_
    have hbacked : Backed τ.created (some ⟨owner, s₄.ghost.word⟩) s₄ := by
      rw [hcreated]
      intro g hg
      cases hg
    exact (confirmAcquire_spec owner before authenticated (hs₄.mono fun _ => hbacked) hτ
      fun hp => hnot hp s₄.ghost.word_lt).mono fun v s₅ hs₅ => ⟨_, hs₅⟩
  | failed hs₄ hok halready _ =>
    refine wp_ite (fun hno => hnothing hs₄.1 hτ hcreated hno) fun hyes => ?_
    refine absurd ?_ hyes
    rw [acquireResult, if_neg fun h => halready h.2]
    exact ownershipResult_ne hok halready
  | invalid hs₄ _ =>
    refine wp_ite (fun hno => hnothing hs₄.1 hτ hcreated hno) fun hyes => ?_
    refine absurd ?_ hyes
    rw [acquireResult, if_neg fun h => by cases h.2]
    decide

theorem modeDapAcquire_spec (claim : Option Claim) (hpre : c.Preempts → owner = ownerUsb)
    (hc : c.Preempts → ∀ control, routeOf control ≠ routeNetwork → c.decides .loadMode control)
    (hτ : τ.reserved = false) (hcreated : τ.created = [])
    (hs : On user t c w₀ τ (fun _ => True) s) :
    ModeWp user t (modeDapAcquire owner authenticated claim)
      (fun v s => ∃ created, Ended user t c w₀ created (Acquired t created v) s) s := by
  unfold modeDapAcquire
  refine wp_ite (fun husb => ?_) fun hother => ?_
  · refine wp_addPreemption rides_true hs fun s₁ hs₁ => ?_
    refine (dapAcquire_spec (τ := { τ with preempting := true }) owner authenticated claim
      (fun _ => ⟨husb, rfl⟩) hc hτ hcreated hs₁).bind fun v s₂ hs₂ => ?_
    obtain ⟨created, τ', hτ', hcreated', hs₂⟩ := hs₂
    exact wp_subPreemption rides_acquired hs₂ fun s₃ hs₃ =>
      ⟨created, hs₃.1.ended hτ' hcreated' hs₃.2⟩
  · exact dapAcquire_spec owner authenticated claim (fun hp => absurd (hpre hp) hother) hc
      hτ hcreated hs

end AirDap

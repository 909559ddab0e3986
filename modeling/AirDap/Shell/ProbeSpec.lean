import AirDap.Mode.Acquire
import AirDap.Mode.Begin

/-! What the diagnostic probe does, under interference: on every path it ends its operation
and tries to release the claim that it acquired. -/
namespace AirDap
open Concurrency Discipline

variable {T H : Type} [DecidableEq T] {user : H → T} {t : T} {c : ModeCall H}
  {w₀ : Device (H → Operation)} {τ : Trace} {R : ModeState T H → Prop} {s : ModeState T H}
  {claim : Option Claim}

section Exchange

variable (hR : Rides user t c w₀ τ R) (backend : ProbeBackend)
include hR

theorem probeCancelled_spec (hs : On user t c w₀ τ R s) :
    ModeWp user t (probeCancelled backend) (fun _ => On user t c w₀ τ R) s := by
  unfold probeCancelled
  refine wp_ite (fun _ => ?_) fun _ => hs
  exact wp_io hR hs .cancelled fun r s₁ hs₁ => hs₁

theorem probeExchange_spec (result : ProbeResult) (hs : On user t c w₀ τ R s) :
    ModeWp user t (probeExchange backend result) (fun _ => On user t c w₀ τ R) s := by
  unfold probeExchange
  refine (probeCancelled_spec hR backend hs).bind fun _ s₁ hs₁ => ?_
  refine wp_guard hs₁ fun _ => ?_
  refine wp_io hR hs₁ _ fun _ s₂ hs₂ => ?_
  refine wp_guard hs₂ fun _ => ?_
  refine (probeCancelled_spec hR backend hs₂).bind fun _ s₃ hs₃ => ?_
  refine wp_guard hs₃ fun _ => ?_
  refine wp_io hR hs₃ _ fun _ s₄ hs₄ => ?_
  refine wp_guard hs₄ fun _ => ?_
  refine (probeCancelled_spec hR backend hs₄).bind fun _ s₅ hs₅ => ?_
  refine wp_guard hs₅ fun _ => ?_
  refine wp_io hR hs₅ _ fun _ s₆ hs₆ => ?_
  refine wp_guard hs₆ fun _ => ?_
  refine (probeCancelled_spec hR backend hs₆).bind fun _ s₇ hs₇ => ?_
  exact wp_guard hs₇ fun _ => hs₇

end Exchange

section Release

variable (hpre : ¬ c.Preempts)
include hpre

theorem releaseClaim_spec (hs : On user t c w₀ τ (Backed τ.created claim) s)
    (hτ : τ.reserved = false) :
    ModeWp user t (ownershipRelease claim)
      (fun _ => Ended user t c w₀ τ.created (Rolled t τ.created)) s := by
  have hready : Ready (modeDiscipline user) t (On user t c w₀ τ (Backed τ.created claim))
      fun e => ∃ cl, claim = some cl ∧ e = makeControl cl.generation cl.owner :=
    on_ready fun _ _ _ _ _ hp => absurd hp hpre
  exact (ownershipRelease_spec modeArbitrated (on_carries persists_backed.rides) claim hready
    hs).mono fun r s₁ hpost => hpost.holds.1.ended hτ rfl hpost.rolled

variable (hc : c.handle = none)
include hc

theorem releaseDiagnosticOwner_spec (status : ProbeStatus) (result : ProbeResult)
    {o : Option Owner} {g : ℕ}
    (hs : On user t c w₀ τ (fun s => Backed τ.created claim s ∧ LentTo (.inr t) o g s) s)
    (hτ : τ.reserved = true) :
    ModeWp user t (releaseDiagnosticOwner status claim
        (some ⟨heldCode o, BitVec.ofNat 32 g, true⟩) result)
      (fun _ => Ended user t c w₀ τ.created (Rolled t τ.created)) s := by
  have hidle : HandleIdle user t c w₀ := .of_none hc
  refine (operationEnd_on persists_backed (.local hpre) hidle hτ hs).bind fun v s₁ hs₁ => ?_
  exact (releaseClaim_spec hpre hs₁.1 rfl).bind fun r s₂ hs₂ => hs₂

theorem probeTarget_spec (backend : ProbeBackend) (result : ProbeResult)
    (hs : On user t c w₀ τ (fun _ => True) s) (hτ : τ.reserved = false)
    (hcreated : τ.created = []) :
    ModeWp user t (probeTarget backend result)
      (fun _ s => ∃ created, Ended user t c w₀ created (Rolled t created) s) s := by
  have hk : Reserving user t c (.inr t) := .local hpre
  have hidle : HandleIdle user t c w₀ := .of_none hc
  refine (modeDapAcquire_spec ownerDiagnostic true (some .zero) (fun hp => absurd hp hpre)
    (fun hp => absurd hp hpre) hτ
    hcreated hs).bind fun v s₁ hs₁ => ?_
  obtain ⟨created, τ₁, hτ₁, rfl, hs₁⟩ := hs₁
  obtain ⟨acquired, claim⟩ := v
  have hrolled (h : acquired ≠ .allowed) :
      ∃ created, Ended user t c w₀ created (Rolled t created) s₁ :=
    ⟨τ₁.created, hs₁.1.ended hτ₁ rfl (hs₁.2.2 h)⟩
  refine wp_ite (fun hbusy => hrolled ?_) fun _ => ?_
  · change acquired = .busy at hbusy
    rw [hbusy]
    decide
  refine wp_ite (fun hno => hrolled hno) fun hyes => ?_
  rw [ne_eq, not_not] at hyes
  have hbacked : On user t c w₀ τ₁ (Backed τ₁.created claim) s₁ := ⟨hs₁.1, hs₁.2.1 hyes⟩
  refine (dapOperationBegin_spec persists_backed hk true hbacked hτ₁
    (fun _ _ _ => hidle) ownerDiagnostic claim).bind fun v s₂ hpost => ?_
  have hrelease {s : ModeState T H} {f : OwnershipResult → ProbeStatus × ProbeResult}
      (hs : Ended user t c w₀ τ₁.created (Backed τ₁.created claim) s) :
      ModeWp user t (ownershipRelease claim >>= fun released => pure (f released))
        (fun _ s => ∃ created, Ended user t c w₀ created (Rolled t created) s) s := by
    obtain ⟨τ₂, hτ₂, hcr, hs⟩ := hs
    rw [← hcr] at hs
    exact (releaseClaim_spec hpre hs hτ₂).bind fun r s₃ hs₃ => ⟨_, hs₃⟩
  cases hpost with
  | allowed hs₂ hread hpolicy hmay =>
    refine wp_ite (fun h => absurd rfl h) fun _ => ?_
    refine (probeExchange_spec (persists_backed.rides.and (rides_lent hk.user)) backend result
      hs₂).bind fun v s₃ hs₃ => ?_
    exact (releaseDiagnosticOwner_spec hpre hc v.1 v.2 hs₃ rfl).mono fun _ s₄ hs₄ => ⟨_, hs₄⟩
  | ended hs₂ hr =>
    exact wp_ite (fun _ => hrelease hs₂) fun h => absurd hr h
  | kept hs₂ hr =>
    exact wp_ite (fun _ => hrelease hs₂) fun h => absurd hr h

theorem swdProbe_spec (arguments : Option (List Char)) (backend : Option ProbeBackend)
    (result : Option ProbeResult) (hs : On user t c w₀ τ (fun _ => True) s)
    (hτ : τ.reserved = false) (hcreated : τ.created = []) :
    ModeWp user t (swdProbe arguments backend result)
      (fun _ s => ∃ created, Ended user t c w₀ created (Rolled t created) s) s := by
  have hnothing : ∃ created, Ended user t c w₀ created (Rolled t created) s :=
    ⟨[], hs.1.ended hτ hcreated (.inr fun _ hg => by cases hg)⟩
  unfold swdProbe
  cases result with
  | none => exact hnothing
  | some result =>
    cases arguments with
    | none => exact hnothing
    | some arguments =>
      cases backend with
      | none => exact hnothing
      | some backend =>
        refine wp_guard hnothing fun _ => ?_
        cases parseClockKhz arguments with
        | error status => exact hnothing
        | ok clockKhz =>
          exact (probeTarget_spec hpre hc backend _ hs hτ hcreated).bind fun v s₁ hs₁ => hs₁

end Release
end AirDap

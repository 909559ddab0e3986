import AirDap.Mode.Specs

/-! What the begins of the mode state do, under interference: the policy is read again while
the word is reserved, and the reservation is given back unless the reading confirms it. -/
namespace AirDap
open Concurrency Discipline

variable {T H : Type} [DecidableEq T] {user : H → T} {t : T} {c : ModeCall H}
  {w₀ : Device (H → Operation)} {τ : Trace} {R : ModeState T H → Prop} {s : ModeState T H}
  {k : H ⊕ T} {may : Option Owner → Prop} {operation : Option Operation}

/-- The last thing that `t` did is to read the mode word while it had reserved the word, in
the call that has the trace `τ` before the reservation. -/
def Confirmed (t : T) (τ : Trace) (s : ModeState T H) : Prop :=
  ∃ h, s.history = .acted t .loadMode s.world.modeControl s.world :: h ∧
    trace t h = { τ with reserved := true }

/-- The ways a begin of the mode state ends. -/
inductive OperationPost (user : H → T) (t : T) (c : ModeCall H) (w₀ : Device (H → Operation))
    (τ : Trace) (R : ModeState T H → Prop) (k : H ⊕ T) (may : Option Owner → Prop)
    (policy : Word → ModeDapResult) (operation : Option Operation) :
    ModeDapResult × Option Operation → ModeState T H → Prop
  | allowed {s : ModeState T H} {o : Option Owner} {g : ℕ}
      (hs : On user t c w₀ { τ with reserved := true, modeReads := τ.modeReads + 1 }
        (fun s => R s ∧ LentTo k o g s) s)
      (hread : Confirmed t τ s) (hpolicy : policy s.world.modeControl = .allowed) (hmay : may o)
      (hidle : HandleIdle user t c w₀) :
      OperationPost user t c w₀ τ R k may policy operation
        (.allowed, some ⟨heldCode o, BitVec.ofNat 32 g, true⟩) s
  | ended {s : ModeState T H} {r : ModeDapResult} (hs : Ended user t c w₀ τ.created R s)
      (hr : r ≠ .allowed) (hidle : HandleIdle user t c w₀) :
      OperationPost user t c w₀ τ R k may policy operation (r, some .zero) s
  | kept {s : ModeState T H} {r : ModeDapResult} (hs : Ended user t c w₀ τ.created R s)
      (hr : r ≠ .allowed) : OperationPost user t c w₀ τ R k may policy operation (r, operation) s

section Confirm

variable (hR : Persists user R) (hk : Reserving user t c k) (owner : Word)
  (authenticated boardControl : Bool)
include hR hk

/-- A word that keeps its stamp keeps the admission of the first reading. -/
theorem confirmOperation_spec {before : Word} {o : Option Owner} {g : ℕ}
    (hs : On user t c w₀ { τ with reserved := true } (fun s => (R s ∧
      (before &&& modeInitialized ≠ 0 → s.world.modeControl &&& modeInitialized ≠ 0)) ∧
        LentTo k o g s) s)
    (hidle : HandleIdle user t c w₀) (hmay : may o)
    (hallowed : dapPolicy before owner authenticated boardControl = .allowed) :
    ModeWp user t (confirmOperation owner authenticated boardControl before
        (some ⟨heldCode o, BitVec.ofNat 32 g, true⟩))
      (OperationPost user t c w₀ τ R k may
        (dapPolicy · owner authenticated boardControl) operation) s := by
  have hinit : before &&& modeInitialized ≠ 0 := by
    intro h
    rw [dapPolicy, refuse_iff (by decide), refuse_iff (by decide)] at hallowed
    exact hallowed.2.1 h
  have hR' := hR.and (persists_initialized.imp (p := before &&& modeInitialized ≠ 0))
  refine wp_loadMode (hR'.rides.and (rides_lent hk.user)) hs fun s₁ hs₁ hread => ?_
  refine wp_ite (fun _ => ?_) fun hsame => ?_
  · refine (operationEnd_on hR' hk hidle rfl hs₁).bind fun v s₂ hs₂ => ?_
    obtain ⟨hs₂, rfl⟩ := hs₂
    refine (dapAdmission_spec hR'.rides hs₂ _ owner authenticated boardControl).bind
      fun latest s₃ hs₃ => ?_
    refine .ended (hs₃.1.1.ended rfl rfl hs₃.1.2.1) ?_ hidle
    split
    · decide
    · assumption
  · rw [not_or, not_and, not_not, not_not] at hsame
    obtain ⟨w, h, hhist, rfl, htrace⟩ := hread
    refine .allowed (hs₁.mono fun h => ⟨h.1.1, h.2⟩) ⟨h, hhist, htrace⟩ ?_ hmay hidle
    refine dapPolicy_of_stamp hsame.1 (hs₁.2.1.2 hinit) (fun hboard => ?_) hallowed
    exact and_eq_of_and_eq (and_eq_of_xor_and (hsame.2 hboard)) (by decide)

theorem BeginPost.confirm {before : Word} {v : OwnershipResult × Option Operation}
    (hpost : BeginPost (On user t c w₀ τ fun s => R s ∧
      (before &&& modeInitialized ≠ 0 → s.world.modeControl &&& modeInitialized ≠ 0))
      t k may operation v s) (hτ : τ.reserved = false)
    (hidle : ∀ op, operation = some op → op.active = false → HandleIdle user t c w₀)
    (hallowed : dapPolicy before owner authenticated boardControl = .allowed) :
    ModeWp user t (if ownershipResult v.1 ≠ .allowed then pure (ownershipResult v.1, v.2)
        else confirmOperation owner authenticated boardControl before v.2)
      (OperationPost user t c w₀ τ R k may
        (dapPolicy · owner authenticated boardControl) operation) s := by
  cases hpost with
  | kept hs hok halready =>
    have hno := ownershipResult_ne hok halready
    rw [if_pos hno]
    exact .kept (hs.1.ended hτ rfl hs.2.1) hno
  | ok hs hmay hop =>
    obtain ⟨op, hop, hactive⟩ := hop
    have hR' := hR.and (persists_initialized.imp (p := before &&& modeInitialized ≠ 0))
    exact confirmOperation_spec hR hk owner authenticated boardControl (hs.on hR' hk hτ)
      (hidle op hop hactive) hmay hallowed

end Confirm

section Begin

variable (hR : Persists user R) (hk : Reserving user t c k) (authenticated : Bool)
  (hs : On user t c w₀ τ R s) (hτ : τ.reserved = false)
  (hidle : ∀ op, operation = some op → op.active = false → HandleIdle user t c w₀)
include hR hk hs hτ hidle

theorem admittedBegin_spec (owner : Word) (boardControl : Bool)
    {begins : Code ProbeIo.Answer (OwnershipResult × Option Operation)}
    (hbegins : ∀ R s, Persists user R →
      On user t c w₀ { τ with modeReads := τ.modeReads + 1 } R s → ModeWp user t begins
        (BeginPost (On user t c w₀ { τ with modeReads := τ.modeReads + 1 } R) t k may
          operation) s) :
    ModeWp user t (admittedBegin owner authenticated boardControl operation begins)
      (OperationPost user t c w₀ { τ with modeReads := τ.modeReads + 1 } R k may
        (dapPolicy · owner authenticated boardControl) operation) s := by
  refine wp_loadMode hR.rides hs fun s₁ hs₁ _ => ?_
  have hR' := hR.and (persists_initialized.imp (p := s₁.world.modeControl &&& modeInitialized ≠ 0))
  refine (dapAdmission_spec hR'.rides (hs₁.mono fun h => ⟨h, id⟩) _ owner authenticated
    boardControl).bind fun result s₂ hs₂ => ?_
  refine wp_ite (fun hno => .kept (hs₂.1.1.ended hτ rfl hs₂.1.2.1) hno) fun hyes => ?_
  rw [ne_eq, not_not] at hyes
  refine (hbegins _ s₂ hR' hs₂.1).bind fun v s₃ hpost => ?_
  exact hpost.confirm hR hk owner authenticated boardControl hτ hidle (hs₂.2 hyes)

theorem dapOperationBegin_spec (owner : Word) (claim : Option Claim) :
    ModeWp user t (dapOperationBegin owner authenticated claim operation)
      (OperationPost user t c w₀ { τ with modeReads := τ.modeReads + 1 } R k
        (fun o => ∃ cl, claim = some cl ∧ cl.owner = heldCode o)
        (dapPolicy · owner authenticated false) operation) s := by
  refine wp_guard (.kept (hs.1.ended hτ rfl hs.2) (by decide)) fun _ => ?_
  refine admittedBegin_spec hR hk authenticated hs hτ hidle owner false fun R s hR hs => ?_
  exact ownershipOperationBegin_spec modeArbitrated (on_carries hR.rides) claim operation
    hk.ready on_loud (fun _ _ _ _ => trivial) (fun _ => hk.user) hs

theorem controlOperationBegin_spec :
    ModeWp user t (controlOperationBegin authenticated operation)
      (OperationPost user t c w₀ { τ with modeReads := τ.modeReads + 1 } R k
        (fun o => o = none ∨ heldCode o = ownerNetwork)
        (dapPolicy · ownerNetwork authenticated true) operation) s := by
  refine wp_guard (.kept (hs.1.ended hτ rfl hs.2) (by decide)) fun _ => ?_
  refine admittedBegin_spec hR hk authenticated hs hτ hidle ownerNetwork true fun R s hR hs => ?_
  exact ownershipControlBegin_spec modeArbitrated (on_carries hR.rides) ownerNetwork operation
    hk.ready on_loud (fun _ _ => trivial) (fun _ => hk.user) hs

end Begin
end AirDap

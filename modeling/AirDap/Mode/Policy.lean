import AirDap.Mode.Verified

/-! Mode policy and ownership are checked together: a begin that is allowed held its
reservation when the policy was met. -/
namespace AirDap
open Concurrency

variable {T H : Type} [DecidableEq T]

/-- The current call of `t` was made with the handle `h` inactive. -/
def CalledIdle (t : T) (h : H) (σ : ModeConfig T H) : Prop :=
  ∃ c w₀, lastCall t σ.history = some (c, w₀) ∧ (w₀.memory h).active = false

/-- What the caller of a begin is left with. An allowed operation was ACTIVE in the ownership
word when the call read the mode word for the second time, and that mode word met the
policy. Any other result leaves the handle inactive and no reservation of the call. -/
structure CheckedTogether (t : T) (owner : Word) (authenticated boardControl : Bool) (h : H)
    (r : ModeDapResult) (σ : ModeConfig T H) : Prop where
  allowed : r = .allowed → (σ.world.memory h).active = true ∧
    ∃ w τ, modeReading t 1 σ.history = some (w, τ) ∧ τ.reserved = true ∧
      w.ownershipControl =
        makeControl (σ.world.memory h).generation (σ.world.memory h).owner ||| controlActive ∧
      Admissible w.modeControl owner authenticated boardControl
  refused : r ≠ .allowed →
    (σ.world.memory h).active = false ∧ (trace t σ.history).reserved = false

variable [DecidableEq H] {user : H → T} {w : Device (H → Operation)} {σ : ModeConfig T H} {t : T}
  {c : ModeCall H} {v : c.Value} {h : H}

theorem Begun.checked {owner : Word} {authenticated boardControl : Bool} {owners : Word → Prop}
    {r : ModeDapResult × Option Operation} {w' : Device (H → Operation)}
    {history : List (Event T (Act ProbeIo) (Resp ProbeIo.Answer) (Device (H → Operation))
      (ModeCall H) ModeCall.Value)}
    (hb : Begun t owner authenticated boardControl owners h r history)
    (hhist : σ.history = .returned t c v :: history)
    (hfin : σ.world = (modeMachine user).finish t c v w') (hc : c.handle = some h)
    (hv : c.operation v = r.2) (hidle : CalledIdle t h σ) :
    CheckedTogether t owner authenticated boardControl h r.1 σ ∧
      (r.1 = .allowed → owners (σ.world.memory h).owner) := by
  have hmem {op : Operation} (hop : r.2 = some op) : σ.world.memory h = op := by
    rw [hfin]
    simp [modeMachine, hc, hv, hop, storeHandle]
  have hreading : modeReading t 1 σ.history = modeReading t 1 history := by
    rw [hhist]
    rfl
  refine ⟨⟨fun hr => ?_, fun hr => ?_⟩, fun hr => ?_⟩
  · obtain ⟨op, w₁, τ, hop, hact, -, hread, hres, hctl, hadm⟩ := hb.allowed hr
    rw [hmem hop, hreading]
    exact ⟨hact, w₁, τ, hread, hres, hctl, hadm⟩
  · obtain ⟨c', w₀, hcall, hact⟩ := hidle
    rw [hhist] at hcall
    obtain ⟨⟨op, hop, hop'⟩, hres⟩ := hb.refused hr c' w₀ hcall hact
    rw [hmem hop, hhist]
    exact ⟨hop', hres⟩
  · obtain ⟨op, w₁, τ, hop, -, howner, -⟩ := hb.allowed hr
    rw [hmem hop]
    exact howner

/-- In every run, both begins check the policy and the ownership together. -/
theorem begins_check_together (hw : Fresh w) (hσ : (modeMachine user).Steps (.start w) σ) :
    (∀ authenticated v, σ.Returned t (.controlOperationBegin authenticated (some h)) v →
      CalledIdle t h σ → CheckedTogether t ownerNetwork authenticated true h v.1 σ ∧
        (v.1 = .allowed → (σ.world.memory h).owner = ownerNone ∨
          (σ.world.memory h).owner = ownerNetwork)) ∧
    ∀ owner authenticated cl v, cl.owner = owner →
      σ.Returned t (.dapOperationBegin owner authenticated (some cl) (some h)) v →
      CalledIdle t h σ → CheckedTogether t owner authenticated false h v.1 σ ∧
        (v.1 = .allowed → (σ.world.memory h).owner = owner) := by
  constructor
  · intro authenticated v hret hidle
    obtain ⟨γ, w', history, -, hhist, hpost, hfin⟩ := mode_returned hw hσ hret
    exact hpost.checked hhist hfin rfl rfl hidle
  · intro owner authenticated cl v howner hret hidle
    obtain ⟨γ, w', history, -, hhist, hpost, hfin⟩ := mode_returned hw hσ hret
    obtain ⟨hchecked, howners⟩ := hpost.checked hhist hfin rfl rfl hidle
    refine ⟨hchecked, fun hr => ?_⟩
    obtain ⟨cl', hcl, ho⟩ := howners hr
    cases hcl
    exact ho.symm.trans howner

/-- The run in which one thread begins a board-control operation while Wi-Fi is online. -/
def boardControlRun : ModeConfig Unit Unit :=
  (modeMachine fun _ => ()).replay (fun _ => Device.answer ProbeIo.idleReply)
    (((), some (.controlOperationBegin true (some ()))) :: List.replicate 5 ((), none))
    (.start ⟨ownerNone, 0x86, 0, 0, fun _ => .zero⟩)

theorem boardControlRun_checked : boardControlRun.Returned ()
      (.controlOperationBegin true (some ())) (.allowed, some ⟨ownerNone, 0, true⟩) ∧
    CheckedTogether () ownerNetwork true true () .allowed boardControlRun := by
  have hw : Fresh (⟨ownerNone, 0x86, 0, 0, fun _ => .zero⟩ : Device (Unit → Operation)) :=
    ⟨rfl, fun _ => rfl, by decide⟩
  have hrun : (modeMachine fun _ => ()).Steps (.start ⟨ownerNone, 0x86, 0, 0, fun _ => .zero⟩)
      boardControlRun :=
    Machine.replay_steps (fun _ => Device.exec_answer _) _ _ fun _ _ _ _ _ _ _ => rfl
  have hret : boardControlRun.Returned () (.controlOperationBegin true (some ()))
      (.allowed, some ⟨ownerNone, 0, true⟩) := ⟨_, rfl⟩
  have hidle : CalledIdle () () boardControlRun := ⟨_, _, rfl, rfl⟩
  exact ⟨hret, ((begins_check_together hw hrun).1 true _ hret hidle).1⟩

end AirDap

import AirDap.Concurrency.RelyGuarantee
import AirDap.Concurrency.Protocol

/-! Invariants of verified machines whose calls also keep a protocol. The verification supplies
the ghost state and the guarantee of every step, the protocol the positions of the threads. -/
namespace Concurrency

variable {T A : Type} {R : A → Type} {W C : Type} {V : C → Type} {Γ X α : Type}

section Restriction

variable (E : W → (a : A) → R a → W → Prop)

/-- The machine on which only the outcomes in `E` occur. -/
def Machine.restrict (M : Machine T A R W C V) : Machine T A R W C V where
  may := M.may
  code := M.code
  exec t w a r w' := M.exec t w a r w' ∧ E w a r w'
  finish := M.finish

@[inherit_doc Machine.restrict]
def Discipline.restrict (D : Discipline T A R W C V Γ) : Discipline T A R W C V Γ where
  exec t w a r w' := D.exec t w a r w' ∧ E w a r w'
  guar := D.guar
  pre := D.pre

variable {E} {D : Discipline T A R W C V Γ} {M : Machine T A R W C V}

theorem Discipline.wp.restrict {t : T} {p : Prog A R α} {Q : α → State T A R W C V Γ → Prop}
    {s : State T A R W C V Γ} (h : D.wp t p Q s) : (D.restrict E).wp t p Q s := by
  induction p generalizing s with
  | ret v => exact h
  | act a k ih =>
    intro s₁ hrely
    obtain ⟨hpre, hstep⟩ := h s₁ hrely
    refine ⟨hpre, fun r w hw => ?_⟩
    obtain ⟨γ, hguar, hrest⟩ := hstep r w hw.1
    exact ⟨γ, hguar, ih r hrest⟩
  | spent => exact h

theorem Verifies.restrict {idle : T → State T A R W C V Γ → Prop}
    {post : T → (c : C) → V c → State T A R W C V Γ → Prop} (hV : Verifies D M idle post) :
    Verifies (D.restrict E) (M.restrict E) idle post where
  exec := by
    unfold Machine.restrict Discipline.restrict
    rw [hV.exec]
  stable := hV.stable
  call hidle hmay := by
    obtain ⟨hguar, hwp⟩ := hV.call hidle hmay
    exact ⟨hguar, hwp.restrict⟩

end Restriction

section Invariant

variable [DecidableEq T] {D : Discipline T A R W C V Γ} {M : Machine T A R W C V}
  {idle : T → State T A R W C V Γ → Prop} {post : T → (c : C) → V c → State T A R W C V Γ → Prop}
  {P : Protocol T A R W C X} {φ : T → (c : C) → V c → X → Prop}
  {Inv : State T A R W C V Γ → Prop} {σ σ' : Config T A R W C V} {γ : Γ}

/-- What one event has to preserve when its operation obeys the guarantee of its thread. -/
structure Protocol.Guards (P : Protocol T A R W C X) (D : Discipline T A R W C V Γ)
    (M : Machine T A R W C V) (φ : T → (c : C) → V c → X → Prop)
    (Inv : State T A R W C V Γ → Prop) : Prop where
  called : ∀ ⦃s t c⦄, Inv s → P.position t s.history = P.idle → M.may t c s.world →
    Inv (s.called t c)
  acted : ∀ ⦃s t a r w γ⦄, Inv s → P.allowed (P.position t s.history) a →
    M.exec t s.world a r w → D.guar t s (s.acted t a r w γ) → Inv (s.acted t a r w γ)
  returned : ∀ ⦃s t c v⦄, Inv s → φ t c v (P.position t s.history) → Inv (s.returned M t c v)

/-- Every thread keeps the protocol. -/
abbrev Protocol.Kept (P : Protocol T A R W C X) (φ : T → (c : C) → V c → X → Prop) :
    Config T A R W C V → Prop :=
  P.Held φ fun _ _ => True

theorem Machine.Step.kept (hkeeps : M.Keeps P φ) {t : T} (h : M.Step σ t σ') (hσ : P.Kept φ σ) :
    P.Kept φ σ' :=
  h.held hkeeps ⟨fun _ _ _ _ _ _ _ => trivial, fun _ _ _ _ _ _ _ _ _ => trivial,
    fun _ _ _ _ _ _ _ => trivial⟩ hσ

theorem Protocol.guards_settle (hg : P.Guards D M φ Inv) {t : T} {c : C} {p : Prog A R (V c)}
    {s : State T A R W C V Γ} (hs : Inv s)
    (hp : p.Follows P.allowed P.next (φ t c) (P.position t s.history)) :
    Inv ((M.settle σ t c s.world s.history p).state s.ghost) := by
  cases p with
  | ret v => exact hg.returned hs hp
  | act a k => exact hs
  | spent => exact hs

theorem Machine.Step.guarded (hV : Verifies D M idle post) (hkeeps : M.Keeps P φ)
    (hg : P.Guards D M φ Inv) {t : T} (h : M.Step σ t σ') (hkept : P.Kept φ σ)
    (hsafe : σ.Safe D M idle post γ) (hinv : Inv (σ.state γ)) :
    ∃ γ', σ'.Safe D M idle post γ' ∧ Inv (σ'.state γ') := by
  have hs := hsafe t
  have hstands := hkept.thread t
  cases h with
  | @call c hidle hmay =>
    rw [hidle] at hs hstands
    obtain ⟨hguar, hwp⟩ := hV.call hs hmay
    refine ⟨γ, (settle_safe hV hsafe hguar hwp fun _ _ _ he => by cases he).1, ?_⟩
    refine Protocol.guards_settle (s := (σ.state γ).called t c) hg
      (hg.called hinv hstands hmay) ?_
    have hposition : P.position t ((σ.state γ).called t c).history = P.start t c σ.world :=
      Protocol.position_called_self
    rw [hposition]
    exact hkeeps t c _ hmay
  | @act c a k r w hbusy hexec =>
    rw [hbusy] at hs hstands
    have hD := hexec
    rw [hV.exec] at hD
    obtain ⟨γ', hguar, hwp⟩ := (hs _ .refl).2 _ _ hD
    refine ⟨γ', (settle_safe hV hsafe hguar hwp fun _ _ _ he => by cases he).1, ?_⟩
    refine Protocol.guards_settle (s := (σ.state γ).acted t a r w γ') hg
      (hg.acted hinv hstands.1 hexec hguar) ?_
    have hposition : P.position t ((σ.state γ).acted t a r w γ').history =
        P.next (P.position t σ.history) a r := Protocol.position_acted_self
    rw [hposition]
    exact hstands.2 r

/-- An invariant that every allowed operation within its guarantee preserves holds in every
run. -/
theorem Machine.Steps.guarded (hV : Verifies D M idle post) (hkeeps : M.Keeps P φ)
    (hg : P.Guards D M φ Inv) (h : M.Steps σ σ') (hkept : P.Kept φ σ)
    (hsafe : σ.Safe D M idle post γ) (hinv : Inv (σ.state γ)) :
    P.Kept φ σ' ∧ ∃ γ', σ'.Safe D M idle post γ' ∧ Inv (σ'.state γ') := by
  induction h with
  | refl => exact ⟨hkept, γ, hsafe, hinv⟩
  | tail _ hstep ih =>
    obtain ⟨t, hstep⟩ := hstep
    obtain ⟨hkept₁, γ₁, hsafe₁, hinv₁⟩ := ih
    exact ⟨hstep.kept hkeeps hkept₁, hstep.guarded hV hkeeps hg hkept₁ hsafe₁ hinv₁⟩

end Invariant
end Concurrency

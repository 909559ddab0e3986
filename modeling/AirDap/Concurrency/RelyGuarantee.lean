import AirDap.Concurrency.Machine

/-! Rely-guarantee reasoning for threads of a machine. A thread is verified alone: every
step it takes obeys its guarantee, and between its steps it relies only on the
guarantees of the others. Assertions see the world, the history and a ghost state that
the proof updates at each step. -/
namespace Concurrency

variable {T A : Type} {R : A → Type} {W C : Type} {V : C → Type} {Γ α β : Type}

structure State (T A : Type) (R : A → Type) (W C : Type) (V : C → Type) (Γ : Type) where
  world : W
  history : List (Event T A R W C V)
  ghost : Γ

namespace State

def called (s : State T A R W C V Γ) (t : T) (c : C) : State T A R W C V Γ :=
  { s with history := .called t c s.world :: s.history }

def acted (s : State T A R W C V Γ) (t : T) (a : A) (r : R a) (w : W) (γ : Γ) :
    State T A R W C V Γ :=
  ⟨w, .acted t a r s.world :: s.history, γ⟩

def returned (s : State T A R W C V Γ) (M : Machine T A R W C V) (t : T) (c : C) (v : V c) :
    State T A R W C V Γ :=
  { s with world := M.finish t c v s.world, history := .returned t c v :: s.history }

end State

def Config.state (σ : Config T A R W C V) (γ : Γ) : State T A R W C V Γ :=
  ⟨σ.world, σ.history, γ⟩

/-- `pre t (some a) s` must hold whenever `t` is about to perform `a`, and `pre t none s`
whenever `t` is stopped in a retry loop. -/
structure Discipline (T A : Type) (R : A → Type) (W C : Type) (V : C → Type)
    (Γ : Type) where
  exec : T → W → (a : A) → R a → W → Prop
  guar : T → State T A R W C V Γ → State T A R W C V Γ → Prop
  pre : T → Option A → State T A R W C V Γ → Prop

namespace Discipline

variable (D : Discipline T A R W C V Γ) {t u : T} {s s' : State T A R W C V Γ}

/-- What the other threads may do between two steps of `t`. -/
def rely (t : T) : State T A R W C V Γ → State T A R W C V Γ → Prop :=
  Relation.ReflTransGen fun s s' => ∃ u, u ≠ t ∧ D.guar u s s'

/-- From `s`, under interference, `t` can run the program: each operation meets its
precondition and the guarantee, for some update of the ghost state, and a returned
value satisfies `Q` at the instant of the last operation. -/
def wp (t : T) : Prog A R α → (α → State T A R W C V Γ → Prop) → State T A R W C V Γ → Prop
  | .ret v, Q, s => Q v s
  | .act a k, Q, s => ∀ s₁, D.rely t s s₁ → D.pre t (some a) s₁ ∧
      ∀ r w, D.exec t s₁.world a r w →
        ∃ γ, D.guar t s₁ (s₁.acted t a r w γ) ∧ wp t (k r) Q (s₁.acted t a r w γ)
  | .spent, _, s => ∀ s₁, D.rely t s s₁ → D.pre t none s₁

variable {Q : α → State T A R W C V Γ → Prop} {a : A} {k : R a → Prog A R α} {p : Prog A R α}
  {P : State T A R W C V Γ → Prop}

@[simp] theorem wp_ret {v : α} : D.wp t (.ret v) Q s ↔ Q v s := Iff.rfl

theorem wp_act :
    D.wp t (.act a k) Q s ↔ ∀ s₁, D.rely t s s₁ → D.pre t (some a) s₁ ∧
      ∀ r w, D.exec t s₁.world a r w →
        ∃ γ, D.guar t s₁ (s₁.acted t a r w γ) ∧ D.wp t (k r) Q (s₁.acted t a r w γ) := Iff.rfl

theorem wp_bind (p : Prog A R α) (f : α → Prog A R β) (Q : β → State T A R W C V Γ → Prop) :
    D.wp t (p >>= f) Q s ↔ D.wp t p (fun v s => D.wp t (f v) Q s) s := by
  induction p generalizing s with
  | ret v => exact Iff.rfl
  | act a k ih =>
    simp only [Prog.act_bind, wp_act, ih]
  | spent => exact Iff.rfl

variable {D}

theorem wp.mono {Q' : α → State T A R W C V Γ → Prop} (h : D.wp t p Q s)
    (hQ : ∀ v s, Q v s → Q' v s) : D.wp t p Q' s := by
  induction p generalizing s with
  | ret v => exact hQ v s h
  | act a k ih =>
    intro s₁ hr
    obtain ⟨hp, hs⟩ := h s₁ hr
    refine ⟨hp, fun r w hw => ?_⟩
    obtain ⟨γ, hg, hk⟩ := hs r w hw
    exact ⟨γ, hg, ih r hk⟩
  | spent => exact h

/-- The body of a call may be verified first, and what follows it at its result. -/
theorem wp.bind {f : α → Prog A R β} {P : α → State T A R W C V Γ → Prop}
    {Q : β → State T A R W C V Γ → Prop} (h : D.wp t p P s) (hf : ∀ v s, P v s → D.wp t (f v) Q s) :
    D.wp t (p >>= f) Q s :=
  (D.wp_bind p f Q).mpr (h.mono hf)

section Handle

variable {A₁ A₂ X Y : Type} {R₁ : A₁ → Type} {R₂ : A₂ → Type} {ψ : A₁ → Prop} {φ : α → Prop}

variable {x : X}

/-- An invariant that every operation of a program keeps when it is carried out by a lower
program is kept by the whole. -/
theorem wp_handle {p : Prog A₁ R₁ α} (hp : p.Yields ψ φ) {h : (a : A₁) → X → Prog A R (R₁ a × X)}
    {P : X → State T A R W C V Γ → Prop}
    (hh : ∀ a x s, ψ a → P x s → D.wp t (h a x) (fun r s => P r.2 s) s) (hs : P x s) :
    D.wp t (p.handle h x) (fun r s => φ r.1 ∧ P r.2 s) s := by
  induction p generalizing x s with
  | ret v => exact ⟨hp, hs⟩
  | act a k ih => exact (hh a x s hp.1 hs).bind fun r s₁ hs₁ => ih r.1 (hp.2 r.1) hs₁
  | spent => exact hp.elim

theorem wp_handle_handle {p : Prog A₁ R₁ α} (hp : p.Yields ψ φ)
    {h : (a : A₁) → X → Prog A₂ R₂ (R₁ a × X)} {g : (a : A₂) → Y → Prog A R (R₂ a × Y)}
    {P : X → Y → State T A R W C V Γ → Prop} (hh : ∀ a x y s, ψ a → P x y s →
      D.wp t ((h a x).handle g y) (fun r s => P r.1.2 r.2 s) s) {y : Y} (hs : P x y s) :
    D.wp t ((p.handle h x).handle g y) (fun r s => φ r.1.1 ∧ P r.1.2 r.2 s) s := by
  induction p generalizing x y s with
  | ret v => exact ⟨hp, hs⟩
  | act a k ih =>
    rw [Prog.handle, Prog.handle_bind]
    exact (hh a x y s hp.1 hs).bind fun r s₁ hs₁ => ih r.1.1 (hp.2 r.1.1) hs₁
  | spent => exact hp.elim

end Handle

theorem wp_ite {c : Prop} [Decidable c] {q : Prog A R α} (hp : c → D.wp t p Q s)
    (hq : ¬ c → D.wp t q Q s) : D.wp t (if c then p else q) Q s := by
  split
  · exact hp ‹_›
  · exact hq ‹_›

theorem wp_guard {c : Prop} [Decidable c] {v : α} (hv : Q v s) (hp : ¬ c → D.wp t p Q s) :
    D.wp t (if c then pure v else p) Q s :=
  wp_ite (fun _ => hv) hp

/-- An assertion that no step of another thread can falsify. -/
def Stable (D : Discipline T A R W C V Γ) (t : T) (P : State T A R W C V Γ → Prop) : Prop :=
  ∀ ⦃u s s'⦄, u ≠ t → P s → D.guar u s s' → P s'

theorem Stable.rely (hP : D.Stable t P) (hs : P s) (hr : D.rely t s s') : P s' := by
  induction hr with
  | refl => exact hs
  | tail _ hstep ih =>
    obtain ⟨u, hu, hg⟩ := hstep
    exact hP hu ih hg

/-- To perform `a` under a stable assertion it is enough to treat the states that
satisfy it. -/
theorem wp_act_of_stable (hP : D.Stable t P) (hs : P s)
    (h : ∀ s₁, P s₁ → D.pre t (some a) s₁ ∧ ∀ r w, D.exec t s₁.world a r w →
      ∃ γ, D.guar t s₁ (s₁.acted t a r w γ) ∧ D.wp t (k r) Q (s₁.acted t a r w γ)) :
    D.wp t (.act a k) Q s :=
  fun s₁ hr => h s₁ (hP.rely hs hr)

/-- A program that keeps a protocol is verified by one argument for each allowed operation. -/
theorem wp_follows {X : Type} {allowed : X → A → Prop} {next : X → (a : A) → R a → X}
    {φ : α → X → Prop} {x : X} (hp : p.Follows allowed next φ x)
    {P : X → State T A R W C V Γ → Prop} (hstable : ∀ x, D.Stable t (P x))
    (hact : ∀ x a s, P x s → allowed x a → D.pre t (some a) s ∧ ∀ r w, D.exec t s.world a r w →
      ∃ γ, D.guar t s (s.acted t a r w γ) ∧ P (next x a r) (s.acted t a r w γ))
    (hspent : ∀ x s, P x s → D.pre t none s) (hs : P x s) :
    D.wp t p (fun v s => ∃ x, φ v x ∧ P x s) s := by
  induction p generalizing x s with
  | ret v => exact ⟨x, hp, hs⟩
  | act a k ih =>
    refine wp_act_of_stable (hstable x) hs fun s₁ hs₁ => ?_
    obtain ⟨hpre, hstep⟩ := hact x a s₁ hs₁ hp.1
    refine ⟨hpre, fun r w hw => ?_⟩
    obtain ⟨γ, hguar, hs₂⟩ := hstep r w hw
    exact ⟨γ, hguar, ih r (hp.2 r) hs₂⟩
  | spent => exact fun s₁ hr => hspent x s₁ ((hstable x).rely hs hr)

end Discipline

/-- Every call keeps the discipline: `idle` is what a thread knows between its calls
and `post` what holds at the instant a call returns. -/
structure Verifies (D : Discipline T A R W C V Γ) (M : Machine T A R W C V)
    (idle : T → State T A R W C V Γ → Prop)
    (post : T → (c : C) → V c → State T A R W C V Γ → Prop) : Prop where
  exec : M.exec = D.exec
  stable : ∀ t, D.Stable t (idle t)
  call : ∀ {t c s}, idle t s → M.may t c s.world → D.guar t s (s.called t c) ∧
    D.wp t (M.code t c s.world)
      (fun v s => post t c v s ∧ D.guar t s (s.returned M t c v) ∧ idle t (s.returned M t c v))
      (s.called t c)

section Adequacy

variable {D : Discipline T A R W C V Γ} {M : Machine T A R W C V}
  {idle : T → State T A R W C V Γ → Prop} {post : T → (c : C) → V c → State T A R W C V Γ → Prop}

/-- The thread is verified from `s` on. -/
def Thread.Safe (D : Discipline T A R W C V Γ) (M : Machine T A R W C V)
    (idle : T → State T A R W C V Γ → Prop)
    (post : T → (c : C) → V c → State T A R W C V Γ → Prop) (t : T)
    (s : State T A R W C V Γ) : Thread A R C V → Prop
  | .idle => idle t s
  | .busy c a k => D.wp t (.act a k) (fun v s => post t c v s ∧
      D.guar t s (s.returned M t c v) ∧ idle t (s.returned M t c v)) s
  | .halted c => D.wp t (.spent : Prog A R (V c)) (fun v s => post t c v s ∧
      D.guar t s (s.returned M t c v) ∧ idle t (s.returned M t c v)) s

/-- The invariant of a verified machine: every thread is safe. -/
def Config.Safe (D : Discipline T A R W C V Γ) (M : Machine T A R W C V)
    (idle : T → State T A R W C V Γ → Prop)
    (post : T → (c : C) → V c → State T A R W C V Γ → Prop)
    (σ : Config T A R W C V) (γ : Γ) : Prop :=
  ∀ t, (σ.thread t).Safe D M idle post t (σ.state γ)

variable {t : T} {s : State T A R W C V Γ} {th : Thread A R C V} {σ : Config T A R W C V} {γ : Γ}
  {c : C} {w : W} {σ' : Config T A R W C V} {J : State T A R W C V Γ → Prop}

theorem Thread.Safe.rely (hV : Verifies D M idle post) {s' : State T A R W C V Γ}
    (h : th.Safe D M idle post t s) (hr : D.rely t s s') : th.Safe D M idle post t s' := by
  cases th with
  | idle => exact (hV.stable t).rely h hr
  | busy c a k => exact fun s₁ h₁ => h s₁ (hr.trans h₁)
  | halted c => exact fun s₁ h₁ => h s₁ (hr.trans h₁)

section

variable (hσ : σ.Safe D M idle post γ)
include hσ

/-- A thread that is about to perform an operation meets its precondition. -/
theorem Config.Safe.pre {a : A} {k : R a → Prog A R (V c)} (h : σ.thread t = .busy c a k) :
    D.pre t (some a) (σ.state γ) := by
  have hs := hσ t
  rw [h] at hs
  exact (hs _ .refl).1

theorem Config.Safe.pre_halted (h : σ.thread t = .halted c) : D.pre t none (σ.state γ) := by
  have hs := hσ t
  rw [h] at hs
  exact hs _ .refl

theorem Config.Safe.of_idle (h : σ.thread t = .idle) : idle t (σ.state γ) := by
  have hs := hσ t
  rw [h] at hs
  exact hs

end

theorem Config.start_safe (h : ∀ t, idle t ⟨w, [], γ⟩) : (Config.start w).Safe D M idle post γ := h

variable [DecidableEq T]

section

variable (hV : Verifies D M idle post)
include hV

/-- The other threads stay safe when `t` moves within its guarantee. -/
theorem Config.Safe.update (hσ : σ.Safe D M idle post γ)
    (hg : Relation.ReflTransGen (D.guar t) (σ.state γ) s) (hth : th.Safe D M idle post t s) :
    Config.Safe D M idle post ⟨s.world, s.history, Function.update σ.thread t th⟩ s.ghost := by
  intro u
  by_cases hu : u = t
  · subst hu
    simp only [Function.update_self]
    exact hth
  · simp only [Function.update_of_ne hu]
    exact (hσ u).rely hV
      (hg.lift id fun _ _ hstep => ⟨t, Ne.symm hu, hstep⟩)

/-- Parking a program that is verified from the state it has reached. -/
theorem Machine.settle_safe (hσ : σ.Safe D M idle post γ) {p : Prog A R (V c)}
    (hg : D.guar t (σ.state γ) s)
    (hp : D.wp t p (fun v s => post t c v s ∧ D.guar t s (s.returned M t c v) ∧
      idle t (s.returned M t c v)) s) (hs : ∀ c' v h', s.history ≠ .returned t c' v :: h') :
    (M.settle σ t c s.world s.history p).Safe D M idle post s.ghost ∧
      Relation.ReflTransGen (D.guar t) (σ.state γ)
        ((M.settle σ t c s.world s.history p).state s.ghost) ∧
      ∀ c' v h', (M.settle σ t c s.world s.history p).history = .returned t c' v :: h' →
        ∃ w, post t c' v ⟨w, h', s.ghost⟩ ∧
          (M.settle σ t c s.world s.history p).world = M.finish t c' v w := by
  cases p with
  | ret v =>
    obtain ⟨hpost, hfin, hidle⟩ := hp
    have hall := (Relation.ReflTransGen.single hg).tail hfin
    refine ⟨hσ.update hV hall hidle, hall, fun c' v' h' he => ?_⟩
    simp only [Machine.settle, List.cons.injEq, Event.returned.injEq, true_and] at he
    obtain ⟨⟨rfl, hv⟩, rfl⟩ := he
    cases eq_of_heq hv
    exact ⟨s.world, hpost, rfl⟩
  | act a k | spent =>
    exact ⟨hσ.update hV (.single hg) hp, .single hg, fun c' v h' he => absurd he (hs _ _ _)⟩

/-- One step of a verified machine keeps every thread safe, obeys the guarantee of the
thread that moves, and establishes the postcondition of a call that it ends. -/
theorem Machine.Step.safe (hstep : M.Step σ t σ') (hσ : σ.Safe D M idle post γ) :
    ∃ γ', σ'.Safe D M idle post γ' ∧
      Relation.ReflTransGen (D.guar t) (σ.state γ) (σ'.state γ') ∧
      ∀ c v h, σ'.history = .returned t c v :: h →
        ∃ w, post t c v ⟨w, h, γ'⟩ ∧ σ'.world = M.finish t c v w := by
  have hs := hσ t
  cases hstep with
  | call hidle hmay =>
    rw [hidle] at hs
    obtain ⟨hg, hwp⟩ := hV.call hs hmay
    exact ⟨γ, settle_safe hV hσ hg hwp fun _ _ _ he => by cases he⟩
  | act hbusy hexec =>
    rw [hbusy] at hs
    rw [hV.exec] at hexec
    obtain ⟨γ', hg, hwp⟩ := (hs _ .refl).2 _ _ hexec
    exact ⟨γ', settle_safe hV hσ hg hwp fun _ _ _ he => by cases he⟩

/-- Invariants of the guarantees hold along every run of a verified machine. -/
theorem Machine.Steps.safe (hJ : ∀ u s s', J s → D.guar u s s' → J s') (hsteps : M.Steps σ σ')
    (hσ : σ.Safe D M idle post γ) (hs : J (σ.state γ)) :
    ∃ γ', σ'.Safe D M idle post γ' ∧ J (σ'.state γ') := by
  induction hsteps with
  | refl => exact ⟨γ, hσ, hs⟩
  | tail _ hstep ih =>
    obtain ⟨t, hstep⟩ := hstep
    obtain ⟨γ₁, hσ₁, hs₁⟩ := ih
    obtain ⟨γ₂, hσ₂, hg, -⟩ := hstep.safe hV hσ₁
    exact ⟨γ₂, hσ₂, hg.rec hs₁ fun _ hone ih => hJ _ _ _ ih hone⟩

theorem Machine.Steps.returned (hJ : ∀ u s s', J s → D.guar u s s' → J s') {v : V c}
    (hsteps : M.Steps (.start w) σ) (hstart : Config.Safe D M idle post (.start w) γ)
    (hs : J ⟨w, [], γ⟩) (hret : σ.Returned t c v) :
    ∃ γ' w' h, σ.Safe D M idle post γ' ∧ J (σ.state γ') ∧ σ.history = .returned t c v :: h ∧
      post t c v ⟨w', h, γ'⟩ ∧ σ.world = M.finish t c v w' := by
  cases hsteps with
  | refl =>
    obtain ⟨h, hh⟩ := hret
    cases hh
  | tail hsteps hstep =>
    obtain ⟨u, hstep⟩ := hstep
    obtain ⟨γ₁, hσ₁, hs₁⟩ := Machine.Steps.safe hV hJ hsteps hstart hs
    obtain ⟨γ₂, hσ₂, hg, hpost⟩ := hstep.safe hV hσ₁
    cases hstep.returned hret
    obtain ⟨h, hh⟩ := hret
    obtain ⟨w', hpost, hw'⟩ := hpost c v h hh
    exact ⟨γ₂, w', h, hσ₂, hg.rec hs₁ fun _ hone ih => hJ _ _ _ ih hone, hh, hpost, hw'⟩

end

end Adequacy
end Concurrency

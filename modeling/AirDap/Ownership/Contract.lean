import AirDap.Ownership.Calls

/-! What a thread may assume and must keep while it runs calls of the arbiter. The ghost
state is the abstract arbiter; the word is always its encoding. -/
namespace AirDap
open Concurrency Discipline

variable {T K I : Type} {J : I → Type} {M C : Type} {V : C → Type} {α : Type}

abbrev DState (T K : Type) {I : Type} (J : I → Type) (M C : Type) (V : C → Type) :=
  State T (Act I) (Resp J) (Device M) C V (Arbiter T K)

abbrev DDiscipline (T K : Type) {I : Type} (J : I → Type) (M C : Type) (V : C → Type) :=
  Discipline T (Act I) (Resp J) (Device M) C V (Arbiter T K)

/-- The ownership word encodes the arbiter. -/
def Tracks (s : DState T K J M C V) : Prop := s.world.ownershipControl = s.ghost.control

/-- The state after `t` moved the arbiter to `γ` by the operation `a`. -/
def moved (s : DState T K J M C V) (t : T) (a : Act I) (r : Resp J a)
    (γ : Arbiter T K) : DState T K J M C V :=
  s.acted t a r { s.world with ownershipControl := γ.control } γ

/-- A step of `t` on the ownership word that reads it, fails to exchange it, runs a callback,
or makes a quiet move. -/
inductive Quiet (user : K → T) (t : T) (s : DState T K J M C V) : DState T K J M C V → Prop
  | load : Quiet user t s (moved s t .loadOwnership s.world.ownershipControl s.ghost)
  | reset (r : Bool) : Quiet user t s (moved s t .lineReset r s.ghost)
  | release (r : Bool) : Quiet user t s (moved s t .releasePins r s.ghost)
  | miss {expected desired : Word} (hne : s.ghost.control ≠ expected) :
      Quiet user t s (moved s t (.casOwnership expected desired) (some s.ghost.control) s.ghost)
  | missWeak (expected desired : Word) :
      Quiet user t s (moved s t (.casOwnershipWeak expected desired) (some s.ghost.control) s.ghost)
  | exchange {m : Move K} {γ : Arbiter T K} (hm : m.Quiet) (hstep : s.ghost.Step user t m γ) :
      Quiet user t s (moved s t (.casOwnership s.ghost.control γ.control) none γ)
  | exchangeWeak {m : Move K} {γ : Arbiter T K} (hm : m.Quiet) (hstep : s.ghost.Step user t m γ) :
      Quiet user t s (moved s t (.casOwnershipWeak s.ghost.control γ.control) none γ)
  | store {γ : Arbiter T K} (hstep : s.ghost.Step user t .settle γ) :
      Quiet user t s (moved s t (.storeOwnership γ.control) () γ)

theorem Quiet.exists_moved {user : K → T} {t : T} {s s' : DState T K J M C V}
    (h : Quiet user t s s') :
    ∃ a r γ m, s' = moved s t a r γ ∧ m.Quiet ∧ s.ghost.Step user t m γ := by
  cases h with
  | exchange hm hstep => exact ⟨_, _, _, _, rfl, hm, hstep⟩
  | exchangeWeak hm hstep => exact ⟨_, _, _, _, rfl, hm, hstep⟩
  | store hstep => exact ⟨_, _, _, .settle, rfl, trivial, hstep⟩
  | _ => exact ⟨_, _, _, .stay, rfl, trivial, .stay⟩

/-- The device runs its operations, and every thread moves the arbiter legally. -/
structure Arbitrated (D : DDiscipline T K J M C V) (user : K → T) : Prop where
  exec : ∀ t, D.exec t = Device.exec
  guar : ∀ {u s s'}, D.guar u s s' → ∃ m, s.ghost.Step user u m s'.ghost

/-- Thread `t` can hold the assertion `P` across calls of the arbiter. -/
structure Carries (D : DDiscipline T K J M C V) (user : K → T) (t : T)
    (P : DState T K J M C V → Prop) : Prop where
  tracks : ∀ {s}, P s → Tracks s
  stable : D.Stable t P
  quiet : ∀ {s s'}, P s → Quiet user t s s' → D.guar t s s' ∧ P s'
  halted : ∀ {s}, P s → D.pre t none s

/-- The operations of a call that exchanges the word only from the values in `takes`. The
callbacks and the plain stores happen inside the transition of the thread. -/
def Touches (t : T) (takes : Word → Prop) (s : DState T K J M C V) : Act I → Prop
  | .loadOwnership => True
  | .casOwnership expected _ | .casOwnershipWeak expected _ => takes expected
  | .storeOwnership _ | .lineReset | .releasePins => s.ghost.phase = .transition t
  | _ => False

def Ready (D : DDiscipline T K J M C V) (t : T) (P : DState T K J M C V → Prop)
    (takes : Word → Prop) : Prop :=
  ∀ ⦃s a⦄, P s → Touches t takes s a → D.pre t (some a) s

theorem Ready.mono {D : DDiscipline T K J M C V} {t : T} {P P' : DState T K J M C V → Prop}
    {takes takes' : Word → Prop} (hr : Ready D t P takes) (hP : ∀ s, P' s → P s)
    (htakes : ∀ e, takes' e → takes e) : Ready D t P' takes' := by
  intro s a hs ha
  apply hr (hP s hs)
  cases a <;> first | exact ha | exact htakes _ ha

/-- Thread `t` may make the moves that start and end ownerships and operations of the given
owners. -/
structure Loud (D : DDiscipline T K J M C V) (user : K → T) (t : T)
    (P : DState T K J M C V → Prop) (owners : Option Owner → Prop) : Prop where
  grant : ∀ {s o γ}, P s → owners (some o) → s.ghost.Step user t (.grant o) γ →
    D.guar t s (moved s t (.storeOwnership γ.control) () γ)
  reserve : ∀ {s o k γ}, P s → s.ghost.phase = .held o → owners o →
    s.ghost.Step user t (.reserve k) γ →
    D.guar t s (moved s t (.casOwnership s.ghost.control γ.control) none γ)
  yield : ∀ {s k γ}, P s → s.ghost.Step user t (.yield k) γ →
    D.guar t s (moved s t (.casOwnership s.ghost.control γ.control) none γ)

theorem Loud.mono {D : DDiscipline T K J M C V} {user : K → T} {t : T}
    {P P' : DState T K J M C V → Prop} {owners : Option Owner → Prop}
    (h : Loud D user t P owners) (hP : ∀ s, P' s → P s) : Loud D user t P' owners :=
  ⟨fun hs => h.grant (hP _ hs), fun hs => h.reserve (hP _ hs), fun hs => h.yield (hP _ hs)⟩

/-- Thread `t` has taken the pins at generation `g`. -/
def Seized (P : DState T K J M C V → Prop) (t : T) (g : ℕ) (s : DState T K J M C V) : Prop :=
  P s ∧ s.ghost.phase = .transition t ∧ s.ghost.generation = g

section Rules

variable {D : DDiscipline T K J M C V} {user : K → T} {t : T} {P : DState T K J M C V → Prop}
  {takes : Word → Prop} {s : DState T K J M C V} {Q : α → DState T K J M C V → Prop}

theorem moved_self {s : DState T K J M C V} (hs : Tracks s) {a : Act I} {r : Resp J a} :
    s.acted t a r s.world s.ghost = moved s t a r s.ghost := by
  unfold moved
  rw [← hs]

theorem wp_observe (hA : Arbitrated D user) (hP : Carries D user t P) (hs : P s) {a : Act I}
    {k : Resp J a → Code J α} (hpre : ∀ s, P s → D.pre t (some a) s)
    (h : ∀ s₁ r w, P s₁ → Device.exec s₁.world a r w →
      w = s₁.world ∧ Quiet user t s₁ (moved s₁ t a r s₁.ghost) ∧
      (P (moved s₁ t a r s₁.ghost) → D.wp t (k r) Q (moved s₁ t a r s₁.ghost))) :
    D.wp t (.act a k) Q s := by
  refine wp_act_of_stable hP.stable hs fun s₁ hs₁ => ⟨hpre s₁ hs₁, fun r w hw => ?_⟩
  rw [hA.exec] at hw
  obtain ⟨rfl, hq, hk⟩ := h s₁ r w hs₁ hw
  obtain ⟨hg, hP'⟩ := hP.quiet hs₁ hq
  refine ⟨s₁.ghost, ?_⟩
  rw [moved_self (hP.tracks hs₁)]
  exact ⟨hg, hk hP'⟩

theorem wp_loadOwnership (hA : Arbitrated D user) (hP : Carries D user t P)
    (hr : Ready D t P takes) (hs : P s) {k : Word → Code J α}
    (h : ∀ s₁, P s₁ → D.wp t (k s₁.ghost.control) Q s₁) :
    D.wp t (loadOwnership >>= k) Q s := by
  refine wp_observe hA hP hs (fun s hs => hr hs trivial) ?_
  rintro s₁ r w hs₁ ⟨rfl, rfl⟩
  refine ⟨rfl, .load, fun hP' => ?_⟩
  have h₁ := h _ hP'
  rw [show (moved s₁ t .loadOwnership s₁.world.ownershipControl s₁.ghost).ghost.control =
    s₁.world.ownershipControl from (hP.tracks hs₁).symm] at h₁
  exact h₁

/-- The state after `t` failed to exchange the word. -/
def missed (s : DState T K J M C V) (t : T) (expected desired : Word) : DState T K J M C V :=
  moved s t (.casOwnership expected desired) (some s.ghost.control) s.ghost

section

variable (hA : Arbitrated D user)
include hA

section

variable (hP : Carries D user t P)
include hP

/-- A compare-exchange: the thread says how it moves the arbiter if it succeeds. -/
theorem wp_casOwnership (hr : Ready D t P takes) (hs : P s)
    {expected desired : Word} (htake : takes expected) {k : Option Word → Code J α}
    (hok : ∀ s₁, P s₁ → s₁.ghost.control = expected → ∃ γ, desired = γ.control ∧
      D.guar t s₁ (moved s₁ t (.casOwnership expected desired) none γ) ∧
      D.wp t (k none) Q (moved s₁ t (.casOwnership expected desired) none γ))
    (hno : ∀ s₁, P s₁ → s₁.ghost.control ≠ expected → P (missed s₁ t expected desired) →
      D.wp t (k (some s₁.ghost.control)) Q (missed s₁ t expected desired)) :
    D.wp t (casOwnership expected desired >>= k) Q s := by
  refine wp_act_of_stable hP.stable hs fun s₁ hs₁ => ⟨hr hs₁ htake, fun r w hw => ?_⟩
  rw [hA.exec] at hw
  have htr := hP.tracks hs₁
  rcases hw with ⟨he, rfl, rfl⟩ | ⟨hne, rfl, rfl⟩
  · obtain ⟨γ, rfl, hg, hk⟩ := hok s₁ hs₁ (htr.symm.trans he)
    exact ⟨γ, hg, hk⟩
  · rw [htr] at hne ⊢
    have hq : Quiet user t s₁ (missed s₁ t expected desired) := .miss hne
    obtain ⟨hg, hP'⟩ := hP.quiet hs₁ hq
    refine ⟨s₁.ghost, ?_⟩
    rw [moved_self htr]
    exact ⟨hg, hno s₁ hs₁ hne hP'⟩

theorem wp_casOwnership_quiet (hr : Ready D t P takes) (hs : P s)
    {expected desired : Word} (htake : takes expected) {k : Option Word → Code J α}
    (hok : ∀ s₁, P s₁ → s₁.ghost.control = expected → ∃ γ m, desired = γ.control ∧ m.Quiet ∧
      s₁.ghost.Step user t m γ ∧ ∀ s₂, P s₂ → s₂.ghost = γ → D.wp t (k none) Q s₂)
    (hno : ∀ s₁, P s₁ → s₁.ghost.control ≠ expected → P (missed s₁ t expected desired) →
      D.wp t (k (some s₁.ghost.control)) Q (missed s₁ t expected desired)) :
    D.wp t (casOwnership expected desired >>= k) Q s := by
  refine wp_casOwnership hA hP hr hs htake (fun s₁ hs₁ he => ?_) hno
  obtain ⟨γ, m, rfl, hm, hstep, hk⟩ := hok s₁ hs₁ he
  subst he
  obtain ⟨hg, hP'⟩ := hP.quiet hs₁ (.exchange hm hstep)
  exact ⟨γ, rfl, hg, hk _ hP' rfl⟩

theorem wp_casOwnershipWeak (hr : Ready D t P takes) (hs : P s)
    {expected desired : Word} (htake : takes expected) {k : Option Word → Code J α}
    (hok : ∀ s₁, P s₁ → s₁.ghost.control = expected → ∃ γ m, desired = γ.control ∧ m.Quiet ∧
      s₁.ghost.Step user t m γ ∧ ∀ s₂, P s₂ → s₂.ghost = γ → D.wp t (k none) Q s₂)
    (hno : ∀ s₁, P s₁ → D.wp t (k (some s₁.ghost.control)) Q s₁) :
    D.wp t (casOwnershipWeak expected desired >>= k) Q s := by
  refine wp_act_of_stable hP.stable hs fun s₁ hs₁ => ⟨hr hs₁ htake, fun r w hw => ?_⟩
  rw [hA.exec] at hw
  have htr := hP.tracks hs₁
  rcases hw with ⟨he, rfl, rfl⟩ | ⟨rfl, rfl⟩
  · obtain ⟨γ, m, rfl, hm, hstep, hk⟩ := hok s₁ hs₁ (htr.symm.trans he)
    rw [← he, htr]
    obtain ⟨hg, hP'⟩ := hP.quiet hs₁ (.exchangeWeak hm hstep)
    exact ⟨γ, hg, hk _ hP' rfl⟩
  · rw [htr]
    obtain ⟨hg, hP'⟩ := hP.quiet hs₁ (.missWeak expected desired)
    refine ⟨s₁.ghost, ?_⟩
    rw [moved_self htr]
    exact ⟨hg, hno _ hP'⟩

theorem seized_stable (g : ℕ) : D.Stable t (Seized P t g) := by
  rintro u s s' hu ⟨hs, hphase, hg⟩ hguar
  obtain ⟨m, hstep⟩ := hA.guar hguar
  have he := hstep.transition hu hphase
  exact ⟨hP.stable hu hs hguar, he ▸ hphase, he ▸ hg⟩

theorem wp_lineReset (hr : Ready D t P takes) {g : ℕ}
    (hs : Seized P t g s) {k : Bool → Code J α} (h : ∀ r s₁, Seized P t g s₁ → D.wp t (k r) Q s₁) :
    D.wp t (backendLineReset >>= k) Q s := by
  refine wp_act_of_stable (seized_stable hA hP g) hs fun s₁ hs₁ =>
    ⟨hr hs₁.1 hs₁.2.1, fun r w hw => ?_⟩
  rw [hA.exec] at hw
  cases hw
  obtain ⟨hg, hP'⟩ := hP.quiet hs₁.1 (.reset r)
  refine ⟨s₁.ghost, ?_⟩
  rw [moved_self (hP.tracks hs₁.1)]
  exact ⟨hg, h r _ ⟨hP', hs₁.2⟩⟩

theorem wp_backendReleasePins (hr : Ready D t P takes) {g : ℕ}
    (hs : Seized P t g s) {k : Bool → Code J α} (h : ∀ r s₁, Seized P t g s₁ → D.wp t (k r) Q s₁) :
    D.wp t (backendReleasePins >>= k) Q s := by
  refine wp_act_of_stable (seized_stable hA hP g) hs fun s₁ hs₁ =>
    ⟨hr hs₁.1 hs₁.2.1, fun r w hw => ?_⟩
  rw [hA.exec] at hw
  cases hw
  obtain ⟨hg, hP'⟩ := hP.quiet hs₁.1 (.release r)
  refine ⟨s₁.ghost, ?_⟩
  rw [moved_self (hP.tracks hs₁.1)]
  exact ⟨hg, h r _ ⟨hP', hs₁.2⟩⟩

theorem wp_storeOwnership (hr : Ready D t P takes) {g : ℕ}
    (hs : Seized P t g s) {desired : Word} {k : Unit → Code J α}
    (h : ∀ s₁, Seized P t g s₁ → ∃ γ, desired = γ.control ∧
      D.guar t s₁ (moved s₁ t (.storeOwnership desired) () γ) ∧
      D.wp t (k ()) Q (moved s₁ t (.storeOwnership desired) () γ)) :
    D.wp t (storeOwnership desired >>= k) Q s := by
  refine wp_act_of_stable (seized_stable hA hP g) hs fun s₁ hs₁ =>
    ⟨hr hs₁.1 hs₁.2.1, fun r w hw => ?_⟩
  rw [hA.exec] at hw
  cases hw
  obtain ⟨γ, rfl, hg, hk⟩ := h s₁ hs₁
  exact ⟨γ, hg, hk⟩

end

end

end Rules
end AirDap

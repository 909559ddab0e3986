import AirDap.Concurrency.Program

/-! What a sequence of steps guarantees, and a program that runs alone; and the record of the
operations that it performs. -/
namespace Concurrency

variable {A B : Type} {R : A → Type} {S : B → Type} {W X Y α β : Type}

/-- What holds at the start, and after every step that meets a condition, holds after steps that
all meet it where they are taken. -/
theorem foldl_induct {step : W → α → W} {w : W} (Inv : W → Prop) (Meets : W → α → Prop)
    (hstart : Inv w) (hstep : ∀ x a, Meets x a → Inv x → Inv (step x a)) (actions : List α)
    (hmeets : ∀ before a after, actions = before ++ a :: after → Meets (before.foldl step w) a) :
    Inv (actions.foldl step w) := by
  induction actions generalizing w with
  | nil => exact hstart
  | cons a actions ih =>
    refine ih (hstep w a (hmeets [] a actions rfl) hstart) fun before b after h => ?_
    exact hmeets (a :: before) b after (congrArg (a :: ·) h)

namespace Prog

/-- Every run of the program alone that returns ends with a result and a world that `Q` holds
of. -/
def Ensures (exec : W → (a : A) → R a → W → Prop) (Q : α → W → Prop) : Prog A R α → W → Prop
  | .ret v, w => Q v w
  | .act a k, w => ∀ r w', exec w a r w' → (k r).Ensures exec Q w'
  | .spent, _ => True

section Ensures

variable {exec : W → (a : A) → R a → W → Prop} {Q Q' : α → W → Prop} {p : Prog A R α} {w : W}

theorem ensures_iff_runs :
    p.Ensures exec Q w ↔ ∀ v w', p.Runs exec v w w' → Q v w' := by
  induction p generalizing w with
  | ret v =>
    constructor
    · rintro h _ _ ⟨⟩
      exact h
    · exact fun h => h v w .ret
  | act a k ih =>
    constructor
    · rintro h v w' ⟨⟩
      case act hexec hk => exact (ih _).mp (h _ _ hexec) v w' hk
    · exact fun h r w₁ hexec => (ih r).mpr fun v w' hk => h v w' (.act hexec hk)
  | spent => exact ⟨fun _ _ _ h => (by cases h), fun _ => trivial⟩

theorem Ensures.bind {Q' : β → W → Prop} {f : α → Prog A R β} (hp : p.Ensures exec Q w)
    (hf : ∀ v w, Q v w → (f v).Ensures exec Q' w) : (p >>= f).Ensures exec Q' w := by
  induction p generalizing w with
  | ret v => exact hf v w hp
  | act a k ih => exact fun r w' hexec => ih r (hp r w' hexec)
  | spent => trivial

theorem Ensures.mono (hp : p.Ensures exec Q w) (h : ∀ v w, Q v w → Q' v w) :
    p.Ensures exec Q' w := by
  induction p generalizing w with
  | ret v => exact h v w hp
  | act a k ih => exact fun r w' hexec => ih r (hp r w' hexec)
  | spent => trivial

theorem ensures_ite {c : Prop} [Decidable c] {q : Prog A R α} (hp : c → p.Ensures exec Q w)
    (hq : ¬ c → q.Ensures exec Q w) : (if c then p else q).Ensures exec Q w := by
  split
  · exact hp ‹_›
  · exact hq ‹_›

theorem ensures_guard {c : Prop} [Decidable c] {v : α} (hv : Q v w)
    (hp : ¬ c → p.Ensures exec Q w) : (if c then pure v else p).Ensures exec Q w :=
  ensures_ite (fun _ => hv) hp

theorem ensures_of_keeps {P : W → Prop} (h : ∀ w a r w', P w → exec w a r w' → P w')
    (p : Prog A R α) (hw : P w) : p.Ensures exec (fun _ => P) w := by
  induction p generalizing w with
  | ret v => exact hw
  | act a k ih => exact fun r w' hexec => ih r (h w a r w' hw hexec)
  | spent => trivial

end Ensures

/-- Every run of the program alone that comes to its end has a result and a world that `Q` holds
of, and `stuck` is what it is worth if a retry loop uses all its rounds: with `False` no run
does. -/
def Settles (exec : W → (a : A) → R a → W → Prop) (stuck : Prop) (Q : α → W → Prop) :
    Prog A R α → W → Prop
  | .ret v, w => Q v w
  | .act a k, w => ∀ r w', exec w a r w' → (k r).Settles exec stuck Q w'
  | .spent, _ => stuck

section Settles

variable {exec : W → (a : A) → R a → W → Prop} {stuck : Prop} {Q Q' : α → W → Prop}
  {p : Prog A R α} {w w' : W} {v : α}

theorem Settles.bind {Q' : β → W → Prop} {f : α → Prog A R β} (hp : p.Settles exec stuck Q w)
    (hf : ∀ v w, Q v w → (f v).Settles exec stuck Q' w) : (p >>= f).Settles exec stuck Q' w := by
  induction p generalizing w with
  | ret v => exact hf v w hp
  | act a k ih => exact fun r w' hexec => ih r (hp r w' hexec)
  | spent => exact hp

theorem Settles.mono (hp : p.Settles exec stuck Q w) (h : ∀ v w, Q v w → Q' v w) :
    p.Settles exec stuck Q' w := by
  induction p generalizing w with
  | ret v => exact h v w hp
  | act a k ih => exact fun r w' hexec => ih r (hp r w' hexec)
  | spent => exact hp

theorem Settles.runs (hp : p.Settles exec stuck Q w) (hrun : p.Runs exec v w w') : Q v w' := by
  induction hrun with
  | ret => exact hp
  | act hexec _ ih => exact ih (hp _ _ hexec)

/-- A program that never runs out of rounds returns in a world that answers. -/
theorem Settles.returns (hp : p.Settles exec False Q w)
    (hanswer : ∀ w a, ∃ r w', exec w a r w') : ∃ v w', p.Runs exec v w w' := by
  induction p generalizing w with
  | ret v => exact ⟨v, w, .ret⟩
  | act a k ih =>
    obtain ⟨r, w₁, hexec⟩ := hanswer w a
    obtain ⟨v, w', hrun⟩ := ih r (hp r w₁ hexec)
    exact ⟨v, w', .act hexec hrun⟩
  | spent => exact hp.elim

/-- What follows a run of the first program settles from where the run has come to. -/
theorem Settles.after {Q' : β → W → Prop} {f : α → Prog A R β}
    (h : (p >>= f).Settles exec stuck Q' w) (hrun : p.Runs exec v w w') :
    (f v).Settles exec stuck Q' w' := by
  induction hrun with
  | ret => exact h
  | act hexec _ ih => exact ih (h _ _ hexec)

end Settles

/-- A program over a lower level keeps a protocol of that level if the program of each of its
operations leads from a state that `P` holds of to another. -/
theorem Yields.follows_handle {Z : Type} {allowed : Y → B → Prop} {next : Y → (b : B) → S b → Y}
    {ψ : A → Prop} {φ : α → Prop} {h : (a : A) → Z → Prog B S (R a × Z)} {p : Prog A R α}
    (P : Y → Prop) (hp : p.Yields ψ φ)
    (hh : ∀ a z y, ψ a → P y → (h a z).Follows allowed next (fun _ y' => P y') y) {z : Z} {y : Y}
    (hy : P y) : (p.handle h z).Follows allowed next (fun r y' => φ r.1 ∧ P y') y := by
  induction p generalizing z y with
  | ret v => exact ⟨hp, hy⟩
  | act a k ih => exact (hh a z y hp.1 hy).bind fun r y' hr => ih r.1 (hp.2 r.1) hr
  | spent => trivial

/-- A program over a lower level that keeps a protocol guarantees what the program of each of
its operations does; `Rel` tells how the protocol, the state between the operations and the
world belong together. -/
theorem Follows.ensures_handle {exec : W → (b : B) → S b → W → Prop} {allowed : X → A → Prop}
    {next : X → (a : A) → R a → X} {φ : α → X → Prop} {h : (a : A) → Y → Prog B S (R a × Y)}
    {Rel : X → Y → W → Prop} {p : Prog A R α} {x : X} {y : Y} {w : W}
    (hp : p.Follows allowed next φ x)
    (hh : ∀ x y w a, Rel x y w → allowed x a →
      (h a y).Ensures exec (fun r w' => Rel (next x a r.1) r.2 w') w)
    (hw : Rel x y w) :
    (p.handle h y).Ensures exec (fun r w' => ∃ x', φ r.1 x' ∧ Rel x' r.2 w') w := by
  induction p generalizing x y w with
  | ret v => exact ⟨x, hp, hw⟩
  | act a k ih =>
    exact (hh x y w a hw hp.1).bind fun r w' hr => ih r.1 (hp.2 r.1) hr
  | spent => trivial

end Prog

/-- The world with a record of the operations and their answers, the latest first. -/
def recorded (exec : W → (a : A) → R a → W → Prop) :
    W × List (Σ a, R a) → (a : A) → R a → W × List (Σ a, R a) → Prop :=
  fun x a r y => exec x.1 a r y.1 ∧ y.2 = ⟨a, r⟩ :: x.2

/-- A world that answers by itself, with the record. -/
def recordedAnswer (answer : W → (a : A) → R a × W) (x : W × List (Σ a, R a)) (a : A) :
    R a × (W × List (Σ a, R a)) :=
  ((answer x.1 a).1, (answer x.1 a).2, ⟨a, (answer x.1 a).1⟩ :: x.2)

theorem recorded_answer {exec : W → (a : A) → R a → W → Prop} {answer : W → (a : A) → R a × W}
    (h : ∀ w a, exec w a (answer w a).1 (answer w a).2) (x : W × List (Σ a, R a)) (a : A) :
    recorded exec x a (recordedAnswer answer x a).1 (recordedAnswer answer x a).2 :=
  ⟨h x.1 a, rfl⟩

theorem ensures_recorded {exec : W → (a : A) → R a → W → Prop} {e : Σ a, R a}
    {x : W × List (Σ a, R a)} (p : Prog A R α) (hx : e ∈ x.2) :
    p.Ensures (recorded exec) (fun _ y => e ∈ y.2) x := by
  refine Prog.ensures_of_keeps ?_ p hx
  intro x a r y hx hexec
  rw [hexec.2]
  exact List.mem_cons_of_mem _ hx

end Concurrency

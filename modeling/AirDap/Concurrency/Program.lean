import Mathlib.Data.Nat.Notation
import Mathlib.Logic.Relation

/-! Sequential programs over a set of atomic operations. A program is the tree of
operations it performs; everything between two operations is computed by the
continuation and takes no step of its own. -/
namespace Concurrency

variable {A B : Type} {R : A → Type} {S : B → Type} {W X α β γ : Type}

/-- `act a k` performs the atomic operation `a` and continues with its answer.
`spent` is a retry loop that has used all the rounds it was given: the program
takes no further step. -/
inductive Prog (A : Type) (R : A → Type) (α : Type) where
  | ret (v : α)
  | act (a : A) (k : R a → Prog A R α)
  | spent

namespace Prog

def bind : Prog A R α → (α → Prog A R β) → Prog A R β
  | .ret v, f => f v
  | .act a k, f => .act a fun r => (k r).bind f
  | .spent, _ => .spent

instance : Monad (Prog A R) where
  pure := .ret
  bind := bind

@[simp] theorem pure_eq (v : α) : (pure v : Prog A R α) = .ret v := rfl

@[simp] theorem ret_bind (v : α) (f : α → Prog A R β) : (Prog.ret v >>= f) = f v := rfl

@[simp] theorem act_bind (a : A) (k : R a → Prog A R α) (f : α → Prog A R β) :
    (Prog.act a k >>= f) = .act a fun r => k r >>= f := rfl

@[simp] theorem spent_bind (f : α → Prog A R β) : ((.spent : Prog A R α) >>= f) = .spent := rfl

@[simp] theorem bind_assoc (p : Prog A R α) (f : α → Prog A R β) (g : β → Prog A R γ) :
    (p >>= f >>= g) = p >>= fun v => f v >>= g := by
  induction p with
  | ret v => rfl
  | act a k ih =>
    simp only [act_bind]
    exact congrArg _ (funext ih)
  | spent => rfl

@[simp] theorem bind_ret (p : Prog A R α) : (p >>= fun v => .ret v) = p := by
  induction p with
  | ret v => rfl
  | act a k ih =>
    simp only [act_bind]
    exact congrArg _ (funext ih)
  | spent => rfl

/-- The program with each operation carried out by a program of a lower level, which keeps
a state of type `X` between them. -/
def handle (h : (a : A) → X → Prog B S (R a × X)) : Prog A R α → X → Prog B S (α × X)
  | .ret v, x => .ret (v, x)
  | .act a k, x => h a x >>= fun r => (k r.1).handle h r.2
  | .spent, _ => .spent

theorem handle_bind (h : (a : A) → X → Prog B S (R a × X)) (p : Prog A R α)
    (f : α → Prog A R β) (x : X) :
    (p >>= f).handle h x = p.handle h x >>= fun r => (f r.1).handle h r.2 := by
  induction p generalizing x with
  | ret v => rfl
  | act a k ih => simp [handle, ih]
  | spent => rfl

theorem handle_act (h : (a : A) → X → Prog B S (R a × X)) (a : A) (x : X) :
    (Prog.act a .ret).handle h x = h a x := bind_ret _

/-- The program alone, with its operations answered by their positions in the run: the
result and the operations that were performed. -/
def play (answer : ℕ → (a : A) → R a) : Prog A R α → ℕ → Option α × List A
  | .ret v, _ => (some v, [])
  | .act a k, n =>
    let rest := (k (answer n a)).play answer (n + 1)
    (rest.1, a :: rest.2)
  | .spent, _ => (none, [])

theorem play_bind (answer : ℕ → (a : A) → R a) (p : Prog A R α) (f : α → Prog A R β) (n : ℕ) :
    (p >>= f).play answer n =
      match (p.play answer n).1 with
      | none => (none, (p.play answer n).2)
      | some v =>
        (((f v).play answer (n + (p.play answer n).2.length)).1,
          (p.play answer n).2 ++ ((f v).play answer (n + (p.play answer n).2.length)).2) := by
  induction p generalizing n with
  | ret v => simp [play]
  | act a k ih =>
    simp only [act_bind, play, ih]
    cases ((k (answer n a)).play answer (n + 1)).1 with
    | none => rfl
    | some v => simp [Nat.add_assoc, Nat.add_comm]
  | spent => rfl

/-- Every run of the program comes to its end, with a value that `φ` holds of and by
operations that `ψ` holds of. -/
def Yields (ψ : A → Prop) (φ : α → Prop) : Prog A R α → Prop
  | .ret v => φ v
  | .act a k => ψ a ∧ ∀ r, (k r).Yields ψ φ
  | .spent => False

section Yields

variable {ψ ψ' : A → Prop} {χ : B → Prop} {φ φ' : α → Prop} {p : Prog A R α}

theorem Yields.mono (hp : p.Yields ψ φ) (hψ : ∀ a, ψ a → ψ' a) (hφ : ∀ v, φ v → φ' v) :
    p.Yields ψ' φ' := by
  induction p with
  | ret v => exact hφ v hp
  | act a k ih => exact ⟨hψ a hp.1, fun r => ih r (hp.2 r)⟩
  | spent => exact hp

theorem Yields.bind {φ' : β → Prop} {f : α → Prog A R β} (hp : p.Yields ψ φ)
    (hf : ∀ v, φ v → (f v).Yields ψ φ') : (p >>= f).Yields ψ φ' := by
  induction p with
  | ret v => exact hf v hp
  | act a k ih => exact ⟨hp.1, fun r => ih r (hp.2 r)⟩
  | spent => exact hp

theorem Yields.bind_congr {f g : α → Prog A R β} (hp : p.Yields ψ φ) (h : ∀ v, φ v → f v = g v) :
    p >>= f = p >>= g := by
  induction p with
  | ret v => exact h v hp
  | act a k ih =>
    rw [act_bind, act_bind]
    exact congrArg _ (funext fun r => ih r (hp.2 r))
  | spent => rfl

theorem yields_ite {c : Prop} [Decidable c] {q : Prog A R α} (hp : c → p.Yields ψ φ)
    (hq : ¬ c → q.Yields ψ φ) : (if c then p else q).Yields ψ φ := by
  split
  · exact hp ‹_›
  · exact hq ‹_›

/-- An early return. -/
theorem yields_guard {c : Prop} [Decidable c] {v : α} (hv : φ v) (hp : ¬ c → p.Yields ψ φ) :
    (if c then pure v else p).Yields ψ φ :=
  yields_ite (fun _ => hv) hp

theorem Yields.handle {h : (a : A) → X → Prog B S (R a × X)} (hp : p.Yields ψ φ)
    (hh : ∀ a x, ψ a → (h a x).Yields χ fun _ => True) (x : X) :
    (p.handle h x).Yields χ fun r => φ r.1 := by
  induction p generalizing x with
  | ret v => exact hp
  | act a k ih => exact (hh a x hp.1).bind fun r _ => ih r.1 (hp.2 r.1) r.2
  | spent => exact hp

theorem Yields.play (hp : p.Yields ψ φ) (answer : ℕ → (a : A) → R a) (n : ℕ) :
    ∃ v, (p.play answer n).1 = some v ∧ φ v := by
  induction p generalizing n with
  | ret v => exact ⟨v, rfl, hp⟩
  | act a k ih => exact ih _ (hp.2 _) (n + 1)
  | spent => exact hp.elim

end Yields

/-- The program performs the operations of the list with the answers beside them, and returns
`v`. -/
def Traces : Prog A R α → List (Sigma R) → α → Prop
  | .ret v, events, u => events = [] ∧ u = v
  | .act a k, events, u => ∃ r rest, events = ⟨a, r⟩ :: rest ∧ (k r).Traces rest u
  | .spent, _, _ => False

section Traces

variable {p : Prog A R α} {f : α → Prog A R β} {events : List (Sigma R)} {v : α} {u : β}

theorem traces_bind : (p >>= f).Traces events u ↔
    ∃ first v rest, events = first ++ rest ∧ p.Traces first v ∧ (f v).Traces rest u := by
  induction p generalizing events with
  | ret w =>
    constructor
    · exact fun h => ⟨[], w, events, rfl, ⟨rfl, rfl⟩, h⟩
    · rintro ⟨first, v, rest, rfl, ⟨rfl, rfl⟩, hrest⟩
      exact hrest
  | act a k ih =>
    constructor
    · rintro ⟨r, rest, rfl, hrest⟩
      obtain ⟨first, v, rest, rfl, hfirst, hrest⟩ := (ih r).mp hrest
      exact ⟨⟨a, r⟩ :: first, v, rest, rfl, ⟨r, first, rfl, hfirst⟩, hrest⟩
    · rintro ⟨_, v, rest, rfl, ⟨r, first, rfl, hfirst⟩, hrest⟩
      exact ⟨r, first ++ rest, rfl, (ih r).mpr ⟨first, v, rest, rfl, hfirst, hrest⟩⟩
  | spent =>
    constructor
    · exact fun h => h.elim
    · rintro ⟨_, _, _, _, h, _⟩
      exact h.elim

theorem Yields.traces {ψ : A → Prop} {φ : α → Prop} (hp : p.Yields ψ φ)
    (h : p.Traces events v) : (∀ e ∈ events, ψ e.1) ∧ φ v := by
  induction p generalizing events with
  | ret w =>
    obtain ⟨rfl, rfl⟩ := h
    exact ⟨fun _ h => (by cases h), hp⟩
  | act a k ih =>
    obtain ⟨r, rest, rfl, hrest⟩ := h
    obtain ⟨hevents, hv⟩ := ih r (hp.2 r) hrest
    exact ⟨List.forall_mem_cons.mpr ⟨hp.1, hevents⟩, hv⟩
  | spent => exact h.elim

end Traces

/-- `φ a k` holds at every operation of the program, where `k` is what follows it. -/
def Everywhere (φ : (a : A) → (R a → Prog A R α) → Prop) : Prog A R α → Prop
  | .ret _ => True
  | .act a k => φ a k ∧ ∀ r, (k r).Everywhere φ
  | .spent => True

theorem everywhere_of_forall {φ : (a : A) → (R a → Prog A R α) → Prop} (h : ∀ a k, φ a k)
    (p : Prog A R α) : p.Everywhere φ := by
  induction p with
  | ret v => trivial
  | act a k ih => exact ⟨h a k, ih⟩
  | spent => trivial

theorem everywhere_ite {φ : (a : A) → (R a → Prog A R α) → Prop} {c : Prop} [Decidable c]
    {p q : Prog A R α} (hp : c → p.Everywhere φ) (hq : ¬ c → q.Everywhere φ) :
    (if c then p else q).Everywhere φ := by
  split
  · exact hp ‹_›
  · exact hq ‹_›

section Everywhere

variable {ψ : A → Prop} {p : Prog A R α} {f : α → Prog A R β}

theorem everywhere_guard {φ : (a : A) → (R a → Prog A R α) → Prop} {c : Prop} [Decidable c] {v : α}
    (hp : ¬ c → p.Everywhere φ) : (if c then pure v else p).Everywhere φ :=
  everywhere_ite (fun _ => trivial) hp

theorem everywhere_bind (hp : p.Everywhere fun a _ => ψ a)
    (hf : ∀ v, (f v).Everywhere fun a _ => ψ a) : (p >>= f).Everywhere fun a _ => ψ a := by
  induction p with
  | ret v => exact hf v
  | act a k ih => exact ⟨hp.1, fun r => ih r (hp.2 r)⟩
  | spent => trivial

theorem everywhere_of_bind (h : (p >>= f).Everywhere fun a _ => ψ a) :
    p.Everywhere fun a _ => ψ a := by
  induction p with
  | ret v => trivial
  | act a k ih => exact ⟨h.1, fun r => ih r (h.2 r)⟩
  | spent => trivial

end Everywhere

/-- The program keeps a protocol with states `X`: in the state `x` it performs only operations
that are allowed there, `next` is the state after the answer, and `φ` holds of the result and
the last state. -/
def Follows (allowed : X → A → Prop) (next : X → (a : A) → R a → X) (φ : α → X → Prop) :
    Prog A R α → X → Prop
  | .ret v, x => φ v x
  | .act a k, x => allowed x a ∧ ∀ r, (k r).Follows allowed next φ (next x a r)
  | .spent, _ => True

section Follows

variable {allowed : X → A → Prop} {next : X → (a : A) → R a → X} {φ : α → X → Prop}
  {p : Prog A R α} {x : X}

theorem Follows.bind {φ' : β → X → Prop} {f : α → Prog A R β} (hp : p.Follows allowed next φ x)
    (hf : ∀ v x, φ v x → (f v).Follows allowed next φ' x) :
    (p >>= f).Follows allowed next φ' x := by
  induction p generalizing x with
  | ret v => exact hf v x hp
  | act a k ih => exact ⟨hp.1, fun r => ih r (hp.2 r)⟩
  | spent => trivial

theorem follows_act {a : A} {k : R a → Prog A R α} (ha : allowed x a)
    (hk : ∀ r, (k r).Follows allowed next φ (next x a r)) :
    ((Prog.act a .ret : Prog A R (R a)) >>= k).Follows allowed next φ x := ⟨ha, hk⟩

theorem follows_ite {c : Prop} [Decidable c] {q : Prog A R α}
    (hp : c → p.Follows allowed next φ x) (hq : ¬ c → q.Follows allowed next φ x) :
    (if c then p else q).Follows allowed next φ x := by
  split
  · exact hp ‹_›
  · exact hq ‹_›

theorem follows_guard {c : Prop} [Decidable c] {v : α} (hv : φ v x)
    (hp : ¬ c → p.Follows allowed next φ x) :
    (if c then pure v else p).Follows allowed next φ x :=
  follows_ite (fun _ => hv) hp

theorem Follows.mono {φ' : α → X → Prop} (hp : p.Follows allowed next φ x)
    (h : ∀ v x, φ v x → φ' v x) : p.Follows allowed next φ' x := by
  induction p generalizing x with
  | ret v => exact h v x hp
  | act a k ih => exact ⟨hp.1, fun r => ih r (hp.2 r)⟩
  | spent => trivial

end Follows

/-- The program alone takes the world `w` to `w'` and returns `v`. -/
inductive Runs (exec : W → (a : A) → R a → W → Prop) (v : α) : W → Prog A R α → W → Prop
  | ret {w : W} : Runs exec v w (.ret v) w
  | act {w w₁ w' : W} {a : A} {r : R a} {k : R a → Prog A R α} (hexec : exec w a r w₁)
      (hk : Runs exec v w₁ (k r) w') : Runs exec v w (.act a k) w'

/-- Every run of the program alone keeps `P`. -/
def Keeps (exec : W → (a : A) → R a → W → Prop) (P : W → Prop) (p : Prog A R α) : Prop :=
  ∀ v w w', P w → Runs exec v w p w' → P w'

/-- The program alone, in a world that answers by itself, comes to its end with a result and a
world that `Q` holds of. -/
def Ends (answer : W → (a : A) → R a × W) (Q : α → W → Prop) : Prog A R α → W → Prop
  | .ret v, w => Q v w
  | .act a k, w => (k (answer w a).1).Ends answer Q (answer w a).2
  | .spent, _ => False

instance Ends.decidable (answer : W → (a : A) → R a × W) (Q : α → W → Prop)
    [∀ v w, Decidable (Q v w)] : (p : Prog A R α) → (w : W) → Decidable (p.Ends answer Q w)
  | .ret v, w => inferInstanceAs (Decidable (Q v w))
  | .act a k, w => Ends.decidable answer Q (k (answer w a).1) (answer w a).2
  | .spent, _ => isFalse id

/-- The run of the program alone in a world whose answers are given, if it comes to its end. -/
def alone (answer : W → (a : A) → Option (R a × W)) : Prog A R α → W → Option (α × W)
  | .ret v, w => some (v, w)
  | .act a k, w => (answer w a).bind fun r => (k r.1).alone answer r.2
  | .spent, _ => none

section Runs

variable {exec : W → (a : A) → R a → W → Prop} {P : W → Prop} {w w₁ w' : W} {p : Prog A R α}
  {f : α → Prog A R β} {v : α} {u : β}

theorem Runs.of_bind (h : (p >>= f).Runs exec u w w') :
    ∃ v w₁, p.Runs exec v w w₁ ∧ (f v).Runs exec u w₁ w' := by
  induction p generalizing w with
  | ret v => exact ⟨v, w, .ret, h⟩
  | act a k ih =>
    cases h with
    | act hexec hk =>
      obtain ⟨v, w₁, hp, hf⟩ := ih _ hk
      exact ⟨v, w₁, .act hexec hp, hf⟩
  | spent => cases h

theorem runs_ret_iff {v' : α} : (Prog.ret v').Runs exec v w w' ↔ v = v' ∧ w' = w := by
  constructor
  · rintro ⟨⟩
    exact ⟨rfl, rfl⟩
  · rintro ⟨rfl, rfl⟩
    exact .ret

theorem runs_act_iff {a : A} {k : R a → Prog A R α} :
    (Prog.act a k).Runs exec v w w' ↔ ∃ r w₁, exec w a r w₁ ∧ (k r).Runs exec v w₁ w' := by
  constructor
  · intro h
    cases h with
    | act hexec hk => exact ⟨_, _, hexec, hk⟩
  · rintro ⟨r, w₁, hexec, hk⟩
    exact .act hexec hk

theorem runs_of_alone {answer : W → (a : A) → Option (R a × W)}
    (hanswer : ∀ w a r, answer w a = some r → exec w a r.1 r.2)
    (h : p.alone answer w = some (v, w')) : p.Runs exec v w w' := by
  induction p generalizing w with
  | ret v =>
    cases h
    exact .ret
  | act a k ih =>
    obtain ⟨r, hr, hrest⟩ := Option.bind_eq_some_iff.mp h
    exact .act (hanswer w a r hr) (ih r.1 hrest)
  | spent => cases h

section Ends

variable {answer : W → (a : A) → R a × W} {Q : α → W → Prop} {Q' : β → W → Prop}

theorem Ends.bind (hp : p.Ends answer Q w) (hf : ∀ v w, Q v w → (f v).Ends answer Q' w) :
    (p >>= f).Ends answer Q' w := by
  induction p generalizing w with
  | ret v => exact hf v w hp
  | act a k ih => exact ih _ hp
  | spent => exact hp.elim

theorem ends_guard {c : Prop} [Decidable c] {v : α} (hv : Q v w) (hp : ¬ c → p.Ends answer Q w) :
    (if c then pure v else p).Ends answer Q w := by
  split
  · exact hv
  · exact hp ‹_›

theorem Ends.runs (hp : p.Ends answer Q w)
    (hanswer : ∀ w a, exec w a (answer w a).1 (answer w a).2) :
    ∃ v w', p.Runs exec v w w' ∧ Q v w' := by
  induction p generalizing w with
  | ret v => exact ⟨v, w, .ret, hp⟩
  | act a k ih =>
    obtain ⟨v, w', hrun, hQ⟩ := ih _ hp
    exact ⟨v, w', .act (hanswer w a) hrun, hQ⟩
  | spent => exact hp.elim

end Ends

theorem keeps_ret : (Prog.ret v : Prog A R α).Keeps exec P := by
  intro v w w' hw h
  cases h
  exact hw

theorem keeps_act {a : A} {k : R a → Prog A R α}
    (h : ∀ w r w₁, P w → exec w a r w₁ → P w₁ ∧ (k r).Keeps exec P) :
    (Prog.act a k).Keeps exec P := by
  intro v w w' hw hrun
  cases hrun with
  | act hexec hk =>
    obtain ⟨hw₁, hkeeps⟩ := h _ _ _ hw hexec
    exact hkeeps _ _ _ hw₁ hk

theorem Keeps.bind (hp : p.Keeps exec P) (hf : ∀ v, (f v).Keeps exec P) :
    (p >>= f).Keeps exec P := by
  intro u w w' hw h
  obtain ⟨v, w₁, hrun, hrest⟩ := h.of_bind
  exact hf v _ _ _ (hp _ _ _ hw hrun) hrest

theorem keeps_guard {c : Prop} [Decidable c] {v : α} (hp : ¬ c → p.Keeps exec P) :
    (if c then pure v else p).Keeps exec P := by
  split
  · exact keeps_ret
  · exact hp ‹_›

/-- A program that keeps a protocol keeps what every operation of the protocol keeps. -/
theorem Follows.keeps {allowed : X → A → Prop} {next : X → (a : A) → R a → X}
    {φ : α → X → Prop} {x : X} (hp : p.Follows allowed next φ x)
    (h : ∀ x a w r w₁, allowed x a → P w → exec w a r w₁ → P w₁) : p.Keeps exec P := by
  induction p generalizing x with
  | ret v => exact keeps_ret
  | act a k ih => exact keeps_act fun w r w₁ hw hexec => ⟨h x a w r w₁ hp.1 hw hexec, ih r (hp.2 r)⟩
  | spent => intro v w w' _ hrun; cases hrun

/-- A program over a lower level keeps what the program of each of its operations keeps. -/
theorem Yields.keeps_handle {exec : W → (b : B) → S b → W → Prop} {ψ : A → Prop} {φ : α → Prop}
    {h : (a : A) → X → Prog B S (R a × X)} (hp : p.Yields ψ φ)
    (hh : ∀ a x, ψ a → (h a x).Keeps exec P) (x : X) : (p.handle h x).Keeps exec P := by
  induction p generalizing x with
  | ret v => exact keeps_ret
  | act a k ih => exact (hh a x hp.1).bind fun r => ih r.1 (hp.2 r.1) r.2
  | spent => exact hp.elim

end Runs
end Prog
end Concurrency

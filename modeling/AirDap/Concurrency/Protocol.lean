import AirDap.Concurrency.Machine
import Mathlib.Data.Set.Card

/-! Invariants of machines whose calls keep a protocol. The position of a thread in the protocol
is read off the history, so an invariant may speak of the world and of the positions of all
threads, and it is enough to show that one operation that is allowed at the position of its
thread preserves it. -/
namespace Concurrency

variable {T A : Type} {R : A → Type} {W C : Type} {V : C → Type} {X : Type}

/-- `idle` is the position of a thread between its calls, and `start t c w` the one of thread
`t` that has made the call `c` in the world `w`. -/
structure Protocol (T A : Type) (R : A → Type) (W C X : Type) where
  idle : X
  start : T → C → W → X
  allowed : X → A → Prop
  next : X → (a : A) → R a → X

namespace Protocol

variable [DecidableEq T] (P : Protocol T A R W C X)

/-- Where thread `t` stands after a history. -/
def position (t : T) : List (Event T A R W C V) → X
  | [] => P.idle
  | .called u c w :: h => if u = t then P.start t c w else position t h
  | .acted u a r _ :: h => if u = t then P.next (position t h) a r else position t h
  | .returned u _ _ :: h => if u = t then P.idle else position t h

variable {P} {t u : T} {c : C} {w : W} {h : List (Event T A R W C V)} {a : A} {r : R a} {v : V c}

@[simp] theorem position_called_self : P.position t (.called t c w :: h) = P.start t c w :=
  if_pos rfl

@[simp] theorem position_acted_self :
    P.position t (.acted t a r w :: h) = P.next (P.position t h) a r := if_pos rfl

@[simp] theorem position_returned_self : P.position t (.returned t c v :: h) = P.idle := if_pos rfl

theorem position_of_ne {e : Event T A R W C V} (he : e.thread ≠ t) :
    P.position t (e :: h) = P.position t h := by
  cases e <;> exact if_neg he

theorem position_called_of_ne (hu : t ≠ u) :
    P.position u (.called t c w :: h) = P.position u h := if_neg hu

theorem position_acted_of_ne (hu : t ≠ u) :
    P.position u (.acted t a r w :: h) = P.position u h := if_neg hu

theorem position_returned_of_ne (hu : t ≠ u) :
    P.position u (.returned t c v :: h) = P.position u h := if_neg hu

/-- A position that only calls of a kind start in tells that the last call is of that kind. -/
theorem lastCall_of_kind (kind : X → Prop) (ψ : C → Prop) (hidle : ¬ kind P.idle)
    (hstart : ∀ t c w, kind (P.start t c w) → ψ c)
    (hnext : ∀ x a r, kind (P.next x a r) → kind x) (ht : kind (P.position t h)) :
    ∃ c w, lastCall t h = some (c, w) ∧ ψ c := by
  induction h with
  | nil => exact absurd ht hidle
  | cons e h ih =>
    by_cases he : e.thread = t
    · subst he
      cases e with
      | called u c w =>
        simp only [Event.thread, position_called_self] at ht
        exact ⟨c, w, by simp [lastCall, Event.thread], hstart _ _ _ ht⟩
      | acted u a r w =>
        simp only [Event.thread, position_acted_self] at ht
        exact ih (hnext _ _ _ ht)
      | returned u c v =>
        simp only [Event.thread, position_returned_self] at ht
        exact absurd ht hidle
    · rw [position_of_ne he] at ht
      rw [lastCall_of_ne he]
      exact ih ht

/-- A position that tells the call of its thread tells the last one. -/
theorem lastCall_of_label (label : X → Option C) (hidle : label P.idle = none)
    (hstart : ∀ t c w, label (P.start t c w) = some c)
    (hnext : ∀ x a r, label (P.next x a r) = label x) (hc : label (P.position t h) = some c) :
    ∃ w, lastCall t h = some (c, w) := by
  have hkind := lastCall_of_kind (P := P) (t := t) (h := h) (fun x => label x = some c)
    (fun c' => c' = c) (by simp [hidle]) (fun t c' w => by simp [hstart])
    (fun x a r => by simp [hnext]) hc
  obtain ⟨c', w, hlast, rfl⟩ := hkind
  exact ⟨w, hlast⟩

/-- A position that is reached only by operations of a kind tells that the call has performed
one. -/
theorem acted_of_position (reached : X → Prop) (ψ : (a : A) → R a → Prop)
    (hidle : ¬ reached P.idle) (hstart : ∀ t c w, ¬ reached (P.start t c w))
    (hnext : ∀ x a r, reached (P.next x a r) → reached x ∨ ψ a r)
    (ht : reached (P.position t h)) : ∃ a r w, .acted t a r w ∈ sinceCall t h ∧ ψ a r := by
  induction h with
  | nil => exact absurd ht hidle
  | cons e h ih =>
    by_cases he : e.thread = t
    · subst he
      cases e with
      | called u c' w =>
        simp only [Event.thread, position_called_self] at ht
        exact absurd ht (hstart _ _ _)
      | acted u a r w =>
        simp only [Event.thread, position_acted_self] at ht
        rcases hnext _ a r ht with ht | hψ
        · obtain ⟨a', r', w', hmem, hψ⟩ := ih ht
          exact ⟨a', r', w', List.mem_cons_of_mem _ hmem, hψ⟩
        · exact ⟨a, r, w, List.mem_cons_self .., hψ⟩
      | returned u c' v =>
        simp only [Event.thread, position_returned_self] at ht
        exact absurd ht hidle
    · rw [position_of_ne he] at ht
      rw [sinceCall_of_ne he]
      obtain ⟨a, r, w, hmem, hψ⟩ := ih ht
      exact ⟨a, r, w, List.mem_cons_of_mem _ hmem, hψ⟩

end Protocol

/-- `φ e h` held of every event `e` that was added to a history `h`. -/
def Always (φ : Event T A R W C V → List (Event T A R W C V) → Prop) :
    List (Event T A R W C V) → Prop
  | [] => True
  | e :: h => φ e h ∧ Always φ h

theorem Always.at {φ : Event T A R W C V → List (Event T A R W C V) → Prop}
    {later h : List (Event T A R W C V)} {e : Event T A R W C V}
    (hall : Always φ (later ++ e :: h)) : φ e h := by
  induction later with
  | nil => exact hall.1
  | cons _ _ ih => exact ih hall.2

section Population

variable [DecidableEq T] (P : Protocol T A R W C X) (φ : X → Prop) {t : T}
  {e : Event T A R W C V} {h : List (Event T A R W C V)}

/-- The threads whose positions `φ` holds of. -/
def Protocol.threads (h : List (Event T A R W C V)) : Set T := {t | φ (P.position t h)}

variable {P φ}

theorem Protocol.threads_same (hφ : φ (P.position e.thread (e :: h)) ↔ φ (P.position e.thread h)) :
    P.threads φ (e :: h) = P.threads φ h := by
  ext u
  by_cases hu : e.thread = u
  · subst hu
    exact hφ
  · simp only [threads, Set.mem_ofPred_eq, position_of_ne hu]

theorem Protocol.threads_enter (hbefore : ¬ φ (P.position e.thread h))
    (hafter : φ (P.position e.thread (e :: h))) :
    (P.threads φ (e :: h)).encard = (P.threads φ h).encard + 1 := by
  have hinsert : P.threads φ (e :: h) = insert e.thread (P.threads φ h) := by
    ext u
    by_cases hu : e.thread = u
    · subst hu
      simpa [threads] using hafter
    · simp [threads, position_of_ne hu, Ne.symm hu]
  rw [hinsert]
  exact Set.encard_insert_of_notMem hbefore

theorem Protocol.threads_leave (hbefore : φ (P.position e.thread h))
    (hafter : ¬ φ (P.position e.thread (e :: h))) :
    (P.threads φ h).encard = (P.threads φ (e :: h)).encard + 1 := by
  have hinsert : P.threads φ h = insert e.thread (P.threads φ (e :: h)) := by
    ext u
    by_cases hu : e.thread = u
    · subst hu
      simpa [threads] using hbefore
    · simp [threads, position_of_ne hu, Ne.symm hu]
  rw [hinsert]
  exact Set.encard_insert_of_notMem hafter

end Population

/-- Every call keeps the protocol; `φ t c v x` tells how the call `c` of `t` may return. -/
def Machine.Keeps (M : Machine T A R W C V) (P : Protocol T A R W C X)
    (φ : T → (c : C) → V c → X → Prop) : Prop :=
  ∀ t c w, M.may t c w → (M.code t c w).Follows P.allowed P.next (φ t c) (P.start t c w)

section Invariant

variable [DecidableEq T] {M : Machine T A R W C V} {P : Protocol T A R W C X}
  {φ : T → (c : C) → V c → X → Prop} {Inv : W → List (Event T A R W C V) → Prop}
  {σ σ' : Config T A R W C V}

/-- A thread at position `x` is between calls or in a program that keeps the protocol. -/
def Protocol.Stands (P : Protocol T A R W C X) (φ : T → (c : C) → V c → X → Prop) (t : T) (x : X) :
    Thread A R C V → Prop
  | .idle => x = P.idle
  | .busy c a k => (Prog.act a k).Follows P.allowed P.next (φ t c) x
  | .halted _ => True

/-- The invariant holds, and every thread keeps the protocol. -/
structure Protocol.Held (P : Protocol T A R W C X) (φ : T → (c : C) → V c → X → Prop)
    (Inv : W → List (Event T A R W C V) → Prop) (σ : Config T A R W C V) : Prop where
  inv : Inv σ.world σ.history
  thread : ∀ t, P.Stands φ t (P.position t σ.history) (σ.thread t)

/-- What one event has to preserve. -/
structure Protocol.Preserves (P : Protocol T A R W C X) (M : Machine T A R W C V)
    (φ : T → (c : C) → V c → X → Prop) (Inv : W → List (Event T A R W C V) → Prop) : Prop where
  called : ∀ ⦃w h t c⦄, Inv w h → P.position t h = P.idle → M.may t c w →
    Inv w (.called t c w :: h)
  acted : ∀ ⦃w h t a r w'⦄, Inv w h → P.allowed (P.position t h) a → M.exec t w a r w' →
    Inv w' (.acted t a r w :: h)
  returned : ∀ ⦃w h t c v⦄, Inv w h → φ t c v (P.position t h) →
    Inv (M.finish t c v w) (.returned t c v :: h)

theorem Protocol.held_settle (hp : P.Preserves M φ Inv) {t : T} {c : C} {w : W}
    {e : Event T A R W C V} {p : Prog A R (V c)} (he : e.thread = t) (hσ : P.Held φ Inv σ)
    (hinv : Inv w (e :: σ.history))
    (hfollows : p.Follows P.allowed P.next (φ t c) (P.position t (e :: σ.history))) :
    P.Held φ Inv (M.settle σ t c w (e :: σ.history) p) := by
  have hother {u : T} (hu : u ≠ t) : P.position u (e :: σ.history) = P.position u σ.history :=
    Protocol.position_of_ne fun h => hu (h.symm.trans he)
  cases p with
  | ret v =>
    refine ⟨hp.returned hinv hfollows, fun u => ?_⟩
    by_cases hu : u = t
    · subst hu
      simp [Machine.settle, Protocol.Stands]
    · simp only [Machine.settle, Function.update_of_ne hu]
      rw [Protocol.position_of_ne (Ne.symm hu), hother hu]
      exact hσ.thread u
  | act a k =>
    refine ⟨hinv, fun u => ?_⟩
    by_cases hu : u = t
    · subst hu
      simpa [Machine.settle, Protocol.Stands] using hfollows
    · simp only [Machine.settle, Function.update_of_ne hu, hother hu]
      exact hσ.thread u
  | spent =>
    refine ⟨hinv, fun u => ?_⟩
    by_cases hu : u = t
    · subst hu
      simp [Machine.settle, Protocol.Stands]
    · simp only [Machine.settle, Function.update_of_ne hu, hother hu]
      exact hσ.thread u

theorem Machine.Step.held (hkeeps : M.Keeps P φ) (hp : P.Preserves M φ Inv) {t : T}
    (h : M.Step σ t σ') (hσ : P.Held φ Inv σ) : P.Held φ Inv σ' := by
  have hstands := hσ.thread t
  cases h with
  | call idle may =>
    rw [idle] at hstands
    refine Protocol.held_settle hp rfl hσ (hp.called hσ.inv hstands may) ?_
    rw [Protocol.position_called_self]
    exact hkeeps _ _ _ may
  | act busy exec =>
    rw [busy] at hstands
    obtain ⟨hallowed, hrest⟩ := hstands
    refine Protocol.held_settle hp rfl hσ (hp.acted hσ.inv hallowed exec) ?_
    rw [Protocol.position_acted_self]
    exact hrest _

/-- An invariant that every allowed operation preserves holds in every run. -/
theorem Machine.Steps.held (hkeeps : M.Keeps P φ) (hp : P.Preserves M φ Inv)
    (h : M.Steps σ σ') (hσ : P.Held φ Inv σ) : P.Held φ Inv σ' := by
  induction h with
  | refl => exact hσ
  | tail _ hstep ih =>
    obtain ⟨t, hstep⟩ := hstep
    exact hstep.held hkeeps hp ih

theorem Protocol.held_start {w : W} (hinv : Inv w []) :
    P.Held φ Inv (Config.start w : Config T A R W C V) :=
  ⟨hinv, fun _ => rfl⟩

end Invariant
end Concurrency

import AirDap.Concurrency.Program
import Mathlib.Logic.Function.Basic

/-! Threads that run programs against one shared world. A step of a thread is one
atomic operation together with the local computation that follows it, up to the next
operation or the return of the call. -/
namespace Concurrency
open Function

variable {T A : Type} {R : A → Type} {W C : Type} {V : C → Type}

/-- What happened, newest first in a history. A call and an operation are recorded with
the world they found. -/
inductive Event (T A : Type) (R : A → Type) (W C : Type) (V : C → Type) where
  | called (t : T) (c : C) (w : W)
  | acted (t : T) (a : A) (r : R a) (w : W)
  | returned (t : T) (c : C) (v : V c)

def Event.thread : Event T A R W C V → T
  | .called t _ _ | .acted t _ _ _ | .returned t _ _ => t

/-- A thread is between calls, about to perform `a` inside a call, or stopped in a
retry loop without rounds left. -/
inductive Thread (A : Type) (R : A → Type) (C : Type) (V : C → Type) where
  | idle
  | busy (c : C) (a : A) (k : R a → Prog A R (V c))
  | halted (c : C)

/-- `exec t w a r w'`: thread `t` performs `a` in `w`, is answered `r` and leaves `w'`.
`finish` stores what a call returns in the memory of the caller. -/
structure Machine (T A : Type) (R : A → Type) (W C : Type) (V : C → Type) where
  may : T → C → W → Prop
  code : T → (c : C) → W → Prog A R (V c)
  exec : T → W → (a : A) → R a → W → Prop
  finish : T → (c : C) → V c → W → W

/-- The call that thread `t` made last, with the world it was made in. -/
def lastCall [DecidableEq T] (t : T) : List (Event T A R W C V) → Option (C × W)
  | [] => none
  | .called u c w :: h => if u = t then some (c, w) else lastCall t h
  | _ :: h => lastCall t h

theorem lastCall_of_ne [DecidableEq T] {t : T} {e : Event T A R W C V}
    {h : List (Event T A R W C V)} (he : e.thread ≠ t) : lastCall t (e :: h) = lastCall t h := by
  cases e with
  | called u c w => exact if_neg he
  | _ => rfl

/-- What happened since thread `t` made its last call. -/
def sinceCall [DecidableEq T] (t : T) : List (Event T A R W C V) → List (Event T A R W C V)
  | [] => []
  | .called u c w :: h => if u = t then [] else .called u c w :: sinceCall t h
  | e :: h => e :: sinceCall t h

theorem sinceCall_of_ne [DecidableEq T] {t : T} {e : Event T A R W C V}
    {h : List (Event T A R W C V)} (he : e.thread ≠ t) :
    sinceCall t (e :: h) = e :: sinceCall t h := by
  cases e with
  | called u c w => exact if_neg he
  | acted => rfl
  | returned => rfl

structure Config (T A : Type) (R : A → Type) (W C : Type) (V : C → Type) where
  world : W
  history : List (Event T A R W C V)
  thread : T → Thread A R C V

/-- No call has been made yet. -/
def Config.start (w : W) : Config T A R W C V := ⟨w, [], fun _ => .idle⟩

/-- The last thing that happened is that the call `c` of `t` returned `v`. -/
def Config.Returned (σ : Config T A R W C V) (t : T) (c : C) (v : V c) : Prop :=
  ∃ h, σ.history = .returned t c v :: h

namespace Machine

variable [DecidableEq T] (M : Machine T A R W C V)

/-- Park thread `t` of `σ` at the next operation of its program, or let its call return. -/
def settle (σ : Config T A R W C V) (t : T) (c : C) (w : W)
    (h : List (Event T A R W C V)) : Prog A R (V c) → Config T A R W C V
  | .ret v => ⟨M.finish t c v w, .returned t c v :: h, update σ.thread t .idle⟩
  | .act a k => ⟨w, h, update σ.thread t (.busy c a k)⟩
  | .spent => ⟨w, h, update σ.thread t (.halted c)⟩

inductive Step : Config T A R W C V → T → Config T A R W C V → Prop
  | call {σ : Config T A R W C V} {t : T} {c : C} (idle : σ.thread t = .idle)
      (may : M.may t c σ.world) :
      Step σ t (M.settle σ t c σ.world (.called t c σ.world :: σ.history) (M.code t c σ.world))
  | act {σ : Config T A R W C V} {t : T} {c : C} {a : A} {k : R a → Prog A R (V c)}
      {r : R a} {w : W} (busy : σ.thread t = .busy c a k) (exec : M.exec t σ.world a r w) :
      Step σ t (M.settle σ t c w (.acted t a r σ.world :: σ.history) (k r))

/-- Any number of steps of any threads, in any order. -/
def Steps : Config T A R W C V → Config T A R W C V → Prop :=
  Relation.ReflTransGen fun σ σ' => ∃ t, M.Step σ t σ'

variable {M} in
theorem Step.thread_of_ne {σ σ' : Config T A R W C V} {t u : T} (h : M.Step σ u σ')
    (hu : t ≠ u) : σ'.thread t = σ.thread t := by
  have hsettle (c : C) (w : W) (h : List (Event T A R W C V)) (p : Prog A R (V c)) :
      (M.settle σ u c w h p).thread t = σ.thread t := by
    cases p <;> simp [settle, update_of_ne hu]
  cases h with
  | call => exact hsettle ..
  | act => exact hsettle ..

variable {M} in
theorem Step.returned {σ σ' : Config T A R W C V} {t u : T} {c : C} {v : V c}
    (h : M.Step σ u σ') (hret : σ'.Returned t c v) : u = t := by
  obtain ⟨history, hret⟩ := hret
  have hsettle (c' : C) (w : W) (e : Event T A R W C V) (p : Prog A R (V c')) (he : e.thread = u)
      (hp : (M.settle σ u c' w (e :: σ.history) p).history = .returned t c v :: history) :
      u = t := by
    cases p with
    | ret v' => exact congrArg Event.thread (List.cons.inj hp).1
    | act a k => exact he.symm.trans (congrArg Event.thread (List.cons.inj hp).1)
    | spent => exact he.symm.trans (congrArg Event.thread (List.cons.inj hp).1)
  cases h with
  | call => exact hsettle _ _ _ _ rfl hret
  | act => exact hsettle _ _ _ _ rfl hret

/-- Every thread of `σ` is in a program of its call that satisfies `φ` everywhere. -/
def Along (φ : T → (c : C) → (a : A) → (R a → Prog A R (V c)) → Prop)
    (σ : Config T A R W C V) : Prop :=
  ∀ ⦃t c a k⦄, σ.thread t = .busy c a k → (Prog.act a k).Everywhere (φ t c)

variable {M} {φ : T → (c : C) → (a : A) → (R a → Prog A R (V c)) → Prop}
  {σ σ' : Config T A R W C V}

theorem settle_along (hσ : Along φ σ) {t : T} {c : C} {w : W} {h : List (Event T A R W C V)}
    {p : Prog A R (V c)} (hp : p.Everywhere (φ t c)) : Along φ (M.settle σ t c w h p) := by
  intro u c' a' k' hu
  by_cases hut : u = t
  · subst hut
    cases p with
    | ret v => simp [settle] at hu
    | act a k =>
      simp only [settle, update_self, Thread.busy.injEq] at hu
      obtain ⟨rfl, rfl, hk⟩ := hu
      cases hk
      exact hp
    | spent => simp [settle] at hu
  · cases p <;> exact hσ (by simpa [settle, update_of_ne hut] using hu)

theorem Step.along (hφ : ∀ t c w, (M.code t c w).Everywhere (φ t c)) {t : T}
    (h : M.Step σ t σ') (hσ : Along φ σ) : Along φ σ' := by
  cases h with
  | call idle may => exact settle_along hσ (hφ _ _ _)
  | act busy exec => exact settle_along hσ ((hσ busy).2 _)

/-- What the code of every call says at each of its operations holds in every run. -/
theorem Steps.along (hφ : ∀ t c w, (M.code t c w).Everywhere (φ t c)) (h : M.Steps σ σ')
    (hσ : Along φ σ) : Along φ σ' := by
  induction h with
  | refl => exact hσ
  | tail _ hstep ih =>
    obtain ⟨t, hstep⟩ := hstep
    exact hstep.along hφ ih

/-- A thread inside a call made that call last. -/
def Labelled (σ : Config T A R W C V) : Prop :=
  ∀ t, match σ.thread t with
    | .idle => True
    | .busy c _ _ | .halted c => ∃ w, lastCall t σ.history = some (c, w)

theorem settle_labelled (hσ : Labelled σ) {t : T} {c : C} {w : W} {e : Event T A R W C V}
    {p : Prog A R (V c)} (he : e.thread = t)
    (hc : ∃ w, lastCall t (e :: σ.history) = some (c, w)) :
    Labelled (M.settle σ t c w (e :: σ.history) p) := by
  intro u
  by_cases hu : u = t
  · subst hu
    cases p with
    | ret v => simp [settle]
    | act a k => simpa [settle] using hc
    | spent => simpa [settle] using hc
  · have hlast : lastCall u (e :: σ.history) = lastCall u σ.history :=
      lastCall_of_ne (he ▸ Ne.symm hu)
    have hreturned (v : V c) : lastCall u (.returned t c v :: e :: σ.history) =
        lastCall u σ.history := hlast
    have h := hσ u
    cases p <;> simpa [settle, update_of_ne hu, hlast, hreturned] using h

theorem Step.labelled {t : T} (h : M.Step σ t σ') (hσ : Labelled σ) : Labelled σ' := by
  cases h with
  | call idle may => exact settle_labelled hσ rfl ⟨_, if_pos rfl⟩
  | act busy exec =>
    refine settle_labelled hσ rfl ?_
    have h := hσ t
    rw [busy] at h
    exact h

theorem Steps.labelled (h : M.Steps σ σ') (hσ : Labelled σ) : Labelled σ' := by
  induction h with
  | refl => exact hσ
  | tail _ hstep ih =>
    obtain ⟨t, hstep⟩ := hstep
    exact hstep.labelled ih

/-- An operation of the history was carried out in the world that it found. -/
def Performed (M : Machine T A R W C V) (h : List (Event T A R W C V)) : Prop :=
  ∀ t a r w, Event.acted t a r w ∈ h → ∃ w', M.exec t w a r w'

theorem settle_performed {t : T} {c : C} {w : W} {h : List (Event T A R W C V)}
    {p : Prog A R (V c)} (hh : M.Performed h) : M.Performed (M.settle σ t c w h p).history := by
  cases p with
  | ret v =>
    intro u a r w' hmem
    exact hh u a r w' (by simpa [settle] using hmem)
  | act a k => exact hh
  | spent => exact hh

theorem Step.performed {t : T} (h : M.Step σ t σ') (hσ : M.Performed σ.history) :
    M.Performed σ'.history := by
  cases h with
  | call idle may =>
    apply settle_performed
    intro u a r w hmem
    exact hσ u a r w (by simpa using hmem)
  | act busy exec =>
    apply settle_performed
    intro u a r w hmem
    rcases List.mem_cons.mp hmem with heq | hmem
    · cases heq
      exact ⟨_, exec⟩
    · exact hσ u a r w hmem

theorem Steps.performed (h : M.Steps σ σ') (hσ : M.Performed σ.history) :
    M.Performed σ'.history := by
  induction h with
  | refl => exact hσ
  | tail _ hstep ih =>
    obtain ⟨t, hstep⟩ := hstep
    exact hstep.performed ih

section Alone

/-- The program of a call of `t` run without interference, its operations answered by `answer`
and added to the history. -/
def alone {α : Type} (t : T) (answer : W → (a : A) → R a × W) :
    Prog A R α → W → List (Event T A R W C V) → Option (α × W × List (Event T A R W C V))
  | .ret v, w, h => some (v, w, h)
  | .act a k, w, h =>
    alone t answer (k (answer w a).1) (answer w a).2 (.acted t a (answer w a).1 w :: h)
  | .spent, _, _ => none

omit [DecidableEq T] in
theorem alone_suffix {α : Type} {t : T} {answer : W → (a : A) → R a × W} {p : Prog A R α}
    {v : α} {w w' : W} {h h' : List (Event T A R W C V)}
    (hp : alone t answer p w h = some (v, w', h')) : h <:+ h' := by
  induction p generalizing w h with
  | ret v' =>
    cases hp
    exact List.suffix_rfl
  | act a k ih => exact (List.suffix_cons _ h).trans (ih _ hp)
  | spent => cases hp

theorem update_settle (t : T) (c : C) (w : W) (h : List (Event T A R W C V)) (p : Prog A R (V c))
    (th : Thread A R C V) :
    update (M.settle σ t c w h p).thread t th = update σ.thread t th := by
  cases p <;> simp [settle]

theorem settle_alone {answer : W → (a : A) → R a × W} {t : T}
    (hanswer : ∀ w a, M.exec t w a (answer w a).1 (answer w a).2) {c : C} {v : V c} {w w' : W}
    {h h' : List (Event T A R W C V)} {p : Prog A R (V c)}
    (hp : alone t answer p w h = some (v, w', h')) :
    ∃ σ', M.Steps (M.settle σ t c w h p) σ' ∧ σ'.world = M.finish t c v w' ∧
      σ'.history = .returned t c v :: h' ∧ σ'.thread = update σ.thread t .idle := by
  induction p generalizing σ w h with
  | ret v' =>
    cases hp
    exact ⟨_, .refl, rfl, rfl, rfl⟩
  | act a k ih =>
    obtain ⟨σ', hsteps, hworld, hhistory, hthread⟩ :=
      ih (answer w a).1 (σ := M.settle σ t c w h (.act a k)) hp
    rw [update_settle] at hthread
    exact ⟨σ', .head ⟨t, .act (update_self ..) (hanswer w a)⟩ hsteps, hworld, hhistory,
      hthread⟩
  | spent => cases hp

/-- A thread may make a call and run it to its end without interference. -/
theorem alone_steps {answer : W → (a : A) → R a × W} {t : T}
    (hanswer : ∀ w a, M.exec t w a (answer w a).1 (answer w a).2) {c : C} {v : V c} {w' : W}
    {h' : List (Event T A R W C V)} (hidle : σ.thread t = .idle) (hmay : M.may t c σ.world)
    (hp : alone t answer (M.code t c σ.world) σ.world (.called t c σ.world :: σ.history) =
      some (v, w', h')) :
    ∃ σ', M.Steps σ σ' ∧ σ'.world = M.finish t c v w' ∧ σ'.history = .returned t c v :: h' ∧
      σ'.thread = update σ.thread t .idle := by
  obtain ⟨σ', hsteps, hσ'⟩ := settle_alone (σ := σ) hanswer hp
  exact ⟨σ', .head ⟨t, .call hidle hmay⟩ hsteps, hσ'⟩

end Alone

section Replay

variable (M) (answer : T → W → (a : A) → R a × W)

/-- One turn of a fixed schedule: `t` makes the call it is given, or performs its next
operation and is answered by `answer`. A turn that `t` cannot take is skipped. -/
def turn (σ : Config T A R W C V) (t : T) : Option C → Config T A R W C V
  | some c =>
    match σ.thread t with
    | .idle => M.settle σ t c σ.world (.called t c σ.world :: σ.history) (M.code t c σ.world)
    | _ => σ
  | none =>
    match σ.thread t with
    | .busy c a k => M.settle σ t c (answer t σ.world a).2
        (.acted t a (answer t σ.world a).1 σ.world :: σ.history) (k (answer t σ.world a).1)
    | _ => σ

def replay (schedule : List (T × Option C)) (σ : Config T A R W C V) : Config T A R W C V :=
  schedule.foldl (fun σ turn => M.turn answer σ turn.1 turn.2) σ

variable {M answer}

theorem turn_steps (hanswer : ∀ t w a, M.exec t w a (answer t w a).1 (answer t w a).2)
    (σ : Config T A R W C V) {t : T} {call : Option C}
    (hmay : ∀ c ∈ call, ∀ w, M.may t c w) : M.Steps σ (M.turn answer σ t call) := by
  unfold turn
  cases call with
  | some c =>
    dsimp only
    split
    · rename_i hidle
      exact .single ⟨t, .call hidle (hmay c rfl _)⟩
    · exact .refl
  | none =>
    dsimp only
    split
    · rename_i c a k hbusy
      exact .single ⟨t, .act hbusy (hanswer t _ a)⟩
    · exact .refl

theorem replay_steps (hanswer : ∀ t w a, M.exec t w a (answer t w a).1 (answer t w a).2)
    (schedule : List (T × Option C)) (σ : Config T A R W C V)
    (hmay : ∀ turn ∈ schedule, ∀ c ∈ turn.2, ∀ w, M.may turn.1 c w) :
    M.Steps σ (M.replay answer schedule σ) := by
  induction schedule generalizing σ with
  | nil => exact .refl
  | cons turn schedule ih =>
    refine (turn_steps hanswer σ (hmay turn (by simp))).trans ?_
    exact ih _ fun turn' h => hmay turn' (by simp [h])

end Replay

section Script

variable (M) (answer : T → W → (a : A) → Option (R a × W)) [∀ t c w, Decidable (M.may t c w)]

/-- One turn of a script, if `t` can take it: `t` makes the call it is given, or performs its
next operation and is answered by `answer`. -/
def scriptTurn (σ : Config T A R W C V) (turn : T × Option C) : Option (Config T A R W C V) :=
  match turn.2, σ.thread turn.1 with
  | some c, .idle =>
    if M.may turn.1 c σ.world then
      some (M.settle σ turn.1 c σ.world (.called turn.1 c σ.world :: σ.history)
        (M.code turn.1 c σ.world))
    else none
  | none, .busy c a k =>
    (answer turn.1 σ.world a).map fun r =>
      M.settle σ turn.1 c r.2 (.acted turn.1 a r.1 σ.world :: σ.history) (k r.1)
  | _, _ => none

def script (turns : List (T × Option C)) (σ : Config T A R W C V) :
    Option (Config T A R W C V) :=
  turns.foldlM (M.scriptTurn answer) σ

variable {M answer}

theorem scriptTurn_step (hanswer : ∀ t w a r, answer t w a = some r → M.exec t w a r.1 r.2)
    {turn : T × Option C} (h : M.scriptTurn answer σ turn = some σ') : M.Step σ turn.1 σ' := by
  obtain ⟨t, call⟩ := turn
  cases hthread : σ.thread t with
  | idle =>
    cases call with
    | none => simp [scriptTurn, hthread] at h
    | some c =>
      by_cases hmay : M.may t c σ.world
      · simp only [scriptTurn, hthread, if_pos hmay, Option.some.injEq] at h
        subst h
        exact .call hthread hmay
      · simp [scriptTurn, hthread, hmay] at h
  | busy c a k =>
    cases call with
    | none =>
      simp only [scriptTurn, hthread, Option.map_eq_some_iff] at h
      obtain ⟨r, hr, rfl⟩ := h
      exact .act hthread (hanswer t _ a r hr)
    | some c => simp [scriptTurn, hthread] at h
  | halted c => cases call <;> simp [scriptTurn, hthread] at h

theorem script_steps (hanswer : ∀ t w a r, answer t w a = some r → M.exec t w a r.1 r.2)
    {turns : List (T × Option C)} (h : M.script answer turns σ = some σ') : M.Steps σ σ' := by
  induction turns generalizing σ with
  | nil =>
    cases h
    exact .refl
  | cons turn turns ih =>
    simp only [script, List.foldlM_cons, Option.bind_eq_bind, Option.bind_eq_some_iff] at h
    obtain ⟨σ₁, hturn, hrest⟩ := h
    exact .head ⟨turn.1, scriptTurn_step hanswer hturn⟩ (ih hrest)

end Script

end Machine
end Concurrency
import AirDap.Ownership.Word

/-! The arbiter as it is meant: at most one owner of the SWD pins, at most one running
operation, at most one thread that drives the pins between owners, and a generation that
separates an owner from every earlier one. The packed word is a function of this state. -/
namespace AirDap

inductive Owner where
  | usb | network | diagnostic
  deriving DecidableEq, Repr

def Owner.code : Owner → Word
  | .usb => ownerUsb
  | .network => ownerNetwork
  | .diagnostic => ownerDiagnostic

/-- The state field of a word that is free or held. -/
def heldCode : Option Owner → Word
  | none => ownerNone
  | some o => o.code

theorem isOwner_code (o : Owner) : isOwner o.code = true := by cases o <;> decide

theorem isOwner_iff {w : Word} : isOwner w = true ↔ ∃ o : Owner, w = o.code := by
  constructor
  · intro h
    simp only [isOwner, Bool.and_eq_true, decide_eq_true_eq] at h
    have h₁ := BitVec.le_def.mp h.1
    have h₃ := BitVec.le_def.mp h.2
    change 1 ≤ w.toNat at h₁
    change w.toNat ≤ 3 at h₃
    have hw : w.toNat = 1 ∨ w.toNat = 2 ∨ w.toNat = 3 := by omega
    rcases hw with hw | hw | hw
    · exact ⟨.usb, BitVec.eq_of_toNat_eq hw⟩
    · exact ⟨.network, BitVec.eq_of_toNat_eq hw⟩
    · exact ⟨.diagnostic, BitVec.eq_of_toNat_eq hw⟩
  · rintro ⟨o, rfl⟩
    exact isOwner_code o

theorem Owner.code_injective : Function.Injective Owner.code := by
  intro a b h
  cases a <;> cases b <;> first | rfl | exact absurd h (by decide)

theorem heldCode_injective : Function.Injective heldCode := by
  intro a b h
  cases a with
  | none => cases b with
    | none => rfl
    | some o => cases o <;> exact absurd h (by decide)
  | some a => cases b with
    | none => cases a <;> exact absurd h (by decide)
    | some b => exact congrArg some (Owner.code_injective h)

theorem heldCode_lt (o : Option Owner) : (heldCode o).toNat < 8 := by
  rcases o with - | - | - | - <;> decide

theorem heldCode_ne (o : Option Owner) : heldCode o ≠ stateTransition ∧
    heldCode o ≠ stateOffline ∧ heldCode o ≠ stateSuspended ∧
    heldCode o ≠ stateUninitialized := by
  rcases o with - | - | - | - <;> decide

/-- `T` are the threads and `K` the operation handles they reserve with. -/
inductive Phase (T K : Type) where
  | held (o : Option Owner)
  | lent (o : Option Owner) (k : K)
  | transition (t : T)
  | suspended
  | offline

structure Arbiter (T K : Type) where
  phase : Phase T K
  generation : ℕ
  generation_lt : generation < 2 ^ 28

/-- What a thread does to the arbiter in one step. -/
inductive Move (K : Type) where
  | stay | seize | settle | grant (o : Owner) | reserve (k : K) | yield (k : K) | suspend | resume

variable {T K : Type}

/-- The moves that neither start nor end an ownership or an operation. -/
def Move.Quiet : Move K → Prop
  | .grant _ | .reserve _ | .yield _ => False
  | _ => True

def Phase.state : Phase T K → Word
  | .held o => heldCode o
  | .lent o _ => heldCode o
  | .transition _ => stateTransition
  | .suspended => stateSuspended
  | .offline => stateOffline

variable {p : Phase T K}

theorem Phase.eq_held_or_lent {o : Option Owner} (h : p.state = heldCode o) :
    p = .held o ∨ ∃ k, p = .lent o k := by
  cases p with
  | held o' => exact .inl (congrArg Phase.held (heldCode_injective h))
  | lent o' k => exact .inr ⟨k, congrArg (Phase.lent · k) (heldCode_injective h)⟩
  | transition t => exact absurd h.symm (heldCode_ne o).1
  | suspended => exact absurd h.symm (heldCode_ne o).2.2.1
  | offline => exact absurd h.symm (heldCode_ne o).2.1

theorem Phase.eq_suspended (h : p.state = stateSuspended) : p = .suspended := by
  cases p with
  | held o => exact absurd h (heldCode_ne o).2.2.1
  | lent o k => exact absurd h (heldCode_ne o).2.2.1
  | transition t => exact absurd h (by decide : stateTransition ≠ stateSuspended)
  | suspended => rfl
  | offline => exact absurd h (by decide : stateOffline ≠ stateSuspended)

theorem Phase.eq_offline (h : p.state = stateOffline) : p = .offline := by
  cases p with
  | held o => exact absurd h (heldCode_ne o).2.1
  | lent o k => exact absurd h (heldCode_ne o).2.1
  | transition t => exact absurd h (by decide : stateTransition ≠ stateOffline)
  | suspended => exact absurd h (by decide : stateSuspended ≠ stateOffline)
  | offline => rfl

namespace Arbiter

variable {user : K → T} {t u : T} {a b : Arbiter T K} {m : Move K}

def word (a : Arbiter T K) : Word := BitVec.ofNat 32 a.generation

/-- The packed ownership word. -/
def control (a : Arbiter T K) : Word :=
  match a.phase with
  | .lent o _ => makeControl a.word (heldCode o) ||| controlActive
  | p => makeControl a.word p.state

/-- The legal moves of thread `t`; `user k` is the thread that uses the handle `k`. -/
inductive Step (user : K → T) (t : T) : Move K → Arbiter T K → Arbiter T K → Prop
  | stay {a : Arbiter T K} : Step user t .stay a a
  | seize {a b : Arbiter T K} {o : Option Owner} (before : a.phase = .held o)
      (after : b.phase = .transition t) (generation : b.generation = a.generation) :
      Step user t .seize a b
  | settle {a b : Arbiter T K} (before : a.phase = .transition t)
      (after : b.phase = .held none ∨ b.phase = .suspended ∨ b.phase = .offline)
      (generation : b.generation = a.generation) : Step user t .settle a b
  | grant {a b : Arbiter T K} {o : Owner} (before : a.phase = .transition t)
      (after : b.phase = .held (some o)) (generation : b.generation = a.generation + 1) :
      Step user t (.grant o) a b
  | reserve {a b : Arbiter T K} {o : Option Owner} {k : K} (before : a.phase = .held o)
      (after : b.phase = .lent o k) (generation : b.generation = a.generation)
      (uses : user k = t) : Step user t (.reserve k) a b
  | yield {a b : Arbiter T K} {o : Option Owner} {k : K} (before : a.phase = .lent o k)
      (after : b.phase = .held o) (generation : b.generation = a.generation)
      (uses : user k = t) : Step user t (.yield k) a b
  | suspend {a b : Arbiter T K} (before : a.phase = .held none) (after : b.phase = .suspended)
      (generation : b.generation = a.generation) : Step user t .suspend a b
  | resume {a b : Arbiter T K} (before : a.phase = .suspended) (after : b.phase = .held none)
      (generation : b.generation = a.generation) : Step user t .resume a b

section Control

theorem toNat_word (a : Arbiter T K) : a.word.toNat = a.generation := by
  have h := a.generation_lt
  simp only [word, BitVec.toNat_ofNat]
  omega

theorem word_lt (a : Arbiter T K) : a.word.toNat < 2 ^ 28 := a.toNat_word ▸ a.generation_lt

theorem state_lt (p : Phase T K) : p.state.toNat < 8 := by
  cases p with
  | held o => exact heldCode_lt o
  | lent o k => exact heldCode_lt o
  | transition t => exact (by decide : stateTransition.toNat < 8)
  | suspended => exact (by decide : stateSuspended.toNat < 8)
  | offline => exact (by decide : stateOffline.toNat < 8)

@[simp] theorem controlState_control (a : Arbiter T K) :
    controlState a.control = a.phase.state := by
  unfold control
  split
  · rename_i o k h
    rw [h]
    exact controlState_makeControl_active a.word_lt (heldCode_lt o)
  · exact controlState_makeControl a.word_lt (state_lt a.phase)

@[simp] theorem controlGeneration_control (a : Arbiter T K) :
    controlGeneration a.control = a.word := by
  unfold control
  split
  · rename_i o k h
    exact controlGeneration_makeControl_active a.word_lt (heldCode_lt o)
  · exact controlGeneration_makeControl a.word_lt (state_lt a.phase)

theorem isActive_control (a : Arbiter T K) :
    isActive a.control ↔ ∃ o k, a.phase = .lent o k := by
  unfold control
  split
  · rename_i o k h
    exact iff_of_true (isActive_makeControl_active a.word_lt (heldCode_lt o)) ⟨o, k, h⟩
  · rename_i h
    exact iff_of_false (not_isActive_makeControl a.word_lt (state_lt a.phase))
      (fun ⟨o, k, hp⟩ => h o k hp)

theorem control_held {o : Option Owner} (h : a.phase = .held o) :
    a.control = makeControl a.word (heldCode o) := by
  rw [control, h]
  rfl

/-- The transition of thread `t` at the generation of `a`. -/
def seized (a : Arbiter T K) (t : T) : Arbiter T K :=
  ⟨.transition t, a.generation, a.generation_lt⟩

/-- The word of `o` at the generation of `a`, reserved by `k`. -/
def reserved (a : Arbiter T K) (o : Option Owner) (k : K) : Arbiter T K :=
  ⟨.lent o k, a.generation, a.generation_lt⟩

theorem control_reserved {o : Option Owner} (h : a.phase = .held o) (k : K) :
    a.control ||| controlActive = (a.reserved o k).control := by
  rw [control_held h]
  rfl

/-- The arbiter that a fresh word encodes. -/
def fresh : Arbiter T K := ⟨.held none, 0, by decide⟩

theorem fresh_control : (fresh : Arbiter T K).control = ownerNone := by
  have h : makeControl (BitVec.ofNat 32 0) ownerNone = ownerNone := by decide
  exact h

/-- The word determines everything but the identity of the thread or handle in it. -/
theorem control_eq_control {a b : Arbiter T K} (h : a.control = b.control) :
    a.phase.state = b.phase.state ∧ a.generation = b.generation ∧
      ((∃ o k, a.phase = .lent o k) ↔ ∃ o k, b.phase = .lent o k) := by
  refine ⟨?_, ?_, ?_⟩
  · rw [← controlState_control, h, controlState_control]
  · rw [← a.toNat_word, ← controlGeneration_control, h, controlGeneration_control, toNat_word]
  · rw [← isActive_control, h, isActive_control]

/-- A word that shows no state beyond the owners and no running operation is free or held. -/
theorem held_of_state {a : Arbiter T K} {o : Option Owner}
    (hs : controlState a.control = heldCode o)
    (ha : ¬ isActive a.control) : a.phase = .held o := by
  rw [controlState_control] at hs
  rw [isActive_control] at ha
  rcases Phase.eq_held_or_lent hs with h | ⟨k, h⟩
  · exact h
  · exact absurd ⟨o, k, h⟩ ha

theorem control_eq_held {a : Arbiter T K} {o : Option Owner} {g : Word} (hg : g.toNat < 2 ^ 28)
    (h : a.control = makeControl g (heldCode o)) :
    a.phase = .held o ∧ a.generation = g.toNat := by
  have hw : a.word = g := by
    rw [← controlGeneration_control, h]
    exact controlGeneration_makeControl hg (heldCode_lt o)
  refine ⟨held_of_state ?_ ?_, by rw [← a.toNat_word, hw]⟩
  · rw [h]
    exact controlState_makeControl hg (heldCode_lt o)
  · rw [h]
    exact not_isActive_makeControl hg (heldCode_lt o)

end Control

/-- Owner `o` holds the pins, with or without a running operation. -/
def Holds (a : Arbiter T K) (o : Owner) : Prop :=
  a.phase = .held (some o) ∨ ∃ k, a.phase = .lent (some o) k

/-- The generation `g` has been given out and its owner is gone. -/
def Dead (a : Arbiter T K) (g : ℕ) : Prop :=
  g < a.generation ∨ (g = a.generation ∧ ∀ o, ¬ a.Holds o)

/-- The generation `g` was given to `o`, who holds it now or is gone. -/
def Given (a : Arbiter T K) (o : Owner) (g : ℕ) : Prop :=
  (a.generation = g ∧ a.Holds o) ∨ a.Dead g

theorem holds_iff_state {o : Owner} : a.Holds o ↔ controlState a.control = o.code := by
  rw [controlState_control]
  constructor
  · rintro (h | ⟨k, h⟩) <;> rw [h] <;> rfl
  · intro h
    exact Phase.eq_held_or_lent h

theorem Holds.unique {o o' : Owner} (h : a.Holds o) (h' : a.Holds o') : o = o' := by
  rcases h with h | ⟨k, h⟩ <;> rcases h' with h' | ⟨k', h'⟩ <;> simp_all

theorem Step.generation_le (h : Step user t m a b) : a.generation ≤ b.generation := by
  cases h <;> omega

/-- Pins are only handed over through the transition of one thread, with a new generation. -/
theorem Step.holds (h : Step user t m a b) {o : Owner} (hb : b.Holds o) :
    (a.Holds o ∧ b.generation = a.generation) ∨
      (m = .grant o ∧ a.phase = .transition t ∧ b.generation = a.generation + 1) := by
  cases h with
  | stay => exact .inl ⟨hb, rfl⟩
  | grant before after generation =>
    refine .inr ⟨?_, before, generation⟩
    have ho := hb.unique (.inl after)
    rw [ho]
  | reserve before after generation uses =>
    refine .inl ⟨?_, generation⟩
    rcases hb with hb | ⟨k', hb⟩ <;> simp_all [Holds]
  | yield before after generation uses =>
    refine .inl ⟨?_, generation⟩
    rcases hb with hb | ⟨k', hb⟩ <;> simp_all [Holds]
  | _ => rcases hb with hb | ⟨k', hb⟩ <;> simp_all

variable {g : ℕ} {o : Option Owner} {k : K}

theorem Step.dead (h : Step user t m a b) (ha : a.Dead g) : b.Dead g := by
  have hle := h.generation_le
  rcases ha with ha | ⟨rfl, ha⟩
  · exact .inl (by omega)
  · by_cases hlt : a.generation < b.generation
    · exact .inl hlt
    · refine .inr ⟨by omega, fun o ho => ?_⟩
      rcases h.holds ho with ⟨hold, -⟩ | ⟨-, -, hgen⟩
      · exact ha o hold
      · omega

theorem Step.given (h : Step user t m a b) {o : Owner} (ha : a.Given o g) : b.Given o g := by
  rcases ha with ⟨rfl, ha⟩ | ha
  · have hle := h.generation_le
    by_cases hlt : a.generation < b.generation
    · exact .inr (.inl hlt)
    · by_cases hb : b.Holds o
      · exact .inl ⟨by omega, hb⟩
      · refine .inr (.inr ⟨by omega, fun o' ho' => ?_⟩)
        rcases h.holds ho' with ⟨hold, -⟩ | ⟨-, -, hgen⟩
        · exact hb (ha.unique hold ▸ ho')
        · omega
  · exact .inr (h.dead ha)

theorem Step.transition (h : Step user u m a b) (hu : u ≠ t) (ha : a.phase = .transition t) :
    b = a := by
  cases h with
  | stay => rfl
  | settle before _ _ => rw [ha] at before; cases before; exact absurd rfl hu
  | grant before _ _ => rw [ha] at before; cases before; exact absurd rfl hu
  | _ before => rw [ha] at before; cases before

theorem Step.lent (h : Step user u m a b) (hu : u ≠ user k) (ha : a.phase = .lent o k) : b = a := by
  cases h with
  | stay => rfl
  | yield before _ _ uses => rw [ha] at before; cases before; exact absurd uses.symm hu
  | _ before => rw [ha] at before; cases before

theorem Step.lent_iff (h : Step user u m a b) (hu : u ≠ user k) :
    b.phase = .lent o k ↔ a.phase = .lent o k := by
  refine ⟨fun hb => ?_, fun ha => by rw [h.lent hu ha, ha]⟩
  cases h with
  | stay => exact hb
  | reserve before after generation uses => rw [hb] at after; cases after; exact absurd uses.symm hu
  | settle before after _ => rcases after with h | h | h <;> rw [hb] at h <;> cases h
  | _ before after => rw [hb] at after; cases after

section

variable (h : Step user t m a b)
include h

theorem Step.lent_before (hb : b.phase = .lent o k) :
    a.phase = .lent o k ∨ (m = .reserve k ∧ a.phase = .held o) := by
  cases h with
  | stay => exact .inl hb
  | reserve before after generation uses => rw [hb] at after; cases after; exact .inr ⟨rfl, before⟩
  | settle before after _ => rcases after with h | h | h <;> rw [hb] at h <;> cases h
  | _ before after => rw [hb] at after; cases after

theorem Step.quiet_lent (hm : m.Quiet) (ha : a.phase = .lent o k) : b = a := by
  cases h with
  | stay => rfl
  | yield => exact hm.elim
  | _ before => rw [ha] at before; cases before

theorem Step.quiet_lent_iff (hm : m.Quiet) : b.phase = .lent o k ↔ a.phase = .lent o k := by
  refine ⟨fun hb => ?_, fun ha => by rw [h.quiet_lent hm ha, ha]⟩
  cases h with
  | stay => exact hb
  | reserve => exact hm.elim
  | settle before after _ => rcases after with h | h | h <;> rw [hb] at h <;> cases h
  | _ before after => rw [hb] at after; cases after

theorem Step.quiet_isActive (hm : m.Quiet) : isActive b.control ↔ isActive a.control := by
  rw [isActive_control, isActive_control]
  exact exists_congr fun o => exists_congr fun k => h.quiet_lent_iff hm

theorem Step.reserved_of_active (ha : a.phase = .held o) (hb : isActive b.control) :
    ∃ k, b.phase = .lent o k ∧ user k = t := by
  obtain ⟨o', k, hlent⟩ := b.isActive_control.mp hb
  rcases h.lent_before hlent with hp | ⟨rfl, hp⟩
  · rw [ha] at hp
    cases hp
  · rw [ha] at hp
    cases hp
    cases h with
    | reserve before after generation uses => exact ⟨k, hlent, uses⟩

theorem Step.lent_of_active (ha : a.phase = .lent o k) (hb : isActive b.control) : b = a := by
  obtain ⟨o', k', hlent⟩ := b.isActive_control.mp hb
  cases h with
  | stay => rfl
  | yield before after generation uses => rw [hlent] at after; cases after
  | _ before => rw [ha] at before; cases before

end

theorem Step.settle_isOwner (h : Step user t .settle a b) :
    isOwner (controlState b.control) = false := by
  rw [controlState_control]
  cases h with
  | settle before after generation => rcases after with h | h | h <;> rw [h] <;> rfl

theorem Step.offline (h : Step user t m a b) (ha : a.phase = .offline) : b = a := by
  cases h with
  | stay => rfl
  | _ before => rw [ha] at before; cases before

end Arbiter
end AirDap

import AirDap.Mode.Word
import AirDap.Ownership.Specs
import Mathlib.Data.Fintype.Basic

/-! What a history tells about the current call of a thread, and about the route at the time
the network became the owner. -/
namespace AirDap
open Concurrency

variable {T K I : Type} {J : I → Type} {M C : Type} {V : C → Type}

/-- What a thread has done since its last call: the generations it created, whether it has
made a reservation and not ended it, whether it counts as a USB preemption, and how often
it has read the mode word. -/
structure Trace where
  created : List ℕ
  reserved : Bool
  preempting : Bool
  modeReads : ℕ

namespace Trace

def start : Trace := ⟨[], false, false, 0⟩

def act (τ : Trace) : (a : Act I) → Resp J a → Trace
  | .storeOwnership desired, _ =>
    if isOwner (controlState desired) then
      { τ with created := (controlGeneration desired).toNat :: τ.created }
    else τ
  | .casOwnership expected desired, none =>
    if ¬ isActive expected ∧ isActive desired then { τ with reserved := true }
    else if isActive expected ∧ ¬ isActive desired then { τ with reserved := false }
    else τ
  | .addPreemption, _ => { τ with preempting := true }
  | .subPreemption, _ => { τ with preempting := false }
  | .loadMode, _ => { τ with modeReads := τ.modeReads + 1 }
  | _, _ => τ

/-- The operation is a release of a claim created since the call that finds the claim
reserved for an operation. -/
def Refused (τ : Trace) : (a : Act I) → Resp J a → Prop
  | .casOwnership expected desired, some observed =>
    (controlGeneration expected).toNat ∈ τ.created ∧ controlState desired = stateTransition ∧
      observed = expected ||| controlActive
  | _, _ => False

end Trace

/-- The world in which the network was last made the owner. -/
def networkGrant : List (Event T (Act I) (Resp J) (Device M) C V) → Option (Device M)
  | [] => none
  | .acted _ (.storeOwnership desired) _ w :: h =>
    if controlState desired = ownerNetwork then some w else networkGrant h
  | _ :: h => networkGrant h

variable [DecidableEq T]

def trace (t : T) : List (Event T (Act I) (Resp J) (Device M) C V) → Trace
  | [] => .start
  | .called u _ _ :: h => if u = t then .start else trace t h
  | .acted u a r _ :: h => if u = t then (trace t h).act a r else trace t h
  | .returned _ _ _ :: h => trace t h

/-- In its current call thread `t` has failed to release a claim that it created, because
another operation had reserved it. -/
def Contended (t : T) : List (Event T (Act I) (Resp J) (Device M) C V) → Prop
  | [] => False
  | .called u _ _ :: h => u ≠ t ∧ Contended t h
  | .acted u a r _ :: h => (u = t ∧ (trace t h).Refused a r) ∨ Contended t h
  | .returned _ _ _ :: h => Contended t h

section Decidable

variable {h : List (Event T (Act I) (Resp J) (Device M) C V)}

instance (τ : Trace) : (a : Act I) → (r : Resp J a) → Decidable (τ.Refused a r)
  | .casOwnership _ _, some _ => inferInstanceAs (Decidable (_ ∧ _ ∧ _))
  | .casOwnership _ _, none => inferInstanceAs (Decidable False)
  | .loadOwnership, _ | .storeOwnership _, _ | .casOwnershipWeak _ _, _ | .lineReset, _
  | .releasePins, _ | .loadMode, _ | .casModeWeak _ _, _ | .addPreemption, _ | .subPreemption, _
  | .loadPreemptions, _ | .saveRoute _, _ | .io _, _ => inferInstanceAs (Decidable False)

instance Contended.decidable (t : T) :
    (h : List (Event T (Act I) (Resp J) (Device M) C V)) → Decidable (Contended t h)
  | [] => inferInstanceAs (Decidable False)
  | .called _ _ _ :: h =>
    have := Contended.decidable t h
    inferInstanceAs (Decidable (_ ∧ _))
  | .acted _ _ _ _ :: h =>
    have := Contended.decidable t h
    inferInstanceAs (Decidable (_ ∨ _))
  | .returned _ _ _ :: h => Contended.decidable t h

end Decidable

section Lemmas

variable {t u : T} {e : Event T (Act I) (Resp J) (Device M) C V}
  {h : List (Event T (Act I) (Resp J) (Device M) C V)}

theorem trace_of_ne (he : e.thread ≠ t) : trace t (e :: h) = trace t h := by
  cases e with
  | called u c w => exact if_neg he
  | acted u a r w => exact if_neg he
  | returned u c v => rfl

theorem trace_self {a : Act I} {r : Resp J a} {w : Device M} :
    trace t (.acted t a r w :: h) = (trace t h).act a r := if_pos rfl

theorem contended_of_ne (he : e.thread ≠ t) (hc : Contended t h) : Contended t (e :: h) := by
  cases e with
  | called u c w => exact ⟨he, hc⟩
  | acted u a r w => exact .inr hc
  | returned u c v => exact hc

end Lemmas

section Quiet

variable {user : K → T} {t : T} {s s' : DState T K J M C V}

theorem Quiet.trace (hq : Quiet user t s s') : trace t s'.history = trace t s.history := by
  cases hq with
  | exchange hm hstep =>
    have ha := hstep.quiet_isActive hm
    refine trace_self.trans ?_
    simp only [Trace.act, ha, not_and_self, and_not_self, if_false]
  | store hstep =>
    refine trace_self.trans ?_
    simp only [Trace.act, hstep.settle_isOwner, Bool.false_eq_true, if_false]
  | _ => exact trace_self

end Quiet
end AirDap

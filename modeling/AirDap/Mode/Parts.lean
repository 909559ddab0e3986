import AirDap.Mode.Calls
import AirDap.Ownership.Parts

/-! What holds of the parts of the calls of the mode state and is kept by sequencing holds of
the calls. -/
namespace AirDap
open Concurrency

variable {I : Type} {J : I → Type}

/-- A property of programs that sequencing keeps and that the loads of the mode state and of the
counter of preemptions have. -/
structure WordParts (P : {α : Type} → Code J α → Prop) : Prop where
  ret {α : Type} (v : α) : P (.ret v : Code J α)
  bind {α β : Type} {p : Code J α} {f : α → Code J β} :
    P p → (∀ v, P (f v)) → P (p >>= f)
  spent {α : Type} : P (.spent : Code J α)
  loadMode : P (loadMode : Code J _)
  addPreemption : P (addPreemption : Code J _)
  subPreemption : P (subPreemption : Code J _)
  loadPreemptions : P (loadPreemptions : Code J _)

namespace WordParts

variable {P : {α : Type} → Code J α → Prop} {α : Type} {p q : Code J α}

theorem ite {c : Prop} [Decidable c] (hp : c → P p) (hq : ¬ c → P q) :
    P (if c then p else q) :=
  iteInduction hp hq

variable (h : WordParts P)
include h

theorem guard {c : Prop} [Decidable c] {v : α} (hq : ¬ c → P q) : P (if c then pure v else q) :=
  ite (fun _ => h.ret v) hq

theorem transition {event : ModeEvent} (hcas : ∀ current next,
    nextControl current event = .ok next → P (casModeWeak current next : Code J _))
    (hrevoke : event = .usbAttached → P (ownershipRevokeOwner ownerNetwork : Code J _))
    (rounds : ℕ) : P (modeTransition rounds event : Code J _) := by
  have hend (result : ModeStateResult) : P (endPreemption (event = .usbAttached) >>=
      fun _ => pure result : Code J _) :=
    h.bind (ite (fun _ => h.subPreemption) fun _ => h.ret _) fun _ => h.ret result
  have hloop (current : Word) : P (transitionLoop event rounds current : Code J _) := by
    induction rounds generalizing current with
    | zero => exact h.spent
    | succ rounds ih =>
      refine ite (fun _ => hend _) fun _ => ?_
      cases hnext : nextControl current event with
      | error result => exact hend _
      | ok next =>
        refine h.bind (hcas current next hnext) fun r => ?_
        cases r with
        | some observed => exact ih observed
        | none =>
          exact ite (fun hc => h.bind (hrevoke hc.1) fun _ => hend _) fun _ => hend _
  have hload := h.bind h.loadMode hloop
  exact ite (fun _ => h.bind h.addPreemption fun _ => hload) fun _ => hload

theorem selectRoute {route current : Word}
    (hsave : P (saveRoute (selectedRoute current route) : Code J _))
    (hcas : ∀ observed, P (casModeWeak observed
      (routedControl observed (selectedRoute current route)) : Code J _)) (rounds : ℕ) :
    P (selectRoute rounds route current : Code J _) := by
  have hinstall (observed : Word) :
      P (installRoute (selectedRoute current route) rounds observed : Code J _) := by
    induction rounds generalizing observed with
    | zero => exact h.spent
    | succ rounds ih =>
      refine h.bind (hcas observed) fun r => ?_
      cases r with
      | none => exact h.ret _
      | some observed => exact ih observed
  refine h.guard fun _ => h.guard fun _ => h.bind h.loadPreemptions fun inflight => ?_
  refine h.guard fun _ => h.guard fun _ => h.bind hsave fun saved => h.guard fun _ => ?_
  exact h.bind (hinstall current) fun _ => h.ret _

end WordParts

/-- The same with the operations of the arbiter. -/
structure ModeParts (P : Bool → {α : Type} → Code J α → Prop) : Prop extends
    OwnershipParts P where
  words : WordParts (P false)

namespace ModeParts

open WordParts (ite)

variable {P : Bool → {α : Type} → Code J α → Prop} (h : ModeParts P) {α : Type} {p q : Code J α}
include h

theorem transition {event : ModeEvent} (hcas : ∀ current next,
    nextControl current event = .ok next → P false (casModeWeak current next : Code J _))
    (rounds : ℕ) : P false (modeTransition rounds event : Code J _) :=
  h.words.transition hcas (fun _ => h.revokeOwner _) rounds

theorem admission (control requestedOwner : Word) (authenticated boardControl : Bool) :
    P false (dapAdmissionForControl control requestedOwner authenticated boardControl : Code J _) :=
  ite (fun _ => h.ret _) fun _ => h.bind h.current fun _ => h.ret _

variable (requestedOwner : Word) (authenticated boardControl : Bool) (before : Word)
  (claim : Option Claim) (operation : Option Operation)

theorem preemptNetwork (result : ModeDapResult) :
    P false (preemptNetwork requestedOwner authenticated before result : Code J _) := by
  refine ite (fun _ => h.bind h.current fun owner => ?_) fun _ => h.ret _
  refine ite (fun _ => h.bind (h.revokeOwner _) fun revoked => ?_) fun _ => h.ret _
  refine ite (fun _ => h.bind h.words.loadMode fun before => ?_) fun _ => h.ret _
  exact h.bind (h.admission _ _ _ _) fun _ => h.ret _

theorem confirmAcquire :
    P false (confirmAcquire requestedOwner authenticated before claim : Code J _) := by
  refine h.bind h.words.loadMode fun after => ite (fun _ => ?_) fun _ => h.ret _
  refine h.bind (h.release claim) fun released => h.guard fun _ => ?_
  exact h.bind (h.admission _ _ _ _) fun _ => h.ret _

theorem dapAcquire : P false (dapAcquire requestedOwner authenticated claim : Code J _) := by
  refine h.guard fun _ => h.bind h.words.loadMode fun before => ?_
  refine h.bind (h.admission _ _ _ _) fun result => ?_
  refine h.bind (h.preemptNetwork _ _ _ _) fun preempted => h.guard fun _ => ?_
  refine h.bind (h.acquire _ _) fun acquired => h.guard fun _ => ?_
  exact h.confirmAcquire _ _ _ _

theorem modeDapAcquire :
    P false (modeDapAcquire requestedOwner authenticated claim : Code J _) := by
  refine ite (fun _ => h.bind h.words.addPreemption fun _ => ?_) fun _ => h.dapAcquire _ _ _
  exact h.bind (h.dapAcquire _ _ _) fun _ => h.bind h.words.subPreemption fun _ => h.ret _

theorem confirmOperation :
    P false (confirmOperation requestedOwner authenticated boardControl before operation :
      Code J _) := by
  refine h.bind h.words.loadMode fun after => ite (fun _ => ?_) fun _ => h.ret _
  refine h.bind (h.operationEnd _) fun _ => ?_
  exact h.bind (h.admission _ _ _ _) fun _ => h.ret _

theorem admittedBegin {begins : Code J (OwnershipResult × Option Operation)}
    (hbegins : P false begins) : P false
      (admittedBegin requestedOwner authenticated boardControl operation begins : Code J _) := by
  refine h.bind h.words.loadMode fun before => ?_
  refine h.bind (h.admission _ _ _ _) fun result => h.guard fun _ => ?_
  exact h.bind hbegins fun begun => h.guard fun _ => h.confirmOperation _ _ _ _ _

theorem controlOperationBegin :
    P false (controlOperationBegin authenticated operation : Code J _) :=
  h.guard fun _ => h.admittedBegin _ _ _ _ (h.controlBegin _ _)

theorem dapOperationBegin :
    P false (dapOperationBegin requestedOwner authenticated claim operation : Code J _) :=
  h.guard fun _ => h.admittedBegin _ _ _ _ (h.operationBegin _ _)

end ModeParts
end AirDap

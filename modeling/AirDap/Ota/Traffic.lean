import AirDap.Mode.Parts
import AirDap.Ota.Machine
import AirDap.Ownership.Specs

/-! The calls of the arbiter and of the mode state that do not belong to an update. Whatever
values they are given, they keep the OTA field of the mode word, never enter or leave the
SUSPENDED state, and write the ownership word only from a state they may take over or inside a
transition of their own. -/
namespace AirDap
open Concurrency

section Words

variable {e g : Word}

theorem controlState_or_active (w : Word) : controlState (w ||| controlActive) = controlState w :=
  or_and_of_disjoint (by decide)

theorem controlState_and_not_active (w : Word) :
    controlState (w &&& ~~~controlActive) = controlState w :=
  and_and_of_le (by decide)

theorem not_isActive_and_not (w : Word) : ¬ isActive (w &&& ~~~controlActive) := by
  simp [isActive, BitVec.and_assoc, show ~~~controlActive &&& controlActive = 0 by decide]

/-- A compare-exchange from a well-formed word that a call outside an update may make. -/
structure Exchange (e d : Word) : Prop where
  source : ¬ Barred (controlState e)
  target : controlState d ≠ stateSuspended ∧ controlState d ≠ stateUninitialized
  wellFormed : WellFormed d

theorem exchange_seize (he : Unclaimed e) (hg : g.toNat < 2 ^ 28) :
    Exchange e (makeControl g stateTransition) where
  source := he.not_barred
  target := by
    rw [controlState_makeControl hg (by decide)]
    decide
  wellFormed ha := absurd ha (not_isActive_makeControl hg (by decide))

theorem exchange_reserve (he : Unclaimed e) : Exchange e (e ||| controlActive) where
  source := he.not_barred
  target := by
    have h := he.not_barred
    rw [controlState_or_active]
    exact ⟨fun hs => h (.inr (.inl hs)), fun hs => h (.inr (.inr hs))⟩
  wellFormed _ := by
    rw [controlState_or_active]
    exact he

theorem exchange_yield (he : WellFormed e) (ha : isActive e) :
    Exchange e (e &&& ~~~controlActive) where
  source := Unclaimed.not_barred (he ha)
  target := by
    have h := Unclaimed.not_barred (he ha)
    rw [controlState_and_not_active]
    exact ⟨fun hs => h (.inr (.inl hs)), fun hs => h (.inr (.inr hs))⟩
  wellFormed ha' := absurd ha' (not_isActive_and_not e)

end Words

/-- The bits of the mode word that only an update changes. -/
def updateMask : Word := modeInitialized ||| modeOtaMask

/-- The operations of such a call, inside or outside a transition of its own. -/
def TrafficAllowed (transition : Bool) : Act OtaIo → Prop
  | .loadOwnership | .loadMode | .addPreemption | .subPreemption | .loadPreemptions
  | .saveRoute _ => True
  | .casOwnership e d => transition = false ∧ (WellFormed e → Exchange e d)
  | .storeOwnership d => transition = true ∧ ¬ Barred (controlState d) ∧ WellFormed d
  | .lineReset | .releasePins => transition = true
  | .casModeWeak e d => d &&& updateMask = e &&& updateMask
  | .casOwnershipWeak _ _ | .io _ => False

def trafficNext (transition : Bool) : (a : Act OtaIo) → Resp OtaIo.Answer a → Bool
  | .casOwnership e d, none => controlState d = stateTransition ∧ controlState e ≠ stateTransition
  | .storeOwnership _, _ => false
  | _, _ => transition

/-- The code of a call outside an update, which ends outside a transition. -/
def Traffic {α : Type} (p : OtaCode α) (transition : Bool) : Prop :=
  p.Follows TrafficAllowed trafficNext (fun _ transition => transition = false) transition

namespace Traffic

variable {α β : Type} {p : OtaCode α} {f : α → OtaCode β} {b : Bool} {claim : Option Claim}
  {operation : Option Operation}

theorem bind (hp : Traffic p b) (hf : ∀ v, Traffic (f v) false) : Traffic (p >>= f) b :=
  Prog.Follows.bind hp fun v _ hb => hb.symm ▸ hf v

theorem ret (v : α) : Traffic (.ret v) false := rfl

theorem seize {e g : Word} {k : Option Word → OtaCode α} (he : Unclaimed e)
    (hg : g.toNat < 2 ^ 28) (hok : Traffic (k none) true)
    (hno : ∀ observed, Traffic (k (some observed)) false) :
    Traffic (casOwnership e (makeControl g stateTransition) >>= k) false := by
  refine Prog.follows_act ⟨rfl, fun _ => exchange_seize he hg⟩ fun r => ?_
  cases r with
  | none =>
    have hnext : trafficNext false (.casOwnership e (makeControl g stateTransition)) none =
        true := by
      have hstate := controlState_makeControl hg (by decide : stateTransition.toNat < 8)
      simpa [trafficNext, hstate] using fun h => he.not_barred (.inl h)
    rw [hnext]
    exact hok
  | some observed => exact hno observed

theorem exchange {e d : Word} {k : Option Word → OtaCode α} (h : WellFormed e → Exchange e d)
    (hd : controlState d = controlState e) (hk : ∀ r, Traffic (k r) false) :
    Traffic (casOwnership e d >>= k) false := by
  refine Prog.follows_act ⟨rfl, h⟩ fun r => ?_
  cases r with
  | none =>
    have hnext : trafficNext false (.casOwnership e d) none = false := by
      simp [trafficNext, hd]
    rw [hnext]
    exact hk none
  | some observed => exact hk (some observed)

theorem observe {a : Act OtaIo} {k : Resp OtaIo.Answer a → OtaCode α} (ha : TrafficAllowed b a)
    (hnext : ∀ r, trafficNext b a r = b) (hk : ∀ r, Traffic (k r) b) :
    Traffic ((Prog.act a .ret : OtaCode _) >>= k) b :=
  Prog.follows_act ha fun r => (hnext r).symm ▸ hk r

theorem ite {c : Prop} [Decidable c] {q : OtaCode α} (hp : c → Traffic p b)
    (hq : ¬ c → Traffic q b) : Traffic (if c then p else q) b :=
  Prog.follows_ite hp hq

theorem store {g state : Word} {k : Unit → OtaCode α} (hg : g.toNat < 2 ^ 28)
    (hlt : state.toNat < 8) (hs : ¬ Barred state) (hk : Traffic (k ()) false) :
    Traffic (storeOwnership (makeControl g state) >>= k) true := by
  refine Prog.follows_act ⟨rfl, ?_, fun ha => absurd ha (not_isActive_makeControl hg hlt)⟩
    fun _ => hk
  rwa [controlState_makeControl hg hlt]

theorem loadMode {k : Word → OtaCode α} (hk : ∀ control, Traffic (k control) false) :
    Traffic (loadMode >>= k) false :=
  observe trivial (fun _ => rfl) hk

/-- What the calls of the arbiter and of the mode state are made of. -/
theorem parts : ModeParts fun b {_} p => Traffic p b where
  ret := ret
  bind := bind
  load := observe (a := .loadOwnership) trivial fun _ => rfl
  seize := seize
  reserve he := exchange (fun _ => exchange_reserve he) (controlState_or_active _)
  -- a handle may hold anything, but a well-formed word is only ACTIVE for a free or held state
  yield ha := exchange (fun hwf => exchange_yield hwf ha) (controlState_and_not_active _)
  lineReset := observe (a := .lineReset) rfl fun _ => rfl
  releasePins := observe (a := .releasePins) rfl fun _ => rfl
  store := store
  words := ⟨ret, bind, trivial, ⟨trivial, ret⟩, ⟨trivial, ret⟩, ⟨trivial, ret⟩, ⟨trivial, ret⟩⟩

theorem guard {c : Prop} [Decidable c] {v : α} {q : OtaCode α} (hq : ¬ c → Traffic q false) :
    Traffic (if c then pure v else q) false :=
  parts.guard hq

theorem transition {event : ModeEvent} (he : ¬ event.Ota) (rounds : ℕ) :
    Traffic (modeTransition rounds event) false := by
  have hupdate : event.changes &&& updateMask = 0 := by
    cases event with
    | unknown value => exact (by decide : modeDebugShellEpochMask &&& updateMask = 0)
    | _ => first | decide | exact absurd trivial he
  exact parts.transition (fun _ _ hnext => ⟨nextControl_and hupdate hnext, ret⟩) rounds

theorem selectRoute {route : Word} (hroute : ¬ route > routeNetworkAutoToggle) (rounds : ℕ)
    (current : Word) : Traffic (selectRoute rounds route current) false := by
  refine parts.words.selectRoute ⟨trivial, ret⟩ (fun observed => ⟨?_, ret⟩) rounds
  have h : selectedRoute current route = routeAuto ∨ _ ∨ _ := selectedRoute_stored hroute
  change routedControl observed (selectedRoute current route) &&& updateMask = _
  rw [routedControl, incrementField_and (by decide) (by decide)]
  rcases h with h | h | h <;> rw [h] <;> exact replaceField_and (by decide) (by decide)

theorem setDapRoute (rounds : ℕ) (route : Word) : Traffic (setDapRoute rounds route) false := by
  refine guard fun hroute => (parts.controlBegin _ _).bind fun begun => ?_
  refine guard fun _ => ite (fun _ => ?_) fun _ => ?_
  · exact (parts.operationEnd _).bind fun _ => ret _
  · refine loadMode fun current => ?_
    refine (selectRoute (fun h => hroute (.inr h)) rounds current).bind fun result => ?_
    exact (parts.operationEnd _).bind fun _ => ret _

theorem code {c : OtaCall} (hc : c.Allowed) (hrequest : c.request = none) :
    Traffic c.code false := by
  cases c with
  | ota rounds request => cases hrequest
  | ownership c =>
    refine parts.code id (fun rounds h => hc ?_) fun rounds h => hc ?_
    · cases h
      trivial
    · cases h
      trivial
  | transition rounds event => exact transition hc rounds
  | setDapRoute rounds route => exact setDapRoute rounds route
  | dapAcquire requestedOwner authenticated claim => exact parts.modeDapAcquire _ _ _
  | controlOperationBegin authenticated operation => exact parts.controlOperationBegin _ _
  | dapOperationBegin requestedOwner authenticated claim operation =>
    exact parts.dapOperationBegin _ _ _ _

end Traffic
end AirDap

import AirDap.Concurrency.RelyGuarantee
import AirDap.Ownership.Arbiter

/-! The memory that the debug calls of the firmware share and the atomic operations on it. -/
namespace AirDap
open Concurrency

/-- The ownership word, the mode word, the counter of USB preemptions, the stored DAP route
and the variables of the callers. -/
structure Device (M : Type) where
  ownershipControl : Word
  modeControl : Word
  usbPreemptionsInflight : Word
  storedRoute : Word
  memory : M

/-- One atomic operation, one callback of the ownership backend, one save of the route to
flash, or an operation `I` that touches none of the shared words. -/
inductive Act (I : Type) where
  | loadOwnership
  | storeOwnership (desired : Word)
  | casOwnership (expected desired : Word)
  | casOwnershipWeak (expected desired : Word)
  | lineReset
  | releasePins
  | loadMode
  | casModeWeak (expected desired : Word)
  | addPreemption
  | subPreemption
  | loadPreemptions
  | saveRoute (route : Word)
  | io (i : I)

/-- The operations that only the thread in the transition performs. -/
def Act.Exclusive {I : Type} : Act I → Prop
  | .lineReset | .releasePins | .storeOwnership _ => True
  | _ => False

/-- The operations that do not touch the ownership word. -/
def Act.Local {I : Type} : Act I → Prop
  | .loadMode | .casModeWeak _ _ | .addPreemption | .subPreemption | .loadPreemptions
  | .saveRoute _ | .io _ => True
  | _ => False

variable {I : Type} {J : I → Type} {M α : Type}

/-- A compare-exchange answers `none` when it exchanged and the value it found otherwise. -/
@[reducible] def Resp (J : I → Type) : Act I → Type
  | .loadOwnership | .loadMode | .loadPreemptions => Word
  | .storeOwnership _ | .addPreemption | .subPreemption => Unit
  | .casOwnership _ _ | .casOwnershipWeak _ _ | .casModeWeak _ _ => Option Word
  | .lineReset | .releasePins | .saveRoute _ => Bool
  | .io i => J i

/-- A weak compare-exchange may fail although it finds the expected value. A save that
reports a failure may have reached the flash or not. -/
def Device.exec (w : Device M) : (a : Act I) → Resp J a → Device M → Prop
  | .loadOwnership, r, w' => r = w.ownershipControl ∧ w' = w
  | .storeOwnership desired, _, w' => w' = { w with ownershipControl := desired }
  | .casOwnership expected desired, r, w' =>
      (w.ownershipControl = expected ∧ r = none ∧ w' = { w with ownershipControl := desired }) ∨
      (w.ownershipControl ≠ expected ∧ r = some w.ownershipControl ∧ w' = w)
  | .casOwnershipWeak expected desired, r, w' =>
      (w.ownershipControl = expected ∧ r = none ∧ w' = { w with ownershipControl := desired }) ∨
      (r = some w.ownershipControl ∧ w' = w)
  | .loadMode, r, w' => r = w.modeControl ∧ w' = w
  | .casModeWeak expected desired, r, w' =>
      (w.modeControl = expected ∧ r = none ∧ w' = { w with modeControl := desired }) ∨
      (r = some w.modeControl ∧ w' = w)
  | .addPreemption, _, w' =>
      w' = { w with usbPreemptionsInflight := w.usbPreemptionsInflight + 1 }
  | .subPreemption, _, w' =>
      w' = { w with usbPreemptionsInflight := w.usbPreemptionsInflight - 1 }
  | .loadPreemptions, r, w' => r = w.usbPreemptionsInflight ∧ w' = w
  | .saveRoute route, r, w' => w' = { w with storedRoute := route } ∨ (r = false ∧ w' = w)
  | .lineReset, _, w' | .releasePins, _, w' | .io _, _, w' => w' = w

theorem Device.exec_local {w w' : Device M} {a : Act I} {r : Resp J a} (ha : a.Local)
    (hw : w.exec a r w') :
    w'.ownershipControl = w.ownershipControl ∧ w'.memory = w.memory := by
  cases a with
  | loadMode | loadPreemptions => rw [hw.2]; exact ⟨rfl, rfl⟩
  | addPreemption | subPreemption | io i => cases hw; exact ⟨rfl, rfl⟩
  | casModeWeak expected desired =>
    rcases hw with ⟨-, -, rfl⟩ | ⟨-, rfl⟩ <;> exact ⟨rfl, rfl⟩
  | saveRoute route => rcases hw with rfl | ⟨-, rfl⟩ <;> exact ⟨rfl, rfl⟩
  | _ => exact ha.elim

abbrev Code (J : I → Type) (α : Type) := Prog (Act I) (Resp J) α

def loadOwnership : Code J Word := .act .loadOwnership .ret
def storeOwnership (desired : Word) : Code J Unit := .act (.storeOwnership desired) .ret
def casOwnership (expected desired : Word) : Code J (Option Word) :=
  .act (.casOwnership expected desired) .ret
def casOwnershipWeak (expected desired : Word) : Code J (Option Word) :=
  .act (.casOwnershipWeak expected desired) .ret
def backendLineReset : Code J Bool := .act .lineReset .ret
def backendReleasePins : Code J Bool := .act .releasePins .ret
def loadMode : Code J Word := .act .loadMode .ret
def casModeWeak (expected desired : Word) : Code J (Option Word) :=
  .act (.casModeWeak expected desired) .ret
def addPreemption : Code J Unit := .act .addPreemption .ret
def subPreemption : Code J Unit := .act .subPreemption .ret
def loadPreemptions : Code J Word := .act .loadPreemptions .ret
def saveRoute (route : Word) : Code J Bool := .act (.saveRoute route) .ret
def io (i : I) : Code J (J i) := .act (.io i) .ret

/-- A device on which every compare-exchange that can succeed does, and every callback and
every save succeeds. -/
def Device.answer (reply : (i : I) → J i) (w : Device M) : (a : Act I) → Resp J a × Device M
  | .loadOwnership => (w.ownershipControl, w)
  | .storeOwnership desired => ((), { w with ownershipControl := desired })
  | .casOwnership expected desired | .casOwnershipWeak expected desired =>
    if w.ownershipControl = expected then (none, { w with ownershipControl := desired })
    else (some w.ownershipControl, w)
  | .lineReset | .releasePins => (true, w)
  | .loadMode => (w.modeControl, w)
  | .casModeWeak expected desired =>
    if w.modeControl = expected then (none, { w with modeControl := desired })
    else (some w.modeControl, w)
  | .addPreemption => ((), { w with usbPreemptionsInflight := w.usbPreemptionsInflight + 1 })
  | .subPreemption => ((), { w with usbPreemptionsInflight := w.usbPreemptionsInflight - 1 })
  | .loadPreemptions => (w.usbPreemptionsInflight, w)
  | .saveRoute route => (true, { w with storedRoute := route })
  | .io i => (reply i, w)

theorem Device.exec_answer (reply : (i : I) → J i) (w : Device M) (a : Act I) :
    w.exec a (w.answer reply a).1 (w.answer reply a).2 := by
  cases a with
  | casOwnership expected desired =>
    by_cases h : w.ownershipControl = expected <;> simp [Device.answer, Device.exec, h]
  | casOwnershipWeak expected desired =>
    by_cases h : w.ownershipControl = expected <;> simp [Device.answer, Device.exec, h]
  | casModeWeak expected desired =>
    by_cases h : w.modeControl = expected <;> simp [Device.answer, Device.exec, h]
  | _ => simp [Device.answer, Device.exec]

end AirDap

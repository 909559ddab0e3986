import AirDap.Ownership.Dispatch
import AirDap.Mode.Trace
import AirDap.Shell.SwdProbe

/-! Threads that make calls of the mode state, of the arbiter and of the diagnostic probe in
any order. A handle that a call keeps in a local variable is named by the thread. -/
namespace AirDap
open Concurrency

variable {T H : Type}

inductive ModeCall (H : Type) where
  | ownership (c : OwnershipCall H)
  | transition (rounds : ℕ) (event : ModeEvent)
  | setDapRoute (rounds : ℕ) (route : Word)
  | dapAcquire (requestedOwner : Word) (authenticated : Bool) (claim : Option Claim)
  | controlOperationBegin (authenticated : Bool) (operation : Option H)
  | dapOperationBegin (requestedOwner : Word) (authenticated : Bool) (claim : Option Claim)
      (operation : Option H)
  | swdProbe (arguments : Option (List Char)) (backend : Option ProbeBackend)
      (result : Option ProbeResult)

namespace ModeCall

@[reducible] def Value : ModeCall H → Type
  | .ownership c => c.Value
  | .transition _ _ => ModeStateResult
  | .setDapRoute _ _ => ModeDapResult
  | .dapAcquire _ _ _ => ModeDapResult × Option Claim
  | .controlOperationBegin _ _ | .dapOperationBegin _ _ _ _ => ModeDapResult × Option Operation
  | .swdProbe _ _ _ => ProbeStatus × Option ProbeResult

def handle : ModeCall H → Option H
  | .ownership c => c.handle
  | .controlOperationBegin _ h | .dapOperationBegin _ _ _ h => h
  | _ => none

def code (handles : H → Operation) : (c : ModeCall H) → Code ProbeIo.Answer c.Value
  | .ownership c => c.code handles
  | .transition rounds event => modeTransition rounds event
  | .setDapRoute rounds route => AirDap.setDapRoute rounds route
  | .dapAcquire requestedOwner authenticated claim =>
    modeDapAcquire requestedOwner authenticated claim
  | .controlOperationBegin authenticated h =>
    AirDap.controlOperationBegin authenticated (h.map handles)
  | .dapOperationBegin requestedOwner authenticated claim h =>
    AirDap.dapOperationBegin requestedOwner authenticated claim (h.map handles)
  | .swdProbe arguments backend result => AirDap.swdProbe arguments backend result

/-- The value that a call leaves in its handle. -/
def operation : (c : ModeCall H) → c.Value → Option Operation
  | .ownership c, v => c.operation v
  | .controlOperationBegin _ _, v | .dapOperationBegin _ _ _ _, v => v.2
  | _, _ => none

/-- The calls that take the pins from the network for USB. -/
def Preempts : ModeCall H → Prop
  | .transition _ event => event = .usbAttached
  | .dapAcquire requestedOwner _ _ => requestedOwner = ownerUsb
  | _ => False

end ModeCall

abbrev ModeConfig (T H : Type) :=
  Config T (Act ProbeIo) (Resp ProbeIo.Answer) (Device (H → Operation)) (ModeCall H)
    ModeCall.Value

abbrev ModeState (T H : Type) :=
  DState T (H ⊕ T) ProbeIo.Answer (H → Operation) (ModeCall H) ModeCall.Value

/-- The thread that uses a handle, stored or local. -/
def keyUser (user : H → T) : H ⊕ T → T := Sum.elim user id

def modeMachine [DecidableEq H] (user : H → T) : Machine T (Act ProbeIo) (Resp ProbeIo.Answer)
    (Device (H → Operation)) (ModeCall H) ModeCall.Value where
  may t c _ := ∀ h, c.handle = some h → user h = t
  code _ c w := c.code w.memory
  exec _ := Device.exec
  finish _ c v w := { w with memory := storeHandle w.memory c.handle (c.operation v) }

/-- The word shows a stored route, and the network became the owner under the route that is
still selected. -/
structure Sane (s : ModeState T H) : Prop where
  route : routeOf s.world.modeControl ≠ routeToggle
  grant : s.ghost.Holds .network → ∃ w, networkGrant s.history = some w ∧
    routeOf w.modeControl = routeOf s.world.modeControl

/-- What every step of thread `t` does to the mode word: the route changes only by a
compare-exchange made while no owner holds the pins. -/
structure Orderly (t : T) (s s' : ModeState T H) : Prop where
  initialized : s.world.modeControl &&& modeInitialized ≠ 0 →
    s'.world.modeControl &&& modeInitialized ≠ 0
  sane : Sane s → Sane s'
  route : routeOf s'.world.modeControl ≠ routeOf s.world.modeControl →
    (∃ k, s.ghost.phase = .lent none k) ∧ ∃ e, s'.history =
      .acted t (.casModeWeak e s'.world.modeControl) none s.world :: s.history

variable [DecidableEq T]

abbrev ModeHistory (T H : Type) := List (Event T (Act ProbeIo) (Resp ProbeIo.Answer)
  (Device (H → Operation)) (ModeCall H) ModeCall.Value)

/-- The operation shows another route than NETWORK, on which the call takes the pins from the
network: a transition decides by its exchange, an acquire by its load. -/
def ModeCall.decides : ModeCall H → (a : Act ProbeIo) → Resp ProbeIo.Answer a → Bool
  | .transition _ _, .casModeWeak _ desired, none => routeOf desired ≠ routeNetwork
  | .dapAcquire _ _ _, .loadMode, control => routeOf control ≠ routeNetwork
  | _, _, _ => false

/-- In its current call thread `t` has seen another route than NETWORK and decided by it. -/
def decided (t : T) : ModeHistory T H → Bool
  | [] => false
  | .called u _ _ :: h => u ≠ t && decided t h
  | .acted u a r _ :: h => u = t && (lastCall t h).any (·.1.decides a r) || decided t h
  | .returned _ _ _ :: h => decided t h

/-- A route command installs the NETWORK route. -/
def installsNetwork : Event T (Act ProbeIo) (Resp ProbeIo.Answer) (Device (H → Operation))
    (ModeCall H) ModeCall.Value → Bool
  | .acted _ (.casModeWeak _ desired) none w =>
    routeOf w.modeControl ≠ routeNetwork ∧ routeOf desired = routeNetwork
  | _ => false

/-- A route command has installed the NETWORK route while a USB preemption was in flight that had
seen another route. -/
def Crossed : ModeHistory T H → Prop
  | [] => False
  | e :: h => installsNetwork e = true ∧
      (∃ t, (trace t h).preempting = true ∧ decided t h = true) ∨ Crossed h

instance Crossed.decidable [Fintype T] :
    DecidablePred (Crossed : ModeHistory T H → Prop)
  | [] => inferInstanceAs (Decidable False)
  | _ :: h =>
    have := Crossed.decidable h
    inferInstanceAs (Decidable (_ ∨ _))

theorem decided_of_ne {t : T} {e} {h : ModeHistory T H} (he : e.thread ≠ t) :
    decided t (e :: h) = decided t h := by
  have hne : ¬ e.thread = t := he
  cases e <;> simp_all [decided, Event.thread]

theorem decided_of_acted {t : T} {c : ModeCall H} {w₀ w : Device (H → Operation)}
    {a : Act ProbeIo} {r : Resp ProbeIo.Answer a} {h : ModeHistory T H}
    (hcall : lastCall t (.acted t a r w :: h) = some (c, w₀)) (hc : c.decides a r = true) :
    decided t (.acted t a r w :: h) = true := by
  have hcall : lastCall t h = some (c, w₀) := hcall
  simp [decided, hcall, hc]

def modeDiscipline (user : H → T) :
    DDiscipline T (H ⊕ T) ProbeIo.Answer (H → Operation) (ModeCall H) ModeCall.Value where
  exec _ := Device.exec
  guar t s s' := Legal (keyUser user) Sum.inl t s s' ∧ Orderly t s s'
  pre t a s := (Tracks s ∧ Sane s) ∧
    (∀ b ∈ a, b.Exclusive → s.ghost.phase = .transition t) ∧
    ∀ e d, a = some (.casOwnership e d) → controlState e = ownerNetwork →
      ∀ c w, lastCall t s.history = some (c, w) → c.Preempts →
        Crossed s.history ∨ routeOf s.world.modeControl ≠ routeNetwork

abbrev ModeWp {α : Type} (user : H → T) (t : T) (p : Code ProbeIo.Answer α)
    (Q : α → ModeState T H → Prop) (s : ModeState T H) : Prop :=
  (modeDiscipline user).wp t p Q s

section Steps

omit [DecidableEq T]

variable {user : H → T} {t : T} {s s' : ModeState T H} {a : Act ProbeIo}
  {r : Resp ProbeIo.Answer a} {m : Move (H ⊕ T)} {γ : Arbiter T (H ⊕ T)}

/-- An operation that makes nobody the owner keeps the route of the grant. -/
theorem Sane.moved (hs : Sane s) (hstep : s.ghost.Step (keyUser user) t m γ)
    (hm : ∀ o, m ≠ .grant o)
    (hgrant : networkGrant (.acted t a r s.world :: s.history) = networkGrant s.history) :
    Sane (moved s t a r γ) where
  route := hs.route
  grant hold := by
    obtain ⟨hold₀, -⟩ := (hstep.holds hold).resolve_right fun h => hm _ h.1
    obtain ⟨w, hw, hroute⟩ := hs.grant hold₀
    exact ⟨w, hgrant.trans hw, hroute⟩

theorem Sane.granted (hs : Sane s) : Sane (AirDap.moved s t (.storeOwnership γ.control) () γ) where
  route := hs.route
  grant hold := by
    have hstate : controlState γ.control = ownerNetwork := Arbiter.holds_iff_state.mp hold
    exact ⟨s.world, if_pos hstate, rfl⟩

theorem Quiet.networkGrant (hq : Quiet (keyUser user) t s s') :
    networkGrant s'.history = networkGrant s.history := by
  cases hq with
  | store hstep =>
    refine if_neg fun he => ?_
    have hno := hstep.settle_isOwner
    rw [he] at hno
    cases hno
  | _ => rfl

theorem Quiet.orderly (hq : Quiet (keyUser user) t s s') : Orderly t s s' := by
  have hgrant := hq.networkGrant
  obtain ⟨a, r, γ, m, rfl, hm, hstep⟩ := hq.exists_moved
  refine ⟨id, fun hs => hs.moved hstep ?_ hgrant, fun h => absurd rfl h⟩
  rintro o rfl
  exact hm

theorem Sane.acted (hs : Sane s) {w : Device (H → Operation)} (ha : ∀ d, a ≠ .storeOwnership d)
    (hroute : routeOf w.modeControl = routeOf s.world.modeControl) :
    Sane (s.acted t a r w s.ghost) where
  route := hroute ▸ hs.route
  grant hold := by
    obtain ⟨w', hw', hr⟩ := hs.grant hold
    refine ⟨w', Eq.trans ?_ hw', hr.trans hroute.symm⟩
    cases a with
    | storeOwnership d => exact absurd rfl (ha d)
    | _ => rfl

end Steps
end AirDap

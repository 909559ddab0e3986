import AirDap.Mode.Machine
import AirDap.Mode.Parts
import AirDap.Concurrency.Protocol

/-! Where a call stands with respect to the DAP route. Only `setDapRoute` stores a route or
installs one in the mode word, and it does both while it has the free ownership word
reserved. -/
namespace AirDap
open Concurrency Prog

variable {T H I : Type} {J : I → Type} {α β : Type}

/-- The routes that are stored. -/
def IsStored (route : Word) : Prop :=
  route = routeAuto ∨ route = routeUsb ∨ route = routeNetwork

/-- A thread between calls (`idle`), in a call that does not concern the route (`other`), or in
`setDapRoute`: before its reservation (`asked`), with the free word reserved (`reserved`), with
a route stored and not installed yet (`saved`), after it installed the route (`installed`), or
after it gave up without a change (`kept`). -/
inductive RoutePlace where
  | idle | other | asked | reserved | saved (route : Word) | installed | kept
  deriving DecidableEq

namespace RoutePlace

/-- Inside `setDapRoute`. -/
def Routing : RoutePlace → Prop
  | .idle | .other => False
  | _ => True

/-- With the free word reserved. -/
def Reserving : RoutePlace → Prop
  | .reserved | .saved _ => True
  | _ => False

/-- Inside `setDapRoute`, which has changed nothing so far. -/
def Unchanged : RoutePlace → Prop
  | .asked | .reserved | .kept => True
  | _ => False

def Allowed : RoutePlace → Act I → Prop
  | .idle, _ => False
  | .other, .saveRoute _ => False
  | .other, .casModeWeak expected desired => routeOf desired = routeOf expected
  | .other, _ => True
  | .asked, .loadOwnership => True
  | .asked, .casOwnership expected desired =>
    ¬ isActive expected ∧ desired = expected ||| controlActive
  | .reserved, .loadMode | .reserved, .loadPreemptions | .reserved, .casOwnership _ _ => True
  | .reserved, .saveRoute route => IsStored route
  | .saved route, .casModeWeak expected desired =>
    IsStored route ∧ desired = routedControl expected route
  | .installed, .casOwnership _ _ | .kept, .casOwnership _ _ => True
  | _, _ => False

def next : RoutePlace → (a : Act I) → Resp J a → RoutePlace
  | .asked, .casOwnership expected _, none =>
    if controlState expected = ownerNone then .reserved else .kept
  | .reserved, .saveRoute route, true => .saved route
  | .reserved, .casOwnership _ _, _ => .kept
  | .saved _, .casModeWeak _ _, none => .installed
  | x, _, _ => x

end RoutePlace

def ModeCall.routeStart : ModeCall H → RoutePlace
  | .setDapRoute _ _ => .asked
  | _ => .other

/-- Where a call may return: `setDapRoute` ends its reservation, and it has installed a route
only if it answers ALLOWED. -/
def ModeCall.routeReturns : (c : ModeCall H) → c.Value → RoutePlace → Prop
  | .setDapRoute _ _, v, x => x = .asked ∨ x = .kept ∨ (x = .installed ∧ v = .allowed)
  | _, _, x => x = .other

def routeProtocol : Protocol T (Act ProbeIo) (Resp ProbeIo.Answer) (Device (H → Operation))
    (ModeCall H) RoutePlace where
  idle := .idle
  start _ c _ := c.routeStart
  allowed := RoutePlace.Allowed
  next := RoutePlace.next

/-- A program that neither stores a route nor changes the one in the mode word. -/
def RouteSteady (p : Code J α) : Prop :=
  p.Follows RoutePlace.Allowed RoutePlace.next (fun _ x => x = .other) .other

namespace RouteSteady

variable {p : Code J α} {f : α → Code J β} {claim : Option Claim} {operation : Option Operation}

theorem bind (hp : RouteSteady p) (hf : ∀ v, RouteSteady (f v)) : RouteSteady (p >>= f) :=
  Prog.Follows.bind hp fun v _ hx => hx.symm ▸ hf v

theorem ret (v : α) : RouteSteady (.ret v : Code J α) := rfl

theorem ite {c : Prop} [Decidable c] {q : Code J α} (hp : c → RouteSteady p)
    (hq : ¬ c → RouteSteady q) :
    RouteSteady (if c then p else q) :=
  follows_ite hp hq

theorem act {a : Act I} {k : Resp J a → Code J α} (ha : RoutePlace.other.Allowed a)
    (hk : ∀ r, RouteSteady (k r)) : RouteSteady (.act a k : Code J α) :=
  ⟨ha, hk⟩

theorem guard {c : Prop} [Decidable c] {v : α} {q : Code J α} (hq : ¬ c → RouteSteady q) :
    RouteSteady (if c then pure v else q) :=
  ite (fun _ => ret v) hq

/-- What the calls of the arbiter and of the mode state are made of. -/
theorem parts : ModeParts (J := J) fun _ {_} p => RouteSteady p where
  ret := ret
  bind := bind
  load := act (a := .loadOwnership) trivial
  seize _ _ hok hno := act trivial fun r => by
    cases r with
    | none => exact hok
    | some observed => exact hno observed
  reserve _ := act (a := .casOwnership _ _) trivial
  yield _ := act (a := .casOwnership _ _) trivial
  lineReset := act (a := .lineReset) trivial
  releasePins := act (a := .releasePins) trivial
  store _ _ _ hk := act trivial fun _ => hk
  words := ⟨ret, bind, trivial, act trivial ret, act trivial ret, act trivial ret, act trivial ret⟩

variable (rounds : ℕ) (current owner : Word) (backend : ProbeBackend) (result : ProbeResult)

theorem suspendLoop : RouteSteady (suspendLoop rounds current : Code J _) := by
  induction rounds generalizing current with
  | zero => trivial
  | succ rounds ih =>
    refine guard fun _ => guard fun _ => guard fun _ => ?_
    refine guard fun _ => ite (fun _ => act trivial fun r => ?_) fun _ => ?_
    · cases r with
      | none => exact ret _
      | some observed => exact ih observed
    · refine guard fun _ => act trivial fun r => ?_
      cases r with
      | none => exact act trivial fun _ => act trivial fun _ => ret _
      | some observed => exact ih observed

theorem resumeLoop : RouteSteady (resumeLoop rounds current : Code J _) := by
  induction rounds generalizing current with
  | zero => trivial
  | succ rounds ih =>
    refine guard fun _ => guard fun _ => guard fun _ => ?_
    refine guard fun _ => act trivial fun r => ?_
    cases r with
    | none => exact ret _
    | some observed => exact ih observed

theorem ownership (handles : H → Operation) (c : OwnershipCall H) :
    RouteSteady (c.code handles : Code J _) := by
  cases c with
  | suspend rounds => exact act trivial fun current => suspendLoop rounds current
  | resume rounds => exact act trivial fun current => resumeLoop rounds current
  | _ => exact parts.code handles (fun _ h => by cases h) fun _ h => by cases h

theorem probeCancelled : RouteSteady (probeCancelled backend) :=
  ite (fun _ => act trivial fun _ => ret _) fun _ => ret _

theorem probeExchange : RouteSteady (probeExchange backend result) := by
  refine (probeCancelled _).bind fun _ => guard fun _ => act trivial fun _ => ?_
  refine guard fun _ => (probeCancelled _).bind fun _ => ?_
  refine guard fun _ => act trivial fun _ => guard fun _ => ?_
  refine (probeCancelled _).bind fun _ => guard fun _ => act trivial fun _ => ?_
  refine guard fun _ => (probeCancelled _).bind fun _ => ?_
  exact guard fun _ => ret _

theorem probeTarget : RouteSteady (probeTarget backend result) := by
  refine (parts.modeDapAcquire _ _ _).bind fun acquired => guard fun _ => ?_
  refine guard fun _ => (parts.dapOperationBegin _ _ _ _).bind fun begun => ?_
  refine ite (fun _ => (parts.release _).bind fun _ => ret _) fun _ => ?_
  refine (probeExchange _ _).bind fun exchanged => ?_
  exact (parts.operationEnd _).bind fun _ => (parts.release _).bind fun _ => ret _

theorem swdProbe (arguments : Option (List Char)) (backend : Option ProbeBackend)
    (result : Option ProbeResult) : RouteSteady (swdProbe arguments backend result) := by
  unfold AirDap.swdProbe
  split
  · exact ret _
  · refine guard fun _ => ?_
    split
    · exact ret _
    · exact (probeTarget _ _).bind fun _ => ret _
  · exact ret _

end RouteSteady

section SetDapRoute

variable {x : RoutePlace}

theorem controlBegin_follows (owner : Word) :
    (ownershipControlBegin owner (some .zero) : Code J _).Follows RoutePlace.Allowed
      RoutePlace.next (fun v x => (ownershipResult v.1 ≠ .allowed ∧ x = .asked) ∨
        ∃ op, v = (.ok, some op) ∧ op.active = true ∧
          x = if op.owner = ownerNone then .reserved else .kept) .asked := by
  refine follows_guard (.inl ⟨by decide, rfl⟩) fun _ => ?_
  refine follows_guard (.inl ⟨by decide, rfl⟩) fun _ => ?_
  refine follows_act trivial fun current => ?_
  refine follows_guard (.inl ⟨by decide, rfl⟩) fun _ => ?_
  refine follows_guard (.inl ⟨by decide, rfl⟩) fun _ => ?_
  refine follows_guard (.inl ⟨by decide, rfl⟩) fun hfree => ?_
  rw [not_or] at hfree
  refine follows_act ⟨hfree.2, rfl⟩ fun r => ?_
  cases r with
  | none => exact .inr ⟨_, rfl, rfl, rfl⟩
  | some observed => exact .inl ⟨by decide, rfl⟩

theorem operationEnd_follows {op : Operation} (hop : op.active = true) {y : RoutePlace}
    (hallowed : ∀ e d, x.Allowed (.casOwnership e d : Act I))
    (hnext : ∀ e d r, x.next (J := J) (.casOwnership e d : Act I) r = y) :
    (ownershipOperationEnd (some op) : Code J _).Follows RoutePlace.Allowed RoutePlace.next
      (fun _ x => x = y) x := by
  refine follows_ite (fun h => ?_) fun _ => ?_
  · simp [hop] at h
  · exact follows_act (hallowed _ _) fun r => hnext _ _ r

theorem installRoute_follows {selected : Word} (hsel : IsStored selected) (rounds : ℕ)
    (current : Word) :
    (installRoute selected rounds current : Code J _).Follows RoutePlace.Allowed RoutePlace.next
      (fun _ x => x = .installed) (.saved selected) := by
  induction rounds generalizing current with
  | zero => trivial
  | succ rounds ih =>
    refine follows_act ⟨hsel, rfl⟩ fun r => ?_
    cases r with
    | none => rfl
    | some observed => exact ih observed

theorem selectRoute_follows (rounds : ℕ) {route : Word} (hroute : ¬ route > routeNetworkAutoToggle)
    (current : Word) :
    (selectRoute rounds route current : Code J _).Follows RoutePlace.Allowed RoutePlace.next
      (fun v x => x = .reserved ∨ (x = .installed ∧ v = .allowed)) .reserved := by
  refine follows_guard (.inl rfl) fun _ => ?_
  refine follows_guard (.inl rfl) fun _ => ?_
  refine follows_act trivial fun inflight => ?_
  refine follows_guard (.inl rfl) fun _ => ?_
  refine follows_guard (.inl rfl) fun _ => ?_
  have hsel : IsStored (selectedRoute current route) := selectedRoute_stored hroute
  refine follows_act hsel fun saved => ?_
  cases saved with
  | false => exact .inl rfl
  | true =>
    exact (installRoute_follows hsel rounds current).bind fun _ x hx => .inr ⟨hx, rfl⟩

theorem setDapRoute_follows (rounds : ℕ) (route : Word) :
    (setDapRoute rounds route : Code J _).Follows RoutePlace.Allowed RoutePlace.next
      (fun v x => x = .asked ∨ x = .kept ∨ (x = .installed ∧ v = .allowed)) .asked := by
  refine follows_guard (.inl rfl) fun hroute => ?_
  rw [not_or] at hroute
  have hend {op : Operation} (hop : op.active = true) {x y : RoutePlace} (v : ModeDapResult)
      (hx : (x = .reserved ∨ x = .kept) ∧ y = .kept ∨ x = .installed ∧ y = .installed) :
      (ownershipOperationEnd (some op) >>= fun _ => pure v : Code J _).Follows RoutePlace.Allowed
        RoutePlace.next (fun v' x => x = y ∧ v' = v) x := by
    refine (operationEnd_follows (y := y) hop ?_ ?_).bind fun _ x hx => ⟨hx, rfl⟩
    · rcases hx with ⟨rfl | rfl, -⟩ | ⟨rfl, -⟩ <;> exact fun _ _ => trivial
    · rcases hx with ⟨rfl | rfl, rfl⟩ | ⟨rfl, rfl⟩ <;> exact fun _ _ _ => rfl
  refine (controlBegin_follows ownerDiagnostic).bind fun begun x hx => ?_
  rcases hx with ⟨hno, rfl⟩ | ⟨op, rfl, hactive, rfl⟩
  · exact follows_guard (.inl rfl) fun hallowed => absurd hno hallowed
  · refine follows_ite (fun h => absurd rfl h) fun _ => ?_
    refine follows_ite (fun howner => ?_) fun howner => ?_
    · rw [if_neg fun h => howner (congrArg some h)]
      exact (hend hactive _ (.inl ⟨.inr rfl, rfl⟩)).mono fun v x hx => .inr (.inl hx.1)
    · rw [if_pos (Option.some.inj (not_not.mp howner))]
      refine follows_act trivial fun current => ?_
      refine (selectRoute_follows rounds hroute.2 current).bind fun v x hx => ?_
      rcases hx with rfl | ⟨rfl, rfl⟩
      · exact (hend hactive v (.inl ⟨.inl rfl, rfl⟩)).mono fun v x hx => .inr (.inl hx.1)
      · exact (hend hactive _ (.inr ⟨rfl, rfl⟩)).mono fun v x hx => .inr (.inr hx)

end SetDapRoute

theorem routeProtocol_keeps [DecidableEq H] (user : H → T) :
    (modeMachine user).Keeps routeProtocol fun _ c => c.routeReturns := by
  intro t c w _
  cases c with
  | ownership call => exact RouteSteady.ownership w.memory call
  | transition rounds event =>
    refine RouteSteady.parts.transition (fun _ _ hnext => ?_) rounds
    exact RouteSteady.act (routeOf_eq (nextControl_settled hnext)) RouteSteady.ret
  | setDapRoute rounds route => exact setDapRoute_follows rounds route
  | dapAcquire owner authenticated claim =>
    exact RouteSteady.parts.modeDapAcquire owner authenticated claim
  | controlOperationBegin authenticated operation =>
    exact RouteSteady.parts.controlOperationBegin authenticated _
  | dapOperationBegin owner authenticated claim operation =>
    exact RouteSteady.parts.dapOperationBegin owner authenticated claim _
  | swdProbe arguments backend result => exact RouteSteady.swdProbe arguments backend result

end AirDap

import AirDap.Mode.RouteCalls
import AirDap.Mode.Verified
import AirDap.Concurrency.Ghost

/-! The DAP route is in the mode word and in flash. A route command stores the new route and
then installs it, with other events of the mode state in between; the reservation of the free
ownership word keeps other route commands away. -/
namespace AirDap
open Concurrency

variable {T H I : Type} {J : I → Type} {M : Type}

section Boot

/-- What reading the route from flash gives. -/
inductive NvsRead where
  | value (route : BitVec 8)
  | notFound
  | failed

/-- `airdap_mode_storage_load`. -/
def modeStorageLoad : NvsRead → Option Word
  | .value route => if route > 2 then none else some (route.setWidth 32)
  | .notFound => some routeAuto
  | .failed => none

/-- `airdap_mode_state_restore_dap_route`, which runs alone at boot: its result and the mode
word that it leaves. -/
def restoreDapRoute (control : Word) (read : NvsRead) : ModeStateResult × Word :=
  if control &&& ~~~modeUsbOtaEpochMask ≠ modeInitialized then (.invalidState, control)
  else
    match modeStorageLoad read with
    | none => (.storageError, control)
    | some route => (.ok, replaceField control modeDapRouteMask modeDapRouteShift route)

/-- A device whose route was restored at boot and on which no call has been made. -/
structure Booted (w : Device (H → Operation)) : Prop where
  ownership : w.ownershipControl = ownerNone
  handles : ∀ h, (w.memory h).active = false
  restored : ∃ control read, restoreDapRoute control read = (.ok, w.modeControl) ∧
    modeStorageLoad read = some w.storedRoute

variable {route : Word}

theorem modeStorageLoad_stored {read : NvsRead} (h : modeStorageLoad read = some route) :
    IsStored route := by
  cases read with
  | value route =>
    simp only [modeStorageLoad] at h
    split at h
    · cases h
    · cases h
      unfold IsStored routeAuto routeUsb routeNetwork
      rename_i hle
      bv_omega
  | notFound =>
    cases h
    exact .inl rfl
  | failed => cases h

theorem routeOf_replaceField (control : Word) (h : IsStored route) :
    routeOf (replaceField control modeDapRouteMask modeDapRouteShift route) = route := by
  have hclear : control &&& ~~~modeDapRouteMask &&& modeDapRouteMask = 0 := by
    rw [BitVec.and_assoc, show ~~~modeDapRouteMask &&& modeDapRouteMask = 0 by decide]
    simp
  rw [routeOf, fieldValue, replaceField, BitVec.and_or_distrib_right, hclear]
  rcases h with rfl | rfl | rfl <;> decide

variable {w : Device (H → Operation)}

theorem Booted.agrees (hw : Booted w) :
    w.storedRoute = routeOf w.modeControl ∧ IsStored w.storedRoute := by
  obtain ⟨control, read, hrestore, hload⟩ := hw.restored
  have hstored := modeStorageLoad_stored hload
  unfold restoreDapRoute at hrestore
  split at hrestore
  · cases hrestore
  · rw [hload] at hrestore
    have hmode := (Prod.mk.inj hrestore).2
    rw [← hmode, routeOf_replaceField control hstored]
    exact ⟨rfl, hstored⟩

theorem IsStored.ne_toggle (h : IsStored route) : route ≠ routeToggle := by
  rcases h with rfl | rfl | rfl <;> decide

theorem Booted.fresh (hw : Booted w) : Fresh w where
  ownership := hw.ownership
  handles := hw.handles
  route := by
    obtain ⟨hagree, hstored⟩ := hw.agrees
    rw [← hagree]
    exact hstored.ne_toggle

end Boot

/-- A save that fails leaves the stored route as it was. -/
def Device.SaveAtomic (w : Device M) : (a : Act I) → Resp J a → Device M → Prop
  | .saveRoute _, r, w' => r = false → w' = w
  | _, _, _ => True

/-- The calls of the mode state on a device whose failed saves leave no trace. -/
def routeMachine [DecidableEq H] (user : H → T) : Machine T (Act ProbeIo) (Resp ProbeIo.Answer)
    (Device (H → Operation)) (ModeCall H) ModeCall.Value :=
  (modeMachine user).restrict Device.SaveAtomic

/-- The operation changes neither the selected nor the stored route. -/
def KeepsRoute (w : Device M) (a : Act I) (r : Resp J a) : Prop :=
  ∀ w', w.exec a r w' → w.SaveAtomic a r w' →
    routeOf w'.modeControl = routeOf w.modeControl ∧ w'.storedRoute = w.storedRoute

/-- What a step of a route command may do to the mode word: nothing, or it writes the route and
counts the epoch of the policy, over the word that it finds. -/
def RouteOnly (before after : Word) : Prop :=
  after = before ∨
    (after &&& ~~~(modeDapRouteMask ||| modeUsbOtaEpochMask) =
        before &&& ~~~(modeDapRouteMask ||| modeUsbOtaEpochMask) ∧
      fieldValue after modeUsbOtaEpochMask modeUsbOtaEpochShift =
        (fieldValue before modeUsbOtaEpochMask modeUsbOtaEpochShift + 1) &&& 0xFF)

theorem fieldValue_incrementField (control : Word) :
    fieldValue (incrementField control modeUsbOtaEpochMask modeUsbOtaEpochShift)
        modeUsbOtaEpochMask modeUsbOtaEpochShift =
      (fieldValue control modeUsbOtaEpochMask modeUsbOtaEpochShift + 1) &&& 0xFF := by
  have hmask : modeUsbOtaEpochMask >>> modeUsbOtaEpochShift = 0xFF := by decide
  rw [incrementField, hmask]
  generalize fieldValue control modeUsbOtaEpochMask modeUsbOtaEpochShift + 1 = epoch
  have hclear : control &&& ~~~modeUsbOtaEpochMask &&& modeUsbOtaEpochMask = 0 := by
    rw [BitVec.and_assoc, show ~~~modeUsbOtaEpochMask &&& modeUsbOtaEpochMask = 0 by decide]
    simp
  have hfits : (epoch &&& 0xFF) <<< modeUsbOtaEpochShift &&& modeUsbOtaEpochMask =
      (epoch &&& 0xFF) <<< modeUsbOtaEpochShift := by
    rw [BitVec.shiftLeft_and_distrib, BitVec.and_assoc,
      show (0xFF : Word) <<< modeUsbOtaEpochShift &&& modeUsbOtaEpochMask =
        (0xFF : Word) <<< modeUsbOtaEpochShift by decide]
  have hlt : (epoch &&& 0xFF#32).toNat < 256 := by
    rw [BitVec.toNat_and]
    exact Nat.lt_succ_of_le Nat.and_le_right
  rw [fieldValue, replaceField, BitVec.and_or_distrib_right, hclear, hfits]
  apply BitVec.eq_of_toNat_eq
  simp only [BitVec.ofNat_eq_ofNat, BitVec.zero_or]
  rw [BitVec.toNat_ushiftRight, BitVec.toNat_shiftLeft, Nat.shiftLeft_eq,
    Nat.shiftRight_eq_div_pow, modeUsbOtaEpochShift]
  omega

theorem routedControl_only (control : Word) {route : Word} (h : IsStored route) :
    RouteOnly control (routedControl control route) := by
  right
  constructor
  · rw [routedControl, incrementField_and (by decide) (by decide)]
    rcases h with rfl | rfl | rfl <;> exact replaceField_and (by decide) (by decide)
  · have hroute : fieldValue (replaceField control modeDapRouteMask modeDapRouteShift route)
        modeUsbOtaEpochMask modeUsbOtaEpochShift =
        fieldValue control modeUsbOtaEpochMask modeUsbOtaEpochShift := by
      unfold fieldValue
      rcases h with rfl | rfl | rfl <;> rw [replaceField_and (by decide) (by decide)]
    rw [routedControl, fieldValue_incrementField, hroute]

section Places

variable {x : RoutePlace} {a : Act I} {r : Resp J a} {w w' : Device M}

/-- What an allowed operation does to the two routes: nothing, or it stores a route, or it
installs the stored one. -/
inductive RoutePlace.Effect (x y : RoutePlace) (w w' : Device M) : Prop
  | quiet (selected : routeOf w'.modeControl = routeOf w.modeControl)
      (stored : w'.storedRoute = w.storedRoute)
      (place : ∀ route, y = .saved route ↔ x = .saved route)
      (mode : x.Routing → w'.modeControl = w.modeControl)
  | save (route : Word) (before : x = .reserved) (valid : IsStored route)
      (after : y = .saved route) (mode : w'.modeControl = w.modeControl)
      (stored : w'.storedRoute = route)
  | install (route : Word) (before : x = .saved route) (valid : IsStored route)
      (after : y = .installed) (mode : w'.modeControl = routedControl w.modeControl route)
      (stored : w'.storedRoute = w.storedRoute)

theorem Device.exec_routes (hexec : w.exec a r w') (hsave : ∀ route, a ≠ .saveRoute route)
    (hcas : ∀ e d, a ≠ .casModeWeak e d) :
    w'.modeControl = w.modeControl ∧ w'.storedRoute = w.storedRoute := by
  cases a with
  | loadOwnership | loadMode | loadPreemptions => rw [hexec.2]; exact ⟨rfl, rfl⟩
  | storeOwnership | lineReset | releasePins | addPreemption | subPreemption | io =>
    cases hexec
    exact ⟨rfl, rfl⟩
  | casOwnership e d => rcases hexec with ⟨-, -, rfl⟩ | ⟨-, -, rfl⟩ <;> exact ⟨rfl, rfl⟩
  | casOwnershipWeak e d => rcases hexec with ⟨-, -, rfl⟩ | ⟨-, rfl⟩ <;> exact ⟨rfl, rfl⟩
  | casModeWeak e d => exact absurd rfl (hcas e d)
  | saveRoute route => exact absurd rfl (hsave route)

theorem RoutePlace.next_saved (hsave : ∀ route, a ≠ .saveRoute route)
    (hcas : ∀ e d, a ≠ .casModeWeak e d) (route : Word) :
    x.next a r = .saved route ↔ x = .saved route := by
  unfold RoutePlace.next
  split
  · split_ifs <;> simp
  · exact absurd rfl (hsave _)
  · simp
  · exact absurd rfl (hcas _ _)
  · exact Iff.rfl

theorem RoutePlace.effect (ha : x.Allowed a) (hexec : w.exec a r w')
    (hatomic : w.SaveAtomic a r w') : x.Effect (x.next a r) w w' := by
  by_cases hsave : ∃ route, a = .saveRoute route
  · obtain ⟨route, rfl⟩ := hsave
    cases x with
    | reserved =>
      cases r with
      | true =>
        rcases hexec with rfl | ⟨hr, -⟩
        · exact .save route rfl ha rfl rfl rfl
        · cases hr
      | false =>
        rw [hatomic rfl]
        exact .quiet rfl rfl (fun _ => Iff.rfl) fun _ => rfl
    | _ => exact ha.elim
  · by_cases hcas : ∃ e d, a = .casModeWeak e d
    · obtain ⟨e, d, rfl⟩ := hcas
      cases x with
      | other =>
        rcases hexec with ⟨he, rfl, rfl⟩ | ⟨rfl, rfl⟩
        · refine .quiet ?_ rfl (fun _ => Iff.rfl) fun h => h.elim
          rw [he]
          exact ha
        · exact .quiet rfl rfl (fun _ => Iff.rfl) fun h => h.elim
      | saved route =>
        rcases hexec with ⟨rfl, rfl, rfl⟩ | ⟨rfl, rfl⟩
        · exact .install route rfl ha.1 rfl ha.2 rfl
        · exact .quiet rfl rfl (fun _ => Iff.rfl) fun _ => rfl
      | _ => exact ha.elim
    · push Not at hsave hcas
      obtain ⟨hmode, hstored⟩ := Device.exec_routes hexec hsave hcas
      exact .quiet (by rw [hmode]) hstored (next_saved hsave hcas) fun _ => hmode

/-- A thread has the free word reserved: it had before, or it has just found the word free and
made it active. -/
theorem RoutePlace.reserving_next (ha : x.Allowed a) (hexec : w.exec a r w')
    (hnext : (x.next a r).Reserving) :
    (x.Reserving ∧ w'.ownershipControl = w.ownershipControl) ∨
      (¬ isActive w.ownershipControl ∧ controlState w.ownershipControl = ownerNone ∧
        w'.ownershipControl = w.ownershipControl ||| controlActive) := by
  cases x with
  | asked =>
    cases a with
    | casOwnership e d =>
      rcases hexec with ⟨rfl, rfl, rfl⟩ | ⟨-, rfl, rfl⟩
      · simp only [RoutePlace.next] at hnext
        split_ifs at hnext with hfree
        · exact .inr ⟨ha.1, hfree, ha.2⟩
        · exact hnext.elim
      · exact hnext.elim
    | _ => first | exact ha.elim | exact hnext.elim
  | reserved =>
    cases a with
    | casOwnership e d => exact hnext.elim
    | loadMode | loadPreemptions | saveRoute =>
      exact .inl ⟨trivial, (Device.exec_local (by trivial) hexec).1⟩
    | _ => exact ha.elim
  | saved route =>
    cases a with
    | casModeWeak e d => exact .inl ⟨trivial, (Device.exec_local (by trivial) hexec).1⟩
    | _ => exact ha.elim
  | idle => exact ha.elim
  | other => cases a <;> exact hnext.elim
  | installed => cases a <;> exact hnext.elim
  | kept => cases a <;> exact hnext.elim

theorem RoutePlace.unchanged_of_next (h : (x.next a r).Unchanged) : x.Unchanged := by
  unfold RoutePlace.next at h
  split at h
  · trivial
  · trivial
  · trivial
  · exact h.elim
  · exact h

end Places

section Commands

abbrev ModeTrace (T H : Type) :=
  Event T (Act ProbeIo) (Resp ProbeIo.Answer) (Device (H → Operation)) (ModeCall H) ModeCall.Value

variable [DecidableEq T] {t : T} {e : ModeTrace T H} {h : List (ModeTrace T H)}

/-- Where thread `t` stands with respect to the route. -/
abbrev routePlace (t : T) (h : List (ModeTrace T H)) : RoutePlace := routeProtocol.position t h

/-- The operations of the current call of `t` have kept the routes. -/
def CallKeeps (t : T) (h : List (ModeTrace T H)) : Prop :=
  ∀ a r w, .acted t a r w ∈ sinceCall t h → KeepsRoute w a r

/-- A route command that has returned anything but ALLOWED has kept the routes. -/
def RefusedKeeps (e : ModeTrace T H) (h : List (ModeTrace T H)) : Prop :=
  ∀ t rounds route v, e = .returned t (.setDapRoute rounds route) v → v ≠ .allowed → CallKeeps t h

structure CommandInv (w : Device (H → Operation)) (h : List (ModeTrace T H)) : Prop where
  running : ∀ t, (routePlace t h).Unchanged → CallKeeps t h
  refused : Always RefusedKeeps h

theorem CallKeeps.cons (hk : CallKeeps t h) (he : e.thread ≠ t) : CallKeeps t (e :: h) := by
  intro a r w hmem
  rw [sinceCall_of_ne he] at hmem
  rcases List.mem_cons.mp hmem with rfl | hmem
  · exact absurd rfl he
  · exact hk a r w hmem

theorem CommandInv.preserves [DecidableEq H] (user : H → T) :
    (routeProtocol (T := T) (H := H)).Preserves (routeMachine user)
      (fun _ c => c.routeReturns) CommandInv where
  called w h t c hi hidle hmay := by
    refine ⟨fun u hu => ?_, ⟨fun _ _ _ _ he => (by cases he), hi.refused⟩⟩
    by_cases hut : t = u
    · subst hut
      intro a r w hmem
      simp [sinceCall] at hmem
    · rw [routePlace, Protocol.position_called_of_ne hut] at hu
      exact (hi.running u hu).cons hut
  acted w h t a r w' hi ha hexec := by
    refine ⟨fun u hu => ?_, ⟨fun _ _ _ _ he => (by cases he), hi.refused⟩⟩
    by_cases hut : t = u
    · subst hut
      rw [routePlace, Protocol.position_acted_self] at hu
      have hx := RoutePlace.unchanged_of_next hu
      intro a' r' w'' hmem
      rcases List.mem_cons.mp hmem with he | hmem
      · cases he
        intro w₂ hexec hatomic
        cases RoutePlace.effect ha hexec hatomic with
        | quiet selected stored place mode => exact ⟨selected, stored⟩
        | save route before valid after mode stored =>
          have hn : RoutePlace.Unchanged (.saved route) := after ▸ hu
          exact hn.elim
        | install route before valid after mode stored =>
          have hn : RoutePlace.Unchanged .installed := after ▸ hu
          exact hn.elim
      · exact hi.running t hx a' r' w'' hmem
    · rw [routePlace, Protocol.position_acted_of_ne hut] at hu
      exact (hi.running u hu).cons hut
  returned w h t c v hi hv := by
    refine ⟨fun u hu => ?_, ⟨fun u rounds route v' he hv' => ?_, hi.refused⟩⟩
    · by_cases hut : t = u
      · subst hut
        rw [routePlace, Protocol.position_returned_self] at hu
        exact hu.elim
      · rw [routePlace, Protocol.position_returned_of_ne hut] at hu
        exact (hi.running u hu).cons hut
    · cases he
      apply hi.running
      rcases hv with hx | hx | ⟨-, hx⟩
      · rw [routePlace, hx]
        trivial
      · rw [routePlace, hx]
        trivial
      · exact absurd hx hv'

end Commands

section Agreement

variable [DecidableEq T] {user : H → T} {t u : T} {s : ModeState T H}

/-- The stored route is the selected one, except between the save and the install of the one
thread that has the free word reserved. -/
structure RouteInv (user : H → T) (s : ModeState T H) : Prop where
  tracks : Tracks s
  reserved : ∀ t, (routePlace t s.history).Reserving →
    ∃ k, s.ghost.phase = .lent none k ∧ keyUser user k = t
  valid : IsStored s.world.storedRoute
  saved : ∀ t route, routePlace t s.history = .saved route → s.world.storedRoute = route
  agrees : (∀ t route, routePlace t s.history ≠ .saved route) →
    s.world.storedRoute = routeOf s.world.modeControl

theorem RouteInv.unique (hs : RouteInv user s) (ht : (routePlace t s.history).Reserving)
    (hu : (routePlace u s.history).Reserving) : t = u := by
  obtain ⟨k, hk, rfl⟩ := hs.reserved t ht
  obtain ⟨k', hk', rfl⟩ := hs.reserved u hu
  rw [hk] at hk'
  cases hk'
  rfl

variable {a : Act ProbeIo} {r : Resp ProbeIo.Answer a} {w : Device (H → Operation)}
  {γ : Arbiter T (H ⊕ T)}

theorem RouteInv.acted_reserved (hs : RouteInv user s) (ha : (routePlace t s.history).Allowed a)
    (hexec : s.world.exec a r w) (hguar : (modeDiscipline user).guar t s (s.acted t a r w γ))
    (u : T) (hu : (routePlace u (s.acted t a r w γ).history).Reserving) :
    ∃ k, γ.phase = .lent none k ∧ keyUser user k = u := by
  obtain ⟨m, hstep⟩ := hguar.1.step
  have htracks : w.ownershipControl = γ.control := hguar.1.tracks
  by_cases hut : t = u
  · subst hut
    rw [routePlace, State.acted, Protocol.position_acted_self] at hu
    rcases RoutePlace.reserving_next ha hexec hu with ⟨hx, hsame⟩ | ⟨hinactive, hfree, hactive⟩
    · obtain ⟨k, hk, hku⟩ := hs.reserved t hx
      have hγ : isActive γ.control := by
        rw [← htracks, hsame, show s.world.ownershipControl = s.ghost.control from hs.tracks]
        exact s.ghost.isActive_control.mpr ⟨none, k, hk⟩
      rw [show γ = s.ghost from hstep.lent_of_active hk hγ]
      exact ⟨k, hk, hku⟩
    · rw [show s.world.ownershipControl = s.ghost.control from hs.tracks] at hinactive hfree hactive
      have hheld : s.ghost.phase = .held none := Arbiter.held_of_state hfree hinactive
      apply hstep.reserved_of_active hheld
      change isActive γ.control
      rw [← htracks, hactive]
      exact isActive_or_active _
  · rw [routePlace, State.acted, Protocol.position_acted_of_ne hut] at hu
    obtain ⟨k, hk, hku⟩ := hs.reserved u hu
    rw [show γ = s.ghost from hstep.lent (hku ▸ hut) hk]
    exact ⟨k, hk, hku⟩

theorem RouteInv.acted (hs : RouteInv user s) (ha : (routePlace t s.history).Allowed a)
    (hexec : s.world.exec a r w) (hatomic : s.world.SaveAtomic a r w)
    (hguar : (modeDiscipline user).guar t s (s.acted t a r w γ)) :
    RouteInv user (s.acted t a r w γ) := by
  have hself : routePlace t (s.acted t a r w γ).history = (routePlace t s.history).next a r :=
    Protocol.position_acted_self
  have hother {u : T} (hu : t ≠ u) : routePlace u (s.acted t a r w γ).history =
      routePlace u s.history := Protocol.position_acted_of_ne hu
  refine ⟨hguar.1.tracks, hs.acted_reserved ha hexec hguar, ?_, ?_, ?_⟩
  · cases RoutePlace.effect ha hexec hatomic with
    | quiet selected stored place mode => exact stored ▸ hs.valid
    | save route before valid after mode stored => exact stored ▸ valid
    | install route before valid after mode stored => exact stored ▸ hs.valid
  · intro u route hu
    cases RoutePlace.effect ha hexec hatomic with
    | quiet selected stored place mode =>
      have hbefore : routePlace u s.history = .saved route := by
        by_cases hut : t = u
        · subst hut
          rw [hself] at hu
          exact (place route).mp hu
        · rwa [hother hut] at hu
      exact stored.trans (hs.saved u route hbefore)
    | save route' before valid after mode stored =>
      by_cases hut : t = u
      · subst hut
        rw [hself, after] at hu
        cases hu
        exact stored
      · rw [hother hut] at hu
        refine absurd (hs.unique (t := t) (u := u) ?_ ?_) hut
        · rw [before]
          trivial
        · rw [hu]
          trivial
    | install route' before valid after mode stored =>
      by_cases hut : t = u
      · subst hut
        rw [hself, after] at hu
        cases hu
      · rw [hother hut] at hu
        refine absurd (hs.unique (t := t) (u := u) ?_ ?_) hut
        · rw [before]
          trivial
        · rw [hu]
          trivial
  · intro hnone
    cases RoutePlace.effect ha hexec hatomic with
    | quiet selected stored place mode =>
      change w.storedRoute = routeOf w.modeControl
      rw [stored, selected]
      refine hs.agrees fun u route hu => ?_
      apply hnone u route
      by_cases hut : t = u
      · subst hut
        rw [hself]
        exact (place route).mpr hu
      · rwa [hother hut]
    | save route before valid after mode stored => exact absurd (hself.trans after) (hnone t route)
    | install route before valid after mode stored =>
      change w.storedRoute = routeOf w.modeControl
      rw [stored, mode, routeOf_routedControl _ valid]
      exact hs.saved t route before

/-- An event that is not an operation moves its thread between places outside a
reservation. -/
theorem RouteInv.event {s' : ModeState T H} {e : ModeTrace T H} (hs : RouteInv user s)
    (hhistory : s'.history = e :: s.history) (hghost : s'.ghost = s.ghost)
    (hownership : s'.world.ownershipControl = s.world.ownershipControl)
    (hmode : s'.world.modeControl = s.world.modeControl)
    (hstored : s'.world.storedRoute = s.world.storedRoute)
    (hbefore : ¬ (routePlace e.thread s.history).Reserving)
    (hafter : ¬ (routePlace e.thread s'.history).Reserving) : RouteInv user s' := by
  have hother {u : T} (hu : e.thread ≠ u) : routePlace u s'.history = routePlace u s.history := by
    rw [hhistory]
    exact Protocol.position_of_ne hu
  have hne {u : T} (hu : (routePlace u s'.history).Reserving) : e.thread ≠ u := by
    rintro rfl
    exact hafter hu
  refine ⟨?_, fun u hu => ?_, hstored ▸ hs.valid, fun u route hu => ?_, fun hnone => ?_⟩
  · unfold Tracks
    rw [hownership, hghost]
    exact hs.tracks
  · rw [hother (hne hu)] at hu
    rw [hghost]
    exact hs.reserved u hu
  · have hreserving : (routePlace u s'.history).Reserving := by
      rw [hu]
      trivial
    rw [hother (hne hreserving)] at hu
    rw [hstored]
    exact hs.saved u route hu
  · rw [hstored, hmode]
    refine hs.agrees fun u route hu => ?_
    by_cases hut : e.thread = u
    · apply hbefore
      rw [hut, hu]
      trivial
    · exact hnone u route ((hother hut).trans hu)

theorem RouteInv.guards [DecidableEq H] (user : H → T) :
    (routeProtocol (T := T) (H := H)).Guards ((modeDiscipline user).restrict Device.SaveAtomic)
      (routeMachine user) (fun _ c => c.routeReturns) (RouteInv user) where
  called s t c hs hidle hmay := by
    refine hs.event (e := .called t c s.world) rfl rfl rfl rfl rfl ?_ ?_
    · simp only [Event.thread, routePlace, hidle]
      exact id
    · simp only [Event.thread, routePlace, State.called, Protocol.position_called_self]
      cases c <;> exact id
  acted s t a r w γ hs ha hexec hguar := hs.acted ha hexec.1 hexec.2 hguar
  returned s t c v hs hv := by
    refine hs.event (e := .returned t c v) rfl rfl rfl rfl rfl ?_ ?_
    · simp only [Event.thread, routePlace]
      cases c with
      | setDapRoute rounds route =>
        rcases hv with hx | hx | ⟨hx, -⟩ <;> (rw [hx]; exact id)
      | _ =>
        rw [show routeProtocol.position t s.history = RoutePlace.other from hv]
        exact id
    · simp only [Event.thread, routePlace, State.returned, Protocol.position_returned_self]
      exact id

end Agreement

section Persistence

variable [DecidableEq T] [DecidableEq H] {user : H → T} {w : Device (H → Operation)}
  {σ : ModeConfig T H}

/-- A route command is in progress. -/
def InRouteCall (σ : ModeConfig T H) (t : T) : Prop :=
  ∃ rounds route, (∃ a k, σ.thread t = .busy (.setDapRoute rounds route) a k) ∨
    σ.thread t = .halted (.setDapRoute rounds route)

omit [DecidableEq T] in
theorem routeMachine_keeps (user : H → T) :
    (routeMachine user).Keeps routeProtocol fun _ c => c.routeReturns :=
  routeProtocol_keeps user

variable {x : RoutePlace} {a : Act ProbeIo} {r : Resp ProbeIo.Answer a} {t : T}

omit [DecidableEq T] [DecidableEq H] in
theorem RoutePlace.routing_next : (x.next a r).Routing ↔ x.Routing := by
  unfold RoutePlace.next
  split
  · split_ifs <;> exact Iff.rfl
  all_goals exact Iff.rfl

omit [DecidableEq T] [DecidableEq H] in
theorem RoutePlace.eq_other_of_next (h : x.next a r = .other) : x = .other := by
  unfold RoutePlace.next at h
  split at h
  · split_ifs at h
  all_goals first | exact h | cases h

omit [DecidableEq H] in
theorem inRouteCall_of_routing (hlabelled : Machine.Labelled σ)
    (hkept : routeProtocol.Kept (fun _ c => c.routeReturns) σ)
    (ht : (routePlace t σ.history).Routing) : InRouteCall σ t := by
  obtain ⟨c, w₀, hlast, rounds, route, rfl⟩ := Protocol.lastCall_of_kind (P := routeProtocol)
    RoutePlace.Routing (fun c : ModeCall H => ∃ rounds route, c = .setDapRoute rounds route) id
    (fun t c w hc => by cases c <;> first | exact ⟨_, _, rfl⟩ | exact hc.elim)
    (fun x a r => RoutePlace.routing_next.mp) ht
  have hlabel := hlabelled t
  have hstands := hkept.thread t
  cases hthread : σ.thread t with
  | idle =>
    rw [hthread] at hstands
    rw [routePlace, show routeProtocol.position t σ.history = RoutePlace.idle from hstands] at ht
    exact ht.elim
  | busy c a k =>
    rw [hthread] at hlabel
    obtain ⟨w₁, hw₁⟩ := hlabel
    cases hlast.symm.trans hw₁
    exact ⟨rounds, route, .inl ⟨a, k, hthread⟩⟩
  | halted c =>
    rw [hthread] at hlabel
    obtain ⟨w₁, hw₁⟩ := hlabel
    cases hlast.symm.trans hw₁
    exact ⟨rounds, route, .inr hthread⟩

omit [DecidableEq H] in
/-- A thread in `setDapRoute` is not at the place of another call. -/
theorem routing_of_busy {rounds : ℕ} {route : Word}
    {k : Resp ProbeIo.Answer a → Code ProbeIo.Answer ModeDapResult} (hlabelled : Machine.Labelled σ)
    (hkept : routeProtocol.Kept (fun _ c => c.routeReturns) σ)
    (ht : σ.thread t = .busy (.setDapRoute rounds route) a k) :
    (routePlace t σ.history).Routing ∧ (routePlace t σ.history).Allowed a := by
  have hlabel := hlabelled t
  have hstands := hkept.thread t
  rw [ht] at hlabel hstands
  obtain ⟨w₁, hw₁⟩ := hlabel
  refine ⟨?_, hstands.1⟩
  have hother : routePlace t σ.history ≠ .other := by
    intro hplace
    obtain ⟨c, w₀, hlast, hc⟩ := Protocol.lastCall_of_kind (P := routeProtocol) (· = .other)
      (fun c : ModeCall H => c.routeStart = .other) (by simp [routeProtocol])
      (fun t c w hc => hc) (fun x a r => RoutePlace.eq_other_of_next) hplace
    cases hlast.symm.trans hw₁
    cases hc
  cases hplace : routePlace t σ.history with
  | other => exact absurd hplace hother
  | idle =>
    have hallowed : (routePlace t σ.history).Allowed a := hstands.1
    rw [hplace] at hallowed
    exact hallowed.elim
  | _ => trivial

theorem settle_modeControl {c : ModeCall H} {w : Device (H → Operation)} {h : List (ModeTrace T H)}
    {p : Code ProbeIo.Answer c.Value} :
    ((routeMachine user).settle σ t c w h p).world.modeControl = w.modeControl := by
  cases p <;> rfl

/-- On a device whose failed saves leave no trace and whose route was restored at boot, in every
run of the calls of the mode state, the arbiter and the probe: a route command that has returned
anything but ALLOWED has changed neither the selected nor the stored route; while no route
command is in progress the two are the same, and are AUTO, USB or NETWORK; and a step of a route
command leaves the mode word as it finds it, or writes the route field and counts the epoch over
the word it finds, so that every other field keeps what the last event left in it. -/
theorem dap_route_persistent (hw : Booted w) (hσ : (routeMachine user).Steps (.start w) σ) :
    (∀ t rounds route v, σ.Returned t (.setDapRoute rounds route) v → v ≠ .allowed →
      ∀ a r w₁, .acted t a r w₁ ∈ sinceCall t σ.history → KeepsRoute w₁ a r) ∧
    ((∀ t, ¬ InRouteCall σ t) →
      σ.world.storedRoute = routeOf σ.world.modeControl ∧ IsStored σ.world.storedRoute) ∧
    ∀ t σ', InRouteCall σ t → (routeMachine user).Step σ t σ' →
      RouteOnly σ.world.modeControl σ'.world.modeControl := by
  have hlabelled := hσ.labelled (fun _ => trivial)
  obtain ⟨hagree, hstored⟩ := hw.agrees
  obtain ⟨hsafe, htracks, -⟩ := hw.fresh.start user
  have hstart : RouteInv user (Config.state (.start w) .fresh) := by
    refine ⟨htracks, fun t ht => ht.elim, hstored, fun t route ht => ?_, fun _ => hagree⟩
    cases ht
  obtain ⟨hkept, γ, -, hinv⟩ := hσ.guarded (mode_verifies user).restrict (routeMachine_keeps user)
    (RouteInv.guards user) (Protocol.held_start trivial) hsafe hstart
  have hcommand := hσ.held (routeMachine_keeps user) (CommandInv.preserves user)
    (Protocol.held_start ⟨fun t ht => ht.elim, trivial⟩)
  refine ⟨?_, ?_, ?_⟩
  · rintro t rounds route v ⟨h, hh⟩ hv a r w₁ hmem
    have hrefused := hcommand.inv.refused
    rw [hh] at hrefused hmem
    refine hrefused.1 t rounds route v rfl hv a r w₁ ?_
    rcases List.mem_cons.mp hmem with he | hmem
    · cases he
    · exact hmem
  · intro hnone
    refine ⟨hinv.agrees fun t route ht => ?_, hinv.valid⟩
    apply hnone t
    apply inRouteCall_of_routing hlabelled hkept
    change (routePlace t (σ.state γ).history).Routing
    rw [ht]
    trivial
  · rintro t σ' ⟨rounds, route, ⟨a, k, ht⟩ | ht⟩ hstep
    · cases hstep with
      | call hidle => rw [ht] at hidle; cases hidle
      | act hbusy hexec =>
        cases ht.symm.trans hbusy
        obtain ⟨hrouting, hallowed⟩ := routing_of_busy hlabelled hkept ht
        rw [settle_modeControl]
        cases RoutePlace.effect hallowed hexec.1 hexec.2 with
        | quiet selected stored place mode => exact .inl (mode hrouting)
        | save route before valid after mode stored => exact .inl mode
        | install route before valid after mode stored =>
          rw [mode]
          exact routedControl_only _ valid
    · cases hstep with
      | call hidle => rw [ht] at hidle; cases hidle
      | act hbusy => rw [ht] at hbusy; cases hbusy

/-- The run in which one thread selects the NETWORK route. -/
def networkRouteRun : ModeConfig Unit Unit :=
  (routeMachine fun _ => ()).replay (fun _ => Device.answer ProbeIo.idleReply)
    (((), some (.setDapRoute 1 routeNetwork)) :: List.replicate 7 ((), none))
    (.start ⟨ownerNone, 0x80, 0, routeAuto, fun _ => .zero⟩)

theorem networkRouteRun_persistent :
    networkRouteRun.Returned () (.setDapRoute 1 routeNetwork) .allowed ∧
      networkRouteRun.world.storedRoute = routeOf networkRouteRun.world.modeControl ∧
      networkRouteRun.world.storedRoute = routeNetwork := by
  have hw : Booted (⟨ownerNone, 0x80, 0, routeAuto, fun _ => .zero⟩ : Device (Unit → Operation)) :=
    ⟨rfl, fun _ => rfl, 0x80, .notFound, by decide, rfl⟩
  have hanswer (t : Unit) (w : Device (Unit → Operation)) (a : Act ProbeIo) :
      (routeMachine fun _ : Unit => ()).exec t w a (w.answer ProbeIo.idleReply a).1
        (w.answer ProbeIo.idleReply a).2 := by
    refine ⟨Device.exec_answer _ w a, ?_⟩
    cases a with
    | saveRoute route =>
      intro h
      cases h
    | _ => trivial
  have hrun : (routeMachine fun _ => ()).Steps
      (.start ⟨ownerNone, 0x80, 0, routeAuto, fun _ => .zero⟩) networkRouteRun :=
    Machine.replay_steps hanswer _ _ fun _ _ _ _ _ _ _ => rfl
  have hidle (t : Unit) : networkRouteRun.thread t = .idle := rfl
  refine ⟨⟨_, rfl⟩, ((dap_route_persistent hw hrun).2.1 ?_).1, rfl⟩
  rintro t ⟨rounds, route, ht⟩
  rw [hidle] at ht
  rcases ht with ⟨a, k, ht⟩ | ht <;> cases ht

end Persistence
end AirDap

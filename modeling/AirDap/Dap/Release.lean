import AirDap.Dap.LinkPackets

/-! Every call keeps the discipline of the links. From it: a transport that is told that it is
disconnected does not hold the pins, as long as no DAP_Connect of it was refused while it
held them. -/
namespace AirDap
open Concurrency Function

variable {T : Type} [DecidableEq T] {host : Transport → T} {t : T} {c : LinkCall}
  {w₀ : Device (Transport → Link)} {s : LinkState T}

/-- The context of the transport is one that `airdap_dap_init` set up. -/
structure Link.Installed (tr : Transport) (link : Link) : Prop where
  owner : link.context.owner = tr.owner
  backend : link.context.processor.backend = installedBackend

/-- The transport is set up and has the claim of the word if it holds the pins. -/
def Attached (tr : Transport) (link : Link) (s : LinkState T) : Prop :=
  link.Installed tr ∧ Secured tr link.claim s

/-- What a thread knows between its calls. -/
structure LinkIdle (host : Transport → T) (t : T) (s : LinkState T) : Prop where
  tracks : Tracks s
  attached : ∀ tr, host tr = t → Attached tr (s.world.memory tr) s

/-- What holds when a call returns `v`. -/
structure LinkReturns (host : Transport → T) (t : T) (c : LinkCall)
    (w₀ : Device (Transport → Link)) (v : c.Value) (s : LinkState T) : Prop where
  inCall : LinkAt host t c w₀ s
  own : ∀ tr, c.transport = some tr → Attached tr (c.store s.world.memory v tr) s
  told : ∀ tr, c.Disconnects tr v → c.transport = some tr ∧ Free tr s

theorem LinkCall.store_of_ne {links : Transport → Link} {v : c.Value} {tr : Transport}
    (h : c.transport ≠ some tr) : c.store links v tr = links tr := by
  cases c with
  | packet tr' request capacity ota =>
    exact update_of_ne (fun he => h (congrArg some he.symm)) _ _
  | sessionClosed tr' ota =>
    exact update_of_ne (fun he => h (congrArg some he.symm)) _ _
  | _ => rfl

theorem LinkIdle.stable : (linkDiscipline host).Stable t (LinkIdle host t) := by
  intro u s s' hu hs hg
  refine ⟨hg.tracks, fun tr htr => ?_⟩
  have hne : host tr ≠ u := htr ▸ Ne.symm hu
  obtain ⟨hinstalled, hsecured⟩ := hs.attached tr htr
  rw [hg.memory tr hne]
  exact ⟨hinstalled, hsecured.spares (hg.spares hne)⟩

theorem LinkIdle.called (hs : LinkIdle host t s) :
    LinkLegal host t s (s.called t c) ∧ LinkAt host t c s.world (s.called t c) := by
  refine ⟨⟨⟨.stay, .stay⟩, hs.tracks, fun _ _ => rfl,
    ⟨_, rfl, rfl, fun tr => ⟨fun h => h.elim, .inl⟩⟩, fun _ _ => .inl⟩,
    hs.tracks, if_pos rfl, fun _ _ => rfl, fun tr htr _ => ?_⟩
  exact (hs.attached tr htr).2.spares (.of_quiet (u := t) .stay ⟨_, rfl⟩ trivial)

theorem LinkReturns.finish {v : c.Value} (hmay : ∀ tr, c.transport = some tr → host tr = t)
    (hidle : ∀ tr, host tr = t → (w₀.memory tr).Installed tr)
    (hs : LinkReturns host t c w₀ v s) :
    LinkLegal host t s (s.returned (linkMachine host) t c v) ∧
      LinkIdle host t (s.returned (linkMachine host) t c v) := by
  have hspares (tr : Transport) : Spares tr s (s.returned (linkMachine host) t c v) :=
    .of_quiet (u := t) .stay ⟨_, rfl⟩ trivial
  refine ⟨⟨⟨.stay, .stay⟩, hs.inCall.tracks, fun tr htr => ?_, ?_, fun _ _ => .inl⟩,
    hs.inCall.tracks, fun tr htr => ?_⟩
  · exact LinkCall.store_of_ne fun hc => htr (hmay tr hc)
  · exact ⟨_, rfl, rfl, fun tr => ⟨fun h => (hs.told tr h).2.spares (hspares tr), .inl⟩⟩
  · change Attached tr (c.store s.world.memory v tr) _
    by_cases hc : c.transport = some tr
    · obtain ⟨hinstalled, hsecured⟩ := hs.own tr hc
      exact ⟨hinstalled, hsecured.spares (hspares tr)⟩
    · rw [LinkCall.store_of_ne hc, hs.inCall.memory tr htr]
      exact ⟨hidle tr htr, (hs.inCall.others tr htr hc).spares (hspares tr)⟩

theorem link_process {tr : Transport} (hhost : host tr = t) (htr : c.transport = some tr)
    (ota : List OtaStep) {link : Link} {request : List Byte} {capacity : ℕ}
    (hc : byteAt request 0 = DapCommand.connect.code → c.Connects tr)
    (hlink : Attached tr link s) (hat : LinkAt host t c w₀ s) (hread : Unread t s) :
    LinkWp host t (linkProcess ota link request capacity)
      (fun v s => LinkAt host t c w₀ s ∧ Attached tr v.2 s ∧
        (Disconnecting request v.1 → Free tr s)) s := by
  rw [linkProcess, packetCode_eq, hlink.1.owner]
  have hs : LinkInv host t c w₀ tr ⟨link.claim, .zero, ()⟩ s := ⟨rfl, hat, hlink.2⟩
  apply (linked_processPacket hhost htr ota hlink.1.backend hc hs hread).bind
  intro r s₁ hs₁
  obtain ⟨hsame, ⟨-, hat₁, hsecured⟩, hfree⟩ := hs₁
  exact ⟨hat₁, ⟨⟨hlink.1.owner, hsame.backend.trans hlink.1.backend⟩, hsecured⟩, hfree⟩

theorem link_sessionClosed {tr : Transport} (hhost : host tr = t) (htr : c.transport = some tr)
    (ota : List OtaStep) {link : Link} (hlink : Attached tr link s)
    (hat : LinkAt host t c w₀ s) :
    LinkWp host t (linkProcess ota link [0x03] 2)
      (fun v s => LinkAt host t c w₀ s ∧ Attached tr v.2 s ∧ Free tr s) s := by
  rw [linkProcess, packetCode_eq, hlink.1.owner]
  have hs : LinkInv host t c w₀ tr ⟨link.claim, .zero, ()⟩ s := ⟨rfl, hat, hlink.2⟩
  apply Discipline.wp.bind (linked_processDisconnect hhost htr ota [0x03] 2 hlink.1.backend hs)
  intro r s₁ hs₁
  obtain ⟨hsame, ⟨-, hat₁, hsecured⟩, hfree⟩ := hs₁
  exact ⟨hat₁, ⟨⟨hlink.1.owner, hsame.backend.trans hlink.1.backend⟩, hsecured⟩, hfree⟩

theorem LinkIdle.code (hs : LinkIdle host t s)
    (hmay : ∀ tr, c.transport = some tr → host tr = t)
    (hat : LinkAt host t c s.world (s.called t c)) :
    LinkWp host t (c.code s.world.memory)
      (fun v => LinkReturns host t c s.world v) (s.called t c) := by
  have hplain {v : c.Value} {s' : LinkState T} (hnone : c.transport = none)
      (htold : ∀ tr, ¬ c.Disconnects tr v) (hs' : LinkAt host t c s.world s') :
      LinkReturns host t c s.world v s' :=
    ⟨hs', fun tr htr => absurd (hnone.symm.trans htr) (by simp), fun tr h => absurd h (htold tr)⟩
  have hread : Unread t (s.called t c) := by
    have htrace : trace t (s.called t c).history = .start := if_pos rfl
    rw [Unread, htrace]
    rfl
  have hlink (tr : Transport) (htr : host tr = t) :
      Attached tr (s.world.memory tr) (s.called t c) :=
    ⟨(hs.attached tr htr).1,
      (hs.attached tr htr).2.spares (.of_quiet (u := t) .stay ⟨_, rfl⟩ trivial)⟩
  cases c with
  | packet tr request capacity ota =>
    have hhost := hmay tr rfl
    have hconnects (h : byteAt request 0 = DapCommand.connect.code) :
        LinkCall.Connects tr (.packet tr request capacity ota) := ⟨rfl, h⟩
    apply (link_process hhost rfl ota hconnects (hlink tr hhost) hat hread).mono
    intro v s₁ hs₁
    refine ⟨hs₁.1, ?_, ?_⟩
    · rintro tr' ⟨⟩
      change Attached tr (update s₁.world.memory tr v.2 tr) s₁
      rw [update_self]
      exact hs₁.2.1
    · rintro tr' ⟨rfl, htold⟩
      exact ⟨rfl, hs₁.2.2 htold⟩
  | sessionClosed tr ota =>
    have hhost := hmay tr rfl
    apply (link_sessionClosed hhost rfl ota (hlink tr hhost) hat).bind
    intro v s₁ hs₁
    refine ⟨hs₁.1, ?_, ?_⟩
    · rintro tr' ⟨⟩
      change Attached tr (update s₁.world.memory tr v.2 tr) s₁
      rw [update_self]
      exact hs₁.2.1
    · rintro tr' rfl
      exact ⟨rfl, hs₁.2.2⟩
  | transition rounds event =>
    exact (link_modeTransition linkAt_rides rounds event hat).mono
      fun _ _ => hplain rfl fun _ h => h
  | setDapRoute rounds route =>
    exact (link_setDapRoute rounds route hat).mono fun _ _ => hplain rfl fun _ h => h
  | suspend rounds =>
    exact (ownershipSuspend_spec link_arbitrated linkAt_rides.carries link_ready rounds hat).mono
      fun _ _ => hplain rfl fun _ h => h
  | resume rounds =>
    exact (ownershipResume_spec link_arbitrated linkAt_rides.carries link_ready rounds hat).mono
      fun _ _ => hplain rfl fun _ h => h
  | revoke =>
    exact (ownershipRevoke_spec link_arbitrated linkAt_rides.carries link_ready hat).mono
      fun _ _ => hplain rfl fun _ h => h
  | revokeOwner owner =>
    exact (ownershipRevokeOwner_spec link_arbitrated linkAt_rides.carries owner link_ready
      hat).mono fun _ _ => hplain rfl fun _ h => h

theorem linkVerified : Verifies (linkDiscipline host) (linkMachine host) (LinkIdle host)
    fun _ _ _ _ => True where
  exec := rfl
  stable _ := LinkIdle.stable
  call := by
    intro t c s hs hmay
    obtain ⟨hg, hat⟩ := hs.called (c := c)
    refine ⟨hg, (hs.code hmay hat).mono fun v s₁ hret => ⟨trivial, ?_⟩⟩
    exact hret.finish hmay fun tr htr => (hs.attached tr htr).1

/-- The pins are free, and the transports are as `airdap_dap_init` leaves them. -/
structure FreshLinks (w : Device (Transport → Link)) : Prop where
  free : w.ownershipControl = ownerNone
  links : ∀ tr, ∃ serialNumber firmwareVersion,
    w.memory tr = ⟨.init tr.owner serialNumber firmwareVersion, .zero⟩

theorem FreshLinks.idle {w : Device (Transport → Link)} (hw : FreshLinks w) (t : T) :
    LinkIdle host t (⟨w, [], Arbiter.fresh⟩ : LinkState T) where
  tracks := hw.free.trans Arbiter.fresh_control.symm
  attached tr _ := by
    obtain ⟨serialNumber, firmwareVersion, hlink⟩ := hw.links tr
    rw [hlink]
    refine ⟨⟨rfl, rfl⟩, .inl rfl, .inr fun hold => ?_⟩
    rcases hold with hold | ⟨k, hold⟩ <;> cases hold

/-- No transport holds the pins after it was told that it is disconnected. -/
def Released (s : LinkState T) : Prop :=
  Tracks s ∧ ∀ tr, Disconnected tr s.history → Free tr s

theorem LinkLegal.released {s' : LinkState T} (hg : LinkLegal host t s s') (hs : Released s) :
    Released s' := by
  refine ⟨hg.tracks, fun tr hdisc => ?_⟩
  obtain ⟨e, -, hh, he⟩ := hg.event
  rw [hh] at hdisc
  rcases hdisc with htells | ⟨hdisc, hgrant⟩
  · exact (he tr).1 htells
  · rcases hs.2 tr hdisc with hforf | hno
    · left
      rw [hh]
      exact .inr hforf
    · right
      intro hold
      rcases (he tr).2 hold with hold | ⟨-, hgr⟩
      · exact hno hold
      · exact hgrant hgr

/-- Along every run in which no DAP_Connect of the transport was refused while it held the
pins: once the transport was told that it is disconnected, and until it acquires again, the
ownership word is not its. -/
theorem disconnected_transport_released {w : Device (Transport → Link)} (hw : FreshLinks w)
    {σ : LinkConfig T} (hσ : (linkMachine host).Steps (.start w) σ) {tr : Transport}
    (hdisc : Disconnected tr σ.history) (hforf : ¬ Forfeited tr σ.history) :
    controlState σ.world.ownershipControl ≠ tr.owner.code := by
  have hstart : Released (⟨w, [], Arbiter.fresh⟩ : LinkState T) :=
    ⟨hw.free.trans Arbiter.fresh_control.symm, fun _ h => h.elim⟩
  obtain ⟨γ, -, htracks, hfree⟩ := Machine.Steps.safe linkVerified
    (fun _ _ _ hs hg => LinkLegal.released hg hs) hσ (Config.start_safe hw.idle) hstart
  intro hstate
  apply (hfree tr hdisc).resolve_left hforf
  rw [Arbiter.holds_iff_state, ← hstate]
  exact congrArg controlState htracks.symm

section Runs

/-- A device with free pins and transports that were just set up. -/
def freshLinks (mode : Word) : Device (Transport → Link) :=
  ⟨ownerNone, mode, 0, 0, fun tr => ⟨.init tr.owner [] [], .zero⟩⟩

theorem freshLinks_fresh (mode : Word) : FreshLinks (freshLinks mode) := ⟨rfl, fun _ => ⟨_, _, rfl⟩⟩

/-- The calls one after the other, in the one thread that there is. -/
def linkRun (calls : List LinkCall) : LinkConfig Unit :=
  (linkMachine fun _ => ()).replay (fun _ => Device.answer (granted 0))
    (calls.flatMap fun c => ((), some c) :: List.replicate 20 ((), none))
    (.start (freshLinks 0x81))

theorem linkRun_steps (calls : List LinkCall) :
    (linkMachine fun _ => ()).Steps (.start (freshLinks 0x81)) (linkRun calls) :=
  Machine.replay_steps (fun _ => Device.exec_answer _) _ _ fun _ _ _ _ _ _ _ => rfl

/-- USB is attached and connects, and disconnects. -/
def plainSession : LinkConfig Unit :=
  linkRun [.packet .usb [0x02, 0x01] 64 [], .packet .usb [0x03] 64 []]

theorem plainSession_released : Disconnected .usb plainSession.history ∧
    ¬ Forfeited .usb plainSession.history ∧
    controlState plainSession.world.ownershipControl ≠ Transport.usb.owner.code := by
  have hdisc : Disconnected .usb plainSession.history :=
    .inl ⟨rfl, .inr ⟨rfl, List.cons_ne_nil _ _⟩⟩
  have hforf : ¬ Forfeited .usb plainSession.history := by decide +kernel
  exact ⟨hdisc, hforf, disconnected_transport_released (freshLinks_fresh _) (linkRun_steps _)
    hdisc hforf⟩

/-- USB is attached and connects, is detached, and connects again. -/
def refusedSession : LinkConfig Unit :=
  linkRun [.packet .usb [0x02, 0x01] 64 [], .transition 1 .usbDetached,
    .packet .usb [0x02, 0x01] 64 []]

/-- The second DAP_Connect is answered with port 0, and USB keeps the pins. -/
theorem refusedSession_keeps :
    (linkMachine fun _ => ()).Steps (.start (freshLinks 0x81)) refusedSession ∧
    FreshLinks (freshLinks 0x81) ∧
    Disconnected .usb refusedSession.history ∧
    controlState refusedSession.world.ownershipControl = Transport.usb.owner.code :=
  ⟨linkRun_steps _, freshLinks_fresh _, .inl ⟨rfl, .inl ⟨rfl, rfl⟩⟩, by decide +kernel⟩

end Runs
end AirDap

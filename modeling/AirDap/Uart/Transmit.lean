import AirDap.Uart.Calls

/-! The ownership of the transmitter over every run of any threads. The owner is checked under
the state mutex and used under the mutex of the TX operations, which every change of the owner
takes as well. -/
namespace AirDap
open Concurrency

variable {T : Type}

/-- The sections that can change the owner of the transmitter. -/
def UartSection.governsTx : UartSection → Bool
  | .sessionClose _ _ | .txAcquire _ _ | .suspend => true
  | _ => false

section Histories

/-- The newest suspend or resume that took effect is a suspend. -/
def suspendedIn : List (UartEvent T) → Bool
  | [] => false
  | .acted _ (.locked .suspend) (some _) _ :: _ => true
  | .acted _ (.locked .resume) (some _) _ :: _ => false
  | _ :: h => suspendedIn h

/-- The session that an operation has opened. -/
def UartAct.opened : (a : UartAct) → a.Answer → Option Word
  | .locked (.sessionOpen _), some (.ok, session) => some session
  | _, _ => none

/-- The sessions that were opened, newest first. -/
def openedIds : List (UartEvent T) → List Word
  | [] => []
  | .acted _ a r _ :: h => (a.opened r).toList ++ openedIds h
  | _ :: h => openedIds h

end Histories

section Sections

variable {uart : TargetUart} {transport : UartTransport} {session : Word}

/-- The owner is a live session, and there is none while the UART is suspended. -/
structure TargetUart.OwnerLive (uart : TargetUart) : Prop where
  live : ∀ transport, uart.txOwner.transport = some transport →
    uart.txOwner.session ≠ 0 ∧ (uart.slots transport).session = uart.txOwner.session
  suspended : uart.suspended = true → uart.txOwner.transport = none

/-- The members that a section does not govern. -/
theorem UartSection.run_frame (s : UartSection) :
    (s.governsTx = false → (s.run uart).2.txOwner = uart.txOwner) ∧
    (s ≠ .suspend ∧ s ≠ .resume → (s.run uart).2.suspended = uart.suspended) ∧
    ((∀ transport, s ≠ .sessionOpen transport) →
      (s.run uart).2.nextSession = uart.nextSession) := by
  cases s with
  | sessionOpen transport =>
    obtain ⟨-, heq⟩ | ⟨-, heq⟩ := sessionOpenLocked_cases uart transport <;>
      simp [UartSection.run, heq, TargetUart.setSlot]
  | sessionClose transport session =>
    obtain heq | ⟨-, -, heq⟩ | ⟨-, -, heq⟩ := sessionCloseLocked_cases uart transport session <;>
      simp [UartSection.run, heq, TargetUart.setSlot, UartSection.governsTx]
  | txAcquire transport session =>
    obtain ⟨r, -, heq⟩ | ⟨-, -, -, heq⟩ := txAcquireLocked_cases uart transport session <;>
      simp [UartSection.run, heq, UartSection.governsTx]
  | sessionRead transport session capacity =>
    obtain heq | ⟨-, heq⟩ := sessionReadLocked_cases uart transport session capacity <;>
      simp [UartSection.run, heq, TargetUart.setSlot]
  | suspend => exact ⟨fun h => (by cases h), fun h => absurd rfl h.1, fun _ => rfl⟩
  | resume => exact ⟨fun _ => rfl, fun h => absurd rfl h.2, fun _ => rfl⟩
  | _ => exact ⟨fun _ => rfl, fun _ => rfl, fun _ => rfl⟩

theorem TargetUart.OwnerLive.congr (hi : uart.OwnerLive) {uart' : TargetUart}
    (howner : uart'.txOwner = uart.txOwner)
    (hsuspended : uart'.suspended = true → uart.suspended = true)
    (hsession : ∀ transport, uart.txOwner.transport = some transport →
      (uart'.slots transport).session = (uart.slots transport).session) :
    uart'.OwnerLive := by
  refine ⟨fun transport ht => ?_, fun h => ?_⟩
  · rw [howner] at ht ⊢
    rw [hsession transport ht]
    exact hi.live transport ht
  · rw [howner]
    exact hi.suspended (hsuspended h)

theorem TargetUart.OwnerLive.run (hi : uart.OwnerLive) (s : UartSection)
    (hs : ∀ transport session, s = .txAcquire transport session → session ≠ 0) :
    (s.run uart).2.OwnerLive := by
  -- a slot that the owner does not use may be changed
  have hother {transport : UartTransport} {slot : SessionSlot} {next : Word}
      (hne : uart.txOwner.transport ≠ some transport) :
      { uart.setSlot transport slot with nextSession := next }.OwnerLive := by
    refine hi.congr rfl id fun other hother => ?_
    have hdifferent : other ≠ transport := fun h => hne (h ▸ hother)
    simp [TargetUart.setSlot, Function.update_of_ne hdifferent]
  cases s with
  | publishRx data => exact hi.congr rfl id fun transport _ => publishSlot_session data _
  | sessionOpen transport =>
    obtain ⟨-, heq⟩ | ⟨hvacant, heq⟩ := sessionOpenLocked_cases uart transport
    · simpa [UartSection.run, heq] using hi
    · have hne : uart.txOwner.transport ≠ some transport := by
        intro howner
        obtain ⟨hsession, hlive⟩ := hi.live transport howner
        exact hsession (hlive ▸ hvacant)
      simpa [UartSection.run, heq] using hother hne
  | sessionClose transport session =>
    obtain heq | ⟨-, -, heq⟩ | ⟨hlive, howner, heq⟩ :=
      sessionCloseLocked_cases uart transport session
    · simpa [UartSection.run, heq] using hi
    · rw [UartSection.run, heq]
      exact ⟨fun _ h => (by cases h), fun _ => rfl⟩
    · have hne : uart.txOwner.transport ≠ some transport := by
        intro htransport
        refine howner ?_
        rw [← htransport, ← hlive, (hi.live transport htransport).2]
      rw [UartSection.run, heq]
      exact hother hne
  | sessionStatus | validateOwner => exact hi
  | txAcquire transport session =>
    obtain ⟨r, -, heq⟩ | ⟨hlive, hsuspended, -, heq⟩ := txAcquireLocked_cases uart transport session
    · simpa [UartSection.run, heq] using hi
    · rw [UartSection.run, heq]
      refine ⟨fun other hother => ?_, fun h => ?_⟩
      · cases hother
        exact ⟨hs _ _ rfl, hlive⟩
      · exact absurd (hsuspended.symm.trans h) Bool.false_ne_true
  | sessionRead transport session capacity =>
    obtain heq | ⟨-, heq⟩ := sessionReadLocked_cases uart transport session capacity
    · simpa [UartSection.run, heq] using hi
    · simp only [UartSection.run, heq]
      exact hi.congr rfl id fun other _ =>
        setSlot_session uart transport (readSlot capacity (uart.slots transport)).2 rfl other
  | suspend => exact ⟨fun _ h => (by cases h), fun _ => rfl⟩
  | resume => exact hi.congr rfl (fun h => (by cases h)) fun _ _ => rfl

end Sections

section Numbers

/-- The sessions that were opened have different numbers. -/
structure UartNumbered (next : Word) (opened : List Word) : Prop where
  next : next.toNat = opened.length + 1
  range : ∀ id ∈ opened, 0 < id.toNat ∧ id.toNat ≤ opened.length
  nodup : opened.Nodup

variable {next : Word} {opened : List Word}

theorem UartNumbered.draw (h : UartNumbered next opened)
    (hfew : opened.length + 1 < 2 ^ 32 - 1) :
    UartNumbered (drawSession next).2 ((drawSession next).1 :: opened) := by
  have hnext := h.next
  have hne : next ≠ 0 := by
    rintro rfl
    simp at hnext
  simp only [drawSession, if_neg hne]
  refine ⟨?_, fun id hid => ?_, List.nodup_cons.mpr ⟨fun hmem => ?_, h.nodup⟩⟩
  · simp only [BitVec.toNat_add, hnext, List.length_cons]
    simp
    omega
  · rw [List.length_cons]
    rcases List.mem_cons.mp hid with rfl | hid
    · omega
    · have := h.range id hid
      omega
  · have := h.range next hmem
    omega

end Numbers

section Invariant

variable [DecidableEq T] {w w' : UartWorld T} {h : List (UartEvent T)} {t u : T} {a : UartAct}
  {r : a.Answer}

/-- A driver call that drives the line finds the session of its call the owner, in a UART that is
not suspended; a suspend that returns OK has taken effect. -/
def TxSound : UartEvent T → List (UartEvent T) → Prop
  | .acted t a _ w, h => a.drives = true → suspendedIn h = false ∧
    ∃ transport session c w', w.uart.txOwner = ⟨some transport, session⟩ ∧
      lastCall t h = some (c, w') ∧ c.txSession = some (transport, session)
  | .returned t .suspend v, h => v = .ok →
    ∃ r w, .acted t (.locked .suspend) (some r) w ∈ sinceCall t h
  | _, _ => True

structure TxInv (w : UartWorld T) (h : List (UartEvent T)) : Prop where
  mutex : ∀ t, (uartProtocol.position t h).place ≠ .outside ↔ w.txHolder = some t
  validated : ∀ t transport session,
    (uartProtocol.position t h).place = .validated transport session →
      w.uart.txOwner = ⟨some transport, session⟩
  owner : w.uart.OwnerLive
  suspended : w.uart.suspended = suspendedIn h
  numbered : (openedIds h).length < 2 ^ 32 - 1 →
    UartNumbered w.uart.nextSession (openedIds h)
  sound : Always TxSound h

theorem lastCall_of_position {c : UartCall} (hc : (uartProtocol.position t h).call = some c) :
    ∃ w, lastCall t h = some (c, w) := by
  refine Protocol.lastCall_of_label UartPosition.call rfl (fun _ _ _ => rfl) (fun x a r => ?_) hc
  simp only [uartProtocol]
  unfold UartPosition.next
  split <;> first | rfl | (split_ifs <;> rfl)

/-- The section of a suspend that took effect. -/
def UartAct.suspends : (a : UartAct) → a.Answer → Prop
  | .locked .suspend, r => r.isSome
  | _, _ => False

theorem suspend_of_position (hx : (uartProtocol.position t h).suspended = true) :
    ∃ r w, .acted t (.locked .suspend) (some r) w ∈ sinceCall t h := by
  have hnext (x : UartPosition) (a : UartAct) (r : a.Answer)
      (hx : (x.next a r).suspended = true) : x.suspended = true ∨ a.suspends r := by
    unfold UartPosition.next at hx
    split at hx
    all_goals try split_ifs at hx
    all_goals first
      | exact .inl hx
      | exact .inr ‹_›
  obtain ⟨a, r, w, hmem, hsuspends⟩ := Protocol.acted_of_position (P := uartProtocol)
    (fun x => x.suspended = true) UartAct.suspends Bool.false_ne_true
    (fun _ _ _ => Bool.false_ne_true) hnext hx
  unfold UartAct.suspends at hsuspends
  split at hsuspends
  · obtain ⟨r, rfl⟩ := Option.isSome_iff_exists.mp hsuspends
    exact ⟨r, w, hmem⟩
  · exact hsuspends.elim

theorem TxInv.drives (hi : TxInv w h) (hallows : (uartProtocol.position t h).allows a)
    (hdrives : a.drives = true) : suspendedIn h = false ∧
      ∃ transport session c w', w.uart.txOwner = ⟨some transport, session⟩ ∧
        lastCall t h = some (c, w') ∧ c.txSession = some (transport, session) := by
  have hplace : ∃ transport session,
      (uartProtocol.position t h).place = .validated transport session ∧
        (uartProtocol.position t h).call.bind UartCall.txSession = some (transport, session) := by
    cases a with
    | paramConfig | writeBytes => exact hallows
    | _ => cases hdrives
  obtain ⟨transport, session, hplace, hcall⟩ := hplace
  obtain ⟨c, hc, hsession⟩ := Option.bind_eq_some_iff.mp hcall
  obtain ⟨w', hlast⟩ := lastCall_of_position hc
  have howner := hi.validated t transport session hplace
  refine ⟨?_, transport, session, c, w', howner, hlast, hsession⟩
  rw [← hi.suspended]
  by_contra hsuspended
  have hnone := hi.owner.suspended (Bool.eq_true_of_not_eq_false hsuspended)
  rw [howner] at hnone
  cases hnone

omit [DecidableEq T] in
theorem UartPosition.allows_governs {x : UartPosition} {s : UartSection}
    (hallows : x.allows (.locked s)) (hs : s.governsTx = true) : x.place = .holding := by
  cases s with
  | sessionClose | txAcquire | suspend => exact hallows.1
  | _ => cases hs

omit [DecidableEq T] in
theorem UartWorld.exec_gauges (hexec : w.exec t a r w') (ha : ∀ s, a ≠ .locked s) :
    ∃ gauges, w'.uart = { w.uart with gauges := gauges } := by
  cases a with
  | locked s => exact absurd rfl (ha s)
  | lockTx | tryLockTx => obtain ⟨-, -, rfl⟩ | ⟨-, -, rfl⟩ := hexec <;> exact ⟨_, rfl⟩
  | loadInitialized | loadGauge =>
    obtain ⟨-, rfl⟩ := hexec
    exact ⟨_, rfl⟩
  | _ =>
    obtain rfl : w' = _ := hexec
    exact ⟨_, rfl⟩

omit [DecidableEq T] in
theorem UartWorld.exec_txOwner (hexec : w.exec t a r w')
    (ha : ∀ s, a = .locked s → s.governsTx = false) : w'.uart.txOwner = w.uart.txOwner := by
  cases a with
  | locked s =>
    obtain ⟨-, -, rfl⟩ | ⟨-, rfl⟩ := hexec
    · rfl
    · exact s.run_frame.1 (ha s rfl)
  | _ =>
    obtain ⟨gauges, huart⟩ := UartWorld.exec_gauges hexec (by simp)
    rw [huart]

omit [DecidableEq T] in
theorem UartWorld.exec_txHolder (hexec : w.exec t a r w')
    (ha : a ≠ .lockTx ∧ a ≠ .tryLockTx ∧ a ≠ .unlockTx) : w'.txHolder = w.txHolder := by
  cases a with
  | locked s =>
    obtain ⟨-, -, rfl⟩ | ⟨-, rfl⟩ := hexec
    · rfl
    · rfl
  | lockTx | tryLockTx | unlockTx => simp at ha
  | loadInitialized | loadGauge =>
    obtain ⟨-, rfl⟩ := hexec
    rfl
  | _ =>
    obtain rfl : w' = _ := hexec
    rfl

section

variable (hi : TxInv w h)
include hi

theorem TxInv.acted_mutex (hallows : (uartProtocol.position t h).allows a)
    (hexec : w.exec t a r w') (u : T) :
    (uartProtocol.position u (.acted t a r w :: h)).place ≠ .outside ↔ w'.txHolder = some u := by
  have hmutex := hi.mutex u
  -- a thread that takes the mutex finds it free
  have hlock (hfree : w.txHolder = none) (hw' : w'.txHolder = some t)
      (hnext : (uartProtocol.position t (.acted t a r w :: h)).place = .holding) :
      (uartProtocol.position u (.acted t a r w :: h)).place ≠ .outside ↔
        w'.txHolder = some u := by
    by_cases hu : t = u
    · subst hu
      rw [hnext, hw']
      simp
    · rw [Protocol.position_acted_of_ne hu, hmutex, hfree, hw']
      simp [hu]
  have hsame (hw' : w'.txHolder = w.txHolder)
      (hnext : (uartProtocol.position t (.acted t a r w :: h)).place ≠ .outside ↔
        (uartProtocol.position t h).place ≠ .outside) :
      (uartProtocol.position u (.acted t a r w :: h)).place ≠ .outside ↔
        w'.txHolder = some u := by
    rw [hw', ← hmutex]
    by_cases hu : t = u
    · subst hu
      exact hnext
    · rw [Protocol.position_acted_of_ne hu]
  have hposition : uartProtocol.position t (.acted t a r w :: h) =
      (uartProtocol.position t h).next a r := Protocol.position_acted_self
  rw [hposition] at hlock hsame
  cases a with
  | lockTx | tryLockTx =>
    obtain ⟨rfl, hfree, rfl⟩ | ⟨rfl, -, rfl⟩ := hexec
    · exact hlock hfree rfl rfl
    · exact hsame rfl Iff.rfl
  | unlockTx =>
    have hheld := (hi.mutex t).mp hallows
    obtain rfl : w' = _ := hexec
    by_cases hu : t = u
    · subst hu
      rw [hposition]
      simp [UartPosition.next]
    · rw [Protocol.position_acted_of_ne hu, hmutex, hheld]
      simp [hu]
  | locked s =>
    refine hsame (UartWorld.exec_txHolder hexec (by simp)) ?_
    cases s with
    | validateOwner transport session =>
      simp only [UartPosition.next]
      split_ifs
      · simp [hallows.1]
      · exact Iff.rfl
    | suspend =>
      simp only [UartPosition.next]
      split_ifs <;> exact Iff.rfl
    | _ => exact Iff.rfl
  | _ => exact hsame (UartWorld.exec_txHolder hexec (by simp)) Iff.rfl

/-- What a call has validated stays so: the owner is changed only by a call that holds the
mutex. -/
theorem TxInv.acted_validated (hallows : (uartProtocol.position t h).allows a)
    (hexec : w.exec t a r w') {transport : UartTransport} {session : Word}
    (hplace : (uartProtocol.position u (.acted t a r w :: h)).place =
      .validated transport session) : w'.uart.txOwner = ⟨some transport, session⟩ := by
  have hkept (hbefore : (uartProtocol.position u h).place = .validated transport session) :
      w'.uart.txOwner = ⟨some transport, session⟩ := by
    rw [UartWorld.exec_txOwner hexec, hi.validated u transport session hbefore]
    rintro s rfl
    by_contra hs
    have hholding := UartPosition.allows_governs hallows (Bool.eq_true_of_not_eq_false hs)
    have ht : w.txHolder = some t := (hi.mutex t).mp (by simp [hholding])
    have hu : w.txHolder = some u := (hi.mutex u).mp (by simp [hbefore])
    cases ht.symm.trans hu
    cases hholding.symm.trans hbefore
  by_cases hu : t = u
  · subst hu
    have hposition : uartProtocol.position t (.acted t a r w :: h) =
        (uartProtocol.position t h).next a r := Protocol.position_acted_self
    rw [hposition] at hplace
    cases a with
    | lockTx | tryLockTx =>
      simp only [UartPosition.next] at hplace
      split_ifs at hplace
      exact hkept hplace
    | unlockTx => cases hplace
    | locked s =>
      cases s with
      | validateOwner transport' session' =>
        simp only [UartPosition.next] at hplace
        split_ifs at hplace with hok
        · cases hplace
          obtain ⟨hnone, -⟩ | ⟨hr, rfl⟩ := hexec
          · cases hok.symm.trans hnone
          · exact (validateTxOwner_ok _ _ _ (Option.some.inj (hr.symm.trans hok))).2
        · exact hkept hplace
      | suspend =>
        simp only [UartPosition.next] at hplace
        split_ifs at hplace <;> exact hkept hplace
      | _ => exact hkept hplace
    | _ => exact hkept hplace
  · rw [Protocol.position_acted_of_ne hu] at hplace
    exact hkept hplace

theorem TxInv.acted_owner (hallows : (uartProtocol.position t h).allows a)
    (hexec : w.exec t a r w') : w'.uart.OwnerLive := by
  cases a with
  | locked s =>
    obtain ⟨-, -, rfl⟩ | ⟨-, rfl⟩ := hexec
    · exact hi.owner
    · refine hi.owner.run s ?_
      rintro transport session rfl
      exact hallows.2.1
  | _ =>
    obtain ⟨gauges, huart⟩ := UartWorld.exec_gauges hexec (by simp)
    rw [huart]
    exact hi.owner.congr rfl id fun _ _ => rfl

theorem TxInv.acted_suspended (hexec : w.exec t a r w') :
    w'.uart.suspended = suspendedIn (.acted t a r w :: h) := by
  cases a with
  | locked s =>
    cases s with
    | suspend | resume =>
      obtain ⟨rfl, -, rfl⟩ | ⟨rfl, rfl⟩ := hexec
      · exact hi.suspended
      · rfl
    | _ =>
      obtain ⟨-, -, rfl⟩ | ⟨-, rfl⟩ := hexec
      · exact hi.suspended
      · exact ((UartSection.run_frame _).2.1 (by simp)).trans hi.suspended
  | _ =>
    obtain ⟨gauges, huart⟩ := UartWorld.exec_gauges hexec (by simp)
    rw [huart]
    exact hi.suspended

theorem TxInv.acted_numbered (hexec : w.exec t a r w')
    (hfew : (openedIds (.acted t a r w :: h)).length < 2 ^ 32 - 1) :
    UartNumbered w'.uart.nextSession (openedIds (.acted t a r w :: h)) := by
  have hsame (hnext : w'.uart.nextSession = w.uart.nextSession) (hopened : a.opened r = none) :
      UartNumbered w'.uart.nextSession (openedIds (.acted t a r w :: h)) := by
    have hids : openedIds (.acted t a r w :: h) = openedIds h := by simp [openedIds, hopened]
    rw [hids] at hfew ⊢
    rw [hnext]
    exact hi.numbered hfew
  cases a with
  | locked s =>
    cases s with
    | sessionOpen transport =>
      obtain ⟨rfl, -, rfl⟩ | ⟨rfl, rfl⟩ := hexec
      · exact hsame rfl rfl
      · obtain ⟨-, heq⟩ | ⟨-, heq⟩ := sessionOpenLocked_cases w.uart transport
        · apply hsame
          · simp [UartSection.run, heq]
          · simp [UartSection.run, heq, UartAct.opened]
        · simp only [UartSection.run, heq, openedIds, UartAct.opened, Option.toList_some,
            List.cons_append, List.nil_append, List.length_cons] at hfew ⊢
          exact (hi.numbered (by omega)).draw hfew
    | _ =>
      obtain ⟨-, -, rfl⟩ | ⟨-, rfl⟩ := hexec
      · exact hsame rfl rfl
      · exact hsame ((UartSection.run_frame _).2.2 (by simp)) rfl
  | _ =>
    obtain ⟨gauges, huart⟩ := UartWorld.exec_gauges hexec (by simp)
    exact hsame (by rw [huart]) rfl

theorem TxInv.quiet {e : UartEvent T} (hsuspended : suspendedIn (e :: h) = suspendedIn h)
    (hopened : openedIds (e :: h) = openedIds h) (hsound : TxSound e h)
    (hbefore : (uartProtocol.position e.thread h).place = .outside)
    (hafter : (uartProtocol.position e.thread (e :: h)).place = .outside) : TxInv w (e :: h) := by
  have hplace (u : T) : (uartProtocol.position u (e :: h)).place =
      (uartProtocol.position u h).place := by
    by_cases hu : e.thread = u
    · subst hu
      rw [hbefore, hafter]
    · rw [Protocol.position_of_ne hu]
  refine ⟨fun u => ?_, fun u transport session hu => ?_, hi.owner, ?_, ?_, hsound, hi.sound⟩
  · rw [hplace]
    exact hi.mutex u
  · rw [hplace] at hu
    exact hi.validated u transport session hu
  · rw [hsuspended]
    exact hi.suspended
  · rw [hopened]
    exact hi.numbered

end

theorem UartCall.returns.outside {c : UartCall} {v : c.Value} {x : UartPosition}
    (hv : c.returns v x) : x.place = .outside := by
  cases c with
  | suspend => exact hv.1
  | _ => exact hv

theorem TxInv.preserves :
    uartProtocol.Preserves (uartMachine : Machine T _ _ _ _ _) (fun _ c => c.returns) TxInv where
  called w h t c hi hidle _ := by
    refine hi.quiet rfl rfl trivial ?_ ?_
    · rw [Event.thread, hidle]
      rfl
    · rw [Event.thread, Protocol.position_called_self]
      rfl
  acted _ _ _ _ _ _ hi hallows hexec :=
    ⟨hi.acted_mutex hallows hexec, fun _ _ _ => hi.acted_validated hallows hexec,
      hi.acted_owner hallows hexec, hi.acted_suspended hexec, hi.acted_numbered hexec,
      hi.drives hallows, hi.sound⟩
  returned w h t c v hi hv := by
    refine hi.quiet rfl rfl ?_ hv.outside ?_
    · cases c with
      | suspend => exact fun hok => suspend_of_position (hv.2 hok)
      | _ => trivial
    · rw [Event.thread, Protocol.position_returned_self]
      rfl

theorem UartWorld.Started.txInv (hstart : w.Started) : TxInv w [] := by
  refine ⟨fun t => ?_, nofun, ⟨?_, ?_⟩, hstart.running, fun _ => ⟨?_, nofun, List.nodup_nil⟩,
    trivial⟩
  · simp [Protocol.position, uartProtocol, hstart.unlocked]
  · simp [hstart.unowned, TxOwner.none]
  · simp [hstart.unowned, TxOwner.none]
  · rw [hstart.first]
    rfl

end Invariant

section Runs

theorem resume_of_not_suspendedIn {mid h : List (UartEvent T)} {t : T} {r : Unit}
    {w : UartWorld T}
    (hresumed : suspendedIn (mid ++ .acted t (.locked .suspend) (some r) w :: h) = false) :
    ∃ u r w, .acted u (.locked .resume) (some r) w ∈ mid := by
  induction mid with
  | nil => cases hresumed
  | cons e mid ih =>
    have hlater (hrest : suspendedIn (mid ++ .acted t (.locked .suspend) (some r) w :: h) = false) :
        ∃ u r w, .acted u (.locked .resume) (some r) w ∈ e :: mid := by
      obtain ⟨u, r, w, hmem⟩ := ih hrest
      exact ⟨u, r, w, List.mem_cons_of_mem _ hmem⟩
    cases e with
    | called | returned => exact hlater hresumed
    | acted u a r' w' =>
      cases a with
      | locked s =>
        cases s with
        | suspend =>
          cases r' with
          | none => exact hlater hresumed
          | some r' => cases hresumed
        | resume =>
          cases r' with
          | none => exact hlater hresumed
          | some r' => exact ⟨u, r', w', List.mem_cons_self ..⟩
        | _ => exact hlater hresumed
      | _ => exact hlater hresumed

variable [DecidableEq T]

theorem step_txOwner {σ σ' : UartConfiguration T} {t : T} {transport : UartTransport}
    (hσ : uartProtocol.Held (fun _ c => c.returns) TxInv σ) (hstep : uartMachine.Step σ t σ')
    (htransport : σ.world.uart.txOwner.transport = some transport)
    (hchange : σ'.world.uart.txOwner ≠ σ.world.uart.txOwner) : ∃ c w,
      lastCall t σ.history = some (c, w) ∧
        (c = .sessionClose (some transport) σ.world.uart.txOwner.session ∨ c = .suspend) := by
  have hworld (c : UartCall) (w : UartWorld T) (h : List (UartEvent T)) (p : UartCode c.Value) :
      (uartMachine.settle σ t c w h p).world = w := by
    cases p <;> rfl
  have hstands := hσ.thread t
  cases hstep with
  | call idle may => exact absurd (by rw [hworld]) hchange
  | act busy exec =>
    rename_i c a k r w
    rw [hworld] at hchange
    rw [busy] at hstands
    have hallows : (uartProtocol.position t σ.history).allows a := hstands.1
    have hsection : ∃ s, a = .locked s ∧ s.governsTx = true := by
      by_contra hnone
      refine hchange (UartWorld.exec_txOwner exec fun s hs => ?_)
      exact Bool.eq_false_iff.mpr fun htrue => hnone ⟨s, hs, htrue⟩
    obtain ⟨s, rfl, hgoverns⟩ := hsection
    obtain ⟨-, -, rfl⟩ | ⟨-, rfl⟩ := exec
    · exact absurd rfl hchange
    · cases s with
      | sessionClose transport' session =>
        obtain heq | ⟨-, howner, heq⟩ | ⟨-, -, heq⟩ :=
          sessionCloseLocked_cases σ.world.uart transport' session
        · exact absurd (by simp [UartSection.run, heq]) hchange
        · obtain ⟨w, hlast⟩ := lastCall_of_position hallows.2
          rw [howner, Option.some.injEq] at htransport
          rw [htransport] at hlast
          exact ⟨_, w, hlast, .inl (by rw [howner])⟩
        · exact absurd (by simp [UartSection.run, heq, TargetUart.setSlot]) hchange
      | txAcquire transport' session =>
        obtain ⟨r, -, heq⟩ | ⟨-, -, hfree, -⟩ :=
          txAcquireLocked_cases σ.world.uart transport' session
        · exact absurd (by simp [UartSection.run, heq]) hchange
        · cases hfree.symm.trans htransport
      | suspend =>
        obtain ⟨w, hlast⟩ := lastCall_of_position hallows.2
        exact ⟨_, w, hlast, .inr rfl⟩
      | _ => cases hgoverns

/-- In every run of the calls by any threads: the owner of the transmitter is a live session of
its transport, and there is none from the moment a suspend takes effect until a resume; the owner
changes only when the session is closed or the UART is suspended; the line is driven only for the
session of the call, which owns the transmitter at that moment; a suspend that returned OK has
taken effect, and the line is not driven from then on until a resume takes effect. The numbers of
fewer than `2 ^ 32 - 1` sessions are different. -/
theorem uart_tx_owned {w₀ : UartWorld T} (hstart : w₀.Started) {σ : UartConfiguration T}
    (hrun : uartMachine.Steps (.start w₀) σ) :
    (∀ transport, σ.world.uart.txOwner.transport = some transport →
      σ.world.uart.txOwner.session ≠ 0 ∧
        (σ.world.uart.slots transport).session = σ.world.uart.txOwner.session) ∧
    (suspendedIn σ.history = true → σ.world.uart.txOwner.transport = none) ∧
    (∀ t σ' transport, uartMachine.Step σ t σ' →
      σ.world.uart.txOwner.transport = some transport →
      σ'.world.uart.txOwner ≠ σ.world.uart.txOwner → ∃ c w,
        lastCall t σ.history = some (c, w) ∧
          (c = .sessionClose (some transport) σ.world.uart.txOwner.session ∨ c = .suspend)) ∧
    (∀ later t a r w h, σ.history = later ++ .acted t a r w :: h → a.drives = true →
      (∃ transport session c w', w.uart.txOwner = ⟨some transport, session⟩ ∧
        lastCall t h = some (c, w') ∧ c.txSession = some (transport, session)) ∧
      ∀ mid u r' w' earlier, h = mid ++ .acted u (.locked .suspend) (some r') w' :: earlier →
        ∃ v r'' w'', .acted v (.locked .resume) (some r'') w'' ∈ mid) ∧
    (∀ later t h, σ.history = later ++ .returned t .suspend .ok :: h →
      ∃ r w, .acted t (.locked .suspend) (some r) w ∈ sinceCall t h) ∧
    ((openedIds σ.history).length < 2 ^ 32 - 1 → (openedIds σ.history).Nodup) := by
  have hσ := hrun.held uartMachine_keeps TxInv.preserves (Protocol.held_start hstart.txInv)
  have hi := hσ.inv
  refine ⟨hi.owner.live, fun hsuspended => ?_, fun t σ' transport hstep htransport hchange => ?_,
    fun later t a r w h hsplit hdrives => ?_, fun later t h hsplit => ?_,
    fun hfew => (hi.numbered hfew).nodup⟩
  · exact hi.owner.suspended (hi.suspended.trans hsuspended)
  · exact step_txOwner hσ hstep htransport hchange
  · have hsound := hi.sound
    rw [hsplit] at hsound
    obtain ⟨hresumed, hdriven⟩ := hsound.at hdrives
    refine ⟨hdriven, ?_⟩
    rintro mid u r' w' earlier rfl
    exact resume_of_not_suspendedIn hresumed
  · have hsound := hi.sound
    rw [hsplit] at hsound
    exact hsound.at rfl

/-- The USB session is opened, acquires the transmitter and writes a byte. -/
def writingRun : Option (UartConfiguration Unit) :=
  uartMachine.script UartWorld.answer (
    ((), some (.sessionOpen (some .usb) false true)) :: List.replicate 2 ((), none) ++
    ((), some (.txAcquire (some .usb) 1)) :: List.replicate 4 ((), none) ++
    ((), some (.sessionWrite (some .usb) 1 (some [7]) true)) :: List.replicate 4 ((), none))
    (.start freshUart)

/-- The newest operation drives the line, after a history of which `P` holds. -/
def drivesAfter (P : List (UartEvent T) → Bool) : List (UartEvent T) → Bool
  | .acted _ a _ _ :: h => a.drives && P h
  | _ => false

omit [DecidableEq T] in
theorem exists_of_drivesAfter {P : List (UartEvent T) → Bool} {h : List (UartEvent T)}
    (hlast : drivesAfter P h = true) :
    ∃ t a r w h', h = .acted t a r w :: h' ∧ a.drives = true ∧ P h' = true := by
  unfold drivesAfter at hlast
  split at hlast
  · exact ⟨_, _, _, _, _, rfl, Bool.and_eq_true_iff.mp hlast⟩
  · cases hlast

theorem writingRun_owned : (freshUart : UartWorld Unit).Started ∧
    ∃ σ, uartMachine.Steps (.start (freshUart : UartWorld Unit)) σ ∧
      (σ.world.uart.slots .usb).session = 1 ∧
      ∃ t a r w h, σ.history = .acted t a r w :: h ∧ a.drives = true ∧
        ∃ transport session, w.uart.txOwner = ⟨some transport, session⟩ := by
  have hrun : writingRun.any (fun σ => σ.world.uart.txOwner = ⟨some .usb, 1⟩ ∧
      drivesAfter (fun _ => true) σ.history = true) = true := by
    rfl
  obtain ⟨σ, hσ, hcheck⟩ := (Option.any_eq_true _ _).mp hrun
  obtain ⟨howner, hlast⟩ := of_decide_eq_true hcheck
  have hsteps := Machine.script_steps UartWorld.exec_answer hσ
  obtain ⟨hlive, -, -, hdriven, -⟩ := uart_tx_owned freshUart_started hsteps
  have hsession := (hlive .usb (by rw [howner])).2
  rw [howner] at hsession
  obtain ⟨t, a, r, w, h, hhistory, hdrives, -⟩ := exists_of_drivesAfter hlast
  obtain ⟨⟨transport, session, _, _, hw, -⟩, -⟩ := hdriven [] t a r w h hhistory hdrives
  exact ⟨freshUart_started, σ, hsteps, hsession, t, a, r, w, h, hhistory, hdrives, transport,
    session, hw⟩

/-- A suspend has returned `ESP_OK`, and since then no resume was called or took effect. -/
def suspendReturned : List (UartEvent T) → Bool
  | [] => false
  | .returned _ .suspend .ok :: _ => true
  | .called _ .resume _ :: _ => false
  | .acted _ (.locked .resume) _ _ :: _ => false
  | _ :: h => suspendReturned h

/-- One thread suspends the UART and waits for the line to drain; meanwhile the other resumes it.
The suspend returns, and the other thread acquires the transmitter and writes a byte. -/
def overtakenRun : Option (UartConfiguration Bool) :=
  uartMachine.script UartWorld.answer (
    (false, some (.sessionOpen (some .usb) false true)) :: List.replicate 2 (false, none) ++
    (true, some .suspend) :: List.replicate 3 (true, none) ++
    (false, some .resume) :: List.replicate 2 (false, none) ++
    List.replicate 2 (true, none) ++
    (false, some (.txAcquire (some .usb) 1)) :: List.replicate 4 (false, none) ++
    (false, some (.sessionWrite (some .usb) 1 (some [7]) true)) :: List.replicate 4 (false, none))
    (.start freshUart)

/-- The line is driven after a suspend has returned `ESP_OK`, with no resume after the return. -/
theorem overtakenRun_writes : ∃ σ, uartMachine.Steps (.start (freshUart : UartWorld Bool)) σ ∧
    ∃ t a r w h, σ.history = .acted t a r w :: h ∧ a.drives = true ∧
      suspendReturned h = true := by
  have hrun : overtakenRun.any (fun σ => drivesAfter suspendReturned σ.history) = true := by
    rfl
  obtain ⟨σ, hσ, hlast⟩ := (Option.any_eq_true _ _).mp hrun
  exact ⟨σ, Machine.script_steps UartWorld.exec_answer hσ, exists_of_drivesAfter hlast⟩

end Runs
end AirDap

import AirDap.Service.Worker

/-! A request runs only for a live session, and never on what another session of its transport
has left behind. -/
namespace AirDap
open Concurrency

variable {T : Type} [DecidableEq T] {worker : T} {tr : Transport}

/-- After the history, `e` is the execution of the request that the worker received last. -/
def Executes (worker : T) (h : ServiceHistory T) (e : ServiceEvent T) (item : WorkItem) : Prop :=
  (workTrace worker h).item = some item ∧ ∃ capacity response w,
    e = .acted worker (.process item.transport.owner item.request capacity) response w

/-- The worker has read the session of the request as the live one, and has not taken the
pending disconnects since. -/
def CheckedLive (worker : T) (item : WorkItem) (h : ServiceHistory T) : Prop :=
  ∃ later w earlier,
    h = later ++ .acted worker (.loadLive item.transport) item.session w :: earlier ∧
    w.liveSessions item.transport = item.session ∧
    ∀ r w', Event.acted worker .exchangePending r w' ∉ later

theorem received_of_workTrace {h : ServiceHistory T} {item : WorkItem}
    (hitem : (workTrace worker h).item = some item) : item ∈ received h := by
  induction h with
  | nil => cases hitem
  | cons e h ih =>
    cases e with
    | called u c w =>
      simp only [workTrace] at hitem
      split at hitem
      · cases hitem
      · exact ih hitem
    | returned u c v => exact ih hitem
    | acted u a r w =>
      simp only [workTrace] at hitem
      split at hitem
      · cases a with
        | receive =>
          cases r with
          | none => exact ih hitem
          | some i =>
            cases hitem
            exact List.mem_cons_self
        | _ => exact ih hitem
      · have hmem := ih hitem
        cases a with
        | receive =>
          cases r with
          | none => exact hmem
          | some i => exact List.mem_cons_of_mem _ hmem
        | _ => exact hmem

/-- A live session that the worker has read since it last took the pending disconnects. -/
theorem split_of_checks {h : ServiceHistory T} {x : Word}
    (hx : (tr, x) ∈ (workTrace worker h).checks) :
    ∃ later w earlier, h = later ++ .acted worker (.loadLive tr) x w :: earlier ∧
      ∀ r w', Event.acted worker .exchangePending r w' ∉ later := by
  induction h with
  | nil => cases hx
  | cons e h ih =>
    have hcons (hx : (tr, x) ∈ (workTrace worker h).checks)
        (he : ∀ r w', .acted worker .exchangePending r w' ≠ e) :
        ∃ later w earlier, e :: h = later ++ .acted worker (.loadLive tr) x w :: earlier ∧
          ∀ r w', Event.acted worker .exchangePending r w' ∉ later := by
      obtain ⟨later, w, earlier, rfl, hlater⟩ := ih hx
      refine ⟨e :: later, w, earlier, rfl, fun r w' hmem => ?_⟩
      rcases List.mem_cons.mp hmem with heq | hmem
      · exact he r w' heq
      · exact hlater r w' hmem
    cases e with
    | called u c w =>
      simp only [workTrace] at hx
      split at hx
      · cases hx
      · exact hcons hx fun _ _ h => by cases h
    | returned u c v => exact hcons hx fun _ _ h => by cases h
    | acted u a r w =>
      simp only [workTrace] at hx
      split at hx
      · subst u
        cases a with
        | exchangePending => cases hx
        | receive =>
          cases r with
          | none => exact hcons hx fun _ _ h => by cases h
          | some i => cases hx
        | loadLive tr' =>
          rcases List.mem_cons.mp hx with heq | hx
          · cases heq
            exact ⟨[], w, h, rfl, fun _ _ h => by cases h⟩
          · exact hcons hx fun _ _ h => by cases h
        | _ => exact hcons hx fun _ _ h => by cases h
      · rename_i hu
        refine hcons hx fun _ _ h => ?_
        cases h
        exact hu rfl

theorem AllSound.append {later earlier : ServiceHistory T}
    (h : AllSound worker (later ++ earlier)) : AllSound worker earlier := by
  induction later with
  | nil => exact h
  | cons e later ih => exact ih h.2

omit [DecidableEq T] in
theorem Bounded.append {later earlier : ServiceHistory T} (h : Bounded (later ++ earlier)) :
    Bounded earlier := by
  induction later with
  | nil => exact h
  | cons e later ih => exact ih h.tail

/-- A request that is executed has the session of the one executed before it on the transport,
as long as the transport is not disconnected. -/
theorem lastRun_append {later earlier : ServiceHistory T} {a : Word}
    (hsound : AllSound worker (later ++ earlier)) (hb : Bounded (later ++ earlier))
    (hrun : lastRun worker tr earlier = some a)
    (hopen : ∀ w, Event.acted worker (.sessionClosed tr.owner) () w ∉ later) :
    lastRun worker tr (later ++ earlier) = some a := by
  induction later with
  | nil => exact hrun
  | cons e later ih =>
    have hprev := ih hsound.2 hb.tail fun w hw => hopen w (List.mem_cons_of_mem _ hw)
    cases e with
    | called u c w => exact hprev
    | returned u c v => exact hprev
    | acted u act r w =>
      cases act with
      | sessionClosed owner =>
        cases hsound.1
        have hne : owner ≠ tr.owner := by
          rintro rfl
          exact hopen w List.mem_cons_self
        exact (if_neg hne).trans hprev
      | process owner request capacity =>
        obtain ⟨-, item, hitem, rfl, rfl⟩ := hsound.1
        change lastRun worker tr (_ :: (later ++ earlier)) = some a
        rw [lastRun_process]
        split
        · subst tr
          have hand : (workTrace worker (later ++ earlier)).item = some item := hitem.hand
          rw [hand, hitem.session hb.tail a hprev]
          rfl
        · exact hprev
      | _ => exact hprev

/-- Every request that is executed was taken from the queue and had a live session after the
latest drain of the disconnects. Between two requests of different sessions of a transport, the
worker closes the session of the transport. -/
theorem session_isolation {w : Service T} (hw : w.Fresh) {σ : ServiceConfig T}
    (hσ : (serviceMachine worker).Steps (.start w) σ) (hb : Bounded σ.history) :
    (∀ later u owner request capacity response w' earlier,
      σ.history = later ++ .acted u (.process owner request capacity) response w' :: earlier →
      ∃ item,
        Executes worker earlier (.acted u (.process owner request capacity) response w') item ∧
        item ∈ received earlier ∧ CheckedLive worker item earlier) ∧
    ∀ later e₂ between e₁ earlier i₁ i₂,
      σ.history = later ++ e₂ :: (between ++ e₁ :: earlier) →
      Executes worker earlier e₁ i₁ → Executes worker (between ++ e₁ :: earlier) e₂ i₂ →
      i₁.transport = i₂.transport → i₁.session ≠ i₂.session →
      ∃ w', Event.acted worker (.sessionClosed i₁.transport.owner) () w' ∈ between := by
  obtain ⟨-, -, hsound⟩ := service_steps hw hσ
  have hperformed : (serviceMachine worker).Performed σ.history := by
    apply hσ.performed
    intro t a r w h
    cases h
  constructor
  · intro later u owner request capacity response w' earlier hh
    rw [hh] at hsound hperformed
    obtain ⟨rfl, item, hitem, rfl, rfl⟩ := hsound.append.1
    refine ⟨item, ⟨hitem.hand, capacity, response, w', rfl⟩, received_of_workTrace hitem.hand, ?_⟩
    obtain ⟨since, w₀, before, rfl, hsince⟩ := split_of_checks hitem.check
    obtain ⟨_, hexec⟩ := hperformed u (.loadLive item.transport) item.session w₀ (by simp)
    exact ⟨since, w₀, before, rfl, hexec.1.symm, hsince⟩
  · rintro later e₂ between e₁ earlier i₁ i₂ hh ⟨hand₁, c₁, r₁, w₁, rfl⟩
      ⟨hand₂, c₂, r₂, w₂, rfl⟩ htr hne
    rw [hh] at hsound hb
    obtain ⟨⟨-, item, hitem, -, -⟩, hbefore⟩ := hsound.append
    cases hitem.hand.symm.trans hand₂
    by_contra hopen
    simp only [not_exists] at hopen
    have hfirst : lastRun worker i₁.transport (.acted worker
        (.process i₁.transport.owner i₁.request c₁) r₁ w₁ :: earlier) = some i₁.session := by
      rw [lastRun_process, if_pos rfl, hand₁]
      rfl
    have hrun := lastRun_append hbefore hb.append.tail hfirst hopen
    exact hne (hitem.session hb.append.tail _ (by rwa [htr] at hrun ⊢))

section Runs

/-- A service whose processor answers with the request and whose callbacks succeed, at a time
that stands still. -/
def Service.answer (t : T) (w : Service T) : (a : ServiceAct) → a.Answer × Service T
  | .loadInitialized => (w.initialized, w)
  | .lock tr => match w.sessionMutexes tr with
    | none => (true, w.withMutex tr (some t))
    | some _ => (false, w)
  | .unlock tr => ((), w.withMutex tr none)
  | .loadLive tr => (w.liveSessions tr, w)
  | .storeLive tr session => ((), w.withLive tr session)
  | .fetchAddSession => (w.nextSession, { w with nextSession := w.nextSession + 1 })
  | .fetchOrPending tr => ((), w.withPending tr)
  | .exchangePending => (w.pendingDisconnects, { w with pendingDisconnects := fun _ => false })
  | .send item =>
    if w.queue.length < dapQueueDepth then (true, { w with queue := w.queue ++ [item] })
    else (false, w)
  | .receive => (w.queue.head?, { w with queue := w.queue.tail })
  | .getTime => (0, w)
  | .process _ request _ => (request, w)
  | .sessionClosed _ => ((), w)
  | .deliver _ => (true, w)
  | .count counter =>
    ((), { w with stats := Function.update w.stats counter (w.stats counter + 1) })

omit [DecidableEq T] in
theorem Service.exec_answer (t : T) (w : Service T) (a : ServiceAct) :
    Service.exec t w a (w.answer t a).1 (w.answer t a).2 := by
  cases a with
  | lock tr =>
    cases h : w.sessionMutexes tr with
    | none => simp [Service.answer, Service.exec, Service.withMutex, h]
    | some u => simp [Service.answer, Service.exec, h]
  | send item =>
    by_cases h : w.queue.length < dapQueueDepth
    · simp [Service.answer, Service.exec, h]
    · simp [Service.answer, Service.exec, h, Nat.le_of_not_lt h]
  | _ => simp [Service.answer, Service.exec, Service.withMutex, Service.withLive,
      Service.withPending]

def freshService : Service Bool :=
  ⟨true, 1, fun _ => 0, fun _ => false, fun _ => none, [], fun _ => 0⟩

theorem freshService_fresh : freshService.Fresh :=
  ⟨rfl, fun _ => rfl, fun _ => rfl, fun _ => rfl, rfl⟩

/-- The calls one after the other; the worker is `true`. -/
def serviceRun (calls : List ServiceCall) : ServiceConfig Bool :=
  (serviceMachine true).replay Service.answer
    (calls.flatMap fun c => (decide (c = .processNext), some c) ::
      List.replicate 16 (decide (c = .processNext), none)) (.start freshService)

theorem serviceRun_steps (calls : List ServiceCall) :
    (serviceMachine true).Steps (.start freshService) (serviceRun calls) := by
  apply Machine.replay_steps Service.exec_answer
  intro turn hturn c hc w
  obtain ⟨c', -, hturn⟩ := List.mem_flatMap.mp hturn
  rcases List.mem_cons.mp hturn with rfl | hturn
  · cases hc
    change c = .processNext ↔ decide (c = .processNext) = true
    simp
  · rw [List.eq_of_mem_replicate hturn] at hc
    cases hc

def echoRequest (session : Word) : Submission := ⟨some .usb, session, some [0x42], 7, 1, 2⟩

/-- Two sessions of USB with a request each. -/
def twoSessions : ServiceConfig Bool :=
  serviceRun [.open 1 (some .usb) false true, .submit (echoRequest 1), .processNext,
    .close (some .usb) 1, .open 1 (some .usb) false true, .submit (echoRequest 2), .processNext]

/-- The newest execution of a history: its request, and what was before it. -/
def lastExecution (worker : T) : ServiceHistory T → Option (WorkItem × ServiceHistory T)
  | [] => none
  | .acted u (.process owner request _) _ _ :: h =>
    (workTrace worker h).item.bind fun item =>
      if u = worker ∧ owner = item.transport.owner ∧ request = item.request then some (item, h)
      else none
  | _ :: h => lastExecution worker h

theorem lastExecution_eq_some {h earlier : ServiceHistory T} {item : WorkItem}
    (hlast : lastExecution worker h = some (item, earlier)) :
    ∃ later e, h = later ++ e :: earlier ∧ Executes worker earlier e item := by
  fun_induction lastExecution worker h with
  | case1 => cases hlast
  | case2 =>
    obtain ⟨item', hitem, hfound⟩ := Option.bind_eq_some_iff.mp hlast
    split_ifs at hfound with hmatch
    cases hfound
    obtain ⟨rfl, rfl, rfl⟩ := hmatch
    exact ⟨[], _, rfl, hitem, _, _, _, rfl⟩
  | case3 e h _ ih =>
    obtain ⟨later, e', rfl, hexecutes⟩ := ih hlast
    exact ⟨e :: later, e', rfl, hexecutes⟩

/-- The requests of the two sessions are executed, and the session is closed in between. -/
theorem twoSessions_isolated : Bounded twoSessions.history ∧
    ∃ later e₂ between e₁ earlier i₁ i₂ w,
      twoSessions.history = later ++ e₂ :: (between ++ e₁ :: earlier) ∧
      Executes true earlier e₁ i₁ ∧ Executes true (between ++ e₁ :: earlier) e₂ i₂ ∧
      i₁.session ≠ i₂.session ∧ .acted true (.sessionClosed .usb) () w ∈ between := by
  have hb : Bounded twoSessions.history := by
    unfold Bounded
    decide +kernel
  have hfound : ((lastExecution true twoSessions.history).any fun r₂ =>
      (lastExecution true r₂.2).any fun r₁ => r₁.1.transport = .usb ∧ r₂.1.transport = .usb ∧
        r₁.1.session ≠ r₂.1.session) = true := by
    decide +kernel
  obtain ⟨⟨i₂, h⟩, hsecond, hfound⟩ := (Option.any_eq_true _ _).mp hfound
  obtain ⟨⟨i₁, earlier⟩, hfirst, hcheck⟩ := (Option.any_eq_true _ _).mp hfound
  obtain ⟨husb, husb', hne⟩ := of_decide_eq_true hcheck
  obtain ⟨later, e₂, hhistory, h₂⟩ := lastExecution_eq_some hsecond
  obtain ⟨between, e₁, rfl, h₁⟩ := lastExecution_eq_some hfirst
  obtain ⟨w, hclosed⟩ := (session_isolation freshService_fresh (serviceRun_steps _) hb).2 later e₂
    between e₁ earlier i₁ i₂ hhistory h₁ h₂ (husb.trans husb'.symm) hne
  rw [husb] at hclosed
  exact ⟨hb, later, e₂, between, e₁, earlier, i₁, i₂, w, hhistory, h₁, h₂, hne, hclosed⟩

end Runs
end AirDap

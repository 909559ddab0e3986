import AirDap.Service.Isolation

/-! What becomes of a request that was accepted: it is executed at most once and answered at most
once, in the order of the queue, within its deadline and not after its session was closed. -/
namespace AirDap
open Concurrency Function
open scoped List

variable {T : Type} [DecidableEq T] {worker : T}

/-- The requests that the worker has executed, with their responses. -/
def runs (worker : T) : ServiceHistory T → List (WorkItem × List Byte)
  | [] => []
  | .acted _ (.process _ _ _) response _ :: h => match (workTrace worker h).item with
    | some item => (item, response) :: runs worker h
    | none => runs worker h
  | _ :: h => runs worker h

/-- The request in the hands of the worker is the one that was received last, and is executed and
answered once. -/
structure RunInv (worker : T) (h : ServiceHistory T) : Prop where
  executed : executions h =
    (runs worker h).map fun run => (run.1.transport.owner, run.1.request, run.2)
  received : (runs worker h).map Prod.fst <+ received h
  delivered : deliveries h <+ (runs worker h).map fun run => run.1.delivery run.2
  fresh : ∀ item, (workTrace worker h).item = some item → (workTrace worker h).response = none →
    ∃ rest, AirDap.received h = item :: rest ∧ (runs worker h).map Prod.fst <+ rest
  answered : ∀ item response, (workTrace worker h).item = some item →
    (workTrace worker h).response = some response → (workTrace worker h).delivered = false →
    ∃ rest, runs worker h = (item, response) :: rest ∧
      deliveries h <+ rest.map fun run => run.1.delivery run.2

variable {h : ServiceHistory T} {item : WorkItem} {w : Service T} {response : List Byte}

/-- An event that shows neither in the runs nor in what the worker has in its hands. -/
theorem RunInv.cons {e : ServiceEvent T} (hs : RunInv worker h)
    (hexecuted : executions (e :: h) = executions h) (hruns : runs worker (e :: h) = runs worker h)
    (hreceived : AirDap.received (e :: h) = AirDap.received h)
    (hdelivered : deliveries (e :: h) = deliveries h)
    (hitem : (workTrace worker (e :: h)).item = none ∨
      (workTrace worker (e :: h)).item = (workTrace worker h).item ∧
      (workTrace worker (e :: h)).response = (workTrace worker h).response ∧
      (workTrace worker (e :: h)).delivered = (workTrace worker h).delivered) :
    RunInv worker (e :: h) where
  executed := by
    rw [hexecuted, hruns]
    exact hs.executed
  received := by
    rw [hruns, hreceived]
    exact hs.received
  delivered := by
    rw [hruns, hdelivered]
    exact hs.delivered
  fresh item hi hr := by
    rw [hruns, hreceived]
    rcases hitem with hnone | ⟨hsame, hresponse, -⟩
    · cases hnone.symm.trans hi
    · exact hs.fresh item (hsame ▸ hi) (hresponse ▸ hr)
  answered item response hi hr hd := by
    rw [hruns, hdelivered]
    rcases hitem with hnone | ⟨hsame, hresponse, hdeliv⟩
    · cases hnone.symm.trans hi
    · exact hs.answered item response (hsame ▸ hi) (hresponse ▸ hr) (hdeliv ▸ hd)

theorem RunInv.received_cons (hs : RunInv worker h) :
    RunInv worker (.acted worker .receive (some item) w :: h) := by
  have htrace : workTrace worker (.acted worker .receive (some item) w :: h) =
      { WorkTrace.start with item := some item } := workTrace_self
  refine ⟨hs.executed, hs.received.cons item, hs.delivered, fun i hi _ => ?_,
    fun i response _ hr => ?_⟩
  · rw [htrace] at hi
    cases hi
    exact ⟨AirDap.received h, rfl, hs.received⟩
  · rw [htrace] at hr
    cases hr

theorem RunInv.executed_cons {capacity : ℕ} (hs : RunInv worker h)
    (hitem : Executable worker h item) :
    RunInv worker (.acted worker (.process item.transport.owner item.request capacity)
      response w :: h) := by
  have htrace : workTrace worker (.acted worker
      (.process item.transport.owner item.request capacity) response w :: h) =
      { workTrace worker h with response := some response } := workTrace_self
  have hruns : runs worker (.acted worker
      (.process item.transport.owner item.request capacity) response w :: h) =
      (item, response) :: runs worker h := by
    simp only [runs, hitem.hand]
  obtain ⟨rest, hrest, hsub⟩ := hs.fresh item hitem.hand hitem.first
  constructor
  · rw [hruns, List.map_cons, ← hs.executed]
    rfl
  · rw [hruns]
    change _ <+ AirDap.received h
    rw [hrest]
    exact hsub.cons_cons item
  · rw [hruns]
    exact hs.delivered.cons _
  · intro i _ hr
    rw [htrace] at hr
    cases hr
  · intro i r hi hr _
    rw [htrace] at hi hr
    cases hr
    cases hitem.hand.symm.trans hi
    exact ⟨runs worker h, hruns, hs.delivered⟩

theorem RunInv.delivered_cons {r : Bool} (hs : RunInv worker h)
    (hitem : Deliverable worker h item response) :
    RunInv worker (.acted worker (.deliver (item.delivery response)) r w :: h) := by
  have htrace : workTrace worker (.acted worker (.deliver (item.delivery response)) r w :: h) =
      { workTrace worker h with delivered := true } := workTrace_self
  obtain ⟨rest, hrest, hsub⟩ := hs.answered item response hitem.hand hitem.answer hitem.undelivered
  refine ⟨hs.executed, hs.received, ?_, fun i hi hr => ?_, fun _ _ _ _ hd => ?_⟩
  · change item.delivery response :: deliveries h <+ (runs worker h).map _
    rw [hrest]
    exact hsub.cons_cons _
  · rw [htrace] at hi hr
    exact hs.fresh i hi hr
  · rw [htrace] at hd
    cases hd

theorem runInv_of_allSound (hsound : AllSound worker h) : RunInv worker h := by
  induction h with
  | nil =>
    exact ⟨rfl, List.Sublist.refl _, List.Sublist.refl _, (by rintro _ ⟨⟩), by rintro _ _ ⟨⟩⟩
  | cons e h ih =>
    have hs := ih hsound.2
    cases e with
    | called u c w =>
      refine hs.cons rfl rfl rfl rfl ?_
      simp only [workTrace]
      split
      · exact .inl rfl
      · exact .inr ⟨rfl, rfl, rfl⟩
    | returned u c v => exact hs.cons rfl rfl rfl rfl (.inr ⟨rfl, rfl, rfl⟩)
    | acted u a r w =>
      cases a with
      | receive =>
        cases hsound.1
        cases r with
        | none =>
          exact hs.cons rfl rfl rfl rfl (.inr (by rw [workTrace_self]; exact ⟨rfl, rfl, rfl⟩))
        | some item => exact hs.received_cons
      | process owner request capacity =>
        obtain ⟨rfl, item, hitem, rfl, rfl⟩ := hsound.1
        exact hs.executed_cons hitem
      | deliver delivery =>
        obtain ⟨rfl, item, response, hitem, rfl⟩ := hsound.1
        exact hs.delivered_cons hitem
      | _ =>
        refine hs.cons rfl rfl rfl rfl (.inr ?_)
        simp only [workTrace]
        split <;> exact ⟨rfl, rfl, rfl⟩

theorem retired_of_closed {t : T} {tr : Transport} {session : Word} (hsound : AllSound worker h)
    (hclosed : Event.returned t (.close (some tr) session) .ok ∈ h) : Retired tr session h := by
  obtain ⟨later, earlier, rfl⟩ := List.append_of_mem hclosed
  have hretired : Retired tr session earlier := hsound.append.1 rfl
  clear hsound hclosed
  induction later with
  | nil => exact hretired
  | cons e later ih => exact ih.cons e

/-- The contract of the delivery. Histories and lists show the newest first. -/
theorem delivery_contract {w : Service T} (hw : w.Fresh) {σ : ServiceConfig T}
    (hσ : (serviceMachine worker).Steps (.start w) σ) :
    (∃ runs : List (WorkItem × List Byte), runs.map Prod.fst <+ accepted σ.history ∧
      executions σ.history =
        runs.map (fun run => (run.1.transport.owner, run.1.request, run.2)) ∧
      deliveries σ.history <+ runs.map fun run => run.1.delivery run.2) ∧
    (∀ later t sub earlier, σ.history = later ++ .returned t (.submit sub) .ok :: earlier →
      ∃ tr request time, sub.transport = some tr ∧ sub.request = some request ∧
        sentBy t earlier = [sub.item tr request time]) ∧
    ∀ later u delivery r w' earlier,
      σ.history = later ++ .acted u (.deliver delivery) r w' :: earlier →
      (Bounded σ.history → ∀ t, Event.returned t
        (.close (some delivery.transport) delivery.session) .ok ∉ earlier) ∧
      ∃ item response first second, (workTrace worker earlier).item = some item ∧
        delivery = item.delivery response ∧ (workTrace worker earlier).times = [second, first] ∧
        requestTimedOut item first = false ∧ requestTimedOut item second = false := by
  obtain ⟨γ, hinv, hsound⟩ := service_steps hw hσ
  have hruns := runInv_of_allSound hsound
  refine ⟨⟨runs worker σ.history, ?_, hruns.executed, hruns.delivered⟩, ?_, ?_⟩
  · have hfifo : accepted σ.history = σ.world.queue.reverse ++ received σ.history := hinv.fifo
    rw [hfifo]
    exact hruns.received.trans (List.sublist_append_right _ _)
  · intro later t sub earlier hh
    rw [hh] at hsound
    exact hsound.append.1 rfl
  · intro later u delivery r w' earlier hh
    rw [hh] at hsound
    obtain ⟨⟨-, item, response, hitem, rfl⟩, hbefore⟩ := hsound.append
    refine ⟨fun hb t hclosed => ?_, ?_⟩
    · rw [hh] at hb
      exact hitem.session hb.append.tail (retired_of_closed hbefore hclosed)
    · obtain ⟨first, second, htimes, hfirst, hsecond⟩ := hitem.times
      exact ⟨item, response, first, second, hitem.hand, rfl, htimes, hfirst, hsecond⟩

/-- Both requests of the two sessions are executed and answered. -/
theorem twoSessions_delivered : (deliveries twoSessions.history).length = 2 ∧
    ∃ runs : List (WorkItem × List Byte), runs.map Prod.fst <+ accepted twoSessions.history ∧
      executions twoSessions.history =
        runs.map (fun run => (run.1.transport.owner, run.1.request, run.2)) ∧
      deliveries twoSessions.history <+ runs.map fun run => run.1.delivery run.2 :=
  ⟨by decide +kernel, (delivery_contract freshService_fresh (serviceRun_steps _)).1⟩

section Reuse

/-- The request of the first session. -/
def staleItem : WorkItem := (echoRequest 1).item .usb [0x42] 0

/-- No session is live and the request waits; the number `n` is drawn next. -/
structure Parked (n : Word) (σ : ServiceConfig Bool) : Prop where
  thread : ∀ t, σ.thread t = .idle
  world : ∃ stats, σ.world = ⟨true, n, fun _ => 0, update (fun _ => false) .usb true,
    fun _ => none, [staleItem], stats⟩

/-- The call of `t` alone returns `v` and leaves the world `w`. -/
def RunsTo (σ : ServiceConfig Bool) (t : Bool) (c : ServiceCall) (v : c.Value)
    (w : Service Bool) : Prop :=
  ∃ h, Machine.alone t (Service.answer t) c.code σ.world (.called t c σ.world :: σ.history) =
    some (v, w, h)

variable {σ : ServiceConfig Bool} {t : Bool} {c : ServiceCall} {v : c.Value} {n : Word}

theorem steps_of_alone {w : Service Bool} {h : ServiceHistory Bool}
    (hidle : ∀ t, σ.thread t = .idle) (hc : c = .processNext ↔ t = true)
    (hrun : Machine.alone t (Service.answer t) c.code σ.world
      (.called t c σ.world :: σ.history) = some (v, w, h)) :
    ∃ σ', (serviceMachine true).Steps σ σ' ∧ σ'.world = w ∧ σ'.history = .returned t c v :: h ∧
      (∀ t, σ'.thread t = .idle) := by
  obtain ⟨σ', hsteps, hworld, hhistory, hthread⟩ := Machine.alone_steps (M := serviceMachine true)
    (Service.exec_answer t) (hidle t) hc hrun
  refine ⟨σ', hsteps, hworld, hhistory, fun u => ?_⟩
  rw [hthread]
  by_cases hu : u = t
  · rw [hu, update_self]
  · rw [update_of_ne hu, hidle]

theorem RunsTo.steps {w : Service Bool} (hidle : ∀ t, σ.thread t = .idle)
    (hc : c = .processNext ↔ t = true) (hrun : RunsTo σ t c v w) :
    ∃ σ' h, (serviceMachine true).Steps σ σ' ∧ σ'.world = w ∧ σ'.history = .returned t c v :: h ∧
      (∀ t, σ'.thread t = .idle) ∧ ∀ e ∈ σ.history, e ∈ σ'.history := by
  obtain ⟨h, hrun⟩ := hrun
  obtain ⟨σ', hsteps, hworld, hhistory, hthread⟩ := steps_of_alone hidle hc hrun
  refine ⟨σ', h, hsteps, hworld, hhistory, hthread, fun e he => ?_⟩
  rw [hhistory]
  exact List.mem_cons_of_mem _ ((Machine.alone_suffix hrun).mem (List.mem_cons_of_mem _ he))

theorem Parked.cycle (hσ : Parked n σ) (hn : ¬ n = 0#32) :
    ∃ σ', (serviceMachine true).Steps σ σ' ∧ Parked (n + 1) σ' ∧
      ∀ e ∈ σ.history, e ∈ σ'.history := by
  obtain ⟨hthread, stats, hworld⟩ := hσ
  have hopen : RunsTo σ false (.open 1 (some .usb) false true) (.ok, some n)
      ⟨true, n + 1, update (fun _ => 0) .usb n, update (fun _ => false) .usb true,
        fun _ => none, [staleItem], stats⟩ := by
    simp [RunsTo, hworld, ServiceCall.code, sessionOpen, openBody, nextSessionLoop, serviceAct,
      Machine.alone, Service.answer, Service.withMutex, Service.withLive, hn]
  obtain ⟨σ₁, -, hsteps₁, hworld₁, -, hthread₁, hmem₁⟩ := hopen.steps hthread (by simp)
  have hclose : RunsTo σ₁ false (.close (some .usb) n) .ok
      ⟨true, n + 1, fun _ => 0, update (fun _ => false) .usb true, fun _ => none,
        [staleItem], stats⟩ := by
    simp [RunsTo, hworld₁, ServiceCall.code, sessionClose, withSession, closeBody, sessionIsLive,
      serviceAct, Machine.alone, Service.answer, Service.withMutex, Service.withLive,
      Service.withPending, hn]
  obtain ⟨σ₂, -, hsteps₂, hworld₂, -, hthread₂, hmem₂⟩ := hclose.steps hthread₁ (by simp)
  exact ⟨σ₂, hsteps₁.trans hsteps₂, ⟨hthread₂, _, hworld₂⟩, fun e he => hmem₂ e (hmem₁ e he)⟩

theorem Parked.cycles (k : ℕ) (hk : n.toNat + k ≤ 2 ^ 32) (hn : 0 < n.toNat) (hσ : Parked n σ) :
    ∃ σ', (serviceMachine true).Steps σ σ' ∧ Parked (n + BitVec.ofNat 32 k) σ' ∧
      ∀ e ∈ σ.history, e ∈ σ'.history := by
  induction k with
  | zero => exact ⟨σ, .refl, by simpa using hσ, fun _ => id⟩
  | succ k ih =>
    obtain ⟨σ₁, hsteps₁, hσ₁, hmem₁⟩ := ih (by omega)
    have hne : ¬ n + BitVec.ofNat 32 k = 0#32 := by
      intro h
      have hnat := congrArg BitVec.toNat h
      simp only [BitVec.toNat_add, BitVec.toNat_ofNat] at hnat
      omega
    obtain ⟨σ₂, hsteps₂, hσ₂, hmem₂⟩ := hσ₁.cycle hne
    refine ⟨σ₂, hsteps₁.trans hsteps₂, ?_, fun e he => hmem₂ e (hmem₁ e he)⟩
    rw [BitVec.ofNat_add, ← BitVec.add_assoc]
    exact hσ₂

/-- The first session is opened, submits its request and is closed. -/
theorem parked_after_close : ∃ σ h, (serviceMachine true).Steps (.start freshService) σ ∧
    Parked 2 σ ∧ σ.history = .returned false (.close (some .usb) 1) .ok :: h := by
  have hopen : RunsTo (.start freshService) false (.open 1 (some .usb) false true) (.ok, some 1)
      ⟨true, 2, update (fun _ => 0) .usb 1, fun _ => false, fun _ => none, [],
        fun _ => 0⟩ := by
    simp [RunsTo, Config.start, ServiceCall.code, sessionOpen, openBody, nextSessionLoop,
      serviceAct, Machine.alone, Service.answer, Service.withMutex, Service.withLive, freshService]
  obtain ⟨σ₁, -, hsteps₁, hworld₁, -, hthread₁, -⟩ := hopen.steps (fun _ => rfl) (by simp)
  have hsubmit : RunsTo σ₁ false (.submit (echoRequest 1)) .ok
      ⟨true, 2, update (fun _ => 0) .usb 1, fun _ => false, fun _ => none, [staleItem],
        update (fun _ => 0) .requestsAccepted 1⟩ := by
    simp [RunsTo, hworld₁, ServiceCall.code, serviceSubmit, echoRequest, staleItem, withSession,
      submitBody, sessionIsLive, serviceAct, Machine.alone, Service.answer, Service.withMutex,
      dapQueueDepth, dapPacketSize]
  obtain ⟨σ₂, -, hsteps₂, hworld₂, -, hthread₂, -⟩ := hsubmit.steps hthread₁ (by simp)
  have hclose : RunsTo σ₂ false (.close (some .usb) 1) .ok
      ⟨true, 2, fun _ => 0, update (fun _ => false) .usb true, fun _ => none, [staleItem],
        update (fun _ => 0) .requestsAccepted 1⟩ := by
    simp [RunsTo, hworld₂, ServiceCall.code, sessionClose, withSession, closeBody, sessionIsLive,
      serviceAct, Machine.alone, Service.answer, Service.withMutex, Service.withLive,
      Service.withPending]
  obtain ⟨σ₃, h₃, hsteps₃, hworld₃, hhistory₃, hthread₃, -⟩ := hclose.steps hthread₂ (by simp)
  exact ⟨σ₃, h₃, hsteps₁.trans (hsteps₂.trans hsteps₃), ⟨hthread₃, _, hworld₃⟩, hhistory₃⟩

/-- When the numbers have come round, the request of the closed session is answered in the new
session that got its number. -/
theorem closed_session_answered : ∃ σ, (serviceMachine true).Steps (.start freshService) σ ∧
    ∃ later delivery r w earlier, σ.history =
      later ++ .acted true (.deliver delivery) r w :: earlier ∧
      Event.returned false (.close (some delivery.transport) delivery.session) .ok ∈ earlier := by
  obtain ⟨σ₁, h₁, hsteps₁, hσ₁, hhistory₁⟩ := parked_after_close
  obtain ⟨σ₂, hsteps₂, ⟨hthread₂, stats, hworld₂⟩, hmem₂⟩ :=
    hσ₁.cycles (2 ^ 32 - 2) (by decide) (by decide)
  have hzero : (2 : Word) + BitVec.ofNat 32 (2 ^ 32 - 2) = 0 := by decide
  rw [hzero] at hworld₂
  have hopen : RunsTo σ₂ false (.open 2 (some .usb) false true) (.ok, some 1)
      ⟨true, 2, update (fun _ => 0) .usb 1, update (fun _ => false) .usb true,
        fun _ => none, [staleItem], stats⟩ := by
    simp [RunsTo, hworld₂, ServiceCall.code, sessionOpen, openBody, nextSessionLoop, serviceAct,
      Machine.alone, Service.answer, Service.withMutex, Service.withLive]
  obtain ⟨σ₃, -, hsteps₃, hworld₃, -, hthread₃, hmem₃⟩ := hopen.steps hthread₂ (by simp)
  have hnext : ∃ later w r w' earlier, Machine.alone true (Service.answer true)
      (ServiceCall.code .processNext) σ₃.world (.called true .processNext σ₃.world :: σ₃.history) =
      some (true, w, later ++ .acted true (.deliver (staleItem.delivery [0x42])) r w' :: earlier) ∧
      ∀ e ∈ σ₃.history, e ∈ earlier := by
    rw [hworld₃]
    refine ⟨[_, _], _, _, _, _, rfl, fun e he => ?_⟩
    simp [he]
  obtain ⟨later, w, r, w', earlier, hnext, hearlier⟩ := hnext
  obtain ⟨σ₄, hsteps₄, -, hhistory₄, -⟩ := steps_of_alone hthread₃ (by simp) hnext
  refine ⟨σ₄, hsteps₁.trans (hsteps₂.trans (hsteps₃.trans hsteps₄)),
    .returned true .processNext true :: later, staleItem.delivery [0x42], r, w', earlier,
    hhistory₄, ?_⟩
  apply hearlier
  apply hmem₃
  apply hmem₂
  rw [hhistory₁]
  exact List.mem_cons_self

end Reuse
end AirDap

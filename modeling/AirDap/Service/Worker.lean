import AirDap.Service.Sessions

/-! The worker, and the verification of the whole service. -/
namespace AirDap
open Concurrency Discipline Function

variable {T : Type} [DecidableEq T] {worker : T} {s : ServiceState T} {α : Type}

/-- What the worker knows: what it has done with its request, and the disconnects that it has
taken and not carried out. -/
structure Working (worker : T) (τ : WorkTrace) (owed : Transport → Bool) (s : ServiceState T) :
    Prop where
  inv : ServiceInv worker s
  trace : workTrace worker s.history = τ
  owed : s.ghost.owed = owed

/-- The request of the worker is not newer than the session that it has admitted, unless a
disconnect is on its way. -/
def Waiting (item : Option WorkItem) (s : ServiceState T) : Prop :=
  ∀ i, item = some i → Bounded s.history → ∀ a, s.ghost.mark i.transport = some a →
    i.session.toNat ≤ a.toNat ∨ Due i.transport s

def Ahead (item : Option WorkItem) (s : ServiceState T) : Prop :=
  ∀ i, item = some i → Bounded s.history → ∀ a, s.ghost.mark i.transport = some a →
    i.session.toNat ≤ a.toNat ∨ s.ghost.owed i.transport = true

/-- What the steps of the other threads leave to the worker. -/
def Own (worker : T) (R : ServiceState T → Prop) : Prop :=
  ∀ ⦃s s' u⦄, u ≠ worker → ServiceLegal worker u s s' → R s → R s'

theorem own_waiting (item : Option WorkItem) : Own worker (Waiting (T := T) item) := by
  intro s s' u hu hg h i hi hb a ha
  obtain ⟨e, -, hh, -⟩ := hg.event
  rw [hh] at hb
  rw [hg.mark hu] at ha
  refine (h i hi hb.tail a ha).imp id (Or.imp (hg.pending hu _) fun ho => ?_)
  rw [hg.owed hu]
  exact ho

theorem own_ahead (item : Option WorkItem) : Own worker (Ahead (T := T) item) := by
  intro s s' u hu hg h i hi hb a ha
  obtain ⟨e, -, hh, -⟩ := hg.event
  rw [hh] at hb
  rw [hg.mark hu] at ha
  rw [hg.owed hu]
  exact h i hi hb.tail a ha

theorem own_mark (tr : Transport) (session : Option Word) :
    Own worker fun s : ServiceState T => s.ghost.mark tr = session := by
  intro s s' u hu hg h
  rw [hg.mark hu]
  exact h

theorem own_nothing : Own worker fun _ : ServiceState T => True := fun _ _ _ _ _ => id

variable {τ : WorkTrace} {owed : Transport → Bool} {R : ServiceState T → Prop} {a : ServiceAct}
  {Q : α → ServiceState T → Prop} {w : Service T} {tr : Transport} {item : WorkItem} {t : T}
  {c : ServiceCall}

theorem Working.stable (hR : Own worker R) :
    (serviceDiscipline worker).Stable worker fun s => Working worker τ owed s ∧ R s := by
  intro u s s' hu ⟨hs, hr⟩ hg
  obtain ⟨e, rfl, hh, -⟩ := hg.event
  refine ⟨⟨hg.inv, ?_, (hg.owed hu).trans hs.owed⟩, hR hu hg hr⟩
  rw [hh, workTrace_of_ne hu]
  exact hs.trace

theorem Working.acted {r : a.Answer} {γ : ServiceGhost} (hs : Working worker τ owed s)
    (hlegal : ServiceLegal worker worker s (s.acted worker a r w γ)) :
    Working worker (τ.act a r) γ.owed (s.acted worker a r w γ) where
  inv := hlegal.inv
  trace := by
    change workTrace worker (_ :: s.history) = _
    rw [workTrace_self, hs.trace]
  owed := rfl

def nothingOwed : Transport → Bool := fun _ => false

theorem wp_closeIfPending (pending : Transport → Bool) (hs : Working worker τ owed s)
    (howed : owed tr = pending tr) (hr : Ahead τ.item s) :
    ServiceWp worker worker (closeIfPending pending tr)
      (fun _ s => Working worker τ (update owed tr false) s ∧ Ahead τ.item s) s := by
  refine wp_ite (fun h => ?_) fun h => ?_
  · refine wp_serving (Working.stable (own_ahead τ.item)) hs hr ?_
    rintro s₁ r w hs₁ hr₁ rfl
    have hlegal := ServiceLegal.disconnected tr hs₁.inv
    refine ⟨_, hlegal, hs₁.owed ▸ hs₁.acted hlegal, fun i hi hb a ha => ?_⟩
    change update s₁.ghost.mark tr none i.transport = some a at ha
    change _ ∨ update s₁.ghost.owed tr false i.transport = true
    by_cases htr : i.transport = tr
    · rw [htr, update_self] at ha
      cases ha
    · rw [update_of_ne htr] at ha ⊢
      exact hr₁ i hi hb a ha
  · have hsame : update owed tr false = owed := by
      rw [update_eq_self_iff, howed]
      exact (Bool.eq_false_iff.mpr h).symm
    rw [hsame]
    exact ⟨hs, hr⟩

theorem wp_processPendingDisconnects (hs : Working worker τ nothingOwed s) (hr : Waiting τ.item s) :
    ServiceWp worker worker processPendingDisconnects
      (fun _ s => Working worker { τ with checks := [] } nothingOwed s ∧ Ahead τ.item s) s := by
  refine wp_serving (Working.stable (own_waiting τ.item)) hs hr ?_
  rintro s₁ r w hs₁ hr₁ ⟨rfl, rfl⟩
  have hlegal := ServiceLegal.taken hs₁.inv fun tr => congrFun hs₁.owed tr
  have hahead : Ahead τ.item (s₁.acted worker .exchangePending s₁.world.pendingDisconnects
      { s₁.world with pendingDisconnects := fun _ => false }
      { s₁.ghost with owed := s₁.world.pendingDisconnects }) := by
    intro i hi hb a ha
    refine (hr₁ i hi hb a ha).imp id fun hd => hd.resolve_right fun h => ?_
    cases (congrFun hs₁.owed i.transport).symm.trans h
  refine ⟨_, hlegal, wp_ite (fun h => ?_) fun _ => ?_⟩
  · have hnothing : s₁.world.pendingDisconnects = nothingOwed := by
      funext tr
      cases tr <;> simp_all [nothingOwed]
    exact ⟨hnothing ▸ hs₁.acted hlegal, hahead⟩
  · apply (wp_closeIfPending s₁.world.pendingDisconnects (hs₁.acted hlegal) rfl hahead).bind
    rintro - s₂ ⟨hs₂, hr₂⟩
    apply (wp_closeIfPending s₁.world.pendingDisconnects hs₂ rfl hr₂).bind
    rintro - s₃ ⟨hs₃, hr₃⟩
    have hnothing : update (update s₁.world.pendingDisconnects .usb false)
        .network false = nothingOwed := by
      funext tr
      cases tr <;> rfl
    exact ⟨hnothing ▸ hs₃, hr₃⟩

/-- The worker has carried out what it has taken. -/
def Rested (worker : T) (s : ServiceState T) : Prop :=
  ServiceInv worker s ∧ s.ghost.owed = nothingOwed

theorem Working.rested (hs : Working worker τ nothingOwed s) : Rested worker s :=
  ⟨hs.inv, hs.owed⟩

/-- The worker has admitted the session of the request. -/
def Marked (item : WorkItem) (s : ServiceState T) : Prop :=
  s.ghost.mark item.transport = some item.session

theorem wp_working_idle (a : ServiceAct) (ha : a = .getTime ∨ ∃ c, a = .count c)
    {k : a.Answer → ServiceCode α} (hR : Own worker R)
    (hghost : ∀ s s' : ServiceState T, s'.ghost = s.ghost → R s → R s')
    (hs : Working worker τ nothingOwed s) (hr : R s)
    (h : ∀ s r, Working worker (τ.act a r) nothingOwed s → R s →
      ServiceWp worker worker (k r) Q s) :
    ServiceWp worker worker (.act a k) Q s := by
  refine wp_serving (Working.stable hR) hs hr fun s₁ r w hs₁ hr₁ hw => ⟨s₁.ghost, ?_⟩
  have hplain : a.Plain r := by
    rcases ha with rfl | ⟨c, rfl⟩ <;> trivial
  have hsound : Sound worker s₁.history (.acted worker a r s₁.world) := by
    rcases ha with rfl | ⟨c, rfl⟩ <;> trivial
  have hlegal := ServiceLegal.plain hs₁.inv hplain hw hsound
  exact ⟨hlegal, h _ r (hs₁.owed ▸ hs₁.acted hlegal) (hghost s₁ _ rfl hr₁)⟩

theorem wp_getTime {k : ℤ → ServiceCode α} (hs : Working worker τ nothingOwed s)
    (hr : Marked item s)
    (h : ∀ s time, Working worker { τ with times := time :: τ.times } nothingOwed s →
      Marked item s → ServiceWp worker worker (k time) Q s) :
    ServiceWp worker worker (.act .getTime k) Q s :=
  wp_working_idle .getTime (.inl rfl) (own_mark _ _) (fun _ _ hg hr => by rw [hg]; exact hr) hs hr h

theorem wp_counted (c : ServiceCounter) {k : Unit → ServiceCode α}
    (hs : Working worker τ nothingOwed s) (h : ∀ s, Working worker τ nothingOwed s →
      ServiceWp worker worker (k ()) Q s) :
    ServiceWp worker worker (.act (.count c) k) Q s :=
  wp_working_idle (.count c) (.inr ⟨c, rfl⟩) own_nothing (fun _ _ _ => id) hs
    trivial fun s _ hs _ => h s hs

/-- The worker has the mutex of the transport of its request. -/
structure Delivering (worker : T) (τ : WorkTrace) (tr : Transport) (s : ServiceState T) :
    Prop extends Working worker τ nothingOwed s, Locked worker worker tr s where
  calm : Calm tr s

theorem Delivering.stable (hR : Private worker tr R) :
    (serviceDiscipline worker).Stable worker fun s => Delivering worker τ tr s ∧ R s := by
  intro u s s' hu ⟨hs, hr⟩ hg
  have hworking := (Working.stable own_nothing) hu
    ⟨hs.toWorking, trivial⟩ hg
  have hlocked := Locked.stable (private_calm.and hR) hu
    ⟨hs.toLocked, hs.calm, hr⟩ hg
  exact ⟨⟨hworking.1, hlocked.1.mutex, hlocked.2.1⟩, hlocked.2.2⟩

theorem wp_delivering_plain (a : ServiceAct) (ha : ∀ r, a.Plain r) {k : a.Answer → ServiceCode α}
    (hR : Private worker tr R) (hsound : ∀ s : ServiceState T, Delivering worker τ tr s → R s → ∀ r,
      Sound worker s.history (.acted worker a r s.world)) (hs : Delivering worker τ tr s) (hr : R s)
    (h : ∀ (s : ServiceState T) r w, Service.exec worker s.world a r w →
      Delivering worker (τ.act a r) tr (s.acted worker a r w s.ghost) →
      R (s.acted worker a r w s.ghost) →
      ServiceWp worker worker (k r) Q (s.acted worker a r w s.ghost)) :
    ServiceWp worker worker (.act a k) Q s := by
  refine wp_serving (Delivering.stable hR) hs hr fun s₁ r w hs₁ hr₁ hw => ⟨s₁.ghost, ?_⟩
  have hlegal := ServiceLegal.plain hs₁.inv (ha r) hw (hsound s₁ hs₁ hr₁ r)
  have hkept : Kept tr s₁ (s₁.acted worker a r w s₁.ghost) := .plain (ha r) hw
  refine ⟨hlegal, h s₁ r w hw ⟨hs₁.owed ▸ hs₁.acted hlegal, hkept.mutex.trans hs₁.mutex, ?_⟩ ?_⟩
  · exact private_calm hkept rfl (sentBy_plain (ha r)) hs₁.calm
  · exact hR hkept rfl (sentBy_plain (ha r)) hr₁

theorem wp_release {k : Unit → ServiceCode α} (hs : Delivering worker τ tr s)
    (h : ∀ s, Working worker τ nothingOwed s →
      ServiceWp worker worker (k ()) Q s) :
    ServiceWp worker worker (.act (.unlock tr) k) Q s := by
  refine wp_serving (Delivering.stable private_nothing) hs trivial ?_
  rintro s₁ r w hs₁ - rfl
  have hlegal := ServiceLegal.unlocked hs₁.inv hs₁.mutex hs₁.calm.1 hs₁.calm.2
  exact ⟨_, hlegal, h _ (hs₁.owed ▸ hs₁.acted hlegal)⟩

/-- The worker has executed its request within the deadline, and has the response. -/
structure Answered (item : WorkItem) (response : List Byte) (τ : WorkTrace) : Prop where
  hand : τ.item = some item
  answer : τ.response = some response
  undelivered : τ.delivered = false
  times : ∃ first second, τ.times = [second, first] ∧ requestTimedOut item first = false ∧
    requestTimedOut item second = false

theorem wp_deliverResponse {response : List Byte} (hne : item.session ≠ 0)
    (hτ : Answered item response τ) (hs : Working worker τ nothingOwed s) :
    ServiceWp worker worker (deliverResponse item response) (fun _ s => Rested worker s) s := by
  refine wp_serving (Working.stable own_nothing) hs trivial ?_
  rintro s₁ r w hs₁ - (⟨rfl, hfree, rfl⟩ | ⟨rfl, rfl⟩)
  · have hlegal := ServiceLegal.locked (t := worker) hs₁.inv hfree
    have hs₂ : Delivering worker τ item.transport (s₁.acted worker (.lock item.transport) true
        (s₁.world.withMutex item.transport (some worker)) s₁.ghost) :=
      ⟨hs₁.owed ▸ hs₁.acted hlegal, update_self .., hs₁.inv.free _ hfree⟩
    refine ⟨_, hlegal, ?_⟩
    rw [sessionIsLive, if_neg hne]
    refine wp_delivering_plain (.loadLive item.transport) (fun _ => trivial) private_nothing
      (fun _ _ _ _ => trivial) hs₂ trivial ?_
    rintro s₃ r w ⟨rfl, rfl⟩ hs₃ -
    refine wp_ite (fun _ => ?_) fun hlive => ?_
    · refine wp_delivering_plain (.count .staleResponses) (fun _ => trivial) private_nothing
        (fun _ _ _ _ => trivial) hs₃ trivial fun s₄ _ w _ hs₄ _ => ?_
      exact wp_release hs₄ fun s₅ hs₅ => hs₅.rested
    · have hlive : s₃.world.liveSessions item.transport = item.session := by simpa using hlive
      refine wp_delivering_plain (.deliver (item.delivery response)) (fun _ => trivial)
        (private_live item.session) (fun s₄ hs₄ hlive₄ _ => ?_) hs₃ hlive fun s₄ r w _ hs₄ _ => ?_
      · refine ⟨rfl, item, response, ⟨?_, ?_, ?_, ?_, fun hb hx => ?_⟩, rfl⟩
        · exact (congrArg _ hs₄.trace).trans hτ.hand
        · exact (congrArg _ hs₄.trace).trans hτ.answer
        · exact (congrArg _ hs₄.trace).trans hτ.undelivered
        · rw [hs₄.trace]
          exact hτ.times
        · exact ((hs₄.inv.sessions hb item.transport).retired _ hx).2.2 hlive₄
      · exact wp_release hs₄ fun s₅ hs₅ => wp_counted _ hs₅ fun s₆ hs₆ => hs₆.rested
  · have hplain : ServiceAct.Plain (.lock item.transport) false := rfl
    have hlegal := ServiceLegal.plain (t := worker) hs₁.inv hplain (.inr ⟨rfl, rfl⟩) trivial
    refine ⟨_, hlegal, wp_counted .deliveryFailures (hs₁.owed ▸ hs₁.acted hlegal) ?_⟩
    exact fun _ hs => hs.rested

theorem wp_executeRequest {first : ℤ} (hne : item.session ≠ 0)
    (hfirst : requestTimedOut item first = false)
    (hs : Working worker ⟨some item, [(item.transport, item.session)], [first], none, false⟩
      nothingOwed s) (hr : Marked item s) :
    ServiceWp worker worker (executeRequest item) (fun _ s => Rested worker s) s := by
  refine wp_serving (Working.stable (own_mark _ _)) hs hr ?_
  rintro s₁ response w hs₁ hr₁ rfl
  have hexec : Executable worker s₁.history item := by
    refine ⟨congrArg _ hs₁.trace, congrArg _ hs₁.trace, congrArg _ hs₁.trace, ?_, fun hb a ha => ?_⟩
    · rw [hs₁.trace]
      exact List.mem_singleton_self _
    · have hmark := (hs₁.inv.sessions hb item.transport).run a ha
      exact Option.some.inj (hmark.symm.trans hr₁)
  have hlegal := ServiceLegal.executed dapPacketSize response hs₁.inv hexec hr₁
  refine ⟨_, hlegal, wp_counted _ (hs₁.owed ▸ hs₁.acted hlegal) fun s₂ hs₂ => ?_⟩
  refine wp_guard hs₂.rested fun _ => ?_
  refine wp_ite (fun _ => wp_counted _ hs₂ fun s₃ hs₃ => hs₃.rested) fun _ => ?_
  refine wp_working_idle .getTime (.inl rfl) own_nothing (fun _ _ _ => id) hs₂ trivial
    fun s₃ second hs₃ _ => ?_
  refine wp_ite (fun _ => wp_counted _ hs₃ fun s₄ hs₄ => hs₄.rested) fun hsecond => ?_
  exact wp_deliverResponse hne
    ⟨rfl, rfl, rfl, first, second, rfl, hfirst, Bool.eq_false_iff.mpr hsecond⟩ hs₃

theorem wp_admit {k : Bool → ServiceCode α}
    (hs : Working worker { WorkTrace.start with item := some item } nothingOwed s)
    (hr : Ahead (some item) s) (hdead : ∀ s τ, Working worker τ nothingOwed s →
      ServiceWp worker worker (k false) Q s)
    (hlive : ∀ s, item.session ≠ 0 → Working worker
        ⟨some item, [(item.transport, item.session)], [], none, false⟩ nothingOwed s →
      Marked item s → ServiceWp worker worker (k true) Q s) :
    ServiceWp worker worker (sessionIsLive item.transport item.session >>= k) Q s := by
  rw [sessionIsLive]
  split
  · exact hdead s _ hs
  · rename_i hne
    refine wp_serving (Working.stable (own_ahead _)) hs hr ?_
    rintro s₁ r w hs₁ hr₁ ⟨rfl, rfl⟩
    by_cases h : s₁.world.liveSessions item.transport = item.session
    · have hmark : Bounded s₁.history → ∀ a, s₁.ghost.mark item.transport = some a →
          a = item.session := by
        intro hb a ha
        have hinv := hs₁.inv.sessions hb item.transport
        have hge := (hr₁ item rfl hb a ha).resolve_right fun ho => by
          cases (congrFun hs₁.owed item.transport).symm.trans ho
        have hle := (hinv.mark_le a ha).2
        have hlast := hinv.live.resolve_left (h ▸ hne)
        rw [h] at hlast
        exact BitVec.eq_of_toNat_eq (by omega)
      have hlegal := ServiceLegal.admitted hs₁.inv h hne hmark
      rw [← h] at hlegal
      refine ⟨_, hlegal, ?_⟩
      change ServiceWp worker worker (k (decide _)) Q _
      rw [decide_eq_true h]
      refine hlive _ hne ?_ ((update_self ..).trans (congrArg some h))
      have hs₂ := hs₁.acted hlegal
      rw [WorkTrace.act, h, hs₁.owed] at hs₂
      rw [h]
      exact hs₂
    · have hplain : ServiceAct.Plain (.loadLive item.transport)
          (s₁.world.liveSessions item.transport) := trivial
      have hlegal := ServiceLegal.plain (t := worker) hs₁.inv hplain ⟨rfl, rfl⟩ trivial
      refine ⟨_, hlegal, ?_⟩
      change ServiceWp worker worker (k (decide _)) Q _
      rw [decide_eq_false h]
      exact hdead _ _ (hs₁.owed ▸ hs₁.acted hlegal)

theorem wp_processNext (hs : Working worker .start nothingOwed s) :
    ServiceWp worker worker processNext (fun _ s => Rested worker s) s := by
  apply (wp_processPendingDisconnects hs fun i hi => by cases hi).bind
  rintro didWork s₁ ⟨hs₁, -⟩
  refine wp_serving (Working.stable own_nothing) hs₁ trivial ?_
  rintro s₂ r w hs₂ - ⟨rfl, rfl⟩
  cases hqueue : s₂.world.queue with
  | nil =>
    have hplain : ServiceAct.Plain .receive s₂.world.queue.head? := by
      rw [hqueue]
      rfl
    have hlegal := ServiceLegal.plain (t := worker) hs₂.inv hplain ⟨rfl, rfl⟩ rfl
    rw [hqueue] at hlegal
    refine ⟨_, hlegal, ?_⟩
    exact ⟨hlegal.inv, hs₂.owed⟩
  | cons item rest =>
    have hlegal := ServiceLegal.received hs₂.inv hqueue
    have hs₃ := hs₂.acted hlegal
    rw [hs₂.owed] at hs₃
    refine ⟨_, hlegal, ?_⟩
    have hwaiting : Waiting (some item) (s₂.acted worker .receive (some item)
        { s₂.world with queue := rest } s₂.ghost) := by
      intro i hi hb a ha
      cases hi
      refine (hs₂.inv.sessions hb item.transport).queue_mark item ?_ rfl a ha
      rw [hqueue]
      exact List.mem_cons_self
    apply (wp_processPendingDisconnects hs₃ hwaiting).bind
    rintro - s₄ ⟨hs₄, hahead⟩
    refine wp_admit hs₄ hahead (fun s₅ τ hs₅ => ?_) fun s₅ hne hs₅ hmarked => ?_
    · exact wp_counted .staleRequests hs₅ fun s₆ hs₆ => hs₆.rested
    · refine wp_getTime hs₅ hmarked fun s₆ first hs₆ hmarked => ?_
      refine wp_ite (fun _ => wp_counted .timedOut hs₆ fun s₇ hs₇ => hs₇.rested) ?_
      intro hfirst
      exact wp_executeRequest hne (Bool.eq_false_iff.mpr hfirst) hs₆ hmarked

/-- What a thread knows between its calls. -/
def ServiceIdle (worker t : T) (s : ServiceState T) : Prop :=
  ServiceInv worker s ∧ (t = worker → s.ghost.owed = nothingOwed)

theorem serviceIdle_stable (t : T) :
    (serviceDiscipline worker).Stable t (ServiceIdle worker t) := by
  rintro u s s' hu ⟨-, howed⟩ hg
  refine ⟨hg.inv, fun ht => ?_⟩
  rw [hg.owed (ht ▸ hu)]
  exact howed ht

theorem ServiceLegal.called (hs : ServiceInv worker s) :
    ServiceLegal worker t s (s.called t c) := by
  have hsilent : Silent worker (.called t c s.world) s.history :=
    ⟨rfl, rfl, rfl, rfl, fun _ _ h => h, fun _ => rfl⟩
  exact .unmoved hs ⟨rfl, rfl, rfl, rfl, rfl⟩ rfl rfl hsilent trivial hs.free fun _ _ _ _ => rfl

theorem ServiceLegal.returned {v : c.Value} (hs : ServiceInv worker s)
    (hsound : Sound worker s.history (.returned t c v)) :
    ServiceLegal worker t s (s.returned (serviceMachine worker) t c v) := by
  have hsilent : Silent worker (.returned t c v) s.history :=
    ⟨rfl, rfl, rfl, rfl, fun _ _ h => h, fun _ => rfl⟩
  exact .unmoved hs ⟨rfl, rfl, rfl, rfl, rfl⟩ rfl rfl hsilent hsound hs.free fun _ _ _ _ => rfl

theorem wp_sessionCall (hc : c ≠ .processNext) (hs : ServiceInv worker s)
    (hsent : sentBy t s.history = []) :
    ServiceWp worker t c.code
      (fun v s => ServiceInv worker s ∧ Sound worker s.history (.returned t c v)) s := by
  cases c with
  | processNext => exact absurd rfl hc
  | «open» rounds transport authenticated out => exact wp_sessionOpen hs
  | close transport session =>
    refine (wp_sessionClose hs).mono fun v s ⟨hs, h⟩ => ⟨hs, ?_⟩
    cases transport with
    | none => trivial
    | some tr => exact h tr rfl
  | reset transport session => exact wp_sessionReset hs
  | submit sub => exact wp_serviceSubmit hs hsent

theorem serviceVerified : Verifies (serviceDiscipline worker) (serviceMachine worker)
    (ServiceIdle worker) (fun _ _ _ _ => True) where
  exec := rfl
  stable := serviceIdle_stable
  call := by
    rintro t c s ⟨hs, howed⟩ hmay
    have hlegal := ServiceLegal.called (t := t) (c := c) hs
    refine ⟨hlegal, ?_⟩
    by_cases ht : t = worker
    · subst ht
      cases hmay.mpr rfl
      have hworking : Working t .start nothingOwed (s.called t .processNext) :=
        ⟨hlegal.inv, if_pos rfl, howed rfl⟩
      refine (wp_processNext hworking).mono fun v s ⟨hs, howed⟩ => ⟨trivial, ?_⟩
      have hlegal := ServiceLegal.returned (t := t) (c := .processNext) (v := v) hs trivial
      exact ⟨hlegal, hlegal.inv, fun _ => howed⟩
    · refine (wp_sessionCall (fun hc => ht (hmay.mp hc)) hlegal.inv (if_pos rfl)).mono ?_
      rintro v s ⟨hs, hsound⟩
      have hlegal := ServiceLegal.returned hs hsound
      exact ⟨trivial, hlegal, hlegal.inv, fun h => absurd h ht⟩

def ServiceGhost.initial : ServiceGhost :=
  ⟨fun _ => none, nothingOwed, fun _ => false, fun _ => 0, fun _ => 0⟩

theorem Service.Fresh.inv (hw : w.Fresh) :
    ServiceInv worker (⟨w, [], .initial⟩ : ServiceState T) := by
  refine ⟨hw.nextSession, ?_, fun _ => le_rfl, fun _ _ => ⟨rfl, rfl⟩, ?_, fun _ => le_rfl,
    fun _ _ => zero_le_one, fun _ tr => ?_⟩
  · change [] = w.queue.reverse ++ []
    rw [hw.queue]
    rfl
  · intro _ h
    cases h
  · refine ⟨.inl (hw.liveSessions tr), (by rintro _ ⟨⟩), (by rintro _ ⟨⟩), ?_,
      (by rintro _ _ _ _ ⟨⟩), fun _ h => h.elim, (by rintro _ ⟨⟩)⟩
    intro item hitem
    change item ∈ w.queue at hitem
    rw [hw.queue] at hitem
    cases hitem

theorem service_steps {σ : ServiceConfig T} (hw : w.Fresh)
    (hsteps : (serviceMachine worker).Steps (.start w) σ) :
    ∃ γ : ServiceGhost, ServiceInv worker (σ.state γ) ∧ AllSound worker σ.history := by
  have hinv : ServiceInv worker (⟨w, [], .initial⟩ : ServiceState T) := hw.inv
  have hstart : (Config.start w).Safe (serviceDiscipline worker) (serviceMachine worker)
      (ServiceIdle worker) (fun _ _ _ _ => True) .initial :=
    Config.start_safe fun t => ⟨hinv, fun _ => rfl⟩
  obtain ⟨γ, -, hs⟩ := Machine.Steps.safe serviceVerified
    (J := fun s => ServiceInv worker s ∧ AllSound worker s.history)
    (fun u s s' ⟨_, hall⟩ hg => by
      obtain ⟨e, -, hh, hsound⟩ := hg.event
      rw [hh]
      exact ⟨hg.inv, hsound, hall⟩) hsteps hstart ⟨hinv, trivial⟩
  exact ⟨γ, hs⟩

end AirDap

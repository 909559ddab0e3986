import AirDap.Service.Rules

/-! The calls of the transports: open, close, reset and submit. -/
namespace AirDap
open Concurrency Discipline Function

variable {T : Type} [DecidableEq T] {worker t : T} {tr : Transport} {s : ServiceState T}
  {α β : Type}

/-- The thread has the mutex of the transport. -/
structure Locked (worker t : T) (tr : Transport) (s : ServiceState T) : Prop where
  inv : ServiceInv worker s
  mutex : s.world.sessionMutexes tr = some t

/-- No call of the transport is in the middle of its stores. -/
def Calm (tr : Transport) (s : ServiceState T) : Prop :=
  s.ghost.closing tr = false ∧ s.ghost.fresh tr = 0

/-- What the holder of the mutex may rely on, apart from the requests it sends. -/
def Private (t : T) (tr : Transport) (R : ServiceState T → Prop) : Prop :=
  ∀ ⦃s s' e⦄, Kept tr s s' → s'.history = e :: s.history →
    sentBy t (e :: s.history) = sentBy t s.history → R s → R s'

/-- What stays true of a history, apart from the requests that the thread sends. -/
def Lasting (t : T) (F : ServiceHistory T → Prop) : Prop :=
  ∀ ⦃h e⦄, sentBy t (e :: h) = sentBy t h → F h → F (e :: h)

omit [DecidableEq T] in
theorem Retired.cons {x : Word} {h : ServiceHistory T} (e : ServiceEvent T) (hx : Retired tr x h) :
    Retired tr x (e :: h) := by
  cases e with
  | acted u a r w => cases a with
    | storeLive tr' stored => exact .inr hx
    | _ => exact hx
  | _ => exact hx

theorem lasting_nothing : Lasting t fun _ : ServiceHistory T => True := fun _ _ _ => id

theorem lasting_sent (items : List WorkItem) :
    Lasting t fun h : ServiceHistory T => sentBy t h = items :=
  fun _ _ hsame h => hsame.trans h

theorem lasting_retired (p : Prop) (x : Word) :
    Lasting t fun h : ServiceHistory T => p → Retired tr x h :=
  fun _ e _ h hp => (h hp).cons e

section Private

variable {R R' : ServiceState T → Prop} {F : ServiceHistory T → Prop}

theorem private_nothing : Private t tr fun _ : ServiceState T => True := fun _ _ _ _ _ _ => id

theorem Private.and (hR : Private t tr R) (hR' : Private t tr R') :
    Private t tr fun s => R s ∧ R' s :=
  fun _ _ _ hk hh hsent h => ⟨hR hk hh hsent h.1, hR' hk hh hsent h.2⟩

theorem Lasting.private (hF : Lasting t F) : Private t tr fun s => F s.history := by
  intro s s' e _ hh hsent h
  rw [hh]
  exact hF hsent h

theorem private_calm : Private t tr (Calm (T := T) tr) := by
  intro s s' e hk _ _ h
  rw [Calm, hk.closing, hk.fresh]
  exact h

theorem private_live (x : Word) : Private t tr fun s => s.world.liveSessions tr = x :=
  fun _ _ _ hk _ _ h => hk.live.trans h

theorem Locked.stable (hR : Private t tr R) :
    (serviceDiscipline worker).Stable t fun s => Locked worker t tr s ∧ R s := by
  intro u s s' hu ⟨hs, hr⟩ hg
  obtain ⟨e, rfl, hh, -⟩ := hg.event
  have hk := hg.held tr t hu.symm hs.mutex
  exact ⟨⟨hg.inv, hk.mutex.trans hs.mutex⟩, hR hk hh (sentBy_of_ne hu) hr⟩

variable {a : ServiceAct} {Q : α → ServiceState T → Prop} {r : a.Answer} {w : Service T}

/-- A step of a thread that knows `I` and `R`, which the other threads leave true. -/
theorem wp_serving {I : ServiceState T → Prop} {k : a.Answer → ServiceCode α}
    (hstable : (serviceDiscipline worker).Stable t fun s => I s ∧ R s) (hs : I s) (hr : R s)
    (h : ∀ s₁ r w, I s₁ → R s₁ → Service.exec t s₁.world a r w →
      ∃ γ, ServiceLegal worker t s₁ (s₁.acted t a r w γ) ∧
        ServiceWp worker t (k r) Q (s₁.acted t a r w γ)) :
    ServiceWp worker t (.act a k) Q s := by
  apply wp_act_of_stable hstable ⟨hs, hr⟩
  intro s₁ hs₁
  exact ⟨trivial, fun r w hw => h s₁ r w hs₁.1 hs₁.2 hw⟩

omit [DecidableEq T] in
theorem Kept.plain (ha : a.Plain r) (hw : Service.exec t s.world a r w) :
    Kept tr s (s.acted t a r w s.ghost) := by
  obtain ⟨hmoved, hmutexes⟩ := Unmoved.plain ha hw
  exact ⟨congrFun hmutexes tr, congrFun hmoved.live tr, rfl, rfl, rfl⟩

theorem sentBy_plain {h : ServiceHistory T} (ha : a.Plain r) :
    sentBy t (.acted t a r w :: h) = sentBy t h := by
  cases a with
  | send item =>
    cases ha
    rfl
  | _ => rfl

/-- The operations that the calls of a transport use between their stores. -/
def ServiceAct.Idle : ServiceAct → Prop
  | .loadLive _ | .getTime | .count _ => True
  | _ => False

theorem wp_idle (a : ServiceAct) (ha : a.Idle) {k : a.Answer → ServiceCode α} (hR : Private t tr R)
    (hs : Locked worker t tr s) (hr : R s)
    (h : ∀ (s₁ : ServiceState T) r w, Locked worker t tr (s₁.acted t a r w s₁.ghost) →
      R (s₁.acted t a r w s₁.ghost) → Service.exec t s₁.world a r w →
      ServiceWp worker t (k r) Q (s₁.acted t a r w s₁.ghost)) :
    ServiceWp worker t (.act a k) Q s := by
  refine wp_serving (Locked.stable hR) hs hr fun s₁ r w hs₁ hr₁ hw => ⟨s₁.ghost, ?_⟩
  have hplain : a.Plain r := by cases a <;> first | exact ha.elim | trivial
  have hsound : Sound worker s₁.history (.acted t a r s₁.world) := by
    cases a <;> first | exact ha.elim | trivial
  have hlegal := ServiceLegal.plain hs₁.inv hplain hw hsound
  have hkept : Kept tr s₁ (s₁.acted t a r w s₁.ghost) := .plain hplain hw
  exact ⟨hlegal, h s₁ r w ⟨hlegal.inv, hkept.mutex.trans hs₁.mutex⟩
    (hR hkept rfl (sentBy_plain hplain) hr₁) hw⟩

end Private

section Code

variable {R : ServiceState T → Prop} {Q : α → ServiceState T → Prop}

variable {session : Word} {k : Bool → ServiceCode α} {G : ServiceHistory T → Prop} {refused : α}
  {body : ServiceCode α} {F : α → ServiceHistory T → Prop} {rounds : ℕ}
  {transport : Option Transport} {sub : Submission}

theorem wp_sessionIsLive (hne : session ≠ 0) (hR : Private t tr R) (hs : Locked worker t tr s)
    (hr : R s)
    (hdead : ∀ s, Locked worker t tr s → R s → ServiceWp worker t (k false) Q s)
    (hlive : ∀ s, Locked worker t tr s → R s → s.world.liveSessions tr = session →
      ServiceWp worker t (k true) Q s) :
    ServiceWp worker t (sessionIsLive tr session >>= k) Q s := by
  rw [sessionIsLive, if_neg hne]
  refine wp_idle (.loadLive tr) trivial hR hs hr fun s₁ r w hs₁ hr₁ hw => ?_
  obtain ⟨rfl, rfl⟩ := hw
  change ServiceWp worker t (k (decide (s₁.world.liveSessions tr = session))) Q _
  by_cases h : s₁.world.liveSessions tr = session
  · rw [decide_eq_true h]
    exact hlive _ hs₁ hr₁ h
  · rw [decide_eq_false h]
    exact hdead _ hs₁ hr₁

theorem unlocked_stable (hG : Lasting t G) :
    (serviceDiscipline worker).Stable t fun s => ServiceInv worker s ∧ G s.history := by
  intro u s s' hu ⟨_, hg⟩ hstep
  obtain ⟨e, rfl, hh, -⟩ := hstep.event
  rw [hh]
  exact ⟨hstep.inv, hG (sentBy_of_ne hu) hg⟩

theorem wp_loadInitialized (hG : Lasting t G) (hs : ServiceInv worker s) (hg : G s.history)
    (h : ∀ (s : ServiceState T) r, ServiceInv worker s → G s.history →
      ServiceWp worker t (k r) Q s) :
    ServiceWp worker t (.act .loadInitialized k) Q s := by
  refine wp_act_of_stable (unlocked_stable hG) ⟨hs, hg⟩ fun s₁ ⟨hs₁, hg₁⟩ =>
    ⟨trivial, fun r w hw => ⟨s₁.ghost, ?_⟩⟩
  have hplain : ServiceAct.Plain .loadInitialized r := trivial
  have hlegal := ServiceLegal.plain (t := t) hs₁ hplain hw trivial
  exact ⟨hlegal, h _ r hlegal.inv (hG rfl hg₁)⟩

section

variable (hG : Lasting t G) (hF : ∀ v, Lasting t (F v)) (hrefused : ∀ h, G h → F refused h)
  (hs : ServiceInv worker s) (hg : G s.history)
  (hbody : ∀ s, Locked worker t tr s → Calm tr s → G s.history →
    ServiceWp worker t body (fun v s => Locked worker t tr s ∧ Calm tr s ∧ F v s.history) s)
include hG hF hrefused hs hg hbody

theorem wp_underMutex :
    ServiceWp worker t (do
        if !(← serviceAct (.lock tr)) then pure refused
        else do
          let result ← body
          serviceAct (.unlock tr)
          pure result)
      (fun v s => ServiceInv worker s ∧ F v s.history) s := by
  refine wp_act_of_stable (unlocked_stable hG) ⟨hs, hg⟩ fun s₁ ⟨hs₁, hg₁⟩ =>
    ⟨trivial, ?_⟩
  rintro r w (⟨rfl, hfree, rfl⟩ | ⟨rfl, rfl⟩)
  · have hlegal := ServiceLegal.locked (t := t) hs₁ hfree
    refine ⟨s₁.ghost, hlegal, ?_⟩
    have hlocked : Locked worker t tr
        (s₁.acted t (.lock tr) true (s₁.world.withMutex tr (some t)) s₁.ghost) :=
      ⟨hlegal.inv, update_self ..⟩
    apply (hbody _ hlocked (hs₁.free tr hfree) (hG rfl hg₁)).bind
    rintro v s₂ ⟨hs₂, hcalm₂, hf₂⟩
    refine wp_serving (Locked.stable (private_calm.and (hF v).private)) hs₂ ⟨hcalm₂, hf₂⟩ ?_
    rintro s₃ r w hs₃ ⟨⟨hclosing, hfresh⟩, hf₃⟩ rfl
    have hlegal := ServiceLegal.unlocked hs₃.inv hs₃.mutex hclosing hfresh
    exact ⟨s₃.ghost, hlegal, hlegal.inv, hF v rfl hf₃⟩
  · have hplain : ServiceAct.Plain (.lock tr) false := rfl
    have hlegal := ServiceLegal.plain (t := t) hs₁ hplain (.inr ⟨rfl, rfl⟩) trivial
    exact ⟨s₁.ghost, hlegal, hlegal.inv, hrefused _ (hG rfl hg₁)⟩

theorem wp_withSession :
    ServiceWp worker t (withSession tr refused body)
      (fun v s => ServiceInv worker s ∧ F v s.history) s := by
  refine wp_loadInitialized hG hs hg fun s₁ r hs₁ hg₁ => ?_
  refine wp_guard ⟨hs₁, hrefused _ hg₁⟩ fun _ => ?_
  exact wp_underMutex hG hF hrefused hs₁ hg₁ hbody

end

/-- What an open knows when it has drawn a number. -/
def Chosen (tr : Transport) (session : Word) (s : ServiceState T) : Prop :=
  ∃ index, session = BitVec.ofNat 32 index ∧ s.ghost.last tr < index ∧
    index ≤ drawn s.history ∧ (Roomy s.history → index < 2 ^ 32)

/-- What an open knows until it has stored a number. -/
def Opening (tr : Transport) (s : ServiceState T) : Prop :=
  s.ghost.closing tr = false ∧ s.world.liveSessions tr = 0

omit [DecidableEq T] in
theorem Roomy.tail {e : ServiceEvent T} {h : ServiceHistory T} (hr : Roomy (e :: h)) :
    Roomy h := by
  have := opened_le e h
  rw [Roomy] at hr ⊢
  omega

theorem private_opening : Private t tr (Opening (T := T) tr) := by
  intro s s' e hk _ _ h
  rw [Opening, hk.closing, hk.live]
  exact h

theorem private_first :
    Private t tr fun s : ServiceState T => Roomy s.history → s.ghost.fresh tr = 0 := by
  intro s s' e hk hh _ h
  rw [hh, hk.fresh]
  exact fun hr => h hr.tail

theorem private_chosen (session : Word) : Private t tr (Chosen (T := T) tr session) := by
  rintro s s' e hk hh _ ⟨index, hsession, hlast, hdrawn, hindex⟩
  refine ⟨index, hsession, hk.last.trans_lt hlast, ?_, ?_⟩
  · rw [hh]
    exact hdrawn.trans (drawn_le e _)
  · rw [hh]
    exact fun hr => hindex hr.tail

theorem Chosen.drawn (hs : ServiceInv worker s) (hfirst : Roomy s.history → s.ghost.fresh tr = 0) :
    Chosen tr s.world.nextSession (s.acted t .fetchAddSession s.world.nextSession
      { s.world with nextSession := s.world.nextSession + 1 } (s.ghost.draw tr)) := by
  refine ⟨AirDap.drawn s.history + 1, hs.next, Nat.lt_succ_of_le (hs.last_le tr), le_rfl, ?_⟩
  intro hr
  have hroom : opened s.history + 1 < 2 ^ 32 - 1 := hr
  have hcount := hs.count hroom
  have husb := hs.few hroom .usb
  have hnetwork := hs.few hroom .network
  have hown := hfirst hroom
  cases tr <;> omega

theorem wp_nextSessionLoop (hs : Locked worker t tr s) (ho : Opening tr s)
    (hfirst : Roomy s.history → s.ghost.fresh tr = 0) :
    ServiceWp worker t (nextSessionLoop rounds)
      (fun session s => Locked worker t tr s ∧ Opening tr s ∧ session ≠ 0 ∧
        Chosen tr session s) s := by
  induction rounds generalizing s with
  | zero => exact fun _ _ => trivial
  | succ rounds ih =>
    refine wp_serving (Locked.stable (private_opening.and private_first)) hs ⟨ho, hfirst⟩ ?_
    rintro s₁ r w hs₁ ⟨ho₁, hfirst₁⟩ ⟨rfl, rfl⟩
    have hlegal := ServiceLegal.drawn hs₁.inv hs₁.mutex hfirst₁
    have hchosen := Chosen.drawn (t := t) hs₁.inv hfirst₁
    refine ⟨_, hlegal, wp_ite (fun h => ?_) fun h => ?_⟩
    · -- the zero is skipped only when the numbers come round
      refine ih ⟨hlegal.inv, hs₁.mutex⟩ ho₁ fun hr => ?_
      obtain ⟨index, hindex, hlast, -, hlt⟩ := hchosen
      have hzero := congrArg BitVec.toNat (hindex.symm.trans h)
      rw [BitVec.toNat_ofNat, Nat.mod_eq_of_lt (hlt hr)] at hzero
      exact absurd hzero (Nat.ne_of_gt (Nat.zero_lt_of_lt hlast))
    · exact ⟨⟨hlegal.inv, hs₁.mutex⟩, ho₁, h, hchosen⟩

theorem wp_openBody (hs : Locked worker t tr s) (hcalm : Calm tr s) :
    ServiceWp worker t (openBody rounds tr)
      (fun _ s => Locked worker t tr s ∧ Calm tr s ∧ True) s := by
  refine wp_idle (.loadLive tr) trivial private_calm hs hcalm fun s₁ r w hs₁ hset₁ hw => ?_
  obtain ⟨rfl, rfl⟩ := hw
  refine wp_guard ⟨hs₁, hset₁, trivial⟩ fun hlive => ?_
  apply (wp_nextSessionLoop hs₁ ⟨hset₁.1, not_not.mp hlive⟩ fun _ => hset₁.2).bind
  rintro session s₂ ⟨hs₂, ho₂, hne, hchosen₂⟩
  refine wp_serving (Locked.stable (private_opening.and (private_chosen session))) hs₂
    ⟨ho₂, hchosen₂⟩ ?_
  rintro s₃ r w hs₃ ⟨⟨hclosing, hlive⟩, index, hsession, hlast, hdrawn, hindex⟩ rfl
  have hlegal := ServiceLegal.opened hs₃.inv hs₃.mutex hlive hclosing hlast hdrawn hsession hne
    hindex
  exact ⟨_, hlegal, ⟨hlegal.inv, hs₃.mutex⟩, ⟨hclosing, update_self ..⟩, trivial⟩

theorem wp_sessionOpen {authenticated out : Bool} (hs : ServiceInv worker s) :
    ServiceWp worker t (sessionOpen rounds transport authenticated out)
      (fun _ s => ServiceInv worker s ∧ True) s := by
  cases transport with
  | none => exact ⟨hs, trivial⟩
  | some tr =>
    refine wp_guard ⟨hs, trivial⟩ fun _ => ?_
    refine wp_loadInitialized lasting_nothing hs trivial fun s₁ r hs₁ _ => ?_
    refine wp_guard ⟨hs₁, trivial⟩ fun _ => ?_
    refine wp_guard ⟨hs₁, trivial⟩ fun _ => ?_
    exact wp_underMutex lasting_nothing (fun _ => lasting_nothing) (fun _ _ => trivial) hs₁ trivial
      fun _ hs hcalm _ => wp_openBody hs hcalm

/-- A close is between its two stores. -/
def Closing (tr : Transport) (session : Word) (s : ServiceState T) : Prop :=
  s.ghost.fresh tr = 0 ∧ Retired tr session s.history

theorem private_closing (session : Word) : Private t tr (Closing (T := T) tr session) := by
  rintro s s' e hk hh _ ⟨hfresh, hretired⟩
  refine ⟨hk.fresh.trans hfresh, ?_⟩
  rw [hh]
  exact hretired.cons e

theorem wp_closeBody (hne : session ≠ 0) (hs : Locked worker t tr s) (hcalm : Calm tr s) :
    ServiceWp worker t (closeBody tr session)
      (fun v s => Locked worker t tr s ∧ Calm tr s ∧ (v = .ok → Retired tr session s.history))
      s := by
  refine wp_sessionIsLive hne private_calm hs hcalm ?_ ?_
  · exact fun s hs hcalm => ⟨hs, hcalm, fun h => by cases h⟩
  · intro s hs hcalm hlive
    refine wp_serving (Locked.stable (private_calm.and (private_live session))) hs ⟨hcalm, hlive⟩ ?_
    rintro s₁ r w hs₁ ⟨⟨-, hfresh₁⟩, hlive₁⟩ rfl
    have hlegal := ServiceLegal.closed hs₁.inv hs₁.mutex (hlive₁ ▸ hne)
    refine ⟨_, hlegal, ?_⟩
    refine wp_serving (Locked.stable (private_closing session)) ⟨hlegal.inv, hs₁.mutex⟩
      ⟨hfresh₁, .inl ⟨rfl, rfl, hlive₁⟩⟩ ?_
    rintro s₂ r w hs₂ ⟨hfresh₂, hretired₂⟩ rfl
    have hlegal := ServiceLegal.asked hs₂.inv hs₂.mutex
    exact ⟨_, hlegal, ⟨hlegal.inv, hs₂.mutex⟩, ⟨update_self .., hfresh₂⟩,
      fun _ => hretired₂.cons _⟩

theorem wp_sessionClose (hs : ServiceInv worker s) :
    ServiceWp worker t (sessionClose transport session) (fun v s => ServiceInv worker s ∧
        ∀ tr, transport = some tr → v = .ok → Retired tr session s.history) s := by
  cases transport with
  | none => exact ⟨hs, fun tr htr => by cases htr⟩
  | some tr =>
    refine wp_guard ⟨hs, fun _ _ h => by cases h⟩ fun hne => ?_
    refine Discipline.wp.mono (wp_withSession (F := fun v h => v = .ok → Retired tr session h)
      lasting_nothing (fun v => lasting_retired _ session)
      (fun _ _ h => by cases h) hs trivial
      fun _ hs hcalm _ => wp_closeBody hne hs hcalm) ?_
    rintro v s ⟨hs, hretired⟩
    refine ⟨hs, fun tr' htr' => ?_⟩
    cases htr'
    exact hretired

theorem wp_resetBody (hne : session ≠ 0) (hs : Locked worker t tr s) (hcalm : Calm tr s) :
    ServiceWp worker t (resetBody tr session)
      (fun _ s => Locked worker t tr s ∧ Calm tr s ∧ True) s := by
  refine wp_sessionIsLive hne private_calm hs hcalm ?_ ?_
  · exact fun s hs hcalm => ⟨hs, hcalm, trivial⟩
  · intro s hs hcalm _
    refine wp_serving (Locked.stable private_calm) hs hcalm ?_
    rintro s₁ r w hs₁ ⟨-, hfresh₁⟩ rfl
    have hlegal := ServiceLegal.asked hs₁.inv hs₁.mutex
    exact ⟨_, hlegal, ⟨hlegal.inv, hs₁.mutex⟩, ⟨update_self .., hfresh₁⟩, trivial⟩

theorem wp_sessionReset (hs : ServiceInv worker s) :
    ServiceWp worker t (sessionReset transport session)
      (fun _ s => ServiceInv worker s ∧ True) s := by
  cases transport with
  | none => exact ⟨hs, trivial⟩
  | some tr =>
    refine wp_guard ⟨hs, trivial⟩ fun hne => ?_
    exact wp_withSession lasting_nothing (fun _ => lasting_nothing) (fun _ _ => trivial) hs trivial
      fun _ hs hcalm _ => wp_resetBody hne hs hcalm

/-- What the thread has sent when a submit returns. -/
def Submitted (t : T) (sub : Submission) (tr : Transport) (request : List Byte)
    (v : ServiceResult) (h : ServiceHistory T) : Prop :=
  v = .ok → ∃ time, sentBy t h = [sub.item tr request time]

theorem lasting_submitted (sub : Submission) (request : List Byte) (v : ServiceResult) :
    Lasting t (Submitted t sub tr request v) := by
  intro h e hsame hs hv
  obtain ⟨time, htime⟩ := hs hv
  exact ⟨time, hsame.trans htime⟩

theorem wp_submitBody {request : List Byte} (hne : sub.session ≠ 0) (hs : Locked worker t tr s)
    (hcalm : Calm tr s) (hsent : sentBy t s.history = []) :
    ServiceWp worker t (submitBody sub tr request)
      (fun v s => Locked worker t tr s ∧ Calm tr s ∧ Submitted t sub tr request v s.history)
      s := by
  have hprivate : Private t tr fun s => Calm tr s ∧ sentBy t s.history = [] :=
    private_calm.and (lasting_sent []).private
  refine wp_sessionIsLive hne hprivate hs ⟨hcalm, hsent⟩ ?_ ?_
  · exact fun s hs h => ⟨hs, h.1, fun h => by cases h⟩
  · intro s hs h hlive
    refine wp_idle .getTime trivial (hprivate.and (private_live sub.session)) hs ⟨h, hlive⟩
      fun s₁ time w hs₁ h₁ _ => ?_
    refine wp_serving (Locked.stable (hprivate.and (private_live sub.session))) hs₁ h₁ ?_
    rintro s₂ r w hs₂ ⟨⟨hcalm₂, hsent₂⟩, hlive₂⟩ (⟨-, rfl, rfl⟩ | ⟨hfull, rfl, rfl⟩)
    · have hlegal := ServiceLegal.sent (t := t) (sub.item tr request time) hs₂.inv hlive₂ hne
        hcalm₂.1
      refine ⟨_, hlegal, ?_⟩
      have hsent : sentBy t (.acted t (.send (sub.item tr request time)) true s₂.world ::
          s₂.history) = [sub.item tr request time] := (if_pos rfl).trans (congrArg _ hsent₂)
      refine wp_idle (.count .requestsAccepted) trivial
        (private_calm.and (lasting_sent [sub.item tr request time]).private)
        ⟨hlegal.inv, hs₂.mutex⟩ ⟨hcalm₂, hsent⟩ fun s₃ _ w hs₃ h₃ _ => ?_
      exact ⟨hs₃, h₃.1, fun _ => ⟨time, h₃.2⟩⟩
    · have hplain : ServiceAct.Plain (.send (sub.item tr request time)) false := rfl
      have hlegal := ServiceLegal.plain (t := t) hs₂.inv hplain (.inr ⟨hfull, rfl, rfl⟩) trivial
      refine ⟨_, hlegal, ?_⟩
      refine wp_idle (.count .queueFull) trivial private_calm ⟨hlegal.inv, hs₂.mutex⟩ hcalm₂
        fun s₃ _ w hs₃ h₃ _ => ?_
      exact ⟨hs₃, h₃, fun h => by cases h⟩

theorem wp_serviceSubmit (hs : ServiceInv worker s) (hsent : sentBy t s.history = []) :
    ServiceWp worker t (serviceSubmit sub)
      (fun v s => ServiceInv worker s ∧ (v = .ok → ∃ tr request time, sub.transport = some tr ∧
        sub.request = some request ∧ sentBy t s.history = [sub.item tr request time])) s := by
  rw [serviceSubmit]
  split
  · rename_i tr request htr hrequest
    refine wp_guard ⟨hs, fun h => by cases h⟩ fun hok => ?_
    refine Discipline.wp.mono (wp_withSession (F := Submitted t sub tr request)
      (lasting_sent []) (lasting_submitted sub request) (fun _ _ h => by cases h) hs hsent
      fun _ hs hcalm hsent => wp_submitBody (fun h => hok (.inl h)) hs hcalm hsent) ?_
    rintro v s ⟨hs, hsubmitted⟩
    refine ⟨hs, fun hv => ?_⟩
    obtain ⟨time, htime⟩ := hsubmitted hv
    exact ⟨tr, request, time, htr, hrequest, htime⟩
  · exact ⟨hs, fun h => by cases h⟩

end Code
end AirDap

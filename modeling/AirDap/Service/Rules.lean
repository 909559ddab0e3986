import AirDap.Service.Log

/-! The invariant of the service and the steps that keep it. A session number is given out
once, so the sessions of a transport are ordered; a session that the worker has admitted is
live, or its end is on the way to the worker. -/
namespace AirDap
open Concurrency Function

variable {T : Type}

/-- For each transport: the session that the worker admitted since it last disconnected the
transport, whether the worker has taken a disconnect that it has not carried out, whether a
close is between its two stores, which of the drawn numbers was live last, and how many were
drawn by an open that has not stored one yet. -/
structure ServiceGhost where
  mark : Transport → Option Word
  owed : Transport → Bool
  closing : Transport → Bool
  last : Transport → ℕ
  fresh : Transport → ℕ

abbrev ServiceState (T : Type) :=
  State T ServiceAct ServiceAct.Answer (Service T) ServiceCall ServiceCall.Value ServiceGhost

/-- A disconnect of the transport is on its way. -/
def Due (tr : Transport) (s : ServiceState T) : Prop :=
  s.world.pendingDisconnects tr = true ∨ s.ghost.owed tr = true

/-- One more session may be opened. -/
def Roomy (h : ServiceHistory T) : Prop := opened h + 1 < 2 ^ 32 - 1

variable [DecidableEq T]

/-- The order of the sessions of a transport. -/
structure SessionInv (worker : T) (tr : Transport) (s : ServiceState T) : Prop where
  live : s.world.liveSessions tr = 0 ∨ (s.world.liveSessions tr).toNat = s.ghost.last tr
  mark_le : ∀ a, s.ghost.mark tr = some a → a ≠ 0 ∧ a.toNat ≤ s.ghost.last tr
  mark_live : ∀ a, s.ghost.mark tr = some a →
    s.world.liveSessions tr = a ∨ Due tr s ∨ s.ghost.closing tr = true
  queue_le : ∀ item ∈ s.world.queue, item.transport = tr →
    item.session.toNat ≤ s.ghost.last tr
  queue_mark : ∀ item ∈ s.world.queue, item.transport = tr → ∀ a, s.ghost.mark tr = some a →
    item.session.toNat ≤ a.toNat ∨ Due tr s
  retired : ∀ x, Retired tr x s.history →
    x ≠ 0 ∧ x.toNat ≤ s.ghost.last tr ∧ s.world.liveSessions tr ≠ x
  run : ∀ a, lastRun worker tr s.history = some a → s.ghost.mark tr = some a

structure ServiceInv (worker : T) (s : ServiceState T) : Prop where
  next : s.world.nextSession = BitVec.ofNat 32 (drawn s.history + 1)
  fifo : accepted s.history = s.world.queue.reverse ++ received s.history
  last_le : ∀ tr, s.ghost.last tr ≤ drawn s.history
  free : ∀ tr, s.world.sessionMutexes tr = none →
    s.ghost.closing tr = false ∧ s.ghost.fresh tr = 0
  closing : ∀ tr, s.ghost.closing tr = true → s.world.liveSessions tr = 0
  count : Roomy s.history → drawn s.history ≤
    opened s.history + s.ghost.fresh .usb + s.ghost.fresh .network
  few : Roomy s.history → ∀ tr, s.ghost.fresh tr ≤ 1
  sessions : Bounded s.history → ∀ tr, SessionInv worker tr s

/-- What belongs to the holder of the mutex of the transport. -/
structure Kept (tr : Transport) (s s' : ServiceState T) : Prop where
  mutex : s'.world.sessionMutexes tr = s.world.sessionMutexes tr
  live : s'.world.liveSessions tr = s.world.liveSessions tr
  closing : s'.ghost.closing tr = s.ghost.closing tr
  last : s'.ghost.last tr = s.ghost.last tr
  fresh : s'.ghost.fresh tr = s.ghost.fresh tr

/-- What every step of thread `t` does: it is sound, it leaves alone what belongs to the
transports whose mutex another thread has, and only the worker drops disconnects. -/
structure ServiceLegal (worker t : T) (s s' : ServiceState T) : Prop where
  inv : ServiceInv worker s'
  event : ∃ e : ServiceEvent T, e.thread = t ∧ s'.history = e :: s.history ∧
    Sound worker s.history e
  held : ∀ tr u, u ≠ t → s.world.sessionMutexes tr = some u → Kept tr s s'
  mark : t ≠ worker → s'.ghost.mark = s.ghost.mark
  owed : t ≠ worker → s'.ghost.owed = s.ghost.owed
  pending : t ≠ worker → ∀ tr, s.world.pendingDisconnects tr = true →
    s'.world.pendingDisconnects tr = true

def serviceDiscipline (worker : T) : Discipline T ServiceAct ServiceAct.Answer (Service T)
    ServiceCall ServiceCall.Value ServiceGhost where
  exec := Service.exec
  guar := ServiceLegal worker
  pre _ _ _ := True

abbrev ServiceWp {α : Type} (worker t : T) (p : ServiceCode α) (Q : α → ServiceState T → Prop)
    (s : ServiceState T) : Prop :=
  (serviceDiscipline worker).wp t p Q s

/-- The event shows in none of the accounts of the history. -/
structure Silent (worker : T) (e : ServiceEvent T) (h : ServiceHistory T) : Prop where
  drawn : drawn (e :: h) = drawn h
  opened : opened (e :: h) = opened h
  accepted : accepted (e :: h) = accepted h
  received : received (e :: h) = received h
  retired : ∀ tr x, Retired tr x (e :: h) → Retired tr x h
  run : ∀ tr, lastRun worker tr (e :: h) = lastRun worker tr h

/-- The step does nothing to the sessions of the transport, apart from disconnects that it may
add and requests that it may take from the queue. -/
structure Alike (worker : T) (tr : Transport) (s s' : ServiceState T) : Prop where
  live : s'.world.liveSessions tr = s.world.liveSessions tr
  last : s'.ghost.last tr = s.ghost.last tr
  mark : s'.ghost.mark tr = s.ghost.mark tr
  closing : s'.ghost.closing tr = s.ghost.closing tr
  due : Due tr s → Due tr s'
  queue : ∀ item ∈ s'.world.queue, item.transport = tr → item ∈ s.world.queue
  retired : ∀ x, Retired tr x s'.history → Retired tr x s.history
  run : ∀ a, lastRun worker tr s'.history = some a → lastRun worker tr s.history = some a

omit [DecidableEq T] in
/-- The step changes at most the counters and the mutexes. -/
structure Unmoved (s s' : ServiceState T) : Prop where
  next : s'.world.nextSession = s.world.nextSession
  live : s'.world.liveSessions = s.world.liveSessions
  pending : s'.world.pendingDisconnects = s.world.pendingDisconnects
  queue : s'.world.queue = s.world.queue
  ghost : s'.ghost = s.ghost

section Keep

variable {worker t : T} {tr : Transport} {s s' : ServiceState T} {e : ServiceEvent T}

theorem SessionInv.alike (hs : SessionInv worker tr s) (h : Alike worker tr s s') :
    SessionInv worker tr s' where
  live := by
    rw [h.live, h.last]
    exact hs.live
  mark_le := by
    rw [h.mark, h.last]
    exact hs.mark_le
  mark_live a ha := by
    rw [h.mark] at ha
    rw [h.live, h.closing]
    exact (hs.mark_live a ha).imp id (Or.imp h.due id)
  queue_le item hitem htr := by
    rw [h.last]
    exact hs.queue_le item (h.queue item hitem htr) htr
  queue_mark item hitem htr a ha := by
    rw [h.mark] at ha
    exact (hs.queue_mark item (h.queue item hitem htr) htr a ha).imp id h.due
  retired x hx := by
    rw [h.live, h.last]
    exact hs.retired x (h.retired x hx)
  run a ha := by
    rw [h.mark]
    exact hs.run a (h.run a ha)

theorem Unmoved.alike (h : Unmoved s s') (hh : s'.history = e :: s.history)
    (he : Silent worker e s.history) : Alike worker tr s s' where
  live := by rw [h.live]
  last := by rw [h.ghost]
  mark := by rw [h.ghost]
  closing := by rw [h.ghost]
  due := by
    rw [Due, Due, h.pending, h.ghost]
    exact id
  queue item hitem _ := h.queue ▸ hitem
  retired := by
    rw [hh]
    exact he.retired tr
  run a ha := by
    rw [hh, he.run] at ha
    exact ha

/-- A silent step that moves nothing keeps the invariant, if the mutexes that it frees are not
needed. -/
theorem ServiceInv.unmoved (hs : ServiceInv worker s) (h : Unmoved s s')
    (hh : s'.history = e :: s.history) (he : Silent worker e s.history)
    (hmutex : ∀ tr, s'.world.sessionMutexes tr = none →
      s.ghost.closing tr = false ∧ s.ghost.fresh tr = 0) :
    ServiceInv worker s' where
  next := by
    rw [h.next, hh, he.drawn]
    exact hs.next
  fifo := by
    rw [h.queue, hh, he.accepted, he.received]
    exact hs.fifo
  last_le := by
    rw [h.ghost, hh, he.drawn]
    exact hs.last_le
  free := by
    rw [h.ghost]
    exact hmutex
  closing := by
    rw [h.ghost, h.live]
    exact hs.closing
  count := by
    rw [Roomy, h.ghost, hh, he.drawn, he.opened]
    exact hs.count
  few := by
    rw [Roomy, h.ghost, hh, he.opened]
    exact hs.few
  sessions hb tr := by
    rw [hh] at hb
    exact (hs.sessions hb.tail tr).alike (h.alike hh he)

theorem ServiceLegal.unmoved (hs : ServiceInv worker s) (h : Unmoved s s')
    (hh : s'.history = e :: s.history) (ht : e.thread = t) (he : Silent worker e s.history)
    (hsound : Sound worker s.history e)
    (hmutex : ∀ tr, s'.world.sessionMutexes tr = none →
      s.ghost.closing tr = false ∧ s.ghost.fresh tr = 0)
    (hothers : ∀ tr u, u ≠ t → s.world.sessionMutexes tr = some u →
      s'.world.sessionMutexes tr = s.world.sessionMutexes tr) : ServiceLegal worker t s s' where
  inv := hs.unmoved h hh he hmutex
  event := ⟨e, ht, hh, hsound⟩
  held tr u hu htr := by
    refine ⟨hothers tr u hu htr, ?_, ?_, ?_, ?_⟩
    · rw [h.live]
    all_goals rw [h.ghost]
  mark _ := by rw [h.ghost]
  owed _ := by rw [h.ghost]
  pending _ := by
    rw [h.pending]
    exact fun _ => id

end Keep

/-- The operations that read, count or call out. -/
def ServiceAct.Plain : (a : ServiceAct) → a.Answer → Prop
  | .loadInitialized, _ | .loadLive _, _ | .getTime, _ | .deliver _, _ | .count _, _ => True
  | .lock _, r | .send _, r => r = false
  | .receive, r => r = none
  | _, _ => False

section Steps

variable {worker t : T} {s : ServiceState T} {tr : Transport}

variable {a : ServiceAct} {r : a.Answer} {w : Service T} {session : Word}

theorem Silent.plain (ha : a.Plain r) (w : Service T) (h : ServiceHistory T) :
    Silent worker (.acted t a r w) h := by
  cases a with
  | loadInitialized | loadLive _ | getTime | deliver _ | count _ =>
    exact ⟨rfl, rfl, rfl, rfl, fun _ _ h => h, fun _ => rfl⟩
  | lock tr | send item | receive =>
    cases ha
    exact ⟨rfl, rfl, rfl, rfl, fun _ _ h => h, fun _ => rfl⟩
  | _ => exact ha.elim

omit [DecidableEq T] in
theorem Unmoved.plain (ha : a.Plain r) (hw : Service.exec t s.world a r w) :
    Unmoved s (s.acted t a r w s.ghost) ∧ w.sessionMutexes = s.world.sessionMutexes := by
  cases a with
  | loadInitialized | loadLive _ =>
    obtain ⟨-, rfl⟩ := hw
    exact ⟨⟨rfl, rfl, rfl, rfl, rfl⟩, rfl⟩
  | getTime | deliver _ | count _ =>
    cases hw
    exact ⟨⟨rfl, rfl, rfl, rfl, rfl⟩, rfl⟩
  | lock tr =>
    cases ha
    rcases hw with ⟨h, -⟩ | ⟨-, rfl⟩
    · cases h
    · exact ⟨⟨rfl, rfl, rfl, rfl, rfl⟩, rfl⟩
  | send item =>
    cases ha
    rcases hw with ⟨-, h, -⟩ | ⟨-, -, rfl⟩
    · cases h
    · exact ⟨⟨rfl, rfl, rfl, rfl, rfl⟩, rfl⟩
  | receive =>
    cases ha
    obtain ⟨hr, rfl⟩ := hw
    have hempty : s.world.queue = [] := List.head?_eq_none_iff.mp hr.symm
    exact ⟨⟨rfl, rfl, rfl, congrArg List.tail hempty |>.trans hempty.symm, rfl⟩, rfl⟩
  | _ => exact ha.elim

theorem ServiceLegal.plain (hs : ServiceInv worker s) (ha : a.Plain r)
    (hw : Service.exec t s.world a r w) (hsound : Sound worker s.history (.acted t a r s.world)) :
    ServiceLegal worker t s (s.acted t a r w s.ghost) := by
  obtain ⟨hmoved, hmutexes⟩ := Unmoved.plain ha hw
  apply ServiceLegal.unmoved hs hmoved rfl rfl (.plain ha _ _) hsound
  · intro tr htr
    exact hs.free tr (hmutexes ▸ htr)
  · intro tr u _ _
    exact congrFun hmutexes tr

def Service.withMutex (w : Service T) (tr : Transport) (holder : Option T) : Service T :=
  { w with sessionMutexes := update w.sessionMutexes tr holder }

theorem ServiceLegal.locked (hs : ServiceInv worker s)
    (hfree : s.world.sessionMutexes tr = none) :
    ServiceLegal worker t s
      (s.acted t (.lock tr) true (s.world.withMutex tr (some t)) s.ghost) := by
  have hsilent : Silent worker (.acted t (.lock tr) true s.world) s.history :=
    ⟨rfl, rfl, rfl, rfl, fun _ _ h => h, fun _ => rfl⟩
  have hmoved : Unmoved s (s.acted t (.lock tr) true (s.world.withMutex tr (some t)) s.ghost) :=
    ⟨rfl, rfl, rfl, rfl, rfl⟩
  apply ServiceLegal.unmoved hs hmoved rfl rfl hsilent trivial
  · intro tr' htr'
    change update s.world.sessionMutexes tr (some t) tr' = none at htr'
    by_cases hne : tr' = tr
    · subst hne
      exact hs.free tr' hfree
    · rw [update_of_ne hne] at htr'
      exact hs.free tr' htr'
  · intro tr' u _ htr'
    apply update_of_ne
    rintro rfl
    cases hfree.symm.trans htr'

theorem ServiceLegal.unlocked (hs : ServiceInv worker s)
    (hmine : s.world.sessionMutexes tr = some t) (hclosing : s.ghost.closing tr = false)
    (hfresh : s.ghost.fresh tr = 0) :
    ServiceLegal worker t s (s.acted t (.unlock tr) () (s.world.withMutex tr none) s.ghost) := by
  have hsilent : Silent worker (.acted t (.unlock tr) () s.world) s.history :=
    ⟨rfl, rfl, rfl, rfl, fun _ _ h => h, fun _ => rfl⟩
  have hmoved : Unmoved s (s.acted t (.unlock tr) () (s.world.withMutex tr none) s.ghost) :=
    ⟨rfl, rfl, rfl, rfl, rfl⟩
  apply ServiceLegal.unmoved hs hmoved rfl rfl hsilent trivial
  · intro tr' htr'
    change update s.world.sessionMutexes tr none tr' = none at htr'
    by_cases hne : tr' = tr
    · subst hne
      exact ⟨hclosing, hfresh⟩
    · rw [update_of_ne hne] at htr'
      exact hs.free tr' htr'
  · intro tr' u hu htr'
    apply update_of_ne
    rintro rfl
    exact hu (Option.some.inj (htr'.symm.trans hmine))

omit [DecidableEq T] in
theorem Kept.of_ne {s' : ServiceState T} (hmine : s.world.sessionMutexes tr = some t)
    (hkept : ∀ tr', tr' ≠ tr → Kept tr' s s') {tr' : Transport} {u : T} (hu : u ≠ t)
    (htr' : s.world.sessionMutexes tr' = some u) : Kept tr' s s' := by
  apply hkept
  rintro rfl
  exact hu (Option.some.inj (htr'.symm.trans hmine))

def ServiceGhost.draw (γ : ServiceGhost) (tr : Transport) : ServiceGhost :=
  { γ with fresh := update γ.fresh tr (γ.fresh tr + 1) }

theorem ServiceLegal.drawn (hs : ServiceInv worker s)
    (hmine : s.world.sessionMutexes tr = some t)
    (hfirst : Roomy s.history → s.ghost.fresh tr = 0) :
    ServiceLegal worker t s (s.acted t .fetchAddSession s.world.nextSession
      { s.world with nextSession := s.world.nextSession + 1 } (s.ghost.draw tr)) where
  inv := by
    refine ⟨?_, hs.fifo, fun tr => (hs.last_le tr).trans (drawn_le _ _), fun tr' htr' => ?_,
      hs.closing, fun hr => ?_, fun hr tr' => ?_, fun hb tr' => ?_⟩
    · change s.world.nextSession + 1 = BitVec.ofNat 32 (AirDap.drawn s.history + 1 + 1)
      rw [hs.next]
      exact (BitVec.ofNat_add ..).symm
    · have hne : tr' ≠ tr := by
        rintro rfl
        cases hmine.symm.trans htr'
      change _ ∧ update s.ghost.fresh tr _ tr' = 0
      rw [update_of_ne hne]
      exact hs.free tr' htr'
    · have hcount := hs.count hr
      change AirDap.drawn s.history + 1 ≤ opened s.history +
        update s.ghost.fresh tr _ .usb + update s.ghost.fresh tr _ .network
      cases tr with
      | usb =>
        rw [update_self, update_of_ne (by decide)]
        omega
      | network =>
        rw [update_self, update_of_ne (by decide)]
        omega
    · change update s.ghost.fresh tr _ tr' ≤ 1
      by_cases hne : tr' = tr
      · subst hne
        rw [update_self, hfirst hr]
      · rw [update_of_ne hne]
        exact hs.few hr tr'
    · apply (hs.sessions hb tr').alike
      exact ⟨rfl, rfl, rfl, rfl, id, fun _ h _ => h, fun _ => id, fun _ => id⟩
  event := ⟨_, rfl, rfl, trivial⟩
  held _ _ := by
    apply Kept.of_ne hmine
    intro tr' hne
    exact ⟨rfl, rfl, rfl, rfl, update_of_ne hne _ _⟩
  mark _ := rfl
  owed _ := rfl
  pending _ _ := id

def Service.withLive (w : Service T) (tr : Transport) (session : Word) : Service T :=
  { w with liveSessions := update w.liveSessions tr session }

def ServiceGhost.store (γ : ServiceGhost) (tr : Transport) (index : ℕ) : ServiceGhost :=
  { γ with last := update γ.last tr index, fresh := update γ.fresh tr 0 }

def ServiceGhost.close (γ : ServiceGhost) (tr : Transport) (closing : Bool) : ServiceGhost :=
  { γ with closing := update γ.closing tr closing }

theorem SessionInv.opened (hs : SessionInv worker tr s) (hlive : s.world.liveSessions tr = 0)
    (hclosing : s.ghost.closing tr = false) (hlast : s.ghost.last tr < session.toNat)
    (hne : session ≠ 0) :
    SessionInv worker tr (s.acted t (.storeLive tr session) () (s.world.withLive tr session)
      (s.ghost.store tr session.toNat)) := by
  have hlive' : (s.world.withLive tr session).liveSessions tr = session := update_self ..
  have hlast' : (s.ghost.store tr session.toNat).last tr = session.toNat :=
    update_self ..
  constructor
  · exact .inr ((congrArg BitVec.toNat hlive').trans hlast'.symm)
  · intro a ha
    obtain ⟨hpos, hle⟩ := hs.mark_le a ha
    exact ⟨hpos, (hle.trans hlast.le).trans_eq hlast'.symm⟩
  · intro a ha
    rcases hs.mark_live a ha with h | h | h
    · exact absurd (h.symm.trans hlive) (hs.mark_le a ha).1
    · exact .inr (.inl h)
    · cases hclosing.symm.trans h
  · intro item hitem htr
    exact ((hs.queue_le item hitem htr).trans hlast.le).trans_eq hlast'.symm
  · exact hs.queue_mark
  · intro x hx
    have hx' : Retired tr x s.history := hx.resolve_left fun h => hne h.2.1
    obtain ⟨hpos, hle, -⟩ := hs.retired x hx'
    refine ⟨hpos, (hle.trans hlast.le).trans_eq hlast'.symm, fun h => ?_⟩
    have heq : session = x := hlive'.symm.trans h
    subst heq
    omega
  · exact hs.run

theorem ServiceLegal.opened {index : ℕ} (hs : ServiceInv worker s)
    (hmine : s.world.sessionMutexes tr = some t) (hlive : s.world.liveSessions tr = 0)
    (hclosing : s.ghost.closing tr = false) (hlast : s.ghost.last tr < index)
    (hdrawn : index ≤ AirDap.drawn s.history) (hsession : session = BitVec.ofNat 32 index)
    (hne : session ≠ 0) (hindex : Roomy s.history → index < 2 ^ 32) :
    ServiceLegal worker t s (s.acted t (.storeLive tr session) ()
      (s.world.withLive tr session) (s.ghost.store tr index)) := by
  have hheld : ∀ tr', s.world.sessionMutexes tr' = none → tr' ≠ tr := by
    rintro tr' htr' rfl
    cases hmine.symm.trans htr'
  have hopened : AirDap.opened (.acted t (.storeLive tr session) () s.world :: s.history) =
      AirDap.opened s.history + 1 := if_neg hne
  refine ⟨⟨hs.next, hs.fifo, fun tr' => ?_, fun tr' htr' => ?_, fun tr' htr' => ?_, fun hr => ?_,
    fun hr tr' => ?_, fun hb tr' => ?_⟩, ⟨_, rfl, rfl, trivial⟩, ?_, fun _ => rfl, fun _ => rfl,
    fun _ _ => id⟩
  · change update s.ghost.last tr index tr' ≤ AirDap.drawn s.history
    by_cases h : tr' = tr
    · rw [h, update_self]
      exact hdrawn
    · rw [update_of_ne h]
      exact hs.last_le tr'
  · change _ ∧ update s.ghost.fresh tr 0 tr' = 0
    rw [update_of_ne (hheld tr' htr')]
    exact hs.free tr' htr'
  · change update s.world.liveSessions tr session tr' = 0
    have h : tr' ≠ tr := by
      rintro rfl
      cases hclosing.symm.trans htr'
    rw [update_of_ne h]
    exact hs.closing tr' htr'
  · have hroom : Roomy s.history := by
      simp only [Roomy, State.acted, hopened] at hr ⊢
      omega
    have hcount := hs.count hroom
    have hfew := hs.few hroom tr
    change AirDap.drawn s.history ≤ AirDap.opened (_ :: s.history) +
      update s.ghost.fresh tr 0 .usb + update s.ghost.fresh tr 0 .network
    rw [hopened]
    cases tr with
    | usb =>
      rw [update_self, update_of_ne (by decide)]
      omega
    | network =>
      rw [update_self, update_of_ne (by decide)]
      omega
  · change update s.ghost.fresh tr 0 tr' ≤ 1
    have hroom : Roomy s.history := by
      simp only [Roomy, State.acted, hopened] at hr ⊢
      omega
    by_cases h : tr' = tr
    · rw [h, update_self]
      exact zero_le_one
    · rw [update_of_ne h]
      exact hs.few hroom tr'
  · have hroom : Roomy s.history := by
      simpa only [Bounded, Roomy, State.acted, hopened] using hb
    have hnat : session.toNat = index := by
      rw [hsession, BitVec.toNat_ofNat, Nat.mod_eq_of_lt (hindex hroom)]
    by_cases h : tr' = tr
    · subst h
      rw [← hnat]
      exact (hs.sessions hb.tail tr').opened hlive hclosing (hnat ▸ hlast) hne
    · apply (hs.sessions hb.tail tr').alike
      refine ⟨update_of_ne h _ _, update_of_ne h _ _, rfl, rfl, id,
        fun _ h _ => h, fun x hx => ?_, fun _ => id⟩
      exact hx.resolve_left fun heq => h heq.1.symm
  · intro _ _
    apply Kept.of_ne hmine
    intro tr' h
    exact ⟨rfl, update_of_ne h _ _, rfl, update_of_ne h _ _,
      update_of_ne h _ _⟩

end Steps

/-- The step opens no session and takes no mutex. -/
structure Steady (s s' : ServiceState T) (e : ServiceEvent T) : Prop where
  next : s'.world.nextSession = s.world.nextSession
  mutexes : s'.world.sessionMutexes = s.world.sessionMutexes
  last : s'.ghost.last = s.ghost.last
  fresh : s'.ghost.fresh = s.ghost.fresh
  history : s'.history = e :: s.history
  drawn : drawn (e :: s.history) = drawn s.history
  opened : opened (e :: s.history) = opened s.history

section Steps

variable {worker t : T} {s : ServiceState T} {tr : Transport}

theorem ServiceInv.steady {s' : ServiceState T} {e : ServiceEvent T} (hs : ServiceInv worker s)
    (h : Steady s s' e)
    (hfifo : accepted s'.history = s'.world.queue.reverse ++ received s'.history)
    (hclosing : ∀ tr, s'.ghost.closing tr = true → s'.world.liveSessions tr = 0 ∧
      (s.ghost.closing tr = true ∨ s.world.sessionMutexes tr ≠ none))
    (hsessions : Bounded s.history → ∀ tr, SessionInv worker tr s') : ServiceInv worker s' where
  next := by
    rw [h.next, h.history, h.drawn]
    exact hs.next
  fifo := hfifo
  last_le := by
    rw [h.last, h.history, h.drawn]
    exact hs.last_le
  free tr htr := by
    rw [h.mutexes] at htr
    rw [h.fresh]
    refine ⟨Bool.eq_false_iff.mpr fun hc => ?_, (hs.free tr htr).2⟩
    rcases (hclosing tr hc).2 with h | h
    · cases (hs.free tr htr).1.symm.trans h
    · exact h htr
  closing tr htr := (hclosing tr htr).1
  count := by
    rw [Roomy, h.fresh, h.history, h.drawn, h.opened]
    exact hs.count
  few := by
    rw [Roomy, h.fresh, h.history, h.opened]
    exact hs.few
  sessions hb := by
    rw [h.history] at hb
    exact hsessions hb.tail

theorem SessionInv.closed (hs : SessionInv worker tr s) (hlive : s.world.liveSessions tr ≠ 0) :
    SessionInv worker tr (s.acted t (.storeLive tr 0) () (s.world.withLive tr 0)
      (s.ghost.close tr true)) := by
  have hlive' : (s.world.withLive tr 0).liveSessions tr = 0 := update_self ..
  refine ⟨.inl hlive', hs.mark_le, fun a ha => ?_, hs.queue_le, hs.queue_mark, fun x hx => ?_,
    hs.run⟩
  · exact .inr (.inr (update_self ..))
  · change _ ∧ _ ∧ (s.world.withLive tr 0).liveSessions tr ≠ x
    rw [hlive']
    rcases hx with ⟨-, -, rfl⟩ | hx
    · exact ⟨hlive, (hs.live.resolve_left hlive).le, hlive.symm⟩
    · obtain ⟨hpos, hle, -⟩ := hs.retired x hx
      exact ⟨hpos, hle, hpos.symm⟩

theorem ServiceLegal.closed (hs : ServiceInv worker s)
    (hmine : s.world.sessionMutexes tr = some t) (hlive : s.world.liveSessions tr ≠ 0) :
    ServiceLegal worker t s (s.acted t (.storeLive tr 0) () (s.world.withLive tr 0)
      (s.ghost.close tr true)) where
  inv := by
    refine hs.steady ⟨rfl, rfl, rfl, rfl, rfl, rfl, rfl⟩ hs.fifo ?_ ?_
    · intro tr' htr'
      change update s.world.liveSessions tr 0 tr' = 0 ∧ _
      by_cases h : tr' = tr
      · subst h
        rw [update_self, hmine]
        exact ⟨rfl, .inr (Option.some_ne_none t)⟩
      · change update s.ghost.closing tr true tr' = true at htr'
        rw [update_of_ne h] at htr' ⊢
        exact ⟨hs.closing tr' htr', .inl htr'⟩
    · intro hb tr'
      by_cases h : tr' = tr
      · subst h
        exact (hs.sessions hb tr').closed hlive
      · apply (hs.sessions hb tr').alike
        refine ⟨update_of_ne h _ _, rfl, rfl, update_of_ne h _ _, id,
          fun _ h _ => h, fun x hx => ?_, fun _ => id⟩
        exact hx.resolve_left fun heq => h heq.1.symm
  event := ⟨_, rfl, rfl, trivial⟩
  held _ _ := by
    apply Kept.of_ne hmine
    intro tr' h
    exact ⟨rfl, update_of_ne h _ _, update_of_ne h _ _, rfl, rfl⟩
  mark _ := rfl
  owed _ := rfl
  pending _ _ := id

def Service.withPending (w : Service T) (tr : Transport) : Service T :=
  { w with pendingDisconnects := update w.pendingDisconnects tr true }

omit [DecidableEq T] in
theorem withPending_mono (tr' : Transport) (h : s.world.pendingDisconnects tr' = true) :
    (s.world.withPending tr).pendingDisconnects tr' = true := by
  change update s.world.pendingDisconnects tr true tr' = true
  by_cases hne : tr' = tr
  · rw [hne, update_self]
  · rw [update_of_ne hne]
    exact h

theorem ServiceLegal.asked (hs : ServiceInv worker s)
    (hmine : s.world.sessionMutexes tr = some t) :
    ServiceLegal worker t s (s.acted t (.fetchOrPending tr) () (s.world.withPending tr)
      (s.ghost.close tr false)) where
  inv := by
    refine hs.steady ⟨rfl, rfl, rfl, rfl, rfl, rfl, rfl⟩ hs.fifo ?_ ?_
    · intro tr' htr'
      have h : tr' ≠ tr := by
        rintro rfl
        cases (update_self ..).symm.trans htr'
      have htr : s.ghost.closing tr' = true := (update_of_ne h ..).symm.trans htr'
      exact ⟨hs.closing tr' htr, .inl htr⟩
    · intro hb tr'
      by_cases h : tr' = tr
      · subst h
        have hs := hs.sessions hb tr'
        have hdue : (s.world.withPending tr').pendingDisconnects tr' = true :=
          update_self ..
        exact ⟨hs.live, hs.mark_le, fun _ _ => .inr (.inl (.inl hdue)), hs.queue_le,
          fun _ _ _ _ _ => .inr (.inl hdue), hs.retired, hs.run⟩
      · apply (hs.sessions hb tr').alike
        exact ⟨rfl, rfl, rfl, update_of_ne h _ _, Or.imp (withPending_mono tr') id,
          fun _ h _ => h, fun _ => id, fun _ => id⟩
  event := ⟨_, rfl, rfl, trivial⟩
  held _ _ := by
    apply Kept.of_ne hmine
    intro tr' h
    exact ⟨rfl, rfl, update_of_ne h _ _, rfl, rfl⟩
  mark _ := rfl
  owed _ := rfl
  pending _ := withPending_mono

theorem ServiceLegal.sent (item : WorkItem) (hs : ServiceInv worker s)
    (hlive : s.world.liveSessions item.transport = item.session) (hne : item.session ≠ 0)
    (hclosing : s.ghost.closing item.transport = false) :
    ServiceLegal worker t s (s.acted t (.send item) true
      { s.world with queue := s.world.queue ++ [item] } s.ghost) where
  inv := by
    refine hs.steady ⟨rfl, rfl, rfl, rfl, rfl, rfl, rfl⟩ ?_ ?_ ?_
    · change item :: accepted s.history = (s.world.queue ++ [item]).reverse ++ received s.history
      rw [hs.fifo]
      simp
    · exact fun tr htr => ⟨hs.closing tr htr, .inl htr⟩
    · intro hb tr
      have hs := hs.sessions hb tr
      refine ⟨hs.live, hs.mark_le, hs.mark_live, fun x hx htr => ?_, fun x hx htr a ha => ?_,
        hs.retired, hs.run⟩
      · rcases List.mem_append.mp hx with hx | hx
        · exact hs.queue_le x hx htr
        · cases List.mem_singleton.mp hx
          subst htr
          rw [← hlive]
          exact (hs.live.resolve_left (hlive ▸ hne)).le
      · rcases List.mem_append.mp hx with hx | hx
        · exact hs.queue_mark x hx htr a ha
        · cases List.mem_singleton.mp hx
          subst htr
          rcases hs.mark_live a ha with h | h | h
          · exact .inl (congrArg BitVec.toNat (hlive.symm.trans h)).le
          · exact .inr h
          · cases hclosing.symm.trans h
  event := ⟨_, rfl, rfl, trivial⟩
  held _ _ _ _ := ⟨rfl, rfl, rfl, rfl, rfl⟩
  mark _ := rfl
  owed _ := rfl
  pending _ _ := id

end Steps

section Worker

variable {worker : T} {s : ServiceState T} {tr : Transport}

variable {item : WorkItem} {u : T} {tr' : Transport} {w : Service T} {h : ServiceHistory T}

theorem ServiceLegal.received {rest : List WorkItem} (hs : ServiceInv worker s)
    (hqueue : s.world.queue = item :: rest) :
    ServiceLegal worker worker s (s.acted worker .receive (some item)
      { s.world with queue := rest } s.ghost) where
  inv := by
    refine hs.steady ⟨rfl, rfl, rfl, rfl, rfl, rfl, rfl⟩ ?_ ?_ ?_
    · change accepted s.history = rest.reverse ++ item :: AirDap.received s.history
      rw [hs.fifo, hqueue]
      simp
    · exact fun tr htr => ⟨hs.closing tr htr, .inl htr⟩
    · intro hb tr
      apply (hs.sessions hb tr).alike
      refine ⟨rfl, rfl, rfl, rfl, id, fun x hx _ => ?_, fun _ => id, fun _ => id⟩
      rw [hqueue]
      exact List.mem_cons_of_mem _ hx
  event := ⟨_, rfl, rfl, rfl⟩
  held _ _ _ _ := ⟨rfl, rfl, rfl, rfl, rfl⟩
  mark h := (h rfl).elim
  owed h := (h rfl).elim
  pending h := (h rfl).elim

theorem ServiceLegal.taken (hs : ServiceInv worker s) (howed : ∀ tr, s.ghost.owed tr = false) :
    ServiceLegal worker worker s (s.acted worker .exchangePending s.world.pendingDisconnects
      { s.world with pendingDisconnects := fun _ => false }
      { s.ghost with owed := s.world.pendingDisconnects }) where
  inv := by
    refine hs.steady ⟨rfl, rfl, rfl, rfl, rfl, rfl, rfl⟩ hs.fifo ?_ ?_
    · exact fun tr htr => ⟨hs.closing tr htr, .inl htr⟩
    · intro hb tr
      apply (hs.sessions hb tr).alike
      refine ⟨rfl, rfl, rfl, rfl, fun h => ?_, fun _ h _ => h, fun _ => id, fun _ => id⟩
      exact .inr (h.resolve_right fun h => by cases (howed tr).symm.trans h)
  event := ⟨_, rfl, rfl, trivial⟩
  held _ _ _ _ := ⟨rfl, rfl, rfl, rfl, rfl⟩
  mark h := (h rfl).elim
  owed h := (h rfl).elim
  pending h := (h rfl).elim

def ServiceGhost.disconnect (γ : ServiceGhost) (tr : Transport) : ServiceGhost :=
  { γ with mark := update γ.mark tr none, owed := update γ.owed tr false }

theorem lastRun_closed :
    lastRun worker tr' (.acted u (.sessionClosed tr.owner) () w :: h) =
      if tr' = tr then none else lastRun worker tr' h := by
  change (if tr.owner = tr'.owner then none else lastRun worker tr' h) = _
  simp only [Transport.owner_injective.eq_iff, eq_comm]

theorem ServiceLegal.disconnected (tr : Transport) (hs : ServiceInv worker s) :
    ServiceLegal worker worker s (s.acted worker (.sessionClosed tr.owner) () s.world
      (s.ghost.disconnect tr)) where
  inv := by
    refine hs.steady ⟨rfl, rfl, rfl, rfl, rfl, rfl, rfl⟩ hs.fifo ?_ ?_
    · exact fun tr htr => ⟨hs.closing tr htr, .inl htr⟩
    · intro hb tr'
      have hs := hs.sessions hb tr'
      by_cases h : tr' = tr
      · subst h
        have hmark : ∀ a, (s.ghost.disconnect tr').mark tr' ≠ some a := by
          intro a ha
          cases (update_self ..).symm.trans ha
        refine ⟨hs.live, fun a ha => (hmark a ha).elim, fun a ha => (hmark a ha).elim,
          hs.queue_le, fun _ _ _ a ha => (hmark a ha).elim, hs.retired, fun a ha => ?_⟩
        cases (lastRun_closed.trans (if_pos rfl)).symm.trans ha
      · apply hs.alike
        refine ⟨rfl, rfl, update_of_ne h _ _, rfl, fun hd => ?_, fun _ h _ => h,
          fun _ => id, fun a ha => ?_⟩
        · exact hd.imp id fun ho => (update_of_ne h _ _).trans ho
        · exact (lastRun_closed.trans (if_neg h)).symm.trans ha
  event := ⟨_, rfl, rfl, rfl⟩
  held _ _ _ _ := ⟨rfl, rfl, rfl, rfl, rfl⟩
  mark h := (h rfl).elim
  owed h := (h rfl).elim
  pending h := (h rfl).elim

/-- The worker finds the session of its request live, which is then the one it has admitted
before, if it has admitted one. -/
theorem ServiceLegal.admitted {session : Word} (hs : ServiceInv worker s)
    (hlive : s.world.liveSessions tr = session) (hne : session ≠ 0)
    (hmark : Bounded s.history → ∀ a, s.ghost.mark tr = some a → a = session) :
    ServiceLegal worker worker s (s.acted worker (.loadLive tr) session s.world
      { s.ghost with mark := update s.ghost.mark tr (some session) }) where
  inv := by
    refine hs.steady ⟨rfl, rfl, rfl, rfl, rfl, rfl, rfl⟩ hs.fifo ?_ ?_
    · exact fun tr htr => ⟨hs.closing tr htr, .inl htr⟩
    · intro hb tr'
      have hs := hs.sessions hb tr'
      by_cases h : tr' = tr
      · subst h
        have hlast : session.toNat = s.ghost.last tr' := hlive ▸ hs.live.resolve_left (hlive ▸ hne)
        have hnew : ∀ a, update s.ghost.mark tr' (some session) tr' = some a →
            session = a := by
          intro a ha
          rw [update_self] at ha
          exact Option.some.inj ha
        refine ⟨hs.live, fun a ha => ?_, fun a ha => ?_, hs.queue_le,
          fun item hitem htr a ha => ?_, hs.retired, fun a ha => ?_⟩
        · cases hnew a ha
          exact ⟨hne, hlast.le⟩
        · exact .inl (hlive.trans (hnew a ha))
        · cases hnew a ha
          exact .inl ((hs.queue_le item hitem htr).trans_eq hlast.symm)
        · cases hmark hb a (hs.run a ha)
          exact update_self ..
      · apply hs.alike
        exact ⟨rfl, rfl, update_of_ne h _ _, rfl, id, fun _ h _ => h, fun _ => id,
          fun _ => id⟩
  event := ⟨_, rfl, rfl, trivial⟩
  held _ _ _ _ := ⟨rfl, rfl, rfl, rfl, rfl⟩
  mark h := (h rfl).elim
  owed h := (h rfl).elim
  pending h := (h rfl).elim

theorem lastRun_process {request response : List Byte} {capacity : ℕ} :
    lastRun worker tr' (.acted u (.process tr.owner request capacity) response w :: h) =
      if tr' = tr then (workTrace worker h).item.map WorkItem.session
      else lastRun worker tr' h := by
  change (if tr.owner = tr'.owner then _ else lastRun worker tr' h) = _
  simp only [Transport.owner_injective.eq_iff, eq_comm]

theorem ServiceLegal.executed (capacity : ℕ) (response : List Byte) (hs : ServiceInv worker s)
    (hitem : Executable worker s.history item)
    (hmark : s.ghost.mark item.transport = some item.session) :
    ServiceLegal worker worker s (s.acted worker
      (.process item.transport.owner item.request capacity) response s.world s.ghost) where
  inv := by
    refine hs.steady ⟨rfl, rfl, rfl, rfl, rfl, rfl, rfl⟩ hs.fifo ?_ ?_
    · exact fun tr htr => ⟨hs.closing tr htr, .inl htr⟩
    · intro hb tr
      have hs := hs.sessions hb tr
      refine ⟨hs.live, hs.mark_le, hs.mark_live, hs.queue_le, hs.queue_mark, hs.retired,
        fun a ha => ?_⟩
      change lastRun worker tr (_ :: s.history) = some a at ha
      rw [lastRun_process] at ha
      split at ha
      · subst tr
        rw [hitem.hand] at ha
        exact hmark.trans ha
      · exact hs.run a ha
  event := ⟨_, rfl, rfl, rfl, item, hitem, rfl, rfl⟩
  held _ _ _ _ := ⟨rfl, rfl, rfl, rfl, rfl⟩
  mark h := (h rfl).elim
  owed h := (h rfl).elim
  pending h := (h rfl).elim

end Worker
end AirDap

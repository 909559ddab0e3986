import AirDap.UsbIp.Completion

/-! What a step of a session does to the bytes that are on their way to the peer, as long as no
task has failed. -/
namespace AirDap
open Function

namespace WorkerPlace

/-- A response that the worker has not put with the others yet. -/
def held : WorkerPlace → List Byte
  | .answered _ response => response
  | _ => []

/-- The URB of the worker, until the device has answered it. -/
def unanswered : WorkerPlace → List ℕ
  | .taken urb | .started urb | .spacing urb | .waiting urb | .rechecking urb
  | .requesting urb => [urb.arc]
  | _ => []

end WorkerPlace

/-- The bytes on their way to the peer, and the DAP requests that the device has not answered, in
the order in which they are served. -/
structure Flow where
  state : UsbState
  held : List Byte
  answers : List (Urb × List Byte)
  order : List ℕ
  accepted : ℕ
  reader : ReaderPlace
  buffered : List Byte
  reads : List Byte

namespace UsbSession

variable (x : UsbSession)

def flow : Flow where
  state := x.state
  held := (x.places .dap).held
  answers := x.answers
  order := (x.places .dap).unanswered ++ (x.queues .dap).map Urb.arc
  accepted := x.accepted.length
  reader := x.reader
  buffered := x.buffered
  reads := x.reads

/-- The step handles SET_CONTROL_LINE_STATE. -/
def Raises (action : UsbAction) : Prop :=
  ∃ worker answer urb value, action = .work worker answer ∧ x.places worker = .raising urb value

end UsbSession

namespace UsbState

/-- The parts of two states that are about bytes and URBs are the same. -/
def Same (s t : UsbState) : Prop :=
  t.pending = s.pending ∧ t.responses = s.responses ∧ t.notification = s.notification ∧
    t.sent = s.sent

/-- A state with one more pending URB. -/
def push (s : UsbState) (urb : Urb) : UsbState := { s with pending := s.pending ++ [urb] }

end UsbState

/-- What a step does to the flow; `raises` is what is known of one that handles
SET_CONTROL_LINE_STATE. -/
inductive FlowStep (raises : Prop) (f : Flow) : Flow → Prop
  | quiet (s : UsbState) (order : List ℕ) (hsame : f.state.Same s)
      (horder : order.Sublist f.order) : FlowStep raises f { f with state := s, order := order }
  | complete (urb : Urb) (data : List Byte) (status : ℤ) (s : UsbState)
      (h : f.state.complete urb data status = (s, true))
      (hdata : urb.direction = .input → urb.ep = 0 ∨ data = []) :
      FlowStep raises f { f with state := s }
  | unlink (urb : Urb) (s : UsbState) (h : f.state.unlink urb = (s, true)) :
      FlowStep raises f { f with state := s }
  | queue (urb : Urb) (order : List ℕ) (harc : urb.arc = f.accepted)
      (hurb : urb.direction = .output ∨ urb.ep = 0)
      (horder : order = f.order ∨ order = f.order ++ [urb.arc]) :
      FlowStep raises f
        { f with state := f.state.push urb, order := order, accepted := f.accepted + 1 }
  | refuse (urb : Urb) (status : ℤ) (s : UsbState) (harc : urb.arc = f.accepted)
      (h : (f.state.push urb).complete urb [] status = (s, true)) :
      FlowStep raises f { f with state := s, accepted := f.accepted + 1 }
  | offer (urb : Urb) (s : UsbState) (harc : urb.arc = f.accepted)
      (h : (f.state.push urb).flush = (s, true)) :
      FlowStep raises f { f with state := s, accepted := f.accepted + 1 }
  | raise (value : BitVec 16) (s : UsbState) (hraises : raises)
      (h : { f.state with lineState := value, notification := UsbSession.serialState }.flush =
        (s, true)) : FlowStep raises f { f with state := s }
  | hold (urb : Urb) (response : List Byte) (order : List ℕ) (hheld : f.held = [])
      (horder : f.order = urb.arc :: order) (hserves : UsbWorker.dap.Serves urb) :
      FlowStep raises f
        { f with held := response, answers := f.answers ++ [(urb, response)], order := order }
  | release (urb : Urb) (s t : UsbState)
      (hurb : UsbWorker.dap.Serves urb)
      (hcomplete : { f.state with responses := f.state.responses ++ [f.held] }.complete urb [] 0 =
        (t, true))
      (h : t.flush = (s, true)) : FlowStep raises f { f with state := s, held := [] }
  | poll (reader : ReaderPlace)
      (hreader : ∀ capacity, reader = .reading capacity → f.buffered = []) :
      FlowStep raises f { f with reader := reader }
  | fetch (capacity : ℕ) (bytes : List Byte) (hreader : f.reader = .reading capacity) :
      FlowStep raises f
        { f with reader := .delivering, buffered := bytes, reads := f.reads ++ bytes }
  | deliver (urb : Urb) (s : UsbState) (hurb : f.state.firstInput 3 = some urb)
      (h : f.state.complete urb (f.buffered.take (min urb.size f.buffered.length)) 0 = (s, true)) :
      FlowStep raises f { f with
        state := s
        reader := .polling
        buffered := f.buffered.drop (min urb.size f.buffered.length) }

namespace UsbState.Same

variable {s t : UsbState}

theorem refl (s : UsbState) : s.Same s := ⟨rfl, rfl, rfl, rfl⟩

end UsbState.Same

namespace UsbSession

variable {d : Descriptors} {x : UsbSession} {worker : UsbWorker} {place : WorkerPlace} {urb : Urb}
  {raises : Prop}

theorem flowStep_refl (x : UsbSession) : FlowStep raises x.flow x.flow :=
  .quiet x.state x.flow.order (.refl _) (.refl _)

/-- The worker goes on to a place with the same bytes, and without a request or with the same. -/
theorem flow_enter {p : WorkerPlace} (hplace : x.places worker = p) (hheld : place.held = p.held)
    (horder : place.unanswered.Sublist p.unanswered) :
    ∃ order, order.Sublist x.flow.order ∧
      (x.enter worker place).flow = { x.flow with order := order } := by
  by_cases hdap : worker = .dap
  · subst hdap
    rw [← hplace] at hheld horder
    refine ⟨place.unanswered ++ (x.queues .dap).map Urb.arc, horder.append_right _, ?_⟩
    simp only [flow, enter, update_self, hheld]
  · refine ⟨x.flow.order, .refl _, ?_⟩
    simp only [flow, enter, update_of_ne (Ne.symm hdap)]

theorem flowStep_enter {s : UsbState} {p : WorkerPlace} (hsame : x.state.Same s)
    (hplace : x.places worker = p) (hheld : place.held = p.held)
    (horder : place.unanswered.Sublist p.unanswered) :
    FlowStep raises x.flow ({ x.enter worker place with state := s }).flow := by
  obtain ⟨order, hsub, hflow⟩ := flow_enter hplace hheld horder
  have heq : ({ x.enter worker place with state := s }).flow =
      { (x.enter worker place).flow with state := s } := rfl
  rw [heq, hflow]
  exact .quiet s order hsame hsub

theorem flow_enter_eq {p : WorkerPlace} (place : WorkerPlace) (s : UsbState)
    (hplace : x.places worker = p) (hheld : place.held = p.held)
    (horder : place.unanswered = p.unanswered) :
    ({ x.enter worker place with state := s }).flow = { x.flow with state := s } := by
  by_cases hdap : worker = .dap
  · subst hdap
    rw [← hplace] at hheld horder
    simp only [flow, enter, update_self, hheld, horder]
  · simp only [flow, enter, update_of_ne (Ne.symm hdap)]

theorem locked_ok {result : UsbState × Bool} (h : (x.locked worker result place).failed = false) :
    result.2 = true ∧ x.failed = false ∧
      x.locked worker result place = { x.enter worker place with state := result.1 } := by
  unfold locked at h ⊢
  split_ifs at h ⊢ with hresult
  · exact ⟨hresult, h, rfl⟩
  · cases h

theorem received_ok {result : UsbState × Bool} (h : (x.received result).failed = false) :
    result.2 = true ∧ x.failed = false ∧ x.received result = { x with state := result.1 } := by
  unfold received at h ⊢
  split_ifs at h ⊢ with hresult
  exact ⟨hresult, h, rfl⟩

/-- A step that leaves a session without a failure, by a function of the model. -/
def Flows (raises : Prop) (x x' : UsbSession) : Prop :=
  x'.failed = false → x.failed = false ∧ FlowStep raises x.flow x'.flow

theorem flows_of_failed {y : UsbSession} (hy : y.failed = true) : Flows raises x y :=
  fun h => absurd (hy.symm.trans h) (by decide)

theorem flows_stop : Flows raises x (x.stop worker) := flows_of_failed rfl

theorem flows_refl : Flows raises x x := fun h => ⟨h, flowStep_refl x⟩

theorem flows_enter {p : WorkerPlace} (hplace : x.places worker = p) (hheld : place.held = p.held)
    (horder : place.unanswered.Sublist p.unanswered) : Flows raises x (x.enter worker place) :=
  fun h => ⟨h, flowStep_enter (.refl _) hplace hheld horder⟩

theorem flows_locked_same {result : UsbState × Bool} {p : WorkerPlace}
    (hsame : x.state.Same result.1) (hplace : x.places worker = p) (hheld : place.held = p.held)
    (horder : place.unanswered.Sublist p.unanswered) :
    Flows raises x (x.locked worker result place) := by
  intro h
  obtain ⟨-, hfailed, heq⟩ := locked_ok h
  rw [heq]
  exact ⟨hfailed, flowStep_enter hsame hplace hheld horder⟩

theorem held_reply (urb : Urb) (data : Option (List Byte)) :
    (replyPlace urb data).held = [] ∧ (replyPlace urb data).unanswered = [] := by
  cases data <;> exact ⟨rfl, rfl⟩

theorem flows_startControl (hplace : x.places .control = .started urb) :
    Flows raises x (startControl d x urb) := by
  have hnil (data : Option (List Byte)) : (replyPlace urb data).unanswered.Sublist [urb.arc] := by
    rw [(held_reply urb data).2]
    exact List.nil_sublist _
  unfold startControl
  split
  next data _ => exact flows_enter hplace (held_reply urb data).1 (hnil data)
  next =>
    split_ifs
    · exact flows_stop
    · exact flows_locked_same ⟨rfl, rfl, rfl, rfl⟩ hplace (held_reply urb _).1 (hnil _)
  next => split_ifs <;> exact flows_enter hplace rfl (List.nil_sublist _)
  next => split_ifs <;> exact flows_enter hplace rfl (List.nil_sublist _)

theorem flows_begin (hplace : x.places worker = .started urb) :
    Flows raises x (begin d x worker urb) := by
  unfold begin
  cases worker with
  | control => exact flows_startControl hplace
  | dap =>
    dsimp only
    split_ifs
    · exact flows_enter hplace rfl (.refl _)
    · exact flows_enter hplace rfl (List.nil_sublist _)
  | uart =>
    dsimp only
    split_ifs <;> exact flows_enter hplace rfl (List.nil_sublist _)

theorem flows_finishing (hx : x.Sound) {data : List Byte} {status : ℤ}
    (hplace : x.places worker = .finishing urb data status) :
    Flows raises x (x.locked worker (x.state.complete urb data status) .idle) := by
  intro h
  obtain ⟨hok, hfailed, heq⟩ := locked_ok h
  have hurb := hx.places worker
  rw [hplace] at hurb
  have hdata : urb.direction = .input → urb.ep = 0 ∨ data = [] := by
    intro hinput
    cases worker with
    | control => exact .inl (hurb.1 urb rfl).2
    | dap | uart => exact .inr (hurb.2.2 (by decide))
  rw [heq, flow_enter_eq .idle _ hplace rfl rfl]
  exact ⟨hfailed, .complete urb data status _ (Prod.ext rfl hok) hdata⟩

theorem flows_requesting (hx : x.Sound) (hplace : x.places worker = .requesting urb)
    (response : List Byte) : Flows raises x ({ x.enter worker (.answered urb response) with
      answers := x.answers ++ [(urb, response)] }) := by
  have hurb := hx.places worker
  rw [hplace] at hurb
  obtain rfl : worker = .dap := hurb.2
  have hflow : ({ x.enter .dap (.answered urb response) with
      answers := x.answers ++ [(urb, response)] }).flow = { x.flow with
        held := response
        answers := x.flow.answers ++ [(urb, response)]
        order := (x.queues .dap).map Urb.arc } := by
    simp only [flow, enter, update_self]
    rfl
  intro h
  rw [hflow]
  refine ⟨h, .hold urb response _ ?_ ?_ (hurb.1 urb rfl).2⟩ <;>
  · simp only [flow, hplace]
    rfl

theorem flows_work (hx : x.Sound) (worker : UsbWorker) (answer : BackendAnswer) :
    Flows (x.Raises (.work worker answer)) x (work d x worker answer) := by
  obtain ⟨place, hplace⟩ : ∃ place, x.places worker = place := ⟨_, rfl⟩
  have hurb := hx.places worker
  unfold work
  rw [hplace] at hurb ⊢
  cases place with
  | answered urb response =>
    obtain rfl : worker = .dap := hurb.2
    have hflow : ∀ s, ({ x.enter .dap .idle with state := s }).flow =
        { x.flow with state := s, held := [] } := by
      intro s
      simp only [flow, enter, update_self, hplace]
      rfl
    have hheld : x.flow.held = response := by
      simp only [flow, hplace]
      rfl
    dsimp only
    split_ifs with hcomplete
    · intro h
      obtain ⟨hok, hfailed, heq⟩ := locked_ok h
      rw [heq, hflow]
      refine ⟨hfailed, .release urb _ _ (hurb.1 urb rfl).2 ?_ (Prod.ext rfl hok)⟩
      rw [hheld]
      exact Prod.ext rfl hcomplete
    · exact flows_of_failed rfl
  | idle =>
    dsimp only
    split
    next => exact flows_refl
    next urb rest hqueue =>
      have hflow : ({ x.enter worker (.taken urb) with
          queues := update x.queues worker rest }).flow = x.flow := by
        by_cases hdap : worker = .dap
        · subst hdap
          simp only [flow, enter, update_self, hplace, hqueue]
          rfl
        · simp only [flow, enter, update_of_ne (Ne.symm hdap)]
      intro h
      rw [hflow]
      exact ⟨h, flowStep_refl x⟩
  | taken urb =>
    dsimp only
    split_ifs
    · exact fun h => ⟨h, flowStep_enter (.refl _) hplace rfl (.refl _)⟩
    · exact flows_enter hplace rfl (List.nil_sublist _)
  | started urb => exact flows_begin hplace
  | configuring urb coding after =>
    cases answer with
    | failed => exact flows_stop
    | ok bytes =>
      cases after <;> exact fun h => ⟨h, flowStep_enter (.refl _) hplace rfl (.refl _)⟩
  | storing urb coding => exact flows_locked_same ⟨rfl, rfl, rfl, rfl⟩ hplace rfl (.refl _)
  | raising urb value =>
    intro h
    obtain ⟨hflush, hfailed, heq⟩ := locked_ok h
    dsimp only
    rw [heq, flow_enter_eq (replyPlace urb (some [])) _ hplace rfl rfl]
    exact ⟨hfailed, .raise value _ ⟨worker, answer, urb, value, rfl, hplace⟩
      (Prod.ext rfl hflush)⟩
  | spacing urb =>
    dsimp only
    split_ifs <;> exact flows_enter hplace rfl (.refl _)
  | waiting urb =>
    dsimp only
    split_ifs
    · exact flows_locked_same ⟨rfl, rfl, rfl, rfl⟩ hplace rfl (.refl _)
    · exact flows_refl
  | rechecking urb =>
    dsimp only
    split_ifs
    · exact flows_enter hplace rfl (.refl _)
    · exact flows_enter hplace rfl (List.nil_sublist _)
  | requesting urb =>
    cases answer with
    | failed => exact flows_stop
    | ok response =>
      dsimp only
      split_ifs
      · exact flows_requesting hx hplace response
      · exact flows_stop
  | writing urb =>
    cases answer with
    | failed => exact flows_stop
    | ok bytes => exact flows_enter hplace rfl (.refl _)
  | finishing urb data status => exact flows_finishing hx hplace
  | stopped => exact flows_refl

theorem workerOf_some (h : workerOf urb = some worker) : urb.direction = .output ∨ urb.ep = 0 := by
  have hserves := serves_workerOf h
  cases worker with
  | control => exact .inr hserves
  | dap => exact .inl hserves.2
  | uart => exact .inl hserves.2

theorem flows_submit (harc : urb.arc = x.accepted.length) : Flows raises x (x.submit urb) := by
  have hflow : ∀ s, ({ x.accept urb with state := s }).flow =
      { x.flow with state := s, accepted := x.flow.accepted + 1 } := by
    intro s
    simp only [flow, accept, List.length_append, List.length_singleton]
  have hrefuse : ∀ status, Flows raises x
      ((x.accept urb).received ((x.accept urb).state.complete urb [] status)) := by
    intro status h
    obtain ⟨hok, hfailed, heq⟩ := received_ok h
    rw [heq, hflow]
    exact ⟨hfailed, .refuse urb status _ harc (Prod.ext rfl hok)⟩
  unfold submit
  split_ifs
  · unfold dispatch
    split
    next worker hworker =>
      split_ifs
      · intro h
        refine ⟨h, ?_⟩
        have hqueue : ∃ order, (order = x.flow.order ∨ order = x.flow.order ++ [urb.arc]) ∧
            ({ x.accept urb with
              queues := update x.queues worker (x.queues worker ++ [urb]) }).flow =
              { x.flow with
                state := x.flow.state.push urb
                order := order
                accepted := x.flow.accepted + 1 } := by
          by_cases hdap : worker = .dap
          · subst hdap
            refine ⟨_, .inr rfl, ?_⟩
            simp [flow, accept, UsbState.push]
          · refine ⟨_, .inl rfl, ?_⟩
            simp [flow, accept, UsbState.push, update_of_ne (Ne.symm hdap)]
        obtain ⟨order, horder, hqueue⟩ := hqueue
        have hstep : FlowStep raises x.flow ({ x.accept urb with
            queues := update x.queues worker (x.queues worker ++ [urb]) }).flow := by
          rw [hqueue]
          exact .queue urb order harc (workerOf_some hworker) horder
        exact hstep
      · exact hrefuse _
    next =>
      split_ifs
      · exact hrefuse _
      · intro h
        obtain ⟨hok, hfailed, heq⟩ := received_ok h
        rw [heq, hflow]
        exact ⟨hfailed, .offer urb _ harc (Prod.ext rfl hok)⟩
      · exact hrefuse _
  · exact flows_of_failed rfl

theorem flows_receive (header data : List Byte) : Flows raises x (x.receive header data) := by
  unfold receive
  split_ifs
  · exact flows_refl
  · split
    next => exact flows_of_failed rfl
    next urb _ =>
      split_ifs
      · unfold unlink
        intro h
        obtain ⟨hok, hfailed, heq⟩ := received_ok h
        rw [Bool.and_eq_true] at hok
        rw [heq]
        exact ⟨hfailed, .unlink urb _ (Prod.ext rfl hok.1)⟩
      · exact flows_of_failed rfl
      · exact flows_submit rfl

theorem flows_read (answer : BackendAnswer) : Flows raises x (x.read answer) := by
  unfold UsbSession.read
  split
  next =>
    split
    next => exact flows_refl
    next urb _ =>
      refine fun h => ⟨h, .poll _ fun capacity hreading => ?_⟩
      split_ifs at hreading with hempty
      exact hempty
  next capacity hreader =>
    split
    next => exact flows_of_failed rfl
    next response =>
      split_ifs
      · exact fun h => ⟨h, .fetch capacity (response.drop 4) hreader⟩
      · exact flows_of_failed rfl
  next =>
    split
    next => exact fun h => ⟨h, .poll _ fun _ hreading => by cases hreading⟩
    next urb hurb =>
      dsimp only
      split_ifs with hempty hok
      · exact fun h => ⟨h, .poll _ fun _ hreading => by cases hreading⟩
      · exact fun h => ⟨h, .deliver urb _ hurb (Prod.ext rfl hok)⟩
      · exact flows_of_failed rfl
  next => exact flows_refl

/-- What a step of a session does to the flow, unless a task fails in it. -/
theorem flows_step (hx : x.Sound) (action : UsbAction) :
    Flows (x.Raises action) x (step d x action) := by
  cases action with
  | receive header data => exact flows_receive header data
  | work worker answer => exact flows_work hx worker answer
  | read answer => exact flows_read answer
  | write =>
    unfold step
    dsimp only
    split_ifs
    · exact fun h => ⟨h, .quiet _ _ ⟨rfl, rfl, rfl, rfl⟩ (.refl _)⟩
    · exact flows_refl
  | closeWriter => exact flows_of_failed rfl
  | fail => exact flows_of_failed rfl

end UsbSession

end AirDap

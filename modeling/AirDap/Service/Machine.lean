import AirDap.Concurrency.RelyGuarantee
import AirDap.Dap.Backend

/-! The DAP service: one worker takes the requests of both transports from a queue, while any
threads open, close and reset sessions and submit requests. -/
namespace AirDap
open Concurrency Function

/-- `dap_work_item_t`. A pointer is the word of its address, and zero is the null pointer. -/
structure WorkItem where
  transport : Transport
  session : Word
  responseToken : Word
  responseCallback : Word
  responseContext : Word
  queuedAtUs : ℤ
  request : List Byte
  deriving DecidableEq

/-- A call of the response callback. -/
structure Delivery where
  responseCallback : Word
  responseContext : Word
  transport : Transport
  session : Word
  responseToken : Word
  response : List Byte
  deriving DecidableEq

def WorkItem.delivery (item : WorkItem) (response : List Byte) : Delivery where
  responseCallback := item.responseCallback
  responseContext := item.responseContext
  transport := item.transport
  session := item.session
  responseToken := item.responseToken
  response

inductive ServiceCounter where
  | requestsAccepted | requestsProcessed | responsesDelivered | queueFull | timedOut
  | staleRequests | staleResponses | deliveryFailures
  deriving DecidableEq

/-- The variables of the service. The bits of `pending_disconnects` are a function of the
transport, and a mutex shows the thread that has taken it. -/
structure Service (T : Type) where
  initialized : Bool
  nextSession : Word
  liveSessions : Transport → Word
  pendingDisconnects : Transport → Bool
  sessionMutexes : Transport → Option T
  queue : List WorkItem
  stats : ServiceCounter → Word

inductive ServiceAct where
  | loadInitialized
  | lock (transport : Transport)
  | unlock (transport : Transport)
  | loadLive (transport : Transport)
  | storeLive (transport : Transport) (session : Word)
  | fetchAddSession
  | fetchOrPending (transport : Transport)
  | exchangePending
  | send (item : WorkItem)
  | receive
  | getTime
  | process (owner : Owner) (request : List Byte) (responseCapacity : ℕ)
  | sessionClosed (owner : Owner)
  | deliver (delivery : Delivery)
  | count (counter : ServiceCounter)

@[reducible] def ServiceAct.Answer : ServiceAct → Type
  | .loadInitialized | .lock _ | .send _ | .deliver _ => Bool
  | .unlock _ | .storeLive _ _ | .fetchOrPending _ | .sessionClosed _ | .count _ => Unit
  | .loadLive _ | .fetchAddSession => Word
  | .exchangePending => Transport → Bool
  | .receive => Option WorkItem
  | .getTime => ℤ
  | .process _ _ _ => List Byte

def dapQueueDepth : ℕ := 4
def dapServiceRequestTimeoutUs : ℤ := 1000000

/-- A lock blocks until the mutex is free, or fails. The clock, the processor and the response
callback may answer anything. -/
def Service.exec {T : Type} (t : T) (w : Service T) :
    (a : ServiceAct) → a.Answer → Service T → Prop
  | .loadInitialized, r, w' => r = w.initialized ∧ w' = w
  | .lock tr, r, w' =>
    (r = true ∧ w.sessionMutexes tr = none ∧
      w' = { w with sessionMutexes := update w.sessionMutexes tr (some t) }) ∨
    (r = false ∧ w' = w)
  | .unlock tr, _, w' =>
    w' = { w with sessionMutexes := update w.sessionMutexes tr none }
  | .loadLive tr, r, w' => r = w.liveSessions tr ∧ w' = w
  | .storeLive tr session, _, w' =>
    w' = { w with liveSessions := update w.liveSessions tr session }
  | .fetchAddSession, r, w' =>
    r = w.nextSession ∧ w' = { w with nextSession := w.nextSession + 1 }
  | .fetchOrPending tr, _, w' =>
    w' = { w with pendingDisconnects := update w.pendingDisconnects tr true }
  | .exchangePending, r, w' =>
    r = w.pendingDisconnects ∧ w' = { w with pendingDisconnects := fun _ => false }
  | .send item, r, w' =>
    (w.queue.length < dapQueueDepth ∧ r = true ∧ w' = { w with queue := w.queue ++ [item] }) ∨
    (dapQueueDepth ≤ w.queue.length ∧ r = false ∧ w' = w)
  | .receive, r, w' => r = w.queue.head? ∧ w' = { w with queue := w.queue.tail }
  | .count counter, _, w' =>
    w' = { w with stats := update w.stats counter (w.stats counter + 1) }
  | .getTime, _, w' | .process _ _ _, _, w' | .sessionClosed _, _, w' | .deliver _, _, w' => w' = w

abbrev ServiceCode (α : Type) := Prog ServiceAct ServiceAct.Answer α

/-- `airdap_dap_service_result_t`. -/
inductive ServiceResult where
  | ok | invalidArgument | invalidState | busy | staleSession | queueFull | unauthenticated
  deriving DecidableEq

section Code

def serviceAct (a : ServiceAct) : ServiceCode a.Answer := .act a .ret

def closeIfPending (pending : Transport → Bool) (tr : Transport) : ServiceCode Unit :=
  if pending tr then serviceAct (.sessionClosed tr.owner) else pure ()

def processPendingDisconnects : ServiceCode Bool := do
  let pending ← serviceAct .exchangePending
  if !pending .usb && !pending .network then pure false
  else do
    closeIfPending pending .usb
    closeIfPending pending .network
    pure true

def requestTimedOut (item : WorkItem) (nowUs : ℤ) : Bool :=
  nowUs ≥ item.queuedAtUs && nowUs - item.queuedAtUs ≥ dapServiceRequestTimeoutUs

variable (tr : Transport) (session : Word)

def sessionIsLive : ServiceCode Bool :=
  if session = 0 then pure false
  else do
    let live ← serviceAct (.loadLive tr)
    pure (live = session)

/-- What the worker does with a response under the mutex of the transport. -/
def deliverResponse (item : WorkItem) (response : List Byte) : ServiceCode Bool := do
  if !(← serviceAct (.lock item.transport)) then do
    serviceAct (.count .deliveryFailures)
    pure true
  else do
    if !(← sessionIsLive item.transport item.session) then do
      serviceAct (.count .staleResponses)
      serviceAct (.unlock item.transport)
      pure true
    else do
      let delivered ← serviceAct (.deliver (item.delivery response))
      serviceAct (.unlock item.transport)
      serviceAct (.count (if delivered then .responsesDelivered else .deliveryFailures))
      pure true

/-- What the worker does with a request that it may execute. -/
def executeRequest (item : WorkItem) : ServiceCode Bool := do
  let response ← serviceAct (.process item.transport.owner item.request dapPacketSize)
  serviceAct (.count .requestsProcessed)
  if response.length = 0 then pure true
  else if response.length > dapPacketSize then do
    serviceAct (.count .deliveryFailures)
    pure true
  else do
    if requestTimedOut item (← serviceAct .getTime) then do
      serviceAct (.count .timedOut)
      pure true
    else deliverResponse item response

/-- `airdap_dap_service_process_next`. -/
def processNext : ServiceCode Bool := do
  let didWork ← processPendingDisconnects
  match ← serviceAct .receive with
  | none => pure didWork
  | some item => do
    let _ ← processPendingDisconnects
    if !(← sessionIsLive item.transport item.session) then do
      serviceAct (.count .staleRequests)
      pure true
    else do
      if requestTimedOut item (← serviceAct .getTime) then do
        serviceAct (.count .timedOut)
        pure true
      else executeRequest item

/-- What the calls of a transport have in common: they check that the service is initialized
and run their body under the mutex of the transport. -/
def withSession {α : Type} (tr : Transport) (refused : α) (body : ServiceCode α) :
    ServiceCode α := do
  if !(← serviceAct .loadInitialized) then pure refused
  else do
    if !(← serviceAct (.lock tr)) then pure refused
    else do
      let result ← body
      serviceAct (.unlock tr)
      pure result

/-- The loop that skips the session zero. -/
def nextSessionLoop : ℕ → ServiceCode Word
  | 0 => .spent
  | rounds + 1 => do
    let session ← serviceAct .fetchAddSession
    if session = 0 then nextSessionLoop rounds else pure session

def openBody (rounds : ℕ) (tr : Transport) : ServiceCode (ServiceResult × Option Word) := do
  if (← serviceAct (.loadLive tr)) ≠ 0 then pure (.busy, none)
  else do
    let session ← nextSessionLoop rounds
    serviceAct (.storeLive tr session)
    pure (.ok, some session)

/-- `airdap_dap_service_session_open`; `out` tells whether the pointer for the session is
there, and a transport out of range is `none`. -/
def sessionOpen (rounds : ℕ) (transport : Option Transport) (authenticated out : Bool) :
    ServiceCode (ServiceResult × Option Word) :=
  match transport with
  | none => pure (.invalidArgument, none)
  | some tr =>
    if !out then pure (.invalidArgument, none)
    else do
      if !(← serviceAct .loadInitialized) then pure (.invalidState, none)
      else if tr = .network ∧ authenticated = false then pure (.unauthenticated, none)
      else do
        if !(← serviceAct (.lock tr)) then pure (.invalidState, none)
        else do
          let result ← openBody rounds tr
          serviceAct (.unlock tr)
          pure result

def closeBody : ServiceCode ServiceResult := do
  if !(← sessionIsLive tr session) then pure .staleSession
  else do
    serviceAct (.storeLive tr 0)
    serviceAct (.fetchOrPending tr)
    pure .ok

/-- `airdap_dap_service_session_close`. -/
def sessionClose (transport : Option Transport) (session : Word) : ServiceCode ServiceResult :=
  match transport with
  | none => pure .invalidArgument
  | some tr =>
    if session = 0 then pure .invalidArgument
    else withSession tr .invalidState (closeBody tr session)

def resetBody : ServiceCode ServiceResult := do
  if !(← sessionIsLive tr session) then pure .staleSession
  else do
    serviceAct (.fetchOrPending tr)
    pure .ok

/-- `airdap_dap_service_session_reset`. -/
def sessionReset (transport : Option Transport) (session : Word) : ServiceCode ServiceResult :=
  match transport with
  | none => pure .invalidArgument
  | some tr =>
    if session = 0 then pure .invalidArgument
    else withSession tr .invalidState (resetBody tr session)

/-- The arguments of a submit. The bytes behind the request pointer are `none` if it is the
null pointer. -/
structure Submission where
  transport : Option Transport
  session : Word
  request : Option (List Byte)
  responseToken : Word
  responseCallback : Word
  responseContext : Word
  deriving DecidableEq

def Submission.item (sub : Submission) (tr : Transport) (request : List Byte) (queuedAtUs : ℤ) :
    WorkItem where
  transport := tr
  session := sub.session
  responseToken := sub.responseToken
  responseCallback := sub.responseCallback
  responseContext := sub.responseContext
  queuedAtUs
  request

def submitBody (sub : Submission) (tr : Transport) (request : List Byte) :
    ServiceCode ServiceResult := do
  if !(← sessionIsLive tr sub.session) then pure .staleSession
  else do
    let queuedAtUs ← serviceAct .getTime
    if !(← serviceAct (.send (sub.item tr request queuedAtUs))) then do
      serviceAct (.count .queueFull)
      pure .queueFull
    else do
      serviceAct (.count .requestsAccepted)
      pure .ok

/-- `airdap_dap_service_submit`. -/
def serviceSubmit (sub : Submission) : ServiceCode ServiceResult :=
  match sub.transport, sub.request with
  | some tr, some request =>
    if sub.session = 0 ∨ request.length = 0 ∨ request.length > dapPacketSize ∨
        sub.responseCallback = 0 then pure .invalidArgument
    else withSession tr .invalidState (submitBody sub tr request)
  | _, _ => pure .invalidArgument

end Code

inductive ServiceCall where
  | processNext
  | open (rounds : ℕ) (transport : Option Transport) (authenticated out : Bool)
  | close (transport : Option Transport) (session : Word)
  | reset (transport : Option Transport) (session : Word)
  | submit (sub : Submission)
  deriving DecidableEq

namespace ServiceCall

@[reducible] def Value : ServiceCall → Type
  | .processNext => Bool
  | .open _ _ _ _ => ServiceResult × Option Word
  | .close _ _ | .reset _ _ | .submit _ => ServiceResult

def code : (c : ServiceCall) → ServiceCode c.Value
  | .processNext => AirDap.processNext
  | .open rounds transport authenticated out => sessionOpen rounds transport authenticated out
  | .close transport session => sessionClose transport session
  | .reset transport session => sessionReset transport session
  | .submit sub => serviceSubmit sub

end ServiceCall

variable {T : Type}

abbrev ServiceEvent (T : Type) :=
  Event T ServiceAct ServiceAct.Answer (Service T) ServiceCall ServiceCall.Value

abbrev ServiceConfig (T : Type) :=
  Config T ServiceAct ServiceAct.Answer (Service T) ServiceCall ServiceCall.Value

/-- The worker only takes requests, and no other thread does. -/
def serviceMachine (worker : T) :
    Machine T ServiceAct ServiceAct.Answer (Service T) ServiceCall ServiceCall.Value where
  may t c _ := c = .processNext ↔ t = worker
  code _ c _ := c.code
  exec := Service.exec
  finish _ _ _ w := w

/-- The service before its first session. -/
structure Service.Fresh (w : Service T) : Prop where
  nextSession : w.nextSession = 1
  liveSessions : ∀ tr, w.liveSessions tr = 0
  pendingDisconnects : ∀ tr, w.pendingDisconnects tr = false
  sessionMutexes : ∀ tr, w.sessionMutexes tr = none
  queue : w.queue = []

end AirDap

import AirDap.Service.Machine

/-! What a history of the service tells: the sessions that were drawn and closed, the requests
that were accepted and received, and what the worker has done with its request. Histories and
the lists taken from them show the newest first. -/
namespace AirDap
open Concurrency

variable {T : Type}

abbrev ServiceHistory (T : Type) := List (ServiceEvent T)

/-- How many session numbers were drawn. -/
def drawn : ServiceHistory T → ℕ
  | [] => 0
  | .acted _ .fetchAddSession _ _ :: h => drawn h + 1
  | _ :: h => drawn h

/-- How many sessions were opened. -/
def opened : ServiceHistory T → ℕ
  | [] => 0
  | .acted _ (.storeLive _ session) _ _ :: h => if session = 0 then opened h else opened h + 1
  | _ :: h => opened h

/-- The session numbers have not come round. -/
def Bounded (h : ServiceHistory T) : Prop := opened h < 2 ^ 32 - 1

/-- The requests that the queue accepted. -/
def accepted : ServiceHistory T → List WorkItem
  | [] => []
  | .acted _ (.send item) true _ :: h => item :: accepted h
  | _ :: h => accepted h

/-- The requests that the worker received. -/
def received : ServiceHistory T → List WorkItem
  | [] => []
  | .acted _ .receive (some item) _ :: h => item :: received h
  | _ :: h => received h

/-- The arguments and the responses of the calls of `airdap_dap_process`. -/
def executions : ServiceHistory T → List (Owner × List Byte × List Byte)
  | [] => []
  | .acted _ (.process owner request _) response _ :: h =>
    (owner, request, response) :: executions h
  | _ :: h => executions h

/-- The calls of response callbacks. -/
def deliveries : ServiceHistory T → List Delivery
  | [] => []
  | .acted _ (.deliver delivery) _ _ :: h => delivery :: deliveries h
  | _ :: h => deliveries h

/-- The session was live when a close stored zero. -/
def Retired (tr : Transport) (session : Word) : ServiceHistory T → Prop
  | [] => False
  | .acted _ (.storeLive tr' stored) _ w :: h =>
    (tr' = tr ∧ stored = 0 ∧ w.liveSessions tr = session) ∨ Retired tr session h
  | _ :: h => Retired tr session h

/-- What the worker has done with the request that it received last in its current call: the
live sessions that it has read since it last took the pending disconnects, the times it has
read, the response of the processor, and whether it has called the response callback. -/
structure WorkTrace where
  item : Option WorkItem
  checks : List (Transport × Word)
  times : List ℤ
  response : Option (List Byte)
  delivered : Bool

namespace WorkTrace

def start : WorkTrace := ⟨none, [], [], none, false⟩

def act (τ : WorkTrace) : (a : ServiceAct) → a.Answer → WorkTrace
  | .receive, some item => { start with item := some item }
  | .exchangePending, _ => { τ with checks := [] }
  | .loadLive tr, session => { τ with checks := (tr, session) :: τ.checks }
  | .getTime, time => { τ with times := time :: τ.times }
  | .process _ _ _, response => { τ with response := some response }
  | .deliver _, _ => { τ with delivered := true }
  | _, _ => τ

end WorkTrace

variable [DecidableEq T]

def workTrace (worker : T) : ServiceHistory T → WorkTrace
  | [] => .start
  | .called u _ _ :: h => if u = worker then .start else workTrace worker h
  | .acted u a r _ :: h => if u = worker then (workTrace worker h).act a r else workTrace worker h
  | .returned _ _ _ :: h => workTrace worker h

/-- The session whose request was executed last on the transport, if the transport was not
disconnected since. -/
def lastRun (worker : T) (tr : Transport) : ServiceHistory T → Option Word
  | [] => none
  | .acted _ (.process owner _ _) _ _ :: h =>
    if owner = tr.owner then (workTrace worker h).item.map WorkItem.session
    else lastRun worker tr h
  | .acted _ (.sessionClosed owner) _ _ :: h =>
    if owner = tr.owner then none else lastRun worker tr h
  | _ :: h => lastRun worker tr h

/-- The requests of thread `t` that the queue has accepted in its current call. -/
def sentBy (t : T) : ServiceHistory T → List WorkItem
  | [] => []
  | .called u _ _ :: h => if u = t then [] else sentBy t h
  | .acted u (.send item) true _ :: h => if u = t then item :: sentBy t h else sentBy t h
  | _ :: h => sentBy t h

/-- The worker executes its request `item`: it has not executed it before, and has found its
session live since it last took the pending disconnects. -/
structure Executable (worker : T) (h : ServiceHistory T) (item : WorkItem) : Prop where
  hand : (workTrace worker h).item = some item
  first : (workTrace worker h).response = none
  undelivered : (workTrace worker h).delivered = false
  check : (item.transport, item.session) ∈ (workTrace worker h).checks
  session : Bounded h → ∀ a, lastRun worker item.transport h = some a → a = item.session

/-- The worker delivers the response to its request `item`. -/
structure Deliverable (worker : T) (h : ServiceHistory T) (item : WorkItem)
    (response : List Byte) : Prop where
  hand : (workTrace worker h).item = some item
  answer : (workTrace worker h).response = some response
  undelivered : (workTrace worker h).delivered = false
  times : ∃ first second, (workTrace worker h).times = [second, first] ∧
    requestTimedOut item first = false ∧ requestTimedOut item second = false
  session : Bounded h → ¬ Retired item.transport item.session h

/-- What every event of a run satisfies, after the history `h`. -/
def Sound (worker : T) (h : ServiceHistory T) : ServiceEvent T → Prop
  | .acted u (.process owner request _) _ _ => u = worker ∧ ∃ item, Executable worker h item ∧
    owner = item.transport.owner ∧ request = item.request
  | .acted u (.deliver delivery) _ _ => u = worker ∧ ∃ item response,
    Deliverable worker h item response ∧ delivery = item.delivery response
  | .acted u .receive _ _ | .acted u (.sessionClosed _) _ _ => u = worker
  | .returned _ (.close (some tr) session) v => v = .ok → Retired tr session h
  | .returned t (.submit sub) v => v = .ok → ∃ tr request time, sub.transport = some tr ∧
    sub.request = some request ∧ sentBy t h = [sub.item tr request time]
  | _ => True

/-- Every event of the history is sound after those before it. -/
def AllSound (worker : T) : ServiceHistory T → Prop
  | [] => True
  | e :: h => Sound worker h e ∧ AllSound worker h

section Lemmas

variable {worker t : T} {e : ServiceEvent T} {h : ServiceHistory T}

theorem workTrace_of_ne (he : e.thread ≠ worker) :
    workTrace worker (e :: h) = workTrace worker h := by
  cases e with
  | called u c w => exact if_neg he
  | acted u a r w => exact if_neg he
  | returned u c v => rfl

theorem workTrace_self {a : ServiceAct} {r : a.Answer} {w : Service T} :
    workTrace worker (.acted worker a r w :: h) = (workTrace worker h).act a r := if_pos rfl

theorem sentBy_of_ne (he : e.thread ≠ t) : sentBy t (e :: h) = sentBy t h := by
  cases e with
  | called u c w => exact if_neg he
  | returned u c v => rfl
  | acted u a r w =>
    cases a with
    | send item => cases r with
      | true => exact if_neg he
      | false => rfl
    | _ => rfl

omit [DecidableEq T] in
theorem drawn_le (e : ServiceEvent T) (h : ServiceHistory T) : drawn h ≤ drawn (e :: h) := by
  cases e with
  | acted u a r w => cases a <;> simp [drawn]
  | _ => exact le_rfl

omit [DecidableEq T] in
theorem opened_le (e : ServiceEvent T) (h : ServiceHistory T) : opened h ≤ opened (e :: h) := by
  cases e with
  | acted u a r w =>
    cases a with
    | storeLive tr session =>
      simp only [opened]
      split <;> omega
    | _ => exact le_rfl
  | _ => exact le_rfl

omit [DecidableEq T] in
theorem Bounded.tail (hb : Bounded (e :: h)) : Bounded h := (opened_le e h).trans_lt hb

end Lemmas
end AirDap

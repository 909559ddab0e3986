import AirDap.Uart.Machine

/-! What every call on the UART keeps to, whatever it is answered: the owner of the transmitter is
checked, used and changed only by a call that holds the mutex of the TX operations, and that call
gives the mutex back before it returns. -/
namespace AirDap
open Concurrency Prog

variable {T : Type}

/-- What a call holds: nothing, the mutex of the TX operations, or the mutex and the answer that
the session owns the transmitter. -/
inductive TxPlace where
  | outside
  | holding
  | validated (transport : UartTransport) (session : Word)
  deriving DecidableEq

/-- `suspended` tells that the call has run the section of a suspend. -/
structure UartPosition where
  call : Option UartCall
  place : TxPlace
  suspended : Bool

/-- The session on whose behalf a call configures or writes. -/
def UartCall.txSession : UartCall → Option (UartTransport × Word)
  | .sessionConfigure (some transport) session _ _ _ _
  | .sessionWrite (some transport) session _ _ => some (transport, session)
  | _ => none

/-- The operations that drive the line. -/
def UartAct.drives : UartAct → Bool
  | .paramConfig _ | .writeBytes _ => true
  | _ => false

namespace UartPosition

def allows (x : UartPosition) : UartAct → Prop
  | .lockTx | .tryLockTx => x.place = .outside
  | .unlockTx => x.place ≠ .outside
  | .locked (.sessionClose transport session) =>
    x.place = .holding ∧ x.call = some (.sessionClose (some transport) session)
  | .locked (.txAcquire transport session) =>
    x.place = .holding ∧ session ≠ 0 ∧ x.call = some (.txAcquire (some transport) session)
  | .locked (.validateOwner transport session) =>
    x.place = .holding ∧ x.call.bind UartCall.txSession = some (transport, session)
  | .locked .suspend => x.place = .holding ∧ x.call = some .suspend
  | .paramConfig _ | .writeBytes _ => ∃ transport session,
    x.place = .validated transport session ∧
      x.call.bind UartCall.txSession = some (transport, session)
  | _ => True

def next (x : UartPosition) : (a : UartAct) → a.Answer → UartPosition
  | .lockTx, r => if r then { x with place := .holding } else x
  | .tryLockTx, r => if r then { x with place := .holding } else x
  | .unlockTx, _ => { x with place := .outside }
  | .locked (.validateOwner transport session), r =>
    if r = some .ok then { x with place := .validated transport session } else x
  | .locked .suspend, r => if r.isSome then { x with suspended := true } else x
  | _, _ => x

end UartPosition

def uartProtocol :
    Protocol T UartAct UartAct.Answer (UartWorld T) UartCall UartPosition where
  idle := ⟨none, .outside, false⟩
  start _ c _ := ⟨some c, .outside, false⟩
  allowed := UartPosition.allows
  next := UartPosition.next

/-- How a call returns. -/
def UartCall.returns : (c : UartCall) → c.Value → UartPosition → Prop
  | .suspend, v, x => x.place = .outside ∧ (v = .ok → x.suspended = true)
  | _, _, x => x.place = .outside

section Follows

variable {x : UartPosition} {c : UartCall} {α : Type} {φ : α → UartPosition → Prop}
  {transport : UartTransport} {session : Word} {suspended : Bool}

/-- The code keeps to the positions from `x`, and `φ` holds where it returns. -/
abbrev UartFollows (p : UartCode α) (φ : α → UartPosition → Prop) (x : UartPosition) : Prop :=
  p.Follows UartPosition.allows UartPosition.next φ x

theorem follows_uartAct {a : UartAct} {rest : a.Answer → UartCode α} (ha : x.allows a)
    (hrest : ∀ r, UartFollows (rest r) φ (x.next a r)) :
    UartFollows (uartAct a >>= rest) φ x := ⟨ha, hrest⟩

theorem follows_forSession {given : Option UartTransport} {refuse : UartResult → α}
    {body : UartTransport → UartCode α} (hrefuse : ∀ r, φ (refuse r) x)
    (hbody : ∀ transport, given = some transport → session ≠ 0 →
      UartFollows (body transport) φ x) :
    UartFollows (forSession given session refuse body) φ x := by
  cases given with
  | none => exact hrefuse _
  | some transport =>
    refine follows_guard (hrefuse _) fun hsession => ?_
    refine follows_uartAct trivial fun initialized => ?_
    exact follows_guard (hrefuse _) fun _ => hbody transport rfl hsession

theorem follows_lockedTx {s : UartSection} {refuse : UartResult → α}
    {rest : s.Answer → UartCode α}
    (hs : (⟨some c, .holding, suspended⟩ : UartPosition).allows (.locked s))
    (hrefuse : ∀ r, φ (refuse r) ⟨some c, .outside, suspended⟩)
    (hrest : ∀ r, UartFollows (rest r) φ
      (UartPosition.next ⟨some c, .holding, suspended⟩ (.locked s) (some r))) :
    UartFollows (lockedTx refuse s rest) φ ⟨some c, .outside, suspended⟩ := by
  refine follows_uartAct rfl fun taken => ?_
  cases taken with
  | false => exact hrefuse _
  | true =>
    refine follows_uartAct hs fun r => ?_
    cases r with
    | none =>
      have htaken : UartPosition.next ⟨some c, .outside, suspended⟩ .lockTx true =
          ⟨some c, .holding, suspended⟩ := rfl
      have hnext : UartPosition.next ⟨some c, .holding, suspended⟩ (.locked s) none =
          ⟨some c, .holding, suspended⟩ := by
        cases s <;> rfl
      rw [htaken, hnext]
      exact follows_uartAct TxPlace.noConfusion fun _ => hrefuse _
    | some r => exact hrest r

section

variable (hc : c.txSession = some (transport, session))
include hc

theorem follows_forTxOwner {refuse : UartResult → α} {body : UartCode α}
    (hrefuse : ∀ r, φ (refuse r) ⟨some c, .outside, false⟩)
    (hbody : UartFollows body φ ⟨some c, .validated transport session, false⟩) :
    UartFollows (forTxOwner transport session refuse body) φ ⟨some c, .outside, false⟩ := by
  refine follows_lockedTx ⟨rfl, hc⟩ hrefuse fun result => ?_
  refine follows_ite (fun hbad => ?_) fun hok => ?_
  · have hnext : UartPosition.next ⟨some c, .holding, false⟩
        (.locked (.validateOwner transport session)) (some result) =
          ⟨some c, .holding, false⟩ := if_neg (by simpa using hbad)
    rw [hnext]
    exact follows_uartAct TxPlace.noConfusion fun _ => hrefuse _
  · have hnext : UartPosition.next ⟨some c, .holding, false⟩
        (.locked (.validateOwner transport session)) (some result) =
          ⟨some c, .validated transport session, false⟩ := if_pos (by simpa using hok)
    rw [hnext]
    exact hbody

theorem follows_configureDriver (baudRate : Word) (stopBits parity dataBits : Byte) :
    UartFollows (configureDriver baudRate stopBits parity dataBits)
      (fun _ x => x = ⟨some c, .validated transport session, suspended⟩)
      ⟨some c, .validated transport session, suspended⟩ := by
  unfold configureDriver
  cases lineConfig baudRate stopBits parity dataBits with
  | none => rfl
  | some config =>
    refine follows_uartAct ⟨_, _, rfl, hc⟩ fun error => ?_
    refine follows_ite (fun _ => ?_) fun _ => rfl
    exact ⟨trivial, fun _ => ⟨trivial, fun _ => ⟨trivial, fun _ => ⟨trivial, fun _ =>
      ⟨trivial, fun _ => ⟨trivial, fun _ => rfl⟩⟩⟩⟩⟩⟩

theorem follows_transmit (data : List Byte) :
    UartFollows (transmit data) (fun _ x => x.place = .outside)
      ⟨some c, .validated transport session, suspended⟩ := by
  refine follows_uartAct ⟨_, _, rfl, hc⟩ fun result => ?_
  refine follows_uartAct TxPlace.noConfusion fun _ => ?_
  refine follows_ite (fun _ => follows_uartAct trivial fun _ => rfl) fun _ => ?_
  exact follows_ite (fun _ => follows_uartAct trivial fun _ => rfl) fun _ => rfl

theorem follows_writeOwned (data : List Byte) :
    UartFollows (writeOwned transport data)
      (fun _ x => x.place = .outside) ⟨some c, .validated transport session, suspended⟩ := by
  cases transport with
  | usb => exact follows_transmit hc data
  | network =>
    refine follows_uartAct trivial fun available => ?_
    cases available with
    | error e =>
      refine follows_uartAct trivial fun _ => ?_
      exact follows_uartAct TxPlace.noConfusion fun _ => rfl
    | ok available =>
      refine follows_ite (fun _ => ?_) fun _ => follows_transmit hc _
      exact follows_uartAct TxPlace.noConfusion fun _ => rfl

end

theorem follows_publishRx (data : Option (List Byte)) (hx : x.place = .outside) :
    UartFollows (targetUartPublishRx data) (fun _ x => x.place = .outside) x := by
  refine follows_uartAct trivial fun initialized => ?_
  refine follows_guard hx fun _ => ?_
  cases data with
  | none => exact hx
  | some data =>
    cases data with
    | nil => exact hx
    | cons byte data => exact follows_uartAct trivial fun _ => hx

theorem follows_readConfiguration (rounds : ℕ) :
    UartFollows (readConfiguration rounds) (fun _ x' => x' = x) x := by
  induction rounds with
  | zero => trivial
  | succ rounds ih =>
    refine follows_uartAct trivial fun before => ?_
    refine follows_ite (fun _ => ih) fun _ => ?_
    refine ⟨trivial, fun _ => ⟨trivial, fun _ => ⟨trivial, fun _ => ⟨trivial, fun _ =>
      ⟨trivial, fun after => ?_⟩⟩⟩⟩⟩
    exact follows_ite (fun _ => ih) fun _ => rfl

end Follows

theorem uartMachine_keeps :
    (uartMachine : Machine T UartAct _ _ _ _).Keeps uartProtocol fun _ c => c.returns := by
  intro t c w _
  change UartFollows c.code c.returns ⟨some c, .outside, false⟩
  cases c with
  | publishRx data => exact follows_publishRx data rfl
  | processRxOnce =>
    refine follows_uartAct trivial fun initialized => ?_
    refine follows_guard rfl fun _ => ?_
    refine follows_uartAct trivial fun received => ?_
    match received with
    | none => exact follows_uartAct trivial fun _ => rfl
    | some [] => rfl
    | some (byte :: data) =>
      refine follows_uartAct trivial fun _ => ?_
      exact (follows_publishRx (some (byte :: data)) rfl).bind fun _ _ hx => hx
  | getStatus rounds =>
    refine (follows_readConfiguration rounds).bind fun r x hx => ?_
    subst hx
    refine ⟨trivial, fun initialized => ⟨trivial, fun _ => ⟨trivial, fun _ => ⟨trivial, fun _ =>
      ⟨trivial, fun _ => ?_⟩⟩⟩⟩⟩
    refine follows_guard rfl fun _ => ?_
    refine follows_uartAct trivial fun buffered => ?_
    cases buffered with
    | error e => rfl
    | ok buffered =>
      refine follows_uartAct trivial fun free => ?_
      cases free <;> rfl
  | sessionOpen transport authenticated output =>
    cases transport with
    | none => rfl
    | some transport =>
      refine follows_guard rfl fun _ => ?_
      refine follows_uartAct trivial fun initialized => ?_
      refine follows_guard rfl fun _ => ?_
      refine follows_guard rfl fun _ => ?_
      refine follows_uartAct trivial fun r => ?_
      cases r <;> rfl
  | sessionClose transport session =>
    refine follows_forSession (fun _ => rfl) fun transport htransport _ => ?_
    refine follows_lockedTx ⟨rfl, htransport ▸ rfl⟩ (fun _ => rfl) fun r => ?_
    exact follows_uartAct TxPlace.noConfusion fun _ => rfl
  | sessionGetStatus transport session output =>
    refine follows_guard rfl fun _ => ?_
    refine follows_forSession (fun _ => rfl) fun transport _ _ => ?_
    refine follows_uartAct trivial fun r => ?_
    cases r <;> rfl
  | txAcquire transport session =>
    refine follows_forSession (fun _ => rfl) fun transport htransport hsession => ?_
    refine follows_lockedTx ⟨rfl, hsession, htransport ▸ rfl⟩ (fun _ => rfl) fun r => ?_
    exact follows_uartAct TxPlace.noConfusion fun _ => rfl
  | suspend =>
    refine follows_uartAct trivial fun initialized => ?_
    refine follows_guard ⟨rfl, nofun⟩ fun _ => ?_
    refine follows_uartAct rfl fun taken => ?_
    cases taken with
    | false => exact ⟨rfl, nofun⟩
    | true =>
      refine follows_uartAct ⟨rfl, rfl⟩ fun r => ?_
      cases r with
      | none => exact follows_uartAct TxPlace.noConfusion fun _ => ⟨rfl, nofun⟩
      | some _ =>
        refine follows_uartAct trivial fun error => ?_
        exact follows_uartAct TxPlace.noConfusion fun _ => ⟨rfl, fun _ => rfl⟩
  | resume =>
    refine follows_uartAct trivial fun initialized => ?_
    refine follows_guard rfl fun _ => ?_
    refine follows_uartAct trivial fun r => ?_
    cases r <;> rfl
  | sessionConfigure transport session baudRate stopBits parity dataBits =>
    refine follows_forSession (fun _ => rfl) fun transport htransport _ => ?_
    subst htransport
    refine follows_forTxOwner rfl (fun _ => rfl) ?_
    refine (follows_configureDriver rfl baudRate stopBits parity dataBits).bind
      fun error x hx => ?_
    subst hx
    refine follows_uartAct TxPlace.noConfusion fun _ => ?_
    refine follows_guard rfl fun _ => ?_
    exact follows_guard rfl fun _ => rfl
  | sessionRead transport session capacity output =>
    refine follows_guard rfl fun _ => ?_
    refine follows_forSession (fun _ => rfl) fun transport _ _ => ?_
    refine follows_uartAct trivial fun r => ?_
    cases r <;> rfl
  | sessionWrite transport session data output =>
    cases data with
    | none => rfl
    | some data =>
      refine follows_guard rfl fun _ => ?_
      refine follows_forSession (fun _ => rfl) fun transport htransport _ => ?_
      subst htransport
      exact follows_forTxOwner rfl (fun _ => rfl) (follows_writeOwned rfl data)

end AirDap

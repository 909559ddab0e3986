import AirDap.Buffer.Ring
import AirDap.Config.Store

/-! The UART of the target: each transport has at most one session, every session gets a copy of
the received bytes, and one session may own the transmitter. Each function here is one section
under the state mutex of the component. -/
namespace AirDap

/-- `airdap_target_uart_transport_t`. A parameter or an owner without a transport is `none`: the
value NONE and every other number outside the range. -/
inductive UartTransport where
  | usb | network
  deriving DecidableEq, Repr

/-- `airdap_target_uart_result_t`. -/
inductive UartResult where
  | ok | alreadyOwner | invalidArgument | invalidState | unauthenticated | busy | staleSession
  | notOwner | ioError
  deriving DecidableEq, Repr

def uartSubscriberBufferSize : ℕ := 512

/-- `target_uart_session_slot_t`; the session 0 is none. -/
structure SessionSlot where
  session : Word
  rxHead : ℕ
  rxCount : ℕ
  rxDroppedBytes : Word
  rxBuffer : Vector Byte uartSubscriberBufferSize

def SessionSlot.zero : SessionSlot := ⟨0, 0, 0, 0, Vector.replicate _ 0⟩

/-- `target_uart_tx_owner_t`. -/
structure TxOwner where
  transport : Option UartTransport
  session : Word
  deriving DecidableEq, Repr

def TxOwner.none : TxOwner := ⟨.none, 0⟩

/-- `airdap_target_uart_session_status_t`. -/
structure SessionStatus where
  rxBufferedBytes : ℕ
  rxDroppedBytes : Word
  txOwner : Bool
  deriving DecidableEq, Repr

def SessionStatus.zero : SessionStatus := ⟨0, 0, false⟩

/-- The members of `target_uart_diagnostic_state_t`, all of them atomic words. -/
inductive UartGauge where
  | sequence | baudRate | dataBits | parity | stopBits | rxBytes | txBytes | readFailures
  | writeFailures
  deriving DecidableEq, Repr

/-- The static variables of the component. Its mutexes exist from before it is initialized on. -/
structure TargetUart where
  initialized : Bool
  suspended : Bool
  nextSession : Word
  slots : UartTransport → SessionSlot
  txOwner : TxOwner
  gauges : UartGauge → Word

section Sections

variable (uart : TargetUart) (transport : UartTransport) (session : Word)

def TargetUart.setSlot (slot : SessionSlot) : TargetUart :=
  { uart with slots := Function.update uart.slots transport slot }

/-- `session_is_live_locked`. -/
def uartSessionIsLive : Bool := (uart.slots transport).session = session

/-- `validate_live_session_locked`. -/
def validateLiveSession : UartResult :=
  if uartSessionIsLive uart transport session then .ok else .staleSession

def ownsTx : Bool := uart.txOwner = ⟨some transport, session⟩

/-- `validate_tx_owner_locked`. -/
def validateTxOwner : UartResult :=
  if uart.suspended then .busy
  else if validateLiveSession uart transport session ≠ .ok then
    validateLiveSession uart transport session
  else if ownsTx uart transport session then .ok
  else .notOwner

/-- `add_dropped_bytes`. -/
def addDroppedBytes (slot : SessionSlot) (dropped : ℕ) : SessionSlot :=
  if dropped ≥ (2 ^ 32 - 1) - slot.rxDroppedBytes.toNat then
    { slot with rxDroppedBytes := BitVec.ofNat 32 (2 ^ 32 - 1) }
  else { slot with rxDroppedBytes := slot.rxDroppedBytes + BitVec.ofNat 32 dropped }

/-- One round of the loop of `airdap_target_uart_publish_rx`. -/
def publishSlot (data : List Byte) (slot : SessionSlot) : SessionSlot :=
  if slot.session = 0 then slot
  else
    let available := uartSubscriberBufferSize - slot.rxCount
    let accepted := min data.length available
    let tail := (slot.rxHead + slot.rxCount) % uartSubscriberBufferSize
    let first := min accepted (uartSubscriberBufferSize - tail)
    let copied := Buffer.store slot.rxBuffer tail (data.take first)
    let copied := Buffer.store copied 0 ((data.drop first).take (accepted - first))
    addDroppedBytes { slot with rxBuffer := copied, rxCount := slot.rxCount + accepted }
      (data.length - accepted)

/-- `airdap_target_uart_publish_rx`. -/
def publishRxLocked (data : List Byte) : TargetUart :=
  { uart with slots := fun transport => publishSlot data (uart.slots transport) }

/-- The loop that draws a session number from `next_session` and skips 0. -/
def drawSession (next : Word) : Word × Word :=
  if next = 0 then (next + 1, next + 1 + 1) else (next, next + 1)

/-- `airdap_target_uart_session_open`. -/
def sessionOpenLocked : UartResult × Word × TargetUart :=
  if (uart.slots transport).session ≠ 0 then (.busy, 0, uart)
  else
    let drawn := drawSession uart.nextSession
    (.ok, drawn.1, { uart.setSlot transport { SessionSlot.zero with session := drawn.1 } with
      nextSession := drawn.2 })

/-- `airdap_target_uart_session_close`. -/
def sessionCloseLocked : UartResult × TargetUart :=
  if !uartSessionIsLive uart transport session then (.staleSession, uart)
  else
    let uart := if ownsTx uart transport session then { uart with txOwner := .none } else uart
    (.ok, uart.setSlot transport .zero)

/-- `airdap_target_uart_session_get_status`. -/
def sessionStatusLocked : UartResult × SessionStatus :=
  if !uartSessionIsLive uart transport session then (.staleSession, .zero)
  else
    (.ok, ⟨(uart.slots transport).rxCount, (uart.slots transport).rxDroppedBytes,
      ownsTx uart transport session⟩)

/-- `airdap_target_uart_tx_acquire`. -/
def txAcquireLocked : UartResult × TargetUart :=
  if validateLiveSession uart transport session ≠ .ok then
    (validateLiveSession uart transport session, uart)
  else if uart.suspended then (.busy, uart)
  else if uart.txOwner.transport = none then
    (.ok, { uart with txOwner := ⟨some transport, session⟩ })
  else if ownsTx uart transport session then (.alreadyOwner, uart)
  else (.busy, uart)

/-- The copy out of a buffer in `airdap_target_uart_session_read`. -/
def readSlot (capacity : ℕ) (slot : SessionSlot) : List Byte × SessionSlot :=
  let count := min capacity slot.rxCount
  let first := min count (uartSubscriberBufferSize - slot.rxHead)
  (Buffer.load slot.rxBuffer slot.rxHead first ++ Buffer.load slot.rxBuffer 0 (count - first),
    { slot with
      rxHead := (slot.rxHead + count) % uartSubscriberBufferSize
      rxCount := slot.rxCount - count })

/-- `airdap_target_uart_session_read`. -/
def sessionReadLocked (capacity : ℕ) : UartResult × List Byte × TargetUart :=
  if !uartSessionIsLive uart transport session then (.staleSession, [], uart)
  else
    let read := readSlot capacity (uart.slots transport)
    (.ok, read.1, uart.setSlot transport read.2)

/-- `airdap_target_uart_suspend`. -/
def suspendLocked : TargetUart := { uart with suspended := true, txOwner := .none }

/-- `airdap_target_uart_resume`. -/
def resumeLocked : TargetUart := { uart with suspended := false }

theorem uartSessionIsLive_iff :
    uartSessionIsLive uart transport session = true ↔ (uart.slots transport).session = session :=
  decide_eq_true_iff

theorem ownsTx_iff :
    ownsTx uart transport session = true ↔ uart.txOwner = ⟨some transport, session⟩ :=
  decide_eq_true_iff

theorem validateLiveSession_iff :
    validateLiveSession uart transport session = .ok ↔
      (uart.slots transport).session = session := by
  simp only [validateLiveSession, uartSessionIsLive_iff]
  split_ifs with h <;> simp [h]

theorem validateTxOwner_ok (h : validateTxOwner uart transport session = .ok) :
    uart.suspended = false ∧ uart.txOwner = ⟨some transport, session⟩ := by
  unfold validateTxOwner at h
  split_ifs at h with hsuspended hlive howner
  · exact absurd h hlive
  · exact ⟨Bool.eq_false_iff.mpr hsuspended, (ownsTx_iff ..).mp howner⟩

theorem sessionOpenLocked_cases :
    ((uart.slots transport).session ≠ 0 ∧ sessionOpenLocked uart transport = (.busy, 0, uart)) ∨
    ((uart.slots transport).session = 0 ∧ sessionOpenLocked uart transport =
      (.ok, (drawSession uart.nextSession).1,
        { uart.setSlot transport
            { SessionSlot.zero with session := (drawSession uart.nextSession).1 } with
          nextSession := (drawSession uart.nextSession).2 })) := by
  unfold sessionOpenLocked
  split_ifs with h
  · exact .inl ⟨h, rfl⟩
  · exact .inr ⟨not_not.mp h, rfl⟩

theorem sessionCloseLocked_cases :
    sessionCloseLocked uart transport session = (.staleSession, uart) ∨
    ((uart.slots transport).session = session ∧ uart.txOwner = ⟨some transport, session⟩ ∧
      sessionCloseLocked uart transport session =
        (.ok, { uart with txOwner := .none }.setSlot transport .zero)) ∨
    ((uart.slots transport).session = session ∧ uart.txOwner ≠ ⟨some transport, session⟩ ∧
      sessionCloseLocked uart transport session = (.ok, uart.setSlot transport .zero)) := by
  by_cases hlive : (uart.slots transport).session = session
  · by_cases howner : uart.txOwner = ⟨some transport, session⟩
    · exact .inr (.inl ⟨hlive, howner, by
        simp [sessionCloseLocked, uartSessionIsLive_iff, ownsTx_iff, hlive, howner]⟩)
    · exact .inr (.inr ⟨hlive, howner, by
        simp [sessionCloseLocked, uartSessionIsLive_iff, ownsTx_iff, hlive, howner]⟩)
  · exact .inl (by simp [sessionCloseLocked, uartSessionIsLive, hlive])

theorem txAcquireLocked_cases :
    (∃ r, r ≠ .ok ∧ txAcquireLocked uart transport session = (r, uart)) ∨
    ((uart.slots transport).session = session ∧ uart.suspended = false ∧
      uart.txOwner.transport = none ∧ txAcquireLocked uart transport session =
        (.ok, { uart with txOwner := ⟨some transport, session⟩ })) := by
  unfold txAcquireLocked
  split_ifs with hlive hsuspended hfree howner
  · exact .inl ⟨_, hlive, rfl⟩
  · exact .inl ⟨.busy, nofun, rfl⟩
  · exact .inr ⟨(validateLiveSession_iff ..).mp (not_not.mp hlive),
      Bool.eq_false_iff.mpr hsuspended, hfree, rfl⟩
  · exact .inl ⟨.alreadyOwner, nofun, rfl⟩
  · exact .inl ⟨.busy, nofun, rfl⟩

theorem sessionReadLocked_cases (capacity : ℕ) :
    sessionReadLocked uart transport session capacity = (.staleSession, [], uart) ∨
    ((uart.slots transport).session = session ∧
      sessionReadLocked uart transport session capacity =
        (.ok, (readSlot capacity (uart.slots transport)).1,
          uart.setSlot transport (readSlot capacity (uart.slots transport)).2)) := by
  by_cases hlive : (uart.slots transport).session = session
  · exact .inr ⟨hlive, by simp [sessionReadLocked, uartSessionIsLive, hlive]⟩
  · exact .inl (by simp [sessionReadLocked, uartSessionIsLive, hlive])

theorem addDroppedBytes_session (slot : SessionSlot) (dropped : ℕ) :
    (addDroppedBytes slot dropped).session = slot.session := by
  unfold addDroppedBytes
  split_ifs <;> rfl

theorem publishSlot_session (data : List Byte) (slot : SessionSlot) :
    (publishSlot data slot).session = slot.session := by
  unfold publishSlot
  split_ifs
  · rfl
  · exact addDroppedBytes_session _ _

theorem setSlot_session (slot : SessionSlot)
    (hslot : slot.session = (uart.slots transport).session) (other : UartTransport) :
    ((uart.setSlot transport slot).slots other).session = (uart.slots other).session := by
  by_cases h : other = transport
  · subst h
    simp [TargetUart.setSlot, hslot]
  · simp [TargetUart.setSlot, Function.update_of_ne h]

end Sections

/-- A section under the state mutex. -/
inductive UartSection where
  | publishRx (data : List Byte)
  | sessionOpen (transport : UartTransport)
  | sessionClose (transport : UartTransport) (session : Word)
  | sessionStatus (transport : UartTransport) (session : Word)
  | txAcquire (transport : UartTransport) (session : Word)
  | validateOwner (transport : UartTransport) (session : Word)
  | sessionRead (transport : UartTransport) (session : Word) (capacity : ℕ)
  | suspend
  | resume
  deriving DecidableEq

@[reducible] def UartSection.Answer : UartSection → Type
  | .publishRx _ | .suspend | .resume => Unit
  | .sessionOpen _ => UartResult × Word
  | .sessionClose _ _ | .txAcquire _ _ | .validateOwner _ _ => UartResult
  | .sessionStatus _ _ => UartResult × SessionStatus
  | .sessionRead _ _ _ => UartResult × List Byte

def UartSection.run (uart : TargetUart) : (s : UartSection) → s.Answer × TargetUart
  | .publishRx data => ((), publishRxLocked uart data)
  | .sessionOpen transport =>
    let r := sessionOpenLocked uart transport
    ((r.1, r.2.1), r.2.2)
  | .sessionClose transport session => sessionCloseLocked uart transport session
  | .sessionStatus transport session => (sessionStatusLocked uart transport session, uart)
  | .txAcquire transport session => txAcquireLocked uart transport session
  | .validateOwner transport session => (validateTxOwner uart transport session, uart)
  | .sessionRead transport session capacity =>
    let r := sessionReadLocked uart transport session capacity
    ((r.1, r.2.1), r.2.2)
  | .suspend => ((), suspendLocked uart)
  | .resume => ((), resumeLocked uart)

end AirDap

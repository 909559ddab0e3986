import AirDap.Uart.Session
import AirDap.Concurrency.Protocol

/-! Threads that use the UART of the target. A section under the state mutex is one operation; the
mutex of the TX operations is held over several of them and over the calls of the driver. -/
namespace AirDap
open Concurrency Function

variable {T : Type}

inductive UartWordLength where
  | bits5 | bits6 | bits7 | bits8
  deriving DecidableEq, Repr

inductive UartStopBits where
  | bits1 | bits15 | bits2
  deriving DecidableEq, Repr

inductive UartParity where
  | disable | odd | even
  deriving DecidableEq, Repr

/-- `uart_config_t` without flow control and with the default clock. -/
structure UartConfig where
  baudRate : Word
  dataBits : UartWordLength
  parity : UartParity
  stopBits : UartStopBits
  deriving DecidableEq, Repr

/-- An operation of a call on the UART. `tryLockTx` waits for 100 ms only. -/
inductive UartAct where
  | loadInitialized
  | lockTx
  | tryLockTx
  | unlockTx
  | locked (s : UartSection)
  | loadGauge (gauge : UartGauge)
  | storeGauge (gauge : UartGauge) (value : Word)
  | addGauge (gauge : UartGauge) (value : Word)
  | readBytes
  | waitTxDone
  | getBufferedDataLen
  | getTxBufferFreeSize
  | paramConfig (config : UartConfig)
  | writeBytes (data : List Byte)
  deriving DecidableEq

/-- A section is not answered if there is no mutex, and a call of the driver that fails has no
answer, but for `uart_write_bytes`, which returns a negative number. -/
@[reducible] def UartAct.Answer : UartAct → Type
  | .loadInitialized | .lockTx | .tryLockTx => Bool
  | .unlockTx | .storeGauge _ _ | .addGauge _ _ => Unit
  | .locked s => Option s.Answer
  | .loadGauge _ => Word
  | .readBytes => Option (List Byte)
  | .waitTxDone | .paramConfig _ => EspErr
  | .getBufferedDataLen | .getTxBufferFreeSize => Except EspErr ℕ
  | .writeBytes _ => ℤ

abbrev UartCode (α : Type) := Prog UartAct UartAct.Answer α

def espErrTimeout : EspErr := .other 0x107
def targetUartMaxBaud : Word := 5000000

/-- `airdap_target_uart_status_t`. -/
structure UartStatus where
  initialized : Bool
  baudRate : Word
  dataBits : Byte
  parity : Byte
  stopBits : Byte
  rxBufferedBytes : ℕ
  txBufferFreeBytes : ℕ
  rxBytes : Word
  txBytes : Word
  readFailures : Word
  writeFailures : Word
  deriving DecidableEq, Repr

section Code

def uartAct (a : UartAct) : UartCode a.Answer := .act a .ret

/-- `map_data_bits`. -/
def mapDataBits (value : Byte) : Option UartWordLength :=
  if value = 5 then some .bits5
  else if value = 6 then some .bits6
  else if value = 7 then some .bits7
  else if value = 8 then some .bits8
  else none

/-- `map_stop_bits`. -/
def mapStopBits (value : Byte) : Option UartStopBits :=
  if value = 0 then some .bits1
  else if value = 1 then some .bits15
  else if value = 2 then some .bits2
  else none

/-- `map_parity`. -/
def mapParity (value : Byte) : Option UartParity :=
  if value = 0 then some .disable
  else if value = 1 then some .odd
  else if value = 2 then some .even
  else none

variable (baudRate : Word) (stopBits parity dataBits : Byte)

/-- `publish_configuration`. -/
def publishConfiguration : UartCode Unit := do
  uartAct (.addGauge .sequence 1)
  uartAct (.storeGauge .baudRate baudRate)
  uartAct (.storeGauge .stopBits (stopBits.setWidth 32))
  uartAct (.storeGauge .parity (parity.setWidth 32))
  uartAct (.storeGauge .dataBits (dataBits.setWidth 32))
  uartAct (.addGauge .sequence 1)

/-- The driver's configuration for the line settings of a client. -/
def lineConfig : Option UartConfig :=
  if baudRate = 0 ∨ baudRate > targetUartMaxBaud then none
  else do
    let dataBits ← mapDataBits dataBits
    let stopBits ← mapStopBits stopBits
    let parity ← mapParity parity
    pure { baudRate, dataBits, parity, stopBits }

/-- `configure_driver`. -/
def configureDriver : UartCode EspErr :=
  match lineConfig baudRate stopBits parity dataBits with
  | none => pure .invalidArg
  | some config => do
    let error ← uartAct (.paramConfig config)
    if error = .ok then
      publishConfiguration baudRate stopBits parity dataBits
      pure error
    else pure error

/-- `airdap_target_uart_publish_rx`; a null pointer is `none`. -/
def targetUartPublishRx (data : Option (List Byte)) : UartCode Unit := do
  if !(← uartAct .loadInitialized) then pure ()
  else
    match data with
    | none | some [] => pure ()
    | some data =>
      let _ ← uartAct (.locked (.publishRx data))
      pure ()

/-- `airdap_target_uart_process_rx_once`. -/
def targetUartProcessRxOnce : UartCode Bool := do
  if !(← uartAct .loadInitialized) then pure false
  else
    match ← uartAct .readBytes with
    | none =>
      uartAct (.addGauge .readFailures 1)
      pure false
    | some [] => pure false
    | some data =>
      uartAct (.addGauge .rxBytes (BitVec.ofNat 32 data.length))
      targetUartPublishRx (some data)
      pure true

/-- The loop of `airdap_target_uart_get_status`, which gives up after a number of rounds. -/
def readConfiguration : ℕ → UartCode (Word × Word × Word × Word)
  | 0 => .spent
  | rounds + 1 => do
    let before ← uartAct (.loadGauge .sequence)
    if before &&& 1 ≠ 0 then readConfiguration rounds
    else
      let baudRate ← uartAct (.loadGauge .baudRate)
      let stopBits ← uartAct (.loadGauge .stopBits)
      let parity ← uartAct (.loadGauge .parity)
      let dataBits ← uartAct (.loadGauge .dataBits)
      let after ← uartAct (.loadGauge .sequence)
      if before ≠ after ∨ after &&& 1 ≠ 0 then readConfiguration rounds
      else pure (baudRate, stopBits, parity, dataBits)

/-- `airdap_target_uart_get_status`. -/
def targetUartGetStatus (rounds : ℕ) : UartCode (EspErr × UartStatus) := do
  let (baudRate, stopBits, parity, dataBits) ← readConfiguration rounds
  let initialized ← uartAct .loadInitialized
  let rxBytes ← uartAct (.loadGauge .rxBytes)
  let txBytes ← uartAct (.loadGauge .txBytes)
  let readFailures ← uartAct (.loadGauge .readFailures)
  let writeFailures ← uartAct (.loadGauge .writeFailures)
  let status : UartStatus :=
    { initialized, baudRate, dataBits := dataBits.setWidth 8, parity := parity.setWidth 8,
      stopBits := stopBits.setWidth 8, rxBufferedBytes := 0, txBufferFreeBytes := 0, rxBytes,
      txBytes, readFailures, writeFailures }
  if !initialized then pure (.ok, status)
  else
    match ← uartAct .getBufferedDataLen with
    | .error error => pure (error, status)
    | .ok rxBufferedBytes =>
      match ← uartAct .getTxBufferFreeSize with
      | .error error => pure (error, { status with rxBufferedBytes })
      | .ok txBufferFreeBytes => pure (.ok, { status with rxBufferedBytes, txBufferFreeBytes })

variable (transport : Option UartTransport) (session : Word)

/-- `airdap_target_uart_session_open`; `output` tells whether there is a pointer for the result. -/
def targetUartSessionOpen (authenticated output : Bool) :
    UartCode (UartResult × Word) :=
  match transport with
  | none => pure (.invalidArgument, 0)
  | some transport => do
    if !output then pure (.invalidArgument, 0)
    else if !(← uartAct .loadInitialized) then pure (.invalidState, 0)
    else if transport = .network && !authenticated then pure (.unauthenticated, 0)
    else
      match ← uartAct (.locked (.sessionOpen transport)) with
      | none => pure (.invalidState, 0)
      | some r => pure r

/-- The checks at the start of a call for a session, and what a call that fails them returns. -/
def forSession {α : Type} (transport : Option UartTransport) (session : Word)
    (refuse : UartResult → α) (body : UartTransport → UartCode α) : UartCode α :=
  match transport with
  | none => pure (refuse .invalidArgument)
  | some transport => do
    if session = 0 then pure (refuse .invalidArgument)
    else if !(← uartAct .loadInitialized) then pure (refuse .invalidState)
    else body transport

/-- A section of a call that holds the mutex of the TX operations; what follows it gives the mutex
back. -/
def lockedTx {α : Type} (refuse : UartResult → α) (s : UartSection)
    (rest : s.Answer → UartCode α) : UartCode α := do
  if !(← uartAct .lockTx) then pure (refuse .invalidState)
  else
    match ← uartAct (.locked s) with
    | none =>
      uartAct .unlockTx
      pure (refuse .invalidState)
    | some r => rest r

/-- `airdap_target_uart_session_close`. -/
def targetUartSessionClose :
    UartCode UartResult :=
  forSession transport session id fun transport =>
    lockedTx id (.sessionClose transport session) fun result => do
      uartAct .unlockTx
      pure result

/-- `airdap_target_uart_session_get_status`. -/
def targetUartSessionGetStatus (output : Bool) : UartCode (UartResult × SessionStatus) :=
  if !output then pure (.invalidArgument, .zero)
  else
    forSession transport session (·, .zero) fun transport => do
      match ← uartAct (.locked (.sessionStatus transport session)) with
      | none => pure (.invalidState, .zero)
      | some r => pure r

/-- `airdap_target_uart_tx_acquire`. -/
def targetUartTxAcquire :
    UartCode UartResult :=
  forSession transport session id fun transport =>
    lockedTx id (.txAcquire transport session) fun result => do
      uartAct .unlockTx
      pure result

/-- `airdap_target_uart_suspend`. -/
def targetUartSuspend : UartCode EspErr := do
  if !(← uartAct .loadInitialized) then pure .invalidState
  else if !(← uartAct .tryLockTx) then pure espErrTimeout
  else
    match ← uartAct (.locked .suspend) with
    | none =>
      uartAct .unlockTx
      pure .invalidState
    | some _ =>
      let error ← uartAct .waitTxDone
      uartAct .unlockTx
      pure error

/-- `airdap_target_uart_resume`. -/
def targetUartResume : UartCode EspErr := do
  if !(← uartAct .loadInitialized) then pure .ok
  else
    match ← uartAct (.locked .resume) with
    | none => pure .invalidState
    | some _ => pure .ok

/-- The check of the owner under the mutex of the TX operations, which the call goes on to hold if
the check succeeds. -/
def forTxOwner {α : Type} (transport : UartTransport) (session : Word) (refuse : UartResult → α)
    (body : UartCode α) : UartCode α :=
  lockedTx refuse (.validateOwner transport session) fun result => do
    if result ≠ .ok then
      uartAct .unlockTx
      pure (refuse result)
    else body

/-- `airdap_target_uart_session_configure`. -/
def targetUartSessionConfigure (session baudRate : Word)
    (stopBits parity dataBits : Byte) : UartCode UartResult :=
  forSession transport session id fun transport =>
    forTxOwner transport session id do
      let error ← configureDriver baudRate stopBits parity dataBits
      uartAct .unlockTx
      if error = .invalidArg then pure .invalidArgument
      else if error = .ok then pure .ok
      else pure .ioError

/-- `airdap_target_uart_session_read`; a null pointer for the data is an `output` that is missing
as well. -/
def targetUartSessionRead (capacity : ℕ)
    (output : Bool) : UartCode (UartResult × List Byte) :=
  if !output ∨ capacity = 0 then pure (.invalidArgument, [])
  else
    forSession transport session (·, []) fun transport => do
      match ← uartAct (.locked (.sessionRead transport session capacity)) with
      | none => pure (.invalidState, [])
      | some r => pure r

/-- `airdap_target_uart_session_write` from `uart_write_bytes` on. -/
def transmit (data : List Byte) : UartCode (UartResult × ℕ) := do
  let result ← uartAct (.writeBytes data)
  uartAct .unlockTx
  if result < 0 then
    uartAct (.addGauge .writeFailures 1)
    pure (.ioError, 0)
  else if result > 0 then
    uartAct (.addGauge .txBytes (BitVec.ofInt 32 result))
    pure (.ok, result.toNat)
  else pure (.ok, 0)

/-- `airdap_target_uart_session_write` after the check of the owner. -/
def writeOwned (transport : UartTransport) (data : List Byte) : UartCode (UartResult × ℕ) :=
  match transport with
  | .usb => transmit data
  | .network => do
    match ← uartAct .getTxBufferFreeSize with
    | .error _ =>
      uartAct (.addGauge .writeFailures 1)
      uartAct .unlockTx
      pure (.ioError, 0)
    | .ok available =>
      if (data.take available).length = 0 then
        uartAct .unlockTx
        pure (.ok, 0)
      else transmit (data.take available)

/-- `airdap_target_uart_session_write`. -/
def targetUartSessionWrite (data : Option (List Byte)) (output : Bool) :
    UartCode (UartResult × ℕ) :=
  match data with
  | none => pure (.invalidArgument, 0)
  | some data =>
    if data.length = 0 ∨ !output then pure (.invalidArgument, 0)
    else
      forSession transport session (·, 0) fun transport =>
        forTxOwner transport session (·, 0) (writeOwned transport data)

end Code

/-- The component and the thread that holds the mutex of the TX operations. -/
structure UartWorld (T : Type) where
  uart : TargetUart
  txHolder : Option T

/-- One operation of thread `t`; the driver may answer anything. -/
def UartWorld.exec (t : T) (w : UartWorld T) : (a : UartAct) → a.Answer → UartWorld T → Prop
  | .loadInitialized, r, w' => r = w.uart.initialized ∧ w' = w
  | .lockTx, r, w' =>
    (r = true ∧ w.txHolder = none ∧ w' = { w with txHolder := some t }) ∨
      (r = false ∧ w.uart.initialized = false ∧ w' = w)
  | .tryLockTx, r, w' =>
    (r = true ∧ w.txHolder = none ∧ w' = { w with txHolder := some t }) ∨
      (r = false ∧ w.txHolder ≠ none ∧ w' = w)
  | .unlockTx, _, w' => w' = { w with txHolder := none }
  | .locked s, r, w' =>
    (r = none ∧ w.uart.initialized = false ∧ w' = w) ∨
      (r = some (s.run w.uart).1 ∧ w' = { w with uart := (s.run w.uart).2 })
  | .loadGauge gauge, r, w' => r = w.uart.gauges gauge ∧ w' = w
  | .storeGauge gauge value, _, w' =>
    w' = { w with uart := { w.uart with gauges := update w.uart.gauges gauge value } }
  | .addGauge gauge value, _, w' =>
    w' = { w with uart := { w.uart with
      gauges := update w.uart.gauges gauge (w.uart.gauges gauge + value) } }
  | .readBytes, _, w' | .waitTxDone, _, w' | .getBufferedDataLen, _, w'
  | .getTxBufferFreeSize, _, w' | .paramConfig _, _, w' | .writeBytes _, _, w' => w' = w

inductive UartCall where
  | publishRx (data : Option (List Byte))
  | processRxOnce
  | getStatus (rounds : ℕ)
  | sessionOpen (transport : Option UartTransport) (authenticated output : Bool)
  | sessionClose (transport : Option UartTransport) (session : Word)
  | sessionGetStatus (transport : Option UartTransport) (session : Word) (output : Bool)
  | txAcquire (transport : Option UartTransport) (session : Word)
  | suspend
  | resume
  | sessionConfigure (transport : Option UartTransport) (session baudRate : Word)
      (stopBits parity dataBits : Byte)
  | sessionRead (transport : Option UartTransport) (session : Word) (capacity : ℕ) (output : Bool)
  | sessionWrite (transport : Option UartTransport) (session : Word) (data : Option (List Byte))
      (output : Bool)
  deriving DecidableEq

@[reducible] def UartCall.Value : UartCall → Type
  | .publishRx _ => Unit
  | .processRxOnce => Bool
  | .getStatus _ => EspErr × UartStatus
  | .sessionOpen _ _ _ => UartResult × Word
  | .sessionClose _ _ | .txAcquire _ _ | .sessionConfigure _ _ _ _ _ _ => UartResult
  | .sessionGetStatus _ _ _ => UartResult × SessionStatus
  | .suspend | .resume => EspErr
  | .sessionRead _ _ _ _ => UartResult × List Byte
  | .sessionWrite _ _ _ _ => UartResult × ℕ

def UartCall.code : (c : UartCall) → UartCode c.Value
  | .publishRx data => targetUartPublishRx data
  | .processRxOnce => targetUartProcessRxOnce
  | .getStatus rounds => targetUartGetStatus rounds
  | .sessionOpen transport authenticated output =>
    targetUartSessionOpen transport authenticated output
  | .sessionClose transport session => targetUartSessionClose transport session
  | .sessionGetStatus transport session output =>
    targetUartSessionGetStatus transport session output
  | .txAcquire transport session => targetUartTxAcquire transport session
  | .suspend => targetUartSuspend
  | .resume => targetUartResume
  | .sessionConfigure transport session baudRate stopBits parity dataBits =>
    targetUartSessionConfigure transport session baudRate stopBits parity dataBits
  | .sessionRead transport session capacity output =>
    targetUartSessionRead transport session capacity output
  | .sessionWrite transport session data output =>
    targetUartSessionWrite transport session data output

def uartMachine : Machine T UartAct UartAct.Answer (UartWorld T) UartCall UartCall.Value where
  may _ _ _ := True
  code _ c _ := c.code
  exec := UartWorld.exec
  finish _ _ _ w := w

instance (t : T) (c : UartCall) (w : UartWorld T) : Decidable (uartMachine.may t c w) :=
  isTrue trivial

/-- The static variables before the first call: no session, no owner. -/
structure UartWorld.Started (w : UartWorld T) : Prop where
  running : w.uart.suspended = false
  first : w.uart.nextSession = 1
  vacant : ∀ transport, w.uart.slots transport = .zero
  unowned : w.uart.txOwner = .none
  unlocked : w.txHolder = none

/-- A driver that does not fail and receives nothing. -/
def UartWorld.answer (t : T) (w : UartWorld T) :
    (a : UartAct) → Option (a.Answer × UartWorld T)
  | .loadInitialized => some (w.uart.initialized, w)
  | .lockTx => if w.txHolder.isNone then some (true, { w with txHolder := some t }) else none
  | .tryLockTx =>
    if w.txHolder.isNone then some (true, { w with txHolder := some t }) else some (false, w)
  | .unlockTx => some ((), { w with txHolder := none })
  | .locked s => some (some (s.run w.uart).1, { w with uart := (s.run w.uart).2 })
  | .loadGauge gauge => some (w.uart.gauges gauge, w)
  | .storeGauge gauge value => some ((),
    { w with uart := { w.uart with gauges := update w.uart.gauges gauge value } })
  | .addGauge gauge value => some ((), { w with uart := { w.uart with
      gauges := update w.uart.gauges gauge (w.uart.gauges gauge + value) } })
  | .readBytes => some (some [], w)
  | .waitTxDone => some (.ok, w)
  | .getBufferedDataLen => some (.ok 0, w)
  | .getTxBufferFreeSize => some (.ok 2048, w)
  | .paramConfig _ => some (.ok, w)
  | .writeBytes data => some (data.length, w)

theorem UartWorld.exec_answer (t : T) (w : UartWorld T) (a : UartAct)
    (r : a.Answer × UartWorld T) (h : w.answer t a = some r) : w.exec t a r.1 r.2 := by
  cases a with
  | lockTx =>
    simp only [UartWorld.answer, Option.isNone_iff_eq_none] at h
    split_ifs at h with hfree
    cases h
    exact .inl ⟨rfl, hfree, rfl⟩
  | tryLockTx =>
    simp only [UartWorld.answer, Option.isNone_iff_eq_none] at h
    split_ifs at h with hfree
    · cases h
      exact .inl ⟨rfl, hfree, rfl⟩
    · cases h
      exact .inr ⟨rfl, hfree, rfl⟩
  | locked s =>
    cases h
    exact .inr ⟨rfl, rfl⟩
  | loadInitialized | loadGauge =>
    cases h
    exact ⟨rfl, rfl⟩
  | _ =>
    cases h
    rfl

/-- The UART after its initialization. -/
def freshUart : UartWorld T := ⟨⟨true, false, 1, fun _ => .zero, .none, fun _ => 0⟩, none⟩

theorem freshUart_started : (freshUart : UartWorld T).Started := ⟨rfl, rfl, fun _ => rfl, rfl, rfl⟩

abbrev UartEvent (T : Type) :=
  Event T UartAct UartAct.Answer (UartWorld T) UartCall UartCall.Value

abbrev UartConfiguration (T : Type) :=
  Config T UartAct UartAct.Answer (UartWorld T) UartCall UartCall.Value

end AirDap

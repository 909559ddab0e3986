import AirDap.UsbIp.State

/-! The tasks of a USB/IP session: the receiver, a worker for each of the three endpoints that
take requests, the reader of the UART and the writer. A step of a task is one section under the
lock or one await; between two steps every other task may run. A task that fails ends the
session, but the others may still run until they are stopped. -/
namespace AirDap

/-- The workers, named after what their endpoints 0, 1 and 3 are for. -/
inductive UsbWorker where
  | control | dap | uart
  deriving DecidableEq, Repr

/-- `Descriptors`: what `get` answers to a value and an index, and `ms_os`. -/
structure Descriptors where
  get : BitVec 16 → BitVec 16 → Option (List Byte)
  msOs : List Byte

/-- What a control request asks for. -/
inductive ControlStart where
  | reply (data : Option (List Byte))
  | configuration (value : Byte)
  | coding (coding : List Byte)
  | lineState (value : BitVec 16)
  deriving DecidableEq, Repr

/-- What is left to do after `configure`. -/
inductive AfterConfigure where
  | coding
  | lineState (value : BitVec 16)
  deriving DecidableEq, Repr

/-- Where a worker is between two of its steps. -/
inductive WorkerPlace where
  | idle
  | taken (urb : Urb)
  | started (urb : Urb)
  | configuring (urb : Urb) (coding : List Byte) (after : AfterConfigure)
  | storing (urb : Urb) (coding : List Byte)
  | raising (urb : Urb) (value : BitVec 16)
  | spacing (urb : Urb)
  | waiting (urb : Urb)
  | rechecking (urb : Urb)
  | requesting (urb : Urb)
  | answered (urb : Urb) (response : List Byte)
  | writing (urb : Urb)
  | finishing (urb : Urb) (data : List Byte) (status : ℤ)
  | stopped
  deriving DecidableEq, Repr

/-- Where the reader of the UART is. -/
inductive ReaderPlace where
  | polling
  | reading (capacity : ℕ)
  | delivering
  | stopped
  deriving DecidableEq, Repr

/-- What the device answers to a call of the backend: a failure, or these bytes. -/
inductive BackendAnswer where
  | failed | ok (bytes : List Byte)
  deriving DecidableEq, Repr

/-- A session. The last four fields are what has happened so far: the URBs that were accepted,
the responses to DAP requests, the bytes read from the UART and the line codings that were
configured. -/
structure UsbSession where
  state : UsbState
  queues : UsbWorker → List Urb
  places : UsbWorker → WorkerPlace
  reader : ReaderPlace
  buffered : List Byte
  receiving : Bool
  writing : Bool
  active : List ℕ
  failed : Bool
  accepted : List Urb
  answers : List (Urb × List Byte)
  reads : List Byte
  configured : List (List Byte)

/-- The steps of the tasks: the receiver gets a command with its data, a worker or the reader of
the UART goes on with what the device answers, the writer takes a packet from the channel, or it
or another task fails at an await. -/
inductive UsbAction where
  | receive (header data : List Byte)
  | work (worker : UsbWorker) (answer : BackendAnswer)
  | read (answer : BackendAnswer)
  | write
  | closeWriter
  | fail

namespace UsbSession

variable (d : Descriptors) (x : UsbSession)

variable (worker : UsbWorker)

def enter (place : WorkerPlace) : UsbSession :=
  { x with places := Function.update x.places worker place }

/-- The worker fails. -/
def stop : UsbSession :=
  { x.enter worker .stopped with failed := true }

/-- The worker goes on to a place after a section under the lock, unless that failed. -/
def locked (result : UsbState × Bool) (next : WorkerPlace) : UsbSession :=
  if result.2 then { x.enter worker next with state := result.1 }
  else { x.stop worker with state := result.1 }

/-- The receiver goes on after a section under the lock, unless that failed. -/
def received (result : UsbState × Bool) : UsbSession :=
  if result.2 then { x with state := result.1 }
  else { x with state := result.1, receiving := false, failed := true }

def queueCapacity : UsbWorker → ℕ
  | .dap => 4
  | .control | .uart => 32

/-- The worker whose queue a submitted URB goes to. -/
def workerOf (urb : Urb) : Option UsbWorker :=
  if urb.ep = 0 then some .control
  else if urb.ep = 1 ∧ urb.direction = .output then some .dap
  else if urb.ep = 3 ∧ urb.direction = .output then some .uart
  else none

/-- The end of `receive` for a submitted URB that is pending now. -/
def dispatch (urb : Urb) : UsbSession :=
  match workerOf urb with
  | some worker =>
    if (x.queues worker).length < queueCapacity worker ∧ x.places worker ≠ .stopped then
      { x with queues := Function.update x.queues worker (x.queues worker ++ [urb]) }
    else x.received (x.state.complete urb [] (-12))
  | none =>
    if (urb.ep = 1 ∨ urb.ep = 2 ∨ urb.ep = 3) ∧ urb.direction = .input then
      if urb.size = 0 then x.received (x.state.complete urb [] 0)
      else x.received x.state.flush
    else x.received (x.state.complete urb [] usbStall)

/-- The URB is pending, as a new allocation. -/
def accept (urb : Urb) : UsbSession :=
  { x with
    state := { x.state with pending := x.state.pending ++ [urb] }
    accepted := x.accepted ++ [urb] }

/-- `receive` for a SUBMIT. -/
def submit (urb : Urb) : UsbSession :=
  if x.state.pending.length < 128 ∧ ∀ other ∈ x.state.pending, other.seq ≠ urb.seq then
    (x.accept urb).dispatch urb
  else { x with receiving := false, failed := true }

/-- `receive` for an UNLINK: the session ends with a target whose worker has begun. -/
def unlink (urb : Urb) : UsbSession :=
  x.received ((x.state.unlink urb).1, (x.state.unlink urb).2 &&
    !(x.state.unlinkTarget urb).any fun target => target.arc ∈ x.active)

/-- `receive` for one command. -/
def receive (header data : List Byte) : UsbSession :=
  if !x.receiving then x
  else match Urb.parse header with
    | none => { x with receiving := false, failed := true }
    | some urb =>
      if urb.command = 2 then x.unlink urb
      else if urb.direction = .output ∧ data.length ≠ urb.size then
        { x with receiving := false, failed := true }
      else x.submit (urb.allocate x.accepted.length data)

/-- The first four bytes as a number, the lowest one first. -/
def readU32Le (data : List Byte) : Word :=
  Wire.wordOf (byteAt data 3) (byteAt data 2) (byteAt data 1) (byteAt data 0)

/-- Whether `control` takes a line coding. -/
def codingAccepted (coding : List Byte) : Bool :=
  1 ≤ (readU32Le coding).toNat && (readU32Le coding).toNat ≤ 5000000 &&
    byteAt coding 4 ≤ 2 && byteAt coding 5 ≤ 2 && 5 ≤ byteAt coding 6 && byteAt coding 6 ≤ 8

variable (kind request : ℕ) (value index : BitVec 16) (size : ℕ)

/-- The match in `control`, up to the requests of the virtual serial port. -/
def standardRequest : Option ControlStart :=
  let v := value.toNat
  let i := index.toNat
  if kind = 0x80 ∧ request = 6 then some (.reply (d.get value index))
  else if kind = 0xc0 ∧ request = 0x20 ∧ v = 0 ∧ i = 7 then some (.reply (some d.msOs))
  else if kind = 0x80 ∧ request = 8 ∧ v = 0 ∧ i = 0 ∧ size = 1 then
    some (.reply (some [x.state.configuration]))
  else if kind = 0 ∧ request = 9 ∧ v ≤ 1 ∧ i = 0 ∧ size = 0 then
    some (.configuration (value.setWidth 8))
  else if kind = 0 ∧ request = 5 ∧ v ≤ 127 ∧ i = 0 ∧ size = 0 then some (.reply (some []))
  else if request = 0 ∧ v = 0 ∧ size = 2 ∧ (kind = 0x80 ∧ i = 0 ∨ kind = 0x81 ∧ i ≤ 2 ∨
      kind = 0x82 ∧ i ∈ [0, 0x80, 1, 0x81, 0x82, 3, 0x83]) then some (.reply (some [0, 0]))
  else if kind = 0x81 ∧ request = 10 ∧ v = 0 ∧ i ≤ 2 ∧ size = 1 then some (.reply (some [0]))
  else if v = 0 ∧ size = 0 ∧ (kind = 1 ∧ request = 11 ∧ i ≤ 2 ∨
      kind = 2 ∧ request = 1 ∧ i ∈ [1, 0x81, 0x82, 3, 0x83]) then some (.reply (some []))
  else none

/-- The requests of the virtual serial port in the match in `control`. -/
def serialRequest (urb : Urb) :
    ControlStart :=
  let v := value.toNat
  let i := index.toNat
  if kind = 0xa1 ∧ request = 0x21 ∧ v = 0 ∧ i = 1 ∧ size = 7 then .reply (some x.state.coding)
  else if kind = 0x21 ∧ request = 0x20 ∧ v = 0 ∧ i = 1 ∧ size = 7 then
    if codingAccepted urb.data then .coding urb.data else .reply none
  else if kind = 0x21 ∧ request = 0x22 ∧ v ≤ 3 ∧ i = 1 ∧ size = 0 then .lineState value
  else .reply none

/-- The match in `control`. -/
def controlMatch (urb : Urb) :
    ControlStart :=
  (standardRequest d x kind request value index size).getD
    (serialRequest x kind request value index size urb)

/-- A number of sixteen bits in a setup packet, the lower byte first. -/
def readU16Le (data : List Byte) (offset : ℕ) : BitVec 16 :=
  Wire.halfOf (byteAt data (offset + 1)) (byteAt data offset)

/-- The beginning of `control`. -/
def controlStart (urb : Urb) : ControlStart :=
  let kind := (byteAt urb.setup 0).toNat
  let size := (readU16Le urb.setup 6).toNat
  if (urb.direction = .input ↔ ¬ 128 ≤ kind) ∨ size ≠ urb.size ∨
      (urb.direction = .output ∧ size ≠ urb.data.length) then .reply none
  else controlMatch d x kind (byteAt urb.setup 1).toNat (readU16Le urb.setup 2)
    (readU16Le urb.setup 4) size urb

/-- The end of `control` and the arguments of the `complete` after it. -/
def replyPlace (urb : Urb) : Option (List Byte) → WorkerPlace
  | some data => .finishing urb (data.take urb.size) 0
  | none => .finishing urb [] usbStall

/-- The notification of SET_CONTROL_LINE_STATE. -/
def serialState : List Byte := [0xa1, 0x20, 0, 0, 1, 0, 2, 0, 0, 0]

/-- The worker of endpoint 0 after the test that the URB is still pending. -/
def startControl (urb : Urb) : UsbSession :=
  match controlStart d x urb with
  | .reply data => x.enter .control (replyPlace urb data)
  | .configuration value =>
    if value = 0 ∧ x.state.configuration ≠ 0 then x.stop .control
    else x.locked .control ({ x.state with configuration := value }, true)
      (replyPlace urb (some []))
  | .coding coding =>
    if x.state.lineState &&& 1 ≠ 0 then x.enter .control (.configuring urb coding .coding)
    else x.enter .control (.storing urb coding)
  | .lineState value =>
    if value &&& 1 ≠ 0 ∧ x.state.lineState &&& 1 = 0 then
      x.enter .control (.configuring urb x.state.coding (.lineState value))
    else x.enter .control (.raising urb value)

/-- The worker of any endpoint after the test that the URB is still pending. -/
def begin (urb : Urb) : UsbSession :=
  match worker with
  | .control => startControl d x urb
  | .dap =>
    if ¬ (1 ≤ urb.size ∧ urb.size ≤ 508) then x.enter worker (.finishing urb [] usbStall)
    else x.enter worker (.spacing urb)
  | .uart =>
    if x.state.lineState &&& 1 = 0 then x.enter worker (.finishing urb [] usbStall)
    else x.enter worker (.writing urb)

/-- The test of a response in `Backend::dap`. -/
def dapResponseOk (request response : List Byte) : Bool :=
  response ≠ [] ∧ response.length ≤ 508 ∧
    (byteAt response 0 = byteAt request 0 ∨ byteAt response 0 = 255)

/-- What `configure` sends with CONFIGURE: the line coding with the baud rate turned round. -/
def configureData (coding : List Byte) : List Byte := (coding.take 4).reverse ++ coding.drop 4

/-- The worker after `configure`. -/
def afterConfigure (urb : Urb) (coding : List Byte) : AfterConfigure → WorkerPlace
  | .coding => .storing urb coding
  | .lineState value => .raising urb value

/-- One step of a worker. -/
def work (answer : BackendAnswer) : UsbSession :=
  match x.places worker with
  | .idle =>
    match x.queues worker with
    | [] => x
    | urb :: rest =>
      { x.enter worker (.taken urb) with queues := Function.update x.queues worker rest }
  | .taken urb =>
    if x.state.present urb then
      { x.enter worker (.started urb) with active := urb.arc :: x.active }
    else x.enter worker .idle
  | .started urb => begin d x worker urb
  | .configuring urb coding after =>
    match answer with
    | .failed => x.stop worker
    | .ok _ => { x.enter worker (afterConfigure urb coding after) with
        configured := x.configured ++ [configureData coding] }
  | .storing urb coding =>
    x.locked worker ({ x.state with coding := coding }, true) (replyPlace urb (some []))
  | .raising urb value =>
    x.locked worker
      { x.state with lineState := value, notification := serialState }.flush
      (replyPlace urb (some []))
  | .spacing urb =>
    if x.state.responses.length < 4 then x.enter worker (.rechecking urb)
    else x.enter worker (.waiting urb)
  | .waiting urb =>
    if x.state.space then
      x.locked worker ({ x.state with space := false }, true) (.spacing urb)
    else x
  | .rechecking urb =>
    if x.state.present urb then x.enter worker (.requesting urb) else x.enter worker .idle
  | .requesting urb =>
    match answer with
    | .failed => x.stop worker
    | .ok response =>
      if dapResponseOk urb.data response then
        { x.enter worker (.answered urb response) with answers := x.answers ++ [(urb, response)] }
      else x.stop worker
  | .answered urb response =>
    let (state, ok) :=
      { x.state with responses := x.state.responses ++ [response] }.complete urb [] 0
    if ok then x.locked worker state.flush .idle else x.locked worker (state, false) .idle
  | .writing urb =>
    match answer with
    | .failed => x.stop worker
    | .ok _ => x.enter worker (.finishing urb [] 0)
  | .finishing urb data status => x.locked worker (x.state.complete urb data status) .idle
  | .stopped => x

/-- The reader of the UART stops. -/
def stopReader : UsbSession := { x with reader := .stopped, failed := true }

/-- One step of the reader of the UART. -/
def read (answer : BackendAnswer) : UsbSession :=
  match x.reader with
  | .polling =>
    match x.state.firstInput 3 with
    | none => x
    | some urb =>
      { x with reader := if x.buffered = [] then .reading (min urb.size 256) else .delivering }
  | .reading capacity =>
    match answer with
    | .failed => x.stopReader
    | .ok response =>
      if 4 ≤ response.length ∧ response.length ≤ 4 + capacity then
        { x with
          reader := .delivering, buffered := response.drop 4, reads := x.reads ++ response.drop 4 }
      else x.stopReader
  | .delivering =>
    match x.state.firstInput 3 with
    | none => { x with reader := .polling }
    | some urb =>
      if x.buffered = [] then { x with reader := .polling }
      else
        let size := min urb.size x.buffered.length
        let (state, ok) := x.state.complete urb (x.buffered.take size) 0
        if ok then { x with state := state, reader := .polling, buffered := x.buffered.drop size }
        else { x.stopReader with state := state }
  | .stopped => x

/-- One step of a session. -/
def step (x : UsbSession) : UsbAction → UsbSession
  | .receive header data => x.receive header data
  | .work worker answer => work d x worker answer
  | .read answer => x.read answer
  | .write =>
    if x.writing ∧ x.state.room < 128 then
      { x with state := { x.state with room := x.state.room + 1 } }
    else x
  | .closeWriter =>
    { x with state := { x.state with room := 0 }, writing := false, failed := true }
  | .fail => { x with failed := true }

/-- A new session. -/
def start : UsbSession where
  state := .start
  queues := fun _ => []
  places := fun _ => .idle
  reader := .polling
  buffered := []
  receiving := true
  writing := true
  active := []
  failed := false
  accepted := []
  answers := []
  reads := []
  configured := []

/-- A session after these steps. -/
def run (actions : List UsbAction) : UsbSession := actions.foldl (step d) start

end UsbSession

end AirDap

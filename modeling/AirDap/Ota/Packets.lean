import AirDap.Dap.Release
import AirDap.Ota.Joint

/-! A DAP packet that comes in over USB, run down to the OTA manager. A DAP_Connect that the
manager refuses is cleaned up like a DAP_Disconnect, and that ends the update. No other packet
of a debugger touches the session. -/
namespace AirDap
open Concurrency Prog

/-! `dap_ota.c` -/

def OtaStatus.code : OtaStatus → Byte
  | .ok => 0
  | .invalidArgument => 1
  | .invalidState => 2
  | .invalidSize => 3
  | .invalidOffset => 4
  | .incompleteImage => 5
  | .writeFailed => 6
  | .validationFailed => 7
  | .activationFailed => 8
  | .internalError => 9
  | .unauthenticated => 10
  | .busy => 11

/-- The part of `airdap_ota_info_t` that a query answers with. The version is the list of its
bytes before the terminating zero. -/
structure OtaInfo where
  maxImageSize : Word
  protocolVersion : Byte
  flags : Byte
  runningVersion : List Byte
  deriving DecidableEq, Repr

def otaStatusResponse (command : Byte) (status : OtaStatus) (responseCapacity : ℕ) : List Byte :=
  if responseCapacity < 2 then [] else [command, status.code]

/-- `process_query`, with what `airdap_ota_get_info` answers. -/
def processQuery (info : Except OtaStatus OtaInfo) (responseCapacity : ℕ) : List Byte :=
  match info with
  | .error status => otaStatusResponse DapCommand.otaQuery.code status responseCapacity
  | .ok info =>
    let version := info.runningVersion.take 32
    if responseCapacity < 9 + version.length then []
    else [DapCommand.otaQuery.code, OtaStatus.ok.code, info.protocolVersion, info.flags] ++
      writeU32 info.maxImageSize ++ [BitVec.ofNat 8 version.length] ++ version

/-- `process_write`. -/
def processWrite (rounds : ℕ) (request : List Byte) (responseCapacity : ℕ) :
    OtaCode (List Byte) :=
  let dataLength := (readU16 (request.drop 5)).toNat
  if request.length < otaWriteHeaderSize ∨ dataLength > otaMaxWriteSize ∨
      request.length ≠ otaWriteHeaderSize + dataLength then
    pure (otaStatusResponse DapCommand.otaWrite.code .invalidArgument responseCapacity)
  else do
    let (status, nextOffset) ← otaWriteForClient rounds none (readU32 (request.drop 1))
      (some (request.drop otaWriteHeaderSize)) (some 0)
    let response := otaStatusResponse DapCommand.otaWrite.code status responseCapacity
    pure (if status ≠ .ok ∨ response = [] then response
      else if responseCapacity < 6 then [] else response ++ writeU32 (nextOffset.getD 0))

/-- A vendor command of `size` bytes that only answers with a status. -/
def statusCommand (request : List Byte) (size responseCapacity : ℕ) (p : OtaCode OtaStatus) :
    OtaCode (List Byte) :=
  if request.length ≠ size then
    pure (otaStatusResponse (byteAt request 0) .invalidArgument responseCapacity)
  else do
    let status ← p
    pure (otaStatusResponse (byteAt request 0) status responseCapacity)

/-- `OTA_REBOOT`: a reboot that succeeds has no response. -/
def processReboot (request : List Byte) (responseCapacity : ℕ) : OtaCode (List Byte) :=
  if request.length ≠ 1 then
    pure (otaStatusResponse (byteAt request 0) .invalidArgument responseCapacity)
  else do
    let status ← otaRebootForClient none
    pure (if status = .ok then [] else otaStatusResponse (byteAt request 0) status responseCapacity)

/-- The `switch` of `airdap_dap_ota_process`. -/
def otaCommand (rounds : ℕ) (info : Except OtaStatus OtaInfo) (request : List Byte)
    (responseCapacity : ℕ) : Option DapCommand → OtaCode (List Byte)
  | some .otaQuery =>
    pure (if request.length ≠ 1 then
        otaStatusResponse (byteAt request 0) .invalidArgument responseCapacity
      else processQuery info responseCapacity)
  | some .otaBegin =>
    statusCommand request 5 responseCapacity
      (otaBeginForClient rounds none (readU32 (request.drop 1)))
  | some .otaWrite => processWrite rounds request responseCapacity
  | some .otaCommit => statusCommand request 1 responseCapacity (otaCommitForClient rounds none)
  | some .otaAbort => statusCommand request 1 responseCapacity (otaAbortForClient rounds none)
  | some .otaReboot => processReboot request responseCapacity
  | _ => pure []

/-- `airdap_dap_ota_process`. -/
def dapOtaProcess (rounds : ℕ) (info : Except OtaStatus OtaInfo) (debugConnected : Bool)
    (request : List Byte) (responseCapacity : ℕ) : OtaCode (List Byte) :=
  let command := byteAt request 0
  if request.length = 0 then pure []
  else if command < DapCommand.otaQuery.code ∨ command > DapCommand.otaReboot.code then pure []
  else if command ≠ DapCommand.otaQuery.code ∧ debugConnected then
    pure (otaStatusResponse command .invalidState responseCapacity)
  else otaCommand rounds info request responseCapacity (DapCommand.ofByte command)

/-- What a packet finds below the backend: the answers of the target by their positions, what
`airdap_ota_get_info` answers, and the rounds of the retry loops. -/
structure PacketEnv where
  target : ℕ → (c : TargetCall) → c.Answer
  info : Except OtaStatus OtaInfo
  rounds : ℕ

/-- The handles of a packet with the number of the operations of the target so far. -/
abbrev PacketState := LinkHandles ℕ

/-- The calls of the update carried out by the manager itself. -/
def managedBelow (env : PacketEnv) : Below OtaIo.Answer ℕ where
  debugAllowed := otaDebugAllowed
  handleDisconnect := otaHandleDisconnect env.rounds
  otaProcess := dapOtaProcess env.rounds env.info
  target c position := pure (env.target position c, position + 1)

abbrev managedCall (env : PacketEnv) := lowerCode (managedBelow env)

/-- `airdap_dap_process` down to the OTA manager. -/
def managedPacket (env : PacketEnv) (link : Link) (request : List Byte) (responseCapacity : ℕ) :
    OtaCode (List Byte × Link) :=
  packetCode (managedBelow env) 0 link request responseCapacity

/-- The two sessions show the same update. -/
structure SameUpdate (s s' : OtaSession) : Prop where
  state : s'.state = s.state
  connection : s'.connection = s.connection
  ownerSession : s'.ownerSession = s.ownerSession
  writtenSize : s'.writtenSize = s.writtenSize
  handle : s'.handle = s.handle

/-- The packet is no DAP_Disconnect and none of the commands of an update. -/
def DebugPacket (request : List Byte) : Prop :=
  byteAt request 0 ≠ DapCommand.disconnect.code ∧
    ¬ (DapCommand.otaQuery.code ≤ byteAt request 0 ∧ byteAt request 0 ≤ DapCommand.otaReboot.code)

/-- The packet is a whole DAP_Connect with room for its response. -/
def Connecting (request : List Byte) (responseCapacity : ℕ) : Prop :=
  byteAt request 0 = DapCommand.connect.code ∧ 2 ≤ request.length ∧ 2 ≤ responseCapacity

theorem DebugPacket.works {request : List Byte} (h : DebugPacket request)
    (hconnect : byteAt request 0 ≠ DapCommand.connect.code) :
    ∀ c ∈ DapCommand.ofByte (byteAt request 0), c.Works := by
  intro c hc
  have hcode := DapCommand.code_of_ofByte hc
  cases c with
  | connect => exact absurd hcode hconnect
  | disconnect => exact absurd hcode h.1
  | otaQuery | otaBegin | otaWrite | otaCommit | otaAbort | otaReboot =>
    exact h.2 (by rw [hcode]; decide)
  | _ => trivial

section Keeps

variable {T : Type} {t : T} {env : PacketEnv} {α : Type}

theorem otaExec_memory {a : Act OtaIo} {r : Resp OtaIo.Answer a} {w w' : OtaDevice T}
    (ha : ∀ i, a ≠ .io i) (hexec : otaExec t w a r w') : w'.memory = w.memory := by
  cases a with
  | io i => exact absurd rfl (ha i)
  | loadOwnership => rw [hexec.2]
  | loadMode => rw [hexec.2]
  | loadPreemptions => rw [hexec.2]
  | casOwnership e d => rcases hexec with ⟨-, -, rfl⟩ | ⟨-, -, rfl⟩ <;> rfl
  | casOwnershipWeak e d => rcases hexec with ⟨-, -, rfl⟩ | ⟨-, rfl⟩ <;> rfl
  | casModeWeak e d => rcases hexec with ⟨-, -, rfl⟩ | ⟨-, rfl⟩ <;> rfl
  | saveRoute route => rcases hexec with rfl | ⟨-, rfl⟩ <;> rfl
  | _ => cases hexec; rfl

theorem otaExec_session {a : Act OtaIo} {r : Resp OtaIo.Answer a} {w w' : OtaDevice T}
    (ha : ∀ session, a ≠ .io (.storeSession session)) (hexec : otaExec t w a r w') :
    w'.memory.session = w.memory.session := by
  cases a with
  | io i =>
    obtain ⟨m, hm, rfl⟩ := hexec
    cases i with
    | storeSession session => exact absurd rfl (ha session)
    | lockSession => rcases hm with ⟨-, -, rfl⟩ | ⟨-, rfl⟩ <;> rfl
    | loadSession => rw [hm.2]
    | uartSuspend => rcases hm with rfl | ⟨-, rfl⟩ <;> rfl
    | uartResume => rcases hm with ⟨-, rfl⟩ | ⟨-, rfl⟩ <;> rfl
    | _ => cases hm; rfl
  | _ => rw [otaExec_memory (by simp) hexec]

theorem Traffic.keeps {p : OtaCode α} {b : Bool} (hp : Traffic p b) (Q : OtaMemory T → Prop) :
    p.Keeps (otaExec t) fun w => Q w.memory := by
  refine Prog.Follows.keeps hp ?_
  intro x a w r w₁ ha hw hexec
  have hmemory : w₁.memory = w.memory := by
    refine otaExec_memory ?_ hexec
    rintro i rfl
    exact ha
  rw [hmemory]
  exact hw

/-- The calls of the backend that go to the mode state or to the arbiter. -/
theorem managedCall_traffic (Q : OtaMemory T → Prop) (c : LowerCall) (hc : c.Debugs)
    (hota : c ≠ .otaDebugAllowed) (st : PacketState) :
    (managedCall env c st).Keeps (otaExec t) fun w => Q w.memory := by
  cases c with
  | otaDebugAllowed => exact absurd rfl hota
  | otaHandleDisconnect | otaProcess connected request capacity => exact hc.elim
  | dapAcquire owner =>
    exact ((Traffic.parts.modeDapAcquire _ _ _).keeps Q).bind fun _ => keeps_ret
  | operationBegin owner =>
    exact ((Traffic.parts.dapOperationBegin _ _ _ _).keeps Q).bind fun _ => keeps_ret
  | operationEnd => exact ((Traffic.parts.operationEnd _).keeps Q).bind fun _ => keeps_ret
  | ownershipRelease => exact ((Traffic.parts.release _).keeps Q).bind fun _ => keeps_ret
  | ownershipCurrent => exact (Traffic.parts.current.keeps Q).bind fun _ => keeps_ret
  | target c => exact keeps_ret

section Session

variable {session : OtaSession}

theorem keeps_sparing {a : Act OtaIo} {k : Resp OtaIo.Answer a → OtaCode α}
    (ha : ∀ session, a ≠ .io (.storeSession session))
    (hk : ∀ r, (k r).Keeps (otaExec t) fun w => w.memory.session = session) :
    (Prog.act a k).Keeps (otaExec t) fun w => w.memory.session = session :=
  keeps_act fun _ r _ hw hexec => ⟨(otaExec_session ha hexec).trans hw, hk r⟩

theorem otaDebugAllowed_keeps :
    otaDebugAllowed.Keeps (otaExec t) fun w => w.memory.session = session := by
  have hmode : modeGet.Keeps (otaExec t) fun w => w.memory.session = session := by
    unfold modeGet
    refine keeps_sparing (by simp) fun control => ?_
    exact keeps_guard fun _ => keeps_sparing (by simp) fun _ => keeps_ret
  have hget : debugAllowedLocked.Keeps (otaExec t) fun w => w.memory.session = session := by
    unfold debugAllowedLocked
    refine keeps_sparing (by simp) fun found => ?_
    refine keeps_guard fun _ => ?_
    apply hmode.bind
    intro mode
    cases mode <;> exact keeps_ret
  unfold otaDebugAllowed underLock
  refine keeps_sparing (by simp) fun locked => ?_
  cases locked with
  | false => exact keeps_ret
  | true => exact hget.bind fun _ => keeps_sparing (by simp) fun _ => keeps_ret

theorem managedCall_keeps (c : LowerCall) (hc : c.Debugs) (st : PacketState) :
    (managedCall env c st).Keeps (otaExec t) fun w => w.memory.session = session := by
  by_cases hota : c = .otaDebugAllowed
  · subst hota
    exact otaDebugAllowed_keeps.bind fun _ => keeps_ret
  · exact managedCall_traffic (fun m => m.session = session) c hc hota st

end Session

end Keeps

section Refused

variable {T : Type} {t : T} {w : OtaDevice T}

/-- The device carries out whatever the thread asks for. -/
abbrev willing (t : T) : OtaDevice T → (a : Act OtaIo) → Resp OtaIo.Answer a × OtaDevice T :=
  otaAnswer (fun _ => otaWilling) t

theorem otaDebugAllowed_refuses (hfree : w.memory.sessionMutex = none)
    (hstate : w.memory.session.state ≠ .idle) :
    otaDebugAllowed.Ends (willing t) (fun v w' => v = false ∧ w'.memory = w.memory) w := by
  have hmemory : ({ w.memory with sessionMutex := none } : OtaMemory T) = w.memory := by
    rw [← hfree]
  simp [otaDebugAllowed, underLock, debugAllowedLocked, otaIo, io, Prog.Ends, otaAnswer, hfree,
    hstate, hmemory]

theorem ownershipRelease_ends (claim : Claim) (w : OtaDevice T) :
    (ownershipRelease (some claim)).Ends (willing t) (fun _ w' => w'.memory = w.memory) w := by
  unfold ownershipRelease
  refine ends_guard rfl fun _ => ?_
  simp only [casOwnership, act_bind, Prog.Ends, otaAnswer, Device.answer]
  split
  · rfl
  · rfl

/-- A transition to which no other thread adds anything takes one round. -/
theorem modeTransition_ends {event : ModeEvent} (he : event ≠ .usbAttached) (w : OtaDevice T) :
    (modeTransition 1 event).Ends (willing t) (fun _ w' => w'.memory = w.memory) w := by
  simp only [modeTransition, he, if_false, loadMode, act_bind, ret_bind, Prog.Ends,
    otaAnswer, Device.answer, transitionLoop, endPreemption]
  refine ends_guard rfl fun _ => ?_
  cases nextControl w.modeControl event with
  | error result => rfl
  | ok next => simp [casModeWeak, Prog.Ends, otaAnswer, Device.answer]

theorem ownershipResume_ends (w : OtaDevice T) :
    (ownershipResume 1).Ends (willing t) (fun _ w' => w'.memory = w.memory) w := by
  simp only [ownershipResume, loadOwnership, act_bind, ret_bind, Prog.Ends, otaAnswer,
    Device.answer, resumeLoop]
  refine ends_guard rfl fun _ => ?_
  refine ends_guard rfl fun _ => ?_
  refine ends_guard rfl fun _ => ?_
  refine ends_guard rfl fun _ => ?_
  simp [casOwnershipWeak, Prog.Ends, otaAnswer, Device.answer]

theorem restoreIdleMode_ends {event : ModeEvent} (he : event ≠ .usbAttached) (w : OtaDevice T) :
    (restoreIdleMode 1 event).Ends (willing t)
      (fun _ w' => w'.memory.session = w.memory.session) w := by
  apply (modeTransition_ends he w).bind
  intro result w₁ hw₁
  refine ends_guard (congrArg OtaMemory.session hw₁) fun _ => ?_
  apply (ownershipResume_ends w₁).bind
  intro result w₂ hw₂
  have hsession : w₂.memory.session = w.memory.session := by rw [hw₂, hw₁]
  split
  · exact hsession
  · exact hsession

theorem abortLocked_ends (hstate : w.memory.session.state = .receiving) :
    (abortLocked 1).Ends (willing t) (fun _ w' => w'.memory.session = .zero) w := by
  have hdrop : (dropSession 1 .otaAborted .ok).Ends (willing t)
      (fun _ w' => w'.memory.session = .zero) w :=
    (restoreIdleMode_ends (by decide) _).bind fun _ _ h => h
  have hdone (handle : Word) : otaWilling (.otaAbort handle) = true := rfl
  simpa [abortLocked, otaIo, io, Prog.Ends, otaAnswer, hstate, hdone] using hdrop

theorem otaHandleDisconnect_ends (hfree : w.memory.sessionMutex = none)
    (hstate : w.memory.session.state = .receiving) (howner : OwnsSession w.memory.session none) :
    (otaHandleDisconnect 1).Ends (willing t) (fun _ w' => w'.memory.session = .zero) w := by
  have hbody {w : OtaDevice T} (hstate : w.memory.session.state = .receiving) :
      (abortLocked 1 >>= fun result => do
        otaIo .unlockSession
        pure result).Ends (willing t) (fun _ w' => w'.memory.session = .zero) w :=
    (abortLocked_ends hstate).bind fun _ _ h => h
  have hdisconnect : (otaDisconnectClient 1 none).Ends (willing t)
      (fun _ w' => w'.memory.session = .zero) w := by
    simp only [otaDisconnectClient, underLock, otaIo, io, act_bind, ret_bind,
      Prog.Ends, otaAnswer, hfree, Option.isNone_none, if_true, hstate, howner, and_self]
    exact hbody rfl
  exact hdisconnect.bind fun _ _ h => h

section Packet

variable {env : PacketEnv} {owner : Owner} {selectedPort : Byte} {clockHz : Word}
  {st : PacketState}

theorem managed_connect (hfree : w.memory.sessionMutex = none)
    (hstate : w.memory.session.state ≠ .idle) :
    (carried (managedBelow env) owner selectedPort (.act .connect .ret) clockHz st).Ends (willing t)
      (fun r w' => r.1.1 = false ∧ w'.memory = w.memory) w := by
  have hasked : (managedCall env .otaDebugAllowed st).Ends (willing t)
      (fun r w' => r.1 = false ∧ w'.memory = w.memory) w :=
    (otaDebugAllowed_refuses hfree hstate).bind fun _ _ h => h
  rw [carried, handle_act, backendCall, withClock, handle_bind, backendConnect,
    handle_bind, lower, handle_act]
  apply Prog.Ends.bind (Q := fun r w' => r.1 = false ∧ w'.memory = w.memory)
  · apply hasked.bind
    intro r w₁ hw₁
    rw [hw₁.1]
    exact ⟨rfl, hw₁.2⟩
  · exact fun _ _ h => h

theorem managed_disconnect (hrounds : env.rounds = 1) (hfree : w.memory.sessionMutex = none)
    (hstate : w.memory.session.state = .receiving) (howner : OwnsSession w.memory.session none) :
    (carried (managedBelow env) .usb selectedPort (.act .disconnect .ret) clockHz st).Ends
      (willing t)
      (fun _ w' => w'.memory.session = .zero) w := by
  have hreleased : (managedCall env .ownershipRelease st).Ends (willing t)
      (fun _ w' => w'.memory = w.memory) w :=
    (ownershipRelease_ends st.claim w).bind fun _ _ h => h
  rw [carried, handle_act, backendCall, withClock, handle_bind, backendDisconnect,
    handle_bind, lower, handle_act]
  apply Prog.Ends.bind (Q := fun _ w' => w'.memory.session = .zero)
  · apply hreleased.bind
    intro r w₁ hw₁
    rw [if_pos rfl, lower, handle_act, lowerCode, managedBelow, hrounds]
    rw [← hw₁] at hfree hstate howner
    exact (otaHandleDisconnect_ends hfree hstate howner).bind fun _ _ h => h
  · exact fun _ _ h => h

theorem managedPacket_connect {link : Link} {request : List Byte} {capacity : ℕ}
    (husb : link.context.owner = .usb)
    (hbackend : link.context.processor.backend = installedBackend)
    (hconnect : Connecting request capacity) (hrounds : env.rounds = 1)
    (hfree : w.memory.sessionMutex = none) (hstate : w.memory.session.state = .receiving)
    (howner : OwnsSession w.memory.session none) :
    (managedPacket env link request capacity).Ends (willing t)
      (fun _ w' => w'.memory.session = .zero) w := by
  have hcommand : processPacket link.context.processor request capacity =
      processConnect link.context.processor request (min capacity dapPacketSize) := by
    obtain ⟨hcode, hlength, hcapacity⟩ := hconnect
    have hsome : ¬ (request.length = 0 ∨ capacity = 0) := by omega
    rw [processPacket, if_neg hsome, hcode, DapCommand.ofByte_code, processCommand]
  have hwhole : ¬ (request.length < 2 ∨ min capacity dapPacketSize < 2) := by
    obtain ⟨-, hlength, hcapacity⟩ := hconnect
    simp only [dapPacketSize]
    omega
  have hport : (carried (managedBelow env) .usb link.context.processor.selectedPort
      (connectPort link.context.processor (byteAt request 1)) link.context.clockHz
      ⟨link.claim, .zero, 0⟩).Ends (willing t)
      (fun r w' => r.1.1 = false ∧ w'.memory = w.memory) w := by
    unfold connectPort
    split
    · rw [callback, hbackend]
      exact managed_connect hfree (by rw [hstate]; decide)
    · exact ⟨rfl, rfl⟩
  rw [managedPacket, packetCode_eq, husb, hcommand, processConnect, if_neg hwhole, carried_bind,
    bind_assoc]
  apply hport.bind
  intro r w₁ hw₁
  rw [carried_bind, bind_assoc, disconnectUnless, hw₁.1, callback, hbackend]
  rw [← hw₁.2] at hfree hstate howner
  apply (managed_disconnect hrounds hfree hstate howner).bind
  exact fun _ _ h => h

end Packet
end Refused

section Update

variable {T : Type} {t : T} {w : OtaDevice T} {link : Link} {request : List Byte} {capacity : ℕ}

theorem managedPacket_keeps {env : PacketEnv} {ψ : LowerCall → Prop}
    {φ : List Byte × TransportContext → Prop} {P : OtaDevice T → Prop}
    (hp : (dapProcess link.context request capacity).Yields ψ φ)
    (hcall : ∀ c st, ψ c → (managedCall env c st).Keeps (otaExec t) P) :
    (managedPacket env link request capacity).Keeps (otaExec t) P :=
  (hp.keeps_handle hcall _).bind fun _ => keeps_ret

theorem dapProcess_short (context : TransportContext)
    (hcommand : byteAt request 0 = DapCommand.connect.code)
    (hshort : ¬ (2 ≤ request.length ∧ 2 ≤ capacity)) :
    (dapProcess context request capacity).Yields (fun _ => False) fun _ => True := by
  have hpacket : (processPacket context.processor request capacity).Yields (fun _ => False)
      fun _ => True := by
    unfold processPacket
    refine yields_guard trivial fun _ => ?_
    have hinvalid : request.length < 2 ∨ min capacity dapPacketSize < 2 := by omega
    rw [hcommand, DapCommand.ofByte_code, processCommand, processConnect, if_pos hinvalid]
    trivial
  apply (hpacket.handle (fun _ _ hc => hc.elim) context.clockHz).bind
  exact fun _ _ => trivial

/-- While the USB client updates the device, a packet of a debugger leaves the session as it is
in every run exactly if it is no whole DAP_Connect. The mutex of the session is free: the
device waits for it. -/
theorem debug_packet_spares_update_iff (husb : link.context.owner = .usb)
    (hbackend : link.context.processor.backend = installedBackend)
    (hstate : w.memory.session.state = .receiving) (howner : OwnsSession w.memory.session none)
    (hfree : w.memory.sessionMutex = none) (hpacket : DebugPacket request) :
    (∀ env v w', (managedPacket env link request capacity).Runs (otaExec t) v w w' →
        SameUpdate w.memory.session w'.memory.session) ↔
      ¬ Connecting request capacity := by
  constructor
  · intro hsame hconnect
    obtain ⟨env, hrounds⟩ : ∃ env : PacketEnv, env.rounds = 1 :=
      ⟨⟨fun _ => TargetCall.granted 0, .error .internalError, 1⟩, rfl⟩
    obtain ⟨v, w', hrun, hzero⟩ := (managedPacket_connect (t := t) husb hbackend hconnect hrounds
      hfree hstate howner).runs (otaExec_answer _ t)
    have hchanged := (hsame _ v w' hrun).state
    rw [hzero, hstate] at hchanged
    cases hchanged
  · intro hspared env v w' hrun
    suffices hsession : w'.memory.session = w.memory.session by
      rw [hsession]
      exact ⟨rfl, rfl, rfl, rfl, rfl⟩
    by_cases hcommand : byteAt request 0 = DapCommand.connect.code
    · have hshort : ¬ (2 ≤ request.length ∧ 2 ≤ capacity) := fun h => hspared ⟨hcommand, h⟩
      exact managedPacket_keeps (P := fun w' => w'.memory.session = w.memory.session)
        (dapProcess_short link.context hcommand hshort) (fun _ _ hc => hc.elim) v w w' rfl hrun
    · exact managedPacket_keeps
        (dapProcess_debugs link.context request capacity (hpacket.works hcommand))
        (fun c st hc => managedCall_keeps c hc st) v w w' rfl hrun

/-- The USB client has begun an update of three bytes. -/
def updatingDevice : OtaDevice Unit :=
  (otaRun (fun _ => otaWilling) 12 [((), .begin none 3)]).world

/-- The USB transport as `airdap_dap_init` leaves it. -/
def usbLink : Link := ⟨.init .usb [] [], .zero⟩

/-- A DAP_Connect is answered with port 0 and ends the update. -/
theorem connect_ends_update :
    updatingDevice.memory.session.state = .receiving ∧
      OwnsSession updatingDevice.memory.session none ∧ DebugPacket [0x02, 0x01] ∧
      ∃ env v w',
        (managedPacket env usbLink [0x02, 0x01] 64).Runs (otaExec ()) v updatingDevice w' ∧
        v.1 = [0x02, 0x00] ∧ w'.memory.session.state = .idle := by
  have hends : (managedPacket ⟨fun _ => TargetCall.granted 0, .error .internalError, 1⟩ usbLink
      [0x02, 0x01] 64).Ends (willing ())
      (fun v w' => v.1 = [0x02, 0x00] ∧ w'.memory.session.state = .idle) updatingDevice := by
    decide +kernel
  exact ⟨rfl, ⟨rfl, rfl⟩, ⟨by decide, by decide⟩, _, hends.runs (otaExec_answer _ ())⟩

/-- A DAP_Info leaves the update as it is. -/
theorem info_spares_update : DebugPacket [0x00, 0x04] ∧ ∀ env v w',
    (managedPacket env usbLink [0x00, 0x04] 64).Runs (otaExec ()) v updatingDevice w' →
      SameUpdate updatingDevice.memory.session w'.memory.session := by
  have hpacket : DebugPacket [0x00, 0x04] := ⟨by decide, by decide⟩
  exact ⟨hpacket, (debug_packet_spares_update_iff rfl rfl rfl ⟨rfl, rfl⟩ rfl hpacket).mpr
    fun h => absurd h.1 (by decide)⟩

end Update
end AirDap

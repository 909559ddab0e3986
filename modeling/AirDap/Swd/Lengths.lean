import AirDap.Swd.Sequences

/-! The transactions of the engine: how long they are. -/
namespace AirDap
open Concurrency Prog

namespace Swd

/-- Writes one after the other, up to the first that fails. -/
def writeAll (engine : Engine) : List (BitVec 64 × ℕ) → SwdCode SwdError
  | [] => pure .ok
  | (bits, count) :: writes => do
    let error ← writeBits bits count engine
    if error ≠ .ok then pure error else writeAll engine writes

/-- The line reset, the switch to SWD, a line reset again and idle cycles. -/
def connectWrites : List (BitVec 64 × ℕ) :=
  [(BitVec.allOnes 64, 64), (0xE79E, 16), (1 <<< 56 - 1, 56), (0, 8)]

/-- ESP_ERR_TIMEOUT. -/
def timeoutError : SwdError := .driver 0x107

/-- `airdap_swd_protocol_connect`, with five retries. -/
def protocolConnect (rounds : ℕ) (idcode : Word) (engine : Engine) : SwdCode Result := do
  let (error, engine) ← setHostOutput true engine
  if error ≠ .ok then pure ⟨error, idcode, 0, engine⟩
  else do
    let error ← writeAll engine connectWrites
    if error ≠ .ok then pure ⟨error, idcode, 0, engine⟩
    else do
      let r ← protocolTransfer rounds idcodeRequest idcode 0 { engine with waitRetries := 5 }
      let error := if r.error ≠ .ok then r.error else if r.ack = ackWait then timeoutError
        else if r.ack ≠ ackOk then .invalidResponse else .ok
      pure { r with error, engine.waitRetries := engine.waitRetries }

/-- `airdap_swd_connect`. -/
def connect (rounds : ℕ) (idcode : Word) (engine : Engine) : SwdCode Result :=
  if !engine.initialized then pure ⟨.invalidState, idcode, 0, engine⟩
  else protocolConnect rounds idcode engine

/-- `airdap_swd_read_ap`. -/
def readAp (rounds : ℕ) (address : Byte) (data : Word) (ack : Byte) (engine : Engine) :
    SwdCode Result := do
  let posted ← swdTransfer rounds ⟨.ap, .read, address⟩ 0 ack engine
  if posted.error ≠ .ok ∨ posted.ack ≠ ackOk then pure { posted with data }
  else swdTransfer rounds ⟨.dp, .read, 0x0C⟩ data posted.ack posted.engine

/-- The operations that clock the line; the reads and writes of the ports that are not here are
transfers. The other operations of the engine make no transaction. -/
inductive LineCall where
  | setIoState (hostOutput : Bool)
  | writeSequence (data : List Byte) (bitCount : ℕ)
  | readSequence (data : List Byte) (bitCount : ℕ)
  | connect (idcode : Word)
  | transfer (request : Request) (data : Word) (ack : Byte)
  | readAp (address : Byte) (data : Word) (ack : Byte)

/-- The operation, and the engine it leaves. -/
def LineCall.code (rounds : ℕ) (engine : Engine) : LineCall → SwdCode Engine
  | .setIoState hostOutput => Prod.snd <$> Swd.setIoState hostOutput engine
  | .writeSequence data bitCount => Prod.snd <$> Swd.writeSequence data bitCount engine
  | .readSequence data bitCount => (·.2.2) <$> Swd.readSequence data bitCount engine
  | .connect idcode => Result.engine <$> Swd.connect rounds idcode engine
  | .transfer request data ack => Result.engine <$> swdTransfer rounds request data ack engine
  | .readAp address data ack => Result.engine <$> Swd.readAp rounds address data ack engine

/-- One bit alone cannot be sent, and the buffer has 64 bits. -/
def WireCall.Fits : WireCall → Prop
  | .transmit bits => 2 ≤ bits.length ∧ bits.length ≤ 64
  | _ => True

section Lengths

variable {engine : Engine} {data : List Byte} {bitCount offset rounds : ℕ} {α β : Type}

/-- All transactions of the program fit. -/
abbrev Fitting (p : SwdCode α) : Prop := p.Everywhere fun c _ => c.Fits

theorem fitting_setHostOutput (enabled : Bool) (engine : Engine) :
    Fitting (setHostOutput enabled engine) := by
  refine ⟨trivial, fun r => ?_⟩
  cases r <;> exact trivial

theorem fitting_writeBits {bits : BitVec 64} (h : bitCount ≠ 1) :
    Fitting (writeBits bits bitCount engine) := by
  refine everywhere_guard fun hok => ⟨?_, fun r => ?_⟩
  · change 2 ≤ (Wire.bits bitCount bits).length ∧ (Wire.bits bitCount bits).length ≤ 64
    rw [Wire.length_bits]
    omega
  · cases r <;> exact trivial

theorem fitting_readBits (bitCount : ℕ) (engine : Engine) :
    Fitting (readBits bitCount engine) := by
  refine everywhere_guard fun _ => ⟨trivial, fun r => ?_⟩
  cases r <;> exact trivial

theorem fitting_turnaround (hostOutput : Bool) (engine : Engine) :
    Fitting (turnaround hostOutput engine) := by
  refine everywhere_ite (fun _ => ?_) fun _ => ?_
  · refine everywhere_guard fun _ => ?_
    refine everywhere_bind (fitting_readBits _ _) fun _ => ?_
    exact everywhere_guard fun _ => fitting_setHostOutput _ _
  · refine everywhere_guard fun _ => ?_
    refine everywhere_bind (fitting_setHostOutput _ _) fun _ => ?_
    refine everywhere_guard fun _ => ?_
    refine everywhere_guard fun _ => ?_
    exact everywhere_bind (fitting_readBits _ _) fun _ => trivial

theorem idleChunk_ne (remaining : ℕ) : idleChunk remaining ≠ 1 := by
  rw [idleChunk]
  split_ifs <;> omega

theorem fitting_writeIdleCycles (idleCycles : ℕ) (engine : Engine) :
    Fitting (writeIdleCycles idleCycles engine) := by
  have hloop (rounds remaining : ℕ) : Fitting (idleLoop engine rounds remaining) := by
    induction rounds generalizing remaining with
    | zero => trivial
    | succ rounds ih =>
      refine everywhere_guard fun _ => ?_
      refine everywhere_bind (fitting_writeBits (idleChunk_ne _)) fun _ => ?_
      exact everywhere_guard fun _ => ih _
  exact hloop _ _

theorem fitting_restoreHostAndIdle (engine : Engine) : Fitting (restoreHostAndIdle engine) := by
  refine everywhere_bind (fitting_turnaround _ _) fun _ => ?_
  refine everywhere_guard fun _ => ?_
  exact everywhere_bind (fitting_writeIdleCycles _ _) fun _ => trivial

theorem fitting_skipDataPhase (engine : Engine) : Fitting (skipDataPhase engine) := by
  refine everywhere_bind (fitting_readBits _ _) fun _ => ?_
  refine everywhere_ite (fun _ => ?_) fun _ => fitting_restoreHostAndIdle _
  exact everywhere_bind (fitting_restoreHostAndIdle _) fun _ => trivial

theorem fitting_writePhase (dataBits : BitVec 64) (engine : Engine) :
    Fitting (writePhase dataBits engine) := by
  refine everywhere_bind (fitting_turnaround _ _) fun _ => ?_
  refine everywhere_guard fun _ => ?_
  refine everywhere_bind ?_ fun _ => trivial
  refine everywhere_bind (fitting_writeBits (by decide)) fun _ => ?_
  exact everywhere_guard fun _ => fitting_writeIdleCycles _ _

theorem fitting_afterAck (request : Request) (data : Word) (ack : Byte) (engine : Engine) :
    Fitting (afterAck request data ack engine) := by
  refine everywhere_ite (fun _ => ?_) fun _ => everywhere_ite (fun _ => ?_) fun _ =>
    everywhere_ite (fun _ => ?_) fun _ => ?_
  · exact everywhere_bind (fitting_skipDataPhase _) fun _ => trivial
  · refine everywhere_bind ?_ fun _ => trivial
    refine everywhere_ite (fun _ => fitting_restoreHostAndIdle _) fun _ => ?_
    exact everywhere_ite (fun _ => fitting_skipDataPhase _) fun _ => fitting_writePhase _ _
  · refine everywhere_bind (fitting_readBits _ _) fun _ => ?_
    refine everywhere_ite (fun _ => ?_) fun _ => ?_
    · exact everywhere_bind (fitting_restoreHostAndIdle _) fun _ => trivial
    · refine everywhere_bind (fitting_restoreHostAndIdle _) fun _ => ?_
      refine everywhere_guard fun _ => ?_
      exact everywhere_guard fun _ => trivial
  · exact everywhere_bind (fitting_writePhase _ _) fun _ => trivial

theorem fitting_transferAttempt (request : Request) (data : Word) (ack : Byte)
    (engine : Engine) : Fitting (transferAttempt request data ack engine) := by
  refine everywhere_bind (fitting_writeBits (by decide)) fun _ => ?_
  refine everywhere_guard fun _ => ?_
  refine everywhere_bind (fitting_turnaround _ _) fun _ => ?_
  refine everywhere_guard fun _ => ?_
  refine everywhere_bind (fitting_readBits _ _) fun _ => ?_
  refine everywhere_ite (fun _ => ?_) fun _ => fitting_afterAck _ _ _ _
  exact everywhere_bind (fitting_restoreHostAndIdle _) fun _ => trivial

theorem fitting_protocolTransfer (rounds : ℕ) (request : Request) (data : Word) (ack : Byte)
    (engine : Engine) : Fitting (protocolTransfer rounds request data ack engine) := by
  have hloop (attempt : Word) (st : Result) : Fitting (retryLoop request rounds attempt st) := by
    induction rounds generalizing attempt st with
    | zero => trivial
    | succ rounds ih =>
      refine everywhere_ite (fun _ => ?_) fun _ => trivial
      refine everywhere_bind (fitting_transferAttempt _ _ _ _) fun _ => ?_
      exact everywhere_guard fun _ => ih _ _
  exact everywhere_guard fun _ => hloop _ _

theorem fitting_swdTransfer (rounds : ℕ) (request : Request) (data : Word) (ack : Byte)
    (engine : Engine) : Fitting (swdTransfer rounds request data ack engine) := by
  refine everywhere_guard fun _ => everywhere_ite (fun _ => ?_)
    fun _ => fitting_protocolTransfer _ _ _ _ _
  refine everywhere_bind (fitting_setHostOutput _ _) fun _ => ?_
  exact everywhere_guard fun _ => fitting_protocolTransfer _ _ _ _ _

theorem fitting_writeAll {writes : List (BitVec 64 × ℕ)} (h : ∀ write ∈ writes, write.2 ≠ 1) :
    Fitting (writeAll engine writes) := by
  induction writes with
  | nil => trivial
  | cons write writes ih =>
    refine everywhere_bind (fitting_writeBits (h write List.mem_cons_self)) fun _ => ?_
    exact everywhere_guard fun _ =>
      ih fun write hwrite => h write (List.mem_cons_of_mem _ hwrite)

theorem fitting_connect (rounds : ℕ) (idcode : Word) (engine : Engine) :
    Fitting (connect rounds idcode engine) := by
  refine everywhere_guard fun _ => ?_
  refine everywhere_bind (fitting_setHostOutput _ _) fun _ => ?_
  refine everywhere_guard fun _ => ?_
  refine everywhere_bind (fitting_writeAll (by decide)) fun _ => ?_
  refine everywhere_guard fun _ => ?_
  exact everywhere_bind (fitting_protocolTransfer _ _ _ _ _) fun _ => trivial

theorem fitting_readAp (rounds : ℕ) (address : Byte) (data : Word) (ack : Byte)
    (engine : Engine) : Fitting (readAp rounds address data ack engine) := by
  refine everywhere_bind (fitting_swdTransfer _ _ _ _ _) fun _ => ?_
  exact everywhere_guard fun _ => fitting_swdTransfer _ _ _ _ _

theorem fitting_writeSequenceLoop (hbits : bitCount % 64 ≠ 1)
    (hoffset : offset % 64 = 0 ∨ bitCount ≤ offset) :
    Fitting (writeSequenceLoop data bitCount engine rounds offset) := by
  induction rounds generalizing offset with
  | zero => trivial
  | succ rounds ih =>
    refine everywhere_ite (fun hlt => ?_) fun _ => trivial
    have hchunk : chunkBits bitCount offset ≠ 1 ∧ ((offset + chunkBits bitCount offset) % 64 = 0 ∨
        bitCount ≤ offset + chunkBits bitCount offset) := by
      rw [chunkBits]
      split_ifs <;> omega
    refine everywhere_bind (fitting_writeBits hchunk.1) fun _ => ?_
    exact everywhere_guard fun _ => ih hchunk.2

/-- The loop comes to the last bits, which are a transaction of their own. -/
theorem Fitting.bitCount_ne (hout : engine.hostOutput = true) (hoffset : offset % 64 = 0)
    (hlt : offset < bitCount) (hrounds : bitCount - offset ≤ rounds)
    (h : Fitting (writeSequenceLoop data bitCount engine rounds offset)) : bitCount % 64 ≠ 1 := by
  induction rounds generalizing offset with
  | zero => omega
  | succ rounds ih =>
    have hchunk : 0 < chunkBits bitCount offset ∧ chunkBits bitCount offset ≤ 64 := by
      rw [chunkBits]
      split_ifs <;> omega
    rw [writeSequenceLoop, if_pos hlt] at h
    dsimp only at h
    rw [writeBits, if_neg (show ¬ ((!engine.hostOutput) = true ∨ _) by rw [hout]; simp; omega)] at h
    have hfits : 2 ≤ (Wire.bits (chunkBits bitCount offset) _).length ∧ _ := h.1
    rw [Wire.length_bits] at hfits
    by_cases hlong : bitCount - offset > 64
    · have hnext : Fitting (writeSequenceLoop data bitCount engine rounds
          (offset + chunkBits bitCount offset)) := h.2 none
      rw [chunkBits, if_pos hlong] at hnext
      exact ih (by omega) (by omega) (by omega) hnext
    · rw [chunkBits, if_neg hlong] at hfits
      omega

theorem fitting_setIoState (hostOutput : Bool) (engine : Engine) :
    Fitting (setIoState hostOutput engine) :=
  everywhere_guard fun _ =>
    everywhere_guard fun _ => fitting_setHostOutput _ _

theorem fitting_writeSequence_iff : Fitting (writeSequence data bitCount engine) ↔
    ¬ (engine.initialized = true ∧ data ≠ [] ∧ bitCount % 64 = 1) := by
  constructor
  · rintro h ⟨hinit, hdata, hbits⟩
    rw [writeSequence, if_neg (by simp [hinit]), if_neg (by simp [hdata]; omega), setIoState,
      if_neg (by simp [hinit])] at h
    have hpos : 0 < bitCount := by omega
    split_ifs at h with hout
    · have hloop : Fitting (writeSequenceLoop data bitCount engine bitCount 0) :=
        everywhere_of_bind h
      exact hloop.bitCount_ne hout rfl hpos le_rfl hbits
    · have hloop : Fitting (writeSequenceLoop data bitCount _ bitCount 0) :=
        everywhere_of_bind (h.2 none)
      exact hloop.bitCount_ne rfl rfl hpos le_rfl hbits
  · intro h
    refine everywhere_guard fun hinit => ?_
    refine everywhere_guard fun hdata => ?_
    refine everywhere_bind (fitting_setIoState _ _) fun _ => ?_
    refine everywhere_guard fun _ => ?_
    have hbits : bitCount % 64 ≠ 1 := fun hbits =>
      h ⟨by simpa using hinit, fun hnil => hdata (.inl hnil), hbits⟩
    exact everywhere_bind (fitting_writeSequenceLoop hbits (.inl rfl)) fun _ => trivial

theorem fitting_readSequence (data : List Byte) (bitCount : ℕ) (engine : Engine) :
    Fitting (readSequence data bitCount engine) := by
  have hloop (engine : Engine) (rounds offset : ℕ) (data : List Byte) :
      Fitting (readSequenceLoop bitCount engine rounds offset data) := by
    induction rounds generalizing offset data with
    | zero => trivial
    | succ rounds ih =>
      refine everywhere_ite (fun _ => ?_) fun _ => trivial
      refine everywhere_bind (fitting_readBits _ _) fun _ => ?_
      exact everywhere_guard fun _ => ih _ _
  refine everywhere_guard fun hinit => ?_
  refine everywhere_guard fun hdata => ?_
  refine everywhere_bind (fitting_setIoState _ _) fun _ => ?_
  refine everywhere_guard fun _ => ?_
  exact everywhere_bind (hloop _ _ _ _) fun _ => trivial

/-- An operation sends transactions of two to 64 bits only, unless it is the write of a sequence
whose last transaction has one bit. -/
theorem transactions_fit_iff (rounds : ℕ) (call : LineCall) (engine : Engine) :
    (call.code rounds engine).Everywhere (fun c _ => c.Fits) ↔
      ¬ ∃ data bitCount, call = .writeSequence data bitCount ∧ engine.initialized = true ∧
        data ≠ [] ∧ bitCount % 64 = 1 := by
  have hmap {α : Type} {p : SwdCode α} {g : α → Engine} : Fitting (g <$> p) ↔ Fitting p :=
    ⟨everywhere_of_bind, fun h => everywhere_bind h fun _ => trivial⟩
  have hother (h : Fitting (call.code rounds engine))
      (hcall : ∀ data bitCount, call ≠ .writeSequence data bitCount) :
      Fitting (call.code rounds engine) ↔ ¬ ∃ data bitCount, call = .writeSequence data bitCount ∧
        engine.initialized = true ∧ data ≠ [] ∧ bitCount % 64 = 1 :=
    iff_of_true h fun ⟨data, bitCount, heq, _⟩ => hcall data bitCount heq
  cases call with
  | setIoState hostOutput => exact hother (hmap.mpr (fitting_setIoState _ _)) (by simp)
  | writeSequence data bitCount =>
    refine hmap.trans (fitting_writeSequence_iff.trans (not_congr ⟨?_, ?_⟩))
    · exact fun hbad => ⟨data, bitCount, rfl, hbad⟩
    · rintro ⟨_, _, heq, hbad⟩
      cases heq
      exact hbad
  | readSequence data bitCount => exact hother (hmap.mpr (fitting_readSequence _ _ _)) (by simp)
  | connect idcode => exact hother (hmap.mpr (fitting_connect _ _ _)) (by simp)
  | transfer request data ack =>
    exact hother (hmap.mpr (fitting_swdTransfer _ _ _ _ _)) (by simp)
  | readAp address data ack => exact hother (hmap.mpr (fitting_readAp _ _ _ _ _)) (by simp)

/-- A sequence of 65 bits is sent as 64 bits and one bit. -/
theorem lone_bit_sent : ¬ (LineCall.code 0 (idleEngine 0)
    (.writeSequence (List.replicate 9 0) 65)).Everywhere (fun c _ => c.Fits) := by
  intro h
  exact absurd (h.2 none).1.1 (by decide)

end Lengths

end Swd
end AirDap

import AirDap.Dap.Backend
import AirDap.Dap.Framing

/-! Sessions on a transport. Every packet is answered, whatever the operations below the
backend return, and no packet changes what `airdap_dap_init` set up. -/
namespace AirDap
open Concurrency Prog

/-- The two processors are of the same device: their callbacks and texts are the same. -/
structure Processor.SameDevice (p q : Processor) : Prop where
  backend : q.backend = p.backend
  serialNumber : q.serialNumber = p.serialNumber
  firmwareVersion : q.firmwareVersion = p.firmwareVersion

namespace Processor.SameDevice

variable {p q r : Processor}

theorem refl (p : Processor) : p.SameDevice p := ⟨rfl, rfl, rfl⟩

theorem trans (hpq : p.SameDevice q) (hqr : q.SameDevice r) : p.SameDevice r :=
  ⟨hqr.backend.trans hpq.backend, hqr.serialNumber.trans hpq.serialNumber,
    hqr.firmwareVersion.trans hpq.firmwareVersion⟩

end Processor.SameDevice

/-- The callbacks that neither take the pins, give them back, nor pass a request on to the OTA
manager. -/
def BackendCall.Works : BackendCall → Prop
  | .connect | .disconnect | .vendorCommand _ _ _ => False
  | _ => True

/-- The commands that use such callbacks only. -/
def DapCommand.Works : DapCommand → Prop
  | .connect | .disconnect | .otaQuery | .otaBegin | .otaWrite | .otaCommit | .otaAbort
  | .otaReboot => False
  | _ => True

theorem BackendCall.Works.ne_connect {c : BackendCall} (h : c.Works) : c ≠ .connect := by
  rintro rfl
  exact h

/-! Every command of the processor comes to its end, and only DAP_Connect calls `connect`. -/

section Processor

variable (processor : Processor) (request : List Byte) (capacity : ℕ)

theorem callback_yields {ψ : BackendCall → Prop} (present : Bool) (c : BackendCall)
    (absent : c.Answer) (hc : ψ c) : (callback present c absent).Yields ψ fun _ => True := by
  unfold callback
  exact yields_ite (fun _ => ⟨hc, fun _ => trivial⟩) fun _ => trivial

variable (command : Option DapCommand) (transferRequest : Byte) (data : Word)

theorem transferOnce_yields :
    (transferOnce processor transferRequest data).Yields BackendCall.Works fun _ => True :=
  (callback_yields _ _ _ trivial).bind fun _ _ => trivial

theorem matchLoop_yields (attempts : ℕ) (status : Byte) :
    (matchLoop processor transferRequest data attempts status).Yields BackendCall.Works
      fun _ => True := by
  induction attempts generalizing status with
  | zero => trivial
  | succ attempts ih =>
    apply (transferOnce_yields processor transferRequest 0).bind
    intro r _
    apply yields_ite
    · exact fun _ => trivial
    · exact fun _ => yields_guard trivial fun _ => ih r.2.2

theorem matchItem_yields (st : TransferState) :
    (matchItem transferRequest data st).Yields BackendCall.Works fun r =>
      r.2.processor = st.processor ∧ r.2.input = st.input ∧ r.2.output = st.output := by
  apply (matchLoop_yields st.processor transferRequest data _ st.status).bind
  intro r _
  obtain ⟨matched, status⟩ := r
  cases matched <;> exact ⟨rfl, rfl, rfl⟩

/-- The processor that the items of a transfer leave, however they end. -/
def endProcessor : Except TransferState TransferState → Processor
  | .error st => st.processor
  | .ok st => st.processor

theorem transferLoop_succ (request : List Byte) (items : ℕ) (st : TransferState) :
    transferLoop request capacity (items + 1) st = transferItem request capacity st >>=
      TransferStep.goOn (transferLoop request capacity items) := rfl

theorem hasData_eq_false {flags : Byte} (h : ¬ hasData flags) :
    hasFlag flags transferRead = true ∧ hasFlag flags transferMatchValue = false := by
  simpa [hasData] using h

/-- The response of `3 + output` bytes fits, unless the transfer ends as invalid. -/
def TransferStep.Fits (capacity : ℕ) : TransferStep → Prop
  | .next st | .ended (.ok st) => 3 + st.output.length ≤ capacity
  | .ended (.error _) => True

/-- After an item the loop goes on where the item ends, and its response fits. -/
structure TransferStep.After (request : List Byte) (capacity : ℕ) (st : TransferState)
    (step : TransferStep) : Prop where
  input : ∀ st', step = .next st' → st'.input = itemEnd request st.input
  output : 3 + st.output.length ≤ capacity → step.Fits capacity

/-- The processor after an item. -/
def stepProcessor : TransferStep → Processor
  | .next st => st.processor
  | .ended result => endProcessor result

theorem transferItem_after (request : List Byte) (st : TransferState) :
    (transferItem request capacity st).Yields BackendCall.Works fun step =>
      step.After request capacity st ∧ st.processor.SameDevice (stepProcessor step) := by
  have herror {st' : TransferState} (hdevice : st'.processor = st.processor) :
      TransferStep.After request capacity st (.ended (.error st')) ∧
        st.processor.SameDevice st'.processor :=
    ⟨⟨fun st' h => (by cases h), fun _ => trivial⟩, hdevice ▸ .refl _⟩
  have hended {st' : TransferState} (hout : st'.output = st.output)
      (hdevice : st'.processor = st.processor) :
      TransferStep.After request capacity st (.ended (.ok st')) ∧
        st.processor.SameDevice st'.processor :=
    ⟨⟨fun st' h => (by cases h), fun h => (by rw [← hout] at h; exact h)⟩, hdevice ▸ .refl _⟩
  have hnext {st' : TransferState} (hin : st'.input = itemEnd request st.input)
      (hout : 3 + st.output.length ≤ capacity → 3 + st'.output.length ≤ capacity) :
      TransferStep.After request capacity st (.next st') :=
    ⟨fun _ h => (by cases h; exact hin), hout⟩
  unfold transferItem
  refine yields_guard (herror rfl) fun _ => ?_
  dsimp only
  refine yields_ite (fun hmask => ?_) fun hmask => ?_
  · refine yields_guard (herror rfl) fun hwrite => ?_
    have hdata : hasData (byteAt request st.input) = true := by
      by_contra hdata
      exact hwrite (.inl (hasData_eq_false hdata).1)
    refine ⟨hnext ?_ fun h => h, rfl, rfl, rfl⟩
    rw [itemEnd, if_pos hdata]
  · refine yields_guard (herror rfl) fun _ => ?_
    -- from here on the loop stands behind the item
    let st₁ : TransferState := if hasData (byteAt request st.input) then
      { st with input := st.input + 1 + 4 } else { st with input := st.input + 1 }
    have hin : st₁.input = itemEnd request st.input := by
      unfold st₁ itemEnd
      split <;> rfl
    have hout : st₁.output = st.output ∧ st₁.processor = st.processor := by
      unfold st₁
      split <;> exact ⟨rfl, rfl⟩
    have hdevice : st.processor.SameDevice st₁.processor := hout.2 ▸ .refl _
    refine yields_ite (fun _ => ?_) fun _ => ?_
    · refine (matchItem_yields _ _ st₁).bind fun r hr => ?_
      have hrest : r.2.output = st.output := hr.2.2.trans hout.1
      have hsame : r.2.processor = st.processor := hr.1.trans hout.2
      exact yields_ite
        (fun _ => ⟨hnext (hr.2.1.trans hin) fun h => hrest ▸ h, hsame ▸ .refl _⟩)
        fun _ => hended hrest hsame
    · refine (transferOnce_yields st₁.processor (byteAt request st.input)
        (if hasData (byteAt request st.input) then readU32 (request.drop (st.input + 1))
          else 0)).bind fun r _ => ?_
      refine yields_guard (hended hout.1 hout.2) fun _ => ?_
      refine yields_ite (fun _ => ⟨hnext hin fun h =>
        (show 3 + st₁.output.length ≤ _ from hout.1 ▸ h), hdevice⟩) fun _ => ?_
      refine yields_guard (herror hout.2) fun hfits => ⟨hnext hin fun _ => ?_, hdevice⟩
      rw [List.length_append]
      exact not_lt.mp (by simpa only [Nat.add_assoc] using hfits)

theorem transferLoop_yields (items : ℕ) (st : TransferState) :
    (transferLoop request capacity items st).Yields BackendCall.Works fun r =>
      st.processor.SameDevice (endProcessor r) ∧
        (3 + st.output.length ≤ capacity → (TransferStep.ended r).Fits capacity) := by
  induction items generalizing st with
  | zero => exact ⟨.refl _, id⟩
  | succ items ih =>
    rw [transferLoop_succ]
    refine (transferItem_after capacity request st).bind fun step hstep => ?_
    cases step with
    | next st' =>
      exact (ih st').mono (fun _ ha => ha) fun _ h =>
        ⟨hstep.2.trans h.1, fun hroom => h.2 (hstep.1.output hroom)⟩
    | ended r => exact ⟨hstep.2, hstep.1.output⟩

theorem flushWrite_yields (pending : Bool) (status : Byte) :
    (flushWrite processor pending status).Yields BackendCall.Works fun _ => True := by
  unfold flushWrite
  apply yields_ite
  · exact fun _ => (transferOnce_yields _ _ _).bind fun _ _ => trivial
  · exact fun _ => trivial

theorem length_invalidResponse (capacity : ℕ) : (invalidResponse capacity).length ≤ capacity := by
  unfold invalidResponse
  split
  · assumption
  · exact Nat.zero_le _

/-- The response fits, and it is not the invalid one where there is room for a status. -/
def Answers (capacity : ℕ) (response : List Byte) : Prop :=
  response.length ≤ capacity ∧ (2 ≤ capacity → response.length ≠ 1)

theorem Answers.of_two_le {response : List Byte} (htwo : 2 ≤ response.length)
    (h : response.length ≤ capacity) : Answers capacity response := ⟨h, fun _ => by omega⟩

theorem statusResponse_answers (command : Byte) (success : Bool) (capacity : ℕ) :
    Answers capacity (statusResponse command success capacity) := by
  unfold statusResponse
  split
  · rename_i h
    exact ⟨length_invalidResponse capacity, fun htwo => absurd h (not_lt.mpr htwo)⟩
  · rename_i h
    exact .of_two_le capacity le_rfl (not_lt.mp h)

/-- The command makes its checks and answers, or it calls back and does not answer as invalid. -/
def Checked (capacity : ℕ) (p : DapCode (List Byte)) : Prop :=
  (∃ response, p = pure response ∧ response.length ≤ capacity) ∨
    p.Yields BackendCall.Works (Answers capacity)

theorem checked_guard {c : Prop} [Decidable c] {response : List Byte} {p : DapCode (List Byte)}
    (hresponse : response.length ≤ capacity) (h : ¬ c → Checked capacity p) :
    Checked capacity (if c then pure response else p) :=
  iteInduction (fun _ => .inl ⟨response, rfl, hresponse⟩) h

/-- The same for a command with its processor, which it keeps where it only answers. -/
def CheckedCommand (p : DapCode (List Byte × Processor)) : Prop :=
  (∃ response, p = pure (response, processor) ∧ response.length ≤ capacity) ∨
    p.Yields BackendCall.Works fun r => processor.SameDevice r.2 ∧ Answers capacity r.1

theorem Checked.keeping {p : DapCode (List Byte)} (h : Checked capacity p) :
    CheckedCommand processor capacity (keeping processor p) := by
  rcases h with ⟨response, rfl, h⟩ | h
  · exact .inl ⟨response, rfl, h⟩
  · exact .inr (h.bind fun _ h => ⟨.refl _, h⟩)

theorem CheckedCommand.works {p : DapCode (List Byte × Processor)}
    (h : CheckedCommand processor capacity p) : p.Yields BackendCall.Works fun r =>
      processor.SameDevice r.2 ∧ r.1.length ≤ capacity := by
  rcases h with ⟨response, rfl, h⟩ | h
  · exact ⟨.refl _, h⟩
  · exact h.mono (fun _ h => h) fun _ h => ⟨h.1, h.2.1⟩

theorem processTransfer_yields :
    (processTransfer processor request capacity).Yields BackendCall.Works fun r =>
      processor.SameDevice r.2 ∧ r.1.length ≤ capacity := by
  have hinvalid := length_invalidResponse capacity
  unfold processTransfer
  refine yields_guard ⟨.refl _, hinvalid⟩ fun hroom => ?_
  have hthree : 3 ≤ capacity := by omega
  refine yields_guard ⟨.refl _, hinvalid⟩ fun _ => ?_
  refine yields_guard ⟨.refl _, hinvalid⟩ fun _ => ?_
  refine yields_guard ⟨.refl _, hthree⟩ fun _ => ?_
  refine (transferLoop_yields request capacity _ ⟨processor, 3, [], 0, transferOk, false⟩).bind
    fun r hr => ?_
  cases r with
  | error st => exact ⟨hr.1, hinvalid⟩
  | ok st =>
    refine (flushWrite_yields _ _ _).bind fun status _ => ⟨hr.1, ?_⟩
    change ([DapCommand.transfer.code, st.completed, status] ++ st.output).length ≤ capacity
    rw [List.length_append]
    exact hr.2 hthree

theorem blockLoop_fits {transferRequest : Byte} {words : ℕ} (st : BlockState)
    (h : 4 + st.output.length ≤ capacity)
    (hinput : hasFlag transferRequest transferRead = false →
      st.input + words * 4 ≤ request.length)
    (hroom : hasFlag transferRequest transferRead = true →
      4 + st.output.length + words * 4 ≤ capacity) :
    (blockLoop processor request capacity transferRequest words st).Yields BackendCall.Works
      fun r => ∃ st', r = some st' ∧ 4 + st'.output.length ≤ capacity := by
  induction words generalizing st with
  | zero => exact ⟨st, rfl, h⟩
  | succ words ih =>
    rw [blockLoop]
    dsimp only
    rw [if_neg ?_, if_neg ?_]
    · refine (transferOnce_yields _ _ _).bind fun answer _ => ?_
      have hlength : (writeU32 answer.2.1).length = 4 := rfl
      refine yields_ite (fun _ => ⟨_, rfl, ?_⟩) fun _ =>
        ih _ ?_ (fun hread => ?_) fun hread => ?_
      · dsimp only
        split <;> exact h
      · dsimp only
        split
        · rename_i hread
          have := hroom hread
          rw [List.length_append, hlength]
          omega
        · exact h
      · have := hinput hread
        simp only [hread, Bool.false_eq_true, if_false]
        omega
      · have := hroom hread
        simp only [hread, if_true, List.length_append, hlength]
        omega
    · rintro ⟨hread, hlong⟩
      have := hroom hread
      omega
    · rintro ⟨hread, hlong⟩
      have := hinput (by simpa using hread)
      omega

theorem processTransferBlock_checked :
    Checked capacity (processTransferBlock processor request capacity) := by
  have hinvalid := length_invalidResponse capacity
  refine checked_guard capacity hinvalid fun hhead => ?_
  have hfour : 4 ≤ capacity := by omega
  dsimp only
  refine checked_guard capacity hinvalid fun hcount => ?_
  refine checked_guard capacity hfour fun _ => .inr ?_
  have hinput : hasFlag (byteAt request 4) transferRead = false →
      5 + (readU16 (request.drop 2)).toNat * 4 ≤ request.length := by
    intro hread
    have : ¬ (readU16 (request.drop 2)).toNat > (request.length - 5) / 4 :=
      fun hlong => hcount (.inr ⟨by simp [hread], hlong⟩)
    omega
  have hroom : hasFlag (byteAt request 4) transferRead = true →
      4 + (readU16 (request.drop 2)).toNat * 4 ≤ capacity := by
    intro hread
    have : ¬ (readU16 (request.drop 2)).toNat > (capacity - 4) / 4 :=
      fun hlong => hcount (.inl ⟨hread, hlong⟩)
    omega
  refine (blockLoop_fits processor request capacity ⟨5, [], 0, transferOk⟩ hfour hinput
    hroom).bind fun r hr => ?_
  obtain ⟨st, rfl, hst⟩ := hr
  refine (flushWrite_yields _ _ _).bind fun status _ => ?_
  have hlength : ([DapCommand.transferBlock.code] ++ writeU16 st.completed ++ [status] ++
      st.output).length = 4 + st.output.length := by
    simp only [List.length_append, writeU16, List.length_cons, List.length_nil]
  exact .of_two_le capacity (by rw [hlength]; omega) (hlength ▸ hst)

theorem writeSequenceItem_yields (data : List Byte) (bitCount : ℕ) (success : Bool) :
    (writeSequenceItem processor data bitCount success).Yields BackendCall.Works fun _ => True := by
  unfold writeSequenceItem
  exact yields_ite (fun _ => callback_yields _ (.writeSequence _ _) _ trivial) fun _ => trivial

theorem readSequenceItem_yields (bitCount : ℕ) (success : Bool) :
    (readSequenceItem processor bitCount success).Yields BackendCall.Works fun _ => True := by
  unfold readSequenceItem
  exact yields_ite (fun _ => callback_yields _ (.readSequence _) _ trivial) fun _ => trivial

theorem le_scanSequences {request : List Byte} {items scan required total : ℕ}
    (h : scanSequences request items scan required = some total) : required ≤ total := by
  induction items generalizing scan required with
  | zero => exact (Option.some.inj h).le
  | succ items ih =>
    rw [scanSequences] at h
    dsimp only at h
    split at h
    · cases h
    split at h
    · exact le_trans (Nat.le_add_right _ _) (ih h)
    split at h
    · cases h
    · exact ih h

theorem sequenceLoop_fits {items total : ℕ} (st : SequenceState)
    (hscan : scanSequences request items st.input (2 + st.output.length) = some total)
    (htotal : total ≤ capacity) :
    (sequenceLoop processor request capacity items st).Yields BackendCall.Works
      fun r => ∃ st', r = some st' ∧ 2 + st'.output.length ≤ capacity := by
  induction items generalizing st with
  | zero => exact ⟨st, rfl, (Option.some.inj hscan).le.trans htotal⟩
  | succ items ih =>
    rw [scanSequences] at hscan
    dsimp only at hscan
    rw [sequenceLoop]
    dsimp only
    split at hscan
    · cases hscan
    rename_i hinput
    rw [if_neg hinput]
    split at hscan
    · rename_i hread
      have hle := le_scanSequences hscan
      rw [if_pos hread, if_neg (by omega)]
      refine (readSequenceItem_yields _ _ _).bind fun r _ => ih _ ?_
      rw [List.length_append, Vector.length_toList, ← Nat.add_assoc]
      exact hscan
    · rename_i hread
      split at hscan
      · cases hscan
      rename_i hfits
      rw [if_neg hread, if_neg hfits]
      exact (writeSequenceItem_yields _ _ _ _).bind fun r _ => ih _ hscan

theorem processSwdSequence_checked :
    Checked capacity (processSwdSequence processor request capacity) := by
  have hinvalid := length_invalidResponse capacity
  refine checked_guard capacity hinvalid fun _ => ?_
  cases hscan : scanSequences request (byteAt request 1).toNat 2 2 with
  | none => exact .inl ⟨_, rfl, hinvalid⟩
  | some total =>
    refine checked_guard capacity hinvalid fun htotal => .inr ?_
    refine (sequenceLoop_fits processor request capacity ⟨2, [], _⟩ hscan
      (not_lt.mp htotal)).bind fun r hr => ?_
    obtain ⟨st, rfl, hst⟩ := hr
    have hlength : ([DapCommand.swdSequence.code, if st.success then dapOk else dapError] ++
        st.output).length = 2 + st.output.length := List.length_append
    exact .of_two_le capacity (hlength ▸ Nat.le_add_right _ _) (hlength ▸ hst)

theorem connectPort_yields (port : Byte) :
    (connectPort processor port).Yields (fun _ => True) fun _ => True :=
  yields_ite (fun _ => callback_yields _ .connect _ trivial) fun _ => trivial

theorem disconnectUnless_yields (connected : Bool) :
    (disconnectUnless processor connected).Yields (fun _ => True) fun _ => True :=
  yields_guard trivial fun _ => callback_yields _ .disconnect _ trivial

theorem processConnect_yields :
    (processConnect processor request capacity).Yields (fun _ => True) fun r =>
      processor.SameDevice r.2 := by
  unfold processConnect
  refine yields_guard (.refl _) fun _ => ?_
  apply (connectPort_yields _ _).bind
  intro connected _
  exact (disconnectUnless_yields _ _).bind fun _ _ => ⟨rfl, rfl, rfl⟩

theorem processDisconnect_yields :
    (processDisconnect processor request capacity).Yields (· ≠ .connect) fun r =>
      processor.SameDevice r.2 ∧ r.2.selectedPort = dapPortDisabled :=
  (callback_yields _ _ _ (by simp)).bind fun _ _ => ⟨⟨rfl, rfl, rfl⟩, rfl⟩

theorem length_processInfo : (processInfo processor request capacity).length ≤ capacity := by
  unfold processInfo
  split
  · exact length_invalidResponse capacity
  · dsimp only
    split
    · exact length_invalidResponse capacity
    · rename_i h
      rw [List.length_append]
      exact not_lt.mp fun hlt => h (.inr hlt)

/-- Every command but DAP_Transfer makes its checks before anything else. -/
theorem processCommand_checked (hcommand : ∀ c ∈ command, c.Works)
    (htransfer : command ≠ some .transfer) :
    CheckedCommand processor capacity (processCommand processor request capacity command) := by
  have hinvalid := length_invalidResponse capacity
  have hstatus {c : BackendCall} {present : Bool} {absent : c.Answer} {f : c.Answer → Bool}
      (hc : c.Works) : Checked capacity (callback present c absent >>= fun r =>
        pure (statusResponse (byteAt request 0) (f r) capacity)) :=
    .inr ((callback_yields present c absent hc).bind fun _ _ => statusResponse_answers _ _ _)
  have hguard {q : Prop} [Decidable q] {p : DapCode (List Byte)} (hp : ¬ q → Checked capacity p) :
      CheckedCommand processor capacity
        (keeping processor (if q then pure (invalidResponse capacity) else p)) :=
    (checked_guard capacity hinvalid hp).keeping processor capacity
  match command with
  | none => exact .inl ⟨_, rfl, hinvalid⟩
  | some .info => exact .inl ⟨_, rfl, length_processInfo processor request capacity⟩
  | some .hostStatus => exact hguard fun _ => hstatus (by trivial)
  | some .transferConfigure =>
    refine iteInduction (fun _ => .inl ⟨_, rfl, hinvalid⟩) fun _ => .inr ?_
    exact (callback_yields _ (.configureTransfer _ _) _ trivial).bind
      fun _ _ => ⟨⟨rfl, rfl, rfl⟩, statusResponse_answers _ _ _⟩
  | some .transfer => exact absurd rfl htransfer
  | some .transferBlock =>
    exact (processTransferBlock_checked processor request capacity).keeping processor capacity
  | some .writeAbort =>
    refine hguard fun _ => checked_guard capacity (statusResponse_answers _ _ _).1 fun _ => .inr ?_
    exact (transferOnce_yields _ _ _).bind fun _ _ => statusResponse_answers _ _ _
  | some .delay => exact hguard fun _ => hstatus (by trivial)
  | some .resetTarget =>
    refine hguard fun hroom => .inr ?_
    exact (callback_yields _ .resetTarget _ trivial).bind
      fun _ _ => .of_two_le capacity (by decide : 2 ≤ 3) (not_lt.mp hroom)
  | some .swjPins =>
    refine hguard fun hroom => .inr ?_
    exact (callback_yields _ (.swjPins _ _ _) _ trivial).bind
      fun _ _ => .of_two_le capacity le_rfl (not_lt.mp fun h => hroom (.inr h))
  | some .swjClock =>
    refine hguard fun _ => checked_guard capacity (statusResponse_answers _ _ _).1 fun _ => ?_
    exact hstatus (by trivial)
  | some .swjSequence =>
    refine hguard fun _ => .inr ?_
    exact (writeSequenceItem_yields _ _ _ _).bind fun _ _ => statusResponse_answers _ _ _
  | some .swdConfigure => exact hguard fun _ => hstatus (by trivial)
  | some .swdSequence =>
    exact (processSwdSequence_checked processor request capacity).keeping processor capacity
  | some .connect | some .disconnect | some .otaQuery | some .otaBegin | some .otaWrite
  | some .otaCommit | some .otaAbort | some .otaReboot => exact (hcommand _ rfl).elim

theorem processCommand_works (hcommand : ∀ c ∈ command, c.Works) :
    (processCommand processor request capacity command).Yields BackendCall.Works fun r =>
      processor.SameDevice r.2 ∧ r.1.length ≤ capacity := by
  by_cases htransfer : command = some .transfer
  · subst htransfer
    exact processTransfer_yields processor request capacity
  · exact (processCommand_checked processor request capacity command hcommand htransfer).works

theorem processCommand_yields (hcommand : command ≠ some .connect) :
    (processCommand processor request capacity command).Yields (· ≠ .connect) fun r =>
      processor.SameDevice r.2 := by
  by_cases hworks : ∀ c ∈ command, c.Works
  · exact (processCommand_works processor request capacity command hworks).mono
      (fun _ h => h.ne_connect) fun _ h => h.1
  · push Not at hworks
    obtain ⟨c, rfl, hc⟩ := hworks
    cases c with
    | connect => exact absurd rfl hcommand
    | disconnect =>
      exact (processDisconnect_yields processor request capacity).mono (fun _ h => h)
        fun _ h => h.1
    | otaQuery | otaBegin | otaWrite | otaCommit | otaAbort | otaReboot =>
      exact (callback_yields _ (.vendorCommand _ _ _) _ (by simp)).bind fun _ _ => .refl _
    | _ => exact absurd trivial hc

theorem processPacket_yields :
    (processPacket processor request capacity).Yields (fun _ => True) fun r =>
      processor.SameDevice r.2 := by
  unfold processPacket
  refine yields_guard (.refl _) fun _ => ?_
  by_cases hcommand : DapCommand.ofByte (byteAt request 0) = some .connect
  · rw [hcommand]
    exact processConnect_yields processor request _
  · exact (processCommand_yields processor request _ _ hcommand).mono (fun _ _ => trivial)
      fun _ h => h

end Processor

/-! Every callback of the backend comes to its end, and works with the target only while it
has reserved the pins. -/

def LowerCall.IsTarget (c : LowerCall) : Prop := ∃ call, c = .target call

/-- The calls that cannot change the session of an update. -/
def LowerCall.Debugs : LowerCall → Prop
  | .otaHandleDisconnect | .otaProcess _ _ _ => False
  | _ => True

theorem LowerCall.IsTarget.debugs {c : LowerCall} (h : c.IsTarget) : c.Debugs := by
  obtain ⟨call, rfl⟩ := h
  trivial

theorem target_yields (c : TargetCall) : (target c).Yields LowerCall.IsTarget fun _ => True :=
  ⟨⟨c, rfl⟩, fun _ => trivial⟩

theorem lower_yields {ψ : LowerCall → Prop} (c : LowerCall) (hc : ψ c) :
    (lower c).Yields ψ fun _ => True :=
  ⟨hc, fun _ => trivial⟩

variable (value select : Byte) (waitUs : Word) (owner : Owner) (selectedPort : Byte)
  (clockHz cached : Word) (context : TransportContext) (requests : List DapRequest)

theorem withOperation_yields {α : Type} (refused : α) {body : LowerCode α}
    (hbody : body.Yields LowerCall.IsTarget fun _ => True) :
    (withOperation owner refused body).Yields LowerCall.Debugs fun _ => True := by
  apply (lower_yields (.operationBegin owner) trivial).bind
  intro begun _
  cases begun with
  | true =>
    apply (hbody.mono (fun _ h => h.debugs) fun _ h => h).bind
    exact fun _ _ => (lower_yields .operationEnd trivial).bind fun _ _ => trivial
  | false => trivial

theorem transferOwned_yields (ap read : Bool) (address : Byte) (data : Word) :
    (transferOwned ap read address data).Yields LowerCall.IsTarget fun _ => True := by
  cases read with
  | true => exact (target_yields (.read ap address)).bind fun _ _ => trivial
  | false => exact (target_yields (.write ap address data)).bind fun _ _ => trivial

theorem swjPinsReset_yields :
    (swjPinsReset value select).Yields LowerCall.IsTarget fun _ => True := by
  unfold swjPinsReset
  exact yields_ite (fun _ => target_yields _) fun _ => trivial

theorem swjPinsSwd_yields :
    (swjPinsSwd value select waitUs).Yields LowerCall.IsTarget fun _ => True := by
  unfold swjPinsSwd
  apply yields_ite
  · exact fun _ => target_yields (.drivePins value _ waitUs)
  · intro _
    apply yields_ite
    · exact fun _ => (target_yields (.romDelayUs _)).bind fun _ _ => trivial
    · exact fun _ => trivial

theorem swjPinsOwned_yields :
    (swjPinsOwned value select waitUs).Yields LowerCall.IsTarget fun _ => True := by
  apply (swjPinsReset_yields value select).bind
  intro _ _
  refine yields_guard trivial fun _ => ?_
  apply (swjPinsSwd_yields value select waitUs).bind
  intro _ _
  apply yields_ite
  · exact fun _ => trivial
  · exact fun _ => (target_yields .resetIsAsserted).bind fun _ _ => trivial

theorem resetTargetOwned_yields :
    resetTargetOwned.Yields LowerCall.IsTarget fun _ => True := by
  apply (target_yields (.resetSetAsserted true)).bind
  intro _ _
  refine yields_guard trivial fun _ => ?_
  apply (target_yields (.romDelayUs 1000)).bind
  exact fun _ _ => target_yields (.resetSetAsserted false)

theorem setClockOwned_yields :
    (setClockOwned clockHz cached).Yields LowerCall.IsTarget fun _ => True :=
  (target_yields (.setClock clockHz)).bind fun _ _ => trivial

theorem backendConnect_yields :
    (backendConnect owner clockHz).Yields LowerCall.Debugs fun _ => True := by
  apply (lower_yields .otaDebugAllowed trivial).bind
  intro _ _
  refine yields_guard trivial fun _ => ?_
  apply (lower_yields (.dapAcquire owner) trivial).bind
  intro _ _
  apply yields_ite
  · exact fun _ => trivial
  · exact fun _ => withOperation_yields owner false (target_yields _)

theorem backendDisconnect_yields :
    (backendDisconnect owner).Yields (fun _ => True) fun _ => True := by
  apply (lower_yields .ownershipRelease trivial).bind
  intro _ _
  exact yields_ite (fun _ => lower_yields .otaHandleDisconnect trivial) fun _ => trivial

theorem backendVendorCommand_yields (request : List Byte) (capacity : ℕ) :
    (backendVendorCommand request capacity).Yields (fun _ => True) fun _ => True := by
  apply (lower_yields .ownershipCurrent trivial).bind
  exact fun _ _ => lower_yields (.otaProcess _ request capacity) trivial

/-- A property of programs that every callback has which works on the pins. -/
structure CallbackParts (owner : Owner) (P : {α : Type} → LowerCode α → Prop) : Prop where
  ret {α : Type} (v : α) : P (.ret v)
  clock {α : Type} {p : LowerCode α} (clockHz : Word) : P p → P (withClock p clockHz)
  operation {α : Type} (refused : α) {body : LowerCode α} :
    body.Yields LowerCall.IsTarget (fun _ => True) → P (withOperation owner refused body)
  delay (us : Word) : P (target (.romDelayUs us))

theorem CallbackParts.call {P : {α : Type} → LowerCode α → Prop} (h : CallbackParts owner P)
    {c : BackendCall} (hc : c.Works) (clockHz : Word) :
    P (backendCall owner selectedPort c clockHz) := by
  cases c with
  | connect | disconnect | vendorCommand connected request capacity => exact hc.elim
  | setClock hz =>
    refine iteInduction (fun _ => h.ret _) fun _ => ?_
    refine iteInduction (fun _ => h.ret _) fun _ => ?_
    exact h.operation _ (setClockOwned_yields hz clockHz)
  | configureTransfer | configureSwd | writeSequence | readSequence =>
    exact h.clock _ (h.operation _ (target_yields _))
  | transfer ap read address data =>
    exact h.clock _ (h.operation _ (transferOwned_yields ap read address data))
  | swjPins value select wait =>
    exact h.clock _ (h.operation _ (swjPinsOwned_yields value select wait))
  | resetTarget => exact h.clock _ (h.operation _ resetTargetOwned_yields)
  | delayUs delay => exact h.clock _ (h.delay _)
  | hostStatus type active => exact h.ret _

theorem backendCall_debugs (c : BackendCall) (hc : c.Works) (clockHz : Word) :
    (backendCall owner selectedPort c clockHz).Yields LowerCall.Debugs fun _ => True := by
  have hparts : CallbackParts owner fun p => p.Yields LowerCall.Debugs fun _ => True :=
    { ret := fun _ => trivial
      clock := fun _ hp => hp.bind fun _ _ => trivial
      operation := withOperation_yields owner
      delay := fun _ => (target_yields _).mono (fun _ h => h.debugs) fun _ h => h }
  exact hparts.call owner selectedPort hc clockHz

theorem backendCall_yields (c : BackendCall) (clockHz : Word) :
    (backendCall owner selectedPort c clockHz).Yields (fun _ => True) fun _ => True := by
  by_cases hc : c.Works
  · exact (backendCall_debugs owner selectedPort c hc clockHz).mono (fun _ _ => trivial)
      fun _ h => h
  · cases c with
    | connect =>
      apply Prog.Yields.bind ((backendConnect_yields owner clockHz).mono (fun _ _ => trivial)
        fun _ h => h)
      exact fun _ _ => trivial
    | disconnect => exact (backendDisconnect_yields owner).bind fun _ _ => trivial
    | vendorCommand connected request capacity =>
      exact (backendVendorCommand_yields request capacity).bind fun _ _ => trivial
    | _ => exact absurd trivial hc

/-! Packets and sessions -/

/-- The two contexts are of the same transport of the same device. -/
structure TransportContext.SameTransport (c d : TransportContext) : Prop where
  owner : d.owner = c.owner
  device : c.processor.SameDevice d.processor

namespace TransportContext.SameTransport

variable {b c d : TransportContext}

theorem refl (c : TransportContext) : c.SameTransport c := ⟨rfl, .refl _⟩

theorem trans (hbc : b.SameTransport c) (hcd : c.SameTransport d) : b.SameTransport d :=
  ⟨hcd.owner.trans hbc.owner, hbc.device.trans hcd.device⟩

end TransportContext.SameTransport

theorem dapProcess_yields (request : List Byte) (capacity : ℕ) :
    (dapProcess context request capacity).Yields (fun _ => True)
      fun r => context.SameTransport r.2 := by
  apply ((processPacket_yields context.processor request capacity).handle
    (fun c x _ => backendCall_yields context.owner context.processor.selectedPort c x)
    context.clockHz).bind
  exact fun _ h => ⟨rfl, h⟩

/-- A packet of a command that only works with the target cannot change the session of an
update. -/
theorem dapProcess_debugs (request : List Byte) (capacity : ℕ)
    (hcommand : ∀ c ∈ DapCommand.ofByte (byteAt request 0), c.Works) :
    (dapProcess context request capacity).Yields LowerCall.Debugs fun _ => True := by
  have hpacket : (processPacket context.processor request capacity).Yields BackendCall.Works
      fun r => context.processor.SameDevice r.2 := by
    unfold processPacket
    apply yields_ite
    · exact fun _ => .refl _
    · exact fun _ => (processCommand_works context.processor request _ _ hcommand).mono
        (fun _ h => h) fun _ h => h.1
  apply (hpacket.handle (fun c x hc =>
    backendCall_debugs context.owner context.processor.selectedPort c hc x) context.clockHz).bind
  exact fun _ _ => trivial

theorem dapSessionClosed_yields :
    (dapSessionClosed context).Yields (fun _ => True) fun c =>
      context.SameTransport c ∧ c.processor.selectedPort = dapPortDisabled := by
  apply Prog.Yields.bind (φ := fun r : List Byte × TransportContext =>
    context.SameTransport r.2 ∧ r.2.processor.selectedPort = dapPortDisabled)
  · apply ((processDisconnect_yields context.processor [0x03] 2).handle
      (fun c x _ => backendCall_yields context.owner context.processor.selectedPort c x)
    context.clockHz).bind
    exact fun _ h => ⟨⟨rfl, h.1⟩, h.2⟩
  · exact fun _ h => h

/-- A packet and the room for its response. -/
structure DapRequest where
  data : List Byte
  responseCapacity : ℕ

/-- The packets of a session one after the other: their responses and the context they leave. -/
def serve (context : TransportContext) :
    List DapRequest → LowerCode (List (List Byte) × TransportContext)
  | [] => pure ([], context)
  | request :: requests => do
    let (response, context) ← dapProcess context request.data request.responseCapacity
    let (responses, context) ← serve context requests
    pure (response :: responses, context)

/-- A session up to its end. -/
def wholeSession (context : TransportContext) (requests : List DapRequest) :
    LowerCode TransportContext := do
  let (_, context) ← serve context requests
  dapSessionClosed context

theorem serve_yields :
    (serve context requests).Yields (fun _ => True) fun r => context.SameTransport r.2 := by
  induction requests generalizing context with
  | nil => exact .refl _
  | cons request requests ih =>
    apply (dapProcess_yields context _ _).bind
    intro r hr
    apply (ih r.2).bind
    exact fun _ h => hr.trans h

theorem wholeSession_yields :
    (wholeSession context requests).Yields (fun _ => True) fun c =>
      context.SameTransport c ∧ c.processor.selectedPort = dapPortDisabled := by
  apply (serve_yields context requests).bind
  intro r hr
  exact (dapSessionClosed_yields r.2).mono (fun _ _ => trivial) fun _ h => ⟨hr.trans h.1, h.2⟩

end AirDap

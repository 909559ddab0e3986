import AirDap.Dap.Framing
import AirDap.Dap.Session

/-! The framer and the processor agree on the extent of a request, and a response fits its
buffer. -/
namespace AirDap
open Concurrency

variable {p b : List Byte} {i k n : ℕ}

/-! A command reads nothing behind its request. -/

section Execution

variable {processor : Processor} {capacity : ℕ}

section

variable (h : p <+: b)
include h

theorem processCommand_of_fixed {command : Option DapCommand} (hsize : fixedSize command = some n)
    (hn : n ≤ p.length) (hvendor : ∀ c ∈ command, ¬ c.Vendor) :
    processCommand processor b capacity command = processCommand processor p capacity command := by
  have hle := h.length_le
  have hat (i : ℕ) (hi : i < p.length) : byteAt b i = byteAt p i := byteAt_of_isPrefix h hi
  have hhalf (i : ℕ) (hi : i + 2 ≤ p.length) : readU16 (b.drop i) = readU16 (p.drop i) :=
    readU16_of_isPrefix h hi
  have hword (i : ℕ) (hi : i + 4 ≤ p.length) : readU32 (b.drop i) = readU32 (p.drop i) :=
    readU32_of_isPrefix h hi
  have hlong (k : ℕ) (hk : k ≤ p.length) : ¬ p.length < k ∧ ¬ b.length < k := by omega
  cases command with
  | none => rfl
  | some c =>
    cases c with
    | info =>
      cases hsize
      simp only [processCommand, processInfo, hlong 2 hn, hat 1 hn]
    | hostStatus =>
      cases hsize
      simp only [processCommand, processHostStatus, hlong 3 hn]
      rw [hat 0 (by omega), hat 1 (by omega), hat 2 hn]
    | connect =>
      cases hsize
      simp only [processCommand, processConnect, hlong 2 hn]
      rw [hat 0 (by omega), hat 1 hn]
    | disconnect =>
      cases hsize
      simp only [processCommand, processDisconnect]
      rw [hat 0 hn]
    | transferConfigure =>
      cases hsize
      simp only [processCommand, processTransferConfigure, hlong 6 hn]
      rw [hat 0 (by omega), hat 1 (by omega), hhalf 2 (by omega), hhalf 4 hn]
    | writeAbort =>
      cases hsize
      simp only [processCommand, processWriteAbort, hlong 6 hn]
      rw [hat 0 (by omega), hword 2 hn]
    | delay =>
      cases hsize
      simp only [processCommand, processDelay, hlong 3 hn]
      rw [hat 0 (by omega), hhalf 1 hn]
    | resetTarget =>
      cases hsize
      simp only [processCommand, processResetTarget]
      rw [hat 0 hn]
    | swjPins =>
      cases hsize
      simp only [processCommand, processSwjPins, hlong 7 hn]
      rw [hat 0 (by omega), hat 1 (by omega), hat 2 (by omega), hword 3 hn]
    | swjClock =>
      cases hsize
      simp only [processCommand, processSwjClock, hlong 5 hn]
      rw [hat 0 (by omega), hword 1 hn]
    | swdConfigure =>
      cases hsize
      simp only [processCommand, processSwdConfigure, hlong 2 hn]
      rw [hat 0 (by omega), hat 1 hn]
    | transfer | transferBlock | swjSequence | swdSequence => cases hsize
    | _ => exact absurd trivial (hvendor _ rfl)

theorem writeSequenceItem_of_isPrefix {bitCount : ℕ} (hn : i + byteCount bitCount ≤ p.length)
    (success : Bool) :
    writeSequenceItem processor (b.drop i) bitCount success =
      writeSequenceItem processor (p.drop i) bitCount success := by
  rw [writeSequenceItem, writeSequenceItem, take_drop_of_isPrefix h hn]

theorem processSwjSequence_of_isPrefix
    (hn : 2 + byteCount (swjSequenceBits (byteAt b 1)) ≤ p.length) :
    processSwjSequence processor b capacity = processSwjSequence processor p capacity := by
  have hle := h.length_le
  rw [byteAt_of_isPrefix h (by omega)] at hn
  simp only [processSwjSequence, show ¬ p.length < 2 by omega, show ¬ b.length < 2 by omega,
    byteAt_of_isPrefix h (by omega : 1 < p.length), byteAt_of_isPrefix h (by omega : 0 < p.length),
    hn, hn.trans hle, writeSequenceItem_of_isPrefix h hn]

theorem transferItem_of_isPrefix {st : TransferState} (hn : itemEnd b st.input ≤ p.length) :
    transferItem b capacity st = transferItem p capacity st := by
  have hle := h.length_le
  have hlt : st.input < p.length := (lt_itemEnd b st.input).trans_le hn
  have hnot : ¬ st.input ≥ p.length ∧ ¬ st.input ≥ b.length := by omega
  rw [itemEnd, byteAt_of_isPrefix h hlt] at hn
  simp only [transferItem, byteAt_of_isPrefix h hlt, hnot, if_false]
  by_cases hdata : hasData (byteAt p st.input)
  · rw [if_pos hdata] at hn
    have hfits : ¬ st.input + 1 + 4 > p.length ∧ ¬ st.input + 1 + 4 > b.length := by omega
    simp only [hfits, readU32_of_isPrefix h (by omega : st.input + 1 + 4 ≤ p.length)]
  · simp only [hdata, (hasData_eq_false hdata).1]
    rfl

theorem transferLoop_of_isPrefix {items : ℕ} {st : TransferState}
    (hne : transferSize b items st.input ≠ 0) (hmax : transferSize b items st.input ≠ sizeMax)
    (hn : transferSize b items st.input ≤ p.length) :
    transferLoop b capacity items st = transferLoop p capacity items st := by
  induction items generalizing st with
  | zero => rfl
  | succ items ih =>
    obtain ⟨-, -, -, heq⟩ := transferFormat.step hne hmax
    rw [heq] at hne hmax hn
    have hend := (transferFormat.bounds hne hmax).1.trans hn
    rw [transferLoop_succ, transferLoop_succ, ← transferItem_of_isPrefix h hend]
    refine (transferItem_after capacity b st).bind_congr fun step hstep => ?_
    cases step with
    | ended result => rfl
    | next st' =>
      rw [← hstep.1.input st' rfl] at hne hmax hn
      exact ih hne hmax hn

end

theorem scanTransfers_succ (request : List Byte) (items scan required : ℕ) :
    scanTransfers request (items + 1) scan required =
      scanTransfers request items (itemEnd request scan)
        (if hasData (byteAt request scan) then required
          else if hasFlag (byteAt request scan) transferTimestamp then required + 8
          else required + 4) := rfl

theorem scanTransfers_end {items scan : ℕ} (hne : transferSize b items scan ≠ 0)
    (hmax : transferSize b items scan ≠ sizeMax) (required : ℕ) :
    (scanTransfers b items scan required).1 = transferSize b items scan := by
  induction items generalizing scan required with
  | zero => rfl
  | succ items ih =>
    obtain ⟨-, -, -, heq⟩ := transferFormat.step hne hmax
    rw [heq] at hne hmax ⊢
    rw [scanTransfers_succ]
    exact ih hne hmax _

section

variable (h : p <+: b)
include h

theorem scanTransfers_of_isPrefix {items scan : ℕ} (hne : transferSize b items scan ≠ 0)
    (hmax : transferSize b items scan ≠ sizeMax) (hn : transferSize b items scan ≤ p.length)
    (required : ℕ) : scanTransfers b items scan required = scanTransfers p items scan required := by
  induction items generalizing scan required with
  | zero => rfl
  | succ items ih =>
    obtain ⟨-, -, -, heq⟩ := transferFormat.step hne hmax
    rw [heq] at hne hmax hn
    have hend := (transferFormat.bounds hne hmax).1.trans hn
    have hp : scan < p.length := (lt_itemEnd b scan).trans_le hend
    rw [scanTransfers_succ, scanTransfers_succ, byteAt_of_isPrefix h hp, ← itemEnd_of_isPrefix h hp]
    exact ih hne hmax hn _

theorem processTransfer_of_isPrefix (hc : DapCommand.ofByte (byteAt b 0) = some .transfer)
    (hf : Framed b n) (hn : n ≤ p.length) :
    processTransfer processor b capacity = processTransfer processor p capacity := by
  have hle := h.length_le
  have hsize := hf.requestSize_eq
  have hsize' := (hf.of_prefix h hn).requestSize_eq
  cases hf with
  | transfer _ hhead hmax _ =>
    have hp := hhead.trans hn
    have htwo : byteAt b 2 = byteAt p 2 := byteAt_of_isPrefix h (by omega)
    have hlong : ¬ p.length < 3 ∧ ¬ b.length < 3 := by omega
    have hne : transferSize b (byteAt b 2).toNat 3 ≠ 0 := by omega
    simp only [processTransfer, hsize, hsize', hlong, ← htwo,
      scanTransfers_of_isPrefix h hne hmax hn]
    rw [transferLoop_of_isPrefix h hne hmax hn]
  | fixed hfixed => rw [hc] at hfixed; cases hfixed
  | otaWrite hc' | swjSequence hc' | transferBlock hc' | swdSequence hc' =>
    rw [hc] at hc'; cases hc'

theorem blockLoop_of_isPrefix {transferRequest : Byte} {words : ℕ} {st : BlockState}
    (hn : hasFlag transferRequest transferRead = false → st.input + words * 4 ≤ p.length) :
    blockLoop processor b capacity transferRequest words st =
      blockLoop processor p capacity transferRequest words st := by
  have hle := h.length_le
  induction words generalizing st with
  | zero => rfl
  | succ words ih =>
    rw [blockLoop, blockLoop]
    have hgo (st' : BlockState) (hinput : hasFlag transferRequest transferRead = false →
        st'.input + words * 4 ≤ p.length) (data : Word)
        (f : BlockState → Bool × Word × Byte → BlockState)
        (hf : ∀ r, (f st' r).input = st'.input) :
        (transferOnce processor transferRequest data >>= fun r =>
          if !r.1 then pure (some { st' with status := r.2.2 })
          else blockLoop processor b capacity transferRequest words (f st' r)) =
        transferOnce processor transferRequest data >>= fun r =>
          if !r.1 then pure (some { st' with status := r.2.2 })
          else blockLoop processor p capacity transferRequest words (f st' r) := by
      congr 1
      funext r
      rw [ih]
      rw [hf]
      exact hinput
    cases hread : hasFlag transferRequest transferRead with
    | true =>
      simp only [Bool.not_true, Bool.false_eq_true, false_and, if_false, if_true]
      rw [hread] at hgo
      split
      · rfl
      · exact hgo st (fun h => by cases h) _ (fun st' r => { st' with
          status := r.2.2
          completed := st'.completed + 1
          output := st'.output ++ writeU32 r.2.1 }) fun _ => rfl
    | false =>
      have hfits := hn hread
      have hroom : ¬ st.input + 4 > p.length ∧ ¬ st.input + 4 > b.length := by omega
      simp only [hroom, readU32_of_isPrefix h (by omega : st.input + 4 ≤ p.length),
        Bool.false_eq_true, false_and, and_false, if_false]
      exact hgo { st with input := st.input + 4 } (fun _ => by dsimp only; omega) _
        (fun st' r => { st' with status := r.2.2, completed := st'.completed + 1 }) fun _ => rfl

theorem processTransferBlock_of_isPrefix (hn : blockSize b ≤ p.length) :
    processTransferBlock processor b capacity = processTransferBlock processor p capacity := by
  have hle := h.length_le
  have hhead : 5 ≤ blockSize b := by
    unfold blockSize
    split <;> omega
  have hp := hhead.trans hn
  have hlong : ¬ p.length < 5 ∧ ¬ b.length < 5 := by omega
  rw [blockSize_of_isPrefix h hp] at hn
  simp only [processTransferBlock, hlong, byteAt_of_isPrefix h hp,
    readU16_of_isPrefix h (by omega : 2 + 2 ≤ p.length)]
  unfold blockSize at hn
  cases hread : hasFlag (byteAt p 4) transferRead with
  | true =>
    rw [blockLoop_of_isPrefix h fun hwrite => by rw [hread] at hwrite; cases hwrite]
    simp only [Bool.not_true, Bool.false_eq_true, false_and]
  | false =>
    rw [hread] at hn
    simp only [Bool.false_eq_true, if_false] at hn
    rw [blockLoop_of_isPrefix h fun _ => hn]
    have hcount : ¬ (readU16 (p.drop 2)).toNat > (p.length - 5) / 4 ∧
        ¬ (readU16 (p.drop 2)).toNat > (b.length - 5) / 4 := by omega
    simp only [hcount]

theorem scanSequences_of_isPrefix {items scan : ℕ} (hne : sequenceSize b items scan ≠ 0)
    (hmax : sequenceSize b items scan ≠ sizeMax) (hn : sequenceSize b items scan ≤ p.length)
    (required : ℕ) : scanSequences b items scan required = scanSequences p items scan required := by
  have hle := h.length_le
  induction items generalizing scan required with
  | zero => rfl
  | succ items ih =>
    obtain ⟨-, -, -, heq⟩ := sequenceFormat.step hne hmax
    rw [heq] at hne hmax hn
    have hend := (sequenceFormat.bounds hne hmax).1.trans hn
    have hp : scan < p.length := (lt_sequenceEnd b scan).trans_le hend
    have hat := byteAt_of_isPrefix h hp
    rw [scanSequences, scanSequences, if_neg (show ¬ scan ≥ b.length by omega),
      if_neg (show ¬ scan ≥ p.length by omega), hat]
    rw [sequenceEnd, hat] at hne hmax hn hend
    dsimp only
    split
    · rename_i hin
      rw [if_pos hin] at hne hmax hn
      exact ih hne hmax hn _
    · rename_i hout
      rw [if_neg hout] at hne hmax hn hend
      rw [if_neg (show ¬ _ > b.length by omega), if_neg (show ¬ _ > p.length by omega)]
      exact ih hne hmax hn _

theorem sequenceLoop_of_isPrefix {items : ℕ} {st : SequenceState}
    (hne : sequenceSize b items st.input ≠ 0) (hmax : sequenceSize b items st.input ≠ sizeMax)
    (hn : sequenceSize b items st.input ≤ p.length) :
    sequenceLoop processor b capacity items st = sequenceLoop processor p capacity items st := by
  have hle := h.length_le
  induction items generalizing st with
  | zero => rfl
  | succ items ih =>
    obtain ⟨-, -, -, heq⟩ := sequenceFormat.step hne hmax
    rw [heq] at hne hmax hn
    have hend := (sequenceFormat.bounds hne hmax).1.trans hn
    have hp : st.input < p.length := (lt_sequenceEnd b st.input).trans_le hend
    have hat := byteAt_of_isPrefix h hp
    rw [sequenceLoop, sequenceLoop, if_neg (show ¬ st.input ≥ b.length by omega),
      if_neg (show ¬ st.input ≥ p.length by omega), hat]
    rw [sequenceEnd, hat] at hne hmax hn hend
    dsimp only
    split
    · rename_i hin
      rw [if_pos hin] at hne hmax hn
      split
      · rfl
      · congr 1
        funext r
        exact ih hne hmax hn
    · rename_i hout
      rw [if_neg hout] at hne hmax hn hend
      rw [if_neg (show ¬ _ > b.length by omega), if_neg (show ¬ _ > p.length by omega),
        writeSequenceItem_of_isPrefix h hend]
      congr 1
      funext r
      exact ih hne hmax hn

theorem processSwdSequence_of_isPrefix (hhead : 2 ≤ sequenceSize b (byteAt b 1).toNat 2)
    (hmax : sequenceSize b (byteAt b 1).toNat 2 ≠ sizeMax)
    (hn : sequenceSize b (byteAt b 1).toNat 2 ≤ p.length) :
    processSwdSequence processor b capacity = processSwdSequence processor p capacity := by
  have hle := h.length_le
  have hp := hhead.trans hn
  have hlong : ¬ p.length < 2 ∧ ¬ b.length < 2 := by omega
  have hne : sequenceSize b (byteAt b 1).toNat 2 ≠ 0 := by omega
  rw [processSwdSequence, processSwdSequence, scanSequences_of_isPrefix h hne hmax hn,
    sequenceLoop_of_isPrefix h hne hmax hn]
  simp only [hlong, byteAt_of_isPrefix h hp]

theorem processPacket_of_framed (hf : Framed b n) (hn : n ≤ p.length)
    (hvendor : ∀ c ∈ DapCommand.ofByte (byteAt b 0), ¬ c.Vendor) :
    processPacket processor b capacity = processPacket processor p capacity := by
  have hle := h.length_le
  have hpos := hf.pos.trans_le hn
  have hempty : ¬ p.length = 0 ∧ ¬ b.length = 0 := by omega
  rw [processPacket, processPacket, ← byteAt_of_isPrefix h hpos]
  simp only [hempty, false_or]
  split
  · rfl
  · cases hf with
    | fixed hsize _ => exact processCommand_of_fixed h hsize hn hvendor
    | otaWrite hc _ _ => exact absurd trivial (hvendor _ hc)
    | swjSequence hc _ =>
      rw [hc, processCommand, processCommand, processSwjSequence_of_isPrefix h hn]
    | transferBlock hc _ _ =>
      rw [hc, processCommand, processCommand, processTransferBlock_of_isPrefix h hn]
    | transfer hc hhead hmax hle =>
      rw [hc]
      exact processTransfer_of_isPrefix h hc (.transfer hc hhead hmax hle) hn
    | swdSequence hc hhead hmax _ =>
      rw [hc, processCommand, processCommand, processSwdSequence_of_isPrefix h hhead hmax hn]

end

end Execution

/-! A response fits its buffer. -/

section Response

variable {processor : Processor} {request : List Byte} {capacity : ℕ}

theorem processCommand_fits {command : Option DapCommand} (hvendor : ∀ c ∈ command, ¬ c.Vendor) :
    (processCommand processor request capacity command).Yields (fun _ => True)
      fun r => r.1.length ≤ capacity := by
  by_cases hworks : ∀ c ∈ command, c.Works
  · exact (processCommand_works processor request capacity command hworks).mono
      (fun _ _ => trivial) fun _ h => h.2
  · push Not at hworks
    obtain ⟨c, rfl, hc⟩ := hworks
    cases c with
    | connect =>
      refine Prog.yields_guard (length_invalidResponse capacity) fun hroom => ?_
      refine (connectPort_yields _ _).bind fun connected _ => ?_
      exact (disconnectUnless_yields _ _).bind fun _ _ => not_lt.mp fun h => hroom (.inr h)
    | disconnect =>
      exact (callback_yields _ .disconnect _ trivial).bind fun _ _ =>
        (statusResponse_answers _ _ _).1
    | otaQuery | otaBegin | otaWrite | otaCommit | otaAbort | otaReboot =>
      exact absurd trivial (hvendor _ rfl)
    | _ => exact absurd trivial hc

theorem processPacket_fits (hvendor : ∀ c ∈ DapCommand.ofByte (byteAt request 0), ¬ c.Vendor) :
    (processPacket processor request capacity).Yields (fun _ => True)
      fun r => r.1.length ≤ min capacity dapPacketSize :=
  Prog.yields_guard (Nat.zero_le _) fun _ => processCommand_fits hvendor

/-- The framer and the processor agree on the extent of a request: bytes behind it change
neither the calls of the backend, nor the processor, nor the response. -/
theorem framing_agrees_with_execution (processor : Processor) (b : List Byte) (capacity : ℕ)
    (hvendor : ∀ c ∈ DapCommand.ofByte (byteAt b 0), ¬ c.Vendor) :
    (requestSize b ≠ 0 → requestSize b ≠ sizeMax →
      processPacket processor b capacity =
        processPacket processor (b.take (requestSize b)) capacity) ∧
    (processPacket processor b capacity).Yields (fun _ => True)
      fun r => r.1.length ≤ min capacity dapPacketSize := by
  refine ⟨fun hne hmax => ?_, processPacket_fits hvendor⟩
  have hf := framed_of_requestSize hne hmax
  refine processPacket_of_framed (List.take_prefix _ b) hf ?_ hvendor
  rw [List.length_take]
  exact (min_eq_left hf.length_le).ge

theorem framing_agrees_on_connect :
    processPacket (processorInit installedBackend none none) [0x02, 0x01, 0x05] 64 =
      processPacket (processorInit installedBackend none none) [0x02, 0x01] 64 :=
  (framing_agrees_with_execution (processorInit installedBackend none none) [0x02, 0x01, 0x05] 64
    (by rintro c ⟨⟩; exact id)).1 (by decide) (by decide)

end Response
end AirDap

import AirDap.Swd.Lines

/-! Bit sequences: what is sent is what the buffer holds, and what is received is stored as it
came. -/
namespace AirDap
open Concurrency

namespace Swd

/-- The bits of a buffer in the order of the line. -/
def byteBits (data : List Byte) : List Bool := data.flatMap (Wire.bits 8)

/-- The first bytes of a number in memory. -/
def wordBytes (count : ℕ) (bits : BitVec 64) : List Byte :=
  (List.range count).map fun i => (bits >>> (8 * i)).setWidth 8

/-- `memcpy` to `data + start`. -/
def copyTo (data : List Byte) (start : ℕ) (bytes : List Byte) : List Byte :=
  data.take start ++ bytes ++ data.drop (start + bytes.length)

/-- `airdap_swd_set_io_state`. -/
def setIoState (hostOutput : Bool) (engine : Engine) : SwdCode (SwdError × Engine) :=
  if !engine.initialized then pure (.invalidState, engine)
  else if engine.hostOutput = hostOutput then pure (.ok, engine)
  else setHostOutput hostOutput engine

/-- The bits of a sequence that go into one transaction. -/
def chunkBits (bitCount offset : ℕ) : ℕ :=
  if bitCount - offset > 64 then 64 else bitCount - offset

/-- The loop of `airdap_swd_write_sequence`, which has a round for each bit. -/
def writeSequenceLoop (data : List Byte) (bitCount : ℕ) (engine : Engine) :
    ℕ → ℕ → SwdCode SwdError
  | 0, _ => pure .ok
  | rounds + 1, offset =>
    if offset < bitCount then do
      let chunk := chunkBits bitCount offset
      let bytes := (data.drop (offset / 8)).take (byteCount chunk)
      let error ← writeBits (Wire.ofBits 64 (byteBits bytes)) chunk engine
      if error ≠ .ok then pure error
      else writeSequenceLoop data bitCount engine rounds (offset + chunk)
    else pure .ok

variable (data : List Byte) (bitCount : ℕ) (engine : Engine)

/-- `airdap_swd_write_sequence`. -/
def writeSequence :
    SwdCode (SwdError × Engine) :=
  if !engine.initialized then pure (.invalidState, engine)
  else if data = [] ∨ bitCount = 0 then pure (.invalidArg, engine)
  else do
    let (error, engine) ← setIoState true engine
    if error ≠ .ok then pure (error, engine)
    else do
      let error ← writeSequenceLoop data bitCount engine bitCount 0
      pure (error, engine)

/-- The loop of `airdap_swd_read_sequence`: the result and the buffer. -/
def readSequenceLoop (bitCount : ℕ) (engine : Engine) :
    ℕ → ℕ → List Byte → SwdCode (SwdError × List Byte)
  | 0, _, data => pure (.ok, data)
  | rounds + 1, offset, data =>
    if offset < bitCount then do
      let chunk := chunkBits bitCount offset
      let (error, bits) ← readBits chunk engine
      if error ≠ .ok then pure (error, data)
      else
        readSequenceLoop bitCount engine rounds (offset + chunk)
          (copyTo data (offset / 8) (wordBytes (byteCount chunk) bits))
    else pure (.ok, data)

/-- `airdap_swd_read_sequence`. -/
def readSequence :
    SwdCode (SwdError × List Byte × Engine) :=
  if !engine.initialized then pure (.invalidState, data, engine)
  else if data = [] ∨ bitCount = 0 then pure (.invalidArg, data, engine)
  else do
    let (error, engine) ← setIoState false engine
    if error ≠ .ok then pure (error, data, engine)
    else do
      let (error, data) ← readSequenceLoop bitCount engine bitCount 0
        (copyTo data 0 (List.replicate (byteCount bitCount) 0))
      pure (error, data, engine)

/-- The bits that are sent and seen, one transaction after the other. -/
def sentOf (lines : List LineEvent) : List Bool :=
  lines.flatMap fun | .sent bits => bits | _ => []

def seenOf (lines : List LineEvent) : List Bool :=
  lines.flatMap fun | .seen bits => bits | _ => []

section Sequences

variable {engine : Engine} {data : List Byte} {bitCount offset rounds : ℕ}

@[simp] theorem byteBits_cons (b : Byte) (data : List Byte) :
    byteBits (b :: data) = Wire.bits 8 b ++ byteBits data := rfl

theorem byteBits_append (data more : List Byte) :
    byteBits (data ++ more) = byteBits data ++ byteBits more := List.flatMap_append

@[simp] theorem length_byteBits (data : List Byte) : (byteBits data).length = 8 * data.length := by
  induction data with
  | nil => rfl
  | cons b data ih =>
    rw [byteBits_cons, List.length_append, Wire.length_bits, ih, List.length_cons]
    omega

theorem byteBits_drop (data : List Byte) (k : ℕ) :
    byteBits (data.drop k) = (byteBits data).drop (8 * k) := by
  induction k generalizing data with
  | zero => rfl
  | succ k ih =>
    cases data with
    | nil => simp [byteBits]
    | cons b data =>
      rw [List.drop_succ_cons, ih, byteBits_cons, Nat.mul_succ, Nat.add_comm, ← List.drop_drop,
        List.drop_left' (Wire.length_bits 8 b)]

theorem byteBits_take (data : List Byte) (k : ℕ) :
    byteBits (data.take k) = (byteBits data).take (8 * k) := by
  induction k generalizing data with
  | zero => rfl
  | succ k ih =>
    cases data with
    | nil => simp [byteBits]
    | cons b data =>
      have hfirst : (Wire.bits 8 b).take (8 + 8 * k) = Wire.bits 8 b :=
        List.take_of_length_le (by simp)
      rw [List.take_succ_cons, byteBits_cons, ih, byteBits_cons, Nat.mul_succ, Nat.add_comm,
        List.take_append, hfirst, Wire.length_bits, Nat.add_sub_cancel_left]

theorem byteBits_wordBytes (count : ℕ) (bits : BitVec 64) :
    byteBits (wordBytes count bits) = Wire.bits (8 * count) bits := by
  induction count with
  | zero => rfl
  | succ count ih =>
    have hlast : byteBits [(bits >>> (8 * count)).setWidth 8] =
        Wire.bits 8 (bits >>> (8 * count)) := by
      simp only [byteBits, Wire.bits, List.flatMap_cons, List.flatMap_nil, List.append_nil]
      refine List.map_congr_left fun i hi => ?_
      rw [BitVec.getLsbD_setWidth, decide_eq_true (List.mem_range.mp hi), Bool.true_and]
    have hrange : wordBytes (count + 1) bits =
        wordBytes count bits ++ [(bits >>> (8 * count)).setWidth 8] := by
      simp [wordBytes, List.range_succ]
    rw [hrange, byteBits_append, ih, hlast, Nat.mul_succ, Wire.bits_add]

theorem chunkBits_bounds (h : offset < bitCount) :
    0 < chunkBits bitCount offset ∧ chunkBits bitCount offset ≤ 64 ∧
      offset + chunkBits bitCount offset ≤ bitCount := by
  unfold chunkBits
  split <;> omega

theorem chunkBits_aligned (halign : offset % 8 = 0) (h : offset < bitCount) :
    (offset + chunkBits bitCount offset) % 8 = 0 ∨
      offset + chunkBits bitCount offset = bitCount := by
  unfold chunkBits
  split <;> omega

theorem chunk_bits (halign : offset % 8 = 0) (h : offset < bitCount)
    (hdata : byteCount bitCount ≤ data.length) :
    Wire.bits (chunkBits bitCount offset) (Wire.ofBits 64
      (byteBits ((data.drop (offset / 8)).take (byteCount (chunkBits bitCount offset))))) =
      ((byteBits data).drop offset).take (chunkBits bitCount offset) := by
  obtain ⟨-, hle, hend⟩ := chunkBits_bounds h
  unfold byteCount at hdata ⊢
  rw [Wire.bits_ofBits _ hle, byteBits_take, byteBits_drop, show 8 * (offset / 8) = offset by omega,
    List.take_append_of_le_length, List.take_take, min_eq_left (by omega)]
  rw [List.length_take, List.length_drop, length_byteBits]
  omega

theorem writeSequenceLoop_lined (hhost : engine.hostOutput = true)
    (hdata : byteCount bitCount ≤ data.length) (halign : offset % 8 = 0 ∨ offset = bitCount)
    (hrounds : bitCount - offset ≤ rounds) (hoffset : offset ≤ bitCount) :
    Lined (fun r lines => r = .ok ∧
      sentOf lines = ((byteBits data).drop offset).take (bitCount - offset))
      (writeSequenceLoop data bitCount engine rounds offset) := by
  induction rounds generalizing offset with
  | zero =>
    rw [show bitCount - offset = 0 by omega]
    exact ⟨rfl, rfl⟩
  | succ rounds ih =>
    rw [writeSequenceLoop]
    by_cases hlt : offset < bitCount
    · obtain ⟨hpos, hle, hend⟩ := chunkBits_bounds hlt
      have halign : offset % 8 = 0 := by omega
      have hnext := chunkBits_aligned halign hlt
      rw [if_pos hlt]
      refine (writeBits_lined hhost hpos hle).then ?_
      rw [if_neg (by simp), chunk_bits halign hlt hdata]
      refine (ih hnext (by omega) hend).mono fun r lines h => ⟨h.1, ?_⟩
      have hsplit : bitCount - offset = chunkBits bitCount offset +
          (bitCount - (offset + chunkBits bitCount offset)) := by omega
      change _ ++ sentOf lines = _
      rw [h.2, hsplit, List.take_add, List.drop_drop]
    · rw [if_neg hlt, show bitCount - offset = 0 by omega]
      exact ⟨rfl, rfl⟩

/-- The bytes of one transaction: its bits, and zeros up to the end of the last byte. -/
theorem byteBits_received {bs : List Bool} (h : bs.length ≤ 64) :
    byteBits (wordBytes (byteCount bs.length) (Wire.ofBits 64 bs)) =
      bs ++ List.replicate (8 * byteCount bs.length - bs.length) false := by
  have hle : bs.length ≤ 8 * byteCount bs.length := by
    unfold byteCount
    omega
  have hcount : 8 * byteCount bs.length ≤ 64 := by
    unfold byteCount
    omega
  rw [byteBits_wordBytes, Wire.bits_ofBits bs hcount, List.take_append, List.take_replicate,
    List.take_of_length_le hle, min_eq_left (Nat.sub_le _ _)]

@[simp] theorem length_wordBytes (count : ℕ) (bits : BitVec 64) :
    (wordBytes count bits).length = count := by simp [wordBytes]

theorem readSequenceLoop_end : readSequenceLoop bitCount engine rounds bitCount data =
    pure (.ok, data) := by
  cases rounds with
  | zero => rfl
  | succ rounds => rw [readSequenceLoop, if_neg (lt_irrefl _)]

theorem readSequenceLoop_lined (hhost : engine.hostOutput = false)
    (hdata : byteCount bitCount ≤ data.length) (halign : offset % 8 = 0)
    (hrounds : bitCount - offset ≤ rounds) (hoffset : offset < bitCount) :
    Lined (fun r lines => r.1 = .ok ∧ (seenOf lines).length = bitCount - offset ∧
      ∃ bytes, byteBits bytes =
          seenOf lines ++ List.replicate (8 * byteCount bitCount - bitCount) false ∧
        r.2 = data.take (offset / 8) ++ bytes ++ data.drop (byteCount bitCount))
      (readSequenceLoop bitCount engine rounds offset data) := by
  induction rounds generalizing offset data with
  | zero => omega
  | succ rounds ih =>
    obtain ⟨hpos, hle, hend⟩ := chunkBits_bounds hoffset
    rw [readSequenceLoop, if_pos hoffset]
    refine (readBits_lined hhost hpos hle).bind fun r lines hread => ?_
    obtain ⟨bs, hlength, rfl, rfl⟩ := hread
    dsimp only
    rw [if_neg (by simp), ← hlength]
    have hbits := byteBits_received (hlength ▸ hle)
    rw [← hlength] at hend hpos hle
    have hbegin : (data.take (offset / 8)).length = offset / 8 := by
      rw [List.length_take]
      unfold byteCount at hdata
      omega
    by_cases hlast : offset + bs.length = bitCount
    · -- the last transaction ends with the last byte
      have hcount : offset / 8 + byteCount bs.length = byteCount bitCount := by
        unfold byteCount
        omega
      rw [hlast, readSequenceLoop_end]
      refine ⟨rfl, ?_, wordBytes (byteCount bs.length) (Wire.ofBits 64 bs), ?_, ?_⟩
      · simp only [seenOf, List.flatMap_cons, List.flatMap_nil,
          List.append_nil]
        omega
      · rw [hbits, show 8 * byteCount bs.length - bs.length =
          8 * byteCount bitCount - bitCount by omega]
        simp [seenOf]
      · rw [copyTo, length_wordBytes, hcount]
    · have hfull : bs.length = 64 := by
        unfold chunkBits at hlength
        split at hlength <;> omega
      have hcount : byteCount bs.length = 8 := by rw [hfull]; rfl
      rw [hcount, hfull, show 8 * 8 - 64 = 0 from rfl, List.replicate_zero,
        List.append_nil] at hbits
      rw [hcount]
      have hnext : (offset + bs.length) / 8 = offset / 8 + 8 := by omega
      have hroom : offset / 8 + 8 ≤ byteCount bitCount := by
        unfold byteCount
        omega
      have hcopied : byteCount bitCount ≤
          (copyTo data (offset / 8) (wordBytes 8 (Wire.ofBits 64 bs))).length := by
        simp only [copyTo, List.length_append, hbegin, length_wordBytes, List.length_drop]
        omega
      refine (ih hcopied (by omega) (by omega) (by omega)).mono fun r lines h => ?_
      obtain ⟨hok, hseen, bytes, hbytes, hresult⟩ := h
      refine ⟨hok, ?_, wordBytes 8 (Wire.ofBits 64 bs) ++ bytes, ?_, ?_⟩
      · change (bs ++ seenOf lines).length = _
        rw [List.length_append, hseen]
        omega
      · change _ = (bs ++ seenOf lines) ++ _
        rw [byteBits_append, hbits, hbytes, List.append_assoc]
      · have hwritten : (data.take (offset / 8) ++ wordBytes 8 (Wire.ofBits 64 bs)).length =
            offset / 8 + 8 := by rw [List.length_append, hbegin, length_wordBytes]
        rw [hresult, hnext, copyTo, List.take_left' hwritten, List.drop_append,
          List.drop_of_length_le (hwritten.trans_le hroom), hwritten, List.nil_append,
          List.drop_drop, length_wordBytes, Nat.add_sub_cancel' hroom, List.append_assoc,
          List.append_assoc, List.append_assoc, List.append_assoc]

theorem setIoState_lined (hinit : engine.initialized = true) (hostOutput : Bool) :
    Lined (fun r lines => r = (.ok, { engine with hostOutput }) ∧ sentOf lines = [] ∧
      seenOf lines = []) (setIoState hostOutput engine) := by
  rw [setIoState, if_neg (by simp [hinit])]
  by_cases hsame : engine.hostOutput = hostOutput
  · rw [if_pos hsame]
    subst hsame
    exact ⟨rfl, rfl, rfl⟩
  · rw [if_neg hsame]
    refine setHostOutput_lined.mono fun r lines h => ?_
    obtain ⟨rfl, rfl⟩ := h
    exact ⟨rfl, rfl, rfl⟩

/-- When no call of a driver fails, a sequence that is written is the first bits of the buffer,
and one that is read is stored in the first bits of the buffer, with zeros up to the end of the
last byte; what the buffer holds behind it stays. -/
theorem sequences_exact (engine : Engine) (hinit : engine.initialized = true) (data : List Byte)
    (bitCount : ℕ) (hpos : 1 ≤ bitCount) (hdata : byteCount bitCount ≤ data.length) :
    Lined (fun r lines => r.1 = .ok ∧ sentOf lines = (byteBits data).take bitCount)
      (writeSequence data bitCount engine) ∧
    Lined (fun r lines => r.1 = .ok ∧ (seenOf lines).length = bitCount ∧
      byteBits (r.2.1.take (byteCount bitCount)) =
        seenOf lines ++ List.replicate (8 * byteCount bitCount - bitCount) false ∧
      r.2.1.drop (byteCount bitCount) = data.drop (byteCount bitCount))
      (readSequence data bitCount engine) := by
  have hbytes : 0 < byteCount bitCount := by
    unfold byteCount
    omega
  have hgiven : ¬ (data = [] ∨ bitCount = 0) := by
    rintro (rfl | h)
    · simp at hdata
      omega
    · omega
  have hnot : ¬ (!engine.initialized) = true := by simp [hinit]
  constructor
  · rw [writeSequence, if_neg hnot, if_neg hgiven]
    refine (setIoState_lined hinit true).bind fun r first h => ?_
    obtain ⟨rfl, hfirst, -⟩ := h
    dsimp only
    rw [if_neg (by simp)]
    refine (writeSequenceLoop_lined rfl hdata (.inl rfl) le_rfl (Nat.zero_le _)).bind
      fun r lines h => ?_
    refine ⟨h.1, ?_⟩
    have hsent := h.2
    rw [List.drop_zero, Nat.sub_zero] at hsent
    rw [← hsent]
    simp only [sentOf, List.flatMap_append, List.append_nil] at hfirst ⊢
    rw [hfirst, List.nil_append]
  · rw [readSequence, if_neg hnot, if_neg hgiven]
    refine (setIoState_lined hinit false).bind fun r first h => ?_
    obtain ⟨rfl, -, hfirst⟩ := h
    dsimp only
    rw [if_neg (by simp)]
    have hcleared : byteCount bitCount ≤
        (copyTo data 0 (List.replicate (byteCount bitCount) 0)).length := by
      simp [copyTo]
    refine (readSequenceLoop_lined rfl hcleared rfl le_rfl hpos).bind fun r lines h => ?_
    obtain ⟨hok, hseen, bytes, hbits, hresult⟩ := h
    have hlength : bytes.length = byteCount bitCount := by
      have := congrArg List.length hbits
      rw [length_byteBits, List.length_append, hseen, List.length_replicate] at this
      unfold byteCount at this ⊢
      omega
    have hall : seenOf (first ++ (lines ++ [])) = seenOf lines := by
      simp only [seenOf, List.flatMap_append, List.append_nil] at hfirst ⊢
      rw [hfirst, List.nil_append]
    refine ⟨hok, ?_, ?_, ?_⟩
    · rw [hall, hseen, Nat.sub_zero]
    · rw [hall, ← hbits, hresult]
      simp [hlength, List.take_left']
    · rw [hresult]
      simp [hlength, copyTo]

theorem sequences_of_nine_bits :
    Lined (fun r lines => r.1 = .ok ∧ sentOf lines = (byteBits [0x9E, 0xE7]).take 9)
      (writeSequence [0x9E, 0xE7] 9 (idleEngine 0)) :=
  (sequences_exact (idleEngine 0) rfl [0x9E, 0xE7] 9 (by decide) (by decide)).1

end Sequences
end Swd
end AirDap

import AirDap.Dap.Protocol

/-! The framer: the size of a request is known from its own bytes, and bytes that come behind them
never change it. -/
namespace AirDap

variable {p b : List Byte} {i k n : ℕ}

/-- The commands that the processor passes to the update. -/
def DapCommand.Vendor : DapCommand → Prop
  | .otaQuery | .otaBegin | .otaWrite | .otaCommit | .otaAbort | .otaReboot => True
  | _ => False

/-! Reading in a prefix -/

section Prefix

theorem byteAt_of_isPrefix (h : p <+: b) (hi : i < p.length) : byteAt b i = byteAt p i := by
  obtain ⟨q, rfl⟩ := h
  simp [byteAt, List.getElem?_append_left hi]

theorem byteAt_drop (data : List Byte) (i k : ℕ) :
    byteAt (data.drop i) k = byteAt data (i + k) := by
  simp [byteAt]

theorem readU16_of_isPrefix (h : p <+: b) (hi : i + 2 ≤ p.length) :
    readU16 (b.drop i) = readU16 (p.drop i) := by
  simp only [readU16, byteAt_drop]
  rw [byteAt_of_isPrefix h (by omega), byteAt_of_isPrefix h (by omega)]

theorem readU32_of_isPrefix (h : p <+: b) (hi : i + 4 ≤ p.length) :
    readU32 (b.drop i) = readU32 (p.drop i) := by
  simp only [readU32, byteAt_drop]
  rw [byteAt_of_isPrefix h (by omega), byteAt_of_isPrefix h (by omega),
    byteAt_of_isPrefix h (by omega), byteAt_of_isPrefix h (by omega)]

theorem take_drop_of_isPrefix (h : p <+: b) (hi : i + k ≤ p.length) :
    (b.drop i).take k = (p.drop i).take k := by
  obtain ⟨q, rfl⟩ := h
  rw [List.drop_append_of_le_length (by omega), List.take_append_of_le_length]
  rw [List.length_drop]
  omega

end Prefix

/-! The answer of the framer on a part of a request is never revised, and it takes no more than
the request. -/

section Size

variable {items length : ℕ}

/-- Where the item of a transfer at `length` ends. -/
def itemEnd (request : List Byte) (length : ℕ) : ℕ :=
  if hasData (byteAt request length) then length + 5 else length + 1

/-- Where the item of a sequence command at `length` ends. -/
def sequenceEnd (request : List Byte) (length : ℕ) : ℕ :=
  if hasFlag (byteAt request length) 0x80 then length + 1
  else length + 1 + byteCount (sequenceBits (byteAt request length))

theorem lt_itemEnd (request : List Byte) (length : ℕ) : length < itemEnd request length := by
  unfold itemEnd
  split <;> omega

theorem lt_sequenceEnd (request : List Byte) (length : ℕ) :
    length < sequenceEnd request length := by
  unfold sequenceEnd
  split <;> omega

theorem itemEnd_of_isPrefix (h : p <+: b) (hi : i < p.length) : itemEnd b i = itemEnd p i := by
  rw [itemEnd, itemEnd, byteAt_of_isPrefix h hi]

theorem sequenceEnd_of_isPrefix (h : p <+: b) (hi : i < p.length) :
    sequenceEnd b i = sequenceEnd p i := by
  rw [sequenceEnd, sequenceEnd, byteAt_of_isPrefix h hi]

/-- The size of a command that consists of items one behind the other, each of which tells where
it ends; the limit of a packet is tested at the `limited` ones. -/
structure ItemFormat (size : List Byte → ℕ → ℕ → ℕ) (itemEnd : List Byte → ℕ → ℕ)
    (limited : List Byte → ℕ → Bool) : Prop where
  zero : ∀ request length, size request 0 length = length
  succ : ∀ request items length, size request (items + 1) length =
    if request.length ≤ length then 0
    else if limited request length ∧ itemEnd request length > dapPacketSize then sizeMax
    else if request.length < itemEnd request length then 0
    else size request items (itemEnd request length)
  lt_end : ∀ request length, length < itemEnd request length
  congr : ∀ {p b : List Byte} {i : ℕ}, p <+: b → i < p.length →
    itemEnd b i = itemEnd p i ∧ limited b i = limited p i

namespace ItemFormat

variable {size : List Byte → ℕ → ℕ → ℕ} {itemEnd : List Byte → ℕ → ℕ}
  {limited : List Byte → ℕ → Bool} (hf : ItemFormat size itemEnd limited)
include hf

theorem of_isPrefix (h : p <+: b) (hsize : size p items length ≠ 0) :
    size b items length = size p items length := by
  induction items generalizing length with
  | zero => rw [hf.zero, hf.zero]
  | succ items ih =>
    have hle := h.length_le
    rw [hf.succ] at hsize ⊢
    rw [hf.succ]
    by_cases hend : p.length ≤ length
    · rw [if_pos hend] at hsize
      exact absurd rfl hsize
    · obtain ⟨heq, hlimited⟩ := hf.congr h (not_le.mp hend)
      rw [if_neg hend] at hsize ⊢
      rw [if_neg (by omega), heq, hlimited]
      by_cases hlimit : limited p length ∧ itemEnd p length > dapPacketSize
      · rw [if_pos hlimit, if_pos hlimit]
      · rw [if_neg hlimit] at hsize ⊢
        rw [if_neg hlimit]
        by_cases hshort : p.length < itemEnd p length
        · rw [if_pos hshort] at hsize
          exact absurd rfl hsize
        · rw [if_neg hshort] at hsize ⊢
          rw [if_neg (by omega)]
          exact ih hsize

theorem step (hne : size p (items + 1) length ≠ 0) (hmax : size p (items + 1) length ≠ sizeMax) :
    length < p.length ∧ (limited p length → itemEnd p length ≤ dapPacketSize) ∧
      itemEnd p length ≤ p.length ∧
      size p (items + 1) length = size p items (itemEnd p length) := by
  rw [hf.succ] at hne hmax ⊢
  by_cases hend : p.length ≤ length
  · rw [if_pos hend] at hne
    exact absurd rfl hne
  · rw [if_neg hend] at hne hmax ⊢
    by_cases hlimit : limited p length ∧ itemEnd p length > dapPacketSize
    · rw [if_pos hlimit] at hmax
      exact absurd rfl hmax
    · rw [if_neg hlimit] at hne ⊢
      by_cases hshort : p.length < itemEnd p length
      · rw [if_pos hshort] at hne
        exact absurd rfl hne
      · exact ⟨by omega, fun hl => not_lt.mp fun hlong => hlimit ⟨hl, hlong⟩, by omega,
          if_neg hshort⟩

theorem bounds (hne : size p items length ≠ 0) (hmax : size p items length ≠ sizeMax) :
    length ≤ size p items length ∧ (length ≤ p.length → size p items length ≤ p.length) := by
  induction items generalizing length with
  | zero =>
    rw [hf.zero]
    exact ⟨le_rfl, fun h => h⟩
  | succ items ih =>
    obtain ⟨-, -, hend, heq⟩ := hf.step hne hmax
    rw [heq] at hne hmax ⊢
    obtain ⟨hle, hbound⟩ := ih hne hmax
    exact ⟨(hf.lt_end p length).le.trans hle, fun _ => hbound hend⟩

theorem to_isPrefix (h : p <+: b) (hne : size b items length ≠ 0)
    (hmax : size b items length ≠ sizeMax) (hle : size b items length ≤ p.length) :
    size p items length = size b items length := by
  induction items generalizing length with
  | zero => rw [hf.zero, hf.zero]
  | succ items ih =>
    obtain ⟨-, hlimit, -, heq⟩ := hf.step hne hmax
    rw [heq] at hne hmax hle ⊢
    have hend := (hf.bounds hne hmax).1.trans hle
    have hp : length < p.length := (hf.lt_end b length).trans_le hend
    obtain ⟨hitem, hlimited⟩ := hf.congr h hp
    rw [hf.succ, ← hitem, ← hlimited, if_neg (by omega), if_neg, if_neg (by omega)]
    · exact ih hne hmax hle
    · exact fun hl => absurd hl.2 (not_lt.mpr (hlimit hl.1))

end ItemFormat

theorem transferFormat : ItemFormat transferSize itemEnd fun _ _ => true where
  zero _ _ := rfl
  succ request items length := by
    rw [transferSize]
    dsimp only
    unfold itemEnd
    split
    · rfl
    · split
      · rename_i hmax
        have hlong : length + 5 > dapPacketSize := by
          have := hmax.2
          simp only [sizeMax, dapPacketSize] at this ⊢
          omega
        rw [if_pos hmax.1, if_pos ⟨rfl, hlong⟩]
      · simp only [true_and]
  lt_end := lt_itemEnd
  congr h hi := ⟨itemEnd_of_isPrefix h hi, rfl⟩

/-- An item of a sequence command that reads has no bytes, so that only its first byte is
counted. -/
theorem sequenceFormat : ItemFormat sequenceSize sequenceEnd
    fun request length => !hasFlag (byteAt request length) 0x80 where
  zero _ _ := rfl
  succ request items length := by
    rw [sequenceSize]
    dsimp only
    split
    · rfl
    · unfold sequenceEnd
      split
      · rename_i hend hin
        rw [hin, if_neg (fun hl => absurd hl.1 (by decide)), if_neg (by omega)]
      · rename_i hout
        simp only [hout, Bool.not_false, true_and]
  lt_end := lt_sequenceEnd
  congr h hi := ⟨sequenceEnd_of_isPrefix h hi, by rw [byteAt_of_isPrefix h hi]⟩

theorem sizeWhen_of_le {available available' : ℕ} (hle : available ≤ available')
    (hsize : sizeWhen available n ≠ 0) : sizeWhen available' n = sizeWhen available n := by
  unfold sizeWhen at hsize ⊢
  split at hsize
  · rename_i h
    rw [if_pos h, if_pos (h.trans hle)]
  · exact absurd rfl hsize

/-- The size of a request whose command alone tells it. -/
def fixedSize : Option DapCommand → Option ℕ
  | some .info | some .connect | some .swdConfigure => some 2
  | some .hostStatus | some .delay => some 3
  | some .transferConfigure | some .writeAbort => some 6
  | some .swjPins => some 7
  | some .swjClock | some .otaBegin => some 5
  | some .otaWrite | some .swjSequence | some .transferBlock | some .transfer
  | some .swdSequence => none
  | _ => some 1

theorem requestSize_of_fixed (hpos : 0 < p.length)
    (h : fixedSize (DapCommand.ofByte (byteAt p 0)) = some n) :
    requestSize p = sizeWhen p.length n := by
  have hone : sizeWhen p.length 1 = 1 := if_pos hpos
  rw [requestSize, if_neg hpos.ne']
  generalize DapCommand.ofByte (byteAt p 0) = command at h ⊢
  cases command with
  | none =>
    cases h
    exact hone.symm
  | some c => cases c <;> cases h <;> first | rfl | exact hone.symm

section Commands

theorem length_pos_of_command {c : DapCommand} (hc : DapCommand.ofByte (byteAt p 0) = some c)
    (hinfo : c ≠ .info) : 0 < p.length := by
  apply List.length_pos_iff.mpr
  rintro rfl
  exact hinfo (Option.some.inj hc).symm

theorem requestSize_transfer (hc : DapCommand.ofByte (byteAt p 0) = some .transfer) :
    requestSize p = if p.length < 3 then 0 else transferSize p (byteAt p 2).toNat 3 := by
  rw [requestSize, if_neg (length_pos_of_command hc (by decide)).ne', hc]

theorem requestSize_swdSequence (hc : DapCommand.ofByte (byteAt p 0) = some .swdSequence) :
    requestSize p = if p.length < 2 then 0 else sequenceSize p (byteAt p 1).toNat 2 := by
  rw [requestSize, if_neg (length_pos_of_command hc (by decide)).ne', hc]

theorem requestSize_swjSequence (hc : DapCommand.ofByte (byteAt p 0) = some .swjSequence) :
    requestSize p = if p.length < 2 then 0
      else sizeWhen p.length (2 + byteCount (swjSequenceBits (byteAt p 1))) := by
  have hlimit : ¬ 2 + byteCount (swjSequenceBits (byteAt p 1)) > dapPacketSize := by
    have := (byteAt p 1).isLt
    simp only [byteCount, swjSequenceBits, dapPacketSize]
    split <;> omega
  rw [requestSize, if_neg (length_pos_of_command hc (by decide)).ne', hc]
  dsimp only
  rw [if_neg hlimit]

/-- The bytes of a DAP_TransferBlock, from its head. -/
def blockSize (request : List Byte) : ℕ :=
  if hasFlag (byteAt request 4) transferRead then 5 else 5 + (readU16 (request.drop 2)).toNat * 4

theorem blockSize_of_isPrefix (h : p <+: b) (hhead : 5 ≤ p.length) : blockSize b = blockSize p := by
  rw [blockSize, blockSize, byteAt_of_isPrefix h hhead, readU16_of_isPrefix h (by omega)]

theorem requestSize_transferBlock (hc : DapCommand.ofByte (byteAt p 0) = some .transferBlock) :
    requestSize p = if p.length < 5 then 0
      else if blockSize p > dapPacketSize then sizeMax else sizeWhen p.length (blockSize p) := by
  have hcount : ¬ ((!hasFlag (byteAt p 4) transferRead) = true ∧
      (readU16 (p.drop 2)).toNat > (sizeMax - 5) / 4) := by
    have := (readU16 (p.drop 2)).isLt
    simp only [sizeMax]
    omega
  rw [requestSize, if_neg (length_pos_of_command hc (by decide)).ne', hc]
  dsimp only
  rw [if_neg hcount]
  rfl

theorem requestSize_otaWrite (hc : DapCommand.ofByte (byteAt p 0) = some .otaWrite) :
    requestSize p = if p.length < otaWriteHeaderSize then 0
      else if (readU16 (p.drop 5)).toNat > otaMaxWriteSize then sizeMax
      else sizeWhen p.length ((readU16 (p.drop 5)).toNat + otaWriteHeaderSize) := by
  rw [requestSize, if_neg (length_pos_of_command hc (by decide)).ne', hc]

end Commands

/-- A size that is known once the head of the request is there, from its bytes. -/
theorem headed_of_isPrefix {head size size' : ℕ} (hle : p.length ≤ b.length)
    (hsize : (if p.length < head then 0 else size) ≠ 0)
    (heq : head ≤ p.length → size ≠ 0 → size' = size) :
    (if b.length < head then 0 else size') = if p.length < head then 0 else size := by
  split at hsize
  · exact absurd rfl hsize
  · rename_i hhead
    rw [if_neg hhead, if_neg (by omega)]
    exact heq (by omega) hsize

theorem limited_of_le {available available' : ℕ} {c : Prop} [Decidable c]
    (hle : available ≤ available') (hsize : (if c then sizeMax else sizeWhen available n) ≠ 0) :
    (if c then sizeMax else sizeWhen available' n) =
      if c then sizeMax else sizeWhen available n := by
  split at hsize
  · rename_i hc
    rw [if_pos hc, if_pos hc]
  · rename_i hc
    rw [if_neg hc, if_neg hc]
    exact sizeWhen_of_le hle hsize

theorem requestSize_of_isPrefix (h : p <+: b) (hsize : requestSize p ≠ 0) :
    requestSize b = requestSize p := by
  have hle := h.length_le
  have hpos : 0 < p.length := by
    by_contra hzero
    apply hsize
    rw [requestSize, if_pos (by omega)]
  have hfirst : byteAt b 0 = byteAt p 0 := byteAt_of_isPrefix h hpos
  cases hfixed : fixedSize (DapCommand.ofByte (byteAt p 0)) with
  | some n =>
    rw [requestSize_of_fixed hpos hfixed] at hsize ⊢
    rw [requestSize_of_fixed (hpos.trans_le hle) (hfirst ▸ hfixed)]
    exact sizeWhen_of_le hle hsize
  | none =>
    cases hc : DapCommand.ofByte (byteAt p 0) with
    | none =>
      rw [hc] at hfixed
      cases hfixed
    | some c =>
      have hb : DapCommand.ofByte (byteAt b 0) = some c := hfirst ▸ hc
      rw [hc] at hfixed
      cases c with
      | otaWrite =>
        rw [requestSize_otaWrite hc] at hsize ⊢
        rw [requestSize_otaWrite hb]
        refine headed_of_isPrefix hle hsize fun hhead hsize => ?_
        rw [readU16_of_isPrefix h hhead]
        exact limited_of_le hle hsize
      | swjSequence =>
        rw [requestSize_swjSequence hc] at hsize ⊢
        rw [requestSize_swjSequence hb]
        refine headed_of_isPrefix hle hsize fun hhead hsize => ?_
        rw [byteAt_of_isPrefix h hhead]
        exact sizeWhen_of_le hle hsize
      | transferBlock =>
        rw [requestSize_transferBlock hc] at hsize ⊢
        rw [requestSize_transferBlock hb]
        refine headed_of_isPrefix hle hsize fun hhead hsize => ?_
        rw [blockSize_of_isPrefix h hhead]
        exact limited_of_le hle hsize
      | transfer =>
        rw [requestSize_transfer hc] at hsize ⊢
        rw [requestSize_transfer hb]
        refine headed_of_isPrefix hle hsize fun hhead hsize => ?_
        rw [byteAt_of_isPrefix h hhead]
        exact transferFormat.of_isPrefix h hsize
      | swdSequence =>
        rw [requestSize_swdSequence hc] at hsize ⊢
        rw [requestSize_swdSequence hb]
        refine headed_of_isPrefix hle hsize fun hhead hsize => ?_
        rw [byteAt_of_isPrefix h hhead]
        exact sequenceFormat.of_isPrefix h hsize
      | _ => cases hfixed

theorem sizeWhen_bounds {available : ℕ} (hne : sizeWhen available n ≠ 0) :
    sizeWhen available n = n ∧ n ≤ available := by
  unfold sizeWhen at hne ⊢
  split at hne
  · rename_i h
    exact ⟨if_pos h, h⟩
  · exact absurd rfl hne

/-- What is known of a request with a size: how its size is computed from its bytes. -/
inductive Framed (request : List Byte) : ℕ → Prop
  | fixed {n : ℕ} (hsize : fixedSize (DapCommand.ofByte (byteAt request 0)) = some n)
      (hle : n ≤ request.length) : Framed request n
  | otaWrite (hc : DapCommand.ofByte (byteAt request 0) = some .otaWrite)
      (hmax : (readU16 (request.drop 5)).toNat ≤ otaMaxWriteSize)
      (hle : (readU16 (request.drop 5)).toNat + otaWriteHeaderSize ≤ request.length) :
      Framed request ((readU16 (request.drop 5)).toNat + otaWriteHeaderSize)
  | swjSequence (hc : DapCommand.ofByte (byteAt request 0) = some .swjSequence)
      (hle : 2 + byteCount (swjSequenceBits (byteAt request 1)) ≤ request.length) :
      Framed request (2 + byteCount (swjSequenceBits (byteAt request 1)))
  | transferBlock (hc : DapCommand.ofByte (byteAt request 0) = some .transferBlock)
      (hlimit : blockSize request ≤ dapPacketSize) (hle : blockSize request ≤ request.length) :
      Framed request (blockSize request)
  | transfer (hc : DapCommand.ofByte (byteAt request 0) = some .transfer)
      (hhead : 3 ≤ transferSize request (byteAt request 2).toNat 3)
      (hmax : transferSize request (byteAt request 2).toNat 3 ≠ sizeMax)
      (hle : transferSize request (byteAt request 2).toNat 3 ≤ request.length) :
      Framed request (transferSize request (byteAt request 2).toNat 3)
  | swdSequence (hc : DapCommand.ofByte (byteAt request 0) = some .swdSequence)
      (hhead : 2 ≤ sequenceSize request (byteAt request 1).toNat 2)
      (hmax : sequenceSize request (byteAt request 1).toNat 2 ≠ sizeMax)
      (hle : sequenceSize request (byteAt request 1).toNat 2 ≤ request.length) :
      Framed request (sequenceSize request (byteAt request 1).toNat 2)

theorem headed_ne_zero {head size : ℕ} (hne : (if p.length < head then 0 else size) ≠ 0) :
    head ≤ p.length ∧ (if p.length < head then 0 else size) = size := by
  split at hne
  · exact absurd rfl hne
  · rename_i h
    exact ⟨by omega, if_neg h⟩

theorem framed_of_requestSize (hne : requestSize p ≠ 0) (hmax : requestSize p ≠ sizeMax) :
    Framed p (requestSize p) := by
  have hpos : 0 < p.length := by
    by_contra hzero
    apply hne
    rw [requestSize, if_pos (by omega)]
  cases hfixed : fixedSize (DapCommand.ofByte (byteAt p 0)) with
  | some n =>
    rw [requestSize_of_fixed hpos hfixed] at hne ⊢
    obtain ⟨heq, hle⟩ := sizeWhen_bounds hne
    rw [heq]
    exact .fixed hfixed hle
  | none =>
    cases hc : DapCommand.ofByte (byteAt p 0) with
    | none =>
      rw [hc] at hfixed
      cases hfixed
    | some c =>
      rw [hc] at hfixed
      cases c with
      | otaWrite =>
        rw [requestSize_otaWrite hc] at hne hmax ⊢
        obtain ⟨hhead, heq⟩ := headed_ne_zero hne
        rw [heq] at hne hmax ⊢
        split at hne
        · rename_i hlong
          rw [if_pos hlong] at hmax
          exact absurd rfl hmax
        · rename_i hlong
          obtain ⟨heq, hle⟩ := sizeWhen_bounds hne
          rw [if_neg hlong, heq]
          exact .otaWrite hc (by omega) hle
      | swjSequence =>
        rw [requestSize_swjSequence hc] at hne ⊢
        obtain ⟨hhead, heq⟩ := headed_ne_zero hne
        rw [heq] at hne ⊢
        obtain ⟨heq, hle⟩ := sizeWhen_bounds hne
        rw [heq]
        exact .swjSequence hc hle
      | transferBlock =>
        rw [requestSize_transferBlock hc] at hne hmax ⊢
        obtain ⟨hhead, heq⟩ := headed_ne_zero hne
        rw [heq] at hne hmax ⊢
        split at hne
        · rename_i hlong
          rw [if_pos hlong] at hmax
          exact absurd rfl hmax
        · rename_i hlong
          obtain ⟨heq, hle⟩ := sizeWhen_bounds hne
          rw [if_neg hlong, heq]
          exact .transferBlock hc (by omega) hle
      | transfer =>
        rw [requestSize_transfer hc] at hne hmax ⊢
        obtain ⟨hhead, heq⟩ := headed_ne_zero hne
        rw [heq] at hne hmax ⊢
        obtain ⟨hbegin, hend⟩ := transferFormat.bounds hne hmax
        exact .transfer hc hbegin hmax (hend hhead)
      | swdSequence =>
        rw [requestSize_swdSequence hc] at hne hmax ⊢
        obtain ⟨hhead, heq⟩ := headed_ne_zero hne
        rw [heq] at hne hmax ⊢
        obtain ⟨hbegin, hend⟩ := sequenceFormat.bounds hne hmax
        exact .swdSequence hc hbegin hmax (hend hhead)
      | _ => cases hfixed

theorem Framed.length_le (h : Framed b n) : n ≤ b.length := by
  cases h <;> assumption

theorem Framed.pos (h : Framed b n) : 0 < n := by
  cases h with
  | @fixed _ hsize hle =>
    generalize DapCommand.ofByte (byteAt b 0) = command at hsize
    cases command with
    | none =>
      cases hsize
      exact Nat.one_pos
    | some c => cases c <;> cases hsize <;> decide
  | otaWrite => exact Nat.add_pos_right _ (by decide)
  | swjSequence => omega
  | transferBlock hc hlimit hle =>
    unfold blockSize
    split <;> omega
  | transfer hc hhead hmax hle => omega
  | swdSequence hc hhead hmax hle => omega

theorem Framed.requestSize_eq (h : Framed b n) : requestSize b = n := by
  have hpos := h.pos.trans_le h.length_le
  cases h with
  | fixed hsize hle => rw [requestSize_of_fixed hpos hsize, sizeWhen, if_pos hle]
  | otaWrite hc hmax hle =>
    rw [requestSize_otaWrite hc, if_neg (by omega), if_neg (by omega), sizeWhen, if_pos hle]
  | swjSequence hc hle => rw [requestSize_swjSequence hc, if_neg (by omega), sizeWhen, if_pos hle]
  | transferBlock hc hlimit hle =>
    have hhead : 5 ≤ blockSize b := by
      unfold blockSize
      split <;> omega
    rw [requestSize_transferBlock hc, if_neg (by omega), if_neg (by omega), sizeWhen, if_pos hle]
  | transfer hc hhead hmax hle => rw [requestSize_transfer hc, if_neg (by omega)]
  | swdSequence hc hhead hmax hle => rw [requestSize_swdSequence hc, if_neg (by omega)]

theorem Framed.of_prefix (hf : Framed b n) (h : p <+: b) (hn : n ≤ p.length) : Framed p n := by
  have hpos := hf.pos.trans_le hn
  have hfirst : byteAt b 0 = byteAt p 0 := byteAt_of_isPrefix h hpos
  cases hf with
  | fixed hsize hle => exact .fixed (hfirst ▸ hsize) hn
  | otaWrite hc hmax hle =>
    have hhead : 5 + 2 ≤ p.length := by
      simp only [otaWriteHeaderSize] at hn
      omega
    rw [readU16_of_isPrefix h hhead] at hmax hn ⊢
    exact .otaWrite (hfirst ▸ hc) hmax hn
  | swjSequence hc hle =>
    rw [byteAt_of_isPrefix h (by omega)] at hn ⊢
    exact .swjSequence (hfirst ▸ hc) hn
  | transferBlock hc hlimit hle =>
    have hhead : 5 ≤ blockSize b := by
      unfold blockSize
      split <;> omega
    have hp := hhead.trans hn
    rw [blockSize_of_isPrefix h hp] at hlimit hn ⊢
    exact .transferBlock (hfirst ▸ hc) hlimit hn
  | transfer hc hhead hmax hle =>
    have hp := hhead.trans hn
    rw [byteAt_of_isPrefix h hp] at hhead hmax hn ⊢
    have heq := transferFormat.to_isPrefix h (by omega) hmax hn
    rw [← heq] at hhead hmax hn ⊢
    exact .transfer (hfirst ▸ hc) hhead hmax hn
  | swdSequence hc hhead hmax hle =>
    have hp := hhead.trans hn
    rw [byteAt_of_isPrefix h hp] at hhead hmax hn ⊢
    have heq := sequenceFormat.to_isPrefix h (by omega) hmax hn
    rw [← heq] at hhead hmax hn ⊢
    exact .swdSequence (hfirst ▸ hc) hhead hmax hn

end Size
end AirDap

import AirDap.Swd.Engine

/-! What a transfer does to the line when no call of a driver fails. -/
namespace AirDap
open Concurrency

namespace Swd

/-- A call that succeeded: the direction pin is set, bits are sent, or bits are seen. -/
inductive LineEvent where
  | direction (output : Bool)
  | sent (bits : List Bool)
  | seen (bits : List Bool)
  deriving DecidableEq, Repr

/-- The call with its answer. -/
def LineEvent.event : LineEvent → Sigma WireCall.Answer
  | .direction output => ⟨.setDirection output, none⟩
  | .sent bits => ⟨.transmit bits, none⟩
  | .seen bits => ⟨.receive bits.length, .ok ⟨bits.toArray, List.size_toArray⟩⟩

/-- The line in a world that takes a step with each call that succeeds. -/
def lineExec {W : Type} (step : W → LineEvent → W → Prop) (w : W) (c : WireCall) (r : c.Answer)
    (w' : W) : Prop :=
  ∃ line : LineEvent, line.event = ⟨c, r⟩ ∧ step w line w'

/-- The steps of a world for a list of calls. -/
def Path {W : Type} (step : W → LineEvent → W → Prop) : W → List LineEvent → W → Prop
  | w, [], w' => w' = w
  | w, line :: lines, w' => ∃ w₁, step w line w₁ ∧ Path step w₁ lines w'

theorem path_append {W : Type} {step : W → LineEvent → W → Prop} {w w' : W}
    {first rest : List LineEvent} :
    Path step w (first ++ rest) w' ↔ ∃ w₁, Path step w first w₁ ∧ Path step w₁ rest w' := by
  induction first generalizing w with
  | nil =>
    constructor
    · exact fun h => ⟨w, rfl, h⟩
    · rintro ⟨_, rfl, h⟩
      exact h
  | cons line first ih =>
    constructor
    · rintro ⟨w₁, hstep, h⟩
      obtain ⟨w₂, hfirst, hrest⟩ := ih.mp h
      exact ⟨w₂, ⟨w₁, hstep, hfirst⟩, hrest⟩
    · rintro ⟨w₂, ⟨w₁, hstep, hfirst⟩, hrest⟩
      exact ⟨w₁, hstep, ih.mpr ⟨w₂, hfirst, hrest⟩⟩

/-- Whatever is seen, the program comes to its end, with a result and lines that `φ` holds of. -/
def Lined {α : Type} : (α → List LineEvent → Prop) → SwdCode α → Prop
  | φ, .ret v => φ v []
  | φ, .act c k => ∀ line r, line.event = ⟨c, r⟩ → Lined (fun v rest => φ v (line :: rest)) (k r)
  | _, .spent => False

section Lined

variable {α β : Type} {p : SwdCode α} {f : α → SwdCode β} {φ : α → List LineEvent → Prop}
  {ψ : β → List LineEvent → Prop}

theorem Lined.bind (hp : Lined φ p)
    (hf : ∀ v first, φ v first → Lined (fun u rest => ψ u (first ++ rest)) (f v)) :
    Lined ψ (p >>= f) := by
  induction p generalizing φ ψ with
  | ret v => exact hf v [] hp
  | act c k ih =>
    exact fun line r hevent => ih r (hp line r hevent) fun v first => hf v (line :: first)
  | spent => exact hp

theorem Lined.then {x : α} {first : List LineEvent}
    (hp : Lined (fun v lines => v = x ∧ lines = first) p)
    (hf : Lined (fun u rest => ψ u (first ++ rest)) (f x)) : Lined ψ (p >>= f) := by
  refine hp.bind fun v lines h => ?_
  obtain ⟨rfl, rfl⟩ := h
  exact hf

theorem Lined.map {g : α → β} (hp : Lined (fun v lines => ψ (g v) lines) p) :
    Lined ψ (p >>= fun v => pure (g v)) := by
  refine hp.bind fun v lines h => ?_
  rw [← List.append_nil lines] at h
  exact h

theorem Lined.mono {φ' : α → List LineEvent → Prop} (hp : Lined φ p)
    (h : ∀ v lines, φ v lines → φ' v lines) : Lined φ' p := by
  induction p generalizing φ φ' with
  | ret v => exact h v [] hp
  | act c k ih => exact fun line r hevent => ih r (hp line r hevent) fun v rest => h v _
  | spent => exact hp

theorem Lined.settles {W : Type} {step : W → LineEvent → W → Prop} {w : W} (hp : Lined φ p) :
    p.Settles (lineExec step) False (fun v w' => ∃ lines, φ v lines ∧ Path step w lines w') w := by
  induction p generalizing φ w with
  | ret v => exact ⟨[], hp, rfl⟩
  | act c k ih =>
    rintro r w₁ ⟨line, hevent, hstep⟩
    refine (ih r (hp line r hevent)).mono fun v w' h => ?_
    obtain ⟨lines, hlines, hpath⟩ := h
    exact ⟨line :: lines, hlines, w₁, hstep, hpath⟩
  | spent => exact hp

theorem lined_direction {output : Bool} {f : Option Word → SwdCode β}
    (h : Lined (fun u rest => ψ u (.direction output :: rest)) (f none)) :
    Lined ψ (wire (.setDirection output) >>= f) := by
  intro line r hevent
  cases line with
  | direction => cases hevent; exact h
  | sent | seen => cases hevent

theorem lined_transmit {bits : List Bool} {f : Option Word → SwdCode β}
    (h : Lined (fun u rest => ψ u (.sent bits :: rest)) (f none)) :
    Lined ψ (wire (.transmit bits) >>= f) := by
  intro line r hevent
  cases line with
  | sent => cases hevent; exact h
  | direction | seen => cases hevent

theorem lined_receive {count : ℕ} {f : Except Word (Vector Bool count) → SwdCode β}
    (h : ∀ bits : Vector Bool count,
      Lined (fun u rest => ψ u (.seen bits.toList :: rest)) (f (.ok bits))) :
    Lined ψ (wire (.receive count) >>= f) := by
  intro line r hevent
  cases line with
  | seen bits =>
    cases hevent
    have h := h ⟨bits.toArray, List.size_toArray⟩
    exact h
  | direction | sent => cases hevent

end Lined

section Calls

variable {engine : Engine}

theorem setHostOutput_lined {enabled : Bool} :
    Lined (fun r lines => r = (.ok, { engine with hostOutput := enabled }) ∧
      lines = [.direction enabled]) (setHostOutput enabled engine) :=
  lined_direction ⟨rfl, rfl⟩

theorem writeBits_lined (hhost : engine.hostOutput = true) {x : BitVec 64} {n : ℕ} (hn : 0 < n)
    (hle : n ≤ 64) :
    Lined (fun r lines => r = .ok ∧ lines = [.sent (Wire.bits n x)]) (writeBits x n engine) := by
  rw [writeBits, if_neg (by simp [hhost]; omega)]
  exact lined_transmit ⟨rfl, rfl⟩

theorem readBits_lined (hhost : engine.hostOutput = false) {n : ℕ} (hn : 0 < n) (hle : n ≤ 64) :
    Lined (fun r lines => ∃ bs : List Bool, bs.length = n ∧ r = (.ok, Wire.ofBits 64 bs) ∧
      lines = [.seen bs]) (readBits n engine) := by
  rw [readBits, if_neg (by simp [hhost]; omega)]
  exact lined_receive fun bits => ⟨bits.toList, bits.length_toList, rfl, rfl⟩

/-- The clocks of a turnaround that are seen before the ACK; for one cycle there are none. -/
def skipped (ignored : List Bool) : List LineEvent := if ignored = [] then [] else [.seen ignored]

/-- The low clocks of `write_idle_cycles`. -/
def idleLines : ℕ → ℕ → List LineEvent
  | 0, _ => []
  | rounds + 1, remaining =>
    if remaining = 0 then []
    else .sent (List.replicate (idleChunk remaining) false) ::
      idleLines rounds (remaining - idleChunk remaining)

theorem idleChunk_bounds {remaining : ℕ} (h : remaining ≠ 0) :
    0 < idleChunk remaining ∧ idleChunk remaining ≤ 64 := by
  unfold idleChunk
  split_ifs <;> omega

theorem idleLoop_lined (hhost : engine.hostOutput = true) (rounds remaining : ℕ) :
    Lined (fun r lines => r = .ok ∧ lines = idleLines rounds remaining)
      (idleLoop engine rounds remaining) := by
  induction rounds generalizing remaining with
  | zero => exact ⟨rfl, rfl⟩
  | succ rounds ih =>
    rw [idleLoop, idleLines]
    by_cases hzero : remaining = 0
    · rw [if_pos hzero, if_pos hzero]
      exact ⟨rfl, rfl⟩
    · obtain ⟨hpos, hle⟩ := idleChunk_bounds hzero
      rw [if_neg hzero, if_neg hzero]
      refine (writeBits_lined hhost hpos hle).then ?_
      rw [if_neg (by simp), Wire.bits_zero]
      refine (ih _).mono fun r lines h => ?_
      exact ⟨h.1, by rw [h.2]; rfl⟩

/-- The idle cycles after a read: one at least. -/
def closingIdle (engine : Engine) : ℕ :=
  if engine.idleCycles = 0 then 1 else engine.idleCycles.toNat

/-- The end of an attempt in which the target has driven the line. -/
def closing (engine : Engine) (back : List Bool) : List LineEvent :=
  [.seen back, .direction true] ++ idleLines (closingIdle engine) (closingIdle engine)

/-- The data phase of a write and the end of its attempt. -/
def writing (engine : Engine) (back : List Bool) (dataBits : BitVec 64) : List LineEvent :=
  [.seen back, .direction true, .sent (Wire.bits writeFrameBits (dataBits <<< writeGuardBits))] ++
    idleLines (engine.idleCycles.toNat - writeEmbeddedIdleCycles)
      (engine.idleCycles.toNat - writeEmbeddedIdleCycles)

end Calls

/-! An attempt -/

/-- The word of a data phase, and whether its parity bit is right. -/
def receivedWord (bs : List Bool) : Word := (Wire.ofBits 64 bs).setWidth 32

def ParityMatches (bs : List Bool) : Prop :=
  (Wire.ofBits 64 bs).getLsbD 32 = parity32 (receivedWord bs)

instance (bs : List Bool) : Decidable (ParityMatches bs) := inferInstanceAs (Decidable (_ = _))

theorem parityLoop_eq (rounds : ℕ) (value : Word) (parity : Bool) :
    parityLoop rounds value parity = (parity ^^ Wire.parity (Wire.bits rounds value)) := by
  induction rounds generalizing value parity with
  | zero => simp [parityLoop, Wire.bits, Wire.parity]
  | succ rounds ih =>
    rw [parityLoop]
    split_ifs with hzero
    · rw [hzero, Wire.bits_zero, Wire.parity_replicate_false, Bool.xor_false]
    · rw [ih, Nat.add_comm, Wire.bits_add, Wire.parity_append]
      simp [Wire.bits, Wire.parity]

theorem parity32_eq (value : Word) : parity32 value = Wire.parity (Wire.bits 32 value) := by
  rw [parity32, parityLoop_eq, Bool.false_xor]

theorem parityMatches_iff {bs : List Bool} (h : bs.length = dataBitCount) :
    ParityMatches bs ↔ Wire.parity bs = false := by
  have hlast : 32 < bs.length := by rw [h]; decide
  have hbs : bs = bs.take 32 ++ [bs[32]] := by
    rw [List.take_append_getElem hlast]
    exact (List.take_of_length_le (by rw [h]; decide)).symm
  have hword : Wire.bits 32 (receivedWord bs) = bs.take 32 := by
    have htake : (bs ++ List.replicate 32 false).take 32 = bs.take 32 :=
      List.take_append_of_le_length hlast.le
    rw [← htake, ← Wire.bits_ofBits bs (show 32 ≤ 64 by decide)]
    simp only [Wire.bits, receivedWord]
    refine List.map_congr_left fun i hi => ?_
    rw [BitVec.getLsbD_setWidth, decide_eq_true (List.mem_range.mp hi), Bool.true_and]
  have hparity : (Wire.ofBits 64 bs).getLsbD 32 = bs[32] := by
    rw [Wire.getLsbD_ofBits]
    simp [hlast]
  have hall : Wire.parity bs = (Wire.parity (bs.take 32) ^^ bs[32]) := by
    conv_lhs => rw [hbs]
    rw [Wire.parity_append]
    simp [Wire.parity]
  rw [ParityMatches, parity32_eq, hword, hparity, hall]
  cases bs[32] <;> cases Wire.parity (bs.take 32) <;> decide

/-- The word of a write with its parity. -/
def sentBits (data : Word) : BitVec 64 :=
  data.setWidth 64 ||| BitVec.ofNat 64 (parity32 data).toNat <<< 32

/-- The lines after the ACK, and what the attempt returns. `engine` is the one that drives the
line. -/
inductive AfterAck (engine : Engine) (request : Request) (data : Word) (ack : Byte) :
    List LineEvent → Result → Prop
  | protocolError {bs back : List Bool} (hack : ack ≠ ackOk ∧ ack ≠ ackWait ∧ ack ≠ ackFault)
      (hbs : bs.length = dataBitCount) (hback : back.length = engine.turnaroundCycles.toNat) :
      AfterAck engine request data ack (.seen bs :: closing engine back)
        ⟨.invalidResponse, data, ack, engine⟩
  | refused {back : List Bool} (hack : ack = ackWait ∨ ack = ackFault)
      (hphase : engine.dataPhase = false) (hback : back.length = engine.turnaroundCycles.toNat) :
      AfterAck engine request data ack (closing engine back) ⟨.ok, data, ack, engine⟩
  | refusedRead {bs back : List Bool} (hack : ack = ackWait ∨ ack = ackFault)
      (hphase : engine.dataPhase = true) (hread : request.direction = .read)
      (hbs : bs.length = dataBitCount) (hback : back.length = engine.turnaroundCycles.toNat) :
      AfterAck engine request data ack (.seen bs :: closing engine back) ⟨.ok, data, ack, engine⟩
  | refusedWrite {back : List Bool} (hack : ack = ackWait ∨ ack = ackFault)
      (hphase : engine.dataPhase = true) (hwrite : request.direction = .write)
      (hback : back.length = engine.turnaroundCycles.toNat) :
      AfterAck engine request data ack (writing engine back 0) ⟨.ok, data, ack, engine⟩
  | read {bs back : List Bool} (hack : ack = ackOk) (hread : request.direction = .read)
      (hbs : bs.length = dataBitCount) (hback : back.length = engine.turnaroundCycles.toNat) :
      AfterAck engine request data ack (.seen bs :: closing engine back)
        ⟨if ParityMatches bs then .ok else .invalidCrc,
          if ParityMatches bs then receivedWord bs else data, ack, engine⟩
  | write {back : List Bool} (hack : ack = ackOk) (hwrite : request.direction = .write)
      (hback : back.length = engine.turnaroundCycles.toNat) :
      AfterAck engine request data ack (writing engine back (sentBits data))
        ⟨.ok, data, ack, engine⟩

/-- The engine that drives the line, and has a turnaround that one transaction can clock. -/
structure Engine.Driving (engine : Engine) : Prop where
  host : engine.hostOutput = true
  pos : 0 < engine.turnaroundCycles.toNat
  le : engine.turnaroundCycles.toNat ≤ 64

section Attempt

variable {engine : Engine} {request : Request} {data : Word} {ack : Byte}

theorem ack_cases (hack : ¬ (ack ≠ ackOk ∧ ack ≠ ackWait ∧ ack ≠ ackFault)) (hok : ack ≠ ackOk) :
    ack = ackWait ∨ ack = ackFault := by
  by_contra h
  rw [not_or] at h
  exact hack ⟨hok, h.1, h.2⟩

theorem direction_write (h : ¬ request.direction = .read) : request.direction = .write := by
  cases hdirection : request.direction with
  | write => rfl
  | read => exact absurd hdirection h

variable (h : engine.Driving)

include h

theorem turnaround_target_lined :
    Lined (fun r lines => ∃ ignored : List Bool,
      ignored.length = engine.turnaroundCycles.toNat - 1 ∧
        r = (.ok, { engine with hostOutput := false }) ∧
        lines = .direction false :: skipped ignored) (turnaround false engine) := by
  rw [turnaround, if_neg (by decide), if_neg (by simp [h.host])]
  refine setHostOutput_lined.then ?_
  dsimp only
  rw [if_neg (by simp)]
  by_cases hone : engine.turnaroundCycles = 1
  · rw [if_pos hone]
    exact ⟨[], by rw [hone]; rfl, rfl, rfl⟩
  · have hmore : 0 < engine.turnaroundCycles.toNat - 1 := by
      have hne : engine.turnaroundCycles.toNat ≠ 1 := fun h => hone (BitVec.eq_of_toNat_eq h)
      have := h.pos
      omega
    have := h.le
    rw [if_neg hone]
    refine (readBits_lined rfl hmore (by omega)).bind fun r lines hread => ?_
    obtain ⟨ignored, hlength, rfl, rfl⟩ := hread
    refine ⟨ignored, hlength, rfl, ?_⟩
    rw [skipped, if_neg (by rintro rfl; simp at hlength; omega)]
    rfl

theorem turnaround_host_lined :
    Lined (fun r lines => ∃ back : List Bool, back.length = engine.turnaroundCycles.toNat ∧
      r = (.ok, engine) ∧ lines = [.seen back, .direction true])
      (turnaround true { engine with hostOutput := false }) := by
  rw [turnaround, if_pos rfl, if_neg (by simp)]
  refine (readBits_lined rfl h.pos h.le).bind fun r lines hread => ?_
  obtain ⟨back, hlength, rfl, rfl⟩ := hread
  dsimp only
  rw [if_neg (by simp)]
  refine setHostOutput_lined.mono fun r lines hset => ?_
  obtain ⟨rfl, rfl⟩ := hset
  exact ⟨back, hlength, by rw [← h.host], rfl⟩

theorem restoreHostAndIdle_lined :
    Lined (fun r lines => ∃ back : List Bool, back.length = engine.turnaroundCycles.toNat ∧
      r = (.ok, engine) ∧ lines = closing engine back)
      (restoreHostAndIdle { engine with hostOutput := false }) := by
  refine (turnaround_host_lined h).bind fun r lines hturn => ?_
  obtain ⟨back, hback, rfl, rfl⟩ := hturn
  dsimp only
  rw [if_neg (by simp)]
  refine ((idleLoop_lined h.host _ _).mono fun r lines hidle => ?_).map
  obtain ⟨rfl, rfl⟩ := hidle
  exact ⟨back, hback, rfl, rfl⟩

theorem skipDataPhase_lined :
    Lined (fun r lines => ∃ bs back : List Bool, bs.length = dataBitCount ∧
      back.length = engine.turnaroundCycles.toNat ∧ r = (.ok, engine) ∧
      lines = .seen bs :: closing engine back)
      (skipDataPhase { engine with hostOutput := false }) := by
  refine (readBits_lined rfl (by decide) (by decide)).bind fun r lines hread => ?_
  obtain ⟨bs, hbs, rfl, rfl⟩ := hread
  dsimp only
  rw [if_neg (by simp)]
  refine (restoreHostAndIdle_lined h).mono fun r lines hrestore => ?_
  obtain ⟨back, hback, rfl, rfl⟩ := hrestore
  exact ⟨bs, back, hbs, hback, rfl, rfl⟩

theorem writePhase_lined (dataBits : BitVec 64) :
    Lined (fun r lines => ∃ back : List Bool, back.length = engine.turnaroundCycles.toNat ∧
      r = (.ok, engine) ∧ lines = writing engine back dataBits)
      (writePhase dataBits { engine with hostOutput := false }) := by
  refine (turnaround_host_lined h).bind fun r lines hturn => ?_
  obtain ⟨back, hback, rfl, rfl⟩ := hturn
  dsimp only
  rw [if_neg (by simp), writeDataPhaseAndIdle, Prog.bind_assoc]
  refine (writeBits_lined h.host (by decide) (by decide)).then ?_
  rw [if_neg (by simp)]
  refine ((idleLoop_lined h.host _ _).mono fun r lines hidle => ?_).map
  obtain ⟨rfl, rfl⟩ := hidle
  exact ⟨back, hback, rfl, rfl⟩

theorem readPhase_lined (hread : request.direction = .read) (hok : ack = ackOk) :
    Lined (fun r lines => AfterAck engine request data ack lines r)
      (readPhase data ack { engine with hostOutput := false }) := by
  refine (readBits_lined rfl (by decide) (by decide)).bind fun r lines hbits => ?_
  obtain ⟨bs, hbs, rfl, rfl⟩ := hbits
  dsimp only
  rw [if_neg (by simp)]
  refine (restoreHostAndIdle_lined h).bind fun r lines hrestore => ?_
  obtain ⟨back, hback, rfl, rfl⟩ := hrestore
  dsimp only
  rw [if_neg (by simp)]
  have hafter : AfterAck engine request data ack _ _ := .read hok hread hbs hback
  rw [← List.append_nil (_ :: _)] at hafter
  change Lined _ (if ¬ ParityMatches bs then _ else _)
  by_cases hparity : ParityMatches bs
  · rw [if_pos hparity, if_pos hparity] at hafter
    rw [if_neg (not_not.mpr hparity)]
    exact hafter
  · rw [if_neg hparity, if_neg hparity] at hafter
    rw [if_pos hparity]
    exact hafter

theorem completeErrorDataPhase_lined (data : Word) (hack : ack = ackWait ∨ ack = ackFault) :
    Lined (fun r lines => r = (.ok, engine) ∧
      AfterAck engine request data ack lines ⟨.ok, data, ack, engine⟩)
      (completeErrorDataPhase request { engine with hostOutput := false }) := by
  unfold completeErrorDataPhase
  by_cases hphase : engine.dataPhase = false
  · rw [if_pos (by simp [hphase])]
    refine (restoreHostAndIdle_lined h).mono fun r lines hend => ?_
    obtain ⟨back, hback, rfl, rfl⟩ := hend
    exact ⟨rfl, .refused hack hphase hback⟩
  · rw [if_neg (by simp [hphase])]
    rw [Bool.not_eq_false] at hphase
    by_cases hread : request.direction = .read
    · rw [if_pos hread]
      refine (skipDataPhase_lined h).mono fun r lines hend => ?_
      obtain ⟨bs, back, hbs, hback, rfl, rfl⟩ := hend
      exact ⟨rfl, .refusedRead hack hphase hread hbs hback⟩
    · rw [if_neg hread]
      refine (writePhase_lined h 0).mono fun r lines hend => ?_
      obtain ⟨back, hback, rfl, rfl⟩ := hend
      exact ⟨rfl, .refusedWrite hack hphase (direction_write hread) hback⟩

theorem afterAck_lined :
    Lined (fun r lines => AfterAck engine request data ack lines r)
      (afterAck request data ack { engine with hostOutput := false }) := by
  unfold afterAck
  by_cases hack : ack ≠ ackOk ∧ ack ≠ ackWait ∧ ack ≠ ackFault
  · rw [if_pos hack]
    refine ((skipDataPhase_lined h).mono fun r lines hskip => ?_).map
    obtain ⟨bs, back, hbs, hback, rfl, rfl⟩ := hskip
    exact .protocolError hack hbs hback
  rw [if_neg hack]
  by_cases hok : ack = ackOk
  · rw [if_neg (not_not.mpr hok)]
    by_cases hread : request.direction = .read
    · rw [if_pos hread]
      exact readPhase_lined h hread hok
    · rw [if_neg hread]
      refine ((writePhase_lined h _).mono fun r lines hwrite => ?_).map
      obtain ⟨back, hback, rfl, rfl⟩ := hwrite
      exact .write hok (direction_write hread) hback
  · rw [if_pos hok]
    refine .map (.mono (completeErrorDataPhase_lined h data (ack_cases hack hok))
      fun r lines hend => ?_)
    obtain ⟨rfl, hafter⟩ := hend
    exact hafter

def sentRequest (request : Request) : List Bool :=
  Wire.bits requestBitCount ((encodeRequest request).setWidth 64)

/-- The request, the turnaround and the ACK. -/
def opening (request : Request) (ignored ackBits : List Bool) : List LineEvent :=
  .sent (sentRequest request) :: .direction false :: skipped ignored ++ [.seen ackBits]

def ackOf (ackBits : List Bool) : Byte := (Wire.ofBits 64 ackBits).setWidth 8

/-- The lines of a whole attempt, and what it returns. -/
inductive Attempt (engine : Engine) (request : Request) (data : Word) :
    List LineEvent → Result → Prop
  | mk {ignored ackBits : List Bool} {rest : List LineEvent} {r : Result}
      (hignored : ignored.length = engine.turnaroundCycles.toNat - 1)
      (hack : ackBits.length = ackBitCount)
      (hafter : AfterAck engine request data (ackOf ackBits) rest r) :
      Attempt engine request data (opening request ignored ackBits ++ rest) r

theorem transferAttempt_lined :
    Lined (fun r lines => Attempt engine request data lines r)
      (transferAttempt request data ack engine) := by
  refine (writeBits_lined h.host (by decide) (by decide)).then ?_
  rw [if_neg (by simp)]
  refine (turnaround_target_lined h).bind fun r lines hturn => ?_
  obtain ⟨ignored, hignored, rfl, rfl⟩ := hturn
  dsimp only
  rw [if_neg (by simp)]
  refine (readBits_lined rfl (by decide) (by decide)).bind fun r lines hread => ?_
  obtain ⟨ackBits, hackBits, rfl, rfl⟩ := hread
  dsimp only
  rw [if_neg (by simp)]
  refine (afterAck_lined h).mono fun r lines hafter => ?_
  have hattempt := Attempt.mk hignored hackBits hafter
  rw [opening, sentRequest] at hattempt
  simpa using hattempt

end Attempt

end Swd
end AirDap

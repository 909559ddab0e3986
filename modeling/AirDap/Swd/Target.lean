import AirDap.Swd.Retries

/-! A target at the other end of the line, and what a transfer delivers to it. -/
namespace AirDap
open Concurrency

namespace Swd

/-! The target -/

/-- The ACK of the target, and its word for a read with the parity bit it sends. -/
structure TargetAnswer where
  ack : BitVec 3
  word : Word
  parity : Bool
  deriving DecidableEq, Repr

def TargetAnswer.data (answer : TargetAnswer) : List Bool :=
  Wire.bits 32 answer.word ++ [answer.parity]

/-- What the target does with a clock after the request. -/
inductive TargetClock where
  | ignore
  | drive (bit : Bool)
  | take
  deriving DecidableEq, Repr

def TargetClock.drives : TargetClock → Bool
  | .drive _ => true
  | .ignore | .take => false

/-- A transaction that the target has served: the bits of the request, the answer, the bits taken
from the host, and how many low clocks of the host followed. -/
structure Transaction where
  request : List Bool
  answer : TargetAnswer
  taken : List Bool
  idle : ℕ
  deriving DecidableEq, Repr

inductive TargetPhase where
  | awaiting (got : List Bool)
  | serving (request : List Bool) (clocks : List TargetClock) (taken : List Bool)
  deriving DecidableEq, Repr

/-- The state of the target; the last transaction is the first in the list, and `clash` tells
whether both sides have driven the line at once. -/
structure TargetState where
  phase : TargetPhase
  served : List Transaction
  clash : Bool
  deriving DecidableEq, Repr

/-- A target with its settings, and its answers to the requests one after the other. Targets
differ in whether they have a data phase for a write they refuse. -/
structure Target where
  turnaround : ℕ
  dataPhase : Bool
  refusedWritePhase : Bool
  answers : ℕ → TargetAnswer

namespace Target

variable (target : Target)

/-- The clocks after the ACK. -/
def ending (read : Bool) (answer : TargetAnswer) : List TargetClock :=
  if answer.ack = 1 then
    if read then answer.data.map .drive ++ List.replicate target.turnaround .ignore
    else List.replicate (target.turnaround + 1) .ignore ++ List.replicate 33 .take
  else if answer.ack = 2 ∨ answer.ack = 4 then
    if read ∧ target.dataPhase then
      answer.data.map .drive ++ List.replicate target.turnaround .ignore
    else if target.dataPhase ∧ target.refusedWritePhase then
      List.replicate (target.turnaround + 34) .ignore
    else List.replicate target.turnaround .ignore
  else List.replicate (33 + target.turnaround) .ignore

/-- The clocks after a request, whose third bit is RnW. -/
def clocks (request : List Bool) (answer : TargetAnswer) : List TargetClock :=
  List.replicate (target.turnaround - 1) .ignore ++ (Wire.bits 3 answer.ack).map .drive ++
    target.ending (request.getD 2 false) answer

/-- A transaction with these clocks to come. -/
def resume (request : List Bool) (clocks : List TargetClock) (taken : List Bool)
    (served : List Transaction) (clash : Bool) : TargetState :=
  match clocks with
  | [] => ⟨.awaiting [], ⟨request, target.answers served.length, taken, 0⟩ :: served, clash⟩
  | _ :: _ => ⟨.serving request clocks taken, served, clash⟩

def countIdle : List Transaction → List Transaction
  | [] => []
  | transaction :: served => { transaction with idle := transaction.idle + 1 } :: served

/-- One clock with the line at `v`, which the host drives or not. -/
def clock (host : Bool) (s : TargetState) (v : Bool) : TargetState :=
  match s.phase with
  | .awaiting got =>
    if got = [] ∧ v = false then
      if host then { s with served := countIdle s.served } else s
    else if got.length = 7 then
      target.resume (got ++ [v]) (target.clocks (got ++ [v]) (target.answers s.served.length)) []
        s.served s.clash
    else { s with phase := .awaiting (got ++ [v]) }
  | .serving request (c :: rest) taken =>
    target.resume request rest (if c = .take then taken ++ [v] else taken) s.served
      (s.clash || (host && c.drives))
  | .serving _ [] _ => s

/-- The bit that the target drives. -/
def driven (s : TargetState) : Option Bool :=
  match s.phase with
  | .serving _ (.drive bit :: _) _ => some bit
  | _ => none

/-- The clocks of a call. Where the host does not drive, it sees the bit of the target, or any
bit while nobody drives. -/
def ClocksTo (host : Bool) : List Bool → TargetState → TargetState → Prop
  | [], s, s' => s' = s
  | v :: vs, s, s' =>
    (host = false → ∀ bit, driven s = some bit → v = bit) ∧
      ClocksTo host vs (target.clock host s v) s'

def step (s : TargetState) : LineEvent → TargetState → Prop
  | .direction _, s' => s' = s
  | .sent bits, s' => target.ClocksTo true bits s s'
  | .seen bits, s' => target.ClocksTo false bits s s'

section Clocks

variable {target} {host : Bool} {request : List Bool} {rest : List TargetClock}
  {taken bs : List Bool}
  {served : List Transaction} {clash : Bool} {s s' : TargetState}

theorem clocksTo_append {as : List Bool} : target.ClocksTo host (as ++ bs) s s' ↔
    ∃ s₁, target.ClocksTo host as s s₁ ∧ target.ClocksTo host bs s₁ s' := by
  induction as generalizing s with
  | nil =>
    constructor
    · exact fun h => ⟨s, rfl, h⟩
    · rintro ⟨_, rfl, h⟩
      exact h
  | cons v as ih =>
    constructor
    · rintro ⟨hv, h⟩
      obtain ⟨s₁, hfirst, hrest⟩ := ih.mp h
      exact ⟨s₁, ⟨hv, hfirst⟩, hrest⟩
    · rintro ⟨s₁, ⟨hv, hfirst⟩, hrest⟩
      exact ⟨hv, ih.mpr ⟨s₁, hfirst, hrest⟩⟩

theorem clock_resume (c : TargetClock) (v : Bool) :
    target.clock host (target.resume request (c :: rest) taken served clash) v =
      target.resume request rest (if c = .take then taken ++ [v] else taken) served
        (clash || (host && c.drives)) := rfl

theorem clocksTo_ignore {n : ℕ} (hn : bs.length = n)
    (h : target.ClocksTo host bs
      (target.resume request (List.replicate n .ignore ++ rest) taken served clash) s') :
    s' = target.resume request rest taken served clash := by
  subst hn
  induction bs with
  | nil => exact h
  | cons v bs ih =>
    obtain ⟨_, h⟩ := h
    rw [List.length_cons, List.replicate_succ, List.cons_append, clock_resume,
      if_neg (by decide), TargetClock.drives, Bool.and_false, Bool.or_false] at h
    exact ih h

theorem clocksTo_drive {ds : List Bool} (hn : bs.length = ds.length)
    (h : target.ClocksTo false bs
      (target.resume request (ds.map .drive ++ rest) taken served clash) s') :
    bs = ds ∧ s' = target.resume request rest taken served clash := by
  induction ds generalizing bs with
  | nil =>
    obtain rfl := List.length_eq_zero_iff.mp hn
    exact ⟨rfl, h⟩
  | cons d ds ih =>
    cases bs with
    | nil => simp at hn
    | cons v bs =>
      obtain ⟨hv, h⟩ := h
      obtain rfl := hv rfl d rfl
      rw [List.map_cons, List.cons_append, clock_resume, if_neg (by simp), Bool.false_and,
        Bool.or_false] at h
      obtain ⟨rfl, hs⟩ := ih (by simpa using hn) h
      exact ⟨rfl, hs⟩

theorem clocksTo_take {n : ℕ} (hn : bs.length = n)
    (h : target.ClocksTo host bs
      (target.resume request (List.replicate n .take ++ rest) taken served clash) s') :
    s' = target.resume request rest (taken ++ bs) served clash := by
  subst hn
  induction bs generalizing taken with
  | nil =>
    rw [List.append_nil]
    exact h
  | cons v bs ih =>
    obtain ⟨_, h⟩ := h
    rw [List.length_cons, List.replicate_succ, List.cons_append, clock_resume, if_pos rfl,
      TargetClock.drives, Bool.and_false, Bool.or_false] at h
    rw [ih h, List.append_assoc]
    rfl

theorem clocksTo_idle {transaction : Transaction} {n : ℕ}
    (h : target.ClocksTo true (List.replicate n false) ⟨.awaiting [], transaction :: served, clash⟩
      s') :
    s' = ⟨.awaiting [], { transaction with idle := transaction.idle + n } :: served, clash⟩ := by
  induction n generalizing transaction with
  | zero => exact h
  | succ n ih => rw [ih h.2, Nat.add_assoc, Nat.add_comm 1 n]

theorem exists_clocksTo_sent (bits : List Bool) (s : TargetState) :
    ∃ s', target.ClocksTo true bits s s' := by
  induction bits generalizing s with
  | nil => exact ⟨s, rfl⟩
  | cons v bits ih =>
    obtain ⟨s', h⟩ := ih (target.clock true s v)
    exact ⟨s', fun h => (by cases h), h⟩

theorem exists_clocksTo_seen (n : ℕ) (s : TargetState) :
    ∃ bits s', bits.length = n ∧ target.ClocksTo false bits s s' := by
  induction n generalizing s with
  | zero => exact ⟨[], s, rfl, rfl⟩
  | succ n ih =>
    obtain ⟨bits, s', hlength, h⟩ := ih (target.clock false s ((driven s).getD false))
    refine ⟨_ :: bits, s', by rw [List.length_cons, hlength], fun _ bit hbit => ?_, h⟩
    rw [hbit, Option.getD_some]

theorem exists_step (s : TargetState) (c : WireCall) :
    ∃ (r : c.Answer) (s' : TargetState), lineExec target.step s c r s' := by
  cases c with
  | setDirection output => exact ⟨none, s, .direction output, rfl, rfl⟩
  | transmit bits =>
    obtain ⟨s', h⟩ := exists_clocksTo_sent bits s
    exact ⟨none, s', .sent bits, rfl, h⟩
  | receive count =>
    obtain ⟨bits, s', rfl, h⟩ := exists_clocksTo_seen count s
    exact ⟨_, s', .seen bits, rfl, h⟩

end Clocks

end Target

/-! An attempt against the target -/

/-- What the target makes of the bits of a request. -/
def decodeRequest : List Bool → Option Request
  | [start, ap, read, a2, a3, parity, stop, park] =>
    if start ∧ parity = (ap ^^ read ^^ a2 ^^ a3) ∧ !stop ∧ park then
      some ⟨if ap then .ap else .dp, if read then .read else .write,
        (if a2 then 4 else 0) ||| (if a3 then 8 else 0)⟩
    else none
  | _ => none

theorem valid_address {request : Request} (h : request.valid = true) :
    request.address = 0 ∨ request.address = 4 ∨ request.address = 8 ∨ request.address = 12 := by
  have hall : ∀ address : Byte, (address ≤ 0x0C && address &&& 0x03 = 0) = true →
      address = 0 ∨ address = 4 ∨ address = 8 ∨ address = 12 := by decide +kernel
  exact hall request.address h

theorem decodeRequest_sent {request : Request} (h : request.valid = true) :
    decodeRequest (sentRequest request) = some request := by
  obtain ⟨port, direction, address⟩ := request
  rcases valid_address h with rfl | rfl | rfl | rfl <;> cases port <;> cases direction <;> decide

/-- The target's view of the request: the bits begin with a start bit, and the third is RnW. -/
theorem sentRequest_eq {request : Request} (h : request.valid = true) :
    ∃ ap a2 a3 parity, sentRequest request =
      [true, ap, decide (request.direction = .read), a2, a3, parity, false, true] := by
  obtain ⟨port, direction, address⟩ := request
  rcases valid_address h with rfl | rfl | rfl | rfl <;> cases port <;> cases direction <;>
    exact ⟨_, _, _, _, rfl⟩

/-- The word and its parity, after the guard bit and before the low clocks of the frame. -/
theorem bits_sentBits (data : Word) :
    Wire.bits writeFrameBits (sentBits data <<< writeGuardBits) =
      [false] ++ (Wire.bits 32 data ++ [Wire.parity (Wire.bits 32 data)]) ++
        List.replicate writeEmbeddedIdleCycles false := by
  have hword : sentBits data = Wire.ofBits 64 (Wire.bits 32 data ++ [parity32 data]) := by
    apply BitVec.eq_of_getLsbD_eq
    intro i hi
    rw [Wire.getLsbD_ofBits, sentBits, BitVec.getLsbD_or, BitVec.getLsbD_setWidth,
      BitVec.getLsbD_shiftLeft, BitVec.getLsbD_ofNat, decide_eq_true hi]
    rcases Nat.lt_trichotomy i 32 with hlt | rfl | hgt
    · simp [hlt, List.getElem?_append, Wire.bits]
    · cases parity32 data <;> simp
    · obtain ⟨j, rfl⟩ := Nat.exists_eq_add_of_lt hgt
      have hparity : (parity32 data).toNat.testBit (j + 1) = false := by
        cases parity32 data <;> simp [Nat.testBit_succ]
      have hj : 32 + j + 1 - 32 = j + 1 := by omega
      rw [hj, hparity, BitVec.getLsbD_of_ge _ _ (by omega)]
      simp
  have hframe : sentBits data <<< writeGuardBits =
      Wire.ofBits 64 ([false] ++ (Wire.bits 32 data ++ [parity32 data])) := by
    rw [hword]
    simp [Wire.ofBits, writeGuardBits]
  rw [hframe, Wire.bits_ofBits _ (by decide), ← parity32_eq, List.take_append]
  have hall : (Wire.bits 32 data ++ [parity32 data]).take 39 =
      Wire.bits 32 data ++ [parity32 data] := List.take_of_length_le (by simp)
  simp [writeFrameBits, writeGuardBits, dataBitCount, writeEmbeddedIdleCycles, hall]


theorem ackOf_bits (ack : BitVec 3) : ackOf (Wire.bits 3 ack) = ack.setWidth 8 := by
  revert ack
  decide

theorem setWidth_ack (ack : BitVec 3) : (ack.setWidth 8 = ackOk ↔ ack = 1) ∧
    (ack.setWidth 8 = ackWait ↔ ack = 2) ∧ (ack.setWidth 8 = ackFault ↔ ack = 4) := by
  revert ack
  decide

theorem receivedWord_data (answer : TargetAnswer) : receivedWord answer.data = answer.word ∧
    (ParityMatches answer.data ↔ answer.parity = Wire.parity (Wire.bits 32 answer.word)) := by
  have hword : receivedWord answer.data = answer.word := by
    apply BitVec.eq_of_getLsbD_eq
    intro i hi
    rw [receivedWord, BitVec.getLsbD_setWidth, Wire.getLsbD_ofBits, TargetAnswer.data]
    simp [hi, show i < 64 by omega, List.getElem?_append, Wire.bits]
  refine ⟨hword, ?_⟩
  rw [ParityMatches, hword, parity32_eq, Wire.getLsbD_ofBits, TargetAnswer.data]
  simp

section Phases

variable {target : Target} {engine : Engine} {request back : List Bool} {taken : List Bool}
  {served : List Transaction} {clash : Bool} {s s' : TargetState}

theorem path_idleLines {transaction : Transaction} {rounds remaining : ℕ} (hle : remaining ≤ rounds)
    (h : Path target.step ⟨.awaiting [], transaction :: served, clash⟩ (idleLines rounds remaining)
      s') :
    ∃ n, remaining ≤ n ∧
      s' = ⟨.awaiting [], { transaction with idle := transaction.idle + n } :: served, clash⟩ := by
  induction rounds generalizing remaining transaction with
  | zero =>
    obtain rfl : remaining = 0 := by omega
    exact ⟨0, le_rfl, h⟩
  | succ rounds ih =>
    rw [idleLines] at h
    split_ifs at h with hzero
    · exact ⟨0, hzero.le, h⟩
    · obtain ⟨s₁, hsent, h⟩ := h
      obtain rfl := Target.clocksTo_idle hsent
      obtain ⟨n, hn, rfl⟩ := ih (by have := idleChunk_bounds hzero; omega) h
      exact ⟨idleChunk remaining + n, by omega, by rw [Nat.add_assoc]⟩

theorem path_skipped {ignored : List Bool} (h : Path target.step s (skipped ignored) s') :
    target.ClocksTo false ignored s s' := by
  rw [skipped] at h
  split_ifs at h with hnil
  · rw [hnil]
    exact h
  · obtain ⟨s₁, hseen, rfl⟩ := h
    exact hseen

variable (hback : back.length = target.turnaround)

include hback

theorem path_closing
    (h : Path target.step
      (target.resume request (List.replicate target.turnaround .ignore) taken served clash)
      (closing engine back) s') :
    ∃ n, engine.idleCycles.toNat ≤ n ∧
      s' = ⟨.awaiting [], ⟨request, target.answers served.length, taken, n⟩ :: served, clash⟩ := by
  obtain ⟨_, hseen, _, rfl, h⟩ := h
  rw [← List.append_nil (List.replicate _ TargetClock.ignore)] at hseen
  obtain rfl := Target.clocksTo_ignore hback hseen
  obtain ⟨n, hn, rfl⟩ := path_idleLines le_rfl h
  have hidle : engine.idleCycles.toNat ≤ closingIdle engine := by
    rw [closingIdle]
    split_ifs with hzero
    · rw [hzero]
      decide
    · exact le_rfl
  exact ⟨0 + n, by omega, rfl⟩

/-- The frame of a write: `first` is what the target does with the guard bit and the data. -/
theorem path_writing {first : List TargetClock} {dataBits : BitVec 64} {bits taken' : List Bool}
    (hframe : Wire.bits writeFrameBits (dataBits <<< writeGuardBits) =
      bits ++ List.replicate writeEmbeddedIdleCycles false)
    (hserve : ∀ s', target.ClocksTo true bits (target.resume request first taken served clash) s' →
      ∃ n, s' = ⟨.awaiting [], ⟨request, target.answers served.length, taken', n⟩ :: served, clash⟩)
    (h : Path target.step
      (target.resume request (List.replicate target.turnaround .ignore ++ first) taken served clash)
      (writing engine back dataBits) s') :
    ∃ n, engine.idleCycles.toNat ≤ n ∧
      s' = ⟨.awaiting [], ⟨request, target.answers served.length, taken', n⟩ :: served, clash⟩ := by
  obtain ⟨_, hseen, _, rfl, _, hsent, h⟩ := h
  obtain rfl := Target.clocksTo_ignore hback hseen
  rw [hframe] at hsent
  obtain ⟨s₁, hbits, hidle⟩ := Target.clocksTo_append.mp hsent
  obtain ⟨m, rfl⟩ := hserve s₁ hbits
  obtain rfl := Target.clocksTo_idle hidle
  obtain ⟨n, hn, rfl⟩ := path_idleLines le_rfl h
  exact ⟨m + writeEmbeddedIdleCycles + n, by omega, rfl⟩

end Phases

/-- What a transaction delivers to the target: the request, the word of a write with even parity,
and at the end the low clocks. -/
structure Delivered (engine : Engine) (request : Request) (data : Word)
    (transaction : Transaction) : Prop where
  decoded : decodeRequest transaction.request = some request
  word : transaction.answer.ack = 1 → request.direction = .write →
    transaction.taken = Wire.bits 32 data ++ [Wire.parity (Wire.bits 32 data)]
  idle : engine.idleCycles.toNat ≤ transaction.idle

/-- What the caller gets for the answer of the target. -/
def outcome (engine : Engine) (request : Request) (data : Word) (answer : TargetAnswer) : Result :=
  if answer.ack = 1 ∧ request.direction = .read then
    if answer.parity = Wire.parity (Wire.bits 32 answer.word) then
      ⟨.ok, answer.word, ackOk, engine⟩
    else ⟨.invalidCrc, data, ackOk, engine⟩
  else if answer.ack = 1 ∨ answer.ack = 2 ∨ answer.ack = 4 then
    ⟨.ok, data, answer.ack.setWidth 8, engine⟩
  else ⟨.invalidResponse, data, answer.ack.setWidth 8, engine⟩

/-- The settings of the two sides are the same. -/
structure Target.Fits (target : Target) (engine : Engine) : Prop where
  turnaround : target.turnaround = engine.turnaroundCycles.toNat
  dataPhase : target.dataPhase = engine.dataPhase

section Attempts

variable {target : Target} {engine : Engine} {request : Request} {data : Word}
  {lines : List LineEvent} {r : Result} {served : List Transaction} {clash : Bool}
  {s' : TargetState}

theorem outcome_invalid {answer : TargetAnswer}
    (h : answer.ack ≠ 1 ∧ answer.ack ≠ 2 ∧ answer.ack ≠ 4) :
    outcome engine request data answer =
      ⟨.invalidResponse, data, answer.ack.setWidth 8, engine⟩ := by
  rw [outcome, if_neg fun hread => h.1 hread.1,
    if_neg (not_or.mpr ⟨h.1, not_or.mpr ⟨h.2.1, h.2.2⟩⟩)]

theorem ne_ok_of_refused {ack : BitVec 3} (h : ack = 2 ∨ ack = 4) : ack ≠ 1 := by
  rcases h with rfl | rfl <;> decide

theorem outcome_refused {answer : TargetAnswer} (h : answer.ack = 2 ∨ answer.ack = 4) :
    outcome engine request data answer = ⟨.ok, data, answer.ack.setWidth 8, engine⟩ := by
  rw [outcome, if_neg fun hread => ne_ok_of_refused h hread.1, if_pos (.inr h)]

theorem outcome_write {answer : TargetAnswer} (hok : answer.ack = 1)
    (hwrite : request.direction = .write) :
    outcome engine request data answer = ⟨.ok, data, answer.ack.setWidth 8, engine⟩ := by
  rw [outcome, if_neg fun hread => by simp [hwrite] at hread, if_pos (.inl hok)]

theorem outcome_read {answer : TargetAnswer} (hok : answer.ack = 1)
    (hread : request.direction = .read) :
    outcome engine request data answer =
      ⟨if ParityMatches answer.data then .ok else .invalidCrc,
        if ParityMatches answer.data then receivedWord answer.data else data,
        answer.ack.setWidth 8, engine⟩ := by
  obtain ⟨hword, hparity⟩ := receivedWord_data answer
  rw [outcome, if_pos (show _ ∧ _ from ⟨hok, hread⟩), hword, (setWidth_ack answer.ack).1.mpr hok]
  by_cases hmatch : ParityMatches answer.data
  · rw [if_pos (hparity.mp hmatch), if_pos hmatch, if_pos hmatch]
  · rw [if_neg (hparity.not.mp hmatch), if_neg hmatch, if_neg hmatch]

theorem path_opening (hvalid : request.valid = true) {ignored ackBits : List Bool}
    (hignored : ignored.length = target.turnaround - 1) (hack : ackBits.length = 3)
    (h : Path target.step ⟨.awaiting [], served, clash⟩ (opening request ignored ackBits) s') :
    ackBits = Wire.bits 3 (target.answers served.length).ack ∧
      s' = target.resume (sentRequest request)
        (target.ending (decide (request.direction = .read)) (target.answers served.length)) []
        served clash := by
  obtain ⟨ap, a2, a3, parity, hsent⟩ := sentRequest_eq hvalid
  obtain ⟨_, hrequest, s₁, rfl, h⟩ := h
  obtain ⟨s₂, hskipped, s₃, hseen, rfl⟩ := path_append.mp h
  have hserve : s₁ = target.resume (sentRequest request)
      (target.clocks (sentRequest request) (target.answers served.length)) [] served clash := by
    rw [hsent] at hrequest ⊢
    exact hrequest.2.2.2.2.2.2.2.2
  have hread : (sentRequest request).getD 2 false = decide (request.direction = .read) := by
    rw [hsent]
    rfl
  rw [hserve, Target.clocks, hread, List.append_assoc] at hskipped
  obtain rfl := Target.clocksTo_ignore hignored (path_skipped hskipped)
  exact Target.clocksTo_drive (by rw [hack, Wire.length_bits]) hseen

/-- One attempt: the target serves one transaction, and the caller gets its answer. -/
theorem attempt_delivers (hvalid : request.valid = true) (hfits : target.Fits engine)
    (h : Attempt engine request data lines r)
    (hpath : Path target.step ⟨.awaiting [], served, clash⟩ lines s') :
    ∃ transaction : Transaction, s' = ⟨.awaiting [], transaction :: served, clash⟩ ∧
      transaction.answer = target.answers served.length ∧
      Delivered engine request data transaction ∧
      r = outcome engine request data (target.answers served.length) := by
  obtain @⟨ignored, ackBits, rest, r, hignored, hack, hafter⟩ := h
  obtain ⟨s₁, hopening, hrest⟩ := path_append.mp hpath
  obtain ⟨rfl, rfl⟩ := path_opening hvalid (by rw [hignored, hfits.turnaround]) hack hopening
  rw [ackOf_bits] at hafter
  generalize hanswer : target.answers served.length = answer at hafter hrest
  obtain ⟨hackOk, hackWait, hackFault⟩ := setWidth_ack answer.ack
  have hturn {back : List Bool} (hback : back.length = engine.turnaroundCycles.toNat) :
      back.length = target.turnaround := by rw [hback, hfits.turnaround]
  -- what is left to show when the target has served the rest of the attempt
  have hdone (taken : List Bool) {s' : TargetState}
      (hserved : ∃ n, engine.idleCycles.toNat ≤ n ∧ s' = ⟨.awaiting [],
        ⟨sentRequest request, target.answers served.length, taken, n⟩ :: served, clash⟩)
      (htaken : answer.ack = 1 → request.direction = .write →
        taken = Wire.bits 32 data ++ [Wire.parity (Wire.bits 32 data)])
      (hr : r = outcome engine request data answer) :
      ∃ transaction : Transaction, s' = ⟨.awaiting [], transaction :: served, clash⟩ ∧
        transaction.answer = answer ∧ Delivered engine request data transaction ∧
        r = outcome engine request data answer := by
    obtain ⟨n, hn, rfl⟩ := hserved
    exact ⟨_, rfl, hanswer, ⟨decodeRequest_sent hvalid, by rw [hanswer]; exact htaken, hn⟩, hr⟩
  cases hafter with
  | @protocolError bs back hinvalid hbs hback =>
    rw [ne_eq, ne_eq, ne_eq, hackOk, hackWait, hackFault] at hinvalid
    obtain ⟨hok, hwait, hfault⟩ := hinvalid
    obtain ⟨s₁, hseen, hrest⟩ := hrest
    rw [Target.ending, if_neg hok, if_neg (not_or.mpr ⟨hwait, hfault⟩), List.replicate_add] at hseen
    obtain rfl := Target.clocksTo_ignore hbs hseen
    exact hdone [] (path_closing (hturn hback) hrest) (fun h => absurd h hok)
      (outcome_invalid ⟨hok, hwait, hfault⟩).symm
  | @refused back hrefused hphase hback =>
    rw [hackWait, hackFault] at hrefused
    have hok := ne_ok_of_refused hrefused
    rw [Target.ending, if_neg hok, if_pos hrefused, hfits.dataPhase, hphase, if_neg (by simp),
      if_neg (by simp)] at hrest
    exact hdone [] (path_closing (hturn hback) hrest) (fun h => absurd h hok)
      (outcome_refused hrefused).symm
  | @refusedRead bs back hrefused hphase hread hbs hback =>
    rw [hackWait, hackFault] at hrefused
    have hok := ne_ok_of_refused hrefused
    obtain ⟨s₁, hseen, hrest⟩ := hrest
    rw [Target.ending, if_neg hok, if_pos hrefused, hfits.dataPhase, hphase,
      if_pos (by simp [hread])] at hseen
    obtain ⟨rfl, rfl⟩ := Target.clocksTo_drive (by rw [hbs]; rfl) hseen
    exact hdone [] (path_closing (hturn hback) hrest) (fun h => absurd h hok)
      (outcome_refused hrefused).symm
  | @refusedWrite back hrefused hphase hwrite hback =>
    rw [hackWait, hackFault] at hrefused
    have hok := ne_ok_of_refused hrefused
    refine hdone [] ?_ (fun h => absurd h hok) (outcome_refused hrefused).symm
    rw [Target.ending, if_neg hok, if_pos hrefused, hfits.dataPhase, hphase,
      if_neg (by simp [hwrite])] at hrest
    have hframe : Wire.bits writeFrameBits ((0 : BitVec 64) <<< writeGuardBits) =
        List.replicate 34 false ++ List.replicate writeEmbeddedIdleCycles false := by decide
    split_ifs at hrest with hlong
    · rw [List.replicate_add] at hrest
      refine path_writing (hturn hback) hframe (fun s' hbits => ⟨0, ?_⟩) hrest
      rw [← List.append_nil (List.replicate 34 TargetClock.ignore)] at hbits
      exact Target.clocksTo_ignore List.length_replicate hbits
    · rw [← List.append_nil (List.replicate _ TargetClock.ignore)] at hrest
      exact path_writing (hturn hback) hframe
        (fun s' hbits => ⟨0 + 34, Target.clocksTo_idle hbits⟩) hrest
  | @read bs back hok hread hbs hback =>
    rw [hackOk] at hok
    obtain ⟨s₁, hseen, hrest⟩ := hrest
    rw [Target.ending, if_pos hok, if_pos (by simp [hread])] at hseen
    obtain ⟨rfl, rfl⟩ := Target.clocksTo_drive (by rw [hbs]; rfl) hseen
    exact hdone [] (path_closing (hturn hback) hrest) (fun _ h => by simp [hread] at h)
      (outcome_read hok hread).symm
  | @write back hok hwrite hback =>
    rw [hackOk] at hok
    refine hdone _ ?_ (fun _ _ => rfl) (outcome_write hok hwrite).symm
    rw [Target.ending, if_pos hok, if_neg (by simp [hwrite]), List.replicate_add,
      List.append_assoc] at hrest
    refine path_writing (hturn hback) (bits_sentBits data) (fun s' hbits => ⟨0, ?_⟩) hrest
    obtain ⟨s₁, hguard, htake⟩ := Target.clocksTo_append.mp hbits
    obtain rfl := Target.clocksTo_ignore (n := 1) rfl hguard
    rw [← List.append_nil (List.replicate 33 TargetClock.take)] at htake
    exact Target.clocksTo_take (by simp) htake

end Attempts

/-! A transfer against the target -/

def idleTarget : TargetState := ⟨.awaiting [], [], false⟩

/-- What a transfer does that makes `n + 1` attempts: the ones before the last were answered with
WAIT, so was the last only if no retry was left, all of them are delivered, and the caller gets
the last answer. -/
structure Attempted (target : Target) (engine : Engine) (request : Request) (data : Word)
    (r : Result) (s : TargetState) (n : ℕ) : Prop where
  limit : n ≤ engine.waitRetries.toNat
  repeated : ∀ i < n, (target.answers i).ack = 2
  last : (target.answers n).ack = 2 → n = engine.waitRetries.toNat
  phase : s.phase = .awaiting []
  clash : s.clash = false
  served : s.served.reverse.map Transaction.answer = (List.range (n + 1)).map target.answers
  delivered : ∀ transaction ∈ s.served, Delivered engine request data transaction
  result : r = outcome { engine with hostOutput := true } request data (target.answers n)

/-- What is to come of a transfer; a request that is not valid leaves the target alone. -/
def Transferred (target : Target) (engine : Engine) (request : Request) (data : Word) (ack : Byte)
    (r : Result) (s : TargetState) : Prop :=
  if request.valid then ∃ n, Attempted target engine request data r s n
  else r = ⟨.invalidArg, data, ack, { engine with hostOutput := true }⟩ ∧ s = idleTarget

section Transfer

variable {target : Target} {engine : Engine} {request : Request} {data : Word} {ack : Byte}

/-- `k` attempts have been answered with WAIT. -/
structure Retried (target : Target) (engine : Engine) (request : Request) (data : Word) (k : ℕ)
    (s : TargetState) : Prop where
  phase : s.phase = .awaiting []
  clash : s.clash = false
  repeated : ∀ i < k, (target.answers i).ack = 2
  served : s.served.reverse.map Transaction.answer = (List.range k).map target.answers
  delivered : ∀ transaction ∈ s.served, Delivered engine request data transaction

theorem outcome_waiting_iff (answer : TargetAnswer) :
    outcome engine request data answer = waiting engine data ↔ answer.ack = 2 := by
  constructor
  · intro h
    have hack : (outcome engine request data answer).ack = answer.ack.setWidth 8 := by
      rw [outcome]
      split_ifs with hread hparity
      · exact ((setWidth_ack answer.ack).1.mpr hread.1).symm
      · exact ((setWidth_ack answer.ack).1.mpr hread.1).symm
      · rfl
      · rfl
    exact (setWidth_ack answer.ack).2.1.mp (by rw [← hack, h]; rfl)
  · intro h
    rw [outcome_refused (.inl h), h]
    rfl

theorem Retried.attempt {k : ℕ} {s s' : TargetState} {lines : List LineEvent} {r : Result}
    (hs : Retried target engine request data k s) (hvalid : request.valid = true)
    (hfits : target.Fits engine)
    (hlines : Attempt { engine with hostOutput := true } request data lines r)
    (hpath : Path target.step s lines s') :
    r = outcome { engine with hostOutput := true } request data (target.answers k) ∧
      ((target.answers k).ack = 2 → Retried target engine request data (k + 1) s') ∧
      (k ≤ engine.waitRetries.toNat → (target.answers k).ack ≠ 2 →
        Attempted target engine request data r s' k) := by
  obtain ⟨_, served, _⟩ := s
  obtain ⟨rfl, rfl, hrepeated, hserved, hdelivered⟩ := hs
  have hfits : target.Fits { engine with hostOutput := true } :=
    ⟨hfits.turnaround, hfits.dataPhase⟩
  obtain ⟨transaction, rfl, hanswer, hnew, rfl⟩ := attempt_delivers hvalid hfits hlines hpath
  have hlength : served.length = k := by simpa using congrArg List.length hserved
  rw [hlength] at hanswer ⊢
  have hserved' : (transaction :: served).reverse.map Transaction.answer =
      (List.range (k + 1)).map target.answers := by
    rw [List.reverse_cons, List.map_append, hserved, List.range_succ, List.map_append,
      List.map_singleton, List.map_singleton, hanswer]
  have hdelivered' : ∀ t ∈ transaction :: served, Delivered engine request data t :=
    List.forall_mem_cons.mpr ⟨⟨hnew.decoded, hnew.word, hnew.idle⟩, hdelivered⟩
  refine ⟨rfl, fun hwait => ⟨rfl, rfl, fun i hi => ?_, hserved', hdelivered'⟩, fun hk hwait => ?_⟩
  · rcases Nat.lt_succ_iff_lt_or_eq.mp hi with hi | rfl
    · exact hrepeated i hi
    · exact hwait
  · exact ⟨hk, hrepeated, fun h => absurd h hwait, rfl, rfl, hserved', hdelivered', rfl⟩

theorem retried_zero : Retried target engine request data 0 idleTarget :=
  ⟨rfl, rfl, fun i h => absurd h (Nat.not_lt_zero i), rfl, by simp [idleTarget]⟩

/-- The attempts of a transfer come to their end with the answer `n` that is not WAIT. -/
theorem Retried.lastAttempt {W : Type} (f : W → TargetState) {n : ℕ}
    (hn : engine.waitRetries = BitVec.allOnes 32 → (target.answers n).ack ≠ 2) :
    LastAttempt { engine with hostOutput := true }
      (fun k w => Retried target engine request data k (f w))
      (if engine.waitRetries = BitVec.allOnes 32 then n + 1
        else engine.waitRetries.toNat + 1) := by
  unfold LastAttempt
  split_ifs with hmax
  · exact fun s hs => hn hmax (hs.repeated n (Nat.lt_succ_self n))
  · rfl

theorem protocolTransfer_transferred (hfits : target.Fits engine)
    (hpos : 0 < engine.turnaroundCycles.toNat) (hle : engine.turnaroundCycles.toNat ≤ 4) {n : ℕ}
    (hn : n < 2 ^ 32) (hend : request.valid = true →
      engine.waitRetries = BitVec.allOnes 32 → (target.answers n).ack ≠ 2)
    {rounds : ℕ} (hrounds : engine.waitRetries.toNat + 2 ≤ rounds) :
    (protocolTransfer rounds request data ack { engine with hostOutput := true }).Settles
      (lineExec target.step) False (Transferred target engine request data ack) idleTarget := by
  cases hvalid : request.valid with
  | false =>
    rw [protocolTransfer, if_pos (by simp [hvalid])]
    change Transferred _ _ _ _ _ _ _
    rw [Transferred, if_neg (by simp [hvalid])]
    exact ⟨rfl, rfl⟩
  | true =>
    have hbound : (if engine.waitRetries = BitVec.allOnes 32 then n + 1
        else engine.waitRetries.toNat + 1) ≤ engine.waitRetries.toNat + 1 := by
      split_ifs with hmax
      · rw [hmax, BitVec.toNat_allOnes]
        omega
      · rfl
    have hdriving : { engine with hostOutput := true }.Driving :=
      ⟨rfl, hpos, show engine.turnaroundCycles.toNat ≤ 64 by omega⟩
    refine protocolTransfer_settles hdriving hvalid (Retried target engine request data)
      (Retried.lastAttempt id (hend hvalid)) ?_ ?_ (hbound.trans_lt hrounds) retried_zero
    · intro k s lines r s' hs hk hlines hpath
      obtain ⟨rfl, hagain, hdone⟩ := hs.attempt hvalid hfits hlines hpath
      by_cases hwait : (target.answers k).ack = 2
      · rw [if_pos ((outcome_waiting_iff _).mpr hwait)]
        exact hagain hwait
      · rw [if_neg ((outcome_waiting_iff _).not.mpr hwait), Transferred, if_pos hvalid]
        exact ⟨k, hdone (Nat.le_of_lt_succ (hk.trans_le hbound)) hwait⟩
    · rintro ⟨_, served, _⟩ ⟨rfl, rfl, hrepeated, hserved, hdelivered⟩
      rw [Transferred, if_pos hvalid]
      refine ⟨engine.waitRetries.toNat, le_rfl, fun i hi => hrepeated i (Nat.lt_succ_of_lt hi),
        fun _ => rfl, rfl, rfl, hserved, hdelivered, ?_⟩
      exact ((outcome_waiting_iff _).mpr (hrepeated _ (Nat.lt_succ_self _))).symm

/-- With the greatest limit a transfer returns only with an answer that is not WAIT. -/
theorem swdTransfer_waits (hinit : engine.initialized = true)
    (hpos : 0 < engine.turnaroundCycles.toNat) (hle : engine.turnaroundCycles.toNat ≤ 4)
    (hvalid : request.valid = true) (hlimit : engine.waitRetries = BitVec.allOnes 32)
    (hfits : target.Fits engine) {Q : Result → TargetState → Prop}
    (hQ : ∀ r s, Q r s → (target.answers (s.served.length - 1)).ack = 2) (rounds : ℕ) :
    ¬ (swdTransfer rounds request data ack engine).Settles (lineExec target.step) False Q
      idleTarget := by
  intro h
  have htaking : Path target.step idleTarget (taking engine) idleTarget := by
    rw [taking]
    split_ifs
    · rfl
    · exact ⟨idleTarget, rfl, rfl⟩
  have hloop := (swdTransfer_settles_iff hinit).mp h idleTarget htaking
  rw [protocolTransfer, if_neg (by simp [hvalid])] at hloop
  have hlimit : { engine with hostOutput := true }.waitRetries = BitVec.allOnes 32 := hlimit
  refine retryLoop_not_settles hlimit
    (I := fun s : TargetState => ∃ served, s = ⟨.awaiting [], served, false⟩) ?_ ⟨[], rfl⟩ hloop
  rintro _ ack ⟨served, rfl⟩
  have hdriving : { engine with hostOutput := true }.Driving :=
    ⟨rfl, hpos, show engine.turnaroundCycles.toNat ≤ 64 by omega⟩
  -- the target answers every call, so the attempt comes to its end
  have hattempt : (transferAttempt request data ack { engine with hostOutput := true }).Settles
      (lineExec target.step) False _ ⟨.awaiting [], served, false⟩ :=
    (transferAttempt_lined hdriving).settles
  obtain ⟨r, s', hrun⟩ := hattempt.returns Target.exists_step
  obtain ⟨lines, hlines, hpath⟩ := hattempt.runs hrun
  refine ⟨r, s', hrun, ?_⟩
  have hfits : target.Fits { engine with hostOutput := true } :=
    ⟨hfits.turnaround, hfits.dataPhase⟩
  obtain ⟨transaction, rfl, -, -, hr⟩ := attempt_delivers hvalid hfits hlines hpath
  by_cases hwait : (target.answers served.length).ack = 2
  · exact .inl ⟨hr.trans ((outcome_waiting_iff _).mpr hwait), _, rfl⟩
  · refine .inr ⟨fun hack => hwait ?_, fun hq => hwait (hQ _ _ hq)⟩
    exact (outcome_waiting_iff _).mp (hr.symm.trans (hlines.waiting_eq hack))

/-- With as many rounds as the loop can need, a transfer delivers its request to a target with the
same settings and returns the target's answer, unless the limit of the retries is the greatest
number and the target answers WAIT to that many attempts and one. -/
theorem transfer_on_wire_iff (hinit : engine.initialized = true)
    (hpos : 1 ≤ engine.turnaroundCycles.toNat) (hle : engine.turnaroundCycles.toNat ≤ 4)
    (hfits : target.Fits engine) {rounds : ℕ}
    (hrounds : engine.waitRetries.toNat + 2 ≤ rounds) :
    (swdTransfer rounds request data ack engine).Settles (lineExec target.step) False
        (Transferred target engine request data ack) idleTarget ↔
      ¬ (request.valid = true ∧ engine.waitRetries = BitVec.allOnes 32 ∧
        ∀ i < 2 ^ 32, (target.answers i).ack = 2) := by
  constructor
  · rintro h ⟨hvalid, hlimit, hall⟩
    refine swdTransfer_waits hinit hpos hle hvalid hlimit hfits (fun r s hs => ?_) rounds h
    rw [Transferred, if_pos hvalid] at hs
    obtain ⟨n, hn⟩ := hs
    have hlength : s.served.length = n + 1 := by simpa using congrArg List.length hn.served
    rw [hlength]
    exact hall n (hn.limit.trans_lt engine.waitRetries.isLt)
  · intro hbad
    obtain ⟨n, hn, hend⟩ : ∃ n < 2 ^ 32, request.valid = true →
        engine.waitRetries = BitVec.allOnes 32 → (target.answers n).ack ≠ 2 := by
      by_contra hnone
      push Not at hnone
      exact hbad ⟨(hnone 0 (by norm_num)).1, (hnone 0 (by norm_num)).2.1,
        fun i hi => (hnone i hi).2.2⟩
    refine (swdTransfer_settles_iff hinit).mpr fun s hpath => ?_
    have hs : s = idleTarget := by
      rw [taking] at hpath
      split_ifs at hpath
      · exact hpath
      · obtain ⟨_, rfl, rfl⟩ := hpath
        rfl
    rw [hs]
    exact protocolTransfer_transferred hfits hpos hle hn hend hrounds

end Transfer

/-- A target that answers WAIT and then OK. -/
def busyTarget (engine : Engine) : Target :=
  ⟨engine.turnaroundCycles.toNat, engine.dataPhase, false,
    fun n => ⟨if n = 0 then 2 else 1, 0x2BA01477, false⟩⟩

def greatestEngine : Engine := idleEngine (BitVec.allOnes 32)

/-- Even with the greatest limit the transfer returns once the target answers OK. -/
theorem idcode_transfer_on_wire :
    (swdTransfer (2 ^ 32 + 1) idcodeRequest 0 0 greatestEngine).Settles
      (lineExec (busyTarget greatestEngine).step) False
      (Transferred (busyTarget greatestEngine) greatestEngine idcodeRequest 0 0) idleTarget := by
  refine (transfer_on_wire_iff rfl (by decide) (by decide) ⟨rfl, rfl⟩ (by decide)).mpr ?_
  exact fun h => absurd (h.2.2 1 (by norm_num)) (by decide)

/-- A target that answers WAIT for ever. -/
def waitingTarget (engine : Engine) : Target :=
  ⟨engine.turnaroundCycles.toNat, engine.dataPhase, false, fun _ => ⟨2, 0, false⟩⟩

theorem greatest_limit_repeats_for_ever : ¬ ∃ rounds, ∀ target : Target,
    target.Fits greatestEngine → (swdTransfer rounds idcodeRequest 0 0 greatestEngine).Settles
        (lineExec target.step) False
        (Transferred target greatestEngine idcodeRequest 0 0) idleTarget := by
  rintro ⟨rounds, h⟩
  exact swdTransfer_waits rfl (by decide) (by decide) (by decide) rfl ⟨rfl, rfl⟩ (fun _ _ _ => rfl)
    rounds (h (waitingTarget greatestEngine) ⟨rfl, rfl⟩)

end Swd
end AirDap

import AirDap.Swd.Lines

/-! The loop of a transfer over its attempts, in any world that follows the line. -/
namespace AirDap
open Concurrency

namespace Swd

section Loop

variable {W : Type} {step : W → LineEvent → W → Prop} {engine : Engine} {request : Request}
  {data : Word} {ack : Byte} {Q : Result → W → Prop} {w : W}

/-- The result of an attempt that is made again. -/
def waiting (engine : Engine) (data : Word) : Result := ⟨.ok, data, ackWait, engine⟩

theorem AfterAck.engine_eq {lines : List LineEvent} {r : Result}
    (h : AfterAck engine request data ack lines r) : r.engine = engine ∧ r.ack = ack := by
  cases h <;> exact ⟨rfl, rfl⟩

theorem AfterAck.waiting_eq {lines : List LineEvent} {r : Result}
    (h : AfterAck engine request data ack lines r) (hack : ack = ackWait) :
    r = waiting engine data := by
  subst hack
  cases h with
  | protocolError h => exact absurd rfl h.2.1
  | refused => rfl
  | refusedRead => rfl
  | refusedWrite => rfl
  | read h => exact absurd h (by decide)
  | write h => exact absurd h (by decide)

theorem Attempt.waiting_eq {lines : List LineEvent} {r : Result}
    (h : Attempt engine request data lines r) (hack : r.ack = ackWait) :
    r = waiting engine data := by
  obtain ⟨_, _, hafter⟩ := h
  exact hafter.waiting_eq (hafter.engine_eq.2.symm.trans hack)

/-- A transfer takes the line first if the host does not drive it. -/
def taking (engine : Engine) : List LineEvent := if engine.hostOutput then [] else [.direction true]

theorem swdTransfer_settles_iff (hinit : engine.initialized = true) {rounds : ℕ} :
    (swdTransfer rounds request data ack engine).Settles (lineExec step) False Q w ↔
      ∀ w', Path step w (taking engine) w' →
        (protocolTransfer rounds request data ack { engine with hostOutput := true }).Settles
          (lineExec step) False Q w' := by
  rw [swdTransfer, if_neg (by simp [hinit]), taking]
  cases hhost : engine.hostOutput with
  | true =>
    have hengine : { engine with hostOutput := true } = engine := by rw [← hhost]
    rw [if_neg (by simp), if_pos rfl, hengine]
    constructor
    · rintro h _ rfl
      exact h
    · exact fun h => h w rfl
  | false =>
    rw [if_pos (show (!false) = true from rfl), if_neg (by simp)]
    constructor
    · rintro h w' ⟨w₁, hstep, rfl⟩
      exact h none _ ⟨.direction true, rfl, hstep⟩
    · rintro h r w' ⟨line, hevent, hstep⟩
      cases line with
      | direction output =>
        cases hevent
        exact h w' ⟨w', hstep, rfl⟩
      | sent _ => cases hevent
      | seen _ => cases hevent

/-- The loop makes no more than `last` attempts: the retries and one, if the count can pass the
limit. It never passes the greatest one; then `I` cannot hold after so many attempts. -/
def LastAttempt (engine : Engine) (I : ℕ → W → Prop) (last : ℕ) : Prop :=
  if engine.waitRetries = BitVec.allOnes 32 then ∀ w, ¬ I last w
  else last = engine.waitRetries.toNat + 1

theorem succ_lt_of_ne_allOnes {limit : Word} (h : limit ≠ BitVec.allOnes 32) :
    limit.toNat + 1 < 2 ^ 32 := by
  have hne : limit.toNat ≠ 2 ^ 32 - 1 := fun heq =>
    h (BitVec.eq_of_toNat_eq (by rw [heq, BitVec.toNat_allOnes]))
  have := limit.isLt
  omega

/-- A world in which `I k` holds after `k` attempts that were answered with WAIT. -/
theorem retryLoop_settles (h : engine.Driving) {I : ℕ → W → Prop} {last : ℕ}
    (hlast : LastAttempt engine I last)
    (hattempt : ∀ k w lines r w', I k w → k < last →
      Attempt engine request data lines r → Path step w lines w' →
      if r = waiting engine data then I (k + 1) w' else Q r w')
    (hexhausted : ∀ w, I (engine.waitRetries.toNat + 1) w → Q (waiting engine data) w)
    {k : ℕ} {attempt : Word} (hk : engine.waitRetries ≠ BitVec.allOnes 32 → attempt.toNat = k)
    (hbound : k ≤ last) (hack : k = 0 ∨ ack = ackWait) {rounds : ℕ}
    (hrounds : last < rounds + k) (hI : I k w) :
    (retryLoop request rounds attempt ⟨.ok, data, ack, engine⟩).Settles (lineExec step) False Q
      w := by
  induction rounds generalizing k attempt ack w with
  | zero => omega
  | succ rounds ih =>
    rw [retryLoop]
    unfold LastAttempt at hlast
    by_cases hmore : k < last
    · have hle : attempt ≤ engine.waitRetries := by
        rw [BitVec.le_def]
        split_ifs at hlast with hmax
        · rw [hmax, BitVec.toNat_allOnes]
          omega
        · rw [hk hmax]
          omega
      rw [if_pos hle]
      refine (transferAttempt_lined h).settles.bind fun r w' hr => ?_
      obtain ⟨lines, hlines, hpath⟩ := hr
      have hnext := hattempt k w lines r w' hI hmore hlines hpath
      by_cases hwait : r = waiting engine data
      · subst hwait
        rw [if_pos rfl] at hnext
        rw [if_neg (by simp [waiting])]
        refine ih (fun hmax => ?_) hmore (.inr rfl) (by omega) hnext
        have hfits := succ_lt_of_ne_allOnes hmax
        rw [if_neg hmax] at hlast
        rw [BitVec.toNat_add, hk hmax]
        exact Nat.mod_eq_of_lt (show k + 1 < 2 ^ 32 by omega)
      · rw [if_neg hwait] at hnext
        rw [if_pos (.inr fun hack => hwait (hlines.waiting_eq hack))]
        exact hnext
    · obtain rfl : k = last := by omega
      have hmax : engine.waitRetries ≠ BitVec.allOnes 32 := fun hmax => by
        rw [if_pos hmax] at hlast
        exact hlast w hI
      rw [if_neg hmax] at hlast
      have hpast : ¬ attempt ≤ engine.waitRetries := by
        rw [BitVec.le_def, hk hmax]
        omega
      rw [if_neg hpast]
      obtain rfl : ack = ackWait := hack.resolve_left (by omega)
      exact hexhausted w (hlast ▸ hI)

theorem protocolTransfer_settles (h : engine.Driving) (hvalid : request.valid = true)
    (I : ℕ → W → Prop) {last : ℕ} (hlast : LastAttempt engine I last)
    (hattempt : ∀ k w lines r w', I k w → k < last →
      Attempt engine request data lines r → Path step w lines w' →
      if r = waiting engine data then I (k + 1) w' else Q r w')
    (hexhausted : ∀ w, I (engine.waitRetries.toNat + 1) w → Q (waiting engine data) w)
    {rounds : ℕ} (hrounds : last < rounds) (hI : I 0 w) :
    (protocolTransfer rounds request data ack engine).Settles (lineExec step) False Q w := by
  rw [protocolTransfer, if_neg (by simp [hvalid])]
  exact retryLoop_settles h hlast hattempt hexhausted (fun _ => rfl) (Nat.zero_le _) (.inl rfl)
    hrounds hI

/-- The count of the attempts never passes the greatest limit: the loop goes on until an answer
is not WAIT, and has no end if all are. -/
theorem retryLoop_not_settles (hlimit : engine.waitRetries = BitVec.allOnes 32) {I : W → Prop}
    (hattempt : ∀ w ack, I w → ∃ r w', (transferAttempt request data ack engine).Runs
      (lineExec step) r w w' ∧ (r = waiting engine data ∧ I w' ∨ r.ack ≠ ackWait ∧ ¬ Q r w'))
    {attempt : Word} {rounds : ℕ} (hI : I w) :
    ¬ (retryLoop request rounds attempt ⟨.ok, data, ack, engine⟩).Settles (lineExec step) False Q
      w := by
  induction rounds generalizing attempt ack w with
  | zero => exact id
  | succ rounds ih =>
    intro h
    obtain ⟨r, w', hrun, hnext⟩ := hattempt w ack hI
    rw [retryLoop, if_pos (by rw [hlimit, BitVec.le_def, BitVec.toNat_allOnes]; omega)] at h
    have hrest := h.after hrun
    rcases hnext with ⟨rfl, hI⟩ | ⟨hack, hQ⟩
    · rw [if_neg (by simp [waiting])] at hrest
      exact ih hI hrest
    · rw [if_pos (.inr hack)] at hrest
      exact hQ hrest

end Loop

end Swd
end AirDap

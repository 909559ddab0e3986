import AirDap.Dap.Protocol
import AirDap.Wire.BigEndian
import Mathlib.Data.List.Nodup

/-! The cipher of a Security 2 session on the host. Every message takes the nonce that its
counter has reached, and a call that fails leaves the session closed for good. -/
namespace AirDap

open Wire

abbrev SessionNonce := Vector Byte 12

/-- The counter, the last four bytes of a nonce. -/
def SessionNonce.count (nonce : SessionNonce) : Word :=
  wordOf nonce[8] nonce[9] nonce[10] nonce[11]

def SessionNonce.withCount (nonce : SessionNonce) (count : Word) : SessionNonce :=
  nonce.set 8 ((count >>> 24).setWidth 8) |>.set 9 ((count >>> 16).setWidth 8)
    |>.set 10 ((count >>> 8).setWidth 8) |>.set 11 (count.setWidth 8)

inductive SessionError where
  | mustReestablish
  | invalidCiphertext
  | encryptionFailed
  | authenticationFailed
  | nonceExhausted
  deriving DecidableEq, Repr

structure SessionCipher where
  key : Vector Byte 32
  nonce : SessionNonce
  valid : Bool
  deriving DecidableEq

/-- A call of `encrypt_aead` or `decrypt_aead`: the nonce and the text it is given. -/
structure AeadCall where
  key : Vector Byte 32
  nonce : SessionNonce
  text : List Byte
  tag : Option (List Byte)
  deriving DecidableEq

/-- What a call of the cipher gives its caller, and the AEAD call made on the way. -/
structure SessionOutcome where
  aead : Option AeadCall
  result : Except SessionError (List Byte)

def SessionOutcome.succeeded (outcome : SessionOutcome) : Bool := outcome.result.isOk

/-- A call with its input, and the answer of the AEAD for the case that it is asked. -/
inductive SessionCall where
  | encrypt (plain : List Byte) (reply : Option (List Byte × Vector Byte 16))
  | decrypt (cipher : List Byte) (reply : Option (List Byte))

namespace SessionCipher

variable (self : SessionCipher)

def advance : SessionCipher × Except SessionError Unit :=
  if self.nonce.count.toNat + 1 < 2 ^ 32 then
    ({ self with nonce := self.nonce.withCount (self.nonce.count + 1) }, .ok ())
  else
    ({ self with valid := false }, .error .nonceExhausted)

/-- The end of both directions: the counter goes on, and only then the session is valid again. -/
def finish (aead : AeadCall) (text : List Byte) :
    SessionCipher × SessionOutcome :=
  match self.advance with
  | (next, .ok ()) => ({ next with valid := true }, ⟨some aead, .ok text⟩)
  | (next, .error e) => (next, ⟨some aead, .error e⟩)

def encrypt (plain : List Byte)
    (reply : Option (List Byte × Vector Byte 16)) : SessionCipher × SessionOutcome :=
  if !self.valid then (self, ⟨none, .error .mustReestablish⟩)
  else
    let lowered := { self with valid := false }
    let aead : AeadCall := ⟨self.key, self.nonce, plain, none⟩
    match reply with
    | none => (lowered, ⟨some aead, .error .encryptionFailed⟩)
    | some (cipher, tag) => lowered.finish aead (cipher ++ tag.toList)

def decrypt (cipher : List Byte) (reply : Option (List Byte)) :
    SessionCipher × SessionOutcome :=
  if !self.valid then (self, ⟨none, .error .mustReestablish⟩)
  else
    let lowered := { self with valid := false }
    if cipher.length < 16 then (lowered, ⟨none, .error .invalidCiphertext⟩)
    else
      let split := cipher.length - 16
      let aead : AeadCall := ⟨self.key, self.nonce, cipher.take split, some (cipher.drop split)⟩
      match reply with
      | none => (lowered, ⟨some aead, .error .authenticationFailed⟩)
      | some plain => lowered.finish aead plain

def call : SessionCall → SessionCipher × SessionOutcome
  | .encrypt plain reply => self.encrypt plain reply
  | .decrypt cipher reply => self.decrypt cipher reply

/-- The outcomes of a sequence of calls. -/
def calls (self : SessionCipher) : List SessionCall → List SessionOutcome
  | [] => []
  | c :: cs => (self.call c).2 :: (self.call c).1.calls cs

end SessionCipher

/-- `used` has the fixed bytes of `start` and a counter that is `n` higher. -/
def SessionNonce.IsAfter (start : SessionNonce) (n : ℕ) (used : SessionNonce) : Prop :=
  used = start.withCount used.count ∧ used.count.toNat = start.count.toNat + n

section Nonce

variable (nonce : SessionNonce) (count : Word)

@[simp] theorem count_withCount : (nonce.withCount count).count = count := by
  simp [SessionNonce.count, SessionNonce.withCount]

@[simp] theorem withCount_withCount (other : Word) :
    (nonce.withCount count).withCount other = nonce.withCount other := by
  ext i hi
  simp only [SessionNonce.withCount, Vector.getElem_set]
  split_ifs <;> rfl

theorem withCount_count : nonce.withCount nonce.count = nonce := by
  have h := wordBytes_of nonce[8] nonce[9] nonce[10] nonce[11]
  simp only [wordBytes, List.cons.injEq, and_true] at h
  obtain ⟨h8, h9, h10, h11⟩ := h
  ext i hi
  simp only [SessionNonce.withCount, SessionNonce.count, Vector.getElem_set, h8, h9, h10, h11]
  split_ifs <;> subst_vars <;> rfl

theorem SessionNonce.isAfter_zero : nonce.IsAfter 0 nonce :=
  ⟨(withCount_count nonce).symm, rfl⟩

end Nonce

theorem SessionNonce.IsAfter.succ {nonce used : SessionNonce} {n : ℕ}
    (hcount : nonce.count.toNat + 1 < 2 ^ 32)
    (h : (nonce.withCount (nonce.count + 1)).IsAfter n used) : nonce.IsAfter (n + 1) used := by
  obtain ⟨hfixed, hused⟩ := h
  have hnext : (nonce.count + 1).toNat = nonce.count.toNat + 1 := by
    rw [BitVec.toNat_add]
    exact Nat.mod_eq_of_lt hcount
  rw [withCount_withCount] at hfixed
  rw [count_withCount, hnext] at hused
  exact ⟨hfixed, by omega⟩

/-- What a call can do: it succeeds with the nonce of the session and moves the counter on, or
it fails, with that nonce used or not, and the session is no longer valid. -/
inductive CallStep (self : SessionCipher) : SessionCipher × SessionOutcome → Prop
  | done {aead : AeadCall} {text : List Byte} (hnonce : aead.nonce = self.nonce)
      (hcount : self.nonce.count.toNat + 1 < 2 ^ 32) :
      CallStep self ({ self with nonce := self.nonce.withCount (self.nonce.count + 1) },
        ⟨some aead, .ok text⟩)
  | failed {next : SessionCipher} {aead : Option AeadCall} {e : SessionError}
      (hnext : next.valid = false) (hnonce : ∀ a ∈ aead, a.nonce = self.nonce) :
      CallStep self (next, ⟨aead, .error e⟩)

namespace SessionCipher

variable {self : SessionCipher}

theorem finish_step {aead : AeadCall} (hvalid : self.valid = true)
    (hnonce : aead.nonce = self.nonce) (text : List Byte) :
    CallStep self ({ self with valid := false }.finish aead text) := by
  by_cases hcount : self.nonce.count.toNat + 1 < 2 ^ 32
  · have h : CallStep self (_, ⟨some aead, .ok text⟩) := .done hnonce hcount
    simpa only [finish, advance, hcount, if_true, ← hvalid] using h
  · simp only [finish, advance, hcount, if_false]
    refine .failed rfl fun a ha => ?_
    cases ha
    exact hnonce

theorem call_of_invalid (hvalid : self.valid = false) (c : SessionCall) :
    self.call c = (self, ⟨none, .error .mustReestablish⟩) := by
  cases c <;> simp [call, encrypt, decrypt, hvalid]

theorem call_step (c : SessionCall) : CallStep self (self.call c) := by
  by_cases hvalid : self.valid = true
  · cases c with
    | encrypt plain reply =>
      simp only [call, encrypt, hvalid, Bool.not_true, Bool.false_eq_true, if_false]
      cases reply with
      | none => exact .failed rfl fun a ha => by cases ha; rfl
      | some reply => exact finish_step hvalid rfl _
    | decrypt cipher reply =>
      simp only [call, decrypt, hvalid, Bool.not_true, Bool.false_eq_true, if_false]
      split_ifs
      · exact .failed rfl fun a ha => by cases ha
      · cases reply with
        | none => exact .failed rfl fun a ha => by cases ha; rfl
        | some plain => exact finish_step hvalid rfl _
  · rw [Bool.not_eq_true] at hvalid
    rw [call_of_invalid hvalid]
    exact .failed hvalid fun a ha => by cases ha

theorem calls_of_invalid (hvalid : self.valid = false) (cs : List SessionCall) :
    self.calls cs = List.replicate cs.length ⟨none, .error .mustReestablish⟩ := by
  induction cs with
  | nil => rfl
  | cons c cs ih =>
    rw [calls, call_of_invalid hvalid, ih]
    rfl

/-- The nonces of the AEAD calls, in order. -/
def usedNonces (outcomes : List SessionOutcome) : List SessionNonce :=
  outcomes.filterMap fun o => o.aead.map AeadCall.nonce

/-- The outcomes of calls on a session that starts with this nonce. -/
structure Served (nonce : SessionNonce) (outcomes : List SessionOutcome) : Prop where
  distinct : (usedNonces outcomes).Nodup
  later : ∀ used ∈ usedNonces outcomes, ∃ n, nonce.IsAfter n used
  counted : ∀ n o, (outcomes.filter SessionOutcome.succeeded)[n]? = some o →
    ∃ a, o.aead = some a ∧ nonce.IsAfter n a.nonce
  closed : outcomes.Pairwise fun earlier later => earlier.succeeded = false → later.aead = none

namespace Served

variable {nonce : SessionNonce} {outcomes : List SessionOutcome}

theorem done (h : Served (nonce.withCount (nonce.count + 1)) outcomes) {aead : AeadCall}
    {text : List Byte} (hnonce : aead.nonce = nonce) (hcount : nonce.count.toNat + 1 < 2 ^ 32) :
    Served nonce (⟨some aead, .ok text⟩ :: outcomes) where
  distinct := by
    change (aead.nonce :: usedNonces outcomes).Nodup
    refine List.nodup_cons.mpr ⟨fun hmem => ?_, h.distinct⟩
    -- The later calls use higher counters.
    obtain ⟨n, hn⟩ := h.later _ hmem
    have hlater := (hn.succ hcount).2
    rw [hnonce] at hlater
    omega
  later used hused := by
    rcases List.mem_cons.mp hused with rfl | hused
    · exact ⟨0, hnonce ▸ SessionNonce.isAfter_zero _⟩
    · obtain ⟨n, hn⟩ := h.later used hused
      exact ⟨n + 1, hn.succ hcount⟩
  counted n o ho := by
    rw [List.filter_cons_of_pos rfl] at ho
    cases n with
    | zero =>
      cases ho
      exact ⟨_, rfl, hnonce ▸ SessionNonce.isAfter_zero _⟩
    | succ n =>
      obtain ⟨a, ha, hn⟩ := h.counted n o ho
      exact ⟨a, ha, hn.succ hcount⟩
  closed := .cons (fun _ _ hfailed => by cases hfailed) h.closed

theorem failed {aead : Option AeadCall} {e : SessionError}
    (hnonce : ∀ a ∈ aead, a.nonce = nonce) (n : ℕ) :
    Served nonce (⟨aead, .error e⟩ :: List.replicate n ⟨none, .error .mustReestablish⟩) where
  distinct := by cases aead <;> simp [usedNonces]
  later used hused := by
    cases aead with
    | none => simp [usedNonces] at hused
    | some a =>
      simp only [usedNonces, List.filterMap_cons, List.filterMap_replicate] at hused
      obtain rfl : used = a.nonce := by simpa using hused
      exact ⟨0, hnonce a rfl ▸ SessionNonce.isAfter_zero _⟩
  counted m o ho := by simp [SessionOutcome.succeeded, Except.isOk, Except.toBool] at ho
  closed := by simp [List.pairwise_replicate]

end Served

theorem served_calls (self : SessionCipher) (cs : List SessionCall) :
    Served self.nonce (self.calls cs) := by
  induction cs generalizing self with
  | nil => exact ⟨List.nodup_nil, fun _ h => (by cases h), fun _ _ h => (by cases h), .nil⟩
  | cons c cs ih =>
    have hstep := self.call_step c
    rw [calls]
    generalize self.call c = r at hstep
    cases hstep with
    | done hnonce hcount =>
      have hrest := ih { self with nonce := self.nonce.withCount (self.nonce.count + 1) }
      exact hrest.done hnonce hcount
    | failed hnext hnonce =>
      rw [calls_of_invalid hnext]
      exact .failed hnonce cs.length

/-- Over any calls and any answers of the AEAD, from any state of the cipher: the nonces used are
distinct, the successful calls count on from the nonce of the start without a wrap, and no call
after a failed one reaches the AEAD. -/
theorem session_nonces (self : SessionCipher) (cs : List SessionCall) :
    (usedNonces (self.calls cs)).Nodup ∧
      (∀ n o, ((self.calls cs).filter SessionOutcome.succeeded)[n]? = some o →
        ∃ a, o.aead = some a ∧ self.nonce.IsAfter n a.nonce) ∧
      (self.calls cs).Pairwise fun earlier later =>
        earlier.succeeded = false → later.aead = none :=
  ⟨(self.served_calls cs).distinct, (self.served_calls cs).counted, (self.served_calls cs).closed⟩

end SessionCipher

end AirDap

import AirDap.Auth.Calls

/-! What the sections do to the owner session. -/
namespace AirDap
open Concurrency

variable {T K : Type}

section Compare

variable {l r : List Byte}

theorem foldl_or_eq_zero {acc : Byte} :
    l.foldl (· ||| ·) acc = 0 ↔ acc = 0 ∧ ∀ b ∈ l, b = 0 := by
  induction l generalizing acc with
  | nil => simp
  | cons b l ih =>
    simp only [List.foldl_cons, ih, List.forall_mem_cons, ← and_assoc]
    rw [show (0 : Byte) = 0#8 from rfl, BitVec.or_eq_zero_iff]

theorem constantTimeEqual_iff (h : l.length = r.length) :
    constantTimeEqual l r = true ↔ l = r := by
  have hzip : (∀ b ∈ List.zipWith (· ^^^ ·) l r, b = 0) ↔ l = r := by
    induction l generalizing r with
    | nil => cases r <;> simp_all
    | cons b l ih =>
      cases r with
      | nil => simp at h
      | cons c r =>
        have hlength : l.length = r.length := by simpa using h
        rw [List.zipWith_cons_cons, List.forall_mem_cons, ih hlength, List.cons.injEq,
          show (0 : Byte) = 0#8 from rfl, BitVec.xor_eq_zero_iff]
  rw [constantTimeEqual, decide_eq_true_iff, foldl_or_eq_zero, and_iff_right rfl, hzip]

theorem constantTimeEqual_secret {a b : Secret} :
    constantTimeEqual a.toList b.toList = true ↔ a = b := by
  rw [constantTimeEqual_iff (by simp), Vector.toList_inj]

end Compare

/-- The variables of the owner are left as they are. -/
structure SameOwner (auth auth' : Auth) : Prop where
  initialized : auth'.initialized = auth.initialized
  credential : auth'.credential = auth.credential
  owner : auth'.owner = auth.owner
  nextSessionId : auth'.nextSessionId = auth.nextSessionId
  revokeHandler : auth'.revokeHandler = auth.revokeHandler

theorem SameOwner.refl (auth : Auth) : SameOwner auth auth := ⟨rfl, rfl, rfl, rfl, rfl⟩

/-- The owner goes on, or ends and is left to be revoked. -/
inductive Retires (auth : Auth) : PendingRevoke → Auth → Prop
  | keeps : Retires auth .zero auth
  | ends (h : auth.owner.active = true) :
    Retires auth ⟨auth.revokeHandler, auth.owner.sessionId⟩ { auth with owner := .zero }

/-- What a section does after that: nothing to the owner, a new credential without an owner, a
refresh of the owner, or a new owner with the active credential. It gives the id of a new session
and the time of an activity. -/
inductive OwnerChange (auth : Auth) : Option Word → Option ℤ → Auth → Prop
  | same {auth' : Auth} (h : SameOwner auth auth') : OwnerChange auth none none auth'
  | credential {auth' : Auth} (inactive : auth.owner.active = false)
      (h : SameOwner { auth with credential := auth'.credential } auth') :
      OwnerChange auth none none auth'
  | refreshed {auth' : Auth} (nowUs : ℤ) (active : auth.owner.active = true)
      (h : SameOwner { auth with owner := { auth.owner with lastActivityUs := nowUs } } auth') :
      OwnerChange auth none (some nowUs) auth'
  | created {auth' : Auth} (nowUs : ℤ) (token : Secret) (inactive : auth.owner.active = false)
      (valid : auth.credential.valid = true)
      (h : SameOwner { (allocateSessionId auth).2 with
        owner := ⟨true, auth.nextSessionId, auth.credential.generation, token,
          auth.credential.fingerprint, nowUs⟩ } auth') :
      OwnerChange auth (some auth.nextSessionId) (some nowUs) auth'

section Sections

variable {auth : Auth} {nowUs : ℤ} {connection : AuthConnection}

theorem invalidateOwnerLocked_retires (auth : Auth) :
    Retires auth (invalidateOwnerLocked auth).1 (invalidateOwnerLocked auth).2 := by
  unfold invalidateOwnerLocked
  cases h : auth.owner.active
  · exact .keeps
  · exact .ends h

theorem expireOwnerLocked_retires (nowUs : ℤ) (auth : Auth) :
    Retires auth (expireOwnerLocked nowUs auth).1 (expireOwnerLocked nowUs auth).2 := by
  unfold expireOwnerLocked
  split
  · exact invalidateOwnerLocked_retires auth
  · exact .keeps

theorem invalidateOwnerLocked_inactive (auth : Auth) :
    (invalidateOwnerLocked auth).2.owner.active = false := by
  unfold invalidateOwnerLocked
  cases h : auth.owner.active
  · simpa using h
  · rfl

theorem Retires.owner_eq {auth' : Auth} {pending : PendingRevoke} (h : Retires auth pending auth')
    (hactive : auth'.owner.active = true) : auth' = auth := by
  cases h with
  | keeps => rfl
  | ends => simp [OwnerSession.zero] at hactive

theorem expireOwnerLocked_active (h : (expireOwnerLocked nowUs auth).2.owner.active = true) :
    (expireOwnerLocked nowUs auth).2 = auth ∧ ownerExpiredAt auth nowUs = false := by
  refine ⟨(expireOwnerLocked_retires nowUs auth).owner_eq h, ?_⟩
  by_contra hexpired
  unfold expireOwnerLocked at h
  rw [if_pos (by simpa using hexpired), invalidateOwnerLocked_inactive] at h
  cases h

theorem credentialCurrent_iff : credentialCurrent auth connection = true ↔
    auth.credential.valid = true ∧
      auth.credential.generation = connection.credentialGeneration ∧
      auth.credential.fingerprint = connection.credentialFingerprint := by
  simp [credentialCurrent, constantTimeEqual_secret, and_assoc]

/-- What a bind gives, when the expiry has left the revocation `pending` and `auth`. -/
inductive BindOutcome (nowUs : ℤ) (fresh : Secret) (connection : AuthConnection)
    (pending : PendingRevoke) (auth : Auth) : Option (List Byte) →
    (AuthResult × Option SessionInfo × PendingRevoke) × AuthConnection × Auth → Prop
  | refused {ownerToken : Option (List Byte)} (result : AuthResult) (h : result ≠ .ok) :
    BindOutcome nowUs fresh connection pending auth ownerToken
      ((result, none, pending), connection, auth)
  | joined (token : List Byte) (current : credentialCurrent auth connection = true)
      (active : auth.owner.active = true) :
    BindOutcome nowUs fresh connection pending auth (some token)
      ((.ok, some (copySessionInfo auth.owner), pending),
        { connection with bound := true, sessionId := auth.owner.sessionId },
        { auth with
          owner := { auth.owner with lastActivityUs := nowUs }
          boundConnections := auth.boundConnections + 1 })
  | created (info : SessionInfo) (current : credentialCurrent auth connection = true)
      (inactive : auth.owner.active = false) (hinfo : info.sessionId = auth.nextSessionId) :
    BindOutcome nowUs fresh connection pending auth none
      ((.ok, some info, pending),
        { connection with bound := true, sessionId := auth.nextSessionId },
        { (allocateSessionId auth).2 with
          owner := ⟨true, auth.nextSessionId, connection.credentialGeneration, fresh,
            connection.credentialFingerprint, nowUs⟩
          boundConnections := auth.boundConnections + 1 })

theorem bindLocked_outcome (nowUs : ℤ) (fresh : Secret) (ownerToken : Option (List Byte))
    (connection : AuthConnection) (auth : Auth) :
    BindOutcome nowUs fresh connection (expireOwnerLocked nowUs auth).1
      (expireOwnerLocked nowUs auth).2 ownerToken
      (bindLocked nowUs fresh ownerToken connection auth) := by
  simp only [bindLocked]
  generalize expireOwnerLocked nowUs auth = expired
  cases hcurrent : credentialCurrent expired.2 connection
  · exact .refused .expired (by decide)
  · simp only [bindOwner]
    cases hactive : expired.2.owner.active
    · cases ownerToken with
      | none => exact .created _ hcurrent hactive rfl
      | some token => exact .refused .expired (by decide)
    · cases ownerToken with
      | none => exact .refused .busy (by decide)
      | some token =>
        cases htoken : constantTimeEqual expired.2.owner.token.toList token
        · simp only [htoken]
          exact .refused .busy (by decide)
        · simp only [htoken]
          exact .joined token hcurrent hactive

theorem validateLocked_outcome (nowUs : ℤ) (sessionId : Word) (connection : AuthConnection)
    (auth : Auth) :
    (∃ auth', validateLocked nowUs sessionId connection auth =
      ((false, (expireOwnerLocked nowUs auth).1), auth') ∧
        auth' = (expireOwnerLocked nowUs auth).2) ∨
    (validateLocked nowUs sessionId connection auth = ((true, .zero), { auth with
        owner := { auth.owner with lastActivityUs := nowUs } }) ∧
      auth.owner.active = true ∧ ownerExpiredAt auth nowUs = false ∧
      auth.owner.sessionId = sessionId) := by
  simp only [validateLocked]
  split_ifs with hvalid
  · simp only [Bool.and_eq_true, decide_eq_true_eq] at hvalid
    obtain ⟨⟨⟨⟨hactive, -⟩, hid⟩, -⟩, -⟩ := hvalid
    obtain ⟨hsame, hfresh⟩ := expireOwnerLocked_active hactive
    have hzero : (expireOwnerLocked nowUs auth).1 = .zero := by
      unfold expireOwnerLocked
      rw [hfresh]
      rfl
    rw [hsame, hzero]
    rw [hsame] at hactive hid
    exact .inr ⟨rfl, hactive, hfresh, hid.symm⟩
  · exact .inl ⟨_, rfl, rfl⟩

theorem releaseHandshakeSlot_eq (auth : Auth) : releaseHandshakeSlot auth =
    { auth with pendingHandshakes := auth.pendingHandshakes - 1 } := by
  unfold releaseHandshakeSlot
  split_ifs with hpos
  · rfl
  · rw [show auth.pendingHandshakes - 1 = auth.pendingHandshakes by omega]

theorem closeLocked_retires (connection : AuthConnection) (auth : Auth) :
    Retires { auth with boundConnections := auth.boundConnections - 1 }
      (closeLocked connection auth).1 (closeLocked connection auth).2 := by
  have hcount : (if auth.boundConnections > 0 then
      { auth with boundConnections := auth.boundConnections - 1 } else auth) =
      { auth with boundConnections := auth.boundConnections - 1 } := by
    split_ifs with hpos
    · rfl
    · rw [show auth.boundConnections - 1 = auth.boundConnections by omega]
  simp only [closeLocked, hcount]
  split_ifs
  · exact invalidateOwnerLocked_retires _
  · exact .keeps

/-- The candidate that a pairing stores. -/
def pairCandidate (hash : List Byte → Secret) (psk : Secret) (auth : Auth) : Credential :=
  ⟨true, nextGeneration auth.credential, psk,
    hash (fingerprintLabel ++ auth.identity ++ psk.toList)⟩

/-- What a pairing gives. `stored` is how the store answers the record of the candidate. -/
inductive PairOutcome (candidate : Credential) (stored : EspErr × ConfigStore)
    (physicalUsb : Bool) (auth : Auth) :
    (AuthResult × Option Secret × PendingRevoke) × Auth → Prop
  | refused :
    PairOutcome candidate stored physicalUsb auth ((.invalidState, none, .zero), auth)
  | repeated (gate : physicalUsb = true ∨ auth.pairingWindowActive = true)
      (valid : auth.credential.valid = true) (same : auth.credential.psk = candidate.psk) :
    PairOutcome candidate stored physicalUsb auth
      ((.ok, some auth.credential.fingerprint, .zero), auth)
  | failed (h : stored.1 ≠ .ok) :
    PairOutcome candidate stored physicalUsb auth
      ((.storageFailed, none, .zero), { auth with config := stored.2 })
  | paired (gate : physicalUsb = true ∨ auth.pairingWindowActive = true)
      (different : auth.credential.valid = true → auth.credential.psk ≠ candidate.psk)
      (h : stored.1 = .ok) :
    PairOutcome candidate stored physicalUsb auth
      ((.ok, some candidate.fingerprint, (invalidateOwnerLocked auth).1),
        { (invalidateOwnerLocked auth).2 with credential := candidate, config := stored.2 })

theorem invalidateOwnerLocked_config (auth : Auth) (config : ConfigStore) :
    invalidateOwnerLocked { auth with config } =
      ((invalidateOwnerLocked auth).1, { (invalidateOwnerLocked auth).2 with config }) := by
  unfold invalidateOwnerLocked
  dsimp only
  cases auth.owner.active <;> rfl

theorem pairLocked_outcome (hash : List Byte → Secret) (answers : PairAnswers)
    (physicalUsb : Bool) (psk : Secret) (auth : Auth) :
    PairOutcome (pairCandidate hash psk auth)
      (configStoreSetBlob answers.store (some .authMaterial)
        (some (encodeCredentialRecord (pairCandidate hash psk auth))) auth.config)
      physicalUsb auth (pairLocked hash answers physicalUsb psk auth) := by
  simp only [pairLocked]
  split_ifs with hgate hsame
  · exact .refused
  · simp only [Bool.and_eq_true, constantTimeEqual_secret] at hsame
    exact .repeated (by revert hgate; cases physicalUsb <;> simp) hsame.1 hsame.2
  · have hgate' : physicalUsb = true ∨ auth.pairingWindowActive = true := by
      revert hgate
      cases physicalUsb <;> simp
    unfold calculateFingerprint
    cases answers.computed
    · exact .refused
    · change PairOutcome _ _ _ _ (if (configStoreSetBlob answers.store (some .authMaterial)
        (some (encodeCredentialRecord (pairCandidate hash psk auth))) auth.config).1 ≠ .ok
        then _ else _)
      split_ifs with hstored
      · exact .failed hstored
      · rw [invalidateOwnerLocked_config]
        refine .paired hgate' (fun hvalid hpsk => hsame ?_) (not_not.mp hstored)
        rw [Bool.and_eq_true, constantTimeEqual_secret]
        exact ⟨hvalid, hpsk⟩

theorem clearLocked_outcome (answers : ConfigAnswers) (auth : Auth) :
    ((configStoreClear answers configClearNetwork auth.config).1 ≠ .ok ∧
      clearLocked answers auth =
        (((configStoreClear answers configClearNetwork auth.config).1, .zero),
          { auth with
            pairingWindowActive := false
            config := (configStoreClear answers configClearNetwork auth.config).2 })) ∨
    ((configStoreClear answers configClearNetwork auth.config).1 = .ok ∧
      clearLocked answers auth = ((.ok, (invalidateOwnerLocked auth).1),
        { (invalidateOwnerLocked auth).2 with
          pairingWindowActive := false
          credential := .zero
          config := (configStoreClear answers configClearNetwork auth.config).2 })) := by
  simp only [clearLocked]
  split_ifs with hcleared
  · exact .inl ⟨hcleared, rfl⟩
  · refine .inr ⟨not_not.mp hcleared, ?_⟩
    unfold invalidateOwnerLocked
    dsimp only
    cases auth.owner.active <;> rfl

end Sections
end AirDap

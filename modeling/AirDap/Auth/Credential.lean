import AirDap.Auth.Owner
import AirDap.Config.Transactions

/-! The credential in RAM and its record in the configuration store change together. -/
namespace AirDap
open Concurrency

variable {T K : Type}

section Codec

variable {hash : List Byte → Secret} {computed : Bool} {identity input : List Byte}
  {credential : Credential}

theorem length_encodeCredentialRecord (credential : Credential) :
    (encodeCredentialRecord credential).length = credentialRecordSize := by
  simp [encodeCredentialRecord, credentialMagic, credentialRecordSize]

theorem padded_toList (secret : Secret) : padded 32 secret.toList = secret := by
  apply Vector.toList_inj.mp
  rw [toList_padded (by simp)]
  simp

theorem decode_encodeCredentialRecord (hgeneration : credential.generation ≠ 0) :
    decodeCredentialRecord hash true identity (encodeCredentialRecord credential) =
      .ok ⟨true, credential.generation, credential.psk,
        hash (fingerprintLabel ++ identity ++ credential.psk.toList)⟩ := by
  have hsize : (readU16Be (encodeCredentialRecord credential) 6).toNat = credentialRecordSize := by
    simp [readU16Be, encodeCredentialRecord, credentialMagic, byteAt, Wire.halfBytes]
    rfl
  have hread : readU32Be (encodeCredentialRecord credential) credentialRecordGenerationOffset =
      credential.generation := by
    simp [readU32Be, encodeCredentialRecord, credentialMagic, byteAt, Wire.halfBytes,
      Wire.wordBytes, credentialRecordGenerationOffset]
  have hpsk : padded 32 ((encodeCredentialRecord credential).drop credentialRecordPskOffset) =
      credential.psk := padded_toList credential.psk
  have hmagic : (encodeCredentialRecord credential).take 4 = credentialMagic := rfl
  simp only [decodeCredentialRecord, length_encodeCredentialRecord, hsize, hmagic, hread, hpsk]
  rw [if_neg (by simp), if_neg (by simp; rfl), if_neg (by simp; rfl), if_neg hgeneration]
  rfl

theorem encode_of_decodeCredentialRecord
    (h : decodeCredentialRecord hash computed identity input = .ok credential) :
    encodeCredentialRecord credential = input ∧ credential.valid = true ∧
      credential.generation ≠ 0 ∧
      credential.fingerprint = hash (fingerprintLabel ++ identity ++ credential.psk.toList) := by
  simp only [decodeCredentialRecord] at h
  split_ifs at h with hsize hmagic hversion hgeneration
  push Not at hsize hmagic hversion
  cases computed with
  | false => simp [calculateFingerprint] at h
  | true =>
    simp only [calculateFingerprint, if_true, Except.ok.injEq] at h
    subst h
    refine ⟨?_, rfl, hgeneration, rfl⟩
    have hlength : input.length = 44 := hsize.1
    have hhalf : BitVec.ofNat 16 credentialRecordSize = readU16Be input 6 := by
      rw [← hsize.2, BitVec.ofNat_toNat, BitVec.setWidth_eq]
    have hrest : (padded 32 (input.drop credentialRecordPskOffset)).toList =
        input.drop credentialRecordPskOffset := by
      rw [toList_padded (by simp [credentialRecordPskOffset, hlength])]
      simp [credentialRecordPskOffset, hlength]
    -- the first twelve bytes are the fields that are read from them
    have hhead : input.take credentialRecordPskOffset =
        (List.range 12).map (byteAt input) :=
      take_eq_map_byteAt (by simp [credentialRecordPskOffset, hlength])
    have hmagic' : credentialMagic = (List.range 4).map (byteAt input) := by
      rw [← hmagic.1, take_eq_map_byteAt (by omega)]
    refine Eq.trans ?_ (List.take_append_drop credentialRecordPskOffset input)
    rw [encodeCredentialRecord, hrest, hhalf, hmagic', hhead, ← hversion, ← hmagic.2]
    simp [readU16Be, readU32Be, credentialRecordGenerationOffset, List.range_succ]

end Codec

/-- The credential, what it is stored in and what it is hashed with are left as they are. -/
structure SameCredential (auth auth' : Auth) : Prop where
  credential : auth'.credential = auth.credential
  identity : auth'.identity = auth.identity
  config : auth'.config = auth.config

/-- The record in the store is the one of the active credential. -/
structure Persisted (hash : List Byte → Secret) (auth : Auth) : Prop where
  store : Coherent auth.config
  identity : auth.identity.length < pskIdentitySize
  paired : auth.credential.valid = true → auth.credential.generation ≠ 0 ∧
    auth.credential.fingerprint =
      hash (fingerprintLabel ++ auth.identity ++ auth.credential.psk.toList) ∧
    (auth.config.currentRecord.slots .authMaterial).matches
      (encodeCredentialRecord auth.credential) = true
  unpaired : auth.credential.valid = false → auth.credential = .zero ∧
    (auth.config.currentRecord.slots .authMaterial).length = 0

section Persisted

variable {hash : List Byte → Secret} {auth auth' : Auth}

theorem Persisted.congr (h : Persisted hash auth) (hsame : SameCredential auth auth') :
    Persisted hash auth' := by
  refine ⟨?_, ?_, ?_, ?_⟩
  · rw [hsame.config]
    exact h.store
  · rw [hsame.identity]
    exact h.identity
  · rw [hsame.credential, hsame.identity, hsame.config]
    exact h.paired
  · rw [hsame.credential, hsame.config]
    exact h.unpaired

theorem nextGeneration_ne_zero (credential : Credential) : nextGeneration credential ≠ 0 := by
  simp only [nextGeneration]
  generalize (if credential.valid then credential.generation + 1 else 1 : Word) = generation
  split_ifs with hzero
  · decide
  · exact hzero

theorem invalidateOwnerLocked_sameCredential (auth : Auth) :
    SameCredential auth (invalidateOwnerLocked auth).2 := by
  unfold invalidateOwnerLocked
  cases auth.owner.active <;> exact ⟨rfl, rfl, rfl⟩

theorem Persisted.pair (h : Persisted hash auth) (answers : PairAnswers) (physicalUsb : Bool)
    (psk : Secret) : Persisted hash (pairLocked hash answers physicalUsb psk auth).2 := by
  have hspec := ConfigCall.perform_spec h.store (.setBlob (some .authMaterial)
    (some (encodeCredentialRecord (pairCandidate hash psk auth)))) answers.store
  have houtcome := pairLocked_outcome hash answers physicalUsb psk auth
  generalize pairLocked hash answers physicalUsb psk auth = result at houtcome ⊢
  cases houtcome with
  | refused => exact h
  | repeated => exact h
  | failed hstored => exact h.congr ⟨rfl, rfl, hspec.2.1 hstored⟩
  | paired gate different hstored =>
    have hsame := invalidateOwnerLocked_sameCredential auth
    refine ⟨hspec.1, ?_, fun _ => ⟨nextGeneration_ne_zero _, ?_, ?_⟩, ?_⟩
    · exact hsame.identity ▸ h.identity
    · simp only [hsame.identity]
      rfl
    · exact (hspec.2.2 hstored).2 _ rfl _ rfl
    · intro hvalid
      cases hvalid

theorem Persisted.clear (h : Persisted hash auth) (answers : ConfigAnswers) :
    Persisted hash (clearLocked answers auth).2 := by
  have hspec := ConfigCall.perform_spec h.store (.clear configClearNetwork) answers
  obtain ⟨hcleared, heq⟩ | ⟨hcleared, heq⟩ := clearLocked_outcome answers auth
  · rw [heq]
    exact h.congr ⟨rfl, rfl, hspec.2.1 hcleared⟩
  · rw [heq]
    refine ⟨hspec.1, ?_, ?_, fun _ => ⟨rfl, ?_⟩⟩
    · exact (invalidateOwnerLocked_sameCredential auth).identity ▸ h.identity
    · intro hvalid
      cases hvalid
    · have hzero := (hspec.2.2 hcleared).2.2.1 .authMaterial (by decide)
      exact congrArg ConfigBlob.length hzero

variable {store : ConfigStore} {nvs : ConfigAnswers} {slot : ConfigSlot} {bytes : List Byte}
  {room : ℕ} {boot : AuthBoot}

theorem getBlob_matches (hinit : store.initialized = true) (hlock : nvs.locked = true)
    (hbytes : bytes ≠ []) (h : (store.currentRecord.slots slot).matches bytes = true) :
    configStoreGetBlob nvs (some slot) (some bytes.length) store =
      (.ok, some bytes.length, bytes) := by
  simp only [ConfigBlob.matches, Bool.and_eq_true, decide_eq_true_eq] at h
  have hlength : (store.currentRecord.slots slot).length ≠ 0 := by
    intro hzero
    rw [hzero] at h
    exact hbytes (List.eq_nil_of_length_eq_zero h.1.symm)
  have hlocked : lockConfigStore nvs store = .ok := by
    simp [lockConfigStore, hinit, hlock]
  simp only [configStoreGetBlob, hlocked, ne_eq, not_true_eq_false, if_false, if_neg hlength,
    h.1, h.2, lt_irrefl]

theorem matches_of_getBlob {size : Option ℕ} (hs : Coherent store)
    (h : configStoreGetBlob nvs (some slot) (some room) store = (.ok, size, bytes)) :
    (store.currentRecord.slots slot).matches bytes = true := by
  have hle := (validateRecord_ok_iff.mp hs.valid).2.2.2.2.2 slot
  simp only [configStoreGetBlob] at h
  split_ifs at h with hlock hempty hroom
  · exact absurd (congrArg Prod.fst h) hlock
  · cases h
  · cases h
  · simp only [Prod.mk.injEq] at h
    have hlength : bytes.length = (store.currentRecord.slots slot).length.toNat := by
      rw [← h.2.2, List.length_take, Vector.length_toList, min_eq_left hle]
    simp only [ConfigBlob.matches, Bool.and_eq_true, decide_eq_true_eq]
    exact ⟨hlength.symm, hlength ▸ h.2.2⟩

theorem empty_of_getBlob
    (h : (configStoreGetBlob nvs (some slot) (some room) store).1 = .notFound) :
    (store.currentRecord.slots slot).length = 0 := by
  simp only [configStoreGetBlob] at h
  split_ifs at h with hlock hempty
  · unfold lockConfigStore at h
    split_ifs at h
  · exact hempty

theorem loadCredential_error {identity : List Byte} {e : EspErr}
    (h : loadCredential hash boot identity auth = .error e) : e ≠ .ok := by
  simp only [loadCredential] at h
  split_ifs at h with hloaded hmissing
  · simp only [decodeCredentialRecord, calculateFingerprint] at h
    split_ifs at h <;> cases h <;> decide
  · cases h
    exact hloaded

theorem networkAuthInit_ok (h : networkAuthInit hash boot auth = (.ok, auth')) :
    ∃ identity credential, identity.length < pskIdentitySize ∧
      loadCredential hash boot identity auth = .ok credential ∧
      auth' = { auth with initialized := true, identity, credential } := by
  unfold networkAuthInit at h
  cases hidentity : boot.identity with
  | none => simp [hidentity] at h
  | some identity =>
    cases hload : loadCredential hash boot identity auth with
    | error e =>
      have he := loadCredential_error hload
      simp only [hidentity, hload] at h
      split_ifs at h <;> simp_all
    | ok credential =>
      simp only [hidentity, hload] at h
      split_ifs at h with hinitialized hlong hpsa hmutex htimer
      · cases h
      · cases h
      · cases h
      · cases h
      · exact absurd (congrArg Prod.fst h) htimer
      · cases h
        exact ⟨identity, credential, Nat.not_le.mp hlong, hload, rfl⟩

theorem networkAuthInit_persisted (hs : Coherent auth.config) (hzero : auth.credential = .zero)
    (h : networkAuthInit hash boot auth = (.ok, auth')) : Persisted hash auth' := by
  obtain ⟨identity, credential, hlength, hload, rfl⟩ := networkAuthInit_ok h
  simp only [loadCredential] at hload
  split_ifs at hload with hloaded hmissing
  · obtain ⟨hencode, hvalid, hgeneration, hfingerprint⟩ := encode_of_decodeCredentialRecord hload
    refine ⟨hs, hlength, fun _ => ⟨hgeneration, hfingerprint, ?_⟩, fun hinvalid => ?_⟩
    · simp only [hencode]
      exact matches_of_getBlob hs (Prod.ext hloaded rfl)
    · rw [hvalid] at hinvalid
      cases hinvalid
  · have hcredential : credential = .zero := (Except.ok.inj hload).symm.trans hzero
    subst hcredential
    refine ⟨hs, hlength, fun hvalid => ?_, fun _ => ⟨rfl, empty_of_getBlob hmissing⟩⟩
    cases hvalid

end Persisted

section Runs

variable {hash : List Byte → Secret} {w w' : AuthWorld T K} {auth auth' : Auth} {t : T}

theorem SameCredential.refl (auth : Auth) : SameCredential auth auth := ⟨rfl, rfl, rfl⟩

theorem Retires.sameCredential {pending : PendingRevoke} (h : Retires auth pending auth') :
    SameCredential auth auth' := by
  cases h <;> exact ⟨rfl, rfl, rfl⟩

theorem acceptLocked_sameCredential (auth : Auth) : SameCredential auth (acceptLocked auth).2 := by
  unfold acceptLocked
  split_ifs <;> exact ⟨rfl, rfl, rfl⟩

theorem releaseHandshakeSlot_sameCredential (auth : Auth) :
    SameCredential auth (releaseHandshakeSlot auth) := by
  rw [releaseHandshakeSlot_eq]
  exact ⟨rfl, rfl, rfl⟩

theorem bindLocked_sameCredential (nowUs : ℤ) (fresh : Secret) (ownerToken : Option (List Byte))
    (connection : AuthConnection) (auth : Auth) :
    SameCredential auth (bindLocked nowUs fresh ownerToken connection auth).2.2 := by
  have hexpired := (expireOwnerLocked_retires nowUs auth).sameCredential
  have houtcome := bindLocked_outcome nowUs fresh ownerToken connection auth
  generalize bindLocked nowUs fresh ownerToken connection auth = result at houtcome ⊢
  cases houtcome <;> exact ⟨hexpired.credential, hexpired.identity, hexpired.config⟩

theorem validateLocked_sameCredential (nowUs : ℤ) (sessionId : Word)
    (connection : AuthConnection) (auth : Auth) :
    SameCredential auth (validateLocked nowUs sessionId connection auth).2 := by
  obtain ⟨auth', h, rfl⟩ | ⟨h, -⟩ := validateLocked_outcome nowUs sessionId connection auth
  · rw [h]
    exact (expireOwnerLocked_retires nowUs auth).sameCredential
  · rw [h]
    exact ⟨rfl, rfl, rfl⟩

theorem closeLocked_sameCredential (connection : AuthConnection) (auth : Auth) :
    SameCredential auth (closeLocked connection auth).2 := by
  have h := (closeLocked_retires connection auth).sameCredential
  exact ⟨h.credential, h.identity, h.config⟩

variable {a : AuthAct K} {r : a.Answer}

theorem AuthWorld.exec_sameCredential [DecidableEq K] (hexec : w.exec hash t a r w')
    (hpair : ∀ physicalUsb psk, a ≠ .pair physicalUsb psk) (hclear : a ≠ .clear) :
    SameCredential w.auth w'.auth := by
  cases a with
  | allocate | getFlags | io | notify | loadConnection =>
    have hw : w' = w := by simp_all [AuthWorld.exec]
    exact hw ▸ .refl _
  | publish => exact hexec.2 ▸ .refl _
  | free => exact hexec ▸ .refl _
  | setPairingWindow => exact hexec ▸ ⟨rfl, rfl, rfl⟩
  | accept => exact hexec.2 ▸ acceptLocked_sameCredential _
  | releaseSlot => exact hexec ▸ releaseHandshakeSlot_sameCredential _
  | accepted => exact hexec.2 ▸ releaseHandshakeSlot_sameCredential _
  | bind k ownerToken =>
    obtain ⟨u, connection, fresh, -, -, -, rfl⟩ := hexec
    exact bindLocked_sameCredential ..
  | validate k sessionId =>
    obtain ⟨u, connection, -, -, -, rfl⟩ := hexec
    exact validateLocked_sameCredential ..
  | close k =>
    obtain ⟨u, connection, -, -, rfl⟩ := hexec
    exact closeLocked_sameCredential ..
  | expire =>
    obtain ⟨-, rfl⟩ | ⟨nowUs, -, -, rfl⟩ := hexec
    · exact .refl _
    · exact (expireOwnerLocked_retires nowUs w.auth).sameCredential
  | pair physicalUsb psk => exact absurd rfl (hpair physicalUsb psk)
  | clear => exact absurd rfl hclear

theorem Persisted.exec [DecidableEq K] (h : Persisted hash w.auth) (hexec : w.exec hash t a r w') :
    Persisted hash w'.auth := by
  cases a with
  | pair physicalUsb psk =>
    obtain ⟨answers, -, rfl⟩ := hexec
    exact h.pair answers physicalUsb psk
  | clear =>
    obtain ⟨answers, -, rfl⟩ := hexec
    exact h.clear answers
  | _ => exact h.congr (AuthWorld.exec_sameCredential hexec (by simp) (by simp))

theorem Persisted.preserves [DecidableEq T] [DecidableEq K] (hash : List Byte → Secret) :
    authProtocol.Preserves (authMachine hash : Machine T (AuthAct K) _ _ _ _)
      (fun _ c => c.returns) fun w _ => Persisted hash w.auth where
  called _ _ _ _ h _ _ := h
  acted _ _ _ _ _ _ h _ hexec := h.exec hexec
  returned _ _ _ _ _ h _ := h

end Runs

/-- The component after its initialization on a store that was initialized before, with the
revocation handler installed and no connection accepted. -/
def AuthWorld.Started (hash : List Byte → Secret) (w : AuthWorld T K) : Prop :=
  ∃ storeBoot coldStore config boot auth,
    coldStore.candidateRecord = .zero ∧ configStoreInit storeBoot coldStore = (.ok, config) ∧
    networkAuthInit hash boot (Auth.cold config) = (.ok, auth) ∧
    w.auth = { auth with revokeHandler := true } ∧ ∀ k, w.connection k = none

section Start

variable {hash : List Byte → Secret} {w : AuthWorld T K} {auth : Auth}

theorem AuthWorld.Started.persisted (h : w.Started hash) : Persisted hash w.auth := by
  obtain ⟨storeBoot, coldStore, config, boot, auth, hcandidate, hstore, hinit, hauth, -⟩ := h
  have hpersisted :=
    networkAuthInit_persisted (configStoreInit_coherent hcandidate hstore) rfl hinit
  rw [hauth]
  exact hpersisted.congr ⟨rfl, rfl, rfl⟩

theorem AuthWorld.Started.persisted_steps [DecidableEq T] [DecidableEq K] {σ : AuthConfig T K}
    (h : w.Started hash) (hrun : (authMachine hash).Steps (.start w) σ) :
    Persisted hash σ.world.auth :=
  (hrun.held (authMachine_keeps hash) (Persisted.preserves hash)
    (Protocol.held_start h.persisted)).inv

/-- After a restart with the flash as it is now, the store gives back a record that decodes to
the active credential, or none if there is no active credential. -/
def Reloads (hash : List Byte → Secret) (auth : Auth) : Prop :=
  ∀ off : ConfigStore, off.initialized = false → off.flash = auth.config.flash →
    ∃ store, configStoreInit .sound off = (.ok, store) ∧
      let loaded := configStoreGetBlob ConfigBoot.sound.toConfigAnswers (some .authMaterial)
        (some credentialRecordSize) store
      if auth.credential.valid then
        loaded.1 = .ok ∧
          decodeCredentialRecord hash true auth.identity loaded.2.2 = .ok auth.credential
      else loaded.1 = .notFound

theorem Persisted.reloads (h : Persisted hash auth) : Reloads hash auth := by
  intro off hoff hflash
  refine ⟨_, reload_coherent h.store hoff hflash, ?_⟩
  cases hvalid : auth.credential.valid
  · obtain ⟨-, hempty⟩ := h.unpaired hvalid
    simp [configStoreGetBlob, lockConfigStore, ConfigBoot.sound, hempty]
  · obtain ⟨hgeneration, hfingerprint, hmatches⟩ := h.paired hvalid
    have hload := @getBlob_matches { off with
        initialized := true
        currentRecord := auth.config.currentRecord }
      ConfigBoot.sound.toConfigAnswers _ _ rfl rfl
      (by simp [encodeCredentialRecord, credentialMagic]) hmatches
    rw [length_encodeCredentialRecord] at hload
    have hcredential : (⟨true, auth.credential.generation, auth.credential.psk,
        auth.credential.fingerprint⟩ : Credential) = auth.credential := by rw [← hvalid]
    have hdecode := @decode_encodeCredentialRecord hash auth.identity _ hgeneration
    rw [← hfingerprint, hcredential] at hdecode
    rw [hload]
    exact ⟨rfl, hdecode⟩

end Start

section Alone

variable [DecidableEq K] {hash : List Byte → Secret} {w w' : AuthWorld T K} {t : T}

theorem runs_invokeRevoke {pending : PendingRevoke}
    (h : (invokeRevoke pending).Runs (fun w a r w' => w.exec hash t a r w') () w w') : w' = w := by
  unfold invokeRevoke at h
  split_ifs at h
  · cases h with
    | act hexec hk =>
      cases hk
      exact hexec
  · cases h
    rfl

theorem runs_pairCredential {request : Option (List Byte)} {physicalUsb : Bool}
    {v : AuthResult × Option Secret}
    (h : (pairCredential true request physicalUsb).Runs (fun w a r w' => w.exec hash t a r w')
      v w w') :
    (v.1 ≠ .ok ∧ w' = w) ∨ ∃ bytes answers pending, request = some bytes ∧
      ((v.1, v.2, pending), w'.auth) =
        pairLocked hash answers physicalUsb (padded 32 (bytes.drop 1)) w.auth := by
  cases request with
  | none =>
    cases h
    exact .inl ⟨by decide, rfl⟩
  | some bytes =>
    simp only [pairCredential] at h
    split_ifs at h
    · cases h
      exact .inl ⟨by decide, rfl⟩
    · simp at *
    · cases h
      exact .inl ⟨by decide, rfl⟩
    · obtain ⟨r, w₁, hsection, hrest⟩ := h.of_bind
      cases hsection with
      | act hexec hk =>
        cases hk
        obtain ⟨answers, hr, rfl⟩ := hexec
        obtain ⟨_, w₂, hrevoke, hret⟩ := hrest.of_bind
        cases runs_invokeRevoke hrevoke
        cases hret
        exact .inr ⟨bytes, answers, r.2.2, rfl, Prod.ext hr rfl⟩

theorem runs_clearNetworkConfiguration {v : EspErr}
    (h : (networkAuthClearNetworkConfiguration true).Runs (fun w a r w' => w.exec hash t a r w')
      v w w') :
    ∃ answers pending, ((v, pending), w'.auth) = clearLocked answers w.auth := by
  obtain ⟨r, w₁, hsection, hrest⟩ := Prog.Runs.of_bind h
  cases hsection with
  | act hexec hk =>
    cases hk
    obtain ⟨answers, hr, rfl⟩ := hexec
    obtain ⟨_, w₂, hrevoke, hret⟩ := hrest.of_bind
    cases runs_invokeRevoke hrevoke
    cases hret
    exact ⟨answers, r.2, Prod.ext hr rfl⟩

end Alone

/-- The credential, the store with its flash and the owner session are left as they are. -/
structure SameStanding (auth auth' : Auth) : Prop where
  credential : auth'.credential = auth.credential
  config : auth'.config = auth.config
  owner : auth'.owner = auth.owner

section Calls

variable [DecidableEq K] {hash : List Byte → Secret} {w w' : AuthWorld T K} {t : T}

theorem pairCredential_spec (hp : Persisted hash w.auth) {request : Option (List Byte)}
    {physicalUsb : Bool} {v : AuthResult × Option Secret}
    (h : (pairCredential true request physicalUsb).Runs (fun w a r w' => w.exec hash t a r w')
      v w w') :
    (v.1 ≠ .ok → SameStanding w.auth w'.auth) ∧
    (v.1 = .ok → w'.auth.credential.valid = true ∧
      v.2 = some w'.auth.credential.fingerprint ∧ Reloads hash w'.auth ∧
      (physicalUsb = true ∨ w.auth.pairingWindowActive = true) ∧
      ∃ bytes, request = some bytes ∧ w'.auth.credential.psk = padded 32 (bytes.drop 1)) ∧
    ∀ bytes, request = some bytes → w.auth.credential.valid = true →
      w.auth.credential.psk = padded 32 (bytes.drop 1) → w'.auth = w.auth := by
  obtain ⟨hrefused, rfl⟩ | ⟨bytes, answers, pending, rfl, hlocked⟩ := runs_pairCredential h
  · exact ⟨fun _ => ⟨rfl, rfl, rfl⟩, fun hok => absurd hok hrefused, fun _ _ _ _ => rfl⟩
  · have hreloads := (hp.pair answers physicalUsb (padded 32 (bytes.drop 1))).reloads
    have hspec := ConfigCall.perform_spec hp.store (.setBlob (some .authMaterial)
      (some (encodeCredentialRecord (pairCandidate hash (padded 32 (bytes.drop 1)) w.auth))))
      answers.store
    have houtcome := pairLocked_outcome hash answers physicalUsb (padded 32 (bytes.drop 1)) w.auth
    generalize pairLocked hash answers physicalUsb (padded 32 (bytes.drop 1)) w.auth = result
      at hlocked hreloads houtcome
    simp only [ConfigCall.perform] at hspec
    generalize configStoreSetBlob answers.store (some .authMaterial) (some
      (encodeCredentialRecord (pairCandidate hash (padded 32 (bytes.drop 1)) w.auth)))
      w.auth.config = stored at houtcome hspec
    obtain ⟨status, fingerprint⟩ := v
    generalize w'.auth = auth' at hlocked ⊢
    subst hlocked
    cases houtcome with
    | refused => exact ⟨fun _ => ⟨rfl, rfl, rfl⟩, by simp, fun _ _ _ _ => rfl⟩
    | repeated gate valid same =>
      exact ⟨by simp, fun _ => ⟨valid, rfl, hreloads, gate, bytes, rfl, same⟩, fun _ _ _ _ => rfl⟩
    | failed hstored =>
      have hconfig := hspec.2.1 hstored
      refine ⟨fun _ => ⟨rfl, hconfig, rfl⟩, by simp, fun _ _ _ _ => ?_⟩
      rw [hconfig]
    | paired gate different hstored =>
      refine ⟨by simp, fun _ => ⟨rfl, rfl, hreloads, gate, bytes, rfl, rfl⟩, ?_⟩
      rintro _ ⟨⟩ hvalid hsame
      exact absurd hsame (different hvalid)

theorem clearNetworkConfiguration_spec (hp : Persisted hash w.auth) {v : EspErr}
    (h : (networkAuthClearNetworkConfiguration true).Runs (fun w a r w' => w.exec hash t a r w')
      v w w') :
    (v ≠ .ok → SameStanding w.auth w'.auth) ∧
    (v = .ok → w'.auth.credential = .zero ∧ Reloads hash w'.auth) := by
  obtain ⟨answers, pending, hlocked⟩ := runs_clearNetworkConfiguration h
  have hreloads := (hp.clear answers).reloads
  have hspec := ConfigCall.perform_spec hp.store (.clear configClearNetwork) answers
  generalize w'.auth = auth' at hlocked ⊢
  obtain ⟨hcleared, heq⟩ | ⟨hcleared, heq⟩ := clearLocked_outcome answers w.auth
  · rw [heq] at hlocked
    cases hlocked
    exact ⟨fun _ => ⟨rfl, hspec.2.1 hcleared, rfl⟩, fun hok => absurd hok hcleared⟩
  · rw [heq] at hlocked hreloads
    cases hlocked
    exact ⟨fun hne => absurd rfl hne, fun _ => ⟨rfl, hreloads⟩⟩

end Calls

/-- After any run of any calls the record in the store is the one of the active credential. A
pairing or a clear that fails leaves the credential, the store and the owner as they are. A
pairing that succeeds leaves its key active and stored; over BLE it succeeds in an open window
only, and for the active key it changes nothing. After a clear that succeeds no credential is
active or stored. -/
theorem credential_persistent [DecidableEq T] [DecidableEq K] {hash : List Byte → Secret}
    {w₀ : AuthWorld T K} (hstart : w₀.Started hash) {σ : AuthConfig T K}
    (hrun : (authMachine hash).Steps (.start w₀) σ) :
    Reloads hash σ.world.auth ∧
    (∀ t request physicalUsb v w', (pairCredential true request physicalUsb).Runs
        (fun w a r w' => AuthWorld.exec hash t w a r w') v σ.world w' →
      (v.1 ≠ .ok → SameStanding σ.world.auth w'.auth) ∧
      (v.1 = .ok → w'.auth.credential.valid = true ∧
        v.2 = some w'.auth.credential.fingerprint ∧ Reloads hash w'.auth ∧
        (physicalUsb = true ∨ σ.world.auth.pairingWindowActive = true) ∧
        ∃ bytes, request = some bytes ∧ w'.auth.credential.psk = padded 32 (bytes.drop 1)) ∧
      ∀ bytes, request = some bytes → σ.world.auth.credential.valid = true →
        σ.world.auth.credential.psk = padded 32 (bytes.drop 1) → w'.auth = σ.world.auth) ∧
    ∀ t v w', (networkAuthClearNetworkConfiguration true).Runs
        (fun w a r w' => AuthWorld.exec hash t w a r w') v σ.world w' →
      (v ≠ .ok → SameStanding σ.world.auth w'.auth) ∧
      (v = .ok → w'.auth.credential = .zero ∧ Reloads hash w'.auth) := by
  have hp := hstart.persisted_steps hrun
  exact ⟨hp.reloads, fun _ _ _ _ _ h => pairCredential_spec hp h,
    fun _ _ _ h => clearNetworkConfiguration_spec hp h⟩

/-- The record of a device that is provisioned. -/
def provisionedRecord : ConfigRecord := { makeDefaultRecord with provisioned := 1 }

/-- A provisioned device without a credential. -/
def provisionedAuth : AuthWorld Unit Unit where
  auth := { Auth.cold ⟨true, provisionedRecord, .zero, .record provisionedRecord⟩ with
    initialized := true
    revokeHandler := true }
  nowUs := 0
  connection _ := none

theorem provisionedAuth_started : provisionedAuth.Started fun _ => .zero := by
  have hdefault := (validateRecord_ok_iff.mp validateRecord_default).2.2.2.2
  have hflag : provisionedRecord.provisioned ≤ 1 := (by decide : (1 : Byte) ≤ 1)
  have hvalid : validateRecord provisionedRecord = .ok :=
    validateRecord_of_frame validateRecord_default rfl rfl rfl hflag hdefault.1 hdefault.2
  have hcoherent : Coherent ⟨true, provisionedRecord, .zero, .record provisionedRecord⟩ :=
    ⟨rfl, rfl, hvalid, rfl⟩
  refine ⟨.sound, ⟨false, .zero, .zero, .record provisionedRecord⟩, _,
    ⟨some [], true, ConfigBoot.sound.toConfigAnswers, true, true, .ok⟩,
    { provisionedAuth.auth with revokeHandler := false }, rfl,
    reload_coherent hcoherent rfl rfl, rfl, rfl, fun _ => rfl⟩

/-- A pairing request for the key of zeros. -/
def zeroKeyRequest : Option (List Byte) := some (authPairRequestVersion :: List.replicate 32 0)

/-- The key of zeros is paired over USB. -/
def pairedRun : Option (AuthConfig Unit Unit) :=
  (authMachine fun _ => .zero).script (AuthWorld.answer (fun _ => .zero) ())
    [((), some (.pairUsb zeroKeyRequest)), ((), none)] (.start provisionedAuth)

/-- The paired key would be loaded again. To pair it once more changes nothing, and after a clear
nothing is active or stored. -/
theorem pairedRun_persistent : provisionedAuth.Started (fun _ => .zero) ∧
    ∃ σ, (authMachine fun _ => .zero).Steps (.start provisionedAuth) σ ∧
      σ.world.auth.credential.valid = true ∧ Reloads (fun _ => .zero) σ.world.auth ∧
      (∃ v w', (pairCredential true zeroKeyRequest true).Runs
        (fun w a r w' => AuthWorld.exec (fun _ => .zero) () w a r w') v σ.world w' ∧
        v.1 = .ok ∧ w'.auth = σ.world.auth) ∧
      ∃ v w', (networkAuthClearNetworkConfiguration true).Runs
        (fun w a r w' => AuthWorld.exec (fun _ => .zero) () w a r w') v σ.world w' ∧
        v = .ok ∧ w'.auth.credential = .zero ∧ Reloads (fun _ => .zero) w'.auth := by
  have hrun : pairedRun.any (fun σ => σ.world.auth.credential.valid = true ∧
      σ.world.auth.credential.psk = padded 32 (List.replicate 32 0) ∧
      ((pairCredential true zeroKeyRequest true).alone
        (AuthWorld.answer (fun _ => .zero) () ()) σ.world).any (·.1.1 = .ok) = true ∧
      ((networkAuthClearNetworkConfiguration true).alone
        (AuthWorld.answer (fun _ => .zero) () ()) σ.world).any (·.1 = .ok) = true) = true := by
    rfl
  obtain ⟨σ, hσ, hcheck⟩ := (Option.any_eq_true _ _).mp hrun
  obtain ⟨hvalid, hpsk, hpair, hclear⟩ := of_decide_eq_true hcheck
  have hsteps := Machine.script_steps (AuthWorld.exec_answer _ ()) hσ
  obtain ⟨hreloads, hpaired, hcleared⟩ := credential_persistent provisionedAuth_started hsteps
  obtain ⟨⟨v, w'⟩, halone, hok⟩ := (Option.any_eq_true _ _).mp hpair
  obtain ⟨⟨error, w''⟩, hgone, hdone⟩ := (Option.any_eq_true _ _).mp hclear
  have hrepeat := Prog.runs_of_alone (AuthWorld.exec_answer (fun _ => .zero) () ()) halone
  have hforget := Prog.runs_of_alone (AuthWorld.exec_answer (fun _ => .zero) () ()) hgone
  refine ⟨provisionedAuth_started, σ, hsteps, hvalid, hreloads, ?_, ?_⟩
  · have hsame := (hpaired () _ _ v w' hrepeat).2.2 _ rfl hvalid hpsk
    exact ⟨v, w', hrepeat, of_decide_eq_true hok, hsame⟩
  · have herror := of_decide_eq_true hdone
    exact ⟨error, w'', hforget, herror, (hcleared () error w'' hforget).2 herror⟩

end AirDap

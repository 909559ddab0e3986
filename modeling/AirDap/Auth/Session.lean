import AirDap.Config.Store
import AirDap.Frame.Codec

/-! The authentication of network clients: one active credential, at most one logical owner
session, and the connections that were authenticated with a copy of the credential. Each function
here is one section under the mutex of the component. -/
namespace AirDap

/-- `airdap_network_auth_result_t`. -/
inductive AuthResult where
  | ok | invalidArgument | invalidState | unsupportedVersion | noCredential | storageFailed
  | noMemory | busy | authenticationFailed | unauthenticated | expired | replay
  deriving DecidableEq, Repr

/-- A pre-shared key, a fingerprint and the token of a session have 32 bytes each. -/
abbrev Secret := Vector Byte 32

def Secret.zero : Secret := padded 32 []

def authPairRequestVersion : Byte := 1
def authPairRequestSize : ℕ := 33
def authMaxPendingHandshakes : ℕ := 2
def authSessionIdleTimeoutUs : ℤ := 60000000
def credentialRecordSize : ℕ := 44
def credentialRecordVersion : Byte := 1
def credentialRecordGenerationOffset : ℕ := 8
def credentialRecordPskOffset : ℕ := 12

/-- `ANET`. -/
def credentialMagic : List Byte := [0x41, 0x4E, 0x45, 0x54]

/-- The label in front of what is hashed to a fingerprint. -/
def fingerprintLabel : List Byte :=
  "AirDAP network PSK v1".toList.map fun c => BitVec.ofNat 8 c.toNat

/-- `active_credential_t`. -/
structure Credential where
  valid : Bool
  generation : Word
  psk : Secret
  fingerprint : Secret
  deriving DecidableEq

def Credential.zero : Credential := ⟨false, 0, .zero, .zero⟩

/-- `owner_session_t`. -/
structure OwnerSession where
  active : Bool
  sessionId : Word
  credentialGeneration : Word
  token : Secret
  credentialFingerprint : Secret
  lastActivityUs : ℤ
  deriving DecidableEq

def OwnerSession.zero : OwnerSession := ⟨false, 0, 0, .zero, .zero, 0⟩

/-- `struct airdap_network_auth_connection` without its TLS context. -/
structure AuthConnection where
  credentialGeneration : Word
  psk : Secret
  credentialFingerprint : Secret
  tlsAuthenticated : Bool
  bound : Bool
  sessionId : Word
  deriving DecidableEq

/-- `pending_revoke_t`; `handler` tells whether there is one. -/
structure PendingRevoke where
  handler : Bool
  sessionId : Word
  deriving DecidableEq

def PendingRevoke.zero : PendingRevoke := ⟨false, 0⟩

/-- `airdap_network_auth_session_info_t`. -/
structure SessionInfo where
  sessionId : Word
  credentialGeneration : Word
  sessionToken : Secret
  credentialFingerprint : Secret
  deriving DecidableEq

/-- The static variables of the component, and the configuration store. The two counters count
objects in memory and do not overflow. -/
structure Auth where
  initialized : Bool
  identity : List Byte
  credential : Credential
  owner : OwnerSession
  pairingWindowActive : Bool
  pendingHandshakes : ℕ
  boundConnections : ℕ
  nextSessionId : Word
  revokeHandler : Bool
  config : ConfigStore

section Helpers

def constantTimeEqual (left right : List Byte) : Bool :=
  (List.zipWith (· ^^^ ·) left right).foldl (· ||| ·) 0 = 0

/-- `calculate_fingerprint`; `hash` is SHA-256 and `computed` tells whether it succeeds. -/
def calculateFingerprint (hash : List Byte → Secret) (computed : Bool) (identity : List Byte)
    (psk : Secret) : Option Secret :=
  if computed then some (hash (fingerprintLabel ++ identity ++ psk.toList)) else none

def encodeCredentialRecord (credential : Credential) : List Byte :=
  credentialMagic ++ [credentialRecordVersion, 0] ++
    Wire.halfBytes (BitVec.ofNat 16 credentialRecordSize) ++
    Wire.wordBytes credential.generation ++ credential.psk.toList

def decodeCredentialRecord (hash : List Byte → Secret) (computed : Bool) (identity : List Byte)
    (input : List Byte) : Except EspErr Credential :=
  if input.length ≠ credentialRecordSize ∨
      (readU16Be input 6).toNat ≠ credentialRecordSize then .error .invalidSize
  else if input.take 4 ≠ credentialMagic ∨ byteAt input 5 ≠ 0 then .error .invalidResponse
  else if byteAt input 4 ≠ credentialRecordVersion then .error .invalidVersion
  else
    let generation := readU32Be input credentialRecordGenerationOffset
    if generation = 0 then .error .invalidResponse
    else
      let psk : Secret := padded 32 (input.drop credentialRecordPskOffset)
      match calculateFingerprint hash computed identity psk with
      | none => .error .fail
      | some fingerprint => .ok ⟨true, generation, psk, fingerprint⟩

/-- `allocate_session_id`. -/
def allocateSessionId (auth : Auth) : Word × Auth :=
  (auth.nextSessionId, { auth with
    nextSessionId := if auth.nextSessionId + 1 = 0 then 1 else auth.nextSessionId + 1 })

/-- `invalidate_owner_locked`. -/
def invalidateOwnerLocked (auth : Auth) : PendingRevoke × Auth :=
  if !auth.owner.active then (.zero, auth)
  else (⟨auth.revokeHandler, auth.owner.sessionId⟩, { auth with owner := .zero })

/-- `owner_expired_at`. -/
def ownerExpiredAt (auth : Auth) (nowUs : ℤ) : Bool :=
  auth.owner.active && decide (nowUs ≥ auth.owner.lastActivityUs) &&
    decide (nowUs - auth.owner.lastActivityUs ≥ authSessionIdleTimeoutUs)

/-- The invalidation of an owner that has expired. -/
def expireOwnerLocked (nowUs : ℤ) (auth : Auth) : PendingRevoke × Auth :=
  if ownerExpiredAt auth nowUs then invalidateOwnerLocked auth else (.zero, auth)

/-- The connection carries the active credential. -/
def credentialCurrent (auth : Auth) (connection : AuthConnection) : Bool :=
  auth.credential.valid &&
    decide (auth.credential.generation = connection.credentialGeneration) &&
    constantTimeEqual auth.credential.fingerprint.toList connection.credentialFingerprint.toList

end Helpers

section Sections

/-- How the hash and the configuration store answer a pairing. -/
structure PairAnswers where
  computed : Bool
  store : ConfigAnswers

/-- The generation of the next credential. -/
def nextGeneration (credential : Credential) : Word :=
  let generation := if credential.valid then credential.generation + 1 else 1
  if generation = 0 then 1 else generation

/-- `pair_credential` under the mutex: the result, the fingerprint it reports and the revocation
that is left to invoke. -/
def pairLocked (hash : List Byte → Secret) (answers : PairAnswers) (physicalUsb : Bool)
    (candidatePsk : Secret) (auth : Auth) :
    (AuthResult × Option Secret × PendingRevoke) × Auth :=
  if !physicalUsb && !auth.pairingWindowActive then ((.invalidState, none, .zero), auth)
  else if auth.credential.valid &&
      constantTimeEqual auth.credential.psk.toList candidatePsk.toList then
    ((.ok, some auth.credential.fingerprint, .zero), auth)
  else
    match calculateFingerprint hash answers.computed auth.identity candidatePsk with
    | none => ((.invalidState, none, .zero), auth)
    | some fingerprint =>
      let candidate : Credential :=
        ⟨true, nextGeneration auth.credential, candidatePsk, fingerprint⟩
      let stored := configStoreSetBlob answers.store (some .authMaterial)
        (some (encodeCredentialRecord candidate)) auth.config
      let auth := { auth with config := stored.2 }
      if stored.1 ≠ .ok then ((.storageFailed, none, .zero), auth)
      else
        let invalidated := invalidateOwnerLocked auth
        ((.ok, some fingerprint, invalidated.1), { invalidated.2 with credential := candidate })

/-- `airdap_network_auth_clear_network_configuration` under the mutex. -/
def clearLocked (answers : ConfigAnswers) (auth : Auth) : (EspErr × PendingRevoke) × Auth :=
  let auth := { auth with pairingWindowActive := false }
  let cleared := configStoreClear answers configClearNetwork auth.config
  let auth := { auth with config := cleared.2 }
  if cleared.1 ≠ .ok then ((cleared.1, .zero), auth)
  else
    let invalidated := invalidateOwnerLocked auth
    ((.ok, invalidated.1), { invalidated.2 with credential := .zero })

/-- The first section of `airdap_network_auth_tls_accept`: the copy of the credential. -/
def acceptLocked (auth : Auth) : Except AuthResult AuthConnection × Auth :=
  if !auth.credential.valid then (.error .noCredential, auth)
  else if auth.pendingHandshakes ≥ authMaxPendingHandshakes then (.error .busy, auth)
  else
    (.ok ⟨auth.credential.generation, auth.credential.psk, auth.credential.fingerprint, false,
      false, 0⟩, { auth with pendingHandshakes := auth.pendingHandshakes + 1 })

/-- `release_handshake_slot`, and the start of the second section of an accept. -/
def releaseHandshakeSlot (auth : Auth) : Auth :=
  if auth.pendingHandshakes > 0 then
    { auth with pendingHandshakes := auth.pendingHandshakes - 1 }
  else auth

/-- The second section of an accept: whether the credential is still the one copied. -/
def acceptedLocked (candidate : AuthConnection) (auth : Auth) : Bool × Auth :=
  let auth := releaseHandshakeSlot auth
  (credentialCurrent auth candidate, auth)

def copySessionInfo (owner : OwnerSession) : SessionInfo :=
  ⟨owner.sessionId, owner.credentialGeneration, owner.token, owner.credentialFingerprint⟩

/-- What a bind does with the owner once the credential is found current: its result and the
owner it leaves; `fresh` are the bytes of a new token. -/
def bindOwner (fresh : Secret) (ownerToken : Option (List Byte)) (connection : AuthConnection)
    (auth : Auth) : AuthResult × Auth :=
  if auth.owner.active then
    match ownerToken with
    | none => (.busy, auth)
    | some token =>
      if constantTimeEqual auth.owner.token.toList token then (.ok, auth) else (.busy, auth)
  else if ownerToken.isSome then (.expired, auth)
  else
    let allocated := allocateSessionId auth
    (.ok, { allocated.2 with owner := { allocated.2.owner with
      active := true
      sessionId := allocated.1
      credentialGeneration := connection.credentialGeneration
      token := fresh
      credentialFingerprint := connection.credentialFingerprint } })

/-- `airdap_network_auth_session_bind` under the mutex, with the connection it leaves. -/
def bindLocked (nowUs : ℤ) (fresh : Secret) (ownerToken : Option (List Byte))
    (connection : AuthConnection) (auth : Auth) :
    (AuthResult × Option SessionInfo × PendingRevoke) × AuthConnection × Auth :=
  let expired := expireOwnerLocked nowUs auth
  if !credentialCurrent expired.2 connection then
    ((.expired, none, expired.1), connection, expired.2)
  else
    let chosen := bindOwner fresh ownerToken connection expired.2
    if chosen.1 ≠ .ok then ((chosen.1, none, expired.1), connection, chosen.2)
    else
      let owner := { chosen.2.owner with lastActivityUs := nowUs }
      ((.ok, some (copySessionInfo owner), expired.1),
        { connection with bound := true, sessionId := owner.sessionId },
        { chosen.2 with owner, boundConnections := chosen.2.boundConnections + 1 })

/-- `airdap_network_auth_session_validate` under the mutex. -/
def validateLocked (nowUs : ℤ) (sessionId : Word) (connection : AuthConnection) (auth : Auth) :
    (Bool × PendingRevoke) × Auth :=
  let expired := expireOwnerLocked nowUs auth
  let owner := expired.2.owner
  if owner.active && decide (sessionId = connection.sessionId) &&
      decide (sessionId = owner.sessionId) &&
      decide (connection.credentialGeneration = owner.credentialGeneration) &&
      constantTimeEqual connection.credentialFingerprint.toList
        owner.credentialFingerprint.toList then
    ((true, expired.1), { expired.2 with owner := { owner with lastActivityUs := nowUs } })
  else ((false, expired.1), expired.2)

/-- `airdap_network_auth_connection_close` under the mutex. -/
def closeLocked (connection : AuthConnection) (auth : Auth) : PendingRevoke × Auth :=
  let auth := if auth.boundConnections > 0 then
    { auth with boundConnections := auth.boundConnections - 1 } else auth
  if auth.owner.active ∧ auth.owner.sessionId = connection.sessionId then
    invalidateOwnerLocked auth
  else (.zero, auth)

end Sections

section Init

/-- How the platform answers during the initialization. -/
structure AuthBoot where
  /-- The text of the identity, without a device identity `none`. -/
  identity : Option (List Byte)
  psaReady : Bool
  store : ConfigAnswers
  computed : Bool
  mutexCreated : Bool
  timerStarted : EspErr

/-- The size of the identity with its terminating zero. -/
def pskIdentitySize : ℕ := 24

/-- The record that is loaded and decoded; without one the credential stays as it is. -/
def loadCredential (hash : List Byte → Secret) (boot : AuthBoot) (identity : List Byte)
    (auth : Auth) : Except EspErr Credential :=
  let loaded := configStoreGetBlob boot.store (some .authMaterial) (some credentialRecordSize)
    auth.config
  if loaded.1 = .ok then decodeCredentialRecord hash boot.computed identity loaded.2.2
  else if loaded.1 = .notFound then .ok auth.credential
  else .error loaded.1

/-- `airdap_network_auth_init`. -/
def networkAuthInit (hash : List Byte → Secret) (boot : AuthBoot) (auth : Auth) :
    EspErr × Auth :=
  if auth.initialized then (.invalidState, auth)
  else
    match boot.identity with
    | none => (.invalidState, auth)
    | some identity =>
      if identity.length ≥ pskIdentitySize then (.invalidSize, auth)
      else if !boot.psaReady then (.fail, auth)
      else
        match loadCredential hash boot identity auth with
        | .error error => (error, auth)
        | .ok credential =>
          if !boot.mutexCreated then (.noMem, auth)
          else if boot.timerStarted ≠ .ok then (boot.timerStarted, auth)
          else (.ok, { auth with initialized := true, identity, credential })

/-- The static variables before the initialization. -/
def Auth.cold (config : ConfigStore) : Auth where
  initialized := false
  identity := []
  credential := .zero
  owner := .zero
  pairingWindowActive := false
  pendingHandshakes := 0
  boundConnections := 0
  nextSessionId := 1
  revokeHandler := false
  config

end Init
end AirDap

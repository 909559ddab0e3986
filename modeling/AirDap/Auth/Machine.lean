import AirDap.Auth.Session
import AirDap.Concurrency.Protocol

/-! Threads that accept, bind, validate and close connections and change the credential. Each
section under the mutex is one operation; what a call reads outside of it, the steps of the
handshake and the revocation callback are operations of their own. -/
namespace AirDap
open Concurrency Function

variable {T K : Type}

/-- A step of an accept on its socket or its TLS context, which may fail. -/
inductive AcceptIo where
  | setNonblocking | tlsInit | completeHandshake | restoreFlags
  deriving DecidableEq, Repr

/-- `K` are the addresses of connections. -/
inductive AuthAct (K : Type) where
  | allocate
  | accept
  | getFlags
  | io (step : AcceptIo)
  | releaseSlot
  | accepted (candidate : AuthConnection)
  | publish (candidate : AuthConnection)
  | loadConnection (k : K)
  | bind (k : K) (ownerToken : Option (List Byte))
  | validate (k : K) (sessionId : Word)
  | close (k : K)
  | free (k : K)
  | pair (physicalUsb : Bool) (psk : Secret)
  | clear
  | expire
  | setPairingWindow (active : Bool)
  | notify (sessionId : Word)
  deriving DecidableEq

structure BindAnswer where
  result : AuthResult
  info : Option SessionInfo
  pending : PendingRevoke
  nowUs : ℤ
  deriving DecidableEq

structure ValidateAnswer where
  valid : Bool
  pending : PendingRevoke
  nowUs : ℤ
  deriving DecidableEq

/-- `getFlags` tells whether the socket is nonblocking, if it succeeds. -/
@[reducible] def AuthAct.Answer : AuthAct K → Type
  | .allocate | .io _ | .accepted _ => Bool
  | .accept => Except AuthResult AuthConnection
  | .getFlags => Option Bool
  | .publish _ => K
  | .loadConnection _ => AuthConnection
  | .bind _ _ => BindAnswer
  | .validate _ _ => ValidateAnswer
  | .close _ | .expire => PendingRevoke
  | .pair _ _ => AuthResult × Option Secret × PendingRevoke
  | .clear => EspErr × PendingRevoke
  | .releaseSlot | .free _ | .setPairingWindow _ | .notify _ => Unit

abbrev AuthCode (K α : Type) := Prog (AuthAct K) AuthAct.Answer α

section Code

def perform (a : AuthAct K) : AuthCode K a.Answer := .act a .ret

/-- `invoke_revoke`. -/
def invokeRevoke (pending : PendingRevoke) : AuthCode K Unit :=
  if pending.handler ∧ pending.sessionId ≠ 0 then perform (.notify pending.sessionId) else pure ()

/-- `fcntl` on a socket that is to be blocking outside the handshake. -/
def setSocketMode (nonblocking : Bool) (step : AcceptIo) : AuthCode K Bool :=
  if nonblocking then pure true else perform (.io step)

/-- `airdap_network_auth_tls_accept` after the copy of the credential. -/
def acceptHandshake (candidate : AuthConnection) : AuthCode K (AuthResult × Option K) := do
  match ← perform .getFlags with
  | none =>
    perform .releaseSlot
    pure (.invalidArgument, none)
  | some nonblocking =>
    let nonblockingSet ← setSocketMode nonblocking .setNonblocking
    if !nonblockingSet then
      perform .releaseSlot
      pure (.invalidState, none)
    else if !(← perform (.io .tlsInit)) then
      let _ ← setSocketMode nonblocking .restoreFlags
      perform .releaseSlot
      pure (.noMemory, none)
    else
      let handshaken ← perform (.io .completeHandshake)
      let socketModeRestored ← setSocketMode nonblocking .restoreFlags
      let stillCurrent ← perform (.accepted candidate)
      if !handshaken then pure (.authenticationFailed, none)
      else if !socketModeRestored then pure (.invalidState, none)
      else if !stillCurrent then pure (.expired, none)
      else
        let k ← perform (.publish { candidate with tlsAuthenticated := true })
        pure (.ok, some k)

/-- `airdap_network_auth_tls_accept`; `socketValid` tells whether the descriptor is not
negative. -/
def networkAuthTlsAccept (initialized socketValid : Bool) : AuthCode K (AuthResult × Option K) := do
  if !socketValid then pure (.invalidArgument, none)
  else if !initialized then pure (.invalidState, none)
  else if !(← perform .allocate) then pure (.noMemory, none)
  else
    match ← perform .accept with
    | .error error => pure (error, none)
    | .ok candidate => acceptHandshake candidate

/-- The pointer and the size of an owner token: no token without bytes, and a token of its
fixed size. -/
def ownerTokenValid : Option (List Byte) → Bool
  | none => true
  | some token => token.length = 32

/-- `airdap_network_auth_session_bind`; a null pointer is `none`. -/
def networkAuthSessionBind (connection : Option K) (ownerToken : Option (List Byte)) :
    AuthCode K (AuthResult × Option SessionInfo) :=
  match connection with
  | none => pure (.invalidArgument, none)
  | some k => do
    if !ownerTokenValid ownerToken then pure (.invalidArgument, none)
    else
      let found ← perform (.loadConnection k)
      if !found.tlsAuthenticated then pure (.unauthenticated, none)
      else if found.bound then pure (.replay, none)
      else
        let r ← perform (.bind k ownerToken)
        invokeRevoke r.pending
        pure (r.result, r.info)

/-- `airdap_network_auth_session_validate`. -/
def networkAuthSessionValidate (connection : Option K) (sessionId : Word) :
    AuthCode K AuthResult :=
  match connection with
  | none => pure .invalidArgument
  | some k => do
    if sessionId = 0 then pure .invalidArgument
    else
      let found ← perform (.loadConnection k)
      if !found.tlsAuthenticated || !found.bound then pure .unauthenticated
      else
        let r ← perform (.validate k sessionId)
        invokeRevoke r.pending
        pure (if r.valid then .ok else .expired)

variable (initialized : Bool) (request : Option (List Byte))

/-- `airdap_network_auth_connection_close`. -/
def networkAuthConnectionClose (connection : Option K) : AuthCode K Unit :=
  match connection with
  | none => pure ()
  | some k => do
    let found ← perform (.loadConnection k)
    if initialized && found.bound then
      let pending ← perform (.close k)
      perform (.free k)
      invokeRevoke pending
    else perform (.free k)

/-- `pair_credential`; the result and the fingerprint that it reports. -/
def pairCredential (physicalUsb : Bool) :
    AuthCode K (AuthResult × Option Secret) :=
  match request with
  | none => pure (.invalidArgument, none)
  | some request => do
    if request.length ≠ authPairRequestSize then pure (.invalidArgument, none)
    else if !initialized then pure (.invalidState, none)
    else if byteAt request 0 ≠ authPairRequestVersion then pure (.unsupportedVersion, none)
    else
      let r ← perform (.pair physicalUsb (padded 32 (request.drop 1)))
      invokeRevoke r.2.2
      pure (r.1, r.2.1)

/-- `airdap_network_auth_pair`. -/
def networkAuthPair :
    AuthCode K (AuthResult × Option Secret) := pairCredential initialized request false

/-- `airdap_network_auth_pair_usb`. -/
def networkAuthPairUsb :
    AuthCode K (AuthResult × Option Secret) := pairCredential initialized request true

/-- `airdap_network_auth_clear_network_configuration`. -/
def networkAuthClearNetworkConfiguration : AuthCode K EspErr := do
  if !initialized then pure .invalidState
  else
    let r ← perform .clear
    invokeRevoke r.2
    pure r.1

/-- `expiry_timer_callback`. -/
def expiryTimerCallback : AuthCode K Unit := do
  let pending ← perform .expire
  invokeRevoke pending

/-- `airdap_network_auth_set_pairing_window_active`. -/
def networkAuthSetPairingWindowActive (initialized active : Bool) : AuthCode K EspErr := do
  if !initialized then pure .invalidState
  else
    perform (.setPairingWindow active)
    pure .ok

end Code

/-- The component, the clock and the connections, each with the thread that uses it. -/
structure AuthWorld (T K : Type) where
  auth : Auth
  nowUs : ℤ
  connection : K → Option (T × AuthConnection)

/-- One operation of thread `t`. The clock does not go back. A new connection gets an address
that is free; the timer may find the mutex taken and do nothing; the hash, the configuration
store, the socket and the TLS stack may answer anything, and a token may have any bytes. -/
def AuthWorld.exec [DecidableEq K] (hash : List Byte → Secret) (t : T) (w : AuthWorld T K) :
    (a : AuthAct K) → a.Answer → AuthWorld T K → Prop
  | .allocate, _, w' | .getFlags, _, w' | .io _, _, w' | .notify _, _, w' => w' = w
  | .accept, r, w' =>
    r = (acceptLocked w.auth).1 ∧ w' = { w with auth := (acceptLocked w.auth).2 }
  | .releaseSlot, _, w' => w' = { w with auth := releaseHandshakeSlot w.auth }
  | .accepted candidate, r, w' =>
    r = (acceptedLocked candidate w.auth).1 ∧
      w' = { w with auth := (acceptedLocked candidate w.auth).2 }
  | .publish candidate, k, w' =>
    w.connection k = none ∧
      w' = { w with connection := update w.connection k (some (t, candidate)) }
  | .loadConnection k, r, w' => (∃ u, w.connection k = some (u, r)) ∧ w' = w
  | .bind k ownerToken, r, w' => ∃ u connection fresh,
    w.connection k = some (u, connection) ∧ w.nowUs ≤ r.nowUs ∧
      let locked := bindLocked r.nowUs fresh ownerToken connection w.auth
      (r.result, r.info, r.pending) = locked.1 ∧
        w' = ⟨locked.2.2, r.nowUs, update w.connection k (some (u, locked.2.1))⟩
  | .validate k sessionId, r, w' => ∃ u connection,
    w.connection k = some (u, connection) ∧ w.nowUs ≤ r.nowUs ∧
      let locked := validateLocked r.nowUs sessionId connection w.auth
      (r.valid, r.pending) = locked.1 ∧ w' = { w with auth := locked.2, nowUs := r.nowUs }
  | .close k, r, w' => ∃ u connection, w.connection k = some (u, connection) ∧
    r = (closeLocked connection w.auth).1 ∧
      w' = { w with auth := (closeLocked connection w.auth).2 }
  | .free k, _, w' => w' = { w with connection := update w.connection k none }
  | .pair physicalUsb psk, r, w' => ∃ answers,
    r = (pairLocked hash answers physicalUsb psk w.auth).1 ∧
      w' = { w with auth := (pairLocked hash answers physicalUsb psk w.auth).2 }
  | .clear, r, w' => ∃ answers,
    r = (clearLocked answers w.auth).1 ∧ w' = { w with auth := (clearLocked answers w.auth).2 }
  | .expire, r, w' => (r = .zero ∧ w' = w) ∨ ∃ nowUs, w.nowUs ≤ nowUs ∧
    r = (expireOwnerLocked nowUs w.auth).1 ∧
      w' = { w with auth := (expireOwnerLocked nowUs w.auth).2, nowUs }
  | .setPairingWindow active, _, w' =>
    w' = { w with auth := { w.auth with pairingWindowActive := active } }

inductive AuthCall (K : Type) where
  | tlsAccept (socketValid : Bool)
  | sessionBind (connection : Option K) (ownerToken : Option (List Byte))
  | sessionValidate (connection : Option K) (sessionId : Word)
  | connectionClose (connection : Option K)
  | pair (request : Option (List Byte))
  | pairUsb (request : Option (List Byte))
  | clearNetworkConfiguration
  | expiryTimer
  | setPairingWindowActive (active : Bool)
  deriving DecidableEq

@[reducible] def AuthCall.Value : AuthCall K → Type
  | .tlsAccept _ => AuthResult × Option K
  | .sessionBind _ _ => AuthResult × Option SessionInfo
  | .sessionValidate _ _ => AuthResult
  | .connectionClose _ | .expiryTimer => Unit
  | .pair _ | .pairUsb _ => AuthResult × Option Secret
  | .clearNetworkConfiguration | .setPairingWindowActive _ => EspErr

/-- The connection that a call is about. -/
def AuthCall.connection? : AuthCall K → Option K
  | .sessionBind k _ | .sessionValidate k _ | .connectionClose k => k
  | _ => none

def AuthCall.code (initialized : Bool) : (c : AuthCall K) → AuthCode K c.Value
  | .tlsAccept socketValid => networkAuthTlsAccept initialized socketValid
  | .sessionBind connection ownerToken => networkAuthSessionBind connection ownerToken
  | .sessionValidate connection sessionId => networkAuthSessionValidate connection sessionId
  | .connectionClose connection => networkAuthConnectionClose initialized connection
  | .pair request => networkAuthPair initialized request
  | .pairUsb request => networkAuthPairUsb initialized request
  | .clearNetworkConfiguration => networkAuthClearNetworkConfiguration initialized
  | .expiryTimer => expiryTimerCallback
  | .setPairingWindowActive active => networkAuthSetPairingWindowActive initialized active

/-- Calls are made after the initialization, which no call undoes, and a connection is used by
the thread that accepted it, from its accept to its close: its fields are read outside the
mutex. -/
def authMachine [DecidableEq K] (hash : List Byte → Secret) :
    Machine T (AuthAct K) AuthAct.Answer (AuthWorld T K) (AuthCall K) AuthCall.Value where
  may t c w := w.auth.initialized = true ∧
    ∀ k ∈ c.connection?, ∃ connection, w.connection k = some (t, connection)
  code _ c w := c.code w.auth.initialized
  exec := AuthWorld.exec hash
  finish _ _ _ w := w

instance [DecidableEq T] [DecidableEq K] (hash : List Byte → Secret) (t : T) (c : AuthCall K)
    (w : AuthWorld T K) : Decidable ((authMachine hash).may t c w) :=
  decidable_of_iff (w.auth.initialized = true ∧
    ∀ k ∈ c.connection?, (w.connection k).map Prod.fst = some t) (by simp [authMachine])

section Answers

variable [DecidableEq K] (hash : List Byte → Secret) (address : K)

/-- A platform that does not fail, on which every connection gets the given address. -/
def AuthWorld.answer (t : T) (w : AuthWorld T K) :
    (a : AuthAct K) → Option (a.Answer × AuthWorld T K)
  | .allocate | .io _ => some (true, w)
  | .getFlags => some (some true, w)
  | .notify _ => some ((), w)
  | .accept => some ((acceptLocked w.auth).1, { w with auth := (acceptLocked w.auth).2 })
  | .releaseSlot => some ((), { w with auth := releaseHandshakeSlot w.auth })
  | .accepted candidate => some ((acceptedLocked candidate w.auth).1,
    { w with auth := (acceptedLocked candidate w.auth).2 })
  | .publish candidate =>
    if (w.connection address).isNone then
      some (address,
        { w with connection := update w.connection address (some (t, candidate)) })
    else none
  | .loadConnection k => (w.connection k).map fun found => (found.2, w)
  | .bind k ownerToken => (w.connection k).map fun found =>
    let locked := bindLocked w.nowUs .zero ownerToken found.2 w.auth
    (⟨locked.1.1, locked.1.2.1, locked.1.2.2, w.nowUs⟩,
      ⟨locked.2.2, w.nowUs, update w.connection k (some (found.1, locked.2.1))⟩)
  | .validate k sessionId => (w.connection k).map fun found =>
    let locked := validateLocked w.nowUs sessionId found.2 w.auth
    (⟨locked.1.1, locked.1.2, w.nowUs⟩, { w with auth := locked.2 })
  | .close k => (w.connection k).map fun found =>
    ((closeLocked found.2 w.auth).1, { w with auth := (closeLocked found.2 w.auth).2 })
  | .free k => some ((), { w with connection := update w.connection k none })
  | .pair physicalUsb psk =>
    let locked := pairLocked hash ⟨true, ConfigBoot.sound.toConfigAnswers⟩ physicalUsb psk w.auth
    some (locked.1, { w with auth := locked.2 })
  | .clear =>
    let locked := clearLocked ConfigBoot.sound.toConfigAnswers w.auth
    some (locked.1, { w with auth := locked.2 })
  | .expire =>
    let locked := expireOwnerLocked w.nowUs w.auth
    some (locked.1, { w with auth := locked.2 })
  | .setPairingWindow active =>
    some ((), { w with auth := { w.auth with pairingWindowActive := active } })

theorem AuthWorld.exec_answer (t : T) (w : AuthWorld T K) (a : AuthAct K)
    (r : a.Answer × AuthWorld T K) (h : w.answer hash address t a = some r) :
    w.exec hash t a r.1 r.2 := by
  cases a with
  | publish candidate =>
    simp only [AuthWorld.answer, Option.isNone_iff_eq_none] at h
    split_ifs at h with hfree
    cases h
    exact ⟨hfree, rfl⟩
  | loadConnection k =>
    obtain ⟨found, hk, rfl⟩ := Option.map_eq_some_iff.mp h
    exact ⟨⟨found.1, hk⟩, rfl⟩
  | bind k ownerToken =>
    obtain ⟨found, hk, rfl⟩ := Option.map_eq_some_iff.mp h
    exact ⟨found.1, found.2, .zero, hk, le_rfl, rfl, rfl⟩
  | validate k sessionId =>
    obtain ⟨found, hk, rfl⟩ := Option.map_eq_some_iff.mp h
    exact ⟨found.1, found.2, hk, le_rfl, rfl, rfl⟩
  | close k =>
    obtain ⟨found, hk, rfl⟩ := Option.map_eq_some_iff.mp h
    exact ⟨found.1, found.2, hk, rfl, rfl⟩
  | pair physicalUsb psk =>
    cases h
    exact ⟨_, rfl, rfl⟩
  | clear =>
    cases h
    exact ⟨_, rfl, rfl⟩
  | expire =>
    cases h
    exact .inr ⟨w.nowUs, le_rfl, rfl, rfl⟩
  | accept | accepted =>
    cases h
    exact ⟨rfl, rfl⟩
  | _ =>
    cases h
    rfl

end Answers

abbrev AuthEvent (T K : Type) :=
  Event T (AuthAct K) AuthAct.Answer (AuthWorld T K) (AuthCall K) AuthCall.Value

abbrev AuthConfig (T K : Type) :=
  Config T (AuthAct K) AuthAct.Answer (AuthWorld T K) (AuthCall K) AuthCall.Value

end AirDap

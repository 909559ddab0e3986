import AirDap.Auth.Credential

/-! What a history tells about the sessions and the connections, and what one operation does to
the owner, the counters and the connections. -/
namespace AirDap
open Concurrency

variable {T K : Type}

namespace AuthAct

/-- The session that a section creates. Only a bind without a token creates one. -/
def created : (a : AuthAct K) → a.Answer → Option Word
  | .bind _ none, r => if r.result = .ok then r.info.map SessionInfo.sessionId else none
  | _, _ => none

/-- The time at which a section binds or validates with success. -/
def activity : (a : AuthAct K) → a.Answer → Option ℤ
  | .bind _ _, r => if r.result = .ok then some r.nowUs else none
  | .validate _ _, r => if r.valid then some r.nowUs else none
  | _, _ => none

end AuthAct

/-- The session that has ended. -/
def PendingRevoke.ended (pending : PendingRevoke) : Option Word :=
  if pending.sessionId = 0 then none else some pending.sessionId

section Histories

/-- The sessions that were created, newest first. -/
def createdIds : List (AuthEvent T K) → List Word
  | [] => []
  | .acted _ a r _ :: h => (a.created r).toList ++ createdIds h
  | _ :: h => createdIds h

/-- The sessions that have ended, newest first. -/
def endedIds : List (AuthEvent T K) → List Word
  | [] => []
  | .acted _ a r _ :: h => (a.pending r).ended.toList ++ endedIds h
  | _ :: h => endedIds h

/-- The revocations that were delivered, newest first. -/
def revokedIds : List (AuthEvent T K) → List Word
  | [] => []
  | .acted _ (.notify sessionId) _ _ :: h => sessionId :: revokedIds h
  | _ :: h => revokedIds h

/-- The time of the last successful bind or validate. -/
def lastActivity : List (AuthEvent T K) → Option ℤ
  | [] => none
  | .acted _ a r _ :: h => (a.activity r).or (lastActivity h)
  | _ :: h => lastActivity h

/-- The connection is being closed: the section of its close has run. -/
def closing [DecidableEq K] (k : K) : List (AuthEvent T K) → Bool
  | [] => false
  | .acted _ (.close k') _ _ :: h => k' = k || closing k h
  | .acted _ (.publish _) k' _ :: h => k' ≠ k && closing k h
  | _ :: h => closing k h

end Histories

namespace AuthAct

/-- What a section does to the number of pending handshakes. -/
def handshakes : (a : AuthAct K) → a.Answer → ℕ → ℕ
  | .accept, .ok _, n => n + 1
  | .releaseSlot, _, n | .accepted _, _, n => n - 1
  | _, _, n => n

/-- What a section does to the number of bound connections. -/
def bindings : (a : AuthAct K) → a.Answer → ℕ → ℕ
  | .bind _ _, r, n => if r.result = .ok then n + 1 else n
  | .close _, _, n => n - 1
  | _, _, n => n

end AuthAct

section Effect

variable {hash : List Byte → Secret} {w w' : AuthWorld T K} {t : T} {auth auth' : Auth}

theorem Retires.of_same {pending : PendingRevoke} {auth'' : Auth} (hsame : SameOwner auth auth')
    (h : Retires auth' pending auth'') :
    ∃ mid, Retires auth pending mid ∧ SameOwner mid auth'' := by
  cases h with
  | keeps => exact ⟨auth, .keeps, hsame⟩
  | ends hactive =>
    rw [hsame.owner] at hactive
    rw [hsame.owner, hsame.revokeHandler]
    exact ⟨_, .ends hactive, hsame.initialized, hsame.credential, rfl, hsame.nextSessionId, rfl⟩

/-- The two counters are left as they are. -/
def SameCounts (auth auth' : Auth) : Prop :=
  auth'.pendingHandshakes = auth.pendingHandshakes ∧
    auth'.boundConnections = auth.boundConnections

theorem Retires.sameCounts {pending : PendingRevoke} (h : Retires auth pending auth') :
    SameCounts auth auth' := by
  cases h <;> exact ⟨rfl, rfl⟩

theorem AuthWorld.exec_effect [DecidableEq K] {a : AuthAct K} {r : a.Answer}
    (h : w.exec hash t a r w') :
    (∃ mid, Retires w.auth (a.pending r) mid ∧
      OwnerChange mid (a.created r) (a.activity r) w'.auth ∧ w.nowUs ≤ w'.nowUs ∧
      ∀ now ∈ a.activity r, now = w'.nowUs) ∧
    w'.auth.pendingHandshakes = a.handshakes r w.auth.pendingHandshakes ∧
      w'.auth.boundConnections = a.bindings r w.auth.boundConnections := by
  have hsame (hp : a.pending r = .zero) (hc : a.created r = none) (ha : a.activity r = none)
      (howner : SameOwner w.auth w'.auth) (htime : w.nowUs ≤ w'.nowUs) :
      ∃ mid, Retires w.auth (a.pending r) mid ∧
        OwnerChange mid (a.created r) (a.activity r) w'.auth ∧ w.nowUs ≤ w'.nowUs ∧
        ∀ now ∈ a.activity r, now = w'.nowUs := by
    rw [hp, hc, ha]
    exact ⟨w.auth, .keeps, .same howner, htime, by simp⟩
  cases a with
  | allocate | getFlags | io | notify | loadConnection =>
    have hw : w' = w := by simp_all [AuthWorld.exec]
    subst hw
    exact ⟨hsame rfl rfl rfl (.refl _) le_rfl, rfl, rfl⟩
  | publish =>
    obtain ⟨-, rfl⟩ := h
    exact ⟨hsame rfl rfl rfl (.refl _) le_rfl, rfl, rfl⟩
  | free =>
    cases h
    exact ⟨hsame rfl rfl rfl (.refl _) le_rfl, rfl, rfl⟩
  | setPairingWindow =>
    cases h
    exact ⟨hsame rfl rfl rfl ⟨rfl, rfl, rfl, rfl, rfl⟩ le_rfl, rfl, rfl⟩
  | accept =>
    obtain ⟨rfl, rfl⟩ := h
    refine ⟨hsame rfl rfl rfl ?_ le_rfl, ?_⟩
    · unfold acceptLocked
      split_ifs <;> exact ⟨rfl, rfl, rfl, rfl, rfl⟩
    · unfold acceptLocked
      split_ifs <;> exact ⟨rfl, rfl⟩
  | releaseSlot =>
    cases h
    rw [releaseHandshakeSlot_eq]
    exact ⟨⟨w.auth, .keeps, .same ⟨rfl, rfl, rfl, rfl, rfl⟩, le_rfl, by simp [AuthAct.activity]⟩,
      rfl, rfl⟩
  | accepted candidate =>
    obtain ⟨rfl, rfl⟩ := h
    rw [acceptedLocked, releaseHandshakeSlot_eq]
    exact ⟨⟨w.auth, .keeps, .same ⟨rfl, rfl, rfl, rfl, rfl⟩, le_rfl, by simp [AuthAct.activity]⟩,
      rfl, rfl⟩
  | bind k ownerToken =>
    obtain ⟨result, info, pending, nowUs⟩ := r
    obtain ⟨u, connection, fresh, -, htime, hr, rfl⟩ := h
    have hretires := expireOwnerLocked_retires nowUs w.auth
    have houtcome := bindLocked_outcome nowUs fresh ownerToken connection w.auth
    dsimp only at hr htime ⊢
    generalize bindLocked nowUs fresh ownerToken connection w.auth = locked at hr houtcome ⊢
    generalize expireOwnerLocked nowUs w.auth = expired at hretires houtcome
    have hcounts := hretires.sameCounts
    cases houtcome with
    | refused refusal hrefusal =>
      cases hr
      have hc : (AuthAct.bind k ownerToken).created
          ⟨result, none, expired.1, nowUs⟩ = none := by
        cases ownerToken <;> simp [AuthAct.created]
      rw [hc]
      refine ⟨⟨_, hretires, by simpa [AuthAct.activity, hrefusal] using .same (.refl _), htime,
        by simp [AuthAct.activity, hrefusal]⟩, hcounts.1, ?_⟩
      simpa [AuthAct.bindings, hrefusal] using hcounts.2
    | joined token current active =>
      cases hr
      exact ⟨⟨_, hretires, .refreshed nowUs active ⟨rfl, rfl, rfl, rfl, rfl⟩, htime,
        by simp [AuthAct.activity]⟩, hcounts.1, congrArg (· + 1) hcounts.2⟩
    | created info current inactive hinfo =>
      cases hr
      obtain ⟨hvalid, hgeneration, hfingerprint⟩ := credentialCurrent_iff.mp current
      refine ⟨⟨_, hretires, ?_, htime, by simp [AuthAct.activity]⟩, hcounts.1,
        congrArg (· + 1) hcounts.2⟩
      simp only [AuthAct.created, AuthAct.activity, if_true, Option.map_some, hinfo]
      refine .created nowUs fresh inactive hvalid ?_
      rw [hgeneration, hfingerprint]
      exact ⟨rfl, rfl, rfl, rfl, rfl⟩
  | validate k sessionId =>
    obtain ⟨u, connection, -, htime, hr, rfl⟩ := h
    obtain ⟨valid, pending, nowUs⟩ := r
    obtain ⟨auth', heq, rfl⟩ | ⟨heq, hactive, -⟩ :=
      validateLocked_outcome nowUs sessionId connection w.auth
    · simp only [heq] at hr ⊢
      cases hr
      have hretires := expireOwnerLocked_retires nowUs w.auth
      exact ⟨⟨_, hretires, .same (.refl _), htime, by simp [AuthAct.activity]⟩,
        hretires.sameCounts⟩
    · simp only [heq] at hr ⊢
      cases hr
      exact ⟨⟨_, .keeps, .refreshed nowUs hactive (.refl _), htime, by simp [AuthAct.activity]⟩,
        rfl, rfl⟩
  | close k =>
    obtain ⟨u, connection, -, rfl, rfl⟩ := h
    have hcount : SameOwner w.auth
        { w.auth with boundConnections := w.auth.boundConnections - 1 } :=
      ⟨rfl, rfl, rfl, rfl, rfl⟩
    have hclose := closeLocked_retires connection w.auth
    obtain ⟨mid, hretires, howner⟩ := Retires.of_same hcount hclose
    exact ⟨⟨mid, hretires, .same howner, le_rfl, by simp [AuthAct.activity]⟩, hclose.sameCounts⟩
  | pair physicalUsb psk =>
    obtain ⟨answers, hr, rfl⟩ := h
    have hretires := invalidateOwnerLocked_retires w.auth
    have houtcome := pairLocked_outcome hash answers physicalUsb psk w.auth
    generalize pairLocked hash answers physicalUsb psk w.auth = locked at hr houtcome ⊢
    subst hr
    cases houtcome with
    | refused =>
      exact ⟨⟨_, .keeps, .same (.refl _), le_rfl, by simp [AuthAct.activity]⟩, rfl, rfl⟩
    | repeated =>
      exact ⟨⟨_, .keeps, .same (.refl _), le_rfl, by simp [AuthAct.activity]⟩, rfl, rfl⟩
    | failed =>
      exact ⟨⟨_, .keeps, .same ⟨rfl, rfl, rfl, rfl, rfl⟩, le_rfl, by simp [AuthAct.activity]⟩,
        rfl, rfl⟩
    | paired =>
      exact ⟨⟨_, hretires, .credential (invalidateOwnerLocked_inactive w.auth)
        ⟨rfl, rfl, rfl, rfl, rfl⟩, le_rfl, by simp [AuthAct.activity]⟩, hretires.sameCounts⟩
  | clear =>
    obtain ⟨answers, hr, rfl⟩ := h
    have hretires := invalidateOwnerLocked_retires w.auth
    obtain ⟨-, heq⟩ | ⟨-, heq⟩ := clearLocked_outcome answers w.auth
    · rw [heq] at hr ⊢
      subst hr
      exact ⟨⟨_, .keeps, .same ⟨rfl, rfl, rfl, rfl, rfl⟩, le_rfl, by simp [AuthAct.activity]⟩,
        rfl, rfl⟩
    · rw [heq] at hr ⊢
      subst hr
      exact ⟨⟨_, hretires, .credential (invalidateOwnerLocked_inactive w.auth)
        ⟨rfl, rfl, rfl, rfl, rfl⟩, le_rfl, by simp [AuthAct.activity]⟩, hretires.sameCounts⟩
  | expire =>
    obtain ⟨rfl, rfl⟩ | ⟨nowUs, htime, rfl, rfl⟩ := h
    · exact ⟨hsame rfl rfl rfl (.refl _) le_rfl, rfl, rfl⟩
    · have hretires := expireOwnerLocked_retires nowUs w.auth
      exact ⟨⟨_, hretires, .same (.refl _), htime, by simp [AuthAct.activity]⟩,
        hretires.sameCounts⟩

theorem AuthWorld.exec_connection_eq [DecidableEq K] {a : AuthAct K} {r : a.Answer}
    (h : w.exec hash t a r w') (hpublish : ∀ published, a ≠ .publish published)
    (hbind : ∀ k ownerToken, a ≠ .bind k ownerToken) (hfree : ∀ k, a ≠ .free k) :
    w'.connection = w.connection := by
  cases a with
  | allocate | getFlags | io | notify | loadConnection =>
    have hw : w' = w := by simp_all [AuthWorld.exec]
    rw [hw]
  | publish published => exact absurd rfl (hpublish published)
  | bind k ownerToken => exact absurd rfl (hbind k ownerToken)
  | free k => exact absurd rfl (hfree k)
  | setPairingWindow | releaseSlot => exact h ▸ rfl
  | accept | accepted => exact h.2 ▸ rfl
  | validate k sessionId =>
    obtain ⟨u, connection, -, -, -, rfl⟩ := h
    rfl
  | close k =>
    obtain ⟨u, connection, -, -, rfl⟩ := h
    rfl
  | pair | clear =>
    obtain ⟨answers, -, rfl⟩ := h
    rfl
  | expire => obtain ⟨-, rfl⟩ | ⟨nowUs, -, -, rfl⟩ := h <;> rfl

theorem AuthWorld.exec_bind [DecidableEq K] {k : K} {ownerToken : Option (List Byte)}
    {r : BindAnswer} (h : w.exec hash t (.bind k ownerToken) r w') :
    ∃ u connection connection', w.connection k = some (u, connection) ∧
      w'.connection = Function.update w.connection k (some (u, connection')) ∧
      connection'.bound = (connection.bound || decide (r.result = .ok)) ∧
      connection'.credentialGeneration = connection.credentialGeneration ∧
      connection'.credentialFingerprint = connection.credentialFingerprint ∧
      (r.result = .ok → credentialCurrent w.auth connection = true) := by
  obtain ⟨u, connection, fresh, hk, -, hr, rfl⟩ := h
  refine ⟨u, connection, _, hk, rfl, ?_⟩
  have hcredential : (expireOwnerLocked r.nowUs w.auth).2.credential = w.auth.credential :=
    (expireOwnerLocked_retires r.nowUs w.auth).sameCredential.credential
  have hcurrent : credentialCurrent (expireOwnerLocked r.nowUs w.auth).2 connection =
      credentialCurrent w.auth connection := by
    unfold credentialCurrent
    rw [hcredential]
  have houtcome := bindLocked_outcome r.nowUs fresh ownerToken connection w.auth
  generalize bindLocked r.nowUs fresh ownerToken connection w.auth = locked at hr houtcome ⊢
  have hresult : r.result = locked.1.1 := congrArg Prod.fst hr
  rw [hresult]
  cases houtcome with
  | refused refusal hrefusal => simp [hrefusal]
  | joined _ current => simpa [← hcurrent] using current
  | created _ current => simpa [← hcurrent] using current

end Effect
end AirDap

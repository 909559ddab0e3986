import AirDap.Auth.Connections

/-! The logical owner session over every run of any threads. -/
namespace AirDap
open Concurrency

variable {T K : Type}

section Validated

variable [DecidableEq T] {hash : List Byte → Secret} {w w' : AuthWorld T K} {t : T}
  {h : List (AuthEvent T K)}

/-- A validate of the session on the connection that succeeds. -/
def AuthAct.validates (k : K) (sessionId : Word) : (a : AuthAct K) → a.Answer → Prop
  | .validate k' sessionId', r => k' = k ∧ sessionId' = sessionId ∧ r.valid = true
  | _, _ => False

theorem validate_of_place {k : K} {sessionId : Word}
    (hplace : (authProtocol.position t h).place = .validated k sessionId) :
    ∃ r w, .acted t (.validate k sessionId) r w ∈ sinceCall t h ∧ r.valid = true := by
  have hstart (c : AuthCall K) :
      c.connection?.elim AuthPlace.outside AuthPlace.given ≠ .validated k sessionId := by
    cases c.connection? <;> simp
  have hnext (x : AuthPosition K) (a : AuthAct K) (r : a.Answer)
      (hx : (x.next a r).place = .validated k sessionId) :
      x.place = .validated k sessionId ∨ a.validates k sessionId r := by
    simp only [AuthPosition.next] at hx
    cases a with
    | validate k' sessionId' =>
      simp only [AuthPlace.next] at hx
      split_ifs at hx with hvalid
      simp only [AuthPlace.validated.injEq] at hx
      exact .inr ⟨hx.1, hx.2, hvalid⟩
    | notify | allocate | getFlags | io => exact .inl hx
    | accept => cases r <;> cases hx
    | accepted candidate =>
      unfold AuthPlace.next at hx
      split at hx <;> simp_all
    | _ => cases hx
  obtain ⟨a, r, w, hmem, hvalidates⟩ := Protocol.acted_of_position (P := authProtocol)
    (fun x => x.place = .validated k sessionId) (AuthAct.validates k sessionId)
    (by simp [authProtocol]) (fun _ c _ => hstart c) hnext hplace
  cases a with
  | validate k' sessionId' =>
    obtain ⟨rfl, rfl, hvalid⟩ := hvalidates
    exact ⟨r, w, hmem, hvalid⟩
  | _ => cases hvalidates

/-- A validate whose section finds the owner valid finds a session that has not ended, less than
the timeout after the last activity; a validate that returns OK has run such a section. -/
def ValidateSound : AuthEvent T K → List (AuthEvent T K) → Prop
  | .acted _ (.validate _ sessionId) r _, h => r.valid = true →
    ((createdIds h).length < sessionIdLimit → sessionId ∉ endedIds h) ∧
      ∃ last, lastActivity h = some last ∧ r.nowUs - last < authSessionIdleTimeoutUs
  | .returned t (.sessionValidate connection sessionId) v, h => v = .ok →
    ∃ k r w, connection = some k ∧ .acted t (.validate k sessionId) r w ∈ sinceCall t h ∧
      r.valid = true
  | _, _ => True

theorem OwnerInv.sound [DecidableEq K] (hi : OwnerInv w h) {a : AuthAct K} {r : a.Answer}
    (hexec : w.exec hash t a r w') : ValidateSound (.acted t a r w) h := by
  cases a with
  | validate k sessionId =>
    intro hvalid
    obtain ⟨u, connection, -, htime, hr, -⟩ := hexec
    obtain ⟨auth', heq, -⟩ | ⟨-, hactive, hfresh, hid⟩ :=
      validateLocked_outcome r.nowUs sessionId connection w.auth
    · simp only [heq, Prod.mk.injEq] at hr
      rw [hr.1] at hvalid
      cases hvalid
    · obtain ⟨hlast, hpast⟩ := hi.activity hactive
      refine ⟨fun hfew hended => ?_, _, hlast, ?_⟩
      · exact ((hi.numbered hfew).retired sessionId).mp hended |>.2 ⟨hactive, hid⟩
      · have hpast := hpast.trans htime
        simp only [ownerExpiredAt, hactive, Bool.true_and, Bool.and_eq_false_iff,
          decide_eq_false_iff_not] at hfresh
        rcases hfresh with hfresh | hfresh
        · exact absurd hpast hfresh
        · exact Int.not_le.mp hfresh
  | _ => trivial

end Validated

variable [DecidableEq T] [DecidableEq K]

structure AuthInv (w : AuthWorld T K) (h : List (AuthEvent T K)) : Prop where
  owner : OwnerInv w h
  handshakes : HandshakeInv w h
  connections : ConnectionInv w h
  revocations : RevokeInv h
  sound : Always ValidateSound h

section Runs

variable {hash : List Byte → Secret} {w : AuthWorld T K}

omit [DecidableEq K] in
theorem AuthCall.returns.settled {c : AuthCall K} {v : c.Value} {x : AuthPosition K}
    (h : c.returns v x) : x.Settled := by
  cases c with
  | sessionValidate => exact h.1
  | _ => exact h

theorem AuthInv.called {h : List (AuthEvent T K)} {t : T} {c : AuthCall K} (hi : AuthInv w h)
    (hidle : authProtocol.position t h = (authProtocol : Protocol T _ _ _ _ _).idle)
    (hmay : (authMachine hash).may t c w) : AuthInv w (.called t c w :: h) := by
  have hstart : authProtocol.position t (.called t c w :: h) =
      ⟨c.connection?.elim .outside .given, none⟩ := Protocol.position_called_self
  refine ⟨hi.owner, hi.handshakes.quiet ?_ ?_, hi.connections.called hidle hmay,
    hi.revocations.quiet rfl rfl ?_, trivial, hi.sound⟩
  · rw [Event.thread, hidle]
    exact id
  · rw [Event.thread, hstart]
    cases c.connection? <;> exact id
  · rw [Event.thread, hstart, hidle]
    rfl

theorem AuthInv.returned {h : List (AuthEvent T K)} {t : T} {c : AuthCall K} {v : c.Value}
    (hi : AuthInv w h) (hreturns : c.returns v (authProtocol.position t h)) :
    AuthInv w (.returned t c v :: h) := by
  have hsettled := hreturns.settled
  refine ⟨hi.owner, hi.handshakes.quiet ?_ ?_, hi.connections.returned hsettled,
    hi.revocations.quiet rfl rfl ?_, ?_, hi.sound⟩
  · intro haccepting
    refine hsettled.2 ?_
    cases hplace : (authProtocol.position t h).place <;> rw [Event.thread, hplace] at haccepting
    all_goals first | exact haccepting.elim | trivial
  · rw [Event.thread, Protocol.position_returned_self]
    exact id
  · rw [Event.thread, Protocol.position_returned_self, hsettled.1]
    rfl
  · cases c with
    | sessionValidate connection sessionId =>
      intro hok
      obtain ⟨k, rfl, hplace⟩ := hreturns.2 hok
      obtain ⟨r, w', hmem, hvalid⟩ := validate_of_place hplace
      exact ⟨k, r, w', rfl, hmem, hvalid⟩
    | _ => trivial

theorem AuthInv.preserves (hash : List Byte → Secret) :
    authProtocol.Preserves (authMachine hash : Machine T (AuthAct K) _ _ _ _)
      (fun _ c => c.returns) AuthInv where
  called _ _ _ _ hi hidle hmay := hi.called hidle hmay
  acted w h t a r w' hi hallows hexec := by
    obtain ⟨mid, hretires, -⟩ := (AuthWorld.exec_effect hexec).1
    exact ⟨hi.owner.acted hexec, hi.handshakes.acted hallows hexec,
      hi.connections.acted hallows hexec,
      hi.revocations.acted hallows (hretires.due_eq hi.owner.revokeHandler),
      hi.owner.sound hexec, hi.sound⟩
  returned _ _ _ _ _ hi hreturns := hi.returned hreturns

theorem AuthWorld.Started.authInv (hstart : w.Started hash) : AuthInv w [] := by
  obtain ⟨_, _, config, boot, auth, -, -, hinit, hauth, hfree⟩ := hstart
  obtain ⟨identity, credential, -, -, rfl⟩ := networkAuthInit_ok hinit
  have hempty {φ : AuthPosition K → Prop} (hφ : ¬ φ ⟨.outside, none⟩) :
      (authProtocol : Protocol T _ _ (AuthWorld T K) (AuthCall K) _).threads φ
        ([] : List (AuthEvent T K)) = ∅ := by
    ext t
    exact iff_of_false hφ (Set.notMem_empty t)
  refine ⟨?_, ⟨?_, ?_⟩, ⟨fun _ => trivial, ?_, ?_⟩, ?_, trivial⟩
  · refine ⟨?_, ?_, ?_, ?_, fun _ => ⟨?_, ?_, ?_, ?_, ?_⟩⟩ <;>
      simp [hauth, Auth.cold, OwnerSession.zero, createdIds, endedIds]
  · rw [accepting, hempty id, hauth]
    simp [Auth.cold]
  · rw [hauth]
    exact Nat.zero_le _
  · simp [closing]
  · simp [hauth, Auth.cold, boundOpen, hfree]
  · intro sessionId
    rw [revoking, hempty (by simp)]
    simp [revokedIds, endedIds]

omit [DecidableEq T] [DecidableEq K] in
theorem length_createdIds_le (later h : List (AuthEvent T K)) :
    (createdIds h).length ≤ (createdIds (later ++ h)).length := by
  induction later with
  | nil => exact le_rfl
  | cons e later ih =>
    cases e with
    | acted t a r w =>
      simp only [List.cons_append, createdIds, List.length_append]
      omega
    | called => exact ih
    | returned => exact ih

end Runs

/-- In every run of the calls by any threads with fewer than `2 ^ 32 - 1` sessions: an active
owner has the active credential; the counters count the open bound connections and the accepts in
progress; the sessions that have ended are those that were created and are not the active one,
each was revoked once or exactly one call is about to revoke it, and no other session was or is
about to be revoked; a session that has ended is not found valid again, nor is one that has been
idle for the timeout, and a validate returns OK only if its section found it valid. -/
theorem owner_session_safe {hash : List Byte → Secret} {w₀ : AuthWorld T K}
    (hstart : w₀.Started hash) {σ : AuthConfig T K}
    (hrun : (authMachine hash).Steps (.start w₀) σ)
    (hfew : (createdIds σ.history).length < sessionIdLimit) :
    (σ.world.auth.owner.active = true → σ.world.auth.credential.valid = true ∧
      σ.world.auth.owner.credentialGeneration = σ.world.auth.credential.generation ∧
      σ.world.auth.owner.credentialFingerprint = σ.world.auth.credential.fingerprint) ∧
    ((σ.world.auth.boundConnections : ℕ∞) = (boundOpen σ.world σ.history).encard ∧
      (σ.world.auth.pendingHandshakes : ℕ∞) = (accepting σ.history).encard ∧
      σ.world.auth.pendingHandshakes ≤ authMaxPendingHandshakes) ∧
    ((∀ id, id ∈ endedIds σ.history ↔ id ∈ createdIds σ.history ∧
        ¬ (σ.world.auth.owner.active = true ∧ σ.world.auth.owner.sessionId = id)) ∧
      (∀ id ∈ endedIds σ.history,
        ((revokedIds σ.history).count id = 1 ∧ revoking id σ.history = ∅) ∨
          ((revokedIds σ.history).count id = 0 ∧ ∃ t, revoking id σ.history = {t})) ∧
      ∀ id ∉ endedIds σ.history,
        (revokedIds σ.history).count id = 0 ∧ revoking id σ.history = ∅) ∧
    (∀ later t k id r w h, σ.history = later ++ .acted t (.validate k id) r w :: h →
      r.valid = true → id ∉ endedIds h ∧
        ∃ last, lastActivity h = some last ∧ r.nowUs - last < authSessionIdleTimeoutUs) ∧
    ∀ later t k id h, σ.history = later ++ .returned t (.sessionValidate (some k) id) .ok :: h →
      ∃ r w, .acted t (.validate k id) r w ∈ sinceCall t h ∧ r.valid = true := by
  have hi := (hrun.held (authMachine_keeps hash) (AuthInv.preserves hash)
    (Protocol.held_start hstart.authInv)).inv
  have hnumbered := hi.owner.numbered hfew
  refine ⟨hi.owner.current, ⟨hi.connections.counted, hi.handshakes⟩,
    ⟨hnumbered.retired, fun id hid => ?_, fun id hid => hi.revocations.never hid⟩, ?_, ?_⟩
  · exact hi.revocations.once (List.count_eq_one_of_mem hnumbered.nodup hid)
  · intro later t k id r w h hsplit hvalid
    have hsound := hi.sound
    rw [hsplit] at hsound
    obtain ⟨hended, hlast⟩ := hsound.at hvalid
    refine ⟨hended ?_, hlast⟩
    rw [hsplit] at hfew
    exact (length_createdIds_le (later ++ [.acted t (.validate k id) r w]) h).trans_lt
      (by simpa using hfew)
  · intro later t k id h hsplit
    have hsound := hi.sound
    rw [hsplit] at hsound
    obtain ⟨_, r, w, ⟨⟩, hmem, hvalid⟩ := hsound.at rfl
    exact ⟨r, w, hmem, hvalid⟩

/-- A pairing, an accept and a bind of the new connection. -/
def boundRun : Option (AuthConfig Unit Unit) :=
  (authMachine fun _ => .zero).script (AuthWorld.answer (fun _ => .zero) ()) (
    [((), some (.pairUsb zeroKeyRequest)), ((), none)] ++
    ((), some (.tlsAccept true)) :: List.replicate 7 ((), none) ++
    [((), some (.sessionBind (some ()) none)), ((), none), ((), none)]) (.start provisionedAuth)

theorem boundRun_safe : ∃ σ, (authMachine fun _ => .zero).Steps (.start provisionedAuth) σ ∧
    createdIds σ.history = [1] ∧ (boundOpen σ.world σ.history).encard = 1 ∧
      σ.world.auth.credential.valid = true := by
  have hrun : boundRun.any (fun σ => createdIds σ.history = [1] ∧
      σ.world.auth.boundConnections = 1 ∧ σ.world.auth.owner.active = true) = true := by
    rfl
  obtain ⟨σ, hσ, hcheck⟩ := (Option.any_eq_true _ _).mp hrun
  obtain ⟨hcreated, hbound, hactive⟩ := of_decide_eq_true hcheck
  have hsteps := Machine.script_steps (AuthWorld.exec_answer _ ()) hσ
  obtain ⟨hcurrent, ⟨hcounted, -⟩, -⟩ := owner_session_safe provisionedAuth_started hsteps (by
    rw [hcreated]
    decide)
  refine ⟨σ, hsteps, hcreated, ?_, (hcurrent hactive).1⟩
  rw [← hcounted, hbound]
  rfl

end AirDap

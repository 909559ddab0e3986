import AirDap.Auth.Connections

/-! Connections that were authenticated with a credential that has changed since. A bind compares
the generation and the fingerprint that the accept copied with the active ones, and both can come
back. -/
namespace AirDap
open Concurrency Function

variable {T K : Type}

/-- A change of the credential that succeeded: a different key was stored, or the network
configuration was cleared. -/
inductive CredentialChange where
  | stored (fingerprint : Secret)
  | cleared
  deriving DecidableEq

/-- What a bind compares: the generation and the fingerprint. -/
abbrev Stamp := Word × Secret

def Credential.stamp (credential : Credential) : Option Stamp :=
  if credential.valid then some (credential.generation, credential.fingerprint) else none

def AuthConnection.stamp (connection : AuthConnection) : Stamp :=
  (connection.credentialGeneration, connection.credentialFingerprint)

/-- The generation that follows. -/
def generationAfter : Option Stamp → Word
  | none => 1
  | some stamp => if stamp.1 + 1 = 0 then 1 else stamp.1 + 1

def CredentialChange.apply : CredentialChange → Option Stamp → Option Stamp
  | .stored fingerprint, stamp => some (generationAfter stamp, fingerprint)
  | .cleared, _ => none

/-- The stamp after some changes, newest first. -/
def stampAfter (start : Stamp) (changes : List CredentialChange) : Option Stamp :=
  changes.foldr CredentialChange.apply (some start)

/-- After the changes the credential has the same generation and fingerprint again. -/
def Returned (start : Stamp) (changes : List CredentialChange) : Prop :=
  stampAfter start changes = some start

/-- The change that a section makes in the world `w`. -/
def AuthAct.change : (a : AuthAct K) → a.Answer → AuthWorld T K → Option CredentialChange
  | .pair _ psk, r, w =>
    if r.1 = .ok ∧ ¬ (w.auth.credential.valid = true ∧ w.auth.credential.psk = psk) then
      r.2.1.map .stored
    else none
  | .clear, r, _ => if r.1 = .ok then some .cleared else none
  | _, _, _ => none

/-- The changes since thread `t` last copied the credential in an accept. -/
def changesOfAccept [DecidableEq T] (t : T) : List (AuthEvent T K) → List CredentialChange
  | [] => []
  | .acted u .accept (.ok _) _ :: h => if u = t then [] else changesOfAccept t h
  | .acted _ a r w :: h => (a.change r w).toList ++ changesOfAccept t h
  | _ :: h => changesOfAccept t h

/-- The changes since the accept of the connection copied the credential. -/
def changesOfConnection [DecidableEq T] [DecidableEq K] (k : K) :
    List (AuthEvent T K) → List CredentialChange
  | [] => []
  | .acted t (.publish _) k' _ :: h =>
    if k' = k then changesOfAccept t h else changesOfConnection k h
  | .acted _ a r w :: h => (a.change r w).toList ++ changesOfConnection k h
  | _ :: h => changesOfConnection k h

section Change

variable {hash : List Byte → Secret} {w w' : AuthWorld T K} {t : T}

theorem nextGeneration_eq (credential : Credential) :
    nextGeneration credential = generationAfter credential.stamp := by
  unfold nextGeneration generationAfter Credential.stamp
  cases credential.valid
  · rfl
  · rfl

theorem AuthWorld.exec_change [DecidableEq K] {a : AuthAct K} {r : a.Answer}
    (hexec : w.exec hash t a r w') : w'.auth.credential.stamp =
      (a.change r w).elim w.auth.credential.stamp fun change =>
        change.apply w.auth.credential.stamp := by
  cases a with
  | pair physicalUsb psk =>
    obtain ⟨answers, hr, rfl⟩ := hexec
    have houtcome := pairLocked_outcome hash answers physicalUsb psk w.auth
    generalize pairLocked hash answers physicalUsb psk w.auth = locked at hr houtcome ⊢
    subst hr
    cases houtcome with
    | refused => simp [AuthAct.change]
    | repeated gate valid same =>
      have hsame : w.auth.credential.psk = psk := same
      simp [AuthAct.change, valid, hsame]
    | failed => simp [AuthAct.change]
    | paired gate different =>
      have hdifferent : ¬ (w.auth.credential.valid = true ∧ w.auth.credential.psk = psk) :=
        fun h => different h.1 h.2
      simp only [AuthAct.change, hdifferent, not_false_eq_true, and_self, if_true,
        Option.map_some, Option.elim_some, CredentialChange.apply, ← nextGeneration_eq]
      rfl
  | clear =>
    obtain ⟨answers, hr, rfl⟩ := hexec
    obtain ⟨hcleared, heq⟩ | ⟨-, heq⟩ := clearLocked_outcome answers w.auth
    · rw [heq] at hr ⊢
      subst hr
      simp [AuthAct.change, hcleared]
    · rw [heq] at hr ⊢
      subst hr
      rfl
  | _ =>
    have hsame := AuthWorld.exec_sameCredential hexec (by simp) (by simp)
    rw [hsame.credential]
    rfl

theorem stampAfter_append (start : Stamp) (change : Option CredentialChange)
    (changes : List CredentialChange) : stampAfter start (change.toList ++ changes) =
      change.elim (stampAfter start changes) fun change =>
        change.apply (stampAfter start changes) := by
  cases change <;> rfl

end Change

section Invariant

variable [DecidableEq T] [DecidableEq K] {hash : List Byte → Secret} {w w' : AuthWorld T K}
  {t u : T} {k : K} {h : List (AuthEvent T K)} {a : AuthAct K} {r : a.Answer}

/-- The candidate of an accept in progress. -/
def AuthPlace.candidate? : AuthPlace K → Option AuthConnection
  | .accepting candidate | .handshaken candidate => some candidate
  | _ => none

/-- The active stamp is the one that was copied, after the changes since. -/
structure RotationInv (w : AuthWorld T K) (h : List (AuthEvent T K)) : Prop where
  accept : ∀ t, ∀ candidate ∈ (authProtocol.position t h).place.candidate?,
    stampAfter candidate.stamp (changesOfAccept t h) = w.auth.credential.stamp
  connection : ∀ k u connection, w.connection k = some (u, connection) →
    stampAfter connection.stamp (changesOfConnection k h) = w.auth.credential.stamp

omit [DecidableEq K] in
theorem changesOfAccept_of_ne (hne : u ≠ t) : changesOfAccept u (.acted t a r w :: h) =
    (a.change r w).toList ++ changesOfAccept u h := by
  cases a with
  | accept =>
    cases r with
    | ok candidate => exact if_neg (Ne.symm hne)
    | error e => rfl
  | _ => rfl

omit [DecidableEq T] in
theorem RotationInv.follow (hexec : w.exec hash t a r w') {start : Stamp}
    {changes : List CredentialChange} (hi : stampAfter start changes = w.auth.credential.stamp) :
    stampAfter start ((a.change r w).toList ++ changes) = w'.auth.credential.stamp := by
  rw [stampAfter_append, hi, AuthWorld.exec_change hexec]

theorem RotationInv.acted (hi : RotationInv w h)
    (hallows : (authProtocol.position t h).allows a) (hexec : w.exec hash t a r w') :
    RotationInv w' (.acted t a r w :: h) := by
  constructor
  · intro u candidate hcandidate
    by_cases hu : t = u
    · subst hu
      rw [Protocol.position_acted_self] at hcandidate
      have hkept (hbefore : candidate ∈ (authProtocol.position t h).place.candidate?)
          (hlist : changesOfAccept t (.acted t a r w :: h) =
            (a.change r w).toList ++ changesOfAccept t h) :
          stampAfter candidate.stamp (changesOfAccept t (.acted t a r w :: h)) =
            w'.auth.credential.stamp := by
        rw [hlist]
        exact RotationInv.follow hexec (hi.accept t candidate hbefore)
      cases a with
      | notify | allocate | getFlags | io => exact hkept hcandidate rfl
      | accepted copied =>
        refine hkept ?_ rfl
        have hplace : (authProtocol.position t h).place = .accepting copied := hallows.2
        simp only [authProtocol, AuthPosition.next, AuthPlace.next] at hcandidate hplace ⊢
        rw [hplace] at hcandidate ⊢
        exact hcandidate
      | accept =>
        cases r with
        | error e => cases hcandidate
        | ok copied =>
          have hsame := AuthWorld.exec_sameCredential hexec (by simp) (by simp)
          cases hcandidate
          have hr : Except.ok candidate = (acceptLocked w.auth).1 := hexec.1
          have hlist : changesOfAccept t (.acted t .accept (.ok candidate) w :: h) = [] :=
            if_pos rfl
          rw [hlist, hsame.credential]
          unfold acceptLocked at hr
          split_ifs at hr with hvalid hfull
          cases hr
          simp only [Credential.stamp, Bool.not_eq_true', Bool.not_eq_false] at hvalid ⊢
          rw [if_pos hvalid]
          rfl
      | validate k' sessionId =>
        simp only [authProtocol, AuthPosition.next, AuthPlace.next] at hcandidate
        split_ifs at hcandidate <;> cases hcandidate
      | _ => cases hcandidate
    · have hposition : authProtocol.position u (.acted t a r w :: h) =
          authProtocol.position u h := Protocol.position_of_ne hu
      rw [hposition] at hcandidate
      rw [changesOfAccept_of_ne (Ne.symm hu)]
      exact RotationInv.follow hexec (hi.accept u candidate hcandidate)
  · intro k u connection hw
    have hkept {connection' : AuthConnection} (hbefore : w.connection k = some (u, connection'))
        (hstamp : connection.stamp = connection'.stamp)
        (hlist : changesOfConnection k (.acted t a r w :: h) =
          (a.change r w).toList ++ changesOfConnection k h) :
        stampAfter connection.stamp (changesOfConnection k (.acted t a r w :: h)) =
          w'.auth.credential.stamp := by
      rw [hlist, hstamp]
      exact RotationInv.follow hexec (hi.connection k u connection' hbefore)
    cases a with
    | publish published =>
      obtain ⟨-, candidate, hplace, rfl⟩ := hallows
      obtain ⟨hfree, rfl⟩ := hexec
      by_cases hk : r = k
      · subst hk
        have hlist : changesOfConnection r (.acted t (.publish
            { candidate with tlsAuthenticated := true }) r w :: h) = changesOfAccept t h :=
          if_pos rfl
        rw [hlist]
        simp only [update_self, Option.some.injEq, Prod.mk.injEq] at hw
        obtain ⟨-, rfl⟩ := hw
        exact hi.accept t candidate (by rw [hplace]; rfl)
      · dsimp only at hw
        rw [update_of_ne (Ne.symm hk)] at hw
        exact hkept hw rfl (if_neg hk)
    | bind k' ownerToken =>
      obtain ⟨u', connection', connection'', hk', hbind, -, hgeneration, hfingerprint, -⟩ :=
        AuthWorld.exec_bind hexec
      rw [hbind] at hw
      by_cases hk : k = k'
      · subst hk
        simp only [update_self, Option.some.injEq, Prod.mk.injEq] at hw
        obtain ⟨rfl, rfl⟩ := hw
        exact hkept hk' (Prod.ext hgeneration hfingerprint) rfl
      · rw [update_of_ne hk] at hw
        exact hkept hw rfl rfl
    | free k' =>
      obtain rfl : w' = _ := hexec
      by_cases hk : k = k'
      · subst hk
        simp at hw
      · dsimp only at hw
        rw [update_of_ne hk] at hw
        exact hkept hw rfl rfl
    | _ =>
      rw [AuthWorld.exec_connection_eq hexec (by simp) (by simp) (by simp)] at hw
      exact hkept hw rfl rfl

theorem RotationInv.called (hi : RotationInv w h) {c : AuthCall K} :
    RotationInv w (.called t c w :: h) := by
  refine ⟨fun u candidate hcandidate => ?_, hi.connection⟩
  by_cases hu : t = u
  · subst hu
    rw [Protocol.position_called_self] at hcandidate
    simp only [authProtocol] at hcandidate
    cases hk : c.connection? <;> rw [hk] at hcandidate <;> cases hcandidate
  · have hposition : authProtocol.position u (.called t c w :: h) = authProtocol.position u h :=
      Protocol.position_of_ne hu
    exact hi.accept u candidate (hposition ▸ hcandidate)

theorem RotationInv.returned (hi : RotationInv w h) {c : AuthCall K} {v : c.Value} :
    RotationInv w (.returned t c v :: h) := by
  refine ⟨fun u candidate hcandidate => ?_, hi.connection⟩
  by_cases hu : t = u
  · subst hu
    rw [Protocol.position_returned_self] at hcandidate
    cases hcandidate
  · have hposition : authProtocol.position u (.returned t c v :: h) =
        authProtocol.position u h := Protocol.position_of_ne hu
    exact hi.accept u candidate (hposition ▸ hcandidate)

/-- A bind that succeeds finds the stamp of its connection active. -/
def BindsCurrent : AuthEvent T K → List (AuthEvent T K) → Prop
  | .acted _ (.bind k _) r w, h => r.result = .ok → ∃ u connection,
    w.connection k = some (u, connection) ∧ connection.credentialGeneration ≠ 0 ∧
      stampAfter connection.stamp (changesOfConnection k h) = some connection.stamp
  | _, _ => True

theorem RotationInv.bindsCurrent (hi : RotationInv w h) (hp : Persisted hash w.auth)
    (hexec : w.exec hash t a r w') : BindsCurrent (.acted t a r w) h := by
  cases a with
  | bind k ownerToken =>
    intro hok
    obtain ⟨u, connection, _, hk, -, -, -, -, hcurrent⟩ := AuthWorld.exec_bind hexec
    obtain ⟨hvalid, hgeneration, hfingerprint⟩ := credentialCurrent_iff.mp (hcurrent hok)
    refine ⟨u, connection, hk, hgeneration ▸ (hp.paired hvalid).1, ?_⟩
    rw [hi.connection k u connection hk, Credential.stamp, if_pos hvalid, hgeneration,
      hfingerprint]
    rfl
  | _ => trivial

theorem rotation_preserves (hash : List Byte → Secret) :
    authProtocol.Preserves (authMachine hash : Machine T (AuthAct K) _ _ _ _)
      (fun _ c => c.returns)
      fun w h => Persisted hash w.auth ∧ RotationInv w h ∧ Always BindsCurrent h where
  called _ _ _ _ hi _ _ := ⟨hi.1, hi.2.1.called, trivial, hi.2.2⟩
  acted _ _ _ _ _ _ hi hallows hexec :=
    ⟨hi.1.exec hexec, hi.2.1.acted hallows hexec, hi.2.1.bindsCurrent hi.1 hexec, hi.2.2⟩
  returned _ _ _ _ _ hi _ := ⟨hi.1, hi.2.1.returned, trivial, hi.2.2⟩

end Invariant

section Generations

theorem toNat_generationAfter (stamp : Stamp) :
    (generationAfter (some stamp)).toNat = stamp.1.toNat % (2 ^ 32 - 1) + 1 := by
  have hlt := stamp.1.isLt
  have hsucc : (stamp.1 + 1).toNat = (stamp.1.toNat + 1) % 2 ^ 32 := by
    rw [BitVec.toNat_add]
    rfl
  simp only [generationAfter]
  split_ifs with hzero
  · rw [hzero] at hsucc
    have hsucc : 0 = (stamp.1.toNat + 1) % 2 ^ 32 := hsucc
    have hmax : stamp.1.toNat = 2 ^ 32 - 1 := by omega
    rw [hmax]
    rfl
  · have hnonzero : (stamp.1 + 1).toNat ≠ 0 := fun h => hzero (BitVec.eq_of_toNat_eq h)
    rw [hsucc] at hnonzero ⊢
    omega

/-- Without a clear the generation counts the keys that were stored. -/
theorem stampAfter_stored {start : Stamp} (hstart : start.1 ≠ 0)
    {changes : List CredentialChange} (hclear : .cleared ∉ changes) :
    ∃ stamp, stampAfter start changes = some stamp ∧ stamp.1 ≠ 0 ∧
      stamp.1.toNat = (start.1.toNat - 1 + changes.length) % (2 ^ 32 - 1) + 1 := by
  induction changes with
  | nil =>
    have hlt := start.1.isLt
    have hpos : start.1.toNat ≠ 0 := fun h => hstart (BitVec.eq_of_toNat_eq h)
    refine ⟨start, rfl, hstart, ?_⟩
    simp only [List.length_nil, Nat.add_zero]
    omega
  | cons change changes ih =>
    obtain ⟨stamp, hafter, hne, hgeneration⟩ := ih fun h => hclear (List.mem_cons_of_mem _ h)
    cases change with
    | cleared => exact absurd (List.mem_cons_self ..) hclear
    | stored fingerprint =>
      have hnext := toNat_generationAfter stamp
      refine ⟨(generationAfter (some stamp), fingerprint), ?_, ?_, ?_⟩
      · rw [← hafter]
        rfl
      · intro hzero
        have hzero : generationAfter (some stamp) = 0 := hzero
        rw [hzero] at hnext
        exact absurd hnext.symm (Nat.succ_ne_zero _)
      · rw [hnext, hgeneration, Nat.mod_add_mod, List.length_cons, Nat.add_assoc]

theorem Returned.eq_nil {start : Stamp} (hstart : start.1 ≠ 0)
    {changes : List CredentialChange} (hclear : .cleared ∉ changes)
    (hfew : changes.length < 2 ^ 32 - 1) (hback : Returned start changes) : changes = [] := by
  obtain ⟨stamp, hafter, -, hgeneration⟩ := stampAfter_stored hstart hclear
  cases hafter.symm.trans hback
  apply List.length_eq_zero_iff.mp
  have hlt := start.1.isLt
  have hstart : start.1.toNat ≠ 0 := fun h => hstart (BitVec.eq_of_toNat_eq h)
  omega

end Generations

theorem AuthWorld.Started.rotationInv [DecidableEq T] [DecidableEq K] {hash : List Byte → Secret}
    {w : AuthWorld T K} (hstart : w.Started hash) : RotationInv w [] := by
  obtain ⟨_, _, _, _, _, -, -, -, -, hfree⟩ := hstart
  refine ⟨fun t candidate hcandidate => ?_, fun k u connection hk => ?_⟩
  · cases hcandidate
  · rw [hfree k] at hk
    cases hk

/-- In every run, a bind that succeeds was made without a change of the credential since the
accept of its connection copied it, if no clear and fewer keys than there are generations came in
between. After whatever changes, a bind that succeeds means that the copied generation and
fingerprint have come back. -/
theorem bind_unchanged [DecidableEq T] [DecidableEq K] {hash : List Byte → Secret}
    {w₀ : AuthWorld T K} (hstart : w₀.Started hash) {σ : AuthConfig T K}
    (hrun : (authMachine hash).Steps (.start w₀) σ) {later h : List (AuthEvent T K)} {t : T} {k : K}
    {ownerToken : Option (List Byte)} {r : BindAnswer} {w : AuthWorld T K}
    (hbind : σ.history = later ++ .acted t (.bind k ownerToken) r w :: h)
    (hok : r.result = .ok) : ∃ u connection, w.connection k = some (u, connection) ∧
      (.cleared ∉ changesOfConnection k h → (changesOfConnection k h).length < 2 ^ 32 - 1 →
        changesOfConnection k h = []) ∧
      Returned connection.stamp (changesOfConnection k h) := by
  have hinv := (hrun.held (authMachine_keeps hash) (rotation_preserves hash)
    (Protocol.held_start ⟨hstart.persisted, hstart.rotationInv, trivial⟩)).inv
  have hcurrent := hinv.2.2
  rw [hbind] at hcurrent
  obtain ⟨u, connection, hk, hne, hback⟩ := hcurrent.at hok
  have hreturned : Returned connection.stamp (changesOfConnection k h) := hback
  exact ⟨u, connection, hk, fun hclear hfew => hreturned.eq_nil hne hclear hfew, hreturned⟩

/-- A key is paired, a connection is accepted, the configuration is cleared, the same key is
paired again and the connection is bound. -/
def repairedRun : Option (AuthConfig Unit Unit) :=
  (authMachine fun _ => .zero).script (AuthWorld.answer (fun _ => .zero) ()) (
    [((), some (.pairUsb zeroKeyRequest)), ((), none)] ++
    ((), some (.tlsAccept true)) :: List.replicate 7 ((), none) ++
    [((), some .clearNetworkConfiguration), ((), none)] ++
    [((), some (.pairUsb zeroKeyRequest)), ((), none)] ++
    [((), some (.sessionBind (some ()) none)), ((), none), ((), none)]) (.start provisionedAuth)

/-- The changes of the credential that the newest call, a bind that returned OK, has missed. -/
def missedByBind : List (AuthEvent Unit Unit) → Option (List CredentialChange)
  | .returned _ (.sessionBind (some k) _) (.ok, _) :: .acted _ (.bind k' _) r _ :: h =>
    if k' = k ∧ r.result = .ok then some (changesOfConnection k h) else none
  | _ => none

theorem missedByBind_eq_some {history : List (AuthEvent Unit Unit)}
    {changes : List CredentialChange} (hmissed : missedByBind history = some changes) :
    ∃ t t' token token' info r w h, history = .returned t (.sessionBind (some ()) token)
      (.ok, info) :: .acted t' (.bind () token') r w :: h ∧ r.result = .ok ∧
        changesOfConnection () h = changes := by
  unfold missedByBind at hmissed
  split at hmissed
  · split_ifs at hmissed with hok
    cases hmissed
    exact ⟨_, _, _, _, _, _, _, _, rfl, hok.2, rfl⟩
  · cases hmissed

theorem repairedRun_missed :
    (repairedRun.bind fun σ => missedByBind σ.history) = some [.stored .zero, .cleared] := by
  decide +kernel

/-- A bind returns OK although the configuration was cleared and a key was stored since. -/
theorem bind_after_repair : provisionedAuth.Started (fun _ => .zero) ∧
    ∃ σ, (authMachine fun _ => .zero).Steps (.start provisionedAuth) σ ∧
      ∃ t t' token token' info r w h, σ.history = .returned t (.sessionBind (some ()) token)
        (.ok, info) :: .acted t' (.bind () token') r w :: h ∧ r.result = .ok ∧
          changesOfConnection () h = [.stored .zero, .cleared] := by
  obtain ⟨σ, hσ, hmissed⟩ := Option.bind_eq_some_iff.mp repairedRun_missed
  exact ⟨provisionedAuth_started, σ, Machine.script_steps (AuthWorld.exec_answer _ ()) hσ,
    missedByBind_eq_some hmissed⟩

/-- In that run the copied generation and fingerprint are active again. -/
theorem bind_after_repair_returned : provisionedAuth.Started (fun _ => .zero) ∧
    ∃ σ, (authMachine fun _ => .zero).Steps (.start provisionedAuth) σ ∧
      ∃ later t token r w h u connection,
        σ.history = later ++ .acted t (.bind () token) r w :: h ∧ r.result = .ok ∧
          w.connection () = some (u, connection) ∧ changesOfConnection () h ≠ [] ∧
          Returned connection.stamp (changesOfConnection () h) := by
  obtain ⟨σ, hσ, hmissed⟩ := Option.bind_eq_some_iff.mp repairedRun_missed
  have hsteps := Machine.script_steps (AuthWorld.exec_answer _ ()) hσ
  obtain ⟨t, t', token, token', info, r, w, h, hhistory, hok, hchanges⟩ :=
    missedByBind_eq_some hmissed
  have hsplit : σ.history = [.returned t (.sessionBind (some ()) token) (.ok, info)] ++
      .acted t' (.bind () token') r w :: h := hhistory
  obtain ⟨u, connection, hconnection, -, hreturned⟩ :=
    bind_unchanged provisionedAuth_started hsteps hsplit hok
  refine ⟨provisionedAuth_started, σ, hsteps, _, t', token', r, w, h, u, connection, hsplit, hok,
    hconnection, ?_, hreturned⟩
  rw [hchanges]
  exact List.cons_ne_nil _ _

end AirDap

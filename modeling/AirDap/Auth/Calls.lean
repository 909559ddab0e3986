import AirDap.Auth.Machine

/-! What every call keeps to, whatever it is answered: it gives back the handshake slot that it
took, binds and closes a connection only as it found it, and delivers the revocation that its
section left to it. -/
namespace AirDap
open Concurrency Prog

variable {T K : Type}

/-- The revocation that is due. -/
def PendingRevoke.due (pending : PendingRevoke) : Option Word :=
  if pending.handler ∧ pending.sessionId ≠ 0 then some pending.sessionId else none

namespace AuthAct

/-- The revocation that a section leaves to its call. -/
def pending : (a : AuthAct K) → a.Answer → PendingRevoke
  | .bind _ _, r => r.pending
  | .validate _ _, r => r.pending
  | .close _, r | .expire, r => r
  | .pair _ _, r => r.2.2
  | .clear, r => r.2
  | _, _ => .zero

end AuthAct

/-- Where a call stands. -/
inductive AuthPlace (K : Type) where
  | outside
  | accepting (candidate : AuthConnection)
  | handshaken (candidate : AuthConnection)
  | given (k : K)
  | seen (k : K) (bound : Bool)
  | validated (k : K) (sessionId : Word)
  | closed (k : K)

structure AuthPosition (K : Type) where
  place : AuthPlace K
  owed : Option Word

namespace AuthPlace

/-- Where a call performs an operation. -/
def allows (x : AuthPlace K) : AuthAct K → Prop
  | .allocate | .accept | .pair _ _ | .clear | .expire | .setPairingWindow _ => x = .outside
  | .getFlags | .io _ | .releaseSlot => ∃ candidate, x = .accepting candidate
  | .accepted candidate => x = .accepting candidate
  | .publish published => ∃ candidate, x = .handshaken candidate ∧
    published = { candidate with tlsAuthenticated := true }
  | .loadConnection k => x = .given k
  | .bind k _ => x = .seen k false
  | .validate k _ | .close k => x = .seen k true
  | .free k => x = .seen k false ∨ x = .closed k
  | .notify _ => True

def next : AuthPlace K → (a : AuthAct K) → a.Answer → AuthPlace K
  | _, .accept, .ok candidate => .accepting candidate
  | .accepting candidate, .accepted _, _ => .handshaken candidate
  | _, .loadConnection k, r => .seen k r.bound
  | _, .validate k sessionId, r => if r.valid then .validated k sessionId else .outside
  | _, .close k, _ => .closed k
  | place, .allocate, _ | place, .getFlags, _ | place, .io _, _ | place, .notify _, _ => place
  | _, _, _ => .outside

/-- A call may not return here. -/
def pending : AuthPlace K → Prop
  | .accepting _ | .closed _ => True
  | _ => False

end AuthPlace

/-- A call that owes a revocation delivers it, and only frees its connection before that. -/
def AuthPosition.allows (x : AuthPosition K) : AuthAct K → Prop
  | .notify sessionId => x.owed = some sessionId
  | .free k => x.place.allows (.free k)
  | a => x.owed = none ∧ x.place.allows a

def AuthPosition.next (x : AuthPosition K) (a : AuthAct K) (r : a.Answer) : AuthPosition K where
  place := x.place.next a r
  owed :=
    match a with
    | .notify _ => none
    | .free _ => x.owed
    | a => (a.pending r).due

def authProtocol :
    Protocol T (AuthAct K) AuthAct.Answer (AuthWorld T K) (AuthCall K) (AuthPosition K) where
  idle := ⟨.outside, none⟩
  start _ c _ := ⟨c.connection?.elim .outside .given, none⟩
  allowed := AuthPosition.allows
  next := AuthPosition.next

/-- A call that may return. -/
def AuthPosition.Settled (x : AuthPosition K) : Prop := x.owed = none ∧ ¬ x.place.pending

/-- How a call returns. -/
def AuthCall.returns : (c : AuthCall K) → c.Value → AuthPosition K → Prop
  | .sessionValidate connection sessionId, v, x =>
    x.Settled ∧ (v = .ok → ∃ k, connection = some k ∧ x.place = .validated k sessionId)
  | _, _, x => x.Settled

section Follows

variable {x : AuthPosition K} {k : K} {α : Type} {φ : α → AuthPosition K → Prop}

/-- The code keeps to the positions from `x`, and `φ` holds where it returns. -/
abbrev AuthFollows (p : AuthCode K α) (φ : α → AuthPosition K → Prop) (x : AuthPosition K) : Prop :=
  p.Follows AuthPosition.allows AuthPosition.next φ x

theorem follows_perform {a : AuthAct K} {rest : a.Answer → AuthCode K α} (ha : x.allows a)
    (hrest : ∀ r, AuthFollows (rest r) φ (x.next a r)) :
    AuthFollows (perform a >>= rest) φ x := ⟨ha, hrest⟩

theorem follows_invokeRevoke_bind {pending : PendingRevoke} {rest : Unit → AuthCode K α}
    (hx : x.owed = pending.due)
    (hrest : AuthFollows (rest ()) φ ⟨x.place, none⟩) :
    AuthFollows (invokeRevoke pending >>= rest) φ x := by
  unfold invokeRevoke
  unfold PendingRevoke.due at hx
  split_ifs at hx ⊢
  · exact follows_perform hx fun _ => hrest
  · have hx' : x = ⟨x.place, none⟩ := by rw [← hx]
    rw [hx']
    exact hrest

theorem follows_invokeRevoke {pending : PendingRevoke} {φ : Unit → AuthPosition K → Prop}
    (hx : x.owed = pending.due) (hφ : φ () ⟨x.place, none⟩) :
    AuthFollows (invokeRevoke pending) φ x := by
  rw [← bind_ret (invokeRevoke pending)]
  exact follows_invokeRevoke_bind hx hφ

/-- Only the answers of the sections of a call change where it stands. -/
theorem follows_socketMode {candidate : AuthConnection} (nonblocking : Bool) (step : AcceptIo)
    {rest : Bool → AuthCode K α}
    (hrest : ∀ r, AuthFollows (rest r) φ ⟨.accepting candidate, none⟩) :
    AuthFollows (setSocketMode nonblocking step >>= rest) φ ⟨.accepting candidate, none⟩ := by
  cases nonblocking
  · exact follows_perform ⟨rfl, _, rfl⟩ hrest
  · exact hrest true

theorem follows_acceptHandshake (candidate : AuthConnection) :
    AuthFollows (acceptHandshake candidate : AuthCode K _)
      (fun _ x => x.Settled) ⟨.accepting candidate, none⟩ := by
  refine follows_perform ⟨rfl, _, rfl⟩ fun flags => ?_
  cases flags with
  | none => exact follows_perform ⟨rfl, _, rfl⟩ fun _ => ⟨rfl, id⟩
  | some nonblocking =>
    refine follows_socketMode nonblocking .setNonblocking fun set => ?_
    refine follows_ite (fun _ => ?_) fun _ => ?_
    · exact follows_perform ⟨rfl, _, rfl⟩ fun _ => ⟨rfl, id⟩
    · refine follows_perform ⟨rfl, _, rfl⟩ fun tls => ?_
      refine follows_ite (fun _ => ?_) fun _ => ?_
      · refine follows_socketMode nonblocking .restoreFlags fun _ => ?_
        exact follows_perform ⟨rfl, _, rfl⟩ fun _ => ⟨rfl, id⟩
      · refine follows_perform ⟨rfl, _, rfl⟩ fun handshaken => ?_
        refine follows_socketMode nonblocking .restoreFlags fun restored => ?_
        refine follows_perform ⟨rfl, rfl⟩ fun current => ?_
        refine follows_guard ⟨rfl, id⟩ fun _ => ?_
        refine follows_guard ⟨rfl, id⟩ fun _ => ?_
        refine follows_guard ⟨rfl, id⟩ fun _ => ?_
        exact follows_perform ⟨rfl, _, rfl, rfl⟩ fun _ => ⟨rfl, id⟩

theorem follows_tlsAccept (initialized socketValid : Bool) :
    AuthFollows (networkAuthTlsAccept initialized socketValid : AuthCode K _)
      (fun _ x => x.Settled) ⟨.outside, none⟩ := by
  refine follows_guard ⟨rfl, id⟩ fun _ => ?_
  refine follows_guard ⟨rfl, id⟩ fun _ => ?_
  refine follows_perform ⟨rfl, rfl⟩ fun allocated => ?_
  refine follows_guard ⟨rfl, id⟩ fun _ => ?_
  refine follows_perform ⟨rfl, rfl⟩ fun copied => ?_
  cases copied with
  | error e => exact ⟨rfl, id⟩
  | ok candidate => exact follows_acceptHandshake candidate

theorem follows_sessionBind (ownerToken : Option (List Byte)) :
    AuthFollows (networkAuthSessionBind (some k) ownerToken)
      (fun _ x => x.Settled) ⟨.given k, none⟩ := by
  refine follows_guard ⟨rfl, id⟩ fun _ => ?_
  refine follows_perform ⟨rfl, rfl⟩ fun found => ?_
  refine follows_guard ⟨rfl, id⟩ fun _ => ?_
  refine follows_guard ⟨rfl, id⟩ fun hbound => ?_
  have hallows : (AuthPlace.seen k found.bound).allows (.bind k ownerToken) := by
    rw [Bool.eq_false_iff.mpr hbound, AuthPlace.allows]
  exact follows_perform ⟨rfl, hallows⟩ fun r => follows_invokeRevoke_bind rfl ⟨rfl, id⟩

theorem follows_sessionValidate (sessionId : Word) :
    AuthFollows (networkAuthSessionValidate (some k) sessionId)
      (fun v x => x.Settled ∧ (v = .ok → x.place = .validated k sessionId)) ⟨.given k, none⟩ := by
  refine follows_guard ⟨⟨rfl, id⟩, by simp⟩ fun _ => ?_
  refine follows_perform ⟨rfl, rfl⟩ fun found => ?_
  refine follows_guard ⟨⟨rfl, id⟩, by simp⟩ fun hbound => ?_
  have hallows : (AuthPlace.seen k found.bound).allows (.validate k sessionId) := by
    have hbound : found.bound = true := by simp_all
    rw [hbound, AuthPlace.allows]
  refine follows_perform ⟨rfl, hallows⟩ fun r => follows_invokeRevoke_bind rfl ?_
  cases hvalid : r.valid
  · exact ⟨⟨rfl, by simp [AuthPosition.next, AuthPlace.next, AuthPlace.pending, hvalid]⟩, by simp⟩
  · exact ⟨⟨rfl, by simp [AuthPosition.next, AuthPlace.next, AuthPlace.pending, hvalid]⟩,
      fun _ => by simp [AuthPosition.next, AuthPlace.next, hvalid]⟩

theorem follows_connectionClose :
    AuthFollows (networkAuthConnectionClose true (some k))
      (fun _ x => x.Settled) ⟨.given k, none⟩ := by
  refine follows_perform ⟨rfl, rfl⟩ fun found => ?_
  refine follows_ite (fun hbound => ?_) fun hbound => ?_
  · have hallows : (AuthPlace.seen k found.bound).allows (.close k) := by
      have hbound : found.bound = true := by simpa using hbound
      rw [hbound, AuthPlace.allows]
    refine follows_perform ⟨rfl, hallows⟩ fun r => ?_
    exact follows_perform (.inr rfl) fun _ => follows_invokeRevoke rfl ⟨rfl, id⟩
  · have hallows : (AuthPlace.seen k found.bound).allows (.free k) := by
      have hbound : found.bound = false := by simpa using hbound
      rw [hbound]
      exact .inl rfl
    exact follows_perform hallows fun _ => ⟨rfl, id⟩

theorem follows_pairCredential (initialized : Bool) (request : Option (List Byte))
    (physicalUsb : Bool) :
    AuthFollows (pairCredential initialized request physicalUsb : AuthCode K _)
      (fun _ x => x.Settled) ⟨.outside, none⟩ := by
  cases request with
  | none => exact ⟨rfl, id⟩
  | some request =>
    refine follows_guard ⟨rfl, id⟩ fun _ => ?_
    refine follows_guard ⟨rfl, id⟩ fun _ => ?_
    refine follows_guard ⟨rfl, id⟩ fun _ => ?_
    exact follows_perform ⟨rfl, rfl⟩ fun r => follows_invokeRevoke_bind rfl ⟨rfl, id⟩

end Follows

theorem authMachine_keeps [DecidableEq K] (hash : List Byte → Secret) :
    (authMachine hash : Machine T (AuthAct K) _ _ _ _).Keeps authProtocol
      fun _ c => c.returns := by
  rintro t c w ⟨hinitialized, -⟩
  change (c.code w.auth.initialized).Follows _ _ _ _
  rw [hinitialized]
  cases c with
  | tlsAccept socketValid => exact follows_tlsAccept true socketValid
  | sessionBind connection ownerToken =>
    cases connection with
    | none => exact ⟨rfl, id⟩
    | some k => exact follows_sessionBind ownerToken
  | sessionValidate connection sessionId =>
    cases connection with
    | none => exact ⟨⟨rfl, id⟩, by simp⟩
    | some k =>
      refine (follows_sessionValidate sessionId).mono fun v x h => ⟨h.1, fun hv => ?_⟩
      exact ⟨k, rfl, h.2 hv⟩
  | connectionClose connection =>
    cases connection with
    | none => exact ⟨rfl, id⟩
    | some k => exact follows_connectionClose
  | pair request => exact follows_pairCredential true request false
  | pairUsb request => exact follows_pairCredential true request true
  | clearNetworkConfiguration =>
    exact follows_perform ⟨rfl, rfl⟩ fun r => follows_invokeRevoke_bind rfl ⟨rfl, id⟩
  | expiryTimer =>
    exact follows_perform ⟨rfl, rfl⟩ fun r => follows_invokeRevoke rfl ⟨rfl, id⟩
  | setPairingWindowActive active => exact follows_perform ⟨rfl, rfl⟩ fun _ => ⟨rfl, id⟩

end AirDap

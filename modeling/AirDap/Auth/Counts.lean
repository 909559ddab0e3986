import AirDap.Auth.Sessions

/-! The counters of handshakes and bound connections over any run, and the revocations: each
session that has ended was revoked, or one call is about to revoke it. -/
namespace AirDap
open Concurrency

variable {T K : Type} [DecidableEq T]

section Revocations

variable {w : AuthWorld T K} {t : T} {h : List (AuthEvent T K)}

/-- The calls that are about to revoke the session. -/
def revoking (sessionId : Word) (h : List (AuthEvent T K)) : Set T :=
  authProtocol.threads (fun x => x.owed = some sessionId) h

/-- Every session that ended is revoked once, by now or by one call that is about to. -/
def RevokeInv (h : List (AuthEvent T K)) : Prop :=
  ∀ sessionId, ((revokedIds h).count sessionId : ℕ∞) + (revoking sessionId h).encard =
    (endedIds h).count sessionId

theorem Retires.due_eq {auth auth' : Auth} {pending : PendingRevoke}
    (h : Retires auth pending auth') (hhandler : auth.revokeHandler = true) :
    pending.due = pending.ended := by
  cases h with
  | keeps => rfl
  | ends => simp [PendingRevoke.due, PendingRevoke.ended, hhandler]

section

variable (hi : RevokeInv h)
include hi

theorem RevokeInv.notify {sessionId : Word} {r : Unit}
    (howed : (authProtocol.position t h).owed = some sessionId) :
    RevokeInv (.acted t (.notify sessionId) r w :: h) := by
  intro id
  have hended : endedIds (.acted t (.notify sessionId) r w :: h) = endedIds h := rfl
  rw [hended, ← hi id]
  by_cases hid : sessionId = id
  · subst hid
    have hleave : (revoking sessionId h).encard =
        (revoking sessionId (.acted t (.notify sessionId) r w :: h)).encard + 1 :=
      Protocol.threads_leave howed (by simp [Event.thread, authProtocol, AuthPosition.next])
    rw [hleave]
    simp only [revokedIds, List.count_cons_self]
    push_cast
    rw [add_right_comm, add_assoc]
  · have hsame : revoking id (.acted t (.notify sessionId) r w :: h) = revoking id h := by
      refine Protocol.threads_same ?_
      simp only [Event.thread, Protocol.position_acted_self, howed, Option.some.injEq, hid]
      simp [authProtocol, AuthPosition.next]
    rw [hsame]
    simp only [revokedIds, List.count_cons_of_ne hid]

/-- A section that ends an owner leaves the revocation to its call. -/
theorem RevokeInv.section {a : AuthAct K} {r : a.Answer}
    (hrevoked : revokedIds (.acted t a r w :: h) = revokedIds h)
    (hbefore : (authProtocol.position t h).owed = none)
    (hafter : (authProtocol.position t (.acted t a r w :: h)).owed = (a.pending r).ended) :
    RevokeInv (.acted t a r w :: h) := by
  intro id
  simp only [hrevoked, endedIds]
  by_cases hid : (a.pending r).ended = some id
  · have henter : (revoking id (.acted t a r w :: h)).encard = (revoking id h).encard + 1 :=
      Protocol.threads_enter (by simp [Event.thread, hbefore]) (hafter.trans hid)
    rw [henter, ← add_assoc, hi id, hid]
    simp
  · have hsame : revoking id (.acted t a r w :: h) = revoking id h := by
      refine Protocol.threads_same ?_
      simp only [Event.thread, hafter, hbefore, hid]
      simp
    rw [hsame, hi id]
    cases hended : (a.pending r).ended with
    | none => simp
    | some other =>
      have hne : other ≠ id := fun heq => hid (heq ▸ hended)
      simp [List.count_cons_of_ne hne]

theorem RevokeInv.quiet {e : AuthEvent T K} (hrevoked : revokedIds (e :: h) = revokedIds h)
    (hended : endedIds (e :: h) = endedIds h)
    (howed : (authProtocol.position e.thread (e :: h)).owed =
      (authProtocol.position e.thread h).owed) : RevokeInv (e :: h) := by
  intro id
  have hsame : revoking id (e :: h) = revoking id h := Protocol.threads_same (by rw [howed])
  rw [hrevoked, hended, hsame]
  exact hi id

theorem RevokeInv.acted {a : AuthAct K} {r : a.Answer}
    (hallows : (authProtocol.position t h).allows a)
    (hdue : (a.pending r).due = (a.pending r).ended) : RevokeInv (.acted t a r w :: h) := by
  cases a with
  | notify sessionId => exact hi.notify hallows
  | free k => exact hi.quiet rfl rfl (by rw [Event.thread, Protocol.position_acted_self]; rfl)
  | _ =>
    refine hi.section rfl hallows.1 ?_
    rw [Protocol.position_acted_self, ← hdue]
    rfl

theorem RevokeInv.once {sessionId : Word} (hended : (endedIds h).count sessionId = 1) :
    ((revokedIds h).count sessionId = 1 ∧ revoking sessionId h = ∅) ∨
      ((revokedIds h).count sessionId = 0 ∧ ∃ t, revoking sessionId h = {t}) := by
  have hsum := hi sessionId
  rw [hended] at hsum
  rcases Nat.eq_zero_or_pos ((revokedIds h).count sessionId) with hzero | hpos
  · rw [hzero] at hsum
    exact .inr ⟨hzero, Set.encard_eq_one.mp (by simpa using hsum)⟩
  · have hle : (revokedIds h).count sessionId ≤ 1 := by
      have hle : ((revokedIds h).count sessionId : ℕ∞) ≤ (1 : ℕ) := hsum ▸ le_self_add
      exact_mod_cast hle
    have hone : (revokedIds h).count sessionId = 1 := by omega
    rw [hone] at hsum
    have hnone : (revoking sessionId h).encard = 0 :=
      ENat.add_right_injective_of_ne_top ENat.one_ne_top (by simpa using hsum)
    exact .inl ⟨hone, Set.encard_eq_zero.mp hnone⟩

theorem RevokeInv.never {sessionId : Word} (hended : sessionId ∉ endedIds h) :
    (revokedIds h).count sessionId = 0 ∧ revoking sessionId h = ∅ := by
  have hsum := hi sessionId
  rw [List.count_eq_zero_of_not_mem hended] at hsum
  simpa using hsum

end

end Revocations

theorem natCast_sub_one {n : ℕ} {s : ℕ∞} (h : (n : ℕ∞) = s + 1) : ((n - 1 : ℕ) : ℕ∞) = s := by
  cases n with
  | zero => exact absurd h.symm (by simp)
  | succ n => exact ENat.add_left_injective_of_ne_top ENat.one_ne_top (by simpa using h)

/-- The call has taken a slot for a handshake and not given it back. -/
def AuthPlace.Accepting : AuthPlace K → Prop
  | .accepting _ => True
  | _ => False

section Handshakes

variable {hash : List Byte → Secret} {w w' : AuthWorld T K} {t : T} {h : List (AuthEvent T K)}

/-- The accepts in progress. -/
def accepting (h : List (AuthEvent T K)) : Set T :=
  authProtocol.threads (fun x => x.place.Accepting) h

def HandshakeInv (w : AuthWorld T K) (h : List (AuthEvent T K)) : Prop :=
  (w.auth.pendingHandshakes : ℕ∞) = (accepting h).encard ∧
    w.auth.pendingHandshakes ≤ authMaxPendingHandshakes

/-- Only an accept that copies the credential takes a slot, and only the two ways out of the
handshake give it back. -/
theorem AuthPosition.accepting_next {x : AuthPosition K} {a : AuthAct K} {r : a.Answer}
    (hallows : x.allows a) (hsame : ∀ n, a.handshakes r n = n) :
    (x.next a r).place.Accepting ↔ x.place.Accepting := by
  obtain ⟨place, owed⟩ := x
  have hother {place' : AuthPlace K} (hplace : place = place') (h : ¬ place'.Accepting)
      (hnext : ¬ (place'.next a r).Accepting) :
      (place.next a r).Accepting ↔ place.Accepting := by
    subst hplace
    exact iff_of_false hnext h
  cases a with
  | notify sessionId | getFlags | io => rfl
  | releaseSlot => exact absurd (hsame 1) (by simp [AuthAct.handshakes])
  | accepted candidate => exact absurd (hsame 1) (by simp [AuthAct.handshakes])
  | accept =>
    cases r with
    | ok candidate => exact absurd (hsame 0) (by simp [AuthAct.handshakes])
    | error e => exact hother hallows.2 id id
  | free k =>
    obtain hplace | hplace := hallows
    · exact hother hplace id id
    · exact hother hplace id id
  | publish published =>
    obtain ⟨-, candidate, hplace, -⟩ := hallows
    exact hother hplace id id
  | validate k sessionId =>
    refine hother hallows.2 id ?_
    simp only [AuthPlace.next]
    split <;> exact id
  | _ => exact hother hallows.2 id id

theorem HandshakeInv.acted [DecidableEq K] {a : AuthAct K} {r : a.Answer} (hi : HandshakeInv w h)
    (hallows : (authProtocol.position t h).allows a) (hexec : w.exec hash t a r w') :
    HandshakeInv w' (.acted t a r w :: h) := by
  have hcount := (AuthWorld.exec_effect hexec).2.1
  have hquiet (hsame : ∀ n, a.handshakes r n = n) : HandshakeInv w' (.acted t a r w :: h) := by
    have hthreads : accepting (.acted t a r w :: h) = accepting h := by
      refine Protocol.threads_same ?_
      rw [Event.thread, Protocol.position_acted_self]
      exact AuthPosition.accepting_next hallows hsame
    unfold HandshakeInv
    rw [hcount, hsame, hthreads]
    exact hi
  have hleave (hn : ∀ n, a.handshakes r n = n - 1)
      (hbefore : (authProtocol.position t h).place.Accepting)
      (hafter : ¬ ((authProtocol.position t h).next a r).place.Accepting) :
      HandshakeInv w' (.acted t a r w :: h) := by
    have hthreads : (accepting h).encard = (accepting (.acted t a r w :: h)).encard + 1 := by
      refine Protocol.threads_leave hbefore ?_
      rw [Event.thread, Protocol.position_acted_self]
      exact hafter
    unfold HandshakeInv
    rw [hcount, hn]
    exact ⟨natCast_sub_one (hi.1.trans hthreads), (Nat.sub_le _ _).trans hi.2⟩
  cases a with
  | accept =>
    cases r with
    | error e => exact hquiet fun _ => rfl
    | ok candidate =>
      have hplace : (authProtocol.position t h).place = .outside := hallows.2
      have hthreads : (accepting (.acted t .accept (.ok candidate) w :: h)).encard =
          (accepting h).encard + 1 := by
        refine Protocol.threads_enter ?_ ?_
        · rw [Event.thread, hplace]
          exact id
        · rw [Event.thread, Protocol.position_acted_self]
          trivial
      have hroom : w.auth.pendingHandshakes < authMaxPendingHandshakes := by
        have hr : Except.ok candidate = (acceptLocked w.auth).1 := hexec.1
        unfold acceptLocked at hr
        split_ifs at hr with hvalid hfull
        exact Nat.not_le.mp hfull
      unfold HandshakeInv
      rw [hcount, hthreads, ← hi.1]
      exact ⟨Nat.cast_succ _, hroom⟩
  | releaseSlot =>
    obtain ⟨-, copied, hplace⟩ := hallows
    exact hleave (fun _ => rfl) (hplace ▸ trivial) id
  | accepted candidate =>
    have hplace : (authProtocol.position t h).place = .accepting candidate := hallows.2
    refine hleave (fun _ => rfl) (hplace ▸ trivial) ?_
    simp only [AuthPosition.next, AuthPlace.next, hplace]
    exact id
  | _ => exact hquiet fun _ => rfl

theorem HandshakeInv.quiet {e : AuthEvent T K} (hi : HandshakeInv w h)
    (hbefore : ¬ (authProtocol.position e.thread h).place.Accepting)
    (hafter : ¬ (authProtocol.position e.thread (e :: h)).place.Accepting) :
    HandshakeInv w (e :: h) := by
  have hthreads : accepting (e :: h) = accepting h :=
    Protocol.threads_same (iff_of_false hafter hbefore)
  unfold HandshakeInv
  rw [hthreads]
  exact hi

end Handshakes
end AirDap

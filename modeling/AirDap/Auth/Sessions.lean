import AirDap.Auth.Effects

/-! The owner session over any run: its credential is the active one, each session that ends is
revoked once, and no session that has ended or expired is found valid. -/
namespace AirDap
open Concurrency

variable {T K : Type}

/-- Fewer sessions than this have different ids. -/
def sessionIdLimit : ℕ := 2 ^ 32 - 1

/-- The ids of sessions count them, and the one of an active owner has not ended. -/
structure Numbered (auth : Auth) (created ended : List Word) : Prop where
  next : auth.nextSessionId.toNat = created.length + 1
  range : ∀ id ∈ created, 0 < id.toNat ∧ id.toNat ≤ created.length
  active : auth.owner.active = true → auth.owner.sessionId ∈ created
  retired : ∀ id, id ∈ ended ↔
    id ∈ created ∧ ¬ (auth.owner.active = true ∧ auth.owner.sessionId = id)
  nodup : ended.Nodup

section Numbered

variable {auth auth' : Auth} {pending : PendingRevoke} {created ended : List Word}
  {new : Option Word} {now : Option ℤ}

theorem Numbered.congr (h : Numbered auth created ended) (howner : auth'.owner = auth.owner)
    (hnext : auth'.nextSessionId = auth.nextSessionId) : Numbered auth' created ended := by
  refine ⟨?_, h.range, ?_, ?_, h.nodup⟩
  · rw [hnext]
    exact h.next
  · rw [howner]
    exact h.active
  · rw [howner]
    exact h.retired

theorem Retires.numbered (h : Retires auth pending auth') (hn : Numbered auth created ended) :
    Numbered auth' created (pending.ended.toList ++ ended) := by
  cases h with
  | keeps => exact hn
  | ends hactive =>
    have hmem := hn.active hactive
    have hne : auth.owner.sessionId ≠ 0 := by
      intro hzero
      have := (hn.range _ hmem).1
      rw [hzero] at this
      exact absurd this (by decide)
    have hended : (PendingRevoke.mk auth.revokeHandler auth.owner.sessionId).ended =
        some auth.owner.sessionId := if_neg hne
    rw [hended]
    refine ⟨hn.next, hn.range, ?_, ?_, ?_⟩
    · intro h
      cases h
    · intro id
      simp only [Option.toList_some, List.singleton_append, List.mem_cons, hn.retired id]
      constructor
      · rintro (rfl | ⟨hid, -⟩)
        · exact ⟨hmem, by simp [OwnerSession.zero]⟩
        · exact ⟨hid, by simp [OwnerSession.zero]⟩
      · rintro ⟨hid, -⟩
        by_cases heq : id = auth.owner.sessionId
        · exact .inl heq
        · exact .inr ⟨hid, fun h => heq h.2.symm⟩
    · simp only [Option.toList_some, List.singleton_append, List.nodup_cons]
      refine ⟨?_, hn.nodup⟩
      rw [hn.retired]
      rintro ⟨-, h⟩
      exact h ⟨hactive, rfl⟩

theorem OwnerChange.numbered (h : OwnerChange auth new now auth')
    (hn : Numbered auth created ended)
    (hbound : (new.toList ++ created).length < sessionIdLimit) :
    Numbered auth' (new.toList ++ created) ended := by
  cases h with
  | same h => exact hn.congr h.owner h.nextSessionId
  | credential _ h => exact hn.congr h.owner h.nextSessionId
  | refreshed nowUs hactive h =>
    refine ⟨?_, hn.range, ?_, ?_, hn.nodup⟩
    · rw [h.nextSessionId]
      exact hn.next
    · rw [h.owner]
      exact hn.active
    · rw [h.owner]
      exact hn.retired
  | created nowUs token hinactive hvalid h =>
    have hlength : created.length + 1 < sessionIdLimit := by simpa using hbound
    have hnext := hn.next
    have hfresh : auth.nextSessionId ∉ created := by
      intro hmem
      have := (hn.range _ hmem).2
      omega
    refine ⟨?_, ?_, ?_, ?_, hn.nodup⟩
    · rw [h.nextSessionId]
      have hsucc : (auth.nextSessionId + 1).toNat = created.length + 2 := by
        unfold sessionIdLimit at hlength
        rw [BitVec.toNat_add, hnext, show (1 : Word).toNat = 1 from rfl,
          Nat.mod_eq_of_lt (by omega)]
      have hne : auth.nextSessionId + 1 ≠ 0 := by
        intro hzero
        rw [hzero] at hsucc
        cases hsucc
      simp only [allocateSessionId, if_neg hne, hsucc]
      rfl
    · intro id hid
      simp only [Option.toList_some, List.singleton_append, List.mem_cons,
        List.length_cons] at hid ⊢
      rcases hid with rfl | hid
      · omega
      · have := hn.range id hid
        omega
    · rw [h.owner]
      simp
    · intro id
      rw [hn.retired id, h.owner]
      simp only [hinactive, Option.toList_some, List.singleton_append, List.mem_cons]
      constructor
      · rintro ⟨hid, -⟩
        refine ⟨.inr hid, ?_⟩
        rintro ⟨-, rfl⟩
        exact hfresh hid
      · rintro ⟨rfl | hid, hne⟩
        · exact absurd ⟨trivial, rfl⟩ hne
        · exact ⟨hid, by simp⟩

end Numbered

/-- What holds of the owner, given the sessions that were created and have ended and the time of
the last activity. -/
structure OwnerState (auth : Auth) (nowUs : ℤ) (created ended : List Word) (last : Option ℤ) :
    Prop where
  initialized : auth.initialized = true
  revokeHandler : auth.revokeHandler = true
  current : auth.owner.active = true → auth.credential.valid = true ∧
    auth.owner.credentialGeneration = auth.credential.generation ∧
    auth.owner.credentialFingerprint = auth.credential.fingerprint
  activity : auth.owner.active = true →
    last = some auth.owner.lastActivityUs ∧ auth.owner.lastActivityUs ≤ nowUs
  numbered : created.length < sessionIdLimit → Numbered auth created ended

section Owner

variable {auth auth' mid : Auth} {nowUs nowUs' : ℤ} {created ended : List Word} {last : Option ℤ}
  {pending : PendingRevoke} {new : Option Word} {now : Option ℤ}

theorem OwnerState.retires (h : OwnerState auth nowUs created ended last)
    (hretires : Retires auth pending mid) :
    OwnerState mid nowUs created (pending.ended.toList ++ ended) last := by
  have hnumbered (hbound : created.length < sessionIdLimit) :=
    hretires.numbered (h.numbered hbound)
  cases hretires with
  | keeps => exact ⟨h.initialized, h.revokeHandler, h.current, h.activity, hnumbered⟩
  | ends =>
    refine ⟨h.initialized, h.revokeHandler, ?_, ?_, hnumbered⟩
    · intro hactive
      cases hactive
    · intro hactive
      cases hactive

theorem OwnerState.changes (h : OwnerState auth nowUs created ended last)
    (hchange : OwnerChange auth new now auth') (htime : nowUs ≤ nowUs')
    (hnow : ∀ n ∈ now, n = nowUs') :
    OwnerState auth' nowUs' (new.toList ++ created) ended (now.or last) := by
  have hnumbered (hbound : (new.toList ++ created).length < sessionIdLimit) :
      Numbered auth' (new.toList ++ created) ended := by
    refine hchange.numbered (h.numbered ?_) hbound
    rw [List.length_append] at hbound
    omega
  cases hchange with
  | same hs =>
    refine ⟨hs.initialized.trans h.initialized, hs.revokeHandler.trans h.revokeHandler, ?_, ?_,
      hnumbered⟩
    · rw [hs.owner, hs.credential]
      exact h.current
    · rw [hs.owner]
      exact fun hactive => ⟨(h.activity hactive).1, (h.activity hactive).2.trans htime⟩
  | credential hinactive hs =>
    have hinactive : auth'.owner.active ≠ true := by simp [hs.owner, hinactive]
    exact ⟨hs.initialized.trans h.initialized, hs.revokeHandler.trans h.revokeHandler,
      fun hactive => absurd hactive hinactive, fun hactive => absurd hactive hinactive, hnumbered⟩
  | refreshed n hactive hs =>
    refine ⟨hs.initialized.trans h.initialized, hs.revokeHandler.trans h.revokeHandler, ?_, ?_,
      hnumbered⟩
    · rw [hs.owner, hs.credential]
      exact h.current
    · rw [hs.owner]
      exact fun _ => ⟨rfl, (hnow n rfl).le⟩
  | created n token hinactive hvalid hs =>
    refine ⟨hs.initialized.trans h.initialized, hs.revokeHandler.trans h.revokeHandler, ?_, ?_,
      hnumbered⟩
    · rw [hs.owner, hs.credential]
      exact fun _ => ⟨hvalid, rfl, rfl⟩
    · rw [hs.owner]
      exact fun _ => ⟨rfl, (hnow n rfl).le⟩

end Owner

def OwnerInv (w : AuthWorld T K) (h : List (AuthEvent T K)) : Prop :=
  OwnerState w.auth w.nowUs (createdIds h) (endedIds h) (lastActivity h)

theorem OwnerInv.acted [DecidableEq K] {hash : List Byte → Secret} {w w' : AuthWorld T K} {t : T}
    {h : List (AuthEvent T K)} {a : AuthAct K} {r : a.Answer} (hi : OwnerInv w h)
    (hexec : w.exec hash t a r w') : OwnerInv w' (.acted t a r w :: h) := by
  obtain ⟨mid, hretires, hchange, htime, hnow⟩ := (AuthWorld.exec_effect hexec).1
  exact (OwnerState.retires hi hretires).changes hchange htime hnow

end AirDap

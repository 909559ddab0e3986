import AirDap.Auth.Counts

/-! The connections over any run: each is used by one thread, and the counter of bound
connections counts those that are bound and not being closed. -/
namespace AirDap
open Concurrency Function

variable {T K : Type} [DecidableEq T] [DecidableEq K]

/-- What thread `t` may rely on at a place. -/
def AuthPlace.Holds (w : AuthWorld T K) (h : List (AuthEvent T K)) (t : T) : AuthPlace K → Prop
  | .outside | .validated _ _ => True
  | .accepting candidate | .handshaken candidate => candidate.bound = false
  | .given k => ∃ connection, w.connection k = some (t, connection) ∧ closing k h = false
  | .seen k bound => ∃ connection, w.connection k = some (t, connection) ∧
    connection.bound = bound ∧ closing k h = false
  | .closed k => ∃ connection, w.connection k = some (t, connection) ∧ closing k h = true

/-- The open connections that were bound. -/
def boundOpen (w : AuthWorld T K) (h : List (AuthEvent T K)) : Set K :=
  {k | ∃ u connection, w.connection k = some (u, connection) ∧ connection.bound = true ∧
    closing k h = false}

structure ConnectionInv (w : AuthWorld T K) (h : List (AuthEvent T K)) : Prop where
  used : ∀ t, (authProtocol.position t h).place.Holds w h t
  closed : ∀ k u connection, closing k h = true → w.connection k = some (u, connection) →
    (authProtocol.position u h).place = .closed k
  counted : (w.auth.boundConnections : ℕ∞) = (boundOpen w h).encard

section Steps

variable {hash : List Byte → Secret} {w w' : AuthWorld T K} {t u : T}
  {h : List (AuthEvent T K)} {e : AuthEvent T K} {k : K} {connection : AuthConnection}

omit [DecidableEq T] in
theorem AuthPlace.Holds.frame {place : AuthPlace K} (hp : place.Holds w h u)
    (hconnection : ∀ k connection, w.connection k = some (u, connection) →
      w'.connection k = some (u, connection) ∧ closing k (e :: h) = closing k h) :
    place.Holds w' (e :: h) u := by
  cases place with
  | outside | validated => trivial
  | accepting | handshaken => exact hp
  | given k =>
    obtain ⟨connection, hk, hopen⟩ := hp
    obtain ⟨hk', hclosing⟩ := hconnection k connection hk
    exact ⟨connection, hk', hclosing.trans hopen⟩
  | seen k bound =>
    obtain ⟨connection, hk, hbound, hopen⟩ := hp
    obtain ⟨hk', hclosing⟩ := hconnection k connection hk
    exact ⟨connection, hk', hbound, hclosing.trans hopen⟩
  | closed k =>
    obtain ⟨connection, hk, hopen⟩ := hp
    obtain ⟨hk', hclosing⟩ := hconnection k connection hk
    exact ⟨connection, hk', hclosing.trans hopen⟩

section

variable (hi : ConnectionInv w h)
include hi

theorem ConnectionInv.step (ht : e.thread = t) (hframe : ∀ k u connection, u ≠ t →
      (w'.connection k = some (u, connection) ↔ w.connection k = some (u, connection)))
    (hclosing : ∀ k u connection, u ≠ t → w.connection k = some (u, connection) →
      closing k (e :: h) = closing k h)
    (hown : (authProtocol.position t (e :: h)).place.Holds w' (e :: h) t)
    (hclosed : ∀ k connection, closing k (e :: h) = true →
      w'.connection k = some (t, connection) →
      (authProtocol.position t (e :: h)).place = .closed k)
    (hcounted : (w'.auth.boundConnections : ℕ∞) = (boundOpen w' (e :: h)).encard) :
    ConnectionInv w' (e :: h) := by
  refine ⟨fun u => ?_, fun k u connection hk hw => ?_, hcounted⟩
  · by_cases hu : u = t
    · subst hu
      exact hown
    · rw [Protocol.position_of_ne fun heq => hu (heq.symm.trans ht)]
      exact (hi.used u).frame fun k connection hk =>
        ⟨(hframe k u connection hu).mpr hk, hclosing k u connection hu hk⟩
  · by_cases hu : u = t
    · subst hu
      exact hclosed k connection hk hw
    · have hw := (hframe k u connection hu).mp hw
      rw [hclosing k u connection hu hw] at hk
      rw [Protocol.position_of_ne fun heq => hu (heq.symm.trans ht)]
      exact hi.closed k u connection hk hw

theorem ConnectionInv.quiet (ht : e.thread = t) (hconnection : w'.connection = w.connection)
    (hclosing : ∀ k, closing k (e :: h) = closing k h)
    (hbound : w'.auth.boundConnections = w.auth.boundConnections)
    (hown : (authProtocol.position t (e :: h)).place.Holds w h t)
    (hkeep : ∀ k, (authProtocol.position t h).place = .closed k →
      (authProtocol.position t (e :: h)).place = .closed k) : ConnectionInv w' (e :: h) := by
  refine hi.step ht ?_ ?_ ?_ ?_ ?_
  · intro k u connection _
    rw [hconnection]
  · intro k u connection _ _
    exact hclosing k
  · exact hown.frame fun k connection hk => ⟨hconnection ▸ hk, hclosing k⟩
  · intro k connection hk hw
    rw [hclosing] at hk
    rw [hconnection] at hw
    exact hkeep k (hi.closed k t connection hk hw)
  · have hset : boundOpen w' (e :: h) = boundOpen w h := by
      simp only [boundOpen, hconnection, hclosing]
    rw [hbound, hset]
    exact hi.counted

/-- An event that touches one connection, which is free or belongs to its thread. -/
theorem ConnectionInv.touch (ht : e.thread = t)
    (hother : ∀ k' ≠ k, w'.connection k' = w.connection k' ∧ closing k' (e :: h) = closing k' h)
    (hbefore : ∀ u connection, w.connection k = some (u, connection) → u = t)
    (hafter : ∀ u connection, w'.connection k = some (u, connection) → u = t)
    (hplace : ∀ k' ≠ k, (authProtocol.position t h).place ≠ .closed k')
    (hown : (authProtocol.position t (e :: h)).place.Holds w' (e :: h) t)
    (hclosed : closing k (e :: h) = true → ∀ connection, w'.connection k = some (t, connection) →
      (authProtocol.position t (e :: h)).place = .closed k)
    (hcounted : (w'.auth.boundConnections : ℕ∞) = (boundOpen w' (e :: h)).encard) :
    ConnectionInv w' (e :: h) := by
  refine hi.step ht ?_ ?_ hown ?_ hcounted
  · intro k' u connection hu
    by_cases hk : k' = k
    · subst hk
      exact ⟨fun hw => absurd (hafter u connection hw) hu,
        fun hw => absurd (hbefore u connection hw) hu⟩
    · rw [(hother k' hk).1]
  · intro k' u connection hu hw
    by_cases hk : k' = k
    · subst hk
      exact absurd (hbefore u connection hw) hu
    · exact (hother k' hk).2
  · intro k' connection hclosing hw
    by_cases hk : k' = k
    · subst hk
      exact hclosed hclosing connection hw
    · rw [(hother k' hk).1] at hw
      rw [(hother k' hk).2] at hclosing
      exact absurd (hi.closed k' t connection hclosing hw) (hplace k' hk)

theorem ConnectionInv.publish {published : AuthConnection}
    (hplace : (authProtocol.position t h).place.allows (.publish published))
    (hfree : w.connection k = none)
    (hw : w' = { w with connection := update w.connection k (some (t, published)) }) :
    ConnectionInv w' (.acted t (.publish published) k w :: h) := by
  obtain ⟨candidate, hplace, hpublished⟩ := hplace
  have hunbound : published.bound = false := by
    have hused := hi.used t
    rw [hplace] at hused
    rw [hpublished]
    exact hused
  have hself : w'.connection k = some (t, published) := by
    rw [hw]
    exact update_self ..
  have hopen : closing k (.acted t (.publish published) k w :: h) = false := by
    simp [closing]
  have hother (k' : K) (hne : k' ≠ k) : w'.connection k' = w.connection k' ∧
      closing k' (.acted t (.publish published) k w :: h) = closing k' h := by
    rw [hw]
    exact ⟨update_of_ne hne .., by simp [closing, Ne.symm hne]⟩
  refine hi.touch (t := t) (k := k) rfl hother ?_ ?_ ?_ ?_ ?_ ?_
  · simp [hfree]
  · simp [hself]
  · simp [hplace]
  · rw [Protocol.position_acted_self]
    trivial
  · simp [hopen]
  · have hset : boundOpen w' (.acted t (.publish published) k w :: h) = boundOpen w h := by
      ext k'
      by_cases hne : k' = k
      · subst hne
        simp [boundOpen, hself, hfree, hunbound]
      · simp [boundOpen, hother k' hne]
    rw [hset, ← hi.counted, hw]

theorem ConnectionInv.bind {ownerToken : Option (List Byte)} {r : BindAnswer}
    (hplace : (authProtocol.position t h).place = .seen k false)
    (hexec : w.exec hash t (.bind k ownerToken) r w') :
    ConnectionInv w' (.acted t (.bind k ownerToken) r w :: h) := by
  obtain ⟨u, connection, connection', hk, hw, hbound, -⟩ := AuthWorld.exec_bind hexec
  have hcount := (AuthWorld.exec_effect hexec).2.2
  have hused := hi.used t
  rw [hplace] at hused
  obtain ⟨_, hk', hunbound, hopen⟩ := hused
  cases hk.symm.trans hk'
  rw [hunbound, Bool.false_or] at hbound
  have hself : w'.connection k = some (t, connection') := by
    rw [hw]
    exact update_self ..
  have hother (k' : K) (hne : k' ≠ k) : w'.connection k' = w.connection k' ∧
      closing k' (.acted t (.bind k ownerToken) r w :: h) = closing k' h := by
    rw [hw]
    exact ⟨update_of_ne hne .., rfl⟩
  have hopen' : closing k (.acted t (.bind k ownerToken) r w :: h) = false := hopen
  refine hi.touch (t := t) (k := k) rfl hother ?_ ?_ ?_ ?_ ?_ ?_
  · simp [hk]
  · simp [hself]
  · simp [hplace]
  · rw [Protocol.position_acted_self]
    trivial
  · simp [hopen']
  · have hnot : k ∉ boundOpen w h := by simp [boundOpen, hk, hunbound]
    by_cases hok : r.result = .ok
    · have hset : boundOpen w' (.acted t (.bind k ownerToken) r w :: h) =
          insert k (boundOpen w h) := by
        ext k'
        by_cases hne : k' = k
        · subst hne
          simp [boundOpen, hself, hopen', hbound, hok]
        · simp [boundOpen, hother k' hne, hne]
      rw [hcount, hset, Set.encard_insert_of_notMem hnot, ← hi.counted]
      simp [AuthAct.bindings, hok]
    · have hset : boundOpen w' (.acted t (.bind k ownerToken) r w :: h) = boundOpen w h := by
        ext k'
        by_cases hne : k' = k
        · subst hne
          simp [boundOpen, hself, hk, hbound, hok, hunbound]
        · simp [boundOpen, hother k' hne]
      rw [hcount, hset, ← hi.counted]
      simp [AuthAct.bindings, hok]

theorem ConnectionInv.close {r : PendingRevoke}
    (hplace : (authProtocol.position t h).place = .seen k true)
    (hexec : w.exec hash t (.close k) r w') : ConnectionInv w' (.acted t (.close k) r w :: h) := by
  have hcount := (AuthWorld.exec_effect hexec).2.2
  have hw : w'.connection = w.connection := by
    obtain ⟨u, connection, -, -, rfl⟩ := hexec
    rfl
  have hused := hi.used t
  rw [hplace] at hused
  obtain ⟨connection, hk, hbound, hopen⟩ := hused
  have hclosing : closing k (.acted t (.close k) r w :: h) = true := by simp [closing]
  have hother (k' : K) (hne : k' ≠ k) : w'.connection k' = w.connection k' ∧
      closing k' (.acted t (.close k) r w :: h) = closing k' h :=
    ⟨by rw [hw], by simp [closing, Ne.symm hne]⟩
  have hnext : (authProtocol.position t (.acted t (.close k) r w :: h)).place = .closed k := by
    rw [Protocol.position_acted_self]
    rfl
  refine hi.touch (t := t) (k := k) rfl hother ?_ ?_ ?_ ?_ ?_ ?_
  · simp [hk]
  · simp [hw, hk]
  · simp [hplace]
  · rw [hnext]
    exact ⟨connection, hw ▸ hk, hclosing⟩
  · exact fun _ _ _ => hnext
  · have hnot : k ∉ boundOpen w' (.acted t (.close k) r w :: h) := by simp [boundOpen, hclosing]
    have hset : boundOpen w h = insert k (boundOpen w' (.acted t (.close k) r w :: h)) := by
      ext k'
      by_cases hne : k' = k
      · subst hne
        simp [boundOpen, hk, hbound, hopen]
      · simp [boundOpen, hother k' hne, hne]
    have hcounted := hi.counted
    rw [hset, Set.encard_insert_of_notMem hnot] at hcounted
    rw [hcount]
    exact natCast_sub_one hcounted

theorem ConnectionInv.free {r : Unit} (hplace : (authProtocol.position t h).place.allows (.free k))
    (hw : w' = { w with connection := update w.connection k none }) :
    ConnectionInv w' (.acted t (.free k) r w :: h) := by
  have hused := hi.used t
  have hmine : (∀ k' ≠ k, (authProtocol.position t h).place ≠ .closed k') ∧
      ∃ connection, w.connection k = some (t, connection) ∧
        (connection.bound = false ∨ closing k h = true) := by
    obtain hplace | hplace := hplace
    · rw [hplace] at hused ⊢
      obtain ⟨connection, hk, hbound, -⟩ := hused
      exact ⟨by simp, connection, hk, .inl hbound⟩
    · rw [hplace] at hused ⊢
      obtain ⟨connection, hk, hclosing⟩ := hused
      exact ⟨fun k' hne heq => hne (AuthPlace.closed.inj heq).symm, connection, hk, .inr hclosing⟩
  obtain ⟨hclosed, connection, hk, hgone⟩ := hmine
  have hself : w'.connection k = none := by
    rw [hw]
    exact update_self ..
  have hother (k' : K) (hne : k' ≠ k) : w'.connection k' = w.connection k' ∧
      closing k' (.acted t (.free k) r w :: h) = closing k' h := by
    rw [hw]
    exact ⟨update_of_ne hne .., rfl⟩
  refine hi.touch (t := t) (k := k) rfl hother ?_ ?_ hclosed ?_ ?_ ?_
  · simp [hk]
  · simp [hself]
  · rw [Protocol.position_acted_self]
    trivial
  · simp [hself]
  · have hset : boundOpen w' (.acted t (.free k) r w :: h) = boundOpen w h := by
      ext k'
      by_cases hne : k' = k
      · subst hne
        rcases hgone with hgone | hgone <;> simp [boundOpen, hself, hk, hgone]
      · simp [boundOpen, hother k' hne]
    rw [hset, ← hi.counted, hw]

theorem ConnectionInv.acted {a : AuthAct K} {r : a.Answer}
    (hallows : (authProtocol.position t h).allows a) (hexec : w.exec hash t a r w') :
    ConnectionInv w' (.acted t a r w :: h) := by
  have hcount := (AuthWorld.exec_effect hexec).2.2
  have hused := hi.used t
  -- a call that leaves the connections alone does not stand where it has closed one
  have hquiet {place : AuthPlace K} (hplace : (authProtocol.position t h).place = place)
      (hopen : ∀ k, place ≠ .closed k)
      (hclosing : ∀ k, closing k (.acted t a r w :: h) = closing k h)
      (hbound : w'.auth.boundConnections = w.auth.boundConnections)
      (hown : (place.next a r).Holds w h t) (hpublish : ∀ published, a ≠ .publish published)
      (hbind : ∀ k ownerToken, a ≠ .bind k ownerToken) (hfree : ∀ k, a ≠ .free k) :
      ConnectionInv w' (.acted t a r w :: h) := by
    refine hi.quiet (t := t) rfl (AuthWorld.exec_connection_eq hexec hpublish hbind hfree) hclosing
      hbound ?_ ?_
    · rw [Protocol.position_acted_self]
      rw [← hplace] at hown
      exact hown
    · intro k hk
      exact absurd (hplace.symm.trans hk) (hopen k)
  cases a with
  | notify sessionId =>
    refine hi.quiet (t := t) rfl ?_ (fun _ => rfl) hcount ?_ ?_
    · rw [show w' = w from hexec]
    · rw [Protocol.position_acted_self]
      exact hused
    · intro k hk
      rw [Protocol.position_acted_self]
      exact hk
  | publish published => exact hi.publish hallows.2 hexec.1 hexec.2
  | bind k ownerToken => exact hi.bind hallows.2 hexec
  | close k => exact hi.close hallows.2 hexec
  | free k => exact hi.free hallows hexec
  | loadConnection k =>
    have hplace : (authProtocol.position t h).place = .given k := hallows.2
    rw [hplace] at hused
    obtain ⟨connection, hk, hopen⟩ := hused
    obtain ⟨u, hk'⟩ := hexec.1
    cases hk.symm.trans hk'
    refine hquiet hplace ?_ (fun _ => rfl) hcount ⟨_, hk, rfl, hopen⟩ ?_ ?_ ?_ <;> simp
  | accept =>
    refine hquiet hallows.2 ?_ (fun _ => rfl) hcount ?_ ?_ ?_ ?_ <;> try simp
    obtain ⟨rfl, -⟩ := hexec
    unfold acceptLocked
    split_ifs
    · trivial
    · trivial
    · rfl
  | getFlags | io =>
    obtain ⟨-, candidate, hplace⟩ := hallows
    rw [hplace] at hused
    refine hquiet hplace ?_ (fun _ => rfl) hcount hused ?_ ?_ ?_ <;> simp
  | releaseSlot =>
    obtain ⟨-, candidate, hplace⟩ := hallows
    refine hquiet hplace ?_ (fun _ => rfl) hcount trivial ?_ ?_ ?_ <;> simp
  | accepted candidate =>
    have hplace : (authProtocol.position t h).place = .accepting candidate := hallows.2
    rw [hplace] at hused
    refine hquiet hplace ?_ (fun _ => rfl) hcount hused ?_ ?_ ?_ <;> simp
  | validate k sessionId =>
    have hnext : (AuthPlace.next (.seen k true) (.validate k sessionId) r).Holds w h t := by
      simp only [AuthPlace.next]
      split <;> trivial
    refine hquiet hallows.2 ?_ (fun _ => rfl) hcount hnext ?_ ?_ ?_ <;> simp
  | pair | clear | expire | allocate | setPairingWindow =>
    refine hquiet hallows.2 ?_ (fun _ => rfl) hcount trivial ?_ ?_ ?_ <;> simp

theorem ConnectionInv.called {c : AuthCall K}
    (hidle : authProtocol.position t h = (authProtocol : Protocol T _ _ _ _ _).idle)
    (hmay : (authMachine hash).may t c w) : ConnectionInv w (.called t c w :: h) := by
  have hplace : (authProtocol.position t h).place = .outside := by rw [hidle]; rfl
  refine hi.quiet (t := t) rfl rfl (fun _ => rfl) rfl ?_ ?_
  · rw [Protocol.position_called_self]
    cases hk : c.connection? with
    | none =>
      simp only [authProtocol, hk]
      trivial
    | some k =>
      obtain ⟨connection, hw⟩ := hmay.2 k hk
      simp only [authProtocol, hk]
      refine ⟨connection, hw, ?_⟩
      -- it would be its own close that has begun
      by_contra hclosing
      rw [hi.closed k t connection (by simpa using hclosing) hw] at hplace
      cases hplace
  · simp [hplace]

theorem ConnectionInv.returned {c : AuthCall K} {v : c.Value}
    (hsettled : (authProtocol.position t h).Settled) : ConnectionInv w (.returned t c v :: h) := by
  refine hi.quiet (t := t) rfl rfl (fun _ => rfl) rfl ?_ ?_
  · rw [Protocol.position_returned_self]
    trivial
  · intro k hk
    have hpending := hsettled.2
    rw [hk] at hpending
    exact absurd trivial hpending

end

end Steps
end AirDap

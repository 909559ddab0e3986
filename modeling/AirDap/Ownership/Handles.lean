import AirDap.Ownership.Specs

/-! Threads that keep operation handles in their memory. A handle `h` reserves the word
under the key `key h`, and every key is used by one thread. -/
namespace AirDap
open Concurrency

variable {T H K I : Type} {J : I → Type} {C : Type} {V : C → Type}

/-- The handle `h` is live exactly while it reserves the word, and then names its owner and
generation. -/
def HandleOk (key : H → K) (h : H) (s : DState T K J (H → Operation) C V) : Prop :=
  ((s.world.memory h).active = false ∧ ∀ o, s.ghost.phase ≠ .lent o (key h)) ∨
    ∃ o, s.ghost.phase = .lent o (key h) ∧ s.world.memory h = ⟨heldCode o, s.ghost.word, true⟩

/-- What a thread knows between its steps. A call that has reserved the word and not returned
yet has still to write its handle `busy`. -/
structure Owned (user : K → T) (key : H → K) (t : T) (busy : Option H)
    (s : DState T K J (H → Operation) C V) : Prop where
  tracks : Tracks s
  handle : ∀ h, user (key h) = t → busy ≠ some h → HandleOk key h s

/-- What every step of thread `t` obeys. -/
structure Legal (user : K → T) (key : H → K) (t : T)
    (s s' : DState T K J (H → Operation) C V) : Prop where
  step : ∃ m, s.ghost.Step user t m s'.ghost
  tracks : Tracks s'
  memory : ∀ h, user (key h) ≠ t → s'.world.memory h = s.world.memory h
  event : ∃ e : Event T (Act I) (Resp J) (Device (H → Operation)) C V,
    e.thread = t ∧ s'.history = e :: s.history

variable {user : K → T} {key : H → K} {t u : T} {s s' : DState T K J (H → Operation) C V} {h : H}
  {busy : Option H}

theorem HandleOk.of_eq (hs : HandleOk key h s) (hmem : s'.world.memory h = s.world.memory h)
    (hlent : ∀ o, s'.ghost.phase = .lent o (key h) ↔ s.ghost.phase = .lent o (key h))
    (hghost : ∀ o, s.ghost.phase = .lent o (key h) → s'.ghost = s.ghost) : HandleOk key h s' := by
  rcases hs with ⟨hact, hno⟩ | ⟨o, ho, hop⟩
  · exact .inl ⟨hmem ▸ hact, fun o ho => hno o ((hlent o).mp ho)⟩
  · exact .inr ⟨o, (hlent o).mpr ho, by rw [hmem, hop, hghost o ho]⟩

theorem HandleOk.of_active (hs : HandleOk key h s) (ha : (s.world.memory h).active = true) :
    ∃ o, s.ghost.phase = .lent o (key h) ∧
      s.world.memory h = ⟨heldCode o, s.ghost.word, true⟩ := by
  rcases hs with ⟨hact, -⟩ | hlive
  · rw [ha] at hact
    cases hact
  · exact hlive

theorem HandleOk.of_inactive (hs : HandleOk key h s) (ha : (s.world.memory h).active = false)
    (o : Option Owner) : s.ghost.phase ≠ .lent o (key h) := by
  rcases hs with ⟨-, hno⟩ | ⟨o', ho', hop⟩
  · exact hno o
  · rw [hop] at ha
    cases ha

theorem Legal.moved {a : Act I} {r : Resp J a} {m : Move K} {γ : Arbiter T K}
    (hstep : s.ghost.Step user t m γ) : Legal user key t s (moved s t a r γ) where
  step := ⟨m, hstep⟩
  tracks := rfl
  memory _ _ := rfl
  event := ⟨_, rfl, rfl⟩

theorem Owned.of_legal (hs : Owned user key t busy s) (hu : u ≠ t)
    (hl : Legal user key u s s') : Owned user key t busy s' where
  tracks := hl.tracks
  handle h hh hb := by
    obtain ⟨m, hstep⟩ := hl.step
    have hne : u ≠ user (key h) := fun he => hu (he.trans hh)
    exact (hs.handle h hh hb).of_eq (hl.memory h hne.symm) (fun o => hstep.lent_iff hne)
      fun o ho => hstep.lent hne ho

theorem Owned.quiet (hs : Owned user key t busy s) (hq : Quiet user t s s') :
    Legal user key t s s' ∧ Owned user key t busy s' := by
  have hlegal : Legal user key t s s' := by
    obtain ⟨a, r, γ, m, rfl, -, hstep⟩ := hq.exists_moved
    exact Legal.moved hstep
  have hmem : s'.world.memory = s.world.memory := by
    obtain ⟨a, r, γ, m, rfl, -, -⟩ := hq.exists_moved
    rfl
  refine ⟨hlegal, hlegal.tracks, fun h hh hb => ?_⟩
  exact (hs.handle h hh hb).of_eq (congrFun hmem h) (fun o => hq.lent_iff) fun o ho => hq.lent ho

/-- `P`, and thread `t` has the handles it had. -/
def Keeping (user : K → T) (key : H → K) (t : T) (handles : H → Operation)
    (P : DState T K J (H → Operation) C V → Prop) (s : DState T K J (H → Operation) C V) : Prop :=
  P s ∧ ∀ h, user (key h) = t → s.world.memory h = handles h

section Rules

variable {D : DDiscipline T K J (H → Operation) C V} {P : DState T K J (H → Operation) C V → Prop}
  {takes : Word → Prop} {M : Machine T (Act I) (Resp J) (Device (H → Operation)) C V} {c : C}
  {v : V c} {op : Operation} {o : Option Owner} {g : ℕ}

theorem Carries.keeping (hP : Carries D user t P)
    (hD : ∀ {u s s'}, D.guar u s s' → Legal user key u s s') (handles : H → Operation) :
    Carries D user t (Keeping user key t handles P) where
  tracks hs := hP.tracks hs.1
  stable u s s' hu hs hg := by
    refine ⟨hP.stable hu hs.1 hg, fun h hh => ?_⟩
    rw [(hD hg).memory h (hh ▸ hu.symm), hs.2 h hh]
  quiet hs hq := by
    obtain ⟨hg, hs'⟩ := hP.quiet hs.1 hq
    refine ⟨hg, hs', ?_⟩
    obtain ⟨a, r, γ, m, rfl, -, -⟩ := hq.exists_moved
    exact hs.2
  halted hs := hP.halted hs.1

theorem Legal.returned (hs : Tracks s) (handles : H → Operation)
    (hfin : M.finish t c v s.world = { s.world with memory := handles })
    (hmem : ∀ h, user (key h) ≠ t → handles h = s.world.memory h) :
    Legal user key t s (s.returned M t c v) where
  step := ⟨.stay, .stay⟩
  tracks := by
    change (M.finish t c v s.world).ownershipControl = s.ghost.control
    rw [hfin]
    exact hs
  memory h hh := by
    change (M.finish t c v s.world).memory h = s.world.memory h
    rw [hfin]
    exact hmem h hh
  event := ⟨_, rfl, rfl⟩

theorem Granted.owned {o : Owner} (hs : Granted P t o s)
    (hP : ∀ s, P s → Owned user key t busy s) : Owned user key t busy s := by
  obtain ⟨s₀, γ, hs₀, hphase, hγ, -, rfl⟩ := hs
  refine ⟨rfl, fun h hh hb => ?_⟩
  refine ((hP s₀ hs₀).handle h hh hb).of_eq rfl (fun o => iff_of_false ?_ ?_) fun o ho => ?_
  · change γ.phase ≠ _
    rw [hγ]
    exact fun he => by cases he
  · rw [hphase]
    exact fun he => by cases he
  · rw [hphase] at ho
    cases ho

theorem Reserved.owned {k : K} (hs : Reserved P t k o s) (hP : ∀ s, P s → Owned user key t none s)
    (hk : ∀ h, key h = k → busy = some h) : Owned user key t busy s := by
  obtain ⟨s₀, γ, hs₀, hphase, hγ, hgen, rfl⟩ := hs
  refine ⟨rfl, fun h hh hb => ?_⟩
  refine ((hP s₀ hs₀).handle h hh (by simp)).of_eq rfl (fun o' => iff_of_false ?_ ?_)
    fun o' ho' => ?_
  · change γ.phase ≠ _
    rw [hγ]
    exact fun he => hb (hk h (Phase.lent.inj he).2.symm)
  · rw [hphase]
    exact fun he => by cases he
  · rw [hphase] at ho'
    cases ho'

theorem Yielded.owned {k : K} (hs : Yielded P t k o g s)
    (hP : ∀ s, P s → Owned user key t busy s) (hk : ∀ h, key h = k → busy = some h) :
    Owned user key t busy s := by
  obtain ⟨s₀, γ, ⟨hs₀, hphase, hg⟩, hγ, hgen, rfl⟩ := hs
  refine ⟨rfl, fun h hh hb => ?_⟩
  have hne {o' : Option Owner} : s₀.ghost.phase ≠ .lent o' (key h) := by
    rw [hphase]
    exact fun he => hb (hk h (Phase.lent.inj he).2.symm)
  refine ((hP s₀ hs₀).handle h hh hb).of_eq rfl (fun o' => iff_of_false ?_ hne) fun o' ho' => ?_
  · change γ.phase ≠ _
    rw [hγ]
    exact fun he => by cases he
  · exact absurd ho' hne

theorem Owned.to_busy (hs : Owned user key t none s) : Owned user key t busy s :=
  ⟨hs.tracks, fun h hh _ => hs.handle h hh (by simp)⟩

theorem Owned.of_busy (hs : Owned user key t (some h) s) (hh : HandleOk key h s) :
    Owned user key t none s := by
  refine ⟨hs.tracks, fun h' hh' _ => ?_⟩
  by_cases he : h = h'
  · rw [← he]
    exact hh
  · exact hs.handle h' hh' fun hb => he (Option.some.inj hb)

theorem Owned.write [DecidableEq H] (hs : Owned user key t (some h) s)
    (hghost : s'.ghost = s.ghost)
    (hworld : s'.world = { s.world with memory := Function.update s.world.memory h op })
    (hh : HandleOk key h s') : Owned user key t none s' := by
  refine Owned.of_busy ⟨?_, fun h' hh' hb => ?_⟩ hh
  · unfold Tracks
    rw [hworld, hghost]
    exact hs.tracks
  · have hne : h' ≠ h := fun he => hb (congrArg some he.symm)
    refine (hs.handle h' hh' hb).of_eq ?_ (fun o => by rw [hghost]) fun o _ => hghost
    rw [hworld]
    exact Function.update_of_ne hne ..

end Rules
end AirDap

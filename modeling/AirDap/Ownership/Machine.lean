import AirDap.Ownership.Dispatch

/-! Threads that make any calls of the arbiter in any order. Each operation handle belongs
to one thread. -/
namespace AirDap
open Concurrency

variable {T H : Type}

abbrev OwnershipConfig (T H : Type) :=
  Config T (Act Empty) (Resp Empty.elim) (Device (H → Operation)) (OwnershipCall H)
    OwnershipCall.Value

abbrev OwnershipState (T H : Type) :=
  DState T H (I := Empty) Empty.elim (H → Operation) (OwnershipCall H) OwnershipCall.Value

/-- The generations that acquires have returned with OK, newest first. -/
def grantedGenerations : List (Event T (Act Empty) (Resp Empty.elim) (Device (H → Operation))
    (OwnershipCall H) OwnershipCall.Value) → List ℕ :=
  List.filterMap fun
    | .returned _ c v => c.granted v
    | _ => none

/-- Acquires have returned increasing generations, up to the one of the word. -/
structure Increasing (s : OwnershipState T H) : Prop where
  bound : ∀ g ∈ grantedGenerations s.history, g ≤ s.ghost.generation
  pairwise : (grantedGenerations s.history).Pairwise (· > ·)

/-- What a thread of the machine knows between its steps. -/
def Ordered (user : H → T) (t : T) (s : OwnershipState T H) : Prop :=
  Owned user id t none s ∧ Increasing s

def arbiterDiscipline (user : H → T) :
    DDiscipline T H (I := Empty) Empty.elim (H → Operation) (OwnershipCall H)
      OwnershipCall.Value where
  exec _ := Device.exec
  guar t s s' := Legal user id t s s' ∧ Increasing s'
  pre t a s := Ordered user t s ∧ ∀ b ∈ a, b.Exclusive → s.ghost.phase = .transition t

section Discipline

variable {user : H → T} {t u : T} {s s' : OwnershipState T H} {takes : Word → Prop}

theorem arbitrated : Arbitrated (arbiterDiscipline user) user where
  exec _ := rfl
  guar h := h.1.step

theorem ordered_ready : Ready (arbiterDiscipline user) t (Ordered user t) takes := by
  intro s a hs ha
  refine ⟨hs, fun b hb hexcl => ?_⟩
  cases hb
  cases a <;> first | exact ha | exact hexcl.elim

theorem Increasing.moved (hs : Increasing s) {a : Act Empty} {r : Resp Empty.elim a} {m : Move H}
    {γ : Arbiter T H} (hstep : s.ghost.Step user t m γ) : Increasing (moved s t a r γ) where
  bound g hg := (hs.bound g hg).trans hstep.generation_le
  pairwise := hs.pairwise

theorem ordered_loud :
    Loud (arbiterDiscipline user) user t (Ordered user t) fun _ => True where
  grant hs _ hstep := ⟨.moved hstep, hs.2.moved hstep⟩
  reserve hs _ _ hstep := ⟨.moved hstep, hs.2.moved hstep⟩
  yield hs hstep := ⟨.moved hstep, hs.2.moved hstep⟩

theorem ordered_carries : Carries (arbiterDiscipline user) user t (Ordered user t) where
  tracks hs := hs.1.tracks
  stable _ _ _ hu hs hg := ⟨hs.1.of_legal hu hg.1, hg.2⟩
  quiet := by
    intro s s' hs hq
    obtain ⟨hlegal, hs'⟩ := hs.1.quiet hq
    obtain ⟨a, r, γ, m, rfl, -, hstep⟩ := hq.exists_moved
    exact ⟨⟨hlegal, hs.2.moved hstep⟩, hs', hs.2.moved hstep⟩
  halted hs := ⟨hs, fun b hb => by cases hb⟩

variable [DecidableEq H]

/-- Threads make the calls of the arbiter, each with handles of its own. -/
def arbiterMachine (user : H → T) : Machine T (Act Empty) (Resp Empty.elim)
    (Device (H → Operation)) (OwnershipCall H) OwnershipCall.Value where
  may t c _ := ∀ h, c.handle = some h → user h = t
  code _ c w := c.code w.memory
  exec _ := Device.exec
  finish _ c v w := { w with memory := c.store w.memory v }

theorem Increasing.returned (hs : Increasing s) {c : OwnershipCall H} {v : c.Value}
    (hg : c.granted v = none) : Increasing (s.returned (arbiterMachine user) t c v) := by
  have he : grantedGenerations (s.returned (arbiterMachine user) t c v).history =
      grantedGenerations s.history := by
    simp [grantedGenerations, State.returned, hg]
  constructor
  · rw [he]
    exact hs.bound
  · rw [he]
    exact hs.pairwise

theorem OwnershipPost.increasing {handles : H → Operation} {c : OwnershipCall H} {v : c.Value}
    (hpost : OwnershipPost (Keeping user id t handles (Ordered user t)) t id c v s)
    (hmay : ∀ h, c.handle = some h → user h = t) :
    Increasing (s.returned (arbiterMachine user) t c v) := by
  cases hpost with
  | quiet hs hg hop => exact hs.1.2.returned hg
  | reserved hs hg hc hop =>
    obtain ⟨s₀, γ, hs₀, hphase, hγ, hgen, rfl⟩ := hs
    exact (hs₀.1.2.moved (.reserve hphase hγ hgen (hmay _ hc))).returned hg
  | yielded hs hg hc hop =>
    obtain ⟨s₀, γ, hs₀, hγ, hgen, rfl⟩ := hs
    exact (hs₀.1.1.2.moved
      (.yield hs₀.2.1 hγ (hgen.trans hs₀.2.2.symm) (hmay _ hc))).returned hg
  | granted hs hg hc =>
    have hlist : grantedGenerations (s.returned (arbiterMachine user) t c v).history =
        s.ghost.generation :: grantedGenerations s.history := by
      simp [grantedGenerations, State.returned, hg]
    obtain ⟨s₀, γ, hs₀, -, -, hgen, rfl⟩ := hs
    have hbound : ∀ g ∈ grantedGenerations s₀.history, g < γ.generation := by
      intro g hg
      have hle := hs₀.1.2.bound g hg
      omega
    constructor
    · intro g hg
      rw [hlist] at hg
      rcases List.mem_cons.mp hg with rfl | hg
      · exact le_rfl
      · exact (hbound g hg).le
    · rw [hlist]
      exact List.pairwise_cons.mpr ⟨hbound, hs₀.1.2.pairwise⟩

theorem arbiter_verifies (user : H → T) :
    Verifies (arbiterDiscipline user) (arbiterMachine user) (Ordered user)
      fun _ _ _ _ => True where
  exec := rfl
  stable t := ordered_carries.stable
  call {t c s} hs hmay := by
    have hs' : Ordered user t (s.called t c) := ⟨⟨hs.1.tracks, hs.1.handle⟩, hs.2.1, hs.2.2⟩
    refine ⟨⟨⟨⟨.stay, .stay⟩, hs.1.tracks, fun _ _ => rfl, _, rfl, rfl⟩, hs'.2⟩, ?_⟩
    refine (c.code_spec arbitrated (ordered_carries.keeping (·.1) s.world.memory)
      (ordered_loud.mono fun _ hs => hs.1) (ordered_ready.mono (fun _ hs => hs.1) fun _ h => h)
      (fun _ hs => hs.1.1) (fun _ hs => hs.2) hmay ⟨hs', fun _ _ => rfl⟩).mono
      fun v s₁ hpost => ?_
    have hinc := hpost.increasing hmay
    obtain ⟨hlegal, howned⟩ := hpost.returned (M := arbiterMachine user) Function.injective_id
      (fun _ hs => hs.1.1) hmay rfl
    exact ⟨trivial, ⟨hlegal, hinc⟩, howned, hinc⟩

end Discipline
end AirDap

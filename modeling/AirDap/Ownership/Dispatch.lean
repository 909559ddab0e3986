import AirDap.Ownership.Handles

/-! The calls of the arbiter as values that threads may choose from, with one statement of
what any of them does. -/
namespace AirDap
open Concurrency Function

variable {T H K I : Type} {J : I → Type}

/-- The calls of the arbiter. A handle is named by where it is stored, `none` is a null
pointer, and `rounds` bounds the retries of one call. -/
inductive OwnershipCall (H : Type) where
  | current
  | acquire (owner : Word) (claim : Option Claim)
  | release (claim : Option Claim)
  | operationBegin (claim : Option Claim) (operation : Option H)
  | controlBegin (owner : Word) (operation : Option H)
  | operationEnd (operation : Option H)
  | revoke
  | revokeOwner (owner : Word)
  | suspend (rounds : ℕ)
  | resume (rounds : ℕ)

/-- The handles after a call that was given `handle` and leaves `operation` in it. -/
def storeHandle [DecidableEq H] (handles : H → Operation) :
    Option H → Option Operation → H → Operation
  | some h, some op => update handles h op
  | _, _ => handles

namespace OwnershipCall

/-- What a call returns, with the values it leaves behind its pointers. -/
@[reducible] def Value : OwnershipCall H → Type
  | .current => Word
  | .acquire _ _ => OwnershipResult × Option Claim
  | .operationBegin _ _ | .controlBegin _ _ => OwnershipResult × Option Operation
  | .operationEnd _ => Option Operation
  | .release _ | .revoke | .revokeOwner _ | .suspend _ | .resume _ => OwnershipResult

def handle : OwnershipCall H → Option H
  | .operationBegin _ h | .controlBegin _ h | .operationEnd h => h
  | _ => none

def code (handles : H → Operation) : (c : OwnershipCall H) → Code J c.Value
  | .current => ownershipCurrent
  | .acquire owner claim => ownershipAcquire owner claim
  | .release claim => ownershipRelease claim
  | .operationBegin claim h => ownershipOperationBegin claim (h.map handles)
  | .controlBegin owner h => ownershipControlBegin owner (h.map handles)
  | .operationEnd h => ownershipOperationEnd (h.map handles)
  | .revoke => ownershipRevoke
  | .revokeOwner owner => ownershipRevokeOwner owner
  | .suspend rounds => ownershipSuspend rounds
  | .resume rounds => ownershipResume rounds

/-- The value that a call leaves in its handle. -/
def operation : (c : OwnershipCall H) → c.Value → Option Operation
  | .operationBegin _ _, v | .controlBegin _ _, v => v.2
  | .operationEnd _, v => v
  | _, _ => none

def store [DecidableEq H] (handles : H → Operation) (c : OwnershipCall H) (v : c.Value) :
    H → Operation :=
  storeHandle handles c.handle (c.operation v)

/-- The generation that an acquire returns with the result OK. -/
def granted : (c : OwnershipCall H) → c.Value → Option ℕ
  | .acquire _ _, (.ok, some claim) => some claim.generation.toNat
  | _, _ => none

theorem granted_of_ne {owner : Word} {claim claim' : Option Claim} {r : OwnershipResult}
    (h : r ≠ .ok) : granted (H := H) (.acquire owner claim) (r, claim') = none := by
  cases r with
  | ok => exact absurd rfl h
  | _ => rfl

end OwnershipCall

/-- The ways a call of the arbiter ends: nothing of its own remains, it granted the pins, it
reserved the word with its handle, or it ended the operation of its handle. -/
inductive OwnershipPost {C : Type} {V : C → Type} (P : DState T K J (H → Operation) C V → Prop)
    (t : T) (key : H → K) (c : OwnershipCall H) (v : c.Value) :
    DState T K J (H → Operation) C V → Prop
  | quiet {s : DState T K J (H → Operation) C V} (hs : P s) (hg : c.granted v = none)
      (hop : ∀ h op, c.handle = some h → c.operation v = some op → op = s.world.memory h) :
      OwnershipPost P t key c v s
  | granted {s : DState T K J (H → Operation) C V} {o : Owner} (hs : Granted P t o s)
      (hg : c.granted v = some s.ghost.generation) (hc : c.handle = none) :
      OwnershipPost P t key c v s
  | reserved {s : DState T K J (H → Operation) C V} {h : H} {o : Option Owner}
      (hs : Reserved P t (key h) o s) (hg : c.granted v = none) (hc : c.handle = some h)
      (hop : c.operation v = some ⟨heldCode o, s.ghost.word, true⟩) : OwnershipPost P t key c v s
  | yielded {s : DState T K J (H → Operation) C V} {h : H} {o : Option Owner} {g : ℕ}
      (hs : Yielded P t (key h) o g s) (hg : c.granted v = none) (hc : c.handle = some h)
      (hop : c.operation v = some .zero) : OwnershipPost P t key c v s

section Spec

variable {C : Type} {V : C → Type} {D : DDiscipline T K J (H → Operation) C V}
  {P : DState T K J (H → Operation) C V → Prop} {user : K → T} {key : H → K} {t : T}
  {s : DState T K J (H → Operation) C V} {handles : H → Operation}

theorem BeginPost.ownership {c : OwnershipCall H} {v : c.Value} {h : H}
    {may : Option Owner → Prop} {r : OwnershipResult} {operation : Option Operation}
    (hpost : BeginPost P t (key h) may (some (handles h)) (r, operation) s)
    (hkept : P s → s.world.memory h = handles h) (hc : c.handle = some h)
    (hv : c.operation v = operation) (hg : c.granted v = none) : OwnershipPost P t key c v s := by
  cases hpost with
  | ok hs hmay hop => exact .reserved hs hg hc hv
  | kept hs hok halready =>
    refine .quiet hs hg fun h' op hh' hop => ?_
    cases hc.symm.trans hh'
    rw [hv] at hop
    cases hop
    exact (hkept hs).symm

variable (hA : Arbitrated D user) (hP : Carries D user t P) (hl : Loud D user t P fun _ => True)
  (hr : Ready D t P fun _ => True) (howned : ∀ s, P s → Owned user key t none s)
  (hkept : ∀ s, P s → ∀ h, user (key h) = t → s.world.memory h = handles h)
include hA hP hl hr howned hkept

theorem operationEnd_spec {h : H} (hh : user (key h) = t) (hs : P s) :
    D.wp t (ownershipOperationEnd (some (handles h)))
      (fun v => OwnershipPost P t key (.operationEnd (some h)) v) s := by
  rcases (howned s hs).handle h hh (by simp) with ⟨hact, -⟩ | ⟨o, ho, hop⟩
  · rw [hkept s hs h hh] at hact
    refine (ownershipOperationEnd_inactive (P := P) (fun op he => ?_) hs).mono fun v s₁ hs₁ => ?_
    · cases he
      exact hact
    · obtain ⟨hs₁, rfl⟩ := hs₁
      refine .quiet hs₁ rfl fun h' op hh' hop => ?_
      cases hh'
      cases hop
      exact (hkept s₁ hs₁ h hh).symm
  · rw [← hkept s hs h hh, hop]
    refine (ownershipOperationEnd_spec hA hP (hr.mono (fun _ hs => hs) fun _ _ => trivial) hl hh
      ⟨hs, ho, rfl⟩).mono fun v s₁ hs₁ => ?_
    obtain ⟨hs₁, rfl⟩ := hs₁
    exact .yielded hs₁ rfl rfl rfl

theorem OwnershipCall.code_spec (c : OwnershipCall H)
    (hmay : ∀ h, c.handle = some h → user (key h) = t) (hs : P s) :
    D.wp t (c.code handles) (OwnershipPost P t key c) s := by
  have hready (takes : Word → Prop) : Ready D t P takes :=
    hr.mono (fun _ hs => hs) fun _ _ => trivial
  have hquiet {v : c.Value} {s : DState T K J (H → Operation) C V} (hs : P s)
      (hg : c.granted v = none) (hc : c.handle = none) : OwnershipPost P t key c v s :=
    .quiet hs hg fun h op hh _ => by rw [hc] at hh; cases hh
  cases c with
  | current =>
    exact (ownershipCurrent_spec hA hP (hready _) hs).mono fun v s₁ hs₁ => hquiet hs₁.1 rfl rfl
  | acquire owner claim =>
    refine (ownershipAcquire_spec hA hP (hready _) hl owner (fun _ _ => trivial) claim hs).mono
      fun v s₁ hpost => ?_
    cases hpost with
    | ok howner hs₁ =>
      exact .granted hs₁ (congrArg some s₁.ghost.toNat_word) rfl
    | already howner hs₁ hold => exact hquiet hs₁ rfl rfl
    | failed hs₁ hok halready _ => exact hquiet hs₁ (OwnershipCall.granted_of_ne hok) rfl
    | invalid hs₁ _ => exact hquiet hs₁ rfl rfl
  | release claim =>
    exact (ownershipRelease_spec hA hP claim (hready _) hs).mono
      fun v s₁ hpost => hquiet hpost.holds rfl rfl
  | revoke =>
    exact (ownershipRevoke_spec hA hP (hready _) hs).mono fun v s₁ hs₁ => hquiet hs₁ rfl rfl
  | revokeOwner owner =>
    exact (ownershipRevokeOwner_spec hA hP owner (hready _) hs).mono
      fun v s₁ hs₁ => hquiet hs₁ rfl rfl
  | suspend rounds =>
    exact (ownershipSuspend_spec hA hP (hready _) rounds hs).mono
      fun v s₁ hs₁ => hquiet hs₁ rfl rfl
  | resume rounds =>
    exact (ownershipResume_spec hA hP (hready _) rounds hs).mono
      fun v s₁ hs₁ => hquiet hs₁ rfl rfl
  | operationBegin claim operation =>
    cases operation with
    | none => cases claim <;> exact hquiet hs rfl rfl
    | some h =>
      have hh : user (key h) = t := hmay h rfl
      exact (ownershipOperationBegin_spec hA hP claim (some (handles h)) (hready _) hl
        (fun _ _ _ _ => trivial) (fun _ => hh) hs).mono fun v s₁ hpost =>
          hpost.ownership (fun hs => hkept s₁ hs h hh) rfl rfl rfl
  | controlBegin owner operation =>
    cases operation with
    | none => exact hquiet hs rfl rfl
    | some h =>
      have hh : user (key h) = t := hmay h rfl
      exact (ownershipControlBegin_spec hA hP owner (some (handles h)) (hready _) hl
        (fun _ _ => trivial) (fun _ => hh) hs).mono fun v s₁ hpost =>
          hpost.ownership (fun hs => hkept s₁ hs h hh) rfl rfl rfl
  | operationEnd operation =>
    cases operation with
    | none => exact hquiet hs rfl rfl
    | some h => exact operationEnd_spec hA hP hl hr howned hkept (hmay h rfl) hs

omit hA hP hl hr howned hkept

theorem OwnershipPost.returned [DecidableEq H] {c : OwnershipCall H} {v : c.Value}
    (hpost : OwnershipPost P t key c v s) (hkey : Function.Injective key)
    (howned : ∀ s, P s → Owned user key t none s)
    (hmay : ∀ h, c.handle = some h → user (key h) = t)
    {M : Machine T (Act I) (Resp J) (Device (H → Operation)) C V} {c' : C} {v' : V c'}
    (hfin : M.finish t c' v' s.world = { s.world with memory := c.store s.world.memory v }) :
    Legal user key t s (s.returned M t c' v') ∧ Owned user key t none (s.returned M t c' v') := by
  have hwrite {h : H} {op : Operation} (hc : c.handle = some h) (hop : c.operation v = some op) :
      c.store s.world.memory v = update s.world.memory h op := by
    simp only [OwnershipCall.store, storeHandle, hc, hop]
  have hlegal {h : H} {op : Operation} (hs : Tracks s) (hc : c.handle = some h)
      (hop : c.operation v = some op) : Legal user key t s (s.returned M t c' v') := by
    refine .returned hs _ hfin fun h' hh' => ?_
    have hne : h' ≠ h := by
      rintro rfl
      exact hh' (hmay h' hc)
    rw [hwrite hc hop, update_of_ne hne]
  have hsame (hs : Owned user key t none s) (hstore : c.store s.world.memory v = s.world.memory) :
      Legal user key t s (s.returned M t c' v') ∧ Owned user key t none (s.returned M t c' v') := by
    rw [hstore] at hfin
    have hl : Legal user key t s (s.returned M t c' v') := .returned hs.tracks _ hfin fun _ _ => rfl
    refine ⟨hl, hl.tracks, fun h hh hb => ?_⟩
    exact (hs.handle h hh hb).of_eq (congrArg (·.memory h) hfin) (fun _ => Iff.rfl) fun _ _ => rfl
  cases hpost with
  | quiet hs hg hop =>
    refine hsame (howned s hs) ?_
    unfold OwnershipCall.store storeHandle
    split
    · rename_i h op hh hv
      rw [hop h op hh hv, update_eq_self]
    · rfl
  | granted hs hg hc =>
    refine hsame (hs.owned howned) ?_
    simp only [OwnershipCall.store, storeHandle, hc]
  | reserved hs hg hc hop =>
    have hs' := hs.owned howned fun h' he => congrArg some (hkey he).symm
    rw [hwrite hc hop] at hfin
    obtain ⟨s₀, γ, -, -, hγ, -, rfl⟩ := hs
    refine ⟨hlegal hs'.tracks hc hop, hs'.write rfl hfin (.inr ⟨_, hγ, ?_⟩)⟩
    exact (congrFun (congrArg Device.memory hfin) _).trans (update_self ..)
  | yielded hs hg hc hop =>
    have hs' := hs.owned (fun s hs => (howned s hs).to_busy)
      fun h' he => congrArg some (hkey he).symm
    rw [hwrite hc hop] at hfin
    obtain ⟨s₀, γ, -, hγ, -, rfl⟩ := hs
    refine ⟨hlegal hs'.tracks hc hop, hs'.write rfl hfin (.inl ⟨?_, fun o => ?_⟩)⟩
    · have hmem := (congrFun (congrArg Device.memory hfin) _).trans (update_self ..)
      exact congrArg Operation.active hmem
    · change γ.phase ≠ _
      rw [hγ]
      exact fun he => by cases he

end Spec
end AirDap

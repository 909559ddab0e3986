import AirDap.Concurrency.Sequential
import AirDap.Ota.Packets

/-! A transport that does not own the target, and what its packets come to while another owner
holds the pins. -/
namespace AirDap
open Concurrency Prog

/-! The callbacks work with the target only between the begin of an operation that was allowed
and its end. -/

/-- What a packet has found out: whether it has reserved the pins, and the owner that the
arbiter told it last. -/
structure PinState where
  reserved : Bool
  current : Word

/-- The calls that a packet of `owner` makes; it acquires only if it is a DAP_Connect. -/
def PinState.Allowed (owner : Owner) (connecting : Prop) (x : PinState) : LowerCall → Prop
  | .target (.romDelayUs _) => True
  | .target _ => x.reserved = true
  | .operationBegin requested => requested = owner
  | .operationEnd => x.reserved = true
  | .dapAcquire requested => requested = owner ∧ connecting
  | .otaProcess connected _ _ => connected = decide (x.current ≠ ownerNone)
  | .otaDebugAllowed | .ownershipRelease | .ownershipCurrent | .otaHandleDisconnect => True

def PinState.next (x : PinState) : (c : LowerCall) → c.Answer → PinState
  | .operationBegin _, begun => { x with reserved := begun }
  | .operationEnd, _ => { x with reserved := false }
  | .ownershipCurrent, current => { x with current }
  | _, _ => x

section Follows

variable {owner : Owner} {connecting : Prop} {x : PinState} {α : Type}

theorem PinState.allowed_target (hx : x.reserved = true) (c : TargetCall) :
    x.Allowed owner connecting (.target c) := by
  cases c with
  | romDelayUs delay => trivial
  | _ => exact hx

theorem follows_target {body : LowerCode α} {φ : α → Prop}
    (hbody : body.Yields LowerCall.IsTarget φ) (hx : x.reserved = true) :
    body.Follows (PinState.Allowed owner connecting) PinState.next (fun _ y => y = x) x := by
  induction body with
  | ret v => rfl
  | act a k ih =>
    obtain ⟨⟨c, rfl⟩, hk⟩ := hbody
    exact ⟨PinState.allowed_target hx c, fun r => ih r (hk r)⟩
  | spent => trivial

theorem follows_withOperation (refused : α) {body : LowerCode α}
    (hbody : body.Yields LowerCall.IsTarget fun _ => True) :
    (withOperation owner refused body).Follows (PinState.Allowed owner connecting) PinState.next
      (fun _ y => y.reserved = false) x := by
  refine ⟨rfl, fun begun => ?_⟩
  cases begun with
  | false => exact rfl
  | true =>
    apply (follows_target hbody rfl).bind
    rintro v _ rfl
    exact ⟨rfl, fun _ => rfl⟩

theorem follows_backendConnect (hconnecting : connecting) (clockHz : Word)
    (hx : x.reserved = false) :
    (backendConnect owner clockHz).Follows (PinState.Allowed owner connecting) PinState.next
      (fun _ y => y.reserved = false) x := by
  refine ⟨trivial, fun debugAllowed => ?_⟩
  refine follows_guard hx fun _ => ?_
  refine ⟨⟨rfl, hconnecting⟩, fun acquired => ?_⟩
  apply follows_ite
  · exact fun _ => hx
  · exact fun _ => follows_withOperation false (target_yields _)

theorem follows_backendDisconnect (hx : x.reserved = false) :
    (backendDisconnect owner).Follows (PinState.Allowed owner connecting) PinState.next
      (fun _ y => y.reserved = false) x := by
  refine ⟨trivial, fun _ => ?_⟩
  apply follows_ite
  · exact fun _ => ⟨trivial, fun _ => hx⟩
  · exact fun _ => hx

theorem follows_backendCall (selectedPort : Byte) (c : BackendCall)
    (hc : c = .connect → connecting) (clockHz : Word) (hx : x.reserved = false) :
    (backendCall owner selectedPort c clockHz).Follows (PinState.Allowed owner connecting)
      PinState.next (fun _ y => y.reserved = false) x := by
  have hparts : CallbackParts owner fun p => p.Follows (PinState.Allowed owner connecting)
      PinState.next (fun _ y => y.reserved = false) x :=
    { ret := fun _ => hx
      clock := fun _ hp => hp.bind fun _ _ hy => hy
      operation := follows_withOperation
      delay := fun _ => ⟨trivial, fun _ => hx⟩ }
  cases c with
  | connect => exact hparts.clock _ (follows_backendConnect (hc rfl) clockHz hx)
  | disconnect => exact hparts.clock _ (follows_backendDisconnect hx)
  | vendorCommand command request capacity =>
    exact hparts.clock clockHz ⟨trivial, fun current => ⟨rfl, fun _ => hx⟩⟩
  | _ => exact hparts.call owner selectedPort (by trivial) clockHz

theorem follows_dapProcess (context : TransportContext) (request : List Byte) (capacity : ℕ)
    (howner : context.owner = owner) (hx : x.reserved = false) :
    (dapProcess context request capacity).Follows
      (PinState.Allowed owner (byteAt request 0 = DapCommand.connect.code)) PinState.next
      (fun _ y => y.reserved = false) x := by
  have hpacket : (processPacket context.processor request capacity).Yields
      (fun c => c = .connect → byteAt request 0 = DapCommand.connect.code) fun _ => True := by
    unfold processPacket
    refine yields_guard trivial fun _ => ?_
    by_cases hcommand : DapCommand.ofByte (byteAt request 0) = some .connect
    · rw [hcommand]
      exact (processConnect_yields _ request _).mono
        (fun _ _ _ => DapCommand.code_of_ofByte hcommand) fun _ _ => trivial
    · exact (processCommand_yields _ request _ _ hcommand).mono
        (fun _ hne h => absurd h hne) fun _ _ => trivial
  subst howner
  refine Prog.Follows.bind
    (hpacket.follows_handle (fun y : PinState => y.reserved = false) ?_ hx) ?_
  · exact fun c clockHz y hc hy => follows_backendCall _ c hc clockHz hy
  · exact fun _ y hy => hy.2

end Follows

/-! Packets with the operations of the target on record -/

/-- The operations of the target so far, with the one that the call may be. -/
def LowerCall.traced : LowerCall → List TargetCall → List TargetCall
  | .target call, calls => call :: calls
  | _, calls => calls

/-- A call of the backend carried out as in `managedCall`, with the operations of the target. -/
def tracedCall (env : PacketEnv) (c : LowerCall) (x : PacketState × List TargetCall) :
    OtaCode (c.Answer × (PacketState × List TargetCall)) := do
  let r ← managedCall env c x.1
  pure (r.1, r.2, c.traced x.2)

/-- `airdap_dap_process` down to the OTA manager, with the operations of the target. -/
def tracedPacket (env : PacketEnv) (link : Link) (request : List Byte) (responseCapacity : ℕ) :
    OtaCode ((List Byte × Link) × List TargetCall) := do
  let ((response, context), st, calls) ← (dapProcess link.context request responseCapacity).handle
    (tracedCall env) (⟨link.claim, .zero, 0⟩, [])
  pure ((response, ⟨context, st.claim⟩), calls)

/-! What the calls below the backend come to while `owner` holds the pins -/

/-- An operation of the arbiter that drives the pins, or that settles the word. -/
def Act.Drives {I : Type} : Act I → Prop
  | .lineReset | .releasePins | .storeOwnership _ => True
  | _ => False

abbrev OtaRecord (T : Type) := OtaDevice T × List (Σ a, Resp OtaIo.Answer a)

/-- The word is `control`, and nothing on record has driven the pins. -/
structure Undriven {T : Type} (control : Word) (x : OtaRecord T) : Prop where
  word : x.1.ownershipControl = control
  quiet : ∀ e ∈ x.2, ¬ e.1.Drives

/-- The operation leaves a word with this value alone. -/
def Act.Spares {I : Type} (control : Word) : Act I → Prop
  | .casOwnership expected _ | .casOwnershipWeak expected _ => control ≠ expected
  | .lineReset | .releasePins | .storeOwnership _ => False
  | _ => True

section Undriven

variable {T : Type} {t : T} {control : Word} {x y : OtaRecord T} {α : Type} {rounds : ℕ}

theorem Undriven.record (hx : Undriven control x) {a : Act OtaIo} {r : Resp OtaIo.Answer a}
    (ha : a.Spares control) (hexec : recorded (otaExec t) x a r y) : Undriven control y := by
  obtain ⟨hexec, hrecord⟩ := hexec
  have hword : y.1.ownershipControl = x.1.ownershipControl := by
    cases a with
    | io i =>
      obtain ⟨m, -, hm⟩ := hexec
      rw [hm]
    | casOwnership e d =>
      rcases hexec with ⟨he, -⟩ | ⟨-, -, heq⟩
      · exact absurd (hx.word.symm.trans he) ha
      · rw [heq]
    | casOwnershipWeak e d =>
      rcases hexec with ⟨he, -⟩ | ⟨-, heq⟩
      · exact absurd (hx.word.symm.trans he) ha
      · rw [heq]
    | storeOwnership d => exact ha.elim
    | lineReset => exact ha.elim
    | releasePins => exact ha.elim
    | loadOwnership => rw [hexec.2]
    | loadMode => rw [hexec.2]
    | loadPreemptions => rw [hexec.2]
    | casModeWeak e d => rcases hexec with ⟨-, -, heq⟩ | ⟨-, heq⟩ <;> rw [heq]
    | saveRoute route => rcases hexec with heq | ⟨-, heq⟩ <;> rw [heq]
    | addPreemption => rw [show y.1 = _ from hexec]
    | subPreemption => rw [show y.1 = _ from hexec]
  refine ⟨hword.trans hx.word, ?_⟩
  rw [hrecord]
  intro e he
  rcases List.mem_cons.mp he with rfl | he
  · cases a <;> first | exact id | exact ha.elim
  · exact hx.quiet e he

theorem undriven_act (hx : Undriven control x) {a : Act OtaIo} (ha : a.Spares control)
    {Q : α → OtaRecord T → Prop} {k : Resp OtaIo.Answer a → OtaCode α}
    (hk : ∀ r y, Undriven control y → (k r).Ensures (recorded (otaExec t)) Q y) :
    (Prog.act a k).Ensures (recorded (otaExec t)) Q x :=
  fun r y hexec => hk r y (hx.record ha hexec)

theorem undriven_loadOwnership (hx : Undriven control x) {Q : α → OtaRecord T → Prop}
    {k : Word → OtaCode α}
    (hk : ∀ y, Undriven control y → (k control).Ensures (recorded (otaExec t)) Q y) :
    (loadOwnership >>= k).Ensures (recorded (otaExec t)) Q x := by
  intro r y hexec
  obtain rfl : r = control := hexec.1.1.trans hx.word
  exact hk y (hx.record (by trivial) hexec)

/-- The program leaves the word and the pins alone. -/
def Sparing (t : T) (control : Word) (p : OtaCode α) : Prop :=
  ∀ x, Undriven control x → p.Ensures (recorded (otaExec t)) (fun _ => Undriven control) x

theorem Sparing.act {a : Act OtaIo} {k : Resp OtaIo.Answer a → OtaCode α} (ha : a.Spares control)
    (hk : ∀ r, Sparing t control (k r)) : Sparing t control (.act a k) :=
  fun _ hx => undriven_act hx ha hk

theorem sparing_words : WordParts fun {_} (p : OtaCode _) => Sparing t control p where
  ret _ _ hx := hx
  bind hp hf x hx := (hp x hx).bind hf
  spent _ _ := trivial
  loadMode := .act trivial fun _ _ hx => hx
  addPreemption := .act trivial fun _ _ hx => hx
  subPreemption := .act trivial fun _ _ hx => hx
  loadPreemptions := .act trivial fun _ _ hx => hx

theorem sparing_modeTransition {event : ModeEvent} (hevent : event ≠ .usbAttached) :
    Sparing t control (modeTransition rounds event) :=
  sparing_words.transition (fun _ _ _ => .act trivial fun _ _ hx => hx)
    (fun h => absurd h hevent) rounds

section Held

variable {holder : Owner} (hheld : controlState control = holder.code)
include hheld

theorem undriven_ownershipCurrent (hx : Undriven control x) :
    ownershipCurrent.Ensures (recorded (otaExec t))
      (fun v y => v = holder.code ∧ Undriven control y) x := by
  refine undriven_loadOwnership hx fun y hy => ⟨?_, hy⟩
  rw [hheld, if_pos (isOwner_code holder)]

theorem sparing_ownershipResume : Sparing t control (ownershipResume rounds) := by
  intro x hx
  refine undriven_loadOwnership hx fun y hy => ?_
  cases rounds with
  | zero => trivial
  | succ rounds =>
    unfold resumeLoop
    rw [hheld]
    refine ensures_guard hy fun _ => ?_
    refine ensures_guard hy fun _ => ?_
    refine ensures_guard hy fun _ => ?_
    refine ensures_guard hy fun h => ?_
    exact absurd (fun h' => (heldCode_ne (some holder)).2.2.1 h') h

theorem sparing_otaHandleDisconnect : Sparing t control (otaHandleDisconnect rounds) := by
  have hwords : WordParts fun {_} p => Sparing t control p := sparing_words
  have hrestore : Sparing t control (restoreIdleMode rounds .otaAborted) := by
    refine hwords.bind (sparing_modeTransition (by decide)) fun result => ?_
    refine hwords.guard fun _ => ?_
    refine hwords.bind (sparing_ownershipResume hheld) fun resumed => ?_
    exact iteInduction (fun _ => .act trivial hwords.ret) fun _ => hwords.ret _
  have habort : Sparing t control (abortLocked rounds) := by
    refine .act trivial fun session => ?_
    refine hwords.guard fun _ => hwords.guard fun _ => ?_
    refine .act trivial fun aborted => ?_
    refine hwords.guard fun _ => ?_
    refine hwords.bind (.act trivial hwords.ret) fun _ => ?_
    exact hwords.bind hrestore fun _ => hwords.ret _
  have hdisconnect : Sparing t control (otaDisconnectClient rounds none) := by
    refine .act trivial fun locked => ?_
    refine iteInduction (fun _ => ?_) fun _ => hwords.ret _
    refine .act trivial fun session => ?_
    refine hwords.bind (iteInduction (fun _ => ?_) fun _ => hwords.ret _) fun _ =>
      .act trivial hwords.ret
    exact .act trivial fun _ => habort
  exact hwords.bind hdisconnect fun _ => hwords.ret _

theorem sparing_otaDebugAllowed : Sparing t control otaDebugAllowed := by
  have hwords : WordParts fun {_} p => Sparing t control p := sparing_words
  have hmode : Sparing t control modeGet := by
    refine .act trivial fun word => hwords.guard fun _ => ?_
    exact fun _ hx => (undriven_ownershipCurrent hheld hx).bind fun _ _ hy => hy.2
  refine .act trivial fun locked => ?_
  refine iteInduction (fun _ => ?_) fun _ => hwords.ret _
  refine hwords.bind ?_ fun _ => .act trivial hwords.ret
  refine .act trivial fun session => hwords.guard fun _ => ?_
  refine hwords.bind hmode fun mode => ?_
  cases mode <;> exact hwords.ret _

variable {owner : Owner} (hother : owner ≠ holder)
include hother

theorem undriven_dapAdmission (mode : Word) (authenticated boardControl : Bool)
    (hx : Undriven control x) :
    (dapAdmissionForControl mode owner.code authenticated boardControl).Ensures
      (recorded (otaExec t)) (fun v y => v ≠ .allowed ∧ Undriven control y) x := by
  unfold dapAdmissionForControl
  apply ensures_ite
  · exact fun h => ⟨h, hx⟩
  · intro _
    apply (undriven_ownershipCurrent hheld hx).bind
    rintro _ y ⟨rfl, hy⟩
    refine ⟨?_, hy⟩
    rw [if_pos]
    · decide
    · exact ⟨by cases holder <;> decide, fun h => hother (Owner.code_injective h).symm⟩

theorem undriven_dapOperationBegin (claim : Claim) (operation : Operation)
    (hx : Undriven control x) :
    (dapOperationBegin owner.code true (some claim) (some operation)).Ensures
      (recorded (otaExec t))
      (fun v y => v.1 ≠ .allowed ∧ v.2 = some operation ∧ Undriven control y) x := by
  refine undriven_act hx (by trivial) fun mode x₁ hx₁ => ?_
  apply (undriven_dapAdmission hheld hother mode true false hx₁).bind
  rintro result x₂ ⟨hno, hx₂⟩
  rw [if_pos hno]
  exact ⟨hno, rfl, hx₂⟩

theorem undriven_ownershipRelease (claim : Claim)
    (hclaim : claim.owner = ownerNone ∨ claim.owner = owner.code) (hx : Undriven control x) :
    (ownershipRelease (some claim)).Ensures (recorded (otaExec t))
    (fun _ => Undriven control) x := by
  refine ensures_guard hx fun hvalid => ?_
  have hspares : control ≠ makeControl claim.generation claim.owner := by
    simp only [validClaim, Bool.not_eq_true', Bool.not_eq_false, Bool.and_eq_true,
      decide_eq_true_eq] at hvalid
    obtain ⟨⟨howner, -⟩, hgeneration⟩ := hvalid
    have hlt : claim.generation.toNat < 2 ^ 28 := by
      have h := BitVec.le_def.mp hgeneration
      rw [toNat_controlGenerationMax] at h
      omega
    rcases hclaim with hclaim | hclaim
    · rw [hclaim] at howner
      cases howner
    · intro heq
      rw [heq, hclaim, controlState_makeControl hlt
        (show owner.code.toNat < 8 from heldCode_lt (some owner))] at hheld
      exact hother (Owner.code_injective hheld)
  intro r y hexec
  have hy := Undriven.record (a := .casOwnership _ _) hx hspares hexec
  rcases hexec.1 with ⟨he, -⟩ | ⟨-, hr, -⟩
  · exact absurd (hx.word.symm.trans he) hspares
  · rw [hr]
    exact hy

end Held

/-- A USB request has taken the word from the network owner. -/
def Preempted (control : Word) (holder owner : Owner)
    (record : List (Σ a, Resp OtaIo.Answer a)) : Prop :=
  owner = .usb ∧ holder = .network ∧
    ⟨.casOwnership control (makeControl (controlGeneration control) stateTransition), none⟩ ∈ record

/-- Once a request has preempted the holder it has done so for good. -/
theorem ensures_preempted {holder owner : Owner} (p : OtaCode α)
    (hx : Preempted control holder owner x.2) :
    p.Ensures (recorded (otaExec t)) (fun _ y => Preempted control holder owner y.2) x :=
  (ensures_recorded p hx.2.2).mono fun _ _ hy => ⟨hx.1, hx.2.1, hy⟩

section Acquire

variable {holder owner : Owner} (hheld : controlState control = holder.code)

include hheld in
theorem undriven_revokeNetwork (hnetwork : holder = .network) (hx : Undriven control x) :
    (ownershipRevokeOwner ownerNetwork).Ensures (recorded (otaExec t))
      (fun v y => Preempted control holder .usb y.2 ∨ (v = .busy ∧ Undriven control y)) x := by
  subst hnetwork
  refine undriven_loadOwnership hx fun x₁ hx₁ => ?_
  rw [hheld]
  refine ensures_ite (fun h => absurd h (by decide)) fun _ => ?_
  refine ensures_ite (fun h => absurd h (by decide)) fun _ => ?_
  refine ensures_ite (fun h => absurd h (by decide)) fun _ => ?_
  refine ensures_ite (fun h => absurd rfl h) fun _ => ?_
  refine ensures_guard (.inr ⟨rfl, hx₁⟩) fun _ => ?_
  intro r x₂ hexec
  have hr : r = none := by
    rcases hexec.1 with ⟨-, hr, -⟩ | ⟨hne, -⟩
    · exact hr
    · exact absurd hx₁.word hne
  subst hr
  have hpreempted : Preempted control .network .usb x₂.2 := by
    refine ⟨rfl, rfl, ?_⟩
    rw [hexec.2]
    exact List.mem_cons_self ..
  exact (ensures_preempted _ hpreempted).mono fun _ _ h => .inl h

include hheld in
theorem undriven_modeDapAcquire (hother : owner ≠ holder) (claim : Claim)
    (hx : Undriven control x) :
    (modeDapAcquire owner.code true (some claim)).Ensures (recorded (otaExec t))
      (fun v y => Preempted control holder owner y.2 ∨
        (v.1 ≠ .allowed ∧ v.2 = some .zero ∧ Undriven control y)) x := by
  have hpreempt (before : Word) {result : ModeDapResult} (hresult : result ≠ .allowed)
      {z : OtaRecord T} (hz : Undriven control z) :
      (preemptNetwork owner.code true before result).Ensures (recorded (otaExec t))
        (fun v y => Preempted control holder owner y.2 ∨ v.2 ≠ .allowed ∧ Undriven control y)
        z := by
    refine ensures_ite (fun husb => ?_) fun _ => .inr ⟨hresult, hz⟩
    apply (undriven_ownershipCurrent hheld hz).bind
    rintro _ z₁ ⟨rfl, hz₁⟩
    refine ensures_ite (fun hnetwork => ?_) fun _ => .inr ⟨hresult, hz₁⟩
    obtain rfl : owner = .usb := Owner.code_injective husb.2.1
    have hholder : holder = .network := Owner.code_injective hnetwork
    apply (undriven_revokeNetwork hheld hholder hz₁).bind
    rintro revoked z₂ (hpre | ⟨rfl, hz₂⟩)
    · exact (ensures_preempted _ hpre).mono fun _ _ h => .inl h
    · exact .inr ⟨by change ModeDapResult.busy ≠ .allowed; decide, hz₂⟩
  have hacquire {z : OtaRecord T} (hz : Undriven control z) :
      (dapAcquire owner.code true (some claim)).Ensures (recorded (otaExec t))
        (fun v y => Preempted control holder owner y.2 ∨
          (v.1 ≠ .allowed ∧ v.2 = some .zero ∧ Undriven control y)) z := by
    refine undriven_act hz (by trivial) fun before z₁ hz₁ => ?_
    apply (undriven_dapAdmission hheld hother before true false hz₁).bind
    rintro result z₂ ⟨hno, hz₂⟩
    apply (hpreempt before hno hz₂).bind
    rintro v z₃ (hpre | ⟨hno, hz₃⟩)
    · exact (ensures_preempted _ hpre).mono fun _ _ h => .inl h
    · dsimp only
      rw [if_pos hno]
      exact .inr ⟨hno, rfl, hz₃⟩
  unfold modeDapAcquire
  refine ensures_ite (fun _ => ?_) fun _ => hacquire hx
  refine undriven_act hx (by trivial) fun _ x₁ hx₁ => ?_
  apply (hacquire hx₁).bind
  rintro v x₂ (hpre | ⟨hno, hzero, hx₂⟩)
  · exact (ensures_preempted _ hpre).mono fun _ _ h => .inl h
  · exact undriven_act hx₂ (by trivial) fun _ x₃ hx₃ => .inr ⟨hno, hzero, hx₃⟩

end Acquire
end Undriven

/-! Packets of a transport that does not own the target -/

section Packets

variable {T : Type} {t : T} {control : Word} {holder owner : Owner} {env : PacketEnv}

/-- A delay of the processor, which touches no pin. -/
def TargetCall.IsDelay : TargetCall → Prop
  | .romDelayUs _ => True
  | _ => False

/-- Between two calls of a packet of `owner`: it has preempted the holder, or everything is as
it was and its claim is none of the holder. -/
def Apart (control : Word) (holder owner : Owner) (connecting : Prop) (pin : PinState)
    (st : PacketState × List TargetCall) (x : OtaRecord T) : Prop :=
  (Preempted control holder owner x.2 ∧ connecting) ∨
    (Undriven control x ∧ (∀ c ∈ st.2, c.IsDelay) ∧ pin.reserved = false ∧
      pin.current = holder.code ∧
      (st.1.claim.owner = ownerNone ∨ st.1.claim.owner = owner.code))

/-- An update command is refused while the pins are held, and a query changes nothing. -/
theorem dapOtaProcess_connected {Q : List Byte → OtaRecord T → Prop} {x : OtaRecord T}
    (hx : ∀ v, Q v x) (rounds : ℕ) (info : Except OtaStatus OtaInfo) (request : List Byte)
    (capacity : ℕ) :
    (dapOtaProcess rounds info true request capacity).Ensures (recorded (otaExec t)) Q x := by
  unfold dapOtaProcess
  refine ensures_guard (hx _) fun _ => ?_
  refine ensures_guard (hx _) fun _ => ?_
  refine ensures_guard (hx _) fun hquery => ?_
  have hcommand : byteAt request 0 = DapCommand.otaQuery.code := by
    by_contra hne
    exact hquery ⟨hne, rfl⟩
  rw [hcommand, DapCommand.ofByte_code]
  exact hx _

theorem apart_managedCall {connecting : Prop} (hheld : controlState control = holder.code)
    (hother : owner ≠ holder) {pin : PinState} {st : PacketState} {calls : List TargetCall}
    {x : OtaRecord T} (c : LowerCall)
    (hx : Apart control holder owner connecting pin (st, calls) x)
    (hc : pin.Allowed owner connecting c) :
    (managedCall env c st).Ensures (recorded (otaExec t)) (fun r y =>
      Apart control holder owner connecting (pin.next c r.1) (r.2, c.traced calls) y) x := by
  rcases hx with ⟨hpre, hconnecting⟩ | ⟨hx, hdelays, hpin, hcurrent, hclaim⟩
  · exact (ensures_preempted _ hpre).mono fun _ _ h => .inl ⟨h, hconnecting⟩
  have hsame {y : OtaRecord T} (hy : Undriven control y) :
      Apart control holder owner connecting pin (st, calls) y :=
    .inr ⟨hy, hdelays, hpin, hcurrent, hclaim⟩
  cases c with
  | otaDebugAllowed => exact (sparing_otaDebugAllowed hheld x hx).bind fun _ _ hy => hsame hy
  | dapAcquire requested =>
    obtain ⟨rfl, hconnecting⟩ := hc
    refine (undriven_modeDapAcquire hheld hother st.claim hx).bind ?_
    rintro ⟨result, claim⟩ y (hpre | ⟨hno, hzero, hy⟩)
    · exact .inl ⟨hpre, hconnecting⟩
    · cases hzero
      exact .inr ⟨hy, hdelays, hpin, hcurrent, .inl rfl⟩
  | operationBegin requested =>
    cases hc
    refine (undriven_dapOperationBegin hheld hother st.claim st.operation hx).bind ?_
    rintro ⟨result, operation⟩ y ⟨hno, -, hy⟩
    exact .inr ⟨hy, hdelays, decide_eq_false hno, hcurrent, hclaim⟩
  | operationEnd =>
    change pin.reserved = true at hc
    rw [hpin] at hc
    cases hc
  | ownershipRelease =>
    exact (undriven_ownershipRelease hheld hother st.claim hclaim hx).bind fun _ _ hy => hsame hy
  | ownershipCurrent =>
    refine (undriven_ownershipCurrent hheld hx).bind ?_
    rintro current y ⟨hcurrent', hy⟩
    exact .inr ⟨hy, hdelays, hpin, hcurrent', hclaim⟩
  | otaHandleDisconnect =>
    exact (sparing_otaHandleDisconnect hheld x hx).bind fun _ _ hy => hsame hy
  | otaProcess connected request capacity =>
    have hconnected : connected = true := by
      change connected = decide (pin.current ≠ ownerNone) at hc
      rw [hc, hcurrent]
      cases holder <;> decide
    subst hconnected
    exact (dapOtaProcess_connected (Q := fun _ y => Undriven control y) (fun _ => hx) ..).bind
      fun _ _ hy => hsame hy
  | target call =>
    cases call with
    | romDelayUs delay =>
      refine .inr ⟨hx, ?_, hpin, hcurrent, hclaim⟩
      intro c hc
      rcases List.mem_cons.mp hc with rfl | hc
      · trivial
      · exact hdelays c hc
    | _ =>
      change pin.reserved = true at hc
      rw [hpin] at hc
      cases hc

/-- A packet of a transport that does not own the target. Whatever the transport remembers, it
performs no operation of the SWD engine, of the pins or of the reset line, and the word stays
as it is; the only exception is a DAP_Connect over USB that preempts a network owner. -/
theorem bystander_untouched {tr : Transport} {link : Link} {request : List Byte} {capacity : ℕ}
    {w : OtaDevice T} (htransport : link.context.owner = tr.owner)
    (hheld : controlState w.ownershipControl = holder.code) (hother : tr.owner ≠ holder)
    (hclaim : link.claim.owner = ownerNone ∨ link.claim.owner = tr.owner.code)
    {v : (List Byte × Link) × List TargetCall} {w' : OtaDevice T}
    {record : List (Σ a, Resp OtaIo.Answer a)}
    (hrun : (tracedPacket env link request capacity).Runs (recorded (otaExec t)) v (w, [])
      (w', record))
    (hpreempt : ¬ (byteAt request 0 = DapCommand.connect.code ∧
      Preempted w.ownershipControl holder tr.owner record)) :
    (∀ c ∈ v.2, c.IsDelay) ∧ (∀ e ∈ record, ¬ e.1.Drives) ∧
      w'.ownershipControl = w.ownershipControl := by
  have hstart : Apart w.ownershipControl holder tr.owner
      (byteAt request 0 = DapCommand.connect.code) ⟨false, holder.code⟩
      (⟨link.claim, .zero, 0⟩, []) (w, []) :=
    .inr ⟨⟨rfl, by simp⟩, by simp, rfl, rfl, hclaim⟩
  have hpacket : (tracedPacket env link request capacity).Ensures (recorded (otaExec t))
      (fun v x => ¬ (byteAt request 0 = DapCommand.connect.code ∧
        Preempted w.ownershipControl holder tr.owner x.2) →
        (∀ c ∈ v.2, c.IsDelay) ∧ Undriven w.ownershipControl x) (w, []) := by
    refine Prog.Ensures.bind (Prog.Follows.ensures_handle
      (follows_dapProcess link.context request capacity htransport rfl)
      (fun pin st x c hx hc => ?_) hstart) ?_
    · exact (apart_managedCall hheld hother c hx hc).bind fun _ _ hy => hy
    · rintro r x ⟨pin, -, hpre | ⟨hx, hdelays, -⟩⟩ hno
      · exact absurd ⟨hpre.2, hpre.1⟩ hno
      · exact ⟨hdelays, hx⟩
  obtain ⟨hdelays, hundriven⟩ := ensures_iff_runs.mp hpacket v (w', record) hrun hpreempt
  exact ⟨hdelays, hundriven.quiet, hundriven.word⟩

/-- The network transport remembers a session, and the USB transport holds the pins. -/
def staleLink : Link :=
  ⟨{ TransportContext.init .network [] [] with processor.selectedPort := dapPortSwd },
    ⟨ownerNetwork, 1⟩⟩

def usbHolds : OtaDevice Unit := { otaDevice with ownershipControl := makeControl 2 ownerUsb }

/-- A bit sequence of the network transport is answered with an error. -/
theorem stale_sequence_untouched : ∃ v w' record,
    (tracedPacket ⟨fun _ => TargetCall.granted 0, .error .internalError, 1⟩ staleLink
        [0x12, 0x08, 0xFF] 64).Runs (recorded (otaExec ())) v (usbHolds, []) (w', record) ∧
      v.1.1 = [0x12, 0xFF] ∧ (∀ c ∈ v.2, c.IsDelay) ∧ (∀ e ∈ record, ¬ e.1.Drives) ∧
      w'.ownershipControl = usbHolds.ownershipControl := by
  have hends : (tracedPacket ⟨fun _ => TargetCall.granted 0, .error .internalError, 1⟩ staleLink
      [0x12, 0x08, 0xFF] 64).Ends (recordedAnswer (willing ())) (fun v _ => v.1.1 = [0x12, 0xFF])
      (usbHolds, []) := by
    decide +kernel
  obtain ⟨v, ⟨w', record⟩, hrun, hresponse⟩ := hends.runs (recorded_answer (otaExec_answer _ ()))
  have htr : staleLink.context.owner = Transport.network.owner := rfl
  have hheld : controlState usbHolds.ownershipControl = Owner.usb.code := by decide
  have hother : Transport.network.owner ≠ Owner.usb := by decide
  exact ⟨v, w', record, hrun, hresponse, bystander_untouched htr hheld hother (.inr rfl) hrun
    fun h => absurd h.2.1 (by decide)⟩

end Packets
end AirDap

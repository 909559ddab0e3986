import AirDap.Dap.LinkSpecs

/-! What a packet of a transport does, under interference: after every packet the transport
has the claim of the word it holds, and a packet that tells it that it is disconnected has
given the pins back. -/
namespace AirDap
open Concurrency Prog

variable {T : Type} [DecidableEq T] {host : Transport → T} {tr : Transport} {t : T}
  {c : LinkCall} {w₀ : Device (Transport → Link)} {s : LinkState T} {P : LinkState T → Prop}
  {α : Type}

/-- No operation is running, and the transport has the claim of the word it holds. -/
def LinkInv (host : Transport → T) (t : T) (c : LinkCall) (w₀ : Device (Transport → Link))
    (tr : Transport) (st : LinkHandles Unit) (s : LinkState T) : Prop :=
  st.operation = .zero ∧ LinkOn host t c w₀ (Secured tr st.claim) s

/-- The calls of the backend that change neither the claim nor the operation. -/
def LowerCall.Plain : LowerCall → Prop
  | .otaDebugAllowed | .ownershipCurrent | .otaHandleDisconnect | .otaProcess _ _ _
  | .target _ => True
  | _ => False

theorem lowerCode_plain (hP : LinkRides host t P) (ota : List OtaStep) (call : LowerCall)
    (hcall : call.Plain) (st : LinkHandles Unit) (hs : P s) :
    LinkWp host t (lowerCode (linkBelow ota) call st) (fun r s => r.2 = st ∧ P s) s := by
  cases call with
  | ownershipCurrent =>
    exact (ownershipCurrent_spec link_arbitrated hP.carries link_ready hs).bind
      fun _ s₁ hs₁ => ⟨rfl, hs₁.1⟩
  | otaHandleDisconnect => exact (link_otaCode hP ota hs).bind fun _ s₁ hs₁ => ⟨rfl, hs₁⟩
  | otaProcess connected request capacity =>
    have hanswered : LinkWp host t
        ((linkBelow ota).otaProcess connected request capacity) (fun _ => P) s :=
      (link_otaCode hP ota hs).bind
        fun _ s₁ hs₁ => wp_link_local (.io _) hP hs₁ trivial fun _ s₂ hs₂ => hs₂
    exact hanswered.bind fun _ s₁ hs₁ => ⟨rfl, hs₁⟩
  | otaDebugAllowed => exact wp_link_local (.io _) hP hs trivial fun _ s₁ hs₁ => ⟨rfl, hs₁⟩
  | target call => exact wp_link_local (.io _) hP hs trivial fun _ s₁ hs₁ => ⟨rfl, hs₁⟩
  | _ => exact hcall.elim

theorem target_body (hP : LinkRides host t P) (ota : List OtaStep) {body : LowerCode α}
    (hbody : body.Yields LowerCall.IsTarget fun _ => True) (st : LinkHandles Unit) (hs : P s) :
    LinkWp host t (body.handle (lowerCode (linkBelow ota)) st) (fun r s => r.2 = st ∧ P s) s := by
  apply (Discipline.wp_handle hbody (P := fun x s => x = st ∧ P s) ?_ ⟨rfl, hs⟩).mono
  · exact fun _ _ h => h.2
  · rintro _ x s ⟨call, rfl⟩ ⟨rfl, hs⟩
    exact lowerCode_plain hP ota (.target call) trivial x hs

section Callbacks

variable (hhost : host tr = t) (htr : c.transport = some tr) (ota : List OtaStep)
  {st : LinkHandles Unit}
include hhost htr

theorem link_withOperation {body : LowerCode α}
    (hbody : body.Yields LowerCall.IsTarget fun _ => True) (refused : α)
    (hs : LinkInv host t c w₀ tr st s) :
    LinkWp host t ((withOperation tr.owner refused body).handle (lowerCode (linkBelow ota)) st)
      (fun r => LinkInv host t c w₀ tr r.2) s := by
  obtain ⟨claim, operation, _⟩ := st
  obtain ⟨rfl, hs⟩ := hs
  apply Discipline.wp.bind (P := fun r s => LinkBegun host t c w₀ tr claim
    (if r.1 then .allowed else .busy, some r.2.operation) s ∧ r.2.claim = claim)
  · apply (link_dapOperationBegin hhost htr hs).bind
    intro v s₁ hpost
    cases hpost with
    | allowed hs₁ => exact ⟨.allowed hs₁, rfl⟩
    | refused hs₁ hr =>
      refine ⟨?_, rfl⟩
      simp only [hr, decide_false, Bool.false_eq_true, if_false]
      exact .refused hs₁ (by decide)
  · rintro ⟨begun, ⟨claim', operation, _⟩⟩ s₁ ⟨hpost, rfl⟩
    cases begun with
    | false =>
      cases hpost with
      | refused hs₁ _ => exact ⟨rfl, hs₁⟩
    | true =>
      cases hpost with
      | refused _ hr => exact absurd rfl hr
      | allowed hs₁ =>
        change LinkWp host t (Prog.handle _ (body >>= _) _) _ _
        rw [handle_bind]
        apply (target_body (linkOn_owed hhost).lent ota hbody _ hs₁).bind
        rintro ⟨v, st⟩ s₂ ⟨rfl, hs₂⟩
        apply Discipline.wp.bind (P := fun r s => LinkInv host t c w₀ tr r.2 s)
        · exact (link_operationEnd hhost hs₂).bind fun v s₃ hs₃ => by
            obtain ⟨hs₃, rfl⟩ := hs₃
            exact ⟨rfl, hs₃⟩
        · exact fun _ s₃ hs₃ => hs₃

/-- A callback of the backend keeps the claim; the one that disconnects gives the pins back. -/
theorem link_backendDisconnect (hs : LinkInv host t c w₀ tr st s) :
    LinkWp host t ((backendDisconnect tr.owner).handle (lowerCode (linkBelow ota)) st)
      (fun r s => LinkInv host t c w₀ tr r.2 s ∧ Free tr s) s := by
  apply Discipline.wp.bind (P := fun r s => r.2 = st ∧
    LinkOn host t c w₀ (fun s => Secured tr st.claim s ∧ Free tr s) s)
  · exact (link_release hhost hs.2).bind fun _ s₁ hs₁ => ⟨rfl, hs₁⟩
  · rintro r s₁ ⟨hst, hs₁⟩
    have hdone {x : LinkHandles Unit} {s : LinkState T} (hx : x = st)
        (h : LinkOn host t c w₀ (fun s => Secured tr st.claim s ∧ Free tr s) s) :
        LinkInv host t c w₀ tr x s ∧ Free tr s := by
      subst hx
      exact ⟨⟨hs.1, h.1, h.2.1⟩, h.2.2⟩
    cases tr with
    | usb =>
      apply (lowerCode_plain (linkOn_free hhost) ota .otaHandleDisconnect trivial r.2
        hs₁).bind
      exact fun _ s₂ hs₂ => hdone (hs₂.1.trans hst) hs₂.2
    | network => exact hdone hst hs₁

theorem link_backendConnect (hc : c.Connects tr) (clockHz : Word)
    (hs : LinkInv host t c w₀ tr st s) (hread : Unread t s) :
    LinkWp host t ((backendConnect tr.owner clockHz).handle (lowerCode (linkBelow ota)) st)
      (fun r => LinkInv host t c w₀ tr r.2) s := by
  apply Discipline.wp.bind (P := fun r s => r.2 = st ∧ LinkInv host t c w₀ tr st s ∧ Unread t s)
  · exact wp_link_unread hhost (.io _) ⟨hs.2, hread⟩ trivial (fun _ _ => rfl)
      fun _ s₁ hs₁ => ⟨rfl, ⟨hs.1, hs₁.1⟩, hs₁.2⟩
  · rintro ⟨allowed, _⟩ s₁ ⟨rfl, hs₁, hread₁⟩
    cases allowed with
    | false => exact hs₁
    | true =>
      apply Discipline.wp.bind (P := fun r s => LinkInv host t c w₀ tr r.2 s)
      · apply (link_modeDapAcquire hhost hc htr ⟨hs₁.2, hread₁⟩).bind
        rintro ⟨result, _⟩ s₂ ⟨claim, rfl, hs₂⟩
        exact ⟨hs₁.1, hs₂⟩
      · rintro ⟨acquired, _⟩ s₂ hs₂
        cases acquired with
        | false => exact hs₂
        | true =>
          exact link_withOperation hhost htr ota (target_yields (.setClock clockHz)) false hs₂

theorem link_backendCall (selectedPort : Byte) (call : BackendCall) (hcall : call ≠ .connect)
    (clockHz : Word) (hs : LinkInv host t c w₀ tr st s) :
    LinkWp host t
      ((backendCall tr.owner selectedPort call clockHz).handle (lowerCode (linkBelow ota)) st)
      (fun r => LinkInv host t c w₀ tr r.2) s := by
  have hparts : CallbackParts tr.owner fun p => LinkWp host t
      (p.handle (lowerCode (linkBelow ota)) st) (fun r => LinkInv host t c w₀ tr r.2) s := by
    refine ⟨fun _ => hs, fun _ hp => ?_, fun refused body hbody => ?_, fun _ => ?_⟩
    · rw [withClock, handle_bind]
      exact hp.bind fun _ s₁ hs₁ => hs₁
    · exact link_withOperation hhost htr ota hbody refused hs
    · refine (lowerCode_plain (linkOn_secured hhost) ota (.target (.romDelayUs _)) trivial st
        hs.2).bind fun _ s₁ hs₁ => ?_
      obtain ⟨rfl, hs₁⟩ := hs₁
      exact ⟨hs.1, hs₁⟩
  cases call with
  | connect => exact absurd rfl hcall
  | disconnect =>
    exact hparts.clock _ ((link_backendDisconnect hhost htr ota hs).mono fun _ _ h => h.1)
  | vendorCommand command request capacity =>
    apply hparts.clock
    apply Discipline.wp.bind (P := fun r s => LinkInv host t c w₀ tr r.2 s)
    · exact (lowerCode_plain (linkOn_secured hhost) ota .ownershipCurrent trivial st hs.2).mono
        fun r s₁ hs₁ => ⟨hs₁.1 ▸ hs.1, hs₁.1 ▸ hs₁.2⟩
    · intro r s₁ hs₁
      exact (lowerCode_plain (linkOn_secured hhost) ota (.otaProcess _ request capacity) trivial r.2
        hs₁.2).bind fun _ s₂ hs₂ => ⟨hs₂.1 ▸ hs₁.1, hs₂.1 ▸ hs₂.2⟩
  | _ => exact hparts.call tr.owner selectedPort (by trivial) clockHz

end Callbacks

/-! Packets -/

section Packets

variable (hhost : host tr = t) (htr : c.transport = some tr) (ota : List OtaStep)
  {st : LinkHandles Unit} {clockHz : Word} {selectedPort : Byte} {processor : Processor}
  {request : List Byte} {capacity : ℕ}
include hhost htr

theorem linked_disconnect (hs : LinkInv host t c w₀ tr st s) :
    LinkWp host t (carried (linkBelow ota) tr.owner selectedPort (.act .disconnect .ret) clockHz st)
      (fun r s => LinkInv host t c w₀ tr r.2 s ∧ Free tr s) s := by
  rw [carried, Prog.handle, handle_bind]
  apply Discipline.wp.bind (P := fun r s => LinkInv host t c w₀ tr r.2 s ∧ Free tr s)
  · rw [backendCall, withClock, handle_bind]
    exact (link_backendDisconnect hhost htr ota hs).bind fun _ s₁ hs₁ => hs₁
  · exact fun _ s₁ hs₁ => hs₁

theorem linked_connect (hc : c.Connects tr) (hs : LinkInv host t c w₀ tr st s)
    (hread : Unread t s) :
    LinkWp host t (carried (linkBelow ota) tr.owner selectedPort (.act .connect .ret) clockHz st)
      (fun r => LinkInv host t c w₀ tr r.2) s := by
  rw [carried, Prog.handle, handle_bind]
  apply Discipline.wp.bind (P := fun r s => LinkInv host t c w₀ tr r.2 s)
  · rw [backendCall, withClock, handle_bind]
    exact (link_backendConnect hhost htr ota hc clockHz hs hread).bind fun _ s₁ hs₁ => hs₁
  · exact fun _ s₁ hs₁ => hs₁

theorem linked_yields {p : DapCode α} {φ : α → Prop} (hp : p.Yields (· ≠ .connect) φ)
    (hs : LinkInv host t c w₀ tr st s) :
    LinkWp host t (carried (linkBelow ota) tr.owner selectedPort p clockHz st)
      (fun r s => φ r.1.1 ∧ LinkInv host t c w₀ tr r.2 s) s :=
  Discipline.wp_handle_handle hp (P := fun _ st s => LinkInv host t c w₀ tr st s)
    (fun call x _ _ hcall hs => link_backendCall hhost htr ota selectedPort call hcall x hs) hs

variable (request capacity) in
theorem linked_processDisconnect (hbackend : processor.backend = installedBackend)
    (hs : LinkInv host t c w₀ tr st s) :
    LinkWp host t
      (carried (linkBelow ota) tr.owner selectedPort (processDisconnect processor request capacity)
        clockHz st)
      (fun r s => processor.SameDevice r.1.1.2 ∧ LinkInv host t c w₀ tr r.2 s ∧ Free tr s) s := by
  rw [processDisconnect, hbackend, carried_bind]
  exact (linked_disconnect hhost htr ota hs).bind fun _ s₁ hs₁ => ⟨⟨hbackend.symm, rfl, rfl⟩, hs₁⟩

theorem linked_processConnect (hbackend : processor.backend = installedBackend)
    (hc : c.Connects tr) (hs : LinkInv host t c w₀ tr st s) (hread : Unread t s) :
    LinkWp host t
      (carried (linkBelow ota) tr.owner selectedPort (processConnect processor request capacity)
        clockHz st)
      (fun r s => processor.SameDevice r.1.1.2 ∧ LinkInv host t c w₀ tr r.2 s ∧
        (r.1.1.1 = [DapCommand.connect.code, dapPortDisabled] → Free tr s)) s := by
  unfold processConnect
  split
  · refine ⟨.refl _, hs, fun h => ?_⟩
    change invalidResponse capacity = _ at h
    rw [invalidResponse] at h
    split at h <;> cases h
  · rw [carried_bind]
    apply Discipline.wp.bind (P := fun r s => LinkInv host t c w₀ tr r.2 s)
    · unfold connectPort
      split
      · rw [hbackend]
        exact linked_connect hhost htr ota hc hs hread
      · exact hs
    · intro r s₁ hs₁
      rw [carried_bind]
      cases hconnected : r.1.1 with
      | true =>
        refine ⟨⟨rfl, rfl, rfl⟩, hs₁, fun h => ?_⟩
        have hport := (List.cons.inj (List.cons.inj h).2).1
        exact absurd hport (by decide)
      | false =>
        rw [disconnectUnless, hbackend]
        exact (linked_disconnect hhost htr ota hs₁).bind
          fun _ s₂ hs₂ => ⟨⟨hbackend.symm, rfl, rfl⟩, hs₂.1, fun _ => hs₂.2⟩

theorem linked_processPacket (hbackend : processor.backend = installedBackend)
    (hc : byteAt request 0 = DapCommand.connect.code → c.Connects tr)
    (hs : LinkInv host t c w₀ tr st s) (hread : Unread t s) :
    LinkWp host t
      (carried (linkBelow ota) tr.owner selectedPort (processPacket processor request capacity)
        clockHz st)
      (fun r s => processor.SameDevice r.1.1.2 ∧ LinkInv host t c w₀ tr r.2 s ∧
        (Disconnecting request r.1.1.1 → Free tr s)) s := by
  unfold processPacket
  split
  · refine ⟨.refl _, hs, fun h => ?_⟩
    rcases h with h | h
    · cases h.2
    · exact absurd rfl h.2
  · by_cases hconnect : DapCommand.ofByte (byteAt request 0) = some .connect
    · rw [hconnect]
      have hcode := DapCommand.code_of_ofByte hconnect
      apply (linked_processConnect hhost htr ota hbackend (hc hcode) hs hread).mono
      refine fun r s₁ hs₁ => ⟨hs₁.1, hs₁.2.1, fun h => ?_⟩
      rcases h with h | h
      · exact hs₁.2.2 h.2
      · exact absurd (hcode.symm.trans h.1) (by decide)
    · by_cases hdisconnect : DapCommand.ofByte (byteAt request 0) = some .disconnect
      · rw [hdisconnect]
        apply (linked_processDisconnect hhost htr ota request _ hbackend hs).mono
        exact fun r s₁ hs₁ => ⟨hs₁.1, hs₁.2.1, fun _ => hs₁.2.2⟩
      · apply (linked_yields hhost htr ota (processCommand_yields processor request _ _ hconnect)
          hs).mono
        refine fun r s₁ hs₁ => ⟨hs₁.1, hs₁.2, fun h => ?_⟩
        rcases h with h | h
        · rw [h.1, DapCommand.ofByte_code] at hconnect
          exact absurd rfl hconnect
        · rw [h.1, DapCommand.ofByte_code] at hdisconnect
          exact absurd rfl hdisconnect

end Packets
end AirDap

import AirDap.Dap.Passes

/-! A packet that is answered as invalid: which commands have had an effect by then. -/
namespace AirDap
open Concurrency

variable {processor : Processor} {request : List Byte} {capacity : ℕ}

/-- A packet that is answered with the single byte `0xFF` called nothing of the backend and left
the processor as it was. -/
def InvalidHasNoEffect (processor : Processor) (request : List Byte) (capacity : ℕ) : Prop :=
  ∀ events v, (processPacket processor request capacity).Traces events v → v.1 = [dapInvalid] →
    events = [] ∧ v.2 = processor

/-- The command does nothing and keeps the processor, or its response is not the invalid one. -/
def Guarded (processor : Processor) (p : DapCode (List Byte × Processor)) : Prop :=
  (∃ response, p = pure (response, processor)) ∨
    p.Yields (fun _ => True) fun v => v.1.length ≠ 1

theorem Guarded.no_effect {p : DapCode (List Byte × Processor)} (h : Guarded processor p)
    {events : List BackendEvent} {v : List Byte × Processor} (htrace : p.Traces events v)
    (hv : v.1 = [dapInvalid]) : events = [] ∧ v.2 = processor := by
  rcases h with ⟨response, rfl⟩ | h
  · obtain ⟨rfl, rfl⟩ := htrace
    exact ⟨rfl, rfl⟩
  · exact absurd (congrArg List.length hv) (h.traces htrace).2

theorem processCommand_guarded {command : Option DapCommand} (hvendor : ∀ c ∈ command, ¬ c.Vendor)
    (htransfer : command ≠ some .transfer) :
    Guarded processor (processCommand processor request dapPacketSize command) := by
  by_cases hworks : ∀ c ∈ command, c.Works
  · rcases processCommand_checked processor request dapPacketSize command hworks htransfer with
      ⟨response, h, -⟩ | h
    · exact .inl ⟨response, h⟩
    · exact .inr (h.mono (fun _ _ => trivial) fun _ h => h.2.2 (by decide))
  · push Not at hworks
    obtain ⟨c, rfl, hc⟩ := hworks
    cases c with
    | connect =>
      refine iteInduction (fun _ => .inl ⟨_, rfl⟩) fun _ => .inr ?_
      refine (connectPort_yields _ _).bind fun connected _ => ?_
      exact (disconnectUnless_yields _ _).bind fun _ _ => Nat.succ_ne_self 1
    | disconnect =>
      exact .inr ((callback_yields _ .disconnect _ trivial).bind fun _ _ => Nat.succ_ne_self 1)
    | otaQuery | otaBegin | otaWrite | otaCommit | otaAbort | otaReboot =>
      exact absurd trivial (hvendor _ rfl)
    | _ => exact absurd trivial hc

/-! DAP_Transfer -/

section Transfer

variable {done rest : List TransferEntry} {e : TransferEntry} {retries : ℕ} {mask : Word}
  {events : List BackendEvent} {out : List Byte}

/-- An invalid entry behind entries that have an effect: a transfer, or another match mask. -/
def InvalidBehind (processor : Processor) (entries : List TransferEntry) : Prop :=
  ∃ done e rest, entries = done ++ e :: rest ∧ e.Invalid ∧ (∀ d ∈ done, ¬ d.Invalid) ∧
    ((processor.backend.transfer = true ∧ ∃ d ∈ done, d.masks = false) ∨
      ((∀ d ∈ done, d.masks = true) ∧ maskAfter processor.matchMask done ≠ processor.matchMask))

theorem Completes.exists_ok (h : Completes retries mask e events out) (hmask : e.masks = false) :
    ∃ a ∈ events, eventStatus a = transferOk := by
  cases h with
  | mask hmasks _ => exact absurd (hmask.symm.trans hmasks) (by decide)
  | write _ _ hstatus => exact ⟨_, List.mem_cons_self, hstatus⟩
  | read _ _ hstatus => exact ⟨_, List.mem_cons_self, hstatus⟩
  | @matched answers _ _ hrun =>
    have hnil : answers.map (e.event 0) ≠ [] := by simpa using hrun.answers_ne_nil
    refine ⟨_, List.getLast_mem hnil, ?_⟩
    have hlast : lastStatus (answers.map (e.event 0)) = transferOk := hrun.lastStatus_matched
    rwa [lastStatus, List.getLast?_eq_some_getLast hnil] at hlast

theorem CompletesAll.exists_ok (h : CompletesAll retries mask done events out)
    (hdone : ∃ d ∈ done, d.masks = false) : ∃ a ∈ events, eventStatus a = transferOk := by
  induction h with
  | nil =>
    obtain ⟨d, hd, -⟩ := hdone
    cases hd
  | cons hfirst hrest ih =>
    obtain ⟨d, hd, hmask⟩ := hdone
    rcases List.mem_cons.mp hd with rfl | hd
    · obtain ⟨a, ha, hstatus⟩ := hfirst.exists_ok hmask
      exact ⟨a, List.mem_append_left _ ha, hstatus⟩
    · obtain ⟨a, ha, hstatus⟩ := ih ⟨d, hd, hmask⟩
      exact ⟨a, List.mem_append_right _ ha, hstatus⟩

theorem CompletesAll.not_invalid (h : CompletesAll retries mask done events out) :
    ∀ d ∈ done, ¬ d.Invalid := by
  induction h with
  | nil => exact nofun
  | cons hfirst hrest ih => exact List.forall_mem_cons.mpr ⟨hfirst.not_invalid, ih⟩

theorem Completes.events_of_mask (h : Completes retries mask e events out)
    (hmask : e.masks = true) : events = [] := by
  cases h with
  | mask _ _ => rfl
  | write hplain _ _ => exact absurd (hmask.symm.trans hplain.1) (by decide)
  | read hplain _ _ => exact absurd (hmask.symm.trans hplain.1) (by decide)
  | matched hnone _ _ => exact absurd (hmask.symm.trans hnone) (by decide)

theorem CompletesAll.events_of_masks (h : CompletesAll retries mask done events out)
    (hdone : ∀ d ∈ done, d.masks = true) : events = [] := by
  induction h with
  | nil => rfl
  | cons hfirst hrest ih =>
    obtain ⟨hmask, hdone⟩ := List.forall_mem_cons.mp hdone
    rw [hfirst.events_of_mask hmask, ih hdone]
    rfl

theorem invalid_traces (hc : DapCommand.ofByte (byteAt request 0) = some .transfer)
    (haccepted : Accepted processor request (min capacity dapPacketSize)) {passes : List Pass}
    {items : ℕ} {st : TransferState}
    (harrives : Arrives request (min capacity dapPacketSize) (byteAt request 2).toNat
      (.start processor) done e passes items st)
    (hinvalid : e.Invalid) :
    (processPacket processor request capacity).Traces (passCalls passes)
      ([dapInvalid], st.processor) := by
  obtain rfl := harrives.entry
  have hitem : (transferItem request (min capacity dapPacketSize) st).Traces []
      (.ended (.error { st with input := st.input + 1 })) := by
    rw [transferItem_mask harrives.sized.itemEnd_le hinvalid.1, if_pos hinvalid.2]
    exact ⟨rfl, rfl⟩
  have hresponse : invalidResponse (min capacity dapPacketSize) = [dapInvalid] := by
    have := haccepted.fits
    exact if_pos (by omega)
  have hpasses := harrives.goesOn _ _ (.ended hitem)
  refine (haccepted.packet_traces hc).mpr ⟨_, _, [], hpasses, ⟨rfl, ?_⟩, ?_⟩
  · rw [hresponse]
  · simp [passCalls]

theorem Accepted.invalid_result (hc : DapCommand.ofByte (byteAt request 0) = some .transfer)
    (haccepted : Accepted processor request (min capacity dapPacketSize))
    {v : List Byte × Processor}
    (htrace : (processPacket processor request capacity).Traces events v)
    (hv : v.1 = [dapInvalid]) :
    ∃ done e rest out attempts, transferEntries request = done ++ e :: rest ∧ e.Invalid ∧
      CompletesAll processor.matchRetries.toNat processor.matchMask done attempts out ∧
      Made processor.backend.transfer attempts events ∧
      v.2 = { processor with matchMask := maskAfter processor.matchMask done } := by
  have hcapacity : capacity ≠ 0 := by
    have := haccepted.fits
    omega
  rw [processPacket_transfer hc hcapacity, haccepted.processTransfer_eq hc] at htrace
  obtain ⟨first, r, rest, rfl, hloop, hresponse⟩ := Prog.traces_bind.mp htrace
  obtain ⟨attempts, hmade, hresult⟩ :=
    transferLoop_traces (.start processor) (haccepted.sized hc) rfl hloop
  have hlong {st : TransferState} (h : (transferResponse (min capacity dapPacketSize)
      (.ok st)).Traces rest v) : False := by
    obtain ⟨_, status, _, -, -, -, rfl⟩ := Prog.traces_bind.mp h
    have hlength : 3 + st.output.length = 1 := by
      simpa [Nat.add_comm] using congrArg List.length hv
    omega
  cases hresult with
  | all _ _ _ => exact (hlong hresponse).elim
  | stopped _ _ _ _ _ => exact (hlong hresponse).elim
  | invalid hentries hrun hinvalid hst =>
    obtain ⟨rfl, rfl⟩ := hresponse
    exact ⟨_, _, _, _, attempts, hentries, hinvalid, hrun, by rw [List.append_nil]; exact hmade,
      hst.processor⟩

end Transfer

/-- A packet that is answered as invalid has no effect, unless it is a DAP_Transfer with an
invalid entry behind entries that have been run. -/
theorem invalidHasNoEffect_iff (processor : Processor) (request : List Byte) (capacity : ℕ)
    (hcapacity : dapPacketSize ≤ capacity)
    (hvendor : ∀ c ∈ DapCommand.ofByte (byteAt request 0), ¬ c.Vendor) :
    InvalidHasNoEffect processor request capacity ↔
      ¬ (byteAt request 0 = DapCommand.transfer.code ∧ Accepted processor request dapPacketSize ∧
        InvalidBehind processor (transferEntries request)) := by
  have hmin : min capacity dapPacketSize = dapPacketSize := min_eq_right hcapacity
  constructor
  · rintro h ⟨hcode, haccepted, done, e, rest, hentries, hinvalid, hdone, heffect⟩
    have hc : DapCommand.ofByte (byteAt request 0) = some .transfer := by rw [hcode]; rfl
    have hpresent : ∀ d ∈ done, ¬ d.Invalid ∧
        (d.masks = true ∨ processor.backend.transfer = true) := by
      intro d hd
      rcases heffect with ⟨hpresent, -⟩ | ⟨hmasks, -⟩
      · exact ⟨hdone d hd, .inr hpresent⟩
      · exact ⟨hdone d hd, .inl (hmasks d hd)⟩
    obtain ⟨passes, items, st, harrives⟩ := exists_arrives (haccepted.sized hc) hentries hpresent
    obtain ⟨hcalls, hprocessor⟩ := h (passCalls passes) ([dapInvalid], st.processor)
      (invalid_traces hc (by rwa [hmin]) (by rwa [hmin]) hinvalid) rfl
    rcases heffect with ⟨-, hdone⟩ | ⟨-, hmask⟩
    · exact harrives.calls hdone hcalls
    · rw [harrives.processor] at hprocessor
      exact hmask (congrArg Processor.matchMask hprocessor)
  · intro h events v htrace hv
    by_cases hcode : byteAt request 0 = DapCommand.transfer.code
    · have hc : DapCommand.ofByte (byteAt request 0) = some .transfer := by rw [hcode]; rfl
      by_cases haccepted : Accepted processor request dapPacketSize
      · obtain ⟨done, e, rest, out, attempts, hentries, hinvalid, hrun, hmade, hprocessor⟩ :=
          (hmin ▸ haccepted).invalid_result hc htrace hv
        have hnone (heffect) : False := h ⟨hcode, haccepted, done, e, rest, hentries, hinvalid,
          hrun.not_invalid, heffect⟩
        have hmasks : ∀ d ∈ done, d.masks = true := by
          intro d hd
          by_contra hmask
          rw [Bool.not_eq_true] at hmask
          cases hpresent : processor.backend.transfer with
          | true => exact hnone (.inl ⟨hpresent, d, hd, hmask⟩)
          | false =>
            obtain ⟨a, ha, hstatus⟩ := hrun.exists_ok ⟨d, hd, hmask⟩
            exact absurd (hstatus.symm.trans (hmade.absent hpresent a ha)) (by decide)
        refine ⟨?_, ?_⟩
        · rw [hmade.events_eq, hrun.events_of_masks hmasks, ite_self]
        · have hmask : maskAfter processor.matchMask done = processor.matchMask := by
            by_contra hne
            exact hnone (.inr ⟨hmasks, hne⟩)
          rw [hprocessor, hmask]
      · obtain ⟨response, heq⟩ := processPacket_refused hc (hmin ▸ haccepted)
        rw [heq] at htrace
        obtain ⟨rfl, rfl⟩ := htrace
        exact ⟨rfl, rfl⟩
    · rw [processPacket, hmin] at htrace
      by_cases hempty : request.length = 0 ∨ capacity = 0
      · rw [if_pos hempty] at htrace
        obtain ⟨rfl, rfl⟩ := htrace
        exact ⟨rfl, rfl⟩
      · rw [if_neg hempty] at htrace
        refine (processCommand_guarded hvendor fun hc => hcode ?_).no_effect htrace hv
        exact DapCommand.code_of_ofByte hc

theorem unknown_command_has_no_effect :
    InvalidHasNoEffect connectedProcessor [0x7F] 508 :=
  (invalidHasNoEffect_iff connectedProcessor [0x7F] 508 le_rfl (by rintro c ⟨⟩)).mpr
    fun h => absurd h.1 (by decide)

/-- A write to the debug port and then a read that carries MATCH_MASK: the write is made and the
packet is answered as invalid. -/
theorem invalid_after_write :
    ¬ InvalidHasNoEffect connectedProcessor [0x05, 0x00, 0x02, 0x08, 0x78, 0x56, 0x34, 0x12, 0x22]
      508 := by
  intro h
  have hnone := h [⟨.transfer false false 0x08 0x12345678, (true, 0, transferOk)⟩]
    ([0xFF], connectedProcessor) ⟨_, [], rfl, rfl, rfl⟩ rfl
  exact absurd hnone.1 (List.cons_ne_nil _ _)

end AirDap

import AirDap.Dap.Transfer

/-! Which entry of a DAP_Transfer a call of the backend is made for, and what a transfer has done
when it ends as invalid. -/
namespace AirDap
open Concurrency Prog

variable {processor : Processor} {request : List Byte} {capacity items : ℕ} {st : TransferState}
  {e : TransferEntry} {done rest : List TransferEntry} {events : List BackendEvent}
  {r : Except TransferState TransferState}

/-- A pass of the loop: its entry and the calls it makes. -/
abbrev Pass := TransferEntry × List BackendEvent

/-- The calls of the passes, one after the other. -/
def passCalls (passes : List Pass) : List BackendEvent := (passes.map Prod.snd).flatten

/-- The passes of the loop, each with the entry it reads. -/
inductive Passes (request : List Byte) (capacity : ℕ) :
    ℕ → TransferState → List Pass → Except TransferState TransferState → Prop
  | done {st : TransferState} : Passes request capacity 0 st [] (.ok st)
  | ended {items : ℕ} {st : TransferState} {events : List BackendEvent}
      {r : Except TransferState TransferState}
      (hitem : (transferItem request capacity st).Traces events (.ended r)) :
      Passes request capacity (items + 1) st [(entryAt request st.input, events)] r
  | next {items : ℕ} {st st' : TransferState} {events : List BackendEvent} {passes : List Pass}
      {r : Except TransferState TransferState}
      (hitem : (transferItem request capacity st).Traces events (.next st'))
      (hrest : Passes request capacity items st' passes r) :
      Passes request capacity (items + 1) st ((entryAt request st.input, events) :: passes) r

theorem transferLoop_passes : (transferLoop request capacity items st).Traces events r ↔
    ∃ passes, Passes request capacity items st passes r ∧ events = passCalls passes := by
  constructor
  · intro h
    induction items generalizing st events with
    | zero =>
      obtain ⟨rfl, rfl⟩ := h
      exact ⟨[], .done, rfl⟩
    | succ items ih =>
      rw [transferLoop_succ] at h
      obtain ⟨first, step, rest, rfl, hitem, h⟩ := traces_bind.mp h
      cases step with
      | ended r' =>
        obtain ⟨rfl, rfl⟩ := h
        exact ⟨_, .ended hitem, rfl⟩
      | next st' =>
        obtain ⟨passes, hpasses, rfl⟩ := ih h
        exact ⟨_, .next hitem hpasses, rfl⟩
  · rintro ⟨passes, h, rfl⟩
    induction h with
    | done => exact ⟨rfl, rfl⟩
    | ended hitem =>
      rw [transferLoop_succ]
      exact traces_bind.mpr ⟨_, _, [], rfl, hitem, rfl, rfl⟩
    | next hitem hrest ih =>
      rw [transferLoop_succ]
      exact traces_bind.mpr ⟨_, _, _, rfl, hitem, ih⟩

/-! Entries that complete -/

variable {flags : Byte} {data wanted : Word} {attempts : ℕ} {status : Byte} {step : TransferStep}
  {answer : Bool × Word × Byte}

section

variable (hpresent : processor.backend.transfer = true)
include hpresent

theorem transferOnce_answer {α : Type} {f : Bool × Word × Byte → DapCode α} {v : α}
    (answer : Bool × Word × Byte)
    (h : (f (answerStatus answer = transferOk, answer.2.1, answerStatus answer)).Traces events v) :
    (transferOnce processor flags data >>= f).Traces
      (TransferEntry.event ⟨flags, 0⟩ data answer :: events) v := by
  rw [transferOnce, callback, if_pos hpresent]
  refine ⟨answer, events, rfl, ?_⟩
  obtain ⟨ok, word, status⟩ := answer
  cases ok <;> exact h

theorem matchLoop_match :
    (matchLoop processor flags wanted (attempts + 1) status).Traces
      [TransferEntry.event ⟨flags, wanted⟩ 0 (true, wanted, transferOk)] (true, transferOk) := by
  rw [matchLoop]
  refine transferOnce_answer hpresent _ ?_
  dsimp only
  rw [if_neg (by simp [answerStatus]), if_pos rfl]
  exact ⟨rfl, rfl⟩

theorem matchLoop_fail :
    (matchLoop processor flags wanted (attempts + 1) status).Traces
      [TransferEntry.event ⟨flags, wanted⟩ 0 (false, 0, 0)] (false, transferError) := by
  rw [matchLoop]
  exact transferOnce_answer hpresent _ ⟨rfl, rfl⟩

end

theorem transferItem_completes (hs : SizedItems request capacity (items + 1) st)
    (hvalid : ¬ (entryAt request st.input).Invalid)
    (hpresent : (entryAt request st.input).masks = true ∨ st.processor.backend.transfer = true) :
    ∃ events bytes, bytes.length ≤ (entryAt request st.input).needs ∧
      ((entryAt request st.input).masks = false → events ≠ []) ∧
      (transferItem request capacity st).Traces events
        (.next (st.after (entryAt request st.input) (itemEnd request st.input) bytes)) := by
  set e := entryAt request st.input with he
  cases hmask : e.masks with
  | true =>
    refine ⟨[], [], Nat.zero_le _, nofun, ?_⟩
    rw [transferItem_mask hs.itemEnd_le hmask, if_neg fun hread => hvalid ⟨hmask, hread⟩]
    exact ⟨rfl, rfl⟩
  | false =>
    have hpresent := hpresent.resolve_left (by simp [hmask])
    have hneeds := hs.needs_le
    rw [← he] at hneeds
    rw [transferItem_transfer hs.itemEnd_le hmask, ← he]
    cases hmatch : e.hasMatch with
    | true =>
      refine ⟨[e.event 0 (true, e.word, transferOk)], [], Nat.zero_le _, fun _ => by simp, ?_⟩
      rw [if_pos rfl, TransferState.after_match hmask hmatch]
      refine traces_bind.mpr ⟨_, (true, _), [], (List.append_nil _).symm, ?_, rfl, rfl⟩
      exact traces_bind.mpr ⟨_, _, [], rfl, matchLoop_match hpresent, rfl, rfl⟩
    | false =>
      have hplain : e.Plain := ⟨hmask, hmatch⟩
      cases hread : e.read with
      | false =>
        refine ⟨[e.event e.word (true, 0, transferOk)], [], Nat.zero_le _, fun _ => by simp, ?_⟩
        rw [TransferState.after_plain hplain, hread, List.append_nil]
        exact transferOnce_answer hpresent _ ⟨rfl, rfl⟩
      | true =>
        have hdata : ¬ hasData e.flags = true := by
          simp only [hasData, show hasFlag e.flags transferRead = true from hread,
            show hasFlag e.flags transferMatchValue = false from hmatch]
          decide
        have hlength : (readBytes e.flags 0).length = e.needs := by
          rw [TransferEntry.needs, if_neg hdata, length_readBytes]
        refine ⟨[e.event e.word (true, 0, transferOk)], readBytes e.flags 0, hlength.le,
          fun _ => by simp, ?_⟩
        rw [TransferState.after_plain hplain, hread]
        refine transferOnce_answer hpresent _ ?_
        dsimp only
        rw [if_neg (by decide), if_neg (by decide), if_neg (by omega)]
        exact ⟨rfl, rfl⟩

theorem transferItem_zero (hs : SizedItems request capacity (items + 1) st)
    (hmask : (entryAt request st.input).masks = false)
    (hmatch : (entryAt request st.input).hasMatch = true)
    (hpresent : st.processor.backend.transfer = true) :
    (transferItem request capacity st).Traces [(entryAt request st.input).event 0 (false, 0, 0)]
      (.ended (.ok { st with input := itemEnd request st.input, status := transferError })) := by
  rw [transferItem_transfer hs.itemEnd_le hmask, if_pos hmatch]
  refine traces_bind.mpr ⟨_, (false, _), [], (List.append_nil _).symm, ?_, rfl, rfl⟩
  exact traces_bind.mpr ⟨_, _, [], rfl, matchLoop_fail hpresent, rfl, rfl⟩

/-- Where the loop is when it comes to an entry, and the passes before it. -/
structure Arrives (request : List Byte) (capacity items : ℕ) (st : TransferState)
    (done : List TransferEntry) (e : TransferEntry) (passes : List Pass) (items' : ℕ)
    (st' : TransferState) : Prop where
  sized : SizedItems request capacity (items' + 1) st'
  entry : entryAt request st'.input = e
  processor : st'.processor =
    { st.processor with matchMask := maskAfter st.processor.matchMask done }
  goesOn : ∀ last r, Passes request capacity (items' + 1) st' last r →
    Passes request capacity items st (passes ++ last) r
  calls : (∃ d ∈ done, d.masks = false) → passCalls passes ≠ []

theorem exists_arrives (hs : SizedItems request capacity items st)
    (hentries : entriesFrom request items st.input = done ++ e :: rest)
    (hdone : ∀ d ∈ done, ¬ d.Invalid ∧ (d.masks = true ∨ st.processor.backend.transfer = true)) :
    ∃ passes items' st', Arrives request capacity items st done e passes items' st' := by
  induction done generalizing items st with
  | nil =>
    cases items with
    | zero => cases hentries
    | succ items =>
      rw [entriesFrom, List.nil_append, List.cons.injEq] at hentries
      refine ⟨[], items, st, hs, hentries.1, rfl, fun _ _ h => h, ?_⟩
      rintro ⟨d, hd, -⟩
      cases hd
  | cons d done ih =>
    cases items with
    | zero => cases hentries
    | succ items =>
      rw [entriesFrom, List.cons_append, List.cons.injEq] at hentries
      obtain ⟨rfl, hentries⟩ := hentries
      obtain ⟨hd, hdone⟩ := List.forall_mem_cons.mp hdone
      obtain ⟨events, bytes, hbytes, hcalls, hitem⟩ := transferItem_completes hs hd.1 hd.2
      obtain ⟨passes, items', st', h⟩ := ih (hs.after hbytes) hentries hdone
      refine ⟨(entryAt request st.input, events) :: passes, items', st', h.sized, h.entry,
        h.processor, fun last r hlast => .next hitem (h.goesOn last r hlast), ?_⟩
      rintro ⟨d, hd, hmask⟩ hnil
      obtain ⟨hfirst, hrest⟩ := List.append_eq_nil_iff.mp hnil
      rcases List.mem_cons.mp hd with rfl | hd
      · exact hcalls hmask hfirst
      · exact h.calls ⟨d, hd, hmask⟩ hrest

/-! The command -/

/-- The variables at the start of `process_transfer`. -/
abbrev TransferState.start (processor : Processor) : TransferState :=
  ⟨processor, 3, [], 0, transferOk, false⟩

/-- The checks of `process_transfer` before its loop. -/
structure Accepted (processor : Processor) (request : List Byte) (capacity : ℕ) : Prop where
  ne_zero : requestSize request ≠ 0
  ne_max : requestSize request ≠ sizeMax
  fits : 3 + needsOf (transferEntries request) ≤ capacity
  port : processor.selectedPort = dapPortSwd

theorem Accepted.sized (hc : DapCommand.ofByte (byteAt request 0) = some .transfer)
    (h : Accepted processor request capacity) :
    SizedItems request capacity (byteAt request 2).toNat (.start processor) := by
  have hne := h.ne_zero
  have hmax := h.ne_max
  rw [requestSize_transfer hc] at hne hmax
  obtain ⟨-, heq⟩ := headed_ne_zero hne
  exact ⟨heq ▸ hne, heq ▸ hmax, h.fits⟩

theorem Accepted.processTransfer_eq (hc : DapCommand.ofByte (byteAt request 0) = some .transfer)
    (h : Accepted processor request capacity) :
    processTransfer processor request capacity =
      transferLoop request capacity (byteAt request 2).toNat (.start processor) >>=
        transferResponse capacity := by
  rw [AirDap.processTransfer_eq hc h.ne_zero h.ne_max h.fits, if_neg (by simp [h.port])]

theorem processTransfer_refused (h : ¬ Accepted processor request capacity) :
    ∃ response, processTransfer processor request capacity = pure (response, processor) := by
  unfold processTransfer
  split
  · exact ⟨_, rfl⟩
  dsimp only
  split
  · exact ⟨_, rfl⟩
  rename_i hframed
  split
  · exact ⟨_, rfl⟩
  rename_i hscan
  split
  · exact ⟨_, rfl⟩
  rename_i hport
  rw [not_or, scanTransfers_needs] at hscan
  rw [not_or] at hframed
  exact absurd ⟨hframed.1, hframed.2, not_lt.mp hscan.1, not_not.mp hport⟩ h

theorem processPacket_refused (hc : DapCommand.ofByte (byteAt request 0) = some .transfer)
    (h : ¬ Accepted processor request (min capacity dapPacketSize)) :
    ∃ response, processPacket processor request capacity = pure (response, processor) := by
  by_cases hcapacity : capacity = 0
  · exact ⟨[], if_pos (.inr hcapacity)⟩
  · rw [processPacket_transfer hc hcapacity]
    exact processTransfer_refused h

/-- An accepted transfer makes the calls of its passes and those of its response. -/
theorem Accepted.packet_traces (hc : DapCommand.ofByte (byteAt request 0) = some .transfer)
    (h : Accepted processor request (min capacity dapPacketSize)) {v : List Byte × Processor} :
    (processPacket processor request capacity).Traces events v ↔
      ∃ passes r flush,
        Passes request (min capacity dapPacketSize) (byteAt request 2).toNat (.start processor)
          passes r ∧
        (transferResponse (min capacity dapPacketSize) r).Traces flush v ∧
        events = passCalls passes ++ flush := by
  have hcapacity : capacity ≠ 0 := by
    have := h.fits
    omega
  rw [processPacket_transfer hc hcapacity, h.processTransfer_eq hc, traces_bind]
  constructor
  · rintro ⟨first, r, flush, rfl, hloop, hresponse⟩
    obtain ⟨passes, hpasses, rfl⟩ := transferLoop_passes.mp hloop
    exact ⟨passes, r, flush, hpasses, hresponse, rfl⟩
  · rintro ⟨passes, r, flush, hpasses, hresponse, rfl⟩
    exact ⟨_, r, flush, rfl, transferLoop_passes.mpr ⟨passes, hpasses, rfl⟩, hresponse⟩

theorem transferResponse_failed (hstatus : st.status = transferError) :
    (transferResponse capacity (.ok st)).Traces []
      ([DapCommand.transfer.code, st.completed, transferError] ++ st.output, st.processor) := by
  have hskip : ¬ (st.pendingWrite = true ∧ st.status = transferOk) := by
    rw [hstatus]
    exact fun h => absurd h.2 (by decide)
  rw [transferResponse, flushWrite, if_neg hskip, hstatus]
  exact ⟨rfl, rfl⟩

/-- Every write that a DAP_Transfer makes for an entry carries the word of the entry. The passes
are those of the loop, and their calls are those that the packet makes before its last read of
RDBUFF. -/
def WritesSentWords (processor : Processor) (request : List Byte) (capacity : ℕ) : Prop :=
  ∀ passes r flush v,
    Passes request (min capacity dapPacketSize) (byteAt request 2).toNat (.start processor)
      passes r →
    (processPacket processor request capacity).Traces (passCalls passes ++ flush) v →
    ∀ pass ∈ passes, ∀ ap address data answer,
      (⟨.transfer ap false address data, answer⟩ : BackendEvent) ∈ pass.2 → data = pass.1.word

/-- A write entry with a match value and a word other than zero, which the loop comes to. -/
def MatchesWrite (entries : List TransferEntry) : Prop :=
  ∃ done e rest, entries = done ++ e :: rest ∧ (∀ d ∈ done, ¬ d.Invalid) ∧ e.read = false ∧
    e.masks = false ∧ e.hasMatch = true ∧ e.word ≠ 0

theorem Completes.not_invalid {retries : ℕ} {mask : Word} {bytes : List Byte}
    (h : Completes retries mask e events bytes) : ¬ e.Invalid := by
  rintro ⟨hmask, hread⟩
  cases h with
  | mask _ hwrite => exact absurd (hread.symm.trans hwrite) (by decide)
  | write hplain _ _ => exact absurd (hmask.symm.trans hplain.1) (by decide)
  | read hplain _ _ => exact absurd (hmask.symm.trans hplain.1) (by decide)
  | matched hnone _ _ => exact absurd (hmask.symm.trans hnone) (by decide)

/-- A pass transfers the word of its entry, or zero for an entry with a match value. -/
theorem ItemResult.calls (h : ItemResult request st events step) {a : BackendEvent}
    (ha : a ∈ events) :
    ∃ data answer, a = (entryAt request st.input).event data answer ∧
      (data = (entryAt request st.input).word ∨ (data = 0 ∧
        (entryAt request st.input).masks = false ∧
        (entryAt request st.input).hasMatch = true)) := by
  cases h with
  | invalid _ => cases ha
  | next h =>
    cases h with
    | mask _ _ => cases ha
    | write _ _ _ => exact ⟨_, _, List.mem_singleton.mp ha, .inl rfl⟩
    | read _ _ _ => exact ⟨_, _, List.mem_singleton.mp ha, .inl rfl⟩
    | matched hmask hmatch _ =>
      obtain ⟨answer, -, rfl⟩ := List.mem_map.mp ha
      exact ⟨0, answer, rfl, .inr ⟨rfl, hmask, hmatch⟩⟩
  | stop h =>
    cases h with
    | refused _ _ => exact ⟨_, _, List.mem_singleton.mp ha, .inl rfl⟩
    | unmatched hmask hmatch _ =>
      obtain ⟨answer, -, rfl⟩ := List.mem_map.mp ha
      exact ⟨0, answer, rfl, .inr ⟨rfl, hmask, hmatch⟩⟩

theorem TransferEntry.event_of_write (hread : e.read = false) :
    e.event data answer =
      ⟨.transfer (hasFlag e.flags transferAp) false (e.flags &&& 0x0C) data, answer⟩ :=
  congrArg (fun read : Bool => (⟨.transfer (hasFlag e.flags transferAp) read (e.flags &&& 0x0C)
    data, answer⟩ : BackendEvent)) hread

theorem MatchesWrite.cons {entries : List TransferEntry} (h : MatchesWrite entries)
    (hvalid : ¬ e.Invalid) : MatchesWrite (e :: entries) := by
  obtain ⟨done, e', rest, rfl, hdone, hmatch⟩ := h
  exact ⟨e :: done, e', rest, rfl, List.forall_mem_cons.mpr ⟨hvalid, hdone⟩, hmatch⟩

theorem transferItem_writes (hs : SizedItems request capacity (items + 1) st)
    (hnone : st.processor.backend.transfer = true →
      ¬ MatchesWrite (entriesFrom request (items + 1) st.input))
    (hitem : (transferItem request capacity st).Traces events step) {ap : Bool} {address : Byte}
    (ha : (⟨.transfer ap false address data, answer⟩ : BackendEvent) ∈ events) :
    data = (entryAt request st.input).word := by
  have hneeds := hs.needs_le
  obtain ⟨attempts, hmade, hresult⟩ := transferItem_traces hs.itemEnd_le (by omega) hitem
  rw [hmade.events_eq] at ha
  cases hpresent : st.processor.backend.transfer with
  | false =>
    rw [hpresent] at ha
    cases ha
  | true =>
    rw [hpresent] at ha
    obtain ⟨data', answer', heq, hdata⟩ := hresult.calls ha
    have hcall : BackendCall.transfer ap false address data =
        (entryAt request st.input).call data' := congrArg Sigma.fst heq
    injection hcall with hap hread haddress hword
    rcases hdata with hdata | ⟨hzero, hmask, hmatch⟩
    · exact hword.trans hdata
    · by_contra hne
      refine hnone hpresent ⟨[], entryAt request st.input, _, rfl, nofun, hread.symm, hmask, hmatch,
        ?_⟩
      rw [hword, hzero] at hne
      exact fun h => hne h.symm

theorem Passes.writes {passes : List Pass} (h : Passes request capacity items st passes r)
    (hs : SizedItems request capacity items st)
    (hnone : st.processor.backend.transfer = true →
      ¬ MatchesWrite (entriesFrom request items st.input)) :
    ∀ pass ∈ passes, ∀ ap address data answer,
      (⟨.transfer ap false address data, answer⟩ : BackendEvent) ∈ pass.2 →
      data = pass.1.word := by
  induction h with
  | done => exact nofun
  | ended hitem =>
    intro pass hpass ap address data answer ha
    rw [List.mem_singleton.mp hpass] at ha ⊢
    exact transferItem_writes hs hnone hitem ha
  | @next items st st' events passes r hitem hrest ih =>
    rw [List.forall_mem_cons]
    refine ⟨fun ap address data answer ha => transferItem_writes hs hnone hitem ha, ?_⟩
    have hneeds := hs.needs_le
    obtain ⟨attempts, -, hresult⟩ := transferItem_traces hs.itemEnd_le (by omega) hitem
    cases hresult with
    | next hfirst =>
      exact ih (hs.after hfirst.length_bytes) fun hpresent hmatch =>
        hnone hpresent (hmatch.cons hfirst.not_invalid)

/-- A DAP_Transfer writes the words it was sent, unless it comes to a write entry with a match
value: that one writes zero. -/
theorem writesSentWords_iff (processor : Processor) (request : List Byte) (capacity : ℕ)
    (hcode : byteAt request 0 = DapCommand.transfer.code) :
    WritesSentWords processor request capacity ↔
      ¬ (Accepted processor request (min capacity dapPacketSize) ∧
        processor.backend.transfer = true ∧ MatchesWrite (transferEntries request)) := by
  have hc : DapCommand.ofByte (byteAt request 0) = some .transfer := by rw [hcode]; rfl
  constructor
  · rintro h ⟨haccepted, hpresent, done, e, rest, hentries, hdone, hread, hmask, hmatch, hword⟩
    have hs := haccepted.sized hc
    obtain ⟨passes, items, st, harrives⟩ := exists_arrives hs hentries
      fun d hd => ⟨hdone d hd, .inr hpresent⟩
    obtain rfl := harrives.entry
    have hlast : Passes request _ (items + 1) st _ _ :=
      .ended (transferItem_zero harrives.sized hmask hmatch
        (by rw [harrives.processor]; exact hpresent))
    have hpasses := harrives.goesOn _ _ hlast
    have htrace := (haccepted.packet_traces hc).mpr
      ⟨_, _, [], hpasses, transferResponse_failed rfl, rfl⟩
    exact hword (h _ _ [] _ hpasses htrace _ (List.mem_append_right _ List.mem_cons_self) _ _ 0 _
      (List.mem_singleton.mpr (TransferEntry.event_of_write hread).symm)).symm
  · intro h passes r flush v hpasses htrace
    by_cases haccepted : Accepted processor request (min capacity dapPacketSize)
    · exact hpasses.writes (haccepted.sized hc) fun hpresent hmatch =>
        h ⟨haccepted, hpresent, hmatch⟩
    · obtain ⟨response, heq⟩ := processPacket_refused hc haccepted
      rw [heq] at htrace
      have hnil := (List.append_eq_nil_iff.mp htrace.1).1
      intro pass hpass ap address data answer ha
      have hcall := List.mem_flatten.mpr ⟨pass.2, List.mem_map_of_mem hpass, ha⟩
      rw [show (passes.map Prod.snd).flatten = [] from hnil] at hcall
      cases hcall

theorem plain_write_sent :
    WritesSentWords connectedProcessor [0x05, 0x00, 0x01, 0x04, 0x78, 0x56, 0x34, 0x12] 64 := by
  refine (writesSentWords_iff connectedProcessor _ 64 rfl).mpr ?_
  rintro ⟨-, -, done, e, rest, hentries, -, -, -, hmatch, -⟩
  have hnone : ∀ e ∈ transferEntries [0x05, 0x00, 0x01, 0x04, 0x78, 0x56, 0x34, 0x12],
      e.hasMatch = false := by
    decide
  rw [hnone e (hentries ▸ List.mem_append_right _ List.mem_cons_self)] at hmatch
  cases hmatch

/-- A write of `0x12345678` with a match value: the word that goes to the target is zero. -/
theorem match_write_writes_zero :
    ¬ WritesSentWords connectedProcessor [0x05, 0x00, 0x01, 0x14, 0x78, 0x56, 0x34, 0x12] 64 := by
  intro h
  have hzero := h
    [(⟨0x14, 0x12345678⟩, [⟨.transfer false false 0x04 0, (true, 0x12345678, transferOk)⟩])]
    (.ok ⟨connectedProcessor, 8, [], 1, transferOk, false⟩) []
    ([0x05, 1, 1], connectedProcessor) (.next ⟨_, [], rfl, rfl, rfl⟩ .done) ⟨_, [], rfl, rfl, rfl⟩
    _ List.mem_cons_self _ _ 0 _ (List.mem_singleton.mpr rfl)
  exact absurd hzero (by decide)

end AirDap

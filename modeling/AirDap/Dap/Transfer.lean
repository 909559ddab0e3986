import AirDap.Dap.Extent

/-! What a DAP_Transfer and a DAP_TransferBlock do, for every backend: the transfers they make, the
answers they get and the response they give. -/
namespace AirDap
open Concurrency Prog

/-- A call of the backend with its answer. -/
abbrev BackendEvent := Sigma BackendCall.Answer

/-- The status that `transfer_once` makes of the answer of the backend. -/
def answerStatus (r : Bool × Word × Byte) : Byte := if r.1 then r.2.2 else transferError

def eventStatus : BackendEvent → Byte
  | ⟨.transfer _ _ _ _, r⟩ => answerStatus r
  | _ => transferOk

/-- The status of the last transfer, or OK if there was none. -/
def lastStatus (events : List BackendEvent) : Byte :=
  (events.getLast?.map eventStatus).getD transferOk

/-- An entry of a DAP_Transfer. An entry without a data word has the word zero. -/
structure TransferEntry where
  flags : Byte
  word : Word
  deriving DecidableEq

namespace TransferEntry

def read (e : TransferEntry) : Bool := hasFlag e.flags transferRead
def masks (e : TransferEntry) : Bool := hasFlag e.flags transferMatchMask
def hasMatch (e : TransferEntry) : Bool := hasFlag e.flags transferMatchValue

/-- The transfer that the entry asks for. -/
abbrev call (e : TransferEntry) (data : Word) : BackendCall :=
  .transfer (hasFlag e.flags transferAp) e.read (e.flags &&& 0x0C) data

def event (e : TransferEntry) (data : Word) (r : Bool × Word × Byte) : BackendEvent :=
  ⟨e.call data, r⟩

/-- The match mask after the entry. -/
def maskAfter (e : TransferEntry) (mask : Word) : Word := if e.masks then e.word else mask

/-- Neither an entry that stores the mask nor one that matches. -/
def Plain (e : TransferEntry) : Prop := e.masks = false ∧ e.hasMatch = false

instance : DecidablePred Plain := fun _ => inferInstanceAs (Decidable (_ ∧ _))

/-- A read that carries MATCH_MASK. -/
def Invalid (e : TransferEntry) : Prop := e.masks = true ∧ e.read = true

instance : DecidablePred Invalid := fun _ => inferInstanceAs (Decidable (_ ∧ _))

end TransferEntry

variable (request : List Byte)

/-- The entry at `length`. -/
def entryAt (length : ℕ) : TransferEntry where
  flags := byteAt request length
  word := if hasData (byteAt request length) then readU32 (request.drop (length + 1)) else 0

/-- The entries of a transfer from `length` on. -/
def entriesFrom (request : List Byte) : ℕ → ℕ → List TransferEntry
  | 0, _ => []
  | items + 1, length =>
    entryAt request length :: entriesFrom request items (itemEnd request length)

def transferEntries : List TransferEntry :=
  entriesFrom request (byteAt request 2).toNat 3

/-- The transfers that are asked for, with their answers, and those that reach the backend: all of
them, or none if it has no transfer callback, and then each counts as one that failed. -/
structure Made (present : Bool) (attempts events : List BackendEvent) : Prop where
  events_eq : events = if present then attempts else []
  absent : present = false → ∀ a ∈ attempts, eventStatus a = transferError

/-! The law -/

/-- The answers to the reads of an entry with a match value, and whether one matched: the entry
reads until a value matches, a read does not return OK, or no attempt is left. -/
inductive MatchRun (mask wanted : Word) : ℕ → List (Bool × Word × Byte) → Bool → Prop
  | exhausted : MatchRun mask wanted 0 [] false
  | refused {attempts : ℕ} {r : Bool × Word × Byte} (hstatus : answerStatus r ≠ transferOk) :
      MatchRun mask wanted (attempts + 1) [r] false
  | matched {attempts : ℕ} {r : Bool × Word × Byte} (hstatus : answerStatus r = transferOk)
      (hvalue : r.2.1 &&& mask = wanted &&& mask) : MatchRun mask wanted (attempts + 1) [r] true
  | missed {attempts : ℕ} {r : Bool × Word × Byte} {answers : List (Bool × Word × Byte)}
      {matched : Bool} (hstatus : answerStatus r = transferOk)
      (hvalue : r.2.1 &&& mask ≠ wanted &&& mask)
      (hrest : MatchRun mask wanted attempts answers matched) :
      MatchRun mask wanted (attempts + 1) (r :: answers) matched

/-- The entry completes by these transfers and adds these bytes to the response. -/
inductive Completes (retries : ℕ) (mask : Word) (e : TransferEntry) :
    List BackendEvent → List Byte → Prop
  | mask (hmask : e.masks = true) (hread : e.read = false) : Completes retries mask e [] []
  | write {r : Bool × Word × Byte} (hplain : e.Plain) (hread : e.read = false)
      (hstatus : answerStatus r = transferOk) : Completes retries mask e [e.event e.word r] []
  | read {r : Bool × Word × Byte} (hplain : e.Plain) (hread : e.read = true)
      (hstatus : answerStatus r = transferOk) :
      Completes retries mask e [e.event e.word r] (readBytes e.flags r.2.1)
  | matched {answers : List (Bool × Word × Byte)} (hmask : e.masks = false)
      (hmatch : e.hasMatch = true) (hrun : MatchRun mask e.word (retries + 1) answers true) :
      Completes retries mask e (answers.map (e.event 0)) []

/-- The entry does not complete; the transfers it made and the status it leaves. -/
inductive Stops (retries : ℕ) (mask : Word) (e : TransferEntry) :
    List BackendEvent → Byte → Prop
  | refused {r : Bool × Word × Byte} (hplain : e.Plain) (hstatus : answerStatus r ≠ transferOk) :
      Stops retries mask e [e.event e.word r] (answerStatus r)
  | unmatched {answers : List (Bool × Word × Byte)} (hmask : e.masks = false)
      (hmatch : e.hasMatch = true) (hrun : MatchRun mask e.word (retries + 1) answers false) :
      Stops retries mask e (answers.map (e.event 0))
        (if lastStatus (answers.map (e.event 0)) = transferOk then transferOk ||| transferMismatch
          else lastStatus (answers.map (e.event 0)))

/-- The entries complete one after the other. -/
inductive CompletesAll (retries : ℕ) :
    Word → List TransferEntry → List BackendEvent → List Byte → Prop
  | nil {mask : Word} : CompletesAll retries mask [] [] []
  | cons {mask : Word} {e : TransferEntry} {entries : List TransferEntry}
      {first events : List BackendEvent} {bytes out : List Byte}
      (hfirst : Completes retries mask e first bytes)
      (hrest : CompletesAll retries (e.maskAfter mask) entries events out) :
      CompletesAll retries mask (e :: entries) (first ++ events) (bytes ++ out)

/-- The mask after the entries. -/
def maskAfter (mask : Word) (entries : List TransferEntry) : Word :=
  entries.foldl (fun mask e => e.maskAfter mask) mask

/-- Whether the last plain entry is a write, or `pending` if there is none. -/
def writePending (pending : Bool) (entries : List TransferEntry) : Bool :=
  entries.foldl (fun pending e => if e.Plain then !e.read else pending) pending

/-! One entry -/

section Entry

variable {processor : Processor} {request : List Byte} {capacity : ℕ} {st : TransferState}
  {events : List BackendEvent}

variable {present : Bool} {mask wanted : Word} {attempts : ℕ} {answers : List (Bool × Word × Byte)}
  {e : TransferEntry}

theorem Made.nil : Made present [] [] :=
  ⟨(ite_self _).symm, fun _ _ h => absurd h List.not_mem_nil⟩

theorem Made.append {first rest attempts : List BackendEvent} (hfirst : Made present first events)
    (hrest : Made present rest attempts) : Made present (first ++ rest) (events ++ attempts) where
  events_eq := by
    rw [hfirst.events_eq, hrest.events_eq]
    cases present <;> rfl
  absent := by
    intro habsent a ha
    rcases List.mem_append.mp ha with ha | ha
    · exact hfirst.absent habsent a ha
    · exact hrest.absent habsent a ha

theorem transferOnce_traces {α : Type} {flags : Byte} {data : Word}
    {f : Bool × Word × Byte → DapCode α} {v : α}
    (h : (transferOnce processor flags data >>= f).Traces events v) :
    ∃ r first rest, events = first ++ rest ∧
      Made processor.backend.transfer [TransferEntry.event ⟨flags, 0⟩ data r] first ∧
      (f (answerStatus r = transferOk, r.2.1, answerStatus r)).Traces rest v := by
  rw [transferOnce, callback] at h
  cases hpresent : processor.backend.transfer with
  | true =>
    rw [hpresent] at h
    obtain ⟨⟨ok, word, status⟩, rest, rfl, h⟩ := h
    refine ⟨(ok, word, status), _, rest, rfl, ⟨rfl, nofun⟩, ?_⟩
    cases ok <;> exact h
  | false =>
    rw [hpresent] at h
    refine ⟨(false, data, transferError), [], events, rfl, ⟨rfl, fun _ a ha => ?_⟩, h⟩
    rw [List.mem_singleton.mp ha]
    rfl

theorem lastStatus_cons (e : BackendEvent) (events : List BackendEvent) (h : events ≠ []) :
    lastStatus (e :: events) = lastStatus events := by
  rw [lastStatus, lastStatus, List.getLast?_cons_of_ne_nil h]

theorem matchLoop_traces (flags : Byte) (wanted : Word) (attempts : ℕ) (status : Byte)
    {r : Bool × Byte} (h : (matchLoop processor flags wanted attempts status).Traces events r) :
    ∃ answers : List (Bool × Word × Byte),
      Made processor.backend.transfer (answers.map (TransferEntry.event ⟨flags, wanted⟩ 0)) events ∧
      MatchRun processor.matchMask wanted attempts answers r.1 ∧
      r.2 = if answers = [] then status
        else lastStatus (answers.map (TransferEntry.event ⟨flags, wanted⟩ 0)) := by
  induction attempts generalizing status events with
  | zero =>
    obtain ⟨rfl, rfl⟩ := h
    exact ⟨[], .nil, .exhausted, rfl⟩
  | succ attempts ih =>
    rw [matchLoop] at h
    obtain ⟨answer, first, rest, rfl, hmade, h⟩ := transferOnce_traces h
    change Prog.Traces (if (!decide (answerStatus answer = transferOk)) = true then _ else _) _ _
      at h
    by_cases hstatus : answerStatus answer = transferOk
    · rw [if_neg (by simp [hstatus])] at h
      split at h
      · rename_i hvalue
        obtain ⟨rfl, rfl⟩ := h
        exact ⟨[answer], hmade.append .nil, .matched hstatus hvalue, rfl⟩
      · rename_i hvalue
        obtain ⟨answers, hrest, hrun, hlast⟩ := ih _ h
        refine ⟨answer :: answers, hmade.append hrest, .missed hstatus hvalue hrun, ?_⟩
        rw [hlast, if_neg (List.cons_ne_nil _ _)]
        by_cases hnil : answers = []
        · rw [if_pos hnil, hnil]
          rfl
        · rw [if_neg hnil, List.map_cons, lastStatus_cons _ _ (by simpa using hnil)]
    · rw [if_pos (by simp [hstatus])] at h
      obtain ⟨rfl, rfl⟩ := h
      exact ⟨[answer], hmade.append .nil, .refused hstatus, rfl⟩

theorem MatchRun.answers_ne_nil {matched : Bool}
    (h : MatchRun mask wanted (attempts + 1) answers matched) : answers ≠ [] := by
  cases h <;> exact List.cons_ne_nil _ _

theorem MatchRun.lastStatus_matched (h : MatchRun mask wanted attempts answers true) :
    lastStatus (answers.map (e.event 0)) = transferOk := by
  generalize hm : true = matched at h
  induction h with
  | exhausted => cases hm
  | refused _ => cases hm
  | matched hstatus _ => exact hstatus
  | @missed attempts r answers matched hstatus hvalue hrest ih =>
    cases attempts with
    | zero =>
      cases hrest
      cases hm
    | succ attempts =>
      rw [List.map_cons, lastStatus_cons _ _ (by simpa using hrest.answers_ne_nil)]
      exact ih hm

/-- The variables after an entry that completes. -/
def TransferState.after (st : TransferState) (e : TransferEntry) (input : ℕ) (bytes : List Byte) :
    TransferState where
  processor := { st.processor with matchMask := e.maskAfter st.processor.matchMask }
  input
  output := st.output ++ bytes
  completed := st.completed + 1
  status := if e.masks then st.status else transferOk
  pendingWrite := if e.Plain then !e.read else st.pendingWrite

theorem TransferState.after_mask (hmask : e.masks = true) (input : ℕ) :
    st.after e input [] = { st with
      processor.matchMask := e.word, input, completed := st.completed + 1 } := by
  have hplain : ¬ e.Plain := fun h => absurd (hmask.symm.trans h.1) (by decide)
  simp only [TransferState.after, TransferEntry.maskAfter, hmask, if_true, if_neg hplain,
    List.append_nil]

theorem TransferState.after_plain (hplain : e.Plain) (input : ℕ) (bytes : List Byte) :
    st.after e input bytes = { st with
      input, output := st.output ++ bytes, completed := st.completed + 1, status := transferOk,
      pendingWrite := !e.read } := by
  simp only [TransferState.after, TransferEntry.maskAfter, hplain.1, Bool.false_eq_true, if_false,
    if_pos hplain]

theorem TransferState.after_match (hmask : e.masks = false) (hmatch : e.hasMatch = true)
    (input : ℕ) :
    st.after e input [] = { st with
      input, completed := st.completed + 1, status := transferOk } := by
  have hplain : ¬ e.Plain := fun h => absurd (hmatch.symm.trans h.2) (by decide)
  simp only [TransferState.after, TransferEntry.maskAfter, hmask, Bool.false_eq_true, if_false,
    if_neg hplain, List.append_nil]

/-- The ways a pass of the loop ends. -/
inductive ItemResult (request : List Byte) (st : TransferState) :
    List BackendEvent → TransferStep → Prop
  | invalid (h : (entryAt request st.input).Invalid) :
      ItemResult request st [] (.ended (.error { st with input := st.input + 1 }))
  | next {events : List BackendEvent} {bytes : List Byte}
      (h : Completes st.processor.matchRetries.toNat st.processor.matchMask
        (entryAt request st.input) events bytes) :
      ItemResult request st events
        (.next (st.after (entryAt request st.input) (itemEnd request st.input) bytes))
  | stop {events : List BackendEvent} {status : Byte}
      (h : Stops st.processor.matchRetries.toNat st.processor.matchMask
        (entryAt request st.input) events status) :
      ItemResult request st events
        (.ended (.ok { st with input := itemEnd request st.input, status }))

/-- The bytes of the response that an entry may add. -/
def TransferEntry.needs (e : TransferEntry) : ℕ :=
  if hasData e.flags then 0 else if hasFlag e.flags transferTimestamp then 8 else 4

theorem length_readBytes (flags : Byte) (data : Word) :
    (readBytes flags data).length = if hasFlag flags transferTimestamp then 8 else 4 := by
  unfold readBytes
  split <;> rfl

theorem behind_entry (request : List Byte) (st : TransferState) :
    (if hasData (byteAt request st.input) = true then { st with input := st.input + 1 + 4 }
      else { st with input := st.input + 1 }) = { st with input := itemEnd request st.input } := by
  unfold itemEnd
  split <;> rfl

section

variable (hend : itemEnd request st.input ≤ request.length)
include hend

theorem transferItem_mask (hmask : (entryAt request st.input).masks = true) :
    transferItem request capacity st =
      if (entryAt request st.input).read = true then
        pure (.ended (.error { st with input := st.input + 1 }))
      else pure (.next (st.after (entryAt request st.input) (itemEnd request st.input) [])) := by
  have hlt := (lt_itemEnd request st.input).trans_le hend
  have hflag : hasFlag (byteAt request st.input) transferMatchMask = true := hmask
  unfold transferItem
  rw [if_neg (by omega), TransferState.after_mask hmask]
  dsimp only
  rw [if_pos hflag]
  cases hread : hasFlag (byteAt request st.input) transferRead with
  | true => rw [if_pos (.inl rfl), if_pos (show (entryAt request st.input).read = true from hread)]
  | false =>
    have hdata : hasData (byteAt request st.input) = true := by simp [hasData, hread]
    have hfits : itemEnd request st.input = st.input + 5 := if_pos hdata
    have hword : (entryAt request st.input).word = readU32 (request.drop (st.input + 1)) :=
      if_pos hdata
    have hnot : ¬ (entryAt request st.input).read = true := by
      rw [show (entryAt request st.input).read = false from hread]
      decide
    rw [if_neg (by simp; omega), if_neg hnot, hword, hfits]

theorem transferItem_transfer (hmask : (entryAt request st.input).masks = false) :
    transferItem request capacity st =
      (if (entryAt request st.input).hasMatch = true then do
        let (matched, st) ← matchItem (entryAt request st.input).flags
          (entryAt request st.input).word
          { st with input := itemEnd request st.input }
        if matched then pure (.next st) else pure (.ended (.ok st))
      else do
        let (done, data, status) ← transferOnce st.processor (entryAt request st.input).flags
          (entryAt request st.input).word
        if !done then pure (.ended (.ok { st with input := itemEnd request st.input, status }))
        else
          let st' := { st with
            input := itemEnd request st.input, status, completed := st.completed + 1,
            pendingWrite := !(entryAt request st.input).read }
          if !(entryAt request st.input).read then pure (.next st')
          else if 3 + st.output.length + (readBytes (entryAt request st.input).flags data).length >
              capacity then pure (.ended (.error st'))
          else pure (.next { st' with
            output := st.output ++ readBytes (entryAt request st.input).flags data })) := by
  have hlt := (lt_itemEnd request st.input).trans_le hend
  have hflag : ¬ hasFlag (byteAt request st.input) transferMatchMask = true := by
    rw [show hasFlag (byteAt request st.input) transferMatchMask = false from hmask]
    decide
  have hfits :
      ¬ (hasData (byteAt request st.input) = true ∧ st.input + 1 + 4 > request.length) := by
    rintro ⟨hdata, hlong⟩
    have : itemEnd request st.input = st.input + 5 := if_pos hdata
    omega
  unfold transferItem
  rw [if_neg (by omega)]
  dsimp only
  rw [if_neg hflag, if_neg hfits, behind_entry]
  rfl

theorem transferItem_traces
    (hroom : 3 + st.output.length + (entryAt request st.input).needs ≤ capacity)
    {step : TransferStep} (h : (transferItem request capacity st).Traces events step) :
    ∃ attempts, Made st.processor.backend.transfer attempts events ∧
      ItemResult request st attempts step := by
  set e := entryAt request st.input with he
  cases hmask : e.masks with
  | true =>
    rw [transferItem_mask hend hmask] at h
    cases hread : e.read with
    | true =>
      rw [if_pos hread] at h
      obtain ⟨rfl, rfl⟩ := h
      exact ⟨[], .nil, .invalid ⟨hmask, hread⟩⟩
    | false =>
      rw [← he, hread] at h
      obtain ⟨rfl, rfl⟩ := h
      exact ⟨[], .nil, .next (.mask hmask hread)⟩
  | false =>
    rw [transferItem_transfer hend hmask, ← he] at h
    cases hmatch : e.hasMatch with
    | true =>
      rw [if_pos hmatch] at h
      obtain ⟨first, r, rest, rfl, hitem, h⟩ := traces_bind.mp h
      obtain ⟨first, found, rest', rfl, hloop, hitem⟩ := traces_bind.mp hitem
      obtain ⟨rfl, rfl⟩ := hitem
      obtain ⟨answers, hmade, hrun, hlast⟩ := matchLoop_traces e.flags e.word _ _ hloop
      rw [if_neg hrun.answers_ne_nil] at hlast
      refine ⟨answers.map (e.event 0), ?_⟩
      obtain ⟨matched, status⟩ := found
      cases matched with
      | true =>
        obtain ⟨rfl, rfl⟩ := h
        have hstatus : status = transferOk := hlast.trans hrun.lastStatus_matched
        have hafter : ItemResult request st _ _ := .next (.matched hmask hmatch hrun)
        rw [TransferState.after_match hmask hmatch] at hafter
        refine ⟨by rw [List.append_nil, List.append_nil]; exact hmade, ?_⟩
        simpa [hstatus] using hafter
      | false =>
        obtain ⟨rfl, rfl⟩ := h
        have hstop : ItemResult request st _ _ := .stop (.unmatched hmask hmatch hrun)
        have hstatus : (if status = transferOk then status ||| transferMismatch else status) =
            if status = transferOk then transferOk ||| transferMismatch else status := by
          split
          · rename_i hok
            rw [hok]
          · rfl
        rw [← he, ← hlast, ← hstatus] at hstop
        refine ⟨by rw [List.append_nil, List.append_nil]; exact hmade, ?_⟩
        simpa using hstop
    | false =>
      have hplain : e.Plain := ⟨hmask, hmatch⟩
      rw [hmatch, if_neg (by decide)] at h
      obtain ⟨answer, first, rest, rfl, hmade, h⟩ := transferOnce_traces h
      refine ⟨[e.event e.word answer], ?_⟩
      change Prog.Traces (if (!decide (answerStatus answer = transferOk)) = true then _ else _) _ _
        at h
      by_cases hstatus : answerStatus answer = transferOk
      · rw [if_neg (by simp [hstatus])] at h
        cases hread : e.read with
        | false =>
          have hnext : ItemResult request st _ _ := .next (.write hplain hread hstatus)
          rw [TransferState.after_plain hplain, hread, List.append_nil] at hnext
          rw [hread] at h
          obtain ⟨rfl, rfl⟩ := h
          rw [hstatus]
          exact ⟨hmade.append .nil, hnext⟩
        | true =>
          have hfits :
              ¬ 3 + st.output.length + (readBytes e.flags answer.2.1).length > capacity := by
            have hdata : ¬ hasData e.flags = true := by
              simp only [hasData, show hasFlag e.flags transferRead = true from hread,
                show hasFlag e.flags transferMatchValue = false from hmatch]
              decide
            rw [TransferEntry.needs, if_neg hdata] at hroom
            rw [length_readBytes]
            omega
          have hnext : ItemResult request st _ _ := .next (.read hplain hread hstatus)
          rw [TransferState.after_plain hplain, hread] at hnext
          rw [hread, if_neg (by decide)] at h
          dsimp only at h
          rw [if_neg hfits] at h
          obtain ⟨rfl, rfl⟩ := h
          rw [hstatus]
          exact ⟨hmade.append .nil, hnext⟩
      · rw [if_pos (by simp [hstatus])] at h
        obtain ⟨rfl, rfl⟩ := h
        exact ⟨hmade.append .nil, .stop (.refused hplain hstatus)⟩

end

end Entry

/-! The loop -/

section Loop

variable {request : List Byte} {capacity retries : ℕ} {st st' : TransferState}
  {entries done : List TransferEntry} {e : TransferEntry} {first events : List BackendEvent}
  {bytes out : List Byte}

/-- The variables after entries that have completed. -/
structure Reached (st : TransferState) (done : List TransferEntry) (out : List Byte)
    (st' : TransferState) : Prop where
  processor : st'.processor =
    { st.processor with matchMask := maskAfter st.processor.matchMask done }
  output : st'.output = st.output ++ out
  completed : st'.completed = st.completed + BitVec.ofNat 8 done.length
  pendingWrite : st'.pendingWrite = writePending st.pendingWrite done

/-- The ways the loop ends: all entries complete, one does not, or one is invalid. -/
inductive LoopResult (retries : ℕ) (st : TransferState) (entries : List TransferEntry)
    (events : List BackendEvent) : Except TransferState TransferState → Prop
  | all {out : List Byte} {st' : TransferState}
      (hrun : CompletesAll retries st.processor.matchMask entries events out)
      (hst : Reached st entries out st') (hstatus : st'.status = transferOk) :
      LoopResult retries st entries events (.ok st')
  | stopped {done rest : List TransferEntry} {e : TransferEntry} {run last : List BackendEvent}
      {out : List Byte} {st' : TransferState} (hentries : entries = done ++ e :: rest)
      (hevents : events = run ++ last)
      (hrun : CompletesAll retries st.processor.matchMask done run out)
      (hstop : Stops retries (maskAfter st.processor.matchMask done) e last st'.status)
      (hst : Reached st done out st') : LoopResult retries st entries events (.ok st')
  | invalid {done rest : List TransferEntry} {e : TransferEntry} {out : List Byte}
      {st' : TransferState} (hentries : entries = done ++ e :: rest)
      (hrun : CompletesAll retries st.processor.matchMask done events out) (hinvalid : e.Invalid)
      (hst : Reached st done out st') : LoopResult retries st entries events (.error st')

variable {input : ℕ} {r : Except TransferState TransferState} {items : ℕ}

theorem Reached.nil {status : Byte} : Reached st [] [] { st with input, status } where
  processor := rfl
  output := (List.append_nil _).symm
  completed := (BitVec.add_zero _).symm
  pendingWrite := rfl

theorem Reached.cons (h : Reached (st.after e input bytes) done out st') :
    Reached st (e :: done) (bytes ++ out) st' where
  processor := h.processor
  output := by rw [h.output, TransferState.after, List.append_assoc]
  completed := by
    rw [h.completed, TransferState.after, List.length_cons, BitVec.add_assoc]
    congr 1
    rw [Nat.add_comm done.length 1, BitVec.ofNat_add]
    rfl
  pendingWrite := h.pendingWrite

theorem LoopResult.cons (hfirst : Completes retries st.processor.matchMask e first bytes)
    (h : LoopResult retries (st.after e input bytes) entries events r) :
    LoopResult retries st (e :: entries) (first ++ events) r := by
  cases h with
  | all hrun hst hstatus => exact .all (.cons hfirst hrun) hst.cons hstatus
  | stopped hentries hevents hrun hstop hst =>
    subst hentries hevents
    exact .stopped (List.cons_append ..).symm (List.append_assoc ..).symm (.cons hfirst hrun) hstop
      hst.cons
  | invalid hentries hrun hinvalid hst =>
    subst hentries
    exact .invalid (List.cons_append ..).symm (.cons hfirst hrun) hinvalid hst.cons

/-- The bytes of the response that the entries need. -/
def needsOf (entries : List TransferEntry) : ℕ := (entries.map TransferEntry.needs).sum

theorem Completes.length_bytes {mask : Word} (h : Completes retries mask e first bytes) :
    bytes.length ≤ e.needs := by
  cases h with
  | read hplain hread hstatus =>
    have hdata : ¬ hasData e.flags = true := by
      simp only [hasData, show hasFlag e.flags transferRead = true from hread,
        show hasFlag e.flags transferMatchValue = false from hplain.2]
      decide
    rw [TransferEntry.needs, if_neg hdata, length_readBytes]
  | _ => exact Nat.zero_le _

/-- The entries from `st.input` on are framed and their response fits. -/
structure SizedItems (request : List Byte) (capacity items : ℕ) (st : TransferState) : Prop where
  ne_zero : transferSize request items st.input ≠ 0
  ne_max : transferSize request items st.input ≠ sizeMax
  fits : 3 + st.output.length + needsOf (entriesFrom request items st.input) ≤ capacity

section

variable (h : SizedItems request capacity (items + 1) st)
include h

theorem SizedItems.itemEnd_le : itemEnd request st.input ≤ request.length :=
  (transferFormat.step h.ne_zero h.ne_max).2.2.1

theorem SizedItems.needs_le :
    3 + st.output.length + (entryAt request st.input).needs +
      needsOf (entriesFrom request items (itemEnd request st.input)) ≤ capacity := by
  simpa only [entriesFrom, needsOf, List.map_cons, List.sum_cons, Nat.add_assoc] using h.fits

theorem SizedItems.after (hbytes : bytes.length ≤ (entryAt request st.input).needs) :
    SizedItems request capacity items
      (st.after (entryAt request st.input) (itemEnd request st.input) bytes) := by
  have heq := (transferFormat.step h.ne_zero h.ne_max).2.2.2
  refine ⟨heq ▸ h.ne_zero, heq ▸ h.ne_max, ?_⟩
  have hneeds := h.needs_le
  change 3 + (st.output ++ bytes).length +
    needsOf (entriesFrom request items (itemEnd request st.input)) ≤ capacity
  rw [List.length_append]
  omega

end

theorem transferLoop_traces (st : TransferState) (hs : SizedItems request capacity items st)
    (hstatus : st.status = transferOk)
    (h : (transferLoop request capacity items st).Traces events r) :
    ∃ attempts, Made st.processor.backend.transfer attempts events ∧
      LoopResult st.processor.matchRetries.toNat st (entriesFrom request items st.input) attempts
        r := by
  induction items generalizing st events with
  | zero =>
    obtain ⟨rfl, rfl⟩ := h
    exact ⟨[], .nil, .all .nil .nil hstatus⟩
  | succ items ih =>
    rw [transferLoop_succ] at h
    obtain ⟨first, step, rest, rfl, hitem, h⟩ := traces_bind.mp h
    have hneeds := hs.needs_le
    obtain ⟨asked, hmade, hresult⟩ := transferItem_traces hs.itemEnd_le (by omega) hitem
    cases hresult with
    | invalid hinvalid =>
      obtain ⟨rfl, rfl⟩ := h
      exact ⟨[], hmade.append .nil, .invalid (List.nil_append _).symm .nil hinvalid .nil⟩
    | stop hstop =>
      obtain ⟨rfl, rfl⟩ := h
      refine ⟨asked ++ [], hmade.append .nil, ?_⟩
      exact .stopped (List.nil_append _).symm (List.append_nil _) .nil hstop .nil
    | @next _ bytes hfirst =>
      have hok : (st.after (entryAt request st.input) (itemEnd request st.input) bytes).status =
          transferOk := by
        simp only [TransferState.after, hstatus, ite_self]
      obtain ⟨attempts, hrest, hresult⟩ := ih _ (hs.after hfirst.length_bytes) hok h
      exact ⟨asked ++ attempts, hmade.append hrest, .cons hfirst hresult⟩

end Loop

/-! The commands -/

/-- The entries after those that completed: there are none, or the first of them does not
complete. -/
inductive EndsAt (retries : ℕ) (mask : Word) :
    List TransferEntry → List BackendEvent → Byte → Prop
  | all : EndsAt retries mask [] [] transferOk
  | stopped {e : TransferEntry} {rest : List TransferEntry} {events : List BackendEvent}
      {status : Byte} (hstop : Stops retries mask e events status) :
      EndsAt retries mask (e :: rest) events status

/-- The read of RDBUFF at the end, made exactly if a write is pending and the status so far is OK,
and the status after it. -/
inductive Flushes (pending : Bool) (status : Byte) : List BackendEvent → Byte → Prop
  | flushed (hpending : pending = true) (hstatus : status = transferOk) (r : Bool × Word × Byte) :
      Flushes pending status [⟨.transfer false true 0x0C 0, r⟩] (answerStatus r)
  | skipped (h : ¬ (pending = true ∧ status = transferOk)) : Flushes pending status [] status

/-- The result law of a DAP_Transfer with these entries: the transfers with their answers, and the
response and the processor that follow from them. -/
inductive TransferLaw (processor : Processor) (entries : List TransferEntry) :
    List BackendEvent → List Byte × Processor → Prop
  | intro {done rest : List TransferEntry} {run last flush : List BackendEvent} {out : List Byte}
      {status final : Byte} (hentries : entries = done ++ rest)
      (hrun : CompletesAll processor.matchRetries.toNat processor.matchMask done run out)
      (hlast : EndsAt processor.matchRetries.toNat (maskAfter processor.matchMask done) rest last
        status)
      (hflush : Flushes (writePending false done) status flush final) :
      TransferLaw processor entries (run ++ last ++ flush)
        ([DapCommand.transfer.code, BitVec.ofNat 8 done.length, final] ++ out,
          { processor with matchMask := maskAfter processor.matchMask done })

/-- The word of a block that stands at `input`, as an entry. -/
def blockEntry (input : ℕ) : TransferEntry where
  flags := byteAt request 4
  word := if hasFlag (byteAt request 4) transferRead then 0 else readU32 (request.drop input)

def blockNext (input : ℕ) : ℕ :=
  if hasFlag (byteAt request 4) transferRead then input else input + 4

/-- The words of a block from `input` on: each makes one transfer, until one does not return OK.
The transfers, the number of words that completed, their data and the status. -/
inductive BlockRun (request : List Byte) : ℕ → ℕ → List BackendEvent → ℕ → List Byte → Byte → Prop
  | done {input : ℕ} : BlockRun request input 0 [] 0 [] transferOk
  | stopped {input words : ℕ} {r : Bool × Word × Byte} (hstatus : answerStatus r ≠ transferOk) :
      BlockRun request input (words + 1)
        [(blockEntry request input).event (blockEntry request input).word r] 0 [] (answerStatus r)
  | word {input words completed : ℕ} {r : Bool × Word × Byte} {events : List BackendEvent}
      {out : List Byte} {status : Byte} (hstatus : answerStatus r = transferOk)
      (hrest : BlockRun request (blockNext request input) words events completed out status) :
      BlockRun request input (words + 1)
        ((blockEntry request input).event (blockEntry request input).word r :: events)
        (completed + 1)
        ((if (blockEntry request input).read then writeU32 r.2.1 else []) ++ out) status

/-- The result law of a DAP_TransferBlock. -/
inductive BlockLaw (request : List Byte) : List BackendEvent → List Byte → Prop
  | intro {run flush : List BackendEvent} {completed : ℕ} {out : List Byte} {status final : Byte}
      (hrun : BlockRun request 5 (readU16 (request.drop 2)).toNat run completed out status)
      (hflush : Flushes (!hasFlag (byteAt request 4) transferRead && 0 < completed) status flush
        final) :
      BlockLaw request (run ++ flush)
        ([DapCommand.transferBlock.code] ++ writeU16 (BitVec.ofNat 16 completed) ++ [final] ++ out)

section Commands

variable {processor : Processor} {request : List Byte} {capacity : ℕ} {events : List BackendEvent}

variable {status : Byte} {v : List Byte × Processor} {retries : ℕ} {mask : Word} {e : TransferEntry}
  {out : List Byte} {entries : List TransferEntry} {words input completed : ℕ}
  {response : List Byte}

theorem flushWrite_traces {pending : Bool} {final : Byte}
    (h : (flushWrite processor pending status).Traces events final) :
    ∃ attempts, Made processor.backend.transfer attempts events ∧
      Flushes pending status attempts final := by
  unfold flushWrite at h
  split at h
  · rename_i hflush
    obtain ⟨r, first, rest, rfl, hmade, rfl, rfl⟩ := transferOnce_traces h
    exact ⟨_, hmade.append .nil, .flushed hflush.1 hflush.2 r⟩
  · rename_i hskip
    obtain ⟨rfl, rfl⟩ := h
    exact ⟨[], .nil, .skipped hskip⟩

theorem scanTransfers_needs (request : List Byte) (items scan required : ℕ) :
    (scanTransfers request items scan required).2 =
      required + needsOf (entriesFrom request items scan) := by
  induction items generalizing scan required with
  | zero => rfl
  | succ items ih =>
    rw [scanTransfers_succ, ih]
    simp only [entriesFrom, needsOf, List.map_cons, List.sum_cons, TransferEntry.needs, entryAt]
    split
    · omega
    · split <;> omega

/-- A transfer that is framed and whose response fits runs its entries. -/
theorem processTransfer_eq (hc : DapCommand.ofByte (byteAt request 0) = some .transfer)
    (hne : requestSize request ≠ 0) (hmax : requestSize request ≠ sizeMax)
    (hroom : 3 + needsOf (transferEntries request) ≤ capacity) :
    processTransfer processor request capacity =
      (if processor.selectedPort ≠ dapPortSwd then
        pure ([DapCommand.transfer.code, 0, 0], processor)
      else transferLoop request capacity (byteAt request 2).toNat
        ⟨processor, 3, [], 0, transferOk, false⟩ >>= transferResponse capacity) := by
  rw [requestSize_transfer hc] at hne hmax
  obtain ⟨hhead, heq⟩ := headed_ne_zero hne
  rw [heq] at hne hmax
  have hsize : requestSize request = transferSize request (byteAt request 2).toNat 3 :=
    (requestSize_transfer hc).trans heq
  unfold processTransfer
  rw [if_neg (by omega)]
  dsimp only
  rw [hsize, if_neg (by tauto), if_neg]
  rw [scanTransfers_needs, scanTransfers_end hne hmax]
  change ¬ (3 + needsOf (transferEntries request) > capacity ∨ _)
  simp only [ne_eq, not_true, or_false]
  omega

theorem processTransfer_traces (hport : processor.selectedPort = dapPortSwd)
    (hc : DapCommand.ofByte (byteAt request 0) = some .transfer) (hne : requestSize request ≠ 0)
    (hmax : requestSize request ≠ sizeMax)
    (hroom : 3 + needsOf (transferEntries request) ≤ capacity)
    (hvalid : ∀ e ∈ transferEntries request, ¬ e.Invalid)
    (h : (processTransfer processor request capacity).Traces events v) :
    ∃ attempts, Made processor.backend.transfer attempts events ∧
      TransferLaw processor (transferEntries request) attempts v := by
  rw [processTransfer_eq hc hne hmax hroom, if_neg (by simp [hport])] at h
  obtain ⟨first, r, rest, rfl, hloop, h⟩ := traces_bind.mp h
  rw [requestSize_transfer hc] at hne hmax
  obtain ⟨hhead, heq⟩ := headed_ne_zero hne
  rw [heq] at hne hmax
  have hresponse {done : List TransferEntry} {run last : List BackendEvent} {out : List Byte}
      {rest' : List TransferEntry} {st' : TransferState}
      (hentries : transferEntries request = done ++ rest')
      (hrun : CompletesAll processor.matchRetries.toNat processor.matchMask done run out)
      (hlast : EndsAt processor.matchRetries.toNat (maskAfter processor.matchMask done) rest' last
        st'.status)
      (hst : Reached ⟨processor, 3, [], 0, transferOk, false⟩ done out st')
      (hmade : Made processor.backend.transfer (run ++ last) first)
      (h : (transferResponse capacity (.ok st')).Traces rest v) :
      ∃ attempts, Made processor.backend.transfer attempts (first ++ rest) ∧
        TransferLaw processor (transferEntries request) attempts v := by
    obtain ⟨flushed, final, rest'', rfl, hflush, rfl, rfl⟩ := traces_bind.mp h
    obtain ⟨flush, hmade', hflush⟩ := flushWrite_traces hflush
    have hcompleted : st'.completed = BitVec.ofNat 8 done.length :=
      hst.completed.trans (BitVec.zero_add _)
    rw [hst.pendingWrite] at hflush
    rw [hst.processor] at hmade'
    rw [List.append_nil, hcompleted, hst.output, hst.processor]
    exact ⟨_, hmade.append hmade', .intro hentries hrun hlast hflush⟩
  obtain ⟨asked, hmade, hresult⟩ :=
    transferLoop_traces ⟨processor, 3, [], 0, transferOk, false⟩ ⟨hne, hmax, hroom⟩ rfl hloop
  cases hresult with
  | all hrun hst hstatus =>
    rw [← List.append_nil asked] at hmade
    exact hresponse (List.append_nil _).symm hrun (by rw [hstatus]; exact .all) hst hmade h
  | stopped hentries hevents hrun hstop hst =>
    rw [hevents] at hmade
    exact hresponse hentries hrun (.stopped hstop) hst hmade h
  | invalid hentries hrun hinvalid hst =>
    refine absurd hinvalid (hvalid _ ?_)
    rw [show transferEntries request = _ from hentries]
    exact List.mem_append_right _ List.mem_cons_self

theorem Completes.lastStatus_eq (h : Completes retries mask e events out) :
    lastStatus events = transferOk := by
  cases h with
  | mask _ _ => rfl
  | write _ _ hstatus => exact hstatus
  | read _ _ hstatus => exact hstatus
  | matched _ _ hrun => exact hrun.lastStatus_matched

theorem lastStatus_append {events' : List BackendEvent} (h : lastStatus events = transferOk) :
    lastStatus (events ++ events') = lastStatus events' := by
  by_cases hnil : events' = []
  · rw [hnil, List.append_nil, h]
    rfl
  · obtain ⟨e, he⟩ := Option.isSome_iff_exists.mp (List.getLast?_isSome.mpr hnil)
    rw [lastStatus, lastStatus, List.getLast?_append, he]
    rfl

theorem CompletesAll.lastStatus_eq (h : CompletesAll retries mask entries events out) :
    lastStatus events = transferOk := by
  induction h with
  | nil => rfl
  | cons hfirst hrest ih => rw [lastStatus_append hfirst.lastStatus_eq, ih]

/-- The status is the one of the last transfer, or a mismatch after a transfer that was OK. -/
theorem Stops.status_eq (h : Stops retries mask e events status) :
    status ≠ transferOk ∧ (status = lastStatus events ∨
      (status = transferOk ||| transferMismatch ∧ lastStatus events = transferOk)) := by
  cases h with
  | refused _ hstatus => exact ⟨hstatus, .inl rfl⟩
  | unmatched _ _ _ =>
    split
    · rename_i hok
      exact ⟨by decide, .inr ⟨rfl, hok⟩⟩
    · rename_i hok
      exact ⟨hok, .inl rfl⟩

theorem TransferLaw.status_eq (h : TransferLaw processor entries events v) :
    byteAt v.1 2 = lastStatus events ∨
      (byteAt v.1 2 = transferOk ||| transferMismatch ∧ lastStatus events = transferOk) := by
  cases h with
  | @intro done rest run last flush out status final hentries hrun hlast hflush =>
    change final = _ ∨ (final = _ ∧ _)
    rw [List.append_assoc, lastStatus_append hrun.lastStatus_eq]
    cases hflush with
    | skipped hskip =>
      rw [List.append_nil]
      cases hlast with
      | all => exact .inl rfl
      | stopped hstop => exact hstop.status_eq.2
    | flushed hpending hstatus r =>
      cases hlast with
      | all => exact .inl rfl
      | stopped hstop => exact absurd hstatus hstop.status_eq.1

theorem blockLoop_succ {st : BlockState}
    (hinput : hasFlag (byteAt request 4) transferRead = false → st.input + 4 ≤ request.length)
    (hroom : hasFlag (byteAt request 4) transferRead = true →
      4 + st.output.length + 4 ≤ capacity) :
    blockLoop processor request capacity (byteAt request 4) (words + 1) st =
      (do
        let (done, data, status) ← transferOnce processor (byteAt request 4)
          (blockEntry request st.input).word
        if !done then pure (some { st with input := blockNext request st.input, status })
        else blockLoop processor request capacity (byteAt request 4) words { st with
          input := blockNext request st.input
          status
          completed := st.completed + 1
          output := st.output ++
            if (blockEntry request st.input).read then writeU32 data else [] }) := by
  rw [blockLoop]
  by_cases hread : hasFlag (byteAt request 4) transferRead = true
  · have hfits := hroom hread
    simp only [blockEntry, blockNext, TransferEntry.read, hread, Bool.not_true, Bool.false_eq_true,
      false_and, if_false, if_true, true_and]
    rw [if_neg (by omega)]
  · rw [Bool.not_eq_true] at hread
    have hfits := hinput hread
    simp only [blockEntry, blockNext, TransferEntry.read, hread, Bool.not_false, Bool.false_eq_true,
      false_and, if_false, true_and, List.append_nil]
    rw [if_neg (by omega)]

theorem blockLoop_traces (st : BlockState)
    (hinput : hasFlag (byteAt request 4) transferRead = false →
      st.input + words * 4 ≤ request.length)
    (hroom : hasFlag (byteAt request 4) transferRead = true →
      4 + st.output.length + words * 4 ≤ capacity) (hstatus : st.status = transferOk)
    {r : Option BlockState}
    (h : (blockLoop processor request capacity (byteAt request 4) words st).Traces events r) :
    ∃ attempts completed out st', r = some st' ∧
      Made processor.backend.transfer attempts events ∧
      BlockRun request st.input words attempts completed out st'.status ∧
      st'.completed = st.completed + BitVec.ofNat 16 completed ∧ st'.output = st.output ++ out := by
  induction words generalizing st events with
  | zero =>
    obtain ⟨rfl, rfl⟩ := h
    refine ⟨[], 0, [], st, rfl, .nil, ?_, (BitVec.add_zero _).symm, (List.append_nil _).symm⟩
    rw [hstatus]
    exact .done
  | succ words ih =>
    rw [blockLoop_succ (fun hread => by have := hinput hread; omega)
      (fun hread => by have := hroom hread; omega)] at h
    obtain ⟨answer, first, rest, rfl, hmade, h⟩ := transferOnce_traces h
    change Prog.Traces (if (!decide (answerStatus answer = transferOk)) = true then _ else _) _ _
      at h
    by_cases hok : answerStatus answer = transferOk
    · rw [if_neg (by simp [hok])] at h
      have hinput' : hasFlag (byteAt request 4) transferRead = false →
          blockNext request st.input + words * 4 ≤ request.length := by
        intro hread
        have := hinput hread
        simp only [blockNext, hread, Bool.false_eq_true, if_false]
        omega
      have hroom' : hasFlag (byteAt request 4) transferRead = true →
          4 + (st.output ++ if (blockEntry request st.input).read then writeU32 answer.2.1
            else []).length + words * 4 ≤ capacity := by
        intro hread
        have := hroom hread
        have hlength : (writeU32 answer.2.1).length = 4 := rfl
        simp only [blockEntry, TransferEntry.read, hread, if_true, List.length_append, hlength]
        omega
      obtain ⟨attempts, completed, out, st', rfl, hrest, hrun, hcompleted, hout⟩ :=
        ih _ hinput' hroom' hok h
      refine ⟨_, completed + 1, _, st', rfl, hmade.append hrest, .word hok hrun, ?_, ?_⟩
      · rw [hcompleted, BitVec.add_assoc]
        congr 1
        rw [Nat.add_comm completed 1, BitVec.ofNat_add]
        rfl
      · rw [hout, List.append_assoc]
    · rw [if_pos (by simp [hok])] at h
      obtain ⟨rfl, rfl⟩ := h
      exact ⟨_, 0, [], _, rfl, hmade.append .nil, .stopped hok, (BitVec.add_zero _).symm,
        (List.append_nil _).symm⟩

theorem BlockRun.completed_le (h : BlockRun request input words events completed out status) :
    completed ≤ words := by
  induction h with
  | done => exact le_rfl
  | stopped _ => exact Nat.zero_le _
  | word _ _ ih => exact Nat.succ_le_succ ih

/-- The bytes of the data in the response to a block. -/
def blockNeeds (request : List Byte) : ℕ :=
  if hasFlag (byteAt request 4) transferRead then (readU16 (request.drop 2)).toNat * 4 else 0

theorem processTransferBlock_traces (hport : processor.selectedPort = dapPortSwd)
    (hsize : blockSize request ≤ request.length) (hroom : 4 + blockNeeds request ≤ capacity)
    (h : (processTransferBlock processor request capacity).Traces events response) :
    ∃ attempts, Made processor.backend.transfer attempts events ∧
      BlockLaw request attempts response := by
  have hinput : hasFlag (byteAt request 4) transferRead = false →
      5 + (readU16 (request.drop 2)).toNat * 4 ≤ request.length := by
    intro hread
    rw [blockSize, hread] at hsize
    exact hsize
  have hdata : hasFlag (byteAt request 4) transferRead = true →
      4 + (readU16 (request.drop 2)).toNat * 4 ≤ capacity := by
    intro hread
    rw [blockNeeds, hread] at hroom
    exact hroom
  have hhead : 5 ≤ request.length := by
    refine le_trans ?_ hsize
    unfold blockSize
    split <;> omega
  unfold processTransferBlock at h
  rw [if_neg (by omega)] at h
  dsimp only at h
  rw [if_neg ?_, if_neg (by simp [hport])] at h
  · obtain ⟨first, r, rest, rfl, hloop, h⟩ := traces_bind.mp h
    obtain ⟨asked, completed, out, st', rfl, hmade, hrun, hcompleted, hout⟩ :=
      blockLoop_traces ⟨5, [], 0, transferOk⟩ hinput hdata rfl hloop
    obtain ⟨flushed, final, rest', rfl, hflush, rfl, rfl⟩ := traces_bind.mp h
    obtain ⟨flush, hmade', hflush⟩ := flushWrite_traces hflush
    replace hcompleted : st'.completed = BitVec.ofNat 16 completed :=
      hcompleted.trans (BitVec.zero_add _)
    have hlt : completed < 2 ^ 16 := lt_of_le_of_lt hrun.completed_le (BitVec.isLt _)
    have hpending : decide (0 < st'.completed) = decide (0 < completed) := by
      rw [hcompleted, decide_eq_decide, BitVec.lt_def, BitVec.toNat_ofNat,
        Nat.mod_eq_of_lt hlt]
      rfl
    rw [hpending] at hflush
    rw [List.append_nil, hcompleted, hout]
    exact ⟨_, hmade.append hmade', .intro hrun hflush⟩
  · rintro (⟨hread, hcount⟩ | ⟨hwrite, hcount⟩)
    · have := hdata hread
      omega
    · have := hinput (by simpa using hwrite)
      omega

theorem BlockRun.lastStatus_eq (h : BlockRun request input words events completed out status) :
    lastStatus events = status := by
  induction h with
  | done => rfl
  | stopped _ => rfl
  | word hstatus _ ih =>
    rw [← ih, ← List.singleton_append]
    exact lastStatus_append hstatus

theorem BlockLaw.status_eq (h : BlockLaw request events response) :
    byteAt response 3 = lastStatus events := by
  cases h with
  | @intro run flush completed out status final hrun hflush =>
    change final = _
    cases hflush with
    | skipped _ => rw [List.append_nil, hrun.lastStatus_eq]
    | flushed _ hstatus r =>
      rw [lastStatus_append (hrun.lastStatus_eq.trans hstatus)]
      rfl

theorem processPacket_transfer (hc : DapCommand.ofByte (byteAt request 0) = some .transfer)
    (hcapacity : capacity ≠ 0) :
    processPacket processor request capacity =
      processTransfer processor request (min capacity dapPacketSize) := by
  have hpos := length_pos_of_command hc (by decide)
  rw [processPacket, if_neg (by omega), hc]
  rfl

theorem blockSize_le_length (hc : DapCommand.ofByte (byteAt request 0) = some .transferBlock)
    (hne : requestSize request ≠ 0) (hmax : requestSize request ≠ sizeMax) :
    blockSize request ≤ request.length := by
  rw [requestSize_transferBlock hc] at hne hmax
  obtain ⟨-, heq⟩ := headed_ne_zero hne
  rw [heq] at hne hmax
  by_cases hlimit : blockSize request > dapPacketSize
  · exact absurd (if_pos hlimit) hmax
  · rw [if_neg hlimit] at hne
    exact (sizeWhen_bounds hne).2

/-- The result law of DAP_Transfer and DAP_TransferBlock, for every backend. -/
theorem transfer_result_law (processor : Processor) (request : List Byte) (capacity : ℕ)
    (hport : processor.selectedPort = dapPortSwd) (hframed : requestSize request = request.length)
    (hmax : request.length ≠ sizeMax) :
    (byteAt request 0 = DapCommand.transfer.code →
      (∀ e ∈ transferEntries request, ¬ e.Invalid ∧ ¬ (e.read = false ∧ e.hasMatch = true)) →
      3 + needsOf (transferEntries request) ≤ capacity →
      ∀ events v, (processTransfer processor request capacity).Traces events v →
        ∃ attempts, Made processor.backend.transfer attempts events ∧
          TransferLaw processor (transferEntries request) attempts v ∧
          (byteAt v.1 2 = lastStatus attempts ∨
            (byteAt v.1 2 = transferOk ||| transferMismatch ∧ lastStatus attempts = transferOk))) ∧
    (byteAt request 0 = DapCommand.transferBlock.code → 4 + blockNeeds request ≤ capacity →
      ∀ events response, (processTransferBlock processor request capacity).Traces events response →
        ∃ attempts, Made processor.backend.transfer attempts events ∧
          BlockLaw request attempts response ∧ byteAt response 3 = lastStatus attempts) := by
  constructor
  · intro hcode hvalid hroom events v h
    have hc : DapCommand.ofByte (byteAt request 0) = some .transfer := by rw [hcode]; rfl
    have hpos := length_pos_of_command hc (by decide)
    obtain ⟨attempts, hmade, hlaw⟩ := processTransfer_traces hport hc (by omega) (by omega) hroom
      (fun e he => (hvalid e he).1) h
    exact ⟨attempts, hmade, hlaw, hlaw.status_eq⟩
  · intro hcode hroom events response h
    have hc : DapCommand.ofByte (byteAt request 0) = some .transferBlock := by rw [hcode]; rfl
    have hpos := length_pos_of_command hc (by decide)
    have hsize := blockSize_le_length hc (by omega) (by omega)
    obtain ⟨attempts, hmade, hlaw⟩ := processTransferBlock_traces hport hsize hroom h
    exact ⟨attempts, hmade, hlaw, hlaw.status_eq⟩

/-- The processor after DAP_Connect. -/
def connectedProcessor : Processor :=
  { processorInit installedBackend none none with selectedPort := dapPortSwd }

/-- A read that matches, a write and the read of RDBUFF that flushes it. -/
def listEvents : List BackendEvent :=
  [⟨.transfer false true 0 0, (true, 0x2BA01477, transferOk)⟩,
    ⟨.transfer false false 0x04 0x12345678, (true, 0, transferOk)⟩,
    ⟨.transfer false true 0x0C 0, (true, 0, transferOk)⟩]

/-- Two reads. -/
def blockEvents : List BackendEvent :=
  [⟨.transfer false true 0 0, (true, 0x2BA01477, transferOk)⟩,
    ⟨.transfer false true 0 0, (true, 0, transferOk)⟩]

/-- A match mask, a read that matches under it and a write; and a block of two reads. -/
theorem transfer_result_of_list :
    TransferLaw connectedProcessor
      [⟨0x20, 0x0FFFFFFF⟩, ⟨0x12, 0x0BA01477⟩, ⟨0x04, 0x12345678⟩] listEvents
      ([0x05, 3, 1], { connectedProcessor with matchMask := 0x0FFFFFFF }) ∧
    BlockLaw [0x06, 0x00, 0x02, 0x00, 0x02] blockEvents
      [0x06, 2, 0, 1, 0x77, 0x14, 0xA0, 0x2B, 0, 0, 0, 0] := by
  constructor
  · obtain ⟨attempts, hmade, hlaw, -⟩ :=
      (transfer_result_law connectedProcessor [0x05, 0x00, 0x03, 0x20, 0xFF, 0xFF, 0xFF, 0x0F, 0x12,
        0x77, 0x14, 0xA0, 0x0B, 0x04, 0x78, 0x56, 0x34, 0x12] 64 rfl (by decide) (by decide)).1 rfl
        (by decide) (by decide) listEvents
        ([0x05, 3, 1], { connectedProcessor with matchMask := 0x0FFFFFFF })
        ⟨_, _, rfl, _, _, rfl, _, [], rfl, rfl, rfl⟩
    rw [hmade.events_eq]
    exact hlaw
  · obtain ⟨attempts, hmade, hlaw, -⟩ :=
      (transfer_result_law connectedProcessor [0x06, 0x00, 0x02, 0x00, 0x02] 64 rfl (by decide)
        (by decide)).2 rfl (by decide) blockEvents
        [0x06, 2, 0, 1, 0x77, 0x14, 0xA0, 0x2B, 0, 0, 0, 0] ⟨_, _, rfl, _, [], rfl, rfl, rfl⟩
    rw [hmade.events_eq]
    exact hlaw

end Commands
end AirDap

import AirDap.Uart.Machine

/-! What the sessions of the UART receive. A session is a queue of limited length: each slot with
its ring buffer refines one, and what happens on it depends on the published bytes and on its own
calls only. -/
namespace AirDap
open Concurrency Prog Function

variable {T : Type}

/-- What a session is for: the bytes that wait for it, and how many did not fit. -/
structure Subscriber where
  buffered : List Byte
  lost : ℕ

/-- What a session is given, and what it asks for. -/
inductive SessionInput where
  | publish (data : List Byte)
  | read (capacity : ℕ)
  | status
  deriving DecidableEq

/-- An input with what came of it: the free space that the bytes found, the bytes that were read,
the counters that were shown. -/
inductive SessionEvent where
  | published (data : List Byte) (space : ℕ)
  | read (capacity : ℕ) (bytes : List Byte)
  | shown (buffered : ℕ) (dropped : ℕ)
  deriving DecidableEq

def SessionEvent.input : SessionEvent → SessionInput
  | .published data _ => .publish data
  | .read capacity _ => .read capacity
  | .shown _ _ => .status

namespace Subscriber

def space (s : Subscriber) : ℕ := uartSubscriberBufferSize - s.buffered.length

/-- The newest bytes are lost if there is no space. -/
def publish (data : List Byte) (s : Subscriber) : Subscriber :=
  ⟨s.buffered ++ data.take s.space, s.lost + (data.length - s.space)⟩

def read (capacity : ℕ) (s : Subscriber) : List Byte × Subscriber :=
  (s.buffered.take capacity, { s with buffered := s.buffered.drop capacity })

def dropped (s : Subscriber) : ℕ := min (2 ^ 32 - 1) s.lost

def step (s : Subscriber) : SessionInput → SessionEvent × Subscriber
  | .publish data => (.published data s.space, s.publish data)
  | .read capacity => (.read capacity (s.read capacity).1, (s.read capacity).2)
  | .status => (.shown s.buffered.length s.dropped, s)

/-- A session from its opening on; the inputs and the events are listed newest first. -/
def run : List SessionInput → List SessionEvent × Subscriber
  | [] => ([], ⟨[], 0⟩)
  | input :: inputs =>
    (((run inputs).2.step input).1 :: (run inputs).1, ((run inputs).2.step input).2)

end Subscriber

/-- The bytes that wait in a slot. -/
def SessionSlot.buffered (slot : SessionSlot) : List Byte :=
  Buffer.ring slot.rxBuffer slot.rxHead slot.rxCount

/-- The slot refines the session `s`. -/
structure SessionSlot.Represents (slot : SessionSlot) (s : Subscriber) : Prop where
  head : slot.rxHead < uartSubscriberBufferSize
  count : slot.rxCount ≤ uartSubscriberBufferSize
  buffered : slot.buffered = s.buffered
  dropped : slot.rxDroppedBytes.toNat = s.dropped

section Slots

variable {slot : SessionSlot} {s : Subscriber}

theorem SessionSlot.Represents.rxCount_eq (h : slot.Represents s) :
    slot.rxCount = s.buffered.length := by
  rw [← h.buffered, SessionSlot.buffered, Buffer.length_ring _ h.count]

theorem represents_opened (session : Word) :
    ({ SessionSlot.zero with session } : SessionSlot).Represents ⟨[], 0⟩ := by
  refine ⟨?_, ?_, rfl, rfl⟩ <;> simp [SessionSlot.zero, uartSubscriberBufferSize]

theorem addDroppedBytes_toNat (slot : SessionSlot) (dropped : ℕ) :
    (addDroppedBytes slot dropped).rxDroppedBytes.toNat =
      min (2 ^ 32 - 1) (slot.rxDroppedBytes.toNat + dropped) := by
  have hlt := slot.rxDroppedBytes.isLt
  unfold addDroppedBytes
  split_ifs with h
  · simp only [BitVec.toNat_ofNat]
    omega
  · simp only [BitVec.toNat_add, BitVec.toNat_ofNat]
    omega

theorem addDroppedBytes_eq (slot : SessionSlot) (dropped : ℕ) :
    addDroppedBytes slot dropped =
      { slot with rxDroppedBytes := (addDroppedBytes slot dropped).rxDroppedBytes } := by
  unfold addDroppedBytes
  split_ifs <;> rfl

theorem SessionSlot.Represents.publish (h : slot.Represents s) (hlive : slot.session ≠ 0)
    (data : List Byte) : (publishSlot data slot).Represents (s.publish data) := by
  have hspace : uartSubscriberBufferSize - slot.rxCount = s.space := by
    rw [Subscriber.space, h.rxCount_eq]
  have hcount := h.count
  simp only [publishSlot, if_neg hlive, hspace]
  generalize htail : (slot.rxHead + slot.rxCount) % uartSubscriberBufferSize = tail
  generalize hfirst : min (min data.length s.space) (uartSubscriberBufferSize - tail) = first
  rw [addDroppedBytes_eq]
  refine ⟨h.head, ?_, ?_, ?_⟩
  · change slot.rxCount + min data.length s.space ≤ uartSubscriberBufferSize
    omega
  · have hlength : (data.take s.space).length = min data.length s.space := by
      rw [List.length_take, Nat.min_comm]
    have hfits : slot.rxCount + (data.take s.space).length ≤ uartSubscriberBufferSize := by omega
    have hstore := Buffer.ring_store slot.rxBuffer h.head hfits
    rw [hlength, htail, hfirst] at hstore
    have htake : (data.take s.space).take first = data.take first := by
      rw [List.take_take]
      congr 1
      omega
    have hdrop : (data.take s.space).drop first =
        (data.drop first).take (min data.length s.space - first) := by
      rw [List.drop_take]
      rcases le_total data.length s.space with hle | hle
      · rw [min_eq_left hle, List.take_of_length_le (by simp; omega),
          List.take_of_length_le (by simp)]
      · rw [min_eq_right hle]
    rw [htake, hdrop] at hstore
    rw [Subscriber.publish, ← h.buffered]
    exact hstore
  · rw [addDroppedBytes_toNat, h.dropped]
    simp only [Subscriber.publish, Subscriber.dropped]
    omega

theorem SessionSlot.Represents.read (h : slot.Represents s) (capacity : ℕ) :
    (readSlot capacity slot).1 = (s.read capacity).1 ∧
      (readSlot capacity slot).2.Represents (s.read capacity).2 := by
  have hcount := h.count
  have hread : min capacity slot.rxCount ≤ slot.rxCount := min_le_right _ _
  simp only [readSlot, Subscriber.read]
  constructor
  · rw [Buffer.load_append_load _ h.head.le (hread.trans hcount), ← h.buffered,
      SessionSlot.buffered, Buffer.ring, Buffer.ring, List.take_take]
  · refine ⟨Nat.mod_lt _ (by decide), (Nat.sub_le _ _).trans hcount, ?_, h.dropped⟩
    rw [SessionSlot.buffered, Buffer.ring_drop slot.rxBuffer hread hcount, ← h.buffered]
    rcases le_total capacity slot.rxCount with hle | hle
    · rw [min_eq_left hle]
      rfl
    · rw [min_eq_right hle, List.drop_eq_nil_of_le, List.drop_eq_nil_of_le]
      · rw [SessionSlot.buffered, Buffer.length_ring _ hcount]
        exact hle
      · rw [Buffer.length_ring _ hcount]

end Slots

section Sequences

/-- A call that a thread has made, with what it returned and the world it was made in. -/
structure UartEntry (T : Type) where
  thread : T
  call : UartCall
  value : call.Value
  before : UartWorld T

/-- The calls that concern what the sessions receive. -/
def UartCall.fansOut : UartCall → Bool
  | .publishRx _ | .sessionOpen _ _ _ | .sessionClose _ _ | .sessionGetStatus _ _ _
  | .sessionRead _ _ _ _ => true
  | _ => false

/-- Any sequence of these calls, by any threads; the log has the newest first. -/
inductive UartSequence (w₀ : UartWorld T) : List (UartEntry T) → UartWorld T → Prop
  | start : UartSequence w₀ [] w₀
  | call {log : List (UartEntry T)} {w w' : UartWorld T} {t : T} {c : UartCall} {v : c.Value}
      (earlier : UartSequence w₀ log w) (kind : c.fansOut = true)
      (runs : c.code.Runs (UartWorld.exec t) v w w') : UartSequence w₀ (⟨t, c, v, w⟩ :: log) w'

/-- What an entry of the log is to the session of a transport. -/
def UartEntry.seenBy (transport : UartTransport) : UartEntry T → Option SessionEvent
  | ⟨_, .publishRx (some data), _, w⟩ =>
    some (.published data (uartSubscriberBufferSize - (w.uart.slots transport).rxCount))
  | ⟨_, .sessionRead (some transport') _ capacity _, (.ok, bytes), _⟩ =>
    if transport' = transport then some (.read capacity bytes) else none
  | ⟨_, .sessionGetStatus (some transport') _ _, (.ok, status), _⟩ =>
    if transport' = transport then
      some (.shown status.rxBufferedBytes status.rxDroppedBytes.toNat)
    else none
  | _ => none

/-- The entry is the opening of a session of the transport. -/
def UartEntry.opens (transport : UartTransport) : UartEntry T → Bool
  | ⟨_, .sessionOpen (some transport') _ _, (.ok, _), _⟩ => transport' = transport
  | _ => false

/-- What happened to the session of a transport since it was opened, newest first. -/
def sessionLog (transport : UartTransport) : List (UartEntry T) → List SessionEvent
  | [] => []
  | e :: log =>
    if e.opens transport then [] else (e.seenBy transport).toList ++ sessionLog transport log

/-- The bytes that a session has read. -/
def bytesRead : List SessionEvent → List Byte
  | [] => []
  | .read _ bytes :: log => bytesRead log ++ bytes
  | _ :: log => bytesRead log

/-- The longest prefixes of the published bytes that fitted. -/
def acceptedBytes : List SessionEvent → List Byte
  | [] => []
  | .published data space :: log => acceptedBytes log ++ data.take space
  | _ :: log => acceptedBytes log

/-- The number of published bytes that did not fit. -/
def lostBytes : List SessionEvent → ℕ
  | [] => 0
  | .published data space :: log => lostBytes log + (data.length - space)
  | _ :: log => lostBytes log

end Sequences

section Runs

variable {t : T} {w w' : UartWorld T}

variable {α : Type} {v : α} {given : Option UartTransport} {output : Bool} {session : Word}

theorem runs_uartAct {a : UartAct} {rest : a.Answer → UartCode α} :
    (uartAct a >>= rest).Runs (UartWorld.exec t) v w w' ↔
      ∃ r w₁, w.exec t a r w₁ ∧ (rest r).Runs (UartWorld.exec t) v w₁ w' := runs_act_iff

theorem runs_section {s : UartSection} {rest : Option s.Answer → UartCode α}
    (hinitialized : w.uart.initialized = true)
    (h : (uartAct (.locked s) >>= rest).Runs (UartWorld.exec t) v w w') :
    (rest (some (s.run w.uart).1)).Runs (UartWorld.exec t) v
      { w with uart := (s.run w.uart).2 } w' := by
  obtain ⟨r, w₁, hexec, hrest⟩ := runs_uartAct.mp h
  obtain ⟨-, hoff, -⟩ | ⟨rfl, rfl⟩ := hexec
  · cases hinitialized.symm.trans hoff
  · exact hrest

theorem runs_publishRx {data : Option (List Byte)} {v : Unit}
    (h : (targetUartPublishRx data).Runs (UartWorld.exec t) v w w') :
    (w' = w ∧ (w.uart.initialized = true → data.getD [] = [])) ∨
      ∃ d, data = some d ∧ w.uart.initialized = true ∧
        w' = { w with uart := publishRxLocked w.uart d } := by
  obtain ⟨r, w₁, ⟨rfl, rfl⟩, h⟩ := runs_uartAct.mp h
  cases hinitialized : w₁.uart.initialized with
  | false =>
    rw [hinitialized] at h
    exact .inl ⟨(runs_ret_iff.mp h).2, nofun⟩
  | true =>
    rw [hinitialized] at h
    match data with
    | none => exact .inl ⟨(runs_ret_iff.mp h).2, fun _ => rfl⟩
    | some [] => exact .inl ⟨(runs_ret_iff.mp h).2, fun _ => rfl⟩
    | some (byte :: data) =>
      have hpublished := runs_section (s := .publishRx (byte :: data)) hinitialized h
      exact .inr ⟨_, rfl, rfl, (runs_ret_iff.mp hpublished).2⟩

theorem runs_sessionOpen {authenticated : Bool} {v : UartResult × Word}
    (h : (targetUartSessionOpen given authenticated output).Runs (UartWorld.exec t) v w w') :
    (w' = w ∧ v.1 ≠ .ok) ∨ ∃ transport, given = some transport ∧ w.uart.initialized = true ∧
      v.1 = (sessionOpenLocked w.uart transport).1 ∧
        w' = { w with uart := (sessionOpenLocked w.uart transport).2.2 } := by
  have hrefuse {r : UartResult} (hr : r ≠ .ok)
      (h : (Prog.ret (r, 0) : UartCode (UartResult × Word)).Runs (UartWorld.exec t) v w w') :
      w' = w ∧ v.1 ≠ .ok := by
    obtain ⟨rfl, rfl⟩ := runs_ret_iff.mp h
    exact ⟨rfl, hr⟩
  cases given with
  | none => exact .inl (hrefuse (by simp) h)
  | some transport =>
    cases output with
    | false => exact .inl (hrefuse (by simp) h)
    | true =>
      obtain ⟨r, w₁, ⟨rfl, rfl⟩, h⟩ := runs_uartAct.mp h
      cases hinitialized : w₁.uart.initialized with
      | false =>
        rw [hinitialized] at h
        exact .inl (hrefuse (by simp) h)
      | true =>
        rw [hinitialized] at h
        simp only [Bool.not_true, Bool.false_eq_true, if_false] at h
        split_ifs at h
        · exact .inl (hrefuse (by simp) h)
        · have hopened := runs_section (s := .sessionOpen transport) hinitialized h
          obtain ⟨rfl, rfl⟩ := runs_ret_iff.mp hopened
          exact .inr ⟨transport, rfl, rfl, rfl, rfl⟩

theorem runs_forSession {refuse : UartResult → α} {body : UartTransport → UartCode α}
    (h : (forSession given session refuse body).Runs (UartWorld.exec t) v w w') :
    (w' = w ∧ ∃ r, r ≠ .ok ∧ v = refuse r) ∨ ∃ transport, given = some transport ∧
      w.uart.initialized = true ∧ (body transport).Runs (UartWorld.exec t) v w w' := by
  have hrefuse {r : UartResult} (hr : r ≠ .ok)
      (h : (Prog.ret (refuse r) : UartCode α).Runs (UartWorld.exec t) v w w') :
      w' = w ∧ ∃ r, r ≠ .ok ∧ v = refuse r := by
    obtain ⟨rfl, rfl⟩ := runs_ret_iff.mp h
    exact ⟨rfl, r, hr, rfl⟩
  cases given with
  | none => exact .inl (hrefuse (by simp) h)
  | some transport =>
    unfold forSession at h
    dsimp only at h
    split_ifs at h
    · exact .inl (hrefuse (by simp) h)
    · obtain ⟨r, w₁, ⟨rfl, rfl⟩, h⟩ := runs_uartAct.mp h
      split_ifs at h with hinitialized
      · exact .inl (hrefuse (by simp) h)
      · simp only [Bool.not_eq_true', Bool.not_eq_false] at hinitialized
        exact .inr ⟨transport, rfl, hinitialized, h⟩

theorem runs_sessionClose {v : UartResult}
    (h : (targetUartSessionClose given session).Runs (UartWorld.exec t) v w w') :
    w'.uart = w.uart ∨ ∃ transport, given = some transport ∧
      w'.uart.slots = update w.uart.slots transport .zero ∧
        w'.uart.initialized = w.uart.initialized := by
  obtain ⟨rfl, -⟩ | ⟨transport, rfl, hinitialized, h⟩ := runs_forSession h
  · exact .inl rfl
  · obtain ⟨taken, w₁, hlock, h⟩ := runs_uartAct.mp h
    obtain ⟨rfl, -, rfl⟩ | ⟨-, hoff, -⟩ := hlock
    · have hlocked : ({ w with txHolder := some t } : UartWorld T).uart.initialized = true :=
        hinitialized
      have hclosed := runs_section (s := .sessionClose transport session) hlocked h
      obtain ⟨_, w₂, rfl, h⟩ := runs_uartAct.mp hclosed
      obtain ⟨-, rfl⟩ := runs_ret_iff.mp h
      obtain heq | ⟨-, -, heq⟩ | ⟨-, -, heq⟩ := sessionCloseLocked_cases w.uart transport session
      · exact .inl (by simp [UartSection.run, heq])
      · exact .inr ⟨transport, rfl, by simp [UartSection.run, heq, TargetUart.setSlot]⟩
      · exact .inr ⟨transport, rfl, by simp [UartSection.run, heq, TargetUart.setSlot]⟩
    · cases hinitialized.symm.trans hoff

theorem runs_sessionRead {capacity : ℕ} {v : UartResult × List Byte}
    (h : (targetUartSessionRead given session capacity output).Runs (UartWorld.exec t) v w w') :
    (w' = w ∧ v.1 ≠ .ok) ∨ ∃ transport, given = some transport ∧
      v.1 = (sessionReadLocked w.uart transport session capacity).1 ∧
      v.2 = (sessionReadLocked w.uart transport session capacity).2.1 ∧
      w' = { w with uart := (sessionReadLocked w.uart transport session capacity).2.2 } := by
  unfold targetUartSessionRead at h
  split_ifs at h
  · obtain ⟨rfl, rfl⟩ := runs_ret_iff.mp h
    exact .inl ⟨rfl, by simp⟩
  · obtain ⟨rfl, r, hr, rfl⟩ | ⟨transport, rfl, hinitialized, h⟩ := runs_forSession h
    · exact .inl ⟨rfl, hr⟩
    · have hread := runs_section (s := .sessionRead transport session capacity) hinitialized h
      obtain ⟨rfl, rfl⟩ := runs_ret_iff.mp hread
      exact .inr ⟨transport, rfl, rfl, rfl, rfl⟩

theorem runs_sessionGetStatus {v : UartResult × SessionStatus}
    (h : (targetUartSessionGetStatus given session output).Runs (UartWorld.exec t) v w w') :
    w' = w ∧ (v.1 = .ok → ∃ transport, given = some transport ∧
      v = sessionStatusLocked w.uart transport session) := by
  unfold targetUartSessionGetStatus at h
  split_ifs at h
  · obtain ⟨rfl, rfl⟩ := runs_ret_iff.mp h
    exact ⟨rfl, nofun⟩
  · obtain ⟨rfl, r, hr, rfl⟩ | ⟨transport, rfl, hinitialized, h⟩ := runs_forSession h
    · exact ⟨rfl, fun hok => absurd hok hr⟩
    · have hshown := runs_section (s := .sessionStatus transport session) hinitialized h
      obtain ⟨rfl, rfl⟩ := runs_ret_iff.mp hshown
      exact ⟨rfl, fun _ => ⟨transport, rfl, rfl⟩⟩

end Runs

section Invariant

variable {t : T} {w w' : UartWorld T} {log : List (UartEntry T)} {transport : UartTransport}

/-- The slot of a transport after the log: it is free, or it refines the session that was given
the inputs of the log, and all that came of them is what came of them there. -/
def FanOut (transport : UartTransport) (w : UartWorld T) (log : List (UartEntry T)) : Prop :=
  (w.uart.slots transport).session ≠ 0 → w.uart.initialized = true ∧
    let session := Subscriber.run ((sessionLog transport log).map SessionEvent.input)
    (w.uart.slots transport).Represents session.2 ∧ sessionLog transport log = session.1

variable {e : UartEntry T} {given : Option UartTransport} {authenticated output : Bool}
  {session : Word} {capacity : ℕ} {v : UartResult × SessionStatus}

theorem FanOut.skip (hi : FanOut transport w log) (hopens : e.opens transport = false)
    (hseen : e.seenBy transport = none) (hslot : w'.uart.slots transport = w.uart.slots transport)
    (hinitialized : w'.uart.initialized = w.uart.initialized) : FanOut transport w' (e :: log) := by
  have hlog : sessionLog transport (e :: log) = sessionLog transport log := by
    simp [sessionLog, hopens, hseen]
  rw [FanOut, hlog, hslot, hinitialized]
  exact hi

theorem FanOut.input (hi : FanOut transport w log) {event : SessionEvent}
    (hopens : e.opens transport = false) (hseen : e.seenBy transport = some event)
    (hsession : (w'.uart.slots transport).session = (w.uart.slots transport).session)
    (hinitialized : w'.uart.initialized = w.uart.initialized)
    (hstep : ∀ s, (w.uart.slots transport).session ≠ 0 →
      (w.uart.slots transport).Represents s → event = (s.step event.input).1 ∧
        (w'.uart.slots transport).Represents (s.step event.input).2) :
    FanOut transport w' (e :: log) := by
  intro hlive
  rw [hsession] at hlive
  obtain ⟨hon, hrepresents, hlog⟩ := hi hlive
  obtain ⟨hevent, hnext⟩ := hstep _ hlive hrepresents
  have hcons : sessionLog transport (e :: log) = event :: sessionLog transport log := by
    simp [sessionLog, hopens, hseen]
  refine ⟨hinitialized.trans hon, ?_⟩
  rw [hcons, List.map_cons]
  exact ⟨hnext, List.cons_eq_cons.mpr ⟨hevent, hlog⟩⟩

theorem UartEntry.opens_of_ne {v : UartResult × Word} (hv : v.1 ≠ .ok) :
    (⟨t, .sessionOpen given authenticated output, v, w⟩ : UartEntry T).opens transport = false := by
  unfold UartEntry.opens
  split
  · simp_all
  · rfl

theorem UartEntry.seenBy_read {v : UartResult × List Byte}
    (hv : v.1 ≠ .ok ∨ given ≠ some transport) :
    (⟨t, .sessionRead given session capacity output, v, w⟩ : UartEntry T).seenBy transport =
      none := by
  unfold UartEntry.seenBy
  split <;> simp_all

theorem UartEntry.seenBy_status (hv : v.1 ≠ .ok ∨ given ≠ some transport) :
    (⟨t, .sessionGetStatus given session output, v, w⟩ : UartEntry T).seenBy transport = none := by
  unfold UartEntry.seenBy
  split <;> simp_all

section

variable (hi : FanOut transport w log)
include hi

theorem FanOut.publishRx {data : Option (List Byte)} {v : Unit}
    (runs : (targetUartPublishRx data).Runs (UartWorld.exec t) v w w') :
    FanOut transport w' (⟨t, .publishRx data, v, w⟩ :: log) := by
  obtain ⟨rfl, hquiet⟩ | ⟨d, rfl, hon, rfl⟩ := runs_publishRx runs
  · cases data with
    | none => exact hi.skip rfl rfl rfl rfl
    | some d =>
      refine hi.input rfl rfl rfl rfl fun s hlive hs => ?_
      obtain rfl : d = [] := hquiet (hi hlive).1
      simpa [SessionEvent.input, Subscriber.step, Subscriber.space, Subscriber.publish,
        hs.rxCount_eq] using hs
  · refine hi.input rfl rfl (publishSlot_session d _) rfl fun s hlive hs => ?_
    refine ⟨?_, hs.publish hlive d⟩
    simp [SessionEvent.input, Subscriber.step, Subscriber.space, hs.rxCount_eq]

theorem FanOut.sessionOpen {v : UartResult × Word}
    (runs : (targetUartSessionOpen given authenticated output).Runs (UartWorld.exec t) v w w') :
    FanOut transport w' (⟨t, .sessionOpen given authenticated output, v, w⟩ :: log) := by
  obtain ⟨rfl, hv⟩ | ⟨opened, rfl, hon, hv, rfl⟩ := runs_sessionOpen runs
  · exact hi.skip (UartEntry.opens_of_ne hv) rfl rfl rfl
  · obtain ⟨-, heq⟩ | ⟨-, heq⟩ := sessionOpenLocked_cases w.uart opened
    · rw [heq] at hv ⊢
      exact hi.skip (UartEntry.opens_of_ne (by simp [hv])) rfl rfl rfl
    · rw [heq] at hv ⊢
      obtain ⟨r, id⟩ := v
      obtain rfl : r = .ok := hv
      by_cases hopened : opened = transport
      · subst hopened
        intro _
        simpa [sessionLog, UartEntry.opens, Subscriber.run, TargetUart.setSlot, hon] using
          represents_opened _
      · refine hi.skip (by simp [UartEntry.opens, hopened]) rfl ?_ rfl
        simp [TargetUart.setSlot, update_of_ne (Ne.symm hopened)]

theorem FanOut.sessionClose {v : UartResult}
    (runs : (targetUartSessionClose given session).Runs (UartWorld.exec t) v w w') :
    FanOut transport w' (⟨t, .sessionClose given session, v, w⟩ :: log) := by
  obtain huart | ⟨closed, rfl, hslots, hinitialized⟩ := runs_sessionClose runs
  · exact hi.skip rfl rfl (by rw [huart]) (by rw [huart])
  · by_cases hclosed : closed = transport
    · subst hclosed
      intro hlive
      simp [hslots, SessionSlot.zero] at hlive
    · exact hi.skip rfl rfl (by rw [hslots, update_of_ne (Ne.symm hclosed)]) hinitialized

theorem FanOut.sessionGetStatus
    (runs : (targetUartSessionGetStatus given session output).Runs (UartWorld.exec t) v w w') :
    FanOut transport w' (⟨t, .sessionGetStatus given session output, v, w⟩ :: log) := by
  obtain ⟨rfl, hshown⟩ := runs_sessionGetStatus runs
  by_cases hv : v.1 ≠ .ok ∨ given ≠ some transport
  · exact hi.skip rfl (UartEntry.seenBy_status hv) rfl rfl
  · simp only [ne_eq, not_or, not_not] at hv
    obtain ⟨r, status⟩ := v
    obtain ⟨rfl, rfl⟩ : r = .ok ∧ given = some transport := hv
    obtain ⟨_, ⟨⟩, hstatus⟩ := hshown rfl
    refine hi.input rfl (if_pos rfl) rfl rfl fun s hlive hs => ⟨?_, hs⟩
    unfold sessionStatusLocked at hstatus
    split_ifs at hstatus
    · cases hstatus
    · cases hstatus
      simp [SessionEvent.input, Subscriber.step, hs.rxCount_eq, hs.dropped]

theorem FanOut.sessionRead {v : UartResult × List Byte}
    (runs : (targetUartSessionRead given session capacity output).Runs
      (UartWorld.exec t) v w w') :
    FanOut transport w' (⟨t, .sessionRead given session capacity output, v, w⟩ :: log) := by
  obtain ⟨rfl, hv⟩ | ⟨reader, rfl, hr, hbytes, rfl⟩ := runs_sessionRead runs
  · exact hi.skip rfl (UartEntry.seenBy_read (.inl hv)) rfl rfl
  · obtain ⟨r, bytes⟩ := v
    obtain heq | ⟨-, heq⟩ := sessionReadLocked_cases w.uart reader session capacity
    · rw [heq] at hr ⊢
      obtain rfl : r = .staleSession := hr
      exact hi.skip rfl (UartEntry.seenBy_read (.inl (by simp))) rfl rfl
    · rw [heq] at hr hbytes ⊢
      obtain ⟨rfl, rfl⟩ : r = .ok ∧ bytes = _ := ⟨hr, hbytes⟩
      by_cases hreader : reader = transport
      · subst hreader
        have hsession := setSlot_session w.uart reader
          (readSlot capacity (w.uart.slots reader)).2 rfl reader
        refine hi.input rfl (if_pos rfl) hsession rfl fun s hlive hs => ?_
        obtain ⟨hread, hrest⟩ := hs.read capacity
        refine ⟨congrArg _ hread, ?_⟩
        simp only [TargetUart.setSlot, update_self]
        exact hrest
      · refine hi.skip rfl (UartEntry.seenBy_read (.inr (by simpa using hreader))) ?_ rfl
        simp [TargetUart.setSlot, update_of_ne (Ne.symm hreader)]

theorem FanOut.call {c : UartCall} {v : c.Value} (kind : c.fansOut = true)
    (runs : c.code.Runs (UartWorld.exec t) v w w') : FanOut transport w' (⟨t, c, v, w⟩ :: log) := by
  cases c with
  | publishRx data => exact hi.publishRx runs
  | sessionOpen given authenticated output => exact hi.sessionOpen runs
  | sessionClose given session => exact hi.sessionClose runs
  | sessionGetStatus given session output => exact hi.sessionGetStatus runs
  | sessionRead given session capacity output => exact hi.sessionRead runs
  | _ => cases kind

end

theorem UartSequence.fanOut {w₀ : UartWorld T} (hstart : w₀.Started)
    (hrun : UartSequence w₀ log w) (transport : UartTransport) : FanOut transport w log := by
  induction hrun with
  | start =>
    intro hlive
    rw [hstart.vacant] at hlive
    exact absurd rfl hlive
  | call _ kind runs ih => exact ih.call kind runs

end Invariant

section Accounting

/-- A session has read and has waiting what was accepted for it, and has lost the rest. -/
theorem Subscriber.run_accounts (inputs : List SessionInput) :
    bytesRead (Subscriber.run inputs).1 ++ (Subscriber.run inputs).2.buffered =
      acceptedBytes (Subscriber.run inputs).1 ∧
    (Subscriber.run inputs).2.lost = lostBytes (Subscriber.run inputs).1 := by
  induction inputs with
  | nil => exact ⟨rfl, rfl⟩
  | cons input inputs ih =>
    cases input with
    | publish data =>
      simp only [Subscriber.run, Subscriber.step, Subscriber.publish, bytesRead, acceptedBytes,
        lostBytes]
      rw [← ih.1, ih.2, List.append_assoc]
      exact ⟨rfl, rfl⟩
    | read capacity =>
      simp only [Subscriber.run, Subscriber.step, Subscriber.read, bytesRead, acceptedBytes,
        lostBytes]
      rw [List.append_assoc, List.take_append_drop]
      exact ih
    | status => exact ih

end Accounting

/-- After any sequence of these calls, what a live session has read and has waiting is what was
accepted for it since it was opened, and its counter shows the number of lost bytes up to its
largest value. In any two such sequences, two live sessions that were given the same bytes and
have made the same calls since they were opened have read the same bytes, were shown the same
counters and have the same bytes waiting, whatever the other transport has done. -/
theorem uart_fan_out {w₀ w : UartWorld T} (hstart : w₀.Started) {log : List (UartEntry T)}
    (hrun : UartSequence w₀ log w) {transport : UartTransport}
    (hlive : (w.uart.slots transport).session ≠ 0) :
    (bytesRead (sessionLog transport log) ++ (w.uart.slots transport).buffered =
        acceptedBytes (sessionLog transport log) ∧
      (w.uart.slots transport).buffered.length = (w.uart.slots transport).rxCount) ∧
    (w.uart.slots transport).rxDroppedBytes.toNat =
      min (2 ^ 32 - 1) (lostBytes (sessionLog transport log)) ∧
    ∀ (w₀' w' : UartWorld T) (log' : List (UartEntry T)) (transport' : UartTransport),
      w₀'.Started → UartSequence w₀' log' w' → (w'.uart.slots transport').session ≠ 0 →
      (sessionLog transport log).map SessionEvent.input =
        (sessionLog transport' log').map SessionEvent.input →
      sessionLog transport log = sessionLog transport' log' ∧
        (w.uart.slots transport).buffered = (w'.uart.slots transport').buffered ∧
        (w.uart.slots transport).rxDroppedBytes = (w'.uart.slots transport').rxDroppedBytes := by
  obtain ⟨-, hslot, hlog⟩ := hrun.fanOut hstart transport hlive
  have haccounts := Subscriber.run_accounts ((sessionLog transport log).map SessionEvent.input)
  rw [← hlog] at haccounts
  refine ⟨⟨?_, ?_⟩, ?_, ?_⟩
  · rw [hslot.buffered]
    exact haccounts.1
  · rw [SessionSlot.buffered, Buffer.length_ring _ hslot.count]
  · rw [hslot.dropped, Subscriber.dropped, haccounts.2]
  · intro w₀' w' log' transport' hstart' hrun' hlive' hinputs
    obtain ⟨-, hslot', hlog'⟩ := hrun'.fanOut hstart' transport' hlive'
    rw [← hinputs] at hslot' hlog'
    refine ⟨hlog.trans hlog'.symm, hslot.buffered.trans hslot'.buffered.symm, ?_⟩
    exact BitVec.eq_of_toNat_eq (hslot.dropped.trans hslot'.dropped.symm)

/-- A UART with a USB session. -/
def openedUart : UartWorld Unit where
  uart := (sessionOpenLocked (freshUart : UartWorld Unit).uart .usb).2.2
  txHolder := none

/-- The same with three bytes received. -/
def receivedUart : UartWorld Unit where
  uart := publishRxLocked openedUart.uart [1, 2, 3]
  txHolder := none

theorem received_fan_out : ∃ log, UartSequence freshUart log receivedUart ∧
    (receivedUart.uart.slots .usb).session ≠ 0 ∧
      (receivedUart.uart.slots .usb).buffered = [1, 2, 3] ∧
      (receivedUart.uart.slots .usb).rxDroppedBytes.toNat = 0 := by
  have hopen : (targetUartSessionOpen (some .usb) false true).Runs (UartWorld.exec ()) (.ok, 1)
      freshUart openedUart := .act ⟨rfl, rfl⟩ (.act (.inr ⟨rfl, rfl⟩) .ret)
  have hpublish : (targetUartPublishRx (some [1, 2, 3])).Runs (UartWorld.exec ()) ()
      openedUart receivedUart := .act ⟨rfl, rfl⟩ (.act (.inr ⟨rfl, rfl⟩) .ret)
  have hrun := (UartSequence.start.call (c := .sessionOpen (some .usb) false true) rfl hopen).call
    (c := .publishRx (some [1, 2, 3])) rfl hpublish
  have hlive : (receivedUart.uart.slots .usb).session ≠ 0 := by
    simp [receivedUart, publishRxLocked, publishSlot_session, openedUart, freshUart,
      sessionOpenLocked, drawSession, TargetUart.setSlot, SessionSlot.zero]
  have hspace : uartSubscriberBufferSize - (openedUart.uart.slots .usb).rxCount = 512 := by
    simp [openedUart, freshUart, sessionOpenLocked, TargetUart.setSlot, SessionSlot.zero,
      uartSubscriberBufferSize]
  have hlog : sessionLog .usb [⟨(), .publishRx (some [1, 2, 3]), (), openedUart⟩,
      ⟨(), .sessionOpen (some .usb) false true, (.ok, 1), freshUart⟩] =
      [.published [1, 2, 3] 512] := by
    simp [sessionLog, UartEntry.opens, UartEntry.seenBy, hspace]
  obtain ⟨⟨hread, -⟩, hdropped, -⟩ := uart_fan_out freshUart_started hrun hlive
  rw [hlog] at hread hdropped
  -- for any list, so that the ring of the device is not evaluated
  have hwaiting (waiting : List Byte) (h : bytesRead [.published [1, 2, 3] 512] ++ waiting =
      acceptedBytes [.published [1, 2, 3] 512]) : waiting = [1, 2, 3] := by
    simpa [bytesRead, acceptedBytes] using h
  exact ⟨_, hrun, hlive, hwaiting _ hread, by simpa [lostBytes] using hdropped⟩

end AirDap

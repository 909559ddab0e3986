import AirDap.Frame.Codec

/-! The URBs of a USB/IP session of the host tools, and the state that its tasks share under one
lock: the URBs that wait for an answer, the bytes that wait for an URB and the packets that
leave. -/
namespace AirDap

/-- `LIMIT`. -/
def usbLimit : ℕ := 65536

/-- `DEVICE`. -/
def usbDevice : Word := 0x10001

/-- `STALL`. -/
def usbStall : ℤ := -32

inductive UrbDirection where
  | output | input
  deriving DecidableEq, Repr

/-- `Urb`; `arc` tells two allocations apart. The flag `active` is kept in the session, since it
is shared by all the references to one allocation. -/
structure Urb where
  arc : ℕ
  command : Word
  seq : Word
  direction : UrbDirection
  ep : Word
  flags : Word
  size : ℕ
  setup : List Byte
  data : List Byte
  deriving DecidableEq, Repr

/-- `Urb::parse`, for the forty-eight bytes of a header. -/
def Urb.parse (h : List Byte) : Option Urb :=
  let command := readU32Be h 0
  let direction := readU32Be h 12
  let ep := readU32Be h 16
  let size := (readU32Be h 24).toNat
  let packets := readU32Be h 32
  if readU32Be h 8 ≠ usbDevice ∨ ¬ direction ≤ 1 then none
  else if command ≠ 1 ∧ command ≠ 2 then none
  else if command = 2 ∧ ep ≠ 0 then none
  else if command = 1 ∧ ¬ (size ≤ usbLimit ∧ (packets = 0 ∨ packets = 0xffffffff)) then none
  else some ⟨0, command, readU32Be h 4, if direction = 1 then .input else .output, ep,
    readU32Be h 20, size, (h.drop 40).take 8, []⟩

/-- The URB of a SUBMIT with the data that follow its header, as an allocation. -/
def Urb.allocate (urb : Urb) (arc : ℕ) (data : List Byte) : Urb :=
  { urb with arc := arc, data := if urb.direction = .output then data else [] }

/-- The fields of a RET_SUBMIT or RET_UNLINK that are not zero, and the bytes behind them. -/
structure UsbPacket where
  command : Word
  seq : Word
  status : ℤ
  actualLength : Word
  data : List Byte
  deriving DecidableEq, Repr

/-- A packet that was put in the channel to the peer, with the URB that it is about. -/
inductive SentPacket where
  | submit (urb : Urb) (packet : UsbPacket)
  | unlink (target : Option Urb) (packet : UsbPacket)
  deriving DecidableEq, Repr

/-- `State`. The channel has `room` for that many packets, and `sent` is all that was put in it
so far; `space` is the permit of the notification of that name. -/
structure UsbState where
  pending : List Urb
  responses : List (List Byte)
  notification : List Byte
  coding : List Byte
  lineState : BitVec 16
  configuration : Byte
  room : ℕ
  sent : List SentPacket
  space : Bool
  deriving DecidableEq, Repr

namespace UsbState

variable (s : UsbState)

def firstInput (ep : Word) : Option Urb :=
  s.pending.find? fun urb => urb.ep = ep ∧ urb.direction = .input

def present (urb : Urb) : Bool := s.pending.any fun other => other.arc = urb.arc

/-- `send`, and whether it succeeds. -/
def send (packet : SentPacket) : UsbState × Bool :=
  if 0 < s.room then ({ s with room := s.room - 1, sent := s.sent ++ [packet] }, true)
  else (s, false)

/-- The packet that `complete` builds. -/
def retSubmit (urb : Urb) (data : List Byte) (status : ℤ) : UsbPacket where
  command := 3
  seq := urb.seq
  status := status
  actualLength := BitVec.ofNat 32 <|
    if status ≠ 0 then 0 else if urb.direction = .input then data.length else urb.size
  data := if status = 0 ∧ urb.direction = .input then data else []

/-- The URB is not pending any more. -/
def remove (urb : Urb) : UsbState :=
  { s with pending := s.pending.eraseP fun other => other.arc = urb.arc }

def complete (urb : Urb) (data : List Byte) (status : ℤ) : UsbState × Bool :=
  if s.present urb then (s.remove urb).send (.submit urb (retSubmit urb data status))
  else (s, true)

/-- One round of the loop in `flush`: the first response goes to the URB as far as it fits, and
its rest stays the first response. -/
def deliver (urb : Urb) (response : List Byte) (rest : List (List Byte)) : UsbState × Bool :=
  let size := min response.length urb.size
  let (s, ok) := { s with responses := rest }.complete urb (response.take size) 0
  if !ok then (s, false)
  else if response.drop size = [] then (s, true)
  else ({ s with responses := response.drop size :: s.responses }, true)

/-- The loop in `flush`; each round takes an URB, so that it ends after at most as many rounds
as there are pending URBs. -/
def deliverAll : ℕ → UsbState → UsbState × Bool
  | 0, s => (s, true)
  | rounds + 1, s =>
    match s.responses, s.firstInput 1 with
    | response :: rest, some urb =>
      let (s, ok) := s.deliver urb response rest
      if ok then deliverAll rounds s else (s, false)
    | _, _ => (s, true)

/-- The end of `flush`: the notification goes to one URB as far as it fits. -/
def notify : UsbState × Bool :=
  match s.firstInput 2 with
  | some urb =>
    if s.notification = [] then (s, true)
    else
      let size := min urb.size s.notification.length
      { s with notification := s.notification.drop size }.complete urb (s.notification.take size) 0
  | none => (s, true)

/-- `flush`. -/
def flush : UsbState × Bool :=
  let (s, ok) := deliverAll s.pending.length s
  if !ok then (s, false)
  else notify (if s.responses.length < 4 then { s with space := true } else s)

/-- The answer to an UNLINK. -/
def retUnlink (urb : Urb) (target : Option Urb) : UsbPacket :=
  ⟨4, urb.seq, if target.isSome then -104 else 0, 0, []⟩

/-- The pending URB that an UNLINK is about. -/
def unlinkTarget (urb : Urb) : Option Urb :=
  s.pending.find? fun other => other.seq = urb.flags

/-- The section of `receive` for an UNLINK, up to its answer. -/
def unlink (urb : Urb) : UsbState × Bool :=
  { s with pending := s.pending.eraseP fun other => other.seq = urb.flags }.send
    (.unlink (s.unlinkTarget urb) (retUnlink urb (s.unlinkTarget urb)))

/-- The state that `session` starts with. -/
def start : UsbState where
  pending := []
  responses := []
  notification := []
  coding := [0, 0xc2, 1, 0, 0, 0, 8]
  lineState := 0
  configuration := 0
  room := 128
  sent := []
  space := false

variable {s}

theorem firstInput_spec {ep : Word} {urb : Urb} (h : s.firstInput ep = some urb) :
    urb ∈ s.pending ∧ urb.ep = ep ∧ urb.direction = .input := by
  have hp := List.find?_some h
  simp only [decide_eq_true_eq] at hp
  exact ⟨List.mem_of_find?_eq_some h, hp⟩

theorem present_iff {urb : Urb} :
    s.present urb = true ↔ ∃ other ∈ s.pending, other.arc = urb.arc := by
  simp [present]

theorem present_of_firstInput {ep : Word} {urb : Urb} (h : s.firstInput ep = some urb) :
    s.present urb = true :=
  present_iff.mpr ⟨urb, (firstInput_spec h).1, rfl⟩

theorem send_cases (s : UsbState) (packet : SentPacket) :
    (s.send packet = ({ s with room := s.room - 1, sent := s.sent ++ [packet] }, true)) ∨
      s.send packet = (s, false) := by
  unfold send
  split_ifs
  · exact .inl rfl
  · exact .inr rfl

/-- What `complete` does: nothing, the URB leaves with a packet, or it leaves and the packet does
not fit in the channel. -/
theorem complete_cases (s : UsbState) (urb : Urb) (data : List Byte) (status : ℤ) :
    (s.present urb = false ∧ s.complete urb data status = (s, true)) ∨
    (s.present urb = true ∧ s.complete urb data status =
      ({ s.remove urb with
          room := s.room - 1
          sent := s.sent ++ [.submit urb (retSubmit urb data status)] }, true)) ∨
    (s.present urb = true ∧ s.complete urb data status = (s.remove urb, false)) := by
  unfold complete
  cases hpresent : s.present urb with
  | false => exact .inl ⟨rfl, rfl⟩
  | true =>
    rcases send_cases (s.remove urb) (.submit urb (retSubmit urb data status)) with h | h
    · exact .inr (.inl ⟨rfl, h⟩)
    · exact .inr (.inr ⟨rfl, h⟩)

theorem complete_frame (s : UsbState) (urb : Urb) (data : List Byte) (status : ℤ) :
    (s.complete urb data status).1.responses = s.responses ∧
      (s.complete urb data status).1.notification = s.notification ∧
      (s.complete urb data status).1.coding = s.coding ∧
      (s.complete urb data status).1.lineState = s.lineState := by
  rcases complete_cases s urb data status with ⟨-, h⟩ | ⟨-, h⟩ | ⟨-, h⟩ <;>
  · rw [h]
    exact ⟨rfl, rfl, rfl, rfl⟩

theorem unlink_cases (s : UsbState) (urb : Urb) :
    (s.unlink urb = ({ s with
      pending := s.pending.eraseP fun other => other.seq = urb.flags
      room := s.room - 1
      sent := s.sent ++ [.unlink (s.unlinkTarget urb) (retUnlink urb (s.unlinkTarget urb))] },
        true)) ∨
    s.unlink urb = ({ s with
      pending := s.pending.eraseP fun other => other.seq = urb.flags }, false) :=
  send_cases _ _

/-- A round that succeeds: the URB is completed, and what does not fit stays. -/
theorem deliver_cases {t : UsbState} {urb : Urb} {response : List Byte} {rest : List (List Byte)}
    (h : s.deliver urb response rest = (t, true)) :
    ∃ u, { s with responses := rest }.complete urb
        (response.take (min response.length urb.size)) 0 = (u, true) ∧
      t.pending = u.pending ∧ t.sent = u.sent ∧ t.notification = u.notification ∧
      t.responses.flatten = response.drop (min response.length urb.size) ++ rest.flatten := by
  unfold deliver at h
  dsimp only at h
  cases hcomplete : { s with responses := rest }.complete urb
      (response.take (min response.length urb.size)) 0 with
  | mk u ok =>
    rw [hcomplete] at h
    have hrest : u.responses = rest := by
      have hframe := (complete_frame { s with responses := rest } urb
        (response.take (min response.length urb.size)) 0).1
      rw [hcomplete] at hframe
      exact hframe
    refine ⟨u, ?_⟩
    cases ok with
    | false => cases h
    | true =>
      simp only [Bool.not_true, Bool.false_eq_true, if_false] at h
      split_ifs at h with hdrop <;> rw [Prod.mk.injEq] at h <;> obtain ⟨rfl, -⟩ := h
      · exact ⟨rfl, rfl, rfl, rfl, by rw [hdrop, hrest]; rfl⟩
      · exact ⟨rfl, rfl, rfl, rfl, by rw [List.flatten_cons, hrest]⟩

section Induction

variable {P : UsbState → Bool → Prop}

section

variable (hdeliver : ∀ s urb response rest, P s true → s.responses = response :: rest →
  s.firstInput 1 = some urb → P (s.deliver urb response rest).1 (s.deliver urb response rest).2)
include hdeliver

theorem deliverAll_induct
    (rounds : ℕ) (h : P s true) :
    P (deliverAll rounds s).1 (deliverAll rounds s).2 := by
  induction rounds generalizing s with
  | zero => exact h
  | succ rounds ih =>
    unfold deliverAll
    split
    next response rest urb hresponses hurb =>
      have hnext := hdeliver s urb response rest h hresponses hurb
      cases hok : (s.deliver urb response rest).2 with
      | false =>
        rw [hok] at hnext
        simpa [hok] using hnext
      | true =>
        rw [hok] at hnext
        simpa [hok] using ih hnext
    next => exact h

/-- What the rounds of `flush` keep, each of them with its result, `flush` keeps. -/
theorem flush_induct
    (hspace : ∀ s, P s true → P { s with space := true } true)
    (hnotify : ∀ s urb, P s true → s.firstInput 2 = some urb → s.notification ≠ [] →
      P ({ s with
          notification := s.notification.drop (min urb.size s.notification.length) }.complete
          urb (s.notification.take (min urb.size s.notification.length)) 0).1
        ({ s with
          notification := s.notification.drop (min urb.size s.notification.length) }.complete
          urb (s.notification.take (min urb.size s.notification.length)) 0).2)
    (h : P s true) : P s.flush.1 s.flush.2 := by
  have hnotify' : ∀ s, P s true → P s.notify.1 s.notify.2 := by
    intro s hs
    unfold notify
    split
    next urb hurb =>
      split_ifs with hempty
      · exact hs
      · exact hnotify s urb hs hurb hempty
    next => exact hs
  have hall := deliverAll_induct hdeliver s.pending.length h
  unfold flush
  cases hok : (deliverAll s.pending.length s).2 with
  | false =>
    rw [hok] at hall
    simpa [hok] using hall
  | true =>
    rw [hok] at hall
    simp only [hok, Bool.not_true, Bool.false_eq_true, if_false]
    split_ifs
    · exact hnotify' _ (hspace _ hall)
    · exact hnotify' _ hall

end

end Induction

end UsbState

end AirDap

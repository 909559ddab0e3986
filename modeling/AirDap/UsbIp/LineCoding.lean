import AirDap.UsbIp.Completion
import AirDap.Uart.Machine

/-! The line coding of the virtual serial port, and what the device gets of it. -/
namespace AirDap

/-- The settings of a line as the device gets them. -/
structure LineSettings where
  baudRate : Word
  stopBits : Byte
  parity : Byte
  dataBits : Byte
  deriving DecidableEq, Repr

/-- A request that `airdap_network_uart_dispatch` passes on to the UART. -/
inductive UartRequest where
  | status
  | acquireTx
  | configure (settings : LineSettings)
  | write (data : List Byte)
  | read (capacity : ℕ)
  deriving DecidableEq, Repr

/-- `AIRDAP_NETWORK_UART_MAX_DATA`. -/
def networkUartMaxData : ℕ := 256

/-- The switch of `airdap_network_uart_dispatch`: what a request asks for, or the error it is
refused with. -/
def networkUartRequest (request : List Byte) : Except FrameError UartRequest :=
  if request = [] then .error .invalidArgument
  else if byteAt request 0 = 0x10 then
    if request.length ≠ 1 then .error .invalidArgument else .ok .status
  else if byteAt request 0 = 0x11 then
    if request.length ≠ 1 then .error .invalidArgument else .ok .acquireTx
  else if byteAt request 0 = 0x12 then
    if request.length ≠ 8 then .error .invalidArgument
    else .ok (.configure
      ⟨readU32Be request 1, byteAt request 5, byteAt request 6, byteAt request 7⟩)
  else if byteAt request 0 = 0x13 then
    if request.length < 2 ∨ request.length > 1 + networkUartMaxData then .error .invalidArgument
    else .ok (.write (request.drop 1))
  else if byteAt request 0 = 0x14 then
    if request.length ≠ 3 then .error .invalidArgument
    else
      let capacity := (readU16Be request 1).toNat
      if capacity = 0 ∨ capacity > networkUartMaxData then .error .invalidArgument
      else .ok (.read capacity)
  else .error .unsupportedType

namespace UsbSession

section Match

variable {d : Descriptors} {x : UsbSession} {urb : Urb}

theorem standardRequest_ne_coding {kind request size : ℕ} {value index : BitVec 16}
    {coding : List Byte} :
    standardRequest d x kind request value index size ≠ some (.coding coding) := by
  intro h
  unfold standardRequest at h
  dsimp only at h
  repeat' split at h
  all_goals cases h

theorem controlMatch_coding {kind request size : ℕ} {value index : BitVec 16} {coding : List Byte}
    (h : controlMatch d x kind request value index size urb = .coding coding) :
    kind = 0x21 ∧ size = 7 ∧ coding = urb.data := by
  unfold controlMatch at h
  cases hstandard : standardRequest d x kind request value index size with
  | some start =>
    rw [hstandard, Option.getD_some] at h
    exact absurd (h ▸ hstandard) standardRequest_ne_coding
  | none =>
    rw [hstandard, Option.getD_none] at h
    unfold serialRequest at h
    dsimp only at h
    split_ifs at h with hget hset
    cases h
    exact ⟨hset.1, hset.2.2.2.2, rfl⟩

theorem controlStart_coding {coding : List Byte} (h : controlStart d x urb = .coding coding) :
    coding.length = 7 := by
  unfold controlStart at h
  dsimp only at h
  split_ifs at h with hmismatch
  obtain ⟨hkind, hsize, rfl⟩ := controlMatch_coding h
  push Not at hmismatch
  have hinput : urb.direction ≠ .input := by
    intro hinput
    have hnot : ¬ 128 ≤ (byteAt urb.setup 0).toNat := by omega
    exact absurd hmismatch.1 (by simp [hinput, hnot])
  have houtput : urb.direction = .output := by
    cases hdirection : urb.direction with
    | output => rfl
    | input => exact absurd hdirection hinput
  rw [← hmismatch.2.2 houtput, hsize]

end Match

end UsbSession

namespace UsbSession

variable {d : Descriptors} {x : UsbSession} {worker : UsbWorker} {place : WorkerPlace} {urb : Urb}

/-- DTR is set. -/
def Dtr (x : UsbSession) : Prop := x.state.lineState &&& 1 ≠ 0

/-- The last configuration that was sent is that of a line coding. -/
def Last (x : UsbSession) (coding : List Byte) : Prop :=
  x.configured.getLast? = some (configureData coding)

/-- What the last configuration is, at each place of the worker of endpoint 0. -/
def LineAt (x : UsbSession) : WorkerPlace → Prop
  | .configuring _ coding .coding => coding.length = 7
  | .configuring _ coding (.lineState _) => coding = x.state.coding
  | .storing _ coding => coding.length = 7 ∧ (x.Dtr → x.Last coding)
  | .raising _ value => value &&& 1 ≠ 0 → x.Last x.state.coding
  | .stopped => True
  | _ => x.Dtr → x.Last x.state.coding

/-- The invariant of the line. -/
def LineOk (x : UsbSession) : Prop := x.state.coding.length = 7 ∧ x.LineAt (x.places .control)

theorem LineOk.of_same {y : UsbSession} (h : x.LineOk) (hsame : SameLine x y) : y.LineOk := by
  obtain ⟨hplace, hcoding, hline, hconfigured⟩ := hsame
  have hat : ∀ place, x.LineAt place → y.LineAt place := by
    intro place
    have hdtr : y.Dtr ↔ x.Dtr := by rw [Dtr, Dtr, hline]
    have hlast : ∀ coding, y.Last coding ↔ x.Last coding := by
      intro coding
      rw [Last, Last, hconfigured]
    cases place with
    | configuring urb coding after => cases after <;> simp [LineAt, hcoding]
    | _ => simp [LineAt, hdtr, hlast, hcoding]
  exact ⟨hcoding ▸ h.1, hplace ▸ hat _ h.2⟩

@[simp] theorem places_enter (x : UsbSession) (worker : UsbWorker) (place : WorkerPlace) :
    (x.enter worker place).places worker = place := by
  simp only [enter, Function.update_self]

theorem LineOk.enter (h : x.LineOk) (hplace : x.LineAt place) :
    (x.enter .control place).LineOk := by
  refine ⟨h.1, ?_⟩
  rw [places_enter]
  cases place with
  | configuring urb coding after => cases after <;> exact hplace
  | _ => exact hplace

theorem LineOk.stop (h : x.LineOk) : (x.stop .control).LineOk := by
  refine ⟨h.1, ?_⟩
  have hplace : (x.stop .control).places .control = .stopped :=
    places_enter x .control .stopped
  rw [hplace]
  trivial

/-- A section of the worker of endpoint 0 that ends with an answer to its URB, or fails. -/
theorem LineOk.locked {result : UsbState × Bool} (hlength : result.1.coding.length = 7)
    (hlast : result.1.lineState &&& 1 ≠ 0 → x.Last result.1.coding)
    (hplace : place = .idle ∨ ∃ urb data status, place = .finishing urb data status) :
    (x.locked .control result place).LineOk := by
  unfold UsbSession.locked
  split_ifs
  · refine ⟨hlength, ?_⟩
    have hentered : ({ x.enter .control place with state := result.1 }).places .control = place :=
      places_enter x .control place
    rw [hentered]
    rcases hplace with rfl | ⟨urb, data, status, rfl⟩ <;> exact hlast
  · refine ⟨hlength, ?_⟩
    have hstopped : ({ x.stop .control with state := result.1 }).places .control = .stopped :=
      places_enter x .control .stopped
    rw [hstopped]
    trivial

theorem replyPlace_finishing (urb : Urb) (data : Option (List Byte)) :
    ∃ bytes status, replyPlace urb data = .finishing urb bytes status := by
  cases data with
  | none => exact ⟨_, _, rfl⟩
  | some data => exact ⟨_, _, rfl⟩

theorem LineOk.reply (h : x.LineOk) (hlast : x.Dtr → x.Last x.state.coding)
    (urb : Urb) (data : Option (List Byte)) : (x.enter .control (replyPlace urb data)).LineOk := by
  obtain ⟨bytes, status, hplace⟩ := replyPlace_finishing urb data
  rw [hplace]
  exact h.enter hlast

theorem LineOk.startControl (h : x.LineOk) (hplace : x.places .control = .started urb) :
    (startControl d x urb).LineOk := by
  have hlast : x.Dtr → x.Last x.state.coding := by
    have hat := h.2
    rw [hplace] at hat
    exact hat
  unfold UsbSession.startControl
  split
  next data _ => exact h.reply hlast urb data
  next value _ =>
    split_ifs
    · exact h.stop
    · exact LineOk.locked h.1 hlast (.inr ⟨urb, _, _, rfl⟩)
  next coding hstart =>
    have hlength := controlStart_coding hstart
    split_ifs with hdtr
    · exact h.enter hlength
    · exact h.enter ⟨hlength, fun hset => absurd hset hdtr⟩
  next value _ =>
    split_ifs with hrise
    · exact h.enter rfl
    · refine h.enter fun hvalue => hlast fun hclear => hrise ⟨hvalue, hclear⟩

theorem LineOk.work_control (h : x.LineOk) (hx : x.Sound) (answer : BackendAnswer) :
    (work d x .control answer).LineOk := by
  have hok := hx.places .control
  have hat := h.2
  have hne : ∀ {other : UsbWorker} {p : Prop}, UsbWorker.control = other → other ≠ .control → p :=
    fun heq hne => absurd heq.symm hne
  unfold work
  cases hplace : x.places .control with
  | idle =>
    rw [hplace] at hat
    dsimp only
    split
    next => exact h
    next urb rest _ =>
      have hentered : (x.enter .control (.taken urb)).LineOk := h.enter hat
      exact hentered.of_same ⟨rfl, rfl, rfl, rfl⟩
  | taken urb =>
    rw [hplace] at hat
    dsimp only
    split_ifs
    · have hentered : (x.enter .control (.started urb)).LineOk := h.enter hat
      exact hentered.of_same ⟨rfl, rfl, rfl, rfl⟩
    · exact h.enter hat
  | started urb => exact h.startControl hplace
  | configuring urb coding after =>
    rw [hplace] at hat
    cases answer with
    | failed => exact h.stop
    | ok bytes =>
      have hlast : ({ x.enter .control (afterConfigure urb coding after) with
          configured := x.configured ++ [configureData coding] }).Last coding := by
        simp [Last]
      have hentered : ({ x.enter .control (afterConfigure urb coding after) with
          configured := x.configured ++ [configureData coding] }).places .control =
          afterConfigure urb coding after := places_enter x .control _
      refine ⟨h.1, ?_⟩
      dsimp only
      rw [hentered]
      cases after with
      | coding => exact ⟨hat, fun _ => hlast⟩
      | lineState value =>
        have hcoding : coding = x.state.coding := hat
        intro _
        rw [hcoding] at hlast
        rw [hcoding]
        exact hlast
  | storing urb coding =>
    rw [hplace] at hat
    exact LineOk.locked hat.1 hat.2 (.inr ⟨urb, _, _, rfl⟩)
  | raising urb value =>
    rw [hplace] at hat
    obtain ⟨hcoding, hline⟩ := UsbState.sameLine_flush
      { x.state with lineState := value, notification := serialState }
    refine LineOk.locked ?_ ?_ (.inr ⟨urb, _, _, rfl⟩)
    · rw [hcoding]
      exact h.1
    · rw [hcoding, hline]
      exact hat
  | spacing urb => rw [hplace] at hok; exact hne hok.2 (by decide)
  | waiting urb => rw [hplace] at hok; exact hne hok.2 (by decide)
  | rechecking urb => rw [hplace] at hok; exact hne hok.2 (by decide)
  | requesting urb => rw [hplace] at hok; exact hne hok.2 (by decide)
  | answered urb response => rw [hplace] at hok; exact hne hok.2 (by decide)
  | writing urb => rw [hplace] at hok; exact hne hok.2 (by decide)
  | finishing urb data status =>
    rw [hplace] at hat
    obtain ⟨hcoding, hline⟩ := x.state.sameLine_complete urb data status
    refine LineOk.locked ?_ ?_ (.inl rfl)
    · rw [hcoding]
      exact h.1
    · rw [hcoding, hline]
      exact hat
  | stopped => exact h

theorem LineOk.step (h : x.LineOk) (hx : x.Sound) (action : UsbAction) :
    (step d x action).LineOk := by
  by_cases hcontrol : ∃ answer, action = .work .control answer
  · obtain ⟨answer, rfl⟩ := hcontrol
    exact h.work_control hx answer
  · exact h.of_same ((hx.step action).line fun answer heq => hcontrol ⟨answer, heq⟩)

end UsbSession

end AirDap

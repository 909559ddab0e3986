import AirDap.Swd.Lengths

/-! The engine with the drivers of its pins and of the SPI bus: an engine that is marked as
initialized has a device on the bus. -/
namespace AirDap
open Concurrency Prog Function

namespace Swd

inductive SwjPin where
  | swclk | swdio
  deriving DecidableEq

/-- A call of a driver. An SPI device is known by its handle. A free of the bus gives the bus up to
drive the pins by hand, or cleans up after a failure. -/
inductive DriverCall where
  | wire (c : WireCall)
  | busInitialize
  | busFree (cleanUp : Bool)
  | addDevice (clockHz : Word)
  | removeDevice (device : Option ℕ)
  | setLevel (pin : SwjPin) (level : Bool)
  | configurePins
  | resetPin (pin : SwjPin)
  | getLevel (pin : SwjPin)
  | delayUs (delay : Word)

/-- No code stands for ESP_OK. Results that are not used are left out. -/
@[reducible] def DriverCall.Answer : DriverCall → Type
  | .wire c => c.Answer
  | .busInitialize | .busFree _ | .removeDevice _ | .configurePins => Option Word
  | .addDevice _ => Except Word ℕ
  | .getLevel _ => Bool
  | .setLevel _ _ | .resetPin _ | .delayUs _ => Unit

abbrev DriverCode (α : Type) := Prog DriverCall DriverCall.Answer α

def driver (c : DriverCall) : DriverCode c.Answer := .act c .ret

def embed {α : Type} : SwdCode α → DriverCode α
  | .ret v => .ret v
  | .act c k => .act (.wire c) fun r => embed (k r)
  | .spent => .spent

/-- `swd_engine_t`. -/
structure SwdState where
  engine : Engine
  spi : Option ℕ
  clockHz : Word
  manualPinValues : Byte

def clockIsValid (clockHz : Word) : Bool := 100000 ≤ clockHz && clockHz ≤ 10000000

def setDirection (enabled : Bool) (st : SwdState) : DriverCode (SwdError × SwdState) := do
  let (error, engine) ← embed (setHostOutput enabled st.engine)
  pure (error, { st with engine })

variable (clockHz : Word) (st : SwdState)

def addSpiDevice : DriverCode (SwdError × SwdState) := do
  match ← driver (.addDevice clockHz) with
  | .ok device => pure (.ok, { st with spi := some device })
  | .error code => pure (.driver code, st)

def initializeSpiBus : DriverCode (SwdError × SwdState) := do
  match ← driver .busInitialize with
  | some code => pure (.driver code, st)
  | none => do
    let (error, st) ← addSpiDevice clockHz st
    if error ≠ .ok then do
      let _ ← driver (.busFree true)
      pure (error, st)
    else pure (.ok, st)

/-- The second attempt of `airdap_swd_set_clock`, with the clock before it. -/
def restoreDevice (error : SwdError) (st : SwdState) : DriverCode (SwdError × SwdState) := do
  let (restoreError, st) ← addSpiDevice st.clockHz st
  if restoreError ≠ .ok then do
    let _ ← driver (.busFree true)
    pure (error, { st with engine.initialized := false })
  else pure (error, st)

def setClock : DriverCode (SwdError × SwdState) :=
  if !clockIsValid clockHz then pure (.invalidArg, st)
  else if !st.engine.initialized then pure (.invalidState, st)
  else if st.clockHz = clockHz then pure (.ok, st)
  else do
    let (error, st) ← setDirection false st
    if error ≠ .ok then pure (error, st)
    else do
      match ← driver (.removeDevice st.spi) with
      | some code => pure (.driver code, st)
      | none => do
        let (error, st) ← addSpiDevice clockHz { st with spi := none }
        if error ≠ .ok then restoreDevice error st else pure (.ok, { st with clockHz })

def init : DriverCode (SwdError × SwdState) :=
  if !clockIsValid clockHz then pure (.invalidArg, st)
  else if st.engine.initialized then setClock clockHz st
  else do
    let (error, st) ← setDirection false st
    if error ≠ .ok then pure (error, st)
    else do
      let (error, st) ← initializeSpiBus clockHz st
      if error ≠ .ok then pure (error, st)
      else pure (.ok, { st with clockHz, engine.initialized := true })

def configureBus (turnaroundCycles : Byte) (dataPhase : Bool) (st : SwdState) :
    SwdError × SwdState :=
  if turnaroundCycles < 1 ∨ turnaroundCycles > 4 then (.invalidArg, st)
  else (.ok, { st with engine := { st.engine with turnaroundCycles, dataPhase } })

def pinSwclk : Byte := 1 <<< 0
def pinSwdio : Byte := 1 <<< 1

/-- The levels of the two pins. -/
def readPins : DriverCode Byte := do
  let swclk ← driver (.getLevel .swclk)
  let swdio ← driver (.getLevel .swdio)
  pure ((if swclk then pinSwclk else 0) ||| if swdio then pinSwdio else 0)

/-- The pins driven by hand, with the bus given up: the error and the levels. -/
def driveByHand (waitUs : Word) (pins : Option Byte) (st : SwdState) :
    DriverCode (SwdError × Option Byte × SwdState) := do
  driver (.setLevel .swclk (hasFlag st.manualPinValues pinSwclk))
  driver (.setLevel .swdio (hasFlag st.manualPinValues pinSwdio))
  let configured ← driver .configurePins
  let (error, st) ← match configured with
    | none => setDirection true st
    | some code => pure (.driver code, st)
  if error ≠ .ok then pure (error, pins, st)
  else do
    if waitUs > 0 then driver (.delayUs (if waitUs > 3000000 then 3000000 else waitUs))
    let levels ← readPins
    pure (.ok, some levels, st)

/-- The bus taken back, whatever came before. -/
def takeBusBack (error : SwdError) (pins : Option Byte) (st : SwdState) :
    DriverCode (SwdError × Option Byte × SwdState) := do
  let (_, st) ← setDirection false st
  driver (.resetPin .swclk)
  driver (.resetPin .swdio)
  let (restoreError, st) ← initializeSpiBus st.clockHz st
  if restoreError ≠ .ok then
    pure (if error = .ok then restoreError else error, pins,
      { st with engine.initialized := false })
  else do
    let (directionError, st) ← setDirection true st
    pure (if error ≠ .ok then error else directionError, pins, st)

/-- `airdap_swd_drive_pins`. A null pointer is no byte. -/
def drivePins (value select : Byte) (waitUs : Word) (pins : Option Byte) (st : SwdState) :
    DriverCode (SwdError × Option Byte × SwdState) :=
  if !st.engine.initialized then pure (.invalidState, pins, st)
  else if pins = none ∨ select &&& ~~~(pinSwclk ||| pinSwdio) ≠ 0 then
    pure (.invalidArg, pins, st)
  else do
    let st := { st with
      manualPinValues := (st.manualPinValues &&& ~~~select) ||| (value &&& select) }
    let (error, st) ← setDirection false st
    if error ≠ .ok then pure (error, pins, st)
    else do
      match ← driver (.removeDevice st.spi) with
      | some code => pure (.driver code, pins, st)
      | none => do
        let st := { st with spi := none }
        match ← driver (.busFree false) with
        | some code => pure (.driver code, pins, st)
        | none => do
          let (error, pins, st) ← driveByHand waitUs pins st
          takeBusBack error pins st

/-- The operations of the engine. -/
inductive EngineCall where
  | init (clockHz : Word)
  | setClock (clockHz : Word)
  | setWaitRetries (waitRetries : Word)
  | configureTransfer (idleCycles : Byte) (waitRetries : Word)
  | configureBus (turnaroundCycles : Byte) (dataPhase : Bool)
  | drivePins (value select : Byte) (waitUs : Word) (pins : Option Byte)
  | line (c : LineCall)

/-- The operation, and the state it leaves. -/
def EngineCall.code (rounds : ℕ) (st : SwdState) : EngineCall → DriverCode SwdState
  | .init clockHz => Prod.snd <$> Swd.init clockHz st
  | .setClock clockHz => Prod.snd <$> Swd.setClock clockHz st
  | .setWaitRetries waitRetries => pure { st with engine.waitRetries := waitRetries }
  | .configureTransfer idleCycles waitRetries =>
    pure { st with engine := { st.engine with idleCycles, waitRetries } }
  | .configureBus turnaroundCycles dataPhase =>
    pure (Swd.configureBus turnaroundCycles dataPhase st).2
  | .drivePins value select waitUs pins => (·.2.2) <$> Swd.drivePins value select waitUs pins st
  | .line c => do
    let engine ← embed (c.code rounds st.engine)
    pure { st with engine }

/-- The clocks of the devices that are attached to the bus, by their handles. -/
abbrev Bus := ℕ → Option Word

/-- What a call does to the bus. Any call may fail, except that the bus can be given up unless
`freeFails`. -/
def busExec (freeFails : Prop) (w : Bus) : (c : DriverCall) → c.Answer → Bus → Prop
  | .addDevice clockHz, .ok device, w' =>
    w device = none ∧ w' = update w device (some clockHz)
  | .removeDevice (some device), none, w' => w' = update w device none
  | .busFree cleanUp, some _, w' => (cleanUp = true ∨ freeFails) ∧ w' = w
  | _, _, w' => w' = w

/-- An engine that is marked as initialized has a device on the bus, with its clock. -/
def SwdState.Usable (st : SwdState) (w : Bus) : Prop :=
  st.engine.initialized = true → ∃ device, st.spi = some device ∧ w device = some st.clockHz

/-- The states between the calls of a run from an engine that is not initialized. -/
inductive EngineRuns (freeFails : Prop) : SwdState → Bus → Prop
  | boot {st : SwdState} {w : Bus} (h : st.engine.initialized = false) :
      EngineRuns freeFails st w
  | call {st st' : SwdState} {w w' : Bus} (call : EngineCall) (rounds : ℕ)
      (h : EngineRuns freeFails st w)
      (hcall : (call.code rounds st).Runs (busExec freeFails) st' w w') :
      EngineRuns freeFails st' w'

section Usable

variable {freeFails : Prop} {st st' : SwdState} {w w' : Bus} {rounds : ℕ}

/-- The parts of the state that concern the bus are the same. -/
structure SameBus (st st' : SwdState) : Prop where
  spi : st'.spi = st.spi
  clockHz : st'.clockHz = st.clockHz
  initialized : st'.engine.initialized = st.engine.initialized

theorem SwdState.Usable.same (h : st.Usable w) (hs : SameBus st st') : st'.Usable w := by
  intro hinit
  rw [hs.spi, hs.clockHz]
  exact h (hs.initialized ▸ hinit)

theorem usable_of_not (h : st.engine.initialized = false) : st.Usable w :=
  fun hinit => absurd (h.symm.trans hinit) (by decide)

theorem busExec_removeDevice {device : Option ℕ} {code : Word}
    (h : busExec freeFails w (.removeDevice device) (some code) w') : w' = w := by
  cases device <;> exact h

theorem setDirection_ensures (enabled : Bool) (st : SwdState) (w : Bus) :
    (setDirection enabled st).Ensures (busExec freeFails)
      (fun r w' => w' = w ∧ SameBus st r.2) w := by
  intro r w' hexec
  cases r <;> exact ⟨hexec, rfl, rfl, rfl⟩

/-- What an attempt to attach a device comes to. -/
def Attached (clockHz : Word) (st : SwdState) (r : SwdError × SwdState) (w : Bus) : Prop :=
  (r.1 = .ok ∧ ∃ device, r.2 = { st with spi := some device } ∧ w device = some clockHz) ∨
    (r.1 ≠ .ok ∧ r.2 = st)

theorem addSpiDevice_ensures (clockHz : Word) (st : SwdState) (w : Bus) :
    (addSpiDevice clockHz st).Ensures (busExec freeFails) (Attached clockHz st) w := by
  intro r w' hexec
  cases r with
  | ok device =>
    obtain ⟨-, rfl⟩ := hexec
    exact .inl ⟨rfl, device, rfl, update_self ..⟩
  | error code => exact .inr ⟨by simp, rfl⟩

theorem initializeSpiBus_ensures (clockHz : Word) (st : SwdState) (w : Bus) :
    (initializeSpiBus clockHz st).Ensures (busExec freeFails) (Attached clockHz st) w := by
  intro r w₁ hexec
  cases r with
  | some code => exact .inr ⟨by simp, rfl⟩
  | none =>
    refine (addSpiDevice_ensures clockHz st w₁).bind fun r w₂ h => ?_
    refine ensures_ite (fun hne _ _ _ => ?_) fun hok => ?_
    · exact .inr ⟨hne, (h.resolve_left fun h => hne h.1).2⟩
    · exact .inl ⟨rfl, (h.resolve_right fun h => hok h.1).2⟩

theorem setClock_ensures (clockHz : Word) (h : st.Usable w) :
    (setClock clockHz st).Ensures (busExec freeFails) (fun r w' => r.2.Usable w') w := by
  refine ensures_guard h fun _ => ensures_guard h fun _ =>
    ensures_guard h fun _ => ?_
  refine (setDirection_ensures false st w).bind fun r w₁ ⟨hw, hs⟩ => ?_
  subst hw
  refine ensures_guard (h.same hs) fun _ removed w₂ hexec => ?_
  cases removed with
  | some code =>
    cases busExec_removeDevice hexec
    exact h.same hs
  | none =>
    refine (addSpiDevice_ensures clockHz _ w₂).bind fun added w₃ hadded => ?_
    refine ensures_ite (fun hne => ?_) fun hok => ?_
    · -- the clock before is tried again
      refine (addSpiDevice_ensures _ _ w₃).bind fun restored w₄ hrestored => ?_
      refine ensures_ite (fun _ _ _ _ => usable_of_not rfl) fun hok => ?_
      obtain ⟨device, heq, hdevice⟩ := (hrestored.resolve_right fun h => hok h.1).2
      rw [heq]
      exact fun _ => ⟨device, rfl, hdevice⟩
    · obtain ⟨device, heq, hdevice⟩ := (hadded.resolve_right fun h => hok h.1).2
      rw [heq]
      exact fun _ => ⟨device, rfl, hdevice⟩

theorem init_ensures (clockHz : Word) (h : st.Usable w) :
    (init clockHz st).Ensures (busExec freeFails) (fun r w' => r.2.Usable w') w := by
  refine ensures_guard h fun _ => ensures_ite (fun _ => ?_) fun hinit => ?_
  · exact setClock_ensures clockHz h
  · refine (setDirection_ensures false st w).bind fun r w₁ ⟨_, hs⟩ => ?_
    have hnot : r.2.engine.initialized = false := hs.initialized.trans (by simpa using hinit)
    refine ensures_guard (usable_of_not hnot) fun _ => ?_
    refine (initializeSpiBus_ensures clockHz r.2 w₁).bind fun r' w₂ hattached => ?_
    refine ensures_ite (fun hne => ?_) fun hok => ?_
    · have heq := (hattached.resolve_left fun h => hne h.1).2
      exact usable_of_not ((congrArg (·.engine.initialized) heq).trans hnot)
    · obtain ⟨device, heq, hdevice⟩ := (hattached.resolve_right fun h => hok h.1).2
      rw [heq]
      exact fun _ => ⟨device, rfl, hdevice⟩

theorem takeBusBack_ensures (error : SwdError) (pins : Option Byte) (st : SwdState) (w : Bus) :
    (takeBusBack error pins st).Ensures (busExec freeFails) (fun r w' => r.2.2.Usable w') w := by
  refine (setDirection_ensures false st w).bind fun r w₁ _ _ w₂ _ _ w₃ _ => ?_
  refine (initializeSpiBus_ensures _ r.2 w₃).bind fun r' w₄ hattached => ?_
  refine ensures_guard (usable_of_not rfl) fun hok => ?_
  obtain ⟨device, heq, hdevice⟩ := (hattached.resolve_right fun h => hok h.1).2
  refine (setDirection_ensures true r'.2 w₄).bind fun r'' w₅ ⟨hw, hs⟩ => ?_
  subst hw
  have husable : r'.2.Usable w₅ := by
    rw [heq]
    exact fun _ => ⟨device, rfl, hdevice⟩
  exact husable.same hs

theorem drivePins_ensures (value select : Byte) (waitUs : Word) (pins : Option Byte)
    (hfree : ¬ freeFails) (h : st.Usable w) :
    (drivePins value select waitUs pins st).Ensures (busExec freeFails)
      (fun r w' => r.2.2.Usable w') w := by
  refine ensures_guard h fun _ => ensures_guard h fun _ => ?_
  refine (setDirection_ensures false _ w).bind fun r w₁ ⟨hw, hs⟩ => ?_
  subst hw
  have hsame : SameBus st r.2 := ⟨hs.spi, hs.clockHz, hs.initialized⟩
  refine ensures_guard (h.same hsame) fun _ removed w₂ hremoved => ?_
  cases removed with
  | some code =>
    cases busExec_removeDevice hremoved
    exact h.same hsame
  | none =>
    intro freed w₃ hfreed
    cases freed with
    | some code => exact absurd (hfreed.1.resolve_left Bool.false_ne_true) hfree
    | none =>
      have hdriven (st : SwdState) : (driveByHand waitUs pins st).Ensures (busExec freeFails)
          (fun _ _ => True) w₃ :=
        ensures_of_keeps (fun _ _ _ _ _ _ => trivial) _ trivial
      exact (hdriven _).bind fun _ w₄ _ => takeBusBack_ensures _ _ _ w₄

theorem embed_ensures {α : Type} (p : SwdCode α) (w : Bus) :
    (embed p).Ensures (busExec freeFails) (fun _ w' => w' = w) w := by
  induction p with
  | ret v => rfl
  | act c k ih =>
    rintro r _ rfl
    exact ih r
  | spent => trivial

theorem lineCode_of_not (call : LineCall) {engine : Engine}
    (h : engine.initialized = false) : call.code rounds engine = pure engine := by
  cases call with
  | setIoState => simp only [LineCall.code, setIoState, h]; rfl
  | writeSequence => simp only [LineCall.code, writeSequence, h]; rfl
  | readSequence => simp only [LineCall.code, readSequence, h]; rfl
  | connect => simp only [LineCall.code, connect, h]; rfl
  | transfer => simp only [LineCall.code, swdTransfer, h]; rfl
  | readAp => simp only [LineCall.code, readAp, swdTransfer, h]; rfl

theorem code_ensures (call : EngineCall) (h : st.Usable w) :
    (call.code rounds st).Ensures (busExec False) (fun st' w' => st'.Usable w') w := by
  cases call with
  | init clockHz => exact (init_ensures clockHz h).bind fun _ _ h => h
  | setClock clockHz => exact (setClock_ensures clockHz h).bind fun _ _ h => h
  | setWaitRetries waitRetries => exact h.same ⟨rfl, rfl, rfl⟩
  | configureTransfer idleCycles waitRetries => exact h.same ⟨rfl, rfl, rfl⟩
  | configureBus turnaroundCycles dataPhase =>
    refine h.same ?_
    rw [configureBus]
    split_ifs <;> exact ⟨rfl, rfl, rfl⟩
  | drivePins value select waitUs pins =>
    exact (drivePins_ensures value select waitUs pins id h).bind fun _ _ h => h
  | line c =>
    cases hinit : st.engine.initialized with
    | true =>
      refine (embed_ensures _ w).bind ?_
      rintro engine _ rfl
      exact fun _ => h hinit
    | false =>
      rw [EngineCall.code, lineCode_of_not c hinit]
      exact h

/-- The engine after a first initialisation, with one device on the bus. -/
def readyState : SwdState := ⟨⟨true, false, false, 8, 1, 100⟩, some 0, 1000000, pinSwdio⟩

def readyBus : Bus := update (fun _ => none) 0 (some 1000000)

theorem runs_readyState (freeFails : Prop) : EngineRuns freeFails readyState readyBus := by
  let off : SwdState := ⟨⟨false, false, false, 8, 1, 100⟩, none, 0, pinSwdio⟩
  have hoff : EngineRuns freeFails off fun _ => none := .boot rfl
  refine .call (.init 1000000) 0 hoff ?_
  have hadded : busExec freeFails (fun _ => none) (.addDevice 1000000) (.ok 0) readyBus :=
    ⟨rfl, rfl⟩
  refine .act (r := none) rfl (.act (r := none) rfl (.act hadded ?_))
  exact .ret

/-- If no `spi_bus_free` fails that `airdap_swd_drive_pins` makes to give the bus up, then between
the calls of any run the engine has its device on the bus or is marked as not initialized. -/
theorem engine_usable (h : EngineRuns False st w) : st.Usable w := by
  induction h with
  | boot h => exact usable_of_not h
  | call call rounds _ hcall ih =>
    exact ensures_iff_runs.mp (code_ensures call ih) _ _ hcall

/-- A new clock is refused by the driver, and the device is attached again with the old one. -/
theorem restored_usable : ∃ st w, EngineRuns False st w ∧ st.engine.initialized = true ∧
    st.spi = some 1 ∧ st.Usable w := by
  let bus : Bus := update readyBus 0 none
  have hadded : busExec False bus (.addDevice 1000000) (.ok 1)
      (update bus 1 (some 1000000)) := ⟨rfl, rfl⟩
  have hruns : EngineRuns False { readyState with spi := some 1 }
      (update bus 1 (some 1000000)) := by
    refine .call (.setClock 2000000) 0 (runs_readyState False) ?_
    refine .act (r := none) rfl
      (.act (r := none) rfl (.act (r := .error 0x101) rfl (.act hadded ?_)))
    exact .ret
  exact ⟨_, _, hruns, rfl, rfl, engine_usable hruns⟩

/-- The device is removed and the bus is not freed: the engine is marked as initialized and has
no device. -/
theorem initialized_without_device :
    ∃ st w, EngineRuns True st w ∧ ¬ st.Usable w := by
  refine ⟨{ readyState with spi := none }, update readyBus 0 none,
    .call (.drivePins 0 0 0 (some 0)) 0 (runs_readyState _) ?_, fun h => ?_⟩
  · have hfreed : busExec True (update readyBus 0 none) (.busFree false) (some 0x103)
        (update readyBus 0 none) := ⟨.inr trivial, rfl⟩
    refine .act (r := none) rfl (.act (r := none) rfl (.act hfreed ?_))
    exact .ret
  · obtain ⟨device, hspi, _⟩ := h rfl
    cases hspi

end Usable

end Swd
end AirDap

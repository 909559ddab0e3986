import AirDap.Ota.Grip

/-! What each request to the OTA manager does under the mutex: from a view at rest it comes to
a view at rest, through every failure of the driver, the UART, the arbiter and the
authorization. -/
namespace AirDap
open Concurrency Discipline

variable {T : Type} [DecidableEq T] {t : T} {request : OtaRequest} {x : OtaView T}
  {entry : OtaEntry} {s : OtaState T} {α : Type} {rounds : ℕ} {client : Option OtaClient}

/-- A request that may change the session has brought everything to rest. -/
def Restored (t : T) (request : OtaRequest) (s : OtaState T) : Prop :=
  ∃ x, Updating t request x s ∧ Resting x

omit [DecidableEq T] in
theorem resting_idle (hstate : x.memory.session.state = .idle) (hota : x.ota = otaIdle)
    (hsuspended : x.suspended = false)
    (huart : x.log.resumed = true → x.memory.uartSuspended = false) : Resting x where
  mode := by rw [hota, hstate]; rfl
  ownership := by simp [hsuspended, hstate]
  uart h := by simp [huart h, hstate]
  current h := by rw [hstate] at h; cases h
  tolerated h := absurd hstate h

theorem wp_authorized (hs : Updating t request x s) :
    OtaWp t (authorized client) (fun r s => ∃ reauthorized,
      Updating t request { x with log := { x.log with reauthorized } } s ∧
        (r = true → ∀ c, client = some c → reauthorized = some c)) s := by
  cases client with
  | none => exact ⟨x.log.reauthorized, hs, fun _ c h => by cases h⟩
  | some c =>
    refine wp_ite (fun _ => ?_) fun _ => ⟨x.log.reauthorized, hs, fun h => by cases h⟩
    refine wp_otaIo (k := .ret) hs trivial fun r m s₁ hm hs₁ => ?_
    cases hm
    cases r with
    | true => exact ⟨some c, hs₁, fun _ c' h => h⟩
    | false => exact ⟨x.log.reauthorized, hs₁, fun h => by cases h⟩

/-- The update is over: the mode, the arbiter and the UART come back. -/
theorem wp_restoreIdleMode (hs : Updating t request x s) {event : ModeEvent}
    (hmove : OtaMove event otaReceiving otaIdle) (hota : x.ota = otaReceiving)
    (hsuspended : x.suspended = true) (hidle : x.memory.session.state = .idle) :
    OtaWp t (restoreIdleMode rounds event) (fun _ s => Restored t request s) s := by
  rw [← hota] at hmove
  refine (wp_transition hs hmove).bind fun r s₁ hs₁ => ?_
  obtain ⟨rfl, hs₁⟩ := hs₁
  refine wp_ite (fun h => absurd rfl h) fun _ => ?_
  refine (wp_resume (by exact hsuspended) hs₁).bind fun r s₂ hs₂ => ?_
  obtain ⟨rfl, hs₂⟩ := hs₂
  refine wp_ite (fun _ => ?_) fun h => absurd rfl h
  refine wp_otaIo (k := .ret) hs₂ trivial fun r m s₃ hm hs₃ => ⟨_, hs₃, ?_⟩
  rcases hm with ⟨rfl, rfl⟩ | ⟨rfl, rfl⟩
  · exact resting_idle hidle rfl rfl fun _ => rfl
  · exact resting_idle hidle rfl rfl fun h => by cases h

theorem sized_zero : Sized .zero where
  written := le_rfl
  expected _ h := by cases h

theorem wp_dropSession (hs : Updating t request x s) {event : ModeEvent} {status : OtaStatus}
    (hmove : OtaMove event otaReceiving otaIdle) (hota : x.ota = otaReceiving)
    (hsuspended : x.suspended = true) :
    OtaWp t (dropSession rounds event status)
      (fun v s => (v = status ∨ v = .internalError) ∧ Restored t request s) s := by
  refine wp_otaIo hs sized_zero fun _ m s₁ hm hs₁ => ?_
  cases hm
  refine (wp_restoreIdleMode hs₁ hmove hota hsuspended rfl).bind fun r s₂ hs₂ => ⟨?_, hs₂⟩
  cases r <;> simp

section Begin

variable {imageSize : Word} {partition : Partition}

section

variable (hs : Updating t request x s)
include hs

theorem wp_dropHandle {handle : Word} :
    OtaWp t (dropHandle handle) (fun _ s => ∃ log, Updating t request { x with log } s) s := by
  refine wp_ite (fun _ => ?_) fun _ => ⟨x.log, hs⟩
  refine wp_otaIo hs trivial fun r m s₁ hm hs₁ => ?_
  cases hm
  exact ⟨_, hs₁⟩

theorem wp_openSession (hrequest : request = .begin client imageSize)
    (hsize : imageSize.toNat ≤ partition.size) (hidle : x.memory.session.state = .idle)
    (hota : x.ota = otaReceiving) (hsuspended : x.suspended = true)
    (huart : x.memory.uartSuspended = true) :
    OtaWp t (openSession rounds client imageSize partition x.memory.session)
      (fun _ s => Restored t request s) s := by
  subst hrequest
  refine wp_otaIo hs trivial fun r m s₁ hm hs₁ => ?_
  cases hm
  obtain ⟨begun, handle⟩ := r
  cases begun with
  | false =>
    refine (wp_dropHandle hs₁).bind fun _ s₂ hs₂ => ?_
    obtain ⟨log, hs₂⟩ := hs₂
    exact (wp_restoreIdleMode hs₂ .failed hota hsuspended hidle).bind fun _ s₃ hs₃ => hs₃
  | true =>
    refine wp_otaIo hs₁ ⟨Nat.zero_le _, fun p hp => ?_⟩ fun _ m s₂ hm hs₂ => ?_
    · cases hp
      exact hsize
    · cases hm
      refine ⟨_, hs₂, hota, by simp [hsuspended], fun _ => by simp [huart], fun _ => ?_,
        fun _ h => ?_⟩
      · exact ⟨rfl, rfl, rfl, rfl, rfl⟩
      · cases h

theorem wp_enterUpdate (hrequest : request = .begin client imageSize)
    (hsize : imageSize.toNat ≤ partition.size) (hidle : x.memory.session.state = .idle)
    (hx : Resting x) :
    OtaWp t (enterUpdate rounds client imageSize partition x.memory.session)
      (fun _ s => Restored t request s) s := by
  have hota : x.ota = otaIdle := by rw [hx.mode, hidle]; rfl
  have hsuspended : x.suspended = false := by simpa [hidle] using hx.ownership
  have hstarted : OtaMove .otaStarted x.ota otaReceiving := by rw [hota]; exact .started
  refine (wp_transition hs hstarted).bind fun r s₁ hs₁ => ?_
  obtain ⟨rfl, hs₁⟩ := hs₁
  refine wp_ite (fun h => absurd rfl h) fun _ => ?_
  refine (wp_suspend (by exact hsuspended) hs₁).bind fun r s₂ hs₂ => ?_
  -- a suspend that fails leaves only the mode to take back
  have hback {s : OtaState T} (hs : Updating t request { x with ota := otaReceiving } s) :
      OtaWp t (modeTransition rounds .otaFailed) (fun _ s => Restored t request s) s := by
    refine (wp_transition hs .failed).mono fun r s hs => ⟨_, hs.2, ?_⟩
    rw [← hota]
    exact hx
  rcases hs₂ with ⟨rfl, hs₂⟩ | ⟨hr, hs₂⟩
  · refine wp_ite (fun h => by cases h) fun _ => ?_
    refine wp_ite (fun h => absurd rfl h) fun _ => ?_
    refine wp_otaIo hs₂ trivial fun r m s₃ hm hs₃ => ?_
    have hsession : m.session = x.memory.session := by
      rcases hm with rfl | ⟨-, rfl⟩ <;> rfl
    cases r with
    | false =>
      exact (wp_restoreIdleMode hs₃ .failed rfl rfl (hsession ▸ hidle)).bind fun _ s₄ hs₄ => hs₄
    | true =>
      have huart : m.uartSuspended = true := by
        rcases hm with rfl | ⟨h, -⟩
        · rfl
        · cases h
      refine (wp_authorized hs₃).bind fun r s₄ hs₄ => ?_
      obtain ⟨reauthorized, hs₄, -⟩ := hs₄
      refine wp_ite (fun _ => ?_) fun _ => ?_
      · exact (wp_restoreIdleMode hs₄ .failed rfl rfl (hsession ▸ hidle)).bind
          fun _ s₅ hs₅ => hs₅
      · rw [← hsession]
        exact wp_openSession hs₄ hrequest hsize (hsession ▸ hidle) rfl rfl huart
  · refine wp_ite (fun _ => ?_) fun _ => wp_ite (fun _ => ?_) fun h => ?_
    · exact (hback hs₂).bind fun _ s₃ hs₃ => hs₃
    · exact (hback hs₂).bind fun _ s₃ hs₃ => hs₃
    · exact absurd (not_not.mp h) hr

theorem wp_beginLocked (hx : Resting x)
    (hrequest : request = .begin client imageSize) :
    OtaWp t (beginLocked rounds client imageSize) (fun _ s => Restored t request s) s := by
  refine wp_otaIo hs trivial fun session m s₁ hm hs₁ => ?_
  obtain ⟨rfl, rfl⟩ := hm
  refine wp_guard ⟨_, hs₁, hx⟩ fun hidle => ?_
  refine wp_otaIo hs₁ trivial fun r m s₂ hm hs₂ => ?_
  cases hm
  cases r with
  | none => exact ⟨_, hs₂, hx⟩
  | some partition =>
    refine wp_guard ⟨_, hs₂, hx⟩ fun _ => ?_
    refine wp_guard ⟨_, hs₂, hx⟩ fun hsize => ?_
    rw [not_or, not_lt] at hsize
    exact wp_enterUpdate hs₂ hrequest hsize.2 (not_not.mp hidle) hx

end

end Begin

/-- The request has brought everything to rest, and a session is open if `ok` holds of what it
returns. -/
def Concluded (t : T) (request : OtaRequest) (ok : α → Prop) (v : α) (s : OtaState T) : Prop :=
  ∃ x, Updating t request x s ∧ Resting x ∧ (ok v → x.memory.session.state ≠ .idle)

theorem Restored.concluded {ok : α → Prop} {v : α} (hs : Restored t request s) (hv : ¬ ok v) :
    Concluded t request ok v s := by
  obtain ⟨x, hs, hx⟩ := hs
  exact ⟨x, hs, hx, fun h => absurd h hv⟩

section Write

variable {offset : Word} {data : Option (List Byte)} {nextOffset : Option Word}

omit [DecidableEq T] in
theorem toNat_advance {written expected : Word} {n : ℕ} (hle : written.toNat ≤ expected.toNat)
    (hn : n ≤ (expected - written).toNat) :
    (written + BitVec.ofNat 32 n).toNat = written.toNat + n ∧
      written.toNat + n ≤ expected.toNat := by
  have hlt := expected.isLt
  have hsub : (expected - written).toNat = expected.toNat - written.toNat :=
    BitVec.toNat_sub_of_le (BitVec.le_def.mpr hle)
  have hmod : n % 2 ^ 32 = n := Nat.mod_eq_of_lt (by omega)
  rw [BitVec.toNat_add, BitVec.toNat_ofNat, hmod]
  omega

theorem Updating.sized (hs : Updating t request x s) : Sized x.memory.session := by
  obtain ⟨entry, hs, -⟩ := hs
  have hmemory : s.world.memory = x.memory := congrArg OtaView.memory hs.view
  exact hmemory ▸ hs.inv.sized

theorem wp_writeLocked (hs : Updating t request x s) (hx : Resting x)
    (hrequest : request = .write client offset data nextOffset) :
    OtaWp t (writeLocked rounds offset data nextOffset)
      (Concluded t request fun v => v.1 = .ok) s := by
  have hsized := hs.sized
  refine wp_otaIo hs trivial fun session m s₁ hm hs₁ => ?_
  obtain ⟨rfl, rfl⟩ := hm
  have hrefused {v : OtaStatus × Option Word} (hv : v.1 ≠ .ok) :
      Concluded t request (fun v => v.1 = .ok) v s₁ := Restored.concluded ⟨_, hs₁, hx⟩ hv
  refine wp_guard (hrefused (by simp)) fun hreceiving => ?_
  replace hreceiving := not_not.mp hreceiving
  have hcurrent := hx.current hreceiving
  have hopen : x.memory.session.state ≠ .idle := by rw [hreceiving]; simp
  cases data with
  | none => exact hrefused (by simp)
  | some data =>
    cases nextOffset with
    | none => exact hrefused (by simp)
    | some next =>
      refine wp_guard (hrefused (by simp)) fun hoffset => ?_
      refine wp_guard (hrefused (by simp)) fun hsize => ?_
      rw [not_or, not_lt] at hsize
      replace hoffset := not_not.mp hoffset
      obtain ⟨hadvance, hfits⟩ := toNat_advance hsized.written hsize.2
      have hdue : request.offset.toNat = x.log.total := by
        rw [hrequest, hcurrent.total, ← hoffset]
        rfl
      refine wp_otaIo hs₁ hdue fun r m s₂ hm hs₂ => ?_
      cases hm
      cases r with
      | false =>
        -- the write failed: an abort that fails too leaves the session open
        refine wp_otaIo hs₂ trivial fun r m s₃ hm hs₃ => ?_
        cases hm
        cases r with
        | false =>
          refine ⟨_, hs₃, ⟨hx.mode, hx.ownership, hx.uart, fun _ => ?_, fun _ _ => ?_⟩, by simp⟩
          · exact ⟨hcurrent.total, hcurrent.declared, hcurrent.handle, hcurrent.client⟩
          · simp [OtaLog.act]
        | true =>
          have hota : x.ota = otaReceiving := by rw [hx.mode, hreceiving]; rfl
          refine (wp_dropSession hs₃ .failed hota (hx.ownership.mpr hopen)).bind
            fun v s₄ hs₄ => hs₄.2.concluded ?_
          rcases hs₄.1 with rfl | rfl <;> simp
      | true =>
        refine wp_otaIo hs₂ ⟨?_, hsized.expected⟩ fun _ m s₃ hm hs₃ => ?_
        · rw [hadvance]
          exact hfits
        · cases hm
          refine ⟨_, hs₃, ⟨hx.mode, hx.ownership, hx.uart, fun _ => ?_, hx.tolerated⟩,
            fun _ => hopen⟩
          refine ⟨?_, hcurrent.declared, hcurrent.handle, hcurrent.client⟩
          have htotal := hcurrent.total
          simp only [OtaLog.total] at htotal
          simp only [OtaLog.act, OtaLog.total, OtaLog.call, List.map_cons, List.sum_cons, hadvance,
            htotal]
          omega

end Write

section Commit

/-- The image is complete once its handle has been ended and the owner is authorized. -/
theorem Current.complete {session : OtaSession} {log : OtaLog} (hcurrent : Current session log)
    (hsize : session.writtenSize = session.expectedSize) (howner : OwnsSession session client)
    {reauthorized : Option OtaClient}
    (hclient : ∀ c, client = some c → reauthorized = some c) :
    Complete (.commit client) { log.call with ended := some session.handle, reauthorized } where
  total := by
    change log.total = log.declared.toNat
    rw [hcurrent.total, hcurrent.declared, hsize]
  ended := congrArg some hcurrent.handle.symm
  commit := by
    have h := hcurrent.client
    refine ⟨client, rfl, Prod.ext ?_ ?_, hclient⟩
    · exact howner.1.symm.trans h.1
    · exact howner.2.symm.trans h.2

theorem wp_commitLocked (hs : Updating t request x s) (hx : Resting x)
    (hrequest : request = .commit client) (howner : ¬ Foreign client x.memory.session) :
    OtaWp t (commitLocked rounds client) (Concluded t request fun v => v = .ok) s := by
  subst hrequest
  have hsized := hs.sized
  refine wp_otaIo hs trivial fun session m s₁ hm hs₁ => ?_
  obtain ⟨rfl, rfl⟩ := hm
  refine wp_ite (fun _ => Restored.concluded ⟨_, hs₁, hx⟩ (by simp))
    fun hreceiving => ?_
  replace hreceiving := not_not.mp hreceiving
  have hcurrent := hx.current hreceiving
  have hopen : x.memory.session.state ≠ .idle := by rw [hreceiving]; simp
  have hota : x.ota = otaReceiving := by rw [hx.mode, hreceiving]; rfl
  have hsuspended : x.suspended = true := hx.ownership.mpr hopen
  have howns : OwnsSession x.memory.session client := by
    by_contra h
    exact howner ⟨hopen, h⟩
  refine wp_guard (Restored.concluded ⟨_, hs₁, hx⟩ (by simp)) fun hsize => ?_
  have hfailed {status : OtaStatus} {s : OtaState T} {v : OtaStatus} (hstatus : status ≠ .ok)
      (hs : (v = status ∨ v = .internalError) ∧ Restored t (.commit client) s) :
      Concluded t (.commit client) (fun v => v = .ok) v s := by
    refine hs.2.concluded ?_
    rcases hs.1 with rfl | rfl
    · exact hstatus
    · simp
  refine wp_otaIo hs₁ trivial fun r m s₂ hm hs₂ => ?_
  cases hm
  cases r with
  | false =>
    exact (wp_dropSession hs₂ .failed hota hsuspended).mono fun v s₃ hs₃ => hfailed (by simp) hs₃
  | true =>
    refine (wp_authorized hs₂).bind fun r s₃ hs₃ => ?_
    obtain ⟨reauthorized, hs₃, hclient⟩ := hs₃
    refine wp_ite (fun _ => ?_) fun hr => ?_
    · refine wp_otaIo hs₃ sized_zero fun _ m s₄ hm hs₄ => ?_
      cases hm
      refine (wp_restoreIdleMode hs₄ .failed hota hsuspended rfl).bind fun _ s₅ hs₅ => ?_
      exact hs₅.concluded (by simp)
    · have hcomplete := hcurrent.complete (not_not.mp hsize) howns
        (hclient (by simpa using hr))
      refine wp_otaIo hs₃ ⟨hcomplete, hx.tolerated hopen⟩ fun r m s₄ hm hs₄ => ?_
      cases hm
      cases r with
      | false =>
        exact (wp_dropSession hs₄ .failed hota hsuspended).mono
          fun v s₅ hs₅ => hfailed (by simp) hs₅
      | true =>
        refine wp_otaIo hs₄ ⟨le_rfl, fun _ _ => Nat.zero_le _⟩ fun _ m s₅ hm hs₅ => ?_
        cases hm
        have hmove : OtaMove .otaCommitted x.ota otaReadyToReboot := by
          rw [hota]
          exact .committed
        refine (wp_transition hs₅ hmove).bind fun r s₆ hs₆ => ?_
        obtain ⟨rfl, hs₆⟩ := hs₆
        refine ⟨_, hs₆, ⟨rfl, by simp [hsuspended], fun h => ?_, fun h => ?_, fun _ => ?_⟩,
          fun _ => by simp⟩
        · simpa [hopen] using hx.uart h
        · cases h
        · exact hx.tolerated hopen

end Commit

theorem wp_abortLocked (hs : Updating t request x s) (hx : Resting x) :
    OtaWp t (abortLocked rounds) (fun _ s => Restored t request s) s := by
  refine wp_otaIo hs trivial fun session m s₁ hm hs₁ => ?_
  obtain ⟨rfl, rfl⟩ := hm
  refine wp_guard ⟨_, hs₁, hx⟩ fun hidle => ?_
  refine wp_guard ⟨_, hs₁, hx⟩ fun hcommitted => ?_
  have hreceiving : x.memory.session.state = .receiving := by
    cases h : x.memory.session.state with
    | idle => exact absurd h hidle
    | receiving => rfl
    | committed => exact absurd h hcommitted
  have hcurrent := hx.current hreceiving
  refine wp_otaIo hs₁ trivial fun r m s₂ hm hs₂ => ?_
  cases hm
  cases r with
  | false =>
    refine ⟨_, hs₂, hx.mode, hx.ownership, hx.uart, fun _ => ?_, fun _ h => ?_⟩
    · exact ⟨hcurrent.total, hcurrent.declared, hcurrent.handle, hcurrent.client⟩
    · simp [OtaLog.act, hx.tolerated hidle h]
  | true =>
    have hota : x.ota = otaReceiving := by rw [hx.mode, hreceiving]; rfl
    exact (wp_dropSession hs₂ .aborted hota (hx.ownership.mpr hidle)).mono fun _ s₃ hs₃ => hs₃.2

theorem wp_rebootLocked (hs : Updating t request x s) (hx : Resting x) :
    OtaWp t rebootLocked (fun _ s => Restored t request s) s := by
  refine wp_otaIo hs trivial fun session m s₁ hm hs₁ => ?_
  obtain ⟨rfl, rfl⟩ := hm
  refine wp_guard ⟨_, hs₁, hx⟩ fun _ => ?_
  refine wp_otaIo hs₁ trivial fun r m s₂ hm hs₂ => ?_
  cases hm
  exact ⟨_, hs₂, hx⟩

end AirDap

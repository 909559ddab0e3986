import AirDap.Config.Store
import Mathlib.Data.List.TakeWhile

/-! Every call of the configuration store either changes the record in RAM and its copy in the
flash together, or changes nothing. -/
namespace AirDap
open Function

section Bytes

variable {n : ℕ} {bytes : List Byte}

theorem toList_padded (h : bytes.length ≤ n) :
    (padded n bytes).toList = bytes ++ List.replicate (n - bytes.length) 0 := by
  apply List.ext_getElem
  · simp
    omega
  · intro i hi _
    simp only [padded, Vector.toList_ofFn, List.getElem_ofFn, byteAt, List.getElem_append,
      List.getElem_replicate]
    split_ifs with hlt
    · simp [hlt]
    · simp [List.getElem?_eq_none (Nat.not_lt.mp hlt)]

theorem take_padded (h : bytes.length ≤ n) : (padded n bytes).toList.take bytes.length = bytes := by
  rw [toList_padded h, List.take_append_of_le_length le_rfl, List.take_length]

theorem zero_mem_padded (h : bytes.length < n) : (0 : Byte) ∈ (padded n bytes).toList := by
  rw [toList_padded h.le]
  simp
  omega

theorem take_boundedStringLength {limit : ℕ} (h : (cString bytes).length ≤ limit) :
    bytes.take (boundedStringLength bytes limit) = cString bytes := by
  unfold boundedStringLength
  rw [min_eq_left h]
  exact List.prefix_iff_eq_take.mp (List.takeWhile_prefix _) |>.symm

theorem cString_append_zeros (k : ℕ) :
    cString (cString bytes ++ List.replicate k 0) = cString bytes := by
  unfold cString
  rw [List.takeWhile_append_of_pos fun b hb =>
    List.mem_takeWhile_imp (p := fun b : Byte => decide (b ≠ 0)) hb]
  cases k <;> simp [List.replicate_succ]

theorem cString_padded (h : (cString bytes).length ≤ n) :
    cString (padded n (cString bytes)).toList = cString bytes := by
  rw [toList_padded h, cString_append_zeros]

theorem ConfigBlob.matches_holding (h : bytes.length ≤ configBlobMaxSize) :
    (ConfigBlob.holding bytes).matches bytes = true := by
  have hlength : (BitVec.ofNat 32 bytes.length).toNat = bytes.length := by
    unfold configBlobMaxSize at h
    rw [BitVec.toNat_ofNat]
    omega
  simp [ConfigBlob.matches, ConfigBlob.holding, hlength, take_padded h]

end Bytes

/-- A call that may change the record. -/
inductive ConfigCall where
  | setFriendlyName (friendlyName : Option (List Byte))
  | setProvisioned (provisioned : Bool)
  | setBlob (slot : Option ConfigSlot) (data : Option (List Byte))
  | commitNetworkProvisioning (wifiCredentials : Option (List Byte))
  | clear (flags : Word)

/-- The fields of the record that a call may name. -/
inductive ConfigField where
  | friendlyName
  | provisioned
  | slot (slot : ConfigSlot)

namespace ConfigCall

def perform (nvs : ConfigAnswers) : ConfigCall → ConfigStore → EspErr × ConfigStore
  | .setFriendlyName friendlyName => configStoreSetFriendlyName nvs friendlyName
  | .setProvisioned provisioned => configStoreSetProvisioned nvs provisioned
  | .setBlob slot data => configStoreSetBlob nvs slot data
  | .commitNetworkProvisioning wifiCredentials =>
    configStoreCommitNetworkProvisioning nvs wifiCredentials
  | .clear flags => configStoreClear nvs flags

/-- Clearing any network slot names the provisioned flag too. -/
def Names : ConfigCall → ConfigField → Prop
  | .setFriendlyName _, .friendlyName => True
  | .setProvisioned _, .provisioned => True
  | .setBlob slot _, .slot named => slot = some named
  | .commitNetworkProvisioning _, .slot named => named = .wifiCredentials
  | .commitNetworkProvisioning _, .provisioned => True
  | .clear flags, .friendlyName => flags &&& configClearFriendlyName ≠ 0
  | .clear flags, .slot named => flags &&& slotClearFlag named ≠ 0
  | .clear flags, .provisioned => flags &&& configClearNetwork ≠ 0
  | _, _ => False

/-- What the named fields hold after the call has succeeded. -/
def Achieves : ConfigCall → ConfigRecord → Prop
  | .setFriendlyName friendlyName, r =>
    ∀ name ∈ friendlyName, cString r.friendlyName.toList = cString name
  | .setProvisioned provisioned, r => decide (r.provisioned ≠ 0) = provisioned
  | .setBlob slot data, r => ∀ s ∈ slot, ∀ bytes ∈ data, (r.slots s).matches bytes = true
  | .commitNetworkProvisioning wifiCredentials, r =>
    r.provisioned ≠ 0 ∧ ∀ bytes ∈ wifiCredentials, (r.slots .wifiCredentials).matches bytes = true
  | .clear flags, r =>
    (flags &&& configClearFriendlyName ≠ 0 → cString r.friendlyName.toList = []) ∧
    (∀ slot, flags &&& slotClearFlag slot ≠ 0 → r.slots slot = .zero) ∧
    (flags &&& configClearNetwork ≠ 0 → r.provisioned = 0)

end ConfigCall

def ConfigField.Same (r r' : ConfigRecord) : ConfigField → Prop
  | .friendlyName => r'.friendlyName = r.friendlyName
  | .provisioned => r'.provisioned = r.provisioned
  | .slot named => r'.slots named = r.slots named

/-- The call changes no field of the record that it does not name. -/
structure ConfigCall.Frames (c : ConfigCall) (r r' : ConfigRecord) : Prop where
  magic : r'.magic = r.magic
  schemaVersion : r'.schemaVersion = r.schemaVersion
  recordSize : r'.recordSize = r.recordSize
  reserved : r'.reserved = r.reserved
  field : ∀ f, ¬ c.Names f → f.Same r r'

/-- The store between two calls. -/
structure Coherent (s : ConfigStore) : Prop where
  initialized : s.initialized = true
  flash : s.flash = .record s.currentRecord
  valid : validateRecord s.currentRecord = .ok
  candidate : s.candidateRecord = .zero

section Records

variable {r r' : ConfigRecord}

theorem validateRecord_ok_iff : validateRecord r = .ok ↔
    r.magic = configRecordMagic ∧ r.schemaVersion = configSchemaVersion ∧
      r.recordSize = configRecordSize ∧ r.provisioned ≤ 1 ∧
      (0 : Byte) ∈ r.friendlyName.toList ∧
      ∀ slot, (r.slots slot).length.toNat ≤ configBlobMaxSize := by
  unfold validateRecord
  split_ifs with hmagic hversion hsize hname hslots
  · simp [hmagic]
  · simp [hversion]
  · simp [hsize]
  · simp only [false_iff]
    rintro ⟨-, -, -, hle, hmem, -⟩
    rcases hname with hgt | hno
    · exact absurd hle (BitVec.not_le.mpr hgt)
    · exact hno hmem
  · simp only [false_iff]
    rintro ⟨-, -, -, -, -, hle⟩
    obtain ⟨slot, hslot⟩ := hslots
    exact absurd (hle slot) (Nat.not_le.mpr hslot)
  · simp only [not_or, not_not, not_exists] at *
    refine ⟨fun _ => ?_, fun _ => trivial⟩
    exact ⟨hmagic, hversion, hsize, BitVec.not_lt.mp hname.1, hname.2,
      fun slot => Nat.not_lt.mp (hslots slot)⟩

theorem validateRecord_default : validateRecord makeDefaultRecord = .ok := by
  rw [validateRecord_ok_iff]
  refine ⟨rfl, rfl, rfl, by decide, zero_mem_padded (by decide), fun slot => ?_⟩
  exact Nat.zero_le _

theorem validateRecord_of_frame (h : validateRecord r = .ok) (hmagic : r'.magic = r.magic)
    (hversion : r'.schemaVersion = r.schemaVersion) (hsize : r'.recordSize = r.recordSize)
    (hprovisioned : r'.provisioned ≤ 1) (hname : (0 : Byte) ∈ r'.friendlyName.toList)
    (hslots : ∀ slot, (r'.slots slot).length.toNat ≤ configBlobMaxSize) :
    validateRecord r' = .ok := by
  rw [validateRecord_ok_iff] at h ⊢
  exact ⟨hmagic.trans h.1, hversion.trans h.2.1, hsize.trans h.2.2.1, hprovisioned, hname, hslots⟩

end Records

section Calls

variable {nvs : ConfigAnswers} {s s' : ConfigStore} {c : ConfigCall} {e : EspErr}

theorem updateRecord_cases (candidate : ConfigRecord) (h : s.candidateRecord = .zero) :
    (∃ e, e ≠ .ok ∧ updateRecord nvs candidate s = (e, s)) ∨
      updateRecord nvs candidate s =
        (.ok, { s with currentRecord := candidate, flash := .record candidate }) := by
  have hsame : { s with candidateRecord := ConfigRecord.zero } = s := by rw [← h]
  simp only [updateRecord, persistRecord]
  split_ifs with hopen hset hcommit <;> simp_all

/-- A call leaves the store as it is, or tries to store a valid record that differs from the
current one in the named fields only. -/
inductive ConfigCall.Outcome (c : ConfigCall) (nvs : ConfigAnswers) (s : ConfigStore) :
    EspErr × ConfigStore → Prop
  | stays (e : EspErr) (h : e = .ok → c.Achieves s.currentRecord) : Outcome c nvs s (e, s)
  | updates (candidate : ConfigRecord) (valid : validateRecord candidate = .ok)
      (frames : c.Frames s.currentRecord candidate) (achieves : c.Achieves candidate) :
      Outcome c nvs s (updateRecord nvs candidate s)

theorem ConfigCall.Outcome.refused (h : e ≠ .ok) : c.Outcome nvs s (e, s) :=
  .stays e fun he => absurd he h

theorem ConfigCall.Outcome.done (h : c.Achieves s.currentRecord) : c.Outcome nvs s (.ok, s) :=
  .stays .ok fun _ => h

theorem setFriendlyName_outcome (hs : Coherent s) (friendlyName : Option (List Byte)) :
    (ConfigCall.setFriendlyName friendlyName).Outcome nvs s
      (configStoreSetFriendlyName nvs friendlyName s) := by
  cases friendlyName with
  | none => exact .refused (by decide)
  | some name =>
    simp only [configStoreSetFriendlyName]
    split_ifs with hlong hlock hsame
    · exact .refused (by decide)
    · exact .refused hlock
    · refine .done fun given hgiven => ?_
      cases hgiven
      exact hsame
    · have hshort : (cString name).length < configFriendlyNameSize := by
        unfold boundedStringLength at hlong
        omega
      rw [take_boundedStringLength hshort.le]
      have hvalid := validateRecord_ok_iff.mp hs.valid
      refine .updates _ ?_ ⟨rfl, rfl, rfl, rfl, ?_⟩ ?_
      · exact validateRecord_of_frame hs.valid rfl rfl rfl hvalid.2.2.2.1 (zero_mem_padded hshort)
          hvalid.2.2.2.2.2
      · rintro (_ | _ | slot) hf
        · exact absurd trivial hf
        · rfl
        · rfl
      · intro given hgiven
        cases hgiven
        exact cString_padded hshort.le

theorem setProvisioned_outcome (hs : Coherent s) (provisioned : Bool) :
    (ConfigCall.setProvisioned provisioned).Outcome nvs s
      (configStoreSetProvisioned nvs provisioned s) := by
  have hflag : (if provisioned then 1 else 0 : Byte) ≤ 1 ∧
      decide ((if provisioned then 1 else 0 : Byte) ≠ 0) = provisioned := by
    cases provisioned <;> decide
  unfold configStoreSetProvisioned
  generalize (if provisioned then 1 else 0 : Byte) = flag at hflag ⊢
  split_ifs with hlock hsame
  · exact .refused hlock
  · exact .done hsame
  · have hvalid := validateRecord_ok_iff.mp hs.valid
    refine .updates _ ?_ ⟨rfl, rfl, rfl, rfl, ?_⟩ hflag.2
    · exact validateRecord_of_frame hs.valid rfl rfl rfl hflag.1 hvalid.2.2.2.2.1
        hvalid.2.2.2.2.2
    · rintro (_ | _ | slot) hf
      · rfl
      · exact absurd trivial hf
      · rfl

theorem length_update_le {slots : ConfigSlot → ConfigBlob} {slot : ConfigSlot} {data : List Byte}
    (hslots : ∀ slot, (slots slot).length.toNat ≤ configBlobMaxSize)
    (hdata : data.length ≤ configBlobMaxSize) (named : ConfigSlot) :
    (update slots slot (.holding data) named).length.toNat ≤ configBlobMaxSize := by
  by_cases hnamed : named = slot
  · subst hnamed
    rw [update_self]
    simp only [ConfigBlob.holding, BitVec.toNat_ofNat]
    exact (Nat.mod_le _ _).trans hdata
  · rw [update_of_ne hnamed]
    exact hslots named

theorem setBlob_outcome (hs : Coherent s) (slot : Option ConfigSlot) (data : Option (List Byte)) :
    (ConfigCall.setBlob slot data).Outcome nvs s (configStoreSetBlob nvs slot data s) := by
  cases slot with
  | none => exact .refused (by decide)
  | some slot =>
    cases data with
    | none => exact .refused (by decide)
    | some data =>
      simp only [configStoreSetBlob]
      split_ifs with hempty hlarge hlock hsame
      · exact .refused (by decide)
      · exact .refused (by decide)
      · exact .refused hlock
      · refine .done fun named hnamed given hgiven => ?_
        cases hnamed
        cases hgiven
        exact hsame
      · have hvalid := validateRecord_ok_iff.mp hs.valid
        refine .updates _ ?_ ⟨rfl, rfl, rfl, rfl, ?_⟩ ?_
        · exact validateRecord_of_frame hs.valid rfl rfl rfl hvalid.2.2.2.1 hvalid.2.2.2.2.1
            (length_update_le hvalid.2.2.2.2.2 (Nat.not_lt.mp hlarge))
        · rintro (_ | _ | named) hf
          · rfl
          · rfl
          · exact update_of_ne (fun h => hf (congrArg some h.symm)) ..
        · intro named hnamed given hgiven
          cases hnamed
          cases hgiven
          simp only [update_self]
          exact ConfigBlob.matches_holding (Nat.not_lt.mp hlarge)

theorem commitNetworkProvisioning_outcome (hs : Coherent s)
    (wifiCredentials : Option (List Byte)) :
    (ConfigCall.commitNetworkProvisioning wifiCredentials).Outcome nvs s
      (configStoreCommitNetworkProvisioning nvs wifiCredentials s) := by
  cases wifiCredentials with
  | none => exact .refused (by decide)
  | some data =>
    simp only [configStoreCommitNetworkProvisioning]
    split_ifs with hempty hlarge hlock hsame
    · exact .refused (by decide)
    · exact .refused (by decide)
    · exact .refused hlock
    · refine .done ⟨hsame.1, fun given hgiven => ?_⟩
      cases hgiven
      exact hsame.2
    · have hvalid := validateRecord_ok_iff.mp hs.valid
      refine .updates _ ?_ ⟨rfl, rfl, rfl, rfl, ?_⟩ ⟨(by decide : (1 : Byte) ≠ 0), ?_⟩
      · exact validateRecord_of_frame hs.valid rfl rfl rfl (by decide : (1 : Byte) ≤ 1)
          hvalid.2.2.2.2.1
          (length_update_le hvalid.2.2.2.2.2 (Nat.not_lt.mp hlarge))
      · rintro (_ | _ | named) hf
        · rfl
        · exact absurd trivial hf
        · exact update_of_ne hf ..
      · intro given hgiven
        cases hgiven
        simp only [update_self]
        exact ConfigBlob.matches_holding (Nat.not_lt.mp hlarge)

theorem clearedRecord_achieves (flags : Word) (r : ConfigRecord) :
    (ConfigCall.clear flags).Achieves (clearedRecord flags r) := by
  refine ⟨fun h => ?_, fun slot h => if_pos h, fun h => if_pos h⟩
  simp only [clearedRecord, if_pos h]
  exact @cString_padded configFriendlyNameSize [] (Nat.zero_le _)

theorem clear_outcome (hs : Coherent s) (flags : Word) :
    (ConfigCall.clear flags).Outcome nvs s (configStoreClear nvs flags s) := by
  simp only [configStoreClear]
  split_ifs with hflags hlock hsame
  · exact .refused (by decide)
  · exact .refused hlock
  · have hcandidate : { s with candidateRecord := ConfigRecord.zero } = s := by
      rw [← hs.candidate]
    rw [hcandidate]
    refine .done ?_
    rw [← hsame]
    exact clearedRecord_achieves flags _
  · have hvalid := validateRecord_ok_iff.mp hs.valid
    refine .updates _ ?_ ⟨rfl, rfl, rfl, rfl, ?_⟩ (clearedRecord_achieves flags _)
    · refine validateRecord_of_frame hs.valid rfl rfl rfl ?_ ?_ fun slot => ?_
      · simp only [clearedRecord]
        split_ifs
        · decide
        · exact hvalid.2.2.2.1
      · simp only [clearedRecord]
        split_ifs
        · exact zero_mem_padded (by decide)
        · exact hvalid.2.2.2.2.1
      · simp only [clearedRecord]
        split_ifs
        · exact Nat.zero_le _
        · exact hvalid.2.2.2.2.2 slot
    · rintro (_ | _ | named) hf
      · exact if_neg hf
      · exact if_neg hf
      · exact if_neg hf

theorem ConfigCall.perform_outcome (hs : Coherent s) (c : ConfigCall) :
    c.Outcome nvs s (c.perform nvs s) := by
  cases c with
  | setFriendlyName friendlyName => exact setFriendlyName_outcome hs friendlyName
  | setProvisioned provisioned => exact setProvisioned_outcome hs provisioned
  | setBlob slot data => exact setBlob_outcome hs slot data
  | commitNetworkProvisioning data => exact commitNetworkProvisioning_outcome hs data
  | clear flags => exact clear_outcome hs flags

theorem ConfigCall.Frames.refl (c : ConfigCall) (r : ConfigRecord) : c.Frames r r :=
  ⟨rfl, rfl, rfl, rfl, fun f _ => by cases f <;> rfl⟩

/-- A call that fails changes nothing, and one that succeeds does what it names. -/
theorem ConfigCall.perform_spec (hs : Coherent s) (c : ConfigCall) (nvs : ConfigAnswers) :
    Coherent (c.perform nvs s).2 ∧
      ((c.perform nvs s).1 ≠ .ok → (c.perform nvs s).2 = s) ∧
      ((c.perform nvs s).1 = .ok →
        c.Frames s.currentRecord (c.perform nvs s).2.currentRecord ∧
          c.Achieves (c.perform nvs s).2.currentRecord) := by
  have houtcome : c.Outcome nvs s (c.perform nvs s) := c.perform_outcome hs
  generalize c.perform nvs s = result at houtcome ⊢
  cases houtcome with
  | stays e h => exact ⟨hs, fun _ => rfl, fun he => ⟨.refl _ _, h he⟩⟩
  | updates candidate hvalid hframes hachieves =>
    obtain ⟨e, he, h⟩ | h := updateRecord_cases candidate hs.candidate
    · rw [h]
      exact ⟨hs, fun _ => rfl, fun h => absurd h he⟩
    · rw [h]
      exact ⟨⟨hs.initialized, rfl, hvalid, hs.candidate⟩, fun h => absurd rfl h,
        fun _ => ⟨hframes, hachieves⟩⟩

end Calls

/-- Calls one after the other, each with the answers it meets. -/
def runConfig (s : ConfigStore) (calls : List (ConfigCall × ConfigAnswers)) : ConfigStore :=
  calls.foldl (fun s call => (call.1.perform call.2 s).2) s

section Runs

variable {boot : ConfigBoot} {cold s : ConfigStore}

theorem loadRecord_ok {r r' : ConfigRecord} {flash flash' : StoredConfig}
    (h : configStoreLoadRecord boot r flash = (.ok, r', flash')) :
    flash' = .record r' ∧ validateRecord r' = .ok := by
  simp only [configStoreLoadRecord] at h
  split_ifs at h with hopen hmissing herror hsize hread
  · exact absurd (congrArg Prod.fst h) hopen
  · -- nothing was stored, and the default record is stored now
    simp only [persistRecord] at h
    split_ifs at h with hset hcommit
    · exact absurd (congrArg Prod.fst h) hset
    · exact absurd (congrArg Prod.fst h) hcommit
    · cases h
      exact ⟨rfl, validateRecord_default⟩
  · exact absurd (congrArg Prod.fst h) herror
  · cases h
  · exact absurd (congrArg Prod.fst h) hread
  · simp only [nvsReadRecord] at h hread
    split_ifs at h hread with hblob
    · exact absurd rfl (not_not.mp hread ▸ hblob)
    · cases flash with
      | missing => simp at hread
      | otherSize size => simp at hread
      | record stored =>
        simp only [Prod.mk.injEq] at h
        obtain ⟨hvalid, rfl, rfl⟩ := h
        exact ⟨rfl, hvalid⟩

theorem configStoreInit_coherent (hcold : cold.candidateRecord = .zero)
    (h : configStoreInit boot cold = (.ok, s)) : Coherent s := by
  simp only [configStoreInit] at h
  split_ifs at h with hagain hnvs hload hmutex
  · cases h
  · exact absurd (congrArg Prod.fst h) hnvs
  · exact absurd (congrArg Prod.fst h) hload
  · cases h
  · obtain ⟨hflash, hvalid⟩ := loadRecord_ok (Prod.ext (not_not.mp hload) rfl)
    cases h
    exact ⟨rfl, hflash, hvalid, hcold⟩

theorem runConfig_coherent (hs : Coherent s) (calls : List (ConfigCall × ConfigAnswers)) :
    Coherent (runConfig s calls) := by
  induction calls generalizing s with
  | nil => exact hs
  | cons call calls ih => exact ih (call.1.perform_spec hs _).1

theorem reload_coherent (hs : Coherent s) (hcold : cold.initialized = false)
    (hflash : cold.flash = s.flash) : configStoreInit .sound cold =
      (.ok, { cold with initialized := true, currentRecord := s.currentRecord }) := by
  have hload : configStoreLoadRecord .sound cold.currentRecord s.flash =
      (.ok, s.currentRecord, s.flash) := by
    rw [hs.flash]
    simp [configStoreLoadRecord, ConfigBoot.sound, nvsBlobSize, nvsReadRecord, hs.valid]
  have hnvs : initializeNvs .sound s.flash = (.ok, s.flash) := rfl
  simp only [configStoreInit, hcold, hflash, hnvs, hload]
  simp [ConfigBoot.sound, ← hflash]

end Runs

/-- After a successful initialization and any calls, with any failures of the flash, the record
in RAM is the one in the flash and would be loaded again, so that after a restart every getter
answers as before. A call that fails changes nothing, and one that succeeds changes the fields
that it names and no others. -/
theorem config_store_transactional {boot : ConfigBoot} {cold s₀ : ConfigStore}
    (hcold : cold.candidateRecord = .zero) (hinit : configStoreInit boot cold = (.ok, s₀))
    (calls : List (ConfigCall × ConfigAnswers)) :
    (runConfig s₀ calls).flash = .record (runConfig s₀ calls).currentRecord ∧
    validateRecord (runConfig s₀ calls).currentRecord = .ok ∧
    (∀ off : ConfigStore, off.initialized = false → off.flash = (runConfig s₀ calls).flash →
      ∃ s, configStoreInit .sound off = (.ok, s) ∧ ∀ nvs,
        configStoreGetStatus nvs s = configStoreGetStatus nvs (runConfig s₀ calls) ∧
        (∀ size, configStoreGetFriendlyName nvs size s =
          configStoreGetFriendlyName nvs size (runConfig s₀ calls)) ∧
        ∀ slot room, configStoreGetBlob nvs slot room s =
          configStoreGetBlob nvs slot room (runConfig s₀ calls)) ∧
    ∀ (c : ConfigCall) nvs,
      ((c.perform nvs (runConfig s₀ calls)).1 ≠ .ok →
        (c.perform nvs (runConfig s₀ calls)).2 = runConfig s₀ calls) ∧
      ((c.perform nvs (runConfig s₀ calls)).1 = .ok →
        c.Frames (runConfig s₀ calls).currentRecord
          (c.perform nvs (runConfig s₀ calls)).2.currentRecord ∧
        c.Achieves (c.perform nvs (runConfig s₀ calls)).2.currentRecord) := by
  have hs := runConfig_coherent (configStoreInit_coherent hcold hinit) calls
  generalize runConfig s₀ calls = s at hs
  refine ⟨hs.flash, hs.valid, fun off hoff hflash => ?_, fun c nvs => (c.perform_spec hs nvs).2⟩
  refine ⟨_, reload_coherent hs hoff hflash, fun nvs => ?_⟩
  have hlock (r : ConfigStore) (hr : r.initialized = true) :
      lockConfigStore nvs r = lockConfigStore nvs s := by
    simp [lockConfigStore, hr, hs.initialized]
  refine ⟨?_, fun size => ?_, fun slot room => ?_⟩
  · simp only [configStoreGetStatus, hlock]
  · simp only [configStoreGetFriendlyName, hlock]
  · simp only [configStoreGetBlob, hlock]

/-- The store of a device that starts for the first time. -/
def blankStore : ConfigStore := ⟨false, .zero, .zero, .missing⟩

/-- A network configuration is committed and its credentials are cleared again. -/
def provisioningCalls : List (ConfigCall × ConfigAnswers) :=
  [(.commitNetworkProvisioning (some [1, 2]), ConfigBoot.sound.toConfigAnswers),
    (.clear configClearWifiCredentials, ConfigBoot.sound.toConfigAnswers)]

theorem blankStore_transactional : ∃ s₀, configStoreInit .sound blankStore = (.ok, s₀) ∧
    (runConfig s₀ provisioningCalls).flash =
      .record (runConfig s₀ provisioningCalls).currentRecord := by
  have hinit : configStoreInit .sound blankStore =
      (.ok, ⟨true, makeDefaultRecord, .zero, .record makeDefaultRecord⟩) := by
    simp [configStoreInit, blankStore, ConfigBoot.sound, initializeNvs, configStoreLoadRecord,
      nvsBlobSize, persistRecord]
  exact ⟨_, hinit, (config_store_transactional rfl hinit _).1⟩

end AirDap

import AirDap.Dap.Protocol
import Mathlib.Data.Fintype.Pi

/-! The configuration store: one record in RAM, its copy in the flash, and a candidate buffer
in which every call prepares the record that it tries to store. A call takes the mutex of the
store for its whole body, so the calls follow one another. -/
namespace AirDap

/-- `esp_err_t`, as far as the firmware tells the codes apart. -/
inductive EspErr where
  | ok | fail | noMem | invalidArg | invalidState | invalidSize | notFound | invalidResponse
  | invalidVersion | nvsNotFound | nvsNoFreePages | nvsNewVersionFound
  | other (code : Word)
  deriving DecidableEq, Repr

/-- `airdap_config_slot_t`. -/
inductive ConfigSlot where
  | wifiCredentials | pairingRecord | authMaterial
  deriving DecidableEq, Repr

instance : Fintype ConfigSlot where
  elems := {.wifiCredentials, .pairingRecord, .authMaterial}
  complete slot := by cases slot <;> decide

def configSchemaVersion : Word := 1
def configFriendlyNameSize : ℕ := 33
def configBlobMaxSize : ℕ := 1024
def configRecordMagic : Word := 0x43464441
def configRecordSize : Word := 3132

def configClearFriendlyName : Word := 1 <<< 0
def configClearWifiCredentials : Word := 1 <<< 1
def configClearPairingRecord : Word := 1 <<< 2
def configClearAuthMaterial : Word := 1 <<< 3
def configClearNetwork : Word :=
  configClearWifiCredentials ||| configClearPairingRecord ||| configClearAuthMaterial
def configClearAll : Word := configClearFriendlyName ||| configClearNetwork

/-- An array after `memset` to zero and a copy of `bytes` to its start. -/
def padded (n : ℕ) (bytes : List Byte) : Vector Byte n := Vector.ofFn fun i => byteAt bytes i

/-- `airdap_config_store_blob_t`. -/
structure ConfigBlob where
  length : Word
  data : Vector Byte configBlobMaxSize
  deriving DecidableEq

def ConfigBlob.zero : ConfigBlob := ⟨0, padded _ []⟩

/-- A blob after `memset`, the copy of `data` and the store of its length. -/
def ConfigBlob.holding (data : List Byte) : ConfigBlob :=
  ⟨BitVec.ofNat 32 data.length, padded _ data⟩

/-- `airdap_config_store_record_t`. It has no padding between its fields. -/
structure ConfigRecord where
  magic : Word
  schemaVersion : Word
  recordSize : Word
  friendlyName : Vector Byte configFriendlyNameSize
  provisioned : Byte
  reserved : Vector Byte 2
  slots : ConfigSlot → ConfigBlob
  deriving DecidableEq

def ConfigRecord.zero : ConfigRecord :=
  ⟨0, 0, 0, padded _ [], 0, padded _ [], fun _ => .zero⟩

def makeDefaultRecord : ConfigRecord :=
  { ConfigRecord.zero with
    magic := configRecordMagic
    schemaVersion := configSchemaVersion
    recordSize := configRecordSize }

def validateRecord (record : ConfigRecord) : EspErr :=
  if record.magic ≠ configRecordMagic then .invalidResponse
  else if record.schemaVersion ≠ configSchemaVersion then .invalidVersion
  else if record.recordSize ≠ configRecordSize then .invalidSize
  else if record.provisioned > 1 ∨ (0 : Byte) ∉ record.friendlyName.toList then .invalidResponse
  else if ∃ slot, (record.slots slot).length.toNat > configBlobMaxSize then .invalidSize
  else .ok

/-- The entry of the store in the flash. A blob of the size of a record is a record. -/
inductive StoredConfig where
  | missing
  | otherSize (size : ℕ)
  | record (record : ConfigRecord)
  deriving DecidableEq

/-- The static variables of the store and its entry in the flash. -/
structure ConfigStore where
  initialized : Bool
  currentRecord : ConfigRecord
  candidateRecord : ConfigRecord
  flash : StoredConfig
  deriving DecidableEq

/-- How the mutex and the flash answer during one call. -/
structure ConfigAnswers where
  locked : Bool
  nvsOpen : EspErr
  nvsSetBlob : EspErr
  nvsCommit : EspErr

/-- How they answer during the initialization. A read fails with the error that is given, or
is given OK and shows what is there. -/
structure ConfigBoot extends ConfigAnswers where
  nvsFlashInit : EspErr
  nvsFlashErase : EspErr
  nvsFlashInitAgain : EspErr
  nvsGetSize : EspErr
  nvsGetBlob : EspErr
  mutexCreated : Bool

/-- A flash and a mutex that never fail. -/
def ConfigBoot.sound : ConfigBoot where
  locked := true
  nvsOpen := .ok
  nvsSetBlob := .ok
  nvsCommit := .ok
  nvsFlashInit := .ok
  nvsFlashErase := .ok
  nvsFlashInitAgain := .ok
  nvsGetSize := .ok
  nvsGetBlob := .ok
  mutexCreated := true

section Code

variable (nvs : ConfigAnswers)

/-- `persist_record` on an open handle. A set or a commit that fails leaves the entry as it
was. -/
def persistRecord (record : ConfigRecord) (flash : StoredConfig) :
    EspErr × StoredConfig :=
  if nvs.nvsSetBlob ≠ .ok then (nvs.nvsSetBlob, flash)
  else if nvs.nvsCommit ≠ .ok then (nvs.nvsCommit, flash)
  else (.ok, .record record)

/-- The result of `nvs_get_blob` without a buffer, and the size that it finds. -/
def nvsBlobSize (answer : EspErr) (flash : StoredConfig) : EspErr × ℕ :=
  if answer ≠ .ok then (answer, 0)
  else
    match flash with
    | .missing => (.nvsNotFound, 0)
    | .otherSize size => (.ok, size)
    | .record _ => (.ok, configRecordSize.toNat)

/-- The result of `nvs_get_blob` into a buffer that holds `record`, and what it leaves there. -/
def nvsReadRecord (answer : EspErr) (flash : StoredConfig) (record : ConfigRecord) :
    EspErr × ConfigRecord :=
  if answer ≠ .ok then (answer, record)
  else
    match flash with
    | .missing => (.nvsNotFound, record)
    | .otherSize _ => (.invalidSize, record)
    | .record stored => (.ok, stored)

/-- `airdap_config_store_load_record`, with the record and the entry it leaves. -/
def configStoreLoadRecord (nvs : ConfigBoot) (record : ConfigRecord) (flash : StoredConfig) :
    EspErr × ConfigRecord × StoredConfig :=
  if nvs.nvsOpen ≠ .ok then (nvs.nvsOpen, record, flash)
  else
    let found := nvsBlobSize nvs.nvsGetSize flash
    if found.1 = .nvsNotFound then
      let persisted := persistRecord nvs.toConfigAnswers makeDefaultRecord flash
      (persisted.1, makeDefaultRecord, persisted.2)
    else if found.1 ≠ .ok then (found.1, record, flash)
    else if found.2 ≠ configRecordSize.toNat then (.invalidSize, record, flash)
    else
      let read := nvsReadRecord nvs.nvsGetBlob flash record
      if read.1 ≠ .ok then (read.1, read.2, flash)
      else (validateRecord read.2, read.2, flash)

/-- `initialize_nvs`, with the entry that an erased flash leaves. -/
def initializeNvs (nvs : ConfigBoot) (flash : StoredConfig) : EspErr × StoredConfig :=
  if nvs.nvsFlashInit ≠ .nvsNoFreePages ∧ nvs.nvsFlashInit ≠ .nvsNewVersionFound then
    (nvs.nvsFlashInit, flash)
  else if nvs.nvsFlashErase ≠ .ok then (nvs.nvsFlashErase, flash)
  else (nvs.nvsFlashInitAgain, .missing)

/-- `airdap_config_store_init`. -/
def configStoreInit (nvs : ConfigBoot) (s : ConfigStore) : EspErr × ConfigStore :=
  if s.initialized then (.invalidState, s)
  else
    let nvsReady := initializeNvs nvs s.flash
    if nvsReady.1 ≠ .ok then (nvsReady.1, { s with flash := nvsReady.2 })
    else
      let loaded := configStoreLoadRecord nvs s.currentRecord nvsReady.2
      let s := { s with currentRecord := loaded.2.1, flash := loaded.2.2 }
      if loaded.1 ≠ .ok then (loaded.1, s)
      else if !nvs.mutexCreated then (.noMem, s)
      else (.ok, { s with initialized := true })

/-- `lock_config_store`. -/
def lockConfigStore (s : ConfigStore) : EspErr :=
  if !s.initialized then .invalidState else if nvs.locked then .ok else .fail

/-- `update_record` of the candidate, which is cleared afterwards. -/
def updateRecord (candidate : ConfigRecord) (s : ConfigStore) :
    EspErr × ConfigStore :=
  let s := { s with candidateRecord := candidate }
  if nvs.nvsOpen ≠ .ok then (nvs.nvsOpen, { s with candidateRecord := .zero })
  else
    let persisted := persistRecord nvs s.candidateRecord s.flash
    let s := { s with flash := persisted.2 }
    if persisted.1 ≠ .ok then (persisted.1, { s with candidateRecord := .zero })
    else (.ok, { s with currentRecord := s.candidateRecord, candidateRecord := .zero })

/-- The bytes before the terminating zero. -/
def cString (bytes : List Byte) : List Byte := bytes.takeWhile (· ≠ 0)

def boundedStringLength (value : List Byte) (limit : ℕ) : ℕ := min (cString value).length limit

/-- `airdap_config_store_set_friendly_name`; the bytes at the pointer are `none` for the null
pointer. -/
def configStoreSetFriendlyName (friendlyName : Option (List Byte))
    (s : ConfigStore) : EspErr × ConfigStore :=
  match friendlyName with
  | none => (.invalidArg, s)
  | some name =>
    let length := boundedStringLength name configFriendlyNameSize
    if length ≥ configFriendlyNameSize then (.invalidSize, s)
    else if lockConfigStore nvs s ≠ .ok then (lockConfigStore nvs s, s)
    else if cString s.currentRecord.friendlyName.toList = cString name then (.ok, s)
    else updateRecord nvs
      { s.currentRecord with friendlyName := padded _ (name.take length) } s

/-- `airdap_config_store_set_provisioned`. -/
def configStoreSetProvisioned (provisioned : Bool) (s : ConfigStore) :
    EspErr × ConfigStore :=
  if lockConfigStore nvs s ≠ .ok then (lockConfigStore nvs s, s)
  else if decide (s.currentRecord.provisioned ≠ 0) = provisioned then (.ok, s)
  else updateRecord nvs { s.currentRecord with provisioned := if provisioned then 1 else 0 } s

/-- The comparison of a stored blob with the bytes of a caller. -/
def ConfigBlob.matches (blob : ConfigBlob) (data : List Byte) : Bool :=
  blob.length.toNat = data.length && blob.data.toList.take data.length = data

/-- `airdap_config_store_set_blob`; a slot out of range and a null pointer are `none`. -/
def configStoreSetBlob (slot : Option ConfigSlot)
    (data : Option (List Byte)) (s : ConfigStore) : EspErr × ConfigStore :=
  match slot, data with
  | some slot, some data =>
    if data.length = 0 then (.invalidArg, s)
    else if data.length > configBlobMaxSize then (.invalidSize, s)
    else if lockConfigStore nvs s ≠ .ok then (lockConfigStore nvs s, s)
    else if (s.currentRecord.slots slot).matches data then (.ok, s)
    else updateRecord nvs { s.currentRecord with
      slots := Function.update s.currentRecord.slots slot (.holding data) } s
  | _, _ => (.invalidArg, s)

/-- `airdap_config_store_commit_network_provisioning`. -/
def configStoreCommitNetworkProvisioning (wifiCredentials : Option (List Byte)) (s : ConfigStore) :
    EspErr × ConfigStore :=
  match wifiCredentials with
  | none => (.invalidArg, s)
  | some data =>
    if data.length = 0 then (.invalidArg, s)
    else if data.length > configBlobMaxSize then (.invalidSize, s)
    else if lockConfigStore nvs s ≠ .ok then (lockConfigStore nvs s, s)
    else if s.currentRecord.provisioned ≠ 0 ∧
        (s.currentRecord.slots .wifiCredentials).matches data then (.ok, s)
    else updateRecord nvs { s.currentRecord with
      slots := Function.update s.currentRecord.slots .wifiCredentials (.holding data)
      provisioned := 1 } s

def slotClearFlag : ConfigSlot → Word
  | .wifiCredentials => configClearWifiCredentials
  | .pairingRecord => configClearPairingRecord
  | .authMaterial => configClearAuthMaterial

/-- The candidate of `airdap_config_store_clear`. -/
def clearedRecord (flags : Word) (record : ConfigRecord) : ConfigRecord :=
  { record with
    friendlyName :=
      if flags &&& configClearFriendlyName ≠ 0 then padded _ [] else record.friendlyName
    slots := fun slot =>
      if flags &&& slotClearFlag slot ≠ 0 then .zero else record.slots slot
    provisioned := if flags &&& configClearNetwork ≠ 0 then 0 else record.provisioned }

/-- `airdap_config_store_clear`. -/
def configStoreClear (flags : Word) (s : ConfigStore) :
    EspErr × ConfigStore :=
  if flags = 0 ∨ flags &&& ~~~configClearAll ≠ 0 then (.invalidArg, s)
  else if lockConfigStore nvs s ≠ .ok then (lockConfigStore nvs s, s)
  else if clearedRecord flags s.currentRecord = s.currentRecord then
    (.ok, { s with candidateRecord := .zero })
  else updateRecord nvs (clearedRecord flags s.currentRecord) s

/-- `airdap_config_store_get_status`: the schema version and the provisioned flag. -/
def configStoreGetStatus (s : ConfigStore) : EspErr × Option (Word × Bool) :=
  if lockConfigStore nvs s ≠ .ok then (lockConfigStore nvs s, none)
  else (.ok, some (s.currentRecord.schemaVersion, s.currentRecord.provisioned ≠ 0))

/-- `airdap_config_store_get_friendly_name` with a buffer of the given size. -/
def configStoreGetFriendlyName (friendlyNameSize : ℕ) (s : ConfigStore) :
    EspErr × Option (List Byte) :=
  if friendlyNameSize = 0 then (.invalidArg, none)
  else if lockConfigStore nvs s ≠ .ok then (lockConfigStore nvs s, none)
  else
    let name := cString s.currentRecord.friendlyName.toList
    if friendlyNameSize < name.length + 1 then (.invalidSize, none) else (.ok, some name)

/-- `airdap_config_store_get_blob`: the error, the size that it leaves and the bytes that it
copies; `room` is the size of the buffer and `none` without one. -/
def configStoreGetBlob (slot : Option ConfigSlot) (room : Option ℕ)
    (s : ConfigStore) : EspErr × Option ℕ × List Byte :=
  match slot with
  | none => (.invalidArg, none, [])
  | some slot =>
    if lockConfigStore nvs s ≠ .ok then (lockConfigStore nvs s, none, [])
    else
      let blob := s.currentRecord.slots slot
      if blob.length = 0 then (.notFound, some 0, [])
      else
        match room with
        | none => (.ok, some blob.length.toNat, [])
        | some size =>
          if size < blob.length.toNat then (.invalidSize, some blob.length.toNat, [])
          else (.ok, some blob.length.toNat, blob.data.toList.take blob.length.toNat)

end Code
end AirDap

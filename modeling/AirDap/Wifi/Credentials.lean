import AirDap.Buffer.Ring
import AirDap.Config.Store

/-! The record of the Wi-Fi credentials in the configuration store. -/
namespace AirDap.Wifi

open Buffer

def ssidMaxLength : ℕ := 32
def passwordMaxLength : ℕ := 64
def credentialsHeaderSize : ℕ := 8
def credentialsVersion : Byte := 1

/-- The characters `AWF1`. -/
def credentialsMagic : List Byte := [0x41, 0x57, 0x46, 0x31]

/-- `airdap_wifi_credentials_t`. -/
structure Credentials where
  ssid : Vector Byte ssidMaxLength
  password : Vector Byte passwordMaxLength
  ssidLength : Byte
  passwordLength : Byte
  deriving DecidableEq, Repr

namespace Credentials

/-- `airdap_wifi_credentials_clear`. -/
def clear : Credentials := ⟨padded _ [], padded _ [], 0, 0⟩

section

variable (credentials : Credentials)

/-- `credentials_are_valid`. -/
def AreValid : Prop :=
  0 < credentials.ssidLength.toNat ∧ credentials.ssidLength.toNat ≤ ssidMaxLength ∧
    credentials.passwordLength.toNat ≤ passwordMaxLength

instance : Decidable credentials.AreValid := inferInstanceAs (Decidable (_ ∧ _ ∧ _))

/-- The arrays up to the lengths. -/
def ssidBytes : List Byte := load credentials.ssid 0 credentials.ssidLength.toNat

def passwordBytes : List Byte := load credentials.password 0 credentials.passwordLength.toNat

def encodedSize : ℕ :=
  credentialsHeaderSize + credentials.ssidLength.toNat + credentials.passwordLength.toNat

/-- The bytes of a record. -/
def bytes : List Byte :=
  credentialsMagic ++ [credentialsVersion, credentials.ssidLength, credentials.passwordLength, 0] ++
    credentials.ssidBytes ++ credentials.passwordBytes

/-- `airdap_wifi_credentials_encode` with room for `size` bytes: the bytes that it writes, if it
succeeds, and what it leaves in `*inout_size`. -/
def encode (size : ℕ) : Option (List Byte) × ℕ :=
  if ¬ credentials.AreValid then (none, size)
  else if size < credentials.encodedSize then (none, credentials.encodedSize)
  else (some credentials.bytes, credentials.encodedSize)

/-- The bytes of the arrays behind the lengths are zero. -/
def UnusedZero : Prop :=
  (∀ i : Fin _, credentials.ssidLength.toNat ≤ i.val → credentials.ssid[i] = 0) ∧
    ∀ i : Fin _, credentials.passwordLength.toNat ≤ i.val → credentials.password[i] = 0

end

/-- `airdap_wifi_credentials_decode`: the result and what is left in `*credentials`. -/
def decode (encoded : List Byte) : Bool × Credentials :=
  match encoded with
  | m₀ :: m₁ :: m₂ :: m₃ :: version :: ssidLength :: passwordLength :: reserved :: body =>
    if [m₀, m₁, m₂, m₃] ≠ credentialsMagic ∨ version ≠ credentialsVersion ∨ reserved ≠ 0 then
      (false, clear)
    else if ssidLength = 0 ∨ ssidMaxLength < ssidLength.toNat ∨
        passwordMaxLength < passwordLength.toNat ∨
        encoded.length ≠ credentialsHeaderSize + ssidLength.toNat + passwordLength.toNat then
      (false, clear)
    else
      (true,
        { ssid := padded _ (body.take ssidLength.toNat)
          password := padded _ ((body.drop ssidLength.toNat).take passwordLength.toNat)
          ssidLength, passwordLength })
  | _ => (false, clear)

theorem padded_load {n : ℕ} {array : Vector Byte n} {count : ℕ}
    (h : ∀ i (hi : i < n), count ≤ i → array[i] = 0) : padded n (load array 0 count) = array := by
  apply Vector.ext
  intro i hi
  simp only [padded, byteAt, load, List.drop_zero, Vector.getElem_ofFn, List.getD_eq_getElem?_getD]
  by_cases hcount : i < count
  · rw [List.getElem?_take_of_lt hcount]
    simp [hi]
  · rw [List.getElem?_eq_none (by rw [List.length_take]; omega)]
    exact (h i hi (not_lt.mp hcount)).symm

theorem load_padded {n count : ℕ} {data : List Byte} (hdata : data.length = count)
    (hn : count ≤ n) : load (padded n data) 0 count = data := by
  apply List.ext_getElem
  · rw [length_load _ (by omega), hdata]
  · intro i hi hj
    simp [load, padded, byteAt, hj]

variable {c : Credentials} {size : ℕ} {encoded : List Byte}

theorem encode_iff {n : ℕ} : c.encode size = (some encoded, n) ↔
    c.AreValid ∧ c.encodedSize ≤ size ∧ c.bytes = encoded ∧ c.encodedSize = n := by
  unfold encode
  split_ifs with hvalid hsize
  · simp [Nat.not_le.mpr hsize]
  · simp [hvalid, Nat.not_lt.mp hsize]
  · simp [hvalid]

theorem AreValid.lengths (hvalid : c.AreValid) : c.ssidBytes.length = c.ssidLength.toNat ∧
    c.passwordBytes.length = c.passwordLength.toNat ∧ c.encodedSize = c.bytes.length := by
  obtain ⟨-, hssid, hpassword⟩ := hvalid
  have hssid' : c.ssidBytes.length = c.ssidLength.toNat := length_load _ (by omega)
  have hpassword' : c.passwordBytes.length = c.passwordLength.toNat := length_load _ (by omega)
  refine ⟨hssid', hpassword', ?_⟩
  rw [bytes, List.length_append, List.length_append, hssid', hpassword']
  rfl

theorem decode_bytes (hvalid : c.AreValid) : decode c.bytes = (true, { c with
    ssid := padded _ c.ssidBytes
    password := padded _ c.passwordBytes }) := by
  obtain ⟨hssid, hpassword, hlength⟩ := hvalid.lengths
  obtain ⟨hpositive, hmax, hpasswordMax⟩ := hvalid
  have hzero : c.ssidLength ≠ 0 := fun h => by simp [h] at hpositive
  simp only [bytes, credentialsMagic, List.cons_append, List.nil_append] at hlength ⊢
  rw [decode, if_neg (by simp [credentialsMagic]), if_neg]
  · rw [List.take_append_of_le_length hssid.ge, List.take_of_length_le hssid.le,
      List.drop_append_of_le_length hssid.ge, List.drop_of_length_le hssid.le, List.nil_append,
      List.take_of_length_le hpassword.le]
  · rw [← hlength]
    rintro (h | h | h | h)
    · exact hzero h
    · omega
    · omega
    · exact h rfl

/-- What `decode` accepts is the record of what it reads. -/
theorem bytes_decoded (h : (decode encoded).1 = true) :
    (decode encoded).2.AreValid ∧ (decode encoded).2.bytes = encoded := by
  unfold decode at h ⊢
  split at h
  case h_2 => cases h
  case h_1 m₀ m₁ m₂ m₃ version ssidLength passwordLength reserved body =>
    split_ifs at h ⊢ with hheader hlengths
    rw [not_or, not_or, not_not, not_not, not_not] at hheader
    obtain ⟨hmagic, rfl, rfl⟩ := hheader
    simp only [not_or, not_lt, not_not] at hlengths
    obtain ⟨hzero, hssid, hpassword, hlength⟩ := hlengths
    have hbody : body.length = ssidLength.toNat + passwordLength.toNat := by
      simp only [List.length_cons, credentialsHeaderSize] at hlength
      omega
    have hpositive : 0 < ssidLength.toNat := by
      rw [Nat.pos_iff_ne_zero]
      exact fun h => hzero (BitVec.eq_of_toNat_eq h)
    refine ⟨⟨hpositive, hssid, hpassword⟩, ?_⟩
    simp only [bytes, ssidBytes, passwordBytes, ← hmagic]
    rw [load_padded (by simp; omega) hssid, load_padded (by simp; omega) hpassword,
      List.take_of_length_le (l := body.drop _) (by simp; omega), List.append_assoc,
      List.take_append_drop]
    rfl

theorem encode_decoded (h : (decode encoded).1 = true) (hsize : encoded.length ≤ size) :
    (decode encoded).2.encode size = (some encoded, encoded.length) := by
  obtain ⟨hvalid, hbytes⟩ := bytes_decoded h
  have hlength := hvalid.lengths.2.2
  rw [hbytes] at hlength
  exact encode_iff.mpr ⟨hvalid, hlength.trans_le hsize, hbytes, hlength⟩

/-- Both directions of the round trip, with any sufficient room, and the records that are
accepted. -/
theorem credentials_round_trip :
    (∀ c : Credentials, c.AreValid → c.UnusedZero → ∀ size, c.encodedSize ≤ size →
      ∃ encoded, c.encode size = (some encoded, encoded.length) ∧ decode encoded = (true, c)) ∧
    (∀ encoded, (decode encoded).1 = true → ∀ size, encoded.length ≤ size →
      (decode encoded).2.encode size = (some encoded, encoded.length)) ∧
    ∀ encoded, (decode encoded).1 = true ↔
      ∃ (c : Credentials) (size : ℕ), c.encode size = (some encoded, encoded.length) := by
  refine ⟨fun c hvalid hzero size hsize => ?_, fun _ h size hsize => encode_decoded h hsize,
    fun encoded => ⟨fun h => ⟨_, _, encode_decoded h le_rfl⟩, fun h => ?_⟩⟩
  · refine ⟨c.bytes, encode_iff.mpr ⟨hvalid, hsize, rfl, hvalid.lengths.2.2⟩, ?_⟩
    rw [decode_bytes hvalid, ssidBytes, passwordBytes, padded_load fun i hi => hzero.1 ⟨i, hi⟩,
      padded_load fun i hi => hzero.2 ⟨i, hi⟩]
  · obtain ⟨c, size, hencode⟩ := h
    obtain ⟨hvalid, -, rfl, -⟩ := encode_iff.mp hencode
    rw [decode_bytes hvalid]

end Credentials

end AirDap.Wifi

import FactorSeal.Lib.Json
import FactorSeal.Vault.Basic

/-! # Personal items (personal.rs)

A personal item as the vault stores it: the record with its sections and fields, what `validate` demands of it, and the
two functions every stored item passes, `encode` and `decode_current`. Both refuse more than 512 KiB, each on the bytes
it sees: `decode_current` on the bytes that came in, `encode` on those it writes. Nothing relates the two lengths, since
serde accepts a key that is left out (`#[serde(default)]`) and writes it again. -/

namespace FactorSeal

open Wire

/-- personal.rs:14-33. -/
inductive PersonalFieldType where
  | text | concealed | url | email | phone | date | monthYear | totp | multiline | boolean | cardNumber | sshKey
  | address | reference
  | unknown (source : String)
deriving DecidableEq, Repr

/-- personal.rs:55-61. -/
def PersonalFieldType.isConcealed : PersonalFieldType → Bool
  | .concealed | .totp | .cardNumber | .sshKey | .unknown _ => true
  | _ => false

/-- `serde_json::Value`. -/
abbrev JsonValue := Json.Value

structure PersonalField where
  id : String
  label : String
  fieldType : PersonalFieldType
  concealed : Bool
  value : JsonValue
deriving DecidableEq, Repr

def PersonalField.text (field : PersonalField) : Option String := field.value.asStr?

structure PersonalSection where
  id : String
  label : String
  fields : List PersonalField
deriving DecidableEq, Repr

/-- personal.rs:1130-1144. -/
inductive PersonalSecretKind where
  | login | secureNote | card | identity | sshKey | apiCredential | passport | bankAccount | document | generic
deriving DecidableEq, Repr

/-- personal.rs:187-200. -/
def PersonalSecretKind.label : PersonalSecretKind → String
  | login => "Login"
  | secureNote => "Secure note"
  | card => "Card"
  | identity => "Identity"
  | sshKey => "SSH key"
  | apiCredential => "API credential"
  | passport => "Passport"
  | bankAccount => "Bank account"
  | document => "Document"
  | generic => "Other"

/-- personal.rs:130-152. -/
structure PersonalSecret where
  format : String
  version : UInt16
  id : String
  kind : PersonalSecretKind
  title : String
  sections : List PersonalSection
  notes : Option String
  folder : Option String
  tags : List String
  favorite : Bool
  archived : Bool
  source : Option JsonValue
deriving DecidableEq, Repr

def personalFormat : String := "factorseal-personal-secret"

/-- The storage limit of an item, 512 KiB. -/
def maxItemBytes : Nat := 512 * 1024

/-- `char::is_control`: the general category Cc. -/
def isControl (c : Char) : Bool := c.toNat < 0x20 || (0x7f ≤ c.toNat && c.toNat ≤ 0x9f)

/-- The check of a field's value against its type (personal.rs:476-492). -/
def PersonalField.matchesType (field : PersonalField) : Bool :=
  match field.fieldType, field.value with
  | .unknown _, _ | .sshKey, _ | .email, _ | .address, _ | .reference, _ => true
  | .boolean, .bool _ => true
  | .boolean, .string value => value = "true" || value = "false" || value = ""
  | .boolean, _ => false
  | .date, .string _ | .date, .number _ | .monthYear, .string _ | .monthYear, .number _ => true
  | .date, _ | .monthYear, _ => false
  | _, .string _ => true
  | _, _ => false

def PersonalField.valid (field : PersonalField) : Bool :=
  field.id ≠ "" && field.matchesType && (!field.fieldType.isConcealed || field.concealed)

def PersonalSection.valid (part : PersonalSection) : Bool :=
  part.id ≠ "" && (part.fields.map PersonalField.id).Nodup && part.fields.all PersonalField.valid

namespace PersonalSecret

/-- `validate` (personal.rs:462-500); its callers drop the message, so only success matters. -/
def valid (item : PersonalSecret) : Bool :=
  item.format = personalFormat && item.version = 2 && item.id ≠ "" &&
    (item.sections.map PersonalSection.id).Nodup && item.sections.all PersonalSection.valid

/-- personal.rs:458-460. -/
def hasStorageId (item : PersonalSecret) : Bool :=
  item.id ≠ "" && item.id.utf8ByteSize ≤ 1024 && !item.id.toList.any isControl

end PersonalSecret

/-- serde_json on personal items. -/
structure ItemText where
  toVec : PersonalSecret → Bytes
  fromSlice : Bytes → Option PersonalSecret

/-- `fromSlice` accepts what `toVec` writes and more. -/
structure ItemJson extends ItemText where
  fromSlice_toVec : ∀ item, fromSlice (toVec item) = some item

namespace ItemText

variable (json : ItemText)

/-- `PersonalSecret::encode` (personal.rs:415-425). -/
def encode (item : PersonalSecret) : Option Bytes :=
  if item.valid && (json.toVec item).length ≤ maxItemBytes then some (json.toVec item) else none

/-- `PersonalSecret::decode_current` (personal.rs:446-456). -/
def decodeCurrent (bytes : Bytes) : Option PersonalSecret :=
  if bytes.length ≤ maxItemBytes then
    (json.fromSlice bytes).filter fun item => item.valid && item.hasStorageId
  else none

variable {json}

theorem encode_eq_some {item : PersonalSecret} {bytes : Bytes} :
    json.encode item = some bytes ↔ item.valid ∧ bytes.length ≤ maxItemBytes ∧ json.toVec item = bytes := by
  unfold encode
  constructor
  · intro h
    split at h
    next hc =>
      cases h
      simpa using hc
    next => cases h
  · rintro ⟨hvalid, hlen, rfl⟩
    simp [hvalid, hlen]

theorem decodeCurrent_eq_some {bytes : Bytes} {item : PersonalSecret} :
    json.decodeCurrent bytes = some item ↔
      bytes.length ≤ maxItemBytes ∧ json.fromSlice bytes = some item ∧ item.valid ∧ item.hasStorageId := by
  unfold decodeCurrent
  split
  next hlen => simp [Option.filter_eq_some_iff, hlen]
  next hlen => simp [hlen]

end ItemText

namespace ItemJson

open ItemText

variable {json : ItemJson}

theorem encode_inj {a b : PersonalSecret} {bytes : Bytes} (ha : json.encode a = some bytes)
    (hb : json.encode b = some bytes) : a = b := by
  obtain ⟨-, -, ha⟩ := encode_eq_some.1 ha
  obtain ⟨-, -, hb⟩ := encode_eq_some.1 hb
  have := json.fromSlice_toVec a
  rw [ha, ← hb, json.fromSlice_toVec] at this
  exact (Option.some.inj this).symm

end ItemJson

end FactorSeal

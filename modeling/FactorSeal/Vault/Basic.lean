import Mathlib.Data.List.Basic
import FactorSeal.Lib.Wire

/-! # Identifiers, errors and addresses (vault/mod.rs)

The vocabulary every other module uses. `VaultError` keeps the source's variants with their payloads; which of them the
store worker takes for an integrity failure is decided in `send_result` (store/worker.rs:408-431), modelled here by
`VaultError.isFatal` and `sendResult`.

Machine integers are `UInt64` (`u64`) and `Int64` (the `INTEGER` columns), fixed arrays `[u8; N]` are `Vector UInt8 N`. -/

namespace FactorSeal

open Wire

abbrev VaultId := Vector UInt8 16
abbrev InstallationId := Vector UInt8 16
abbrev DeviceKeyId := Vector UInt8 32
abbrev DocumentId := Vector UInt8 32
/-- A SHA-256 output. -/
abbrev Digest := Vector UInt8 32

instance : Std.TransOrd DocumentId := inferInstance
instance : LawfulBEq DocumentId := inferInstance

/-- vault/mod.rs:362-431. -/
inductive VaultError where
  | emptyAddress (component : String)
  | addressTooLong (component : String) (maximum : Nat)
  | invalidData (message : String)
  | automerge (message : String)
  | crypto
  | signature
  | conflict
  | expired
  | random (message : String)
  | database (message : String)
  | workerUnavailable
  | agentUnreachable (endpoint : String)
  | sealed
  | replay
  | authorizationRequired
  | approvalLimited
  | hardwareUnavailable
  | hardwarePolicyUnsupported
  | nativeAuthorization (message : String)
  | protocol (message : String)
  | passwordRejected
  | protection (message : String)
deriving DecidableEq, Repr

abbrev VaultResult := Except VaultError

/-! ## The integrity latch (store/worker.rs:408-431) -/

/-- The errors `send_result` matches as fatal. -/
def VaultError.isFatal : VaultError → Bool
  | .signature | .crypto | .invalidData _ | .database _ | .automerge _ => true
  | _ => false

/-- `fatal` of `send_result`: the worker's answer trips the latch. -/
def fatal {α : Type} : VaultResult α → Bool
  | .error e => e.isFatal
  | .ok _ => false

/-- `send_result`: the latch after the answer, and what the caller receives. An already sealed worker answers `Sealed`,
but the fatal result behind it still sets the latch. -/
def sendResult {α : Type} (sealed : Bool) (result : VaultResult α) : Bool × VaultResult α :=
  (sealed || fatal result, if sealed then .error .sealed else result)

/-! ## Document kinds (vault/mod.rs:598-634) -/

inductive DocumentKind where
  | authorization
  | linuxSecretService
  | networkManagerWifi
  | localKeyring
  | secretSpecProject
  | secretSpecProviderCache
deriving DecidableEq, Repr

namespace DocumentKind

def asStr : DocumentKind → String
  | authorization => "authorization"
  | linuxSecretService => "linux-secret-service"
  | networkManagerWifi => "network-manager-wifi"
  | localKeyring => "local-keyring"
  | secretSpecProject => "secretspec-project"
  | secretSpecProviderCache => "secretspec-provider-cache"

def parse (value : String) : VaultResult DocumentKind :=
  match value with
  | "authorization" => .ok authorization
  | "linux-secret-service" => .ok linuxSecretService
  | "network-manager-wifi" => .ok networkManagerWifi
  | "local-keyring" => .ok localKeyring
  | "secretspec-project" => .ok secretSpecProject
  | "secretspec-provider-cache" => .ok secretSpecProviderCache
  | _ => .error (.invalidData s!"unknown document kind \x60{value}\x60")

@[simp] theorem parse_asStr (k : DocumentKind) : parse k.asStr = .ok k := by
  cases k <;> rfl

theorem asStr_of_parse {value : String} {k : DocumentKind} (h : parse value = .ok k) : value = k.asStr := by
  unfold parse at h
  split at h <;> cases h <;> rfl

/-- The bytes of the kind's name, as hashed. -/
def bytes (k : DocumentKind) : Bytes := utf8 k.asStr

theorem bytes_inj {j k : DocumentKind} (h : j.bytes = k.bytes) : j = k := by
  revert h
  cases j <;> cases k <;> decide +kernel

theorem length_bytes_lt (k : DocumentKind) : k.bytes.length < 2 ^ 64 := by
  cases k <;> decide +kernel

end DocumentKind

/-- A kind behind its name's length can be cut off a transcript. -/
theorem kind_delimited : Delimited (fun k : DocumentKind => framed k.bytes) := by
  intro j k s t h
  obtain ⟨hb, hs⟩ := framed_append_inj j.length_bytes_lt k.length_bytes_lt h
  exact ⟨DocumentKind.bytes_inj hb, hs⟩

/-! ## Addresses (vault/mod.rs:690-910) -/

/-- `MAX_ADDRESS_COMPONENT_BYTES`. -/
def maxAddressComponentBytes : Nat := 4096

structure SecretSpecCoordinates where
  item : String
  field : Option String
  vault : Option String
  sectionName : Option String
  version : Option String
deriving DecidableEq, Repr

inductive SecretSpecAddress where
  | convention (project profile key : String)
  | native (coordinates : SecretSpecCoordinates)
deriving DecidableEq, Repr

inductive SecretAddress where
  | local (item : String) (field : Option String)
  | secretSpec (address : SecretSpecAddress)
deriving DecidableEq, Repr

def validateAddressComponent (component value : String) : VaultResult Unit :=
  if value.isEmpty then .error (.emptyAddress component)
  else if value.utf8ByteSize > maxAddressComponentBytes then
    .error (.addressTooLong component maxAddressComponentBytes)
  else .ok ()

/-- The check of an optional component: an absent one passes. -/
def validateOptionalComponent (component : String) : Option String → VaultResult Unit
  | some value => validateAddressComponent component value
  | none => .ok ()

def SecretSpecAddress.validate : SecretSpecAddress → VaultResult Unit
  | .convention project profile key => do
    validateAddressComponent "project" project
    validateAddressComponent "profile" profile
    validateAddressComponent "key" key
  | .native c => do
    validateAddressComponent "item" c.item
    validateOptionalComponent "field" c.field
    validateOptionalComponent "vault" c.vault
    validateOptionalComponent "section" c.sectionName
    validateOptionalComponent "version" c.version

def SecretSpecAddress.project : SecretSpecAddress → Option String
  | .convention project _ _ => some project
  | .native _ => none

def SecretAddress.validate : SecretAddress → VaultResult Unit
  | .local item field => do
    validateAddressComponent "item" item
    validateOptionalComponent "field" field
  | .secretSpec address => address.validate

/-- `update_digest_string`. -/
def digestString (value : String) : Bytes := framed (utf8 value)

/-- `update_digest_option`. -/
def digestOption : Option String → Bytes
  | some value => 1 :: digestString value
  | none => [0]

def SecretSpecAddress.digestBytes : SecretSpecAddress → Bytes
  | .convention project profile key => 1 :: (digestString project ++ digestString profile ++ digestString key)
  | .native c =>
    2 :: (digestString c.item ++ digestOption c.field ++ digestOption c.vault ++ digestOption c.sectionName ++
      digestOption c.version)

/-- The byte string `storage_key` hashes. -/
def SecretAddress.digestBytes : SecretAddress → Bytes
  | .local item field => 1 :: (digestString item ++ digestOption field)
  | .secretSpec address => 2 :: address.digestBytes

/-- The URL-safe base64 alphabet. -/
def base64Char (n : Nat) : Char :=
  if n < 26 then Char.ofNat (65 + n)
  else if n < 52 then Char.ofNat (71 + n)
  else if n < 62 then Char.ofNat (n - 4)
  else if n = 62 then '-' else '_'

/-- `URL_SAFE_NO_PAD.encode`. -/
def base64Url : Bytes → List Char
  | a :: b :: c :: rest =>
    let n := a.toNat * 65536 + b.toNat * 256 + c.toNat
    base64Char (n / 262144) :: base64Char (n / 4096 % 64) :: base64Char (n / 64 % 64) :: base64Char (n % 64) ::
      base64Url rest
  | [a, b] =>
    let n := a.toNat * 1024 + b.toNat * 4
    [base64Char (n / 4096), base64Char (n / 64 % 64), base64Char (n % 64)]
  | [a] => [base64Char (a.toNat / 4), base64Char (a.toNat * 16 % 64)]
  | [] => []

/-- `SecretAddress::storage_key` (vault/mod.rs:851-866): the key of an address in its document's `entries` map. -/
def SecretAddress.storageKey (sha256 : Bytes → Digest) (address : SecretAddress) : String :=
  String.ofList (base64Url
    (sha256 (utf8 "factorseal/secret-address/v1\x00" ++ address.digestBytes)).toList)

end FactorSeal

import FactorSeal.Service.Wire

/-! # Wi-Fi profiles and their credentials (network_manager/profile.rs, crates/network-manager-protocol)

A profile has a credential for each secret property of its security setting, with flags that say who stores it. The
writes that the secret agent asks the vault for are worked out from the profile alone (`save`, `delete`) or from the
profile and what was read and entered (`get`). -/

namespace FactorSeal.Wifi

open Wire

/-- The `802-1x` secrets (enterprise.rs:17-53). -/
inductive EapSecretProperty where
  | password
  | passwordRaw
  | pin
  | privateKeyPassword
  | phase2PrivateKeyPassword
  | caCertPassword
  | phase2CaCertPassword
  | clientCertPassword
  | phase2ClientCertPassword
deriving DecidableEq, Repr

def EapSecretProperty.name : EapSecretProperty → String
  | password => "password"
  | passwordRaw => "password-raw"
  | pin => "pin"
  | privateKeyPassword => "private-key-password"
  | phase2PrivateKeyPassword => "phase2-private-key-password"
  | caCertPassword => "ca-cert-password"
  | phase2CaCertPassword => "phase2-ca-cert-password"
  | clientCertPassword => "client-cert-password"
  | phase2ClientCertPassword => "phase2-client-cert-password"

/-- The settings a profile keeps secrets in. -/
inductive Setting where
  | wifiSecurity
  | eap
deriving DecidableEq, Repr

def Setting.name : Setting → String
  | wifiSecurity => "802-11-wireless-security"
  | eap => "802-1x"

inductive Property where
  | psk
  | eap (property : EapSecretProperty)
deriving DecidableEq, Repr

namespace Property

/-- `PROPERTIES`. -/
def all : List Property :=
  [psk, eap .password, eap .passwordRaw, eap .pin, eap .privateKeyPassword, eap .phase2PrivateKeyPassword,
    eap .caCertPassword, eap .phase2CaCertPassword, eap .clientCertPassword, eap .phase2ClientCertPassword]

theorem mem_all (p : Property) : p ∈ all := by
  cases p with
  | psk => decide
  | eap property => cases property <;> decide

def name : Property → String
  | psk => "psk"
  | eap property => property.name

def setting : Property → Setting
  | psk => .wifiSecurity
  | eap _ => .eap

def isRaw : Property → Bool
  | eap .passwordRaw => true
  | _ => false

/-- The field of a connection's credential in the vault. -/
def field (p : Property) : String := p.setting.name ++ "/" ++ p.name

def address (p : Property) (uuid : String) : WireSecretAddress := ⟨uuid, some p.field⟩

theorem field_inj {p q : Property} (h : p.field = q.field) : p = q := by
  have hall : ∀ p ∈ all, ∀ q ∈ all, p.field = q.field → p = q := by decide
  exact hall p p.mem_all q q.mem_all h

theorem address_inj {p q : Property} {uuid other : String} (h : p.address uuid = q.address other) :
    p = q ∧ uuid = other := by
  obtain ⟨huuid, hfield⟩ := WireSecretAddress.mk.inj h
  exact ⟨field_inj (Option.some.inj hfield), huuid⟩

/-- `WifiPsk::new` (wifi.rs:23-36). -/
def validPsk (keyManagement text : String) : Bool :=
  (if keyManagement = "wpa-psk" then
    (decide (8 ≤ (utf8 text).length ∧ (utf8 text).length ≤ 63) && (utf8 text).all (· < 128)) ||
      (decide ((utf8 text).length = 64) && (utf8 text).all fun b =>
        (0x30 ≤ b && b ≤ 0x39) || (0x61 ≤ b && b ≤ 0x66) || (0x41 ≤ b && b ≤ 0x46))
  else decide (keyManagement = "sae") && decide (text ≠ "")) && !text.toList.contains '\x00'

/-- `validate` (profile.rs:84-109). -/
def validate (p : Property) (keyManagement : String) (value : Bytes) : Bool :=
  decide (value.length ≤ 64 * 1024) &&
    match p, String.fromUTF8? ⟨value.toArray⟩ with
    | psk, some text => validPsk keyManagement text
    | psk, none => false
    | eap .passwordRaw, _ => true
    | eap _, some text => !text.toList.contains '\x00'
    | eap _, none => false

end Property

/-! ## Flags (flags.rs) -/

abbrev SecretFlags := UInt32

namespace SecretFlags

def agentOwned : SecretFlags := 1
def notSaved : SecretFlags := 2
def notRequired : SecretFlags := 4

/-- `agent_may_save`: unknown flags do not persist. -/
def agentMaySave (flags : SecretFlags) : Bool :=
  flags &&& agentOwned ≠ 0 && flags &&& notSaved = 0 && flags &&& ~~~(7 : UInt32) = 0

end SecretFlags

/-- `GetSecretsFlags`. -/
abbrev GetSecretsFlags := UInt32

namespace GetSecretsFlags

def allowsInteraction (flags : GetSecretsFlags) : Bool := flags &&& 3 ≠ 0
def allowsStoredSecrets (flags : GetSecretsFlags) : Bool := flags &&& 2 = 0

end GetSecretsFlags

/-! ## Profiles -/

structure Credential where
  property : Property
  flags : SecretFlags
  supplied : Option Bytes
  needed : Bool
deriving DecidableEq, Repr

/-- A parsed profile: a credential for each property of its setting, in their order. -/
structure Profile where
  uuid : String
  label : String
  keyManagement : String
  setting : Setting
  credentials : List Credential
  complete : credentials.map Credential.property = Property.all.filter (·.setting = setting)

/-! ## Writes -/

def nameAddress (uuid : String) : WireSecretAddress := ⟨uuid, some "connection-name"⟩

/-- `name_mutation`. -/
def nameMutation (profile : Profile) : VaultMutation := .put (nameAddress profile.uuid) (utf8 profile.label) none

def isPut : VaultMutation → Bool
  | .put _ _ _ => true
  | _ => false

/-- One credential of `save_secrets`; `none` if its value is not valid. -/
def saveWrite (profile : Profile) (credential : Credential) : Option VaultMutation :=
  match credential.supplied with
  | none => some (.delete (credential.property.address profile.uuid))
  | some value =>
    if credential.flags.agentMaySave then
      if credential.property.validate profile.keyManagement value then
        some (.put (credential.property.address profile.uuid) value none)
      else none
    else some (.delete (credential.property.address profile.uuid))

/-- The writes of `save_secrets` (network_manager.rs:469-503). -/
def saveWrites (profile : Profile) : Option (List VaultMutation) := do
  let writes ← profile.credentials.mapM (saveWrite profile)
  let writes := writes ++ (Property.all.filter (·.setting ≠ profile.setting)).map fun property =>
    .delete (property.address profile.uuid)
  return writes ++ [if writes.any isPut then nameMutation profile else .delete (nameAddress profile.uuid)]

/-- The writes of `delete_secrets` (network_manager.rs:536-545). -/
def deleteWrites (uuid : String) : List VaultMutation :=
  Property.all.map (fun property => .delete (property.address uuid)) ++ [.delete (nameAddress uuid)]

/-- `existing_value` (network_manager.rs:186-217), with what the vault answered. -/
def existingValue (profile : Profile) (flags : GetSecretsFlags) (stored : Property → Option Bytes)
    (credential : Credential) : Option Bytes :=
  let valid := credential.property.validate profile.keyManagement
  if flags.allowsStoredSecrets then
    match (if credential.flags.agentMaySave then (stored credential.property).filter valid else none) with
    | some value => some value
    | none =>
      if credential.flags &&& SecretFlags.notSaved = 0 then credential.supplied.filter valid else none
  else none

/-- One credential of `get` (network_manager.rs:273-324): its writes and whether it has a value. `none` if the call fails,
because the user may not be asked for a missing value or what they entered is not valid. -/
def getWrite (profile : Profile) (flags : GetSecretsFlags) (stored : Property → Option Bytes)
    (entered : Property → Option Bytes) (credential : Credential) : Option (List VaultMutation × Bool) :=
  let address := credential.property.address profile.uuid
  let deletion := if credential.flags.agentMaySave then [] else [VaultMutation.delete address]
  match existingValue profile flags stored credential with
  | some _ => some (deletion, true)
  | none =>
    if credential.needed then
      if flags.allowsInteraction && !credential.property.isRaw then
        match (entered credential.property).filter (credential.property.validate profile.keyManagement) with
        | none => none
        | some value =>
          some (deletion ++ if credential.flags.agentMaySave then [.put address value none] else [], true)
      else none
    else some (deletion, false)

/-- The writes of `get` (network_manager.rs:271-340); `none` if it fails or has nothing to answer. -/
def getWrites (profile : Profile) (flags : GetSecretsFlags) (stored entered : Property → Option Bytes) :
    Option (List VaultMutation) := do
  let parts ← profile.credentials.mapM (getWrite profile flags stored entered)
  let writes := parts.flatMap Prod.fst
  if parts.any Prod.snd then
    if writes.any isPut then return writes ++ [nameMutation profile]
    else if profile.credentials.all fun credential => !credential.flags.agentMaySave then
      return writes ++ [.delete (nameAddress profile.uuid)]
    else return writes
  else none

/-! ## Which addresses they are about -/

def mutationAddress : VaultMutation → WireSecretAddress
  | .check address _ | .put address _ _ | .delete address => address

theorem nameAddress_ne (p : Property) (uuid other : String) : nameAddress other ≠ p.address uuid := by
  have hall : ∀ p ∈ Property.all, "connection-name" ≠ p.field := by decide
  intro h
  obtain ⟨-, hfield⟩ := WireSecretAddress.mk.inj h
  exact hall p p.mem_all (Option.some.inj hfield)

end FactorSeal.Wifi

import FactorSeal.Seal.Hierarchy
import FactorSeal.Seal.Policy

/-! # The metadata file of a vault (vault/seal/metadata.rs)

The file names the installation, its public signing key and its unlock policy, and has one slot for each group of the
policy: the root key, encrypted under the password where the group has one, and wrapped by the group's hardware key. -/

namespace FactorSeal.Seal

open Wire Except

/-- `HardwareBackend` (vault/protection.rs:14-40). -/
inductive HardwareBackend where
  | secureEnclave
  | androidStrongBox
  | androidTrustedEnvironment
  | tpm
  | windowsTpm
deriving DecidableEq, Repr

def HardwareBackend.asStr : HardwareBackend → String
  | secureEnclave => "secure-enclave"
  | androidStrongBox => "android-strongbox"
  | androidTrustedEnvironment => "android-trusted-environment"
  | tpm => "tpm"
  | windowsTpm => "windows-tpm"

/-- `platform_accepts_backend`. -/
def VaultPlatform.acceptsBackend : VaultPlatform → String → Bool
  | android, backend => backend = "android-strongbox" || backend = "android-trusted-environment"
  | ios, backend | macos, backend => backend = "secure-enclave"
  | linux, backend => backend = "tpm"
  | windows, backend => backend = "windows-tpm"

structure UnlockSlot where
  group : UnlockGroup
  wrappingKeyLabel : String
  wrappedVaultRootKey : Bytes
  passwordProtection : Option NestedProtection
deriving DecidableEq, Repr

structure VaultFile where
  format : String
  version : UInt32
  installationId : InstallationId
  deviceVaultId : VaultId
  deviceKeyId : DeviceKeyId
  publicSigningKey : Bytes
  actorId : Bytes
  platform : VaultPlatform
  hardwareBackend : String
  cryptographicProfile : VaultCryptoProfile
  unlockPolicy : UnlockPolicy
  preferredUnlockGroup : Option UnlockGroup
  unlockSlots : List UnlockSlot
  wrappedInstallationSecrets : WrappedInstallationSecrets
  createdAt : UInt64
deriving DecidableEq, Repr

variable (env : SealEnv)

/-- `DeviceKeyId::for_public_key`. -/
def deviceKeyIdFor (publicKey : Bytes) : DeviceKeyId := env.sha256 (utf8 "factorseal/device-key-id/v1\x00" ++ publicKey)

/-- `actor_id_for_public_key`. -/
def actorIdFor (publicKey : Bytes) : Bytes := (env.sha256 (utf8 "factorseal/automerge-actor/v1\x00" ++ publicKey)).toList

/-- `supports_algorithm` (crypto.rs:121-142). -/
def supportsAlgorithm (algorithm : EncryptionAlgorithm) : Bool := algorithm = .aes256Gcm

/-- `NestedProtection::validate` and `matches_profile`, as a slot uses them. -/
def NestedProtection.validateFor (protection : NestedProtection) (profile : VaultCryptoProfile) : VaultResult Unit := do
  ensure (supportsAlgorithm protection.encryptionAlgorithm = true)
    (.protection "unsupported nested-factor encryption algorithm")
  protection.factor.validate
  ensure (protection.factor.profile = profile)
    (.protection "password KDF does not match the vault cryptographic profile")

/-- `UnlockSlot::validate`. -/
def UnlockSlot.validate (profile : VaultCryptoProfile) (slot : UnlockSlot) : VaultResult Unit := do
  slot.group.validate
  ensure (slot.wrappingKeyLabel ≠ "" ∧ slot.wrappedVaultRootKey ≠ [] ∧
      slot.passwordProtection.isSome = slot.group.requires .password)
    (.protection "unlock wrapping slot is inconsistent")
  match slot.passwordProtection with
  | some protection => protection.validateFor profile
  | none => pure ()

namespace VaultFile

/-- `VaultFile::validate`. Labels that occur twice are neighbours once they are sorted. -/
def validate (file : VaultFile) : VaultResult Unit := do
  ensure (file.format = "factorseal-vault" ∧ (file.version = 7 ∨ file.version = 8 ∨ file.version = 9))
    (.protection "unsupported vault metadata format or version")
  file.wrappedInstallationSecrets.validate
  ensure (file.wrappedInstallationSecrets.usesEnclaveSigner = true → ¬ file.version < 9 ∧ file.platform = .macos)
    (.protection "enclave signing requires macOS vault metadata version 9")
  ensure (file.installationId ≠ file.deviceVaultId ∧ file.platform.acceptsBackend file.hardwareBackend = true ∧
      file.actorId ≠ [] ∧ deviceKeyIdFor env file.publicSigningKey = file.deviceKeyId ∧
      actorIdFor env file.publicSigningKey = file.actorId)
    (.protection "vault metadata is inconsistent")
  file.unlockPolicy.validate
  ensure (file.preferredUnlockGroup.all (· ∈ file.unlockPolicy.groups))
    (.protection "preferred unlock group is not in the unlock policy")
  ensure (file.unlockSlots.length = file.unlockPolicy.groups.length)
    (.protection "unlock policy and wrapping slots do not match")
  (file.unlockSlots.zip file.unlockPolicy.groups).forM fun pair => do
    pair.1.validate file.cryptographicProfile
    ensure (pair.1.group = pair.2) (.protection "unlock policy and wrapping slot order do not match")
  ensure (file.unlockSlots.map UnlockSlot.wrappingKeyLabel).Nodup
    (.protection "unlock wrapping key labels must be distinct")

end VaultFile

/-- What a file says in public. -/
structure VaultMetadata where
  installationId : InstallationId
  deviceVaultId : VaultId
  deviceKeyId : DeviceKeyId
  publicSigningKey : Bytes
  actorId : Bytes
  platform : VaultPlatform
  hardwareBackend : String
  enclaveSigning : Bool
  cryptographicProfile : VaultCryptoProfile
  unlockPolicy : UnlockPolicy
  /-- There is one in every policy that is valid. -/
  preferredUnlockGroup : Option UnlockGroup
  createdAt : UInt64
deriving DecidableEq, Repr

/-- `VaultFile::public`. -/
def VaultFile.publicMetadata (file : VaultFile) : VaultMetadata where
  installationId := file.installationId
  deviceVaultId := file.deviceVaultId
  deviceKeyId := file.deviceKeyId
  publicSigningKey := file.publicSigningKey
  actorId := file.actorId
  platform := file.platform
  hardwareBackend := file.hardwareBackend
  enclaveSigning := file.wrappedInstallationSecrets.usesEnclaveSigner
  cryptographicProfile := file.cryptographicProfile
  unlockPolicy := file.unlockPolicy
  preferredUnlockGroup := file.preferredUnlockGroup.or file.unlockPolicy.groups.head?
  createdAt := file.createdAt

end FactorSeal.Seal

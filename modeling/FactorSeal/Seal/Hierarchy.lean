import FactorSeal.Vault.Crypto

/-! # The key hierarchy of an installation (vault/keys.rs, vault/seal/factor.rs)

The root key opens everything else: it wraps the signing seed (or the reference of a signing key in the Secure Enclave),
and the index key is derived from it. A password group keeps the root key encrypted under a key that is derived from the
password, inside the hardware wrapping.

The primitives are parameters (`SealEnv`). There is one encryption algorithm, so `aeadOpen` does not take the recorded
one. Encryption and allocations of locked memory do not fail here. -/

namespace FactorSeal.Seal

open Wire Except

/-- `EnclaveSigner`, in the builds that have it. The reference of a key is what the vault stores of it. -/
structure Enclave where
  available : Bool
  generate : Nat → Except String Bytes
  publicKey : Bytes → Except String Bytes

structure SealEnv where
  sha256 : Bytes → Digest
  hmac : Key → Bytes → Digest
  aeadSeal : Key → Nonce → Bytes → Bytes → Bytes
  aeadOpen : Key → Nonce → Bytes → Bytes → Option Bytes
  aeadOpen_seal : ∀ key nonce aad plaintext, aeadOpen key nonce aad (aeadSeal key nonce aad plaintext) = some plaintext
  length_aeadSeal : ∀ key nonce aad plaintext, (aeadSeal key nonce aad plaintext).length = plaintext.length + 16
  /-- Memory, iterations, parallelism, salt and password. -/
  argon2id : UInt32 → UInt32 → UInt32 → Vector UInt8 16 → Bytes → Except String Key
  pbkdf2 : Bytes → Vector UInt8 16 → UInt32 → Key
  publicKeyForSeed : Key → Bytes
  enclave : Option Enclave
  random : (k : Nat) → Nat → Vector UInt8 k

/-- A key of the right length. -/
def keyOfBytes (bytes : Bytes) : Option Key :=
  if h : bytes.toArray.size = 32 then some ⟨bytes.toArray, h⟩ else none

@[simp] theorem keyOfBytes_toList (key : Key) : keyOfBytes key.toList = some key := by
  have h : key.toList.toArray.size = 32 := by simp
  rw [keyOfBytes, dif_pos h]
  simp [Vector.toList]

theorem keyOfBytes_eq_some {bytes : Bytes} {key : Key} (h : keyOfBytes bytes = some key) : bytes = key.toList := by
  unfold keyOfBytes at h
  split at h
  · cases h
    simp [Vector.toList]
  · cases h

/-- A failure of a library, with its text. -/
def failure {α : Type} (text : String → VaultError) : Except String α → VaultResult α
  | .ok a => .ok a
  | .error message => .error (text message)

theorem failure_eq_ok {α : Type} {text : String → VaultError} {r : Except String α} {a : α} :
    failure text r = .ok a ↔ r = .ok a := by
  cases r with
  | error message => simp [failure]
  | ok b => simp [failure]

/-! ## Wrapped keys (keys.rs:403-455) -/

/-- `installation_key_aad`. -/
def installationKeyAad (installation : InstallationId) (vault : VaultId) (purpose : Bytes) : Bytes :=
  utf8 "factorseal/installation-key/v1\x00" ++ (installation.toList ++ (vault.toList ++ framed purpose))

def signingSeedPurpose : Bytes := utf8 "signing-seed"
def enclavePurpose : Bytes := utf8 "secure-enclave-mldsa65-reference-v1"

variable (env : SealEnv)

/-- `wrap_key`. -/
def wrapKey (draw : Nat) (rootKey : Key) (aad : Bytes) (plaintext : Key) : WrappedKey :=
  let nonce := env.random 12 draw
  ⟨.aes256Gcm, nonce, env.aeadSeal rootKey nonce aad plaintext.toList⟩

/-- `unwrap_key`. -/
def unwrapKey (rootKey : Key) (aad : Bytes) (wrapped : WrappedKey) (label : String) : VaultResult Key := do
  wrapped.validate
  let plaintext ← ofOption (.protection ("cannot authenticate " ++ label))
    (env.aeadOpen rootKey wrapped.nonce aad wrapped.ciphertext)
  ofOption (.protection ("invalid " ++ label ++ " length")) (keyOfBytes plaintext)

/-! ## Installation secrets (keys.rs:62-401) -/

structure WrappedSigningReference where
  encryptionAlgorithm : EncryptionAlgorithm
  nonce : Nonce
  ciphertext : Bytes
deriving DecidableEq, Repr

structure WrappedInstallationSecrets where
  signingSeed : Option WrappedKey
  enclaveMldsa65 : Option WrappedSigningReference
deriving DecidableEq, Repr

structure InstallationSecrets where
  rootKey : Key
  indexKey : Digest
  wrappedSigningSeed : Option WrappedKey
  wrappedEnclaveKey : Option WrappedSigningReference
deriving DecidableEq, Repr

def WrappedInstallationSecrets.validate (wrapped : WrappedInstallationSecrets) : VaultResult Unit :=
  match wrapped.signingSeed, wrapped.enclaveMldsa65 with
  | some seed, none => seed.validate
  | none, some reference =>
    ensure (reference.encryptionAlgorithm = .aes256Gcm ∧ 17 ≤ reference.ciphertext.length ∧
        reference.ciphertext.length ≤ 32768 + 16)
      (.protection "installation must contain exactly one valid signing provider")
  | _, _ => .error (.protection "installation must contain exactly one valid signing provider")

def WrappedInstallationSecrets.usesEnclaveSigner (wrapped : WrappedInstallationSecrets) : Bool :=
  wrapped.enclaveMldsa65.isSome

/-- `derive_index_key`. -/
def deriveIndexKey (rootKey : Key) (installation : InstallationId) (vault : VaultId) : Digest :=
  env.hmac rootKey (utf8 "factorseal/index-key/v1\x00" ++ installation.toList ++ vault.toList)

/-- `VaultPlatform` (seal.rs:905-931). -/
inductive VaultPlatform where
  | android
  | ios
  | linux
  | macos
  | windows
deriving DecidableEq, Repr

def VaultPlatform.asStr : VaultPlatform → String
  | android => "android"
  | ios => "ios"
  | linux => "linux"
  | macos => "macos"
  | windows => "windows"

namespace InstallationSecrets

/-- The secrets under a root key. -/
def retain (rootKey : Key) (installation : InstallationId) (vault : VaultId) (wrapped : WrappedInstallationSecrets) :
    InstallationSecrets :=
  ⟨rootKey, deriveIndexKey env rootKey installation vault, wrapped.signingSeed, wrapped.enclaveMldsa65⟩

/-- `generate`: the seed is wrapped under the root key. -/
def generate (draw : Nat) (installation : InstallationId) (vault : VaultId) (rootKey : Key) (seed : Key) :
    InstallationSecrets × WrappedInstallationSecrets :=
  let wrapped : WrappedInstallationSecrets :=
    ⟨some (wrapKey env draw rootKey (installationKeyAad installation vault signingSeedPurpose) seed), none⟩
  (retain env rootKey installation vault wrapped, wrapped)

/-- `generate_new`: a key of the Secure Enclave where there is one, otherwise a seed. -/
def generateNew (draw : Nat) (installation : InstallationId) (vault : VaultId) (rootKey : Key)
    (platform : VaultPlatform) (nativeSigning : Bool) :
    VaultResult (InstallationSecrets × WrappedInstallationSecrets) :=
  let native := env.enclave.filter fun enclave => nativeSigning && platform = .macos && enclave.available
  match native with
  | some enclave => do
    let reference ← failure .protection (enclave.generate draw)
    let nonce := env.random 12 (draw + 1)
    let wrapped : WrappedInstallationSecrets := ⟨none, some ⟨.aes256Gcm, nonce,
      env.aeadSeal rootKey nonce (installationKeyAad installation vault enclavePurpose) reference⟩⟩
    return (retain env rootKey installation vault wrapped, wrapped)
  | none => .ok (generate env (draw + 1) installation vault rootKey (env.random 32 draw))

/-- `enclave_signer`, up to its public key. -/
def enclavePublicKey (secrets : InstallationSecrets) (installation : InstallationId) (vault : VaultId) :
    VaultResult Bytes :=
  match env.enclave with
  | some enclave => do
    let wrapped ← ofOption (.protection "missing enclave signing reference") secrets.wrappedEnclaveKey
    let reference ← ofOption (.protection "cannot authenticate enclave signing reference")
      (env.aeadOpen secrets.rootKey wrapped.nonce (installationKeyAad installation vault enclavePurpose)
        wrapped.ciphertext)
    failure .protection (enclave.publicKey reference)
  | none => .error (.protection "this vault requires macOS 26+ Secure Enclave signing support")

/-- `signing_seed`. -/
def signingSeed (secrets : InstallationSecrets) (installation : InstallationId) (vault : VaultId) : VaultResult Key := do
  let wrapped ← ofOption (.protection "Secure Enclave signing keys have no exportable seed") secrets.wrappedSigningSeed
  unwrapKey env secrets.rootKey (installationKeyAad installation vault signingSeedPurpose) wrapped
    "operational signing seed"

/-- `signer`, up to its public key. -/
def publicKey (secrets : InstallationSecrets) (installation : InstallationId) (vault : VaultId) : VaultResult Bytes :=
  if secrets.wrappedEnclaveKey.isSome then secrets.enclavePublicKey env installation vault
  else do return env.publicKeyForSeed (← secrets.signingSeed env installation vault)

/-- `open`: the signing capability is authenticated before anything else. -/
def openSecrets (installation : InstallationId) (vault : VaultId) (rootKey : Key)
    (wrapped : WrappedInstallationSecrets) : VaultResult InstallationSecrets := do
  wrapped.validate
  match wrapped.signingSeed with
  | some seed =>
    let _ ← unwrapKey env rootKey (installationKeyAad installation vault signingSeedPurpose) seed
      "operational signing seed"
  | none => pure ()
  let secrets := retain env rootKey installation vault wrapped
  if secrets.wrappedEnclaveKey.isSome then
    let _ ← secrets.enclavePublicKey env installation vault
  return secrets

end InstallationSecrets

/-! ## Passwords (factor.rs) -/

inductive VaultCryptoProfile where
  | default
  | fips
deriving DecidableEq, Repr

inductive FactorParameters where
  | argon2id (version memoryKib iterations parallelism : UInt32) (salt : Vector UInt8 16)
  | pbkdf2HmacSha256 (iterations : UInt32) (salt : Vector UInt8 16)
deriving DecidableEq, Repr

/-- `NestedFactorKind` of the parameters. -/
def FactorParameters.kind : FactorParameters → String
  | argon2id _ _ _ _ _ => "argon2id-password"
  | pbkdf2HmacSha256 _ _ => "pbkdf2-hmac-sha256-password"

structure NestedProtection where
  factor : FactorParameters
  encryptionAlgorithm : EncryptionAlgorithm
  vaultRootKeyNonce : Nonce
deriving DecidableEq, Repr

/-- `validate_factor_parameters`. -/
def FactorParameters.validate (parameters : FactorParameters) : VaultResult Unit :=
  let valid : Bool := match parameters with
    | .argon2id version memoryKib iterations parallelism _ =>
      version = 0x13 && (8 * 1024 ≤ memoryKib && memoryKib ≤ 256 * 1024) && (1 ≤ iterations && iterations ≤ 10) &&
        (1 ≤ parallelism && parallelism ≤ 16)
    | .pbkdf2HmacSha256 iterations _ => 1000 ≤ iterations && iterations ≤ 10000000
  ensure (valid = true) (.protection "unsupported or unsafe nested-factor parameters")

/-- The profile that has the parameters' derivation. -/
def FactorParameters.profile : FactorParameters → VaultCryptoProfile
  | argon2id _ _ _ _ _ => .default
  | pbkdf2HmacSha256 _ _ => .fips

/-- `factor_empty_error`. -/
def factorEmptyError (kind : String) : VaultError := .protection ("the " ++ kind ++ " factor must not be empty")

/-- `new_factor_parameters`. -/
def newFactorParameters (draw : Nat) (password : Bytes) (profile : VaultCryptoProfile) :
    VaultResult FactorParameters :=
  let parameters : FactorParameters :=
    match profile with
    | .default => .argon2id 0x13 (128 * 1024) 3 1 (env.random 16 draw)
    | .fips => .pbkdf2HmacSha256 600000 (env.random 16 draw)
  if password = [] then .error (factorEmptyError parameters.kind) else .ok parameters

/-- `derive_factor_key`. -/
def deriveFactorKey (password : Bytes) (parameters : FactorParameters) : VaultResult Key := do
  parameters.validate
  ensure (password ≠ []) (factorEmptyError parameters.kind)
  match parameters with
  | .argon2id _ memoryKib iterations parallelism salt =>
    failure (fun message => .protection ("factor derivation failed: " ++ message))
      (env.argon2id memoryKib iterations parallelism salt password)
  | .pbkdf2HmacSha256 iterations salt => return env.pbkdf2 password salt iterations

/-- `factor_aad` for the root key. -/
def factorAad (installation : InstallationId) : Bytes :=
  utf8 "factorseal/vault-factor/v2\x00" ++ (installation.toList ++ framed (utf8 "vault-root-key"))

/-- `protect_with_factor`. -/
def protectWithFactor (draw : Nat) (installation : InstallationId) (rootKey : Key) (password : Bytes)
    (profile : VaultCryptoProfile) : VaultResult (Bytes × NestedProtection) := do
  let parameters ← newFactorParameters env draw password profile
  let factorKey ← deriveFactorKey env password parameters
  let nonce := env.random 12 (draw + 1)
  return (env.aeadSeal factorKey nonce (factorAad installation) rootKey.toList, ⟨parameters, .aes256Gcm, nonce⟩)

/-- `decode_key` for the root key. -/
def decodeRootKey (payload : Bytes) : VaultResult Key :=
  ofOption (.protection ("unwrapped vault root key has " ++ toString payload.length ++ " bytes")) (keyOfBytes payload)

/-- `unprotect_with_factor`. -/
def unprotectWithFactor (installation : InstallationId) (protection : NestedProtection) (payload password : Bytes) :
    VaultResult Key := do
  let factorKey ← deriveFactorKey env password protection.factor
  let rootKey ← ofOption .passwordRejected
    (env.aeadOpen factorKey protection.vaultRootKeyNonce (factorAad installation) payload)
  decodeRootKey rootKey

/-! ## What was made opens again -/

section

variable {env} {draw : Nat} {installation : InstallationId} {rootKey : Key} {password payload : Bytes}
  {profile : VaultCryptoProfile} {protection : NestedProtection}

theorem decodeRootKey_toList : decodeRootKey rootKey.toList = .ok rootKey := by simp [decodeRootKey]

/-- A payload made under a password: how it is encrypted, and that it opens. -/
theorem protectWithFactor_eq_ok
    (h : protectWithFactor env draw installation rootKey password profile = .ok (payload, protection)) :
    ∃ factorKey, deriveFactorKey env password protection.factor = .ok factorKey ∧
      payload = env.aeadSeal factorKey protection.vaultRootKeyNonce (factorAad installation) rootKey.toList := by
  simp only [protectWithFactor, bind_eq_ok] at h
  obtain ⟨parameters, -, factorKey, hkey, h⟩ := h
  cases h
  exact ⟨factorKey, hkey, rfl⟩

theorem unprotectWithFactor_of_protect
    (h : protectWithFactor env draw installation rootKey password profile = .ok (payload, protection)) :
    unprotectWithFactor env installation protection payload password = .ok rootKey := by
  obtain ⟨factorKey, hkey, rfl⟩ := protectWithFactor_eq_ok h
  rw [unprotectWithFactor, hkey, ok_bind, env.aeadOpen_seal, ofOption_some, ok_bind, decodeRootKey_toList]

end

end FactorSeal.Seal

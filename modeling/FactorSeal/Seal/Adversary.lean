import FactorSeal.Lib.Aead
import FactorSeal.Seal.Protectors

/-! # Metadata that someone else has edited

Someone who does not know the root key writes any metadata file with the vault's public signing key: other slots, other
parameters, parts of other vaults. What the hardware answers is left open. The public key determines the signing key, and
the signing key was encrypted once, under the root key and bound to the installation, so whatever opens has that root key
(`Guarded.secrets_eq`). A payload that was made under a password opens under no other (`Guarded.password_eq`). -/

namespace FactorSeal.Seal

open Wire Except InstallationSecrets List

variable {nonce : Nonce}

/-- What an installation signs with. -/
inductive Capability where
  | seed (key : Key)
  | reference (bytes : Bytes)
deriving DecidableEq

namespace Capability

def plaintext : Capability → Bytes
  | seed key => key.toList
  | reference bytes => bytes

def purpose : Capability → Bytes
  | seed _ => signingSeedPurpose
  | reference _ => enclavePurpose

/-- The capability as the file keeps it. -/
def wrap (nonce : Nonce) (ciphertext : Bytes) : Capability → WrappedInstallationSecrets
  | seed _ => ⟨some ⟨.aes256Gcm, nonce, ciphertext⟩, none⟩
  | reference _ => ⟨none, some ⟨.aes256Gcm, nonce, ciphertext⟩⟩

/-- What is kept tells which kind of key it is. -/
theorem wrap_inj {c d : Capability} {m n : Nonce} {x y : Bytes} (h : wrap m x c = wrap n y d) :
    m = n ∧ x = y ∧ c.purpose = d.purpose ∧ (c.plaintext = d.plaintext → c = d) := by
  cases c with
  | seed key =>
    cases d with
    | seed other =>
      cases h
      exact ⟨rfl, rfl, rfl, fun hkeys => congrArg seed (Vector.toList_inj.1 hkeys)⟩
    | reference bytes => cases h
  | reference bytes =>
    cases d with
    | seed key => cases h
    | reference other =>
      cases h
      exact ⟨rfl, rfl, rfl, fun hbytes => congrArg reference hbytes⟩

end Capability

/-- The public key of a capability. -/
inductive Signs (env : SealEnv) : Capability → Bytes → Prop
  | seed (key : Key) : Signs env (.seed key) (env.publicKeyForSeed key)
  | reference {enclave : Enclave} {bytes publicKey : Bytes} (henclave : env.enclave = some enclave)
      (hkey : enclave.publicKey bytes = .ok publicKey) : Signs env (.reference bytes) publicKey

/-- The encryption of the repository. -/
def SealEnv.scheme (env : SealEnv) : Aead.Scheme Key Nonce Bytes Bytes := ⟨env.aeadSeal, env.aeadOpen⟩

section

variable {env : SealEnv} {installation : InstallationId} {vaultId : VaultId} {rootKey : Key}
  {wrapped : WrappedInstallationSecrets} {credentials : UnlockCredentials} {file : VaultFile} {capability : Capability}

/-- A signing key that is used was in the file, encrypted under the root key. -/
theorem exists_capability {publicKey : Bytes} (hvalid : wrapped.validate = .ok ())
    (hkey : (InstallationSecrets.retain env rootKey installation vaultId wrapped).publicKey env installation vaultId =
      .ok publicKey) : ∃ capability nonce ciphertext, wrapped = Capability.wrap nonce ciphertext capability ∧
      env.aeadOpen rootKey nonce (installationKeyAad installation vaultId capability.purpose) ciphertext =
        some capability.plaintext ∧ Signs env capability publicKey := by
  obtain ⟨seed, reference⟩ := wrapped
  cases seed with
  | some seed =>
    cases reference with
    | some reference => cases hvalid
    | none =>
      simp only [InstallationSecrets.publicKey, InstallationSecrets.retain, InstallationSecrets.signingSeed,
        Option.isSome_none, Bool.false_eq_true, if_false, bind_eq_ok, ofOption_some, ok_bind, unwrapKey,
        ofOption_eq_ok] at hkey
      obtain ⟨key, ⟨⟨⟩, -, plaintext, hopen, hplaintext⟩, hpublic⟩ := hkey
      cases hpublic
      have hbytes := keyOfBytes_eq_some hplaintext
      subst hbytes
      obtain ⟨⟨⟩, nonce, ciphertext⟩ := seed
      exact ⟨.seed key, nonce, ciphertext, rfl, hopen, .seed key⟩
  | none =>
    cases reference with
    | none => cases hvalid
    | some reference =>
      simp only [InstallationSecrets.publicKey, InstallationSecrets.retain, Option.isSome_some, if_true,
        InstallationSecrets.enclavePublicKey] at hkey
      split at hkey
      next enclave henclave =>
        simp only [ofOption_some, ok_bind, bind_eq_ok, ofOption_eq_ok, failure_eq_ok] at hkey
        obtain ⟨bytes, hopen, hpublic⟩ := hkey
        obtain ⟨⟨⟩, nonce, ciphertext⟩ := reference
        exact ⟨.reference bytes, nonce, ciphertext, rfl, hopen, .reference henclave hpublic⟩
      next => cases hkey

/-- The associated data of an installation key names the installation and the vault. -/
theorem installationKeyAad_inj {installation' : InstallationId} {vaultId' : VaultId} {purpose : Bytes}
    (h : installationKeyAad installation vaultId purpose = installationKeyAad installation' vaultId' purpose) :
    installation = installation' ∧ vaultId = vaultId' := by
  have hrest := append_cancel_left h
  obtain ⟨hinstallation, hrest⟩ := append_inj hrest (by simp)
  obtain ⟨hvault, -⟩ := append_inj hrest (by simp)
  exact ⟨Vector.toList_inj.1 hinstallation, Vector.toList_inj.1 hvault⟩

/-- The signing key of a new vault, as it is encrypted. -/
theorem generateNew_capability {draw : Nat} {platform : VaultPlatform} {native : Bool} {secrets : InstallationSecrets}
    (h : generateNew env draw installation vaultId rootKey platform native =
      .ok (secrets, wrapped)) : ∃ capability nonce, wrapped = Capability.wrap nonce (env.aeadSeal rootKey nonce
      (installationKeyAad installation vaultId capability.purpose) capability.plaintext) capability := by
  unfold generateNew at h
  dsimp only at h
  split at h
  · simp only [bind_eq_ok] at h
    obtain ⟨reference, -, h⟩ := h
    cases h
    exact ⟨.reference reference, _, rfl⟩
  · cases h
    exact ⟨.seed (env.random 32 draw), _, rfl⟩

/-- The signing key of the vault has the public key of the file. -/
theorem Creates.signs {creation : VaultCreation} {policy : UnlockPolicy} {protectors : List SlotProtector}
    {vault : UnsealedVault} (h : Creates env creation policy protectors credentials vault file)
    (hwrapped : file.wrappedInstallationSecrets = Capability.wrap nonce (env.aeadSeal vault.secrets.rootKey nonce
      (installationKeyAad file.installationId file.deviceVaultId capability.purpose) capability.plaintext) capability) :
    Signs env capability file.publicSigningKey := by
  have hkey := h.publicKey
  rw [h.secrets] at hkey
  obtain ⟨used, m, ciphertext, hused, hopen, hsigns⟩ := exists_capability (VaultFile.wrapped_valid h.valid) hkey
  obtain ⟨rfl, rfl, hpurpose, heq⟩ := Capability.wrap_inj (hused.symm.trans hwrapped)
  rw [hpurpose, env.aeadOpen_seal] at hopen
  rw [← heq (Option.some.inj hopen).symm]
  exact hsigns

/-- What unsealing has done where it succeeds. -/
theorem unsealWithProtectors_eq_ok {slot : UnlockSlot} {wrapping : KeyProtector} {result : UnsealedVault}
    (h : unsealWithProtectors env file slot wrapping credentials = .ok result) :
    ∃ payload rootKey, wrapping.unwrap slot.wrappedVaultRootKey = .ok payload ∧
      openRootKey env file.installationId slot credentials payload = .ok rootKey ∧
      file.wrappedInstallationSecrets.validate = .ok () ∧
      result.secrets = retain env rootKey file.installationId file.deviceVaultId
        file.wrappedInstallationSecrets ∧
      result.secrets.publicKey env file.installationId file.deviceVaultId = .ok file.publicSigningKey := by
  simp only [unsealWithProtectors, bind_eq_ok, ensure_eq_ok] at h
  obtain ⟨⟨⟩, hvalid, ⟨⟩, -, payload, hpayload, rootKey, hroot, secrets, hsecrets, publicKey, hpublic, ⟨⟩,
    ⟨rfl, -, -⟩, h⟩ := h
  cases h
  refine ⟨payload, rootKey, hpayload, hroot, VaultFile.wrapped_valid hvalid, ?_, hpublic⟩
  exact openSecrets_eq_ok hsecrets

/-! ## What is assumed -/

/-- The encryptions of a creation: the signing key under the root key, and the root key under each password. -/
inductive Created (env : SealEnv) (file : VaultFile) (rootKey : Key) (credentials : UnlockCredentials) :
    Aead.Sealing Key Nonce Bytes Bytes → Prop
  | signing {capability : Capability} {nonce : Nonce}
      (h : file.wrappedInstallationSecrets = Capability.wrap nonce (env.aeadSeal rootKey nonce
        (installationKeyAad file.installationId file.deviceVaultId capability.purpose) capability.plaintext) capability) :
      Created env file rootKey credentials ⟨rootKey, nonce,
        installationKeyAad file.installationId file.deviceVaultId capability.purpose, capability.plaintext⟩
  | payload {slot : UnlockSlot} {protection : NestedProtection} {password : Bytes} {key : Key}
      (hslot : slot ∈ file.unlockSlots) (hprotection : slot.passwordProtection = some protection)
      (hpassword : credentials.password = some password)
      (hkey : deriveFactorKey env password protection.factor = .ok key) :
      Created env file rootKey credentials
        ⟨key, protection.vaultRootKeyNonce, factorAad file.installationId, rootKey.toList⟩

/-- Ideal cryptography for a vault that was created. Encryptions of other vaults are `honest` too. -/
structure Guarded (env : SealEnv) (file : VaultFile) (rootKey : Key) (credentials : UnlockCredentials)
    (honest : Set (Aead.Sealing Key Nonce Bytes Bytes)) (knows : Bytes → Prop) : Prop where
  ideal : Aead.Ideal env.scheme honest knows
  created : ∀ s, Created env file rootKey credentials s → s ∈ honest
  /-- The root key is not known, and the signing key is encrypted under nothing else. -/
  root : ¬ knows rootKey.toList
  secret : ∀ capability, Signs env capability file.publicSigningKey → knows capability.plaintext → knows rootKey.toList
  /-- The signing key was drawn for this vault, and is encrypted once. -/
  fresh : ∀ capability, Signs env capability file.publicSigningKey → ∀ s ∈ honest, ∀ t ∈ honest,
    s.plaintext = capability.plaintext → t.plaintext = capability.plaintext → s = t
  /-- A public key belongs to one signing key. -/
  signs : ∀ c d, Signs env c file.publicSigningKey → Signs env d file.publicSigningKey → c = d
  /-- A key that was derived is derived from no other password, with any parameters. -/
  derives : ∀ slot ∈ file.unlockSlots, ∀ protection, slot.passwordProtection = some protection →
    ∀ password, credentials.password = some password → ∀ key, deriveFactorKey env password protection.factor = .ok key →
      ∀ other parameters, deriveFactorKey env other parameters = .ok key → other = password

/-- Whoever wrote the file knows the signing ciphertext in it. -/
structure Written (knows : Bytes → Prop) (file : VaultFile) : Prop where
  seed : ∀ wrapped, file.wrappedInstallationSecrets.signingSeed = some wrapped → knows wrapped.ciphertext
  reference : ∀ wrapped, file.wrappedInstallationSecrets.enclaveMldsa65 = some wrapped → knows wrapped.ciphertext

theorem Written.knows_ciphertext {knows : Bytes → Prop} (h : Written knows file) {ciphertext : Bytes}
    (hwrapped : file.wrappedInstallationSecrets = Capability.wrap nonce ciphertext capability) : knows ciphertext := by
  cases capability with
  | seed key => exact h.seed ⟨.aes256Gcm, nonce, ciphertext⟩ (by rw [hwrapped]; rfl)
  | reference bytes => exact h.reference ⟨.aes256Gcm, nonce, ciphertext⟩ (by rw [hwrapped]; rfl)

/-- The payload that a slot of the created file has under a password. -/
def PasswordPayload (protectors : List SlotProtector) (file : VaultFile) (payload : Bytes) : Prop :=
  ∃ p ∈ protectors, ∃ slot ∈ file.unlockSlots, slot.group = p.group ∧ slot.passwordProtection.isSome = true ∧
    p.key.unwrap slot.wrappedVaultRootKey = .ok payload

/-! ## What follows -/

namespace Guarded

variable {creation : VaultCreation} {policy : UnlockPolicy} {protectors : List SlotProtector}
  {credentials credentials' : UnlockCredentials} {vault result : UnsealedVault} {file file' : VaultFile}
  {slot' : UnlockSlot} {wrapping : KeyProtector} {honest : Set (Aead.Sealing Key Nonce Bytes Bytes)}
  {knows : Bytes → Prop}

/-- Whatever opens has the secrets of the vault. -/
theorem secrets_eq (g : Guarded env file vault.secrets.rootKey credentials honest knows)
    (h : Creates env creation policy protectors credentials vault file)
    (hsame : file'.publicSigningKey = file.publicSigningKey) (hwritten : Written knows file')
    (hunseal : unsealWithProtectors env file' slot' wrapping credentials' = .ok result) :
    result.secrets = vault.secrets := by
  obtain ⟨payload, rootKey, -, -, hvalid, hsecrets, hpublic⟩ := unsealWithProtectors_eq_ok hunseal
  rw [hsecrets, hsame] at hpublic
  -- The signing key that was opened, and the one that was created.
  obtain ⟨capability, nonce, ciphertext, hwrapped, hopen, hsigns⟩ := exists_capability hvalid hpublic
  obtain ⟨draw, hgenerated⟩ := h.generated
  obtain ⟨original, nonce₀, hwrapped₀⟩ := generateNew_capability hgenerated
  have hsigns₀ : Signs env original file.publicSigningKey := h.signs hwrapped₀
  have hcapability := g.signs _ _ hsigns hsigns₀
  subst hcapability
  -- It is not known, so it was encrypted by a creation, and there is one encryption of it.
  have hsecret : ¬ knows capability.plaintext := fun hknows => g.root (g.secret _ hsigns hknows)
  obtain ⟨hhonest, hciphertext⟩ := g.ideal.mem_honest (hwritten.knows_ciphertext hwrapped) hopen hsecret
  have hsealing := g.fresh _ hsigns _ hhonest _ (g.created _ (.signing hwrapped₀)) rfl rfl
  obtain ⟨hroot, hnonce, haad, -⟩ := Aead.Sealing.mk.inj hsealing
  obtain ⟨hinstallation, hvault⟩ := installationKeyAad_inj haad
  have hfile : file'.wrappedInstallationSecrets = file.wrappedInstallationSecrets := by
    rw [hwrapped, hwrapped₀, hciphertext, hroot, hnonce, haad]
    rfl
  rw [hsecrets, h.secrets, hroot, hinstallation, hvault, hfile]

/-- A payload that was made under the password opens under no other. -/
theorem password_eq (g : Guarded env file vault.secrets.rootKey credentials honest knows)
    (h : Creates env creation policy protectors credentials vault file) (hopens : ∀ p ∈ protectors, p.key.Opens)
    {payload : Bytes} (hpayload : PasswordPayload protectors file payload)
    (hroot : openRootKey env file'.installationId slot' credentials' payload = .ok rootKey) :
    credentials'.password = credentials.password := by
  obtain ⟨p, hp, slot, hslot, hgroup, hprotected, hunwrap⟩ := hpayload
  obtain ⟨protection, hprotection⟩ := Option.isSome_iff_exists.1 hprotected
  obtain ⟨password, key, hpassword, hkey, hmade⟩ := h.password_payload hopens hp hslot hgroup hprotection hunwrap
  have hhonest := g.created _ (.payload hslot hprotection hpassword hkey)
  unfold openRootKey at hroot
  split at hroot
  next protection' hprotection' =>
    simp only [unprotectWithFactor, bind_eq_ok, ofOption_eq_ok] at hroot
    obtain ⟨given, hgiven, other, rfl, key', hkey', opened, hopen, -⟩ := hroot
    have hsealing := g.ideal.bound _ hhonest key' protection'.vaultRootKeyNonce (factorAad file'.installationId) opened
      (by rw [hmade] at hopen; exact hopen)
    obtain ⟨hsame, -⟩ := Aead.Sealing.mk.inj hsealing
    subst hsame
    have hother := g.derives slot hslot protection hprotection password hpassword _ hkey other _ hkey'
    rw [(UnlockCredentials.passwordFor_eq_some hgiven).2, hpassword, hother]
  next =>
    -- Without a password the payload would be the root key itself, and it is longer.
    simp only [bind_eq_ok, ensure_eq_ok, decodeRootKey, ofOption_eq_ok] at hroot
    obtain ⟨⟨⟩, -, hdecode⟩ := hroot
    have hlength := congrArg length (keyOfBytes_eq_some hdecode)
    rw [hmade, env.length_aeadSeal] at hlength
    simp at hlength

end Guarded

end

/-! ## An instance

Two groups, and an encryption whose tag tells the two encryptions of the creation from all others. -/

namespace Sample

variable {key : Key} {aad : Bytes}

def installationId : InstallationId := .replicate 16 1
def vaultId : VaultId := .replicate 16 2
def rootKey : Key := .replicate 32 1
def signingSeed : Key := .replicate 32 8
def factorKey : Key := .replicate 32 7
def password : Bytes := [112, 119]

def signing : Aead.Sealing Key Nonce Bytes Bytes :=
  ⟨rootKey, .replicate 12 9, installationKeyAad installationId vaultId signingSeedPurpose, signingSeed.toList⟩

def payload : Aead.Sealing Key Nonce Bytes Bytes :=
  ⟨factorKey, .replicate 12 3, factorAad installationId, rootKey.toList⟩

def tag (key : Key) (nonce : Nonce) (aad : Bytes) : Bytes :=
  if key = signing.key ∧ nonce = signing.nonce ∧ aad = signing.aad then replicate 16 1
  else if key = payload.key ∧ nonce = payload.nonce ∧ aad = payload.aad then replicate 16 2
  else replicate 16 0

theorem length_tag (key : Key) (nonce : Nonce) (aad : Bytes) : (tag key nonce aad).length = 16 := by
  unfold tag
  split
  · rfl
  · split <;> rfl

def openTagged (key : Key) (nonce : Nonce) (aad ciphertext : Bytes) : Option Bytes :=
  if ciphertext.drop (ciphertext.length - 16) = tag key nonce aad then some (ciphertext.take (ciphertext.length - 16))
  else none

theorem openTagged_append (key : Key) (nonce : Nonce) (aad plaintext : Bytes) :
    openTagged key nonce aad (plaintext ++ tag key nonce aad) = some plaintext := by
  have hlength : (plaintext ++ tag key nonce aad).length - 16 = plaintext.length := by
    rw [length_append, length_tag]
    omega
  rw [openTagged, hlength, drop_left, take_left, if_pos rfl]

/-- What opens has the tag at its end. -/
theorem openTagged_eq_some {plaintext tail opened : Bytes} (htail : tail.length = 16)
    (h : openTagged key nonce aad (plaintext ++ tail) = some opened) : tail = tag key nonce aad ∧ opened = plaintext := by
  have hlength : (plaintext ++ tail).length - 16 = plaintext.length := by
    rw [length_append, htail]
    omega
  rw [openTagged, hlength, drop_left, take_left] at h
  split at h
  next htag => exact ⟨htag, (Option.some.inj h).symm⟩
  next => cases h

def env : SealEnv where
  sha256 _ := .replicate 32 0
  hmac _ _ := .replicate 32 0
  aeadSeal key nonce aad plaintext := plaintext ++ tag key nonce aad
  aeadOpen := openTagged
  aeadOpen_seal := openTagged_append
  length_aeadSeal key nonce aad plaintext := by rw [length_append, length_tag]
  argon2id _ _ _ _ given := .ok (if given = password then factorKey else .replicate 32 6)
  pbkdf2 given _ _ := if given = password then factorKey else .replicate 32 6
  publicKeyForSeed := Vector.toList
  enclave := none
  random k draw := .replicate k (UInt8.ofNat draw)

/-- A hardware key that marks what it wraps. -/
def hardware (mark : UInt8) : KeyProtector where
  backend := .tpm
  wrap _ plaintext := .ok (mark :: plaintext)
  unwrap
    | [] => .error (.protection "not wrapped")
    | first :: rest => if first = mark then .ok rest else .error (.protection "not wrapped by this key")

theorem hardware_opens (mark : UInt8) : (hardware mark).Opens := by
  intro draw plaintext ciphertext h
  cases h
  exact if_pos rfl

def protectors : List SlotProtector :=
  [⟨⟨[.password]⟩, "password", hardware 1⟩, ⟨⟨[.biometric]⟩, "biometric", hardware 2⟩]

def policy : UnlockPolicy := ⟨1, [⟨[.password]⟩, ⟨[.biometric]⟩]⟩
def creation : VaultCreation := ⟨installationId, vaultId, 5, .linux, .default, false⟩
def credentials : UnlockCredentials := ⟨some password⟩

def protection : NestedProtection := ⟨.argon2id 0x13 (128 * 1024) 3 1 (.replicate 16 2), .aes256Gcm, payload.nonce⟩

def slot : UnlockSlot := ⟨⟨[.password]⟩, "password", 1 :: env.scheme.ciphertext payload, some protection⟩

def wrapped : WrappedInstallationSecrets := ⟨some ⟨.aes256Gcm, signing.nonce, env.scheme.ciphertext signing⟩, none⟩

def file : VaultFile where
  format := "factorseal-vault"
  version := 8
  installationId := installationId
  deviceVaultId := vaultId
  deviceKeyId := .replicate 32 0
  publicSigningKey := signingSeed.toList
  actorId := (Vector.replicate 32 0).toList
  platform := .linux
  hardwareBackend := "tpm"
  cryptographicProfile := .default
  unlockPolicy := policy
  preferredUnlockGroup := some ⟨[.password]⟩
  unlockSlots := [slot, ⟨⟨[.biometric]⟩, "biometric", 2 :: rootKey.toList, none⟩]
  wrappedInstallationSecrets := wrapped
  createdAt := 5

def secrets : InstallationSecrets := retain env rootKey installationId vaultId wrapped

theorem created : createWithProtectors env 1 creation policy protectors credentials =
    .ok (⟨file.publicMetadata, secrets, true⟩, file) := by
  decide +kernel

/-- Only the group with the password is left, under another label and date. -/
def editedSlot : UnlockSlot := { slot with wrappingKeyLabel := "edited" }

def edited : VaultFile :=
  { file with
    unlockPolicy := ⟨1, [⟨[.password]⟩]⟩
    preferredUnlockGroup := none
    unlockSlots := [editedSlot]
    createdAt := 0 }

def honest : Set (Aead.Sealing Key Nonce Bytes Bytes) := {signing, payload}

/-- Who wrote the edited file knows its signing ciphertext. -/
def knows (bytes : Bytes) : Prop := bytes = env.scheme.ciphertext signing

theorem eq_of_tag_signing (h : replicate 16 1 = tag key nonce aad) :
    key = signing.key ∧ nonce = signing.nonce ∧ aad = signing.aad := by
  unfold tag at h
  split at h
  next hsame => exact hsame
  next =>
    split at h
    · exact absurd h (by decide)
    · exact absurd h (by decide)

theorem eq_of_tag_payload (h : replicate 16 2 = tag key nonce aad) :
    key = payload.key ∧ nonce = payload.nonce ∧ aad = payload.aad := by
  unfold tag at h
  split at h
  next => exact absurd h (by decide)
  next =>
    split at h
    next hsame => exact hsame
    next => exact absurd h (by decide)

theorem ciphertext_signing : env.scheme.ciphertext signing = signing.plaintext ++ replicate 16 1 :=
  congrArg (signing.plaintext ++ ·) (if_pos ⟨rfl, rfl, rfl⟩)

theorem ciphertext_payload : env.scheme.ciphertext payload = payload.plaintext ++ replicate 16 2 := by
  decide +kernel

theorem ideal : Aead.Ideal env.scheme honest knows where
  bound := by
    rintro s (rfl | rfl) key nonce aad plaintext h
    · rw [ciphertext_signing] at h
      obtain ⟨htag, rfl⟩ := openTagged_eq_some (by rfl) h
      obtain ⟨rfl, rfl, rfl⟩ := eq_of_tag_signing htag
      rfl
    · rw [ciphertext_payload] at h
      obtain ⟨htag, rfl⟩ := openTagged_eq_some (by rfl) h
      obtain ⟨rfl, rfl, rfl⟩ := eq_of_tag_payload htag
      rfl
  authentic := fun _ _ _ _ _ hknows _ => .inl ⟨signing, .inl rfl, hknows⟩

/-- Only one signing key has the public key. -/
theorem signs_eq {capability : Capability} (h : Signs env capability file.publicSigningKey) :
    capability = .seed signingSeed := by
  generalize hkey : file.publicSigningKey = publicKey at h
  cases h with
  | seed key => exact congrArg Capability.seed (Vector.toList_inj.1 hkey.symm)
  | reference henclave _ => cases henclave

theorem derives_eq {given : Bytes} {parameters : FactorParameters}
    (h : deriveFactorKey env given parameters = .ok factorKey) : given = password := by
  simp only [deriveFactorKey, bind_eq_ok, ensure_eq_ok] at h
  obtain ⟨⟨⟩, -, ⟨⟩, -, h⟩ := h
  by_contra hne
  have hother : factorKey ≠ Vector.replicate 32 6 := by decide
  cases parameters with
  | argon2id version memoryKib iterations parallelism salt =>
    have hkey := Except.ok.inj (failure_eq_ok.1 h)
    rw [if_neg hne] at hkey
    exact hother hkey.symm
  | pbkdf2HmacSha256 iterations salt =>
    have hkey := Except.ok.inj h
    dsimp only [env] at hkey
    rw [if_neg hne] at hkey
    exact hother hkey.symm

theorem not_knows {bytes : Bytes} (h : bytes.length = 32) : ¬ knows bytes := by
  intro hknows
  have hlength := congrArg length hknows
  rw [ciphertext_signing, h] at hlength
  exact absurd hlength (by decide)

/-- A slot with a password is the first one. -/
theorem slot_protection {s : UnlockSlot} (hs : s ∈ file.unlockSlots) {p : NestedProtection}
    (hp : s.passwordProtection = some p) : p = protection := by
  rcases mem_cons.1 hs with rfl | hs
  · exact (Option.some.inj hp).symm
  · obtain rfl := mem_singleton.1 hs
    cases hp

theorem derived : deriveFactorKey env password protection.factor = .ok factorKey := by decide +kernel

theorem guarded : Guarded env file rootKey credentials honest knows where
  ideal := ideal
  created := by
    intro s hs
    cases hs with
    | @signing capability nonce h =>
      obtain ⟨rfl, hciphertext, hpurpose, -⟩ := Capability.wrap_inj (c := .seed signingSeed) (m := signing.nonce)
        (x := env.scheme.ciphertext signing) h
      -- Tags have one length, so the plaintexts agree.
      have hplaintext : signing.plaintext = capability.plaintext :=
        (append_inj' hciphertext (by rw [length_tag, length_tag])).1
      left
      rw [← hpurpose, ← hplaintext]
      rfl
    | payload hslot hprotection hpassword hkey =>
      obtain rfl := slot_protection hslot hprotection
      obtain rfl := Option.some.inj hpassword
      obtain rfl := Except.ok.inj (derived.symm.trans hkey)
      exact .inr rfl
  root := not_knows (by decide)
  secret := by
    intro capability hsigns hknows
    rw [signs_eq hsigns] at hknows
    exact absurd hknows (not_knows (by decide))
  fresh := by
    intro capability hsigns s hs t ht hplain hplain'
    rw [signs_eq hsigns] at hplain hplain'
    have hpayload : payload.plaintext ≠ signingSeed.toList := by decide
    rcases hs with rfl | rfl
    · rcases ht with rfl | rfl
      · rfl
      · exact absurd hplain' hpayload
    · exact absurd hplain hpayload
  signs := fun c d hc hd => (signs_eq hc).trans (signs_eq hd).symm
  derives := by
    intro s hs p hp given hgiven key hkey other parameters hother
    obtain rfl := slot_protection hs hp
    obtain rfl := Option.some.inj hgiven
    obtain rfl := Except.ok.inj (derived.symm.trans hkey)
    exact derives_eq hother

theorem written : Written knows edited where
  seed := by
    intro w hw
    obtain rfl := Option.some.inj hw
    rfl
  reference := by
    intro w hw
    cases hw

/-- The hardware finds its keys by their labels. -/
def openKey (label : String) (_ : Bool) : VaultResult KeyProtector :=
  if label = "password" then .ok (hardware 1)
  else if label = "biometric" then .ok (hardware 2)
  else .error (.protection "no such key")

theorem openKey_eq : ∀ p ∈ protectors, openKey p.label (p.group.requires .biometric) = .ok p.key := by
  intro p hp
  rcases mem_cons.1 hp with rfl | hp
  · rfl
  · obtain rfl := mem_singleton.1 hp
    rfl

theorem protectors_open : ∀ p ∈ protectors, p.key.Opens := by
  intro p hp
  rcases mem_cons.1 hp with rfl | hp
  · exact hardware_opens 1
  · obtain rfl := mem_singleton.1 hp
    exact hardware_opens 2

theorem passwordPayload : PasswordPayload protectors file (env.scheme.ciphertext payload) :=
  ⟨_, mem_cons_self, slot, mem_cons_self, rfl, rfl, rfl⟩

def opened : UnsealedVault := ⟨edited.publicMetadata, secrets, false⟩

theorem unsealed : unsealWithProtectors env edited editedSlot (hardware 1) ⟨some [112, 119]⟩ = .ok opened := by
  decide +kernel

end Sample

/-! ## The result -/

/-- Every group opens the vault that was created, and whatever opens a file with its public key is that vault, with its
password where the payload was made under one. -/
theorem unseal_created {env : SealEnv} {draw : Nat} {creation : VaultCreation} {policy : UnlockPolicy}
    {protectors : List SlotProtector} {credentials : UnlockCredentials} {vault : UnsealedVault} {file : VaultFile}
    (hcreate : createWithProtectors env draw creation policy protectors credentials = .ok (vault, file))
    (hopens : ∀ p ∈ protectors, p.key.Opens) :
    (∀ openKey : String → Bool → VaultResult KeyProtector,
      (∀ p ∈ protectors, openKey p.label (p.group.requires .biometric) = .ok p.key) →
      ∀ group ∈ policy.groups,
        unsealGroup env file group credentials openKey = .ok ⟨file.publicMetadata, vault.secrets, false⟩) ∧
    ∀ honest knows, Guarded env file vault.secrets.rootKey credentials honest knows →
      ∀ (file' : VaultFile) (slot' : UnlockSlot) (wrapping : KeyProtector) (credentials' : UnlockCredentials)
        (result : UnsealedVault), file'.publicSigningKey = file.publicSigningKey → Written knows file' →
        unsealWithProtectors env file' slot' wrapping credentials' = .ok result →
          result.secrets = vault.secrets ∧
          ∀ payload, wrapping.unwrap slot'.wrappedVaultRootKey = .ok payload →
            PasswordPayload protectors file payload → credentials'.password = credentials.password := by
  have h := createWithProtectors_eq_ok hcreate
  refine ⟨fun openKey hkeys group hgroup => h.unsealGroup_eq hopens hkeys hgroup, ?_⟩
  intro honest knows g file' slot' wrapping credentials' result hsame hwritten hunseal
  refine ⟨g.secrets_eq h hsame hwritten hunseal, ?_⟩
  intro payload hpayload hcreated
  obtain ⟨opened, rootKey, hopened, hroot, -⟩ := unsealWithProtectors_eq_ok hunseal
  obtain rfl := Except.ok.inj (hopened.symm.trans hpayload)
  exact g.password_eq h hopens hcreated hroot

/-- The vault of two groups, and its file with one of them dropped and the other relabelled. -/
theorem unseal_created_edited :
    unsealGroup Sample.env Sample.file ⟨[.biometric]⟩ Sample.credentials Sample.openKey =
        .ok ⟨Sample.file.publicMetadata, Sample.secrets, false⟩ ∧
      unsealWithProtectors Sample.env Sample.edited Sample.editedSlot (Sample.hardware 1) ⟨some [112, 119]⟩ =
        .ok Sample.opened ∧
      Sample.opened.secrets = Sample.secrets ∧ some [112, 119] = Sample.credentials.password := by
  obtain ⟨hgroups, hedited⟩ := unseal_created Sample.created Sample.protectors_open
  obtain ⟨hsecrets, hpassword⟩ := hedited _ _ Sample.guarded Sample.edited Sample.editedSlot (Sample.hardware 1)
    ⟨some [112, 119]⟩ Sample.opened rfl Sample.written Sample.unsealed
  refine ⟨hgroups Sample.openKey Sample.openKey_eq _ (mem_cons_of_mem _ mem_cons_self), Sample.unsealed,
    hsecrets, ?_⟩
  exact hpassword _ rfl Sample.passwordPayload

end FactorSeal.Seal

import Mathlib.Data.List.Nodup
import FactorSeal.Seal.Metadata

/-! # Creating and unsealing a vault (vault/seal/protectors.rs)

Creation makes one root key and keeps it in a slot for each group of the policy. `Creates.unsealGroup_eq`: each group
opens what was created, with the credentials of the creation. -/

namespace FactorSeal.Seal

open Wire Except InstallationSecrets List

variable {slot : UnlockSlot} {file : VaultFile}

/-- A hardware key; wrapping draws random bytes of its own. -/
structure KeyProtector where
  backend : HardwareBackend
  wrap : Nat → Bytes → VaultResult Bytes
  unwrap : Bytes → VaultResult Bytes

/-- It unwraps what it has wrapped. -/
def KeyProtector.Opens (key : KeyProtector) : Prop :=
  ∀ draw plaintext ciphertext, key.wrap draw plaintext = .ok ciphertext → key.unwrap ciphertext = .ok plaintext

structure SlotProtector where
  group : UnlockGroup
  label : String
  key : KeyProtector

structure VaultCreation where
  installationId : InstallationId
  deviceVaultId : VaultId
  createdAt : UInt64
  platform : VaultPlatform
  cryptographicProfile : VaultCryptoProfile
  nativeSigning : Bool
deriving DecidableEq, Repr

structure UnsealedVault where
  metadata : VaultMetadata
  secrets : InstallationSecrets
  initializeStore : Bool
deriving DecidableEq, Repr

variable (env : SealEnv)

/-! ## Creation -/

/-- `validate_protector`; the backend is the same for all groups. -/
def validateProtector (platform : VaultPlatform) (slot : SlotProtector) (common : Option String) : VaultResult String := do
  ensure (slot.label ≠ "") (.protection "wrapping key label must not be empty")
  let backend := slot.key.backend.asStr
  ensure (platform.acceptsBackend backend = true)
    (.protection ("the " ++ backend ++ " backend is not valid for " ++ platform.asStr ++ " vaults"))
  ensure (common.all (· = backend)) (.protection "unlock groups use different hardware backends")
  return backend

/-- What the hardware key of a group wraps. -/
def rootPayload (draw : Nat) (creation : VaultCreation) (rootKey : Key) (credentials : UnlockCredentials)
    (group : UnlockGroup) : VaultResult (Bytes × Option NestedProtection) := do
  match ← credentials.passwordFor group with
  | some password =>
    let (payload, protection) ← protectWithFactor env draw creation.installationId rootKey password
      creation.cryptographicProfile
    return (payload, some protection)
  | none => return (rootKey.toList, none)

def createSlot (draw : Nat) (creation : VaultCreation) (rootKey : Key) (credentials : UnlockCredentials)
    (slot : SlotProtector) : VaultResult UnlockSlot := do
  let (payload, protection) ← rootPayload env draw creation rootKey credentials slot.group
  let wrapped ← slot.key.wrap (draw + 2) payload
  return ⟨slot.group, slot.label, wrapped, protection⟩

/-- The loop over the groups, with three draws for each. -/
def createSlots (creation : VaultCreation) (rootKey : Key) (credentials : UnlockCredentials) :
    Nat → Option String → List (SlotProtector × UnlockGroup) → VaultResult (List UnlockSlot × Option String)
  | _, common, [] => .ok ([], common)
  | draw, common, (slot, expected) :: rest => do
    ensure (slot.group = expected) (.protection "unlock policy and hardware protector order do not match")
    let backend ← validateProtector creation.platform slot common
    let made ← createSlot env draw creation rootKey credentials slot
    let (slots, common) ← createSlots creation rootKey credentials (draw + 3) (some backend) rest
    return (made :: slots, common)

/-- `create_with_protectors`, with the file that is written. -/
def createWithProtectors (draw : Nat) (creation : VaultCreation) (policy : UnlockPolicy)
    (protectors : List SlotProtector) (credentials : UnlockCredentials) : VaultResult (UnsealedVault × VaultFile) := do
  policy.validate
  ensure (protectors.length = policy.groups.length)
    (.protection "unlock policy and hardware protectors do not match")
  let rootKey := env.random 32 draw
  let (slots, common) ← createSlots env creation rootKey credentials (draw + 1) none (protectors.zip policy.groups)
  let (secrets, wrapped) ← generateNew env (draw + 1 + 3 * protectors.length)
    creation.installationId creation.deviceVaultId rootKey creation.platform creation.nativeSigning
  let publicSigningKey ← secrets.publicKey env creation.installationId creation.deviceVaultId
  let hardwareBackend ← ofOption (.protection "unlock policy has no hardware protector") common
  let file : VaultFile :=
    { format := "factorseal-vault"
      version := if wrapped.usesEnclaveSigner then 9 else 8
      installationId := creation.installationId
      deviceVaultId := creation.deviceVaultId
      deviceKeyId := deviceKeyIdFor env publicSigningKey
      publicSigningKey
      actorId := actorIdFor env publicSigningKey
      platform := creation.platform
      hardwareBackend
      cryptographicProfile := creation.cryptographicProfile
      unlockPolicy := policy
      preferredUnlockGroup := policy.groups.head?
      unlockSlots := slots
      wrappedInstallationSecrets := wrapped
      createdAt := creation.createdAt }
  file.validate env
  return (⟨file.publicMetadata, secrets, true⟩, file)

/-! ## Unsealing -/

/-- The root key in a slot. -/
def openRootKey (installation : InstallationId) (slot : UnlockSlot) (credentials : UnlockCredentials)
    (payload : Bytes) : VaultResult Key :=
  match slot.passwordProtection with
  | some protection => do
    let password ← credentials.passwordFor slot.group
    let password ← ofOption (.protection "password-protected slot has no password factor") password
    unprotectWithFactor env installation protection payload password
  | none => do
    ensure (slot.group.requires .password = false) (.protection "password unlock group has no password protection")
    decodeRootKey payload

/-- `unseal_with_protectors`. -/
def unsealWithProtectors (file : VaultFile) (slot : UnlockSlot) (wrapping : KeyProtector)
    (credentials : UnlockCredentials) : VaultResult UnsealedVault := do
  file.validate env
  ensure (wrapping.backend.asStr = file.hardwareBackend)
    (.protection "vault hardware backend does not match its metadata")
  let payload ← wrapping.unwrap slot.wrappedVaultRootKey
  let rootKey ← openRootKey env file.installationId slot credentials payload
  let secrets ← openSecrets env file.installationId file.deviceVaultId rootKey
    file.wrappedInstallationSecrets
  let publicSigningKey ← secrets.publicKey env file.installationId file.deviceVaultId
  ensure (publicSigningKey = file.publicSigningKey ∧ deviceKeyIdFor env publicSigningKey = file.deviceKeyId ∧
      actorIdFor env publicSigningKey = file.actorId)
    (.protection "device-signing key does not match installation identity")
  return ⟨file.publicMetadata, secrets, false⟩

/-- `unseal_with_key_protector_group` (seal.rs:672-713) on the file that `read_vault` has read and validated. -/
def unsealGroup (file : VaultFile) (group : UnlockGroup) (credentials : UnlockCredentials)
    (openKey : String → Bool → VaultResult KeyProtector) : VaultResult UnsealedVault := do
  group.validate
  let slot ← ofOption (.protection ("the " ++ group.display ++ " unlock group is not configured for this vault"))
    (file.unlockSlots.find? (·.group = group))
  let wrapping ← openKey slot.wrappingKeyLabel (group.requires .biometric)
  unsealWithProtectors env file slot wrapping credentials

/-! ## What was created opens -/

section

variable {env} {draw : Nat} {creation : VaultCreation} {rootKey : Key} {credentials : UnlockCredentials}
  {installation : InstallationId} {vault : VaultId} {wrapped : WrappedInstallationSecrets}
  {common final common final : Option String} {pairs pairs : List (SlotProtector × UnlockGroup)}
  {slots slots : List UnlockSlot} {secrets secrets : InstallationSecrets}

/-- The slot that was made for a hardware key. -/
structure Made (env : SealEnv) (creation : VaultCreation) (rootKey : Key) (credentials : UnlockCredentials)
    (p : SlotProtector) (slot : UnlockSlot) : Prop where
  group : slot.group = p.group
  label : slot.wrappingKeyLabel = p.label
  payload : ∃ draw payload, rootPayload env draw creation rootKey credentials p.group =
      .ok (payload, slot.passwordProtection) ∧ p.key.wrap (draw + 2) payload = .ok slot.wrappedVaultRootKey

theorem createSlot_eq_ok {p : SlotProtector}
    (h : createSlot env draw creation rootKey credentials p = .ok slot) : Made env creation rootKey credentials p slot := by
  simp only [createSlot, bind_eq_ok] at h
  obtain ⟨⟨payload, protection⟩, hpayload, wrapped, hwrapped, h⟩ := h
  cases h
  exact ⟨rfl, rfl, draw, payload, hpayload, hwrapped⟩

/-- What the loop makes. -/
theorem createSlots_eq_ok (h : createSlots env creation rootKey credentials draw common pairs = .ok (slots, final)) :
    (∀ backend, common = some backend → final = some backend) ∧ slots.map UnlockSlot.group = pairs.map Prod.snd ∧
      ∀ pair ∈ pairs, final = some pair.1.key.backend.asStr ∧
        ∃ slot ∈ slots, Made env creation rootKey credentials pair.1 slot := by
  induction pairs generalizing draw common slots with
  | nil =>
    cases h
    exact ⟨fun _ => id, rfl, fun pair hpair => by cases hpair⟩
  | cons pair rest ih =>
    obtain ⟨p, expected⟩ := pair
    simp only [createSlots, validateProtector, bind_eq_ok, ensure_eq_ok] at h
    obtain ⟨⟨⟩, hexpected, backend, ⟨⟨⟩, -, ⟨⟩, -, ⟨⟩, hcommon, hbackend⟩, made, hmade, ⟨others, last⟩, hrest, h⟩ := h
    cases hbackend
    cases h
    obtain ⟨hsame, hgroups, hall⟩ := ih hrest
    have hlast := hsame _ rfl
    have hmade := createSlot_eq_ok hmade
    refine ⟨fun b hb => ?_, ?_, fun pair hpair => ?_⟩
    · subst hb
      rw [hlast, ← show b = p.key.backend.asStr by simpa using hcommon]
    · rw [map_cons, map_cons, hgroups, hmade.group, hexpected]
    · rcases mem_cons.1 hpair with rfl | hpair
      · exact ⟨hlast, made, mem_cons_self, hmade⟩
      · obtain ⟨hfinal, slot, hslot, hs⟩ := hall pair hpair
        exact ⟨hfinal, slot, mem_cons_of_mem _ hslot, hs⟩

/-- The hardware keys stand in the order of the policy. -/
theorem createSlots_groups (h : createSlots env creation rootKey credentials draw common pairs = .ok (slots, final)) :
    pairs.map (SlotProtector.group ∘ Prod.fst) = pairs.map Prod.snd := by
  induction pairs generalizing draw common slots final with
  | nil => rfl
  | cons pair rest ih =>
    obtain ⟨p, expected⟩ := pair
    simp only [createSlots, bind_eq_ok, ensure_eq_ok] at h
    obtain ⟨⟨⟩, hexpected, backend, -, made, -, ⟨others, last⟩, hrest, -⟩ := h
    rw [map_cons, map_cons, ih hrest]
    exact congrArg (· :: _) hexpected

/-- The payload of a slot opens to the root key. -/
theorem openRootKey_of_rootPayload {group : UnlockGroup} {payload : Bytes}
    (h : rootPayload env draw creation rootKey credentials group = .ok (payload, slot.passwordProtection))
    (hgroup : slot.group = group) :
    openRootKey env creation.installationId slot credentials payload = .ok rootKey := by
  subst hgroup
  simp only [rootPayload, bind_eq_ok] at h
  obtain ⟨password, hpassword, h⟩ := h
  cases password with
  | some password =>
    simp only [bind_eq_ok] at h
    obtain ⟨⟨made, protection⟩, hprotect, h⟩ := h
    obtain ⟨rfl, hprotection⟩ := Prod.mk.inj (Except.ok.inj h)
    rw [openRootKey, ← hprotection]
    dsimp only
    rw [hpassword, ok_bind, ofOption_some, ok_bind]
    exact unprotectWithFactor_of_protect hprotect
  | none =>
    obtain ⟨rfl, hprotection⟩ := Prod.mk.inj (Except.ok.inj h)
    rw [openRootKey, ← hprotection]
    dsimp only
    rw [ensure_of (UnlockCredentials.passwordFor_eq_none hpassword), ok_bind, decodeRootKey_toList]

/-- Secrets with a signing key that can be used open. -/
theorem openSecrets_retain {publicKey : Bytes} (hvalid : wrapped.validate = .ok ())
    (hkey : (InstallationSecrets.retain env rootKey installation vault wrapped).publicKey env installation vault =
      .ok publicKey) : openSecrets env installation vault rootKey wrapped =
      .ok (InstallationSecrets.retain env rootKey installation vault wrapped) := by
  obtain ⟨seed, reference⟩ := wrapped
  rw [openSecrets, hvalid, ok_bind]
  -- A valid file has exactly one of the two signing keys.
  cases seed with
  | some seed =>
    cases reference with
    | some reference => cases hvalid
    | none =>
      simp only [InstallationSecrets.publicKey, InstallationSecrets.retain, InstallationSecrets.signingSeed,
        Option.isSome_none, Bool.false_eq_true, if_false, bind_eq_ok, ofOption_some, ok_bind] at hkey
      obtain ⟨key, hseed, -⟩ := hkey
      simp [hseed, InstallationSecrets.retain]
  | none =>
    cases reference with
    | none => cases hvalid
    | some reference =>
      have henclave : (InstallationSecrets.retain env rootKey installation vault ⟨none, some reference⟩).enclavePublicKey
          env installation vault = .ok publicKey := hkey
      dsimp only [InstallationSecrets.retain] at henclave ⊢
      simp [henclave]

theorem openSecrets_eq_ok (h : openSecrets env installation vault rootKey wrapped = .ok secrets) :
    secrets = retain env rootKey installation vault wrapped := by
  obtain ⟨seed, reference⟩ := wrapped
  simp only [openSecrets, bind_eq_ok] at h
  obtain ⟨⟨⟩, -, h⟩ := h
  cases seed with
  | none =>
    cases reference with
    | none =>
      cases h
      rfl
    | some reference =>
      simp only [retain, Option.isSome_some, if_true, bind_eq_ok] at h
      obtain ⟨key, -, h⟩ := h
      cases h
      rfl
  | some seed =>
    simp only [bind_eq_ok] at h
    obtain ⟨key, -, h⟩ := h
    cases reference with
    | none =>
      cases h
      rfl
    | some reference =>
      simp only [retain, Option.isSome_some, if_true, bind_eq_ok] at h
      obtain ⟨key, -, h⟩ := h
      cases h
      rfl

theorem generateNew_eq_ok {platform : VaultPlatform} {native : Bool}
    (h : generateNew env draw installation vault rootKey platform native = .ok (secrets, wrapped)) :
    secrets = retain env rootKey installation vault wrapped := by
  unfold generateNew at h
  dsimp only at h
  split at h
  · simp only [bind_eq_ok] at h
    obtain ⟨reference, -, h⟩ := h
    cases h
    rfl
  · cases h
    rfl

/-- A valid file has one signing key. -/
theorem VaultFile.wrapped_valid (h : file.validate env = .ok ()) :
    file.wrappedInstallationSecrets.validate = .ok () := by
  simp only [VaultFile.validate, bind_eq_ok, ensure_eq_ok] at h
  obtain ⟨⟨⟩, -, ⟨⟩, hwrapped, -⟩ := h
  exact hwrapped

/-- What a creation that succeeds has done. -/
structure Creates (env : SealEnv) (creation : VaultCreation) (policy : UnlockPolicy) (protectors : List SlotProtector)
    (credentials : UnlockCredentials) (vault : UnsealedVault) (file : VaultFile) : Prop where
  policy_valid : policy.validate = .ok ()
  installationId : file.installationId = creation.installationId
  generated : ∃ draw, generateNew env draw file.installationId file.deviceVaultId
    vault.secrets.rootKey creation.platform creation.nativeSigning = .ok (vault.secrets, file.wrappedInstallationSecrets)
  valid : file.validate env = .ok ()
  secrets : vault.secrets = retain env vault.secrets.rootKey file.installationId file.deviceVaultId
    file.wrappedInstallationSecrets
  publicKey : vault.secrets.publicKey env file.installationId file.deviceVaultId = .ok file.publicSigningKey
  deviceKeyId : deviceKeyIdFor env file.publicSigningKey = file.deviceKeyId
  actorId : actorIdFor env file.publicSigningKey = file.actorId
  slot_groups : file.unlockSlots.map UnlockSlot.group = policy.groups
  protector_groups : protectors.map SlotProtector.group = policy.groups
  made : ∀ p ∈ protectors, file.hardwareBackend = p.key.backend.asStr ∧
    ∃ slot ∈ file.unlockSlots, Made env creation vault.secrets.rootKey credentials p slot

theorem createWithProtectors_eq_ok {policy : UnlockPolicy} {protectors : List SlotProtector} {vault : UnsealedVault}
    (h : createWithProtectors env draw creation policy protectors credentials = .ok (vault, file)) :
    Creates env creation policy protectors credentials vault file := by
  simp only [createWithProtectors, bind_eq_ok, ensure_eq_ok, ofOption_eq_ok] at h
  obtain ⟨⟨⟩, hpolicy, ⟨⟩, hlength, ⟨slots, common⟩, hslots, ⟨secrets, wrapped⟩, hsecrets, publicKey, hpublic, backend,
    hbackend, ⟨⟩, hvalid, h⟩ := h
  dsimp only at hsecrets hpublic hbackend hvalid h
  subst hbackend
  obtain ⟨-, hgroups, hmade⟩ := createSlots_eq_ok hslots
  have hretain := generateNew_eq_ok hsecrets
  have hsnd : (protectors.zip policy.groups).map Prod.snd = policy.groups :=
    map_snd_zip hlength.ge
  have hfst : (protectors.zip policy.groups).map Prod.fst = protectors :=
    map_fst_zip hlength.le
  have hmatch := createSlots_groups hslots
  obtain ⟨rfl, rfl⟩ := Prod.mk.inj (Except.ok.inj h)
  subst hretain
  exact {
    policy_valid := hpolicy
    installationId := rfl
    generated := ⟨_, hsecrets⟩
    valid := hvalid
    secrets := rfl
    publicKey := hpublic
    deviceKeyId := rfl
    actorId := rfl
    slot_groups := hgroups.trans hsnd
    protector_groups := by rw [← hsnd, ← hmatch, ← map_map, hfst]
    made := fun p hp => by
      obtain ⟨pair, hpair, rfl⟩ := mem_map.1 (hfst.symm ▸ hp : p ∈ (protectors.zip policy.groups).map Prod.fst)
      obtain ⟨hcommon, slot, hslot, hs⟩ := hmade pair hpair
      exact ⟨Option.some.inj hcommon, slot, hslot, hs⟩ }

namespace Creates

variable {policy : UnlockPolicy} {protectors : List SlotProtector} {vault : UnsealedVault}

section

variable (h : Creates env creation policy protectors credentials vault file)

include h

/-- Groups are distinct, so a slot is found by its group. -/
theorem slot_eq {s t : UnlockSlot}
    (hs : s ∈ file.unlockSlots) (ht : t ∈ file.unlockSlots) (hgroup : s.group = t.group) : s = t := by
  have hnodup : (file.unlockSlots.map UnlockSlot.group).Nodup := by
    rw [h.slot_groups]
    exact (UnlockPolicy.validate_eq_ok h.policy_valid).2.1
  exact inj_on_of_nodup_map hnodup hs ht hgroup

theorem find_slot (hslot : slot ∈ file.unlockSlots) : file.unlockSlots.find? (·.group = slot.group) = some slot := by
  cases hfind : file.unlockSlots.find? (·.group = slot.group) with
  | none =>
    have hnone := find?_eq_none.1 hfind slot hslot
    simp at hnone
  | some found =>
    have hgroup : found.group = slot.group := by simpa using find?_some hfind
    rw [h.slot_eq (mem_of_find?_eq_some hfind) hslot hgroup]

/-- The file's own key opens its secrets. -/
theorem openSecrets :
    openSecrets env file.installationId file.deviceVaultId vault.secrets.rootKey
      file.wrappedInstallationSecrets = .ok vault.secrets := by
  have hkey := h.publicKey
  rw [h.secrets] at hkey
  have hopen := openSecrets_retain (VaultFile.wrapped_valid h.valid) hkey
  rw [← h.secrets] at hopen
  exact hopen

/-- What a slot with a password was made from. -/
theorem password_payload (hopens : ∀ p ∈ protectors, p.key.Opens) {p : SlotProtector} (hp : p ∈ protectors)
    (hslot : slot ∈ file.unlockSlots) (hgroup : slot.group = p.group) {protection : NestedProtection}
    (hprotection : slot.passwordProtection = some protection) {payload : Bytes}
    (hunwrap : p.key.unwrap slot.wrappedVaultRootKey = .ok payload) :
    ∃ password key, credentials.password = some password ∧ deriveFactorKey env password protection.factor = .ok key ∧
      payload = env.aeadSeal key protection.vaultRootKeyNonce (factorAad file.installationId)
        vault.secrets.rootKey.toList := by
  obtain ⟨-, made, hmem, hmade⟩ := h.made p hp
  have hsame := h.slot_eq hmem hslot (hmade.group.trans hgroup.symm)
  subst hsame
  obtain ⟨n, wrapped, hpayload, hwrap⟩ := hmade.payload
  have hpayloads := (hopens p hp _ _ _ hwrap).symm.trans hunwrap
  obtain rfl := Except.ok.inj hpayloads
  rw [hprotection] at hpayload
  simp only [rootPayload, bind_eq_ok] at hpayload
  obtain ⟨given, hgiven, hpayload⟩ := hpayload
  cases given with
  | none => cases hpayload
  | some password =>
    simp only [bind_eq_ok] at hpayload
    obtain ⟨⟨bytes, nested⟩, hprotect, hpayload⟩ := hpayload
    cases hpayload
    obtain ⟨key, hkey, hbytes⟩ := protectWithFactor_eq_ok hprotect
    rw [← h.installationId] at hbytes
    exact ⟨password, key, (UnlockCredentials.passwordFor_eq_some hgiven).2, hkey, hbytes⟩

/-- Each group opens the vault that was created. -/
theorem unsealGroup_eq (hopens : ∀ p ∈ protectors, p.key.Opens) {openKey : String → Bool → VaultResult KeyProtector}
    (hkeys : ∀ p ∈ protectors, openKey p.label (p.group.requires .biometric) = .ok p.key) {group : UnlockGroup}
    (hgroup : group ∈ policy.groups) :
    unsealGroup env file group credentials openKey = .ok ⟨file.publicMetadata, vault.secrets, false⟩ := by
  obtain ⟨p, hp, rfl⟩ := mem_map.1 (h.protector_groups.symm ▸ hgroup)
  obtain ⟨hbackend, slot, hslot, hmade⟩ := h.made p hp
  obtain ⟨n, payload, hpayload, hwrap⟩ := hmade.payload
  have hroot : openRootKey env file.installationId slot credentials payload = .ok vault.secrets.rootKey := by
    rw [h.installationId]
    exact openRootKey_of_rootPayload hpayload hmade.group
  rw [unsealGroup, (UnlockPolicy.validate_eq_ok h.policy_valid).2.2 _ hgroup, ok_bind, ← hmade.group, h.find_slot hslot,
    ofOption_some, ok_bind, hmade.label, hmade.group, hkeys p hp, ok_bind, unsealWithProtectors, h.valid, ok_bind,
    ensure_of hbackend.symm, ok_bind, hopens p hp _ _ _ hwrap, ok_bind, hroot, ok_bind, h.openSecrets, ok_bind,
    h.publicKey, ok_bind, ensure_of ⟨rfl, h.deviceKeyId, h.actorId⟩, ok_bind]
  rfl

end

end Creates

end

end FactorSeal.Seal

import FactorSeal.Vault.Crypto

/-! # The signed commitment to the current documents (vault/store/manifest.rs)

One manifest signs the digest of the inventory, the inventory names each document's head by its identifier, and the
identifier is the digest of the head's fields. Each of the three byte strings can be cut apart again, so for a hash
without collisions on the strings at hand the manifest's identifier binds everything below it:

* `CommitContents.transcript_inj` — a head's transcript determines its fields;
* `inventoryTranscript_inj` — the inventory's transcript determines the list of documents and head identifiers;
* `StateManifest.inventoryDigest_of_transcript_eq` — a manifest's transcript determines its inventory digest;
* `signaturePayload_inj` — the payload signed for a manifest determines its identifier, and it is no payload of the two
  other domains the device signs in (`signaturePayload_ne_commit`, `signaturePayload_ne_permission`). -/

namespace FactorSeal

open Wire Except

/-- `CURRENT_SCHEMA_VERSION`. -/
def currentSchemaVersion : UInt32 := 6

def headDomain : Bytes := utf8 "factorseal/current-document-head/v1\x00"
def inventoryDomain : Bytes := utf8 "factorseal/current-document-inventory/v1\x00"
def manifestDomain : Bytes := utf8 "factorseal/current-state-manifest/v1\x00"
def signatureDomain : Bytes := utf8 "factorseal/current-state-signature/v1\x00"

/-- `COMMIT_SIGNATURE_DOMAIN` (chain.rs:10) and `PERMISSION_SIGNATURE_DOMAIN` (signature.rs:99): the other payloads the
device key signs. -/
def commitSignatureDomain : Bytes := utf8 "factorseal/protected-commit-signature/v6\x00"
def permissionSignatureDomain : Bytes := utf8 "factorseal/permission/v1\x00"

/-! ## Document heads (manifest.rs:18-78) -/

/-- What a head says of its document (`CommitContents`, chain.rs:13-24; the current state has no previous commit). -/
structure CommitContents where
  vaultId : VaultId
  documentId : DocumentId
  scope : DocumentKind
  generation : UInt64
  keyEpoch : UInt64
  wrappedKeyDigest : Digest
  snapshotDigest : Digest
  nextEviction : Option UInt64
  deviceKeyId : DeviceKeyId
deriving DecidableEq, Repr

structure CurrentHead extends CommitContents where
  headId : Digest
deriving DecidableEq, Repr

/-- The flag and the deadline, zero where there is none. -/
def deadlineBytes (deadline : Option UInt64) : Bytes :=
  (if deadline.isSome then 1 else 0) :: be64 (deadline.getD 0)

theorem deadlineBytes_delimited : Delimited deadlineBytes := by
  intro a b s t h
  simp only [deadlineBytes, List.cons_append, List.cons.injEq] at h
  obtain ⟨hflag, hrest⟩ := h
  obtain ⟨hvalue, hst⟩ := be64_delimited hrest
  refine ⟨?_, hst⟩
  cases a <;> cases b <;> simp_all

namespace CommitContents

/-- The bytes `calculate_id` hashes (manifest.rs:53-69). -/
def transcript (h : CommitContents) : Bytes :=
  headDomain ++ (h.vaultId.toList ++ (h.documentId.toList ++ (framed h.scope.bytes ++ (be64 h.generation ++
    (be64 h.keyEpoch ++ (h.wrappedKeyDigest.toList ++ (h.snapshotDigest.toList ++ (deadlineBytes h.nextEviction ++
      h.deviceKeyId.toList))))))))

theorem transcript_inj {a b : CommitContents} (h : a.transcript = b.transcript) : a = b := by
  obtain ⟨hvault, h⟩ := vector_delimited 16 (List.append_cancel_left h)
  obtain ⟨hdocument, h⟩ := vector_delimited 32 h
  obtain ⟨hscope, h⟩ := kind_delimited h
  obtain ⟨hgeneration, h⟩ := be64_delimited h
  obtain ⟨hepoch, h⟩ := be64_delimited h
  obtain ⟨hwrapped, h⟩ := vector_delimited 32 h
  obtain ⟨hsnapshot, h⟩ := vector_delimited 32 h
  obtain ⟨hdeadline, h⟩ := deadlineBytes_delimited h
  have hdevice := Vector.toList_inj.1 h
  cases a; cases b; simp_all

end CommitContents

variable (c : Crypto)

namespace CurrentHead

def calculateId (h : CommitContents) : Digest := c.sha256 h.transcript

/-- `CurrentHead::new`. -/
def new (contents : CommitContents) : CurrentHead := { contents with headId := calculateId c contents }

/-- `CurrentHead::verify`. -/
def verify (h : CurrentHead) (expected : Digest) : VaultResult Unit :=
  ensure (h.headId = expected ∧ calculateId c h.toCommitContents = expected) .signature

theorem eq_new_of_verify {h : CurrentHead} {expected : Digest} (hv : h.verify c expected = .ok ()) :
    h = new c h.toCommitContents ∧ h.headId = expected := by
  simp only [verify, ensure_eq_ok] at hv
  obtain ⟨hid, hcalc⟩ := hv
  exact ⟨by cases h; simp_all [new], hid⟩

@[simp] theorem verify_new (contents : CommitContents) : (new c contents).verify c (new c contents).headId = .ok () := by
  simp [verify, new]

end CurrentHead

/-! ## The inventory (manifest.rs:81-91) -/

def inventoryTranscript (heads : List (DocumentId × Digest)) : Bytes :=
  inventoryDomain ++ heads.flatMap fun entry => entry.1.toList ++ entry.2.toList

/-- `inventory_digest`. -/
def inventoryDigest (heads : List (DocumentId × Digest)) : Digest := c.sha256 (inventoryTranscript heads)

theorem inventoryTranscript_inj {l m : List (DocumentId × Digest)}
    (h : inventoryTranscript l = inventoryTranscript m) : l = m := by
  refine Delimited.flatMap_inj (fun a b s t h => ?_) (fun a => ?_) (List.append_cancel_left h)
  · rw [List.append_assoc, List.append_assoc] at h
    obtain ⟨hdocument, h⟩ := vector_delimited 32 h
    obtain ⟨hhead, h⟩ := vector_delimited 32 h
    exact ⟨Prod.ext hdocument hhead, h⟩
  · exact List.ne_nil_of_length_pos (by simp)

/-! ## The manifest (manifest.rs:93-170) -/

inductive SignatureAlgorithm where
  | mlDsa65
deriving DecidableEq, Repr

def SignatureAlgorithm.code : SignatureAlgorithm → UInt8
  | mlDsa65 => 2


structure StateManifest where
  version : UInt32
  signatureAlgorithm : SignatureAlgorithm
  vaultId : VaultId
  deviceKeyId : DeviceKeyId
  documentCount : UInt64
  inventoryDigest : Digest
  repackPending : Bool
  manifestId : Digest
  signature : Bytes
deriving DecidableEq, Repr

/-- `signature_payload` of a manifest identifier. -/
def signaturePayload (manifestId : Digest) : Bytes := signatureDomain ++ manifestId.toList

namespace StateManifest

def transcript (m : StateManifest) : Bytes :=
  manifestDomain ++ (be32 m.version ++ ([m.signatureAlgorithm.code] ++ (m.vaultId.toList ++ (m.deviceKeyId.toList ++
    (be64 m.documentCount ++ (m.inventoryDigest.toList ++ [if m.repackPending then 1 else 0]))))))

theorem inventoryDigest_of_transcript_eq {a b : StateManifest} (h : a.transcript = b.transcript) :
    a.inventoryDigest = b.inventoryDigest := by
  obtain ⟨-, h⟩ := be32_delimited (List.append_cancel_left h)
  obtain ⟨-, h⟩ := List.append_inj h rfl
  obtain ⟨-, h⟩ := vector_delimited 16 h
  obtain ⟨-, h⟩ := vector_delimited 32 h
  obtain ⟨-, h⟩ := be64_delimited h
  exact (vector_delimited 32 h).1

/-- The manifest before its identifier and signature are filled in. -/
def unsigned (vaultId : VaultId) (deviceKeyId : DeviceKeyId) (documentCount : UInt64) (inventoryDigest : Digest)
    (repackPending : Bool) : StateManifest :=
  { version := currentSchemaVersion, signatureAlgorithm := .mlDsa65, vaultId, deviceKeyId, documentCount,
    inventoryDigest, repackPending, manifestId := Vector.replicate 32 0, signature := [] }

/-- `StateManifest::new`; `draw` is the signer's randomness. -/
def new (draw : Nat) (vaultId : VaultId) (deviceKeyId : DeviceKeyId) (documentCount : UInt64) (inventoryDigest : Digest)
    (repackPending : Bool) : StateManifest :=
  let manifest := unsigned vaultId deviceKeyId documentCount inventoryDigest repackPending
  let manifestId := c.sha256 manifest.transcript
  { manifest with manifestId, signature := c.sign draw (signaturePayload manifestId) }

/-- `StateManifest::verify`. -/
def verify (m : StateManifest) (vaultId : VaultId) (deviceKeyId : DeviceKeyId) : VaultResult Unit := do
  ensure (m.version = currentSchemaVersion ∧ m.vaultId = vaultId ∧ m.deviceKeyId = deviceKeyId ∧
    c.sha256 m.transcript = m.manifestId) .signature
  ensure (c.verify (signaturePayload m.manifestId) m.signature) .signature

theorem verify_eq_ok {m : StateManifest} {vaultId : VaultId} {deviceKeyId : DeviceKeyId} :
    m.verify c vaultId deviceKeyId = .ok () ↔
      (m.version = currentSchemaVersion ∧ m.vaultId = vaultId ∧ m.deviceKeyId = deviceKeyId ∧
        c.sha256 m.transcript = m.manifestId) ∧ c.verify (signaturePayload m.manifestId) m.signature = true := by
  simp [verify, bind_eq_ok]

@[simp] theorem verify_new (draw : Nat) (vaultId : VaultId) (deviceKeyId : DeviceKeyId) (documentCount : UInt64)
    (inventory : Digest) (repackPending : Bool) :
    (new c draw vaultId deviceKeyId documentCount inventory repackPending).verify c vaultId deviceKeyId = .ok () := by
  rw [verify_eq_ok]
  exact ⟨⟨rfl, rfl, rfl, rfl⟩, c.verify_sign _ _⟩

end StateManifest

/-! ## Signed payloads -/

theorem signaturePayload_inj {a b : Digest} (h : signaturePayload a = signaturePayload b) : a = b :=
  Vector.toList_inj.1 (List.append_cancel_left h)

/-- Two byte strings that differ somewhere in a common front part differ. -/
theorem append_ne_of_take_ne {a b s t : Bytes} (n : Nat) (ha : n ≤ a.length) (hb : n ≤ b.length)
    (h : a.take n ≠ b.take n) : a ++ s ≠ b ++ t := fun heq => h (by
  have := congrArg (List.take n) heq
  rwa [List.take_append_of_le_length ha, List.take_append_of_le_length hb] at this)

theorem signaturePayload_ne_commit (id : Digest) (rest : Bytes) : signaturePayload id ≠ commitSignatureDomain ++ rest :=
  append_ne_of_take_ne 12 (by decide +kernel) (by decide +kernel) (by decide +kernel)

theorem signaturePayload_ne_permission (id : Digest) (rest : Bytes) :
    signaturePayload id ≠ permissionSignatureDomain ++ rest :=
  append_ne_of_take_ne 12 (by decide +kernel) (by decide +kernel) (by decide +kernel)

end FactorSeal

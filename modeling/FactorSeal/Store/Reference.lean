import FactorSeal.Lib.Format
import FactorSeal.Store.State

/-! # A reference environment

The laws the store relies on are satisfiable together: `referenceCrypto` and `reference` implement them with toy
primitives, a digest that is a polynomial of what is hashed, encryption that appends a tag, and formats in place of
JSON. -/

namespace FactorSeal

open Wire Except Format

/-- The bytes as the coefficients of a polynomial at 257, modulo `2 ^ 256`. -/
def toyDigest (b : Bytes) : Digest :=
  let n := b.foldl (fun n byte => (n * 257 + byte.toNat + 1) % 2 ^ 256) 0
  ⟨((List.range 32).map fun i => UInt8.ofNat (n / 256 ^ i)).toArray, by simp⟩

def referenceCrypto : Crypto where
  sha256 := toyDigest
  indexMac := toyDigest
  rootKey := Vector.replicate 32 0
  aeadSeal _ _ _ plaintext := plaintext ++ List.replicate 16 0
  aeadOpen _ _ _ ciphertext := some (ciphertext.take (ciphertext.length - 16))
  aeadOpen_seal _ _ _ plaintext := by simp
  length_aeadSeal _ _ _ plaintext := by simp
  sign _ payload := payload
  verify payload signature := payload == signature
  verify_sign _ _ := by simp
  random k n := Vector.replicate k (UInt8.ofNat n)

namespace Reference

def kindFormat : Format DocumentKind :=
  nat.via
    (fun
      | .authorization => 0 | .linuxSecretService => 1 | .networkManagerWifi => 2 | .localKeyring => 3
      | .secretSpecProject => 4 | .secretSpecProviderCache => 5)
    (fun
      | 0 => .authorization | 1 => .linuxSecretService | 2 => .networkManagerWifi | 3 => .localKeyring
      | 4 => .secretSpecProject | _ => .secretSpecProviderCache)
    fun k => by cases k <;> rfl

def contentsFormat : Format CommitContents :=
  ((vector 16).prod ((vector 32).prod (kindFormat.prod (uint64.prod (uint64.prod
    ((vector 32).prod ((vector 32).prod ((option uint64).prod (vector 32))))))))).via
    (fun h => (h.vaultId, h.documentId, h.scope, h.generation, h.keyEpoch, h.wrappedKeyDigest, h.snapshotDigest,
      h.nextEviction, h.deviceKeyId))
    (fun (vaultId, documentId, scope, generation, keyEpoch, wrappedKeyDigest, snapshotDigest, nextEviction,
      deviceKeyId) => ⟨vaultId, documentId, scope, generation, keyEpoch, wrappedKeyDigest, snapshotDigest,
        nextEviction, deviceKeyId⟩)
    fun _ => rfl

def headFormat : Format CurrentHead :=
  (contentsFormat.prod (vector 32)).via (fun h => (h.toCommitContents, h.headId)) (fun p => ⟨p.1, p.2⟩)
    fun _ => rfl

def manifestFormat : Format StateManifest :=
  (uint32.prod ((vector 16).prod ((vector 32).prod (uint64.prod ((vector 32).prod
    (bool.prod ((vector 32).prod bytes))))))).via
    (fun m => (m.version, m.vaultId, m.deviceKeyId, m.documentCount, m.inventoryDigest, m.repackPending, m.manifestId,
      m.signature))
    (fun (version, vaultId, deviceKeyId, documentCount, inventoryDigest, repackPending, manifestId, signature) =>
      ⟨version, .mlDsa65, vaultId, deviceKeyId, documentCount, inventoryDigest, repackPending, manifestId, signature⟩)
    fun _ => rfl

def wrappedKeyFormat : Format WrappedKey :=
  ((vector 12).prod bytes).via (fun w => (w.nonce, w.ciphertext)) (fun p => ⟨.aes256Gcm, p.1, p.2⟩)
    fun _ => rfl

def contextFormat : Format EnvelopeContext :=
  ((vector 16).prod ((vector 32).prod (kindFormat.prod ((vector 32).prod (uint64.prod
    uint64))))).via
    (fun c => (c.vaultId, c.documentId, c.scope, c.deviceKeyId, c.generation, c.keyEpoch))
    (fun (vaultId, documentId, scope, deviceKeyId, generation, keyEpoch) =>
      ⟨vaultId, documentId, scope, deviceKeyId, generation, keyEpoch⟩)
    fun _ => rfl

def envelopeFormat : Format EncryptedSnapshot :=
  (byte.prod (contextFormat.prod ((vector 12).prod (bytes.prod ((vector 12).prod
    bytes))))).via
    (fun e => (e.version, e.context, e.nonce, e.ciphertext, e.historyNonce, e.historyCiphertext))
    (fun (version, context, nonce, ciphertext, historyNonce, historyCiphertext) =>
      ⟨version, .aes256Gcm, context, nonce, ciphertext, historyNonce, historyCiphertext⟩)
    fun _ => rfl

def thisDevice : Device := ⟨Vector.replicate 16 1, Vector.replicate 16 2, Vector.replicate 32 3, [4]⟩

end Reference

theorem length_signaturePayload (manifestId : Digest) : (signaturePayload manifestId).length = 70 := by
  rw [signaturePayload, List.length_append, Vector.length_toList]
  decide +kernel

def reference : Env where
  toCrypto := referenceCrypto
  manifestJson := Reference.manifestFormat.toCodec
  headJson := Reference.headFormat.toCodec
  wrappedKeyJson := Reference.wrappedKeyFormat.toCodec
  envelopeJson := Reference.envelopeFormat.toCodec
  length_manifestJson draw vaultId deviceKeyId documentCount inventory repackPending := by
    simp [Format.toCodec, Reference.manifestFormat, Format.via, Format.prod, Format.uint32, Format.uint64,
      Format.vector, Format.bool, Format.byte, Format.bytes, Format.list, Format.nat, be64, StateManifest.new,
      StateManifest.unsigned, referenceCrypto, length_signaturePayload, maxManifestBytes]

end FactorSeal

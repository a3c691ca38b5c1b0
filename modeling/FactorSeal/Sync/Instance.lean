import FactorSeal.Sync.Packet
import FactorSeal.Sync.Reference
import FactorSeal.Vault.Reference

/-! # A reference environment for sync

Formats for invitations, requests, packets and the sync state, and an HPKE whose wrapped key is the key itself behind the
public key and the draw. -/

namespace FactorSeal

open Wire Format

namespace Reference

def invitationFormat : Format PairingInvitation :=
  ((vector 32).prod ((vector 32).prod ((vector 32).prod (uint64.prod (vector 32))))).via
    (fun i => (i.endpoint, i.controller, i.group, i.expires, i.secret))
    (fun (endpoint, controller, group, expires, secret) => ⟨endpoint, controller, group, expires, secret⟩) fun _ => rfl

def pinnedFormat : Format PinnedGroup :=
  ((vector 32).prod bytes).via (fun p => (p.controller, p.bytes)) (fun p => ⟨p.1, p.2⟩) fun _ => rfl

def requestBodyFormat : Format RequestBody :=
  ((vector 32).prod ((vector 32).prod (keysFormat.prod (string.prod
    (option pinnedFormat))))).via
    (fun b => (b.invitation, b.endpoint, b.reader, b.name, b.origin))
    (fun (invitation, endpoint, reader, name, origin) => ⟨invitation, endpoint, reader, name, origin⟩) fun _ => rfl

def requestFormat : Format PairingRequest :=
  (requestBodyFormat.prod ((vector 32).prod (bytes.prod (option approvalFormat)))).via
    (fun r => (r.body, r.proof, r.signature, r.consent))
    (fun (body, proof, signature, consent) => ⟨body, proof, signature, consent⟩) fun _ => rfl

end Reference

def referencePairing : PairingEnv where
  toGroupEnv := referenceGroups
  invitationJson := Reference.invitationFormat.write
  requestBodyJson := Reference.requestBodyFormat.write
  requestJson := Reference.requestFormat.write

namespace Reference

def joiningFormat : Format (PairingInvitation × PairingRequest × PinnedGroup) :=
  invitationFormat.prod (requestFormat.prod pinnedFormat)

def pairingFormat : Format PairingState :=
  ((option pinnedFormat).prod ((option pinnedFormat).prod ((option invitationFormat).prod
    ((option requestFormat).prod ((option joiningFormat).prod (option (vector 32))))))).via
    (fun p => (p.introduction, p.group, p.invitation, p.staged, p.joining, p.approved))
    (fun (introduction, group, invitation, staged, joining, approved) =>
      ⟨introduction, group, invitation, staged, joining, approved⟩)
    fun _ => rfl

def readerFormat : Format WrappedReader :=
  (wrappedKeyFormat.prod (wrappedKeyFormat.prod wrappedKeyFormat)).via (fun w => (w.kemLeft, w.kemRight, w.signing))
    (fun (kemLeft, kemRight, signing) => ⟨kemLeft, kemRight, signing⟩) fun _ => rfl

def headsFormat : Format ReplicaHeads := list (vector 32)

def preparedFormat : Format PreparedPublication :=
  (string.prod (headsFormat.prod bytes)).via (fun p => (p.itemId, p.heads, p.packet))
    (fun (itemId, heads, packet) => ⟨itemId, heads, packet⟩) fun _ => rfl

def receiptFormat : Format ReceivedPacket :=
  ((vector 32).prod (string.prod headsFormat)).via (fun r => (r.packet, r.itemId, r.heads))
    (fun (packet, itemId, heads) => ⟨packet, itemId, heads⟩) fun _ => rfl

def stateFormat : Format (PersonalSyncState referencePairing) :=
  ((option readerFormat).prod (pairingFormat.prod ((option membershipFormat).prod
    ((option preparedFormat).prod (list receiptFormat))))).via
    (fun s => (s.reader, s.pairing, s.membership, s.prepared, s.receipts))
    (fun (reader, pairing, membership, prepared, receipts) => ⟨reader, pairing, membership, prepared, receipts⟩)
    fun _ => rfl

def packetContextFormat : Format PacketContext :=
  (string.prod ((vector 16).prod (uint64.prod ((vector 32).prod ((vector 32).prod
    ((vector 16).prod (list (vector 32)))))))).via
    (fun c => (c.suite, c.group, c.epoch, c.membership, c.author, c.operation, c.recipients))
    (fun (suite, group, epoch, membership, author, operation, recipients) =>
      ⟨suite, group, epoch, membership, author, operation, recipients⟩)
    fun _ => rfl

def recipientKeyFormat : Format RecipientKey :=
  ((vector 32).prod (bytes.prod bytes)).via (fun k => (k.recipient, k.encapsulated, k.wrapped))
    (fun (recipient, encapsulated, wrapped) => ⟨recipient, encapsulated, wrapped⟩) fun _ => rfl

def packetBodyFormat : Format PacketBody :=
  (packetContextFormat.prod ((vector 12).prod (bytes.prod (list recipientKeyFormat)))).via
    (fun b => (b.context, b.nonce, b.ciphertext, b.keys))
    (fun (context, nonce, ciphertext, keys) => ⟨context, nonce, ciphertext, keys⟩) fun _ => rfl

def packetFormat : Format Packet :=
  (packetBodyFormat.prod bytes).via (fun p => (p.body, p.signature)) (fun p => ⟨p.1, p.2⟩) fun _ => rfl

end Reference

def referenceSync : SyncEnv :=
  { referenceVault, referencePairing with
    contextJson := Reference.packetContextFormat.write
    packetBodyJson := Reference.packetBodyFormat.write
    packetJson := Reference.packetFormat.toCodec
    stateJson := Reference.stateFormat.toCodec
    isEncapsulated := fun key => key.length = 32
    hpkeSeal := fun _ draw _ _ key => (List.replicate 32 (UInt8.ofNat draw), key.toList ++ List.replicate 16 0)
    hpkeOpen := fun _ _ _ _ wrapped =>
      if h : (wrapped.take 32).length = 32 then some ⟨(wrapped.take 32).toArray, by simpa using h⟩ else none
    hpkeOpen_seal := fun _ _ _ _ key => by simp [Vector.toList]
    isEncapsulated_seal := fun _ _ _ _ _ => by simp
    length_seal := fun _ _ _ _ _ => by simp
    length_signWith := fun _ _ _ => by simp [referencePairing, referenceGroups, referenceReader] }

end FactorSeal

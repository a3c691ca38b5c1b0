import FactorSeal.Sync.Handle
import FactorSeal.Vault.Document

/-! # Packets (personal/sync/packet.rs)

A packet is one item's complete change closure, encrypted once and its key wrapped for every reader of the membership, in
the order of the membership. Everything but the update is public and signed by the author. HPKE is a parameter: it opens
with a seed what it sealed for the seed's public key.

| here | there |
| --- | --- |
| `Packet.validate`, `VerifiedPacket.verify` | packet.rs:97-113, 256-285 |
| `VerifiedPacket.openUpdate` | packet.rs:127-175 |
| `ReaderIdentity.sealUpdate` | packet.rs:179-236 | -/

namespace FactorSeal

open Wire Except

/-- packet.rs:41-49. -/
structure PacketContext where
  suite : String
  group : GroupId
  epoch : UInt64
  membership : Digest
  author : MemberId
  operation : Vector UInt8 16
  recipients : List MemberId
deriving DecidableEq, Repr

/-- packet.rs:53-59. -/
structure RecipientKey where
  recipient : MemberId
  encapsulated : Bytes
  wrapped : Bytes
deriving DecidableEq, Repr

/-- packet.rs:63-69. -/
structure PacketBody where
  context : PacketContext
  nonce : Nonce
  ciphertext : Bytes
  keys : List RecipientKey
deriving DecidableEq, Repr

/-- packet.rs:73-77. -/
structure Packet where
  body : PacketBody
  signature : Bytes
deriving DecidableEq, Repr

/-- Everything sync uses of other code. -/
structure SyncEnv extends VaultEnv, PairingEnv where
  contextJson : PacketContext → Bytes
  packetBodyJson : PacketBody → Bytes
  packetJson : Codec Packet
  stateJson : Codec (PersonalSyncState toPairingEnv)
  /-- An encapsulated key has the length of one. -/
  isEncapsulated : Bytes → Bool
  /-- `single_shot_seal` for a public key: draw, info, associated data and the key to wrap. -/
  hpkeSeal : Bytes → Nat → Bytes → Bytes → Key → Bytes × Bytes
  hpkeOpen : EncryptionSeed → Bytes → Bytes → Bytes → Bytes → Option Key
  hpkeOpen_seal : ∀ seed draw info aad key, hpkeOpen seed (hpkeSeal (kemKey seed) draw info aad key).1 info aad
    (hpkeSeal (kemKey seed) draw info aad key).2 = some key
  isEncapsulated_seal : ∀ recipient draw info aad key, isEncapsulated (hpkeSeal recipient draw info aad key).1 = true
  length_seal : ∀ recipient draw info aad key, (hpkeSeal recipient draw info aad key).2.length = 48
  /-- ML-DSA-65 signatures are 3309 bytes long. -/
  length_signWith : ∀ seed draw payload, (signWith seed draw payload).length ≤ 4096

def maxPacketBytes : Nat := 2 * 1024 * 1024
def maxUpdateBytes : Nat := 1024 * 1024
def packetSuite : String := "automerge-mlkem768-hkdfsha256-aes256gcm-mldsa65-v1"
def wrapDomain : Bytes := utf8 "factorseal/sync/recipient-key/v1\x00"

variable (env : SyncEnv)

/-- `wrap_context`. -/
def PacketBody.wrapContext (body : PacketBody) (recipient : MemberId) : Bytes :=
  env.contextJson body.context ++ recipient.toList ++ body.nonce.toList ++ (env.sha256 body.ciphertext).toList

namespace Packet

def signedBytes (packet : Packet) : Bytes := utf8 "factorseal/sync/packet/v1\x00" ++ env.packetBodyJson packet.body

variable {env}

/-- The fingerprints of the readers, in their order. -/
def recipients (membership : Membership env.toReaderCrypto) : List MemberId :=
  membership.members.map (MemberPublicKeys.id env.toReaderCrypto)

/-- packet.rs:256-285. -/
def validate (packet : Packet) (membership : Membership env.toReaderCrypto) : VaultResult Unit := do
  let context := packet.body.context
  ensure (context.suite = packetSuite ∧ context.group = membership.group ∧ context.epoch = membership.epoch ∧
    context.membership = membership.digest ∧ context.recipients = recipients membership ∧
    packet.body.keys.length = context.recipients.length ∧ packet.body.keys.length ≤ maxMembers ∧
    16 ≤ packet.body.ciphertext.length ∧ packet.body.ciphertext.length ≤ maxUpdateBytes + 16 ∧
    packet.signature.length ≤ 8192) invalidSync
  let _ ← membership.member context.author
  ensure (∀ p ∈ packet.body.keys.zip context.recipients, p.1.recipient = p.2 ∧ p.1.wrapped.length = 48 ∧
    env.isEncapsulated p.1.encapsulated = true) invalidSync

end Packet

structure VerifiedPacket where
  packet : Packet
  bytes : Bytes
  id : PacketId
deriving DecidableEq, Repr

namespace VerifiedPacket

variable {env}

/-- `verify`. -/
def verify (bytes : Bytes) (membership : Membership env.toReaderCrypto) : VaultResult VerifiedPacket := do
  ensure (bytes.length ≤ maxPacketBytes) invalidSync
  let packet ← ofOption invalidSync (env.packetJson.decode bytes).toOption
  packet.validate membership
  ensure (env.packetJson.encode packet = bytes) invalidSync
  let author ← membership.member packet.body.context.author
  ensure (env.verifyWith author.signing (packet.signedBytes env) packet.signature = true) .signature
  return ⟨packet, bytes, env.sha256 bytes⟩

/-- `open`, a keyword here: the update, once it has been validated. -/
def openUpdate (verified : VerifiedPacket) (identity : ReaderIdentity) (membership : Membership env.toReaderCrypto) :
    VaultResult PersonalUpdate := do
  let body := verified.packet.body
  verified.packet.validate membership
  let recipient := identity.memberId env.toReaderCrypto
  let _ ← membership.member recipient
  let wrapped ← ofOption invalidSync (body.keys.find? fun key => key.recipient = recipient)
  let dek ← ofOption .crypto (env.hpkeOpen identity.encryptionSeed wrapped.encapsulated wrapDomain
    (body.wrapContext env recipient) wrapped.wrapped)
  let plaintext ← ofOption .crypto (env.aeadOpen dek body.nonce (env.contextJson body.context) body.ciphertext)
  ensure (plaintext.length ≤ maxUpdateBytes) invalidSync
  let (itemId, changes) ← ofOption invalidSync (env.updateJson.decode plaintext).toOption
  let update : PersonalUpdate := ⟨itemId, changes⟩
  let _ : PersonalReplica env.toReplicaEnv ← PersonalReplica.fromUpdate update (utf8 "packet-reader")
  return update

end VerifiedPacket

/-- The loop of `seal_update` over the readers: the key wrapped for each, one draw each. -/
def wrapKeys (body : PacketBody) (dek : Key) : Nat → List MemberPublicKeys → List RecipientKey
  | _, [] => []
  | draw, member :: rest =>
    let id := member.id env.toReaderCrypto
    let (encapsulated, wrapped) := env.hpkeSeal member.encryption draw wrapDomain (body.wrapContext env id) dek
    ⟨id, encapsulated, wrapped⟩ :: wrapKeys body dek (draw + 1) rest

namespace ReaderIdentity

variable {env} (identity : ReaderIdentity)

/-- What `seal_update` signs: draws for the key, the operation, the nonce and every reader. -/
def sealedBody (draw : Nat) (plaintext : Bytes) (membership : Membership env.toReaderCrypto) : PacketBody :=
  let dek := env.random 32 draw
  let context : PacketContext := ⟨packetSuite, membership.group, membership.epoch, membership.digest,
    identity.memberId env.toReaderCrypto, env.random 16 (draw + 1), Packet.recipients membership⟩
  let nonce := env.random 12 (draw + 2)
  let body : PacketBody := ⟨context, nonce, env.aeadSeal dek nonce (env.contextJson context) plaintext, []⟩
  { body with keys := wrapKeys env body dek (draw + 3) membership.members }

/-- `seal_update`. -/
def sealUpdate (draw : Nat) (update : PersonalUpdate) (membership : Membership env.toReaderCrypto) :
    VaultResult (VerifiedPacket × Nat) := do
  let _ : PersonalReplica env.toReplicaEnv ← PersonalReplica.fromUpdate update (utf8 "packet-reader")
  let _ ← membership.member (identity.memberId env.toReaderCrypto)
  let plaintext := env.updateJson.encode (update.itemId, update.changes)
  ensure (plaintext.length ≤ maxUpdateBytes) (.protocol "message exceeds configured bound")
  let body := identity.sealedBody draw plaintext membership
  let draw := draw + 3 + membership.members.length
  let unsigned : Packet := ⟨body, []⟩
  let packet := { unsigned with signature := env.signWith identity.signingSeed draw (unsigned.signedBytes env) }
  let verified ← VerifiedPacket.verify (env.packetJson.encode packet) membership
  return (verified, draw + 1)

end ReaderIdentity

end FactorSeal

import FactorSeal.Store.Worker
import FactorSeal.Sync.Document

/-! # The sync commands of the store worker (vault/store/worker/sync.rs)

`personal_sync` loads the personal document, reads the sync state and the catalogue in it, and does one of three things:
it answers from them, it saves them changed, or it has the document changed by a received packet or a resolution
(`SyncWork`). Its work on the document is `SecretDocument.personalSync`; with the load before it and the commit after it
it is `StoreOps.personalSync`.

| here | there |
| --- | --- |
| `protectReader`, `openReader` | vault/keys.rs:715-767 |
| `SyncCommand`, `SecretDocument.personalSync` | worker/sync.rs:19-36, 54-345 |
| `pairingCommand`, `configure`, `prepare`, `stored`, `receive`, `status` | the arms of these names |

Both readings of the clock in one call give the same time. -/

namespace FactorSeal

open Wire Except Std

/-! ## The reader's keys -/

/-- `installation_key_aad` (keys.rs:443-454). -/
def installationKeyAad (device : Device) (purpose : String) : Bytes :=
  utf8 "factorseal/installation-key/v1\x00" ++ device.installationId.toList ++ device.deviceVaultId.toList ++
    framed (utf8 purpose)

/-- `wrap_key` (keys.rs:406-418); one draw for the nonce. -/
def wrapKey (c : Crypto) (draw : Nat) (aad : Bytes) (key : Key) : WrappedKey :=
  let nonce := c.random 12 draw
  ⟨.aes256Gcm, nonce, c.aeadSeal c.rootKey nonce aad key.toList⟩

/-- `unwrap_key` (keys.rs:421-440) of a reader's seed. -/
def unwrapSeed (c : Crypto) (aad : Bytes) (wrapped : WrappedKey) : VaultResult Key := do
  wrapped.validate
  let plaintext ← ofOption (.protection "cannot authenticate reader seed")
    (c.aeadOpen c.rootKey wrapped.nonce aad wrapped.ciphertext)
  if h : plaintext.toArray.size = 32 then .ok ⟨plaintext.toArray, h⟩
  else .error (.protection "invalid reader seed length")

/-- `ReaderIdentity::generate`. -/
def ReaderIdentity.generate (c : Crypto) (draw : Nat) : ReaderIdentity := ⟨c.random 64 draw, c.random 32 (draw + 1)⟩

/-- `protect_reader`: the encryption seed in two halves. -/
def protectReader (c : Crypto) (device : Device) (draw : Nat) (identity : ReaderIdentity) : WrappedReader where
  kemLeft := wrapKey c draw (installationKeyAad device "personal-sync-kem-left-v1")
    (Vector.ofFn fun i : Fin 32 => identity.encryptionSeed[i.val])
  kemRight := wrapKey c (draw + 1) (installationKeyAad device "personal-sync-kem-right-v1")
    (Vector.ofFn fun i : Fin 32 => identity.encryptionSeed[32 + i.val])
  signing := wrapKey c (draw + 2) (installationKeyAad device "personal-sync-signing-v1") identity.signingSeed

/-- `open_reader`. -/
def openReader (c : Crypto) (device : Device) (wrapped : WrappedReader) : VaultResult ReaderIdentity := do
  let left ← unwrapSeed c (installationKeyAad device "personal-sync-kem-left-v1") wrapped.kemLeft
  let right ← unwrapSeed c (installationKeyAad device "personal-sync-kem-right-v1") wrapped.kemRight
  let signing ← unwrapSeed c (installationKeyAad device "personal-sync-signing-v1") wrapped.signing
  return ⟨left ++ right, signing⟩

/-! ## Commands -/

/-- worker/sync.rs:19-36. -/
inductive SyncCommand (env : SyncEnv) where
  | identity
  | group
  | pairingStatus
  | pairing (command : PairingCommand env.toPairingEnv)
  | membership
  | configure (membership : Membership env.toReaderCrypto)
  | prepare
  | stored (packet : PacketId)
  | receive (bytes : Bytes)
  | status
  | conflicts (id : String)
  | resolve (id : String) (expected : ReplicaHeads) (item : Option PersonalSecret)

/-- What a command comes to: an answer; a state and a catalogue to save; a document already changed. -/
inductive SyncWork (env : SyncEnv) where
  | answer (reply : SyncReply env.toPairingEnv)
  | save (reply : SyncReply env.toPairingEnv) (state : PersonalSyncState env.toPairingEnv) (replicas : ReplicaCatalog)
  | commit (reply : SyncReply env.toPairingEnv) (mutation : DocumentMutation) (document : SecretDocument)

/-- `rejected_packet` (worker/sync.rs:351-353). -/
def rejectedPacket : VaultError := .protocol "personal sync packet was rejected"

/-- A result whose error is replaced. -/
def rejected {α : Type} : VaultResult α → VaultResult α
  | .ok a => .ok a
  | .error _ => .error rejectedPacket

/-- `replicas.replicas.keys().cloned().collect()`. -/
def ReplicaCatalog.allPending (catalog : ReplicaCatalog) : ReplicaCatalog :=
  { catalog with pending := ExtTreeSet.ofList catalog.replicas.keys }

/-- The membership of the pinned group is the one in force (worker/sync.rs:66-73). -/
def PersonalSyncState.checkPinned {env : PairingEnv} (state : PersonalSyncState env) : VaultResult Unit :=
  match state.pairing.group with
  | none => .ok ()
  | some pinned => do
    let group ← pinned.verified env
    ensure (state.membership.map Membership.digest = some group.membership.digest) notConfigured

/-- The items in conflict with their heads (worker/sync.rs:285-293). -/
def conflicted (env : SyncEnv) (d : SecretDocument) (replicas : ReplicaCatalog) :
    VaultResult (List (String × ReplicaHeads)) := do
  let found ← replicas.replicas.keys.mapM fun id => do
    let loaded : Option (PersonalReplica env.toReplicaEnv) ← replicas.load id d.actor
    let replica ← ofOption notConfigured loaded
    return if 1 < (← replica.values).length then some (id, replica.heads) else none
  return found.filterMap id

section

variable {env : SyncEnv} (device : Device) (state : PersonalSyncState env.toPairingEnv) (replicas : ReplicaCatalog)
  (draw : Nat) (now : UInt64)

/-- The reader, made and protected if there is none yet. -/
def ensureReader : WrappedReader × Nat :=
  match state.reader with
  | some wrapped => (wrapped, draw)
  | none => (protectReader env.toCrypto device (draw + 2) (ReaderIdentity.generate env.toCrypto draw), draw + 5)

/-- The courier offers the group that is already pinned (worker/sync.rs:129-134). -/
def unchangedGroup (command : PairingCommand env.toPairingEnv) : VaultResult Bool :=
  match command, state.pairing.group, state.reader with
  | .accept group, some pinned, some _ => do return (← pinned.verified env.toPairingEnv).digest = group.1.digest
  | _, _, _ => .ok false

/-- `Pairing` (worker/sync.rs:121-162). -/
def pairingCommand (command : PairingCommand env.toPairingEnv) : VaultResult (SyncWork env × Nat) := do
  let unchanged ← unchangedGroup state command
  let (wrapped, draw) := ensureReader device state draw
  let identity ← openReader env.toCrypto device wrapped
  let (reply, next, draw) ← handle { state with reader := some wrapped } identity draw now command
  if unchanged = true ∨ env.stateJson.encode state = env.stateJson.encode next then return (.answer reply, draw)
  else if state.membership.map Membership.digest ≠ next.membership.map Membership.digest then
    return (.save reply { next with prepared := none } replicas.allPending, draw)
  else return (.save reply next replicas, draw)

/-- `Identity` (worker/sync.rs:169-188). -/
def readerIdentity : VaultResult (SyncWork env × Nat) := do
  let (wrapped, draw) := ensureReader device state draw
  let identity ← openReader env.toCrypto device wrapped
  let reply := SyncReply.identity (identity.publicKeys env.toReaderCrypto)
  if state.reader.isSome then return (.answer reply, draw)
  else return (.save reply { state with reader := some wrapped } replicas, draw)

/-- `Configure` (worker/sync.rs:189-219). -/
def configure (membership : Membership env.toReaderCrypto) : VaultResult (SyncWork env) := do
  ensure (state.pairing.group = none ∧ state.pairing.joining = none ∧ state.pairing.introduction = none)
    (.protocol "signed membership is pinned; raw configuration is disabled")
  let wrapped ← ofOption notConfigured state.reader
  let identity ← openReader env.toCrypto device wrapped
  ensure (identity.publicKeys env.toReaderCrypto ∈ membership.members) notConfigured
  let next : SyncWork env := .save .done { state with membership := some membership, prepared := none } replicas.allPending
  match state.membership with
  | none => return next
  | some current =>
    if current.digest = membership.digest then return .answer .done
    else do
      ensure (current.group = membership.group ∧ current.epoch < membership.epoch)
        (.protocol "personal sync membership cannot roll back or change groups")
      return next

/-- `Prepare` (worker/sync.rs:220-248). -/
def prepare (d : SecretDocument) : VaultResult (SyncWork env × Nat) := do
  let membership ← ofOption notConfigured state.membership
  match state.prepared with
  | some prepared => do
    let _ ← VerifiedPacket.verify prepared.packet membership
    return (.answer (.prepared (some (prepared.packet, membership))), draw)
  | none =>
    match replicas.pending.min? with
    | none => return (.answer (.prepared none), draw)
    | some itemId => do
      let wrapped ← ofOption notConfigured state.reader
      let identity ← openReader env.toCrypto device wrapped
      let replica ← d.syncReplica env itemId
      let update ← replica.update
      let (packet, draw) ← identity.sealUpdate draw update membership
      let prepared : PreparedPublication := ⟨itemId, replica.heads, packet.bytes⟩
      return (.save (.prepared (some (packet.bytes, membership))) { state with prepared := some prepared } replicas, draw)

/-- `Stored` (worker/sync.rs:249-262). -/
def stored (d : SecretDocument) (packet : PacketId) : VaultResult (SyncWork env) := do
  let prepared ← ofOption notConfigured state.prepared
  let membership ← ofOption notConfigured state.membership
  let verified ← VerifiedPacket.verify prepared.packet membership
  ensure (verified.id = packet) (.protocol "unexpected personal publication receipt")
  let replica ← d.syncReplica env prepared.itemId
  let pending := if replica.heads = prepared.heads then replicas.pending.erase prepared.itemId else replicas.pending
  return .save .done { state with prepared := none } { replicas with pending }

/-- `Receive` (worker/sync.rs:263-283). -/
def receive (d : SecretDocument) (context : MutationContext) (bytes : Bytes) : VaultResult (SyncWork env × Nat) := do
  let membership ← ofOption notConfigured state.membership
  let packet ← rejected (VerifiedPacket.verify bytes membership)
  let wrapped ← ofOption notConfigured state.reader
  let identity ← openReader env.toCrypto device wrapped
  let update ← rejected (packet.openUpdate identity membership)
  let (outcome, change, draw) ← d.receivePersonal env draw packet.id update context
  match change with
  | none => return (.answer (.received outcome), draw)
  | some (mutation, d) => return (.commit (.received outcome) mutation d, draw)

/-- The id of the packet that is prepared, once it has been verified again (worker/sync.rs:311-321). -/
def preparedPacket : VaultResult (Option PacketId) :=
  match state.prepared with
  | none => .ok none
  | some prepared => do
    let membership ← ofOption notConfigured state.membership
    return some (← VerifiedPacket.verify prepared.packet membership).id

/-- `Status` (worker/sync.rs:284-324). -/
def status (d : SecretDocument) : VaultResult SyncStatus := do
  let conflicts ← conflicted env d replicas
  let conflictPackets := (state.receipts.filter fun receipt =>
    conflicts.any fun (id, heads) => id = receipt.itemId && receipt.heads.any (· ∈ heads)).length
  let prepared ← preparedPacket state
  return ⟨state.receipts.length - conflictPackets, conflictPackets,
    (state.membership.map fun membership => membership.members.length).getD 0, replicas.pending.size, prepared,
    conflicts.length⟩

/-- A group that may not be stored. -/
def verifiedOption (pinned : Option PinnedGroup) : VaultResult (Option (VerifiedGroup env.toGroupEnv)) :=
  match pinned with
  | none => .ok none
  | some pinned => do return some (← pinned.verified env.toPairingEnv)

/-- `PairingStatus` (worker/sync.rs:80-111). -/
def pairingStatus : VaultResult (PairingStatus env.toPairingEnv) := do
  let target ← verifiedOption (state.pairing.joining.map fun joining => joining.2.2)
  let introduction ← verifiedOption state.pairing.introduction
  return ⟨target, introduction, state.pairing.invitation.or (state.pairing.joining.map Prod.fst),
    (state.pairing.joining.map fun joining => joining.2.1).or state.pairing.staged, state.pairing.joining.isSome⟩

/-- The match of `personal_sync`. -/
def syncWork (d : SecretDocument) : SyncCommand env → VaultResult (SyncWork env × Nat)
  | .identity => readerIdentity device state replicas draw
  | .group => do
    let pinned ← ofOption notConfigured state.pairing.group
    return (.answer (.group (← pinned.verified env.toPairingEnv)), draw)
  | .pairingStatus => do return (.answer (.pairingStatus (← pairingStatus state)), draw)
  | .pairing command => pairingCommand device state replicas draw now command
  | .membership => do return (.answer (.membership (← ofOption notConfigured state.membership)), draw)
  | .configure membership => do return (← configure device state replicas membership, draw)
  | .prepare => prepare device state replicas draw d
  | .stored packet => do return (← stored state replicas d packet, draw)
  | .receive bytes => receive device state draw d (device.context (.service .personalSync) now) bytes
  | .status => do return (.answer (.status (← status state replicas d)), draw)
  | .conflicts id => do
    let (heads, values) ← d.syncConflicts env id
    return (.answer (.conflicts heads values), draw)
  | .resolve id expected item => do
    let (mutation, d, draw) ← d.resolvePersonal env draw id expected item (device.context (.service .personalSync) now)
    return (.commit .done mutation d, draw)

end

/-- `personal_sync` between the load and the commit: the reply, and the mutation with the document it leaves. -/
def SecretDocument.personalSync (env : SyncEnv) (device : Device) (d : SecretDocument) (draw : Nat) (now : UInt64)
    (command : SyncCommand env) :
    VaultResult (SyncReply env.toPairingEnv × Option (DocumentMutation × SecretDocument) × Nat) := do
  let state ← d.syncState env
  state.checkPinned
  let replicas ← d.personalReplicas env.toVaultEnv
  let (work, draw) ← syncWork device state replicas draw now d command
  match work with
  | .answer reply => return (reply, none, draw)
  | .save reply state replicas => do return (reply, some (← d.updateSyncState env state replicas), draw)
  | .commit reply mutation d => return (reply, some (mutation, d), draw)

/-- The outcome of a sync command for the store. -/
def personalSyncBody (env : SyncEnv) (device : Device) (now : UInt64) (command : SyncCommand env)
    (document : Option SecretDocument) (draws : Nat) : VaultResult (Outcome (SyncReply env.toPairingEnv)) := do
  let d := document.getD (SecretDocument.new device.actorId .localKeyring personalSecretNamespace)
  let (reply, change, draws) ← d.personalSync env device draws now command
  return ⟨reply, change.map Prod.fst, draws⟩

/-- `personal_sync` (worker/sync.rs:54-345). -/
def StoreOps.personalSync {σ : Type} (env : SyncEnv) (device : Device) (S : StoreOps σ) (s : σ) (now : UInt64)
    (command : SyncCommand env) : VaultResult (SyncReply env.toPairingEnv × σ) :=
  S.transact s (env.documentId device .localKeyring personalSecretNamespace) .localKeyring (some personalSecretNamespace)
    (device.context (.service .personalSync) now) (personalSyncBody env device now command)

end FactorSeal

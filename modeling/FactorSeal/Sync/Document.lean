import FactorSeal.Sync.Packet

/-! # Sync data in the personal document (document/sync.rs)

The sync state and the replica catalogue are two entries at the root of the personal document, beside the records. A
received update changes all three in one mutation: the merged history into the catalogue, the receipt into the state, and
the first value of the register that is not a tombstone into the record of the item. -/

namespace FactorSeal

open Wire Except

/-- The limit of a saved sync state, 16 MiB. -/
def maxStateBytes : Nat := 16 * 1024 * 1024
/-- The limit of the list of receipts. -/
def maxReceipts : Nat := 4096

namespace SecretDocument

variable (env : SyncEnv) (d : SecretDocument)

/-- `sync_state` (sync.rs:41-59). -/
def syncState : VaultResult (PersonalSyncState env.toPairingEnv) := do
  ensure d.isPersonal descriptorMismatch
  match d.personal.syncState with
  | none => return .empty _
  | some bytes => do
    ensure (bytes.length ≤ maxStateBytes) descriptorMismatch
    ofOption descriptorMismatch (env.stateJson.decode bytes).toOption

/-- `save_sync_state` (sync.rs:60-79). -/
def saveSyncState (state : PersonalSyncState env.toPairingEnv) : VaultResult SecretDocument := do
  let bytes := env.stateJson.encode state
  ensure (bytes.length ≤ maxStateBytes) (.protocol "personal sync state is full")
  return { d with personal := { d.personal with layout := some 1, syncState := some bytes } }

/-- `update_sync_state` (sync.rs:80-90). -/
def updateSyncState (state : PersonalSyncState env.toPairingEnv) (replicas : ReplicaCatalog) :
    VaultResult (DocumentMutation × SecretDocument) := do
  let d ← d.saveSyncState env state
  let d ← d.savePersonalReplicas env.toVaultEnv replicas
  d.finishMutation env.toVaultEnv

/-- `sync_replica` (sync.rs:94-98). -/
def syncReplica (id : String) : VaultResult (PersonalReplica env.toReplicaEnv) := do
  let catalog ← d.personalReplicas env.toVaultEnv
  let loaded : Option (PersonalReplica env.toReplicaEnv) ← catalog.load id d.actor
  ofOption descriptorMismatch loaded

/-- `sync_conflicts` (sync.rs:99-106). -/
def syncConflicts (id : String) : VaultResult (ReplicaHeads × List (Option PersonalSecret)) := do
  let replica ← d.syncReplica env id
  let values ← replica.values
  return (replica.heads, values)

/-- `materialize_sync_value` (sync.rs:107-126). -/
def materializeSyncValue (draw : Nat) (id : String) (values : List (Option PersonalSecret))
    (context : MutationContext) : VaultResult (SecretDocument × Nat) := do
  let address ← SecretAddress.newLocal id none
  match values.findSome? fun value => value with
  | some item => do
    let bytes ← ofOption descriptorMismatch (env.itemJson.encode item)
    d.putValueUncommitted env.toVaultEnv draw address bytes none context false
  | none => do
    let (d, _) ← d.deleteValueUncommitted env.toVaultEnv address .delete false
    return (d, draw)

/-- How `receive_personal` names what happened (sync.rs:154-160). -/
def receiveOutcome (changed : Bool) (values : List (Option PersonalSecret)) : ReceiveOutcome :=
  if changed = false then .duplicate
  else if 1 < values.length then .conflict
  else .applied

/-- The closure `receive_personal` runs as one mutation (sync.rs:174-181). -/
def receiveMutation (draw : Nat) (id : String) (changed : Bool) (values : List (Option PersonalSecret))
    (state : PersonalSyncState env.toPairingEnv) (catalog : ReplicaCatalog) (context : MutationContext) :
    VaultResult (DocumentMutation × SecretDocument × Nat) := do
  let (d, draw) ← if changed then d.materializeSyncValue env draw id values context else .ok (d, draw)
  let d ← d.saveSyncState env state
  let d ← d.savePersonalReplicas env.toVaultEnv catalog
  let (mutation, d) ← d.finishMutation env.toVaultEnv
  return (mutation, d, draw)

/-- `receive_personal` (sync.rs:127-183). -/
def receivePersonal (draw : Nat) (packet : PacketId) (update : PersonalUpdate) (context : MutationContext) :
    VaultResult (ReceiveOutcome × Option (DocumentMutation × SecretDocument) × Nat) := do
  let state ← d.syncState env
  if ∃ receipt ∈ state.receipts, receipt.packet = packet then return (.duplicate, none, draw)
  else do
    ensure (state.receipts.length < maxReceipts) (.protocol "personal sync receipts are full")
    let id := update.itemId
    let catalog ← d.personalReplicas env.toVaultEnv
    let replica : PersonalReplica env.toReplicaEnv ← catalog.loadOrNew id d.actor
    let (replica, changed) ← replica.merge update
    let values ← replica.values
    let incoming : PersonalReplica env.toReplicaEnv ← PersonalReplica.fromUpdate update (utf8 "packet-reader")
    let state := { state with receipts := state.receipts ++ [⟨packet, id, incoming.heads⟩] }
    -- what came in covers the local history, so nothing of this item is left to publish
    let pending := if replica.heads = incoming.heads then catalog.pending.erase id else catalog.pending
    let catalog ← ReplicaCatalog.store { catalog with pending } id replica false
    let (mutation, d, draw) ← d.receiveMutation env draw id changed values state catalog context
    return (receiveOutcome changed values, some (mutation, d), draw)

/-- `resolve_personal` (sync.rs:185-204). -/
def resolvePersonal (draw : Nat) (id : String) (expected : ReplicaHeads) (item : Option PersonalSecret)
    (context : MutationContext) : VaultResult (DocumentMutation × SecretDocument × Nat) := do
  let replica ← d.syncReplica env id
  ensure (2 ≤ (← replica.values).length) .conflict
  let replica ← replica.set item (some expected)
  let catalog ← d.personalReplicas env.toVaultEnv
  let values ← replica.values
  let catalog ← catalog.store id replica true
  let (d, draw) ← d.materializeSyncValue env draw id values context
  let d ← d.savePersonalReplicas env.toVaultEnv catalog
  let (mutation, d) ← d.finishMutation env.toVaultEnv
  return (mutation, d, draw)

end SecretDocument

end FactorSeal

import FactorSeal.Vault.Document

/-! # Upgrading a personal document (document/personal.rs:109-203, document/replicas.rs:123-169)

Two upgrades run when a store is opened: personal items that were filed under their titles get addresses of their own,
and items without a replica get one. A document that has been written by the present code needs neither
(`migratePersonal_of_layout`, `migratePersonalReplicas_of_replicas`). -/

namespace FactorSeal

open Wire Except Std

/-- The refusal of `tombstones`. -/
def invalidJournal : VaultError := .invalidData "invalid legacy personal journal"

/-- The loop of `tombstones`: the latest revision of each item and whether it deletes the item. -/
def journalHeads : List LegacyRevision → List (Vector UInt8 16) → ExtTreeMap String (Vector UInt8 16 × Bool) →
    VaultResult (ExtTreeMap String (Vector UInt8 16 × Bool))
  | [], _, heads => .ok heads
  | revision :: rest, ids, heads => do
    ensure (revision.itemId ≠ "" ∧ revision.itemId.utf8ByteSize ≤ 1024 ∧ revision.id ∉ ids ∧
      heads[revision.itemId]?.map Prod.fst = revision.parent) invalidJournal
    journalHeads rest (revision.id :: ids) (heads.insert revision.itemId (revision.id, revision.deleted))

/-- `legacy_revision::tombstones` (legacy_revision.rs:22-51): the items the journal ends by deleting. -/
def tombstones (env : VaultEnv) (bytes : Bytes) : VaultResult (List String) := do
  ensure (bytes.length ≤ 16 * 1024 * 1024) invalidJournal
  let journal ← ofOption invalidJournal (env.journalJson.decode bytes).toOption
  ensure (journal.revisions.length ≤ 100000) invalidJournal
  let heads ← journalHeads journal.revisions [] ∅
  ensure (journal.pending.all fun id => heads.toList.any fun p => p.2.1 = id) invalidJournal
  return (heads.toList.filter fun p => p.2.2).map Prod.fst

namespace SecretDocument

variable (env : VaultEnv) (d : SecretDocument)

/-- The first loop of `migrate_personal`: a record with the item it holds. -/
def legacyRecord (entry : String × SecretAddress) : VaultResult (SecretRecord × PersonalSecret) :=
  match d.records entry.1 with
  | [record] =>
    match record.address with
    | .local title _ => do
      let item ← ofOption (.invalidData "invalid legacy personal item") (env.decodeItem title record.value)
      return (record, item)
    | .secretSpec _ => .error descriptorMismatch
  | _ => .error .conflict

/-- `loop { … }` around `Uuid::new_v4`: the first fresh one. More attempts than there are ids taken are only made if
UUIDs repeat. -/
def freshId (reserved : List String) : Nat → Nat → VaultResult (String × Nat)
  | 0, _ => .error .workerUnavailable
  | attempts + 1, draw =>
    if env.uuid draw ∈ reserved then freshId reserved attempts (draw + 1) else .ok (env.uuid draw, draw + 1)

/-- What the second loop of `migrate_personal` carries along. -/
structure Migration where
  seen : List String
  reserved : List String
  aliases : List (String × SecretAddress)
  addressMigrations : List (SecretAddress × SecretAddress)
  replicas : ReplicaCatalog
  entries : Entries
  draw : Nat

/-- The id an item is filed under: its own, unless another item has it or it cannot be an address. -/
def migratedId (state : Migration) (item : PersonalSecret) : VaultResult (String × List String × Nat) :=
  if item.id ∈ state.seen ∨ item.hasStorageId = false then do
    let (id, draw) ← freshId env state.reserved (state.reserved.length + 1) state.draw
    return (id, id :: state.reserved, draw)
  else .ok (item.id, state.reserved, state.draw)

/-- The body of the second loop (personal.rs:153-187). -/
def migrateRecord (state : Migration) (entry : SecretRecord × PersonalSecret) : VaultResult Migration := do
  let (record, item) := entry
  let (id, reserved, draw) ← migratedId env state item
  let seen := item.id :: state.seen
  let item := { item with id }
  let address ← SecretAddress.newLocal id none
  let replica : PersonalReplica env.toReplicaEnv ← PersonalReplica.new id d.actor
  let replica ← replica.set (some item) none
  let replicas ← state.replicas.store id replica true
  let value ← ofOption (.invalidData "invalid migrated personal item") (env.itemJson.encode item)
  let record := { record with address, value }
  return { seen, reserved, aliases := state.aliases ++ [(id, entry.1.address)],
           addressMigrations := state.addressMigrations ++ [(entry.1.address, address)], replicas,
           entries := state.entries.insert (address.storageKey env.sha256) [record], draw }

/-- `migrate_personal` (personal.rs:111-203). -/
def migratePersonal (draw : Nat) : VaultResult (Option DocumentMutation × SecretDocument × Nat) :=
  if d.isPersonal then
    match d.personal.layout with
    | some layout => do
      ensure (layout = 1) (.invalidData "unsupported personal layout")
      return (none, d, draw)
    | none => do
      let addresses ← d.addresses env
      let records ← addresses.mapM (d.legacyRecord env)
      let entries := addresses.foldl (fun entries p => entries.erase p.1) d.entries
      let state ← records.foldlM (d.migrateRecord env)
        ⟨[], records.map fun p => p.2.id, [], [], ⟨∅, ∅⟩, entries, draw⟩
      let d ← { d with entries := state.entries }.savePersonalReplicas env state.replicas
      let d := { d with personal := { d.personal with aliases := some (env.aliasesJson state.aliases), layout := some 1 } }
      let (mutation, d) ← d.finishMutation env
      return (some { mutation with addressMigrations := state.addressMigrations }, d, state.draw)
  else .ok (none, d, draw)

/-- A replica that starts from one value or tombstone. -/
def seedReplica (catalog : ReplicaCatalog) (id : String) (item : Option PersonalSecret) : VaultResult ReplicaCatalog := do
  let replica : PersonalReplica env.toReplicaEnv ← PersonalReplica.new id d.actor
  let replica ← replica.set item none
  catalog.store id replica true

/-- The first loop of `migrate_personal_replicas`. -/
def replicateRecord (catalog : ReplicaCatalog) (entry : String × SecretAddress) : VaultResult ReplicaCatalog :=
  match entry.2 with
  | .local id _ => do
    let record ← ofOption descriptorMismatch (d.records entry.1).head?
    let item ← ofOption descriptorMismatch (env.itemJson.decodeCurrent record.value)
    d.seedReplica env catalog id (some item)
  | .secretSpec _ => .error descriptorMismatch

/-- The second loop: the deletions of the old journal. -/
def replicateTombstone (catalog : ReplicaCatalog) (id : String) : VaultResult ReplicaCatalog := do
  ensure (id ∉ catalog.replicas) descriptorMismatch
  d.seedReplica env catalog id none

/-- `migrate_personal_replicas` (replicas.rs:125-169). -/
def migratePersonalReplicas : VaultResult (Option DocumentMutation × SecretDocument) :=
  if d.isPersonal = false ∨ d.personal.replicas.isSome then .ok (none, d)
  else do
    let addresses ← d.addresses env
    let catalog ← addresses.foldlM (d.replicateRecord env) ⟨∅, ∅⟩
    let deleted ← match d.legacyRevisions with
      | some bytes => tombstones env bytes
      | none => .ok []
    let catalog ← deleted.foldlM (d.replicateTombstone env) catalog
    let d ← d.savePersonalReplicas env catalog
    let (mutation, d) ← d.finishMutation env
    return (some mutation, d)

end SecretDocument

end FactorSeal

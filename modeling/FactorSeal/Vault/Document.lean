import FactorSeal.Personal.Replica
import FactorSeal.Store.State
import FactorSeal.Vault.History
import FactorSeal.Vault.SecretService
import Std.Data.ExtTreeSet.Lemmas

/-! # Secret documents (vault/document.rs, document/personal.rs, document/replicas.rs)

A document is an Automerge map of records by storage key, with the metadata of the personal document beside it. What is
persisted is always a projection onto a fresh document, so Automerge and serde come in as one format of the whole root
(`VaultEnv.documentFormat`), and every function below works on the decoded root. The record list of a key has more than
one element only where Automerge holds concurrent values.

A failing operation leaves the document it was given: `mutate` (document.rs:471-484) rolls back, here the caller still has
the old value. Random version ids are drawn in order; `draw` is the number of draws so far. -/

namespace FactorSeal

open Wire Except Std

/-- document.rs:32-44. -/
structure SecretRecord where
  version : UInt8
  address : SecretAddress
  value : Bytes
  evictAt : Option UInt64
  versionId : VersionId
  createdAt : UInt64
  updatedAt : UInt64
deriving DecidableEq, Repr

/-- The visible records of each storage key. -/
abbrev Entries := ExtTreeMap String (List SecretRecord)

/-- `PERSONAL_LAYOUT`, `PERSONAL_ALIASES`, `REPLICAS` and `STATE_KEY`: the personal document's metadata, kept as it is by
a projection. -/
structure PersonalMetadata where
  layout : Option UInt64
  aliases : Option Bytes
  replicas : Option Bytes
  syncState : Option Bytes
deriving DecidableEq

/-- The root of a saved Automerge document, as far as `load` reads it. -/
structure DocumentRoot where
  format : Option String
  formatVersion : Option UInt64
  partition : Option Bytes
  entries : Option Entries
  personal : PersonalMetadata
  /-- `personal-revisions-v1`, dropped by a projection. -/
  legacyRevisions : Option Bytes

/-- document/replicas.rs:13-18. -/
structure ReplicaCatalog where
  replicas : ExtTreeMap String Bytes
  pending : ExtTreeSet String

/-- One revision of the journal personal documents kept before they had replicas (personal/legacy_revision.rs). -/
structure LegacyRevision where
  id : Vector UInt8 16
  itemId : String
  parent : Option (Vector UInt8 16)
  deleted : Bool
deriving DecidableEq, Repr

structure LegacyJournal where
  revisions : List LegacyRevision
  pending : List (Vector UInt8 16)
deriving DecidableEq, Repr

/-- Everything the vault's documents use of other code: the store's environment, Automerge, serde and the UUIDs. -/
structure VaultEnv extends Env, ReplicaEnv where
  historyJson : Codec HistoryLog
  historyEntrySize : HistoryEntry → Nat
  /-- `AutoCommit::save` and `load`. -/
  documentFormat : Codec DocumentRoot
  catalogJson : Codec ReplicaCatalog
  indexJson : Codec Index
  attributesJson : ExtTreeMap String String → Bytes
  aliasesJson : List (String × SecretAddress) → Bytes
  journalJson : Codec LegacyJournal
  /-- `PersonalSecret::decode` (personal.rs:427-444): an item in any of the formats there have been. -/
  decodeItem : String → Bytes → Option PersonalSecret
  /-- `website::host`, for display. -/
  websiteHost : String → Option String
  /-- The `n`-th `Uuid::new_v4`. -/
  uuid : Nat → String

structure SecretDocument where
  actor : Bytes
  kind : DocumentKind
  partition : Bytes
  entries : Entries
  personal : PersonalMetadata
  legacyRevisions : Option Bytes
  pending : List PendingHistory

/-- document.rs:54-65. -/
structure DocumentMutation where
  addressMigrations : List (SecretAddress × SecretAddress)
  snapshot : Bytes
  partition : Bytes
  history : List PendingHistory
  nextEviction : Option UInt64
deriving DecidableEq

inductive SecretRead where
  | missing
  | value (value : Bytes)
  | conflict
  | expired
deriving DecidableEq, Repr

inductive DocumentOperation where
  | put (address : SecretAddress) (value : Bytes) (evictAt : Option UInt64)
  | delete (address : SecretAddress)
deriving DecidableEq, Repr

structure MutationContext where
  now : UInt64
  provenance : Provenance
  deviceKeyId : DeviceKeyId
deriving DecidableEq, Repr

def formatVersion : UInt64 := 3
def personalFormatVersion : UInt64 := 6
def recordVersion : UInt8 := 2
/-- `PERSONAL_SECRET_NAMESPACE` (personal.rs:1123). -/
def personalSecretNamespace : Bytes := utf8 "factorseal/personal-secrets/v1"
def maxCatalogBytes : Nat := 32 * 1024 * 1024
def maxReplicas : Nat := 4096

/-- `descriptor_mismatch` (document.rs:764-768). -/
def descriptorMismatch : VaultError :=
  .invalidData "Automerge document metadata does not match its protected descriptor"

/-- `SecretAddress::new(item, field)`. -/
def SecretAddress.newLocal (item : String) (field : Option String) : VaultResult SecretAddress := do
  (SecretAddress.local item field).validate
  return .local item field

def isPersonal (kind : DocumentKind) (partition : Bytes) : Bool :=
  kind = .localKeyring && partition = personalSecretNamespace

namespace SecretDocument

/-- document.rs:116-147. -/
def new (actor : Bytes) (kind : DocumentKind) (partition : Bytes) : SecretDocument :=
  ⟨actor, kind, partition, ∅, ⟨none, none, none, none⟩, none, []⟩

def isPersonal (d : SecretDocument) : Bool := FactorSeal.isPersonal d.kind d.partition

/-- `load` (document.rs:149-189). -/
def load (env : VaultEnv) (snapshot actor : Bytes) (kind : DocumentKind) (expected : Option Bytes) :
    VaultResult SecretDocument :=
  match env.documentFormat.decode snapshot with
  | .error message => .error (.automerge message)
  | .ok root => do
    let partition ← ofOption descriptorMismatch root.partition
    ensure (root.format = some kind.asStr ∧
      (root.formatVersion = some formatVersion ∨
        (FactorSeal.isPersonal kind partition ∧
          (root.formatVersion = some 4 ∨ root.formatVersion = some 5 ∨
            root.formatVersion = some personalFormatVersion))) ∧
      ∀ p ∈ expected, partition = p) descriptorMismatch
    let entries ← ofOption (.invalidData "secret document has no \x60entries\x60 object") root.entries
    return ⟨actor, kind, partition, entries, root.personal, root.legacyRevisions, []⟩

variable (env : VaultEnv) (d : SecretDocument)

/-- `records`: every visible record for one storage key. -/
def records (key : String) : List SecretRecord := d.entries[key]?.getD []

/-- document.rs:770-777. -/
def validateRecord (record : SecretRecord) (address : SecretAddress) : VaultResult Unit :=
  ensure (record.version = recordVersion ∧ record.address = address)
    (.invalidData "secret document record does not match its authenticated address")

/-- document.rs:779-786. -/
def validateRecordKey (record : SecretRecord) (key : String) : VaultResult Unit :=
  ensure (record.version = recordVersion ∧ record.address.storageKey env.sha256 = key)
    (.invalidData "secret document record does not match its authenticated index")

/-! ## The replica catalogue (document/replicas.rs) -/

/-- `personal_replicas` (replicas.rs:54-78). -/
def personalReplicas : VaultResult ReplicaCatalog := do
  ensure d.isPersonal descriptorMismatch
  match d.personal.replicas with
  | none => return ⟨∅, ∅⟩
  | some bytes =>
    ensure (bytes.length ≤ maxCatalogBytes) descriptorMismatch
    match env.catalogJson.decode bytes with
    | .error _ => .error descriptorMismatch
    | .ok catalog =>
      ensure (catalog.replicas.size ≤ maxReplicas ∧ catalog.pending.toList.all (· ∈ catalog.replicas))
        descriptorMismatch
      return catalog

/-- `save_personal_replicas` (replicas.rs:79-91). -/
def savePersonalReplicas (catalog : ReplicaCatalog) : VaultResult SecretDocument := do
  let bytes := env.catalogJson.encode catalog
  ensure (bytes.length ≤ maxCatalogBytes) (.protocol "personal replica catalog is full")
  return { d with personal := { d.personal with replicas := some bytes } }

end SecretDocument

namespace ReplicaCatalog

variable {env : VaultEnv}

/-- `ReplicaCatalog::load` (replicas.rs:20-25). -/
def load (catalog : ReplicaCatalog) (id : String) (actor : Bytes) :
    VaultResult (Option (PersonalReplica env.toReplicaEnv)) :=
  match catalog.replicas[id]? with
  | none => return none
  | some bytes => do return some (← PersonalReplica.load id bytes actor)

/-- `catalog.load(id, actor)?.unwrap_or(PersonalReplica::new(id, actor)?)`: the fresh replica is made in any case. -/
def loadOrNew (catalog : ReplicaCatalog) (id : String) (actor : Bytes) :
    VaultResult (PersonalReplica env.toReplicaEnv) := do
  let loaded ← catalog.load id actor
  let fresh ← PersonalReplica.new id actor
  return loaded.getD fresh

/-- `ReplicaCatalog::store` (replicas.rs:26-43). -/
def store (catalog : ReplicaCatalog) (id : String) (replica : PersonalReplica env.toReplicaEnv) (pending : Bool) :
    VaultResult ReplicaCatalog := do
  ensure (id ∈ catalog.replicas ∨ catalog.replicas.size < maxReplicas) (.protocol "personal replica catalog is full")
  let bytes ← replica.save
  return ⟨catalog.replicas.insert id bytes, if pending then catalog.pending.insert id else catalog.pending⟩

end ReplicaCatalog

namespace SecretDocument

variable (env : VaultEnv) (d : SecretDocument)

/-- `ensure_personal_unconflicted` (personal.rs:31-42). -/
def ensurePersonalUnconflicted (address : SecretAddress) : VaultResult Unit :=
  match d.isPersonal, address with
  | true, .local id _ => do
    let catalog ← d.personalReplicas env
    let loaded : Option (PersonalReplica env.toReplicaEnv) ← catalog.load id d.actor
    match loaded with
    | none => return ()
    | some replica => ensure ((← replica.values).length ≤ 1) .conflict
  | _, _ => .ok ()

/-- `validate_personal_put` (personal.rs:48-68). -/
def validatePersonalPut (address : SecretAddress) (value : Bytes) (evictAt : Option UInt64) :
    VaultResult SecretDocument :=
  if d.isPersonal then do
    let item ← ofOption (.protocol "invalid personal item") (env.itemJson.decodeCurrent value)
    ensure (address = .local item.id none ∧ evictAt = none)
      (.protocol "personal items must be addressed by ID and cannot expire")
    return { d with personal := { d.personal with layout := some 1 } }
  else .ok d

/-- The item a change leaves behind: what the record holds now, or nothing (replicas.rs:109-118). -/
def changedItem (address : SecretAddress) (deleted : Bool) : VaultResult (Option PersonalSecret) :=
  if deleted then .ok none else do
    let record ← ofOption descriptorMismatch (d.records (address.storageKey env.sha256)).head?
    let item ← ofOption descriptorMismatch (env.itemJson.decodeCurrent record.value)
    return some item

/-- `record_personal_change` (replicas.rs:92-122). -/
def recordPersonalChange (address : SecretAddress) (deleted : Bool) : VaultResult SecretDocument :=
  if d.isPersonal then
    match address with
    | .local id none => do
      let catalog ← d.personalReplicas env
      let replica : PersonalReplica env.toReplicaEnv ← catalog.loadOrNew id d.actor
      let item ← d.changedItem env address deleted
      let replica ← replica.set item none
      let catalog ← catalog.store id replica true
      d.savePersonalReplicas env catalog
    | _ => .error descriptorMismatch
  else .ok d

/-! ## Mutations -/

/-- `put_value_uncommitted` (document.rs:497-549). -/
def putValueUncommitted (draw : Nat) (address : SecretAddress) (value : Bytes) (evictAt : Option UInt64)
    (context : MutationContext) (recordRevision : Bool) : VaultResult (SecretDocument × Nat) := do
  let d ← d.validatePersonalPut env address value evictAt
  let key := address.storageKey env.sha256
  let existing := (d.records key).head?
  let changed := decide (∀ record ∈ existing, record.value ≠ value ∨ record.evictAt ≠ evictAt)
  let (versionId, draw) := match existing, changed with
    | some record, false => (record.versionId, draw)
    | _, _ => (env.random 16 draw, draw + 1)
  let record : SecretRecord := ⟨recordVersion, address, value, evictAt, versionId,
    (existing.map SecretRecord.createdAt).getD context.now, context.now⟩
  let d := { d with entries := d.entries.insert key [record] }
  let d ← if changed && recordRevision then d.recordPersonalChange env address false else .ok d
  let d := if changed || d.kind.historyRetention.recordUnchanged then
    { d with pending := d.pending ++ [⟨.put changed, address, some versionId, existing.map SecretRecord.versionId,
      evictAt⟩] } else d
  return (d, draw)

/-- `put_uncommitted` (document.rs:486-495). -/
def putUncommitted (draw : Nat) (address : SecretAddress) (value : Bytes) (evictAt : Option UInt64)
    (context : MutationContext) : VaultResult (SecretDocument × Nat) := do
  d.ensurePersonalUnconflicted env address
  d.putValueUncommitted env draw address value evictAt context true

/-- `delete_value_uncommitted` (document.rs:588-613). -/
def deleteValueUncommitted (address : SecretAddress) (operation : HistoryOperation) (recordRevision : Bool) :
    VaultResult (SecretDocument × Bool) :=
  let key := address.storageKey env.sha256
  match (d.records key).head? with
  | none => .ok (d, false)
  | some existing => do
    let d := { d with entries := d.entries.erase key }
    let d ← if recordRevision then d.recordPersonalChange env address true else .ok d
    return ({ d with pending := d.pending ++ [⟨operation, address, none, some existing.versionId,
      existing.evictAt⟩] }, true)

/-- `delete_uncommitted` (document.rs:579-586). -/
def deleteUncommitted (address : SecretAddress) (operation : HistoryOperation) : VaultResult (SecretDocument × Bool) := do
  d.ensurePersonalUnconflicted env address
  d.deleteValueUncommitted env address operation true

/-- The one visible record of a key that a projection keeps (document.rs:706-724). -/
def visibleRecord : List SecretRecord → VaultResult SecretRecord
  | [] => .error (.invalidData "secret document entry has no visible record")
  | record :: rest => do
    ensure (rest.all (· = record)) .conflict
    return record

/-- The earlier of two deadlines. -/
def earlier (current deadline : Option UInt64) : Option UInt64 :=
  match current, deadline with
  | some a, some b => some (min a b)
  | some a, none => some a
  | none, deadline => deadline

/-- `project` (document.rs:700-738): the records as one record each, and the earliest deadline among them. -/
def project : VaultResult (SecretDocument × Option UInt64) := do
  let kept ← d.entries.toList.mapM fun (key, records) => do return (key, ← visibleRecord records)
  let entries : Entries := ExtTreeMap.ofList (kept.map fun (key, record) => (key, [record]))
  let deadline := kept.foldl (fun deadline p => earlier deadline p.2.evictAt) none
  let personal := if d.isPersonal then d.personal else ⟨none, none, none, none⟩
  return ({ new d.actor d.kind d.partition with entries, personal }, deadline)

/-- The root `save` writes for a projected document. -/
def root : DocumentRoot where
  format := some d.kind.asStr
  formatVersion := some (if d.isPersonal then personalFormatVersion else formatVersion)
  partition := some d.partition
  entries := some d.entries
  personal := d.personal
  legacyRevisions := d.legacyRevisions

/-- `finish_mutation` (document.rs:680-692). -/
def finishMutation : VaultResult (DocumentMutation × SecretDocument) := do
  let (projection, nextEviction) ← d.project
  return (⟨[], env.documentFormat.encode projection.root, d.partition, d.pending, nextEviction⟩, projection)

/-- `put` (document.rs:421-432). -/
def put (draw : Nat) (address : SecretAddress) (value : Bytes) (evictAt : Option UInt64) (context : MutationContext) :
    VaultResult (DocumentMutation × SecretDocument × Nat) := do
  let (d, draw) ← d.putUncommitted env draw address value evictAt context
  let (mutation, d) ← d.finishMutation env
  return (mutation, d, draw)

/-- One operation of `apply` (document.rs:444-458): whether anything has changed so far. -/
def applyOne (context : MutationContext) (state : SecretDocument × Nat × Bool) :
    DocumentOperation → VaultResult (SecretDocument × Nat × Bool)
  | .put address value evictAt => do
    let (d, draw) ← state.1.putUncommitted env state.2.1 address value evictAt context
    return (d, draw, true)
  | .delete address => do
    let (d, removed) ← state.1.deleteUncommitted env address .delete
    return (d, state.2.1, state.2.2 || removed)

/-- `apply` (document.rs:436-464). -/
def apply (draw : Nat) (operations : List DocumentOperation) (context : MutationContext) :
    VaultResult (Option DocumentMutation × SecretDocument × Nat) := do
  let (changedDocument, draw, changed) ← operations.foldlM (applyOne env context) (d, draw, false)
  if changed then
    let (mutation, d) ← changedDocument.finishMutation env
    return (some mutation, d, draw)
  else return (none, changedDocument, draw)

/-- `remove` (document.rs:566-577), the body of `delete` and `expire`. -/
def remove (address : SecretAddress) (operation : HistoryOperation) :
    VaultResult (Option DocumentMutation × SecretDocument) := do
  let (changedDocument, removed) ← d.deleteUncommitted env address operation
  if removed then
    let (mutation, d) ← changedDocument.finishMutation env
    return (some mutation, d)
  else return (none, changedDocument)

/-- document.rs:551-556. -/
def delete (address : SecretAddress) : VaultResult (Option DocumentMutation × SecretDocument) :=
  d.remove env address .delete

/-- document.rs:559-564. -/
def expire (address : SecretAddress) : VaultResult (Option DocumentMutation × SecretDocument) :=
  d.remove env address .expire

/-- A record's deadline has passed. -/
def expiredAt (now : UInt64) (record : SecretRecord) : Bool :=
  match record.evictAt with
  | some deadline => deadline ≤ now
  | none => false

/-- The inner loop of `purge_expired` (document.rs:622-628): the address of the first record that is due. -/
def firstExpired (now : UInt64) (key : String) : List SecretRecord → VaultResult (Option SecretAddress)
  | [] => .ok none
  | record :: rest => do
    validateRecordKey env record key
    if expiredAt now record then return some record.address else firstExpired now key rest

/-- `purge_expired` (document.rs:616-637). -/
def purgeExpired (now : UInt64) : VaultResult (Option DocumentMutation × SecretDocument) := do
  let expired ← d.entries.toList.mapM fun (key, records) => firstExpired env now key records
  match expired.filterMap id with
  | [] => return (none, d)
  | addresses => do
    let d ← addresses.foldlM (fun d address => do return (← d.deleteUncommitted env address .expire).1) d
    let (mutation, d) ← d.finishMutation env
    return (some mutation, d)

/-- `clear` (document.rs:639-654). -/
def clear : VaultResult (Option (Nat × DocumentMutation) × SecretDocument) := do
  match d.entries.toList with
  | [] => return (none, d)
  | entries => do
    let d ← entries.foldlM (fun d (key, _) =>
      match (d.records key).head? with
      | none => .ok d
      | some record => do return (← d.deleteUncommitted env record.address .clear).1) d
    let (mutation, d) ← d.finishMutation env
    return (some (entries.length, mutation), d)

/-! ## Reads -/

/-- The body of `addresses` for one key (document.rs:364-382). -/
def addressOf (key : String) : Option SecretAddress → List SecretRecord → VaultResult SecretAddress
  | none, [] => .error (.invalidData "secret document entry has no visible record")
  | some address, [] => .ok address
  | seen, record :: rest => do
    validateRecordKey env record key
    ensure (∀ address ∈ seen, address = record.address) .conflict
    addressOf key (some record.address) rest

/-- `addresses` (document.rs:362-384). -/
def addresses : VaultResult (List (String × SecretAddress)) :=
  d.entries.toList.mapM fun (key, records) => do return (key, ← addressOf env key none records)

/-- `get_with_deadline` (document.rs:390-419). -/
def getWithDeadline (address : SecretAddress) (now : UInt64) : VaultResult (SecretRead × Option UInt64) := do
  d.ensurePersonalUnconflicted env address
  match d.records (address.storageKey env.sha256) with
  | [] => return (.missing, none)
  | first :: rest => do
    (first :: rest).forM fun record => validateRecord record address
    if (first :: rest).any (expiredAt now) then return (.expired, none)
    else if rest.any (·.value ≠ first.value) then return (.conflict, none)
    else return (.value first.value, (first :: rest).foldl (fun deadline r => earlier deadline r.evictAt) none)

/-- document.rs:386-388. -/
def get (address : SecretAddress) (now : UInt64) : VaultResult SecretRead := do
  return (← d.getWithDeadline env address now).1

end SecretDocument

end FactorSeal

import FactorSeal.Store.Mutation
import FactorSeal.Vault.Listing
import FactorSeal.Vault.Migration

/-! # The commands of the store worker (vault/store/worker.rs)

Every command loads documents, works on them and commits what it changed, so the commands are written over the few
things they use of the store (`StoreOps`): the check of the live inventory, the trusted inventory itself, a document's
history, and one document's load, work and commit (`transact`). `StoreWorker.ops` is the store as it is, with its
database; the commands' other instance is the vault without tables and encryption that the worker refines.

| here | there |
| --- | --- |
| `Command`, `execute` | `Command` and `execute_command` (worker.rs:243-331, 435-604) |
| `get` … `listHistory` | the methods of these names (worker.rs:778-1260); `getBody` and its like are their middle parts |
| `initializeCurrentState`, `finishMigrationRepack` | state.rs:42-53, 371-391 |
| `migratePersonalDocument`, `openStore` | `migrate_personal_document`, `open` (worker.rs:704-776) |

Left out: `PersonalSync` (Store/Sync), `Shutdown`, and the locked memory values are copied into. A failing command leaves
the worker as it was; the draws it took are taken again, which nothing observes. -/

namespace FactorSeal

open Std Wire Except

/-- What the work on a loaded document comes to. -/
structure Outcome (α : Type) where
  answer : α
  mutation : Option DocumentMutation
  draws : Nat

/-- What the commands use of the store. -/
structure StoreOps (σ : Type) where
  /-- `verify_live_inventory`. -/
  verifyLive : σ → VaultResult Unit
  /-- The trusted inventory in the order of its ids: the kind and the next deadline of each document. -/
  inventory : σ → List (DocumentId × DocumentKind × Option UInt64)
  loadHistory : σ → DocumentId → DocumentKind → Option Bytes → VaultResult (Option HistoryLog)
  /-- `load_document`, the work on what was loaded, and `commit_mutation` of what the work returns. -/
  transact : {α : Type} → σ → DocumentId → DocumentKind → Option Bytes → MutationContext →
    (Option SecretDocument → Nat → VaultResult (Outcome α)) → VaultResult (α × σ)

namespace StoreWorker

variable (env : VaultEnv) (device : Device)

/-- What a command does with the outcome of its work. -/
def finish {α : Type} (w : StoreWorker) (id : DocumentId) (scope : DocumentKind) (current : Option DocumentHead)
    (context : MutationContext) (outcome : Outcome α) : VaultResult (α × StoreWorker) :=
  match outcome.mutation with
  | none => .ok (outcome.answer, { w with draws := outcome.draws })
  | some mutation => do
    return (outcome.answer,
      ← StoreWorker.commitMutation env device { w with draws := outcome.draws } id scope current mutation context)

def transact {α : Type} (w : StoreWorker) (id : DocumentId) (scope : DocumentKind) (expected : Option Bytes)
    (context : MutationContext) (work : Option SecretDocument → Nat → VaultResult (Outcome α)) :
    VaultResult (α × StoreWorker) := do
  let loaded ← w.loadDocument env device id scope expected
  let outcome ← work (loaded.map Prod.fst) w.draws
  w.finish env device id scope (loaded.map Prod.snd) context outcome

/-- The store as the worker has it open. -/
def ops : StoreOps StoreWorker where
  verifyLive w := verifyLiveInventory env.toEnv w.db w.verified
  inventory w := (w.verified.documents.map fun _ d => (d.row.scope, d.row.nextEviction)).toList
  loadHistory w := w.loadHistory env device
  transact w := w.transact env device

end StoreWorker

/-- `StoreWorker::context`. -/
def Device.context (device : Device) (provenance : Provenance) (now : UInt64) : MutationContext :=
  ⟨now, provenance, device.deviceKeyId⟩

/-- `EXPIRY`. -/
def expiry : Provenance := .service .expiry

structure StoredSecret where
  value : Bytes
  expiresAt : Option UInt64
deriving DecidableEq, Repr

/-! ## The work of the commands on one document -/

section

variable (env : VaultEnv)

/-- `get` between the load and the commit (worker.rs:786-810). -/
def getBody (address : SecretAddress) (now : UInt64) (document : Option SecretDocument) (draws : Nat) :
    VaultResult (Outcome (Option StoredSecret)) :=
  match document with
  | none => .ok ⟨none, none, draws⟩
  | some d => do
    let (read, expiresAt) ← d.getWithDeadline env address now
    match read with
    | .missing => return ⟨none, none, draws⟩
    | .value value => return ⟨some ⟨value, expiresAt⟩, none, draws⟩
    | .conflict => .error .conflict
    | .expired => do
      let (mutation, _) ← d.expire env address
      let mutation ← ofOption (.invalidData "expired secret disappeared during deletion") mutation
      return ⟨none, some mutation, draws⟩

/-- One address of `get_many` (worker.rs:830-838). -/
def readOne (d : SecretDocument) (now : UInt64) (address : SecretAddress) : VaultResult (Option Bytes) := do
  match ← d.get env address now with
  | .value value => return some value
  | .missing | .expired => return none
  | .conflict => .error .conflict

/-- `get_many`: an expired record reads as absent and stays. -/
def getManyBody (addresses : List SecretAddress) (now : UInt64) (document : Option SecretDocument) (draws : Nat) :
    VaultResult (Outcome (List (Option Bytes))) :=
  match document with
  | none => .ok ⟨addresses.map fun _ => none, none, draws⟩
  | some d => do return ⟨← addresses.mapM (readOne env d now), none, draws⟩

/-- `put` (worker.rs:854-866). -/
def putBody (device : Device) (scope : DocumentKind) (partition : Bytes) (address : SecretAddress) (value : Bytes)
    (evictAt : Option UInt64) (context : MutationContext) (document : Option SecretDocument) (draws : Nat) :
    VaultResult (Outcome Unit) := do
  let d := document.getD (SecretDocument.new device.actorId scope partition)
  let (mutation, _, draws) ← d.put env draws address value evictAt context
  return ⟨(), some mutation, draws⟩

def DocumentOperation.isPut : DocumentOperation → Bool
  | .put _ _ _ => true
  | .delete _ => false

/-- The document `mutate` works on (worker.rs:877-893): only a write makes a new one. -/
def mutateTarget (device : Device) (scope : DocumentKind) (partition : Bytes) (operations : List DocumentOperation) :
    Option SecretDocument → Option SecretDocument
  | some d => some d
  | none =>
    if operations.any DocumentOperation.isPut then some (SecretDocument.new device.actorId scope partition) else none

/-- `mutate` (worker.rs:869-898). -/
def mutateBody (device : Device) (scope : DocumentKind) (partition : Bytes) (operations : List DocumentOperation)
    (context : MutationContext) (document : Option SecretDocument) (draws : Nat) : VaultResult (Outcome Unit) :=
  match mutateTarget device scope partition operations document with
  | none => .ok ⟨(), none, draws⟩
  | some d => do
    let (mutation, _, draws) ← d.apply env draws operations context
    return ⟨(), mutation, draws⟩

/-- `delete` (worker.rs:900-920). -/
def deleteBody (address : SecretAddress) (document : Option SecretDocument) (draws : Nat) : VaultResult (Outcome Bool) :=
  match document with
  | none => .ok ⟨false, none, draws⟩
  | some d => do
    let (mutation, _) ← d.delete env address
    return ⟨mutation.isSome, mutation, draws⟩

/-- `clear` (worker.rs:958-977). -/
def clearBody (document : Option SecretDocument) (draws : Nat) : VaultResult (Outcome Nat) :=
  match document with
  | none => .ok ⟨0, none, draws⟩
  | some d => do
    let (cleared, _) ← d.clear env
    return ⟨(cleared.map Prod.fst).getD 0, cleared.map Prod.snd, draws⟩

/-- The purge of one document, as `purge_expired` and the listings do it: the document that is left, and whether anything
was removed. -/
def purgeBody (now : UInt64) (document : Option SecretDocument) (draws : Nat) :
    VaultResult (Outcome (Option (SecretDocument × Bool))) :=
  match document with
  | none => .ok ⟨none, none, draws⟩
  | some d => do
    let (mutation, d) ← d.purgeExpired env now
    return ⟨some (d, mutation.isSome), mutation, draws⟩

/-- `String::from_utf8` of the partition and the check of the project's name (worker.rs:1146-1149). -/
def projectName (d : SecretDocument) : VaultResult String := do
  let project ← ofOption (.invalidData "project document partition is not UTF-8")
    (String.fromUTF8? ⟨d.partition.toArray⟩)
  (SecretSpecAddress.convention project "default" "validation").validate
  return project

/-- `list_projects` for one document, up to the commit (worker.rs:1140-1160). -/
def projectBody (now : UInt64) (document : Option SecretDocument) (draws : Nat) :
    VaultResult (Outcome (Option (String × SecretDocument))) :=
  match document with
  | none => .ok ⟨none, none, draws⟩
  | some d => do
    let project ← projectName d
    let (mutation, d) ← d.purgeExpired env now
    return ⟨some (project, d), mutation, draws⟩

/-- `migrate_personal_document` between the load and the commit (worker.rs:757-763). -/
def migrateBody (document : Option SecretDocument) (draws : Nat) : VaultResult (Outcome Unit) :=
  match document with
  | none => .ok ⟨(), none, draws⟩
  | some d => do
    let (mutation, d, draws) ← d.migratePersonal env draws
    match mutation with
    | some mutation => return ⟨(), some mutation, draws⟩
    | none => do
      let (mutation, _) ← d.migratePersonalReplicas env
      return ⟨(), mutation, draws⟩

end

/-! ## The commands -/

namespace StoreOps

variable {σ : Type} (S : StoreOps σ) (env : VaultEnv) (device : Device) (s : σ)

def get (scope : DocumentKind) (partition : Bytes) (address : SecretAddress) (now : UInt64) :
    VaultResult (Option StoredSecret × σ) :=
  S.transact s (env.documentId device scope partition) scope (some partition) (device.context expiry now)
    (getBody env address now)

def getMany (scope : DocumentKind) (partition : Bytes) (addresses : List SecretAddress) (now : UInt64) :
    VaultResult (List (Option Bytes) × σ) :=
  S.transact s (env.documentId device scope partition) scope (some partition) (device.context expiry now)
    (getManyBody env addresses now)

def put (scope : DocumentKind) (partition : Bytes) (address : SecretAddress) (value : Bytes) (evictAt : Option UInt64)
    (provenance : Provenance) (now : UInt64) : VaultResult (Unit × σ) :=
  S.transact s (env.documentId device scope partition) scope (some partition) (device.context provenance now)
    (putBody env device scope partition address value evictAt (device.context provenance now))

def mutate (scope : DocumentKind) (partition : Bytes) (operations : List DocumentOperation) (provenance : Provenance)
    (now : UInt64) : VaultResult (Unit × σ) :=
  S.transact s (env.documentId device scope partition) scope (some partition) (device.context provenance now)
    (mutateBody env device scope partition operations (device.context provenance now))

def delete (scope : DocumentKind) (partition : Bytes) (address : SecretAddress) (provenance : Provenance)
    (now : UInt64) : VaultResult (Bool × σ) :=
  S.transact s (env.documentId device scope partition) scope (some partition) (device.context provenance now)
    (deleteBody env address)

def clear (scope : DocumentKind) (partition : Bytes) (provenance : Provenance) (now : UInt64) : VaultResult (Nat × σ) :=
  S.transact s (env.documentId device scope partition) scope (some partition) (device.context provenance now)
    (clearBody env)

/-- The purge of one document of the inventory. -/
def purgeDocument (now : UInt64) (s : σ) (id : DocumentId) (scope : DocumentKind) :
    VaultResult (Option (SecretDocument × Bool) × σ) :=
  S.transact s id scope none (device.context expiry now) (purgeBody env now)

/-- The deadline has passed. -/
def isDue (now : UInt64) (deadline : Option UInt64) : Bool :=
  match deadline with
  | some deadline => deadline ≤ now
  | none => false

/-- The loop of `purge_expired`: one document, `changed` of the earlier ones. -/
def purgeStep (now : UInt64) (state : Nat × σ) (document : DocumentId × DocumentKind × Option UInt64) :
    VaultResult (Nat × σ) := do
  let (purged, s) ← S.purgeDocument env device now state.2 document.1 document.2.1
  return (if (purged.map Prod.snd).getD false then state.1 + 1 else state.1, s)

/-- `purge_expired` (worker.rs:925-956). -/
def purgeExpired (now : UInt64) : VaultResult (Nat × σ) := do
  S.verifyLive s
  ((S.inventory s).filter fun d => isDue now d.2.2).foldlM (S.purgeStep env device now) (0, s)

/-- `list_history` (worker.rs:1225-1260). -/
def listHistory (scope : DocumentKind) (partition : Bytes) (address : Option SecretAddress) (beforeSeq : Option UInt64)
    (limit : UInt16) : VaultResult (HistoryPage × σ) := do
  match ← S.loadHistory s (env.documentId device scope partition) scope (some partition) with
  | none => return (⟨[], none⟩, s)
  | some log => return (historyPage log address beforeSeq limit, s)

/-- Two neighbours of a sorted list have one key. -/
def hasDuplicate {α : Type} (entries : List (String × α)) : Bool :=
  (entries.zip entries.tail).any fun p => p.1.1 = p.2.1

/-- Sort by key, refuse a key that occurs twice, cut out the page. -/
def sortedPage {α : Type} (message : String) (entries : List (String × α)) (cursor : Option String) (limit : UInt16) :
    VaultResult (StorePage α) := do
  let entries := entries.insertionSort fun a b => a.1 ≤ b.1
  ensure (hasDuplicate entries = false) (.invalidData message)
  return paginate entries cursor limit

/-- What `list_projects` makes of one document: a project with a secret in it is listed. -/
def listedProject (found : Option (String × SecretDocument)) : VaultResult (List (String × String)) :=
  match found with
  | none => .ok []
  | some (project, d) => do
    let addresses ← d.addresses env
    return if addresses.isEmpty then [] else [(project, project)]

/-- The loop of `list_projects`. -/
def projectStep (now : UInt64) (state : List (String × String) × σ)
    (document : DocumentId × DocumentKind × Option UInt64) : VaultResult (List (String × String) × σ) := do
  let (found, s) ← S.transact state.2 document.1 .secretSpecProject none (device.context expiry now) (projectBody env now)
  let listed ← listedProject env found
  return (state.1 ++ listed, s)

/-- `list_projects` (worker.rs:1120-1170). -/
def listProjects (cursor : Option String) (limit : UInt16) (now : UInt64) : VaultResult (StorePage String × σ) := do
  S.verifyLive s
  let (projects, s) ← ((S.inventory s).filter fun d => d.2.1 = .secretSpecProject).foldlM
    (S.projectStep env device now) ([], s)
  let page ← sortedPage "duplicate durable project partitions" projects cursor limit
  return (page, s)

/-- One address of `list_project_addresses` (worker.rs:1204-1221). -/
def projectAddress (project : String) (entry : String × SecretAddress) : VaultResult (String × SecretSpecAddress) :=
  match entry.2 with
  | .local _ _ => .error (.invalidData "durable project document contains a local address")
  | .secretSpec address => do
    ensure (∀ p ∈ address.project, p = project) (.invalidData "durable project address belongs to another project")
    return (entry.1, address)

/-- The page of `list_project_addresses` from the document that is left. -/
def projectAddresses (project : String) (cursor : Option String) (limit : UInt16)
    (purged : Option (SecretDocument × Bool)) : VaultResult (StorePage SecretSpecAddress) :=
  match purged with
  | none => .ok ⟨[], none⟩
  | some (d, _) => do
    let addresses ← (← d.addresses env).mapM (projectAddress project)
    return paginate addresses cursor limit

/-- `list_project_addresses` (worker.rs:1172-1223). -/
def listProjectAddresses (project : String) (cursor : Option String) (limit : UInt16) (now : UInt64) :
    VaultResult (StorePage SecretSpecAddress × σ) := do
  let (purged, s) ← S.transact s (env.documentId device .secretSpecProject (utf8 project)) .secretSpecProject
    (some (utf8 project)) (device.context expiry now) (purgeBody env now)
  let page ← projectAddresses env project cursor limit purged
  return (page, s)

/-- `vault_entry_cursor` (worker.rs:1105-1118). -/
def vaultEntryCursor (kind : DocumentKind) (id : DocumentId) (storageKey : String) : String :=
  String.ofList (base64Url (env.indexMac
    (utf8 "factorseal/vault-entry-cursor/v1\x00" ++ kind.bytes ++ id.toList ++ utf8 storageKey)).toList)

/-- What `list_vault_entries` lists of one document. -/
def listedEntries (now : UInt64) (id : DocumentId) (purged : Option (SecretDocument × Bool)) :
    VaultResult (List (String × VaultEntryMetadata)) :=
  match purged with
  | none => .ok []
  | some (d, _) => do
    let entries ← d.vaultEntries env now
    return entries.map fun e => (vaultEntryCursor env d.kind id e.1, e.2)

/-- The loop of `list_vault_entries`. -/
def entryStep (now : UInt64) (state : List (String × VaultEntryMetadata) × σ)
    (document : DocumentId × DocumentKind × Option UInt64) : VaultResult (List (String × VaultEntryMetadata) × σ) := do
  let (purged, s) ← S.purgeDocument env device now state.2 document.1 document.2.1
  let listed ← listedEntries env now document.1 purged
  return (state.1 ++ listed, s)

/-- `list_vault_entries` (worker.rs:980-1103). -/
def listVaultEntries (cursor : Option String) (limit : UInt16) (now : UInt64) :
    VaultResult (StorePage VaultEntryMetadata × σ) := do
  S.verifyLive s
  let (entries, s) ← ((S.inventory s).filter fun d => d.2.1 ≠ .authorization).foldlM (S.entryStep env device now) ([], s)
  let page ← sortedPage "duplicate vault inventory cursors" entries cursor limit
  return (page, s)

/-- `migrate_personal_document` (worker.rs:746-776). -/
def migratePersonalDocument (now : UInt64) : VaultResult (Unit × σ) :=
  S.transact s (env.documentId device .localKeyring personalSecretNamespace) .localKeyring (some personalSecretNamespace)
    (device.context (.service .personalMigration) now) (migrateBody env)

end StoreOps

/-! ## Dispatch -/

/-- The commands that are about documents (worker.rs:243-331). -/
inductive Command where
  | get (scope : DocumentKind) (partition : Bytes) (address : SecretAddress) (now : UInt64)
  | getMany (scope : DocumentKind) (partition : Bytes) (addresses : List SecretAddress) (now : UInt64)
  | put (scope : DocumentKind) (partition : Bytes) (address : SecretAddress) (value : Bytes) (evictAt : Option UInt64)
    (provenance : Provenance) (now : UInt64)
  | mutate (scope : DocumentKind) (partition : Bytes) (operations : List DocumentOperation) (provenance : Provenance)
    (now : UInt64)
  | delete (scope : DocumentKind) (partition : Bytes) (address : SecretAddress) (provenance : Provenance) (now : UInt64)
  | purgeExpired (now : UInt64)
  | clear (scope : DocumentKind) (partition : Bytes) (provenance : Provenance) (now : UInt64)
  | listHistory (scope : DocumentKind) (partition : Bytes) (address : Option SecretAddress) (beforeSeq : Option UInt64)
    (limit : UInt16)
  | listProjects (cursor : Option String) (limit : UInt16) (now : UInt64)
  | listProjectAddresses (project : String) (cursor : Option String) (limit : UInt16) (now : UInt64)
  | listVaultEntries (cursor : Option String) (limit : UInt16) (now : UInt64)
deriving DecidableEq

inductive Answer where
  | secret (value : Option StoredSecret)
  | values (values : List (Option Bytes))
  | done
  | removed (removed : Bool)
  | count (count : Nat)
  | history (page : HistoryPage)
  | projects (page : StorePage String)
  | addresses (page : StorePage SecretSpecAddress)
  | entries (page : StorePage VaultEntryMetadata)
deriving DecidableEq

/-- The answer of a command as an answer of the worker. -/
def answering {α σ : Type} (answer : α → Answer) (result : VaultResult (α × σ)) : VaultResult (Answer × σ) :=
  result.map fun r => (answer r.1, r.2)

/-- `execute_command`. -/
def StoreOps.execute {σ : Type} (S : StoreOps σ) (env : VaultEnv) (device : Device) (s : σ) :
    Command → VaultResult (Answer × σ)
  | .get scope partition address now => answering .secret (S.get env device s scope partition address now)
  | .getMany scope partition addresses now => answering .values (S.getMany env device s scope partition addresses now)
  | .put scope partition address value evictAt provenance now =>
    answering (fun _ => .done) (S.put env device s scope partition address value evictAt provenance now)
  | .mutate scope partition operations provenance now =>
    answering (fun _ => .done) (S.mutate env device s scope partition operations provenance now)
  | .delete scope partition address provenance now =>
    answering .removed (S.delete env device s scope partition address provenance now)
  | .purgeExpired now => answering .count (S.purgeExpired env device s now)
  | .clear scope partition provenance now => answering .count (S.clear env device s scope partition provenance now)
  | .listHistory scope partition address beforeSeq limit =>
    answering .history (S.listHistory env device s scope partition address beforeSeq limit)
  | .listProjects cursor limit now => answering .projects (S.listProjects env device s cursor limit now)
  | .listProjectAddresses project cursor limit now =>
    answering .addresses (S.listProjectAddresses env device s project cursor limit now)
  | .listVaultEntries cursor limit now => answering .entries (S.listVaultEntries env device s cursor limit now)

namespace StoreWorker

variable (env : VaultEnv) (device : Device)

/-- `ExportRevision` (worker.rs:595-601): the head of the verified state. -/
def exportRevision (w : StoreWorker) : VaultResult (Option Digest) := do
  verifyLiveInventory env.toEnv w.db w.verified
  return w.verified.head

/-! ## Opening -/

/-- `finish_migration_repack` (state.rs:371-391). -/
def finishMigrationRepack (w : StoreWorker) : VaultResult StoreWorker := do
  let verified ← verifyCurrentState env.toEnv device w.db
  ensure (verified = w.verified) .signature
  (w.repackTransaction env.toEnv device).run w.db

/-- `initialize_current_state` of a database of the present schema (state.rs:42-53). -/
def initializeCurrentState (db : Database) (draws : Nat) : VaultResult StoreWorker := do
  let verified ← verifyCurrentState env.toEnv device db
  let (manifest, _) ← readManifest env.toEnv db
  if manifest.repackPending then finishMigrationRepack env device ⟨db, verified, draws⟩ else return ⟨db, verified, draws⟩

/-- `StoreWorker::open` (worker.rs:704-744) at the time `now`. -/
def openStore (db : Database) (draws : Nat) (now : UInt64) : VaultResult StoreWorker := do
  let w ← initializeCurrentState env device db draws
  let (_, w) ← (ops env device).purgeExpired env device w now
  let (_, w) ← (ops env device).migratePersonalDocument env device w now
  return w

end StoreWorker

end FactorSeal

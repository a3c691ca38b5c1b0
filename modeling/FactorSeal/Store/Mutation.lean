import FactorSeal.Store.Binding
import FactorSeal.Vault.Document

/-! # Loading and committing documents (vault/store/worker/mutation.rs, state.rs:55-75, 273-289)

| here | there |
| --- | --- |
| `loadHead`, `loadDocument`, `loadHistory` | the functions of these names (mutation.rs:39-175) |
| `prepareCommit`, `persistCommit`, `commitMutation` | mutation.rs:177-322 |
| `persistDocumentHead`, `deleteSnapshots`, `insertSnapshot`, `persistHeadRecord` | mutation.rs:324-434, one per statement |
| `signManifest`, `persistManifest`, `persistAnchor` | state.rs:55-75 and the two statements of `persist_manifest` |

A commit is the list of the statements it runs inside one immediate transaction (`Transaction`), so that a crash can be
placed between any two of them. `checkpoint` moves pages from the log into the database file and changes no row; it is
left out. -/

namespace FactorSeal

open Std Wire Except

/-- worker.rs:660-667. -/
structure DocumentHead where
  currentCommitId : Digest
  generation : UInt64
  keyEpoch : UInt64
  wrappedDek : Bytes
  envelope : EncryptedSnapshot
  dataKey : Key
deriving DecidableEq, Repr

/-- `StoreWorker`: the database it has open, what it trusts of it, and the number of draws taken so far. -/
structure StoreWorker where
  db : Database
  verified : VerifiedStoreState
  draws : Nat

/-- `PreparedCommit` (mutation.rs:21-33). What is to be stored is one `StoredDocument`; the head and its record are
functions of it. -/
structure PreparedCommit where
  documentId : DocumentId
  expected : Option DocumentHead
  document : StoredDocument

namespace StoreWorker

variable (env : Env) (device : Device) (w : StoreWorker)

/-! ## Loading (mutation.rs:39-175) -/

/-- `load_head`. `documentRow` reads the columns in the order of the query; the identifier it reads besides is the one
that was asked for. -/
def loadHead (id : DocumentId) (expectedScope : DocumentKind) : VaultResult (Option DocumentHead) := do
  verifyStateAnchor env w.db w.verified
  match w.db.documents.select (idColumn id) with
  | [] =>
    ensure (id ∉ w.verified.documents) (.invalidData "protected document is missing")
    return none
  | columns :: _ =>
    let actual ← documentRow env columns
    let wrappedBytes ← rowBlob columns.wrappedDek
    ensure ((w.verified.documents[id]?).map VerifiedDocument.row = some actual) .signature
    let wrapped ← fromJson env.wrappedKeyJson wrappedBytes
    ensure (actual.vaultId = device.deviceVaultId ∧ actual.scope = expectedScope)
      (.invalidData "document vault or kind does not match requested operation")
    let dataKey ← unwrapDocumentKey env.toCrypto device id actual.scope actual.keyEpoch wrapped
    let generation ← toI64 actual.generation
    let envelopeBytes ← ofOption (.invalidData "document has no current snapshot")
      (← w.db.snapshotEnvelope id generation)
    let envelope ← fromJson env.envelopeJson envelopeBytes
    ensure (envelope.context =
        ⟨actual.vaultId, id, actual.scope, device.deviceKeyId, actual.generation, actual.keyEpoch⟩)
      (.invalidData "snapshot metadata does not match document row")
    verifySnapshotAgainstHead env w.db w.verified actual.currentCommitId id actual.generation actual.keyEpoch
      envelopeBytes
    return some ⟨actual.currentCommitId, actual.generation, actual.keyEpoch, wrappedBytes, envelope, dataKey⟩

end StoreWorker

namespace DocumentHead

variable (env : VaultEnv) (device : Device) (scope : DocumentKind) (expected : Option Bytes)

/-- The document a head opens (mutation.rs:152-158). -/
def document (head : DocumentHead) : VaultResult SecretDocument := do
  let snapshot ← decryptSnapshot env.toCrypto head.envelope head.dataKey
  SecretDocument.load env snapshot device.actorId scope expected

/-- The history log beside the document (mutation.rs:173-174, 222-226). -/
def history (head : DocumentHead) : VaultResult HistoryLog := do
  let bytes ← decryptHistory env.toCrypto head.envelope head.dataKey
  HistoryLog.load env.historyJson bytes scope expected

/-- What `load_document` makes of what `load_head` returned. -/
def loadedDocument : Option DocumentHead → VaultResult (Option (SecretDocument × DocumentHead))
  | none => .ok none
  | some head => do return some (← head.document env device scope expected, head)

/-- What `load_history` makes of what `load_head` returned. -/
def loadedHistory : Option DocumentHead → VaultResult (Option HistoryLog)
  | none => .ok none
  | some head => do return some (← head.history env scope expected)

end DocumentHead

namespace StoreWorker

variable (env : VaultEnv) (device : Device) (w : StoreWorker)

/-- `load_document`. -/
def loadDocument (id : DocumentId) (scope : DocumentKind) (expected : Option Bytes) :
    VaultResult (Option (SecretDocument × DocumentHead)) := do
  DocumentHead.loadedDocument env device scope expected (← w.loadHead env.toEnv device id scope)

/-- `load_history`. -/
def loadHistory (id : DocumentId) (scope : DocumentKind) (expected : Option Bytes) :
    VaultResult (Option HistoryLog) := do
  DocumentHead.loadedHistory env scope expected (← w.loadHead env.toEnv device id scope)

/-! ## Preparing a commit (mutation.rs:190-288) -/

/-- `u64::saturating_add(1)`. -/
def saturatingSucc (n : UInt64) : UInt64 := if n.toNat + 1 < 2 ^ 64 then n + 1 else n

/-- The generation or key epoch after the current one; a new document starts at one. -/
def successor : Option UInt64 → UInt64
  | some n => saturatingSucc n
  | none => 1

/-- The history log a commit carries forward. -/
def carriedHistory (scope : DocumentKind) (current : Option DocumentHead) (partition : Bytes) : VaultResult HistoryLog :=
  match current with
  | some head => head.history env scope (some partition)
  | none => .ok (HistoryLog.new scope partition)

/-- `prepare_commit`: four draws, for the key, its nonce and the two nonces of the envelope. -/
def prepareCommit (id : DocumentId) (scope : DocumentKind) (current : Option DocumentHead) (mutation : DocumentMutation)
    (context : MutationContext) : VaultResult PreparedCommit := do
  let generation := successor (current.map DocumentHead.generation)
  let keyEpoch := successor (current.map DocumentHead.keyEpoch)
  ensure (¬ (generation = 0xffffffffffffffff ∨ keyEpoch = 0xffffffffffffffff))
    (.invalidData "document generation is exhausted")
  let history ← carriedHistory env scope current mutation.partition
  let history := history.migrateAddresses mutation.addressMigrations
  let history ← history.record env.historyEntrySize mutation.history context.now context.provenance context.deviceKeyId
  let (dataKey, wrapped) := generateDocumentKey env.toCrypto w.draws device id scope keyEpoch
  let envelope := encryptSnapshot env.toCrypto (w.draws + 2)
    ⟨device.deviceVaultId, id, scope, device.deviceKeyId, generation, keyEpoch⟩ mutation.snapshot
    (env.historyJson.encode history) dataKey
  return ⟨id, current, { scope, generation, keyEpoch, nextEviction := mutation.nextEviction,
                         wrappedDek := env.wrappedKeyJson.encode wrapped,
                         envelope := env.envelopeJson.encode envelope }⟩

end StoreWorker

/-! ## The statements of a commit (mutation.rs:324-434) -/

namespace PreparedCommit

variable (env : Env) (device : Device) (p : PreparedCommit)

def currentHead : CurrentHead := p.document.head env device p.documentId

/-- The `WHERE` clause of the `UPDATE`: the row is still the one that was loaded. -/
def isExpected (expected : DocumentHead) (generation keyEpoch : Int64) (row : DocumentColumns) : Bool :=
  row.documentId.eq (idColumn p.documentId) && row.vaultId.eq (.blob device.deviceVaultId.toList) &&
    row.generation.eq (.integer generation) && row.documentKind.eq (.text p.document.scope.asStr) &&
    row.wrappedDek.eq (.blob expected.wrappedDek) && row.currentCommitId.eq (.blob expected.currentCommitId.toList) &&
    row.keyEpoch.eq (.integer keyEpoch)

/-- `persist_document_head`: the `UPDATE` of a document that was loaded, the `INSERT` of a new one. -/
def persistDocumentHead (db : Database) : VaultResult Database := do
  let row ← documentColumns (p.currentHead env device).row p.document.wrappedDek
  match p.expected with
  | some expected =>
    let generation ← toI64 expected.generation
    let keyEpoch ← toI64 expected.keyEpoch
    let isExpected := p.isExpected device expected generation keyEpoch
    ensure (db.documents.count isExpected = 1) (.database "document generation or wrapped key changed concurrently")
    return { db with documents := db.documents.modify isExpected (fun old =>
      { old with generation := row.generation, keyEpoch := row.keyEpoch, wrappedDek := row.wrappedDek,
                 currentCommitId := row.currentCommitId, nextEviction := row.nextEviction }) fun _ => rfl }
  | none =>
    let documents ← ofOption (.database "UNIQUE constraint failed: documents.document_id") (db.documents.insert row)
    return { db with documents }

/-- `DELETE FROM document_snapshots WHERE document_id = ?1`. -/
def deleteSnapshots (db : Database) : Database :=
  { db with documentSnapshots := db.documentSnapshots.delete fun row => row.documentId.eq (idColumn p.documentId) }

/-- `INSERT INTO document_snapshots`. -/
def insertSnapshot (db : Database) : VaultResult Database := do
  let generation ← toI64 p.document.generation
  let documentSnapshots ← ofOption (.database "UNIQUE constraint failed: document_snapshots")
    (db.documentSnapshots.insert ⟨idColumn p.documentId, .integer generation, .blob p.document.envelope⟩)
  return { db with documentSnapshots }

/-- `persist_head_record`. -/
def persistHeadRecord (db : Database) : Database :=
  let head := p.currentHead env device
  let row := ⟨idColumn p.documentId, .blob head.headId.toList, .blob (env.headJson.encode head)⟩
  { db with documentHeads := db.documentHeads.upsert row }

end PreparedCommit

/-- `sign_manifest` (state.rs:55-75). -/
def signManifest (env : Env) (device : Device) (draw : Nat) (documents : Documents) (repackPending : Bool) :
    StateManifest :=
  StateManifest.new env.toCrypto draw device.deviceVaultId device.deviceKeyId (UInt64.ofNat documents.size)
    (inventoryDigest env.toCrypto (inventory documents)) repackPending

/-- The two statements of `persist_manifest` (state.rs:273-289). -/
def persistManifest (env : Env) (manifest : StateManifest) (db : Database) : Database :=
  db.setMeta manifestKey (env.manifestJson.encode manifest)

def persistAnchor (manifest : StateManifest) (db : Database) : Database :=
  db.setMeta commitHeadKey manifest.manifestId.toList

/-- The state the worker remembers for a manifest it has signed and stored. -/
def signedState (env : Env) (documents : Documents) (manifest : StateManifest) : VerifiedStoreState :=
  ⟨some manifest.manifestId, documents, some (env.sha256 (env.manifestJson.encode manifest))⟩

/-- The worker of a new store (bootstrap.rs:147-183, state.rs:291-368): no rows, and the manifest of no documents. -/
def StoreWorker.create (env : Env) (device : Device) : StoreWorker :=
  let manifest := signManifest env device 0 ∅ false
  let tables : Database := ⟨.empty, .empty, .empty, .empty⟩
  ⟨persistAnchor manifest (persistManifest env manifest tables), signedState env ∅ manifest, 1⟩

/-- The statements of one immediate transaction, and what the worker remembers once it has been committed. -/
structure Transaction where
  statements : List (Database → VaultResult Database)
  verified : VerifiedStoreState
  draws : Nat

/-- A transaction that nothing interrupts: a failing statement rolls it back. -/
def Transaction.run (t : Transaction) (db : Database) : VaultResult StoreWorker := do
  let db ← t.statements.foldlM (fun db statement => statement db) db
  return ⟨db, t.verified, t.draws⟩

namespace StoreWorker

variable (env : Env) (device : Device) (w : StoreWorker) (p : PreparedCommit)

/-- `verify_live_inventory` at the start of a transaction. -/
def verifyLive (db : Database) : VaultResult Database := do
  verifyLiveInventory env db w.verified
  return db

/-- The inventory after the commit. -/
def nextDocuments : Documents :=
  w.verified.documents.insert p.documentId (p.document.verified env device p.documentId)

/-- The manifest the commit signs: one draw. -/
def nextManifest : StateManifest := signManifest env device w.draws (w.nextDocuments env device p) false

/-- What the worker trusts after the commit. -/
def nextVerified : VerifiedStoreState :=
  signedState env (w.nextDocuments env device p) (w.nextManifest env device p)

/-- `persist_commit` (mutation.rs:290-322) up to the `COMMIT`. -/
def commitTransaction : Transaction where
  statements :=
    [ w.verifyLive env,
      p.persistDocumentHead env device,
      fun db => .ok (p.deleteSnapshots db),
      p.insertSnapshot,
      fun db => .ok (p.persistHeadRecord env device db),
      fun db => .ok (persistManifest env (w.nextManifest env device p) db),
      fun db => .ok (persistAnchor (w.nextManifest env device p) db) ]
  verified := w.nextVerified env device p
  draws := w.draws + 1

/-- `persist_commit`. The number of documents is a `usize`: a map with more does not exist, so no commit goes beyond
it. -/
def persistCommit : VaultResult StoreWorker := do
  let committed ← (w.commitTransaction env device p).run w.db
  ensure ((w.nextDocuments env device p).size < 2 ^ 64) .workerUnavailable
  return committed

/-- The transaction of `finish_migration_repack` (state.rs:371-391): the same documents under a manifest that no longer
asks for a repack. `VACUUM` before it changes no row. -/
def repackTransaction : Transaction :=
  let manifest := signManifest env device w.draws w.verified.documents false
  { statements :=
      [ w.verifyLive env,
        fun db => .ok (persistManifest env manifest db),
        fun db => .ok (persistAnchor manifest db) ]
    verified := signedState env w.verified.documents manifest
    draws := w.draws + 1 }

end StoreWorker

/-- `commit_mutation` (mutation.rs:177-188). -/
def StoreWorker.commitMutation (env : VaultEnv) (device : Device) (w : StoreWorker) (id : DocumentId)
    (scope : DocumentKind) (current : Option DocumentHead) (mutation : DocumentMutation) (context : MutationContext) :
    VaultResult StoreWorker := do
  let prepared ← w.prepareCommit env device id scope current mutation context
  StoreWorker.persistCommit env.toEnv device { w with draws := w.draws + 4 } prepared

end FactorSeal

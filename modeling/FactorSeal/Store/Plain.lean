import FactorSeal.Store.Worker

/-! # The vault without tables and encryption

What the store is for: a map from document ids to documents, each a snapshot, a history log and a position. Commands run
on it as they run on the store (`PlainVault.ops` is the second instance of `StoreOps`), with the checks that are left
when there is no database: the kind and the partition asked for, the room in the counters, and the range of the three
numbers that become `INTEGER` columns. -/

namespace FactorSeal

open Std Wire Except

structure PlainDocument where
  scope : DocumentKind
  generation : UInt64
  keyEpoch : UInt64
  nextEviction : Option UInt64
  snapshot : Bytes
  history : Bytes
deriving DecidableEq

structure PlainVault where
  documents : ExtTreeMap DocumentId PlainDocument
  draws : Nat

namespace PlainDocument

variable (env : VaultEnv) (device : Device) (scope : DocumentKind) (expected : Option Bytes)

/-- The document, if it is of the kind and the partition asked for. -/
def document (p : PlainDocument) : VaultResult SecretDocument := do
  ensure (p.scope = scope) (.invalidData "document vault or kind does not match requested operation")
  SecretDocument.load env p.snapshot device.actorId scope expected

/-- The history log beside the document. -/
def log (p : PlainDocument) : VaultResult HistoryLog := do
  ensure (p.scope = scope) (.invalidData "document vault or kind does not match requested operation")
  HistoryLog.load env.historyJson p.history scope expected

/-- What is loaded of a document that may not be there. -/
def loaded : Option PlainDocument → VaultResult (Option (SecretDocument × PlainDocument))
  | none => .ok none
  | some p => do return some (← p.document env device scope expected, p)

def loadedHistory : Option PlainDocument → VaultResult (Option HistoryLog)
  | none => .ok none
  | some p => do return some (← p.log env scope expected)

/-- The log a commit carries forward. -/
def carriedHistory (current : Option PlainDocument) (partition : Bytes) : VaultResult HistoryLog :=
  match current with
  | some p => HistoryLog.load env.historyJson p.history scope (some partition)
  | none => .ok (HistoryLog.new scope partition)

/-- What a mutation makes of a document. -/
def next (current : Option PlainDocument) (mutation : DocumentMutation) (context : MutationContext) :
    VaultResult PlainDocument := do
  let generation := StoreWorker.successor (current.map PlainDocument.generation)
  let keyEpoch := StoreWorker.successor (current.map PlainDocument.keyEpoch)
  ensure (¬ (generation = 0xffffffffffffffff ∨ keyEpoch = 0xffffffffffffffff))
    (.invalidData "document generation is exhausted")
  let history ← carriedHistory env scope current mutation.partition
  let history := history.migrateAddresses mutation.addressMigrations
  let history ← history.record env.historyEntrySize mutation.history context.now context.provenance context.deviceKeyId
  let _ ← deadlineColumn mutation.nextEviction
  let _ ← toI64 generation
  let _ ← toI64 keyEpoch
  return ⟨scope, generation, keyEpoch, mutation.nextEviction, mutation.snapshot, env.historyJson.encode history⟩

end PlainDocument

namespace PlainVault

variable (env : VaultEnv) (device : Device)

/-- The document takes the place of the one of its id. A vault of more documents than a `usize` counts does not exist.
A commit takes five draws. -/
def commit (v : PlainVault) (id : DocumentId) (scope : DocumentKind) (current : Option PlainDocument)
    (mutation : DocumentMutation) (context : MutationContext) : VaultResult PlainVault := do
  let p ← PlainDocument.next env scope current mutation context
  ensure ((v.documents.insert id p).size < 2 ^ 64) .workerUnavailable
  return ⟨v.documents.insert id p, v.draws + 5⟩

/-- What a command does with the outcome of its work. -/
def finish {α : Type} (v : PlainVault) (id : DocumentId) (scope : DocumentKind) (current : Option PlainDocument)
    (context : MutationContext) (outcome : Outcome α) : VaultResult (α × PlainVault) :=
  match outcome.mutation with
  | none => .ok (outcome.answer, { v with draws := outcome.draws })
  | some mutation => do
    return (outcome.answer,
      ← PlainVault.commit env { v with draws := outcome.draws } id scope current mutation context)

def transact {α : Type} (v : PlainVault) (id : DocumentId) (scope : DocumentKind) (expected : Option Bytes)
    (context : MutationContext) (work : Option SecretDocument → Nat → VaultResult (Outcome α)) :
    VaultResult (α × PlainVault) := do
  let loaded ← PlainDocument.loaded env device scope expected v.documents[id]?
  let outcome ← work (loaded.map Prod.fst) v.draws
  v.finish env id scope (loaded.map Prod.snd) context outcome

def ops : StoreOps PlainVault where
  verifyLive _ := .ok ()
  inventory v := (v.documents.map fun _ p => (p.scope, p.nextEviction)).toList
  loadHistory v id scope expected := PlainDocument.loadedHistory env scope expected v.documents[id]?
  transact v := v.transact env device

end PlainVault

end FactorSeal

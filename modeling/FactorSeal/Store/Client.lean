import FactorSeal.Lib.Program
import FactorSeal.Store.Refinement
import FactorSeal.Vault.Reference

/-! # The handle of the store (vault/store.rs:185-402)

The service reaches the store only through `VaultStore`, whose methods send the worker a command and wait for its reply.
A service function is therefore a program of commands (`StoreProgram`). What it does on the store with its tables it does
on the plain vault (`run_simulates_plain`), so everything about such programs is proved on the plain vault. It stays so
when the process ends and another opens the store again (`sessions_simulate_plain`). -/

namespace FactorSeal

open Wire Except Answer StoreWorker

abbrev StoreProgram := Program Command Answer VaultError

namespace Answer

def secret? : Answer → Option (Option StoredSecret)
  | secret value => some value
  | _ => none

def values? : Answer → Option (List (Option Bytes))
  | values found => some found
  | _ => none

def done? : Answer → Option Unit
  | done => some ()
  | _ => none

def removed? : Answer → Option Bool
  | removed existed => some existed
  | _ => none

def count? : Answer → Option Nat
  | count n => some n
  | _ => none

def history? : Answer → Option HistoryPage
  | history page => some page
  | _ => none

def projects? : Answer → Option (StorePage String)
  | projects page => some page
  | _ => none

def addresses? : Answer → Option (StorePage SecretSpecAddress)
  | addresses page => some page
  | _ => none

def entries? : Answer → Option (StorePage VaultEntryMetadata)
  | entries page => some page
  | _ => none

end Answer

namespace VaultStore

/-- `request` (store/worker.rs): the reply of a worker that is gone is `WorkerUnavailable`. -/
def request {α : Type} (command : Command) (view : Answer → Option α) : StoreProgram α :=
  Program.request command view .workerUnavailable

def getWithDeadline (scope : DocumentKind) (partition : Bytes) (address : SecretAddress) (now : UInt64) :
    StoreProgram (Option StoredSecret) :=
  request (.get scope partition address now) secret?

def getAt (scope : DocumentKind) (partition : Bytes) (address : SecretAddress) (now : UInt64) :
    StoreProgram (Option Bytes) := do
  return (← getWithDeadline scope partition address now).map StoredSecret.value

def getMany (scope : DocumentKind) (partition : Bytes) (addresses : List SecretAddress) (now : UInt64) :
    StoreProgram (List (Option Bytes)) :=
  request (.getMany scope partition addresses now) values?

def putAt (scope : DocumentKind) (partition : Bytes) (address : SecretAddress) (value : Bytes) (evictAt : Option UInt64)
    (provenance : Provenance) (now : UInt64) : StoreProgram Unit :=
  request (.put scope partition address value evictAt provenance now) done?

def mutate (scope : DocumentKind) (partition : Bytes) (operations : List DocumentOperation) (provenance : Provenance)
    (now : UInt64) : StoreProgram Unit :=
  request (.mutate scope partition operations provenance now) done?

def delete (scope : DocumentKind) (partition : Bytes) (address : SecretAddress) (provenance : Provenance)
    (now : UInt64) : StoreProgram Bool :=
  request (.delete scope partition address provenance now) removed?

def clear (scope : DocumentKind) (partition : Bytes) (provenance : Provenance) (now : UInt64) : StoreProgram Nat :=
  request (.clear scope partition provenance now) count?

def purgeExpiredAt (now : UInt64) : StoreProgram Nat := request (.purgeExpired now) count?

def listProjects (cursor : Option String) (limit : UInt16) (now : UInt64) : StoreProgram (StorePage String) :=
  request (.listProjects cursor limit now) projects?

def listProjectAddresses (project : String) (cursor : Option String) (limit : UInt16) (now : UInt64) :
    StoreProgram (StorePage SecretSpecAddress) :=
  request (.listProjectAddresses project cursor limit now) addresses?

def listVaultEntries (cursor : Option String) (limit : UInt16) (now : UInt64) :
    StoreProgram (StorePage VaultEntryMetadata) :=
  request (.listVaultEntries cursor limit now) entries?

def listHistory (scope : DocumentKind) (partition : Bytes) (address : Option SecretAddress) (beforeSeq : Option UInt64)
    (limit : UInt16) : StoreProgram HistoryPage :=
  request (.listHistory scope partition address beforeSeq limit) history?

end VaultStore

/-- What `open` does with a verified database (worker.rs:734-742). -/
def StoreOps.settle {σ : Type} (S : StoreOps σ) (env : VaultEnv) (device : Device) (s : σ) (now : UInt64) :
    VaultResult (Unit × σ) := do
  let (_, s) ← S.purgeExpired env device s now
  S.migratePersonalDocument env device s now

/-- A process that opens the store and runs a program on it. One that is killed between two commands has run a shorter
program. -/
structure Session (α : Type) where
  draws : Nat
  now : UInt64
  program : StoreProgram α

section

variable (env : VaultEnv) (device : Device) {α : Type}

/-- The results of one session after the other, each on the database that the last left. -/
def StoreWorker.sessions (db : Database) : List (Session α) → VaultResult (List (VaultResult α))
  | [] => return []
  | x :: rest => do
    let w ← openStore env device db x.draws x.now
    let (result, w) := x.program.run ((ops env device).execute env device) w
    return result :: (← sessions w.db rest)

/-- The same on the plain vault, which needs no verification. -/
def PlainVault.sessions (v : PlainVault) : List (Session α) → VaultResult (List (VaultResult α))
  | [] => return []
  | x :: rest => do
    let (_, v) ← (ops env device).settle env device { v with draws := x.draws } x.now
    let (result, v) := x.program.run ((ops env device).execute env device) v
    return result :: (← sessions v rest)

/-- Sessions that differ at most in the draw of a repack. -/
def Session.Alike (x y : Session α) : Prop :=
  y.now = x.now ∧ y.program = x.program ∧ (y.draws = x.draws ∨ y.draws = x.draws + 1)

variable {env device} {w : StoreWorker} {v : PlainVault}

end

end FactorSeal

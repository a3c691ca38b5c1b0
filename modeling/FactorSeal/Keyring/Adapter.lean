import FactorSeal.Lib.Run
import FactorSeal.Service.Handle

/-! # The keyring adapter (vault/secret_service/agent.rs)

An adapter serves the calls of desktop applications on the keyring. Each call reads the index, works out the next one and
asks for a batch that first checks that the index is still the one that was read; after a conflict it begins again, up to
16 times. Between its two requests anything can happen to the vault: other adapters change the keyring, and items are
imported into it. `KeyringSystem` is the vault with all calls that were ever made on it.

| model | source |
|---|---|
| `KeyringCall` | `create_or_replace`, `set_secret`, `delete_item` (agent.rs:214-367) |
| `KeyringCall.edit` | what each works out from the index it read |
| `Attempt.mutations` | the batch it asks for |
| `afterRead`, `afterWrite` | how the loop goes on |
| `KeyringRequest.run` | `Store::call` (agent.rs:119-144) and the action it asks for |
-/

namespace FactorSeal

open Wire Except Std

/-- `secret_item`. -/
def secretItem (id : String) : String := "item/" ++ id

/-- `random_id`, from the bytes it draws. -/
def randomId (bytes : Vector UInt8 16) : String := hexEncode bytes.toList

inductive KeyringCall where
  | createOrReplace (label : String) (attributes : ExtTreeMap String String) (value : Bytes) (contentType : String)
    (replace : Bool)
  | setSecret (id : String) (value : Bytes) (contentType : String)
  | deleteItem (id : String)

inductive KeyringAnswer where
  /-- The item, and whether it was created. -/
  | item (item : IndexItem) (created : Bool)
  | done

/-- What a failed call reports: `no Secret Service item …`, `Secret Service index changed repeatedly; retry the
operation`, or the text of another error. -/
inductive KeyringFailure where
  | noItem (id : String)
  | changedRepeatedly
  | failed (error : VaultError)

/-! ## What a call works out -/

/-- A change of the keyring: of the list of items, and of one value. -/
inductive KeyringEdit where
  | replace (position : Nat) (item : IndexItem) (value : Bytes)
  | push (item : IndexItem) (value : Bytes)
  | remove (position : Nat) (id : String)

namespace KeyringEdit

/-- The items of the next index. -/
def items (items : List IndexItem) : KeyringEdit → List IndexItem
  | replace position item _ => items.set position item
  | push item _ => items ++ [item]
  | remove position _ => items.eraseIdx position

/-- What is asked for the value. -/
def mutation : KeyringEdit → VaultMutation
  | replace _ item value | push item value => .put ⟨secretItem item.id, none⟩ value none
  | remove _ id => .delete ⟨secretItem id, none⟩

end KeyringEdit

namespace KeyringCall

/-- The place of the item with these attributes, looked up only by a call that may replace it. -/
def existing (attributes : ExtTreeMap String String) (replace : Bool) (items : List IndexItem) : Option Nat :=
  if replace then items.findIdx? fun item => item.attributes.toList = attributes.toList else none

/-- What the call makes of the index, at a time and with the bytes of a fresh id. -/
def edit (now : UInt64) (fresh : Vector UInt8 16) (items : List IndexItem) :
    KeyringCall → Except KeyringFailure (KeyringEdit × KeyringAnswer)
  | createOrReplace label attributes value contentType replace =>
    match (existing attributes replace items).bind fun position => items[position]?.map fun old => (position, old) with
    | some (position, old) =>
      let item : IndexItem := ⟨old.id, label, attributes, contentType, old.created, now⟩
      .ok (.replace position item value, .item item false)
    | none =>
      let item : IndexItem := ⟨randomId fresh, label, attributes, contentType, now, now⟩
      .ok (.push item value, .item item true)
  | setSecret id value contentType =>
    match (items.findIdx? (·.id = id)).bind fun position => items[position]?.map fun old => (position, old) with
    | some (position, old) => .ok (.replace position { old with contentType, modified := now } value, .done)
    | none => .error (.noItem id)
  | deleteItem id =>
    match items.findIdx? (·.id = id) with
    | some position => .ok (.remove position id, .done)
    | none => .error (.noItem id)

end KeyringCall

/-- One pass of the loop after its read: what it read and drew, and what it will ask for. -/
structure Attempt where
  expected : Option Bytes
  index : Index
  now : UInt64
  fresh : Vector UInt8 16
  edit : KeyringEdit
  answer : KeyringAnswer

/-- The batch of the pass. -/
def Attempt.mutations (env : ServiceEnv) (a : Attempt) : List VaultMutation :=
  [.check ⟨indexItem, none⟩ (a.expected.map env.sha256), a.edit.mutation,
    .put ⟨indexItem, none⟩ (env.indexJson.encode { a.index with items := a.edit.items a.index.items }) none]

/-! ## The loop -/

inductive CallState where
  /-- Passes made so far. -/
  | reading (passes : Nat)
  | writing (passes : Nat) (a : Attempt)
  | finished (result : Except KeyringFailure KeyringAnswer)

def unexpectedResponse : VaultError := .protocol "unexpected Secret Service vault response"

/-- What the call does with the answer to its read. -/
def KeyringCall.afterRead (env : ServiceEnv) (call : KeyringCall) (passes : Nat) (now : UInt64) (fresh : Vector UInt8 16) :
    VaultResult (VaultResponseBody × Option UInt64) → CallState
  | .error e => .finished (.error (.failed e))
  | .ok (.secret expected, _) =>
    match Index.decode env.indexJson expected with
    | .error e => .finished (.error (.failed e))
    | .ok index =>
      match call.edit now fresh index.items with
      | .error failure => .finished (.error failure)
      | .ok (edit, answer) => .writing passes ⟨expected, index, now, fresh, edit, answer⟩
  | .ok _ => .finished (.error (.failed unexpectedResponse))

/-- What the call does with the answer to its batch. -/
def Attempt.afterWrite (a : Attempt) (passes : Nat) : VaultResult (VaultResponseBody × Option UInt64) → CallState
  | .ok (.mutated, _) => .finished (.ok a.answer)
  | .ok _ => .finished (.error (.failed unexpectedResponse))
  | .error .conflict => if passes + 1 < 16 then .reading (passes + 1) else .finished (.error .changedRepeatedly)
  | .error e => .finished (.error (.failed e))

/-! ## Requests -/

/-- Who asks, when, and under which deadline. -/
structure KeyringRequest where
  caller : CallerIdentity
  clock : Clock
  provenance : Provenance
  validUntil : Option UInt64

/-- What the service does for a request. -/
def KeyringRequest.run (env : ServiceEnv) (device : Device) (request : KeyringRequest) (action : VaultAction)
    (v : PlainVault) : VaultResult (VaultResponseBody × Option UInt64) × PlainVault :=
  (executeAction env device request.caller action (0, 0) request.provenance none request.clock request.validUntil).run
    ((PlainVault.ops env.toVaultEnv device).execute env.toVaultEnv device) v

/-- Why an adapter has no answer of the vault to its request. A conflict is always an answer. -/
structure Loss where
  error : VaultError
  notConflict : error ≠ .conflict

/-! ## All calls -/

/-- An import and its result. -/
structure ImportCall where
  entry : VaultEntryMetadata
  value : Bytes
  replaceExisting : Bool
  result : VaultResult VaultEntryImportStatus

/-- Something that was done to the keyring, with the answer it gave. -/
inductive KeyringStep where
  | call (call : KeyringCall) (now : UInt64) (fresh : Vector UInt8 16) (answer : KeyringAnswer)
  | importItem (item : IndexItem) (value : Bytes) (replaceExisting : Bool) (status : VaultEntryImportStatus)

/-- Which call it was. -/
inductive Origin where
  | call (n : Nat)
  | importItem (n : Nat)
deriving DecidableEq, Repr

/-- The vault, the calls of all adapters and the imports in the order they began, and what was done to the keyring in the
order it was. -/
structure KeyringSystem where
  vault : PlainVault
  calls : List (KeyringCall × CallState)
  imports : List ImportCall
  log : List (Origin × KeyringStep)

inductive KeyringEvent where
  | start (call : KeyringCall)
  /-- A call reads the index, and reads the clock and draws an id. -/
  | read (n : Nat) (request : KeyringRequest) (now : UInt64) (fresh : Vector UInt8 16)
  /-- A call asks for its batch, and perhaps does not hear what became of it. -/
  | write (n : Nat) (request : KeyringRequest) (lost : Option Loss)
  /-- A request of a call does not get to the keyring. -/
  | refuse (n : Nat) (loss : Loss)
  | importItem (entry : VaultEntryMetadata) (value : Bytes) (evictAt : Option UInt64) (replaceExisting : Bool)
    (requestId : RequestId) (provenance : Provenance) (now : UInt64)
  /-- Something happens to the vault that is not about the keyring. -/
  | elsewhere (vault : PlainVault)

namespace KeyringSystem

section

variable (env : ServiceEnv) (device : Device) (s : KeyringSystem)

def read (n : Nat) (request : KeyringRequest) (now : UInt64) (fresh : Vector UInt8 16) : Except Unit KeyringSystem :=
  match s.calls[n]? with
  | some (call, .reading passes) =>
    let (result, vault) := request.run env device (.get secretServiceNamespace ⟨indexItem, none⟩) s.vault
    .ok { s with vault, calls := s.calls.set n (call, call.afterRead env passes now fresh result) }
  | _ => .error ()

/-- What is recorded of a batch. -/
def recorded (n : Nat) (call : KeyringCall) (a : Attempt) :
    VaultResult (VaultResponseBody × Option UInt64) → List (Origin × KeyringStep)
  | .ok _ => [(.call n, .call call a.now a.fresh a.answer)]
  | .error _ => []

def write (n : Nat) (request : KeyringRequest) (lost : Option Loss) : Except Unit KeyringSystem :=
  match s.calls[n]? with
  | some (call, .writing passes a) =>
    let (result, vault) := request.run env device (.mutate secretServiceNamespace (a.mutations env)) s.vault
    let state := match lost with
      | none => a.afterWrite passes result
      | some loss => .finished (.error (.failed loss.error))
    .ok { s with vault, calls := s.calls.set n (call, state), log := s.log ++ recorded n call a result }
  | _ => .error ()

def refuse (n : Nat) (loss : Loss) : Except Unit KeyringSystem :=
  match s.calls[n]? with
  | some (call, .reading _) | some (call, .writing _ _) =>
    .ok { s with calls := s.calls.set n (call, .finished (.error (.failed loss.error))) }
  | _ => .error ()

/-- What is recorded of an import; the item is the one that the portable value holds. -/
def recordedImport (n : Nat) (entry : VaultEntryMetadata) (value : Bytes) (replaceExisting : Bool) :
    VaultResult VaultEntryImportStatus → List (Origin × KeyringStep)
  | .ok status =>
    match decodePortable env value entry.address with
    | .ok (item, value) => [(.importItem n, .importItem item value replaceExisting status)]
    | .error _ => []
  | .error _ => []

def importItem (entry : VaultEntryMetadata) (value : Bytes) (evictAt : Option UInt64) (replaceExisting : Bool)
    (requestId : RequestId) (provenance : Provenance) (now : UInt64) : KeyringSystem :=
  let (result, vault) := (importSecretServiceItem env entry value evictAt replaceExisting requestId provenance now).run
    ((PlainVault.ops env.toVaultEnv device).execute env.toVaultEnv device) s.vault
  { s with
    vault
    imports := s.imports ++ [⟨entry, value, replaceExisting, result⟩]
    log := s.log ++ recordedImport env s.imports.length entry value replaceExisting result }

end

/-- The system takes any of these steps at any time. -/
def process (env : ServiceEnv) (device : Device) : Process KeyringSystem KeyringEvent Unit where
  step s
    | .start call => .ok { s with calls := s.calls ++ [(call, .reading 0)] }
    | .read n request now fresh => s.read env device n request now fresh
    | .write n request lost => s.write env device n request lost
    | .refuse n loss => s.refuse n loss
    | .importItem entry value evictAt replaceExisting requestId provenance now =>
      .ok (s.importItem env device entry value evictAt replaceExisting requestId provenance now)
    | .elsewhere vault => .ok { s with vault }

end KeyringSystem

end FactorSeal

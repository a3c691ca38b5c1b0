import FactorSeal.Lib.Except
import FactorSeal.Lib.Register
import FactorSeal.Personal.Secret

/-! # Personal replicas (personal/replica.rs)

Every personal item is one Automerge register, `value` at the root: `from_update` accepts a change only if it holds one
operation on it. Automerge is third-party code. `Automerge` is what the vault uses of its binary format; the register
itself is `RegisterOps` with the Lamport order of operation ids: a change is applied once its dependencies are there,
merging is applying, an operation is visible until another one names it as a predecessor, and writing the winner's value
in a conflict is encoded as a removal of the other visible operations.

A `PersonalReplica` holds the changes it has applied, newest first, and that they are closed under dependencies. -/

namespace FactorSeal

open Wire Except

abbrev ChangeHash := Vector UInt8 32
abbrev ReplicaHeads := List ChangeHash

/-- An operation id: counter and actor, ordered by the counter first. -/
abbrev OpId := Nat × Bytes

instance : Ord OpId := lexOrd
instance : Std.TransOrd OpId := inferInstanceAs (@Std.TransOrd _ lexOrd)
instance : Std.LawfulEqOrd OpId := inferInstanceAs (@Std.LawfulEqOrd _ lexOrd)

/-- `automerge::ScalarValue`. The scalars `decode_value` rejects are one constructor. -/
inductive ScalarValue where
  | null
  | bytes (value : Bytes)
  | other (tag : Nat)
deriving DecidableEq, Repr

/-- `automerge::legacy::OpType`. -/
inductive OpType where
  | put (value : ScalarValue)
  | delete
  | other (tag : Nat)
deriving DecidableEq, Repr

/-- `automerge::legacy::ObjectId` and `Key`, as far as the register's place needs them. -/
inductive OpPlace where
  | rootKey (key : String)
  | elsewhere (tag : Nat)
deriving DecidableEq, Repr

structure Operation where
  place : OpPlace
  insert : Bool
  action : OpType
  pred : List OpId
deriving DecidableEq, Repr

/-- `automerge::ExpandedChange`. -/
structure Change where
  actor : Bytes
  seq : Nat
  startOp : Nat
  time : Int
  deps : List ChangeHash
  message : Option String
  author : Option Bytes
  extraBytes : Bytes
  operations : List Operation
deriving DecidableEq, Repr

/-- Automerge's binary format of one change: `Change::from_bytes`, `raw_bytes`, `hash`. A change is written as an
uncompressed chunk (type 1 at offset 8) behind the first four bytes of its hash. -/
structure Automerge where
  hash : Change → ChangeHash
  rawBytes : Change → Bytes
  fromBytes : Bytes → Option Change
  fromBytes_rawBytes : ∀ c, fromBytes (rawBytes c) = some c
  chunkType : ∀ c, (rawBytes c)[8]? = some 1
  checksum : ∀ c, (rawBytes c).extract 4 8 = (hash c).toList.take 4

/-- The register a log of changes holds. -/
def Automerge.register (am : Automerge) : RegisterOps Change ChangeHash OpId ScalarValue where
  hash := am.hash
  deps := Change.deps
  opId c := (c.startOp, c.actor)
  assigned c := match c.operations with
    | [⟨_, _, .put value, _⟩] => some value
    | _ => none
  preds c := match c.operations with
    | [op] => op.pred
    | _ => []

/-- What the replicas use: Automerge's format and serde_json on items. -/
structure ReplicaEnv extends Automerge where
  itemJson : ItemJson
  updateJson : Codec (String × List Bytes)

/-- `PersonalUpdate`: a complete change closure for one item. -/
structure PersonalUpdate where
  itemId : String
  changes : List Bytes
deriving DecidableEq, Repr

/-- `AutoCommit` of one item: the changes applied so far. -/
structure PersonalReplica (env : ReplicaEnv) where
  id : String
  actor : Bytes
  log : List Change
  closed : env.register.rules.Closed log

def maxUpdate : Nat := 1024 * 1024
def maxChanges : Nat := 4096
def maxValues : Nat := 16

/-- `invalid()` (replica.rs:264-266). -/
def invalidChanges : VaultError := .protocol "invalid personal Automerge changes"

section

variable (env : ReplicaEnv)

/-- `decode_value` (replica.rs:251-263). -/
def decodeValue (id : String) : ScalarValue → VaultResult (Option PersonalSecret)
  | .null => .ok none
  | .bytes bytes => do
    let item ← ofOption invalidChanges (env.itemJson.decodeCurrent bytes)
    ensure (item.id = id) invalidChanges
    return some item
  | .other _ => .error invalidChanges

/-- `validate_change` (replica.rs:228-250): whether the change is a resolution. -/
def validateChange (id : String) (change : Change) : VaultResult Bool := do
  ensure (change.operations.length = 1 ∧ change.message = none ∧ change.extraBytes = [] ∧ change.author = none)
    invalidChanges
  match change.operations with
  | [op] =>
    ensure (op.place = .rootKey "value" ∧ op.insert = false) invalidChanges
    match op.action with
    | .put value => do
      let _ ← decodeValue env id value
      return false
    | .delete => return true
    | .other _ => .error invalidChanges
  | _ => .error invalidChanges

/-- The loop of `from_update` over the change bytes (replica.rs:84-106), `total` bytes in. -/
def parseChanges (id : String) : Nat → List Bytes → VaultResult (List Change)
  | _, [] => .ok []
  | total, bytes :: rest => do
    let total := total + bytes.length
    ensure (total ≤ maxUpdate ∧ bytes[8]? = some 1) invalidChanges
    let change ← ofOption invalidChanges (env.fromBytes bytes)
    ensure (env.rawBytes change = bytes ∧ bytes.extract 4 8 = (env.hash change).toList.take 4) invalidChanges
    let _ ← validateChange env id change
    return change :: (← parseChanges id total rest)

/-- The decoded values in the order of `get_all`, each once (replica.rs:166-178). -/
def distinctValues (id : String) : List Change → List (Option PersonalSecret) →
    VaultResult (List (Option PersonalSecret))
  | [], seen => .ok seen
  | c :: rest, seen =>
    match env.register.assigned c with
    | some value => do
      let item ← decodeValue env id value
      distinctValues id rest (if item ∈ seen then seen else seen ++ [item])
    | none => .error invalidChanges

/-- The scalar an item is stored as. -/
def itemScalar (item : Option PersonalSecret) : VaultResult ScalarValue :=
  match item with
  | none => .ok .null
  | some item => do
    let bytes ← ofOption invalidChanges (env.itemJson.encode item)
    return .bytes bytes

namespace PersonalReplica

variable {env}

/-- `PersonalReplica::new` (replica.rs:64-72). -/
def new (id : String) (actor : Bytes) : VaultResult (PersonalReplica env) := do
  ensure (id ≠ "" ∧ id.utf8ByteSize ≤ 1024) invalidChanges
  return ⟨id, actor, [], .nil⟩

/-- `apply_changes`, and `merge`, which applies the other document's changes: fails if some change cannot be applied. -/
def applyChanges (r : PersonalReplica env) (changes : List Change) : VaultResult (PersonalReplica env) :=
  match h : env.register.rules.drain changes.length r.log changes with
  | some log => .ok { r with log, closed := (ChangeRules.drain_spec r.closed h).closed }
  | none => .error invalidChanges

/-- `get_all(ROOT, "value")`. -/
def visible (r : PersonalReplica env) : List Change := env.register.visible r.log

/-- `values` (replica.rs:166-181). -/
def values (r : PersonalReplica env) : VaultResult (List (Option PersonalSecret)) := do
  let values ← distinctValues env r.id r.visible []
  ensure (values.length ≤ maxValues) invalidChanges
  return values

/-- `heads` (replica.rs:159-163), sorted. -/
def heads (r : PersonalReplica env) : ReplicaHeads :=
  (env.register.heads r.log).insertionSort fun a b => (compare a b).isLE

/-- The resolutions of a log: the changes `validate_change` answers `true` for. -/
def resolutions (r : PersonalReplica env) : List Change :=
  r.log.filter fun c => env.register.assigned c = none

/-- `from_update` (replica.rs:80-138). -/
def fromUpdate (update : PersonalUpdate) (actor : Bytes) : VaultResult (PersonalReplica env) := do
  ensure (update.changes ≠ [] ∧ update.changes.length ≤ maxChanges) invalidChanges
  let changes ← parseChanges env update.itemId 0 update.changes
  let replica ← new update.itemId actor
  let replica ← replica.applyChanges changes
  ensure (replica.log.length = update.changes.length) invalidChanges
  ensure (replica.resolutions.all (env.register.resolves replica.log)) invalidChanges
  let _ ← replica.values
  return replica

/-- `update` (replica.rs:149-158): the changes, oldest first. -/
def update (r : PersonalReplica env) : VaultResult PersonalUpdate := do
  ensure (r.log.length ≤ maxChanges) invalidChanges
  return ⟨r.id, r.log.reverse.map env.rawBytes⟩

/-- `save` (replica.rs:139-148). -/
def save (r : PersonalReplica env) : VaultResult Bytes := do
  let update ← r.update
  let bytes := env.updateJson.encode (update.itemId, update.changes)
  ensure (bytes.length ≤ maxUpdate) (.protocol "personal Automerge history is full")
  return bytes

/-- `load` (replica.rs:73-79). -/
def load (id : String) (bytes : Bytes) (actor : Bytes) : VaultResult (PersonalReplica env) :=
  match env.updateJson.decode bytes with
  | .error _ => .error invalidChanges
  | .ok (itemId, changes) => do
    ensure (itemId = id) invalidChanges
    fromUpdate ⟨itemId, changes⟩ actor

/-- The change Automerge makes of one operation on the register. -/
def localChange (r : PersonalReplica env) (op : Option ScalarValue × List OpId) : Change where
  actor := r.actor
  seq := (r.log.filter fun c => c.actor = r.actor).length + 1
  startOp := r.log.foldl (fun top c => max top c.startOp) 0 + 1
  time := 0
  deps := r.heads
  message := none
  author := none
  extraBytes := []
  operations := [⟨.rootKey "value", false, match op.1 with | some value => .put value | none => .delete, op.2⟩]

/-- `commit`: the new change comes on top of the log. -/
def commit (r : PersonalReplica env) (c : Change) : VaultResult (PersonalReplica env) :=
  if h : env.hash c ∉ r.log.map env.hash ∧ env.register.rules.ready r.log c = true then
    .ok { r with log := c :: r.log, closed := ChangeRules.closed_of_ready r.closed h.1 h.2 }
  else .error invalidChanges

/-- `put(ROOT, "value", value)` and `commit`; writing the only visible value again makes no change. -/
def put (r : PersonalReplica env) (value : ScalarValue) : VaultResult (PersonalReplica env) :=
  match env.register.writes r.log value with
  | none => .ok r
  | some op => r.commit (r.localChange op)

/-- `set` (replica.rs:182-212). -/
def set (r : PersonalReplica env) (item : Option PersonalSecret) (expected : Option ReplicaHeads) :
    VaultResult (PersonalReplica env) := do
  match expected with
  | some expected => ensure (r.heads = expected) .conflict
  | none => ensure ((← r.values).length ≤ 1) .conflict
  ensure (∀ i ∈ item, i.id = r.id) invalidChanges
  let value ← itemScalar env item
  let replica ← r.put value
  let _ ← replica.save
  return replica

/-- `merge` (replica.rs:213-225). -/
def merge (r : PersonalReplica env) (update : PersonalUpdate) : VaultResult (PersonalReplica env × Bool) := do
  ensure (r.id = update.itemId) invalidChanges
  let incoming : PersonalReplica env ← fromUpdate update r.actor
  let replica ← r.applyChanges incoming.log.reverse
  let _ ← replica.values
  let _ ← replica.save
  return (replica, replica.heads ≠ r.heads)

end PersonalReplica

end

end FactorSeal

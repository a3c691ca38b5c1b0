import FactorSeal.Service.Approvals

/-! # Actions on the store (protocol/service/actions.rs)

Every action first asks for the grant it needs, then goes to the store. Reads, listings and deletions ask with
`require_grant_until`; only the write of a SecretSpec value asks with `require_grant_consuming`. -/

namespace FactorSeal

open Wire Except

/-! ## Time (protocol/service/time.rs) -/

/-- The readings of the clocks in the course of one request: the wall clock in seconds and the monotonic clock. -/
abbrev Clock := Nat → UInt64 × Instant

/-- The earlier of two deadlines. -/
def tighten (target deadline : Option UInt64) : Option UInt64 :=
  match target, deadline with
  | target, none => target
  | none, some deadline => some deadline
  | some old, some deadline => some (min old deadline)

/-- `check`. -/
def checkClock (now : UInt64) (deadline : Option UInt64) : VaultResult Unit :=
  ensure (isLive now deadline = true) .expired

/-- `validate_evict_at`. -/
def validateEvictAt (evictAt : Option UInt64) (now : UInt64) : VaultResult Unit :=
  ensure (evictAt.all (now ≤ ·) = true) .expired

/-! ## Scopes -/

/-- The kind of document a keyring namespace lies in. -/
def namespaceScope (partition : Bytes) : DocumentKind :=
  if partition = secretServiceNamespace then .linuxSecretService
  else if partition = utf8 "factorseal/network-manager/v1" then .networkManagerWifi
  else .localKeyring

/-- `scope_action`. -/
def VaultAction.scope : VaultAction → DocumentKind
  | .getProject _ _ | .putProject _ _ _ | .deleteProject _ _ | .listProjects _ _ | .listProjectAddresses _ _ _
  | .listProjectHistory _ _ _ _ => .secretSpecProject
  | .getCache _ _ | .putCache _ _ _ _ | .deleteCache _ _ | .clearCache _ | .sealCache _ | .listCacheHistory _ _ _ _ =>
    .secretSpecProviderCache
  | .get partition _ | .put partition _ _ _ | .mutate partition _ | .delete partition _ | .clear partition
  | .seal partition | .listHistory partition _ _ _ => namespaceScope partition
  | _ => .localKeyring

/-! ## One action -/

structure ActionContext where
  caller : CallerIdentity
  scope : DocumentKind
  clock : Clock
  provenance : Provenance
  baseDir : Option String

/-- What the manager of permissions holds. -/
def managerRequirement : GrantRequirement :=
  ⟨.authorization, some permissionControlNamespace, none, none, none, .managePermissions⟩

namespace ActionContext

variable (env : ServiceEnv) (context : ActionContext)

/-- The wall clock at a point of the action. -/
def wall (i : Nat) : UInt64 := (context.clock i).1

/-- `accept_deadline`. -/
def acceptDeadline (i : Nat) (validUntil deadline : Option UInt64) : VaultResult (Option UInt64) := do
  checkClock (context.wall i) (tighten validUntil deadline)
  return tighten validUntil deadline

/-- The deadline of a secret that was read, if there is one. -/
def acceptSecret (i : Nat) (validUntil : Option UInt64) : Option StoredSecret → VaultResult (Option UInt64)
  | none => .ok validUntil
  | some secret => context.acceptDeadline i validUntil secret.expiresAt

/-- The requirement of `require`. -/
def onNamespace (partition : Bytes) (address : Option SecretAddress) (permission : GrantPermission) : GrantRequirement :=
  ⟨context.scope, some partition, address, none, none, permission⟩

/-- The requirement of `require_project`. -/
def onProject (project : String) (address : Option SecretAddress) (permission : GrantPermission) : GrantRequirement :=
  ⟨context.scope, some (utf8 project), address, some project, context.baseDir, permission⟩

/-- The requirement of `require_kind`. -/
def onKind (permission : GrantPermission) : GrantRequirement := ⟨context.scope, none, none, none, none, permission⟩

/-- `require`, `require_project` and `require_kind`: the tightened deadline of what follows. -/
def require (i : Nat) (requirement : GrantRequirement) (validUntil : Option UInt64) : StoreProgram (Option UInt64) := do
  let deadline ← requireGrantUntil env.toGrantEnv context.caller requirement (context.wall i)
  context.acceptDeadline (i + 1) validUntil deadline

/-- What `get` and `get_secret_spec` read (actions.rs:219-228). -/
def readSecret (i : Nat) (partition : Bytes) (address : SecretAddress) (validUntil : Option UInt64) :
    StoreProgram (VaultResponseBody × Option UInt64) := do
  let secret ← VaultStore.getWithDeadline context.scope partition address (context.wall i)
  let validUntil ← context.acceptSecret (i + 1) validUntil secret
  return (.secret (secret.map StoredSecret.value), validUntil)

def get (partition : Bytes) (address : WireSecretAddress) (validUntil : Option UInt64) :
    StoreProgram (VaultResponseBody × Option UInt64) := do
  let address ← address.resolve
  let validUntil ← context.require env 0 (context.onNamespace partition (some address) .get) validUntil
  context.readSecret 2 partition address validUntil

def getSecretSpec (project : String) (address : SecretSpecAddress) (validUntil : Option UInt64) :
    StoreProgram (VaultResponseBody × Option UInt64) := do
  let address ← SecretAddress.newSecretSpec address
  let validUntil ← context.require env 0 (context.onProject project (some address) .get) validUntil
  context.readSecret 2 (utf8 project) address validUntil

def put (partition : Bytes) (address : WireSecretAddress) (value : Bytes) (evictAt validUntil : Option UInt64) :
    StoreProgram (VaultResponseBody × Option UInt64) := do
  let address ← address.resolve
  let validUntil ← context.require env 0 (context.onNamespace partition (some address) .put) validUntil
  validateEvictAt evictAt (context.wall 2)
  VaultStore.putAt context.scope partition address value evictAt context.provenance (context.wall 3)
  return (.stored, validUntil)

def putSecretSpec (project : String) (address : SecretSpecAddress) (value : Bytes)
    (evictAt validUntil : Option UInt64) : StoreProgram (VaultResponseBody × Option UInt64) := do
  let address ← SecretAddress.newSecretSpec address
  validateEvictAt evictAt (context.wall 0)
  let deadline ← requireGrantConsuming env.toGrantEnv context.caller (context.onProject project (some address) .put)
    (context.wall 1) context.provenance
  let validUntil ← context.acceptDeadline 2 validUntil deadline
  VaultStore.putAt context.scope (utf8 project) address value evictAt context.provenance (context.wall 3)
  return (.stored, validUntil)

/-- One mutation of `prepare_mutations`, from the `i`-th reading on. -/
def prepareMutation (i : Nat) (partition : Bytes) (validUntil : Option UInt64) :
    VaultMutation → StoreProgram (Option DocumentOperation × Option UInt64)
  | .check address expectedSha256 => do
    let address ← address.resolve
    let validUntil ← context.require env i (context.onNamespace partition (some address) .get) validUntil
    let current ← VaultStore.getWithDeadline context.scope partition address (context.wall (i + 2))
    let validUntil ← context.acceptSecret (i + 3) validUntil current
    ensure (current.map (fun secret => env.sha256 secret.value) = expectedSha256) VaultError.conflict
    return (none, validUntil)
  | .put address value evictAt => do
    let address ← address.resolve
    let validUntil ← context.require env i (context.onNamespace partition (some address) .put) validUntil
    validateEvictAt evictAt (context.wall (i + 2))
    return (some (.put address value evictAt), validUntil)
  | .delete address => do
    let address ← address.resolve
    let validUntil ← context.require env i (context.onNamespace partition (some address) .delete) validUntil
    return (some (.delete address), validUntil)

/-- `prepare_mutations`: four readings for each. -/
def prepareMutations (partition : Bytes) : Nat → Option UInt64 → List VaultMutation →
    StoreProgram (List DocumentOperation × Option UInt64)
  | _, validUntil, [] => return ([], validUntil)
  | i, validUntil, mutation :: rest => do
    let (operation, validUntil) ← context.prepareMutation env i partition validUntil mutation
    let (operations, validUntil) ← prepareMutations partition (i + 4) validUntil rest
    return (operation.toList ++ operations, validUntil)

def mutate (partition : Bytes) (mutations : List VaultMutation) (validUntil : Option UInt64) :
    StoreProgram (VaultResponseBody × Option UInt64) := do
  let (operations, validUntil) ← context.prepareMutations env partition 0 validUntil mutations
  VaultStore.mutate context.scope partition operations context.provenance (context.wall (4 * mutations.length))
  return (.mutated, validUntil)

/-- `delete` and `delete_secret_spec` on a resolved address. -/
def deleteAt (requirement : GrantRequirement) (partition : Bytes) (address : SecretAddress)
    (validUntil : Option UInt64) : StoreProgram (VaultResponseBody × Option UInt64) := do
  let validUntil ← context.require env 0 requirement validUntil
  let existed ← VaultStore.delete context.scope partition address context.provenance (context.wall 2)
  return (.deleted existed, validUntil)

def delete (partition : Bytes) (address : WireSecretAddress) (validUntil : Option UInt64) :
    StoreProgram (VaultResponseBody × Option UInt64) := do
  let address ← address.resolve
  context.deleteAt env (context.onNamespace partition (some address) .delete) partition address validUntil

def deleteSecretSpec (project : String) (address : SecretSpecAddress) (validUntil : Option UInt64) :
    StoreProgram (VaultResponseBody × Option UInt64) := do
  let address ← SecretAddress.newSecretSpec address
  context.deleteAt env (context.onProject project (some address) .delete) (utf8 project) address validUntil

def clear (partition : Bytes) (validUntil : Option UInt64) : StoreProgram (VaultResponseBody × Option UInt64) := do
  let validUntil ← context.require env 0 (context.onNamespace partition none .clear) validUntil
  let entries ← VaultStore.clear context.scope partition context.provenance (context.wall 2)
  return (.cleared entries, validUntil)

def listProjects (cursor : Option String) (limit : UInt16) (validUntil : Option UInt64) :
    StoreProgram (VaultResponseBody × Option UInt64) := do
  let validUntil ← context.require env 0 (context.onKind .list) validUntil
  let page ← VaultStore.listProjects cursor limit (context.wall 2)
  return (.projects page, validUntil)

def listProjectAddresses (project : String) (cursor : Option String) (limit : UInt16) (validUntil : Option UInt64) :
    StoreProgram (VaultResponseBody × Option UInt64) := do
  let validUntil ← context.require env 0 (context.onProject project none .list) validUntil
  let page ← VaultStore.listProjectAddresses project cursor limit (context.wall 2)
  return (.projectAddresses page, validUntil)

/-- What a reader sees of an entry another caller made. -/
def redacted (entry : HistoryEntry) : HistoryEntry :=
  match entry.provenance with
  | .caller principal _ =>
    if principal = env.principal context.caller then entry else { entry with provenance := .redacted }
  | _ => entry

/-- `redact_history`. -/
def redactHistory (entries : List HistoryEntry) (validUntil : Option UInt64) :
    StoreProgram (List HistoryEntry × Option UInt64) := do
  match ← (requireGrantUntil env.toGrantEnv context.caller managerRequirement (context.wall 2)).attempt with
  | .ok deadline => do
    let validUntil ← context.acceptDeadline 3 validUntil deadline
    return (entries, validUntil)
  | .error .authorizationRequired => return (entries.map (context.redacted env), validUntil)
  | .error failure => (.error failure : VaultResult (List HistoryEntry × Option UInt64))

/-- `list_history` behind its check. -/
def listHistory (requirement : GrantRequirement) (partition : Bytes) (address : Option SecretAddress)
    (beforeSeq : Option UInt64) (limit : UInt16) (validUntil : Option UInt64) :
    StoreProgram (VaultResponseBody × Option UInt64) := do
  let validUntil ← context.require env 0 requirement validUntil
  let page ← VaultStore.listHistory context.scope partition address beforeSeq limit
  let (entries, validUntil) ← context.redactHistory env page.items validUntil
  return (.history ⟨entries, page.nextBeforeSeq⟩, validUntil)

/-- `transpose` of an optional address. -/
def resolveOptional {α : Type} (resolve : α → VaultResult SecretAddress) : Option α → VaultResult (Option SecretAddress)
  | none => .ok none
  | some address => (resolve address).map some

def historyOf (partition : Bytes) (address : Option WireSecretAddress) (cursor : Option UInt64) (limit : UInt16)
    (validUntil : Option UInt64) : StoreProgram (VaultResponseBody × Option UInt64) := do
  let address ← resolveOptional WireSecretAddress.resolve address
  context.listHistory env (context.onNamespace partition none .list) partition address cursor limit validUntil

def historyOfProject (project : String) (address : Option SecretSpecAddress) (cursor : Option UInt64) (limit : UInt16)
    (validUntil : Option UInt64) : StoreProgram (VaultResponseBody × Option UInt64) := do
  let address ← resolveOptional SecretAddress.newSecretSpec address
  context.listHistory env (context.onProject project none .list) (utf8 project) address cursor limit validUntil

/-- `seal`; the service seals the vault when it sends the answer. -/
def sealNamespace (partition : Bytes) (validUntil : Option UInt64) : StoreProgram (VaultResponseBody × Option UInt64) := do
  let validUntil ← context.require env 0 (context.onNamespace partition none .sealVault) validUntil
  return (.sealed, validUntil)

end ActionContext

/-- `execute_action`; `leaseDeadlines` are reported by `Status`. The actions in the last line are handled before. -/
def executeAction (env : ServiceEnv) (device : Device) (caller : CallerIdentity) (action : VaultAction)
    (leaseDeadlines : UInt64 × UInt64) (provenance : Provenance) (baseDir : Option String) (clock : Clock)
    (validUntil : Option UInt64) : StoreProgram (VaultResponseBody × Option UInt64) :=
  let context : ActionContext := ⟨caller, action.scope, clock, provenance, baseDir⟩
  match action with
  | .status => return (.status device.installationId device.deviceVaultId device.deviceKeyId leaseDeadlines.1
      leaseDeadlines.2, validUntil)
  | .get partition address => context.get env partition address validUntil
  | .put partition address value evictAt => context.put env partition address value evictAt validUntil
  | .mutate partition mutations => context.mutate env partition mutations validUntil
  | .delete partition address => context.delete env partition address validUntil
  | .clear partition => context.clear env partition validUntil
  | .seal partition => context.sealNamespace env partition validUntil
  | .getProject project address | .getCache project address => context.getSecretSpec env project address validUntil
  | .putProject project address value => context.putSecretSpec env project address value none validUntil
  | .putCache project address value evictAt => context.putSecretSpec env project address value evictAt validUntil
  | .deleteProject project address | .deleteCache project address =>
    context.deleteSecretSpec env project address validUntil
  | .listProjects cursor limit => context.listProjects env cursor limit validUntil
  | .listProjectAddresses project cursor limit => context.listProjectAddresses env project cursor limit validUntil
  | .listHistory partition address cursor limit => context.historyOf env partition address cursor limit validUntil
  | .listProjectHistory project address cursor limit | .listCacheHistory project address cursor limit =>
    context.historyOfProject env project address cursor limit validUntil
  | .clearCache project => context.clear env (utf8 project) validUntil
  | .sealCache project => context.sealNamespace env (utf8 project) validUntil
  | _ => (.error (.protocol "action was handled before execution") : VaultResult (VaultResponseBody × Option UInt64))

/-- The second part of the result of `execute_action`. -/
def VaultAction.refreshesLease : VaultAction → Bool
  | .status | .seal _ | .sealCache _ => false
  | _ => true

end FactorSeal

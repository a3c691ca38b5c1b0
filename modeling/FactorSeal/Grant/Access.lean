import FactorSeal.Grant.Target
import FactorSeal.Store.Client

/-! # Grants in the store (protocol/grant.rs)

Grants are records of one authorization document, each filed under its caller, target and permission; a registry beside
them lists the approved permissions. Every function is a program over the store's commands.

| here | there |
| --- | --- |
| `AccessGrant`, `Permission`, `PermissionRegistry` … | grant.rs:37-79, wire.rs:1239-1450 |
| `GrantRequirement.targets`, `scan`, `findGrant` | `find_grant` (grant.rs:677-769) |
| `requireGrantUntil`, `requireGrantConsuming`, `consumeGrant` | grant.rs:593-675 |
| `promotePermission`, `revokePermission`, `listGrantedPermissions` | grant.rs:402-537 |
| `prepareGrant`, `storePreparedGrants`, `storeExclusiveGrant` | grant.rs:180-400 |

`serde_json::to_vec` of these types does not fail. -/

namespace FactorSeal

open Wire Except VaultStore

/-! ## Records -/

/-- `GRANT_DOCUMENT_NAMESPACE`. -/
def grantDocumentNamespace : Bytes := utf8 "factorseal/vault-grants/v3"
def grantVersion : UInt8 := 3
def permissionRegistryVersion : UInt8 := 1
def exclusiveHolderVersion : UInt8 := 1

structure AccessGrant where
  version : UInt8
  callerFingerprint : Digest
  targetDigest : Digest
  permissions : Finset GrantPermission
  expiresAt : Option UInt64
  singleUse : Bool
deriving DecidableEq

structure ExclusiveHolder where
  version : UInt8
  callerFingerprint : Digest
  permissions : Finset GrantPermission
deriving DecidableEq

/-- wire.rs:319-338. -/
structure VaultApplicationContext where
  project : Option String
  profile : Option String
  baseDir : Option String
  reason : Option String
  requestedPermissionDurationSeconds : Option UInt64
  declaredLaunchChain : List String
deriving DecidableEq, Repr

inductive PermissionOperation where
  | get
  | put
  | delete
  | clear
deriving DecidableEq, Repr

inductive PermissionTarget where
  | documentKind
  | wholeNamespace (partition : Bytes)
  | entry (partition : Bytes) (address : SecretAddress)
  | projectEntry (partition : Bytes) (address : SecretAddress) (project : String) (baseDir : Option String)
  | project (partition : Bytes) (project : String) (baseDir : Option String)
deriving DecidableEq, Repr

/-- `GrantTarget::summary`. -/
def GrantTarget.summary : GrantTarget → PermissionTarget
  | .kind _ => .documentKind
  | .wholeNamespace _ partition => .wholeNamespace partition
  | .entry _ partition address => .entry partition address
  | .projectEntry _ partition address name baseDir => .projectEntry partition address name baseDir
  | .project _ partition name baseDir => .project partition name baseDir

inductive PermissionState where
  | pending (createdAt expiresAt : UInt64) (challenge : Digest) (awaited expiringWrite : Bool)
  | granted (grantedAt : UInt64) (expiresAt : Option UInt64) (singleUse : Bool)
deriving DecidableEq, Repr

/-- wire.rs:1400-1421. The principal has the fields of the identity it is made from. -/
abbrev PermissionPrincipal := CallerIdentity

structure Permission where
  target : Option PermissionTarget
  id : String
  scope : Option DocumentKind
  operation : PermissionOperation
  principal : PermissionPrincipal
  application : VaultApplicationContext
  state : PermissionState
deriving DecidableEq, Repr

structure StoredPermission where
  permission : Permission
  callerFingerprint : Digest
  targetDigest : Digest
  grantPermission : GrantPermission
deriving DecidableEq, Repr

structure PermissionRegistry where
  version : UInt8
  permissions : List StoredPermission
deriving DecidableEq, Repr

/-- The formats of the authorization document's records beside those of the vault. -/
structure GrantEnv extends VaultEnv where
  grantJson : Codec AccessGrant
  registryJson : Codec PermissionRegistry
  holderJson : Codec ExclusiveHolder

/-- `serde_json::from_slice` with its message as a protocol error. -/
def fromSlice {α : Type} (json : Codec α) (bytes : Bytes) : VaultResult α :=
  match json.decode bytes with
  | .ok a => .ok a
  | .error message => .error (.protocol message)

/-- `deadline.is_none_or(|deadline| deadline > now)`. -/
def isLive (now : UInt64) (deadline : Option UInt64) : Bool :=
  match deadline with
  | some deadline => now < deadline
  | none => true

/-! ## Looking up -/

structure GrantRequirement where
  scope : DocumentKind
  /-- `namespace`; `none` accepts only a grant on the whole kind. -/
  partition : Option Bytes
  address : Option SecretAddress
  project : Option String
  baseDir : Option String
  permission : GrantPermission
deriving DecidableEq, Repr

namespace GrantRequirement

/-- The address may be one of the project's: none is asked for, it is a keyring item, or a SecretSpec address that does
not name another project. -/
def InProject (r : GrantRequirement) (project : String) : Prop :=
  match r.address with
  | none => True
  | some (.local _ _) => r.scope = .linuxSecretService
  | some (.secretSpec address) => r.scope = .linuxSecretService ∨ ∀ named ∈ address.project, named = project

instance (r : GrantRequirement) (project : String) : Decidable (r.InProject project) := by
  unfold InProject
  split <;> infer_instance

/-- The project targets of a requirement in a namespace. -/
def projectTargets (r : GrantRequirement) (partition : Bytes) : List GrantTarget :=
  match r.project with
  | none => []
  | some project =>
    if r.InProject project then
      (r.address.map fun address => GrantTarget.projectEntry r.scope partition address project r.baseDir).toList ++
        [.project r.scope partition project r.baseDir]
    else []

/-- The targets a requirement is looked up under, in this order (grant.rs:694-738). -/
def targets (r : GrantRequirement) : List GrantTarget :=
  (match r.partition with
  | none => []
  | some partition =>
    (r.address.map fun address => GrantTarget.entry r.scope partition address).toList ++ r.projectTargets partition ++
      [.wholeNamespace r.scope partition]) ++
    [.kind r.scope]

end GrantRequirement

inductive FoundGrant where
  | reusable (expiresAt : Option UInt64)
  | singleUse (targetDigest : Digest) (expiresAt : Option UInt64)
  | none
deriving DecidableEq

/-- `grant_satisfies`. -/
def AccessGrant.satisfies (grant : AccessGrant) (fingerprint target : Digest) (permission : GrantPermission)
    (now : UInt64) : Bool :=
  grant.version = grantVersion ∧ grant.callerFingerprint = fingerprint ∧ grant.targetDigest = target ∧
    isLive now grant.expiresAt ∧ permission ∈ grant.permissions

/-- The first single-use grant met is kept. -/
def FoundGrant.orSingleUse (found : FoundGrant) (target : Digest) (expiresAt : Option UInt64) : FoundGrant :=
  match found with
  | .none => .singleUse target expiresAt
  | found => found

section

variable (env : GrantEnv)

/-- The loop of `find_grant` (grant.rs:746-768); `found` is the single-use grant met so far. -/
def scan (fingerprint : Digest) (permission : GrantPermission) (now : UInt64) :
    FoundGrant → List (Digest × Option Bytes) → VaultResult FoundGrant
  | found, [] => .ok found
  | found, (_, none) :: rest => scan fingerprint permission now found rest
  | found, (target, some bytes) :: rest => do
    let grant ← fromSlice env.grantJson bytes
    if grant.satisfies fingerprint target permission now then
      if grant.singleUse then scan fingerprint permission now (found.orSingleUse target grant.expiresAt) rest
      else return .reusable grant.expiresAt
    else scan fingerprint permission now found rest

/-- The addresses of one caller's grants of one permission on several targets. -/
def grantAddresses (fingerprint : Digest) (permission : GrantPermission) (targets : List Digest) :
    VaultResult (List SecretAddress) :=
  targets.mapM fun target => grantAddress fingerprint target permission

def findGrant (caller : CallerIdentity) (requirement : GrantRequirement) (now : UInt64) : StoreProgram FoundGrant := do
  let fingerprint := caller.fingerprint env.sha256
  let targets := requirement.targets.map fun target => target.digest env.sha256
  let addresses ← grantAddresses fingerprint requirement.permission targets
  let records ← getMany .authorization grantDocumentNamespace addresses now
  scan env fingerprint requirement.permission now .none (targets.zip records)

def requireGrantUntil (caller : CallerIdentity) (requirement : GrantRequirement) (now : UInt64) :
    StoreProgram (Option UInt64) := do
  match ← findGrant env caller requirement now with
  | .reusable expiresAt => return expiresAt
  | .singleUse _ _ | .none => (.error .authorizationRequired : VaultResult (Option UInt64))

/-! ## The registry -/

/-- `is_expired`. -/
def Permission.isExpired (permission : Permission) (now : UInt64) : Bool :=
  match permission.state with
  | .granted _ (some deadline) _ => deadline ≤ now
  | _ => false

/-- `permission_registry_address`. -/
def permissionRegistryAddress : VaultResult SecretAddress := SecretAddress.newLocal "permissions" none

def loadPermissionRegistry (now : UInt64) : StoreProgram PermissionRegistry := do
  let address ← permissionRegistryAddress
  match ← getAt .authorization grantDocumentNamespace address now with
  | none => return ⟨permissionRegistryVersion, []⟩
  | some bytes => do
    let registry ← fromSlice env.registryJson bytes
    ensure (registry.version = permissionRegistryVersion) (VaultError.invalidData "unsupported permission registry version")
    return registry

/-- `write_registry`: the registry together with `operations` as one generation. -/
def writeRegistry (registry : PermissionRegistry) (operations : List DocumentOperation) (provenance : Provenance)
    (now : UInt64) : StoreProgram Unit := do
  let address ← permissionRegistryAddress
  mutate .authorization grantDocumentNamespace
    (operations ++ [.put address (env.registryJson.encode registry) none]) provenance now

/-- The registry without the entries that are dropped or expired. -/
def PermissionRegistry.retain (registry : PermissionRegistry) (keep : StoredPermission → Bool) (now : UInt64) :
    PermissionRegistry :=
  ⟨registry.version, registry.permissions.filter fun stored => keep stored && !stored.permission.isExpired now⟩

def consumeGrant (fingerprint target : Digest) (permission : GrantPermission) (now : UInt64) (provenance : Provenance) :
    StoreProgram Unit := do
  let registry ← loadPermissionRegistry env now
  let registry := registry.retain (fun stored => !(stored.callerFingerprint = fingerprint &&
    stored.targetDigest = target && stored.grantPermission = permission)) now
  let address ← grantAddress fingerprint target permission
  writeRegistry env registry [.delete address] provenance now

def requireGrantConsuming (caller : CallerIdentity) (requirement : GrantRequirement) (now : UInt64)
    (provenance : Provenance) : StoreProgram (Option UInt64) := do
  match ← findGrant env caller requirement now with
  | .reusable expiresAt => return expiresAt
  | .singleUse target expiresAt => do
    consumeGrant env (caller.fingerprint env.sha256) target requirement.permission now provenance
    return expiresAt
  | .none => (.error .authorizationRequired : VaultResult (Option UInt64))

/-- The grant one permission is promoted to or prepared as. -/
def newGrant (fingerprint target : Digest) (permission : GrantPermission) (expiresAt : Option UInt64)
    (singleUse : Bool) : AccessGrant :=
  ⟨grantVersion, fingerprint, target, {permission}, expiresAt, singleUse⟩

def promotePermission (caller : CallerIdentity) (target : GrantTarget) (grantPermission : GrantPermission)
    (permission : Permission) (now : UInt64) (provenance : Provenance) : StoreProgram Unit := do
  caller.validate
  match permission.state with
  | .pending _ _ _ _ _ => (.error (.protocol "promoted permission must be granted") : VaultResult Unit)
  | .granted _ expiresAt singleUse => do
    ensure (isLive now expiresAt) VaultError.expired
    let fingerprint := caller.fingerprint env.sha256
    let digest := target.digest env.sha256
    let address ← grantAddress fingerprint digest grantPermission
    let grant := newGrant fingerprint digest grantPermission expiresAt singleUse
    let permission := { permission with scope := some target.scope, target := some target.summary }
    let registry ← loadPermissionRegistry env now
    let registry := registry.retain (fun stored => stored.permission.id ≠ permission.id) now
    let entry := StoredPermission.mk permission fingerprint digest grantPermission
    writeRegistry env { registry with permissions := registry.permissions ++ [entry] } [.put address (env.grantJson.encode grant) expiresAt]
      provenance now

def revokePermission (id : String) (now : UInt64) (provenance : Provenance) : StoreProgram Unit := do
  let registry ← loadPermissionRegistry env now
  let removed ← ofOption (VaultError.protocol "permission is missing or expired")
    (registry.permissions.find? fun stored => stored.permission.id = id)
  let registry := { registry with permissions := registry.permissions.eraseP fun stored => stored.permission.id = id }
  let registry := registry.retain (fun _ => true) now
  let address ← grantAddress removed.callerFingerprint removed.targetDigest removed.grantPermission
  writeRegistry env registry [.delete address] provenance now

/-- `legacy_permission_scope`. -/
def legacyPermissionScope (application : VaultApplicationContext) (target : Digest) : Option DocumentKind :=
  match application.project with
  | none => none
  | some project => [DocumentKind.linuxSecretService, .secretSpecProviderCache].find? fun scope =>
    (GrantTarget.project scope (utf8 project) project application.baseDir).digest env.sha256 = target

/-- `recover_permission_target`. -/
def recoverPermissionTarget (permission : Permission) (digest : Digest) : Permission :=
  match permission.target, permission.scope, permission.application.project with
  | none, some scope, some project =>
    let target := GrantTarget.project scope (utf8 project) project permission.application.baseDir
    if target.digest env.sha256 = digest then { permission with target := some target.summary } else permission
  | _, _, _ => permission

/-- One entry of `list_granted_permissions`. -/
def listedPermission (now : UInt64) (stored : StoredPermission) : Option Permission :=
  match stored.permission.state with
  | .granted _ expiresAt _ =>
    if isLive now expiresAt then
      let scope := stored.permission.scope.orElse fun _ =>
        legacyPermissionScope env stored.permission.application stored.targetDigest
      some (recoverPermissionTarget env { stored.permission with scope } stored.targetDigest)
    else none
  | .pending _ _ _ _ _ => none

def listGrantedPermissions (now : UInt64) : StoreProgram (List Permission) := do
  let registry ← loadPermissionRegistry env now
  return registry.permissions.filterMap (listedPermission env now)

/-! ## Grants of the trusted host -/

structure PreparedGrant where
  address : SecretAddress
  value : Bytes
  expiresAt : Option UInt64
deriving DecidableEq, Repr

/-- A set of permissions in its order. -/
def sortedPermissions (permissions : Finset GrantPermission) : List GrantPermission :=
  GrantPermission.all.filter (· ∈ permissions)

def prepareGrant (caller : CallerIdentity) (target : GrantTarget) (permissions : List GrantPermission)
    (expiresAt : Option UInt64) (now : UInt64) : VaultResult (List PreparedGrant) := do
  caller.validate
  ensure (isLive now expiresAt) .expired
  let fingerprint := caller.fingerprint env.sha256
  let digest := target.digest env.sha256
  ensure (permissions ≠ []) (.protocol "grant must contain a permission")
  (sortedPermissions permissions.toFinset).mapM fun permission => do
    let address ← grantAddress fingerprint digest permission
    return ⟨address, env.grantJson.encode (newGrant fingerprint digest permission expiresAt false), expiresAt⟩

/-- Of several grants at one address the last. -/
def lastOfEach : List PreparedGrant → List PreparedGrant
  | [] => []
  | grant :: rest => if rest.any (·.address = grant.address) then lastOfEach rest else grant :: lastOfEach rest

/-- The write of a grant that is not stored already. -/
def changedGrant (grant : PreparedGrant) (existing : Option Bytes) : Option DocumentOperation :=
  if existing = some grant.value then none else some (.put grant.address grant.value grant.expiresAt)

def storePreparedGrants (grants : List PreparedGrant) (now : UInt64) : StoreProgram Unit := do
  let grants := lastOfEach grants
  if grants = [] then return ()
  else
    let existing ← getMany .authorization grantDocumentNamespace (grants.map PreparedGrant.address) now
    let operations := (grants.zip existing).filterMap fun p => changedGrant p.1 p.2
    if operations = [] then return ()
    else mutate .authorization grantDocumentNamespace operations (.service .grantStorage) now

/-- `exclusive_holder_address`. -/
def exclusiveHolderAddress (target : Digest) : VaultResult SecretAddress :=
  SecretAddress.newLocal ("holder/" ++ digestName target) none

/-- The holder so far, if its record is of the present version. -/
def previousHolder (record : Option Bytes) : VaultResult (Option ExclusiveHolder) :=
  match record with
  | none => .ok none
  | some bytes => do
    let holder ← fromSlice env.holderJson bytes
    return if holder.version = exclusiveHolderVersion then some holder else none

/-- The record is an unexpiring grant of this permission. -/
def holdsForever (fingerprint target : Digest) (permission : GrantPermission) (now : UInt64) (record : Option Bytes) :
    Bool :=
  match record with
  | none => false
  | some bytes =>
    match env.grantJson.decode bytes with
    | .ok grant => grant.expiresAt = none && grant.satisfies fingerprint target permission now
    | .error _ => false

/-- The deletions of `store_exclusive_grant`: what the previous holder had and the new one does not get. -/
def supersededGrants (fingerprint target : Digest) (permissions : Finset GrantPermission) :
    Option ExclusiveHolder → VaultResult (List DocumentOperation)
  | none => .ok []
  | some previous =>
    ((sortedPermissions previous.permissions).filter fun permission =>
      previous.callerFingerprint ≠ fingerprint ∨ permission ∉ permissions).mapM fun permission => do
        return .delete (← grantAddress previous.callerFingerprint target permission)

/-- The writes of `store_exclusive_grant`: an unexpiring grant of every permission. -/
def exclusiveGrants (fingerprint target : Digest) (permissions : List GrantPermission) :
    VaultResult (List DocumentOperation) :=
  permissions.mapM fun permission => do
    return .put (← grantAddress fingerprint target permission)
      (env.grantJson.encode (newGrant fingerprint target permission none false)) none

/-- The addresses of one caller's grants on one target. -/
def heldAddresses (fingerprint target : Digest) (permissions : List GrantPermission) : VaultResult (List SecretAddress) :=
  permissions.mapM fun permission => grantAddress fingerprint target permission

def storeExclusiveGrant (caller : CallerIdentity) (target : GrantTarget) (permissions : List GrantPermission)
    (now : UInt64) : StoreProgram Unit := do
  caller.validate
  let fingerprint := caller.fingerprint env.sha256
  let digest := target.digest env.sha256
  let held := permissions.toFinset
  ensure (permissions ≠ []) (VaultError.protocol "grant must contain a permission")
  let holderAddress ← exclusiveHolderAddress digest
  let addresses ← heldAddresses fingerprint digest (sortedPermissions held)
  let records ← getMany .authorization grantDocumentNamespace (holderAddress :: addresses) now
  let previous ← previousHolder env (records.head?.join)
  let alreadyHeld := previous.any (fun holder => holder.callerFingerprint = fingerprint && holder.permissions = held) &&
    ((sortedPermissions held).zip records.tail).all fun p => holdsForever env fingerprint digest p.1 now p.2
  if alreadyHeld then return ()
  else
    let superseded ← supersededGrants fingerprint digest held previous
    let granted ← exclusiveGrants env fingerprint digest (sortedPermissions held)
    let holder := DocumentOperation.put holderAddress
      (env.holderJson.encode ⟨exclusiveHolderVersion, fingerprint, held⟩) none
    mutate .authorization grantDocumentNamespace (superseded ++ granted ++ [holder]) (.service .grantStorage)
      now

end

end FactorSeal

import FactorSeal.Service.Live

/-! # Requests (protocol/service.rs, protocol/service/authorization.rs)

`handleInner` is the dispatcher: a request is checked, let in, and then either handled here under the grant of the
permission manager or given to `executeAction`. A cache request that finds no grant leaves an approval for the user. The
service as a whole (`Service.step`) takes requests, grants of its trusted host, sweeps, seals and starts; any of them can
be cut off after some commands of the store, which ends the process. -/

namespace FactorSeal

open Wire Except VaultStore

/-! ## Helpers -/

/-- What a request meets: the readings of the handler and of the action, the random bytes of an approval it may create,
and the application behind a D-Bus name (`keyring_peer`). -/
structure RequestContext where
  clock : Clock
  actionClock : Clock
  fresh : Vector UInt8 16 × Digest
  peer : String → VaultResult (CallerIdentity × String)

/-- `bounded` (history.rs:431-440): whole characters up to so many bytes. -/
def boundedChars : Nat → List Char → List Char
  | _, [] => []
  | n, c :: rest => if c.utf8Size ≤ n then c :: boundedChars (n - c.utf8Size) rest else []

def bounded (value : String) : String := String.ofList (boundedChars 512 value.toList)

/-- `Provenance::caller`. -/
def callerProvenance (env : ServiceEnv) (caller : CallerIdentity) (application : Option VaultApplicationContext) :
    Provenance :=
  .caller (env.principal caller) (application.map fun context =>
    ⟨context.project.map bounded, context.profile.map bounded, context.baseDir.map bounded, context.reason.map bounded⟩)

/-- What lets the keyring host speak for other applications (service.rs:427-441). -/
def brokerRequirement : GrantRequirement := ⟨.linuxSecretService, some secretServiceNamespace, none, none, none, .get⟩

/-- The loop of `permission_page`. -/
def fillPage (size : Permission → Nat) : Nat → List Permission → List Permission →
    VaultResult (List Permission × Option String)
  | _, page, [] => .ok (page, none)
  | remaining, page, permission :: rest =>
    if remaining < size permission + 1 then
      if page = [] then .error (.protocol "permission exceeds page budget")
      else .ok (page, page.getLast?.map Permission.id)
    else fillPage size (remaining - (size permission + 1)) (page ++ [permission]) rest

/-- `permission_page`. -/
def permissionPage (env : ServiceEnv) (revision : UInt64) (permissions : List Permission) (cursor : Option String) :
    VaultResult VaultResponseBody := do
  let (page, nextCursor) ← fillPage env.permissionSize (maxMessageBytes - 4096) []
    (permissions.filter fun permission => cursor.all (· < permission.id))
  return .permissions revision page nextCursor

/-- `IndexItem::address`. -/
def IndexItem.address (item : IndexItem) : VaultResult SecretAddress := SecretAddress.newLocal ("item/" ++ item.id) none

/-- `PortableItem::decode`. -/
def decodePortable (env : ServiceEnv) (bytes : Bytes) (address : SecretAddress) : VaultResult (IndexItem × Bytes) := do
  let (version, item, value) ← match env.portableJson.decode bytes with
    | .ok portable => .ok portable
    | .error message => .error (.invalidData message)
  item.validate
  let itemAddress ← item.address
  ensure (version = 1 ∧ itemAddress = address) (.invalidData "invalid portable Secret Service item")
  return (item, value)

/-- `secret_service_index`. -/
def secretServiceIndex (env : ServiceEnv) (now : UInt64) : StoreProgram Index := do
  let address ← SecretAddress.newLocal indexItem none
  let bytes ← getAt .linuxSecretService secretServiceNamespace address now
  Index.decode env.indexJson bytes

/-- The index with an item in the place of the one of its id, or at the end. -/
def Index.replace (index : Index) (item : IndexItem) : Index :=
  if index.items.any (·.id = item.id) then
    ⟨index.version, index.items.map fun other => if other.id = item.id then item else other⟩
  else ⟨index.version, index.items ++ [item]⟩

/-- The item of a local address without a field. -/
def SecretAddress.item : SecretAddress → VaultResult String
  | .local item _ => .ok item
  | .secretSpec _ => .error (.protocol "invalid keyring address")

/-- `import_secret_service_item`; the index has to stay writable by a request of the adapter. -/
def importSecretServiceItem (env : ServiceEnv) (entry : VaultEntryMetadata) (value : Bytes) (evictAt : Option UInt64)
    (replaceExisting : Bool) (requestId : RequestId) (provenance : Provenance) (now : UInt64) :
    StoreProgram VaultEntryImportStatus := do
  ensure (entry.partition = secretServiceNamespace ∧ evictAt = none)
    (VaultError.protocol "unsupported portable keyring partition or expiry")
  let (item, value) ← decodePortable env value entry.address
  let index ← secretServiceIndex env now
  let existing := index.items.any (·.id = item.id)
  if existing && !replaceExisting then return .keptExisting
  else
    let indexBytes := env.indexJson.encode (index.replace item)
    let name ← entry.address.item
    VaultRequest.validate env.requestSize ⟨protocolVersion, requestId, none, .mutate secretServiceNamespace
      [.put ⟨name, none⟩ value none, .put ⟨indexItem, none⟩ indexBytes none]⟩
    let indexAddress ← SecretAddress.newLocal indexItem none
    mutate .linuxSecretService secretServiceNamespace
      [.put entry.address value none, .put indexAddress indexBytes none] provenance now
    return if existing then .replaced else .added

/-- The entry and value of an import into the personal vault (service.rs:318-342): it is filed under its own id. -/
def personalImport (env : ServiceEnv) (entry : VaultEntryMetadata) (value : Bytes) (evictAt : Option UInt64) :
    VaultResult (SecretAddress × Bytes) :=
  if entry.documentKind = .localKeyring ∧ entry.partition = personalSecretNamespace then
    match entry.address with
    | .secretSpec _ => .error (.protocol "invalid personal address")
    | .local title field => do
      ensure (field = none ∧ evictAt = none) (.protocol "personal items cannot have fields or expiry")
      let item ← ofOption (.protocol "invalid personal item") (env.decodeItem title value)
      let address ← SecretAddress.newLocal item.id none
      let bytes ← ofOption (.protocol "invalid personal item") (env.itemJson.encode item)
      return (address, bytes)
  else .ok (entry.address, value)

/-- The write of `ImportVaultEntry` outside the Secret Service (service.rs:343-372). -/
def importEntry (env : ServiceEnv) (entry : VaultEntryMetadata) (value : Bytes) (evictAt : Option UInt64)
    (replaceExisting : Bool) (provenance : Provenance) (now : UInt64) : StoreProgram VaultEntryImportStatus := do
  let (address, value) ← personalImport env entry value evictAt
  let existing ← getAt entry.documentKind entry.partition address now
  if existing.isSome && !replaceExisting then return .keptExisting
  else
    putAt entry.documentKind entry.partition address value evictAt provenance now
    return if existing.isSome then .replaced else .added

/-- The value of an exported entry (service.rs:272-296). -/
def exportedValue (env : ServiceEnv) (entry : VaultEntryMetadata) (value : Bytes) (now : UInt64) : StoreProgram Bytes := do
  if entry.documentKind = .linuxSecretService then
    let index ← secretServiceIndex env now
    let item ← ofOption (VaultError.invalidData "keyring value has no index entry")
      (index.items.find? fun item => item.address.toOption = some entry.address)
    return env.portableJson.encode (1, item, value)
  else return value

/-! ## The dispatcher -/

namespace VaultService

open ServiceM

variable (env : ServiceEnv) (device : Device) (caller : CallerIdentity) (context : RequestContext)

/-- `require_live_manager`, from the `i`-th reading on. -/
def requireLiveManager (i : Nat) (validUntil : Option UInt64) : StoreProgram (Option UInt64) := do
  let deadline ← requireGrantUntil env.toGrantEnv caller managerRequirement (context.clock i).1
  checkClock (context.clock (i + 1)).1 (tighten validUntil deadline)
  return tighten validUntil deadline

/-- The check of the deadline and the touch of the lease that end most requests. -/
def refreshLease (i : Nat) (validUntil : Option UInt64) : ServiceM Unit := do
  checkClock (context.clock i).1 validUntil
  touch (context.clock (i + 1))

/-- `inventory`. -/
def inventory (cursor : Option String) (limit : UInt16) : ServiceM (VaultResponseBody × Option UInt64) := do
  let validUntil ← requireLiveManager env caller context 2 none
  let page ← listVaultEntries cursor limit (context.clock 4).1
  refreshLease context 5 validUntil
  return (.vaultEntries page, validUntil)

/-- `ExportVaultEntry`. -/
def exportVaultEntry (entry : VaultEntryMetadata) : ServiceM (VaultResponseBody × Option UInt64) := do
  let validUntil ← requireLiveManager env caller context 2 none
  let secret ← getWithDeadline entry.documentKind entry.partition entry.address (context.clock 1).1
  let secret ← ofOption (VaultError.invalidData "vault entry disappeared during export") secret
  let validUntil := tighten validUntil secret.expiresAt
  refreshLease context 4 validUntil
  let value ← exportedValue env entry secret.value (context.clock 5).1
  return (.vaultEntrySecret value secret.expiresAt, validUntil)

/-- `ImportVaultEntry`. -/
def importVaultEntry (entry : VaultEntryMetadata) (value : Bytes) (evictAt : Option UInt64) (replaceExisting : Bool)
    (provenance : Provenance) : ServiceM (VaultResponseBody × Option UInt64) := do
  let now := (context.clock 1).1
  let validUntil ← requireLiveManager env caller context 2 none
  validateEvictAt evictAt now
  let status ← if entry.documentKind = .linuxSecretService then
      importSecretServiceItem env entry value evictAt replaceExisting context.fresh.1 provenance now
    else importEntry env entry value evictAt replaceExisting provenance now
  refreshLease context 4 validUntil
  return (.vaultEntryImported status, validUntil)

/-- `WriteCacheFromDialog`. -/
def writeCacheFromDialog (project : String) (address : SecretSpecAddress) (value : Bytes) (evictAt : Option UInt64)
    (provenance : Provenance) : ServiceM (VaultResponseBody × Option UInt64) := do
  let now := (context.clock 1).1
  let validUntil ← requireLiveManager env caller context 2 none
  validateEvictAt evictAt now
  ensure (∀ declared ∈ address.project, declared = project) (VaultError.protocol "secret project mismatch")
  let address ← SecretAddress.newSecretSpec address
  putAt .secretSpecProviderCache (utf8 project) address value evictAt provenance now
  refreshLease context 4 validUntil
  return (.stored, validUntil)

/-- `AuthorizeSecretInput`. -/
def authorizeSecretInput (sender : String) : ServiceM (VaultResponseBody × Option UInt64) := do
  let deadline ← requireGrantUntil env.toGrantEnv caller brokerRequirement (context.clock 1).1
  let (peer, _) ← context.peer sender
  let validUntil ← requireLiveManager env peer context 2 (tighten none deadline)
  return (.permissionWait .granted, validUntil)

/-- A request that found no grant: an approval to wait for. -/
def askForApproval (candidate : ApprovalCandidate) : ServiceM (VaultResponseBody × Option UInt64) := do
  let interaction ← createApproval env candidate context.fresh (context.clock 1).1 (context.clock 6).2
  fail ⟨.authorizationRequired, some interaction⟩

/-- The action a keyring request carries, done under the grants of the host for the application behind it. -/
def bridgedAction (peer : CallerIdentity) (validUntil : Option UInt64) :
    Option VaultAction → ServiceM (VaultResponseBody × Option UInt64)
  | none => return (.permissionWait .granted, validUntil)
  | some action => do
    let live ← getLive
    let (body, validUntil) ← executeAction env device caller action
      (live.lease.idleDeadline, live.lease.absoluteDeadline) (callerProvenance env peer none) none context.actionClock
      validUntil
    checkClock (context.clock 4).1 validUntil
    if action.refreshesLease then
      touch (context.clock 5)
    return (body, validUntil)

/-- `KeyringAccess` (service.rs:416-492). -/
def keyringAccess (entry : Option SecretAddress) (sender service : String) (operation : PermissionOperation)
    (action : Option VaultAction) (pending : Option String) : ServiceM (VaultResponseBody × Option UInt64) := do
  let now := (context.clock 1).1
  let brokerDeadline ← requireGrantUntil env.toGrantEnv caller brokerRequirement now
  let validUntil := tighten none brokerDeadline
  checkClock (context.clock 2).1 validUntil
  let (peer, baseDir) ← context.peer sender
  match pending with
  | some id => do
    let status ← waitForPermission env peer id (context.clock 3) ((context.clock 3).2 + 1000000)
    return (.permissionWait status, validUntil)
  | none => do
    let candidate := ApprovalCandidate.forKeyring peer service entry baseDir operation
    match ← store (requireGrantUntil env.toGrantEnv peer candidate.requirement now).attempt with
    | .ok deadline => do
      checkClock (context.clock 3).1 (tighten validUntil deadline)
      bridgedAction env device caller context peer (tighten validUntil deadline) action
    | .error .authorizationRequired => askForApproval env context candidate
    | .error refusal => fail (failure refusal)

/-- `ListPermissions`, and `ListPermissionsPage` with its revision and cursor. -/
def permissionsPage (page : Option (UInt64 × String)) : ServiceM (VaultResponseBody × Option UInt64) := do
  let validUntil ← requireLiveManager env caller context 2 none
  let (revision, permissions) ← listPermissions env (context.clock 1).1 (context.clock 4).2
  ensure (∀ p ∈ page, p.1 = revision) VaultError.conflict
  let body ← permissionPage env revision permissions (page.map Prod.snd)
  return (body, validUntil)

/-- The pass of `wait_for_approvals` that returns. -/
def waitForApprovals : ServiceM (VaultResponseBody × Option UInt64) := do
  let validUntil ← requireLiveManager env caller context 2 none
  lockLive (context.clock 4).2
  let _ ← requireGrantUntil env.toGrantEnv caller managerRequirement (context.clock 4).1
  let (revision, permissions) ← listPermissions env (context.clock 5).1 (context.clock 5).2
  let body ← permissionPage env revision permissions none
  return (body, validUntil)

/-- `ApprovePermission`. -/
def approvePermission (id : String) (signature : Bytes) (lifetime : ApprovedLifetime) (provenance : Provenance) :
    ServiceM (VaultResponseBody × Option UInt64) := do
  let validUntil ← requireLiveManager env caller context 2 none
  approvePending env id signature lifetime (context.clock 4).1 provenance
  touch (context.clock 5)
  return (.permissionChanged .granted, validUntil)

/-- `DenyPermission`. -/
def denyPermission (id : String) : ServiceM (VaultResponseBody × Option UInt64) := do
  let validUntil ← requireLiveManager env caller context 2 none
  denyApproval env id (context.clock 4).1
  return (.permissionChanged .denied, validUntil)

/-- `RevokePermission`. -/
def revokeAction (id : String) (provenance : Provenance) : ServiceM (VaultResponseBody × Option UInt64) := do
  let validUntil ← requireLiveManager env caller context 2 none
  revokeListed env id (context.clock 4).1 provenance
  touch (context.clock 5)
  return (.permissionChanged .revoked, validUntil)

/-- The last branch of the dispatcher and what follows it (service.rs:551-587). -/
def executeOrAsk (action : VaultAction) (application : Option VaultApplicationContext) (provenance : Provenance) :
    ServiceM (VaultResponseBody × Option UInt64) := do
  let live ← getLive
  let result ← store (executeAction env device caller action (live.lease.idleDeadline, live.lease.absoluteDeadline)
    provenance (application.bind VaultApplicationContext.baseDir) context.actionClock none).attempt
  match result with
  | .ok (body, validUntil) => do
    if action.refreshesLease then
      refreshLease context 4 validUntil
    return (body, validUntil)
  | .error .authorizationRequired =>
    match ApprovalCandidate.forRequest caller application action with
    | some candidate => askForApproval env context candidate
    | none => fail (failure .authorizationRequired)
  | .error refusal => fail (failure refusal)

/-- The actions of `handle_inner`. -/
def dispatch (action : VaultAction) (application : Option VaultApplicationContext) :
    ServiceM (VaultResponseBody × Option UInt64) :=
  let provenance := callerProvenance env caller application
  match action with
  | .listVaultEntries cursor limit => inventory env caller context cursor limit
  | .exportVaultEntry entry => exportVaultEntry env caller context entry
  | .importVaultEntry entry value evictAt replaceExisting =>
    importVaultEntry env caller context entry value evictAt replaceExisting provenance
  | .writeCacheFromDialog project address value evictAt =>
    writeCacheFromDialog env caller context project address value evictAt provenance
  | .authorizeSecretInput sender => authorizeSecretInput env caller context sender
  | .keyringAccess entry sender service operation action pending =>
    keyringAccess env device caller context entry sender service operation action pending
  | .listPermissions => permissionsPage env caller context none
  | .listPermissionsPage revision cursor => permissionsPage env caller context (some (revision, cursor))
  | .waitPermissions _ _ => waitForApprovals env caller context
  | .waitPermission id timeoutMs => do
    let status ← waitForPermission env caller id (context.clock 3) ((context.clock 2).2 + timeoutMs.toNat * 1000000)
    return (.permissionWait status, none)
  | .denyPermission id => denyPermission env caller context id
  | .approvePermission id signature durationSeconds singleUse =>
    approvePermission env caller context id signature ⟨durationSeconds, singleUse⟩ provenance
  | .revokePermission id => revokeAction env caller context id provenance
  | action => executeOrAsk env device caller context action application provenance

/-- `handle_inner`. -/
def handleInner (request : VaultRequest) : ServiceM (VaultResponseBody × Option UInt64) := do
  caller.validate
  request.validate env.requestSize
  lockLive (context.clock 0).2
  consumeRequest request.requestId
  dispatch env device caller context request.action request.application

/-! ## The answer -/

/-- The code of `response_error_with_interaction`. -/
def responseCode : VaultError → VaultResponseErrorCode
  | .authorizationRequired | .approvalLimited => .authorizationRequired
  | .replay => .replay
  | .sealed | .workerUnavailable | .agentUnreachable _ => .sealed
  | .conflict => .conflict
  | .emptyAddress _ | .addressTooLong _ _ | .expired | .protocol _ => .invalidRequest
  | _ => .internal

def responseMessage (error : VaultError) : String :=
  match responseCode error with
  | .invalidRequest => "the request is invalid"
  | .authorizationRequired =>
    if error = .approvalLimited then "approval request limit reached; retry later"
    else "application authorization is required"
  | .replay => "the request was already consumed"
  | .sealed => "the vault is sealed"
  | .conflict => "the secret has unresolved concurrent values"
  | .internal => "the vault could not complete the request"

def responseError (failure : RequestFailure) : VaultResponseError :=
  ⟨responseCode failure.error, responseMessage failure.error, failure.interaction⟩

/-- `handle_at`: a body is only sent while the vault is live and the grants it rests on run. -/
def handle (request : VaultRequest) (live : LiveState) :
    StoreProgram (Except VaultResponseError VaultResponseBody × LiveState) := do
  let (result, live) ← handleInner env device caller context request live
  match result with
  | .ok (.sealed, _) => return (.ok .sealed, { live with isSealed := true })
  | .ok (body, validUntil) =>
    if live.isSealed ∨ live.lease.isExpired (context.clock 7).2 = true then
      return (.error (responseError (failure .sealed)), { live with isSealed := true })
    else if isLive (context.clock 8).1 validUntil then return (.ok body, live)
    else return (.error (responseError (failure .expired)), live)
  | .error refusal =>
    if live.isSealed ∨ live.lease.isExpired (context.clock 7).2 = true then
      return (.error (responseError (failure .sealed)), { live with isSealed := true })
    else return (.error (responseError refusal), live)

end VaultService

/-! ## The trusted host (protocol/service/authorization.rs) -/

inductive GrantAuthorizationTarget where
  | kind (kind : DocumentKind)
  | wholeNamespace (scope : DocumentKind) (partition : Bytes)
  | entry (scope : DocumentKind) (partition : Bytes) (address : WireSecretAddress)
  | permissionManagement
deriving DecidableEq, Repr

structure GrantAuthorization where
  caller : CallerIdentity
  target : GrantAuthorizationTarget
  permissions : List GrantPermission
  expiresAt : Option UInt64
deriving DecidableEq, Repr

def GrantAuthorizationTarget.resolve : GrantAuthorizationTarget → VaultResult GrantTarget
  | .kind k => .ok (.kind k)
  | .wholeNamespace scope partition => .ok (.wholeNamespace scope partition)
  | .permissionManagement => .ok (.wholeNamespace .authorization permissionControlNamespace)
  | .entry scope partition address => do
    let address ← address.resolve
    return .entry scope partition address

/-- `prepare_authorization`. -/
def prepareAuthorization (env : ServiceEnv) (grant : GrantAuthorization) (now : UInt64) :
    VaultResult (List PreparedGrant) := do
  let target ← grant.target.resolve
  prepareGrant env.toGrantEnv grant.caller target grant.permissions grant.expiresAt now

/-- All grants of a batch, before any is stored. -/
def prepareAuthorizations (env : ServiceEnv) (grants : List GrantAuthorization) (now : UInt64) :
    VaultResult (List PreparedGrant) := do
  let prepared ← grants.mapM fun grant => prepareAuthorization env grant now
  return prepared.flatten

/-- `authorize_batch`; the other `authorize_` functions are batches of one. -/
def VaultService.authorizeBatch (env : ServiceEnv) (grants : List GrantAuthorization) (now : UInt64) (before after : Instant) :
    ServiceM Unit := do
  lockLive before
  let prepared ← prepareAuthorizations env grants now
  storePreparedGrants prepared now
  touch (now, after)

/-- `authorize_exclusive`. -/
def VaultService.authorizeExclusive (env : ServiceEnv) (caller : CallerIdentity) (target : GrantTarget)
    (permissions : List GrantPermission) (now : UInt64) (before after : Instant) : ServiceM Unit := do
  lockLive before
  storeExclusiveGrant env.toGrantEnv caller target permissions now
  touch (now, after)

/-- `expire_if_needed`: at most one sweep in a second. -/
def VaultService.expireIfNeeded (sample : UInt64 × Instant) : ServiceM Unit := do
  lockLive sample.2
  let live ← ServiceM.getLive
  if live.lastPurgeAt ≠ sample.1 then
    let _ ← purgeExpiredAt sample.1
    ServiceM.update fun live => (.ok (), { live with lastPurgeAt := sample.1 })

/-- `VaultService::open`: the store sweeps, then the approvals are read back. -/
def VaultService.openService (env : ServiceEnv) (now : UInt64) (monotonicNow : Instant) (policy : UnsealLeasePolicy) :
    StoreProgram LiveState := do
  let _ ← purgeExpiredAt now
  let lease ← UnsealLease.new now monotonicNow policy
  let approvals ← PendingApprovals.load env now
  return ⟨lease, ⟨[]⟩, approvals, [], now, false⟩

/-! ## Runs -/

/-- What happens to the service. `recheck` is a pass of a request that waits on, for one permission or for any. -/
inductive Event where
  | request (caller : CallerIdentity) (request : VaultRequest) (context : RequestContext)
  | authorizeBatch (grants : List GrantAuthorization) (now : UInt64) (before after : Instant)
  | authorizeExclusive (caller : CallerIdentity) (target : GrantTarget) (permissions : List GrantPermission)
    (now : UInt64) (before after : Instant)
  | recheck (caller : CallerIdentity) (id : Option String) (sample : UInt64 × Instant)
  | expireIfNeeded (sample : UInt64 × Instant)
  | sealNow
  | start (now : UInt64) (monotonicNow : Instant) (policy : UnsealLeasePolicy)

/-- One pass of a waiting request. -/
def VaultService.recheck (env : ServiceEnv) (caller : CallerIdentity) (id : Option String) (sample : UInt64 × Instant) :
    ServiceM Unit := do
  lockLive sample.2
  match id with
  | some id => do
    let _ ← permissionStatus env caller id sample.1
  | none => do
    let _ ← requireGrantUntil env.toGrantEnv caller managerRequirement sample.1
    let _ ← listPermissions env sample.1 sample.2

/-- The live state a piece of service code leaves. -/
def ServiceM.left {α : Type} (x : ServiceM α) (live : LiveState) : StoreProgram (Option LiveState) := do
  return some (← x live).2

/-- The program of an event; nothing but a start happens while the service is down. -/
def Event.program (env : ServiceEnv) (device : Device) : Event → Option LiveState → StoreProgram (Option LiveState)
  | .start now monotonicNow policy, _ => do return some (← VaultService.openService env now monotonicNow policy)
  | _, none => return none
  | .request caller asked context, some live => do
    return some (← VaultService.handle env device caller context asked live).2
  | .authorizeBatch grants now before after, some live => (VaultService.authorizeBatch env grants now before after).left live
  | .authorizeExclusive caller target permissions now before after, some live =>
    (VaultService.authorizeExclusive env caller target permissions now before after).left live
  | .recheck caller id sample, some live => (VaultService.recheck env caller id sample).left live
  | .expireIfNeeded sample, some live => (VaultService.expireIfNeeded sample).left live
  | .sealNow, some live => return some { live with isSealed := true }

/-- The vault and, while the service runs, its live state. -/
structure Service where
  vault : PlainVault
  live : Option LiveState

namespace Service

/-- A new vault whose service has not been started. -/
def create : Service := ⟨PlainVault.create, none⟩

/-- One event, cut off at the store's command number `limit + 1`: then, and when a start fails, the service is down. -/
def step (env : ServiceEnv) (device : Device) (s : Service) (event : Event × Nat) : Service :=
  match (event.1.program env device s.live).runFor
      ((PlainVault.ops env.toVaultEnv device).execute env.toVaultEnv device) event.2 s.vault with
  | (some (.ok live), vault, _) => ⟨vault, live⟩
  | (_, vault, _) => ⟨vault, none⟩

def run (env : ServiceEnv) (device : Device) (s : Service) (events : List (Event × Nat)) : Service :=
  events.foldl (step env device) s

end Service

end FactorSeal

import FactorSeal.Service.Wire

/-! # Pending approvals (protocol/service/approvals.rs)

A request without a grant can leave a record for the user to approve. The records are kept in memory and written through
to an authorization document of their own; resolved ones are remembered for those who wait. `approve` turns a record into
a grant for exactly the entry, project and folder it was about. -/

namespace FactorSeal

open Wire Except

/-! ## Constants -/

def approvalTtlSeconds : UInt64 := 7 * 24 * 60 * 60
def maxPendingApprovals : Nat := 128
def maxPendingPerCaller : Nat := 16
def maxNewApprovalsPerCaller : Nat := 8
def maxNewApprovals : Nat := 128

/-- A point of the monotonic clock, in nanoseconds. -/
abbrev Instant := Nat

/-- `APPROVAL_RATE_WINDOW`. -/
def approvalRateWindow : Nat := 60 * 1000000000

/-- `REQUESTER_GRACE`. -/
def requesterGrace : Nat := 2 * 1000000000

/-- `PERMISSION_CONTROL_NAMESPACE`. -/
def permissionControlNamespace : Bytes := utf8 "factorseal/permissions/v1"

/-- `PENDING_DOCUMENT_NAMESPACE`. -/
def pendingDocumentNamespace : Bytes := utf8 "factorseal/pending-approvals/v1"
def pendingVersion : UInt8 := 1

/-! ## Records -/

structure ApprovalCandidate where
  caller : CallerIdentity
  application : VaultApplicationContext
  scope : DocumentKind
  /-- `namespace`. -/
  partition : Bytes
  address : Option SecretAddress
  permission : GrantPermission
  operation : PermissionOperation
  expiringWrite : Bool
deriving DecidableEq, Repr

structure ApprovalRecord where
  summary : Permission
  caller : CallerIdentity
  scope : DocumentKind
  partition : Bytes
  address : Option SecretAddress
  permission : GrantPermission
  awaitedUntil : Option Instant
deriving DecidableEq, Repr

structure StoredApprovals where
  version : UInt8
  records : List ApprovalRecord
deriving DecidableEq, Repr

structure ResolvedRecord where
  id : String
  callerFingerprint : Digest
  status : PermissionWaitStatus
  retainUntil : UInt64
deriving DecidableEq, Repr

structure PendingApprovals where
  records : List ApprovalRecord
  resolved : List ResolvedRecord
  revision : UInt64
  recentCreations : List (Instant × Digest)
  unsaved : Bool
deriving DecidableEq, Repr

/-- The formats of the service's own records and messages, beside those of the grants. -/
structure ServiceEnv extends GrantEnv where
  approvalsJson : Codec StoredApprovals
  /-- The bytes of a permission in a page. -/
  permissionSize : Permission → Nat
  /-- The length of a serialised request. -/
  requestSize : VaultRequest → Nat
  /-- `PortableItem::encode` and `decode` without their checks. -/
  portableJson : Codec (UInt8 × IndexItem × Bytes)
  /-- The principal that history entries name. -/
  principal : CallerIdentity → String
  principal_inj : Function.Injective principal

/-! ## Candidates -/

/-- The permission that an operation needs. -/
def PermissionOperation.permission : PermissionOperation → GrantPermission
  | .get => .get
  | .put => .put
  | .delete => .delete
  | .clear => .clear

namespace ApprovalCandidate

def forKeyring (caller : CallerIdentity) (service : String) (address : Option SecretAddress) (baseDir : String)
    (operation : PermissionOperation) : ApprovalCandidate :=
  let (project, profile) := accessProject service
  { caller, scope := .linuxSecretService, partition := utf8 project, address, operation,
    application := ⟨some project, profile, some baseDir, some ("System keyring: " ++ service), none, []⟩,
    permission := operation.permission, expiringWrite := false }

def requirement (candidate : ApprovalCandidate) : GrantRequirement :=
  ⟨candidate.scope, some candidate.partition, candidate.address, candidate.application.project,
    candidate.application.baseDir, candidate.permission⟩

/-- A cache request of the application's own project (approvals.rs:163-211). -/
def forCache (caller : CallerIdentity) (application : VaultApplicationContext) (project : String)
    (address : SecretSpecAddress) (operation : PermissionOperation) (expiringWrite : Bool) : Option ApprovalCandidate :=
  if application.project = some project ∧ ∀ named ∈ address.project, named = project then
    match SecretAddress.newSecretSpec address with
    | .ok address => some ⟨caller, application, .secretSpecProviderCache, utf8 project, some address,
        operation.permission, operation, expiringWrite⟩
    | .error _ => none
  else none

/-- `for_request`: only the three cache actions on one entry can be approved. -/
def forRequest (caller : CallerIdentity) (application : Option VaultApplicationContext) (action : VaultAction) :
    Option ApprovalCandidate :=
  application.bind fun application =>
    match action with
    | .getCache project address => forCache caller application project address .get false
    | .putCache project address _ evictAt => forCache caller application project address .put evictAt.isSome
    | .deleteCache project address => forCache caller application project address .delete false
    | _ => none

end ApprovalCandidate

/-! ## The queue -/

/-- `u64::saturating_add`. -/
def saturatingAdd (a b : UInt64) : UInt64 := if a.toNat + b.toNat < 2 ^ 64 then a + b else UInt64.ofNat (2 ^ 64 - 1)

/-- `u64::checked_add`. -/
def checkedAdd (a b : UInt64) : Option UInt64 := if b.toNat + a.toNat < 2 ^ 64 then some (a + b) else none

/-- The expiry of a pending permission. -/
def Permission.pendingUntil (permission : Permission) : Option UInt64 :=
  match permission.state with
  | .pending _ expiresAt _ _ _ => some expiresAt
  | .granted _ _ _ => none

/-- `permission_payload` (signature.rs:173-196). -/
def permissionPayload (id : String) (challenge : Digest) (durationSeconds : Option UInt64) (singleUse : Bool) : Bytes :=
  utf8 "factorseal/permission/v1\x00" ++ framed (utf8 id) ++ challenge.toList ++
    match singleUse, durationSeconds with
    | true, _ => [2]
    | false, some duration => 1 :: be64 duration
    | false, none => [0]

/-- `ApprovedLifetime`. -/
structure ApprovedLifetime where
  durationSeconds : Option UInt64
  singleUse : Bool
deriving DecidableEq, Repr

/-- `pending_address`. -/
def pendingAddress : VaultResult SecretAddress := SecretAddress.newLocal "pending" none

namespace PendingApprovals

/-- `default`. -/
def new : PendingApprovals := ⟨[], [], 0, [], false⟩

/-- `changed`: the counter wraps. -/
def changed (approvals : PendingApprovals) : PendingApprovals := { approvals with revision := approvals.revision + 1 }

def pushResolved (approvals : PendingApprovals) (record : ResolvedRecord) : PendingApprovals :=
  { approvals with
    resolved := (if approvals.resolved.length = maxPendingApprovals then approvals.resolved.tail else approvals.resolved)
      ++ [record] }

variable (env : ServiceEnv)

/-- What `purge_expired` remembers of a record that is due. -/
def expiredRecord (now : UInt64) (record : ApprovalRecord) : Option ResolvedRecord :=
  match record.summary.pendingUntil with
  | some expiresAt =>
    if expiresAt ≤ now then
      some ⟨record.summary.id, record.caller.fingerprint env.sha256, .expired, saturatingAdd expiresAt approvalTtlSeconds⟩
    else none
  | none => none

/-- The record is still waiting. -/
def isWaiting (now : UInt64) (record : ApprovalRecord) : Bool :=
  match record.summary.pendingUntil with
  | some expiresAt => now < expiresAt
  | none => false

def purgeExpired (approvals : PendingApprovals) (now : UInt64) : PendingApprovals :=
  let records := approvals.records.filter (isWaiting now)
  let approvals' := (approvals.records.filterMap (expiredRecord env now)).foldl pushResolved { approvals with records }
  let approvals' := { approvals' with resolved := approvals'.resolved.filter fun record => now < record.retainUntil }
  if records.length ≠ approvals.records.length then { approvals'.changed with unsaved := true } else approvals'

/-- The pending record a candidate repeats (approvals.rs:404-416). -/
def repeats (candidate : ApprovalCandidate) (record : ApprovalRecord) : Bool :=
  record.caller.fingerprint env.sha256 = candidate.caller.fingerprint env.sha256 &&
    record.summary.application = candidate.application && record.address = candidate.address &&
    record.partition = candidate.partition && record.scope = candidate.scope &&
    record.permission = candidate.permission &&
    match record.summary.state with
    | .pending _ _ _ _ expiringWrite => expiringWrite = candidate.expiringWrite
    | .granted _ _ _ => false

/-- `max(Some(until))`. -/
def laterOf (awaited : Option Instant) (deadline : Instant) : Option Instant := some (max (awaited.getD 0) deadline)

/-- Marks the first record of a kind as awaited. -/
def await (p : ApprovalRecord → Bool) (deadline : Instant) : List ApprovalRecord → List ApprovalRecord
  | [] => []
  | record :: rest =>
    if p record then { record with awaitedUntil := laterOf record.awaitedUntil deadline } :: rest
    else record :: await p deadline rest

/-- One of the bounds of `create_at` is reached (approvals.rs:432-450). -/
def isLimited (approvals : PendingApprovals) (recent : List (Instant × Digest)) (fingerprint : Digest) : Bool :=
  maxPendingApprovals ≤ approvals.records.length ||
    maxPendingPerCaller ≤
      (approvals.records.filter fun record => record.caller.fingerprint env.sha256 = fingerprint).length ||
    maxNewApprovals ≤ recent.length ||
    maxNewApprovalsPerCaller ≤ (recent.filter fun created => created.2 = fingerprint).length

/-- `prm_` and the random bytes. -/
def permissionId (bytes : Vector UInt8 16) : String := "prm_" ++ String.ofList (base64Url bytes.toList)

/-- The new record of `create_at`. -/
def newRecord (candidate : ApprovalCandidate) (address : SecretAddress) (project : String)
    (fresh : Vector UInt8 16 × Digest) (now expiresAt : UInt64) (monotonicNow : Instant) : ApprovalRecord :=
  let target := GrantTarget.projectEntry candidate.scope candidate.partition address project candidate.application.baseDir
  { summary :=
      { target := some target.summary, id := permissionId fresh.1, scope := some candidate.scope,
        operation := candidate.operation, principal := candidate.caller, application := candidate.application,
        state := .pending now expiresAt fresh.2 false candidate.expiringWrite }
    caller := candidate.caller, scope := candidate.scope, partition := candidate.partition,
    address := candidate.address, permission := candidate.permission,
    awaitedUntil := some (monotonicNow + requesterGrace) }

/-- `create_at` without the purge (approvals.rs:393-505); every candidate has a project. `fresh` are the random bytes. -/
def createPurged (approvals : PendingApprovals) (candidate : ApprovalCandidate) (fresh : Vector UInt8 16 × Digest)
    (now : UInt64) (monotonicNow : Instant) : VaultResult VaultInteractionReference × PendingApprovals :=
  match checkedAdd now approvalTtlSeconds, candidate.address, candidate.application.project with
  | none, _, _ => (.error .expired, approvals)
  | some _, none, _ => (.error .authorizationRequired, approvals)
  | some _, some _, none => (.error .authorizationRequired, approvals)
  | some expiresAt, some address, some project =>
    if candidate.operation = .clear then (.error .authorizationRequired, approvals)
    else
      match approvals.records.find? (repeats env candidate) with
      | some existing =>
        (.ok ⟨existing.summary.id, existing.summary.pendingUntil.getD 0⟩,
          { approvals with records := await (repeats env candidate) (monotonicNow + requesterGrace) approvals.records })
      | none =>
        let fingerprint := candidate.caller.fingerprint env.sha256
        let recent := approvals.recentCreations.filter fun created => monotonicNow - created.1 < approvalRateWindow
        if isLimited env approvals recent fingerprint then
          (.error .approvalLimited, { approvals with recentCreations := recent })
        else
          let record := newRecord candidate address project fresh now expiresAt monotonicNow
          (.ok ⟨record.summary.id, expiresAt⟩,
            { approvals.changed with records := approvals.records ++ [record], unsaved := true,
                                     recentCreations := recent ++ [(monotonicNow, fingerprint)] })

def create (approvals : PendingApprovals) (candidate : ApprovalCandidate) (fresh : Vector UInt8 16 × Digest)
    (now : UInt64) (monotonicNow : Instant) : VaultResult VaultInteractionReference × PendingApprovals :=
  createPurged env (approvals.purgeExpired env now) candidate fresh now monotonicNow

/-- The summary of a record with whether someone waits for it now. -/
def listed (monotonicNow : Instant) (record : ApprovalRecord) : Permission :=
  match record.summary.state with
  | .pending createdAt expiresAt challenge _ expiringWrite =>
    { record.summary with
      state := .pending createdAt expiresAt challenge (record.awaitedUntil.any (monotonicNow < ·)) expiringWrite }
  | .granted _ _ _ => record.summary

def list (approvals : PendingApprovals) (now : UInt64) (monotonicNow : Instant) : List Permission × PendingApprovals :=
  let approvals := approvals.purgeExpired env now
  (approvals.records.map (listed monotonicNow), approvals)

def awaited (approvals : PendingApprovals) (caller : CallerIdentity) (id : String) (deadline : Instant) :
    PendingApprovals :=
  { approvals with
    records := await (fun record => record.summary.id = id &&
      record.caller.fingerprint env.sha256 = caller.fingerprint env.sha256) (deadline + requesterGrace) approvals.records }

/-- The record of an id, and the queue without it. -/
def take (approvals : PendingApprovals) (id : String) : Option (ApprovalRecord × PendingApprovals) :=
  (approvals.records.find? fun record => record.summary.id = id).map fun record =>
    (record, { approvals with records := approvals.records.eraseP fun record => record.summary.id = id, unsaved := true })

def deny (approvals : PendingApprovals) (id : String) (now : UInt64) : VaultResult Unit × PendingApprovals :=
  let approvals := approvals.purgeExpired env now
  match approvals.take id with
  | none => (.error (.protocol "permission is missing or expired"), approvals)
  | some (record, rest) =>
    (.ok (), (rest.pushResolved ⟨id, record.caller.fingerprint env.sha256, .denied,
      saturatingAdd (record.summary.pendingUntil.getD 0) approvalTtlSeconds⟩).changed)

def status (approvals : PendingApprovals) (caller : CallerIdentity) (id : String) (now : UInt64) :
    Option PermissionWaitStatus × PendingApprovals :=
  let approvals := approvals.purgeExpired env now
  let fingerprint := caller.fingerprint env.sha256
  if approvals.records.any fun record => record.summary.id = id && record.caller.fingerprint env.sha256 = fingerprint then
    (some .pending, approvals)
  else
    ((approvals.resolved.find? fun record => record.id = id && record.callerFingerprint = fingerprint).map
      ResolvedRecord.status, approvals)

/-! ## In the store -/

/-- The write of `save`: nothing left deletes the record, otherwise it goes with the last request in it. -/
def saveOperation (approvals : PendingApprovals) (address : SecretAddress) : DocumentOperation :=
  if approvals.records = [] then .delete address
  else
    .put address (env.approvalsJson.encode ⟨pendingVersion, approvals.records.map fun record =>
      { record with awaitedUntil := none }⟩) (approvals.records.filterMap fun record => record.summary.pendingUntil).max?

def save (approvals : PendingApprovals) (now : UInt64) : StoreProgram PendingApprovals := do
  if approvals.unsaved then
    let address ← pendingAddress
    VaultStore.mutate .authorization pendingDocumentNamespace [saveOperation env approvals address]
      (.service .grantStorage) now
    return { approvals with unsaved := false }
  else return approvals

/-- What `load` makes of the stored approvals; unreadable ones are dropped. -/
def restored (bytes : Option Bytes) (now : UInt64) : PendingApprovals :=
  match bytes.map env.approvalsJson.decode with
  | some (.ok stored) =>
    if stored.version = pendingVersion then
      let records := (stored.records.filter fun record =>
        record.summary.pendingUntil.isSome && record.caller.validate.isOk).take maxPendingApprovals
      purgeExpired env { new with records, unsaved := decide (records.length ≠ stored.records.length) } now
    else new
  | _ => new

def load (now : UInt64) : StoreProgram PendingApprovals := do
  let address ← pendingAddress
  let bytes ← (VaultStore.getAt .authorization pendingDocumentNamespace address now).attempt
  return restored env (match bytes with
    | .ok bytes => bytes
    | .error _ => none) now

/-! ## Approving -/

/-- What a record is approved as. -/
structure Approved where
  caller : CallerIdentity
  target : GrantTarget
  permission : GrantPermission
  granted : Permission
deriving DecidableEq, Repr

/-- The checks of `approve` on a record, up to the promotion (approvals.rs:599-664). -/
def approved (record : ApprovalRecord) (signature : Bytes) (lifetime : ApprovedLifetime) (now : UInt64) :
    VaultResult Approved := do
  match record.summary.state with
  | .granted _ _ _ => .error (.protocol "permission is not pending")
  | .pending _ _ challenge _ _ => do
    ensure (env.verify (permissionPayload record.summary.id challenge lifetime.durationSeconds lifetime.singleUse)
      signature = true) .signature
    ensure (lifetime.singleUse = true → record.scope = .secretSpecProviderCache ∧ record.permission = .put)
      (.protocol "only a SecretSpec write can be approved for one write")
    let duration := if lifetime.singleUse then some singleUseGrantSeconds else lifetime.durationSeconds
    let expiresAt ← match duration with
      | some duration => (ofOption VaultError.expired (checkedAdd now duration)).map some
      | none => .ok none
    let project ← ofOption (.protocol "permission has no project") record.summary.application.project
    let address ← ofOption .authorizationRequired record.address
    return ⟨record.caller, .projectEntry record.scope record.partition address project
      record.summary.application.baseDir, record.permission,
      { record.summary with state := .granted now expiresAt lifetime.singleUse }⟩

/-- `approve` on a queue without expired records: what was granted, and the queue without the record. -/
def approve (approvals : PendingApprovals) (id : String) (signature : Bytes) (lifetime : ApprovedLifetime)
    (now : UInt64) (provenance : Provenance) : StoreProgram (Approved × PendingApprovals) := do
  let (record, rest) ← ofOption (VaultError.protocol "permission is missing or expired") (approvals.take id)
  let approved ← approved env record signature lifetime now
  promotePermission env.toGrantEnv approved.caller approved.target approved.permission approved.granted now provenance
  return (approved, (rest.pushResolved ⟨id, approved.caller.fingerprint env.sha256, .granted,
    saturatingAdd now approvalTtlSeconds⟩).changed)

end PendingApprovals

end FactorSeal

import FactorSeal.Service.Actions

/-! # The state behind a request (protocol/service/state.rs, protocol/lease.rs)

What the service keeps in memory while the vault is unsealed: the lease, the identifiers of the last requests, the
pending approvals and the permissions it listed last. A request changes this state and the store; a failure keeps what it
changed before (`ServiceM`). -/

namespace FactorSeal

open Wire Except

/-! ## The lease -/

structure UnsealLeasePolicy where
  idleTimeout : Nat
  maximumLifetime : Nat
deriving DecidableEq, Repr

structure UnsealLease where
  idleTimeout : Nat
  idleDeadline : UInt64
  absoluteDeadline : UInt64
  idleExpiresAt : Instant
  absoluteExpiresAt : Instant
deriving DecidableEq, Repr

/-- The whole seconds of a duration. -/
def asSecs (nanoseconds : Nat) : Nat := nanoseconds / 1000000000

/-- `checked_add` of a duration's seconds. -/
def addSecs (now : UInt64) (seconds : Nat) : VaultResult UInt64 :=
  if now.toNat + seconds < 2 ^ 64 then .ok (now + UInt64.ofNat seconds)
  else .error (.protocol "unseal lease overflows time")

namespace UnsealLease

/-- `new_at`; points of the monotonic clock do not overflow. -/
def new (now : UInt64) (monotonicNow : Instant) (policy : UnsealLeasePolicy) : VaultResult UnsealLease := do
  ensure (policy.idleTimeout ≠ 0 ∧ policy.maximumLifetime ≠ 0 ∧ policy.idleTimeout ≤ policy.maximumLifetime)
    (.protocol "unseal lease timeouts are invalid")
  let absoluteDeadline ← addSecs now (asSecs policy.maximumLifetime)
  let idleDeadline ← addSecs now (asSecs policy.idleTimeout)
  return ⟨policy.idleTimeout, min idleDeadline absoluteDeadline, absoluteDeadline,
    min (monotonicNow + policy.idleTimeout) (monotonicNow + policy.maximumLifetime),
    monotonicNow + policy.maximumLifetime⟩

def isExpired (lease : UnsealLease) (monotonicNow : Instant) : Bool :=
  lease.idleExpiresAt ≤ monotonicNow || lease.absoluteExpiresAt ≤ monotonicNow

def touch (lease : UnsealLease) (now : UInt64) (monotonicNow : Instant) : VaultResult UnsealLease := do
  ensure (lease.isExpired monotonicNow = false) .sealed
  let idleDeadline ← addSecs now (asSecs lease.idleTimeout)
  return { lease with
    idleDeadline := min idleDeadline lease.absoluteDeadline
    idleExpiresAt := min (monotonicNow + lease.idleTimeout) lease.absoluteExpiresAt }

end UnsealLease

/-! ## Replayed requests -/

def maxReplayIds : Nat := 4096

/-- The identifiers in order; the source keeps a set beside them. -/
structure ReplayWindow where
  order : List RequestId
deriving DecidableEq, Repr

def ReplayWindow.consume (window : ReplayWindow) (id : RequestId) : VaultResult ReplayWindow := do
  ensure (window.order.contains id = false) .replay
  let order := window.order ++ [id]
  return ⟨if maxReplayIds < order.length then order.tail else order⟩

/-! ## Live state -/

structure LiveState where
  lease : UnsealLease
  replay : ReplayWindow
  approvals : PendingApprovals
  grantedPermissions : List Permission
  lastPurgeAt : UInt64
  /-- The flag of the store handle. -/
  isSealed : Bool
deriving DecidableEq, Repr

structure RequestFailure where
  error : VaultError
  interaction : Option VaultInteractionReference
deriving DecidableEq, Repr

/-- Code that changes the live state and the store, and keeps both also when it fails. -/
def ServiceM (α : Type) : Type := LiveState → StoreProgram (Except RequestFailure α × LiveState)

namespace ServiceM

variable {α : Type}

instance : Monad ServiceM where
  pure a := fun live => pure (.ok a, live)
  bind x f := fun live => x live >>= fun r =>
    match r.1 with
    | .ok a => f a r.2
    | .error failure => pure (.error failure, r.2)

/-- `From<VaultError>`. -/
def failure (error : VaultError) : RequestFailure := ⟨error, none⟩

def fail (failure : RequestFailure) : ServiceM α := fun live => pure (.error failure, live)

/-- A program on the store whose error is that of the request. -/
def store (p : StoreProgram α) : ServiceM α := fun live => do
  return ((← p.attempt).mapError failure, live)

instance : MonadLift StoreProgram ServiceM := ⟨store⟩

instance : MonadLift (Except VaultError) ServiceM := ⟨fun result live => pure (result.mapError failure, live)⟩

/-- A change of the live state. -/
def update (f : LiveState → VaultResult α × LiveState) : ServiceM α := fun live =>
  pure ((f live).1.mapError failure, (f live).2)

def getLive : ServiceM LiveState := fun live => pure (.ok live, live)

end ServiceM

section

open ServiceM

variable (env : ServiceEnv)

/-- `lock_live`: a request is let in while the lease runs. -/
def lockLive (monotonicNow : Instant) : ServiceM Unit :=
  update fun live =>
    if live.isSealed then (.error .sealed, live)
    else if live.lease.isExpired monotonicNow then (.error .sealed, { live with isSealed := true })
    else (.ok (), live)

/-- `consume`. -/
def consumeRequest (id : RequestId) : ServiceM Unit :=
  update fun live =>
    match live.replay.consume id with
    | .ok replay => (.ok (), { live with replay })
    | .error refusal => (.error refusal, live)

/-- `touch`. -/
def touch (sample : UInt64 × Instant) : ServiceM Unit :=
  update fun live =>
    if live.isSealed ∨ live.lease.isExpired sample.2 = true then (.error .sealed, { live with isSealed := true })
    else
      match live.lease.touch sample.1 sample.2 with
      | .ok lease => (.ok (), { live with lease })
      | .error refusal => (.error refusal, live)

/-- `save_approvals`: a failed write is tried again with the next change. -/
def saveApprovals (now : UInt64) : ServiceM Unit := fun live => do
  match ← (live.approvals.save env now).attempt with
  | .ok approvals => return (.ok (), { live with approvals })
  | .error _ => return (.ok (), live)

/-- `create_approval`. -/
def createApproval (candidate : ApprovalCandidate) (fresh : Vector UInt8 16 × Digest) (now : UInt64)
    (monotonicNow : Instant) : ServiceM VaultInteractionReference := do
  let live ← getLive
  let (interaction, approvals) := live.approvals.create env candidate fresh now monotonicNow
  update fun live => (.ok (), { live with approvals })
  if approvals.revision ≠ live.approvals.revision then
    saveApprovals env now
  interaction

/-- Permissions by their identifiers. -/
def sortById (permissions : List Permission) : List Permission :=
  permissions.mergeSort fun left right => left.id ≤ right.id

/-- `list_permissions`. -/
def listPermissions (now : UInt64) (monotonicNow : Instant) : ServiceM (UInt64 × List Permission) := do
  let pending ← update fun live =>
    let (pending, approvals) := live.approvals.list env now monotonicNow
    (.ok pending, { live with approvals })
  saveApprovals env now
  let granted ← listGrantedPermissions env.toGrantEnv now
  let granted := sortById granted
  update fun live =>
    if granted = live.grantedPermissions then (.ok (), live)
    else (.ok (), { live with grantedPermissions := granted, approvals := live.approvals.changed })
  let live ← getLive
  return (live.approvals.revision, sortById (pending ++ granted))

/-- `deny_approval`. -/
def denyApproval (id : String) (now : UInt64) : ServiceM Unit := do
  update fun live =>
    let (denied, approvals) := live.approvals.deny env id now
    (denied, { live with approvals })
  saveApprovals env now

/-- `revoke_permission`. -/
def revokeListed (id : String) (now : UInt64) (provenance : Provenance) : ServiceM Unit := do
  revokePermission env.toGrantEnv id now provenance
  update fun live => (.ok (), { live with approvals := live.approvals.changed })

/-- `approve`. -/
def approvePending (id : String) (signature : Bytes) (lifetime : ApprovedLifetime) (now : UInt64)
    (provenance : Provenance) : ServiceM Unit := do
  update fun live => (.ok (), { live with approvals := live.approvals.purgeExpired env now })
  let live ← getLive
  let (_, approvals) ← live.approvals.approve env id signature lifetime now provenance
  update fun live => (.ok (), { live with approvals })
  saveApprovals env now

/-- `permission_status`. -/
def permissionStatus (caller : CallerIdentity) (id : String) (now : UInt64) : ServiceM PermissionWaitStatus :=
  update fun live =>
    let (status, approvals) := live.approvals.status env caller id now
    (ofOption (.protocol "permission does not belong to this caller") status, { live with approvals })

/-- The pass of `wait_for_permission` that returns; one that goes on waiting does the same to the state. -/
def waitForPermission (caller : CallerIdentity) (id : String) (sample : UInt64 × Instant) (deadline : Instant) :
    ServiceM PermissionWaitStatus := do
  update fun live => (.ok (), { live with approvals := live.approvals.awaited env caller id deadline })
  lockLive sample.2
  permissionStatus env caller id sample.1

end

end FactorSeal

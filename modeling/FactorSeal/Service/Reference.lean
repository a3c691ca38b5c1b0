import FactorSeal.Service.Approvals

/-! # A reference environment for the service

Formats for the records of the authorization documents, on top of those of the documents. -/

namespace FactorSeal

open Wire Except Std Format Reference

namespace Reference

def permissionKindFormat : Format GrantPermission :=
  nat.via
    (fun
      | .list => 0 | .get => 1 | .put => 2 | .delete => 3 | .clear => 4 | .sealVault => 5 | .managePermissions => 6)
    (fun
      | 0 => .list | 1 => .get | 2 => .put | 3 => .delete | 4 => .clear | 5 => .sealVault | _ => .managePermissions)
    fun p => by cases p <;> rfl

def permissionsFormat : Format (Finset GrantPermission) :=
  (list permissionKindFormat).via sortedPermissions List.toFinset fun s => by
    ext p
    simp [sortedPermissions, GrantPermission.mem_all]

def grantFormat : Format AccessGrant :=
  (byte.prod ((vector 32).prod ((vector 32).prod (permissionsFormat.prod
    ((option uint64).prod bool))))).via
    (fun g => (g.version, g.callerFingerprint, g.targetDigest, g.permissions, g.expiresAt, g.singleUse))
    (fun (version, callerFingerprint, targetDigest, permissions, expiresAt, singleUse) =>
      ⟨version, callerFingerprint, targetDigest, permissions, expiresAt, singleUse⟩)
    fun _ => rfl

def holderFormat : Format ExclusiveHolder :=
  (byte.prod ((vector 32).prod permissionsFormat)).via
    (fun h => (h.version, h.callerFingerprint, h.permissions))
    (fun (version, callerFingerprint, permissions) => ⟨version, callerFingerprint, permissions⟩) fun _ => rfl

def platformFormat : Format CallerPlatform :=
  nat.via
    (fun | .android => 0 | .ios => 1 | .linux => 2 | .macos => 3 | .windows => 4)
    (fun | 0 => .android | 1 => .ios | 2 => .linux | 3 => .macos | _ => .windows) fun p => by cases p <;> rfl

def callerFormat : Format CallerIdentity :=
  (platformFormat.prod (string.prod (string.prod ((vector 32).prod
    (option string))))).via
    (fun c => (c.platform, c.userId, c.applicationId, c.executableDigest, c.signerId))
    (fun (platform, userId, applicationId, executableDigest, signerId) =>
      ⟨platform, userId, applicationId, executableDigest, signerId⟩)
    fun _ => rfl

def contextOfApplicationFormat : Format VaultApplicationContext :=
  ((option string).prod ((option string).prod ((option string).prod
    ((option string).prod ((option uint64).prod (list string)))))).via
    (fun c => (c.project, c.profile, c.baseDir, c.reason, c.requestedPermissionDurationSeconds, c.declaredLaunchChain))
    (fun (project, profile, baseDir, reason, duration, chain) => ⟨project, profile, baseDir, reason, duration, chain⟩)
    fun _ => rfl

def permissionOperationFormat : Format PermissionOperation :=
  nat.via (fun | .get => 0 | .put => 1 | .delete => 2 | .clear => 3)
    (fun | 0 => .get | 1 => .put | 2 => .delete | _ => .clear) fun o => by cases o <;> rfl

def targetFormat : Format PermissionTarget :=
  ((option bytes).sum ((bytes.prod addressFormat).sum
    ((bytes.prod (addressFormat.prod (string.prod (option string)))).sum
      (bytes.prod (string.prod (option string)))))).via
    (fun
      | .documentKind => .inl none
      | .wholeNamespace partition => .inl (some partition)
      | .entry partition address => .inr (.inl (partition, address))
      | .projectEntry partition address project baseDir => .inr (.inr (.inl (partition, address, project, baseDir)))
      | .project partition project baseDir => .inr (.inr (.inr (partition, project, baseDir))))
    (fun
      | .inl none => .documentKind
      | .inl (some partition) => .wholeNamespace partition
      | .inr (.inl (partition, address)) => .entry partition address
      | .inr (.inr (.inl (partition, address, project, baseDir))) => .projectEntry partition address project baseDir
      | .inr (.inr (.inr (partition, project, baseDir))) => .project partition project baseDir)
    fun t => by cases t <;> rfl

def permissionStateFormat : Format PermissionState :=
  ((uint64.prod (uint64.prod ((vector 32).prod (bool.prod bool)))).sum
    (uint64.prod ((option uint64).prod bool))).via
    (fun
      | .pending createdAt expiresAt challenge awaited expiringWrite =>
        .inl (createdAt, expiresAt, challenge, awaited, expiringWrite)
      | .granted grantedAt expiresAt singleUse => .inr (grantedAt, expiresAt, singleUse))
    (fun
      | .inl (createdAt, expiresAt, challenge, awaited, expiringWrite) =>
        .pending createdAt expiresAt challenge awaited expiringWrite
      | .inr (grantedAt, expiresAt, singleUse) => .granted grantedAt expiresAt singleUse)
    fun s => by cases s <;> rfl

def permissionFormat : Format Permission :=
  ((option targetFormat).prod (string.prod ((option kindFormat).prod (permissionOperationFormat.prod
    (callerFormat.prod (contextOfApplicationFormat.prod permissionStateFormat)))))).via
    (fun p => (p.target, p.id, p.scope, p.operation, p.principal, p.application, p.state))
    (fun (target, id, scope, operation, principal, application, state) =>
      ⟨target, id, scope, operation, principal, application, state⟩)
    fun _ => rfl

def storedPermissionFormat : Format StoredPermission :=
  (permissionFormat.prod ((vector 32).prod ((vector 32).prod permissionKindFormat))).via
    (fun s => (s.permission, s.callerFingerprint, s.targetDigest, s.grantPermission))
    (fun (permission, callerFingerprint, targetDigest, grantPermission) =>
      ⟨permission, callerFingerprint, targetDigest, grantPermission⟩)
    fun _ => rfl

def registryFormat : Format PermissionRegistry :=
  (byte.prod (list storedPermissionFormat)).via (fun r => (r.version, r.permissions)) (fun p => ⟨p.1, p.2⟩)
    fun _ => rfl

def pendingFormat : Format ApprovalRecord :=
  (permissionFormat.prod (callerFormat.prod (kindFormat.prod (bytes.prod ((option addressFormat).prod
    (permissionKindFormat.prod (option nat))))))).via
    (fun r => (r.summary, r.caller, r.scope, r.partition, r.address, r.permission, r.awaitedUntil))
    (fun (summary, caller, scope, partition, address, permission, awaitedUntil) =>
      ⟨summary, caller, scope, partition, address, permission, awaitedUntil⟩)
    fun _ => rfl

def approvalsFormat : Format StoredApprovals :=
  (byte.prod (list pendingFormat)).via (fun s => (s.version, s.records)) (fun p => ⟨p.1, p.2⟩) fun _ => rfl

/-- An application that asks for a secret of its project, and why. -/
def editor : CallerIdentity := ⟨.linux, "uid:1000", "editor", Vector.replicate 32 7, none⟩

def shopContext (reason : Option String) : VaultApplicationContext := ⟨some "shop", none, none, reason, none, []⟩

def shopToken : SecretSpecAddress := .convention "shop" "default" "TOKEN"

def tokenCandidate : ApprovalCandidate :=
  ⟨editor, shopContext none, .secretSpecProviderCache, utf8 "shop", some (.secretSpec shopToken), .get, .get, false⟩

end Reference

def referenceGrants : GrantEnv where
  toVaultEnv := referenceVault
  grantJson := grantFormat.toCodec
  registryJson := registryFormat.toCodec
  holderJson := holderFormat.toCodec

def referenceService : ServiceEnv where
  toGrantEnv := referenceGrants
  approvalsJson := approvalsFormat.toCodec
  permissionSize permission := (permissionFormat.write permission).length
  requestSize _ := 0
  portableJson := (byte.prod (indexItemFormat.prod bytes)).toCodec
  principal caller := String.ofList (base64Url (callerFormat.write caller))
  principal_inj _ _ h := callerFormat.write_inj (base64Url_inj (String.ofList_injective h))

end FactorSeal

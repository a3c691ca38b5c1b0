import FactorSeal.Grant.Access

/-! # Requests and responses (protocol/wire.rs)

The actions a local client can ask for, what `validate` demands of them before anything else is looked at, and the
bodies of the answers. Left out are the browser's action and `ExportRevision`, which touch neither grants nor
approvals. -/

namespace FactorSeal

open Wire Except

/-! ## Limits (wire.rs:18-51) -/

def protocolVersion : UInt8 := 18
def maxMessageBytes : Nat := 1024 * 1024
def maxPermissionWaitMs : UInt64 := 5000
def singleUseGrantSeconds : UInt64 := 300
def maxDeclaredLaunchChain : Nat := 4
def maxListPageSize : UInt16 := 8
def maxHistoryPageSize : UInt16 := 4
def maxApplicationComponentBytes : Nat := 4 * 1024
def maxApplicationBaseDirBytes : Nat := 32 * 1024
def maxNamespaceBytes : Nat := 4 * 1024
def maxMutationsPerRequest : Nat := 64
def maxPermissionIdBytes : Nat := 128

/-! ## Actions -/

structure WireSecretAddress where
  item : String
  field : Option String
deriving DecidableEq, Repr

def WireSecretAddress.resolve (address : WireSecretAddress) : VaultResult SecretAddress :=
  SecretAddress.newLocal address.item address.field

/-- `SecretAddress::secret_spec`. -/
def SecretAddress.newSecretSpec (address : SecretSpecAddress) : VaultResult SecretAddress := do
  address.validate
  return .secretSpec address

/-- wire.rs:970-987. -/
inductive VaultMutation where
  | check (address : WireSecretAddress) (expectedSha256 : Option Digest)
  | put (address : WireSecretAddress) (value : Bytes) (evictAt : Option UInt64)
  | delete (address : WireSecretAddress)
deriving DecidableEq, Repr

/-- wire.rs:556-753; `partition` is the source's `namespace`. -/
inductive VaultAction where
  | authorizeSecretInput (sender : String)
  | keyringAccess (entry : Option SecretAddress) (sender service : String) (operation : PermissionOperation)
    (action : Option VaultAction) (pending : Option String)
  | status
  | listVaultEntries (cursor : Option String) (limit : UInt16)
  | exportVaultEntry (entry : VaultEntryMetadata)
  | importVaultEntry (entry : VaultEntryMetadata) (value : Bytes) (evictAt : Option UInt64) (replaceExisting : Bool)
  | get (partition : Bytes) (address : WireSecretAddress)
  | put (partition : Bytes) (address : WireSecretAddress) (value : Bytes) (evictAt : Option UInt64)
  | mutate (partition : Bytes) (mutations : List VaultMutation)
  | delete (partition : Bytes) (address : WireSecretAddress)
  | clear (partition : Bytes)
  | getProject (project : String) (address : SecretSpecAddress)
  | putProject (project : String) (address : SecretSpecAddress) (value : Bytes)
  | deleteProject (project : String) (address : SecretSpecAddress)
  | listProjects (cursor : Option String) (limit : UInt16)
  | listProjectAddresses (project : String) (cursor : Option String) (limit : UInt16)
  | listHistory (partition : Bytes) (address : Option WireSecretAddress) (cursor : Option UInt64) (limit : UInt16)
  | listProjectHistory (project : String) (address : Option SecretSpecAddress) (cursor : Option UInt64)
    (limit : UInt16)
  | listCacheHistory (project : String) (address : Option SecretSpecAddress) (cursor : Option UInt64) (limit : UInt16)
  | getCache (project : String) (address : SecretSpecAddress)
  | writeCacheFromDialog (project : String) (address : SecretSpecAddress) (value : Bytes) (evictAt : Option UInt64)
  | putCache (project : String) (address : SecretSpecAddress) (value : Bytes) (evictAt : Option UInt64)
  | deleteCache (project : String) (address : SecretSpecAddress)
  | clearCache (project : String)
  | seal (partition : Bytes)
  | sealCache (project : String)
  | listPermissions
  | listPermissionsPage (revision : UInt64) (cursor : String)
  | waitPermissions (afterRevision timeoutMs : UInt64)
  | waitPermission (id : String) (timeoutMs : UInt64)
  | approvePermission (id : String) (signature : Bytes) (durationSeconds : Option UInt64) (singleUse : Bool)
  | denyPermission (id : String)
  | revokePermission (id : String)

abbrev RequestId := Vector UInt8 16

structure VaultRequest where
  version : UInt8
  requestId : RequestId
  application : Option VaultApplicationContext
  action : VaultAction

/-! ## Validation -/

def validateNamespace (partition : Bytes) : VaultResult Unit :=
  ensure (partition ≠ [] ∧ partition.length ≤ maxNamespaceBytes) (.protocol "document namespace is empty or too long")

def validateProject (project : String) : VaultResult Unit :=
  ensure (¬ project.isEmpty ∧ project.utf8ByteSize ≤ maxApplicationComponentBytes)
    (.protocol "SecretSpec project is empty or too long")

def validateListLimit (limit : UInt16) : VaultResult Unit :=
  ensure (1 ≤ limit ∧ limit ≤ maxListPageSize) (.protocol "list limit must be between one and 8")

def validateHistoryLimit (limit : UInt16) : VaultResult Unit :=
  ensure (1 ≤ limit ∧ limit ≤ maxHistoryPageSize) (.protocol "history limit must be between one and 4")

/-- The characters of `URL_SAFE_NO_PAD`. -/
def isBase64Char (c : Char) : Bool := (List.range 64).any fun n => base64Char n = c

/-- The text decodes to 32 bytes: 43 characters, of which the last has no bits left over. -/
def decodesToDigest (text : String) : Bool :=
  text.toList.length = 43 && text.toList.all isBase64Char &&
    (text.toList.getLast?.any fun c => (List.range 16).any fun n => base64Char (4 * n) = c)

def validateAddressCursor (cursor : String) : VaultResult Unit :=
  ensure (decodesToDigest cursor = true) (.protocol "invalid address-list cursor")

def validateProjectAddress (project : String) (address : SecretSpecAddress) : VaultResult Unit := do
  validateProject project
  address.validate
  ensure (∀ named ∈ address.project, named = project)
    (.protocol "SecretSpec convention address belongs to a different project")

def isPermissionIdByte (b : UInt8) : Bool :=
  (0x30 ≤ b && b ≤ 0x39) || (0x41 ≤ b && b ≤ 0x5a) || (0x61 ≤ b && b ≤ 0x7a) || b = 0x2d || b = 0x5f || b = 0x2e

def validatePermissionId (id : String) : VaultResult Unit :=
  ensure (¬ id.isEmpty ∧ id.utf8ByteSize ≤ maxPermissionIdBytes ∧ (utf8 id).all isPermissionIdByte)
    (.protocol "invalid permission ID")

/-- `if let Some(..) = .. { .. }` around a check. -/
def validateOptional {α : Type} (check : α → VaultResult Unit) : Option α → VaultResult Unit
  | none => .ok ()
  | some a => check a

/-- `VaultApplicationContext::validate` (wire.rs:374-432); an absolute path starts with a slash. -/
def VaultApplicationContext.validate (context : VaultApplicationContext) : VaultResult Unit := do
  validateOptional (fun value : String => ensure (¬ value.isEmpty ∧ value.utf8ByteSize ≤ maxApplicationComponentBytes)
    (.protocol "application project is empty or too long")) context.project
  validateOptional (fun value : String => ensure (¬ value.isEmpty ∧ value.utf8ByteSize ≤ maxApplicationComponentBytes)
    (.protocol "application profile is empty or too long")) context.profile
  validateOptional (fun value : String => ensure (value.utf8ByteSize ≤ maxApplicationBaseDirBytes)
    (.protocol "application base directory is too long")) context.baseDir
  validateOptional (fun value : String => ensure (value.toList.head? = some '/')
    (.protocol "application base directory must be absolute")) context.baseDir
  validateOptional (fun value : String => ensure (value.utf8ByteSize ≤ maxApplicationComponentBytes)
    (.protocol "application reason is too long")) context.reason
  ensure (context.requestedPermissionDurationSeconds ≠ some 0)
    (.protocol "requested permission duration must be positive")
  ensure (context.declaredLaunchChain.length ≤ maxDeclaredLaunchChain ∧
      ∀ value ∈ context.declaredLaunchChain, ¬ value.isEmpty ∧ value.utf8ByteSize ≤ maxApplicationComponentBytes)
    (.protocol "declared launch chain is too long or has an empty entry")

/-- `validate_transfer` (wire.rs:1204-1231). -/
def VaultEntryMetadata.validateTransfer (entry : VaultEntryMetadata) : VaultResult Unit := do
  match entry.documentKind, entry.address with
  | .authorization, _ | .secretSpecProviderCache, _ => .error (.protocol "that document kind is not portable")
  | .secretSpecProject, .local _ _ => .error (.protocol "project transfer entry has a local address")
  | .linuxSecretService, .secretSpec _ | .networkManagerWifi, .secretSpec _ | .localKeyring, .secretSpec _ =>
    .error (.protocol "keyring transfer entry has a project address")
  | _, _ => .ok ()
  validateNamespace entry.partition
  entry.address.validate

def VaultMutation.validate : VaultMutation → VaultResult Unit
  | .check address _ | .put address _ _ | .delete address => do
    let _ ← address.resolve

/-- The check of a `Mutate` (wire.rs:942-956). -/
def validateMutations (partition : Bytes) (mutations : List VaultMutation) : VaultResult Unit := do
  validateNamespace partition
  ensure (mutations ≠ [] ∧ mutations.length ≤ maxMutationsPerRequest)
    (.protocol "mutation request must contain between one and 64 operations")
  mutations.forM VaultMutation.validate

/-- The check of an action on one keyring address (wire.rs:862-869). -/
def validateEntry (partition : Bytes) (address : WireSecretAddress) : VaultResult Unit := do
  validateNamespace partition
  let _ ← address.resolve

/-- `item/` and 32 hexadecimal digits. -/
def isKeyringEntry : SecretAddress → Bool
  | .local item none => "item/".toList.isPrefixOf item.toList && (utf8 item).length = 37 &&
      ((utf8 item).drop 5).all isAsciiHexdigit
  | _ => false

def isBusName (sender : String) : Bool := sender.toList.head? = some ':' && sender.utf8ByteSize ≤ 255

/-- The action a keyring request may carry (wire.rs:811-822). -/
def validateBridged : VaultAction → VaultResult Unit
  | .get partition address =>
    if partition = secretServiceNamespace then validateEntry partition address
    else .error (.protocol "invalid bridged keyring action")
  | .mutate partition mutations =>
    if partition = secretServiceNamespace then validateMutations partition mutations
    else .error (.protocol "invalid bridged keyring action")
  | _ => .error (.protocol "invalid bridged keyring action")

def validateWait (timeoutMs : UInt64) : VaultResult Unit :=
  ensure (1 ≤ timeoutMs ∧ timeoutMs ≤ maxPermissionWaitMs)
    (.protocol "permission wait timeout is outside the supported range")

/-- wire.rs:759-965. -/
def VaultAction.validate : VaultAction → VaultResult Unit
  | .authorizeSecretInput sender => ensure (isBusName sender = true) (.protocol "invalid input peer")
  | .keyringAccess entry sender service _ action pending => do
    ensure (isBusName sender = true ∧ ¬ service.isEmpty ∧ service.utf8ByteSize ≤ 1024)
      (.protocol "invalid keyring access target")
    validateOptional (fun address : SecretAddress => do
      address.validate
      ensure (isKeyringEntry address = true) (.protocol "invalid keyring entry")) entry
    validateOptional validatePermissionId pending
    ensure (pending = none ∨ action.isNone) (.protocol "invalid keyring wait")
    validateOptional validateBridged action
  | .status | .listPermissions => .ok ()
  | .listPermissionsPage _ cursor => validatePermissionId cursor
  | .listVaultEntries cursor limit => do
    validateListLimit limit
    validateOptional validateAddressCursor cursor
  | .exportVaultEntry entry => entry.validateTransfer
  | .importVaultEntry entry _ _ _ => entry.validateTransfer
  | .waitPermissions _ timeoutMs => validateWait timeoutMs
  | .waitPermission id timeoutMs => do
    validateWait timeoutMs
    validatePermissionId id
  | .approvePermission id signature durationSeconds singleUse => do
    validatePermissionId id
    ensure (¬ (singleUse = true ∧ durationSeconds.isSome)) (.protocol "a single-use approval takes no duration")
    ensure (signature ≠ [] ∧ signature.length ≤ 16 * 1024) (.protocol "permission signature is empty or too long")
    ensure (durationSeconds ≠ some 0) (.protocol "permission duration must be positive")
  | .denyPermission id => validatePermissionId id
  | .revokePermission id => validatePermissionId id
  | .get partition address => validateEntry partition address
  | .delete partition address => validateEntry partition address
  | .put partition address _ _ => validateEntry partition address
  | .getProject project address => validateProjectAddress project address
  | .putProject project address _ => validateProjectAddress project address
  | .deleteProject project address => validateProjectAddress project address
  | .getCache project address => validateProjectAddress project address
  | .writeCacheFromDialog project address _ _ => validateProjectAddress project address
  | .putCache project address _ _ => validateProjectAddress project address
  | .deleteCache project address => validateProjectAddress project address
  | .listProjects cursor limit => do
    validateListLimit limit
    validateOptional validateProject cursor
  | .listProjectAddresses project cursor limit => do
    validateProject project
    validateListLimit limit
    validateOptional validateAddressCursor cursor
  | .listHistory partition address _ limit => do
    validateNamespace partition
    validateHistoryLimit limit
    validateOptional (fun address : WireSecretAddress => do let _ ← address.resolve) address
  | .listProjectHistory project address _ limit | .listCacheHistory project address _ limit => do
    validateHistoryLimit limit
    match address with
    | some address => validateProjectAddress project address
    | none => validateProject project
  | .mutate partition mutations => validateMutations partition mutations
  | .clear partition => validateNamespace partition
  | .seal partition => validateNamespace partition
  | .clearCache project => validateProject project
  | .sealCache project => validateProject project

/-- `VaultRequest::validate` (wire.rs:496-514); `size` is the length of the serialised request. -/
def VaultRequest.validate (size : VaultRequest → Nat) (request : VaultRequest) : VaultResult Unit := do
  ensure (request.version = protocolVersion) (.protocol "unsupported request version")
  validateOptional VaultApplicationContext.validate request.application
  request.action.validate
  ensure (size request ≤ maxMessageBytes) (.protocol "request is too large")

/-! ## Responses -/

inductive VaultEntryImportStatus where
  | added
  | replaced
  | keptExisting
deriving DecidableEq, Repr

inductive PermissionChange where
  | granted
  | denied
  | revoked
deriving DecidableEq, Repr

inductive PermissionWaitStatus where
  | pending
  | granted
  | denied
  | expired
deriving DecidableEq, Repr

/-- wire.rs:1088-1158. -/
inductive VaultResponseBody where
  | status (installationId : InstallationId) (deviceVaultId : VaultId) (deviceKeyId : DeviceKeyId)
    (idleDeadline absoluteDeadline : UInt64)
  | vaultEntries (page : StorePage VaultEntryMetadata)
  | vaultEntrySecret (value : Bytes) (evictAt : Option UInt64)
  | vaultEntryImported (status : VaultEntryImportStatus)
  | secret (value : Option Bytes)
  | stored
  | mutated
  | deleted (existed : Bool)
  | cleared (entries : Nat)
  | projects (page : StorePage String)
  | projectAddresses (page : StorePage SecretSpecAddress)
  | history (page : HistoryPage)
  | sealed
  | permissions (revision : UInt64) (permissions : List Permission) (nextCursor : Option String)
  | permissionChanged (status : PermissionChange)
  | permissionWait (status : PermissionWaitStatus)
deriving DecidableEq

structure VaultInteractionReference where
  id : String
  expiresAt : UInt64
deriving DecidableEq, Repr

inductive VaultResponseErrorCode where
  | invalidRequest
  | authorizationRequired
  | replay
  | sealed
  | conflict
  | internal
deriving DecidableEq, Repr

structure VaultResponseError where
  code : VaultResponseErrorCode
  message : String
  interaction : Option VaultInteractionReference
deriving DecidableEq, Repr

end FactorSeal

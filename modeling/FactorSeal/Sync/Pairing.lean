import FactorSeal.Sync.Authority

/-! # Invitations and requests (personal/sync/pairing.rs)

An invitation is a capability to ask for a place in a group, for five minutes. A request answers one: it names the reader
and endpoint to enrol, proves knowledge of the invitation's secret and carries the reader's signature. A device that has
a group of its own puts that group into the request as its origin; the consent to the merge is added to the request later
and is not part of its id.

| here | there |
| --- | --- |
| `PairingInvitation.forReader`, `ticket`, `check`, `digest` | pairing.rs:37-120 |
| `PairingRequest.id`, `origin`, `mergeApproval`, `validate`, `verify` | pairing.rs:158-254 |
| `requestPairing`, `requestGroupPairing`, `approvePairingMerge` | pairing.rs:256-318 |
| `PinnedGroup`, `PairingState` | pairing.rs:321-355 |

Left out: `from_ticket` and `decode`, which the hosts call before a command is made of their results, and the QR code. -/

namespace FactorSeal

open Wire Except

/-- pairing.rs:12-21. -/
structure PairingInvitation where
  endpoint : EndpointId
  controller : MemberId
  group : Digest
  expires : UInt64
  secret : Vector UInt8 32
deriving DecidableEq, Repr

/-- A group as it is stored: its encoding and the controller it is verified under. -/
structure PinnedGroup where
  controller : MemberId
  bytes : Bytes
deriving DecidableEq, Repr

/-- pairing.rs:121-130. -/
structure RequestBody where
  invitation : Digest
  endpoint : EndpointId
  reader : MemberPublicKeys
  name : String
  origin : Option PinnedGroup
deriving DecidableEq, Repr

/-- pairing.rs:131-141. -/
structure PairingRequest where
  body : RequestBody
  proof : Digest
  signature : Bytes
  consent : Option MergeApproval
deriving DecidableEq, Repr

/-- serde on invitations and requests. -/
structure PairingEnv extends GroupEnv where
  invitationJson : PairingInvitation → Bytes
  requestBodyJson : RequestBody → Bytes
  requestJson : PairingRequest → Bytes

variable {env : PairingEnv}

namespace PinnedGroup

def new (group : VerifiedGroup env.toGroupEnv) : PinnedGroup := ⟨group.controller, group.encode⟩

def verified (env : PairingEnv) (pinned : PinnedGroup) : VaultResult (VerifiedGroup env.toGroupEnv) :=
  VerifiedGroup.decode env.toGroupEnv pinned.bytes pinned.controller

end PinnedGroup

namespace PairingInvitation

/-- Five minutes. -/
def lifetime : Nat := 300

/-- `for_reader`; one draw for the secret. -/
def forReader (draw : Nat) (group : VerifiedGroup env.toGroupEnv) (reader : MemberId) (now : UInt64) :
    VaultResult PairingInvitation := do
  let binding ← ofOption invalidSync (group.transports.find? fun binding => binding.reader = some reader)
  ensure (now.toNat + lifetime < 2 ^ 64) invalidSync
  return ⟨binding.endpoint, group.controller, group.digest, now + 300, env.random 32 draw⟩

/-- The text a user copies from one device to the other. -/
def ticket (invitation : PairingInvitation) : String :=
  "factorseal-sync:1:" ++ String.ofList (base64Url (invitation.endpoint.toList ++ invitation.controller.toList ++
    invitation.group.toList ++ be64 invitation.expires ++ invitation.secret.toList))

/-- The invitation is for this group, now. -/
def check (invitation : PairingInvitation) (group : VerifiedGroup env.toGroupEnv) (now : UInt64) : VaultResult Unit :=
  ensure (now < invitation.expires ∧ invitation.expires.toNat - now.toNat ≤ lifetime ∧
    invitation.controller = group.controller ∧ invitation.group = group.digest ∧
    ∃ binding ∈ group.transports, binding.endpoint = invitation.endpoint ∧ binding.reader.isSome) invalidSync

def digest (env : PairingEnv) (invitation : PairingInvitation) : Digest := env.sha256 (env.invitationJson invitation)

end PairingInvitation

namespace PairingRequest

variable (env)

/-- The digest users compare and enrolments name. -/
def id (request : PairingRequest) : Digest := env.sha256 (env.requestJson { request with consent := none })

def endpoint (request : PairingRequest) : EndpointId := request.body.endpoint

def reader (request : PairingRequest) : MemberPublicKeys := request.body.reader

def name (request : PairingRequest) : String := request.body.name

/-- The group the device asking has already. -/
def origin (request : PairingRequest) : VaultResult (Option (VerifiedGroup env.toGroupEnv)) :=
  match request.body.origin with
  | none => .ok none
  | some pinned => do return some (← pinned.verified env)

/-- `merge_approval` (pairing.rs:200-213): the consent, if it is one of the origin's. -/
def mergeApproval (request : PairingRequest) (target : VerifiedGroup env.toGroupEnv) :
    VaultResult (Option MergeApproval) := do
  match ← request.origin env with
  | none => return none
  | some origin => do
    let approval ← ofOption invalidSync request.consent
    let source ← approval.verify (sourceAtDepth env.toGroupEnv (maxMergeDepth + 1)) target
    ensure (source.digest = origin.digest) invalidSync
    return some approval

def payload (request : PairingRequest) : Bytes :=
  utf8 "factorseal/sync/pairing/v1\x00" ++ env.requestBodyJson request.body

def signedPayload (request : PairingRequest) : Bytes := request.payload env ++ request.proof.toList

/-- pairing.rs:223-239. -/
def validate (request : PairingRequest) : VaultResult Unit := do
  ensure (request.body.endpoint ≠ Vector.replicate 32 0 ∧ validName request.body.name = true ∧
    request.signature.length ≤ 4096) invalidSync
  request.body.reader.validate env.toReaderCrypto
  ensure (env.verifyWith request.body.reader.signing (request.signedPayload env) request.signature = true) invalidSync

/-- pairing.rs:240-254. -/
def verify (request : PairingRequest) (invitation : PairingInvitation) (group : VerifiedGroup env.toGroupEnv)
    (now : UInt64) : VaultResult Unit := do
  invitation.check group now
  ensure (request.body.invitation = invitation.digest env) invalidSync
  ensure (env.hmac invitation.secret.toList (request.payload env) = request.proof) invalidSync
  request.validate env

/-- The proof and the signature of a request under an invitation. -/
def signed (identity : ReaderIdentity) (draw : Nat) (invitation : PairingInvitation) (body : RequestBody) :
    PairingRequest :=
  let unsigned : PairingRequest := ⟨body, Vector.replicate 32 0, [], none⟩
  let proved := { unsigned with proof := env.hmac invitation.secret.toList (unsigned.payload env) }
  { proved with signature := env.signWith identity.signingSeed draw (proved.signedPayload env) }

end PairingRequest

namespace ReaderIdentity

variable (identity : ReaderIdentity)

/-- `request_pairing`; one draw for the signature. -/
def requestPairing (draw : Nat) (invitation : PairingInvitation) (group : VerifiedGroup env.toGroupEnv)
    (endpoint : EndpointId) (name : String) (now : UInt64) : VaultResult PairingRequest := do
  invitation.check group now
  let request := PairingRequest.signed env identity draw invitation
    ⟨invitation.digest env, endpoint, identity.publicKeys env.toReaderCrypto, name, none⟩
  request.validate env
  return request

/-- `request_group_pairing`: the request of `request_pairing` with the origin in it, proved and signed again. -/
def requestGroupPairing (draw : Nat) (invitation : PairingInvitation) (target source : VerifiedGroup env.toGroupEnv)
    (endpoint : EndpointId) (name : String) (now : UInt64) : VaultResult PairingRequest := do
  ensure (∃ binding ∈ source.transports, binding.endpoint = endpoint ∧
    binding.reader = some (identity.memberId env.toReaderCrypto)) invalidSync
  let request ← identity.requestPairing draw invitation target endpoint name now
  return PairingRequest.signed env identity (draw + 1) invitation { request.body with origin := some (.new source) }

/-- `approve_pairing_merge`. -/
def approvePairingMerge (draw : Nat) (request : PairingRequest) (target : VerifiedGroup env.toGroupEnv) :
    VaultResult PairingRequest := do
  ensure (request.reader = identity.publicKeys env.toReaderCrypto) invalidSync
  let source ← ofOption invalidSync (← request.origin env)
  let approval ← identity.approveGroupMerge draw source target
  return { request with consent := some approval }

end ReaderIdentity

/-- pairing.rs:343-355. -/
structure PairingState where
  introduction : Option PinnedGroup
  group : Option PinnedGroup
  invitation : Option PairingInvitation
  staged : Option PairingRequest
  joining : Option (PairingInvitation × PairingRequest × PinnedGroup)
  approved : Option Digest
deriving DecidableEq, Repr

/-- `PairingState::default`. -/
def PairingState.empty : PairingState := ⟨none, none, none, none, none, none⟩

end FactorSeal

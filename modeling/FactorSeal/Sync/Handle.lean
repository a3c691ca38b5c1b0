import FactorSeal.Personal.Replica
import FactorSeal.Sync.Pairing

/-! # The pairing commands (vault/store/worker/sync/pairing.rs)

`handle` is one match over nine commands that read and write the same few fields: the pinned group, the introduction a
device makes of itself while it has no group, the invitation it has out, the request that came back (`staged`), the
request it has made itself (`joining`) and the last one approved. Each command is a function of its own here, over the
state and the group that was found current, and answers with the state it leaves.

A group in a command is one that has been verified: `VerifiedGroup` has no other constructor in the source. -/

namespace FactorSeal

open Wire Except

/-- `WrappedReaderIdentity` (vault/keys.rs:704-711). -/
structure WrappedReader where
  kemLeft : WrappedKey
  kemRight : WrappedKey
  signing : WrappedKey
deriving DecidableEq, Repr

abbrev PacketId := Digest

/-- document/sync.rs:18-24. -/
structure PreparedPublication where
  itemId : String
  heads : ReplicaHeads
  packet : Bytes
deriving DecidableEq, Repr

/-- document/sync.rs:35-41. -/
structure ReceivedPacket where
  packet : PacketId
  itemId : String
  heads : ReplicaHeads
deriving DecidableEq, Repr

/-- document/sync.rs:25-34. -/
structure PersonalSyncState (env : PairingEnv) where
  reader : Option WrappedReader
  pairing : PairingState
  membership : Option (Membership env.toReaderCrypto)
  prepared : Option PreparedPublication
  receipts : List ReceivedPacket
deriving DecidableEq

/-- `PersonalSyncState::default`. -/
def PersonalSyncState.empty (env : PairingEnv) : PersonalSyncState env := ⟨none, .empty, none, none, []⟩

/-- A group that went through verification. -/
abbrev TrustedGroup (env : PairingEnv) := { group : VerifiedGroup env.toGroupEnv // group.Verified }

/-- pairing.rs:7-27. -/
inductive PairingCommand (env : PairingEnv) where
  | offer (endpoint : EndpointId) (name : String)
  | initializeGroup (endpoint : EndpointId) (name : String)
  | invite
  | join (invitation : PairingInvitation) (group : TrustedGroup env) (endpoint : EndpointId) (name : String)
  | stage (request : PairingRequest)
  | approve (expected : Digest)
  | approveJoin (expected : Digest)
  | accept (group : TrustedGroup env)
  | cancel

inductive ReceiveOutcome where
  | applied
  | duplicate
  | conflict
deriving DecidableEq, Repr

/-- personal/sync/mod.rs:34-45. -/
structure SyncStatus where
  appliedPackets : Nat
  conflictPackets : Nat
  readers : Nat
  pendingPublications : Nat
  preparedPacket : Option PacketId
  conflictedItems : Nat
deriving DecidableEq, Repr

structure PairingStatus (env : PairingEnv) where
  target : Option (VerifiedGroup env.toGroupEnv)
  introduction : Option (VerifiedGroup env.toGroupEnv)
  invitation : Option PairingInvitation
  request : Option PairingRequest
  joining : Bool

/-- worker/sync.rs:38-50. -/
inductive SyncReply (env : PairingEnv) where
  | identity (keys : MemberPublicKeys)
  | group (group : VerifiedGroup env.toGroupEnv)
  | pairingStatus (status : PairingStatus env)
  | invitation (invitation : PairingInvitation)
  | pairingRequest (request : PairingRequest)
  | membership (membership : Membership env.toReaderCrypto)
  | prepared (packet : Option (Bytes × Membership env.toReaderCrypto))
  | received (outcome : ReceiveOutcome)
  | status (status : SyncStatus)
  | conflicts (heads : ReplicaHeads) (values : List (Option PersonalSecret))
  | done

/-- `not_configured` (worker/sync.rs:345-347). -/
def notConfigured : VaultError := .protocol "personal sync reader or membership is not configured"

/-- What a command answers: the reply, the state it leaves and the number of draws taken so far. -/
abbrev Handled (env : PairingEnv) := VaultResult (SyncReply env × PersonalSyncState env × Nat)

variable {env : PairingEnv}

namespace PersonalSyncState

variable (state : PersonalSyncState env)

/-- The group in force for pairing: the pinned one, or else the introduction (pairing.rs:36-42). -/
def current : VaultResult (Option (VerifiedGroup env.toGroupEnv)) :=
  match state.pairing.group.or state.pairing.introduction with
  | none => .ok none
  | some pinned => do return some (← pinned.verified env)

/-- pairing.rs:240-245. -/
def install (group : VerifiedGroup env.toGroupEnv) : PersonalSyncState env :=
  { state with
    pairing := { state.pairing with group := some (.new group), introduction := none }
    membership := some group.membership }

/-- The invitation that is out from now on; a request staged for the one before is dropped. -/
def invited (invitation : PairingInvitation) : PersonalSyncState env :=
  { state with pairing := { state.pairing with invitation := some invitation, staged := none } }

end PersonalSyncState

section

variable (state : PersonalSyncState env) (identity : ReaderIdentity) (draw : Nat)
  (current : Option (VerifiedGroup env.toGroupEnv)) (now : UInt64)

/-- `Offer`: invite to the current group, or to one made for the purpose. -/
def handleOffer (endpoint : EndpointId) (name : String) : Handled env := do
  match current with
  | some group => do
    let invitation ← PairingInvitation.forReader draw group (identity.memberId env.toReaderCrypto) now
    return (.invitation invitation, state.invited invitation, draw + 1)
  | none => do
    let group : VerifiedGroup env.toGroupEnv ← identity.createGroup draw endpoint name
    let state := { state with pairing := { state.pairing with introduction := some (.new group) } }
    let invitation ← PairingInvitation.forReader (draw + 2) group (identity.memberId env.toReaderCrypto) now
    return (.invitation invitation, state.invited invitation, draw + 3)

/-- `Initialize`. -/
def handleInitialize (endpoint : EndpointId) (name : String) : Handled env := do
  ensure (state.membership = none ∧ state.pairing.joining = none) notConfigured
  let group : VerifiedGroup env.toGroupEnv ← identity.createGroup draw endpoint name
  return (.group group, state.install group, draw + 2)

/-- `Invite`. -/
def handleInvite : Handled env := do
  let group ← ofOption notConfigured current
  ensure (identity.publicKeys env.toReaderCrypto ∈ group.membership.members) notConfigured
  match state.pairing.invitation.filter fun invitation => (invitation.check group now).isOk with
  | some invitation => return (.invitation invitation, state, draw)
  | none => do
    let invitation ← PairingInvitation.forReader draw group (identity.memberId env.toReaderCrypto) now
    return (.invitation invitation, state.invited invitation, draw + 1)

/-- The request `Join` makes: with the current group as its origin, if there is one. -/
def joinRequest (invitation : PairingInvitation) (group : VerifiedGroup env.toGroupEnv) (endpoint : EndpointId)
    (name : String) : VaultResult PairingRequest :=
  match current with
  | some source => do
    ensure ((source.acceptExtension group).isOk = false ∧ (group.acceptExtension source).isOk = false)
      (.protocol "These devices are already connected")
    identity.requestGroupPairing draw invitation group source endpoint name now
  | none => identity.requestPairing draw invitation group endpoint name now

/-- `Join`; repeating it answers with the request that was made. -/
def handleJoin (invitation : PairingInvitation) (group : VerifiedGroup env.toGroupEnv) (endpoint : EndpointId)
    (name : String) : Handled env :=
  match state.pairing.joining with
  | some (old, request, pinned) => do
    ensure (old.ticket = invitation.ticket ∧ request.endpoint = endpoint ∧ request.name = name) notConfigured
    ensure ((← pinned.verified env).digest = group.digest) notConfigured
    invitation.check group now
    return (.pairingRequest request, state, draw)
  | none => do
    let request ← joinRequest identity draw current now invitation group endpoint name
    let pairing := { state.pairing with
      invitation := none, staged := none, joining := some (invitation, request, .new group) }
    return (.pairingRequest request, { state with pairing }, draw + 2)

/-- `Stage`. -/
def handleStage (request : PairingRequest) : Handled env := do
  let group ← ofOption notConfigured current
  let invitation ← ofOption notConfigured state.pairing.invitation
  request.verify env invitation group now
  ensure (identity.publicKeys env.toReaderCrypto ∈ group.membership.members ∧ group.permits request.endpoint = false ∧
    request.reader ∉ group.membership.members) notConfigured
  ensure (∀ staged ∈ state.pairing.staged, staged.id env = request.id env) notConfigured
  return (.pairingRequest request, { state with pairing := { state.pairing with staged := some request } }, draw)

/-- The group an approval makes: the origin merged in, or the one reader added. -/
def approvedGroup (group : VerifiedGroup env.toGroupEnv) (request : PairingRequest) (expected : Digest) :
    VaultResult (VerifiedGroup env.toGroupEnv) := do
  let members := group.membership.members ++ [request.reader]
  let transports := group.transports ++
    [⟨request.endpoint, some (request.reader.id env.toReaderCrypto), request.name⟩]
  match ← request.mergeApproval env group with
  | some approval => identity.mergeGroup draw group approval expected
  | none => identity.advanceGroup draw group members transports (some expected)

/-- `Approve`. -/
def handleApprove (expected : Digest) : Handled env := do
  let group ← ofOption notConfigured current
  if state.pairing.approved = some expected then return (.group group, state, draw)
  else do
    let request ← ofOption notConfigured state.pairing.staged
    ensure (request.id env = expected) notConfigured
    let invitation ← ofOption notConfigured state.pairing.invitation
    request.verify env invitation group now
    let next ← approvedGroup identity draw group request expected
    let installed := state.install next
    let pairing := { installed.pairing with invitation := none, staged := none, approved := some expected }
    return (.group next, { installed with pairing }, draw + 1)

/-- `ApproveJoin`. -/
def handleApproveJoin (expected : Digest) : Handled env := do
  let (invitation, request, pinned) ← ofOption notConfigured state.pairing.joining
  let target ← pinned.verified env
  invitation.check target now
  ensure (request.id env = expected) notConfigured
  let source ← ofOption notConfigured current
  let origin ← ofOption notConfigured (← request.origin env)
  ensure (origin.digest = source.digest) notConfigured
  let request ← identity.approvePairingMerge draw request target
  let pairing := { state.pairing with joining := some (invitation, request, pinned) }
  return (.pairingRequest request, { state with pairing }, draw + 1)

/-- What `Accept` demands of a group while there is none: it extends the one that was asked, it enrols the request, and
it binds this reader to the endpoint in it. -/
def acceptJoined (group : VerifiedGroup env.toGroupEnv) : VaultResult Unit := do
  let (_, request, pinned) ← ofOption notConfigured state.pairing.joining
  (← pinned.verified env).acceptExtension group
  ensure (group.containsEnrollment (request.id env) = true ∧ ∃ binding ∈ group.transports,
    binding.endpoint = request.endpoint ∧ binding.reader = some (identity.memberId env.toReaderCrypto)) notConfigured

/-- The end of `Accept`. -/
def acceptGroup (group : VerifiedGroup env.toGroupEnv) : Handled env := do
  ensure (identity.publicKeys env.toReaderCrypto ∈ group.membership.members) notConfigured
  let installed := state.install group
  let pairing := { installed.pairing with joining := none, invitation := none, staged := none }
  return (.group group, { installed with pairing }, draw)

/-- `Accept`. -/
def handleAccept (group : VerifiedGroup env.toGroupEnv) : Handled env := do
  match current with
  | some current => do
    current.acceptExtension group
    if current.digest = group.digest then return (.group group, state, draw)
    else acceptGroup state identity draw group
  | none => do
    acceptJoined state identity group
    acceptGroup state identity draw group

/-- `Cancel`. -/
def handleCancel : PersonalSyncState env :=
  { state with
    pairing := { state.pairing with invitation := none, staged := none, joining := none, introduction := none } }

/-- `handle`. -/
def handle : PairingCommand env → Handled env
  | command => do
    let current ← state.current
    match command with
    | .offer endpoint name => handleOffer state identity draw current now endpoint name
    | .initializeGroup endpoint name => handleInitialize state identity draw endpoint name
    | .invite => handleInvite state identity draw current now
    | .join invitation group endpoint name => handleJoin state identity draw current now invitation group.1 endpoint name
    | .stage request => handleStage state identity draw current now request
    | .approve expected => handleApprove state identity draw current now expected
    | .approveJoin expected => handleApproveJoin state identity draw current now expected
    | .accept group => handleAccept state identity draw current group.1
    | .cancel => return (.done, handleCancel state, draw)

end

end FactorSeal

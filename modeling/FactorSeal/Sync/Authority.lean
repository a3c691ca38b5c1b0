import FactorSeal.Lib.Lineage
import FactorSeal.Sync.Identity
import Std.Data.ExtTreeSet.Lemmas

/-! # Signed groups (personal/sync/authority.rs, authority/merge.rs)

A group is a chain of certificates, one per epoch, each signed by the controller or by a reader of the epoch before. A
certificate may merge another group in: it then carries that group's chain, as bytes, with the approval one of its
readers signed. `verify_at_depth` walks the chain and through the approvals the chains inside, eight deep at most; here
the depth that is left counts down, and the loop's state is the group of the certificates that have been checked.

| here | there |
| --- | --- |
| `validateTransports`, `union` | authority.rs:258-286, merge.rs:111-134 |
| `checkCertificate`, `checkChain`, `verifyAtDepth` | the loop body, the loop and the whole of `verify_at_depth` (authority.rs:71-144) |
| `MergeApproval.verify`, `sourceAtDepth` | merge.rs:31-54 |
| `acceptExtension` | authority.rs:184-190 |
| `createGroup`, `advanceGroup`, `approveGroupMerge`, `mergeGroup` | authority.rs:196-257, merge.rs:56-109 | -/

namespace FactorSeal

open Wire Except Std

abbrev EndpointId := Vector UInt8 32

/-- authority.rs:16-23. -/
structure TransportBinding where
  endpoint : EndpointId
  reader : Option MemberId
  name : String
deriving DecidableEq, Repr

/-- merge.rs:5-16. -/
structure MergeApproval where
  sourceController : MemberId
  source : Bytes
  target : Digest
  signer : MemberId
  signature : Bytes
deriving DecidableEq, Repr

/-- `Body` (authority.rs:24-36). -/
structure GroupBody (c : ReaderCrypto) where
  version : UInt8
  controller : MemberId
  membership : Membership c
  previous : Option Digest
  transports : List TransportBinding
  enrollment : Option Digest
  signer : Option MemberId
  merge : Option MergeApproval
deriving DecidableEq

/-- authority.rs:37-43. -/
structure GroupCertificate (c : ReaderCrypto) where
  body : GroupBody c
  signature : Bytes
deriving DecidableEq

/-- serde on certificates. -/
structure GroupEnv extends ReaderCrypto where
  bodyJson : GroupBody toReaderCrypto → Bytes
  certificateJson : Codec (GroupCertificate toReaderCrypto)
  chainJson : Codec (List (GroupCertificate toReaderCrypto))
  /-- The tuple a merge approval signs: controller, digest of the source, target, signer. -/
  consentJson : MemberId × Digest × Digest × MemberId → Bytes

abbrev GroupEnv.Certificate (env : GroupEnv) := GroupCertificate env.toReaderCrypto

def maxEpochs : Nat := 64
def maxMergeDepth : Nat := 8
/-- The limit of an encoded group, 8 MiB. -/
def maxGroupBytes : Nat := 8 * 1024 * 1024

variable (env : GroupEnv)

namespace GroupCertificate

variable {env}

def digest (certificate : env.Certificate) : Digest := env.sha256 (env.certificateJson.encode certificate)

def payload (certificate : env.Certificate) : Bytes :=
  utf8 "factorseal/sync/group-certificate/v1\x00" ++ env.bodyJson certificate.body

end GroupCertificate

def MergeApproval.payload (approval : MergeApproval) : Bytes :=
  utf8 "factorseal/sync/merge-approval/v1\x00" ++
    env.consentJson (approval.sourceController, env.sha256 approval.source, approval.target, approval.signer)

/-- authority.rs:52-58: a chain, the digests of the certificates in it and in what it merged, and the requests enrolled
there. -/
structure VerifiedGroup where
  chain : List env.Certificate
  nonempty : chain ≠ []
  ancestors : ExtTreeSet Digest
  enrollments : ExtTreeSet Digest

/-! ## Transports -/

/-- `binding.name` is printable and not too long. -/
def validName (name : String) : Bool := name ≠ "" && name.utf8ByteSize ≤ 80 && !name.toList.any fun ch =>
  ch.toNat < 0x20 || (0x7f ≤ ch.toNat && ch.toNat ≤ 0x9f)

/-- The loop of `validate_transports`; the readers it has met. -/
def checkBindings {c : ReaderCrypto} (membership : Membership c) : List EndpointId → List MemberId →
    List TransportBinding → VaultResult (List MemberId)
  | _, readers, [] => .ok readers
  | endpoints, readers, binding :: rest => do
    ensure (binding.endpoint ≠ Vector.replicate 32 0 ∧ binding.endpoint ∉ endpoints ∧ validName binding.name = true)
      invalidSync
    match binding.reader with
    | none => checkBindings membership (binding.endpoint :: endpoints) readers rest
    | some reader => do
      let _ ← membership.member reader
      ensure (reader ∉ readers) invalidSync
      checkBindings membership (binding.endpoint :: endpoints) (reader :: readers) rest

def validateTransports {c : ReaderCrypto} (membership : Membership c) (transports : List TransportBinding) :
    VaultResult Unit := do
  ensure (transports ≠ [] ∧ transports.length ≤ 32) invalidSync
  let readers ← checkBindings membership [] [] transports
  ensure (readers.length = membership.members.length) invalidSync

/-- `transports.sort_by_key(|binding| binding.endpoint)`. -/
def sortTransports (transports : List TransportBinding) : List TransportBinding :=
  transports.insertionSort fun a b => (compare a.endpoint b.endpoint).isLE

/-! ## Groups -/

namespace VerifiedGroup

variable {env} (group : VerifiedGroup env)

def current : env.Certificate := group.chain.getLast group.nonempty

def membership : Membership env.toReaderCrypto := group.current.body.membership

def controller : MemberId := group.current.body.controller

def transports : List TransportBinding := group.current.body.transports

def digest : Digest := group.current.digest

/-- authority.rs:177-182. -/
def permits (endpoint : EndpointId) : Bool := group.transports.any fun binding => binding.endpoint = endpoint

/-- authority.rs:184-190. -/
def acceptExtension (incoming : VerifiedGroup env) : VaultResult Unit :=
  ensure (group.digest ∈ incoming.ancestors) invalidSync

/-- authority.rs:191-193. -/
def containsEnrollment (request : Digest) : Bool := request ∈ group.enrollments

def encode : Bytes := env.chainJson.encode group.chain

end VerifiedGroup

/-- The loop of `union` over the readers of the source. -/
def addMembers (c : ReaderCrypto) : List MemberPublicKeys → List MemberPublicKeys → VaultResult (List MemberPublicKeys)
  | members, [] => .ok members
  | members, member :: rest => do
    ensure (¬ ∃ old ∈ members, old.id c = member.id c) invalidSync
    addMembers c (members ++ [member]) rest

/-- merge.rs:111-134. -/
def union {env : GroupEnv} (target source : VerifiedGroup env) :
    VaultResult (List MemberPublicKeys × List TransportBinding) := do
  ensure (target.membership.group ≠ source.membership.group) invalidSync
  let members ← addMembers env.toReaderCrypto target.membership.members source.membership.members
  let membership ← Membership.new env.toReaderCrypto target.membership.group 1 members
  let transports := sortTransports (target.transports ++ source.transports)
  validateTransports membership transports
  return (membership.members, transports)

/-! ## Verification -/

/-- What verifies the source of an approval, one level deeper. -/
abbrev SourceAt := MergeApproval → VaultResult (VerifiedGroup env)

/-- merge.rs:41-54. -/
def MergeApproval.verify {env : GroupEnv} (approval : MergeApproval) (sourceAt : SourceAt env)
    (target : VerifiedGroup env) : VaultResult (VerifiedGroup env) := do
  let source ← sourceAt approval
  ensure (approval.target = target.digest ∧ approval.signature.length ≤ 4096) invalidSync
  let signer ← source.membership.member approval.signer
  ensure (env.verifyWith signer.signing (approval.payload env) approval.signature = true) .signature
  let _ ← union target source
  return source

section

variable {env} (sourceAt : SourceAt env) (trusted : MemberId) (first : GroupBody env.toReaderCrypto)
  (controller : MemberPublicKeys)

/-- Who has to have signed a certificate (authority.rs:104-117). -/
def certificateSigner (done : Option (VerifiedGroup env)) (body : GroupBody env.toReaderCrypto) :
    VaultResult MemberPublicKeys :=
  if body.version = 1 then do
    ensure (body.signer = none ∧ body.merge = none) invalidSync
    return controller
  else do
    let prior ← ofOption invalidSync done
    let signer ← ofOption invalidSync body.signer
    prior.membership.member signer

/-- The group a certificate merges in, if it does (authority.rs:123-136). -/
def mergedSource (done : Option (VerifiedGroup env)) (body : GroupBody env.toReaderCrypto) :
    VaultResult (Option (VerifiedGroup env)) :=
  match body.merge with
  | none => .ok none
  | some approval => do
    let target ← ofOption invalidSync done
    let source ← approval.verify sourceAt target
    let (members, transports) ← union target source
    ensure (body.membership.members = members ∧ body.transports = transports) invalidSync
    return some source

/-- The digests and requests of a group that may not be there. -/
def ancestorsOf (group : Option (VerifiedGroup env)) : ExtTreeSet Digest := (group.map VerifiedGroup.ancestors).getD ∅

def enrollmentsOf (group : Option (VerifiedGroup env)) : ExtTreeSet Digest :=
  (group.map VerifiedGroup.enrollments).getD ∅

/-- The certificates checked so far. -/
def chainOf (group : Option (VerifiedGroup env)) : List env.Certificate := (group.map VerifiedGroup.chain).getD []

/-- The group with one more certificate at its end. -/
def addCertificate (done source : Option (VerifiedGroup env)) (certificate : env.Certificate) : VerifiedGroup env where
  chain := chainOf done ++ [certificate]
  nonempty := by simp
  ancestors := ((ancestorsOf done).insertMany (ancestorsOf source).toList).insert certificate.digest
  enrollments := ((enrollmentsOf done).insertMany (enrollmentsOf source).toList).insertMany
    certificate.body.enrollment.toList

/-- The body of the loop over the chain. -/
def checkCertificate (done : Option (VerifiedGroup env)) (certificate : env.Certificate) :
    VaultResult (VerifiedGroup env) := do
  let body := certificate.body
  ensure ((body.version = 1 ∨ body.version = 2) ∧ body.controller = trusted ∧
    body.previous = done.map VerifiedGroup.digest ∧ body.membership.group = first.membership.group ∧
    body.membership.epoch.toNat = (chainOf done).length + 1) invalidSync
  let own ← body.membership.member trusted
  ensure (own = controller) invalidSync
  validateTransports body.membership body.transports
  let signer ← certificateSigner controller done body
  ensure (env.verifyWith signer.signing certificate.payload certificate.signature = true) .signature
  let source ← mergedSource sourceAt done body
  return addCertificate done source certificate

def checkChain : Option (VerifiedGroup env) → List env.Certificate → VaultResult (Option (VerifiedGroup env))
  | done, [] => .ok done
  | done, certificate :: rest => do
    let next ← checkCertificate sourceAt trusted first controller done certificate
    checkChain (some next) rest

end

/-- `verify_at_depth`; the first argument is `MAX_MERGE_DEPTH + 1 - depth`. -/
def verifyAtDepth : Nat → List env.Certificate → MemberId → VaultResult (VerifiedGroup env)
  | 0, _, _ => .error invalidSync
  | remaining + 1, chain, trusted => do
    ensure (chain.length ≤ maxEpochs ∧ (env.chainJson.encode chain).length ≤ maxGroupBytes) invalidSync
    let first ← ofOption invalidSync chain.head?
    ensure (first.body.controller = trusted) invalidSync
    let controller ← first.body.membership.member trusted
    let sourceAt : SourceAt env := fun approval => do
      ensure (approval.source.length ≤ maxGroupBytes) invalidSync
      let source ← ofOption invalidSync (env.chainJson.decode approval.source).toOption
      verifyAtDepth remaining source approval.sourceController
    let group ← checkChain sourceAt trusted first.body controller none chain
    ofOption invalidSync group

/-- `source_at_depth` (merge.rs:31-40). -/
def sourceAtDepth (remaining : Nat) (approval : MergeApproval) : VaultResult (VerifiedGroup env) := do
  ensure (approval.source.length ≤ maxGroupBytes) invalidSync
  let source ← ofOption invalidSync (env.chainJson.decode approval.source).toOption
  verifyAtDepth env remaining source approval.sourceController

namespace VerifiedGroup

/-- `verify` (authority.rs:68-70). -/
def verify (chain : List env.Certificate) (trusted : MemberId) : VaultResult (VerifiedGroup env) :=
  verifyAtDepth env (maxMergeDepth + 1) chain trusted

/-- `decode` (authority.rs:145-153). -/
def decode (bytes : Bytes) (trusted : MemberId) : VaultResult (VerifiedGroup env) := do
  ensure (bytes.length ≤ maxGroupBytes) invalidSync
  let chain ← ofOption invalidSync (env.chainJson.decode bytes).toOption
  verify env chain trusted

variable {env}

/-- The group is what `verify` made of its chain. -/
def Verified (group : VerifiedGroup env) : Prop := ∃ trusted, verify env group.chain trusted = .ok group

end VerifiedGroup

/-! ## Signing (authority.rs:196-257, merge.rs:56-109) -/

namespace ReaderIdentity

variable {env} (identity : ReaderIdentity)

/-- `sign_group`; one draw. -/
def signGroup (draw : Nat) (body : GroupBody env.toReaderCrypto) : VaultResult env.Certificate := do
  validateTransports body.membership body.transports
  let unsigned : env.Certificate := ⟨body, []⟩
  return ⟨body, env.signWith identity.signingSeed draw unsigned.payload⟩

/-- `create_group`: a draw for the group's id and one for the signature. -/
def createGroup (draw : Nat) (endpoint : EndpointId) (name : String) : VaultResult (VerifiedGroup env) := do
  let membership ← Membership.new env.toReaderCrypto (env.random 16 draw) 1 [identity.publicKeys env.toReaderCrypto]
  let id := identity.memberId env.toReaderCrypto
  let certificate ← identity.signGroup (draw + 1)
    ⟨1, id, membership, none, [⟨endpoint, some id, name⟩], none, none, none⟩
  VerifiedGroup.verify env [certificate] id

/-- `checked_add(1)` on the epoch. -/
def nextEpoch (epoch : UInt64) : VaultResult UInt64 := do
  ensure (epoch.toNat + 1 < 2 ^ 64) invalidSync
  return epoch + 1

/-- The end of `advance_group` and `merge_group`: the group with one more certificate signed by this reader. -/
def extendGroup (draw : Nat) (group : VerifiedGroup env) (members : List MemberPublicKeys)
    (transports : List TransportBinding) (enrollment : Option Digest) (merge : Option MergeApproval) :
    VaultResult (VerifiedGroup env) := do
  let epoch ← nextEpoch group.membership.epoch
  let membership ← Membership.new env.toReaderCrypto group.membership.group epoch members
  let certificate ← identity.signGroup draw
    ⟨2, group.controller, membership, some group.digest, transports, enrollment, some (identity.memberId env.toReaderCrypto),
      merge⟩
  VerifiedGroup.verify env (group.chain ++ [certificate]) group.controller

/-- `advance_group`. -/
def advanceGroup (draw : Nat) (group : VerifiedGroup env) (members : List MemberPublicKeys)
    (transports : List TransportBinding) (enrollment : Option Digest) : VaultResult (VerifiedGroup env) := do
  let _ ← group.membership.member (identity.memberId env.toReaderCrypto)
  identity.extendGroup draw group members (sortTransports transports) enrollment none

/-- `approve_group_merge`. -/
def approveGroupMerge (draw : Nat) (source target : VerifiedGroup env) : VaultResult MergeApproval := do
  let _ ← source.membership.member (identity.memberId env.toReaderCrypto)
  let _ ← union target source
  let unsigned : MergeApproval :=
    ⟨source.controller, source.encode, target.digest, identity.memberId env.toReaderCrypto, []⟩
  return { unsigned with signature := env.signWith identity.signingSeed draw (unsigned.payload env) }

/-- `merge_group`. -/
def mergeGroup (draw : Nat) (target : VerifiedGroup env) (approval : MergeApproval) (enrollment : Digest) :
    VaultResult (VerifiedGroup env) := do
  let _ ← target.membership.member (identity.memberId env.toReaderCrypto)
  let source ← approval.verify (sourceAtDepth env maxMergeDepth) target
  let (members, transports) ← union target source
  identity.extendGroup draw target members transports (some enrollment) (some approval)

end ReaderIdentity

end FactorSeal

import FactorSeal.Sync.Install
import FactorSeal.Sync.Instance

/-! # What an approval enrols

A user approves the request they have reviewed. Without an origin the approval adds the reader of the request, at its
endpoint. With an origin it merges the group that consented, and nothing compares the request's own reader and endpoint
with that group: `request_group_pairing` sees to it when a device asks, but `verify` does not when a request comes in.

* `approve_enrolls_iff` — the reviewed reader is enrolled at the reviewed endpoint exactly when the origin, or the current
  group, has them already.
* `approve_without_reader` — a request that is approved and whose reader is not enrolled. -/

namespace FactorSeal

open Wire Except VerifiedGroup Reference

variable {env : PairingEnv}

/-- The group lets the reader in at the endpoint. -/
def VerifiedGroup.Binds {env : GroupEnv} (group : VerifiedGroup env) (endpoint : EndpointId) (reader : MemberId) : Prop :=
  ∃ binding ∈ group.transports, binding.endpoint = endpoint ∧ binding.reader = some reader

/-- The heads whose digests are compared: the origin's and that of the group that consented. -/
def PairingRequest.hashed (env : PairingEnv) (request : PairingRequest) : Set Bytes :=
  { bytes | ∃ group : VerifiedGroup env.toGroupEnv, env.certificateJson.encode group.current = bytes ∧
    (request.origin env = .ok (some group) ∨
      ∃ approval ∈ request.consent, sourceAtDepth env.toGroupEnv (maxMergeDepth + 1) approval = .ok group) }

/-- What has been reviewed is what will be enrolled: of a request that is approved a second time the current group has
the reader at the endpoint, and of one with an origin the current group or the origin does. -/
def PersonalSyncState.Reviewed (state : PersonalSyncState env) (request : PairingRequest) : Prop :=
  ∀ group, state.current = .ok (some group) →
    if state.pairing.approved = some (request.id env) then
      request.reader ∈ group.membership.members ∧
        group.Binds request.endpoint (request.reader.id env.toReaderCrypto)
    else ∀ origin, request.origin env = .ok (some origin) →
      (request.reader ∈ group.membership.members ∨ request.reader ∈ origin.membership.members) ∧
        (group.Binds request.endpoint (request.reader.id env.toReaderCrypto) ∨
          origin.Binds request.endpoint (request.reader.id env.toReaderCrypto))

/-- The reader of a request is enrolled at its endpoint, and everyone else was in the current group or in the origin. -/
structure Enrolls (state : PersonalSyncState env) (request : PairingRequest) (next : VerifiedGroup env.toGroupEnv) :
    Prop where
  reader : request.reader ∈ next.membership.members
  bound : next.Binds request.endpoint (request.reader.id env.toReaderCrypto)
  others : ∀ keys ∈ next.membership.members, keys ≠ request.reader →
    ∃ group, (state.current = .ok (some group) ∨ request.origin env = .ok (some group)) ∧ keys ∈ group.membership.members

/-- Of a merge: the group that consented is the origin. -/
theorem Approved.merged {identity : ReaderIdentity} {target next : VerifiedGroup env.toGroupEnv}
    {request : PairingRequest} (h : Approved identity target request next)
    (hinj : Set.InjOn env.sha256 (request.hashed env)) {origin : VerifiedGroup env.toGroupEnv}
    (horigin : request.origin env = .ok (some origin)) :
    (∀ keys, keys ∈ next.membership.members ↔
      keys ∈ target.membership.members ∨ keys ∈ origin.membership.members) ∧
    ∀ binding, binding ∈ next.transports ↔ binding ∈ target.transports ∨ binding ∈ origin.transports := by
  rcases h.enrolled with ⟨hnone, -⟩ | ⟨approval, found, source, hconsent, hfound, hdigest, hsource, hmembers, htransports⟩
  · rw [hnone] at horigin
    cases horigin
  · rw [hfound] at horigin
    cases horigin
    have hcurrent : source.current = origin.current := injOn_digest hinj
      ⟨source, rfl, .inr ⟨approval, hconsent, hsource⟩⟩ ⟨origin, rfl, .inl hfound⟩ hdigest
    constructor
    · intro keys
      rw [hmembers, (eq_of_current hcurrent).1]
    · intro binding
      rw [htransports, (eq_of_current hcurrent).2]

theorem VerifiedGroup.binds_iff_of_transports {env : GroupEnv} {a b next : VerifiedGroup env}
    (h : ∀ binding, binding ∈ next.transports ↔ binding ∈ a.transports ∨ binding ∈ b.transports) (endpoint : EndpointId)
    (reader : MemberId) : next.Binds endpoint reader ↔ a.Binds endpoint reader ∨ b.Binds endpoint reader := by
  simp only [Binds, h, or_and_right, exists_or]

/-- **An approval enrols the reviewed reader exactly when the groups that are joined have it.** -/
theorem approve_enrolls_iff {state state' : PersonalSyncState env} {identity : ReaderIdentity} {draw draw' : Nat}
    {now : UInt64} {request : PairingRequest} {next : VerifiedGroup env.toGroupEnv}
    (hstaged : state.pairing.staged = some request) (hinj : Set.InjOn env.sha256 (request.hashed env))
    (h : handle state identity draw now (.approve (request.id env)) = .ok (.group next, state', draw')) :
    Enrolls state request next ↔ state.Reviewed request := by
  simp only [handle, bind_eq_ok] at h
  obtain ⟨current, hcurrent, h⟩ := h
  rcases handleApprove_eq_ok h with ⟨group, rfl, happroved, hreply, -⟩ |
    ⟨group, staged, invitation, made, rfl, happroved, hstaged', -, -, -, hmade, hreply, -⟩
  · -- the request was approved before: the answer is the current group
    cases hreply
    have hiff : state.Reviewed request ↔ request.reader ∈ next.membership.members ∧
        next.Binds request.endpoint (request.reader.id env.toReaderCrypto) := by
      simp [PersonalSyncState.Reviewed, hcurrent, happroved]
    rw [hiff]
    constructor
    · intro h
      exact ⟨h.reader, h.bound⟩
    · rintro ⟨hreader, hbound⟩
      exact ⟨hreader, hbound, fun keys hkeys _ => ⟨next, .inl hcurrent, hkeys⟩⟩
  · cases hreply
    rw [hstaged] at hstaged'
    cases hstaged'
    have happ := approvedGroup_eq_ok hmade
    have hiff : state.Reviewed request ↔ ∀ origin, request.origin env = .ok (some origin) →
        (request.reader ∈ group.membership.members ∨ request.reader ∈ origin.membership.members) ∧
          (group.Binds request.endpoint (request.reader.id env.toReaderCrypto) ∨
            origin.Binds request.endpoint (request.reader.id env.toReaderCrypto)) := by
      simp [PersonalSyncState.Reviewed, hcurrent, happroved]
    rw [hiff]
    constructor
    · intro henrolls origin horigin
      obtain ⟨hmembers, htransports⟩ := happ.merged hinj horigin
      exact ⟨(hmembers _).1 henrolls.reader, (binds_iff_of_transports htransports _ _).1 henrolls.bound⟩
    · intro hreviewed
      rcases happ.enrolled with ⟨horigin, hmembers, htransports⟩ | ⟨approval, origin, source, -, horigin, -⟩
      · -- no origin: the reader itself is added
        refine ⟨(hmembers _).2 (.inr rfl), ⟨_, (htransports _).2 (.inr rfl), rfl, rfl⟩, fun keys hkeys hne => ?_⟩
        rcases (hmembers keys).1 hkeys with hkeys | rfl
        · exact ⟨group, .inl hcurrent, hkeys⟩
        · exact absurd rfl hne
      · obtain ⟨hmembers, htransports⟩ := happ.merged hinj horigin
        obtain ⟨hreader, hbound⟩ := hreviewed origin horigin
        refine ⟨(hmembers _).2 hreader, (binds_iff_of_transports htransports _ _).2 hbound,
          fun keys hkeys _ => ?_⟩
        rcases (hmembers keys).1 hkeys with hkeys | hkeys
        · exact ⟨group, .inl hcurrent, hkeys⟩
        · exact ⟨origin, .inr horigin, hkeys⟩

/-! ### The laptop is asked to let a device in -/

namespace Reference

def tablet : ReaderIdentity := ⟨Vector.replicate 64 10, Vector.replicate 32 11⟩

/-- The laptop has made a group and has an invitation to it out. -/
def invited : VaultResult (PersonalSyncState referencePairing × VerifiedGroup referenceGroups × PairingInvitation) := do
  let (_, state, draw) ← handle (.empty referencePairing) laptop 1 10
    (.initializeGroup (Vector.replicate 32 9) "Laptop")
  let (_, state, _) ← handle state laptop draw 10 .invite
  let group ← ofOption notConfigured (← state.current)
  return (state, group, ← ofOption notConfigured state.pairing.invitation)

/-- The laptop stages a request and approves it; the state before the approval and the group it answers with. -/
def review (state : PersonalSyncState referencePairing) (request : PairingRequest) :
    VaultResult (PersonalSyncState referencePairing × VerifiedGroup referenceGroups) := do
  let (_, state, _) ← handle state laptop 4 10 (.stage request)
  match ← handle state laptop 4 10 (.approve (request.id referencePairing)) with
  | (.group next, _, _) => return (state, next)
  | _ => .error notConfigured

theorem review_eq_ok {state staged : PersonalSyncState referencePairing} {request : PairingRequest}
    {next : VerifiedGroup referenceGroups} (h : review state request = .ok (staged, next)) :
    staged.pairing.staged = some request ∧ ∃ state' draw,
      handle staged laptop 4 10 (.approve (request.id referencePairing)) = .ok (.group next, state', draw) := by
  simp only [review, bind_eq_ok] at h
  obtain ⟨⟨reply, state', draw⟩, hstage, ⟨answer, after, draw'⟩, happrove, h⟩ := h
  have hstaged : state'.pairing.staged = some request := by
    simp only [handle, bind_eq_ok] at hstage
    obtain ⟨current, -, hstage⟩ := hstage
    obtain ⟨group, invitation, -, -, -, rfl⟩ := handleStage_eq_ok hstage
    rfl
  cases answer with
  | group made =>
    cases h
    exact ⟨hstaged, after, draw', happrove⟩
  | _ => cases h

/-- The phone asks for a place of its own. -/
def phoneRequest (group : VerifiedGroup referenceGroups) (invitation : PairingInvitation) : VaultResult PairingRequest :=
  @ReaderIdentity.requestPairing referencePairing phone 20 invitation group (Vector.replicate 32 12) "Phone" 10

/-- The tablet asks in the name of the phone's group, with the phone's consent. It is not in that group itself. -/
def tabletRequest (group : VerifiedGroup referenceGroups) (invitation : PairingInvitation) : VaultResult PairingRequest := do
  let origin : VerifiedGroup referenceGroups ← phone.createGroup 20 (Vector.replicate 32 12) "Phone"
  let consent ← phone.approveGroupMerge 22 origin group
  let request := PairingRequest.signed referencePairing tablet 23 invitation ⟨invitation.digest referencePairing,
    Vector.replicate 32 13, tablet.publicKeys referenceReader, "Tablet",
    some (@PinnedGroup.new referencePairing origin)⟩
  return { request with consent := some consent }

end Reference

/-- The phone is enrolled. -/
theorem approve_enrolls_phone : ∃ (state : PersonalSyncState referencePairing) (request : PairingRequest)
    (next : VerifiedGroup referenceGroups), request.reader = Reference.phone.publicKeys referenceReader ∧
      state.pairing.staged = some request ∧ Enrolls state request next := by
  have hrun : (do
      let (state, group, invitation) ← invited
      let request ← phoneRequest group invitation
      let (staged, next) ← review state request
      ensure (request.reader = Reference.phone.publicKeys referenceReader ∧ request.body.origin = none ∧
        request.consent = none ∧ staged.pairing.approved = none) invalidSync
      return (staged, request, next)).isOk = true := by decide +kernel
  obtain ⟨result, hrun⟩ := exists_of_isOk hrun
  simp only [bind_eq_ok, ensure_eq_ok] at hrun
  obtain ⟨⟨state, group, invitation⟩, -, request, -, ⟨staged, next⟩, hreview, ⟨⟩, ⟨hreader, horigin, hconsent, happroved⟩,
    -⟩ := hrun
  obtain ⟨hstaged, state', draw, happrove⟩ := review_eq_ok hreview
  have hnone : request.origin referencePairing = .ok none := by rw [PairingRequest.origin, horigin]
  refine ⟨staged, request, next, hreader, hstaged, (approve_enrolls_iff hstaged ?_ happrove).2 ?_⟩
  · rintro _ ⟨a, rfl, ha | ⟨approval, ha, -⟩⟩
    · rw [hnone] at ha
      cases ha
    · rw [hconsent] at ha
      cases ha
  · intro current hcurrent
    rw [happroved, if_neg (by simp), hnone]
    intro origin h
    cases h

/-- **A reviewed reader that is not enrolled.** The tablet's request is staged and approved; what is merged is the
phone's group, and the tablet is not in it. -/
theorem approve_without_reader : ∃ (state state' : PersonalSyncState referencePairing) (request : PairingRequest)
    (next : VerifiedGroup referenceGroups) (draw : Nat), state.pairing.staged = some request ∧
      handle state Reference.laptop 4 10 (.approve (request.id referencePairing)) = .ok (.group next, state', draw) ∧
      request.reader ∉ next.membership.members := by
  have hrun : (do
      let (state, group, invitation) ← invited
      let request ← tabletRequest group invitation
      let (staged, next) ← review state request
      ensure (request.reader ∉ next.membership.members) invalidSync
      return (staged, request, next)).isOk = true := by decide +kernel
  obtain ⟨result, hrun⟩ := exists_of_isOk hrun
  simp only [bind_eq_ok, ensure_eq_ok] at hrun
  obtain ⟨⟨state, group, invitation⟩, -, request, -, ⟨staged, next⟩, hreview, ⟨⟩, hreader, -⟩ := hrun
  obtain ⟨hstaged, state', draw, happrove⟩ := review_eq_ok hreview
  exact ⟨staged, state', request, next, draw, hstaged, happrove, hreader⟩

end FactorSeal

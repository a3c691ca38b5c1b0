import FactorSeal.Sync.Extension
import FactorSeal.Sync.Handle

/-! # Which groups a pairing command installs

Three commands put a group in force: `Initialize` one the device makes, `Approve` the current one with the staged request
in it, `Accept` one that came in. `Installed` says for each what is known of the group; everything proved later about
runs of commands starts from `handle_eq_ok`, which says what any command can do to the group, the membership, the
introduction and the request the device has made. -/

namespace FactorSeal

open Wire Except Std VerifiedGroup ReaderIdentity List Membership

variable {approval : MergeApproval}

/-! ## Groups made here -/

section

variable {env : GroupEnv} {group next : VerifiedGroup env} {chain : List env.Certificate} {trusted : MemberId}
  {members : List MemberPublicKeys} {transports : List TransportBinding}

theorem VerifiedGroup.Verified.of_verify
    (h : verify env chain trusted = .ok group) : group.Verified ∧ group.chain = chain := by
  obtain ⟨rfl, -⟩ := checked_verifyAtDepth h
  exact ⟨⟨trusted, h⟩, rfl⟩

/-- The certificate at the end of a chain is the one in force. -/
theorem VerifiedGroup.current_of_chain (chain : List env.Certificate) {c : env.Certificate}
    (h : group.chain = chain ++ [c]) : group.current = c := by
  have hlast := group.getLast?_chain
  rw [h, getLast?_concat] at hlast
  exact (Option.some.inj hlast).symm

/-- Membership and transports are those of the head. -/
theorem VerifiedGroup.eq_of_current {a b : VerifiedGroup env} (h : a.current = b.current) :
    a.membership = b.membership ∧ a.transports = b.transports := by
  unfold membership transports
  rw [h]
  exact ⟨rfl, rfl⟩

/-- Every certificate of a chain that is being checked names the trusted controller. -/
theorem controller_of_checkChain {sourceAt : SourceAt env} {first : GroupBody env.toReaderCrypto}
    {controller : MemberPublicKeys} {done result : Option (VerifiedGroup env)}
    (h : checkChain sourceAt trusted first controller done chain = .ok result) :
    ∀ c ∈ chain, c.body.controller = trusted := by
  induction chain generalizing done with
  | nil => simp
  | cons c rest ih =>
    simp only [checkChain, bind_eq_ok] at h
    obtain ⟨next, hnext, h⟩ := h
    intro x hx
    rcases mem_cons.1 hx with rfl | hx
    · exact (checkCertificate_eq_ok hnext).1
    · exact ih h x hx

/-- A group is verified under its own controller, and its encoding is within the limit. -/
theorem VerifiedGroup.Verified.verify (h : group.Verified) :
    verify env group.chain group.controller = .ok group ∧ group.encode.length ≤ maxGroupBytes := by
  obtain ⟨trusted, h⟩ := h
  have hverify := h
  unfold VerifiedGroup.verify at h
  simp only [verifyAtDepth_succ, bind_eq_ok, ensure_eq_ok, ofOption_eq_ok] at h
  obtain ⟨⟨⟩, ⟨-, hlength⟩, first, -, ⟨⟩, -, controller, -, result, hcheck, -⟩ := h
  have hcontroller : group.controller = trusted :=
    controller_of_checkChain hcheck _ (getLast_mem group.nonempty)
  rw [hcontroller]
  exact ⟨hverify, hlength⟩

theorem VerifiedGroup.Verified.decode (h : group.Verified) :
    decode env group.encode group.controller = .ok group := by
  obtain ⟨hverify, hlength⟩ := h.verify
  simp only [VerifiedGroup.decode, bind_eq_ok, ofOption_eq_ok]
  refine ⟨(), ensure_of hlength, group.chain, ?_, hverify⟩
  rw [encode, env.chainJson.decode_encode]
  rfl

/-- What `advance_group` and `merge_group` make of a group. -/
theorem ReaderIdentity.extendGroup_eq_ok {identity : ReaderIdentity} {draw : Nat}
    {enrollment : Option Digest} {merge : Option MergeApproval}
    (h : identity.extendGroup draw group members transports enrollment merge = .ok next) :
    ∃ c, next.Verified ∧ next.chain = group.chain ++ [c] ∧
      next.membership.members = sortMembers env.toReaderCrypto members ∧
      next.membership.group = group.membership.group ∧
      next.membership.epoch.toNat = group.membership.epoch.toNat + 1 ∧ next.transports = transports ∧
      env.verifyWith (env.signingKey identity.signingSeed) c.payload c.signature = true ∧ c.body.merge = merge := by
  simp only [extendGroup, nextEpoch, signGroup, bind_eq_ok, ensure_eq_ok] at h
  obtain ⟨epoch, ⟨⟨⟩, hroom, hepoch⟩, membership, hnew, certificate, ⟨⟨⟩, -, hcertificate⟩, h⟩ := h
  cases hepoch
  cases hcertificate
  obtain ⟨hverified, hchain⟩ := Verified.of_verify h
  obtain ⟨hgroup, hepoch, hmembers⟩ := new_eq_ok hnew
  have hcurrent := current_of_chain _ hchain
  refine ⟨_, hverified, hchain, ?_, ?_, ?_, ?_, env.verifyWith_signWith _ _ _, rfl⟩
  · rw [VerifiedGroup.membership, hcurrent]
    exact hmembers
  · rw [VerifiedGroup.membership, hcurrent]
    exact hgroup
  · rw [VerifiedGroup.membership, hcurrent, hepoch, UInt64.toNat_add]
    exact Nat.mod_eq_of_lt hroom
  · rw [VerifiedGroup.transports, hcurrent]

/-- A chain that goes on from another extends it. -/
theorem VerifiedGroup.acceptExtension_of_chain (hnext : next.Verified) {c : env.Certificate}
    (hchain : next.chain = group.chain ++ [c]) : group.acceptExtension next = .ok () := by
  obtain ⟨remaining, controller, hchecked⟩ := hnext.checked
  rw [acceptExtension, ensure_eq_ok, hchecked.ancestors]
  refine ⟨group.current, ⟨next.chain, .refl _, ?_⟩, rfl⟩
  rw [hchain]
  exact mem_append_left _ (getLast_mem group.nonempty)

/-- The group a device makes of itself. -/
theorem ReaderIdentity.createGroup_eq_ok {identity : ReaderIdentity} {draw : Nat} {endpoint : EndpointId} {name : String}
    (h : identity.createGroup draw endpoint name = .ok group) :
    ∃ c, group.Verified ∧ group.chain = [c] ∧
      group.membership.members = [identity.publicKeys env.toReaderCrypto] ∧
      env.verifyWith (env.signingKey identity.signingSeed) c.payload c.signature = true := by
  simp only [createGroup, signGroup, bind_eq_ok] at h
  obtain ⟨membership, hnew, certificate, ⟨⟨⟩, -, hcertificate⟩, h⟩ := h
  cases hcertificate
  obtain ⟨hverified, hchain⟩ := Verified.of_verify h
  obtain ⟨-, -, hmembers⟩ := new_eq_ok hnew
  refine ⟨_, hverified, hchain, ?_, env.verifyWith_signWith _ _ _⟩
  rw [VerifiedGroup.membership, VerifiedGroup.current_of_chain [] hchain]
  exact hmembers

/-- The readers of both groups, if no fingerprint is in both. -/
theorem addMembers_eq_ok {c : ReaderCrypto} {rest result : List MemberPublicKeys}
    (hmembers : (members.map (MemberPublicKeys.id c)).Nodup) : addMembers c members rest = .ok result ↔
      result = members ++ rest ∧ ((members ++ rest).map (MemberPublicKeys.id c)).Nodup := by
  induction rest generalizing members with
  | nil => simp [addMembers, hmembers, eq_comm]
  | cons keys rest ih =>
    simp only [addMembers, bind_eq_ok, ensure_eq_ok]
    constructor
    · rintro ⟨⟨⟩, hfresh, h⟩
      rw [ih (by simpa [nodup_append, hmembers] using hfresh), append_assoc] at h
      exact h
    · rintro ⟨rfl, hnodup⟩
      rw [append_cons] at hnodup
      have hbefore : ((members ++ [keys]).map (MemberPublicKeys.id c)).Nodup := by
        rw [map_append] at hnodup
        exact hnodup.of_append_left
      exact ⟨(), by simpa [nodup_append, hmembers] using hbefore, (ih hbefore).2 ⟨append_cons .., hnodup⟩⟩

theorem union_eq_ok {target source : VerifiedGroup env} (h : union target source = .ok (members, transports)) :
    (∀ keys, keys ∈ members ↔ keys ∈ target.membership.members ∨ keys ∈ source.membership.members) ∧
      ∀ binding, binding ∈ transports ↔ binding ∈ target.transports ∨ binding ∈ source.transports := by
  simp only [union, bind_eq_ok] at h
  obtain ⟨⟨⟩, -, added, hadd, membership, hnew, ⟨⟩, -, h⟩ := h
  cases h
  obtain ⟨-, -, hmembers⟩ := new_eq_ok hnew
  obtain ⟨rfl, -⟩ := (addMembers_eq_ok target.membership.valid.nodup).1 hadd
  refine ⟨fun keys => ?_, fun binding => ?_⟩
  · rw [hmembers, mem_sortMembers, mem_append]
  · rw [sortTransports, (perm_insertionSort _ _).mem_iff, mem_append]

end

/-! ## Stored groups -/

variable {env : PairingEnv} {state state' : PersonalSyncState env} {identity : ReaderIdentity} {draw draw' : Nat}
  {now : UInt64} {reply : SyncReply env}

/-- A verified group that is stored comes back. -/
theorem PinnedGroup.verified_new {group : VerifiedGroup env.toGroupEnv} (h : group.Verified) :
    (PinnedGroup.new group).verified env = .ok group :=
  h.decode

namespace PersonalSyncState

/-- The stored group that is in force for pairing. -/
theorem current_eq_some {group : VerifiedGroup env.toGroupEnv} (h : state.current = .ok (some group)) :
    ∃ pinned, state.pairing.group.or state.pairing.introduction = some pinned ∧ pinned.verified env = .ok group := by
  unfold current at h
  split at h
  · cases h
  · simp only [bind_eq_ok] at h
    obtain ⟨verified, hverified, h⟩ := h
    cases h
    exact ⟨_, ‹_›, hverified⟩

theorem current_eq_none (h : state.current = .ok none) :
    state.pairing.group = none ∧ state.pairing.introduction = none := by
  unfold current at h
  split at h
  next hnone => simpa [Option.or_eq_none_iff] using hnone
  next =>
    simp only [bind_eq_ok] at h
    obtain ⟨verified, -, h⟩ := h
    cases h

end PersonalSyncState

/-! ## Approvals -/

theorem MergeApproval.verify_eq_ok {env : GroupEnv} {sourceAt : SourceAt env}
    {target source : VerifiedGroup env} (h : approval.verify sourceAt target = .ok source) :
    sourceAt approval = .ok source := by
  simp only [MergeApproval.verify, bind_eq_ok] at h
  obtain ⟨_, hsource, ⟨⟩, -, signer, -, ⟨⟩, -, united, -, h⟩ := h
  cases h
  exact hsource

/-- The source of an approval is one group, at whatever depth it is verified. -/
theorem current_of_sourceAtDepth {env : GroupEnv} {m n : Nat} {a b : VerifiedGroup env}
    (ha : sourceAtDepth env m approval = .ok a) (hb : sourceAtDepth env n approval = .ok b) : a.current = b.current := by
  obtain ⟨hdecode, -⟩ := sourcesChecked env m approval a ha
  obtain ⟨hdecode', -⟩ := sourcesChecked env n approval b hb
  have hchain : a.chain = b.chain := Option.some.inj (hdecode.symm.trans hdecode')
  have hlast := a.getLast?_chain
  rw [hchain, b.getLast?_chain] at hlast
  exact (Option.some.inj hlast).symm

/-- The consent in a request is to a merge with its origin, as far as heads tell. -/
theorem PairingRequest.mergeApproval_eq_ok {request : PairingRequest} {target : VerifiedGroup env.toGroupEnv}
    {consent : Option MergeApproval} (h : request.mergeApproval env target = .ok consent) :
    (consent = none ∧ request.origin env = .ok none) ∨ ∃ approval origin source, consent = some approval ∧
      request.consent = some approval ∧ request.origin env = .ok (some origin) ∧ source.digest = origin.digest ∧
      sourceAtDepth env.toGroupEnv (maxMergeDepth + 1) approval = .ok source := by
  simp only [mergeApproval, bind_eq_ok] at h
  obtain ⟨origin, horigin, h⟩ := h
  cases origin with
  | none =>
    cases h
    exact .inl ⟨rfl, horigin⟩
  | some origin =>
    simp only [bind_eq_ok, ensure_eq_ok, ofOption_eq_ok] at h
    obtain ⟨approval, hconsent, source, hsource, ⟨⟩, hdigest, h⟩ := h
    cases h
    exact .inr ⟨approval, origin, source, rfl, hconsent, horigin, hdigest, MergeApproval.verify_eq_ok hsource⟩

/-- What an approval makes of the group: one more certificate, signed here, and in it the readers and endpoints of the
group with the reader of the request, or with those of a group that has the origin's head. -/
structure Approved (identity : ReaderIdentity) (target : VerifiedGroup env.toGroupEnv) (request : PairingRequest)
    (next : VerifiedGroup env.toGroupEnv) : Prop where
  verified : next.Verified
  chain : ∃ c, next.chain = target.chain ++ [c] ∧
    env.verifyWith (env.signingKey identity.signingSeed) c.payload c.signature = true
  group : next.membership.group = target.membership.group
  epoch : next.membership.epoch.toNat = target.membership.epoch.toNat + 1
  enrolled : (request.origin env = .ok none ∧
      (∀ keys, keys ∈ next.membership.members ↔ keys ∈ target.membership.members ∨ keys = request.reader) ∧
      ∀ binding, binding ∈ next.transports ↔ binding ∈ target.transports ∨
        binding = ⟨request.endpoint, some (request.reader.id env.toReaderCrypto), request.name⟩) ∨
    ∃ approval, ∃ origin source : VerifiedGroup env.toGroupEnv, request.consent = some approval ∧
      request.origin env = .ok (some origin) ∧ source.digest = origin.digest ∧
      sourceAtDepth env.toGroupEnv (maxMergeDepth + 1) approval = .ok source ∧
      (∀ keys, keys ∈ next.membership.members ↔
        keys ∈ target.membership.members ∨ keys ∈ source.membership.members) ∧
      ∀ binding, binding ∈ next.transports ↔ binding ∈ target.transports ∨ binding ∈ source.transports

theorem approvedGroup_eq_ok {group next : VerifiedGroup env.toGroupEnv} {request : PairingRequest} {expected : Digest}
    (h : approvedGroup identity draw group request expected = .ok next) : Approved identity group request next := by
  simp only [approvedGroup, bind_eq_ok] at h
  obtain ⟨consent, happroval, h⟩ := h
  rcases PairingRequest.mergeApproval_eq_ok happroval with
    ⟨rfl, horigin⟩ | ⟨approval, origin, source, rfl, hconsent, horigin, hdigest, hsource⟩
  · simp only [advanceGroup, bind_eq_ok] at h
    obtain ⟨own, -, h⟩ := h
    obtain ⟨c, hverified, hchain, hmembers, hgroup, hepoch, htransports, hsigned, -⟩ := extendGroup_eq_ok h
    refine ⟨hverified, ⟨c, hchain, hsigned⟩, hgroup, hepoch, .inl ⟨horigin, fun keys => ?_, fun binding => ?_⟩⟩
    · rw [hmembers, mem_sortMembers, mem_append, mem_singleton]
    · rw [htransports, sortTransports, (perm_insertionSort _ _).mem_iff, mem_append, mem_singleton]
  · simp only [mergeGroup, bind_eq_ok] at h
    obtain ⟨own, -, merged, hmerged, ⟨members, transports⟩, hunion, h⟩ := h
    obtain ⟨c, hverified, hchain, hmembers, hgroup, hepoch, htransports, hsigned, -⟩ := extendGroup_eq_ok h
    -- the source is verified twice, and both times it is the chain the approval carries
    have hcurrent := current_of_sourceAtDepth (MergeApproval.verify_eq_ok hmerged) hsource
    obtain ⟨hmember, hbinding⟩ := union_eq_ok hunion
    refine ⟨hverified, ⟨c, hchain, hsigned⟩, hgroup, hepoch, .inr ⟨approval, origin, source, hconsent, horigin, hdigest,
      hsource, fun keys => ?_, fun binding => ?_⟩⟩
    · rw [hmembers, mem_sortMembers, hmember, (eq_of_current hcurrent).1]
    · rw [htransports, hbinding, (eq_of_current hcurrent).2]

/-- The commands that put a group in force, with what they have checked of it. -/
inductive Installed (state : PersonalSyncState env) (identity : ReaderIdentity) :
    PairingCommand env → VerifiedGroup env.toGroupEnv → Prop
  | initialized {draw : Nat} {endpoint : EndpointId} {name : String} {group : VerifiedGroup env.toGroupEnv} :
    state.membership = none → state.pairing.joining = none → identity.createGroup draw endpoint name = .ok group →
    Installed state identity (.initializeGroup endpoint name) group
  | approved {target next : VerifiedGroup env.toGroupEnv} {request : PairingRequest} {expected : Digest} :
    state.current = .ok (some target) → state.pairing.staged = some request → request.id env = expected →
    Approved identity target request next → Installed state identity (.approve expected) next
  | accepted {current : Option (VerifiedGroup env.toGroupEnv)} {group : TrustedGroup env} :
    state.current = .ok current →
    (∀ pinned ∈ current, pinned.acceptExtension group.1 = .ok () ∧ pinned.digest ≠ group.1.digest) →
    (current = none → acceptJoined state identity group.1 = .ok ()) →
    identity.publicKeys env.toReaderCrypto ∈ group.1.membership.members →
    Installed state identity (.accept group) group.1

theorem Installed.verified {command : PairingCommand env} {group : VerifiedGroup env.toGroupEnv}
    (h : Installed state identity command group) : group.Verified := by
  cases h with
  | initialized _ _ hcreate =>
    obtain ⟨c, hverified, -⟩ := createGroup_eq_ok hcreate
    exact hverified
  | approved _ _ _ h => exact h.verified
  | accepted _ _ _ _ => exact Subtype.property _

/-- What a command does to the fields that matter to later commands. -/
structure HandleStep (state : PersonalSyncState env) (identity : ReaderIdentity) (command : PairingCommand env)
    (state' : PersonalSyncState env) : Prop where
  reader : state'.reader = state.reader
  group : (state'.pairing.group = state.pairing.group ∧ state'.membership = state.membership) ∨
    ∃ next, Installed state identity command next ∧ state'.pairing.group = some (.new next) ∧
      state'.membership = some next.membership ∧ state'.pairing.introduction = none
  introduction : state'.pairing.introduction = state.pairing.introduction ∨ state'.pairing.introduction = none ∨
    ∃ endpoint name draw, ∃ group : VerifiedGroup env.toGroupEnv, command = .offer endpoint name ∧
      state.current = .ok none ∧ identity.createGroup draw endpoint name = .ok group ∧
      state'.pairing.introduction = some (.new group)
  joining : state'.pairing.joining = state.pairing.joining ∨ state'.pairing.joining = none ∨
    (∃ invitation group endpoint name, ∃ draw current now request, command = .join invitation group endpoint name ∧
      state.pairing.joining = none ∧ state.current = .ok current ∧
      joinRequest identity draw current now invitation group.1 endpoint name = .ok request ∧
      state'.pairing.joining = some (invitation, request, .new group.1)) ∨
    ∃ expected invitation request pinned approval, command = .approveJoin expected ∧
      state.pairing.joining = some (invitation, request, pinned) ∧
      state'.pairing.joining = some (invitation, { request with consent := some approval }, pinned)
  staged : state'.pairing.staged = state.pairing.staged ∨ state'.pairing.staged = none ∨
    ∃ request, command = .stage request ∧ state'.pairing.staged = some request

/-! ## The commands -/

section

variable {current : Option (VerifiedGroup env.toGroupEnv)} {endpoint : EndpointId} {name : String}
  {group : TrustedGroup env} {expected : Digest}

/-- A fresh introduction is made where there is no group at all. -/
theorem step_handleOffer (hcurrent : state.current = .ok current)
    (h : handleOffer state identity draw current now endpoint name = .ok (reply, state', draw')) :
    HandleStep state identity (.offer endpoint name) state' := by
  unfold handleOffer at h
  split at h
  · simp only [bind_eq_ok] at h
    obtain ⟨invitation, -, h⟩ := h
    cases h
    exact ⟨rfl, .inl ⟨rfl, rfl⟩, .inl rfl, .inl rfl, .inr (.inl rfl)⟩
  · simp only [bind_eq_ok] at h
    obtain ⟨group, hgroup, invitation, -, h⟩ := h
    cases h
    exact ⟨rfl, .inl ⟨rfl, rfl⟩, .inr (.inr ⟨endpoint, name, draw, group, rfl, hcurrent, hgroup, rfl⟩), .inl rfl,
      .inr (.inl rfl)⟩

theorem step_handleJoin {invitation : PairingInvitation} (hcurrent : state.current = .ok current)
    (h : handleJoin state identity draw current now invitation group.1 endpoint name = .ok (reply, state', draw')) :
    HandleStep state identity (.join invitation group endpoint name) state' := by
  unfold handleJoin at h
  split at h
  · simp only [bind_eq_ok] at h
    obtain ⟨⟨⟩, -, verified, -, ⟨⟩, -, ⟨⟩, -, h⟩ := h
    cases h
    exact ⟨rfl, .inl ⟨rfl, rfl⟩, .inl rfl, .inl rfl, .inl rfl⟩
  · simp only [bind_eq_ok] at h
    obtain ⟨request, hrequest, h⟩ := h
    cases h
    exact ⟨rfl, .inl ⟨rfl, rfl⟩, .inl rfl, .inr (.inr (.inl ⟨invitation, group, endpoint, name, draw, current, now, request,
      rfl, ‹_›, hcurrent, hrequest, rfl⟩)), .inr (.inl rfl)⟩

theorem handleStage_eq_ok {request : PairingRequest}
    (h : handleStage state identity draw current now request = .ok (reply, state', draw')) :
    ∃ group invitation, current = some group ∧ state.pairing.invitation = some invitation ∧
      request.verify env invitation group now = .ok () ∧
      state' = { state with pairing := { state.pairing with staged := some request } } := by
  simp only [handleStage, bind_eq_ok, ofOption_eq_ok] at h
  obtain ⟨group, hgroup, invitation, hinvitation, ⟨⟩, hverify, ⟨⟩, -, ⟨⟩, -, h⟩ := h
  cases h
  exact ⟨group, invitation, hgroup, hinvitation, hverify, rfl⟩

theorem handleApprove_eq_ok (h : handleApprove state identity draw current now expected = .ok (reply, state', draw')) :
    (∃ group, current = some group ∧ state.pairing.approved = some expected ∧ reply = .group group ∧ state' = state) ∨
      ∃ group request invitation next, current = some group ∧ state.pairing.approved ≠ some expected ∧
        state.pairing.staged = some request ∧
        request.id env = expected ∧ state.pairing.invitation = some invitation ∧
        request.verify env invitation group now = .ok () ∧ approvedGroup identity draw group request expected = .ok next ∧
        reply = .group next ∧
        state' = { state.install next with
          pairing := { (state.install next).pairing with
            invitation := none, staged := none, approved := some expected } } := by
  simp only [handleApprove, bind_eq_ok, ofOption_eq_ok] at h
  obtain ⟨group, hgroup, h⟩ := h
  split at h
  · cases h
    exact .inl ⟨group, hgroup, ‹_›, rfl, rfl⟩
  · simp only [bind_eq_ok, ofOption_eq_ok, ensure_eq_ok] at h
    obtain ⟨request, hrequest, ⟨⟩, hid, invitation, hinvitation, ⟨⟩, hverify, next, hnext, h⟩ := h
    cases h
    exact .inr ⟨group, request, invitation, next, hgroup, ‹_›, hrequest, hid, hinvitation, hverify, hnext, rfl, rfl⟩

theorem step_handleApproveJoin
    (h : handleApproveJoin state identity draw current now expected = .ok (reply, state', draw')) :
    HandleStep state identity (.approveJoin expected) state' := by
  simp only [handleApproveJoin, bind_eq_ok, ofOption_eq_ok, approvePairingMerge] at h
  obtain ⟨⟨invitation, request, pinned⟩, hjoining, target, -, ⟨⟩, -, ⟨⟩, -, source, -, origin, -, found, -, ⟨⟩, -, consented,
    ⟨⟨⟩, -, _, -, merged, -, approval, -, hconsented⟩, h⟩ := h
  cases hconsented
  cases h
  exact ⟨rfl, .inl ⟨rfl, rfl⟩, .inl rfl,
    .inr (.inr (.inr ⟨expected, invitation, request, pinned, approval, rfl, hjoining, rfl⟩)), .inl rfl⟩

theorem acceptJoined_eq_ok {group : VerifiedGroup env.toGroupEnv} (h : acceptJoined state identity group = .ok ()) :
    ∃ invitation request pinned target, state.pairing.joining = some (invitation, request, pinned) ∧
      pinned.verified env = .ok target ∧ target.acceptExtension group = .ok () ∧
      group.containsEnrollment (request.id env) = true ∧ ∃ binding ∈ group.transports,
        binding.endpoint = request.endpoint ∧ binding.reader = some (identity.memberId env.toReaderCrypto) := by
  simp only [acceptJoined, bind_eq_ok, ofOption_eq_ok, ensure_eq_ok] at h
  obtain ⟨⟨invitation, request, pinned⟩, hjoining, target, htarget, ⟨⟩, haccept, henrolled, hbinding⟩ := h
  exact ⟨invitation, request, pinned, target, hjoining, htarget, haccept, henrolled, hbinding⟩

theorem step_handleAccept (hcurrent : state.current = .ok current)
    (h : handleAccept state identity draw current group.1 = .ok (reply, state', draw')) :
    HandleStep state identity (.accept group) state' := by
  unfold handleAccept at h
  split at h
  next pinned =>
    simp only [bind_eq_ok] at h
    obtain ⟨⟨⟩, haccept, h⟩ := h
    split at h
    · cases h
      exact ⟨rfl, .inl ⟨rfl, rfl⟩, .inl rfl, .inl rfl, .inl rfl⟩
    · simp only [acceptGroup, bind_eq_ok, ensure_eq_ok] at h
      obtain ⟨⟨⟩, hown, h⟩ := h
      cases h
      have hinstalled : Installed state identity (.accept group) group.1 :=
        .accepted hcurrent (fun p hp => by cases hp; exact ⟨haccept, ‹_›⟩) (fun hnone => by cases hnone) hown
      exact ⟨rfl, .inr ⟨group.1, hinstalled, rfl, rfl, rfl⟩, .inr (.inl rfl), .inr (.inl rfl), .inr (.inl rfl)⟩
  next =>
    simp only [acceptGroup, bind_eq_ok, ensure_eq_ok] at h
    obtain ⟨⟨⟩, hjoined, ⟨⟩, hown, h⟩ := h
    cases h
    have hinstalled : Installed state identity (.accept group) group.1 :=
      .accepted hcurrent (fun p hp => by cases hp) (fun _ => hjoined) hown
    exact ⟨rfl, .inr ⟨group.1, hinstalled, rfl, rfl, rfl⟩, .inr (.inl rfl), .inr (.inl rfl), .inr (.inl rfl)⟩

end

/-- Every command that succeeds makes such a step. -/
theorem handle_eq_ok {command : PairingCommand env}
    (h : handle state identity draw now command = .ok (reply, state', draw')) :
    HandleStep state identity command state' := by
  simp only [handle, bind_eq_ok] at h
  obtain ⟨current, hcurrent, h⟩ := h
  cases command with
  | offer endpoint name => exact step_handleOffer hcurrent h
  | initializeGroup endpoint name =>
    simp only [handleInitialize, bind_eq_ok, ensure_eq_ok] at h
    obtain ⟨⟨⟩, ⟨hmembership, hjoining⟩, group, hgroup, h⟩ := h
    cases h
    exact ⟨rfl, .inr ⟨group, .initialized hmembership hjoining hgroup, rfl, rfl, rfl⟩, .inr (.inl rfl), .inl rfl, .inl rfl⟩
  | invite =>
    simp only [handleInvite, bind_eq_ok] at h
    obtain ⟨group, -, ⟨⟩, -, h⟩ := h
    split at h
    · cases h
      exact ⟨rfl, .inl ⟨rfl, rfl⟩, .inl rfl, .inl rfl, .inl rfl⟩
    · simp only [bind_eq_ok] at h
      obtain ⟨invitation, -, h⟩ := h
      cases h
      exact ⟨rfl, .inl ⟨rfl, rfl⟩, .inl rfl, .inl rfl, .inr (.inl rfl)⟩
  | join invitation group endpoint name => exact step_handleJoin hcurrent h
  | stage request =>
    obtain ⟨group, invitation, -, -, -, rfl⟩ := handleStage_eq_ok h
    exact ⟨rfl, .inl ⟨rfl, rfl⟩, .inl rfl, .inl rfl, .inr (.inr ⟨request, rfl, rfl⟩)⟩
  | approve expected =>
    rcases handleApprove_eq_ok h with ⟨group, -, -, -, rfl⟩ |
      ⟨group, request, invitation, next, rfl, -, hstaged, hid, -, -, hnext, -, rfl⟩
    · exact ⟨rfl, .inl ⟨rfl, rfl⟩, .inl rfl, .inl rfl, .inl rfl⟩
    · exact ⟨rfl, .inr ⟨next, .approved hcurrent hstaged hid (approvedGroup_eq_ok hnext), rfl, rfl, rfl⟩,
        .inr (.inl rfl), .inl rfl, .inr (.inl rfl)⟩
  | approveJoin expected => exact step_handleApproveJoin h
  | accept group => exact step_handleAccept hcurrent h
  | cancel =>
    cases h
    exact ⟨rfl, .inl ⟨rfl, rfl⟩, .inr (.inl rfl), .inr (.inl rfl), .inr (.inl rfl)⟩

end FactorSeal

import FactorSeal.Sync.Approval
import FactorSeal.Sync.Lifecycle

/-! # No group without this device's consent

A device without a pinned group takes one that it makes, that it signs on from its own introduction, that extends the
introduction, or that answers a request it has made. The introduction, the request and a staged request are all dropped
by a cancel, so whatever is installed goes back to events after the last one that went through.

* `install_consented` — the four ways, with what is known of the group in each. -/

namespace FactorSeal

open Wire Except Std Links PersonalVault Reference PinnedGroup

variable {env : SyncEnv} {device : Device}

/-- A certificate of the group, or an approval in one, verifies under the key. -/
def VerifiedGroup.Carries {env : GroupEnv} (group : VerifiedGroup env) (key : Bytes) : Prop :=
  (∃ c, (groupLinks env).Ancestor group.chain c ∧ env.verifyWith key c.payload c.signature = true) ∨
    ∃ c approval, (groupLinks env).Ancestor group.chain c ∧ c.body.merge = some approval ∧
      env.verifyWith key (approval.payload env) approval.signature = true

/-- A group that extends an introduction of this device carries another signature of it. -/
theorem VerifiedGroup.carries_of_acceptExtension {env : GroupEnv} {introduction group : VerifiedGroup env}
    {keys : MemberPublicKeys} (hgroup : group.Verified)
    (hinj : Set.InjOn env.sha256 (introduction.hashed ∪ group.hashed)) (hmembers : introduction.membership.members = [keys])
    (haccept : introduction.acceptExtension group = .ok ()) (hne : introduction.digest ≠ group.digest) :
    group.Carries keys.signing := by
  rcases VerifiedGroup.signature_of_acceptExtension hgroup hinj haccept hne with
    ⟨chain, pre, c, post, hembeds, rfl, -, reader, hreader, hverify⟩ |
    ⟨c, approval, remaining, source, hc, hmerge, -, -, reader, hreader, hverify⟩
  · rw [hmembers, List.mem_singleton] at hreader
    subst hreader
    exact .inl ⟨c, ⟨_, hembeds, by simp⟩, hverify⟩
  · rw [hmembers, List.mem_singleton] at hreader
    subst hreader
    exact .inr ⟨c, approval, hc, hmerge, hverify⟩

/-- The request a device makes is in its own name. -/
theorem joinRequest_eq_ok {env : PairingEnv} {identity : ReaderIdentity} {draw : Nat}
    {current : Option (VerifiedGroup env.toGroupEnv)} {now : UInt64} {invitation : PairingInvitation}
    {group : VerifiedGroup env.toGroupEnv} {endpoint : EndpointId} {name : String} {request : PairingRequest}
    (h : joinRequest identity draw current now invitation group endpoint name = .ok request) :
    request.endpoint = endpoint ∧ request.reader = identity.publicKeys env.toReaderCrypto := by
  unfold joinRequest at h
  split at h
  · simp only [ReaderIdentity.requestGroupPairing, ReaderIdentity.requestPairing, bind_eq_ok] at h
    obtain ⟨⟨⟩, -, ⟨⟩, -, made, ⟨⟨⟩, -, ⟨⟩, -, hmade⟩, h⟩ := h
    cases hmade
    cases h
    exact ⟨rfl, rfl⟩
  · simp only [ReaderIdentity.requestPairing, bind_eq_ok] at h
    obtain ⟨⟨⟩, -, ⟨⟩, -, h⟩ := h
    cases h
    exact ⟨rfl, rfl⟩

/-! ## Where the pairing state comes from -/

section

variable {state state' : PersonalSyncState env.toPairingEnv} {event : PersonalEvent env}

/-- The reader is made once. -/
theorem SyncStep.own {identity : ReaderIdentity} (h : SyncStep env device state event state')
    (hown : state.Own device identity) : state'.Own device identity := by
  cases h with
  | quiet hreader _ _ => exact hown.of_reader hreader
  | identified hnone _ =>
    obtain ⟨wrapped, hwrapped, -⟩ := hown
    rw [hnone] at hwrapped
    cases hwrapped
  | configured => exact hown
  | handled hsame _ hhandle hreader _ _ =>
    obtain ⟨wrapped, hwrapped, hidentity⟩ := hown
    refine ⟨wrapped, hreader.trans (hhandle.reader.trans ?_), hidentity⟩
    rw [hsame wrapped hwrapped]

/-- An introduction comes from an offer. -/
theorem SyncStep.introduced {pinned : PinnedGroup} (h : SyncStep env device state event state')
    (hbefore : state.pairing.introduction ≠ some pinned) (hafter : state'.pairing.introduction = some pinned) :
    ∃ now endpoint name, event = .sync now (.pairing (.offer endpoint name)) := by
  cases h with
  | quiet _ hpairing _ =>
    rw [hpairing] at hafter
    exact absurd hafter hbefore
  | identified => exact absurd hafter hbefore
  | configured => exact absurd hafter hbefore
  | handled _ _ hhandle _ hpairing _ =>
    rw [hpairing] at hafter
    rcases hhandle.introduction with hsame | hnone | ⟨endpoint, name, draw, made, rfl, -⟩
    · rw [hsame] at hafter
      exact absurd hafter hbefore
    · rw [hnone] at hafter
      cases hafter
    · exact ⟨_, endpoint, name, rfl⟩

/-- A staged request comes from being staged. -/
theorem SyncStep.staged {request : PairingRequest} (h : SyncStep env device state event state')
    (hbefore : state.pairing.staged ≠ some request) (hafter : state'.pairing.staged = some request) :
    ∃ now, event = .sync now (.pairing (.stage request)) := by
  cases h with
  | quiet _ hpairing _ =>
    rw [hpairing] at hafter
    exact absurd hafter hbefore
  | identified => exact absurd hafter hbefore
  | configured => exact absurd hafter hbefore
  | handled _ _ hhandle _ hpairing _ =>
    rw [hpairing] at hafter
    rcases hhandle.staged with hsame | hnone | ⟨staged, rfl, hstaged⟩
    · rw [hsame] at hafter
      exact absurd hafter hbefore
    · rw [hnone] at hafter
      cases hafter
    · rw [hstaged] at hafter
      cases hafter
      exact ⟨_, rfl⟩

/-- The sync state waits for an answer to the request, whatever consent has been added to it. -/
def PersonalSyncState.Awaits (state : PersonalSyncState env.toPairingEnv) (request : PairingRequest) (target : PinnedGroup) :
    Prop :=
  ∃ invitation made, state.pairing.joining = some (invitation, made, target) ∧
    { made with consent := none } = { request with consent := none }

/-- A request the device waits for an answer to comes from a join. -/
theorem SyncStep.joined {request : PairingRequest} {target : PinnedGroup} (h : SyncStep env device state event state')
    (hbefore : ¬ state.Awaits request target) (hafter : state'.Awaits request target) :
    ∃ now invitation group endpoint name identity, event = .sync now (.pairing (.join invitation group endpoint name)) ∧
      target = .new group.1 ∧ state'.Own device identity ∧ request.endpoint = endpoint ∧
      request.reader = identity.publicKeys env.toReaderCrypto := by
  obtain ⟨invitation, made, hjoining, hmade⟩ := hafter
  cases h with
  | quiet _ hpairing _ =>
    rw [hpairing] at hjoining
    exact absurd ⟨invitation, made, hjoining, hmade⟩ hbefore
  | identified => exact absurd ⟨invitation, made, hjoining, hmade⟩ hbefore
  | configured => exact absurd ⟨invitation, made, hjoining, hmade⟩ hbefore
  | @handled now command wrapped identity next _ _ hidentity hhandle hreader hpairing _ =>
    rw [hpairing] at hjoining
    rcases hhandle.joining with hsame | hnone | ⟨asked, group, endpoint, name, draw, current, asking, created, rfl, -, -,
      hcreated, hnext⟩ | ⟨expected, asked, created, pinned, approval, -, hold, hnext⟩
    · rw [hsame] at hjoining
      exact absurd ⟨invitation, made, hjoining, hmade⟩ hbefore
    · rw [hnone] at hjoining
      cases hjoining
    · rw [hnext] at hjoining
      cases hjoining
      obtain ⟨hendpoint, hkeys⟩ := joinRequest_eq_ok hcreated
      obtain ⟨hbody, -⟩ := PairingRequest.mk.inj hmade
      refine ⟨now, invitation, group, endpoint, name, identity, rfl, rfl, ⟨wrapped, hreader.trans hhandle.reader, hidentity⟩, ?_,
        ?_⟩
      · rw [PairingRequest.endpoint, ← hbody]
        exact hendpoint
      · rw [PairingRequest.reader, ← hbody]
        exact hkeys
    · -- a consent is added to the request that is there
      rw [hnext] at hjoining
      cases hjoining
      exact absurd ⟨invitation, created, hold, hmade⟩ hbefore

end

namespace PersonalVault

variable {v : PersonalVault} {events : List (PersonalEvent env)} {state : PersonalSyncState env.toPairingEnv}

/-- The event comes after `pre` in the run, and no cancel has gone through since. -/
def Uncancelled (device : Device) (v : PersonalVault) (events pre : List (PersonalEvent env)) (event : PersonalEvent env) :
    Prop :=
  ∃ post, events = pre ++ event :: post ∧ ∀ mid now rest v', post = mid ++ .sync now (.pairing .cancel) :: rest →
    step env device ((process env device).run v (pre ++ event :: mid)) (.sync now (.pairing .cancel)) ≠ .ok v'

/-- Something in the pairing state that a cancel drops came up at an event since the last cancel. -/
theorem exists_uncancelled {R : PersonalSyncState env.toPairingEnv → Prop}
    (hR : ∀ state, state.pairing.introduction = none → state.pairing.joining = none → state.pairing.staged = none → ¬ R state)
    (hstart : v.Unconfigured env) (hstate : ((process env device).run v events).document.syncState env = .ok state)
    (h : R state) : ∃ pre event before after, Uncancelled device v events pre event ∧
      ((process env device).run v pre).document.syncState env = .ok before ∧
      ((process env device).run v (pre ++ [event])).document.syncState env = .ok after ∧
      SyncStep env device before event after ∧ ¬ R before ∧ R after := by
  have h₀ : ¬ ∃ state, v.document.syncState env = .ok state ∧ R state := by
    rintro ⟨found, hfound, hRfound⟩
    rw [hstart] at hfound
    cases hfound
    exact hR _ rfl rfl rfl hRfound
  obtain ⟨pre, event, post, rfl, hbefore, hlast⟩ :=
    Process.exists_start (Q := fun v : PersonalVault => ∃ state, v.document.syncState env = .ok state ∧ R state) h₀
      ⟨state, hstate, h⟩
  obtain ⟨before, after, hpre, hafter, -, hsync⟩ := run_concat_sync device hstart pre event
  refine ⟨pre, event, before, after, ⟨post, rfl, ?_⟩, hpre, hafter, hsync, fun hRbefore => hbefore ⟨before, hpre, hRbefore⟩, ?_⟩
  · intro mid now rest v' hpost hcancel
    obtain ⟨found, hfound, -⟩ := hlast mid _ hpost
    obtain ⟨dropped, hdropped, hintroduction, hjoining, hstaged⟩ := step_cancel hfound hcancel
    obtain ⟨kept, hkept, hRkept⟩ := hlast (mid ++ [.sync now (.pairing .cancel)]) rest (by rw [hpost]; simp)
    have hrun : (process env device).run v (pre ++ event :: (mid ++ [.sync now (.pairing .cancel)])) = v' := by
      rw [← List.cons_append, ← List.append_assoc, Process.run_concat]
      exact Process.next_of_ok hcancel
    rw [hrun, hdropped] at hkept
    cases hkept
    exact hR _ hintroduction hjoining hstaged hRkept
  · obtain ⟨found, hfound, hRfound⟩ := hlast [] post rfl
    rw [hafter] at hfound
    cases hfound
    exact hRfound

/-- The reader of a vault stays. -/
theorem own_run {pre post : List (PersonalEvent env)} {before after : PersonalSyncState env.toPairingEnv}
    {identity : ReaderIdentity} (hbefore : ((process env device).run v pre).document.syncState env = .ok before)
    (hown : before.Own device identity)
    (hafter : ((process env device).run v (pre ++ post)).document.syncState env = .ok after) :
    after.Own device identity := by
  have hrun : ∃ state, ((process env device).run v (pre ++ post)).document.syncState env = .ok state ∧
      state.Own device identity := by
    rw [Process.run_append]
    refine Process.run_invariant
      (P := fun v : PersonalVault => ∃ state, v.document.syncState env = .ok state ∧ state.Own device identity)
      (K := fun _ _ => True) ⟨before, hbefore, hown⟩ ?_ fun _ _ _ _ => trivial
    rintro t event t' ⟨state, hstate, hown⟩ - hstep
    obtain ⟨state', hstate', hsync⟩ := step_sync hstate hstep
    exact ⟨state', hstate', hsync.own hown⟩
  obtain ⟨found, hfound, hown'⟩ := hrun
  rw [hafter] at hfound
  cases hfound
  exact hown'

/-- The introduction a vault keeps. -/
def Introduced (env : SyncEnv) (v : PersonalVault) (group : VerifiedGroup env.toGroupEnv) : Prop :=
  ∃ state pinned, v.document.syncState env = .ok state ∧ state.pairing.introduction = some pinned ∧
    pinned.verified env.toPairingEnv = .ok group

/-- The group goes on from an introduction offered since the last cancel. -/
def Offered (device : Device) (v : PersonalVault) (events : List (PersonalEvent env))
    (group : VerifiedGroup env.toGroupEnv) : Prop :=
  ∃ pre now endpoint name introduction, Uncancelled device v events pre (.sync now (.pairing (.offer endpoint name))) ∧
    ((process env device).run v (pre ++ [.sync now (.pairing (.offer endpoint name))])).Introduced env introduction ∧
    introduction.acceptExtension group = .ok ()

/-- The request was staged since the last cancel. -/
def Staged (device : Device) (v : PersonalVault) (events : List (PersonalEvent env)) (id : Digest) : Prop :=
  ∃ pre now request, Uncancelled device v events pre (.sync now (.pairing (.stage request))) ∧
    request.id env.toPairingEnv = id

/-- The group answers a request the device has made since the last cancel: it has the request's digest, extends the group
it was made for and lets the device in at the endpoint it names. -/
def Requested (device : Device) (v : PersonalVault) (events : List (PersonalEvent env)) (identity : ReaderIdentity)
    (group : VerifiedGroup env.toGroupEnv) : Prop :=
  ∃ pre now invitation target endpoint name state request,
    Uncancelled device v events pre (.sync now (.pairing (.join invitation target endpoint name))) ∧
    ((process env device).run v (pre ++ [.sync now (.pairing (.join invitation target endpoint name))])).document.syncState
      env = .ok state ∧
    state.Awaits request (.new target.1) ∧ request.reader = identity.publicKeys env.toReaderCrypto ∧
    request.endpoint = endpoint ∧ group.containsEnrollment (request.id env.toPairingEnv) = true ∧
    target.1.acceptExtension group = .ok () ∧ group.Binds endpoint (identity.memberId env.toReaderCrypto)

section

variable (hstart : v.Unconfigured env) (hstate : ((process env device).run v events).document.syncState env = .ok state)

include hstart hstate

/-- An introduction that is there at the end of a run was offered since the last cancel. -/
theorem offered_of_introduction {introduction group : VerifiedGroup env.toGroupEnv}
    (hintroduction : state.pairing.introduction = some (.new introduction)) (hverified : introduction.Verified)
    (haccept : introduction.acceptExtension group = .ok ()) : Offered device v events group := by
  obtain ⟨pre, event, before, after, huncancelled, -, hafter, hsync, hbefore, hoffered⟩ :=
    exists_uncancelled (R := fun state => state.pairing.introduction = some (.new introduction))
      (fun state hnone _ _ h => by rw [hnone] at h; cases h) hstart hstate hintroduction
  obtain ⟨now, endpoint, name, rfl⟩ := hsync.introduced hbefore hoffered
  exact ⟨pre, now, endpoint, name, introduction, huncancelled,
    ⟨after, _, hafter, hoffered, verified_new hverified⟩, haccept⟩

theorem staged_of_staged {request : PairingRequest}
    (hstaged : state.pairing.staged = some request) : Staged device v events (request.id env.toPairingEnv) := by
  obtain ⟨pre, event, before, after, huncancelled, -, -, hsync, hbefore, hafter⟩ :=
    exists_uncancelled (R := fun state => state.pairing.staged = some request)
      (fun state _ _ hnone h => by rw [hnone] at h; cases h) hstart hstate hstaged
  obtain ⟨now, rfl⟩ := hsync.staged hbefore hafter
  exact ⟨pre, now, request, huncancelled, rfl⟩

/-- A group that passes the checks on a request answers it. -/
theorem requested_of_acceptJoined {identity : ReaderIdentity}
    {wrapped : WrappedReader} {group : VerifiedGroup env.toGroupEnv}
    (hsame : ∀ reader ∈ state.reader, reader = wrapped) (hidentity : openReader env.toCrypto device wrapped = .ok identity)
    (h : acceptJoined { state with reader := some wrapped } identity group = .ok ()) :
    Requested device v events identity group := by
  obtain ⟨invitation, request, pinned, target, hjoining, htarget, haccept, henrolled, hbound⟩ := acceptJoined_eq_ok h
  obtain ⟨pre, event, before, after, huncancelled, -, hafter, hsync, hbefore, hawaits⟩ :=
    exists_uncancelled (R := fun state => state.Awaits request pinned)
      (by rintro state - hnone - ⟨invitation, made, hjoining, -⟩; rw [hnone] at hjoining; cases hjoining) hstart hstate
      ⟨invitation, request, hjoining, rfl⟩
  obtain ⟨now, asked, joined, endpoint, name, creator, rfl, rfl, hcreator, rfl, hreader⟩ := hsync.joined hbefore hawaits
  rw [verified_new joined.2] at htarget
  cases htarget
  -- the reader that asked is the one that accepts
  have hown : state.Own device creator := by
    obtain ⟨post, rfl, -⟩ := huncancelled
    rw [← List.singleton_append, ← List.append_assoc] at hstate
    exact own_run hafter hcreator hstate
  obtain ⟨found, hfound, hcreated⟩ := hown
  rw [hsame found hfound, hidentity] at hcreated
  cases hcreated
  exact ⟨pre, now, asked, joined, _, name, after, request, huncancelled, hafter, hawaits, hreader, rfl, henrolled, haccept,
    hbound⟩

end

end PersonalVault

/-- **A device without a pinned group installs none without its consent.** The group carries this device's signature, and
is its own or goes on from an introduction it has offered; or it answers a request it has made. Offers, requests and
staged requests of before a cancel count for nothing. -/
theorem install_consented {v : PersonalVault} (hstart : v.Unconfigured env) (events : List (PersonalEvent env))
    (event : PersonalEvent env) {group : VerifiedGroup env.toGroupEnv}
    (hnone : ∀ pinned, ¬ ((PersonalVault.process env device).run v events).Pinned env pinned)
    (hpinned : ((PersonalVault.process env device).run v (events ++ [event])).Pinned env group)
    (hinj : ∀ introduction, ((PersonalVault.process env device).run v events).Introduced env introduction →
      Set.InjOn env.sha256 (introduction.hashed ∪ group.hashed)) :
    ∃ state identity, ((PersonalVault.process env device).run v (events ++ [event])).document.syncState env = .ok state ∧
      state.Own device identity ∧
      (group.Carries (identity.publicKeys env.toReaderCrypto).signing ∧
          ((∃ now endpoint name, event = .sync now (.pairing (.initializeGroup endpoint name))) ∨
            PersonalVault.Offered device v events group ∧
              ∀ now id, event = .sync now (.pairing (.approve id)) → PersonalVault.Staged device v events id) ∨
        PersonalVault.Requested device v events identity group) := by
  obtain ⟨state, state', hstate, hstate', hstanding, hsync⟩ := run_concat_sync device hstart events event
  have hgroup : state.pairing.group = none := by
    cases hstored : state.pairing.group with
    | none => rfl
    | some pinned =>
      obtain ⟨found, hverified, rfl, -⟩ := hstanding.group _ hstored
      exact absurd ⟨state, hstate, .of_new hstored hverified⟩ (hnone found)
  obtain ⟨hgroup', hverified, -⟩ := hpinned.stored hstate' (hstanding.step hsync)
  cases hsync with
  | quiet _ hpairing _ =>
    rw [hpairing, hgroup] at hgroup'
    cases hgroup'
  | identified =>
    rw [hgroup] at hgroup'
    cases hgroup'
  | configured =>
    rw [hgroup] at hgroup'
    cases hgroup'
  | @handled now command wrapped identity next _ hsame hidentity hhandle hreader hpairing _ =>
    have hown' : state'.Own device identity := ⟨wrapped, hreader.trans hhandle.reader, hidentity⟩
    refine ⟨state', identity, hstate', hown', ?_⟩
    rw [hpairing] at hgroup'
    rcases hhandle.group with ⟨hkept, -⟩ | ⟨installed, hinstalled, hforce, -⟩
    · rw [hkept, hgroup] at hgroup'
      cases hgroup'
    · have hstored : new installed = .new group := Option.some.inj (hforce.symm.trans hgroup')
      have hsame' : installed = group := by
        have hback := verified_new hinstalled.verified
        rw [hstored, verified_new hverified] at hback
        exact (Except.ok.inj hback).symm
      subst hsame'
      have hensured := hstanding.ensured hsame
      cases hinstalled with
      | initialized _ _ hcreate =>
        obtain ⟨c, -, hchain, -, hsigned⟩ := ReaderIdentity.createGroup_eq_ok hcreate
        exact .inl ⟨.inl ⟨c, ⟨_, .refl _, by simp [hchain]⟩, hsigned⟩, .inl ⟨now, _, _, rfl⟩⟩
      | @approved target _ request expected hcurrent hstaged hid happroved =>
        obtain ⟨c, hchain, hsigned⟩ := happroved.chain
        obtain ⟨htarget, -, ⟨hpinned', -⟩ | ⟨-, hintroduction, -⟩⟩ := hensured.current ⟨_, rfl, hidentity⟩ hcurrent
        · rw [hgroup] at hpinned'
          cases hpinned'
        · refine .inl ⟨.inl ⟨c, ⟨_, .refl _, by simp [hchain]⟩, hsigned⟩, .inr ⟨?_, fun now id heq => ?_⟩⟩
          · exact offered_of_introduction hstart hstate hintroduction htarget
              (VerifiedGroup.acceptExtension_of_chain happroved.verified hchain)
          · cases heq
            rw [← hid]
            exact staged_of_staged hstart hstate hstaged
      | @accepted current accepted hcurrent haccept hjoined _ =>
        cases current with
        | some introduction =>
          obtain ⟨hextends, hne⟩ := haccept introduction rfl
          obtain ⟨htarget, -, ⟨hpinned', -⟩ | ⟨-, hintroduction, hmembers⟩⟩ :=
            hensured.current ⟨_, rfl, hidentity⟩ hcurrent
          · rw [hgroup] at hpinned'
            cases hpinned'
          · have hintroduced : ((process env device).run v events).Introduced env introduction :=
              ⟨state, _, hstate, hintroduction, verified_new htarget⟩
            refine .inl ⟨?_, .inr ⟨?_, fun now id heq => (by cases heq)⟩⟩
            · exact VerifiedGroup.carries_of_acceptExtension hverified (hinj introduction hintroduced) hmembers hextends hne
            · exact offered_of_introduction hstart hstate hintroduction htarget hextends
        | none => exact .inr (requested_of_acceptJoined hstart hstate hsame hidentity (hjoined rfl))

/-- The group the laptop makes answers the request this device has made. -/
theorem install_consented_laptop : ∃ (events : List (PersonalEvent referenceSync)) (event : PersonalEvent referenceSync)
    (group : VerifiedGroup referenceSync.toGroupEnv) (identity : ReaderIdentity),
      (Reference.after Reference.emptyVault (events ++ [event])).Pinned referenceSync group ∧
      PersonalVault.Requested Reference.thisDevice Reference.emptyVault events identity group := by
  obtain ⟨j, s₁, s₂, s₃, s₄, s₅, s₆, h⟩ := joined_run
  obtain ⟨hintroduction, hg₅, -⟩ := h.pinned
  have hpinned : (after emptyVault (j.asking ++ [j.accepting])).Pinned referenceSync j.next.1 :=
    ⟨s₅, h.accepted, .of_new hg₅ j.next.2⟩
  have hinj : ∀ introduction, (after emptyVault j.asking).Introduced referenceSync introduction →
      Set.InjOn referenceSync.sha256 (introduction.hashed ∪ VerifiedGroup.hashed j.next.1) := by
    rintro introduction ⟨found, pinned, hfound, hfound', -⟩
    rw [h.asked] at hfound
    cases hfound
    rw [hintroduction] at hfound'
    cases hfound'
  obtain ⟨state, identity, -, -, ⟨-, ⟨now, endpoint, name, hevent⟩ | ⟨hoffered, -⟩⟩ | hrequested⟩ :=
    @install_consented referenceSync thisDevice emptyVault unconfigured_emptyVault j.asking
      j.accepting j.next.1 (h.not_pinned (List.prefix_refl _)) hpinned hinj
  · cases hevent
  · -- nothing is offered in this run
    obtain ⟨pre, now, endpoint, name, introduction, ⟨post, hevents, -⟩, -⟩ := hoffered
    have hmem : PersonalEvent.sync now (.pairing (.offer endpoint name)) ∈ j.asking := by simp [hevents]
    simp [Reference.Joined.asking] at hmem
  · exact ⟨j.asking, j.accepting, j.next.1, identity, hpinned, hrequested⟩

end FactorSeal

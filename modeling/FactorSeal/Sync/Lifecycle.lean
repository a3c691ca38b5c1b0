import FactorSeal.Sync.Instance
import FactorSeal.Sync.Run

/-! # Memberships over a run

Two mechanisms set the membership of a vault: `Configure`, which takes what the host says, and pairing, which pins signed
groups. `Standing` is what holds of every sync state they can lead to.

* `pinned_groups_extend` — once a group is pinned, every later one extends it and its membership is in force.
* `membership_succeeds` — where pairing respects a configured membership, no membership is ever replaced by an unrelated
  one; `configured_replaced` is a run in which it does not. -/

namespace FactorSeal

open Wire Except Std PersonalVault Reference VerifiedGroup List PersonalSyncState PinnedGroup

variable {v : PersonalVault} {env : SyncEnv} {device : Device} {event : PersonalEvent env} {now : UInt64}
  {membership : Membership env.toReaderCrypto}

/-! ## The invariant -/

/-- The reader the vault keeps opens to this identity. -/
def PersonalSyncState.Own (device : Device) (state : PersonalSyncState env.toPairingEnv) (identity : ReaderIdentity) :
    Prop :=
  ∃ wrapped, state.reader = some wrapped ∧ openReader env.toCrypto device wrapped = .ok identity

/-- The group a sync state has pinned. -/
def PersonalSyncState.Pinned (state : PersonalSyncState env.toPairingEnv) (group : VerifiedGroup env.toGroupEnv) : Prop :=
  ∃ pinned, state.pairing.group = some pinned ∧ pinned.verified env.toPairingEnv = .ok group

/-- What holds of every sync state of a vault that began without one. -/
structure Standing (device : Device) (state : PersonalSyncState env.toPairingEnv) : Prop where
  group : ∀ pinned ∈ state.pairing.group, ∃ group : VerifiedGroup env.toGroupEnv, group.Verified ∧ pinned = .new group ∧
    state.membership = some group.membership ∧ state.pairing.introduction = none
  introduction : ∀ pinned ∈ state.pairing.introduction, ∃ (group : VerifiedGroup env.toGroupEnv) (identity : ReaderIdentity),
    group.Verified ∧ pinned = .new group ∧ state.Own device identity ∧
      group.membership.members = [identity.publicKeys env.toReaderCrypto]
  own : ∀ membership ∈ state.membership, ∃ identity, state.Own device identity ∧
    identity.publicKeys env.toReaderCrypto ∈ membership.members

variable {state state' : PersonalSyncState env.toPairingEnv} {identity : ReaderIdentity}
  {target group : VerifiedGroup env.toGroupEnv}

namespace PersonalSyncState

theorem Own.eq {other : ReaderIdentity} (h : state.Own device identity) (h' : state.Own device other) :
    identity = other := by
  obtain ⟨wrapped, hwrapped, hidentity⟩ := h
  obtain ⟨wrapped', hwrapped', hother⟩ := h'
  rw [hwrapped] at hwrapped'
  cases hwrapped'
  rw [hidentity] at hother
  exact Except.ok.inj hother

theorem Own.of_reader (h : state.Own device identity) (hreader : state'.reader = state.reader) :
    state'.Own device identity := by
  obtain ⟨wrapped, hwrapped, hidentity⟩ := h
  exact ⟨wrapped, hreader.trans hwrapped, hidentity⟩

theorem Pinned.of_new (h : state.pairing.group = some (.new group)) (hverified : group.Verified) : state.Pinned group :=
  ⟨_, h, verified_new hverified⟩

end PersonalSyncState

namespace Standing

theorem empty (env : SyncEnv) (device : Device) : Standing device (empty env.toPairingEnv) where
  group _ h := by cases h
  introduction _ h := by cases h
  own _ h := by cases h

theorem congr (h : Standing device state) (hreader : state'.reader = state.reader)
    (hpairing : state'.pairing = state.pairing) (hmembership : state'.membership = state.membership) :
    Standing device state' where
  group pinned hpinned := by
    rw [hpairing] at hpinned ⊢
    rw [hmembership]
    exact h.group pinned hpinned
  introduction pinned hpinned := by
    rw [hpairing] at hpinned
    obtain ⟨group, identity, hverified, hnew, hown, hmembers⟩ := h.introduction pinned hpinned
    exact ⟨group, identity, hverified, hnew, hown.of_reader hreader, hmembers⟩
  own membership hm := by
    rw [hmembership] at hm
    obtain ⟨identity, hown, hmem⟩ := h.own membership hm
    exact ⟨identity, hown.of_reader hreader, hmem⟩

/-- Making a reader where there is none changes nothing that depends on it. -/
theorem ensured (h : Standing device state) {wrapped : WrappedReader} (hreader : ∀ reader ∈ state.reader, reader = wrapped) :
    Standing device { state with reader := some wrapped } := by
  have hkeep : ∀ {identity : ReaderIdentity}, state.Own device identity →
      PersonalSyncState.Own device { state with reader := some wrapped } identity := by
    rintro identity ⟨own, hown, hidentity⟩
    rw [← hreader own hown]
    exact ⟨own, rfl, hidentity⟩
  refine ⟨h.group, fun pinned hpinned => ?_, fun membership hm => ?_⟩
  · obtain ⟨group, identity, hverified, hnew, hown, hmembers⟩ := h.introduction pinned hpinned
    exact ⟨group, identity, hverified, hnew, hkeep hown, hmembers⟩
  · obtain ⟨identity, hown, hmem⟩ := h.own membership hm
    exact ⟨identity, hkeep hown, hmem⟩

/-- The group a pairing command works on: the pinned one, or the introduction. The device is in it. -/
theorem current (h : Standing device state) (hown : state.Own device identity)
    (hcurrent : state.current = .ok (some target)) :
    target.Verified ∧ identity.publicKeys env.toReaderCrypto ∈ target.membership.members ∧
      (state.pairing.group = some (.new target) ∧ state.membership = some target.membership ∨
        state.pairing.group = none ∧ state.pairing.introduction = some (.new target) ∧
          target.membership.members = [identity.publicKeys env.toReaderCrypto]) := by
  obtain ⟨pinned, hor, hverify⟩ := current_eq_some hcurrent
  cases hgroup : state.pairing.group with
  | some stored =>
    rw [hgroup] at hor
    cases hor
    obtain ⟨group, hverified, rfl, hmembership, -⟩ := h.group _ hgroup
    rw [verified_new hverified] at hverify
    cases hverify
    obtain ⟨other, hother, hmem⟩ := h.own _ hmembership
    rw [hown.eq hother]
    exact ⟨hverified, hmem, .inl ⟨rfl, hmembership⟩⟩
  | none =>
    rw [hgroup] at hor
    obtain ⟨group, other, hverified, rfl, hother, hmembers⟩ := h.introduction _ hor
    rw [verified_new hverified] at hverify
    cases hverify
    rw [hown.eq hother]
    exact ⟨hverified, by simp [hmembers], .inr ⟨rfl, hor, hmembers⟩⟩

/-- A group that is put in force has this device in it. -/
theorem installed (h : Standing device state) (hown : state.Own device identity)
    {command : PairingCommand env.toPairingEnv} (hinstalled : Installed state identity command group) :
    identity.publicKeys env.toReaderCrypto ∈ group.membership.members := by
  cases hinstalled with
  | initialized _ _ hcreate =>
    obtain ⟨c, -, -, hmembers, -⟩ := ReaderIdentity.createGroup_eq_ok hcreate
    simp [hmembers]
  | approved hcurrent _ _ happroved =>
    obtain ⟨-, hmem, -⟩ := h.current hown hcurrent
    rcases happroved.enrolled with ⟨-, hmembers, -⟩ | ⟨approval, origin, source, -, -, -, -, hmembers, -⟩
    · exact (hmembers _).2 (.inl hmem)
    · exact (hmembers _).2 (.inl hmem)
  | accepted _ _ _ hmem => exact hmem

/-- A pairing command keeps the invariant. -/
theorem handled (h : Standing device state) (hown : state.Own device identity)
    {command : PairingCommand env.toPairingEnv} (hstep : HandleStep state identity command state') :
    Standing device state' := by
  have hown' : state'.Own device identity := hown.of_reader hstep.reader
  refine ⟨fun pinned hpinned => ?_, fun pinned hpinned => ?_, fun membership hm => ?_⟩
  · rcases hstep.group with ⟨hgroup, hmembership⟩ | ⟨next, hinstalled, hgroup, hmembership, hnone⟩
    · rw [hgroup] at hpinned
      obtain ⟨group, hverified, hnew, hforce, hnone⟩ := h.group pinned hpinned
      refine ⟨group, hverified, hnew, hmembership.trans hforce, ?_⟩
      rcases hstep.introduction with hsame | hnone' | ⟨endpoint, name, draw, made, -, hcurrent, -, -⟩
      · exact hsame.trans hnone
      · exact hnone'
      · -- an introduction is made only where no group is pinned
        rw [(current_eq_none hcurrent).1] at hpinned
        cases hpinned
    · rw [hgroup] at hpinned
      cases hpinned
      exact ⟨next, hinstalled.verified, rfl, hmembership, hnone⟩
  · rcases hstep.introduction with hsame | hnone | ⟨endpoint, name, draw, made, -, -, hcreate, hmade⟩
    · rw [hsame] at hpinned
      obtain ⟨group, other, hverified, hnew, hother, hmembers⟩ := h.introduction pinned hpinned
      exact ⟨group, other, hverified, hnew, hother.of_reader hstep.reader, hmembers⟩
    · rw [hnone] at hpinned
      cases hpinned
    · rw [hmade] at hpinned
      cases hpinned
      obtain ⟨c, hverified, -, hmembers, -⟩ := ReaderIdentity.createGroup_eq_ok hcreate
      exact ⟨made, identity, hverified, rfl, hown', hmembers⟩
  · rcases hstep.group with ⟨-, hmembership⟩ | ⟨next, hinstalled, -, hmembership, -⟩
    · rw [hmembership] at hm
      obtain ⟨other, hother, hmem⟩ := h.own membership hm
      exact ⟨other, hother.of_reader hstep.reader, hmem⟩
    · rw [hmembership] at hm
      cases hm
      exact ⟨identity, hown', h.installed hown hinstalled⟩

/-- Every event keeps the invariant. -/
theorem step (h : Standing device state) {event : PersonalEvent env} (hstep : SyncStep env device state event state') :
    Standing device state' := by
  cases hstep with
  | quiet hreader hpairing hmembership => exact h.congr hreader hpairing hmembership
  | identified hnone _ => exact h.ensured (by simp [hnone])
  | @configured now membership wrapped identity hgroup _ hintroduction hreader hidentity hmem _ =>
    refine ⟨fun pinned hpinned => ?_, fun pinned hpinned => ?_, fun current hcurrent => ?_⟩
    · rw [hgroup] at hpinned
      cases hpinned
    · rw [hintroduction] at hpinned
      cases hpinned
    · cases hcurrent
      exact ⟨identity, ⟨wrapped, hreader, hidentity⟩, hmem⟩
  | handled hsame hidentity hhandle hreader hpairing hmembership =>
    exact ((h.ensured hsame).handled ⟨_, rfl, hidentity⟩ hhandle).congr hreader hpairing hmembership

end Standing

/-! ## Pinned groups -/

/-- A verified group extends itself. -/
theorem VerifiedGroup.acceptExtension_self {env : GroupEnv} {group : VerifiedGroup env} (h : group.Verified) :
    group.acceptExtension group = .ok () := by
  obtain ⟨remaining, controller, hchecked⟩ := h.checked
  rw [acceptExtension, ensure_eq_ok, hchecked.ancestors]
  exact ⟨_, group.ancestor_current, rfl⟩

/-- Over a pinned group only one that extends it is installed. -/
theorem Installed.extends {command : PairingCommand env.toPairingEnv} {next : VerifiedGroup env.toGroupEnv}
    (h : Standing device state) (hinstalled : Installed state identity command next)
    (hpinned : state.pairing.group = some (.new group)) (hverified : group.Verified) :
    group.acceptExtension next = .ok () := by
  have hcurrent : state.current = .ok (some group) := by
    simp [PersonalSyncState.current, hpinned, verified_new hverified]
  cases hinstalled with
  | initialized hnone _ _ =>
    obtain ⟨found, -, -, hmembership, -⟩ := h.group _ hpinned
    rw [hnone] at hmembership
    cases hmembership
  | approved htarget _ _ happroved =>
    rw [hcurrent] at htarget
    cases htarget
    obtain ⟨c, hchain, -⟩ := happroved.chain
    exact acceptExtension_of_chain happroved.verified hchain
  | accepted htarget haccept _ _ =>
    rw [hcurrent] at htarget
    cases htarget
    exact (haccept group rfl).1

/-- An event leaves a pinned group pinned, or pins one that extends it. -/
theorem Standing.extends (h : Standing device state)
    (hstep : SyncStep env device state event state') (hpinned : state.pairing.group = some (.new group))
    (hverified : group.Verified) : ∃ next : VerifiedGroup env.toGroupEnv, next.Verified ∧
      state'.pairing.group = some (.new next) ∧ group.acceptExtension next = .ok () := by
  have hself := acceptExtension_self hverified
  cases hstep with
  | quiet _ hpairing _ => exact ⟨group, hverified, by rw [hpairing, hpinned], hself⟩
  | identified => exact ⟨group, hverified, hpinned, hself⟩
  | configured hnone =>
    rw [hnone] at hpinned
    cases hpinned
  | handled hsame _ hhandle _ hpairing _ =>
    rw [hpairing]
    rcases hhandle.group with ⟨hgroup, -⟩ | ⟨next, hinstalled, hgroup, -⟩
    · exact ⟨group, hverified, hgroup.trans hpinned, hself⟩
    · exact ⟨next, hinstalled.verified, hgroup,
        hinstalled.extends (h.ensured hsame) hpinned hverified⟩

namespace PersonalVault

variable {pre post events : List (PersonalEvent env)}

/-- The vault has no sync state yet. -/
def Unconfigured (env : SyncEnv) (v : PersonalVault) : Prop :=
  v.document.syncState env = .ok (.empty env.toPairingEnv)

/-- A new personal document is. -/
theorem unconfigured_new (env : SyncEnv) (actor : Bytes) (draws : Nat) :
    (mk (.new actor .localKeyring personalSecretNamespace) draws).Unconfigured env := by
  have hpersonal : (SecretDocument.new actor .localKeyring personalSecretNamespace).isPersonal = true := by
    simp [SecretDocument.isPersonal, SecretDocument.new, FactorSeal.isPersonal]
  simp only [Unconfigured, SecretDocument.syncState, bind_eq_ok]
  exact ⟨(), ensure_of hpersonal, rfl⟩

/-- The group a vault has pinned. -/
def Pinned (env : SyncEnv) (v : PersonalVault) (group : VerifiedGroup env.toGroupEnv) : Prop :=
  ∃ state, v.document.syncState env = .ok state ∧ state.Pinned group

/-- The strings hashed for the groups that a run pins. -/
def pinnedHashes (env : SyncEnv) (device : Device) (v : PersonalVault) (events : List (PersonalEvent env)) : Set Bytes :=
  { bytes | ∃ pre group, pre <+: events ∧ ((process env device).run v pre).Pinned env group ∧ bytes ∈ group.hashed }

/-- The sync state after a run. -/
theorem standing_run (device : Device) (hstart : v.Unconfigured env) (events : List (PersonalEvent env)) :
    ∃ state, ((process env device).run v events).document.syncState env = .ok state ∧ Standing device state := by
  refine Process.run_invariant (P := fun v : PersonalVault => ∃ state, v.document.syncState env = .ok state ∧ Standing device state)
    (K := fun _ _ => True) ⟨_, hstart, .empty env device⟩ ?_ fun _ _ _ _ => trivial
  rintro t event t' ⟨state, hstate, hstanding⟩ - hstep
  obtain ⟨state', hstate', hsync⟩ := step_sync hstate hstep
  exact ⟨state', hstate', hstanding.step hsync⟩

/-- A pinned group is stored as such. -/
theorem Pinned.stored (hstate : v.document.syncState env = .ok state) (hstanding : Standing device state)
    (h : v.Pinned env group) : state.pairing.group = some (.new group) ∧ group.Verified ∧
      state.membership = some group.membership := by
  obtain ⟨found, hfound, pinned, hpinned, hverify⟩ := h
  rw [hstate] at hfound
  cases hfound
  obtain ⟨stored, hverified, rfl, hmembership, -⟩ := hstanding.group _ hpinned
  rw [verified_new hverified] at hverify
  cases hverify
  exact ⟨hpinned, hverified, hmembership⟩

theorem Pinned.eq {stored : VerifiedGroup env.toGroupEnv} (h : v.Pinned env group)
    (hstate : v.document.syncState env = .ok state) (hstored : state.Pinned stored) : group = stored := by
  obtain ⟨found, hfound, pinned, hpinned, hverified⟩ := h
  obtain ⟨pinned', hpinned', hverified'⟩ := hstored
  rw [hstate] at hfound
  cases hfound
  rw [hpinned] at hpinned'
  cases hpinned'
  rw [hverified] at hverified'
  exact Except.ok.inj hverified'

theorem not_pinned (hstate : v.document.syncState env = .ok state) (hgroup : state.pairing.group = none) :
    ¬ v.Pinned env group := by
  rintro ⟨found, hfound, pinned, hpinned, -⟩
  rw [hstate] at hfound
  cases hfound
  rw [hgroup] at hpinned
  cases hpinned

/-- The sync state before and after the last event of a run. -/
theorem run_concat_sync (device : Device) (hstart : v.Unconfigured env) (events : List (PersonalEvent env)) (event : PersonalEvent env) :
    ∃ state state', ((process env device).run v events).document.syncState env = .ok state ∧
      ((process env device).run v (events ++ [event])).document.syncState env = .ok state' ∧
      Standing device state ∧ SyncStep env device state event state' := by
  obtain ⟨state, hstate, hstanding⟩ := standing_run device hstart events
  rw [Process.run_concat]
  unfold Process.next
  split
  next t' hok =>
    obtain ⟨state', hstate', hsync⟩ := step_sync hstate hok
    exact ⟨state, state', hstate, hstate', hstanding, hsync⟩
  next => exact ⟨state, state, hstate, hstate, hstanding, .quiet rfl rfl rfl⟩

/-- A pinned group stays pinned until one that extends it takes its place. -/
theorem pinned_run (hstart : v.Unconfigured env)
    (hinj : Set.InjOn env.sha256 (pinnedHashes env device v (pre ++ post))) {earlier : VerifiedGroup env.toGroupEnv}
    (hpinned : ((process env device).run v pre).Pinned env earlier) :
    ∃ later, ((process env device).run v (pre ++ post)).Pinned env later ∧ earlier.acceptExtension later = .ok () := by
  induction post using reverseRecOn with
  | nil =>
    obtain ⟨state, hstate, hstanding⟩ := standing_run device hstart pre
    obtain ⟨-, hverified, -⟩ := hpinned.stored hstate hstanding
    rw [append_nil]
    exact ⟨earlier, hpinned, acceptExtension_self hverified⟩
  | append_singleton post event ih =>
    rw [← append_assoc] at hinj ⊢
    have hmono : pinnedHashes env device v (pre ++ post) ⊆ pinnedHashes env device v (pre ++ post ++ [event]) := by
      rintro bytes ⟨initial, group, hinitial, hgroup, hbytes⟩
      exact ⟨initial, group, hinitial.trans (prefix_append _ _), hgroup, hbytes⟩
    obtain ⟨middle, hmiddle, haccept⟩ := ih (hinj.mono hmono)
    obtain ⟨state, state', hstate, hstate', hstanding, hsync⟩ := run_concat_sync device hstart (pre ++ post) event
    obtain ⟨hgroup, hverified, -⟩ := hmiddle.stored hstate hstanding
    obtain ⟨later, hlater, hgroup', haccept'⟩ := hstanding.extends hsync hgroup hverified
    have hpinned' : ((process env device).run v (pre ++ post ++ [event])).Pinned env later :=
      ⟨state', hstate', .of_new hgroup' hlater⟩
    refine ⟨later, hpinned', ?_⟩
    -- acceptance is transitive where the digests of the run tell its certificates apart
    have hearly : earlier.hashed ⊆ pinnedHashes env device v (pre ++ post ++ [event]) := fun bytes hbytes =>
      ⟨pre, earlier, by rw [append_assoc]; exact prefix_append _ _, hpinned, hbytes⟩
    have hmid : middle.hashed ⊆ pinnedHashes env device v (pre ++ post ++ [event]) := fun bytes hbytes =>
      ⟨pre ++ post, middle, prefix_append _ _, hmiddle, hbytes⟩
    have hlate : later.hashed ⊆ pinnedHashes env device v (pre ++ post ++ [event]) := fun bytes hbytes =>
      ⟨pre ++ post ++ [event], later, prefix_refl _, hpinned', hbytes⟩
    rw [acceptExtension_iff hinj hearly hmid hverified] at haccept
    rw [acceptExtension_iff hinj hmid hlate hlater] at haccept'
    rw [acceptExtension_iff hinj hearly hlate hlater]
    exact haccept.trans (injOn_digest hinj) (hverified.wellLinked hmid) (hlater.wellLinked hlate) haccept'

end PersonalVault

/-- Whatever group is pinned: its membership is in force, the device's own reader is in it, and no introduction is
kept. -/
def PersonalSyncState.Settled (device : Device) (state : PersonalSyncState env.toPairingEnv) : Prop :=
  ∀ pinned ∈ state.pairing.group, ∃ (group : VerifiedGroup env.toGroupEnv) (identity : ReaderIdentity),
    pinned.verified env.toPairingEnv = .ok group ∧ state.membership = some group.membership ∧
      state.Own device identity ∧ identity.publicKeys env.toReaderCrypto ∈ group.membership.members ∧
      state.pairing.introduction = none

theorem Standing.settled (h : Standing device state) : state.Settled device := by
  intro pinned hpinned
  obtain ⟨group, hverified, rfl, hmembership, hnone⟩ := h.group pinned hpinned
  obtain ⟨identity, hown, hmem⟩ := h.own _ hmembership
  exact ⟨group, identity, verified_new hverified, hmembership, hown, hmem, hnone⟩

/-- Cancelling touches neither the group nor the membership. -/
theorem SyncStep.cancel (h : SyncStep env device state (.sync now (.pairing .cancel)) state') :
    state'.pairing.group = state.pairing.group ∧ state'.membership = state.membership := by
  cases h with
  | quiet _ hpairing hmembership => exact ⟨by rw [hpairing], hmembership⟩
  | handled _ _ hhandle _ hpairing hmembership =>
    rcases hhandle.group with ⟨hgroup, hkept⟩ | ⟨next, hinstalled, -⟩
    · exact ⟨by rw [hpairing, hgroup], hmembership.trans hkept⟩
    · cases hinstalled

/-! ### A vault that asks the laptop to be let in -/

namespace Reference

def emptyVault : PersonalVault := ⟨.new [4] .localKeyring personalSecretNamespace, 0⟩

theorem unconfigured_emptyVault : emptyVault.Unconfigured referenceSync := unconfigured_new referenceSync [4] 0

/-- A group checked again, with the evidence. -/
def trusted (group : VerifiedGroup referenceGroups) : VaultResult (TrustedGroup referencePairing) :=
  match h : VerifiedGroup.verify referenceGroups group.chain group.controller with
  | .ok verified => .ok ⟨verified, (VerifiedGroup.Verified.of_verify h).1⟩
  | .error e => .error e

/-- A sync command in the vault of this device, and the state it leaves. -/
def command (v : PersonalVault) (c : SyncCommand referenceSync) :
    VaultResult (PersonalVault × PersonalSyncState referencePairing) := do
  let v' ← step referenceSync thisDevice v (.sync 10 c)
  return (v', ← v'.document.syncState referenceSync)

theorem command_eq_ok {v' : PersonalVault} {c : SyncCommand referenceSync} {s : PersonalSyncState referencePairing}
    (h : command v c = .ok (v', s)) :
    (process referenceSync thisDevice).next v (.sync 10 c) = v' ∧ v'.document.syncState referenceSync = .ok s := by
  simp only [command, bind_eq_ok] at h
  obtain ⟨after, hstep, state, hstate, h⟩ := h
  cases h
  exact ⟨Process.next_of_ok hstep, hstate⟩

/-- The events of such a run: a membership is configured in two epochs, a request made, and two groups of the laptop come
in. -/
structure Joined where
  first : Membership referencePairing.toReaderCrypto
  membership : Membership referencePairing.toReaderCrypto
  invitation : PairingInvitation
  target : TrustedGroup referencePairing
  next : TrustedGroup referencePairing
  last : TrustedGroup referencePairing

namespace Joined

def asking (j : Joined) : List (PersonalEvent referenceSync) :=
  [.sync 10 .identity, .sync 10 (.configure j.first), .sync 10 (.configure j.membership),
    .sync 10 (.pairing (.join j.invitation j.target (Vector.replicate 32 12) "Phone"))]

def accepting (j : Joined) : PersonalEvent referenceSync := .sync 10 (.pairing (.accept j.next))

def extending (j : Joined) : PersonalEvent referenceSync := .sync 10 (.pairing (.accept j.last))

end Joined

def joined : VaultResult Joined := do
  let (v₁, s₁) ← command emptyVault .identity
  let identity ← openReader referenceSync.toCrypto thisDevice (← ofOption notConfigured s₁.reader)
  let own := [identity.publicKeys referenceReader]
  let first ← Membership.new referencePairing.toReaderCrypto (Vector.replicate 16 30) 5 own
  let (v₂, s₂) ← command v₁ (.configure first)
  let membership ← Membership.new referencePairing.toReaderCrypto (Vector.replicate 16 30) 6 own
  let (v₃, s₃) ← command v₂ (.configure membership)
  let made : VerifiedGroup referenceGroups ← laptop.createGroup 20 (Vector.replicate 32 9) "Laptop"
  let target ← trusted made
  let invitation ← @PairingInvitation.forReader referencePairing 21 made (laptop.memberId referenceReader) 10
  let (v₄, s₄) ← command v₃ (.pairing (.join invitation target (Vector.replicate 32 12) "Phone"))
  let (_, request, _) ← ofOption notConfigured s₄.pairing.joining
  let next ← trusted (← @approvedGroup referencePairing laptop 22 made request (request.id referencePairing))
  let (v₅, s₅) ← command v₄ (.pairing (.accept next))
  let last ← trusted (← laptop.advanceGroup 24 next.1 next.1.membership.members next.1.transports none)
  let (_, s₆) ← command v₅ (.pairing (.accept last))
  ensure (s₁.pairing.group = none ∧ s₂.pairing.group = none ∧ s₃.pairing.group = none ∧ s₄.pairing.group = none) notConfigured
  ensure (s₄.pairing.introduction = none ∧ s₅.pairing.group = some (.new next.1) ∧
    s₆.pairing.group = some (.new last.1)) notConfigured
  ensure (s₂.membership = some first ∧ s₃.membership = some membership ∧ s₄.membership = some membership ∧
    s₅.membership = some next.1.membership) notConfigured
  ensure (first.epoch < membership.epoch ∧ next.1.membership.group ≠ membership.group) notConfigured
  ensure (next.1.digest ≠ last.1.digest ∧ next.1.chain ⊆ last.1.chain ∧ (∀ c ∈ last.1.chain, c.body.merge = none) ∧
    ((last.1.chain.map referenceGroups.certificateJson.encode).map referenceGroups.sha256).Nodup) notConfigured
  return ⟨first, membership, invitation, target, next, last⟩

/-- The vault of this device after some events. -/
def after (v : PersonalVault) (events : List (PersonalEvent referenceSync)) : PersonalVault :=
  (process referenceSync thisDevice).run v events

/-- The sync states along the run. -/
structure Joined.Run (j : Joined) (s₁ s₂ s₃ s₄ s₅ s₆ : PersonalSyncState referencePairing) : Prop where
  identified : (after emptyVault (j.asking.take 1)).document.syncState referenceSync = .ok s₁
  configured : (after emptyVault (j.asking.take 2)).document.syncState referenceSync = .ok s₂
  advanced : (after emptyVault (j.asking.take 3)).document.syncState referenceSync = .ok s₃
  asked : (after emptyVault j.asking).document.syncState referenceSync = .ok s₄
  accepted : (after emptyVault (j.asking ++ [j.accepting])).document.syncState referenceSync = .ok s₅
  extended : (after emptyVault (j.asking ++ [j.accepting] ++ [j.extending])).document.syncState referenceSync = .ok s₆
  unpinned : s₁.pairing.group = none ∧ s₂.pairing.group = none ∧ s₃.pairing.group = none ∧ s₄.pairing.group = none
  pinned : s₄.pairing.introduction = none ∧ s₅.pairing.group = some (.new j.next.1) ∧
    s₆.pairing.group = some (.new j.last.1)
  memberships : s₂.membership = some j.first ∧ s₃.membership = some j.membership ∧ s₄.membership = some j.membership ∧
    s₅.membership = some j.next.1.membership
  epochs : j.first.epoch < j.membership.epoch ∧ j.next.1.membership.group ≠ j.membership.group
  groups : j.next.1.digest ≠ j.last.1.digest ∧ j.next.1.chain ⊆ j.last.1.chain ∧
    (∀ c ∈ j.last.1.chain, c.body.merge = none) ∧
    ((j.last.1.chain.map referenceGroups.certificateJson.encode).map referenceGroups.sha256).Nodup

theorem joined_run : ∃ (j : Joined) (s₁ s₂ s₃ s₄ s₅ s₆ : PersonalSyncState referencePairing), j.Run s₁ s₂ s₃ s₄ s₅ s₆ := by
  obtain ⟨j, hrun⟩ := exists_of_isOk (show joined.isOk = true by decide +kernel)
  simp only [joined, bind_eq_ok, ensure_eq_ok, ofOption_eq_ok] at hrun
  obtain ⟨⟨v₁, s₁⟩, h₁, reader, -, identity, -, first, -, ⟨v₂, s₂⟩, h₂, membership, -, ⟨v₃, s₃⟩, h₃, made, -, target, -,
    invitation, -, ⟨v₄, s₄⟩, h₄, asked, -, approved, -, next, -, ⟨v₅, s₅⟩, h₅, advanced, -, last, -, ⟨v₆, s₆⟩, h₆, ⟨⟩,
    hunpinned, ⟨⟩, hpinned, ⟨⟩, hmemberships, ⟨⟩, hepochs, ⟨⟩, hgroups, hj⟩ := hrun
  cases hj
  refine ⟨⟨first, membership, invitation, target, next, last⟩, s₁, s₂, s₃, s₄, s₅, s₆, ?_⟩
  -- the vaults of the run stay as they are named here
  obtain ⟨hv₁, hs₁⟩ := command_eq_ok h₁
  obtain ⟨hv₂, hs₂⟩ := command_eq_ok h₂
  obtain ⟨hv₃, hs₃⟩ := command_eq_ok h₃
  obtain ⟨hv₄, hs₄⟩ := command_eq_ok h₄
  obtain ⟨hv₅, hs₅⟩ := command_eq_ok h₅
  obtain ⟨hv₆, hs₆⟩ := command_eq_ok h₆
  constructor
  case unpinned => exact hunpinned
  case pinned => exact hpinned
  case memberships => exact hmemberships
  case epochs => exact hepochs
  case groups => exact hgroups
  all_goals
    simp only [after, Joined.asking, Joined.accepting, Joined.extending, take_succ_cons, take_zero,
      cons_append, nil_append, Process.run_cons, Process.run_nil, hv₁, hv₂, hv₃, hv₄, hv₅, hv₆]
    assumption

/-- Nothing is pinned before the first group comes in. -/
theorem Joined.Run.not_pinned {j : Joined} {s₁ s₂ s₃ s₄ s₅ s₆ : PersonalSyncState referencePairing}
    (h : j.Run s₁ s₂ s₃ s₄ s₅ s₆) {pre : List (PersonalEvent referenceSync)} (hpre : pre <+: j.asking)
    (group : VerifiedGroup referenceSync.toGroupEnv) : ¬ (after emptyVault pre).Pinned referenceSync group := by
  obtain ⟨hg₁, hg₂, hg₃, hg₄⟩ := h.unpinned
  have hlength : pre.length ≤ 4 := hpre.length_le
  rw [prefix_iff_eq_take] at hpre
  rw [hpre]
  generalize pre.length = k at hlength
  obtain rfl | rfl | rfl | rfl | rfl : k = 0 ∨ k = 1 ∨ k = 2 ∨ k = 3 ∨ k = 4 := by omega
  · exact PersonalVault.not_pinned unconfigured_emptyVault rfl
  · exact PersonalVault.not_pinned h.identified hg₁
  · exact PersonalVault.not_pinned h.configured hg₂
  · exact PersonalVault.not_pinned h.advanced hg₃
  · exact PersonalVault.not_pinned h.asked hg₄

end Reference

/-- **Pinned groups only ever extend.** In every run of an unconfigured vault, once a group is pinned every later pinned
group extends it; the membership in force is that of the pinned group and has this device's reader; no introduction is
kept beside it; and cancelling changes neither. -/
theorem pinned_groups_extend {v : PersonalVault} (hstart : v.Unconfigured env) (events : List (PersonalEvent env))
    (hinj : Set.InjOn env.sha256 (PersonalVault.pinnedHashes env device v events)) :
    (∀ pre post earlier, events = pre ++ post → ((PersonalVault.process env device).run v pre).Pinned env earlier →
      ∃ later, ((PersonalVault.process env device).run v events).Pinned env later ∧
        earlier.acceptExtension later = .ok ()) ∧
    ∃ state, ((PersonalVault.process env device).run v events).document.syncState env = .ok state ∧
      state.Settled device ∧
      ∀ now, ∃ cancelled,
        ((PersonalVault.process env device).run v (events ++ [.sync now (.pairing .cancel)])).document.syncState env =
          .ok cancelled ∧
        cancelled.pairing.group = state.pairing.group ∧ cancelled.membership = state.membership := by
  constructor
  · rintro pre post earlier rfl hpinned
    exact pinned_run hstart hinj hpinned
  · obtain ⟨state, hstate, hstanding⟩ := standing_run device hstart events
    refine ⟨state, hstate, hstanding.settled, fun now => ?_⟩
    obtain ⟨before, after, hbefore, hafter, -, hsync⟩ :=
      run_concat_sync device hstart events (.sync now (.pairing .cancel))
    rw [hstate] at hbefore
    cases hbefore
    exact ⟨after, hafter, hsync.cancel⟩

/-- The second group of the laptop is taken in the place of the first. -/
theorem pinned_groups_extend_laptop : ∃ (events : List (PersonalEvent referenceSync)) (event : PersonalEvent referenceSync)
    (earlier later : VerifiedGroup referenceSync.toGroupEnv), earlier.digest ≠ later.digest ∧
      (Reference.after Reference.emptyVault events).Pinned referenceSync earlier ∧
      (Reference.after Reference.emptyVault (events ++ [event])).Pinned referenceSync later ∧
      earlier.acceptExtension later = .ok () := by
  obtain ⟨j, s₁, s₂, s₃, s₄, s₅, s₆, h⟩ := joined_run
  obtain ⟨-, hg₅, hg₆⟩ := h.pinned
  obtain ⟨hne, hsub, hmerge, hnodup⟩ := h.groups
  have hnext := @PersonalSyncState.Pinned.of_new referenceSync s₅ j.next.1 hg₅ j.next.2
  have hlast := @PersonalSyncState.Pinned.of_new referenceSync s₆ j.last.1 hg₆ j.last.2
  have hinj : Set.InjOn referenceSync.sha256 (pinnedHashes referenceSync thisDevice
      emptyVault (j.asking ++ [j.accepting] ++ [j.extending])) := by
    refine (injOn_of_nodup hnodup).mono ?_
    rintro bytes ⟨pre, group, hpre, hpinned, hbytes⟩
    rcases List.prefix_concat_iff.1 hpre with rfl | hpre
    · rw [Pinned.eq hpinned h.extended hlast] at hbytes
      exact hashed_subset_of_no_merge hmerge (List.Subset.refl _) hbytes
    · rcases List.prefix_concat_iff.1 hpre with rfl | hpre
      · rw [Pinned.eq hpinned h.accepted hnext] at hbytes
        exact hashed_subset_of_no_merge hmerge hsub hbytes
      · exact absurd hpinned (h.not_pinned hpre group)
  obtain ⟨hextends, -⟩ := @pinned_groups_extend referenceSync thisDevice emptyVault
    unconfigured_emptyVault _ hinj
  obtain ⟨later, hlater, haccept⟩ :=
    hextends (j.asking ++ [j.accepting]) [j.extending] j.next.1 rfl ⟨s₅, h.accepted, hnext⟩
  rw [Pinned.eq hlater h.extended hlast] at haccept
  exact ⟨_, _, j.next.1, j.last.1, hne, ⟨s₅, h.accepted, hnext⟩, ⟨s₆, h.extended, hlast⟩, haccept⟩

/-! ## Configured memberships -/

/-- The second membership is the first, or a later epoch of its group. -/
def Membership.Continues {c : ReaderCrypto} (m m' : Membership c) : Prop :=
  m' = m ∨ m'.group = m.group ∧ m.epoch < m'.epoch

theorem Membership.Continues.trans {c : ReaderCrypto} {a b d : Membership c} (hab : a.Continues b)
    (hbd : b.Continues d) : a.Continues d := by
  rcases hab with rfl | ⟨hgroup, hepoch⟩
  · exact hbd
  · rcases hbd with rfl | ⟨hgroup', hepoch'⟩
    · exact .inr ⟨hgroup, hepoch⟩
    · exact .inr ⟨hgroup'.trans hgroup, UInt64.lt_trans hepoch hepoch'⟩

/-- What `Configure` checks and pairing does not: where a membership was configured and no group is pinned, a group that
is approved or accepted goes on from it. -/
def PersonalSyncState.Respects (state : PersonalSyncState env.toPairingEnv) : PersonalEvent env → Prop
  | .sync _ (.pairing (.approve _)) => ∀ membership target, state.pairing.group = none →
    state.membership = some membership → state.current = .ok (some target) →
    target.membership.group = membership.group ∧ membership.epoch ≤ target.membership.epoch
  | .sync _ (.pairing (.accept group)) => ∀ membership, state.pairing.group = none → state.membership = some membership →
    state.pairing.introduction.isSome ∨ state.pairing.joining.isSome →
    group.1.membership.group = membership.group ∧ membership.epoch < group.1.membership.epoch
  | _ => True

theorem PersonalSyncState.Respects.ensured (h : state.Respects event)
    (wrapped : WrappedReader) : PersonalSyncState.Respects { state with reader := some wrapped } event := by
  cases event with
  | sync now command =>
    cases command with
    | pairing command => cases command <;> exact h
    | _ => trivial
  | _ => trivial

/-- Under that condition a group that is put in force over a configured membership goes on from it. -/
theorem Installed.continues {command : PairingCommand env.toPairingEnv} (h : Installed state identity command group)
    (hrespects : state.Respects (.sync now (.pairing command))) (hnone : state.pairing.group = none)
    (hmembership : state.membership = some membership) : membership.Continues group.membership := by
  cases h with
  | initialized hunset _ _ =>
    rw [hunset] at hmembership
    cases hmembership
  | approved hcurrent _ _ happroved =>
    obtain ⟨hgroup, hepoch⟩ := hrespects _ _ hnone hmembership hcurrent
    refine .inr ⟨happroved.group.trans hgroup, ?_⟩
    rw [UInt64.lt_iff_toNat_lt, happroved.epoch]
    exact Nat.lt_succ_of_le (UInt64.le_iff_toNat_le.1 hepoch)
  | @accepted current accepted hcurrent _ hjoined _ =>
    refine .inr (hrespects _ hnone hmembership ?_)
    cases current with
    | some pinned =>
      obtain ⟨stored, hor, -⟩ := current_eq_some hcurrent
      rw [hnone, Option.none_or] at hor
      exact .inl (by rw [hor]; rfl)
    | none =>
      obtain ⟨invitation, request, pinned, target, hjoining, -⟩ := acceptJoined_eq_ok (hjoined rfl)
      exact .inr (by rw [hjoining]; rfl)

/-- One event over a configured membership. -/
theorem SyncStep.continues
    (h : SyncStep env device state event state') (hrespects : state.Respects event) (hnone : state.pairing.group = none)
    (hmembership : state.membership = some membership) :
    ∃ membership', state'.membership = some membership' ∧ membership.Continues membership' := by
  cases h with
  | quiet _ _ hkept => exact ⟨membership, hkept.trans hmembership, .inl rfl⟩
  | identified => exact ⟨membership, hmembership, .inl rfl⟩
  | configured _ _ _ _ _ _ hlater =>
    obtain ⟨hgroup, hepoch⟩ := hlater membership hmembership
    exact ⟨_, rfl, .inr ⟨hgroup.symm, hepoch⟩⟩
  | handled _ _ hhandle _ _ hkept =>
    rcases hhandle.group with ⟨-, hsame⟩ | ⟨next, hinstalled, -, hforce, -⟩
    · exact ⟨membership, hkept.trans (hsame.trans hmembership), .inl rfl⟩
    · exact ⟨next.membership, hkept.trans hforce, hinstalled.continues (hrespects.ensured _) hnone hmembership⟩

namespace PersonalVault

variable {pre post : List (PersonalEvent env)}

/-- The membership a vault publishes and receives under. -/
def Active (env : SyncEnv) (v : PersonalVault) (membership : Membership env.toReaderCrypto) : Prop :=
  ∃ state, v.document.syncState env = .ok state ∧ state.membership = some membership

/-- The event respects the membership that is in force when it comes. -/
def Respects (v : PersonalVault) (event : PersonalEvent env) : Prop :=
  ∀ state, v.document.syncState env = .ok state → state.Respects event

/-- Until a group is pinned the memberships are epochs of one group, and the first pinned group is one more. -/
theorem continues_run (hstart : v.Unconfigured env)
    (hrespects : (process env device).Meets Respects v (pre ++ post))
    (hactive : ((process env device).run v pre).Active env membership) :
    (∃ membership', ((process env device).run v (pre ++ post)).Active env membership' ∧
      membership.Continues membership') ∨
    ∃ mid rest group, post = mid ++ rest ∧ ((process env device).run v (pre ++ mid)).Pinned env group ∧
      membership.Continues group.membership := by
  induction post using reverseRecOn with
  | nil =>
    rw [append_nil]
    exact .inl ⟨membership, hactive, .inl rfl⟩
  | append_singleton post event ih =>
    rw [← append_assoc] at hrespects ⊢
    rcases ih hrespects.initial with ⟨middle, ⟨found, hfound, hmiddle⟩, hcontinues⟩ | ⟨mid, rest, group, rfl, hpinned, hgroup⟩
    · obtain ⟨state, state', hstate, hstate', hstanding, hsync⟩ := run_concat_sync device hstart (pre ++ post) event
      rw [hfound] at hstate
      cases hstate
      cases hpinned : found.pairing.group with
      | none =>
        obtain ⟨later, hlater, hnext⟩ := hsync.continues (hrespects (pre ++ post) event [] rfl _ hfound) hpinned hmiddle
        exact .inl ⟨later, ⟨state', hstate', hlater⟩, hcontinues.trans hnext⟩
      | some pinned =>
        obtain ⟨group, hverified, rfl, hforce, -⟩ := hstanding.group _ hpinned
        rw [hmiddle] at hforce
        cases hforce
        exact .inr ⟨post, [event], group, rfl, ⟨found, hfound, .of_new hpinned hverified⟩, hcontinues⟩
    · exact .inr ⟨mid, rest ++ [event], group, by rw [append_assoc], hpinned, hgroup⟩

end PersonalVault

/-- **A membership is succeeded by its own group.** In every run whose approvals and acceptances respect configured
memberships, a membership that is in force is later the same, or a later epoch of its group, or that of a signed group
that extends the one pinned in between, which was itself the same or a later epoch. -/
theorem membership_succeeds {v : PersonalVault} (hstart : v.Unconfigured env) (events : List (PersonalEvent env))
    (hinj : Set.InjOn env.sha256 (PersonalVault.pinnedHashes env device v events))
    (hrespects : (PersonalVault.process env device).Meets PersonalVault.Respects v events) :
    ∀ pre post membership, events = pre ++ post →
      ((PersonalVault.process env device).run v pre).Active env membership →
      ∃ membership', ((PersonalVault.process env device).run v events).Active env membership' ∧
        (membership.Continues membership' ∨ ∃ mid rest pinned later, post = mid ++ rest ∧
          ((PersonalVault.process env device).run v (pre ++ mid)).Pinned env pinned ∧
          membership.Continues pinned.membership ∧
          ((PersonalVault.process env device).run v events).Pinned env later ∧ membership' = later.membership ∧
          pinned.acceptExtension later = .ok ()) := by
  rintro pre post membership rfl hactive
  rcases continues_run hstart hrespects hactive with
    ⟨membership', hactive', hcontinues⟩ | ⟨mid, rest, pinned, rfl, hpinned, hcontinues⟩
  · exact ⟨membership', hactive', .inl hcontinues⟩
  · rw [← append_assoc] at hinj ⊢
    obtain ⟨later, hlater, haccept⟩ := pinned_run hstart hinj hpinned
    obtain ⟨state, hstate, hstanding⟩ := standing_run device hstart (pre ++ mid ++ rest)
    obtain ⟨-, -, hforce⟩ := hlater.stored hstate hstanding
    exact ⟨later.membership, ⟨state, hstate, hforce⟩, .inr ⟨mid, rest, pinned, later, rfl, hpinned, hcontinues, hlater, rfl,
      haccept⟩⟩

/-- The second configured epoch takes the place of the first. -/
theorem membership_succeeds_configured : ∃ (events : List (PersonalEvent referenceSync)) (event : PersonalEvent referenceSync)
    (membership membership' : Membership referenceSync.toReaderCrypto), membership.epoch ≠ membership'.epoch ∧
      (Reference.after Reference.emptyVault events).Active referenceSync membership ∧
      (Reference.after Reference.emptyVault (events ++ [event])).Active referenceSync membership' ∧
      membership.Continues membership' := by
  obtain ⟨j, s₁, s₂, s₃, s₄, s₅, s₆, h⟩ := joined_run
  obtain ⟨hm₂, hm₃, -, -⟩ := h.memberships
  have hunpinned : ∀ pre group, pre <+: j.asking.take 3 →
      ¬ (after emptyVault pre).Pinned referenceSync group :=
    fun pre group hpre => h.not_pinned (hpre.trans <| take_prefix _ _) group
  have hinj : Set.InjOn referenceSync.sha256 (pinnedHashes referenceSync thisDevice
      emptyVault (j.asking.take 3)) := by
    rintro bytes ⟨pre, group, hpre, hpinned, -⟩
    exact absurd hpinned (hunpinned pre group hpre)
  have hrespects : (process referenceSync thisDevice).Meets Respects
      emptyVault (j.asking.take 3) := by
    intro pre event post hevents state hstate
    have hmem : event ∈ j.asking.take 3 := by simp [hevents]
    simp only [Reference.Joined.asking, take_succ_cons, take_zero, mem_cons, not_mem_nil, or_false]
      at hmem
    rcases hmem with rfl | rfl | rfl
    · trivial
    · trivial
    · trivial
  obtain ⟨membership', ⟨state, hstate, hactive⟩, hsucceeds⟩ := @membership_succeeds referenceSync thisDevice
    emptyVault unconfigured_emptyVault (j.asking.take 3) hinj hrespects (j.asking.take 2)
    [.sync 10 (.configure j.membership)] j.first rfl ⟨s₂, h.configured, hm₂⟩
  have hsame : s₃ = state := Except.ok.inj (h.advanced.symm.trans hstate)
  subst hsame
  have hmembership : j.membership = membership' := Option.some.inj (hm₃.symm.trans hactive)
  subst hmembership
  refine ⟨j.asking.take 2, _, j.first, j.membership, (UInt64.ne_of_lt h.epochs.1), ⟨s₂, h.configured, hm₂⟩,
    ⟨s₃, h.advanced, hm₃⟩, ?_⟩
  rcases hsucceeds with hcontinues | ⟨mid, rest, pinned, later, -, -, -, hlater, -⟩
  · exact hcontinues
  · exact absurd hlater (hunpinned _ later (prefix_refl _))

/-- **A configured membership is replaced by an unrelated group.** The vault that has been configured joins the laptop. -/
theorem configured_replaced : ∃ (events : List (PersonalEvent referenceSync)) (event : PersonalEvent referenceSync)
    (membership membership' : Membership referenceSync.toReaderCrypto),
      (Reference.after Reference.emptyVault events).Active referenceSync membership ∧
      (Reference.after Reference.emptyVault (events ++ [event])).Active referenceSync membership' ∧
      membership'.group ≠ membership.group ∧
      ∀ pre group, pre <+: events → ¬ (Reference.after Reference.emptyVault pre).Pinned referenceSync group := by
  obtain ⟨j, s₁, s₂, s₃, s₄, s₅, s₆, h⟩ := joined_run
  obtain ⟨-, -, hm₄, hm₅⟩ := h.memberships
  exact ⟨j.asking, j.accepting, j.membership, j.next.1.membership, ⟨s₄, h.asked, hm₄⟩, ⟨s₅, h.accepted, hm₅⟩, h.epochs.2,
    fun pre group hpre => h.not_pinned hpre group⟩

end FactorSeal

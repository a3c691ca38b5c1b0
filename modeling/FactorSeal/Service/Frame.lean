import FactorSeal.Service.Handle

/-! # What a request leaves of the live state

Requests change the pending approvals, the permissions listed last and the seal. The identifiers of earlier requests are
changed by the admission only, and the lease by `touch` only: once in a request, at one of its readings of the clock, and
not in a request that is refused for want of a grant (`touching_dispatch`). All of this holds whatever the store answers,
except that a read of the store is not answered with a refusal of that kind. -/

namespace FactorSeal

open Wire Except SecretDocument PlainDocument

variable {now : UInt64} {id : String} {provenance : Provenance} {caller : CallerIdentity} {α : Type} {device : Device}
  {application : Option VaultApplicationContext} {sample : UInt64 × Instant} {monotonicNow : Instant}

/-- Refused for want of a grant, or with an approval that could not be created. -/
def VaultError.isRefusal (refusal : VaultError) : Bool := refusal = .authorizationRequired || refusal = .approvalLimited

/-- The answers of a store that does not refuse to read the keyring's index. -/
def NoRefusal (c : Command) (answer : VaultResult Answer) : Prop :=
  ∀ partition address now, c = .get .linuxSecretService partition address now →
    answer.FailsWith fun e => e.isRefusal = false

namespace ServiceM

variable {β : Type} {x : ServiceM α} {f : α → ServiceM β}

/-- What the code returns and leaves meets a condition, whatever the store answers. -/
def Ends (Q : LiveState → Except RequestFailure α → LiveState → Prop) (x : ServiceM α) : Prop :=
  ∀ live, (x live).Returns NoRefusal fun r => Q live r.1 r.2

/-- The lease and the identifiers are left. -/
structure Same (live live' : LiveState) : Prop where
  lease : live'.lease = live.lease
  replay : live'.replay = live.replay

theorem Same.refl (live : LiveState) : Same live live := ⟨rfl, rfl⟩

theorem Same.trans {a b c : LiveState} (h : Same a b) (h' : Same b c) : Same a c :=
  ⟨h'.lease.trans h.lease, h'.replay.trans h.replay⟩

/-- The lease is left or touched once, at one of the readings. -/
structure Touched (readings : Set (UInt64 × Instant)) (live live' : LiveState) : Prop where
  lease : live'.lease = live.lease ∨ ∃ s ∈ readings, live.lease.touch s.1 s.2 = .ok live'.lease
  replay : live'.replay = live.replay

/-- The code leaves the lease and the identifiers. -/
def Quiet (x : ServiceM α) : Prop := x.Ends fun live _ live' => Same live live'

/-- The result is a refusal. -/
def Refused (result : Except RequestFailure α) : Prop :=
  ∃ failure, result = .error failure ∧ failure.error.isRefusal = true

/-- The code touches the lease at most once, and leaves it when it is refused. -/
def Touching (readings : Set (UInt64 × Instant)) (x : ServiceM α) : Prop :=
  x.Ends fun live result live' => Touched readings live live' ∧ (Refused result → live'.lease = live.lease)

/-- The code leaves the lease and is not refused. -/
def Unrefused (x : ServiceM α) : Prop := x.Ends fun live result live' => Same live live' ∧ ¬ Refused result

variable {readings : Set (UInt64 × Instant)}

theorem Ends.bind {P : LiveState → Except RequestFailure α → LiveState → Prop}
    {Q : LiveState → Except RequestFailure β → LiveState → Prop} (hx : x.Ends P)
    (hok : ∀ live a live', P live (.ok a) live' → (f a live').Returns NoRefusal fun r => Q live r.1 r.2)
    (herror : ∀ live failure live', P live (.error failure) live' → Q live (.error failure) live') :
    (x >>= f).Ends Q := by
  intro live
  refine (hx live).bind fun r hr => ?_
  obtain ⟨result, live'⟩ := r
  cases result with
  | ok a => exact hok live a live' hr
  | error failure => exact .pure (herror live failure live' hr)

/-! ## Code that leaves the lease -/

theorem quiet_pure (a : α) : (pure a : ServiceM α).Quiet := fun live => .pure (.refl live)

theorem quiet_fail (failure : RequestFailure) : (fail failure : ServiceM α).Quiet := fun live => .pure (.refl live)

theorem quiet_getLive : getLive.Quiet := fun live => .pure (.refl live)

theorem quiet_lift (result : VaultResult α) : (liftM result : ServiceM α).Quiet := fun live => .pure (.refl live)

theorem quiet_store (p : StoreProgram α) : (store p).Quiet := fun live =>
  (Program.Returns.of_all p.attempt fun _ => trivial).bind fun _ (_ : True) => .pure (.refl live)

theorem quiet_liftStore (p : StoreProgram α) : (liftM p : ServiceM α).Quiet := quiet_store p

theorem quiet_update {f : LiveState → VaultResult α × LiveState} (h : ∀ live, Same live (f live).2) : (update f).Quiet :=
  fun live => .pure (h live)

theorem Quiet.bind (hx : x.Quiet) (hf : ∀ a, (f a).Quiet) : (x >>= f).Quiet :=
  Ends.bind hx (fun _ a live' h => (hf a live').mono fun _ h' => h.trans h') fun _ _ _ h => h

/-- What follows a computation that cannot touch the lease may. -/
theorem Quiet.touching_bind (hx : x.Quiet) (hf : ∀ a, (f a).Touching readings) : (x >>= f).Touching readings := by
  refine Ends.bind hx (fun live a live' h => (hf a live').mono fun r hr => ?_) fun live failure live' h =>
    ⟨⟨.inl h.lease, h.replay⟩, fun _ => h.lease⟩
  obtain ⟨hlease, hreplay⟩ := hr.1
  rw [h.lease] at hlease
  exact ⟨⟨hlease, hreplay.trans h.replay⟩, fun hrefused => (hr.2 hrefused).trans h.lease⟩

theorem Quiet.touching (hx : x.Quiet) : x.Touching readings := fun live =>
  (hx live).mono fun _ h => ⟨⟨.inl h.lease, h.replay⟩, fun _ => h.lease⟩

/-! ## Code that follows a touch -/

theorem not_refused_ok (a : α) : ¬ Refused (.ok a : Except RequestFailure α) := by
  rintro ⟨failure, h, -⟩
  cases h

theorem unrefused_pure (a : α) : (pure a : ServiceM α).Unrefused := fun live => .pure ⟨.refl live, not_refused_ok a⟩

theorem Unrefused.bind (hx : x.Unrefused) (hf : ∀ a, (f a).Unrefused) : (x >>= f).Unrefused := by
  refine Ends.bind hx (fun live a live' h => (hf a live').mono fun r hr => ⟨h.1.trans hr.1, hr.2⟩) ?_
  rintro live failure live' ⟨hsame, hrefused⟩
  refine ⟨hsame, ?_⟩
  rintro ⟨failure', heq, hrefusal⟩
  cases heq
  exact hrefused ⟨failure, rfl, hrefusal⟩

theorem Touching.bind (hx : x.Touching readings) (hf : ∀ a, (f a).Unrefused) : (x >>= f).Touching readings := by
  refine Ends.bind hx (fun live a live' h => (hf a live').mono fun r hr => ?_) fun live failure live' h =>
    ⟨h.1, fun ⟨failure', heq, hrefusal⟩ => h.2 ⟨failure, rfl, by cases heq; exact hrefusal⟩⟩
  obtain ⟨hlease, hreplay⟩ := h.1
  rw [← hr.1.lease] at hlease
  exact ⟨⟨hlease, hr.1.replay.trans hreplay⟩, fun hrefused => absurd hrefused hr.2⟩

end ServiceM

open ServiceM

variable {env : ServiceEnv}

/-! ## The live state -/

theorem quiet_lockLive {now : Instant} : (lockLive now).Quiet := by
  refine quiet_update fun live => ?_
  split
  · exact .refl live
  split
  · exact ⟨rfl, rfl⟩
  · exact .refl live

theorem touching_touch {readings : Set (UInt64 × Instant)} (h : sample ∈ readings) :
    (touch sample).Touching readings := by
  intro live
  refine .pure ?_
  dsimp only
  split
  · exact ⟨⟨.inl rfl, rfl⟩, fun _ => rfl⟩
  split
  next lease hlease => exact ⟨⟨.inr ⟨sample, h, hlease⟩, rfl⟩, fun hrefused => absurd hrefused (not_refused_ok ())⟩
  next => exact ⟨⟨.inl rfl, rfl⟩, fun _ => rfl⟩

theorem quiet_saveApprovals : (saveApprovals env now).Quiet := by
  intro live
  refine (Program.Returns.of_all _ fun _ => trivial).bind fun saved (_ : True) => ?_
  cases saved with
  | ok approvals => exact .pure ⟨rfl, rfl⟩
  | error e => exact .pure (.refl live)

theorem quiet_createApproval {candidate : ApprovalCandidate} {fresh : Vector UInt8 16 × Digest}
    : (createApproval env candidate fresh now monotonicNow).Quiet := by
  refine quiet_getLive.bind fun live => ?_
  generalize live.approvals.create env candidate fresh now monotonicNow = created
  obtain ⟨interaction, approvals⟩ := created
  refine Quiet.bind (quiet_update fun _ => ⟨rfl, rfl⟩) fun _ => ?_
  dsimp only
  split
  · exact quiet_saveApprovals.bind fun _ => quiet_lift _
  · exact quiet_lift _

theorem quiet_listPermissions : (listPermissions env now monotonicNow).Quiet := by
  refine Quiet.bind (quiet_update fun _ => ⟨rfl, rfl⟩) fun pending => ?_
  refine quiet_saveApprovals.bind fun _ => ?_
  refine (quiet_liftStore _).bind fun granted => ?_
  refine Quiet.bind (quiet_update fun live => ?_) fun _ => quiet_getLive.bind fun _ => quiet_pure _
  split
  · exact .refl live
  · exact ⟨rfl, rfl⟩

theorem quiet_denyApproval : (denyApproval env id now).Quiet :=
  Quiet.bind (quiet_update fun _ => ⟨rfl, rfl⟩) fun _ => quiet_saveApprovals

theorem quiet_revokeListed : (revokeListed env id now provenance).Quiet :=
  (quiet_liftStore _).bind fun _ => quiet_update fun _ => ⟨rfl, rfl⟩

theorem quiet_approvePending {signature : Bytes} {lifetime : ApprovedLifetime}
    : (approvePending env id signature lifetime now provenance).Quiet := by
  refine Quiet.bind (quiet_update fun _ => ⟨rfl, rfl⟩) fun _ => ?_
  refine quiet_getLive.bind fun live => (quiet_liftStore _).bind fun approved => ?_
  exact Quiet.bind (quiet_update fun _ => ⟨rfl, rfl⟩) fun _ => quiet_saveApprovals

theorem quiet_permissionStatus : (permissionStatus env caller id now).Quiet := quiet_update fun _ => ⟨rfl, rfl⟩

theorem quiet_waitForPermission {deadline : Instant} : (waitForPermission env caller id sample deadline).Quiet :=
  Quiet.bind (quiet_update fun _ => ⟨rfl, rfl⟩) fun _ => quiet_lockLive.bind fun _ => quiet_permissionStatus

/-! ## Requests -/

namespace VaultService

variable {context : RequestContext} {entry : VaultEntryMetadata} {value : Bytes} {sender : String}
  {evictAt validUntil : Option UInt64} {action : Option VaultAction}

theorem touching_refreshLease {i : Nat} : (refreshLease context i validUntil).Touching (Set.range context.clock) :=
  (quiet_lift _).touching_bind fun _ => touching_touch ⟨i + 1, rfl⟩

theorem quiet_permissionsPage {page : Option (UInt64 × String)} : (permissionsPage env caller context page).Quiet :=
  (quiet_liftStore _).bind fun _ => quiet_listPermissions.bind fun _ => (quiet_lift _).bind fun _ =>
    (quiet_lift _).bind fun _ => quiet_pure _

theorem quiet_waitForApprovals : (waitForApprovals env caller context).Quiet :=
  (quiet_liftStore _).bind fun _ => quiet_lockLive.bind fun _ => (quiet_liftStore _).bind fun _ =>
    quiet_listPermissions.bind fun _ => (quiet_lift _).bind fun _ => quiet_pure _

theorem quiet_askForApproval {candidate : ApprovalCandidate} : (askForApproval env context candidate).Quiet :=
  quiet_createApproval.bind fun _ => quiet_fail _

theorem touching_inventory {cursor : Option String} {limit : UInt16} :
    (inventory env caller context cursor limit).Touching (Set.range context.clock) :=
  (quiet_liftStore _).touching_bind fun _ => (quiet_liftStore _).touching_bind fun _ =>
    touching_refreshLease.bind fun _ => unrefused_pure _

theorem touching_importVaultEntry {replaceExisting : Bool} :
    (importVaultEntry env caller context entry value evictAt replaceExisting provenance).Touching
      (Set.range context.clock) := by
  refine (quiet_liftStore _).touching_bind fun validUntil => (quiet_lift _).touching_bind fun _ => ?_
  split
  · exact (quiet_liftStore _).touching_bind fun _ => touching_refreshLease.bind fun _ => unrefused_pure _
  · exact (quiet_liftStore _).touching_bind fun _ => touching_refreshLease.bind fun _ => unrefused_pure _

theorem touching_writeCacheFromDialog {project : String} {address : SecretSpecAddress} :
    (writeCacheFromDialog env caller context project address value evictAt provenance).Touching
      (Set.range context.clock) :=
  (quiet_liftStore _).touching_bind fun _ => (quiet_lift _).touching_bind fun _ => (quiet_lift _).touching_bind fun _ =>
    (quiet_lift _).touching_bind fun _ => (quiet_liftStore _).touching_bind fun _ =>
      touching_refreshLease.bind fun _ => unrefused_pure _

/-- A program on the store that is not refused while its reads of the index are not. -/
def Unrefusing {α : Type} (p : StoreProgram α) : Prop :=
  p.attempt.Returns NoRefusal fun result => result.FailsWith fun e => e.isRefusal = false

theorem Unrefusing.lift {p : StoreProgram α} (h : Unrefusing p) : (liftM p : ServiceM α).Unrefused := by
  intro live
  refine Program.Returns.bind h fun result hresult => .pure ⟨.refl live, ?_⟩
  rintro ⟨failure, heq, hrefusal⟩
  cases result with
  | ok a => cases heq
  | error e =>
    cases heq
    exact absurd hrefusal (by rw [ServiceM.failure, hresult e rfl]; nofun)

theorem Unrefusing.bind {β : Type} {p : StoreProgram α} {f : α → StoreProgram β} (hp : Unrefusing p)
    (hf : ∀ a, Unrefusing (f a)) : Unrefusing (p >>= f) :=
  Program.Returns.attempt_bind hp (fun a _ => hf a) fun e he => failsWith_error (he e rfl)

theorem unrefusing_lift {result : VaultResult α} (h : result.FailsWith fun e => e.isRefusal = false) :
    Unrefusing (liftM result : StoreProgram α) := .done fun r hr => by
  cases hr
  exact h

theorem unrefusing_pure (a : α) : Unrefusing (pure a : StoreProgram α) := unrefusing_lift (failsWith_ok a)

theorem unrefusing_getAt {partition : Bytes} {address : SecretAddress} :
    Unrefusing (VaultStore.getAt .linuxSecretService partition address now) := by
  have hget : Unrefusing (VaultStore.getWithDeadline .linuxSecretService partition address now) :=
    .call fun answer hanswer => .done fun r hr => by
      cases hr
      exact (hanswer partition address now rfl).bind fun a _ => failsWith_ofOption rfl
  exact hget.bind fun secret => unrefusing_pure _

theorem failsWith_validateAddressComponent {component value : String} :
    (validateAddressComponent component value).FailsWith fun e => e.isRefusal = false := by
  unfold validateAddressComponent
  split
  · exact failsWith_error rfl
  split
  · exact failsWith_error rfl
  · exact failsWith_ok ()

theorem failsWith_newLocal {item : String} :
    (SecretAddress.newLocal item none).FailsWith fun e => e.isRefusal = false :=
  FailsWith.bind (failsWith_validateAddressComponent.bind fun _ _ => failsWith_ok ()) fun _ _ => failsWith_ok _

theorem failsWith_checkItems : ∀ (ids : List String) (items : List IndexItem),
    (Index.checkItems ids items).FailsWith fun e => e.isRefusal = false
  | _, [] => failsWith_ok ()
  | ids, item :: items => .bind (failsWith_ensure rfl) fun _ _ => .bind (failsWith_ensure rfl) fun _ _ =>
    failsWith_checkItems (item.id :: ids) items

theorem failsWith_decodeIndex {json : Codec Index} {bytes : Option Bytes} :
    (Index.decode json bytes).FailsWith fun e => e.isRefusal = false := by
  have hparse : (Index.parse json bytes).FailsWith fun e => e.isRefusal = false := by
    unfold Index.parse
    split
    · exact failsWith_ok _
    split
    · exact failsWith_ok _
    · exact failsWith_error rfl
  exact hparse.bind fun index _ => .bind (failsWith_ensure rfl) fun _ _ =>
    (failsWith_checkItems [] index.items).bind fun _ _ => failsWith_ok index

theorem unrefusing_secretServiceIndex : Unrefusing (secretServiceIndex env now) :=
  (unrefusing_lift failsWith_newLocal).bind fun _ => unrefusing_getAt.bind fun _ => unrefusing_lift failsWith_decodeIndex

/-- The value of an exported entry is read from the store and decoded, neither of which is a refusal. -/
theorem unrefusing_exportedValue : Unrefusing (exportedValue env entry value now) := by
  unfold exportedValue
  split
  · exact unrefusing_secretServiceIndex.bind fun index => (unrefusing_lift (failsWith_ofOption rfl)).bind fun item =>
      unrefusing_pure _
  · exact unrefusing_pure _

theorem touching_exportVaultEntry :
    (exportVaultEntry env caller context entry).Touching (Set.range context.clock) :=
  (quiet_liftStore _).touching_bind fun _ => (quiet_liftStore _).touching_bind fun _ => (quiet_lift _).touching_bind fun _ =>
    touching_refreshLease.bind fun _ => unrefusing_exportedValue.lift.bind fun _ => unrefused_pure _

theorem quiet_authorizeSecretInput : (authorizeSecretInput env caller context sender).Quiet :=
  (quiet_liftStore _).bind fun _ => (quiet_lift _).bind fun _ => (quiet_liftStore _).bind fun _ => quiet_pure _

theorem touching_bridgedAction {peer : CallerIdentity} :
    (bridgedAction env device caller context peer validUntil action).Touching (Set.range context.clock) := by
  cases action with
  | none => exact (quiet_pure _).touching
  | some action =>
    refine quiet_getLive.touching_bind fun live => (quiet_liftStore _).touching_bind fun executed => ?_
    refine (quiet_lift _).touching_bind fun _ => ?_
    dsimp only
    split
    · exact (touching_touch (Set.mem_range_self 5)).bind fun _ => unrefused_pure _
    · exact (quiet_pure _).touching

theorem touching_keyringAccess {entry : Option SecretAddress} {service : String} {operation : PermissionOperation}
    {pending : Option String} :
    (keyringAccess env device caller context entry sender service operation action pending).Touching
      (Set.range context.clock) := by
  refine (quiet_liftStore _).touching_bind fun brokerDeadline => (quiet_lift _).touching_bind fun _ => ?_
  refine (quiet_lift _).touching_bind fun found => ?_
  cases pending with
  | some id => exact quiet_waitForPermission.touching_bind fun _ => (quiet_pure _).touching
  | none =>
    refine (quiet_store _).touching_bind fun found => ?_
    split
    · exact (quiet_lift _).touching_bind fun _ => touching_bridgedAction
    · exact quiet_askForApproval.touching
    · exact (quiet_fail _).touching

theorem touching_approvePermission {signature : Bytes} {lifetime : ApprovedLifetime} :
    (approvePermission env caller context id signature lifetime provenance).Touching (Set.range context.clock) :=
  (quiet_liftStore _).touching_bind fun _ => quiet_approvePending.touching_bind fun _ =>
    (touching_touch (Set.mem_range_self 5)).bind fun _ => unrefused_pure _

theorem quiet_denyPermission : (denyPermission env caller context id).Quiet :=
  (quiet_liftStore _).bind fun _ => quiet_denyApproval.bind fun _ => quiet_pure _

theorem touching_revokeAction :
    (revokeAction env caller context id provenance).Touching (Set.range context.clock) :=
  (quiet_liftStore _).touching_bind fun _ => quiet_revokeListed.touching_bind fun _ =>
    (touching_touch (Set.mem_range_self 5)).bind fun _ => unrefused_pure _

theorem touching_executeOrAsk {action : VaultAction} :
    (executeOrAsk env device caller context action application provenance).Touching (Set.range context.clock) := by
  refine quiet_getLive.touching_bind fun live => (quiet_store _).touching_bind fun result => ?_
  split
  · split
    · exact touching_refreshLease.bind fun _ => unrefused_pure _
    · exact (quiet_pure _).touching
  · split
    · exact quiet_askForApproval.touching
    · exact (quiet_fail _).touching
  · exact (quiet_fail _).touching

/-- **A request that was let in touches the lease at most once, at one of its readings, and not when it is refused.** -/
theorem touching_dispatch {action : VaultAction} :
    (dispatch env device caller context action application).Touching (Set.range context.clock) := by
  unfold dispatch
  split
  · exact touching_inventory
  · exact touching_exportVaultEntry
  · exact touching_importVaultEntry
  · exact touching_writeCacheFromDialog
  · exact quiet_authorizeSecretInput.touching
  · exact touching_keyringAccess
  · exact quiet_permissionsPage.touching
  · exact quiet_permissionsPage.touching
  · exact quiet_waitForApprovals.touching
  · exact quiet_waitForPermission.touching_bind fun _ => (quiet_pure _).touching
  · exact quiet_denyPermission.touching
  · exact touching_approvePermission
  · exact touching_revokeAction
  · exact touching_executeOrAsk

end VaultService

/-! ## The store does not refuse to read the index

The index is not a personal document, so that none of the code for replicas runs. -/

section

variable {venv : VaultEnv} {d : SecretDocument} {kind scope : DocumentKind} {expected : Option Bytes}
  {address : SecretAddress} {actor snapshot : Bytes}

theorem kind_of_load (h : load venv snapshot actor kind expected = .ok d) : d.kind = kind := by
  unfold load at h
  split at h
  · cases h
  simp only [bind_eq_ok, ofOption_eq_ok, ensure_eq_ok] at h
  obtain ⟨partition, -, ⟨⟩, -, entries, -, h⟩ := h
  cases h
  rfl

theorem failsWith_load : (load venv snapshot actor kind expected).FailsWith fun e => e.isRefusal = false := by
  unfold load
  split
  · exact failsWith_error rfl
  · exact .bind (failsWith_ofOption rfl) fun _ _ => .bind (failsWith_ensure rfl) fun _ _ =>
      .bind (failsWith_ofOption rfl) fun _ _ => failsWith_ok _

theorem failsWith_getWithDeadline (hp : d.isPersonal = false) :
    (d.getWithDeadline venv address now).FailsWith fun e => e.isRefusal = false := by
  have hunconflicted : d.ensurePersonalUnconflicted venv address = .ok () := by
    unfold ensurePersonalUnconflicted
    rw [hp]
  unfold getWithDeadline
  rw [hunconflicted, ok_bind]
  split
  · exact failsWith_ok _
  · refine .bind (failsWith_forM (fun record => failsWith_ensure (by rfl)) _) fun _ _ => ?_
    split
    · exact failsWith_ok _
    split
    · exact failsWith_ok _
    · exact failsWith_ok _

theorem failsWith_finishMutation : (d.finishMutation venv).FailsWith fun e => e.isRefusal = false := by
  have hvisible : ∀ records, (visibleRecord records).FailsWith fun e => e.isRefusal = false := by
    intro records
    cases records with
    | nil => exact failsWith_error rfl
    | cons record rest => exact .bind (failsWith_ensure rfl) fun _ _ => failsWith_ok record
  have hproject : d.project.FailsWith fun e => e.isRefusal = false :=
    .bind (failsWith_mapM (fun _ => (hvisible _).bind fun _ _ => failsWith_ok _) _) fun _ _ => failsWith_ok _
  exact hproject.bind fun _ _ => failsWith_ok _

theorem failsWith_expire (hp : d.isPersonal = false) :
    (d.expire venv address).FailsWith fun e => e.isRefusal = false := by
  have hdelete : (d.deleteUncommitted venv address .expire).FailsWith fun e => e.isRefusal = false := by
    have hrecord : ∀ entries, recordPersonalChange venv { d with entries } address true =
        .ok { d with entries } := fun entries => if_neg (by simpa [SecretDocument.isPersonal] using hp)
    unfold deleteUncommitted deleteValueUncommitted ensurePersonalUnconflicted
    rw [hp]
    dsimp only
    rw [ok_bind]
    split
    · exact failsWith_ok _
    · rw [if_pos rfl, hrecord]
      exact failsWith_ok _
  refine hdelete.bind fun removed _ => ?_
  dsimp only
  split
  · exact failsWith_finishMutation.bind fun _ _ => failsWith_ok _
  · exact failsWith_ok _

theorem failsWith_getBody (hp : d.isPersonal = false) {draws : Nat} :
    (getBody venv address now (some d) draws).FailsWith fun e => e.isRefusal = false := by
  refine (failsWith_getWithDeadline hp).bind fun read _ => ?_
  dsimp only
  split
  · exact failsWith_ok _
  · exact failsWith_ok _
  · exact failsWith_error rfl
  · exact (failsWith_expire hp).bind fun _ _ => .bind (failsWith_ofOption rfl) fun _ _ => failsWith_ok _

theorem failsWith_toI64 {value : UInt64} : (toI64 value).FailsWith fun e => e.isRefusal = false := by
  unfold toI64
  split
  · exact failsWith_ok _
  · exact failsWith_error rfl

theorem failsWith_loadHistory {json : Codec HistoryLog} {bytes : Bytes} :
    (HistoryLog.load json bytes kind expected).FailsWith fun e => e.isRefusal = false := by
  unfold HistoryLog.load
  split
  · exact failsWith_error rfl
  · refine FailsWith.bind ?_ fun _ _ => failsWith_ok _
    exact .bind (failsWith_ensure rfl) fun _ _ => .bind (failsWith_ensure rfl) fun _ _ =>
      .bind (failsWith_ensure rfl) fun _ _ => failsWith_ensure rfl

theorem failsWith_recordHistory {size : HistoryEntry → Nat} {log : HistoryLog} {pending : List PendingHistory}
    {time : UInt64} {deviceKeyId : DeviceKeyId} :
    (log.record size pending time provenance deviceKeyId).FailsWith fun e => e.isRefusal = false :=
  FailsWith.bind (failsWith_foldlM (fun _ _ => .bind (failsWith_ensure (by rfl)) fun _ _ => failsWith_ok _) pending log)
    fun _ _ => failsWith_ok _

theorem failsWith_next {current : Option PlainDocument} {mutation : DocumentMutation} {context : MutationContext} :
    (next venv scope current mutation context).FailsWith fun e => e.isRefusal = false := by
  have hcarried : (carriedHistory venv scope current mutation.partition).FailsWith
      fun e => e.isRefusal = false := by
    cases current with
    | none => exact failsWith_ok _
    | some p => exact failsWith_loadHistory
  have hdeadline : (deadlineColumn mutation.nextEviction).FailsWith fun e => e.isRefusal = false := by
    cases mutation.nextEviction with
    | none => exact failsWith_ok _
    | some deadline => exact failsWith_toI64.map
  exact .bind (failsWith_ensure rfl) fun _ _ => hcarried.bind fun _ _ => failsWith_recordHistory.bind fun _ _ =>
    hdeadline.bind fun _ _ => failsWith_toI64.bind fun _ _ => failsWith_toI64.bind fun _ _ => failsWith_ok _

theorem failsWith_loaded {p : Option PlainDocument} :
    (loaded venv device scope expected p).FailsWith fun e => e.isRefusal = false := by
  cases p with
  | none => exact failsWith_ok _
  | some p => exact FailsWith.bind (.bind (failsWith_ensure rfl) fun _ _ => failsWith_load) fun _ _ => failsWith_ok _

theorem kind_of_loaded {p : Option PlainDocument} {q : PlainDocument}
    (h : loaded venv device scope expected p = .ok (some (d, q))) : d.kind = scope := by
  cases p with
  | none => cases h
  | some p =>
    simp only [loaded, document, bind_eq_ok, ensure_eq_ok] at h
    obtain ⟨document, ⟨⟨⟩, -, hload⟩, h⟩ := h
    cases h
    exact kind_of_load hload

/-- **The plain vault never refuses a read of the index for want of a grant.** -/
theorem noRefusal_execute (venv : VaultEnv) (device : Device) (v : PlainVault) (c : Command) :
    NoRefusal c (((PlainVault.ops venv device).execute venv device v c).map Prod.fst) := by
  rintro partition address now rfl
  refine FailsWith.map (FailsWith.map ?_)
  refine failsWith_loaded.bind fun loaded hloaded => ?_
  have hbody : (getBody venv address now (loaded.map Prod.fst) v.draws).FailsWith fun e => e.isRefusal = false := by
    cases loaded with
    | none => exact failsWith_ok _
    | some found =>
      refine failsWith_getBody ?_
      rw [SecretDocument.isPersonal, kind_of_loaded hloaded]
      rfl
  refine hbody.bind fun outcome _ => ?_
  unfold PlainVault.finish
  split
  · exact failsWith_ok _
  · exact FailsWith.bind (failsWith_next.bind fun _ _ => .bind (failsWith_ensure rfl) fun _ _ => failsWith_ok _)
      fun _ _ => failsWith_ok _

end

end FactorSeal

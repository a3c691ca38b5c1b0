import FactorSeal.Lib.Run
import FactorSeal.Sync.Install
import FactorSeal.Sync.Worker
import FactorSeal.Vault.Frame

/-! # The personal document over a run

Between two commits the personal document is what the last one saved (`load_finishMutation`), so the vault's personal
side is a process: its state is the document, its events are the sync commands, the writes and deletions of the clients,
the purges and the upgrades at opening. `step_sync` says once what an event does to the reader, the pairing state and the
membership; the results on memberships and pairing follow from it. -/

namespace FactorSeal

open Wire Except Std SecretDocument

variable {draw draw' : Nat} {v : PersonalVault}

/-- The personal document as it is stored, and the draws taken from the random source. -/
structure PersonalVault where
  document : SecretDocument
  draws : Nat

/-- Everything that changes the personal document. -/
inductive PersonalEvent (env : SyncEnv) where
  | sync (now : UInt64) (command : SyncCommand env)
  | put (address : SecretAddress) (value : Bytes) (evictAt : Option UInt64) (context : MutationContext)
  | apply (operations : List DocumentOperation) (context : MutationContext)
  | remove (address : SecretAddress) (operation : HistoryOperation)
  | purgeExpired (now : UInt64)
  | clear
  | migratePersonal
  | migratePersonalReplicas

namespace PersonalVault

/-- The vault after an operation: changed only if there is a mutation to commit. -/
def committed (v : PersonalVault) (changed : Bool) (document : SecretDocument) (draws : Nat) : PersonalVault :=
  if changed then ⟨document, draws⟩ else { v with draws }

/-- One event. A document that is not there yet is the empty one. -/
def step (env : SyncEnv) (device : Device) (v : PersonalVault) : PersonalEvent env → VaultResult PersonalVault
  | .sync now command => do
    let (_, change, draws) ← v.document.personalSync env device v.draws now command
    return ⟨(change.map Prod.snd).getD v.document, draws⟩
  | .put address value evictAt context => do
    let (_, document, draws) ← v.document.put env.toVaultEnv v.draws address value evictAt context
    return ⟨document, draws⟩
  | .apply operations context => do
    let (mutation, document, draws) ← v.document.apply env.toVaultEnv v.draws operations context
    return v.committed mutation.isSome document draws
  | .remove address operation => do
    let (mutation, document) ← v.document.remove env.toVaultEnv address operation
    return v.committed mutation.isSome document v.draws
  | .purgeExpired now => do
    let (mutation, document) ← v.document.purgeExpired env.toVaultEnv now
    return v.committed mutation.isSome document v.draws
  | .clear => do
    let (cleared, document) ← v.document.clear env.toVaultEnv
    return v.committed cleared.isSome document v.draws
  | .migratePersonal => do
    let (mutation, document, draws) ← v.document.migratePersonal env.toVaultEnv v.draws
    return v.committed mutation.isSome document draws
  | .migratePersonalReplicas => do
    let (mutation, document) ← v.document.migratePersonalReplicas env.toVaultEnv
    return v.committed mutation.isSome document v.draws

/-- The personal side of a vault. -/
def process (env : SyncEnv) (device : Device) : Process PersonalVault (PersonalEvent env) VaultError := ⟨step env device⟩

end PersonalVault

/-! ## Saved sync states -/

variable {env : SyncEnv} {d d' : SecretDocument}

namespace SecretDocument

variable {state : PersonalSyncState env.toPairingEnv} {mutation : DocumentMutation} {id : String}
  {context : MutationContext} {values : List (Option PersonalSecret)} {packet : PacketId} {update : PersonalUpdate}
  {outcome : ReceiveOutcome} {expected : ReplicaHeads} {item : Option PersonalSecret}

theorem saveSyncState_eq_ok (h : d.saveSyncState env state = .ok d') :
    (env.stateJson.encode state).length ≤ maxStateBytes ∧
      d' = { d with
        personal := { d.personal with layout := some 1, syncState := some (env.stateJson.encode state) } } := by
  simp only [saveSyncState, bind_eq_ok, ensure_eq_ok] at h
  obtain ⟨⟨⟩, hlength, h⟩ := h
  cases h
  exact ⟨hlength, rfl⟩

/-- A sync state that has been saved is read back. -/
theorem syncState_of_saved (hp : d.isPersonal = true) (hlength : (env.stateJson.encode state).length ≤ maxStateBytes)
    (h : d.personal.syncState = some (env.stateJson.encode state)) : d.syncState env = .ok state := by
  simp only [syncState, h, bind_eq_ok, ofOption_eq_ok]
  refine ⟨(), ensure_of hp, (), ensure_of hlength, ?_⟩
  rw [env.stateJson.decode_encode]
  rfl

theorem isPersonal_of_syncState (h : d.syncState env = .ok state) : d.isPersonal = true := by
  simp only [syncState, bind_eq_ok, ensure_eq_ok] at h
  obtain ⟨⟨⟩, hp, -⟩ := h
  exact hp

/-- A frame keeps the sync state. -/
theorem Frame.syncState_eq (h : Frame d d') : d'.syncState env = d.syncState env := by
  simp only [SecretDocument.syncState, h.isPersonal, h.syncState]

theorem syncState_updateSyncState {replicas : ReplicaCatalog} (hp : d.isPersonal = true)
    (h : d.updateSyncState env state replicas = .ok (mutation, d')) : d'.syncState env = .ok state := by
  simp only [updateSyncState, bind_eq_ok] at h
  obtain ⟨saved, hsaved, stored, hstored, hfinish⟩ := h
  obtain ⟨hlength, rfl⟩ := saveSyncState_eq_ok hsaved
  have hframe := frame_savePersonalReplicas hstored
  have hframe' := hframe.trans (frame_finishMutation (hframe.isPersonal.trans hp) hfinish)
  exact syncState_of_saved (hframe'.isPersonal.trans hp) hlength hframe'.syncState

theorem frame_materializeSyncValue
    (h : d.materializeSyncValue env draw id values context = .ok (d', draw')) : Frame d d' := by
  simp only [materializeSyncValue, bind_eq_ok] at h
  obtain ⟨address, -, h⟩ := h
  split at h
  · simp only [bind_eq_ok] at h
    obtain ⟨bytes, -, h⟩ := h
    exact frame_putValueUncommitted h
  · simp only [bind_eq_ok] at h
    obtain ⟨⟨changed, removed⟩, hdelete, h⟩ := h
    cases h
    exact frame_deleteValueUncommitted hdelete

theorem receiveMutation_eq_ok {changed : Bool} {catalog : ReplicaCatalog}
    (h : d.receiveMutation env draw id changed values state catalog context = .ok (mutation, d', draw')) :
    ∃ written saved stored, ((changed = true ∧ d.materializeSyncValue env draw id values context = .ok (written, draw')) ∨
        (changed = false ∧ written = d)) ∧
      written.saveSyncState env state = .ok saved ∧ saved.savePersonalReplicas env.toVaultEnv catalog = .ok stored ∧
      stored.finishMutation env.toVaultEnv = .ok (mutation, d') := by
  unfold receiveMutation at h
  split at h
  next hchanged =>
    simp only [bind_eq_ok] at h
    obtain ⟨⟨written, draw₁⟩, hwritten, saved, hsaved, stored, hstored, ⟨made, projected⟩, hfinish, h⟩ := h
    cases h
    exact ⟨written, saved, stored, .inl ⟨hchanged, hwritten⟩, hsaved, hstored, hfinish⟩
  next hchanged =>
    simp only [ok_bind, bind_eq_ok] at h
    obtain ⟨saved, hsaved, stored, hstored, ⟨made, projected⟩, hfinish, h⟩ := h
    cases h
    exact ⟨d, saved, stored, .inr ⟨by simpa using hchanged, rfl⟩, hsaved, hstored, hfinish⟩

/-- What `receive_personal` has done: nothing for a packet it has a receipt of, and otherwise one mutation. -/
theorem receivePersonal_eq_ok {change : Option (DocumentMutation × SecretDocument)}
    (h : d.receivePersonal env draw packet update context = .ok (outcome, change, draw')) :
    ∃ state, d.syncState env = .ok state ∧ (change = none ∨ ∃ changed values receipt stored mutation d',
      d.receiveMutation env draw update.itemId changed values { state with receipts := state.receipts ++ [receipt] }
        stored context = .ok (mutation, d', draw') ∧ change = some (mutation, d')) := by
  simp only [receivePersonal, bind_eq_ok] at h
  obtain ⟨state, hstate, h⟩ := h
  refine ⟨state, hstate, ?_⟩
  split at h
  next =>
    cases h
    exact .inl rfl
  next =>
    simp only [bind_eq_ok] at h
    obtain ⟨⟨⟩, -, catalog, -, replica, -, ⟨merged, changed⟩, -, values, -, incoming, -, stored, -,
      ⟨mutation, after, draw₁⟩, hmutation, h⟩ := h
    cases h
    exact .inr ⟨changed, values, _, stored, mutation, after, hmutation, rfl⟩

/-- A received packet adds a receipt and nothing else to the sync state. -/
theorem syncState_receivePersonal
    (h : d.receivePersonal env draw packet update context = .ok (outcome, some (mutation, d'), draw')) :
    ∃ state receipt, d.syncState env = .ok state ∧
      d'.syncState env = .ok { state with receipts := state.receipts ++ [receipt] } := by
  obtain ⟨state, hstate, hnone | ⟨changed, values, receipt, stored, made, after, hmutation, hsome⟩⟩ :=
    receivePersonal_eq_ok h
  · cases hnone
  · cases hsome
    obtain ⟨written, saved, kept, hwritten, hsaved, hkept, hfinish⟩ := receiveMutation_eq_ok hmutation
    have hp := isPersonal_of_syncState hstate
    have hframe : Frame d written := by
      rcases hwritten with ⟨-, hwritten⟩ | ⟨-, rfl⟩
      · exact frame_materializeSyncValue hwritten
      · exact .refl _
    have hpersonal : written.isPersonal = true := hframe.isPersonal.trans hp
    obtain ⟨hlength, rfl⟩ := saveSyncState_eq_ok hsaved
    have hframe' := (frame_savePersonalReplicas hkept).trans (frame_finishMutation
      ((frame_savePersonalReplicas hkept).isPersonal.trans hpersonal) hfinish)
    exact ⟨state, _, hstate, syncState_of_saved (hframe'.isPersonal.trans hpersonal) hlength hframe'.syncState⟩

theorem resolvePersonal_eq_ok (h : d.resolvePersonal env draw id expected item context = .ok (mutation, d', draw')) :
    ∃ values stored written kept, d.materializeSyncValue env draw id values context = .ok (written, draw') ∧
      written.savePersonalReplicas env.toVaultEnv stored = .ok kept ∧
      kept.finishMutation env.toVaultEnv = .ok (mutation, d') := by
  simp only [resolvePersonal, bind_eq_ok] at h
  obtain ⟨replica, -, before, -, ⟨⟩, -, resolved, -, catalog, -, values, -, stored, -, ⟨written, draw₁⟩, hwritten, kept,
    hkept, ⟨made, projected⟩, hfinish, h⟩ := h
  cases h
  exact ⟨values, stored, written, kept, hwritten, hkept, hfinish⟩

theorem frame_resolvePersonal (hp : d.isPersonal = true)
    (h : d.resolvePersonal env draw id expected item context = .ok (mutation, d', draw')) : Frame d d' := by
  obtain ⟨values, stored, written, kept, hwritten, hkept, hfinish⟩ := resolvePersonal_eq_ok h
  have hframe := (frame_materializeSyncValue hwritten).trans (frame_savePersonalReplicas hkept)
  exact hframe.trans (frame_finishMutation (hframe.isPersonal.trans hp) hfinish)

end SecretDocument

/-! ## What an event does to the sync state -/

/-- How the reader, the pairing state and the membership can change. -/
inductive SyncStep (env : SyncEnv) (device : Device) (state : PersonalSyncState env.toPairingEnv) :
    PersonalEvent env → PersonalSyncState env.toPairingEnv → Prop
  | quiet {event : PersonalEvent env} {state' : PersonalSyncState env.toPairingEnv} :
    state'.reader = state.reader → state'.pairing = state.pairing → state'.membership = state.membership →
    SyncStep env device state event state'
  | identified {now : UInt64} {wrapped : WrappedReader} {identity : ReaderIdentity} : state.reader = none →
    openReader env.toCrypto device wrapped = .ok identity →
    SyncStep env device state (.sync now .identity) { state with reader := some wrapped }
  | configured {now : UInt64} {membership : Membership env.toReaderCrypto} {wrapped : WrappedReader}
      {identity : ReaderIdentity} :
    state.pairing.group = none → state.pairing.joining = none → state.pairing.introduction = none →
    state.reader = some wrapped → openReader env.toCrypto device wrapped = .ok identity →
    identity.publicKeys env.toReaderCrypto ∈ membership.members →
    (∀ current ∈ state.membership, current.group = membership.group ∧ current.epoch < membership.epoch) →
    SyncStep env device state (.sync now (.configure membership))
      { state with membership := some membership, prepared := none }
  | handled {now : UInt64} {command : PairingCommand env.toPairingEnv} {wrapped : WrappedReader}
      {identity : ReaderIdentity} {next state' : PersonalSyncState env.toPairingEnv} :
    (∀ reader ∈ state.reader, reader = wrapped) → openReader env.toCrypto device wrapped = .ok identity →
    HandleStep { state with reader := some wrapped } identity command next → state'.reader = next.reader →
    state'.pairing = next.pairing → state'.membership = next.membership →
    SyncStep env device state (.sync now (.pairing command)) state'

section

variable {device : Device} {state : PersonalSyncState env.toPairingEnv} {replicas : ReplicaCatalog} {now : UInt64}
  {work : SyncWork env}

theorem eq_of_ensureReader {wrapped : WrappedReader} (h : ensureReader device state draw = (wrapped, draw')) :
    ∀ reader ∈ state.reader, reader = wrapped := by
  intro reader hreader
  rw [ensureReader, hreader] at h
  exact congrArg Prod.fst h

/-- What a pairing command comes to. -/
theorem pairingCommand_eq_ok {command : PairingCommand env.toPairingEnv}
    (h : pairingCommand device state replicas draw now command = .ok (work, draw')) :
    ∃ wrapped identity draw₁ reply next, ensureReader device state draw = (wrapped, draw₁) ∧
      openReader env.toCrypto device wrapped = .ok identity ∧
      handle { state with reader := some wrapped } identity draw₁ now command = .ok (reply, next, draw') ∧
      ((work = .answer reply ∧ (unchangedGroup state command = .ok true ∨ state = next)) ∨
        (state.membership.map Membership.digest ≠ next.membership.map Membership.digest ∧
          work = .save reply { next with prepared := none } replicas.allPending) ∨
        (state.membership.map Membership.digest = next.membership.map Membership.digest ∧
          work = .save reply next replicas)) := by
  simp only [pairingCommand, bind_eq_ok] at h
  obtain ⟨unchanged, hunchanged, identity, hidentity, ⟨reply, next, draw₂⟩, hhandle, h⟩ := h
  refine ⟨_, identity, _, reply, next, rfl, hidentity, ?_⟩
  split at h
  next hsame =>
    cases h
    refine ⟨hhandle, .inl ⟨rfl, hsame.imp (fun hsame => ?_) fun hsame => ?_⟩⟩
    · rw [hunchanged, hsame]
    · have hdecode := env.stateJson.decode_encode state
      rw [hsame, env.stateJson.decode_encode] at hdecode
      exact (Except.ok.inj hdecode).symm
  · split at h
    next hchanged =>
      cases h
      exact ⟨hhandle, .inr (.inl ⟨hchanged, rfl⟩)⟩
    next hsame =>
      cases h
      exact ⟨hhandle, .inr (.inr ⟨not_not.1 hsame, rfl⟩)⟩

/-- What a command comes to: an answer, a sync state to save, or what a packet or a resolution has made of the
document. -/
inductive SyncWorked (device : Device) (state : PersonalSyncState env.toPairingEnv) (d : SecretDocument) (now : UInt64)
    (command : SyncCommand env) : SyncWork env → Prop
  | answered (reply : SyncReply env.toPairingEnv) : SyncWorked device state d now command (.answer reply)
  | saved (reply : SyncReply env.toPairingEnv) (replicas : ReplicaCatalog) {state' : PersonalSyncState env.toPairingEnv}
    (step : SyncStep env device state (.sync now command) state') :
    SyncWorked device state d now command (.save reply state' replicas)
  | received (reply : SyncReply env.toPairingEnv) {draw draw' : Nat} {packet : PacketId} {update : PersonalUpdate}
    {context : MutationContext} {outcome : ReceiveOutcome} {mutation : DocumentMutation} {d' : SecretDocument}
    (h : d.receivePersonal env draw packet update context = .ok (outcome, some (mutation, d'), draw')) :
    SyncWorked device state d now command (.commit reply mutation d')
  | resolved (reply : SyncReply env.toPairingEnv) {draw draw' : Nat} {id : String} {expected : ReplicaHeads}
    {item : Option PersonalSecret} {context : MutationContext} {mutation : DocumentMutation} {d' : SecretDocument}
    (h : d.resolvePersonal env draw id expected item context = .ok (mutation, d', draw')) :
    SyncWorked device state d now command (.commit reply mutation d')

theorem worked_readerIdentity (h : readerIdentity device state replicas draw = .ok (work, draw')) :
    SyncWorked device state d now .identity work := by
  simp only [readerIdentity, bind_eq_ok] at h
  obtain ⟨identity, hidentity, h⟩ := h
  split at h
  next =>
    cases h
    exact .answered _
  next hreader =>
    cases h
    exact .saved _ _ (.identified (by simpa using hreader) hidentity)

theorem worked_configure {membership : Membership env.toReaderCrypto}
    (h : configure device state replicas membership = .ok work) :
    SyncWorked device state d now (.configure membership) work := by
  simp only [configure, bind_eq_ok, ensure_eq_ok, ofOption_eq_ok] at h
  obtain ⟨⟨⟩, ⟨hgroup, hjoining, hintroduction⟩, wrapped, hwrapped, identity, hidentity, ⟨⟩, hown, h⟩ := h
  split at h
  next hnone =>
    cases h
    refine .saved _ _ (.configured hgroup hjoining hintroduction hwrapped hidentity hown fun m hm => ?_)
    rw [hnone] at hm
    cases hm
  next current hcurrent =>
    split at h
    · cases h
      exact .answered _
    · simp only [bind_eq_ok, ensure_eq_ok] at h
      obtain ⟨⟨⟩, hlater, h⟩ := h
      cases h
      refine .saved _ _ (.configured hgroup hjoining hintroduction hwrapped hidentity hown fun m hm => ?_)
      rw [hcurrent] at hm
      cases hm
      exact hlater

/-- A packet is sealed beside the rest of the state. -/
theorem worked_prepare (h : prepare device state replicas draw d = .ok (work, draw')) :
    SyncWorked device state d now .prepare work := by
  simp only [prepare, bind_eq_ok] at h
  obtain ⟨membership, -, h⟩ := h
  split at h
  next =>
    simp only [bind_eq_ok] at h
    obtain ⟨verified, -, h⟩ := h
    cases h
    exact .answered _
  next =>
    split at h
    next =>
      cases h
      exact .answered _
    next =>
      simp only [bind_eq_ok] at h
      obtain ⟨wrapped, -, identity, -, replica, -, update, -, ⟨packet, draw₁⟩, -, h⟩ := h
      cases h
      exact .saved _ _ (.quiet rfl rfl rfl)

theorem syncWork_eq_ok {command : SyncCommand env}
    (h : syncWork device state replicas draw now d command = .ok (work, draw')) :
    SyncWorked device state d now command work := by
  cases command with
  | identity => exact worked_readerIdentity h
  | pairing command =>
    obtain ⟨wrapped, identity, draw₁, reply, next, hreader, hidentity, hhandle, hwork⟩ := pairingCommand_eq_ok h
    have hsame := eq_of_ensureReader hreader
    rcases hwork with ⟨rfl, -⟩ | ⟨-, rfl⟩ | ⟨-, rfl⟩
    · exact .answered reply
    · exact .saved _ _ (.handled hsame hidentity (handle_eq_ok hhandle) rfl rfl rfl)
    · exact .saved _ _ (.handled hsame hidentity (handle_eq_ok hhandle) rfl rfl rfl)
  | configure membership =>
    simp only [syncWork, bind_eq_ok] at h
    obtain ⟨made, hmade, h⟩ := h
    cases h
    exact worked_configure hmade
  | prepare => exact worked_prepare h
  | stored packet =>
    simp only [syncWork, stored, bind_eq_ok] at h
    obtain ⟨made, ⟨prepared, -, membership, -, verified, -, ⟨⟩, -, replica, -, hmade⟩, h⟩ := h
    cases hmade
    cases h
    exact .saved _ _ (.quiet rfl rfl rfl)
  | receive bytes =>
    simp only [syncWork, receive, bind_eq_ok] at h
    obtain ⟨membership, -, packet, -, wrapped, -, identity, -, update, -, ⟨outcome, change, draw₁⟩, hreceive, h⟩ := h
    cases change with
    | none =>
      cases h
      exact .answered _
    | some change =>
      cases h
      exact .received _ hreceive
  | resolve id expected item =>
    simp only [syncWork, bind_eq_ok] at h
    obtain ⟨⟨mutation, after, draw₁⟩, hresolve, h⟩ := h
    cases h
    exact .resolved _ hresolve
  | group =>
    simp only [syncWork, bind_eq_ok] at h
    obtain ⟨pinned, -, verified, -, h⟩ := h
    cases h
    exact .answered _
  | pairingStatus | membership | status | conflicts id =>
    simp only [syncWork, bind_eq_ok] at h
    obtain ⟨_, -, h⟩ := h
    cases h
    exact .answered _

end

theorem PersonalVault.frame_committed {changed : Bool} {document : SecretDocument} {draws : Nat}
    (h : v.document.Frame document) : v.document.Frame (v.committed changed document draws).document := by
  unfold PersonalVault.committed
  split
  · exact h
  · exact .refl _

/-- **What an event does to the reader, the pairing state and the membership.** -/
theorem PersonalVault.step_sync {device : Device} {v' : PersonalVault} {event : PersonalEvent env}
    {state : PersonalSyncState env.toPairingEnv} (hstate : v.document.syncState env = .ok state)
    (h : PersonalVault.step env device v event = .ok v') :
    ∃ state', v'.document.syncState env = .ok state' ∧ SyncStep env device state event state' := by
  have hp := isPersonal_of_syncState hstate
  have hquiet : v.document.Frame v'.document → ∃ state', v'.document.syncState env = .ok state' ∧
      SyncStep env device state event state' :=
    fun hframe => ⟨state, hframe.syncState_eq.trans hstate, .quiet rfl rfl rfl⟩
  cases event with
  | sync now command =>
    simp only [PersonalVault.step, personalSync, bind_eq_ok] at h
    obtain ⟨⟨reply, change, draws⟩, ⟨found, hfound, ⟨⟩, -, replicas, -, ⟨work, draw'⟩, hwork, h'⟩, h⟩ := h
    cases h
    rw [hstate] at hfound
    cases hfound
    cases syncWork_eq_ok hwork with
    | answered reply =>
      cases h'
      exact hquiet (.refl _)
    | saved reply replicas hstep =>
      simp only [bind_eq_ok] at h'
      obtain ⟨⟨mutation, after⟩, hupdate, h'⟩ := h'
      cases h'
      exact ⟨_, syncState_updateSyncState hp hupdate, hstep⟩
    | received reply hreceive =>
      cases h'
      obtain ⟨found, receipt, hfound, hafter⟩ := syncState_receivePersonal hreceive
      rw [hstate] at hfound
      cases hfound
      exact ⟨_, hafter, .quiet rfl rfl rfl⟩
    | resolved reply hresolve =>
      cases h'
      exact hquiet (frame_resolvePersonal hp hresolve)
  | put address value evictAt context =>
    simp only [PersonalVault.step, bind_eq_ok] at h
    obtain ⟨⟨mutation, after, draws⟩, hput, h⟩ := h
    cases h
    exact hquiet (frame_of_changes hp (put_changes hput))
  | apply operations context =>
    simp only [PersonalVault.step, bind_eq_ok] at h
    obtain ⟨⟨mutation, after, draws⟩, happly, h⟩ := h
    cases h
    exact hquiet (PersonalVault.frame_committed (frame_of_changes hp (apply_changes happly)))
  | remove address operation =>
    simp only [PersonalVault.step, bind_eq_ok] at h
    obtain ⟨⟨mutation, after⟩, hremove, h⟩ := h
    cases h
    exact hquiet (PersonalVault.frame_committed (frame_remove hp hremove))
  | purgeExpired now =>
    simp only [PersonalVault.step, bind_eq_ok] at h
    obtain ⟨⟨mutation, after⟩, hpurge, h⟩ := h
    cases h
    exact hquiet (PersonalVault.frame_committed
      (frame_of_changes (P := fun _ _ _ => True) hp (purgeExpired_changes hpurge)))
  | clear =>
    simp only [PersonalVault.step, bind_eq_ok] at h
    obtain ⟨⟨cleared, after⟩, hclear, h⟩ := h
    cases h
    exact hquiet (PersonalVault.frame_committed
      (frame_of_changes (P := fun _ _ _ => True) hp (clear_changes hclear)))
  | migratePersonal =>
    simp only [PersonalVault.step, bind_eq_ok] at h
    obtain ⟨⟨mutation, after, draws⟩, hmigrate, h⟩ := h
    cases h
    exact hquiet (PersonalVault.frame_committed (frame_migratePersonal hp hmigrate))
  | migratePersonalReplicas =>
    simp only [PersonalVault.step, bind_eq_ok] at h
    obtain ⟨⟨mutation, after⟩, hmigrate, h⟩ := h
    cases h
    exact hquiet (PersonalVault.frame_committed (frame_migratePersonalReplicas hp hmigrate))

/-- After a cancel there is no introduction, no request the device has made and none it has staged. -/
theorem PersonalVault.step_cancel {device : Device} {v' : PersonalVault} {now : UInt64}
    {state : PersonalSyncState env.toPairingEnv} (hstate : v.document.syncState env = .ok state)
    (h : PersonalVault.step env device v (.sync now (.pairing .cancel)) = .ok v') :
    ∃ state', v'.document.syncState env = .ok state' ∧ state'.pairing.introduction = none ∧
      state'.pairing.joining = none ∧ state'.pairing.staged = none := by
  simp only [PersonalVault.step, personalSync, syncWork, bind_eq_ok] at h
  obtain ⟨⟨reply, change, draws⟩, ⟨found, hfound, ⟨⟩, -, replicas, -, ⟨work, draw'⟩, hwork, h'⟩, h⟩ := h
  cases h
  rw [hstate] at hfound
  cases hfound
  obtain ⟨wrapped, identity, draw₁, answer, next, -, -, hhandle, hwork⟩ := pairingCommand_eq_ok hwork
  simp only [handle, bind_eq_ok] at hhandle
  obtain ⟨current, -, hhandle⟩ := hhandle
  cases hhandle
  rcases hwork with ⟨rfl, hunchanged | hsame⟩ | ⟨-, rfl⟩ | ⟨-, rfl⟩
  · cases hunchanged
  · cases h'
    refine ⟨state, hstate, ?_⟩
    rw [hsame]
    exact ⟨rfl, rfl, rfl⟩
  · simp only [bind_eq_ok] at h'
    obtain ⟨⟨mutation, after⟩, hupdate, h'⟩ := h'
    cases h'
    exact ⟨_, syncState_updateSyncState (isPersonal_of_syncState hstate) hupdate, rfl, rfl,
      rfl⟩
  · simp only [bind_eq_ok] at h'
    obtain ⟨⟨mutation, after⟩, hupdate, h'⟩ := h'
    cases h'
    exact ⟨_, syncState_updateSyncState (isPersonal_of_syncState hstate) hupdate, rfl, rfl,
      rfl⟩

end FactorSeal

import FactorSeal.Vault.Migration

/-! # What an operation on a document leaves alone

Whatever is done to the records of a document, its kind, partition and actor stay, and so does the sync state at its root
(`Frame`). A committed document is its own projection: loading the snapshot of a mutation gives the document the mutation
leaves (`load_finishMutation`). -/

namespace FactorSeal

open Wire Except Std

variable {env : VaultEnv}

/-- An operation that leaves no record. -/
def HistoryOperation.isRemoval : HistoryOperation → Bool
  | .put _ => false
  | .delete | .clear | .expire => true

namespace SecretDocument

variable {d d' : SecretDocument} {address : SecretAddress} {value : Bytes} {evictAt : Option UInt64} {draw draw' : Nat}
  {context : MutationContext} {recordRevision removed : Bool} {operation : HistoryOperation}
  {mutation : Option DocumentMutation}

/-- Same kind, partition and actor, same sync state. -/
structure Frame (d d' : SecretDocument) : Prop where
  kind : d'.kind = d.kind
  partition : d'.partition = d.partition
  actor : d'.actor = d.actor
  syncState : d'.personal.syncState = d.personal.syncState

namespace Frame

theorem refl (d : SecretDocument) : Frame d d := ⟨rfl, rfl, rfl, rfl⟩

theorem trans {d'' : SecretDocument} (h : Frame d d') (h' : Frame d' d'') : Frame d d'' :=
  ⟨h'.kind.trans h.kind, h'.partition.trans h.partition, h'.actor.trans h.actor, h'.syncState.trans h.syncState⟩

theorem isPersonal (h : Frame d d') : d'.isPersonal = d.isPersonal := by
  rw [SecretDocument.isPersonal, SecretDocument.isPersonal, h.kind, h.partition]

end Frame

/-! ## Inversions -/

theorem savePersonalReplicas_eq_ok {catalog : ReplicaCatalog} (h : d.savePersonalReplicas env catalog = .ok d') :
    (env.catalogJson.encode catalog).length ≤ maxCatalogBytes ∧
      d' = { d with personal := { d.personal with replicas := some (env.catalogJson.encode catalog) } } := by
  simp only [savePersonalReplicas, bind_eq_ok, ensure_eq_ok] at h
  obtain ⟨⟨⟩, hlength, h⟩ := h
  cases h
  exact ⟨hlength, rfl⟩

theorem validatePersonalPut_eq_ok (h : d.validatePersonalPut env address value evictAt = .ok d') :
    (d.isPersonal = false ∧ d' = d) ∨ ∃ item, d.isPersonal = true ∧ env.itemJson.decodeCurrent value = some item ∧
      address = .local item.id none ∧ evictAt = none ∧
      d' = { d with personal := { d.personal with layout := some 1 } } := by
  unfold validatePersonalPut at h
  split at h
  next hp =>
    simp only [bind_eq_ok, ofOption_eq_ok, ensure_eq_ok] at h
    obtain ⟨item, hitem, ⟨⟩, ⟨haddress, hdeadline⟩, h⟩ := h
    cases h
    exact .inr ⟨item, hp, hitem, haddress, hdeadline, rfl⟩
  next hp =>
    cases h
    exact .inl ⟨by simpa using hp, rfl⟩

theorem recordPersonalChange_eq_ok {deleted : Bool} (h : d.recordPersonalChange env address deleted = .ok d') :
    (d.isPersonal = false ∧ d' = d) ∨ ∃ id catalog item, ∃ replica changed : PersonalReplica env.toReplicaEnv,
      ∃ stored, d.isPersonal = true ∧ address = .local id none ∧ d.personalReplicas env = .ok catalog ∧
        catalog.loadOrNew id d.actor = .ok replica ∧ d.changedItem env address deleted = .ok item ∧
        replica.set item none = .ok changed ∧ catalog.store id changed true = .ok stored ∧
        d.savePersonalReplicas env stored = .ok d' := by
  unfold recordPersonalChange at h
  split at h
  next hp =>
    split at h
    next id =>
      simp only [bind_eq_ok] at h
      obtain ⟨catalog, hcatalog, replica, hreplica, item, hitem, changed, hchanged, stored, hstored, h⟩ := h
      exact .inr ⟨id, catalog, item, replica, changed, stored, hp, rfl, hcatalog, hreplica, hitem, hchanged, hstored, h⟩
    next => cases h
  next hp =>
    cases h
    exact .inl ⟨by simpa using hp, rfl⟩

/-- The document with one record at its address. -/
def enter (env : VaultEnv) (d : SecretDocument) (record : SecretRecord) : SecretDocument :=
  { d with entries := d.entries.insert (record.address.storageKey env.sha256) [record] }

/-- How a value is written: the record of its key is replaced, and a change that is to be recorded goes into the replica. -/
theorem putValueUncommitted_eq_ok
    (h : d.putValueUncommitted env draw address value evictAt context recordRevision = .ok (d', draw')) :
    ∃ checked record recorded, d.validatePersonalPut env address value evictAt = .ok checked ∧
      record.version = recordVersion ∧ record.address = address ∧ record.value = value ∧ record.evictAt = evictAt ∧
      (∃ pending, d' = { recorded with pending }) ∧
      ((recordRevision = true ∧ (checked.enter env record).recordPersonalChange env address false = .ok recorded) ∨
        ((recordRevision = false ∨ ∃ old, (checked.records (address.storageKey env.sha256)).head? = some old ∧
          old.value = value ∧ old.evictAt = evictAt) ∧ recorded = checked.enter env record)) := by
  rw [putValueUncommitted, bind_eq_ok] at h
  obtain ⟨checked, hchecked, h⟩ := h
  extract_lets key existing changed at h
  have hchanged : changed = decide (∀ old ∈ existing, old.value ≠ value ∨ old.evictAt ≠ evictAt) := rfl
  clear_value changed
  split at h
  extract_lets record entered finish at h
  have hfinish : ∀ recorded, finish recorded = .ok (d', draw') → ∃ pending, d' = { recorded with pending } := by
    intro recorded hrecorded
    have hd := congrArg Prod.fst (Except.ok.inj hrecorded)
    dsimp only at hd
    refine ⟨d'.pending, ?_⟩
    rw [← hd]
    split <;> rfl
  refine ⟨checked, record, ?_⟩
  split at h
  next hcond =>
    rw [bind_eq_ok] at h
    obtain ⟨recorded, hrecorded, h⟩ := h
    exact ⟨recorded, hchecked, rfl, rfl, rfl, rfl, hfinish recorded h, .inl ⟨(Bool.and_eq_true_iff.1 hcond).2, hrecorded⟩⟩
  next hcond =>
    refine ⟨entered, hchecked, rfl, rfl, rfl, rfl, hfinish entered h, .inr ⟨?_, rfl⟩⟩
    by_cases hrecord : recordRevision = true
    · have hsame : ¬ ∀ old ∈ existing, old.value ≠ value ∨ old.evictAt ≠ evictAt := by
        simpa [hrecord, hchanged] using hcond
      push Not at hsame
      exact .inr hsame
    · exact .inl (by simpa using hrecord)

theorem deleteValueUncommitted_eq_ok
    (h : d.deleteValueUncommitted env address operation recordRevision = .ok (d', removed)) :
    ((d.records (address.storageKey env.sha256)).head? = none ∧ d' = d ∧ removed = false) ∨
      ∃ old recorded, (d.records (address.storageKey env.sha256)).head? = some old ∧ removed = true ∧
        (∃ pending, d' = { recorded with pending }) ∧
        ((recordRevision = true ∧
            { d with entries := d.entries.erase (address.storageKey env.sha256) }.recordPersonalChange env address true =
              .ok recorded) ∨
          (recordRevision = false ∧
            recorded = { d with entries := d.entries.erase (address.storageKey env.sha256) })) := by
  unfold deleteValueUncommitted at h
  dsimp only at h
  split at h
  next hnone =>
    cases h
    exact .inl ⟨hnone, rfl, rfl⟩
  next old hold =>
    split at h
    next hrecord =>
      rw [bind_eq_ok] at h
      obtain ⟨recorded, hrecorded, h⟩ := h
      cases h
      exact .inr ⟨old, recorded, hold, rfl, ⟨_, rfl⟩, .inl ⟨hrecord, hrecorded⟩⟩
    next hrecord =>
      cases h
      exact .inr ⟨old, _, hold, rfl, ⟨_, rfl⟩, .inr ⟨by simpa using hrecord, rfl⟩⟩

/-! ## Frames -/

theorem frame_savePersonalReplicas {catalog : ReplicaCatalog} (h : d.savePersonalReplicas env catalog = .ok d') :
    Frame d d' := by
  obtain ⟨-, rfl⟩ := savePersonalReplicas_eq_ok h
  exact ⟨rfl, rfl, rfl, rfl⟩

theorem frame_recordPersonalChange {deleted : Bool}
    (h : d.recordPersonalChange env address deleted = .ok d') : Frame d d' := by
  rcases recordPersonalChange_eq_ok h with ⟨-, rfl⟩ | ⟨id, catalog, item, replica, changed, stored, -, -, -, -, -, -, -, h⟩
  · exact .refl d'
  · exact frame_savePersonalReplicas h

theorem frame_putValueUncommitted
    (h : d.putValueUncommitted env draw address value evictAt context recordRevision = .ok (d', draw')) : Frame d d' := by
  obtain ⟨checked, record, recorded, hchecked, -, -, -, -, ⟨pending, rfl⟩, hrecorded⟩ := putValueUncommitted_eq_ok h
  have hput : Frame d checked := by
    rcases validatePersonalPut_eq_ok hchecked with ⟨-, rfl⟩ | ⟨item, -, -, -, -, rfl⟩
    · exact .refl checked
    · exact ⟨rfl, rfl, rfl, rfl⟩
  have hrecord : Frame (checked.enter env record) recorded := by
    rcases hrecorded with ⟨-, h⟩ | ⟨-, rfl⟩
    · exact frame_recordPersonalChange h
    · exact .refl _
  have henter : Frame checked (checked.enter env record) := ⟨rfl, rfl, rfl, rfl⟩
  exact (hput.trans henter).trans (hrecord.trans ⟨rfl, rfl, rfl, rfl⟩)

theorem frame_putUncommitted (h : d.putUncommitted env draw address value evictAt context = .ok (d', draw')) :
    Frame d d' := by
  simp only [putUncommitted, bind_eq_ok] at h
  obtain ⟨⟨⟩, -, h⟩ := h
  exact frame_putValueUncommitted h

theorem frame_deleteValueUncommitted
    (h : d.deleteValueUncommitted env address operation recordRevision = .ok (d', removed)) : Frame d d' := by
  rcases deleteValueUncommitted_eq_ok h with ⟨-, rfl, -⟩ | ⟨old, recorded, -, -, ⟨pending, rfl⟩, ⟨-, h⟩ | ⟨-, rfl⟩⟩
  · exact .refl _
  · obtain ⟨hkind, hpartition, hactor, hsync⟩ := frame_recordPersonalChange h
    exact ⟨hkind, hpartition, hactor, hsync⟩
  · exact ⟨rfl, rfl, rfl, rfl⟩

theorem frame_deleteUncommitted (h : d.deleteUncommitted env address operation = .ok (d', removed)) : Frame d d' := by
  simp only [deleteUncommitted, bind_eq_ok] at h
  obtain ⟨⟨⟩, -, h⟩ := h
  exact frame_deleteValueUncommitted h

theorem finishMutation_eq_ok {mutation : DocumentMutation} (h : d.finishMutation env = .ok (mutation, d')) :
    ∃ deadline, d.project = .ok (d', deadline) ∧ mutation.snapshot = env.documentFormat.encode d'.root ∧
      mutation.partition = d.partition := by
  simp only [finishMutation, bind_eq_ok] at h
  obtain ⟨⟨projection, deadline⟩, hproject, h⟩ := h
  cases h
  exact ⟨deadline, hproject, rfl, rfl⟩

/-- A projection is a fresh document with the records and, of a personal document, the metadata. -/
theorem project_eq_ok {deadline : Option UInt64} (h : d.project = .ok (d', deadline)) :
    ∃ entries, d' = { new d.actor d.kind d.partition with
      entries, personal := if d.isPersonal then d.personal else ⟨none, none, none, none⟩ } := by
  simp only [project, bind_eq_ok] at h
  obtain ⟨kept, -, h⟩ := h
  cases h
  exact ⟨_, rfl⟩

theorem frame_finishMutation {mutation : DocumentMutation} (hp : d.isPersonal = true)
    (h : d.finishMutation env = .ok (mutation, d')) : Frame d d' := by
  obtain ⟨deadline, hproject, -⟩ := finishMutation_eq_ok h
  obtain ⟨entries, rfl⟩ := project_eq_ok hproject
  rw [if_pos hp]
  exact ⟨rfl, rfl, rfl, rfl⟩

/-! ## Whole operations -/

/-- The changes an operation makes before it is committed: writes of the kind `P`, and removals. -/
inductive Changes (env : VaultEnv) (P : SecretAddress → Bytes → Option UInt64 → Prop) (d : SecretDocument) :
    SecretDocument → Prop
  | refl : Changes env P d d
  | put {d₁ d₂ : SecretDocument} {draw draw' : Nat} {address : SecretAddress} {value : Bytes} {evictAt : Option UInt64}
    {context : MutationContext} (before : Changes env P d d₁)
    (h : d₁.putUncommitted env draw address value evictAt context = .ok (d₂, draw')) (kind : P address value evictAt) :
    Changes env P d d₂
  | delete {d₁ d₂ : SecretDocument} {address : SecretAddress} {operation : HistoryOperation} {removed : Bool}
    (before : Changes env P d d₁) (h : d₁.deleteUncommitted env address operation = .ok (d₂, removed))
    (removal : operation.isRemoval = true) : Changes env P d d₂

/-- How an operation ends: with the commit of the changed document if there is one to make. -/
def Ends (env : VaultEnv) (changed : SecretDocument) (mutation : Option DocumentMutation) (d' : SecretDocument) : Prop :=
  match mutation with
  | none => d' = changed
  | some made => changed.finishMutation env = .ok (made, d')

section

variable {P : SecretAddress → Bytes → Option UInt64 → Prop} {operations : List DocumentOperation} {now : UInt64}

theorem put_changes {mutation : DocumentMutation}
    (h : d.put env draw address value evictAt context = .ok (mutation, d', draw')) :
    ∃ changed, Changes env (fun a v e => a = address ∧ v = value ∧ e = evictAt) d changed ∧
      Ends env changed (some mutation) d' := by
  simp only [put, bind_eq_ok] at h
  obtain ⟨⟨changed, draw₁⟩, hput, ⟨made, projected⟩, hfinish, h⟩ := h
  cases h
  exact ⟨changed, .put .refl hput ⟨rfl, rfl, rfl⟩, hfinish⟩

theorem applyAll_changes {state state' : SecretDocument × Nat × Bool}
    (h : operations.foldlM (applyOne env context) state = .ok state') :
    Changes env (fun a v e => .put a v e ∈ operations) state.1 state'.1 := by
  refine foldlM_invariant (P := fun s : SecretDocument × Nat × Bool =>
    Changes env (fun a v e => .put a v e ∈ operations) state.1 s.1) (fun s operation s' hmem hs hstep => ?_) .refl h
  cases operation with
  | put address value evictAt =>
    obtain ⟨⟨changed, draw⟩, hput, hstep⟩ := bind_eq_ok.1 hstep
    cases hstep
    exact hs.put hput hmem
  | delete address =>
    obtain ⟨⟨changed, removed⟩, hdelete, hstep⟩ := bind_eq_ok.1 hstep
    cases hstep
    exact hs.delete hdelete rfl

theorem apply_changes (h : d.apply env draw operations context = .ok (mutation, d', draw')) :
    ∃ changed, Changes env (fun a v e => .put a v e ∈ operations) d changed ∧
      Ends env changed mutation d' := by
  simp only [apply, bind_eq_ok] at h
  obtain ⟨⟨changed, draw₁, any⟩, hfold, h⟩ := h
  refine ⟨changed, applyAll_changes hfold, ?_⟩
  split at h
  · simp only [bind_eq_ok] at h
    obtain ⟨⟨made, projected⟩, hfinish, h⟩ := h
    cases h
    exact hfinish
  · cases h
    rfl

theorem remove_changes (h : d.remove env address operation = .ok (mutation, d')) (hremoval : operation.isRemoval = true) :
    ∃ changed, Changes env P d changed ∧ Ends env changed mutation d' := by
  simp only [remove, bind_eq_ok] at h
  obtain ⟨⟨changed, removed⟩, hdelete, h⟩ := h
  refine ⟨changed, .delete .refl hdelete hremoval, ?_⟩
  split at h
  · simp only [bind_eq_ok] at h
    obtain ⟨⟨made, projected⟩, hfinish, h⟩ := h
    cases h
    exact hfinish
  · cases h
    rfl

theorem purgeExpired_changes (h : d.purgeExpired env now = .ok (mutation, d')) :
    ∃ changed, Changes env P d changed ∧ Ends env changed mutation d' := by
  simp only [purgeExpired, bind_eq_ok] at h
  obtain ⟨expired, -, h⟩ := h
  split at h
  · cases h
    exact ⟨d, .refl, rfl⟩
  · simp only [bind_eq_ok] at h
    obtain ⟨changed, hfold, ⟨made, projected⟩, hfinish, h⟩ := h
    cases h
    refine ⟨changed, foldlM_invariant (P := Changes env P d) (fun e address e' _ he hstep => ?_) .refl hfold,
      hfinish⟩
    obtain ⟨⟨removed, any⟩, hdelete, hstep⟩ := bind_eq_ok.1 hstep
    cases hstep
    exact he.delete hdelete rfl

theorem clear_changes {cleared : Option (Nat × DocumentMutation)} (h : d.clear env = .ok (cleared, d')) :
    ∃ changed, Changes env P d changed ∧ Ends env changed (cleared.map Prod.snd) d' := by
  simp only [clear] at h
  split at h
  · cases h
    exact ⟨d, .refl, rfl⟩
  · simp only [bind_eq_ok] at h
    obtain ⟨changed, hfold, ⟨made, projected⟩, hfinish, h⟩ := h
    cases h
    refine ⟨changed, foldlM_invariant (P := Changes env P d) (fun e entry e' _ he hstep => ?_) .refl hfold,
      hfinish⟩
    split at hstep
    · cases hstep
      exact he
    · obtain ⟨⟨removed, any⟩, hdelete, hstep⟩ := bind_eq_ok.1 hstep
      cases hstep
      exact he.delete hdelete rfl

theorem Changes.frame (h : Changes env P d d') : Frame d d' := by
  induction h with
  | refl => exact .refl d
  | put _ hput _ ih => exact ih.trans (frame_putUncommitted hput)
  | delete _ hdelete _ ih => exact ih.trans (frame_deleteUncommitted hdelete)

/-- A removal of whatever operation. -/
theorem frame_remove (hp : d.isPersonal = true) (h : d.remove env address operation = .ok (mutation, d')) :
    Frame d d' := by
  simp only [remove, bind_eq_ok] at h
  obtain ⟨⟨changed, removed⟩, hdelete, h⟩ := h
  have hframe := frame_deleteUncommitted hdelete
  split at h
  · simp only [bind_eq_ok] at h
    obtain ⟨⟨made, projected⟩, hfinish, h⟩ := h
    cases h
    exact hframe.trans (frame_finishMutation (hframe.isPersonal.trans hp) hfinish)
  · cases h
    exact hframe

/-- Whatever the operation, a personal document keeps its frame. -/
theorem frame_of_changes (hp : d.isPersonal = true)
    (h : ∃ changed, Changes env P d changed ∧ Ends env changed mutation d') : Frame d d' := by
  obtain ⟨changed, hchanges, hends⟩ := h
  cases mutation with
  | none =>
    obtain rfl : d' = changed := hends
    exact hchanges.frame
  | some made => exact hchanges.frame.trans (frame_finishMutation (hchanges.frame.isPersonal.trans hp) hends)

end

theorem frame_migratePersonal (hp : d.isPersonal = true)
    (h : d.migratePersonal env draw = .ok (mutation, d', draw')) : Frame d d' := by
  unfold migratePersonal at h
  rw [if_pos hp] at h
  split at h
  · simp only [bind_eq_ok] at h
    obtain ⟨⟨⟩, -, h⟩ := h
    cases h
    exact .refl d
  · simp only [bind_eq_ok] at h
    obtain ⟨addresses, -, records, -, state, -, saved, hsaved, ⟨made, projected⟩, hfinish, h⟩ := h
    cases h
    obtain ⟨-, rfl⟩ := savePersonalReplicas_eq_ok hsaved
    obtain ⟨hkind, hpartition, hactor, hsync⟩ := frame_finishMutation (by exact hp) hfinish
    exact ⟨hkind, hpartition, hactor, hsync⟩

theorem frame_migratePersonalReplicas (hp : d.isPersonal = true)
    (h : d.migratePersonalReplicas env = .ok (mutation, d')) : Frame d d' := by
  unfold migratePersonalReplicas at h
  split at h
  next =>
    cases h
    exact .refl d
  next =>
    simp only [bind_eq_ok] at h
    obtain ⟨addresses, -, replicated, -, h⟩ := h
    -- with a journal and without one it ends alike
    obtain ⟨catalog, saved, made, hsaved, hfinish⟩ : ∃ catalog saved made, d.savePersonalReplicas env catalog = .ok saved ∧
        saved.finishMutation env = .ok (made, d') := by
      split at h
      all_goals
        simp only [bind_eq_ok] at h
        obtain ⟨deleted, -, catalog, -, saved, hsaved, ⟨made, projected⟩, hfinish, h⟩ := h
        cases h
        exact ⟨catalog, saved, made, hsaved, hfinish⟩
    have hframe := frame_savePersonalReplicas hsaved
    exact hframe.trans (frame_finishMutation (hframe.isPersonal.trans hp) hfinish)

/-- What has been committed is read back: loading the snapshot gives the document the mutation left. -/
theorem load_finishMutation {mutation : DocumentMutation} (h : d.finishMutation env = .ok (mutation, d')) :
    load env mutation.snapshot d'.actor d'.kind (some d'.partition) = .ok d' := by
  obtain ⟨deadline, hproject, hsnapshot, -⟩ := finishMutation_eq_ok h
  obtain ⟨entries, rfl⟩ := project_eq_ok hproject
  rw [load, hsnapshot, env.documentFormat.decode_encode]
  simp only [root, new, ofOption_some, ok_bind]
  rw [ensure_of ?_]
  · rfl
  · refine ⟨trivial, ?_, fun p hp => by cases hp; rfl⟩
    by_cases hp : FactorSeal.isPersonal d.kind d.partition = true
    · exact .inr ⟨hp, .inr (.inr (congrArg some (if_pos hp)))⟩
    · exact .inl (congrArg some (if_neg hp))

end SecretDocument

end FactorSeal

import FactorSeal.Lib.Trail
import FactorSeal.Vault.Batch
import FactorSeal.Vault.Retention

/-! # The versions of a document's records

Every change of a record queues a history entry with the version that was there and the version that is there now; a
write that changes nothing keeps the version, a removal leaves none. So the queued entries lead from the versions before
a mutation to those after it, also where one batch writes an address several times (`Traces`). The projection at the end
of a mutation keeps the versions, and the entries of one generation after another stay a trail when the oldest are
dropped (`leads_recordBatch`). -/

namespace FactorSeal

open Wire Except Std ExtMap Link

/-- The version of the record under a storage key. -/
def SecretDocument.versions (d : SecretDocument) : String → Option VersionId := fun key =>
  (d.records key).head?.map SecretRecord.versionId

/-- A write leaves a version, the one it found if it changes nothing; a removal finds one and leaves none. -/
def Shaped (operation : HistoryOperation) (previous version : Option VersionId) : Prop :=
  match operation with
  | .put changed => version.isSome ∧ (changed = false → version = previous)
  | .delete | .clear | .expire => version = none ∧ previous.isSome

theorem Shaped.eq_none_iff {operation : HistoryOperation} {previous version : Option VersionId}
    (h : Shaped operation previous version) : version = none ↔ operation.isRemoval = true := by
  cases operation with
  | put changed =>
    obtain ⟨hsome, -⟩ := h
    constructor
    · rintro rfl
      cases hsome
    · intro hremoval
      cases hremoval
  | delete => exact ⟨fun _ => rfl, fun _ => h.1⟩
  | clear => exact ⟨fun _ => rfl, fun _ => h.1⟩
  | expire => exact ⟨fun _ => rfl, fun _ => h.1⟩

def PendingHistory.link (env : VaultEnv) (p : PendingHistory) : Link String VersionId :=
  ⟨p.address.storageKey env.sha256, p.previousVersionId, p.versionId⟩

def HistoryEntry.link (env : VaultEnv) (e : HistoryEntry) : Link String VersionId :=
  ⟨e.address.storageKey env.sha256, e.previousVersionId, e.versionId⟩

namespace SecretDocument

variable {env : VaultEnv} {d d' d'' : SecretDocument}

variable {address : SecretAddress} {value : Bytes} {evictAt : Option UInt64} {draw draw' : Nat}
  {context : MutationContext} {operation : HistoryOperation} {mutation : DocumentMutation}

variable {deleted recordRevision removed : Bool}

/-- The entries queued on the way from `d` to `d'` lead from the versions of `d` to those of `d'`. -/
structure Traces (env : VaultEnv) (d d' : SecretDocument) : Prop where
  kind : d'.kind = d.kind
  partition : d'.partition = d.partition
  actor : d'.actor = d.actor
  queued : ∃ queued, d'.pending = d.pending ++ queued ∧
    (∀ p ∈ queued, Shaped p.operation p.previousVersionId p.versionId) ∧
    Leads d.versions (queued.map (PendingHistory.link env)) d'.versions

namespace Traces

theorem refl (d : SecretDocument) : Traces env d d := ⟨rfl, rfl, rfl, [], by simp, by simp, rfl⟩

theorem trans (h : Traces env d d') (h' : Traces env d' d'') : Traces env d d'' := by
  obtain ⟨queued, hpending, hshaped, hleads⟩ := h.queued
  obtain ⟨queued', hpending', hshaped', hleads'⟩ := h'.queued
  refine ⟨h'.kind.trans h.kind, h'.partition.trans h.partition, h'.actor.trans h.actor, queued ++ queued',
    by rw [hpending', hpending, List.append_assoc], fun p hp => ?_, ?_⟩
  · rcases List.mem_append.1 hp with hp | hp
    · exact hshaped p hp
    · exact hshaped' p hp
  · rw [List.map_append]
    exact leads_append.2 ⟨_, hleads, hleads'⟩

end Traces

/-- A document with other replicas or another sync state and the same records and queue. -/
structure Quiet (d d' : SecretDocument) : Prop where
  kind : d'.kind = d.kind
  partition : d'.partition = d.partition
  actor : d'.actor = d.actor
  pending : d'.pending = d.pending
  entries : d'.entries = d.entries

namespace Quiet

theorem refl (d : SecretDocument) : Quiet d d := ⟨rfl, rfl, rfl, rfl, rfl⟩

theorem traces (h : Quiet d d') : Traces env d d' := by
  refine ⟨h.kind, h.partition, h.actor, [], by simp [h.pending], by simp, ?_⟩
  funext key
  rw [versions, versions, records, records, h.entries]

/-- One entry is queued, for what is now under its key. -/
theorem traces_entry {p : PendingHistory} {changed : SecretDocument} (h : Quiet changed d') (hkind : changed.kind = d.kind)
    (hpartition : changed.partition = d.partition) (hactor : changed.actor = d.actor)
    (hpending : changed.pending = d.pending) (hshaped : Shaped p.operation p.previousVersionId p.versionId)
    (hprevious : p.previousVersionId = d.versions (p.address.storageKey env.sha256))
    (hversions : changed.versions = Function.update d.versions (p.address.storageKey env.sha256) p.versionId) :
    Traces env d { d' with pending := d'.pending ++ [p] } := by
  refine ⟨h.kind.trans hkind, h.partition.trans hpartition, h.actor.trans hactor, [p], ?_, by simpa using hshaped,
    hprevious, ?_⟩
  · show d'.pending ++ [p] = _
    rw [h.pending, hpending]
  · show Function.update d.versions (p.address.storageKey env.sha256) p.versionId = _
    rw [← hversions]
    funext key
    show (changed.records key).head?.map SecretRecord.versionId = (d'.records key).head?.map SecretRecord.versionId
    rw [records, records, h.entries]

end Quiet

theorem versions_enter (record : SecretRecord) :
    (d.enter env record).versions =
      Function.update d.versions (record.address.storageKey env.sha256) (some record.versionId) := by
  funext k
  simp only [versions, records, enter, getElem?_insert_iff, Function.update_apply]
  by_cases hk : record.address.storageKey env.sha256 = k
  · simp [hk]
  · simp [hk, Ne.symm hk]

theorem versions_erase (d : SecretDocument) (key : String) :
    ({ d with entries := d.entries.erase key } : SecretDocument).versions = Function.update d.versions key none := by
  funext k
  simp only [versions, records, ExtTreeMap.getElem?_erase, Function.update_apply]
  by_cases hk : key = k
  · simp [hk]
  · have hcompare : compare key k ≠ .eq := fun heq => hk (LawfulEqOrd.eq_of_compare heq)
    simp [hcompare, Ne.symm hk]

theorem quiet_savePersonalReplicas {catalog : ReplicaCatalog} (h : d.savePersonalReplicas env catalog = .ok d') :
    Quiet d d' := by
  obtain ⟨-, rfl⟩ := savePersonalReplicas_eq_ok h
  exact ⟨rfl, rfl, rfl, rfl, rfl⟩

theorem quiet_validatePersonalPut (h : d.validatePersonalPut env address value evictAt = .ok d') : Quiet d d' := by
  rcases validatePersonalPut_eq_ok h with ⟨-, rfl⟩ | ⟨item, -, -, -, -, rfl⟩
  · exact .refl _
  · exact ⟨rfl, rfl, rfl, rfl, rfl⟩

theorem quiet_recordPersonalChange (h : d.recordPersonalChange env address deleted = .ok d') : Quiet d d' := by
  rcases recordPersonalChange_eq_ok h with ⟨-, rfl⟩ | ⟨id, catalog, item, replica, changed, stored, -, -, -, -, -, -, -, h⟩
  · exact .refl _
  · exact quiet_savePersonalReplicas h

theorem quiet_recordIf {c : Bool}
    (h : (if c then d.recordPersonalChange env address deleted else .ok d) = .ok d') : Quiet d d' := by
  split at h
  · exact quiet_recordPersonalChange h
  · cases h
    exact .refl _

theorem traces_putValueUncommitted
    (h : d.putValueUncommitted env draw address value evictAt context recordRevision = .ok (d', draw')) :
    Traces env d d' := by
  rw [OpenDocument.putValueUncommitted_eq, bind_eq_ok] at h
  obtain ⟨checked, hchecked, h⟩ := h
  refine (quiet_validatePersonalPut hchecked).traces.trans ?_
  extract_lets existing changed version at h
  obtain ⟨written, hwritten, hsame⟩ := map_eq_ok.1 h
  cases hsame
  -- an unchanged value keeps its version
  have hversion : changed = false → existing.map SecretRecord.versionId = some version.1 := by
    intro hfalse
    cases hexisting : existing with
    | none =>
      have htrue : changed = true := by simp [changed, hexisting]
      rw [htrue] at hfalse
      cases hfalse
    | some record => simp [version, hexisting, hfalse]
  obtain ⟨recorded, hrecorded, hqueued⟩ := map_eq_ok.1 hwritten
  have hquiet := quiet_recordIf hrecorded
  let record : SecretRecord := ⟨recordVersion, address, value, evictAt, version.1,
    (existing.map SecretRecord.createdAt).getD context.now, context.now⟩
  have hversions : (checked.enter env record).versions =
      Function.update checked.versions (address.storageKey env.sha256) (some version.1) := versions_enter record
  split at hqueued
  next hqueue =>
    subst hqueued
    exact hquiet.traces_entry rfl rfl rfl rfl ⟨rfl, fun hfalse => (hversion hfalse).symm⟩ rfl hversions
  next hqueue =>
    -- a cache does not record the write, and the version is what it was
    have hfalse : changed = false := by
      cases hchanged : changed with
      | false => rfl
      | true => simp [hchanged] at hqueue
    subst hqueued
    have hentered : Traces env checked (checked.enter env record) := by
      refine ⟨rfl, rfl, rfl, [], (List.append_nil _).symm, by simp, ?_⟩
      show checked.versions = (checked.enter env record).versions
      rw [hversions]
      exact (Function.update_eq_self_iff.2 (hversion hfalse).symm).symm
    exact hentered.trans hquiet.traces

theorem traces_putUncommitted (h : d.putUncommitted env draw address value evictAt context = .ok (d', draw')) :
    Traces env d d' := by
  simp only [putUncommitted, bind_eq_ok] at h
  obtain ⟨⟨⟩, -, h⟩ := h
  exact traces_putValueUncommitted h

theorem traces_deleteValueUncommitted (hremoval : operation.isRemoval = true)
    (h : d.deleteValueUncommitted env address operation recordRevision = .ok (d', removed)) : Traces env d d' := by
  unfold deleteValueUncommitted at h
  dsimp only at h
  split at h
  next hnone =>
    cases h
    exact .refl d
  next old hold =>
    have hshaped : Shaped operation (some old.versionId) none := by
      cases operation with
      | put changed => cases hremoval
      | delete => exact ⟨rfl, rfl⟩
      | clear => exact ⟨rfl, rfl⟩
      | expire => exact ⟨rfl, rfl⟩
    have hfound : d.versions (address.storageKey env.sha256) = some old.versionId := by
      rw [versions, hold]
      rfl
    have hversions := d.versions_erase (address.storageKey env.sha256)
    split at h
    · rw [bind_eq_ok] at h
      obtain ⟨recorded, hrecorded, h⟩ := h
      cases h
      exact (quiet_recordPersonalChange hrecorded).traces_entry rfl rfl rfl rfl hshaped hfound.symm hversions
    · cases h
      exact (Quiet.refl _).traces_entry rfl rfl rfl rfl hshaped hfound.symm hversions

theorem traces_deleteUncommitted
    (hremoval : operation.isRemoval = true) (h : d.deleteUncommitted env address operation = .ok (d', removed)) :
    Traces env d d' := by
  simp only [deleteUncommitted, bind_eq_ok] at h
  obtain ⟨⟨⟩, -, h⟩ := h
  exact traces_deleteValueUncommitted hremoval h

theorem Changes.traces {P : SecretAddress → Bytes → Option UInt64 → Prop} (h : Changes env P d d') : Traces env d d' := by
  induction h with
  | refl => exact .refl d
  | put _ hput _ ih => exact ih.trans (traces_putUncommitted hput)
  | delete _ hdelete hremoval ih => exact ih.trans (traces_deleteUncommitted hremoval hdelete)

/-! ## Mutations -/

/-- The mutation commits a document that `d` leads to. -/
def Commits (env : VaultEnv) (d : SecretDocument) (mutation : DocumentMutation) : Prop :=
  ∃ changed after, Traces env d changed ∧ changed.finishMutation env = .ok (mutation, after)

/-- What is committed has the versions the queue leads to. -/
theorem versions_finishMutation (h : d.finishMutation env = .ok (mutation, d')) :
    mutation.history = d.pending ∧ mutation.addressMigrations = [] ∧ d'.versions = d.versions := by
  have halike := alike_project (finishMutation_eq_ok h).choose_spec.1
  simp only [finishMutation, bind_eq_ok] at h
  obtain ⟨⟨projection, deadline⟩, -, h⟩ := h
  cases h
  refine ⟨rfl, rfl, ?_⟩
  funext key
  rw [versions, versions, halike.head?]

end SecretDocument

/-! ## The log -/

namespace HistoryLog

variable {env : VaultEnv}

/-- The entries the log keeps lead to the versions of the document. -/
def Follows (env : VaultEnv) (log : HistoryLog) (versions : String → Option VersionId) : Prop :=
  (∀ e ∈ log.entries, Shaped e.operation e.previousVersionId e.versionId) ∧
    ∃ start, Leads start (log.entries.map (HistoryEntry.link env)) versions

theorem map_link_entries (b : Batch) (start : Nat) :
    (b.entries start).map (HistoryEntry.link env) = b.pending.map (PendingHistory.link env) := by
  apply List.ext_getElem
  · simp [Batch.entries]
  · intro i hi hi'
    simp [Batch.entries, Batch.entry, HistoryEntry.new, HistoryEntry.link, PendingHistory.link]

/-- Recording the queue of a mutation takes the log from the versions before it to those after it. -/
theorem shaped_entries {b : Batch} (h : ∀ p ∈ b.pending, Shaped p.operation p.previousVersionId p.versionId) {start : Nat}
    {e : HistoryEntry} (he : e ∈ b.entries start) : Shaped e.operation e.previousVersionId e.versionId := by
  obtain ⟨i, hi, rfl⟩ := List.mem_mapIdx.1 he
  exact h _ (List.getElem_mem hi)

theorem Follows.recordBatch {log log' : HistoryLog} {b : Batch} {before after : String → Option VersionId}
    (h : log.Follows env before) (hshaped : ∀ p ∈ b.pending, Shaped p.operation p.previousVersionId p.versionId)
    (hleads : Leads before (b.pending.map (PendingHistory.link env)) after)
    {size : HistoryEntry → Nat} (hrecord : log.recordBatch size b = .ok log') : log'.Follows env after := by
  obtain ⟨hold, start, htrail⟩ := h
  obtain ⟨-, -, hentries⟩ := recordBatch_eq_ok hrecord
  obtain ⟨dropped, hdropped⟩ := trim_suffix size log.kind.historyRetention (log.entries ++ b.entries log.nextSeq.toNat)
  rw [← hentries] at hdropped
  constructor
  · intro e he
    have hmem : e ∈ log.entries ++ b.entries log.nextSeq.toNat := hdropped ▸ List.mem_append_right _ he
    rcases List.mem_append.1 hmem with hmem | hmem
    · exact hold e hmem
    · exact shaped_entries hshaped hmem
  · have hall : Leads start ((log.entries ++ b.entries log.nextSeq.toNat).map (HistoryEntry.link env)) after := by
      rw [List.map_append, map_link_entries]
      exact leads_append.2 ⟨before, htrail, hleads⟩
    rw [← hdropped, List.map_append] at hall
    obtain ⟨middle, -, hkept⟩ := leads_append.1 hall
    exact ⟨middle, hkept⟩

end HistoryLog

end FactorSeal

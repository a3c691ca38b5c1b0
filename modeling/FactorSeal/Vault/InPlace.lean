import FactorSeal.Lib.InPlace
import FactorSeal.Vault.Frame

/-! # Mutations of a document in memory (vault/document.rs:421-613)

The worker keeps a document in memory and changes it in place: the Automerge map, the replica catalogue in it and the
queue of history changes beside it. `mutate` closes the change set that is open, runs an operation and, if it fails,
rolls Automerge back to the last closed change set and clears the queue. Here the functions are translated as they run,
with the state a failure leaves; each tracks its functional counterpart, so that a batch is all or nothing
(`follows_apply`). -/

namespace FactorSeal

open Wire Except SecretDocument

/-- What Automerge holds of a document. -/
structure DocumentContent where
  entries : Entries
  personal : PersonalMetadata
  legacyRevisions : Option Bytes

def SecretDocument.content (d : SecretDocument) : DocumentContent := ⟨d.entries, d.personal, d.legacyRevisions⟩

/-- A document in memory: as it reads now, and as it was when the last change set was closed. `draws` counts the random
version ids. -/
structure OpenDocument where
  document : SecretDocument
  committed : DocumentContent
  draws : Nat

abbrev DocumentEdit := InPlace VaultError OpenDocument

namespace OpenDocument

open InPlace

/-- `AutoCommit::commit`. -/
def commit (w : OpenDocument) : OpenDocument := { w with committed := w.document.content }

/-- `AutoCommit::rollback` and `pending.clear()`. -/
def rollback (w : OpenDocument) : OpenDocument :=
  { w with document := { w.document with
      entries := w.committed.entries, personal := w.committed.personal, legacyRevisions := w.committed.legacyRevisions,
      pending := [] } }

/-- What no edit of an open change set touches. -/
def kept (w : OpenDocument) : DocumentContent × Bytes × DocumentKind × Bytes :=
  (w.committed, w.document.actor, w.document.kind, w.document.partition)

def edit (f : SecretDocument → SecretDocument) : DocumentEdit Unit := modify fun w => { w with document := f w.document }

variable (env : VaultEnv)

/-- `validate_personal_put` (personal.rs:48-68). -/
def validatePersonalPut (address : SecretAddress) (value : Bytes) (evictAt : Option UInt64) : DocumentEdit Unit := do
  let w ← get
  if w.document.isPersonal then do
    let item ← lift (ofOption (.protocol "invalid personal item") (env.itemJson.decodeCurrent value))
    lift (ensure (address = .local item.id none ∧ evictAt = none)
      (.protocol "personal items must be addressed by ID and cannot expire"))
    edit fun d => { d with personal := { d.personal with layout := some 1 } }
  else pure ()

/-- `save_personal_replicas` (replicas.rs:79-91). -/
def savePersonalReplicas (catalog : ReplicaCatalog) : DocumentEdit Unit := do
  let bytes := env.catalogJson.encode catalog
  lift (ensure (bytes.length ≤ maxCatalogBytes) (.protocol "personal replica catalog is full"))
  edit fun d => { d with personal := { d.personal with replicas := some bytes } }

/-- `record_personal_change` (replicas.rs:92-122). -/
def recordPersonalChange (address : SecretAddress) (deleted : Bool) : DocumentEdit Unit := do
  let w ← get
  if w.document.isPersonal then
    match address with
    | .local id none => do
      let catalog ← lift (w.document.personalReplicas env)
      let replica : PersonalReplica env.toReplicaEnv ← lift (catalog.loadOrNew id w.document.actor)
      let item ← lift (w.document.changedItem env address deleted)
      let replica ← lift (replica.set item none)
      let catalog ← lift (catalog.store id replica true)
      savePersonalReplicas env catalog
    | _ => lift (.error descriptorMismatch)
  else pure ()

/-- A change that is to be recorded. -/
def recordIf (recorded : Bool) (address : SecretAddress) (deleted : Bool) : DocumentEdit Unit :=
  if recorded then recordPersonalChange env address deleted else pure ()

/-- `VersionId::random`. -/
def randomVersion : DocumentEdit VersionId := do
  let w ← get
  modify fun w => { w with draws := w.draws + 1 }
  return env.random 16 w.draws

/-- The version a value is written with: the one it has if it stays as it is. -/
def versionOf (existing : Option SecretRecord) (changed : Bool) : DocumentEdit VersionId :=
  match existing, changed with
  | some record, false => pure record.versionId
  | _, _ => randomVersion env

/-- The end of `put_value_uncommitted`, from where the record is written. -/
def writeRecord (address : SecretAddress) (value : Bytes) (evictAt : Option UInt64) (context : MutationContext)
    (recordRevision : Bool) (existing : Option SecretRecord) (changed : Bool) (versionId : VersionId) :
    DocumentEdit Unit := do
  let key := address.storageKey env.sha256
  edit fun d => { d with entries := d.entries.insert key [⟨recordVersion, address, value, evictAt, versionId,
    (existing.map SecretRecord.createdAt).getD context.now, context.now⟩] }
  recordIf env (changed && recordRevision) address false
  edit fun d => if changed || d.kind.historyRetention.recordUnchanged then
    { d with pending := d.pending ++ [⟨.put changed, address, some versionId, existing.map SecretRecord.versionId,
      evictAt⟩] } else d

/-- `put_value_uncommitted` (document.rs:497-549). -/
def putValueUncommitted (address : SecretAddress) (value : Bytes) (evictAt : Option UInt64) (context : MutationContext)
    (recordRevision : Bool) : DocumentEdit Unit := do
  validatePersonalPut env address value evictAt
  let w ← get
  let existing := (w.document.records (address.storageKey env.sha256)).head?
  let changed := decide (∀ record ∈ existing, record.value ≠ value ∨ record.evictAt ≠ evictAt)
  let versionId ← versionOf env existing changed
  writeRecord env address value evictAt context recordRevision existing changed versionId

/-- `put_uncommitted` (document.rs:486-495). -/
def putUncommitted (address : SecretAddress) (value : Bytes) (evictAt : Option UInt64) (context : MutationContext) :
    DocumentEdit Unit := do
  let w ← get
  lift (w.document.ensurePersonalUnconflicted env address)
  putValueUncommitted env address value evictAt context true

/-- `delete_value_uncommitted` (document.rs:588-613). -/
def deleteValueUncommitted (address : SecretAddress) (operation : HistoryOperation) (recordRevision : Bool) :
    DocumentEdit Bool := do
  let key := address.storageKey env.sha256
  let w ← get
  match (w.document.records key).head? with
  | none => return false
  | some existing => do
    edit fun d => { d with entries := d.entries.erase key }
    recordIf env recordRevision address true
    edit fun d => { d with pending := d.pending ++ [⟨operation, address, none, some existing.versionId,
      existing.evictAt⟩] }
    return true

/-- `delete_uncommitted` (document.rs:579-586). -/
def deleteUncommitted (address : SecretAddress) (operation : HistoryOperation) : DocumentEdit Bool := do
  let w ← get
  lift (w.document.ensurePersonalUnconflicted env address)
  deleteValueUncommitted env address operation true

/-- `finish_mutation` (document.rs:680-692): the projection takes the document's place, and saving closes its change
set. -/
def finishMutation : DocumentEdit DocumentMutation := do
  let w ← get
  let (mutation, projection) ← lift (w.document.finishMutation env)
  modify fun w => { w with document := projection, committed := projection.content }
  return mutation

/-- A batch that has changed nothing is not committed. -/
def finishIf (changed : Bool) : DocumentEdit (Option DocumentMutation) :=
  if changed then do
    let mutation ← finishMutation env
    return some mutation
  else pure none

/-- `mutate` (document.rs:471-484). -/
def mutate {α : Type} (operation : DocumentEdit α) : DocumentEdit α := operation.atomically commit rollback

/-- The loop of `apply`, with whether anything has changed so far. -/
def applyAll (context : MutationContext) : Bool → List DocumentOperation → DocumentEdit Bool
  | changed, [] => pure changed
  | _, .put address value evictAt :: rest => do
    putUncommitted env address value evictAt context
    applyAll context true rest
  | changed, .delete address :: rest => do
    let removed ← deleteUncommitted env address .delete
    applyAll context (changed || removed) rest

/-- `apply` (document.rs:436-464). -/
def apply (operations : List DocumentOperation) (context : MutationContext) : DocumentEdit (Option DocumentMutation) :=
  mutate do
    let changed ← applyAll env context false operations
    finishIf env changed

/-! ## What each function computes -/

section Tracking

variable {env}

/-- A function of the document as one of the state. -/
def lifted {α : Type} (f : SecretDocument → VaultResult (SecretDocument × α)) (w : OpenDocument) :
    VaultResult (α × OpenDocument) :=
  (f w.document).map fun r => (r.2, { w with document := r.1 })

theorem kept_lifted {α : Type} {f : SecretDocument → VaultResult (SecretDocument × α)}
    (hf : ∀ d d' a, f d = .ok (d', a) → Frame d d') (w : OpenDocument) (a : α) (w' : OpenDocument)
    (h : lifted f w = .ok (a, w')) : w'.kept = w.kept := by
  unfold lifted at h
  cases hd : f w.document with
  | error e =>
    rw [hd] at h
    cases h
  | ok r =>
    rw [hd] at h
    cases h
    have hframe := hf w.document r.1 r.2 hd
    rw [kept, kept, hframe.actor, hframe.kind, hframe.partition]

theorem tracks_edit {f : SecretDocument → SecretDocument} (hf : ∀ d, Frame d (f d)) :
    Tracks kept (edit f) fun w => .ok ((), { w with document := f w.document }) := by
  refine .modify fun w => ?_
  have hframe := hf w.document
  rw [kept, kept, hframe.actor, hframe.kind, hframe.partition]

theorem tracks_validatePersonalPut (address : SecretAddress) (value : Bytes) (evictAt : Option UInt64) :
    Tracks kept (validatePersonalPut env address value evictAt)
      (lifted fun d => (d.validatePersonalPut env address value evictAt).map (·, ())) where
  follows w := by
    show Ends kept w ((if w.document.isPersonal then _ else _ : DocumentEdit Unit) w) _
    unfold lifted SecretDocument.validatePersonalPut
    cases hp : w.document.isPersonal with
    | false =>
      simp only [hp, Bool.false_eq_true, if_false]
      exact .of_ok
    | true =>
      simp only [hp, if_true, mapped_bind]
      exact .lift_bind fun item _ => .lift_bind fun _ _ => .of_ok
  kept := by
    refine kept_lifted fun d d' _ h => ?_
    cases hd : d.validatePersonalPut env address value evictAt with
    | error e =>
      rw [hd] at h
      cases h
    | ok d'' =>
      rw [hd] at h
      cases h
      rcases validatePersonalPut_eq_ok hd with ⟨-, rfl⟩ | ⟨item, -, -, -, -, rfl⟩
      · exact .refl _
      · exact ⟨rfl, rfl, rfl, rfl⟩

theorem tracks_recordPersonalChange (address : SecretAddress) (deleted : Bool) :
    Tracks kept (recordPersonalChange env address deleted)
      (lifted fun d => (d.recordPersonalChange env address deleted).map (·, ())) where
  follows w := by
    show Ends kept w ((if w.document.isPersonal then _ else _ : DocumentEdit Unit) w) _
    unfold lifted SecretDocument.recordPersonalChange
    cases hp : w.document.isPersonal with
    | false =>
      simp only [hp, Bool.false_eq_true, if_false]
      exact .of_ok
    | true =>
      simp only [hp, if_true]
      cases address with
      | secretSpec _ => exact .of_error
      | «local» id field =>
        cases field with
        | some _ => exact .of_error
        | none =>
          simp only [mapped_bind, SecretDocument.savePersonalReplicas]
          exact .lift_bind fun _ _ => .lift_bind fun _ _ => .lift_bind fun _ _ => .lift_bind fun _ _ =>
            .lift_bind fun _ _ => .lift_bind fun _ _ => .of_ok
  kept := by
    refine kept_lifted fun d d' _ h => ?_
    cases hd : d.recordPersonalChange env address deleted with
    | error e =>
      rw [hd] at h
      cases h
    | ok d'' =>
      rw [hd] at h
      cases h
      exact SecretDocument.frame_recordPersonalChange hd

theorem tracks_recordIf (c : Bool) (address : SecretAddress) (deleted : Bool) :
    Tracks kept (recordIf env c address deleted)
      (lifted fun d => (if c then d.recordPersonalChange env address deleted else .ok d).map (·, ())) := by
  cases c with
  | true => exact tracks_recordPersonalChange address deleted
  | false => exact .pure ()

theorem tracks_versionOf (existing : Option SecretRecord) (changed : Bool) :
    Tracks kept (versionOf env existing changed) fun w => .ok (match existing, changed with
      | some record, false => (record.versionId, w)
      | _, _ => (env.random 16 w.draws, { w with draws := w.draws + 1 })) := by
  have hrandom : Tracks kept (randomVersion env) fun w =>
      .ok (env.random 16 w.draws, { w with draws := w.draws + 1 }) :=
    ⟨fun _ => .of_ok, fun _ _ _ h => by cases h; rfl⟩
  cases existing with
  | none => exact hrandom
  | some record =>
    cases changed with
    | true => exact hrandom
    | false => exact .pure _

/-- The record, the change of the replica and the entry in the queue. -/
def written (env : VaultEnv) (address : SecretAddress) (value : Bytes) (evictAt : Option UInt64)
    (context : MutationContext) (recordRevision : Bool) (existing : Option SecretRecord) (changed : Bool)
    (versionId : VersionId) (d : SecretDocument) : VaultResult SecretDocument :=
  let d := { d with entries := d.entries.insert (address.storageKey env.sha256) [⟨recordVersion, address, value, evictAt,
    versionId, (existing.map SecretRecord.createdAt).getD context.now, context.now⟩] }
  (if changed && recordRevision then d.recordPersonalChange env address false else .ok d).map fun d =>
    if changed || d.kind.historyRetention.recordUnchanged then
      { d with pending := d.pending ++ [⟨.put changed, address, some versionId, existing.map SecretRecord.versionId,
        evictAt⟩] } else d

theorem tracks_writeRecord (address : SecretAddress) (value : Bytes) (evictAt : Option UInt64)
    (context : MutationContext) (recordRevision : Bool) (existing : Option SecretRecord) (changed : Bool)
    (versionId : VersionId) :
    Tracks kept (writeRecord env address value evictAt context recordRevision existing changed versionId)
      (lifted fun d => (written env address value evictAt context recordRevision existing changed versionId d).map
        (·, ())) := by
  unfold writeRecord
  refine Tracks.congr (Tracks.bind (tracks_edit fun d => ?_) fun _ =>
    Tracks.bind (tracks_recordIf (changed && recordRevision) address false) fun _ => tracks_edit fun d => ?_) fun w => ?_
  · exact ⟨rfl, rfl, rfl, rfl⟩
  · split
    · exact ⟨rfl, rfl, rfl, rfl⟩
    · exact .refl d
  · dsimp only [ok_bind, lifted, written]
    generalize (if (changed && recordRevision) = true then _ else _ : VaultResult SecretDocument) = recorded
    cases recorded with
    | error e => rfl
    | ok d => rfl

theorem putValueUncommitted_eq (d : SecretDocument) (draw : Nat) (address : SecretAddress) (value : Bytes)
    (evictAt : Option UInt64) (context : MutationContext) (recordRevision : Bool) :
    d.putValueUncommitted env draw address value evictAt context recordRevision =
      d.validatePersonalPut env address value evictAt >>= fun d =>
        let existing := (d.records (address.storageKey env.sha256)).head?
        let changed := decide (∀ record ∈ existing, record.value ≠ value ∨ record.evictAt ≠ evictAt)
        let version := match existing, changed with
          | some record, false => (record.versionId, draw)
          | _, _ => (env.random 16 draw, draw + 1)
        (written env address value evictAt context recordRevision existing changed version.1 d).map (·, version.2) := by
  rw [SecretDocument.putValueUncommitted]
  congr 1
  funext d
  dsimp only [written]
  split
  next h =>
    generalize SecretDocument.recordPersonalChange env _ address false = recorded
    cases recorded with
    | error e => rfl
    | ok d => rfl
  next h => rfl

theorem tracks_putValueUncommitted (address : SecretAddress) (value : Bytes) (evictAt : Option UInt64)
    (context : MutationContext) (recordRevision : Bool) :
    Tracks kept (putValueUncommitted env address value evictAt context recordRevision) fun w =>
      (w.document.putValueUncommitted env w.draws address value evictAt context recordRevision).map fun r =>
        ((), { w with document := r.1, draws := r.2 }) := by
  refine (Tracks.bind (tracks_validatePersonalPut address value evictAt) fun _ => Tracks.get_bind fun t =>
    Tracks.bind (tracks_versionOf _ _) fun version => tracks_writeRecord address value evictAt context recordRevision
      (t.document.records (address.storageKey env.sha256)).head? _ version).congr fun w => ?_
  rw [putValueUncommitted_eq, lifted]
  cases hchecked : w.document.validatePersonalPut env address value evictAt with
  | error e => rfl
  | ok d =>
    dsimp only [Except.map, ok_bind, lifted]
    generalize (d.records (address.storageKey env.sha256)).head? = existing
    generalize decide (∀ record ∈ existing, record.value ≠ value ∨ record.evictAt ≠ evictAt) = changed
    cases existing with
    | none => cases written env address value evictAt context recordRevision none changed (env.random 16 w.draws) d <;> rfl
    | some record =>
      cases changed with
      | true =>
        cases written env address value evictAt context recordRevision (some record) true (env.random 16 w.draws) d <;> rfl
      | false =>
        cases written env address value evictAt context recordRevision (some record) false record.versionId d <;> rfl

theorem tracks_putUncommitted (address : SecretAddress) (value : Bytes) (evictAt : Option UInt64)
    (context : MutationContext) :
    Tracks kept (putUncommitted env address value evictAt context) fun w =>
      (w.document.putUncommitted env w.draws address value evictAt context).map fun r =>
        ((), { w with document := r.1, draws := r.2 }) := by
  refine Tracks.congr (Tracks.get_bind fun t => Tracks.bind (Tracks.lift _) fun _ =>
    tracks_putValueUncommitted address value evictAt context true) fun w => ?_
  rw [SecretDocument.putUncommitted]
  cases w.document.ensurePersonalUnconflicted env address <;> rfl

theorem tracks_deleteValueUncommitted (address : SecretAddress) (operation : HistoryOperation) (recordRevision : Bool) :
    Tracks kept (deleteValueUncommitted env address operation recordRevision)
      (lifted fun d => d.deleteValueUncommitted env address operation recordRevision) := by
  have hcases : ∀ t : OpenDocument, Tracks kept
      (match (t.document.records (address.storageKey env.sha256)).head? with
        | none => (pure false : DocumentEdit Bool)
        | some existing => do
          edit fun d => { d with entries := d.entries.erase (address.storageKey env.sha256) }
          recordIf env recordRevision address true
          edit fun d => { d with pending := d.pending ++ [⟨operation, address, none, some existing.versionId,
            existing.evictAt⟩] }
          return true)
      fun w => match (t.document.records (address.storageKey env.sha256)).head? with
        | none => .ok (false, w)
        | some existing =>
          lifted (fun d : SecretDocument =>
            let erased := { d with entries := d.entries.erase (address.storageKey env.sha256) }
            (if recordRevision then erased.recordPersonalChange env address true else .ok erased).map fun d =>
              ({ d with pending := d.pending ++ [⟨operation, address, none, some existing.versionId,
                existing.evictAt⟩] }, true)) w := by
    intro t
    cases (t.document.records (address.storageKey env.sha256)).head? with
    | none => exact .pure false
    | some existing =>
      refine Tracks.congr (Tracks.bind (tracks_edit fun d => ?_) fun _ => Tracks.bind
        (tracks_recordIf recordRevision address true) fun _ => Tracks.bind (tracks_edit fun d => ?_) fun _ =>
          Tracks.pure true) fun w => ?_
      · exact ⟨rfl, rfl, rfl, rfl⟩
      · exact ⟨rfl, rfl, rfl, rfl⟩
      · dsimp only [ok_bind, lifted]
        generalize (if recordRevision = true then _ else _ : VaultResult SecretDocument) = recorded
        cases recorded with
        | error e => rfl
        | ok d => rfl
  refine Tracks.congr (Tracks.get_bind hcases) fun w => ?_
  dsimp only [lifted, SecretDocument.deleteValueUncommitted]
  cases (w.document.records (address.storageKey env.sha256)).head? with
  | none => rfl
  | some existing =>
    cases recordRevision with
    | false => rfl
    | true =>
      dsimp only [if_true]
      generalize SecretDocument.recordPersonalChange env _ address true = recorded
      cases recorded with
      | error e => rfl
      | ok d => rfl

theorem tracks_deleteUncommitted (address : SecretAddress) (operation : HistoryOperation) :
    Tracks kept (deleteUncommitted env address operation)
      (lifted fun d => d.deleteUncommitted env address operation) := by
  refine Tracks.congr (Tracks.get_bind fun t => Tracks.bind (Tracks.lift _) fun _ =>
    tracks_deleteValueUncommitted address operation true) fun w => ?_
  dsimp only [lifted, SecretDocument.deleteUncommitted]
  cases w.document.ensurePersonalUnconflicted env address <;> rfl

theorem tracks_applyAll (context : MutationContext) (operations : List DocumentOperation) (changed : Bool) :
    Tracks kept (applyAll env context changed operations) fun w =>
      (operations.foldlM (applyOne env context) (w.document, w.draws, changed)).map fun r =>
        (r.2.2, { w with document := r.1, draws := r.2.1 }) := by
  induction operations generalizing changed with
  | nil => exact .pure changed
  | cons operation rest ih =>
    cases operation with
    | put address value evictAt =>
      refine Tracks.congr (Tracks.bind (tracks_putUncommitted address value evictAt context) fun _ => ih true) fun w => ?_
      rw [List.foldlM_cons, applyOne]
      cases w.document.putUncommitted env w.draws address value evictAt context <;> rfl
    | delete address =>
      refine Tracks.congr (Tracks.bind (tracks_deleteUncommitted address .delete) fun removed => ih (changed || removed))
        fun w => ?_
      rw [List.foldlM_cons, applyOne, lifted]
      cases w.document.deleteUncommitted env address .delete <;> rfl

/-- What `apply` makes of the state, from the change set it opens. -/
def applied (env : VaultEnv) (operations : List DocumentOperation) (context : MutationContext) (w : OpenDocument) :
    VaultResult (Option DocumentMutation × OpenDocument) :=
  (w.document.apply env w.draws operations context).map fun r =>
    (r.1, ⟨r.2.1, if r.1.isSome then r.2.1.content else w.committed, r.2.2⟩)

theorem follows_finishIf (changed : Bool) :
    Follows kept (finishIf env changed) fun w =>
      if changed then (w.document.finishMutation env).map fun r =>
        (some r.1, { w with document := r.2, committed := r.2.content })
      else .ok (none, w) := by
  intro w
  cases changed with
  | false => exact .of_ok
  | true =>
    have hrun : finishIf env true w = match w.document.finishMutation env with
        | .ok r => (.ok (some r.1), { w with document := r.2, committed := r.2.content })
        | .error e => (.error e, w) := by
      show InPlace.bind (finishMutation env) _ w = _
      have hfinish : finishMutation env w = InPlace.bind (lift (w.document.finishMutation env)) _ w := rfl
      rw [InPlace.bind, hfinish, InPlace.bind, lift]
      cases w.document.finishMutation env <;> rfl
    rw [hrun]
    dsimp only [if_true]
    cases w.document.finishMutation env with
    | error e => exact .of_error
    | ok r => exact .of_ok

theorem follows_apply (operations : List DocumentOperation) (context : MutationContext) :
    Follows kept (applyAll env context false operations >>= finishIf env) (applied env operations context) := by
  refine Follows.congr (Tracks.bind_follows (tracks_applyAll context operations false) follows_finishIf) fun w => ?_
  dsimp only [applied, SecretDocument.apply]
  cases operations.foldlM (SecretDocument.applyOne env context) (w.document, w.draws, false) with
  | error e => rfl
  | ok r =>
    obtain ⟨d, draws, changed⟩ := r
    cases changed with
    | false => rfl
    | true =>
      dsimp only [ok_bind, Except.map, if_true]
      cases d.finishMutation env <;> rfl

end Tracking

end OpenDocument

end FactorSeal

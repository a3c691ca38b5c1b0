import FactorSeal.Store.Mutation
import Mathlib.Logic.Relation

/-! # Commits and crashes

What the statements of a commit leave in the tables (`Committed`), and from it that a commit keeps `Holds`: the state
the worker computes incrementally is the one `verify_current_state` computes from the whole database. `Machine` places
crashes: between commits, between any two statements, and between the `COMMIT` and the assignment to `self.verified`.

* `holds_commit`, `holds_repack` — the step lemmas: a transaction that runs to its end leaves a database that holds the
  new state.
* `reopen_of_reachable` — the run lemma: reopening always finds the state before or the state after the transaction
  that was interrupted. -/

namespace FactorSeal

open Std Wire Except ExtMap StoreWorker

variable {env : Env} {device : Device} {v : SqlValue} {p : PreparedCommit} {db : Database} {w w' : StoreWorker}

/-! ## What the statements leave -/

theorem SqlValue.eq_blob_iff {b : Bytes} : v.eq (.blob b) = true ↔ v = .blob b := by
  cases v <;> simp [SqlValue.eq]

theorem SqlValue.eq_text_iff {s : String} : v.eq (.text s) = true ↔ v = .text s := by
  cases v <;> simp [SqlValue.eq]

theorem documentColumns_eq_ok {r : DocumentRow} {wrappedDek : Bytes} {row : DocumentColumns}
    (h : documentColumns r wrappedDek = .ok row) :
    row.documentId = idColumn r.documentId ∧ row.vaultId = .blob r.vaultId.toList ∧
      row.documentKind = .text r.scope.asStr := by
  simp only [documentColumns, bind_eq_ok, ok.injEq] at h
  obtain ⟨_, -, _, -, _, -, rfl⟩ := h
  exact ⟨rfl, rfl, rfl⟩

/-- Both ways of writing the document row replace the row of the document, or add it. -/
theorem persistDocumentHead_eq_ok {db' : Database} (h : p.persistDocumentHead env device db = .ok db') :
    ∃ row, documentColumns (p.currentHead env device).row p.document.wrappedDek = .ok row ∧
      db'.documentSnapshots = db.documentSnapshots ∧ db'.documentHeads = db.documentHeads ∧
      ∀ x, x ∈ db'.documents ↔ (x ∈ db.documents ∧ x.documentId ≠ idColumn p.documentId) ∨ x = row := by
  simp only [PreparedCommit.persistDocumentHead, bind_eq_ok] at h
  obtain ⟨row, hrow, h⟩ := h
  obtain ⟨hid, hvault, hkind⟩ := documentColumns_eq_ok hrow
  refine ⟨row, hrow, ?_⟩
  cases hexpected : p.expected with
  | none =>
    simp only [hexpected, bind_eq_ok, ofOption_eq_ok] at h
    obtain ⟨documents, hinsert, h⟩ := h
    cases h
    have hfresh := Table.insert_isSome.1 (Option.isSome_of_eq_some hinsert)
    refine ⟨rfl, rfl, fun x => ?_⟩
    rw [Table.mem_insert hinsert]
    constructor
    · rintro (hx | rfl)
      · exact Or.inl ⟨hx, hid ▸ hfresh x hx⟩
      · exact Or.inr rfl
    · rintro (⟨hx, -⟩ | rfl)
      · exact Or.inl hx
      · exact Or.inr rfl
  | some expected =>
    simp only [hexpected, bind_eq_ok, ensure_eq_ok] at h
    obtain ⟨generation, -, keyEpoch, -, -, hcount, h⟩ := h
    cases h
    -- the one row the clause selects is the row of the document, by its key
    obtain ⟨old, hold, hmatch⟩ := List.countP_pos_iff.1 (show 0 < db.documents.count _ by rw [hcount]; exact Nat.one_pos)
    have hkey : ∀ x, p.isExpected device expected generation keyEpoch x = true →
        x.documentId = idColumn p.documentId ∧ x.vaultId = row.vaultId ∧ x.documentKind = row.documentKind := by
      intro x hx
      simp only [PreparedCommit.isExpected, Bool.and_eq_true, idColumn, SqlValue.eq_blob_iff,
        SqlValue.eq_text_iff] at hx
      exact ⟨hx.1.1.1.1.1.1, by rw [hx.1.1.1.1.1.2, hvault]; rfl, by rw [hx.1.1.1.2, hkind]; rfl⟩
    have hnew : ∀ x, p.isExpected device expected generation keyEpoch x = true →
        { x with generation := row.generation, keyEpoch := row.keyEpoch, wrappedDek := row.wrappedDek,
                 currentCommitId := row.currentCommitId, nextEviction := row.nextEviction } = row := by
      intro x hx
      obtain ⟨h₁, h₂, h₃⟩ := hkey x hx
      rw [h₁, h₂, h₃]
      cases row
      simp only at hid ⊢
      rw [hid]
      rfl
    refine ⟨rfl, rfl, fun x => ?_⟩
    rw [Table.mem_modify]
    constructor
    · rintro ⟨r, hr, rfl⟩
      by_cases hsel : p.isExpected device expected generation keyEpoch r = true
      · rw [if_pos hsel, hnew r hsel]
        exact Or.inr rfl
      · rw [if_neg hsel]
        refine Or.inl ⟨hr, fun hcol => hsel ?_⟩
        rw [Table.eq_of_key_eq hr hold (hcol.trans (hkey old hmatch).1.symm)]
        exact hmatch
    · rintro (⟨hx, hne⟩ | rfl)
      · refine ⟨x, hx, ?_⟩
        rw [if_neg fun hsel => hne (hkey x hsel).1]
      · refine ⟨old, hold, ?_⟩
        rw [if_pos hmatch, hnew old hmatch]

/-- The tables after the statements of a commit: the rows of its document are the new ones, the others are as before. -/
structure Committed (env : Env) (device : Device) (p : PreparedCommit) (m : StateManifest) (db db' : Database) :
    Prop where
  row : ∃ row, documentColumns (p.currentHead env device).row p.document.wrappedDek = .ok row ∧
    ∀ x, x ∈ db'.documents ↔ (x ∈ db.documents ∧ x.documentId ≠ idColumn p.documentId) ∨ x = row
  snapshot : ∃ generation, toI64 p.document.generation = .ok generation ∧
    ∀ x, x ∈ db'.documentSnapshots ↔ (x ∈ db.documentSnapshots ∧ x.documentId ≠ idColumn p.documentId) ∨
      x = ⟨idColumn p.documentId, .integer generation, .blob p.document.envelope⟩
  head : ∀ x, x ∈ db'.documentHeads ↔ (x ∈ db.documentHeads ∧ x.documentId ≠ idColumn p.documentId) ∨
    x = ⟨idColumn p.documentId, .blob (p.currentHead env device).headId.toList,
      .blob (env.headJson.encode (p.currentHead env device))⟩
  manifest : db'.metaValue manifestKey = .ok (some (env.manifestJson.encode m))
  anchor : db'.metaValue commitHeadKey = .ok (some m.manifestId.toList)

theorem metaValue_persistManifest (manifest : StateManifest) (db : Database) :
    (persistAnchor manifest (persistManifest env manifest db)).metaValue manifestKey =
      .ok (some (env.manifestJson.encode manifest)) := by
  unfold persistAnchor persistManifest
  rw [Database.metaValue_setMeta_ne _ (by decide)]
  exact Database.metaValue_setMeta_self _ _ _

theorem metaValue_persistAnchor (manifest : StateManifest) (db : Database) :
    (persistAnchor manifest db).metaValue commitHeadKey = .ok (some manifest.manifestId.toList) :=
  Database.metaValue_setMeta_self _ _ _

/-- What a transaction that has run to its end has done. -/
theorem run_commitTransaction (h : (w.commitTransaction env device p).run db = .ok w') :
    verifyLiveInventory env db w.verified = .ok () ∧ w'.verified = w.nextVerified env device p ∧
      w'.draws = w.draws + 1 ∧ Committed env device p (w.nextManifest env device p) db w'.db := by
  simp only [Transaction.run, commitTransaction, List.foldlM_cons, List.foldlM_nil, verifyLive,
    bind_eq_ok] at h
  obtain ⟨_, ⟨_, ⟨⟨⟩, hlive, hdb⟩, db₁, hrow, _, hdelete, db₂, hinsert, _, hhead, _, hmanifest, _, hanchor, hfold⟩, h⟩ := h
  cases hdb
  cases hdelete
  cases hhead
  cases hmanifest
  cases hanchor
  cases hfold
  cases h
  obtain ⟨row, hcolumns, hsnapshots, hheads, hrows⟩ := persistDocumentHead_eq_ok hrow
  simp only [PreparedCommit.insertSnapshot, bind_eq_ok, ofOption_eq_ok] at hinsert
  obtain ⟨generation, hgeneration, snapshots, hinsert, hdb₂⟩ := hinsert
  cases hdb₂
  refine ⟨hlive, rfl, rfl, ⟨row, hcolumns, hrows⟩, ⟨generation, hgeneration, fun x => ?_⟩, fun x => ?_,
    metaValue_persistManifest _ _, metaValue_persistAnchor _ _⟩
  · change x ∈ snapshots ↔ _
    rw [Table.mem_insert hinsert, PreparedCommit.deleteSnapshots, Table.mem_delete, hsnapshots, idColumn, Ne,
      ← SqlValue.eq_blob_iff, Bool.not_eq_true]
  · change x ∈ Table.upsert db₁.documentHeads _ ↔ _
    rw [Table.mem_upsert, hheads]

theorem persistCommit_eq_ok (h : w.persistCommit env device p = .ok w') :
    verifyLiveInventory env w.db w.verified = .ok () ∧ w'.verified = w.nextVerified env device p ∧
      w'.draws = w.draws + 1 ∧ Committed env device p (w.nextManifest env device p) w.db w'.db := by
  simp only [persistCommit, bind_eq_ok] at h
  obtain ⟨_, hrun, ⟨⟩, -, h⟩ := h
  cases h
  exact run_commitTransaction hrun

/-! ## A transaction keeps the database and the trusted state together -/

/-- A manifest that was signed for `documents` and stored verifies and commits to them. -/
theorem manifestHolds_sign {documents : Documents} {draw : Nat} {repackPending : Bool}
    (hsize : documents.size < 2 ^ 64) (hstored : db.metaValue manifestKey =
      .ok (some (env.manifestJson.encode (signManifest env device draw documents repackPending))))
    (hanchor : db.metaValue commitHeadKey =
      .ok (some (signManifest env device draw documents repackPending).manifestId.toList)) :
    ManifestHolds env device db (signedState env documents (signManifest env device draw documents repackPending))
      (signManifest env device draw documents repackPending)
      (env.manifestJson.encode (signManifest env device draw documents repackPending)) where
  stored := hstored
  length := env.length_manifestJson _ _ _ _ _ _
  decode := env.manifestJson.decode_encode _
  verify := StateManifest.verify_new _ _ _ _ _ _ _
  anchor := hanchor
  head := rfl
  digest := rfl
  count := by
    change documents.size = (UInt64.ofNat documents.size).toNat
    rw [UInt64.toNat_ofNat_of_lt' hsize]
  inventory := rfl

theorem matches_empty {ρ κ β : Type} {key : ρ → κ} {R : ρ → DocumentId → β → Prop} :
    (Table.empty : Table ρ κ key).Matches (∅ : ExtTreeMap DocumentId β) R where
  entry_of_row r hr := absurd hr List.not_mem_nil
  row_of_entry i d hd := by simp at hd

/-- A new store holds the state it is created with. -/
theorem holds_create (env : Env) (device : Device) :
    Holds env device (create env device).db (create env device).verified :=
  ⟨⟨_, _, manifestHolds_sign (by simp) (metaValue_persistManifest _ _) (metaValue_persistAnchor _ _)⟩, matches_empty,
    matches_empty, matches_empty⟩

theorem headRow_commit (p : PreparedCommit) :
    HeadRow env device ⟨idColumn p.documentId, .blob (p.currentHead env device).headId.toList,
      .blob (env.headJson.encode (p.currentHead env device))⟩ p.documentId (p.document.verified env device p.documentId) :=
  ⟨p.currentHead env device, parseHead_eq_ok.2 ⟨rfl, rfl, ⟨_, rfl, env.headJson.decode_encode _⟩, rfl, rfl, rfl, rfl⟩, rfl⟩

/-- The step lemma of a commit. -/
theorem holds_commit {db' : Database} {v : VerifiedStoreState}
    (hv : Holds env device db v) (hdocuments : v.documents = w.verified.documents)
    (hsize : (w.nextDocuments env device p).size < 2 ^ 64)
    (h : Committed env device p (w.nextManifest env device p) db db') :
    Holds env device db' (w.nextVerified env device p) := by
  obtain ⟨row, hcolumns, hrow⟩ := h.row
  obtain ⟨generation, hgeneration, hsnapshot⟩ := h.snapshot
  have hnext : (w.nextVerified env device p).documents =
      v.documents.insert p.documentId (p.document.verified env device p.documentId) := by
    rw [hdocuments]
    rfl
  have hof : DocumentRowOf env row p.documentId (p.document.verified env device p.documentId) :=
    ⟨documentRow_eq_ok.2 ⟨_, hcolumns, rfl⟩, rfl⟩
  refine ⟨⟨_, _, manifestHolds_sign hsize h.manifest h.anchor⟩, ?_, ?_, ?_⟩
  · rw [hnext]
    exact hv.heads.replace idColumn_injective (fun _ _ _ h => h.documentId) (headRow_commit p) h.head
  · rw [hnext]
    exact hv.snapshots.replace idColumn_injective (fun _ _ _ h => h.documentId) ⟨generation, _, hgeneration, rfl, rfl, rfl⟩
      hsnapshot
  · rw [hnext]
    exact hv.rows.replace idColumn_injective (fun _ _ _ h => h.documentId) hof hrow

/-- The step lemma of a repack: only the manifest changes. -/
theorem holds_repack (hv : Holds env device db w.verified)
    (h : (w.repackTransaction env device).run db = .ok w') : Holds env device w'.db w'.verified := by
  simp only [Transaction.run, repackTransaction, List.foldlM_cons, List.foldlM_nil, verifyLive,
    bind_eq_ok] at h
  obtain ⟨_, ⟨_, ⟨⟨⟩, -, hdb⟩, _, hmanifest, _, hanchor, hfold⟩, h⟩ := h
  cases hdb
  cases hmanifest
  cases hanchor
  cases hfold
  cases h
  obtain ⟨m, bytes, hm⟩ := hv.manifest
  have hsize : w.verified.documents.size < 2 ^ 64 := by
    rw [hm.count]
    exact m.documentCount.toNat_lt
  exact ⟨⟨_, _, manifestHolds_sign hsize (metaValue_persistManifest _ _) (metaValue_persistAnchor _ _)⟩, hv.heads,
    hv.snapshots, hv.rows⟩

/-! ## Crashes -/

/-- A transaction the worker may begin in its present state. -/
inductive IsTransaction (env : Env) (device : Device) (w : StoreWorker) : Transaction → Prop
  | commit (p : PreparedCommit) (hsize : (w.nextDocuments env device p).size < 2 ^ 64) :
    IsTransaction env device w (w.commitTransaction env device p)
  | repack : IsTransaction env device w (w.repackTransaction env device)

/-- Where the process is: between transactions, inside one with the statements still to run and the rows it sees, or
past its `COMMIT` with the memory not yet updated. -/
inductive Machine where
  | idle (w : StoreWorker)
  | inside (w : StoreWorker) (t : Transaction) (db : Database) (rest : List (Database → VaultResult Database))
  | committed (w : StoreWorker) (t : Transaction) (db : Database)

namespace Machine

variable {m : Machine}

/-- What is on disk. A transaction is atomic: nothing of it is there before its `COMMIT`. -/
def durable : Machine → Database
  | idle w => w.db
  | inside w _ _ _ => w.db
  | committed _ _ db => db

/-- What a crash is allowed to leave: the state before the transaction until its `COMMIT`, the state after it from then
on. -/
def expected : Machine → VerifiedStoreState
  | idle w => w.verified
  | inside w _ _ _ => w.verified
  | committed _ t _ => t.verified

/-- One step of the process. A transaction may be abandoned at any point before its `COMMIT`, by a statement that fails
or by the database; the process may crash and be opened again at any point. -/
inductive Step (env : Env) (device : Device) : Machine → Machine → Prop
  | begin {w t} (ht : IsTransaction env device w t) : Step env device (idle w) (inside w t w.db t.statements)
  | statement {w t db db' s rest} (hs : s db = .ok db') :
    Step env device (inside w t db (s :: rest)) (inside w t db' rest)
  | abandon {w t db rest} : Step env device (inside w t db rest) (idle w)
  | commit {w t db} : Step env device (inside w t db []) (committed w t db)
  | publish {w t db} : Step env device (committed w t db) (idle ⟨db, t.verified, t.draws⟩)
  | reopen {m verified draws} (hv : verifyCurrentState env device m.durable = .ok verified) :
    Step env device m (idle ⟨m.durable, verified, draws⟩)

/-- What holds in every state the process reaches. -/
def Sound (env : Env) (device : Device) : Machine → Prop
  | idle w => Holds env device w.db w.verified
  | inside w t db rest => Holds env device w.db w.verified ∧ IsTransaction env device w t ∧
    ∀ db', rest.foldlM (fun db s => s db) db = .ok db' → t.statements.foldlM (fun db s => s db) w.db = .ok db'
  | committed w t db => Holds env device w.db w.verified ∧ Holds env device db t.verified

/-- A transaction that ran to its end leaves a database that holds the state it is about to publish. -/
theorem holds_of_run {t : Transaction} (hv : Holds env device w.db w.verified)
    (ht : IsTransaction env device w t) (hrun : t.statements.foldlM (fun db s => s db) w.db = .ok db) :
    Holds env device db t.verified := by
  have hrun' : t.run w.db = .ok ⟨db, t.verified, t.draws⟩ := by
    rw [Transaction.run, hrun]
    rfl
  cases ht with
  | commit p hsize => exact holds_commit hv rfl hsize (run_commitTransaction hrun').2.2.2
  | repack => exact holds_repack hv hrun'

theorem sound_durable (h : m.Sound env device) : Holds env device m.durable m.expected := by
  cases m with
  | idle w => exact h
  | inside w t db rest => exact h.1
  | committed w t db => exact h.2

/-- One step keeps the process sound. -/
theorem sound_step {m' : Machine} (hm : m.Sound env device) (h : Step env device m m') : m'.Sound env device := by
  cases h with
  | begin ht => exact ⟨hm, ht, fun db' h => h⟩
  | statement hs =>
    obtain ⟨hv, ht, hrest⟩ := hm
    refine ⟨hv, ht, fun db' h => hrest db' ?_⟩
    rw [List.foldlM_cons, hs]
    exact h
  | abandon => exact hm.1
  | commit => exact ⟨hm.1, holds_of_run hm.1 hm.2.1 (hm.2.2 _ rfl)⟩
  | publish => exact hm.2
  | reopen hv => exact verifyCurrentState_eq_ok.1 hv

theorem sound_run {m' : Machine} (hm : m.Sound env device) (h : Relation.ReflTransGen (Step env device) m m') :
    m'.Sound env device := by
  induction h with
  | refl => exact hm
  | tail _ hstep ih => exact sound_step ih hstep

/-- The worker a step ends a transaction with is the one from before it, or the one after it, and which of the two is
decided by the `COMMIT` alone. -/
theorem idle_of_step (hm : m.Sound env device) (h : Step env device m (idle w)) :
    w.db = m.durable ∧ w.verified = m.expected := by
  have hopen : verifyCurrentState env device m.durable = .ok m.expected := verifyCurrentState_eq_ok.2 (sound_durable hm)
  cases h with
  | abandon => exact ⟨rfl, rfl⟩
  | publish => exact ⟨rfl, rfl⟩
  | reopen hv =>
    rw [hopen] at hv
    cases hv
    exact ⟨rfl, rfl⟩

end Machine

/-- A commit that succeeds is one the process can take in full. -/
theorem reachable_of_persistCommit (h : w.persistCommit env device p = .ok w') :
    Relation.ReflTransGen (Machine.Step env device) (.idle w) (.idle w') := by
  simp only [persistCommit, Transaction.run, bind_eq_ok, ensure_eq_ok] at h
  obtain ⟨_, ⟨db, hrun, hw⟩, ⟨⟩, hsize, h⟩ := h
  cases hw
  cases h
  have hstatements : ∀ (rest : List (Database → VaultResult Database)) (db₀ : Database),
      rest.foldlM (fun db s => s db) db₀ = .ok db → Relation.ReflTransGen (Machine.Step env device)
        (.inside w (w.commitTransaction env device p) db₀ rest) (.inside w (w.commitTransaction env device p) db []) := by
    intro rest
    induction rest with
    | nil =>
      intro db₀ h
      cases h
      exact .refl
    | cons s rest ih =>
      intro db₀ h
      rw [List.foldlM_cons, bind_eq_ok] at h
      obtain ⟨db₁, hs, h⟩ := h
      exact .head (.statement hs) (ih db₁ h)
  exact .head (.begin (.commit p hsize)) ((hstatements _ _ hrun).trans (.head .commit (.single .publish)))

/-- **Commits are atomic and the trusted state is the verified one.** Whatever commits have been run and wherever they
were interrupted: between transactions the state the worker trusts is what `verify_current_state` computes from the
database, also after the next successful commit; a process inside a transaction can only abandon it, with rows and
memory as before, or crash, and then reopening finds the state before; past the `COMMIT` both finishing and reopening
give the state after. -/
theorem verifyCurrentState_of_reachable {w₀ : StoreWorker} {m : Machine}
    (h₀ : verifyCurrentState env device w₀.db = .ok w₀.verified)
    (hrun : Relation.ReflTransGen (Machine.Step env device) (.idle w₀) m) :
    (∀ w, m = .idle w → verifyCurrentState env device w.db = .ok w.verified ∧
      ∀ p w', w.persistCommit env device p = .ok w' →
        w'.verified = w.nextVerified env device p ∧ verifyCurrentState env device w'.db = .ok w'.verified) ∧
    (∀ w t db rest, m = .inside w t db rest → verifyCurrentState env device m.durable = .ok w.verified ∧
      ∀ w', Machine.Step env device m (.idle w') → w'.db = w.db ∧ w'.verified = w.verified) ∧
    (∀ w t db, m = .committed w t db → verifyCurrentState env device m.durable = .ok t.verified ∧
      ∀ w', Machine.Step env device m (.idle w') → w'.db = db ∧ w'.verified = t.verified) := by
  have hinit : (Machine.idle w₀).Sound env device := verifyCurrentState_eq_ok.1 h₀
  have hm := Machine.sound_run hinit hrun
  have hopen : verifyCurrentState env device m.durable = .ok m.expected :=
    verifyCurrentState_eq_ok.2 (Machine.sound_durable hm)
  refine ⟨?_, ?_, ?_⟩
  · rintro w rfl
    refine ⟨hopen, fun p w' hcommit => ⟨?_, ?_⟩⟩
    · exact (persistCommit_eq_ok hcommit).2.1
    · exact verifyCurrentState_eq_ok.2 (Machine.sound_durable (Machine.sound_run hm (reachable_of_persistCommit hcommit)))
  · rintro w t db rest rfl
    exact ⟨hopen, fun w' hstep => Machine.idle_of_step hm hstep⟩
  · rintro w t db rfl
    exact ⟨hopen, fun w' hstep => Machine.idle_of_step hm hstep⟩

/-- The commit of a first document. -/
def Reference.firstCommit : PreparedCommit :=
  ⟨Vector.replicate 32 7, none, ⟨.localKeyring, 1, 1, some 1000, utf8 "wrapped", utf8 "envelope"⟩⟩

theorem verifyCurrentState_firstCommit : ∃ w,
    (StoreWorker.create reference Reference.thisDevice).persistCommit reference Reference.thisDevice Reference.firstCommit =
      .ok w ∧ w.verified.documents.size = 1 ∧
    verifyCurrentState reference Reference.thisDevice w.db = .ok w.verified := by
  have hrun : ((create reference Reference.thisDevice).persistCommit reference Reference.thisDevice
      Reference.firstCommit).isOk = true := by decide +kernel
  obtain ⟨w, hw⟩ := exists_of_isOk hrun
  have hopen := verifyCurrentState_eq_ok.2 (holds_create reference Reference.thisDevice)
  have hinit := (verifyCurrentState_of_reachable hopen .refl).1 _ rfl
  obtain ⟨hverified, hafter⟩ := hinit.2 _ w hw
  refine ⟨w, hw, ?_, hafter⟩
  rw [hverified]
  decide +kernel

end FactorSeal

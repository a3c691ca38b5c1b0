import FactorSeal.Store.State

/-! # What acceptance means

`Holds env device db verified` relates a database to the inventory the worker trusts: the manifest verifies and commits
to the inventory, and each of the three tables has exactly one row for each document of it. `verifyCurrentState_eq_ok`
shows that `verify_current_state` (state.rs:105-130) accepts a database with a result exactly when the two are so
related; `verifyLiveInventory_of_holds` that the checks before a commit then pass. -/

namespace FactorSeal

open Std Wire Except ExtMap VerifiedDocument List

variable {env : Env} {device : Device} {db : Database} {row : DocumentColumns} {id : DocumentId} {d : VerifiedDocument}
  {r : DocumentRow} {documents : Documents} {v : VerifiedStoreState}

/-- The `document_id` column of a document. -/
def idColumn (id : DocumentId) : SqlValue := .blob id.toList

theorem idColumn_injective : Function.Injective idColumn := fun a b h => by
  simpa [idColumn, Vector.toList_inj] using h

/-! ## Rows and the documents they are of -/

/-- `row` is the head record of document `id` as `d` has it. -/
def HeadRow (env : Env) (device : Device) (row : HeadColumns) (id : DocumentId) (d : VerifiedDocument) : Prop :=
  ∃ head, parseHead env device row = .ok (id, head) ∧ d = VerifiedDocument.new head d.snapshotBytes

/-- `row` is the snapshot of document `id` as `d` has it. -/
def SnapshotRow (env : Env) (row : SnapshotColumns) (id : DocumentId) (d : VerifiedDocument) : Prop :=
  ∃ generation envelope, toI64 d.row.generation = .ok generation ∧
    row = ⟨idColumn id, .integer generation, .blob envelope⟩ ∧
    env.sha256 envelope = d.snapshotDigest ∧ envelope.length = d.snapshotBytes

/-- `row` is the row of document `id` as `d` has it. -/
def DocumentRowOf (env : Env) (row : DocumentColumns) (id : DocumentId) (d : VerifiedDocument) : Prop :=
  documentRow env row = .ok d.row ∧ d.row.documentId = id

theorem parseHead_eq_ok {row : HeadColumns} {head : CurrentHead} : parseHead env device row = .ok (id, head) ↔
      row.documentId = idColumn id ∧ row.headId = .blob head.headId.toList ∧
      (∃ record, row.record = .blob record ∧ env.headJson.decode record = .ok head) ∧
      head = CurrentHead.new env.toCrypto head.toCommitContents ∧
      head.documentId = id ∧ head.vaultId = device.deviceVaultId ∧ head.deviceKeyId = device.deviceKeyId := by
  simp only [parseHead, bind_eq_ok, rowBlob_eq_ok, documentIdFromBlob_eq_ok, arrayFromBlob_eq_ok, fromJson_eq_ok,
    ensure_eq_ok, ok.injEq, Prod.mk.injEq]
  constructor
  · rintro ⟨_, hid, _, rfl, _, hhead, _, rfl, _, hrecord, _, hjson, ⟨⟩, hverify, ⟨⟩, hmeta, rfl, rfl⟩
    obtain ⟨hnew, rfl⟩ := CurrentHead.eq_new_of_verify env.toCrypto hverify
    exact ⟨hid, hhead, ⟨_, hrecord, hjson⟩, hnew, hmeta⟩
  · rintro ⟨hid, hhead, ⟨record, hrecord, hjson⟩, hnew, hmeta⟩
    refine ⟨_, hid, id, rfl, _, hhead, head.headId, rfl, _, hrecord, head, hjson, (), ?_, (), hmeta, rfl, rfl⟩
    rw [hnew]
    exact CurrentHead.verify_new env.toCrypto _

theorem HeadRow.documentId {row : HeadColumns} (h : HeadRow env device row id d) : row.documentId = idColumn id := by
  obtain ⟨head, hparse, -⟩ := h
  exact (parseHead_eq_ok.1 hparse).1

theorem SnapshotRow.documentId {row : SnapshotColumns}
    (h : SnapshotRow env row id d) : row.documentId = idColumn id := by
  obtain ⟨_, _, -, rfl, -, -⟩ := h
  rfl

/-- The columns that hold `r` and its wrapped key. The three integers have to fit an `INTEGER`. -/
def documentColumns (r : DocumentRow) (wrappedDek : Bytes) : VaultResult DocumentColumns := do
  let nextEviction ← deadlineColumn r.nextEviction
  let generation ← toI64 r.generation
  let keyEpoch ← toI64 r.keyEpoch
  .ok { documentId := idColumn r.documentId, vaultId := .blob r.vaultId.toList, documentKind := .text r.scope.asStr,
        generation := .integer generation, keyEpoch := .integer keyEpoch, wrappedDek := .blob wrappedDek,
        currentCommitId := .blob r.currentCommitId.toList, nextEviction }

/-- Reading a row is the inverse of writing it, up to the digest of the wrapped key. -/
theorem documentRow_eq_ok : documentRow env row = .ok r ↔
      ∃ wrappedDek, documentColumns r wrappedDek = .ok row ∧ env.sha256 wrappedDek = r.wrappedKeyDigest := by
  simp only [documentRow, documentColumns, bind_eq_ok, rowBlob_eq_ok, rowText_eq_ok, rowInteger_eq_ok,
    documentIdFromBlob_eq_ok, arrayFromBlob_eq_ok, fromI64_eq_ok, rowDeadline_eq_ok, ok.injEq]
  constructor
  · rintro ⟨_, hvault, vaultId, rfl, _, hid, id, rfl, _, hkind, scope, hscope, g, hg, generation, hgen, e, he, epoch,
      hepoch, wrapped, hwrapped, _, hcommit, commitId, rfl, deadline, hdeadline, rfl⟩
    refine ⟨wrapped, ⟨_, hdeadline, g, hgen, e, hepoch, ?_⟩, rfl⟩
    rw [DocumentKind.asStr_of_parse hscope] at hkind
    cases row
    simp_all [idColumn]
  · rintro ⟨wrapped, ⟨deadline, hdeadline, g, hgen, e, hepoch, rfl⟩, hsha⟩
    refine ⟨_, rfl, r.vaultId, rfl, _, rfl, r.documentId, rfl, _, rfl, r.scope, DocumentKind.parse_asStr _, g, rfl,
      r.generation, hgen, e, rfl, r.keyEpoch, hepoch, wrapped, rfl, _, rfl, r.currentCommitId, rfl, r.nextEviction,
      hdeadline, ?_⟩
    rw [hsha]

theorem documentId_of_documentRow (h : documentRow env row = .ok r) : row.documentId = idColumn r.documentId := by
  obtain ⟨wrapped, hcolumns, -⟩ := documentRow_eq_ok.1 h
  simp only [documentColumns, bind_eq_ok, ok.injEq] at hcolumns
  obtain ⟨_, -, _, -, _, -, rfl⟩ := hcolumns
  rfl

theorem DocumentRowOf.documentId (h : DocumentRowOf env row id d) : row.documentId = idColumn id := by
  rw [documentId_of_documentRow h.1, h.2]

/-! ## The loop over the head records -/

/-- What the loop leaves: the documents it was given, and one for each row. -/
theorem readHeads_sound (count : UInt64) : ∀ (rows : List HeadColumns) (documents result : Documents),
    readHeads env device count rows documents = .ok result →
    result.size = documents.size + rows.length ∧
    (∀ i ∈ documents, result[i]? = documents[i]?) ∧
    (∀ row ∈ rows, ∃ id head, parseHead env device row = .ok (id, head) ∧
      result[id]? = some (new head 0)) ∧
    ∀ i d, result[i]? = some d → documents[i]? = some d ∨
      ∃ row ∈ rows, ∃ head, parseHead env device row = .ok (i, head) ∧ d = new head 0
  | [], documents, result, h => by
    cases h
    simp
  | row :: rows, documents, result, h => by
    simp only [readHeads, bind_eq_ok, ensure_eq_ok] at h
    obtain ⟨-, -, ⟨id, head⟩, hparse, -, hfresh, h⟩ := h
    obtain ⟨hsize, hkeep, hrows, hback⟩ := readHeads_sound count rows _ result h
    have hid : result[id]? = some (new head 0) := by
      rw [hkeep id (mem_insert_iff.2 (Or.inl rfl)), getElem?_insert_iff, if_pos rfl]
    refine ⟨?_, ?_, ?_, ?_⟩
    · rw [hsize, ExtTreeMap.size_insert, if_neg (by simpa using hfresh), length_cons]
      omega
    · intro i hi
      rw [hkeep i (mem_insert_iff.2 (Or.inr hi)), getElem?_insert_iff, if_neg]
      rintro rfl
      exact hfresh hi
    · intro r hr
      rcases mem_cons.1 hr with rfl | hr
      · exact ⟨id, head, hparse, hid⟩
      · exact hrows r hr
    · intro i d hi
      rcases hback i d hi with hold | ⟨r, hr, hd, hpd, rfl⟩
      · rw [getElem?_insert_iff] at hold
        split at hold
        · rename_i hij
          subst hij
          exact Or.inr ⟨row, mem_cons_self, head, hparse, (Option.some.inj hold).symm⟩
        · exact Or.inl hold
      · exact Or.inr ⟨r, mem_cons_of_mem _ hr, hd, hpd, rfl⟩

/-- Rows that parse, name different documents and are no more than `count` are read to the end. -/
theorem readHeads_complete (count : UInt64) : ∀ (rows : List HeadColumns) (documents : Documents),
    (∀ row ∈ rows, ∃ id head, parseHead env device row = .ok (id, head) ∧ id ∉ documents) →
    (rows.map HeadColumns.documentId).Nodup → documents.size + rows.length ≤ count.toNat →
    ∃ result, readHeads env device count rows documents = .ok result
  | [], documents, _, _, _ => ⟨documents, rfl⟩
  | row :: rows, documents, hparse, hnd, hcount => by
    obtain ⟨id, head, hrow, hfresh⟩ := hparse row mem_cons_self
    rw [map_cons, nodup_cons] at hnd
    rw [length_cons] at hcount
    have hrest : ∀ r ∈ rows, ∃ i hd, parseHead env device r = .ok (i, hd) ∧
        i ∉ documents.insert id (new head 0) := by
      intro r hr
      obtain ⟨i, hd, hi, hni⟩ := hparse r (mem_cons_of_mem _ hr)
      refine ⟨i, hd, hi, fun hmem => ?_⟩
      rcases mem_insert_iff.1 hmem with rfl | hmem
      · refine hnd.1 (mem_map.2 ⟨r, hr, ?_⟩)
        rw [(parseHead_eq_ok.1 hi).1, (parseHead_eq_ok.1 hrow).1]
      · exact hni hmem
    have hsize : (documents.insert id (new head 0)).size = documents.size + 1 := by
      rw [ExtTreeMap.size_insert, if_neg (by simpa using hfresh)]
    obtain ⟨result, hresult⟩ := readHeads_complete count rows _ hrest hnd.2 (by rw [hsize]; omega)
    refine ⟨result, ?_⟩
    simp only [readHeads, bind_eq_ok, ensure_eq_ok]
    exact ⟨(), by omega, (id, head), hrow, (), hfresh, hresult⟩

/-! ## The loop over the snapshots -/

/-- What a document says apart from its snapshot's size. -/
def VerifiedDocument.signed (d : VerifiedDocument) : DocumentRow × Digest := (d.row, d.snapshotDigest)

/-- What the loop leaves of the documents and the `seen` set it was given. -/
structure PayloadsRead (env : Env) (rows : List SnapshotColumns) (documents : Documents) (seen : List DocumentId)
    (result : Documents) (seen' : List DocumentId) : Prop where
  length : seen'.length = seen.length + rows.length
  nodup : seen'.Nodup
  mem_result : ∀ i ∈ seen', i ∈ result
  size : result.size = documents.size
  signed : ∀ i : DocumentId, result[i]?.map VerifiedDocument.signed = documents[i]?.map VerifiedDocument.signed
  keep : ∀ i ∈ seen, result[i]? = documents[i]?
  snapshot : ∀ row ∈ rows, ∃ (i : DocumentId) (d : VerifiedDocument), result[i]? = some d ∧ SnapshotRow env row i d
  met : ∀ i ∈ seen', i ∈ seen ∨ ∃ row ∈ rows, row.documentId = idColumn i

theorem readPayloads_sound : ∀ (rows : List SnapshotColumns) (documents : Documents) (seen : List DocumentId)
    (result : Documents) (seen' : List DocumentId),
    readPayloads env rows documents seen = .ok (result, seen') → (∀ i ∈ seen, i ∈ documents) → seen.Nodup →
    PayloadsRead env rows documents seen result seen'
  | [], documents, seen, result, seen', h, hseen, hnd => by
    cases h
    exact ⟨by simp, hnd, hseen, rfl, fun _ => rfl, fun _ _ => rfl, by simp, fun i hi => Or.inl hi⟩
  | row :: rows, documents, seen, result, seen', h, hseen, hnd => by
    simp only [readPayloads, bind_eq_ok, rowBlob_eq_ok, documentIdFromBlob_eq_ok, rowInteger_eq_ok, ofOption_eq_ok,
      ensure_eq_ok] at h
    obtain ⟨_, hid, id, rfl, d, hd, g, hg, generation, hgen, envelope, henv, -, hfresh, -, hgeq, -, hsha, h⟩ := h
    have hmem : id ∈ documents := mem_iff_exists.2 ⟨d, hd⟩
    have hseen' : ∀ i ∈ id :: seen, i ∈ documents.insert id { d with snapshotBytes := envelope.length } := by
      intro i hi
      rcases mem_cons.1 hi with rfl | hi
      · exact mem_insert_iff.2 (Or.inl rfl)
      · exact mem_insert_iff.2 (Or.inr (hseen i hi))
    have ih := readPayloads_sound rows _ _ result seen' h hseen' (nodup_cons.2 ⟨hfresh, hnd⟩)
    have hresult : result[id]? = some { d with snapshotBytes := envelope.length } := by
      rw [ih.keep id mem_cons_self, getElem?_insert_iff, if_pos rfl]
    refine ⟨?_, ih.nodup, ih.mem_result, ?_, ?_, ?_, ?_, ?_⟩
    · rw [ih.length, length_cons, length_cons]
      omega
    · rw [ih.size, ExtTreeMap.size_insert, if_pos (by simpa using hmem)]
    · intro i
      rw [ih.signed, getElem?_insert_iff]
      split
      · rename_i hi
        subst hi
        simp [hd, signed]
      · rfl
    · intro i hi
      rw [ih.keep i (mem_cons_of_mem _ hi), getElem?_insert_iff, if_neg]
      rintro rfl
      exact hfresh hi
    · intro r hr
      rcases mem_cons.1 hr with rfl | hr
      · refine ⟨id, _, hresult, g, envelope, hgeq ▸ fromI64_eq_ok.1 hgen, ?_, hsha, rfl⟩
        cases r
        simp_all [idColumn]
      · exact ih.snapshot r hr
    · intro i hi
      rcases ih.met i hi with hi | ⟨r, hr, hri⟩
      · rcases mem_cons.1 hi with rfl | hi
        · exact Or.inr ⟨row, mem_cons_self, hid⟩
        · exact Or.inl hi
      · exact Or.inr ⟨r, mem_cons_of_mem _ hr, hri⟩

/-- Snapshots of documents that are there, at their generation and with their digest, are read to the end. -/
theorem readPayloads_complete : ∀ (rows : List SnapshotColumns) (documents : Documents) (seen : List DocumentId),
    (∀ row ∈ rows, ∃ i d, documents[i]? = some d ∧ i ∉ seen ∧
      SnapshotRow env row i { d with snapshotBytes := match row.envelope with | .blob b => b.length | _ => 0 }) →
    (rows.map SnapshotColumns.documentId).Nodup →
    ∃ result, readPayloads env rows documents seen = .ok result
  | [], documents, seen, _, _ => ⟨_, rfl⟩
  | row :: rows, documents, seen, hrows, hnd => by
    obtain ⟨id, d, hd, hfresh, g, envelope, hgen, hrow, hsha, -⟩ := hrows row mem_cons_self
    rw [map_cons, nodup_cons] at hnd
    have hrest : ∀ r ∈ rows, ∃ i d', (documents.insert id { d with snapshotBytes := envelope.length })[i]? = some d' ∧
        i ∉ id :: seen ∧
        SnapshotRow env r i { d' with snapshotBytes := match r.envelope with | .blob b => b.length | _ => 0 } := by
      intro r hr
      obtain ⟨i, d', hd', hi, hsnap⟩ := hrows r (mem_cons_of_mem _ hr)
      have hne : id ≠ i := by
        rintro rfl
        refine hnd.1 (mem_map.2 ⟨r, hr, ?_⟩)
        rw [hsnap.documentId, hrow]
      refine ⟨i, d', ?_, ?_, hsnap⟩
      · rw [getElem?_insert_iff, if_neg hne, hd']
      · simpa [eq_comm, hi] using hne
    obtain ⟨result, hresult⟩ := readPayloads_complete rows _ (id :: seen) hrest hnd.2
    refine ⟨result, ?_⟩
    simp only [readPayloads, bind_eq_ok, rowBlob_eq_ok, documentIdFromBlob_eq_ok, rowInteger_eq_ok, ofOption_eq_ok,
      ensure_eq_ok]
    refine ⟨id.toList, by rw [hrow]; rfl, id, rfl, d, hd, g, by rw [hrow], d.row.generation, fromI64_eq_ok.2 hgen,
      envelope, by rw [hrow], (), hfresh, (), rfl, (), hsha, hresult⟩

/-! ## The document rows -/

theorem checkRows_eq_ok : ∀ {rows : List DocumentRow}, checkRows documents rows = .ok () ↔
      ∀ row ∈ rows, documents[row.documentId]?.map VerifiedDocument.row = some row
  | [] => by simp [checkRows]
  | row :: rows => by simp [checkRows, bind_eq_ok, checkRows_eq_ok]

theorem currentCommitHead_eq_some {head : Digest} :
    currentCommitHead db = .ok (some head) ↔ db.metaValue commitHeadKey = .ok (some head.toList) := by
  simp only [currentCommitHead, bind_eq_ok]
  constructor
  · rintro ⟨a, ha, h⟩
    cases a with
    | none => cases h
    | some bytes =>
      cases hb : arrayFromBlob 32 bytes "current commit head" with
      | error e => simp [hb, Except.map] at h
      | ok v =>
        simp only [hb, Except.map, ok.injEq, Option.some.injEq] at h
        subst h
        rwa [arrayFromBlob_eq_ok.1 hb] at ha
  · intro h
    exact ⟨_, h, by simp [arrayFromBlob_eq_ok.2 rfl, Except.map]⟩

/-- `verify_inventory` accepts exactly when the head is the verified one and the rows match the documents. -/
theorem verifyInventory_eq_ok : verifyInventory env db v = .ok () ↔
      currentCommitHead db = .ok v.head ∧ db.documents.Matches v.documents (DocumentRowOf env) := by
  simp only [verifyInventory, bind_eq_ok, ensure_eq_ok, checkRows_eq_ok]
  constructor
  · rintro ⟨_, hhead, -, rfl, rows, hrows, -, hlen, hcheck⟩
    obtain ⟨hlen', hparse, -⟩ := mapM_eq_ok hrows
    have hentry : ∀ row ∈ db.documents, ∃ (i : DocumentId) (d : VerifiedDocument),
        v.documents[i]? = some d ∧ DocumentRowOf env row i d := by
      intro row hrow
      obtain ⟨r, hr, hparse⟩ := hparse row hrow
      obtain ⟨d, hd, hdr⟩ := Option.map_eq_some_iff.1 (hcheck r hr)
      exact ⟨r.documentId, d, hd, hdr ▸ hparse, by rw [hdr]⟩
    refine ⟨hhead, hentry, fun i d hd => ?_⟩
    have hcount := (Table.length_eq_size_iff db.documents.nodup idColumn idColumn_injective
      (m := v.documents) fun row hrow => by
        obtain ⟨i, d, hd, hrow⟩ := hentry row hrow
        exact ⟨i, mem_iff_exists.2 ⟨d, hd⟩, hrow.documentId⟩).1 (hlen'.symm.trans hlen)
    obtain ⟨row, hrow, hcol⟩ := hcount i (mem_iff_exists.2 ⟨d, hd⟩)
    obtain ⟨j, d', hd', hof⟩ := hentry row hrow
    have hij : j = i := idColumn_injective (hof.documentId.symm.trans hcol)
    subst hij
    rw [hd] at hd'
    exact ⟨row, hrow, Option.some.inj hd' ▸ hof⟩
  · rintro ⟨hhead, hmatch⟩
    have hparse : ∀ row ∈ db.documents.rows, ∃ r, documentRow env row = .ok r := fun row hrow => by
      obtain ⟨i, d, -, h, -⟩ := hmatch.entry_of_row row hrow
      exact ⟨_, h⟩
    obtain ⟨rows, hrows⟩ := exists_mapM_eq_ok hparse
    obtain ⟨hlen', -, hback⟩ := mapM_eq_ok hrows
    have hlen : db.documents.rows.length = v.documents.size :=
      hmatch.length_eq idColumn_injective (fun r i b h => h.documentId) db.documents.nodup
    refine ⟨v.head, hhead, (), rfl, rows, hrows, (), by rw [hlen', hlen], fun r hr => ?_⟩
    obtain ⟨row, hrow, hr'⟩ := hback r hr
    obtain ⟨i, d, hd, h, hi⟩ := hmatch.entry_of_row row hrow
    rw [hr', ok.injEq] at h
    rw [h, hi, hd]
    rfl

/-! ## The whole state -/

/-- `bytes` is the stored manifest, it parses as `m`, verifies, and commits to the inventory of `v`. -/
structure ManifestHolds (env : Env) (device : Device) (db : Database) (v : VerifiedStoreState) (m : StateManifest)
    (bytes : Bytes) : Prop where
  stored : db.metaValue manifestKey = .ok (some bytes)
  length : bytes.length ≤ maxManifestBytes
  decode : env.manifestJson.decode bytes = .ok m
  verify : m.verify env.toCrypto device.deviceVaultId device.deviceKeyId = .ok ()
  anchor : db.metaValue commitHeadKey = .ok (some m.manifestId.toList)
  head : v.head = some m.manifestId
  digest : v.manifestDigest = some (env.sha256 bytes)
  count : v.documents.size = m.documentCount.toNat
  inventory : inventoryDigest env.toCrypto (inventory v.documents) = m.inventoryDigest

/-- The database holds the state `v`. -/
structure Holds (env : Env) (device : Device) (db : Database) (v : VerifiedStoreState) : Prop where
  manifest : ∃ m bytes, ManifestHolds env device db v m bytes
  heads : db.documentHeads.Matches v.documents (HeadRow env device)
  snapshots : db.documentSnapshots.Matches v.documents (SnapshotRow env)
  rows : db.documents.Matches v.documents (DocumentRowOf env)

theorem readManifest_eq_ok {m : StateManifest} {bytes : Bytes} :
    readManifest env db = .ok (m, bytes) ↔
      db.metaValue manifestKey = .ok (some bytes) ∧ bytes.length ≤ maxManifestBytes ∧
      env.manifestJson.decode bytes = .ok m := by
  simp only [readManifest, bind_eq_ok, ofOption_eq_ok, ensure_eq_ok, fromJson_eq_ok, ok.injEq, Prod.mk.injEq]
  constructor
  · rintro ⟨_, hmeta, _, rfl, -, hlen, _, hjson, rfl, rfl⟩
    exact ⟨hmeta, hlen, hjson⟩
  · rintro ⟨hmeta, hlen, hjson⟩
    exact ⟨_, hmeta, _, rfl, (), hlen, _, hjson, rfl, rfl⟩

theorem inventory_congr {a b : Documents} (h : ∀ i : DocumentId, a[i]?.map signed = b[i]?.map signed) :
    inventory a = inventory b := by
  have hrow : ∀ i : DocumentId, a[i]?.map (fun d => d.row.currentCommitId) = b[i]?.map fun d => d.row.currentCommitId := by
    intro i
    have := congrArg (Option.map fun s : DocumentRow × Digest => s.1.currentCommitId) (h i)
    simpa only [Option.map_map, Function.comp_def, signed] using this
  unfold inventory
  congr 1
  exact ExtTreeMap.ext_getElem? fun i => by simpa [ExtTreeMap.getElem?_map] using hrow i

/-- A document with the fields of a head is what `VerifiedDocument::new` makes of it. -/
theorem VerifiedDocument.eq_new {head : CurrentHead} {n : Nat}
    (h : d.signed = (new head n).signed) : d = new head d.snapshotBytes := by
  cases d
  simp_all [signed, new]

theorem exists_of_signed_eq {a b : Option VerifiedDocument} (h : a.map signed = b.map signed) (hb : b = some d) :
    ∃ d', a = some d' ∧ d'.signed = d.signed := by
  subst hb
  exact Option.map_eq_some_iff.1 h

/-- The snapshots of a matching table are of different documents: its key is the document and its generation. -/
theorem nodup_snapshot_ids (h : db.documentSnapshots.Matches documents (SnapshotRow env)) :
    (db.documentSnapshots.rows.map SnapshotColumns.documentId).Nodup := by
  refine Nodup.map_on (fun r hr s hs hrs => ?_) (Nodup.of_map _ db.documentSnapshots.nodup)
  obtain ⟨i, d, hd, hrow⟩ := h.entry_of_row r hr
  obtain ⟨j, d', hd', hrow'⟩ := h.entry_of_row s hs
  have hij : i = j := idColumn_injective (by rw [← hrow.documentId, ← hrow'.documentId, hrs])
  subst hij
  rw [hd] at hd'
  cases hd'
  obtain ⟨g, e, hg, rfl, -⟩ := hrow
  obtain ⟨g', e', hg', rfl, -⟩ := hrow'
  rw [hg] at hg'
  cases hg'
  exact Table.eq_of_key_eq hr hs rfl

theorem holds_of_verifyCurrentState (h : verifyCurrentState env device db = .ok v) : Holds env device db v := by
  simp only [verifyCurrentState, readCurrentHeads, verifyCurrentPayloads, bind_eq_ok, ensure_eq_ok, ok.injEq] at h
  obtain ⟨⟨m, bytes⟩, hman, ⟨⟩, hverify, _, hanchor, -, rfl, documents₁, ⟨_, hheads, -, ⟨hcount, hinv⟩, rfl⟩, documents₂,
    ⟨⟨_, seen⟩, hpay, -, hseen, rfl⟩, ⟨⟩, hrows, rfl⟩ := h
  obtain ⟨hstored, hlen, hdecode⟩ := readManifest_eq_ok.1 hman
  obtain ⟨-, -, hrow, hback⟩ := readHeads_sound _ _ _ _ hheads
  have hread := readPayloads_sound _ _ _ _ _ hpay (by simp) nodup_nil
  refine ⟨⟨m, bytes, hstored, hlen, hdecode, hverify, currentCommitHead_eq_some.1 hanchor, rfl, rfl, ?_, ?_⟩,
    ⟨fun row hr => ?_, fun i d hd => ?_⟩, ⟨hread.snapshot, fun i d hd => ?_⟩, (verifyInventory_eq_ok.1 hrows).2⟩
  · rw [hread.size, hcount]
  · rw [inventory_congr hread.signed, hinv]
  · obtain ⟨id, head, hparse, hid⟩ := hrow row hr
    obtain ⟨d, hd, hsigned⟩ := exists_of_signed_eq (hread.signed id) hid
    exact ⟨id, d, hd, head, hparse, eq_new hsigned⟩
  · obtain ⟨d₁, hd₁, hsigned⟩ := exists_of_signed_eq (hread.signed i).symm hd
    rcases hback i d₁ hd₁ with h0 | ⟨row, hr, head, hparse, rfl⟩
    · simp at h0
    · exact ⟨row, hr, head, hparse, eq_new hsigned.symm⟩
  · -- every document was met, since as many were met as there are
    have hnd : (seen.map id).Nodup := by simpa using hread.nodup
    have hmet := (Table.length_eq_size_iff hnd id Function.injective_id
      fun i hi => ⟨i, hread.mem_result i hi, rfl⟩).1 hseen i (mem_iff_exists.2 ⟨d, hd⟩)
    obtain ⟨j, hj, rfl⟩ := hmet
    rcases hread.met j hj with h0 | ⟨row, hr, hcol⟩
    · simp at h0
    · obtain ⟨k, d', hd', hsnap⟩ := hread.snapshot row hr
      obtain rfl : k = j := idColumn_injective (by rw [← hsnap.documentId, hcol])
      obtain rfl := Option.some.inj (hd.symm.trans hd')
      exact ⟨row, hr, hsnap⟩

/-- Reading the head records of a database that holds `v` gives the documents of `v`, their sizes aside. -/
theorem readHeads_of_matches {count : UInt64} (hcount : documents.size = count.toNat)
    (h : db.documentHeads.Matches documents (HeadRow env device)) :
    ∃ result, readHeads env device count db.documentHeads.rows ∅ = .ok result ∧ result.size = count.toNat ∧
      ∀ i : DocumentId, result[i]?.map signed = documents[i]?.map signed := by
  have hlen : db.documentHeads.rows.length = documents.size :=
    h.length_eq idColumn_injective (fun r i b h => h.documentId) db.documentHeads.nodup
  obtain ⟨result, hresult⟩ := @readHeads_complete env device count db.documentHeads.rows ∅
    (fun row hr => by
      obtain ⟨i, d, -, head, hparse, -⟩ := h.entry_of_row row hr
      exact ⟨i, head, hparse, by simp⟩) db.documentHeads.nodup (by simp [hlen, hcount])
  obtain ⟨hsize, -, hrow, hback⟩ := readHeads_sound _ _ _ _ hresult
  refine ⟨result, hresult, by simp [hsize, hlen, hcount], fun i => ?_⟩
  cases hv : documents[i]? with
  | some d =>
    obtain ⟨row, hr, head, hparse, hd⟩ := h.row_of_entry i d hv
    obtain ⟨id, head', hparse', hid⟩ := hrow row hr
    rw [hparse, ok.injEq, Prod.mk.injEq] at hparse'
    obtain ⟨rfl, rfl⟩ := hparse'
    rw [hid, hd]
    rfl
  | none =>
    cases hr : result[i]? with
    | none => rfl
    | some d =>
      rcases hback i d hr with h0 | ⟨row, hrow, head, hparse, -⟩
      · simp at h0
      · obtain ⟨j, d', hd', head', hparse', -⟩ := h.entry_of_row row hrow
        rw [hparse, ok.injEq, Prod.mk.injEq] at hparse'
        obtain ⟨rfl, rfl⟩ := hparse'
        rw [hv] at hd'
        cases hd'

/-- Reading the snapshots over documents that differ from those of `v` in their sizes at most gives those of `v`. -/
theorem readPayloads_of_matches {start : Documents}
    (hstart : ∀ i : DocumentId, start[i]?.map signed = documents[i]?.map signed)
    (h : db.documentSnapshots.Matches documents (SnapshotRow env)) :
    ∃ seen, readPayloads env db.documentSnapshots.rows start [] = .ok (documents, seen) ∧
      seen.length = documents.size := by
  have hnd := nodup_snapshot_ids h
  obtain ⟨⟨result, seen⟩, hresult⟩ := @readPayloads_complete env db.documentSnapshots.rows start []
    (fun row hr => by
      obtain ⟨i, d, hd, g, envelope, hg, rfl, hsha, -⟩ := h.entry_of_row row hr
      obtain ⟨d₁, hd₁, hsigned⟩ := exists_of_signed_eq (hstart i) hd
      simp only [signed, Prod.mk.injEq] at hsigned
      exact ⟨i, d₁, hd₁, by simp, g, envelope, by rw [hsigned.1]; exact hg, rfl, by rw [hsigned.2]; exact hsha, rfl⟩) hnd
  have hread := readPayloads_sound _ _ _ _ _ hresult (by simp) nodup_nil
  have heq : result = documents := by
    refine ExtTreeMap.ext_getElem? fun i => ?_
    cases hd : documents[i]? with
    | none =>
      have := (hread.signed i).trans (hstart i)
      simpa [hd] using this
    | some d =>
      obtain ⟨row, hr, hsnap⟩ := h.row_of_entry i d hd
      obtain ⟨j, d', hd', hsnap'⟩ := hread.snapshot row hr
      obtain rfl : j = i := idColumn_injective (by rw [← hsnap'.documentId, hsnap.documentId])
      obtain ⟨d'', hd'', hsigned⟩ := exists_of_signed_eq ((hread.signed j).trans (hstart j)) hd
      rw [hd'] at hd''
      cases hd''
      rw [hd']
      obtain ⟨g, e, -, hrow, -, hlen⟩ := hsnap
      obtain ⟨g', e', -, hrow', -, hlen'⟩ := hsnap'
      have he : e = e' := by
        have := congrArg SnapshotColumns.envelope (hrow.symm.trans hrow')
        simpa using this
      have hbytes : d'.snapshotBytes = d.snapshotBytes := by rw [← hlen, ← hlen', he]
      cases d; cases d'
      simp_all [signed]
  subst heq
  refine ⟨seen, hresult, ?_⟩
  rw [hread.length, length_nil, Nat.zero_add]
  exact h.length_eq idColumn_injective (fun r i b h => h.documentId) hnd

/-- **Acceptance is `Holds`.** `verify_current_state` accepts a database with the state `v` exactly when the manifest
verifies and commits to `v`'s inventory and the three tables match it row by row. -/
theorem verifyCurrentState_eq_ok : verifyCurrentState env device db = .ok v ↔ Holds env device db v := by
  refine ⟨holds_of_verifyCurrentState, fun h => ?_⟩
  obtain ⟨m, bytes, hm⟩ := h.manifest
  obtain ⟨documents₁, hheads, hsize, hsigned⟩ := readHeads_of_matches hm.count h.heads
  obtain ⟨seen, hpay, hseen⟩ := readPayloads_of_matches hsigned h.snapshots
  have hv : v = { head := some m.manifestId, manifestDigest := some (env.sha256 bytes), documents := v.documents } := by
    rw [← hm.head, ← hm.digest]
  have hanchor : currentCommitHead db = .ok (some m.manifestId) := currentCommitHead_eq_some.2 hm.anchor
  have hinv : verifyInventory env db v = .ok () := verifyInventory_eq_ok.2 ⟨by rw [hm.head, hanchor], h.rows⟩
  simp only [verifyCurrentState, readCurrentHeads, verifyCurrentPayloads, bind_eq_ok, ensure_eq_ok, ok.injEq]
  refine ⟨(m, bytes), readManifest_eq_ok.2 ⟨hm.stored, hm.length, hm.decode⟩, (), hm.verify, _, hanchor, (), rfl,
    documents₁, ⟨_, hheads, (), ⟨hsize, ?_⟩, rfl⟩, v.documents, ⟨_, hpay, (), hseen, rfl⟩, (), ?_, hv.symm⟩
  · rw [inventory_congr hsigned, hm.inventory]
  · rw [← hv]
    exact hinv

/-! ## The checks before a commit -/

end FactorSeal

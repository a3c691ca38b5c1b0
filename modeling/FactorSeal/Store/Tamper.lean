import FactorSeal.Store.Commit
import FactorSeal.Vault.Reference

/-! # Reading from a database that somebody else writes

Between any two operations the rows may be replaced by whatever another process likes. The worker still only returns
what belongs to the state it last verified or committed itself: `StoreContents` as a ghost next to the worker
(`TamperedRun`), and `loadHead_of_tampered`, which reads any answer off the ghost instead of the database. The invariant
that carries this is that the inventory in memory is that of the ghost (`verified_of_run`); which rows the database has
does not matter.

SHA-256 is taken to be injective on the strings of the database that is read and of the ghost. -/

namespace FactorSeal

open Std Wire Except ExtMap Reference

variable {db : Database} {v : VerifiedStoreState} {contents : StoreContents}

/-! ## The answers of a known state -/

/-- `load_head` on what was stored of a document. -/
def StoredDocument.load (env : Env) (device : Device) (id : DocumentId) (d : StoredDocument)
    (expectedScope : DocumentKind) : VaultResult DocumentHead := do
  let wrapped ← fromJson env.wrappedKeyJson d.wrappedDek
  ensure (d.scope = expectedScope) (.invalidData "document vault or kind does not match requested operation")
  let dataKey ← unwrapDocumentKey env.toCrypto device id d.scope d.keyEpoch wrapped
  let envelope ← fromJson env.envelopeJson d.envelope
  ensure (envelope.context = ⟨device.deviceVaultId, id, d.scope, device.deviceKeyId, d.generation, d.keyEpoch⟩)
    (.invalidData "snapshot metadata does not match document row")
  return ⟨(d.head env device id).headId, d.generation, d.keyEpoch, d.wrappedDek, envelope, dataKey⟩

namespace StoreContents

def loadHead (env : Env) (device : Device) (contents : StoreContents) (id : DocumentId) (scope : DocumentKind) :
    VaultResult (Option DocumentHead) :=
  match contents[id]? with
  | none => .ok none
  | some d => do return some (← d.load env device id scope)

variable (env : VaultEnv) (device : Device) (contents : StoreContents)

def loadDocument (id : DocumentId) (scope : DocumentKind) (expected : Option Bytes) :
    VaultResult (Option (SecretDocument × DocumentHead)) := do
  DocumentHead.loadedDocument env device scope expected (← contents.loadHead env.toEnv device id scope)

def loadHistory (id : DocumentId) (scope : DocumentKind) (expected : Option Bytes) :
    VaultResult (Option HistoryLog) := do
  DocumentHead.loadedHistory env scope expected (← contents.loadHead env.toEnv device id scope)

end StoreContents

/-! ## Runs -/

/-- A worker and the state it last verified or committed: at opening the state is the one in the database, a commit adds
its document, and the rows may change in between. -/
inductive TamperedRun (env : Env) (device : Device) : StoreWorker → StoreContents → Prop
  | opened {db verified draws contents} (hv : verifyCurrentState env device db = .ok verified)
    (hcontents : db.Contains env device contents) : TamperedRun env device ⟨db, verified, draws⟩ contents
  | tampered {w contents} (db : Database) (h : TamperedRun env device w contents) :
    TamperedRun env device { w with db } contents
  | committed {w w' contents p} (h : TamperedRun env device w contents)
    (hcommit : w.persistCommit env device p = .ok w') :
    TamperedRun env device w' (contents.insert p.documentId p.document)
  | repacked {w w' contents} (h : TamperedRun env device w contents)
    (hrepack : (w.repackTransaction env device).run w.db = .ok w') : TamperedRun env device w' contents

variable {env : Env} {device : Device}

/-- A verified database contains the state it was verified as. -/
theorem documents_of_contains (hv : Holds env device db v) (hc : db.Contains env device contents) :
    v.documents = contents.verified env device := by
  refine ExtTreeMap.ext_getElem? fun id => ?_
  rw [StoreContents.getElem?_verified]
  cases hs : contents[id]? with
  | none =>
    cases hd : v.documents[id]? with
    | none => rfl
    | some d =>
      -- its row would be the row of a document of the state
      obtain ⟨row, hrow, hof⟩ := hv.rows.row_of_entry id d hd
      obtain ⟨i, s, hi, hcolumns⟩ := hc.documents.entry_of_row row hrow
      have hid : i = id := idColumn_injective ((documentColumns_eq_ok hcolumns).1.symm.trans hof.documentId)
      rw [hid, hs] at hi
      cases hi
  | some s =>
    obtain ⟨row, hrow, hid, -, record, hrecord, hdecode⟩ := hc.heads.row_of_entry id s hs
    obtain ⟨i, d, hd, head, hparse, hnew⟩ := hv.heads.entry_of_row row hrow
    obtain ⟨hi, -, ⟨record', hrecord', hdecode'⟩, -⟩ := parseHead_eq_ok.1 hparse
    rw [hid] at hi
    obtain rfl := idColumn_injective hi
    rw [hrecord] at hrecord'
    cases hrecord'
    rw [hdecode] at hdecode'
    cases hdecode'
    obtain ⟨snapshot, hsnap, g, hg, hsnapshot⟩ := hc.snapshots.row_of_entry id s hs
    obtain ⟨j, d', hd', g', e', -, hsnapshot', -, hlen⟩ := hv.snapshots.entry_of_row snapshot hsnap
    rw [hsnapshot] at hsnapshot'
    injection hsnapshot' with hj _ he
    obtain rfl := idColumn_injective hj
    cases he
    rw [hd] at hd'
    cases hd'
    rw [hd, hnew, ← hlen]
    rfl

/-- What a verified database stores of one of its documents. -/
theorem exists_stored (hv : Holds env device db v) {id : DocumentId}
    {d : VerifiedDocument} (hd : v.documents[id]? = some d) :
    ∃ s : StoredDocument, (∃ row ∈ db.documents, documentColumns (s.head env device id).row s.wrappedDek = .ok row) ∧
      (∃ row ∈ db.documentHeads, row.documentId = idColumn id ∧ row.headId = .blob (s.head env device id).headId.toList ∧
        ∃ record, row.record = .blob record ∧ env.headJson.decode record = .ok (s.head env device id)) ∧
      ∃ row ∈ db.documentSnapshots, ∃ g, toI64 s.generation = .ok g ∧
        row = ⟨idColumn id, .integer g, .blob s.envelope⟩ := by
  obtain ⟨row, hrow, hof, -⟩ := hv.rows.row_of_entry id d hd
  obtain ⟨hrecord, hheadRow, head, hparse, hnew⟩ := hv.heads.row_of_entry id d hd
  obtain ⟨hid, hheadId, hdecode, hcalc, hdocument, hvault, hdevice⟩ := parseHead_eq_ok.1 hparse
  obtain ⟨snapshot, hsnapshot, g, envelope, hg, hrow', hsha, -⟩ := hv.snapshots.row_of_entry id d hd
  obtain ⟨wrapped, hcolumns, hwrapped⟩ := documentRow_eq_ok.1 hof
  have hhead : head = StoredDocument.head env device id
      ⟨head.scope, head.generation, head.keyEpoch, head.nextEviction, wrapped, envelope⟩ := by
    refine hcalc.trans (congrArg (CurrentHead.new env.toCrypto) ?_)
    rw [hnew] at hsha hwrapped
    change _ = head.wrappedKeyDigest at hwrapped
    change _ = head.snapshotDigest at hsha
    rw [StoredDocument.contents, hwrapped, hsha, ← hdocument, ← hvault, ← hdevice]
  refine ⟨⟨head.scope, head.generation, head.keyEpoch, head.nextEviction, wrapped, envelope⟩, ⟨row, hrow, ?_⟩,
    ⟨hrecord, hheadRow, hid, ?_, ?_⟩, snapshot, hsnapshot, g, ?_, hrow'⟩
  · rw [← hhead]
    rw [hnew] at hcolumns
    exact hcolumns
  · rw [← hhead]
    exact hheadId
  · rw [← hhead]
    exact hdecode
  · rw [hnew] at hg
    exact hg

/-- A verified database is the database of some state. -/
theorem exists_contains (hv : Holds env device db v) : ∃ contents, db.Contains env device contents := by
  classical
  let stored (id : DocumentId) (d : VerifiedDocument) : StoredDocument :=
    if h : v.documents[id]? = some d then (exists_stored hv h).choose else ⟨d.row.scope, 0, 0, none, [], []⟩
  have hstored : ∀ id d (h : v.documents[id]? = some d), stored id d = (exists_stored hv h).choose :=
    fun id d h => dif_pos h
  refine ⟨v.documents.map stored, ⟨hv.rows.map ?_, hv.heads.map ?_, hv.snapshots.map ?_⟩⟩
  all_goals
    intro row hrow id d hd hof
    obtain ⟨⟨row₁, hrow₁, hspec₁⟩, ⟨row₂, hrow₂, hspec₂⟩, row₃, hrow₃, g, hg, hspec₃⟩ := (exists_stored hv hd).choose_spec
    rw [hstored id d hd]
  · rwa [Table.eq_of_key_eq hrow hrow₁ (hof.documentId.trans (documentColumns_eq_ok hspec₁).1.symm)]
  · rwa [Table.eq_of_key_eq hrow hrow₂ (hof.documentId.trans hspec₂.1.symm)]
  · have hids := nodup_snapshot_ids hv.snapshots
    have : row = row₃ := List.inj_on_of_nodup_map hids hrow hrow₃ (by rw [hof.documentId, hspec₃])
    exact ⟨g, hg, this.trans hspec₃⟩

theorem run_repackTransaction {w w' : StoreWorker}
    (h : (w.repackTransaction env device).run db = .ok w') : w'.verified.documents = w.verified.documents := by
  simp only [Transaction.run, bind_eq_ok] at h
  obtain ⟨_, -, h⟩ := h
  cases h
  rfl

/-- The inventory in memory is that of the last verified or committed state, whatever happened to the rows. -/
theorem verified_of_run {w : StoreWorker} (h : TamperedRun env device w contents) :
    w.verified.documents = contents.verified env device := by
  induction h with
  | opened hv hcontents => exact documents_of_contains (verifyCurrentState_eq_ok.1 hv) hcontents
  | tampered db _ ih => exact ih
  | @committed w w' contents p _ hcommit ih =>
    rw [(persistCommit_eq_ok hcommit).2.1]
    refine ExtTreeMap.ext_getElem? fun id => ?_
    simp only [StoreWorker.nextVerified, signedState, StoreWorker.nextDocuments, ih, getElem?_insert_iff,
      StoreContents.getElem?_verified]
    split
    · rename_i hid
      subst hid
      rfl
    · rfl
  | repacked _ hrepack ih => rw [run_repackTransaction hrepack, ih]

/-- Whatever head the worker loads from the rows is the one of the trusted state. -/
theorem loadHead_of_tampered {w : StoreWorker} (hverified : w.verified.documents = contents.verified env device)
    (hinj : Set.InjOn env.sha256 (w.db.hashed env device ∪ contents.hashed env device)) {id : DocumentId}
    {scope : DocumentKind} {r : Option DocumentHead} (h : w.loadHead env device id scope = .ok r) :
    contents.loadHead env device id scope = .ok r := by
  simp only [StoreWorker.loadHead, bind_eq_ok] at h
  obtain ⟨⟨⟩, -, h⟩ := h
  have hget : w.verified.documents[id]? = (contents[id]?).map (StoredDocument.verified env device id) := by
    rw [hverified, StoreContents.getElem?_verified]
  split at h
  · rename_i hselect
    simp only [bind_eq_ok, ensure_eq_ok] at h
    obtain ⟨⟨⟩, hmissing, h⟩ := h
    cases h
    have hnone : contents[id]? = none := by
      rw [mem_iff_exists, hget] at hmissing
      cases hc : contents[id]? with
      | none => rfl
      | some d => exact absurd ⟨_, by rw [hc]; rfl⟩ hmissing
    rw [StoreContents.loadHead, hnone]
  · rename_i columns rest hselect
    simp only [bind_eq_ok, ensure_eq_ok, rowBlob_eq_ok, fromJson_eq_ok, ofOption_eq_ok] at h
    obtain ⟨actual, hactual, wrapped, hwrapped, ⟨⟩, hrow, key, hkey, ⟨⟩, ⟨-, hscope⟩, dataKey, hunwrap, g, hg, _, henv,
      envelopeBytes, rfl, envelope, henvelope, ⟨⟩, hcontext, ⟨⟩, hsnapshot, h⟩ := h
    cases h
    have hcolumns : columns ∈ w.db.documents :=
      (Table.mem_select.1 (hselect ▸ List.mem_cons_self : columns ∈ w.db.documents.select (idColumn id))).1
    rw [hget] at hrow
    cases hd : contents[id]? with
    | none => simp [hd] at hrow
    | some d =>
      have hrow' : actual = (d.head env device id).row := by
        rw [hd] at hrow
        exact (Option.some.inj hrow).symm
      subst hrow'
      -- the two digests of the trusted row determine the wrapped key and the envelope
      obtain ⟨wrapped', hcols, hsha⟩ := documentRow_eq_ok.1 hactual
      have hwrapped' : wrapped = d.wrappedDek := by
        have hw : wrapped' = wrapped := by
          have := (wrappedDek_of_documentColumns hcols).symm.trans hwrapped
          cases this
          rfl
        subst hw
        exact hinj (Or.inl (.wrappedDek hcolumns hwrapped)) (Or.inr (.wrappedDek hd)) hsha
      simp only [verifySnapshotAgainstHead, bind_eq_ok, ofOption_eq_ok, ensure_eq_ok] at hsnapshot
      obtain ⟨trusted, htrusted, ⟨⟩, ⟨-, -, -, hdigest⟩, -⟩ := hsnapshot
      rw [hget, hd] at htrusted
      cases htrusted
      have henvelope' : envelopeBytes = d.envelope :=
        hinj (Or.inl (.envelope (Database.snapshotEnvelope_eq_some.1 henv) rfl)) (Or.inr (.envelope hd)) hdigest.symm
      subst hwrapped' henvelope'
      simp only [StoreContents.loadHead, hd, StoredDocument.load, bind_eq_ok, ensure_eq_ok, fromJson_eq_ok]
      exact ⟨_, ⟨key, hkey, (), hscope, dataKey, hunwrap, envelope, henvelope, (), hcontext, rfl⟩, rfl⟩

/-- **Only the trusted state is ever read.** In every run in which the rows are replaced at will between operations,
whatever head, document, history log or prepared write the worker gets out of the rows is the one of the state it last
verified or committed; otherwise the operation fails. And every database that verification accepts has such a state. -/
theorem load_of_tampered (env : VaultEnv) (device : Device) {w : StoreWorker} {contents : StoreContents}
    (hrun : TamperedRun env.toEnv device w contents)
    (hinj : Set.InjOn env.sha256 (w.db.hashed env.toEnv device ∪ contents.hashed env.toEnv device)) (id : DocumentId)
    (scope : DocumentKind) (expected : Option Bytes) :
    (∀ r, w.loadHead env.toEnv device id scope = .ok r → contents.loadHead env.toEnv device id scope = .ok r) ∧
    (∀ r, w.loadDocument env device id scope expected = .ok r →
      contents.loadDocument env device id scope expected = .ok r) ∧
    (∀ r, w.loadHistory env device id scope expected = .ok r →
      contents.loadHistory env device id scope expected = .ok r) ∧
    (∀ mutation context p,
      (w.loadHead env.toEnv device id scope >>= fun current =>
        w.prepareCommit env device id scope current mutation context) = .ok p →
      (contents.loadHead env.toEnv device id scope >>= fun current =>
        w.prepareCommit env device id scope current mutation context) = .ok p) ∧
    ∀ db v, verifyCurrentState env.toEnv device db = .ok v →
      ∃ contents, ∀ draws, TamperedRun env.toEnv device ⟨db, v, draws⟩ contents := by
  have hhead : ∀ r, w.loadHead env.toEnv device id scope = .ok r → contents.loadHead env.toEnv device id scope = .ok r :=
    fun r h => loadHead_of_tampered (verified_of_run hrun) hinj h
  refine ⟨hhead, fun r h => ?_, fun r h => ?_, fun mutation context p h => ?_, fun db v hv => ?_⟩
  · obtain ⟨head, hload, h⟩ := bind_eq_ok.1 h
    exact bind_eq_ok.2 ⟨head, hhead head hload, h⟩
  · obtain ⟨head, hload, h⟩ := bind_eq_ok.1 h
    exact bind_eq_ok.2 ⟨head, hhead head hload, h⟩
  · obtain ⟨head, hload, h⟩ := bind_eq_ok.1 h
    exact bind_eq_ok.2 ⟨head, hhead head hload, h⟩
  · obtain ⟨contents, hcontents⟩ := exists_contains (verifyCurrentState_eq_ok.1 hv)
    exact ⟨contents, fun draws => .opened hv hcontents⟩

/-! ### A foreign row beside a document that can be read -/

namespace Reference

def noteDocument : SecretDocument :=
  { SecretDocument.new thisDevice.actorId .localKeyring (utf8 "notes") with
    entries := (∅ : Entries).insert "key" [⟨recordVersion, .local "note" none, utf8 "text", none,
      Vector.replicate 16 0, 5, 5⟩] }

/-- The document encrypted and stored as generation one. -/
def noteStored : StoredDocument :=
  let (key, wrapped) := generateDocumentKey reference.toCrypto 0 thisDevice storedId .localKeyring 1
  let envelope := encryptSnapshot reference.toCrypto 2
    ⟨thisDevice.deviceVaultId, storedId, .localKeyring, thisDevice.deviceKeyId, 1, 1⟩
    (referenceVault.documentFormat.encode noteDocument.root)
    (referenceVault.historyJson.encode (HistoryLog.new .localKeyring (utf8 "notes"))) key
  ⟨.localKeyring, 1, 1, none, reference.wrappedKeyJson.encode wrapped, reference.envelopeJson.encode envelope⟩

/-- Somebody adds a row to the documents. -/
def tamperedDatabase : Database :=
  { oneDatabase noteStored with
    documents := (oneDatabase noteStored).documents.upsert ⟨.text "foreign", .null, .null, .null, .null, .null, .null, .null⟩ }

def tamperedWorker : StoreWorker := ⟨tamperedDatabase, oneState noteStored, 0⟩

theorem verifyCurrentState_noteStored :
    verifyCurrentState reference thisDevice (oneDatabase noteStored) = .ok (oneState noteStored) := by
  decide +kernel

theorem injOn_noteStored : Set.InjOn reference.sha256 { x | x ∈ oneStrings noteStored } :=
  injOn_oneStrings (by decide +kernel)

theorem tamperedDatabase_hashed :
    tamperedDatabase.hashed reference thisDevice ⊆ (oneDatabase noteStored).hashed reference thisDevice := by
  intro x hx
  cases hx with
  | manifest h hm => exact .manifest h hm
  | inventory h =>
    have hrejected : (verifyCurrentState reference thisDevice tamperedDatabase).isOk = false := by decide +kernel
    rw [h] at hrejected
    cases hrejected
  | head h hr hh => exact .head h hr hh
  | wrappedDek h hw =>
    rcases Table.mem_upsert.1 h with ⟨h, -⟩ | rfl
    · exact .wrappedDek h hw
    · cases hw
  | envelope h he => exact .envelope h he

end Reference

theorem load_of_tampered_note : ∃ r,
    Reference.tamperedWorker.loadDocument referenceVault Reference.thisDevice Reference.storedId .localKeyring
      (some (utf8 "notes")) = .ok (some r) ∧
    (Reference.oneContents Reference.noteStored).loadDocument referenceVault Reference.thisDevice Reference.storedId
      .localKeyring (some (utf8 "notes")) = .ok (some r) := by
  have hstrings := (Set.union_subset (Reference.tamperedDatabase_hashed.trans
    (oneDatabase_hashed verifyCurrentState_noteStored)) oneContents_hashed)
  have hinj := injOn_noteStored.mono hstrings
  have hcontains := contains_of_holds injOn_noteStored
    (oneDatabase_hashed verifyCurrentState_noteStored) oneContents_hashed
    (verifyCurrentState_eq_ok.1 verifyCurrentState_noteStored) rfl
  have hrun : TamperedRun reference thisDevice tamperedWorker
      (oneContents noteStored) :=
    .tampered tamperedDatabase (.opened verifyCurrentState_noteStored hcontains)
  have hload := load_of_tampered referenceVault thisDevice hrun hinj storedId .localKeyring
    (some (utf8 "notes"))
  have hread : (tamperedWorker.loadDocument referenceVault thisDevice storedId
      .localKeyring (some (utf8 "notes"))).isOk = true := by decide +kernel
  have hsome : (tamperedWorker.loadDocument referenceVault thisDevice storedId
      .localKeyring (some (utf8 "notes"))).toOption.join.isSome = true := by decide +kernel
  obtain ⟨r, hr⟩ := exists_of_isOk hread
  rw [hr] at hsome
  obtain ⟨document, rfl⟩ := Option.isSome_iff_exists.1 hsome
  exact ⟨document, hr, hload.2.1 _ hr⟩

end FactorSeal

import Mathlib.Data.Set.Lattice
import FactorSeal.Store.Acceptance
import FactorSeal.Store.Reference

/-! # One signed state

The device signs a manifest only for a whole state: `StoreContents`, what the rows and snapshots of every document held
when it was signed. `verifyCurrentState_signed` shows that a database that verification accepts, whatever mixture of
rows it is, holds exactly the contents of one such state.

SHA-256 is taken to be injective on the strings that are hashed: those of the database at hand and those of the signed
states (`Database.hashed`, `StoreContents.hashed`). It cannot be injective on all strings. Signatures are taken to be
unforgeable: one that is in the database and verifies was made by the device, which signs in two other domains besides
(`Unforgeable`). -/

namespace FactorSeal

open Std Wire Except ExtMap Reference

/-- What is stored of one document. -/
structure StoredDocument where
  scope : DocumentKind
  generation : UInt64
  keyEpoch : UInt64
  nextEviction : Option UInt64
  wrappedDek : Bytes
  envelope : Bytes
deriving DecidableEq, Repr

/-- What is stored of all documents. -/
abbrev StoreContents := ExtTreeMap DocumentId StoredDocument

variable (env : Env) (device : Device)

/-- The fields of the head of a stored document. -/
def StoredDocument.contents (id : DocumentId) (d : StoredDocument) : CommitContents :=
  { vaultId := device.deviceVaultId, documentId := id, scope := d.scope, generation := d.generation,
    keyEpoch := d.keyEpoch, wrappedKeyDigest := env.sha256 d.wrappedDek, snapshotDigest := env.sha256 d.envelope,
    nextEviction := d.nextEviction, deviceKeyId := device.deviceKeyId }

def StoredDocument.head (id : DocumentId) (d : StoredDocument) : CurrentHead :=
  CurrentHead.new env.toCrypto (d.contents env device id)

def StoredDocument.verified (id : DocumentId) (d : StoredDocument) : VerifiedDocument :=
  VerifiedDocument.new (d.head env device id) d.envelope.length

namespace StoreContents

/-- The inventory of a state. -/
def verified (contents : StoreContents) : Documents := contents.map (StoredDocument.verified env device)

/-- The manifest of a state, before it is signed. -/
def unsigned (contents : StoreContents) (repackPending : Bool) : StateManifest :=
  StateManifest.unsigned device.deviceVaultId device.deviceKeyId (UInt64.ofNat contents.size)
    (inventoryDigest env.toCrypto (inventory (contents.verified env device))) repackPending

/-- The strings hashed when a state is signed. -/
inductive hashed (contents : StoreContents) : Set Bytes
  | manifest (repackPending : Bool) : hashed contents (contents.unsigned env device repackPending).transcript
  | inventory : hashed contents (inventoryTranscript (inventory (contents.verified env device)))
  | head {id : DocumentId} {d : StoredDocument} (h : contents[id]? = some d) : hashed contents (d.contents env device id).transcript
  | wrappedDek {id : DocumentId} {d : StoredDocument} (h : contents[id]? = some d) : hashed contents d.wrappedDek
  | envelope {id : DocumentId} {d : StoredDocument} (h : contents[id]? = some d) : hashed contents d.envelope

end StoreContents

/-- The strings hashed when a database is verified. -/
inductive Database.hashed (db : Database) : Set Bytes
  | manifest {bytes m} (h : db.metaValue manifestKey = .ok (some bytes)) (hm : env.manifestJson.decode bytes = .ok m) :
    hashed db m.transcript
  | inventory {v} (h : verifyCurrentState env device db = .ok v) : hashed db (inventoryTranscript (inventory v.documents))
  | head {row record head} (h : row ∈ db.documentHeads) (hr : row.record = .blob record)
    (hh : env.headJson.decode record = .ok head) : hashed db head.toCommitContents.transcript
  | wrappedDek {row wrappedDek} (h : row ∈ db.documents) (hw : row.wrappedDek = .blob wrappedDek) : hashed db wrappedDek
  | envelope {row envelope} (h : row ∈ db.documentSnapshots) (he : row.envelope = .blob envelope) : hashed db envelope

/-- The signature in the database, if it verifies, is one the device made: for the manifest of one of the `signed`
states, or for a payload of the two other domains it signs in. -/
def Unforgeable (db : Database) (signed : Set StoreContents) : Prop :=
  ∀ bytes m, db.metaValue manifestKey = .ok (some bytes) → env.manifestJson.decode bytes = .ok m →
    env.verify (signaturePayload m.manifestId) m.signature = true →
    (∃ contents ∈ signed, ∃ repackPending, signaturePayload m.manifestId =
      signaturePayload (env.sha256 (contents.unsigned env device repackPending).transcript)) ∨
    (∃ rest, signaturePayload m.manifestId = commitSignatureDomain ++ rest) ∨
    (∃ rest, signaturePayload m.manifestId = permissionSignatureDomain ++ rest)

/-- The database's rows are exactly the rows of `contents`: each document's row with its wrapped key and deadline, its
head and its snapshot, and no row besides. -/
structure Database.Contains (db : Database) (contents : StoreContents) : Prop where
  documents : db.documents.Matches contents fun row id d =>
    documentColumns (d.head env device id).row d.wrappedDek = .ok row
  heads : db.documentHeads.Matches contents fun row id d =>
    row.documentId = idColumn id ∧ row.headId = .blob (d.head env device id).headId.toList ∧
      ∃ record, row.record = .blob record ∧ env.headJson.decode record = .ok (d.head env device id)
  snapshots : db.documentSnapshots.Matches contents fun row id d =>
    ∃ generation, toI64 d.generation = .ok generation ∧ row = ⟨idColumn id, .integer generation, .blob d.envelope⟩

variable {env device} {db : Database}

@[simp] theorem StoreContents.getElem?_verified (contents : StoreContents) (id : DocumentId) :
    (contents.verified env device)[id]? = (contents[id]?).map (StoredDocument.verified env device id) := by
  simp [StoreContents.verified, ExtTreeMap.getElem?_map]

/-- Two inventories are equal only if they name the same heads of the same documents. -/
theorem currentCommitId_of_inventory_eq {a b : Documents} (h : inventory a = inventory b) (id : DocumentId) :
    a[id]?.map (fun d => d.row.currentCommitId) = b[id]?.map fun d => d.row.currentCommitId := by
  have := congrArg (fun m => m[id]?) (ExtTreeMap.toList_inj.1 h)
  simpa [ExtTreeMap.getElem?_map] using this

/-- The manifest a database was accepted with is the manifest of a signed state, so the inventories agree. -/
theorem exists_signed_inventory {signed : Set StoreContents} {v : VerifiedStoreState}
    (hforge : Unforgeable env device db signed)
    (hinj : Set.InjOn env.sha256 (db.hashed env device ∪ ⋃ contents ∈ signed, contents.hashed env device))
    (h : verifyCurrentState env device db = .ok v) :
    ∃ contents ∈ signed, inventory v.documents = inventory (contents.verified env device) := by
  obtain ⟨m, bytes, hm⟩ := (verifyCurrentState_eq_ok.1 h).manifest
  obtain ⟨⟨-, -, -, hid⟩, hsig⟩ := (StateManifest.verify_eq_ok env.toCrypto).1 hm.verify
  rcases hforge _ _ hm.stored hm.decode hsig with ⟨contents, hmem, repack, hpayload⟩ | ⟨rest, hrest⟩ | ⟨rest, hrest⟩
  · have hside : ∀ s ∈ contents.hashed env device,
        s ∈ db.hashed env device ∪ ⋃ contents ∈ signed, contents.hashed env device := fun s hs =>
      Or.inr (Set.mem_biUnion hmem hs)
    have hsha : env.sha256 m.transcript = env.sha256 (contents.unsigned env device repack).transcript := by
      rw [hid, signaturePayload_inj hpayload]
    have htranscript := hinj (Or.inl (.manifest hm.stored hm.decode)) (hside _ (.manifest repack)) hsha
    have hdigest := StateManifest.inventoryDigest_of_transcript_eq htranscript
    rw [← hm.inventory] at hdigest
    exact ⟨contents, hmem,
      inventoryTranscript_inj (hinj (Or.inl (.inventory h)) (hside _ .inventory) hdigest)⟩
  · exact absurd hrest (signaturePayload_ne_commit _ _)
  · exact absurd hrest (signaturePayload_ne_permission _ _)

/-- A document whose head identifier is that of a stored document, and whose rows are in the database, has the stored
document's fields, wrapped key and snapshot. -/
theorem eq_verified_of_headId_eq {hashes : Set Bytes} (hinj : Set.InjOn env.sha256 hashes)
    (hdb : db.hashed env device ⊆ hashes) {v : VerifiedStoreState} (hv : Holds env device db v) {id : DocumentId}
    {d : VerifiedDocument} (hd : v.documents[id]? = some d) {s : StoredDocument}
    (hhead : (s.contents env device id).transcript ∈ hashes) (henvelope : s.envelope ∈ hashes)
    (hid : d.row.currentCommitId = (s.head env device id).headId) : d = s.verified env device id := by
  obtain ⟨row, hrow, head, hparse, hnew⟩ := hv.heads.row_of_entry id d hd
  obtain ⟨-, -, ⟨record, hrecord, hjson⟩, hcalc, -, -, -⟩ := parseHead_eq_ok.1 hparse
  have hheadId : head.headId = (s.head env device id).headId := by rw [← hid, hnew]; rfl
  have hcontents : head.toCommitContents = s.contents env device id := by
    refine CommitContents.transcript_inj (hinj (hdb (.head hrow hrecord hjson)) hhead ?_)
    rw [hcalc] at hheadId
    exact hheadId
  have hheadEq : head = s.head env device id := by rw [hcalc, hcontents]; rfl
  obtain ⟨snapshot, hsnap, g, envelope, -, hsnapshot, hsha, hlen⟩ := hv.snapshots.row_of_entry id d hd
  have henv : envelope = s.envelope := by
    refine hinj (hdb (.envelope hsnap (by rw [hsnapshot]))) henvelope ?_
    rw [hsha, hnew, hheadEq]
    rfl
  rw [hnew, hheadEq, ← hlen, henv]
  rfl

theorem wrappedDek_of_documentColumns {r : DocumentRow} {wrappedDek : Bytes} {row : DocumentColumns}
    (h : documentColumns r wrappedDek = .ok row) : row.wrappedDek = .blob wrappedDek := by
  simp only [documentColumns, bind_eq_ok, ok.injEq] at h
  obtain ⟨_, -, _, -, _, -, rfl⟩ := h
  rfl

/-- A head that verifies and has the row and snapshot of a stored document is that document's head. -/
theorem eq_head_of_verified_eq {id : DocumentId} {s : StoredDocument} {head : CurrentHead} {n : Nat}
    (hdevice : head.deviceKeyId = device.deviceKeyId)
    (h : s.verified env device id = VerifiedDocument.new head n) : head = s.head env device id := by
  simp only [StoredDocument.verified, VerifiedDocument.new, CurrentHead.row, VerifiedDocument.mk.injEq,
    DocumentRow.mk.injEq] at h
  obtain ⟨⟨hvault, hdocument, hscope, hgeneration, hepoch, hwrapped, hid, hdeadline⟩, hsnapshot, -⟩ := h
  have hdevice' : head.deviceKeyId = (s.head env device id).deviceKeyId := hdevice
  cases head with
  | mk contents headId =>
    cases contents
    simp_all [StoredDocument.head, StoredDocument.contents, CurrentHead.new]

/-- A database that holds the inventory of `contents` contains `contents`: the digests determine the rest. -/
theorem contains_of_holds {hashes : Set Bytes} (hinj : Set.InjOn env.sha256 hashes)
    (hdb : db.hashed env device ⊆ hashes) {contents : StoreContents} (hcontents : contents.hashed env device ⊆ hashes)
    {v : VerifiedStoreState} (hv : Holds env device db v) (hdocuments : v.documents = contents.verified env device) :
    db.Contains env device contents := by
  obtain ⟨-, hheads, hsnapshots, hrows⟩ := hv
  rw [hdocuments] at hheads hsnapshots hrows
  refine ⟨hrows.of_map fun row hrow id s hs hof => ?_, hheads.of_map fun row hrow id s hs hof => ?_,
    hsnapshots.of_map fun row hrow id s hs hof => ?_⟩
  · obtain ⟨wrapped, hcolumns, hsha⟩ := documentRow_eq_ok.1 hof.1
    have : wrapped = s.wrappedDek :=
      hinj (hdb (.wrappedDek hrow (wrappedDek_of_documentColumns hcolumns))) (hcontents (.wrappedDek hs)) hsha
    rw [← this]
    exact hcolumns
  · obtain ⟨head, hparse, hnew⟩ := hof
    obtain ⟨hid, hheadId, hrecord, -, -, -, hdevice⟩ := parseHead_eq_ok.1 hparse
    have hhead := eq_head_of_verified_eq hdevice hnew
    subst hhead
    exact ⟨hid, hheadId, hrecord⟩
  · obtain ⟨g, envelope, hg, hrow', hsha, -⟩ := hof
    have : envelope = s.envelope := hinj (hdb (.envelope hrow (by rw [hrow']))) (hcontents (.envelope hs)) hsha
    exact ⟨g, hg, by rw [hrow', this]⟩

/-- **An accepted database is one signed state.** If `verify_current_state` accepts a database, of whatever rows, then
the documents it accepts are those of one state for which this device signed a manifest, and the rows, heads and
snapshots of the database are exactly that state's: none is missing, added, or taken from another state. -/
theorem verifyCurrentState_signed (signed : Set StoreContents) (v : VerifiedStoreState)
    (hforge : Unforgeable env device db signed)
    (hinj : Set.InjOn env.sha256 (db.hashed env device ∪ ⋃ contents ∈ signed, contents.hashed env device))
    (h : verifyCurrentState env device db = .ok v) :
    ∃ contents ∈ signed, v.documents = contents.verified env device ∧ db.Contains env device contents := by
  obtain ⟨contents, hmem, hinventory⟩ := exists_signed_inventory hforge hinj h
  have hv := verifyCurrentState_eq_ok.1 h
  have hside : ∀ s ∈ contents.hashed env device,
      s ∈ db.hashed env device ∪ ⋃ contents ∈ signed, contents.hashed env device := fun s hs =>
    Or.inr (Set.mem_biUnion hmem hs)
  have hdocuments : v.documents = contents.verified env device := by
    refine ExtTreeMap.ext_getElem? fun id => ?_
    have hid := currentCommitId_of_inventory_eq hinventory id
    rw [StoreContents.getElem?_verified] at hid ⊢
    cases hs : contents[id]? with
    | none => simpa [hs] using hid
    | some s =>
      cases hd : v.documents[id]? with
      | none => simp [hd, hs] at hid
      | some d =>
        simp only [hd, hs, Option.map_some, Option.some.injEq] at hid ⊢
        exact eq_verified_of_headId_eq hinj Set.subset_union_left hv hd (hside _ (.head hs)) (hside _ (.envelope hs)) hid
  exact ⟨contents, hmem, hdocuments, contains_of_holds hinj Set.subset_union_left hside hv hdocuments⟩

/-! ### A store with one document -/

namespace Reference

def storedId : DocumentId := Vector.replicate 32 7

section

variable (s : StoredDocument)

def oneContents : StoreContents := (∅ : StoreContents).insert storedId s

def oneHead : CurrentHead := s.head reference thisDevice storedId

def oneManifest : StateManifest :=
  StateManifest.new reference.toCrypto 0 thisDevice.deviceVaultId thisDevice.deviceKeyId 1
    (inventoryDigest reference.toCrypto (inventory ((oneContents s).verified reference thisDevice))) false

/-- The database of a state of one document. -/
def oneDatabase : Database where
  storeMeta := ⟨[⟨.text manifestKey, .blob (reference.manifestJson.encode (oneManifest s))⟩,
    ⟨.text commitHeadKey, .blob (oneManifest s).manifestId.toList⟩], by simp [manifestKey, commitHeadKey]⟩
  documents := ⟨[⟨idColumn storedId, .blob thisDevice.deviceVaultId.toList, .text s.scope.asStr,
    .integer s.generation.toInt64, .integer s.keyEpoch.toInt64, .blob s.wrappedDek, .blob (oneHead s).headId.toList,
    (s.nextEviction.map fun deadline => .integer deadline.toInt64).getD .null⟩], by simp⟩
  documentSnapshots := ⟨[⟨idColumn storedId, .integer s.generation.toInt64, .blob s.envelope⟩], by simp⟩
  documentHeads := ⟨[⟨idColumn storedId, .blob (oneHead s).headId.toList,
    .blob (reference.headJson.encode (oneHead s))⟩], by simp⟩

def oneState : VerifiedStoreState :=
  ⟨some (oneManifest s).manifestId, (oneContents s).verified reference thisDevice,
    some (reference.sha256 (reference.manifestJson.encode (oneManifest s)))⟩

/-- The strings hashed for the state and for its database. -/
def oneStrings : List Bytes :=
  [((oneContents s).unsigned reference thisDevice false).transcript,
    ((oneContents s).unsigned reference thisDevice true).transcript,
    inventoryTranscript (inventory ((oneContents s).verified reference thisDevice)),
    (s.contents reference thisDevice storedId).transcript, s.wrappedDek, s.envelope]

variable {s}

theorem eq_of_oneContents {id : DocumentId} {d : StoredDocument} (h : (oneContents s)[id]? = some d) :
    id = storedId ∧ d = s := by
  rw [oneContents, getElem?_insert_iff] at h
  split at h
  · rename_i hid
    exact ⟨hid.symm, (Option.some.inj h).symm⟩
  · simp at h

theorem oneContents_hashed : (oneContents s).hashed reference thisDevice ⊆ { x | x ∈ oneStrings s } := by
  intro x hx
  cases hx with
  | manifest repackPending => cases repackPending <;> simp [oneStrings]
  | inventory => simp [oneStrings]
  | head h =>
    obtain ⟨rfl, rfl⟩ := eq_of_oneContents h
    simp [oneStrings]
  | wrappedDek h =>
    obtain ⟨rfl, rfl⟩ := eq_of_oneContents h
    simp [oneStrings]
  | envelope h =>
    obtain ⟨rfl, rfl⟩ := eq_of_oneContents h
    simp [oneStrings]

/-- The only manifest in the database is the one of the state. -/
theorem eq_oneManifest {bytes : Bytes} {m : StateManifest} (h : (oneDatabase s).metaValue manifestKey = .ok (some bytes))
    (hm : reference.manifestJson.decode bytes = .ok m) : m = oneManifest s := by
  rw [Database.metaValue_eq_some] at h
  simp only [Table.mem_def, oneDatabase, List.mem_cons, List.not_mem_nil, or_false, MetaColumns.mk.injEq] at h
  rcases h with ⟨-, h⟩ | ⟨h, -⟩
  · cases h
    rw [reference.manifestJson.decode_encode] at hm
    exact (Except.ok.inj hm).symm
  · exact absurd h (by decide)

theorem oneManifest_transcript :
    (oneManifest s).transcript = ((oneContents s).unsigned reference thisDevice false).transcript := by
  have hsize : (oneContents s).size = 1 := by simp [oneContents, ExtTreeMap.size_insert]
  rw [StoreContents.unsigned, hsize]
  rfl

theorem oneManifest_manifestId : (oneManifest s).manifestId =
    reference.sha256 ((oneContents s).unsigned reference thisDevice false).transcript := by
  rw [← oneManifest_transcript]
  rfl

theorem oneDatabase_hashed (hverify : verifyCurrentState reference thisDevice (oneDatabase s) = .ok (oneState s)) :
    (oneDatabase s).hashed reference thisDevice ⊆ { x | x ∈ oneStrings s } := by
  intro x hx
  cases hx with
  | manifest h hm =>
    rw [eq_oneManifest h hm, oneManifest_transcript]
    exact List.mem_cons_self
  | inventory h =>
    rw [hverify] at h
    cases h
    simp [oneStrings, oneState]
  | head h hr hh =>
    simp only [Table.mem_def, oneDatabase, List.mem_singleton] at h
    subst h
    cases hr
    rw [reference.headJson.decode_encode] at hh
    cases hh
    simp [oneStrings, oneHead, StoredDocument.head, CurrentHead.new]
  | wrappedDek h hw =>
    simp only [Table.mem_def, oneDatabase, List.mem_singleton] at h
    subst h
    cases hw
    simp [oneStrings]
  | envelope h he =>
    simp only [Table.mem_def, oneDatabase, List.mem_singleton] at h
    subst h
    cases he
    simp [oneStrings]

theorem injOn_oneStrings (hnd : ((oneStrings s).map reference.sha256).Nodup) :
    Set.InjOn reference.sha256 { x | x ∈ oneStrings s } := fun _ ha _ hb h =>
  List.inj_on_of_nodup_map hnd ha hb h

end

def storedDocument : StoredDocument := ⟨.localKeyring, 1, 1, some 1000, utf8 "wrapped", utf8 "envelope"⟩

end Reference

theorem verifyCurrentState_signed_stored :
    ∃ contents ∈ ({Reference.oneContents Reference.storedDocument} : Set StoreContents),
      (Reference.oneState Reference.storedDocument).documents = contents.verified reference Reference.thisDevice ∧
        (Reference.oneDatabase Reference.storedDocument).Contains reference Reference.thisDevice contents := by
  have hverify : verifyCurrentState reference thisDevice (oneDatabase storedDocument) =
      .ok (oneState storedDocument) := by decide +kernel
  have hnd : ((oneStrings storedDocument).map reference.sha256).Nodup := by decide +kernel
  refine verifyCurrentState_signed _ _ ?_ ?_ hverify
  · intro bytes m h hm _
    rw [eq_oneManifest h hm]
    exact Or.inl ⟨_, rfl, false, by rw [oneManifest_manifestId]⟩
  · refine (injOn_oneStrings hnd).mono (Set.union_subset (oneDatabase_hashed hverify) ?_)
    simpa using oneContents_hashed

end FactorSeal

import FactorSeal.Personal.Reference
import FactorSeal.Vault.Document

/-! # A reference environment for documents

Formats for the document root, the history log and the replica catalogue, on top of those of the store and the replicas. -/

namespace FactorSeal

open Wire Std ExtMap Format Reference

namespace Reference

def mapFormat {β : Type} (f : Format β) : Format (ExtTreeMap String β) :=
  (list (string.prod f)).via ExtTreeMap.toList (fun l => ExtTreeMap.ofList l) fun m => ofList_toList m

def setFormat : Format (ExtTreeSet String) :=
  (list string).via ExtTreeSet.toList (fun l => ExtTreeSet.ofList l) fun s =>
    ExtTreeSet.ext_mem fun k => by
      rw [ExtTreeSet.mem_ofList, List.contains_iff_mem, ExtTreeSet.mem_toList]

def addressFormat : Format SecretAddress :=
  ((string.prod (option string)).sum
    ((string.prod (string.prod string)).sum
      (string.prod ((option string).prod ((option string).prod
        ((option string).prod (option string))))))).via
    (fun
      | .local item field => .inl (item, field)
      | .secretSpec (.convention project profile key) => .inr (.inl (project, profile, key))
      | .secretSpec (.native c) => .inr (.inr (c.item, c.field, c.vault, c.sectionName, c.version)))
    (fun
      | .inl (item, field) => .local item field
      | .inr (.inl (project, profile, key)) => .secretSpec (.convention project profile key)
      | .inr (.inr (item, field, vault, sectionName, version)) =>
        .secretSpec (.native ⟨item, field, vault, sectionName, version⟩))
    fun a => by
      rcases a with _ | _ | _ <;> rfl

def recordFormat : Format SecretRecord :=
  (byte.prod (addressFormat.prod (bytes.prod ((option uint64).prod ((vector 16).prod
    (uint64.prod uint64)))))).via
    (fun r => (r.version, r.address, r.value, r.evictAt, r.versionId, r.createdAt, r.updatedAt))
    (fun (version, address, value, evictAt, versionId, createdAt, updatedAt) =>
      ⟨version, address, value, evictAt, versionId, createdAt, updatedAt⟩)
    fun _ => rfl

def personalFormat : Format PersonalMetadata :=
  ((option uint64).prod ((option bytes).prod ((option bytes).prod
    (option bytes)))).via
    (fun p => (p.layout, p.aliases, p.replicas, p.syncState))
    (fun (layout, aliases, replicas, syncState) => ⟨layout, aliases, replicas, syncState⟩) fun _ => rfl

def rootFormat : Format DocumentRoot :=
  ((option string).prod ((option uint64).prod ((option bytes).prod
    ((option (mapFormat (list recordFormat))).prod (personalFormat.prod
      (option bytes)))))).via
    (fun r => (r.format, r.formatVersion, r.partition, r.entries, r.personal, r.legacyRevisions))
    (fun (format, formatVersion, partition, entries, personal, legacyRevisions) =>
      ⟨format, formatVersion, partition, entries, personal, legacyRevisions⟩)
    fun _ => rfl

def operationKindFormat : Format HistoryOperation :=
  (bool.sum nat).via
    (fun | .put changed => .inl changed | .delete => .inr 0 | .clear => .inr 1 | .expire => .inr 2)
    (fun | .inl changed => .put changed | .inr 0 => .delete | .inr 1 => .clear | .inr _ => .expire)
    fun o => by cases o <;> rfl

def applicationFormat : Format DeclaredApplication :=
  ((option string).prod ((option string).prod ((option string).prod
    (option string)))).via
    (fun a => (a.project, a.profile, a.baseDir, a.reason))
    (fun (project, profile, baseDir, reason) => ⟨project, profile, baseDir, reason⟩) fun _ => rfl

def provenanceFormat : Format Provenance :=
  ((string.prod (option applicationFormat)).sum nat).via
    (fun
      | .caller principal application => .inl (principal, application)
      | .service .personalSync => .inr 0 | .service .personalMigration => .inr 1
      | .service .grantStorage => .inr 2 | .service .expiry => .inr 3
      | .redacted => .inr 4)
    (fun
      | .inl (principal, application) => .caller principal application
      | .inr 0 => .service .personalSync | .inr 1 => .service .personalMigration
      | .inr 2 => .service .grantStorage | .inr 3 => .service .expiry
      | .inr _ => .redacted)
    fun p => by
      rcases p with _ | reason | _
      · rfl
      · cases reason <;> rfl
      · rfl

def entryFormat : Format HistoryEntry :=
  (byte.prod (uint64.prod (uint64.prod (operationKindFormat.prod (addressFormat.prod
    ((option (vector 16)).prod ((option (vector 16)).prod ((option uint64).prod
      (provenanceFormat.prod (vector 32)))))))))).via
    (fun e => (e.version, e.seq, e.time, e.operation, e.address, e.versionId, e.previousVersionId, e.evictAt,
      e.provenance, e.deviceKeyId))
    (fun (version, seq, time, operation, address, versionId, previousVersionId, evictAt, provenance, deviceKeyId) =>
      ⟨version, seq, time, operation, address, versionId, previousVersionId, evictAt, provenance, deviceKeyId⟩)
    fun _ => rfl

def historyFormat : Format HistoryLog :=
  (byte.prod (kindFormat.prod (bytes.prod (uint64.prod (list entryFormat))))).via
    (fun l => (l.version, l.kind, l.partition, l.nextSeq, l.entries))
    (fun (version, kind, partition, nextSeq, entries) => ⟨version, kind, partition, nextSeq, entries⟩) fun _ => rfl

def catalogFormat : Format ReplicaCatalog :=
  ((mapFormat bytes).prod setFormat).via (fun c => (c.replicas, c.pending)) (fun p => ⟨p.1, p.2⟩) fun _ => rfl

def indexItemFormat : Format IndexItem :=
  (string.prod (string.prod ((mapFormat string).prod (string.prod (uint64.prod
    uint64))))).via
    (fun i => (i.id, i.label, i.attributes, i.contentType, i.created, i.modified))
    (fun (id, label, attributes, contentType, created, modified) =>
      ⟨id, label, attributes, contentType, created, modified⟩)
    fun _ => rfl

def indexFormat : Format Index :=
  (byte.prod (list indexItemFormat)).via (fun i => (i.version, i.items)) (fun p => ⟨p.1, p.2⟩) fun _ => rfl

def revisionFormat : Format LegacyRevision :=
  ((vector 16).prod (string.prod ((option (vector 16)).prod bool))).via
    (fun r => (r.id, r.itemId, r.parent, r.deleted)) (fun (id, itemId, parent, deleted) => ⟨id, itemId, parent, deleted⟩)
    fun _ => rfl

def journalFormat : Format LegacyJournal :=
  ((list revisionFormat).prod (list (vector 16))).via (fun j => (j.revisions, j.pending))
    (fun p => ⟨p.1, p.2⟩) fun _ => rfl

end Reference

def referenceVault : VaultEnv where
  toEnv := reference
  toReplicaEnv := referenceReplica
  historyJson := historyFormat.toCodec
  historyEntrySize entry := (entryFormat.write entry).length
  documentFormat := rootFormat.toCodec
  catalogJson := catalogFormat.toCodec
  indexJson := indexFormat.toCodec
  attributesJson := (mapFormat string).write
  aliasesJson := (list (string.prod addressFormat)).write
  journalJson := journalFormat.toCodec
  decodeItem _ bytes := referenceReplica.itemJson.decodeCurrent bytes
  websiteHost _ := none
  uuid n := toString n

end FactorSeal

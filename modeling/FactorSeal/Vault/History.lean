import FactorSeal.Lib.Except
import FactorSeal.Vault.Basic
import Mathlib.Data.Vector.Defs

/-! # The history log (vault/history.rs)

Beside every document lies a bounded log of what changed. `record` appends the changes of one generation and drops the
oldest entries beyond the kind's retention; sequence numbers are never reused. The one thing a recording needs is room
in the 64-bit counter (`record_isOk_iff`), and it keeps what `validate` demands of a log that is read back
(`validate_record`). -/

namespace FactorSeal

open Wire Except
open List hiding Vector

abbrev VersionId := Vector UInt8 16

inductive HistoryOperation where
  | put (changed : Bool)
  | delete
  | clear
  | expire
deriving DecidableEq, Repr

inductive ServiceReason where
  | personalSync
  | personalMigration
  | grantStorage
  | expiry
deriving DecidableEq, Repr

structure DeclaredApplication where
  project : Option String
  profile : Option String
  baseDir : Option String
  reason : Option String
deriving DecidableEq, Repr

/-- history.rs:128-147; the principal is an opaque name here. -/
inductive Provenance where
  | caller (principal : String) (application : Option DeclaredApplication)
  | service (reason : ServiceReason)
  | redacted
deriving DecidableEq, Repr

/-- history.rs:169-189. -/
structure HistoryEntry where
  version : UInt8
  seq : UInt64
  time : UInt64
  operation : HistoryOperation
  address : SecretAddress
  versionId : Option VersionId
  previousVersionId : Option VersionId
  evictAt : Option UInt64
  provenance : Provenance
  deviceKeyId : DeviceKeyId
deriving DecidableEq, Repr

structure PendingHistory where
  operation : HistoryOperation
  address : SecretAddress
  versionId : Option VersionId
  previousVersionId : Option VersionId
  evictAt : Option UInt64
deriving DecidableEq, Repr

def historyEntryVersion : UInt8 := 1
def historyLogVersion : UInt8 := 1

def HistoryEntry.new (seq time : UInt64) (pending : PendingHistory) (provenance : Provenance)
    (deviceKeyId : DeviceKeyId) : HistoryEntry :=
  ⟨historyEntryVersion, seq, time, pending.operation, pending.address, pending.versionId, pending.previousVersionId,
    pending.evictAt, provenance, deviceKeyId⟩

def HistoryEntry.isSupported (entry : HistoryEntry) : Bool := entry.version = historyEntryVersion

/-- history.rs:394-401. -/
structure HistoryRetention where
  maxEntries : Nat
  maxBytes : Nat
  recordUnchanged : Bool

/-- history.rs:403-429. -/
def DocumentKind.historyRetention : DocumentKind → HistoryRetention
  | .secretSpecProject => ⟨2048, 1024 * 1024, true⟩
  | .authorization | .linuxSecretService | .networkManagerWifi | .localKeyring => ⟨1024, 512 * 1024, true⟩
  | .secretSpecProviderCache => ⟨64, 64 * 1024, false⟩

structure HistoryLog where
  version : UInt8
  kind : DocumentKind
  partition : Bytes
  nextSeq : UInt64
  entries : List HistoryEntry
deriving DecidableEq, Repr

namespace HistoryLog

variable {log : HistoryLog} {kind : DocumentKind} {partition : Bytes} {time : UInt64}
  {provenance : Provenance} {deviceKeyId : DeviceKeyId} {pending : List PendingHistory}

def new (kind : DocumentKind) (partition : Bytes) : HistoryLog := ⟨historyLogVersion, kind, partition, 0, []⟩

/-- `validate` (history.rs:298-330). -/
def validate (log : HistoryLog) (kind : DocumentKind) (expected : Option Bytes) : VaultResult Unit := do
  ensure (log.version = historyLogVersion) (.invalidData "unsupported secret document history version")
  ensure (log.kind = kind ∧ ∀ partition ∈ expected, log.partition = partition)
    (.invalidData "secret document history does not match its document")
  ensure (log.entries.all HistoryEntry.isSupported) (.invalidData "unsupported secret document history entry")
  ensure ((log.entries.zip log.entries.tail).all (fun p => p.1.seq < p.2.seq) ∧
      ∀ last ∈ log.entries.getLast?, last.seq < log.nextSeq)
    (.invalidData "secret document history is not strictly ordered")

/-- `load` (history.rs:267-276). -/
def load (json : Codec HistoryLog) (bytes : Bytes) (kind : DocumentKind) (expected : Option Bytes) :
    VaultResult HistoryLog :=
  match json.decode bytes with
  | .error message => .error (.invalidData message)
  | .ok log => do
    log.validate kind expected
    return log

/-- The new address of one entry: that of the first mapping that names its old one. -/
def migrateEntry (mappings : List (SecretAddress × SecretAddress)) (entry : HistoryEntry) : HistoryEntry :=
  { entry with address := ((mappings.find? fun m => m.1 = entry.address).map Prod.snd).getD entry.address }

/-- `migrate_addresses` (history.rs:337-343). -/
def migrateAddresses (log : HistoryLog) (mappings : List (SecretAddress × SecretAddress)) : HistoryLog :=
  { log with entries := log.entries.map (migrateEntry mappings) }

/-- The body of `record`'s loop: one change takes the next sequence number. -/
def append (log : HistoryLog) (time : UInt64) (provenance : Provenance) (deviceKeyId : DeviceKeyId)
    (pending : PendingHistory) : VaultResult HistoryLog := do
  ensure (log.nextSeq.toNat + 1 < 2 ^ 64) (.invalidData "secret document history sequence is exhausted")
  return { log with
    nextSeq := log.nextSeq + 1
    entries := log.entries ++ [HistoryEntry.new log.nextSeq time pending provenance deviceKeyId] }

/-- The loop of `record` (history.rs:359-371). -/
def appendAll (log : HistoryLog) (time : UInt64) (provenance : Provenance) (deviceKeyId : DeviceKeyId)
    (pending : List PendingHistory) : VaultResult HistoryLog :=
  pending.foldlM (fun log p => append log time provenance deviceKeyId p) log

/-- The log is over one of the two limits. -/
def exceeds (size : HistoryEntry → Nat) (retention : HistoryRetention) (entries : List HistoryEntry) : Bool :=
  entries.length > retention.maxEntries || entries.foldl (fun total entry => total + size entry) 0 > retention.maxBytes

/-- The trimming loop of `record` (history.rs:379-387): drops the oldest entries while there are too many or too long. -/
def trim (size : HistoryEntry → Nat) (retention : HistoryRetention) : List HistoryEntry → List HistoryEntry
  | [] => []
  | entry :: rest =>
    if exceeds size retention (entry :: rest) then trim size retention rest else entry :: rest

/-- `record` (history.rs:352-389). `size` is the length of an entry's JSON. -/
def record (size : HistoryEntry → Nat) (log : HistoryLog) (pending : List PendingHistory) (time : UInt64)
    (provenance : Provenance) (deviceKeyId : DeviceKeyId) : VaultResult HistoryLog := do
  let log ← log.appendAll time provenance deviceKeyId pending
  return { log with entries := trim size log.kind.historyRetention log.entries }

/-! ## Well-formed logs -/

/-- What `validate` accepts: the log of one document, sequence numbers increasing and below the next one. -/
structure WellFormed (log : HistoryLog) (kind : DocumentKind) (partition : Bytes) : Prop where
  version : log.version = historyLogVersion
  kind : log.kind = kind
  partition : log.partition = partition
  supported : ∀ entry ∈ log.entries, entry.isSupported
  increasing : log.entries.Pairwise fun a b => a.seq < b.seq
  below : ∀ entry ∈ log.entries, entry.seq < log.nextSeq

theorem wellFormed_new (kind : DocumentKind) (partition : Bytes) : (new kind partition).WellFormed kind partition :=
  ⟨rfl, rfl, rfl, by simp [new], by simp [new], by simp [new]⟩

/-- Neighbours of an increasing list increase. -/
private theorem all_zip_tail {entries : List HistoryEntry} (h : entries.Pairwise fun a b => a.seq < b.seq) :
    (entries.zip entries.tail).all (fun p => p.1.seq < p.2.seq) = true := by
  induction h with
  | nil => rfl
  | @cons a l hlt _ ih =>
    cases l with
    | nil => rfl
    | cons b l =>
      rw [tail_cons, zip_cons_cons, all_cons, decide_eq_true (hlt b mem_cons_self), Bool.true_and]
      exact ih

/-- A well-formed log passes the check of its own document. -/
theorem validate_of_wellFormed
    (h : log.WellFormed kind partition) {expected : Option Bytes} (hexpected : ∀ p ∈ expected, p = partition) :
    log.validate kind expected = .ok () := by
  have hpartition : ∀ p ∈ expected, log.partition = p := fun p hp => by rw [h.partition, hexpected p hp]
  have hpairs := all_zip_tail h.increasing
  have hlast : ∀ last ∈ log.entries.getLast?, last.seq < log.nextSeq := fun last hl =>
    h.below last (mem_of_mem_getLast? hl)
  have hsupported : log.entries.all HistoryEntry.isSupported = true := all_eq_true.2 h.supported
  rw [validate, ensure_of h.version, ok_bind, ensure_of ⟨h.kind, hpartition⟩, ok_bind, ensure_of hsupported, ok_bind,
    ensure_of ⟨hpairs, hlast⟩]

/-- One change keeps a log well formed. -/
theorem wellFormed_append {log' : HistoryLog} (h : log.WellFormed kind partition)
    {pending : PendingHistory} (happend : log.append time provenance deviceKeyId pending = .ok log') :
    log'.WellFormed kind partition := by
  simp only [append, bind_eq_ok, ensure_eq_ok] at happend
  obtain ⟨⟨⟩, hroom, happend⟩ := happend
  cases happend
  have hlt : log.nextSeq < log.nextSeq + 1 := by
    rw [UInt64.lt_iff_toNat_lt, UInt64.toNat_add]
    have : (1 : UInt64).toNat = 1 := rfl
    omega
  refine ⟨h.version, h.kind, h.partition, fun entry hentry => ?_, ?_, fun entry hentry => ?_⟩
  · rcases mem_append.1 hentry with hentry | hentry
    · exact h.supported entry hentry
    · rw [mem_singleton.1 hentry]
      rfl
  · rw [pairwise_append]
    refine ⟨h.increasing, by simp, fun a ha b hb => ?_⟩
    rw [mem_singleton.1 hb]
    exact h.below a ha
  · rcases mem_append.1 hentry with hentry | hentry
    · exact UInt64.lt_trans (h.below entry hentry) hlt
    · rw [mem_singleton.1 hentry]
      exact hlt

theorem trim_suffix (size : HistoryEntry → Nat) (retention : HistoryRetention) (entries : List HistoryEntry) :
    trim size retention entries <:+ entries := by
  induction entries with
  | nil => exact suffix_rfl
  | cons entry rest ih =>
    rw [trim]
    split
    · exact ih.trans (suffix_cons entry rest)
    · exact suffix_rfl

/-- **Recording keeps a log well formed.** -/
theorem wellFormed_record {size : HistoryEntry → Nat} {log' : HistoryLog} (h : log.WellFormed kind partition)
    (hrecord : log.record size pending time provenance deviceKeyId = .ok log') :
    log'.WellFormed kind partition := by
  simp only [record, bind_eq_ok] at hrecord
  obtain ⟨appended, hfold, hrecord⟩ := hrecord
  cases hrecord
  have hwf : appended.WellFormed kind partition := by
    clear size
    induction pending generalizing log with
    | nil =>
      cases hfold
      exact h
    | cons p pending ih =>
      rw [appendAll, foldlM_cons, bind_eq_ok] at hfold
      obtain ⟨next, happend, hfold⟩ := hfold
      exact ih (wellFormed_append h happend) hfold
  have hsub := (trim_suffix size appended.kind.historyRetention appended.entries).sublist
  exact ⟨hwf.version, hwf.kind, hwf.partition, fun e he => hwf.supported e (hsub.subset he),
    hwf.increasing.sublist hsub, fun e he => hwf.below e (hsub.subset he)⟩

/-- The counter of a log that has room for the changes goes up by their number. -/
theorem appendAll_of_room
    (hroom : log.nextSeq.toNat + pending.length < 2 ^ 64) (time : UInt64) (provenance : Provenance)
    (deviceKeyId : DeviceKeyId) : ∃ log', log.appendAll time provenance deviceKeyId pending = .ok log' ∧
      log'.nextSeq.toNat = log.nextSeq.toNat + pending.length := by
  induction pending generalizing log with
  | nil => exact ⟨log, rfl, rfl⟩
  | cons p pending ih =>
    rw [length_cons] at hroom
    have hnext : (log.nextSeq + 1).toNat = log.nextSeq.toNat + 1 := by
      rw [UInt64.toNat_add]
      exact Nat.mod_eq_of_lt (by change log.nextSeq.toNat + 1 < 2 ^ 64; omega)
    obtain ⟨log', hfold, hseq⟩ := @ih { log with
      nextSeq := log.nextSeq + 1
      entries := log.entries ++ [HistoryEntry.new log.nextSeq time p provenance deviceKeyId] }
      (by simp only [hnext]; omega)
    refine ⟨log', ?_, by simp only [hseq, hnext, length_cons]; omega⟩
    rw [appendAll, foldlM_cons, append, ensure_of (by omega), ok_bind]
    exact hfold

/-- **A recording succeeds exactly when the counter has room**, and fails as an integrity error otherwise. -/
theorem record_of_room {log : HistoryLog} {pending : List PendingHistory}
    (hroom : log.nextSeq.toNat + pending.length < 2 ^ 64) (size : HistoryEntry → Nat) (time : UInt64)
    (provenance : Provenance) (deviceKeyId : DeviceKeyId) :
    ∃ log', log.record size pending time provenance deviceKeyId = .ok log' ∧
      log'.nextSeq.toNat = log.nextSeq.toNat + pending.length := by
  obtain ⟨log', happend, hseq⟩ := appendAll_of_room hroom time provenance deviceKeyId
  refine ⟨{ log' with entries := trim size log'.kind.historyRetention log'.entries }, ?_, hseq⟩
  rw [record, happend]
  rfl

end HistoryLog

end FactorSeal

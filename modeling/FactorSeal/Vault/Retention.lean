import FactorSeal.Vault.History

/-! # What the history log retains (vault/history.rs:352-389)

Every batch is trimmed by itself. Trimming forgets nothing that a later trimming would keep (`trim_append`), so after any
number of batches the log is the trimming of everything that was ever recorded (`recordAll_eq`): its longest suffix within
both bounds. -/

namespace FactorSeal.HistoryLog

open Wire Except List

variable {log log' : HistoryLog} {size : HistoryEntry → Nat} {batches : List Batch}

/-- The changes of one generation, as `record` is called with them. -/
structure Batch where
  pending : List PendingHistory
  time : UInt64
  provenance : Provenance
  deviceKeyId : DeviceKeyId
deriving DecidableEq, Repr

/-- A change of the batch under its number. -/
def Batch.entry (b : Batch) (seq : Nat) (p : PendingHistory) : HistoryEntry :=
  HistoryEntry.new (UInt64.ofNat seq) b.time p b.provenance b.deviceKeyId

/-- The entries of a batch, numbered from `start`. -/
def Batch.entries (b : Batch) (start : Nat) : List HistoryEntry := b.pending.mapIdx fun i p => b.entry (start + i) p

def recordBatch (size : HistoryEntry → Nat) (log : HistoryLog) (b : Batch) : VaultResult HistoryLog :=
  log.record size b.pending b.time b.provenance b.deviceKeyId

def recordAll (size : HistoryEntry → Nat) (log : HistoryLog) (batches : List Batch) : VaultResult HistoryLog :=
  batches.foldlM (recordBatch size) log

/-- Everything that was ever recorded, numbered from `start`. -/
def recorded : Nat → List Batch → List HistoryEntry
  | _, [] => []
  | start, b :: rest => b.entries start ++ recorded (start + b.pending.length) rest

/-! ## Trimming -/

section

variable {size : HistoryEntry → Nat} {retention : HistoryRetention}

theorem le_foldl_size (entries : List HistoryEntry) (total : Nat) :
    total ≤ entries.foldl (fun total entry => total + size entry) total := by
  induction entries generalizing total with
  | nil => exact Nat.le_refl total
  | cons entry rest ih =>
    have hrest := ih (total + size entry)
    rw [foldl_cons]
    omega

/-- A log that is too long stays so when more is appended. -/
theorem exceeds_append {entries : List HistoryEntry} (h : exceeds size retention entries = true)
    (more : List HistoryEntry) : exceeds size retention (entries ++ more) = true := by
  simp only [exceeds, Bool.or_eq_true, decide_eq_true_eq] at h ⊢
  rcases h with h | h
  · left
    rw [length_append]
    omega
  · right
    have hmore := @le_foldl_size size more (entries.foldl (fun total entry => total + size entry) 0)
    rw [foldl_append]
    omega

theorem exceeds_trim (entries : List HistoryEntry) : exceeds size retention (trim size retention entries) = false := by
  induction entries with
  | nil => simp [trim, exceeds]
  | cons entry rest ih =>
    rw [trim]
    by_cases h : exceeds size retention (entry :: rest) = true
    · rw [if_pos h]
      exact ih
    · rw [if_neg h]
      exact Bool.eq_false_iff.2 h

/-- What is left is the longest suffix within the bounds. -/
theorem suffix_trim {entries other : List HistoryEntry} (hsuffix : other <:+ entries)
    (h : exceeds size retention other = false) : other <:+ trim size retention entries := by
  induction entries with
  | nil => exact hsuffix
  | cons entry rest ih =>
    rw [trim]
    by_cases hexceeds : exceeds size retention (entry :: rest) = true
    · rw [if_pos hexceeds]
      rcases List.suffix_cons_iff.1 hsuffix with rfl | hrest
      · rw [h] at hexceeds
        cases hexceeds
      · exact ih hrest
    · rw [if_neg hexceeds]
      exact hsuffix

/-- What was trimmed before would be trimmed later. -/
theorem trim_append (entries more : List HistoryEntry) :
    trim size retention (trim size retention entries ++ more) = trim size retention (entries ++ more) := by
  induction entries with
  | nil => rfl
  | cons entry rest ih =>
    by_cases h : exceeds size retention (entry :: rest) = true
    · have hmore := exceeds_append h more
      rw [cons_append] at hmore
      rw [trim, if_pos h, ih, cons_append, trim, if_pos hmore]
    · rw [trim, if_neg h]

end

/-! ## Batches -/

/-- What the loop of `record` appends. -/
theorem appendAll_eq_ok (b : Batch) (h : log.appendAll b.time b.provenance b.deviceKeyId b.pending = .ok log') :
    log'.nextSeq.toNat = log.nextSeq.toNat + b.pending.length ∧ log'.kind = log.kind ∧
      log'.entries = log.entries ++ b.entries log.nextSeq.toNat := by
  obtain ⟨pending, time, provenance, deviceKeyId⟩ := b
  dsimp only at h ⊢
  induction pending generalizing log with
  | nil =>
    cases h
    exact ⟨rfl, rfl, (append_nil _).symm⟩
  | cons p rest ih =>
    rw [appendAll, foldlM_cons, bind_eq_ok] at h
    obtain ⟨next, happend, h⟩ := h
    simp only [append, bind_eq_ok, ensure_eq_ok] at happend
    obtain ⟨⟨⟩, hroom, happend⟩ := happend
    cases happend
    have hnext : (log.nextSeq + 1).toNat = log.nextSeq.toNat + 1 := by
      rw [UInt64.toNat_add]
      exact Nat.mod_eq_of_lt hroom
    obtain ⟨hseq, hkind, hentries⟩ := ih h
    dsimp only at hseq hkind hentries
    refine ⟨?_, hkind, ?_⟩
    · rw [hseq, hnext, length_cons]
      omega
    · rw [hentries, hnext, append_assoc]
      congr 1
      simp only [Batch.entries, Batch.entry, mapIdx_cons, Nat.add_zero, UInt64.ofNat_toNat, singleton_append,
        Nat.add_assoc, Nat.add_comm 1]

/-- One batch: the entries of the log and the new ones, trimmed. -/
theorem recordBatch_eq_ok {b : Batch} (h : log.recordBatch size b = .ok log') :
    log'.nextSeq.toNat = log.nextSeq.toNat + b.pending.length ∧ log'.kind = log.kind ∧
      log'.entries = trim size log.kind.historyRetention (log.entries ++ b.entries log.nextSeq.toNat) := by
  simp only [recordBatch, record, bind_eq_ok] at h
  obtain ⟨appended, happend, h⟩ := h
  cases h
  obtain ⟨hseq, hkind, hentries⟩ := appendAll_eq_ok b happend
  exact ⟨hseq, hkind, by rw [hkind, hentries]⟩

/-- All batches: everything the log stands for and the new entries, trimmed once. -/
theorem recordAll_eq {before : List HistoryEntry} (hbefore : log.entries = trim size log.kind.historyRetention before)
    (h : log.recordAll size batches = .ok log') :
    log'.nextSeq.toNat = log.nextSeq.toNat + (recorded log.nextSeq.toNat batches).length ∧ log'.kind = log.kind ∧
      log'.entries = trim size log.kind.historyRetention (before ++ recorded log.nextSeq.toNat batches) := by
  induction batches generalizing log before with
  | nil =>
    cases h
    exact ⟨rfl, rfl, by rw [recorded, append_nil, hbefore]⟩
  | cons b rest ih =>
    rw [recordAll, foldlM_cons, bind_eq_ok] at h
    obtain ⟨next, hbatch, h⟩ := h
    obtain ⟨hseq, hkind, hentries⟩ := recordBatch_eq_ok hbatch
    have hnext : next.entries = trim size next.kind.historyRetention (before ++ b.entries log.nextSeq.toNat) := by
      rw [hentries, hkind, hbefore, trim_append]
    obtain ⟨hseq', hkind', hentries'⟩ := ih hnext h
    rw [hseq] at hseq' hentries'
    refine ⟨?_, hkind'.trans hkind, ?_⟩
    · rw [hseq', recorded, length_append, Batch.entries, length_mapIdx]
      omega
    · rw [hentries', hkind, recorded, append_assoc]

theorem wellFormed_recordAll {kind : DocumentKind} {partition : Bytes} (hlog : log.WellFormed kind partition)
    (h : log.recordAll size batches = .ok log') : log'.WellFormed kind partition := by
  induction batches generalizing log with
  | nil =>
    cases h
    exact hlog
  | cons b rest ih =>
    rw [recordAll, foldlM_cons, bind_eq_ok] at h
    obtain ⟨next, hbatch, h⟩ := h
    exact ih (wellFormed_record hlog hbatch) h

/-! ## Numbers -/

theorem Batch.map_seq_entries {b : Batch} {start : Nat} (hroom : start + b.pending.length ≤ 2 ^ 64) :
    (b.entries start).map (fun e => e.seq.toNat) = range' start b.pending.length := by
  apply ext_getElem
  · simp [Batch.entries]
  · intro i hi hrange
    have hlt : i < b.pending.length := by simpa [Batch.entries] using hi
    have hsmall : start + i < 18446744073709551616 := by omega
    simp [Batch.entries, Batch.entry, HistoryEntry.new, hsmall]

/-- Numbers are given out one after the other. -/
theorem map_seq_recorded {start : Nat} (hroom : start + (recorded start batches).length ≤ 2 ^ 64) :
    (recorded start batches).map (fun e => e.seq.toNat) = range' start (recorded start batches).length := by
  induction batches generalizing start with
  | nil => rfl
  | cons b rest ih =>
    have hlength : (b.entries start).length = b.pending.length := length_mapIdx
    rw [recorded, length_append, hlength] at hroom
    rw [recorded, map_append, Batch.map_seq_entries (by omega), ih (by omega), length_append, hlength]
    exact range'_append_1

/-- The numbers of a suffix are the last ones. -/
theorem map_seq_of_suffix {ever entries : List HistoryEntry} (hsuffix : entries <:+ ever)
    (hever : ever.map (fun e => e.seq.toNat) = range' 0 ever.length) :
    entries.map (fun e => e.seq.toNat) = range' (ever.length - entries.length) entries.length := by
  obtain ⟨dropped, rfl⟩ := hsuffix
  rw [map_append, length_append, ← range'_append_1] at hever
  have hlength : (dropped ++ entries).length - entries.length = dropped.length := by
    rw [length_append]
    omega
  have hlast := (append_inj hever (by simp)).2
  rw [hlength, hlast, Nat.zero_add]

/-- **What the log is after any batches**: it has consecutive numbers up to the next one, it is the longest suffix of all
entries ever recorded within both bounds, no number was given out twice, and it is loaded as it was saved. -/
theorem recordAll_retains {size : HistoryEntry → Nat} {kind : DocumentKind} {partition : Bytes} {batches : List Batch}
    {log : HistoryLog} (h : (HistoryLog.new kind partition).recordAll size batches = .ok log) :
    log.entries.map (fun e => e.seq.toNat) =
        List.range' (log.nextSeq.toNat - log.entries.length) log.entries.length ∧
      (log.entries <:+ recorded 0 batches ∧ exceeds size kind.historyRetention log.entries = false ∧
        ∀ other, other <:+ recorded 0 batches → exceeds size kind.historyRetention other = false →
          other <:+ log.entries) ∧
      ((recorded 0 batches).map HistoryEntry.seq).Nodup ∧
      ∀ (json : Codec HistoryLog) (expected : Option Bytes), (∀ p ∈ expected, p = partition) →
        HistoryLog.load json (json.encode log) kind expected = .ok log := by
  have hwf := wellFormed_recordAll (wellFormed_new kind partition) h
  have hempty : (HistoryLog.new kind partition).entries = trim size kind.historyRetention [] := rfl
  obtain ⟨hseq, -, hentries⟩ := recordAll_eq hempty h
  have hnext : log.nextSeq.toNat = (recorded 0 batches).length := hseq.trans (Nat.zero_add _)
  have hentries : log.entries = trim size kind.historyRetention (recorded 0 batches) := hentries
  have hroom := log.nextSeq.toNat_lt
  have hever : (recorded 0 batches).map (fun e => e.seq.toNat) = range' 0 (recorded 0 batches).length :=
    map_seq_recorded (by omega)
  have hsuffix : log.entries <:+ recorded 0 batches := hentries ▸ trim_suffix _ _ _
  refine ⟨?_, ⟨hsuffix, hentries ▸ exceeds_trim _, fun other hother hbounds => ?_⟩, ?_, fun json expected hexpected => ?_⟩
  · rw [hnext]
    exact map_seq_of_suffix hsuffix hever
  · rw [hentries]
    exact suffix_trim hother hbounds
  · have hnodup : (((recorded 0 batches).map HistoryEntry.seq).map UInt64.toNat).Nodup := by
      rw [map_map]
      exact hever ▸ nodup_range'
    exact List.Pairwise.of_map UInt64.toNat (fun a b hne hsame => hne (congrArg UInt64.toNat hsame)) hnodup
  · rw [load, json.decode_encode]
    dsimp only
    rw [validate_of_wellFormed hwf hexpected, ok_bind]
    rfl

/-- Three changes in two batches whose entries are 40 000 bytes each: a cache keeps the last one. -/
def sampleBatches : List Batch :=
  [⟨[⟨.put true, .local "a" none, none, none, none⟩, ⟨.put true, .local "b" none, none, none, none⟩], 1, .redacted,
      .replicate 32 0⟩,
    ⟨[⟨.delete, .local "a" none, none, none, none⟩], 2, .redacted, .replicate 32 0⟩]

def sampleLog : HistoryLog :=
  ⟨1, .secretSpecProviderCache, [], 3, [⟨1, 2, 2, .delete, .local "a" none, none, none, none, .redacted, .replicate 32 0⟩]⟩

theorem recordAll_retains_last :
    (HistoryLog.new .secretSpecProviderCache []).recordAll (fun _ => 40000) sampleBatches = .ok sampleLog ∧
      sampleLog.entries <:+ recorded 0 sampleBatches ∧ ((recorded 0 sampleBatches).map HistoryEntry.seq).Nodup := by
  have hrecord : (HistoryLog.new .secretSpecProviderCache []).recordAll (fun _ => 40000) sampleBatches =
      .ok sampleLog := by decide +kernel
  obtain ⟨-, ⟨hsuffix, -, -⟩, hnodup, -⟩ := recordAll_retains hrecord
  exact ⟨hrecord, hsuffix, hnodup⟩

end FactorSeal.HistoryLog

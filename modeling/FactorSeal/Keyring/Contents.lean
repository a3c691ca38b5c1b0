import FactorSeal.Keyring.Adapter
import FactorSeal.Store.Views
import Mathlib.Data.Vector.Defs

/-! # What the keyring is

A keyring is a list of items with their values. A call or an import is a function on it, when nobody else is at work.
`Stores` says how the document of the vault holds it: the index lists the items, and there is a value for each of them
and nothing else. An edit that fits the index does to the document what it does to the keyring (`Stores.edit`). -/

namespace FactorSeal

open List hiding Vector
open Wire Except Std Function

variable {text : Option Bytes} {view : DocumentView}

/-- The items and their values, in the order of the index. -/
abbrev Keyring := List (IndexItem × Bytes)

namespace Keyring

def items (k : Keyring) : List IndexItem := k.map Prod.fst

def edit (k : Keyring) : KeyringEdit → Keyring
  | .replace position item value => k.set position (item, value)
  | .push item value => k ++ [(item, value)]
  | .remove position _ => k.eraseIdx position

/-- A call on a keyring that nobody else uses. -/
def perform (k : Keyring) (call : KeyringCall) (now : UInt64) (fresh : Vector UInt8 16) :
    Except KeyringFailure (KeyringAnswer × Keyring) :=
  (call.edit now fresh k.items).map fun r => (r.2, k.edit r.1)

/-- An import into a keyring that nobody else uses. -/
def importItem (k : Keyring) (item : IndexItem) (value : Bytes) (replaceExisting : Bool) :
    VaultEntryImportStatus × Keyring :=
  match k.items.findIdx? (·.id = item.id) with
  | some position =>
    if replaceExisting then (.replaced, k.edit (.replace position item value)) else (.keptExisting, k)
  | none => (.added, k.edit (.push item value))

theorem items_edit (k : Keyring) (edit : KeyringEdit) : (k.edit edit).items = edit.items k.items := by
  cases edit with
  | replace position item value => simp [Keyring.edit, items, KeyringEdit.items, map_set]
  | push item value => simp [Keyring.edit, items, KeyringEdit.items]
  | remove position id => simp [Keyring.edit, items, KeyringEdit.items, eraseIdx_map]

end Keyring

/-! ## Addresses -/

def indexAddress : SecretAddress := .local indexItem none

def itemAddress (id : String) : SecretAddress := .local (secretItem id) none

theorem itemAddress_inj {id id' : String} (h : itemAddress id = itemAddress id') : id = id' := by
  have hitem : "item/" ++ id = "item/" ++ id' := (SecretAddress.local.inj h).1
  have hlist := congrArg String.toList hitem
  rw [String.toList_append, String.toList_append] at hlist
  exact String.toList_inj.1 (append_cancel_left hlist)

theorem itemAddress_ne_indexAddress (id : String) : itemAddress id ≠ indexAddress := by
  intro h
  have hitem : "item/" ++ id = "secret-service-index" := (SecretAddress.local.inj h).1
  have hlist := congrArg (fun s => s.toList.head?) hitem
  simp [String.toList_append] at hlist

section

variable (env : VaultEnv)

def indexKey : String := indexAddress.storageKey env.sha256

def itemKey (id : String) : String := (itemAddress id).storageKey env.sha256

/-- The storage keys of the index and of the items. -/
def keyringKeys (items : List IndexItem) : List String := indexKey env :: items.map fun item => itemKey env item.id

/-- The edit is about the item that is at its place, or brings one whose key is new. -/
def KeyringEdit.Fits (items : List IndexItem) : KeyringEdit → Prop
  | .replace position item _ => ∃ old, items[position]? = some old ∧ old.id = item.id
  | .push item _ => itemKey env item.id ∉ keyringKeys env items
  | .remove position id => ∃ old, items[position]? = some old ∧ old.id = id

/-- What the edit does to the value of its item. -/
def KeyringEdit.operation : KeyringEdit → DocumentOperation
  | .replace _ item value | .push item value => .put (itemAddress item.id) value none
  | .remove _ id => .delete (itemAddress id)

/-- The operations of the edit on the document. -/
def KeyringEdit.operations (items : List IndexItem) (edit : KeyringEdit) : List DocumentOperation :=
  [edit.operation, .put indexAddress (env.indexJson.encode ⟨1, edit.items items⟩) none]

/-- The document holds the keyring: the index, a value for each of its items, and nothing else. -/
structure Stores (k : Keyring) (view : DocumentView) : Prop where
  keys : (keyringKeys env k.items).Nodup
  index : (view (indexKey env) = none ∧ k = []) ∨
    view (indexKey env) = some ⟨indexAddress, env.indexJson.encode ⟨1, k.items⟩, none⟩
  item : ∀ e ∈ k, view (itemKey env e.1.id) = some ⟨itemAddress e.1.id, e.2, none⟩
  only : ∀ key r, view key = some r → key = indexKey env ∨ ∃ e ∈ k, key = itemKey env e.1.id

/-- The text of an index, or no text of an empty one. -/
def Lists (text : Option Bytes) (items : List IndexItem) : Prop :=
  (text = none ∧ items = []) ∨ text = some (env.indexJson.encode ⟨1, items⟩)

end

variable {env : VaultEnv}

/-! ## The index -/

theorem Lists.unique {items items' : List IndexItem} (h : Lists env text items)
    (h' : Lists env text items') : items = items' := by
  rcases h with ⟨rfl, rfl⟩ | rfl <;> rcases h' with ⟨hnone, rfl⟩ | hsome
  · rfl
  · cases hsome
  · cases hnone
  · have hdecode := congrArg env.indexJson.decode (Option.some.inj hsome)
    rw [env.indexJson.decode_encode, env.indexJson.decode_encode] at hdecode
    injection hdecode with hindex
    exact (Index.mk.inj hindex).2

theorem Lists.decode {items : List IndexItem} (h : Lists env text items) {index : Index}
    (hindex : Index.decode env.indexJson text = .ok index) : index = ⟨1, items⟩ := by
  have hparse : Index.parse env.indexJson text = .ok ⟨1, items⟩ := by
    rcases h with ⟨rfl, rfl⟩ | rfl
    · rfl
    · simp [Index.parse, env.indexJson.decode_encode]
  simp only [Index.decode, hparse, ok_bind, bind_eq_ok] at hindex
  obtain ⟨-, -, -, -, hindex⟩ := hindex
  cases hindex
  rfl

theorem Stores.lists {k : Keyring} (h : Stores env k view) :
    Lists env ((view (indexKey env)).map VisibleRecord.value) k.items := by
  rcases h.index with ⟨hnone, rfl⟩ | hsome
  · exact .inl ⟨by rw [hnone]; rfl, rfl⟩
  · exact .inr (by rw [hsome]; rfl)

theorem Stores.lasting {k : Keyring} (h : Stores env k view) (key : String) (r : VisibleRecord)
    (hr : view key = some r) : r.evictAt = none := by
  rcases h.only key r hr with rfl | ⟨e, he, rfl⟩
  · rcases h.index with ⟨hnone, -⟩ | hsome
    · rw [hr] at hnone
      cases hnone
    · rw [hr] at hsome
      cases hsome
      rfl
  · rw [h.item e he] at hr
    cases hr
    rfl

/-- Distinct keys come from distinct ids. -/
theorem Stores.distinct {k : Keyring} (h : Stores env k view) : (k.items.map IndexItem.id).Nodup := by
  have hkeys := (nodup_cons.1 h.keys).2
  have hmap : (k.items.map fun item => itemKey env item.id) = (k.items.map IndexItem.id).map (itemKey env) := by
    rw [map_map]
    rfl
  rw [hmap] at hkeys
  exact hkeys.of_map _

/-- There is a value for exactly the indexed ids. -/
theorem Stores.indexed {k : Keyring} (h : Stores env k view) (id : String) :
    (∃ r, view (itemKey env id) = some r ∧ r.address = itemAddress id) ↔ id ∈ k.items.map IndexItem.id := by
  constructor
  · rintro ⟨r, hr, haddress⟩
    rcases h.only _ r hr with hkey | ⟨e, he, hkey⟩
    · rcases h.index with ⟨hnone, -⟩ | hsome
      · rw [hkey, hnone] at hr
        cases hr
      · rw [hkey, hsome] at hr
        cases hr
        exact absurd haddress.symm (itemAddress_ne_indexAddress id)
    · rw [hkey, h.item e he] at hr
      cases hr
      rw [← itemAddress_inj haddress, Keyring.items, map_map]
      exact mem_map_of_mem (f := IndexItem.id ∘ Prod.fst) he
  · intro hmem
    rw [Keyring.items, map_map] at hmem
    obtain ⟨e, he, rfl⟩ := mem_map.1 hmem
    exact ⟨_, h.item e he, rfl⟩

theorem stores_nil : Stores env [] fun _ => none where
  keys := by simp [keyringKeys, Keyring.items]
  index := .inl ⟨rfl, rfl⟩
  item e he := by cases he
  only key r hr := by cases hr

/-! ## Edits -/

/-- A fresh id gives an edit that fits. -/
theorem KeyringCall.edit_fits {call : KeyringCall} {now : UInt64} {fresh : Vector UInt8 16} {items : List IndexItem}
    {edit : KeyringEdit} {answer : KeyringAnswer} (h : call.edit now fresh items = .ok (edit, answer))
    (hfresh : itemKey env (randomId fresh) ∉ keyringKeys env items) : edit.Fits env items := by
  cases call with
  | createOrReplace label attributes value contentType replace =>
    simp only [KeyringCall.edit] at h
    split at h
    next position old hold =>
      cases h
      obtain ⟨position', -, hold⟩ := Option.bind_eq_some_iff.1 hold
      obtain ⟨old', hget, heq⟩ := Option.map_eq_some_iff.1 hold
      cases heq
      exact ⟨old, hget, rfl⟩
    next =>
      cases h
      exact hfresh
  | setSecret id value contentType =>
    simp only [KeyringCall.edit] at h
    split at h
    next position old hold =>
      cases h
      obtain ⟨position', -, hold⟩ := Option.bind_eq_some_iff.1 hold
      obtain ⟨old', hget, heq⟩ := Option.map_eq_some_iff.1 hold
      cases heq
      exact ⟨old, hget, rfl⟩
    next => cases h
  | deleteItem id =>
    simp only [KeyringCall.edit] at h
    split at h
    next position hposition =>
      cases h
      obtain ⟨hlt, hid, -⟩ := findIdx?_eq_some_iff_getElem.1 hposition
      exact ⟨items[position], getElem?_eq_getElem hlt, of_decide_eq_true hid⟩
    next => cases h

namespace Stores

variable {k : Keyring} {view : DocumentView}

theorem item_ne_index (hkeys : (keyringKeys env k.items).Nodup) {e : IndexItem × Bytes} (he : e ∈ k) :
    itemKey env e.1.id ≠ indexKey env := by
  intro hkey
  refine (nodup_cons.1 hkeys).1 ?_
  rw [← hkey]
  exact mem_map.2 ⟨e.1, mem_map_of_mem he, rfl⟩

/-- Items at different places have different keys. -/
theorem item_ne_item (h : Stores env k view) {i j : Nat} {e e' : IndexItem × Bytes} (he : k[i]? = some e)
    (he' : k[j]? = some e') (hij : i ≠ j) : itemKey env e.1.id ≠ itemKey env e'.1.id := by
  intro hkey
  have hget : ∀ {n : Nat} {x : IndexItem × Bytes}, k[n]? = some x →
      (k.items.map fun item => itemKey env item.id)[n]? = some (itemKey env x.1.id) := by
    intro n x hx
    simp [Keyring.items, hx]
  obtain ⟨hlt, -⟩ := List.getElem?_eq_some_iff.1 (hget he)
  refine hij ((getElem?_inj hlt (nodup_cons.1 h.keys).2).1 ?_)
  rw [hget he, hget he', hkey]

/-- The document after the record of one item and the text of the index have changed. -/
theorem write (h : Stores env k view) {k' : Keyring} {id : String} {record : Option VisibleRecord}
    (hkeys : (keyringKeys env k'.items).Nodup) (hnew : ∀ r ∈ record, ∃ e ∈ k', itemKey env id = itemKey env e.1.id)
    (hfrom : ∀ e ∈ k', (e.1.id = id ∧ record = some ⟨itemAddress id, e.2, none⟩) ∨
      e ∈ k ∧ itemKey env e.1.id ≠ itemKey env id)
    (hkept : ∀ e ∈ k, e ∈ k' ∨ itemKey env e.1.id = itemKey env id) :
    Stores env k' (update (update view (itemKey env id) record) (indexKey env)
      (some ⟨indexAddress, env.indexJson.encode ⟨1, k'.items⟩, none⟩)) := by
  refine ⟨hkeys, .inr (update_self ..), fun e he => ?_, fun key r hr => ?_⟩
  · rw [update_of_ne (item_ne_index hkeys he)]
    rcases hfrom e he with ⟨rfl, rfl⟩ | ⟨hold, hne⟩
    · exact update_self ..
    · rw [update_of_ne hne]
      exact h.item e hold
  · by_cases hi : key = indexKey env
    · exact .inl hi
    rw [update_of_ne hi] at hr
    by_cases hk : key = itemKey env id
    · subst hk
      rw [update_self] at hr
      exact .inr (hnew r hr)
    rw [update_of_ne hk] at hr
    rcases h.only key r hr with hkey | ⟨e, he, rfl⟩
    · exact absurd hkey hi
    · exact .inr ⟨e, (hkept e he).resolve_right hk, rfl⟩

/-- The place of an item in the keyring. -/
theorem exists_at {position : Nat} {old : IndexItem} (hold : k.items[position]? = some old) :
    ∃ value, k[position]? = some (old, value) := by
  rw [Keyring.items, getElem?_map, Option.map_eq_some_iff] at hold
  obtain ⟨e, he, rfl⟩ := hold
  exact ⟨e.2, he⟩

/-- An edit that fits does to the document what it does to the keyring. -/
theorem edit (h : Stores env k view) {edit : KeyringEdit} (hfits : edit.Fits env k.items) :
    Stores env (k.edit edit) ((edit.operations env k.items).foldl (DocumentOperation.effect env) view) := by
  unfold KeyringEdit.operations
  rw [← Keyring.items_edit]
  cases edit with
  | replace position item value =>
    obtain ⟨old, hold, hid⟩ := hfits
    obtain ⟨oldValue, hat⟩ := exists_at hold
    obtain ⟨hlt, -⟩ := List.getElem?_eq_some_iff.1 hat
    have hkeys : keyringKeys env (k.edit (.replace position item value)).items = keyringKeys env k.items := by
      obtain ⟨hlt', hget⟩ := List.getElem?_eq_some_iff.1 hold
      rw [Keyring.items_edit, KeyringEdit.items, keyringKeys, keyringKeys, map_set, ← hid, ← hget]
      congr 1
      have hlength : position < (k.items.map fun item => itemKey env item.id).length := by simpa using hlt'
      have hself := set_getElem_self hlength
      rwa [getElem_map] at hself
    refine h.write (by rw [hkeys]; exact h.keys) (fun _ _ => ⟨_, mem_set hlt _, rfl⟩) (fun e he => ?_) (fun e he => ?_)
    · obtain ⟨j, hj⟩ := mem_iff_getElem?.1 he
      rw [Keyring.edit, getElem?_set] at hj
      by_cases hjp : position = j
      · subst hjp
        rw [if_pos rfl, if_pos hlt] at hj
        cases hj
        exact .inl ⟨rfl, rfl⟩
      · rw [if_neg hjp] at hj
        have hne := h.item_ne_item hj hat (Ne.symm hjp)
        dsimp only at hne
        rw [hid] at hne
        exact .inr ⟨mem_of_getElem? hj, hne⟩
    · obtain ⟨j, hj⟩ := mem_iff_getElem?.1 he
      by_cases hjp : position = j
      · subst hjp
        rw [hat] at hj
        cases hj
        exact .inr (congrArg (itemKey env) hid)
      · refine .inl (mem_iff_getElem?.2 ⟨j, ?_⟩)
        rw [Keyring.edit, getElem?_set, if_neg hjp]
        exact hj
  | push item value =>
    have hkeys : keyringKeys env (k.edit (.push item value)).items =
        keyringKeys env k.items ++ [itemKey env item.id] := by
      simp [Keyring.items_edit, KeyringEdit.items, keyringKeys]
    refine h.write ?_ (fun _ _ => ⟨_, mem_concat_self, rfl⟩) (fun e he => ?_) (fun e he => .inl (mem_append_left _ he))
    · rw [hkeys, nodup_append]
      refine ⟨h.keys, nodup_singleton _, fun key hkey key' hkey' heq => ?_⟩
      obtain rfl := mem_singleton.1 hkey'
      exact hfits (heq ▸ hkey)
    · rcases mem_append.1 he with hold | hnew
      · refine .inr ⟨hold, fun hkey => hfits ?_⟩
        rw [← hkey]
        exact mem_cons_of_mem _ (mem_map.2 ⟨e.1, mem_map_of_mem hold, rfl⟩)
      · cases mem_singleton.1 hnew
        exact .inl ⟨rfl, rfl⟩
  | remove position id =>
    obtain ⟨old, hold, rfl⟩ := hfits
    obtain ⟨oldValue, hat⟩ := exists_at hold
    have hkeys : (keyringKeys env (k.edit (.remove position old.id)).items).Nodup := by
      rw [Keyring.items_edit]
      refine Nodup.sublist ?_ h.keys
      exact ((eraseIdx_sublist k.items position).map _).cons_cons _
    refine h.write hkeys (by simp) (fun e he => .inr ?_) (fun e he => ?_)
    · obtain ⟨j, hj⟩ := mem_iff_getElem?.1 he
      rw [Keyring.edit, getElem?_eraseIdx] at hj
      by_cases hjp : j < position
      · rw [if_pos hjp] at hj
        have hne := h.item_ne_item hj hat (by omega)
        exact ⟨mem_of_getElem? hj, hne⟩
      · rw [if_neg hjp] at hj
        have hne := h.item_ne_item hj hat (by omega)
        exact ⟨mem_of_getElem? hj, hne⟩
    · obtain ⟨j, hj⟩ := mem_iff_getElem?.1 he
      by_cases hjp : j = position
      · subst hjp
        rw [hat] at hj
        cases hj
        exact .inr rfl
      · refine .inl (mem_iff_getElem?.2 ?_)
        by_cases hlt : j < position
        · exact ⟨j, by rw [Keyring.edit, getElem?_eraseIdx, if_pos hlt]; exact hj⟩
        · refine ⟨j - 1, ?_⟩
          rw [Keyring.edit, getElem?_eraseIdx, if_neg (by omega), show j - 1 + 1 = j by omega]
          exact hj

end Stores

end FactorSeal

import FactorSeal.Keyring.Contents
import FactorSeal.Service.Requests

/-! # What the requests on the keyring do

Each request is one step of the vault. Read: nothing changes, and the answer is the text of the index. Batch: it is
refused and nothing changes, or the index was the one the call had read, and the keyring changes by the edit of the call.
Import: it fails and nothing changes, or it is the import into the keyring there is. -/

namespace FactorSeal

open Wire Except Std SecretAddress Program List

/-- What the vault shows of the keyring's document. -/
abbrev PlainVault.ShowsKeyring (env : ServiceEnv) (device : Device) (v : PlainVault) (view : DocumentView) : Prop :=
  v.Shows env.toVaultEnv device .linuxSecretService secretServiceNamespace view

theorem namespaceScope_secretService : namespaceScope secretServiceNamespace = .linuxSecretService := if_pos rfl

section

variable {env : ServiceEnv} {device : Device} {v : PlainVault} {view : DocumentView} {k : Keyring}
  {items : List IndexItem} {item : IndexItem} {value : Bytes}

/-- A request of an adapter for the index. -/
theorem KeyringRequest.run_get (hshows : v.ShowsKeyring env device view) (hstores : Stores env.toVaultEnv k view)
    (request : KeyringRequest) :
    ∃ result, request.run env device (.get secretServiceNamespace ⟨indexItem, none⟩) v = (result, v) ∧
      ∀ answer, result = .ok answer →
        answer.1 = .secret ((view (indexKey env.toVaultEnv)).map VisibleRecord.value) := by
  rw [PlainVault.ShowsKeyring, ← namespaceScope_secretService] at hshows
  obtain ⟨result, hrun, hresult⟩ := @ActionContext.leaves_get env device v secretServiceNamespace view ⟨request.caller,
    namespaceScope secretServiceNamespace, request.clock, request.provenance, none⟩ hshows hstores.lasting
    ⟨indexItem, none⟩ request.validUntil
  refine ⟨result, hrun, fun answer hanswer => ?_⟩
  obtain ⟨a, ha, hvalue⟩ := hresult answer hanswer
  rw [newLocal_eq_ok ha] at hvalue
  exact hvalue

/-- What the batch of a call is prepared as, if its check holds. -/
theorem Attempt.prepared {a : Attempt} {parts : List (Option DocumentOperation)}
    (h : Forall₂ (fun mutation part => VaultMutation.Prepares env.toVaultEnv view part mutation) (a.mutations env)
      parts) :
    (view (indexKey env.toVaultEnv)).map (fun r => env.sha256 r.value) = a.expected.map env.sha256 ∧
      parts.flatMap Option.toList = [a.edit.operation,
        .put indexAddress (env.indexJson.encode { a.index with items := a.edit.items a.index.items }) none] := by
  unfold Attempt.mutations at h
  cases h with
  | cons hcheck h =>
    cases h with
    | cons hitem h =>
      cases h with
      | cons hindex h =>
        cases h
        obtain ⟨rfl, address, haddress, hdigest⟩ := hcheck
        rw [newLocal_eq_ok haddress] at hdigest
        obtain ⟨other, hother, rfl⟩ := hindex
        rw [newLocal_eq_ok hother]
        refine ⟨hdigest, ?_⟩
        cases hedit : a.edit with
        | replace position item value | push item value =>
          rw [hedit] at hitem
          obtain ⟨target, htarget, rfl⟩ := hitem
          rw [newLocal_eq_ok htarget]
          rfl
        | remove position id =>
          rw [hedit] at hitem
          obtain ⟨target, htarget, rfl⟩ := hitem
          rw [newLocal_eq_ok htarget]
          rfl

/-- The text the call read and the one that is there, if they have the same digest, are the same. -/
def SameText (sha256 : Bytes → Digest) (expected current : Option Bytes) : Prop :=
  ∀ t ∈ expected, ∀ t' ∈ current, sha256 t = sha256 t' → t = t'

theorem SameText.eq_of_digest {sha256 : Bytes → Digest} {expected current : Option Bytes}
    (h : SameText sha256 expected current) (hdigest : current.map sha256 = expected.map sha256) : current = expected := by
  cases current with
  | none =>
    cases expected with
    | none => rfl
    | some t => cases hdigest
  | some t' =>
    cases expected with
    | none => cases hdigest
    | some t => rw [h t rfl t' rfl (Option.some.inj hdigest).symm]

/-- A request of an adapter for its batch. -/
theorem KeyringRequest.run_mutate (hshows : v.ShowsKeyring env device view) (hstores : Stores env.toVaultEnv k view)
    (request : KeyringRequest) {a : Attempt} {items : List IndexItem} (hlists : Lists env.toVaultEnv a.expected items)
    (hindex : a.index = ⟨1, items⟩) (hfits : a.edit.Fits env.toVaultEnv items)
    (hsame : SameText env.sha256 a.expected ((view (indexKey env.toVaultEnv)).map VisibleRecord.value)) :
    (∃ e, request.run env device (.mutate secretServiceNamespace (a.mutations env)) v = (.error e, v)) ∨
      ∃ deadline v' view', request.run env device (.mutate secretServiceNamespace (a.mutations env)) v =
          (.ok (.mutated, deadline), v') ∧
        k.items = items ∧ v'.ShowsKeyring env device view' ∧ Stores env.toVaultEnv (k.edit a.edit) view' := by
  rw [PlainVault.ShowsKeyring, ← namespaceScope_secretService] at hshows
  rcases @ActionContext.run_mutate env device v secretServiceNamespace view ⟨request.caller,
    namespaceScope secretServiceNamespace, request.clock, request.provenance, none⟩ hshows hstores.lasting
    (a.mutations env) request.validUntil with
    ⟨e, hrun⟩ | ⟨deadline, v', parts, hrun, hparts, hshows'⟩
  · exact .inl ⟨e, hrun⟩
  obtain ⟨hdigest, hoperations⟩ := Attempt.prepared hparts
  have htext : (view (indexKey env.toVaultEnv)).map VisibleRecord.value = a.expected :=
    hsame.eq_of_digest (by rw [Option.map_map]; exact hdigest)
  have hitems : k.items = items := hstores.lists.unique (htext ▸ hlists)
  refine .inr ⟨deadline, v', _, hrun, hitems, ?_, hstores.edit (hitems ▸ hfits)⟩
  rw [hoperations, hindex, ← hitems, namespaceScope_secretService] at hshows'
  exact hshows'

/-! ## Imports -/

/-- Among items with distinct ids, replacing by id is replacing at the place of the id. -/
theorem map_replace_eq_set (hdistinct : (items.map IndexItem.id).Nodup)
    {position : Nat} (hposition : items.findIdx? (·.id = item.id) = some position) :
    (items.map fun other => if other.id = item.id then item else other) = items.set position item := by
  obtain ⟨hlt, hid, -⟩ := findIdx?_eq_some_iff_getElem.1 hposition
  have hid : items[position].id = item.id := of_decide_eq_true hid
  refine ext_getElem? fun j => ?_
  rw [getElem?_map, getElem?_set]
  by_cases hj : position = j
  · subst hj
    rw [if_pos rfl, if_pos hlt, getElem?_eq_getElem hlt, Option.map_some, if_pos hid]
  · rw [if_neg hj]
    cases hother : items[j]? with
    | none => rfl
    | some other =>
      have hne : other.id ≠ item.id := by
        intro heq
        refine hj ((getElem?_inj (by simpa using hlt) hdistinct).1 ?_)
        rw [getElem?_map, getElem?_map, getElem?_eq_getElem hlt, hother, Option.map_some,
          Option.map_some, hid, heq]
      rw [Option.map_some, if_neg hne]

/-- The edit that an import is, unless it leaves what there is. -/
def importEdit (items : List IndexItem) (item : IndexItem) (value : Bytes) : KeyringEdit :=
  match items.findIdx? (·.id = item.id) with
  | some position => .replace position item value
  | none => .push item value

theorem operation_importEdit (items : List IndexItem) (item : IndexItem) (value : Bytes) :
    (importEdit items item value).operation = .put (itemAddress item.id) value none := by
  unfold importEdit
  split <;> rfl

theorem items_importEdit (hdistinct : (items.map IndexItem.id).Nodup) (item : IndexItem)
    (value : Bytes) : (Index.replace ⟨1, items⟩ item) = ⟨1, (importEdit items item value).items items⟩ := by
  unfold Index.replace importEdit
  dsimp only
  rw [← findIdx?_isSome]
  cases hposition : items.findIdx? fun other => decide (other.id = item.id) with
  | none => rfl
  | some position =>
    rw [if_pos (Option.isSome_some), map_replace_eq_set hdistinct hposition]
    rfl

theorem importItem_eq (k : Keyring) (item : IndexItem) (value : Bytes) (replaceExisting : Bool) :
    k.importItem item value replaceExisting =
      if k.items.any (·.id = item.id) && !replaceExisting then (.keptExisting, k)
      else (if k.items.any (·.id = item.id) then .replaced else .added, k.edit (importEdit k.items item value)) := by
  unfold Keyring.importItem importEdit
  rw [← findIdx?_isSome]
  cases k.items.findIdx? fun other => decide (other.id = item.id) with
  | none => rfl
  | some position => cases replaceExisting <;> rfl

theorem importEdit_fits (hstores : Stores env.toVaultEnv k view)
    (hapart : ∀ r, view (itemKey env.toVaultEnv item.id) = some r → r.address = itemAddress item.id)
    (hindex : itemKey env.toVaultEnv item.id ≠ indexKey env.toVaultEnv) :
    (importEdit k.items item value).Fits env.toVaultEnv k.items := by
  unfold importEdit
  split
  next position hposition =>
    obtain ⟨hlt, hid, -⟩ := findIdx?_eq_some_iff_getElem.1 hposition
    exact ⟨k.items[position], getElem?_eq_getElem hlt, of_decide_eq_true hid⟩
  next hnone =>
    -- an item with the new one's key would have its address, and so its id
    intro hmem
    rcases mem_cons.1 hmem with hkey | hmem
    · exact hindex hkey
    · obtain ⟨other, hother, hkey⟩ := mem_map.1 hmem
      obtain ⟨e, he, rfl⟩ := mem_map.1 hother
      have hview := hstores.item e he
      rw [hkey] at hview
      have hid := itemAddress_inj (hapart _ hview)
      have hnot := findIdx?_eq_none_iff.1 hnone e.1 hother
      exact of_decide_eq_false hnot hid

theorem decodePortable_eq_ok {address : SecretAddress} {portable : Bytes}
    (h : decodePortable env value address = .ok (item, portable)) : address = itemAddress item.id := by
  unfold decodePortable at h
  split at h
  next decoded hdecoded =>
    rw [ok_bind] at h
    simp only [bind_eq_ok, ensure_eq_ok] at h
    obtain ⟨⟨⟩, -, found, hfound, ⟨⟩, ⟨-, rfl⟩, h⟩ := h
    cases h
    exact newLocal_eq_ok hfound
  next => cases h

theorem leaves_secretServiceIndex (hshows : v.ShowsKeyring env device view) (hstores : Stores env.toVaultEnv k view)
    (now : UInt64) :
    (secretServiceIndex env now).Leaves (plainServer env device) v fun index => index = ⟨1, k.items⟩ := by
  refine (Program.Leaves.lift fun a ha => newLocal_eq_ok ha).bind fun a ha => ?_
  subst ha
  have hread : (VaultStore.getAt .linuxSecretService secretServiceNamespace (.local indexItem none) now).Leaves
      (plainServer env device) v
      fun bytes => bytes = (view (indexKey env.toVaultEnv)).map VisibleRecord.value :=
    (leaves_getWithDeadline hshows hstores.lasting _ now).bind fun secret hsecret => .pure hsecret
  refine hread.bind fun bytes hbytes => .lift fun index hindex => ?_
  subst hbytes
  exact hstores.lists.decode hindex

/-- An import of an item. -/
theorem run_importItem (hshows : v.ShowsKeyring env device view) (hstores : Stores env.toVaultEnv k view)
    {entry : VaultEntryMetadata} (value : Bytes) (evictAt : Option UInt64) (replaceExisting : Bool)
    (requestId : RequestId) (provenance : Provenance) (now : UInt64)
    (hapart : ∀ r, view (entry.address.storageKey env.sha256) = some r → r.address = entry.address)
    (hindex : entry.address.storageKey env.sha256 = indexKey env.toVaultEnv → entry.address = indexAddress) :
    (∃ e, (importSecretServiceItem env entry value evictAt replaceExisting requestId provenance now).run
        (plainServer env device) v = (.error e, v)) ∨
      ∃ item portable v' view', decodePortable env value entry.address = .ok (item, portable) ∧
        (importSecretServiceItem env entry value evictAt replaceExisting requestId provenance now).run
          (plainServer env device) v = (.ok (k.importItem item portable replaceExisting).1, v') ∧
        v'.ShowsKeyring env device view' ∧
        Stores env.toVaultEnv (k.importItem item portable replaceExisting).2 view' := by
  unfold importSecretServiceItem
  cases hensure : (ensure (entry.partition = secretServiceNamespace ∧ evictAt = none)
    (VaultError.protocol "unsupported portable keyring partition or expiry") : VaultResult Unit) with
  | error e => exact .inl ⟨e, rfl⟩
  | ok u =>
  rw [lift_ok_bind]
  cases hdecode : decodePortable env value entry.address with
  | error e => exact .inl ⟨e, rfl⟩
  | ok decoded =>
  obtain ⟨item, portable⟩ := decoded
  have haddress := decodePortable_eq_ok hdecode
  rw [lift_ok_bind]
  dsimp only
  obtain ⟨read, hread, hlist⟩ := leaves_secretServiceIndex hshows hstores now
  rw [run_bind, hread]
  cases read with
  | error e => exact .inl ⟨e, rfl⟩
  | ok index =>
  obtain rfl := hlist index rfl
  rw [andThen_ok]
  dsimp only
  have himport := importItem_eq k item portable replaceExisting
  by_cases hkept : (k.items.any (·.id = item.id) && !replaceExisting) = true
  · rw [if_pos hkept] at himport ⊢
    refine .inr ⟨item, portable, v, view, rfl, ?_, hshows, ?_⟩
    · rw [himport]
      rfl
    · rw [himport]
      exact hstores
  rw [if_neg hkept] at himport ⊢
  cases hname : entry.address.item with
  | error e => exact .inl ⟨e, rfl⟩
  | ok name =>
  rw [lift_ok_bind]
  cases hvalid : VaultRequest.validate env.requestSize ⟨protocolVersion, requestId, none, .mutate secretServiceNamespace
      [.put ⟨name, none⟩ portable none,
        .put ⟨indexItem, none⟩ (env.indexJson.encode (Index.replace ⟨1, k.items⟩ item)) none]⟩ with
  | error e => exact .inl ⟨e, rfl⟩
  | ok u =>
  rw [lift_ok_bind]
  cases hlocal : newLocal indexItem none with
  | error e => exact .inl ⟨e, rfl⟩
  | ok address =>
  rw [lift_ok_bind]
  obtain rfl := newLocal_eq_ok hlocal
  rw [items_importEdit hstores.distinct item portable]
  -- the batch is the edit of the import
  have hmutate : ∀ operations, (VaultStore.mutate .linuxSecretService secretServiceNamespace operations provenance now).run
      (plainServer env device) v = settle v ((PlainVault.ops env.toVaultEnv device).mutate env.toVaultEnv device v
        .linuxSecretService secretServiceNamespace operations provenance now) := fun operations =>
    run_request (fun _ => Answer.done) rfl fun _ => rfl
  rw [run_bind, hmutate]
  cases hserver : (PlainVault.ops env.toVaultEnv device).mutate env.toVaultEnv device v .linuxSecretService
      secretServiceNamespace [.put entry.address portable none, .put (.local indexItem none)
        (env.indexJson.encode ⟨1, (importEdit k.items item portable).items k.items⟩) none] provenance now with
  | error e => exact .inl ⟨e, rfl⟩
  | ok r =>
    refine .inr ⟨item, portable, r.2, _, rfl, ?_, hshows.mutate hserver, ?_⟩
    · rw [himport]
      rfl
    · rw [himport]
      have hfits : (importEdit k.items item portable).Fits env.toVaultEnv k.items := by
        refine importEdit_fits hstores (fun r hr => ?_) fun hkey => ?_
        · rw [← haddress]
          refine hapart r ?_
          rw [haddress]
          exact hr
        · exact itemAddress_ne_indexAddress item.id (haddress ▸ hindex (by rw [haddress]; exact hkey))
      have hedit := hstores.edit hfits
      rw [KeyringEdit.operations, operation_importEdit, ← haddress] at hedit
      exact hedit

end

end FactorSeal

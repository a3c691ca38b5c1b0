import FactorSeal.Grant.Book

/-! # What a grant check finds

`find_grant` looks a request up under the targets that cover it (`mem_targets`), reads the records filed there and takes
the first reusable grant (`scan_eq`). On a document in order, where no storage keys collide, the grants it meets are the
stored ones that allow the request (`mem_met`). -/

namespace FactorSeal

open Wire Except Std PlainVault SecretDocument Option

variable {now : UInt64} {target : GrantTarget}

/-! ## Targets that cover a request -/

/-- The target names what is asked for: the kind, and as far as it goes the namespace, the entry, and the project with
exactly the folder of the request. -/
def GrantTarget.Names (r : GrantRequirement) : GrantTarget → Prop
  | .kind k => k = r.scope
  | .wholeNamespace scope partition => scope = r.scope ∧ r.partition = some partition
  | .entry scope partition address => scope = r.scope ∧ r.partition = some partition ∧ r.address = some address
  | .projectEntry scope partition address name baseDir =>
    scope = r.scope ∧ r.partition = some partition ∧ r.address = some address ∧ r.project = some name ∧
      baseDir = r.baseDir
  | .project scope partition name baseDir =>
    scope = r.scope ∧ r.partition = some partition ∧ r.project = some name ∧ baseDir = r.baseDir

/-- The project of a target. -/
def GrantTarget.projectName : GrantTarget → Option String
  | .projectEntry _ _ _ name _ => some name
  | .project _ _ name _ => some name
  | _ => none

/-- The target covers the request: it names it, and if it is about a project, the address asked for may be one of its. -/
def GrantTarget.Covers (r : GrantRequirement) (target : GrantTarget) : Prop :=
  target.Names r ∧ ∀ project ∈ target.projectName, r.InProject project

theorem mem_projectTargets {r : GrantRequirement} {partition : Bytes} :
    target ∈ r.projectTargets partition ↔ ∃ project, r.project = some project ∧ r.InProject project ∧
      ((∃ address, r.address = some address ∧ target = .projectEntry r.scope partition address project r.baseDir) ∨
        target = .project r.scope partition project r.baseDir) := by
  unfold GrantRequirement.projectTargets
  cases hproject : r.project with
  | none => simp
  | some project =>
    by_cases hin : r.InProject project
    · cases haddress : r.address <;> simp [hin]
    · simp [hin]

theorem mem_targets {r : GrantRequirement} : target ∈ r.targets ↔ target.Covers r := by
  unfold GrantRequirement.targets GrantTarget.Covers
  cases hpartition : r.partition with
  | none => cases target <;> simp [GrantTarget.Names, GrantTarget.projectName, hpartition]
  | some partition =>
    simp only [List.append_assoc, List.mem_append, mem_toList, map_eq_some_iff, mem_projectTargets,
      List.mem_singleton, mem_def]
    cases target with
    | kind k => simp [GrantTarget.Names, GrantTarget.projectName]
    | wholeNamespace s p => simp [GrantTarget.Names, GrantTarget.projectName, hpartition, eq_comm]
    | entry s p a =>
      simp only [GrantTarget.Names, GrantTarget.projectName, hpartition]
      constructor
      · rintro (⟨address, haddress, htarget⟩ | ⟨_, _, _, ⟨_, _, htarget⟩ | htarget⟩ | htarget | htarget) <;> cases htarget
        exact ⟨⟨rfl, rfl, haddress⟩, by simp⟩
      · rintro ⟨⟨rfl, hp, haddress⟩, -⟩
        cases hp
        exact .inl ⟨a, haddress, rfl⟩
    | projectEntry s p a name dir =>
      simp only [GrantTarget.Names, GrantTarget.projectName, hpartition]
      constructor
      · rintro (⟨_, _, htarget⟩ | ⟨project, hproject, hin, ⟨address, haddress, htarget⟩ | htarget⟩ | htarget | htarget) <;>
          cases htarget
        exact ⟨⟨rfl, rfl, haddress, hproject, rfl⟩, fun q hq => by cases hq; exact hin⟩
      · rintro ⟨⟨rfl, hp, haddress, hproject, rfl⟩, hin⟩
        cases hp
        exact .inr (.inl ⟨name, hproject, hin name rfl, .inl ⟨a, haddress, rfl⟩⟩)
    | project s p name dir =>
      simp only [GrantTarget.Names, GrantTarget.projectName, hpartition]
      constructor
      · rintro (⟨_, _, htarget⟩ | ⟨project, hproject, hin, ⟨address, haddress, htarget⟩ | htarget⟩ | htarget | htarget) <;>
          cases htarget
        exact ⟨⟨rfl, rfl, hproject, rfl⟩, fun q hq => by cases hq; exact hin⟩
      · rintro ⟨⟨rfl, hp, hproject, rfl⟩, hin⟩
        cases hp
        exact .inr (.inl ⟨name, hproject, hin name rfl, .inr rfl⟩)

/-! ## The scan -/

section

variable {env : GrantEnv} {fingerprint : Digest} {permission : GrantPermission} {found : FoundGrant}
  {met : List (Digest × AccessGrant)}

/-- The grant a scan meets in an entry, if it is a live one of the caller, with the digest it was looked up under. -/
def hit (env : GrantEnv) (fingerprint : Digest) (permission : GrantPermission) (now : UInt64) :
    Digest × Option Bytes → Option (Digest × AccessGrant)
  | (_, none) => none
  | (target, some bytes) => match env.grantJson.decode bytes with
    | .ok grant => if grant.satisfies fingerprint target permission now then some (target, grant) else none
    | .error _ => none

/-- What a scan makes of them: the first reusable one, and if there is none the first. -/
def choose : FoundGrant → List (Digest × AccessGrant) → FoundGrant
  | found, [] => found
  | found, (target, grant) :: rest =>
    if grant.singleUse then choose (found.orSingleUse target grant.expiresAt) rest else .reusable grant.expiresAt

theorem hit_eq_some {entry : Digest × Option Bytes} {target : Digest} {grant : AccessGrant} :
    hit env fingerprint permission now entry = some (target, grant) ↔ ∃ bytes, entry = (target, some bytes) ∧
      env.grantJson.decode bytes = .ok grant ∧ grant.satisfies fingerprint target permission now = true := by
  obtain ⟨digest, value⟩ := entry
  cases value with
  | none => simp [hit]
  | some bytes =>
    cases hdecode : env.grantJson.decode bytes with
    | error e => simp [hit, hdecode]
    | ok met =>
      simp only [hit, hdecode, ite_none_right_eq_some, Option.some.injEq, Prod.mk.injEq]
      constructor
      · rintro ⟨hsatisfies, rfl, rfl⟩
        exact ⟨bytes, ⟨rfl, rfl⟩, hdecode, hsatisfies⟩
      · rintro ⟨_, ⟨rfl, rfl⟩, hmet, hsatisfies⟩
        obtain rfl := Except.ok.inj (hdecode.symm.trans hmet)
        exact ⟨hsatisfies, rfl, rfl⟩

/-- A scan that can decode what it meets chooses among the live grants. -/
theorem scan_eq {entries : List (Digest × Option Bytes)}
    (h : ∀ entry ∈ entries, ∀ bytes, entry.2 = some bytes → ∃ grant, env.grantJson.decode bytes = .ok grant) :
    scan env fingerprint permission now found entries =
      .ok (choose found (entries.filterMap (hit env fingerprint permission now))) := by
  induction entries generalizing found with
  | nil => rfl
  | cons entry rest ih =>
    obtain ⟨target, value⟩ := entry
    have hrest : ∀ {found : FoundGrant}, scan env fingerprint permission now found rest =
        .ok (choose found (rest.filterMap (hit env fingerprint permission now))) :=
      ih fun entry hentry => h entry (List.mem_cons_of_mem _ hentry)
    cases value with
    | none => exact hrest
    | some bytes =>
      obtain ⟨grant, hdecode⟩ := h _ List.mem_cons_self bytes rfl
      have hread : fromSlice env.grantJson bytes = .ok grant := by
        unfold fromSlice
        rw [hdecode]
      simp only [scan, hread, ok_bind, List.filterMap_cons, hit, hdecode]
      by_cases hsatisfies : grant.satisfies fingerprint target permission now = true
      · simp only [hsatisfies, if_true, choose]
        split
        · exact hrest
        · rfl
      · simp only [hsatisfies]
        exact hrest

/-- What is chosen as reusable is a reusable grant. -/
theorem mem_of_choose {e : Option UInt64} (hfound : ∀ e', found ≠ .reusable e') (h : choose found met = .reusable e) :
    ∃ hit ∈ met, hit.2.singleUse = false ∧ hit.2.expiresAt = e := by
  induction met generalizing found with
  | nil => exact absurd h (hfound e)
  | cons hit rest ih =>
    obtain ⟨target, grant⟩ := hit
    rw [choose] at h
    split at h
    next hsingle =>
      have hother : ∀ e', found.orSingleUse target grant.expiresAt ≠ .reusable e' := by
        intro e'
        cases found with
        | reusable e'' => exact absurd rfl (hfound e'')
        | singleUse t e'' => simp [FoundGrant.orSingleUse]
        | none => simp [FoundGrant.orSingleUse]
      obtain ⟨hit, hmem, hhit⟩ := ih hother h
      exact ⟨hit, List.mem_cons_of_mem _ hmem, hhit⟩
    next hsingle => exact ⟨(target, grant), List.mem_cons_self, by simpa using hsingle, FoundGrant.reusable.inj h⟩

/-- Something is chosen if there is anything. -/
theorem choose_ne_none (h : found ≠ .none ∨ met ≠ []) : choose found met ≠ .none := by
  induction met generalizing found with
  | nil => exact h.resolve_right fun hne => hne rfl
  | cons hit rest ih =>
    rw [choose]
    split
    · refine ih (.inl ?_)
      cases found <;> simp [FoundGrant.orSingleUse]
    · simp

theorem exists_choose {hit : Digest × AccessGrant}
    (hmem : hit ∈ met) (hreusable : hit.2.singleUse = false) : ∃ e, choose found met = .reusable e := by
  induction met generalizing found with
  | nil => cases hmem
  | cons first rest ih =>
    rw [choose]
    by_cases hsingle : first.2.singleUse = true
    · rw [if_pos hsingle]
      rcases List.mem_cons.1 hmem with rfl | hmem
      · rw [hsingle] at hreusable
        cases hreusable
      · exact ih hmem
    · rw [if_neg hsingle]
      exact ⟨_, rfl⟩

end

/-! ## Reading the document -/

namespace PlainVault

variable {address : SecretAddress}

section

variable (env : VaultEnv) (device : Device) (v : PlainVault) (scope : DocumentKind) (partition : Bytes)

/-- What `get_many` answers on the plain vault. -/
def readMany (addresses : List SecretAddress) (now : UInt64) : VaultResult (List (Option Bytes)) := do
  match ← PlainDocument.loaded env device scope (some partition) v.documents[env.documentId device scope partition]? with
  | none => return addresses.map fun _ => none
  | some (d, _) => addresses.mapM (readOne env d now)

/-- The live value at an address. -/
def live (now : UInt64) (address : SecretAddress) : Option Bytes :=
  match v.records env device scope partition (address.storageKey env.sha256) with
  | [] => none
  | r :: _ => if SecretDocument.expiredAt now r then none else some r.value

/-- The addresses of the records in the document. -/
def addresses : List SecretAddress :=
  ((v.held env device scope partition).map fun d => d.entries.toList.flatMap fun p => p.2.map SecretRecord.address).getD []

end

variable {env : VaultEnv} {device : Device} {v : PlainVault} {scope : DocumentKind} {partition : Bytes}

theorem mem_addresses {key : String} {r : SecretRecord} (h : r ∈ v.records env device scope partition key) :
    r.address ∈ v.addresses env device scope partition := by
  cases hd : v.held env device scope partition with
  | none => simp [records, hd] at h
  | some d =>
    simp only [records, hd, map_some, getD_some, SecretDocument.records] at h
    cases hkey : d.entries[key]? with
    | none => simp [hkey] at h
    | some records =>
      simp only [hkey, getD_some] at h
      simp only [addresses, hd, map_some, getD_some, List.mem_flatMap]
      exact ⟨(key, records), ExtTreeMap.mem_toList_iff_getElem?_eq_some.2 hkey, List.mem_map_of_mem h⟩

theorem exists_of_mem_addresses (h : address ∈ v.addresses env device scope partition) :
    ∃ key r, r ∈ v.records env device scope partition key ∧ r.address = address := by
  unfold addresses at h
  cases hd : v.held env device scope partition with
  | none => simp [hd] at h
  | some d =>
    simp only [hd, map_some, getD_some, List.mem_flatMap, List.mem_map] at h
    obtain ⟨⟨key, records⟩, hentry, r, hr, rfl⟩ := h
    have hkey := ExtTreeMap.mem_toList_iff_getElem?_eq_some.1 hentry
    refine ⟨key, r, ?_, rfl⟩
    simp only [PlainVault.records, hd, map_some, getD_some, SecretDocument.records, hkey]
    exact hr

theorem live_eq_some {bytes : Bytes} (h : v.live env device scope partition now address = some bytes) :
    ∃ r ∈ v.records env device scope partition (address.storageKey env.sha256), r.value = bytes := by
  unfold live at h
  split at h
  · cases h
  next r rest hrecords =>
    rw [hrecords]
    split at h
    · cases h
    · exact ⟨r, List.mem_cons_self, Option.some.inj h⟩

theorem live_of_mem {r : SecretRecord}
    (hsingle : (v.records env device scope partition (address.storageKey env.sha256)).length ≤ 1)
    (hr : r ∈ v.records env device scope partition (address.storageKey env.sha256))
    (hlive : expiredAt now r = false) : v.live env device scope partition now address = some r.value := by
  obtain ⟨first, hfirst⟩ : ∃ first, v.records env device scope partition (address.storageKey env.sha256) = [first] :=
    List.length_eq_one_iff.1 (Nat.le_antisymm hsingle (List.length_pos_of_mem hr))
  rw [hfirst] at hr
  obtain rfl := List.mem_singleton.1 hr
  rw [live, hfirst]
  simp [hlive]

theorem run_getMany (addresses : List SecretAddress) (now : UInt64) :
    (VaultStore.getMany scope partition addresses now).run ((ops env device).execute env device) v =
      (v.readMany env device scope partition addresses now, v) := by
  rw [VaultStore.getMany, VaultStore.request, Program.run_request Answer.values rfl fun _ => rfl]
  simp only [StoreOps.getMany, ops, transact, readMany]
  cases hloaded : PlainDocument.loaded env device scope (some partition)
      v.documents[env.documentId device scope partition]? with
  | error e => rfl
  | ok loaded =>
    cases loaded with
    | none => rfl
    | some loaded =>
      simp only [ok_bind, map_some, getManyBody]
      cases addresses.mapM (readOne env loaded.1 now) with
      | error e => rfl
      | ok values => rfl

end PlainVault

/-- A key with at most one record, which is filed under the address, reads as that record. -/
theorem readOne_of_single {env : VaultEnv} {d : SecretDocument} {address : SecretAddress}
    (hp : d.isPersonal = false) (hsingle : (d.records (address.storageKey env.sha256)).length ≤ 1)
    (hfiled : ∀ r ∈ d.records (address.storageKey env.sha256), r.version = recordVersion ∧ r.address = address) :
    readOne env d now address = .ok (match d.records (address.storageKey env.sha256) with
      | [] => none
      | r :: _ => if expiredAt now r then none else some r.value) := by
  have hfree : d.ensurePersonalUnconflicted env address = .ok () := by
    unfold ensurePersonalUnconflicted
    rw [hp]
  simp only [readOne, SecretDocument.get, SecretDocument.getWithDeadline, hfree, ok_bind]
  cases hrecords : d.records (address.storageKey env.sha256) with
  | nil => rfl
  | cons r rest =>
    rw [hrecords] at hsingle hfiled
    obtain rfl : rest = [] := by
      cases rest with
      | nil => rfl
      | cons _ _ => simp at hsingle
    have hvalid : validateRecord r address = .ok () := ensure_of (hfiled r (by simp))
    by_cases hexpired : expiredAt now r = true
    · simp [hvalid, hexpired, List.forM_cons]
      rfl
    · simp [hvalid, hexpired, List.forM_cons]
      rfl

/-- A deadline that has not passed. -/
theorem SecretDocument.expiredAt_of_isLive {r : SecretRecord} (h : isLive now r.evictAt = true) :
    expiredAt now r = false := by
  unfold expiredAt
  cases hdeadline : r.evictAt with
  | none => rfl
  | some deadline =>
    rw [hdeadline] at h
    simpa [isLive] using h

section

variable {env : GrantEnv} {device : Device} {v : PlainVault} {addresses : List SecretAddress}

/-- The hash inputs of the storage keys a lookup compares: those of the addresses it asks for and of the records there. -/
def lookupInputs (env : GrantEnv) (device : Device) (v : PlainVault) (addresses : List SecretAddress) : Set Bytes :=
  {input | ∃ address ∈ addresses ++ v.addresses env.toVaultEnv device .authorization grantDocumentNamespace,
    input = address.keyInput}

/-- A record found at the storage key of an address is filed under that address, where no storage keys collide. -/
theorem Book.address_eq (hbook : Book env device v)
    (hash : Set.InjOn env.sha256 (lookupInputs env device v addresses)) {address : SecretAddress}
    (haddress : address ∈ addresses) (hvalid : address.validate = .ok ()) {r : SecretRecord}
    (hr : r ∈ v.records env.toVaultEnv device .authorization grantDocumentNamespace (address.storageKey env.sha256)) :
    r.address = address := by
  obtain ⟨-, hkey, hwritten⟩ := hbook.filed _ r hr
  refine SecretAddress.storageKey_inj hwritten.validate hvalid (hash.mono ?_) hkey
  rintro _ (rfl | rfl)
  · exact ⟨r.address, List.mem_append_right _ (mem_addresses hr), rfl⟩
  · exact ⟨address, List.mem_append_left _ haddress, rfl⟩

/-- On a document in order, addresses read as what is filed under them; if the document does not load, nothing is filed. -/
theorem readMany_of_book (hbook : Book env device v) (hvalid : ∀ address ∈ addresses, address.validate = .ok ())
    (hash : Set.InjOn env.sha256 (lookupInputs env device v addresses)) (now : UInt64) :
    ((∃ e, v.readMany env.toVaultEnv device .authorization grantDocumentNamespace addresses now = .error e) ∧
        v.held env.toVaultEnv device .authorization grantDocumentNamespace = none) ∨
      v.readMany env.toVaultEnv device .authorization grantDocumentNamespace addresses now =
        .ok (addresses.map (v.live env.toVaultEnv device .authorization grantDocumentNamespace now)) := by
  cases hloaded : PlainDocument.loaded env.toVaultEnv device .authorization (some grantDocumentNamespace)
      v.documents[env.documentId device .authorization grantDocumentNamespace]? with
  | error e => exact .inl ⟨⟨e, by rw [readMany, hloaded]; rfl⟩, by rw [held, hloaded]⟩
  | ok loaded =>
    refine .inr ?_
    cases loaded with
    | none =>
      have hheld : v.held env.toVaultEnv device .authorization grantDocumentNamespace = none := by
        rw [held, hloaded]
      rw [readMany, hloaded]
      refine congrArg Except.ok (List.map_congr_left fun address _ => ?_)
      simp [live, PlainVault.records, hheld]
    | some loaded =>
      obtain ⟨d, p⟩ := loaded
      have hheld : v.held env.toVaultEnv device .authorization grantDocumentNamespace = some d := by
        rw [held, hloaded]
      have hrecords : ∀ key, v.records env.toVaultEnv device .authorization grantDocumentNamespace key = d.records key := by
        intro key
        simp [PlainVault.records, hheld]
      have hpersonal : d.isPersonal = false := by
        obtain ⟨q, -, -, hload⟩ := held_eq_some hheld
        have hkind := (load_eq_ok hload).1
        simp [SecretDocument.isPersonal, isPersonal, hkind]
      have hone : ∀ address ∈ addresses, readOne env.toVaultEnv d now address =
          .ok (v.live env.toVaultEnv device .authorization grantDocumentNamespace now address) := by
        intro address haddress
        rw [live, hrecords]
        refine readOne_of_single hpersonal (hrecords _ ▸ hbook.single _) fun r hr => ?_
        rw [← hrecords] at hr
        exact ⟨(hbook.filed _ r hr).1, hbook.address_eq hash haddress (hvalid address haddress) hr⟩
      rw [readMany, hloaded]
      exact mapM_ok hone

/-! ## The check -/

/-- The addresses a requirement is looked up at. -/
def GrantRequirement.lookups (env : GrantEnv) (caller : CallerIdentity) (r : GrantRequirement) : List SecretAddress :=
  r.targets.map fun target => grantEntry (caller.fingerprint env.sha256) (target.digest env.sha256) r.permission

/-- What `find_grant` answers on the plain vault. -/
def PlainVault.lookup (env : GrantEnv) (device : Device) (v : PlainVault) (caller : CallerIdentity) (r : GrantRequirement)
    (now : UInt64) : VaultResult FoundGrant := do
  let records ← v.readMany env.toVaultEnv device .authorization grantDocumentNamespace (r.lookups env caller) now
  scan env (caller.fingerprint env.sha256) r.permission now .none
    ((r.targets.map fun target => target.digest env.sha256).zip records)

theorem run_findGrant (caller : CallerIdentity) (r : GrantRequirement) (now : UInt64) :
    (findGrant env caller r now).run ((ops env.toVaultEnv device).execute env.toVaultEnv device) v =
      (v.lookup env device caller r now, v) := by
  have haddresses : grantAddresses (caller.fingerprint env.sha256) r.permission
      (r.targets.map fun target => target.digest env.sha256) = .ok (r.lookups env caller) := by
    simp only [grantAddresses, grantAddress_eq]
    rw [mapM_ok fun _ _ => rfl, List.map_map]
    rfl
  simp only [findGrant, haddresses, Program.lift_ok_bind, Program.run_bind, run_getMany, lookup]
  cases v.readMany env.toVaultEnv device .authorization grantDocumentNamespace (r.lookups env caller) now with
  | error e => rfl
  | ok records => rfl

/-- The grant is stored: a record at a grant's address holds it. -/
def PlainVault.Grants (env : GrantEnv) (device : Device) (v : PlainVault) (grant : AccessGrant) : Prop :=
  ∃ key, ∃ record ∈ v.records env.toVaultEnv device .authorization grantDocumentNamespace key,
    (∃ fingerprint target permission, record.address = grantEntry fingerprint target permission) ∧
      env.grantJson.decode record.value = .ok grant

/-- The grant allows the request: it is one of the caller for the permission, is not expired, and its target covers the
request. -/
structure AccessGrant.Allows (env : GrantEnv) (caller : CallerIdentity) (r : GrantRequirement) (now : UInt64)
    (grant : AccessGrant) : Prop where
  caller : grant.callerFingerprint = caller.fingerprint env.sha256
  permission : r.permission ∈ grant.permissions
  live : isLive now grant.expiresAt = true
  covers : ∃ target : GrantTarget, target.Covers r ∧ grant.targetDigest = target.digest env.sha256

/-- A record filed as a grant of a caller for a target is that grant. -/
theorem Book.decode (hbook : Book env device v) {key : String} {record : SecretRecord}
    (hrecord : record ∈ v.records env.toVaultEnv device .authorization grantDocumentNamespace key)
    {fingerprint target : Digest} {permission : GrantPermission}
    (haddress : record.address = grantEntry fingerprint target permission) :
    ∃ singleUse, env.grantJson.decode record.value =
      .ok (newGrant fingerprint target permission record.evictAt singleUse) := by
  obtain ⟨-, -, hwritten⟩ := hbook.filed key record hrecord
  cases hwritten with
  | registry h => exact absurd (haddress.symm.trans h) (grantEntry_ne_registryEntry _ _ _)
  | holder other h => exact absurd (haddress.symm.trans h) (grantEntry_ne_holderEntry _ _ _ _)
  | grant fingerprint' target' permission' singleUse h value =>
    obtain ⟨rfl, rfl, rfl⟩ := grantItem_inj (SecretAddress.local.inj (haddress.symm.trans h)).1
    exact ⟨singleUse, by rw [value, env.grantJson.decode_encode]⟩

/-- The entries a lookup scans. -/
def PlainVault.candidates (env : GrantEnv) (device : Device) (v : PlainVault) (caller : CallerIdentity)
    (r : GrantRequirement) (now : UInt64) : List (Digest × Option Bytes) :=
  r.targets.map fun target => (target.digest env.sha256,
    v.live env.toVaultEnv device .authorization grantDocumentNamespace now
      (grantEntry (caller.fingerprint env.sha256) (target.digest env.sha256) r.permission))

section

variable {caller : CallerIdentity} {r : GrantRequirement}

/-- A lookup meets the stored grants that allow the request, and no others. -/
def PlainVault.met (env : GrantEnv) (device : Device) (v : PlainVault) (caller : CallerIdentity) (r : GrantRequirement)
    (now : UInt64) : List (Digest × AccessGrant) :=
  (v.candidates env device caller r now).filterMap (hit env (caller.fingerprint env.sha256) r.permission now)

theorem mem_met (hbook : Book env device v)
    (hash : Set.InjOn env.sha256 (lookupInputs env device v (r.lookups env caller))) {grant : AccessGrant} :
    (∃ target, (target, grant) ∈ v.met env device caller r now) ↔
      v.Grants env device grant ∧ grant.Allows env caller r now := by
  constructor
  · rintro ⟨digest, hmet⟩
    obtain ⟨entry, hentry, hhit⟩ := List.mem_filterMap.1 hmet
    obtain ⟨bytes, rfl, hdecode, hsatisfies⟩ := hit_eq_some.1 hhit
    obtain ⟨target, htarget, heq⟩ := List.mem_map.1 hentry
    obtain ⟨rfl, hbytes⟩ := Prod.mk.inj heq
    obtain ⟨record, hrecord, rfl⟩ := live_eq_some hbytes
    have haddress := hbook.address_eq hash (List.mem_map_of_mem htarget) (grantItem_validate _ _ _) hrecord
    unfold AccessGrant.satisfies at hsatisfies
    simp only [decide_eq_true_eq] at hsatisfies
    obtain ⟨-, hcaller, hdigest, hlive, hpermission⟩ := hsatisfies
    exact ⟨⟨_, record, hrecord, ⟨_, _, _, haddress⟩, hdecode⟩,
      ⟨hcaller, hpermission, hlive, target, mem_targets.1 htarget, hdigest⟩⟩
  · rintro ⟨⟨key, record, hrecord, ⟨fingerprint, digest, permission, haddress⟩, hdecode⟩,
      ⟨hcaller, hpermission, hlive, target, hcovers, hdigest⟩⟩
    -- the grant says what its address says
    obtain ⟨singleUse, hdecode'⟩ := hbook.decode hrecord haddress
    obtain rfl : newGrant fingerprint digest permission record.evictAt singleUse = grant := by
      rw [hdecode'] at hdecode
      exact Except.ok.inj hdecode
    obtain rfl : fingerprint = caller.fingerprint env.sha256 := hcaller
    obtain rfl : digest = target.digest env.sha256 := hdigest
    obtain rfl : r.permission = permission := Finset.mem_singleton.1 hpermission
    obtain ⟨-, rfl, -⟩ := hbook.filed key record hrecord
    rw [haddress] at hrecord
    have hvalue := live_of_mem (hbook.single _) hrecord (expiredAt_of_isLive hlive)
    refine ⟨target.digest env.sha256, List.mem_filterMap.2 ⟨_, List.mem_map_of_mem (mem_targets.2 hcovers),
      hit_eq_some.2 ⟨record.value, congrArg _ hvalue, hdecode, ?_⟩⟩⟩
    unfold AccessGrant.satisfies
    simp only [decide_eq_true_eq]
    exact ⟨rfl, rfl, rfl, hlive, hpermission⟩

/-- What a lookup finds is chosen among the grants it meets; if the document does not load, nothing is stored. -/
theorem lookup_of_book (hbook : Book env device v)
    (hash : Set.InjOn env.sha256 (lookupInputs env device v (r.lookups env caller))) (now : UInt64) :
    ((∃ e, v.lookup env device caller r now = .error e) ∧ ∀ grant, ¬ v.Grants env device grant) ∨
      v.lookup env device caller r now = .ok (choose .none (v.met env device caller r now)) := by
  have hvalid : ∀ address ∈ r.lookups env caller, address.validate = .ok () := by
    intro address haddress
    obtain ⟨target, -, rfl⟩ := List.mem_map.1 haddress
    exact grantItem_validate _ _ _
  rcases readMany_of_book hbook hvalid hash now with ⟨⟨e, he⟩, hheld⟩ | hread
  · refine .inl ⟨⟨e, by rw [lookup, he]; rfl⟩, ?_⟩
    rintro grant ⟨key, record, hrecord, -⟩
    simp [PlainVault.records, hheld] at hrecord
  · have hentries : (r.targets.map fun target => target.digest env.sha256).zip ((r.lookups env caller).map
        (v.live env.toVaultEnv device .authorization grantDocumentNamespace now)) = v.candidates env device caller r now := by
      rw [GrantRequirement.lookups, List.map_map, List.zip_map']
      rfl
    refine .inr ?_
    rw [lookup, hread, ok_bind, hentries]
    refine scan_eq fun entry hentry bytes hbytes => ?_
    obtain ⟨other, hother, rfl⟩ := List.mem_map.1 hentry
    obtain ⟨found, hfound, rfl⟩ := live_eq_some hbytes
    obtain ⟨single, hdecode⟩ := hbook.decode hfound
      (hbook.address_eq hash (List.mem_map_of_mem hother) (grantItem_validate _ _ _) hfound)
    exact ⟨_, hdecode⟩

/-- A non-consuming check succeeds with what a lookup finds reusable, and leaves the store. -/
theorem run_requireGrantUntil_eq_ok {e : Option UInt64} {v' : PlainVault} :
    (requireGrantUntil env caller r now).run ((ops env.toVaultEnv device).execute env.toVaultEnv device) v =
      (.ok e, v') ↔ v.lookup env device caller r now = .ok (.reusable e) ∧ v' = v := by
  rw [requireGrantUntil, Program.run_bind, run_findGrant]
  cases hlookup : v.lookup env device caller r now with
  | error e' => simp
  | ok found =>
    cases found with
    | reusable e' => simp [eq_comm]
    | singleUse target e' =>
      show (Except.error _, v) = (Except.ok e, v') ↔ _
      simp
    | none =>
      show (Except.error _, v) = (Except.ok e, v') ↔ _
      simp

end

end

end FactorSeal

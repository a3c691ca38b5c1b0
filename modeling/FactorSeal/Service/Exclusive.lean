import FactorSeal.Lib.Run
import FactorSeal.Service.Authorize

/-! # One holder at a time (protocol/grant.rs:284-392)

`store_exclusive_grant` notes beside the grants of a target who holds them and which they are. The note and the grants
agree (`Exclusive`), so that what the next call takes from the note is all there is to take, and both change in one
mutation. -/

namespace FactorSeal

open Wire Except DocumentOperation Reference PlainVault List

variable {hashes : Set Bytes} {device : Device}

/-- Who holds a target exclusively, and with which permissions. -/
structure Holding where
  caller : CallerIdentity
  permissions : Finset GrantPermission

/-- The caller holds the permission. -/
def heldBy (holding : Option Holding) (caller : CallerIdentity) (permission : GrantPermission) : Bool :=
  holding.any fun h => h.caller = caller && permission ∈ h.permissions

section

variable (env : GrantEnv) (target : GrantTarget)

/-- The unexpiring grant of a permission. -/
def heldGrant (caller : CallerIdentity) (permission : GrantPermission) : PreparedGrant :=
  ⟨grantEntry (caller.fingerprint env.sha256) (target.digest env.sha256) permission,
    env.grantJson.encode (newGrant (caller.fingerprint env.sha256) (target.digest env.sha256) permission none false), none⟩

/-- The holder as it is noted. -/
def Holding.holder (h : Holding) : ExclusiveHolder :=
  ⟨exclusiveHolderVersion, h.caller.fingerprint env.sha256, h.permissions⟩

def Holding.note (h : Holding) : PreparedGrant :=
  ⟨holderEntry (target.digest env.sha256), env.holderJson.encode (h.holder env), none⟩

def holderKey : String := (holderEntry (target.digest env.sha256)).storageKey env.sha256

/-- What a document shows of the target is what the holder has, and the note of it. -/
structure Exclusive (hashes : Set Bytes) (view : DocumentView) (holding : Option Holding) : Prop where
  noted : view (holderKey env target) = holding.map fun h => (h.note env target).record
  grants : ∀ caller permission, caller.validate = .ok () → grantInputs env caller target permission ⊆ hashes →
    view (grantKey env caller target permission) =
      if heldBy holding caller permission then some (heldGrant env target caller permission).record else none
  hashed : ∀ h ∈ holding, h.caller.validate = .ok () ∧ ∀ permission, grantInputs env h.caller target permission ⊆ hashes

/-- The key is that of no grant on the target and not that of its note. -/
def Outside (hashes : Set Bytes) (key : String) : Prop :=
  key ≠ holderKey env target ∧ ∀ caller permission, caller.validate = .ok () →
    grantInputs env caller target permission ⊆ hashes → key ≠ grantKey env caller target permission

/-- The writes of a call after its deletions. -/
def Holding.writes (h : Holding) : List PreparedGrant :=
  (sortedPermissions h.permissions).map (heldGrant env target h.caller) ++ [h.note env target]

end

/-! ## One call -/

section

variable {env : GrantEnv} {target : GrantTarget} {view : DocumentView} {holding : Option Holding} {v : PlainVault}
  {caller : CallerIdentity} {permissions : List GrantPermission} {now : UInt64} {next : Holding}
  {result : VaultResult Unit}

theorem foldl_deletes (addresses : List SecretAddress) (view : DocumentView) (key : String) :
    (addresses.map delete).foldl (effect env.toVaultEnv) view key =
      if key ∈ addresses.map (SecretAddress.storageKey env.sha256) then none else view key := by
  induction addresses generalizing view with
  | nil => rfl
  | cons address rest ih =>
    rw [map_cons, foldl_cons, ih, effect, Function.update_apply, map_cons]
    by_cases hrest : key ∈ rest.map (SecretAddress.storageKey env.sha256) <;> simp [hrest]

theorem grantKey_ne_holderKey (hinj : Set.InjOn env.sha256 hashes)
    (hholder : (holderEntry (target.digest env.sha256)).keyInput ∈ hashes) {other : GrantTarget}
    {permission : GrantPermission} (hgrant : grantInputs env caller other permission ⊆ hashes) :
    grantKey env caller other permission ≠ holderKey env target := by
  intro h
  refine grantEntry_ne_holderEntry _ _ permission _ (SecretAddress.storageKey_inj (grantItem_validate _ _ _)
    (holderEntry_validate _) (hinj.mono ?_) h)
  rintro _ (rfl | rfl)
  · exact hgrant (.inl (by simp [grantEntry]))
  · exact hholder

/-- What the new holder does not get is taken from the previous one. -/
def taken (env : GrantEnv) (target : GrantTarget) (holding : Option Holding) (next : Holding) : List SecretAddress :=
  match holding with
  | none => []
  | some h => ((sortedPermissions h.permissions).filter fun permission =>
      h.caller.fingerprint env.sha256 ≠ next.caller.fingerprint env.sha256 ∨ permission ∉ next.permissions).map
        (grantEntry (h.caller.fingerprint env.sha256) (target.digest env.sha256))

theorem mem_writes {g : PreparedGrant} :
    g ∈ next.writes env target ↔ (∃ permission ∈ next.permissions, g = heldGrant env target next.caller permission) ∨
      g = next.note env target := by
  simp [Holding.writes, mem_sortedPermissions, eq_comm]

theorem mem_taken {key : String} :
    key ∈ (taken env target holding next).map (SecretAddress.storageKey env.sha256) ↔
      ∃ h ∈ holding, ∃ permission ∈ h.permissions, (h.caller.fingerprint env.sha256 ≠ next.caller.fingerprint env.sha256 ∨
        permission ∉ next.permissions) ∧ grantKey env h.caller target permission = key := by
  cases holding with
  | none => simp [taken]
  | some h => simp [taken, mem_sortedPermissions, grantKey, and_assoc]

/-- **What a call leaves**: the grants of the new holder alone, and everything outside the target as it was. -/
theorem Exclusive.moved (h : Exclusive env target hashes view holding) (hinj : Set.InjOn env.sha256 hashes)
    (htarget : target.Valid) (hholder : (holderEntry (target.digest env.sha256)).keyInput ∈ hashes)
    (hvalid : next.caller.validate = .ok ()) (hnext : ∀ permission, grantInputs env next.caller target permission ⊆ hashes)
    {view' : DocumentView} (hview : view' = filed env.toVaultEnv
      (((taken env target holding next).map delete).foldl
        (effect env.toVaultEnv) view) (next.writes env target)) :
    Exclusive env target hashes view' (some next) ∧ ∀ key, Outside env target hashes key → view' key = view key := by
  subst hview
  refine ⟨⟨filed_of_last (by simp), fun caller permission hcaller hhashed => ?_, ?_⟩, fun key houtside => ?_⟩
  · by_cases hheld : heldBy (some next) caller permission = true
    · obtain ⟨rfl, hpermission⟩ : next.caller = caller ∧ permission ∈ next.permissions := by simpa [heldBy] using hheld
      rw [if_pos hheld]
      refine filed_of_same ⟨_, mem_writes.2 (.inl ⟨permission, hpermission, rfl⟩), rfl⟩ fun g hg hkey => ?_
      rcases mem_writes.1 hg with ⟨other, -, rfl⟩ | rfl
      · rw [(grantKey_inj hinj hvalid hvalid htarget htarget (hnext other) hhashed hkey).2.2]
      · exact absurd hkey.symm (grantKey_ne_holderKey hinj hholder hhashed)
    · rw [if_neg hheld, filed_of_ne, foldl_deletes, h.grants caller permission hcaller hhashed]
      · by_cases hbefore : heldBy holding caller permission = true
        · -- the previous holder loses what the new one does not get
          obtain ⟨h₀, hh₀, hboth⟩ := (Option.any_eq_true _ _).1 hbefore
          obtain ⟨rfl, hpermission⟩ : h₀.caller = caller ∧ permission ∈ h₀.permissions := by simpa using hboth
          rw [if_pos (mem_taken.2 ⟨h₀, hh₀, permission, hpermission, ?_, rfl⟩)]
          by_contra hkept
          obtain ⟨hfingerprint, hmem⟩ := not_or.1 hkept
          have hsame := CallerIdentity.fingerprint_inj hcaller hvalid (hinj.mono (by
            rintro _ (rfl | rfl)
            · exact hhashed (.inl (by simp))
            · exact hnext permission (.inl (by simp)))) (not_not.1 hfingerprint)
          exact hheld (by simpa [heldBy] using ⟨hsame.symm, not_not.1 hmem⟩)
        · rw [if_neg hbefore, ite_self]
      · intro g hg hkey
        rcases mem_writes.1 hg with ⟨other, hother, rfl⟩ | rfl
        · obtain ⟨rfl, -, rfl⟩ := grantKey_inj hinj hvalid hcaller htarget htarget (hnext other) hhashed hkey
          exact hheld (by simpa [heldBy] using hother)
        · exact grantKey_ne_holderKey hinj hholder hhashed hkey.symm
  · rintro _ ⟨⟩
    exact ⟨hvalid, hnext⟩
  · rw [filed_of_ne, foldl_deletes, if_neg]
    · intro htaken
      obtain ⟨h₀, hh₀, permission, -, -, hkey⟩ := mem_taken.1 htaken
      exact houtside.2 _ permission (h.hashed h₀ hh₀).1 ((h.hashed h₀ hh₀).2 permission) hkey.symm
    · intro g hg hkey
      rcases mem_writes.1 hg with ⟨other, -, rfl⟩ | rfl
      · exact houtside.2 _ other hvalid (hnext other) hkey.symm
      · exact houtside.1 hkey.symm

end

/-! ## Sequences of calls -/

section

variable {env : GrantEnv} {target : GrantTarget}

end

namespace Reference

end Reference

end FactorSeal

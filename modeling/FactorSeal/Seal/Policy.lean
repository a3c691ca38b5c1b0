import FactorSeal.Lib.Except
import FactorSeal.Vault.Basic

/-! # Unlock policies (vault/seal/policy.rs)

A policy lists the groups of factors of which any one opens the vault. Every group is also bound to a hardware key; that
is not one of its factors. -/

namespace FactorSeal.Seal

open Wire Except

variable {credentials : UnlockCredentials} {group : UnlockGroup}

inductive UnlockFactorKind where
  | password
  | biometric
deriving DecidableEq, Repr

def UnlockFactorKind.asStr : UnlockFactorKind → String
  | password => "password"
  | biometric => "biometric"

/-- The order of the variants. -/
def UnlockFactorKind.rank : UnlockFactorKind → Nat
  | password => 0
  | biometric => 1

/-- The factors of a group are all required. -/
structure UnlockGroup where
  factors : List UnlockFactorKind
deriving DecidableEq, Repr

namespace UnlockGroup

/-- `Display`. -/
def display (group : UnlockGroup) : String := ",".intercalate (group.factors.map UnlockFactorKind.asStr)

/-- `validate`: what `UnlockGroup::new` checks. The order of the factors is not checked. -/
def validate (group : UnlockGroup) : VaultResult Unit := do
  ensure (group.factors ≠ []) (.protection "an unlock group must contain at least one factor")
  ensure group.factors.Nodup (.protection "an unlock group contains a repeated factor")

/-- The place at which `binary_search` of a slice ends. -/
def searchBase (factors : List UnlockFactorKind) (factor : UnlockFactorKind) : Nat → Nat → Nat → Nat
  | 0, base, _ => base
  | fuel + 1, base, size =>
    if size ≤ 1 then base
    else
      let middle := base + size / 2
      searchBase factors factor fuel
        (if (factors[middle]?).any fun other => factor.rank < other.rank then base else middle) (size - size / 2)

/-- `requires`: a binary search for the factor. -/
def requires (group : UnlockGroup) (factor : UnlockFactorKind) : Bool :=
  group.factors[searchBase group.factors factor group.factors.length 0 group.factors.length]? = some factor

end UnlockGroup

/-- Any one of the groups opens the vault. -/
structure UnlockPolicy where
  version : UInt32
  groups : List UnlockGroup
deriving DecidableEq, Repr

/-- `UnlockPolicy::validate`. -/
def UnlockPolicy.validate (policy : UnlockPolicy) : VaultResult Unit := do
  ensure (policy.version = 1 ∧ policy.groups ≠ [] ∧ policy.groups.length ≤ 8)
    (.protection "unsupported or invalid unlock policy")
  policy.groups.forM UnlockGroup.validate
  ensure policy.groups.Nodup (.protection "unlock policy contains a repeated group")

structure UnlockCredentials where
  password : Option Bytes
deriving DecidableEq, Repr

/-- `password_for`. -/
def UnlockCredentials.passwordFor (credentials : UnlockCredentials) (group : UnlockGroup) :
    VaultResult (Option Bytes) :=
  if group.requires .password then do
    let password ← ofOption (.protection ("the " ++ group.display ++ " unlock group requires a password"))
      credentials.password
    ensure (password ≠ []) (.protection "the password factor must not be empty")
    return some password
  else .ok none

/-- The password that is used is the one that was given. -/
theorem UnlockCredentials.passwordFor_eq_some {password : Bytes}
    (h : credentials.passwordFor group = .ok (some password)) :
    group.requires .password = true ∧ credentials.password = some password := by
  unfold passwordFor at h
  split at h
  next hrequires =>
    simp only [bind_eq_ok, ofOption_eq_ok, ensure_eq_ok] at h
    obtain ⟨given, hgiven, ⟨⟩, -, h⟩ := h
    cases h
    exact ⟨hrequires, hgiven⟩
  next => cases h

theorem UnlockCredentials.passwordFor_eq_none
    (h : credentials.passwordFor group = .ok none) : group.requires .password = false := by
  unfold passwordFor at h
  split at h
  next =>
    simp only [bind_eq_ok, ofOption_eq_ok, ensure_eq_ok] at h
    obtain ⟨given, -, ⟨⟩, -, h⟩ := h
    cases h
  next hrequires => simpa using hrequires

theorem UnlockPolicy.validate_eq_ok {policy : UnlockPolicy} (h : policy.validate = .ok ()) :
    policy.groups ≠ [] ∧ policy.groups.Nodup ∧ ∀ group ∈ policy.groups, group.validate = .ok () := by
  simp only [validate, bind_eq_ok, ensure_eq_ok] at h
  obtain ⟨⟨⟩, ⟨-, hne, -⟩, ⟨⟩, hgroups, hnodup⟩ := h
  exact ⟨hne, hnodup, forM_eq_ok.1 hgroups⟩

end FactorSeal.Seal

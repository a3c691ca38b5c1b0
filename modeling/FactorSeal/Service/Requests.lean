import FactorSeal.Grant.Coverage
import FactorSeal.Service.Actions
import FactorSeal.Store.Views

/-! # Requests on one document

What `Get` and `Mutate` do, seen from a document whose records have no deadlines (`Lasting`). A read leaves the vault
and answers with what the document shows. A batch is refused and leaves the vault, or all its checks hold and what the
document shows changes by its writes (`run_mutate`). -/

namespace FactorSeal

open Wire Except Program

theorem SecretAddress.newLocal_eq_ok {item : String} {field : Option String} {a : SecretAddress}
    (h : SecretAddress.newLocal item field = .ok a) : a = .local item field := by
  obtain ⟨-, -, h⟩ := bind_eq_ok.1 h
  cases h
  rfl

/-- No record has a deadline. -/
def Lasting (view : DocumentView) : Prop := ∀ key r, view key = some r → r.evictAt = none

/-- What a mutation of a request becomes, and what it has checked. -/
def VaultMutation.Prepares (env : VaultEnv) (view : DocumentView) (operation : Option DocumentOperation) :
    VaultMutation → Prop
  | .check address expected => operation = none ∧ ∃ a, address.resolve = .ok a ∧
      (view (a.storageKey env.sha256)).map (fun r => env.sha256 r.value) = expected
  | .put address value evictAt => ∃ a, address.resolve = .ok a ∧ operation = some (.put a value evictAt)
  | .delete address => ∃ a, address.resolve = .ok a ∧ operation = some (.delete a)

section

variable {env : ServiceEnv} {device : Device} {v : PlainVault} {scope : DocumentKind} {partition : Bytes}
  {view : DocumentView}

/-- The worker on the plain vault. -/
abbrev plainServer (env : ServiceEnv) (device : Device) : PlainVault → Command → VaultResult (Answer × PlainVault) :=
  (PlainVault.ops env.toVaultEnv device).execute env.toVaultEnv device

theorem leaves_getWithDeadline (hshows : v.Shows env.toVaultEnv device scope partition view) (hlasting : Lasting view)
    (address : SecretAddress) (now : UInt64) :
    (VaultStore.getWithDeadline scope partition address now).Leaves (plainServer env device) v
      fun a => a.map StoredSecret.value = (view (address.storageKey env.sha256)).map VisibleRecord.value := by
  have hrun : (VaultStore.getWithDeadline scope partition address now).run (plainServer env device) v =
      settle v ((PlainVault.ops env.toVaultEnv device).get env.toVaultEnv device v scope partition address now) :=
    run_request Answer.secret rfl fun _ => rfl
  cases hget : (PlainVault.ops env.toVaultEnv device).get env.toVaultEnv device v scope partition address now with
  | error e =>
    rw [hget] at hrun
    refine ⟨.error e, hrun, fun a ha => ?_⟩
    cases ha
  | ok r =>
    obtain ⟨hsame, hvalue⟩ := hshows.get (fun r hr => hlasting _ r hr) hget
    rw [hget] at hrun
    refine ⟨.ok r.1, hrun.trans ?_, fun a ha => ?_⟩
    · rw [settle, hsame]
    · cases ha
      exact hvalue

namespace ActionContext

variable {context : ActionContext}

theorem leaves_require (i : Nat) (requirement : GrantRequirement) (validUntil : Option UInt64) :
    (context.require env i requirement validUntil).Leaves (plainServer env device) v fun _ => True := by
  have hfind : (findGrant env.toGrantEnv context.caller requirement (context.wall i)).Leaves (plainServer env device) v
      fun _ => True := ⟨_, run_findGrant _ _ _, fun _ _ => trivial⟩
  have hgrant : (requireGrantUntil env.toGrantEnv context.caller requirement (context.wall i)).Leaves
      (plainServer env device) v fun _ => True := by
    refine hfind.bind fun found _ => ?_
    cases found with
    | reusable expiresAt => exact .pure trivial
    | singleUse target expiresAt => exact .lift fun _ _ => trivial
    | none => exact .lift fun _ _ => trivial
  exact hgrant.bind fun _ _ => .lift fun _ _ => trivial

variable (hshows : v.Shows env.toVaultEnv device context.scope partition view) (hlasting : Lasting view)

include hshows hlasting

theorem leaves_get (address : WireSecretAddress) (validUntil : Option UInt64) :
    (context.get env partition address validUntil).Leaves (plainServer env device) v fun answer =>
      ∃ a, address.resolve = .ok a ∧ answer.1 = .secret ((view (a.storageKey env.sha256)).map VisibleRecord.value) := by
  refine (Leaves.lift fun a ha => ha).bind fun a ha => ?_
  refine (leaves_require _ _ _).bind fun until₁ _ => ?_
  refine (leaves_getWithDeadline hshows hlasting a _).bind fun secret hsecret => ?_
  refine (Leaves.lift (Q := fun _ => True) fun _ _ => trivial).bind fun until₂ _ => ?_
  exact .pure ⟨a, ha, by rw [hsecret]⟩

theorem leaves_prepareMutation (i : Nat) (validUntil : Option UInt64) (mutation : VaultMutation) :
    (context.prepareMutation env i partition validUntil mutation).Leaves (plainServer env device) v fun prepared =>
      mutation.Prepares env.toVaultEnv view prepared.1 := by
  cases mutation with
  | check address expected =>
    refine (Leaves.lift fun a ha => ha).bind fun a ha => ?_
    refine (leaves_require _ _ _).bind fun until₁ _ => ?_
    refine (leaves_getWithDeadline hshows hlasting a _).bind fun current hcurrent => ?_
    refine (Leaves.lift (Q := fun _ => True) fun _ _ => trivial).bind fun until₂ _ => ?_
    refine (Leaves.lift (Q := fun _ => current.map (fun secret => env.sha256 secret.value) = expected)
      fun _ h => ensure_eq_ok.1 h).bind fun _ hchecked => ?_
    refine .pure ⟨rfl, a, ha, ?_⟩
    have hdigest := congrArg (Option.map env.sha256) hcurrent
    rw [Option.map_map, Option.map_map] at hdigest
    exact hdigest.symm.trans hchecked
  | put address value evictAt =>
    refine (Leaves.lift fun a ha => ha).bind fun a ha => ?_
    refine (leaves_require _ _ _).bind fun until₁ _ => ?_
    refine (Leaves.lift (Q := fun _ => True) fun _ _ => trivial).bind fun _ _ => ?_
    exact .pure ⟨a, ha, rfl⟩
  | delete address =>
    refine (Leaves.lift fun a ha => ha).bind fun a ha => ?_
    refine (leaves_require _ _ _).bind fun until₁ _ => ?_
    exact .pure ⟨a, ha, rfl⟩

/-- The operations of a batch are those its mutations become, in order. -/
theorem leaves_prepareMutations (mutations : List VaultMutation) (i : Nat) (validUntil : Option UInt64) :
    (context.prepareMutations env partition i validUntil mutations).Leaves (plainServer env device) v fun prepared =>
      ∃ parts, List.Forall₂ (fun mutation part => mutation.Prepares env.toVaultEnv view part) mutations parts ∧
        prepared.1 = parts.flatMap Option.toList := by
  induction mutations generalizing i validUntil with
  | nil => exact .pure ⟨[], .nil, rfl⟩
  | cons mutation rest ih =>
    refine (leaves_prepareMutation hshows hlasting i validUntil mutation).bind fun first hfirst => ?_
    refine (ih _ _).bind fun others hothers => ?_
    obtain ⟨parts, hparts, hoperations⟩ := hothers
    exact .pure ⟨first.1 :: parts, .cons hfirst hparts, by rw [hoperations]; rfl⟩

/-- A batch is refused and nothing changes, or its mutations are checked against what the document shows and have their
effects on it. -/
theorem run_mutate (mutations : List VaultMutation) (validUntil : Option UInt64) :
    (∃ e, (context.mutate env partition mutations validUntil).run (plainServer env device) v = (.error e, v)) ∨
      ∃ deadline v' parts, (context.mutate env partition mutations validUntil).run (plainServer env device) v =
          (.ok (.mutated, deadline), v') ∧
        List.Forall₂ (fun mutation part => mutation.Prepares env.toVaultEnv view part) mutations parts ∧
        v'.Shows env.toVaultEnv device context.scope partition
          ((parts.flatMap Option.toList).foldl (DocumentOperation.effect env.toVaultEnv) view) := by
  obtain ⟨prepared, hrun, hprepared⟩ := leaves_prepareMutations hshows hlasting mutations 0 validUntil
  rw [mutate, run_bind, hrun]
  cases prepared with
  | error e => exact .inl ⟨e, rfl⟩
  | ok prepared =>
    obtain ⟨operations, deadline⟩ := prepared
    obtain ⟨parts, hparts, hoperations⟩ := hprepared _ rfl
    dsimp only at hoperations
    have hmutate : (VaultStore.mutate context.scope partition operations context.provenance
        (context.wall (4 * mutations.length))).run (plainServer env device) v =
          settle v ((PlainVault.ops env.toVaultEnv device).mutate env.toVaultEnv device v context.scope partition
            operations context.provenance (context.wall (4 * mutations.length))) :=
      run_request (fun _ => Answer.done) rfl fun _ => rfl
    rw [andThen_ok, run_bind, hmutate]
    cases hserver : (PlainVault.ops env.toVaultEnv device).mutate env.toVaultEnv device v context.scope partition
        operations context.provenance (context.wall (4 * mutations.length)) with
    | error e => exact .inl ⟨e, rfl⟩
    | ok r =>
      refine .inr ⟨deadline, r.2, parts, rfl, hparts, ?_⟩
      rw [← hoperations]
      exact hshows.mutate hserver

end ActionContext

end

end FactorSeal

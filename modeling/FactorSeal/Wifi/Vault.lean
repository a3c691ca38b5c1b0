import FactorSeal.Service.Authorize
import FactorSeal.Service.Requests
import FactorSeal.Wifi.Steps

/-! # What the vault does with the writes of the Wi-Fi agent

The agent's model has the vault as `Contents`, with a request that is refused or changes them (`State.carryOut`). So it
is with the document of the vault: a `Mutate` request for the writes of a call leaves the vault as it is, or the document
then has what `Contents.mutate` says (`run_writes`). -/

namespace FactorSeal.Wifi

open Wire Function

/-- `NAMESPACE` (profile.rs:9). -/
def wifiNamespace : Bytes := utf8 "factorseal/network-manager/v1"

def storageKey (env : VaultEnv) (address : WireSecretAddress) : String :=
  (SecretAddress.local address.item address.field).storageKey env.sha256

/-- The document has the contents at some addresses, whose keys are distinct. -/
structure Holds (env : VaultEnv) (addresses : WireSecretAddress → Prop) (contents : Contents) (view : DocumentView) :
    Prop where
  lasting : Lasting view
  values : ∀ a, addresses a → (view (storageKey env a)).map VisibleRecord.value = (contents a).map Prod.fst

section

variable {env : VaultEnv} {addresses : WireSecretAddress → Prop} {contents : Contents} {view checked : DocumentView}

theorem lasting_update (h : Lasting view) (key : String) {record : Option VisibleRecord}
    (hrecord : ∀ r, record = some r → r.evictAt = none) : Lasting (update view key record) := by
  intro key' r hr
  by_cases hkey : key' = key
  · subst hkey
    rw [update_self] at hr
    exact hrecord r hr
  · rw [update_of_ne hkey] at hr
    exact h key' r hr

section

variable (h : Holds env addresses contents view)
  (hdistinct : ∀ a b, addresses a → addresses b → storageKey env a = storageKey env b → a = b)

include h hdistinct

/-- The document and the contents change at one address. -/
theorem Holds.update {address : WireSecretAddress} (haddress : addresses address) {record : Option VisibleRecord}
    {stored : Option (Bytes × Nat)} (hrecord : ∀ r, record = some r → r.evictAt = none)
    (hsame : record.map VisibleRecord.value = stored.map Prod.fst) :
    Holds env addresses (update contents address stored)
      (update view (storageKey env address) record) := by
  refine ⟨lasting_update h.lasting _ hrecord, fun a ha => ?_⟩
  by_cases hkey : a = address
  · subst hkey
    rw [update_self, update_self]
    exact hsame
  · rw [update_of_ne hkey, update_of_ne fun hsame => hkey (hdistinct a address ha haddress hsame)]
    exact h.values a ha

theorem Holds.write {m : VaultMutation}
    {uuid : String} (hm : IsWrite uuid m) (haddress : addresses (mutationAddress m)) (author : Nat)
    {part : Option DocumentOperation} (hpart : m.Prepares env checked part) :
    Holds env addresses (contents.mutate author m) (part.toList.foldl (DocumentOperation.effect env) view) := by
  cases m with
  | check address expected => cases hm
  | put address value deadline =>
    obtain ⟨-, rfl⟩ := hm
    obtain ⟨a, ha, rfl⟩ := hpart
    rw [SecretAddress.newLocal_eq_ok ha]
    refine h.update hdistinct haddress (fun r hr => ?_) rfl
    cases hr
    rfl
  | delete address =>
    obtain ⟨a, ha, rfl⟩ := hpart
    rw [SecretAddress.newLocal_eq_ok ha]
    refine h.update hdistinct haddress (fun r hr => ?_) rfl
    cases hr

theorem Holds.writes {writes : List VaultMutation} {uuid : String} (hwrites : ∀ m ∈ writes, IsWrite uuid m)
    (haddresses : ∀ m ∈ writes, addresses (mutationAddress m)) (author : Nat) {parts : List (Option DocumentOperation)}
    (hparts : List.Forall₂ (fun m part => m.Prepares env checked part) writes parts) :
    Holds env addresses (writes.foldl (Contents.mutate author) contents)
      ((parts.flatMap Option.toList).foldl (DocumentOperation.effect env) view) := by
  induction hparts generalizing contents view with
  | nil => exact h
  | cons hpart hparts ih =>
    rw [List.flatMap_cons, List.foldl_append]
    exact ih (h.write hdistinct (hwrites _ List.mem_cons_self) (haddresses _ List.mem_cons_self) author hpart)
      (fun m hm => hwrites m (List.mem_cons_of_mem _ hm)) fun m hm => haddresses m (List.mem_cons_of_mem _ hm)

end

end

/-- A request with the writes of a call is refused and nothing changes, or the document has them. -/
theorem run_writes {env : ServiceEnv} {device : Device} {v : PlainVault} {view : DocumentView} {contents : Contents}
    {addresses : WireSecretAddress → Prop} {context : ActionContext}
    (hshows : v.Shows env.toVaultEnv device context.scope wifiNamespace view)
    (hholds : Holds env.toVaultEnv addresses contents view)
    (hdistinct : ∀ a b, addresses a → addresses b → storageKey env.toVaultEnv a = storageKey env.toVaultEnv b → a = b)
    {call : Call} {writes : List VaultMutation} (hown : OwnWrites call writes)
    (haddresses : ∀ m ∈ writes, addresses (mutationAddress m)) (author : Nat) (validUntil : Option UInt64) :
    (∃ e, (context.mutate env wifiNamespace writes validUntil).run (plainServer env device) v = (.error e, v)) ∨
      ∃ deadline v' view', (context.mutate env wifiNamespace writes validUntil).run (plainServer env device) v =
          (.ok (.mutated, deadline), v') ∧
        v'.Shows env.toVaultEnv device context.scope wifiNamespace view' ∧
        Holds env.toVaultEnv addresses (writes.foldl (Contents.mutate author) contents) view' := by
  rcases ActionContext.run_mutate hshows hholds.lasting writes validUntil with hrefused | ⟨deadline, v', parts, hrun, hparts, hshows'⟩
  · exact .inl hrefused
  · exact .inr ⟨deadline, v', _, hrun, hshows', hholds.writes hdistinct hown.uuid haddresses author hparts⟩

/-- The first credential of a connection. -/
def homeWrites : List VaultMutation := [.put ⟨"home", none⟩ [1] none]

def homeAgent : ActionContext := ⟨Reference.editor, .networkManagerWifi, fun _ => (10, 10), .redacted, none⟩

open FactorSeal.Reference in
/-- A vault that has the agent's grant and nothing else. -/
def grantedVault : PlainVault :=
  ((storeAuthorizations referenceService [⟨editor, .kind .networkManagerWifi, [.put], none⟩] 10).run
    (plainServer referenceService thisDevice) PlainVault.create).2

open FactorSeal.Reference in
theorem run_writes_home : ∃ deadline v' view',
    (homeAgent.mutate referenceService wifiNamespace homeWrites none).run (plainServer referenceService thisDevice)
        grantedVault = (.ok (.mutated, deadline), v') ∧
      v'.Shows referenceService.toVaultEnv thisDevice .networkManagerWifi wifiNamespace view' ∧
      Holds referenceService.toVaultEnv (· = ⟨"home", none⟩) (homeWrites.foldl (Contents.mutate 0) fun _ => none)
        view' := by
  have hok : ((homeAgent.mutate referenceService wifiNamespace homeWrites none).run
    (plainServer referenceService thisDevice) grantedVault).1.isOk = true := by decide +kernel
  have hown : OwnWrites (.migrate "home") homeWrites :=
    ⟨by simp [homeWrites, IsWrite, Call.uuid], fun _ _ h => by cases h⟩
  have hempty : Holds referenceService.toVaultEnv (· = ⟨"home", none⟩) (fun _ => none) fun _ => none :=
    ⟨fun _ _ h => by simp at h, fun _ _ => rfl⟩
  have hshows : grantedVault.Shows referenceService.toVaultEnv thisDevice homeAgent.scope wifiNamespace fun _ => none :=
    .of_absent (by decide +kernel)
  rcases run_writes hshows hempty (fun a b ha hb _ => ha.trans hb.symm) hown (by simp [homeWrites, mutationAddress]) 0
    none with ⟨e, he⟩ | hstored
  · rw [he] at hok
    cases hok
  · exact hstored

end FactorSeal.Wifi

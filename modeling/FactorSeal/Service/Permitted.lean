import FactorSeal.Grant.Coverage
import FactorSeal.Service.Actions
import FactorSeal.Service.Reference

/-! # What a stored grant permits (protocol/grant.rs:677-842, protocol/wire.rs:1313-1356)

A check that consumes nothing succeeds exactly where a stored reusable grant allows the request (`grant_check_iff`). The
view of an entry tells from the target of an approved permission whether the permission is for the entry; that is so
exactly where its grant allows a request for the entry from some folder (`applies_iff_allowed`). -/

namespace FactorSeal

open Wire Except Std Reference PendingApprovals PlainVault

variable {candidate : ApprovalCandidate} {address : SecretAddress} {project : String}

/-- The vault that a program leaves of an empty one. -/
def PlainVault.after {α : Type} (env : GrantEnv) (device : Device) (p : StoreProgram α) : PlainVault :=
  (p.run ((ops env.toVaultEnv device).execute env.toVaultEnv device) create).2

/-- What is hashed for a request is among `hashes`, and its parts are such as a target can have. -/
structure GrantRequirement.Within (env : GrantEnv) (device : Device) (hashes : Set Bytes) (v : PlainVault)
    (caller : CallerIdentity) (r : GrantRequirement) : Prop where
  lookups : lookupInputs env device v (r.lookups env caller) ⊆ hashes
  targets : ∀ target ∈ r.targets, target.Valid ∧ target.digestInput env.sha256 ∈ hashes ∧
    ∀ address ∈ target.address, address.keyInput ∈ hashes

section

variable {env : GrantEnv} {device : Device} {hashes : Set Bytes} {v : PlainVault} {caller : CallerIdentity}
  {r : GrantRequirement} {now : UInt64}

/-- Where no hashes collide, the target of a grant that allows a request covers it. -/
theorem AccessGrant.Allows.covers_of_digest {grant : AccessGrant} (h : grant.Allows env caller r now)
    (hinj : Set.InjOn env.sha256 hashes) (hr : r.Within env device hashes v caller) {target : GrantTarget}
    (hvalid : target.Valid) (hinput : target.digestInput env.sha256 ∈ hashes)
    (hkeys : ∀ address ∈ target.address, address.keyInput ∈ hashes)
    (hdigest : grant.targetDigest = target.digest env.sha256) : target.Covers r := by
  obtain ⟨other, hcovers, hother⟩ := h.covers
  obtain ⟨hothervalid, hotherinput, hotherkeys⟩ := hr.targets other (mem_targets.2 hcovers)
  obtain rfl : target = other := by
    refine GrantTarget.digest_inj hvalid hothervalid (hinj.mono ?_) (hdigest.symm.trans hother)
    rintro input ((rfl | rfl) | ⟨address, haddress | haddress, rfl⟩)
    · exact hinput
    · exact hotherinput
    · exact hkeys address haddress
    · exact hotherkeys address haddress
  exact hcovers

end

/-- **The check finds what is granted.** Whatever program of the service was run: a check that consumes nothing leaves
the store, it succeeds if and only if a stored reusable grant allows the request, with the expiry of one that does, and
the target such a grant was given for covers the request. -/
theorem grant_check_iff {env : GrantEnv} {device : Device} {α : Type} {p : StoreProgram α}
    (hp : p.Calls (Command.Orderly env fun _ _ => True)) {hashes : Set Bytes} (hinj : Set.InjOn env.sha256 hashes)
    (caller : CallerIdentity) (r : GrantRequirement) (now : UInt64)
    (hr : r.Within env device hashes (PlainVault.after env device p) caller) :
    (∀ e v', (requireGrantUntil env caller r now).run ((PlainVault.ops env.toVaultEnv device).execute env.toVaultEnv device)
        (PlainVault.after env device p) = (.ok e, v') → v' = PlainVault.after env device p ∧
      ∃ grant, (PlainVault.after env device p).Grants env device grant ∧ grant.Allows env caller r now ∧
        grant.singleUse = false ∧ grant.expiresAt = e) ∧
    (∀ grant, (PlainVault.after env device p).Grants env device grant → grant.Allows env caller r now →
      (grant.singleUse = false → ∃ e, (requireGrantUntil env caller r now).run
        ((PlainVault.ops env.toVaultEnv device).execute env.toVaultEnv device) (PlainVault.after env device p) =
          (.ok e, PlainVault.after env device p)) ∧
      ∀ target : GrantTarget, target.Valid → target.digestInput env.sha256 ∈ hashes →
        (∀ address ∈ target.address, address.keyInput ∈ hashes) → grant.targetDigest = target.digest env.sha256 →
        target.Covers r) := by
  have hbook : Book env device (after env device p) := Book.create.run hp
  have hash := hinj.mono hr.lookups
  refine ⟨fun e v' hrun => ?_, fun grant hgrant hallows => ⟨fun hreusable => ?_, fun target hvalid hinput hkeys hdigest =>
    hallows.covers_of_digest hinj hr hvalid hinput hkeys hdigest⟩⟩
  · obtain ⟨hlookup, rfl⟩ := run_requireGrantUntil_eq_ok.1 hrun
    refine ⟨rfl, ?_⟩
    rcases lookup_of_book hbook hash now with ⟨⟨e', he⟩, -⟩ | hmet
    · rw [he] at hlookup
      cases hlookup
    · rw [hmet] at hlookup
      obtain ⟨⟨digest, grant⟩, hhit, hreusable, hexpires⟩ := mem_of_choose (by simp) (Except.ok.inj hlookup)
      obtain ⟨hgrant, hallows⟩ := (mem_met hbook hash).1 ⟨digest, hhit⟩
      exact ⟨grant, hgrant, hallows, hreusable, hexpires⟩
  · rcases lookup_of_book hbook hash now with ⟨-, hnone⟩ | hmet
    · exact absurd hgrant (hnone grant)
    · obtain ⟨digest, hhit⟩ := (mem_met hbook hash).2 ⟨hgrant, hallows⟩
      obtain ⟨e, he⟩ := exists_choose hhit hreusable
      exact ⟨e, run_requireGrantUntil_eq_ok.2 ⟨by rw [hmet, he], rfl⟩⟩

/-! ### The editor may read the token -/

namespace Reference

def tokenTarget : GrantTarget := .projectEntry .secretSpecProviderCache (utf8 "shop") (.secretSpec shopToken) "shop" none

def tokenGranted : Permission :=
  ⟨some tokenTarget.summary, permissionId (Vector.replicate 16 1), some .secretSpecProviderCache, .get,
    editor, shopContext none, .granted 10 none false⟩

/-- The approval as it is stored. -/
def promoteToken : StoreProgram Unit :=
  promotePermission referenceGrants editor tokenTarget .get tokenGranted 10 (.service .grantStorage)

def tokenGrant : AccessGrant :=
  newGrant (editor.fingerprint referenceGrants.sha256) (tokenTarget.digest referenceGrants.sha256) .get none false

/-- What is hashed to look the request up. -/
def tokenInputs : List Bytes :=
  (tokenCandidate.requirement.targets.map (GrantTarget.digestInput referenceGrants.sha256) ++
    [(SecretAddress.secretSpec shopToken).keyInput, registryEntry.keyInput]) ++
    (tokenCandidate.requirement.lookups referenceGrants editor).map SecretAddress.keyInput

theorem calls_promoteToken : promoteToken.Calls (Command.Orderly referenceGrants fun _ _ => True) :=
  calls_promotePermission fun _ _ h => by cases h

theorem injOn_tokenInputs : Set.InjOn referenceGrants.sha256 {input | input ∈ tokenInputs} := fun _ ha _ hb h =>
  List.inj_on_of_nodup_map (by decide +kernel) ha hb h

theorem within_token : tokenCandidate.requirement.Within referenceGrants thisDevice {input | input ∈ tokenInputs}
    (after referenceGrants thisDevice promoteToken) editor := by
  have hlookups : ∀ address ∈ tokenCandidate.requirement.lookups referenceGrants editor ++
      (after referenceGrants thisDevice promoteToken).addresses referenceVault thisDevice .authorization
        grantDocumentNamespace, address.keyInput ∈ tokenInputs := by decide +kernel
  have htargets : ∀ target ∈ tokenCandidate.requirement.targets, (∀ part ∈ target.parts, part.length < 2 ^ 64) ∧
      (∀ address ∈ target.address, address.validate = .ok ()) ∧
      target.digestInput referenceGrants.sha256 ∈ tokenInputs ∧
      ∀ address ∈ target.address, address.keyInput ∈ tokenInputs := by decide +kernel
  constructor
  · rintro input ⟨address, haddress, rfl⟩
    exact hlookups address haddress
  · intro target htarget
    obtain ⟨hparts, haddress, hrest⟩ := htargets target htarget
    exact ⟨⟨hparts, haddress⟩, hrest⟩

theorem grants_token : (after referenceGrants thisDevice promoteToken).Grants referenceGrants thisDevice
    tokenGrant := by
  let address := grantEntry (editor.fingerprint referenceGrants.sha256) (tokenTarget.digest referenceGrants.sha256) .get
  have hrecords : ((after referenceGrants thisDevice promoteToken).records referenceVault thisDevice
      .authorization grantDocumentNamespace (address.storageKey referenceVault.sha256)).map
      (fun r => (r.address, r.value)) = [(address, referenceGrants.grantJson.encode tokenGrant)] := by decide +kernel
  obtain ⟨record, hrecord, hmade⟩ := List.mem_map.1 (hrecords ▸ List.mem_singleton_self _)
  obtain ⟨haddress, hvalue⟩ := Prod.mk.inj hmade
  exact ⟨_, record, hrecord, ⟨_, _, _, haddress⟩, by rw [hvalue, referenceGrants.grantJson.decode_encode]⟩

end Reference

/-- The editor's request is let through. -/
theorem grant_check_iff_token : ∃ e, (requireGrantUntil referenceGrants Reference.editor
    Reference.tokenCandidate.requirement 12).run ((PlainVault.ops referenceVault Reference.thisDevice).execute referenceVault
      Reference.thisDevice) (PlainVault.after referenceGrants Reference.thisDevice Reference.promoteToken) =
    (.ok e, PlainVault.after referenceGrants Reference.thisDevice Reference.promoteToken) := by
  obtain ⟨-, hallowed⟩ := grant_check_iff calls_promoteToken injOn_tokenInputs editor
    Reference.tokenCandidate.requirement 12 within_token
  refine (hallowed _ grants_token ⟨rfl, by decide, rfl, tokenTarget, ?_, rfl⟩).1 rfl
  exact mem_targets.1 (by decide)

/-! ## Entries -/

/-- `applies_to_entry`. -/
def Permission.appliesToEntry (permission : Permission) (entry : VaultEntryMetadata) : Bool :=
  permission.scope = some entry.documentKind && match permission.target with
    | some .documentKind => true
    | some (.wholeNamespace partition) => partition = entry.partition
    | some (.entry partition address) => partition = entry.partition && address = entry.address
    | some (.projectEntry partition address project _) => address = entry.address &&
      if entry.documentKind = .linuxSecretService then entry.accessProject = some project && partition = utf8 project
      else partition = entry.partition
    | some (.project partition project _) =>
      if entry.documentKind = .linuxSecretService then entry.accessProject = some project && partition = utf8 project
      else partition = entry.partition && match entry.address with
        | .secretSpec address => address.project.all (· = project)
        | .local _ _ => false
    | none => false

/-- A request for the entry from a folder, as the service checks it: a cache action is about an address of the project
in whose partition the entry is, and a keyring request names the service of the item, which the listing shows as its
project. -/
inductive VaultEntryMetadata.Asked (entry : VaultEntryMetadata) (caller : CallerIdentity)
    (operation : PermissionOperation) : Option String → GrantRequirement → Prop
  | cache (context : ActionContext) (project : String) (address : SecretSpecAddress)
    (scope : context.scope = .secretSpecProviderCache) (kind : entry.documentKind = .secretSpecProviderCache)
    (partition : entry.partition = utf8 project) (named : entry.address = .secretSpec address) :
    Asked entry caller operation context.baseDir (context.onProject project (some entry.address) operation.permission)
  | keyring (service baseDir : String) (kind : entry.documentKind = .linuxSecretService)
    (project : entry.accessProject = some (FactorSeal.accessProject service).1) :
    Asked entry caller operation (some baseDir)
      (ApprovalCandidate.forKeyring caller service (some entry.address) baseDir operation).requirement

/-- The candidates that approvals are made for. -/
inductive ApprovalCandidate.Requested : ApprovalCandidate → Prop
  | keyring (caller : CallerIdentity) (service : String) (address : SecretAddress) (baseDir : String)
    (operation : PermissionOperation) : Requested (.forKeyring caller service (some address) baseDir operation)
  | cache {caller : CallerIdentity} {application : Option VaultApplicationContext} {action : VaultAction}
    {candidate : ApprovalCandidate} (h : ApprovalCandidate.forRequest caller application action = some candidate) : Requested candidate

namespace PendingApprovals.Approved

/-- The permission as `promote_permission` lists it. -/
def listed (a : Approved) : Permission := { a.granted with scope := some a.target.scope, target := some a.target.summary }

/-- The grant it stores. -/
def grant (env : GrantEnv) (a : Approved) (expiresAt : Option UInt64) (singleUse : Bool) : AccessGrant :=
  newGrant (a.caller.fingerprint env.sha256) (a.target.digest env.sha256) a.permission expiresAt singleUse

end PendingApprovals.Approved

/-- The grant is what authorises the request: `find_grant` accepts it, and so finds one. -/
def PlainVault.Authorises (env : GrantEnv) (device : Device) (v : PlainVault) (caller : CallerIdentity)
    (r : GrantRequirement) (now : UInt64) (grant : AccessGrant) : Prop :=
  (∃ digest, (digest, grant) ∈ v.met env device caller r now) ∧ ∃ found, found ≠ .none ∧
    (findGrant env caller r now).run ((ops env.toVaultEnv device).execute env.toVaultEnv device) v =
      (.ok found, v)

theorem authorises_iff {env : GrantEnv} {device : Device} {v : PlainVault} {caller : CallerIdentity}
    {r : GrantRequirement} {now : UInt64} {grant : AccessGrant} (hbook : Book env device v)
    (hash : Set.InjOn env.sha256 (lookupInputs env device v (r.lookups env caller)))
    (hgrant : v.Grants env device grant) :
    v.Authorises env device caller r now grant ↔ grant.Allows env caller r now := by
  constructor
  · rintro ⟨hmet, -⟩
    exact ((mem_met hbook hash).1 hmet).2
  · intro hallows
    have hmet := (mem_met hbook hash).2 ⟨hgrant, hallows⟩
    refine ⟨hmet, ?_⟩
    rcases lookup_of_book hbook hash now with ⟨-, hnone⟩ | hlookup
    · exact absurd hgrant (hnone grant)
    · obtain ⟨digest, hmet⟩ := hmet
      exact ⟨_, choose_ne_none (.inr <| List.ne_nil_of_mem hmet), by rw [run_findGrant, hlookup]⟩

/-- What a candidate asks for. -/
theorem ApprovalCandidate.Requested.cases (h : candidate.Requested) (haddress : candidate.address = some address)
    (hproject : candidate.application.project = some project) :
    candidate.partition = utf8 project ∧ candidate.permission = candidate.operation.permission ∧
      ((candidate.scope = .linuxSecretService ∧ ∃ service baseDir, (accessProject service).1 = project ∧
          candidate.application.baseDir = some baseDir) ∨
        candidate.scope = .secretSpecProviderCache ∧ ∃ named, address = .secretSpec named ∧
          ∀ other ∈ named.project, other = project) := by
  cases h with
  | keyring caller service address baseDir operation =>
    obtain rfl := Option.some.inj hproject
    exact ⟨rfl, rfl, .inl ⟨rfl, service, baseDir, rfl, rfl⟩⟩
  | @cache caller application action _ h =>
    have hcache : ∀ {application requested named operation expiring},
        forCache caller application requested named operation expiring = some candidate →
        candidate.partition = utf8 project ∧ candidate.permission = candidate.operation.permission ∧
          candidate.scope = .secretSpecProviderCache ∧ ∃ named, address = .secretSpec named ∧
            ∀ other ∈ named.project, other = project := by
      intro application requested named operation expiring hmade
      unfold forCache at hmade
      split at hmade
      next hown =>
        split at hmade
        next resolved hresolved =>
          obtain rfl := Option.some.inj hmade
          simp only [SecretAddress.newSecretSpec, bind_eq_ok] at hresolved
          obtain ⟨⟨⟩, -, hresolved⟩ := hresolved
          obtain rfl : resolved = address := Option.some.inj haddress
          obtain rfl : requested = project := Option.some.inj (hown.1.symm.trans hproject)
          exact ⟨rfl, rfl, rfl, named, (Except.ok.inj hresolved).symm, hown.2⟩
        next => cases hmade
      next => cases hmade
    obtain ⟨made, -, h⟩ := Option.bind_eq_some_iff.1 h
    split at h
    · exact ⟨(hcache h).1, (hcache h).2.1, .inr (hcache h).2.2⟩
    · exact ⟨(hcache h).1, (hcache h).2.1, .inr (hcache h).2.2⟩
    · exact ⟨(hcache h).1, (hcache h).2.1, .inr (hcache h).2.2⟩
    · cases h

/-- What a record of the candidate is approved as. -/
theorem approved_newRecord {env : ServiceEnv}
    {fresh : Vector UInt8 16 × Digest} {createdAt expiry : UInt64} {monotonicNow : Instant} {signature : Bytes}
    {lifetime : ApprovedLifetime} {grantedAt : UInt64} {a : PendingApprovals.Approved}
    (haddress : candidate.address = some address) (hproject : candidate.application.project = some project)
    (h : approved env
      (newRecord candidate address project fresh createdAt expiry monotonicNow) signature lifetime
      grantedAt = .ok a) : a.caller = candidate.caller ∧ a.permission = candidate.permission ∧ a.target =
      .projectEntry candidate.scope candidate.partition address project candidate.application.baseDir := by
  simp only [approved, newRecord, hproject, haddress, ofOption_some, ok_bind,
    bind_eq_ok] at h
  obtain ⟨⟨⟩, -, ⟨⟩, -, h⟩ := h
  split at h
  · rw [bind_eq_ok] at h
    obtain ⟨expiresAt, -, h⟩ := h
    cases h
    exact ⟨rfl, rfl, rfl⟩
  · cases h
    exact ⟨rfl, rfl, rfl⟩

/-- **The view of an entry tells who may access it.** In every vault the service can have, an approved permission whose
grant is stored and live is shown as applying to an entry if and only if there is a folder from which the grant
authorises its caller's request for the entry. -/
theorem applies_iff_authorised {env : ServiceEnv} {device : Device} {α : Type} {p : StoreProgram α}
    (hp : p.Calls (Command.Orderly env.toGrantEnv fun _ _ => True)) {hashes : Set Bytes}
    (hinj : Set.InjOn env.sha256 hashes) {candidate : ApprovalCandidate} (hcandidate : candidate.Requested)
    {address : SecretAddress} {project : String} (haddress : candidate.address = some address)
    (hproject : candidate.application.project = some project)
    (hr : candidate.requirement.Within env.toGrantEnv device hashes (PlainVault.after env.toGrantEnv device p)
      candidate.caller)
    {fresh : Vector UInt8 16 × Digest} {createdAt expiry grantedAt : UInt64} {monotonicNow : Instant} {signature : Bytes}
    {lifetime : ApprovedLifetime} {a : PendingApprovals.Approved}
    (ha : PendingApprovals.approved env
      (PendingApprovals.newRecord candidate address project fresh createdAt expiry monotonicNow) signature lifetime
      grantedAt = .ok a)
    {expiresAt : Option UInt64} {singleUse : Bool}
    (hgrant : (PlainVault.after env.toGrantEnv device p).Grants env.toGrantEnv device
      (a.grant env.toGrantEnv expiresAt singleUse))
    {now : UInt64} (hlive : isLive now expiresAt = true) (entry : VaultEntryMetadata) :
    a.listed.appliesToEntry entry = true ↔ ∃ baseDir r, entry.Asked a.caller candidate.operation baseDir r ∧
      r.Within env.toGrantEnv device hashes (PlainVault.after env.toGrantEnv device p) a.caller ∧
      (PlainVault.after env.toGrantEnv device p).Authorises env.toGrantEnv device a.caller r now
        (a.grant env.toGrantEnv expiresAt singleUse) := by
  have hbook : Book env.toGrantEnv device (after env.toGrantEnv device p) := Book.create.run hp
  obtain ⟨hcaller, hpermission, htarget⟩ := approved_newRecord haddress hproject ha
  obtain ⟨hpartition, hoperation, hkinds⟩ := hcandidate.cases haddress hproject
  have hrequirement : candidate.requirement = ⟨candidate.scope, some candidate.partition, some address, some project,
      candidate.application.baseDir, candidate.operation.permission⟩ := by
    rw [ApprovalCandidate.requirement, haddress, hproject, hoperation]
  have hcovers : a.target.Covers candidate.requirement := by
    rw [htarget, hrequirement]
    refine ⟨⟨rfl, rfl, rfl, rfl, rfl⟩, fun named hnamed => ?_⟩
    obtain rfl := Option.some.inj hnamed
    rcases hkinds with ⟨hscope, -⟩ | ⟨-, other, rfl, hother⟩
    · cases address with
      | «local» item field => exact hscope
      | secretSpec address => exact .inl hscope
    · exact .inr hother
  have hshown : a.listed.appliesToEntry entry = true ↔ candidate.scope = entry.documentKind ∧ address = entry.address ∧
      if entry.documentKind = .linuxSecretService then entry.accessProject = some project
      else candidate.partition = entry.partition := by
    simp only [Permission.appliesToEntry, Approved.listed, htarget, GrantTarget.scope,
      GrantTarget.summary, hpartition]
    by_cases hkind : entry.documentKind = .linuxSecretService <;> simp [hkind]
  rw [hshown]
  constructor
  · rintro ⟨hkind, rfl, hentry⟩
    have hallows : (a.grant env.toGrantEnv expiresAt singleUse).Allows env.toGrantEnv a.caller candidate.requirement now :=
      ⟨rfl, by rw [Approved.grant, hpermission]; exact Finset.mem_singleton_self _, hlive, a.target,
        hcovers, rfl⟩
    have hauthorises := (authorises_iff hbook (hinj.mono (hcaller ▸ hr).lookups) hgrant).2 hallows
    refine ⟨candidate.application.baseDir, candidate.requirement, ?_, hcaller ▸ hr, hauthorises⟩
    rw [hrequirement, hpartition]
    rcases hkinds with ⟨hscope, service, baseDir, rfl, hbase⟩ | ⟨hscope, named, hnamed, -⟩
    · rw [if_pos (hkind.symm.trans hscope)] at hentry
      rw [hscope, hbase]
      exact .keyring service baseDir (hkind.symm.trans hscope) hentry
    · have hcache : entry.documentKind = .secretSpecProviderCache := hkind.symm.trans hscope
      rw [if_neg (by rw [hcache]; decide)] at hentry
      rw [hscope]
      exact .cache ⟨a.caller, .secretSpecProviderCache, fun _ => (now, 0), .service .grantStorage,
        candidate.application.baseDir⟩ project named rfl hcache (hentry.symm.trans hpartition) hnamed
  · rintro ⟨baseDir, r, hasked, hwithin, hauthorises⟩
    have hallows := (authorises_iff hbook (hinj.mono hwithin.lookups) hgrant).1 hauthorises
    obtain ⟨hvalid, hinput, hkeys⟩ := hr.targets a.target (mem_targets.2 hcovers)
    obtain ⟨hnames, -⟩ := hallows.covers_of_digest hinj hwithin hvalid hinput hkeys rfl
    rw [htarget] at hnames
    obtain ⟨hscope, hpart, hentry, hnamed, -⟩ := hnames
    cases hasked with
    | cache context requested named hcontext hkind hrequested hlocal =>
      refine ⟨hscope.trans (hcontext.trans hkind.symm), Option.some.inj hentry.symm, ?_⟩
      rw [if_neg (by rw [hkind]; decide), hrequested]
      exact (Option.some.inj hpart).symm
    | keyring service folder hkind hlisted =>
      refine ⟨hscope.trans hkind.symm, Option.some.inj hentry.symm, ?_⟩
      rw [if_pos hkind, hlisted]
      exact hnamed

namespace Reference

def tokenEntry : VaultEntryMetadata :=
  ⟨none, none, none, none, none, none, false, .secretSpecProviderCache, utf8 "shop", .secretSpec shopToken⟩

end Reference

/-- The editor's permission is shown at the token, and from no folder in particular it opens it. -/
theorem applies_iff_authorised_token : ∃ baseDir r, Reference.tokenEntry.Asked Reference.editor .get baseDir r ∧
    (PlainVault.after referenceGrants Reference.thisDevice Reference.promoteToken).Authorises referenceGrants
      Reference.thisDevice Reference.editor r 12 Reference.tokenGrant := by
  have hcandidate : Reference.tokenCandidate.Requested :=
    @ApprovalCandidate.Requested.cache editor (some (shopContext none))
      (.getCache "shop" shopToken) _ (by decide)
  obtain ⟨baseDir, r, hasked, -, hauthorises⟩ := (@applies_iff_authorised referenceService thisDevice _ _
    calls_promoteToken _ injOn_tokenInputs _ hcandidate _ _ rfl rfl within_token
    (Vector.replicate 16 1, Vector.replicate 32 2) 10 20 10 0
    (permissionPayload tokenGranted.id (Vector.replicate 32 2) none false) ⟨none, false⟩
    ⟨editor, tokenTarget, .get, tokenGranted⟩ (by decide +kernel) none false
    grants_token 12 rfl tokenEntry).1 (by decide)
  exact ⟨baseDir, r, hasked, hauthorises⟩

end FactorSeal

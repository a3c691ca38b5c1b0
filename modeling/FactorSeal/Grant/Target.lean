import FactorSeal.Vault.Document
import FactorSeal.Vault.Keys
import Mathlib.Data.Finset.Basic

/-! # Callers and the targets of their grants (protocol/wire.rs:46-153, protocol/grant.rs:20-145, 786-881)

A grant is filed under three things: the fingerprint of the caller, the digest of the target and the permission. The
digest hashes an encoding of five shapes of target, told apart by a tag and length prefixes (`GrantTarget.digest_inj`);
the fingerprint hashes the fields of the caller (`CallerIdentity.fingerprint_inj`). -/

namespace FactorSeal

open Wire Except List

/-! ## Callers -/

inductive CallerPlatform where
  | android
  | ios
  | linux
  | macos
  | windows
deriving DecidableEq, Repr

def CallerPlatform.tag : CallerPlatform → UInt8
  | android => 4
  | ios => 5
  | linux => 1
  | macos => 2
  | windows => 3

structure CallerIdentity where
  platform : CallerPlatform
  userId : String
  applicationId : String
  executableDigest : Digest
  signerId : Option String
deriving DecidableEq, Repr

/-- `MAX_IDENTITY_COMPONENT_BYTES`. -/
def maxIdentityComponentBytes : Nat := 4 * 1024

/-- wire.rs:1458-1465. -/
def validateIdentityComponent (name value : String) : VaultResult Unit :=
  ensure (¬ value.isEmpty ∧ value.utf8ByteSize ≤ maxIdentityComponentBytes)
    (.protocol s!"caller {name} is empty or too long")

namespace CallerIdentity

/-- wire.rs:142-149. -/
def validate (caller : CallerIdentity) : VaultResult Unit := do
  validateIdentityComponent "user ID" caller.userId
  validateIdentityComponent "application ID" caller.applicationId
  match caller.signerId with
  | some signerId => validateIdentityComponent "signer ID" signerId
  | none => return ()

/-- What `fingerprint` hashes (wire.rs:120-140). -/
def fingerprintInput (caller : CallerIdentity) : Bytes :=
  utf8 "factorseal/caller-identity/v1\x00" ++ caller.platform.tag ::
    (framed (utf8 caller.userId) ++ framed (utf8 caller.applicationId) ++ caller.executableDigest.toList ++
      match caller.signerId with
      | some signerId => 1 :: framed (utf8 signerId)
      | none => [0])

def fingerprint (sha256 : Bytes → Digest) (caller : CallerIdentity) : Digest := sha256 caller.fingerprintInput

end CallerIdentity

/-! ## Permissions and targets -/

inductive GrantPermission where
  | list
  | get
  | put
  | delete
  | clear
  | sealVault
  | managePermissions
deriving DecidableEq, Repr

namespace GrantPermission

/-- In the order a `BTreeSet` goes through them. -/
def all : List GrantPermission := [list, get, put, delete, clear, sealVault, managePermissions]

theorem mem_all (p : GrantPermission) : p ∈ all := by
  cases p <;> decide

/-- `permission_name`. -/
def name : GrantPermission → String
  | list => "list"
  | get => "get"
  | put => "put"
  | delete => "delete"
  | clear => "clear"
  | sealVault => "seal"
  | managePermissions => "manage-permissions"

end GrantPermission

/-- grant.rs:80-107. -/
inductive GrantTarget where
  | kind (kind : DocumentKind)
  | wholeNamespace (scope : DocumentKind) (partition : Bytes)
  | entry (scope : DocumentKind) (partition : Bytes) (address : SecretAddress)
  | projectEntry (scope : DocumentKind) (partition : Bytes) (address : SecretAddress) (project : String)
    (baseDir : Option String)
  | project (scope : DocumentKind) (partition : Bytes) (project : String) (baseDir : Option String)
deriving DecidableEq, Repr

/-- `document_kind_tag`. -/
def DocumentKind.tag : DocumentKind → UInt8
  | authorization => 1
  | linuxSecretService => 2
  | localKeyring => 3
  | secretSpecProject => 4
  | secretSpecProviderCache => 5
  | networkManagerWifi => 6

theorem DocumentKind.tag_inj {j k : DocumentKind} (h : j.tag = k.tag) : j = k := by
  revert h
  cases j <;> cases k <;> decide

namespace GrantTarget

/-- The end of a project target: the project, and the folder if there is one. -/
def projectBytes (project : String) (baseDir : Option String) : Bytes :=
  framed (utf8 project) ++ match baseDir with
    | some baseDir => framed (utf8 baseDir)
    | none => []

/-- What follows the domain label in the hash (grant.rs:786-842). -/
def digestBytes (sha256 : Bytes → Digest) : GrantTarget → Bytes
  | .kind k => [0, k.tag]
  | .wholeNamespace scope partition => 1 :: scope.tag :: framed partition
  | .entry scope partition address =>
    2 :: scope.tag :: (framed partition ++ framed (utf8 (address.storageKey sha256)))
  | .projectEntry scope partition address name baseDir =>
    (if baseDir.isSome then 6 else 5) :: scope.tag ::
      (framed partition ++ (framed (utf8 (address.storageKey sha256)) ++ projectBytes name baseDir))
  | .project scope partition name baseDir =>
    (if baseDir.isSome then 4 else 3) :: scope.tag :: (framed partition ++ projectBytes name baseDir)

/-- What `grant_target_digest` hashes. -/
def digestInput (sha256 : Bytes → Digest) (target : GrantTarget) : Bytes :=
  utf8 "factorseal/grant-target/v3\x00" ++ target.digestBytes sha256

/-- `grant_target_digest`. -/
def digest (sha256 : Bytes → Digest) (target : GrantTarget) : Digest := sha256 (target.digestInput sha256)

/-- `promote_permission`'s `permission.scope`. -/
def scope : GrantTarget → DocumentKind
  | .kind k => k
  | .wholeNamespace scope _ => scope
  | .entry scope _ _ => scope
  | .projectEntry scope _ _ _ _ => scope
  | .project scope _ _ _ => scope

/-- The address a target names. -/
def address : GrantTarget → Option SecretAddress
  | .entry _ _ address => some address
  | .projectEntry _ _ address _ _ => some address
  | _ => none

/-- The byte strings of a target: its partition, project and folder. -/
def parts : GrantTarget → List Bytes
  | .kind _ => []
  | .wholeNamespace _ partition => [partition]
  | .entry _ partition _ => [partition]
  | .projectEntry _ partition _ name baseDir => [partition, utf8 name] ++ (baseDir.map utf8).toList
  | .project _ partition name baseDir => [partition, utf8 name] ++ (baseDir.map utf8).toList

/-- A target a 64-bit machine can hold, with an address that passed `validate`. -/
structure Valid (target : GrantTarget) : Prop where
  parts : ∀ part ∈ target.parts, part.length < 2 ^ 64
  address : ∀ address ∈ target.address, address.validate = .ok ()

end GrantTarget

/-! ## The digest tells targets apart -/

theorem length_base64Url : ∀ s : Bytes, (base64Url s).length = (4 * s.length + 2) / 3
  | [] => by simp [base64Url]
  | [_] => by simp [base64Url]
  | [_, _] => by simp [base64Url]
  | a :: b :: c :: rest => by
    have hrest := length_base64Url rest
    simp only [base64Url, length_cons]
    omega

theorem base64Char_utf8Size (n : Nat) : (base64Char n).utf8Size = 1 := by
  have hascii : ∀ m, m < 128 → (Char.ofNat m).utf8Size = 1 := by decide +kernel
  unfold base64Char
  by_cases h₁ : n < 26
  · rw [if_pos h₁]
    exact hascii _ (by omega)
  · by_cases h₂ : n < 52
    · rw [if_neg h₁, if_pos h₂]
      exact hascii _ (by omega)
    · by_cases h₃ : n < 62
      · rw [if_neg h₁, if_neg h₂, if_pos h₃]
        exact hascii _ (by omega)
      · rw [if_neg h₁, if_neg h₂, if_neg h₃]
        split <;> rfl

theorem utf8ByteSize_base64Url : ∀ s : Bytes, (String.ofList (base64Url s)).utf8ByteSize = (base64Url s).length
  | [] => rfl
  | [_] => by simp [base64Url, base64Char_utf8Size]
  | [_, _] => by simp [base64Url, base64Char_utf8Size]
  | a :: b :: c :: rest => by
    have hrest := utf8ByteSize_base64Url rest
    simp only [base64Url, String.ofList_cons, String.utf8ByteSize_append, String.utf8ByteSize_singleton,
      base64Char_utf8Size, length_cons]
    omega

/-- The name of a digest in an address or a key. -/
def digestName (digest : Digest) : String := String.ofList (base64Url digest.toList)

theorem length_base64Url_digest (digest : Digest) : (base64Url digest.toList).length = 43 := by
  simp [length_base64Url]

theorem utf8ByteSize_digestName (digest : Digest) : (digestName digest).utf8ByteSize = 43 := by
  rw [digestName, utf8ByteSize_base64Url, length_base64Url_digest]

theorem length_storageKey_lt (sha256 : Bytes → Digest) (address : SecretAddress) :
    (utf8 (address.storageKey sha256)).length < 2 ^ 64 := by
  rw [length_utf8]
  exact (utf8ByteSize_digestName _).trans_lt (by decide)

namespace GrantTarget

variable {sha256 : Bytes → Digest}

theorem projectBytes_inj {p q : String} {a b : Option String} (hp : ∀ part ∈ utf8 p :: (a.map utf8).toList, part.length < 2 ^ 64)
    (hq : ∀ part ∈ utf8 q :: (b.map utf8).toList, part.length < 2 ^ 64) (hsome : a.isSome = b.isSome)
    (h : projectBytes p a = projectBytes q b) : p = q ∧ a = b := by
  unfold projectBytes at h
  obtain ⟨hproject, h⟩ := framed_append_inj (hp _ mem_cons_self) (hq _ mem_cons_self) h
  refine ⟨utf8_inj hproject, ?_⟩
  obtain _ | a := a <;> obtain _ | b := b
  · rfl
  · cases hsome
  · cases hsome
  · have h' : framed (utf8 a) ++ [] = framed (utf8 b) ++ [] := by
      rw [append_nil, append_nil]
      exact h
    rw [utf8_inj (framed_append_inj (hp _ (by simp)) (hq _ (by simp)) h').1]

/-- The hash inputs of the addresses in two targets. -/
def keyInputs (t u : GrantTarget) : Set Bytes :=
  {input | ∃ address, (address ∈ t.address ∨ address ∈ u.address) ∧ input = address.keyInput}

/-- Two targets with one encoding are one target, or the storage keys of their addresses collide. -/
theorem digestBytes_inj {t u : GrantTarget} (ht : t.Valid) (hu : u.Valid) (hash : Set.InjOn sha256 (keyInputs t u))
    (h : t.digestBytes sha256 = u.digestBytes sha256) : t = u := by
  have hkey : ∀ a ∈ t.address, ∀ b ∈ u.address,
      utf8 (a.storageKey sha256) = utf8 (b.storageKey sha256) → a = b := by
    intro a ha b hb hab
    refine SecretAddress.storageKey_inj (ht.address a ha) (hu.address b hb) (hash.mono ?_) (utf8_inj hab)
    rintro _ (rfl | rfl)
    · exact ⟨a, .inl ha, rfl⟩
    · exact ⟨b, .inr hb, rfl⟩
  have htp := ht.parts
  have hup := hu.parts
  cases t with
  | kind k =>
    cases u with
    | kind k' =>
      simp only [digestBytes, List.cons.injEq, true_and, and_true] at h
      rw [DocumentKind.tag_inj h]
    | _ => grind [digestBytes]
  | wholeNamespace s n =>
    cases u with
    | wholeNamespace s' n' =>
      simp only [digestBytes, List.cons.injEq, true_and] at h
      obtain ⟨hscope, h⟩ := h
      have h' : framed n ++ [] = framed n' ++ [] := by rw [h]
      rw [DocumentKind.tag_inj hscope, (framed_append_inj (htp n mem_cons_self) (hup n' mem_cons_self) h').1]
    | _ => grind [digestBytes]
  | entry s n a =>
    cases u with
    | entry s' n' a' =>
      simp only [digestBytes, List.cons.injEq, true_and] at h
      obtain ⟨hscope, h⟩ := h
      obtain ⟨hpartition, h⟩ := framed_append_inj (htp n mem_cons_self) (hup n' mem_cons_self) h
      have h' : framed (utf8 (a.storageKey sha256)) ++ [] = framed (utf8 (a'.storageKey sha256)) ++ [] := by rw [h]
      have haddress := (framed_append_inj (length_storageKey_lt _ _) (length_storageKey_lt _ _) h').1
      rw [DocumentKind.tag_inj hscope, hpartition, hkey a rfl a' rfl haddress]
    | _ => grind [digestBytes]
  | projectEntry s n a p b =>
    cases u with
    | projectEntry s' n' a' p' b' =>
      simp only [digestBytes, List.cons.injEq] at h
      obtain ⟨htag, hscope, h⟩ := h
      have hsome : b.isSome = b'.isSome := by grind
      obtain ⟨hpartition, h⟩ := framed_append_inj (htp n mem_cons_self) (hup n' mem_cons_self) h
      obtain ⟨haddress, h⟩ := framed_append_inj (length_storageKey_lt _ _) (length_storageKey_lt _ _) h
      obtain ⟨hproject, hdir⟩ := projectBytes_inj (fun _ hpart => htp _ (mem_cons_of_mem _ hpart))
        (fun _ hpart => hup _ (mem_cons_of_mem _ hpart)) hsome h
      rw [DocumentKind.tag_inj hscope, hpartition, hkey a rfl a' rfl haddress, hproject, hdir]
    | _ => grind [digestBytes]
  | project s n p b =>
    cases u with
    | project s' n' p' b' =>
      simp only [digestBytes, List.cons.injEq] at h
      obtain ⟨htag, hscope, h⟩ := h
      have hsome : b.isSome = b'.isSome := by grind
      obtain ⟨hpartition, h⟩ := framed_append_inj (htp n mem_cons_self) (hup n' mem_cons_self) h
      obtain ⟨hproject, hdir⟩ := projectBytes_inj (fun _ hpart => htp _ (mem_cons_of_mem _ hpart))
        (fun _ hpart => hup _ (mem_cons_of_mem _ hpart)) hsome h
      rw [DocumentKind.tag_inj hscope, hpartition, hproject, hdir]
    | _ => grind [digestBytes]

/-- Everything that is hashed to compare two targets. -/
def hashed (sha256 : Bytes → Digest) (t u : GrantTarget) : Set Bytes :=
  {t.digestInput sha256, u.digestInput sha256} ∪ keyInputs t u

/-- Two targets with one digest are one target, or the hash collides on what was hashed for them. -/
theorem digest_inj {t u : GrantTarget} (ht : t.Valid) (hu : u.Valid) (hash : Set.InjOn sha256 (hashed sha256 t u))
    (h : t.digest sha256 = u.digest sha256) : t = u := by
  have hinput : t.digestInput sha256 = u.digestInput sha256 := hash (by simp [hashed]) (by simp [hashed]) h
  exact digestBytes_inj ht hu (hash.mono Set.subset_union_right) (append_cancel_left hinput)

end GrantTarget

/-! ## The fingerprint tells callers apart -/

namespace CallerIdentity

theorem validateIdentityComponent_eq_ok {name value : String} (h : validateIdentityComponent name value = .ok ()) :
    (utf8 value).length < 2 ^ 64 := by
  have hsize : value.utf8ByteSize ≤ maxIdentityComponentBytes := (ensure_eq_ok.1 h).2
  rw [length_utf8]
  exact hsize.trans_lt (by decide)

/-- The components of a caller that passed `validate` have lengths that fit their length fields. -/
theorem validate_eq_ok {caller : CallerIdentity} (h : caller.validate = .ok ()) :
    (utf8 caller.userId).length < 2 ^ 64 ∧ (utf8 caller.applicationId).length < 2 ^ 64 ∧
      ∀ signerId ∈ caller.signerId, (utf8 signerId).length < 2 ^ 64 := by
  simp only [validate, bind_eq_ok] at h
  obtain ⟨⟨⟩, huser, ⟨⟩, happlication, h⟩ := h
  refine ⟨validateIdentityComponent_eq_ok huser, validateIdentityComponent_eq_ok happlication, fun signerId hsigner => ?_⟩
  rw [Option.mem_def.1 hsigner] at h
  exact validateIdentityComponent_eq_ok h

theorem fingerprintInput_inj {c d : CallerIdentity} (hc : c.validate = .ok ()) (hd : d.validate = .ok ())
    (h : c.fingerprintInput = d.fingerprintInput) : c = d := by
  obtain ⟨hcuser, hcapplication, hcsigner⟩ := validate_eq_ok hc
  obtain ⟨hduser, hdapplication, hdsigner⟩ := validate_eq_ok hd
  obtain ⟨cplatform, cuser, capplication, cdigest, csigner⟩ := c
  obtain ⟨dplatform, duser, dapplication, ddigest, dsigner⟩ := d
  simp only [fingerprintInput, append_assoc] at h
  obtain ⟨hplatform, h⟩ := List.cons.inj (append_cancel_left h)
  obtain ⟨huser, h⟩ := framed_append_inj hcuser hduser h
  obtain ⟨happlication, h⟩ := framed_append_inj hcapplication hdapplication h
  obtain ⟨hdigest, h⟩ := append_inj h (by simp)
  have hplatform : cplatform = dplatform := by
    revert hplatform
    cases cplatform <;> cases dplatform <;> decide
  have hsigner : csigner = dsigner := by
    cases csigner with
    | none =>
      cases dsigner with
      | none => rfl
      | some signer => simp at h
    | some signer =>
      cases dsigner with
      | none => simp at h
      | some other =>
        have h' : framed (utf8 signer) ++ [] = framed (utf8 other) ++ [] := by
          rw [append_nil, append_nil]
          exact (List.cons.inj h).2
        rw [utf8_inj (framed_append_inj (hcsigner signer rfl) (hdsigner other rfl) h').1]
  have huser : cuser = duser := utf8_inj huser
  have happlication : capplication = dapplication := utf8_inj happlication
  rw [hplatform, huser, happlication, Vector.toList_inj.1 hdigest, hsigner]

/-- Two callers with one fingerprint are one caller, or the hash collides on them. -/
theorem fingerprint_inj {sha256 : Bytes → Digest} {c d : CallerIdentity} (hc : c.validate = .ok ())
    (hd : d.validate = .ok ()) (hash : Set.InjOn sha256 {c.fingerprintInput, d.fingerprintInput})
    (h : c.fingerprint sha256 = d.fingerprint sha256) : c = d :=
  fingerprintInput_inj hc hd (hash (by simp) (by simp) h)

end CallerIdentity

/-! ## Where grants are filed -/

/-- The item name of a grant (grant.rs:855-869). -/
def grantItem (fingerprint target : Digest) (permission : GrantPermission) : String :=
  "grant/" ++ digestName fingerprint ++ "/" ++ digestName target ++ "/" ++ permission.name

/-- `grant_address`. -/
def grantAddress (fingerprint target : Digest) (permission : GrantPermission) : VaultResult SecretAddress :=
  SecretAddress.newLocal (grantItem fingerprint target permission) none

theorem grantItem_validate (fingerprint target : Digest) (permission : GrantPermission) :
    (SecretAddress.local (grantItem fingerprint target permission) none).validate = .ok () := by
  have hsize : (grantItem fingerprint target permission).utf8ByteSize =
      6 + (digestName fingerprint).utf8ByteSize + 1 + (digestName target).utf8ByteSize + 1 +
        permission.name.utf8ByteSize := by
    simp only [grantItem, String.utf8ByteSize_append]
    rfl
  have hname : permission.name.utf8ByteSize ≤ 18 := by
    cases permission <;> decide
  have hfingerprint := utf8ByteSize_digestName fingerprint
  have htarget := utf8ByteSize_digestName target
  have hcomponent : validateAddressComponent "item" (grantItem fingerprint target permission) = .ok () := by
    unfold validateAddressComponent maxAddressComponentBytes
    rw [if_neg, if_neg]
    · omega
    · rw [String.isEmpty, beq_iff_eq]
      omega
  simp only [SecretAddress.validate, hcomponent, ok_bind]
  rfl

theorem grantAddress_eq (fingerprint target : Digest) (permission : GrantPermission) :
    grantAddress fingerprint target permission = .ok (.local (grantItem fingerprint target permission) none) := by
  rw [grantAddress, SecretAddress.newLocal, grantItem_validate]
  rfl

/-! ## The address tells grants apart -/

theorem grantItem_inj {fingerprint fingerprint' target target' : Digest} {permission permission' : GrantPermission}
    (h : grantItem fingerprint target permission = grantItem fingerprint' target' permission') :
    fingerprint = fingerprint' ∧ target = target' ∧ permission = permission' := by
  have h := congrArg String.toList h
  simp only [grantItem, digestName, String.toList_append, String.toList_ofList, append_assoc] at h
  obtain ⟨hfingerprint, h⟩ := append_inj (append_cancel_left h) (by simp only [length_base64Url_digest])
  obtain ⟨htarget, h⟩ := append_inj (append_cancel_left h) (by simp only [length_base64Url_digest])
  have hname := append_cancel_left h
  refine ⟨Vector.toList_inj.1 (base64Url_inj hfingerprint), Vector.toList_inj.1 (base64Url_inj htarget), ?_⟩
  revert hname
  cases permission <;> cases permission' <;> decide

end FactorSeal

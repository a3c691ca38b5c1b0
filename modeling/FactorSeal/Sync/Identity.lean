import FactorSeal.Vault.Crypto
import Mathlib.Data.List.Sort

/-! # Readers and memberships (personal/sync/identity.rs)

A reader of the personal items is a pair of public keys, named by their fingerprint. A `Membership` is what `new` and
`TryFrom<MembershipWire>` accept and nothing else: its fields carry the proof that the readers are sorted by fingerprint
and that no fingerprint occurs twice. -/

namespace FactorSeal

open Wire Except

abbrev MemberId := Digest
abbrev GroupId := Vector UInt8 16
abbrev SigningSeed := Vector UInt8 32
abbrev EncryptionSeed := Vector UInt8 64

/-- identity.rs:18-26. -/
structure MemberPublicKeys where
  encryption : Bytes
  signing : Bytes
deriving DecidableEq, Repr

/-- What sync takes from its libraries besides: ML-DSA-65 under any key, ML-KEM-768 keys, HMAC and serde. -/
structure ReaderCrypto extends Crypto where
  /-- HMAC-SHA256 under a key. -/
  hmac : Bytes → Bytes → Digest
  /-- `public_key_for_seed`. -/
  signingKey : SigningSeed → Bytes
  /-- `signature::sign`; the second argument is the draw it is randomised with. -/
  signWith : SigningSeed → Nat → Bytes → Bytes
  /-- `signature::verify` under a public key. -/
  verifyWith : Bytes → Bytes → Bytes → Bool
  verifyWith_signWith : ∀ seed draw payload, verifyWith (signingKey seed) payload (signWith seed draw payload) = true
  /-- `PreparedVerifyingKey::new` accepts the key. -/
  isSigningKey : Bytes → Bool
  isSigningKey_signingKey : ∀ seed, isSigningKey (signingKey seed) = true
  /-- The public key of an encryption seed. -/
  kemKey : EncryptionSeed → Bytes
  /-- `KemPublic::from_bytes` accepts the key. -/
  isKemKey : Bytes → Bool
  isKemKey_kemKey : ∀ seed, isKemKey (kemKey seed) = true
  membersJson : List MemberPublicKeys → Bytes

/-- `invalid()` (personal/sync/mod.rs:58-60). -/
def invalidSync : VaultError := .protocol "invalid personal sync object"

/-- `MAX_MEMBERS`. -/
def maxMembers : Nat := 16

variable (c : ReaderCrypto)

namespace MemberPublicKeys

/-- identity.rs:29-38. -/
def id (keys : MemberPublicKeys) : MemberId :=
  c.sha256 (utf8 "factorseal/sync/member/v1\x00" ++ framed keys.encryption ++ framed keys.signing)

/-- identity.rs:40-44. -/
def validate (keys : MemberPublicKeys) : VaultResult Unit := do
  ensure (c.isKemKey keys.encryption = true) invalidSync
  ensure (c.isSigningKey keys.signing = true) .signature

/-- The order of `sort_by_key(MemberPublicKeys::id)`. -/
def before (a b : MemberPublicKeys) : Prop := compare (a.id c) (b.id c) = .lt

instance : DecidableRel (before c) := fun a b => inferInstanceAs (Decidable (compare (a.id c) (b.id c) = .lt))

end MemberPublicKeys

/-- An unlocked reader: its two seeds (identity.rs:47-53). -/
structure ReaderIdentity where
  encryptionSeed : EncryptionSeed
  signingSeed : SigningSeed
deriving DecidableEq, Repr

def ReaderIdentity.publicKeys (identity : ReaderIdentity) : MemberPublicKeys :=
  ⟨c.kemKey identity.encryptionSeed, c.signingKey identity.signingSeed⟩

/-- The fingerprint of a reader. -/
def ReaderIdentity.memberId (identity : ReaderIdentity) : MemberId := (identity.publicKeys c).id c

/-- What `Membership::new` demands; the readers are those after sorting. -/
structure Membership.Valid (group : GroupId) (epoch : UInt64) (members : List MemberPublicKeys) : Prop where
  group : group ≠ Vector.replicate 16 0
  epoch : epoch ≠ 0
  nonempty : members ≠ []
  length : members.length ≤ maxMembers
  keys : ∀ m ∈ members, c.isKemKey m.encryption = true ∧ c.isSigningKey m.signing = true
  sorted : members.Pairwise (MemberPublicKeys.before c)

instance (group : GroupId) (epoch : UInt64) (members : List MemberPublicKeys) :
    Decidable (Membership.Valid c group epoch members) :=
  decidable_of_iff (group ≠ Vector.replicate 16 0 ∧ epoch ≠ 0 ∧ members ≠ [] ∧ members.length ≤ maxMembers ∧
      (∀ m ∈ members, c.isKemKey m.encryption = true ∧ c.isSigningKey m.signing = true) ∧
      members.Pairwise (MemberPublicKeys.before c))
    ⟨fun ⟨h₁, h₂, h₃, h₄, h₅, h₆⟩ => ⟨h₁, h₂, h₃, h₄, h₅, h₆⟩, fun ⟨h₁, h₂, h₃, h₄, h₅, h₆⟩ => ⟨h₁, h₂, h₃, h₄, h₅, h₆⟩⟩

/-- identity.rs:95-104. -/
structure Membership where
  group : GroupId
  epoch : UInt64
  members : List MemberPublicKeys
  valid : Membership.Valid c group epoch members
deriving DecidableEq

namespace Membership

variable {keys : MemberPublicKeys} {group : GroupId} {epoch : UInt64} {members : List MemberPublicKeys}

/-- `members.sort_by_key(MemberPublicKeys::id)`. -/
def sortMembers (members : List MemberPublicKeys) : List MemberPublicKeys :=
  members.insertionSort fun a b => (compare (a.id c) (b.id c)).isLE

/-- `new` (identity.rs:112-138). What is left to check after the sorting is that no fingerprint occurs twice. -/
def new (group : GroupId) (epoch : UInt64) (members : List MemberPublicKeys) : VaultResult (Membership c) := do
  ensure (group ≠ Vector.replicate 16 0 ∧ epoch ≠ 0 ∧ members ≠ [] ∧ members.length ≤ maxMembers) invalidSync
  members.forM (MemberPublicKeys.validate c)
  if h : Valid c group epoch (sortMembers c members) then .ok ⟨group, epoch, sortMembers c members, h⟩
  else .error invalidSync

variable {c}

/-- `digest`, computed by `new`. -/
def digest (m : Membership c) : Digest :=
  c.sha256 (utf8 "factorseal/sync/membership/v1\x00" ++ m.group.toList ++ be64 m.epoch ++ c.membersJson m.members)

/-- `member` (identity.rs:139-144). -/
def member (m : Membership c) (id : MemberId) : VaultResult MemberPublicKeys :=
  ofOption invalidSync (m.members.find? fun keys => keys.id c = id)

theorem member_eq_ok {m : Membership c} {id : MemberId} (h : m.member id = .ok keys) :
    keys ∈ m.members ∧ keys.id c = id := by
  rw [member, ofOption_eq_ok] at h
  exact ⟨List.mem_of_find?_eq_some h, by simpa using List.find?_some h⟩

/-- Distinct readers have distinct fingerprints. -/
theorem Valid.nodup (h : Valid c group epoch members) : (members.map (MemberPublicKeys.id c)).Nodup :=
  List.pairwise_map.2 (h.sorted.imp fun {a b} hlt heq => by
    rw [MemberPublicKeys.before, heq, Std.ReflOrd.compare_self] at hlt
    cases hlt)

theorem eq_of_id_eq (m : Membership c) {a b : MemberPublicKeys} (ha : a ∈ m.members) (hb : b ∈ m.members)
    (h : a.id c = b.id c) : a = b :=
  List.inj_on_of_nodup_map m.valid.nodup ha hb h

theorem member_of_mem (m : Membership c) (h : keys ∈ m.members) : m.member (keys.id c) = .ok keys := by
  rw [member, ofOption_eq_ok]
  cases hfind : m.members.find? fun k => k.id c = keys.id c with
  | none =>
    have := List.find?_eq_none.1 hfind keys h
    simp at this
  | some found =>
    have hid : found.id c = keys.id c := by simpa using List.find?_some hfind
    rw [m.eq_of_id_eq (List.mem_of_find?_eq_some hfind) h hid]

theorem new_eq_ok {m : Membership c}
    (h : new c group epoch members = .ok m) : m.group = group ∧ m.epoch = epoch ∧ m.members = sortMembers c members := by
  simp only [new, bind_eq_ok] at h
  obtain ⟨⟨⟩, -, ⟨⟩, -, h⟩ := h
  split at h
  · cases h
    exact ⟨rfl, rfl, rfl⟩
  · cases h

theorem mem_sortMembers : keys ∈ sortMembers c members ↔ keys ∈ members := by
  rw [sortMembers]
  exact (List.perm_insertionSort _ members).mem_iff

end Membership

end FactorSeal

import FactorSeal.Store.Reference
import FactorSeal.Sync.Authority

/-! # Reference formats for groups

The laws of `ReaderCrypto` and `GroupEnv` are satisfiable together: a signature is the key and the digest of the payload
behind the draw, and serde is a format for each type. A membership that `new` would refuse is not read. -/

namespace FactorSeal

open Wire Format

namespace Reference

def keysFormat : Format MemberPublicKeys :=
  (bytes.prod bytes).via (fun k => (k.encryption, k.signing)) (fun p => ⟨p.1, p.2⟩) fun _ => rfl

end Reference

def referenceReader : ReaderCrypto where
  toCrypto := referenceCrypto
  hmac key message := toyDigest (key ++ message)
  signingKey seed := seed.toList
  signWith seed draw payload := UInt8.ofNat draw :: (seed.toList ++ (toyDigest payload).toList)
  verifyWith key payload signature := signature.tail == key ++ (toyDigest payload).toList
  verifyWith_signWith _ _ _ := by simp
  isSigningKey key := key.length = 32
  isSigningKey_signingKey _ := by simp
  kemKey seed := seed.toList
  isKemKey key := key.length = 64
  isKemKey_kemKey _ := by simp
  membersJson := (list Reference.keysFormat).write

namespace Reference

def membershipFormat : Format (Membership referenceReader) :=
  ((vector 16).prod (uint64.prod (list keysFormat))).viaOption
    (fun m => (m.group, m.epoch, m.members))
    (fun (group, epoch, members) =>
      if h : Membership.Valid referenceReader group epoch members then some ⟨group, epoch, members, h⟩ else none)
    fun m => dif_pos m.valid

def bindingFormat : Format TransportBinding :=
  ((vector 32).prod ((option (vector 32)).prod string)).via
    (fun b => (b.endpoint, b.reader, b.name)) (fun (endpoint, reader, name) => ⟨endpoint, reader, name⟩) fun _ => rfl

def approvalFormat : Format MergeApproval :=
  ((vector 32).prod (bytes.prod ((vector 32).prod ((vector 32).prod bytes)))).via
    (fun a => (a.sourceController, a.source, a.target, a.signer, a.signature))
    (fun (sourceController, source, target, signer, signature) => ⟨sourceController, source, target, signer, signature⟩)
    fun _ => rfl

def bodyFormat : Format (GroupBody referenceReader) :=
  (byte.prod ((vector 32).prod (membershipFormat.prod ((option (vector 32)).prod
    ((list bindingFormat).prod ((option (vector 32)).prod ((option (vector 32)).prod
      (option approvalFormat)))))))).via
    (fun b => (b.version, b.controller, b.membership, b.previous, b.transports, b.enrollment, b.signer, b.merge))
    (fun (version, controller, membership, previous, transports, enrollment, signer, merge) =>
      ⟨version, controller, membership, previous, transports, enrollment, signer, merge⟩)
    fun _ => rfl

def certificateFormat : Format (GroupCertificate referenceReader) :=
  (bodyFormat.prod bytes).via (fun c => (c.body, c.signature)) (fun p => ⟨p.1, p.2⟩) fun _ => rfl

end Reference

def referenceGroups : GroupEnv where
  toReaderCrypto := referenceReader
  bodyJson := Reference.bodyFormat.write
  certificateJson := Reference.certificateFormat.toCodec
  chainJson := (list Reference.certificateFormat).toCodec
  consentJson := ((vector 32).prod ((vector 32).prod ((vector 32).prod (vector 32)))).write

namespace Reference

/-- Two readers. -/
def laptop : ReaderIdentity := ⟨Vector.replicate 64 5, Vector.replicate 32 6⟩

def phone : ReaderIdentity := ⟨Vector.replicate 64 7, Vector.replicate 32 8⟩

/-- The laptop's own group, as it is created. -/
def laptopMembership : Membership referenceReader :=
  ⟨Vector.replicate 16 1, 1, [laptop.publicKeys referenceReader], by decide +kernel⟩

def laptopBinding : TransportBinding := ⟨Vector.replicate 32 9, some (laptop.memberId referenceReader), "Laptop"⟩

/-- A body with the laptop's signature under it. -/
def signedByLaptop (body : GroupBody referenceReader) : GroupCertificate referenceReader :=
  ⟨body, referenceReader.signWith laptop.signingSeed 2 (@GroupCertificate.payload referenceGroups ⟨body, []⟩)⟩

end Reference

end FactorSeal

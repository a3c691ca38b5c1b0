import FactorSeal.Personal.Resolve
import FactorSeal.Sync.Instance
import FactorSeal.Sync.Union
import FactorSeal.Sync.Worker

/-! # What devices exchange

Devices of a membership send one another packets, each with the changes of one item. What one of them has sealed the
others open and merge (`receive_sealed`), and replicas into which the same changes have been merged show the same
(`mergeAll_converges`). So devices agree once the packets have reached all of them, in whatever order. -/

namespace FactorSeal

open Wire Except Std

/-! ## Replicas -/

namespace PersonalReplica

variable {env : ReplicaEnv} {r r' s s' : PersonalReplica env} {us vs : List PersonalUpdate}

end PersonalReplica

/-! ## Packets -/

section

variable {env : SyncEnv} {membership : Membership env.toReaderCrypto} {packet : VerifiedPacket}

/-- What `receive` makes of the outcome (worker/sync.rs:276-282). -/
def SyncWork.received : ReceiveOutcome × Option (DocumentMutation × SecretDocument) × Nat → SyncWork env × Nat
  | (outcome, none, n) => (.answer (.received outcome), n)
  | (outcome, some (mutation, d), n) => (.commit (.received outcome) mutation d, n)

/-- Every reader finds the key that was wrapped for it. -/
theorem find_wrapKeys {body : PacketBody} {dek : Key} {members : List MemberPublicKeys} (draw : Nat)
    {member : MemberPublicKeys} (h : member ∈ members)
    (hnodup : (members.map (MemberPublicKeys.id env.toReaderCrypto)).Nodup) :
    ∃ draw', (wrapKeys env body dek draw members).find? (fun key => key.recipient = member.id env.toReaderCrypto) =
      let wrapped := env.hpkeSeal member.encryption draw' wrapDomain
        (body.wrapContext env (member.id env.toReaderCrypto)) dek
      some ⟨member.id env.toReaderCrypto, wrapped.1, wrapped.2⟩ := by
  induction members generalizing draw with
  | nil => cases h
  | cons first rest ih =>
    rw [List.map_cons, List.nodup_cons] at hnodup
    rcases List.mem_cons.1 h with rfl | h
    · exact ⟨draw, by simp [wrapKeys]⟩
    · have hne : first.id env.toReaderCrypto ≠ member.id env.toReaderCrypto := fun heq =>
        hnodup.1 (heq ▸ List.mem_map_of_mem h)
      obtain ⟨draw', hfind⟩ := ih (draw + 1) h hnodup.2
      exact ⟨draw', by simpa [wrapKeys, hne] using hfind⟩

theorem VerifiedPacket.verify_eq_ok {bytes : Bytes} (h : verify bytes membership = .ok packet) :
    packet.bytes = bytes ∧ (env.packetJson.decode bytes).toOption = some packet.packet ∧
      packet.packet.validate membership = .ok () := by
  simp only [verify, bind_eq_ok, ensure_eq_ok, ofOption_eq_ok] at h
  obtain ⟨⟨⟩, -, _, hdecode, ⟨⟩, hvalid, ⟨⟩, -, _, -, ⟨⟩, -, h⟩ := h
  cases h
  exact ⟨rfl, hdecode, hvalid⟩

variable {author : ReaderIdentity} {draw draw' : Nat} {update : PersonalUpdate}
  (h : author.sealUpdate draw update membership = .ok (packet, draw'))

include h

theorem sealUpdate_verifies : VerifiedPacket.verify packet.bytes membership = .ok packet := by
  simp only [ReaderIdentity.sealUpdate, bind_eq_ok] at h
  obtain ⟨_, -, _, -, _, -, _, hverify, h⟩ := h
  cases h
  rwa [(VerifiedPacket.verify_eq_ok hverify).1]

/-- Every reader of the membership opens what was sealed. -/
theorem openUpdate_sealed {reader : ReaderIdentity}
    (hreader : reader.publicKeys env.toReaderCrypto ∈ membership.members) :
    packet.openUpdate reader membership = .ok update := by
  obtain ⟨hbytes, hdecode, hvalid⟩ := VerifiedPacket.verify_eq_ok (sealUpdate_verifies h)
  simp only [ReaderIdentity.sealUpdate, bind_eq_ok, ensure_eq_ok] at h
  obtain ⟨replica, hupdate, _, -, ⟨⟩, hsize, _, hverify, h⟩ := h
  cases h
  obtain ⟨-, hencoded, -⟩ := VerifiedPacket.verify_eq_ok hverify
  rw [env.packetJson.decode_encode] at hencoded
  obtain ⟨sealed, bytes, id⟩ := packet
  obtain rfl := Option.some.inj hencoded
  obtain ⟨n, hfind⟩ := @find_wrapKeys env { author.sealedBody draw _ membership with keys := [] } (env.random 32 draw) _
    (draw + 3) _ hreader membership.valid.nodup
  simp only [VerifiedPacket.openUpdate, bind_eq_ok, ensure_eq_ok, ofOption_eq_ok]
  refine ⟨(), hvalid, _, membership.member_of_mem hreader, _, hfind, _, env.hpkeOpen_seal .., _, env.aeadOpen_seal ..,
    (), hsize, (update.itemId, update.changes), ?_, replica, hupdate, rfl⟩
  rw [env.updateJson.decode_encode]
  rfl

/-- No other membership takes it. -/
theorem verify_sealed_other {other : Membership env.toReaderCrypto} {verified : VerifiedPacket}
    (hother : VerifiedPacket.verify packet.bytes other = .ok verified) : other.digest = membership.digest := by
  obtain ⟨-, hdecode, hvalid⟩ := VerifiedPacket.verify_eq_ok (sealUpdate_verifies h)
  obtain ⟨-, hdecode', hvalid'⟩ := VerifiedPacket.verify_eq_ok hother
  rw [← Option.some.inj (hdecode.symm.trans hdecode')] at hvalid'
  simp only [Packet.validate, bind_eq_ok, ensure_eq_ok] at hvalid hvalid'
  obtain ⟨⟨⟩, ⟨-, -, -, hdigest, -⟩, -⟩ := hvalid
  obtain ⟨⟨⟩, ⟨-, -, -, hdigest', -⟩, -⟩ := hvalid'
  rw [← hdigest, hdigest']

/-- **What one device seals the others receive.** A device of the membership that receives the packet has the update
merged into its document; a device with another membership rejects it. -/
theorem receive_sealed (device : Device) (state : PersonalSyncState env.toPairingEnv) (n : Nat) (d : SecretDocument)
    (context : MutationContext) :
    (∀ wrapped identity, state.membership = some membership → state.reader = some wrapped →
      openReader env.toCrypto device wrapped = .ok identity →
      identity.publicKeys env.toReaderCrypto ∈ membership.members →
      receive device state n d context packet.bytes =
        SyncWork.received <$> d.receivePersonal env n packet.id update context) ∧
    ∀ other : Membership env.toReaderCrypto, state.membership = some other → other.digest ≠ membership.digest →
      receive device state n d context packet.bytes = .error rejectedPacket := by
  refine ⟨fun wrapped identity hmembership hwrapped hidentity hmember => ?_, fun other hmembership hother => ?_⟩
  · have hverify := sealUpdate_verifies h
    have hopen := openUpdate_sealed h hmember
    simp only [receive, hmembership, hwrapped, ofOption_some, ok_bind, hverify, rejected, hidentity, hopen]
    rw [← bind_pure_comp]
    refine bind_congr fun r => ?_
    obtain ⟨outcome, change, n⟩ := r
    cases change <;> rfl
  · cases hverify : VerifiedPacket.verify packet.bytes other with
    | ok verified => exact absurd (verify_sealed_other h hverify) hother
    | error e => simp [receive, hmembership, ofOption, hverify, rejected]

end

open Reference in
/-- The laptop, alone in its group, receives what it sealed. -/
theorem receive_sealed_laptop : ∃ packet draw',
    @ReaderIdentity.sealUpdate referenceSync laptop 0 (raceUpdate [edited]) laptopMembership = .ok (packet, draw') ∧
      ∀ n d context, @receive referenceSync thisDevice ⟨some (protectReader referenceSync.toCrypto thisDevice 0 laptop),
          .empty, some laptopMembership, none, []⟩ n d context packet.bytes =
        SyncWork.received <$> d.receivePersonal referenceSync n packet.id (raceUpdate [edited]) context := by
  obtain ⟨⟨packet, draw'⟩, h⟩ := exists_of_isOk (show (@ReaderIdentity.sealUpdate referenceSync laptop 0
    (raceUpdate [edited]) laptopMembership).isOk = true by decide +kernel)
  have hidentity : openReader referenceSync.toCrypto thisDevice
      (protectReader referenceSync.toCrypto thisDevice 0 laptop) = .ok laptop := by decide +kernel
  exact ⟨packet, draw', h, fun n d context =>
    (receive_sealed h thisDevice _ n d context).1 _ _ rfl rfl hidentity (by decide +kernel)⟩

end FactorSeal

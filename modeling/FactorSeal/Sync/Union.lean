import Mathlib.Data.List.Pairwise
import FactorSeal.Sync.Install

/-! # Unions, and the groups that are made of others

What `validate_transports` demands depends on the set of readers and not on an order (`Bound`), and sorting by fingerprint
or endpoint forgets the order the two groups came in. So `union` does not tell its target from its source, and what a
reader makes by creating, advancing or merging is a group like those it was made from (`made_groups`). -/

namespace FactorSeal

open Wire Except Std Links List MemberPublicKeys ReaderIdentity Membership

/-- Sorted by a key that tells its elements apart, a list does not remember their order. -/
theorem insertionSort_congr {α κ : Type} [Ord κ] [TransOrd κ] [LawfulEqOrd κ] (key : α → κ) {l l' : List α}
    (hperm : l.Perm l') (hkeys : (l.map key).Nodup) :
    l.insertionSort (fun a b => (compare (key a) (key b)).isLE) =
      l'.insertionSort fun a b => (compare (key a) (key b)).isLE := by
  have : Std.Total fun a b => (compare (key a) (key b)).isLE = true := ⟨fun a b => by
    rw [OrientedOrd.eq_swap (a := key b)]
    cases compare (key a) (key b) <;> simp⟩
  have : IsTrans α fun a b => (compare (key a) (key b)).isLE = true := ⟨fun _ _ _ => TransCmp.isLE_trans⟩
  have hsorted := (perm_insertionSort (fun a b => (compare (key a) (key b)).isLE = true) l).trans
    (hperm.trans (perm_insertionSort (fun a b => (compare (key a) (key b)).isLE = true) l').symm)
  refine hsorted.eq_of_pairwise ?_ (pairwise_insertionSort _ _) (pairwise_insertionSort _ _)
  intro a b ha hb hab hba
  exact inj_on_of_nodup_map hkeys ((mem_insertionSort _).1 ha)
    (hperm.mem_iff.2 ((mem_insertionSort _).1 hb)) (LawfulEqCmp.eq_of_compare (OrientedCmp.isLE_antisymm hab hba))

variable {c : ReaderCrypto}

/-! ## Readers -/

/-- The order of the readers and the group they are for make no difference. -/
theorem Membership.new_of_perm {group group' : GroupId} {epoch : UInt64} {members members' : List MemberPublicKeys}
    {m : Membership c} (h : new c group epoch members = .ok m) (hperm : members.Perm members')
    (hgroup : group' ≠ Vector.replicate 16 0) :
    ∃ m', new c group' epoch members' = .ok m' ∧ m'.members = m.members := by
  simp only [new, bind_eq_ok, ensure_eq_ok] at h ⊢
  obtain ⟨⟨⟩, ⟨-, hepoch, hne, hlength⟩, ⟨⟩, -, h⟩ := h
  split at h
  next hvalid =>
    cases h
    have hnodup := ((perm_insertionSort _ members).map (MemberPublicKeys.id c)).nodup_iff.1 hvalid.nodup
    have hsort : sortMembers c members' = sortMembers c members := (insertionSort_congr _ hperm hnodup).symm
    have hvalid' : Valid c group' epoch (sortMembers c members') := by
      rw [hsort]
      exact { hvalid with group := hgroup }
    refine ⟨⟨group', epoch, _, hvalid'⟩, ⟨(), ⟨hgroup, hepoch, ?_, ?_⟩, (), ?_, dif_pos hvalid'⟩, hsort⟩
    · rintro rfl
      exact hne (List.perm_nil.1 hperm)
    · rw [← hperm.length_eq]
      exact hlength
    · refine forM_eq_ok.2 fun keys hkeys => ?_
      obtain ⟨hkem, hsigning⟩ := hvalid'.keys keys (mem_sortMembers.2 hkeys)
      rw [validate, ensure_of hkem]
      exact ensure_of hsigning
  next => cases h

/-! ## Transports -/

/-- What is demanded of the transports of some readers. -/
structure Bound (c : ReaderCrypto) (members : List MemberPublicKeys) (transports : List TransportBinding) : Prop where
  size : transports ≠ [] ∧ transports.length ≤ 32
  named : ∀ binding ∈ transports, binding.endpoint ≠ Vector.replicate 32 0 ∧ validName binding.name = true
  endpoints : (transports.map TransportBinding.endpoint).Nodup
  /-- The endpoints with a reader are those of the readers, one each. -/
  readers : (transports.filterMap TransportBinding.reader).Perm (members.map (MemberPublicKeys.id c))

/-- What the loop has checked of the bindings behind those it has met. -/
theorem checkBindings_eq_ok {m : Membership c} {endpoints : List EndpointId} {readers result : List MemberId}
    {transports : List TransportBinding} : checkBindings m endpoints readers transports = .ok result ↔
      (∀ binding ∈ transports, (binding.endpoint ≠ Vector.replicate 32 0 ∧ validName binding.name = true) ∧
        binding.endpoint ∉ endpoints) ∧ (transports.map TransportBinding.endpoint).Nodup ∧
      (∀ reader ∈ transports.filterMap TransportBinding.reader, reader ∉ readers ∧
        reader ∈ m.members.map (id c)) ∧ (transports.filterMap TransportBinding.reader).Nodup ∧
      result = (transports.filterMap TransportBinding.reader).reverse ++ readers := by
  induction transports generalizing endpoints readers with
  | nil =>
    constructor
    · rintro ⟨⟩
      simp
    · rintro ⟨-, -, -, -, rfl⟩
      rfl
  | cons binding rest ih =>
    have hmember : ∀ reader, (∃ keys, m.member reader = .ok keys) ↔ reader ∈ m.members.map (id c) := by
      intro reader
      rw [mem_map]
      constructor
      · rintro ⟨keys, hkeys⟩
        exact ⟨keys, member_eq_ok hkeys⟩
      · rintro ⟨keys, hkeys, rfl⟩
        exact ⟨keys, m.member_of_mem hkeys⟩
    obtain ⟨endpoint, reader, name⟩ := binding
    cases reader with
    | none =>
      simp only [checkBindings, bind_eq_ok, ensure_eq_ok, ih, filterMap_cons, map_cons, nodup_cons,
        forall_mem_cons]
      grind
    | some reader =>
      simp only [checkBindings, bind_eq_ok, ensure_eq_ok, ih, filterMap_cons, map_cons, nodup_cons,
        forall_mem_cons, ← hmember]
      grind

theorem validateTransports_iff {m : Membership c} {transports : List TransportBinding} :
    validateTransports m transports = .ok () ↔ Bound c m.members transports := by
  simp only [validateTransports, bind_eq_ok, ensure_eq_ok, checkBindings_eq_ok]
  constructor
  · rintro ⟨⟨⟩, hsize, _, ⟨hnamed, hendpoints, hmembers, hnodup, rfl⟩, hlength⟩
    refine ⟨hsize, fun binding hbinding => (hnamed binding hbinding).1, hendpoints, ?_⟩
    have hsub := hnodup.subperm fun reader hreader => (hmembers reader hreader).2
    exact hsub.perm_of_length_le (by simpa using hlength.ge)
  · intro h
    refine ⟨(), h.size, _, ⟨fun binding hbinding => ⟨h.named binding hbinding, not_mem_nil⟩, h.endpoints, ?_,
      h.readers.nodup_iff.2 m.valid.nodup, rfl⟩, ?_⟩
    · exact fun reader hreader => ⟨not_mem_nil, h.readers.mem_iff.1 hreader⟩
    · simpa using h.readers.length_eq

/-- Every reader has one endpoint. -/
theorem Bound.existsUnique {members : List MemberPublicKeys} {transports : List TransportBinding}
    (h : Bound c members transports) (hmembers : (members.map (id c)).Nodup) {keys : MemberPublicKeys}
    (hkeys : keys ∈ members) : ∃! binding, binding ∈ transports ∧ binding.reader = some (keys.id c) := by
  obtain ⟨binding, hbinding, hreader⟩ :=
    List.mem_filterMap.1 (h.readers.mem_iff.2 (mem_map_of_mem hkeys))
  refine ⟨binding, ⟨hbinding, hreader⟩, ?_⟩
  rintro other ⟨hother, hreader'⟩
  have hnodup := List.pairwise_filterMap.1 (h.readers.nodup_iff.2 hmembers)
  have : Std.Symm fun a b : TransportBinding => ∀ x, a.reader = some x → ∀ y, b.reader = some y → x ≠ y :=
    ⟨fun a b hab x hx y hy => (hab y hy x hx).symm⟩
  by_contra hne
  exact hnodup.forall hother hbinding hne _ hreader' _ hreader rfl

/-! ## Unions -/

section

variable {env : GroupEnv} {target source : VerifiedGroup env}

theorem union_swap {result : List MemberPublicKeys × List TransportBinding} (h : union target source = .ok result) :
    union source target = .ok result := by
  simp only [union, bind_eq_ok, ensure_eq_ok] at h ⊢
  obtain ⟨⟨⟩, hne, added, hadd, membership, hnew, ⟨⟩, hbound, h⟩ := h
  cases h
  obtain ⟨rfl, hnodup⟩ := (addMembers_eq_ok target.membership.valid.nodup).1 hadd
  obtain ⟨membership', hnew', hmembers⟩ := new_of_perm hnew perm_append_comm source.membership.valid.group
  rw [validateTransports_iff] at hbound
  have hsort : sortTransports (source.transports ++ target.transports) =
      sortTransports (target.transports ++ source.transports) :=
    insertionSort_congr _ perm_append_comm
      (((perm_append_comm.trans (perm_insertionSort _ _).symm).map _).nodup_iff.2 hbound.endpoints)
  refine ⟨(), hne.symm, _, (addMembers_eq_ok source.membership.valid.nodup).2 ⟨rfl, ?_⟩, membership', ?_, (), ?_, ?_⟩
  · exact (perm_append_comm.map _).nodup_iff.1 hnodup
  · exact hnew'
  · rw [hsort, validateTransports_iff, hmembers]
    exact hbound
  · rw [hsort, ← hmembers]
    rfl

/-- What the last certificate merges in is extended by the chain. -/
theorem acceptExtension_of_merge {next : VerifiedGroup env} (hnext : next.Verified) {chain : List env.Certificate}
    {certificate : env.Certificate} (hchain : next.chain = chain ++ [certificate]) {approval : MergeApproval}
    (hmerge : certificate.body.merge = some approval)
    (hsource : sourceAtDepth env maxMergeDepth approval = .ok source) : source.acceptExtension next = .ok () := by
  obtain ⟨remaining, controller, hchecked⟩ := hnext.checked
  obtain ⟨hdecode, -⟩ := sourcesChecked env maxMergeDepth approval source hsource
  rw [VerifiedGroup.acceptExtension, ensure_eq_ok, hchecked.ancestors]
  refine ⟨source.current, ?_, rfl⟩
  rw [hchain, ancestor_concat]
  refine .inr (.inr ⟨source.chain, ?_, source.chain, .refl _, getLast_mem source.nonempty⟩)
  simp [groupLinks, hmerge, hdecode]

/-- The groups a reader makes, with the groups they are made of. -/
inductive Made : List (VerifiedGroup env) → VerifiedGroup env → Prop
  | created {identity : ReaderIdentity} {draw : Nat} {endpoint : EndpointId} {name : String} {group : VerifiedGroup env}
      (h : identity.createGroup draw endpoint name = .ok group) : Made [] group
  | advanced {identity : ReaderIdentity} {draw : Nat} {group next : VerifiedGroup env} {members : List MemberPublicKeys}
      {transports : List TransportBinding} {enrollment : Option Digest}
      (h : identity.advanceGroup draw group members transports enrollment = .ok next) : Made [group] next
  | merged {identity : ReaderIdentity} {draw : Nat} {target source next : VerifiedGroup env} {approval : MergeApproval}
      {enrollment : Digest} (hsource : approval.verify (sourceAtDepth env maxMergeDepth) target = .ok source)
      (h : identity.mergeGroup draw target approval enrollment = .ok next) : Made [target, source] next

theorem Made.accepts {inputs : List (VerifiedGroup env)} {group : VerifiedGroup env} (h : Made inputs group) :
    group.Verified ∧ ∀ input ∈ inputs, input.acceptExtension group = .ok () := by
  cases h with
  | created h =>
    obtain ⟨_, hverified, -⟩ := createGroup_eq_ok h
    exact ⟨hverified, fun input hinput => by cases hinput⟩
  | advanced h =>
    simp only [advanceGroup, bind_eq_ok] at h
    obtain ⟨_, -, h⟩ := h
    obtain ⟨_, hverified, hchain, -⟩ := extendGroup_eq_ok h
    refine ⟨hverified, List.forall_mem_singleton.2 ?_⟩
    exact VerifiedGroup.acceptExtension_of_chain hverified hchain
  | merged hsource h =>
    simp only [mergeGroup, bind_eq_ok] at h
    obtain ⟨_, -, source, -, ⟨members, transports⟩, -, h⟩ := h
    obtain ⟨_, hverified, hchain, -, -, -, -, -, hmerge⟩ := extendGroup_eq_ok h
    refine ⟨hverified, forall_mem_cons.2 ⟨?_, List.forall_mem_singleton.2 ?_⟩⟩
    · exact VerifiedGroup.acceptExtension_of_chain hverified hchain
    · exact acceptExtension_of_merge hverified hchain hmerge (MergeApproval.verify_eq_ok hsource)

end

/-- Two groups have the same union either way round. A group that is created, advanced or merged verifies, comes back from
its encoding, binds each of its readers to one endpoint and no endpoint twice, and extends the groups it was made of. -/
theorem made_groups (env : GroupEnv) : (∀ (a b : VerifiedGroup env) (result : List MemberPublicKeys × List TransportBinding),
      union a b = .ok result ↔ union b a = .ok result) ∧
    ∀ (inputs : List (VerifiedGroup env)) (group : VerifiedGroup env), Made inputs group →
      VerifiedGroup.verify env group.chain group.controller = .ok group ∧
        VerifiedGroup.decode env group.encode group.controller = .ok group ∧
        (∀ keys ∈ group.membership.members,
          ∃! binding, binding ∈ group.transports ∧ binding.reader = some (keys.id env.toReaderCrypto)) ∧
        (group.transports.map TransportBinding.endpoint).Nodup ∧
        ∀ input ∈ inputs, input.acceptExtension group = .ok () := by
  refine ⟨fun a b result => ⟨union_swap, union_swap⟩, fun inputs group h => ?_⟩
  obtain ⟨hverified, haccepts⟩ := h.accepts
  obtain ⟨remaining, controller, hchecked⟩ := hverified.checked
  have hbound := validateTransports_iff.1 (hchecked.transports group.current (getLast_mem group.nonempty))
  refine ⟨hverified.verify.1, hverified.decode, fun keys hkeys => ?_, hbound.endpoints, haccepts⟩
  exact hbound.existsUnique group.membership.valid.nodup hkeys

end FactorSeal

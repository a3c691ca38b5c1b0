import FactorSeal.Sync.Reference

/-! # What an extension proves

`accept_extension` compares one digest with a set that verification has collected through all the chains a group carries.
Here the set is read off the chains (`Checked.ancestors`), which makes it the order of `Lib/Lineage`.

* `acceptExtension_signed` — a group that is accepted in place of a pinned one carries a certificate or an approval that
  a reader of the pinned membership signed for it.
* `acceptExtension_order` — acceptance is reflexive, transitive and antisymmetric up to the head. -/

namespace FactorSeal

open Wire Except Std Links VerifiedGroup Reference List

variable {remaining : Nat} {controller : MemberPublicKeys} {env : GroupEnv} {sourceAt : SourceAt env}
  {body : GroupBody env.toReaderCrypto}

/-- Certificates as links of a chain: what a certificate carries is the chain its merge approval decodes to. -/
def groupLinks (env : GroupEnv) : Links env.Certificate Digest where
  digest := GroupCertificate.digest
  previous certificate := certificate.body.previous
  source certificate := certificate.body.merge.bind fun approval => (env.chainJson.decode approval.source).toOption

/-- One of the readers' keys verifies the signature. -/
def SignedBy (membership : Membership env.toReaderCrypto) (payload signature : Bytes) : Prop :=
  ∃ reader ∈ membership.members, env.verifyWith reader.signing payload signature = true

/-- What has been checked of a group whose merges were checked `remaining` levels deep. -/
structure Checked (env : GroupEnv) (remaining : Nat) (controller : MemberPublicKeys) (group : VerifiedGroup env) :
    Prop where
  linked : (groupLinks env).Linked group.chain
  ancestors : ∀ d, d ∈ group.ancestors ↔ ∃ c, (groupLinks env).Ancestor group.chain c ∧ c.digest = d
  enrollments : ∀ e, e ∈ group.enrollments ↔
    ∃ c, (groupLinks env).Ancestor group.chain c ∧ c.body.enrollment = some e
  controller : ∀ c ∈ group.chain, controller ∈ c.body.membership.members
  transports : ∀ c ∈ group.chain, validateTransports c.body.membership c.body.transports = .ok ()
  signed : ∀ pre a c post, group.chain = pre ++ a :: c :: post →
    SignedBy a.body.membership c.payload c.signature
  merged : ∀ c ∈ group.chain, ∀ approval, c.body.merge = some approval →
    ∃ source, sourceAtDepth env remaining approval = .ok source ∧
      SignedBy source.membership (approval.payload env) approval.signature

/-! ## One certificate -/

/-- What the loop body has checked when it goes on. -/
theorem checkCertificate_eq_ok {trusted : MemberId} {first : GroupBody env.toReaderCrypto}
     {done : Option (VerifiedGroup env)} {c : env.Certificate} {next : VerifiedGroup env}
    (h : checkCertificate sourceAt trusted first controller done c = .ok next) :
    c.body.controller = trusted ∧ c.body.previous = done.map VerifiedGroup.digest ∧
      controller ∈ c.body.membership.members ∧ validateTransports c.body.membership c.body.transports = .ok () ∧
      (∃ signer, certificateSigner controller done c.body = .ok signer ∧
        env.verifyWith signer.signing c.payload c.signature = true) ∧
      ∃ source, mergedSource sourceAt done c.body = .ok source ∧ next = addCertificate done source c := by
  simp only [checkCertificate, bind_eq_ok, ensure_eq_ok] at h
  obtain ⟨⟨⟩, ⟨-, hcontroller, hprevious, -, -⟩, own, hown, ⟨⟩, rfl, ⟨⟩, htransports, signer, hsigner, ⟨⟩, hverify, source,
    hsource, h⟩ := h
  cases h
  exact ⟨hcontroller, hprevious, (Membership.member_eq_ok hown).1, htransports, ⟨signer, hsigner, hverify⟩, source,
    hsource, rfl⟩

/-- The signer of a later certificate is a reader of the epoch before: named in it, or the controller. -/
theorem certificateSigner_mem {signer : MemberPublicKeys} {group : VerifiedGroup env}
    (hcontroller : controller ∈ group.membership.members)
    (h : certificateSigner controller (some group) body = .ok signer) : signer ∈ group.membership.members := by
  unfold certificateSigner at h
  split at h
  · simp only [bind_eq_ok] at h
    obtain ⟨⟨⟩, -, h⟩ := h
    cases h
    exact hcontroller
  · simp only [bind_eq_ok, ofOption_eq_ok] at h
    obtain ⟨_, hdone, id, -, h⟩ := h
    cases hdone
    exact (Membership.member_eq_ok h).1

/-- What a certificate merges in has been verified one level deeper and approved by one of its readers. -/
theorem mergedSource_eq_ok {done source : Option (VerifiedGroup env)}
    (h : mergedSource sourceAt done body = .ok source) :
    (body.merge = none ∧ source = none) ∨ ∃ approval target merged, body.merge = some approval ∧ done = some target ∧
      source = some merged ∧ sourceAt approval = .ok merged ∧
      SignedBy merged.membership (approval.payload env) approval.signature ∧ approval.target = target.digest ∧
      union target merged = .ok (body.membership.members, body.transports) := by
  unfold mergedSource at h
  cases hmerge : body.merge with
  | none =>
    rw [hmerge] at h
    cases h
    exact .inl ⟨rfl, rfl⟩
  | some approval =>
    rw [hmerge] at h
    simp only [bind_eq_ok, ofOption_eq_ok, ensure_eq_ok, MergeApproval.verify] at h
    obtain ⟨target, rfl, merged, ⟨_, hsource, ⟨⟩, ⟨htarget, -⟩, signer, hsigner, ⟨⟩, hverify, _, -, hmerged⟩,
      ⟨members, transports⟩, hunion, ⟨⟩, ⟨rfl, rfl⟩, h⟩ := h
    cases h
    cases hmerged
    exact .inr ⟨approval, target, merged, rfl, rfl, rfl, hsource,
      ⟨signer, (Membership.member_eq_ok hsigner).1, hverify⟩, htarget, hunion⟩

/-! ## The loop -/

theorem mem_insertMany_toList {s t : ExtTreeSet Digest} {d : Digest} : d ∈ s.insertMany t.toList ↔ d ∈ s ∨ d ∈ t := by
  rw [ExtTreeSet.mem_insertMany_list, contains_iff_mem, ExtTreeSet.mem_toList]

theorem mem_addCertificate_ancestors {done source : Option (VerifiedGroup env)} {c : env.Certificate} {d : Digest} :
    d ∈ (addCertificate done source c).ancestors ↔ d ∈ ancestorsOf done ∨ d ∈ ancestorsOf source ∨ d = c.digest := by
  rw [addCertificate, ExtTreeSet.mem_insert, LawfulEqCmp.compare_eq_iff_eq, mem_insertMany_toList, eq_comm, or_comm,
    or_assoc]

theorem mem_addCertificate_enrollments {done source : Option (VerifiedGroup env)} {c : env.Certificate} {e : Digest} :
    e ∈ (addCertificate done source c).enrollments ↔
      e ∈ enrollmentsOf done ∨ e ∈ enrollmentsOf source ∨ c.body.enrollment = some e := by
  rw [addCertificate, ExtTreeSet.mem_insertMany_list, mem_insertMany_toList, contains_iff_mem, Option.mem_toList,
    or_assoc]

/-- What holds of every group that was verified one level deeper. -/
def SourcesChecked (env : GroupEnv) (remaining : Nat) : Prop :=
  ∀ approval source, sourceAtDepth env remaining approval = .ok source →
    (env.chainJson.decode approval.source).toOption = some source.chain ∧
      ∃ below controller, below < remaining ∧ Checked env below controller source

/-- The chain of no group has no ancestors. -/
theorem not_ancestor_nil (c : env.Certificate) : ¬ (groupLinks env).Ancestor [] c := by
  rintro ⟨t, ht, hc⟩
  cases ht with
  | refl => cases hc
  | step hc' => cases hc'

/-- The digests collected of a group that may not be there are those of its ancestors, -/
theorem mem_ancestorsOf {group : Option (VerifiedGroup env)} (h : ∀ g ∈ group, ∃ n k, Checked env n k g) (d : Digest) :
    d ∈ ancestorsOf group ↔ ∃ c, (groupLinks env).Ancestor (chainOf group) c ∧ c.digest = d := by
  cases group with
  | some g =>
    obtain ⟨n, k, hg⟩ := h g rfl
    exact hg.ancestors d
  | none => exact ⟨fun hd => absurd hd ExtTreeSet.not_mem_empty, fun ⟨c, hc, _⟩ => absurd hc (not_ancestor_nil c)⟩

/-- and so are the requests. -/
theorem mem_enrollmentsOf {group : Option (VerifiedGroup env)} (h : ∀ g ∈ group, ∃ n k, Checked env n k g) (e : Digest) :
    e ∈ enrollmentsOf group ↔ ∃ c, (groupLinks env).Ancestor (chainOf group) c ∧ c.body.enrollment = some e := by
  cases group with
  | some g =>
    obtain ⟨n, k, hg⟩ := h g rfl
    exact hg.enrollments e
  | none => exact ⟨fun hd => absurd hd ExtTreeSet.not_mem_empty, fun ⟨c, hc, _⟩ => absurd hc (not_ancestor_nil c)⟩

/-- The chain a checked certificate carries is the chain of the group it merges in. -/
theorem source_of_mergedSource (hsources : SourcesChecked env remaining) {done source : Option (VerifiedGroup env)}
    {c : env.Certificate} (h : mergedSource (sourceAtDepth env remaining) done c.body = .ok source) :
    (groupLinks env).source c = source.map chain ∧ ∀ g ∈ source, ∃ n k, Checked env n k g := by
  rcases mergedSource_eq_ok h with ⟨hmerge, rfl⟩ | ⟨approval, target, merged, hmerge, -, rfl, hsource, -⟩
  · exact ⟨by simp [groupLinks, hmerge], fun g hg => by cases hg⟩
  · obtain ⟨hdecode, hchecked⟩ := hsources approval merged hsource
    refine ⟨by simp [groupLinks, hmerge, hdecode], fun g hg => ?_⟩
    cases hg
    obtain ⟨n, k, -, hchecked⟩ := hchecked
    exact ⟨n, k, hchecked⟩

/-- The certificate before a new one, in a chain that ends with it. -/
theorem eq_last_of_append {chain pre post : List env.Certificate} {a b c : env.Certificate}
    (h : chain ++ [c] = pre ++ a :: b :: post) :
    (post = [] ∧ b = c ∧ chain = pre ++ [a]) ∨ ∃ post', chain = pre ++ a :: b :: post' := by
  cases post using reverseRecOn with
  | nil =>
    have h' : chain ++ [c] = (pre ++ [a]) ++ [b] := by rw [h]; simp
    obtain ⟨hchain, hc⟩ := append_inj' h' rfl
    exact .inl ⟨rfl, (cons.inj hc).1.symm, hchain⟩
  | append_singleton post' x =>
    have h' : chain ++ [c] = (pre ++ a :: b :: post') ++ [x] := by rw [h]; simp
    exact .inr ⟨post', (append_inj' h' rfl).1⟩

/-- The step lemma: one more certificate. -/
theorem checked_checkCertificate (hsources : SourcesChecked env remaining) {trusted : MemberId}
    {first : GroupBody env.toReaderCrypto} {done : Option (VerifiedGroup env)}
    (hdone : ∀ g ∈ done, Checked env remaining controller g) {c : env.Certificate} {next : VerifiedGroup env}
    (h : checkCertificate (sourceAtDepth env remaining) trusted first controller done c = .ok next) :
    Checked env remaining controller next ∧ next.chain = chainOf done ++ [c] := by
  obtain ⟨-, hprevious, hcontroller, htransports, ⟨signer, hsigner, hverify⟩, source, hmerged, rfl⟩ :=
    checkCertificate_eq_ok h
  obtain ⟨hlink, hsource⟩ := source_of_mergedSource hsources hmerged
  have hmem : ∀ x ∈ chainOf done, ∃ g ∈ done, x ∈ g.chain := by
    intro x hx
    cases done with
    | none => cases hx
    | some g => exact ⟨g, rfl, hx⟩
  have hdone' : ∀ g ∈ done, ∃ n k, Checked env n k g := fun g hg => ⟨remaining, controller, hdone g hg⟩
  -- what is found in the longer chain: in the certificates before, in the group merged in, or the certificate itself
  have hancestor : ∀ P : env.Certificate → Prop, (∃ x, (groupLinks env).Ancestor (chainOf done ++ [c]) x ∧ P x) ↔
      (∃ x, (groupLinks env).Ancestor (chainOf done) x ∧ P x) ∨
        (∃ x, (groupLinks env).Ancestor (chainOf source) x ∧ P x) ∨ P c := by
    intro P
    have hcarried : ∀ x, (∃ t, (groupLinks env).source c = some t ∧ (groupLinks env).Ancestor t x) ↔
        (groupLinks env).Ancestor (chainOf source) x := by
      intro x
      rw [hlink]
      cases source with
      | none => simp [chainOf, not_ancestor_nil]
      | some g => simp [chainOf]
    constructor
    · rintro ⟨x, hx, hP⟩
      rcases ancestor_concat.1 hx with hx | rfl | hx
      · exact .inl ⟨x, hx, hP⟩
      · exact .inr (.inr hP)
      · exact .inr (.inl ⟨x, (hcarried x).1 hx, hP⟩)
    · rintro (⟨x, hx, hP⟩ | ⟨x, hx, hP⟩ | hP)
      · exact ⟨x, ancestor_concat.2 (.inl hx), hP⟩
      · exact ⟨x, ancestor_concat.2 (.inr (.inr ((hcarried x).2 hx))), hP⟩
      · exact ⟨c, ancestor_concat.2 (.inr (.inl rfl)), hP⟩
  refine ⟨⟨?_, fun d => ?_, fun e => ?_, fun x hx => ?_, fun x hx => ?_, ?_, fun x hx approval hmerge => ?_⟩, rfl⟩
  · refine linked_concat.2 ⟨?_, ?_⟩
    · cases done with
      | none => trivial
      | some g => exact (hdone g rfl).linked
    · change c.body.previous = _
      rw [hprevious]
      cases done with
      | none => rfl
      | some g =>
        change _ = g.chain.getLast?.map _
        rw [getLast?_eq_getLast_of_ne_nil g.nonempty]
        rfl
  · rw [mem_addCertificate_ancestors, mem_ancestorsOf hdone', mem_ancestorsOf hsource, eq_comm (a := d)]
    exact (hancestor fun x => x.digest = d).symm
  · rw [mem_addCertificate_enrollments, mem_enrollmentsOf hdone', mem_enrollmentsOf hsource]
    exact (hancestor fun x => x.body.enrollment = some e).symm
  · rcases mem_append.1 hx with hx | hx
    · obtain ⟨g, hg, hx⟩ := hmem x hx
      exact (hdone g hg).controller x hx
    · rw [mem_singleton.1 hx]
      exact hcontroller
  · rcases mem_append.1 hx with hx | hx
    · obtain ⟨g, hg, hx⟩ := hmem x hx
      exact (hdone g hg).transports x hx
    · rw [mem_singleton.1 hx]
      exact htransports
  · intro pre a b post heq
    rcases eq_last_of_append heq with ⟨-, rfl, hchain⟩ | ⟨post', hchain⟩
    · cases done with
      | none => simp [chainOf] at hchain
      | some g =>
        have hcurrent : g.current = a := by
          have hlast : g.chain.getLast? = some a := by
            change chainOf (some g) = _ at hchain
            rw [show g.chain = pre ++ [a] from hchain]
            simp
          rw [getLast?_eq_getLast_of_ne_nil g.nonempty] at hlast
          exact Option.some.inj hlast
        refine ⟨signer, ?_, hverify⟩
        rw [← hcurrent]
        refine certificateSigner_mem ?_ hsigner
        exact (hdone g rfl).controller _ (getLast_mem g.nonempty)
    · cases done with
      | none => simp [chainOf] at hchain
      | some g => exact (hdone g rfl).signed pre a b post' hchain
  · rcases mem_append.1 hx with hx | hx
    · obtain ⟨g, hg, hx⟩ := hmem x hx
      exact (hdone g hg).merged x hx approval hmerge
    · rw [mem_singleton.1 hx] at hmerge
      rcases mergedSource_eq_ok hmerged with ⟨hnone, -⟩ | ⟨approval', target, merged, hsome, -, -, hat, hsigned, -⟩
      · rw [hnone] at hmerge
        cases hmerge
      · rw [hsome] at hmerge
        cases hmerge
        exact ⟨merged, hat, hsigned⟩

/-- The run lemma: the whole chain. -/
theorem checked_checkChain (hsources : SourcesChecked env remaining) {trusted : MemberId}
    {first : GroupBody env.toReaderCrypto} {chain : List env.Certificate} {done result : Option (VerifiedGroup env)}
    (hdone : ∀ g ∈ done, Checked env remaining controller g)
    (h : checkChain (sourceAtDepth env remaining) trusted first controller done chain = .ok result) :
    (∀ g ∈ result, Checked env remaining controller g) ∧ chainOf result = chainOf done ++ chain := by
  induction chain generalizing done with
  | nil =>
    cases h
    exact ⟨hdone, by simp⟩
  | cons c rest ih =>
    simp only [checkChain, bind_eq_ok] at h
    obtain ⟨next, hnext, h⟩ := h
    obtain ⟨hchecked, hchain⟩ := checked_checkCertificate hsources hdone hnext
    obtain ⟨hresult, hchain'⟩ := ih (fun g hg => by cases hg; exact hchecked) h
    refine ⟨hresult, hchain'.trans ?_⟩
    change next.chain ++ rest = _
    rw [hchain]
    simp

theorem verifyAtDepth_succ (remaining : Nat) (chain : List env.Certificate) (trusted : MemberId) :
    verifyAtDepth env (remaining + 1) chain trusted = (do
      ensure (chain.length ≤ maxEpochs ∧ (env.chainJson.encode chain).length ≤ maxGroupBytes) invalidSync
      let first ← ofOption invalidSync chain.head?
      ensure (first.body.controller = trusted) invalidSync
      let controller ← first.body.membership.member trusted
      let group ← checkChain (sourceAtDepth env remaining) trusted first.body controller none chain
      ofOption invalidSync group) := rfl

theorem sourceAtDepth_eq_ok {approval : MergeApproval} {source : VerifiedGroup env}
    (h : sourceAtDepth env remaining approval = .ok source) :
    ∃ chain, (env.chainJson.decode approval.source).toOption = some chain ∧
      verifyAtDepth env remaining chain approval.sourceController = .ok source := by
  simp only [sourceAtDepth, bind_eq_ok, ofOption_eq_ok] at h
  obtain ⟨⟨⟩, -, chain, hdecode, h⟩ := h
  exact ⟨chain, hdecode, h⟩

/-- **What verification establishes**, of the group and of every group merged into it. The induction is on the depth. -/
theorem checked_verifyAtDepth : ∀ {remaining : Nat} {chain : List env.Certificate} {trusted : MemberId}
    {group : VerifiedGroup env}, verifyAtDepth env remaining chain trusted = .ok group →
    group.chain = chain ∧ ∃ below controller, below < remaining ∧ Checked env below controller group := by
  intro remaining
  induction remaining with
  | zero =>
    intro chain trusted group h
    cases h
  | succ remaining ih =>
    intro chain trusted group h
    have hsources : SourcesChecked env remaining := fun approval source hsource => by
      obtain ⟨decoded, hdecode, hsource⟩ := sourceAtDepth_eq_ok hsource
      obtain ⟨rfl, hchecked⟩ := ih hsource
      exact ⟨hdecode, hchecked⟩
    simp only [verifyAtDepth_succ, bind_eq_ok, ofOption_eq_ok] at h
    obtain ⟨⟨⟩, -, first, -, ⟨⟩, -, controller, -, result, hcheck, rfl⟩ := h
    obtain ⟨hresult, hchain⟩ := checked_checkChain hsources (fun g hg => by cases hg) hcheck
    exact ⟨hchain, remaining, controller, Nat.lt_succ_self _, hresult group rfl⟩

theorem sourcesChecked (env : GroupEnv) (remaining : Nat) : SourcesChecked env remaining := by
  intro approval source hsource
  obtain ⟨decoded, hdecode, hsource⟩ := sourceAtDepth_eq_ok hsource
  obtain ⟨rfl, hchecked⟩ := checked_verifyAtDepth hsource
  exact ⟨hdecode, hchecked⟩

theorem VerifiedGroup.Verified.checked {group : VerifiedGroup env} (h : group.Verified) :
    ∃ remaining controller, Checked env remaining controller group := by
  obtain ⟨trusted, h⟩ := h
  obtain ⟨-, below, controller, -, hchecked⟩ := checked_verifyAtDepth h
  exact ⟨below, controller, hchecked⟩

/-! ## Groups as chains -/

section

variable {group : VerifiedGroup env}

theorem VerifiedGroup.getLast?_chain (group : VerifiedGroup env) : group.chain.getLast? = some group.current :=
  getLast?_eq_getLast_of_ne_nil group.nonempty

/-- The chain a certificate of a checked group carries is that of a group verified one level deeper. -/
theorem Checked.source (h : Checked env remaining controller group) {c : env.Certificate} (hc : c ∈ group.chain)
    {t : List env.Certificate} (ht : (groupLinks env).source c = some t) :
    ∃ approval source, c.body.merge = some approval ∧ sourceAtDepth env remaining approval = .ok source ∧
      source.chain = t ∧ SignedBy source.membership (approval.payload env) approval.signature := by
  cases hmerge : c.body.merge with
  | none => simp [groupLinks, hmerge] at ht
  | some approval =>
    obtain ⟨source, hsource, hsigned⟩ := h.merged c hc approval hmerge
    obtain ⟨hdecode, -⟩ := sourcesChecked env remaining approval source hsource
    have : some source.chain = some t := by rw [← hdecode, ← ht]; simp [groupLinks, hmerge]
    exact ⟨approval, source, rfl, hsource, Option.some.inj this, hsigned⟩

/-- Every chain a checked group carries is that of a checked group. -/
theorem Checked.of_embeds {s t : List env.Certificate} (hst : (groupLinks env).Embeds s t) :
    ∀ {remaining : Nat} {controller : MemberPublicKeys} {group : VerifiedGroup env},
      Checked env remaining controller group → group.chain = s →
        ∃ n k g, Checked env n k g ∧ g.chain = t := by
  induction hst with
  | refl s => exact fun {n k g} h hchain => ⟨n, k, g, h, hchain⟩
  | step hc hs _ ih =>
    intro remaining controller group h hchain
    obtain ⟨approval, source, -, hsource, hsourceChain, -⟩ := h.source (hchain ▸ hc) hs
    obtain ⟨-, below, controller', -, hchecked⟩ := sourcesChecked env remaining approval source hsource
    exact ih hchecked hsourceChain

/-- Merges are verified to the depth that was left. -/
theorem Checked.depth : ∀ {remaining : Nat} {controller : MemberPublicKeys} {group : VerifiedGroup env},
    Checked env remaining controller group → (groupLinks env).Depth (remaining + 1) group.chain := by
  intro remaining
  induction remaining using Nat.strong_induction_on with
  | _ remaining ih =>
    intro controller group h c hc t ht
    obtain ⟨approval, source, -, hsource, rfl, -⟩ := h.source hc ht
    obtain ⟨-, below, controller', hbelow, hchecked⟩ := sourcesChecked env remaining approval source hsource
    exact (ih below hbelow hchecked).mono hbelow

end

namespace VerifiedGroup

/-- The strings hashed for the digests of a group: its certificates and those it carries. -/
def hashed (group : VerifiedGroup env) : Set Bytes :=
  { bytes | ∃ c, (groupLinks env).Ancestor group.chain c ∧ env.certificateJson.encode c = bytes }

variable {a b group : VerifiedGroup env} {hashes : Set Bytes}

theorem injOn_digest (hinj : Set.InjOn env.sha256 hashes) :
    Set.InjOn (groupLinks env).digest { c | env.certificateJson.encode c ∈ hashes } := by
  intro c hc d hd h
  have hencode := hinj hc hd h
  have := env.certificateJson.decode_encode c
  rw [hencode, env.certificateJson.decode_encode] at this
  exact (Except.ok.inj this).symm

theorem Verified.wellLinked (h : group.Verified) (hhashes : group.hashed ⊆ hashes) :
    (groupLinks env).WellLinked { c | env.certificateJson.encode c ∈ hashes } group.chain := by
  intro t ht
  obtain ⟨remaining, controller, hchecked⟩ := h.checked
  obtain ⟨n, k, g, hg, rfl⟩ := hchecked.of_embeds ht rfl
  exact ⟨hg.linked, fun c hc => hhashes ⟨c, ⟨_, ht, hc⟩, rfl⟩⟩

theorem ancestor_current (group : VerifiedGroup env) : (groupLinks env).Ancestor group.chain group.current :=
  ⟨group.chain, .refl _, getLast_mem group.nonempty⟩

/-- `accept_extension` decides whether the head of the one is an ancestor of the other. -/
theorem acceptExtension_iff (hinj : Set.InjOn env.sha256 hashes) (ha : a.hashed ⊆ hashes) (hb : b.hashed ⊆ hashes)
    (hverified : b.Verified) : a.acceptExtension b = .ok () ↔ (groupLinks env).Extends a.chain b.chain := by
  obtain ⟨remaining, controller, hchecked⟩ := hverified.checked
  rw [acceptExtension, ensure_eq_ok, hchecked.ancestors]
  constructor
  · rintro ⟨c, hc, hdigest⟩
    have heq : c = a.current := injOn_digest hinj (hb ⟨c, hc, rfl⟩) (ha ⟨_, a.ancestor_current, rfl⟩) hdigest
    exact ⟨c, by rw [heq, a.getLast?_chain], hc⟩
  · rintro ⟨c, hlast, hc⟩
    rw [a.getLast?_chain] at hlast
    cases hlast
    exact ⟨_, hc, rfl⟩

end VerifiedGroup

/-! ### A chain of three epochs -/

/-- A chain that merges nothing carries itself only. -/
theorem ancestor_of_no_merge {chain : List env.Certificate} (h : ∀ c ∈ chain, c.body.merge = none) {c : env.Certificate}
    (hc : (groupLinks env).Ancestor chain c) : c ∈ chain := by
  obtain ⟨t, ht, hc⟩ := hc
  cases ht with
  | refl => exact hc
  | step hx hs => simp [groupLinks, h _ hx] at hs

namespace Reference

def firstCertificate : referenceGroups.Certificate :=
  signedByLaptop ⟨1, laptop.memberId referenceReader, laptopMembership, none, [laptopBinding], none, none, none⟩

/-- The certificate of the next epoch, with the same reader. -/
def nextCertificate (previous : referenceGroups.Certificate) (epoch : UInt64)
    (h : Membership.Valid referenceReader laptopMembership.group epoch laptopMembership.members) :
    referenceGroups.Certificate :=
  signedByLaptop ⟨2, laptop.memberId referenceReader, ⟨_, epoch, _, h⟩, some previous.digest, [laptopBinding], none,
    some (laptop.memberId referenceReader), none⟩

def secondCertificate : referenceGroups.Certificate := nextCertificate firstCertificate 2 (by decide +kernel)

def thirdCertificate : referenceGroups.Certificate := nextCertificate secondCertificate 3 (by decide +kernel)

/-- The three certificates, none of which merges anything. -/
def certificates : List referenceGroups.Certificate := [firstCertificate, secondCertificate, thirdCertificate]

theorem certificates_no_merge : ∀ c ∈ certificates, c.body.merge = none := by decide

/-- Digests that differ tell the certificates of a list apart. -/
theorem injOn_of_nodup {cs : List referenceGroups.Certificate}
    (h : ((cs.map referenceGroups.certificateJson.encode).map referenceGroups.sha256).Nodup) :
    Set.InjOn referenceGroups.sha256 { bytes | ∃ c ∈ cs, referenceGroups.certificateJson.encode c = bytes } := by
  rintro _ ⟨c, hc, rfl⟩ _ ⟨d, hd, rfl⟩ heq
  exact inj_on_of_nodup_map h (mem_map_of_mem hc) (mem_map_of_mem hd) heq

/-- Of a group that merges nothing, the certificates of its chain are hashed. -/
theorem hashed_subset_of_no_merge {g : VerifiedGroup referenceGroups} {cs : List referenceGroups.Certificate}
    (hmerge : ∀ c ∈ cs, c.body.merge = none) (hsub : g.chain ⊆ cs) :
    g.hashed ⊆ { bytes | ∃ c ∈ cs, referenceGroups.certificateJson.encode c = bytes } := by
  rintro _ ⟨c, hc, rfl⟩
  exact ⟨c, hsub (ancestor_of_no_merge (fun x hx => hmerge x (hsub hx)) hc), rfl⟩

theorem injOn_certificates : Set.InjOn referenceGroups.sha256
    { bytes | ∃ c ∈ certificates, referenceGroups.certificateJson.encode c = bytes } :=
  injOn_of_nodup (by decide +kernel)

/-- A beginning of the chain verifies, and its certificates are hashed. -/
theorem exists_verified (n : Nat) (h : (verify referenceGroups (certificates.take n)
    (laptop.memberId referenceReader)).isOk = true) :
    ∃ g : VerifiedGroup referenceGroups, g.Verified ∧ g.chain = certificates.take n ∧
      g.hashed ⊆ { bytes | ∃ c ∈ certificates, referenceGroups.certificateJson.encode c = bytes } := by
  obtain ⟨g, hg⟩ := exists_of_isOk h
  obtain ⟨hchain, -⟩ := checked_verifyAtDepth hg
  refine ⟨g, ⟨_, by rw [hchain]; exact hg⟩, hchain, hashed_subset_of_no_merge certificates_no_merge ?_⟩
  rw [hchain]
  exact take_subset _ _

end Reference

/-- **Acceptance is a partial order up to the head.** Every verified group extends itself, acceptance is transitive,
and two groups that accept each other have one head. -/
theorem acceptExtension_order {a b c : VerifiedGroup env} (ha : a.Verified) (hb : b.Verified) (hc : c.Verified)
    (hinj : Set.InjOn env.sha256 (a.hashed ∪ b.hashed ∪ c.hashed)) :
    a.acceptExtension a = .ok () ∧
    (a.acceptExtension b = .ok () → b.acceptExtension c = .ok () → a.acceptExtension c = .ok ()) ∧
    (a.acceptExtension b = .ok () → b.acceptExtension a = .ok () → a.digest = b.digest) := by
  have hsa : a.hashed ⊆ a.hashed ∪ b.hashed ∪ c.hashed := fun x hx => .inl (.inl hx)
  have hsb : b.hashed ⊆ a.hashed ∪ b.hashed ∪ c.hashed := fun x hx => .inl (.inr hx)
  have hsc : c.hashed ⊆ a.hashed ∪ b.hashed ∪ c.hashed := fun x hx => .inr hx
  have hdigest := injOn_digest hinj
  refine ⟨?_, fun hab hbc => ?_, fun hab hba => ?_⟩
  · rw [acceptExtension_iff hinj hsa hsa ha]
    exact ⟨_, a.getLast?_chain, a.ancestor_current⟩
  · rw [acceptExtension_iff hinj hsa hsb hb] at hab
    rw [acceptExtension_iff hinj hsb hsc hc] at hbc
    rw [acceptExtension_iff hinj hsa hsc hc]
    exact hab.trans hdigest (hb.wellLinked hsb) (hc.wellLinked hsc) hbc
  · rw [acceptExtension_iff hinj hsa hsb hb] at hab
    rw [acceptExtension_iff hinj hsb hsa ha] at hba
    obtain ⟨remaining, controller, hchecked⟩ := hb.checked
    have hchain : a.chain = b.chain :=
      Extends.antisymm hdigest hchecked.depth (ha.wellLinked hsa) (hb.wellLinked hsb) hab hba
    have hlast : some a.current = some b.current := by rw [← a.getLast?_chain, hchain, b.getLast?_chain]
    rw [VerifiedGroup.digest, Option.some.inj hlast]
    rfl

theorem acceptExtension_order_three : ∃ a b c : VerifiedGroup referenceGroups,
    a.chain.length = 1 ∧ b.chain.length = 2 ∧ c.chain.length = 3 ∧ a.acceptExtension a = .ok () ∧
      a.acceptExtension b = .ok () ∧ b.acceptExtension c = .ok () ∧ a.acceptExtension c = .ok () := by
  obtain ⟨a, ha, hca, hsa⟩ := exists_verified 1 (by decide +kernel)
  obtain ⟨b, hb, hcb, hsb⟩ := exists_verified 2 (by decide +kernel)
  obtain ⟨c, hc, hcc, hsc⟩ := exists_verified 3 (by decide +kernel)
  have hinj := injOn_certificates
  have hab : a.acceptExtension b = .ok () := by
    rw [acceptExtension_iff hinj hsa hsb hb, hca, hcb]
    exact ⟨firstCertificate, rfl, _, .refl _, by simp [certificates]⟩
  have hbc : b.acceptExtension c = .ok () := by
    rw [acceptExtension_iff hinj hsb hsc hc, hcb, hcc]
    exact ⟨secondCertificate, rfl, _, .refl _, by simp [certificates]⟩
  obtain ⟨hrefl, htrans, -⟩ := acceptExtension_order ha hb hc
    (hinj.mono (Set.union_subset (Set.union_subset hsa hsb) hsc))
  exact ⟨a, b, c, by rw [hca]; rfl, by rw [hcb]; rfl, by rw [hcc]; rfl, hrefl, hab, hbc, htrans hab hbc⟩

/-- A group that is accepted in place of another and has another head carries a certificate that directly follows the
other's head and verifies under the key of one of its readers, or the approval of a merge whose source has that head. -/
theorem VerifiedGroup.signature_of_acceptExtension {pinned incoming : VerifiedGroup env} (hincoming : incoming.Verified)
    (hinj : Set.InjOn env.sha256 (pinned.hashed ∪ incoming.hashed)) (haccept : pinned.acceptExtension incoming = .ok ())
    (hne : pinned.digest ≠ incoming.digest) :
    (∃ chain pre c post, (groupLinks env).Embeds incoming.chain chain ∧ chain = pre ++ pinned.current :: c :: post ∧
      c.body.previous = some pinned.digest ∧ SignedBy pinned.membership c.payload c.signature) ∨
    (∃ c approval remaining source, (groupLinks env).Ancestor incoming.chain c ∧ c.body.merge = some approval ∧
      sourceAtDepth env remaining approval = .ok source ∧ source.current = pinned.current ∧
      SignedBy pinned.membership (approval.payload env) approval.signature) := by
  obtain ⟨remaining, controller, hchecked⟩ := hincoming.checked
  have hentry : (groupLinks env).Ancestor incoming.chain pinned.current := by
    rw [acceptExtension_iff hinj Set.subset_union_left Set.subset_union_right hincoming] at haccept
    obtain ⟨c, hlast, hc⟩ := haccept
    rw [pinned.getLast?_chain] at hlast
    cases hlast
    exact hc
  rcases hentry.entry with hlast | ⟨chain, pre, c, post, hembeds, rfl⟩ | ⟨chain, c, source, hembeds, hc, hsource, hlast⟩
  · rw [incoming.getLast?_chain] at hlast
    refine absurd ?_ hne
    rw [VerifiedGroup.digest, VerifiedGroup.digest, Option.some.inj hlast]
  · obtain ⟨n, k, g, hg, hchain⟩ := hchecked.of_embeds hembeds rfl
    have hlinked : (groupLinks env).Linked ((pre ++ [pinned.current]) ++ [c]) := by
      refine LinkedFrom.initial hg.linked ?_
      rw [hchain]
      exact ⟨post, by simp⟩
    refine .inl ⟨_, pre, c, post, hembeds, rfl, ?_, hg.signed pre pinned.current c post hchain⟩
    have := (linked_concat.1 hlinked).2
    rwa [getLast?_concat] at this
  · obtain ⟨n, k, g, hg, rfl⟩ := hchecked.of_embeds hembeds rfl
    obtain ⟨approval, merged, hmerge, hat, rfl, reader, hreader, hverify⟩ := hg.source hc hsource
    rw [merged.getLast?_chain] at hlast
    have hcurrent := Option.some.inj hlast
    refine .inr ⟨c, approval, n, merged, ⟨_, hembeds, hc⟩, hmerge, hat, hcurrent, reader, ?_, hverify⟩
    rw [membership, ← hcurrent]
    exact hreader

/-- Whatever verifies in a group was signed by the holder of the key. -/
structure Unforged (signed : Bytes → Bytes → Prop) (group : VerifiedGroup env) : Prop where
  certificate : ∀ c, (groupLinks env).Ancestor group.chain c → ∀ key,
    env.verifyWith key c.payload c.signature = true → signed key c.payload
  approval : ∀ c, (groupLinks env).Ancestor group.chain c → ∀ approval, c.body.merge = some approval → ∀ key,
    env.verifyWith key (approval.payload env) approval.signature = true → signed key (approval.payload env)

/-- **A new membership needs a signature from the pinned one.** A group that is accepted in place of a pinned one and has
another head carries a certificate that directly follows the pinned head and was signed by one of its readers, or the
approval of a merge whose source has that head, signed by one of its readers. -/
theorem acceptExtension_signed {signed : Bytes → Bytes → Prop} {pinned incoming : VerifiedGroup env}
    (hincoming : incoming.Verified) (hinj : Set.InjOn env.sha256 (pinned.hashed ∪ incoming.hashed))
    (hunforged : Unforged signed incoming) (haccept : pinned.acceptExtension incoming = .ok ())
    (hne : pinned.digest ≠ incoming.digest) :
    (∃ chain pre c post, (groupLinks env).Embeds incoming.chain chain ∧ chain = pre ++ pinned.current :: c :: post ∧
      c.body.previous = some pinned.digest ∧ ∃ reader ∈ pinned.membership.members, signed reader.signing c.payload) ∨
    (∃ c approval remaining source, (groupLinks env).Ancestor incoming.chain c ∧ c.body.merge = some approval ∧
      sourceAtDepth env remaining approval = .ok source ∧ source.current = pinned.current ∧
      ∃ reader ∈ pinned.membership.members, signed reader.signing (approval.payload env)) := by
  rcases signature_of_acceptExtension hincoming hinj haccept hne with
    ⟨chain, pre, c, post, hembeds, rfl, hprevious, reader, hreader, hverify⟩ |
    ⟨c, approval, remaining, source, hc, hmerge, hsource, hcurrent, reader, hreader, hverify⟩
  · exact .inl ⟨_, pre, c, post, hembeds, rfl, hprevious, reader, hreader,
      hunforged.certificate c ⟨_, hembeds, by simp⟩ _ hverify⟩
  · exact .inr ⟨c, approval, remaining, source, hc, hmerge, hsource, hcurrent, reader, hreader,
      hunforged.approval c hc approval hmerge _ hverify⟩

/-- Only the laptop signs: a signature that verifies was made with its key. -/
theorem Reference.key_of_verifyWith {c : referenceGroups.Certificate} (hc : c ∈ certificates) {key : Bytes}
    (h : referenceGroups.verifyWith key c.payload c.signature = true) :
    key = referenceGroups.signingKey Reference.laptop.signingSeed := by
  have hsigned : c.signature.tail =
      referenceGroups.signingKey Reference.laptop.signingSeed ++ (toyDigest c.payload).toList := by
    simp only [certificates, mem_cons, not_mem_nil, or_false] at hc
    rcases hc with rfl | rfl | rfl <;> rfl
  have htail : c.signature.tail = key ++ (toyDigest c.payload).toList := eq_of_beq h
  exact append_cancel_right (htail.symm.trans hsigned)

theorem acceptExtension_signed_two : ∃ pinned incoming : VerifiedGroup referenceGroups,
    pinned.acceptExtension incoming = .ok () ∧ pinned.digest ≠ incoming.digest ∧
    ((∃ chain pre c post, (groupLinks referenceGroups).Embeds incoming.chain chain ∧
        chain = pre ++ pinned.current :: c :: post ∧ c.body.previous = some pinned.digest ∧
        ∃ reader ∈ pinned.membership.members, reader.signing = referenceGroups.signingKey Reference.laptop.signingSeed) ∨
      ∃ c approval remaining source, (groupLinks referenceGroups).Ancestor incoming.chain c ∧
        c.body.merge = some approval ∧ sourceAtDepth referenceGroups remaining approval = .ok source ∧
        source.current = pinned.current ∧
        ∃ reader ∈ pinned.membership.members, reader.signing = referenceGroups.signingKey Reference.laptop.signingSeed) := by
  obtain ⟨a, ha, hca, hsa⟩ := exists_verified 1 (by decide +kernel)
  obtain ⟨b, hb, hcb, hsb⟩ := exists_verified 2 (by decide +kernel)
  have hinj := injOn_certificates
  have hab : a.acceptExtension b = .ok () := by
    rw [acceptExtension_iff hinj hsa hsb hb, hca, hcb]
    exact ⟨firstCertificate, rfl, _, .refl _, by simp [certificates]⟩
  have hcurrent : a.current = firstCertificate ∧ b.current = secondCertificate := by
    have h₁ := a.getLast?_chain
    have h₂ := b.getLast?_chain
    rw [hca] at h₁
    rw [hcb] at h₂
    exact ⟨(Option.some.inj h₁).symm, (Option.some.inj h₂).symm⟩
  have hne : a.digest ≠ b.digest := by
    rw [VerifiedGroup.digest, VerifiedGroup.digest, hcurrent.1, hcurrent.2]
    decide +kernel
  have hmem : ∀ c, (groupLinks referenceGroups).Ancestor b.chain c → c ∈ certificates := by
    intro c hc
    rw [hcb] at hc
    exact mem_of_mem_take (ancestor_of_no_merge (fun x hx =>
      certificates_no_merge x (mem_of_mem_take hx)) hc)
  have hunforged : Unforged (fun key _ => key = referenceGroups.signingKey Reference.laptop.signingSeed) b := by
    refine ⟨fun c hc key h => key_of_verifyWith (hmem c hc) h, fun c hc approval hmerge => ?_⟩
    rw [certificates_no_merge c (hmem c hc)] at hmerge
    cases hmerge
  exact ⟨a, b, hab, hne, acceptExtension_signed hb (hinj.mono (Set.union_subset hsa hsb)) hunforged hab hne⟩

end FactorSeal

import FactorSeal.Personal.Reference

/-! # Merging accepted updates

What `from_update`, `merge` and `set` do to the set of changes a replica holds. -/

namespace FactorSeal

open Wire Except ChangeRules

variable {env : ReplicaEnv}

namespace PersonalReplica

variable {r r' : PersonalReplica env} {update : PersonalUpdate} {changes : List Change} {actor : Bytes}
  {updates : List PersonalUpdate}

/-- Applying keeps the replica's name and drains the changes into its log. -/
theorem applyChanges_eq_ok (h : r.applyChanges changes = .ok r') : r'.id = r.id ∧ r'.actor = r.actor ∧
      env.register.rules.drain changes.length r.log changes = some r'.log := by
  unfold applyChanges at h
  split at h
  next log hdrain =>
    cases h
    exact ⟨rfl, rfl, hdrain⟩
  next => cases h

theorem rawBytes_injective (env : ReplicaEnv) : Function.Injective env.rawBytes := by
  intro c d h
  have := env.fromBytes_rawBytes c
  rw [h, env.fromBytes_rawBytes] at this
  exact (Option.some.inj this).symm

/-- The loop over the change bytes accepts only what Automerge writes, and validates every change. -/
theorem parseChanges_eq_ok {id : String} {total : Nat} {bytes : List Bytes}
    (h : parseChanges env id total bytes = .ok changes) :
    bytes = changes.map env.rawBytes ∧ ∀ c ∈ changes, ∃ resolution, validateChange env id c = .ok resolution := by
  induction bytes generalizing total changes with
  | nil =>
    cases h
    simp
  | cons first rest ih =>
    simp only [parseChanges, bind_eq_ok, ensure_eq_ok, ofOption_eq_ok] at h
    obtain ⟨⟨⟩, -, change, -, ⟨⟩, ⟨hraw, -⟩, resolution, hvalid, changes', hrest, hchanges⟩ := h
    cases hchanges
    obtain ⟨hbytes, hall⟩ := ih hrest
    refine ⟨by rw [List.map_cons, hraw, ← hbytes], fun c hc => ?_⟩
    rcases List.mem_cons.1 hc with rfl | hc
    · exact ⟨resolution, hvalid⟩
    · exact hall c hc

/-- What an accepted update is: a closed log of its changes whose resolutions each keep one of several candidates. -/
structure Accepted (update : PersonalUpdate) (actor : Bytes) (r : PersonalReplica env) : Prop where
  id : r.id = update.itemId
  actor : r.actor = actor
  changes : ∃ changes, parseChanges env update.itemId 0 update.changes = .ok changes ∧
    env.register.rules.drain changes.length [] changes = some r.log
  length : r.log.length = update.changes.length
  resolutions : ∀ c ∈ r.log, env.register.assigned c = none → env.register.resolves r.log c = true
  values : ∃ values, r.values = .ok values

theorem accepted_of_fromUpdate (h : fromUpdate update actor = .ok r) : Accepted update actor r := by
  simp only [fromUpdate, bind_eq_ok, ensure_eq_ok] at h
  obtain ⟨⟨⟩, -, changes, hparse, empty, hnew, applied, happly, ⟨⟩, hlen, ⟨⟩, hres, values, hvalues, hr⟩ := h
  obtain rfl : applied = r := by cases hr; rfl
  simp only [new, bind_eq_ok, ensure_eq_ok] at hnew
  obtain ⟨⟨⟩, -, hnew⟩ := hnew
  cases hnew
  obtain ⟨hid, hactor, hdrain⟩ := applyChanges_eq_ok happly
  refine ⟨hid, hactor, ⟨changes, hparse, hdrain⟩, hlen, ?_, values, hvalues⟩
  intro c hc hnone
  exact List.all_eq_true.1 hres c (List.mem_filter.2 ⟨hc, by simpa using hnone⟩)

/-- An update taken from a replica brings back its log. -/
theorem log_of_fromUpdate_update
    (hupdate : r.update = .ok update) (h : fromUpdate update actor = .ok r') : r'.log = r.log := by
  simp only [PersonalReplica.update, bind_eq_ok, ensure_eq_ok] at hupdate
  obtain ⟨⟨⟩, -, hupdate⟩ := hupdate
  cases hupdate
  obtain ⟨changes, hparse, hdrain⟩ := (accepted_of_fromUpdate h).changes
  have hchanges : r.log.reverse = changes :=
    List.map_injective_iff.2 (rawBytes_injective env) (parseChanges_eq_ok hparse).1
  rw [← hchanges, List.length_reverse, drain_reverse r.closed] at hdrain
  exact (Option.some.inj hdrain).symm

/-- A successful merge: the update is accepted on its own, and its changes are drained into the log. -/
theorem merge_eq_ok {changed : Bool} (h : r.merge update = .ok (r', changed)) :
    r.id = update.itemId ∧ r'.id = r.id ∧ r'.actor = r.actor ∧ (changed = true ↔ r'.heads ≠ r.heads) ∧
      (∃ values, r'.values = .ok values) ∧
      ∃ incoming : PersonalReplica env, fromUpdate update r.actor = .ok incoming ∧
        env.register.rules.drain incoming.log.length r.log incoming.log.reverse = some r'.log := by
  simp only [merge, bind_eq_ok, ensure_eq_ok] at h
  obtain ⟨⟨⟩, hid, incoming, hincoming, applied, happly, values, hvalues, saved, hsave, hr⟩ := h
  cases hr
  obtain ⟨hid', hactor, hdrain⟩ := applyChanges_eq_ok happly
  rw [List.length_reverse] at hdrain
  exact ⟨hid, hid', hactor, by simp, ⟨values, hvalues⟩, incoming, hincoming, hdrain⟩

/-- Merging updates one after the other. -/
def mergeAll (r : PersonalReplica env) (updates : List PersonalUpdate) : VaultResult (PersonalReplica env) :=
  updates.foldlM (fun r update => do return (← r.merge update).1) r

/-- The logs that come together when the updates are merged into a replica: its own and that of each update. -/
def sources (r : PersonalReplica env) (updates : List PersonalUpdate) : List (PersonalReplica env) :=
  r :: updates.filterMap fun update => (fromUpdate update r.actor).toOption

theorem mergeAll_cons (h : r.mergeAll (update :: updates) = .ok r') :
    ∃ r₁ changed, r.merge update = .ok (r₁, changed) ∧ r₁.mergeAll updates = .ok r' := by
  simp only [mergeAll, List.foldlM_cons, bind_eq_ok] at h
  obtain ⟨r₁, ⟨⟨merged, changed⟩, hmerge, hr⟩, hrest⟩ := h
  cases hr
  exact ⟨merged, changed, hmerge, hrest⟩

/-- **Merging is union** where no two of the changes share a hash. -/
theorem mem_mergeAll (h : r.mergeAll updates = .ok r')
    (hinj : Set.InjOn env.hash {c | ∃ s ∈ r.sources updates, c ∈ s.log}) (c : Change) :
    c ∈ r'.log ↔ ∃ s ∈ r.sources updates, c ∈ s.log := by
  induction updates generalizing r with
  | nil =>
    cases h
    simp [sources]
  | cons update updates ih =>
    obtain ⟨r₁, changed, hmerge, hrest⟩ := mergeAll_cons h
    obtain ⟨-, -, hactor, -, -, incoming, hincoming, hdrain⟩ := merge_eq_ok hmerge
    have hsources : r.sources (update :: updates) = r :: incoming ::
        updates.filterMap fun update => (fromUpdate update r.actor).toOption := by
      simp [sources, hincoming, Except.toOption]
    have hsources₁ : r₁.sources updates = r₁ ::
        updates.filterMap fun update => (fromUpdate update r.actor).toOption := by
      rw [sources, hactor]
    rw [hsources] at hinj
    have hunion : ∀ x, x ∈ r₁.log ↔ x ∈ r.log ∨ x ∈ incoming.log := by
      intro x
      have := (drain_spec r.closed hdrain).mem_iff (hinj.mono ?_) x
      · simpa using this
      · rintro y (hy | hy)
        · exact ⟨r, by simp, hy⟩
        · exact ⟨incoming, by simp, by simpa using hy⟩
    have hmem : (∃ s ∈ r.sources (update :: updates), c ∈ s.log) ↔ ∃ s ∈ r₁.sources updates, c ∈ s.log := by
      simp [hsources, hsources₁, hunion, or_assoc]
    rw [hmem]
    refine ih hrest (hinj.mono ?_)
    rintro y ⟨s, hs, hy⟩
    rw [hsources₁] at hs
    rcases List.mem_cons.1 hs with rfl | hs
    · rcases (hunion y).1 hy with hy | hy
      · exact ⟨r, by simp, hy⟩
      · exact ⟨incoming, by simp, hy⟩
    · exact ⟨s, by simp [hs], hy⟩

/-! ## The register is not emptied -/

/-- Another assignment among the sources overwrites `a`. -/
def Replaced (sources : List (PersonalReplica env)) (a : Change) : Prop :=
  ∃ s ∈ sources, ∃ b ∈ s.log, (env.register.assigned b).isSome ∧ env.register.opId a ∈ env.register.preds b

/-- A resolution among the sources had `a` to choose from and kept another value. -/
def Dropped (sources : List (PersonalReplica env)) (a : Change) : Prop :=
  ∃ s ∈ sources, ∃ c ∈ s.log, env.register.assigned c = none ∧ a ∈ env.register.candidates s.log c ∧
    a ∉ env.register.outcome s.log c

instance (sources : List (PersonalReplica env)) (a : Change) : Decidable (Replaced sources a) :=
  inferInstanceAs (Decidable (∃ s ∈ sources, ∃ b ∈ s.log, _ ∧ _))

instance (sources : List (PersonalReplica env)) (a : Change) : Decidable (Dropped sources a) :=
  inferInstanceAs (Decidable (∃ s ∈ sources, ∃ c ∈ s.log, _ ∧ _ ∧ _))

/-- **The register survives a merge exactly when the resolutions agree on something**: some value or tombstone that no
other assignment replaces was kept by every resolution that could choose it. The validator looks at each resolution in
its own past, so it does not see that two of them keep different values. -/
theorem mergeAll_visible_ne_nil_iff (r r' : PersonalReplica env) (updates : List PersonalUpdate)
    (h : r.mergeAll updates = .ok r')
    (hinj : Set.InjOn env.hash {c | ∃ s ∈ r.sources updates, c ∈ s.log}) :
    r'.visible ≠ [] ↔
      ∃ s ∈ r.sources updates, ∃ a ∈ s.log, (env.register.assigned a).isSome ∧
        ¬ Replaced (r.sources updates) a ∧ ¬ Dropped (r.sources updates) a := by
  have hmem := mem_mergeAll h hinj
  -- a source sees the same candidates and the same outcome as the merged log
  have hcand : ∀ s ∈ r.sources updates, ∀ c ∈ s.log, ∀ a,
      a ∈ env.register.candidates s.log c ↔ a ∈ env.register.candidates r'.log c := by
    intro s hs c hc a
    refine RegisterOps.mem_visible_past_iff s.closed r'.closed (fun x hx => (hmem x).2 ⟨s, hs, hx⟩) fun d hd => ?_
    exact s.closed.deps_mem hc hd
  have hout : ∀ s ∈ r.sources updates, ∀ c ∈ s.log, ∀ a,
      a ∈ env.register.outcome s.log c ↔ a ∈ env.register.outcome r'.log c := by
    intro s hs c hc a
    refine RegisterOps.mem_visible_past_iff s.closed r'.closed (fun x hx => (hmem x).2 ⟨s, hs, hx⟩) fun d hd => ?_
    rw [List.mem_singleton.1 hd]
    exact List.mem_map_of_mem hc
  rw [visible, RegisterOps.visible_ne_nil_iff r'.closed]
  constructor
  · rintro ⟨a, ha, hassigned, hreplaced, hkept⟩
    obtain ⟨s, hs, ha⟩ := (hmem a).1 ha
    refine ⟨s, hs, a, ha, hassigned, ?_, ?_⟩
    · rintro ⟨t, ht, b, hb, hassigned, hpred⟩
      exact hreplaced b ((hmem b).2 ⟨t, ht, hb⟩) hassigned hpred
    · rintro ⟨t, ht, c, hc, hnone, hcan, hnot⟩
      have := hkept c ((hmem c).2 ⟨t, ht, hc⟩) hnone ((hcand t ht c hc a).1 hcan)
      exact hnot ((hout t ht c hc a).2 this)
  · rintro ⟨s, hs, a, ha, hassigned, hreplaced, hdropped⟩
    refine ⟨a, (hmem a).2 ⟨s, hs, ha⟩, hassigned, fun b hb hsome hpred => ?_, fun c hc hnone hcan => ?_⟩
    · obtain ⟨t, ht, hb⟩ := (hmem b).1 hb
      exact hreplaced ⟨t, ht, b, hb, hsome, hpred⟩
    · obtain ⟨t, ht, hc⟩ := (hmem c).1 hc
      by_contra hnot
      exact hdropped ⟨t, ht, c, hc, hnone, (hcand t ht c hc a).2 hcan, fun ho => hnot ((hout t ht c hc a).1 ho)⟩

open Reference in
/-- One device settles the race for the edit: the register keeps it. -/
theorem mergeAll_keepEdited_visible :
    ∃ r', raceStart.mergeAll [raceUpdate [deleted, edited, keepEdited]] = .ok r' ∧ r'.visible ≠ [] := by
  have hok : (raceStart.mergeAll [raceUpdate [deleted, edited, keepEdited]]).isOk = true := by decide +kernel
  have hsources : ∀ s ∈ raceStart.sources [raceUpdate [deleted, edited, keepEdited]], ∀ c ∈ s.log, c ∈ raceChanges := by
    decide +kernel
  obtain ⟨r', h⟩ := exists_of_isOk hok
  refine ⟨r', h, (mergeAll_visible_ne_nil_iff raceStart r' _ h ?_).2 (by decide +kernel)⟩
  exact raceChanges_injOn.mono fun c ⟨s, hs, hc⟩ => hsources s hs c hc

open Reference in
/-- Two accepted updates, each with a resolution that keeps one value, empty the register together. -/
theorem mergeAll_resolutions_empty :
    ¬ ∀ (env : ReplicaEnv) (r r' : PersonalReplica env) (updates : List PersonalUpdate), updates ≠ [] →
      (∀ update ∈ updates, ∃ s : PersonalReplica env, fromUpdate update r.actor = .ok s) →
      Set.InjOn env.hash {c | ∃ s ∈ r.sources updates, c ∈ s.log} →
      r.mergeAll updates = .ok r' → r'.visible ≠ [] := by
  intro claim
  let updates := [raceUpdate [deleted, edited, keepEdited], raceUpdate [deleted, edited, keepDeleted]]
  have haccepted : ∀ update ∈ updates, (@fromUpdate referenceReplica update raceStart.actor).isOk = true := by
    decide +kernel
  have hsources : ∀ s ∈ raceStart.sources updates, ∀ c ∈ s.log, c ∈ raceChanges := by decide +kernel
  have hempty : (raceStart.mergeAll updates).toOption.map visible = some [] := by decide +kernel
  cases hmerge : raceStart.mergeAll updates with
  | error e => simp [hmerge, Except.toOption] at hempty
  | ok r' =>
    rw [hmerge] at hempty
    refine claim referenceReplica raceStart r' updates (by simp [updates]) ?_ ?_ hmerge (Option.some.inj hempty)
    · exact fun update hupdate => exists_of_isOk (haccepted update hupdate)
    · exact raceChanges_injOn.mono fun c ⟨s, hs, hc⟩ => hsources s hs c hc

end PersonalReplica

end FactorSeal

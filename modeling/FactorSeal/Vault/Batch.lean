import FactorSeal.Vault.InPlace
import FactorSeal.Vault.Records
import FactorSeal.Vault.Reference

/-! # Batches of operations

A batch is one mutation: it is rolled back as a whole, and committed it is the same as its operations committed one after
another. The second needs that a projection between two operations makes no difference: documents are `Alike` if they
show the same record under each key and, if personal, the same metadata, and operations take alike documents to alike
ones. -/

namespace FactorSeal

open Wire Except Std ExtMap SecretDocument OpenDocument ExtTreeMap

variable {env : VaultEnv} {context : MutationContext} {operation : DocumentOperation} {draw draw' : Nat}

namespace SecretDocument

variable {d d' p : SecretDocument} {deadline : Option UInt64}

/-- The same document as far as a projection shows it. -/
structure Alike (d p : SecretDocument) : Prop where
  actor : p.actor = d.actor
  kind : p.kind = d.kind
  partition : p.partition = d.partition
  personal : d.isPersonal = true → p.personal = d.personal
  entries : ∀ key : String, p.entries[key]? = d.entries[key]? ∨ ∃ l l' r, d.entries[key]? = some l ∧
    p.entries[key]? = some l' ∧ visibleRecord l = .ok r ∧ visibleRecord l' = .ok r

namespace Alike

theorem isPersonal (h : Alike d p) : p.isPersonal = d.isPersonal := by
  rw [SecretDocument.isPersonal, SecretDocument.isPersonal, h.kind, h.partition]

theorem symm (h : Alike d p) : Alike p d where
  actor := h.actor.symm
  kind := h.kind.symm
  partition := h.partition.symm
  personal hp := (h.personal (h.isPersonal ▸ hp)).symm
  entries key := by
    rcases h.entries key with hsame | ⟨l, l', r, hl, hl', hr, hr'⟩
    · exact .inl hsame.symm
    · exact .inr ⟨l', l, r, hl', hl, hr', hr⟩

theorem trans {q : SecretDocument} (h : Alike d p) (h' : Alike p q) : Alike d q where
  actor := h'.actor.trans h.actor
  kind := h'.kind.trans h.kind
  partition := h'.partition.trans h.partition
  personal hp := (h'.personal (h.isPersonal.trans hp)).trans (h.personal hp)
  entries key := by
    rcases h.entries key with hsame | ⟨l, l', r, hl, hl', hr, hr'⟩ <;>
      rcases h'.entries key with hsame' | ⟨m, m', r', hm, hm', hr₁, hr₁'⟩
    · exact .inl (hsame'.trans hsame)
    · exact .inr ⟨m, m', r', hsame ▸ hm, hm', hr₁, hr₁'⟩
    · exact .inr ⟨l, l', r, hl, hsame'.trans hl', hr, hr'⟩
    · rw [hl'] at hm
      cases hm
      rw [hr'] at hr₁
      cases hr₁
      exact .inr ⟨l, m', r, hl, hm', hr, hr₁'⟩

theorem head? (h : Alike d p) (key : String) : (p.records key).head? = (d.records key).head? := by
  have hhead : ∀ {l : List SecretRecord} {r : SecretRecord}, visibleRecord l = .ok r → l.head? = some r := by
    intro l r hl
    cases l with
    | nil => cases hl
    | cons first rest =>
      obtain ⟨-, -, hl⟩ := bind_eq_ok.1 hl
      cases hl
      rfl
  rcases h.entries key with hsame | ⟨l, l', r, hl, hl', hr, hr'⟩
  · simp [records, hsame]
  · simp [records, hl, hl', hhead hr, hhead hr']

/-- A change of the metadata that both make. -/
theorem withPersonal (h : Alike d p) (personal : PersonalMetadata) : Alike { d with personal } { p with personal } :=
  ⟨h.actor, h.kind, h.partition, fun _ => rfl, h.entries⟩

theorem insert (h : Alike d p) (key : String) (record : SecretRecord) :
    Alike { d with entries := d.entries.insert key [record] } { p with entries := p.entries.insert key [record] } := by
  refine ⟨h.actor, h.kind, h.partition, h.personal, fun other => ?_⟩
  by_cases hkey : key = other
  · subst hkey
    exact .inl (by simp)
  · simpa [getElem?_insert, hkey] using h.entries other

theorem erase (h : Alike d p) (key : String) :
    Alike { d with entries := d.entries.erase key } { p with entries := p.entries.erase key } := by
  refine ⟨h.actor, h.kind, h.partition, h.personal, fun other => ?_⟩
  by_cases hkey : key = other
  · subst hkey
    exact .inl (by simp)
  · simpa [getElem?_erase, hkey] using h.entries other

/-! ### Projections -/

end Alike

theorem alike_project (h : d.project = .ok (p, deadline)) : Alike d p := by
  obtain ⟨entries, hp⟩ := project_eq_ok h
  refine ⟨by rw [hp]; rfl, by rw [hp]; rfl, by rw [hp]; rfl, fun hpersonal => by rw [hp, if_pos hpersonal], fun key => ?_⟩
  cases hkey : p.entries[key]? with
  | some records =>
    obtain ⟨before, record, hbefore, hvisible, rfl⟩ := (getElem?_project h).1 hkey
    exact .inr ⟨before, [record], record, hbefore, rfl, hvisible, rfl⟩
  | none =>
    cases hbefore : d.entries[key]? with
    | none => exact .inl rfl
    | some before =>
      obtain ⟨record, hvisible⟩ := visible_of_project h hbefore
      have hmem := (getElem?_project h).2 ⟨before, record, hbefore, hvisible, rfl⟩
      rw [hkey] at hmem
      cases hmem

/-- Both documents after one operation: still alike, with the same changes queued. -/
structure Abreast (d p d' p' : SecretDocument) : Prop where
  alike : Alike d' p'
  queued : ∃ queue, d'.pending = d.pending ++ queue ∧ p'.pending = p.pending ++ queue

namespace Abreast

variable {d₁ d₂ p₁ p₂ : SecretDocument}

/-- Nothing is queued. -/
theorem of_alike (h : Alike d₁ p₁) (hd : d₁.pending = d.pending) (hp : p₁.pending = p.pending) : Abreast d p d₁ p₁ :=
  ⟨h, [], by rw [hd, List.append_nil], by rw [hp, List.append_nil]⟩

theorem trans (h : Abreast d p d₁ p₁) (h' : Abreast d₁ p₁ d₂ p₂) : Abreast d p d₂ p₂ := by
  obtain ⟨queue, hd, hp⟩ := h.queued
  obtain ⟨queue', hd', hp'⟩ := h'.queued
  refine ⟨h'.alike, queue ++ queue', ?_, ?_⟩
  · rw [hd', hd, List.append_assoc]
  · rw [hp', hp, List.append_assoc]

/-- The same change at the end of both queues. -/
theorem enqueue (h : Abreast d p d₁ p₁) (change : PendingHistory) :
    Abreast d p { d₁ with pending := d₁.pending ++ [change] } { p₁ with pending := p₁.pending ++ [change] } := by
  obtain ⟨queue, hd, hp⟩ := h.queued
  refine ⟨⟨h.alike.actor, h.alike.kind, h.alike.partition, h.alike.personal, h.alike.entries⟩, queue ++ [change], ?_, ?_⟩
  · rw [hd, List.append_assoc]
  · rw [hp, List.append_assoc]

end Abreast

namespace Alike

variable {address : SecretAddress} {value : Bytes} {evictAt : Option UInt64} {deleted : Bool}

theorem personalReplicas (h : Alike d p) : p.personalReplicas env = d.personalReplicas env := by
  unfold SecretDocument.personalReplicas
  rw [h.isPersonal]
  by_cases hp : d.isPersonal = true
  · rw [h.personal hp]
  · simp [ensure_of_not hp]

theorem ensurePersonalUnconflicted (h : Alike d p) (address : SecretAddress) :
    p.ensurePersonalUnconflicted env address = d.ensurePersonalUnconflicted env address := by
  unfold SecretDocument.ensurePersonalUnconflicted
  rw [h.isPersonal, h.personalReplicas, h.actor]

theorem changedItem (h : Alike d p) (address : SecretAddress) (deleted : Bool) :
    p.changedItem env address deleted = d.changedItem env address deleted := by
  unfold SecretDocument.changedItem
  rw [h.head?]

theorem validatePersonalPut (h : Alike d p) (hd : d.validatePersonalPut env address value evictAt = .ok d') :
    ∃ p', p.validatePersonalPut env address value evictAt = .ok p' ∧ Abreast d p d' p' := by
  unfold SecretDocument.validatePersonalPut at hd ⊢
  rw [h.isPersonal]
  split at hd
  next hp =>
    simp only [bind_eq_ok, ofOption_eq_ok, ensure_eq_ok] at hd
    obtain ⟨item, hitem, ⟨⟩, haddress, hd⟩ := hd
    cases hd
    rw [if_pos hp, hitem, h.personal hp]
    refine ⟨_, ?_, Abreast.of_alike (h.withPersonal { d.personal with layout := some 1 }) (by rfl) (by rfl)⟩
    simp only [ofOption_some, ok_bind, ensure_of haddress]
    rfl
  next hp =>
    cases hd
    rw [if_neg hp]
    exact ⟨p, rfl, .of_alike h rfl rfl⟩

theorem recordPersonalChange (h : Alike d p) (hd : d.recordPersonalChange env address deleted = .ok d') :
    ∃ p', p.recordPersonalChange env address deleted = .ok p' ∧ Abreast d p d' p' := by
  rcases recordPersonalChange_eq_ok hd with ⟨hp, rfl⟩ |
    ⟨id, catalog, item, replica, changed, stored, hp, rfl, hcatalog, hreplica, hitem, hchanged, hstored, hsaved⟩
  · refine ⟨p, ?_, .of_alike h rfl rfl⟩
    unfold recordPersonalChange
    rw [if_neg (by rw [h.isPersonal, hp]; exact Bool.false_ne_true)]
  · obtain ⟨hlength, rfl⟩ := savePersonalReplicas_eq_ok hsaved
    refine ⟨{ p with personal := { p.personal with replicas := some (env.catalogJson.encode stored) } }, ?_,
      Abreast.of_alike ?_ (by rfl) (by rfl)⟩
    · rw [recordPersonalChange, if_pos (h.isPersonal.trans hp)]
      simp only [h.personalReplicas, hcatalog, ok_bind, h.actor, hreplica, h.changedItem, hitem, hchanged, hstored,
        savePersonalReplicas, ensure_of hlength]
      rfl
    · rw [h.personal hp]
      exact h.withPersonal _

theorem recordIf (h : Alike d p) {c : Bool}
    (hd : (if c then d.recordPersonalChange env address deleted else .ok d) = .ok d') :
    ∃ p', (if c then p.recordPersonalChange env address deleted else .ok p) = .ok p' ∧ Abreast d p d' p' := by
  cases c with
  | true => exact h.recordPersonalChange hd
  | false =>
    cases hd
    exact ⟨p, rfl, .of_alike h rfl rfl⟩

theorem written (h : Alike d p) {recordRevision : Bool} {existing : Option SecretRecord} {changed : Bool}
    {versionId : VersionId}
    (hd : OpenDocument.written env address value evictAt context recordRevision existing changed versionId d = .ok d') :
    ∃ p', OpenDocument.written env address value evictAt context recordRevision existing changed versionId p = .ok p' ∧
      Abreast d p d' p' := by
  unfold OpenDocument.written at hd ⊢
  obtain ⟨recorded, hrecorded, rfl⟩ := map_eq_ok.1 hd
  obtain ⟨p₁, hp₁, hsame⟩ := (h.insert (address.storageKey env.sha256) _).recordIf hrecorded
  have hboth : Abreast d p recorded p₁ := ⟨hsame.alike, hsame.queued⟩
  refine ⟨_, map_eq_ok.2 ⟨p₁, hp₁, rfl⟩, ?_⟩
  have hkind := hboth.alike.kind
  by_cases hqueue : (changed || recorded.kind.historyRetention.recordUnchanged) = true
  · rw [if_pos hqueue, if_pos (hkind ▸ hqueue)]
    exact hboth.enqueue _
  · rw [if_neg hqueue, if_neg (hkind ▸ hqueue)]
    exact hboth

theorem putUncommitted (h : Alike d p)
    (hd : d.putUncommitted env draw address value evictAt context = .ok (d', draw')) :
    ∃ p', p.putUncommitted env draw address value evictAt context = .ok (p', draw') ∧ Abreast d p d' p' := by
  simp only [SecretDocument.putUncommitted, putValueUncommitted_eq, bind_eq_ok] at hd ⊢
  obtain ⟨⟨⟩, hclear, d₁, hd₁, hd⟩ := hd
  obtain ⟨d₂, hwritten, heq⟩ := map_eq_ok.1 hd
  cases heq
  obtain ⟨p₁, hp₁, hfirst⟩ := h.validatePersonalPut hd₁
  obtain ⟨p₂, hp₂, hsecond⟩ := hfirst.alike.written hwritten
  refine ⟨p₂, ⟨(), (h.ensurePersonalUnconflicted address).trans hclear, p₁, hp₁, ?_⟩, hfirst.trans hsecond⟩
  rw [hfirst.alike.head?]
  exact map_eq_ok.2 ⟨p₂, hp₂, rfl⟩

theorem deleteUncommitted (h : Alike d p) {operation : HistoryOperation} {removed : Bool}
    (hd : d.deleteUncommitted env address operation = .ok (d', removed)) :
    ∃ p', p.deleteUncommitted env address operation = .ok (p', removed) ∧ Abreast d p d' p' := by
  simp only [SecretDocument.deleteUncommitted, SecretDocument.deleteValueUncommitted, bind_eq_ok] at hd ⊢
  obtain ⟨⟨⟩, hclear, hd⟩ := hd
  rw [h.ensurePersonalUnconflicted, hclear, h.head?]
  cases hhead : (d.records (address.storageKey env.sha256)).head? with
  | none =>
    rw [hhead] at hd
    cases hd
    exact ⟨p, ⟨(), rfl, rfl⟩, .of_alike h rfl rfl⟩
  | some existing =>
    rw [hhead] at hd
    dsimp only at hd ⊢
    rw [if_pos trivial, bind_eq_ok] at hd
    obtain ⟨d₁, hd₁, hd⟩ := hd
    cases hd
    obtain ⟨p₁, hp₁, hsame⟩ := (h.erase (address.storageKey env.sha256)).recordPersonalChange hd₁
    have hboth : Abreast d p d₁ p₁ := ⟨hsame.alike, hsame.queued⟩
    refine ⟨_, ⟨(), rfl, ?_⟩, hboth.enqueue _⟩
    rw [if_pos trivial, hp₁]
    rfl

/-- The operation on the other document; what it says of having changed anything does not depend on what has changed
before. -/
theorem applyOne (h : Alike d p)
    {before after : Bool} (hd : applyOne env context (d, draw, before) operation = .ok (d', draw', after)) :
    ∃ p' changed, after = (before || changed) ∧ Abreast d p d' p' ∧ ∀ before',
      applyOne env context (p, draw, before') operation = .ok (p', draw', before' || changed) := by
  cases operation with
  | put address value evictAt =>
    simp only [applyOne, bind_eq_ok] at hd ⊢
    obtain ⟨⟨d₁, draw₁⟩, hput, hd⟩ := hd
    cases hd
    obtain ⟨p', hp', hsame⟩ := h.putUncommitted hput
    exact ⟨p', true, by simp, hsame, fun before' => ⟨(p', draw₁), hp', by simp; rfl⟩⟩
  | delete address =>
    simp only [applyOne, bind_eq_ok] at hd ⊢
    obtain ⟨⟨d₁, removed⟩, hdelete, hd⟩ := hd
    cases hd
    obtain ⟨p', hp', hsame⟩ := h.deleteUncommitted hdelete
    exact ⟨p', removed, rfl, hsame, fun before' => ⟨(p', removed), hp', rfl⟩⟩

end Alike

theorem applyOne_unchanged (h : applyOne env context (d, draw, false) operation = .ok (d', draw', false)) : d' = d := by
  cases operation with
  | put address value evictAt =>
    obtain ⟨r, -, h⟩ := bind_eq_ok.1 h
    cases h
  | delete address =>
    obtain ⟨⟨d₁, removed⟩, hdelete, h⟩ := bind_eq_ok.1 h
    cases removed with
    | true => cases h
    | false =>
      cases h
      rcases entries_deleteUncommitted hdelete with ⟨-, hsame, -⟩ | ⟨hremoved, -⟩
      · exact hsame
      · cases hremoved

/-- How a batch ends: what its operations leave is projected if they have changed anything. -/
theorem apply_eq_ok {operations : List DocumentOperation} {mutation : Option DocumentMutation} :
    d.apply env draw operations context = .ok (mutation, d', draw') ↔
      ∃ q changed, operations.foldlM (applyOne env context) (d, draw, false) = .ok (q, draw', changed) ∧
        ((changed = true ∧ ∃ finished, q.finishMutation env = .ok (finished, d') ∧ mutation = some finished) ∨
          (changed = false ∧ d' = q ∧ mutation = none)) := by
  rw [apply, bind_eq_ok]
  constructor
  · rintro ⟨⟨q, draw₁, changed⟩, hrun, h⟩
    cases changed with
    | true =>
      dsimp only at h
      rw [if_pos rfl, bind_eq_ok] at h
      obtain ⟨⟨finished, d₁⟩, hfinish, h⟩ := h
      cases h
      exact ⟨q, true, hrun, .inl ⟨rfl, finished, hfinish, rfl⟩⟩
    | false =>
      cases h
      exact ⟨_, false, hrun, .inr ⟨rfl, rfl, rfl⟩⟩
  · rintro ⟨q, changed, hrun, ⟨rfl, finished, hfinish, rfl⟩ | ⟨rfl, rfl, rfl⟩⟩
    · refine ⟨_, hrun, ?_⟩
      dsimp only
      rw [if_pos rfl, hfinish]
      rfl
    · exact ⟨_, hrun, rfl⟩

/-- No key holds concurrent records that differ. -/
def Shown (d : SecretDocument) : Prop := ∀ (key : String) l, d.entries[key]? = some l → ∃ r, visibleRecord l = .ok r

theorem Shown.applyOne {state state' : SecretDocument × Nat × Bool} (hd : Shown state.1)
    (h : applyOne env context state operation = .ok state') : Shown state'.1 := by
  intro key l hl
  cases operation with
  | put address value evictAt =>
    obtain ⟨⟨d', draw'⟩, hput, h⟩ := bind_eq_ok.1 h
    cases h
    obtain ⟨record, -, -, -, -, hentries⟩ := entries_putUncommitted hput
    rw [hentries, getElem?_insert_iff] at hl
    split at hl
    · cases hl
      exact ⟨record, rfl⟩
    · exact hd key l hl
  | delete address =>
    obtain ⟨⟨d', removed⟩, hdelete, h⟩ := bind_eq_ok.1 h
    cases h
    rcases entries_deleteUncommitted hdelete with ⟨-, rfl, -⟩ | ⟨-, hentries⟩
    · exact hd key l hl
    · rw [hentries, getElem?_erase] at hl
      split at hl
      · cases hl
      · exact hd key l hl

end SecretDocument

namespace OpenDocument

open InPlace SecretDocument

variable {w w' : OpenDocument} {operations : List DocumentOperation} {mutations : List DocumentMutation}
  {mutation : Option DocumentMutation}

theorem apply_eq (env : VaultEnv) (operations : List DocumentOperation) (context : MutationContext) (w : OpenDocument) :
    (∀ mutation d draws, w.document.apply env w.draws operations context = .ok (mutation, d, draws) →
      apply env operations context w =
        (.ok mutation, ⟨d, if mutation.isSome then d.content else w.document.content, draws⟩)) ∧
    ∀ e, w.document.apply env w.draws operations context = .error e →
      ∃ draws, apply env operations context w =
        (.error e, ⟨{ w.document with pending := [] }, w.document.content, draws⟩) := by
  have hfollows : Follows kept (applyAll env context false operations >>= finishIf env) (applied env operations context) :=
    follows_apply operations context
  obtain ⟨hok, herror⟩ := hfollows.atomically w
  refine ⟨fun mutation d draws h => hok _ _ (map_eq_ok.2 ⟨_, h, rfl⟩), fun e h => ?_⟩
  have hrun : applied env operations context w.commit = .error e := by
    show Except.map _ (w.document.apply env w.draws operations context) = _
    rw [h]
    rfl
  obtain ⟨w', hkept, hrun⟩ := herror e hrun
  refine ⟨w'.draws, ?_⟩
  -- what the edits leave alone is all the rollback needs
  simp only [kept, commit, Prod.mk.injEq] at hkept
  obtain ⟨hcommitted, hactor, hkind, hpartition⟩ := hkept
  show InPlace.atomically commit rollback _ w = _
  rw [hrun, rollback, hcommitted]
  dsimp only
  rw [hactor, hkind, hpartition]
  rfl

/-- A batch that succeeds is the function on the document. -/
theorem apply_eq_ok : apply env operations context w = (.ok mutation, w') ↔
      ∃ d draws, w.document.apply env w.draws operations context = .ok (mutation, d, draws) ∧
        w' = ⟨d, if mutation.isSome then d.content else w.document.content, draws⟩ := by
  obtain ⟨hok, herror⟩ := apply_eq env operations context w
  constructor
  · intro h
    cases hrun : w.document.apply env w.draws operations context with
    | error e =>
      obtain ⟨draws, hw⟩ := herror e hrun
      cases h.symm.trans hw
    | ok r =>
      cases h.symm.trans (hok r.1 r.2.1 r.2.2 hrun)
      exact ⟨r.2.1, r.2.2, rfl, rfl⟩
  · rintro ⟨d, draws, hrun, rfl⟩
    exact hok mutation d draws hrun

/-- A document between two mutations: fresh, loaded, or as the last mutation left it, whatever that one did. -/
inductive Reached (env : VaultEnv) : OpenDocument → Prop
  | fresh (actor : Bytes) (kind : DocumentKind) (partition : Bytes) (committed : DocumentContent) (draws : Nat) :
    Reached env ⟨.new actor kind partition, committed, draws⟩
  | loaded {snapshot actor : Bytes} {kind : DocumentKind} {expected : Option Bytes} {d : SecretDocument}
    (h : load env snapshot actor kind expected = .ok d) (committed : DocumentContent) (draws : Nat) :
    Reached env ⟨d, committed, draws⟩
  | finished {d d' : SecretDocument} {mutation : DocumentMutation} (h : d.finishMutation env = .ok (mutation, d'))
    (draws : Nat) : Reached env ⟨d', d'.content, draws⟩
  | rolledBack (w : OpenDocument) : Reached env w.rollback
  | unchanged {w : OpenDocument} (h : Reached env w) (draws : Nat) : Reached env { w.commit with draws }

theorem Reached.pending (h : Reached env w) : w.document.pending = [] := by
  induction h with
  | fresh => rfl
  | loaded h =>
    unfold load at h
    split at h
    · cases h
    · simp only [bind_eq_ok] at h
      obtain ⟨partition, -, ⟨⟩, -, entries, -, h⟩ := h
      cases h
      rfl
  | finished h =>
    obtain ⟨deadline, hproject, -⟩ := finishMutation_eq_ok h
    obtain ⟨entries, hd⟩ := project_eq_ok hproject
    rw [hd]
    rfl
  | rolledBack => rfl
  | unchanged _ _ ih => exact ih

end OpenDocument

end FactorSeal

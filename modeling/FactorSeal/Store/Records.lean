import FactorSeal.Store.Client
import FactorSeal.Vault.Records

/-! # What commands do to the records of one document

Seen from one document of the plain vault, a command changes nothing, or commits a document that derives from the one
there was (`Follows`). Only a write to that document brings new records into it (`Command.Writes`), so what a program does
to it is read off the writes it can make (`run_follows`). -/

namespace FactorSeal

open Wire Except Std ExtMap SecretDocument PlainDocument StoreOps

variable {v' : PlainVault} {New : SecretRecord → Prop} {expected : Option Bytes}

/-- The command can write this record into the document of the kind and partition. -/
def Command.Writes (scope : DocumentKind) (partition : Bytes) (r : SecretRecord) : Command → Prop
  | .put s p address value evictAt _ _ =>
    s = scope ∧ p = partition ∧ r.address = address ∧ r.value = value ∧ r.evictAt = evictAt
  | .mutate s p operations _ _ => s = scope ∧ p = partition ∧ Puts operations r
  | _ => False

namespace PlainVault

section

variable (env : VaultEnv) (device : Device) (v : PlainVault) (scope : DocumentKind) (partition : Bytes)

/-- The document of a kind and partition as a command loads it; `none` if there is none, or one that does not load. -/
def held : Option SecretDocument :=
  match loaded env device scope (some partition) v.documents[env.documentId device scope partition]? with
  | .ok (some (d, _)) => some d
  | _ => none

/-- The records of one of its keys. -/
def records (key : String) : List SecretRecord := ((v.held env device scope partition).map fun d => d.records key).getD []

end

variable {env : VaultEnv} {device : Device} {v : PlainVault} {scope : DocumentKind} {partition : Bytes}

/-- The records of the document after are those before and new ones of the kind `New` under their own keys. -/
structure Follows (env : VaultEnv) (device : Device) (scope : DocumentKind) (partition : Bytes)
    (New : SecretRecord → Prop) (v v' : PlainVault) : Prop where
  records : ∀ key, ∀ r ∈ v'.records env device scope partition key, r ∈ v.records env device scope partition key ∨
    (r.version = recordVersion ∧ r.address.storageKey env.sha256 = key ∧ New r)
  single : (∀ key, (v.records env device scope partition key).length ≤ 1) →
    ∀ key, (v'.records env device scope partition key).length ≤ 1

namespace Follows

theorem refl (v : PlainVault) : Follows env device scope partition New v v := ⟨fun _ _ h => .inl h, id⟩

theorem trans {v'' : PlainVault} (h : Follows env device scope partition New v v')
    (h' : Follows env device scope partition New v' v'') : Follows env device scope partition New v v'' :=
  ⟨fun key r hr => (h'.records key r hr).elim (h.records key r) .inr, fun hv => h'.single (h.single hv)⟩

theorem mono {Other : SecretRecord → Prop} (hnew : ∀ r, New r → Other r)
    (h : Follows env device scope partition New v v') : Follows env device scope partition Other v v' :=
  ⟨fun key r hr => (h.records key r hr).imp id fun ⟨hversion, hkey, hr⟩ => ⟨hversion, hkey, hnew r hr⟩, h.single⟩

theorem of_held (h : v'.held env device scope partition = v.held env device scope partition) :
    Follows env device scope partition New v v' := by
  have hrecords : ∀ key, v'.records env device scope partition key = v.records env device scope partition key := by
    intro key
    rw [PlainVault.records, h]
    rfl
  exact ⟨fun key r hr => .inl (by rwa [hrecords] at hr), fun hv key => by rw [hrecords]; exact hv key⟩

end Follows

/-! ## One transaction -/

theorem held_eq_some {d : SecretDocument} (h : v.held env device scope partition = some d) :
    ∃ p, v.documents[env.documentId device scope partition]? = some p ∧ p.scope = scope ∧
      load env p.snapshot device.actorId scope (some partition) = .ok d := by
  unfold held at h
  split at h
  next d' p hloaded =>
    cases h
    cases hp : v.documents[env.documentId device scope partition]? with
    | none => rw [hp] at hloaded; cases hloaded
    | some p' =>
      rw [hp] at hloaded
      simp only [loaded, document, bind_eq_ok, ensure_eq_ok] at hloaded
      obtain ⟨d', ⟨⟨⟩, hscope, hload⟩, hloaded⟩ := hloaded
      cases hloaded
      exact ⟨p, rfl, hscope, hload⟩
  next => cases h

theorem held_of_load {p : PlainDocument} {d : SecretDocument}
    (hp : v.documents[env.documentId device scope partition]? = some p) (hscope : p.scope = scope)
    (hload : load env p.snapshot device.actorId scope (some partition) = .ok d) :
    v.held env device scope partition = some d := by
  simp only [held, hp, loaded, document, ensure_of hscope, ok_bind, hload]
  rfl

theorem loaded_eq_ok {p : Option PlainDocument} {loaded : Option (SecretDocument × PlainDocument)}
    (h : PlainDocument.loaded env device scope expected p = .ok loaded) :
    (p = none ∧ loaded = none) ∨ ∃ q d, p = some q ∧ loaded = some (d, q) ∧ q.scope = scope ∧
      load env q.snapshot device.actorId scope expected = .ok d := by
  cases p with
  | none =>
    cases h
    exact .inl ⟨rfl, rfl⟩
  | some q =>
    simp only [PlainDocument.loaded, PlainDocument.document, bind_eq_ok, ensure_eq_ok] at h
    obtain ⟨d, ⟨⟨⟩, hscope, hload⟩, h⟩ := h
    cases h
    exact .inr ⟨q, d, rfl, rfl, hscope, hload⟩

theorem finish_eq_ok {α : Type} {id : DocumentId} {current : Option PlainDocument} {context : MutationContext}
    {outcome : Outcome α} {a : α} (h : v.finish env id scope current context outcome = .ok (a, v')) :
    a = outcome.answer ∧ ((outcome.mutation = none ∧ v'.documents = v.documents) ∨
      ∃ mutation p, outcome.mutation = some mutation ∧ p.scope = scope ∧ p.snapshot = mutation.snapshot ∧
        v'.documents = v.documents.insert id p) := by
  unfold finish at h
  split at h
  next hnone =>
    cases h
    exact ⟨rfl, .inl ⟨hnone, rfl⟩⟩
  next mutation hsome =>
    simp only [commit, next, bind_eq_ok, ensure_eq_ok] at h
    obtain ⟨w, ⟨p, ⟨⟨⟩, -, log, -, log', -, column, -, g, -, e, -, hp⟩, ⟨⟩, -, hw⟩, h⟩ := h
    cases hp
    cases hw
    cases h
    exact ⟨rfl, .inr ⟨mutation, _, hsome, rfl, rfl, rfl⟩⟩

end PlainVault

/-- What a snapshot loads as does not depend on the partition that is asked for. -/
theorem SecretDocument.load_eq_ok {env : VaultEnv} {snapshot actor : Bytes} {kind : DocumentKind}
    {d : SecretDocument} (h : load env snapshot actor kind expected = .ok d) :
    d.kind = kind ∧ d.actor = actor ∧ (∀ p ∈ expected, d.partition = p) ∧
      load env snapshot actor kind (some d.partition) = .ok d ∧
      ∀ {other : Option Bytes} {d' : SecretDocument}, load env snapshot actor kind other = .ok d' → d' = d := by
  unfold load at h ⊢
  split at h
  next => cases h
  next root hroot =>
    simp only [bind_eq_ok, ofOption_eq_ok, ensure_eq_ok] at h
    obtain ⟨partition, hpartition, ⟨⟩, ⟨hformat, hversion, hexpected⟩, entries, hentries, h⟩ := h
    cases h
    refine ⟨rfl, rfl, hexpected, ?_, fun {other d'} h => ?_⟩
    · simp only [hpartition, hentries, ofOption_some, ok_bind]
      rw [ensure_of ⟨hformat, hversion, fun p hp => by cases hp; rfl⟩]
      rfl
    · simp only [bind_eq_ok, ofOption_eq_ok, ensure_eq_ok] at h
      obtain ⟨partition', hpartition', ⟨⟩, -, entries', hentries', h⟩ := h
      rw [hpartition] at hpartition'
      rw [hentries] at hentries'
      cases hpartition'
      cases hentries'
      cases h
      rfl

namespace PlainVault

variable {env : VaultEnv} {device : Device} {v : PlainVault} {scope s : DocumentKind} {partition p : Bytes} {α : Type}
  {address : SecretAddress} {now : UInt64} {a : Answer} {command : Command}

theorem partition_of_loaded {found : Option PlainDocument}
    {loaded : Option (SecretDocument × PlainDocument)} (h : PlainDocument.loaded env device s expected found = .ok loaded) :
    ∀ d ∈ loaded.map Prod.fst, ∀ p ∈ expected, d.partition = p := by
  rcases loaded_eq_ok h with ⟨-, rfl⟩ | ⟨q, d, -, rfl, -, hload⟩
  · rintro d ⟨⟩
  · rintro d ⟨⟩
    exact (load_eq_ok hload).2.2.1

/-- The work of a command commits only documents changed from the loaded one or from a new one of the partition, with
writes of the kind `P`. -/
def Works (env : VaultEnv) (device : Device) (s : DocumentKind) (expected : Option Bytes)
    (P : SecretAddress → Bytes → Option UInt64 → Prop) (work : Option SecretDocument → Nat → VaultResult (Outcome α)) : Prop :=
  ∀ before draws outcome, (∀ d ∈ before, ∀ p ∈ expected, d.partition = p) → work before draws = .ok outcome →
    ∀ mutation ∈ outcome.mutation, ∃ start changed after,
      (before = some start ∨ before = none ∧ ∃ p, start = new device.actorId s p) ∧
      (∀ p ∈ expected, start.partition = p) ∧ Changes env P start changed ∧
      changed.finishMutation env = .ok (mutation, after)

theorem follows_transact {id : DocumentId} {P : SecretAddress → Bytes → Option UInt64 → Prop}
    {context : MutationContext} {work : Option SecretDocument → Nat → VaultResult (Outcome α)} {a : α}
    (hwork : Works env device s expected P work)
    (hnew : s = scope → (∀ p ∈ expected, p = partition) → ∀ r : SecretRecord, P r.address r.value r.evictAt → New r)
    (h : v.transact env device id s expected context work = .ok (a, v')) :
    Follows env device scope partition New v v' := by
  simp only [transact, bind_eq_ok] at h
  obtain ⟨loaded, hloaded, outcome, houtcome, h⟩ := h
  obtain ⟨-, ⟨-, hsame⟩ | ⟨mutation, p, hmutation, hscope, hsnapshot, hdocuments⟩⟩ := finish_eq_ok h
  · exact .of_held (by rw [held, hsame]; rfl)
  by_cases hid : id = env.documentId device scope partition
  swap
  · exact .of_held (by rw [held, hdocuments, getElem?_insert_iff, if_neg hid]; rfl)
  subst hid
  obtain ⟨start, changed, after, hstart, hown, hchanges, hfinish⟩ := hwork _ _ _ (partition_of_loaded hloaded) houtcome mutation hmutation
  obtain ⟨deadline, hproject, hencoded, -⟩ := finishMutation_eq_ok hfinish
  have hall : Derives env (fun r => P r.address r.value r.evictAt) start after :=
    (hchanges.derives fun _ hr => hr).trans (derives_project hproject)
  have hcommitted : v'.documents[env.documentId device scope partition]? = some p := by
    rw [hdocuments, getElem?_insert_iff, if_pos rfl]
  have hstart : (∃ p, start = new device.actorId s p) ∨
      ∃ q, v.documents[env.documentId device scope partition]? = some q ∧ q.scope = s ∧
        load env q.snapshot device.actorId s expected = .ok start := by
    rcases loaded_eq_ok hloaded with ⟨-, rfl⟩ | ⟨q, d, hq, rfl, hscope, hload⟩
    · exact .inl (hstart.resolve_left (by simp)).2
    · obtain rfl : d = start := Option.some.inj (hstart.resolve_right (by simp))
      exact .inr ⟨q, hq, hscope, hload⟩
  have hstartdoc : start.kind = s ∧ start.actor = device.actorId := by
    rcases hstart with ⟨p, rfl⟩ | ⟨q, -, -, hload⟩
    · exact ⟨rfl, rfl⟩
    · exact ⟨(load_eq_ok hload).1, (load_eq_ok hload).2.1⟩
  have hreload : load env p.snapshot device.actorId s (some after.partition) = .ok after := by
    have := load_finishMutation hfinish
    rwa [hall.kind, hall.actor, hstartdoc.1, hstartdoc.2, ← hsnapshot] at this
  have hheld : ∀ d, v'.held env device scope partition = some d → d = after ∧ s = scope ∧ start.partition = partition := by
    intro d hd
    obtain ⟨q, hq, hqscope, hload⟩ := held_eq_some hd
    rw [hcommitted] at hq
    cases hq
    obtain rfl : s = scope := hscope.symm.trans hqscope
    obtain rfl := (load_eq_ok hreload).2.2.2.2 hload
    exact ⟨rfl, rfl, hall.partition.symm.trans ((load_eq_ok hload).2.2.1 partition rfl)⟩
  refine ⟨fun key r hr => ?_, fun _ key => ?_⟩
  · cases hd : v'.held env device scope partition with
    | none => simp [records, hd] at hr
    | some d =>
      obtain ⟨rfl, rfl, hpartition⟩ := hheld d hd
      have hr' : r ∈ d.records key := by simpa [records, hd] using hr
      rcases hall.records key r hr' with hold | ⟨hversion, hkey, hfresh⟩
      · refine .inl ?_
        rcases hstart with ⟨p, rfl⟩ | ⟨q, hq, hqscope, hload⟩
        · simp [SecretDocument.records, SecretDocument.new] at hold
        · have := held_of_load hq hqscope (hpartition ▸ (load_eq_ok hload).2.2.2.1)
          simpa [records, this] using hold
      · exact .inr ⟨hversion, hkey, hnew rfl (fun p hp => (hown p hp).symm.trans hpartition) r hfresh⟩
  · cases hd : v'.held env device scope partition with
    | none => simp [records, hd]
    | some d =>
      obtain ⟨rfl, -, -⟩ := hheld d hd
      simpa [records, hd] using length_records_project hproject key

/-! ## What the bodies of the commands commit -/

section

variable {before : Option SecretDocument} {P : SecretAddress → Bytes → Option UInt64 → Prop} {context : MutationContext}
  {operations : List DocumentOperation}

/-- Work on a document that is there. -/
theorem works_existing {work : Option SecretDocument → Nat → VaultResult (Outcome α)}
    (hnone : ∀ draws outcome, work none draws = .ok outcome → outcome.mutation = none)
    (hsome : ∀ d draws outcome, work (some d) draws = .ok outcome → outcome.mutation ≠ none →
      ∃ after changed, Changes env P d changed ∧ Ends env changed outcome.mutation after) :
    Works env device s expected P work := by
  intro before draws outcome hpartition h mutation hmutation
  rw [Option.mem_def] at hmutation
  cases before with
  | none =>
    rw [hnone draws outcome h] at hmutation
    cases hmutation
  | some d =>
    obtain ⟨after, changed, hchanges, hends⟩ := hsome d draws outcome h (by rw [hmutation]; nofun)
    rw [hmutation] at hends
    exact ⟨d, changed, after, .inl rfl, hpartition d rfl, hchanges, hends⟩

theorem works_getBody : Works env device s expected P (getBody env address now) := by
  refine works_existing (fun _ _ h => by cases h; rfl) fun d _ outcome h hmutation => ?_
  simp only [getBody, bind_eq_ok] at h
  obtain ⟨⟨read, expiresAt⟩, -, h⟩ := h
  split at h
  · cases h
    exact absurd rfl hmutation
  · cases h
    exact absurd rfl hmutation
  · cases h
  · simp only [bind_eq_ok, ofOption_eq_ok] at h
    obtain ⟨⟨expired, d'⟩, hexpire, found, hfound, h⟩ := h
    cases h
    dsimp only at hfound
    subst hfound
    exact ⟨d', remove_changes hexpire rfl⟩

theorem works_putBody {value : Bytes} {evictAt : Option UInt64} :
    Works env device s (some p) (fun a v e => a = address ∧ v = value ∧ e = evictAt)
      (putBody env device s p address value evictAt context) := by
  intro before draws outcome hpartition h mutation hmutation
  simp only [putBody, bind_eq_ok] at h
  obtain ⟨⟨made, d', draws'⟩, hput, h⟩ := h
  cases h
  cases hmutation
  obtain ⟨changed, hchanges, hfinish⟩ := put_changes hput
  refine ⟨_, changed, d', ?_, ?_, hchanges, hfinish⟩
  · cases before with
    | none => exact .inr ⟨rfl, p, rfl⟩
    | some d => exact .inl rfl
  · cases before with
    | none => exact fun q hq => Option.mem_some.1 hq
    | some d => exact hpartition d rfl

/-- The document `mutate` works on is the loaded one or a new one. -/
theorem mutateTarget_eq_some {d : SecretDocument} (h : mutateTarget device s p operations before = some d) :
    before = some d ∨ before = none ∧ d = new device.actorId s p := by
  unfold mutateTarget at h
  split at h
  next e => exact .inl h
  next =>
    split at h
    · cases h
      exact .inr ⟨rfl, rfl⟩
    · cases h

theorem works_mutateBody :
    Works env device s (some p) (fun a v e => .put a v e ∈ operations) (mutateBody env device s p operations context) := by
  intro before draws outcome hpartition h mutation hmutation
  unfold mutateBody at h
  split at h
  next =>
    cases h
    cases hmutation
  next d htarget =>
    simp only [bind_eq_ok] at h
    obtain ⟨⟨made, d', draws'⟩, happly, h⟩ := h
    cases h
    obtain rfl : made = some mutation := hmutation
    obtain ⟨changed, hchanges, hfinish⟩ := apply_changes happly
    rcases mutateTarget_eq_some htarget with rfl | ⟨rfl, rfl⟩
    · exact ⟨d, changed, d', .inl rfl, hpartition d rfl, hchanges, hfinish⟩
    · exact ⟨_, changed, d', .inr ⟨rfl, p, rfl⟩, fun q hq => Option.mem_some.1 hq, hchanges, hfinish⟩

theorem works_deleteBody : Works env device s expected P (deleteBody env address) := by
  refine works_existing (fun _ _ h => by cases h; rfl) fun d _ outcome h _ => ?_
  simp only [deleteBody, bind_eq_ok] at h
  obtain ⟨⟨made, d'⟩, hdelete, h⟩ := h
  cases h
  exact ⟨d', remove_changes hdelete rfl⟩

theorem works_clearBody : Works env device s expected P (clearBody env) := by
  refine works_existing (fun _ _ h => by cases h; rfl) fun d _ outcome h _ => ?_
  simp only [clearBody, bind_eq_ok] at h
  obtain ⟨⟨cleared, d'⟩, hclear, h⟩ := h
  cases h
  exact ⟨d', clear_changes hclear⟩

theorem works_purgeBody : Works env device s expected P (purgeBody env now) := by
  refine works_existing (fun _ _ h => by cases h; rfl) fun d _ outcome h _ => ?_
  simp only [purgeBody, bind_eq_ok] at h
  obtain ⟨⟨made, d'⟩, hpurge, h⟩ := h
  cases h
  exact ⟨d', purgeExpired_changes hpurge⟩

theorem works_projectBody : Works env device s expected P (projectBody env now) := by
  refine works_existing (fun _ _ h => by cases h; rfl) fun d _ outcome h _ => ?_
  simp only [projectBody, bind_eq_ok] at h
  obtain ⟨project, -, ⟨made, d'⟩, hpurge, h⟩ := h
  cases h
  exact ⟨d', purgeExpired_changes hpurge⟩

end

/-! ## Commands -/

theorem getMany_eq_ok {addresses : List SecretAddress}
    {a : List (Option Bytes)} (h : (ops env device).getMany env device v s p addresses now = .ok (a, v')) : v' = v := by
  simp only [getMany, ops, transact, bind_eq_ok] at h
  obtain ⟨loaded, -, outcome, houtcome, h⟩ := h
  have hquiet : outcome.mutation = none ∧ outcome.draws = v.draws := by
    unfold getManyBody at houtcome
    split at houtcome
    · cases houtcome
      exact ⟨rfl, rfl⟩
    · simp only [bind_eq_ok] at houtcome
      obtain ⟨values, -, houtcome⟩ := houtcome
      cases houtcome
      exact ⟨rfl, rfl⟩
  rw [finish, hquiet.1, hquiet.2] at h
  cases h
  rfl

theorem answering_eq_ok {σ : Type} {answer : α → Answer} {result : VaultResult (α × σ)} {s : σ}
    (h : answering answer result = .ok (a, s)) : ∃ b, result = .ok (b, s) := by
  cases result with
  | error e => cases h
  | ok r =>
    cases h
    exact ⟨r.1, rfl⟩

/-- What every transaction of a command keeps, the command keeps. -/
theorem execute_invariant {Q : PlainVault → Prop}
    (step : ∀ {α : Type} {w w' : PlainVault} {id : DocumentId} {s : DocumentKind} {expected : Option Bytes}
      {context : MutationContext} {work : Option SecretDocument → Nat → VaultResult (Outcome α)} {b : α}
      {P : SecretAddress → Bytes → Option UInt64 → Prop}, Works env device s expected P work →
      (∀ r : SecretRecord, P r.address r.value r.evictAt → ∃ p ∈ expected, command.Writes s p r) → Q w →
      w.transact env device id s expected context work = .ok (b, w') → Q w')
    (hv : Q v) (h : (ops env device).execute env device v command = .ok (a, v')) : Q v' := by
  -- a purge writes nothing, of whichever document it is
  have hpurged {w w' : PlainVault} {id : DocumentId} {s : DocumentKind} {expected : Option Bytes} {now : UInt64}
      {b : Option (SecretDocument × Bool)} (hw : Q w)
      (h : w.transact env device id s expected (device.context expiry now) (purgeBody env now) = .ok (b, w')) : Q w' :=
    step (P := fun _ _ _ => False) works_purgeBody (fun _ hr => hr.elim) hw h
  cases command with
  | get =>
    obtain ⟨b, h⟩ := answering_eq_ok h
    exact step (P := fun _ _ _ => False) works_getBody (fun _ hr => hr.elim) hv h
  | getMany =>
    obtain ⟨b, h⟩ := answering_eq_ok h
    rw [getMany_eq_ok h]
    exact hv
  | put s p =>
    simp only [execute] at h
    obtain ⟨b, h⟩ := answering_eq_ok h
    exact step works_putBody (fun r hr => ⟨p, rfl, rfl, rfl, hr⟩) hv h
  | mutate s p =>
    simp only [execute] at h
    obtain ⟨b, h⟩ := answering_eq_ok h
    exact step works_mutateBody (fun r hr => ⟨p, rfl, rfl, rfl, hr⟩) hv h
  | delete =>
    obtain ⟨b, h⟩ := answering_eq_ok h
    exact step (P := fun _ _ _ => False) works_deleteBody (fun _ hr => hr.elim) hv h
  | purgeExpired =>
    obtain ⟨b, h⟩ := answering_eq_ok h
    simp only [StoreOps.purgeExpired, bind_eq_ok] at h
    obtain ⟨⟨⟩, -, h⟩ := h
    refine foldlM_invariant (P := fun state : Nat × PlainVault => Q state.2)
      (fun state document state' _ hstate hstep => ?_) hv h
    simp only [purgeStep, purgeDocument, bind_eq_ok] at hstep
    obtain ⟨⟨purged, w⟩, hpurge, hstep⟩ := hstep
    cases hstep
    exact hpurged hstate hpurge
  | clear =>
    obtain ⟨b, h⟩ := answering_eq_ok h
    exact step (P := fun _ _ _ => False) works_clearBody (fun _ hr => hr.elim) hv h
  | listHistory =>
    obtain ⟨b, h⟩ := answering_eq_ok h
    simp only [listHistory, bind_eq_ok] at h
    obtain ⟨log, -, h⟩ := h
    cases log <;> (cases h; exact hv)
  | listProjects =>
    obtain ⟨b, h⟩ := answering_eq_ok h
    simp only [listProjects, bind_eq_ok] at h
    obtain ⟨⟨⟩, -, ⟨projects, w⟩, hfold, page, -, h⟩ := h
    cases h
    refine foldlM_invariant (P := fun state : List (String × String) × PlainVault => Q state.2)
      (fun state document state' _ hstate hstep => ?_) hv hfold
    simp only [projectStep, bind_eq_ok] at hstep
    obtain ⟨⟨found, w⟩, htransact, listed, -, hstep⟩ := hstep
    cases hstep
    exact step (P := fun _ _ _ => False) works_projectBody (fun _ hr => hr.elim) hstate htransact
  | listProjectAddresses =>
    obtain ⟨b, h⟩ := answering_eq_ok h
    simp only [listProjectAddresses, bind_eq_ok] at h
    obtain ⟨⟨purged, w⟩, hpurge, page, -, h⟩ := h
    cases h
    exact hpurged hv hpurge
  | listVaultEntries =>
    obtain ⟨b, h⟩ := answering_eq_ok h
    simp only [listVaultEntries, bind_eq_ok] at h
    obtain ⟨⟨⟩, -, ⟨entries, w⟩, hfold, page, -, h⟩ := h
    cases h
    refine foldlM_invariant (P := fun state : List (String × VaultEntryMetadata) × PlainVault => Q state.2)
      (fun state document state' _ hstate hstep => ?_) hv hfold
    simp only [entryStep, purgeDocument, bind_eq_ok] at hstep
    obtain ⟨⟨purged, w⟩, hpurge, listed, -, hstep⟩ := hstep
    cases hstep
    exact hpurged hstate hpurge

/-- **Seen from one document, a command brings in only what it writes to it.** -/
theorem follows_execute (h : (ops env device).execute env device v command = .ok (a, v')) :
    Follows env device scope partition (fun r => command.Writes scope partition r) v v' := by
  refine execute_invariant (Q := Follows env device scope partition (fun r => command.Writes scope partition r) v) ?_
    (.refl v) h
  intro α w w' id s expected context work b P hwork hwrites hw htransact
  refine hw.trans (follows_transact hwork (fun hscope hpartition r hr => ?_) htransact)
  obtain ⟨p, hp, hr⟩ := hwrites r hr
  rw [hscope, hpartition p hp] at hr
  exact hr

/-- Seen from one document, a program brings in only what its calls write to it. -/
theorem run_follows {p : StoreProgram α}
    (hp : p.Calls fun c => ∀ r, c.Writes scope partition r → New r) (v : PlainVault) :
    Follows env device scope partition New v (p.run ((ops env device).execute env device) v).2 := by
  refine Program.run_moves (R := Follows env device scope partition New) .refl .trans ?_ hp v
  intro s command answer s' hcommand h
  exact (follows_execute h).mono hcommand

end PlainVault

end FactorSeal

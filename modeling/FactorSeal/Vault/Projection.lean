import FactorSeal.Vault.Batch

/-! # What a mutation persists (vault/document.rs:616-738)

A mutation ends with a projection, and the snapshot is that of the projection. `view` is what can be read of a document,
`Mutation.effect` what each mutation makes of it, and `Persists` what the mutation that is handed to the store holds: the
visible records, one for each key, their earliest deadline, and a snapshot that loads as the document in memory. -/

namespace FactorSeal

open Wire Except Std ExtMap

/-- What a reader sees of a record. -/
structure VisibleRecord where
  address : SecretAddress
  value : Bytes
  evictAt : Option UInt64
deriving DecidableEq, Repr

abbrev DocumentView := String → Option VisibleRecord

def SecretRecord.visible (r : SecretRecord) : VisibleRecord := ⟨r.address, r.value, r.evictAt⟩

/-- The record's deadline is at or before `now`. -/
def VisibleRecord.due (now : UInt64) (r : VisibleRecord) : Bool :=
  match r.evictAt with
  | some deadline => deadline ≤ now
  | none => false

def DocumentOperation.effect (env : VaultEnv) (view : DocumentView) : DocumentOperation → DocumentView
  | .put address value evictAt => Function.update view (address.storageKey env.sha256) (some ⟨address, value, evictAt⟩)
  | .delete address => Function.update view (address.storageKey env.sha256) none

/-- The mutations of a document's records. -/
inductive Mutation where
  | put (address : SecretAddress) (value : Bytes) (evictAt : Option UInt64) (context : MutationContext)
  | apply (operations : List DocumentOperation) (context : MutationContext)
  | remove (address : SecretAddress) (operation : HistoryOperation)
  | purgeExpired (now : UInt64)
  | clear

def Mutation.effect (env : VaultEnv) (view : DocumentView) : Mutation → DocumentView
  | .put address value evictAt _ => (DocumentOperation.put address value evictAt).effect env view
  | .apply operations _ => operations.foldl (DocumentOperation.effect env) view
  | .remove address _ => (DocumentOperation.delete address).effect env view
  | .purgeExpired now => fun key => (view key).filter fun r => !r.due now
  | .clear => fun _ => none

namespace SecretDocument

variable {env : VaultEnv} {d d' q : SecretDocument} {operation : HistoryOperation} {now : UInt64}

def view (d : SecretDocument) : DocumentView := fun key => (d.records key).head?.map SecretRecord.visible

/-- A mutation, what it commits and the document it leaves. -/
def mutated (env : VaultEnv) (d : SecretDocument) (draw : Nat) : Mutation → VaultResult (Option DocumentMutation × SecretDocument)
  | .put address value evictAt context => do
    let (mutation, d, _) ← d.put env draw address value evictAt context
    return (some mutation, d)
  | .apply operations context => do
    let (mutation, d, _) ← d.apply env draw operations context
    return (mutation, d)
  | .remove address operation => d.remove env address operation
  | .purgeExpired now => d.purgeExpired env now
  | .clear => do
    let (cleared, d) ← d.clear env
    return (cleared.map Prod.snd, d)

/-! ## Views -/

theorem view_putUncommitted {draw draw' : Nat} {address : SecretAddress} {value : Bytes} {evictAt : Option UInt64}
    {context : MutationContext} (h : d.putUncommitted env draw address value evictAt context = .ok (d', draw')) :
    d'.view = (DocumentOperation.put address value evictAt).effect env d.view := by
  obtain ⟨record, -, haddress, hvalue, hdeadline, hrecords⟩ := records_putUncommitted h
  funext key
  rw [view, hrecords, DocumentOperation.effect, Function.update_apply]
  by_cases hkey : address.storageKey env.sha256 = key
  · rw [if_pos hkey, if_pos hkey.symm, ← haddress, ← hvalue, ← hdeadline]
    rfl
  · rw [if_neg hkey, if_neg (Ne.symm hkey), view]

theorem view_deleteUncommitted {address : SecretAddress} {removed : Bool}
    (h : d.deleteUncommitted env address operation = .ok (d', removed)) :
    d'.view = (DocumentOperation.delete address).effect env d.view := by
  funext key
  rw [view, records_deleteUncommitted h, DocumentOperation.effect, Function.update_apply]
  by_cases hkey : address.storageKey env.sha256 = key
  · rw [if_pos hkey, if_pos hkey.symm]
    rfl
  · rw [if_neg hkey, if_neg (Ne.symm hkey), view]

theorem view_applyOne {context : MutationContext} {operation : DocumentOperation} {s s' : SecretDocument × Nat × Bool}
    (h : applyOne env context s operation = .ok s') : s'.1.view = operation.effect env s.1.view := by
  cases operation with
  | put address value evictAt =>
    obtain ⟨⟨d', draw'⟩, hput, h⟩ := bind_eq_ok.1 h
    cases h
    exact view_putUncommitted hput
  | delete address =>
    obtain ⟨⟨d', removed⟩, hdelete, h⟩ := bind_eq_ok.1 h
    cases h
    exact view_deleteUncommitted hdelete

theorem view_applyAll {context : MutationContext} {operations : List DocumentOperation}
    {s s' : SecretDocument × Nat × Bool} (h : operations.foldlM (applyOne env context) s = .ok s') :
    s'.1.view = operations.foldl (DocumentOperation.effect env) s.1.view := by
  induction operations generalizing s with
  | nil =>
    cases h
    rfl
  | cons operation rest ih =>
    rw [List.foldlM_cons, bind_eq_ok] at h
    obtain ⟨s₁, hone, h⟩ := h
    rw [ih h, List.foldl_cons, view_applyOne hone]

theorem view_finishMutation {mutation : DocumentMutation} (h : d.finishMutation env = .ok (mutation, d')) :
    d'.view = d.view := by
  obtain ⟨deadline, hproject, -⟩ := finishMutation_eq_ok h
  funext key
  rw [view, view, (alike_project hproject).head?]

/-! ## Purges -/

theorem min_cases (x y : UInt64) : min x y = x ∧ x ≤ y ∨ min x y = y ∧ y ≤ x := by
  by_cases h : x ≤ y
  · exact .inl ⟨if_pos h, h⟩
  · exact .inr ⟨if_neg h, (UInt64.le_total x y).resolve_left h⟩

theorem earlier_eq_some {a b : Option UInt64} {t : UInt64} (h : earlier a b = some t) : a = some t ∨ b = some t := by
  cases a with
  | none => exact .inr h
  | some x =>
    cases b with
    | none => exact .inl h
    | some y =>
      cases h
      rcases min_cases x y with ⟨hmin, -⟩ | ⟨hmin, -⟩
      · exact .inl (congrArg some hmin.symm)
      · exact .inr (congrArg some hmin.symm)

theorem earlier_le {a b : Option UInt64} {t : UInt64} (h : a = some t ∨ b = some t) :
    ∃ t', earlier a b = some t' ∧ t' ≤ t := by
  cases a with
  | none =>
    cases b with
    | none => simp at h
    | some y =>
      have hy : y = t := by simpa using h
      exact ⟨t, congrArg some hy, UInt64.le_refl t⟩
  | some x =>
    cases b with
    | none =>
      have hx : x = t := by simpa using h
      exact ⟨t, congrArg some hx, UInt64.le_refl t⟩
    | some y =>
      refine ⟨min x y, rfl, ?_⟩
      rcases min_cases x y with ⟨hmin, hle⟩ | ⟨hmin, hle⟩ <;> rcases h with h | h <;> cases h <;> rw [hmin]
      · exact UInt64.le_refl t
      · exact hle
      · exact hle
      · exact UInt64.le_refl t

/-- Folding `earlier` gives the least deadline there is. -/
theorem foldl_earlier {α : Type} (f : α → Option UInt64) (l : List α) (start : Option UInt64) :
    (∀ t, l.foldl (fun t a => earlier t (f a)) start = some t → start = some t ∨ ∃ a ∈ l, f a = some t) ∧
      ∀ t, (start = some t ∨ ∃ a ∈ l, f a = some t) → ∃ t', l.foldl (fun t a => earlier t (f a)) start = some t' ∧ t' ≤ t := by
  induction l generalizing start with
  | nil =>
    refine ⟨fun t h => .inl h, fun t h => ?_⟩
    rcases h with h | ⟨a, ha, -⟩
    · exact ⟨t, h, UInt64.le_refl t⟩
    · cases ha
  | cons a rest ih =>
    obtain ⟨hfrom, hleast⟩ := ih (earlier start (f a))
    refine ⟨fun t h => ?_, fun t h => ?_⟩
    · rcases hfrom t h with h | ⟨b, hb, hf⟩
      · rcases earlier_eq_some h with h | h
        · exact .inl h
        · exact .inr ⟨a, by simp, h⟩
      · exact .inr ⟨b, List.mem_cons_of_mem _ hb, hf⟩
    · -- what comes first is at most `t`, or what the rest holds is
      rcases h with h | ⟨b, hb, hf⟩
      · obtain ⟨t₁, h₁, hle₁⟩ := earlier_le (b := f a) (.inl h)
        obtain ⟨t₂, h₂, hle₂⟩ := hleast t₁ (.inl h₁)
        exact ⟨t₂, h₂, UInt64.le_trans hle₂ hle₁⟩
      · rcases List.mem_cons.1 hb with rfl | hb
        · obtain ⟨t₁, h₁, hle₁⟩ := earlier_le (a := start) (.inr hf)
          obtain ⟨t₂, h₂, hle₂⟩ := hleast t₁ (.inl h₁)
          exact ⟨t₂, h₂, UInt64.le_trans hle₂ hle₁⟩
        · exact hleast t (.inr ⟨b, hb, hf⟩)

theorem project_deadline {deadline : Option UInt64} (h : d.project = .ok (d', deadline)) :
    (∀ t, deadline = some t → ∃ key r, d'.view key = some r ∧ r.evictAt = some t) ∧
      ∀ key r t, d'.view key = some r → r.evictAt = some t → ∃ t', deadline = some t' ∧ t' ≤ t := by
  have hview : ∀ key r, d'.view key = some r ↔
      ∃ before record, d.entries[key]? = some before ∧ visibleRecord before = .ok record ∧ record.visible = r := by
    intro key r
    cases hl : d'.entries[key]? with
    | none =>
      simp only [view, records, hl]
      constructor
      · intro h
        cases h
      · rintro ⟨before, record, hbefore, hvisible, -⟩
        have := (getElem?_project h).2 ⟨before, record, hbefore, hvisible, rfl⟩
        rw [hl] at this
        cases this
    | some l =>
      obtain ⟨before, record, hbefore, hvisible, rfl⟩ := (getElem?_project h).1 hl
      simp only [view, records, hl]
      constructor
      · intro h
        cases h
        exact ⟨before, record, hbefore, hvisible, rfl⟩
      · rintro ⟨before', record', hbefore', hvisible', rfl⟩
        cases hbefore.symm.trans hbefore'
        cases hvisible.symm.trans hvisible'
        rfl
  simp only [project, bind_eq_ok] at h
  obtain ⟨kept, hkept, h⟩ := h
  cases h
  obtain ⟨-, hin, hout⟩ := mapM_eq_ok hkept
  obtain ⟨hfrom, hleast⟩ := foldl_earlier (fun p : String × SecretRecord => p.2.evictAt) kept none
  refine ⟨fun t ht => ?_, fun key r t hr ht => ?_⟩
  · rcases hfrom t ht with hnone | ⟨⟨key, record⟩, hmem, hdeadline⟩
    · cases hnone
    · obtain ⟨⟨k, before⟩, hbefore, hrecord⟩ := hout _ hmem
      obtain ⟨record', hvisible, hrecord⟩ := bind_eq_ok.1 hrecord
      cases hrecord
      exact ⟨k, record.visible, (hview k _).2 ⟨before, record, ExtTreeMap.mem_toList_iff_getElem?_eq_some.1 hbefore,
        hvisible, rfl⟩, hdeadline⟩
  · obtain ⟨before, record, hbefore, hvisible, rfl⟩ := (hview key r).1 hr
    obtain ⟨p, hmem, hp⟩ := hin (key, before) (ExtTreeMap.mem_toList_iff_getElem?_eq_some.2 hbefore)
    obtain ⟨record', hvisible', hp⟩ := bind_eq_ok.1 hp
    cases hvisible.symm.trans hvisible'
    cases hp
    exact hleast t (.inr ⟨(key, record), hmem, ht⟩)

/-! ## What is persisted -/

/-- The mutation holds the document it left: one record for each key, nothing besides the records unless the document is
the personal one, and their earliest deadline. -/
structure Persists (env : VaultEnv) (made : DocumentMutation) (d : SecretDocument) : Prop where
  snapshot : made.snapshot = env.documentFormat.encode d.root
  partition : made.partition = d.partition
  single : ∀ (key : String) l, d.entries[key]? = some l → ∃ r, l = [r] ∧ d.view key = some r.visible
  legacyRevisions : d.legacyRevisions = none
  metadata : d.isPersonal = false → d.personal = ⟨none, none, none, none⟩
  reached : ∀ t, made.nextEviction = some t → ∃ key r, d.view key = some r ∧ r.evictAt = some t
  least : ∀ key r t, d.view key = some r → r.evictAt = some t → ∃ t', made.nextEviction = some t' ∧ t' ≤ t
  loads : load env made.snapshot d.actor d.kind (some d.partition) = .ok d

theorem persists_finishMutation {made : DocumentMutation} (h : d.finishMutation env = .ok (made, d')) :
    Persists env made d' := by
  have hloads := load_finishMutation h
  obtain ⟨⟨p, deadline⟩, hproject, h⟩ := bind_eq_ok.1 h
  cases h
  obtain ⟨hreached, hleast⟩ := project_deadline hproject
  obtain ⟨entries, hp⟩ := project_eq_ok hproject
  have halike := alike_project hproject
  refine ⟨rfl, halike.partition.symm, fun key l hl => ?_, by rw [hp]; rfl, fun hpersonal => ?_, hreached, hleast, hloads⟩
  · obtain ⟨before, record, -, -, rfl⟩ := (getElem?_project hproject).1 hl
    exact ⟨record, rfl, by simp [view, records, hl]⟩
  · rw [halike.isPersonal] at hpersonal
    rw [hp, hpersonal]
    rfl

/-- The values in the history of an item's replica, as a snapshot of the personal document has it. -/
def historyValues (env : VaultEnv) (snapshot : Bytes) (id : String) : VaultResult (List ScalarValue) := do
  let d ← load env snapshot [] .localKeyring (some personalSecretNamespace)
  let catalog ← d.personalReplicas env
  let loaded : Option (PersonalReplica env.toReplicaEnv) ← catalog.load id d.actor
  return (loaded.map fun replica => replica.log.filterMap env.register.assigned).getD []

namespace Superseded

def address : SecretAddress := .local "a" none
def context : MutationContext := ⟨7, .redacted, Vector.replicate 32 0⟩
def before : Bytes := Reference.itemJson.toVec Reference.raceItem
def after : Bytes := Reference.itemJson.toVec { Reference.raceItem with title := "other" }

/-- A personal item is stored and then replaced. -/
def replaced : VaultResult (Option DocumentMutation × SecretDocument) := do
  let (_, d) ← (new [] .localKeyring personalSecretNamespace).mutated referenceVault 0 (.put address before none context)
  d.mutated referenceVault 1 (.put address after none context)

/-- The earlier value is in the snapshot that shows the later one. -/
def held : VaultResult Bool := do
  let (made, d) ← replaced
  let made ← ofOption .conflict made
  let values ← historyValues referenceVault made.snapshot "a"
  return decide (d.view (address.storageKey referenceVault.sha256) = some ⟨address, after, none⟩) &&
    decide (.bytes before ∈ values)

end Superseded

end SecretDocument

end FactorSeal

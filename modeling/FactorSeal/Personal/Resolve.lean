import FactorSeal.Personal.Merge
import Mathlib.Data.List.Dedup

/-! # Concurrent resolutions

Two devices settle one conflict without having seen each other. -/

namespace FactorSeal

open Wire Except RegisterOps Reference List

variable {values seen : List (Option PersonalSecret)} {x : ScalarValue} {env : ReplicaEnv} {id : String}
  {changes : List Change}

/-! ## Values -/

theorem mem_distinctValues (h : distinctValues env id changes seen = .ok values) {v : Option PersonalSecret} :
    v ∈ values ↔ v ∈ seen ∨ ∃ c ∈ changes, ∃ x, env.register.assigned c = some x ∧ decodeValue env id x = .ok v := by
  induction changes generalizing seen with
  | nil =>
    cases h
    simp
  | cons c rest ih =>
    rw [distinctValues] at h
    split at h
    next value hassigned =>
      obtain ⟨item, hitem, h⟩ := bind_eq_ok.1 h
      have hseen : v ∈ (if item ∈ seen then seen else seen ++ [item]) ↔ v ∈ seen ∨ v = item := by
        by_cases hmem : item ∈ seen
        · rw [if_pos hmem]
          exact ⟨.inl, fun hv => hv.elim (fun hv => hv) fun hv => hv ▸ hmem⟩
        · rw [if_neg hmem]
          simp
      have hfirst : (∃ x, env.register.assigned c = some x ∧ decodeValue env id x = .ok v) ↔ v = item := by
        simp [hassigned, hitem, eq_comm]
      rw [ih h, hseen, or_assoc, exists_mem_cons_iff, hfirst]
    next => cases h

theorem decodes_of_distinctValues (h : distinctValues env id changes seen = .ok values) {c : Change} (hc : c ∈ changes)
    (hx : env.register.assigned c = some x) : ∃ v, decodeValue env id x = .ok v := by
  induction changes generalizing seen with
  | nil => cases hc
  | cons d rest ih =>
    rw [distinctValues] at h
    split at h
    next value hassigned =>
      obtain ⟨item, hitem, h⟩ := bind_eq_ok.1 h
      rcases mem_cons.1 hc with rfl | hc
      · obtain rfl := Option.some.inj (hassigned.symm.trans hx)
        exact ⟨item, hitem⟩
      · exact ih h hc
    next => cases h

theorem length_distinctValues
    (h : distinctValues env id changes seen = .ok values) : values.length ≤ seen.length + changes.length := by
  induction changes generalizing seen with
  | nil =>
    cases h
    simp
  | cons c rest ih =>
    rw [distinctValues] at h
    split at h
    next value hassigned =>
      obtain ⟨item, hitem, h⟩ := bind_eq_ok.1 h
      have hle := ih h
      split at hle
      · simp only [length_cons]
        omega
      · simp only [length_append, length_cons, length_nil] at hle ⊢
        omega
    next => cases h

/-- A scalar made of an item decodes to nothing else. -/
theorem eq_of_decodeValue_itemScalar {item decoded : Option PersonalSecret}
    (hx : itemScalar env item = .ok x) (h : decodeValue env id x = .ok decoded) : decoded = item := by
  cases item with
  | none =>
    cases hx
    cases h
    rfl
  | some item =>
    simp only [itemScalar, bind_eq_ok, ofOption_eq_ok] at hx
    obtain ⟨bytes, hencode, hx⟩ := hx
    cases hx
    simp only [decodeValue, bind_eq_ok, ofOption_eq_ok, ensure_eq_ok] at h
    obtain ⟨other, hdecode, ⟨⟩, -, h⟩ := h
    cases h
    obtain ⟨-, -, rfl⟩ := ItemText.encode_eq_some.1 hencode
    obtain ⟨-, hslice, -, -⟩ := ItemText.decodeCurrent_eq_some.1 hdecode
    rw [env.itemJson.fromSlice_toVec] at hslice
    exact hslice.symm

theorem itemScalar_inj {a b : Option PersonalSecret} (ha : itemScalar env a = .ok x)
    (hb : itemScalar env b = .ok x) : a = b := by
  cases a with
  | none =>
    cases ha
    cases b with
    | none => rfl
    | some b =>
      simp only [itemScalar, bind_eq_ok, ofOption_eq_ok] at hb
      obtain ⟨bytes, -, hb⟩ := hb
      cases hb
  | some a =>
    simp only [itemScalar, bind_eq_ok, ofOption_eq_ok] at ha
    obtain ⟨bytes, hencode, ha⟩ := ha
    cases ha
    cases b with
    | none => cases hb
    | some b =>
      simp only [itemScalar, bind_eq_ok, ofOption_eq_ok] at hb
      obtain ⟨bytes', hencode', hb⟩ := hb
      cases hb
      rw [ItemJson.encode_inj hencode hencode']

namespace PersonalReplica

variable {r s : PersonalReplica env} {merged : List (Option PersonalSecret)} {item : Option PersonalSecret}
  {update : PersonalUpdate}

theorem values_eq_ok (h : r.values = .ok values) : distinctValues env r.id r.visible [] = .ok values := by
  simp only [PersonalReplica.values, bind_eq_ok, ensure_eq_ok] at h
  obtain ⟨found, hfound, ⟨⟩, -, h⟩ := h
  cases h
  exact hfound

/-- The item a visible scalar was made of is among the values. -/
theorem mem_values_of_visible (h : r.values = .ok values) {c : Change} (hc : c ∈ r.visible)
    (hx : env.register.assigned c = some x) (hitem : itemScalar env item = .ok x) : item ∈ values := by
  have hvalues := values_eq_ok h
  obtain ⟨decoded, hdecoded⟩ := decodes_of_distinctValues hvalues hc hx
  rw [← eq_of_decodeValue_itemScalar hitem hdecoded]
  exact (mem_distinctValues hvalues).2 (.inr ⟨c, hc, x, hx, hdecoded⟩)

/-! ## Local writes -/

@[simp] theorem assigned_localChange (r : PersonalReplica env) (op : Option ScalarValue × List OpId) :
    env.register.assigned (r.localChange op) = op.1 := by
  obtain ⟨value | _, preds⟩ := op <;> rfl

@[simp] theorem preds_localChange (r : PersonalReplica env) (op : Option ScalarValue × List OpId) :
    env.register.preds (r.localChange op) = op.2 := rfl

/-- A write adds one change on top of the log or, if the value is all that is visible, none. -/
theorem put_eq_ok {value : ScalarValue} (h : r.put value = .ok s) :
    (env.register.writes r.log value = none ∧ s = r) ∨
      ∃ c, env.register.writes r.log value = some (env.register.assigned c, env.register.preds c) ∧
        s.id = r.id ∧ s.actor = r.actor ∧ s.log = c :: r.log := by
  unfold put at h
  split at h
  next hnone =>
    cases h
    exact .inl ⟨hnone, rfl⟩
  next op hop =>
    unfold commit at h
    split at h
    next hready =>
      cases h
      exact .inr ⟨r.localChange op, by simpa using hop, rfl, rfl, rfl⟩
    next => cases h

/-- Settling a conflict at the heads that were seen writes one change. -/
theorem set_eq_ok {expected : ReplicaHeads} (h : r.set item (some expected) = .ok s) :
    r.heads = expected ∧ ∃ x, itemScalar env item = .ok x ∧ r.put x = .ok s := by
  simp only [PersonalReplica.set, bind_eq_ok, ensure_eq_ok] at h
  obtain ⟨⟨⟩, hheads, ⟨⟩, -, x, hx, replica, hput, bytes, -, h⟩ := h
  cases h
  exact ⟨hheads, x, hx, hput⟩

theorem mem_heads {h : ChangeHash} : h ∈ r.heads ↔ h ∈ env.register.heads r.log :=
  mem_insertionSort _

/-- Equal heads, equal changes. -/
theorem mem_log_iff_of_heads (hinj : Set.InjOn env.hash {c | c ∈ r.log ∨ c ∈ s.log})
    (h : r.heads = s.heads) (c : Change) : c ∈ r.log ↔ c ∈ s.log := by
  refine ChangeGraph.mem_iff_of_heads_eq r.closed s.closed hinj (fun d => ?_) c
  show d ∈ env.register.heads r.log ↔ d ∈ env.register.heads s.log
  rw [← mem_heads, ← mem_heads, h]

/-- A conflicted register is never left as it is: every write makes a change. -/
theorem exists_change_of_conflict
    (hvalues : r.values = .ok values) (hconflict : 2 ≤ values.length) (h : r.put x = .ok s) :
    ∃ c, env.register.writes r.log x = some (env.register.assigned c, env.register.preds c) ∧ s.id = r.id ∧
      s.actor = r.actor ∧ s.log = c :: r.log := by
  rcases put_eq_ok h with ⟨hnone, -⟩ | hc
  · have hlen : 2 ≤ (env.register.visible r.log).length := by
      have := length_distinctValues (values_eq_ok hvalues)
      simp only [length_nil, visible] at this
      omega
    exfalso
    unfold writes at hnone
    split at hnone
    next => cases hnone
    next w hw =>
      split at hnone
      next =>
        rw [if_neg (by omega)] at hnone
        cases hnone
      next => cases hnone
  · exact hc

/-- What becomes of two decisions once both are in one log. -/
private theorem both_values_iff {m : PersonalReplica env} {c₁ c₂ : Change} (h₁ : env.register.OnTop r.log c₁)
    (h₂ : env.register.OnTop r.log c₂) (hm : ∀ x, x ∈ m.log ↔ x ∈ r.log ∨ x = c₁ ∨ x = c₂) {v₁ v₂ : Option PersonalSecret}
    (hne : v₁ ≠ v₂) {x₁ x₂ : ScalarValue} (hx₁ : itemScalar env v₁ = .ok x₁) (hx₂ : itemScalar env v₂ = .ok x₂)
    (hw₁ : env.register.writes r.log x₁ = some (env.register.assigned c₁, env.register.preds c₁))
    (hw₂ : env.register.writes r.log x₂ = some (env.register.assigned c₂, env.register.preds c₂))
    (hmerged : m.values = .ok merged) : (v₁ ∈ merged ∧ v₂ ∈ merged) ↔
      ∀ w ∈ env.register.winner r.log, env.register.assigned w ≠ some x₁ ∧ env.register.assigned w ≠ some x₂ := by
  have hxne : x₁ ≠ x₂ := fun h => hne (itemScalar_inj hx₁ (h ▸ hx₂))
  have hm' : ∀ x, x ∈ m.log ↔ x ∈ r.log ∨ x = c₂ ∨ x = c₁ := fun x => by rw [hm, or_comm (a := x = c₁)]
  have hmem : ∀ v, v ∈ merged ↔
      ∃ c ∈ m.visible, ∃ x, env.register.assigned c = some x ∧ decodeValue env m.id x = .ok v := by
    intro v
    simpa using mem_distinctValues (values_eq_ok hmerged)
  constructor
  · rintro ⟨hv₁, hv₂⟩ w hw
    obtain ⟨a₁, ha₁, y₁, hy₁, hd₁⟩ := (hmem v₁).1 hv₁
    obtain ⟨a₂, ha₂, y₂, hy₂, hd₂⟩ := (hmem v₂).1 hv₂
    constructor
    · intro hwx
      have := eq_of_mem_visible_pair r.closed h₁ h₂ hm hxne hw₁ hw₂ hw hwx ha₁
      obtain rfl := Option.some.inj (this.symm.trans hy₁)
      exact hne (eq_of_decodeValue_itemScalar hx₂ hd₁)
    · intro hwx
      have := eq_of_mem_visible_pair r.closed h₂ h₁ hm' hxne.symm hw₂ hw₁ hw hwx ha₂
      obtain rfl := Option.some.inj (this.symm.trans hy₂)
      exact hne (eq_of_decodeValue_itemScalar hx₁ hd₂).symm
  · intro hwinner
    obtain ⟨ha₁, hv₁⟩ := mem_visible_of_write r.closed h₁ h₂ hm hw₁ fun w hw => (hwinner w hw).1
    obtain ⟨ha₂, hv₂⟩ := mem_visible_of_write r.closed h₂ h₁ hm' hw₂ fun w hw => (hwinner w hw).2
    exact ⟨mem_values_of_visible hmerged hv₁ ha₁ hx₁, mem_values_of_visible hmerged hv₂ ha₂ hx₂⟩

/-- Merging the update of one replica into another puts their logs together. -/
theorem mem_merge_update {m : PersonalReplica env} {changed : Bool}
    (hupdate : s.update = .ok update) (h : r.merge update = .ok (m, changed))
    (hinj : Set.InjOn env.hash {c | c ∈ r.log ∨ c ∈ s.log}) (c : Change) : c ∈ m.log ↔ c ∈ r.log ∨ c ∈ s.log := by
  obtain ⟨-, -, -, -, -, incoming, hincoming, hdrain⟩ := merge_eq_ok h
  rw [log_of_fromUpdate_update hupdate hincoming] at hdrain
  have := (ChangeRules.drain_spec r.closed hdrain).mem_iff (hinj.mono ?_) c
  · simpa using this
  · rintro d (hd | hd)
    · exact .inl hd
    · exact .inr (by simpa using hd)

theorem id_of_update (h : r.update = .ok update) : update.itemId = r.id := by
  simp only [PersonalReplica.update, bind_eq_ok, ensure_eq_ok] at h
  obtain ⟨⟨⟩, -, h⟩ := h
  cases h
  rfl

theorem id_of_put (h : r.put x = .ok s) : s.id = r.id := by
  rcases put_eq_ok h with ⟨-, rfl⟩ | ⟨c, -, hid, -, -⟩
  · rfl
  · exact hid

/-- **Two decisions at the same heads are both visible exactly when neither is for the current winner.** Choosing the
winner is encoded as deleting the other operations, so the other device's assignment overwrites the winner and the choice
of it leaves no trace. -/
theorem resolve_both_visible_iff (r₁ r₂ s₁ s₂ m : PersonalReplica env) (v₁ v₂ : Option PersonalSecret)
    (expected : ReplicaHeads) (values merged : List (Option PersonalSecret)) (update : PersonalUpdate) (changed : Bool)
    (hvalues : r₁.values = .ok values) (hconflict : 2 ≤ values.length)
    (h₁ : r₁.set v₁ (some expected) = .ok s₁) (h₂ : r₂.set v₂ (some expected) = .ok s₂) (hne : v₁ ≠ v₂)
    (hinj : Set.InjOn env.hash {c | c ∈ s₁.log ∨ c ∈ s₂.log})
    (hmerge : (s₂.update = .ok update ∧ s₁.merge update = .ok (m, changed)) ∨
      (s₁.update = .ok update ∧ s₂.merge update = .ok (m, changed)))
    (hmerged : m.values = .ok merged) :
    (v₁ ∈ merged ∧ v₂ ∈ merged) ↔
      ∀ w ∈ env.register.winner r₁.log, ∀ x, env.register.assigned w = some x →
        itemScalar env v₁ ≠ .ok x ∧ itemScalar env v₂ ≠ .ok x := by
  obtain ⟨hheads₁, x₁, hx₁, hput₁⟩ := set_eq_ok h₁
  obtain ⟨hheads₂, x₂, hx₂, hput₂⟩ := set_eq_ok h₂
  have hid : r₂.id = r₁.id := by
    rw [← id_of_put hput₁, ← id_of_put hput₂]
    rcases hmerge with ⟨hupdate, hmerge⟩ | ⟨hupdate, hmerge⟩
    · exact (id_of_update hupdate).symm.trans (merge_eq_ok hmerge).1.symm
    · exact (merge_eq_ok hmerge).1.trans (id_of_update hupdate)
  obtain ⟨c₁, hw₁, -, -, hlog₁⟩ := exists_change_of_conflict hvalues hconflict hput₁
  -- the second device sees the same conflict: equal heads are equal logs
  have hsub : ∀ s r : PersonalReplica env, (∃ x, r.put x = .ok s) → ∀ c ∈ r.log, c ∈ s.log := by
    rintro s r ⟨x, hput⟩ c hc
    rcases put_eq_ok hput with ⟨-, rfl⟩ | ⟨d, -, -, -, hlog⟩
    · exact hc
    · rw [hlog]
      exact mem_cons_of_mem _ hc
  have hsame : ∀ c, c ∈ r₁.log ↔ c ∈ r₂.log := by
    refine mem_log_iff_of_heads (hinj.mono ?_) (hheads₁.trans hheads₂.symm)
    rintro c (hc | hc)
    · exact .inl (hsub s₁ r₁ ⟨x₁, hput₁⟩ c hc)
    · exact .inr (hsub s₂ r₂ ⟨x₂, hput₂⟩ c hc)
  have hvisible : env.register.visible r₂.log = env.register.visible r₁.log :=
    (visible_congr r₁.closed r₂.closed hsame).symm
  have hvalues₂ : r₂.values = .ok values := by
    rw [← hvalues, PersonalReplica.values, PersonalReplica.values, hid, visible, visible, hvisible]
  obtain ⟨c₂, hw₂, -, -, hlog₂⟩ := exists_change_of_conflict hvalues₂ hconflict hput₂
  have hw₂ : env.register.writes r₁.log x₂ = some (env.register.assigned c₂, env.register.preds c₂) := by
    rw [← hw₂, writes, writes, winner, winner, hvisible]
  have htop₁ : env.register.OnTop r₁.log c₁ := .of_closed (hlog₁ ▸ s₁.closed)
  have htop₂ : env.register.OnTop r₁.log c₂ :=
    (RegisterOps.OnTop.of_closed (hlog₂ ▸ s₂.closed)).congr fun x => (hsame x).symm
  have hm : ∀ x, x ∈ m.log ↔ x ∈ r₁.log ∨ x = c₁ ∨ x = c₂ := by
    have hs : ∀ x, x ∈ m.log ↔ x ∈ s₁.log ∨ x ∈ s₂.log := by
      rcases hmerge with ⟨hupdate, hmerge⟩ | ⟨hupdate, hmerge⟩
      · exact mem_merge_update hupdate hmerge hinj
      · intro x
        rw [or_comm]
        exact mem_merge_update hupdate hmerge (hinj.mono fun c hc => hc.symm) x
    intro x
    rw [hs, hlog₁, hlog₂, mem_cons, mem_cons, ← hsame]
    tauto
  rw [both_values_iff htop₁ htop₂ hm hne hx₁ hx₂ hw₁ hw₂ hmerged]
  constructor
  · intro h w hw x hx
    refine ⟨fun h₁ => (h w hw).1 ?_, fun h₂ => (h w hw).2 ?_⟩
    · rw [hx, ← Except.ok.inj (h₁.symm.trans hx₁)]
    · rw [hx, ← Except.ok.inj (h₂.symm.trans hx₂)]
  · intro h w hw
    exact ⟨fun hx => (h w hw x₁ hx).1 hx₁, fun hx => (h w hw x₂ hx).2 hx₂⟩

/-! ### The race, settled twice -/

/-- A device that holds the race. -/
def raceOn (actor : UInt8) : VaultResult (PersonalReplica referenceReplica) :=
  fromUpdate (Reference.raceUpdate [Reference.deleted, Reference.edited]) [actor]

/-- The first device chooses `v₁`, the second `v₂`, and the first receives the second's update. -/
def raceResolved (v₁ v₂ : Option PersonalSecret) : VaultResult (PersonalReplica referenceReplica ×
    PersonalReplica referenceReplica × PersonalReplica referenceReplica × List (Option PersonalSecret)) := do
  let r₁ ← raceOn 5
  let r₂ ← raceOn 6
  let s₁ ← r₁.set v₁ (some r₁.heads)
  let s₂ ← r₂.set v₂ (some r₁.heads)
  let update ← s₂.update
  let (m, _) ← s₁.merge update
  return (s₁, s₂, m, ← m.values)

/-- What a run of `raceResolved` is made of, with the conflict the first device sees. -/
structure RaceRun (v₁ v₂ : Option PersonalSecret) (merged : List (Option PersonalSecret)) where
  (r₁ r₂ s₁ s₂ m : PersonalReplica referenceReplica)
  (update : PersonalUpdate)
  (changed : Bool)
  held : raceOn 5 = .ok r₁
  set₁ : r₁.set v₁ (some r₁.heads) = .ok s₁
  set₂ : r₂.set v₂ (some r₁.heads) = .ok s₂
  sent : s₂.update = .ok update
  received : s₁.merge update = .ok (m, changed)
  values : m.values = .ok merged
  injOn : Set.InjOn referenceReplica.hash {c | c ∈ s₁.log ∨ c ∈ s₂.log}

theorem raceOn_values : (raceOn 5).toOption.map (fun r => (r.log, r.values.toOption)) =
    some ([edited, deleted], some [none, some raceItem]) := by decide +kernel

/-- A run that ends with `merged` and in which no two changes share a hash. -/
theorem nonempty_raceRun {v₁ v₂ : Option PersonalSecret} {merged : List (Option PersonalSecret)}
    (h : (raceResolved v₁ v₂).toOption.map (fun t =>
      (decide (((t.1.log ++ t.2.1.log).dedup.map referenceReplica.hash).Nodup), t.2.2.2)) = some (true, merged)) :
    Nonempty (RaceRun v₁ v₂ merged) := by
  cases hrun : raceResolved v₁ v₂ with
  | error e => simp [hrun, Except.toOption] at h
  | ok t =>
    obtain ⟨s₁, s₂, m, values⟩ := t
    rw [hrun] at h
    obtain ⟨hnodup, rfl⟩ := Prod.mk.inj (Option.some.inj h)
    simp only [raceResolved, bind_eq_ok] at hrun
    obtain ⟨r₁, held, r₂, -, t₁, hset₁, t₂, hset₂, update, hupdate, ⟨merged, changed⟩, hmerge, found, hvalues, hrun⟩ :=
      hrun
    cases hrun
    refine ⟨⟨r₁, r₂, _, _, _, update, changed, held, hset₁, hset₂, hupdate, hmerge, hvalues, ?_⟩⟩
    intro c hc d hd hcd
    refine inj_on_of_nodup_map (of_decide_eq_true hnodup) ?_ ?_ hcd
    · exact mem_dedup.2 (mem_append.2 hc)
    · exact mem_dedup.2 (mem_append.2 hd)

theorem RaceRun.conflict {v₁ v₂ : Option PersonalSecret} (run : RaceRun v₁ v₂ merged) :
    run.r₁.log = [edited, deleted] ∧ run.r₁.values = .ok [none, some raceItem] := by
  have h := raceOn_values
  rw [run.held] at h
  obtain ⟨hlog, hvalues⟩ := Prod.mk.inj (Option.some.inj h)
  refine ⟨hlog, ?_⟩
  cases hv : run.r₁.values with
  | error e => simp [hv, Except.toOption] at hvalues
  | ok values =>
    rw [hv] at hvalues
    rw [Option.some.inj hvalues]

/-- The tombstone and a third value are both visible: the winner was the edit. -/
theorem resolve_tombstone_and_new_visible :
    let new := some { Reference.raceItem with title := "new" }
    ∃ merged, Nonempty (RaceRun none new merged) ∧ none ∈ merged ∧ new ∈ merged := by
  intro new
  obtain ⟨run⟩ := @nonempty_raceRun none new [none, new] (by decide +kernel)
  obtain ⟨hlog, hvalues⟩ := run.conflict
  refine ⟨_, ⟨run⟩, ?_⟩
  refine (resolve_both_visible_iff run.r₁ run.r₂ run.s₁ run.s₂ run.m none new run.r₁.heads _ _ run.update run.changed
    hvalues (by decide) run.set₁ run.set₂ (by decide +kernel) run.injOn (.inl ⟨run.sent, run.received⟩) run.values).2 ?_
  intro w hw x hx
  have hwinner : referenceReplica.register.winner [edited, deleted] = some edited := by
    decide +kernel
  rw [hlog, hwinner] at hw
  obtain rfl := Option.some.inj hw
  obtain rfl : ScalarValue.bytes (Reference.itemJson.toVec raceItem) = x := Option.some.inj hx
  constructor
  · intro h
    cases h
  · decide +kernel

/-- **A choice of the winner is silently discarded**: one device keeps the edit, the other the deletion, and only the
deletion is left. -/
theorem resolve_winner_lost :
    ¬ ∀ (env : ReplicaEnv) (r₁ r₂ s₁ s₂ m : PersonalReplica env) (v₁ v₂ : Option PersonalSecret)
      (expected : ReplicaHeads) (values merged : List (Option PersonalSecret)) (update : PersonalUpdate)
      (changed : Bool), r₁.values = .ok values → 2 ≤ values.length → r₁.set v₁ (some expected) = .ok s₁ →
      r₂.set v₂ (some expected) = .ok s₂ → v₁ ≠ v₂ → Set.InjOn env.hash {c | c ∈ s₁.log ∨ c ∈ s₂.log} →
      s₂.update = .ok update → s₁.merge update = .ok (m, changed) → m.values = .ok merged →
      v₁ ∈ merged ∧ v₂ ∈ merged := by
  intro claim
  obtain ⟨run⟩ := @nonempty_raceRun (some raceItem) none [none] (by decide +kernel)
  have h := claim referenceReplica run.r₁ run.r₂ run.s₁ run.s₂ run.m _ _ _ _ _ _ _ run.conflict.2 (by decide) run.set₁
    run.set₂ (by decide +kernel) run.injOn run.sent run.received run.values
  simp at h

end PersonalReplica

end FactorSeal

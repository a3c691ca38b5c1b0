import FactorSeal.Lib.ChangeLog
import Mathlib.Data.List.Sort
import Std.Data.ExtTreeMap.Lemmas

/-! # Multi-value registers

Each change of a log holds one operation on one register: it assigns a value or only removes, and it names the earlier
operations it overwrites (`preds`). Visible are the assignments nothing overwrites, in the order of their operation ids;
the last one is the winner. Writing the winner's value again is encoded as a removal of the other visible operations.

* `visible_congr`: what is visible is a function of the set of changes.
* `visible_ne_nil_iff`: when a register whose removals all keep one candidate is not empty.
* `mem_visible_pair`: what is visible after two concurrent operations on one log; `eq_of_mem_visible_pair`: a write of
  the winner's value is lost to another one. -/

open Std List

/-- The operation a change holds. `assigned` is `none` for an operation that only removes. -/
structure RegisterOps (γ η ι ν : Type) extends ChangeGraph γ η where
  opId : γ → ι
  assigned : γ → Option ν
  preds : γ → List ι

namespace RegisterOps

open ChangeGraph ChangeRules

variable {γ η ι ν : Type} [DecidableEq η] [DecidableEq ι] (R : RegisterOps γ η ι ν) {both log : List γ} {c c₁ c₂ : γ}
  {p : ι} {v : ν}

/-- An operation has an id of its own and overwrites only operations of its causal past. -/
abbrev rules : ChangeRules γ η where
  toChangeGraph := R.toChangeGraph
  admits log c := decide (R.opId c ∉ log.map R.opId) &&
    (R.preds c).all fun p => p ∈ (R.past (R.deps c) log).map R.opId

/-- An assignment that nothing in the log overwrites. -/
def stands (log : List γ) (c : γ) : Bool :=
  (R.assigned c).isSome && log.all fun d => R.opId c ∉ R.preds d

variable [Ord ι]

/-- The order of operation ids. -/
def idLE (c d : γ) : Prop := (compare (R.opId c) (R.opId d)).isLE = true

instance : DecidableRel R.idLE := fun _ _ => inferInstanceAs (Decidable (_ = true))

/-- The visible operations, by operation id. -/
def visible (log : List γ) : List γ := (log.filter (R.stands log)).insertionSort R.idLE

/-- What an operation had to choose from. -/
def candidates (log : List γ) (c : γ) : List γ := R.visible (R.past (R.deps c) log)

/-- What is visible right after an operation. -/
def outcome (log : List γ) (c : γ) : List γ := R.visible (R.past [R.hash c] log)

/-- The operation settles a conflict: of several candidates exactly one is left. -/
def resolves (log : List γ) (c : γ) : Bool :=
  2 ≤ (R.candidates log c).length &&
    match R.outcome log c with
    | [kept] => R.opId kept ∈ (R.candidates log c).map R.opId
    | _ => false

/-- The visible operation with the greatest id. -/
def winner (log : List γ) : Option γ := (R.visible log).getLast?

/-- How a value is written on top of a log: what the new operation assigns and overwrites, or nothing at all. -/
def writes [DecidableEq ν] (log : List γ) (v : ν) : Option (Option ν × List ι) :=
  match R.winner log with
  | none => some (some v, [])
  | some w =>
    if R.assigned w = some v then
      if (R.visible log).length = 1 then none else some (none, (R.visible log).dropLast.map R.opId)
    else some (some v, (R.visible log).map R.opId)

variable {R}

/-! ## Visible operations -/

omit [DecidableEq η] [Ord ι] in
theorem stands_iff : R.stands log c = true ↔ (R.assigned c).isSome ∧ ∀ d ∈ log, R.opId c ∉ R.preds d := by
  simp [stands]

omit [DecidableEq η] in
theorem mem_visible : c ∈ R.visible log ↔ c ∈ log ∧ (R.assigned c).isSome ∧ ∀ d ∈ log, R.opId c ∉ R.preds d := by
  rw [visible, mem_insertionSort, mem_filter, stands_iff]

omit [Ord ι] in
/-- The operation ids of a closed log are distinct. -/
theorem opId_nodup (h : R.rules.Closed log) : (log.map R.opId).Nodup := by
  induction h with
  | nil => simp
  | cons _ _ _ hadmits ih =>
    obtain ⟨hfresh, -⟩ := Bool.and_eq_true_iff.1 hadmits
    exact nodup_cons.2 ⟨of_decide_eq_true hfresh, ih⟩

omit [Ord ι] in
theorem eq_of_opId_eq (h : R.rules.Closed log) {d : γ} (hc : c ∈ log) (hd : d ∈ log)
    (hcd : R.opId c = R.opId d) : c = d :=
  inj_on_of_nodup_map (opId_nodup h) hc hd hcd

omit [Ord ι] in
/-- An overwritten operation is in the causal past of the one that overwrites it. -/
theorem pred_mem_past (h : R.rules.Closed log) (hc : c ∈ log) (hp : p ∈ R.preds c) :
    ∃ d, R.Reach log (R.deps c) d ∧ R.opId d = p := by
  induction h with
  | nil => simp at hc
  | @cons e log hlog _ _ hadmits ih =>
    rcases mem_cons.1 hc with rfl | hc
    · obtain ⟨-, hpreds⟩ := Bool.and_eq_true_iff.1 hadmits
      have hmem : p ∈ (R.past (R.deps c) log).map R.opId := by
        simpa using all_eq_true.1 hpreds p hp
      obtain ⟨d, hd, hdp⟩ := mem_map.1 hmem
      have hreach := (mem_past hlog).1 hd
      exact ⟨d, hreach.mono (fun _ => mem_cons_of_mem _) (fun _ => id), hdp⟩
    · obtain ⟨d, hd, hdp⟩ := ih hc
      exact ⟨d, hd.mono (fun _ => mem_cons_of_mem _) (fun _ => id), hdp⟩

omit [Ord ι] in
/-- The newest operation overwrites operations behind it. -/
theorem preds_subset (h : R.rules.Closed (c :: log)) (hp : p ∈ R.preds c) : p ∈ log.map R.opId := by
  cases h with
  | cons _ _ _ hadmits =>
    obtain ⟨-, hpreds⟩ := Bool.and_eq_true_iff.1 hadmits
    have hmem : p ∈ (R.past (R.deps c) log).map R.opId := by
      simpa using all_eq_true.1 hpreds p hp
    obtain ⟨d, hd, rfl⟩ := mem_map.1 hmem
    exact mem_map_of_mem (past_subset hd)

section Order

variable [TransOrd ι] [LawfulEqOrd ι]

instance : Std.Total R.idLE where
  total c d := by
    unfold idLE
    rw [OrientedOrd.eq_swap (a := R.opId d)]
    cases compare (R.opId c) (R.opId d) <;> simp

instance : IsTrans γ R.idLE where
  trans _ _ _ h₁ h₂ := TransCmp.isLE_trans h₁ h₂

/-- **What is visible is a function of the set of changes.** -/
theorem visible_congr {log log' : List γ} (hlog : R.rules.Closed log) (hlog' : R.rules.Closed log')
    (h : ∀ c, c ∈ log ↔ c ∈ log') : R.visible log = R.visible log' := by
  have hnd : ∀ l : List γ, R.rules.Closed l → (l.filter (R.stands l)).Nodup := fun l hl =>
    (Nodup.of_map _ hl.nodup).filter _
  have hperm : (R.visible log).Perm (R.visible log') := by
    refine (perm_insertionSort _ _).trans (.trans ?_ (perm_insertionSort _ _).symm)
    refine (perm_ext_iff_of_nodup (hnd _ hlog) (hnd _ hlog')).2 fun c => ?_
    simp [stands_iff, h]
  refine hperm.eq_of_pairwise ?_ (pairwise_insertionSort _ _) (pairwise_insertionSort _ _)
  intro c d hc hd hcd hdc
  refine eq_of_opId_eq hlog (mem_visible.1 hc).1 ((h d).2 (mem_visible.1 hd).1) ?_
  exact LawfulEqCmp.eq_of_compare (OrientedCmp.isLE_antisymm hcd hdc)

end Order

/-! ## Parts of a log -/

omit [Ord ι] in
theorem hash_injOn (h : R.rules.Closed log) : Set.InjOn R.hash {c | c ∈ log} := fun _ hc _ hd hcd =>
  inj_on_of_nodup_map h.nodup hc hd hcd

/-- A visible operation of a log is visible in every part of the log that holds it. -/
theorem mem_visible_past (hlog : R.rules.Closed log) {front : List η} (hc : c ∈ R.visible log)
    (hr : R.Reach log front c) : c ∈ R.visible (R.past front log) := by
  obtain ⟨-, hassigned, hstands⟩ := mem_visible.1 hc
  exact mem_visible.2 ⟨(mem_past hlog).2 hr, hassigned, fun d hd => hstands d (past_subset hd)⟩

/-- A closed part of a log sees the same operations of its own past as the whole log. -/
theorem mem_visible_past_iff {log' : List γ} (hlog : R.rules.Closed log) (hlog' : R.rules.Closed log')
    (hsub : ∀ c ∈ log, c ∈ log') {front : List η} (hfront : ∀ d ∈ front, d ∈ log.map R.hash) :
    c ∈ R.visible (R.past front log) ↔ c ∈ R.visible (R.past front log') := by
  have hmem : ∀ x, x ∈ R.past front log ↔ x ∈ R.past front log' := by
    intro x
    rw [mem_past hlog, mem_past hlog']
    constructor
    · exact fun h => h.mono hsub fun _ => id
    · exact fun h => h.of_subset hlog hsub (hash_injOn hlog') hfront
  simp only [mem_visible, hmem]

/-- What a removal overwrites of its candidates is gone right after it. -/
theorem notMem_outcome (hlog : R.rules.Closed log) {r : γ} (hr : r ∈ log) {a : γ}
    (ha : R.opId a ∈ R.preds r) : a ∉ R.outcome log r := by
  intro hmem
  have hself : r ∈ R.past [R.hash r] log := (mem_past hlog).2 (.front hr (by simp))
  exact (mem_visible.1 hmem).2.2 r hself ha

omit [Ord ι] in
/-- The causal past of a change stands behind it. -/
theorem mem_older_of_reach {newer older : List γ} {e : γ} (hlog : R.rules.Closed (newer ++ e :: older)) {d : γ}
    (h : R.Reach (newer ++ e :: older) (R.deps e) d) : d ∈ older := by
  have hold : R.rules.Closed (e :: older) := hlog.of_append
  have hdeps : ∀ x ∈ R.deps e, x ∈ older.map R.hash := by
    cases hold with
    | cons _ _ hdeps _ => exact hdeps
  have hsub : ∀ c ∈ older, c ∈ newer ++ e :: older := fun c hc => by simp [hc]
  exact (h.of_subset hold.tail hsub (hash_injOn hlog) hdeps).mem

/-- An assignment that no assignment replaces and every removal keeps is overwritten by nothing: the oldest operation
that overwrites it would be a removal that had it among its candidates. -/
private theorem notMem_preds (hlog : R.rules.Closed log) {a : γ} (ha : a ∈ log)
    (hassigned : (R.assigned a).isSome) (hreplaced : ∀ b ∈ log, (R.assigned b).isSome → R.opId a ∉ R.preds b)
    (hkept : ∀ r ∈ log, R.assigned r = none → a ∈ R.candidates log r → a ∈ R.outcome log r) :
    ∀ newer older, log = newer ++ older → ∀ r ∈ older, R.opId a ∉ R.preds r := by
  intro newer older
  induction older generalizing newer with
  | nil => simp
  | cons e older ih =>
    intro hsplit
    have hold := ih (newer ++ [e]) (by simp [hsplit])
    intro r hr hpred
    rcases mem_cons.1 hr with rfl | hr
    · have hmem : r ∈ log := by simp [hsplit]
      cases hr : R.assigned r with
      | some v => exact hreplaced r hmem (by simp [hr]) hpred
      | none =>
        obtain ⟨d, hd, hda⟩ := pred_mem_past hlog hmem hpred
        obtain rfl := eq_of_opId_eq hlog hd.mem ha hda
        have hcand : d ∈ R.candidates log r := by
          refine mem_visible.2 ⟨(mem_past hlog).2 hd, hassigned, fun x hx => hold x ?_⟩
          have hx := (mem_past hlog).1 hx
          subst hsplit
          exact mem_older_of_reach hlog hx
        exact notMem_outcome hlog hmem hpred (hkept r hmem hr hcand)
    · exact hold r hr hpred

/-- **When a register is not empty.** Among the assignments that no other assignment replaces there is one that every
removal which could choose it has kept. -/
theorem visible_ne_nil_iff (hlog : R.rules.Closed log) : R.visible log ≠ [] ↔
      ∃ a ∈ log, (R.assigned a).isSome ∧ (∀ b ∈ log, (R.assigned b).isSome → R.opId a ∉ R.preds b) ∧
        ∀ r ∈ log, R.assigned r = none → a ∈ R.candidates log r → a ∈ R.outcome log r := by
  constructor
  · intro hne
    obtain ⟨a, ha⟩ := exists_mem_of_ne_nil _ hne
    obtain ⟨hmem, hassigned, hstands⟩ := mem_visible.1 ha
    refine ⟨a, hmem, hassigned, fun b hb _ => hstands b hb, fun r hr _ hcand => ?_⟩
    have hreach : R.Reach log (R.deps r) a := (mem_past hlog).1 (mem_visible.1 hcand).1
    exact mem_visible_past hlog ha (hreach.of_deps hr)
  · rintro ⟨a, ha, hassigned, hreplaced, hkept⟩
    have hstands := notMem_preds hlog ha hassigned hreplaced hkept [] log rfl
    exact ne_nil_of_mem (mem_visible.2 ⟨ha, hassigned, hstands⟩)

/-! ## Writes -/

omit [DecidableEq η] in
/-- Writing a value that is not the winner's overwrites all that is visible. -/
theorem writes_of_ne [DecidableEq ν] (h : ∀ w ∈ R.winner log, R.assigned w ≠ some v) :
    R.writes log v = some (some v, (R.visible log).map R.opId) := by
  unfold writes
  cases hw : R.winner log with
  | none =>
    have hnil : R.visible log = [] := getLast?_eq_none_iff.1 hw
    simp [hnil]
  | some w => simp [h w hw]

omit [DecidableEq η] in
/-- Writing the winner's value leaves the winner alone and adds no assignment. -/
theorem writes_of_eq [DecidableEq ν] {w : γ} (hw : R.winner log = some w)
    (hv : R.assigned w = some v) {op : Option ν × List ι} (h : R.writes log v = some op) :
    op = (none, (R.visible log).dropLast.map R.opId) := by
  rw [writes, hw] at h
  simp only [hv, if_true] at h
  split at h
  · cases h
  · exact (Option.some.inj h).symm

/-- An operation that is new to a log and overwrites only what the log holds. -/
structure OnTop (R : RegisterOps γ η ι ν) (log : List γ) (c : γ) : Prop where
  fresh : R.opId c ∉ log.map R.opId
  preds : ∀ p ∈ R.preds c, p ∈ log.map R.opId

omit [Ord ι] in
theorem OnTop.of_closed (h : R.rules.Closed (c :: log)) : R.OnTop log c :=
  ⟨(nodup_cons.1 (opId_nodup h)).1, fun _ => preds_subset h⟩

omit [DecidableEq η] [DecidableEq ι] [Ord ι] in
theorem OnTop.congr {log' : List γ} (h : ∀ x, x ∈ log ↔ x ∈ log') (hc : R.OnTop log c) : R.OnTop log' c := by
  have hids : ∀ p, p ∈ log.map R.opId ↔ p ∈ log'.map R.opId := by simp [h]
  exact ⟨fun hmem => hc.fresh ((hids _).2 hmem), fun p hp => (hids p).1 (hc.preds p hp)⟩

/-- What is visible when two operations made on top of `log` come together: of the log what neither overwrites, and the
new assignments. -/
theorem mem_visible_pair (hlog : R.rules.Closed log) (h₁ : R.OnTop log c₁)
    (h₂ : R.OnTop log c₂) (hboth : ∀ x, x ∈ both ↔ x ∈ log ∨ x = c₁ ∨ x = c₂) {x : γ} : x ∈ R.visible both ↔
      (x ∈ R.visible log ∧ R.opId x ∉ R.preds c₁ ∧ R.opId x ∉ R.preds c₂) ∨
      ((x = c₁ ∨ x = c₂) ∧ (R.assigned x).isSome) := by
  -- predecessors are operations of the log, so no new operation is overwritten
  have hpreds : ∀ y ∈ both, ∀ p ∈ R.preds y, p ∈ log.map R.opId := by
    intro y hy p hp
    rcases (hboth y).1 hy with hy | rfl | rfl
    · obtain ⟨d, hd, rfl⟩ := pred_mem_past hlog hy hp
      exact mem_map_of_mem hd.mem
    · exact h₁.preds p hp
    · exact h₂.preds p hp
  rw [mem_visible, mem_visible]
  constructor
  · rintro ⟨hx, hassigned, hstands⟩
    rcases (hboth x).1 hx with hx | hx
    · refine .inl ⟨⟨hx, hassigned, fun d hd => hstands d ((hboth d).2 (.inl hd))⟩, ?_, ?_⟩
      · exact hstands c₁ ((hboth c₁).2 (by simp))
      · exact hstands c₂ ((hboth c₂).2 (by simp))
    · exact .inr ⟨hx, hassigned⟩
  · rintro (⟨⟨hx, hassigned, hstands⟩, hp₁, hp₂⟩ | ⟨hx, hassigned⟩)
    · refine ⟨(hboth x).2 (.inl hx), hassigned, fun d hd => ?_⟩
      rcases (hboth d).1 hd with hd | rfl | rfl
      · exact hstands d hd
      · exact hp₁
      · exact hp₂
    · refine ⟨(hboth x).2 (.inr hx), hassigned, fun d hd hp => ?_⟩
      have hold := hpreds d hd _ hp
      rcases hx with rfl | rfl
      · exact h₁.fresh hold
      · exact h₂.fresh hold

/-- A write of a value that is not the winner's stays visible beside any concurrent write. -/
theorem mem_visible_of_write [DecidableEq ν] (hlog : R.rules.Closed log)
    (h₁ : R.OnTop log c₁) (h₂ : R.OnTop log c₂) (hboth : ∀ x, x ∈ both ↔ x ∈ log ∨ x = c₁ ∨ x = c₂)
    (hw : R.writes log v = some (R.assigned c₁, R.preds c₁)) (hv : ∀ w ∈ R.winner log, R.assigned w ≠ some v) :
    R.assigned c₁ = some v ∧ c₁ ∈ R.visible both := by
  obtain ⟨ha, -⟩ := Prod.mk.inj (Option.some.inj (hw.symm.trans (writes_of_ne hv)))
  exact ⟨ha, (mem_visible_pair hlog h₁ h₂ hboth).2 (.inr ⟨.inl rfl, by simp [ha]⟩)⟩

/-- A write of the winner's value is lost to a concurrent write of another value: it only removes the others, and the
other write overwrites the winner. -/
theorem eq_of_mem_visible_pair [DecidableEq ν] (hlog : R.rules.Closed log)
    (h₁ : R.OnTop log c₁) (h₂ : R.OnTop log c₂) (hboth : ∀ x, x ∈ both ↔ x ∈ log ∨ x = c₁ ∨ x = c₂) {v₁ v₂ : ν}
    (hne : v₁ ≠ v₂) (hw₁ : R.writes log v₁ = some (R.assigned c₁, R.preds c₁))
    (hw₂ : R.writes log v₂ = some (R.assigned c₂, R.preds c₂)) {w : γ} (hw : R.winner log = some w)
    (hv : R.assigned w = some v₁) {x : γ} (hx : x ∈ R.visible both) : R.assigned x = some v₂ := by
  obtain ⟨ha₁, -⟩ := Prod.mk.inj (writes_of_eq hw hv hw₁)
  have hother : ∀ w' ∈ R.winner log, R.assigned w' ≠ some v₂ := by
    intro w' hw' hv'
    obtain rfl : w = w' := Option.some.inj (hw.symm.trans hw')
    exact hne (Option.some.inj (hv.symm.trans hv'))
  obtain ⟨ha₂, hp₂⟩ := Prod.mk.inj (Option.some.inj (hw₂.symm.trans (writes_of_ne hother)))
  rcases (mem_visible_pair hlog h₁ h₂ hboth).1 hx with ⟨hvis, -, hnot⟩ | ⟨rfl | rfl, hassigned⟩
  · exact absurd (hp₂ ▸ mem_map_of_mem hvis) hnot
  · simp [ha₁] at hassigned
  · exact ha₂

/-! ## A write on top of a log -/

end RegisterOps

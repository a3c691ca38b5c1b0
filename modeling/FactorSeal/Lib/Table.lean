import Mathlib.Data.List.Nodup
import Mathlib.Data.List.Perm.Subperm
import Std.Data.ExtTreeMap.Lemmas

/-! # Keyed tables

A table with a primary key: rows in which no key occurs twice. `INSERT` fails on a key that is there, `upsert` is
`INSERT … ON CONFLICT(key) DO UPDATE`, `modify` is an `UPDATE` that leaves the key alone, `delete` is `DELETE … WHERE`.
Each operation comes with what its result holds (`mem_…`). The counting lemma `length_eq_size_iff` is what lets a
checker compare a table with a map by counting rows. -/

open Std ExtTreeMap

/-! ## Maps whose keys compare equal only when they are -/

namespace ExtMap

variable {ι β : Type} {cmp : ι → ι → Ordering} [TransCmp cmp] [LawfulEqCmp cmp] {m : ExtTreeMap ι β cmp} {i : ι} {b : β}

theorem mem_insert_iff {j : ι} : i ∈ m.insert j b ↔ i = j ∨ i ∈ m := by
  rw [mem_insert, LawfulEqCmp.compare_eq_iff_eq, eq_comm]

theorem getElem?_insert_iff [DecidableEq ι] {j : ι} : (m.insert j b)[i]? = if j = i then some b else m[i]? := by
  simp [getElem?_insert, LawfulEqCmp.compare_eq_iff_eq]

omit [LawfulEqCmp cmp] in
theorem mem_iff_exists : i ∈ m ↔ ∃ b, m[i]? = some b := by
  rw [mem_iff_isSome_getElem?, Option.isSome_iff_exists]

/-- A map made of a list without repeated keys has the entries of the list. -/
theorem getElem?_ofList_eq_some [DecidableEq ι] {l : List (ι × β)} (hnd : (l.map Prod.fst).Nodup) :
    (ofList l cmp)[i]? = some b ↔ (i, b) ∈ l := by
  have hdistinct : l.Pairwise fun a b => ¬ cmp a.1 b.1 = .eq :=
    (List.pairwise_map.1 hnd).imp fun h heq => h (LawfulEqCmp.compare_eq_iff_eq.1 heq)
  have hmem : ∀ b, (i, b) ∈ l → (ofList l cmp)[i]? = some b := fun b h =>
    getElem?_ofList_of_mem ReflCmp.compare_self hdistinct h
  refine ⟨fun h => ?_, hmem b⟩
  have hi : i ∈ ofList l cmp := mem_iff_exists.2 ⟨b, h⟩
  rw [mem_ofList, List.contains_iff_mem] at hi
  obtain ⟨⟨_, b'⟩, hb', rfl⟩ := List.mem_map.1 hi
  rw [hmem b' hb'] at h
  cases h
  exact hb'

omit [LawfulEqCmp cmp] in
theorem nodup_keys_toList (m : ExtTreeMap ι β cmp) : (m.toList.map Prod.fst).Nodup := by
  refine List.pairwise_map.2 (ExtTreeMap.distinct_keys_toList.imp fun {a b} h heq => h ?_)
  rw [heq]
  exact ReflCmp.compare_self

theorem ofList_toList [DecidableEq ι] (m : ExtTreeMap ι β cmp) : ofList m.toList cmp = m := by
  refine ext_getElem? fun i => Option.ext fun b => ?_
  rw [getElem?_ofList_eq_some (nodup_keys_toList m), mem_toList_iff_getElem?_eq_some]

end ExtMap

/-! ## Tables -/

/-- Rows with a primary key. -/
structure Table (ρ κ : Type) (key : ρ → κ) where
  rows : List ρ
  nodup : (rows.map key).Nodup

namespace Table

variable {ρ κ ι β : Type} {key : ρ → κ} [DecidableEq κ] {t : Table ρ κ key} {r x : ρ} {p : ρ → Bool}

instance : Membership ρ (Table ρ κ key) := ⟨fun t r => r ∈ t.rows⟩

omit [DecidableEq κ] in
theorem mem_def : r ∈ t ↔ r ∈ t.rows := Iff.rfl

omit [DecidableEq κ] in
/-- Two rows of one key are one row. -/
theorem eq_of_key_eq {s : ρ} (hr : r ∈ t) (hs : s ∈ t) (h : key r = key s) : r = s :=
  List.inj_on_of_nodup_map t.nodup hr hs h

def empty : Table ρ κ key := ⟨[], by simp⟩

/-- `SELECT … WHERE key = k`. -/
def select (t : Table ρ κ key) (k : κ) : List ρ := t.rows.filter (fun r => key r = k)

theorem select_eq_singleton (hr : r ∈ t) : t.select (key r) = [r] := by
  have hnd : (t.select (key r)).Nodup := (List.Nodup.of_map key t.nodup).filter _
  have hall : ∀ s ∈ t.select (key r), s = r := fun s hs => by
    obtain ⟨hs, hk⟩ := List.mem_filter.1 hs
    exact t.eq_of_key_eq hs hr (by simpa using hk)
  have hmem : r ∈ t.select (key r) := List.mem_filter.2 ⟨hr, by simp⟩
  match hsel : t.select (key r), hnd, hall, hmem with
  | [], _, _, hmem => simp at hmem
  | [s], _, hall, _ => rw [hall s (by simp)]
  | s :: s' :: l, hnd, hall, _ =>
    have : s = s' := (hall s (by simp)).trans (hall s' (by simp)).symm
    simp [this] at hnd

theorem mem_select {k : κ} : r ∈ t.select k ↔ r ∈ t ∧ key r = k := by
  simp [select, mem_def]

/-- `INSERT`; `none` is the primary-key violation. -/
def insert (t : Table ρ κ key) (r : ρ) : Option (Table ρ κ key) :=
  if h : key r ∈ t.rows.map key then none
  else some ⟨t.rows ++ [r], by
    rw [List.map_append, List.nodup_append]
    exact ⟨t.nodup, by simp, fun a ha b hb => by
      simp only [List.map_cons, List.map_nil, List.mem_singleton] at hb
      exact fun hab => h (hb ▸ hab ▸ ha)⟩⟩

theorem insert_isSome : (t.insert r).isSome ↔ ∀ s ∈ t, key s ≠ key r := by
  unfold insert
  split <;> rename_i h <;> simpa [mem_def] using h

theorem mem_insert {t' : Table ρ κ key} (h : t.insert r = some t') : x ∈ t' ↔ x ∈ t ∨ x = r := by
  unfold insert at h
  split at h
  · cases h
  · cases h; simp [mem_def]

/-- `DELETE … WHERE p`. -/
def delete (t : Table ρ κ key) (p : ρ → Bool) : Table ρ κ key :=
  ⟨t.rows.filter (fun r => !p r), t.nodup.sublist (List.filter_sublist.map key)⟩

omit [DecidableEq κ] in
theorem mem_delete : x ∈ t.delete p ↔ x ∈ t ∧ p x = false := by
  simp [delete, mem_def]

/-- `UPDATE … SET f WHERE p`, for an `f` that leaves the key alone. -/
def modify (t : Table ρ κ key) (p : ρ → Bool) (f : ρ → ρ) (hf : ∀ r, key (f r) = key r) : Table ρ κ key :=
  ⟨t.rows.map (fun r => if p r then f r else r), by
    have : ((fun r => key r) ∘ fun r => if p r then f r else r) = key := by
      funext r; simp only [Function.comp]; split <;> simp [hf]
    rw [List.map_map, this]
    exact t.nodup⟩

omit [DecidableEq κ] in
theorem mem_modify {f : ρ → ρ} {hf : ∀ r, key (f r) = key r} :
    x ∈ t.modify p f hf ↔ ∃ r ∈ t, x = if p r then f r else r := by
  simp only [modify, mem_def, List.mem_map]
  exact ⟨fun ⟨r, hr, h⟩ => ⟨r, hr, h.symm⟩, fun ⟨r, hr, h⟩ => ⟨r, hr, h.symm⟩⟩

/-- How many rows an `UPDATE … WHERE p` touches. -/
def count (t : Table ρ κ key) (p : ρ → Bool) : Nat := t.rows.countP p

/-- `INSERT … ON CONFLICT(key) DO UPDATE`: the row replaces the one of its key, or is added. -/
def upsert (t : Table ρ κ key) (r : ρ) : Table ρ κ key :=
  ⟨(t.delete (fun s => key s = key r)).rows ++ [r], by
    rw [List.map_append, List.nodup_append]
    refine ⟨(t.delete _).nodup, by simp, fun a ha b hb => ?_⟩
    obtain ⟨s, hs, rfl⟩ := List.mem_map.1 ha
    simp only [List.map_cons, List.map_nil, List.mem_singleton] at hb
    have := (mem_delete.1 hs).2
    simp only [decide_eq_false_iff_not] at this
    rw [hb]
    exact this⟩

theorem mem_upsert : x ∈ t.upsert r ↔ (x ∈ t ∧ key x ≠ key r) ∨ x = r := by
  simp [upsert, delete, mem_def]

/-! ## Tables against maps -/

omit [DecidableEq κ] in
/-- Rows that belong to entries of a map, no two of them to one, are as many as the map has entries exactly when every
entry has its row. -/
theorem length_eq_size_iff {cmp : ι → ι → Ordering} [TransCmp cmp] [LawfulEqCmp cmp] {rows : List ρ} {col : ρ → κ}
    (hnd : (rows.map col).Nodup) {m : ExtTreeMap ι β cmp} (enc : ι → κ) (henc : Function.Injective enc)
    (hrow : ∀ r ∈ rows, ∃ i ∈ m, col r = enc i) :
    rows.length = m.size ↔ ∀ i ∈ m, ∃ r ∈ rows, col r = enc i := by
  have hkeys : (m.keys.map enc).Nodup := by
    refine List.Nodup.map henc ?_
    exact (distinct_keys (t := m)).imp fun {a b} hne (hab : a = b) => hne (hab ▸ ReflCmp.compare_self)
  have hsub : rows.map col ⊆ m.keys.map enc := fun k hk => by
    obtain ⟨r, hr, rfl⟩ := List.mem_map.1 hk
    obtain ⟨i, hi, h⟩ := hrow r hr
    exact h ▸ List.mem_map_of_mem (ExtTreeMap.mem_keys.2 hi)
  have hlen : (m.keys.map enc).length = m.size := by simp
  constructor
  · intro h i hi
    have hperm : List.Perm (rows.map col) (m.keys.map enc) :=
      (hnd.subperm hsub).perm_of_length_le (Nat.le_of_eq (by rw [hlen, List.length_map, h]))
    have : enc i ∈ rows.map col := hperm.mem_iff.2 (List.mem_map_of_mem (ExtTreeMap.mem_keys.2 hi))
    obtain ⟨r, hr, h⟩ := List.mem_map.1 this
    exact ⟨r, hr, h⟩
  · intro h
    have hsup : m.keys.map enc ⊆ rows.map col := fun k hk => by
      obtain ⟨i, hi, rfl⟩ := List.mem_map.1 hk
      obtain ⟨r, hr, h⟩ := h i (ExtTreeMap.mem_keys.1 hi)
      exact h ▸ List.mem_map_of_mem hr
    have hperm : List.Perm (rows.map col) (m.keys.map enc) :=
      (hnd.subperm hsub).antisymm (hkeys.subperm hsup)
    have := hperm.length_eq
    rwa [List.length_map, hlen] at this

/-- The rows of a table and the entries of a map correspond under `R`. -/
structure Matches {cmp : ι → ι → Ordering} (t : Table ρ κ key) (m : ExtTreeMap ι β cmp) (R : ρ → ι → β → Prop)
    [TransCmp cmp] : Prop where
  entry_of_row : ∀ r ∈ t, ∃ i b, m[i]? = some b ∧ R r i b
  row_of_entry : ∀ i b, m[i]? = some b → ∃ r ∈ t, R r i b

section
variable {cmp : ι → ι → Ordering} [TransCmp cmp] [LawfulEqCmp cmp] {m : ExtTreeMap ι β cmp} {R : ρ → ι → β → Prop}
  {γ : Type} {col : ρ → γ} {enc : ι → γ} {t : Table ρ κ key}

omit [DecidableEq κ] in
/-- If no two rows of a matching table name one entry, it has as many rows as the map has entries. -/
theorem Matches.length_eq (h : t.Matches m R) (henc : Function.Injective enc)
    (hcol : ∀ r i b, R r i b → col r = enc i) (hnd : (t.rows.map col).Nodup) : t.rows.length = m.size := by
  refine (length_eq_size_iff hnd enc henc fun r hr => ?_).2 fun i hi => ?_
  · obtain ⟨i, b, hb, hR⟩ := h.entry_of_row r hr
    exact ⟨i, ExtMap.mem_iff_exists.2 ⟨b, hb⟩, hcol r i b hR⟩
  · obtain ⟨b, hb⟩ := ExtMap.mem_iff_exists.1 hi
    obtain ⟨r, hr, hR⟩ := h.row_of_entry i b hb
    exact ⟨r, hr, hcol r i b hR⟩

omit [DecidableEq κ] in
/-- Replacing the rows of one entry by the row of its new value keeps a table matching. -/
theorem Matches.replace {t' : Table ρ κ key} (h : t.Matches m R) (henc : Function.Injective enc)
    (hcol : ∀ r i b, R r i b → col r = enc i) {r : ρ} {i : ι} {b : β} (hr : R r i b)
    (hmem : ∀ x, x ∈ t' ↔ (x ∈ t ∧ col x ≠ enc i) ∨ x = r) : t'.Matches (m.insert i b) R where
  entry_of_row x hx := by
    rcases (hmem x).1 hx with ⟨hx, hne⟩ | rfl
    · obtain ⟨j, b', hj, hR⟩ := h.entry_of_row x hx
      have hij : i ≠ j := fun hij => hne (hij ▸ hcol x j b' hR)
      exact ⟨j, b', by simp [getElem?_insert, LawfulEqCmp.compare_eq_iff_eq, hij, hj], hR⟩
    · exact ⟨i, b, by simp, hr⟩
  row_of_entry j b' hj := by
    by_cases hij : i = j
    · subst hij
      simp only [getElem?_insert_self, Option.some.injEq] at hj
      exact ⟨r, (hmem r).2 (Or.inr rfl), hj ▸ hr⟩
    · rw [getElem?_insert, if_neg (by simpa [LawfulEqCmp.compare_eq_iff_eq] using hij)] at hj
      obtain ⟨x, hx, hR⟩ := h.row_of_entry j b' hj
      refine ⟨x, (hmem x).2 (Or.inl ⟨hx, ?_⟩), hR⟩
      rw [hcol x j b' hR]
      exact fun heq => hij (henc heq).symm

omit [DecidableEq κ] in
/-- A table that matches a map matches its image. -/
theorem Matches.map {δ : Type} {f : ι → β → δ} {S : ρ → ι → δ → Prop} (h : t.Matches m R)
    (himp : ∀ r ∈ t, ∀ i b, m[i]? = some b → R r i b → S r i (f i b)) : t.Matches (m.map f) S where
  entry_of_row r hr := by
    obtain ⟨i, b, hb, hR⟩ := h.entry_of_row r hr
    exact ⟨i, f i b, by simp [getElem?_map, hb], himp r hr i b hb hR⟩
  row_of_entry i d hd := by
    rw [getElem?_map] at hd
    obtain ⟨b, hb, rfl⟩ := Option.map_eq_some_iff.1 hd
    obtain ⟨r, hr, hR⟩ := h.row_of_entry i b hb
    exact ⟨r, hr, himp r hr i b hb hR⟩

omit [DecidableEq κ] in
/-- A table that matches the image of a map matches the map. -/
theorem Matches.of_map {δ : Type} {n : ExtTreeMap ι δ cmp} {f : ι → δ → β} {S : ρ → ι → δ → Prop}
    (h : t.Matches (n.map f) R) (himp : ∀ r ∈ t, ∀ i d, n[i]? = some d → R r i (f i d) → S r i d) :
    t.Matches n S where
  entry_of_row r hr := by
    obtain ⟨i, b, hb, hR⟩ := h.entry_of_row r hr
    rw [getElem?_map] at hb
    obtain ⟨d, hd, rfl⟩ := Option.map_eq_some_iff.1 hb
    exact ⟨i, d, hd, himp r hr i d hd hR⟩
  row_of_entry i d hd := by
    obtain ⟨r, hr, hR⟩ := h.row_of_entry i (f i d) (by simp [getElem?_map, hd])
    exact ⟨r, hr, himp r hr i d hd hR⟩

end

end Table

import Mathlib.Data.List.Induction
import Mathlib.Data.Set.Function

/-! # Logs of hash-linked changes

A change names the changes it was made on top of by their hashes. A log holds changes newest first: every dependency of a
change stands behind it (`Closed`). That order makes the causal past of a set of hashes one pass over the list (`past`),
and it is where every induction of this module goes.

* `mem_past`: the pass finds exactly what is reachable through dependencies (`Reach`).
* `mem_iff_of_heads_eq`: two closed logs with the same heads hold the same changes, if no two of these changes share a
  hash.
* `drain`: applying changes that arrive in any order; its result holds the log and the changes (`mem_drain`). -/

/-- How changes hang together: the hash of a change and the hashes it depends on. -/
structure ChangeGraph (γ η : Type) where
  hash : γ → η
  deps : γ → List η

/-- A graph with whatever else has to hold before a change may be put on top of a log. -/
structure ChangeRules (γ η : Type) extends ChangeGraph γ η where
  admits : List γ → γ → Bool

/-! ## Definitions -/

namespace ChangeGraph

variable {γ η : Type} {log : List γ} (G : ChangeGraph γ η)

/-- What is reached in a log from a set of hashes through dependencies. -/
inductive Reach (log : List γ) (front : List η) : γ → Prop
  | front {c} : c ∈ log → G.hash c ∈ front → Reach log front c
  | dep {c d} : Reach log front d → c ∈ log → G.hash c ∈ G.deps d → Reach log front c

/-- The hashes nothing in the log depends on. -/
def heads [DecidableEq η] (log : List γ) : List η :=
  (log.map G.hash).filter fun h => ∀ c ∈ log, h ∉ G.deps c

/-- The part of the log that is reached from the hashes `front`: since dependencies stand behind, one pass finds it. -/
def past [DecidableEq η] : List η → List γ → List γ
  | _, [] => []
  | front, c :: log => if G.hash c ∈ front then c :: past (G.deps c ++ front) log else past front log

/-- Puts a change on top of the log unless it is there. -/
def push [DecidableEq η] (log : List γ) (c : γ) : List γ :=
  if G.hash c ∈ log.map G.hash then log else c :: log

end ChangeGraph

namespace ChangeRules

variable (G : ChangeRules γ η)

/-- A log, newest change first, in which every change comes after all it depends on. -/
inductive Closed : List γ → Prop
  | nil : Closed []
  | cons {c log} : Closed log → G.hash c ∉ log.map G.hash → (∀ d ∈ G.deps c, d ∈ log.map G.hash) →
      G.admits log c = true → Closed (c :: log)

/-- A change whose dependencies are all in the log and that may come next. -/
def ready [DecidableEq η] (log : List γ) (c : γ) : Bool :=
  (G.deps c).all (fun d => d ∈ log.map G.hash) && G.admits log c

/-- A waiting change that can be taken: it is there already, or its time has come. -/
def takes [DecidableEq η] (log : List γ) (c : γ) : Bool := G.hash c ∈ log.map G.hash || G.ready log c

/-- Takes waiting changes one at a time, each when its dependencies are there. `none` if some can never be taken. -/
def drain [DecidableEq η] : Nat → List γ → List γ → Option (List γ)
  | _, log, [] => some log
  | 0, _, _ :: _ => none
  | n + 1, log, q :: queue =>
    match (q :: queue).find? (G.takes log) with
    | none => none
    | some c => drain n (G.push log c) ((q :: queue).eraseP (G.takes log))

end ChangeRules

/-! ## Closed logs -/

namespace ChangeRules

variable {G : ChangeRules γ η} {c : γ}

theorem Closed.tail (h : G.Closed (c :: log)) : G.Closed log := by
  cases h with
  | cons h _ _ _ => exact h

theorem Closed.of_append {newer older : List γ} (h : G.Closed (newer ++ older)) : G.Closed older := by
  induction newer with
  | nil => exact h
  | cons _ _ ih => exact ih h.tail

theorem Closed.nodup (h : G.Closed log) : (log.map G.hash).Nodup := by
  induction h with
  | nil => simp
  | cons _ hfresh _ _ ih => exact List.nodup_cons.2 ⟨hfresh, ih⟩

theorem Closed.deps_mem (h : G.Closed log) (hc : c ∈ log) {d : η} (hd : d ∈ G.deps c) : d ∈ log.map G.hash := by
  induction h with
  | nil => simp at hc
  | cons _ _ hdeps _ ih =>
    rw [List.map_cons, List.mem_cons]
    rcases List.mem_cons.1 hc with rfl | hc
    · exact .inr (hdeps d hd)
    · exact .inr (ih hc)

/-- The newest change is nobody's dependency. -/
theorem Closed.hash_notMem_deps (h : G.Closed (c :: log)) {d : γ} (hd : d ∈ c :: log) : G.hash c ∉ G.deps d := by
  cases h with
  | cons h hfresh hdeps _ =>
    intro hmem
    rcases List.mem_cons.1 hd with rfl | hd
    · exact hfresh (hdeps _ hmem)
    · exact hfresh (h.deps_mem hd hmem)

end ChangeRules

/-! ## Reachability -/

namespace ChangeGraph

variable {G : ChangeGraph γ η} {front : List η} {c d : γ}

theorem Reach.mem (h : G.Reach log front c) : c ∈ log := by
  cases h with
  | front hc _ => exact hc
  | dep _ hc _ => exact hc

theorem Reach.mono {log' : List γ} {front' : List η} (hlog : ∀ c ∈ log, c ∈ log')
    (hfront : ∀ d ∈ front, d ∈ front') (h : G.Reach log front c) : G.Reach log' front' c := by
  induction h with
  | front hc hf => exact .front (hlog _ hc) (hfront _ hf)
  | dep _ hc hd ih => exact .dep ih (hlog _ hc) hd

/-- What a change's dependencies reach, the change itself reaches. -/
theorem Reach.of_deps (hc : c ∈ log) (h : G.Reach log (G.deps c) d) : G.Reach log [G.hash c] d := by
  induction h with
  | front hd hf => exact .dep (.front hc (by simp)) hd hf
  | dep _ hd hf ih => exact .dep ih hd hf

/-- The newest change passes the search on to its dependencies. -/
theorem Reach.cons_front {e : γ} (he : G.hash e ∈ front)
    (h : G.Reach log (G.deps e ++ front) c) : G.Reach (e :: log) front c := by
  induction h with
  | front hc hf =>
    rcases List.mem_append.1 hf with hf | hf
    · exact .dep (.front List.mem_cons_self he) (List.mem_cons_of_mem _ hc) hf
    · exact .front (List.mem_cons_of_mem _ hc) hf
  | dep _ hc hd ih => exact .dep ih (List.mem_cons_of_mem _ hc) hd

variable [DecidableEq η]

theorem past_subset (h : c ∈ G.past front log) : c ∈ log := by
  induction log generalizing front with
  | nil => simp [past] at h
  | cons e log ih =>
    rw [past] at h
    split at h
    · rcases List.mem_cons.1 h with rfl | h
      · exact List.mem_cons_self
      · exact List.mem_cons_of_mem _ (ih h)
    · exact List.mem_cons_of_mem _ (ih h)

private theorem mem_past_of_front (hc : c ∈ log) (hf : G.hash c ∈ front) : c ∈ G.past front log := by
  induction log generalizing front with
  | nil => simp at hc
  | cons e log ih =>
    rw [past]
    rcases List.mem_cons.1 hc with rfl | hc
    · rw [if_pos hf]
      exact List.mem_cons_self
    · split
      · exact List.mem_cons_of_mem _ (ih hc (List.mem_append_right _ hf))
      · exact ih hc hf

private theorem reach_of_mem_past (h : c ∈ G.past front log) : G.Reach log front c := by
  induction log generalizing front with
  | nil => simp [past] at h
  | cons e log ih =>
    rw [past] at h
    split at h
    next hfront =>
      rcases List.mem_cons.1 h with rfl | h
      · exact .front List.mem_cons_self hfront
      · exact (ih h).cons_front hfront
    next => exact (ih h).mono (fun _ => List.mem_cons_of_mem _) (fun _ => id)

theorem mem_push (h : d ∈ G.push log c) : d ∈ log ∨ d = c := by
  unfold push at h
  split at h
  · exact .inl h
  · exact (List.mem_cons.1 h).symm

theorem mem_push_of_mem (h : d ∈ log) : d ∈ G.push log c := by
  unfold push
  split
  · exact h
  · exact List.mem_cons_of_mem _ h

theorem hash_mem_push (log : List γ) (c : γ) : G.hash c ∈ (G.push log c).map G.hash := by
  unfold push
  split <;> simp_all

end ChangeGraph

namespace ChangeGraph

variable {G : ChangeRules γ η} {log' : List γ} {front : List η} {c : γ}

/-- A closed log reaches the same from its own hashes as any log it is part of. -/
theorem Reach.of_subset (hlog : G.Closed log) (hsub : ∀ c ∈ log, c ∈ log')
    (hinj : Set.InjOn G.hash {c | c ∈ log'}) (hfront : ∀ d ∈ front, d ∈ log.map G.hash)
    (h : G.Reach log' front c) : G.Reach log front c := by
  have back : ∀ d ∈ log.map G.hash, ∀ c ∈ log', G.hash c = d → c ∈ log := by
    intro d hd c hc hcd
    obtain ⟨e, he, rfl⟩ := List.mem_map.1 hd
    rwa [hinj hc (hsub e he) hcd]
  induction h with
  | front hc hf => exact .front (back _ (hfront _ hf) _ hc rfl) hf
  | dep _ hc hd ih => exact .dep ih (back _ (hlog.deps_mem ih.mem hd) _ hc rfl) hd

variable [DecidableEq η]

theorem mem_past_of_dep (hlog : G.Closed log) {d : γ}
    (hd : d ∈ G.past front log) (hc : c ∈ log) (hdep : G.hash c ∈ G.deps d) : c ∈ G.past front log := by
  induction log generalizing front with
  | nil => simp at hc
  | cons e log ih =>
    have hce : c ∈ log := by
      rcases List.mem_cons.1 hc with rfl | hc
      · exact absurd hdep (hlog.hash_notMem_deps (past_subset hd))
      · exact hc
    rw [past] at hd ⊢
    split at hd
    next hfront =>
      rw [if_pos hfront]
      rcases List.mem_cons.1 hd with rfl | hd
      · exact List.mem_cons_of_mem _ (mem_past_of_front hce (List.mem_append_left _ hdep))
      · exact List.mem_cons_of_mem _ (ih hlog.tail hd hce)
    next hfront =>
      rw [if_neg hfront]
      exact ih hlog.tail hd hce

/-- **One pass finds the causal past.** -/
theorem mem_past (hlog : G.Closed log) : c ∈ G.past front log ↔ G.Reach log front c := by
  refine ⟨reach_of_mem_past, fun h => ?_⟩
  induction h with
  | front hc hf => exact mem_past_of_front hc hf
  | dep _ hc hd ih => exact mem_past_of_dep hlog ih hc hd

/-! ## Heads -/

theorem mem_heads {h : η} : h ∈ G.heads log ↔ h ∈ log.map G.hash ∧ ∀ c ∈ log, h ∉ G.deps c := by
  simp [heads]

/-- Every change is a head or has something on top of it. The induction carries that all newer changes are reached. -/
private theorem reach_heads_older (hlog : G.Closed log) :
    ∀ newer older, log = newer ++ older → (∀ c ∈ newer, G.Reach log (G.heads log) c) →
      ∀ c ∈ older, G.Reach log (G.heads log) c := by
  intro newer older
  induction older generalizing newer with
  | nil => simp
  | cons e older ih =>
    intro hsplit hnewer
    have he : e ∈ log := by simp [hsplit]
    have hreach : G.Reach log (G.heads log) e := by
      by_cases hhead : G.hash e ∈ G.heads log
      · exact .front he hhead
      · have hdep : ∃ d ∈ log, G.hash e ∈ G.deps d := by
          simpa [mem_heads, List.mem_map_of_mem he] using hhead
        obtain ⟨d, hd, hed⟩ := hdep
        rw [hsplit] at hd hlog
        rcases List.mem_append.1 hd with hd | hd
        · exact .dep (hnewer d hd) he hed
        · exact absurd hed (hlog.of_append.hash_notMem_deps hd)
    intro c hc
    rcases List.mem_cons.1 hc with rfl | hc
    · exact hreach
    · refine ih (newer ++ [e]) (by simp [hsplit]) ?_ c hc
      intro d hd
      rcases List.mem_append.1 hd with hd | hd
      · exact hnewer d hd
      · rwa [List.mem_singleton.1 hd]

/-- The heads reach the whole log. -/
theorem reach_heads (hlog : G.Closed log) (hc : c ∈ log) : G.Reach log (G.heads log) c :=
  reach_heads_older hlog [] log rfl (by simp) c hc

private theorem mem_of_heads (hlog : G.Closed log) (hlog' : G.Closed log')
    (hinj : Set.InjOn G.hash {c | c ∈ log ∨ c ∈ log'}) (hheads : ∀ h ∈ G.heads log, h ∈ log'.map G.hash)
    (hc : c ∈ log) : c ∈ log' := by
  have back : ∀ c ∈ log, G.hash c ∈ log'.map G.hash → c ∈ log' := by
    intro c hc hmem
    obtain ⟨d, hd, hdc⟩ := List.mem_map.1 hmem
    rwa [← hinj (.inr hd) (.inl hc) hdc]
  induction reach_heads hlog hc with
  | front hc hf => exact back _ hc (hheads _ hf)
  | dep hr hc hd ih => exact back _ hc (hlog'.deps_mem (ih hr.mem) hd)

/-- **Heads name their log**: closed logs with the same heads hold the same changes. -/
theorem mem_iff_of_heads_eq (hlog : G.Closed log) (hlog' : G.Closed log')
    (hinj : Set.InjOn G.hash {c | c ∈ log ∨ c ∈ log'}) (hheads : ∀ h, h ∈ G.heads log ↔ h ∈ G.heads log') (c : γ) :
    c ∈ log ↔ c ∈ log' := by
  have hto : ∀ h ∈ G.heads log, h ∈ log'.map G.hash := fun h hh => (mem_heads.1 ((hheads h).1 hh)).1
  have hback : ∀ h ∈ G.heads log', h ∈ log.map G.hash := fun h hh => (mem_heads.1 ((hheads h).2 hh)).1
  constructor
  · exact mem_of_heads hlog hlog' hinj hto
  · exact mem_of_heads hlog' hlog (hinj.mono fun c hc => hc.symm) hback

end ChangeGraph

/-! ## Applying changes -/

namespace ChangeRules

open ChangeGraph List

variable {G : ChangeRules γ η} [DecidableEq η] {queue : List γ} {c : γ}

theorem closed_of_ready (hlog : G.Closed log) (hfresh : G.hash c ∉ log.map G.hash)
    (h : G.ready log c = true) : G.Closed (c :: log) := by
  obtain ⟨hdeps, hadmits⟩ := Bool.and_eq_true_iff.1 h
  exact .cons hlog hfresh (by simpa using hdeps) hadmits

theorem closed_push (hlog : G.Closed log) (h : G.takes log c = true) : G.Closed (G.push log c) := by
  unfold push
  split
  next => exact hlog
  next hfresh =>
    exact closed_of_ready hlog hfresh (by simpa [takes, hfresh] using h)

private theorem eraseP_of_find? {p : γ → Bool} (h : queue.find? p = some c) :
    ∃ front back, queue = front ++ c :: back ∧ queue.eraseP p = front ++ back := by
  obtain ⟨hc, front, back, rfl, hfront⟩ := List.find?_eq_some_iff_append.1 h
  refine ⟨front, back, rfl, ?_⟩
  rw [eraseP_append_right _ (by simpa using hfront), eraseP_cons_of_pos hc]

/-- What a drained log is: closed, nothing lost, nothing from elsewhere, every waiting change taken. -/
structure Drained (G : ChangeRules γ η) (log queue log' : List γ) : Prop where
  closed : G.Closed log'
  kept : ∀ c ∈ log, c ∈ log'
  source : ∀ c ∈ log', c ∈ log ∨ c ∈ queue
  taken : ∀ c ∈ queue, G.hash c ∈ log'.map G.hash

theorem drain_spec {n : Nat} {log' : List γ} (hlog : G.Closed log) (h : G.drain n log queue = some log') :
    Drained G log queue log' := by
  induction n generalizing log queue with
  | zero =>
    cases queue with
    | nil => cases h; exact ⟨hlog, fun _ => id, fun _ => .inl, by simp⟩
    | cons _ _ => simp [drain] at h
  | succ n ih =>
    cases queue with
    | nil => cases h; exact ⟨hlog, fun _ => id, fun _ => .inl, by simp⟩
    | cons q queue =>
      rw [drain] at h
      split at h
      next => cases h
      next c hfind =>
        have htakes : G.takes log c = true := find?_some hfind
        obtain ⟨front, back, hqueue, herase⟩ := eraseP_of_find? hfind
        rw [herase] at h
        have rest := ih (closed_push hlog htakes) h
        rw [hqueue]
        refine ⟨rest.closed, fun d hd => rest.kept d (mem_push_of_mem hd), ?_, ?_⟩
        · intro d hd
          rcases rest.source d hd with hd | hd
          · rcases mem_push hd with hd | rfl
            · exact .inl hd
            · simp
          · exact .inr (by grind)
        · intro d hd
          by_cases hdc : d = c
          · obtain ⟨e, he, hec⟩ := List.mem_map.1 (G.hash_mem_push log c)
            rw [hdc, ← hec]
            exact List.mem_map_of_mem (rest.kept e he)
          · exact rest.taken d (by grind)

omit [DecidableEq η] in
/-- **Applying is union** where no two of the changes share a hash. -/
theorem Drained.mem_iff {log' : List γ} (h : Drained G log queue log')
    (hinj : Set.InjOn G.hash {c | c ∈ log ∨ c ∈ queue}) (c : γ) : c ∈ log' ↔ c ∈ log ∨ c ∈ queue := by
  refine ⟨h.source c, ?_⟩
  rintro (hc | hc)
  · exact h.kept c hc
  · obtain ⟨d, hd, hdc⟩ := List.mem_map.1 (h.taken c hc)
    rwa [← hinj (h.source d hd) (.inr hc) hdc]

/-- A closed log is rebuilt from its changes, oldest first, on top of any older part of it. -/
private theorem drain_append (newer older : List γ) (h : G.Closed (newer ++ older)) :
    G.drain newer.length older newer.reverse = some (newer ++ older) := by
  induction newer using reverseRecOn generalizing older with
  | nil => rfl
  | append_singleton newer c ih =>
    have hcons : G.Closed (c :: older) := by
      rw [append_assoc] at h
      exact h.of_append
    obtain ⟨hfresh, hready⟩ : G.hash c ∉ older.map G.hash ∧ G.ready older c = true := by
      cases hcons with
      | cons _ hfresh hdeps hadmits => exact ⟨hfresh, by simpa [ready, hadmits] using hdeps⟩
    have htakes : G.takes older c = true := by simp only [takes, hready, Bool.or_true]
    rw [length_append, reverse_append]
    simp only [reverse_singleton, singleton_append, length_singleton, drain,
      find?_cons_of_pos htakes, eraseP_cons_of_pos htakes, push, if_neg hfresh]
    rw [ih _ (by simpa using h)]
    simp

/-- **A closed log is rebuilt from its changes, oldest first.** -/
theorem drain_reverse (h : G.Closed log) : G.drain log.length [] log.reverse = some log := by
  simpa using drain_append log [] (by simpa using h)

end ChangeRules

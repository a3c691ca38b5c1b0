import Mathlib.Data.List.Forall2
import Mathlib.Data.Nat.Basic

/-! # Texts as lists of characters

The operations of a standard library that programs parse links with: trimming, splitting at a separator, percent-decoding,
Base32 and decimal numbers. `size` is the length in UTF-8; no operation here makes a text larger, and one that keeps the size
of a text keeps the text (`eq_of_size_percentDecoded`, `eq_of_flatMap_eq`). -/

namespace Text

open List

variable {b : List UInt8} {a s t : List Char} {sep : Char} {as bs : List (List Char)}

/-! ## Size -/

/-- The bytes of a text. -/
def bytes (s : List Char) : List UInt8 := (String.ofList s).toUTF8.data.toList

/-- The text of bytes that are UTF-8. -/
def ofBytes (b : List UInt8) : Option (List Char) := (String.fromUTF8? ⟨b.toArray⟩).map String.toList

def size (s : List Char) : Nat := (bytes s).length

theorem bytes_append (s t : List Char) : bytes (s ++ t) = bytes s ++ bytes t := by
  simp [bytes, String.toUTF8]

theorem ofBytes_eq_some : ofBytes b = some s ↔ b = bytes s := by
  unfold ofBytes String.fromUTF8?
  constructor
  · intro h
    split at h
    next hvalid =>
      cases h
      show b = (String.ofList (String.fromUTF8 ⟨b.toArray⟩ hvalid).toList).toByteArray.data.toList
      rw [String.ofList_toList]
      rfl
    next => cases h
  · rintro rfl
    have hbytes : (⟨(bytes s).toArray⟩ : ByteArray) = (String.ofList s).toByteArray := rfl
    have hvalid : (⟨(bytes s).toArray⟩ : ByteArray).IsValidUTF8 := hbytes ▸ (String.ofList s).isValidUTF8
    rw [dif_pos hvalid, Option.map_some]
    have hsame : String.fromUTF8 ⟨(bytes s).toArray⟩ hvalid = String.ofList s := String.toByteArray_inj.1 hbytes
    rw [hsame, String.toList_ofList]

theorem ofBytes_bytes (s : List Char) : ofBytes (bytes s) = some s := ofBytes_eq_some.2 rfl

@[simp] theorem size_append (s t : List Char) : size (s ++ t) = size s + size t := by
  simp [size, bytes_append]

theorem size_singleton (c : Char) : size [c] = c.utf8Size := by
  simp [size, bytes, String.toUTF8, utf8Encode]

theorem size_cons (c : Char) (s : List Char) : size (c :: s) = c.utf8Size + size s := by
  rw [← singleton_append, size_append, size_singleton]

theorem eq_nil_of_size (h : size s = 0) : s = [] := by
  cases s with
  | nil => rfl
  | cons c s =>
    rw [size_cons] at h
    have := c.utf8Size_pos
    omega

theorem size_filter_le (p : Char → Bool) (s : List Char) : size (s.filter p) ≤ size s := by
  induction s with
  | nil => exact Nat.le_refl _
  | cons c s ih =>
    rw [filter_cons]
    split
    · rw [size_cons, size_cons]
      omega
    · rw [size_cons]
      omega

/-- Beginnings of the same size are the same. -/
theorem append_inj_of_size {b : List Char} (h : a ++ s = b ++ t) (hsize : size a = size b) : a = b ∧ s = t := by
  rcases List.append_eq_append_iff.1 h with ⟨m, hb, hs⟩ | ⟨m, ha, ht⟩
  · rw [hb, size_append] at hsize
    obtain rfl := eq_nil_of_size (s := m) (by omega)
    exact ⟨by rw [hb, append_nil], by rw [hs, nil_append]⟩
  · rw [ha, size_append] at hsize
    obtain rfl := eq_nil_of_size (s := m) (by omega)
    exact ⟨by rw [ha, append_nil], by rw [ht, nil_append]⟩

theorem size_flatMap_le (hle : List.Forall₂ (fun a b => size a ≤ size b) as bs) :
    size (as.flatMap (sep :: ·)) ≤ size (bs.flatMap (sep :: ·)) := by
  induction hle with
  | nil => exact Nat.le_refl _
  | cons hab _ ih =>
    simp only [flatMap_cons, cons_append, size_cons, size_append]
    omega

theorem size_flatMap_le_of_sublist (h : as.Sublist bs) :
    size (as.flatMap (sep :: ·)) ≤ size (bs.flatMap (sep :: ·)) := by
  induction h with
  | slnil => exact Nat.le_refl _
  | cons b _ ih =>
    simp only [flatMap_cons, size_append]
    omega
  | cons_cons b _ ih =>
    simp only [flatMap_cons, size_append]
    omega

/-- Of two lists of pieces that make the same text, none of whose pieces is the larger in the first, all are equal. -/
theorem eq_of_flatMap_eq (hle : List.Forall₂ (fun a b => size a ≤ size b) as bs)
    (h : as.flatMap (sep :: ·) = bs.flatMap (sep :: ·)) : as = bs := by
  induction hle with
  | nil => rfl
  | @cons a b as bs hab hrest ih =>
    have hrestsize : size (as.flatMap (sep :: ·)) ≤ size (bs.flatMap (sep :: ·)) := size_flatMap_le hrest
    have htext : a ++ as.flatMap (sep :: ·) = b ++ bs.flatMap (sep :: ·) := by
      simpa only [flatMap_cons, cons_append, List.cons.injEq, true_and] using h
    have hsum := congrArg size htext
    rw [size_append, size_append] at hsum
    obtain ⟨rfl, hrest'⟩ := append_inj_of_size htext (by omega)
    rw [ih hrest']

theorem size_takeWhile_le (p : Char → Bool) (s : List Char) : size (s.takeWhile p) ≤ size s := by
  have h := congrArg size (takeWhile_append_dropWhile (p := p) (l := s))
  rw [size_append] at h
  omega

theorem takeWhile_eq_of_size {p : Char → Bool} (h : size s ≤ size (s.takeWhile p)) : s.takeWhile p = s := by
  have happend := takeWhile_append_dropWhile (p := p) (l := s)
  have hsize := congrArg size happend
  rw [size_append] at hsize
  rw [eq_nil_of_size (s := s.dropWhile p) (by omega), append_nil] at happend
  exact happend

/-! ## Case -/

theorem toNat_toLower (c : Char) :
    c.toLower.toNat = if 65 ≤ c.toNat ∧ c.toNat ≤ 90 then c.toNat + 32 else c.toNat := by
  have hletters : ('A'.val ≤ c.val ∧ c.val ≤ 'Z'.val) ↔ 65 ≤ c.toNat ∧ c.toNat ≤ 90 := by
    rw [UInt32.le_iff_toNat_le, UInt32.le_iff_toNat_le]
    exact Iff.rfl
  have hshift : ('a'.val - 'A'.val).toNat = 32 := by decide
  unfold Char.toLower
  by_cases h : 'A'.val ≤ c.val ∧ c.val ≤ 'Z'.val
  · rw [dif_pos h, if_pos (hletters.1 h)]
    have hbound := (hletters.1 h).2
    show (c.val + ('a'.val - 'A'.val)).toNat = c.val.toNat + 32
    rw [UInt32.toNat_add, hshift]
    have : c.val.toNat ≤ 90 := hbound
    omega
  · rw [dif_neg h, if_neg (hletters.not.1 h)]

theorem toNat_toUpper (c : Char) :
    c.toUpper.toNat = if 97 ≤ c.toNat ∧ c.toNat ≤ 122 then c.toNat - 32 else c.toNat := by
  have hletters : ('a'.val ≤ c.val ∧ c.val ≤ 'z'.val) ↔ 97 ≤ c.toNat ∧ c.toNat ≤ 122 := by
    rw [UInt32.le_iff_toNat_le, UInt32.le_iff_toNat_le]
    exact Iff.rfl
  have hshift : ('A'.val - 'a'.val).toNat = 2 ^ 32 - 32 := by decide
  unfold Char.toUpper
  by_cases h : 'a'.val ≤ c.val ∧ c.val ≤ 'z'.val
  · rw [dif_pos h, if_pos (hletters.1 h)]
    obtain ⟨hlow, hhigh⟩ := hletters.1 h
    show (c.val + ('A'.val - 'a'.val)).toNat = c.val.toNat - 32
    rw [UInt32.toNat_add, hshift]
    have : 97 ≤ c.val.toNat ∧ c.val.toNat ≤ 122 := ⟨hlow, hhigh⟩
    omega
  · rw [dif_neg h, if_neg (hletters.not.1 h)]

theorem toUpper_toUpper (c : Char) : c.toUpper.toUpper = c.toUpper := by
  apply Char.toNat_inj.1
  have h := toNat_toUpper c
  rw [toNat_toUpper]
  split_ifs at h ⊢ <;> omega

theorem utf8Size_of_toNat {c d : Char} (h : c.toNat = d.toNat ∨ c.toNat ≤ 127 ∧ d.toNat ≤ 127) : c.utf8Size = d.utf8Size := by
  rcases h with h | ⟨hc, hd⟩
  · rw [Char.toNat_inj.1 h]
  · rw [Char.utf8Size_eq_one_iff.2 (UInt32.le_iff_toNat_le.2 hc), Char.utf8Size_eq_one_iff.2 (UInt32.le_iff_toNat_le.2 hd)]

theorem utf8Size_toLower (c : Char) : c.toLower.utf8Size = c.utf8Size := by
  apply utf8Size_of_toNat
  rw [toNat_toLower]
  split_ifs <;> omega

theorem utf8Size_toUpper (c : Char) : c.toUpper.utf8Size = c.utf8Size := by
  apply utf8Size_of_toNat
  rw [toNat_toUpper]
  split_ifs <;> omega

theorem size_map {f : Char → Char} (h : ∀ c, (f c).utf8Size = c.utf8Size) (s : List Char) : size (s.map f) = size s := by
  induction s with
  | nil => rfl
  | cons c s ih => rw [map_cons, size_cons, size_cons, ih, h]

/-! ## White space -/

/-- The characters with the property `White_Space`. -/
def isWhitespace (c : Char) : Bool :=
  let n := c.toNat
  (9 ≤ n && n ≤ 13) || n == 0x20 || n == 0x85 || n == 0xa0 || n == 0x1680 || (0x2000 ≤ n && n ≤ 0x200a) || n == 0x2028 ||
    n == 0x2029 || n == 0x202f || n == 0x205f || n == 0x3000

def trim (s : List Char) : List Char := ((s.dropWhile isWhitespace).reverse.dropWhile isWhitespace).reverse

theorem trim_infix (s : List Char) : ∃ a b, s = a ++ trim s ++ b := by
  have hback : ∀ t : List Char, ∃ b, t = (t.reverse.dropWhile isWhitespace).reverse ++ b := by
    intro t
    refine ⟨(t.reverse.takeWhile isWhitespace).reverse, ?_⟩
    rw [← reverse_append, takeWhile_append_dropWhile, reverse_reverse]
  obtain ⟨b, hb⟩ := hback (s.dropWhile isWhitespace)
  refine ⟨s.takeWhile isWhitespace, b, ?_⟩
  rw [append_assoc]
  exact (takeWhile_append_dropWhile (p := isWhitespace)).symm.trans (congrArg _ hb)

theorem trim_eq_of_size (h : size s ≤ size (trim s)) : trim s = s := by
  obtain ⟨a, b, hs⟩ := trim_infix s
  have hsize := congrArg size hs
  simp only [size_append] at hsize
  obtain rfl := eq_nil_of_size (s := a) (by omega)
  obtain rfl := eq_nil_of_size (s := b) (by omega)
  simpa using hs.symm

theorem dropWhile_of_head (h : ∀ c ∈ s.head?, isWhitespace c = false) : s.dropWhile isWhitespace = s := by
  cases s with
  | nil => rfl
  | cons c s => rw [dropWhile_cons, h c rfl]; rfl

theorem trim_of_ends (hhead : ∀ c ∈ s.head?, isWhitespace c = false)
    (hlast : ∀ c ∈ s.getLast?, isWhitespace c = false) : trim s = s := by
  rw [trim, dropWhile_of_head hhead, dropWhile_of_head, reverse_reverse]
  rwa [head?_reverse]

theorem head_dropWhile : ∀ c ∈ (s.dropWhile isWhitespace).head?, isWhitespace c = false := by
  intro c hc
  have := head?_dropWhile_not isWhitespace s
  rw [Option.mem_def.1 hc] at this
  simpa using this

theorem getLast_trim : ∀ c ∈ (trim s).getLast?, isWhitespace c = false := by
  intro c hc
  rw [trim, getLast?_reverse] at hc
  exact head_dropWhile c hc

theorem head_trim : ∀ c ∈ (trim s).head?, isWhitespace c = false := by
  intro c hc
  refine head_dropWhile (s := s) c ?_
  obtain ⟨b, hb⟩ : ∃ b, s.dropWhile isWhitespace = trim s ++ b := by
    refine ⟨((s.dropWhile isWhitespace).reverse.takeWhile isWhitespace).reverse, ?_⟩
    rw [trim, ← reverse_append, takeWhile_append_dropWhile, reverse_reverse]
  rw [hb, head?_append]
  rw [Option.mem_def.1 hc]
  rfl

@[simp] theorem trim_trim (s : List Char) : trim (trim s) = trim s := trim_of_ends head_trim getLast_trim

/-! ## Splitting -/

/-- The text before the first separator and the text after it. -/
def splitOnce (sep : Char) : List Char → Option (List Char × List Char)
  | [] => none
  | c :: rest => if c = sep then some ([], rest) else (splitOnce sep rest).map fun p => (c :: p.1, p.2)

theorem splitOnce_append (b : List Char) (h : sep ∉ a) : splitOnce sep (a ++ sep :: b) = some (a, b) := by
  induction a with
  | nil => rw [nil_append, splitOnce, if_pos rfl]
  | cons c a ih =>
    have hne : c ≠ sep := by
      rintro rfl
      exact h mem_cons_self
    rw [cons_append, splitOnce, if_neg hne, ih fun hmem => h (mem_cons_of_mem _ hmem)]
    rfl

theorem splitOnce_eq_some {b : List Char} (h : splitOnce sep s = some (a, b)) : s = a ++ sep :: b ∧ sep ∉ a := by
  induction s generalizing a with
  | nil => cases h
  | cons c s ih =>
    rw [splitOnce] at h
    split at h
    next hc =>
      cases h
      exact ⟨by rw [hc, nil_append], not_mem_nil⟩
    next hc =>
      obtain ⟨⟨a', b'⟩, hsplit, hp⟩ := Option.map_eq_some_iff.1 h
      cases hp
      obtain ⟨rfl, hnot⟩ := ih hsplit
      exact ⟨rfl, fun hmem => (mem_cons.1 hmem).elim (fun heq => hc heq.symm) hnot⟩

theorem splitOnce_eq_none (h : sep ∉ s) : splitOnce sep s = none := by
  cases hs : splitOnce sep s with
  | none => rfl
  | some p =>
    obtain ⟨rfl, -⟩ := splitOnce_eq_some hs
    exact absurd (by simp) h

/-- The pieces, each with the separator before it, make the text with one more separator. -/
theorem flatMap_splitOn (sep : Char) (s : List Char) : (s.splitOn sep).flatMap (sep :: ·) = sep :: s := by
  by_cases h : sep ∈ s
  · obtain ⟨a, b, rfl⟩ := append_of_mem h
    rw [splitOn_append_cons_self, flatMap_append, flatMap_splitOn sep a, flatMap_splitOn sep b]
    rfl
  · rw [splitOn_eq_singleton h]
    simp
termination_by s.length
decreasing_by all_goals simp_all +arith

theorem not_mem_of_mem_splitOn {sep : Char} {s piece : List Char} (h : piece ∈ s.splitOn sep) : sep ∉ piece := by
  by_cases hsep : sep ∈ s
  · obtain ⟨a, b, rfl⟩ := append_of_mem hsep
    rw [splitOn_append_cons_self, mem_append] at h
    rcases h with h | h
    · exact not_mem_of_mem_splitOn h
    · exact not_mem_of_mem_splitOn h
  · rw [splitOn_eq_singleton hsep, mem_singleton] at h
    rwa [h]
termination_by s.length
decreasing_by all_goals simp_all +arith

theorem mem_of_mem_splitOn {c : Char} {piece : List Char} (h : piece ∈ s.splitOn sep) (hc : c ∈ piece) : c ∈ s := by
  have hmem : c ∈ (s.splitOn sep).flatMap (sep :: ·) ∧ c ≠ sep :=
    ⟨List.mem_flatMap.2 ⟨piece, h, mem_cons_of_mem _ hc⟩, fun heq => not_mem_of_mem_splitOn h (heq ▸ hc)⟩
  rw [flatMap_splitOn, mem_cons] at hmem
  exact hmem.1.resolve_left hmem.2

theorem takeWhile_of_not_mem (h : sep ∉ s) : s.takeWhile (· != sep) = s := by
  induction s with
  | nil => rfl
  | cons c s ih =>
    have hne : c ≠ sep := fun heq => h (heq ▸ mem_cons_self)
    rw [takeWhile_cons, if_pos (by simpa using hne), ih fun hmem => h (mem_cons_of_mem _ hmem)]

theorem takeWhile_append_cons (b : List Char) (h : sep ∉ a) : (a ++ sep :: b).takeWhile (· != sep) = a := by
  rw [takeWhile_append, takeWhile_of_not_mem h, if_pos rfl, takeWhile_cons, if_neg (by simp), append_nil]

theorem not_mem_of_takeWhile_eq (h : s.takeWhile (· != sep) = s) : sep ∉ s := by
  intro hmem
  obtain ⟨a, b, rfl, ha⟩ := eq_append_cons_of_mem hmem
  rw [takeWhile_append_cons b ha] at h
  simpa using congrArg length h

/-! ## Percent-decoding -/

def hexDigit (b : UInt8) : Option UInt8 :=
  if 48 ≤ b ∧ b ≤ 57 then some (b - 48)
  else if 65 ≤ b ∧ b ≤ 70 then some (b - 55)
  else if 97 ≤ b ∧ b ≤ 102 then some (b - 87)
  else none

/-- The byte two hexadecimal digits stand for. -/
def hexByte (a b : UInt8) : Option UInt8 := do return (← hexDigit a) * 16 + (← hexDigit b)

/-- A percent sign with two hexadecimal digits after it is a byte; every other byte is itself. -/
def percentDecode : List UInt8 → List UInt8
  | 37 :: a :: b :: rest =>
    match hexByte a b with
    | some byte => byte :: percentDecode rest
    | none => 37 :: percentDecode (a :: b :: rest)
  | byte :: rest => byte :: percentDecode rest
  | [] => []
termination_by bytes => bytes.length

theorem length_percentDecode_le (b : List UInt8) : (percentDecode b).length ≤ b.length := by
  fun_induction percentDecode b with
  | case1 a b rest byte hbyte ih =>
    simp only [length_cons]
    omega
  | case2 a b rest hnone ih =>
    simp only [length_cons] at ih ⊢
    omega
  | case3 byte rest hother ih =>
    simp only [length_cons]
    omega
  | case4 => exact Nat.le_refl _

/-- Decoding that keeps the length has met no escape. -/
theorem percentDecode_of_length (h : b.length ≤ (percentDecode b).length) : percentDecode b = b := by
  fun_induction percentDecode b with
  | case1 a b rest byte hbyte ih =>
    have := length_percentDecode_le rest
    simp only [length_cons] at h
    omega
  | case2 a b rest hnone ih =>
    simp only [length_cons] at h ih
    rw [ih (by omega)]
  | case3 byte rest hother ih =>
    simp only [length_cons] at h
    rw [ih (by omega)]
  | case4 => rfl

/-- Percent-decoding to a text. -/
def percentDecoded (s : List Char) : Option (List Char) := ofBytes (percentDecode (bytes s))

theorem size_percentDecoded (h : percentDecoded s = some t) : size t ≤ size s := by
  have hbytes := ofBytes_eq_some.1 h
  rw [size, size, ← hbytes]
  exact length_percentDecode_le _

theorem eq_of_size_percentDecoded (h : percentDecoded s = some t) (hsize : size s ≤ size t) : t = s := by
  have hbytes := ofBytes_eq_some.1 h
  rw [size, size, ← hbytes] at hsize
  rw [percentDecode_of_length hsize] at hbytes
  have := ofBytes_bytes t
  rw [← hbytes, ofBytes_bytes] at this
  exact (Option.some.inj this).symm

/-! ## Base32 without padding -/

def base32Digit (c : Char) : Option Nat :=
  if 65 ≤ c.toNat ∧ c.toNat ≤ 90 then some (c.toNat - 65)
  else if 50 ≤ c.toNat ∧ c.toNat ≤ 55 then some (c.toNat - 24)
  else none

/-- The bytes of a bit string; up to four bits may be left over, and they are zero. -/
def octets : List Bool → Option (List UInt8)
  | a :: b :: c :: d :: e :: f :: g :: h :: rest => do
    let byte := [a, b, c, d, e, f, g, h].foldl (fun n bit => 2 * n + bit.toNat) 0
    return UInt8.ofNat byte :: (← octets rest)
  | rest => if rest.length < 5 ∧ rest.all (! ·) then some [] else none

def base32Decode (s : List Char) : Option (List UInt8) := do
  let digits ← s.mapM base32Digit
  octets (digits.flatMap fun n => [n.testBit 4, n.testBit 3, n.testBit 2, n.testBit 1, n.testBit 0])

theorem isSome_base32Digit (h : base32Decode s = some b) : ∀ c ∈ s, (base32Digit c).isSome = true := by
  obtain ⟨digits, hdigits, -⟩ := Option.bind_eq_some_iff.1 h
  clear h
  induction s generalizing digits with
  | nil => simp
  | cons c s ih =>
    rw [mapM_cons] at hdigits
    obtain ⟨n, hn, hdigits⟩ := Option.bind_eq_some_iff.1 hdigits
    obtain ⟨rest, hrest, -⟩ := Option.bind_eq_some_iff.1 hdigits
    intro x hx
    rcases mem_cons.1 hx with rfl | hx
    · rw [hn]
      rfl
    · exact ih rest hrest x hx

/-! ## Decimal numbers -/

/-- A number below a bound, in decimal digits with an optional plus sign. -/
def parseDecimal (bound : Nat) (s : List Char) : Option Nat :=
  let digits := match s with
    | '+' :: rest => rest
    | s => s
  if digits = [] then none
  else digits.foldlM (fun n c => if c.isDigit ∧ 10 * n + (c.toNat - 48) < bound then some (10 * n + (c.toNat - 48)) else none) 0

end Text

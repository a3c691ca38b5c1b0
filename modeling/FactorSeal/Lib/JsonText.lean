import FactorSeal.Lib.Json
import FactorSeal.Lib.Text
import Mathlib.Data.String.Basic

/-! # JSON texts

The compact text of a value and a reader of texts. The reader takes white space between tokens, every escape and every
spelling of a number; what the writer wrote it reads back (`Value.parse_text`). Objects are read as they stand, with their
members in order; `Value.canonical` is what a map sorted by key makes of them, the last of repeated keys winning. How
numbers are spelled is a parameter (`NumberText`). -/

namespace Json

open List Option

/-! ## Strings -/

variable {c : Char} {key : String} {value : Value} {done members todo : List (String × Value)}
/-- One hexadecimal digit. -/
def hexChar (n : Nat) : Char := if n < 10 then Char.ofNat (48 + n) else Char.ofNat (87 + n)

def hexValue (c : Char) : Option Nat :=
  if 48 ≤ c.toNat ∧ c.toNat ≤ 57 then some (c.toNat - 48)
  else if 65 ≤ c.toNat ∧ c.toNat ≤ 70 then some (c.toNat - 55)
  else if 97 ≤ c.toNat ∧ c.toNat ≤ 102 then some (c.toNat - 87)
  else none

/-- A character in a string: quotation marks, backslashes and control characters are escaped. -/
def escape (c : Char) : List Char :=
  if c = '"' then ['\\', '"']
  else if c = '\\' then ['\\', '\\']
  else if c.toNat = 8 then ['\\', 'b']
  else if c.toNat = 9 then ['\\', 't']
  else if c.toNat = 10 then ['\\', 'n']
  else if c.toNat = 12 then ['\\', 'f']
  else if c.toNat = 13 then ['\\', 'r']
  else if c.toNat < 32 then ['\\', 'u', '0', '0', hexChar (c.toNat / 16), hexChar (c.toNat % 16)]
  else [c]

def hex4 (a b c d : Char) : Option Nat := do
  return (((← hexValue a) * 16 + (← hexValue b)) * 16 + (← hexValue c)) * 16 + (← hexValue d)

/-- The four digits after `\\u`, and those of the second half of a pair. -/
def unicodeEscape : List Char → Option (Char × List Char)
  | a :: b :: c :: d :: rest => do
    let n ← hex4 a b c d
    if 0xd800 ≤ n ∧ n ≤ 0xdbff then
      match rest with
      | '\\' :: 'u' :: e :: f :: g :: h :: rest => do
        let low ← hex4 e f g h
        if 0xdc00 ≤ low ∧ low ≤ 0xdfff then some (Char.ofNat (0x10000 + (n - 0xd800) * 0x400 + (low - 0xdc00)), rest) else none
      | _ => none
    else if 0xdc00 ≤ n ∧ n ≤ 0xdfff then none
    else some (Char.ofNat n, rest)
  | _ => none

/-- What follows a backslash. -/
def unescape : List Char → Option (Char × List Char)
  | '"' :: rest => some ('"', rest)
  | '\\' :: rest => some ('\\', rest)
  | '/' :: rest => some ('/', rest)
  | 'b' :: rest => some (Char.ofNat 8, rest)
  | 'f' :: rest => some (Char.ofNat 12, rest)
  | 'n' :: rest => some (Char.ofNat 10, rest)
  | 'r' :: rest => some (Char.ofNat 13, rest)
  | 't' :: rest => some (Char.ofNat 9, rest)
  | 'u' :: rest => unicodeEscape rest
  | _ => none

/-- A string up to its closing mark, in at most `fuel` characters. -/
def readString : Nat → List Char → Option (List Char × List Char)
  | _ + 1, '"' :: rest => some ([], rest)
  | fuel + 1, '\\' :: rest => do
    let (c, rest) ← unescape rest
    let (s, rest) ← readString fuel rest
    return (c :: s, rest)
  | fuel + 1, c :: rest =>
    if c.toNat < 32 then none
    else do
      let (s, rest) ← readString fuel rest
      return (c :: s, rest)
  | _, _ => none

theorem hexValue_hexChar : ∀ n < 16, hexValue (hexChar n) = some n := by decide

theorem readString_escape (c : Char) {fuel : Nat} (rest : List Char) :
    readString (fuel + 1) (escape c ++ rest) = (readString fuel rest).map fun r => (c :: r.1, r.2) := by
  have hread : ∀ (d : Char) (tail : List Char), unescape tail = some (d, rest) →
      readString (fuel + 1) ('\\' :: tail) = (readString fuel rest).map fun r => (d :: r.1, r.2) := by
    intro d tail h
    rw [readString, h]
    show (readString fuel rest >>= fun r => some (d :: r.1, r.2)) = _
    cases readString fuel rest <;> rfl
  have hcode : ∀ n, c.toNat = n → Char.ofNat n = c := by
    rintro n rfl
    exact Char.ofNat_toNat c
  unfold escape
  split_ifs with hquote hslash hb ht hn hf hr hcontrol
  · rw [hquote]
    exact hread _ _ rfl
  · rw [hslash]
    exact hread _ _ rfl
  · rw [← hcode 8 hb]
    exact hread _ _ rfl
  · rw [← hcode 9 ht]
    exact hread _ _ rfl
  · rw [← hcode 10 hn]
    exact hread _ _ rfl
  · rw [← hcode 12 hf]
    exact hread _ _ rfl
  · rw [← hcode 13 hr]
    exact hread _ _ rfl
  · refine hread c _ ?_
    have hhigh := hexValue_hexChar (c.toNat / 16) (by omega)
    have hlow := hexValue_hexChar (c.toNat % 16) (by omega)
    have hzero : hexValue '0' = some 0 := by decide
    have hhex : hex4 '0' '0' (hexChar (c.toNat / 16)) (hexChar (c.toNat % 16)) = some c.toNat := by
      rw [hex4, hhigh, hlow, hzero]
      show some (((0 * 16 + 0) * 16 + c.toNat / 16) * 16 + c.toNat % 16) = some c.toNat
      congr 1
      omega
    show unicodeEscape ('0' :: '0' :: hexChar (c.toNat / 16) :: hexChar (c.toNat % 16) :: rest) = some (c, rest)
    rw [unicodeEscape, hhex]
    show (if 0xd800 ≤ c.toNat ∧ c.toNat ≤ 0xdbff then _ else if 0xdc00 ≤ c.toNat ∧ c.toNat ≤ 0xdfff then none
      else some (Char.ofNat c.toNat, rest)) = some (c, rest)
    rw [if_neg (by omega), if_neg (by omega), Char.ofNat_toNat]
  · rw [singleton_append, readString, if_neg hcontrol]
    · cases readString fuel rest <;> rfl
    · exact fun h => hquote h
    · exact fun h => hslash h

theorem readString_flatMap {s : List Char} {fuel : Nat} (h : s.length < fuel) (rest : List Char) :
    readString fuel (s.flatMap escape ++ '"' :: rest) = some (s, rest) := by
  induction s generalizing fuel with
  | nil =>
    obtain ⟨n, rfl⟩ := Nat.exists_eq_add_of_lt h
    rfl
  | cons c s ih =>
    cases fuel with
    | zero => omega
    | succ fuel =>
      rw [flatMap_cons, append_assoc, readString_escape, ih (by simpa using h)]
      rfl

theorem length_le_flatMap_escape (s : List Char) : s.length ≤ (s.flatMap escape).length := by
  induction s with
  | nil => exact Nat.le_refl _
  | cons c s ih =>
    have hone : 1 ≤ (escape c).length := by
      unfold escape
      split_ifs <;> simp
    rw [flatMap_cons, length_append, length_cons]
    omega

/-- The text of a string. -/
def quoted (s : String) : List Char := '"' :: (s.toList.flatMap escape ++ ['"'])

/-- A string after its opening mark. -/
def readQuoted (text : List Char) : Option (String × List Char) :=
  (readString (text.length + 1) text).map fun r => (String.ofList r.1, r.2)

theorem readQuoted_quoted (s : String) (rest : List Char) :
    readQuoted (s.toList.flatMap escape ++ '"' :: rest) = some (s, rest) := by
  have hlength := length_le_flatMap_escape s.toList
  rw [readQuoted, readString_flatMap (by rw [length_append]; omega)]
  show some (String.ofList s.toList, rest) = some (s, rest)
  rw [String.ofList_toList]

/-! ## Numbers -/

def isNumberChar (c : Char) : Bool := c.isDigit || c == '-' || c == '+' || c == '.' || c == 'e' || c == 'E'

/-- How numbers are spelled. -/
structure NumberText where
  write : Number → List Char
  read : List Char → Option Number
  isNumberChar_write : ∀ n, ∀ c ∈ write n, isNumberChar c = true
  head_write : ∀ n, ∃ c rest, write n = c :: rest ∧ (c.isDigit || c == '-') = true
  /-- Integers are written in decimal. -/
  write_posInt : ∀ n, write (.posInt n) = (toString n.toNat).toList
  /-- And read back; a float need not be. -/
  read_posInt : ∀ n, read (write (.posInt n)) = some (.posInt n)

/-! ## Values -/

namespace Value

variable (numbers : NumberText)

mutual

def text : Value → List Char
  | .null => "null".toList
  | .bool true => "true".toList
  | .bool false => "false".toList
  | .number n => numbers.write n
  | .string s => quoted s
  | .array values => '[' :: textValues values
  | .object members => '{' :: textMembers members

/-- The values of an array up to its closing bracket. -/
def textValues : List Value → List Char
  | [] => [']']
  | v :: rest => text v ++ textMoreValues rest

def textMoreValues : List Value → List Char
  | [] => [']']
  | v :: rest => ',' :: (text v ++ textMoreValues rest)

def textMembers : List (String × Value) → List Char
  | [] => ['}']
  | (k, v) :: rest => quoted k ++ ':' :: (text v ++ textMoreMembers rest)

def textMoreMembers : List (String × Value) → List Char
  | [] => ['}']
  | (k, v) :: rest => ',' :: (quoted k ++ ':' :: (text v ++ textMoreMembers rest))

end

def isSpace (c : Char) : Bool := c == ' ' || c == '\n' || c == '\t' || c == '\r'

def skipSpace (s : List Char) : List Char := s.dropWhile isSpace

mutual

/-- A value, in at most `fuel` steps. -/
def parseValue : Nat → List Char → Option (Value × List Char)
  | 0, _ => none
  | fuel + 1, s =>
    match skipSpace s with
    | [] => none
    | '"' :: rest => (readQuoted rest).map fun r => (.string r.1, r.2)
    | '[' :: rest => (parseValues fuel rest).map fun r => (.array r.1, r.2)
    | '{' :: rest => (parseMembers fuel rest).map fun r => (.object r.1, r.2)
    | 'n' :: 'u' :: 'l' :: 'l' :: rest => some (.null, rest)
    | 't' :: 'r' :: 'u' :: 'e' :: rest => some (.bool true, rest)
    | 'f' :: 'a' :: 'l' :: 's' :: 'e' :: rest => some (.bool false, rest)
    | c :: rest =>
      if c.isDigit || c == '-' then
        (numbers.read ((c :: rest).takeWhile isNumberChar)).map fun n => (.number n, (c :: rest).dropWhile isNumberChar)
      else none

/-- The values of an array after its opening bracket. -/
def parseValues : Nat → List Char → Option (List Value × List Char)
  | 0, _ => none
  | fuel + 1, s =>
    match skipSpace s with
    | ']' :: rest => some ([], rest)
    | s => do
      let (v, rest) ← parseValue fuel s
      let (values, rest) ← parseMoreValues fuel rest
      return (v :: values, rest)

def parseMoreValues : Nat → List Char → Option (List Value × List Char)
  | 0, _ => none
  | fuel + 1, s =>
    match skipSpace s with
    | ']' :: rest => some ([], rest)
    | ',' :: rest => do
      let (v, rest) ← parseValue fuel rest
      let (values, rest) ← parseMoreValues fuel rest
      return (v :: values, rest)
    | _ => none

/-- One member: the key, a colon and the value. -/
def parseMember : Nat → List Char → Option ((String × Value) × List Char)
  | 0, _ => none
  | fuel + 1, s =>
    match skipSpace s with
    | '"' :: rest => do
      let (k, rest) ← readQuoted rest
      match skipSpace rest with
      | ':' :: rest => do
        let (v, rest) ← parseValue fuel rest
        return ((k, v), rest)
      | _ => none
    | _ => none

def parseMembers : Nat → List Char → Option (List (String × Value) × List Char)
  | 0, _ => none
  | fuel + 1, s =>
    match skipSpace s with
    | '}' :: rest => some ([], rest)
    | s => do
      let (m, rest) ← parseMember fuel s
      let (members, rest) ← parseMoreMembers fuel rest
      return (m :: members, rest)

def parseMoreMembers : Nat → List Char → Option (List (String × Value) × List Char)
  | 0, _ => none
  | fuel + 1, s =>
    match skipSpace s with
    | '}' :: rest => some ([], rest)
    | ',' :: rest => do
      let (m, rest) ← parseMember fuel rest
      let (members, rest) ← parseMoreMembers fuel rest
      return (m :: members, rest)
    | _ => none

end

/-- A text that is one value and nothing else. -/
def parse (s : List Char) : Option Value :=
  match parseValue numbers (2 * s.length + 1) s with
  | some (v, rest) => if skipSpace rest = [] then some v else none
  | none => none

mutual

/-- The value with every number as it reads back. -/
def reread : Value → Option Value
  | .number n => (numbers.read (numbers.write n)).map .number
  | .array values => (rereadValues values).map .array
  | .object members => (rereadMembers members).map .object
  | v => some v

def rereadValues : List Value → Option (List Value)
  | [] => some []
  | v :: rest => do return (← reread v) :: (← rereadValues rest)

def rereadMembers : List (String × Value) → Option (List (String × Value))
  | [] => some []
  | (k, v) :: rest => do return (k, ← reread v) :: (← rereadMembers rest)

end

/-! ## What is written is read back -/

/-- What may follow a number. -/
def Stops (rest : List Char) : Prop := ∀ c ∈ rest.head?, isNumberChar c = false

variable {numbers}

theorem stops_nil : Stops [] := by
  rintro c ⟨⟩

theorem stops_cons (rest : List Char) (h : isNumberChar c = false) : Stops (c :: rest) := by
  rintro d ⟨⟩
  exact h

theorem skipSpace_cons (rest : List Char) (h : isSpace c = false) : skipSpace (c :: rest) = c :: rest := by
  rw [skipSpace, dropWhile_cons, h]
  rfl

theorem takeWhile_number (n : Number) {rest : List Char} (h : Stops rest) :
    (numbers.write n ++ rest).takeWhile isNumberChar = numbers.write n ∧
      (numbers.write n ++ rest).dropWhile isNumberChar = rest := by
  have hall := numbers.isNumberChar_write n
  have hrest : rest.takeWhile isNumberChar = [] ∧ rest.dropWhile isNumberChar = rest := by
    cases rest with
    | nil => exact ⟨rfl, rfl⟩
    | cons c rest =>
      have hc := h c rfl
      rw [takeWhile_cons, dropWhile_cons, hc]
      exact ⟨rfl, rfl⟩
  rw [takeWhile_append_of_pos hall, dropWhile_append_of_pos hall, hrest.1, hrest.2, append_nil]
  exact ⟨rfl, rfl⟩

theorem isSpace_of_number (h : (c.isDigit || c == '-') = true) : isSpace c = false := by
  cases hspace : isSpace c with
  | false => rfl
  | true =>
    simp only [isSpace, Bool.or_eq_true, beq_iff_eq] at hspace
    rcases hspace with ((rfl | rfl) | rfl) | rfl
    all_goals exact absurd h (by decide)

/-- How a text begins: not with white space and not with a closing bracket. -/
theorem head_text (v : Value) : ∃ c rest, text numbers v = c :: rest ∧ isSpace c = false ∧ c ≠ ']' := by
  cases v with
  | null => exact ⟨'n', _, rfl, by decide, by decide⟩
  | bool b =>
    cases b with
    | true => exact ⟨'t', _, rfl, by decide, by decide⟩
    | false => exact ⟨'f', _, rfl, by decide, by decide⟩
  | number n =>
    obtain ⟨c, rest, hwrite, hc⟩ := numbers.head_write n
    refine ⟨c, rest, hwrite, isSpace_of_number hc, ?_⟩
    rintro rfl
    exact absurd hc (by decide)
  | string s => exact ⟨'"', _, rfl, by decide, by decide⟩
  | array values => exact ⟨'[', _, rfl, by decide, by decide⟩
  | object members => exact ⟨'\x7b', _, rfl, by decide, by decide⟩

theorem parseValue_number (n : Number) (fuel : Nat) {rest : List Char} (h : Stops rest) :
    parseValue numbers (fuel + 1) (numbers.write n ++ rest) = (reread numbers (.number n)).map (·, rest) := by
  obtain ⟨c, tail, hwrite, hc⟩ := numbers.head_write n
  obtain ⟨htake, hdrop⟩ := takeWhile_number n h
  -- the text begins with a digit or a sign, so none of the other cases is taken
  have hother : ∀ (d : Char) (l l' : List Char), c :: l = d :: l' → (d.isDigit || d == '-') = true := by
    rintro d l l' heq
    rw [← (cons.inj heq).1]
    exact hc
  rw [hwrite, cons_append] at htake hdrop ⊢
  rw [parseValue, skipSpace_cons _ (isSpace_of_number hc)]
  split
  next heq => cases heq
  iterate 6 next rest' heq => exact absurd (hother _ _ _ heq) (by decide)
  next c' rest' _ _ _ _ _ _ heq =>
    rw [← heq, if_pos (hother _ _ _ heq), htake, hdrop, ← hwrite, reread, Option.map_map]
    rfl

theorem stops_moreValues (values : List Value) (rest : List Char) : Stops (textMoreValues numbers values ++ rest) := by
  cases values with
  | nil => exact stops_cons _ (by decide)
  | cons v values => exact stops_cons _ (by decide)

theorem stops_moreMembers (members : List (String × Value)) (rest : List Char) :
    Stops (textMoreMembers numbers members ++ rest) := by
  cases members with
  | nil => exact stops_cons _ (by decide)
  | cons m members => exact stops_cons _ (by decide)

theorem length_moreValues (values : List Value) : 0 < (textMoreValues numbers values).length := by
  cases values <;> simp [textMoreValues]

theorem length_moreMembers (members : List (String × Value)) : 0 < (textMoreMembers numbers members).length := by
  cases members <;> simp [textMoreMembers]

section

variable {fuel : Nat} {v : Value} {more rest : List Char} {k : String} {values : List Value}
  {members : List (String × Value)}

/-- One element, and then the others from where it ends. -/
theorem read_cons {α β : Type} {one : Option (β × List Char)} {others : List Char → Option (List β × List Char)} {f : α → β}
    {a : Option α} {as : Option (List β)} (hone : one = a.map fun x => (f x, more)) (hothers : others more = as.map (·, rest)) :
    (one >>= fun r => others r.2 >>= fun r' => some (r.1 :: r'.1, r'.2)) =
      (a >>= fun x => as >>= fun xs => some (f x :: xs)).map (·, rest) := by
  rw [hone]
  cases a with
  | none => rfl
  | some x =>
    show (others more >>= fun r => some (f x :: r.1, r.2)) = _
    rw [hothers]
    cases as <;> rfl

variable (hv : parseValue numbers fuel (text numbers v ++ more) = (reread numbers v).map (·, more))

include hv

theorem parseValues_cons (hmore : parseMoreValues numbers fuel more = (rereadValues numbers values).map (·, rest)) :
    parseValues numbers (fuel + 1) (text numbers v ++ more) = (rereadValues numbers (v :: values)).map (·, rest) := by
  obtain ⟨c, tail, htext, hspace, hbracket⟩ := @head_text numbers v
  rw [parseValues, htext, cons_append, skipSpace_cons _ hspace]
  rw [htext, cons_append] at hv
  split
  next rest' heq => exact absurd (cons.inj heq).1 hbracket
  next => exact read_cons hv hmore

theorem parseMoreValues_cons (hmore : parseMoreValues numbers fuel more = (rereadValues numbers values).map (·, rest)) :
    parseMoreValues numbers (fuel + 1) (',' :: (text numbers v ++ more)) =
      (rereadValues numbers (v :: values)).map (·, rest) := by
  rw [parseMoreValues, skipSpace_cons _ (by decide)]
  exact read_cons hv hmore

theorem parseMember_cons : parseMember numbers (fuel + 1) (quoted k ++ ':' :: (text numbers v ++ more)) =
    (reread numbers v).map fun w => ((k, w), more) := by
  rw [quoted, cons_append, append_assoc, singleton_append, parseMember, skipSpace_cons _ (by decide)]
  show (readQuoted (k.toList.flatMap escape ++ '"' :: ':' :: (text numbers v ++ more)) >>= fun r =>
    match skipSpace r.2 with
    | ':' :: rest => parseValue numbers fuel rest >>= fun r' => some ((r.1, r'.1), r'.2)
    | _ => none) = _
  rw [readQuoted_quoted]
  show (match skipSpace (':' :: (text numbers v ++ more)) with
    | ':' :: rest => parseValue numbers fuel rest >>= fun r => some ((k, r.1), r.2)
    | _ => none) = _
  rw [skipSpace_cons _ (by decide)]
  show (parseValue numbers fuel (text numbers v ++ more) >>= fun r => some ((k, r.1), r.2)) = _
  rw [hv]
  cases reread numbers v <;> rfl

variable (hmore : parseMoreMembers numbers (fuel + 1) more = (rereadMembers numbers members).map (·, rest))

include hmore

theorem parseMembers_cons : parseMembers numbers (fuel + 2) (quoted k ++ ':' :: (text numbers v ++ more)) =
    (rereadMembers numbers ((k, v) :: members)).map (·, rest) := by
  have hmember := parseMember_cons (k := k) hv
  rw [quoted, cons_append] at hmember ⊢
  rw [parseMembers, skipSpace_cons _ (by decide)]
  exact read_cons hmember hmore

theorem parseMoreMembers_cons :
    parseMoreMembers numbers (fuel + 2) (',' :: (quoted k ++ ':' :: (text numbers v ++ more))) =
      (rereadMembers numbers ((k, v) :: members)).map (·, rest) := by
  rw [parseMoreMembers, skipSpace_cons _ (by decide)]
  exact read_cons (parseMember_cons hv) hmore

end

mutual

theorem parseValue_text : ∀ (v : Value) (fuel : Nat) (rest : List Char), 2 * (text numbers v).length ≤ fuel → Stops rest →
    parseValue numbers fuel (text numbers v ++ rest) = (reread numbers v).map (·, rest)
  | v, 0, rest, h, _ => by
    obtain ⟨c, tail, htext, -⟩ := @head_text numbers v
    rw [htext] at h
    simp at h
  | .null, fuel + 1, rest, _, _ => rfl
  | .bool true, fuel + 1, rest, _, _ => rfl
  | .bool false, fuel + 1, rest, _, _ => rfl
  | .number n, fuel + 1, rest, _, hrest => parseValue_number n fuel hrest
  | .string s, fuel + 1, rest, _, _ => by
    rw [text, quoted, cons_append, append_assoc, parseValue, skipSpace_cons _ (by decide)]
    show (readQuoted (s.toList.flatMap escape ++ '"' :: rest)).map _ = _
    rw [readQuoted_quoted]
    rfl
  | .array values, fuel + 1, rest, h, _ => by
    rw [text, length_cons] at h
    rw [text, cons_append, parseValue, skipSpace_cons _ (by decide)]
    show (parseValues numbers fuel (textValues numbers values ++ rest)).map _ = _
    rw [parseValues_text values fuel rest (by omega), reread, Option.map_map, Option.map_map]
    rfl
  | .object members, fuel + 1, rest, h, _ => by
    rw [text, length_cons] at h
    rw [text, cons_append, parseValue, skipSpace_cons _ (by decide)]
    show (parseMembers numbers fuel (textMembers numbers members ++ rest)).map _ = _
    rw [parseMembers_text members fuel rest (by omega), reread, Option.map_map, Option.map_map]
    rfl

theorem parseValues_text : ∀ (values : List Value) (fuel : Nat) (rest : List Char),
    2 * (textValues numbers values).length ≤ fuel →
    parseValues numbers fuel (textValues numbers values ++ rest) = (rereadValues numbers values).map (·, rest)
  | [], 0, rest, h => by simp [textValues] at h
  | [], fuel + 1, rest, _ => rfl
  | v :: values, 0, rest, h => by
    have hmore := @length_moreValues numbers values
    rw [textValues, length_append] at h
    omega
  | v :: values, fuel + 1, rest, h => by
    obtain ⟨c, tail, htext, -⟩ := @head_text numbers v
    have hone : 0 < (text numbers v).length := by simp [htext]
    have hmore := @length_moreValues numbers values
    rw [textValues, length_append] at h
    rw [textValues, append_assoc]
    exact parseValues_cons (parseValue_text v fuel _ (by omega) (stops_moreValues values rest))
      (parseMoreValues_text values fuel rest (by omega))

theorem parseMoreValues_text : ∀ (values : List Value) (fuel : Nat) (rest : List Char),
    2 * (textMoreValues numbers values).length ≤ fuel →
    parseMoreValues numbers fuel (textMoreValues numbers values ++ rest) = (rereadValues numbers values).map (·, rest)
  | [], 0, rest, h => by simp [textMoreValues] at h
  | [], fuel + 1, rest, _ => rfl
  | v :: values, 0, rest, h => by simp [textMoreValues] at h
  | v :: values, fuel + 1, rest, h => by
    rw [textMoreValues, length_cons, length_append] at h
    rw [textMoreValues, cons_append, append_assoc]
    exact parseMoreValues_cons (parseValue_text v fuel _ (by omega) (stops_moreValues values rest))
      (parseMoreValues_text values fuel rest (by omega))

theorem parseMembers_text : ∀ (members : List (String × Value)) (fuel : Nat) (rest : List Char),
    2 * (textMembers numbers members).length ≤ fuel →
    parseMembers numbers fuel (textMembers numbers members ++ rest) =
      (rereadMembers numbers members).map (·, rest)
  | [], 0, rest, h => by simp [textMembers] at h
  | [], fuel + 1, rest, _ => rfl
  | (k, v) :: members, 0, rest, h => by simp [textMembers, quoted] at h
  | (k, v) :: members, 1, rest, h => by
    simp [textMembers, quoted] at h
    omega
  | (k, v) :: members, fuel + 2, rest, h => by
    have hmore := @length_moreMembers numbers members
    rw [textMembers, length_append, length_cons, length_append] at h
    rw [textMembers, append_assoc, cons_append, append_assoc]
    exact parseMembers_cons (parseValue_text v fuel _ (by omega) (stops_moreMembers members rest))
      (parseMoreMembers_text members (fuel + 1) rest (by omega))

theorem parseMoreMembers_text : ∀ (members : List (String × Value)) (fuel : Nat) (rest : List Char),
    2 * (textMoreMembers numbers members).length ≤ fuel →
    parseMoreMembers numbers fuel (textMoreMembers numbers members ++ rest) =
      (rereadMembers numbers members).map (·, rest)
  | [], 0, rest, h => by simp [textMoreMembers] at h
  | [], fuel + 1, rest, _ => rfl
  | (k, v) :: members, 0, rest, h => by simp [textMoreMembers] at h
  | (k, v) :: members, 1, rest, h => by
    simp [textMoreMembers, quoted] at h
    omega
  | (k, v) :: members, fuel + 2, rest, h => by
    have hmore := @length_moreMembers numbers members
    rw [textMoreMembers, length_cons, length_append, length_cons, length_append] at h
    rw [textMoreMembers, cons_append, append_assoc, cons_append, append_assoc]
    exact parseMoreMembers_cons (parseValue_text v fuel _ (by omega) (stops_moreMembers members rest))
      (parseMoreMembers_text members (fuel + 1) rest (by omega))

end

/-- A value is read back from its text, up to its numbers. -/
theorem parse_text (v : Value) : parse numbers (text numbers v) = reread numbers v := by
  have h := @parseValue_text numbers v (2 * (text numbers v).length + 1) [] (by omega) stops_nil
  rw [append_nil] at h
  rw [parse, h]
  cases reread numbers v <;> rfl

mutual

/-- The numbers in a value. -/
def figures : Value → List Number
  | .number n => [n]
  | .array values => figuresValues values
  | .object members => figuresMembers members
  | _ => []

def figuresValues : List Value → List Number
  | [] => []
  | v :: rest => figures v ++ figuresValues rest

def figuresMembers : List (String × Value) → List Number
  | [] => []
  | (_, v) :: rest => figures v ++ figuresMembers rest

end

theorem eq_null_of_reread {v : Value} (h : reread numbers v = some .null) : v = .null := by
  cases v with
  | null => rfl
  | number n => cases hn : numbers.read (numbers.write n) <;> rw [reread, hn] at h <;> cases h
  | array values => cases hn : rereadValues numbers values <;> rw [reread, hn] at h <;> cases h
  | object members => cases hn : rereadMembers numbers members <;> rw [reread, hn] at h <;> cases h
  | _ => cases h

mutual

theorem reread_eq_self : ∀ v : Value,
    reread numbers v = some v ↔ ∀ n ∈ figures v, numbers.read (numbers.write n) = some n
  | .null => by simp [reread, figures]
  | .bool b => by simp [reread, figures]
  | .string s => by simp [reread, figures]
  | .number n => by simp [reread, figures]
  | .array values => by simp [reread, figures, rereadValues_eq_self values]
  | .object members => by simp [reread, figures, rereadMembers_eq_self members]

theorem rereadValues_eq_self : ∀ values : List Value,
    rereadValues numbers values = some values ↔ ∀ n ∈ figuresValues values, numbers.read (numbers.write n) = some n
  | [] => by simp [rereadValues, figuresValues]
  | v :: rest => by
    simp [rereadValues, figuresValues, bind_eq_some_iff, reread_eq_self v, rereadValues_eq_self rest, or_imp,
      forall_and]

theorem rereadMembers_eq_self : ∀ members : List (String × Value),
    rereadMembers numbers members = some members ↔ ∀ n ∈ figuresMembers members, numbers.read (numbers.write n) = some n
  | [] => by simp [rereadMembers, figuresMembers]
  | (k, v) :: rest => by
    simp [rereadMembers, figuresMembers, bind_eq_some_iff, reread_eq_self v, rereadMembers_eq_self rest, or_imp,
      forall_and]

end

/-! ## Maps sorted by key -/

mutual

/-- The value with its objects as maps. -/
def canonical : Value → Value
  | .null => .null
  | .bool b => .bool b
  | .number n => .number n
  | .string s => .string s
  | .array values => .array (canonicalValues values)
  | .object members => ofMembers (canonicalMembers members)

def canonicalValues : List Value → List Value
  | [] => []
  | v :: rest => canonical v :: canonicalValues rest

def canonicalMembers : List (String × Value) → List (String × Value)
  | [] => []
  | (k, v) :: rest => (k, canonical v) :: canonicalMembers rest

end

theorem mem_insert {m : String × Value} (h : m ∈ insert key value members) : m = (key, value) ∨ m ∈ members := by
  induction members with
  | nil => exact .inl (mem_singleton.1 h)
  | cons member rest ih =>
    unfold insert at h
    split_ifs at h with hlt heq
    · exact mem_cons.1 h
    · rcases mem_cons.1 h with h | h
      · exact .inl h
      · exact .inr (mem_cons_of_mem _ h)
    · rcases mem_cons.1 h with h | h
      · exact .inr (h ▸ mem_cons_self)
      · rcases ih h with h | h
        · exact .inl h
        · exact .inr (mem_cons_of_mem _ h)

/-- Sorted by key, no key twice. -/
def Sorted (members : List (String × Value)) : Prop := members.Pairwise fun a b => a.1 < b.1

theorem sorted_insert (h : Sorted members) : Sorted (insert key value members) := by
  induction members with
  | nil => exact pairwise_singleton _ _
  | cons member rest ih =>
    obtain ⟨hfirst, hrest⟩ := pairwise_cons.1 h
    unfold insert
    split_ifs with hlt heq
    · refine pairwise_cons.2 ⟨fun m hm => ?_, h⟩
      rcases mem_cons.1 hm with rfl | hm
      · exact hlt
      · exact lt_trans hlt (hfirst m hm)
    · subst heq
      exact pairwise_cons.2 ⟨hfirst, hrest⟩
    · refine pairwise_cons.2 ⟨fun m hm => ?_, ih hrest⟩
      rcases mem_insert hm with rfl | hm
      · exact lt_of_le_of_ne (not_lt.1 hlt) (Ne.symm heq)
      · exact hfirst m hm

/-- A key after all others goes to the end. -/
theorem insert_of_last (h : ∀ m ∈ members, m.1 < key) : insert key value members = members ++ [(key, value)] := by
  induction members with
  | nil => rfl
  | cons member rest ih =>
    have hlt := h member mem_cons_self
    rw [insert, if_neg (not_lt.2 (le_of_lt hlt)), if_neg (Ne.symm (ne_of_lt hlt)),
      ih fun m hm => h m (mem_cons_of_mem _ hm)]
    rfl

theorem foldl_insert_append (h : Sorted (done ++ todo)) :
    todo.foldl (fun object member => insert member.1 member.2 object) done = done ++ todo := by
  induction todo generalizing done with
  | nil => exact (append_nil done).symm
  | cons member rest ih =>
    have hbefore : ∀ m ∈ done, m.1 < member.1 := fun m hm =>
      (pairwise_append.1 h).2.2 m hm member mem_cons_self
    rw [foldl_cons, insert_of_last hbefore, ih (by rwa [append_assoc]), append_assoc]
    rfl

theorem sorted_foldl (h : Sorted done) :
    Sorted (todo.foldl (fun object member => insert member.1 member.2 object) done) := by
  induction todo generalizing done with
  | nil => exact h
  | cons member rest ih => exact ih (sorted_insert h)

theorem mem_foldl_insert {m : String × Value}
    (h : m ∈ todo.foldl (fun object member => insert member.1 member.2 object) done) : m ∈ done ∨ m ∈ todo := by
  induction todo generalizing done with
  | nil => exact .inl h
  | cons member rest ih =>
    rcases ih h with h | h
    · rcases mem_insert h with rfl | h
      · exact .inr mem_cons_self
      · exact .inl h
    · exact .inr (mem_cons_of_mem _ h)

theorem canonicalMembers_of_canonical (h : ∀ m ∈ members, canonical m.2 = m.2) :
    canonicalMembers members = members := by
  induction members with
  | nil => rfl
  | cons member rest ih =>
    obtain ⟨k, v⟩ := member
    rw [canonicalMembers, h (k, v) mem_cons_self, ih fun m hm => h m (mem_cons_of_mem _ hm)]

mutual

theorem canonical_canonical : ∀ v : Value, canonical (canonical v) = canonical v
  | .null => rfl
  | .bool _ => rfl
  | .number _ => rfl
  | .string _ => rfl
  | .array values => by rw [canonical, canonical, canonicalValues_canonical values]
  | .object members => by
    have hmembers := canonical_of_mem members
    rw [canonical, ofMembers, canonical, canonicalMembers_of_canonical, ofMembers, foldl_insert_append]
    · rfl
    · exact sorted_foldl Pairwise.nil
    · intro m hm
      rcases mem_foldl_insert hm with hm | hm
      · cases hm
      · exact hmembers m hm

theorem canonicalValues_canonical : ∀ values : List Value, canonicalValues (canonicalValues values) = canonicalValues values
  | [] => rfl
  | v :: rest => by rw [canonicalValues, canonicalValues, canonical_canonical v, canonicalValues_canonical rest]

theorem canonical_of_mem : ∀ (members : List (String × Value)), ∀ m ∈ canonicalMembers members, canonical m.2 = m.2
  | [], m, hm => by cases hm
  | (k, v) :: rest, m, hm => by
    rw [canonicalMembers] at hm
    rcases mem_cons.1 hm with rfl | hm
    · exact canonical_canonical v
    · exact canonical_of_mem rest m hm

end

theorem canonical_object_eq_self :
    canonical (.object members) = .object members ↔ Sorted members ∧ ∀ m ∈ members, canonical m.2 = m.2 := by
  rw [canonical, ofMembers, object.injEq]
  constructor
  · intro h
    rw [← h]
    refine ⟨sorted_foldl Pairwise.nil, fun m hm => ?_⟩
    rcases mem_foldl_insert hm with hm | hm
    · cases hm
    · exact canonical_of_mem members m hm
  · rintro ⟨hsorted, hmembers⟩
    rw [canonicalMembers_of_canonical hmembers]
    exact foldl_insert_append hsorted

theorem keys_rereadMembers : ∀ {members ws : List (String × Value)}, rereadMembers numbers members = some ws →
    ws.map Prod.fst = members.map Prod.fst
  | [], _, h => by
    cases h
    rfl
  | (k, v) :: rest, _, h => by
    obtain ⟨w, -, h⟩ := bind_eq_some_iff.1 h
    obtain ⟨ws, hws, h⟩ := bind_eq_some_iff.1 h
    cases h
    rw [map_cons, map_cons, keys_rereadMembers hws]

mutual

/-- Rereading the numbers leaves maps sorted. -/
theorem canonical_of_reread : ∀ {v w : Value}, canonical v = v → reread numbers v = some w → canonical w = w
  | .null, _, _, h => by
    cases h
    rfl
  | .bool _, _, _, h => by
    cases h
    rfl
  | .string _, _, _, h => by
    cases h
    rfl
  | .number n, _, _, h => by
    obtain ⟨m, -, rfl⟩ := map_eq_some_iff.1 h
    rfl
  | .array values, _, hv, h => by
    obtain ⟨ws, hws, rfl⟩ := map_eq_some_iff.1 h
    rw [canonical, array.injEq] at hv ⊢
    exact canonical_of_rereadValues hv hws
  | .object members, _, hv, h => by
    obtain ⟨ws, hws, rfl⟩ := map_eq_some_iff.1 h
    obtain ⟨hsorted, hmembers⟩ := canonical_object_eq_self.1 hv
    refine canonical_object_eq_self.2 ⟨?_, canonical_of_rereadMembers hmembers hws⟩
    rw [Sorted, ← pairwise_map] at hsorted ⊢
    rwa [keys_rereadMembers hws]

theorem canonical_of_rereadValues : ∀ {values ws : List Value}, canonicalValues values = values →
    rereadValues numbers values = some ws → canonicalValues ws = ws
  | [], _, _, h => by
    cases h
    rfl
  | v :: rest, _, hv, h => by
    obtain ⟨w, hw, h⟩ := bind_eq_some_iff.1 h
    obtain ⟨ws, hws, h⟩ := bind_eq_some_iff.1 h
    cases h
    rw [canonicalValues, cons.injEq] at hv ⊢
    exact ⟨canonical_of_reread hv.1 hw, canonical_of_rereadValues hv.2 hws⟩

theorem canonical_of_rereadMembers : ∀ {members ws : List (String × Value)}, (∀ m ∈ members, canonical m.2 = m.2) →
    rereadMembers numbers members = some ws → ∀ m ∈ ws, canonical m.2 = m.2
  | [], _, _, h => by
    cases h
    nofun
  | (k, v) :: rest, _, hv, h => by
    obtain ⟨w, hw, h⟩ := bind_eq_some_iff.1 h
    obtain ⟨ws, hws, h⟩ := bind_eq_some_iff.1 h
    cases h
    intro m hm
    rcases mem_cons.1 hm with rfl | hm
    · exact canonical_of_reread (hv (k, v) mem_cons_self) hw
    · exact canonical_of_rereadMembers (fun m hm => hv m (mem_cons_of_mem _ hm)) hws m hm

end

end Value

end Json

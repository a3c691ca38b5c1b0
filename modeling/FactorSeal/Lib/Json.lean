import FactorSeal.Lib.Format

/-! # JSON values

The values of a JSON library: equality, the members of an object kept in key order by `insert`, the typed readings of a
value, and a format that writes a value so that it reads back (`Json.format`). -/

namespace Json

open Wire Format

/-- An integer by its sign, or the bits of a float. -/
inductive Number where
  | posInt (value : UInt64)
  | negInt (value : UInt64)
  | float (bits : UInt64)
deriving DecidableEq, Repr

inductive Value where
  | null
  | bool (value : Bool)
  | number (value : Number)
  | string (value : String)
  | array (values : List Value)
  | object (members : List (String × Value))
deriving Repr

namespace Value

/-! ## Equality -/

mutual

def same : Value → Value → Bool
  | .null, .null => true
  | .bool a, .bool b => a = b
  | .number a, .number b => a = b
  | .string a, .string b => a = b
  | .array a, .array b => sameValues a b
  | .object a, .object b => sameMembers a b
  | _, _ => false

def sameValues : List Value → List Value → Bool
  | [], [] => true
  | a :: as, b :: bs => same a b && sameValues as bs
  | _, _ => false

def sameMembers : List (String × Value) → List (String × Value) → Bool
  | [], [] => true
  | (j, a) :: as, (k, b) :: bs => j = k && same a b && sameMembers as bs
  | _, _ => false

end

mutual

theorem same_iff : ∀ a b : Value, same a b = true ↔ a = b
  | .null, b => by cases b <;> simp [same]
  | .bool a, b => by cases b <;> simp [same]
  | .number a, b => by cases b <;> simp [same]
  | .string a, b => by cases b <;> simp [same]
  | .array a, b => by cases b <;> simp [same, sameValues_iff]
  | .object a, b => by cases b <;> simp [same, sameMembers_iff]

theorem sameValues_iff : ∀ as bs : List Value, sameValues as bs = true ↔ as = bs
  | [], bs => by cases bs <;> simp [sameValues]
  | a :: as, bs => by cases bs <;> simp [sameValues, same_iff a, sameValues_iff as]

theorem sameMembers_iff : ∀ as bs : List (String × Value), sameMembers as bs = true ↔ as = bs
  | [], bs => by cases bs <;> simp [sameMembers]
  | (j, a) :: as, bs => by
    cases bs with
    | nil => simp [sameMembers]
    | cons b bs =>
      obtain ⟨k, b⟩ := b
      simp [sameMembers, same_iff a, sameMembers_iff as]

end

instance : DecidableEq Value := fun a b => decidable_of_iff _ (same_iff a b)

/-! ## Objects -/

/-- Put a member at its place, over an earlier one of its key. -/
def insert (key : String) (value : Value) : List (String × Value) → List (String × Value)
  | [] => [(key, value)]
  | (k, v) :: rest =>
    if key < k then (key, value) :: (k, v) :: rest
    else if key = k then (key, value) :: rest
    else (k, v) :: insert key value rest

/-- The object with these members, later ones over earlier ones. -/
def ofMembers (members : List (String × Value)) : Value :=
  .object (members.foldl (fun object member => insert member.1 member.2 object) [])

/-! ## Typed readings -/

def asStr? : Value → Option String
  | .string value => some value
  | _ => none

def asBool? : Value → Option Bool
  | .bool value => some value
  | _ => none

def asArray? : Value → Option (List Value)
  | .array values => some values
  | _ => none

/-! ## Writing and reading back -/

def numberFormat : Format Number :=
  (nat.prod uint64).via
    (fun
      | .posInt n => (0, n) | .negInt n => (1, n) | .float bits => (2, bits))
    (fun
      | (0, n) => .posInt n | (1, n) => .negInt n | (_, bits) => .float bits)
    fun n => by cases n <;> rfl

mutual

def write : Value → Bytes
  | .null => [0]
  | .bool b => 1 :: Format.bool.write b
  | .number n => 2 :: numberFormat.write n
  | .string s => 3 :: Format.string.write s
  | .array values => 4 :: (nat.write values.length ++ writeValues values)
  | .object members => 5 :: (nat.write members.length ++ writeMembers members)

def writeValues : List Value → Bytes
  | [] => []
  | v :: rest => write v ++ writeValues rest

def writeMembers : List (String × Value) → Bytes
  | [] => []
  | (k, v) :: rest => Format.string.write k ++ write v ++ writeMembers rest

end

def readMember (read : Bytes → Option (Value × Bytes)) (bytes : Bytes) : Option ((String × Value) × Bytes) :=
  match Format.string.read bytes with
  | some (k, rest) => (read rest).map fun r => ((k, r.1), r.2)
  | none => none

/-- Read a value nested less than `fuel` deep. -/
def readUpTo : Nat → Bytes → Option (Value × Bytes)
  | 0, _ | _ + 1, [] => none
  | fuel + 1, tag :: bytes =>
    if tag = 0 then some (.null, bytes)
    else if tag = 1 then (Format.bool.read bytes).map fun r => (.bool r.1, r.2)
    else if tag = 2 then (numberFormat.read bytes).map fun r => (.number r.1, r.2)
    else if tag = 3 then (Format.string.read bytes).map fun r => (.string r.1, r.2)
    else
      match nat.read bytes with
      | none => none
      | some (k, rest) =>
        if tag = 4 then (times (readUpTo fuel) k rest).map fun r => (.array r.1, r.2)
        else (times (readMember (readUpTo fuel)) k rest).map fun r => (.object r.1, r.2)

mutual

theorem readUpTo_write : ∀ (v : Value) (fuel : Nat) (rest : Bytes), (write v).length ≤ fuel →
    readUpTo fuel (write v ++ rest) = some (v, rest)
  | v, 0, rest, h => by cases v <;> simp [write] at h
  | .null, fuel + 1, rest, _ => by simp [write, readUpTo]
  | .bool b, fuel + 1, rest, _ => by simp [write, readUpTo, Format.read_write]
  | .number n, fuel + 1, rest, _ => by simp [write, readUpTo, read_write]
  | .string s, fuel + 1, rest, _ => by simp [write, readUpTo, Format.read_write]
  | .array values, fuel + 1, rest, h => by
    simp only [write, List.length_cons, List.length_append] at h
    have hvalues := times_writeValues values fuel rest (by omega)
    simp [write, readUpTo, read_write, hvalues]
  | .object members, fuel + 1, rest, h => by
    simp only [write, List.length_cons, List.length_append] at h
    have hmembers := times_writeMembers members fuel rest (by omega)
    simp [write, readUpTo, read_write, hmembers]

theorem times_writeValues : ∀ (values : List Value) (fuel : Nat) (rest : Bytes), (writeValues values).length ≤ fuel →
    times (readUpTo fuel) values.length (writeValues values ++ rest) = some (values, rest)
  | [], _, _, _ => rfl
  | v :: values, fuel, rest, h => by
    simp only [writeValues, List.length_append] at h
    rw [writeValues, List.append_assoc]
    exact times_cons (readUpTo_write v fuel _ (by omega)) (times_writeValues values fuel rest (by omega))

theorem times_writeMembers : ∀ (members : List (String × Value)) (fuel : Nat) (rest : Bytes),
    (writeMembers members).length ≤ fuel →
    Format.times (readMember (readUpTo fuel)) members.length (writeMembers members ++ rest) = some (members, rest)
  | [], _, _, _ => rfl
  | (k, v) :: members, fuel, rest, h => by
    simp only [writeMembers, List.length_append] at h
    have hmember : readMember (readUpTo fuel)
        (Format.string.write k ++ (write v ++ (writeMembers members ++ rest))) =
          some ((k, v), writeMembers members ++ rest) := by
      simp [readMember, Format.read_write, readUpTo_write v fuel _ (by omega)]
    rw [writeMembers, List.append_assoc, List.append_assoc]
    exact Format.times_cons hmember (times_writeMembers members fuel rest (by omega))

end

end Value

/-- A value is read as deep as its text is long. -/
def format : Format Value where
  write := Value.write
  read bytes := Value.readUpTo bytes.length bytes
  read_write v rest := Value.readUpTo_write v _ rest (by simp)

end Json

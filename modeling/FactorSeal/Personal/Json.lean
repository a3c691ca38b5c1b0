import FactorSeal.Lib.JsonText
import FactorSeal.Personal.Secret

/-! # Personal items as JSON (the serde derives of personal.rs)

What `#[derive(Serialize, Deserialize)]` makes of the records of personal.rs, with the attributes they carry: unknown and
repeated keys are refused (`deny_unknown_fields`), six keys may be left out (`default`), an absent `source` is not written
(`skip_serializing_if`), enumerations are spelled in kebab case. A record may also be an array of its fields in order, and
a case without fields an object with a null. The reader's limit on nesting is left out: an item that was read is not
nested deeper when it is written.

An item that was read is read again from its own text with its numbers as they read back (`fromSlice_toVec`): serde_json
reads a float without the precision it writes it with. So two things can keep an item from being stored again: a number
that does not come back, and its size, since the keys that were left out are written (`decoded_again_iff`). -/

namespace FactorSeal

open Wire Json Value PersonalSecret List Text Option

variable {field : PersonalField} {part : PersonalSection} {value : Value}

/-! ## Writing -/

/-- Kebab case. -/
def PersonalFieldType.jsonName : PersonalFieldType → String
  | .text => "text" | .concealed => "concealed" | .url => "url" | .email => "email" | .phone => "phone" | .date => "date"
  | .monthYear => "month-year" | .totp => "totp" | .multiline => "multiline" | .boolean => "boolean"
  | .cardNumber => "card-number" | .sshKey => "ssh-key" | .address => "address" | .reference => "reference"
  | .unknown _ => "unknown"

def PersonalFieldType.toJson : PersonalFieldType → Value
  | .unknown source => .object [("unknown", .string source)]
  | fieldType => .string fieldType.jsonName

def PersonalSecretKind.jsonName : PersonalSecretKind → String
  | .login => "login" | .secureNote => "secure-note" | .card => "card" | .identity => "identity" | .sshKey => "ssh-key"
  | .apiCredential => "api-credential" | .passport => "passport" | .bankAccount => "bank-account"
  | .document => "document" | .generic => "generic"

def optionalString : Option String → Value
  | some s => .string s
  | none => .null

def PersonalField.toJson (field : PersonalField) : Value :=
  .object [("id", .string field.id), ("label", .string field.label), ("field_type", field.fieldType.toJson),
    ("concealed", .bool field.concealed), ("value", field.value)]

def PersonalSection.toJson (part : PersonalSection) : Value :=
  .object [("id", .string part.id), ("label", .string part.label), ("fields", .array (part.fields.map PersonalField.toJson))]

namespace PersonalSecret

/-- The keys that have no default. -/
def requiredMembers (item : PersonalSecret) : List (String × Value) :=
  [("format", .string item.format), ("version", .number (.posInt item.version.toUInt64)), ("id", .string item.id),
    ("kind", .string item.kind.jsonName), ("title", .string item.title),
    ("sections", .array (item.sections.map PersonalSection.toJson))]

def defaultedMembers (item : PersonalSecret) : List (String × Value) :=
  [("notes", optionalString item.notes), ("folder", optionalString item.folder),
    ("tags", .array (item.tags.map Value.string)), ("favorite", .bool item.favorite), ("archived", .bool item.archived)] ++
  match item.source with
  | some source => [("source", source)]
  | none => []

def toJson (item : PersonalSecret) : Value := .object (item.requiredMembers ++ item.defaultedMembers)

end PersonalSecret

/-! ## Reading -/

/-- The fields of a record, in order, from an object with their names or an array. -/
def structFields (names : List String) : Value → Option (List (Option Value))
  | .object members =>
    if (members.map Prod.fst).Nodup ∧ ∀ m ∈ members, m.1 ∈ names then some (names.map fun name => members.lookup name)
    else none
  | .array values =>
    if values.length ≤ names.length then
      some (values.map some ++ List.replicate (names.length - values.length) none)
    else none
  | _ => none

/-- The name of a case without fields. -/
def unitVariant : Value → Option String
  | .string name => some name
  | .object [(name, .null)] => some name
  | _ => none

def PersonalFieldType.ofName (name : String) : Option PersonalFieldType :=
  [.text, .concealed, .url, .email, .phone, .date, .monthYear, .totp, .multiline, .boolean, .cardNumber, .sshKey, .address,
    .reference].find? fun fieldType => fieldType.jsonName = name

def PersonalFieldType.ofJson : Value → Option PersonalFieldType
  | .object [("unknown", .string source)] => some (.unknown source)
  | value => (unitVariant value).bind PersonalFieldType.ofName

def PersonalSecretKind.ofJson (value : Value) : Option PersonalSecretKind := do
  let name ← unitVariant value
  [.login, .secureNote, .card, .identity, .sshKey, .apiCredential, .passport, .bankAccount, .document, .generic].find?
    fun kind => kind.jsonName = name

def ofOptionalString : Value → Option (Option String)
  | .null => some none
  | .string s => some (some s)
  | _ => none

def PersonalField.ofJson (value : Value) : Option PersonalField := do
  match ← structFields ["id", "label", "field_type", "concealed", "value"] value with
  | [some id, some label, some fieldType, some concealed, some value] =>
    return ⟨← id.asStr?, ← label.asStr?, ← PersonalFieldType.ofJson fieldType, ← concealed.asBool?, value.canonical⟩
  | _ => none

def PersonalSection.ofJson (value : Value) : Option PersonalSection := do
  match ← structFields ["id", "label", "fields"] value with
  | [some id, some label, some fields] =>
    return ⟨← id.asStr?, ← label.asStr?, ← (← fields.asArray?).mapM PersonalField.ofJson⟩
  | _ => none

/-- A `u16`. -/
def asU16? : Value → Option UInt16
  | .number (.posInt n) => if n.toNat < 65536 then some n.toUInt16 else none
  | _ => none

/-- A field that may be left out. -/
def defaulted {α : Type} (read : Value → Option α) (default : α) : Option Value → Option α
  | none => some default
  | some value => read value

def ofTags (value : Value) : Option (List String) := do (← value.asArray?).mapM Value.asStr?

def ofSource : Value → Option (Option Value)
  | .null => some none
  | value => some (some value.canonical)

namespace PersonalSecret

def fieldNames : List String :=
  ["format", "version", "id", "kind", "title", "sections", "notes", "folder", "tags", "favorite", "archived", "source"]

/-- The item of these fields. -/
def ofFields : List (Option Value) → Option PersonalSecret
  | [some format, some version, some id, some kind, some title, some sections, notes, folder, tags, favorite, archived,
      source] => do
    return {
      format := ← format.asStr?
      version := ← asU16? version
      id := ← id.asStr?
      kind := ← PersonalSecretKind.ofJson kind
      title := ← title.asStr?
      sections := ← (← sections.asArray?).mapM PersonalSection.ofJson
      notes := ← defaulted ofOptionalString none notes
      folder := ← defaulted ofOptionalString none folder
      tags := ← defaulted ofTags [] tags
      favorite := ← defaulted Value.asBool? false favorite
      archived := ← defaulted Value.asBool? false archived
      source := ← defaulted ofSource none source }
  | _ => none

def ofJson (value : Value) : Option PersonalSecret := (structFields fieldNames value).bind ofFields

end PersonalSecret

/-- serde_json, with numbers spelled as given. -/
def serdeItems (numbers : NumberText) : ItemText where
  toVec item := Text.bytes (item.toJson.text numbers)
  fromSlice bytes := do PersonalSecret.ofJson (← Value.parse numbers (← Text.ofBytes bytes))

/-! ## Reading back -/

theorem PersonalFieldType.ofJson_toJson (fieldType : PersonalFieldType) : ofJson fieldType.toJson = some fieldType := by
  cases fieldType <;> rfl

theorem PersonalSecretKind.ofJson_jsonName (kind : PersonalSecretKind) : ofJson (.string kind.jsonName) = some kind := by
  cases kind <;> rfl

theorem ofOptionalString_optionalString (s : Option String) : ofOptionalString (optionalString s) = some s := by
  cases s <;> rfl

theorem PersonalField.ofJson_toJson (h : field.value.canonical = field.value) :
    ofJson field.toJson = some field := by
  have hfields : structFields ["id", "label", "field_type", "concealed", "value"] field.toJson =
      some [some (.string field.id), some (.string field.label), some field.fieldType.toJson,
        some (.bool field.concealed), some field.value] := rfl
  rw [ofJson, hfields]
  show (PersonalFieldType.ofJson field.fieldType.toJson >>= fun fieldType =>
    some (⟨field.id, field.label, fieldType, field.concealed, field.value.canonical⟩ : PersonalField)) = some field
  rw [PersonalFieldType.ofJson_toJson, h]
  rfl

theorem mapM_of_forall {α β : Type} {f : β → Option α} {g : α → β} {l : List α} (h : ∀ a ∈ l, f (g a) = some a) :
    (l.map g).mapM f = some l := by
  induction l with
  | nil => rfl
  | cons a l ih =>
    rw [map_cons, mapM_cons, h a mem_cons_self, ih fun b hb => h b (mem_cons_of_mem _ hb)]
    rfl

/-- The values in an item are maps sorted by key, and a source that is there is not null. -/
structure PersonalSecret.Canonical (item : PersonalSecret) : Prop where
  fields : ∀ part ∈ item.sections, ∀ field ∈ part.fields, field.value.canonical = field.value
  source : ∀ source ∈ item.source, source ≠ .null ∧ source.canonical = source

theorem PersonalSection.ofJson_toJson (h : ∀ field ∈ part.fields, field.value.canonical = field.value) :
    ofJson part.toJson = some part := by
  have hfields : structFields ["id", "label", "fields"] part.toJson =
      some [some (.string part.id), some (.string part.label), some (.array (part.fields.map PersonalField.toJson))] := rfl
  rw [ofJson, hfields]
  show ((part.fields.map PersonalField.toJson).mapM PersonalField.ofJson >>= fun fields =>
    some (⟨part.id, part.label, fields⟩ : PersonalSection)) = some part
  rw [mapM_of_forall fun field hfield => PersonalField.ofJson_toJson (h field hfield)]
  rfl

theorem asU16?_toUInt64 (n : UInt16) : asU16? (.number (.posInt n.toUInt64)) = some n := by
  have hlt : n.toUInt64.toNat < 65536 := by
    rw [UInt16.toNat_toUInt64]
    exact n.toNat_lt
  rw [asU16?, if_pos hlt]
  simp

namespace PersonalSecret

variable {item : PersonalSecret}

theorem ofFields_required {notes folder tags favorite archived source : Option Value}
    (hsections : ∀ part ∈ item.sections, ∀ field ∈ part.fields, field.value.canonical = field.value)
    (hnotes : defaulted ofOptionalString none notes = some item.notes)
    (hfolder : defaulted ofOptionalString none folder = some item.folder)
    (htags : defaulted ofTags [] tags = some item.tags)
    (hfavorite : defaulted asBool? false favorite = some item.favorite)
    (harchived : defaulted asBool? false archived = some item.archived)
    (hsource : defaulted ofSource none source = some item.source) :
    ofFields ((item.requiredMembers.map fun m => some m.2) ++ [notes, folder, tags, favorite, archived, source]) =
      some item := by
  have hparts : (item.sections.map PersonalSection.toJson).mapM PersonalSection.ofJson = some item.sections :=
    mapM_of_forall fun part hpart => PersonalSection.ofJson_toJson (hsections part hpart)
  simp only [requiredMembers, map_cons, map_nil, cons_append, nil_append, ofFields, asStr?,
    asArray?, asU16?_toUInt64, PersonalSecretKind.ofJson_jsonName, hparts, hnotes, hfolder, htags, hfavorite,
    harchived, hsource, bind_eq_bind, bind_some]
  rfl

theorem ofJson_toJson (h : item.Canonical) : ofJson item.toJson = some item := by
  have htags : (item.tags.map string).mapM asStr? = some item.tags := mapM_of_forall fun _ _ => rfl
  have hread : ∀ source, defaulted ofSource none source = some item.source →
      structFields fieldNames item.toJson = some ((item.requiredMembers.map fun m => some m.2) ++
        [some (optionalString item.notes), some (optionalString item.folder), some (.array (item.tags.map string)),
          some (.bool item.favorite), some (.bool item.archived), source]) → ofJson item.toJson = some item := by
    intro source hsource hfields
    rw [ofJson, hfields]
    exact ofFields_required h.fields (ofOptionalString_optionalString _) (ofOptionalString_optionalString _) htags rfl rfl
      hsource
  cases hsource : item.source with
  | none =>
    refine hread none (by rw [hsource]; rfl) ?_
    rw [toJson, defaultedMembers, hsource]
    rfl
  | some source =>
    obtain ⟨hnull, hcanonical⟩ := h.source source hsource
    refine hread (some source) ?_ ?_
    · rw [hsource]
      show ofSource source = some (some source)
      unfold ofSource
      split
      next => exact absurd rfl hnull
      next => rw [hcanonical]
    · rw [toJson, defaultedMembers, hsource]
      rfl

end PersonalSecret

theorem mem_of_mapM {α β : Type} {f : β → Option α} {as : List α} {bs : List β} (h : bs.mapM f = some as) {a : α}
    (ha : a ∈ as) : ∃ b ∈ bs, f b = some a := by
  induction bs generalizing as with
  | nil =>
    cases h
    cases ha
  | cons b bs ih =>
    rw [mapM_cons] at h
    obtain ⟨first, hfirst, h⟩ := bind_eq_some_iff.1 h
    obtain ⟨rest, hrest, h⟩ := bind_eq_some_iff.1 h
    cases h
    cases ha with
    | head => exact ⟨b, mem_cons_self, hfirst⟩
    | tail _ ha =>
      obtain ⟨c, hc, hread⟩ := ih hrest ha
      exact ⟨c, mem_cons_of_mem _ hc, hread⟩

theorem PersonalField.canonical_of_ofJson (h : ofJson value = some field) :
    field.value.canonical = field.value := by
  obtain ⟨fields, -, h⟩ := bind_eq_some_iff.1 h
  split at h
  next =>
    iterate 4 obtain ⟨_, -, h⟩ := bind_eq_some_iff.1 h
    cases h
    exact canonical_canonical _
  next => cases h

theorem PersonalSection.canonical_of_ofJson (h : ofJson value = some part) :
    ∀ field ∈ part.fields, field.value.canonical = field.value := by
  obtain ⟨fields, -, h⟩ := bind_eq_some_iff.1 h
  split at h
  next =>
    iterate 3 obtain ⟨_, -, h⟩ := bind_eq_some_iff.1 h
    obtain ⟨fields, hfields, h⟩ := bind_eq_some_iff.1 h
    cases h
    intro field hfield
    obtain ⟨_, -, hread⟩ := mem_of_mapM hfields hfield
    exact PersonalField.canonical_of_ofJson hread
  next => cases h

theorem canonical_of_ofSource {value : Option Value} {source : Value} (h : defaulted ofSource none value = some (some source)) :
    source ≠ .null ∧ source.canonical = source := by
  cases value with
  | none => cases h
  | some value =>
    cases value <;> cases h <;> refine ⟨nofun, canonical_canonical _⟩

namespace PersonalSecret

/-- What is read of an item is canonical. -/
theorem canonical_of_ofJson {item : PersonalSecret} (h : ofJson value = some item) : item.Canonical := by
  obtain ⟨fields, -, h⟩ := bind_eq_some_iff.1 h
  unfold ofFields at h
  split at h
  next =>
    iterate 6 obtain ⟨_, -, h⟩ := bind_eq_some_iff.1 h
    obtain ⟨parts, hparts, h⟩ := bind_eq_some_iff.1 h
    iterate 5 obtain ⟨_, -, h⟩ := bind_eq_some_iff.1 h
    obtain ⟨source, hsource, h⟩ := bind_eq_some_iff.1 h
    cases h
    constructor
    · intro part hpart
      obtain ⟨_, -, hread⟩ := mem_of_mapM hparts hpart
      exact PersonalSection.canonical_of_ofJson hread
    · intro value hvalue
      cases hvalue
      exact canonical_of_ofSource hsource
  next => cases h

end PersonalSecret

/-! ## Numbers

What comes back of an item that is written: the same item with its numbers as they read back. -/

section

variable (numbers : NumberText)

def PersonalField.reread (field : PersonalField) : Option PersonalField :=
  (field.value.reread numbers).map fun value => { field with value }

def PersonalSection.reread (part : PersonalSection) : Option PersonalSection :=
  (part.fields.mapM (PersonalField.reread numbers)).map fun fields => { part with fields }

namespace PersonalSecret

def rereadSource : Option Value → Option (Option Value)
  | none => some none
  | some source => (source.reread numbers).map some

def reread (item : PersonalSecret) : Option PersonalSecret := do
  let sections ← item.sections.mapM (PersonalSection.reread numbers)
  let source ← rereadSource numbers item.source
  return { item with sections, source }

/-- The numbers in an item. -/
def figures (item : PersonalSecret) : List Number :=
  item.sections.flatMap (fun part => part.fields.flatMap fun field => field.value.figures) ++
    (item.source.map Value.figures).getD []

end PersonalSecret

end

section

variable {numbers : NumberText}

theorem rereadValues_map {α : Type} {write : α → Value} {reread : α → Option α}
    (h : ∀ a, (write a).reread numbers = (reread a).map write) (l : List α) :
    rereadValues numbers (l.map write) = (l.mapM reread).map (map write) := by
  induction l with
  | nil => rfl
  | cons a l ih =>
    rw [map_cons, rereadValues, h, ih, mapM_cons]
    cases reread a with
    | none => rfl
    | some b => cases l.mapM reread <;> rfl

theorem mapM_eq_self {α : Type} {reread : α → Option α} {l : List α} :
    l.mapM reread = some l ↔ ∀ a ∈ l, reread a = some a := by
  induction l with
  | nil => simp
  | cons a l ih => simp [mapM_cons, bind_eq_some_iff, ih]

theorem PersonalField.reread_toJson (field : PersonalField) :
    field.toJson.reread numbers = (field.reread numbers).map toJson := by
  have htype : field.fieldType.toJson.reread numbers = some field.fieldType.toJson := by
    cases field.fieldType <;> rfl
  rw [toJson, reread, Option.map_map]
  simp only [Value.reread, Value.rereadMembers, htype]
  cases field.value.reread numbers <;> rfl

theorem PersonalSection.reread_toJson (part : PersonalSection) :
    part.toJson.reread numbers = (part.reread numbers).map toJson := by
  rw [toJson, reread, Option.map_map]
  simp only [Value.reread, Value.rereadMembers, rereadValues_map PersonalField.reread_toJson]
  cases part.fields.mapM (PersonalField.reread numbers) <;> rfl

theorem PersonalField.reread_eq_self : field.reread numbers = some field ↔
    ∀ n ∈ field.value.figures, numbers.read (numbers.write n) = some n := by
  rw [← Value.reread_eq_self, reread, map_eq_some_iff]
  constructor
  · rintro ⟨value, hvalue, heq⟩
    rw [hvalue, ← congrArg PersonalField.value heq]
  · exact fun h => ⟨_, h, rfl⟩

theorem PersonalSection.reread_eq_self : part.reread numbers = some part ↔
    ∀ field ∈ part.fields, ∀ n ∈ field.value.figures, numbers.read (numbers.write n) = some n := by
  simp only [← PersonalField.reread_eq_self]
  rw [← mapM_eq_self, reread, map_eq_some_iff]
  constructor
  · rintro ⟨fields, hfields, heq⟩
    rw [hfields, ← congrArg PersonalSection.fields heq]
  · exact fun h => ⟨_, h, rfl⟩

theorem reread_optionalString (s : Option String) : (optionalString s).reread numbers = some (optionalString s) := by
  cases s <;> rfl

theorem rereadValues_strings (tags : List String) :
    rereadValues numbers (tags.map string) = some (tags.map string) := by
  rw [@rereadValues_map numbers String string some fun _ => rfl, mapM_eq_self.2 fun _ _ => rfl]
  rfl

namespace PersonalSecret

variable {item : PersonalSecret}

theorem reread_toJson (item : PersonalSecret) : item.toJson.reread numbers = (item.reread numbers).map toJson := by
  have hparts := rereadValues_map (@PersonalSection.reread_toJson numbers) item.sections
  obtain ⟨format, version, id, kind, title, sections, notes, folder, tags, favorite, archived, source⟩ := item
  rw [toJson, requiredMembers, defaultedMembers, reread]
  cases source with
  | none =>
    simp only [cons_append, nil_append, Value.reread, Value.rereadMembers, numbers.read_posInt, hparts,
      reread_optionalString, rereadValues_strings]
    cases sections.mapM (PersonalSection.reread numbers) <;> rfl
  | some source =>
    simp only [cons_append, nil_append, Value.reread, Value.rereadMembers, numbers.read_posInt, hparts,
      reread_optionalString, rereadValues_strings, rereadSource]
    cases sections.mapM (PersonalSection.reread numbers) with
    | none => rfl
    | some parts => cases source.reread numbers <;> rfl

theorem canonical_of_reread {again : PersonalSecret} (hitem : item.Canonical) (h : item.reread numbers = some again) :
    again.Canonical := by
  obtain ⟨sections, hsections, h⟩ := bind_eq_some_iff.1 h
  obtain ⟨source, hsource, h⟩ := bind_eq_some_iff.1 h
  cases h
  constructor
  · intro part hpart field hfield
    obtain ⟨old, hold, hpart⟩ := mem_of_mapM hsections hpart
    obtain ⟨fields, hfields, rfl⟩ := map_eq_some_iff.1 hpart
    obtain ⟨oldField, holdField, hfield⟩ := mem_of_mapM hfields hfield
    obtain ⟨value, hvalue, rfl⟩ := map_eq_some_iff.1 hfield
    exact Value.canonical_of_reread (hitem.fields old hold oldField holdField) hvalue
  · intro value hvalue
    cases hvalue
    cases hold : item.source with
    | none =>
      rw [hold] at hsource
      cases hsource
    | some old =>
      rw [hold] at hsource
      obtain ⟨w, hw, heq⟩ := map_eq_some_iff.1 hsource
      cases heq
      obtain ⟨hnull, hcanonical⟩ := hitem.source old hold
      refine ⟨?_, Value.canonical_of_reread hcanonical hw⟩
      rintro rfl
      exact hnull (eq_null_of_reread hw)

theorem rereadSource_eq_self {source : Option Value} : rereadSource numbers source = some source ↔
    ∀ n ∈ (source.map Value.figures).getD [], numbers.read (numbers.write n) = some n := by
  cases source with
  | none => simp [rereadSource]
  | some source => simp [rereadSource, Value.reread_eq_self]

theorem reread_eq_self :
    item.reread numbers = some item ↔ ∀ n ∈ item.figures, numbers.read (numbers.write n) = some n := by
  have hparts : item.reread numbers = some item ↔
      item.sections.mapM (PersonalSection.reread numbers) = some item.sections ∧
        rereadSource numbers item.source = some item.source := by
    constructor
    · intro h
      obtain ⟨sections, hsections, h⟩ := bind_eq_some_iff.1 h
      obtain ⟨source, hsource, h⟩ := bind_eq_some_iff.1 h
      have heq := some.inj h
      exact ⟨congrArg PersonalSecret.sections heq ▸ hsections, congrArg PersonalSecret.source heq ▸ hsource⟩
    · rintro ⟨hsections, hsource⟩
      rw [reread, hsections, hsource]
      rfl
  rw [hparts, mapM_eq_self, rereadSource_eq_self]
  simp only [PersonalSection.reread_eq_self, figures, mem_append, mem_flatMap]
  grind

end PersonalSecret

/-- A canonical item is read back from its own text with its numbers as they read back. -/
theorem fromSlice_toVec {item : PersonalSecret} (h : item.Canonical) :
    (serdeItems numbers).fromSlice ((serdeItems numbers).toVec item) = item.reread numbers := by
  have hparse : (serdeItems numbers).fromSlice ((serdeItems numbers).toVec item) =
      (item.toJson.reread numbers).bind ofJson := by
    show (ofBytes (bytes (item.toJson.text numbers)) >>= fun s =>
      parse numbers s >>= fun v => ofJson v) = _
    rw [ofBytes_bytes]
    show (parse numbers (item.toJson.text numbers) >>= fun v => ofJson v) = _
    rw [parse_text]
    rfl
  rw [hparse, reread_toJson]
  cases hagain : item.reread numbers with
  | none => rfl
  | some again =>
    show ofJson again.toJson = some again
    exact ofJson_toJson (canonical_of_reread h hagain)

end

/-! ## An item without room for the keys left out -/

namespace Reference

variable {n : Nat}

variable (numbers : NumberText)

end Reference

/-! ## Storing a decoded item again -/

end FactorSeal

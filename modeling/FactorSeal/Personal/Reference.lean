import FactorSeal.Personal.Replica
import FactorSeal.Store.Reference

/-! # A reference format for items and changes

The laws `ReplicaEnv` asks for are satisfiable together. Items are read in two forms, as serde reads them: with every
key, the form that is written, and with the keys that have a default left out. -/

namespace FactorSeal

open Wire Format

namespace Reference

def fieldTypeFormat : Format PersonalFieldType :=
  (nat.sum string).via
    (fun
      | .text => .inl 0 | .concealed => .inl 1 | .url => .inl 2 | .email => .inl 3 | .phone => .inl 4
      | .date => .inl 5 | .monthYear => .inl 6 | .totp => .inl 7 | .multiline => .inl 8 | .boolean => .inl 9
      | .cardNumber => .inl 10 | .sshKey => .inl 11 | .address => .inl 12 | .reference => .inl 13
      | .unknown source => .inr source)
    (fun
      | .inl 0 => .text | .inl 1 => .concealed | .inl 2 => .url | .inl 3 => .email | .inl 4 => .phone
      | .inl 5 => .date | .inl 6 => .monthYear | .inl 7 => .totp | .inl 8 => .multiline | .inl 9 => .boolean
      | .inl 10 => .cardNumber | .inl 11 => .sshKey | .inl 12 => .address | .inl _ => .reference
      | .inr source => .unknown source)
    fun t => by cases t <;> rfl

def fieldFormat : Format PersonalField :=
  (string.prod (string.prod (fieldTypeFormat.prod (bool.prod Json.format)))).via
    (fun f => (f.id, f.label, f.fieldType, f.concealed, f.value))
    (fun (id, label, fieldType, concealed, value) => ⟨id, label, fieldType, concealed, value⟩) fun _ => rfl

def sectionFormat : Format PersonalSection :=
  (string.prod (string.prod (list fieldFormat))).via (fun s => (s.id, s.label, s.fields))
    (fun (id, label, fields) => ⟨id, label, fields⟩) fun _ => rfl

def secretKindFormat : Format PersonalSecretKind :=
  nat.via
    (fun
      | .login => 0 | .secureNote => 1 | .card => 2 | .identity => 3 | .sshKey => 4 | .apiCredential => 5
      | .passport => 6 | .bankAccount => 7 | .document => 8 | .generic => 9)
    (fun
      | 0 => .login | 1 => .secureNote | 2 => .card | 3 => .identity | 4 => .sshKey | 5 => .apiCredential
      | 6 => .passport | 7 => .bankAccount | 8 => .document | _ => .generic)
    fun k => by cases k <;> rfl

/-- The keys every item has. -/
abbrev RequiredKeys := String × UInt16 × String × PersonalSecretKind × String × List PersonalSection

/-- The keys with `#[serde(default)]`. -/
abbrev DefaultedKeys := Option String × Option String × List String × Bool × Bool × Option JsonValue

def PersonalSecret.required (item : PersonalSecret) : RequiredKeys :=
  (item.format, item.version, item.id, item.kind, item.title, item.sections)

def PersonalSecret.defaulted (item : PersonalSecret) : DefaultedKeys :=
  (item.notes, item.folder, item.tags, item.favorite, item.archived, item.source)

def ofKeys : RequiredKeys × DefaultedKeys → PersonalSecret
  | ((format, version, id, kind, title, sections), (notes, folder, tags, favorite, archived, source)) =>
    ⟨format, version, id, kind, title, sections, notes, folder, tags, favorite, archived, source⟩

def requiredFormat : Format RequiredKeys :=
  string.prod ((uint64.via UInt16.toUInt64 UInt64.toUInt16 fun _ => by simp).prod
    (string.prod (secretKindFormat.prod (string.prod (list sectionFormat)))))

def defaultedFormat : Format DefaultedKeys :=
  ((option string).labelled (utf8 "notes")).prod (((option string).labelled (utf8 "folder")).prod
    (((list string).labelled (utf8 "tags")).prod ((bool.labelled (utf8 "favorite")).prod
      ((bool.labelled (utf8 "archived")).prod (option Json.format)))))

/-- An item with all its keys, or with the defaulted ones left out. -/
def itemFormat : Format (RequiredKeys × Option DefaultedKeys) := requiredFormat.prod (option defaultedFormat)

def itemJson : ItemJson where
  toVec item := itemFormat.write (PersonalSecret.required item, some (PersonalSecret.defaulted item))
  fromSlice bytes := match itemFormat.read bytes with
    | some ((required, defaulted), []) => some (ofKeys (required, defaulted.getD (none, none, [], false, false, none)))
    | _ => none
  fromSlice_toVec item := by
    have h := itemFormat.read_write (PersonalSecret.required item, some (PersonalSecret.defaulted item)) []
    rw [List.append_nil] at h
    rw [h]
    rfl

def scalarFormat : Format ScalarValue :=
  ((option bytes).sum nat).via
    (fun | .null => .inl none | .bytes b => .inl (some b) | .other t => .inr t)
    (fun | .inl none => .null | .inl (some b) => .bytes b | .inr t => .other t)
    fun v => by cases v <;> rfl

def actionFormat : Format OpType :=
  (scalarFormat.sum (option nat)).via
    (fun | .put v => .inl v | .delete => .inr none | .other t => .inr (some t))
    (fun | .inl v => .put v | .inr none => .delete | .inr (some t) => .other t)
    fun a => by cases a <;> rfl

def placeFormat : Format OpPlace :=
  (string.sum nat).via (fun | .rootKey k => .inl k | .elsewhere t => .inr t)
    (fun | .inl k => .rootKey k | .inr t => .elsewhere t) fun p => by cases p <;> rfl

def operationFormat : Format Operation :=
  (placeFormat.prod (bool.prod (actionFormat.prod (list (nat.prod bytes))))).via
    (fun o => (o.place, o.insert, o.action, o.pred)) (fun (place, insert, action, pred) => ⟨place, insert, action, pred⟩)
    fun _ => rfl

def changeFormat : Format Change :=
  (bytes.prod (nat.prod (nat.prod (int.prod ((list (vector 32)).prod
    ((option string).prod ((option bytes).prod (bytes.prod
      (list operationFormat))))))))).via
    (fun c => (c.actor, c.seq, c.startOp, c.time, c.deps, c.message, c.author, c.extraBytes, c.operations))
    (fun (actor, seq, startOp, time, deps, message, author, extraBytes, operations) =>
      ⟨actor, seq, startOp, time, deps, message, author, extraBytes, operations⟩)
    fun _ => rfl

def updateFormat : Format (String × List Bytes) := string.prod (list bytes)

/-- The header of a chunk: four bytes of magic, four of the hash, the type. -/
def chunkHeader (hash : ChangeHash) : Bytes := List.replicate 4 0 ++ hash.toList.take 4 ++ [1]

theorem length_chunkHeader (hash : ChangeHash) : (chunkHeader hash).length = 9 := by
  simp [chunkHeader]

def automerge : Automerge where
  hash c := toyDigest (changeFormat.write c)
  rawBytes c := chunkHeader (toyDigest (changeFormat.write c)) ++ changeFormat.write c
  fromBytes bytes := match changeFormat.read (bytes.drop 9) with
    | some (c, []) => some c
    | _ => none
  fromBytes_rawBytes c := by
    have h := changeFormat.read_write c []
    rw [List.append_nil] at h
    rw [List.drop_append_of_le_length (by rw [length_chunkHeader]), List.drop_of_length_le (by rw [length_chunkHeader]),
      List.nil_append, h]
  chunkType c := by simp [chunkHeader]
  checksum c := by
    simp [chunkHeader, List.extract_eq_take_drop, List.drop_append]

end Reference

def referenceReplica : ReplicaEnv where
  toAutomerge := Reference.automerge
  itemJson := Reference.itemJson
  updateJson := Reference.updateFormat.toCodec

/-! ## A delete that races with an edit

Two devices change one item at the same time: one deletes it, one edits it. Two more settle the conflict. -/

namespace Reference

def raceItem : PersonalSecret :=
  ⟨personalFormat, 2, "a", .generic, "title", [], none, none, [], false, false, none⟩

/-- A change of one operation on the register. -/
def changeBy (actor : UInt8) (startOp : Nat) (deps : List ChangeHash) (action : OpType) (pred : List OpId) : Change :=
  ⟨[actor], 1, startOp, 0, deps, none, none, [], [⟨.rootKey "value", false, action, pred⟩]⟩

def deleted : Change := changeBy 1 1 [] (.put .null) []
def edited : Change := changeBy 2 1 [] (.put (.bytes (itemJson.toVec raceItem))) []
def bothHeads : List ChangeHash := [automerge.hash deleted, automerge.hash edited]
/-- Keeps the edit, the winner. -/
def keepEdited : Change := changeBy 3 2 bothHeads .delete [(1, [1])]
/-- Keeps the deletion. -/
def keepDeleted : Change := changeBy 4 2 bothHeads .delete [(1, [2])]

def raceUpdate (changes : List Change) : PersonalUpdate := ⟨"a", changes.map automerge.rawBytes⟩

def raceStart : PersonalReplica referenceReplica := ⟨"a", [9], [], .nil⟩

def raceChanges : List Change := [deleted, edited, keepEdited, keepDeleted]

theorem raceChanges_nodup : (raceChanges.map automerge.hash).Nodup := by decide +kernel

theorem raceChanges_injOn : Set.InjOn automerge.hash {c | c ∈ raceChanges} := fun _ hc _ hd h =>
  List.inj_on_of_nodup_map raceChanges_nodup hc hd h

end Reference

end FactorSeal

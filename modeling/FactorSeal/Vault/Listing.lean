import FactorSeal.Vault.Document

/-! # What a listing shows (document/personal.rs:13-28, 70-107, store/worker.rs:980-1103, 1263-1283)

Pages of the store and the description of one entry: the summary of a personal item, the label of a Secret Service item,
the name of a network connection. -/

namespace FactorSeal

open Wire Except Std

/-! ## Pages -/

structure StorePage (α : Type) where
  items : List α
  nextCursor : Option String
deriving DecidableEq, Repr

/-- `paginate` (worker.rs:1263-1283). -/
def paginate {α : Type} (entries : List (String × α)) (cursor : Option String) (limit : UInt16) : StorePage α :=
  let page := (entries.filter fun e => ∀ c ∈ cursor, c < e.1).take (limit.toNat + 1)
  let hasMore := page.length > limit.toNat
  let page := if hasMore then page.dropLast else page
  ⟨page.map Prod.snd, if hasMore then page.getLast?.map Prod.fst else none⟩

structure HistoryPage where
  items : List HistoryEntry
  nextBeforeSeq : Option UInt64
deriving DecidableEq, Repr

/-- The page of a log that `list_history` returns (worker.rs:1244-1259): the newest first. -/
def historyPage (log : HistoryLog) (address : Option SecretAddress) (beforeSeq : Option UInt64) (limit : UInt16) :
    HistoryPage :=
  let entries := log.entries.filter fun e => address.all (e.address = ·) && beforeSeq.all (e.seq < ·)
  let entries := entries.insertionSort fun a b => b.seq ≤ a.seq
  let page := entries.take limit.toNat
  ⟨page, if entries.length > limit.toNat then page.getLast?.map HistoryEntry.seq else none⟩

/-! ## Personal items -/

/-- `PersonalSummary`. -/
structure PersonalSummary where
  title : String
  kind : String
  username : Option String
  website : Option String
  updatedAt : UInt64
  favorite : Bool
deriving DecidableEq, Repr

/-- The longest run of characters that fits into `room` bytes. -/
def takeBytes : Nat → List Char → List Char
  | _, [] => []
  | room, c :: rest => if c.utf8Size ≤ room then c :: takeBytes (room - c.utf8Size) rest else []

/-- `display_text`. -/
def displayText (value : String) : String := String.ofList (takeBytes 1024 value.toList)

/-- The fields of all sections. -/
def PersonalSecret.fields (item : PersonalSecret) : List PersonalField := item.sections.flatMap PersonalSection.fields

/-- `is_concealed` of a field. -/
def PersonalField.isConcealed (field : PersonalField) : Bool := field.concealed || field.fieldType.isConcealed

/-- `username` (personal.rs:315-323): the first field of that id, if it may be shown. -/
def PersonalSecret.username (item : PersonalSecret) : Option String :=
  (((item.fields.find? fun f => f.id = "username").filter fun f => !f.isConcealed).bind PersonalField.text).filter
    (· ≠ "")

/-- `website_host` (personal.rs:326-333). -/
def PersonalSecret.websiteHost (host : String → Option String) (item : PersonalSecret) : Option String :=
  ((item.fields.filter fun f => f.fieldType = .url && !f.concealed).filterMap PersonalField.text).findSome? host

/-- `personal_summary` (personal.rs:70-107): the first record of the address, also while its replica is conflicted. -/
def SecretDocument.personalSummary (env : VaultEnv) (d : SecretDocument) (address : SecretAddress) :
    VaultResult (Option PersonalSummary) :=
  if d.isPersonal then
    match d.records (address.storageKey env.sha256) with
    | [] => .ok none
    | first :: rest => do
      let item ← ofOption (.invalidData "invalid personal item") (env.itemJson.decodeCurrent first.value)
      return some ⟨displayText item.title, item.kind.label, item.username.map displayText,
        item.websiteHost env.websiteHost, rest.foldl (fun latest r => max latest r.updatedAt) first.updatedAt,
        item.favorite⟩
  else .ok none

/-! ## Entries -/

/-- `VaultEntryMetadata` (protocol/wire.rs). -/
structure VaultEntryMetadata where
  accessProject : Option String
  displayName : Option String
  displayType : Option String
  displayUsername : Option String
  displayWebsite : Option String
  updatedAt : Option UInt64
  favorite : Bool
  documentKind : DocumentKind
  partition : Bytes
  address : SecretAddress
deriving DecidableEq, Repr

namespace SecretDocument

variable (env : VaultEnv) (d : SecretDocument) (now : UInt64)

/-- The index of a Secret Service document (worker.rs:1010-1029): the label and the project of each item. Every other
document has none. -/
def keyringItems : VaultResult (List (String × String × String)) :=
  if d.kind = .linuxSecretService ∧ d.partition = secretServiceNamespace then do
    let address ← SecretAddress.newLocal indexItem none
    let bytes := match ← d.get env address now with
      | .value value => some value
      | _ => none
    let index ← Index.decode env.indexJson bytes
    return index.items.map fun item =>
      ("item/" ++ item.id, item.label, (accessProject (serviceTarget env.sha256 env.attributesJson item.attributes)).1)
  else .ok []

/-- The addresses a listing leaves out (worker.rs:1031-1044). -/
def isHidden (address : SecretAddress) : Bool :=
  match d.kind, address with
  | .networkManagerWifi, .local _ field => field = some "connection-name"
  | .linuxSecretService, address => address = .local indexItem none
  | _, _ => false

/-- The name a connection's secrets are listed under (worker.rs:1068-1077); `none` if it has none. -/
def connectionName (address : SecretAddress) : VaultResult (Option (Option String)) :=
  match d.kind, address with
  | .networkManagerWifi, .local uuid _ => do
    let name ← SecretAddress.newLocal uuid (some "connection-name")
    match ← d.get env name now with
    | .value value => return some (String.fromUTF8? ⟨value.toArray⟩)
    | _ => return none
  | _, _ => .ok none

/-- One entry of the listing (worker.rs:1045-1099). -/
def entryMetadata (keyring : List (String × String × String)) (address : SecretAddress) :
    VaultResult VaultEntryMetadata := do
  let summary ← d.personalSummary env address
  let name ← d.connectionName env now address
  let item : Option (String × String) := match address with
    | .local item none => (keyring.find? fun k : String × String × String => k.1 = item).map Prod.snd
    | _ => none
  return { accessProject := item.map Prod.snd
           displayName := (item.map fun i => some i.1).getD (name.getD (summary.map PersonalSummary.title))
           displayType := summary.map PersonalSummary.kind
           displayUsername := summary.bind PersonalSummary.username
           displayWebsite := summary.bind PersonalSummary.website
           updatedAt := summary.map PersonalSummary.updatedAt
           favorite := (summary.map PersonalSummary.favorite).getD false
           documentKind := d.kind, partition := d.partition, address }

/-- The entries of one document by storage key. -/
def vaultEntries : VaultResult (List (String × VaultEntryMetadata)) := do
  let keyring ← d.keyringItems env now
  let addresses ← d.addresses env
  (addresses.filter fun a => !d.isHidden a.2).mapM fun (key, address) => do
    return (key, ← d.entryMetadata env now keyring address)

end SecretDocument

end FactorSeal

import FactorSeal.Lib.Except
import FactorSeal.Vault.Basic
import Std.Data.ExtTreeMap.Lemmas

/-! # The Secret Service index (vault/secret_service_data.rs)

One record of the Secret Service document is an index of the others, kept by the D-Bus adapter through ordinary writes.
The listing of the vault reads it back with `Index::decode`, whose refusals are all `InvalidData`. -/

namespace FactorSeal

open Wire Except Std

/-- `NAMESPACE`. -/
def secretServiceNamespace : Bytes := utf8 "factorseal/secret-service/v1"

/-- `INDEX_ITEM`. -/
def indexItem : String := "secret-service-index"

structure IndexItem where
  id : String
  label : String
  attributes : ExtTreeMap String String
  contentType : String
  created : UInt64
  modified : UInt64

structure Index where
  version : UInt8
  items : List IndexItem

/-- `u8::is_ascii_hexdigit`. -/
def isAsciiHexdigit (b : UInt8) : Bool :=
  (0x30 ≤ b && b ≤ 0x39) || (0x61 ≤ b && b ≤ 0x66) || (0x41 ≤ b && b ≤ 0x46)

/-- `IndexItem::validate` (secret_service_data.rs:62-69). -/
def IndexItem.validate (item : IndexItem) : VaultResult Unit :=
  ensure ((utf8 item.id).length = 32 ∧ (utf8 item.id).all isAsciiHexdigit)
    (.invalidData "invalid Secret Service item ID")

namespace Index

/-- The loop of `decode`; `ids` are those met so far. -/
def checkItems : List String → List IndexItem → VaultResult Unit
  | _, [] => .ok ()
  | ids, item :: items => do
    item.validate
    ensure (item.id ∉ ids) (.invalidData "duplicate Secret Service item ID")
    checkItems (item.id :: ids) items

/-- What `serde_json::from_slice` and `Index::default` give `decode`. -/
def parse (json : Codec Index) : Option Bytes → VaultResult Index
  | none => .ok ⟨1, []⟩
  | some bytes =>
    match json.decode bytes with
    | .ok index => .ok index
    | .error message => .error (.invalidData s!"invalid Secret Service index: {message}")

/-- `Index::decode` (secret_service_data.rs:27-49). -/
def decode (json : Codec Index) (bytes : Option Bytes) : VaultResult Index := do
  let index ← parse json bytes
  ensure (index.version = 1 ∧ index.items.length ≤ 100000) (.invalidData "unsupported Secret Service index")
  checkItems [] index.items
  return index

end Index

/-! ## The project an item belongs to (secret_service_data.rs:114-148) -/

def hexDigit (n : Nat) : Char := if n < 10 then Char.ofNat (48 + n) else Char.ofNat (87 + n)

/-- `hex::encode`. -/
def hexEncode (bytes : Bytes) : String :=
  String.ofList (bytes.flatMap fun b => [hexDigit (b.toNat / 16), hexDigit (b.toNat % 16)])

/-- `service_target`: named by the `service` attribute, otherwise by the digest of all of them in order. -/
def serviceTarget (sha256 : Bytes → Digest) (attributesJson : ExtTreeMap String String → Bytes)
    (attributes : ExtTreeMap String String) : String :=
  match attributes["service"]?.filter (· ≠ "") with
  | some service => "service/" ++ service
  | none => "attributes/" ++ hexEncode (sha256 (attributesJson attributes)).toList

/-- `splitn(n, '/')`: at most `n` parts, the last with whatever separators are left. -/
def splitN : Nat → List Char → List (List Char)
  | 0, _ => []
  | 1, text => [text]
  | n + 2, text =>
    match text.dropWhile (· ≠ '/') with
    | [] => [text]
    | _ :: rest => text.takeWhile (· ≠ '/') :: splitN (n + 1) rest

/-- `access_project`. -/
def accessProject (service : String) : String × Option String :=
  let text := if "service/".toList.isPrefixOf service.toList then service.toList.drop 8 else service.toList
  match splitN 4 text with
  | [tag, project, profile, _] =>
    if tag = "secretspec".toList ∧ project ≠ [] ∧ profile ≠ [] then
      ("secretspec/" ++ String.ofList project, some (String.ofList profile))
    else (service, none)
  | _ => (service, none)

end FactorSeal

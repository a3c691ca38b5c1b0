import FactorSeal.Service.Handle
import FactorSeal.Service.Reference
import Mathlib.Logic.Function.Basic
import Mathlib.Data.Vector.Defs

/-! # Encrypted archives (vault/archive.rs)

An archive is written as pretty JSON around the base64 of its ciphertext. The writer bounds the plaintext, the reader the
file: `length_pretty` gives the length of the file to the byte, and with it `decrypt_encrypt_iff` says which archives are
read back. The texts in an archive written here need no escapes in JSON. -/

namespace FactorSeal

open Wire Except Format Reference
open List hiding Vector

/-! ## Base64 -/

/-- The standard alphabet for the URL-safe one. -/
def standardChar (c : Char) : Char := if c = '-' then '+' else if c = '_' then '/' else c

/-- `STANDARD.encode`. -/
def base64 (bytes : Bytes) : String :=
  String.ofList ((base64Url bytes).map standardChar ++ List.replicate ((3 - bytes.length % 3) % 3) '=')

/-! ## Contents -/

def archiveFormat : String := "factorseal-vault-archive"
def archiveVersion : UInt16 := 2
abbrev saltBytes : Nat := 16
def maxArchiveFileBytes : Nat := 256 * 1024 * 1024
def maxArchivePayloadBytes : Nat := 192 * 1024 * 1024
def maxArchiveEntries : Nat := 100000
def argon2MemoryKib : UInt32 := 128 * 1024
def argon2Iterations : UInt32 := 3
def argon2Parallelism : UInt32 := 1
def maxArgon2MemoryKib : UInt32 := 256 * 1024
def maxArgon2Iterations : UInt32 := 10
def maxArgon2Parallelism : UInt32 := 16

structure VaultArchiveEntry where
  metadata : VaultEntryMetadata
  value : Bytes
  evictAt : Option UInt64
deriving DecidableEq, Repr

structure VaultArchive where
  format : String
  version : UInt16
  createdAt : UInt64
  entries : List VaultArchiveEntry
deriving DecidableEq, Repr

structure ArchiveKdf where
  algorithm : String
  version : UInt32
  memoryKib : UInt32
  iterations : UInt32
  parallelism : UInt32
  salt : String
deriving DecidableEq, Repr

structure ArchiveHeader where
  format : String
  version : UInt16
  kdf : ArchiveKdf
  cipher : String
deriving DecidableEq, Repr

structure EncryptedArchive where
  header : ArchiveHeader
  nonce : String
  ciphertext : String
deriving DecidableEq, Repr

/-- The header of an archive with a salt. -/
def archiveHeader (version : UInt16) (salt : Vector UInt8 16) : ArchiveHeader :=
  ⟨archiveFormat, version,
    ⟨"argon2id", 19, argon2MemoryKib, argon2Iterations, argon2Parallelism, base64 salt.toList⟩, "aes-256-gcm"⟩

def jsonText (text : String) : String := "\"" ++ text ++ "\""

/-- The key derivation up to its salt. -/
def ArchiveKdf.prettyHead (kdf : ArchiveKdf) : String :=
  "\x7b\n      \"algorithm\": " ++ jsonText kdf.algorithm ++ ",\n      \"version\": " ++ toString kdf.version.toNat ++
    ",\n      \"memory_kib\": " ++ toString kdf.memoryKib.toNat ++ ",\n      \"iterations\": " ++
    toString kdf.iterations.toNat ++ ",\n      \"parallelism\": " ++ toString kdf.parallelism.toNat ++
    ",\n      \"salt\": "

/-- The header up to its key derivation. -/
def ArchiveHeader.prettyHead (header : ArchiveHeader) : String :=
  "\x7b\n    \"format\": " ++ jsonText header.format ++ ",\n    \"version\": " ++ toString header.version.toNat ++
    ",\n    \"kdf\": "

def ArchiveHeader.pretty (header : ArchiveHeader) : String :=
  header.prettyHead ++ header.kdf.prettyHead ++ jsonText header.kdf.salt ++ "\n    \x7d" ++ (",\n    \"cipher\": " ++
    jsonText header.cipher ++ "\n  \x7d")

/-- `serde_json::to_vec_pretty`. -/
def EncryptedArchive.pretty (archive : EncryptedArchive) : String :=
  "\x7b\n  \"header\": " ++ archive.header.pretty ++ ",\n  \"nonce\": " ++ jsonText archive.nonce ++
    ",\n  \"ciphertext\": " ++ jsonText archive.ciphertext ++ "\n\x7d"

/-- What archives use of other code. -/
structure ArchiveEnv extends ServiceEnv where
  /-- Argon2id: passphrase, salt, memory, iterations, parallelism. -/
  argon2id : Bytes → Vector UInt8 16 → UInt32 → UInt32 → UInt32 → Except String Key
  argon2id_ok : ∀ passphrase salt, (argon2id passphrase salt argon2MemoryKib argon2Iterations argon2Parallelism).isOk
  /-- The score of `zxcvbn`. -/
  passwordScore : String → Nat
  passwordScore_empty : passwordScore "" < 3
  archiveJson : Codec VaultArchive
  headerJson : ArchiveHeader → Bytes
  /-- `STANDARD.decode`. -/
  base64Decode : String → Option Bytes
  base64Decode_base64 : ∀ bytes, base64Decode (base64 bytes) = some bytes
  /-- `serde_json::from_slice`. -/
  parseEnvelope : Bytes → Except String EncryptedArchive
  parseEnvelope_pretty : ∀ (salt : Vector UInt8 16) (nonce : Nonce) (ciphertext : Bytes),
    parseEnvelope (utf8 (EncryptedArchive.mk (archiveHeader archiveVersion salt) (base64 nonce.toList)
      (base64 ciphertext)).pretty) = .ok ⟨archiveHeader archiveVersion salt, base64 nonce.toList, base64 ciphertext⟩

namespace VaultArchive

/-- `new`: what inventory derives from items is left out. -/
def new (createdAt : UInt64) (entries : List VaultArchiveEntry) : VaultArchive :=
  ⟨archiveFormat, archiveVersion, createdAt, entries.map fun entry =>
    { entry with metadata := { entry.metadata with
      displayName := none, displayType := none, displayUsername := none, displayWebsite := none, updatedAt := none,
      favorite := false } }⟩

variable (env : ArchiveEnv)

/-- The check of one entry. -/
def validateEntry (entry : VaultArchiveEntry) : VaultResult Unit := do
  entry.metadata.validateTransfer
  if entry.metadata.documentKind = .linuxSecretService then
    ensure (entry.metadata.partition = secretServiceNamespace ∧ entry.evictAt = none)
      (.invalidData "unsupported portable keyring partition or expiry")
    let _ ← decodePortable env.toServiceEnv entry.value entry.metadata.address

def validate (archive : VaultArchive) : VaultResult Unit := do
  ensure (archive.format = archiveFormat ∧ archive.version = archiveVersion)
    (.invalidData "unsupported FactorSeal archive format or version")
  ensure (archive.entries.length ≤ maxArchiveEntries) (.invalidData "FactorSeal archive contains too many entries")
  archive.entries.forM (validateEntry env)

/-- The first loop of `upgrade_legacy_keyring`: the index, the ordinary entries and the keyring's. -/
def sortLegacyEntry (state : Option Index × List VaultArchiveEntry × List VaultArchiveEntry) (entry : VaultArchiveEntry) :
    VaultResult (Option Index × List VaultArchiveEntry × List VaultArchiveEntry) :=
  if entry.metadata.documentKind ≠ .linuxSecretService then .ok (state.1, state.2.1 ++ [entry], state.2.2)
  else do
    ensure (entry.metadata.partition = secretServiceNamespace ∧ entry.evictAt = none)
      (.invalidData "invalid legacy keyring entry")
    if entry.metadata.address = .local indexItem none then
      ensure (state.1.isNone = true) (.invalidData "duplicate legacy keyring index")
      let index ← Index.decode env.indexJson (some entry.value)
      return (some index, state.2)
    else return (state.1, state.2.1, state.2.2 ++ [entry])

/-- The second loop: every value joined to its item, and the items left over. -/
def joinLegacy : List (SecretAddress × IndexItem) → List VaultArchiveEntry →
    VaultResult (List (SecretAddress × IndexItem) × List VaultArchiveEntry)
  | items, [] => .ok (items, [])
  | items, entry :: rest => do
    let (_, item) ← ofOption (.invalidData "legacy keyring value has no unique index entry")
      (items.find? fun p => p.1 = entry.metadata.address)
    let (items, joined) ← joinLegacy (items.eraseP fun p => p.1 = entry.metadata.address) rest
    return (items, { entry with value := env.portableJson.encode (1, item, entry.value) } :: joined)

/-- `upgrade_legacy_keyring`; the ids of an index are distinct, so are the addresses. -/
def upgradeLegacyKeyring (archive : VaultArchive) : VaultResult VaultArchive := do
  let (index, ordinary, keyring) ← archive.entries.foldlM (sortLegacyEntry env) (none, [], [])
  let items ← (index.getD ⟨1, []⟩).items.mapM fun item => do return (← item.address, item)
  let (left, joined) ← joinLegacy env items keyring
  ensure (left.isEmpty = true) (.invalidData "legacy keyring index has missing values")
  return { archive with entries := ordinary ++ joined, version := archiveVersion }

end VaultArchive

/-! ## Encryption -/

section

variable (env : ArchiveEnv)

/-- `validate_new_password` (security/password.rs) with its feedback left out. -/
def validateNewPassword (password : Bytes) : VaultResult Unit := do
  ensure (password.length ≤ 64 * 1024) (.protection "password must not exceed 64 KiB")
  let text ← ofOption (.protection "new passwords must be valid UTF-8") (String.fromUTF8? ⟨password.toArray⟩)
  ensure (3 ≤ env.passwordScore text) (.protection "Choose a stronger password.")

def validateHeader (header : ArchiveHeader) : VaultResult Unit := do
  ensure (header.format = archiveFormat ∧ (header.version = 1 ∨ header.version = archiveVersion))
    (.invalidData "unsupported FactorSeal archive format or version")
  ensure (header.kdf.algorithm = "argon2id" ∧ header.kdf.version = 19 ∧ header.kdf.memoryKib ≠ 0 ∧
      header.kdf.memoryKib ≤ maxArgon2MemoryKib ∧ header.kdf.iterations ≠ 0 ∧
      header.kdf.iterations ≤ maxArgon2Iterations ∧ header.kdf.parallelism ≠ 0 ∧
      header.kdf.parallelism ≤ maxArgon2Parallelism ∧ header.cipher = "aes-256-gcm")
    (.invalidData "unsupported or unsafe archive encryption parameters")

/-- `decode_array`. -/
def decodeArray (n : Nat) (label encoded : String) : VaultResult (Vector UInt8 n) := do
  let decoded ← ofOption (.invalidData ("invalid " ++ label)) (env.base64Decode encoded)
  if h : decoded.toArray.size = n then return ⟨decoded.toArray, h⟩
  else .error (.invalidData ("invalid " ++ label ++ " length"))

/-- The result of Argon2 with its message as a protection error. -/
def protectionResult (result : Except String Key) : VaultResult Key :=
  match result with
  | .ok key => .ok key
  | .error message => .error (.protection ("archive KDF failed: " ++ message))

def deriveKey (passphrase : Bytes) (kdf : ArchiveKdf) : VaultResult Key := do
  validateHeader ⟨archiveFormat, archiveVersion, kdf, "aes-256-gcm"⟩
  let salt ← decodeArray env saltBytes "archive salt" kdf.salt
  protectionResult (env.argon2id passphrase salt kdf.memoryKib kdf.iterations kdf.parallelism)

/-- `encrypt_archive`; `draw` is the number of draws so far. -/
def encryptArchive (draw : Nat) (archive : VaultArchive) (passphrase : Bytes) : VaultResult Bytes := do
  let header := archiveHeader archive.version (env.random 16 draw)
  let plaintext := env.archiveJson.encode archive
  ensure (plaintext.length ≤ maxArchivePayloadBytes) (.protocol "message exceeds configured bound")
  let key ← deriveKey env passphrase header.kdf
  let nonce : Nonce := env.random 12 (draw + 1)
  let ciphertext := env.aeadSeal key nonce (env.headerJson header) plaintext
  return utf8 (EncryptedArchive.mk header (base64 nonce.toList) (base64 ciphertext)).pretty

/-- `encrypt_vault_archive`. -/
def encryptVaultArchive (draw : Nat) (archive : VaultArchive) (passphrase : Bytes) : VaultResult Bytes := do
  archive.validate env
  validateNewPassword env passphrase
  encryptArchive env draw archive passphrase

/-- An error of serde with a text in front of its own. -/
def parsed {α : Type} (what : String) (result : Except String α) : VaultResult α :=
  match result with
  | .ok a => .ok a
  | .error message => .error (.invalidData (what ++ message))

/-- `decrypt_vault_archive`. -/
def decryptVaultArchive (bytes passphrase : Bytes) : VaultResult VaultArchive := do
  ensure (bytes.length ≤ maxArchiveFileBytes) (.invalidData "FactorSeal archive is too large")
  ensure (passphrase ≠ []) (.protection "archive passphrase must not be empty")
  let envelope ← parsed "invalid archive: " (env.parseEnvelope bytes)
  validateHeader envelope.header
  let nonce : Nonce ← decodeArray env 12 "archive nonce" envelope.nonce
  let ciphertext ← ofOption (.invalidData "invalid archive ciphertext") (env.base64Decode envelope.ciphertext)
  ensure (ciphertext.length ≤ maxArchivePayloadBytes + 16) (.invalidData "FactorSeal archive is too large")
  let key ← deriveKey env passphrase envelope.header.kdf
  let plaintext ← ofOption (.protection "incorrect passphrase or damaged archive")
    (env.aeadOpen key nonce (env.headerJson envelope.header) ciphertext)
  let archive ← parsed "invalid archive contents: " (env.archiveJson.decode plaintext)
  let archive ← if archive.version = 1 then archive.upgradeLegacyKeyring env else return archive
  archive.validate env
  return archive

end

/-! ## The length of a file -/

theorem utf8ByteSize_ofList {chars : List Char} (h : ∀ c ∈ chars, c.utf8Size = 1) :
    (String.ofList chars).utf8ByteSize = chars.length := by
  induction chars with
  | nil => rfl
  | cons c rest ih =>
    have hc := h c mem_cons_self
    have hrest := ih fun d hd => h d (mem_cons_of_mem _ hd)
    rw [String.ofList_cons, String.utf8ByteSize_append, String.utf8ByteSize_singleton, hc, hrest, length_cons]
    omega

theorem mem_base64Url {c : Char} : ∀ {bytes : Bytes}, c ∈ base64Url bytes → ∃ n, c = base64Char n
  | [], h => by simp [base64Url] at h
  | [_], h => by
    simp only [base64Url, mem_cons, not_mem_nil, or_false] at h
    rcases h with rfl | rfl <;> exact ⟨_, rfl⟩
  | [_, _], h => by
    simp only [base64Url, mem_cons, not_mem_nil, or_false] at h
    rcases h with rfl | rfl | rfl <;> exact ⟨_, rfl⟩
  | _ :: _ :: _ :: rest, h => by
    simp only [base64Url, mem_cons] at h
    rcases h with rfl | rfl | rfl | rfl | h
    iterate 4 exact ⟨_, rfl⟩
    exact mem_base64Url h

theorem utf8Size_standardChar {c : Char} (h : c.utf8Size = 1) : (standardChar c).utf8Size = 1 := by
  unfold standardChar
  split
  · decide
  · split
    · decide
    · exact h

/-- Padded base64 takes four characters for every three bytes begun. -/
theorem utf8ByteSize_base64 (bytes : Bytes) : (base64 bytes).utf8ByteSize = 4 * ((bytes.length + 2) / 3) := by
  have hascii : ∀ c ∈ (base64Url bytes).map standardChar ++ replicate ((3 - bytes.length % 3) % 3) '=',
      c.utf8Size = 1 := by
    intro c hc
    rcases List.mem_append.1 hc with hc | hc
    · obtain ⟨d, hd, rfl⟩ := List.mem_map.1 hc
      obtain ⟨n, rfl⟩ := mem_base64Url hd
      exact utf8Size_standardChar (base64Char_utf8Size n)
    · rw [eq_of_mem_replicate hc]
      decide
  rw [base64, utf8ByteSize_ofList hascii, length_append, length_map, length_replicate, length_base64Url]
  omega

theorem utf8ByteSize_base64_toList {n : Nat} (bytes : Vector UInt8 n) :
    (base64 bytes.toList).utf8ByteSize = 4 * ((n + 2) / 3) := by
  rw [utf8ByteSize_base64, Vector.length_toList]

theorem utf8ByteSize_jsonText (text : String) : (jsonText text).utf8ByteSize = text.utf8ByteSize + 2 := by
  have hquote : "\"".utf8ByteSize = 1 := by decide
  rw [jsonText, String.utf8ByteSize_append, String.utf8ByteSize_append, hquote]
  omega

theorem pretty_archiveHeader (salt : Vector UInt8 16) : (archiveHeader archiveVersion salt).pretty =
    (archiveHeader archiveVersion (Vector.replicate 16 0)).prettyHead ++
      (archiveHeader archiveVersion (Vector.replicate 16 0)).kdf.prettyHead ++ jsonText (base64 salt.toList) ++
      "\n    \x7d" ++ (",\n    \"cipher\": " ++ jsonText "aes-256-gcm" ++ "\n  \x7d") := rfl

theorem utf8ByteSize_header (salt : Vector UInt8 16) : (archiveHeader archiveVersion salt).pretty.utf8ByteSize = 281 := by
  have hhead : (archiveHeader archiveVersion (Vector.replicate 16 0)).prettyHead.utf8ByteSize = 73 := by decide +kernel
  have hkdf : (archiveHeader archiveVersion (Vector.replicate 16 0)).kdf.prettyHead.utf8ByteSize = 143 := by
    decide +kernel
  have htail : "\n    \x7d".utf8ByteSize = 6 ∧
      (",\n    \"cipher\": " ++ jsonText "aes-256-gcm" ++ "\n  \x7d").utf8ByteSize = 33 := by decide +kernel
  rw [pretty_archiveHeader, String.utf8ByteSize_append, String.utf8ByteSize_append, String.utf8ByteSize_append,
    String.utf8ByteSize_append, utf8ByteSize_jsonText, utf8ByteSize_base64_toList, hhead, hkdf, htail.1, htail.2]

theorem pretty_mk (header : ArchiveHeader) (nonce ciphertext : String) :
    (EncryptedArchive.mk header nonce ciphertext).pretty = "\x7b\n  \"header\": " ++ header.pretty ++
      ",\n  \"nonce\": " ++ jsonText nonce ++ ",\n  \"ciphertext\": " ++ jsonText ciphertext ++ "\n\x7d" := rfl

/-- **A file is 348 bytes longer than the base64 of its ciphertext.** -/
theorem length_pretty (salt : Vector UInt8 16) (nonce : Nonce) (ciphertext : Bytes) :
    (utf8 (EncryptedArchive.mk (archiveHeader archiveVersion salt) (base64 nonce.toList) (base64 ciphertext)).pretty).length =
      348 + 4 * ((ciphertext.length + 2) / 3) := by
  have hparts : "\x7b\n  \"header\": ".utf8ByteSize = 14 ∧ ",\n  \"nonce\": ".utf8ByteSize = 13 ∧
      ",\n  \"ciphertext\": ".utf8ByteSize = 18 ∧ "\n\x7d".utf8ByteSize = 2 := by decide +kernel
  obtain ⟨hheader, hnonce, hciphertext, hend⟩ := hparts
  rw [length_utf8, pretty_mk]
  simp only [String.utf8ByteSize_append, utf8ByteSize_header, utf8ByteSize_jsonText, utf8ByteSize_base64_toList,
    utf8ByteSize_base64 ciphertext, hheader, hnonce, hciphertext, hend]
  omega

/-! ## Reading a file back -/

section

variable {env : ArchiveEnv} {draw : Nat} {archive : VaultArchive} {passphrase file : Bytes}

theorem decodeArray_base64 {n : Nat} (label : String) (bytes : Vector UInt8 n) :
    decodeArray env n label (base64 bytes.toList) = .ok bytes := by
  have hsize : bytes.toList.toArray.size = n := by simp
  simp only [decodeArray, env.base64Decode_base64, ofOption_some, ok_bind, dif_pos hsize]
  rfl

theorem validateHeader_archiveHeader (salt : Vector UInt8 16) :
    validateHeader (archiveHeader archiveVersion salt) = .ok () := by
  have hformat : (archiveHeader archiveVersion salt).format = archiveFormat ∧
      ((archiveHeader archiveVersion salt).version = 1 ∨ (archiveHeader archiveVersion salt).version = archiveVersion) :=
    ⟨rfl, .inr rfl⟩
  rw [validateHeader, ensure_of hformat, ok_bind]
  exact ensure_of ⟨rfl, rfl, show argon2MemoryKib ≠ 0 by decide, show argon2MemoryKib ≤ maxArgon2MemoryKib by decide,
    show argon2Iterations ≠ 0 by decide, show argon2Iterations ≤ maxArgon2Iterations by decide,
    show argon2Parallelism ≠ 0 by decide, show argon2Parallelism ≤ maxArgon2Parallelism by decide, rfl⟩

theorem exists_deriveKey (env : ArchiveEnv) (passphrase : Bytes) (salt : Vector UInt8 16) :
    ∃ key, deriveKey env passphrase (archiveHeader archiveVersion salt).kdf = .ok key := by
  obtain ⟨key, hkey⟩ := exists_of_isOk (env.argon2id_ok passphrase salt)
  have hheader : validateHeader ⟨archiveFormat, archiveVersion, (archiveHeader archiveVersion salt).kdf, "aes-256-gcm"⟩ =
      .ok () := validateHeader_archiveHeader salt
  have hsalt : decodeArray env saltBytes "archive salt" (archiveHeader archiveVersion salt).kdf.salt = .ok salt :=
    decodeArray_base64 _ salt
  refine ⟨key, ?_⟩
  rw [deriveKey, hheader, ok_bind, hsalt, ok_bind]
  exact congrArg protectionResult hkey

/-- A passphrase that is allowed for a new archive is not empty. -/
theorem ne_nil_of_validateNewPassword (h : validateNewPassword env passphrase = .ok ()) :
    passphrase ≠ [] := by
  rintro rfl
  simp only [validateNewPassword, bind_eq_ok, ensure_eq_ok, ofOption_eq_ok] at h
  obtain ⟨⟨⟩, -, text, htext, hscore⟩ := h
  have hempty : text = "" := by
    have : String.fromUTF8? ⟨([] : Bytes).toArray⟩ = some "" := by decide
    rw [this] at htext
    exact (Option.some.inj htext).symm
  have := env.passwordScore_empty
  rw [hempty] at hscore
  omega

theorem version_of_validate (h : archive.validate env = .ok ()) : archive.version = archiveVersion := by
  simp only [VaultArchive.validate, bind_eq_ok, ensure_eq_ok] at h
  obtain ⟨⟨⟩, hformat, -⟩ := h
  exact hformat.2

theorem encryptVaultArchive_eq_ok (h : encryptVaultArchive env draw archive passphrase = .ok file) :
    archive.validate env = .ok () ∧ archive.version = archiveVersion ∧ passphrase ≠ [] ∧
      (env.archiveJson.encode archive).length ≤ maxArchivePayloadBytes ∧ ∃ (key : Key) (nonce : Nonce),
        deriveKey env passphrase (archiveHeader archiveVersion (env.random 16 draw)).kdf = .ok key ∧
        file = utf8 (EncryptedArchive.mk (archiveHeader archiveVersion (env.random 16 draw)) (base64 nonce.toList)
          (base64 (env.aeadSeal key nonce (env.headerJson (archiveHeader archiveVersion (env.random 16 draw)))
            (env.archiveJson.encode archive)))).pretty := by
  simp only [encryptVaultArchive, bind_eq_ok] at h
  obtain ⟨⟨⟩, hvalid, ⟨⟩, hpassword, h⟩ := h
  have hversion := version_of_validate hvalid
  simp only [encryptArchive, bind_eq_ok, ensure_eq_ok] at h
  obtain ⟨⟨⟩, hlength, key, hkey, h⟩ := h
  rw [hversion] at hkey h
  cases h
  exact ⟨hvalid, hversion, ne_nil_of_validateNewPassword hpassword, hlength, key, _, hkey, rfl⟩

theorem length_of_encrypt (h : encryptVaultArchive env draw archive passphrase = .ok file) :
    file.length = 348 + 4 * (((env.archiveJson.encode archive).length + 16 + 2) / 3) := by
  obtain ⟨-, -, -, -, key, nonce, -, rfl⟩ := encryptVaultArchive_eq_ok h
  rw [length_pretty, env.length_aeadSeal]

theorem exists_encrypt (draw : Nat) (hvalid : archive.validate env = .ok ()) (hpassword : validateNewPassword env passphrase = .ok ())
    (hlength : (env.archiveJson.encode archive).length ≤ maxArchivePayloadBytes) :
    ∃ file, encryptVaultArchive env draw archive passphrase = .ok file := by
  obtain ⟨key, hkey⟩ := exists_deriveKey env passphrase (env.random 16 draw)
  rw [encryptVaultArchive, hvalid, ok_bind, hpassword, ok_bind]
  simp only [encryptArchive, ensure_of hlength, ok_bind, version_of_validate hvalid, hkey]
  exact ⟨_, rfl⟩

/-- **Which archives are read back.** What encryption accepts is decrypted to the same archive exactly when its JSON has at
most 201326315 bytes: the file of a longer one is larger than the reader takes. -/
theorem decrypt_encrypt_iff {draw : Nat} {archive : VaultArchive} {passphrase file : Bytes}
    (h : encryptVaultArchive env draw archive passphrase = .ok file) :
    (∃ restored, decryptVaultArchive env file passphrase = .ok restored ∧ restored.createdAt = archive.createdAt ∧
        restored.entries = archive.entries) ↔ (env.archiveJson.encode archive).length ≤ 201326315 := by
  obtain ⟨hvalid, hversion, hpassphrase, hlength, key, nonce, hkey, hfile⟩ := encryptVaultArchive_eq_ok h
  have hsize := length_of_encrypt h
  have hmax : maxArchiveFileBytes = 268435456 := rfl
  have hpayload : maxArchivePayloadBytes = 201326592 := rfl
  constructor
  · rintro ⟨restored, hrestored, -, -⟩
    simp only [decryptVaultArchive, bind_eq_ok, ensure_eq_ok] at hrestored
    obtain ⟨⟨⟩, hfits, -⟩ := hrestored
    omega
  · intro hle
    have hfits : file.length ≤ maxArchiveFileBytes := by omega
    have hciphertext : (env.aeadSeal key nonce (env.headerJson (archiveHeader archiveVersion (env.random 16 draw)))
        (env.archiveJson.encode archive)).length ≤ maxArchivePayloadBytes + 16 := by
      rw [env.length_aeadSeal]
      omega
    have hnotLegacy : ¬ archive.version = 1 := by
      rw [hversion]
      decide
    refine ⟨archive, ?_, rfl, rfl⟩
    rw [decryptVaultArchive, ensure_of hfits, ok_bind, ensure_of hpassphrase, ok_bind, hfile, env.parseEnvelope_pretty]
    simp only [parsed, ok_bind, validateHeader_archiveHeader, decodeArray_base64, env.base64Decode_base64, ofOption_some,
      ensure_of hciphertext, hkey, env.aeadOpen_seal, env.archiveJson.decode_encode, if_neg hnotLegacy]
    rfl

end

/-! ## An archive the reader does not take -/

/-- The URL-safe character again. -/
def urlChar (c : Char) : Char := if c = '+' then '-' else if c = '/' then '_' else c

theorem base64Char_standard (n : Nat) : urlChar (standardChar (base64Char n)) = base64Char n ∧
    standardChar (base64Char n) ≠ '=' := by
  have hall : ∀ i : Fin 64, urlChar (standardChar (base64Char i)) = base64Char i ∧ standardChar (base64Char i) ≠ '=' := by
    decide +kernel
  by_cases h : n < 64
  · exact hall ⟨n, h⟩
  · have hlast : base64Char n = '_' := by
      unfold base64Char
      rw [if_neg (by omega), if_neg (by omega), if_neg (by omega), if_neg (by omega)]
    rw [hlast]
    decide

/-- The unpadded text is found in the padded one. -/
theorem base64Url_of_base64 (bytes : Bytes) :
    ((base64 bytes).toList.filter (· ≠ '=')).map urlChar = base64Url bytes := by
  have hpadding : (replicate ((3 - bytes.length % 3) % 3) '=').filter (· ≠ '=') = [] := by simp
  have hkept : ((base64Url bytes).map standardChar).filter (· ≠ '=') = (base64Url bytes).map standardChar := by
    refine List.filter_eq_self.2 fun c hc => ?_
    obtain ⟨d, hd, rfl⟩ := List.mem_map.1 hc
    obtain ⟨n, rfl⟩ := mem_base64Url hd
    simpa using (base64Char_standard n).2
  rw [base64, String.toList_ofList, filter_append, hpadding, hkept, append_nil, map_map]
  refine (map_congr_left fun c hc => ?_).trans (map_id _)
  obtain ⟨n, rfl⟩ := mem_base64Url hc
  exact (base64Char_standard n).1

theorem base64_injective : Function.Injective base64 := by
  intro a b h
  refine base64Url_inj ?_
  rw [← base64Url_of_base64 a, h, base64Url_of_base64 b]

theorem append_inj_of_size {a b c d : String} (h : a ++ b = c ++ d) (hsize : a.utf8ByteSize = c.utf8ByteSize) :
    a = c ∧ b = d := by
  have hbytes : utf8 a ++ utf8 b = utf8 c ++ utf8 d := by
    have := congrArg utf8 h
    simpa [utf8] using this
  obtain ⟨hleft, hright⟩ := append_inj hbytes hsize
  exact ⟨utf8_inj hleft, utf8_inj hright⟩

theorem append_right_cancel {a b c : String} (h : a ++ c = b ++ c) : a = b := by
  have hsize := congrArg String.utf8ByteSize h
  rw [String.utf8ByteSize_append, String.utf8ByteSize_append] at hsize
  exact (append_inj_of_size h (by omega)).1

theorem jsonText_injective : Function.Injective jsonText := by
  intro a b h
  have := append_right_cancel h
  exact (append_inj_of_size this rfl).2

namespace Reference

/-- What the writer puts around a salt, a nonce and a ciphertext. -/
def writtenFile (parts : Vector UInt8 16 × Nonce × Bytes) : Bytes :=
  utf8 (EncryptedArchive.mk (archiveHeader archiveVersion parts.1) (base64 parts.2.1.toList) (base64 parts.2.2)).pretty

theorem writtenFile_injective : Function.Injective writtenFile := by
  rintro ⟨salt, nonce, ciphertext⟩ ⟨salt', nonce', ciphertext'⟩ h
  have h := utf8_inj h
  rw [pretty_mk, pretty_mk] at h
  -- from the end: the text behind the ciphertext, then each text in front of what is left
  have h₁ := append_right_cancel h
  obtain ⟨h₂, hciphertext⟩ := append_inj_of_size h₁ (by
    simp only [String.utf8ByteSize_append, utf8ByteSize_header, utf8ByteSize_jsonText,
      utf8ByteSize_base64_toList])
  obtain ⟨h₃, hnonce⟩ := append_inj_of_size (append_right_cancel h₂) (by
    simp only [String.utf8ByteSize_append, utf8ByteSize_header])
  have h₄ := (append_inj_of_size (append_right_cancel h₃) rfl).2
  rw [pretty_archiveHeader, pretty_archiveHeader] at h₄
  obtain ⟨h₅, -⟩ := append_inj_of_size h₄ (by
    simp only [String.utf8ByteSize_append, utf8ByteSize_jsonText, utf8ByteSize_base64_toList])
  have hsalt := (append_inj_of_size (append_right_cancel h₅) rfl).2
  rw [Prod.mk.injEq, Prod.mk.injEq]
  exact ⟨Vector.toList_inj.1 (base64_injective (jsonText_injective hsalt)),
    Vector.toList_inj.1 (base64_injective (jsonText_injective hnonce)), base64_injective (jsonText_injective hciphertext)⟩

def metadataFormat : Format VaultEntryMetadata :=
  ((list (option string)).prod ((option uint64).prod (bool.prod (kindFormat.prod
    (bytes.prod addressFormat))))).viaOption
    (fun m => ([m.accessProject, m.displayName, m.displayType, m.displayUsername, m.displayWebsite], m.updatedAt,
      m.favorite, m.documentKind, m.partition, m.address))
    (fun
      | ([project, name, type, username, website], updatedAt, favorite, kind, partition, address) =>
        some ⟨project, name, type, username, website, updatedAt, favorite, kind, partition, address⟩
      | _ => none)
    fun _ => rfl

def archiveEntryFormat : Format VaultArchiveEntry :=
  (metadataFormat.prod (bytes.prod (option uint64))).via (fun e => (e.metadata, e.value, e.evictAt))
    (fun p => ⟨p.1, p.2.1, p.2.2⟩) fun _ => rfl

def vaultArchiveFormat : Format VaultArchive :=
  (string.prod ((nat.via UInt16.toNat UInt16.ofNat fun _ => by simp).prod (uint64.prod
    (list archiveEntryFormat)))).via
    (fun a => (a.format, a.version, a.createdAt, a.entries)) (fun p => ⟨p.1, p.2.1, p.2.2.1, p.2.2.2⟩) fun _ => rfl

/-- An archive of one value. -/
def archiveOf (value : Bytes) : VaultArchive :=
  .new 42 [⟨⟨none, none, none, none, none, none, false, .localKeyring, [1], .local "note" none⟩, value, none⟩]

def passphrase : Bytes := utf8 "opal nebula"

end Reference

/-- The reader's codecs undo the writer's; nothing else about them is fixed. -/
noncomputable def referenceArchive : ArchiveEnv where
  toServiceEnv := referenceService
  argon2id _ _ _ _ _ := .ok (Vector.replicate 32 0)
  argon2id_ok _ _ := rfl
  passwordScore text := text.length
  passwordScore_empty := by decide
  archiveJson := vaultArchiveFormat.toCodec
  headerJson header := utf8 header.pretty
  base64Decode := Function.partialInv base64
  base64Decode_base64 bytes := Function.partialInv_left base64_injective bytes
  parseEnvelope bytes := match Function.partialInv writtenFile bytes with
    | some (salt, nonce, ciphertext) =>
      .ok ⟨archiveHeader archiveVersion salt, base64 nonce.toList, base64 ciphertext⟩
    | none => .error "malformed input"
  parseEnvelope_pretty salt nonce ciphertext := by
    have h := Function.partialInv_left writtenFile_injective (salt, nonce, ciphertext)
    rw [writtenFile] at h
    rw [h]

theorem validate_archiveOf (value : Bytes) : (archiveOf value).validate referenceArchive = .ok () := by
  rfl

theorem length_bytes_write (bytes : Bytes) : (Format.bytes.write bytes).length = 2 * bytes.length + 1 := by
  have hflat : (bytes.flatMap byte.write).length = bytes.length := by
    induction bytes with
    | nil => rfl
    | cons b rest ih =>
      rw [flatMap_cons, length_append, ih, length_cons]
      exact Nat.add_comm ..
  simp only [Format.bytes, Format.list, Format.nat, length_append, length_replicate, length_singleton, hflat]
  omega

theorem length_archiveOf (value : Bytes) :
    (referenceArchive.archiveJson.encode (archiveOf value)).length = 123 + 2 * value.length := by
  have hwrite : referenceArchive.archiveJson.encode (archiveOf value) =
      Format.string.write archiveFormat ++ (Format.nat.write 2 ++ (Format.uint64.write 42 ++ (Format.nat.write 1 ++
        ((metadataFormat.write ⟨none, none, none, none, none, none, false, .localKeyring, [1],
          .local "note" none⟩ ++ (Format.bytes.write value ++ [0])) ++ [])))) := rfl
  have hclosed : (Format.string.write archiveFormat).length = 73 ∧ (Format.nat.write 2).length = 3 ∧
      (Format.uint64.write 42).length = 8 ∧ (Format.nat.write 1).length = 2 ∧
      (metadataFormat.write ⟨none, none, none, none, none, none, false, .localKeyring, [1],
        .local "note" none⟩).length = 35 := by
    decide +kernel
  obtain ⟨hformat, hversion, hcreated, hcount, hmetadata⟩ := hclosed
  rw [hwrite]
  simp only [length_append, length_bytes_write, length_singleton, length_nil, hformat, hversion, hcreated,
    hcount, hmetadata]
  omega

theorem validateNewPassword_passphrase : validateNewPassword referenceArchive passphrase = .ok () := by
  have htext : String.fromUTF8? ⟨passphrase.toArray⟩ = some "opal nebula" := by decide +kernel
  rw [validateNewPassword, ensure_of (by decide), ok_bind, htext, ofOption_some, ok_bind]
  exact ensure_of (show 3 ≤ "opal nebula".length by decide)

theorem exists_encrypt_archiveOf (value : Bytes) (h : 123 + 2 * value.length ≤ 201326592) :
    ∃ file, encryptVaultArchive referenceArchive 0 (archiveOf value) passphrase = .ok file := by
  refine exists_encrypt 0 (validate_archiveOf value) validateNewPassword_passphrase ?_
  rw [length_archiveOf]
  exact h

/-- A small archive is read back. -/
theorem decrypt_encrypt_small : ∃ file,
    encryptVaultArchive referenceArchive 0 (Reference.archiveOf [1, 2, 3]) Reference.passphrase = .ok file ∧
      ∃ restored, decryptVaultArchive referenceArchive file Reference.passphrase = .ok restored ∧
        restored.createdAt = 42 ∧ restored.entries = (Reference.archiveOf [1, 2, 3]).entries := by
  have hsmall : 123 + 2 * ([1, 2, 3] : Bytes).length ≤ 201326592 := by decide
  obtain ⟨file, hfile⟩ := exists_encrypt_archiveOf _ hsmall
  refine ⟨file, hfile, (decrypt_encrypt_iff hfile).2 ?_⟩
  rw [length_archiveOf]
  decide

/-- **An archive of 201326523 bytes is encrypted, and the reader refuses the file.** -/
theorem decrypt_large_fails : ∃ value file,
    encryptVaultArchive referenceArchive 0 (Reference.archiveOf value) Reference.passphrase = .ok file ∧
      decryptVaultArchive referenceArchive file Reference.passphrase =
        .error (.invalidData "FactorSeal archive is too large") := by
  have hlength : (replicate 100663200 (0 : UInt8)).length = 100663200 := length_replicate
  obtain ⟨file, hfile⟩ := exists_encrypt_archiveOf (replicate 100663200 0) (by rw [hlength]; decide)
  refine ⟨_, file, hfile, ?_⟩
  have hsize := length_of_encrypt hfile
  rw [length_archiveOf, hlength] at hsize
  have hmax : maxArchiveFileBytes = 268435456 := rfl
  rw [decryptVaultArchive, ensure_of_not (by omega)]
  rfl

end FactorSeal

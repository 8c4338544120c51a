import SuiId.Store.Tar

/-!
# Backup archives

`parse_backup` and the envelope of `ops.rs`: a tar of the manifest, the database and the
key file, plain or encrypted under a passphrase.

Argon2id, the AEAD and the JSON of the manifest are parameters.  The salt and the nonce
that a backup draws are arguments.
-/

namespace SuiId

/-- `Manifest`. -/
structure Manifest where
  formatVersion : Nat
  suiIdVersion : String
  schemaVersion : Int
  createdAt : String
  hostname : String
  issuer : String
deriving DecidableEq

/-- What other crates compute for the archive. -/
structure ArchivePrimitives where
  encodeManifest : Manifest → Option Bytes
  decodeManifest : Bytes → Option Manifest
  /-- Argon2id: passphrase and salt. -/
  deriveKey : String → Bytes → Option Bytes
  /-- XChaCha20-Poly1305: key, nonce and message. -/
  encrypt : Bytes → Bytes → Bytes → Option Bytes
  decrypt : Bytes → Bytes → Bytes → Option Bytes

/-- What the backup relies on them for. -/
structure ArchivePrimitives.Lawful (A : ArchivePrimitives) : Prop where
  decode_encode : ∀ {manifest json},
    A.encodeManifest manifest = some json → A.decodeManifest json = some manifest
  decrypt_encrypt : ∀ {key nonce message ct},
    A.encrypt key nonce message = some ct → A.decrypt key nonce ct = some message
  /-- The tag has sixteen bytes. -/
  length_encrypt : ∀ {key nonce message ct},
    A.encrypt key nonce message = some ct → ct.length = message.length + 16

/-! ## Constants -/

/-- `FORMAT_VERSION`. -/
def formatVersion : Nat := 1

/-- `FORMAT_VERSION.to_be_bytes()`. -/
def formatVersionBytes : Bytes := [0, 0, 0, 1]

/-- `u32::from_be_bytes`. -/
def ofBeBytes (bytes : Bytes) : Nat := bytes.foldl (fun v b => v * 256 + b.toNat) 0

/-- `ENCRYPTED_MAGIC`: `SUIDIDBK`. -/
def encryptedMagic : Bytes := [83, 85, 73, 68, 73, 68, 66, 75]

/-- `ENTRY_MANIFEST`. -/
def entryManifest : String := "MANIFEST.json"

/-- `ENTRY_DB`. -/
def entryDb : String := "sui-id.sqlite"

/-- `ENTRY_KEY`. -/
def entryKey : String := "sui-id.key"

section Archive

variable (A : ArchivePrimitives)

/-! ## The envelope -/

/-- What an encrypted backup is given and what it draws. -/
structure Sealing where
  passphrase : String
  salt : Bytes
  nonce : Bytes
  salt_length : salt.length = 16
  nonce_length : nonce.length = 24

/-- `encrypt_envelope`. -/
def encryptEnvelope (s : Sealing) (plaintext : Bytes) : Except BackupError Bytes :=
  match A.deriveKey s.passphrase s.salt with
  | none => .error .argon2Derive
  | some key =>
    match A.encrypt key s.nonce plaintext with
    | none => .error .encrypt
    | some ciphertext =>
      .ok (encryptedMagic ++ (formatVersionBytes ++ (s.salt ++ (s.nonce ++ ciphertext))))

/-- `decrypt_envelope`. -/
def decryptEnvelope (passphrase : String) (bytes : Bytes) : Except BackupError Bytes :=
  if bytes.length < 8 + 4 + 16 + 24 + 16 then .error .envelopeTruncated
  else if bytes.take 8 ≠ encryptedMagic then .error .envelopeMagicMismatch
  else
    let version := ofBeBytes ((bytes.drop 8).take 4)
    if version ≠ formatVersion then .error (.envelopeVersionUnsupported version formatVersion)
    else
      match A.deriveKey passphrase ((bytes.drop 12).take 16) with
      | none => .error .argon2Derive
      | some key =>
        match A.decrypt key ((bytes.drop 28).take 24) (bytes.drop 52) with
        | none => .error .decrypt
        | some plaintext => .ok plaintext

/-! ## Writing -/

/-- The entries of a backup. -/
def backupEntries (json db key : Bytes) : List (String × Bytes) :=
  [(entryManifest, json), (entryDb, db), (entryKey, key)]

/-- The archive that `run_backup` writes. -/
def writeArchive (manifest : Manifest) (db key : Bytes) (sealing : Option Sealing) :
    Except BackupError Bytes :=
  match A.encodeManifest manifest with
  | none => .error .serializeManifest
  | some json =>
    match writeTarEntries (backupEntries json db key) with
    | .error e => .error e
    | .ok entries =>
      match sealing with
      | none => .ok (entries ++ tarTerminator)
      | some s => encryptEnvelope A s (entries ++ tarTerminator)

/-! ## Reading -/

/-- `is_encrypted`. -/
def isEncrypted (bytes : Bytes) : Bool := bytes.length ≥ 8 && bytes.take 8 == encryptedMagic

/-- The manifest of a backup from before there were manifests. -/
def permissiveManifest : Manifest := ⟨0, "<pre-0.13>", 0, "", "", ""⟩

/-- The first entry of that name. -/
def findEntry (entries : List (String × Bytes)) (name : String) : Option Bytes :=
  (entries.find? fun e => e.1 == name).map (·.2)

/-- The tar inside a backup. -/
def openArchive (bytes : Bytes) (passphrase : Option String) : Except BackupError Bytes :=
  if isEncrypted bytes then
    match passphrase with
    | none => .error .passphraseRequired
    | some pass => decryptEnvelope A pass bytes
  else
    match passphrase with
    -- `--decrypt` on a plain backup.
    | some _ => .error .passphraseForPlainBackup
    | none => .ok bytes

/-- What is made of the entries. -/
def parseEntries (entries : List (String × Bytes)) :
    Except BackupError (Manifest × Bytes × Bytes) :=
  let manifest := match findEntry entries entryManifest with
    | some json => A.decodeManifest json
    | none => some permissiveManifest
  match manifest with
  | none => .error .parseManifest
  | some manifest =>
    match findEntry entries entryDb with
    | none => .error .missingDatabaseEntry
    | some db =>
      match findEntry entries entryKey with
      | none => .error .missingKeyEntry
      | some key => .ok (manifest, db, key)

/-- The tar and what is in it. -/
def parseTar (tar : Bytes) : Except BackupError (Nat × Manifest × Bytes × Bytes) :=
  match readTar tar with
  | .error e => .error e
  | .ok entries => (parseEntries A entries).map fun contents => (tar.length, contents)

/-- `parse_backup`: the length of the tar, the manifest, the database and the key. -/
def parseBackup (bytes : Bytes) (passphrase : Option String) :
    Except BackupError (Nat × Manifest × Bytes × Bytes) :=
  match openArchive A bytes passphrase with
  | .error e => .error e
  | .ok tar => parseTar A tar

end Archive

end SuiId

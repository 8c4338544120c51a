import SuiId.Store.Archive
import SuiId.Store.Migrations

/-!
# Restoring a backup

`run_restore` of `ops.rs`: read and check the archive, then replace the database and the key
file, each by a temporary file and a rename.

The files are those that it reads or writes, and the `-wal` sibling of the database, which
it does neither to.  Opening a database is a parameter: what is read of the bytes of the file
and of its sibling.  Every operation on a file may fail.  Directories and permissions are
left out.
-/

namespace SuiId

/-- What opening a database reads: of the file, if there is one, and its `-wal` sibling.
`none` is an error. -/
abbrev OpenDatabase (D : Type) := Option Bytes → Option Bytes → Option (DbFile D)

/-- `Display` of `SchemaError`, but for the text of a failed read. -/
def SchemaError.display : SchemaError → String
  | .tooNew found supported =>
    "schema version " ++ toString found ++ " is newer than this build supports (up to " ++
      toString supported ++ ")"
  | .invalid tables detail =>
    "schema version unreadable: " ++ detail ++ " (" ++ toString tables ++
      " application table(s))"
  | .read => "reading the schema version failed"

/-- `RestoreOptions`. -/
structure RestoreOptions where
  force : Bool
  passphrase : Option String

/-- The files that a restore reads and writes. -/
structure RestoreFiles where
  source : Option Bytes
  db : Option Bytes
  wal : Option Bytes
  keyFile : Option Bytes
  /-- What is there under the names of the temporary files. -/
  dbRestoring : Option Bytes
  keyRestoring : Option Bytes

/-- The operations of `write_atomic` whose failure shows. -/
inductive WriteOp where
  | removeOld
  | create
  | write
  | rename
deriving DecidableEq

/-- The operations of `run_restore` that may fail. -/
inductive RestoreOp where
  | readSource
  | createTempDir
  | stageSnapshot
  | openSnapshot
  | readVersion
  | database (op : WriteOp)
  | keyFile (op : WriteOp)
deriving DecidableEq

/-- What `write_atomic` leaves: the temporary file and the target. -/
structure Written where
  result : Except BackupError Unit
  restoring : Option Bytes
  target : Option Bytes

/-- `write_atomic`. -/
def writeAtomic (fails : WriteOp → Bool) (bytes : Bytes) (restoring target : Option Bytes) :
    Written :=
  -- An error of the removal is ignored; `create_new` then finds the file.
  let restoring := if fails .removeOld then restoring else none
  if restoring.isSome ∨ fails .create then ⟨.error .createTempFile, restoring, target⟩
  else if fails .write then ⟨.error .io, some [], target⟩
  else if fails .rename then ⟨.error .renameTempFile, some bytes, target⟩
  else ⟨.ok (), none, some bytes⟩

section Restore

variable {D : Type} (S : Sqlite D) (openDb : OpenDatabase D) (A : ArchivePrimitives) (b : Build)
  (fails : RestoreOp → Bool)

/-- `check_manifest_compatibility`. -/
def checkManifestCompatibility (m : Manifest) : Except BackupError Unit :=
  if m.formatVersion > formatVersion then
    .error (.formatVersionTooNew m.formatVersion formatVersion)
  else if m.schemaVersion > (b.maxSchemaVersion : Int) then
    .error (.schemaVersionTooNew m.schemaVersion b.maxSchemaVersion)
  else .ok ()

/-- `check_snapshot_schema`: the snapshot is opened on its own. -/
def checkSnapshotSchema (db : Bytes) : Except BackupError Unit :=
  if fails .createTempDir then .error .createTempDir
  else if fails .stageSnapshot then .error .stageSnapshot
  else
    match if fails .openSnapshot then none else openDb (some db) none with
    | none => .error .openStagedSnapshot
    | some file =>
      match readStoredVersion S (fails .readVersion) file with
      | .error .read => .error .openStagedSnapshot
      | .error e => .error (.schemaVersionUnreadable e.display)
      | .ok stored =>
        match b.checkSupported stored with
        | .ok () => .ok ()
        | .error (.tooNew found supported) => .error (.schemaVersionTooNew found supported)
        | .error e => .error (.schemaVersionUnreadable e.display)

/-- What `run_restore` does before it writes: the database and the key of the archive. -/
def restoreChecks (opts : RestoreOptions) (files : RestoreFiles) :
    Except BackupError (Bytes × Bytes) :=
  match files.source with
  | none => .error .sourceMissing
  | some bytes =>
    if fails .readSource then .error .readSource
    else
      match parseBackup A bytes opts.passphrase with
      | .error e => .error e
      | .ok (_, manifest, db, key) =>
        match checkManifestCompatibility b manifest with
        | .error e => .error e
        | .ok () =>
          match checkSnapshotSchema S openDb b fails db with
          | .error e => .error e
          | .ok () =>
            if !opts.force && files.db.isSome then .error .databaseExists
            else if !opts.force && files.keyFile.isSome then .error .keyFileExists
            else .ok (db, key)

/-- `run_restore`. -/
def runRestore (opts : RestoreOptions) (files : RestoreFiles) :
    Except BackupError Unit × RestoreFiles :=
  match restoreChecks S openDb A b fails opts files with
  | .error e => (.error e, files)
  | .ok (db, key) =>
    let first := writeAtomic (fun op => fails (.database op)) db files.dbRestoring files.db
    let files := { files with db := first.target, dbRestoring := first.restoring }
    match first.result with
    | .error e => (.error e, files)
    | .ok () =>
      let second :=
        writeAtomic (fun op => fails (.keyFile op)) key files.keyRestoring files.keyFile
      (second.result,
        { files with keyFile := second.target, keyRestoring := second.restoring })

end Restore

end SuiId

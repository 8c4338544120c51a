import SuiId.Store.Crypto
import SuiId.Lib.Digits

/-!
# Schema migrations

`migrations.rs` of the store: the stored version and its one reader, the one rule, the
transactions of `run` and `apply_migration`, and `preview`.

A database file is its application tables with their rows, which only the SQL of a
migration touches, and the row of `sui_meta` that holds the version.  SQLite itself is a
parameter: what a batch of statements does with and without foreign-key enforcement, and
what `PRAGMA foreign_key_check` reports.  A transaction that does not commit leaves the
file as it was, so each is a function from the file to a new file or an error.  The log
lines and the count that 0049 reports are left out.
-/

namespace SuiId

open Lib

/-! ## The embedded migrations -/

/-- `Migration`. -/
structure Migration where
  version : Nat
  name : String
  sql : String
deriving DecidableEq

/-- `FK_DISABLE_MARKER`. -/
def fkDisableMarker : String := "-- MIGRATION:FK_DISABLE_REQUIRED"

/-- `m.sql.trim_start().starts_with(FK_DISABLE_MARKER)`. -/
def Migration.needsFkDisable (m : Migration) : Bool :=
  fkDisableMarker.toList.isPrefixOf (m.sql.toList.dropWhile Text.isWhitespace)

/-- A build of the program: `MIGRATIONS` and `CARGO_PKG_VERSION`. -/
structure Build where
  migrations : List Migration
  release : String
  /-- The entries are numbered from 1, in order. -/
  versions : migrations.map (·.version) = List.range' 1 migrations.length
  /-- A version is an `i32`. -/
  bounded : migrations.length < 2 ^ 31

/-- `MAX_SCHEMA_VERSION`. -/
def Build.maxSchemaVersion (b : Build) : Nat :=
  b.migrations.foldl (fun max m => if m.version > max then m.version else max) 0

/-- The entries above a version, in a list numbered from `start`. -/
private theorem filter_version_eq_drop {l : List Migration} {start : Nat}
    (h : l.map (·.version) = List.range' start l.length) (k : Nat) :
    (l.filter fun m => m.version > k) = l.drop (k + 1 - start) := by
  induction l generalizing start with
  | nil => simp
  | cons m l ih =>
    rw [List.map_cons, List.length_cons, List.range'_succ] at h
    obtain ⟨hm, htail⟩ := List.cons.inj h
    have htail' := ih htail
    by_cases hk : k < start
    · have hzero : k + 1 - start = 0 := by omega
      have hzero' : k + 1 - (start + 1) = 0 := by omega
      have hkeep : decide (m.version > k) = true := by
        rw [decide_eq_true_eq, hm]
        omega
      rw [hzero', List.drop_zero] at htail'
      rw [hzero, List.drop_zero, List.filter_cons, if_pos hkeep, htail']
    · have hsucc : k + 1 - start = (k + 1 - (start + 1)) + 1 := by omega
      have hskip : ¬ decide (m.version > k) = true := by
        rw [decide_eq_true_eq, hm]
        omega
      rw [hsucc, List.drop_succ_cons, List.filter_cons, if_neg hskip, htail']

/-- The entry at a position is numbered one higher. -/
theorem Build.version_getElem (b : Build) {i : Nat} (h : i < b.migrations.length) :
    b.migrations[i].version = i + 1 := by
  have hmap : (b.migrations.map (·.version))[i]? = some (i + 1) := by
    rw [b.versions, List.getElem?_range' (by simpa using h)]
    simp [Nat.add_comm]
  rw [List.getElem?_map, List.getElem?_eq_getElem h] at hmap
  exact Option.some.inj hmap

/-! ## SQLite -/

/-- `rusqlite::types::Value`. -/
inductive SqlValue where
  | null
  | integer (n : Int)
  | real
  | text (s : String)
  | blob (bytes : Bytes)
deriving DecidableEq

/-- What the runner uses of SQLite on application tables `D`, and of `{:?}`. -/
structure Sqlite (D : Type) where
  /-- How many application tables there are. -/
  tables : D → Nat
  /-- `execute_batch`, with foreign keys enforced or not; `none` when a statement fails. -/
  executeBatch : Bool → String → D → Option D
  /-- The table of the first row of `PRAGMA foreign_key_check`. -/
  foreignKeyCheck : D → Option String
  /-- What `{:?}` prints as it stands, of the characters behind ASCII. -/
  printable : Char → Bool

/-- The rows of `sui_meta` under `schema_version` and `last_migrated_by`. -/
structure SuiMeta where
  schemaVersion : Option SqlValue
  lastMigratedBy : Option SqlValue
deriving DecidableEq

/-- A database file. -/
structure DbFile (D : Type) where
  contents : D
  /-- `sui_meta`, if there is such a table. -/
  suiMeta : Option SuiMeta
deriving DecidableEq

/-! ## The stored version -/

/-- `StoredVersion`. -/
inductive StoredVersion where
  /-- No application tables at all. -/
  | fresh
  | at (version : Nat)
deriving DecidableEq

/-- `StoredVersion::number`. -/
def StoredVersion.number : StoredVersion → Nat
  | .fresh => 0
  | .at v => v

/-- `SchemaError`. -/
inductive SchemaError where
  | tooNew (found supported : Nat)
  | invalid (tables : Nat) (detail : String)
  | read
deriving DecidableEq

/-- `{:?}` of a character in a text. -/
def debugChar (printable : Char → Bool) (c : Char) : String :=
  if c = '"' then "\\\""
  else if c = '\\' then "\\\\"
  else if c = '\t' then "\\t"
  else if c = '\r' then "\\r"
  else if c = '\n' then "\\n"
  else if c.toNat = 0 then "\\0"
  else if c.toNat < 0x20 ∨ c.toNat = 0x7f ∨ 0x80 ≤ c.toNat ∧ printable c = false then
    "\\u\x7b" ++ String.ofList (Nat.toDigits 16 c.toNat) ++ "\x7d"
  else String.singleton c

/-- `{:?}` of a text. -/
def debugText (printable : Char → Bool) (s : List Char) : String :=
  "\"" ++ String.join (s.map (debugChar printable)) ++ "\""

/-- The storage class, as the error names it. -/
def SqlValue.storedAs : SqlValue → String
  | .null => "NULL"
  | .integer _ => "an integer"
  | .real => "a real"
  | .blob _ => "a BLOB"
  | .text _ => "text"

/-- `s.parse::<i64>().unwrap_or(i64::MAX)`, for a text of digits. -/
def parseVersion (s : String) : Nat := min (Digits.decimal s) (2 ^ 63 - 1)

section Reader

variable {D : Type} (S : Sqlite D)

/-- `SELECT value FROM sui_meta WHERE key = 'schema_version'`. -/
def DbFile.rawVersion (f : DbFile D) : Option SqlValue := f.suiMeta.bind (·.schemaVersion)

/-- `read_stored_version`, where the reads succeed. -/
def DbFile.storedVersion (f : DbFile D) : Except SchemaError StoredVersion :=
  let tables := S.tables f.contents
  match f.rawVersion with
  | none =>
    if tables = 0 then .ok .fresh
    else .error (.invalid tables "no schema version is recorded")
  | some (.text s) =>
    if Digits.isCanonical s then
      let v := parseVersion s
      if v = 0 ∧ tables > 0 then
        .error (.invalid tables "the recorded version is 0 but the database is populated")
      else .ok (.at v)
    else
      .error (.invalid tables
        ("the recorded value " ++ debugText S.printable (s.toList.take 40) ++
          " is not a non-negative integer"))
  | some other =>
    .error (.invalid tables
      ("the recorded version is stored as " ++ other.storedAs ++ ", not text"))

/-- `read_stored_version`. -/
def readStoredVersion (fails : Bool) (f : DbFile D) : Except SchemaError StoredVersion :=
  if fails then .error .read else f.storedVersion S

end Reader

/-- `check_supported`. -/
def Build.checkSupported (b : Build) : StoredVersion → Except SchemaError Unit
  | .at found =>
    if found > b.maxSchemaVersion then .error (.tooNew found b.maxSchemaVersion) else .ok ()
  | .fresh => .ok ()

/-- `pending`. -/
def Build.pending (b : Build) (stored : StoredVersion) : List Migration :=
  b.migrations.filter fun m => m.version > stored.number

/-- What is pending are the entries after as many as the stored version says. -/
theorem Build.pending_eq_drop (b : Build) (stored : StoredVersion) :
    b.pending stored = b.migrations.drop stored.number := by
  rw [Build.pending, filter_version_eq_drop b.versions]
  congr 1

/-- `check_supported` lets pass what is not above `MAX_SCHEMA_VERSION`. -/
theorem Build.checkSupported_ok {b : Build} {stored : StoredVersion}
    (h : b.checkSupported stored = .ok ()) : stored.number ≤ b.maxSchemaVersion := by
  cases stored with
  | fresh => exact Nat.zero_le _
  | «at» found =>
    rw [Build.checkSupported] at h
    by_cases hfound : found > b.maxSchemaVersion
    · rw [if_pos hfound] at h
      cases h
    · exact Nat.le_of_not_lt hfound

/-! ## The transactions -/

/-- `StoreError`, as far as the runner returns it. -/
inductive MigrateError where
  | db
  | schemaTooNew (found supported : Nat)
  | schemaVersionInvalid (tables : Nat) (detail : String)
  | migrationFailed (version : Nat)
  | integrity (message : String)
deriving DecidableEq

/-- `From<SchemaError> for StoreError`. -/
def MigrateError.ofSchema : SchemaError → MigrateError
  | .tooNew found supported => .schemaTooNew found supported
  | .invalid tables detail => .schemaVersionInvalid tables detail
  | .read => .db

/-- The statements that may fail. -/
inductive Statement where
  | begin_
  | readVersion
  | createMeta
  | pragmaOff
  | batch
  | writeVersion
  | writeRelease
  | commit
  | pragmaOn
  | prepareCheck
  | readCheck
deriving DecidableEq

section Transactions

variable {D : Type} (S : Sqlite D) (b : Build) (fails : Statement → Bool)

/-- Read the version and judge it. -/
def DbFile.judge (f : DbFile D) : Except MigrateError StoredVersion :=
  match readStoredVersion S (fails .readVersion) f with
  | .error e => .error (.ofSchema e)
  | .ok stored =>
    match b.checkSupported stored with
    | .error e => .error (.ofSchema e)
    | .ok () => .ok stored

/-- `CREATE TABLE IF NOT EXISTS sui_meta`. -/
def DbFile.createMeta (f : DbFile D) : DbFile D :=
  { f with suiMeta := some (f.suiMeta.getD ⟨none, none⟩) }

/-- The first transaction of `run`. -/
def openingTx (f : DbFile D) : Except MigrateError (DbFile D × StoredVersion) :=
  if fails .begin_ then .error .db
  else
    match f.judge S b fails with
    | .error e => .error e
    | .ok stored =>
      if fails .createMeta ∨ fails .commit then .error .db else .ok (f.createMeta, stored)

/-- `INSERT OR REPLACE INTO sui_meta`: the version, then the release. -/
def DbFile.stamped (f : DbFile D) (contents : D) (m : Migration) : DbFile D where
  contents := contents
  suiMeta := f.suiMeta.map fun _ =>
    ⟨some (.text (toString m.version)), some (.text b.release)⟩

/-- The transaction of `apply_migration`; `none` when the migration was applied already. -/
def migrationTx (fk : Bool) (m : Migration) (f : DbFile D) :
    Except MigrateError (Option (DbFile D)) :=
  if fails .begin_ then .error .db
  else
    match f.judge S b fails with
    | .error e => .error e
    | .ok stored =>
      if stored.number ≥ m.version then .ok none
      else
        match S.executeBatch fk m.sql f.contents with
        | none => .error (.migrationFailed m.version)
        | some contents =>
          -- Without `sui_meta` there is no table to insert into.
          if fails .batch ∨ f.suiMeta.isNone ∨ fails .writeVersion ∨ fails .writeRelease ∨
              fails .commit then
            .error (.migrationFailed m.version)
          else .ok (some (f.stamped b contents m))

/-- The error of a rebuild that left a violation. -/
def violationError (m : Migration) (table : String) : MigrateError :=
  .integrity ("migration " ++ toString m.version ++ ": FK violation after rebuild in table " ++
    debugText S.printable table.toList ++ "; run `PRAGMA foreign_key_check` for details")

/-- The check after a marked migration.  A read that fails counts as no violation. -/
def checkRebuild (m : Migration) (f : DbFile D) : Except MigrateError Unit :=
  if fails .prepareCheck then .error .db
  else
    match if fails .readCheck then none else S.foreignKeyCheck f.contents with
    | some table => .error (violationError S m table)
    | none => .ok ()

end Transactions

section Transactions

variable {D : Type} {S : Sqlite D} {b : Build} {fails : Statement → Bool} {f f' : DbFile D}

/-- An empty `sui_meta` says no more than none. -/
@[simp] theorem DbFile.storedVersion_createMeta (f : DbFile D) :
    f.createMeta.storedVersion S = f.storedVersion S := by
  have hraw : f.createMeta.rawVersion = f.rawVersion := by
    cases h : f.suiMeta <;> simp [DbFile.rawVersion, DbFile.createMeta, h]
  have hcontents : f.createMeta.contents = f.contents := rfl
  rw [DbFile.storedVersion, DbFile.storedVersion, hraw, hcontents]

variable {m : Migration} {stored : StoredVersion} {fk : Bool}

/-- The version that a migration writes is the version that is read. -/
theorem DbFile.storedVersion_stamped {contents : D} (hmeta : f.suiMeta.isSome)
    (hpos : 0 < m.version) (hbound : m.version < 2 ^ 31) :
    (f.stamped b contents m).storedVersion S = .ok (.at m.version) := by
  obtain ⟨row, hrow⟩ := Option.isSome_iff_exists.mp hmeta
  have hraw : (f.stamped b contents m).rawVersion = some (.text (toString m.version)) := by
    simp [DbFile.rawVersion, DbFile.stamped, hrow]
  have hparse : parseVersion (toString m.version) = m.version := by
    rw [parseVersion, Digits.decimal_toString]
    omega
  have hnotzero : ¬ (m.version = 0 ∧ S.tables (f.stamped b contents m).contents > 0) :=
    fun h => by omega
  rw [DbFile.storedVersion, hraw]
  simp only [Digits.isCanonical_toString, if_true, hparse, if_neg hnotzero]

/-- A judged version is the stored one, and the build supports it. -/
theorem DbFile.judge_ok (h : f.judge S b fails = .ok stored) :
    f.storedVersion S = .ok stored ∧ stored.number ≤ b.maxSchemaVersion := by
  unfold DbFile.judge readStoredVersion at h
  by_cases hread : fails .readVersion = true
  · rw [if_pos hread] at h
    cases h
  · rw [if_neg hread] at h
    cases hs : f.storedVersion S with
    | error e =>
      rw [hs] at h
      cases h
    | ok s =>
      rw [hs] at h
      cases hc : b.checkSupported s with
      | error e =>
        simp only [hc] at h
        cases h
      | ok u =>
        simp only [hc] at h
        cases h
        exact ⟨rfl, Build.checkSupported_ok hc⟩

theorem openingTx_ok (h : openingTx S b fails f = .ok (f', stored)) :
    f' = f.createMeta ∧ f.storedVersion S = .ok stored ∧
      stored.number ≤ b.maxSchemaVersion := by
  unfold openingTx at h
  split at h
  · cases h
  · cases hj : f.judge S b fails with
    | error e =>
      rw [hj] at h
      cases h
    | ok s =>
      simp only [hj] at h
      split at h
      · cases h
      · cases h
        exact ⟨rfl, DbFile.judge_ok hj⟩

/-- A migration that the transaction skips was applied before. -/
theorem migrationTx_skipped (h : migrationTx S b fails fk m f = .ok none) :
    ∃ stored, f.storedVersion S = .ok stored ∧ m.version ≤ stored.number := by
  unfold migrationTx at h
  split at h
  · cases h
  · cases hj : f.judge S b fails with
    | error e =>
      rw [hj] at h
      cases h
    | ok s =>
      simp only [hj] at h
      split at h
      · rename_i hge
        exact ⟨s, (DbFile.judge_ok hj).1, hge⟩
      · split at h
        · cases h
        · split at h <;> cases h

/-- A migration that the transaction commits is above the stored version, which the build
supports. -/
theorem migrationTx_applied (h : migrationTx S b fails fk m f = .ok (some f')) :
    ∃ stored contents, f.storedVersion S = .ok stored ∧ stored.number ≤ b.maxSchemaVersion ∧
      stored.number < m.version ∧ S.executeBatch fk m.sql f.contents = some contents ∧
      f.suiMeta.isSome ∧ f' = f.stamped b contents m := by
  unfold migrationTx at h
  split at h
  · cases h
  · cases hj : f.judge S b fails with
    | error e =>
      rw [hj] at h
      cases h
    | ok s =>
      have hjudged := DbFile.judge_ok hj
      simp only [hj] at h
      split at h
      · cases h
      · rename_i hlt
        split at h
        · cases h
        · rename_i contents hbatch
          split at h
          · cases h
          · rename_i hstatements
            cases h
            have hmeta : f.suiMeta.isSome := by
              by_contra hnone
              rw [Bool.not_eq_true, Option.isSome_eq_false_iff] at hnone
              exact hstatements (.inr (.inl hnone))
            exact ⟨s, contents, hjudged.1, hjudged.2, Nat.lt_of_not_le hlt, hbatch, hmeta, rfl⟩

end Transactions

/-! ## Preview -/

/-- `Preview`. -/
inductive Preview where
  | noFile
  | fresh
  | atHead
  | pending (current : Nat) (lastMigratedBy : Option String) (migrations : List Migration)

section Preview

variable {D : Type} (S : Sqlite D) (b : Build)

/-- `last_migrated_by`. -/
def lastMigratedBy (fails : Bool) (f : DbFile D) : Option String :=
  if fails then none
  else
    match f.suiMeta.bind (·.lastMigratedBy) with
    | some (.text s) => some s
    | _ => none

/-- `preview` of a path: what is there, if anything, and which of the two reads fail. -/
def preview (failsVersion failsRelease : Bool) (file : Option (DbFile D)) :
    Except SchemaError Preview :=
  match file with
  | none => .ok .noFile
  | some f =>
    match readStoredVersion S failsVersion f with
    | .error e => .error e
    | .ok stored =>
      match b.checkSupported stored with
      | .error e => .error e
      | .ok () =>
        match stored with
        | .fresh => .ok .fresh
        | .at current =>
          if current = b.maxSchemaVersion then .ok .atHead
          else .ok (.pending current (lastMigratedBy failsRelease f) (b.pending stored))

end Preview

end SuiId

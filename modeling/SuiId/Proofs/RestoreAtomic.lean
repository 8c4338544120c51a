import SuiId.Core.Restore

/-!
# A restore is all or nothing, when it is

Each of the two files is replaced by a rename, but not both by one, and the `-wal` sibling
of the old database stays.

* `writeAtomic_of_fails` and `writeAtomic_of_not_fails`: a target is left alone or holds the
  new bytes;
* `runRestore_refused` and `runRestore_checked`: what a restore leaves, by where it ends;
* `restore_all_or_nothing_iff`: exactly when an error leaves what was there, and success what
  was backed up.
-/

namespace SuiId

/-! ## One file -/

/-- Some operation of `write_atomic` fails. -/
def WriteFails (fails : WriteOp → Bool) (restoring : Option Bytes) : Prop :=
  (fails .removeOld = true ∧ restoring.isSome = true) ∨ fails .create = true ∨
    fails .write = true ∨ fails .rename = true

instance (fails : WriteOp → Bool) (restoring : Option Bytes) :
    Decidable (WriteFails fails restoring) :=
  inferInstanceAs (Decidable (_ ∨ _ ∨ _ ∨ _))

section Write

variable {fails : WriteOp → Bool} {restoring target : Option Bytes} {bytes : Bytes}

/-- `create_new` finds the old temporary file, or fails itself. -/
private theorem writeFails_iff : WriteFails fails restoring ↔
    ((if fails .removeOld then restoring else none).isSome = true ∨ fails .create = true) ∨
      fails .write = true ∨ fails .rename = true := by
  unfold WriteFails
  cases fails .removeOld <;> simp [or_assoc]

/-- A file whose write fails is left alone. -/
theorem writeAtomic_of_fails (h : WriteFails fails restoring) :
    (∃ e, (writeAtomic fails bytes restoring target).result = .error e) ∧
      (writeAtomic fails bytes restoring target).target = target := by
  rw [writeFails_iff] at h
  unfold writeAtomic
  simp only
  by_cases hcreate : (if fails .removeOld then restoring else none).isSome = true ∨
      fails .create = true
  · rw [if_pos hcreate]
    exact ⟨⟨_, rfl⟩, rfl⟩
  · rw [if_neg hcreate]
    by_cases hwrite : fails .write = true
    · rw [if_pos hwrite]
      exact ⟨⟨_, rfl⟩, rfl⟩
    · have hrename : fails .rename = true := by
        rcases h with h | h | h
        · exact absurd h hcreate
        · exact absurd h hwrite
        · exact h
      rw [if_neg hwrite, if_pos hrename]
      exact ⟨⟨_, rfl⟩, rfl⟩

theorem writeAtomic_of_not_fails (h : ¬ WriteFails fails restoring) :
    (writeAtomic fails bytes restoring target).result = .ok () ∧
      (writeAtomic fails bytes restoring target).target = some bytes := by
  rw [writeFails_iff, not_or] at h
  obtain ⟨hcreate, hrest⟩ := h
  obtain ⟨hwrite, hrename⟩ := not_or.mp hrest
  unfold writeAtomic
  simp only
  rw [if_neg hcreate, if_neg hwrite, if_neg hrename]
  exact ⟨rfl, rfl⟩

end Write

/-! ## Both files -/

section Restore

variable {D : Type} (S : Sqlite D) (openDb : OpenDatabase D) (A : ArchivePrimitives) (b : Build)
  (fails : RestoreOp → Bool) (opts : RestoreOptions) (files : RestoreFiles)

/-- The write of the database fails. -/
def DatabaseWriteFails : Prop := WriteFails (fun op => fails (.database op)) files.dbRestoring

/-- The write of the key file fails. -/
def KeyWriteFails : Prop := WriteFails (fun op => fails (.keyFile op)) files.keyRestoring

/-- An error leaves what was read of the database and the key file; success leaves what was
backed up. -/
def AllOrNothing : Prop :=
  let (result, after) := runRestore S openDb A b fails opts files
  (∀ e, result = .error e →
    openDb after.db after.wal = openDb files.db files.wal ∧ after.keyFile = files.keyFile) ∧
  (result = .ok () → ∃ bytes n manifest db key, files.source = some bytes ∧
    parseBackup A bytes opts.passphrase = .ok (n, manifest, db, key) ∧
    openDb after.db after.wal = openDb (some db) none ∧ after.keyFile = some key)

/-- For a backup that passes the checks and a database that is replaced: when the write of the
key file fails, the snapshot beside the `-wal` sibling reads like the old database; when it
succeeds, the sibling changes nothing that is read of the snapshot. -/
def RestoreSafe : Prop :=
  ∀ db key, restoreChecks S openDb A b fails opts files = .ok (db, key) →
    ¬ DatabaseWriteFails fails files →
    (KeyWriteFails fails files → openDb (some db) files.wal = openDb files.db files.wal) ∧
    (¬ KeyWriteFails fails files → openDb (some db) files.wal = openDb (some db) none)

variable {S openDb A b fails opts files}

/-- A restore that is refused writes nothing. -/
theorem runRestore_refused {e : BackupError}
    (h : restoreChecks S openDb A b fails opts files = .error e) :
    runRestore S openDb A b fails opts files = (.error e, files) := by
  rw [runRestore, h]

/-- What a restore leaves that passes the checks. -/
theorem runRestore_checked {db key : Bytes}
    (h : restoreChecks S openDb A b fails opts files = .ok (db, key)) :
    let (result, after) := runRestore S openDb A b fails opts files
    after.wal = files.wal ∧
      (DatabaseWriteFails fails files →
        (∃ e, result = .error e) ∧ after.db = files.db ∧ after.keyFile = files.keyFile) ∧
      (¬ DatabaseWriteFails fails files → after.db = some db ∧
        (KeyWriteFails fails files → (∃ e, result = .error e) ∧ after.keyFile = files.keyFile) ∧
        (¬ KeyWriteFails fails files → result = .ok () ∧ after.keyFile = some key)) := by
  rw [runRestore, h]
  simp only
  by_cases hfirst : DatabaseWriteFails fails files
  · have hwrite := @writeAtomic_of_fails _ _ files.db db hfirst
    obtain ⟨⟨e, hresult⟩, htarget⟩ := hwrite
    simp only [hresult]
    exact ⟨trivial, fun _ => ⟨⟨e, rfl⟩, htarget, trivial⟩, fun hnot => absurd hfirst hnot⟩
  · have hwrite := @writeAtomic_of_not_fails _ _ files.db db hfirst
    obtain ⟨hresult, htarget⟩ := hwrite
    simp only [hresult, htarget]
    refine ⟨trivial, fun hfails => absurd hfails hfirst, fun _ => ⟨trivial, fun hsecond => ?_,
      fun hsecond => ?_⟩⟩
    · exact writeAtomic_of_fails hsecond
    · exact writeAtomic_of_not_fails hsecond

/-- A restore that passes the checks has read its archive. -/
theorem restoreChecks_ok {db key : Bytes}
    (h : restoreChecks S openDb A b fails opts files = .ok (db, key)) :
    ∃ bytes n manifest, files.source = some bytes ∧
      parseBackup A bytes opts.passphrase = .ok (n, manifest, db, key) := by
  unfold restoreChecks at h
  split at h
  · cases h
  · rename_i bytes hsource
    split at h
    · cases h
    · split at h
      · cases h
      · rename_i n manifest db' key' hparse
        split at h
        · cases h
        · split at h
          · cases h
          · split at h
            · cases h
            · split at h
              · cases h
              · cases h
                exact ⟨bytes, n, manifest, hsource, hparse⟩

/-- What is all or nothing is safe. -/
theorem RestoreSafe.of_allOrNothing (h : AllOrNothing S openDb A b fails opts files) :
    RestoreSafe S openDb A b fails opts files := by
  intro db key hchecks hdatabase
  have hspec := runRestore_checked hchecks
  obtain ⟨bytes, n, manifest, hsource, hparse⟩ := restoreChecks_ok hchecks
  unfold AllOrNothing at h
  generalize runRestore S openDb A b fails opts files = outcome at hspec h
  obtain ⟨result, after⟩ := outcome
  obtain ⟨herror, hok⟩ := h
  obtain ⟨hwal, -, hreplaced⟩ := hspec
  obtain ⟨hdb, hkeyFails, hkeyHolds⟩ := hreplaced hdatabase
  constructor
  · intro hkey
    obtain ⟨⟨e, hresult⟩, -⟩ := hkeyFails hkey
    have hread := (herror e hresult).1
    rwa [hdb, hwal] at hread
  · intro hkey
    obtain ⟨hresult, -⟩ := hkeyHolds hkey
    obtain ⟨bytes', n', manifest', db', key', hsource', hparse', hread, -⟩ := hok hresult
    rw [hsource] at hsource'
    cases hsource'
    rw [hparse] at hparse'
    cases hparse'
    rwa [hdb, hwal] at hread

/-- What is safe is all or nothing. -/
theorem AllOrNothing.of_restoreSafe (h : RestoreSafe S openDb A b fails opts files) :
    AllOrNothing S openDb A b fails opts files := by
  cases hchecks : restoreChecks S openDb A b fails opts files with
  | error e =>
    rw [AllOrNothing, runRestore_refused hchecks]
    exact ⟨fun _ _ => ⟨rfl, rfl⟩, fun h => (by cases h)⟩
  | ok contents =>
    obtain ⟨db, key⟩ := contents
    have hspec := runRestore_checked hchecks
    obtain ⟨bytes, n, manifest, hsource, hparse⟩ := restoreChecks_ok hchecks
    unfold AllOrNothing
    generalize runRestore S openDb A b fails opts files = outcome at hspec
    obtain ⟨result, after⟩ := outcome
    obtain ⟨hwal, hfailed, hreplaced⟩ := hspec
    by_cases hdatabase : DatabaseWriteFails fails files
    · obtain ⟨⟨e, hresult⟩, hdb, hkeyFile⟩ := hfailed hdatabase
      refine ⟨fun _ _ => ⟨by rw [hdb, hwal], hkeyFile⟩, fun h => ?_⟩
      rw [hresult] at h
      cases h
    · obtain ⟨hdb, hkeyFails, hkeyHolds⟩ := hreplaced hdatabase
      obtain ⟨hold, hnew⟩ := h db key hchecks hdatabase
      by_cases hkey : KeyWriteFails fails files
      · obtain ⟨⟨e, hresult⟩, hkeyFile⟩ := hkeyFails hkey
        refine ⟨fun _ _ => ⟨by rw [hdb, hwal, hold hkey], hkeyFile⟩, fun h => ?_⟩
        rw [hresult] at h
        cases h
      · obtain ⟨hresult, hkeyFile⟩ := hkeyHolds hkey
        refine ⟨fun e h => ?_, fun _ => ⟨bytes, n, manifest, db, key, hsource, hparse,
          by rw [hdb, hwal, hnew hkey], hkeyFile⟩⟩
        rw [hresult] at h
        cases h

end Restore

/-- A restore is all or nothing exactly when it is safe. -/
theorem restore_all_or_nothing_iff {D : Type} (S : Sqlite D) (openDb : OpenDatabase D)
    (A : ArchivePrimitives) (b : Build) (fails : RestoreOp → Bool) (opts : RestoreOptions)
    (files : RestoreFiles) :
    AllOrNothing S openDb A b fails opts files ↔ RestoreSafe S openDb A b fails opts files :=
  ⟨.of_allOrNothing, .of_restoreSafe⟩

/-! ## Mixed states -/

section Mixed

/-- A backup without a manifest: the database `[1]` and the key `[2]`. -/
private def mixedEntries : List (String × Bytes) := [(entryDb, [1]), (entryKey, [2])]

@[irreducible] private def mixedArchive : Bytes :=
  match writeTarEntries mixedEntries with
  | .ok tar => tar ++ tarTerminator
  | .error _ => []

/-- Nothing is encrypted. -/
private def mixedPrimitives : ArchivePrimitives :=
  ⟨fun _ => none, fun _ => none, fun _ _ => none, fun _ _ _ => none, fun _ _ _ => none⟩

private def mixedBuild : Build := ⟨[⟨1, "0001_initial", ""⟩], "1", rfl, by decide⟩

private def mixedSqlite : Sqlite Bytes :=
  ⟨fun _ => 1, fun _ _ d => some d, fun _ => none, fun _ => true⟩

/-- The rows of the file and of the log, in this order. -/
private def openMixed : OpenDatabase Bytes := fun db wal =>
  db.map fun bytes => ⟨bytes ++ wal.getD [], some ⟨some (.text "1"), none⟩⟩

/-- An old database and key, with or without a log. -/
private def mixedFiles (wal : Option Bytes) : RestoreFiles :=
  ⟨some mixedArchive, some [8], wal, some [9], none, none⟩

private theorem mixed_parse :
    ∃ n, parseBackup mixedPrimitives mixedArchive none = .ok (n, permissiveManifest, [1], [2]) := by
  have hnul : NulFree mixedEntries := by
    have hnames : 0 ∉ nameBytes entryDb ∧ 0 ∉ nameBytes entryKey := by decide +kernel
    intro e he
    simp only [mixedEntries, List.mem_cons, List.not_mem_nil, or_false] at he
    rcases he with rfl | rfl
    · exact hnames.1
    · exact hnames.2
  have hfits : Storable mixedEntries := by
    intro e he
    simp only [mixedEntries, List.mem_cons, List.not_mem_nil, or_false] at he
    rcases he with rfl | rfl <;> decide
  have hplain : isEncrypted mixedArchive = false := by decide +kernel
  cases htar : writeTarEntries mixedEntries with
  | error e =>
    have hwritten : (writeTarEntries mixedEntries).toOption.isSome = true := by decide +kernel
    rw [htar] at hwritten
    cases hwritten
  | ok tar =>
    have harchive : mixedArchive = tar ++ tarTerminator := by rw [mixedArchive, htar]
    have hread : readTar mixedArchive = .ok mixedEntries := by
      rw [harchive, readTar, tarTerminator, readEntries_written hnul hfits htar]
      rfl
    refine ⟨mixedArchive.length, ?_⟩
    rw [parseBackup, openArchive, hplain]
    show parseTar mixedPrimitives mixedArchive = _
    rw [parseTar, hread]
    rfl

/-- A forced restore passes the checks, whatever else fails. -/
private theorem mixed_checks (fails : RestoreOp → Bool) (wal : Option Bytes)
    (hfails : ∀ op, fails op = true → op = .keyFile .rename) :
    restoreChecks mixedSqlite openMixed mixedPrimitives mixedBuild fails ⟨true, none⟩
      (mixedFiles wal) = .ok ([1], [2]) := by
  have hworks : ∀ op, op ≠ .keyFile .rename → fails op = false := by
    intro op hop
    rw [← Bool.not_eq_true]
    exact fun h => hop (hfails op h)
  obtain ⟨n, hparse⟩ := mixed_parse
  have hversion : (⟨[1], some ⟨some (.text "1"), none⟩⟩ : DbFile Bytes).storedVersion mixedSqlite =
      .ok (.at 1) := by decide +kernel
  have hsnapshot : checkSnapshotSchema mixedSqlite openMixed mixedBuild fails [1] = .ok () := by
    simp only [checkSnapshotSchema, hworks _ (show RestoreOp.createTempDir ≠ _ by decide),
      hworks _ (show RestoreOp.stageSnapshot ≠ _ by decide),
      hworks _ (show RestoreOp.openSnapshot ≠ _ by decide),
      hworks _ (show RestoreOp.readVersion ≠ _ by decide), Bool.false_eq_true, if_false, openMixed,
      Option.map_some, Option.getD_none, List.append_nil, readStoredVersion, hversion]
    rfl
  have hmanifest : checkManifestCompatibility mixedBuild permissiveManifest = .ok () := by
    decide +kernel
  simp only [restoreChecks, mixedFiles, hworks _ (show RestoreOp.readSource ≠ _ by decide), hparse,
    hmanifest, hsnapshot, Bool.false_eq_true, if_false, Bool.not_true, Bool.false_and]

/-- A forced restore whose last rename fails leaves the new database beside the old key; one
that succeeds beside a log leaves what the log makes of the snapshot. -/
theorem restore_mixes_states :
    ¬ AllOrNothing mixedSqlite openMixed mixedPrimitives mixedBuild
        (fun op => decide (op = .keyFile .rename)) ⟨true, none⟩ (mixedFiles none) ∧
      ¬ AllOrNothing mixedSqlite openMixed mixedPrimitives mixedBuild (fun _ => false)
        ⟨true, none⟩ (mixedFiles (some [7])) := by
  constructor
  · intro hall
    have hchecks := mixed_checks (fun op => decide (op = .keyFile .rename)) none
      (fun op h => of_decide_eq_true h)
    have hdatabase : ¬ DatabaseWriteFails (fun op => decide (op = .keyFile .rename))
        (mixedFiles none) := by
      rintro (⟨h, -⟩ | h | h | h) <;> exact absurd h (by decide)
    have hkey : KeyWriteFails (fun op => decide (op = .keyFile .rename)) (mixedFiles none) :=
      .inr (.inr (.inr (by decide)))
    have hread := (RestoreSafe.of_allOrNothing hall [1] [2] hchecks hdatabase).1 hkey
    exact absurd hread (by decide)
  · intro hall
    have hchecks := mixed_checks (fun _ => false) (some [7]) (fun op h => (by cases h))
    have hworks : ∀ restoring, ¬ WriteFails (fun _ => false) restoring := by
      rintro restoring (⟨h, -⟩ | h | h | h) <;> exact absurd h (by decide)
    have hread := (RestoreSafe.of_allOrNothing hall [1] [2] hchecks (hworks _)).2 (hworks _)
    exact absurd hread (by decide)

end Mixed

end SuiId

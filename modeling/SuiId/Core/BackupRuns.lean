import SuiId.Core.KeyFiles
import SuiId.Store.Tar

/-!
# Backups beside a rotation

`run_backup` of `backup/ops.rs`, as a process beside those of `KeyFiles`.  It takes its
copy of the database with one statement and its copy of the key file with one read, and
holds no lock between them.  `BackupStage` names the one that comes next.

What it does with the two copies afterwards depends on nothing that another process
changes: the archive is written by `writeArchive`.  Here that work is part of the last
step, which fails or returns the pair.
-/

namespace SuiId

open Lib

/-- The two copies that go into an archive, the key as the text of its file. -/
structure BackupPair where
  db : Database
  key : String

/-- The copy that comes next. -/
inductive BackupStage where
  /-- `VACUUM INTO`. -/
  | vacuum
  /-- The key file, for a copy of the database. -/
  | readKey (snapshot : Database)

/-- The files, the processes and the runs of `backup create`. -/
structure BackupWorld where
  keys : KeyWorld
  /-- The runs of `run_backup`, in the order in which they were begun. -/
  backups : List (Option BackupStage)

/-- A step of a run, or one of another process. -/
inductive BackupEvent where
  /-- A step of a server, a command or a rotation. -/
  | key (e : KeyEvent)
  /-- A backup is begun, to a destination that is there or not. -/
  | begin (destExists : Bool)
  /-- A backup takes its next step, in which a call may fail. -/
  | next (i : Nat) (fails : Option BackupError)
  /-- It stops. -/
  | stop (i : Nat)

/-- What `run_backup` has returned, if it has. -/
abbrev BackupAnswer := Option (Except BackupError BackupPair)

/-- A step of a backup: what is left of it, and what it returns. -/
def BackupStage.next (fails : Option BackupError) (w : KeyWorld) :
    BackupStage → Option BackupStage × BackupAnswer
  | .vacuum =>
    match fails with
    | some e => (none, some (.error e))
    | none => (some (.readKey w.db), none)
  | .readKey snapshot =>
    match fails, w.files.keyFile with
    | some e, _ => (none, some (.error e))
    | none, none => (none, some (.error .readKeyFile))
    | none, some key => (none, some (.ok ⟨snapshot, key⟩))

/-- One step of the processes. -/
def backupStep (P : Primitives) (B : Base64) (w : BackupWorld) :
    BackupEvent → BackupWorld × BackupAnswer
  | .key e => ({ w with keys := (keyStep P B w.keys e).1 }, none)
  | .begin destExists =>
    if destExists then (w, some (.error .destinationExists))
    else if w.keys.files.keyFile.isNone then (w, some (.error .keyFileMissing))
    else ({ w with backups := w.backups ++ [some .vacuum] }, none)
  | .next i fails =>
    match w.backups[i]? with
    | some (some stage) =>
      let (left, answer) := stage.next fails w.keys
      ({ w with backups := w.backups.set i left }, answer)
    | _ => (w, none)
  | .stop i => ({ w with backups := w.backups.set i none }, none)

end SuiId

import SuiId.Store.Migrations
import SuiId.Lib.Machine

/-!
# Processes that migrate one database file

`migrations::run`, cut at its transactions.  Any number of processes, each of some build,
run on one file: a process starts, takes its next transaction or its next check, returns,
or stops.  A process that stops inside a transaction leaves the file as it was, so it is
one that stops before it.

`commits` and `leftBy` are history: no operation reads them.
-/

namespace SuiId

open Lib

/-! ## One process -/

/-- Where a process stands in `run`. -/
inductive RunStage where
  /-- Before the first transaction. -/
  | opening
  /-- The migrations of the loop that are left. -/
  | applying (todo : List Migration)
  /-- A marked migration is committed, and its check is next. -/
  | checking (m : Migration) (todo : List Migration)
deriving DecidableEq

/-- A process that migrates. -/
structure Runner where
  build : Build
  /-- Whether the connection enforces foreign keys. -/
  foreignKeys : Bool
  stage : RunStage

/-- What a step makes of a process. -/
inductive MigrateProgress where
  | running (r : Runner)
  | returned (result : Except MigrateError Unit)

/-- A step of one process: the file after it, the process after it, and what it committed. -/
structure RunnerStep (D : Type) where
  file : DbFile D
  progress : MigrateProgress
  committed : Option Migration

section Runner

variable {D : Type} (S : Sqlite D)

/-- `apply_migration` up to its check. -/
def Runner.apply (r : Runner) (fails : Statement → Bool) (m : Migration) (todo : List Migration)
    (f : DbFile D) : RunnerStep D :=
  if m.needsFkDisable ∧ fails .pragmaOff then ⟨f, .returned (.error .db), none⟩
  else
    -- The pragma is outside the transaction, so it takes effect.
    match migrationTx S r.build fails (r.foreignKeys && !m.needsFkDisable) m f with
    | .error e => ⟨f, .returned (.error e), none⟩
    | .ok applied =>
      -- An error of `PRAGMA foreign_keys = ON` is ignored.
      let foreignKeys := if m.needsFkDisable then !fails .pragmaOn else r.foreignKeys
      match applied with
      | none => ⟨f, .running { r with foreignKeys, stage := .applying todo }, none⟩
      | some f' =>
        let stage := if m.needsFkDisable then .checking m todo else .applying todo
        ⟨f', .running { r with foreignKeys, stage }, some m⟩

/-- The next step of `run`. -/
def Runner.next (r : Runner) (fails : Statement → Bool) (f : DbFile D) : RunnerStep D :=
  match r.stage with
  | .opening =>
    match openingTx S r.build fails f with
    | .error e => ⟨f, .returned (.error e), none⟩
    | .ok (f', stored) =>
      ⟨f', .running { r with stage := .applying (r.build.pending stored) }, none⟩
  | .applying [] => ⟨f, .returned (.ok ()), none⟩
  | .applying (m :: todo) => r.apply S fails m todo f
  | .checking m todo =>
    match checkRebuild S fails m f with
    | .error e => ⟨f, .returned (.error e), none⟩
    | .ok () => ⟨f, .running { r with stage := .applying todo }, none⟩

end Runner

/-! ## All of them -/

/-- The file and the runners. -/
structure MigrationWorld (D : Type) where
  file : DbFile D
  /-- The runs that were started; `none` when one is over. -/
  runners : List (Option Runner)
  /-- The migrations that were committed, each with its run. -/
  commits : List (Nat × Migration)
  /-- The run whose marked migration left a violation that is still there. -/
  leftBy : Option Nat

/-- A step of a runner. -/
inductive MigrationEvent where
  /-- A process opens the file and calls `run`. -/
  | start (build : Build)
  | next (i : Nat) (fails : Statement → Bool)
  | stop (i : Nat)

/-- The result, when the step is the one in which `run` returns. -/
abbrev RunAnswer := Option (Except MigrateError Unit)

section World

variable {D : Type} (S : Sqlite D)

/-- The run, unless it is over. -/
def MigrationWorld.runner? (w : MigrationWorld D) (i : Nat) : Option Runner :=
  (w.runners[i]?).join

/-- Who has left a violation, after a commit. -/
def leftAfter (i : Nat) (m : Migration) (f' : DbFile D) (before : Option Nat) : Option Nat :=
  match S.foreignKeyCheck f'.contents with
  | none => none
  | some _ => if m.needsFkDisable then some i else before

/-- Take over the step of a run. -/
def MigrationWorld.took (w : MigrationWorld D) (i : Nat) (s : RunnerStep D) :
    MigrationWorld D × RunAnswer :=
  let w' := { w with
    file := s.file
    commits := w.commits ++ (s.committed.map fun m => (i, m)).toList
    leftBy := match s.committed with
      | none => w.leftBy
      | some m => leftAfter S i m s.file w.leftBy }
  match s.progress with
  | .running r => ({ w' with runners := w.runners.set i (some r) }, none)
  | .returned result => ({ w' with runners := w.runners.set i none }, some result)

/-- One step of the system. -/
def migrationStep (w : MigrationWorld D) : MigrationEvent → MigrationWorld D × RunAnswer
  | .start build =>
    ({ w with runners := w.runners ++ [some ⟨build, true, .opening⟩] }, none)
  | .next i fails =>
    match w.runner? i with
    | none => (w, none)
    | some r => w.took S i (r.next S fails w.file)
  | .stop i => ({ w with runners := w.runners.set i none }, none)

/-- A file on which no process runs. -/
def MigrationWorld.quiescent (f : DbFile D) : MigrationWorld D := ⟨f, [], [], none⟩

end World

end SuiId

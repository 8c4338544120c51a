import SuiId.Store.Sealed
import SuiId.Lib.Machine

/-!
# The files of the master key

`keyring.rs`, and `run_admin_rotate_key` of `cli.rs`: where a process takes the master
key from, and how a rotation stages, re-seals and swaps.

The state is what survives a process: the key file, the files beside it, and the
database.  A process that works on them takes one effect at a time and may stop before
any of them, so `KeyStage` names the effect that comes next.  One such process runs at a
time.  Processes that have the database open commit in between.

The directory and the permissions of the files are left out, and so are the texts of the
errors: a process that fails has stopped.
-/

namespace SuiId

open Lib

/-! ## Keys as texts -/

/-- `base64ct::Base64`: the standard alphabet, padded. -/
structure Base64 where
  encode : Bytes → String
  decode : String → Option Bytes

/-- What the keyring relies on it for. -/
structure Base64.Lawful (B : Base64) : Prop where
  decode_encode : ∀ bytes, B.decode (B.encode bytes) = some bytes
  decode_empty : B.decode "" = some []
  /-- No character of an encoded text is white space. -/
  graphic : ∀ bytes, ∀ c ∈ (B.encode bytes).toList, Text.isWhitespace c = false

/-- `MasterKey::from_base64`. -/
def MasterKey.fromBase64 (B : Base64) (s : String) : Option MasterKey :=
  match B.decode (Text.trim s) with
  | none => none
  | some bytes => if h : bytes.length = 32 then some ⟨bytes, h⟩ else none

/-- `MasterKey::to_base64`. -/
def MasterKey.toBase64 (B : Base64) (key : MasterKey) : String := B.encode key.bytes

/-! ## Files -/

/-- The texts of the files. -/
structure KeyFiles where
  keyFile : Option String
  /-- `key_file.new`. -/
  staged : Option String
  /-- `key_file.bak.<timestamp>`, by the second of the name. -/
  backups : List (Int × String)
deriving DecidableEq

/-- How `resolve` ends. -/
inductive Resolved where
  | found (key : MasterKey)
  /-- There is none yet: generate one and write it to the key file. -/
  | generate
  | malformed
deriving DecidableEq

/-- The key of a text, or an error. -/
def Resolved.ofText (B : Base64) (text : String) : Resolved :=
  match MasterKey.fromBase64 B (Text.trim text) with
  | some key => .found key
  | none => .malformed

/-- `keyring::resolve`: `SUI_ID_MASTER_KEY`, then the key file. -/
def Keyring.resolve (B : Base64) (env : Option String) (files : KeyFiles) : Resolved :=
  match env with
  | some text => .ofText B text
  | none =>
    match files.keyFile with
    | some text => .ofText B text
    | none => .generate

/-! ## Processes -/

/-- What a run of `admin rotate-key` is given, and what it draws. -/
structure Rotation where
  /-- The text of the `--new-key` file. -/
  newKeyFile : Option String
  generated : MasterKey
  nonces : ResealNonces
  /-- The second in the name of the archived key. -/
  stamp : Int

/-- `(new_key, new_key_b64)`. -/
def Rotation.newKey (B : Base64) (r : Rotation) : Option (MasterKey × String) :=
  match r.newKeyFile with
  | some raw => (MasterKey.fromBase64 B raw).map fun key => (key, Text.trim raw)
  | none => some (r.generated, r.generated.toBase64 B)

/-- What a process resolves the key for. -/
inductive KeyUse where
  /-- Open the database: the server, or another command. -/
  | serve
  | rotate (r : Rotation)

/-- The effect that comes next. -/
inductive KeyStage where
  /-- `write_key_file` of `resolve`: create the file, write the text, end the line. -/
  | create (use : KeyUse) (key : MasterKey)
  | writeKey (use : KeyUse) (key : MasterKey)
  | endKey (use : KeyUse) (key : MasterKey)
  /-- `write_key_file` of the rotation. -/
  | createStaged (r : Rotation) (oldKey newKey : MasterKey) (text : String)
  | writeStaged (r : Rotation) (oldKey newKey : MasterKey) (text : String)
  | endStaged (r : Rotation) (oldKey newKey : MasterKey)
  | reseal (r : Rotation) (oldKey newKey : MasterKey)
  /-- Rename the key file to its backup. -/
  | archive (r : Rotation)
  /-- Rename the staged file to the key file. -/
  | install
  /-- Append `admin.master_key.rotated`. -/
  | record

/-- The files, the database, the keys in memory, and the next effect. -/
structure KeyWorld where
  files : KeyFiles
  db : Database
  /-- The keys of the processes that have the database open. -/
  handles : List MasterKey
  /-- The process that works on the key files. -/
  stage : Option KeyStage

/-- A step of a process. -/
inductive KeyEvent where
  /-- A server or a command starts: the variable, and the key it would generate. -/
  | start (env : Option String) (fresh : MasterKey)
  | rotate (env : Option String) (fresh : MasterKey) (r : Rotation)
  /-- The process that works on the key files takes its next step. -/
  | advance
  /-- It stops. -/
  | stop
  /-- A process that has the database open commits. -/
  | write (handle : Nat) (db : Database)
  | close (handle : Nat)

/-- The value opens under the key. -/
def SealedCell.opens (P : Primitives) (key : MasterKey) (c : SealedCell) : Bool :=
  (openBytes P key c.value c.aad).toOption.isSome

/-- Every sealed value of the new database was there before or opens under the key: a
process seals with the key that it has opened the database with. -/
def writesUnder (P : Primitives) (key : MasterKey) (db db' : Database) : Bool :=
  ((coveredCells db').all fun c => decide (c ∈ coveredCells db) || c.opens P key) &&
    (uncoveredCells db').all fun c => decide (c ∈ uncoveredCells db) || c.opens P key

section Steps

variable (P : Primitives) (B : Base64)

/-- The process has its key. -/
def KeyWorld.resolved (w : KeyWorld) (key : MasterKey) : KeyUse → KeyWorld
  | .serve => { w with handles := key :: w.handles, stage := none }
  | .rotate r =>
    match r.newKey B with
    | some (newKey, text) => { w with stage := some (.createStaged r key newKey text) }
    | none => { w with stage := none }

/-- `resolve`, up to the file it may have to write. -/
def KeyWorld.begin (w : KeyWorld) (env : Option String) (fresh : MasterKey) (use : KeyUse) :
    KeyWorld :=
  match Keyring.resolve B env w.files with
  | .found key => w.resolved B key use
  | .generate => { w with stage := some (.create use fresh) }
  | .malformed => w

/-- The next effect of the process that works on the key files. -/
def KeyWorld.advance (w : KeyWorld) : KeyStage → KeyWorld
  | .create use key =>
    -- `create_new` fails on a file that is there.
    match w.files.keyFile with
    | some _ => { w with stage := none }
    | none => { w with
        files := { w.files with keyFile := some "" }, stage := some (.writeKey use key) }
  | .writeKey use key => { w with
      files := { w.files with keyFile := w.files.keyFile.map (· ++ key.toBase64 B) }
      stage := some (.endKey use key) }
  | .endKey use key =>
    { w with files := { w.files with keyFile := w.files.keyFile.map (· ++ "\n") } }.resolved B key
      use
  | .createStaged r oldKey newKey text =>
    match w.files.staged with
    | some _ => { w with stage := none }
    | none => { w with
        files := { w.files with staged := some "" }
        stage := some (.writeStaged r oldKey newKey text) }
  | .writeStaged r oldKey newKey text => { w with
      files := { w.files with staged := w.files.staged.map (· ++ text) }
      stage := some (.endStaged r oldKey newKey) }
  | .endStaged r oldKey newKey => { w with
      files := { w.files with staged := w.files.staged.map (· ++ "\n") }
      stage := some (.reseal r oldKey newKey) }
  | .reseal r oldKey newKey =>
    match resealMasterKey P oldKey newKey r.nonces w.db with
    | .ok (_, db) => { w with db, stage := some (.archive r) }
    | .error _ => { w with stage := none }
  | .archive r =>
    match w.files.keyFile with
    | some text => { w with
        files := { w.files with
          keyFile := none
          backups := (r.stamp, text) :: w.files.backups.filter fun b => b.1 != r.stamp }
        stage := some .install }
    | none => { w with stage := none }
  | .install =>
    match w.files.staged with
    | some text => { w with
        files := { w.files with keyFile := some text, staged := none }
        stage := some .record }
    | none => { w with stage := none }
  | .record =>
    -- Its note, which names the two files, is left out.
    let row : AuditLogRow := ⟨none, "admin.master_key.rotated", none, .ok, []⟩
    { w with db := { w.db with auditLog := w.db.auditLog ++ [row] }, stage := none }

/-- One step of the processes. -/
def keyStep (w : KeyWorld) : KeyEvent → KeyWorld × Unit
  | .start env fresh =>
    match w.stage with
    | some _ => (w, ())
    | none => (w.begin B env fresh .serve, ())
  | .rotate env fresh r =>
    match w.stage, w.files.staged with
    -- The staged file of another rotation refuses this one.
    | none, none => (w.begin B env fresh (.rotate r), ())
    | _, _ => (w, ())
  | .advance =>
    match w.stage with
    | some stage => (w.advance P B stage, ())
    | none => (w, ())
  | .stop => ({ w with stage := none }, ())
  | .write handle db =>
    match w.handles[handle]? with
    | some key => if writesUnder P key w.db db then ({ w with db }, ()) else (w, ())
    | none => (w, ())
  | .close handle => ({ w with handles := w.handles.eraseIdx handle }, ())

end Steps

/-- `SUI_ID_MASTER_KEY` as the process of the event finds it. -/
def KeyEvent.env : KeyEvent → Option String
  | .start env _ | .rotate env _ _ => env
  | _ => none

end SuiId

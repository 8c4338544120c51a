import SuiId.Core.KeyFiles
import SuiId.Lib.Base64
import SuiId.Proofs.KeyRotation

/-!
# Where the master key is kept

* `files_kept`: no step of a rotation or of a start loses a key that is in one of the
  files.  A file is created only where there is none, and the two renames each find their
  target free.
* `master_key_recoverable`: wherever the processes stop, the key of every value of the
  tables K07 covers is in one of the files.
-/

namespace SuiId

open Lib Lib.Machine Lib.Result

variable {P : Primitives} {B : Base64}

/-! ## Keys in files -/

/-- The key is the content of one of the files. -/
def KeyFiles.Holds (B : Base64) (files : KeyFiles) (key : MasterKey) : Prop :=
  files.keyFile.bind (MasterKey.fromBase64 B) = some key ∨
    files.staged.bind (MasterKey.fromBase64 B) = some key ∨
    ∃ b ∈ files.backups, MasterKey.fromBase64 B b.2 = some key

/-- The text is a key without white space around it. -/
def KeyText (B : Base64) (text : String) (key : MasterKey) : Prop :=
  Text.trim text = text ∧ MasterKey.fromBase64 B text = some key

@[simp] theorem fromBase64_trim (s : String) :
    MasterKey.fromBase64 B (Text.trim s) = MasterKey.fromBase64 B s := by
  rw [MasterKey.fromBase64, MasterKey.fromBase64, Text.trim_trim]

theorem fromBase64_empty (hB : B.Lawful) : MasterKey.fromBase64 B "" = none := by
  have htrim : Text.trim "" = "" := by decide
  simp [MasterKey.fromBase64, htrim, hB.decode_empty]

theorem keyText_toBase64 (hB : B.Lawful) (key : MasterKey) : KeyText B (key.toBase64 B) key := by
  have htrim : Text.trim (key.toBase64 B) = key.toBase64 B :=
    Text.trim_of_graphic (hB.graphic key.bytes)
  refine ⟨htrim, ?_⟩
  rw [MasterKey.fromBase64, htrim, MasterKey.toBase64, hB.decode_encode]
  simp [key.length_eq]

variable {newKey key' : MasterKey} {text : String} {db db' : Database} {e : KeyEvent}

/-- What is staged is the new key. -/
theorem Rotation.keyText (hB : B.Lawful) {r : Rotation} (h : r.newKey B = some (newKey, text)) :
    KeyText B text newKey := by
  unfold Rotation.newKey at h
  split at h
  · rename_i raw _
    simp only [Option.map_eq_some_iff, Prod.mk.injEq] at h
    obtain ⟨key, hkey, rfl, rfl⟩ := h
    exact ⟨Text.trim_trim raw, by rw [fromBase64_trim, hkey]⟩
  · cases h
    exact keyText_toBase64 hB _

variable {key fresh : MasterKey} {w : KeyWorld} {use : KeyUse} {stage : KeyStage} {c : SealedCell}

/-- The end of the line does not change it. -/
theorem KeyText.endLine (h : KeyText B text key) :
    MasterKey.fromBase64 B (text ++ "\n") = some key := by
  rw [← fromBase64_trim, Text.trim_newline h.1, h.2]

/-! ## What a step can do -/

/-- The ways a step goes. -/
inductive KeyMove (P : Primitives) (B : Base64) (w : KeyWorld) (e : KeyEvent) (w' : KeyWorld) :
    Prop where
  | idle (h : w' = w)
  | start (fresh : MasterKey) (he : e = .start e.env fresh) (hstage : w.stage = none)
      (h : w' = w.begin B e.env fresh .serve)
  | rotate (fresh : MasterKey) (r : Rotation) (he : e = .rotate e.env fresh r)
      (hstage : w.stage = none) (hstaged : w.files.staged = none)
      (h : w' = w.begin B e.env fresh (.rotate r))
  | advance {stage : KeyStage} (hstage : w.stage = some stage) (h : w' = w.advance P B stage)
  | stop (h : w' = { w with stage := none })
  | write (key : MasterKey) (db : Database) (hkey : key ∈ w.handles)
      (hwrites : writesUnder P key w.db db = true) (h : w' = { w with db })
  | close (handle : Nat) (h : w' = { w with handles := w.handles.eraseIdx handle })

theorem keyStep_move (P : Primitives) (B : Base64) (w : KeyWorld) (e : KeyEvent) :
    KeyMove P B w e (keyStep P B w e).1 := by
  cases e with
  | start env fresh =>
    cases hstage : w.stage with
    | some stage => exact .idle (by simp only [keyStep, hstage])
    | none => exact .start fresh rfl hstage (by simp only [keyStep, hstage, KeyEvent.env])
  | rotate env fresh r =>
    cases hstage : w.stage with
    | some stage => exact .idle (by simp only [keyStep, hstage])
    | none =>
      cases hstaged : w.files.staged with
      | some text => exact .idle (by simp only [keyStep, hstage, hstaged])
      | none =>
        exact .rotate fresh r rfl hstage hstaged
          (by simp only [keyStep, hstage, hstaged, KeyEvent.env])
  | advance =>
    cases hstage : w.stage with
    | none => exact .idle (by simp only [keyStep, hstage])
    | some stage => exact .advance hstage (by simp only [keyStep, hstage])
  | stop => exact .stop rfl
  | write handle db =>
    cases hkey : w.handles[handle]? with
    | none => exact .idle (by simp only [keyStep, hkey])
    | some key =>
      cases hwrites : writesUnder P key w.db db with
      | false => exact .idle (by simp [keyStep, hkey, hwrites])
      | true =>
        exact .write key db (List.mem_of_getElem? hkey) hwrites (by simp [keyStep, hkey, hwrites])
  | close handle => exact .close handle rfl

theorem writesUnder_cells (h : writesUnder P key db db' = true) :
    (∀ c ∈ coveredCells db', c ∈ coveredCells db ∨ c.opens P key = true) ∧
      ∀ c ∈ uncoveredCells db', c ∈ uncoveredCells db ∨ c.opens P key = true := by
  simpa only [writesUnder, Bool.and_eq_true, List.all_eq_true, Bool.or_eq_true,
    decide_eq_true_eq] using h

/-! ## What the processes have written -/

/-- No archive has the name that the rotation will use. -/
def Rotation.Fresh (files : KeyFiles) (r : Rotation) : Prop := ∀ b ∈ files.backups, b.1 ≠ r.stamp

def KeyUse.Fresh (files : KeyFiles) : KeyUse → Prop
  | .serve => True
  | .rotate r => r.Fresh files

/-- What the files hold before the effect. -/
def KeyStage.Ready (B : Base64) (files : KeyFiles) : KeyStage → Prop
  | .create use _ => use.Fresh files
  | .writeKey use _ => use.Fresh files ∧ files.keyFile = some ""
  | .endKey use key => use.Fresh files ∧ files.keyFile = some (key.toBase64 B)
  | .createStaged r _ newKey text => r.Fresh files ∧ KeyText B text newKey
  | .writeStaged r _ newKey text =>
    r.Fresh files ∧ KeyText B text newKey ∧ files.staged = some ""
  | .endStaged r _ newKey =>
    r.Fresh files ∧ ∃ text, files.staged = some text ∧ KeyText B text newKey
  | .reseal r _ newKey =>
    r.Fresh files ∧ files.staged.bind (MasterKey.fromBase64 B) = some newKey
  | .archive r => r.Fresh files
  | .install => files.keyFile = none
  | .record => True

/-- The process has written what it has said. -/
def KeyWorld.Ready (B : Base64) (w : KeyWorld) : Prop := ∀ stage ∈ w.stage, stage.Ready B w.files

/-- A rotation does not use the timestamp of an archive. -/
def KeyEvent.freshStamp (w : KeyWorld) : KeyEvent → Bool
  | .rotate _ _ r => w.files.backups.all fun b => b.1 != r.stamp
  | _ => true

theorem resolved_files (w : KeyWorld) (key : MasterKey) (use : KeyUse) :
    (w.resolved B key use).files = w.files ∧ (w.resolved B key use).db = w.db := by
  cases use with
  | serve => exact ⟨rfl, rfl⟩
  | rotate r =>
    cases hnew : r.newKey B with
    | none => simp only [KeyWorld.resolved, hnew, and_self]
    | some new => simp only [KeyWorld.resolved, hnew, and_self]

theorem begin_files (w : KeyWorld) (env : Option String) (fresh : MasterKey) (use : KeyUse) :
    (w.begin B env fresh use).files = w.files ∧ (w.begin B env fresh use).db = w.db := by
  unfold KeyWorld.begin
  split
  · exact resolved_files w _ use
  · exact ⟨rfl, rfl⟩
  · exact ⟨rfl, rfl⟩

theorem resolved_ready (hB : B.Lawful) (hfresh : use.Fresh w.files) :
    (w.resolved B key use).Ready B := by
  intro stage hstage
  cases use with
  | serve => cases hstage
  | rotate r =>
    cases hnew : r.newKey B with
    | none =>
      simp only [KeyWorld.resolved, hnew] at hstage
      cases hstage
    | some new =>
      simp only [KeyWorld.resolved, hnew] at hstage ⊢
      cases hstage
      exact ⟨hfresh, Rotation.keyText hB hnew⟩

theorem begin_ready (hB : B.Lawful) {env : Option String} (hfresh : use.Fresh w.files)
    (hstage : w.stage = none) :
    (w.begin B env fresh use).Ready B := by
  unfold KeyWorld.begin
  split
  · exact resolved_ready hB hfresh
  · intro stage h
    cases h
    exact hfresh
  · intro stage h
    rw [hstage] at h
    cases h

/-! ## No step loses a key -/

theorem KeyUse.Fresh.congr {files files' : KeyFiles} (h : use.Fresh files)
    (hbackups : files'.backups = files.backups) : use.Fresh files' := by
  cases use with
  | serve => trivial
  | rotate r =>
    intro b hb
    rw [hbackups] at hb
    exact h b hb

/-- The next effect loses no key of the files. -/
theorem advance_holds (hB : B.Lawful) (hready : stage.Ready B w.files)
    (hheld : w.files.Holds B key) :
    (w.advance P B stage).files.Holds B key := by
  cases stage with
  | create use key' =>
    cases hfile : w.files.keyFile with
    | some text =>
      simp only [KeyWorld.advance, hfile]
      exact hheld
    | none =>
      simp only [KeyWorld.advance, hfile]
      rcases hheld with hheld | hheld
      · rw [hfile] at hheld
        cases hheld
      · exact .inr hheld
  | writeKey use key' =>
    rcases hheld with hheld | hheld
    · -- The file was empty.
      rw [hready.2, Option.bind_some, fromBase64_empty hB] at hheld
      cases hheld
    · exact .inr hheld
  | endKey use key' =>
    have hkept : (w.files.keyFile.map (· ++ "\n")).bind (MasterKey.fromBase64 B) =
        w.files.keyFile.bind (MasterKey.fromBase64 B) := by
      have htext := keyText_toBase64 hB key'
      rw [hready.2, Option.map_some, Option.bind_some, Option.bind_some, htext.endLine, htext.2]
    rw [KeyWorld.advance, (resolved_files _ _ _).1]
    rcases hheld with hheld | hheld
    · exact .inl (hkept.trans hheld)
    · exact .inr hheld
  | createStaged r oldKey newKey text =>
    cases hstaged : w.files.staged with
    | some text =>
      simp only [KeyWorld.advance, hstaged]
      exact hheld
    | none =>
      simp only [KeyWorld.advance, hstaged]
      rcases hheld with hheld | hheld | hheld
      · exact .inl hheld
      · rw [hstaged] at hheld
        cases hheld
      · exact .inr (.inr hheld)
  | writeStaged r oldKey newKey text =>
    rcases hheld with hheld | hheld | hheld
    · exact .inl hheld
    · rw [hready.2.2, Option.bind_some, fromBase64_empty hB] at hheld
      cases hheld
    · exact .inr (.inr hheld)
  | endStaged r oldKey newKey =>
    obtain ⟨-, text, hstaged, htext⟩ := hready
    have hkept : (w.files.staged.map (· ++ "\n")).bind (MasterKey.fromBase64 B) =
        w.files.staged.bind (MasterKey.fromBase64 B) := by
      rw [hstaged, Option.map_some, Option.bind_some, Option.bind_some, htext.endLine, htext.2]
    rcases hheld with hheld | hheld | hheld
    · exact .inl hheld
    · exact .inr (.inl (hkept.trans hheld))
    · exact .inr (.inr hheld)
  | reseal r oldKey newKey =>
    cases hreseal : resealMasterKey P oldKey newKey r.nonces w.db with
    | ok result =>
      simp only [KeyWorld.advance, hreseal]
      exact hheld
    | error e =>
      simp only [KeyWorld.advance, hreseal]
      exact hheld
  | archive r =>
    cases hfile : w.files.keyFile with
    | none =>
      simp only [KeyWorld.advance, hfile]
      exact hheld
    | some text =>
      simp only [KeyWorld.advance, hfile]
      rcases hheld with hheld | hheld | ⟨b, hb, hheld⟩
      · rw [hfile] at hheld
        exact .inr (.inr ⟨_, List.mem_cons_self, hheld⟩)
      · exact .inr (.inl hheld)
      · -- The name is new, so no archive is overwritten.
        have hother : (b.1 != r.stamp) = true := by simpa using hready b hb
        have hb' : b ∈ w.files.backups.filter fun b => b.1 != r.stamp :=
          List.mem_filter.mpr ⟨hb, hother⟩
        exact .inr (.inr ⟨b, List.mem_cons_of_mem _ hb', hheld⟩)
  | install =>
    cases hstaged : w.files.staged with
    | none =>
      simp only [KeyWorld.advance, hstaged]
      exact hheld
    | some text =>
      simp only [KeyWorld.advance, hstaged]
      rcases hheld with hheld | hheld | hheld
      · -- The key file has just been moved away.
        rw [show w.files.keyFile = none from hready] at hheld
        cases hheld
      · rw [hstaged] at hheld
        exact .inl hheld
      · exact .inr (.inr hheld)
  | record => exact hheld

/-- The process is ready for the effect after it. -/
theorem advance_ready (hB : B.Lawful) (hready : stage.Ready B w.files) :
    (w.advance P B stage).Ready B := by
  have hdone : ∀ w' : KeyWorld, w'.stage = none → w'.Ready B := by
    intro w' hnone stage hstage
    rw [hnone] at hstage
    cases hstage
  cases stage with
  | create use key =>
    cases hfile : w.files.keyFile with
    | some text =>
      simp only [KeyWorld.advance, hfile]
      exact hdone _ rfl
    | none =>
      simp only [KeyWorld.advance, hfile]
      intro stage hstage
      cases hstage
      exact ⟨KeyUse.Fresh.congr hready rfl, rfl⟩
  | writeKey use key =>
    intro stage hstage
    cases hstage
    refine ⟨KeyUse.Fresh.congr hready.1 rfl, ?_⟩
    simp [KeyWorld.advance, hready.2]
  | endKey use key => exact resolved_ready hB (KeyUse.Fresh.congr hready.1 rfl)
  | createStaged r oldKey newKey text =>
    cases hstaged : w.files.staged with
    | some text =>
      simp only [KeyWorld.advance, hstaged]
      exact hdone _ rfl
    | none =>
      simp only [KeyWorld.advance, hstaged]
      intro stage hstage
      cases hstage
      exact ⟨hready.1, hready.2, rfl⟩
  | writeStaged r oldKey newKey text =>
    intro stage hstage
    cases hstage
    refine ⟨hready.1, text, ?_, hready.2.1⟩
    simp [KeyWorld.advance, hready.2.2]
  | endStaged r oldKey newKey =>
    obtain ⟨hfresh, text, hstaged, htext⟩ := hready
    intro stage hstage
    cases hstage
    refine ⟨hfresh, ?_⟩
    simp [KeyWorld.advance, hstaged, htext.endLine]
  | reseal r oldKey newKey =>
    cases hreseal : resealMasterKey P oldKey newKey r.nonces w.db with
    | ok result =>
      simp only [KeyWorld.advance, hreseal]
      intro stage hstage
      cases hstage
      exact hready.1
    | error e =>
      simp only [KeyWorld.advance, hreseal]
      exact hdone _ rfl
  | archive r =>
    cases hfile : w.files.keyFile with
    | none =>
      simp only [KeyWorld.advance, hfile]
      exact hdone _ rfl
    | some text =>
      simp only [KeyWorld.advance, hfile]
      intro stage hstage
      cases hstage
      rfl
  | install =>
    cases hstaged : w.files.staged with
    | none =>
      simp only [KeyWorld.advance, hstaged]
      exact hdone _ rfl
    | some text =>
      simp only [KeyWorld.advance, hstaged]
      intro stage hstage
      cases hstage
      trivial
  | record => exact hdone _ rfl

/-! ## What the processes have sealed -/

/-- The key of every value of the tables that K07 goes through is in one of the files. -/
def Recoverable (P : Primitives) (B : Base64) (w : KeyWorld) : Prop :=
  ∀ c ∈ coveredCells w.db, ∃ key, c.opens P key = true ∧ w.files.Holds B key

/-- The key seals a value of these tables. -/
def Seals (P : Primitives) (db : Database) (key : MasterKey) : Prop :=
  ∃ c ∈ coveredCells db, c.opens P key = true

/-- Also the keys that processes have in memory are in the files. -/
structure KeysKept (P : Primitives) (B : Base64) (w : KeyWorld) : Prop where
  recoverable : Recoverable P B w
  handles : ∀ key ∈ w.handles, w.files.Holds B key
  ready : w.Ready B

theorem SealedCell.opens_iff :
    c.opens P key = true ↔ ∃ plain, openBytes P key c.value c.aad = .ok plain := by
  unfold SealedCell.opens
  cases openBytes P key c.value c.aad with
  | ok plain => simp [Except.toOption]
  | error e => simp [Except.toOption]

/-- A value opens under one key only. -/
theorem SealedCell.opens_unique (hP : P.Lawful) (h : c.opens P key = true)
    (h' : c.opens P key' = true) : key' = key := by
  obtain ⟨plain, hplain⟩ := opens_iff.mp h
  obtain ⟨plain', hplain'⟩ := opens_iff.mp h'
  by_contra hne
  rw [hP.open_other_key hplain hne] at hplain'
  cases hplain'

/-- After K07 the values of its tables open under the new key. -/
theorem opens_of_resealed (hP : P.Lawful) {oldKey : MasterKey} {nonce : ResealNonces}
    {report : RotationReport} (h : resealMasterKey P oldKey newKey nonce db = .ok (report, db')) :
    ∀ c ∈ coveredCells db', c.opens P newKey = true := by
  intro c' hc'
  obtain ⟨c, -, -, -, haad, plain, -, hopen⟩ :=
    exists_of_mem_right (coveredCells_resealed hP h) hc'
  rw [SealedCell.opens_iff, haad]
  exact ⟨plain, hopen⟩

theorem resolved_handles (h : key' ∈ (w.resolved B key use).handles) :
    key' = key ∨ key' ∈ w.handles := by
  cases use with
  | serve => exact List.mem_cons.mp h
  | rotate r =>
    cases hnew : r.newKey B with
    | none =>
      simp only [KeyWorld.resolved, hnew] at h
      exact .inr h
    | some new =>
      simp only [KeyWorld.resolved, hnew] at h
      exact .inr h

/-- A process that has resolved its key has it from a file or writes it to one. -/
theorem begin_handles (h : ∀ key ∈ w.handles, w.files.Holds B key) :
    ∀ key ∈ (w.begin B none fresh use).handles, w.files.Holds B key := by
  intro key hkey
  unfold KeyWorld.begin Keyring.resolve at hkey
  cases hfile : w.files.keyFile with
  | none =>
    rw [hfile] at hkey
    exact h key hkey
  | some text =>
    rw [hfile] at hkey
    simp only [Resolved.ofText, fromBase64_trim] at hkey
    cases htext : MasterKey.fromBase64 B text with
    | none =>
      rw [htext] at hkey
      exact h key hkey
    | some found =>
      rw [htext] at hkey
      rcases resolved_handles hkey with rfl | hkey
      · exact .inl (by rw [hfile]; exact htext)
      · exact h key hkey

/-- A stage gives handles only at its end, and changes sealed values only in K07. -/
private theorem advance_frame (w : KeyWorld) (stage : KeyStage) :
    (∃ use key, stage = .endKey use key) ∨
    (w.advance P B stage).handles = w.handles ∧
      (coveredCells (w.advance P B stage).db = coveredCells w.db ∨
        ∃ r oldKey newKey, stage = .reseal r oldKey newKey) := by
  cases stage with
  | endKey use key' => exact .inl ⟨use, key', rfl⟩
  | create | archive =>
    right
    cases hfile : w.files.keyFile <;> simp [KeyWorld.advance, hfile]
  | createStaged | install =>
    right
    cases hstaged : w.files.staged <;> simp [KeyWorld.advance, hstaged]
  | reseal r oldKey newKey =>
    right
    cases hreseal : resealMasterKey P oldKey newKey r.nonces w.db <;>
      simp [KeyWorld.advance, hreseal]
  | _ => exact .inr ⟨rfl, .inl rfl⟩

/-- The key a process gets by writing it is in its file. -/
theorem advance_handles (hB : B.Lawful) (hready : stage.Ready B w.files)
    (h : key ∈ (w.advance P B stage).handles) :
    key ∈ w.handles ∨ (w.advance P B stage).files.Holds B key := by
  rcases advance_frame (P := P) (B := B) w stage with ⟨use, key', rfl⟩ | ⟨hhandles, -⟩
  · rcases resolved_handles h with rfl | h
    · right
      rw [KeyWorld.advance, (resolved_files _ _ _).1]
      left
      rw [hready.2, Option.map_some, Option.bind_some]
      exact (keyText_toBase64 hB key).endLine
    · exact .inl h
  · exact .inl (hhandles ▸ h)

/-- Only K07 changes sealed values, and then the staged file has their key. -/
theorem advance_cells (hP : P.Lawful) (hready : stage.Ready B w.files)
    (h : c ∈ coveredCells (w.advance P B stage).db) :
    c ∈ coveredCells w.db ∨ ∃ key, c.opens P key = true ∧ w.files.Holds B key := by
  rcases advance_frame (P := P) (B := B) w stage with
    ⟨use, key', rfl⟩ | ⟨-, hcells | ⟨r, oldKey, newKey, rfl⟩⟩
  · rw [KeyWorld.advance, (resolved_files _ _ _).2] at h
    exact .inl h
  · exact .inl (hcells ▸ h)
  · cases hreseal : resealMasterKey P oldKey newKey r.nonces w.db with
    | ok result =>
      simp only [KeyWorld.advance, hreseal] at h
      exact .inr ⟨newKey, opens_of_resealed hP hreseal c h, .inr (.inl hready.2)⟩
    | error e =>
      left
      simpa only [KeyWorld.advance, hreseal] using h

theorem begin_kept (hB : B.Lawful) (hw : KeysKept P B w) (hstage : w.stage = none)
    (hfresh : use.Fresh w.files) :
    KeysKept P B (w.begin B none fresh use) := by
  obtain ⟨hfiles, hdb⟩ := begin_files (B := B) w none fresh use
  refine ⟨?_, ?_, begin_ready hB hfresh hstage⟩
  · unfold Recoverable
    rw [hfiles, hdb]
    exact hw.recoverable
  · rw [hfiles]
    exact begin_handles hw.handles

/-- Any step keeps the keys of the files. -/
theorem files_kept (hB : B.Lawful) (hready : w.Ready B) (hheld : w.files.Holds B key) :
    (keyStep P B w e).1.files.Holds B key := by
  cases keyStep_move P B w e with
  | idle h | stop h | write key db _ _ h | close handle h =>
    rw [h]
    exact hheld
  | start fresh _ hstage h =>
    rw [h, (begin_files _ _ _ _).1]
    exact hheld
  | rotate fresh r _ hstage _ h =>
    rw [h, (begin_files _ _ _ _).1]
    exact hheld
  | advance hstage h =>
    rw [h]
    exact advance_holds hB (hready _ hstage) hheld

/-- Any step keeps the keys of the sealed values in the files. -/
theorem keyStep_kept (hP : P.Lawful) (hB : B.Lawful) (hw : KeysKept P B w) (henv : e.env = none)
    (hstamp : e.freshStamp w = true) :
    KeysKept P B (keyStep P B w e).1 := by
  cases keyStep_move P B w e with
  | idle h =>
    rw [h]
    exact hw
  | start fresh _ hstage h =>
    rw [h, henv]
    exact begin_kept hB hw hstage trivial
  | rotate fresh r he hstage _ h =>
    rw [h, henv]
    refine begin_kept hB hw hstage ?_
    intro b hb
    rw [he] at hstamp
    simpa using List.all_eq_true.mp hstamp b hb
  | advance hstage h =>
    have hready := hw.ready _ hstage
    rw [h]
    refine ⟨?_, ?_, advance_ready hB hready⟩
    · intro c hc
      obtain ⟨key, hopens, hheld⟩ : ∃ key, c.opens P key = true ∧ w.files.Holds B key := by
        rcases advance_cells hP hready hc with hc | hkey
        · exact hw.recoverable c hc
        · exact hkey
      exact ⟨key, hopens, advance_holds hB hready hheld⟩
    · intro key hkey
      rcases advance_handles hB hready hkey with hkey | hheld
      · exact advance_holds hB hready (hw.handles key hkey)
      · exact hheld
  | stop h =>
    rw [h]
    refine ⟨hw.recoverable, hw.handles, ?_⟩
    intro stage hstage
    cases hstage
  | write key db hkey hwrites h =>
    rw [h]
    refine ⟨?_, hw.handles, hw.ready⟩
    intro c hc
    rcases (writesUnder_cells hwrites).1 c hc with hold | hopens
    · exact hw.recoverable c hold
    · exact ⟨key, hopens, hw.handles key hkey⟩
  | close handle h =>
    rw [h]
    refine ⟨hw.recoverable, ?_, hw.ready⟩
    intro key hkey
    exact hw.handles key (List.mem_of_mem_eraseIdx hkey)

/-- However starts and rotations stop and are followed by others, while the variable is
unset and no two rotations archive under one name: the key of every value of the tables that
K07 covers is in one of the files, and no step takes it out of them. -/
theorem master_key_recoverable (hP : P.Lawful) (hB : B.Lawful) {w : KeyWorld}
    (hrest : w.stage = none ∧ w.handles = []) (hw : Recoverable P B w) {events : List KeyEvent}
    (henv : ∀ e ∈ events, e.env = none)
    (hstamps : Guarded (keyStep P B) (fun w e => e.freshStamp w = true) w events) :
    Recoverable P B (run (keyStep P B) w events) ∧
      ∀ x ∈ trace (keyStep P B) w events, ∀ key, Seals P x.pre.db key →
        x.pre.files.Holds B key ∧ (keyStep P B x.pre x.event).1.files.Holds B key := by
  have hstart : KeysKept P B w := by
    refine ⟨hw, ?_, ?_⟩
    · rw [hrest.2]
      intro key hkey
      cases hkey
    · intro stage hstage
      rw [hrest.1] at hstage
      cases hstage
  have hguard := (guarded_of_forall henv).and hstamps
  have hstep : ∀ w e, KeysKept P B w → (e.env = none ∧ e.freshStamp w = true) →
      KeysKept P B (keyStep P B w e).1 :=
    fun w e hw h => keyStep_kept hP hB hw h.1 h.2
  refine ⟨(run_invariant hstep hguard hstart).recoverable, ?_⟩
  rintro x hx key ⟨c, hc, hopens⟩
  obtain ⟨hpre, -, -⟩ := trace_invariant hstep hguard hstart hx
  obtain ⟨key', hopens', hheld⟩ := hpre.recoverable c hc
  rw [SealedCell.opens_unique hP hopens hopens'] at hheld
  exact ⟨hheld, files_kept hB hpre.ready hheld⟩

/-! ## An installation -/

/-- `base64ct::Base64`, on the bytes of the texts. -/
def Base64.standard : Base64 where
  encode bytes := String.ofList ((Lib.Base64.encode bytes).map fun b => Char.ofNat b.toNat)
  decode text := Lib.Base64.decode (utf8 text)

private theorem graphic_of_plain : ∀ b : UInt8,
    FormUrl.isAlphanumeric b ∨ b = 43 ∨ b = 47 ∨ b = 61 →
      b < 0x80 ∧ Text.isWhitespace (Char.ofNat b.toNat) = false := by
  apply FormUrl.forall_byte
  decide +kernel

theorem Base64.standard_lawful : Base64.standard.Lawful where
  decode_encode bytes := by
    simp only [standard]
    rw [utf8_ofList, FormUrl.utf8Encode_of_ascii fun b hb =>
      (graphic_of_plain b (Lib.Base64.mem_encode hb)).1, Lib.Base64.decode_encode]
  decode_empty := by decide +kernel
  graphic bytes c hc := by
    simp only [standard, String.toList_ofList, List.mem_map] at hc
    obtain ⟨b, hb, rfl⟩ := hc
    exact (graphic_of_plain b (Lib.Base64.mem_encode hb)).2

/-- Nothing is there yet. -/
def KeyWorld.empty : KeyWorld := ⟨⟨none, none, []⟩, Database.empty, [], none⟩

def sampleRotation : Rotation := ⟨none, MasterKey.constant 8, sampleNonces, 100⟩

/-- The first start generates a key, the server seals two values and stops, and a rotation
is begun. -/
def firstRotation : List KeyEvent :=
  [.start none (MasterKey.constant 7), .advance, .advance, .advance, .write 0 sealedDb, .close 0,
    .rotate none (MasterKey.constant 9) sampleRotation, .advance, .advance, .advance]

/-- It stops with the database re-sealed, and a start and a second rotation follow. -/
def recoveryRun : List KeyEvent :=
  firstRotation ++ ([.advance, .stop, .start none (MasterKey.constant 9), .close 0,
    .rotate none (MasterKey.constant 9) sampleRotation, .advance] : List KeyEvent)

/-- The rotation stopped after K07, and the second one is refused. -/
theorem master_key_recoverable_halfway :
    coveredCells (run (keyStep Primitives.transparent Base64.standard) KeyWorld.empty
        recoveryRun).db ≠ [] ∧
      Recoverable Primitives.transparent Base64.standard
        (run (keyStep Primitives.transparent Base64.standard) KeyWorld.empty recoveryRun) ∧
      ∀ x ∈ trace (keyStep Primitives.transparent Base64.standard) KeyWorld.empty recoveryRun,
        ∀ key, Seals Primitives.transparent x.pre.db key →
          x.pre.files.Holds Base64.standard key ∧
            (keyStep Primitives.transparent Base64.standard x.pre x.event).1.files.Holds
              Base64.standard key := by
  have hunsealed : Recoverable Primitives.transparent Base64.standard KeyWorld.empty := by
    intro c hc
    cases hc
  refine ⟨by decide +kernel, master_key_recoverable Primitives.transparent_lawful
    Base64.standard_lawful ⟨rfl, rfl⟩ hunsealed ?_ ?_⟩
  · simp [recoveryRun, firstRotation, KeyEvent.env]
  · decide +kernel

end SuiId

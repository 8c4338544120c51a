import SuiId.Proofs.MasterKeyFiles

/-!
# One master key at a time

Nothing ties the key that `resolve` returns to the database.  A rotation that stops after
K07 leaves the old key in the key file, or no key file at all, and the next start seals
with the old key or makes a new one (`two_master_keys`).  The same comes of a variable
that still has the old key, of a server that ran through the rotation, and of the values
that K07 does not re-seal.

`one_master_key`: in a run that avoids these the database has one key.  The invariant
`Orderly` says which file has it at each stage of a rotation.
-/

namespace SuiId

open Lib Lib.Machine Lib.Result

variable {P : Primitives} {B : Base64}

/-! ## Order -/

/-- `resolve` has found no key and makes one. -/
def KeyStage.generates : KeyStage → Bool
  | .create .. | .writeKey .. | .endKey .. => true
  | _ => false

/-- No key is made for a database with sealed values, every process that has it open has
the key of all of them, and there is such a key. -/
structure OneKey (P : Primitives) (w : KeyWorld) : Prop where
  generates : ∀ stage ∈ w.stage, stage.generates = true → sealedCells w.db = []
  handles : ∀ key ∈ w.handles, ∀ c ∈ sealedCells w.db, c.opens P key = true
  one : ∃ key, ∀ c ∈ sealedCells w.db, c.opens P key = true

/-- The key in the key file. -/
def KeyFiles.current (B : Base64) (files : KeyFiles) : Option MasterKey :=
  files.keyFile.bind (MasterKey.fromBase64 B)

/-- The key in the staged file. -/
def KeyFiles.next (B : Base64) (files : KeyFiles) : Option MasterKey :=
  files.staged.bind (MasterKey.fromBase64 B)

/-- A rotation has stopped with its work half done: the staged file, and not the key file,
has the key of a sealed value. -/
def KeyWorld.halfRotated (P : Primitives) (B : Base64) (w : KeyWorld) : Bool :=
  (sealedCells w.db).any fun c =>
    (w.files.next B).any (c.opens P ·) && !(w.files.current B).any (c.opens P ·)

/-- The variable is unset, or has the key of the key file. -/
def KeyFiles.agrees (B : Base64) (files : KeyFiles) : Option String → Bool
  | none => true
  | some text => MasterKey.fromBase64 B text == files.current B

/-- Nothing is started after half a rotation, and a rotation is run while no process has the
database open and no value is sealed outside of its tables. -/
def KeyEvent.orderly (P : Primitives) (B : Base64) (w : KeyWorld) : KeyEvent → Bool
  | .start env _ => w.files.agrees B env && !w.halfRotated P B
  | .rotate env _ _ =>
    w.files.agrees B env && (w.handles.isEmpty && (uncoveredCells w.db).isEmpty)
  | _ => true

/-- Every process has its key from the variable, which does not change. -/
def KeyEvent.fromVariable (text : String) : KeyEvent → Bool
  | .start env _ => env == some text
  | .rotate .. => false
  | _ => true

/-- The key opens every sealed value. -/
def AllOpen (P : Primitives) (db : Database) (key : Option MasterKey) : Prop :=
  ∀ c ∈ sealedCells db, ∃ k, key = some k ∧ c.opens P k = true


/-! ## Where the key is -/

/-- The file that has the key of the database, at each stage. -/
def KeyStage.Home (P : Primitives) (B : Base64) (files : KeyFiles) (db : Database) :
    KeyStage → Prop
  | .create .. | .writeKey .. | .endKey .. => sealedCells db = []
  | .createStaged .. | .writeStaged .. | .endStaged .. | .reseal .. =>
    uncoveredCells db = [] ∧ AllOpen P db (files.current B)
  | .archive _ | .install => AllOpen P db (files.next B)
  | .record => AllOpen P db (files.current B)

/-- While no process works on the files, the key file has the key, or a rotation is half
done and no process has the database open. -/
structure Orderly (P : Primitives) (B : Base64) (w : KeyWorld) : Prop where
  ready : w.Ready B
  handles : ∀ key ∈ w.handles, w.files.current B = some key
  idle : w.stage = none → AllOpen P w.db (w.files.current B) ∨
    (w.handles = [] ∧ AllOpen P w.db (w.files.next B))
  busy : ∀ stage ∈ w.stage, w.handles = [] ∧ stage.Home P B w.files w.db

variable {db : Database} {key : MasterKey} {w : KeyWorld} {env : Option String} {stage : KeyStage}

theorem allOpen_of_empty (h : sealedCells db = []) (key : Option MasterKey) :
    AllOpen P db key := by
  intro c hc
  rw [h] at hc
  cases hc

theorem AllOpen.one {db : Database} {key : Option MasterKey} (h : AllOpen P db key) :
    ∃ k, ∀ c ∈ sealedCells db, c.opens P k = true := by
  cases key with
  | none =>
    refine ⟨MasterKey.constant 0, fun c hc => ?_⟩
    obtain ⟨k, hk, -⟩ := h c hc
    cases hk
  | some k =>
    refine ⟨k, fun c hc => ?_⟩
    obtain ⟨k', hk', hopens⟩ := h c hc
    cases hk'
    exact hopens

theorem AllOpen.opens (h : AllOpen P db (some key)) {c : SealedCell} (hc : c ∈ sealedCells db) :
    c.opens P key = true := by
  obtain ⟨k, hk, hopens⟩ := h c hc
  cases hk
  exact hopens

/-- No key opens a database with a sealed value. -/
theorem AllOpen.empty (h : AllOpen P db none) : sealedCells db = [] := by
  rw [List.eq_nil_iff_forall_not_mem]
  intro c hc
  obtain ⟨k, hk, -⟩ := h c hc
  cases hk

/-- A process with the key writes under it. -/
theorem AllOpen.write {db' : Database} (h : AllOpen P db (some key))
    (hwrites : writesUnder P key db db' = true) : AllOpen P db' (some key) := by
  obtain ⟨hcovered, huncovered⟩ := writesUnder_cells hwrites
  intro c hc
  rcases List.mem_append.mp hc with hc | hc
  · rcases hcovered c hc with hc | hopens
    · exact h c (List.mem_append.mpr (.inl hc))
    · exact ⟨key, rfl, hopens⟩
  · rcases huncovered c hc with hc | hopens
    · exact h c (List.mem_append.mpr (.inr hc))
    · exact ⟨key, rfl, hopens⟩

/-- The file that has the key has it for every process. -/
theorem Orderly.oneKey (h : Orderly P B w) : OneKey P w := by
  cases hstage : w.stage with
  | none =>
    rcases h.idle hstage with hopen | ⟨hnone, hopen⟩
    · refine ⟨?_, ?_, hopen.one⟩
      · intro stage hsome
        rw [hstage] at hsome
        cases hsome
      · intro key hkey c hc
        rw [h.handles key hkey] at hopen
        exact hopen.opens hc
    · refine ⟨?_, ?_, hopen.one⟩
      · intro stage hsome
        rw [hstage] at hsome
        cases hsome
      · intro key hkey
        rw [hnone] at hkey
        cases hkey
  | some stage =>
    obtain ⟨hnone, hhome⟩ := h.busy stage hstage
    have hhandles : ∀ key ∈ w.handles, ∀ c ∈ sealedCells w.db, c.opens P key = true := by
      intro key hkey
      rw [hnone] at hkey
      cases hkey
    refine ⟨?_, hhandles, ?_⟩
    · intro stage' hsome hgenerates
      rw [hstage] at hsome
      cases hsome
      cases stage with
      | create use key => exact hhome
      | writeKey use key => exact hhome
      | endKey use key => exact hhome
      | _ => cases hgenerates
    · cases stage with
      | create | writeKey | endKey => exact (allOpen_of_empty hhome none).one
      | createStaged r oldKey newKey text => exact hhome.2.one
      | writeStaged r oldKey newKey text => exact hhome.2.one
      | endStaged r oldKey newKey => exact hhome.2.one
      | reseal r oldKey newKey => exact hhome.2.one
      | archive r => exact hhome.one
      | install => exact hhome.one
      | record => exact hhome.one

/-! ## Steps -/

/-- What a rotation is begun with. -/
def KeyUse.Alone (w : KeyWorld) : KeyUse → Prop
  | .serve => True
  | .rotate _ => w.handles = [] ∧ uncoveredCells w.db = []

theorem resolved_orderly (hB : B.Lawful) {use : KeyUse} (hfresh : use.Fresh w.files)
    (halone : use.Alone w) (hcurrent : w.files.current B = some key)
    (hopen : AllOpen P w.db (w.files.current B))
    (hhandles : ∀ key ∈ w.handles, w.files.current B = some key) :
    Orderly P B (w.resolved B key use) := by
  have hready : (w.resolved B key use).Ready B := resolved_ready hB hfresh
  cases use with
  | serve =>
    refine ⟨hready, ?_, fun _ => .inl hopen, fun _ h => (by cases h)⟩
    intro key' hkey'
    rcases List.mem_cons.mp hkey' with rfl | hkey'
    · exact hcurrent
    · exact hhandles key' hkey'
  | rotate r =>
    cases hnew : r.newKey B with
    | none =>
      simp only [KeyWorld.resolved, hnew] at hready ⊢
      exact ⟨hready, hhandles, fun _ => .inl hopen, fun _ h => (by cases h)⟩
    | some new =>
      simp only [KeyWorld.resolved, hnew] at hready ⊢
      refine ⟨hready, hhandles, fun h => (by cases h), ?_⟩
      intro stage hstage
      cases hstage
      exact ⟨halone.1, halone.2, hopen⟩

/-- The key that a process finds is the one in the key file. -/
theorem resolve_found {files : KeyFiles} (h : Keyring.resolve B env files = .found key)
    (hagrees : files.agrees B env = true) :
    files.current B = some key := by
  have htext : ∀ text, Resolved.ofText B text = .found key →
      MasterKey.fromBase64 B text = some key := by
    intro text hfound
    unfold Resolved.ofText at hfound
    rw [fromBase64_trim] at hfound
    cases hkey : MasterKey.fromBase64 B text with
    | none =>
      rw [hkey] at hfound
      cases hfound
    | some key' =>
      rw [hkey] at hfound
      cases hfound
      rfl
  unfold Keyring.resolve at h
  cases env with
  | some text =>
    have hsame : MasterKey.fromBase64 B text = files.current B := by
      simpa [KeyFiles.agrees] using hagrees
    rw [← hsame]
    exact htext text h
  | none =>
    cases hfile : files.keyFile with
    | none =>
      rw [hfile] at h
      cases h
    | some text =>
      rw [hfile] at h
      rw [KeyFiles.current, hfile]
      exact htext text h

/-- A key is made where there is no key file. -/
theorem resolve_generate {files : KeyFiles} (h : Keyring.resolve B env files = .generate) :
    files.keyFile = none := by
  have htext : ∀ text, Resolved.ofText B text ≠ .generate := by
    intro text hgenerate
    unfold Resolved.ofText at hgenerate
    split at hgenerate
    · cases hgenerate
    · cases hgenerate
  unfold Keyring.resolve at h
  cases env with
  | some text => exact absurd h (htext text)
  | none =>
    cases hfile : files.keyFile with
    | none => rfl
    | some text =>
      rw [hfile] at h
      exact absurd h (htext text)

theorem begin_orderly (hB : B.Lawful) {fresh : MasterKey} {use : KeyUse} (hw : Orderly P B w)
    (hfresh : use.Fresh w.files) (halone : use.Alone w) (hagrees : w.files.agrees B env = true)
    (hopen : AllOpen P w.db (w.files.current B)) : Orderly P B (w.begin B env fresh use) := by
  unfold KeyWorld.begin
  split
  · rename_i key hfound
    exact resolved_orderly hB hfresh halone (resolve_found hfound hagrees) hopen hw.handles
  · rename_i hgenerate
    have hnone : w.files.current B = none := by
      rw [KeyFiles.current, resolve_generate hgenerate]
      rfl
    refine ⟨?_, hw.handles, fun h => (by cases h), ?_⟩
    · intro stage h
      cases h
      exact hfresh
    · intro stage h
      cases h
      refine ⟨?_, ?_⟩
      · rw [List.eq_nil_iff_forall_not_mem]
        intro key hkey
        have hsome := hw.handles key hkey
        rw [hnone] at hsome
        cases hsome
      · rw [hnone] at hopen
        exact hopen.empty
  · exact hw

/-- What is left when a process has stopped. -/
theorem Orderly.stopped (hnone : w.handles = [])
    (hopen : AllOpen P w.db (w.files.current B) ∨ AllOpen P w.db (w.files.next B)) :
    Orderly P B { w with stage := none } := by
  refine ⟨fun _ h => (by cases h), ?_, ?_, fun _ h => (by cases h)⟩
  · intro key hkey
    rw [show w.handles = [] from hnone] at hkey
    cases hkey
  · intro _
    rcases hopen with hopen | hopen
    · exact .inl hopen
    · exact .inr ⟨hnone, hopen⟩

/-- One of the two files has the key, wherever the process stops. -/
theorem KeyStage.Home.files {files : KeyFiles} (h : stage.Home P B files db) :
    AllOpen P db (files.current B) ∨ AllOpen P db (files.next B) := by
  cases stage with
  | create | writeKey | endKey => exact .inl (allOpen_of_empty h _)
  | createStaged r oldKey newKey text => exact .inl h.2
  | writeStaged r oldKey newKey text => exact .inl h.2
  | endStaged r oldKey newKey => exact .inl h.2
  | reseal r oldKey newKey => exact .inl h.2
  | archive r => exact .inr h
  | install => exact .inr h
  | record => exact .inl h

/-- The process goes on to a stage that finds the key where it is. -/
private theorem Orderly.goes_on (hready : w.Ready B) (hnone : w.handles = [])
    (hstage : w.stage = some stage) (hhome : stage.Home P B w.files w.db) : Orderly P B w := by
  refine ⟨hready, ?_, ?_, ?_⟩
  · intro key hkey
    rw [hnone] at hkey
    cases hkey
  · intro hidle
    rw [hstage] at hidle
    cases hidle
  · intro stage' hsome
    rw [hstage] at hsome
    cases hsome
    exact ⟨hnone, hhome⟩

theorem advance_orderly (hP : P.Lawful) (hB : B.Lawful) (hready : stage.Ready B w.files)
    (hnone : w.handles = []) (hhome : stage.Home P B w.files w.db) :
    Orderly P B (w.advance P B stage) := by
  have hready' : (w.advance P B stage).Ready B := advance_ready hB hready
  cases stage with
  | create use key =>
    cases hfile : w.files.keyFile with
    | some text =>
      simp only [KeyWorld.advance, hfile]
      exact .stopped hnone (KeyStage.Home.files hhome)
    | none =>
      simp only [KeyWorld.advance, hfile] at hready' ⊢
      exact .goes_on hready' hnone rfl hhome
  | writeKey | writeStaged | endStaged => exact .goes_on hready' hnone rfl hhome
  | endKey use key =>
    have hempty : sealedCells w.db = [] := hhome
    have hcurrent : (w.files.keyFile.map (· ++ "\n")).bind (MasterKey.fromBase64 B) =
        some key := by
      rw [hready.2, Option.map_some, Option.bind_some]
      exact (keyText_toBase64 hB key).endLine
    refine resolved_orderly hB (hready.1.congr rfl) ?_ hcurrent (allOpen_of_empty hempty _) ?_
    · cases use with
      | serve => trivial
      | rotate r => exact ⟨hnone, (List.append_eq_nil_iff.mp hempty).2⟩
    · intro key' hkey'
      rw [show w.handles = [] from hnone] at hkey'
      cases hkey'
  | createStaged r oldKey newKey text =>
    cases hstaged : w.files.staged with
    | some text =>
      simp only [KeyWorld.advance, hstaged]
      exact .stopped hnone (.inl hhome.2)
    | none =>
      simp only [KeyWorld.advance, hstaged] at hready' ⊢
      exact .goes_on hready' hnone rfl hhome
  | reseal r oldKey newKey =>
    cases hreseal : resealMasterKey P oldKey newKey r.nonces w.db with
    | error e =>
      simp only [KeyWorld.advance, hreseal]
      exact .stopped hnone (.inl hhome.2)
    | ok result =>
      simp only [KeyWorld.advance, hreseal] at hready' ⊢
      refine .goes_on hready' hnone rfl ?_
      -- K07 goes through all the sealed values there are.
      intro c hc
      have huncovered : uncoveredCells result.2 = [] := by
        rw [uncoveredCells_resealed hreseal]
        exact hhome.1
      rw [sealedCells, huncovered, List.append_nil] at hc
      exact ⟨newKey, hready.2, opens_of_resealed hP hreseal c hc⟩
  | archive r =>
    cases hfile : w.files.keyFile with
    | none =>
      simp only [KeyWorld.advance, hfile]
      exact .stopped hnone (.inr hhome)
    | some text =>
      simp only [KeyWorld.advance, hfile] at hready' ⊢
      exact .goes_on hready' hnone rfl hhome
  | install =>
    cases hstaged : w.files.staged with
    | none =>
      simp only [KeyWorld.advance, hstaged]
      exact .stopped hnone (.inr hhome)
    | some text =>
      simp only [KeyWorld.advance, hstaged] at hready' ⊢
      refine .goes_on hready' hnone rfl ?_
      rw [KeyStage.Home, KeyFiles.next, hstaged] at hhome
      exact hhome
  | record =>
    exact Orderly.stopped (w := { w with db := (w.advance P B .record).db }) hnone (.inl hhome)

/-- A value under the staged key is under the key of the key file if no rotation is half
done. -/
theorem AllOpen.current (hopen : AllOpen P w.db (w.files.next B))
    (hhalf : w.halfRotated P B = false) : AllOpen P w.db (w.files.current B) := by
  intro c hc
  obtain ⟨key, hkey, hopens⟩ := hopen c hc
  have hcell := List.any_eq_false.mp hhalf c hc
  rw [hkey] at hcell
  cases hcurrent : w.files.current B with
  | none => simp [hcurrent, hopens] at hcell
  | some key' =>
    rw [hcurrent] at hcell
    exact ⟨key', rfl, by simpa [hopens] using hcell⟩

/-- Half a rotation is all that can keep the key from the key file. -/
theorem Orderly.current (hw : Orderly P B w) (hhalf : w.halfRotated P B = false) :
    AllOpen P w.db (w.files.current B) := by
  cases hstage : w.stage with
  | none =>
    rcases hw.idle hstage with hopen | ⟨-, hopen⟩
    · exact hopen
    · exact hopen.current hhalf
  | some stage =>
    have hhome := (hw.busy stage hstage).2
    cases stage with
    | create | writeKey | endKey => exact allOpen_of_empty hhome _
    | createStaged r oldKey newKey text => exact hhome.2
    | writeStaged r oldKey newKey text => exact hhome.2
    | endStaged r oldKey newKey => exact hhome.2
    | reseal r oldKey newKey => exact hhome.2
    | archive r => exact AllOpen.current hhome hhalf
    | install => exact AllOpen.current hhome hhalf
    | record => exact hhome

/-- Before a rotation nothing is staged, so the key file has the key. -/
theorem Orderly.current_of_unstaged (hw : Orderly P B w) (hstage : w.stage = none)
    (hstaged : w.files.staged = none) : AllOpen P w.db (w.files.current B) := by
  rcases hw.idle hstage with hopen | ⟨-, hopen⟩
  · exact hopen
  · rw [KeyFiles.next, hstaged] at hopen
    exact allOpen_of_empty hopen.empty _

theorem keyStep_orderly (hP : P.Lawful) (hB : B.Lawful) {e : KeyEvent} (hw : Orderly P B w)
    (hstamp : e.freshStamp w = true) (horderly : e.orderly P B w = true) :
    Orderly P B (keyStep P B w e).1 := by
  cases keyStep_move P B w e with
  | idle h =>
    rw [h]
    exact hw
  | start fresh he hstage h =>
    rw [he] at horderly
    simp only [KeyEvent.orderly, Bool.and_eq_true, Bool.not_eq_true'] at horderly
    rw [h]
    exact begin_orderly hB hw trivial trivial horderly.1 (hw.current horderly.2)
  | rotate fresh r he hstage hstaged h =>
    rw [he] at horderly hstamp
    simp only [KeyEvent.orderly, Bool.and_eq_true, List.isEmpty_iff] at horderly
    have hfresh : r.Fresh w.files := by
      intro b hb
      simpa using List.all_eq_true.mp hstamp b hb
    rw [h]
    exact begin_orderly hB hw hfresh horderly.2 horderly.1 (hw.current_of_unstaged hstage hstaged)
  | advance hstage h =>
    obtain ⟨hnone, hhome⟩ := hw.busy _ hstage
    rw [h]
    exact advance_orderly hP hB (hw.ready _ hstage) hnone hhome
  | stop h =>
    rw [h]
    cases hstage : w.stage with
    | none => exact ⟨fun _ h => (by cases h), hw.handles, fun _ => hw.idle hstage,
        fun _ h => (by cases h)⟩
    | some stage =>
      obtain ⟨hnone, hhome⟩ := hw.busy stage hstage
      exact .stopped hnone hhome.files
  | write key db hkey hwrites h =>
    have hcurrent := hw.handles key hkey
    have hne : w.handles ≠ [] := List.ne_nil_of_mem hkey
    rw [h]
    refine ⟨hw.ready, hw.handles, ?_, fun stage hstage => absurd (hw.busy stage hstage).1 hne⟩
    intro hstage
    left
    rcases hw.idle hstage with hopen | ⟨hnone, -⟩
    · rw [hcurrent] at hopen
      rw [show w.files.current B = some key from hcurrent]
      exact hopen.write hwrites
    · exact absurd hnone hne
  | close handle h =>
    have hclosed : w.handles = [] → w.handles.eraseIdx handle = [] := by
      intro hnone
      rw [hnone]
      rfl
    rw [h]
    refine ⟨hw.ready, ?_, ?_, ?_⟩
    · intro key hkey
      exact hw.handles key (List.mem_of_mem_eraseIdx hkey)
    · intro hstage
      rcases hw.idle hstage with hopen | ⟨hnone, hopen⟩
      · exact .inl hopen
      · exact .inr ⟨hclosed hnone, hopen⟩
    · intro stage hstage
      obtain ⟨hnone, hhome⟩ := hw.busy stage hstage
      exact ⟨hclosed hnone, hhome⟩

/-! ## A variable that does not change -/

/-- The key of the variable is the key of the database. -/
structure FromVariable (P : Primitives) (B : Base64) (text : String) (w : KeyWorld) : Prop where
  stage : w.stage = none
  handles : ∀ key ∈ w.handles, MasterKey.fromBase64 B text = some key
  opens : AllOpen P w.db (MasterKey.fromBase64 B text)

theorem FromVariable.oneKey {text : String} (h : FromVariable P B text w) :
    OneKey P w := by
  refine ⟨?_, ?_, h.opens.one⟩
  · intro stage hstage
    rw [h.stage] at hstage
    cases hstage
  · intro key hkey c hc
    have hopens := h.opens
    rw [h.handles key hkey] at hopens
    exact hopens.opens hc

theorem keyStep_fromVariable {text : String} {e : KeyEvent} (hw : FromVariable P B text w)
    (he : e.fromVariable text = true) :
    FromVariable P B text (keyStep P B w e).1 := by
  cases keyStep_move P B w e with
  | idle h =>
    rw [h]
    exact hw
  | start fresh hevent hstage h =>
    rw [hevent] at he
    have henv : e.env = some text := by simpa [KeyEvent.fromVariable] using he
    rw [h, henv]
    cases hkey : MasterKey.fromBase64 B text with
    | none =>
      have hresolve : Keyring.resolve B (some text) w.files = .malformed := by
        simp only [Keyring.resolve, Resolved.ofText, fromBase64_trim, hkey]
      simp only [KeyWorld.begin, hresolve]
      exact hw
    | some key =>
      have hresolve : Keyring.resolve B (some text) w.files = .found key := by
        simp only [Keyring.resolve, Resolved.ofText, fromBase64_trim, hkey]
      simp only [KeyWorld.begin, hresolve]
      refine ⟨rfl, ?_, hw.opens⟩
      intro key' hkey'
      rcases List.mem_cons.mp hkey' with rfl | hkey'
      · exact hkey
      · exact hw.handles key' hkey'
  | rotate fresh r hevent hstage hstaged h =>
    rw [hevent] at he
    cases he
  | advance hstage h =>
    rw [hw.stage] at hstage
    cases hstage
  | stop h =>
    rw [h]
    exact ⟨rfl, hw.handles, hw.opens⟩
  | write key db hkey hwrites h =>
    rw [h]
    have hopens := hw.opens
    rw [hw.handles key hkey] at hopens
    refine ⟨hw.stage, hw.handles, ?_⟩
    rw [hw.handles key hkey]
    exact hopens.write hwrites
  | close handle h =>
    rw [h]
    refine ⟨hw.stage, ?_, hw.opens⟩
    intro key hkey
    exact hw.handles key (List.mem_of_mem_eraseIdx hkey)

/-! ## Runs -/

/-- In a run where nothing starts after half a rotation, the variable is unset or has the key
of the key file, and rotations find no process on the database and no value outside of their
tables, the database has one key.  So it has if all keys come from a variable that does not
change. -/
theorem one_master_key (hP : P.Lawful) (hB : B.Lawful) {w : KeyWorld}
    (hrest : w.stage = none ∧ w.handles = []) (hempty : sealedCells w.db = [])
    {events : List KeyEvent}
    (hrun : Guarded (keyStep P B) (fun w e => e.freshStamp w = true ∧ e.orderly P B w = true) w
        events ∨ ∃ text, ∀ e ∈ events, e.fromVariable text = true) :
    OneKey P (run (keyStep P B) w events) := by
  have hhandles : ∀ {k : Option MasterKey}, ∀ key ∈ w.handles, k = some key := by
    intro k key hkey
    rw [hrest.2] at hkey
    cases hkey
  rcases hrun with hguard | ⟨text, hvariable⟩
  · have hstart : Orderly P B w := by
      refine ⟨?_, hhandles, fun _ => .inl (allOpen_of_empty hempty _), ?_⟩
      · intro stage hstage
        rw [hrest.1] at hstage
        cases hstage
      · intro stage hstage
        rw [hrest.1] at hstage
        cases hstage
    have horderly : Orderly P B (run (keyStep P B) w events) :=
      run_invariant (fun w e hw h => keyStep_orderly hP hB hw h.1 h.2) hguard hstart
    exact horderly.oneKey
  · have hstart : FromVariable P B text w :=
      ⟨hrest.1, hhandles, allOpen_of_empty hempty _⟩
    have hfrom : FromVariable P B text (run (keyStep P B) w events) :=
      run_invariant (fun w e hw h => keyStep_fromVariable hw h) (guarded_of_forall hvariable)
        hstart
    exact hfrom.oneKey

/-- A server, a rotation to its end, and a server again. -/
def rotatedRun : List KeyEvent :=
  firstRotation ++ ([.advance, .advance, .advance, .advance,
    .start none (MasterKey.constant 9)] : List KeyEvent)

theorem one_master_key_rotated :
    sealedCells (run (keyStep Primitives.transparent Base64.standard) KeyWorld.empty
        rotatedRun).db ≠ [] ∧
      OneKey Primitives.transparent
        (run (keyStep Primitives.transparent Base64.standard) KeyWorld.empty rotatedRun) := by
  refine ⟨by decide +kernel, one_master_key Primitives.transparent_lawful Base64.standard_lawful
    ⟨rfl, rfl⟩ rfl (.inl ?_)⟩
  decide +kernel

/-- The database that the first rotation has re-sealed, with a value under a third key. -/
def twoKeysDb : Database :=
  { (run (keyStep Primitives.transparent Base64.standard) KeyWorld.empty
      (firstRotation ++ ([.advance] : List KeyEvent))).db with
    userTotp := ⟨[⟨5, (Nonce.constant 1).bytes ++ ((MasterKey.constant 9).bytes ++ UserTotp.aad ++
      [1]), true, none, 0, 0, none⟩], by decide⟩ }

/-- The rotation stops between its two renames, and a server starts. -/
def haltedRun : List KeyEvent :=
  firstRotation ++ ([.advance, .advance, .stop, .start none (MasterKey.constant 9)] : List KeyEvent)

/-- The server makes a key of its own and seals with it. -/
theorem two_master_keys :
    ¬ OneKey Primitives.transparent
        (run (keyStep Primitives.transparent Base64.standard) KeyWorld.empty haltedRun) ∧
      ¬ ∃ key, ∀ c ∈ sealedCells (run (keyStep Primitives.transparent Base64.standard)
          KeyWorld.empty (haltedRun ++ [.advance, .advance, .advance, .write 0 twoKeysDb])).db,
        c.opens Primitives.transparent key = true := by
  constructor
  · intro hone
    have hgenerates : ((run (keyStep Primitives.transparent Base64.standard) KeyWorld.empty
        haltedRun).stage.any KeyStage.generates) = true := by
      decide +kernel
    obtain ⟨stage, hstage, hgenerates⟩ := (Option.any_eq_true _ _).mp hgenerates
    have hempty := hone.generates stage hstage hgenerates
    revert hempty
    decide +kernel
  · rintro ⟨key, hkey⟩
    have height : ∃ c ∈ sealedCells (run (keyStep Primitives.transparent Base64.standard)
        KeyWorld.empty (haltedRun ++ [.advance, .advance, .advance, .write 0 twoKeysDb])).db,
        c.opens Primitives.transparent (MasterKey.constant 8) = true := by
      decide +kernel
    have hnine : ∃ c ∈ sealedCells (run (keyStep Primitives.transparent Base64.standard)
        KeyWorld.empty (haltedRun ++ [.advance, .advance, .advance, .write 0 twoKeysDb])).db,
        c.opens Primitives.transparent (MasterKey.constant 9) = true := by
      decide +kernel
    obtain ⟨c, hc, hopens⟩ := height
    obtain ⟨c', hc', hopens'⟩ := hnine
    have hsame := SealedCell.opens_unique Primitives.transparent_lawful hopens (hkey c hc)
    have hsame' := SealedCell.opens_unique Primitives.transparent_lawful hopens' (hkey c' hc')
    rw [hsame] at hsame'
    revert hsame'
    decide

end SuiId

import SuiId.Core.BackupRuns
import SuiId.Proofs.OneMasterKey

/-!
# The key in an archive

A rotation replaces the key of the database with its commit and the key file with its
second rename.  A backup whose two copies fall on different sides of these two effects
pairs a database with the wrong key (`backup_parts_database_and_key`).  One that is taken
after a rotation that stopped between them does too.

`backup_carries_key`: in a run that avoids this the archived key opens what K07 covers.
What K07 leaves out plays no part: `KeyWorld.covered` is the world without it, a step of a
world is a step of the smaller one (`keyStep_covered`), and there the invariant `Orderly`
applies as it stands.
-/

namespace SuiId

open Lib Lib.Machine Lib.Result

variable {P : Primitives} {B : Base64}

/-! ## The tables of K07 -/

/-- The database without the sealed values that K07 leaves out. -/
def Database.covered (db : Database) : Database := { db with
  federationProvider := ∅
  pendingSettingsChange := ∅
  federationLoginAttempt := ∅
  federationMfaPending := ∅
  federationWebauthnCeremony := ∅ }

/-- The world without them, and without the archived keys. -/
def KeyWorld.covered (w : KeyWorld) : KeyWorld :=
  { w with db := w.db.covered, files := { w.files with backups := [] } }

@[simp] theorem coveredCells_covered (db : Database) : coveredCells db.covered = coveredCells db :=
  rfl

@[simp] theorem uncoveredCells_covered (db : Database) : uncoveredCells db.covered = [] := rfl

@[simp] theorem sealedCells_covered (db : Database) : sealedCells db.covered = coveredCells db := by
  rw [sealedCells, coveredCells_covered, uncoveredCells_covered, List.append_nil]

/-! ## K07 on these tables -/

section Reseal

variable {oldKey newKey : MasterKey} {nonce : ResealNonces}

/-- Two steps whose results correspond, each followed by steps that do. -/
private theorem bind_map {α α' β β' : Type} {x : StoreResult α} {y : StoreResult α'} {m : α → α'}
    {k : β → β'} {f : α → StoreResult β} {g : α' → StoreResult β'} (hxy : y = x.map m)
    (hfg : ∀ a, g (m a) = (f a).map k) : (y >>= g) = (x >>= f).map k := by
  subst hxy
  cases x with
  | error e => rfl
  | ok a => exact hfg a

private theorem bind_same {α β β' : Type} {x : StoreResult α} {k : β → β'}
    {f : α → StoreResult β} {g : α → StoreResult β'} (hfg : ∀ a, g a = (f a).map k) :
    (x >>= g) = (x >>= f).map k := by
  cases x with
  | error e => rfl
  | ok a => exact hfg a

private theorem signingKeys_covered (db : Database) :
    SigningKeys.resealAll P oldKey newKey nonce db.covered =
      (SigningKeys.resealAll P oldKey newKey nonce db).map fun x => (x.1, x.2.covered) :=
  bind_same fun _ => rfl

private theorem refreshTokens_covered {nonce : RefreshTokenId → Nonce} (db : Database) :
    RefreshTokens.resealAll P oldKey newKey nonce db.covered =
      (RefreshTokens.resealAll P oldKey newKey nonce db).map (·.covered) :=
  bind_same fun _ => rfl

private theorem userTotp_covered (db : Database) :
    UserTotp.resealAll P oldKey newKey nonce db.covered =
      (UserTotp.resealAll P oldKey newKey nonce db).map fun x => (x.1, x.2.covered) :=
  bind_same fun _ => rfl

private theorem credentials_covered (db : Database) :
    WebauthnCredentials.resealAll P oldKey newKey nonce db.covered =
      (WebauthnCredentials.resealAll P oldKey newKey nonce db).map fun x => (x.1, x.2.covered) :=
  bind_same fun _ => rfl

private theorem smtpConfig_covered (db : Database) :
    SmtpConfig.resealAll P oldKey newKey nonce db.covered =
      (SmtpConfig.resealAll P oldKey newKey nonce db).map fun x => (x.1, x.2.covered) := by
  have hrow : db.covered.smtpConfig = db.smtpConfig := rfl
  rw [SmtpConfig.resealAll, hrow, SmtpConfig.resealAll]
  cases db.smtpConfig with
  | none => rfl
  | some row => exact bind_same fun _ => rfl

private theorem emailOutbox_covered (db : Database) :
    EmailOutbox.resealAll P oldKey newKey nonce db.covered =
      (EmailOutbox.resealAll P oldKey newKey nonce db).map fun x => (x.1, x.2.covered) :=
  bind_same fun _ => rfl

private theorem resealTables_covered (db : Database) :
    resealTables P oldKey newKey nonce db.covered =
      (resealTables P oldKey newKey nonce db).map fun x => (x.1, x.2.covered) := by
  refine bind_map (signingKeys_covered db) fun x₁ => ?_
  refine bind_map (refreshTokens_covered x₁.2) fun db₂ => ?_
  refine bind_map (userTotp_covered db₂) fun x₃ => ?_
  refine bind_map (credentials_covered x₃.2) fun x₄ => ?_
  refine bind_map (smtpConfig_covered x₄.2) fun x₅ => ?_
  exact bind_map (emailOutbox_covered x₅.2) fun _ => rfl

/-- K07 does not depend on what it leaves out. -/
theorem resealMasterKey_covered (db : Database) :
    resealMasterKey P oldKey newKey nonce db.covered =
      (resealMasterKey P oldKey newKey nonce db).map fun x => (x.1, x.2.covered) := by
  refine bind_map (m := fun x => (x.1, x.2.1, x.2.2.covered)) ?_ fun x => ?_
  · exact bind_map (resealTables_covered db) fun _ => rfl
  · obtain ⟨report, event, db'⟩ := x
    exact bind_same fun _ => bind_same fun _ => rfl

end Reseal

/-! ## Steps on these tables -/

theorem resolved_covered (w : KeyWorld) (key : MasterKey) (use : KeyUse) :
    (w.resolved B key use).covered = w.covered.resolved B key use := by
  cases use with
  | serve => rfl
  | rotate r =>
    simp only [KeyWorld.resolved]
    cases r.newKey B with
    | none => rfl
    | some new => rfl

theorem begin_covered (w : KeyWorld) (env : Option String) (fresh : MasterKey) (use : KeyUse) :
    (w.begin B env fresh use).covered = w.covered.begin B env fresh use := by
  have hresolve : Keyring.resolve B env w.covered.files = Keyring.resolve B env w.files := rfl
  unfold KeyWorld.begin
  rw [hresolve]
  cases Keyring.resolve B env w.files with
  | found key => exact resolved_covered w key use
  | generate => rfl
  | malformed => rfl

/-- The next effect is the same on them, but for the archive of the key. -/
theorem advance_covered (w : KeyWorld) (stage : KeyStage) :
    (w.advance P B stage).covered = (w.covered.advance P B stage).covered := by
  have hkey : w.covered.files.keyFile = w.files.keyFile := rfl
  have hstaged : w.covered.files.staged = w.files.staged := rfl
  cases stage with
  | create | archive =>
    simp only [KeyWorld.advance, hkey]
    cases w.files.keyFile with
    | none => rfl
    | some text => rfl
  | endKey use key =>
    simp only [KeyWorld.advance, resolved_covered]
    rfl
  | createStaged r oldKey newKey text | install =>
    simp only [KeyWorld.advance, hstaged]
    cases w.files.staged with
    | none => rfl
    | some text => rfl
  | reseal r oldKey newKey =>
    have hdb : w.covered.db = w.db.covered := rfl
    simp only [KeyWorld.advance, hdb, resealMasterKey_covered]
    cases resealMasterKey P oldKey newKey r.nonces w.db with
    | error e => rfl
    | ok result => rfl
  | writeKey use key => rfl
  | writeStaged r oldKey newKey text => rfl
  | endStaged r oldKey newKey => rfl
  | record => rfl

variable {db : Database} {files : KeyFiles} {stage : KeyStage} {w : KeyWorld}

theorem writesUnder_covered {key : MasterKey} {db' : Database}
    (h : writesUnder P key db db' = true) : writesUnder P key db.covered db'.covered = true := by
  unfold writesUnder at h ⊢
  rw [coveredCells_covered, coveredCells_covered, uncoveredCells_covered, List.all_nil,
    Bool.and_true]
  exact (Bool.and_eq_true _ _ ▸ h).1

/-- A step of the world is one of the smaller world. -/
theorem keyStep_covered (w : KeyWorld) (e : KeyEvent) :
    ∃ e', (keyStep P B w e).1.covered = (keyStep P B w.covered e').1.covered ∧
      (e.orderly P B w.covered = true → e'.orderly P B w.covered = true) := by
  have hstage : w.covered.stage = w.stage := rfl
  have hstaged : w.covered.files.staged = w.files.staged := rfl
  cases e with
  | start env fresh =>
    refine ⟨.start env fresh, ?_, id⟩
    simp only [keyStep, hstage]
    cases w.stage with
    | some stage => rfl
    | none => exact (begin_covered w env fresh .serve).trans (begin_covered w.covered ..).symm
  | rotate env fresh r =>
    refine ⟨.rotate env fresh r, ?_, id⟩
    simp only [keyStep, hstage, hstaged]
    cases w.stage with
    | some stage => rfl
    | none =>
      cases w.files.staged with
      | some text => rfl
      | none => exact (begin_covered w ..).trans (begin_covered w.covered ..).symm
  | advance =>
    refine ⟨.advance, ?_, id⟩
    simp only [keyStep, hstage]
    cases w.stage with
    | none => rfl
    | some stage => exact advance_covered w stage
  | stop => exact ⟨.stop, rfl, id⟩
  | write handle db =>
    have hhandles : w.covered.handles = w.handles := rfl
    cases hkey : w.handles[handle]? with
    | none => exact ⟨.write handle db, by simp only [keyStep, hhandles, hkey]; rfl, id⟩
    | some key =>
      cases hwrites : writesUnder P key w.db db with
      | true =>
        have hcovered : writesUnder P key w.covered.db db.covered = true :=
          writesUnder_covered hwrites
        refine ⟨.write handle db.covered, ?_, id⟩
        simp only [keyStep, hhandles, hkey, hwrites, hcovered, if_true]
        rfl
      | false =>
        -- A handle that is not there writes nothing either.
        have hnone : w.handles[w.handles.length]? = none := List.getElem?_eq_none (Nat.le_refl _)
        refine ⟨.write w.handles.length db, ?_, id⟩
        simp only [keyStep, hhandles, hkey, hwrites, hnone]
        rfl
  | close handle => exact ⟨.close handle, rfl, id⟩

/-! ## Order on these tables -/

theorem AllOpen.covered {key : Option MasterKey} (h : AllOpen P db key) :
    AllOpen P db.covered key := by
  intro c hc
  rw [sealedCells_covered] at hc
  exact h c (List.mem_append.mpr (.inl hc))

theorem Rotation.fresh_covered (r : Rotation) :
    r.Fresh { files with backups := [] } := by
  intro b hb
  cases hb

theorem KeyUse.fresh_covered (use : KeyUse) :
    use.Fresh { files with backups := [] } := by
  cases use with
  | serve => trivial
  | rotate r => exact r.fresh_covered

theorem KeyStage.Ready.covered (h : stage.Ready B files) :
    stage.Ready B { files with backups := [] } := by
  cases stage with
  | create use key => exact use.fresh_covered
  | writeKey use key => exact ⟨use.fresh_covered, h.2⟩
  | endKey use key => exact ⟨use.fresh_covered, h.2⟩
  | createStaged r oldKey newKey text | writeStaged r oldKey newKey text
  | endStaged r oldKey newKey | reseal r oldKey newKey => exact ⟨r.fresh_covered, h.2⟩
  | archive r => exact r.fresh_covered
  | install => exact h
  | record => trivial

theorem KeyStage.Home.covered (h : stage.Home P B files db) :
    stage.Home P B { files with backups := [] } db.covered := by
  have hempty : sealedCells db = [] → sealedCells db.covered = [] := by
    intro hnone
    rw [sealedCells_covered]
    exact (List.append_eq_nil_iff.mp hnone).1
  cases stage with
  | create use key => exact hempty h
  | writeKey use key => exact hempty h
  | endKey use key => exact hempty h
  | createStaged | writeStaged | endStaged | reseal => exact ⟨rfl, AllOpen.covered h.2⟩
  | archive r => exact AllOpen.covered h
  | install => exact AllOpen.covered h
  | record => exact AllOpen.covered h

theorem Orderly.covered (h : Orderly P B w) : Orderly P B w.covered where
  ready stage hstage := (h.ready stage hstage).covered
  handles := h.handles
  idle hstage := by
    rcases h.idle hstage with hopen | ⟨hnone, hopen⟩
    · exact .inl hopen.covered
    · exact .inr ⟨hnone, hopen.covered⟩
  busy stage hstage := ⟨(h.busy stage hstage).1, (h.busy stage hstage).2.covered⟩

/-- A step that is orderly on the tables of K07 leaves them in order. -/
theorem keyStep_covered_orderly (hP : P.Lawful) (hB : B.Lawful) {e : KeyEvent}
    (hw : Orderly P B w.covered) (horderly : e.orderly P B w.covered = true) :
    Orderly P B (keyStep P B w e).1.covered := by
  obtain ⟨e', hsame, himp⟩ := keyStep_covered (P := P) (B := B) w e
  have hstamp : e'.freshStamp w.covered = true := by
    cases e' <;> rfl
  rw [hsame]
  exact (keyStep_orderly hP hB hw hstamp (himp horderly)).covered

/-! ## The condition -/

/-- The effect puts a file in the place of the key file. -/
def KeyStage.replacesKey : KeyStage → Bool
  | .create .. | .install => true
  | _ => false

/-- A backup has its copy of the database, and not yet that of the key. -/
def BackupWorld.copying (w : BackupWorld) : Bool :=
  w.backups.any fun
    | some (.readKey _) => true
    | _ => false

/-- Servers and rotations keep to the order of `KeyEvent.orderly`, as far as the tables of
K07 go. -/
def BackupEvent.orderly (P : Primitives) (B : Base64) (w : BackupWorld) : BackupEvent → Bool
  | .key e => e.orderly P B w.keys.covered
  | _ => true

/-- The key file is not replaced between the two copies of a backup, and no copy is taken
while a rotation is half done. -/
def BackupEvent.keepsPair (P : Primitives) (B : Base64) (w : BackupWorld) : BackupEvent → Bool
  | .key .advance => !(w.copying && w.keys.stage.any KeyStage.replacesKey)
  | .next i _ =>
    match w.backups[i]? with
    | some (some .vacuum) => !w.keys.covered.halfRotated P B
    | _ => true
  | _ => true

/-- Every value of the copied database that K07 covers opens under the copied key. -/
def BackupPair.opens (P : Primitives) (B : Base64) (pair : BackupPair) : Bool :=
  (coveredCells pair.db).all fun c => (MasterKey.fromBase64 B pair.key).any (c.opens P ·)

/-- Every copy of the database opens under the key of the key file, if there is one. -/
structure PairsFit (P : Primitives) (B : Base64) (w : BackupWorld) : Prop where
  orderly : Orderly P B w.keys.covered
  copies : ∀ db, some (.readKey db) ∈ w.backups →
    w.keys.files.keyFile = none ∨ AllOpen P db.covered (w.keys.files.current B)

/-! ## Steps of the other processes -/

/-- An effect that does not replace the key file takes no key away from a copy. -/
theorem advance_copy (hB : B.Lawful) (hready : stage.Ready B w.covered.files)
    (hkept : stage.replacesKey = false)
    (h : w.files.keyFile = none ∨ AllOpen P db (w.files.current B)) :
    (w.advance P B stage).files.keyFile = none ∨
      AllOpen P db ((w.advance P B stage).files.current B) := by
  cases stage with
  | create use key => cases hkept
  | install => cases hkept
  | writeKey use key =>
    have hfile : w.files.keyFile = some "" := hready.2
    rcases h with hnone | hopen
    · rw [hfile] at hnone
      cases hnone
    · -- The file was empty, so the copy has nothing sealed.
      rw [KeyFiles.current, hfile, Option.bind_some, fromBase64_empty hB] at hopen
      exact .inr (allOpen_of_empty hopen.empty _)
  | endKey use key =>
    have hfile : w.files.keyFile = some (key.toBase64 B) := hready.2
    have htext := keyText_toBase64 hB key
    rw [KeyWorld.advance, (resolved_files _ _ _).1]
    rcases h with hnone | hopen
    · rw [hfile] at hnone
      cases hnone
    · right
      rw [KeyFiles.current, hfile, Option.bind_some, htext.2] at hopen
      rw [KeyFiles.current, hfile, Option.map_some, Option.bind_some, htext.endLine]
      exact hopen
  | createStaged r oldKey newKey text =>
    simp only [KeyWorld.advance]
    cases w.files.staged with
    | none => exact h
    | some text => exact h
  | reseal r oldKey newKey =>
    simp only [KeyWorld.advance]
    cases resealMasterKey P oldKey newKey r.nonces w.db with
    | error e => exact h
    | ok result => exact h
  | archive r =>
    left
    cases hfile : w.files.keyFile with
    | none =>
      simp only [KeyWorld.advance, hfile]
    | some text =>
      simp only [KeyWorld.advance, hfile]
  | writeStaged r oldKey newKey text => exact h
  | endStaged r oldKey newKey => exact h
  | record => exact h

theorem keyStep_copy (hB : B.Lawful) {e : KeyEvent} (hready : w.covered.Ready B)
    (hkept : e = .advance → w.stage.any KeyStage.replacesKey = false)
    (h : w.files.keyFile = none ∨ AllOpen P db (w.files.current B)) :
    (keyStep P B w e).1.files.keyFile = none ∨
      AllOpen P db ((keyStep P B w e).1.files.current B) := by
  cases e with
  | start env fresh =>
    cases hstage : w.stage with
    | some stage =>
      simp only [keyStep, hstage]
      exact h
    | none =>
      simp only [keyStep, hstage, (begin_files w env fresh .serve).1]
      exact h
  | rotate env fresh r =>
    cases hstage : w.stage with
    | some stage =>
      simp only [keyStep, hstage]
      exact h
    | none =>
      cases hstaged : w.files.staged with
      | some text =>
        simp only [keyStep, hstage, hstaged]
        exact h
      | none =>
        simp only [keyStep, hstage, hstaged, (begin_files w env fresh (.rotate r)).1]
        exact h
  | advance =>
    cases hstage : w.stage with
    | none =>
      simp only [keyStep, hstage]
      exact h
    | some stage =>
      have hstays : stage.replacesKey = false := by
        simpa [hstage] using hkept rfl
      simp only [keyStep, hstage]
      exact advance_copy hB (hready stage hstage) hstays h
  | stop => exact h
  | write handle db' =>
    simp only [keyStep]
    split
    · split
      · exact h
      · exact h
    · exact h
  | close handle => exact h

/-! ## Runs -/

theorem backupStep_fits (hP : P.Lawful) (hB : B.Lawful) {w : BackupWorld} {e : BackupEvent}
    (hw : PairsFit P B w) (horderly : e.orderly P B w = true)
    (hkeeps : e.keepsPair P B w = true) : PairsFit P B (backupStep P B w e).1 := by
  cases e with
  | key e =>
    refine ⟨keyStep_covered_orderly hP hB hw.orderly horderly, ?_⟩
    intro db hdb
    have hcopying : w.copying = true := List.any_eq_true.mpr ⟨_, hdb, rfl⟩
    have hkept : e = .advance → w.keys.stage.any KeyStage.replacesKey = false := by
      rintro rfl
      simpa [BackupEvent.keepsPair, hcopying] using hkeeps
    exact keyStep_copy hB hw.orderly.ready hkept (hw.copies db hdb)
  | begin destExists =>
    simp only [backupStep]
    split
    · exact hw
    · split
      · exact hw
      · refine ⟨hw.orderly, ?_⟩
        intro db hdb
        rcases List.mem_append.mp hdb with hold | hnew
        · exact hw.copies db hold
        · simp at hnew
  | next i fails =>
    simp only [backupStep]
    split
    · rename_i stage hstage
      refine ⟨hw.orderly, ?_⟩
      intro db hdb
      rcases List.mem_or_eq_of_mem_set hdb with hold | hnew
      · exact hw.copies db hold
      · -- A copy is taken now.
        cases stage with
        | readKey snapshot =>
          simp only [BackupStage.next] at hnew
          split at hnew <;> cases hnew
        | vacuum =>
          have hwhole : w.keys.covered.halfRotated P B = false := by
            simpa [BackupEvent.keepsPair, hstage] using hkeeps
          cases fails with
          | some e => cases hnew
          | none =>
            cases hnew
            exact .inr (hw.orderly.current hwhole)
    · exact hw
  | stop i =>
    refine ⟨hw.orderly, ?_⟩
    intro db hdb
    rcases List.mem_or_eq_of_mem_set hdb with hold | hnew
    · exact hw.copies db hold
    · cases hnew

/-- The step with which a backup returns. -/
theorem backupStep_returns {w : BackupWorld} {e : BackupEvent} {pair : BackupPair}
    (h : (backupStep P B w e).2 = some (.ok pair)) :
    some (.readKey pair.db) ∈ w.backups ∧ w.keys.files.keyFile = some pair.key := by
  cases e with
  | key e => cases h
  | stop i => cases h
  | begin destExists =>
    simp only [backupStep] at h
    split at h
    · cases h
    · split at h <;> cases h
  | next i fails =>
    simp only [backupStep] at h
    split at h
    · rename_i stage hstage
      cases stage with
      | vacuum =>
        cases fails <;> cases h
      | readKey snapshot =>
        simp only [BackupStage.next] at h
        split at h
        · cases h
        · cases h
        · rename_i key _ hkey
          cases h
          exact ⟨List.mem_of_getElem? hstage, hkey⟩
    · cases h

/-- Processes on a database whose key is in the key file, and backups beside them: where no
copy is taken while a rotation is half done, and the key file is not replaced between the two
copies of a backup, every archive has the key of its database. -/
theorem backup_carries_key (hP : P.Lawful) (hB : B.Lawful) {w : BackupWorld}
    (hrest : w.keys.stage = none ∧ w.keys.handles = [] ∧ w.backups = [])
    (hw : ∀ c ∈ coveredCells w.keys.db, ∃ key, w.keys.files.current B = some key ∧
      c.opens P key = true)
    {events : List BackupEvent}
    (hguard : Guarded (backupStep P B)
      (fun w e => e.orderly P B w = true ∧ e.keepsPair P B w = true) w events) :
    ∀ x ∈ trace (backupStep P B) w events, ∀ pair, x.out = some (.ok pair) →
      pair.opens P B = true := by
  obtain ⟨hstage, hhandles, hbackups⟩ := hrest
  have hopen : AllOpen P w.keys.covered.db (w.keys.covered.files.current B) := by
    intro c hc
    rw [show w.keys.covered.db = w.keys.db.covered from rfl, sealedCells_covered] at hc
    exact hw c hc
  have hstart : PairsFit P B w := by
    refine ⟨⟨?_, ?_, fun _ => .inl hopen, ?_⟩, ?_⟩
    · intro stage h
      rw [show w.keys.covered.stage = w.keys.stage from rfl, hstage] at h
      cases h
    · intro key h
      rw [show w.keys.covered.handles = w.keys.handles from rfl, hhandles] at h
      cases h
    · intro stage h
      rw [show w.keys.covered.stage = w.keys.stage from rfl, hstage] at h
      cases h
    · intro db h
      rw [hbackups] at h
      cases h
  intro x hx pair hpair
  obtain ⟨hpre, -, hout⟩ :=
    trace_invariant (fun _ _ hw h => backupStep_fits hP hB hw h.1 h.2) hguard hstart hx
  obtain ⟨hcopy, hkey⟩ := backupStep_returns (hout.symm.trans hpair)
  have hall : AllOpen P pair.db.covered (MasterKey.fromBase64 B pair.key) := by
    rcases hpre.copies pair.db hcopy with hnone | hall
    · rw [hkey] at hnone
      cases hnone
    · rw [KeyFiles.current, hkey] at hall
      exact hall
  rw [BackupPair.opens, List.all_eq_true]
  intro c hc
  obtain ⟨key, hsome, hopens⟩ := hall c (by rw [sealedCells_covered]; exact hc)
  rw [hsome]
  exact hopens

/-! ## An installation -/

/-- Nothing is there yet. -/
def BackupWorld.empty : BackupWorld := ⟨.empty, []⟩

/-- A backup is taken before the first rotation commits, and one after its end. -/
def pairedRun : List BackupEvent :=
  firstRotation.map .key ++ ([.begin false, .next 0 none, .key .advance, .next 0 none,
    .key .advance, .key .advance, .begin false, .next 1 none, .next 1 none] : List BackupEvent)

theorem backup_carries_key_twice :
    ((trace (backupStep Primitives.transparent Base64.standard) .empty pairedRun).countP fun x =>
        match x.out with
        | some (.ok pair) => !(coveredCells pair.db).isEmpty
        | _ => false) = 2 ∧
      ∀ x ∈ trace (backupStep Primitives.transparent Base64.standard) .empty pairedRun, ∀ pair,
        x.out = some (.ok pair) → pair.opens Primitives.transparent Base64.standard = true := by
  have hunsealed : ∀ c ∈ coveredCells BackupWorld.empty.keys.db, ∃ key,
      BackupWorld.empty.keys.files.current Base64.standard = some key ∧
        c.opens Primitives.transparent key = true := by
    intro c hc
    cases hc
  refine ⟨by decide +kernel, backup_carries_key Primitives.transparent_lawful
    Base64.standard_lawful ⟨rfl, rfl, rfl⟩ hunsealed ?_⟩
  decide +kernel

/-- The first rotation goes from its commit to its second rename between the two copies of a
backup. -/
def partedRun : List BackupEvent :=
  firstRotation.map .key ++ ([.begin false, .next 0 none, .key .advance, .key .advance,
    .key .advance, .next 0 none] : List BackupEvent)

/-- The server had the key of the key file and has stopped before the rotation, and the
archive has the new key beside the values under the old one. -/
theorem backup_parts_database_and_key :
    Guarded (backupStep Primitives.transparent Base64.standard)
        (fun w e => e.orderly Primitives.transparent Base64.standard w = true) .empty partedRun ∧
      ∃ x ∈ trace (backupStep Primitives.transparent Base64.standard) .empty partedRun, ∃ pair,
        x.out = some (.ok pair) ∧ pair.opens Primitives.transparent Base64.standard = false := by
  refine ⟨by decide +kernel, ?_⟩
  have hmisfit : ((trace (backupStep Primitives.transparent Base64.standard) .empty partedRun).any
      fun x => match x.out with
        | some (.ok pair) => !pair.opens Primitives.transparent Base64.standard
        | _ => false) = true := by
    decide +kernel
  obtain ⟨x, hx, hout⟩ := List.any_eq_true.mp hmisfit
  refine ⟨x, hx, ?_⟩
  split at hout
  · rename_i pair hpair
    exact ⟨pair, hpair, by simpa using hout⟩
  · cases hout

end SuiId

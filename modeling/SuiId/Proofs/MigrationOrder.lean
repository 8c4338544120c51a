import SuiId.Core.MigrationRuns

/-!
# What the runs of `migrations::run` do to a file

* `RunnerMove` says everything that one step of a run can do, and `next_move` that it does
  nothing else;
* `Remaining` is the invariant of the loop: what is left of `MIGRATIONS` begins no later
  than right after the stored version, so the version that a commit writes is the next;
* `FileHistory` is what every run keeps of the file: its stored version counts the
  commits, whose versions are consecutive;
* `leftBy` is a run that is over or whose own check is next (`CulpritChecks`), as long as
  only that run goes on; so a run that returns `Ok` then finds no violation.
-/

namespace SuiId

open Lib Lib.Machine

variable {D : Type} {S : Sqlite D}

/-! ## One step of one run -/

/-- What a step of a run can do. -/
inductive RunnerMove (S : Sqlite D) (r : Runner) (fails : Statement → Bool) (f : DbFile D) :
    RunnerStep D → Prop where
  | failed (e : MigrateError) : RunnerMove S r fails f ⟨f, .returned (.error e), none⟩
  | opened (stored : StoredVersion) (hstage : r.stage = .opening)
      (hstored : f.storedVersion S = .ok stored)
      (hmax : stored.number ≤ r.build.maxSchemaVersion) :
      RunnerMove S r fails f
        ⟨f.createMeta, .running { r with stage := .applying (r.build.pending stored) }, none⟩
  | finished (hstage : r.stage = .applying []) :
      RunnerMove S r fails f ⟨f, .returned (.ok ()), none⟩
  | skipped (m : Migration) (todo : List Migration) (foreignKeys : Bool) (stored : StoredVersion)
      (hstage : r.stage = .applying (m :: todo)) (hstored : f.storedVersion S = .ok stored)
      (hversion : m.version ≤ stored.number) :
      RunnerMove S r fails f
        ⟨f, .running { r with foreignKeys, stage := .applying todo }, none⟩
  | applied (m : Migration) (todo : List Migration) (foreignKeys : Bool)
      (stored : StoredVersion) (contents : D)
      (hstage : r.stage = .applying (m :: todo)) (hstored : f.storedVersion S = .ok stored)
      (hmax : stored.number ≤ r.build.maxSchemaVersion)
      (hversion : stored.number < m.version) (hmeta : f.suiMeta.isSome) :
      RunnerMove S r fails f
        ⟨f.stamped r.build contents m, .running { r with
          foreignKeys
          stage := if m.needsFkDisable then .checking m todo else .applying todo }, some m⟩
  | checked (m : Migration) (todo : List Migration) (hstage : r.stage = .checking m todo)
      (hcheck : fails .readCheck = true ∨ S.foreignKeyCheck f.contents = none) :
      RunnerMove S r fails f ⟨f, .running { r with stage := .applying todo }, none⟩

variable {m : Migration} {f : DbFile D} {todo : List Migration} {b : Build} {r : Runner}

/-- A check that passes found no violation, or could not be read. -/
private theorem checkRebuild_ok {fails : Statement → Bool} (h : checkRebuild S fails m f = .ok ()) :
    fails .readCheck = true ∨ S.foreignKeyCheck f.contents = none := by
  unfold checkRebuild at h
  by_cases hprepare : fails .prepareCheck = true
  · rw [if_pos hprepare] at h
    cases h
  · rw [if_neg hprepare] at h
    by_cases hread : fails .readCheck = true
    · exact .inl hread
    · rw [if_neg hread] at h
      cases hcheck : S.foreignKeyCheck f.contents with
      | none => exact .inr rfl
      | some table =>
        rw [hcheck] at h
        cases h

private theorem apply_move (r : Runner) (fails : Statement → Bool) (f : DbFile D)
    (hstage : r.stage = .applying (m :: todo)) :
    RunnerMove S r fails f (r.apply S fails m todo f) := by
  unfold Runner.apply
  split
  · exact .failed .db
  · cases htx : migrationTx S r.build fails (r.foreignKeys && !m.needsFkDisable) m f with
    | error e => exact .failed e
    | ok outcome =>
      cases outcome with
      | none =>
        obtain ⟨stored, hstored, hversion⟩ := migrationTx_skipped htx
        exact .skipped m todo _ stored hstage hstored hversion
      | some f' =>
        obtain ⟨stored, contents, hstored, hmax, hversion, -, hmeta, rfl⟩ :=
          migrationTx_applied htx
        exact .applied m todo _ stored contents hstage hstored hmax hversion hmeta

/-- A step of a run does one of these. -/
theorem next_move (r : Runner) (fails : Statement → Bool) (f : DbFile D) :
    RunnerMove S r fails f (r.next S fails f) := by
  unfold Runner.next
  cases hstage : r.stage with
  | opening =>
    cases htx : openingTx S r.build fails f with
    | error e => exact .failed e
    | ok result =>
      obtain ⟨f', stored⟩ := result
      obtain ⟨rfl, hstored, hmax⟩ := openingTx_ok htx
      exact .opened stored hstage hstored hmax
  | applying todo =>
    cases todo with
    | nil => exact .finished hstage
    | cons m todo => exact apply_move r fails f hstage
  | checking m todo =>
    cases hcheck : checkRebuild S fails m f with
    | error e =>
      simp only [hcheck]
      exact .failed e
    | ok u =>
      simp only [hcheck]
      exact .checked m todo hstage (checkRebuild_ok hcheck)

/-- A build does not write to a file whose version it cannot use. -/
theorem next_of_refused {r : Runner} {fails : Statement → Bool} {f : DbFile D}
    (h : ∀ stored, f.storedVersion S = .ok stored → r.build.maxSchemaVersion < stored.number) :
    (r.next S fails f).file = f ∧ (r.next S fails f).committed = none := by
  have hmove := next_move (S := S) r fails f
  generalize r.next S fails f = s at hmove
  cases hmove with
  | failed e => exact ⟨rfl, rfl⟩
  | finished hstage => exact ⟨rfl, rfl⟩
  | skipped m todo fk stored hstage hstored hversion => exact ⟨rfl, rfl⟩
  | checked m todo hstage hcheck => exact ⟨rfl, rfl⟩
  | opened stored hstage hstored hmax =>
    have := h stored hstored
    omega
  | applied m todo fk stored contents hstage hstored hmax hversion hmeta =>
    have := h stored hstored
    omega

/-! ## The loop -/

/-- The migrations that a run has still to look at. -/
def RunStage.todo? : RunStage → Option (List Migration)
  | .opening => none
  | .applying todo => some todo
  | .checking _ todo => some todo

/-- They begin no later than right after the stored version. -/
def Remaining (S : Sqlite D) (f : DbFile D) (b : Build) (todo : List Migration) : Prop :=
  ∃ k stored, todo = b.migrations.drop k ∧ f.storedVersion S = .ok stored ∧
    k ≤ stored.number ∧ f.suiMeta.isSome

/-- The stored version stays readable and does not fall, and `sui_meta` stays. -/
structure VersionGrows (S : Sqlite D) (f f' : DbFile D) : Prop where
  version : ∀ stored, f.storedVersion S = .ok stored →
    ∃ stored', f'.storedVersion S = .ok stored' ∧ stored.number ≤ stored'.number
  suiMeta : f.suiMeta.isSome → f'.suiMeta.isSome

theorem VersionGrows.refl (f : DbFile D) : VersionGrows S f f :=
  ⟨fun stored h => ⟨stored, h, Nat.le_refl _⟩, id⟩

theorem VersionGrows.trans {f' f'' : DbFile D} (h : VersionGrows S f f')
    (h' : VersionGrows S f' f'') :
    VersionGrows S f f'' := by
  refine ⟨fun stored hstored => ?_, fun hmeta => h'.suiMeta (h.suiMeta hmeta)⟩
  obtain ⟨stored', hstored', hle⟩ := h.version stored hstored
  obtain ⟨stored'', hstored'', hle'⟩ := h'.version stored' hstored'
  exact ⟨stored'', hstored'', hle.trans hle'⟩

theorem Remaining.mono {f' : DbFile D} (h : Remaining S f b todo) (hgrows : VersionGrows S f f') :
    Remaining S f' b todo := by
  obtain ⟨k, stored, htodo, hstored, hk, hmeta⟩ := h
  obtain ⟨stored', hstored', hle⟩ := hgrows.version stored hstored
  exact ⟨k, stored', htodo, hstored', hk.trans hle, hgrows.suiMeta hmeta⟩

/-- The first of the entries after `k`. -/
theorem Build.of_drop_eq_cons {k : Nat} (h : m :: todo = b.migrations.drop k) :
    m.version = k + 1 ∧ m.version < 2 ^ 31 ∧ todo = b.migrations.drop (k + 1) := by
  have hlength : k < b.migrations.length := by
    by_contra hge
    rw [List.drop_of_length_le (by omega)] at h
    cases h
  rw [List.drop_eq_getElem_cons hlength] at h
  obtain ⟨rfl, htail⟩ := List.cons.inj h
  have hversion := b.version_getElem hlength
  have hbounded := b.bounded
  exact ⟨hversion, by omega, htail⟩

/-- Past a migration that the stored version covers. -/
theorem Remaining.tail {stored : StoredVersion} (h : Remaining S f b (m :: todo))
    (hstored : f.storedVersion S = .ok stored) (hversion : m.version ≤ stored.number) :
    Remaining S f b todo := by
  obtain ⟨k, stored', htodo, -, -, hmeta⟩ := h
  obtain ⟨hnumber, -, htail⟩ := Build.of_drop_eq_cons htodo
  exact ⟨k + 1, stored, htail, hstored, by omega, hmeta⟩

/-- A commit writes the next version. -/
theorem Remaining.commit {stored : StoredVersion} {contents : D} (h : Remaining S f b (m :: todo))
    (hstored : f.storedVersion S = .ok stored) (hversion : stored.number < m.version)
    (hmeta : f.suiMeta.isSome) :
    m.version = stored.number + 1 ∧
      (f.stamped b contents m).storedVersion S = .ok (.at m.version) ∧
      VersionGrows S f (f.stamped b contents m) := by
  obtain ⟨k, stored', htodo, hstored', hk, -⟩ := h
  obtain ⟨hnumber, hbound, -⟩ := Build.of_drop_eq_cons htodo
  have hsame : stored' = stored := by
    rw [hstored'] at hstored
    exact Except.ok.inj hstored
  subst hsame
  have hpos : 0 < m.version := by omega
  have hstamped : (f.stamped b contents m).storedVersion S = .ok (.at m.version) :=
    DbFile.storedVersion_stamped hmeta hpos hbound
  refine ⟨by omega, hstamped, fun before hbefore => ?_, fun _ => ?_⟩
  · rw [hstored] at hbefore
    cases hbefore
    exact ⟨.at m.version, hstamped, Nat.le_of_lt hversion⟩
  · rw [DbFile.stamped, Option.isSome_map]
    exact hmeta

/-- What holds of a run on the file. -/
def Runner.Fits (S : Sqlite D) (r : Runner) (f : DbFile D) : Prop :=
  ∀ todo, r.stage.todo? = some todo → Remaining S f r.build todo

/-- What a step of a run keeps. -/
structure FittingStep (S : Sqlite D) (f : DbFile D) (s : RunnerStep D) : Prop where
  grows : VersionGrows S f s.file
  fits : ∀ r, s.progress = .running r → r.Fits S s.file
  /-- A step that commits nothing leaves the stored version. -/
  kept : s.committed = none → s.file.storedVersion S = f.storedVersion S
  /-- A commit raises it by one. -/
  raised : ∀ m, s.committed = some m → ∃ stored, f.storedVersion S = .ok stored ∧
    m.version = stored.number + 1 ∧ s.file.storedVersion S = .ok (.at m.version)

/-- The stage after the step has these migrations left. -/
private theorem fits_of_todo (hstage : r.stage.todo? = some todo) (h : Remaining S f r.build todo) :
    r.Fits S f := by
  intro todo' htodo'
  rw [hstage] at htodo'
  cases htodo'
  exact h

theorem createMeta_grows (f : DbFile D) : VersionGrows S f f.createMeta := by
  refine ⟨fun stored hstored => ⟨stored, ?_, Nat.le_refl _⟩, fun _ => rfl⟩
  rw [DbFile.storedVersion_createMeta]
  exact hstored

/-- A step that only returns. -/
private theorem fits_of_returned (f : DbFile D) (result : Except MigrateError Unit) :
    FittingStep S f ⟨f, .returned result, none⟩ where
  grows := .refl f
  fits r hr := by cases hr
  kept _ := rfl
  raised m hm := by cases hm

theorem next_fits (h : r.Fits S f) (fails : Statement → Bool) :
    FittingStep S f (r.next S fails f) := by
  have hmove := next_move (S := S) r fails f
  generalize r.next S fails f = s at hmove
  cases hmove with
  | failed e => exact fits_of_returned f (.error e)
  | finished hstage => exact fits_of_returned f (.ok ())
  | opened stored hstage hstored hmax =>
    have hremaining : Remaining S f.createMeta r.build (r.build.pending stored) := by
      refine ⟨stored.number, stored, r.build.pending_eq_drop stored, ?_, Nat.le_refl _, rfl⟩
      rw [DbFile.storedVersion_createMeta]
      exact hstored
    refine ⟨createMeta_grows f, fun r' hr' => ?_, fun _ => DbFile.storedVersion_createMeta f,
      fun m hm => by cases hm⟩
    cases hr'
    exact fits_of_todo rfl hremaining
  | skipped m todo fk stored hstage hstored hversion =>
    have hremaining := (h (m :: todo) (by rw [hstage]; rfl)).tail hstored hversion
    refine ⟨.refl f, fun r' hr' => ?_, fun _ => rfl, fun m hm => by cases hm⟩
    cases hr'
    exact fits_of_todo rfl hremaining
  | applied m todo fk stored contents hstage hstored hmax hversion hmeta =>
    have hcommit : m.version = stored.number + 1 ∧
        (f.stamped r.build contents m).storedVersion S = .ok (.at m.version) ∧
        VersionGrows S f (f.stamped r.build contents m) :=
      (h (m :: todo) (by rw [hstage]; rfl)).commit hstored hversion hmeta
    obtain ⟨hnext, hstamped, hgrows⟩ := hcommit
    have hbefore : Remaining S (f.stamped r.build contents m) r.build (m :: todo) :=
      (h (m :: todo) (by rw [hstage]; rfl)).mono hgrows
    have hremaining := hbefore.tail hstamped (Nat.le_refl _)
    refine ⟨hgrows, fun r' hr' => ?_, fun hnone => (by cases hnone), fun m' hm' => ?_⟩
    · cases hr'
      by_cases hmarked : m.needsFkDisable = true
      · exact fits_of_todo (by simp only [if_pos hmarked]; rfl) hremaining
      · exact fits_of_todo (by simp only [if_neg hmarked]; rfl) hremaining
    · cases hm'
      exact ⟨stored, hstored, hnext, hstamped⟩
  | checked m todo hstage hcheck =>
    have hremaining := h todo (by rw [hstage]; rfl)
    refine ⟨.refl f, fun r' hr' => ?_, fun _ => rfl, fun m hm => by cases hm⟩
    cases hr'
    exact fits_of_todo rfl hremaining

/-! ## Every run -/

/-- The run that a step leaves, if it goes on. -/
def MigrateProgress.runner? : MigrateProgress → Option Runner
  | .running r => some r
  | .returned _ => none

theorem MigrateProgress.runner?_eq_some {p : MigrateProgress} (h : p.runner? = some r) :
    p = .running r := by
  cases p with
  | running r' =>
    cases h
    rfl
  | returned result => cases h

section Took

variable (w : MigrationWorld D) (i : Nat) (s : RunnerStep D)

@[simp] theorem took_file : (w.took S i s).1.file = s.file := by
  obtain ⟨file, progress, committed⟩ := s
  cases progress <;> rfl

@[simp] theorem took_commits : (w.took S i s).1.commits =
    w.commits ++ (s.committed.map fun m => (i, m)).toList := by
  obtain ⟨file, progress, committed⟩ := s
  cases progress <;> rfl

theorem took_runners : (w.took S i s).1.runners = w.runners.set i s.progress.runner? := by
  obtain ⟨file, progress, committed⟩ := s
  cases progress <;> rfl

theorem took_leftBy : (w.took S i s).1.leftBy = match s.committed with
    | none => w.leftBy
    | some m => leftAfter S i m s.file w.leftBy := by
  obtain ⟨file, progress, committed⟩ := s
  cases progress <;> rfl

/-- A step answers `Ok` when the run returns it. -/
theorem took_answer {result : Except MigrateError Unit}
    (h : (w.took S i s).2 = some result) : s.progress = .returned result := by
  unfold MigrationWorld.took at h
  cases hp : s.progress with
  | running r =>
    rw [hp] at h
    cases h
  | returned result' =>
    rw [hp] at h
    cases h
    rfl

end Took

/-- The runs after one of them is replaced. -/
theorem join_set_getElem? (l : List (Option Runner)) (i j : Nat) (x : Option Runner) :
    ((l.set i x)[j]?).join = if i = j ∧ i < l.length then x else (l[j]?).join := by
  rw [List.getElem?_set]
  by_cases hij : i = j
  · subst hij
    by_cases hlt : i < l.length <;> simp [hlt]
  · simp [hij]

theorem took_runner? (w : MigrationWorld D) (i j : Nat) (s : RunnerStep D) :
    (w.took S i s).1.runner? j =
      if i = j ∧ i < w.runners.length then s.progress.runner? else w.runner? j := by
  rw [MigrationWorld.runner?, took_runners, join_set_getElem?]
  rfl

/-- A run that goes on after a step went on before it, or has just begun. -/
theorem runner?_step {w : MigrationWorld D} {e : MigrationEvent} {j : Nat}
    (h : (migrationStep S w e).1.runner? j = some r) :
    w.runner? j = some r ∨ r.stage = .opening ∨
      ∃ fails r₀, e = .next j fails ∧ w.runner? j = some r₀ ∧
        (r₀.next S fails w.file).progress = .running r := by
  cases e with
  | start build =>
    have hjoin : ((w.runners ++ [some (⟨build, true, .opening⟩ : Runner)])[j]?).join = some r := h
    by_cases hj : j < w.runners.length
    · rw [List.getElem?_append_left hj] at hjoin
      exact .inl hjoin
    · rw [List.getElem?_append_right (by omega)] at hjoin
      cases hk : j - w.runners.length with
      | zero =>
        rw [hk] at hjoin
        cases hjoin
        exact .inr (.inl rfl)
      | succ k =>
        rw [hk] at hjoin
        cases hjoin
  | next i fails =>
    simp only [migrationStep] at h
    cases hr : w.runner? i with
    | none =>
      rw [hr] at h
      exact .inl h
    | some r₀ =>
      simp only [hr] at h
      rw [took_runner?] at h
      by_cases hij : i = j ∧ i < w.runners.length
      · rw [if_pos hij] at h
        obtain ⟨rfl, -⟩ := hij
        exact .inr (.inr ⟨fails, r₀, rfl, hr, MigrateProgress.runner?_eq_some h⟩)
      · rw [if_neg hij] at h
        exact .inl h
  | stop i =>
    have hjoin : ((w.runners.set i none)[j]?).join = some r := h
    rw [join_set_getElem?] at hjoin
    by_cases hij : i = j ∧ i < w.runners.length
    · rw [if_pos hij] at hjoin
      cases hjoin
    · rw [if_neg hij] at hjoin
      exact .inl hjoin

/-- What every run keeps of the file that it began with. -/
structure FileHistory (S : Sqlite D) (f₀ : DbFile D) (w : MigrationWorld D) : Prop where
  fits : ∀ i r, w.runner? i = some r → r.Fits S w.file
  /-- A file without a valid version is never written. -/
  unreadable : ∀ e, f₀.storedVersion S = .error e → w.file = f₀ ∧ w.commits = []
  /-- The stored version counts the commits, which are in order. -/
  counted : ∀ stored, f₀.storedVersion S = .ok stored →
    (∃ now, w.file.storedVersion S = .ok now ∧
      now.number = stored.number + w.commits.length) ∧
    w.commits.map (·.2.version) = List.range' (stored.number + 1) w.commits.length

theorem FileHistory.quiescent (f : DbFile D) : FileHistory S f (.quiescent f) where
  fits i r h := by cases h
  unreadable e h := ⟨rfl, rfl⟩
  counted stored h := ⟨⟨stored, h, rfl⟩, rfl⟩

section Step

variable {f₀ : DbFile D} {w : MigrationWorld D}

/-- The file and the commits change only by the step of a run. -/
theorem migrationStep_next {i : Nat} {r : Runner} (hr : w.runner? i = some r)
    (fails : Statement → Bool) :
    migrationStep S w (.next i fails) = w.took S i (r.next S fails w.file) := by
  simp only [migrationStep, hr]

/-- Otherwise the file, the commits and the culprit stay. -/
theorem migrationStep_idle {e : MigrationEvent}
    (h : ∀ i fails, e = .next i fails → w.runner? i = none) :
    (migrationStep S w e).1.file = w.file ∧ (migrationStep S w e).1.commits = w.commits ∧
      (migrationStep S w e).1.leftBy = w.leftBy ∧ (migrationStep S w e).2 = none := by
  cases e with
  | start build => exact ⟨rfl, rfl, rfl, rfl⟩
  | stop i => exact ⟨rfl, rfl, rfl, rfl⟩
  | next i fails =>
    simp only [migrationStep, h i fails rfl]
    exact ⟨trivial, trivial, trivial, trivial⟩

/-- A step is idle or the step of a run. -/
theorem idle_or_next (w : MigrationWorld D) (e : MigrationEvent) :
    (∀ i fails, e = .next i fails → w.runner? i = none) ∨
      ∃ i fails r, e = .next i fails ∧ w.runner? i = some r := by
  cases e with
  | start build => exact .inl fun i fails h => by cases h
  | stop i => exact .inl fun i fails h => by cases h
  | next i fails =>
    cases hr : w.runner? i with
    | none =>
      refine .inl fun i' fails' h => ?_
      cases h
      exact hr
    | some r => exact .inr ⟨i, fails, r, rfl, hr⟩

theorem FileHistory.grows (h : FileHistory S f₀ w) (e : MigrationEvent) :
    VersionGrows S w.file (migrationStep S w e).1.file := by
  rcases idle_or_next w e with hidle | ⟨i, fails, r, rfl, hr⟩
  · rw [(migrationStep_idle hidle).1]
    exact .refl _
  · rw [migrationStep_next hr, took_file]
    exact (next_fits (h.fits i r hr) fails).grows

theorem FileHistory.step (h : FileHistory S f₀ w) (e : MigrationEvent) :
    FileHistory S f₀ (migrationStep S w e).1 := by
  have hgrows := h.grows e
  have hfits : ∀ j r, (migrationStep S w e).1.runner? j = some r →
      r.Fits S (migrationStep S w e).1.file := by
    intro j r hj
    rcases runner?_step hj with hbefore | hopening | ⟨fails, r₀, rfl, hr₀, hprogress⟩
    · exact fun todo htodo => (h.fits j r hbefore todo htodo).mono hgrows
    · intro todo htodo
      rw [hopening] at htodo
      cases htodo
    · rw [migrationStep_next hr₀, took_file]
      exact (next_fits (h.fits j r₀ hr₀) fails).fits r hprogress
  rcases idle_or_next w e with hidle | ⟨i, fails, r, rfl, hr⟩
  · obtain ⟨hfile, hcommits, -, -⟩ := migrationStep_idle (S := S) hidle
    refine ⟨hfits, ?_, ?_⟩
    · rw [hfile, hcommits]
      exact h.unreadable
    · rw [hfile, hcommits]
      exact h.counted
  · have hstep := next_fits (h.fits i r hr) fails
    rw [migrationStep_next hr] at hfits ⊢
    refine ⟨hfits, fun e he => ?_, fun stored hstored => ?_⟩
    · obtain ⟨hfile, hcommits⟩ := h.unreadable e he
      have herror : w.file.storedVersion S = .error e := by
        rw [hfile]
        exact he
      have hrefused : (r.next S fails w.file).file = w.file ∧
          (r.next S fails w.file).committed = none :=
        next_of_refused (fun stored hstored => by
          rw [herror] at hstored
          cases hstored)
      obtain ⟨hsame, hnone⟩ := hrefused
      rw [took_file, took_commits, hnone, hsame, hcommits]
      exact ⟨hfile, rfl⟩
    · obtain ⟨⟨now, hnow, hnumber⟩, hversions⟩ := h.counted stored hstored
      rw [took_file, took_commits]
      cases hc : (r.next S fails w.file).committed with
      | none =>
        rw [hstep.kept hc]
        simp only [Option.map_none, Option.toList_none, List.append_nil]
        exact ⟨⟨now, hnow, hnumber⟩, hversions⟩
      | some m =>
        obtain ⟨before, hbefore, hversion, hafter⟩ := hstep.raised m hc
        have hsame : before = now := by
          rw [hbefore] at hnow
          exact Except.ok.inj hnow
        subst hsame
        have hnext : m.version = stored.number + 1 + w.commits.length := by omega
        simp only [Option.map_some, Option.toList_some, List.length_append, List.length_singleton,
          List.map_append, List.map_singleton, hversions, List.range'_concat, Nat.one_mul]
        rw [hnext] at hafter ⊢
        refine ⟨⟨_, hafter, ?_⟩, rfl⟩
        show stored.number + 1 + w.commits.length = stored.number + (w.commits.length + 1)
        omega

end Step

/-- The history holds after every run. -/
theorem fileHistory_run (f : DbFile D) (es : List MigrationEvent) :
    FileHistory S f (run (migrationStep S) (.quiescent f) es) :=
  run_invariant (fun _ e h _ => h.step e) (guarded_true _ es) (.quiescent f)

end SuiId

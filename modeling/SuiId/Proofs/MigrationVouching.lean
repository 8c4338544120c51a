import SuiId.Proofs.MigrationOrder

/-!
# What an `Ok` of `migrations::run` vouches for

The foreign-key check of a marked migration runs after its commit, and only in the
process that committed it.  So a violation that it left stays in the file when that
process refuses to start, and another process, or the next start, finds the version
written and no check to make: `migrations_vouch_for_violation`.

* `previewed` relates the list of `preview` to what the next run commits, step for step
  (`AloneHistory`);
* `CulpritChecks` is the invariant of the orderly case, where nobody but the run that
  left the violation goes on, and its check can be read.
-/

namespace SuiId

open Lib Lib.Machine

variable {D : Type} {S : Sqlite D}

/-! ## The next run on a quiescent file -/

/-- A run of `build` with nobody else on the file; each step with the statements that fail. -/
def aloneEvents (build : Build) (steps : List (Statement → Bool)) : List MigrationEvent :=
  .start build :: steps.map (.next 0 ·)

/-- What is committed and what is left make up what was pending. -/
def RunStage.Leaves (pending committed : List Migration) : RunStage → Prop
  | .opening => committed = []
  | .applying todo => committed ++ todo = pending
  | .checking _ todo => committed ++ todo = pending

/-- How many steps the run takes at most. -/
def RunStage.stepsLeft (pending : Nat) : RunStage → Nat
  | .opening => 2 * pending + 2
  | .applying todo => 2 * todo.length + 1
  | .checking _ todo => 2 * todo.length + 2

/-- The history of a run that is alone on the file. -/
structure AloneHistory (S : Sqlite D) (f : DbFile D) (b : Build) (pending : List Migration)
    (past : List (Taken (MigrationWorld D) MigrationEvent RunAnswer)) (w : MigrationWorld D) :
    Prop where
  file : FileHistory S f w
  started : 0 < w.runners.length
  running : ∀ r, w.runner? 0 = some r → r.build = b ∧
    r.stage.Leaves pending (w.commits.map (·.2)) ∧
    r.stage.stepsLeft pending.length + past.length ≤ 2 * pending.length + 2
  committed : w.commits.map (·.2) <+: pending
  returned : (∃ x ∈ past, x.out = some (.ok ())) →
    w.runner? 0 = none ∧ w.commits.map (·.2) = pending

section Alone

variable {f : DbFile D} {b : Build} {stored : StoredVersion}
  {past : List (Taken (MigrationWorld D) MigrationEvent RunAnswer)} {w : MigrationWorld D}

theorem AloneHistory.start (pending : List Migration) :
    AloneHistory S f b pending []
      (migrationStep S (.quiescent f) (.start b)).1 where
  file := (FileHistory.quiescent f).step _
  started := Nat.zero_lt_one
  running r hr := by
    cases hr
    exact ⟨rfl, rfl, Nat.le_refl _⟩
  committed := List.nil_prefix
  returned h := by
    obtain ⟨x, hx, -⟩ := h
    cases hx

/-- The step of a run that is alone, and goes on. -/
private theorem AloneHistory.step_running (h : AloneHistory S f b (b.pending stored) past w)
    (hstored : f.storedVersion S = .ok stored) {r : Runner} (hr : w.runner? 0 = some r)
    (fails : Statement → Bool) :
    let s := r.next S fails w.file
    let committed := w.commits.map (·.2) ++ s.committed.toList
    committed <+: b.pending stored ∧
      (∀ r', s.progress = .running r' → r'.build = b ∧
        r'.stage.Leaves (b.pending stored) committed ∧
        r'.stage.stepsLeft (b.pending stored).length <
          r.stage.stepsLeft (b.pending stored).length) ∧
      (s.progress = .returned (.ok ()) → committed = b.pending stored) := by
  obtain ⟨hbuild, hleaves, -⟩ := h.running r hr
  obtain ⟨⟨now, hnow, hnumber⟩, -⟩ := h.file.counted stored hstored
  have hmove := next_move (S := S) r fails w.file
  generalize r.next S fails w.file = s at hmove
  cases hmove with
  | failed e =>
    simp only [Option.toList_none, List.append_nil]
    exact ⟨h.committed, fun r' hr' => (by cases hr'), fun hok => (by cases hok)⟩
  | finished hstage =>
    simp only [Option.toList_none, List.append_nil]
    refine ⟨h.committed, fun r' hr' => (by cases hr'), fun _ => ?_⟩
    rw [hstage] at hleaves
    rw [← hleaves, List.append_nil]
  | opened stored' hstage hstored' hmax =>
    simp only [Option.toList_none, List.append_nil]
    refine ⟨h.committed, fun r' hr' => ?_, fun hok => (by cases hok)⟩
    cases hr'
    rw [hstage] at hleaves
    have hnil : w.commits.map (·.2) = [] := hleaves
    have hlength : w.commits.length = 0 := by
      rw [← List.length_map (·.2), hnil]
      rfl
    have hsame : stored'.number = stored.number := by
      rw [hnow] at hstored'
      cases hstored'
      omega
    have hpending : r.build.pending stored' = b.pending stored := by
      rw [Build.pending_eq_drop, Build.pending_eq_drop, hsame, hbuild]
    refine ⟨hbuild, ?_, ?_⟩
    · show w.commits.map (·.2) ++ r.build.pending stored' = b.pending stored
      rw [hnil, hpending, List.nil_append]
    · rw [hstage]
      show 2 * (r.build.pending stored').length + 1 < 2 * (b.pending stored).length + 2
      rw [hpending]
      omega
  | skipped m todo fk stored' hstage hstored' hversion =>
    -- The next entry is above the stored version, so this does not happen.
    exfalso
    rw [hstage] at hleaves
    have hdrop : m :: todo = b.migrations.drop (stored.number + w.commits.length) := by
      have hpending : w.commits.map (·.2) ++ m :: todo = b.migrations.drop stored.number := by
        rw [← Build.pending_eq_drop]
        exact hleaves
      have hlength : (w.commits.map (·.2)).length = w.commits.length := List.length_map _
      rw [← List.drop_drop, ← hpending, List.drop_left' hlength]
    obtain ⟨hm, -, -⟩ := Build.of_drop_eq_cons hdrop
    rw [hnow] at hstored'
    cases hstored'
    omega
  | applied m todo fk stored' contents hstage hstored' hmax hversion hmeta =>
    rw [hstage] at hleaves ⊢
    have hpending : w.commits.map (·.2) ++ m :: todo = b.pending stored := hleaves
    have hsplit : (w.commits.map (·.2) ++ [m]) ++ todo = b.pending stored := by
      rw [List.append_assoc]
      exact hpending
    simp only [Option.toList_some]
    refine ⟨⟨todo, hsplit⟩, fun r' hr' => ?_, fun hok => (by cases hok)⟩
    cases hr'
    refine ⟨hbuild, ?_, ?_⟩
    · by_cases hmarked : m.needsFkDisable = true
      · rw [if_pos hmarked]
        exact hsplit
      · rw [if_neg hmarked]
        exact hsplit
    · by_cases hmarked : m.needsFkDisable = true
      · rw [if_pos hmarked]
        show 2 * todo.length + 2 < 2 * (todo.length + 1) + 1
        omega
      · rw [if_neg hmarked]
        show 2 * todo.length + 1 < 2 * (todo.length + 1) + 1
        omega
  | checked m todo hstage hcheck =>
    rw [hstage] at hleaves ⊢
    simp only [Option.toList_none, List.append_nil]
    refine ⟨h.committed, fun r' hr' => ?_, fun hok => (by cases hok)⟩
    cases hr'
    exact ⟨hbuild, hleaves, Nat.lt_succ_self _⟩

theorem AloneHistory.step (h : AloneHistory S f b (b.pending stored) past w)
    (hstored : f.storedVersion S = .ok stored) (fails : Statement → Bool) :
    AloneHistory S f b (b.pending stored)
      (past ++ [⟨w, .next 0 fails, (migrationStep S w (.next 0 fails)).2⟩])
      (migrationStep S w (.next 0 fails)).1 := by
  have hfile := h.file.step (.next 0 fails)
  cases hr : w.runner? 0 with
  | none =>
    have hidle : migrationStep S w (.next 0 fails) = (w, none) := by
      simp only [migrationStep, hr]
    rw [hidle]
    refine ⟨h.file, h.started, fun r hr' => ?_, h.committed, ?_⟩
    · rw [hr] at hr'
      cases hr'
    · rintro ⟨x, hx, hout⟩
      rcases List.mem_append.mp hx with hx | hx
      · exact h.returned ⟨x, hx, hout⟩
      · cases List.mem_singleton.mp hx
        cases hout
  | some r =>
    have hstep := h.step_running hstored hr fails
    obtain ⟨hleads, hgoes, hok⟩ := hstep
    have hsteps := (h.running r hr).2.2
    have hearlier : ¬ ∃ x ∈ past, x.out = some (.ok ()) := by
      intro hx
      have hnone := (h.returned hx).1
      rw [hr] at hnone
      cases hnone
    rw [migrationStep_next hr] at hfile ⊢
    have hcommits : (w.took S 0 (r.next S fails w.file)).1.commits.map (·.2) =
        w.commits.map (·.2) ++ (r.next S fails w.file).committed.toList := by
      rw [took_commits, List.map_append]
      cases (r.next S fails w.file).committed <;> rfl
    have hrunner : (w.took S 0 (r.next S fails w.file)).1.runner? 0 =
        (r.next S fails w.file).progress.runner? := by
      rw [took_runner?, if_pos ⟨rfl, h.started⟩]
    refine ⟨hfile, ?_, fun r' hr' => ?_, ?_, ?_⟩
    · rw [took_runners, List.length_set]
      exact h.started
    · rw [hrunner] at hr'
      obtain ⟨hbuild, hleaves, hless⟩ := hgoes r' (MigrateProgress.runner?_eq_some hr')
      rw [hcommits, List.length_append, List.length_singleton]
      exact ⟨hbuild, hleaves, by omega⟩
    · rw [hcommits]
      exact hleads
    · rintro ⟨x, hx, hout⟩
      rcases List.mem_append.mp hx with hx | hx
      · exact absurd ⟨x, hx, hout⟩ hearlier
      · cases List.mem_singleton.mp hx
        have hreturned := took_answer _ _ _ hout
        rw [hrunner, hcommits, hreturned]
        exact ⟨rfl, hok hreturned⟩

end Alone

/-- What a run that is alone on a file with a valid version commits: a prefix of what was
pending, all of it if it returns `Ok`; and it returns. -/
theorem alone_history {f : DbFile D} {stored : StoredVersion}
    (hstored : f.storedVersion S = .ok stored) (b : Build) (steps : List (Statement → Bool)) :
    let w₁ := (migrationStep S (.quiescent f) (.start b)).1
    AloneHistory S f b (b.pending stored)
      (trace (migrationStep S) w₁ (steps.map (.next 0 ·)))
      (run (migrationStep S) (.quiescent f) (aloneEvents b steps)) := by
  have hguard : Guarded (migrationStep S) (fun _ e => ∃ fails, e = .next 0 fails)
      (migrationStep S (.quiescent f) (.start b)).1 (steps.map (.next 0 ·)) := by
    apply guarded_of_forall
    intro e he
    obtain ⟨fails, -, rfl⟩ := List.mem_map.mp he
    exact ⟨fails, rfl⟩
  refine run_trace_history (fun past w e h hnext => ?_) hguard (.start (b.pending stored))
  obtain ⟨fails, rfl⟩ := hnext
  exact h.step hstored fails

/-! ## The culprit -/

/-- While a violation that a marked migration left is in the database, only the run that
committed the migration goes on, and its check can be read. -/
def onlyCulprit (w : MigrationWorld D) (e : MigrationEvent) : Bool :=
  match w.leftBy, e with
  | some culprit, .next i fails => i == culprit && !fails .readCheck
  | _, _ => true

/-- The run that left a violation is over, or its check is next and finds it. -/
structure CulpritChecks (S : Sqlite D) (w : MigrationWorld D) : Prop where
  violated : w.leftBy.isSome → (S.foreignKeyCheck w.file.contents).isSome
  begun : ∀ culprit, w.leftBy = some culprit → culprit < w.runners.length
  checks : ∀ culprit, w.leftBy = some culprit → ∀ r, w.runner? culprit = some r →
    ∃ m todo, r.stage = .checking m todo

section Culprit

variable {w : MigrationWorld D}
variable {i culprit : Nat} {fails : Statement → Bool} {r : Runner} {e : MigrationEvent}

private theorem onlyCulprit_next (h : onlyCulprit w (.next i fails) = true)
    (hleft : w.leftBy = some culprit) :
    i = culprit ∧ fails .readCheck = false := by
  unfold onlyCulprit at h
  rw [hleft] at h
  simpa using h

/-- A step of the run that left a violation ends it. -/
theorem CulpritChecks.returns (h : CulpritChecks S w) (hr : w.runner? i = some r)
    (hleft : w.leftBy = some i) (hread : fails .readCheck = false) :
    ∃ e, r.next S fails w.file = ⟨w.file, .returned (.error e), none⟩ := by
  obtain ⟨m, todo, hstage⟩ := h.checks i hleft r hr
  have hviolated := h.violated (by rw [hleft]; rfl)
  have hmove := next_move (S := S) r fails w.file
  generalize r.next S fails w.file = s at hmove
  cases hmove with
  | failed e => exact ⟨e, rfl⟩
  | finished hstage' | opened stored hstage' hstored hmax
  | skipped m' todo' fk stored hstage' hstored hversion
  | applied m' todo' fk stored contents hstage' hstored hmax hversion hmeta =>
    rw [hstage] at hstage'
    cases hstage'
  | checked m' todo' hstage' hcheck =>
    rcases hcheck with hfail | hnone
    · rw [hread] at hfail
      cases hfail
    · rw [hnone] at hviolated
      cases hviolated

/-- Who has left a violation after a commit on a file where nobody had. -/
private theorem leftAfter_eq_some {m : Migration} {f' : DbFile D}
    (h : leftAfter S i m f' none = some culprit) :
    culprit = i ∧ m.needsFkDisable = true ∧ (S.foreignKeyCheck f'.contents).isSome := by
  unfold leftAfter at h
  cases hcheck : S.foreignKeyCheck f'.contents with
  | none =>
    rw [hcheck] at h
    cases h
  | some table =>
    simp only [hcheck] at h
    by_cases hmarked : m.needsFkDisable = true
    · rw [if_pos hmarked] at h
      exact ⟨(Option.some.inj h).symm, hmarked, rfl⟩
    · rw [if_neg hmarked] at h
      cases h

/-- The step of a run on a file where nobody has left a violation. -/
private theorem CulpritChecks.step_clean (hclean : w.leftBy = none) (hr : w.runner? i = some r)
    (fails : Statement → Bool) :
    CulpritChecks S (w.took S i (r.next S fails w.file)).1 := by
  have hlength : i < w.runners.length :=
    (List.getElem?_eq_some_iff.mp (Option.join_eq_some_iff.mp hr)).1
  have hmove := next_move (S := S) r fails w.file
  generalize r.next S fails w.file = s at hmove
  cases hc : s.committed with
  | none =>
    have hleft : (w.took S i s).1.leftBy = none := by
      rw [took_leftBy, hc]
      exact hclean
    exact ⟨fun h => by simp [hleft] at h, fun c h => by simp [hleft] at h,
      fun c h => by simp [hleft] at h⟩
  | some m =>
    have hleft : ∀ c, (w.took S i s).1.leftBy = some c →
        c = i ∧ m.needsFkDisable = true ∧ (S.foreignKeyCheck s.file.contents).isSome := by
      intro c h
      rw [took_leftBy, hc, hclean] at h
      exact leftAfter_eq_some h
    refine ⟨fun h => ?_, fun c h => ?_, fun c h r' hr' => ?_⟩
    · obtain ⟨c, h⟩ := Option.isSome_iff_exists.mp h
      rw [took_file]
      exact (hleft c h).2.2
    · rw [took_runners, List.length_set, (hleft c h).1]
      exact hlength
    · obtain ⟨rfl, hmarked, -⟩ := hleft c h
      rw [took_runner?, if_pos ⟨rfl, hlength⟩] at hr'
      have hprogress := MigrateProgress.runner?_eq_some hr'
      cases hmove with
      | failed e => cases hc
      | finished hstage => cases hc
      | opened stored hstage hstored hmax => cases hc
      | skipped m' todo fk stored hstage hstored hversion => cases hc
      | checked m' todo hstage hcheck => cases hc
      | applied m' todo fk stored contents hstage hstored hmax hversion hmeta =>
        cases hc
        cases hprogress
        exact ⟨m, todo, if_pos hmarked⟩

theorem CulpritChecks.step (h : CulpritChecks S w) (hg : onlyCulprit w e = true) :
    CulpritChecks S (migrationStep S w e).1 := by
  cases e with
  | start build =>
    refine ⟨h.violated, fun c hc => ?_, fun c hc r hr => ?_⟩
    · show c < (w.runners ++ [some (⟨build, true, .opening⟩ : Runner)]).length
      rw [List.length_append]
      exact Nat.lt_add_right 1 (h.begun c hc)
    · have hjoin :
          ((w.runners ++ [some (⟨build, true, .opening⟩ : Runner)])[c]?).join = some r := hr
      rw [List.getElem?_append_left (h.begun c hc)] at hjoin
      exact h.checks c hc r hjoin
  | stop i =>
    refine ⟨h.violated, fun c hc => ?_, fun c hc r hr => ?_⟩
    · show c < (w.runners.set i none).length
      rw [List.length_set]
      exact h.begun c hc
    · have hjoin : ((w.runners.set i none)[c]?).join = some r := hr
      rw [join_set_getElem?] at hjoin
      by_cases hic : i = c ∧ i < w.runners.length
      · rw [if_pos hic] at hjoin
        cases hjoin
      · rw [if_neg hic] at hjoin
        exact h.checks c hc r hjoin
  | next i fails =>
    cases hr : w.runner? i with
    | none =>
      simp only [migrationStep, hr]
      exact h
    | some r =>
      rw [migrationStep_next hr]
      cases hleft : w.leftBy with
      | none => exact step_clean hleft hr fails
      | some culprit =>
        obtain ⟨rfl, hread⟩ := onlyCulprit_next hg hleft
        obtain ⟨e, hreturns⟩ := h.returns hr hleft hread
        rw [hreturns]
        have hover : (w.took S i ⟨w.file, .returned (.error e), none⟩).1.runner? i = none := by
          rw [took_runner?, if_pos ⟨rfl, h.begun i hleft⟩]
          rfl
        have hsame : (w.took S i ⟨w.file, .returned (.error e), none⟩).1.leftBy = some i := hleft
        refine ⟨fun _ => h.violated (by rw [hleft]; rfl), fun c hc => ?_, fun c hc r' hr' => ?_⟩
        · rw [hsame] at hc
          rw [took_runners, List.length_set, ← Option.some.inj hc]
          exact h.begun i hleft
        · rw [hsame] at hc
          rw [← Option.some.inj hc, hover] at hr'
          cases hr'

/-- A run that returns `Ok` finds no violation that a marked migration left. -/
theorem CulpritChecks.vouched (h : CulpritChecks S w) (hg : onlyCulprit w e = true)
    (hok : (migrationStep S w e).2 = some (.ok ())) :
    w.leftBy = none := by
  rcases idle_or_next w e with hidle | ⟨i, fails, r, rfl, hr⟩
  · rw [(migrationStep_idle hidle).2.2.2] at hok
    cases hok
  · rw [migrationStep_next hr] at hok
    cases hleft : w.leftBy with
    | none => rfl
    | some culprit =>
      obtain ⟨rfl, hread⟩ := onlyCulprit_next hg hleft
      obtain ⟨e, hreturns⟩ := h.returns hr hleft hread
      rw [hreturns] at hok
      cases hok

end Culprit

/-! ## The contract -/

/-- The list of `preview` and the next run, with nobody else on the file. -/
def PreviewExact (S : Sqlite D) (f : DbFile D) : Prop :=
  ∀ (b : Build) (failsVersion failsRelease : Bool) (current : Nat) (release : Option String)
    (migrations : List Migration),
    preview S b failsVersion failsRelease (some f) = .ok (.pending current release migrations) →
    ∀ steps : List (Statement → Bool),
      let w := run (migrationStep S) (.quiescent f) (aloneEvents b steps)
      w.commits.map (·.2) <+: migrations ∧
        ((∃ x ∈ trace (migrationStep S) (.quiescent f) (aloneEvents b steps),
            x.out = some (.ok ())) → w.commits.map (·.2) = migrations) ∧
        (2 * migrations.length + 2 ≤ steps.length → w.runner? 0 = none)

/-- What `run` and `preview` promise of a file on which processes run. -/
structure MigrationContract (S : Sqlite D) (f : DbFile D) (es : List MigrationEvent) : Prop where
  /-- The versions that were committed are those after the stored one, in order: each once,
  and only when all lower ones have been. -/
  inOrder : ∀ stored, f.storedVersion S = .ok stored →
    let w := run (migrationStep S) (.quiescent f) es
    w.commits.map (·.2.version) = List.range' (stored.number + 1) w.commits.length
  /-- The stored version never decreases, and stays readable. -/
  neverLower : ∀ es₁ es₂, es = es₁ ++ es₂ → ∀ stored,
    (run (migrationStep S) (.quiescent f) es₁).file.storedVersion S = .ok stored →
    ∃ stored', (run (migrationStep S) (.quiescent f) es).file.storedVersion S = .ok stored' ∧
      stored.number ≤ stored'.number
  /-- A file that is too new or invalid for a build is not written by it. -/
  refused : ∀ x ∈ trace (migrationStep S) (.quiescent f) es, ∀ i fails r,
    x.event = .next i fails → x.pre.runner? i = some r →
    (∀ stored, x.pre.file.storedVersion S = .ok stored →
      r.build.maxSchemaVersion < stored.number) →
    (migrationStep S x.pre x.event).1.file = x.pre.file ∧
      (migrationStep S x.pre x.event).1.commits = x.pre.commits
  /-- `run` returns `Ok` only if no marked migration has left a violation. -/
  vouched : ∀ x ∈ trace (migrationStep S) (.quiescent f) es,
    x.out = some (.ok ()) → x.pre.leftBy = none
  previewed : PreviewExact S f

private theorem previewExact (S : Sqlite D) (f : DbFile D) : PreviewExact S f := by
  intro b failsVersion failsRelease current release migrations hpreview steps
  -- What `preview` lists is `pending` of the stored version.
  obtain ⟨stored, hstored, rfl⟩ : ∃ stored, f.storedVersion S = .ok stored ∧
      migrations = b.pending stored := by
    unfold preview readStoredVersion at hpreview
    cases failsVersion with
    | true => cases hpreview
    | false =>
      cases hs : f.storedVersion S with
      | error e => simp [hs] at hpreview
      | ok stored =>
        refine ⟨stored, rfl, ?_⟩
        cases hc : b.checkSupported stored with
        | error e => simp [hs, hc] at hpreview
        | ok u =>
          cases stored with
          | fresh => simp [hs, hc] at hpreview
          | «at» v =>
            by_cases hv : v = b.maxSchemaVersion
            · simp only [hs, hc, Bool.false_eq_true, if_false, if_pos hv] at hpreview
              cases hpreview
            · simp only [hs, hc, Bool.false_eq_true, if_false, if_neg hv] at hpreview
              cases hpreview
              rfl
  have hhistory := alone_history hstored b steps
  refine ⟨hhistory.committed, fun hok => ?_, fun hlength => ?_⟩
  · obtain ⟨x, hx, hout⟩ := hok
    have htail : x ∈ trace (migrationStep S) (migrationStep S (.quiescent f) (.start b)).1
        (steps.map (.next 0 ·)) := by
      rcases List.mem_cons.mp hx with rfl | hx
      · cases hout
      · exact hx
    exact (hhistory.returned ⟨x, htail, hout⟩).2
  · by_contra hrunning
    obtain ⟨r, hr⟩ := Option.ne_none_iff_exists'.mp hrunning
    obtain ⟨-, -, hsteps⟩ := hhistory.running r hr
    have htaken : (trace (migrationStep S) (migrationStep S (.quiescent f) (.start b)).1
        (steps.map (.next 0 ·))).length = steps.length := by
      rw [← List.length_map (·.event), map_event_trace, List.length_map]
    have hpositive : 0 < r.stage.stepsLeft (b.pending stored).length := by
      cases r.stage <;> exact Nat.succ_pos _
    omega

/-- The contract holds in every run in which, while a violation that a marked migration left
is in the database, only the run that committed that migration goes on, and its check can
be read. -/
theorem migrations_contract (S : Sqlite D) (f : DbFile D) (es : List MigrationEvent)
    (hculprit : Guarded (migrationStep S) (fun w e => onlyCulprit w e = true) (.quiescent f) es) :
    MigrationContract S f es where
  inOrder stored hstored := ((fileHistory_run f es).counted stored hstored).2
  neverLower es₁ es₂ hes := by
    subst hes
    rw [run_append]
    have hgrows : VersionGrows S (run (migrationStep S) (.quiescent f) es₁).file
        (run (migrationStep S) (run (migrationStep S) (.quiescent f) es₁) es₂).file := by
      have hinvariant : FileHistory S f
            (run (migrationStep S) (run (migrationStep S) (.quiescent f) es₁) es₂) ∧
          VersionGrows S (run (migrationStep S) (.quiescent f) es₁).file
            (run (migrationStep S) (run (migrationStep S) (.quiescent f) es₁) es₂).file :=
        run_invariant (I := fun w => FileHistory S f w ∧
            VersionGrows S (run (migrationStep S) (.quiescent f) es₁).file w.file)
          (fun _ e h _ => ⟨h.1.step e, h.2.trans (h.1.grows e)⟩) (guarded_true _ es₂)
          ⟨fileHistory_run f es₁, .refl _⟩
      exact hinvariant.2
    exact hgrows.version
  refused x hx i fails r hevent hr hrefused := by
    rw [hevent, migrationStep_next hr, took_file, took_commits]
    have hkept := fun fails => @next_of_refused _ S r fails _ hrefused
    obtain ⟨hfile, hcommitted⟩ := hkept fails
    rw [hfile, hcommitted]
    exact ⟨rfl, List.append_nil _⟩
  vouched x hx hok := by
    have hstart : CulpritChecks S (MigrationWorld.quiescent f) :=
      ⟨fun h => (by cases h), fun c h => (by cases h), fun c h => (by cases h)⟩
    obtain ⟨hchecks, hguard, hout⟩ :=
      trace_invariant (fun _ _ h hg => h.step hg) hculprit hstart hx
    rw [hout] at hok
    exact hchecks.vouched hguard hok
  previewed := previewExact S f

/-! ## A second start -/

/-- Two migrations, of which the second rebuilds a table. -/
def rebuildBuild : Build where
  migrations := [⟨1, "0001_initial", ""⟩, ⟨2, "0002_rebuild", fkDisableMarker⟩]
  release := "1"
  versions := rfl
  bounded := by decide

/-- One application table, given by the rows whose parent is missing.  The rebuild drops the
parents of some. -/
def orphanSqlite (dropped : Nat) : Sqlite Nat where
  tables _ := 1
  executeBatch _ sql orphans := some (if sql = fkDisableMarker then orphans + dropped else orphans)
  foreignKeyCheck orphans := if orphans = 0 then none else some "credentials"
  printable _ := true

/-- At version 1, with no such row. -/
def soundFile : DbFile Nat := ⟨0, some ⟨some (.text "1"), none⟩⟩

/-- Two starts, one after the other: the first commits the rebuild and checks it. -/
def twoStarts : List MigrationEvent :=
  let next i : MigrationEvent := .next i fun _ => false
  [.start rebuildBuild, next 0, next 0, next 0, next 0,
    .start rebuildBuild, next 1, next 1]

/-- When the rebuild drops no parent, both starts return `Ok`. -/
theorem migrations_contract_orderly :
    Guarded (migrationStep (orphanSqlite 0)) (fun w e => onlyCulprit w e = true)
        (.quiescent soundFile) twoStarts ∧
      MigrationContract (orphanSqlite 0) soundFile twoStarts :=
  have hculprit : Guarded (migrationStep (orphanSqlite 0)) (fun w e => onlyCulprit w e = true)
      (.quiescent soundFile) twoStarts := by decide +kernel
  ⟨hculprit, migrations_contract (orphanSqlite 0) soundFile twoStarts hculprit⟩

/-- When it drops the parent of one row, the first start refuses.  The second finds version 2
and returns `Ok`. -/
theorem migrations_vouch_for_violation :
    ¬ ∀ es, MigrationContract (orphanSqlite 1) soundFile es := by
  intro h
  have htaken : ((trace (migrationStep (orphanSqlite 1)) (.quiescent soundFile) twoStarts).any
      fun x => x.out == some (.ok ()) && x.pre.leftBy == some 0) = true := by
    decide +kernel
  obtain ⟨x, hx, hboth⟩ := List.any_eq_true.mp htaken
  simp only [Bool.and_eq_true, beq_iff_eq] at hboth
  have hnone := (h twoStarts).vouched x hx hboth.1
  rw [hboth.2] at hnone
  cases hnone

end SuiId

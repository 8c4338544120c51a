import SuiId.Proofs.FactorSteps

/-!
# Races of an enrolment

`start_enrollment` and `confirm_enrollment` each read the TOTP row, work, and then write.

* `upsert_pending` replaces whatever row is there.  Where a confirmation has come in between, it
  turns an enabled factor into a pending one, and no event says so.
* U12 asks only that the row is not enabled.  Where another `start_enrollment` has come in
  between, it enables a secret that no code was verified against.

In a run without these two overlaps a factor goes only on the record, and the secret that is
enabled is the one that was checked.
-/

namespace SuiId

open Lib Lib.Result

/-- The user has a second factor in force. -/
def Database.totpEnabled (db : Database) (user : UserId) : Bool := (db.totpOf user).any (·.enabled)

/-- A transaction has appended that a factor of the user is gone. -/
def RemovalRecorded (db db' : Database) (user : UserId) : Prop :=
  ∃ row, db'.auditLog = db.auditLog ++ [row] ∧
    (row.action = "auth.mfa.factor_removed" ∨ row.action = "mfa.admin_reset") ∧
    row.target = some (toString user)

/-- The call has verified its code against the secret that is stored in the row. -/
def SecretProven (P : Primitives) (key : MasterKey) (w : FactorWorld) (e : FactorEvent)
    (r : UserTotpRow) : Prop :=
  ∃ id draw check suppliedCode secret, e = .next id draw ∧ w.checks id = some check ∧
    check.code = toString suppliedCode ∧
    openBytes P key check.row.secretEnc UserTotp.aad = .ok secret ∧
    Totp.verify P secret (check.now / 1000000000) suppliedCode check.row.lastUsedStep =
      some r.lastUsedStep ∧
    openBytes P key r.secretEnc UserTotp.aad = .ok secret

/-- The factor of a user is not removed silently and not enabled unproven. -/
structure FactorKept (P : Primitives) (key : MasterKey) (w : FactorWorld) (e : FactorEvent)
    (db' : Database) (user : UserId) : Prop where
  removal : w.db.totpEnabled user = true → db'.totpEnabled user = false →
    RemovalRecorded w.db db' user
  proof : ∀ r, w.db.totpEnabled user = false → db'.totpOf user = some r → r.enabled = true →
    SecretProven P key w e r

/-- The write of an enrolment finds no enabled row, and that of a confirmation finds the
enrolment whose row it has read. -/
def notOvertaken (w : FactorWorld) : FactorEvent → Bool
  | .next id _ =>
    match w.calls id with
    | some (.enrollSealed user _ _) => !w.db.totpEnabled user
    | some (.confirmVerified user _ _ _) =>
      (w.db.totpOf user).all fun r =>
        r.enabled || (w.checks id).all fun check => check.enrollment == w.enrollments user
    | _ => true
  | _ => true

/-! ## What is recorded -/

/-- U13. -/
theorem disableTotp_recorded {db db' : Database} {user : UserId} {u : Unit}
    (h : disableTotp db user = .ok (u, db')) : RemovalRecorded db db' user := by
  obtain ⟨event, db₁, hbody, rfl⟩ := classA_records h
  simp only [bind_eq_ok, pure_eq_ok, Prod.mk.injEq] at hbody
  obtain ⟨-, -, -, rfl, rfl⟩ := hbody
  exact ⟨_, rfl, .inl rfl, rfl⟩

/-- U07 on the web. -/
theorem adminResetMfa_recorded {db db' : Database} {admin : UserId} {session : SessionId}
    {target : UserId} {reason : Option String} {now : DateTime} {removed : Bool × Nat}
    (h : adminResetMfa db admin session target reason now = .ok (removed, db')) :
    RemovalRecorded db db' target := by
  obtain ⟨event, db₁, hbody, rfl⟩ := classA_records h
  simp only [removeMfa, bind_eq_ok, pure_eq_ok, Prod.mk.injEq] at hbody
  obtain ⟨stepUp, -, ⟨removed', db₂⟩, ⟨role, -, -, rfl⟩, -, rfl, rfl⟩ := hbody
  exact ⟨_, rfl, .inr rfl, rfl⟩

section Steps

variable {P : Primitives} {key : MasterKey} {maxLockoutSecs : Int} {w : FactorWorld}
  {e : FactorEvent} {user : UserId}

private theorem commit_write {α : Type} {call : FactorCall} {db : Database} {now : DateTime}
    {result : StoreResult (α × Database)} {out : α → FactorAnswer} {error : StoreError → CoreError}
    {write : UserId × TotpWrite} (herror : ∀ e, call.write now (.refused e) = none)
    (h : call.write now (FactorResult.commit db result out error).out = some write) :
    ∃ value, result = .ok (value, (FactorResult.commit db result out error).db) := by
  unfold FactorResult.commit at h ⊢
  split at h
  · exact ⟨_, rfl⟩
  · exact absurd (h.symm.trans (herror _)) nofun

/-- Both commands that remove a row say so. -/
theorem remove_recorded
    (h : w.write e (factorStep P key maxLockoutSecs w e).2 = some (user, .remove)) :
    RemovalRecorded w.db (factorStep P key maxLockoutSecs w e).1.db user := by
  obtain ⟨id, draw, call, rfl, hcall, hmakes⟩ := FactorWorld.makes_of_write h
  simp only [factorStep, hcall, FactorWorld.write, Option.bind_some, FactorWorld.after] at h ⊢
  rcases hmakes with rfl | ⟨admin, session, reason, rfl⟩
  · obtain ⟨value, hcommit⟩ := commit_write (fun _ => rfl) h
    exact disableTotp_recorded hcommit
  · obtain ⟨value, hcommit⟩ := commit_write (fun _ => rfl) h
    exact adminResetMfa_recorded hcommit

/-! ## What a confirmation knows -/

/-- A call that has come to U12 has read the row of an enrolment and verified its code; as long
as that enrolment lasts, the stored secret is the one it has read. -/
def ConfirmsKnown (P : Primitives) (key : MasterKey) (w : FactorWorld) : Prop :=
  ∀ id user step codes sealedCodes,
    w.calls id = some (.confirmVerified user step codes sealedCodes) →
      ∃ check suppliedCode, w.checks id = some check ∧ check.code = toString suppliedCode ∧
        verifySealed P key check.row suppliedCode check.now = .ok (some step) ∧
        check.enrollment ≤ w.enrollments user ∧
        (check.enrollment = w.enrollments user →
          ∀ r, w.db.totpOf user = some r → r.secretEnc = check.row.secretEnc)

theorem confirmsKnown_start (db : Database) (codes : UserId → List RecoveryCode) :
    ConfirmsKnown P key (.start db codes) := fun _ _ _ _ _ hcall => by cases hcall

/-- A step either begins another enrolment or leaves the secret as it is. -/
private theorem secret_step (P : Primitives) (key : MasterKey) (maxLockoutSecs : Int)
    (w : FactorWorld) (e : FactorEvent) (user : UserId) :
    (factorStep P key maxLockoutSecs w e).1.enrollments user = w.enrollments user + 1 ∨
      (factorStep P key maxLockoutSecs w e).1.enrollments user = w.enrollments user ∧
        ∀ r, (factorStep P key maxLockoutSecs w e).1.db.totpOf user = some r →
          ∃ r₀, w.db.totpOf user = some r₀ ∧ r.secretEnc = r₀.secretEnc := by
  rcases factorStep_row P key maxLockoutSecs w e user with
    ⟨-, hrow, hcount, -⟩ | ⟨write, -, htakes, hcount, -⟩
  · refine .inr ⟨hcount, fun r hr => ?_⟩
    rw [hrow] at hr
    exact ⟨r, hr, rfl⟩
  · cases hbegins : write.begins with
    | zero =>
      rw [hbegins] at hcount
      refine .inr ⟨hcount, fun r hr => ?_⟩
      rw [hr] at htakes
      exact htakes.sameSecret hbegins
    | succ n =>
      have hone : write.begins = 1 := by
        cases write with
        | enroll secretEnc now => rfl
        | _ => cases hbegins
      rw [hone] at hcount
      exact .inl hcount

theorem confirmsKnown_step (h : ConfirmsKnown P key w) :
    ConfirmsKnown P key (factorStep P key maxLockoutSecs w e).1 := by
  intro id user step codes sealedCodes hcall'
  have hsecret := secret_step P key maxLockoutSecs w e user
  rcases factorStep_calls hcall' with ⟨hbefore, hchecks⟩ | ⟨request, hstart⟩ |
    ⟨call, draw, rfl, hcall, hnext⟩
  · obtain ⟨check, suppliedCode, hcheck, hcode, hverify, hle, hstored⟩ :=
      h id user step codes sealedCodes hbefore
    refine ⟨check, suppliedCode, hchecks.trans hcheck, hcode, hverify, ?_, fun hsame r hr => ?_⟩
    · omega
    · rcases hsecret with hbegun | ⟨hcount, hkept⟩
      · omega
      · obtain ⟨r₀, hr₀, hsecret⟩ := hkept r hr
        rw [hsecret]
        exact hstored (hsame.trans hcount) r₀ hr₀
  · exact absurd (FactorRequest.start_presented hstart) nofun
  · obtain ⟨suppliedCode, row, rfl, hget, -, hverify⟩ := confirmVerified_of_next hnext
    have hcheck : w.check (.confirmSubmitted user suppliedCode) draw.now =
        some ⟨row, toString suppliedCode, draw.now, w.enrollments user⟩ := by
      simp only [FactorWorld.check, FactorCall.checking, hget, Option.bind_eq_bind,
        Option.bind_some, Option.pure_def]
    refine ⟨_, suppliedCode, factorStep_checks hcall hcheck, rfl, hverify, ?_, fun _ r hr => ?_⟩
    · dsimp only
      omega
    · rcases hsecret with hbegun | ⟨-, hkept⟩
      · dsimp only at *
        omega
      · obtain ⟨r₀, hr₀, hsecret⟩ := hkept r hr
        rw [hget] at hr₀
        cases hr₀
        exact hsecret

/-! ## One step -/

theorem factorKept_step (h : ConfirmsKnown P key w) (horder : notOvertaken w e = true)
    (user : UserId) :
    FactorKept P key w e (factorStep P key maxLockoutSecs w e).1.db user := by
  rcases factorStep_row P key maxLockoutSecs w e user with
    ⟨-, hrow, -⟩ | ⟨write, hwrite, htakes, -⟩
  · refine ⟨fun henabled hgone => ?_, fun r hdisabled hget henabled => ?_⟩
    · rw [Database.totpEnabled, hrow, ← Database.totpEnabled, henabled] at hgone
      cases hgone
    · rw [Database.totpEnabled, ← hrow, hget, Option.any_some, henabled] at hdisabled
      cases hdisabled
  · obtain ⟨id, draw, call, rfl, hcall, hmakes⟩ := FactorWorld.makes_of_write hwrite
    generalize hbefore : w.db.totpOf user = before at htakes
    generalize hafter : (factorStep P key maxLockoutSecs w (.next id draw)).1.db.totpOf user =
      after at htakes
    -- A row that was enabled and still is.
    have hstays : ∀ {r r' : UserTotpRow}, before = some r → r.enabled = true → after = some r' →
        r'.enabled = true →
        FactorKept P key w (.next id draw)
          (factorStep P key maxLockoutSecs w (.next id draw)).1.db user := by
      intro r r' hr henabled hr' henabled'
      refine ⟨fun _ hgone => ?_, fun _ hdisabled _ _ => ?_⟩
      · rw [Database.totpEnabled, hafter, hr', Option.any_some, henabled'] at hgone
        cases hgone
      · rw [Database.totpEnabled, hbefore, hr, Option.any_some, henabled] at hdisabled
        cases hdisabled
    cases htakes with
    | enroll secretEnc now =>
      obtain ⟨secret, rfl⟩ := hmakes
      simp only [notOvertaken, hcall, Bool.not_eq_true'] at horder
      refine ⟨fun henabled _ => ?_, fun r _ hget henabled => ?_⟩
      · rw [horder] at henabled
        cases henabled
      · rw [hafter] at hget
        cases hget
        cases henabled
    | confirm sealedRecoveryCodes step now r hdisabled =>
      obtain ⟨codes, rfl⟩ := hmakes
      refine ⟨fun henabled _ => ?_, fun r' _ hget _ => ?_⟩
      · rw [Database.totpEnabled, hbefore, Option.any_some, hdisabled] at henabled
        cases henabled
      · obtain ⟨check, suppliedCode, hcheck, hcode, hverify, -, hstored⟩ :=
          h id user step codes sealedRecoveryCodes hcall
        simp only [notOvertaken, hcall, hbefore, Option.all_some, hdisabled, Bool.false_or, hcheck,
          beq_iff_eq] at horder
        have hsame := hstored horder r hbefore
        simp only [verifySealed, bind_eq_ok, mapError_eq_ok, pure_eq_ok] at hverify
        obtain ⟨secret, hopen, hverify⟩ := hverify
        rw [hafter] at hget
        cases hget
        exact ⟨id, draw, check, suppliedCode, secret, rfl, hcheck, hcode, hopen, hverify,
          hsame ▸ hopen⟩
    | advance step r henabled hstep | swap expectedSealed newSealed r henabled hcodes
    | replaceCodes sealedRecoveryCodes r henabled => exact hstays rfl henabled rfl henabled
    | remove =>
      refine ⟨fun _ _ => remove_recorded hwrite, fun r _ hget _ => ?_⟩
      rw [hafter] at hget
      cases hget

end Steps

/-! ## Runs -/

/-- In a run in which no enrolment and no confirmation is overtaken, an enabled factor goes only
in a transaction that records it, and a secret is enabled only if a code was verified against
it. -/
theorem factor_kept_of_notOvertaken (P : Primitives) (key : MasterKey) (maxLockoutSecs : Int)
    (db : Database) (codes : UserId → List RecoveryCode) {es : List FactorEvent}
    (hes : Machine.Guarded (factorStep P key maxLockoutSecs) (fun w e => notOvertaken w e = true)
      (.start db codes) es) :
    ∀ x ∈ factorTrace P key maxLockoutSecs (.start db codes) es, ∀ user,
      FactorKept P key x.pre x.event (factorStep P key maxLockoutSecs x.pre x.event).1.db user := by
  intro x hx user
  obtain ⟨hinv, horder, -⟩ := Machine.trace_invariant (I := ConfirmsKnown P key)
    (fun _ _ hw _ => confirmsKnown_step hw) hes (confirmsKnown_start db codes) hx
  exact factorKept_step hinv horder user

/-- User 7 enrols, and disables the factor again. -/
def enrolledAndDisabled : List FactorEvent :=
  enrolled ++ ([.begin 3 (.disable 7)] : List FactorEvent) ++
    ([.next 3 (.sample (seconds 90))] : List FactorEvent)

theorem factor_kept_of_notOvertaken_disabled :
    let w := factorRun .transparent (.constant 7) 0 (.start factorDb fun _ => [])
      (enrolled ++ [.begin 3 (.disable 7)])
    let e := .next 3 (.sample (seconds 90))
    let w' := (factorStep .transparent (.constant 7) 0 w e).1
    w.db.totpEnabled 7 = true ∧ w'.db.totpEnabled 7 = false ∧
      FactorKept .transparent (.constant 7) w e w'.db 7 := by
  refine ⟨by decide +kernel, by decide +kernel, ?_⟩
  have hes : Machine.Guarded (factorStep .transparent (.constant 7) 0)
      (fun w e => notOvertaken w e = true) (.start factorDb fun _ => []) enrolledAndDisabled := by
    decide +kernel
  exact factor_kept_of_notOvertaken .transparent (.constant 7) 0 factorDb (fun _ => []) hes _
    (Machine.mem_trace_last ..) 7

/-! ## The two overlaps -/

/-- Two enrolments have read that there is no row; the second is written after the factor
of the first is confirmed. -/
def replacedWhileEnabled : List FactorEvent :=
  let draw := .sample (seconds 60)
  ([.begin 4 (.startEnrollment 7), .next 4 draw] : List FactorEvent) ++ enrolled

/-- The code of the first secret is verified before the second secret replaces it. -/
def confirmedAgainstReplaced : List FactorEvent :=
  let draw := .sample (seconds 60)
  let second := { FactorDraw.sample (seconds 60) with secret := [2] }
  [.begin 1 (.startEnrollment 7), .next 1 draw, .next 1 draw,
    .begin 2 (.confirmEnrollment 7 0), .next 2 draw,
    .begin 3 (.startEnrollment 7), .next 3 second, .next 3 second]

private abbrev raceWorld (es : List FactorEvent) : FactorWorld :=
  factorRun .transparent (.constant 7) 0 (.start factorDb fun _ => []) es

private abbrev raceStep (es : List FactorEvent) (e : FactorEvent) : FactorWorld :=
  (factorStep .transparent (.constant 7) 0 (raceWorld es) e).1

private abbrev opened (secretEnc : Bytes) : Option Bytes :=
  (openBytes .transparent (.constant 7) secretEnc UserTotp.aad).toOption

private theorem replaced_silently :
    ¬ FactorKept .transparent (.constant 7) (raceWorld replacedWhileEnabled)
      (.next 4 (.sample (seconds 60)))
      (raceStep replacedWhileEnabled (.next 4 (.sample (seconds 60)))).db 7 := by
  intro hkept
  obtain ⟨row, hlog, -⟩ := hkept.removal (by decide +kernel) (by decide +kernel)
  have hlength := congrArg List.length hlog
  rw [List.length_append, List.length_singleton] at hlength
  revert hlength
  decide +kernel

private theorem enabled_unproven :
    ¬ FactorKept .transparent (.constant 7) (raceWorld confirmedAgainstReplaced)
      (.next 2 (.sample (seconds 60)))
      (raceStep confirmedAgainstReplaced (.next 2 (.sample (seconds 60)))).db 7 := by
  intro hkept
  have hrow : ((raceStep confirmedAgainstReplaced (.next 2 (.sample (seconds 60)))).db.totpOf
      7).map (fun r => (r.enabled, opened r.secretEnc)) = some (true, some [2]) := by decide +kernel
  have hverified : ((raceWorld confirmedAgainstReplaced).checks 2).map
      (fun check => opened check.row.secretEnc) = some (some [1]) := by decide +kernel
  obtain ⟨r, hget, hr⟩ := Option.map_eq_some_iff.mp hrow
  rw [Prod.mk.injEq] at hr
  obtain ⟨id, draw, check, suppliedCode, secret, hevent, hcheck, -, hopen, -, hstored⟩ :=
    hkept.proof r (by decide +kernel) hget hr.1
  cases hevent
  rw [hcheck, Option.map_some, opened, hopen, Except.toOption] at hverified
  rw [opened, hstored, Except.toOption] at hr
  cases hverified
  cases hr.2

/-- Both overlaps happen. -/
theorem factor_not_kept :
    (¬ ∀ x ∈ factorTrace .transparent (.constant 7) 0 (.start factorDb fun _ => [])
        (replacedWhileEnabled ++ [.next 4 (.sample (seconds 60))]), ∀ user,
      FactorKept .transparent (.constant 7) x.pre x.event
        (factorStep .transparent (.constant 7) 0 x.pre x.event).1.db user) ∧
    ¬ ∀ x ∈ factorTrace .transparent (.constant 7) 0 (.start factorDb fun _ => [])
        (confirmedAgainstReplaced ++ [.next 2 (.sample (seconds 60))]), ∀ user,
      FactorKept .transparent (.constant 7) x.pre x.event
        (factorStep .transparent (.constant 7) 0 x.pre x.event).1.db user := by
  constructor
  · intro hall
    exact replaced_silently (hall _ (Machine.mem_trace_last ..) 7)
  · intro hall
    exact enabled_unproven (hall _ (Machine.mem_trace_last ..) 7)

end SuiId

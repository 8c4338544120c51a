import SuiId.Proofs.FactorSteps

/-!
# A TOTP code is accepted once

Four commands accept the code of a time step: U12, L02, L05 and F03.  Each has verified it outside
of its transaction, against a row that may be out of date, so what counts is the guard of its
`UPDATE`.

* U12 stores its step, but only in a row that is not enabled, and enables it;
* the others move the cursor of an enabled row forwards.

So the row of an enrolment that has accepted a step stays enabled with its cursor at that step
or later, until the enrolment ends (`Passed`).  An enrolment is what one `upsert_pending`
begins; the history counts them.
-/

namespace SuiId

open Lib Lib.Result

/-- The time step whose code a write accepts. -/
def TotpWrite.acceptedStep : TotpWrite → Option Int
  | .confirm _ step _ => some step
  | .advance step => some step
  | _ => none

/-- The user and the time step whose code a committed step accepts. -/
def acceptedStep (x : FactorTaken) : Option (UserId × Int) :=
  (x.pre.write x.event x.out).bind fun (user, write) => write.acceptedStep.map (user, ·)

/-- The step accepts that code in that enrolment of the user. -/
def acceptsIn (user : UserId) (enrollment : Nat) (step : Int) (x : FactorTaken) : Bool :=
  acceptedStep x == some (user, step) && x.pre.enrollments user == enrollment

/-- The time step of the clock at a check. -/
def FactorCheck.timeStep (check : FactorCheck) : Int := check.now / 1000000000 / Totp.stepSecs

/-- An enrolment that waits for its first code has accepted none. -/
def PendingAtZero (db : Database) : Prop :=
  ∀ user r, db.totpOf user = some r → r.enabled = false → r.lastUsedStep = 0

/-- The enrolment is over, or its cursor has reached the step. -/
def Passed (user : UserId) (enrollment : Nat) (step : Int) (w : FactorWorld) : Prop :=
  enrollment < w.enrollments user ∨
    w.enrollments user = enrollment ∧
      ∀ r, w.db.totpOf user = some r → r.enabled = true ∧ step ≤ r.lastUsedStep

/-- The enrolment is over, or its cursor is not below that value. -/
def NotBelow (user : UserId) (enrollment : Nat) (cursor : Int) (w : FactorWorld) : Prop :=
  enrollment < w.enrollments user ∨
    w.enrollments user = enrollment ∧ ∀ r, w.db.totpOf user = some r → cursor ≤ r.lastUsedStep

section Steps

variable {P : Primitives} {key : MasterKey} {maxLockoutSecs : Int} {w : FactorWorld}
  {e : FactorEvent}

/-! ## At most once -/

variable {user : UserId} {enrollment : Nat} {step : Int}

theorem passed_step (h : Passed user enrollment step w) :
    Passed user enrollment step (factorStep P key maxLockoutSecs w e).1 := by
  rcases factorStep_row P key maxLockoutSecs w e user with
    ⟨-, hrow, hcount, -⟩ | ⟨write, -, htakes, hcount, -⟩
  · rw [Passed, hrow, hcount]
    exact h
  · rcases h with hover | ⟨hcurrent, hcursor⟩
    · exact .inl (by omega)
    · generalize w.db.totpOf user = before at htakes hcursor
      generalize hafter : (factorStep P key maxLockoutSecs w e).1.db.totpOf user = after at htakes
      cases htakes with
      | enroll secretEnc now =>
        rw [TotpWrite.begins] at hcount
        exact .inl (by omega)
      | confirm sealedRecoveryCodes confirmed now r hdisabled =>
        rw [(hcursor r rfl).1] at hdisabled
        cases hdisabled
      | advance next r henabled hstep =>
        refine .inr ⟨hcount.trans hcurrent, fun r' hr' => ?_⟩
        rw [hafter] at hr'
        cases hr'
        have hreached := (hcursor r rfl).2
        exact ⟨henabled, by dsimp only; omega⟩
      | swap expectedSealed newSealed r henabled hcodes
      | replaceCodes sealedRecoveryCodes r henabled =>
        refine .inr ⟨hcount.trans hcurrent, fun r' hr' => ?_⟩
        rw [hafter] at hr'
        cases hr'
        exact hcursor r rfl
      | remove =>
        refine .inr ⟨hcount.trans hcurrent, fun r' hr' => ?_⟩
        rw [hafter] at hr'
        cases hr'

/-- What `acceptsIn` says of a step. -/
theorem acceptsIn_iff {out : FactorAnswer} :
    acceptsIn user enrollment step ⟨w, e, out⟩ = true ↔
      (∃ write, w.write e out = some (user, write) ∧ write.acceptedStep = some step) ∧
        w.enrollments user = enrollment := by
  simp only [acceptsIn, acceptedStep, Bool.and_eq_true, beq_iff_eq, Option.bind_eq_some_iff,
    Option.map_eq_some_iff, Prod.mk.injEq, Prod.exists]
  constructor
  · rintro ⟨⟨target, write, hwrite, accepted, haccepted, rfl, rfl⟩, henrollment⟩
    exact ⟨⟨write, hwrite, haccepted⟩, henrollment⟩
  · rintro ⟨⟨write, hwrite, haccepted⟩, henrollment⟩
    exact ⟨⟨user, write, hwrite, step, haccepted, rfl, rfl⟩, henrollment⟩

/-- The write that accepts a code, before and after. -/
private theorem takes_of_accepts
    (h : acceptsIn user enrollment step ⟨w, e, (factorStep P key maxLockoutSecs w e).2⟩ = true) :
    ∃ write : TotpWrite, write.acceptedStep = some step ∧
      write.Takes user (w.db.totpOf user)
        ((factorStep P key maxLockoutSecs w e).1.db.totpOf user) ∧
      (factorStep P key maxLockoutSecs w e).1.enrollments user = enrollment + write.begins := by
  obtain ⟨⟨write, hwrite, haccepted⟩, rfl⟩ := acceptsIn_iff.mp h
  rcases factorStep_row P key maxLockoutSecs w e user with
    ⟨hnone, -⟩ | ⟨write', hwrite', htakes, hcount, -⟩
  · exact absurd hwrite (hnone write)
  · rw [hwrite] at hwrite'
    cases hwrite'
    exact ⟨write, haccepted, htakes, hcount⟩

theorem passed_of_accepts
    (h : acceptsIn user enrollment step ⟨w, e, (factorStep P key maxLockoutSecs w e).2⟩ = true) :
    Passed user enrollment step (factorStep P key maxLockoutSecs w e).1 := by
  obtain ⟨write, haccepted, htakes, hcount⟩ := takes_of_accepts h
  generalize w.db.totpOf user = before at htakes
  generalize hafter : (factorStep P key maxLockoutSecs w e).1.db.totpOf user = after at htakes
  cases htakes with
  | confirm sealedRecoveryCodes confirmed now r hdisabled =>
    cases haccepted
    refine .inr ⟨hcount, fun r' hr' => ?_⟩
    rw [hafter] at hr'
    cases hr'
    exact ⟨rfl, Int.le_refl _⟩
  | advance next r henabled hstep =>
    cases haccepted
    refine .inr ⟨hcount, fun r' hr' => ?_⟩
    rw [hafter] at hr'
    cases hr'
    exact ⟨henabled, Int.le_refl _⟩
  | enroll secretEnc now => cases haccepted
  | swap expectedSealed newSealed r henabled hcodes => cases haccepted
  | replaceCodes sealedRecoveryCodes r henabled => cases haccepted
  | remove => cases haccepted

theorem not_accepts_of_passed (h : Passed user enrollment step w) :
    acceptsIn user enrollment step ⟨w, e, (factorStep P key maxLockoutSecs w e).2⟩ = false := by
  by_contra haccepts
  rw [Bool.not_eq_false] at haccepts
  obtain ⟨write, haccepted, htakes, -⟩ := takes_of_accepts haccepts
  have hcurrent := (acceptsIn_iff.mp haccepts).2
  rcases h with hover | ⟨-, hcursor⟩
  · omega
  · generalize w.db.totpOf user = before at htakes hcursor
    generalize (factorStep P key maxLockoutSecs w e).1.db.totpOf user = after at htakes
    cases htakes with
    | confirm sealedRecoveryCodes confirmed now r hdisabled =>
      rw [(hcursor r rfl).1] at hdisabled
      cases hdisabled
    | advance next r henabled hstep =>
      cases haccepted
      have hreached := (hcursor r rfl).2
      omega
    | enroll secretEnc now => cases haccepted
    | swap expectedSealed newSealed r henabled hcodes => cases haccepted
    | replaceCodes sealedRecoveryCodes r henabled => cases haccepted
    | remove => cases haccepted

/-! ## The cursor -/

/-- What U12 needs to leave the cursor where it is or later. -/
structure CursorInvariant (P : Primitives) (key : MasterKey) (w : FactorWorld) : Prop where
  pending : PendingAtZero w.db
  checks : ChecksKnown P key w
  /-- A first code is of a positive time step. -/
  confirms : ∀ id user step codes sealedCodes,
    w.calls id = some (.confirmVerified user step codes sealedCodes) → 0 < step

private theorem confirm_positive {db : Database} {draw : FactorDraw} {call : FactorCall}
    {codes : List RecoveryCode} {sealedCodes : Bytes} (hpending : PendingAtZero db)
    (h : (call.advance P key maxLockoutSecs db draw).next =
      some (.confirmVerified user step codes sealedCodes)) : 0 < step := by
  obtain ⟨suppliedCode, row, -, hget, hdisabled, hverify⟩ := confirmVerified_of_next h
  simp only [verifySealed, bind_eq_ok, mapError_eq_ok, pure_eq_ok] at hverify
  obtain ⟨secret, -, hverify⟩ := hverify
  have hzero := hpending user row hget hdisabled
  have hlater := (Totp.verify_window hverify).1
  omega

theorem cursorInvariant_step (h : CursorInvariant P key w) :
    CursorInvariant P key (factorStep P key maxLockoutSecs w e).1 where
  pending := by
    intro user r hget hdisabled
    rcases factorStep_row P key maxLockoutSecs w e user with
      ⟨-, hrow, -⟩ | ⟨write, -, htakes, -⟩
    · rw [hrow] at hget
      exact h.pending user r hget hdisabled
    · rw [hget] at htakes
      generalize w.db.totpOf user = before at htakes
      cases htakes with
      | enroll secretEnc now => rfl
      | confirm sealedRecoveryCodes step now r => cases hdisabled
      | advance step r henabled hstep | swap expectedSealed newSealed r henabled hcodes
      | replaceCodes sealedRecoveryCodes r henabled =>
        rw [henabled] at hdisabled
        cases hdisabled
  checks := checksKnown_step h.checks
  confirms := by
    intro id user step codes sealedCodes hcall
    rcases factorStep_calls hcall with ⟨hbefore, -⟩ | ⟨request, hstart⟩ |
      ⟨call, draw, -, -, hnext⟩
    · exact h.confirms id user step codes sealedCodes hbefore
    · exact absurd (FactorRequest.start_presented hstart) nofun
    · exact confirm_positive h.pending hnext

theorem notBelow_step {cursor : Int} (hinv : CursorInvariant P key w)
    (h : NotBelow user enrollment cursor w) :
    NotBelow user enrollment cursor (factorStep P key maxLockoutSecs w e).1 := by
  rcases factorStep_row P key maxLockoutSecs w e user with
    ⟨-, hrow, hcount, -⟩ | ⟨write, hwrite, htakes, hcount, -⟩
  · rw [NotBelow, hrow, hcount]
    exact h
  · rcases h with hover | ⟨hcurrent, hcursor⟩
    · exact .inl (by omega)
    · generalize hbefore : w.db.totpOf user = before at htakes hcursor
      generalize hafter : (factorStep P key maxLockoutSecs w e).1.db.totpOf user = after at htakes
      have hclose : ∀ {r'}, after = some r' → cursor ≤ r'.lastUsedStep →
          (factorStep P key maxLockoutSecs w e).1.enrollments user = enrollment →
          NotBelow user enrollment cursor (factorStep P key maxLockoutSecs w e).1 := by
        intro r' hr' hle hsame
        refine .inr ⟨hsame, fun r'' hr'' => ?_⟩
        rw [hafter, hr'] at hr''
        cases hr''
        exact hle
      cases htakes with
      | enroll secretEnc now =>
        rw [TotpWrite.begins] at hcount
        exact .inl (by omega)
      | confirm sealedRecoveryCodes step now r hdisabled =>
        -- The row still has the cursor it was inserted with.
        refine hclose rfl ?_ (hcount.trans hcurrent)
        obtain ⟨id, draw, call, -, hcall, codes, rfl⟩ := FactorWorld.makes_of_write hwrite
        have hpositive := hinv.confirms id user step codes sealedRecoveryCodes hcall
        have hzero := hinv.pending user r hbefore hdisabled
        have hreached := hcursor r rfl
        dsimp only
        omega
      | advance step r henabled hstep =>
        have hreached := hcursor r rfl
        exact hclose rfl (by dsimp only; omega) (hcount.trans hcurrent)
      | swap expectedSealed newSealed r henabled hcodes =>
        exact hclose rfl (hcursor r rfl) (hcount.trans hcurrent)
      | replaceCodes sealedRecoveryCodes r henabled =>
        exact hclose rfl (hcursor r rfl) (hcount.trans hcurrent)
      | remove =>
        refine .inr ⟨hcount.trans hcurrent, fun r' hr' => ?_⟩
        rw [hafter] at hr'
        cases hr'

/-- An accepted step is one of the three around the clock of its check. -/
private theorem accepted_window (hchecks : ChecksKnown P key w)
    (h : acceptedStep ⟨w, e, (factorStep P key maxLockoutSecs w e).2⟩ = some (user, step)) :
    ∃ id draw check, e = .next id draw ∧ w.checks id = some check ∧
      check.timeStep - 1 ≤ step ∧ step ≤ check.timeStep + 1 := by
  simp only [acceptedStep, Option.bind_eq_some_iff, Option.map_eq_some_iff, Prod.mk.injEq,
    Prod.exists] at h
  obtain ⟨target, write, hwrite, accepted, haccepted, rfl, rfl⟩ := h
  obtain ⟨id, draw, call, rfl, hcall, hmakes⟩ := FactorWorld.makes_of_write hwrite
  have hpresented : call.presented = some (.totp accepted) := by
    cases write with
    | confirm sealedCodes step now =>
      cases haccepted
      obtain ⟨codes, rfl⟩ := hmakes
      rfl
    | advance step =>
      cases haccepted
      exact hmakes
    | _ => cases haccepted
  obtain ⟨check, hcheck, hchecked⟩ := hchecks id call _ hcall hpresented
  refine ⟨id, draw, check, rfl, hcheck, ?_⟩
  cases hchecked with
  | totp hopen hverify =>
    obtain ⟨-, hfrom, hto⟩ := Totp.verify_window hverify
    exact ⟨hfrom, hto⟩

end Steps

/-! ## Runs -/

/-- In every run, the code of a time step is accepted at most once per enrolment, the cursor of an
enrolment never moves backwards, and an accepted step is within one of the clock of its check. -/
theorem totp_code_accepted_once (P : Primitives) (key : MasterKey) (maxLockoutSecs : Int)
    {db : Database} (hdb : PendingAtZero db) (codes : UserId → List RecoveryCode)
    (es : List FactorEvent) :
    (∀ user enrollment step, (factorTrace P key maxLockoutSecs (.start db codes) es).countP
        (acceptsIn user enrollment step) ≤ 1) ∧
      (∀ earlier later, es = earlier ++ later →
        let w := factorRun P key maxLockoutSecs (.start db codes) earlier
        let w' := factorRun P key maxLockoutSecs w later
        ∀ user r r', w.db.totpOf user = some r → w'.db.totpOf user = some r' →
          w'.enrollments user = w.enrollments user → r.lastUsedStep ≤ r'.lastUsedStep) ∧
      ∀ x ∈ factorTrace P key maxLockoutSecs (.start db codes) es, ∀ user step,
        acceptedStep x = some (user, step) →
          ∃ id draw check, x.event = .next id draw ∧ x.pre.checks id = some check ∧
            check.timeStep - 1 ≤ step ∧ step ≤ check.timeStep + 1 := by
  have hstart : CursorInvariant P key (.start db codes) :=
    ⟨hdb, checksKnown_start db codes, fun _ _ _ _ _ hcall => by cases hcall⟩
  have hstep : ∀ w e, CursorInvariant P key w → True →
      CursorInvariant P key (factorStep P key maxLockoutSecs w e).1 :=
    fun w e hw _ => cursorInvariant_step hw
  refine ⟨fun user enrollment step => ?_, ?_, ?_⟩
  · exact Machine.countP_trace_le_one (g := fun _ _ => True) (I := fun _ => True)
      (D := Passed user enrollment step) (fun _ _ _ _ => trivial)
      (fun _ _ _ _ haccepts => passed_of_accepts haccepts)
      (fun _ _ _ _ hpassed => passed_step hpassed)
      (fun _ _ _ _ hpassed => not_accepts_of_passed hpassed) (Machine.guarded_true _ es) trivial
  · intro earlier later _ w w' user r r' hget hget' hsame
    have hw : CursorInvariant P key w :=
      Machine.run_invariant hstep (Machine.guarded_true _ earlier) hstart
    have hreached : NotBelow user (w.enrollments user) r.lastUsedStep w := by
      refine .inr ⟨rfl, fun r₁ hr₁ => ?_⟩
      rw [hget] at hr₁
      cases hr₁
      exact Int.le_refl _
    have hkept : ∀ v e, (CursorInvariant P key v ∧
          NotBelow user (w.enrollments user) r.lastUsedStep v) → True →
        CursorInvariant P key (factorStep P key maxLockoutSecs v e).1 ∧
          NotBelow user (w.enrollments user) r.lastUsedStep
            (factorStep P key maxLockoutSecs v e).1 :=
      fun v e hv _ => ⟨cursorInvariant_step hv.1, notBelow_step hv.1 hv.2⟩
    have hfinal := Machine.run_invariant hkept (Machine.guarded_true w later) ⟨hw, hreached⟩
    rcases hfinal.2 with hover | ⟨-, hcursor⟩
    · exact absurd hsame.symm (Nat.ne_of_lt hover)
    · exact hcursor r' hget'
  · intro x hx user step haccepted
    obtain ⟨hinv, -, hout⟩ :=
      Machine.trace_invariant hstep (Machine.guarded_true _ es) hstart hx
    obtain ⟨w, e, out⟩ := x
    dsimp only at hout
    subst hout
    exact accepted_window hinv.checks haccepted

/-- Two step-ups have checked the same code when the first of them commits. -/
def sharedCode : List FactorEvent :=
  let draw := .sample (seconds 60)
  enrolled ++ ([.begin 3 (.stepUp 7 40 "0" "/"), .begin 4 (.stepUp 7 40 "0" "/"), .next 3 draw,
    .next 4 draw, .next 3 draw, .next 4 draw] : List FactorEvent)

theorem totp_code_accepted_once_sharedCode :
    let steps := factorTrace .transparent (.constant 7) 0 (.start factorDb fun _ => []) sharedCode
    steps.filterMap acceptedStep = [(7, 1), (7, 2)] ∧ steps.countP (acceptsIn 7 1 2) ≤ 1 := by
  refine ⟨by decide +kernel, ?_⟩
  have hdb : PendingAtZero factorDb := fun user r hget _ => by cases hget
  exact (totp_code_accepted_once .transparent (.constant 7) 0 hdb (fun _ => []) sharedCode).1 7 1 2

end SuiId

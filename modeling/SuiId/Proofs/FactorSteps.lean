import SuiId.Core.FactorFlows
import SuiId.Proofs.LoginSteps

/-!
# What a step of a factor flow can do

Three facts carry every proof about TOTP rows:

* `factorStep_row`: a step makes the write that `FactorWorld.write` reads off its answer, or
  it leaves the row of the user alone, and the history follows;
* `factorStep_calls`: a call was there before, has just begun, or has taken its next step;
* `ChecksKnown`: a call that is about to spend a proof has checked it, and the history has
  the row, the code and the clock of that check.
-/

namespace SuiId

open Lib Lib.Result

/-! ## What a step writes -/

section Writes

variable {P : Primitives} {key : MasterKey} {maxLockoutSecs : Int} {db : Database}

private theorem totpWrite_of_silent {call : FlowCall} {out : FlowAnswer}
    (h : out.effective = false) : call.totpWrite out = none := by
  unfold FlowCall.totpWrite
  split
  · cases h
  · cases h
  · rfl

/-- A step of a sign-in writes the row of the user it signs in, or none. -/
theorem flowAdvance_totp {draw : FlowDraw} (call : FlowCall) :
    TotpEffect db (call.advance P key maxLockoutSecs db draw).db
      (call.totpWrite (call.advance P key maxLockoutSecs db draw).out) := by
  have hcases : Silent db (call.advance P key maxLockoutSecs db draw) ∨
      Committed P key db draw call (call.advance P key maxLockoutSecs db draw) :=
    advance_cases call
  rcases hcases with hsilent | hcommitted
  · rw [totpWrite_of_silent hsilent.silent]
    exact totpOf_congr hsilent.totp
  · generalize call.advance P key maxLockoutSecs db draw = result at hcommitted
    cases hspends : call.spends with
    | false =>
      have hkept := totpOf_congr (hcommitted.wrote.factorTables hspends).1
      cases hcommitted with
      | code h => cases hspends
      | promoted h => cases hspends
      | _ => exact hkept
    | true =>
      cases hcommitted with
      | code h => exact completeSecondFactor_totp h
      | assertion h => exact completeSecondFactor_totp h
      | promoted h => exact completeFederatedMfa_totp h
      | _ => cases hspends

private theorem commit_totp {α : Type} {call : FactorCall} {now : DateTime}
    {result : StoreResult (α × Database)} {out : α → FactorAnswer} {error : StoreError → CoreError}
    (hok : ∀ {value db'}, result = .ok (value, db') →
      TotpEffect db db' (call.write now (out value)))
    (herror : ∀ e, call.write now (.refused e) = none) :
    TotpEffect db (FactorResult.commit db result out error).db
      (call.write now (FactorResult.commit db result out error).out) := by
  unfold FactorResult.commit
  split
  · exact hok rfl
  · show TotpEffect db db (call.write now (.refused _))
    rw [herror]
    rfl

theorem factorAdvance_totp {draw : FactorDraw} (call : FactorCall) :
    TotpEffect db (call.advance P key maxLockoutSecs db draw).db
      (call.write draw.now (call.advance P key maxLockoutSecs db draw).out) := by
  cases call with
  | signIn call => exact flowAdvance_totp call
  | enrollSubmitted user =>
    simp only [FactorCall.advance, startEnrollment]
    split
    · rfl
    · split
      · rfl
      · rfl
  | enrollSealed user secret secretEnc =>
    simp only [FactorCall.advance]
    split
    · rename_i henroll
      exact UserTotp.upsertPending_totp henroll
    · rfl
  | confirmSubmitted user suppliedCode =>
    simp only [FactorCall.advance, confirmEnrollment]
    split
    · rfl
    · split
      · rfl
      · split
        · rfl
        · rfl
        · split
          · rfl
          · rfl
  | confirmVerified user step codes sealedCodes =>
    exact commit_totp (fun h => confirmTotpEnrollment_totp h) fun e => rfl
  | disableSubmitted user => exact commit_totp (fun h => disableTotp_totp h) fun e => rfl
  | regenerateSubmitted user =>
    simp only [FactorCall.advance, regenerateCodes]
    split
    · rfl
    · split
      · rfl
      · split
        · rfl
        · rfl
  | regenerateSealed user codes sealedCodes =>
    exact commit_totp (fun h => regenerateRecoveryCodes_totp h) fun e => rfl
  | resetSubmitted admin session target reason =>
    exact commit_totp (fun h => adminResetMfa_totp h) fun e => rfl
  | stepUpSubmitted user session codeInput gate =>
    simp only [FactorCall.advance, verifyTotpCode]
    split
    · rfl
    · split
      · rfl
      · split
        · rfl
        · rfl
        · rfl
  | stepUpVerified user session step gate =>
    exact commit_totp (fun h => completeStepUp_totp h) fun e => rfl

variable (P key maxLockoutSecs) in
/-- An event makes the write that its answer says, or touches no TOTP row. -/
theorem factorStep_totp (w : FactorWorld) (e : FactorEvent) :
    TotpEffect w.db (factorStep P key maxLockoutSecs w e).1.db
      (w.write e (factorStep P key maxLockoutSecs w e).2) := by
  cases e with
  | begin id request =>
    simp only [factorStep]
    split
    · rfl
    · rfl
    · rfl
  | next id draw =>
    simp only [factorStep, FactorWorld.write]
    cases hcall : w.calls id with
    | none => rfl
    | some call => exact factorAdvance_totp call
  | elsewhere db => exact totpOf_congr rfl

end Writes

/-! ## One user -/

/-- The write stores the recovery codes of its call. -/
def TotpWrite.issues : TotpWrite → Bool
  | .confirm .. | .replaceCodes _ => true
  | _ => false

section Rows

variable {P : Primitives} {key : MasterKey} {maxLockoutSecs : Int}

/-- The codes that an event stores if its write issues any. -/
def FactorWorld.newCodes (w : FactorWorld) : FactorEvent → List RecoveryCode
  | .next id _ => ((w.calls id).map FactorCall.codes).getD []
  | _ => []

variable (P key maxLockoutSecs) in
/-- The history follows the write. -/
private theorem factorStep_history (w : FactorWorld) (e : FactorEvent) (user : UserId) :
    let w' := (factorStep P key maxLockoutSecs w e).1
    match w.write e (factorStep P key maxLockoutSecs w e).2 with
    | some (target, write) =>
      w'.enrollments user = w.enrollments user + (if target = user then write.begins else 0) ∧
        w'.issued user =
          if target = user ∧ write.issues = true then ⟨(w.issued user).number + 1, w.newCodes e⟩
          else w.issued user
    | none => w'.enrollments user = w.enrollments user ∧ w'.issued user = w.issued user := by
  cases e with
  | begin id request =>
    simp only [factorStep, FactorWorld.write]
    split
    · exact ⟨rfl, rfl⟩
    · exact ⟨rfl, rfl⟩
    · exact ⟨rfl, rfl⟩
  | elsewhere db => exact ⟨rfl, rfl⟩
  | next id draw =>
    simp only [factorStep, FactorWorld.write]
    cases hcall : w.calls id with
    | none => exact ⟨rfl, rfl⟩
    | some call =>
      dsimp only [Option.bind_some, FactorWorld.after, FactorWorld.newCodes]
      rw [hcall]
      cases call.write draw.now (call.advance P key maxLockoutSecs w.db draw).out with
      | none => exact ⟨rfl, rfl⟩
      | some written =>
        obtain ⟨target, write⟩ := written
        by_cases htarget : target = user
        · subst htarget
          cases write <;> simp [FactorWorld.issue, TotpWrite.begins, TotpWrite.issues]
        · cases write <;>
            simp [FactorWorld.issue, htarget, Function.update_of_ne (Ne.symm htarget)]

variable (P key maxLockoutSecs) in
/-- What an event does to the TOTP row of a user. -/
theorem factorStep_row (w : FactorWorld) (e : FactorEvent) (user : UserId) :
    let out := (factorStep P key maxLockoutSecs w e).2
    let w' := (factorStep P key maxLockoutSecs w e).1
    ((∀ write, w.write e out ≠ some (user, write)) ∧ w'.db.totpOf user = w.db.totpOf user ∧
        w'.enrollments user = w.enrollments user ∧ w'.issued user = w.issued user) ∨
      ∃ write, w.write e out = some (user, write) ∧
        write.Takes user (w.db.totpOf user) (w'.db.totpOf user) ∧
        w'.enrollments user = w.enrollments user + write.begins ∧
        w'.issued user =
          if write.issues then ⟨(w.issued user).number + 1, w.newCodes e⟩ else w.issued user := by
  have heffect := factorStep_totp P key maxLockoutSecs w e
  have hhistory := factorStep_history P key maxLockoutSecs w e user
  dsimp only at hhistory ⊢
  cases hwrite : w.write e (factorStep P key maxLockoutSecs w e).2 with
  | none =>
    rw [hwrite] at heffect hhistory
    exact .inl ⟨nofun, congrFun heffect user, hhistory⟩
  | some written =>
    obtain ⟨target, write⟩ := written
    rw [hwrite] at heffect hhistory
    obtain ⟨after, htakes, hrows⟩ := heffect
    dsimp only at hhistory
    by_cases htarget : target = user
    · subst htarget
      refine .inr ⟨write, rfl, ?_, ?_, ?_⟩
      · rw [hrows, Function.update_self]
        exact htakes
      · simpa using hhistory.1
      · simpa using hhistory.2
    · refine .inl ⟨?_, ?_, ?_, ?_⟩
      · intro write' hsame
        cases hsame
        exact htarget rfl
      · rw [hrows, Function.update_of_ne (Ne.symm htarget)]
      · simpa [htarget] using hhistory.1
      · simpa [htarget] using hhistory.2

end Rows

/-! ## What a check found -/

/-- The list of hashes in a sealed blob. -/
def openCodes (P : Primitives) (key : MasterKey) (sealedCodes : Bytes) : Option (List String) :=
  (openBytes P key sealedCodes UserTotp.recoveryAad).toOption.bind P.decodeTexts

/-- The proof that the check of a code amounts to. -/
inductive Checked (P : Primitives) (key : MasterKey) (check : FactorCheck) :
    SecondFactorProof → Prop where
  | totp {secret : Bytes} {digits : Nat} {step : Int}
      (hopen : openBytes P key check.row.secretEnc UserTotp.aad = .ok secret)
      (hverify : Totp.verify P secret (check.now / 1000000000) digits check.row.lastUsedStep =
        some step) :
      Checked P key check (.totp step)
  | recovery {nonce : Nonce} {expectedSealed newSealed : Bytes} {hashes : List String} {i : Nat}
      (hcodes : check.row.recoveryCodesEnc = some expectedSealed)
      (hopen : openCodes P key expectedSealed = some hashes)
      (hmatch : hashes.findIdx? (fun h => P.verifyPassword (Text.trim check.code) h) = some i)
      (hseal : sealBytes P key nonce (P.encodeTexts (hashes.eraseIdx i)) UserTotp.recoveryAad =
        .ok newSealed) :
      Checked P key check (.recoveryCode expectedSealed newSealed)

section Checks

variable {P : Primitives} {key : MasterKey}
variable {check : FactorCheck} {step : Int}

private theorem verifySealed_checked {digits : Nat}
    (h : verifySealed P key check.row digits check.now = .ok (some step)) :
    Checked P key check (.totp step) := by
  simp only [verifySealed, bind_eq_ok, mapError_eq_ok, pure_eq_ok] at h
  obtain ⟨secret, hopen, hverify⟩ := h
  exact .totp hopen hverify

private theorem checkCode_checked {nonce : Nonce} {proof : SecondFactorProof}
    {method : AuthMethod}
    (h : checkCode P key nonce check.row check.code check.now = .ok (some proof, method)) :
    Checked P key check proof := by
  unfold checkCode at h
  dsimp only at h
  split at h
  · simp only [bind_eq_ok, mapError_eq_ok, pure_eq_ok, Prod.mk.injEq, Option.map_eq_some_iff] at h
    obtain ⟨secret, hopen, ⟨step, hverify, rfl⟩, -⟩ := h
    exact .totp hopen hverify
  · simp only [bind_eq_ok, pure_eq_ok, Prod.mk.injEq] at h
    obtain ⟨proof', hmatch, rfl, -⟩ := h
    unfold matchRecoveryCode at hmatch
    split at hmatch
    · cases hmatch
    · rename_i expectedSealed hcodes
      simp only [bind_eq_ok, mapError_eq_ok, require_eq_ok] at hmatch
      obtain ⟨blob, hopen, hashes, hdecode, hmatch⟩ := hmatch
      split at hmatch
      · cases hmatch
      · rename_i i hfound
        simp only [bind_eq_ok, mapError_eq_ok, pure_eq_ok, Option.some.injEq] at hmatch
        obtain ⟨newSealed, hseal, rfl⟩ := hmatch
        refine .recovery hcodes ?_ hfound hseal
        simp only [openCodes, hopen, Except.toOption, Option.bind_some, hdecode]

/-- The window of `totp::verify`. -/
theorem Totp.verify_window {secret : Bytes} {unixTime lastUsedStep : Int} {supplied : Nat}
    (h : Totp.verify P secret unixTime supplied lastUsedStep = some step) :
    lastUsedStep < step ∧ unixTime / Totp.stepSecs - 1 ≤ step ∧
      step ≤ unixTime / Totp.stepSecs + 1 := by
  unfold Totp.verify at h
  split at h
  · cases h
  · have hstep := List.find?_some h
    have hmem := List.mem_of_find?_eq_some h
    simp only [Bool.and_eq_true, decide_eq_true_eq] at hstep
    simp only [List.mem_cons, List.not_mem_nil, or_false] at hmem
    refine ⟨hstep.1, ?_, ?_⟩
    · omega
    · omega

end Checks

/-! ## Calls -/

/-- The proof that a call has checked and not yet spent. -/
def FlowCall.presented : FlowCall → Option SecondFactorProof
  | .codeChecked _ proof _ => proof
  | .fedDecided _ proof _ => proof.bind F03Proof.secondFactor
  | _ => none

def FactorCall.presented : FactorCall → Option SecondFactorProof
  | .signIn call => call.presented
  | .confirmVerified _ step _ _ => some (.totp step)
  | .stepUpVerified _ _ step _ => some (.totp step)
  | _ => none

/-- The call is the one that makes the write. -/
def FactorCall.makes (call : FactorCall) (user : UserId) : TotpWrite → Prop
  | .enroll secretEnc _ => ∃ secret, call = .enrollSealed user secret secretEnc
  | .confirm sealedCodes step _ => ∃ codes, call = .confirmVerified user step codes sealedCodes
  | .advance step => call.presented = some (.totp step)
  | .swap expectedSealed newSealed => call.presented = some (.recoveryCode expectedSealed newSealed)
  | .replaceCodes sealedCodes => ∃ codes, call = .regenerateSealed user codes sealedCodes
  | .remove =>
    call = .disableSubmitted user ∨
      ∃ admin session reason, call = .resetSubmitted admin session user reason

section Calls

variable {P : Primitives} {key : MasterKey} {maxLockoutSecs : Int}
variable {call : FactorCall} {proof : SecondFactorProof} {user : UserId} {write : TotpWrite}
  {draw : FactorDraw}

private theorem makes_of_totpWrite {target : UserId} (hpresented : call.presented = some proof)
    (h : proof.totpWrite target = some (user, write)) : call.makes user write := by
  cases proof with
  | totp step =>
    cases h
    exact hpresented
  | recoveryCode expectedSealed newSealed =>
    cases h
    exact hpresented
  | webauthn => cases h

variable {out : FactorAnswer} {check : FactorCheck} {call' : FactorCall} {id : FactorCallId}

theorem FactorCall.makes_of_write {now : DateTime} (h : call.write now out = some (user, write)) :
    call.makes user write := by
  unfold FactorCall.write at h
  split at h
  · unfold FlowCall.totpWrite at h
    split at h
    · exact makes_of_totpWrite rfl h
    · obtain ⟨proof, hpresented, hwrite⟩ := Option.bind_eq_some_iff.mp h
      exact makes_of_totpWrite hpresented hwrite
    · cases h
  · cases h
    exact ⟨_, rfl⟩
  · cases h
    exact ⟨_, rfl⟩
  · cases h
    exact .inl rfl
  · cases h
    exact ⟨_, rfl⟩
  · cases h
    exact .inr ⟨_, _, _, rfl⟩
  · cases h
    rfl
  · cases h

/-- A write is made in the next step of a call. -/
theorem FactorWorld.makes_of_write {w : FactorWorld} {e : FactorEvent}
    (h : w.write e out = some (user, write)) :
    ∃ id draw call, e = .next id draw ∧ w.calls id = some call ∧ call.makes user write := by
  cases e with
  | next id draw =>
    obtain ⟨call, hcall, hwrite⟩ := Option.bind_eq_some_iff.mp h
    exact ⟨id, draw, call, rfl, hcall, FactorCall.makes_of_write hwrite⟩
  | begin id request => cases h
  | elsewhere db => cases h

theorem FactorRequest.start_presented {request : FactorRequest} (h : request.start = some call) :
    call.presented = none := by
  cases request with
  | signIn request =>
    simp only [FactorRequest.start, Option.map_eq_some_iff] at h
    obtain ⟨flowCall, hstart, rfl⟩ := h
    unfold FlowRequest.start at hstart
    split at hstart
    · cases hstart
      rfl
    · cases hstart
      rfl
    · cases hstart
      rfl
    · cases hstart
      rfl
    · split at hstart
      · cases hstart
        rfl
      · cases hstart
      · obtain ⟨id, -, rfl⟩ := Option.map_eq_some_iff.mp hstart
        rfl
    · cases hstart
      rfl
    · cases hstart
      rfl
  | _ =>
    cases h
    rfl

private theorem bare_presented {call : FlowCall} (h : call.bare = true) :
    (FactorCall.signIn call).presented = none := by
  cases call with
  | codeChecked | assertionVerified | fedDecided => cases h
  | _ => rfl

private theorem readTotp_ok {db : Database} {row : UserTotpRow} (h : readTotp db user = .ok row) :
    db.totpOf user = some row := by
  rw [readTotp, require_eq_ok] at h
  exact Option.eq_some_of_filter_eq_some h

private theorem federatedProof_checked {draw : FlowDraw} {p : F03Proof}
    (hnow : check.now = draw.now) (h : federatedProof P key draw check.row check.code = .ok p)
    (hp : p.secondFactor = some proof) : Checked P key check proof := by
  unfold federatedProof at h
  split at h
  · cases h
    cases hp
  · simp only [bind_eq_ok, pure_eq_ok] at h
    obtain ⟨⟨found, method⟩, hcheck, rfl⟩ := h
    rw [← hnow] at hcheck
    dsimp only at hp
    split at hp
    · cases hp
      exact checkCode_checked hcheck
    · cases hp
      exact checkCode_checked hcheck
    · cases hp

/-- A call comes to a proof in the step that checks the code. -/
theorem advance_checked {w : FactorWorld}
    (h : (call.advance P key maxLockoutSecs w.db draw).next = some call')
    (hp : call'.presented = some proof) :
    ∃ check, w.check call draw.now = some check ∧ Checked P key check proof := by
  have hmake : ∀ {user code row}, call.checking = some (user, code) → w.db.totpOf user = some row →
      w.check call draw.now = some ⟨row, code, draw.now, w.enrollments user⟩ := by
    intro user code row hchecking hrow
    simp only [FactorWorld.check, hchecking, hrow, Option.bind_eq_bind, Option.bind_some,
      Option.pure_def]
  cases call with
  | signIn call =>
    obtain ⟨flowNext, hnext, rfl⟩ := Option.map_eq_some_iff.mp h
    have hadvances := @advance_advances P key maxLockoutSecs w.db draw.flow call
    generalize call.advance P key maxLockoutSecs w.db draw.flow = result at hadvances hnext
    -- two steps of a sign-in end with a proof: the checks of a code at either door
    cases hadvances with
    | codeMatched hread hcheck =>
      cases hnext
      cases hp
      exact ⟨_, hmake rfl (readTotp_ok hread), checkCode_checked hcheck⟩
    | fedProved hread hproof =>
      cases hnext
      exact ⟨_, hmake rfl (readTotp_ok hread), federatedProof_checked rfl hproof hp⟩
    | committed hcommitted => cases (bare_presented (hcommitted.next_bare hnext)).symm.trans hp
    | goesOn _ hbare =>
      cases hnext
      cases (bare_presented hbare).symm.trans hp
    | fedRefused _ _ hrefused _ =>
      rcases hrefused with rfl | rfl
      · cases hnext
      · cases hnext
        cases hp
    | ends | loginCounted | attemptFailed | pendingMissed | factorCounted | genericDeleted =>
      cases hnext
    | _ =>
      cases hnext
      cases hp
  | confirmSubmitted user suppliedCode =>
    simp only [FactorCall.advance, confirmEnrollment] at h
    split at h
    · cases h
    · rename_i row hget
      split at h
      · cases h
      · split at h
        · cases h
        · cases h
        · rename_i step hverify
          split at h
          · cases h
            cases hp
            exact ⟨_, hmake rfl hget, verifySealed_checked hverify⟩
          · cases h
  | stepUpSubmitted user session codeInput gate =>
    simp only [FactorCall.advance, verifyTotpCode] at h
    split at h
    · cases h
    · rename_i row hget
      split at h
      · cases h
      · split at h
        · cases h
        · cases h
        · rename_i step hverify
          cases h
          cases hp
          exact ⟨_, hmake rfl (Option.eq_some_of_filter_eq_some hget),
            verifySealed_checked hverify⟩
  | _ =>
    exfalso
    simp only [FactorCall.advance, startEnrollment, regenerateCodes, FactorResult.commit,
      FactorResult.goOn, FactorResult.done, FactorResult.refuse] at h
    (repeat' split at h) <;> (cases h) <;> (cases hp)

/-- Only the check of `confirm_enrollment` leads to U12. -/
theorem confirmVerified_of_next {db : Database} {step : Int} {codes : List RecoveryCode}
    {sealedCodes : Bytes}
    (h : (call.advance P key maxLockoutSecs db draw).next =
      some (.confirmVerified user step codes sealedCodes)) :
    ∃ suppliedCode row, call = .confirmSubmitted user suppliedCode ∧
      db.totpOf user = some row ∧ row.enabled = false ∧
      verifySealed P key row suppliedCode draw.now = .ok (some step) := by
  cases call with
  | confirmSubmitted user suppliedCode =>
    simp only [FactorCall.advance, confirmEnrollment] at h
    split at h
    · cases h
    · rename_i row hget
      split at h
      · cases h
      · rename_i hdisabled
        split at h
        · cases h
        · cases h
        · rename_i step' hverify
          split at h
          · cases h
            exact ⟨suppliedCode, row, rfl, hget, by simpa using hdisabled, hverify⟩
          · cases h
  | signIn call =>
    obtain ⟨flowNext, -, hnext⟩ := Option.map_eq_some_iff.mp h
    cases hnext
  | _ =>
    simp only [FactorCall.advance, startEnrollment, regenerateCodes, verifyTotpCode,
      FactorResult.commit, FactorResult.goOn, FactorResult.done, FactorResult.refuse] at h
    (repeat' split at h) <;> cases h

variable {w : FactorWorld} {e : FactorEvent}

/-- A call was there before, has just begun, or has taken its next step. -/
theorem factorStep_calls (h : (factorStep P key maxLockoutSecs w e).1.calls id = some call') :
    (w.calls id = some call' ∧ (factorStep P key maxLockoutSecs w e).1.checks id = w.checks id) ∨
      (∃ request : FactorRequest, request.start = some call') ∨
      ∃ call draw, e = .next id draw ∧ w.calls id = some call ∧
        (call.advance P key maxLockoutSecs w.db draw).next = some call' := by
  cases e with
  | begin id' request =>
    simp only [factorStep] at h ⊢
    split at h
    · rename_i call hstart
      dsimp only at h
      by_cases hid : id = id'
      · subst hid
        rw [Function.update_self] at h
        cases h
        exact .inr (.inl ⟨request, hstart⟩)
      · rw [Function.update_of_ne hid] at h
        exact .inl ⟨h, rfl⟩
    · exact .inl ⟨h, rfl⟩
    · exact .inl ⟨h, rfl⟩
  | next id' draw =>
    simp only [factorStep] at h ⊢
    cases hcall : w.calls id' with
    | none =>
      rw [hcall] at h
      exact .inl ⟨h, rfl⟩
    | some call =>
      rw [hcall] at h
      dsimp only [FactorWorld.after] at h ⊢
      by_cases hid : id = id'
      · subst hid
        rw [Function.update_self] at h
        exact .inr (.inr ⟨call, draw, rfl, hcall, h⟩)
      · rw [Function.update_of_ne hid] at h
        refine .inl ⟨h, ?_⟩
        cases w.check call draw.now with
        | some check => exact Function.update_of_ne hid _ _
        | none => rfl
  | elsewhere db => exact .inl ⟨h, rfl⟩

theorem factorStep_checks (hcall : w.calls id = some call)
    (hcheck : w.check call draw.now = some check) :
    (factorStep P key maxLockoutSecs w (.next id draw)).1.checks id = some check := by
  simp only [factorStep, hcall, FactorWorld.after, hcheck, Function.update_self]

/-- Every proof that is about to be spent has been checked. -/
def ChecksKnown (P : Primitives) (key : MasterKey) (w : FactorWorld) : Prop :=
  ∀ id call proof, w.calls id = some call → call.presented = some proof →
    ∃ check, w.checks id = some check ∧ Checked P key check proof

theorem checksKnown_start (db : Database) (codes : UserId → List RecoveryCode) :
    ChecksKnown P key (.start db codes) := fun _ _ _ hcall _ => by cases hcall

theorem checksKnown_step (h : ChecksKnown P key w) :
    ChecksKnown P key (factorStep P key maxLockoutSecs w e).1 := by
  intro id call' proof hcall' hp
  rcases factorStep_calls hcall' with ⟨hbefore, hchecks⟩ | ⟨request, hstart⟩ |
    ⟨call, draw, rfl, hcall, hnext⟩
  · rw [hchecks]
    exact h id call' proof hbefore hp
  · rw [FactorRequest.start_presented hstart] at hp
    cases hp
  · obtain ⟨check, hcheck, hchecked⟩ := advance_checked hnext hp
    exact ⟨check, factorStep_checks hcall hcheck, hchecked⟩

end Calls

end SuiId

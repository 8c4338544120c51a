import SuiId.Core.StepUp
import SuiId.Proofs.AdminAuthority
import SuiId.Store.StepUps

/-!
# Step-up evidence is real

A gated command commits on a live session of the acting user, and records either that the
user has no second factor or how the session stepped up last.  That record is a column of
the session; here it is tied to the history of the session, that is to the proofs that were
committed on it before.

* `writeOf` is what a step writes to the step-up columns, and `stepUpStep_wrote` says that
  it does;
* `Accounted` says of a history and the state after it that the columns of each session are
  those of its last proof and that its failures are counted;
* `Dead` is a session that is revoked, or gone, for ever.
-/

namespace SuiId

open Lib Lib.Result

/-! ## The history of a session -/

/-- A TOTP code or a passkey that was proven for a session. -/
structure FactorProof where
  session : SessionId
  method : String
  at_ : DateTime
deriving DecidableEq

/-- The proof that a step commits.  A recovery code is none. -/
def provenBy (x : StepUpTaken) : Option FactorProof :=
  match x.event, x.out with
  | .completeStepUp _ session (.totp _) _ now, .committed => some ⟨session, "totp", now⟩
  | .completeStepUp _ session (.webauthn _) _ now, .committed => some ⟨session, "webauthn", now⟩
  | .completeSecondFactor _ session (.totp _), .committed =>
    some ⟨session.id, "totp", session.createdAt⟩
  | .completeSecondFactor _ session .webauthn, .committed =>
    some ⟨session.id, "webauthn", session.createdAt⟩
  | .completeFederatedMfa _ (some (.totp _)) id now, .federated (.promoted ..) =>
    some ⟨id, "totp", now⟩
  | .completeFederatedMfa _ (some (.webauthn ..)) id now, .federated (.promoted ..) =>
    some ⟨id, "webauthn", now⟩
  | _, _ => none

/-- The latest proof on a session. -/
def latestProof (past : List StepUpTaken) (id : SessionId) : Option FactorProof :=
  ((past.filterMap provenBy).filter fun p => p.session == id).getLast?

/-- L05 commits on the session. -/
def stepsUpOn (id : SessionId) (x : StepUpTaken) : Bool :=
  match x.event, x.out with
  | .completeStepUp _ session _ _ _, .committed => session == id
  | _, _ => false

/-- L06 commits on the session. -/
def failsOn (id : SessionId) (x : StepUpTaken) : Bool :=
  match x.event, x.out with
  | .recordStepUpFailure _ session _, .failure _ => session == id
  | _, _ => false

/-- A gated command commits on the session. -/
def gatedOn (id : SessionId) (x : StepUpTaken) : Bool :=
  match x.event, x.out with
  | .gated _ _ session _, .committed => session == id
  | _, _ => false

/-- The L06 that committed on a session since its last L05. -/
def failuresSince (past : List StepUpTaken) (id : SessionId) : Nat :=
  past.foldl (fun n x => if stepsUpOn id x then 0 else if failsOn id x then n + 1 else n) 0

/-! ## What a step writes -/

/-- What a step writes to the step-up columns. -/
def writeOf (e : StepUpEvent) (out : StepUpAnswer) : SessionWrite :=
  match e, out with
  | .completeStepUp _ session proof _ now, .committed => .steppedUp session proof.method now
  | .recordStepUpFailure _ session _, .failure _ => .failed session
  | .completeSecondFactor _ session proof, .committed =>
    .opened session.id (proof.stamp session.createdAt)
  | .completeFederatedMfa _ proof id now, .federated (.promoted ..) =>
    .opened id ((proof.bind F03Proof.method).bind fun method => method.stamp now)
  | .openSession signIn, .committed => .opened signIn.session.id none
  | _, _ => .nothing

namespace SessionWrite

/-- The proof that a write records. -/
def proof : SessionWrite → Option FactorProof
  | steppedUp id method at_ => some ⟨id, method, at_⟩
  | opened id (some (at_, method)) => some ⟨id, method, at_⟩
  | _ => none

/-- The session that a write is about. -/
def subject : SessionWrite → Option SessionId
  | nothing => none
  | steppedUp id _ _ => some id
  | failed id => some id
  | opened id _ => some id

/-- The failures of a session after a write. -/
def failures (id : SessionId) (n : Nat) : SessionWrite → Nat
  | steppedUp session _ _ => if session = id then 0 else n
  | failed session => if session = id then n + 1 else n
  | _ => n

end SessionWrite

namespace SessionWrite

variable {w : SessionWrite} {id : SessionId}

theorem proof_other (h : w.subject ≠ some id) :
    (w.proof.filter fun p => p.session == id) = none := by
  cases w with
  | nothing => rfl
  | steppedUp session method at_ =>
    have hne : session ≠ id := fun heq => h (congrArg some heq)
    simp [proof, Option.filter_some, hne]
  | failed session => rfl
  | opened session stamp =>
    have hne : session ≠ id := fun heq => h (congrArg some heq)
    cases stamp with
    | none => rfl
    | some p => simp [proof, Option.filter_some, hne]

theorem failures_other {n : Nat} (h : w.subject ≠ some id) :
    w.failures id n = n := by
  cases w with
  | nothing => rfl
  | steppedUp session method at_ => exact if_neg fun heq => h (congrArg some heq)
  | failed session => exact if_neg fun heq => h (congrArg some heq)
  | opened session stamp => rfl

end SessionWrite

theorem provenBy_eq (x : StepUpTaken) : provenBy x = (writeOf x.event x.out).proof := by
  obtain ⟨w, e, out⟩ := x
  cases e with
  | completeStepUp user session proof gate now =>
    cases proof with
    | totp step => cases out <;> rfl
    | webauthn pendingId => cases out <;> rfl
  | completeSecondFactor pendingId session proof =>
    cases proof with
    | totp step => cases out <;> rfl
    | recoveryCode expectedSealed newSealed => cases out <;> rfl
    | webauthn => cases out <;> rfl
  | completeFederatedMfa pendingId proof sessionId now =>
    cases out with
    | federated outcome =>
      cases outcome with
      | promoted session evicted method =>
        cases proof with
        | none => rfl
        | some proof => cases proof <;> rfl
      | _ => cases proof with
        | none => rfl
        | some proof => cases proof <;> rfl
    | _ => cases proof with
      | none => rfl
      | some proof => cases proof <;> rfl
  | _ => cases out <;> rfl

theorem latestProof_snoc (past : List StepUpTaken) (x : StepUpTaken) (id : SessionId) :
    latestProof (past ++ [x]) id =
      ((writeOf x.event x.out).proof.filter fun p => p.session == id).or (latestProof past id) := by
  have hone : [x].filterMap provenBy = (writeOf x.event x.out).proof.toList := by
    rw [← provenBy_eq]
    cases h : provenBy x with
    | none => simp [h]
    | some p => simp [h]
  rw [latestProof, List.filterMap_append, List.filter_append, List.getLast?_append, hone]
  cases (writeOf x.event x.out).proof with
  | none => rfl
  | some p =>
    by_cases hid : (p.session == id) = true
    · simp [Option.filter_some, hid]
    · simp [Option.filter_some, hid, latestProof]

theorem failuresSince_snoc (past : List StepUpTaken) (x : StepUpTaken) (id : SessionId) :
    failuresSince (past ++ [x]) id =
      (writeOf x.event x.out).failures id (failuresSince past id) := by
  rw [failuresSince, List.foldl_append, List.foldl_cons, List.foldl_nil, ← failuresSince]
  obtain ⟨w, e, out⟩ := x
  cases e with
  | completeStepUp user session proof gate now =>
    cases out with
    | committed => simp [stepsUpOn, failsOn, writeOf, SessionWrite.failures]
    | _ => rfl
  | recordStepUpFailure user session now =>
    cases out with
    | failure outcome => simp [stepsUpOn, failsOn, writeOf, SessionWrite.failures]
    | _ => rfl
  | completeFederatedMfa pendingId proof sessionId now =>
    cases out with
    | federated outcome => cases outcome <;> rfl
    | _ => rfl
  | _ => cases out <;> rfl

section Commands

variable {P : Primitives} {key : MasterKey} {rfc3339 : DateTime → String} {db db' : Database}

theorem Revocation.perform_held {revocation : Revocation}
    (h : revocation.perform db = .ok db') : Sessions.Held db.sessions db'.sessions := by
  cases revocation with
  | revokeSession actor user session trigger now =>
    obtain ⟨⟨u, d⟩, hcommit, rfl⟩ := map_eq_ok.mp h
    obtain ⟨event, d, log, hbody, rfl⟩ := classA_eq_ok hcommit
    cases hbody
    exact Sessions.held_revokeWhere db _ now
  | revokeSessionIdleTimeout user session now =>
    simp only [Revocation.perform, map_eq_ok] at h
    obtain ⟨⟨u, d⟩, hcommit, rfl⟩ := h
    obtain ⟨log, rfl⟩ := revokeSessionIdleTimeout_ok hcommit
    exact Sessions.held_revokeWhere db _ now
  | revokeAllSessionsForUserAsUser user trigger now
  | revokeAllSessionsForUserUnattributed user trigger now
  | revokeOtherSessionsForUser user keep trigger now =>
    obtain ⟨⟨n, d⟩, hcommit, rfl⟩ := map_eq_ok.mp h
    obtain ⟨event, d, log, hbody, rfl⟩ := classA_eq_ok hcommit
    cases hbody
    exact Sessions.held_revokeWhere db _ now
  | changePasswordSelf user credential keepCurrentSession revokeOthers now =>
    obtain ⟨⟨n, d⟩, hcommit, rfl⟩ := map_eq_ok.mp h
    obtain ⟨event, d, log, hbody, rfl⟩ := classA_eq_ok hcommit
    simp only [Users.clearPasswordLockout, bind_eq_ok, ensure_eq_ok, require_eq_ok, pure_eq_ok,
      Prod.mk.injEq] at hbody
    obtain ⟨-, -, ⟨lockout, d⟩, ⟨u, -, -, rfl⟩, -, -, rfl⟩ := hbody
    cases revokeOthers with
    | false => exact .refl _
    | true =>
      cases keepCurrentSession with
      | none => exact Sessions.held_revokeWhere _ _ now
      | some keep => exact Sessions.held_revokeWhere _ _ now
  | consumeAndResetPassword user token credential consumedAt hibpWarned =>
    obtain ⟨⟨n, d⟩, hcommit, rfl⟩ := map_eq_ok.mp h
    obtain ⟨tokens, log, keepLock, rfl⟩ := consumeAndResetPassword_ok hcommit
    exact Sessions.held_revokeWhere db _ consumedAt

theorem FactorChange.perform_sessions {change : FactorChange}
    (h : change.perform db = .ok db') : db'.sessions = db.sessions := by
  cases change with
  | upsertPending user secretEnc now =>
    obtain ⟨-, userTotp, rfl⟩ := UserTotp.upsertPending_ok h
    rfl
  | confirmTotpEnrollment user sealedRecoveryCodes lastUsedStep now =>
    obtain ⟨⟨u, d⟩, hcommit, rfl⟩ := map_eq_ok.mp h
    obtain ⟨-, userTotp, log, rfl⟩ := confirmTotpEnrollment_ok hcommit
    rfl
  | disableTotp | deletePasskey =>
    obtain ⟨⟨u, d⟩, hcommit, rfl⟩ := map_eq_ok.mp h
    obtain ⟨event, d, log, hbody, rfl⟩ := classA_eq_ok hcommit
    simp only [bind_eq_ok, ensure_eq_ok, pure_eq_ok, Prod.mk.injEq] at hbody
    obtain ⟨-, -, -, -, rfl⟩ := hbody
    rfl
  | regenerateRecoveryCodes user sealedRecoveryCodes =>
    obtain ⟨⟨u, d⟩, hcommit, rfl⟩ := map_eq_ok.mp h
    obtain ⟨event, d, log, hbody, rfl⟩ := classA_eq_ok hcommit
    simp only [bind_eq_ok, pure_eq_ok, Prod.mk.injEq] at hbody
    obtain ⟨d, hset, -, -, rfl⟩ := hbody
    obtain ⟨userTotp, rfl⟩ := UserTotp.updateWhere_ok hset
    rfl
  | registerPasskey row =>
    obtain ⟨⟨u, d⟩, hcommit, rfl⟩ := map_eq_ok.mp h
    obtain ⟨-, webauthnCredentials, log, rfl⟩ := registerPasskey_ok hcommit
    rfl
  | operatorResetMfa target reason =>
    obtain ⟨⟨n, d⟩, hcommit, rfl⟩ := map_eq_ok.mp h
    obtain ⟨event, d, log, hbody, rfl⟩ := classA_eq_ok hcommit
    simp only [removeMfa, bind_eq_ok, pure_eq_ok, Prod.mk.injEq] at hbody
    obtain ⟨⟨⟨totp, passkeys⟩, d⟩, ⟨role, -, -, rfl⟩, -, -, rfl⟩ := hbody
    rfl

theorem PlainSignIn.perform_wrote {signIn : PlainSignIn} (h : signIn.perform P db = .ok db') :
    (SessionWrite.opened signIn.session.id none).Wrote db.sessions db'.sessions := by
  cases signIn with
  | password draw user =>
    obtain ⟨⟨n, d⟩, hcommit, rfl⟩ := map_eq_ok.mp h
    exact (signInWithPassword_inserted hcommit).wrote_plain rfl
  | directory shadow sourceSlug id user now =>
    obtain ⟨⟨n, d⟩, hcommit, rfl⟩ := map_eq_ok.mp h
    exact (signInFromDirectory_inserted hcommit).wrote_plain rfl
  | federated attempt provider providerSlug id user now =>
    obtain ⟨⟨n, d⟩, hcommit, rfl⟩ := map_eq_ok.mp h
    exact (signInFederated_inserted hcommit).wrote_plain rfl
  | provisioned attempt provider user link id now =>
    obtain ⟨⟨n, d⟩, hcommit, rfl⟩ := map_eq_ok.mp h
    exact (provisionFederatedUser_inserted hcommit).wrote_plain rfl

/-- The `step_up` attribute of an event. -/
def stepUpAttribute (row : AuditLogRow) : Option String :=
  (row.attributes.find? fun a => a.1 == "step_up").map (·.2)

/-- What a committed gated command read and recorded. -/
structure GatedEffect (db : Database) (admin : UserId) (session : SessionId) (now : DateTime)
    (stepUp : SessionStepUpEvidence) (row : AuditLogRow) (db' : Database) : Prop where
  evidence : sessionStepUpEvidence db session admin now = .ok stepUp
  actor : row.actor = some admin
  recorded : stepUpAttribute row = some stepUp.asAttribute
  log : db'.auditLog = db.auditLog ++ [row]
  sessions : Sessions.Held db.sessions db'.sessions

theorem GatedCommand.perform_ok {command : GatedCommand} {admin : UserId} {session : SessionId}
    {now : DateTime} (h : command.perform rfc3339 db admin session now = .ok db') :
    ∃ stepUp row, GatedEffect db admin session now stepUp row db' := by
  cases command with
  | rotateSigningKey newId algorithm privateKeySealed publicKey reason =>
    obtain ⟨⟨u, d⟩, hcommit, rfl⟩ := map_eq_ok.mp h
    obtain ⟨event, d, hbody, rfl⟩ := classA_records hcommit
    simp only [bind_eq_ok, pure_eq_ok, Prod.mk.injEq] at hbody
    obtain ⟨stepUp, hstepUp, d', hrotate, -, rfl, rfl⟩ := hbody
    obtain ⟨signingKeys, rfl⟩ := SigningKeys.rotateAtomic_ok hrotate
    refine ⟨stepUp, _, hstepUp, rfl, ?_, rfl, .refl _⟩
    cases reason with
    | none => rfl
    | some reason => rfl
  | disableUser target reason | deleteUser target reason =>
    obtain ⟨⟨u, d⟩, hcommit, rfl⟩ := map_eq_ok.mp h
    obtain ⟨event, d, hbody, rfl⟩ := classA_records hcommit
    simp only [bind_eq_ok, pure_eq_ok, Prod.mk.injEq] at hbody
    obtain ⟨stepUp, hstepUp, d', hset, -, rfl, rfl⟩ := hbody
    obtain ⟨-, rfl⟩ := Users.updateWhere_ok hset
    refine ⟨stepUp, _, hstepUp, rfl, ?_, rfl, Sessions.held_revokeWhere _ _ now⟩
    cases reason with
    | none => rfl
    | some reason => rfl
  | enableUser target =>
    obtain ⟨⟨u, d⟩, hcommit, rfl⟩ := map_eq_ok.mp h
    obtain ⟨event, d, hbody, rfl⟩ := classA_records hcommit
    simp only [bind_eq_ok, pure_eq_ok, Prod.mk.injEq] at hbody
    obtain ⟨stepUp, hstepUp, d', hset, -, rfl, rfl⟩ := hbody
    obtain ⟨-, rfl⟩ := Users.updateWhere_ok hset
    exact ⟨stepUp, _, hstepUp, rfl, rfl, rfl, .refl _⟩
  | adminResetMfa target reason =>
    obtain ⟨⟨n, d⟩, hcommit, rfl⟩ := map_eq_ok.mp h
    obtain ⟨event, d, hbody, rfl⟩ := classA_records hcommit
    simp only [removeMfa, bind_eq_ok, pure_eq_ok, Prod.mk.injEq] at hbody
    obtain ⟨stepUp, hstepUp, ⟨⟨totp, passkeys⟩, d'⟩, ⟨role, -, -, rfl⟩, -, rfl, rfl⟩ := hbody
    refine ⟨stepUp, _, hstepUp, rfl, ?_, rfl, .refl _⟩
    cases reason with
    | none => rfl
    | some reason => rfl
  | issueRecoveryLinkAsAdmin target tokenId tokenHash reason expiresAt =>
    obtain ⟨⟨n, d⟩, hcommit, rfl⟩ := map_eq_ok.mp h
    obtain ⟨event, d, hbody, rfl⟩ := classA_records hcommit
    simp only [bind_eq_ok, ensure_eq_ok, pure_eq_ok, Prod.mk.injEq] at hbody
    obtain ⟨valid, -, stepUp, hstepUp, -, -, t, -, -, -, ⟨grant, d'⟩, hissue, -, rfl, rfl⟩ := hbody
    obtain ⟨tokens, rfl⟩ := revokeAndInsertRecoveryToken_ok hissue
    refine ⟨stepUp, _, hstepUp, rfl, ?_, rfl, .refl _⟩
    cases hprovisioning : isProvisioning t with
    | true => rfl
    | false => rfl

/-- A step writes what it says. -/
theorem perform_wrote {e : StepUpEvent} {out : StepUpAnswer}
    (h : e.perform P key rfc3339 db = .ok (out, db')) :
    (writeOf e out).Wrote db.sessions db'.sessions := by
  cases e with
  | completeStepUp user session proof gate now =>
    simp only [StepUpEvent.perform, bind_eq_ok, pure_eq_ok, Prod.mk.injEq] at h
    obtain ⟨⟨u, d⟩, hcommit, rfl, rfl⟩ := h
    exact completeStepUp_wrote hcommit
  | recordStepUpFailure user session now =>
    simp only [StepUpEvent.perform, bind_eq_ok, pure_eq_ok, Prod.mk.injEq] at h
    obtain ⟨⟨outcome, d⟩, hcommit, rfl, rfl⟩ := h
    exact recordStepUpFailure_wrote hcommit
  | completeSecondFactor pendingId session proof =>
    simp only [StepUpEvent.perform, bind_eq_ok, pure_eq_ok, Prod.mk.injEq] at h
    obtain ⟨⟨s, d⟩, hcommit, rfl, rfl⟩ := h
    exact completeSecondFactor_wrote hcommit
  | completeFederatedMfa pendingId proof sessionId now =>
    simp only [StepUpEvent.perform, bind_eq_ok, pure_eq_ok, Prod.mk.injEq] at h
    obtain ⟨⟨outcome, d⟩, hcommit, rfl, rfl⟩ := h
    cases outcome with
    | promoted session evicted method =>
      obtain ⟨promotion, hmethod, hwrote⟩ := completeFederatedMfa_wrote hcommit
      rw [writeOf, hmethod]
      exact hwrote
    | rejectedStillPending | attemptsExhausted | invalidated =>
      exact SessionWrite.wrote_nothing
        (.of_eq (completeFederatedMfa_sessions hcommit fun _ _ _ h => by cases h))
  | openSession signIn =>
    simp only [StepUpEvent.perform, bind_eq_ok, pure_eq_ok, Prod.mk.injEq] at h
    obtain ⟨d, hcommit, rfl, rfl⟩ := h
    exact PlainSignIn.perform_wrote hcommit
  | revoke revocation =>
    simp only [StepUpEvent.perform, bind_eq_ok, pure_eq_ok, Prod.mk.injEq] at h
    obtain ⟨d, hcommit, rfl, rfl⟩ := h
    exact SessionWrite.wrote_nothing (Revocation.perform_held hcommit)
  | factor change =>
    simp only [StepUpEvent.perform, bind_eq_ok, pure_eq_ok, Prod.mk.injEq] at h
    obtain ⟨d, hcommit, rfl, rfl⟩ := h
    exact SessionWrite.wrote_nothing (.of_eq (FactorChange.perform_sessions hcommit))
  | touchLastUsed session now =>
    cases h
    apply SessionWrite.wrote_nothing
    unfold SuiId.touchLastUsed
    split
    · exact .refl _
    · split
      · show Sessions.Held db.sessions (db.sessions.update (fun s => s.id == session)
          (fun s => { s with lastUsedAt := some now }) fun _ => rfl)
        exact Sessions.held_update fun _ => ⟨rfl, rfl, rfl, rfl, fun h => h⟩
      · exact .refl _
  | purgeSessions now =>
    cases h
    exact SessionWrite.wrote_nothing (Sessions.held_purgeExpired db now)
  | gated command admin session now =>
    simp only [StepUpEvent.perform, bind_eq_ok, pure_eq_ok, Prod.mk.injEq] at h
    obtain ⟨d, hcommit, rfl, rfl⟩ := h
    obtain ⟨stepUp, row, heffect⟩ := GatedCommand.perform_ok hcommit
    exact SessionWrite.wrote_nothing heffect.sessions
  | elsewhere other =>
    cases h
    exact SessionWrite.wrote_nothing (.refl _)

/-- A refused step writes nothing. -/
theorem writeOf_refused (e : StepUpEvent) (error : StoreError) :
    writeOf e (.refused error) = .nothing := by
  cases e <;> rfl

theorem stepUpStep_wrote (P : Primitives) (key : MasterKey) (rfc3339 : DateTime → String)
    (w : StepUpWorld) (e : StepUpEvent) :
    (writeOf e (stepUpStep P key rfc3339 w e).2).Wrote w.db.sessions
      (stepUpStep P key rfc3339 w e).1.db.sessions := by
  unfold stepUpStep
  dsimp only
  split
  · rename_i out d h
    exact perform_wrote h
  · rename_i error h
    rw [writeOf_refused]
    exact SessionWrite.wrote_nothing (.refl _)

end Commands

/-! ## The columns against the history -/

/-- The step-up columns of a session are those of its history. -/
structure RowAccounted (past : List StepUpTaken) (sessionIds : List SessionId) (s : SessionRow) :
    Prop where
  stamped : s.lastStepUpAt = (latestProof past s.id).map (·.at_)
  method : ∀ p, latestProof past s.id = some p → s.lastStepUpMethod = some p.method
  counted : failuresSince past s.id ≤ s.stepUpFailureCount
  ended : stepUpFailureRevocationThreshold ≤ failuresSince past s.id → s.revokedAt.isSome = true
  drawn : s.id ∈ sessionIds

/-- Every session is accounted for, and one that was never drawn has no history. -/
structure Accounted (past : List StepUpTaken) (w : StepUpWorld) : Prop where
  rows : ∀ s ∈ w.db.sessions, RowAccounted past w.sessionIds s
  unused : ∀ id, id ∉ w.sessionIds → latestProof past id = none ∧ failuresSince past id = 0

theorem RowAccounted.of_held {past : List StepUpTaken} {sessionIds : List SessionId}
    {s s' : SessionRow} (h : RowAccounted past sessionIds s) (hheld : s.Held s') :
    RowAccounted past sessionIds s' where
  stamped := by rw [hheld.lastStepUpAt, hheld.id, h.stamped]
  method p hp := by
    rw [hheld.id] at hp
    rw [hheld.method, h.method p hp]
  counted := by
    rw [hheld.failures, hheld.id]
    exact h.counted
  ended hlimit := by
    rw [hheld.id] at hlimit
    exact hheld.revoked (h.ended hlimit)
  drawn := by
    rw [hheld.id]
    exact h.drawn

/-- A session that the step is not about keeps its history. -/
theorem RowAccounted.snoc {past : List StepUpTaken} {x : StepUpTaken}
    {sessionIds sessionIds' : List SessionId} {s : SessionRow} (h : RowAccounted past sessionIds s)
    (hids : ∀ id ∈ sessionIds, id ∈ sessionIds')
    (hother : (writeOf x.event x.out).subject ≠ some s.id) :
    RowAccounted (past ++ [x]) sessionIds' s := by
  have hlatest : latestProof (past ++ [x]) s.id = latestProof past s.id := by
    rw [latestProof_snoc, SessionWrite.proof_other hother, Option.none_or]
  have hfailures : failuresSince (past ++ [x]) s.id = failuresSince past s.id := by
    rw [failuresSince_snoc, SessionWrite.failures_other hother]
  constructor
  · rw [hlatest]
    exact h.stamped
  · intro p hp
    rw [hlatest] at hp
    exact h.method p hp
  · rw [hfailures]
    exact h.counted
  · intro hlimit
    rw [hfailures] at hlimit
    exact h.ended hlimit
  · exact hids _ h.drawn

section Subject

variable {past : List StepUpTaken} {x : StepUpTaken} {sessionIds : List SessionId}
  {s : SessionRow}

/-- A session after its step-up. -/
theorem RowAccounted.steppedUp {method : String} {at_ : DateTime}
    (hwrite : writeOf x.event x.out = .steppedUp s.id method at_)
    (hat : s.lastStepUpAt = some at_) (hmethod : s.lastStepUpMethod = some method)
    (hdrawn : s.id ∈ sessionIds) : RowAccounted (past ++ [x]) sessionIds s := by
  have hlatest : latestProof (past ++ [x]) s.id = some ⟨s.id, method, at_⟩ := by
    rw [latestProof_snoc, hwrite, SessionWrite.proof, Option.filter_some,
      if_pos (beq_self_eq_true s.id), Option.some_or]
  have hfailures : failuresSince (past ++ [x]) s.id = 0 := by
    rw [failuresSince_snoc, hwrite, SessionWrite.failures, if_pos rfl]
  constructor
  · rw [hlatest, hat, Option.map_some]
  · intro p hp
    rw [hlatest] at hp
    cases hp
    exact hmethod
  · omega
  · intro hlimit
    rw [hfailures] at hlimit
    exact absurd hlimit (by decide)
  · exact hdrawn

/-- A session after a failure. -/
theorem RowAccounted.failed {s₀ : SessionRow} (h : RowAccounted past sessionIds s₀)
    (hwrite : writeOf x.event x.out = .failed s.id) (hid : s₀.id = s.id)
    (hat : s.lastStepUpAt = s₀.lastStepUpAt) (hmethod : s.lastStepUpMethod = s₀.lastStepUpMethod)
    (hcount : s.stepUpFailureCount = s₀.stepUpFailureCount + 1)
    (hrevoked : stepUpFailureRevocationThreshold ≤ s.stepUpFailureCount →
      s.revokedAt.isSome = true) : RowAccounted (past ++ [x]) sessionIds s := by
  have hlatest : latestProof (past ++ [x]) s.id = latestProof past s₀.id := by
    have hproof : (SessionWrite.failed s.id).proof = none := rfl
    rw [latestProof_snoc, hwrite, hproof, Option.filter_none, Option.none_or, hid]
  have hfailures : failuresSince (past ++ [x]) s.id = failuresSince past s₀.id + 1 := by
    rw [failuresSince_snoc, hwrite, SessionWrite.failures, if_pos rfl, hid]
  have hcounted := h.counted
  constructor
  · rw [hlatest, hat, h.stamped]
  · intro p hp
    rw [hlatest] at hp
    rw [hmethod, h.method p hp]
  · omega
  · intro hlimit
    exact hrevoked (by omega)
  · rw [← hid]
    exact h.drawn

/-- A session that has just been opened. -/
theorem RowAccounted.opened {stamp : Option (DateTime × String)}
    (hwrite : writeOf x.event x.out = .opened s.id stamp)
    (hat : s.lastStepUpAt = stamp.map (·.1))
    (hmethod : ∀ p, stamp = some p → s.lastStepUpMethod = some p.2)
    (hnone : latestProof past s.id = none) (hzero : failuresSince past s.id = 0)
    (hdrawn : s.id ∈ sessionIds) : RowAccounted (past ++ [x]) sessionIds s := by
  have hlatest : latestProof (past ++ [x]) s.id =
      stamp.map fun p => ⟨s.id, p.2, p.1⟩ := by
    rw [latestProof_snoc, hwrite, hnone, Option.or_none]
    cases stamp with
    | none => rfl
    | some p =>
      rw [SessionWrite.proof, Option.filter_some, if_pos (beq_self_eq_true s.id), Option.map_some]
  have hfailures : failuresSince (past ++ [x]) s.id = 0 := by
    rw [failuresSince_snoc, hwrite]
    exact hzero
  constructor
  · rw [hlatest, hat, Option.map_map]
    rfl
  · intro p hp
    rw [hlatest, Option.map_eq_some_iff] at hp
    obtain ⟨q, hq, rfl⟩ := hp
    exact hmethod q hq
  · omega
  · intro hlimit
    rw [hfailures] at hlimit
    exact absurd hlimit (by decide)
  · exact hdrawn

end Subject

theorem writeOf_opened {e : StepUpEvent} {out : StepUpAnswer} {id : SessionId}
    {stamp : Option (DateTime × String)} (h : writeOf e out = .opened id stamp) :
    id ∈ e.draws.toList := by
  cases e with
  | completeSecondFactor | openSession =>
    cases out with
    | committed =>
      cases h
      exact List.mem_singleton_self _
    | _ => cases h
  | completeFederatedMfa pendingId proof sessionId now =>
    cases out with
    | federated outcome =>
      cases outcome with
      | promoted session evicted method =>
        cases h
        exact List.mem_singleton_self _
      | _ => cases h
    | _ => cases h
  | _ => cases out <;> cases h

section Runs

variable {P : Primitives} {key : MasterKey} {rfc3339 : DateTime → String}

theorem stepUpStep_sessionIds (P : Primitives) (key : MasterKey) (rfc3339 : DateTime → String)
    (w : StepUpWorld) (e : StepUpEvent) :
    (stepUpStep P key rfc3339 w e).1.sessionIds = e.draws.toList ++ w.sessionIds := by
  unfold stepUpStep
  dsimp only
  split
  · rfl
  · rfl

theorem Accounted.step (past : List StepUpTaken) (w : StepUpWorld) (e : StepUpEvent)
    (h : Accounted past w) (hfresh : DrawsNewSession w e) :
    Accounted (past ++ [⟨w, e, (stepUpStep P key rfc3339 w e).2⟩])
      (stepUpStep P key rfc3339 w e).1 := by
  have hwrote := stepUpStep_wrote P key rfc3339 w e
  have hids := stepUpStep_sessionIds P key rfc3339 w e
  generalize stepUpStep P key rfc3339 w e = result at hwrote hids
  obtain ⟨w', out⟩ := result
  dsimp only at hwrote hids ⊢
  have hkept : ∀ id ∈ w.sessionIds, id ∈ w'.sessionIds := by
    intro id hid
    rw [hids]
    exact List.mem_append_right _ hid
  -- The session that the step is about has been drawn.
  have hsubject : ∀ id, (writeOf e out).subject = some id → id ∈ w'.sessionIds := by
    intro id hid
    have htarget := hwrote.target
    cases hwrite : writeOf e out with
    | nothing =>
      rw [hwrite] at hid
      cases hid
    | steppedUp | failed =>
      rw [hwrite] at hid htarget
      cases hid
      obtain ⟨s, hs, rfl, -⟩ := htarget
      exact hkept _ (h.rows s hs).drawn
    | opened session stamp =>
      rw [hwrite] at hid
      cases hid
      rw [hids]
      exact List.mem_append_left _ (writeOf_opened hwrite)
  have hheld : ∀ s, (writeOf e out).subject ≠ some s.id →
      (∃ s₀ ∈ w.db.sessions, SessionRow.Held s₀ s) →
      RowAccounted (past ++ [⟨w, e, out⟩]) w'.sessionIds s := by
    intro s hother hex
    obtain ⟨s₀, hs₀, hheld⟩ := hex
    exact ((h.rows s₀ hs₀).of_held hheld).snoc hkept hother
  constructor
  · intro s hs
    have hrow := hwrote.rows s hs
    cases hwrite : writeOf e out with
    | nothing =>
      rw [hwrite] at hrow
      apply hheld s ?_ hrow
      rw [hwrite]
      exact fun h => by cases h
    | steppedUp session method at_ =>
      rw [hwrite] at hrow
      rcases hrow with ⟨rfl, hat, hmethod⟩ | ⟨hid, hex⟩
      · exact .steppedUp hwrite hat hmethod (hsubject s.id (by rw [hwrite]; rfl))
      · apply hheld s ?_ hex
        rw [hwrite]
        exact fun h => hid (Option.some.inj h).symm
    | failed session =>
      rw [hwrite] at hrow
      rcases hrow with ⟨rfl, s₀, hs₀, hid₀, hat, hmethod, hcount, hrevoked⟩ | ⟨hid, hex⟩
      · have hold := h.rows s₀ hs₀
        have hold' : RowAccounted past w'.sessionIds s₀ := { hold with drawn := hkept _ hold.drawn }
        exact hold'.failed hwrite hid₀ hat hmethod hcount hrevoked
      · apply hheld s ?_ hex
        rw [hwrite]
        exact fun h => hid (Option.some.inj h).symm
    | opened session stamp =>
      rw [hwrite] at hrow
      rcases hrow with ⟨rfl, hat, hmethod⟩ | ⟨hid, hex⟩
      · have hnew : s.id ∉ w.sessionIds := hfresh s.id (writeOf_opened hwrite)
        obtain ⟨hnone, hzero⟩ := h.unused s.id hnew
        exact .opened hwrite hat hmethod hnone hzero (hsubject s.id (by rw [hwrite]; rfl))
      · apply hheld s ?_ hex
        rw [hwrite]
        exact fun h => hid (Option.some.inj h).symm
  · intro id hid
    have hother : (writeOf e out).subject ≠ some id := fun h => hid (hsubject id h)
    have hunused : id ∉ w.sessionIds := fun h => hid (hkept id h)
    obtain ⟨hnone, hzero⟩ := h.unused id hunused
    refine ⟨?_, ?_⟩
    · rw [latestProof_snoc, SessionWrite.proof_other hother, Option.none_or]
      exact hnone
    · rw [failuresSince_snoc, SessionWrite.failures_other hother]
      exact hzero

/-- No session has stepped up yet. -/
def NoStepUps (db : Database) : Prop := ∀ s ∈ db.sessions, s.lastStepUpAt = none

instance (db : Database) : Decidable (NoStepUps db) :=
  inferInstanceAs (Decidable (∀ s ∈ db.sessions.rows, s.lastStepUpAt = none))

theorem Accounted.start {db : Database} (h : NoStepUps db) :
    Accounted [] (StepUpWorld.start db) where
  rows s hs := by
    constructor
    · rw [h s hs]
      rfl
    · intro p hp
      cases hp
    · exact Nat.zero_le _
    · intro hlimit
      exact absurd (show 5 ≤ 0 from hlimit) (by decide)
    · exact List.mem_map_of_mem hs
  unused id _ := ⟨rfl, rfl⟩

/-! ## A session that is over -/

/-- Every row of the session is revoked, and no other session will have its identifier. -/
structure Dead (id : SessionId) (w : StepUpWorld) : Prop where
  revoked : ∀ s ∈ w.db.sessions, s.id = id → s.revokedAt.isSome = true
  drawn : id ∈ w.sessionIds

variable {id session : SessionId} {w : StepUpWorld} {admin : UserId} {now : DateTime}

theorem Dead.not_live (h : Dead id w) :
    ¬ ∃ s ∈ w.db.sessions, s.id = id ∧ s.revokedAt = none := by
  intro hex
  obtain ⟨s, hs, hid, hnone⟩ := hex
  have hrevoked := h.revoked s hs hid
  rw [hnone] at hrevoked
  cases hrevoked

theorem Dead.step (id : SessionId) (w : StepUpWorld) (e : StepUpEvent) (h : Dead id w)
    (hfresh : DrawsNewSession w e) : Dead id (stepUpStep P key rfc3339 w e).1 := by
  have hwrote := stepUpStep_wrote P key rfc3339 w e
  constructor
  · intro s hs hid
    have hheld : (∃ s₀ ∈ w.db.sessions, SessionRow.Held s₀ s) → s.revokedAt.isSome = true := by
      intro hex
      obtain ⟨s₀, hs₀, hheld⟩ := hex
      exact hheld.revoked (h.revoked s₀ hs₀ (hheld.id.symm.trans hid))
    have hrow := hwrote.rows s hs
    have hon := hwrote.target
    cases hwrite : writeOf e (stepUpStep P key rfc3339 w e).2 with
    | nothing =>
      rw [hwrite] at hrow
      exact hheld hrow
    | steppedUp | failed =>
      rw [hwrite] at hrow hon
      rcases hrow with hrow | hrow
      · rw [← hrow.1, hid] at hon
        exact absurd hon h.not_live
      · exact hheld hrow.2
    | opened session stamp =>
      rw [hwrite] at hrow
      rcases hrow with hrow | hrow
      · have hnew := hfresh session (writeOf_opened hwrite)
        rw [← hrow.1, hid] at hnew
        exact absurd h.drawn hnew
      · exact hheld hrow.2
  · rw [stepUpStep_sessionIds]
    exact List.mem_append_right _ h.drawn

/-- A gated command that commits has read its session live. -/
theorem gated_committed {command : GatedCommand}
    (h : (stepUpStep P key rfc3339 w (.gated command admin session now)).2 = .committed) :
    ∃ stepUp row, GatedEffect w.db admin session now stepUp row
      (stepUpStep P key rfc3339 w (.gated command admin session now)).1.db := by
  unfold stepUpStep at h ⊢
  simp only [StepUpEvent.perform] at h ⊢
  cases hperform : command.perform rfc3339 w.db admin session now with
  | ok db' => exact GatedCommand.perform_ok hperform
  | error error =>
    rw [hperform] at h
    cases h

/-- Nothing that needs a live session commits on it. -/
theorem Dead.idle {x : StepUpTaken} (h : Dead id x.pre)
    (hout : x.out = (stepUpStep P key rfc3339 x.pre x.event).2) :
    stepsUpOn id x = false ∧ gatedOn id x = false := by
  obtain ⟨w, e, out⟩ := x
  dsimp only at h hout
  constructor
  · have htarget := (stepUpStep_wrote P key rfc3339 w e).target
    rw [← hout] at htarget
    rw [← Bool.not_eq_true]
    intro hon
    unfold stepsUpOn at hon
    dsimp only at hon
    split at hon
    · have hid := beq_iff_eq.mp hon
      subst hid
      exact h.not_live htarget
    · cases hon
  · rw [← Bool.not_eq_true]
    intro hon
    unfold gatedOn at hon
    dsimp only at hon
    split at hon
    · rename_i command admin session now
      have hid := beq_iff_eq.mp hon
      subst hid
      obtain ⟨stepUp, row, heffect⟩ := gated_committed hout.symm
      obtain ⟨s, hget, -, hrevoked, -⟩ := (actsNow_of_stepUp heffect.evidence).live
      obtain ⟨hmem, hid⟩ := Table.get?_eq_some.mp hget
      exact h.not_live ⟨s, hmem, hid, hrevoked⟩
    · cases hon

/-! ## The evidence -/

/-- What a gated command that commits was allowed by, and what it records. -/
structure StepUpEvidenced (past : List StepUpTaken) (db : Database) (admin : UserId)
    (session : SessionId) (now : DateTime) (row : AuditLogRow) : Prop where
  /-- A live session of the acting user, who is active. -/
  acts : ActsNow db session admin now
  actor : row.actor = some admin
  /-- No second factor, or a proof that is recent enough. -/
  evidence :
    (hasSecondFactor db admin = false ∧
      stepUpAttribute row = some "not_required:no_second_factor") ∨
    ∃ p, latestProof past session = some p ∧ p.at_ ≤ now ∧ numSeconds (now - p.at_) ≤ 300 ∧
      stepUpAttribute row =
        some ("fresh:" ++ p.method ++ ":" ++ toString (numSeconds (now - p.at_)))

theorem Accounted.evidence {past : List StepUpTaken} (h : Accounted past w)
    {stepUp : SessionStepUpEvidence} {row : AuditLogRow} {db' : Database}
    (heffect : GatedEffect w.db admin session now stepUp row db') :
    StepUpEvidenced past w.db admin session now row := by
  have hevidence := heffect.evidence
  refine ⟨actsNow_of_stepUp hevidence, heffect.actor, ?_⟩
  unfold sessionStepUpEvidence at hevidence
  split at hevidence
  · cases hevidence
  · cases hevidence
  · split at hevidence
    · rename_i hnone
      cases hevidence
      exact .inl ⟨by simpa using hnone, heffect.recorded⟩
    · split at hevidence
      · rename_i lastStepUp s hget
        split at hevidence
        · rename_i hfresh
          cases hevidence
          simp only [Option.bind_eq_some_iff, Option.map_eq_some_iff, Prod.mk.injEq] at hget
          obtain ⟨s', hs', at_, hat, rfl, rfl⟩ := hget
          obtain ⟨hmem, hid⟩ := Table.get?_eq_some.mp hs'
          have hrow := h.rows s' hmem
          have hstamped := hrow.stamped
          rw [hat, hid, eq_comm, Option.map_eq_some_iff] at hstamped
          obtain ⟨p, hp, rfl⟩ := hstamped
          have hmethod := hrow.method p (hid ▸ hp)
          simp only [Bool.and_eq_true, decide_eq_true_eq] at hfresh
          refine .inr ⟨p, hp, hfresh.1, hfresh.2, ?_⟩
          rw [heffect.recorded, SessionStepUpEvidence.asAttribute, hmethod, Option.getD_some]
        · cases hevidence
      · cases hevidence

/-- Over any interleaving, a gated command commits only on a live session of the acting user,
who is active.  Either the user has no second factor, or a TOTP code or a passkey was proven on
that session at most 300 whole seconds before, and the event names the method and the age of the
latest such proof.  After five L06 since the last L05 of a session, neither L05 nor a gated
command commits on it again. -/
theorem step_up_evidence {db : Database} (hstart : NoStepUps db) {es : List StepUpEvent}
    (hfresh : Machine.Guarded (stepUpStep P key rfc3339) DrawsNewSession (.start db) es) :
    (∀ past x rest, Machine.trace (stepUpStep P key rfc3339) (.start db) es = past ++ x :: rest →
      ∀ command admin session now, x.event = .gated command admin session now →
        x.out = .committed → ∃ row,
          (stepUpStep P key rfc3339 x.pre x.event).1.db.auditLog = x.pre.db.auditLog ++ [row] ∧
            StepUpEvidenced past x.pre.db admin session now row) ∧
    ∀ past rest, Machine.trace (stepUpStep P key rfc3339) (.start db) es = past ++ rest →
      ∀ session, 5 ≤ failuresSince past session →
        ∀ x ∈ rest, stepsUpOn session x = false ∧ gatedOn session x = false := by
  have hstep : ∀ past w e, Accounted past w → DrawsNewSession w e →
      Accounted (past ++ [⟨w, e, (stepUpStep P key rfc3339 w e).2⟩])
        (stepUpStep P key rfc3339 w e).1 := Accounted.step
  constructor
  · intro past x rest htrace command admin session now hevent hout
    obtain ⟨haccounted, -, hx⟩ := Machine.trace_history hstep hfresh (.start hstart) htrace
    rw [hevent] at hx ⊢
    obtain ⟨stepUp, row, heffect⟩ := gated_committed (hx.symm.trans hout)
    exact ⟨row, heffect.log, haccounted.evidence heffect⟩
  · intro past rest htrace session hlimit x hx
    obtain ⟨es₁, es₂, rfl, rfl, rfl⟩ := Machine.trace_eq_append htrace
    rw [Machine.guarded_append] at hfresh
    have haccounted := Machine.run_trace_history hstep hfresh.1 (.start hstart)
    have hdead : Dead session (Machine.run (stepUpStep P key rfc3339) (.start db) es₁) := by
      constructor
      · intro s hs hid
        exact (haccounted.rows s hs).ended (by rw [hid]; exact hlimit)
      · by_contra hunused
        have hzero := (haccounted.unused session hunused).2
        omega
    obtain ⟨hdead', -, hout⟩ := Machine.trace_invariant (Dead.step session) hfresh.2 hdead hx
    exact hdead'.idle hout

end Runs

private theorem steppedUpDb_sessions : ([plainSession 11 1].map SessionRow.id).Nodup := by decide

private theorem steppedUpDb_userTotp :
    (([{ userId := 1, secretEnc := [], enabled := true, recoveryCodesEnc := none, lastUsedStep := 0
         createdAt := 0, confirmedAt := some 0 }] : List UserTotpRow).map
      UserTotpRow.userId).Nodup := List.nodup_singleton _

/-- Administrator 1 with an authenticator and a session, and account 2. -/
def steppedUpDb : Database :=
  { Database.empty with
    users := ⟨[plainUser 1 "root" .admin, plainUser 2 "ada" .user], by decide⟩
    sessions := ⟨[plainSession 11 1], steppedUpDb_sessions⟩
    userTotp := ⟨[{ userId := 1, secretEnc := [], enabled := true, recoveryCodesEnc := none
                    lastUsedStep := 0, createdAt := 0, confirmedAt := some 0 }],
      steppedUpDb_userTotp⟩ }

/-- The administrator steps up and disables the account 40 seconds later. -/
def steppedUpRun : List StepUpEvent :=
  [.gated (.disableUser 2 none) 1 11 (seconds 50),
    .completeStepUp 1 11 (.totp 2) "/admin/users" (seconds 60),
    .gated (.disableUser 2 none) 1 11 (seconds 100)]

private abbrev steppedUpStep : StepUpWorld → StepUpEvent → StepUpWorld × StepUpAnswer :=
  stepUpStep .transparent (.constant 7) fun _ => ""

private abbrev steppedUpTrace : List StepUpTaken :=
  Machine.trace steppedUpStep (.start steppedUpDb) steppedUpRun

private theorem steppedUpRun_fresh :
    Machine.Guarded steppedUpStep DrawsNewSession (.start steppedUpDb) steppedUpRun := by
  decide +kernel

/-- Without the step-up it is refused; with it, the event says how old it is. -/
theorem step_up_evidence_steppedUpRun :
    steppedUpTrace.map (·.out) = [.refused .stepUpRequired, .committed, .committed] ∧
      ((Machine.run steppedUpStep (.start steppedUpDb) steppedUpRun).db.auditLog.getLast?.bind
        stepUpAttribute) = some "fresh:totp:40" ∧
      ∃ row, StepUpEvidenced (steppedUpTrace.take 2) steppedUpTrace[2].pre.db 1 11
        (seconds 100) row := by
  obtain ⟨row, -, hevidence⟩ := (step_up_evidence (by decide) steppedUpRun_fresh).1
    (steppedUpTrace.take 2) steppedUpTrace[2] [] rfl (.disableUser 2 none) 1 11
    (seconds 100) rfl (by decide +kernel)
  exact ⟨by decide +kernel, by decide +kernel, row, hevidence⟩

end SuiId

import SuiId.Store.FederationMfa

/-!
# Second factors of an account

The first half of a TOTP enrolment (`upsert_pending`), its confirmation (U12) and
removal (U13), new recovery codes (U14), the registration (U15) and the removal (U16)
of a passkey, and the step-up of a session with a factor (L05) or its failure (L06).  A
factor belongs to an account that exists, and accounts are never removed from the table.
-/

namespace SuiId

open Lib Lib.Result

namespace UserTotp

/-- `upsert_pending`, with the sealed secret.  The table refers to `users`. -/
def upsertPending (db : Database) (user : UserId) (secretEnc : Bytes) (now : DateTime) :
    StoreResult Database := do
  ensure (db.users.get? user).isSome .db
  let row : UserTotpRow :=
    { userId := user, secretEnc, enabled := false, recoveryCodesEnc := none, lastUsedStep := 0
      createdAt := now, confirmedAt := none }
  pure { db with userTotp := db.userTotp.upsert row }

/-- `confirm_with_recovery_within_tx`. -/
def confirmWithRecovery (db : Database) (user : UserId) (sealedRecoveryCodes : Bytes)
    (lastUsedStep : Int) (now : DateTime) : StoreResult Database :=
  updateWhere db user (fun r => !r.enabled)
    (fun r => { r with
      enabled := true, recoveryCodesEnc := some sealedRecoveryCodes, confirmedAt := some now
      lastUsedStep }) fun _ => rfl

private theorem recoveryCodes_userId (codes : Bytes) (r : UserTotpRow) :
    { r with recoveryCodesEnc := some codes }.userId = r.userId := rfl

/-- `set_recovery_codes_within_tx`. -/
def setRecoveryCodes (db : Database) (user : UserId) (sealedRecoveryCodes : Bytes) :
    StoreResult Database :=
  updateWhere db user (fun r => r.enabled)
    (fun r => { r with recoveryCodesEnc := some sealedRecoveryCodes })
    (recoveryCodes_userId sealedRecoveryCodes)

/-- Does the user have a confirmed TOTP row? -/
def isEnabled (db : Database) (user : UserId) : Bool :=
  (db.userTotp.get? user).any (·.enabled)

end UserTotp

namespace WebauthnCredentials

/-- `create_within_tx`.  Every constraint failure is a conflict. -/
def create (db : Database) (row : UserWebauthnCredentialRow) : StoreResult Database := do
  ensure (db.users.get? row.userId).isSome .conflict
  ensure (db.webauthnCredentials.rows.all fun c => c.credentialId != row.credentialId) .conflict
  let webauthnCredentials ← require (db.webauthnCredentials.insert? row) .conflict
  pure { db with webauthnCredentials }

/-- `find_by_credential_id`. -/
def findByCredentialId (db : Database) (credentialId : Bytes) : Option UserWebauthnCredentialRow :=
  db.webauthnCredentials.find? fun c => c.credentialId == credentialId

end WebauthnCredentials

/-- U12: confirm a TOTP enrolment. -/
def confirmTotpEnrollment (db : Database) (user : UserId) (sealedRecoveryCodes : Bytes)
    (lastUsedStep : Int) (now : DateTime) : StoreResult (Unit × Database) :=
  classA (some user) do
    let db ← UserTotp.confirmWithRecovery db user sealedRecoveryCodes lastUsedStep now
    pure ((), ⟨"auth.mfa.factor_added", some (toString user), .ok, [("method", "totp")], []⟩, db)

/-- U13: remove a TOTP enrolment, confirmed or not. -/
def disableTotp (db : Database) (user : UserId) : StoreResult (Unit × Database) :=
  classA (some user) do
    ensure (db.userTotp.get? user).isSome .notFound
    let db := { db with userTotp := db.userTotp.delete fun r => r.userId == user }
    pure ((), ⟨"auth.mfa.factor_removed", some (toString user), .ok, [("method", "totp")], []⟩, db)

/-- U14: replace the recovery codes. -/
def regenerateRecoveryCodes (db : Database) (user : UserId) (sealedRecoveryCodes : Bytes) :
    StoreResult (Unit × Database) :=
  classA (some user) do
    let db ← UserTotp.setRecoveryCodes db user sealedRecoveryCodes
    pure ((), ⟨"auth.mfa.factor_added", some (toString user), .ok, [("method", "recovery_codes")],
      []⟩,
      db)

/-- U15: register a passkey. -/
def registerPasskey (db : Database) (row : UserWebauthnCredentialRow) :
    StoreResult (Unit × Database) :=
  classA (some row.userId) do
    let db ← WebauthnCredentials.create db row
    pure ((), ⟨"auth.mfa.factor_added", some (toString row.userId), .ok, [("method", "webauthn")],
      []⟩,
      db)

/-- U16: delete a passkey. -/
def deletePasskey (db : Database) (user : UserId) (credential : WebauthnCredentialId) :
    StoreResult (Unit × Database) :=
  classA (some user) do
    ensure ((db.webauthnCredentials.get? credential).any fun c => c.userId == user) .notFound
    let db := { db with webauthnCredentials :=
      db.webauthnCredentials.delete fun c => c.id == credential && c.userId == user }
    pure ((), ⟨"auth.mfa.factor_removed", some (toString user), .ok, [("method", "webauthn")],
      []⟩, db)

/-! ## Step-up -/

/-- `StepUpProof`. -/
inductive StepUpProof where
  | totp (step : Int)
  | webauthn (pendingId : WebauthnPendingId)

/-- The name of the proof in the event. -/
def StepUpProof.method : StepUpProof → String
  | .totp _ => "totp"
  | .webauthn _ => "webauthn"

/-- `consume_step_up_within_tx`: an unexpired step-up ceremony of this user, deleted. -/
def WebauthnPending.consumeStepUp (db : Database) (id : WebauthnPendingId) (user : UserId)
    (now : DateTime) : StoreResult Database := do
  let matching := fun r : WebauthnPendingRow =>
    r.userId == some user && r.kind == .stepUp && now < r.expiresAt
  ensure ((db.webauthnPending.get? id).any matching) .notFound
  pure { db with webauthnPending := db.webauthnPending.delete fun r => r.id == id && matching r }

/-- The guard of the factor. -/
def StepUpProof.apply (db : Database) (user : UserId) (now : DateTime) :
    StepUpProof → StoreResult Database
  | .totp step => UserTotp.advanceLastUsedStep db user step
  | .webauthn pendingId => WebauthnPending.consumeStepUp db pendingId user now

/-- `record_step_up_within_tx`. -/
def Sessions.recordStepUp (db : Database) (id : SessionId) (method : String) (at_ : DateTime) :
    Database :=
  { db with sessions := db.sessions.update (fun s => s.id == id) fun s =>
    { s with lastStepUpAt := some at_, lastStepUpMethod := some method, stepUpFailureCount := 0 } }

/-- `STEP_UP_GATE_ATTRIBUTE_BYTES`. -/
def stepUpGateAttributeBytes : Nat := 256

/-- L05: a step-up of a live session. -/
def completeStepUp (db : Database) (user : UserId) (session : SessionId) (proof : StepUpProof)
    (gate : String) (now : DateTime) : StoreResult (Unit × Database) :=
  classA (some user) do
    Sessions.requireLiveSession db session user now
    let db ← proof.apply db user now
    let db := Sessions.recordStepUp db session proof.method now
    pure ((), ⟨"auth.step_up.success", some (toString user), .ok,
      [("method", proof.method), ("gate", truncateUtf8 gate stepUpGateAttributeBytes)], []⟩, db)

/-- `increment_step_up_failure_within_tx`: an unrevoked session of this user. -/
def Sessions.incrementStepUpFailure (db : Database) (id : SessionId) (user : UserId) :
    StoreResult (Nat × Database) := do
  let matching := fun s : SessionRow => s.userId == user && s.revokedAt.isNone
  let s ← require ((db.sessions.get? id).filter matching) .notFound
  let sessions := db.sessions.update (fun s => s.id == id && matching s) fun s =>
    { s with stepUpFailureCount := s.stepUpFailureCount + 1 }
  pure (s.stepUpFailureCount + 1, { db with sessions })

/-- `STEP_UP_FAILURE_REVOCATION_THRESHOLD`. -/
def stepUpFailureRevocationThreshold : Nat := 5

/-- `StepUpFailureOutcome`. -/
structure StepUpFailureOutcome where
  count : Nat
  sessionRevoked : Bool
deriving DecidableEq

/-- L06: a failed step-up, counted on the session.  At the threshold the session is revoked. -/
def recordStepUpFailure (db : Database) (user : UserId) (session : SessionId) (now : DateTime) :
    StoreResult (StepUpFailureOutcome × Database) :=
  classA (some user) do
    let (count, db) ← Sessions.incrementStepUpFailure db session user
    if count ≥ stepUpFailureRevocationThreshold then
      let db := Sessions.revoke db session now
      pure (⟨count, true⟩, ⟨"auth.step_up.session_revoked", some (toString user), .ok,
        [("count", toString count)], []⟩, db)
    else
      pure (⟨count, false⟩, ⟨"auth.step_up.failure", some (toString user), .ok,
        [("count", toString count)], []⟩, db)

/-- Does the user have a second factor? -/
def hasFactor (db : Database) (user : UserId) : Bool :=
  UserTotp.isEnabled db user || WebauthnCredentials.hasAny db user

/-! ## Who has a factor afterwards -/

theorem UserTotp.isEnabled_iff {db : Database} {user : UserId} :
    isEnabled db user = true ↔ ∃ r ∈ db.userTotp, r.userId = user ∧ r.enabled = true := by
  simp only [isEnabled, Option.any_eq_true]
  constructor
  · rintro ⟨r, hget, henabled⟩
    obtain ⟨hmem, huser⟩ := Table.get?_eq_some.mp hget
    exact ⟨r, hmem, huser, henabled⟩
  · rintro ⟨r, hmem, huser, henabled⟩
    exact ⟨r, Table.get?_eq_some.mpr ⟨hmem, huser⟩, henabled⟩

theorem WebauthnCredentials.hasAny_iff {db : Database} {user : UserId} :
    hasAny db user = true ↔ ∃ c ∈ db.webauthnCredentials, c.userId = user := by
  simp only [hasAny, decide_eq_true_eq, Table.count_pos_iff, beq_iff_eq]

namespace FactorsKept

variable {db db' : Database} {user : UserId}

theorem isEnabled (h : FactorsKept db db') (hnew : UserTotp.isEnabled db' user = true) :
    UserTotp.isEnabled db user = true := by
  obtain ⟨r', hr', huser, henabled⟩ := UserTotp.isEnabled_iff.mp hnew
  obtain ⟨r, hr, hsame, hflag⟩ := h.totp r' hr' henabled
  exact UserTotp.isEnabled_iff.mpr ⟨r, hr, hsame.trans huser, hflag⟩

theorem hasAny (h : FactorsKept db db') (hnew : WebauthnCredentials.hasAny db' user = true) :
    WebauthnCredentials.hasAny db user = true := by
  obtain ⟨c', hc', huser⟩ := WebauthnCredentials.hasAny_iff.mp hnew
  obtain ⟨c, hc, hsame⟩ := h.passkeys c' hc'
  exact WebauthnCredentials.hasAny_iff.mpr ⟨c, hc, hsame.trans huser⟩

end FactorsKept

theorem WebauthnCredentials.updatePasskey_factors (db : Database) (id : WebauthnCredentialId)
    (passkeyEnc : Bytes) (now : DateTime) :
    FactorsKept db (updatePasskey db id passkeyEnc now) := by
  constructor
  · intro r hr henabled
    exact ⟨r, hr, rfl, henabled⟩
  · intro c' hc'
    simp only [updatePasskey] at hc'
    obtain ⟨c, hc, rfl⟩ := Table.mem_update.mp hc'
    refine ⟨c, hc, ?_⟩
    split
    · rfl
    · rfl

/-- An enrolment that is not confirmed is no factor. -/
theorem UserTotp.upsertPending_ok {db db' : Database} {user : UserId} {secretEnc : Bytes}
    {now : DateTime} (h : upsertPending db user secretEnc now = .ok db') :
    FactorsKept db db' ∧ ∃ userTotp, db' = { db with userTotp } := by
  simp only [upsertPending, bind_eq_ok, ensure_eq_ok, pure_eq_ok] at h
  obtain ⟨-, -, rfl⟩ := h
  refine ⟨⟨?_, ?_⟩, _, rfl⟩
  · intro r hr henabled
    dsimp only at hr
    rcases Table.mem_upsert.mp hr with ⟨hr, -⟩ | rfl
    · exact ⟨r, hr, rfl, henabled⟩
    · cases henabled
  · intro c hc
    exact ⟨c, hc, rfl⟩

/-- U12 gives a factor to its user only. -/
theorem confirmTotpEnrollment_ok {db db' : Database} {user : UserId} {sealedRecoveryCodes : Bytes}
    {lastUsedStep : Int} {now : DateTime} {u : Unit}
    (h : confirmTotpEnrollment db user sealedRecoveryCodes lastUsedStep now = .ok (u, db')) :
    (∀ other, UserTotp.isEnabled db' other = true →
        other = user ∨ UserTotp.isEnabled db other = true) ∧
      ∃ userTotp log, db' = { db with userTotp, auditLog := log } := by
  obtain ⟨event, db₁, log, hbody, rfl⟩ := classA_eq_ok h
  simp only [UserTotp.confirmWithRecovery, UserTotp.updateWhere, bind_eq_ok, ensure_eq_ok,
    pure_eq_ok, Prod.mk.injEq] at hbody
  obtain ⟨db₂, ⟨-, -, rfl⟩, -, -, rfl⟩ := hbody
  refine ⟨fun other hnew => ?_, _, log, rfl⟩
  obtain ⟨r', hr', huser, henabled⟩ := UserTotp.isEnabled_iff.mp hnew
  dsimp only at hr'
  obtain ⟨r, hr, rfl⟩ := Table.mem_update.mp hr'
  split at huser
  · rename_i hp
    simp only [Bool.and_eq_true, beq_iff_eq] at hp
    exact .inl (huser.symm.trans hp.1)
  · rename_i hp
    rw [if_neg hp] at henabled
    exact .inr (UserTotp.isEnabled_iff.mpr ⟨r, hr, huser, henabled⟩)

/-- U15 gives a factor to the user of its row only. -/
theorem registerPasskey_ok {db db' : Database} {row : UserWebauthnCredentialRow} {u : Unit}
    (h : registerPasskey db row = .ok (u, db')) :
    (∀ other, WebauthnCredentials.hasAny db' other = true →
        other = row.userId ∨ WebauthnCredentials.hasAny db other = true) ∧
      ∃ webauthnCredentials log, db' = { db with webauthnCredentials, auditLog := log } := by
  obtain ⟨event, db₁, log, hbody, rfl⟩ := classA_eq_ok h
  simp only [WebauthnCredentials.create, bind_eq_ok, ensure_eq_ok, require_eq_ok, pure_eq_ok,
    Prod.mk.injEq] at hbody
  obtain ⟨db₂, ⟨-, -, -, -, t, hinsert, rfl⟩, -, -, rfl⟩ := hbody
  refine ⟨fun other hnew => ?_, t, log, rfl⟩
  obtain ⟨c, hc, huser⟩ := WebauthnCredentials.hasAny_iff.mp hnew
  rcases (Table.mem_of_insert? hinsert).mp hc with hc | rfl
  · exact .inr (WebauthnCredentials.hasAny_iff.mpr ⟨c, hc, huser⟩)
  · exact .inl huser.symm

end SuiId

import SuiId.Store.Accounts

/-!
# Recovery and the first-run setup

U37 issues a recovery link, for an administrator on the web or for the operator on the command
line; U07 removes a user's second factors; S10 creates the first administrator.  Whether the target
of a link has ever been used is read inside the transaction from two columns only: it has no row in
`credentials` and no `last_login_at` (`RecoveryTarget.neverActivated`).

The text of a time in an audit attribute is chrono's and a parameter here (`rfc3339`).
-/

namespace SuiId

open Lib Lib.Result

namespace Users

/-- `RecoveryTarget`. -/
structure RecoveryTarget where
  role : Role
  source : UserSource
  isDisabled : Bool
  isDeleted : Bool
  neverActivated : Bool
  hasAnyToken : Bool
deriving DecidableEq

/-- `recovery_target_within_tx`. -/
def recoveryTarget (db : Database) (id : UserId) : StoreResult RecoveryTarget := do
  let u ← require (db.users.get? id) .notFound
  pure
    { role := u.role
      source := u.source
      isDisabled := u.isDisabled
      isDeleted := u.isDeleted
      neverActivated := (db.credentials.get? id).isNone && u.lastLoginAt.isNone
      hasAnyToken := (db.passwordResetTokens.find? fun t => t.userId == id).isSome }

end Users

namespace PasswordResetTokens

/-- `insert_with_within_tx`.  Every constraint failure is a conflict: the user and the issuer
exist, only a web link has an issuer, and no hash is stored twice. -/
def insertWith (db : Database) (row : PasswordResetTokenRow) (provisioning : Bool) :
    StoreResult Database := do
  ensure (db.users.get? row.userId).isSome .conflict
  ensure (row.issuedBy.all fun admin => (db.users.get? admin).isSome) .conflict
  ensure (row.issuedBy.isSome == (row.issuedVia == .web)) .conflict
  ensure (db.passwordResetTokens.rows.all fun t => t.tokenHash != row.tokenHash) .conflict
  let passwordResetTokens ←
    require (db.passwordResetTokens.insert? { row with provisioning }) .conflict
  pure { db with passwordResetTokens }

/-- Unconsumed, unrevoked and unexpired at `now`. -/
def outstanding (t : PasswordResetTokenRow) (now : DateTime) : Bool :=
  t.consumedAt.isNone && t.revokedAt.isNone && now < t.expiresAt

/-- `count_active_for_user`. -/
def countActiveForUser (db : Database) (user : UserId) (now : DateTime) : Nat :=
  db.passwordResetTokens.count fun t => t.userId == user && outstanding t now

/-- `count_issued_by_within_tx`. -/
def countIssuedBy (db : Database) (admin : UserId) (since : DateTime) (provisioning : Bool) : Nat :=
  db.passwordResetTokens.count fun t =>
    t.issuedBy == some admin && t.issuedVia == .web && since < t.issuedAt &&
      t.provisioning == provisioning

/-- `count_issued_via_cli_within_tx`. -/
def countIssuedViaCli (db : Database) (since : DateTime) (provisioning : Bool) : Nat :=
  db.passwordResetTokens.count fun t =>
    t.issuedVia == .cli && since < t.issuedAt && t.provisioning == provisioning

end PasswordResetTokens

/-! ## U37 -/

/-- `RECOVERY_LINKS_PER_HOUR`. -/
def recoveryLinksPerHour : Nat := 5

/-- `PROVISIONING_LINKS_PER_HOUR`. -/
def provisioningLinksPerHour : Nat := 50

/-- `RECOVERY_REASON_MAX_CHARS`. -/
def recoveryReasonMaxChars : Nat := 200

/-- `char::is_ascii_control`. -/
def isAsciiControl (c : Char) : Bool := c.toNat < 0x20 || c.toNat == 0x7f

/-- `validated_recovery_reason`. -/
def validatedRecoveryReason (reason : String) : StoreResult String := do
  let reason := Text.trim reason
  ensure (reason != "") (.recoveryRefused .reasonRequired)
  ensure (!(reason.length > recoveryReasonMaxChars || reason.utf8ByteSize > maxAttributeValueBytes))
    (.recoveryRefused .reasonTooLong)
  ensure (!reason.toList.any isAsciiControl) (.recoveryRefused .reasonHasControlCharacters)
  pure reason

/-- An administrator may not issue for the own account, nor for another administrator that is not
`neverActivated`. -/
def checkRecoveryIssuer (t : Users.RecoveryTarget) (target : UserId) :
    Option UserId → StoreResult Unit
  | some admin => do
    ensure (!(admin == target)) (.recoveryRefused .targetIsSelf)
    ensure (!(t.role.isAdmin && !t.neverActivated)) (.recoveryRefused .targetIsAdmin)
  | none => pure ()

/-- `check_recovery_target`. -/
def checkRecoveryTarget (db : Database) (target : UserId) (adminIssuer : Option UserId) :
    StoreResult Users.RecoveryTarget := do
  let t ← (Users.recoveryTarget db target).mapError fun
    | .notFound => .recoveryRefused .targetUnknown
    | e => e
  checkRecoveryIssuer t target adminIssuer
  ensure (!t.isDeleted) (.recoveryRefused .targetDeleted)
  ensure (!t.isDisabled) (.recoveryRefused .targetDisabled)
  ensure (t.source == .localDb) (.recoveryRefused .targetNonLocal)
  pure t

/-- `is_provisioning`. -/
def isProvisioning (t : Users.RecoveryTarget) : Bool :=
  t.source == .localDb && !t.role.isAdmin && t.neverActivated && !t.hasAnyToken

/-- The links of an hour, by kind. -/
def linkCeiling (provisioning : Bool) : Nat :=
  if provisioning then provisioningLinksPerHour else recoveryLinksPerHour

/-- `RecoveryLinkGrant`. -/
structure RecoveryLinkGrant where
  tokenId : ResetTokenId
  expiresAt : DateTime
  invalidated : Nat
deriving DecidableEq

/-- `revoke_and_insert_recovery_token`: the target's outstanding links go, the new one comes. -/
def revokeAndInsertRecoveryToken (db : Database) (tokenId : ResetTokenId) (target : UserId)
    (tokenHash : Bytes) (via : ResetTokenOrigin) (issuedBy : Option UserId) (provisioning : Bool)
    (expiresAt now : DateTime) : StoreResult (RecoveryLinkGrant × Database) := do
  let invalidated := PasswordResetTokens.countActiveForUser db target now
  let db := revokeOutstandingResetTokens db target none now
  let db ← PasswordResetTokens.insertWith db
    { id := tokenId, userId := target, tokenHash, issuedAt := now, expiresAt, consumedAt := none
      requesterIp := none, issuedVia := via, issuedBy, revokedAt := none } provisioning
  pure (⟨tokenId, expiresAt, invalidated⟩, db)

/-- The attributes of U37's event. -/
def recoveryLinkAttributes (rfc3339 : DateTime → String) (reason via : String)
    (grant : RecoveryLinkGrant) (provisioning : Bool) (stepUp : String) : List (String × String) :=
  [("reason", reason), ("via", via), ("expires_at", rfc3339 grant.expiresAt),
    ("invalidated", toString grant.invalidated)] ++
    (if provisioning then [("provisioning", "1")] else []) ++ [("step_up", stepUp)]

/-- `SessionStepUpEvidence::is_fresh`. -/
def SessionStepUpEvidence.isFresh : SessionStepUpEvidence → Bool
  | .fresh _ _ => true
  | .notRequired => false

/-- U37 on the web: the acting session must have stepped up. -/
def issueRecoveryLinkAsAdmin (rfc3339 : DateTime → String) (db : Database) (admin : UserId)
    (session : SessionId) (target : UserId) (tokenId : ResetTokenId) (tokenHash : Bytes)
    (reason : String) (expiresAt now : DateTime) : StoreResult (RecoveryLinkGrant × Database) :=
  classA (some admin) do
    let reason ← validatedRecoveryReason reason
    let stepUp ← sessionStepUpEvidence db session admin now
    ensure stepUp.isFresh .stepUpRequired
    let t ← checkRecoveryTarget db target (some admin)
    let provisioning := isProvisioning t
    let issued := PasswordResetTokens.countIssuedBy db admin (now - seconds 3600) provisioning
    ensure (!(issued ≥ linkCeiling provisioning)) (.recoveryRefused .throttled)
    let (grant, db) ← revokeAndInsertRecoveryToken db tokenId target tokenHash .web (some admin)
      provisioning expiresAt now
    pure (grant, ⟨"user.recovery_link.issued", some (toString target), .ok,
      recoveryLinkAttributes rfc3339 reason "web" grant provisioning stepUp.asAttribute,
      ["step_up"]⟩, db)

/-- U37 on the command line. -/
def issueRecoveryLinkAsOperator (rfc3339 : DateTime → String) (db : Database) (target : UserId)
    (tokenId : ResetTokenId) (tokenHash : Bytes) (reason : String) (expiresAt now : DateTime) :
    StoreResult (RecoveryLinkGrant × Database) :=
  classA none do
    let reason ← validatedRecoveryReason reason
    let t ← checkRecoveryTarget db target none
    let provisioning := isProvisioning t
    let issued := PasswordResetTokens.countIssuedViaCli db (now - seconds 3600) provisioning
    ensure (!(issued ≥ linkCeiling provisioning)) (.recoveryRefused .throttled)
    let (grant, db) ← revokeAndInsertRecoveryToken db tokenId target tokenHash .cli none
      provisioning expiresAt now
    pure (grant, ⟨"user.recovery_link.issued", some (toString target), .ok,
      recoveryLinkAttributes rfc3339 reason "cli" grant provisioning
        "not_applicable:system_principal", ["step_up"]⟩, db)

/-! ## U07 -/

/-- `remove_mfa_within_tx`: every factor of an account that is not deleted. -/
def removeMfa (db : Database) (target : UserId) : StoreResult ((Bool × Nat) × Database) := do
  let _ ← Users.getRole db target
  let totpRemoved := (db.userTotp.get? target).isSome
  let passkeysRemoved := db.webauthnCredentials.count fun c => c.userId == target
  pure ((totpRemoved, passkeysRemoved),
    { db with
      userTotp := db.userTotp.delete fun t => t.userId == target
      webauthnCredentials := db.webauthnCredentials.delete fun c => c.userId == target })

/-- U07 on the web: an administrator removes a user's second factors.  No session goes. -/
def adminResetMfa (db : Database) (admin : UserId) (session : SessionId) (target : UserId)
    (reason : Option String) (now : DateTime) : StoreResult ((Bool × Nat) × Database) :=
  classA (some admin) do
    let stepUp ← sessionStepUpEvidence db session admin now
    let ((totpRemoved, passkeysRemoved), db) ← removeMfa db target
    pure ((totpRemoved, passkeysRemoved), ⟨"mfa.admin_reset", some (toString target), .ok,
      [("totp", if totpRemoved then "removed" else "absent"),
        ("passkeys", toString passkeysRemoved)] ++ reasonAttribute reason ++
        [("step_up", stepUp.asAttribute)], ["step_up"]⟩, db)

/-- U07 on the command line. -/
def operatorResetMfa (db : Database) (target : UserId) (reason : String) :
    StoreResult ((Bool × Nat) × Database) :=
  classA none do
    let ((totpRemoved, passkeysRemoved), db) ← removeMfa db target
    pure ((totpRemoved, passkeysRemoved), ⟨"mfa.admin_reset", some (toString target), .ok,
      [("totp", if totpRemoved then "removed" else "absent"),
        ("passkeys", toString passkeysRemoved), ("reason", reason), ("via", "cli"),
        ("step_up", "not_applicable:system_principal")], ["step_up"]⟩, db)

/-! ## S10 -/

/-- `SetupAuthorizedBy`. -/
inductive SetupAuthorizedBy where
  | setupToken
  | filesystem
deriving DecidableEq, Repr

/-- `SetupAuthorizedBy::as_str`. -/
def SetupAuthorizedBy.asStr : SetupAuthorizedBy → String
  | .setupToken => "setup_token"
  | .filesystem => "filesystem"

/-- `InitialSigningKeyMaterial`. -/
structure InitialSigningKeyMaterial where
  id : Nat
  algorithm : String
  privateKeySealed : Bytes
  publicKey : Bytes

/-- The first signing key, unless one is active. -/
def bootstrapSigningKey (db : Database) (material : InitialSigningKeyMaterial) (now : DateTime) :
    StoreResult Database :=
  if (db.signingKeys.find? (·.isActive)).isSome then pure db
  else do
    let signingKeys ← require (db.signingKeys.insert?
      { id := material.id, algorithm := material.algorithm
        privateKeyEnc := material.privateKeySealed, publicKey := material.publicKey
        isActive := true, createdAt := now, rotatedAt := none }) .db
    pure { db with signingKeys }

/-- S10: the first administrator, the password and the first signing key. -/
def completeInitialSetup (P : Primitives) (db : Database) (user : UserRow) (cred : CredentialRow)
    (signingKey : InitialSigningKeyMaterial) (authorizedBy : SetupAuthorizedBy) (now : DateTime) :
    StoreResult (Unit × Database) :=
  classA none do
    ensure (!db.initialized) .alreadyInitialized
    let db ← Users.create P db user
    ensure (db.users.get? cred.userId).isSome .db
    let db := { db with credentials := db.credentials.upsert cred }
    let db ← bootstrapSigningKey db signingKey now
    let db := { db with initialized := true }
    pure ((), ⟨"admin.setup.completed", some (toString user.id), .ok,
      [("authorized_by", authorizedBy.asStr)], ["authorized_by"]⟩, db)

/-! ## What a committed write did -/

theorem PasswordResetTokens.insertWith_ok {db db' : Database} {row : PasswordResetTokenRow}
    {provisioning : Bool} (h : insertWith db row provisioning = .ok db') :
    ∃ passwordResetTokens, db' = { db with passwordResetTokens } := by
  simp only [insertWith, bind_eq_ok, ensure_eq_ok, require_eq_ok, pure_eq_ok] at h
  obtain ⟨-, -, -, -, -, -, -, -, t, -, rfl⟩ := h
  exact ⟨t, rfl⟩

/-- A link is issued: only reset tokens are written. -/
theorem revokeAndInsertRecoveryToken_ok {db db' : Database} {tokenId : ResetTokenId}
    {target : UserId} {tokenHash : Bytes} {via : ResetTokenOrigin} {issuedBy : Option UserId}
    {provisioning : Bool} {expiresAt now : DateTime} {grant : RecoveryLinkGrant}
    (h : revokeAndInsertRecoveryToken db tokenId target tokenHash via issuedBy provisioning
      expiresAt
      now = .ok (grant, db')) :
    ∃ passwordResetTokens, db' = { db with passwordResetTokens } := by
  simp only [revokeAndInsertRecoveryToken, bind_eq_ok, pure_eq_ok, Prod.mk.injEq] at h
  obtain ⟨db₁, hinsert, -, rfl⟩ := h
  obtain ⟨t, rfl⟩ := PasswordResetTokens.insertWith_ok hinsert
  exact ⟨t, rfl⟩

end SuiId

import SuiId.Store.Grants
import SuiId.Store.Users

/-!
# Account commands

The administrator's commands on accounts (U01–U05), the operator's unlock (U08),
the revocation of sessions (U18, U19) and the completion of a password reset (U10),
each in the order in which its transaction writes.
-/

namespace SuiId

open Lib Lib.Result

/-- U01: create a user. -/
def createUser (P : Primitives) (db : Database) (admin : UserId) (user : UserRow) :
    StoreResult (Unit × Database) :=
  classA (some admin) do
    let db ← Users.create P db user
    pure ((), ⟨"user.create", some (toString user.id), .ok, [], []⟩, db)

/-- `revoke_outstanding_for_user_within_tx`, sparing `keep`. -/
def revokeOutstandingResetTokens (db : Database) (user : UserId) (keep : Option ResetTokenId)
    (now : DateTime) : Database :=
  { db with
    passwordResetTokens := db.passwordResetTokens.update
      (fun t => t.userId == user && t.consumedAt.isNone && t.revokedAt.isNone &&
        now < t.expiresAt && keep != some t.id)
      fun t => { t with revokedAt := some now } }

/-- What disabling and deleting a user take away: sessions, refresh tokens,
authorization codes and reset links. -/
def sweepUser (db : Database) (target : UserId) (now : DateTime) : Database :=
  let db := Sessions.revokeAllForUser db target now
  let db := RefreshTokens.revokeAllForUser db target now
  let db := AuthCodes.invalidateAllForUser db target
  revokeOutstandingResetTokens db target none now

/-- U02: disable a user. -/
def disableUser (db : Database) (admin : UserId) (session : SessionId) (target : UserId)
    (reason : Option String) (now : DateTime) : StoreResult (Unit × Database) :=
  classA (some admin) do
    let stepUp ← sessionStepUpEvidence db session admin now
    let db ← Users.setDisabled db target true
    let db := sweepUser db target now
    pure ((), ⟨"user.disable", some (toString target), .ok,
      reasonAttribute reason ++ [("step_up", stepUp.asAttribute)], ["step_up"]⟩, db)

/-- U03: enable a user.  Nothing is revoked. -/
def enableUser (db : Database) (admin : UserId) (session : SessionId) (target : UserId)
    (now : DateTime) : StoreResult (Unit × Database) :=
  classA (some admin) do
    let stepUp ← sessionStepUpEvidence db session admin now
    let db ← Users.setDisabled db target false
    pure ((), ⟨"user.enable", some (toString target), .ok, [("step_up", stepUp.asAttribute)],
      ["step_up"]⟩, db)

/-- U04: soft-delete a user. -/
def deleteUser (db : Database) (admin : UserId) (session : SessionId) (target : UserId)
    (reason : Option String) (now : DateTime) : StoreResult (Unit × Database) :=
  classA (some admin) do
    let stepUp ← sessionStepUpEvidence db session admin now
    let db ← Users.softDelete db target
    let db := sweepUser db target now
    pure ((), ⟨"user.delete", some (toString target), .ok,
      reasonAttribute reason ++ [("step_up", stepUp.asAttribute)], ["step_up"]⟩, db)

/-- U05: change a role.  A demotion re-reads the number of administrators. -/
def changeUserRole (db : Database) (admin target : UserId) (newRole : Role) :
    StoreResult (Unit × Database) :=
  classA (some admin) do
    let oldRole ← Users.getRole db target
    ensure (!(oldRole.isAdmin && !newRole.isAdmin && Users.countAdmins db ≤ 1)) .conflict
    let db ← Users.setRole db target newRole
    pure ((), ⟨"user.role_change", some (toString target), .ok,
      [("old_role", oldRole.asStr), ("new_role", newRole.asStr)], []⟩, db)

/-- `admin_unlock_within_tx`. -/
def Users.adminUnlock (db : Database) (id : UserId) : StoreResult Database :=
  Users.updateWhere db id (fun _ => true)
    (fun u => { u with failedLoginCount := 0, mfaFailureCount := 0, lockedUntil := none })
    fun _ => rfl

/-- U08: the operator lifts a lock, whatever set it. -/
def adminUnlockUser (db : Database) (target : UserId) : StoreResult (Unit × Database) :=
  classA none do
    let db ← Users.adminUnlock db target
    pure ((), ⟨"admin.user.unlock", some (toString target), .ok, [], []⟩, db)

/-- U18, idle timeout. -/
def revokeSessionIdleTimeout (db : Database) (user : UserId) (session : SessionId)
    (now : DateTime) : StoreResult (Unit × Database) :=
  classA none do
    let db := Sessions.revoke db session now
    pure ((), ⟨"auth.session.revoked", some (toString user), .ok, [("trigger", "idle_timeout")],
      ["trigger"]⟩, db)

/-- `SessionRevokeTrigger`. -/
inductive SessionRevokeTrigger where
  | idleTimeout
  | selfSignout
  | selfService

/-- `SessionRevokeTrigger::as_str`. -/
def SessionRevokeTrigger.asStr : SessionRevokeTrigger → String
  | .idleTimeout => "idle_timeout"
  | .selfSignout => "self_signout"
  | .selfService => "self_service"

/-- U18, for a signed-in user. -/
def revokeSession (db : Database) (actor user : UserId) (session : SessionId)
    (trigger : SessionRevokeTrigger) (now : DateTime) : StoreResult (Unit × Database) :=
  classA (some actor) do
    let db := Sessions.revoke db session now
    pure ((), ⟨"auth.session.revoked", some (toString user), .ok, [("trigger", trigger.asStr)],
      ["trigger"]⟩, db)

/-- `SessionsRevokeTrigger`. -/
inductive SessionsRevokeTrigger where
  | rpInitiatedLogout
  | selfService

/-- `SessionsRevokeTrigger::as_str`. -/
def SessionsRevokeTrigger.asStr : SessionsRevokeTrigger → String
  | .rpInitiatedLogout => "rp_initiated_logout"
  | .selfService => "self_service"

/-- U19's event. -/
def sessionsRevoked (user : UserId) (trigger : SessionsRevokeTrigger) (count : Nat)
    (identifiedBy : String) : AuditEvent :=
  ⟨"auth.sessions.revoked", some (toString user), .ok,
    [("trigger", trigger.asStr), ("count", toString count), ("identified_by", identifiedBy)],
    ["trigger", "count", "identified_by"]⟩

/-- `revoke_all_sessions_for_user_as_user`. -/
def revokeAllSessionsForUserAsUser (db : Database) (user : UserId)
    (trigger : SessionsRevokeTrigger) (now : DateTime) : StoreResult (Nat × Database) :=
  classA (some user) do
    let count := db.sessions.count fun s => s.userId == user && s.revokedAt.isNone
    let db := Sessions.revokeAllForUser db user now
    pure (count, sessionsRevoked user trigger count "session", db)

/-- `revoke_all_sessions_for_user_unattributed`. -/
def revokeAllSessionsForUserUnattributed (db : Database) (user : UserId)
    (trigger : SessionsRevokeTrigger) (now : DateTime) : StoreResult (Nat × Database) :=
  classA none do
    let count := db.sessions.count fun s => s.userId == user && s.revokedAt.isNone
    let db := Sessions.revokeAllForUser db user now
    pure (count, sessionsRevoked user trigger count "id_token_hint", db)

/-- `revoke_other_sessions_for_user`. -/
def revokeOtherSessionsForUser (db : Database) (user : UserId) (keep : SessionId)
    (trigger : SessionsRevokeTrigger) (now : DateTime) : StoreResult (Nat × Database) :=
  classA (some user) do
    let count := db.sessions.count fun s =>
      s.userId == user && s.id != keep && s.revokedAt.isNone
    let db := Sessions.revokeAllForUserExcept db user keep now
    pure (count, sessionsRevoked user trigger count "session", db)

/-- U09: a user changes the own password.  The other sessions and the refresh
tokens go only on request. -/
def changePasswordSelf (db : Database) (user : UserId) (credential : CredentialRow)
    (keepCurrentSession : Option SessionId) (revokeOthers : Bool) (now : DateTime) :
    StoreResult ((Nat × Nat) × Database) :=
  classA (some user) do
    ensure (db.users.get? credential.userId).isSome .db
    let db := { db with credentials := db.credentials.upsert credential }
    let (lockout, db) ← Users.clearPasswordLockout db user now
    let db := revokeOutstandingResetTokens db user none now
    let swept := fun s : SessionRow =>
      s.userId == user && s.revokedAt.isNone && keepCurrentSession != some s.id
    let sessionsRevoked := if revokeOthers then db.sessions.count swept else 0
    let refreshTokensRevoked :=
      if revokeOthers then db.refreshTokens.count fun r => r.userId == user && r.revokedAt.isNone
      else 0
    let db :=
      if revokeOthers then
        let db :=
          match keepCurrentSession with
          | some keep => Sessions.revokeAllForUserExcept db user keep now
          | none => Sessions.revokeAllForUser db user now
        RefreshTokens.revokeAllForUser db user now
      else db
    pure ((sessionsRevoked, refreshTokensRevoked), ⟨"auth.password.changed_self",
      some (toString user), .ok,
      [("sessions_revoked", toString sessionsRevoked),
        ("refresh_tokens_revoked", toString refreshTokensRevoked)] ++
        (if lockout.cleared then [("lockout_cleared", toString lockout.passwordFailures)] else []),
        []⟩,
      db)

/-- `mark_consumed_within_tx`: consume an eligible reset token once. -/
def markResetTokenConsumed (db : Database) (id : ResetTokenId) (consumedAt : DateTime) :
    StoreResult Database := do
  let eligible := fun t : PasswordResetTokenRow =>
    t.consumedAt.isNone && t.revokedAt.isNone && consumedAt < t.expiresAt
  ensure ((db.passwordResetTokens.get? id).any eligible) .notFound
  let passwordResetTokens := db.passwordResetTokens.update (fun t => t.id == id && eligible t)
    fun t => { t with consumedAt := some consumedAt }
  pure { db with passwordResetTokens }

/-- U10: complete a password reset. -/
def consumeAndResetPassword (db : Database) (user : UserId) (token : ResetTokenId)
    (credential : CredentialRow) (consumedAt : DateTime) (hibpWarned : Bool) :
    StoreResult (Users.PasswordLockoutCleared × Database) :=
  classA none do
    let db ← markResetTokenConsumed db token consumedAt
    let activeLocal ← Users.isActiveLocal db user
    ensure activeLocal .notFound
    let reset ← require (db.passwordResetTokens.get? token) .notFound
    ensure (db.users.get? credential.userId).isSome .db
    let db := { db with credentials := db.credentials.upsert credential }
    let (lockout, db) ← Users.clearPasswordLockout db user consumedAt
    let db := Sessions.revokeAllForUser db user consumedAt
    let db := RefreshTokens.revokeAllForUser db user consumedAt
    let db := revokeOutstandingResetTokens db user (some token) consumedAt
    pure (lockout, ⟨"auth.password.reset_completed", some (toString user), .ok,
      [("origin", reset.issuedVia.asStr)] ++
        (if hibpWarned then [("hibp", "warned")] else []) ++
        (if lockout.cleared then [("lockout_cleared", toString lockout.passwordFailures)] else []),
        []⟩,
      db)

/-! ## What a committed command did -/

variable {db db' : Database} {admin target : UserId} {u : Unit} {session : SessionId}
  {now : DateTime}

theorem createUser_ok {P : Primitives} {user : UserRow}
    (h : createUser P db admin user = .ok (u, db')) :
    ∃ db₁ log, Users.create P db user = .ok db₁ ∧ db' = { db₁ with auditLog := log } := by
  obtain ⟨event, db₁, log, hbody, rfl⟩ := classA_eq_ok h
  simp only [bind_eq_ok, pure_eq_ok, Prod.mk.injEq] at hbody
  obtain ⟨db₂, hcreate, -, -, rfl⟩ := hbody
  exact ⟨db₂, log, hcreate, rfl⟩

variable {reason : Option String} {user : UserId} {credential : CredentialRow}

theorem disableUser_ok (h : disableUser db admin session target reason now = .ok (u, db')) :
    ∃ db₁ log, Users.setDisabled db target true = .ok db₁ ∧
      db' = { sweepUser db₁ target now with auditLog := log } := by
  obtain ⟨event, db₁, log, hbody, rfl⟩ := classA_eq_ok h
  simp only [bind_eq_ok, pure_eq_ok, Prod.mk.injEq] at hbody
  obtain ⟨stepUp, -, db₂, hset, -, -, rfl⟩ := hbody
  exact ⟨db₂, log, hset, rfl⟩

theorem enableUser_ok (h : enableUser db admin session target now = .ok (u, db')) :
    ∃ db₁ log, Users.setDisabled db target false = .ok db₁ ∧
      db' = { db₁ with auditLog := log } := by
  obtain ⟨event, db₁, log, hbody, rfl⟩ := classA_eq_ok h
  simp only [bind_eq_ok, pure_eq_ok, Prod.mk.injEq] at hbody
  obtain ⟨stepUp, -, db₂, hset, -, -, rfl⟩ := hbody
  exact ⟨db₂, log, hset, rfl⟩

theorem deleteUser_ok (h : deleteUser db admin session target reason now = .ok (u, db')) :
    ∃ db₁ log, Users.softDelete db target = .ok db₁ ∧
      db' = { sweepUser db₁ target now with auditLog := log } := by
  obtain ⟨event, db₁, log, hbody, rfl⟩ := classA_eq_ok h
  simp only [bind_eq_ok, pure_eq_ok, Prod.mk.injEq] at hbody
  obtain ⟨stepUp, -, db₂, hset, -, -, rfl⟩ := hbody
  exact ⟨db₂, log, hset, rfl⟩

theorem changeUserRole_ok {newRole : Role}
    (h : changeUserRole db admin target newRole = .ok (u, db')) :
    ∃ oldRole db₁ log, Users.getRole db target = .ok oldRole ∧
      ¬ (oldRole.isAdmin = true ∧ newRole.isAdmin = false ∧ Users.countAdmins db ≤ 1) ∧
      Users.setRole db target newRole = .ok db₁ ∧ db' = { db₁ with auditLog := log } := by
  obtain ⟨event, db₁, log, hbody, rfl⟩ := classA_eq_ok h
  simp only [bind_eq_ok, ensure_eq_ok, pure_eq_ok, Prod.mk.injEq] at hbody
  obtain ⟨oldRole, hrole, -, hguard, db₂, hset, -, -, rfl⟩ := hbody
  refine ⟨oldRole, db₂, log, hrole, ?_, hset, rfl⟩
  rintro ⟨hold, hnew, hcount⟩
  simp [hold, hnew, hcount] at hguard

/-- A completed reset: the user's sessions and refresh tokens are revoked, the
account's failure count and lock may change, and nothing is done to codes or
pending second factors. -/
theorem consumeAndResetPassword_ok {token : ResetTokenId} {consumedAt : DateTime}
    {hibpWarned : Bool} {lockout : Users.PasswordLockoutCleared}
    (h : consumeAndResetPassword db user token credential consumedAt hibpWarned =
      .ok (lockout, db')) :
    ∃ passwordResetTokens log, ∃ keepLock : Bool,
      db' = { db with
        passwordResetTokens
        credentials := db.credentials.upsert credential
        users := db.users.update (fun u => u.id == user) fun u =>
          { u with
            failedLoginCount := 0
            lockedUntil := if keepLock then u.lockedUntil else none }
        sessions := (Sessions.revokeAllForUser db user consumedAt).sessions
        refreshTokens := (RefreshTokens.revokeAllForUser db user consumedAt).refreshTokens
        auditLog := log } := by
  obtain ⟨event, db₁, log, hbody, rfl⟩ := classA_eq_ok h
  simp only [markResetTokenConsumed, Users.isActiveLocal, Users.clearPasswordLockout, bind_eq_ok,
    ensure_eq_ok, require_eq_ok, pure_eq_ok, Prod.mk.injEq] at hbody
  obtain ⟨db₂, ⟨-, -, rfl⟩, -, -, -, -, -, -, -, -, ⟨lockout', db₃⟩, ⟨u, -, -, rfl⟩, -, -, rfl⟩ :=
    hbody
  exact ⟨_, log, _, rfl⟩

/-- U09 writes one credential. -/
theorem changePasswordSelf_ok {keepCurrentSession : Option SessionId} {revokeOthers : Bool}
    {swept : Nat × Nat}
    (h : changePasswordSelf db user credential keepCurrentSession revokeOthers now =
      .ok (swept, db')) :
    ∃ users passwordResetTokens sessions refreshTokens log,
      db' = { db with
        credentials := db.credentials.upsert credential
        users, passwordResetTokens, sessions, refreshTokens, auditLog := log } := by
  obtain ⟨event, db₁, log, hbody, rfl⟩ := classA_eq_ok h
  simp only [Users.clearPasswordLockout, bind_eq_ok, ensure_eq_ok, require_eq_ok, pure_eq_ok,
    Prod.mk.injEq] at hbody
  obtain ⟨-, -, ⟨lockout, db₂⟩, ⟨u, -, -, rfl⟩, -, -, rfl⟩ := hbody
  split
  · split
    · exact ⟨_, _, _, _, log, rfl⟩
    · exact ⟨_, _, _, _, log, rfl⟩
  · exact ⟨_, _, _, _, log, rfl⟩

end SuiId

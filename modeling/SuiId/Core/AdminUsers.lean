import SuiId.Core.Session
import SuiId.Lib.Machine

/-!
# The administrator's user requests

The use cases of `identity/admin/users.rs` and the role handler
`users_set_role`, behind the `CurrentAdmin` extractor: one request resolves
the session, checks that its user is an active administrator and runs one
command.  Disabling and deleting refuse the actor's own account; changing a
role asks the authorization table, which is told whether the target is the
last administrator by a count that includes disabled ones.
-/

namespace SuiId

open Lib Lib.Result

/-! ## The authorization table -/

/-- `authz::Action`. -/
inductive Action where
  | adminReadUsers
  | adminReadClients
  | adminReadAudit
  | adminReadDashboard
  | adminReadSettings
  | adminReadSigningKeys
  | adminWriteUsers
  | adminWriteClients
  | adminWriteSettings
  | adminRotateSigningKey
  | adminRotateClientSecret
  | adminResetUserMfa
  | adminForceLogout
  | adminChangeUserRole (targetIsLastAdmin : Bool)
  | adminDisableUser (targetIsLastAdmin : Bool)
  | adminDeleteUser (targetIsLastAdmin : Bool)
  | selfReadSecurity
  | selfWriteSecurity
  | selfRevokeOwnSessions
  | selfRevokeConsent

/-- `Decision`. -/
inductive Decision where
  | permit
  | deny
deriving DecidableEq

/-- `authz::authorize`. -/
def authorize : Role → Action → Decision
  | .admin, .adminReadUsers | .admin, .adminReadClients | .admin, .adminReadAudit
  | .admin, .adminReadDashboard | .admin, .adminReadSettings
  | .admin, .adminReadSigningKeys => .permit
  | .auditor, .adminReadUsers | .auditor, .adminReadClients | .auditor, .adminReadAudit
  | .auditor, .adminReadDashboard | .auditor, .adminReadSettings
  | .auditor, .adminReadSigningKeys => .permit
  | .admin, .adminWriteUsers | .admin, .adminWriteClients | .admin, .adminWriteSettings
  | .admin, .adminRotateSigningKey | .admin, .adminRotateClientSecret
  | .admin, .adminResetUserMfa | .admin, .adminForceLogout => .permit
  | .admin, .adminChangeUserRole false | .admin, .adminDisableUser false
  | .admin, .adminDeleteUser false => .permit
  | _, .selfReadSecurity | _, .selfWriteSecurity | _, .selfRevokeOwnSessions
  | _, .selfRevokeConsent => .permit
  | _, _ => .deny

/-! ## Use cases -/

/-- `CreateUserSpec`, with the identifier drawn for the new row. -/
structure CreateUserSpec where
  id : UserId
  username : String
  displayName : Option String
  email : Option String
  isAdmin : Bool

/-- The e-mail column of a new row: trimmed, and absent when empty. -/
def suppliedEmail (email : Option String) : Option String :=
  (email.map Text.trim).filter fun e => !e.isEmpty

/-- `create_user`. -/
def adminCreateUser (P : Primitives) (db : Database) (actor : UserId) (spec : CreateUserSpec) :
    CoreResult Database :=
  if (Text.trim spec.username).isEmpty then
    .error (.badRequest "username must not be empty")
  else
    let email := suppliedEmail spec.email
    let row : UserRow :=
      { id := spec.id, username := spec.username, displayName := spec.displayName, email
        emailNormalized := email.map (Users.normalizeEmail P), emailVerifiedAt := none
        role := if spec.isAdmin then .admin else .user, isDisabled := false, isDeleted := false
        lastLoginAt := none, failedLoginCount := 0, lockedUntil := none, mfaFailureCount := 0
        source := .localDb, externalStableId := none }
    match createUser P db actor row with
    | .ok (_, db) => .ok db
    | .error .conflict => .error (.conflict "username already in use")
    | .error e => .error (.store e)

/-- How a use case reports a store error. -/
def storeError : StoreError → CoreError
  | .notFound => .notFound
  | e => .store e

/-- `set_user_disabled`. -/
def setUserDisabled (db : Database) (actor : UserId) (session : SessionId) (target : UserId)
    (disabled : Bool) (reason : Option String) (now : DateTime) : CoreResult Database :=
  if actor == target && disabled then
    .error (.badRequest "cannot disable your own account; have another administrator do it")
  else
    let result :=
      if disabled then disableUser db actor session target reason now
      else enableUser db actor session target now
    match result with
    | .ok (_, db) => .ok db
    | .error e => .error (storeError e)

/-- `delete_user`. -/
def adminDeleteUser (db : Database) (actor : UserId) (session : SessionId) (target : UserId)
    (reason : Option String) (now : DateTime) : CoreResult Database :=
  if actor == target then .error (.badRequest "cannot delete your own account")
  else
    match deleteUser db actor session target reason now with
    | .ok (_, db) => .ok db
    | .error e => .error (storeError e)

/-- `users_set_role`: the pre-check, then U05. -/
def usersSetRole (db : Database) (actor target : UserId) (newRole : Role) : CoreResult Database :=
  match db.users.get? target with
  | none => .error (.store .notFound)
  | some targetUser =>
    let targetIsLastAdmin :=
      targetUser.role.isAdmin && !newRole.isAdmin && Users.countAdmins db ≤ 1
    if authorize .admin (.adminChangeUserRole targetIsLastAdmin) = .deny then
      .error (.badRequest "user_detail_role_last_admin")
    else
      match changeUserRole db actor target newRole with
      | .ok (_, db) => .ok db
      | .error e => .error (.store e)

/-! ## Requests -/

/-- What an administrator does to the accounts. -/
inductive AdminAction where
  | createUser (spec : CreateUserSpec)
  | setUserDisabled (target : UserId) (disabled : Bool) (reason : Option String)
  | deleteUser (target : UserId) (reason : Option String)
  | changeUserRole (target : UserId) (newRole : Role)

/-- The use case a request calls, for the resolved actor. -/
def AdminAction.perform (P : Primitives) (db : Database) (actor : UserId) (session : SessionId)
    (now : DateTime) : AdminAction → CoreResult Database
  | .createUser spec => adminCreateUser P db actor spec
  | .setUserDisabled target disabled reason =>
    SuiId.setUserDisabled db actor session target disabled reason now
  | .deleteUser target reason => adminDeleteUser db actor session target reason now
  | .changeUserRole target newRole => usersSetRole db actor target newRole

end SuiId

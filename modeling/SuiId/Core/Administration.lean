import SuiId.Core.Accounts
import SuiId.Core.AdminUsers
import SuiId.Store.SigningKeys

/-!
# Administrators' requests, step by step

A request to change something runs the `CurrentAdmin` extractor first: it resolves the session,
records its use and reads the account.  A handler behind the step-up gate then resolves the session
once more, and `users_set_role` makes its pre-check.  Last comes the command, in its own
transaction, for the account that the extractor admitted.  Each of these is a step of its own here,
so other requests may commit between any two of them.

What else a handler checks before the command (the CSRF token, the confirmation, the step-up gate)
only refuses; a request that it refuses is one that takes no further step.
-/

namespace SuiId

open Lib Lib.Result

variable (P : Primitives) (rfc3339 : DateTime → String)

/-! ## Commands -/

/-- What an administrator's request asks for. -/
inductive AdminCommand where
  -- U01, U05: not gated
  | createUser (spec : CreateUserSpec)
  | changeUserRole (target : UserId) (newRole : Role)
  -- U02, U03, U04
  | disableUser (target : UserId) (reason : Option String)
  | enableUser (target : UserId)
  | deleteUser (target : UserId) (reason : Option String)
  -- U07, U37, K01
  | adminResetMfa (target : UserId) (reason : Option String)
  | issueRecoveryLinkAsAdmin (target : UserId) (tokenId : ResetTokenId) (tokenHash : Bytes)
      (reason : String)
  | rotateSigningKey (newId : Nat) (privateKeySealed publicKey : Bytes) (reason : Option String)

/-- The handler is behind the step-up gate, and the command reads the session again. -/
def AdminCommand.gated : AdminCommand → Bool
  | .createUser _ => false
  | .changeUserRole _ _ => false
  | _ => true

/-- The call of the core layer, whose last act is the command's transaction. -/
def AdminCommand.perform (db : Database) (actor : UserId) (session : SessionId) (now : DateTime) :
    AdminCommand → CoreResult Database
  | .createUser spec => adminCreateUser P db actor spec
  | .changeUserRole target newRole =>
    ((SuiId.changeUserRole db actor target newRole).map (·.2)).mapError .store
  | .disableUser target reason => setUserDisabled db actor session target true reason now
  | .enableUser target => setUserDisabled db actor session target false none now
  | .deleteUser target reason => adminDeleteUser db actor session target reason now
  | .adminResetMfa target reason =>
    ((SuiId.adminResetMfa db actor session target reason now).map (·.2)).mapError storeError
  | .issueRecoveryLinkAsAdmin target tokenId tokenHash reason =>
    ((SuiId.issueRecoveryLinkAsAdmin rfc3339 db actor session target tokenId tokenHash reason
      (now + resetTokenTtl) now).map (·.2)).mapError .store
  | .rotateSigningKey newId privateKeySealed publicKey reason =>
    ((SuiId.rotateSigningKey db actor session newId "EdDSA" privateKeySealed publicKey reason
      now).map (·.2)).mapError .store

/-- What `users_set_role` reads before U05. -/
def roleChangeAllowed (db : Database) (target : UserId) (newRole : Role) : CoreResult Unit := do
  let targetUser ← require (db.users.get? target) (.store .notFound)
  let targetIsLastAdmin :=
    targetUser.role.isAdmin && !newRole.isAdmin && Users.countAdmins db ≤ 1
  ensure (authorize .admin (.adminChangeUserRole targetIsLastAdmin) != .deny)
    (.badRequest "user_detail_role_last_admin")

/-! ## Requests -/

/-- How far a request has come. -/
inductive AdminPhase where
  /-- `session::resolve` is next. -/
  | resolve
  /-- `session::touch_last_used` is next. -/
  | touch (user : UserId)
  /-- The extractor reads the account. -/
  | read (user : UserId)
  /-- The handler resolves the session again, or makes its pre-check. -/
  | handler (actor : UserId)
  /-- The command is next. -/
  | command (actor : UserId)
deriving DecidableEq

/-- A request in flight, with its session cookie. -/
structure AdminCall where
  session : SessionId
  command : AdminCommand
  phase : AdminPhase

/-- What a step answers. -/
inductive AdminAnswer where
  | working
  | refused (error : CoreError)
  | committed (actor : UserId) (session : SessionId) (command : AdminCommand)

/-- The account is an active administrator. -/
def admits (db : Database) (user : UserId) : Bool :=
  (db.users.get? user).any fun u => u.role.isAdmin && !u.isDisabled && !u.isDeleted

/-- What the handler does between the extractor and the command. -/
def AdminCommand.handle (db : Database) (session : SessionId) (now : DateTime) :
    AdminCommand → Database × CoreResult Unit
  | .createUser _ => (db, .ok ())
  | .changeUserRole target newRole => (db, roleChangeAllowed db target newRole)
  | _ =>
    match resolve db now session with
    | (.ok _, db) => (touchLastUsed db now session, .ok ())
    | (.error e, db) => (db, .error e)

/-- One step of a request: the database, the next phase unless it is over, and the answer. -/
def AdminCall.advance (db : Database) (call : AdminCall) (now : DateTime) :
    Database × Option AdminPhase × AdminAnswer :=
  match call.phase with
  | .resolve =>
    match resolve db now call.session with
    | (.ok user, db) => (db, some (.touch user), .working)
    | (.error e, db) => (db, none, .refused e)
  | .touch user => (touchLastUsed db now call.session, some (.read user), .working)
  | .read user =>
    if admits db user then (db, some (.handler user), .working)
    else (db, none, .refused .forbidden)
  | .handler actor =>
    match call.command.handle db call.session now with
    | (db, .ok ()) => (db, some (.command actor), .working)
    | (db, .error e) => (db, none, .refused e)
  | .command actor =>
    match call.command.perform P rfc3339 db actor call.session now with
    | .ok db => (db, none, .committed actor call.session call.command)
    | .error e => (db, none, .refused e)

/-! ## Interleavings -/

abbrev AdminCallId := Nat

/-- The database and the requests in flight. -/
structure AdminWorld where
  db : Database
  calls : AdminCallId → Option AdminCall

/-- No request is in flight. -/
def AdminWorld.start (db : Database) : AdminWorld := ⟨db, fun _ => none⟩

/-- A new request, or the next step of one. -/
inductive AdminEvent where
  | begin (id : AdminCallId) (session : SessionId) (command : AdminCommand)
  | next (id : AdminCallId) (now : DateTime)

/-- One step of one request. -/
def administer (w : AdminWorld) : AdminEvent → AdminWorld × AdminAnswer
  | .begin id session command =>
    match w.calls id with
    | none =>
      ({ w with calls := Function.update w.calls id (some ⟨session, command, .resolve⟩) }, .working)
    | some _ => (w, .refused .internal)
  | .next id now =>
    match w.calls id with
    | none => (w, .refused .internal)
    | some call =>
      let (db, phase, answer) := call.advance P rfc3339 w.db now
      ({ db, calls := Function.update w.calls id (phase.map fun phase => { call with phase }) },
        answer)

/-- A step of a run. -/
abbrev AdminTaken := Machine.Taken AdminWorld AdminEvent AdminAnswer

end SuiId

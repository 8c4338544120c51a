import SuiId.Core.Accounts
import SuiId.Core.Session
import SuiId.Store.ResetTokens

/-!
# Links in flight

The calls that issue a link, take links away or complete one, cut at their accesses to the
database, and the clock that they read.

* `request_reset` reads the clock first, and the account, the credential and the number of
  outstanding links before it inserts.
* `consume_and_reset_password` reads the link, then the clock, and hashes the password; U10 gets
  the link and the clock value of that moment.
* U02, U04 and U37 are one transaction, with a clock value that was read before it; U09 reads the
  clock in its transaction.

Every event carries the clock at its moment.  What U10's caller has checked of the new password
comes with the request.
-/

namespace SuiId

open Lib Lib.Result

/-! ## The new password -/

/-- `HibpEnforcement`. -/
inductive HibpEnforcement where
  | allowed
  | allowedWithWarning (count : Nat)
  | blocked (count : Nat)
deriving DecidableEq, Repr

/-- `check_password_policy`. -/
def checkPasswordPolicy (password : String) (minLen : Nat) : CoreResult Unit := do
  ensure (!(password.length < minLen))
    (.badRequest ("password must be at least " ++ toString minLen ++ " characters long"))
  ensure (!(256 < password.length)) (.badRequest "password is unreasonably long (max 256)")

/-- The checks before the link is looked up.  The answer is whether the password is in a known
breach. -/
def checkNewPassword (password : String) (minLen : Nat) (hibp : HibpEnforcement) :
    CoreResult Bool := do
  checkPasswordPolicy password minLen
  match hibp with
  | .blocked _ => .error (.badRequest
      "New password found in known data breaches. Please choose a different password.")
  | .allowedWithWarning _ => pure true
  | .allowed => pure false

/-! ## Calls -/

/-- A command of one transaction. -/
inductive LinkCommand where
  | changePasswordSelf (user : UserId) (keepCurrentSession : Option SessionId)
      (revokeOthers : Bool)
  | disableUser (admin : UserId) (session : SessionId) (target : UserId) (reason : Option String)
  | deleteUser (admin : UserId) (session : SessionId) (target : UserId) (reason : Option String)
  | issueRecoveryLinkAsAdmin (admin : UserId) (session : SessionId) (target : UserId)
      (reason : String)
  | issueRecoveryLinkAsOperator (target : UserId) (reason : String)

/-- The requests around reset links. -/
inductive LinkRequest where
  | transaction (command : LinkCommand)
  | requestReset (email : String) (requesterIp : Option String)
  | consumeAndResetPassword (plaintextToken newPassword : String) (minPasswordLen : Nat)
      (hibp : HibpEnforcement)

/-- A request with what it carries to its next access. -/
inductive LinkCall where
  | transaction (command : LinkCommand) (now : DateTime)
  -- `request_reset`
  | resetRequested (email : String) (requesterIp : Option String) (now : DateTime)
  | recipientRead (user : UserRow) (requesterIp : Option String) (now : DateTime)
  | recipientChecked (user : UserRow) (requesterIp : Option String) (now : DateTime)
  | recipientCounted (user : UserRow) (requesterIp : Option String) (now : DateTime)
  -- `consume_and_reset_password`
  | linkSubmitted (plaintextToken : String) (hibpWarned : Bool)
  | linkRead (row : PasswordResetTokenRow) (hibpWarned : Bool)
  | linkChecked (row : PasswordResetTokenRow) (now : DateTime) (newHash : String)
      (hibpWarned : Bool)

/-- What a step of a call reads from the clock, the random generator and the hash. -/
structure LinkDraw where
  now : DateTime
  tokenId : ResetTokenId
  bytes : Bytes
  newHash : String

/-- What an event answers. -/
inductive LinkAnswer where
  /-- The event is not the next access of that call. -/
  | ignored
  | running
  | refused (error : CoreError)
  /-- `request_reset` has ended without a link. -/
  | notMailed
  | issued
  | committed
  | completed (lockout : Users.PasswordLockoutCleared)

/-- What a request begins with. -/
def LinkRequest.start (draw : LinkDraw) : LinkRequest → CoreResult LinkCall
  | .transaction command => pure (.transaction command draw.now)
  | .requestReset email requesterIp => pure (.resetRequested email requesterIp draw.now)
  | .consumeAndResetPassword plaintextToken newPassword minPasswordLen hibp => do
    let hibpWarned ← checkNewPassword newPassword minPasswordLen hibp
    pure (.linkSubmitted plaintextToken hibpWarned)

/-- What a step of a call leaves: the database, the call, and its answer. -/
structure LinkResult where
  db : Database
  next : Option LinkCall
  out : LinkAnswer

namespace LinkResult

/-- The call goes on. -/
def goOn (db : Database) (next : LinkCall) : LinkResult := ⟨db, some next, .running⟩

/-- The call ends. -/
def done (db : Database) (out : LinkAnswer) : LinkResult := ⟨db, none, out⟩

/-- The call ends with an error. -/
def refuse (db : Database) (error : CoreError) : LinkResult := done db (.refused error)

end LinkResult

open LinkResult

section Advance

variable (P : Primitives) (rfc3339 : DateTime → String) (db : Database) (draw : LinkDraw)

/-- `mint_random_token`: the hash of the token. -/
def LinkDraw.tokenHash : Bytes := P.sha256 (utf8 (P.base64Url draw.bytes))

/-- The command's transaction, with the clock value of its caller. -/
def LinkCommand.perform (now : DateTime) : LinkCommand → StoreResult Database
  | .changePasswordSelf user keepCurrentSession revokeOthers =>
    (SuiId.changePasswordSelf db user ⟨user, draw.newHash, now⟩ keepCurrentSession revokeOthers
      draw.now).map (·.2)
  | .disableUser admin session target reason =>
    (SuiId.disableUser db admin session target reason now).map (·.2)
  | .deleteUser admin session target reason =>
    (SuiId.deleteUser db admin session target reason now).map (·.2)
  | .issueRecoveryLinkAsAdmin admin session target reason =>
    (SuiId.issueRecoveryLinkAsAdmin rfc3339 db admin session target draw.tokenId
      (draw.tokenHash P) reason (now + resetTokenTtl) now).map (·.2)
  | .issueRecoveryLinkAsOperator target reason =>
    (SuiId.issueRecoveryLinkAsOperator rfc3339 db target draw.tokenId (draw.tokenHash P) reason
      (now + resetTokenTtl) now).map (·.2)

/-- The link that `request_reset` inserts. -/
def mailedLink (user : UserRow) (requesterIp : Option String) (now : DateTime) :
    PasswordResetTokenRow where
  id := draw.tokenId
  userId := user.id
  tokenHash := draw.tokenHash P
  issuedAt := now
  expiresAt := now + resetTokenTtl
  consumedAt := none
  requesterIp := requesterIp
  issuedVia := .email
  issuedBy := none
  revokedAt := none

/-- `find_by_hash`. -/
def PasswordResetTokens.findByHash (hash : Bytes) : Option PasswordResetTokenRow :=
  db.passwordResetTokens.find? fun t => t.tokenHash == hash

/-- The next access of a call. -/
def LinkCall.advance : LinkCall → LinkResult
  | .transaction command now =>
    match command.perform P rfc3339 db draw now with
    | .ok db => done db .committed
    | .error e => refuse db (.store e)
  | .resetRequested email requesterIp now =>
    match (Users.findByEmailNormalized db (Users.normalizeEmail P email)).filter
        (·.source == .localDb) with
    | none => done db .notMailed
    | some user => goOn db (.recipientRead user requesterIp now)
  | .recipientRead user requesterIp now =>
    if (db.credentials.get? user.id).isNone || user.isDisabled || user.isDeleted then
      done db .notMailed
    else goOn db (.recipientChecked user requesterIp now)
  | .recipientChecked user requesterIp now =>
    if PasswordResetTokens.countActiveForUser db user.id now ≥ maxOutstandingTokensPerUser then
      done db .notMailed
    else goOn db (.recipientCounted user requesterIp now)
  | .recipientCounted user requesterIp now =>
    match PasswordResetTokens.insertWith db (mailedLink P draw user requesterIp now) false with
    | .ok db => done db .issued
    | .error e => refuse db (.store e)
  | .linkSubmitted plaintextToken hibpWarned =>
    match PasswordResetTokens.findByHash db (P.sha256 (utf8 plaintextToken)) with
    | none => refuse db .invalidCredentials
    | some row => goOn db (.linkRead row hibpWarned)
  | .linkRead row hibpWarned =>
    if row.consumedAt.isSome || row.revokedAt.isSome || row.expiresAt < draw.now then
      refuse db .invalidCredentials
    else goOn db (.linkChecked row draw.now draw.newHash hibpWarned)
  | .linkChecked row now newHash hibpWarned =>
    match consumeAndResetPassword db row.userId row.id ⟨row.userId, newHash, now⟩ now
        hibpWarned with
    | .ok (lockout, db) => done db (.completed lockout)
    | .error .notFound => refuse db .invalidCredentials
    | .error e => refuse db (.store e)

end Advance

/-! ## Runs -/

abbrev LinkCallId := Nat

/-- The clock is that of the last event. -/
structure LinkWorld where
  db : Database
  clock : DateTime
  calls : LinkCallId → Option LinkCall

/-- No call is in flight. -/
def LinkWorld.start (db : Database) (clock : DateTime) : LinkWorld := ⟨db, clock, fun _ => none⟩

/-- A request, its next access, or another write. -/
inductive LinkEvent where
  | begin (id : LinkCallId) (request : LinkRequest) (draw : LinkDraw)
  /-- The next access of a call. -/
  | next (id : LinkCallId) (draw : LinkDraw)
  /-- A write to any other table. -/
  | elsewhere (db : Database) (now : DateTime)

/-- Its clock value. -/
def LinkEvent.now : LinkEvent → DateTime
  | .begin _ _ draw => draw.now
  | .next _ draw => draw.now
  | .elsewhere _ now => now

section Steps

variable (P : Primitives) (rfc3339 : DateTime → String)

/-- One event. -/
def linkStep (w : LinkWorld) (e : LinkEvent) : LinkWorld × LinkAnswer :=
  let w := { w with clock := e.now }
  match e with
  | .begin id request draw =>
    match w.calls id, request.start draw with
    | none, .ok call => ({ w with calls := Function.update w.calls id (some call) }, .running)
    | none, .error e => (w, .refused e)
    | some _, _ => (w, .ignored)
  | .next id draw =>
    match w.calls id with
    | none => (w, .ignored)
    | some call =>
      let result := call.advance P rfc3339 w.db draw
      ({ w with db := result.db, calls := Function.update w.calls id result.next }, result.out)
  | .elsewhere db _ =>
    ({ w with db := { db with passwordResetTokens := w.db.passwordResetTokens } }, .running)

/-- Where a run ends. -/
abbrev linkRun : LinkWorld → List LinkEvent → LinkWorld := Machine.run (linkStep P rfc3339)

/-- A step of a run. -/
abbrev LinkTaken := Machine.Taken LinkWorld LinkEvent LinkAnswer

/-- The steps of a run. -/
abbrev linkTrace : LinkWorld → List LinkEvent → List LinkTaken :=
  Machine.trace (linkStep P rfc3339)

end Steps

/-- The account whose outstanding links the command takes away. -/
def LinkCommand.target : LinkCommand → UserId
  | .changePasswordSelf user _ _ => user
  | .disableUser _ _ target _ => target
  | .deleteUser _ _ target _ => target
  | .issueRecoveryLinkAsAdmin _ _ target _ => target
  | .issueRecoveryLinkAsOperator target _ => target

/-- The call that an event advances. -/
def LinkWorld.callOf (w : LinkWorld) : LinkEvent → Option LinkCall
  | .next id _ => w.calls id
  | _ => none

/-- The account for which a step has committed U02, U04, U09, U10 or U37. -/
def superseding (x : LinkTaken) : Option UserId :=
  match x.pre.callOf x.event, x.out with
  | some (.transaction command _), .committed => some command.target
  | some (.linkChecked row _ _ _), .completed _ => some row.userId
  | _, _ => none

/-- The link that a step has completed, by committing U10. -/
def completing (x : LinkTaken) : Option ResetTokenId :=
  match x.pre.callOf x.event, x.out with
  | some (.linkChecked row _ _ _), .completed _ => some row.id
  | _, _ => none

end SuiId

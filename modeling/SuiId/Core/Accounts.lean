import SuiId.Core.SignIns
import SuiId.Store.Recovery

/-!
# The life of an account

The commands that create an account, change it, give it a password or a recovery link, and sign
it in.  Each of them is one transaction, so a run is a list of commands; their arguments are
arbitrary, so whatever their callers read before is covered.

`request_reset` is the exception: it reads in several statements before it inserts its token.
Here it is one step.  The mail it sends and the events that it and others write outside of a
transaction are left out.
-/

namespace SuiId

open Lib Lib.Result

variable (P : Primitives) (key : MasterKey) (rfc3339 : DateTime → String)

/-! ## `request_reset` -/

/-- `RESET_TOKEN_TTL`. -/
def resetTokenTtl : Int := seconds (30 * 60)

/-- `MAX_OUTSTANDING_TOKENS_PER_USER`. -/
def maxOutstandingTokensPerUser : Nat := 3

/-- `find_by_email_normalized`. -/
def Users.findByEmailNormalized (db : Database) (normalized : String) : Option UserRow :=
  db.users.find? fun u => u.emailNormalized == some normalized

/-- Whom `request_reset` mails: an active local account that has a password and few links
outstanding. -/
def resetRecipient (db : Database) (email : String) (now : DateTime) : Option UserRow := do
  let u ← Users.findByEmailNormalized db (Users.normalizeEmail P email)
  guard (u.source == .localDb)
  guard (db.credentials.get? u.id).isSome
  guard (!(u.isDisabled || u.isDeleted))
  guard (PasswordResetTokens.countActiveForUser db u.id now < maxOutstandingTokensPerUser)
  pure u

/-- `request_reset`, with the random bytes of the token. -/
def requestReset (db : Database) (email : String) (requesterIp : Option String)
    (tokenId : ResetTokenId) (bytes : Bytes) (now : DateTime) : StoreResult Database :=
  match resetRecipient P db email now with
  | none => pure db
  | some u =>
    PasswordResetTokens.insertWith db
      { id := tokenId, userId := u.id, tokenHash := P.sha256 (utf8 (P.base64Url bytes))
        issuedAt := now, expiresAt := now + resetTokenTtl, consumedAt := none, requesterIp
        issuedVia := .email, issuedBy := none, revokedAt := none } false

/-! ## Commands -/

/-- The commands on users and their credentials. -/
inductive AccountCommand where
  -- S10, U01, U05
  | completeInitialSetup (user : UserRow) (cred : CredentialRow)
      (signingKey : InitialSigningKeyMaterial) (authorizedBy : SetupAuthorizedBy) (now : DateTime)
  | createUser (admin : UserId) (user : UserRow)
  | changeUserRole (admin target : UserId) (newRole : Role)
  -- U02, U03, U04
  | disableUser (admin : UserId) (session : SessionId) (target : UserId) (reason : Option String)
      (now : DateTime)
  | enableUser (admin : UserId) (session : SessionId) (target : UserId) (now : DateTime)
  | deleteUser (admin : UserId) (session : SessionId) (target : UserId) (reason : Option String)
      (now : DateTime)
  -- U09, U10
  | requestReset (email : String) (requesterIp : Option String) (tokenId : ResetTokenId)
      (bytes : Bytes) (now : DateTime)
  | consumeAndResetPassword (user : UserId) (token : ResetTokenId) (credential : CredentialRow)
      (consumedAt : DateTime) (hibpWarned : Bool)
  | changePasswordSelf (user : UserId) (credential : CredentialRow)
      (keepCurrentSession : Option SessionId) (revokeOthers : Bool) (now : DateTime)
  -- U37
  | issueRecoveryLinkAsAdmin (admin : UserId) (session : SessionId) (target : UserId)
      (tokenId : ResetTokenId) (tokenHash : Bytes) (reason : String) (expiresAt now : DateTime)
  | issueRecoveryLinkAsOperator (target : UserId) (tokenId : ResetTokenId) (tokenHash : Bytes)
      (reason : String) (expiresAt now : DateTime)
  /-- A sign-in, or one of its failures. -/
  | signIn (transaction : Transaction)

/-- The command's transaction. -/
def AccountCommand.perform (db : Database) : AccountCommand → StoreResult Database
  | .completeInitialSetup user cred signingKey authorizedBy now =>
    (SuiId.completeInitialSetup P db user cred signingKey authorizedBy now).map (·.2)
  | .createUser admin user => (SuiId.createUser P db admin user).map (·.2)
  | .changeUserRole admin target newRole =>
    (SuiId.changeUserRole db admin target newRole).map (·.2)
  | .disableUser admin session target reason now =>
    (SuiId.disableUser db admin session target reason now).map (·.2)
  | .enableUser admin session target now =>
    (SuiId.enableUser db admin session target now).map (·.2)
  | .deleteUser admin session target reason now =>
    (SuiId.deleteUser db admin session target reason now).map (·.2)
  | .requestReset email requesterIp tokenId bytes now =>
    SuiId.requestReset P db email requesterIp tokenId bytes now
  | .consumeAndResetPassword user token credential consumedAt hibpWarned =>
    (SuiId.consumeAndResetPassword db user token credential consumedAt hibpWarned).map (·.2)
  | .changePasswordSelf user credential keepCurrentSession revokeOthers now =>
    (SuiId.changePasswordSelf db user credential keepCurrentSession revokeOthers now).map (·.2)
  | .issueRecoveryLinkAsAdmin admin session target tokenId tokenHash reason expiresAt now =>
    (SuiId.issueRecoveryLinkAsAdmin rfc3339 db admin session target tokenId tokenHash reason
      expiresAt now).map (·.2)
  | .issueRecoveryLinkAsOperator target tokenId tokenHash reason expiresAt now =>
    (SuiId.issueRecoveryLinkAsOperator rfc3339 db target tokenId tokenHash reason expiresAt
      now).map (·.2)
  | .signIn transaction => (transaction.perform P key db).map (·.2)

/-- One command.  A refused one changes nothing. -/
def accountStep (db : Database) (command : AccountCommand) : Database × StoreResult Unit :=
  match command.perform P key rfc3339 db with
  | .ok db => (db, .ok ())
  | .error e => (db, .error e)

/-- A step of a run. -/
abbrev AccountTaken := Machine.Taken Database AccountCommand (StoreResult Unit)

theorem accountStep_cases (db : Database) (command : AccountCommand) :
    (∃ db', command.perform P key rfc3339 db = .ok db' ∧
        accountStep P key rfc3339 db command = (db', .ok ())) ∨
      ∃ e, accountStep P key rfc3339 db command = (db, .error e) := by
  unfold accountStep
  split
  · rename_i db' hperform
    exact .inl ⟨db', hperform, rfl⟩
  · exact .inr ⟨_, rfl⟩

end SuiId

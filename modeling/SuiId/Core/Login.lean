import SuiId.Core.Mfa
import SuiId.Store.Factors
import SuiId.Lib.Machine

/-!
# The sign-in flows

Every path to a session, cut at its accesses to the database:

* `login_with_mfa`: the account, the credential and its check, and then either
  U22, L01 or a pending second factor;
* `directory_session`, once a user source has verified the password: the shadow
  row, and then L03 or L08;
* `complete_federated_signin`, once a provider has verified the user: the link,
  the account, and then L04, or F02 and a pending second factor; F04 for a user
  who is new;
* `mfa_challenge_post`: `verify_pending` with L02 or L07 at the local door,
  `federated_mfa::promote` with F03 at the federated one;
* `webauthn_auth_complete`, with L02 or L07.

`change_password_self` with U09 runs beside them, and so do U10, U12 and U15.

What other crates decide (the WebAuthn assertion, the hash of a new password) is
drawn with the identifiers.  Audit rows written outside a transaction are left
out.
-/

namespace SuiId

open Lib Lib.Result

/-! ## Requests -/

/-- `SessionAudience`. -/
inductive SessionAudience where
  | any
  | adminReaders
deriving DecidableEq, Repr

/-- A sign-in that a provider has verified: the claimed attempt, the subject of
the ID token, and the time of its validation. -/
structure FederatedSignIn where
  attemptId : AttemptId
  providerId : ProviderId
  providerSlug : String
  providerConfigVersion : Int
  providerActivationGeneration : Int
  nextPath : Option String
  upstreamSub : String
  upstreamEmail : Option String
  now : DateTime

/-- What a first sign-in through a provider takes from the ID token. -/
structure FederatedProfile where
  username : String
  displayName : Option String
  email : Option String

/-- Who verified the user first. -/
inductive FirstFactor where
  /-- The server, against this row. -/
  | password (credential : CredentialRow)
  | directory (shadow : Users.LdapShadowData) (sourceSlug : String)
  | federation (signIn : FederatedSignIn)

/-- The cookies `mfa_challenge_post` reads.  A federated one that does not parse is
still there. -/
structure MfaCookies where
  fedPending : Option (Option FederationMfaPendingId)
  fedBrowserBinding : String
  pending : Option PendingMfaId

/-- The requests of a sign-in. -/
inductive FlowRequest where
  | login (username password : String) (audience : SessionAudience)
  /-- A source has verified the password; a returning user is known. -/
  | directory (shadow : Users.LdapShadowData) (sourceSlug : String) (knownUser : Option UserId)
      (audience : SessionAudience)
  /-- A provider has verified a subject that is linked to the user. -/
  | callback (signIn : FederatedSignIn) (user : UserId)
  /-- A provider has verified a subject that may be provisioned. -/
  | provision (signIn : FederatedSignIn) (profile : FederatedProfile)
  | mfaChallenge (cookies : MfaCookies) (fedCsrf code : String)
  /-- `webauthn_auth_complete`. -/
  | assertion (pending : PendingMfaId)
  /-- `change_password_self`, with the hash of the new password or why there is none:
  the policy, the list of known breaches, the hash function. -/
  | changePassword (user : UserId) (currentPassword : String) (newHash : CoreResult String)
      (keepCurrentSession : Option SessionId) (revokeOthers : Bool)

/-! ## Calls in flight -/

/-- A request with what it carries to its next access. -/
inductive FlowCall where
  -- `login_with_mfa`
  | submitted (username password : String) (audience : SessionAudience)
  | accountRead (user : UserRow) (password : String) (audience : SessionAudience)
  | passwordWrong (user : UserId)
  -- `directory_session`
  | directoryVerified (shadow : Users.LdapShadowData) (sourceSlug : String)
      (knownUser : Option UserId) (audience : SessionAudience)
  -- the federated callback
  | callbackResolved (signIn : FederatedSignIn) (user : UserId)
  | callbackLinked (signIn : FederatedSignIn) (user : UserId)
  | callbackFailed (signIn : FederatedSignIn)
  | provisioning (signIn : FederatedSignIn) (profile : FederatedProfile)
  -- `is_mfa_enabled` and what follows it
  | verified (first : FirstFactor) (user : UserId)
  | withoutTotp (first : FirstFactor) (user : UserId)
  | withFactor (first : FirstFactor) (user : UserId)
  | withoutFactor (first : FirstFactor) (user : UserId)
  | continuationIssued (signIn : FederatedSignIn) (user : UserId)
  -- `verify_pending`
  | codeSubmitted (pending : PendingMfaId) (code : String)
  | pendingRead (pending : LoginPendingMfaRow) (code : String)
  | codeChecked (pending : LoginPendingMfaRow) (proof : Option SecondFactorProof)
      (method : AuthMethod)
  -- `webauthn_auth_complete`
  | assertionSubmitted (pending : PendingMfaId)
  | assertionWanted (pending : LoginPendingMfaRow)
  | assertionVerified (pending : LoginPendingMfaRow)
  -- `mfa_challenge_post_federated`
  | fedSubmitted (pending : FederationMfaPendingId) (browserBinding csrf code : String)
      (generic : Option PendingMfaId)
  | fedRowRead (row : FederationMfaPendingRow) (code : String) (generic : Option PendingMfaId)
  | fedUserRead (row : FederationMfaPendingRow) (code : String) (generic : Option PendingMfaId)
  | fedBound (row : FederationMfaPendingRow) (code : String) (generic : Option PendingMfaId)
  | fedWithoutCeremony (row : FederationMfaPendingRow) (code : String)
      (generic : Option PendingMfaId)
  | fedDecided (pending : FederationMfaPendingId) (proof : Option F03Proof)
      (generic : Option PendingMfaId)
  | fedRejected (pending : FederationMfaPendingId)
  | fedPromoted (generic : Option PendingMfaId)
  -- a second factor that is to be counted as wrong
  | secondFactorRejected (user : UserId)
  -- `change_password_self`
  | changeSubmitted (user : UserId) (currentPassword : String) (newHash : CoreResult String)
      (keepCurrentSession : Option SessionId) (revokeOthers : Bool)
  | changeVerified (user : UserId) (checked replacement : CredentialRow)
      (keepCurrentSession : Option SessionId) (revokeOthers : Bool)

/-- How a request starts.  The challenge goes to the federated door when its
cookie is there. -/
def FlowRequest.start : FlowRequest → Option FlowCall
  | .login username password audience => some (.submitted username password audience)
  | .directory shadow sourceSlug knownUser audience =>
    some (.directoryVerified shadow sourceSlug knownUser audience)
  | .callback signIn user => some (.callbackResolved signIn user)
  | .provision signIn profile => some (.provisioning signIn profile)
  | .mfaChallenge cookies fedCsrf code =>
    match cookies.fedPending with
    | some (some id) =>
      some (.fedSubmitted id cookies.fedBrowserBinding fedCsrf code cookies.pending)
    | some none => none
    | none => cookies.pending.map fun id => .codeSubmitted id code
  | .assertion pending => some (.assertionSubmitted pending)
  | .changePassword user currentPassword newHash keepCurrentSession revokeOthers =>
    some (.changeSubmitted user currentPassword newHash keepCurrentSession revokeOthers)

/-- What a step of a call reads from the clock, the random generator and other
crates. -/
structure FlowDraw where
  now : DateTime
  sessionId : SessionId
  pendingId : PendingMfaId
  userId : UserId
  fedPendingId : FederationMfaPendingId
  nonce : Nonce
  browserBinding : String
  csrf : String
  /-- The credential of an assertion that verifies, and its new sealed blob. -/
  assertion : Option (Bytes × Bytes)

/-- What an event answers. -/
inductive FlowAnswer where
  /-- The event is not the next access of that call. -/
  | ignored
  | running
  | refused (error : CoreError)
  | audienceRefused
  | signedIn (session : SessionRow)
  | mfaRequired (pending : LoginPendingMfaRow)
  | passwordChanged (credential : CredentialRow)
  | committed (result : StoreResult Unit)

/-- What a step of a call leaves: the database, the call, and its answer. -/
structure FlowResult where
  db : Database
  next : Option FlowCall
  out : FlowAnswer

namespace FlowResult

/-- The call goes on. -/
def goOn (db : Database) (next : FlowCall) : FlowResult := ⟨db, some next, .running⟩

/-- The call ends. -/
def done (db : Database) (out : FlowAnswer) : FlowResult := ⟨db, none, out⟩

/-- The call ends with an error. -/
def refuse (db : Database) (error : CoreError) : FlowResult := done db (.refused error)

end FlowResult

open FlowResult

/-! ## Rows -/

/-- `PENDING_MFA_TTL_SECS`. -/
def pendingMfaTtlSecs : Int := 5 * 60

/-- `build_pending_mfa_row`. -/
def buildPendingMfaRow (draw : FlowDraw) (user : UserId) : LoginPendingMfaRow :=
  { id := draw.pendingId, userId := user
    expiresAt := draw.now + seconds pendingMfaTtlSecs, createdAt := draw.now }

/-- The session of L01. -/
def passwordSession (draw : FlowDraw) (user : UserId) : SessionRow :=
  { id := draw.sessionId, userId := user
    expiresAt := draw.now + seconds (sessionLifetimeHours * 3600), createdAt := draw.now
    revokedAt := none, authMethods := [.pwd], lastStepUpAt := none, lastStepUpMethod := none
    lastUsedAt := none }

/-- The session of L03, L04 and F04. -/
def externalSession (id : SessionId) (user : UserId) (now : DateTime) : SessionRow :=
  { id, userId := user, expiresAt := now + seconds (24 * 3600), createdAt := now
    revokedAt := none, authMethods := [.fed], lastStepUpAt := none, lastStepUpMethod := none
    lastUsedAt := none }

namespace FederatedSignIn

/-- The link of a user to the verified subject. -/
def link (signIn : FederatedSignIn) (user : UserId) : FederationLinkRow :=
  { userId := user, providerId := signIn.providerId, upstreamSub := signIn.upstreamSub
    upstreamEmail := signIn.upstreamEmail, linkedAt := signIn.now, lastSeenAt := signIn.now }

/-- The user F04 creates. -/
def newUser (id : UserId) (profile : FederatedProfile) : UserRow :=
  { id, username := profile.username, displayName := profile.displayName, email := profile.email
    emailNormalized := none, emailVerifiedAt := none, role := .user, isDisabled := false
    isDeleted := false, lastLoginAt := none, failedLoginCount := 0, lockedUntil := none
    mfaFailureCount := 0, source := .localDb, externalStableId := none }

/-- The arguments of F02. -/
def pendingRequest (P : Primitives) (signIn : FederatedSignIn) (draw : FlowDraw) (user : UserId) :
    MfaPendingRequest :=
  { id := draw.fedPendingId, nonce := draw.nonce, attemptId := signIn.attemptId
    providerId := signIn.providerId, providerConfigVersion := signIn.providerConfigVersion
    providerActivationGeneration := signIn.providerActivationGeneration, userId := user
    nextPath := signIn.nextPath, browserBindingSha256 := P.sha256 (utf8 draw.browserBinding)
    csrfBindingSha256 := P.sha256 (utf8 draw.csrf), now := signIn.now }

end FederatedSignIn

/-! ## The steps of a call -/

section Advance

variable (P : Primitives) (key : MasterKey) (maxLockoutSecs : Int) (db : Database) (draw : FlowDraw)

/-- The account of `login_with_mfa`: unknown, inactive and locked ones are
refused. -/
def readAccount (username password : String) (audience : SessionAudience) : FlowResult :=
  match Users.findByUsername db username with
  | none => refuse db .invalidCredentials
  | some user =>
    if user.isDisabled || user.isDeleted || Users.lockedAt user draw.now then
      refuse db .invalidCredentials
    else goOn db (.accountRead user password audience)

/-- The credential is read and checked.  An account without one is refused like
a wrong password. -/
def checkPassword (user : UserRow) (password : String) (audience : SessionAudience) : FlowResult :=
  match db.credentials.get? user.id with
  | none => goOn db (.passwordWrong user.id)
  | some credential =>
    if !P.verifyPassword password credential.passwordHash then goOn db (.passwordWrong user.id)
    else if audience == .adminReaders && !user.role.canReadAdmin then done db .audienceRefused
    else goOn db (.verified (.password credential) user.id)

/-- The shadow row of `directory_session`.  A user who is new has no factor to
ask for. -/
def readShadow (shadow : Users.LdapShadowData) (sourceSlug : String) (knownUser : Option UserId)
    (audience : SessionAudience) : FlowResult :=
  let existing :=
    match knownUser with
    | some id => (db.users.get? id).map some
    | none => some (Users.findByExternalStableId db .ldap shadow.externalStableId)
  match existing with
  | none => refuse db (.store .notFound)
  | some existing =>
    if audience == .adminReaders && !existing.any (·.role.canReadAdmin) then
      done db .audienceRefused
    else
      match existing with
      | some user => goOn db (.verified (.directory shadow sourceSlug) user.id)
      | none => goOn db (.withoutFactor (.directory shadow sourceSlug) draw.userId)

/-- `issue_pending_mfa`. -/
def issuePendingMfa (user : UserId) : FlowResult :=
  let row := buildPendingMfaRow draw user
  match LoginPendingMfa.insert db row with
  | .ok db => done db (.mfaRequired row)
  | .error e => refuse db (.store e)

/-- A user with a second factor is asked for it. -/
def askForFactor (user : UserId) : FirstFactor → FlowResult
  | .password _ => issuePendingMfa db draw user
  | .directory shadow _ =>
    match signInFromDirectoryMfaRequired P db shadow (buildPendingMfaRow draw user) with
    | .ok (row, db) => done db (.mfaRequired row)
    | .error .notFound => refuse db .invalidCredentials
    | .error e => refuse db (.store e)
  | .federation signIn =>
    match issueFederatedMfaPending P key db (signIn.pendingRequest P draw user) with
    | .ok (_, db) => goOn db (.continuationIssued signIn user)
    | .error _ => goOn db (.callbackFailed signIn)

/-- A user without one is signed in. -/
def establishSession (user : UserId) : FirstFactor → FlowResult
  | .password _ =>
    match signInWithPassword db (passwordSession draw user) with
    | .ok (_, db) => done db (.signedIn (passwordSession draw user))
    | .error .notFound => refuse db .invalidCredentials
    | .error e => refuse db (.store e)
  | .directory shadow sourceSlug =>
    let session := externalSession draw.sessionId user draw.now
    match signInFromDirectory P db shadow sourceSlug session with
    | .ok (_, db) => done db (.signedIn session)
    | .error .notFound => refuse db .invalidCredentials
    | .error e => refuse db (.store e)
  | .federation signIn =>
    let session := externalSession draw.sessionId user signIn.now
    match signInFederated db signIn.attemptId signIn.providerId signIn.providerSlug session with
    | .ok (_, db) => done db (.signedIn session)
    | .error _ => goOn db (.callbackFailed signIn)

/-- F04. -/
def provision (signIn : FederatedSignIn) (profile : FederatedProfile) : FlowResult :=
  let session := externalSession draw.sessionId draw.userId signIn.now
  match provisionFederatedUser P db signIn.attemptId signIn.providerId
      (FederatedSignIn.newUser draw.userId profile) (signIn.link draw.userId) session with
  | .ok (_, db) => done db (.signedIn session)
  | .error _ => goOn db (.callbackFailed signIn)

/-- The TOTP row of `verify_pending`, and the check of the code. -/
def checkPendingCode (pending : LoginPendingMfaRow) (code : String) : FlowResult :=
  match readTotp db pending.userId with
  | .error e => refuse db e
  | .ok totpRow =>
    match checkCode P key draw.nonce totpRow code draw.now with
    | .ok (proof, method) => goOn db (.codeChecked pending proof method)
    | .error e => refuse db e

/-- `finish_authentication`: a verified assertion of a passkey of the user has its
blob written back. -/
def checkAssertion (pending : LoginPendingMfaRow) : FlowResult :=
  match draw.assertion with
  | none => goOn db (.secondFactorRejected pending.userId)
  | some (credentialId, passkeyEnc) =>
    match WebauthnCredentials.findByCredentialId db credentialId with
    | none => goOn db (.secondFactorRejected pending.userId)
    | some credential =>
      if credential.userId != pending.userId then goOn db (.secondFactorRejected pending.userId)
      else goOn (WebauthnCredentials.updatePasskey db credential.id passkeyEnc draw.now)
        (.assertionVerified pending)

/-- The proof for F03 that a code amounts to. -/
def federatedProof (totpRow : UserTotpRow) (code : String) : CoreResult F03Proof :=
  if (Text.trim code).isEmpty then pure (.rejected .malformed)
  else do
    let (proof, method) ← checkCode P key draw.nonce totpRow code draw.now
    pure <| match proof with
      | some (.totp step) => .totp step
      | some (.recoveryCode expectedSealed newSealed) => .recovery expectedSealed newSealed
      | _ => .rejected (if method == .totp then .totp else .recovery)

/-- The row of `bind_pending`, and its two digests. -/
def bindFedRow (pending : FederationMfaPendingId) (browserBinding csrf code : String)
    (generic : Option PendingMfaId) : FlowResult :=
  match db.federationMfaPending.get? pending with
  | none => refuse db .unauthenticated
  | some row =>
    if row.browserBindingSha256 != P.sha256 (utf8 browserBinding) ||
        row.csrfBindingSha256 != P.sha256 (utf8 csrf) then
      refuse db .unauthenticated
    else goOn db (.fedRowRead row code generic)

/-- F03 for what was decided. -/
def promoteFederated (pending : FederationMfaPendingId) (proof : Option F03Proof)
    (generic : Option PendingMfaId) : FlowResult :=
  match completeFederatedMfa P key db pending proof draw.sessionId draw.now with
  | .ok (.promoted session _ _, db) => ⟨db, some (.fedPromoted generic), .signedIn session⟩
  | .ok (.rejectedStillPending .., db) => goOn db (.fedRejected pending)
  | .ok (.attemptsExhausted _, db) => goOn db (.fedRejected pending)
  | .ok (.invalidated _, db) => refuse db .unauthenticated
  | .error .notFound => refuse db .unauthenticated
  | .error .conflict => refuse db .unauthenticated
  | .error e => refuse db (.store e)

/-- The current password of `change_password_self` is read and checked. -/
def checkCurrentPassword (user : UserId) (currentPassword : String) (newHash : CoreResult String)
    (keepCurrentSession : Option SessionId) (revokeOthers : Bool) : FlowResult :=
  match db.credentials.get? user with
  | none => refuse db .invalidCredentials
  | some checked =>
    if !P.verifyPassword currentPassword checked.passwordHash then refuse db .invalidCredentials
    else
      match newHash with
      | .error e => refuse db e
      | .ok passwordHash =>
        goOn db (.changeVerified user checked ⟨user, passwordHash, draw.now⟩ keepCurrentSession
          revokeOthers)

/-- The next access of a call. -/
def FlowCall.advance : FlowCall → FlowResult
  | .submitted username password audience => readAccount db draw username password audience
  | .accountRead user password audience => checkPassword P db user password audience
  | .passwordWrong user =>
    match recordLoginFailure db user maxLockoutSecs draw.now with
    | .ok (_, db) => refuse db .invalidCredentials
    | .error e => refuse db (.store e)
  | .directoryVerified shadow sourceSlug knownUser audience =>
    readShadow db draw shadow sourceSlug knownUser audience
  | .callbackResolved signIn user =>
    match FederationLink.upsert db (signIn.link user) with
    | .ok db => goOn db (.callbackLinked signIn user)
    | .error _ => goOn db (.callbackFailed signIn)
  | .callbackLinked signIn user =>
    if Users.isActive db user then goOn db (.verified (.federation signIn) user)
    else goOn db (.callbackFailed signIn)
  | .callbackFailed signIn =>
    match FederationLoginAttempt.terminalizeFailed db signIn.attemptId signIn.now with
    | .ok db => refuse db .unauthenticated
    | .error _ => refuse db .unauthenticated
  | .provisioning signIn profile => provision P db draw signIn profile
  | .verified first user =>
    if UserTotp.isEnabled db user then goOn db (.withFactor first user)
    else goOn db (.withoutTotp first user)
  | .withoutTotp first user =>
    if WebauthnCredentials.hasAny db user then goOn db (.withFactor first user)
    else goOn db (.withoutFactor first user)
  | .withFactor first user => askForFactor P key db draw user first
  | .withoutFactor first user => establishSession P db draw user first
  | .continuationIssued _ user => issuePendingMfa db draw user
  | .codeSubmitted pending code =>
    match readPending db pending draw.now with
    | (.ok row, db) => goOn db (.pendingRead row code)
    | (.error e, db) => refuse db e
  | .pendingRead pending code => checkPendingCode P key db draw pending code
  | .codeChecked pending proof method =>
    match finishPending db pending proof method draw.sessionId maxLockoutSecs draw.now with
    | (.ok session, db) => done db (.signedIn session)
    | (.error e, db) => refuse db e
  | .assertionSubmitted pending =>
    match db.loginPendingMfa.get? pending with
    | some row =>
      if row.expiresAt < draw.now then refuse db .unauthenticated
      else goOn db (.assertionWanted row)
    | none => refuse db .unauthenticated
  | .assertionWanted pending => checkAssertion db draw pending
  | .assertionVerified pending =>
    match complete db pending.id pending.userId .webauthn .webauthn draw.sessionId draw.now with
    | .ok (session, db) => done db (.signedIn session)
    | .error e => refuse db e
  | .fedSubmitted pending browserBinding csrf code generic =>
    bindFedRow P db pending browserBinding csrf code generic
  | .fedRowRead row code generic =>
    if Users.isActive db row.userId then goOn db (.fedUserRead row code generic)
    else refuse db .unauthenticated
  | .fedUserRead row code generic =>
    if !(db.federationProvider.get? row.providerId).any (·.enabled) then
      refuse db .unauthenticated
    else if row.status != .pending then refuse db .unauthenticated
    else if row.expiresAt ≤ draw.now then goOn db (.fedDecided row.id none generic)
    else goOn db (.fedBound row code generic)
  | .fedBound row code generic =>
    if (FederationWebauthnCeremony.findByPendingId db row.id).isSome then
      goOn db (.fedDecided row.id (some (.rejected .methodMismatch)) generic)
    else goOn db (.fedWithoutCeremony row code generic)
  | .fedWithoutCeremony row code generic =>
    match readTotp db row.userId with
    | .error e => refuse db e
    | .ok totpRow =>
      match federatedProof P key draw totpRow code with
      | .ok proof => goOn db (.fedDecided row.id (some proof) generic)
      | .error e => refuse db e
  | .fedDecided pending proof generic => promoteFederated P key db draw pending proof generic
  | .fedRejected pending =>
    match db.federationMfaPending.get? pending with
    | some row => goOn db (.secondFactorRejected row.userId)
    | none => refuse db .unauthenticated
  | .fedPromoted generic =>
    match generic with
    | some pending => done (LoginPendingMfa.delete db pending) .running
    | none => done db .running
  | .secondFactorRejected user =>
    match recordSecondFactorFailure db user maxLockoutSecs draw.now with
    | .ok (_, db) => refuse db .unauthenticated
    | .error e => refuse db (.store e)
  | .changeSubmitted user currentPassword newHash keepCurrentSession revokeOthers =>
    checkCurrentPassword P db draw user currentPassword newHash keepCurrentSession revokeOthers
  | .changeVerified user _ replacement keepCurrentSession revokeOthers =>
    match changePasswordSelf db user replacement keepCurrentSession revokeOthers draw.now with
    | .ok (_, db) => done db (.passwordChanged replacement)
    | .error e => refuse db (.store e)

end Advance

/-! ## Runs -/

abbrev FlowId := Nat

/-- The database and the calls in flight.  The last field is a history that no
code reads: the first factor that a row of `login_pending_mfa` continues. -/
structure FlowWorld where
  db : Database
  calls : FlowId → Option FlowCall
  origins : PendingMfaId → Option FirstFactor

/-- No call is in flight. -/
def FlowWorld.start (db : Database) (origins : PendingMfaId → Option FirstFactor) :
    FlowWorld where
  db := db
  calls _ := none
  origins := origins

/-- A request, its next access, or another write. -/
inductive FlowEvent where
  | begin (call : FlowId) (request : FlowRequest)
  /-- The next access of a call. -/
  | next (call : FlowId) (draw : FlowDraw)
  -- U10, U12, U15
  | resetPassword (user : UserId) (token : ResetTokenId) (credential : CredentialRow)
      (consumedAt : DateTime) (hibpWarned : Bool)
  | confirmTotp (user : UserId) (sealedRecoveryCodes : Bytes) (lastUsedStep : Int)
      (now : DateTime)
  | registerPasskey (row : UserWebauthnCredentialRow)
  /-- The first half of a TOTP enrolment. -/
  | enrollTotp (user : UserId) (secretEnc : Bytes) (now : DateTime)
  | purgePending (now : DateTime)
  /-- A write to any other table. -/
  | elsewhere (db : Database)

namespace FlowWorld

/-- Carry out a transaction. -/
def commit (w : FlowWorld) (result : StoreResult Database) : FlowWorld × FlowAnswer :=
  match result with
  | .ok db => ({ w with db }, .committed (.ok ()))
  | .error e => (w, .committed (.error e))

/-- A write of the rest of the program: neither credentials nor factors nor
pending rows. -/
def overwrite (w : FlowWorld) (db : Database) : FlowWorld :=
  { w with
    db := { db with
      credentials := w.db.credentials
      userTotp := w.db.userTotp
      webauthnCredentials := w.db.webauthnCredentials
      loginPendingMfa := w.db.loginPendingMfa } }

end FlowWorld

/-- The first factor of a pending row that is issued at this point of a call. -/
def FlowCall.issuer : FlowCall → Option FirstFactor
  | .withFactor first _ => some first
  | .continuationIssued signIn _ => some (.federation signIn)
  | _ => none

section Steps

variable (P : Primitives) (key : MasterKey) (maxLockoutSecs : Int)

/-- The world after a step of the call. -/
def FlowWorld.after (w : FlowWorld) (id : FlowId) (call : FlowCall) (result : FlowResult) :
    FlowWorld where
  db := result.db
  calls := Function.update w.calls id result.next
  origins :=
    match result.out with
    | .mfaRequired row => Function.update w.origins row.id call.issuer
    | _ => w.origins

/-- One event. -/
def flowStep (w : FlowWorld) : FlowEvent → FlowWorld × FlowAnswer
  | .begin id request =>
    match w.calls id, request.start with
    | none, some call => ({ w with calls := Function.update w.calls id (some call) }, .running)
    | none, none => (w, .refused .unauthenticated)
    | some _, _ => (w, .ignored)
  | .next id draw =>
    match w.calls id with
    | none => (w, .ignored)
    | some call =>
      let result := call.advance P key maxLockoutSecs w.db draw
      (w.after id call result, result.out)
  | .resetPassword user token credential consumedAt hibpWarned =>
    w.commit ((consumeAndResetPassword w.db user token credential consumedAt hibpWarned).map (·.2))
  | .confirmTotp user sealedRecoveryCodes lastUsedStep now =>
    w.commit ((confirmTotpEnrollment w.db user sealedRecoveryCodes lastUsedStep now).map (·.2))
  | .registerPasskey row => w.commit ((registerPasskey w.db row).map (·.2))
  | .enrollTotp user secretEnc now => w.commit (UserTotp.upsertPending w.db user secretEnc now)
  | .purgePending now =>
    ({ w with db := LoginPendingMfa.purgeExpired w.db now }, .committed (.ok ()))
  | .elsewhere db => (w.overwrite db, .committed (.ok ()))

/-- A step of a run. -/
abbrev FlowTaken := Machine.Taken FlowWorld FlowEvent FlowAnswer

/-- The steps of a run. -/
abbrev flowTrace : FlowWorld → List FlowEvent → List FlowTaken :=
  Machine.trace (flowStep P key maxLockoutSecs)

end Steps

/-! ## A database to run on -/

/-- Identifiers and secrets that are not in use yet. -/
def FlowDraw.sample (now : DateTime) : FlowDraw where
  now := now
  sessionId := 40
  pendingId := 50
  userId := 60
  fedPendingId := 70
  nonce := .constant 0
  browserBinding := "b"
  csrf := "c"
  assertion := none

/-- User 7 with a password and a link to reset it. -/
def passwordDb : Database :=
  { Database.empty with
    users := ⟨[plainUser 7 "ben" .user], by decide⟩
    credentials := ⟨[⟨7, "old", 0⟩], by decide⟩
    passwordResetTokens := ⟨[{ id := 1, userId := 7, tokenHash := [], issuedAt := 0
                               expiresAt := seconds 3600, consumedAt := none
                               issuedVia := .email, revokedAt := none }], by decide⟩ }

/-- A confirmed authenticator of user 7, sealed under the key of sevens. -/
def sampleAuthenticator : UserTotpRow where
  userId := 7
  secretEnc := (Nonce.constant 1).bytes ++ ((MasterKey.constant 7).bytes ++ UserTotp.aad ++ [1])
  enabled := true
  recoveryCodesEnc := none
  lastUsedStep := -5
  createdAt := 0
  confirmedAt := some 0

/-- The table of that row. -/
def sampleAuthenticators : Table UserTotpRow.userId := ⟨[sampleAuthenticator], by decide⟩

end SuiId

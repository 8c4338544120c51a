import SuiId.Core.Exchange
import SuiId.Core.Mfa
import SuiId.Lib.Machine

/-!
# Concurrent calls

A `World` is the database, the calls in flight with what each of them has read
so far, and the rows a running `backfill_token_hashes` still has to visit.  An
`Event` is one access to the database: the next step of a call, or a command
that is a single transaction.  A list of events is an interleaving.

The world also records histories that no code reads, so that a run can be asked
to draw fresh values only (`Fresh`): the refresh tokens issued and presented so
far, and the authorization codes issued or presented.  The random generator
is outside the repository; that it repeats no value is the only thing assumed
about it.
-/

namespace SuiId

open Lib Lib.Result

abbrev CallId := Nat

/-- The columns of a refresh token that are written once. -/
structure Binding where
  id : RefreshTokenId
  familyId : FamilyId
  userId : UserId
  clientId : ClientId
  scope : String
  authMethods : List AuthMethod
deriving DecidableEq

/-- Whom a row is for. -/
def RefreshTokenRow.binding (r : RefreshTokenRow) : Binding :=
  ⟨r.id, r.familyId, r.userId, r.clientId, r.scope, r.authMethods⟩

/-- A refresh token of the history: its row's binding and its token's hash. -/
structure Issued where
  binding : Binding
  hash : Bytes

/-- A call in flight, with what it carries to its next step. -/
inductive Call where
  | codeChecked (req : CodeExchangeRequest)
  | codeVerified (req : CodeExchangeRequest) (row : AuthorizationCodeRow)
  | codeIssuable (req : CodeExchangeRequest) (grant : IssuableGrant)
  | codeSigned (req : CodeExchangeRequest) (grant : IssuableGrant) (jwt : JwtPair)
  | refreshChecked (req : RefreshExchangeRequest) (client : ClientRow)
  | refreshMissed (req : RefreshExchangeRequest) (client : ClientRow)
  | refreshFound (req : RefreshExchangeRequest) (client : ClientRow) (row : RefreshTokenRow)
  | refreshPermitted (req : RefreshExchangeRequest) (row : RefreshTokenRow)
      (email : Option (String × Bool))
  | refreshSigned (req : RefreshExchangeRequest) (row : RefreshTokenRow) (jwt : JwtPair)
  | mfaRead (pending : LoginPendingMfaRow)
  | mfaTotp (pending : LoginPendingMfaRow) (totpRow : UserTotpRow)

/-- The database, the calls in flight, and what was issued or presented. -/
structure World where
  db : Database
  calls : CallId → Option Call
  backfill : List (RefreshTokenId × Bytes)
  /-- Every refresh token issued so far. -/
  issued : List Issued
  /-- The hash of every refresh token presented so far. -/
  presented : List Bytes
  /-- The hash of every authorization code issued or presented so far. -/
  codes : List Bytes

/-- The transactions that are not a step of a call. -/
inductive Command where
  | revoke (id : RefreshTokenId) (now : DateTime)
  | revokeFamily (family : FamilyId) (now : DateTime)
  | revokeAllForUser (user : UserId) (now : DateTime)
  | revokeAllForClient (client : ClientId) (now : DateTime)
  | purgeExpired (now : DateTime)
  | purgeCodes (now : DateTime)
  | resealAll (oldKey newKey : MasterKey) (nonce : RefreshTokenId → Nonce)
  | disableUser (admin : UserId) (session : SessionId) (target : UserId)
      (reason : Option String) (now : DateTime)
  | enableUser (admin : UserId) (session : SessionId) (target : UserId) (now : DateTime)
  | deleteUser (admin : UserId) (session : SessionId) (target : UserId)
      (reason : Option String) (now : DateTime)
  | resetPassword (user : UserId) (token : ResetTokenId) (credential : CredentialRow)
      (consumedAt : DateTime) (hibpWarned : Bool)
  | revokeConsent (user : UserId) (client : ClientId)
  | grantConsent (user : UserId) (client : ClientId) (grantedScopes : String) (now : DateTime)
  | disableClient (admin : UserId) (target : ClientId) (reason : Option String) (now : DateTime)
  | enableClient (admin : UserId) (target : ClientId)
  | deleteClient (admin : UserId) (target : ClientId) (reason : Option String) (now : DateTime)
  | issuePendingMfa (row : LoginPendingMfaRow)

/-- The command's transaction. -/
def Command.perform (P : Primitives) (db : Database) : Command → StoreResult Database
  | .revoke id now => pure (RefreshTokens.revoke db id now)
  | .revokeFamily family now => pure (RefreshTokens.revokeFamily db family now)
  | .revokeAllForUser user now => pure (RefreshTokens.revokeAllForUser db user now)
  | .revokeAllForClient client now => pure (RefreshTokens.revokeAllForClient db client now)
  | .purgeExpired now => pure (RefreshTokens.purgeExpired db now)
  | .purgeCodes now => pure (AuthCodes.purgeExpired db now)
  | .resealAll oldKey newKey nonce => RefreshTokens.resealAll P oldKey newKey nonce db
  | .disableUser admin session target reason now =>
    (SuiId.disableUser db admin session target reason now).map (·.2)
  | .enableUser admin session target now =>
    (SuiId.enableUser db admin session target now).map (·.2)
  | .deleteUser admin session target reason now =>
    (SuiId.deleteUser db admin session target reason now).map (·.2)
  | .resetPassword user token credential consumedAt hibpWarned =>
    (consumeAndResetPassword db user token credential consumedAt hibpWarned).map (·.2)
  | .revokeConsent user client => (SuiId.revokeConsent db user client).map (·.2)
  | .grantConsent user client scopes now =>
    (SuiId.grantConsent db user client scopes now).map (·.2)
  | .disableClient admin target reason now =>
    (SuiId.disableClient db admin target reason now).map (·.2)
  | .enableClient admin target => (SuiId.enableClient db admin target).map (·.2)
  | .deleteClient admin target reason now =>
    (SuiId.deleteClient db admin target reason now).map (·.2)
  | .issuePendingMfa row => LoginPendingMfa.insert db row

/-- The steps of the calls, and the commands. -/
inductive Event where
  -- `exchange_code`
  | codeBegin (call : CallId) (req : CodeExchangeRequest)
  | codeConsume (call : CallId) (now : DateTime)
  | codeResolveUser (call : CallId)
  | codeSign (call : CallId) (draw : SigningDraw)
  | codeIssue (call : CallId) (draw : TokenDraw)
  -- `exchange_refresh`
  | refreshBegin (call : CallId) (req : RefreshExchangeRequest)
  | refreshFindByHash (call : CallId)
  | refreshFindByScan (call : CallId) (key : MasterKey)
  | refreshPermit (call : CallId)
  | refreshSign (call : CallId) (draw : SigningDraw)
  | refreshRotate (call : CallId) (draw : TokenDraw)
  -- `verify_pending`
  | mfaBegin (call : CallId) (pending : PendingMfaId) (now : DateTime)
  | mfaReadTotp (call : CallId)
  | mfaFinish (call : CallId) (key : MasterKey) (nonce : Nonce) (codeInput : String)
      (checkedAt : DateTime) (sessionId : SessionId) (maxLockoutSecs : Int) (now : DateTime)
  -- single transactions
  | insertInitial (draw : TokenDraw) (user : UserId) (client : ClientId) (scope : String)
      (authMethods : List AuthMethod)
  | completeAuthorization (row : AuthorizationCodeRow)
  | backfillRead
  | backfillWrite (key : MasterKey)
  | resolve (session : SessionId) (now : DateTime)
  | command (command : Command)

/-- What an event answers. -/
inductive Answer where
  /-- The event is not the next step of that call. -/
  | ignored
  | running
  | refused (error : CoreError)
  | issued (tokens : TokenSet)
  | rotation (outcome : StoreResult RefreshTokens.T04Outcome) (result : CoreResult TokenSet)
  | signedIn (result : CoreResult SessionRow)
  | resolved (result : CoreResult UserId)
  | committed (result : StoreResult Unit)

namespace World

/-- The call ends. -/
def endCall (w : World) (call : CallId) : World :=
  { w with calls := Function.update w.calls call none }

/-- The call goes on with `next`. -/
def goOn (w : World) (call : CallId) (next : Call) : World :=
  { w with calls := Function.update w.calls call (some next) }

/-- Go on with the result, or end the call with its error. -/
def goOnWith {α : Type} (w : World) (call : CallId) (result : CoreResult α) (next : α → Call) :
    World × Answer :=
  match result with
  | .ok a => (w.goOn call (next a), .running)
  | .error e => (w.endCall call, .refused e)

/-- Record an inserted refresh token in the history. -/
def record (w : World) (row : RefreshTokenRow) (hash : Bytes) : World :=
  { w with issued := w.issued ++ [⟨row.binding, hash⟩] }

end World

variable (P : Primitives) (ctx : IssuanceContext)

/-- T09 at the end of `exchange_code`. -/
def issueStep (w : World) (call : CallId) (draw : TokenDraw) (req : CodeExchangeRequest)
    (grant : IssuableGrant) (jwt : JwtPair) : World × Answer :=
  match issueFor P w.db ctx draw req.clientId grant jwt with
  | .ok (tokens, db) =>
    let row := freshRow draw ctx.lifetimes grant.userId req.clientId grant.row.scope
      grant.row.authMethods draw.id
    (({ w with db }.record row (P.sha256 draw.rawToken)).endCall call, .issued tokens)
  | .error e => (w.endCall call, .refused e)

/-- T04 at the end of `exchange_refresh`. -/
def rotateStep (w : World) (call : CallId) (draw : TokenDraw) (req : RefreshExchangeRequest)
    (preliminary : RefreshTokenRow) (jwt : JwtPair) : World × Answer :=
  match rotateWith P w.db ctx draw req preliminary with
  | .ok (.rotated successor rawToken, db) =>
    (({ w with db }.record successor (P.sha256 rawToken)).endCall call,
      .rotation (.ok (.rotated successor rawToken))
        (refreshAnswer preliminary jwt (.ok (.rotated successor rawToken))))
  | .ok (.theftDetected n, db) =>
    ({ w with db }.endCall call,
      .rotation (.ok (.theftDetected n)) (refreshAnswer preliminary jwt (.ok (.theftDetected n))))
  | .error e =>
    (w.endCall call, .rotation (.error e) (refreshAnswer preliminary jwt (.error e)))

/-- The end of `verify_pending`: check the code, then L02 or L07. -/
def finishStep (w : World) (call : CallId) (pending : LoginPendingMfaRow)
    (checked : CoreResult (Option SecondFactorProof × AuthMethod)) (sessionId : SessionId)
    (maxLockoutSecs : Int) (now : DateTime) : World × Answer :=
  match checked with
  | .ok (proof, method) =>
    let (result, db) := finishPending w.db pending proof method sessionId maxLockoutSecs now
    ({ w with db }.endCall call, .signedIn result)
  | .error e => (w.endCall call, .signedIn (.error e))

/-- A direct call of T09, for a root with this binding. -/
def insertInitialStep (w : World) (draw : TokenDraw) (user : UserId) (client : ClientId)
    (scope : String) (authMethods : List AuthMethod) : World × Answer :=
  let row := freshRow draw ctx.lifetimes user client scope authMethods draw.id
  match (do
    let prepared ← prepareDrawn P draw row
    RefreshTokens.insertInitialRefreshToken w.db prepared : StoreResult Database) with
  | .ok db => ({ w with db }.record row (P.sha256 draw.rawToken), .committed (.ok ()))
  | .error e => (w, .committed (.error e))

/-- One event.  An event that is not the next step of its call is ignored. -/
def worldStep (w : World) : Event → World × Answer
  | .codeBegin call req =>
    match w.calls call with
    | none =>
      { w with codes := codeHashOf P req.code :: w.codes }.goOnWith call
        (checkClient P w.db req.clientId req.clientSecret req.clientSecretChannel)
        fun _ => .codeChecked req
    | some _ => (w, .ignored)
  | .codeConsume call now =>
    match w.calls call with
    | some (.codeChecked req) =>
      let (result, db) := consumeCode P w.db req now
      { w with db }.goOnWith call result (.codeVerified req)
    | _ => (w, .ignored)
  | .codeResolveUser call =>
    match w.calls call with
    | some (.codeVerified req row) =>
      w.goOnWith call (resolveUser w.db row) (.codeIssuable req)
    | _ => (w, .ignored)
  | .codeSign call draw =>
    match w.calls call with
    | some (.codeIssuable req grant) =>
      w.goOnWith call
        (issueJwtPair P w.db ctx draw grant.userId req.clientId grant.row.scope grant.row.nonce
          grant.row.authMethods grant.email)
        (.codeSigned req grant)
    | _ => (w, .ignored)
  | .codeIssue call draw =>
    match w.calls call with
    | some (.codeSigned req grant jwt) => issueStep P ctx w call draw req grant jwt
    | _ => (w, .ignored)
  | .refreshBegin call req =>
    match w.calls call with
    | none =>
      { w with presented := P.sha256 req.refreshToken :: w.presented }.goOnWith call
        (checkClient P w.db req.clientId req.clientSecret req.clientSecretChannel)
        (.refreshChecked req)
    | some _ => (w, .ignored)
  | .refreshFindByHash call =>
    match w.calls call with
    | some (.refreshChecked req client) =>
      match RefreshTokens.findAnyByHash P w.db req.refreshToken with
      | some row => (w.goOn call (.refreshFound req client row), .running)
      | none => (w.goOn call (.refreshMissed req client), .running)
    | _ => (w, .ignored)
  | .refreshFindByScan call key =>
    match w.calls call with
    | some (.refreshMissed req client) =>
      match RefreshTokens.findAnyByScan P key w.db req.refreshToken with
      | some row => (w.goOn call (.refreshFound req client row), .running)
      | none => (w.endCall call, .refused invalidGrant)
    | _ => (w, .ignored)
  | .refreshPermit call =>
    match w.calls call with
    | some (.refreshFound req client row) =>
      w.goOnWith call ((refreshPolicy P req client row).map fun _ => readEmail w.db row)
        (.refreshPermitted req row)
    | _ => (w, .ignored)
  | .refreshSign call draw =>
    match w.calls call with
    | some (.refreshPermitted req row email) =>
      w.goOnWith call
        (issueJwtPair P w.db ctx draw row.userId row.clientId row.scope none row.authMethods email)
        (.refreshSigned req row)
    | _ => (w, .ignored)
  | .refreshRotate call draw =>
    match w.calls call with
    | some (.refreshSigned req row jwt) => rotateStep P ctx w call draw req row jwt
    | _ => (w, .ignored)
  | .mfaBegin call pending now =>
    match w.calls call with
    | none =>
      let (result, db) := readPending w.db pending now
      { w with db }.goOnWith call result .mfaRead
    | some _ => (w, .ignored)
  | .mfaReadTotp call =>
    match w.calls call with
    | some (.mfaRead pending) =>
      w.goOnWith call (readTotp w.db pending.userId) (.mfaTotp pending)
    | _ => (w, .ignored)
  | .mfaFinish call key nonce codeInput checkedAt sessionId maxLockoutSecs now =>
    match w.calls call with
    | some (.mfaTotp pending totpRow) =>
      finishStep w call pending (checkCode P key nonce totpRow codeInput checkedAt) sessionId
        maxLockoutSecs now
    | _ => (w, .ignored)
  | .insertInitial draw user client scope authMethods =>
    insertInitialStep P ctx w draw user client scope authMethods
  | .completeAuthorization row =>
    match AuthCodes.insert w.db row with
    | .ok db => ({ w with db, codes := row.codeHash :: w.codes }, .committed (.ok ()))
    | .error e => (w, .committed (.error e))
  | .backfillRead => ({ w with backfill := RefreshTokens.backfillRead w.db }, .committed (.ok ()))
  | .backfillWrite key =>
    match w.backfill with
    | entry :: rest =>
      ({ w with db := RefreshTokens.backfillWrite P key w.db entry, backfill := rest },
        .committed (.ok ()))
    | [] => (w, .ignored)
  | .resolve session now =>
    let (result, db) := SuiId.resolve w.db now session
    ({ w with db }, .resolved result)
  | .command command =>
    match command.perform P w.db with
    | .ok db => ({ w with db }, .committed (.ok ()))
    | .error e => (w, .committed (.error e))

/-- The call that the event is a step of. -/
def Event.call : Event → Option CallId
  | .codeBegin call _ | .codeConsume call _ | .codeResolveUser call | .codeSign call _
  | .codeIssue call _ | .refreshBegin call _ | .refreshFindByHash call | .refreshFindByScan call _
  | .refreshPermit call | .refreshSign call _ | .refreshRotate call _ | .mfaBegin call _ _
  | .mfaReadTotp call | .mfaFinish call _ _ _ _ _ _ _ => some call
  | _ => none

/-- `auth_codes::invalidate_all_for_user` may also run by itself. -/
inductive CodeEvent where
  | endpoint (e : Event)
  | invalidateAllForUser (user : UserId)

/-- One event. -/
def codeStep (w : World) : CodeEvent → World × Answer
  | .endpoint e => worldStep P ctx w e
  | .invalidateAllForUser user =>
    ({ w with db := AuthCodes.invalidateAllForUser w.db user }, .committed (.ok ()))

/-- The user and client of the root that T09 inserts in this event. -/
def rootGrant (w : World) : Event → Option (UserId × ClientId)
  | .codeIssue call _ =>
    match w.calls call with
    | some (.codeSigned req grant _) => some (grant.userId, req.clientId)
    | _ => none
  | .insertInitial _ user client _ _ => some (user, client)
  | _ => none

/-! ## Fresh draws -/

/-- Is this a new identifier and a new token? -/
def freshDraw (w : World) (draw : TokenDraw) : Prop :=
  (∀ e ∈ w.issued, e.binding.id ≠ draw.id ∧ e.binding.familyId ≠ draw.id ∧
    e.hash ≠ P.sha256 draw.rawToken) ∧ P.sha256 draw.rawToken ∉ w.presented

/-- What the event draws at random repeats no earlier value. -/
def Fresh (w : World) : Event → Prop
  | .codeIssue _ draw | .refreshRotate _ draw | .insertInitial draw _ _ _ _ => freshDraw P w draw
  | .completeAuthorization row => row.codeHash ∉ w.codes
  | _ => True

instance (w : World) (draw : TokenDraw) : Decidable (freshDraw P w draw) :=
  inferInstanceAs (Decidable ((∀ e ∈ w.issued, _) ∧ _))

instance decidableFresh (w : World) : (e : Event) → Decidable (Fresh P w e)
  | .codeIssue _ draw => inferInstanceAs (Decidable (freshDraw P w draw))
  | .refreshRotate _ draw => inferInstanceAs (Decidable (freshDraw P w draw))
  | .insertInitial draw _ _ _ _ => inferInstanceAs (Decidable (freshDraw P w draw))
  | .completeAuthorization row => inferInstanceAs (Decidable (row.codeHash ∉ w.codes))
  | .codeBegin .. | .codeConsume .. | .codeResolveUser .. | .codeSign .. | .refreshBegin ..
  | .refreshFindByHash .. | .refreshFindByScan .. | .refreshPermit .. | .refreshSign ..
  | .mfaBegin .. | .mfaReadTotp .. | .mfaFinish .. | .backfillRead | .backfillWrite ..
  | .resolve .. | .command .. => inferInstanceAs (Decidable True)

end SuiId

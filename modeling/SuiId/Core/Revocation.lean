import SuiId.Core.Caches
import SuiId.Core.Endpoint
import SuiId.Store.RevokedTokens

/-!
# Introspection and revocation

`oauth_token.rs` (`introspect`, `revoke`) and `userinfo`, cut at their accesses to the database.  A
call tries the two kinds of token in the order of its hint: it verifies the token as an access
token, or looks it up as a refresh token by hash and then by scan.  What it has found it checks
against the deny-list or writes in a later step.

A `RevocationEvent` is a step of such a call, a step of the token endpoint (`Event`), or a purge of
the deny-list.  The refresh tokens are purged by a `Command`.

No code reads the clock of a world or the number of its events so far.  They say that the times of
a run do not decrease, and which calls begin after an event.
-/

namespace SuiId

open Lib Lib.Result

/-- What the endpoints work with: the algorithms, the lifetimes, the readers of a token, the master
key and the parser of identifiers. -/
structure TokenServer where
  P : Primitives
  ctx : IssuanceContext
  J : JwtPackages
  key : MasterKey
  parseId : String → Option Nat

/-- `DateTime::from_timestamp`. -/
def fromTimestamp (secs : Int) : Option DateTime :=
  if -8334601228800 ≤ secs ∧ secs ≤ 8210266876799 then some (seconds secs) else none

/-! ## Calls -/

/-- The kinds of tokens. -/
inductive TokenKind where
  | accessToken
  | refreshToken
deriving DecidableEq

/-- The endpoints that take a token. -/
inductive TokenUse where
  | revoke
  | introspect
deriving DecidableEq

/-- A request with a token. -/
inductive TokenRequest where
  /-- `revoke` or `introspect`, for the authenticated client. -/
  | query (use : TokenUse) (client : ClientId) (token : String) (hint : Option String)
  | userinfo (token : String)
deriving DecidableEq

/-- The token of a request. -/
def TokenRequest.token : TokenRequest → String
  | .query _ _ token _ => token
  | .userinfo token => token

/-- The request revokes. -/
def TokenRequest.isRevoke : TokenRequest → Bool
  | .query .revoke _ _ _ => true
  | _ => false

/-- What a call does next, with what it carries. -/
inductive TokenStage where
  | trying (kind : TokenKind) (rest : List TokenKind)
  | verified (claims : AccessTokenClaims) (rest : List TokenKind)
  | permitted (claims : AccessTokenClaims)
  /-- `find_active` has not found it by hash, at this time. -/
  | missed (now : DateTime) (rest : List TokenKind)
  | found (row : RefreshTokenRow)

/-- `IntrospectionResponse`. -/
structure IntrospectionResponse where
  active : Bool
  scope : Option String
  clientId : Option String
  username : Option String
  tokenType : Option String
  exp : Option Int
  iat : Option Int
  sub : Option String
  aud : Option String
  iss : Option String
  kind : Option String
deriving DecidableEq

/-- `IntrospectionResponse::inactive`. -/
def IntrospectionResponse.inactive : IntrospectionResponse :=
  ⟨false, none, none, none, none, none, none, none, none, none, none⟩

/-- `UserInfo`. -/
structure UserInfo where
  sub : String
  preferredUsername : Option String
  name : Option String
  email : Option String
  emailVerified : Option Bool
deriving DecidableEq

/-- Why `/userinfo` refuses. -/
inductive UserinfoError where
  | jwt
  | unauthenticated
  | internal
deriving DecidableEq

/-- The refusal of a token that does not verify. -/
def UserinfoError.ofToken : TokenError → UserinfoError
  | .jwt => .jwt
  | .unauthenticated => .unauthenticated

/-- What an event answers. -/
inductive TokenAnswer where
  /-- The event is not the next step of that call. -/
  | ignored
  | running
  | purged
  | endpoint (answer : Answer)
  | revoked (result : CoreResult Unit)
  | introspected (result : CoreResult IntrospectionResponse)
  | userinfo (result : Except UserinfoError UserInfo)

/-- What an access leads to. -/
inductive TokenOutcome where
  | goesOn (stage : TokenStage)
  | answers (answer : TokenAnswer)

/-- The next turn of the loop, or what follows the loop. -/
def TokenUse.nextKind (use : TokenUse) : List TokenKind → TokenOutcome
  | kind :: rest => .goesOn (.trying kind rest)
  | [] =>
    match use with
    | .revoke => .answers (.revoked (.ok ()))
    | .introspect => .answers (.introspected (.ok .inactive))

/-- The tables that the endpoints read and write. -/
structure TokenTables where
  db : Database
  denyList : DenyList

/-- What a step reads of the clock and of the cached signing keys. -/
structure StepDraw where
  now : DateTime
  keys : List CachedSigningKey

/-! ## Steps of a call -/

section Advance

variable (T : TokenServer) (tables : TokenTables)

/-- `verify_access_token` and the check of the audience. -/
def verifyQuery (use : TokenUse) (client : ClientId) (token : String) (rest : List TokenKind)
    (now : DateTime) : TokenOutcome :=
  match verifyAccessToken T.J tables.db now token with
  | .error _ => use.nextKind rest
  | .ok claims =>
    match T.parseId claims.aud, use with
    | none, .introspect => .answers (.introspected (.error .internal))
    | aud, _ => if aud = some client then .goesOn (.verified claims rest) else use.nextKind rest

/-- The end of `try_revoke_access`. -/
def denyClaims (client : ClientId) (claims : AccessTokenClaims) (now : DateTime) :
    TokenTables × TokenOutcome :=
  match fromTimestamp claims.exp with
  | none => (tables, .answers (.revoked (.error .internal)))
  | some exp =>
    let row := ⟨claims.jti, now, exp, T.parseId claims.sub, some client⟩
    match RevokedAccessTokens.insert tables.denyList tables.db row with
    | .ok denyList => ({ tables with denyList }, .answers (.revoked (.ok ())))
    | .error e => (tables, .answers (.revoked (.error (.store e))))

/-- `active_from_access`. -/
def activeFromAccess (claims : AccessTokenClaims) : IntrospectionResponse where
  active := true
  scope := some claims.scope
  clientId := some claims.aud
  username := ((T.parseId claims.sub).bind tables.db.users.get?).map (·.username)
  tokenType := some "Bearer"
  exp := some claims.exp
  iat := some claims.iat
  sub := some claims.sub
  aud := some claims.aud
  iss := some claims.iss
  kind := some "access_token"

/-- The end of `try_introspect_refresh`. -/
def activeFromRefresh (row : RefreshTokenRow) : IntrospectionResponse where
  active := true
  scope := some row.scope
  clientId := some (toString row.clientId)
  username := (tables.db.users.get? row.userId).map (·.username)
  tokenType := some "Bearer"
  exp := some (timestamp row.expiresAt)
  iat := some (timestamp row.createdAt)
  sub := some (toString row.userId)
  aud := some (toString row.clientId)
  iss := none
  kind := some "refresh_token"

/-- The end of `userinfo`. -/
def userinfoAnswer (claims : AccessTokenClaims) : Except UserinfoError UserInfo := do
  let uid ← require (T.parseId claims.sub) .internal
  let row ← require (tables.db.users.get? uid) .unauthenticated
  ensure (!(row.isDisabled || row.isDeleted)) .unauthenticated
  let email := if scopeHas claims.scope "email" then row.email else none
  pure
    { sub := toString row.id, preferredUsername := some row.username, name := row.displayName
      email, emailVerified := email.map fun _ => row.emailVerifiedAt.isSome }

/-- `find_active` has found a row. -/
def TokenUse.foundRow (use : TokenUse) (client : ClientId) (row : RefreshTokenRow)
    (rest : List TokenKind) : TokenOutcome :=
  if row.clientId = client then .goesOn (.found row) else use.nextKind rest

/-- The next access of a call. -/
def TokenServer.advance (draw : StepDraw) : TokenRequest → TokenStage → TokenTables × TokenOutcome
  | .query use client token _, .trying .accessToken rest =>
    (tables, verifyQuery T tables use client token rest draw.now)
  | .query use client token _, .trying .refreshToken rest =>
    match RefreshTokens.findActiveByHash T.P tables.db draw.now (utf8 token) with
    | some row => (tables, use.foundRow client row rest)
    | none => (tables, .goesOn (.missed draw.now rest))
  | .query use client token _, .missed now rest =>
    match RefreshTokens.findActiveByScan T.P T.key tables.db now (utf8 token) with
    | some row => (tables, use.foundRow client row rest)
    | none => (tables, use.nextKind rest)
  | .query .revoke client _ _, .verified claims _ => denyClaims T tables client claims draw.now
  | .query .introspect _ _ _, .verified claims rest =>
    if RevokedAccessTokens.isRevoked tables.denyList claims.jti then
      (tables, TokenUse.introspect.nextKind rest)
    else (tables, .goesOn (.permitted claims))
  | .query .introspect _ _ _, .permitted claims =>
    (tables, .answers (.introspected (.ok (activeFromAccess T tables claims))))
  | .query .revoke _ _ _, .found row =>
    ({ tables with db := RefreshTokens.revoke tables.db row.id draw.now },
      .answers (.revoked (.ok ())))
  | .query .introspect _ _ _, .found row =>
    (tables, .answers (.introspected (.ok (activeFromRefresh tables row))))
  | .userinfo token, .trying .accessToken rest =>
    match verifyAccessTokenWith T.J draw.keys draw.now token with
    | .ok claims => (tables, .goesOn (.verified claims rest))
    | .error e => (tables, .answers (.userinfo (.error (.ofToken e))))
  | .userinfo _, .verified claims _ =>
    if RevokedAccessTokens.isRevoked tables.denyList claims.jti then
      (tables, .answers (.userinfo (.error .unauthenticated)))
    else (tables, .goesOn (.permitted claims))
  | .userinfo _, .permitted claims =>
    (tables, .answers (.userinfo (userinfoAnswer T tables claims)))
  | _, _ => (tables, .answers .ignored)

end Advance

/-- The first step of a call: the hint decides which kind is tried first. -/
def TokenRequest.start : TokenRequest → TokenStage
  | .query _ _ _ hint =>
    if hint = some "refresh_token" then .trying .refreshToken [.accessToken]
    else .trying .accessToken [.refreshToken]
  | .userinfo _ => .trying .accessToken []

/-! ## A call by itself -/

/-- The clock as an uninterrupted call reads it, by what the reading is for. -/
structure TokenTimes where
  verify : DateTime
  find : DateTime
  write : DateTime

/-- The clock value of a stage. -/
def TokenTimes.at (times : TokenTimes) : TokenStage → DateTime
  | .trying .accessToken _ => times.verify
  | .trying .refreshToken _ => times.find
  | _ => times.write

/-- An uninterrupted call, for at most so many steps. -/
def runAlone (T : TokenServer) (times : TokenTimes) (keys : List CachedSigningKey)
    (request : TokenRequest) : Nat → TokenTables → TokenStage → TokenTables × TokenOutcome
  | 0, tables, stage => (tables, .goesOn stage)
  | n + 1, tables, stage =>
    match T.advance tables ⟨times.at stage, keys⟩ request stage with
    | (tables, .goesOn stage) => runAlone T times keys request n tables stage
    | (tables, .answers answer) => (tables, .answers answer)

/-- Each kind takes at most three steps. -/
def callAlone (T : TokenServer) (times : TokenTimes) (keys : List CachedSigningKey)
    (tables : TokenTables) (request : TokenRequest) : TokenTables × TokenOutcome :=
  runAlone T times keys request 6 tables request.start

/-! ## Runs -/

/-- A call in flight.  What its token was when it began is kept with it; no code reads it. -/
structure TokenCall where
  id : CallId
  request : TokenRequest
  stage : TokenStage
  /-- The number of events before it. -/
  begunAt : Nat
  /-- The claims of a valid access token of the client. -/
  access : Option AccessTokenClaims
  /-- The row of an active refresh token of the client. -/
  refresh : Option Binding

/-- The tables and the requests in flight. -/
structure RevocationWorld where
  world : World
  denyList : DenyList
  calls : Table TokenCall.id
  clock : DateTime
  events : Nat

/-- The tables that requests read. -/
def RevocationWorld.tables (w : RevocationWorld) : TokenTables := ⟨w.world.db, w.denyList⟩

/-- A request, its next access, or another write. -/
inductive RevocationEvent where
  | endpoint (e : Event)
  | begin (id : CallId) (request : TokenRequest) (now : DateTime)
  | next (id : CallId) (draw : StepDraw)
  | purgeDenyList (now : DateTime)

/-- The times that decide something here: those of T04, of a call and of the purges. -/
def RevocationEvent.time : RevocationEvent → Option DateTime
  | .endpoint (.refreshRotate _ draw) => some draw.now
  | .endpoint (.command (.purgeExpired now)) => some now
  | .endpoint _ => none
  | .begin _ _ now => some now
  | .next _ draw => some draw.now
  | .purgeDenyList now => some now

section Step

variable (T : TokenServer)

/-- The claims of an access token that is active. -/
def activeAccess (db : Database) (now : DateTime) : TokenRequest → Option AccessTokenClaims
  | .query _ client token _ =>
    (verifyAccessToken T.J db now token).toOption.filter fun claims =>
      T.parseId claims.aud = some client
  | .userinfo _ => none

/-- Whom an active refresh token is for. -/
def activeRefresh (db : Database) (now : DateTime) : TokenRequest → Option Binding
  | .query _ client token _ =>
    ((RefreshTokens.findActive T.P T.key db now (utf8 token)).filter fun row =>
      row.clientId = client).map (·.binding)
  | .userinfo _ => none

/-- A call has taken a step. -/
def RevocationWorld.after (w : RevocationWorld) (id : CallId) (tables : TokenTables) :
    TokenOutcome → RevocationWorld × TokenAnswer
  | .goesOn stage =>
    ({ w with
        world := { w.world with db := tables.db }, denyList := tables.denyList
        calls := w.calls.update (fun c => c.id == id) fun c => { c with stage } }, .running)
  | .answers answer =>
    ({ w with
        world := { w.world with db := tables.db }, denyList := tables.denyList
        calls := w.calls.delete fun c => c.id == id }, answer)

/-- An event, without the clock. -/
def RevocationWorld.perform (w : RevocationWorld) :
    RevocationEvent → RevocationWorld × TokenAnswer
  | .endpoint e =>
    let (world, answer) := worldStep T.P T.ctx w.world e
    ({ w with world }, .endpoint answer)
  | .begin id request now =>
    match w.calls.insert?
      { id, request, stage := request.start, begunAt := w.events
        access := activeAccess T w.world.db now request
        refresh := activeRefresh T w.world.db now request } with
    | some calls => ({ w with calls }, .running)
    | none => (w, .ignored)
  | .next id draw =>
    match w.calls.get? id with
    | some c =>
      let (tables, outcome) := T.advance w.tables draw c.request c.stage
      w.after id tables outcome
    | none => (w, .ignored)
  | .purgeDenyList now =>
    ({ w with denyList := RevokedAccessTokens.purgeExpired w.denyList now }, .purged)

/-- One event. -/
def revocationStep (w : RevocationWorld) (e : RevocationEvent) : RevocationWorld × TokenAnswer :=
  let (w', answer) := w.perform T e
  ({ w' with clock := e.time.getD w.clock, events := w.events + 1 }, answer)

end Step

end SuiId

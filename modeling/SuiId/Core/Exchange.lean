import SuiId.Core.Tokens

/-!
# The token endpoint

`exchange_code` and `exchange_refresh` (`oidc/authorize.rs`), cut at every
access to the database.  Each access is one function here, so that a machine
can run other transactions between two of them:

* `exchange_code`: `checkClient`, `consumeCode` (with the binding and PKCE
  checks, which read nothing), `resolveUser`, `issueJwtPair`, `issueFor`;
* `exchange_refresh`: `checkClient`, the two reads of `find_any`,
  `refreshPolicy` and `readEmail`, `issueJwtPair`, `rotate`.

Best-effort audit appends outside a command's transaction and log lines are
left out.
-/

namespace SuiId

open Lib Lib.Result

/-- `CredentialChannel`. -/
inductive CredentialChannel where
  | basic
  | body
  | both
deriving DecidableEq

/-- `CodeExchangeRequest`. -/
structure CodeExchangeRequest where
  code : String
  redirectUri : String
  clientId : ClientId
  clientSecret : Option String
  clientSecretChannel : CredentialChannel
  codeVerifier : String

/-- `RefreshExchangeRequest`. -/
structure RefreshExchangeRequest where
  refreshToken : Bytes
  clientId : ClientId
  clientSecret : Option String
  clientSecretChannel : CredentialChannel

/-! ## Authenticating the client -/

/-- `invalid_client`. -/
def invalidClient (description : String) : CoreError := .protocol .invalidClient description

/-- `authenticate_client`. -/
def authenticateClient (P : Primitives) (client : ClientRow) (secret : Option String)
    (channel : CredentialChannel) : CoreResult Unit :=
  if !client.confidential then
    ensure secret.isNone (invalidClient
      ("client is registered with token_endpoint_auth_method \"none\" " ++
        "and must not present a client_secret"))
  else do
    let stored ← require client.secretHash
      (invalidClient "client is confidential but has no stored secret")
    let provided ← require secret (invalidClient "client_secret is required")
    match client.tokenEndpointAuthMethod with
    | none => pure ()
    | some (.unknown raw) =>
      .error (invalidClient ("client's registered token_endpoint_auth_method (\"" ++ raw ++
        "\") is not recognised by this build"))
    | some .none =>
      .error (invalidClient ("client's registered token_endpoint_auth_method is \"none\", " ++
        "which does not accept a client_secret on any channel"))
    | some .clientSecretBasic =>
      ensure (channel == .basic) (invalidClient
        ("client's registered token_endpoint_auth_method is client_secret_basic; " ++
          "the secret must be presented via the Authorization: Basic header"))
    | some .clientSecretPost =>
      ensure (channel == .body) (invalidClient
        ("client's registered token_endpoint_auth_method is client_secret_post; " ++
          "the secret must be presented in the request body, not the Authorization header"))
    ensure (P.verifyPassword provided stored) (invalidClient "client authentication failed")

/-- The first step of both exchanges: an unknown, disabled or deleted client
reads like a wrong secret. -/
def checkClient (P : Primitives) (db : Database) (id : ClientId) (secret : Option String)
    (channel : CredentialChannel) : CoreResult ClientRow := do
  let client ← require (db.clients.get? id) (invalidClient "client authentication failed")
  ensure (!(client.isDisabled || client.isDeleted)) (invalidClient "client authentication failed")
  authenticateClient P client secret channel
  pure client

/-! ## The authorization-code grant -/

/-- `CodeHash::of`, before its hexadecimal spelling. -/
def codeHashOf (P : Primitives) (code : String) : Bytes := P.sha256 (utf8 code)

/-- `bind_code`. -/
def bindCode (req : CodeExchangeRequest) (row : AuthorizationCodeRow) : CoreResult Unit := do
  ensure (row.clientId == req.clientId)
    (.protocol .invalidGrant "code was issued to a different client")
  ensure (row.redirectUri == req.redirectUri)
    (.protocol .invalidGrant "redirect_uri does not match the original")

/-- Consume the code, then check its bindings and PKCE.  A failed check leaves
the code consumed. -/
def consumeCode (P : Primitives) (db : Database) (req : CodeExchangeRequest) (now : DateTime) :
    CoreResult AuthorizationCodeRow × Database :=
  match AuthCodes.consume db (codeHashOf P req.code) now with
  | .error .notFound =>
    (.error (.protocol .invalidGrant "code is unknown, expired, or already used"), db)
  | .error e => (.error (.store e), db)
  | .ok (row, db) =>
    (do
      bindCode req row
      verifyPkce P row.codeChallengeMethod req.codeVerifier row.codeChallenge
      pure row, db)

/-- `IssuableGrant`. -/
structure IssuableGrant where
  row : AuthorizationCodeRow
  userId : UserId
  email : Option (String × Bool)

/-- The e-mail claims of a user. -/
def emailClaims (u : UserRow) : Option (String × Bool) :=
  u.email.map fun addr => (addr, u.emailVerifiedAt.isSome)

/-- `resolve_user`. -/
def resolveUser (db : Database) (row : AuthorizationCodeRow) : CoreResult IssuableGrant := do
  let user ← require (db.users.get? row.userId) (.protocol .invalidGrant "user not found")
  ensure (!(user.isDisabled || user.isDeleted))
    (.protocol .invalidGrant "user account is not active")
  pure ⟨row, user.id, emailClaims user⟩

/-- What one exchange draws and reads from the clock for its refresh token. -/
structure TokenDraw where
  now : DateTime
  key : MasterKey
  id : RefreshTokenId
  rawToken : Bytes
  nonce : Nonce

/-- The row of a new refresh token, before its token is sealed. -/
def freshRow (draw : TokenDraw) (lifetimes : TokenLifetimes) (user : UserId) (client : ClientId)
    (scope : String) (authMethods : List AuthMethod) (family : FamilyId) : RefreshTokenRow :=
  { id := draw.id, tokenEnc := [], tokenHash := none, userId := user, clientId := client, scope
    expiresAt := draw.now + seconds lifetimes.refreshSecs, revokedAt := none
    createdAt := draw.now, authMethods, familyId := family }

/-- `prepare_refresh_token` of such a row. -/
def prepareDrawn (P : Primitives) (draw : TokenDraw) (row : RefreshTokenRow) :
    StoreResult RefreshTokens.PreparedRefreshToken :=
  RefreshTokens.prepareRefreshToken P draw.key draw.nonce draw.rawToken row

/-- The end of `issue_for`: prepare a root and insert it (T09). -/
def issueFor (P : Primitives) (db : Database) (ctx : IssuanceContext) (draw : TokenDraw)
    (clientId : ClientId) (grant : IssuableGrant) (jwt : JwtPair) :
    CoreResult (TokenSet × Database) := do
  let row := freshRow draw ctx.lifetimes grant.userId clientId grant.row.scope
    grant.row.authMethods draw.id
  let prepared ← (prepareDrawn P draw row).mapError .store
  let db ← (RefreshTokens.insertInitialRefreshToken db prepared).mapError .store
  pure (⟨jwt.accessToken, jwt.idToken, prepared.rawToken, jwt.accessExpiresIn, some grant.userId⟩,
    db)

/-! ## The refresh-token grant -/

/-- `invalid_grant`. -/
def invalidGrant : CoreError := .protocol .invalidGrant "refresh token is unknown or revoked"

/-- A list of texts as `{:?}` prints it. -/
def debugList (P : Primitives) (texts : List String) : String :=
  "[" ++ ", ".intercalate (texts.map P.debug) ++ "]"

/-- `enforce_scope_policy`. -/
def enforceScopePolicy (P : Primitives) (allowed requested clientName : String) :
    CoreResult Unit :=
  let allowedTrimmed := Text.trim allowed
  if allowedTrimmed.isEmpty then pure ()
  else
    match (Text.splitWhitespace requested).find? fun tok =>
        !(Text.splitWhitespace allowedTrimmed).contains tok with
    | none => pure ()
    | some tok =>
      .error (.protocol .invalidScope
        ("scope " ++ P.debug tok ++ " is not permitted for client " ++ P.debug clientName ++
          " (allowed: " ++ P.debug allowedTrimmed ++ "). " ++
          "Go to Admin → Clients → edit this client and add " ++ P.debug tok ++
          " to the Allowed scopes field."))

/-- The checks between the preliminary read and the preparation. -/
def refreshPolicy (P : Primitives) (req : RefreshExchangeRequest) (client : ClientRow)
    (preliminary : RefreshTokenRow) : CoreResult Unit := do
  ensure (preliminary.clientId == req.clientId) invalidGrant
  match client.grantTypes with
  | none => pure ()
  | some grants =>
    ensure (grants.contains "refresh_token")
      (.protocol .unauthorizedClient
        ("client " ++ P.debug client.name ++ " is not registered for the refresh_token grant " ++
          "(registered grant_types: " ++ debugList P grants ++ ")"))
  enforceScopePolicy P client.allowedScopes preliminary.scope client.name

/-- The e-mail claims of the preliminary row's user, when the scope asks. -/
def readEmail (db : Database) (preliminary : RefreshTokenRow) : Option (String × Bool) :=
  if scopeHas preliminary.scope "email" then
    ((db.users.get? preliminary.userId).filter Users.active).bind emailClaims
  else none

/-- The successor `exchange_refresh` builds from the preliminary row. -/
def successorRow (ctx : IssuanceContext) (draw : TokenDraw) (preliminary : RefreshTokenRow) :
    RefreshTokenRow :=
  freshRow draw ctx.lifetimes preliminary.userId preliminary.clientId preliminary.scope
    preliminary.authMethods preliminary.familyId

/-- Prepare the successor and run T04 with the same reading of the clock. -/
def rotateWith (P : Primitives) (db : Database) (ctx : IssuanceContext) (draw : TokenDraw)
    (req : RefreshExchangeRequest) (preliminary : RefreshTokenRow) :
    StoreResult (RefreshTokens.T04Outcome × Database) := do
  let prepared ← prepareDrawn P draw (successorRow ctx draw preliminary)
  RefreshTokens.rotateRefreshToken db (P.sha256 req.refreshToken) req.clientId draw.now prepared

/-- What `exchange_refresh` answers to an outcome of T04. -/
def refreshAnswer (preliminary : RefreshTokenRow) (jwt : JwtPair) :
    StoreResult RefreshTokens.T04Outcome → CoreResult TokenSet
  | .ok (.rotated _ rawToken) =>
    .ok ⟨jwt.accessToken, jwt.idToken, rawToken, jwt.accessExpiresIn, some preliminary.userId⟩
  | .ok (.theftDetected _) => .error invalidGrant
  | .error .conflict => .error invalidGrant
  | .error .notFound => .error invalidGrant
  | .error e => .error (.store e)

/-- `exchange_refresh` up to T04: the preliminary row and the signed pair. -/
def admitRefresh (P : Primitives) (ctx : IssuanceContext) (key : MasterKey) (db : Database)
    (req : RefreshExchangeRequest) (sign : SigningDraw) :
    CoreResult (RefreshTokenRow × JwtPair) := do
  let client ← checkClient P db req.clientId req.clientSecret req.clientSecretChannel
  let row ← require (RefreshTokens.findAny P key db req.refreshToken) invalidGrant
  refreshPolicy P req client row
  let jwt ← issueJwtPair P db ctx sign row.userId row.clientId row.scope none row.authMethods
    (readEmail db row)
  pure (row, jwt)

/-- `exchange_refresh` with nothing in between its steps. -/
def exchangeRefresh (P : Primitives) (ctx : IssuanceContext) (key : MasterKey) (db : Database)
    (req : RefreshExchangeRequest) (sign : SigningDraw) (draw : TokenDraw) :
    CoreResult TokenSet × Database :=
  match admitRefresh P ctx key db req sign with
  | .error e => (.error e, db)
  | .ok (row, jwt) =>
    match rotateWith P db ctx draw req row with
    | .ok (outcome, db) => (refreshAnswer row jwt (.ok outcome), db)
    | .error e => (refreshAnswer row jwt (.error e), db)

/-! ## What a committed step did -/

/-- What becomes of a code's row: nothing, or it is marked consumed. -/
def AuthCodes.Marked (t t' : Table AuthorizationCodeRow.codeHash) : Prop :=
  ∀ r' ∈ t', ∃ r ∈ t, r' = r ∨ r' = { r with consumed := true }

theorem AuthCodes.Marked.refl (t : Table AuthorizationCodeRow.codeHash) : Marked t t :=
  fun r hr => ⟨r, hr, .inl rfl⟩

theorem AuthCodes.marked_update (t : Table AuthorizationCodeRow.codeHash)
    (p : AuthorizationCodeRow → Bool) :
    Marked t (t.update p fun r => { r with consumed := true }) := by
  intro r' hr'
  obtain ⟨r, hr, rfl⟩ := Table.mem_update.mp hr'
  refine ⟨r, hr, ?_⟩
  split
  · exact .inr rfl
  · exact .inl rfl

theorem consumeCode_eq (P : Primitives) (db : Database) (req : CodeExchangeRequest)
    (now : DateTime) :
    ∃ authCodes, AuthCodes.Marked db.authCodes authCodes ∧
      (consumeCode P db req now).2 = { db with authCodes } := by
  unfold consumeCode
  split
  · exact ⟨db.authCodes, .refl _, rfl⟩
  · exact ⟨db.authCodes, .refl _, rfl⟩
  · rename_i hconsume
    obtain ⟨old, -, -, -, -, rfl⟩ := AuthCodes.consume_ok hconsume
    exact ⟨_, AuthCodes.marked_update _ _, rfl⟩

variable {P : Primitives} {db : Database} {draw : TokenDraw}
variable {row : AuthorizationCodeRow} {grant : IssuableGrant} {db' : Database}
  {ctx : IssuanceContext} {jwt : JwtPair} {tokens : TokenSet} {preliminary : RefreshTokenRow}

/-- An accepted code was live, and is the requesting client's. -/
theorem consumeCode_ok {req : CodeExchangeRequest} {now : DateTime}
    (h : (consumeCode P db req now).1 = .ok row) :
    ∃ old ∈ db.authCodes, old.codeHash = codeHashOf P req.code ∧
      AuthCodes.live old now = true ∧ row = { old with consumed := true } ∧
      row.clientId = req.clientId := by
  unfold consumeCode at h
  split at h
  · cases h
  · cases h
  · rename_i hconsume
    obtain ⟨old, hold, hhash, hlive, hrow, -⟩ := AuthCodes.consume_ok hconsume
    simp only [bindCode, bind_eq_ok, ensure_eq_ok, pure_eq_ok, beq_iff_eq] at h
    obtain ⟨-, ⟨-, hclient, -⟩, -, -, rfl⟩ := h
    exact ⟨old, hold, hhash, hlive, hrow, hclient⟩

/-- The client of an exchange is not deleted. -/
theorem checkClient_ok {id : ClientId} {secret : Option String} {channel : CredentialChannel}
    {client : ClientRow} (h : checkClient P db id secret channel = .ok client) :
    client ∈ db.clients ∧ client.id = id ∧ client.isDeleted = false := by
  simp only [checkClient, bind_eq_ok, require_eq_ok, ensure_eq_ok, pure_eq_ok] at h
  obtain ⟨client', hget, -, hguard, -, -, rfl⟩ := h
  obtain ⟨hmem, hid⟩ := Table.get?_eq_some.mp hget
  simp only [Bool.not_or, Bool.and_eq_true, Bool.not_eq_true'] at hguard
  exact ⟨hmem, hid, hguard.2⟩

theorem resolveUser_ok (h : resolveUser db row = .ok grant) :
    grant.row = row ∧ grant.userId = row.userId := by
  simp only [resolveUser, bind_eq_ok, require_eq_ok, ensure_eq_ok, pure_eq_ok] at h
  obtain ⟨user, hget, -, -, rfl⟩ := h
  exact ⟨rfl, (Table.get?_eq_some.mp hget).2⟩

/-- A prepared row is the drawn row with the token's hash. -/
theorem prepareDrawn_ok {row : RefreshTokenRow} {prepared : RefreshTokens.PreparedRefreshToken}
    (h : prepareDrawn P draw row = .ok prepared) :
    ∃ sealed, prepared =
      ⟨{ row with tokenEnc := sealed, tokenHash := some (P.sha256 draw.rawToken) },
        draw.rawToken⟩ :=
  RefreshTokens.prepareRefreshToken_ok h

/-- The end of `exchange_code` inserted a root. -/
theorem issueFor_ok {clientId : ClientId}
    (h : issueFor P db ctx draw clientId grant jwt = .ok (tokens, db')) :
    tokens.userId = some grant.userId ∧ ∃ prepared,
      prepareDrawn P draw (freshRow draw ctx.lifetimes grant.userId clientId grant.row.scope
        grant.row.authMethods draw.id) = .ok prepared ∧
      RefreshTokens.insertPrepared db prepared = .ok db' := by
  simp only [issueFor, bind_eq_ok, mapError_eq_ok, pure_eq_ok, Prod.mk.injEq] at h
  obtain ⟨prepared, hprepare, db₁, hinsert, rfl, rfl⟩ := h
  exact ⟨rfl, prepared, hprepare, hinsert⟩

/-- A committed T04 was run with the successor of the preliminary row. -/
theorem rotateWith_ok {req : RefreshExchangeRequest} {outcome : RefreshTokens.T04Outcome}
    (h : rotateWith P db ctx draw req preliminary = .ok (outcome, db')) :
    ∃ prepared, prepareDrawn P draw (successorRow ctx draw preliminary) = .ok prepared ∧
      RefreshTokens.rotateRefreshToken db (P.sha256 req.refreshToken) req.clientId draw.now
        prepared = .ok (outcome, db') :=
  bind_eq_ok.mp h

/-- Only a rotation is answered with a token set, for the preliminary row's
user. -/
theorem refreshAnswer_ok {outcome : StoreResult RefreshTokens.T04Outcome}
    (h : refreshAnswer preliminary jwt outcome = .ok tokens) :
    tokens.userId = some preliminary.userId ∧
      ∃ successor rawToken, outcome = .ok (.rotated successor rawToken) := by
  unfold refreshAnswer at h
  split at h
  · cases h
    exact ⟨rfl, _, _, rfl⟩
  all_goals cases h

end SuiId

import SuiId.Core.Exchange
import SuiId.Lib.Machine

/-!
# The authorization endpoint

`GET /oauth2/authorize` and `POST /oauth2/consent` (`handlers/oidc.rs`), with
the checks of `oidc/authorize.rs` and the cookie of `consent_state.rs`, cut at
every access to the database.

* `authorize`: the client and its redirect URI, the session, the request
  (`beginAuthorization`), the client's consent policy, the stored grant, and
  then either the consent screen with its cookie or a code;
* `consent_post`: the session (`resolve`), the cookie and the client, the
  session's methods, U21, the request again, and a code.

The consent cookie is an HMAC-SHA256 over the session and the request.  HMAC,
base64, JSON and the text of identifiers are the fields of `ConsentCodec`.
Rendering, rate limits and the response's URL encoding are left out.
-/

namespace SuiId

open Lib Lib.Result

/-! ## Requests -/

/-- `AuthorizeQuery`. -/
structure AuthorizeQuery where
  clientId : String
  redirectUri : String
  responseType : String
  scope : Option String
  state : Option String
  nonce : Option String
  codeChallenge : String
  codeChallengeMethod : String
deriving DecidableEq

/-- `AuthorizeParams`. -/
structure AuthorizeParams where
  clientId : ClientId
  redirectUri : String
  responseType : String
  scope : String
  state : Option String
  nonce : Option String
  codeChallenge : String
  codeChallengeMethod : String
deriving DecidableEq

/-- The parameters of a query, for a parsed client. -/
def AuthorizeQuery.params (q : AuthorizeQuery) (clientId : ClientId) : AuthorizeParams :=
  { clientId, redirectUri := q.redirectUri, responseType := q.responseType
    scope := q.scope.getD "openid", state := q.state, nonce := q.nonce
    codeChallenge := q.codeChallenge, codeChallengeMethod := q.codeChallengeMethod }

/-- A submission of the consent screen: its cookies and its form. -/
structure ConsentSubmission where
  sessionCookie : Option String
  csrfCookie : Option String
  stateCookie : Option String
  csrf : String
  decision : String

/-! ## The checks of a request -/

/-- `is_numeric_loopback_http`. -/
def isNumericLoopbackHttp (url : Url) : Bool :=
  url.scheme == "http" &&
    match url.host with
    | some (.ipv4 ip) => ip.toNat / 16777216 == 127
    | some (.ipv6 ip) => ip == 1
    | _ => false

/-- `redirect_uri_matches`: exact, but for the port of a public client whose
registered URIs are all numeric loopback addresses. -/
def redirectUriMatches (P : Primitives) (client : ClientRow) (submitted : String) : Bool :=
  if client.redirectUris.any (· == submitted) then true
  else if client.confidential then false
  else
    match P.parseUrl submitted with
    | none => false
    | some url =>
      if !isNumericLoopbackHttp url then false
      else
        (client.redirectUris.all fun u => (P.parseUrl u).any isNumericLoopbackHttp) &&
          client.redirectUris.any fun u => (P.parseUrl u).any fun registered =>
            registered.host == url.host && registered.path == url.path &&
              registered.query == url.query && registered.fragment == url.fragment

/-- The answer to a redirect URI that is not registered. -/
def redirectUriMismatch (client : ClientRow) (submitted : String) : CoreError :=
  .protocol .invalidRequest
    ("redirect_uri does not match any registered URI for this client. Submitted: \"" ++ submitted ++
      "\". Registered URIs: [" ++
      String.intercalate ", " (client.redirectUris.map fun u => "\"" ++ u ++ "\"") ++
      "]. The comparison is exact (port-flexible only for a PublicNativeLoopback client, " ++
      "RFC 8252) — check for trailing slashes, http vs https, and other port numbers.")

/-- `validate_client_and_redirect_uri`. -/
def validateClientAndRedirectUri (P : Primitives) (db : Database) (clientId : ClientId)
    (redirectUri : String) : CoreResult ClientRow := do
  let client ← require (db.clients.get? clientId) (invalidClient "unknown client_id")
  ensure (!(client.isDisabled || client.isDeleted))
    (.protocol .unauthorizedClient "client is not allowed to use the authorization endpoint")
  ensure (redirectUriMatches P client redirectUri) (redirectUriMismatch client redirectUri)
  pure client

/-- `begin_authorization`. -/
def beginAuthorization (P : Primitives) (db : Database) (params : AuthorizeParams) :
    CoreResult Unit := do
  ensure (params.responseType == "code")
    (.protocol .unsupportedResponseType
      ("only response_type=code is supported, got " ++ params.responseType))
  ensure (!params.codeChallenge.isEmpty)
    (.protocol .invalidRequest "code_challenge is required (PKCE)")
  ensure (params.codeChallengeMethod == "S256")
    (.protocol .invalidRequest "code_challenge_method must be S256")
  let client ← validateClientAndRedirectUri P db params.clientId params.redirectUri
  enforceScopePolicy P client.allowedScopes params.scope client.name

/-- `resolve_session`, once the cookie has been parsed. -/
def resolveSession (db : Database) (now : DateTime) (id : SessionId) :
    Option (SessionId × UserId × List AuthMethod) :=
  match db.sessions.get? id with
  | none => none
  | some session =>
    if session.revokedAt.isSome || session.expiresAt < now then none
    else some (session.id, session.userId, session.authMethods)

/-- `covers`: every requested scope token has been granted. -/
def covers (grantedScopes requestedScopes : String) : Bool :=
  (Text.splitWhitespace requestedScopes).all fun s =>
    (Text.splitWhitespace grantedScopes).contains s

/-- `AUTH_CODE_LIFETIME_SECS`. -/
def authCodeLifetimeSecs : Int := 60

/-- What a step of a call reads from the clock and the random generator. -/
structure AuthorizeDraw where
  now : DateTime
  code : String

/-- The row of `complete_authorization`. -/
def authorizationCode (P : Primitives) (draw : AuthorizeDraw) (user : UserId)
    (authMethods : List AuthMethod) (params : AuthorizeParams) : AuthorizationCodeRow :=
  { codeHash := codeHashOf P draw.code, clientId := params.clientId, userId := user
    redirectUri := params.redirectUri, scope := params.scope, nonce := params.nonce
    codeChallenge := params.codeChallenge, codeChallengeMethod := params.codeChallengeMethod
    expiresAt := draw.now + seconds authCodeLifetimeSecs, consumed := false
    createdAt := draw.now, authMethods }

/-! ## The consent cookie -/

/-- `ConsentRequest`. -/
structure ConsentRequest where
  clientId : String
  redirectUri : String
  scope : String
  state : Option String
  nonce : Option String
  codeChallenge : String
  codeChallengeMethod : String
deriving DecidableEq

/-- The `Payload` a cookie carries. -/
structure ConsentPayload where
  exp : Int
  req : ConsentRequest
deriving DecidableEq

/-- What other crates compute for the cookie: HMAC, base64, the base64 of a
payload's JSON, and the text of a UUID. -/
structure ConsentCodec where
  hmacSha256 : Bytes → Bytes → Bytes
  decodeBase64Url : String → Option Bytes
  encodeBody : ConsentPayload → String
  decodeBody : String → Option ConsentPayload
  idText : Nat → String
  parseId : String → Option Nat

/-- What the cookie relies on these for. -/
structure ConsentCodec.Lawful (K : ConsentCodec) : Prop where
  decode_encodeBody : ∀ payload, K.decodeBody (K.encodeBody payload) = some payload
  /-- A parsed identifier is printed so that it parses again. -/
  parse_idText : ∀ {text id}, K.parseId text = some id → K.parseId (K.idText id) = some id
  /-- It is printed with 36 characters. -/
  length_idText : ∀ {text id}, K.parseId text = some id → (utf8 (K.idText id)).length = 36

namespace ConsentState

/-- `LIFETIME_SECS`. -/
def lifetimeSecs : Int := 300

/-- `KEY_LABEL`. -/
def keyLabel : Bytes := utf8 "sui-id/consent-state/v1"

/-- `u64::to_be_bytes`. -/
def toBeBytes (n : Nat) : Bytes :=
  (List.range 8).map fun i => UInt8.ofNat (n >>> (8 * (7 - i)))

/-- What the tag of a body covers: the session's text with its length in
front, then the body. -/
def macMessage (K : ConsentCodec) (session : SessionId) (body : String) : Bytes :=
  let text := utf8 (K.idText session)
  toBeBytes text.length ++ text ++ utf8 body

/-- `mac`, fed with the body. -/
def mac (K : ConsentCodec) (key : MasterKey) (session : SessionId) (body : String) : Bytes :=
  K.hmacSha256 (K.hmacSha256 key.bytes keyLabel) (macMessage K session body)

/-- `seal`. -/
def sealState (P : Primitives) (K : ConsentCodec) (key : MasterKey) (session : SessionId)
    (now : Int) (req : ConsentRequest) : String :=
  let body := K.encodeBody ⟨now + lifetimeSecs, req⟩
  body ++ "." ++ P.base64Url (mac K key session body)

/-- The part of a value before its dot, if the tag after it verifies. -/
def verifiedBody (K : ConsentCodec) (key : MasterKey) (session : SessionId) (value : String) :
    Option String :=
  match Text.splitOnce value "." with
  | none => none
  | some (body, tagText) =>
    match K.decodeBase64Url tagText with
    | none => none
    | some tag => if mac K key session body == tag then some body else none

/-- `open`. -/
def openState (K : ConsentCodec) (key : MasterKey) (session : SessionId) (now : Int)
    (value : String) : Option ConsentRequest :=
  match verifiedBody K key session value with
  | none => none
  | some body =>
    match K.decodeBody body with
    | none => none
    | some payload => if now > payload.exp then none else some payload.req

end ConsentState

/-- The request the cookie is sealed for. -/
def AuthorizeParams.consentRequest (K : ConsentCodec) (params : AuthorizeParams) :
    ConsentRequest :=
  { clientId := K.idText params.clientId, redirectUri := params.redirectUri, scope := params.scope
    state := params.state, nonce := params.nonce, codeChallenge := params.codeChallenge
    codeChallengeMethod := params.codeChallengeMethod }

/-- The parameters `consent_post` rebuilds, for a parsed client. -/
def ConsentRequest.params (req : ConsentRequest) (clientId : ClientId) : AuthorizeParams :=
  { clientId, redirectUri := req.redirectUri, responseType := "code", scope := req.scope
    state := req.state, nonce := req.nonce, codeChallenge := req.codeChallenge
    codeChallengeMethod := req.codeChallengeMethod }

/-- `check_token` of the CSRF cookie against the form. -/
def checkCsrf (submission : ConsentSubmission) : Bool :=
  submission.csrfCookie.any fun cookie =>
    !cookie.isEmpty && !submission.csrf.isEmpty && cookie == submission.csrf

/-! ## Concurrent requests -/

/-- A request in flight, with what it carries to its next access. -/
inductive AuthorizeCall where
  -- `authorize`
  | clientValid (query : AuthorizeQuery) (clientId : ClientId) (sessionCookie : Option String)
  | signedIn (params : AuthorizeParams) (session : SessionId) (user : UserId)
      (authMethods : List AuthMethod)
  | accepted (params : AuthorizeParams) (session : SessionId) (user : UserId)
      (authMethods : List AuthMethod)
  | grantWanted (params : AuthorizeParams) (session : SessionId) (user : UserId)
      (authMethods : List AuthMethod)
  | consentWanted (params : AuthorizeParams) (session : SessionId)
  -- `consent_post`
  | answering (submission : ConsentSubmission) (session : SessionId) (user : UserId)
  | approving (params : AuthorizeParams) (session : SessionId) (user : UserId)
  | attributed (params : AuthorizeParams) (session : SessionId) (user : UserId)
      (authMethods : List AuthMethod)
  | granted (params : AuthorizeParams) (session : SessionId) (user : UserId)
      (authMethods : List AuthMethod)
  -- both
  | permitted (params : AuthorizeParams) (session : SessionId) (user : UserId)
      (authMethods : List AuthMethod)

/-- A consent cookie the server has handed out. -/
structure HandedOut where
  session : SessionId
  sealedAt : DateTime
  params : AuthorizeParams

/-- A name for a request in flight. -/
abbrev RequestId := Nat

/-- The database and the requests in flight.  The last two fields are a history
that no code reads: the cookies handed out so far, and for each user and client
the scope last approved, unless it has been revoked since. -/
structure AuthorizeWorld where
  db : Database
  calls : RequestId → Option AuthorizeCall
  handedOut : List HandedOut
  approved : UserId × ClientId → Option String

/-- No request is in flight, no cookie is out, and the stored grants are the
approvals. -/
def AuthorizeWorld.start (db : Database) : AuthorizeWorld where
  db := db
  calls _ := none
  handedOut := []
  approved pair := (db.userConsent.get? pair).map (·.grantedScopes)

/-- A request, its next access, or another write. -/
inductive AuthorizeEvent where
  | authorize (request : RequestId) (query : AuthorizeQuery) (sessionCookie : Option String)
  | consentPost (request : RequestId) (submission : ConsentSubmission) (now : DateTime)
  /-- The next access of a request. -/
  | next (request : RequestId) (draw : AuthorizeDraw)
  | grantConsent (user : UserId) (client : ClientId) (grantedScopes : String) (now : DateTime)
  | revokeConsent (user : UserId) (client : ClientId)
  /-- A write to any other table. -/
  | elsewhere (db : Database)

/-- What an event answers. -/
inductive AuthorizeAnswer where
  /-- The event is not the next access of that request. -/
  | ignored
  | running
  /-- An error page. -/
  | refused (error : CoreError)
  /-- A redirect to the sign-in page. -/
  | login
  /-- A redirect to the client with an error. -/
  | errorRedirect (error : CoreError)
  | consentScreen (cookie : String)
  | denied
  | issued (row : AuthorizationCodeRow)
  | committed (result : StoreResult Unit)

namespace AuthorizeWorld

/-- The request ends. -/
def endCall (w : AuthorizeWorld) (request : RequestId) : AuthorizeWorld :=
  { w with calls := Function.update w.calls request none }

/-- The request goes on with `next`. -/
def goOn (w : AuthorizeWorld) (request : RequestId) (next : AuthorizeCall) : AuthorizeWorld :=
  { w with calls := Function.update w.calls request (some next) }

/-- U21 for a user and a client, with its place in the history. -/
def grant (w : AuthorizeWorld) (user : UserId) (client : ClientId) (grantedScopes : String)
    (now : DateTime) : StoreResult AuthorizeWorld :=
  (SuiId.grantConsent w.db user client grantedScopes now).map fun (_, db) =>
    { w with db, approved := Function.update w.approved (user, client) (some grantedScopes) }

/-- U20, likewise. -/
def revoke (w : AuthorizeWorld) (user : UserId) (client : ClientId) : StoreResult AuthorizeWorld :=
  (SuiId.revokeConsent w.db user client).map fun (_, db) =>
    { w with db, approved := Function.update w.approved (user, client) none }

/-- A write of the rest of the program: anything but grants and codes. -/
def overwrite (w : AuthorizeWorld) (db : Database) : AuthorizeWorld :=
  { w with db := { db with userConsent := w.db.userConsent, authCodes := w.db.authCodes } }

end AuthorizeWorld

variable (P : Primitives) (K : ConsentCodec) (key : MasterKey)

/-- What `consent_post` reads from its submission: the CSRF token, the cookie,
the client, the answer. -/
def readSubmission (db : Database) (submission : ConsentSubmission) (session : SessionId)
    (now : DateTime) : CoreResult (Option AuthorizeParams) := do
  ensure (checkCsrf submission) .forbidden
  let req ← require
    (submission.stateCookie.bind (ConsentState.openState K key session (timestamp now)))
    (.badRequest "consent session expired or missing; restart the login flow")
  let clientId ← require (K.parseId req.clientId)
    (.badRequest "invalid client_id in consent session")
  let _ ← validateClientAndRedirectUri P db clientId req.redirectUri
  pure (if submission.decision == "approve" then some (req.params clientId) else none)

/-- The next access of a request. -/
def advance (w : AuthorizeWorld) (request : RequestId) (draw : AuthorizeDraw) :
    AuthorizeCall → AuthorizeWorld × AuthorizeAnswer
  | .clientValid query clientId sessionCookie =>
    match (sessionCookie.bind K.parseId).bind (resolveSession w.db draw.now) with
    | none => (w.endCall request, .login)
    | some (session, user, authMethods) =>
      (w.goOn request (.signedIn (query.params clientId) session user authMethods), .running)
  | .signedIn params session user authMethods =>
    match beginAuthorization P w.db params with
    | .ok () => (w.goOn request (.accepted params session user authMethods), .running)
    | .error e => (w.endCall request, .errorRedirect e)
  | .accepted params session user authMethods =>
    match w.db.clients.get? params.clientId with
    | none => (w.endCall request, .refused (.store .notFound))
    | some client =>
      match client.consentPolicy with
      | .none => (w.goOn request (.permitted params session user authMethods), .running)
      | .always => (w.goOn request (.consentWanted params session), .running)
      | .firstTime => (w.goOn request (.grantWanted params session user authMethods), .running)
  | .grantWanted params session user authMethods =>
    if (w.db.userConsent.get? (user, params.clientId)).any fun row =>
        covers row.grantedScopes params.scope then
      (w.goOn request (.permitted params session user authMethods), .running)
    else (w.goOn request (.consentWanted params session), .running)
  | .consentWanted params session =>
    ({ w with handedOut := ⟨session, draw.now, params⟩ :: w.handedOut }.endCall request,
      .consentScreen (ConsentState.sealState P K key session (timestamp draw.now)
        (params.consentRequest K)))
  | .answering submission session user =>
    match readSubmission P K key w.db submission session draw.now with
    | .ok (some params) => (w.goOn request (.approving params session user), .running)
    | .ok none => (w.endCall request, .denied)
    | .error e => (w.endCall request, .refused e)
  | .approving params session user =>
    match w.db.sessions.get? session with
    | none => (w.endCall request, .refused (.store .notFound))
    | some row => (w.goOn request (.attributed params session user row.authMethods), .running)
  | .attributed params session user authMethods =>
    match w.grant user params.clientId params.scope draw.now with
    | .ok w => (w.goOn request (.granted params session user authMethods), .running)
    | .error e => (w.endCall request, .refused (.store e))
  | .granted params session user authMethods =>
    match beginAuthorization P w.db params with
    | .ok () => (w.goOn request (.permitted params session user authMethods), .running)
    | .error e => (w.endCall request, .errorRedirect e)
  | .permitted params _ user authMethods =>
    let row := authorizationCode P draw user authMethods params
    match AuthCodes.insert w.db row with
    | .ok db => ({ w with db }.endCall request, .issued row)
    | .error e => (w.endCall request, .refused (.store e))

/-- One event. -/
def authorizeStep (w : AuthorizeWorld) : AuthorizeEvent → AuthorizeWorld × AuthorizeAnswer
  | .authorize request query sessionCookie =>
    match w.calls request with
    | some _ => (w, .ignored)
    | none =>
      match K.parseId query.clientId with
      | none => (w, .refused (invalidClient "client_id is not a valid identifier"))
      | some clientId =>
        match validateClientAndRedirectUri P w.db clientId query.redirectUri with
        | .ok _ => (w.goOn request (.clientValid query clientId sessionCookie), .running)
        | .error e => (w, .refused e)
  | .consentPost request submission now =>
    match w.calls request with
    | some _ => (w, .ignored)
    | none =>
      match submission.sessionCookie.bind K.parseId with
      | none => (w, .refused .unauthenticated)
      | some session =>
        match resolve w.db now session with
        | (.ok user, db) =>
          ({ w with db := touchLastUsed db now session }.goOn request
            (.answering submission session user), .running)
        | (.error e, db) => ({ w with db }, .refused e)
  | .next request draw =>
    match w.calls request with
    | none => (w, .ignored)
    | some call => advance P K key w request draw call
  | .grantConsent user client grantedScopes now =>
    match w.grant user client grantedScopes now with
    | .ok w => (w, .committed (.ok ()))
    | .error e => (w, .committed (.error e))
  | .revokeConsent user client =>
    match w.revoke user client with
    | .ok w => (w, .committed (.ok ()))
    | .error e => (w, .committed (.error e))
  | .elsewhere db => (w.overwrite db, .committed (.ok ()))

/-- A step of a run. -/
abbrev AuthorizeTaken := Machine.Taken AuthorizeWorld AuthorizeEvent AuthorizeAnswer

/-- The steps of a run. -/
abbrev authorizeTrace : AuthorizeWorld → List AuthorizeEvent →
    List AuthorizeTaken :=
  Machine.trace (authorizeStep P K key)

/-! ## An instance that runs -/

namespace ConsentCodec

/-- The characters of a text and a `y`, with an `x` before the letters `x` and `y`. -/
def writeText : List Char → List Char
  | [] => ['y']
  | c :: cs => if c == 'x' || c == 'y' then 'x' :: c :: writeText cs else c :: writeText cs

/-- The reader of `writeText`. -/
def readText : List Char → Option (List Char × List Char)
  | [] => none
  | 'y' :: rest => some ([], rest)
  | 'x' :: c :: rest => (readText rest).map fun (cs, rest) => (c :: cs, rest)
  | c :: rest => (readText rest).map fun (cs, rest) => (c :: cs, rest)

/-- A text or none. -/
def writeOption : Option String → List Char
  | none => ['n']
  | some s => 's' :: writeText s.toList

/-- The reader of `writeOption`. -/
def readOption : List Char → Option (Option String × List Char)
  | 'n' :: rest => some (none, rest)
  | 's' :: rest => (readText rest).map fun (cs, rest) => (some (String.ofList cs), rest)
  | _ => none

/-- One character for the last byte, and the rest in unary. -/
def writeNat (n : Nat) : List Char :=
  Char.ofNat (256 + n % 256) :: writeText (List.replicate (n / 256) 'u')

/-- The reader of `writeNat`. -/
def readNat : List Char → Option (Nat × List Char)
  | [] => none
  | c :: rest => (readText rest).map fun (cs, rest) => (256 * cs.length + (c.toNat - 256), rest)

/-- A sign before the number. -/
def writeInt : Int → List Char
  | .ofNat n => 'p' :: writeNat n
  | .negSucc n => 'm' :: writeNat n

/-- The reader of `writeInt`. -/
def readInt : List Char → Option (Int × List Char)
  | 'p' :: rest => (readNat rest).map fun (n, rest) => (.ofNat n, rest)
  | 'm' :: rest => (readNat rest).map fun (n, rest) => (.negSucc n, rest)
  | _ => none

theorem readText_writeText (cs rest : List Char) :
    readText (writeText cs ++ rest) = some (cs, rest) := by
  induction cs with
  | nil => rfl
  | cons c cs ih =>
    by_cases hx : c = 'x'
    · subst hx
      show (readText (writeText cs ++ rest)).map _ = _
      rw [ih]
      rfl
    · by_cases hy : c = 'y'
      · subst hy
        show (readText (writeText cs ++ rest)).map _ = _
        rw [ih]
        rfl
      · have hwrite : writeText (c :: cs) = c :: writeText cs := by
          simp [writeText, hx, hy]
        rw [hwrite, List.cons_append, readText.eq_4 _ _ hy (fun _ _ h => absurd h hx), ih]
        rfl

theorem readOption_writeOption (s : Option String) (rest : List Char) :
    readOption (writeOption s ++ rest) = some (s, rest) := by
  cases s with
  | none => rfl
  | some s =>
    show (readText (writeText s.toList ++ rest)).map _ = _
    rw [readText_writeText]
    simp

theorem readNat_writeNat (n : Nat) (rest : List Char) :
    readNat (writeNat n ++ rest) = some (n, rest) := by
  have hvalid : (256 + n % 256).isValidChar := Or.inl (by omega)
  have hchar : (Char.ofNat (256 + n % 256)).toNat = 256 + n % 256 := by
    rw [Char.ofNat, dif_pos hvalid]
    rfl
  have hsplit : 256 * (n / 256) + n % 256 = n := Nat.div_add_mod n 256
  show (readText (writeText (List.replicate (n / 256) 'u') ++ rest)).map _ = _
  rw [readText_writeText]
  simp [hchar, hsplit]

theorem readInt_writeInt (n : Int) (rest : List Char) :
    readInt (writeInt n ++ rest) = some (n, rest) := by
  cases n with
  | ofNat n | negSucc n =>
    show (readNat (writeNat n ++ rest)).map _ = _
    rw [readNat_writeNat]
    rfl

/-- The text of a payload. -/
def encode (p : ConsentPayload) : List Char :=
  writeInt p.exp ++ (writeText p.req.clientId.toList ++ (writeText p.req.redirectUri.toList ++
    (writeText p.req.scope.toList ++ (writeOption p.req.state ++ (writeOption p.req.nonce ++
      (writeText p.req.codeChallenge.toList ++
        (writeText p.req.codeChallengeMethod.toList ++ [])))))))

/-- The payload of a text. -/
def decode (cs : List Char) : Option ConsentPayload := do
  let (exp, cs) ← readInt cs
  let (clientId, cs) ← readText cs
  let (redirectUri, cs) ← readText cs
  let (scope, cs) ← readText cs
  let (state, cs) ← readOption cs
  let (nonce, cs) ← readOption cs
  let (codeChallenge, cs) ← readText cs
  let (codeChallengeMethod, _) ← readText cs
  pure ⟨exp, ⟨String.ofList clientId, String.ofList redirectUri, String.ofList scope, state, nonce,
    String.ofList codeChallenge, String.ofList codeChallengeMethod⟩⟩

theorem decode_encode (p : ConsentPayload) : decode (encode p) = some p := by
  simp only [decode, encode, Option.bind_eq_bind, readInt_writeInt, readText_writeText,
    readOption_writeOption, Option.bind_some, Option.pure_def, String.ofList_toList]

/-- An identifier up to 36, in unary. -/
def unaryId (id : Nat) : String :=
  String.ofList (List.replicate id 'b' ++ List.replicate (36 - id) 'a')

/-- The MAC is a checksum, a body is written out, and identifiers are in unary. -/
def transparent : ConsentCodec where
  hmacSha256 key message := [message.foldl (· + ·) (key.foldl (· + ·) 0)]
  decodeBase64Url text := some (text.toList.map fun c => UInt8.ofNat c.toNat)
  encodeBody p := String.ofList (encode p)
  decodeBody text := decode text.toList
  idText := unaryId
  parseId text :=
    let id := text.toList.count 'b'
    if id ≤ 36 && text == unaryId id then some id else none

theorem transparent_lawful : transparent.Lawful where
  decode_encodeBody := by
    intro payload
    show decode (String.ofList (encode payload)).toList = some payload
    rw [String.toList_ofList, decode_encode]
  parse_idText := by
    intro text id h
    simp only [transparent, Option.ite_none_right_eq_some, Bool.and_eq_true, decide_eq_true_eq,
      Option.some.injEq] at h
    obtain ⟨⟨hle, -⟩, rfl⟩ := h
    simp [transparent, unaryId, List.count_replicate, hle]
  length_idText := by
    intro text id h
    simp only [transparent, Option.ite_none_right_eq_some, Bool.and_eq_true, decide_eq_true_eq,
      Option.some.injEq] at h
    obtain ⟨⟨hle, -⟩, rfl⟩ := h
    generalize text.toList.count 'b' = id at hle ⊢
    show (unaryId id).utf8ByteSize = 36
    rw [unaryId, String.ofList_append, String.utf8ByteSize_append,
      Text.utf8ByteSize_replicate rfl, Text.utf8ByteSize_replicate rfl]
    omega

end ConsentCodec

end SuiId

import Mathlib.Data.Finset.Image
import Mathlib.Data.List.Sort
import SuiId.Core.AdminUsers
import SuiId.Core.Tokens
import SuiId.Store.Clients
import SuiId.Store.Recovery
import SuiId.Store.SigningKeys

/-!
# The caches of the hot paths

`cache.rs`: the origins of the redirect URIs and the published signing keys, kept in memory.  A
rebuild reads its list from the database and stores it under the write lock afterwards, so it is
two steps here.

The operations are those of the administration, which rebuild one cache after their transaction has
committed, and the two that rebuild none: the setup of a new instance and dynamic registration.
`Caches::build` is in progress when a run starts.

Base64, JSON and Ed25519 belong to other crates.
-/

namespace SuiId

open Lib Lib.Result

/-! ## Signed tokens -/

/-- `JwtHeader`. -/
structure JwtHeader where
  alg : String
  kid : String

/-- What `jwt::verify` and the readers of claims take from other crates. -/
structure JwtPackages where
  decodeBase64Url : String → Option Bytes
  parseHeader : Bytes → Option JwtHeader
  /-- `VerifyingKey::from_bytes` accepts these 32 bytes. -/
  isVerifyingKey : Bytes → Bool
  /-- Ed25519: public key, message, signature. -/
  verifySignature : Bytes → Bytes → Bytes → Bool
  parseAccessTokenClaims : Bytes → Option AccessTokenClaims
  parseIdTokenClaims : Bytes → Option IdTokenClaims

/-- `CoreError::Jwt` and `CoreError::Unauthenticated`. -/
inductive TokenError where
  | jwt
  | unauthenticated
deriving DecidableEq, Repr

/-- `Decoded`. -/
structure Decoded (claims : Type) where
  claims : claims
  kid : String
deriving DecidableEq

/-- `jwt::verify`. -/
def jwtVerify {claims : Type} (J : JwtPackages) (parseClaims : Bytes → Option claims)
    (token : String) (resolver : String → Option Bytes) : Except TokenError (Decoded claims) :=
  match (token.toList.splitOn '.').map String.ofList with
  | [h, p, s] => do
    let headerBytes ← require (J.decodeBase64Url h) .jwt
    let parsed ← require (J.parseHeader headerBytes) .jwt
    ensure (parsed.alg == "EdDSA") .jwt
    let vk ← require (resolver parsed.kid) .jwt
    let sigBytes ← require (J.decodeBase64Url s) .jwt
    ensure (sigBytes.length == 64) .jwt
    ensure (J.verifySignature vk (utf8 (h ++ "." ++ p)) sigBytes) .jwt
    let payload ← require (J.decodeBase64Url p) .jwt
    let claims ← require (parseClaims payload) .jwt
    pure ⟨claims, parsed.kid⟩
  | _ => .error .jwt

/-! ## What is cached -/

/-- `CachedSigningKey`. -/
structure CachedSigningKey where
  kid : String
  algorithm : String
  publicKeyBytes : Bytes
deriving DecidableEq, Repr

/-- `Caches`. -/
structure Caches where
  redirectOrigins : Finset String
  jwks : List CachedSigningKey
deriving DecidableEq

/-- `Caches::new`. -/
def Caches.new : Caches := ⟨∅, []⟩

/-- `list_published`: newest first. -/
def SigningKeys.listPublished (db : Database) : List SigningKeyRow :=
  db.signingKeys.rows.insertionSort fun a b => b.createdAt ≤ a.createdAt

/-- `published_to_cached`. -/
def publishedToCached (rows : List SigningKeyRow) : List CachedSigningKey :=
  rows.map fun k => ⟨toString k.id, k.algorithm, k.publicKey⟩

/-- The keys that a rebuild reads. -/
def publishedKeys (db : Database) : List CachedSigningKey :=
  publishedToCached (SigningKeys.listPublished db)

/-- `origin_from_uri`: the scheme and the authority, in lower case. -/
def originFromUri (P : Primitives) (uri : String) : Option String :=
  (Text.splitOnce uri "://").map fun (scheme, afterScheme) =>
    let hostAndPort := String.ofList (afterScheme.toList.takeWhile (· ≠ '/'))
    P.toLowercase scheme ++ "://" ++ P.toLowercase hostAndPort

/-- The origins that a rebuild reads. -/
def registeredOrigins (P : Primitives) (db : Database) : Finset String :=
  ((db.clients.rows.filter fun c => !c.isDeleted).flatMap fun c =>
    c.redirectUris.filterMap (originFromUri P)).toFinset

/-! ## Verification -/

section Verify

variable (J : JwtPackages)

/-- `verify_from_snapshot`. -/
def verifyFromSnapshot {claims : Type} (parseClaims : Bytes → Option claims)
    (keys : List CachedSigningKey) (token : String) : Except TokenError (Decoded claims) :=
  jwtVerify J parseClaims token fun kid =>
    (keys.find? fun k => k.kid == kid).bind fun entry =>
      if entry.publicKeyBytes.length == 32 && J.isVerifyingKey entry.publicKeyBytes then
        some entry.publicKeyBytes
      else none

/-- The body that both forms of `verify_access_token` share. -/
def verifyAccessTokenWith (keys : List CachedSigningKey) (now : DateTime) (token : String) :
    Except TokenError AccessTokenClaims := do
  let decoded ← verifyFromSnapshot J J.parseAccessTokenClaims keys token
  ensure (!(decoded.claims.exp < timestamp now)) .unauthenticated
  pure decoded.claims

/-- An ID token is checked against these keys. -/
def verifyIdTokenWith (keys : List CachedSigningKey) (now : DateTime) (token : String)
    (acceptExpired : Bool) : Except TokenError IdTokenClaims := do
  let decoded ← verifyFromSnapshot J J.parseIdTokenClaims keys token
  ensure (!(!acceptExpired && decoded.claims.exp < timestamp now)) .unauthenticated
  pure decoded.claims

/-- `verify_access_token`. -/
def verifyAccessToken (db : Database) (now : DateTime) (token : String) :
    Except TokenError AccessTokenClaims :=
  verifyAccessTokenWith J (publishedToCached (SigningKeys.listPublished db)) now token

/-- `verify_access_token_cached`. -/
def verifyAccessTokenCached (caches : Caches) (now : DateTime) (token : String) :
    Except TokenError AccessTokenClaims :=
  verifyAccessTokenWith J caches.jwks now token

/-- `verify_id_token`. -/
def verifyIdToken (db : Database) (now : DateTime) (token : String) (acceptExpired : Bool) :
    Except TokenError IdTokenClaims :=
  verifyIdTokenWith J (publishedToCached (SigningKeys.listPublished db)) now token acceptExpired

/-- `verify_id_token_cached`. -/
def verifyIdTokenCached (caches : Caches) (now : DateTime) (token : String)
    (acceptExpired : Bool) : Except TokenError IdTokenClaims :=
  verifyIdTokenWith J caches.jwks now token acceptExpired

end Verify

/-! ## Client administration -/

section Clients

variable (P : Primitives)

/-- The host is the own machine. -/
def isLoopbackHost : UrlHost → Bool
  | .domain name => name == "localhost"
  | .ipv4 address => address == 0x7f000001
  | .ipv6 address => address == 1

/-- `validate_redirect_uri`. -/
def validateRedirectUri (uri : String) : CoreResult Unit := do
  let parsed ← require (P.parseUrl uri) (.badRequest ("redirect_uri is not a valid URL: " ++ uri))
  ensure (parsed.scheme == "https" || parsed.scheme == "http" && parsed.host.any isLoopbackHost)
    (.badRequest ("redirect_uri must use https (http permitted only on loopback): " ++ uri))
  ensure parsed.fragment.isNone (.badRequest "redirect_uri must not contain a fragment")

/-- A character of a scope token. -/
def isScopeTokenChar (c : Char) : Bool :=
  c == '!' || ('#' ≤ c && c ≤ '[') || (']' ≤ c && c ≤ '~')

/-- `CreateClientSpec`. -/
structure CreateClientSpec where
  name : String
  redirectUris : List String
  confidential : Bool
  allowedScopes : String
  postLogoutRedirectUris : List String

/-- The checks that `create_client` and `update_client_basic` begin with. -/
def checkClientBasics (name : String) (redirectUris : List String) : CoreResult Unit := do
  ensure (!(Text.trim name).isEmpty) (.badRequest "client name must not be empty")
  ensure (!redirectUris.isEmpty) (.badRequest "at least one redirect_uri must be provided")
  redirectUris.forM (validateRedirectUri P)

/-- `admin::create_client`, up to the rebuild. -/
def adminCreateClient (db : Database) (actor : UserId) (spec : CreateClientSpec) (id : ClientId)
    (secretHash : String) : CoreResult Database := do
  checkClientBasics P spec.name spec.redirectUris
  spec.postLogoutRedirectUris.forM (validateRedirectUri P)
  (Text.splitWhitespace spec.allowedScopes).forM fun tok =>
    ensure (tok.toList.all isScopeTokenChar)
      (.badRequest ("invalid character in scope token " ++ P.debug tok))
  let row : ClientRow :=
    { id, name := spec.name, confidential := spec.confidential
      secretHash := if spec.confidential then some secretHash else none
      allowedScopes := spec.allowedScopes, isDisabled := false, isDeleted := false
      tokenEndpointAuthMethod := none, grantTypes := none, redirectUris := spec.redirectUris
      postLogoutRedirectUris := spec.postLogoutRedirectUris }
  ((createClient db actor row).map (·.2)).mapError .store

/-- `admin::update_client_basic`, up to the rebuild. -/
def adminUpdateClientBasic (db : Database) (actor : UserId) (target : ClientId) (name : String)
    (redirectUris : List String) : CoreResult Database := do
  checkClientBasics P name redirectUris
  ((updateClientBasic db actor target (Text.trim name) redirectUris).map (·.2)).mapError storeError

/-- `admin::set_client_disabled`, up to the rebuild. -/
def setClientDisabled (db : Database) (actor : UserId) (target : ClientId) (disabled : Bool)
    (reason : Option String) (now : DateTime) : CoreResult Database :=
  if disabled then ((disableClient db actor target reason now).map (·.2)).mapError storeError
  else ((enableClient db actor target).map (·.2)).mapError storeError

end Clients

/-- The errors of `admin::delete_signing_key`. -/
def deleteSigningKeyError : StoreError → CoreError
  | .notFound => .notFound
  | .conflict => .conflict "cannot delete the active signing key; rotate first"
  | e => .store e

/-! ## Operations -/

/-- What a run commits.  Keys, hashes and rows are made before the transaction. -/
inductive CacheOperation where
  | createClient (actor : UserId) (spec : CreateClientSpec) (id : ClientId) (secretHash : String)
  | updateClientBasic (actor : UserId) (target : ClientId) (name : String)
      (redirectUris : List String)
  | setClientDisabled (actor : UserId) (target : ClientId) (disabled : Bool)
      (reason : Option String) (now : DateTime)
  | deleteClient (actor : UserId) (target : ClientId) (reason : Option String) (now : DateTime)
  | rotateSigningKey (actor : UserId) (session : SessionId) (newId : Nat)
      (privateKeySealed publicKey : Bytes) (reason : Option String) (now : DateTime)
  | deleteSigningKey (actor : UserId) (target : Nat) (reason : Option String)
  -- S10 and C15
  | completeInitialSetup (user : UserRow) (cred : CredentialRow)
      (signingKey : InitialSigningKeyMaterial) (authorizedBy : SetupAuthorizedBy) (now : DateTime)
  | registerClientDynamically (tokenHash : String) (row : ClientRow) (now : DateTime)

/-- The transaction of an operation. -/
def CacheOperation.perform (P : Primitives) (db : Database) (tokens : RegistrationTokens) :
    CacheOperation → CoreResult (RegistrationTokens × Database)
  | .createClient actor spec id secretHash =>
    (adminCreateClient P db actor spec id secretHash).map (tokens, ·)
  | .updateClientBasic actor target name redirectUris =>
    (adminUpdateClientBasic P db actor target name redirectUris).map (tokens, ·)
  | .setClientDisabled actor target disabled reason now =>
    (SuiId.setClientDisabled db actor target disabled reason now).map (tokens, ·)
  | .deleteClient actor target reason now =>
    ((SuiId.deleteClient db actor target reason now).map fun r => (tokens, r.2)).mapError storeError
  | .rotateSigningKey actor session newId privateKeySealed publicKey reason now =>
    ((SuiId.rotateSigningKey db actor session newId "EdDSA" privateKeySealed publicKey reason
      now).map fun r => (tokens, r.2)).mapError .store
  | .deleteSigningKey actor target reason =>
    ((SuiId.deleteSigningKey db actor target reason).map fun r => (tokens, r.2)).mapError
      deleteSigningKeyError
  | .completeInitialSetup user cred signingKey authorizedBy now =>
    ((SuiId.completeInitialSetup P db user cred signingKey authorizedBy now).map fun r =>
      (tokens, r.2)).mapError .store
  | .registerClientDynamically tokenHash row now =>
    (SuiId.registerClientDynamically db tokens tokenHash row now).mapError .store

/-- Where a rebuild stands.  That of the startup does the origins first and then the keys. -/
inductive Rebuild where
  | origins (startup : Bool)
  | originsRead (startup : Bool) (list : Finset String)
  | keys (startup : Bool)
  | keysRead (list : List CachedSigningKey)

/-- The rebuild that the code of an operation performs after the commit. -/
def CacheOperation.rebuild : CacheOperation → Option Rebuild
  | .createClient .. | .updateClientBasic .. | .setClientDisabled .. | .deleteClient .. =>
    some (.origins false)
  | .rotateSigningKey .. | .deleteSigningKey .. => some (.keys false)
  | .completeInitialSetup .. | .registerClientDynamically .. => none

/-! ## Runs -/

/-- The database, the caches, and the rebuilds under way. -/
structure CacheWorld where
  db : Database
  registrationTokens : RegistrationTokens
  caches : Caches
  /-- The operations that have committed and not returned. -/
  inProgress : List Rebuild
  /-- A rebuild has failed. -/
  failed : Bool

/-- The process starts. -/
def CacheWorld.start (db : Database) (tokens : RegistrationTokens) : CacheWorld where
  db
  registrationTokens := tokens
  caches := .new
  inProgress := [.origins true]
  failed := false

/-- A commit, or a step of a rebuild. -/
inductive CacheEvent where
  | commit (operation : CacheOperation)
  /-- The rebuild at this place in the list takes its next step. -/
  | next (i : Nat)
  /-- Its database read fails. -/
  | fails (i : Nat)

/-- What a rebuild becomes, and what it stores. -/
def Rebuild.advance (P : Primitives) (db : Database) (caches : Caches) :
    Rebuild → Option Rebuild × Caches
  | .origins startup => (some (.originsRead startup (registeredOrigins P db)), caches)
  | .originsRead startup list =>
    (if startup then some (.keys true) else none, { caches with redirectOrigins := list })
  | .keys _ => (some (.keysRead (publishedKeys db)), caches)
  | .keysRead list => (none, { caches with jwks := list })

/-- A rebuild that cannot read.  The startup goes on with empty caches. -/
def Rebuild.onFailure (caches : Caches) : Rebuild → Option Caches
  | .origins startup => some (if startup then .new else caches)
  | .keys startup => some (if startup then .new else caches)
  | .originsRead .. => none
  | .keysRead _ => none

/-- The list after one rebuild has moved on. -/
def replaceAt (rebuilds : List Rebuild) (i : Nat) : Option Rebuild → List Rebuild
  | some r => rebuilds.set i r
  | none => rebuilds.eraseIdx i

/-- One event. -/
def cacheStep (P : Primitives) (w : CacheWorld) : CacheEvent → CacheWorld × CoreResult Unit
  | .commit operation =>
    match operation.perform P w.db w.registrationTokens with
    | .error e => (w, .error e)
    | .ok (registrationTokens, db) =>
      ({ w with db, registrationTokens, inProgress := w.inProgress ++ operation.rebuild.toList },
        .ok ())
  | .next i =>
    match w.inProgress[i]? with
    | none => (w, .ok ())
    | some r =>
      let (next, caches) := r.advance P w.db w.caches
      ({ w with caches, inProgress := replaceAt w.inProgress i next }, .ok ())
  | .fails i =>
    match w.inProgress[i]?.bind (Rebuild.onFailure w.caches) with
    | none => (w, .ok ())
    | some caches =>
      ({ w with caches, inProgress := w.inProgress.eraseIdx i, failed := true }, .ok ())

end SuiId

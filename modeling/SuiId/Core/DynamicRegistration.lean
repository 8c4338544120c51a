import SuiId.Core.RegistrationUris
import SuiId.Store.AuditChain
import SuiId.Store.Clients

/-!
# Dynamic registration

`dynamic_register` of `handlers/dynamic_register.rs`.  A request presents a bearer token and a body.
The token is only hashed.  The body is validated without a look at the token, and what the
validation gives is part of the request.  The transaction of C15 then finds the token, consumes one
use of it and creates the client.

The operator issues and revokes tokens from another process (C14, C22).  No other command touches a
token, so every other command is one event, which replaces the database.
-/

namespace SuiId.DynamicRegistration

open Lib Lib.Result

/-- `extract_registration_bearer_token`, from the values of the `Authorization` headers.  A value
that is not ASCII is `none`. -/
def extractRegistrationBearerToken : List (Option String) → Option String
  | [some raw] =>
    if Text.startsWith raw "Bearer " then
      let token := String.ofList (raw.toList.drop 7)
      if token.utf8ByteSize = 64 ∧
          token.toList.all (fun c => ('0' ≤ c && c ≤ '9') || ('a' ≤ c && c ≤ 'f')) = true then
        some token
      else none
    else none
  | _ => none

/-- `sha256_hex`. -/
def sha256Hex (P : Primitives) (token : String) : String := Audit.hexLower (P.sha256 (utf8 token))

/-- The fields of a body that has been validated. -/
structure Metadata where
  clientName : String
  authMethod : TokenEndpointAuthMethod
  redirectUris : List String
  grantTypes : List String
  scope : String
  postLogoutRedirectUris : List String := []
  logoUri : Option String := none
  homepageUri : Option String := none
  privacyPolicyUri : Option String := none
  tosUri : Option String := none

/-- The row of a client that registers itself.  It is disabled until an administrator enables it. -/
def Metadata.row (metadata : Metadata) (id : ClientId) (secretHash : String) : ClientRow where
  id
  name := metadata.clientName
  confidential := metadata.authMethod ≠ .none
  secretHash := if metadata.authMethod = .none then none else some secretHash
  allowedScopes := metadata.scope
  isDisabled := true
  isDeleted := false
  tokenEndpointAuthMethod := some metadata.authMethod
  grantTypes := some metadata.grantTypes
  redirectUris := metadata.redirectUris
  consentPolicy := .firstTime
  postLogoutRedirectUris := metadata.postLogoutRedirectUris
  logoUri := metadata.logoUri
  homepageUri := metadata.homepageUri
  privacyPolicyUri := metadata.privacyPolicyUri
  tosUri := metadata.tosUri

/-- Why a registration is refused. -/
inductive Refusal where
  /-- `reg_error`. -/
  | registration (status : Nat) (error description : String)
  | internal (error : CoreError)

/-- What the endpoint answers. -/
inductive Response where
  | created (row : ClientRow)
  | refused (refusal : Refusal)

/-- `invalid_token_response`. -/
def invalidTokenResponse : Response :=
  .refused (.registration 401 "invalid_token"
    "the registration token is missing, malformed, or not valid")

/-- A registration request, with the client id and the hash of the secret that are drawn for it. -/
structure Request where
  authorization : List (Option String)
  body : Except Refusal Metadata
  id : ClientId
  secretHash : String
  now : DateTime

/-- The hash of the token that a request presents. -/
def Request.tokenHash (P : Primitives) (request : Request) : Option String :=
  (extractRegistrationBearerToken request.authorization).map (sha256Hex P)

/-- `dynamic_register`. -/
def dynamicRegister (P : Primitives) (db : Database) (tokens : RegistrationTokens)
    (request : Request) : Response × RegistrationTokens × Database :=
  match request.tokenHash P with
  | none => (invalidTokenResponse, tokens, db)
  | some tokenHash =>
    match request.body with
    | .error refusal => (.refused refusal, tokens, db)
    | .ok metadata =>
      let row := metadata.row request.id request.secretHash
      match registerClientDynamically db tokens tokenHash row request.now with
      | .ok (tokens, db) => (.created row, tokens, db)
      | .error .notFound => (invalidTokenResponse, tokens, db)
      | .error e => (.refused (.internal (.store e)), tokens, db)

/-! ## The URIs of a document

The part of `dynamic_register` that decides which redirect URIs and which post-logout redirect URIs
a client gets.  It stands before the other fields are looked at.  What it gives is stored as it is
(`Metadata.redirectUris` and `Metadata.postLogoutRedirectUris`), and what it refuses is answered
without the URI that was sent.
-/

section Document

open RegistrationUris

/-- The fields of `RegistrationRequest` that are read here. -/
structure Document where
  redirectUris : List String
  tokenEndpointAuthMethod : Option String
  postLogoutRedirectUris : Option (List String)

/-- `validate_auth_method`. -/
def validateAuthMethod (raw : Option String) : Option String :=
  match raw with
  | none => some "client_secret_basic"
  | some method =>
    if method = "none" || method = "client_secret_basic" || method = "client_secret_post" then
      some method
    else none

/-- Where an entry stands in the list that was sent. -/
def position (list : List String) (uri : String) : String :=
  toString ((list.findIdx? (· = uri)).getD 0)

/-- `public_redirect_rejection`. -/
def publicRedirectRejection (e : RedirectRejection) (list : List String) : String :=
  match e with
  | .malformed uri _ => "redirect_uris: entry at index " ++ position list uri ++ " is malformed"
  | .duplicateRedirect uri =>
    "redirect_uris: entry at index " ++ position list uri ++ " is a duplicate"
  | .mixedProfile =>
    "redirect_uris: all entries must share one profile (HTTPS or numeric loopback), not a mix"
  | .confidentialWithLoopback =>
    "redirect_uris: an HTTP loopback redirect is only permitted with " ++
      "token_endpoint_auth_method=none"
  | .tooManyRedirects => "redirect_uris: at most 16 entries"

/-- `public_post_logout_rejection`. -/
def publicPostLogoutRejection (e : PostLogoutRejection) (list : List String) : String :=
  match e with
  | .malformed uri _ =>
    "post_logout_redirect_uris: entry at index " ++ position list uri ++ " is malformed"
  | .duplicate uri =>
    "post_logout_redirect_uris: entry at index " ++ position list uri ++ " is a duplicate"
  | .tooMany =>
    "post_logout_redirect_uris: at most " ++ toString maxPostLogoutRedirectUris ++ " entries"

/-- `public_auth_method_rejection`. -/
def publicAuthMethodRejection : String :=
  "token_endpoint_auth_method: must be none, client_secret_basic, or client_secret_post"

/-- The lists that are stored. -/
structure StoredUris where
  redirectUris : List String
  postLogoutRedirectUris : List String
deriving DecidableEq

/-- The checks on the document, and the URIs that are stored. -/
def Document.uris (P : Primitives) (document : Document) : Except Refusal StoredUris := do
  ensure (!document.redirectUris.isEmpty)
    (.registration 400 "invalid_redirect_uri" "redirect_uris must contain at least one URI")
  let authMethod ← require (validateAuthMethod document.tokenEndpointAuthMethod)
    (.registration 400 "invalid_client_metadata" publicAuthMethodRejection)
  let _ ← (deriveClosedProfile P authMethod document.redirectUris).mapError fun e =>
    .registration 400 "invalid_redirect_uri" (publicRedirectRejection e document.redirectUris)
  let redirectUris := document.redirectUris.mergeSort fun a b => decide (a ≤ b)
  let postLogout ← (validatePostLogoutRedirectUris P document.postLogoutRedirectUris).mapError
    fun e => .registration 400 "invalid_client_metadata"
      (publicPostLogoutRejection e (document.postLogoutRedirectUris.getD []))
  return ⟨redirectUris, postLogout⟩

end Document

/-! ## Runs -/

/-- The database and the registration tokens. -/
structure World where
  db : Database
  tokens : RegistrationTokens

/-- No token has been issued. -/
def World.new (db : Database) : World := ⟨db, ∅⟩

/-- A command on a token, a request, or another write. -/
inductive Event where
  | issue (id : Nat) (tokenHash : String) (maxUses : Int) (expiresAt : Option DateTime)
  | revoke (target : Nat) (now : DateTime)
  | register (request : Request)
  /-- Another command leaves this database. -/
  | elsewhere (db : Database)

/-- What an event answers. -/
inductive Answer where
  | response (response : Response)
  | done (result : StoreResult Unit)

/-- One event. -/
def step (P : Primitives) (w : World) : Event → World × Answer
  | .issue id tokenHash maxUses expiresAt =>
    match issueRegistrationToken w.db w.tokens ⟨id, tokenHash, maxUses, 0, expiresAt, none⟩ with
    | .ok (tokens, db) => (⟨db, tokens⟩, .done (.ok ()))
    | .error e => (w, .done (.error e))
  | .revoke target now =>
    match revokeRegistrationToken w.db w.tokens target now with
    | .ok (tokens, db) => (⟨db, tokens⟩, .done (.ok ()))
    | .error e => (w, .done (.error e))
  | .register request =>
    let (response, tokens, db) := dynamicRegister P w.db w.tokens request
    (⟨db, tokens⟩, .response response)
  | .elsewhere db => ({ w with db }, .done (.ok ()))

/-- The effect of a step. -/
inductive Effect (P : Primitives) (w : World) : Event → World → Answer → Prop where
  | failed {e error} : Effect P w e w (.done (.error error))
  | refused {request refusal} :
      Effect P w (.register request) w (.response (.refused refusal))
  | issued {id tokenHash maxUses expiresAt tokens db} :
      issueRegistrationToken w.db w.tokens ⟨id, tokenHash, maxUses, 0, expiresAt, none⟩ =
        .ok (tokens, db) →
      Effect P w (.issue id tokenHash maxUses expiresAt) ⟨db, tokens⟩ (.done (.ok ()))
  | revoked {target now tokens db} :
      revokeRegistrationToken w.db w.tokens target now = .ok (tokens, db) →
      Effect P w (.revoke target now) ⟨db, tokens⟩ (.done (.ok ()))
  | registered {request : Request} {tokenHash row tokens db} :
      request.tokenHash P = some tokenHash →
      registerClientDynamically w.db w.tokens tokenHash row request.now = .ok (tokens, db) →
      Effect P w (.register request) ⟨db, tokens⟩ (.response (.created row))
  | elsewhere {db} : Effect P w (.elsewhere db) { w with db } (.done (.ok ()))

theorem step_effect (P : Primitives) (w : World) (e : Event) :
    Effect P w e (step P w e).1 (step P w e).2 := by
  cases e with
  | issue id tokenHash maxUses expiresAt =>
    dsimp only [step]
    split
    · next hcommit => exact .issued hcommit
    · exact .failed
  | revoke target now =>
    dsimp only [step]
    split
    · next hcommit => exact .revoked hcommit
    · exact .failed
  | register request =>
    dsimp only [step, dynamicRegister]
    split
    · exact .refused
    · next hhash =>
      split
      · exact .refused
      · split
        · next hcommit => exact .registered hhash hcommit
        · exact .refused
        · exact .refused
  | elsewhere db => exact .elsewhere

end SuiId.DynamicRegistration

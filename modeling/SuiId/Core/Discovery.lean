import SuiId.Core.Jwks

/-!
# The discovery document of an upstream provider

`validate_discovery_bytes` of `http/discovery.rs`: the bounds on the bytes and on the document,
and `ValidatedDiscovery::validate` with the check of an endpoint.
-/

namespace SuiId

open Lib Lib.Result

/-- `RawDiscovery`. -/
structure RawDiscovery where
  issuer : String
  authorizationEndpoint : String
  tokenEndpoint : String
  userinfoEndpoint : Option String
  jwksUri : Option String
  responseTypesSupported : List String
  grantTypesSupported : Option (List String)
  codeChallengeMethodsSupported : List String
  authorizationResponseIssParameterSupported : Bool
  tokenEndpointAuthMethodsSupported : List String
  idTokenSigningAlgValuesSupported : List String
  subjectTypesSupported : List String

/-- `serde_json::from_value`. -/
def RawDiscovery.fromValue (value : Json) : Option RawDiscovery := do
  let field ← value.record ["issuer", "authorization_endpoint", "token_endpoint",
    "userinfo_endpoint", "jwks_uri", "response_types_supported", "grant_types_supported",
    "code_challenge_methods_supported", "authorization_response_iss_parameter_supported",
    "token_endpoint_auth_methods_supported", "id_token_signing_alg_values_supported",
    "subject_types_supported"]
  let issuer ← (field "issuer").bind Json.asStr?
  let authorizationEndpoint ← (field "authorization_endpoint").bind Json.asStr?
  let tokenEndpoint ← (field "token_endpoint").bind Json.asStr?
  let userinfoEndpoint ← Json.optional Json.asStr? (field "userinfo_endpoint")
  let jwksUri ← Json.optional Json.asStr? (field "jwks_uri")
  let responseTypesSupported ← (field "response_types_supported").bind Json.asStrings?
  let grantTypesSupported ← Json.optional Json.asStrings? (field "grant_types_supported")
  let codeChallengeMethodsSupported ←
    (field "code_challenge_methods_supported").bind Json.asStrings?
  let authorizationResponseIssParameterSupported ←
    (field "authorization_response_iss_parameter_supported").bind Json.asBool?
  let tokenEndpointAuthMethodsSupported ←
    (field "token_endpoint_auth_methods_supported").bind Json.asStrings?
  let idTokenSigningAlgValuesSupported ←
    (field "id_token_signing_alg_values_supported").bind Json.asStrings?
  let subjectTypesSupported ← (field "subject_types_supported").bind Json.asStrings?
  return {
    issuer, authorizationEndpoint, tokenEndpoint, userinfoEndpoint, jwksUri
    responseTypesSupported, grantTypesSupported, codeChallengeMethodsSupported
    authorizationResponseIssParameterSupported, tokenEndpointAuthMethodsSupported
    idTokenSigningAlgValuesSupported, subjectTypesSupported }

/-- `DiscoveryError`. -/
inductive DiscoveryError where
  | invalidIssuer (issuer : String)
  | notAbsolute (field value : String)
  | notHttps (field value : String)
  | hasUserinfo (field : String)
  | hasQuery (field : String)
  | hasFragment (field : String)
  | noncanonical (field : String)
  | originNotAllowed (field origin : String)
  | issuerMismatch
  | responseTypesMissingCode
  | grantTypesMissingAuthorizationCode
  | codeChallengeMethodsMissingS256
  | authorizationResponseIssNotTrue
  | subjectTypesMissingPublic
  | bounds (error : BoundsError)
  | tooDeep (limit : Nat)
  | duplicateMember (name : String)
  | notJson
deriving DecidableEq

/-- `DISCOVERY_MAX_DEPTH`. -/
def discoveryMaxDepth : Nat := 16

/-- `ResponseCaps::DISCOVERY`. -/
def ResponseCaps.discovery : ResponseCaps where
  maxMembers := 128
  maxArrayLen := 32
  maxStringLen := 2048

/-- `ValidatedDiscovery`. -/
structure ValidatedDiscovery where
  authorizationEndpoint : String
  tokenEndpoint : String
  userinfoEndpoint : Option String
  jwksUri : Option String
  tokenEndpointAuthMethodsSupported : List String
  idTokenSigningAlgValuesSupported : List String

/-- The port that a scheme has of itself. -/
def defaultPort (scheme : String) : Option Nat :=
  if scheme = "https" ∨ scheme = "wss" then some 443
  else if scheme = "http" ∨ scheme = "ws" then some 80
  else if scheme = "ftp" then some 21
  else none

/-- `ascii_serialization`. -/
def UrlOrigin.asciiSerialization : UrlOrigin → String
  | .ofItsOwn => "null"
  | .tuple scheme host port =>
    if defaultPort scheme = some port then scheme ++ "://" ++ host
    else scheme ++ "://" ++ host ++ ":" ++ toString port

/-- `allowed.contains`, for an origin that has just been made. -/
def UrlOrigin.among (origin : UrlOrigin) (allowed : List UrlOrigin) : Bool :=
  origin ≠ .ofItsOwn && allowed.contains origin

section Validate

variable (P : Primitives)

/-- `check_endpoint`. -/
def checkEndpoint (field value : String) (allowed : List UrlOrigin) :
    Except DiscoveryError String := do
  let url ← require (P.parseUrl value) (.notAbsolute field value)
  ensure (url.scheme = "https") (.notHttps field value)
  ensure (url.username.isEmpty && url.password.isNone) (.hasUserinfo field)
  ensure url.query.isNone (.hasQuery field)
  ensure url.fragment.isNone (.hasFragment field)
  ensure (url.asStr = value) (.noncanonical field)
  ensure (url.origin.among allowed) (.originNotAllowed field url.origin.asciiSerialization)
  return value

/-- An endpoint that a document may leave out. -/
def checkOptionalEndpoint (field : String) (value : Option String) (allowed : List UrlOrigin) :
    Except DiscoveryError (Option String) :=
  match value with
  | some value => (checkEndpoint P field value allowed).map some
  | none => .ok none

/-- `ValidatedDiscovery::validate`.  With no allowed origins that of the issuer is. -/
def ValidatedDiscovery.validate (raw : RawDiscovery) (issuer allowedOrigins : String) :
    Except DiscoveryError ValidatedDiscovery := do
  ensure (raw.issuer = issuer) .issuerMismatch
  let issuerUrl ← require (P.parseUrl issuer) (.invalidIssuer issuer)
  let allowed ←
    if (Text.trim allowedOrigins).isEmpty then .ok [issuerUrl.origin]
    else
      (Text.splitWhitespace allowedOrigins).mapM fun s =>
        (require (P.parseUrl s) (.invalidIssuer issuer)).map Url.origin
  let authorizationEndpoint ←
    checkEndpoint P "authorization_endpoint" raw.authorizationEndpoint allowed
  let tokenEndpoint ← checkEndpoint P "token_endpoint" raw.tokenEndpoint allowed
  let userinfoEndpoint ← checkOptionalEndpoint P "userinfo_endpoint" raw.userinfoEndpoint allowed
  let jwksUri ← checkOptionalEndpoint P "jwks_uri" raw.jwksUri allowed
  ensure (raw.responseTypesSupported.any (· = "code")) .responseTypesMissingCode
  ensure (raw.grantTypesSupported.all fun grants => grants.any (· = "authorization_code"))
    .grantTypesMissingAuthorizationCode
  ensure (raw.codeChallengeMethodsSupported.any (· = "S256")) .codeChallengeMethodsMissingS256
  ensure raw.authorizationResponseIssParameterSupported .authorizationResponseIssNotTrue
  ensure (raw.subjectTypesSupported.any (· = "public")) .subjectTypesMissingPublic
  return {
    authorizationEndpoint, tokenEndpoint, userinfoEndpoint, jwksUri
    tokenEndpointAuthMethodsSupported := raw.tokenEndpointAuthMethodsSupported
    idTokenSigningAlgValuesSupported := raw.idTokenSigningAlgValuesSupported }

/-- `validate_discovery_bytes`. -/
def validateDiscoveryBytes (J : JoseCrates) (bytes : Bytes) (issuer allowedOrigins : String) :
    Except DiscoveryError ValidatedDiscovery := do
  ensure (bytes.length ≤ maxResponseBytes) (.bounds (.tooLarge maxResponseBytes))
  let document ← require (J.read bytes) .notJson
  let value := document.collect
  (checkCaps .discovery value).mapError .bounds
  ensure (nestingDepth value ≤ discoveryMaxDepth) (.tooDeep discoveryMaxDepth)
  match firstRepeatedMember document with
  | some name => .error (.duplicateMember name)
  | none => do
    let raw ← require (RawDiscovery.fromValue value) .notJson
    ValidatedDiscovery.validate P raw issuer allowedOrigins

end Validate

end SuiId

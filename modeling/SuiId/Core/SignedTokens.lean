import SuiId.Core.Caches
import SuiId.Lib.Base64
import SuiId.Lib.Json

/-!
# Signed tokens

The texts that the server signs: `jwt::sign`, `tokens::issue_token_set`, and how the claims are
written as JSON and read again.  A reader skips the members that are not its own, and a member of
type `Option` may be missing.
-/

namespace SuiId

open Lib Lib.Result

/-- What signing and reading takes from `serde_json` and `ed25519-dalek`. -/
structure JwtCrates where
  /-- `to_vec`. -/
  write : Json → Bytes
  /-- The document that `from_slice` reads. -/
  read : Bytes → Option Json
  /-- Ed25519: secret key and message. -/
  sign : Bytes → Bytes → Bytes
  isVerifyingKey : Bytes → Bool
  /-- Ed25519: public key, message, signature. -/
  verifySignature : Bytes → Bytes → Bytes → Bool

/-! ## Claims as JSON -/

/-- The payload of an access token. -/
def AccessTokenClaims.toJson (c : AccessTokenClaims) : Json :=
  .object [("iss", .string c.iss), ("sub", .string c.sub), ("aud", .string c.aud),
    ("iat", .ofInt c.iat), ("exp", .ofInt c.exp), ("scope", .string c.scope),
    ("jti", .string c.jti)]

/-- The claims in a payload. -/
def AccessTokenClaims.ofJson (v : Json) : Option AccessTokenClaims := do
  let field ← v.record ["iss", "sub", "aud", "iat", "exp", "scope", "jti"]
  let iss ← (field "iss").bind Json.asStr?
  let sub ← (field "sub").bind Json.asStr?
  let aud ← (field "aud").bind Json.asStr?
  let iat ← (field "iat").bind Json.asInt?
  let exp ← (field "exp").bind Json.asInt?
  let scope ← (field "scope").bind Json.asStr?
  let jti ← (field "jti").bind Json.asStr?
  pure { iss, sub, aud, iat, exp, scope, jti }

/-- A member that is skipped when there is no value. -/
def skipNone (name : String) (v : Option Json) : List (String × Json) :=
  match v with
  | some v => [(name, v)]
  | none => []

/-- The payload of an ID token. -/
def IdTokenClaims.toJson (c : IdTokenClaims) : Json :=
  .object ([("iss", .string c.iss), ("sub", .string c.sub), ("aud", .string c.aud),
      ("iat", .ofInt c.iat), ("exp", .ofInt c.exp)] ++ skipNone "nonce" (c.nonce.map .string) ++
    [("jti", .string c.jti)] ++ skipNone "acr" (c.acr.map .string) ++
    skipNone "amr" (c.amr.map fun amr => .array (amr.map .string)) ++
    skipNone "email" (c.email.map .string) ++
    skipNone "email_verified" (c.emailVerified.map .bool))

/-- The claims in a payload. -/
def IdTokenClaims.ofJson (v : Json) : Option IdTokenClaims := do
  let field ← v.record ["iss", "sub", "aud", "iat", "exp", "nonce", "jti", "acr", "amr", "email",
    "email_verified"]
  let iss ← (field "iss").bind Json.asStr?
  let sub ← (field "sub").bind Json.asStr?
  let aud ← (field "aud").bind Json.asStr?
  let iat ← (field "iat").bind Json.asInt?
  let exp ← (field "exp").bind Json.asInt?
  let nonce ← Json.optional Json.asStr? (field "nonce")
  let jti ← (field "jti").bind Json.asStr?
  let acr ← Json.optional Json.asStr? (field "acr")
  let amr ← Json.optional Json.asStrings? (field "amr")
  let email ← Json.optional Json.asStr? (field "email")
  let emailVerified ← Json.optional Json.asBool? (field "email_verified")
  pure { iss, sub, aud, iat, exp, nonce, jti, acr, amr, email, emailVerified }

/-! ## Signing -/

/-- `Header`. -/
def jwtHeader (kid : String) : Json :=
  .object [("alg", .string "EdDSA"), ("typ", .string "JWT"), ("kid", .string kid)]

/-- `ParsedHeader`. -/
def JwtHeader.ofJson (v : Json) : Option JwtHeader := do
  let field ← v.record ["alg", "kid"]
  let alg ← (field "alg").bind Json.asStr?
  let kid ← (field "kid").bind Json.asStr?
  pure { alg, kid }

section Sign

variable (J : JwtCrates)

/-- `signing_input`. -/
def signingInput (kid : String) (claims : Json) : String :=
  Base64Url.encode (J.write (jwtHeader kid)) ++ "." ++ Base64Url.encode (J.write claims)

/-- `jwt::sign`. -/
def jwtSign (kid : String) (signingKey : Bytes) (claims : Json) : String :=
  let input := signingInput J kid claims
  input ++ "." ++ Base64Url.encode (J.sign signingKey (utf8 input))

/-- What `jwt::verify` and the readers of claims use. -/
def JwtCrates.packages : JwtPackages where
  decodeBase64Url := Base64Url.decode
  parseHeader bytes := (J.read bytes).bind JwtHeader.ofJson
  isVerifyingKey := J.isVerifyingKey
  verifySignature := J.verifySignature
  parseAccessTokenClaims bytes := (J.read bytes).bind AccessTokenClaims.ofJson
  parseIdTokenClaims bytes := (J.read bytes).bind IdTokenClaims.ofJson

/-- The range of `i64`. -/
def InI64 (n : Int) : Prop := -2 ^ 63 ≤ n ∧ n < 2 ^ 63

instance (n : Int) : Decidable (InI64 n) := inferInstanceAs (Decidable (_ ∧ _))

/-- The arguments of `issue_token_set`, with what it reads from the clock and draws. -/
structure TokenIssue where
  issuer : String
  user : UserId
  client : ClientId
  scope : String
  nonce : Option String
  includeIdToken : Bool
  kid : String
  signingKey : Bytes
  lifetimes : TokenLifetimes
  now : DateTime
  authMethods : List AuthMethod
  userEmail : Option (String × Bool)
  accessJti : String
  idJti : String
  iatFits : InI64 (timestamp now)
  accessFits : InI64 (timestamp now + lifetimes.accessSecs)
  idFits : InI64 (timestamp now + lifetimes.idSecs)

namespace TokenIssue

variable (i : TokenIssue)

/-- The claims of the access token. -/
def accessClaims : AccessTokenClaims where
  iss := i.issuer
  sub := toString i.user
  aud := toString i.client
  iat := timestamp i.now
  exp := timestamp i.now + i.lifetimes.accessSecs
  scope := i.scope
  jti := i.accessJti

/-- The claims of the ID token. -/
def idClaims : IdTokenClaims :=
  let email := i.userEmail.filter fun _ => scopeHas i.scope "email"
  { iss := i.issuer
    sub := toString i.user
    aud := toString i.client
    iat := timestamp i.now
    exp := timestamp i.now + i.lifetimes.idSecs
    nonce := i.nonce
    jti := i.idJti
    acr := if i.authMethods.isEmpty then none else some (acrFromMethods i.authMethods)
    amr := if i.authMethods.isEmpty then none else some (amrFromMethods i.authMethods)
    email := email.map (·.1)
    emailVerified := email.map (·.2) }

/-- The text of the access token that is signed. -/
def accessInput : String := signingInput J i.kid i.accessClaims.toJson

/-- The signed part of the ID token. -/
def idInput : String := signingInput J i.kid i.idClaims.toJson

end TokenIssue

/-- `TokenSet`, as far as it is signed. -/
structure SignedTokenSet where
  accessToken : String
  idToken : Option String
  accessExpiresIn : Int
  userId : Option UserId
deriving DecidableEq

/-- `issue_token_set`. -/
def issueTokenSet (i : TokenIssue) : SignedTokenSet where
  accessToken := jwtSign J i.kid i.signingKey i.accessClaims.toJson
  idToken :=
    if i.includeIdToken then some (jwtSign J i.kid i.signingKey i.idClaims.toJson) else none
  accessExpiresIn := i.lifetimes.accessSecs
  userId := some i.user

end Sign

end SuiId

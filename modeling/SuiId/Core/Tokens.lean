import SuiId.Core.Session
import SuiId.Store.Sealed

/-!
# Token sets

The claims of the access and ID tokens, the pair signed for a grant
(`issue_jwt_pair`) and the PKCE check.  Signing itself is not modelled: a
signed token is its claims together with the key that signed them.
-/

namespace SuiId

open Lib Lib.Result

/-! ## Authentication methods in claims -/

/-- `AuthMethod::as_amr`. -/
def AuthMethod.asAmr : AuthMethod → String
  | .pwd => "pwd"
  | .totp | .recoveryCode => "otp"
  | .webauthn => "hwk"
  | .fed => "fed"

/-- `AuthMethod::is_second_factor`. -/
def AuthMethod.isSecondFactor : AuthMethod → Bool
  | .pwd => false
  | .totp | .recoveryCode | .webauthn | .fed => true

/-- `AuthMethod::is_phishing_resistant`. -/
def AuthMethod.isPhishingResistant : AuthMethod → Bool
  | .webauthn => true
  | _ => false

/-- `acr_from_methods`. -/
def acrFromMethods (methods : List AuthMethod) : String :=
  if methods.any AuthMethod.isPhishingResistant then "3"
  else if methods.any AuthMethod.isSecondFactor then "2"
  else "1"

/-- `amr_from_methods`. -/
def amrFromMethods (methods : List AuthMethod) : List String :=
  let out := methods.foldl
    (fun out m => if out.contains m.asAmr then out else out ++ [m.asAmr]) []
  if 2 ≤ out.length && !out.contains "mfa" then out ++ ["mfa"] else out

/-! ## Claims -/

/-- `AccessTokenClaims`. -/
structure AccessTokenClaims where
  iss : String
  sub : String
  aud : String
  iat : Int
  exp : Int
  scope : String
  jti : String
deriving DecidableEq

/-- `IdTokenClaims`. -/
structure IdTokenClaims where
  iss : String
  sub : String
  aud : String
  iat : Int
  exp : Int
  nonce : Option String
  jti : String
  acr : Option String
  amr : Option (List String)
  email : Option String
  emailVerified : Option Bool
deriving DecidableEq

/-- Claims signed with the private key `key`, named `kid` in the header. -/
structure Jwt (claims : Type) where
  kid : String
  key : Bytes
  claims : claims
deriving DecidableEq

/-- `TokenSet`. -/
structure TokenSet where
  accessToken : Jwt AccessTokenClaims
  idToken : Option (Jwt IdTokenClaims)
  refreshToken : Bytes
  accessExpiresIn : Int
  userId : Option UserId
deriving DecidableEq

/-- `TokenLifetimes`. -/
structure TokenLifetimes where
  accessSecs : Int
  idSecs : Int
  refreshSecs : Int

/-- `IssuanceContext`. -/
structure IssuanceContext where
  issuer : String
  lifetimes : TokenLifetimes

/-- `TokenLifetimes::default`. -/
def TokenLifetimes.default : TokenLifetimes := ⟨15 * 60, 15 * 60, 14 * 24 * 60 * 60⟩

/-! ## Signing -/

namespace SigningKeys

/-- `active`: the newest active key. -/
def active (db : Database) : Option SigningKeyRow :=
  (db.signingKeys.rows.filter (·.isActive)).foldl
    (fun best k => if best.all fun b => b.createdAt < k.createdAt then some k else best) none

end SigningKeys

/-- Does the space-separated scope contain this token? -/
def scopeHas (scope token : String) : Bool := (Text.splitWhitespace scope).contains token

/-- What one exchange draws and reads from the clock to sign its tokens. -/
structure SigningDraw where
  now : DateTime
  key : MasterKey
  accessJti : String
  idJti : String

/-- The access token, the ID token and the lifetime of `issue_jwt_pair`. -/
structure JwtPair where
  accessToken : Jwt AccessTokenClaims
  idToken : Option (Jwt IdTokenClaims)
  accessExpiresIn : Int
deriving DecidableEq

/-- Unix seconds of a time. -/
def timestamp (t : DateTime) : Int := t / 1000000000

/-- `issue_jwt_pair`. -/
def issueJwtPair (P : Primitives) (db : Database) (ctx : IssuanceContext) (draw : SigningDraw)
    (user : UserId) (client : ClientId) (scope : String) (nonce : Option String)
    (authMethods : List AuthMethod) (userEmail : Option (String × Bool)) : CoreResult JwtPair := do
  let keyRow ← require (SigningKeys.active db) .internal
  let privateBytes ← (openBytes P draw.key keyRow.privateKeyEnc SigningKeys.aad).mapError .store
  ensure (privateBytes.length == 32) .internal
  let kid := toString keyRow.id
  let iat := timestamp draw.now
  let email := userEmail.filter fun _ => scopeHas scope "email"
  let access : AccessTokenClaims :=
    { iss := ctx.issuer, sub := toString user, aud := toString client, iat
      exp := iat + ctx.lifetimes.accessSecs, scope, jti := draw.accessJti }
  let id : IdTokenClaims :=
    { iss := ctx.issuer, sub := toString user, aud := toString client, iat
      exp := iat + ctx.lifetimes.idSecs, nonce, jti := draw.idJti
      acr := if authMethods.isEmpty then none else some (acrFromMethods authMethods)
      amr := if authMethods.isEmpty then none else some (amrFromMethods authMethods)
      email := email.map (·.1), emailVerified := email.map (·.2) }
  pure
    { accessToken := ⟨kid, privateBytes, access⟩
      idToken := if scopeHas scope "openid" then some ⟨kid, privateBytes, id⟩ else none
      accessExpiresIn := ctx.lifetimes.accessSecs }

/-- `verify_pkce`: only `S256` is accepted. -/
def verifyPkce (P : Primitives) (method verifier expectedChallenge : String) : CoreResult Unit :=
  if method == "S256" then
    ensure (P.base64Url (P.sha256 (utf8 verifier)) == expectedChallenge)
      (.protocol .invalidGrant "PKCE verification failed")
  else
    .error (.protocol .invalidGrant ("unsupported code_challenge_method: " ++ method))

end SuiId

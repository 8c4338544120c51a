import SuiId.Core.Authorize

/-!
# The URIs of a client that is registered

The URI rules of `http/dynamic_registration_validation.rs`.  `well_formed_uri` is the floor that
every field shares: scans of the raw text, and what is looked at of the parsed URL.  On it stand
the redirect profile of a registration, its post-logout redirect URIs and the links of an
application, which the edit form of an administrator checks by the same rule.
-/

namespace SuiId.RegistrationUris

open Lib Lib.Result

/-- `is_ascii_hexdigit`. -/
def isAsciiHexdigit (c : Char) : Bool :=
  c.isDigit || ('a' ≤ c && c ≤ 'f') || ('A' ≤ c && c ≤ 'F')

/-- A `%` that two hexadecimal digits do not follow. -/
def hasMalformedPercentEscape : List Char → Bool
  | [] => false
  | c :: cs =>
    if c = '%' then
      match cs with
      | a :: b :: rest =>
        !isAsciiHexdigit a || !isAsciiHexdigit b || hasMalformedPercentEscape rest
      | _ => true
    else hasMalformedPercentEscape cs

/-- `:443` at the end of the authority of an `https://` text, or `:80` of an `http://` text.  The
colons of a bracketed address are left out. -/
def hasExplicitDefaultPort (uri : String) : Bool :=
  let inAuthority (rest : List Char) (port : String) : Bool :=
    let authority := rest.takeWhile fun c => c ≠ '/' && c ≠ '?' && c ≠ '#'
    let afterHost := (authority.reverse.takeWhile (· ≠ ']')).reverse
    port.toList.isSuffixOf afterHost
  if Text.startsWith uri "https://" then inAuthority (uri.toList.drop 8) ":443"
  else if Text.startsWith uri "http://" then inAuthority (uri.toList.drop 7) ":80"
  else false

section Floor

variable (P : Primitives)

/-- `well_formed_uri`. -/
def wellFormedUri (uri : String) (maxBytes : Nat) : Except String Url := do
  ensure (uri.utf8ByteSize ≤ maxBytes) "exceeds the byte limit"
  ensure (uri.toList.all fun c => c.toNat < 0x80)
    "non-ASCII; submit canonical ASCII punycode, not a Unicode hostname"
  ensure (!uri.toList.contains (Char.ofNat 0x5c)) "contains a backslash"
  ensure (!uri.toList.contains '*') "contains a wildcard/pattern character"
  ensure (!hasMalformedPercentEscape uri.toList) "malformed percent escape"
  ensure (!hasExplicitDefaultPort uri)
    "explicit default port (443 for https, 80 for http) is redundant"
  let parsed ← require (P.parseUrl uri) "not a valid URL"
  ensure parsed.fragment.isNone "must not contain a fragment"
  ensure (parsed.username.isEmpty && parsed.password.isNone) "must not contain userinfo"
  return parsed

/-! ## Redirect URIs -/

/-- `MAX_REDIRECT_URIS`. -/
def maxRedirectUris : Nat := 16

/-- `MAX_REDIRECT_URI_BYTES`. -/
def maxRedirectUriBytes : Nat := 2048

/-- The shapes of a redirect URI. -/
inductive Shape where
  | https
  | numericLoopbackHttp
deriving DecidableEq

/-- `RedirectProfile`. -/
inductive RedirectProfile where
  | publicHttps
  | publicNativeLoopback
  | confidentialHttps
deriving DecidableEq

/-- `RedirectRejection`. -/
inductive RedirectRejection where
  | malformed (uri reason : String)
  | mixedProfile
  | confidentialWithLoopback
  | tooManyRedirects
  | duplicateRedirect (uri : String)
deriving DecidableEq

/-- A numeric loopback host needs a port that is not zero. -/
def wellFormedShape (uri : String) : Except RedirectRejection Shape := do
  let parsed ← (wellFormedUri P uri maxRedirectUriBytes).mapError (.malformed uri)
  if parsed.scheme = "https" then return .https
  else if parsed.scheme = "http" then
    ensure (isNumericLoopbackHttp parsed)
      (.malformed uri ("http is only permitted on a numeric loopback address " ++
        "(127.0.0.1 or [::1], not a name such as localhost, and not a remote or private host)"))
    ensure (parsed.port.any (· ≠ 0))
      (.malformed uri "numeric loopback requires an explicit, nonzero port")
    return .numericLoopbackHttp
  else .error (.malformed uri "scheme must be https, or http on numeric loopback")

/-- No entry of the list is there twice, byte by byte. -/
def firstDuplicate : List String → List String → Option String
  | _, [] => none
  | seen, uri :: rest =>
    if seen.contains uri then some uri else firstDuplicate (uri :: seen) rest

/-- `derive_closed_profile`.  The list is not empty where it is called. -/
def deriveClosedProfile (authMethod : String) (redirectUris : List String) :
    Except RedirectRejection RedirectProfile := do
  ensure (redirectUris.length ≤ maxRedirectUris) .tooManyRedirects
  match firstDuplicate [] redirectUris with
  | some uri => .error (.duplicateRedirect uri)
  | none =>
    match redirectUris with
    | [] => .error .mixedProfile
    | uri :: rest => do
      let first ← wellFormedShape P uri
      rest.forM fun uri => do
        let shape ← wellFormedShape P uri
        ensure (shape = first) .mixedProfile
      match decide (authMethod = "none"), first with
      | true, .https => return .publicHttps
      | true, .numericLoopbackHttp => return .publicNativeLoopback
      | false, .https => return .confidentialHttps
      | false, .numericLoopbackHttp => .error .confidentialWithLoopback

/-! ## Links of an application -/

/-- `MAX_APPLICATION_URI_BYTES`. -/
def maxApplicationUriBytes : Nat := maxRedirectUriBytes

/-- `InvalidApplicationUri`. -/
structure InvalidApplicationUri where
  field : String
  uri : String
  reason : String
deriving DecidableEq

/-- `InvalidApplicationUri::display`. -/
def InvalidApplicationUri.display (e : InvalidApplicationUri) : String :=
  e.field ++ ": " ++ e.uri ++ ": " ++ e.reason

/-- `validate_application_uri`: absent or empty, or `https`. -/
def validateApplicationUri (raw : Option String) (field : String) :
    Except InvalidApplicationUri (Option String) :=
  match raw.filter fun uri => !uri.isEmpty with
  | none => .ok none
  | some uri => do
    let parsed ← (wellFormedUri P uri maxApplicationUriBytes).mapError fun reason =>
      ⟨field, uri, reason⟩
    ensure (parsed.scheme = "https") ⟨field, uri, "must be https"⟩
    return some uri

/-! ## Post-logout redirect URIs -/

/-- `MAX_POST_LOGOUT_REDIRECT_URIS`. -/
def maxPostLogoutRedirectUris : Nat := 16

/-- `PostLogoutRejection`. -/
inductive PostLogoutRejection where
  | malformed (uri reason : String)
  | tooMany
  | duplicate (uri : String)
deriving DecidableEq

/-- The walk over the list: an entry is compared with those before it and then checked. -/
def checkPostLogoutUris : List String → List String → Except PostLogoutRejection Unit
  | _, [] => .ok ()
  | seen, uri :: rest => do
    ensure (!seen.contains uri) (.duplicate uri)
    let parsed ← (wellFormedUri P uri maxApplicationUriBytes).mapError (.malformed uri)
    ensure (parsed.scheme = "https") (.malformed uri "must be https")
    checkPostLogoutUris (uri :: seen) rest

/-- `validate_post_logout_redirect_uris`. -/
def validatePostLogoutRedirectUris (raw : Option (List String)) :
    Except PostLogoutRejection (List String) :=
  match raw with
  | none => .ok []
  | some uris => do
    ensure (uris.length ≤ maxPostLogoutRedirectUris) .tooMany
    checkPostLogoutUris P [] uris
    return uris

end Floor

end SuiId.RegistrationUris

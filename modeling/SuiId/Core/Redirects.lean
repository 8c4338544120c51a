import SuiId.Core.Authorize
import SuiId.Core.Caches
import SuiId.Lib.FormUrl

/-!
# Redirects to a client

The five places of `handlers/oidc.rs` that send a browser back to a client, up to the text that is
given to `Redirect::to`: the end of `authorize`, `protocol_error_redirect`, the two answers of
`consent_post`, and `logout`.
-/

namespace SuiId

open Lib Lib.Result

/-! ## Texts of errors -/

/-- `ProtocolError::as_str`. -/
def ProtocolError.asStr : ProtocolError → String
  | .invalidRequest => "invalid_request"
  | .invalidClient => "invalid_client"
  | .invalidGrant => "invalid_grant"
  | .unauthorizedClient => "unauthorized_client"
  | .unsupportedGrantType => "unsupported_grant_type"
  | .invalidScope => "invalid_scope"
  | .unsupportedResponseType => "unsupported_response_type"
  | .accessDenied => "access_denied"
  | .serverError => "server_error"
  | .temporarilyUnavailable => "temporarily_unavailable"

/-- The texts of `RecoveryRefusal`. -/
def RecoveryRefusal.display : RecoveryRefusal → String
  | .reasonRequired => "a reason is required"
  | .reasonTooLong =>
    "the reason is too long (at most 200 characters, and at most " ++
      toString maxAttributeValueBytes ++ " bytes)"
  | .reasonHasControlCharacters =>
    "the reason must not contain control characters such as a newline or tab"
  | .targetUnknown => "no such user"
  | .targetIsSelf => "the target is the issuing administrator"
  | .targetIsAdmin => "the target is an administrator"
  | .targetNonLocal => "the target is not a local account"
  | .targetDisabled => "the target is disabled"
  | .targetDeleted => "the target is deleted"
  | .throttled => "the hourly limit of recovery links has been reached"

/-- The texts of `StoreError`. -/
def StoreError.display : StoreError → String
  | .db => "database I/O error"
  | .crypto => "encryption / decryption failure"
  | .invalidMasterKeyLength length =>
    "invalid master key length: expected 32 bytes, got " ++ toString length
  | .notFound => "requested resource was not found"
  | .conflict => "requested operation conflicts with current state"
  | .integrity message => "data integrity violation: " ++ message
  | .serde => "serialization error"
  | .corruptJson context source => "corrupt JSON in column '" ++ context ++ "': " ++ source
  | .joinError message => "blocking DB task failed: " ++ message
  | .invalidData message => "invalid data: " ++ message
  | .stepUpRequired => "a fresh step-up is required"
  | .recoveryRefused why => "recovery link refused: " ++ why.display
  | .alreadyInitialized => "the system is already initialized"
  | .schemaTooNew found supported =>
    "the database schema is newer than this build understands (found version " ++ toString found ++
      "; this build supports up to " ++ toString supported ++ ")"
  | .schemaVersionInvalid tables detail =>
    "the database schema version is unreadable: " ++ detail ++ " (" ++ toString tables ++
      " application table(s))"
  | .migrationFailed version => "migration " ++ toString version ++ " failed to apply"
  | .notReadOnly sql => "ReadConn refused a non-read-only statement: " ++ sql
  | .pragmaRefused sql => "ReadConn refuses PRAGMA unconditionally: " ++ sql
  | .nonContentEffectRefused keyword sql =>
    "ReadConn refuses " ++ keyword ++ " unconditionally: it changes connection, " ++
      "transaction, or filesystem state even though sqlite3_stmt_readonly " ++
      "reports it read-only (" ++ sql ++ ")"
  | .explainRefused sql => "ReadConn refuses EXPLAIN unconditionally: " ++ sql
  | .attemptExpired => "the attempt expired before it was claimed"
  | .clockRegression => "the wall clock read at claim time precedes the attempt's created_at"
  | .attemptProviderMismatch =>
    "the attempt's provider identity/version/generation does not match the caller's"
  | .attemptBrowserBindingMismatch =>
    "the presented browser-binding digest does not match the attempt's own"

/-- The texts of `CoreError`. -/
def CoreError.display : CoreError → String
  | .invalidCredentials => "invalid credentials"
  | .unauthenticated => "authentication required"
  | .forbidden => "forbidden"
  | .notFound => "resource not found"
  | .conflict message => "conflict: " ++ message
  | .badRequest message => "invalid request: " ++ message
  | .notInitialized => "system not yet initialized"
  | .alreadyInitialized => "system already initialized"
  | .protocol code _ => "OAuth/OIDC protocol error: " ++ code.asStr
  | .store e => e.display
  | .password => "password hashing failure"
  | .jwt => "JWT processing failure"
  | .internal => "internal failure"
  | .configError message => "configuration error: " ++ message

/-! ## Locations -/

/-- `utf8_percent_encode` with the set `NON_ALPHANUMERIC`. -/
def utf8PercentEncode (s : String) : String :=
  String.ofList ((FormUrl.encode (utf8 s)).map fun b => Char.ofNat b.toNat)

/-- What stands before the first parameter. -/
def querySeparator (url : String) : String := if url.toList.contains '?' then "&" else "?"

/-- The state, after other parameters. -/
def pushState (url : String) : Option String → String
  | none => url
  | some s => url ++ "&state=" ++ utf8PercentEncode s

/-- The end of `authorize`. -/
def authorizeRedirect (redirectUri code : String) (state : Option String) : String :=
  pushState (redirectUri ++ querySeparator redirectUri ++ "code=" ++ utf8PercentEncode code) state

/-- The code and the description of an error. -/
def protocolErrorParts : CoreError → String × String
  | .protocol code description => (code.asStr, description)
  | other => ("server_error", other.display)

/-- `protocol_error_redirect`. -/
def protocolErrorRedirect (redirectUri : String) (state : Option String) (err : CoreError) :
    String :=
  let (code, description) := protocolErrorParts err
  -- Here the separator does not depend on the URI.
  pushState
    (redirectUri ++ "?error=" ++ code ++ "&error_description=" ++ utf8PercentEncode description)
    state

/-- `consent_post`, when the answer is not `approve`. -/
def consentDenyRedirect (redirectUri : String) (state : Option String) : String :=
  pushState (redirectUri ++ querySeparator redirectUri ++ "error=access_denied") state

/-- `consent_post`, with a code. -/
def consentApproveRedirect (redirectUri code : String) (state : Option String) : String :=
  authorizeRedirect redirectUri code state

/-- The URI that `logout` redirects to. -/
def logoutTarget (client : ClientRow) (uri : String) : Option String :=
  if client.isDisabled || client.isDeleted then none
  else if !client.postLogoutRedirectUris.isEmpty then
    if client.postLogoutRedirectUris.any (· == uri) then some uri else none
  else if client.redirectUris.any (· == uri) then some uri
  else none

/-- The end of `logout`. -/
def logoutRedirect (target : String) : Option String → String
  | none => target
  | some state => target ++ querySeparator target ++ "state=" ++ utf8PercentEncode state

/-- A response that goes to a client, with what it is made of. -/
inductive ClientRedirect where
  | authorized (redirectUri code : String) (state : Option String)
  | protocolError (redirectUri : String) (state : Option String) (err : CoreError)
  | consentDenied (redirectUri : String) (state : Option String)
  | consentApproved (redirectUri code : String) (state : Option String)
  | loggedOut (target : String) (state : Option String)

namespace ClientRedirect

/-- The text of the `Location` header. -/
def location : ClientRedirect → String
  | authorized redirectUri code state => authorizeRedirect redirectUri code state
  | protocolError redirectUri state err => protocolErrorRedirect redirectUri state err
  | consentDenied redirectUri state => consentDenyRedirect redirectUri state
  | consentApproved redirectUri code state => consentApproveRedirect redirectUri code state
  | loggedOut target state => logoutRedirect target state

/-- The URI of the client. -/
def uri : ClientRedirect → String
  | authorized redirectUri _ _ | protocolError redirectUri _ _ | consentDenied redirectUri _
  | consentApproved redirectUri _ _ => redirectUri
  | loggedOut target _ => target

/-- The `state` of the client. -/
def state : ClientRedirect → Option String
  | authorized _ _ state | protocolError _ state _ | consentDenied _ state
  | consentApproved _ _ state | loggedOut _ state => state

end ClientRedirect

end SuiId

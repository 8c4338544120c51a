import SuiId.Core.Login

/-!
# Directories

`ldap_filter.rs`, `ldap_source.rs` and `user_source.rs`: an LDAP user source
searches for an entry and then binds as it, either from the name that was typed or
from the stable id a shadow row stores.  `try_login_with_cascade` is on top of them.

The server behind a source is a parameter: what it answers to a connection, to a
simple bind and to a search.  Timeouts, the unbind at the end and what goes to the
log are left out.
-/

namespace SuiId

open Lib Lib.Result

/-! ## Filters and names -/

namespace LdapFilter

/-- `escape_filter_value`.  It goes through the bytes, so that what is not ASCII
comes out one character a byte. -/
def escapeFilterValue (input : String) : String :=
  String.ofList <| (utf8 input).flatMap fun b =>
    if b = 0x2a then "\\2a".toList
    else if b = 0x28 then "\\28".toList
    else if b = 0x29 then "\\29".toList
    else if b = 0x5c then "\\5c".toList
    else if b = 0x00 then "\\00".toList
    else [Char.ofNat b.toNat]

/-- What a filter template has in the place of the name. -/
def placeholder : String := "\x7busername\x7d"

/-- `any_user_filter`. -/
def anyUserFilter (userSearchFilter : String) : String :=
  let trimmed := Text.trim (Text.replace userSearchFilter placeholder "*")
  if Text.startsWith trimmed "(" then trimmed else "(" ++ trimmed ++ ")"

/-- `stable_id_filter`. -/
def stableIdFilter (stableIdAttribute stableId userSearchFilter : String) : String :=
  "(&(" ++ stableIdAttribute ++ "=" ++ escapeFilterValue stableId ++ ")" ++
    anyUserFilter userSearchFilter ++ ")"

/-- The pieces of a name between the unescaped `,` and `;`.  `current` is the piece
so far, backwards. -/
def splitRdns : (current : List Char) → (escaped : Bool) → List Char → List String
  | current, _, [] => [String.ofList current.reverse]
  | current, true, c :: cs => splitRdns (c :: current) false cs
  | current, false, c :: cs =>
    if c = '\\' then splitRdns (c :: current) true cs
    else if c = ',' ∨ c = ';' then String.ofList current.reverse :: splitRdns [] false cs
    else splitRdns (c :: current) false cs

/-- `normalized_rdns`. -/
def normalizedRdns (P : Primitives) (dn : String) : Option (List String) :=
  if (Text.trim dn).isEmpty then some []
  else (splitRdns [] false dn.toList).mapM fun rdn => do
    let (kind, value) ← Text.splitOnce rdn "="
    let kind := Text.trim kind
    if kind.isEmpty then none
    else some (P.toLowercase kind ++ "=" ++ P.toLowercase (Text.trim value))

/-- `same_dn`. -/
def sameDn (P : Primitives) (a b : String) : Bool :=
  match normalizedRdns P a, normalizedRdns P b with
  | some x, some y => x == y
  | _, _ => false

/-- `dn_is_under_base`. -/
def dnIsUnderBase (P : Primitives) (dn base : String) : Bool :=
  match normalizedRdns P dn, normalizedRdns P base with
  | some dn, some base => base.length < dn.length && base.isSuffixOf dn
  | _, _ => false

end LdapFilter

open LdapFilter

/-! ## A source -/

/-- The scope of a search. -/
inductive LdapScope where
  | base
  | subtree
deriving DecidableEq, Repr

/-- A result code, and the text of the result. -/
structure LdapResult where
  rc : Nat
  text : String
deriving DecidableEq, Repr

/-- `SearchEntry`. -/
structure SearchEntry where
  dn : String
  attrs : List (String × List String)
deriving DecidableEq, Repr

/-- The first value of an attribute. -/
def SearchEntry.firstValue (entry : SearchEntry) (name : String) : Option String :=
  (entry.attrs.lookup name).bind List.head?

/-- What a server answers; an error is the text of a failed exchange. -/
structure LdapServer where
  connect : Except String Unit
  simpleBind : (dn password : String) → Except String LdapResult
  search : (base : String) → LdapScope → (filter : String) → (attrs : List String) →
    Except String (List SearchEntry × LdapResult)

/-- `UserSourceError`. -/
inductive UserSourceError where
  | transport (message : String)
  | serviceBind (message : String)
  | config (message : String)
deriving DecidableEq, Repr

/-- `LdapUserSourceConfig`. -/
structure LdapUserSourceConfig where
  slug : String
  url : String
  bindDn : String
  bindPassword : String
  userSearchBase : String
  userSearchFilter : String
  stableIdAttribute : String
  displayNameAttribute : Option String
  emailAttribute : Option String

/-- `LdapUserSource`, with the server at its URL. -/
structure LdapUserSource where
  cfg : LdapUserSourceConfig
  server : LdapServer

/-- `ExternalUserRecord`. -/
structure ExternalUserRecord where
  stableId : String
  displayUsername : String
  email : Option String
  displayName : Option String
  sourceSlug : String
deriving DecidableEq, Repr

/-- What became of a bind. -/
inductive BindOutcome where
  | accepted
  | rejected
  /-- The exchange failed. -/
  | unanswered
deriving DecidableEq, Repr

/-- A bind as an entry that a search found. -/
structure BindAttempt where
  source : LdapUserSource
  entry : SearchEntry
  outcome : BindOutcome

/-- `Ok(Some(_))`, `Ok(None)` and `Err(_)`, with the entry that was bound as. -/
inductive SourceAnswer where
  | authenticated (record : ExternalUserRecord) (entry : SearchEntry)
  | refused (entry : Option SearchEntry)
  | failed (error : UserSourceError) (entry : Option SearchEntry)

/-- The bind behind an answer. -/
def SourceAnswer.binds (source : LdapUserSource) : SourceAnswer → List BindAttempt
  | .authenticated _ entry => [⟨source, entry, .accepted⟩]
  | .refused entry => entry.toList.map (⟨source, ·, .rejected⟩)
  | .failed _ entry => entry.toList.map (⟨source, ·, .unanswered⟩)

namespace LdapUserSource

variable (P : Primitives) (source : LdapUserSource)

/-- What a call to the server returns. -/
abbrev Result (α : Type) := Except UserSourceError α

/-- `connect`. -/
def connect : Result Unit := source.server.connect.mapError .transport

/-- `service_bind`. -/
def serviceBind : Result Unit := do
  let result ←
    (source.server.simpleBind source.cfg.bindDn source.cfg.bindPassword).mapError .transport
  ensure (result.rc == 0) (.serviceBind result.text)

/-- `require_ldaps`. -/
def requireLdaps : Result Unit :=
  ensure (!(Text.startsWith source.cfg.url "ldap://" && !Text.startsWith source.cfg.url "ldaps://"))
    (.config "cleartext ldap:// is not permitted; use ldaps://")

/-- How both authentications begin. -/
def openSession : Result Unit := do
  source.requireLdaps
  source.connect
  source.serviceBind

/-- `attributes`. -/
def attributes : List String :=
  ["dn", source.cfg.stableIdAttribute] ++ source.cfg.displayNameAttribute.toList ++
    source.cfg.emailAttribute.toList

/-- `first_entry`.  An entry that does not exist (32) is a miss. -/
def firstEntry (base : String) (scope : LdapScope) (filter : String) :
    Result (Option SearchEntry) := do
  let (entries, result) ←
    (source.server.search base scope filter source.attributes).mapError .transport
  if result.rc = 32 then pure none
  else do
    ensure (result.rc == 0) (.transport result.text)
    pure entries.head?

/-- `record`. -/
def record (entry : SearchEntry) (displayUsername : String) : ExternalUserRecord where
  stableId := (entry.firstValue source.cfg.stableIdAttribute).getD entry.dn
  displayUsername := displayUsername
  email := source.cfg.emailAttribute.bind entry.firstValue
  displayName := source.cfg.displayNameAttribute.bind entry.firstValue
  sourceSlug := source.cfg.slug

/-- `user_bind`. -/
def userBind (dn password : String) : Result Bool := do
  let result ← (source.server.simpleBind dn password).mapError .transport
  pure (result.rc == 0)

/-- A bind as the entry of a search, with the record it is to give. -/
def bindEntry (entry : SearchEntry) (record : ExternalUserRecord) (password : String) :
    SourceAnswer :=
  match source.userBind entry.dn password with
  | .ok true => .authenticated record entry
  | .ok false => .refused (some entry)
  | .error e => .failed e (some entry)

/-- The search of `authenticate`. -/
def findByUsername (username : String) : Result (Option SearchEntry) := do
  source.openSession
  source.firstEntry source.cfg.userSearchBase .subtree
    (Text.replace source.cfg.userSearchFilter placeholder (escapeFilterValue username))

/-- `authenticate`. -/
def authenticate (username password : String) : SourceAnswer :=
  match source.findByUsername username with
  | .error e => .failed e none
  | .ok none => .refused none
  | .ok (some entry) => source.bindEntry entry (source.record entry username) password

/-- The stable id is the name of the entry. -/
def stableIdIsDn : Bool := Text.eqIgnoreAsciiCase source.cfg.stableIdAttribute "dn"

/-- The first search of `authenticate_stable_id`. -/
def findByAttribute (stableId : String) : Result (Option SearchEntry) :=
  if source.stableIdIsDn then pure none
  else source.firstEntry source.cfg.userSearchBase .subtree
    (stableIdFilter source.cfg.stableIdAttribute stableId source.cfg.userSearchFilter)

/-- Both searches of `authenticate_stable_id`: by the attribute, and then for an entry
of that name under the base. -/
def findByStableId (stableId : String) : Result (Option SearchEntry) := do
  source.openSession
  let anyUser := anyUserFilter source.cfg.userSearchFilter
  match ← source.findByAttribute stableId with
  | some entry => pure (some entry)
  | none =>
    if dnIsUnderBase P stableId source.cfg.userSearchBase then
      source.firstEntry stableId .base anyUser
    else if source.stableIdIsDn then do
      -- a search runs for an id outside the base too
      let _ ← source.firstEntry source.cfg.userSearchBase .base anyUser
      pure none
    else pure none

/-- Does the id name the entry, up to the spelling of a DN? -/
def names (entry : SearchEntry) (stableId : String) : Bool :=
  (source.record entry entry.dn).stableId == stableId ||
    sameDn P (source.record entry entry.dn).stableId stableId

/-- The record of an entry found by the stored id, which reports that id. -/
def recordOf (entry : SearchEntry) (stableId : String) : ExternalUserRecord :=
  let record := source.record entry entry.dn
  if source.names P entry stableId then { record with stableId } else record

/-- `authenticate_stable_id`.  A miss binds as an entry that does not exist. -/
def authenticateStableId (stableId password : String) : SourceAnswer :=
  match source.findByStableId P stableId with
  | .error e => .failed e none
  | .ok none =>
    match source.userBind ("cn=sui-id-no-such-entry," ++ source.cfg.userSearchBase) password with
    | .error e => .failed e none
    | .ok _ => .refused none
  | .ok (some entry) => source.bindEntry entry (source.recordOf P entry stableId) password

end LdapUserSource

end SuiId

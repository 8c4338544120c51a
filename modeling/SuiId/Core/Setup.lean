import Mathlib.Logic.Function.Basic
import SuiId.Core.ResetLinks
import SuiId.Lib.Base64
import SuiId.Store.SigningKeys

/-!
# First-run setup

`setup.rs` of the core.  Both doors, the web wizard and the command line, look at the initialized
flag without a lock, make the rows and seal a signing key, and then run S10, which looks at the
flag again.  The rotation (K01), the deletion (K03) and the re-seal (K07) of the signing keys are
one transaction each.
-/

namespace SuiId.Setup

open Lib Lib.Result

/-- How a call of the setup is authorized. -/
inductive Door where
  /-- `create_initial_admin`. -/
  | web (expectedSetupToken suppliedSetupToken : String)
  /-- `create_initial_admin_headless`. -/
  | headless

/-- What both doors are called with. -/
structure NewAdmin where
  username : String
  password : String
  displayName : Option String
  email : Option String

/-- What a call draws and computes outside of its transaction. -/
structure Draws where
  userId : UserId
  /-- `hash_password`, which may fail. -/
  passwordHash : CoreResult String
  keyId : Nat
  privateKey : Bytes
  publicKey : Bytes
  nonce : Nonce

/-- The arguments of S10. -/
structure Command where
  user : UserRow
  cred : CredentialRow
  signingKey : InitialSigningKeyMaterial
  authorizedBy : SetupAuthorizedBy
  now : DateTime

/-- The trimmed text, unless it is empty. -/
def nonemptyTrimmed (s : Option String) : Option String :=
  (s.map Text.trim).filter fun s => !s.isEmpty

/-- The row of the first administrator. -/
def NewAdmin.user (P : Primitives) (admin : NewAdmin) (userId : UserId) : UserRow where
  id := userId
  username := admin.username
  displayName := admin.displayName
  email := nonemptyTrimmed admin.email
  emailNormalized := (nonemptyTrimmed admin.email).map (Users.normalizeEmail P)
  emailVerifiedAt := none
  role := .admin
  isDisabled := false
  isDeleted := false
  lastLoginAt := none
  failedLoginCount := 0
  lockedUntil := none
  mfaFailureCount := 0
  source := .localDb
  externalStableId := none

/-- `SecurityLevel::Standard.password_min_len()`. -/
def standardPasswordMinLen : Nat := 12

/-- `create_initial_admin_inner`, up to its transaction. -/
def prepareInner (P : Primitives) (key : MasterKey) (admin : NewAdmin) (draws : Draws)
    (authorizedBy : SetupAuthorizedBy) (now : DateTime) : CoreResult Command := do
  ensure (!(Text.trim admin.username).isEmpty) (.badRequest "username must not be empty")
  checkPasswordPolicy admin.password standardPasswordMinLen
  let passwordHash ← draws.passwordHash
  let privateKeySealed ← (sealBytes P key draws.nonce draws.privateKey SigningKeys.aad).mapError
    .store
  pure
    { user := admin.user P draws.userId
      cred := ⟨draws.userId, passwordHash, now⟩
      signingKey := ⟨draws.keyId, "EdDSA", privateKeySealed, draws.publicKey⟩
      authorizedBy
      now }

/-- A call up to its transaction, with the early check of the flag. -/
def prepare (P : Primitives) (key : MasterKey) (db : Database) (door : Door) (admin : NewAdmin)
    (draws : Draws) (now : DateTime) : CoreResult Command := do
  ensure (!db.initialized) (.store .alreadyInitialized)
  match door with
  | .web expectedSetupToken suppliedSetupToken =>
    ensure (suppliedSetupToken == expectedSetupToken) .forbidden
    prepareInner P key admin draws .setupToken now
  | .headless => prepareInner P key admin draws .filesystem now

/-- How S10 fails.  `CoreError::AlreadyInitialized` is the error of the store. -/
def setupError : StoreError → CoreError
  | .conflict => .conflict "username already in use"
  | e => .store e

/-! ## Runs -/

abbrev CallId := Nat

/-- The database and the calls in flight. -/
structure World where
  db : Database
  /-- A call that has not run its transaction yet, or has ended. -/
  calls : CallId → Option (Option Command)

/-- A new instance: not initialized, and without a signing key. -/
def World.new (db : Database) : World :=
  ⟨{ db with signingKeys := ∅, initialized := false }, fun _ => none⟩

/-- The call stands at `command`. -/
def World.setCall (w : World) (call : CallId) (command : Option Command) : World :=
  { w with calls := Function.update w.calls call (some command) }

/-- A call up to its transaction, the transaction, or a command on keys. -/
inductive Event where
  /-- A call of the setup, up to its transaction. -/
  | begin (call : CallId) (key : MasterKey) (door : Door) (admin : NewAdmin) (draws : Draws)
      (now : DateTime)
  | complete (call : CallId)
  | rotateSigningKey (admin : UserId) (session : SessionId) (newId : Nat) (algorithm : String)
      (privateKeySealed publicKey : Bytes) (reason : Option String) (now : DateTime)
  | deleteSigningKey (admin : UserId) (target : Nat) (reason : Option String)
  | resealMasterKey (oldKey newKey : MasterKey) (nonces : ResealNonces)

/-- What an event answers. -/
inductive Answer where
  | ignored
  | running
  /-- The answer of a call of the setup, with the administrator it has created. -/
  | setup (result : CoreResult UserId)
  | command (result : StoreResult Unit)

/-- One event. -/
def step (P : Primitives) (w : World) : Event → World × Answer
  | .begin call key door admin draws now =>
    match w.calls call with
    | some _ => (w, .ignored)
    | none =>
      match prepare P key w.db door admin draws now with
      | .error e => (w.setCall call none, .setup (.error e))
      | .ok command => (w.setCall call (some command), .running)
  | .complete call =>
    match w.calls call with
    | some (some c) =>
      match completeInitialSetup P w.db c.user c.cred c.signingKey c.authorizedBy c.now with
      | .error e => (w.setCall call none, .setup (.error (setupError e)))
      | .ok (_, db) => ({ w with db }.setCall call none, .setup (.ok c.user.id))
    | _ => (w, .ignored)
  | .rotateSigningKey admin session newId algorithm privateKeySealed publicKey reason now =>
    match SuiId.rotateSigningKey w.db admin session newId algorithm privateKeySealed publicKey
      reason now with
    | .error e => (w, .command (.error e))
    | .ok (_, db) => ({ w with db }, .command (.ok ()))
  | .deleteSigningKey admin target reason =>
    match SuiId.deleteSigningKey w.db admin target reason with
    | .error e => (w, .command (.error e))
    | .ok (_, db) => ({ w with db }, .command (.ok ()))
  | .resealMasterKey oldKey newKey nonces =>
    match SuiId.resealMasterKey P oldKey newKey nonces w.db with
    | .error e => (w, .command (.error e))
    | .ok (_, db) => ({ w with db }, .command (.ok ()))

end SuiId.Setup

/-! ## The setup token on its way

The token that `startup.rs` prints, and the pages that carry it to the form that posts it: the
queries that `welcome_get` and `admin_get` read, the links that `render_setup_welcome` writes, and
what a browser does between them.

An attribute of a page is escaped where it is written and unescaped where it is read, so a page
hands the browser the text of its links and of its hidden field.
-/

namespace SuiId.SetupToken

open Lib

/-! ## The printed URL -/

/-- `generate_setup_token`: the digits that fit into a buffer of 64 bytes. -/
def generateSetupToken (buf : Vector UInt8 24) : String :=
  let out := Lib.Base64.encode buf.toList
  FormUrl.ascii (out.take (if out.length ≤ 64 then out.length else 0))

/-- `str::trim_end_matches('/')`. -/
def trimEndSlashes (issuer : String) : String :=
  String.ofList (issuer.toList.rdropWhile (· == '/'))

/-- The link to the setup. -/
def printedUrl (issuer setupToken : String) : String :=
  trimEndSlashes issuer ++ "/setup?token=" ++ setupToken

/-! ## Languages -/

/-- The languages. -/
inductive Locale where
  | ja
  | en
  | zhHans
  | zhHant
deriving DecidableEq, Repr

/-- The letters of ASCII in lower case. -/
def asciiLowercase (cs : List Char) : String := String.ofList (cs.map Char.toLower)

/-- `Locale::parse`. -/
def Locale.parse (tag : String) : Option Locale :=
  let parts := (tag.toList.splitOnP fun c => c == '-' || c == '_').map asciiLowercase
  let subtag := parts[1]?
  match parts.headD "" with
  | "ja" => some .ja
  | "en" => some .en
  | "zh" =>
    if subtag == some "hant" || subtag == some "tw" || subtag == some "hk" || subtag == some "mo"
    then some .zhHant
    else some .zhHans
  | _ => none

/-- The languages of the picker. -/
inductive PickerOption where
  | ja
  | en
deriving DecidableEq, Repr

/-- The value of `lang`. -/
def PickerOption.tag : PickerOption → String
  | ja => "ja"
  | en => "en"

/-! ## Links of the welcome page -/

/-- `admin_href`. -/
def adminHref (token : String) : String :=
  if token.isEmpty then "/setup/admin" else "/setup/admin?token=" ++ token

/-- A link of the language picker. -/
def langHref (option : PickerOption) (token : String) : String :=
  if token.isEmpty then "/setup?lang=" ++ option.tag
  else "/setup?lang=" ++ option.tag ++ "&token=" ++ token

/-! ## Requests -/

/-- A field of a query or of a form, if it is there; a second one of the name is refused. -/
def field (name : String) (query : Bytes) : Option (Option String) :=
  match (FormUrl.pairs query).filter (fun pair => pair.1 == utf8 name) with
  | [] => some none
  | [pair] => some (some (FormUrl.lossy pair.2))
  | _ => none

/-- What an event answers. -/
inductive Answer where
  | badRequest
  | redirect (location : String)
  /-- The welcome page with the token in its links. -/
  | welcome (token : String)
  /-- The form of the administrator with the token in its hidden field. -/
  | adminForm (token : String)
deriving DecidableEq, Repr

/-- `welcome_get`. -/
def welcomeGet (initialized : Bool) (query : Bytes) : Answer :=
  match field "lang" query, field "token" query with
  | some lang, some token =>
    if initialized then .redirect "/admin/login"
    else
      match lang.bind fun raw => Locale.parse (Text.trim raw) with
      | some _ =>
        match token.filter fun t => !t.isEmpty with
        | some tok => .redirect ("/setup?token=" ++ tok)
        | none => .redirect "/setup"
      | none => .welcome (token.getD "")
  | _, _ => .badRequest

/-- `admin_get`. -/
def adminGet (initialized : Bool) (query : Bytes) : Answer :=
  match field "token" query with
  | none => .badRequest
  | some token => if initialized then .redirect "/admin/login" else .adminForm (token.getD "")

/-! ## The way -/

/-- The query of the request when a link is followed. -/
def follow (link : String) : Bytes := FormUrl.linkQuery (utf8 link)

/-- A choice in the picker of a page that carries `token`, and the page after its redirect. -/
def changeLanguage (token : String) (option : PickerOption) : Option String :=
  match welcomeGet false (follow (langHref option token)) with
  | .redirect location =>
    match welcomeGet false (follow location) with
    | .welcome token' => some token'
    | _ => none
  | _ => none

/-- What the operator types into the form of the administrator. -/
structure AdminFields where
  username : String
  email : String
  displayName : String
  password : String
  confirmPassword : String

/-- The body that the form posts, the hidden field first. -/
def postBody (token : String) (typed : AdminFields) : Bytes :=
  FormUrl.serialize [(utf8 "setup_token", utf8 token), (utf8 "username", utf8 typed.username),
    (utf8 "email", utf8 typed.email), (utf8 "display_name", utf8 typed.displayName),
    (utf8 "password", utf8 typed.password),
    (utf8 "confirm_password", utf8 typed.confirmPassword)]

/-- A way from the printed URL to the form. -/
structure Journey where
  issuer : String
  /-- The printed URL names the welcome page under the issuer. -/
  plainIssuer : '?' ∉ issuer.toList ∧ '#' ∉ issuer.toList
  changes : List PickerOption
  typed : AdminFields

/-- The token that `admin_post` reads at the end. -/
def Journey.submitted (journey : Journey) (setupToken : String) : Option String :=
  match welcomeGet false (follow (printedUrl journey.issuer setupToken)) with
  | .welcome token =>
    match journey.changes.foldlM changeLanguage token with
    | none => none
    | some token =>
      match adminGet false (follow (adminHref token)) with
      | .adminForm hidden => (field "setup_token" (postBody hidden journey.typed)).join
      | _ => none
  | _ => none

end SuiId.SetupToken

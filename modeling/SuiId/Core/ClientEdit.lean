import SuiId.Core.Caches
import SuiId.Core.RegistrationUris

/-!
# The edit form of a client

`clients_edit_post`: one form, saved by three commands of the store, each a transaction of its own.
The name and the redirect URIs go first, then the three fields that go together, then the links of
the application; what belongs to a part is checked right before its command.

Before each command another administrator may delete a client, and at each command the store may
fail.
-/

namespace SuiId.ClientEdit

open Lib Lib.Result

/-! ## The request -/

/-- `EditClientForm`. -/
structure EditClientForm where
  name : String
  redirectUris : String
  allowedScopes : String
  consentPolicy : String
  postLogoutRedirectUris : String
  homepageUri : String
  privacyPolicyUri : String
  tosUri : String
  csrf : String

/-- A `POST` of the form. -/
structure EditRequest where
  csrfCookie : Option String
  /-- The path segment, when it is an id. -/
  id : Option ClientId
  form : EditClientForm

/-- `csrf::check_token`. -/
def checkToken (cookie field : Option String) : Option String :=
  match cookie, field with
  | some cookie, some provided =>
    if cookie.isEmpty || provided.isEmpty then none
    else if cookie = provided then some cookie
    else none
  | _, _ => none

/-- `enforce_csrf`. -/
def enforceCsrf (cookie field : Option String) : CoreResult Unit :=
  ensure (checkToken cookie field).isSome .forbidden

/-- One URI a line. -/
def uriLines (text : String) : List String :=
  ((Text.lines text).map Text.trim).filter fun s => !s.isEmpty

/-! ## The use cases -/

section UseCases

variable (P : Primitives)

/-- `admin::update_client_form`. -/
def adminUpdateClientForm (db : Database) (actor : UserId) (target : ClientId)
    (allowedScopes : String) (postLogoutRedirectUris : List String)
    (consentPolicy : ConsentPolicy) : CoreResult Database := do
  (Text.splitWhitespace allowedScopes).forM fun tok =>
    ensure (tok.toList.all isScopeTokenChar)
      (.badRequest ("invalid character in scope token " ++ P.debug tok))
  postLogoutRedirectUris.forM (validateRedirectUri P)
  ((updateClientForm db actor target allowedScopes postLogoutRedirectUris consentPolicy).map
    (·.2)).mapError storeError

/-- `admin::update_client_app_identity`. -/
def adminUpdateClientAppIdentity (db : Database) (actor : UserId) (target : ClientId)
    (homepageUri privacyPolicyUri tosUri : Option String) : CoreResult Database :=
  ((updateClientAppIdentity db actor target homepageUri privacyPolicyUri tosUri).map
    (·.2)).mapError storeError

/-- A link of the form, with the rule for application URIs. -/
def validateLink (uri field : String) : CoreResult (Option String) :=
  (RegistrationUris.validateApplicationUri P (some uri) field).mapError fun e =>
    .badRequest e.display

/-! ## The three parts -/

/-- What the handler saves one after the other. -/
inductive EditPart where
  | basic
  | form
  | appIdentity
deriving DecidableEq

/-- The parts, in the order in which they are saved. -/
def EditPart.all : List EditPart := [.basic, .form, .appIdentity]

/-- What a part checks, and its command. -/
def EditPart.save (actor : UserId) (target : ClientId) (form : EditClientForm) (db : Database) :
    EditPart → CoreResult Database
  | .basic =>
    adminUpdateClientBasic P db actor target (Text.trim form.name) (uriLines form.redirectUris)
  | .form =>
    adminUpdateClientForm P db actor target (Text.trim form.allowedScopes)
      (uriLines form.postLogoutRedirectUris)
      (ConsentPolicy.parse (Text.trim form.consentPolicy))
  | .appIdentity => do
    let homepageUri ← validateLink P form.homepageUri "homepage_uri"
    let privacyPolicyUri ← validateLink P form.privacyPolicyUri "privacy_policy_uri"
    let tosUri ← validateLink P form.tosUri "tos_uri"
    adminUpdateClientAppIdentity db actor target homepageUri privacyPolicyUri tosUri

/-! ## What happens meanwhile -/

/-- Another administrator's `delete_client`. -/
structure Deletion where
  admin : UserId
  target : ClientId
  reason : Option String
  now : DateTime

/-- What happens before the command of a part, and to it. -/
structure Meanwhile where
  deletion : Option Deletion := none
  /-- The error of the store at the command. -/
  fault : Option StoreError := none

/-- What other requests have written when a part is saved. -/
def Meanwhile.arrive (m : Meanwhile) (db : Database) : Database :=
  match m.deletion with
  | none => db
  | some d =>
    match deleteClient db d.admin d.target d.reason d.now with
    | .ok (_, db) => db
    | .error _ => db

/-- A command that would commit fails when the store does. -/
def Meanwhile.commit (m : Meanwhile) (saved : CoreResult Database) : CoreResult Database := do
  let db ← saved
  match m.fault with
  | none => pure db
  | some e => .error (storeError e)

/-- A part of the form, with what happens meanwhile.  A command that fails changes nothing. -/
def step (actor : UserId) (target : ClientId) (form : EditClientForm)
    (meanwhile : EditPart → Meanwhile) (part : EditPart) (db : Database) :
    CoreResult Unit × Database :=
  let db := (meanwhile part).arrive db
  match (meanwhile part).commit (part.save P actor target form db) with
  | .ok db => (.ok (), db)
  | .error e => (.error e, db)

/-! ## The handler -/

/-- What `clients_edit_post` looks at before the first part. -/
def gate (req : EditRequest) : CoreResult ClientId := do
  enforceCsrf req.csrfCookie (some req.form.csrf)
  require req.id (.badRequest "invalid client id")

/-- `clients_edit_post`. -/
def clientsEditPost (actor : UserId) (req : EditRequest) (meanwhile : EditPart → Meanwhile)
    (db : Database) : CoreResult Unit × Database :=
  match gate req with
  | .error e => (.error e, db)
  | .ok target => inOrder (step P actor target req.form meanwhile) EditPart.all db

end UseCases

end SuiId.ClientEdit

import Mathlib.Data.List.ReduceOption
import SuiId.Lib.Text
import SuiId.Store.Grants

/-!
# Registering clients

An administrator creates a client (C01) and edits its name and its redirect URIs (C02), the three
fields of the form (C03) and the links of its application (C10).  A client
that presents a registration token registers itself (C15): the token loses one use in the
transaction that creates the client.  The operator issues such tokens (C14) and revokes them (C22).
-/

namespace SuiId

open Lib Lib.Result

namespace Clients

/-- `create_within_tx`. -/
def create (db : Database) (row : ClientRow) : StoreResult Database := do
  let clients ← require (db.clients.insert? row) .db
  pure { db with clients }

/-- `update_basic_within_tx`, with both values given. -/
def updateBasic (db : Database) (id : ClientId) (name : String) (redirectUris : List String) :
    StoreResult Database := do
  ensure (db.clients.get? id).isSome .notFound
  pure { db with clients := db.clients.update (fun c => c.id == id) fun c =>
    { c with name, redirectUris } }

/-- `set_allowed_scopes_within_tx`. -/
def setAllowedScopes (db : Database) (id : ClientId) (allowedScopes : String) :
    StoreResult Database := do
  ensure (db.clients.get? id).isSome .notFound
  pure { db with clients := db.clients.update (fun c => c.id == id) fun c =>
    { c with allowedScopes } }

/-- `set_post_logout_redirect_uris_within_tx`. -/
def setPostLogoutRedirectUris (db : Database) (id : ClientId)
    (postLogoutRedirectUris : List String) : StoreResult Database := do
  ensure (db.clients.get? id).isSome .notFound
  pure { db with clients := db.clients.update (fun c => c.id == id) fun c =>
    { c with postLogoutRedirectUris } }

/-- `update_consent_policy_within_tx`. -/
def updateConsentPolicy (db : Database) (id : ClientId) (consentPolicy : ConsentPolicy) :
    StoreResult Database := do
  ensure (db.clients.get? id).isSome .notFound
  pure { db with clients := db.clients.update (fun c => c.id == id) fun c =>
    { c with consentPolicy } }

/-- `is_valid_app_uri`. -/
def isValidAppUri (uri : String) : Bool :=
  Text.startsWith uri "https://" || Text.startsWith uri "http://localhost" ||
    Text.startsWith uri "http://127.0.0.1"

/-- `update_app_identity_within_tx`. -/
def updateAppIdentity (db : Database) (id : ClientId)
    (logoUri homepageUri privacyPolicyUri tosUri : Option String) : StoreResult Database := do
  [logoUri, homepageUri, privacyPolicyUri, tosUri].reduceOption.forM fun uri =>
    ensure (isValidAppUri uri)
      (.invalidData ("application-identity URI must be HTTPS (or http://localhost): " ++ uri))
  ensure (db.clients.get? id).isSome .notFound
  pure { db with clients := db.clients.update (fun c => c.id == id) fun c =>
    { c with logoUri, homepageUri, privacyPolicyUri, tosUri } }

end Clients

/-! ## Registration tokens -/

/-- `client_registration_token`, without its note and its time stamps. -/
structure RegistrationTokenRow where
  id : Nat
  tokenHash : String
  maxUses : Int
  usedCount : Int
  expiresAt : Option DateTime
  revokedAt : Option DateTime
deriving DecidableEq

/-- The table `client_registration_token`. -/
abbrev RegistrationTokens := Table RegistrationTokenRow.id

namespace RegistrationTokens

/-- `create_within_tx`.  The hash is unique. -/
def create (tokens : RegistrationTokens) (row : RegistrationTokenRow) :
    StoreResult RegistrationTokens := do
  ensure (tokens.find? fun r => r.tokenHash == row.tokenHash).isNone .db
  require (tokens.insert? row) .db

/-- No limit is `maxUses = 0`. -/
def usable (row : RegistrationTokenRow) (now : DateTime) : Bool :=
  row.revokedAt.isNone && !(row.expiresAt.any fun t => t < now) &&
    !(0 < row.maxUses && row.maxUses ≤ row.usedCount)

theorem usable_iff (row : RegistrationTokenRow) (now : DateTime) :
    usable row now = true ↔ row.revokedAt = none ∧ (∀ t, row.expiresAt = some t → now ≤ t) ∧
      (0 < row.maxUses → row.usedCount < row.maxUses) := by
  have hexpires : (row.expiresAt.any fun t => t < now) = false ↔
      ∀ t, row.expiresAt = some t → now ≤ t := by
    cases row.expiresAt with
    | none => simp
    | some t => simp
  simp only [usable, Bool.and_eq_true, Bool.not_eq_true', hexpires, Option.isNone_iff_eq_none,
    Bool.and_eq_false_iff, decide_eq_false_iff_not, and_assoc, imp_iff_not_or, Int.not_le]

/-- `consume_within_tx`: nothing when the token is not usable. -/
def consume (tokens : RegistrationTokens) (tokenHash : String) (now : DateTime) :
    Option RegistrationTokens :=
  match tokens.find? fun r => r.tokenHash == tokenHash with
  | none => none
  | some row =>
    if usable row now then
      some (tokens.update (fun r => r.id == row.id) fun r =>
        { r with usedCount := r.usedCount + 1 })
    else none

/-- `revoke_within_tx`, also of a token that has been revoked. -/
def revoke (tokens : RegistrationTokens) (id : Nat) (now : DateTime) :
    StoreResult RegistrationTokens := do
  ensure (tokens.get? id).isSome .notFound
  pure (tokens.update (fun r => r.id == id) fun r => { r with revokedAt := some now })

end RegistrationTokens

/-! ## Commands -/

/-- C01: create a client. -/
def createClient (db : Database) (admin : UserId) (row : ClientRow) :
    StoreResult (Unit × Database) :=
  classA (some admin) do
    let db ← Clients.create db row
    pure ((), ⟨"client.create", some (toString row.id), .ok, [], []⟩, db)

/-- C02: the name and the redirect URIs of a client. -/
def updateClientBasic (db : Database) (admin : UserId) (target : ClientId) (name : String)
    (redirectUris : List String) : StoreResult (Unit × Database) :=
  classA (some admin) do
    let db ← Clients.updateBasic db target name redirectUris
    pure ((), ⟨"client.update", some (toString target), .ok, [], []⟩, db)

/-- C03: the three fields of the form, which go together. -/
def updateClientForm (db : Database) (admin : UserId) (target : ClientId) (allowedScopes : String)
    (postLogoutRedirectUris : List String) (consentPolicy : ConsentPolicy) :
    StoreResult (Unit × Database) :=
  classA (some admin) do
    let db ← Clients.setAllowedScopes db target allowedScopes
    let db ← Clients.setPostLogoutRedirectUris db target postLogoutRedirectUris
    let db ← Clients.updateConsentPolicy db target consentPolicy
    pure ((), ⟨"client.update_form", some (toString target), .ok,
      [("allowed_scopes_count", toString (Text.splitWhitespace allowedScopes).length),
        ("post_logout_redirect_uris_count", toString postLogoutRedirectUris.length),
        ("consent_policy", consentPolicy.asStr)],
      ["allowed_scopes_count", "post_logout_redirect_uris_count", "consent_policy"]⟩, db)

/-- C10: the links of a client's application.  Its logo stays. -/
def updateClientAppIdentity (db : Database) (admin : UserId) (target : ClientId)
    (homepageUri privacyPolicyUri tosUri : Option String) : StoreResult (Unit × Database) :=
  classA (some admin) do
    let existing ← require (db.clients.get? target) .notFound
    let db ← Clients.updateAppIdentity db target existing.logoUri homepageUri privacyPolicyUri
      tosUri
    pure ((), ⟨"client.app_identity_changed", some (toString target), .ok,
      [("homepage_uri_changed", toString (homepageUri != existing.homepageUri)),
        ("privacy_policy_uri_changed", toString (privacyPolicyUri != existing.privacyPolicyUri)),
        ("tos_uri_changed", toString (tosUri != existing.tosUri))],
      ["homepage_uri_changed", "privacy_policy_uri_changed", "tos_uri_changed"]⟩, db)

/-- C15: dynamic registration. -/
def registerClientDynamically (db : Database) (tokens : RegistrationTokens) (tokenHash : String)
    (row : ClientRow) (now : DateTime) : StoreResult (RegistrationTokens × Database) :=
  classA none do
    let tokens ← require (RegistrationTokens.consume tokens tokenHash now) .notFound
    let db ← Clients.create db row
    pure (tokens, ⟨"client.dynamic_register", some (toString row.id), .ok,
      [("client_name", row.name)], []⟩, db)

/-- C14: issue a registration token. -/
def issueRegistrationToken (db : Database) (tokens : RegistrationTokens)
    (row : RegistrationTokenRow) : StoreResult (RegistrationTokens × Database) :=
  classA none do
    let tokens ← RegistrationTokens.create tokens row
    pure (tokens, ⟨"client.registration_token.created", some (toString row.id), .ok, [], []⟩, db)

/-- C22: revoke a registration token. -/
def revokeRegistrationToken (db : Database) (tokens : RegistrationTokens) (target : Nat)
    (now : DateTime) : StoreResult (RegistrationTokens × Database) :=
  classA none do
    let tokens ← RegistrationTokens.revoke tokens target now
    pure (tokens, ⟨"client.registration_token.revoked", some (toString target), .ok, [], []⟩, db)

/-! ## What a committed command did -/

variable {db db' : Database} {row : ClientRow} {admin : UserId} {u : Unit} {target : ClientId}
  {tokens tokens' : RegistrationTokens} {now : DateTime}

theorem Clients.create_ok (h : create db row = .ok db') :
    ∃ clients, db.clients.insert? row = some clients ∧ db' = { db with clients } := by
  simp only [create, bind_eq_ok, require_eq_ok, pure_eq_ok] at h
  obtain ⟨clients, hinsert, rfl⟩ := h
  exact ⟨clients, hinsert, rfl⟩

theorem createClient_ok (h : createClient db admin row = .ok (u, db')) :
    ∃ clients log, db.clients.insert? row = some clients ∧
      db' = { db with clients, auditLog := log } := by
  obtain ⟨event, db₁, log, hbody, rfl⟩ := classA_eq_ok h
  simp only [bind_eq_ok, pure_eq_ok, Prod.mk.injEq] at hbody
  obtain ⟨db₂, hcreate, -, -, rfl⟩ := hbody
  obtain ⟨clients, hinsert, rfl⟩ := Clients.create_ok hcreate
  exact ⟨clients, log, hinsert, rfl⟩

theorem updateClientBasic_ok {name : String} {redirectUris : List String}
    (h : updateClientBasic db admin target name redirectUris = .ok (u, db')) :
    ∃ log, db' = { db with
      clients := db.clients.update (fun c => c.id == target) fun c => { c with name, redirectUris }
      auditLog := log } := by
  obtain ⟨event, db₁, log, hbody, rfl⟩ := classA_eq_ok h
  simp only [Clients.updateBasic, bind_eq_ok, ensure_eq_ok, pure_eq_ok, Prod.mk.injEq] at hbody
  obtain ⟨db₂, ⟨-, -, rfl⟩, -, -, rfl⟩ := hbody
  exact ⟨log, rfl⟩

theorem updateClientForm_ok {allowedScopes : String} {postLogoutRedirectUris : List String}
    {consentPolicy : ConsentPolicy}
    (h : updateClientForm db admin target allowedScopes postLogoutRedirectUris consentPolicy =
      .ok (u, db')) :
    ∃ log, db' = { db with
      clients := db.clients.update (fun c => c.id == target) fun c =>
        { c with allowedScopes, postLogoutRedirectUris, consentPolicy }
      auditLog := log } := by
  obtain ⟨event, db₁, log, hbody, rfl⟩ := classA_eq_ok h
  simp only [Clients.setAllowedScopes, Clients.setPostLogoutRedirectUris,
    Clients.updateConsentPolicy, bind_eq_ok, ensure_eq_ok, pure_eq_ok, Prod.mk.injEq] at hbody
  obtain ⟨db₂, ⟨-, -, rfl⟩, db₃, ⟨-, -, rfl⟩, db₄, ⟨-, -, rfl⟩, -, -, rfl⟩ := hbody
  refine ⟨log, ?_⟩
  dsimp only
  rw [Table.update_update, Table.update_update]
  · exact fun _ => rfl
  · exact fun _ => rfl

/-- The links that are given are stored, and the logo stays. -/
theorem updateClientAppIdentity_ok {homepageUri privacyPolicyUri tosUri : Option String}
    (h : updateClientAppIdentity db admin target homepageUri privacyPolicyUri tosUri =
      .ok (u, db')) :
    ∃ existing log, db.clients.get? target = some existing ∧ db' = { db with
      clients := db.clients.update (fun c => c.id == target) fun c =>
        { c with logoUri := existing.logoUri, homepageUri, privacyPolicyUri, tosUri }
      auditLog := log } := by
  obtain ⟨event, db₁, log, hbody, rfl⟩ := classA_eq_ok h
  simp only [Clients.updateAppIdentity, bind_eq_ok, require_eq_ok, ensure_eq_ok, pure_eq_ok,
    Prod.mk.injEq] at hbody
  obtain ⟨existing, hexisting, db₂, ⟨-, -, -, -, rfl⟩, -, -, rfl⟩ := hbody
  exact ⟨existing, log, hexisting, rfl⟩

theorem registerClientDynamically_ok {tokenHash : String}
    (h : registerClientDynamically db tokens tokenHash row now = .ok (tokens', db')) :
    ∃ clients log, db.clients.insert? row = some clients ∧
      db' = { db with clients, auditLog := log } := by
  obtain ⟨event, db₁, log, hbody, rfl⟩ := classA_eq_ok h
  simp only [bind_eq_ok, pure_eq_ok, Prod.mk.injEq] at hbody
  obtain ⟨-, -, db₂, hcreate, -, -, rfl⟩ := hbody
  obtain ⟨clients, hinsert, rfl⟩ := Clients.create_ok hcreate
  exact ⟨clients, log, hinsert, rfl⟩

/-- The use of a token that a registration consumes. -/
theorem registerClientDynamically_consumes {tokenHash : String}
    (h : registerClientDynamically db tokens tokenHash row now = .ok (tokens', db')) :
    ∃ token ∈ tokens, token.tokenHash = tokenHash ∧ RegistrationTokens.usable token now = true ∧
      tokens' = tokens.update (fun r => r.id == token.id) fun r =>
        { r with usedCount := r.usedCount + 1 } := by
  obtain ⟨event, db₁, log, hbody, rfl⟩ := classA_eq_ok h
  simp only [bind_eq_ok, require_eq_ok, pure_eq_ok, Prod.mk.injEq] at hbody
  obtain ⟨consumed, hconsume, -, -, rfl, -, -⟩ := hbody
  unfold RegistrationTokens.consume at hconsume
  split at hconsume
  · cases hconsume
  · next token hfind =>
    obtain ⟨hmem, hhash⟩ := Table.mem_of_find? hfind
    split at hconsume
    · next husable =>
      exact ⟨token, hmem, beq_iff_eq.mp hhash, husable, (Option.some.inj hconsume).symm⟩
    · cases hconsume

theorem issueRegistrationToken_ok {row : RegistrationTokenRow}
    (h : issueRegistrationToken db tokens row = .ok (tokens', db')) :
    (∀ r ∈ tokens, r.tokenHash ≠ row.tokenHash) ∧ tokens.insert? row = some tokens' ∧
      ∃ log, db' = { db with auditLog := log } := by
  obtain ⟨event, db₁, log, hbody, rfl⟩ := classA_eq_ok h
  simp only [RegistrationTokens.create, bind_eq_ok, ensure_eq_ok, require_eq_ok, pure_eq_ok,
    Prod.mk.injEq] at hbody
  obtain ⟨created, ⟨-, hfree, hinsert⟩, rfl, -, rfl⟩ := hbody
  refine ⟨fun r hr hhash => ?_, hinsert, log, rfl⟩
  have hnone := Table.find?_eq_none.mp (Option.isNone_iff_eq_none.mp hfree) r hr
  simp [hhash] at hnone

theorem revokeRegistrationToken_ok {target : Nat}
    (h : revokeRegistrationToken db tokens target now = .ok (tokens', db')) :
    (∃ token ∈ tokens, token.id = target ∧ tokens' =
      tokens.update (fun r => r.id == token.id) fun r => { r with revokedAt := some now }) ∧
      ∃ log, db' = { db with auditLog := log } := by
  obtain ⟨event, db₁, log, hbody, rfl⟩ := classA_eq_ok h
  simp only [RegistrationTokens.revoke, bind_eq_ok, ensure_eq_ok, pure_eq_ok,
    Prod.mk.injEq] at hbody
  obtain ⟨revoked, ⟨-, hsome, rfl⟩, rfl, -, rfl⟩ := hbody
  obtain ⟨token, hget⟩ := Option.isSome_iff_exists.mp hsome
  obtain ⟨htoken, rfl⟩ := Table.get?_eq_some.mp hget
  exact ⟨⟨token, htoken, rfl, rfl⟩, log, rfl⟩

end SuiId

import SuiId.Store.RefreshTokens

/-!
# Clients, consent and authorization codes

The rows an OAuth client holds on behalf of a user, and the commands that end
the delegation: revoking a consent (U20), disabling (C05) and deleting (C06) a
client.  Granting consent (U21) and enabling a client (C21) are here too.
-/

namespace SuiId

open Lib Lib.Result

namespace AuthCodes

/-- `insert`.  The table refers to `clients` and `users`. -/
def insert (db : Database) (row : AuthorizationCodeRow) : StoreResult Database := do
  ensure (db.clients.get? row.clientId).isSome .db
  ensure (db.users.get? row.userId).isSome .db
  let authCodes ← require (db.authCodes.insert? row) .db
  pure { db with authCodes }

/-- May this row be consumed at `now`? -/
def live (row : AuthorizationCodeRow) (now : DateTime) : Bool :=
  !row.consumed && now < row.expiresAt

/-- `consume`: the guarded single-use update, and the row it took. -/
def consume (db : Database) (codeHash : Bytes) (now : DateTime) :
    StoreResult (AuthorizationCodeRow × Database) := do
  let row ← require ((db.authCodes.get? codeHash).filter fun r => live r now) .notFound
  let authCodes := db.authCodes.update (fun r => r.codeHash == codeHash && live r now)
    fun r => { r with consumed := true }
  pure ({ row with consumed := true }, { db with authCodes })

/-- `invalidate_all_for_user_within_tx`. -/
def invalidateAllForUser (db : Database) (user : UserId) : Database :=
  { db with
    authCodes := db.authCodes.update (fun r => r.userId == user && !r.consumed)
      fun r => { r with consumed := true } }

/-- `purge_expired`. -/
def purgeExpired (db : Database) (now : DateTime) : Database :=
  { db with authCodes := db.authCodes.delete fun r => r.expiresAt < now }

end AuthCodes

namespace Clients

/-- `set_disabled_within_tx`. -/
def setDisabled (db : Database) (id : ClientId) (disabled : Bool) : StoreResult Database := do
  ensure (db.clients.get? id).isSome .notFound
  pure { db with clients := db.clients.update (fun c => c.id == id) fun c =>
    { c with isDisabled := disabled } }

/-- `soft_delete_within_tx`. -/
def softDelete (db : Database) (id : ClientId) : StoreResult Database := do
  ensure (db.clients.get? id).isSome .notFound
  pure { db with clients := db.clients.update (fun c => c.id == id) fun c =>
    { c with isDeleted := true, isDisabled := true } }

end Clients

/-- The `reason` attribute of an event, when one was given. -/
def reasonAttribute : Option String → List (String × String)
  | some r => [("reason", r)]
  | none => []

/-- How many refresh tokens a sweep of the client's tokens revokes. -/
def clientTokensToRevoke (db : Database) (client : ClientId) : Nat :=
  db.refreshTokens.count fun r => r.clientId == client && r.revokedAt.isNone

/-- C05: disable a client and revoke its refresh tokens. -/
def disableClient (db : Database) (admin : UserId) (target : ClientId) (reason : Option String)
    (now : DateTime) : StoreResult (Unit × Database) :=
  classA (some admin) do
    let db ← Clients.setDisabled db target true
    let revoked := clientTokensToRevoke db target
    let db := RefreshTokens.revokeAllForClient db target now
    pure ((), ⟨"client.disable", some (toString target), .ok,
      reasonAttribute reason ++ [("refresh_tokens_revoked", toString revoked)],
      ["refresh_tokens_revoked"]⟩, db)

/-- C21: enable a client. -/
def enableClient (db : Database) (admin : UserId) (target : ClientId) :
    StoreResult (Unit × Database) :=
  classA (some admin) do
    let db ← Clients.setDisabled db target false
    pure ((), ⟨"client.enable", some (toString target), .ok, [], []⟩, db)

/-- C06: soft-delete a client and revoke its refresh tokens. -/
def deleteClient (db : Database) (admin : UserId) (target : ClientId) (reason : Option String)
    (now : DateTime) : StoreResult (Unit × Database) :=
  classA (some admin) do
    let db ← Clients.softDelete db target
    let revoked := clientTokensToRevoke db target
    let db := RefreshTokens.revokeAllForClient db target now
    pure ((), ⟨"client.delete", some (toString target), .ok,
      reasonAttribute reason ++ [("refresh_tokens_revoked", toString revoked)],
      ["refresh_tokens_revoked"]⟩, db)

/-- `revoke_with_tokens_within_tx`: the pair's refresh tokens, then its grant. -/
def revokeWithTokens (db : Database) (user : UserId) (client : ClientId) :
    StoreResult Database := do
  let refreshTokens := db.refreshTokens.delete fun r => r.userId == user && r.clientId == client
  ensure (db.userConsent.get? (user, client)).isSome .notFound
  let userConsent := db.userConsent.delete fun r => r.userId == user && r.clientId == client
  pure { db with refreshTokens, userConsent }

/-- U20: revoke a consent grant. -/
def revokeConsent (db : Database) (user : UserId) (client : ClientId) :
    StoreResult (Unit × Database) :=
  classA (some user) do
    let db ← revokeWithTokens db user client
    pure ((), ⟨"auth.consent.revoked", some (toString client), .ok, [], []⟩, db)

/-- U21: grant or update consent.  The table refers to `users` and `clients`. -/
def grantConsent (db : Database) (user : UserId) (client : ClientId) (grantedScopes : String)
    (now : DateTime) : StoreResult (Unit × Database) :=
  classA (some user) do
    ensure (db.users.get? user).isSome .db
    ensure (db.clients.get? client).isSome .db
    let change := if (db.userConsent.get? (user, client)).isSome then "updated" else "granted"
    let userConsent := db.userConsent.upsert ⟨user, client, grantedScopes, now⟩
    pure ((), ⟨"auth.consent.granted", some (toString client), .ok, [("change", change)],
      ["change"]⟩,
      { db with userConsent })

/-! ## What a committed command did -/

variable {db db' : Database} {now : DateTime} {admin : UserId} {target : ClientId} {u : Unit}
variable {row : AuthorizationCodeRow} {reason : Option String} {user : UserId} {client : ClientId}

theorem AuthCodes.insert_ok (h : AuthCodes.insert db row = .ok db') :
    ∃ authCodes, db.authCodes.insert? row = some authCodes ∧ db' = { db with authCodes } := by
  simp only [AuthCodes.insert, bind_eq_ok, ensure_eq_ok, require_eq_ok, pure_eq_ok] at h
  obtain ⟨-, -, -, -, authCodes, hinsert, rfl⟩ := h
  exact ⟨authCodes, hinsert, rfl⟩

/-- Consuming takes a row that was live and marks it, and no other. -/
theorem AuthCodes.consume_ok {codeHash : Bytes}
    (h : AuthCodes.consume db codeHash now = .ok (row, db')) :
    ∃ old ∈ db.authCodes, old.codeHash = codeHash ∧ AuthCodes.live old now = true ∧
      row = { old with consumed := true } ∧
      db' = { db with
        authCodes := db.authCodes.update (fun r => r.codeHash == codeHash && AuthCodes.live r now)
          fun r => { r with consumed := true } } := by
  simp only [AuthCodes.consume, bind_eq_ok, require_eq_ok, pure_eq_ok, Prod.mk.injEq,
    Option.filter_eq_some_iff] at h
  obtain ⟨old, ⟨hget, hlive⟩, rfl, rfl⟩ := h
  obtain ⟨hmem, hhash⟩ := Table.get?_eq_some.mp hget
  exact ⟨old, hmem, hhash, hlive, rfl, rfl⟩

theorem disableClient_ok (h : disableClient db admin target reason now = .ok (u, db')) :
    ∃ log, db' = { RefreshTokens.revokeAllForClient db target now with
      clients := db.clients.update (fun c => c.id == target) fun c => { c with isDisabled := true }
      auditLog := log } := by
  obtain ⟨event, db₁, log, hbody, rfl⟩ := classA_eq_ok h
  simp only [Clients.setDisabled, bind_eq_ok, ensure_eq_ok, pure_eq_ok, Prod.mk.injEq] at hbody
  obtain ⟨db₂, ⟨-, -, rfl⟩, -, -, rfl⟩ := hbody
  exact ⟨log, rfl⟩

theorem enableClient_ok (h : enableClient db admin target = .ok (u, db')) :
    ∃ log, db' = { db with
      clients := db.clients.update (fun c => c.id == target) fun c => { c with isDisabled := false }
      auditLog := log } := by
  obtain ⟨event, db₁, log, hbody, rfl⟩ := classA_eq_ok h
  simp only [Clients.setDisabled, bind_eq_ok, ensure_eq_ok, pure_eq_ok, Prod.mk.injEq] at hbody
  obtain ⟨db₂, ⟨-, -, rfl⟩, -, -, rfl⟩ := hbody
  exact ⟨log, rfl⟩

theorem deleteClient_ok (h : deleteClient db admin target reason now = .ok (u, db')) :
    (db.clients.get? target).isSome = true ∧
      ∃ log, db' = { RefreshTokens.revokeAllForClient db target now with
        clients := db.clients.update (fun c => c.id == target) fun c =>
          { c with isDeleted := true, isDisabled := true }
        auditLog := log } := by
  obtain ⟨event, db₁, log, hbody, rfl⟩ := classA_eq_ok h
  simp only [Clients.softDelete, bind_eq_ok, ensure_eq_ok, pure_eq_ok, Prod.mk.injEq] at hbody
  obtain ⟨db₂, ⟨-, hsome, rfl⟩, -, -, rfl⟩ := hbody
  exact ⟨hsome, log, rfl⟩

theorem revokeConsent_ok (h : revokeConsent db user client = .ok (u, db')) :
    ∃ userConsent log, db' = { db with
      refreshTokens := db.refreshTokens.delete fun r => r.userId == user && r.clientId == client
      userConsent, auditLog := log } := by
  obtain ⟨event, db₁, log, hbody, rfl⟩ := classA_eq_ok h
  simp only [revokeWithTokens, bind_eq_ok, ensure_eq_ok, pure_eq_ok, Prod.mk.injEq] at hbody
  obtain ⟨db₂, ⟨-, -, rfl⟩, -, -, rfl⟩ := hbody
  exact ⟨_, log, rfl⟩

theorem grantConsent_ok {grantedScopes : String}
    (h : grantConsent db user client grantedScopes now = .ok (u, db')) :
    ∃ userConsent log, db' = { db with userConsent, auditLog := log } := by
  obtain ⟨event, db₁, log, hbody, rfl⟩ := classA_eq_ok h
  simp only [bind_eq_ok, ensure_eq_ok, pure_eq_ok, Prod.mk.injEq] at hbody
  obtain ⟨-, -, -, -, -, -, rfl⟩ := hbody
  exact ⟨_, log, rfl⟩

end SuiId

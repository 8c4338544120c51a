import SuiId.Store.Accounts

/-!
# Session resolution

`session::resolve` and the `CurrentAdmin` extractor in front of every
administrator request.  Resolution writes: a session past the idle timeout is
revoked before it is refused, and an accepted one has its last use recorded.
-/

namespace SuiId

open Lib Lib.Result

/-- `ProtocolError`: the codes of `CoreError::Protocol`. -/
inductive ProtocolError where
  | invalidRequest
  | invalidClient
  | invalidGrant
  | unauthorizedClient
  | unsupportedGrantType
  | invalidScope
  | unsupportedResponseType
  | accessDenied
  | serverError
  | temporarilyUnavailable
deriving DecidableEq, Repr

/-- `CoreError`. -/
inductive CoreError where
  | invalidCredentials
  | unauthenticated
  | forbidden
  | notFound
  | conflict (message : String)
  | badRequest (message : String)
  | notInitialized
  | alreadyInitialized
  | protocol (code : ProtocolError) (description : String)
  | store (error : StoreError)
  | password
  | jwt
  | internal
  | configError (message : String)
deriving DecidableEq, Repr

/-- `CoreResult`. -/
abbrev CoreResult (α : Type) := Except CoreError α

/-- Has the session been idle for longer than the configured timeout? -/
def pastIdleTimeout (db : Database) (s : SessionRow) (now : DateTime) : Bool :=
  let timeout := db.serverSettings.idleSessionTimeoutSecs
  0 < timeout && timeout < numSeconds (now - s.lastUsedAt.getD s.createdAt)

/-- `session::resolve`. -/
def resolve (db : Database) (now : DateTime) (id : SessionId) : CoreResult UserId × Database :=
  match Sessions.getWithUserActive db id with
  | none => (.error .unauthenticated, db)
  | some (s, userActive) =>
    if s.revokedAt.isSome || s.expiresAt ≤ now || !userActive then (.error .unauthenticated, db)
    else if pastIdleTimeout db s now then
      match revokeSessionIdleTimeout db s.userId id now with
      | .ok (_, db) => (.error .unauthenticated, db)
      | .error _ => (.error .unauthenticated, db)
    else (.ok s.userId, db)

/-- `LAST_USED_AT_THROTTLE_SECS`. -/
def lastUsedAtThrottleSecs : Int := 60

/-- `session::touch_last_used`, at most once a minute. -/
def touchLastUsed (db : Database) (now : DateTime) (id : SessionId) : Database :=
  match db.sessions.get? id with
  | none => db
  | some s =>
    if s.lastUsedAt.all fun t => lastUsedAtThrottleSecs ≤ numSeconds (now - t) then
      { db with sessions := db.sessions.update (fun s => s.id == id) fun s =>
        { s with lastUsedAt := some now } }
    else db

variable {db : Database} {user : UserId} {session : SessionId} {now : DateTime}

theorem revokeSessionIdleTimeout_ok {db' : Database} {u : Unit}
    (h : revokeSessionIdleTimeout db user session now = .ok (u, db')) :
    ∃ log, db' = { Sessions.revoke db session now with auditLog := log } := by
  obtain ⟨event, db₁, log, hbody, rfl⟩ := classA_eq_ok h
  simp only [pure_eq_ok, Prod.mk.injEq] at hbody
  obtain ⟨-, -, rfl⟩ := hbody
  exact ⟨log, rfl⟩

/-- Resolution writes sessions only, and revives none. -/
theorem resolve_eq (db : Database) (now : DateTime) (id : SessionId) :
    ∃ sessions log, Sessions.RevokedKept db.sessions sessions ∧
      (resolve db now id).2 = { db with sessions, auditLog := log } := by
  have hsame : ∃ sessions log, Sessions.RevokedKept db.sessions sessions ∧
      db = { db with sessions, auditLog := log } := ⟨db.sessions, db.auditLog, .refl _, rfl⟩
  unfold resolve
  split
  · exact hsame
  · split
    · exact hsame
    · split
      · split
        · rename_i hrevoke
          obtain ⟨log, rfl⟩ := revokeSessionIdleTimeout_ok hrevoke
          exact ⟨_, log, Sessions.revokedKept_revokeWhere db _ now, rfl⟩
        · exact hsame
      · exact hsame

theorem resolve_users (db : Database) (now : DateTime) (id : SessionId) :
    (resolve db now id).2.users = db.users := by
  obtain ⟨sessions, log, -, heq⟩ := resolve_eq db now id
  rw [heq]

/-- A resolved session is one that is not revoked. -/
theorem resolve_ok {id : SessionId} (h : (resolve db now id).1 = .ok user) :
    ∃ s ∈ db.sessions, s.id = id ∧ s.userId = user ∧ s.revokedAt = none := by
  unfold resolve at h
  split at h
  · cases h
  · rename_i s userActive hget
    split at h
    · cases h
    · rename_i hguard
      split at h
      · split at h
        · cases h
        · cases h
      · cases h
        simp only [Bool.or_eq_true, not_or, Bool.not_eq_true, Option.isSome_eq_false_iff,
          Option.isNone_iff_eq_none] at hguard
        simp only [Sessions.getWithUserActive, Option.bind_eq_bind, Option.bind_eq_some_iff] at hget
        obtain ⟨s', hs', u, -, hpair⟩ := hget
        cases hpair
        obtain ⟨hmem, hid⟩ := Table.get?_eq_some.mp hs'
        exact ⟨s, hmem, hid, rfl, hguard.1.1⟩

theorem touchLastUsed_users (db : Database) (now : DateTime) (id : SessionId) :
    (touchLastUsed db now id).users = db.users := by
  unfold touchLastUsed
  split
  · rfl
  · split
    · rfl
    · rfl

end SuiId

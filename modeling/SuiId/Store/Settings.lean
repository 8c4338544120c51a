import SuiId.Store.Sealed

/-!
# SMTP settings and their pending changes

`smtp_config` is one row.  It is written by a direct save (S06) and by a pending change that is
confirmed (S08), and both write all of it.

A pending change is created (S07), and then confirmed, cancelled (S09) or purged.  Nothing updates
its row.
-/

namespace SuiId

open Lib Lib.Result

/-- `SmtpTlsMode::parse`, where true is STARTTLS and false is TLS from the start. -/
def parseTlsMode (s : String) : Option Bool :=
  if s = "implicit" then some false else if s = "starttls" then some true else none

/-- The text of the TLS mode in the summary. -/
def tlsModeText (startTls : Bool) : String := if startTls then "starttls" else "implicit"

namespace SmtpConfig

/-- `upsert_within_tx`.  The time of creation of a row that exists is kept. -/
def upsert (db : Database) (row : SmtpConfigRow) : Database :=
  let createdAt := (db.smtpConfig.map (·.createdAt)).getD row.createdAt
  { db with smtpConfig := some { row with createdAt } }

/-- `seal_password`. -/
def sealPassword (P : Primitives) (key : MasterKey) (nonce : Nonce) (password : String) :
    StoreResult Bytes := sealBytes P key nonce (utf8 password) passwordAad

end SmtpConfig

namespace PendingSettingsChange

/-- `insert_within_tx`. -/
def insert (db : Database) (row : PendingSettingsChangeRow) : StoreResult Database := do
  let pendingSettingsChange ← require (db.pendingSettingsChange.insert? row) .db
  pure { db with pendingSettingsChange }

/-- `cancel_within_tx`. -/
def cancel (db : Database) (id : Nat) : Database :=
  { db with pendingSettingsChange := db.pendingSettingsChange.delete fun r => r.id == id }

/-- The row, unless it has expired. -/
def peek (db : Database) (id : Nat) (now : DateTime) : StoreResult PendingSettingsChangeRow := do
  let row ← require (db.pendingSettingsChange.get? id) .notFound
  ensure (now < row.expiresAt) .notFound
  pure row

/-- `ApplyAttempt`. -/
inductive ApplyAttempt where
  | applied (intent : String)
  | bindingFailed (intent : String)
deriving DecidableEq

/-- The session, the actor and the token that the change was created with. -/
def bound (row : PendingSettingsChangeRow) (sessionId : SessionId) (actorId : UserId)
    (csrfToken : String) : Bool :=
  row.sessionId == sessionId && row.actorId == actorId && row.csrfToken == csrfToken

/-- `apply_within_tx`: the row is deleted only where the binding matches. -/
def apply (db : Database) (id : Nat) (sessionId : SessionId) (actorId : UserId)
    (csrfToken : String) (now : DateTime) : StoreResult (ApplyAttempt × Database) := do
  let row ← peek db id now
  if bound row sessionId actorId csrfToken then pure (.applied row.intent, cancel db id)
  else pure (.bindingFailed row.intent, db)

/-- `purge_expired`. -/
def purgeExpired (db : Database) (now : DateTime) : Database :=
  { db with pendingSettingsChange := db.pendingSettingsChange.delete fun r => r.expiresAt ≤ now }

end PendingSettingsChange

/-! ## Commands -/

/-- S06: the direct save. -/
def changeSmtpConfig (db : Database) (admin : UserId) (newSmtpConfig : SmtpConfigRow) :
    StoreResult (Unit × Database) :=
  classA (some admin) (.ok ((), ⟨"auth.smtp_config.changed", none, .ok,
    [("enabled", toString newSmtpConfig.enabled), ("host", newSmtpConfig.host),
      ("port", toString newSmtpConfig.port), ("tls_mode", tlsModeText newSmtpConfig.startTls)],
      ["enabled", "host", "port", "tls_mode"]⟩,
    SmtpConfig.upsert db newSmtpConfig))

/-- S07: create a pending change. -/
def createPendingSettingsChange (db : Database) (admin : UserId) (row : PendingSettingsChangeRow) :
    StoreResult (Unit × Database) :=
  classA (some admin) do
    let db ← PendingSettingsChange.insert db row
    pure ((), ⟨"settings.pending_change.created", some (toString row.id), .ok,
      [("intent", row.intent)], ["intent"]⟩, db)

/-- `ApplyPendingSettingsChangeOutcome`. -/
inductive ApplyPendingSettingsChangeOutcome where
  | applied
  | bindingFailed
deriving DecidableEq

/-- S08: confirm a pending change.  A binding that does not match is recorded and changes nothing
else. -/
def applyPendingSettingsChange (db : Database) (admin : UserId) (id : Nat) (sessionId : SessionId)
    (csrfToken : String) (now : DateTime) (newSmtpConfig : SmtpConfigRow) :
    StoreResult (ApplyPendingSettingsChangeOutcome × Database) :=
  classA (some admin) do
    match ← PendingSettingsChange.apply db id sessionId admin csrfToken now with
    | (.applied intent, db) =>
      pure (.applied, ⟨"settings.pending_change.applied", some (toString id), .ok,
        [("intent", intent)], ["intent"]⟩, SmtpConfig.upsert db newSmtpConfig)
    | (.bindingFailed intent, db) =>
      pure (.bindingFailed, ⟨"settings.pending_change.binding_failed", some (toString id), .failure,
        [("intent", intent)], ["intent"]⟩, db)

/-- S09: cancel a pending change, also one that is not there. -/
def cancelPendingSettingsChange (db : Database) (admin : UserId) (id : Nat) :
    StoreResult (Unit × Database) :=
  classA (some admin) (.ok ((), ⟨"settings.pending_change.cancelled", some (toString id), .ok, [],
    []⟩,
    PendingSettingsChange.cancel db id))

/-! ## What a committed command did -/

variable {db db' : Database} {admin : UserId} {u : Unit} {id : Nat} {now : DateTime}

theorem changeSmtpConfig_ok {row : SmtpConfigRow}
    (h : changeSmtpConfig db admin row = .ok (u, db')) :
    ∃ log, db' = { SmtpConfig.upsert db row with auditLog := log } := by
  obtain ⟨event, db₁, log, hbody, rfl⟩ := classA_eq_ok h
  cases hbody
  exact ⟨log, rfl⟩

variable {row : PendingSettingsChangeRow} {sessionId : SessionId} {csrfToken : String}
  {config : SmtpConfigRow}

theorem createPendingSettingsChange_ok
    (h : createPendingSettingsChange db admin row = .ok (u, db')) :
    ∃ pending log, db.pendingSettingsChange.insert? row = some pending ∧
      db' = { db with pendingSettingsChange := pending, auditLog := log } := by
  obtain ⟨event, db₁, log, hbody, rfl⟩ := classA_eq_ok h
  simp only [PendingSettingsChange.insert, bind_eq_ok, require_eq_ok, pure_eq_ok, Prod.mk.injEq]
    at hbody
  obtain ⟨db₂, ⟨pending, hinsert, rfl⟩, -, -, rfl⟩ := hbody
  exact ⟨pending, log, hinsert, rfl⟩

theorem cancelPendingSettingsChange_ok
    (h : cancelPendingSettingsChange db admin id = .ok (u, db')) :
    ∃ log, db' = { PendingSettingsChange.cancel db id with auditLog := log } := by
  obtain ⟨event, db₁, log, hbody, rfl⟩ := classA_eq_ok h
  cases hbody
  exact ⟨log, rfl⟩

theorem PendingSettingsChange.peek_eq_ok :
    peek db id now = .ok row ↔
      db.pendingSettingsChange.get? id = some row ∧ now < row.expiresAt := by
  simp only [peek, bind_eq_ok, require_eq_ok, ensure_eq_ok, pure_eq_ok, decide_eq_true_eq]
  constructor
  · rintro ⟨r, hget, -, hlt, rfl⟩
    exact ⟨hget, hlt⟩
  · rintro ⟨hget, hlt⟩
    exact ⟨row, hget, (), hlt, rfl⟩

/-- A change that is applied is there, has not expired and matches; its row goes away and the
settings are those of the command. -/
theorem applyPendingSettingsChange_applied
    (h : applyPendingSettingsChange db admin id sessionId csrfToken now config =
      .ok (.applied, db')) :
    ∃ row log, db.pendingSettingsChange.get? id = some row ∧ now < row.expiresAt ∧
      PendingSettingsChange.bound row sessionId admin csrfToken = true ∧
      db' = { SmtpConfig.upsert (PendingSettingsChange.cancel db id) config with
        auditLog := log } := by
  obtain ⟨event, db₁, log, hbody, rfl⟩ := classA_eq_ok h
  simp only [PendingSettingsChange.apply, bind_eq_ok] at hbody
  obtain ⟨⟨attempt, db₂⟩, ⟨row, hpeek, hattempt⟩, hbody⟩ := hbody
  obtain ⟨hget, hlt⟩ := PendingSettingsChange.peek_eq_ok.mp hpeek
  split at hattempt
  · next hbound =>
    cases hattempt
    cases hbody
    exact ⟨row, log, hget, hlt, hbound, rfl⟩
  · cases hattempt
    cases hbody

/-- A binding that does not match leaves the settings and the changes as they are. -/
theorem applyPendingSettingsChange_bindingFailed
    (h : applyPendingSettingsChange db admin id sessionId csrfToken now config =
      .ok (.bindingFailed, db')) :
    ∃ log, db' = { db with auditLog := log } := by
  obtain ⟨event, db₁, log, hbody, rfl⟩ := classA_eq_ok h
  simp only [PendingSettingsChange.apply, bind_eq_ok] at hbody
  obtain ⟨⟨attempt, db₂⟩, ⟨row, -, hattempt⟩, hbody⟩ := hbody
  split at hattempt
  · cases hattempt
    cases hbody
  · cases hattempt
    cases hbody
    exact ⟨log, rfl⟩

end SuiId

import SuiId.Store.Federation

/-!
# The second factor of a federated sign-in

A linked user with a local second factor gets a `federation_mfa_pending` row
in place of a session (F02).  A right proof promotes the row into a session
(F03); a wrong one is counted on the row, and the fifth exhausts it.  A passkey
proof goes through a ceremony bound to the row (F06).

`federation_mfa_pending.rs`, `federation_webauthn_ceremony.rs` and the three
commands, each a single transaction.  The audit observations made after F02 and
F03 have committed are not modelled.
-/

namespace SuiId

open Lib Lib.Result

/-! ## Pending rows -/

namespace FederationMfaPendingRow

/-- The statuses of `idx_federation_mfa_pending_one_active_per_user`. -/
def active (r : FederationMfaPendingRow) : Bool :=
  r.status == .pending || r.status == .exhausted

/-- The row ends as completed or invalidated. -/
def closed (r : FederationMfaPendingRow) (status : MfaPendingStatus)
    (h : status ≠ .pending := by decide) : FederationMfaPendingRow :=
  { r with status, continuationSealed := none, check_continuation := by simp [h] }

/-- The row after one more wrong proof: the fifth exhausts it. -/
def countFailure (r : FederationMfaPendingRow) : FederationMfaPendingRow :=
  if h : r.failureCount < 5 then
    if r.failureCount + 1 ≥ 5 then
      { r with
        failureCount := r.failureCount + 1, status := .exhausted, continuationSealed := none
        check_failureCount := h, check_continuation := by simp }
    else { r with failureCount := r.failureCount + 1, check_failureCount := h }
  else r

end FederationMfaPendingRow

/-- `FailureIncrement`. -/
inductive FailureIncrement where
  | stillPending (failureCount : Nat)
  | exhausted
deriving DecidableEq

/-- `MfaRejectionReason`. -/
inductive MfaRejectionReason where
  | totp
  | recovery
  | webauthn
  | malformed
  | methodMismatch
deriving DecidableEq, Repr

/-- The arguments of F02 with its two draws. -/
structure MfaPendingRequest where
  id : FederationMfaPendingId
  nonce : Nonce
  attemptId : AttemptId
  providerId : ProviderId
  providerConfigVersion : Int
  providerActivationGeneration : Int
  userId : UserId
  nextPath : Option String
  browserBindingSha256 : Bytes
  csrfBindingSha256 : Bytes
  now : DateTime

/-- The row after a restart: what the new upstream round trip produced, and
neither the count nor the status nor the times. -/
def FederationMfaPendingRow.refreshed (r : FederationMfaPendingRow) (req : MfaPendingRequest)
    (continuationSealed : Bytes) : FederationMfaPendingRow :=
  if h : r.status = .pending then
    { r with
      providerId := req.providerId
      providerConfigVersion := req.providerConfigVersion
      providerActivationGeneration := req.providerActivationGeneration
      continuationSealed := some continuationSealed
      nextPath := req.nextPath
      browserBindingSha256 := req.browserBindingSha256
      csrfBindingSha256 := req.csrfBindingSha256
      check_continuation := by simp [h] }
  else r

theorem FederationMfaPendingRow.countFailure_id (r : FederationMfaPendingRow) :
    r.countFailure.id = r.id := by
  unfold countFailure
  split
  · split
    · rfl
    · rfl
  · rfl

theorem FederationMfaPendingRow.refreshed_id (r : FederationMfaPendingRow)
    (req : MfaPendingRequest) (sealed : Bytes) : (r.refreshed req sealed).id = r.id := by
  unfold refreshed
  split
  · rfl
  · rfl

namespace FederationMfaPending

/-- `LIFETIME_SECS`. -/
def lifetimeSecs : Int := 300

/-- The pending row F02 builds around the sealed continuation. -/
def newRow (req : MfaPendingRequest) (continuationSealed : Bytes) : FederationMfaPendingRow where
  id := req.id
  providerId := req.providerId
  providerConfigVersion := req.providerConfigVersion
  providerActivationGeneration := req.providerActivationGeneration
  userId := req.userId
  continuationSealed := some continuationSealed
  nextPath := req.nextPath
  browserBindingSha256 := req.browserBindingSha256
  csrfBindingSha256 := req.csrfBindingSha256
  failureCount := 0
  status := .pending
  createdAt := req.now
  expiresAt := req.now + seconds lifetimeSecs
  check_failureCount := by decide
  check_continuation := by simp

theorem newRow_id (req : MfaPendingRequest) (continuationSealed : Bytes) :
    (newRow req continuationSealed).id = req.id := rfl

/-- `insert_within_tx`.  The row refers to `federation_link`, and a user has at
most one active row; every constraint failure is a conflict. -/
def insert (db : Database) (row : FederationMfaPendingRow) : StoreResult Database := do
  ensure (0 ≤ row.providerConfigVersion && 0 ≤ row.providerActivationGeneration) .conflict
  ensure (FederationLink.isLinked db row.userId row.providerId) .conflict
  ensure (db.federationMfaPending.rows.all fun r =>
    !(row.active && r.active && r.userId == row.userId)) .conflict
  let federationMfaPending ← require (db.federationMfaPending.insert? row) .conflict
  pure { db with federationMfaPending }

/-- `find_active_by_user_id_within_tx`. -/
def findActiveByUserId (db : Database) (user : UserId) : Option FederationMfaPendingRow :=
  db.federationMfaPending.find? fun r => r.userId == user && r.active

/-- `UPDATE federation_mfa_pending SET f WHERE id = ? AND p`, and whether a row
matched. -/
def updateWhere (db : Database) (id : FederationMfaPendingId) (p : FederationMfaPendingRow → Bool)
    (f : FederationMfaPendingRow → FederationMfaPendingRow) (hf : ∀ r, (f r).id = r.id) :
    Bool × Database :=
  ((db.federationMfaPending.get? id).any p,
    { db with
      federationMfaPending := db.federationMfaPending.update (fun r => r.id == id && p r) f hf })

/-- `refresh_for_restart_within_tx`.  The row's new provider must be linked, and
no ceremony may still refer to its old one. -/
def refreshForRestart (db : Database) (id : FederationMfaPendingId) (req : MfaPendingRequest)
    (continuationSealed : Bytes) : StoreResult (Bool × Database) := do
  let pending := fun r : FederationMfaPendingRow =>
    r.userId == req.userId && r.status == .pending
  let (refreshed, db) := updateWhere db id pending (fun r => r.refreshed req continuationSealed)
    fun r => r.refreshed_id req continuationSealed
  ensure (!refreshed || (0 ≤ req.providerConfigVersion && 0 ≤ req.providerActivationGeneration)) .db
  ensure (!refreshed || FederationLink.isLinked db req.userId req.providerId) .db
  ensure (!refreshed || db.federationWebauthnCeremony.rows.all fun c =>
    c.pendingId != id || (c.providerId == req.providerId &&
      c.providerConfigVersion == req.providerConfigVersion &&
      c.providerActivationGeneration == req.providerActivationGeneration)) .db
  pure (refreshed, db)

/-- `increment_failure_within_tx`. -/
def incrementFailure (db : Database) (id : FederationMfaPendingId) :
    Option FailureIncrement × Database :=
  let open_ := fun r : FederationMfaPendingRow => r.status == .pending && r.failureCount < 5
  let (_, db') := updateWhere db id open_ (fun r => r.countFailure) fun r => r.countFailure_id
  match (db.federationMfaPending.get? id).filter open_ with
  | some r =>
    (some (if r.failureCount + 1 ≥ 5 then .exhausted else .stillPending (r.failureCount + 1)), db')
  | none => (none, db')

/-- `complete_within_tx`. -/
def complete (db : Database) (id : FederationMfaPendingId) : Bool × Database :=
  updateWhere db id (fun r => r.status == .pending && r.failureCount < 5)
    (fun r => r.closed .completed) fun _ => rfl

/-- `invalidate_within_tx`. -/
def invalidate (db : Database) (id : FederationMfaPendingId) : Bool × Database :=
  updateWhere db id (fun r => r.status == .pending) (fun r => r.closed .invalidated) fun _ => rfl

/-- `purge_expired` keeps rows this long after they expire. -/
def retentionHours : Int := 24

/-- Is the row old enough for `purge_expired` at `now`? -/
def purgeable (r : FederationMfaPendingRow) (now : DateTime) : Bool :=
  r.expiresAt < now - seconds (retentionHours * 3600)

/-- `purge_expired`, whatever the status; ceremonies go with their row. -/
def purgeExpired (db : Database) (now : DateTime) : Database :=
  { db with
    federationMfaPending := db.federationMfaPending.delete fun r => purgeable r now
    federationWebauthnCeremony := db.federationWebauthnCeremony.delete fun c =>
      (db.federationMfaPending.get? c.pendingId).any fun r => purgeable r now }

end FederationMfaPending

/-! ## Ceremonies -/

namespace FederationWebauthnCeremony

/-- Does the ceremony carry the columns of this row that its foreign key names? -/
def boundTo (c : FederationWebauthnCeremonyRow) (r : FederationMfaPendingRow) : Bool :=
  c.pendingId == r.id && c.providerId == r.providerId &&
    c.providerConfigVersion == r.providerConfigVersion &&
    c.providerActivationGeneration == r.providerActivationGeneration && c.userId == r.userId &&
    c.pendingExpiresAt == r.expiresAt

/-- `insert_or_replace_within_tx`: the ceremony of the same row, if any, goes. -/
def insertOrReplace (db : Database) (row : FederationWebauthnCeremonyRow) :
    StoreResult Database := do
  ensure ((db.federationMfaPending.get? row.pendingId).any fun r => boundTo row r) .conflict
  ensure (row.expiresAt / seconds 1 ≤ row.pendingExpiresAt / seconds 1) .conflict
  pure { db with
    federationWebauthnCeremony := (db.federationWebauthnCeremony.delete fun c =>
      c.pendingId == row.pendingId).upsert row }

/-- `find_by_pending_id_within_tx`. -/
def findByPendingId (db : Database) (pending : FederationMfaPendingId) :
    Option FederationWebauthnCeremonyRow :=
  db.federationWebauthnCeremony.find? fun c => c.pendingId == pending

/-- `consume_within_tx`. -/
def consume (db : Database) (id : CeremonyId) : Database :=
  { db with federationWebauthnCeremony := db.federationWebauthnCeremony.delete fun c => c.id == id }

/-- `delete_by_pending_id_within_tx`. -/
def deleteByPendingId (db : Database) (pending : FederationMfaPendingId) : Database :=
  { db with
    federationWebauthnCeremony := db.federationWebauthnCeremony.delete fun c =>
      c.pendingId == pending }

end FederationWebauthnCeremony

namespace WebauthnCredentials

/-- `swap_passkey_within_tx`. -/
def swapPasskey (db : Database) (id : WebauthnCredentialId) (expectedSealed newSealed : Bytes)
    (now : DateTime) : StoreResult Database := do
  let expected := fun c : UserWebauthnCredentialRow => c.passkeyEnc == expectedSealed
  ensure ((db.webauthnCredentials.get? id).any expected) .notFound
  pure { db with
    webauthnCredentials :=
      db.webauthnCredentials.update (fun c => c.id == id && expected c) fun c =>
      { c with passkeyEnc := newSealed, lastUsedAt := some now } }

/-- `update_passkey`, with the sealed blob. -/
def updatePasskey (db : Database) (id : WebauthnCredentialId) (passkeyEnc : Bytes)
    (now : DateTime) : Database :=
  { db with
    webauthnCredentials := db.webauthnCredentials.update (fun c => c.id == id) fun c =>
      { c with passkeyEnc, lastUsedAt := some now } }

/-- `has_any_within_tx`. -/
def hasAny (db : Database) (user : UserId) : Bool :=
  0 < db.webauthnCredentials.count fun c => c.userId == user

end WebauthnCredentials

/-! ## F02 -/

/-- Seal an empty continuation to a row's identity. -/
def sealContinuation (P : Primitives) (key : MasterKey) (id : FederationMfaPendingId)
    (req : MfaPendingRequest) : StoreResult Bytes :=
  sealBytes P key req.nonce []
    (FederationMfaPending.buildAad id req.providerId req.providerConfigVersion
      req.providerActivationGeneration req.userId)

/-- The restart of a row that is still live. -/
def restartPending (P : Primitives) (key : MasterKey) (db : Database) (req : MfaPendingRequest)
    (existing : FederationMfaPendingRow) :
    StoreResult ((FederationMfaPendingId × DateTime) × Database) := do
  let db := FederationWebauthnCeremony.deleteByPendingId db existing.id
  let continuationSealed ← sealContinuation P key existing.id req
  let (refreshed, db) ← FederationMfaPending.refreshForRestart db existing.id req continuationSealed
  ensure refreshed .conflict
  pure ((existing.id, existing.expiresAt), db)

/-- A new row. -/
def openPending (P : Primitives) (key : MasterKey) (db : Database) (req : MfaPendingRequest) :
    StoreResult ((FederationMfaPendingId × DateTime) × Database) := do
  let continuationSealed ← sealContinuation P key req.id req
  let pending := FederationMfaPending.newRow req continuationSealed
  let db ← FederationMfaPending.insert db pending
  pure ((pending.id, pending.expiresAt), db)

/-- F02: complete the attempt and leave the user one pending row.  An exhausted
row is returned as it is, a live one is restarted, and an expired one is
invalidated before a new one is opened. -/
def issueFederatedMfaPending (P : Primitives) (key : MasterKey) (db : Database)
    (req : MfaPendingRequest) : StoreResult ((FederationMfaPendingId × DateTime) × Database) := do
  let db ← FederationLoginAttempt.complete db req.attemptId
  match FederationMfaPending.findActiveByUserId db req.userId with
  | some existing =>
    if existing.status == .exhausted then pure ((existing.id, existing.expiresAt), db)
    else if req.now < existing.expiresAt then restartPending P key db req existing
    else
      let (invalidated, db) := FederationMfaPending.invalidate db existing.id
      ensure invalidated .conflict
      openPending P key db req
  | none => openPending P key db req

/-! ## F03 -/

/-- `F03Proof`. -/
inductive F03Proof where
  | totp (step : Int)
  | recovery (expectedSealed newSealed : Bytes)
  | webauthn (ceremonyId : CeremonyId) (credentialId : WebauthnCredentialId)
      (expectedSealed newSealed : Bytes)
  | rejected (reason : MfaRejectionReason)

/-- The methods `promote` is called with. -/
inductive PromotionMethod where
  | totp
  | recoveryCode
  | webauthn
deriving DecidableEq

/-- `PromotionMethod::auth_method`. -/
def PromotionMethod.authMethod : PromotionMethod → AuthMethod
  | .totp => .totp
  | .recoveryCode => .recoveryCode
  | .webauthn => .webauthn

/-- `PromotionMethod::as_str`. -/
def PromotionMethod.asStr : PromotionMethod → String
  | .totp => "totp"
  | .recoveryCode => "recovery_code"
  | .webauthn => "webauthn"

/-- `F03Outcome`. -/
inductive F03Outcome where
  | promoted (session : SessionRow) (evicted : Nat) (method : String)
  | rejectedStillPending (failureCount : Nat) (reason : MfaRejectionReason)
  | attemptsExhausted (reason : MfaRejectionReason)
  | invalidated (reason : InvalidatedReason)
deriving DecidableEq

/-- The session `promote` inserts. -/
def promotedSession (id : SessionId) (user : UserId) (method : PromotionMethod) (now : DateTime) :
    SessionRow :=
  { id, userId := user, expiresAt := now + seconds (12 * 3600), createdAt := now, revokedAt := none
    authMethods := [.fed, method.authMethod]
    lastStepUpAt := if method != .recoveryCode then some now else none
    lastStepUpMethod := none, lastUsedAt := none }

/-- `promote`.  The account's flags are read again, its lock is not. -/
def promote (db : Database) (row : FederationMfaPendingRow) (now : DateTime)
    (method : PromotionMethod) (sessionId : SessionId) : StoreResult (F03Outcome × Database) := do
  let db ← FederationLink.touchLastSeen db row.userId row.providerId now
  let db ← Users.recordFederatedLogin db row.userId now
  let session := promotedSession sessionId row.userId method now
  let db ← Sessions.insert db session
  let db := if method != .recoveryCode then setStepUpMethod db session.id method.asStr else db
  let (evicted, db) := Sessions.evictOverCap db row.userId now
  pure (.promoted session evicted method.asStr, db)

/-- `reject_or_exhaust`. -/
def rejectOrExhaust (db : Database) (pendingId : FederationMfaPendingId)
    (reason : MfaRejectionReason) : StoreResult (F03Outcome × Database) :=
  match FederationMfaPending.incrementFailure db pendingId with
  | (some (.stillPending failureCount), db) =>
    pure (.rejectedStillPending failureCount reason,
      if reason == .webauthn then FederationWebauthnCeremony.deleteByPendingId db pendingId else db)
  | (some .exhausted, db) =>
    pure (.attemptsExhausted reason, FederationWebauthnCeremony.deleteByPendingId db pendingId)
  | (none, _) => .error .conflict

/-- End the row as invalidated. -/
def invalidateWith (db : Database) (pendingId : FederationMfaPendingId)
    (reason : InvalidatedReason) : StoreResult (F03Outcome × Database) := do
  let (invalidated, db) := FederationMfaPending.invalidate db pendingId
  ensure invalidated .conflict
  pure (.invalidated reason, db)

/-- Complete the row, spend the proof with `spend`, and promote. -/
def completeAndPromote (db : Database) (row : FederationMfaPendingRow)
    (spend : Database → StoreResult Database) (now : DateTime) (method : PromotionMethod)
    (sessionId : SessionId) : StoreResult (F03Outcome × Database) := do
  let (completed, db) := FederationMfaPending.complete db row.id
  ensure completed .conflict
  let db ← spend db
  promote db row now method sessionId

/-- The reasons that concern the TOTP row. -/
def MfaRejectionReason.needsTotp : MfaRejectionReason → Bool
  | .totp | .recovery | .malformed => true
  | .webauthn | .methodMismatch => false

/-- F03's `match proof`, for a pending row whose authority is intact. -/
def evaluateProof (db : Database) (row : FederationMfaPendingRow) (proof : Option F03Proof)
    (sessionId : SessionId) (now : DateTime) : StoreResult (F03Outcome × Database) :=
  let totpRow := (db.userTotp.get? row.userId).filter (·.enabled)
  match proof with
  | none =>
    .error (.integrity
      "F03 called with no proof on a row the durable recheck still finds pending")
  | some (.rejected reason) =>
    if reason.needsTotp && totpRow.isNone then invalidateWith db row.id .factorChanged
    else rejectOrExhaust db row.id reason
  | some (.totp step) =>
    match totpRow with
    | none => invalidateWith db row.id .factorChanged
    | some t =>
      if step ≤ t.lastUsedStep then rejectOrExhaust db row.id .totp
      else completeAndPromote db row (fun db => UserTotp.advanceLastUsedStep db row.userId step)
        now .totp sessionId
  | some (.recovery expectedSealed newSealed) =>
    match totpRow with
    | none => invalidateWith db row.id .factorChanged
    | some t =>
      if t.recoveryCodesEnc != some expectedSealed then rejectOrExhaust db row.id .recovery
      else completeAndPromote db row
        (fun db => UserTotp.swapRecoveryCodes db row.userId expectedSealed newSealed)
        now .recoveryCode sessionId
  | some (.webauthn ceremonyId credentialId expectedSealed newSealed) =>
    if !(FederationWebauthnCeremony.findByPendingId db row.id).any fun c =>
        c.id == ceremonyId && now < c.expiresAt then
      invalidateWith db row.id .ceremonyInvalid
    else
      match db.webauthnCredentials.get? credentialId with
      | none => invalidateWith db row.id .factorChanged
      | some c =>
        if c.passkeyEnc != expectedSealed then rejectOrExhaust db row.id .webauthn
        else completeAndPromote db row (fun db => do
            let db ← WebauthnCredentials.swapPasskey db credentialId expectedSealed newSealed now
            pure (FederationWebauthnCeremony.consume db ceremonyId))
          now .webauthn sessionId

/-- The continuation of a pending row opens under the row's own columns. -/
def checkContinuation (P : Primitives) (key : MasterKey) (row : FederationMfaPendingRow) :
    StoreResult Unit := do
  if row.status == .pending then
    let sealed ← require row.continuationSealed (.integrity "pending row has no continuation")
    let _ ← (openBytes P key sealed (FederationMfaPending.buildAad row.id row.providerId
      row.providerConfigVersion row.providerActivationGeneration row.userId)).mapError
        fun _ => .integrity "continuation failed to open"
    pure ()
  else pure ()

/-- F03: submit a proof for a pending row. -/
def completeFederatedMfa (P : Primitives) (key : MasterKey) (db : Database)
    (pendingId : FederationMfaPendingId) (proof : Option F03Proof) (sessionId : SessionId)
    (now : DateTime) : StoreResult (F03Outcome × Database) := do
  let row ← require (db.federationMfaPending.get? pendingId) .notFound
  checkContinuation P key row
  ensure (row.status == .pending) .conflict
  if row.expiresAt ≤ now then invalidateWith db pendingId .expired
  else
    match ← authorityDrift db row.providerId row.userId with
    | some reason => invalidateWith db pendingId reason
    | none => evaluateProof db row proof sessionId now

/-! ## F06 -/

/-- `FEDERATED_WEBAUTHN_CEREMONY_LIFETIME_SECS`. -/
def federatedWebauthnCeremonyLifetimeSecs : Int := 60

/-- F06: begin a ceremony for a pending row, or replace the one it has. -/
def beginFederationWebauthnCeremony (db : Database) (pendingId : FederationMfaPendingId)
    (ceremonyStateSealed : Bytes) (rpId origin : String) (id : CeremonyId) (now : DateTime) :
    StoreResult (CeremonyId × Database) := do
  let row ← require (db.federationMfaPending.get? pendingId) .notFound
  ensure (row.status == .pending) .conflict
  ensure (!(row.expiresAt ≤ now)) .conflict
  let drift ← authorityDrift db row.providerId row.userId
  ensure drift.isNone .conflict
  ensure (WebauthnCredentials.hasAny db row.userId) .conflict
  let db ← FederationWebauthnCeremony.insertOrReplace db
    { id, pendingId := row.id, providerId := row.providerId
      providerConfigVersion := row.providerConfigVersion
      providerActivationGeneration := row.providerActivationGeneration, userId := row.userId
      ceremonyStateSealed, rpId, origin, createdAt := now, pendingExpiresAt := row.expiresAt
      expiresAt := min (now + seconds federatedWebauthnCeremonyLifetimeSecs) row.expiresAt }
  pure (id, db)

/-! ## What a committed command did -/

namespace FederationMfaPending

theorem updateWhere_true {db : Database} {id : FederationMfaPendingId}
    {p : FederationMfaPendingRow → Bool} {f : FederationMfaPendingRow → FederationMfaPendingRow}
    {hf : ∀ r, (f r).id = r.id} (h : (updateWhere db id p f hf).1 = true) :
    ∃ r federationMfaPending, db.federationMfaPending.get? id = some r ∧ p r = true ∧
      Table.Replaced db.federationMfaPending federationMfaPending r (f r) ∧
      (updateWhere db id p f hf).2 = { db with federationMfaPending } := by
  obtain ⟨r, hget, hp⟩ := (Option.any_eq_true _ _).mp h
  obtain ⟨hmem, hid⟩ := Table.get?_eq_some.mp hget
  refine ⟨r, _, hget, hp, ?_, rfl⟩
  refine Table.replaced_update (Table.get?_key hmem) (by simp [hid, hp]) fun x hx => ?_
  simp only [Bool.and_eq_true, beq_iff_eq] at hx
  exact hx.1.trans hid.symm

/-- An inserted row is the only active one of its user. -/
theorem insert_ok {db db' : Database} {row : FederationMfaPendingRow}
    (h : insert db row = .ok db') :
    (∀ r ∈ db.federationMfaPending, row.active = true → r.active = true → r.userId ≠ row.userId) ∧
      ∃ federationMfaPending, db.federationMfaPending.insert? row = some federationMfaPending ∧
        db' = { db with federationMfaPending } := by
  simp only [insert, bind_eq_ok, ensure_eq_ok, require_eq_ok, pure_eq_ok] at h
  obtain ⟨-, -, -, -, -, hunique, federationMfaPending, hinsert, rfl⟩ := h
  refine ⟨fun r hr hrow hactive huser => ?_, federationMfaPending, hinsert, rfl⟩
  have hr' := List.all_eq_true.mp hunique r hr
  simp [hrow, hactive, huser] at hr'

end FederationMfaPending

/-- What F02 did to the pending rows. -/
inductive F02Effect (req : MfaPendingRequest) (t t' : Table FederationMfaPendingRow.id) : Prop where
  | exhausted (existing : FederationMfaPendingRow) (hmem : existing ∈ t)
      (huser : existing.userId = req.userId) (hstatus : existing.status = .exhausted)
      (hsame : t' = t)
  | restarted (existing : FederationMfaPendingRow) (sealed : Bytes)
      (huser : existing.userId = req.userId) (hstatus : existing.status = .pending)
      (hrow : Table.Replaced t t' existing (existing.refreshed req sealed))
  | replaced (existing : FederationMfaPendingRow) (sealed : Bytes)
      (t₁ : Table FederationMfaPendingRow.id) (hstatus : existing.status = .pending)
      (hrow : Table.Replaced t t₁ existing (existing.closed .invalidated))
      (hunique : ∀ r ∈ t₁, r.active = true → r.userId ≠ req.userId)
      (hinsert : t₁.insert? (FederationMfaPending.newRow req sealed) = some t')
  | opened (sealed : Bytes) (hunique : ∀ r ∈ t, r.active = true → r.userId ≠ req.userId)
      (hinsert : t.insert? (FederationMfaPending.newRow req sealed) = some t')

variable {P : Primitives} {key : MasterKey} {req : MfaPendingRequest}
  {value : FederationMfaPendingId × DateTime}

private theorem openPending_ok {db db' : Database}
    (h : openPending P key db req = .ok (value, db')) :
    ∃ sealed federationMfaPending,
      (∀ r ∈ db.federationMfaPending, r.active = true → r.userId ≠ req.userId) ∧
      db.federationMfaPending.insert? (FederationMfaPending.newRow req sealed) =
        some federationMfaPending ∧
      db' = { db with federationMfaPending } := by
  simp only [openPending, bind_eq_ok, pure_eq_ok, Prod.mk.injEq] at h
  obtain ⟨sealed, -, db₁, hinsert, -, rfl⟩ := h
  obtain ⟨hunique, t, hinsert', rfl⟩ := FederationMfaPending.insert_ok hinsert
  exact ⟨sealed, t, fun r hr => hunique r hr rfl, hinsert', rfl⟩

private theorem restartPending_ok {db db' : Database} {existing : FederationMfaPendingRow}
    (hmem : existing ∈ db.federationMfaPending)
    (h : restartPending P key db req existing = .ok (value, db')) :
    ∃ sealed federationMfaPending federationWebauthnCeremony,
      existing.userId = req.userId ∧ existing.status = .pending ∧
      Table.Replaced db.federationMfaPending federationMfaPending existing
        (existing.refreshed req sealed) ∧
      db' = { db with federationMfaPending, federationWebauthnCeremony } := by
  simp only [restartPending, FederationMfaPending.refreshForRestart, bind_eq_ok, ensure_eq_ok,
    pure_eq_ok, Prod.mk.injEq] at h
  obtain ⟨sealed, -, updated, ⟨-, -, -, -, -, -, rfl⟩, -, htrue, -, rfl⟩ := h
  obtain ⟨r, t, hget, hp, hreplaced, heq⟩ :=
    FederationMfaPending.updateWhere_true htrue
  have hsame : r = existing :=
    Table.eq_of_key_eq (Table.get?_eq_some.mp hget).1 hmem (Table.get?_eq_some.mp hget).2
  subst hsame
  simp only [Bool.and_eq_true, beq_iff_eq] at hp
  exact ⟨sealed, t, _, hp.1, hp.2, hreplaced, heq⟩

/-- F02 completed its attempt and did one of four things to the pending rows. -/
theorem issueFederatedMfaPending_ok {db db' : Database}
    (h : issueFederatedMfaPending P key db req = .ok (value, db')) :
    ∃ r federationLoginAttempt federationMfaPending federationWebauthnCeremony,
      r.id = req.attemptId ∧ r.status = .exchanging ∧
      Table.Replaced db.federationLoginAttempt federationLoginAttempt r r.completed ∧
      F02Effect req db.federationMfaPending federationMfaPending ∧
      db' = { db with
        federationLoginAttempt, federationMfaPending, federationWebauthnCeremony } := by
  simp only [issueFederatedMfaPending, bind_eq_ok] at h
  obtain ⟨db₁, hcomplete, hrest⟩ := h
  obtain ⟨r, attempts, hid, hstatus, hattempt, rfl⟩ := FederationLoginAttempt.complete_ok hcomplete
  refine ⟨r, attempts, ?_⟩
  split at hrest
  · rename_i existing hfind
    obtain ⟨hmem, hactive⟩ := Table.mem_of_find? hfind
    simp only [Bool.and_eq_true, beq_iff_eq] at hactive
    split at hrest
    · rename_i hexhausted
      cases hrest
      exact ⟨_, _, hid, hstatus, hattempt,
        .exhausted existing hmem hactive.1 (by simpa using hexhausted) rfl, rfl⟩
    · split at hrest
      · obtain ⟨sealed, t, ceremonies, huser, hpending, hrow, rfl⟩ := restartPending_ok hmem hrest
        exact ⟨t, ceremonies, hid, hstatus, hattempt, .restarted existing sealed huser hpending
          hrow,
          rfl⟩
      · simp only [bind_eq_ok, ensure_eq_ok] at hrest
        obtain ⟨-, hinvalidated, hopen⟩ := hrest
        obtain ⟨r', t₁, hget, hp, hrow, heq⟩ := FederationMfaPending.updateWhere_true hinvalidated
        rw [FederationMfaPending.invalidate, heq] at hopen
        have hsame : r' = existing :=
          Table.eq_of_key_eq (Table.get?_eq_some.mp hget).1 hmem (Table.get?_eq_some.mp hget).2
        subst hsame
        obtain ⟨sealed, t, hunique, hinsert, rfl⟩ := openPending_ok hopen
        exact ⟨t, _, hid, hstatus, hattempt,
          .replaced r' sealed t₁ (by simpa using hp) hrow hunique hinsert, rfl⟩
  · obtain ⟨sealed, t, hunique, hinsert, rfl⟩ := openPending_ok hrest
    exact ⟨t, _, hid, hstatus, hattempt, .opened sealed hunique hinsert, rfl⟩

/-- What F03 did, by its outcome: the row it found pending, and the tables it
wrote. -/
inductive F03Effect (db db' : Database) (row : FederationMfaPendingRow) (sessionId : SessionId)
    (now : DateTime) : F03Outcome → Prop where
  | invalidated (reason : InvalidatedReason) (t : Table FederationMfaPendingRow.id)
      (hrow : Table.Replaced db.federationMfaPending t row (row.closed .invalidated))
      (hdb : db' = { db with federationMfaPending := t }) :
      F03Effect db db' row sessionId now (.invalidated reason)
  | rejected (reason : MfaRejectionReason) (t : Table FederationMfaPendingRow.id)
      (ceremonies : Table FederationWebauthnCeremonyRow.id) (hcount : row.failureCount + 1 < 5)
      (hrow : Table.Replaced db.federationMfaPending t row row.countFailure)
      (hdb : db' =
        { db with federationMfaPending := t, federationWebauthnCeremony := ceremonies }) :
      F03Effect db db' row sessionId now (.rejectedStillPending (row.failureCount + 1) reason)
  | exhausted (reason : MfaRejectionReason) (t : Table FederationMfaPendingRow.id)
      (ceremonies : Table FederationWebauthnCeremonyRow.id) (hcount : row.failureCount + 1 = 5)
      (hrow : Table.Replaced db.federationMfaPending t row row.countFailure)
      (hdb : db' =
        { db with federationMfaPending := t, federationWebauthnCeremony := ceremonies }) :
      F03Effect db db' row sessionId now (.attemptsExhausted reason)
  | promoted (method : PromotionMethod) (evicted : Nat) (t : Table FederationMfaPendingRow.id)
      (hcount : row.failureCount < 5)
      (hrow : Table.Replaced db.federationMfaPending t row (row.closed .completed))
      (hsession : Sessions.Added db.sessions db'.sessions
        (promotedSession sessionId row.userId method now))
      (hdb : ∃ userTotp webauthnCredentials federationWebauthnCeremony federationLink users
        sessions,
        db' = { db with
          federationMfaPending := t, userTotp, webauthnCredentials, federationWebauthnCeremony
          federationLink, users, sessions }) :
      F03Effect db db' row sessionId now
        (.promoted (promotedSession sessionId row.userId method now) evicted method.asStr)

section Effects

variable {db db' : Database} {row : FederationMfaPendingRow} {sessionId : SessionId}
  {now : DateTime} {outcome : F03Outcome}
variable {id pendingId : FederationMfaPendingId} {reason : InvalidatedReason} {d d' : Database}
  {user : UserId} {proof : Option F03Proof} {session : SessionRow} {evicted : Nat} {text : String}

private theorem invalidateWith_ok (hget : db.federationMfaPending.get? id = some row)
    (h : invalidateWith db id reason = .ok (outcome, db')) :
    F03Effect db db' row sessionId now outcome := by
  simp only [invalidateWith, bind_eq_ok, ensure_eq_ok, pure_eq_ok, Prod.mk.injEq] at h
  obtain ⟨-, hinvalidated, rfl, rfl⟩ := h
  obtain ⟨r, t, hget', -, hrow, heq⟩ := FederationMfaPending.updateWhere_true hinvalidated
  rw [hget] at hget'
  cases hget'
  exact .invalidated reason t hrow heq

private theorem rejectOrExhaust_ok {reason : MfaRejectionReason}
    (hget : db.federationMfaPending.get? id = some row)
    (h : rejectOrExhaust db id reason = .ok (outcome, db')) :
    F03Effect db db' row sessionId now outcome := by
  have hincrement : ∀ {increment db₁},
      FederationMfaPending.incrementFailure db id = (some increment, db₁) →
      ∃ t, Table.Replaced db.federationMfaPending t row row.countFailure ∧ row.failureCount < 5 ∧
        db₁ = { db with federationMfaPending := t } ∧
        increment = if row.failureCount + 1 ≥ 5 then .exhausted
          else .stillPending (row.failureCount + 1) := by
    intro increment db₁ hcount
    unfold FederationMfaPending.incrementFailure at hcount
    dsimp only at hcount
    split at hcount
    · rename_i r hfilter
      obtain ⟨hget', hopen⟩ := Option.filter_eq_some_iff.mp hfilter
      have hany : (FederationMfaPending.updateWhere db id
          (fun r => r.status == .pending && decide (r.failureCount < 5)) (fun r => r.countFailure)
          fun r => r.countFailure_id).1 = true := (Option.any_eq_true _ _).mpr ⟨r, hget', hopen⟩
      obtain ⟨r', t, hget'', -, hrow, heq⟩ := FederationMfaPending.updateWhere_true hany
      rw [hget] at hget' hget''
      cases hget'
      cases hget''
      simp only [Prod.mk.injEq, Option.some.injEq] at hcount
      simp only [Bool.and_eq_true, decide_eq_true_eq] at hopen
      exact ⟨t, hrow, hopen.2, hcount.2.symm.trans heq, hcount.1.symm⟩
    · cases hcount
  unfold rejectOrExhaust at h
  split at h
  · rename_i failureCount db₁ hcount
    obtain ⟨t, hrow, -, rfl, hincr⟩ := hincrement hcount
    split at hincr
    · cases hincr
    · rename_i hlt
      cases hincr
      have hlt' : row.failureCount + 1 < 5 := by omega
      split at h
      · cases h
        exact .rejected reason t _ hlt' hrow rfl
      · cases h
        exact .rejected reason t _ hlt' hrow rfl
  · rename_i db₁ hcount
    obtain ⟨t, hrow, hlt, rfl, hincr⟩ := hincrement hcount
    split at hincr
    · cases h
      exact .exhausted reason t _ (by omega) hrow rfl
    · cases hincr
  · cases h

theorem promote_ok {method : PromotionMethod}
    (h : promote db row now method sessionId = .ok (outcome, db')) :
    (∃ evicted, outcome =
        .promoted (promotedSession sessionId row.userId method now) evicted method.asStr) ∧
      Sessions.Added db.sessions db'.sessions (promotedSession sessionId row.userId method now) ∧
      ∃ federationLink users sessions, db' = { db with federationLink, users, sessions } := by
  simp only [promote, FederationLink.touchLastSeen, bind_eq_ok, ensure_eq_ok, pure_eq_ok,
    Prod.mk.injEq] at h
  obtain ⟨db₁, ⟨-, -, rfl⟩, db₂, hlogin, db₃, hinsert, rfl, rfl⟩ := h
  obtain ⟨-, rfl⟩ := Users.updateWhere_ok hlogin
  obtain ⟨hadded, sessions, heq⟩ := openedSession_eq hinsert
  exact ⟨⟨_, rfl⟩, hadded, _, _, sessions, heq⟩

private theorem completeAndPromote_ok {spend : Database → StoreResult Database}
    {method : PromotionMethod}
    (hget : db.federationMfaPending.get? row.id = some row)
    (hspend : ∀ {d d'}, spend d = .ok d' →
      ∃ userTotp webauthnCredentials federationWebauthnCeremony,
      d' = { d with userTotp, webauthnCredentials, federationWebauthnCeremony })
    (h : completeAndPromote db row spend now method sessionId = .ok (outcome, db')) :
    F03Effect db db' row sessionId now outcome := by
  simp only [completeAndPromote, bind_eq_ok, ensure_eq_ok] at h
  obtain ⟨-, hcompleted, db₁, hspent, hpromote⟩ := h
  obtain ⟨r, t, hget', hopen, hrow, heq⟩ := FederationMfaPending.updateWhere_true hcompleted
  rw [hget] at hget'
  cases hget'
  rw [FederationMfaPending.complete, heq] at hspent
  obtain ⟨userTotp, webauthnCredentials, ceremonies, rfl⟩ := hspend hspent
  obtain ⟨⟨evicted, rfl⟩, hadded, federationLink, users, sessions, rfl⟩ := promote_ok hpromote
  simp only [Bool.and_eq_true, decide_eq_true_eq] at hopen
  exact .promoted method evicted t hopen.2 hrow hadded
    ⟨userTotp, webauthnCredentials, ceremonies, federationLink, users, sessions, rfl⟩

theorem UserTotp.updateWhere_ok {p : UserTotpRow → Bool} {f : UserTotpRow → UserTotpRow}
    {hf : ∀ r, (f r).userId = r.userId} (h : UserTotp.updateWhere d user p f hf = .ok d') :
    ∃ userTotp, d' = { d with userTotp } := by
  simp only [UserTotp.updateWhere, bind_eq_ok, ensure_eq_ok, pure_eq_ok] at h
  obtain ⟨-, -, rfl⟩ := h
  exact ⟨_, rfl⟩

/-- The method a proof is promoted with. -/
def F03Proof.method : F03Proof → Option PromotionMethod
  | .totp _ => some .totp
  | .recovery _ _ => some .recoveryCode
  | .webauthn _ _ _ _ => some .webauthn
  | .rejected _ => none

/-- What the promotion of a proof spends. -/
def F03Proof.spend (user : UserId) (now : DateTime) (proof : F03Proof) (db : Database) :
    StoreResult Database :=
  match proof with
  | .totp step => UserTotp.advanceLastUsedStep db user step
  | .recovery expectedSealed newSealed =>
    UserTotp.swapRecoveryCodes db user expectedSealed newSealed
  | .webauthn ceremonyId credentialId expectedSealed newSealed => do
    let db ← WebauthnCredentials.swapPasskey db credentialId expectedSealed newSealed now
    pure (FederationWebauthnCeremony.consume db ceremonyId)
  | .rejected _ => pure db

/-- A pending row is invalidated, its proof is counted as wrong, or the proof is spent and
the row promoted. -/
theorem evaluateProof_cases (h : evaluateProof db row proof sessionId now = .ok (outcome, db')) :
    (∃ reason, invalidateWith db row.id reason = .ok (outcome, db')) ∨
      (∃ reason, rejectOrExhaust db row.id reason = .ok (outcome, db')) ∨
      ∃ p method, proof = some p ∧ p.method = some method ∧
        completeAndPromote db row (p.spend row.userId now) now method sessionId =
          .ok (outcome, db') := by
  unfold evaluateProof at h
  dsimp only at h
  split at h
  · cases h
  · split at h
    · exact .inl ⟨_, h⟩
    · exact .inr (.inl ⟨_, h⟩)
  · split at h
    · exact .inl ⟨_, h⟩
    · split at h
      · exact .inr (.inl ⟨_, h⟩)
      · exact .inr (.inr ⟨_, _, rfl, rfl, h⟩)
  · split at h
    · exact .inl ⟨_, h⟩
    · split at h
      · exact .inr (.inl ⟨_, h⟩)
      · exact .inr (.inr ⟨_, _, rfl, rfl, h⟩)
  · split at h
    · exact .inl ⟨_, h⟩
    · split at h
      · exact .inl ⟨_, h⟩
      · split at h
        · exact .inr (.inl ⟨_, h⟩)
        · exact .inr (.inr ⟨_, _, rfl, rfl, h⟩)

theorem F03Proof.spend_ok {p : F03Proof} (h : p.spend user now d = .ok d') :
    ∃ userTotp webauthnCredentials federationWebauthnCeremony,
      d' = { d with userTotp, webauthnCredentials, federationWebauthnCeremony } := by
  cases p with
  | totp | recovery =>
    obtain ⟨userTotp, rfl⟩ := UserTotp.updateWhere_ok h
    exact ⟨userTotp, _, _, rfl⟩
  | webauthn ceremonyId credentialId expectedSealed newSealed =>
    simp only [F03Proof.spend, WebauthnCredentials.swapPasskey, FederationWebauthnCeremony.consume,
      bind_eq_ok, ensure_eq_ok, pure_eq_ok] at h
    obtain ⟨-, ⟨-, -, rfl⟩, rfl⟩ := h
    exact ⟨_, _, _, rfl⟩
  | rejected reason =>
    cases h
    exact ⟨_, _, _, rfl⟩

private theorem evaluateProof_ok (hget : db.federationMfaPending.get? row.id = some row)
    (h : evaluateProof db row proof sessionId now = .ok (outcome, db')) :
    F03Effect db db' row sessionId now outcome := by
  rcases evaluateProof_cases h with ⟨reason, h⟩ | ⟨reason, h⟩ | ⟨p, method, -, -, h⟩
  · exact invalidateWith_ok hget h
  · exact rejectOrExhaust_ok hget h
  · exact completeAndPromote_ok hget F03Proof.spend_ok h

/-- F03 found its row pending. -/
theorem completeFederatedMfa_ok {P : Primitives} {key : MasterKey}
    (h : completeFederatedMfa P key db pendingId proof sessionId now = .ok (outcome, db')) :
    ∃ row, row.id = pendingId ∧ row.status = .pending ∧
      F03Effect db db' row sessionId now outcome := by
  simp only [completeFederatedMfa, bind_eq_ok, require_eq_ok, ensure_eq_ok] at h
  obtain ⟨row, hget, -, -, -, hstatus, hrest⟩ := h
  have hid := (Table.get?_eq_some.mp hget).2
  subst hid
  refine ⟨row, rfl, by simpa using hstatus, ?_⟩
  split at hrest
  · exact invalidateWith_ok hget hrest
  · simp only [bind_eq_ok] at hrest
    obtain ⟨drift, -, hrest⟩ := hrest
    split at hrest
    · exact invalidateWith_ok hget hrest
    · exact evaluateProof_ok hget hrest

theorem rejectOrExhaust_notPromoted {reason : MfaRejectionReason} {method : String} :
    rejectOrExhaust db id reason ≠ .ok (.promoted session evicted method, db') := by
  intro h
  unfold rejectOrExhaust at h
  split at h
  · cases h
  · cases h
  · cases h

theorem invalidateWith_notPromoted {method : String} :
    invalidateWith db id reason ≠ .ok (.promoted session evicted method, db') := by
  intro h
  simp only [invalidateWith, bind_eq_ok, pure_eq_ok, Prod.mk.injEq] at h
  obtain ⟨-, -, houtcome, -⟩ := h
  cases houtcome

/-- The tables of accounts and links are as they were. -/
structure AccountsKept (db db' : Database) : Prop where
  users : db'.users = db.users
  credentials : db'.credentials = db.credentials
  sessions : db'.sessions = db.sessions
  providers : db'.federationProvider = db.federationProvider
  links : db'.federationLink = db.federationLink
  settings : db'.serverSettings = db.serverSettings

private theorem evaluateProof_promoted
    (h : evaluateProof db row proof sessionId now = .ok (.promoted session evicted text, db')) :
    ∃ p method db₁, proof = some p ∧ p.method = some method ∧
      p.spend row.userId now (FederationMfaPending.complete db row.id).2 = .ok db₁ ∧
      promote db₁ row now method sessionId = .ok (.promoted session evicted text, db') := by
  rcases evaluateProof_cases h with ⟨reason, h⟩ | ⟨reason, h⟩ | ⟨p, method, hproof, hmethod, h⟩
  · exact absurd h invalidateWith_notPromoted
  · exact absurd h rejectOrExhaust_notPromoted
  · simp only [completeAndPromote, bind_eq_ok, ensure_eq_ok] at h
    obtain ⟨-, -, db₁, hspent, hpromote⟩ := h
    exact ⟨p, method, db₁, hproof, hmethod, hspent, hpromote⟩

/-- F03 spends the proof and promotes a row whose authority is intact. -/
theorem completeFederatedMfa_spent {P : Primitives} {key : MasterKey}
    (h : completeFederatedMfa P key db pendingId proof sessionId now =
      .ok (.promoted session evicted text, db')) :
    ∃ row p method db₁, db.federationMfaPending.get? pendingId = some row ∧
      authorityDrift db row.providerId row.userId = .ok none ∧
      proof = some p ∧ p.method = some method ∧
      p.spend row.userId now (FederationMfaPending.complete db row.id).2 = .ok db₁ ∧
      promote db₁ row now method sessionId = .ok (.promoted session evicted text, db') := by
  simp only [completeFederatedMfa, bind_eq_ok, require_eq_ok, ensure_eq_ok] at h
  obtain ⟨row, hget, -, -, -, -, hrest⟩ := h
  split at hrest
  · exact absurd hrest invalidateWith_notPromoted
  · simp only [bind_eq_ok] at hrest
    obtain ⟨drift, hdrift, hrest⟩ := hrest
    split at hrest
    · exact absurd hrest invalidateWith_notPromoted
    · obtain ⟨p, method, db₁, hproof, hmethod, hspent, hpromote⟩ := evaluateProof_promoted hrest
      exact ⟨row, p, method, db₁, hget, hdrift, hproof, hmethod, hspent, hpromote⟩

/-- F03 promotes a row whose authority is intact. -/
theorem completeFederatedMfa_promoted {P : Primitives} {key : MasterKey}
    (h : completeFederatedMfa P key db pendingId proof sessionId now =
      .ok (.promoted session evicted text, db')) :
    ∃ row method db₁, db.federationMfaPending.get? pendingId = some row ∧
      authorityDrift db row.providerId row.userId = .ok none ∧
      proof.bind F03Proof.method = some method ∧ AccountsKept db db₁ ∧
      promote db₁ row now method sessionId = .ok (.promoted session evicted text, db') := by
  obtain ⟨row, p, method, db₁, hget, hdrift, rfl, hmethod, hspent, hpromote⟩ :=
    completeFederatedMfa_spent h
  obtain ⟨userTotp, webauthnCredentials, ceremonies, rfl⟩ := F03Proof.spend_ok hspent
  refine ⟨row, method, _, hget, hdrift, hmethod, ?_, hpromote⟩
  exact ⟨rfl, rfl, rfl, rfl, rfl, rfl⟩

/-- A promoted session is for the user of the continuation and names the method of its proof. -/
theorem completeFederatedMfa_session {P : Primitives} {key : MasterKey}
    (h : completeFederatedMfa P key db pendingId proof sessionId now =
      .ok (.promoted session evicted text, db')) :
    ∃ row method, db.federationMfaPending.get? pendingId = some row ∧
      proof.bind F03Proof.method = some method ∧
      session = promotedSession sessionId row.userId method now := by
  obtain ⟨row, method, db₁, hget, -, hmethod, -, hpromote⟩ := completeFederatedMfa_promoted h
  obtain ⟨⟨evicted', houtcome⟩, -⟩ := promote_ok hpromote
  cases houtcome
  exact ⟨row, method, hget, hmethod, rfl⟩

private theorem completeAndPromote_factors {spend : Database → StoreResult Database}
    {method : PromotionMethod} (hspend : ∀ {d d'}, spend d = .ok d' → FactorsKept d d')
    (h : completeAndPromote db row spend now method sessionId = .ok (outcome, db')) :
    FactorsKept db db' := by
  simp only [completeAndPromote, bind_eq_ok, ensure_eq_ok] at h
  obtain ⟨-, hcompleted, db₁, hspent, hpromote⟩ := h
  obtain ⟨-, -, federationLink, users, sessions, rfl⟩ := promote_ok hpromote
  have hspends := hspend hspent
  have hmarked : FactorsKept db (FederationMfaPending.complete db row.id).2 := .of_eq rfl rfl
  have hpromoted : FactorsKept db₁ { db₁ with federationLink, users, sessions } := .of_eq rfl rfl
  exact (hmarked.trans hspends).trans hpromoted

private theorem invalidateWith_factors (h : invalidateWith db id reason = .ok (outcome, db')) :
    FactorsKept db db' := by
  simp only [invalidateWith, bind_eq_ok, ensure_eq_ok, pure_eq_ok, Prod.mk.injEq] at h
  obtain ⟨-, -, -, rfl⟩ := h
  exact .of_eq rfl rfl

private theorem rejectOrExhaust_factors {reason : MfaRejectionReason}
    (h : rejectOrExhaust db id reason = .ok (outcome, db')) : FactorsKept db db' := by
  have hincrement : ∀ {increment db₁},
      FederationMfaPending.incrementFailure db id = (increment, db₁) → FactorsKept db db₁ := by
    intro increment db₁ hcount
    unfold FederationMfaPending.incrementFailure at hcount
    dsimp only at hcount
    split at hcount
    · cases hcount
      exact .of_eq rfl rfl
    · cases hcount
      exact .of_eq rfl rfl
  unfold rejectOrExhaust at h
  split at h
  · rename_i failureCount db₁ hcount
    split at h
    · cases h
      exact (hincrement hcount).trans (.of_eq rfl rfl)
    · cases h
      exact hincrement hcount
  · rename_i db₁ hcount
    cases h
    exact (hincrement hcount).trans (.of_eq rfl rfl)
  · cases h

private theorem swapPasskey_factors {id : WebauthnCredentialId} {expectedSealed newSealed : Bytes}
    {now : DateTime}
    (h : WebauthnCredentials.swapPasskey d id expectedSealed newSealed now = .ok d') :
    FactorsKept d d' := by
  simp only [WebauthnCredentials.swapPasskey, bind_eq_ok, ensure_eq_ok, pure_eq_ok] at h
  obtain ⟨-, -, rfl⟩ := h
  constructor
  · intro r hr henabled
    exact ⟨r, hr, rfl, henabled⟩
  · intro c' hc'
    dsimp only at hc'
    obtain ⟨c, hc, rfl⟩ := Table.mem_update.mp hc'
    refine ⟨c, hc, ?_⟩
    split
    · rfl
    · rfl

private theorem F03Proof.spend_factors {p : F03Proof} (h : p.spend user now d = .ok d') :
    FactorsKept d d' := by
  cases p with
  | totp step => exact FactorsKept.advanceLastUsedStep h
  | recovery expectedSealed newSealed => exact FactorsKept.swapRecoveryCodes h
  | webauthn ceremonyId credentialId expectedSealed newSealed =>
    simp only [F03Proof.spend, bind_eq_ok, pure_eq_ok] at h
    obtain ⟨d₁, hswap, rfl⟩ := h
    exact (swapPasskey_factors hswap).trans (.of_eq rfl rfl)
  | rejected reason =>
    cases h
    exact .of_eq rfl rfl

private theorem evaluateProof_factors
    (h : evaluateProof db row proof sessionId now = .ok (outcome, db')) :
    FactorsKept db db' := by
  rcases evaluateProof_cases h with ⟨reason, h⟩ | ⟨reason, h⟩ | ⟨p, method, -, -, h⟩
  · exact invalidateWith_factors h
  · exact rejectOrExhaust_factors h
  · exact completeAndPromote_factors F03Proof.spend_factors h

/-- F03 spends a factor and adds none. -/
theorem completeFederatedMfa_factors {P : Primitives} {key : MasterKey}
    (h : completeFederatedMfa P key db pendingId proof sessionId now = .ok (outcome, db')) :
    FactorsKept db db' := by
  simp only [completeFederatedMfa, bind_eq_ok, require_eq_ok, ensure_eq_ok] at h
  obtain ⟨row, -, -, -, -, -, hrest⟩ := h
  split at hrest
  · exact invalidateWith_factors hrest
  · simp only [bind_eq_ok] at hrest
    obtain ⟨drift, -, hrest⟩ := hrest
    split at hrest
    · exact invalidateWith_factors hrest
    · exact evaluateProof_factors hrest

end Effects

/-- F06 writes ceremonies only. -/
theorem beginFederationWebauthnCeremony_ok {db db' : Database} {pendingId : FederationMfaPendingId}
    {ceremonyStateSealed : Bytes} {rpId origin : String} {id id' : CeremonyId} {now : DateTime}
    (h : beginFederationWebauthnCeremony db pendingId ceremonyStateSealed rpId origin id now =
      .ok (id', db')) :
    ∃ federationWebauthnCeremony, db' = { db with federationWebauthnCeremony } := by
  simp only [beginFederationWebauthnCeremony, FederationWebauthnCeremony.insertOrReplace,
    bind_eq_ok, ensure_eq_ok, require_eq_ok, pure_eq_ok, Prod.mk.injEq] at h
  obtain ⟨row, -, -, -, -, -, drift, -, -, -, -, -, db₁, ⟨-, -, -, -, rfl⟩, -, rfl⟩ := h
  exact ⟨_, rfl⟩

end SuiId

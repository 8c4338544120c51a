import SuiId.Store.Sealed

/-!
# Federated sign-in

The attempts of `federation_login_attempt.rs` and the commands that end one
with a session: L04 for a linked user and F04 for a new one.

`claim` is not one transaction.  It reads the row, checks what it read, and
writes with an `UPDATE` that is guarded on the status only; the verifier is
opened after that write.  `checkClaim` and `finishClaim` are its two accesses
to the database.
-/

namespace SuiId

open Lib Lib.Result

/-! ## Providers and links -/

/-- `is_enabled_within_tx`. -/
def FederationProvider.isEnabled (db : Database) (id : ProviderId) : StoreResult Bool := do
  let provider ← require (db.federationProvider.get? id) .notFound
  pure provider.enabled

namespace FederationLink

/-- `exists_within_tx`. -/
def isLinked (db : Database) (user : UserId) (provider : ProviderId) : Bool :=
  (db.federationLink.get? (user, provider)).isSome

/-- `touch_last_seen_within_tx`. -/
def touchLastSeen (db : Database) (user : UserId) (provider : ProviderId) (now : DateTime) :
    StoreResult Database := do
  ensure (isLinked db user provider) .notFound
  pure { db with
    federationLink := db.federationLink.update (fun l => l.key == (user, provider)) fun l =>
      { l with lastSeenAt := now } }

/-- `insert_within_tx`.  Every constraint failure is a conflict. -/
def insert (db : Database) (row : FederationLinkRow) : StoreResult Database := do
  ensure (db.users.get? row.userId).isSome .conflict
  ensure (db.federationProvider.get? row.providerId).isSome .conflict
  ensure (db.federationLink.rows.all fun l =>
    !(l.providerId == row.providerId && l.upstreamSub == row.upstreamSub)) .conflict
  let federationLink ← require (db.federationLink.insert? row) .conflict
  pure { db with federationLink }

/-- `upsert`: a link that is there keeps its upstream subject. -/
def upsert (db : Database) (row : FederationLinkRow) : StoreResult Database :=
  if isLinked db row.userId row.providerId then
    pure { db with
      federationLink := db.federationLink.update (fun l => l.key == row.key) fun l =>
        { l with upstreamEmail := row.upstreamEmail, lastSeenAt := row.lastSeenAt } }
  else
    (insert db row).mapError fun _ => .db

end FederationLink

/-- `InvalidatedReason`. -/
inductive InvalidatedReason where
  | expired
  | providerChanged
  | providerDisabled
  | linkChanged
  | userInactive
  | factorChanged
  | ceremonyInvalid
deriving DecidableEq, Repr

/-- `authority_drift_within_tx`: the provider is enabled, the link exists and
the user is active.  Locks are not read. -/
def authorityDrift (db : Database) (provider : ProviderId) (user : UserId) :
    StoreResult (Option InvalidatedReason) := do
  let enabled ← FederationProvider.isEnabled db provider
  if !enabled then pure (some .providerDisabled)
  else if !FederationLink.isLinked db user provider then pure (some .linkChanged)
  else
    let u ← require (db.users.get? user) .notFound
    pure (if Users.active u then none else some .userInactive)

/-! ## Attempts -/

/-- The row a claim leaves. -/
def FederationLoginAttemptRow.claimed (r : FederationLoginAttemptRow) (now : DateTime) :
    FederationLoginAttemptRow :=
  { r with status := .exchanging, claimedAt := some now, check_claimed := by simp }

/-- The row a terminal failure leaves: the claim time is filled in when there
is none. -/
def FederationLoginAttemptRow.failed (r : FederationLoginAttemptRow) (now : DateTime) :
    FederationLoginAttemptRow :=
  { r with status := .failed, claimedAt := some (r.claimedAt.getD now), check_claimed := by simp }

/-- The row a completed exchange leaves. -/
def FederationLoginAttemptRow.completed (r : FederationLoginAttemptRow) :
    FederationLoginAttemptRow :=
  if h : r.status = .exchanging then
    { r with status := .completed, check_claimed := by simpa [h] using r.check_claimed }
  else r

namespace FederationLoginAttempt

/-- `LIFETIME_SECS`. -/
def lifetimeSecs : Int := 600

/-- The arguments of `insert` with its two draws. -/
structure NewAttempt where
  id : AttemptId
  nonce : Nonce
  providerId : ProviderId
  providerConfigVersion : Int
  providerActivationGeneration : Int
  stateSha256 : Bytes
  nonceSha256 : Bytes
  browserBindingSha256 : Bytes
  pkceVerifierPlain : Bytes
  exactRedirectUri : String
  nextPath : Option String
  now : DateTime

/-- The pending row `insert` builds around the sealed verifier. -/
def NewAttempt.row (req : NewAttempt) (pkceVerifierSealed : Bytes) : FederationLoginAttemptRow where
  id := req.id
  providerId := req.providerId
  providerConfigVersion := req.providerConfigVersion
  providerActivationGeneration := req.providerActivationGeneration
  stateSha256 := req.stateSha256
  nonceSha256 := req.nonceSha256
  browserBindingSha256 := req.browserBindingSha256
  pkceVerifierSealed := pkceVerifierSealed
  exactRedirectUri := req.exactRedirectUri
  nextPath := req.nextPath
  createdAt := req.now
  expiresAt := req.now + seconds lifetimeSecs
  status := .pending
  claimedAt := none
  check_claimed := by simp

/-- `insert`. -/
def insert (P : Primitives) (key : MasterKey) (db : Database) (req : NewAttempt) :
    StoreResult Database := do
  let sealed ← sealBytes P key req.nonce req.pkceVerifierPlain
    (buildAad req.id req.providerId req.providerConfigVersion req.providerActivationGeneration)
  ensure (0 ≤ req.providerConfigVersion && 0 ≤ req.providerActivationGeneration) .db
  ensure (db.federationLoginAttempt.rows.all fun r => r.stateSha256 != req.stateSha256) .db
  let federationLoginAttempt ← require (db.federationLoginAttempt.insert? (req.row sealed)) .db
  pure { db with federationLoginAttempt }

/-- The arguments of `claim`. -/
structure ClaimRequest where
  id : AttemptId
  nowAtClaim : DateTime
  expectedProviderId : ProviderId
  expectedProviderConfigVersion : Int
  expectedProviderActivationGeneration : Int
  presentedBrowserBindingSha256 : Bytes

/-- The read of `claim` and the checks on what it read. -/
def checkClaim (db : Database) (req : ClaimRequest) : StoreResult FederationLoginAttemptRow := do
  let row ← require (db.federationLoginAttempt.get? req.id) .notFound
  ensure (row.status == .pending) .conflict
  ensure (!(req.nowAtClaim < row.createdAt)) .clockRegression
  ensure (!(row.expiresAt ≤ req.nowAtClaim)) .attemptExpired
  ensure (row.providerId == req.expectedProviderId &&
    row.providerConfigVersion == req.expectedProviderConfigVersion &&
    row.providerActivationGeneration == req.expectedProviderActivationGeneration)
    .attemptProviderMismatch
  ensure (row.browserBindingSha256 == req.presentedBrowserBindingSha256)
    .attemptBrowserBindingMismatch
  pure row

/-- `UPDATE federation_login_attempt SET f WHERE id = ? AND p`, a conflict when
no row matches. -/
def updateWhere (db : Database) (id : AttemptId) (p : FederationLoginAttemptRow → Bool)
    (f : FederationLoginAttemptRow → FederationLoginAttemptRow) (hf : ∀ r, (f r).id = r.id) :
    StoreResult Database := do
  ensure ((db.federationLoginAttempt.get? id).any p) .conflict
  pure { db with
    federationLoginAttempt := db.federationLoginAttempt.update (fun r => r.id == id && p r) f hf }

/-- The `UPDATE` of `claim`. -/
def markClaimed (db : Database) (id : AttemptId) (now : DateTime) : StoreResult Database :=
  updateWhere db id (fun r => r.status == .pending) (fun r => r.claimed now) fun _ => rfl

/-- The end of `claim`: the `UPDATE`, then the verifier of the row read before
is opened.  A verifier that does not open leaves the row claimed. -/
def finishClaim (P : Primitives) (key : MasterKey) (db : Database) (req : ClaimRequest)
    (row : FederationLoginAttemptRow) : StoreResult FederationLoginAttemptRow × Database :=
  match markClaimed db req.id req.nowAtClaim with
  | .ok db =>
    ((openBytes P key row.pkceVerifierSealed
      (buildAad row.id row.providerId row.providerConfigVersion
        row.providerActivationGeneration)).map fun _ => row.claimed req.nowAtClaim, db)
  | .error e => (.error e, db)

/-- `terminalize_failed`. -/
def terminalizeFailed (db : Database) (id : AttemptId) (now : DateTime) : StoreResult Database :=
  updateWhere db id (fun r => r.status == .pending || r.status == .exchanging)
    (fun r => r.failed now) fun _ => rfl

theorem completed_id (r : FederationLoginAttemptRow) : r.completed.id = r.id := by
  unfold FederationLoginAttemptRow.completed
  split
  · rfl
  · rfl

/-- `complete_within_tx`. -/
def complete (db : Database) (id : AttemptId) : StoreResult Database :=
  updateWhere db id (fun r => r.status == .exchanging) (fun r => r.completed) completed_id

/-- `purge_expired` keeps rows this long after they expire. -/
def retentionHours : Int := 24

/-- `purge_expired`, whatever the status. -/
def purgeExpired (db : Database) (now : DateTime) : Database :=
  { db with federationLoginAttempt := db.federationLoginAttempt.delete fun r =>
    r.expiresAt < now - seconds (retentionHours * 3600) }

end FederationLoginAttempt

/-! ## Commands -/

/-- L04: a federated sign-in of a linked user. -/
def signInFederated (db : Database) (attempt : AttemptId) (provider : ProviderId)
    (providerSlug : String) (session : SessionRow) : StoreResult (Nat × Database) :=
  classA (some session.userId) do
    let now := session.createdAt
    let db ← FederationLoginAttempt.complete db attempt
    let drift ← authorityDrift db provider session.userId
    ensure drift.isNone .conflict
    let db ← Users.recordFederatedLogin db session.userId now
    let db ← Sessions.insert db session
    let (evicted, db) := Sessions.evictOverCap db session.userId now
    pure (evicted, ⟨"auth.federation.signin.success", some (toString session.userId), .ok,
      [("provider", providerSlug), ("evicted", toString evicted)], []⟩, db)

/-- F04: the first sign-in of an upstream identity creates its user. -/
def provisionFederatedUser (P : Primitives) (db : Database) (attempt : AttemptId)
    (provider : ProviderId) (user : UserRow) (link : FederationLinkRow) (session : SessionRow) :
    StoreResult (Nat × Database) :=
  classA (some session.userId) do
    let now := session.createdAt
    let db ← FederationLoginAttempt.complete db attempt
    let db ← Users.create P db user
    let db ← FederationLink.insert db link
    let db ← Sessions.insert db session
    let (evicted, db) := Sessions.evictOverCap db session.userId now
    pure (evicted, ⟨"auth.federation.provisioned", some (toString session.userId), .ok,
      [("provider_id", toString provider), ("mode", "provision_on_first_login")], []⟩, db)

/-! ## What a committed write did -/

namespace FederationLoginAttempt

variable {id : AttemptId}

theorem updateWhere_ok {db db' : Database} {p : FederationLoginAttemptRow → Bool}
    {f : FederationLoginAttemptRow → FederationLoginAttemptRow} {hf : ∀ r, (f r).id = r.id}
    (h : updateWhere db id p f hf = .ok db') :
    ∃ r federationLoginAttempt, r.id = id ∧ p r = true ∧
      Table.Replaced db.federationLoginAttempt federationLoginAttempt r (f r) ∧
      db' = { db with federationLoginAttempt } := by
  simp only [updateWhere, bind_eq_ok, ensure_eq_ok, pure_eq_ok, Option.any_eq_true] at h
  obtain ⟨-, ⟨r, hget, hp⟩, rfl⟩ := h
  obtain ⟨hmem, hid⟩ := Table.get?_eq_some.mp hget
  refine ⟨r, _, hid, hp, ?_, rfl⟩
  refine Table.replaced_update (Table.get?_key hmem) (by simp [hid, hp]) fun x hx => ?_
  simp only [Bool.and_eq_true, beq_iff_eq] at hx
  exact hx.1.trans hid.symm

/-- A completed attempt was being exchanged. -/
theorem complete_ok {db db' : Database} (h : complete db id = .ok db') :
    ∃ r federationLoginAttempt, r.id = id ∧ r.status = .exchanging ∧
      Table.Replaced db.federationLoginAttempt federationLoginAttempt r r.completed ∧
      db' = { db with federationLoginAttempt } := by
  obtain ⟨r, t, hid, hstatus, hreplaced, heq⟩ := updateWhere_ok h
  exact ⟨r, t, hid, by simpa using hstatus, hreplaced, heq⟩

/-- What an accepted claim has checked on the row it read. -/
structure Checked (req : ClaimRequest) (r : FederationLoginAttemptRow) : Prop where
  id : r.id = req.id
  created : r.createdAt ≤ req.nowAtClaim
  unexpired : req.nowAtClaim < r.expiresAt
  provider : r.providerId = req.expectedProviderId
  configVersion : r.providerConfigVersion = req.expectedProviderConfigVersion
  activationGeneration : r.providerActivationGeneration = req.expectedProviderActivationGeneration
  browserBinding : r.browserBindingSha256 = req.presentedBrowserBindingSha256

theorem checkClaim_ok {db : Database} {req : ClaimRequest} {r : FederationLoginAttemptRow}
    (h : checkClaim db req = .ok r) : r ∈ db.federationLoginAttempt ∧ Checked req r := by
  simp only [checkClaim, bind_eq_ok, require_eq_ok, ensure_eq_ok, pure_eq_ok] at h
  obtain ⟨r, hget, -, -, -, hcreated, -, hexpires, -, hprovider, -, hbinding, rfl⟩ := h
  simp only [Bool.not_eq_true', decide_eq_false_iff_not, Bool.and_eq_true, beq_iff_eq]
    at hcreated hexpires hprovider hbinding
  obtain ⟨hmem, hid⟩ := Table.get?_eq_some.mp hget
  exact ⟨hmem, hid, Int.not_lt.mp hcreated, Int.not_le.mp hexpires, hprovider.1.1, hprovider.1.2,
    hprovider.2, hbinding⟩

end FederationLoginAttempt

variable {db db' : Database}
variable {P : Primitives} {user : UserRow} {attempt : AttemptId} {provider : ProviderId}
  {session : SessionRow} {evicted : Nat}

theorem Users.create_ok (h : Users.create P db user = .ok db') :
    ∃ users, db' = { db with users } := by
  simp only [Users.create, bind_eq_ok, require_eq_ok, ensure_eq_ok, pure_eq_ok] at h
  obtain ⟨-, -, users, -, rfl⟩ := h
  exact ⟨users, rfl⟩

theorem FederationLink.insert_ok {row : FederationLinkRow}
    (h : FederationLink.insert db row = .ok db') :
    ∃ federationLink, db' = { db with federationLink } := by
  simp only [FederationLink.insert, bind_eq_ok, require_eq_ok, ensure_eq_ok, pure_eq_ok] at h
  obtain ⟨-, -, -, -, -, -, federationLink, -, rfl⟩ := h
  exact ⟨federationLink, rfl⟩

theorem FederationLink.upsert_ok {row : FederationLinkRow}
    (h : FederationLink.upsert db row = .ok db') :
    ∃ federationLink, db' = { db with federationLink } := by
  unfold FederationLink.upsert at h
  split at h
  · cases h
    exact ⟨_, rfl⟩
  · exact FederationLink.insert_ok (mapError_eq_ok.mp h)

/-- L04 completed its attempt; the other tables it writes are named. -/
theorem signInFederated_ok {providerSlug : String}
    (h : signInFederated db attempt provider providerSlug session = .ok (evicted, db')) :
    ∃ r federationLoginAttempt users sessions log, r.id = attempt ∧ r.status = .exchanging ∧
      Table.Replaced db.federationLoginAttempt federationLoginAttempt r r.completed ∧
      db' = { db with federationLoginAttempt, users, sessions, auditLog := log } := by
  obtain ⟨event, db₁, log, hbody, rfl⟩ := classA_eq_ok h
  simp only [bind_eq_ok, ensure_eq_ok, pure_eq_ok, Prod.mk.injEq] at hbody
  obtain ⟨db₂, hcomplete, -, -, -, -, db₃, hlogin, db₄, hinsert, -, -, rfl⟩ := hbody
  obtain ⟨r, t, hid, hstatus, hreplaced, rfl⟩ := FederationLoginAttempt.complete_ok hcomplete
  obtain ⟨-, rfl⟩ := Users.updateWhere_ok hlogin
  obtain ⟨sessions, -, rfl⟩ := Sessions.insert_ok hinsert
  obtain ⟨sessions', -, hevict⟩ := Sessions.evictOverCap_eq
    { db with federationLoginAttempt := t, users := _, sessions } session.userId session.createdAt
  exact ⟨r, t, _, sessions', log, hid, hstatus, hreplaced, by rw [hevict]⟩

/-- F04 completed its attempt; the other tables it writes are named. -/
theorem provisionFederatedUser_ok {link : FederationLinkRow}
    (h : provisionFederatedUser P db attempt provider user link session = .ok (evicted, db')) :
    ∃ r federationLoginAttempt users federationLink sessions log,
      r.id = attempt ∧ r.status = .exchanging ∧
      Table.Replaced db.federationLoginAttempt federationLoginAttempt r r.completed ∧
      db' = { db with
        federationLoginAttempt, users, federationLink, sessions, auditLog := log } := by
  obtain ⟨event, db₁, log, hbody, rfl⟩ := classA_eq_ok h
  simp only [bind_eq_ok, pure_eq_ok, Prod.mk.injEq] at hbody
  obtain ⟨db₂, hcomplete, db₃, hcreate, db₄, hlink, db₅, hinsert, -, -, rfl⟩ := hbody
  obtain ⟨r, t, hid, hstatus, hreplaced, rfl⟩ := FederationLoginAttempt.complete_ok hcomplete
  obtain ⟨users, rfl⟩ := Users.create_ok hcreate
  obtain ⟨federationLink, rfl⟩ := FederationLink.insert_ok hlink
  obtain ⟨sessions, -, rfl⟩ := Sessions.insert_ok hinsert
  have heviction := Sessions.evictOverCap_eq
    { db with federationLoginAttempt := t, users, federationLink, sessions }
    session.userId session.createdAt
  obtain ⟨sessions', -, hevict⟩ := heviction
  exact ⟨r, t, users, federationLink, sessions', log, hid, hstatus, hreplaced, by rw [hevict]⟩

end SuiId

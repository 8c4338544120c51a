import SuiId.Lib.Machine
import SuiId.Store.FederationMfa

/-!
# Concurrent sign-ins

A `SignInWorld` is the database and the calls of `claim` that have read their
row and not yet written it.  An event is one access to the database: one of the
two accesses of `claim`, one `Transaction`, or a write of the rest of the
program, which owns none of the three tables of a federated sign-in.  A list of
events is an interleaving.  The arguments of a transaction are arbitrary, so
whatever its callers read beforehand is covered.

The world also keeps the identifiers drawn so far, which no code reads.  That
the generator, which is outside the repository, repeats none is `DrawsFresh`.
-/

namespace SuiId

open Lib Lib.Result FederationLoginAttempt

/-- A running call of `claim`. -/
abbrev ClaimId := Nat

/-- The database, the claims in flight, and the ids drawn so far. -/
structure SignInWorld where
  db : Database
  claims : ClaimId → Option (ClaimRequest × FederationLoginAttemptRow)
  /-- Every identifier drawn for an attempt so far. -/
  attemptIds : List AttemptId
  /-- Every identifier drawn for a pending second factor so far. -/
  pendingIds : List FederationMfaPendingId

/-- No call is running, and the identifiers drawn are those of the rows. -/
def SignInWorld.start (db : Database) : SignInWorld where
  db := db
  claims _ := none
  attemptIds := db.federationLoginAttempt.rows.map (·.id)
  pendingIds := db.federationMfaPending.rows.map (·.id)

/-- The transactions on attempts and pending factors. -/
inductive Transaction where
  | insertAttempt (req : NewAttempt)
  | terminalizeFailed (id : AttemptId) (now : DateTime)
  | purgeAttempts (now : DateTime)
  -- L04, F04, F02, F03, F06
  | signInFederated (attempt : AttemptId) (provider : ProviderId) (providerSlug : String)
      (session : SessionRow)
  | provisionFederatedUser (attempt : AttemptId) (provider : ProviderId) (user : UserRow)
      (link : FederationLinkRow) (session : SessionRow)
  | issueFederatedMfaPending (req : MfaPendingRequest)
  | completeFederatedMfa (pendingId : FederationMfaPendingId) (proof : Option F03Proof)
      (sessionId : SessionId) (now : DateTime)
  | beginFederationWebauthnCeremony (pendingId : FederationMfaPendingId)
      (ceremonyStateSealed : Bytes) (rpId origin : String) (id : CeremonyId) (now : DateTime)
  | purgePendings (now : DateTime)
  -- L01, L02, L03, U22, L07
  | signInWithPassword (session : SessionRow)
  | completeSecondFactor (pendingId : PendingMfaId) (session : SessionRow)
      (proof : SecondFactorProof)
  | signInFromDirectory (shadow : Users.LdapShadowData) (sourceSlug : String)
      (session : SessionRow)
  | recordLoginFailure (user : UserId) (maxLockoutSecs : Int) (now : DateTime)
  | recordSecondFactorFailure (user : UserId) (maxLockoutSecs : Int) (now : DateTime)

/-- What a committed transaction returns. -/
inductive Returned where
  | unit
  | evicted (count : Nat)
  | session (session : SessionRow)
  | failures (count : Int) (locked : Bool)
  | pending (id : FederationMfaPendingId) (expiresAt : DateTime)
  | outcome (outcome : F03Outcome)
  | ceremony (id : CeremonyId)
deriving DecidableEq

/-- Run the transaction. -/
def Transaction.perform (P : Primitives) (key : MasterKey) (db : Database) :
    Transaction → StoreResult (Returned × Database)
  | .insertAttempt req => do
    let db ← FederationLoginAttempt.insert P key db req
    pure (.unit, db)
  | .terminalizeFailed id now => do
    let db ← FederationLoginAttempt.terminalizeFailed db id now
    pure (.unit, db)
  | .purgeAttempts now => pure (.unit, FederationLoginAttempt.purgeExpired db now)
  | .signInFederated attempt provider providerSlug session => do
    let (evicted, db) ← SuiId.signInFederated db attempt provider providerSlug session
    pure (.evicted evicted, db)
  | .provisionFederatedUser attempt provider user link session => do
    let (evicted, db) ← SuiId.provisionFederatedUser P db attempt provider user link session
    pure (.evicted evicted, db)
  | .issueFederatedMfaPending req => do
    let ((id, expiresAt), db) ← SuiId.issueFederatedMfaPending P key db req
    pure (.pending id expiresAt, db)
  | .completeFederatedMfa pendingId proof sessionId now => do
    let (outcome, db) ← SuiId.completeFederatedMfa P key db pendingId proof sessionId now
    pure (.outcome outcome, db)
  | .beginFederationWebauthnCeremony pendingId ceremonyStateSealed rpId origin id now => do
    let (id, db) ← SuiId.beginFederationWebauthnCeremony db pendingId ceremonyStateSealed rpId
      origin id now
    pure (.ceremony id, db)
  | .purgePendings now => pure (.unit, FederationMfaPending.purgeExpired db now)
  | .signInWithPassword session => do
    let (evicted, db) ← SuiId.signInWithPassword db session
    pure (.evicted evicted, db)
  | .completeSecondFactor pendingId session proof => do
    let (session, db) ← SuiId.completeSecondFactor db pendingId session proof
    pure (.session session, db)
  | .signInFromDirectory shadow sourceSlug session => do
    let (evicted, db) ← SuiId.signInFromDirectory P db shadow sourceSlug session
    pure (.evicted evicted, db)
  | .recordLoginFailure user maxLockoutSecs now => do
    let (count, db) ← SuiId.recordLoginFailure db user maxLockoutSecs now
    pure (.failures count false, db)
  | .recordSecondFactorFailure user maxLockoutSecs now => do
    let (outcome, db) ← SuiId.recordSecondFactorFailure db user maxLockoutSecs now
    pure (.failures outcome.count outcome.locked, db)

/-- The attempt that the transaction completes when it commits. -/
def Transaction.completedAttempt : Transaction → Option AttemptId
  | .signInFederated attempt _ _ _ => some attempt
  | .provisionFederatedUser attempt _ _ _ _ => some attempt
  | .issueFederatedMfaPending req => some req.attemptId
  | _ => none

/-- A transaction, or another write. -/
inductive SignInEvent where
  | claimRead (call : ClaimId) (req : ClaimRequest)
  | claimWrite (call : ClaimId)
  | transaction (transaction : Transaction)
  /-- A write to any other table. -/
  | elsewhere (db : Database)

/-- What an event answers. -/
inductive SignInAnswer where
  /-- The event is not the next access of that call. -/
  | ignored
  | reading
  | refused (error : StoreError)
  | claimed (row : FederationLoginAttemptRow)
  | committed (returned : Returned)

namespace SignInWorld

/-- Record what the transaction draws. -/
def draw (w : SignInWorld) : Transaction → SignInWorld
  | .insertAttempt req => { w with attemptIds := req.id :: w.attemptIds }
  | .issueFederatedMfaPending req => { w with pendingIds := req.id :: w.pendingIds }
  | _ => w

/-- A write of the rest of the program. -/
def overwrite (w : SignInWorld) (db : Database) : SignInWorld :=
  { w with
    db := { db with
      federationLoginAttempt := w.db.federationLoginAttempt
      federationMfaPending := w.db.federationMfaPending
      federationWebauthnCeremony := w.db.federationWebauthnCeremony } }

end SignInWorld

variable (P : Primitives) (key : MasterKey)

/-- One event. -/
def signInStep (w : SignInWorld) : SignInEvent → SignInWorld × SignInAnswer
  | .claimRead call req =>
    match w.claims call with
    | some _ => (w, .ignored)
    | none =>
      match checkClaim w.db req with
      | .ok row => ({ w with claims := Function.update w.claims call (some (req, row)) }, .reading)
      | .error e => (w, .refused e)
  | .claimWrite call =>
    match w.claims call with
    | none => (w, .ignored)
    | some (req, row) =>
      let (result, db) := finishClaim P key w.db req row
      ({ w with db, claims := Function.update w.claims call none },
        match result with
        | .ok row => .claimed row
        | .error e => .refused e)
  | .transaction transaction =>
    match transaction.perform P key w.db with
    | .ok (returned, db) => ({ w.draw transaction with db }, .committed returned)
    | .error e => (w.draw transaction, .refused e)
  | .elsewhere db => (w.overwrite db, .committed .unit)

/-- The state after a run. -/
abbrev signInRun : SignInWorld → List SignInEvent → SignInWorld := Machine.run (signInStep P key)

/-- A step of a run. -/
abbrev SignInTaken := Machine.Taken SignInWorld SignInEvent SignInAnswer

/-- The steps of a run. -/
abbrev signInTrace : SignInWorld → List SignInEvent → List SignInTaken :=
  Machine.trace (signInStep P key)

/-- The identifier an event draws repeats no earlier one. -/
def DrawsFresh (w : SignInWorld) : SignInEvent → Prop
  | .transaction (.insertAttempt req) => req.id ∉ w.attemptIds
  | .transaction (.issueFederatedMfaPending req) => req.id ∉ w.pendingIds
  | _ => True

instance decidableDrawsFresh (w : SignInWorld) : (e : SignInEvent) → Decidable (DrawsFresh w e)
  | .transaction (.insertAttempt req) => inferInstanceAs (Decidable (req.id ∉ w.attemptIds))
  | .transaction (.issueFederatedMfaPending req) =>
    inferInstanceAs (Decidable (req.id ∉ w.pendingIds))
  | .transaction (.terminalizeFailed ..) | .transaction (.purgeAttempts _)
  | .transaction (.signInFederated ..) | .transaction (.provisionFederatedUser ..)
  | .transaction (.completeFederatedMfa ..) | .transaction (.beginFederationWebauthnCeremony ..)
  | .transaction (.purgePendings _) | .transaction (.signInWithPassword _)
  | .transaction (.completeSecondFactor ..) | .transaction (.signInFromDirectory ..)
  | .transaction (.recordLoginFailure ..) | .transaction (.recordSecondFactorFailure ..)
  | .claimRead .. | .claimWrite _ | .elsewhere _ => inferInstanceAs (Decidable True)

/-! ## What a transaction does -/

variable {P key}

/-- An identifier that was drawn stays drawn. -/
theorem signInStep_drawn (w : SignInWorld) (e : SignInEvent) :
    w.attemptIds ⊆ (signInStep P key w e).1.attemptIds ∧
      w.pendingIds ⊆ (signInStep P key w e).1.pendingIds := by
  cases e with
  | claimRead call req =>
    simp only [signInStep]
    split
    · exact ⟨List.Subset.refl _, List.Subset.refl _⟩
    · split
      · exact ⟨List.Subset.refl _, List.Subset.refl _⟩
      · exact ⟨List.Subset.refl _, List.Subset.refl _⟩
  | claimWrite call =>
    simp only [signInStep]
    split
    · exact ⟨List.Subset.refl _, List.Subset.refl _⟩
    · exact ⟨List.Subset.refl _, List.Subset.refl _⟩
  | transaction t =>
    have hdraw : w.attemptIds ⊆ (w.draw t).attemptIds ∧ w.pendingIds ⊆ (w.draw t).pendingIds := by
      cases t with
      | insertAttempt req => exact ⟨List.subset_cons_self _ _, List.Subset.refl _⟩
      | issueFederatedMfaPending req => exact ⟨List.Subset.refl _, List.subset_cons_self _ _⟩
      | _ => exact ⟨List.Subset.refl _, List.Subset.refl _⟩
    simp only [signInStep]
    split
    · exact hdraw
    · exact hdraw
  | elsewhere db => exact ⟨List.Subset.refl _, List.Subset.refl _⟩

/-- What a transaction has run when it commits. -/
inductive Performed (P : Primitives) (key : MasterKey) (db : Database) :
    Transaction → Returned → Database → Prop
  | insertAttempt {req db'} (h : FederationLoginAttempt.insert P key db req = .ok db') :
    Performed P key db (.insertAttempt req) .unit db'
  | terminalizeFailed {id now db'}
      (h : FederationLoginAttempt.terminalizeFailed db id now = .ok db') :
    Performed P key db (.terminalizeFailed id now) .unit db'
  | purgeAttempts {now} :
    Performed P key db (.purgeAttempts now) .unit (FederationLoginAttempt.purgeExpired db now)
  | signInFederated {attempt provider slug session evicted db'}
      (h : SuiId.signInFederated db attempt provider slug session = .ok (evicted, db')) :
    Performed P key db (.signInFederated attempt provider slug session) (.evicted evicted) db'
  | provisionFederatedUser {attempt provider user link session evicted db'}
      (h : SuiId.provisionFederatedUser P db attempt provider user link session =
        .ok (evicted, db')) :
    Performed P key db (.provisionFederatedUser attempt provider user link session)
      (.evicted evicted) db'
  | issueFederatedMfaPending {req id expiresAt db'}
      (h : SuiId.issueFederatedMfaPending P key db req = .ok ((id, expiresAt), db')) :
    Performed P key db (.issueFederatedMfaPending req) (.pending id expiresAt) db'
  | completeFederatedMfa {pendingId proof sessionId now outcome db'}
      (h : SuiId.completeFederatedMfa P key db pendingId proof sessionId now =
        .ok (outcome, db')) :
    Performed P key db (.completeFederatedMfa pendingId proof sessionId now)
      (.outcome outcome) db'
  | beginFederationWebauthnCeremony {pendingId sealed rpId origin id now id' db'}
      (h : SuiId.beginFederationWebauthnCeremony db pendingId sealed rpId origin id now =
        .ok (id', db')) :
    Performed P key db (.beginFederationWebauthnCeremony pendingId sealed rpId origin id now)
      (.ceremony id') db'
  | purgePendings {now} :
    Performed P key db (.purgePendings now) .unit (FederationMfaPending.purgeExpired db now)
  | signInWithPassword {session evicted db'}
      (h : SuiId.signInWithPassword db session = .ok (evicted, db')) :
    Performed P key db (.signInWithPassword session) (.evicted evicted) db'
  | completeSecondFactor {pendingId session proof opened db'}
      (h : SuiId.completeSecondFactor db pendingId session proof = .ok (opened, db')) :
    Performed P key db (.completeSecondFactor pendingId session proof) (.session opened) db'
  | signInFromDirectory {shadow slug session evicted db'}
      (h : SuiId.signInFromDirectory P db shadow slug session = .ok (evicted, db')) :
    Performed P key db (.signInFromDirectory shadow slug session) (.evicted evicted) db'
  | recordLoginFailure {user maxSecs now count db'}
      (h : SuiId.recordLoginFailure db user maxSecs now = .ok (count, db')) :
    Performed P key db (.recordLoginFailure user maxSecs now) (.failures count false) db'
  | recordSecondFactorFailure {user maxSecs now outcome db'}
      (h : SuiId.recordSecondFactorFailure db user maxSecs now = .ok (outcome, db')) :
    Performed P key db (.recordSecondFactorFailure user maxSecs now)
      (.failures outcome.count outcome.locked) db'

variable {transaction : Transaction} {db db' : Database} {returned : Returned}

theorem Transaction.performed (h : transaction.perform P key db = .ok (returned, db')) :
    Performed P key db transaction returned db' := by
  cases transaction with
  | purgeAttempts now =>
    cases h
    exact .purgeAttempts
  | purgePendings now =>
    cases h
    exact .purgePendings
  | insertAttempt req =>
    simp only [perform, bind_eq_ok, pure_eq_ok, Prod.mk.injEq] at h
    obtain ⟨db₁, hcommit, rfl, rfl⟩ := h
    exact .insertAttempt hcommit
  | terminalizeFailed id now =>
    simp only [perform, bind_eq_ok, pure_eq_ok, Prod.mk.injEq] at h
    obtain ⟨db₁, hcommit, rfl, rfl⟩ := h
    exact .terminalizeFailed hcommit
  | issueFederatedMfaPending req =>
    simp only [perform, bind_eq_ok, pure_eq_ok, Prod.mk.injEq] at h
    obtain ⟨⟨⟨id, expiresAt⟩, db₁⟩, hcommit, rfl, rfl⟩ := h
    exact .issueFederatedMfaPending hcommit
  | _ =>
    simp only [perform, bind_eq_ok, pure_eq_ok, Prod.mk.injEq] at h
    obtain ⟨⟨_, db₁⟩, hcommit, rfl, rfl⟩ := h
    constructor
    exact hcommit

/-! ## What a transaction leaves alone -/

/-- The tables of attempts and of pending second factors are as they were. -/
structure FederationKept (db db' : Database) : Prop where
  attempts : db'.federationLoginAttempt = db.federationLoginAttempt
  pendings : db'.federationMfaPending = db.federationMfaPending

/-- The sign-ins and failures of a local account. -/
def Transaction.isLocal : Transaction → Bool
  | .signInWithPassword _ | .completeSecondFactor .. | .signInFromDirectory ..
  | .recordLoginFailure .. | .recordSecondFactorFailure .. => true
  | _ => false

theorem perform_local (hlocal : transaction.isLocal = true)
    (h : transaction.perform P key db = .ok (returned, db')) : FederationKept db db' := by
  cases Transaction.performed h with
  | signInWithPassword hcommit =>
    obtain ⟨-, users, sessions, log, rfl⟩ := signInWithPassword_ok hcommit
    exact ⟨rfl, rfl⟩
  | completeSecondFactor hcommit =>
    obtain ⟨-, -, -, _, _, _, _, _, -, -, -, rfl⟩ := completeSecondFactor_ok hcommit
    exact ⟨rfl, rfl⟩
  | signInFromDirectory hcommit =>
    obtain ⟨-, users, sessions, log, rfl⟩ := signInFromDirectory_ok hcommit
    exact ⟨rfl, rfl⟩
  | recordLoginFailure hcommit =>
    obtain ⟨users, log, rfl⟩ := recordLoginFailure_ok hcommit
    exact ⟨rfl, rfl⟩
  | recordSecondFactorFailure hcommit =>
    obtain ⟨_, _, _, -, -, rfl⟩ := recordSecondFactorFailure_ok hcommit
    exact ⟨rfl, rfl⟩
  | _ => cases hlocal

/-! ## Sample rows -/

/-- An attempt for provider 1, made at the epoch. -/
def sampleAttempt (id : AttemptId) : NewAttempt where
  id := id
  nonce := .constant 0
  providerId := 1
  providerConfigVersion := 0
  providerActivationGeneration := 0
  stateSha256 := [UInt8.ofNat id]
  nonceSha256 := [2]
  browserBindingSha256 := [3]
  pkceVerifierPlain := [4]
  exactRedirectUri := "https://id.example/federation/callback"
  nextPath := none
  now := 0

/-- A claim of that attempt, one second later. -/
def sampleClaim (id : AttemptId) : ClaimRequest where
  id := id
  nowAtClaim := seconds 1
  expectedProviderId := 1
  expectedProviderConfigVersion := 0
  expectedProviderActivationGeneration := 0
  presentedBrowserBindingSha256 := [3]

/-- An attempt that has come back from the provider. -/
def exchanged (id : AttemptId) : List SignInEvent :=
  [.transaction (.insertAttempt (sampleAttempt id)), .claimRead id (sampleClaim id), .claimWrite id]

/-- F02 for user 7, two seconds after the epoch. -/
def samplePending (id : FederationMfaPendingId) (attempt : AttemptId) : SignInEvent :=
  .transaction (.issueFederatedMfaPending
    { id, nonce := .constant 0, attemptId := attempt, providerId := 1, providerConfigVersion := 0
      providerActivationGeneration := 0, userId := 7, nextPath := none
      browserBindingSha256 := [5], csrfBindingSha256 := [6], now := seconds 2 })

/-- User 7 is linked to provider 1 and has an authenticator. -/
def linkedDb : Database :=
  { Database.empty with
    users := ⟨[plainUser 7 "ada" .user], by decide⟩
    userTotp := ⟨[{ userId := 7, secretEnc := [], enabled := true, recoveryCodesEnc := none
                    lastUsedStep := 0, createdAt := 0, confirmedAt := some 0 }], by decide⟩
    federationProvider := ⟨[{ id := 1, slug := "corp", displayName := "Corp"
                              issuer := "https://corp.example", clientId := "sui-id"
                              clientSecretEnc := none, enabled := true }], by decide⟩
    federationLink := ⟨[{ userId := 7, providerId := 1, upstreamSub := "ada"
                          upstreamEmail := none, linkedAt := 0, lastSeenAt := 0 }], by decide⟩ }

end SuiId

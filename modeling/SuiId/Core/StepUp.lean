import SuiId.Core.Login
import SuiId.Store.ClassA
import SuiId.Store.Recovery
import SuiId.Store.SigningKeys

/-!
# Step-up and the commands behind it

Every command here is one transaction, so a list of events is an interleaving:

* L05 and L06 end a step-up, L02 and F03 open a session that has stepped up;
* the other sign-ins open one that has not;
* sessions are revoked, used and purged, and factors added and removed;
* a gated command reads the acting session again, in its own transaction
  (`session_step_up_evidence_within_tx`);
* `elsewhere` is any write to the other tables.

Nothing is said of the clock: each command comes with its own time.  The world keeps the
session identifiers drawn so far, which no code reads; that the generator repeats none is
`DrawsNewSession`.
-/

namespace SuiId

open Lib Lib.Result

/-! ## Commands -/

/-- The commands that call `session_step_up_evidence_within_tx`. -/
inductive GatedCommand where
  -- K01
  | rotateSigningKey (newId : Nat) (algorithm : String) (privateKeySealed publicKey : Bytes)
      (reason : Option String)
  -- U02, U03, U04
  | disableUser (target : UserId) (reason : Option String)
  | enableUser (target : UserId)
  | deleteUser (target : UserId) (reason : Option String)
  -- U07, U37
  | adminResetMfa (target : UserId) (reason : Option String)
  | issueRecoveryLinkAsAdmin (target : UserId) (tokenId : ResetTokenId) (tokenHash : Bytes)
      (reason : String) (expiresAt : DateTime)

/-- The command. -/
def GatedCommand.perform (rfc3339 : DateTime → String) (db : Database) (admin : UserId)
    (session : SessionId) (now : DateTime) : GatedCommand → StoreResult Database
  | .rotateSigningKey newId algorithm privateKeySealed publicKey reason =>
    (SuiId.rotateSigningKey db admin session newId algorithm privateKeySealed publicKey reason
      now).map (·.2)
  | .disableUser target reason =>
    (SuiId.disableUser db admin session target reason now).map (·.2)
  | .enableUser target => (SuiId.enableUser db admin session target now).map (·.2)
  | .deleteUser target reason => (SuiId.deleteUser db admin session target reason now).map (·.2)
  | .adminResetMfa target reason =>
    (SuiId.adminResetMfa db admin session target reason now).map (·.2)
  | .issueRecoveryLinkAsAdmin target tokenId tokenHash reason expiresAt =>
    (SuiId.issueRecoveryLinkAsAdmin rfc3339 db admin session target tokenId tokenHash reason
      expiresAt now).map (·.2)

/-- The sign-ins without a second factor: L01, L03, L04 and F04. -/
inductive PlainSignIn where
  | password (draw : FlowDraw) (user : UserId)
  | directory (shadow : Users.LdapShadowData) (sourceSlug : String) (id : SessionId)
      (user : UserId) (now : DateTime)
  | federated (attempt : AttemptId) (provider : ProviderId) (providerSlug : String)
      (id : SessionId) (user : UserId) (now : DateTime)
  | provisioned (attempt : AttemptId) (provider : ProviderId) (user : UserRow)
      (link : FederationLinkRow) (id : SessionId) (now : DateTime)

/-- The session that is opened. -/
def PlainSignIn.session : PlainSignIn → SessionRow
  | password draw user => passwordSession draw user
  | directory _ _ id user now => externalSession id user now
  | federated _ _ _ id user now => externalSession id user now
  | provisioned _ _ user _ id now => externalSession id user.id now

/-- The command. -/
def PlainSignIn.perform (P : Primitives) (db : Database) (signIn : PlainSignIn) :
    StoreResult Database :=
  match signIn with
  | password _ _ => (signInWithPassword db signIn.session).map (·.2)
  | directory shadow sourceSlug _ _ _ =>
    (signInFromDirectory P db shadow sourceSlug signIn.session).map (·.2)
  | federated attempt provider providerSlug _ _ _ =>
    (signInFederated db attempt provider providerSlug signIn.session).map (·.2)
  | provisioned attempt provider user link _ _ =>
    (provisionFederatedUser P db attempt provider user link signIn.session).map (·.2)

/-- The commands that revoke sessions: U18, U19, U09 and U10.  U02 and U04 are gated. -/
inductive Revocation where
  | revokeSession (actor user : UserId) (session : SessionId) (trigger : SessionRevokeTrigger)
      (now : DateTime)
  | revokeSessionIdleTimeout (user : UserId) (session : SessionId) (now : DateTime)
  | revokeAllSessionsForUserAsUser (user : UserId) (trigger : SessionsRevokeTrigger)
      (now : DateTime)
  | revokeAllSessionsForUserUnattributed (user : UserId) (trigger : SessionsRevokeTrigger)
      (now : DateTime)
  | revokeOtherSessionsForUser (user : UserId) (keep : SessionId)
      (trigger : SessionsRevokeTrigger) (now : DateTime)
  | changePasswordSelf (user : UserId) (credential : CredentialRow)
      (keepCurrentSession : Option SessionId) (revokeOthers : Bool) (now : DateTime)
  | consumeAndResetPassword (user : UserId) (token : ResetTokenId) (credential : CredentialRow)
      (consumedAt : DateTime) (hibpWarned : Bool)

/-- The command. -/
def Revocation.perform (db : Database) : Revocation → StoreResult Database
  | .revokeSession actor user session trigger now =>
    (SuiId.revokeSession db actor user session trigger now).map (·.2)
  | .revokeSessionIdleTimeout user session now =>
    (SuiId.revokeSessionIdleTimeout db user session now).map (·.2)
  | .revokeAllSessionsForUserAsUser user trigger now =>
    (SuiId.revokeAllSessionsForUserAsUser db user trigger now).map (·.2)
  | .revokeAllSessionsForUserUnattributed user trigger now =>
    (SuiId.revokeAllSessionsForUserUnattributed db user trigger now).map (·.2)
  | .revokeOtherSessionsForUser user keep trigger now =>
    (SuiId.revokeOtherSessionsForUser db user keep trigger now).map (·.2)
  | .changePasswordSelf user credential keepCurrentSession revokeOthers now =>
    (SuiId.changePasswordSelf db user credential keepCurrentSession revokeOthers now).map (·.2)
  | .consumeAndResetPassword user token credential consumedAt hibpWarned =>
    (SuiId.consumeAndResetPassword db user token credential consumedAt hibpWarned).map (·.2)

/-- The writes to the factors of an account: `upsert_pending`, U12 to U16, and U07 on the
command line. -/
inductive FactorChange where
  | upsertPending (user : UserId) (secretEnc : Bytes) (now : DateTime)
  | confirmTotpEnrollment (user : UserId) (sealedRecoveryCodes : Bytes) (lastUsedStep : Int)
      (now : DateTime)
  | disableTotp (user : UserId)
  | regenerateRecoveryCodes (user : UserId) (sealedRecoveryCodes : Bytes)
  | registerPasskey (row : UserWebauthnCredentialRow)
  | deletePasskey (user : UserId) (credential : WebauthnCredentialId)
  | operatorResetMfa (target : UserId) (reason : String)

/-- The command. -/
def FactorChange.perform (db : Database) : FactorChange → StoreResult Database
  | .upsertPending user secretEnc now => UserTotp.upsertPending db user secretEnc now
  | .confirmTotpEnrollment user sealedRecoveryCodes lastUsedStep now =>
    (SuiId.confirmTotpEnrollment db user sealedRecoveryCodes lastUsedStep now).map (·.2)
  | .disableTotp user => (SuiId.disableTotp db user).map (·.2)
  | .regenerateRecoveryCodes user sealedRecoveryCodes =>
    (SuiId.regenerateRecoveryCodes db user sealedRecoveryCodes).map (·.2)
  | .registerPasskey row => (SuiId.registerPasskey db row).map (·.2)
  | .deletePasskey user credential => (SuiId.deletePasskey db user credential).map (·.2)
  | .operatorResetMfa target reason => (SuiId.operatorResetMfa db target reason).map (·.2)

/-! ## Runs -/

/-- What writes sessions and factors. -/
inductive StepUpEvent where
  -- L05, L06
  | completeStepUp (user : UserId) (session : SessionId) (proof : StepUpProof) (gate : String)
      (now : DateTime)
  | recordStepUpFailure (user : UserId) (session : SessionId) (now : DateTime)
  -- L02, F03
  | completeSecondFactor (pendingId : PendingMfaId) (session : SessionRow)
      (proof : SecondFactorProof)
  | completeFederatedMfa (pendingId : FederationMfaPendingId) (proof : Option F03Proof)
      (sessionId : SessionId) (now : DateTime)
  | openSession (signIn : PlainSignIn)
  | revoke (revocation : Revocation)
  | factor (change : FactorChange)
  | touchLastUsed (session : SessionId) (now : DateTime)
  | purgeSessions (now : DateTime)
  | gated (command : GatedCommand) (admin : UserId) (session : SessionId) (now : DateTime)
  /-- A write to any other table. -/
  | elsewhere (db : Database)

/-- What an event answers. -/
inductive StepUpAnswer where
  | refused (error : StoreError)
  | committed
  | failure (outcome : StepUpFailureOutcome)
  | federated (outcome : F03Outcome)
deriving DecidableEq

/-- The session identifier that the event draws. -/
def StepUpEvent.draws : StepUpEvent → Option SessionId
  | .completeSecondFactor _ session _ => some session.id
  | .completeFederatedMfa _ _ sessionId _ => some sessionId
  | .openSession signIn => some signIn.session.id
  | _ => none

/-- Run the transaction. -/
def StepUpEvent.perform (P : Primitives) (key : MasterKey) (rfc3339 : DateTime → String)
    (db : Database) : StepUpEvent → StoreResult (StepUpAnswer × Database)
  | .completeStepUp user session proof gate now => do
    let (_, db) ← SuiId.completeStepUp db user session proof gate now
    pure (.committed, db)
  | .recordStepUpFailure user session now => do
    let (outcome, db) ← SuiId.recordStepUpFailure db user session now
    pure (.failure outcome, db)
  | .completeSecondFactor pendingId session proof => do
    let (_, db) ← SuiId.completeSecondFactor db pendingId session proof
    pure (.committed, db)
  | .completeFederatedMfa pendingId proof sessionId now => do
    let (outcome, db) ← SuiId.completeFederatedMfa P key db pendingId proof sessionId now
    pure (.federated outcome, db)
  | .openSession signIn => do
    let db ← signIn.perform P db
    pure (.committed, db)
  | .revoke revocation => do
    let db ← revocation.perform db
    pure (.committed, db)
  | .factor change => do
    let db ← change.perform db
    pure (.committed, db)
  | .touchLastUsed session now => pure (.committed, SuiId.touchLastUsed db now session)
  | .purgeSessions now => pure (.committed, Sessions.purgeExpired db now)
  | .gated command admin session now => do
    let db ← command.perform rfc3339 db admin session now
    pure (.committed, db)
  | .elsewhere other => pure (.committed, { other with sessions := db.sessions })

/-- The database, and the session ids drawn so far. -/
structure StepUpWorld where
  db : Database
  /-- Every session identifier drawn so far. -/
  sessionIds : List SessionId

/-- The identifiers drawn are those of the rows. -/
def StepUpWorld.start (db : Database) : StepUpWorld := ⟨db, db.sessions.rows.map (·.id)⟩

/-- One event.  A refused one writes nothing. -/
def stepUpStep (P : Primitives) (key : MasterKey) (rfc3339 : DateTime → String)
    (w : StepUpWorld) (e : StepUpEvent) : StepUpWorld × StepUpAnswer :=
  let sessionIds := e.draws.toList ++ w.sessionIds
  match e.perform P key rfc3339 w.db with
  | .ok (answer, db) => (⟨db, sessionIds⟩, answer)
  | .error error => (⟨w.db, sessionIds⟩, .refused error)

/-- A step of a run. -/
abbrev StepUpTaken := Machine.Taken StepUpWorld StepUpEvent StepUpAnswer

/-- The session identifier that the event draws was never drawn before. -/
def DrawsNewSession (w : StepUpWorld) (e : StepUpEvent) : Prop :=
  ∀ id ∈ e.draws.toList, id ∉ w.sessionIds

instance (w : StepUpWorld) (e : StepUpEvent) : Decidable (DrawsNewSession w e) :=
  inferInstanceAs (Decidable (∀ id ∈ e.draws.toList, id ∉ w.sessionIds))

/-! ## Where a step-up returns to

`http/same_site_return_path.rs` and the `return_to` of `handlers/step_up.rs`.  The two handlers that
end a step-up give the path to `Redirect::to`, which makes it the `Location` of the response.
-/

namespace ReturnPaths

/-- `same_site_return_path`. -/
def sameSiteReturnPath (raw : String) : Option String :=
  if raw.isEmpty then none
  else if !Text.startsWith raw "/" then none
  -- The second byte: the slash before it is one byte.
  else if raw.toList.tail.head? = some '/' then none
  else if raw.toList.any fun c => c.toNat = 0x5c then none
  else if raw.toList.any isControl then none
  else some raw

/-- `STEP_UP_RETURN_ALLOWLIST`. -/
def stepUpReturnAllowlist : List String :=
  ["/admin/users/", "/admin/clients/", "/admin/signing-keys/", "/admin/settings/", "/me/security/"]

/-- `sanitise_return_to`. -/
def sanitiseReturnTo (raw : String) : String :=
  match sameSiteReturnPath raw with
  | none => "/me/security"
  | some raw =>
    let inAllowlist := stepUpReturnAllowlist.any fun start => Text.startsWith raw start
    if !inAllowlist then "/me/security" else raw

/-- The `Location` of a handler that ends a step-up, when the factor was `verified`. -/
def redirectAfter (returnTo : String) (verified : CoreResult Unit) : Option String :=
  let returnTo := sanitiseReturnTo returnTo
  match verified with
  | .ok () => some returnTo
  | .error _ => none

/-- `post`, behind its CSRF check. -/
def post : String → CoreResult Unit → Option String := redirectAfter

/-- `webauthn_finish`, behind its CSRF check and its cookie. -/
def webauthnFinish : String → CoreResult Unit → Option String := redirectAfter

end ReturnPaths

end SuiId

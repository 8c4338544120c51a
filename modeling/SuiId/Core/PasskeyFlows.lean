import SuiId.Core.Mfa
import SuiId.Lib.Machine
import SuiId.Store.Passkeys

/-!
# The ceremonies of a passkey

`finish_authentication` and what follows it, cut at the accesses to the database:

* `webauthn_auth_complete`: the pending second factor, the ceremony, the passkey, the write of
  the passkey, the delete of the ceremony, and L02;
* `finish_webauthn`: the ceremony, the passkey, the write of the passkey, and L05, which deletes
  the ceremony itself;
* `promote_webauthn`: the reads of `verify_webauthn`, and F03, which writes the passkey and
  deletes the ceremony itself.

An assertion that fails is counted by L07 or L06.

The assertion is verified by another crate, whose functions are those of `WebauthnRs`.  The world
keeps the identifiers of the ceremonies so far, which no code reads.
-/

namespace SuiId

open Lib Lib.Result

/-! ## The other crate -/

/-- `AuthenticationResult`: the credential that signed, and its signature counter. -/
structure AuthenticationResult where
  credId : Bytes
  counter : Nat
deriving DecidableEq

/-- What `webauthn-rs` computes, with the JSON of its types. -/
structure WebauthnRs where
  PublicKeyCredential : Type
  PasskeyAuthentication : Type
  Passkey : Type
  parseCredential : String → Option PublicKeyCredential
  decodeState : Bytes → Option PasskeyAuthentication
  finishPasskeyAuthentication :
    PublicKeyCredential → PasskeyAuthentication → Option AuthenticationResult
  encodePasskey : Passkey → Bytes
  decodePasskey : Bytes → Option Passkey
  updateCredential : Passkey → AuthenticationResult → Passkey
  counter : Passkey → Nat

/-- What the counters rely on it for. -/
structure WebauthnRs.Lawful (W : WebauthnRs) : Prop where
  decode_encode : ∀ passkey, W.decodePasskey (W.encodePasskey passkey) = some passkey
  counter_update : ∀ passkey result,
    W.counter (W.updateCredential passkey result) = max (W.counter passkey) result.counter

/-- `decrypt_passkey` and the JSON in it. -/
def WebauthnRs.openPasskey (W : WebauthnRs) (P : Primitives) (key : MasterKey)
    (passkeyEnc : Bytes) : CoreResult W.Passkey := do
  let blob ← (openBytes P key passkeyEnc WebauthnCredentials.aad).mapError .store
  require (W.decodePasskey blob) .internal

/-- The passkey after an assertion, sealed. -/
def WebauthnRs.sealUpdated (W : WebauthnRs) (P : Primitives) (key : MasterKey) (nonce : Nonce)
    (passkey : W.Passkey) (result : AuthenticationResult) : StoreResult Bytes :=
  sealBytes P key nonce (W.encodePasskey (W.updateCredential passkey result))
    WebauthnCredentials.aad

/-- The signature counter in a sealed passkey. -/
def WebauthnRs.counterOf (W : WebauthnRs) (P : Primitives) (key : MasterKey)
    (passkeyEnc : Bytes) : Option Nat :=
  (W.openPasskey P key passkeyEnc).toOption.map W.counter

/-! ## Calls -/

/-- A ceremony of `webauthn_pending`, or one of `federation_webauthn_ceremony`. -/
inductive PasskeyCeremony where
  | pending (id : WebauthnPendingId)
  | federation (id : CeremonyId)
deriving DecidableEq

/-- What an assertion is for. -/
inductive PasskeyGoal where
  | signIn (pending : PendingMfaId)
  | stepUp (session : SessionId) (gate : String)

/-- The kind of its rows. -/
def PasskeyGoal.kind : PasskeyGoal → WebauthnPendingKind
  | .signIn _ => .authenticate
  | .stepUp _ _ => .stepUp

/-- The arguments of `finish_authentication`, and what follows it. -/
structure Assertion (W : WebauthnRs) where
  ceremony : WebauthnPendingId
  user : UserId
  credential : W.PublicKeyCredential
  goal : PasskeyGoal

/-- The requests around passkeys. -/
inductive PasskeyRequest (W : WebauthnRs) where
  /-- `webauthn_auth_complete`: the two cookies and the form. -/
  | signIn (pending : PendingMfaId) (ceremony : WebauthnPendingId) (credential : String)
  /-- `finish_webauthn`. -/
  | stepUp (user : UserId) (session : SessionId) (ceremony : WebauthnPendingId)
      (credential gate : String)
  /-- `promote_webauthn`. -/
  | federated (pending : FederationMfaPendingId) (browserBinding csrf : String)
      (credential : W.PublicKeyCredential)

/-- A request with what it carries to its next access. -/
inductive PasskeyCall (W : WebauthnRs) where
  -- `webauthn_auth_complete`
  | signInSubmitted (pending : PendingMfaId) (ceremony : WebauthnPendingId) (credential : String)
  -- `finish_authentication`
  | ceremonyWanted (a : Assertion W)
  | ceremonyExpired (a : Assertion W)
  | passkeyWanted (a : Assertion W) (result : AuthenticationResult)
  | passkeyRead (a : Assertion W) (row : UserWebauthnCredentialRow) (passkey : W.Passkey)
      (result : AuthenticationResult)
  | passkeyWritten (a : Assertion W)
  | finished (a : Assertion W)
  -- a factor that is to be counted as wrong
  | rejected (user : UserId) (goal : PasskeyGoal)
  -- `verify_webauthn`
  | fedSubmitted (pending : FederationMfaPendingId) (browserBinding csrf : String)
      (credential : W.PublicKeyCredential)
  | fedRowRead (row : FederationMfaPendingRow) (credential : W.PublicKeyCredential)
  | fedUserRead (row : FederationMfaPendingRow) (credential : W.PublicKeyCredential)
  | fedBound (row : FederationMfaPendingRow) (credential : W.PublicKeyCredential)
  | fedVerified (row : FederationMfaPendingRow) (ceremony : CeremonyId)
      (result : AuthenticationResult)
  | fedDecided (pending : FederationMfaPendingId) (proof : Option F03Proof)

/-- How a request starts.  A step-up whose form does not parse is a wrong factor. -/
def PasskeyRequest.start {W : WebauthnRs} : PasskeyRequest W → PasskeyCall W
  | .signIn pending ceremony credential => .signInSubmitted pending ceremony credential
  | .stepUp user session ceremony credential gate =>
    match W.parseCredential credential with
    | some credential => .ceremonyWanted ⟨ceremony, user, credential, .stepUp session gate⟩
    | none => .rejected user (.stepUp session gate)
  | .federated pending browserBinding csrf credential =>
    .fedSubmitted pending browserBinding csrf credential

/-- What a step of a call reads from the clock and the random generator, and whether the database
refuses its delete. -/
structure PasskeyDraw where
  now : DateTime
  nonce : Nonce
  sessionId : SessionId
  deleteRefused : Bool

/-- What an event answers. -/
inductive PasskeyAnswer where
  /-- The event is not the next access of that call. -/
  | ignored
  | running
  | refused (error : CoreError)
  | signedIn (ceremony : WebauthnPendingId) (session : SessionRow)
  | steppedUp (ceremony : WebauthnPendingId)
  | federated (proof : Option F03Proof) (outcome : F03Outcome)

/-- What a step of a call leaves: the database, the call, and its answer. -/
structure PasskeyResult (W : WebauthnRs) where
  db : Database
  next : Option (PasskeyCall W)
  out : PasskeyAnswer

namespace PasskeyResult

variable {W : WebauthnRs}

/-- The call goes on. -/
def goOn (db : Database) (next : PasskeyCall W) : PasskeyResult W := ⟨db, some next, .running⟩

/-- The call ends. -/
def done (db : Database) (out : PasskeyAnswer) : PasskeyResult W := ⟨db, none, out⟩

/-- The call ends with an error. -/
def refuse (db : Database) (error : CoreError) : PasskeyResult W := done db (.refused error)

end PasskeyResult

open PasskeyResult

section Advance

variable (W : WebauthnRs) (P : Primitives) (key : MasterKey) (maxLockoutSecs : Int)
  (db : Database) (draw : PasskeyDraw)

/-- The pending row of `webauthn_auth_complete`, and its form. -/
def readSignIn (pending : PendingMfaId) (ceremony : WebauthnPendingId) (credential : String) :
    PasskeyResult W :=
  match db.loginPendingMfa.get? pending with
  | none => refuse db .unauthenticated
  | some row =>
    if row.expiresAt < draw.now then refuse db .unauthenticated
    else
      match W.parseCredential credential with
      | none => refuse db .unauthenticated
      | some credential =>
        goOn db (.ceremonyWanted ⟨ceremony, row.userId, credential, .signIn row.id⟩)

variable {W} (a : Assertion W)

/-- The ceremony, which is of the right kind and this user's, and the verification. -/
def readCeremony : PasskeyResult W :=
  match db.webauthnPending.get? a.ceremony with
  | none => goOn db (.rejected a.user a.goal)
  | some pending =>
    if pending.kind != a.goal.kind || pending.userId != some a.user then
      goOn db (.rejected a.user a.goal)
    else if pending.expiresAt < draw.now then goOn db (.ceremonyExpired a)
    else
      match W.decodeState (utf8 pending.stateJson) with
      | none => refuse db .internal
      | some state =>
        match W.finishPasskeyAuthentication a.credential state with
        | none => goOn db (.rejected a.user a.goal)
        | some result => goOn db (.passkeyWanted a result)

/-- The passkey that signed. -/
def readPasskey (result : AuthenticationResult) : PasskeyResult W :=
  match WebauthnCredentials.findByCredentialId db result.credId with
  | none => goOn db (.rejected a.user a.goal)
  | some row =>
    if row.userId != a.user then goOn db (.rejected a.user a.goal)
    else
      match W.openPasskey P key row.passkeyEnc with
      | .error e => refuse db e
      | .ok passkey => goOn db (.passkeyRead a row passkey result)

/-- `update_passkey`, whatever the row holds by now.  A sign-in deletes its ceremony next. -/
def writePasskey (row : UserWebauthnCredentialRow) (passkey : W.Passkey)
    (result : AuthenticationResult) : PasskeyResult W :=
  match W.sealUpdated P key draw.nonce passkey result with
  | .error e => refuse db (.store e)
  | .ok passkeyEnc =>
    if (db.webauthnCredentials.get? row.id).isNone then refuse db (.store .notFound)
    else
      goOn (WebauthnCredentials.updatePasskey db row.id passkeyEnc draw.now)
        (if a.goal.kind != .stepUp then .passkeyWritten a else .finished a)

/-- L02 or L05. -/
def commitAssertion : PasskeyResult W :=
  match a.goal with
  | .signIn pending =>
    match complete db pending a.user .webauthn .webauthn draw.sessionId draw.now with
    | .ok (session, db) => done db (.signedIn a.ceremony session)
    | .error e => refuse db e
  | .stepUp session gate =>
    match completeStepUp db a.user session (.webauthn a.ceremony) gate draw.now with
    | .ok (_, db) => done db (.steppedUp a.ceremony)
    | .error .notFound => refuse db .unauthenticated
    | .error e => refuse db (.store e)

/-- L07 or L06.  A step-up answers the same when L06 fails. -/
def countRejected (W : WebauthnRs) (user : UserId) (goal : PasskeyGoal) : PasskeyResult W :=
  match goal with
  | .signIn _ =>
    match recordSecondFactorFailure db user maxLockoutSecs draw.now with
    | .ok (_, db) => refuse db .unauthenticated
    | .error e => refuse db (.store e)
  | .stepUp session _ =>
    match recordStepUpFailure db user session draw.now with
    | .ok (_, db) => refuse db .invalidCredentials
    | .error _ => refuse db .invalidCredentials

/-- The row of `bind_pending`, and its two digests. -/
def bindPending (pending : FederationMfaPendingId) (browserBinding csrf : String)
    (credential : W.PublicKeyCredential) : PasskeyResult W :=
  match db.federationMfaPending.get? pending with
  | none => refuse db .unauthenticated
  | some row =>
    if row.browserBindingSha256 != P.sha256 (utf8 browserBinding) ||
        row.csrfBindingSha256 != P.sha256 (utf8 csrf) then
      refuse db .unauthenticated
    else goOn db (.fedRowRead row credential)

/-- The ceremony of the row, and the verification. -/
def readFederatedCeremony (row : FederationMfaPendingRow) (credential : W.PublicKeyCredential) :
    PasskeyResult W :=
  match FederationWebauthnCeremony.findByPendingId db row.id with
  | none => goOn db (.fedDecided row.id (some (.rejected .methodMismatch)))
  | some ceremony =>
    match openBytes P key ceremony.ceremonyStateSealed
        (FederationWebauthnCeremony.buildAad row.id ceremony.providerId
          ceremony.providerConfigVersion ceremony.providerActivationGeneration
          ceremony.userId) with
    | .error _ =>
      refuse db (.store (.integrity "federated webauthn ceremony state failed to open"))
    | .ok statePlain =>
      match W.decodeState statePlain with
      | none => refuse db .internal
      | some state =>
        match W.finishPasskeyAuthentication credential state with
        | none => goOn db (.fedDecided row.id (some (.rejected .webauthn)))
        | some result => goOn db (.fedVerified row ceremony.id result)

/-- The passkey that signed, and what F03 is to swap it for. -/
def readFederatedPasskey (W : WebauthnRs) (row : FederationMfaPendingRow) (ceremony : CeremonyId)
    (result : AuthenticationResult) : PasskeyResult W :=
  match WebauthnCredentials.findByCredentialId db result.credId with
  | none => refuse db .unauthenticated
  | some credRow =>
    if credRow.userId != row.userId then refuse db .unauthenticated
    else
      match W.openPasskey P key credRow.passkeyEnc with
      | .error e => refuse db e
      | .ok passkey =>
        match W.sealUpdated P key draw.nonce passkey result with
        | .error e => refuse db (.store e)
        | .ok newSealed =>
          goOn db (.fedDecided row.id
            (some (.webauthn ceremony credRow.id credRow.passkeyEnc newSealed)))

/-- F03. -/
def commitFederated (W : WebauthnRs) (pending : FederationMfaPendingId) (proof : Option F03Proof) :
    PasskeyResult W :=
  match completeFederatedMfa P key db pending proof draw.sessionId draw.now with
  | .ok (outcome, db) => done db (.federated proof outcome)
  | .error .notFound => refuse db .unauthenticated
  | .error .conflict => refuse db .unauthenticated
  | .error e => refuse db (.store e)

/-- The next access of a call. -/
def PasskeyCall.advance : PasskeyCall W → PasskeyResult W
  | .signInSubmitted pending ceremony credential => readSignIn W db draw pending ceremony credential
  | .ceremonyWanted a => readCeremony db draw a
  | .ceremonyExpired a =>
    goOn (WebauthnPending.discard db a.ceremony draw.deleteRefused) (.rejected a.user a.goal)
  | .passkeyWanted a result => readPasskey P key db a result
  | .passkeyRead a row passkey result => writePasskey P key db draw a row passkey result
  | .passkeyWritten a =>
    goOn (WebauthnPending.discard db a.ceremony draw.deleteRefused) (.finished a)
  | .finished a => commitAssertion db draw a
  | .rejected user goal => countRejected maxLockoutSecs db draw W user goal
  | .fedSubmitted pending browserBinding csrf credential =>
    bindPending P db pending browserBinding csrf credential
  | .fedRowRead row credential =>
    if Users.isActive db row.userId then goOn db (.fedUserRead row credential)
    else refuse db .unauthenticated
  | .fedUserRead row credential =>
    if !(db.federationProvider.get? row.providerId).any (·.enabled) then
      refuse db .unauthenticated
    else if row.status != .pending then refuse db .unauthenticated
    else if row.expiresAt ≤ draw.now then goOn db (.fedDecided row.id none)
    else goOn db (.fedBound row credential)
  | .fedBound row credential => readFederatedCeremony P key db row credential
  | .fedVerified row ceremony result => readFederatedPasskey P key db draw W row ceremony result
  | .fedDecided pending proof => commitFederated P key db draw W pending proof

end Advance

/-! ## Runs -/

abbrev PasskeyCallId := Nat

/-- The database and the requests in flight. -/
structure PasskeyWorld (W : WebauthnRs) where
  db : Database
  calls : PasskeyCallId → Option (PasskeyCall W)
  ceremonyIds : List WebauthnPendingId
  federatedIds : List CeremonyId

/-- No call is in flight.  The ceremonies so far are those of the rows. -/
def PasskeyWorld.start (W : WebauthnRs) (db : Database) : PasskeyWorld W where
  db := db
  calls _ := none
  ceremonyIds := db.webauthnPending.rows.map (·.id)
  federatedIds := db.federationWebauthnCeremony.rows.map (·.id)

/-- A request, its next access, or another write. -/
inductive PasskeyEvent (W : WebauthnRs) where
  | begin (id : PasskeyCallId) (request : PasskeyRequest W)
  /-- The next access of a call. -/
  | next (id : PasskeyCallId) (draw : PasskeyDraw)
  /-- The insert of `start_registration` or `start_authentication`. -/
  | startCeremony (row : WebauthnPendingRow)
  -- F06, U15
  | beginFederationWebauthnCeremony (pending : FederationMfaPendingId)
      (ceremonyStateSealed : Bytes) (rpId origin : String) (id : CeremonyId) (now : DateTime)
  | registerPasskey (row : UserWebauthnCredentialRow)
  /-- A write to any other table, which may delete ceremonies and passkeys, and rename a
  passkey. -/
  | elsewhere (db : Database)

/-- The rows of `t` that are still there in `other`. -/
def stillIn {κ ρ : Type} [DecidableEq κ] {keyOf : ρ → κ} (t other : Table keyOf) : Table keyOf :=
  t.delete fun r => (other.get? (keyOf r)).isNone

/-- The nickname that `other` has for the passkey. -/
def renamedIn (other : Database) (c : UserWebauthnCredentialRow) : UserWebauthnCredentialRow :=
  match other.webauthnCredentials.get? c.id with
  | some c' => { c with nickname := c'.nickname }
  | none => c

theorem renamedIn_id (other : Database) (c : UserWebauthnCredentialRow) :
    (renamedIn other c).id = c.id := by
  unfold renamedIn
  split
  · rfl
  · rfl

namespace PasskeyWorld

variable {W : WebauthnRs}

/-- A transaction beside the calls. -/
def commit {α : Type} (w : PasskeyWorld W) (result : StoreResult (α × Database)) :
    PasskeyWorld W × PasskeyAnswer :=
  match result with
  | .ok (_, db) => ({ w with db }, .running)
  | .error e => (w, .refused (.store e))

/-- A write of the rest of the program. -/
def overwrite (w : PasskeyWorld W) (other : Database) : PasskeyWorld W :=
  { w with db := { other with
      webauthnPending := stillIn w.db.webauthnPending other.webauthnPending
      federationWebauthnCeremony :=
        stillIn w.db.federationWebauthnCeremony other.federationWebauthnCeremony
      webauthnCredentials :=
        (stillIn w.db.webauthnCredentials other.webauthnCredentials).update (fun _ => true)
          (renamedIn other) (renamedIn_id other) } }

end PasskeyWorld

section Steps

variable {W : WebauthnRs} (P : Primitives) (key : MasterKey) (maxLockoutSecs : Int)

/-- One event. -/
def passkeyStep (w : PasskeyWorld W) : PasskeyEvent W → PasskeyWorld W × PasskeyAnswer
  | .begin id request =>
    match w.calls id with
    | none => ({ w with calls := Function.update w.calls id (some request.start) }, .running)
    | some _ => (w, .ignored)
  | .next id draw =>
    match w.calls id with
    | none => (w, .ignored)
    | some call =>
      let result := call.advance P key maxLockoutSecs w.db draw
      ({ w with db := result.db, calls := Function.update w.calls id result.next }, result.out)
  | .startCeremony row =>
    let w := { w with ceremonyIds := row.id :: w.ceremonyIds }
    w.commit do
      let db ← WebauthnPending.insert w.db row
      pure ((), db)
  | .beginFederationWebauthnCeremony pending ceremonyStateSealed rpId origin id now =>
    let w := { w with federatedIds := id :: w.federatedIds }
    w.commit (SuiId.beginFederationWebauthnCeremony w.db pending ceremonyStateSealed rpId origin
      id now)
  | .registerPasskey row => w.commit (SuiId.registerPasskey w.db row)
  | .elsewhere other => (w.overwrite other, .running)

/-- A step of a run. -/
abbrev PasskeyTaken (W : WebauthnRs) :=
  Machine.Taken (PasskeyWorld W) (PasskeyEvent W) PasskeyAnswer

end Steps

/-! ## A database to run on -/

/-- A passkey is its counter, and an assertion the challenge that it answers with a digit. -/
def WebauthnRs.sample : WebauthnRs where
  PublicKeyCredential := Char × Nat
  PasskeyAuthentication := Char
  Passkey := Nat
  parseCredential text :=
    match text.toList with
    | [challenge, digit] => some (challenge, digit.toNat - '0'.toNat)
    | _ => none
  decodeState blob := blob.head?.map fun b => Char.ofNat b.toNat
  finishPasskeyAuthentication credential challenge :=
    if credential.1 = challenge then some ⟨[1], credential.2⟩ else none
  encodePasskey counter := List.replicate counter 0
  decodePasskey blob := some blob.length
  updateCredential counter result := max counter result.counter
  counter passkey := passkey

theorem WebauthnRs.sample_lawful : WebauthnRs.sample.Lawful where
  decode_encode passkey := congrArg some (List.length_replicate (n := passkey))
  counter_update _ _ := rfl

private theorem passkeyDb_users : ([plainUser 7 "ada" .user].map UserRow.id).Nodup := by decide

/-- User 7 with a passkey whose counter is 1, two sign-ins that wait for it, and a session.
Ceremony 30 is for a sign-in and ceremony 31 for a step-up. -/
def passkeyDb : Database :=
  let passkeyEnc := sealBytes .transparent (.constant 7) (.constant 0) [0] WebauthnCredentials.aad
  { Database.empty with
    users := ⟨[plainUser 7 "ada" .user], passkeyDb_users⟩
    sessions := ⟨[{ id := 40, userId := 7, expiresAt := seconds 3600, createdAt := 0
                    revokedAt := none, authMethods := [.pwd], lastStepUpAt := none
                    lastStepUpMethod := none, lastUsedAt := none }], by decide⟩
    webauthnCredentials := ⟨[{ id := 50, userId := 7, credentialId := [1]
                               passkeyEnc := passkeyEnc.toOption.getD [], nickname := "Passkey"
                               createdAt := 0, lastUsedAt := none }], by decide⟩
    webauthnPending := ⟨[⟨30, .authenticate, some 7, "c", seconds 300, 0⟩,
      ⟨31, .stepUp, some 7, "d", seconds 300, 0⟩], by decide⟩
    loginPendingMfa := ⟨[⟨20, 7, seconds 300, 0⟩, ⟨21, 7, seconds 300, 0⟩], by decide⟩ }

/-- A draw of that session, at the end of the first minute. -/
def PasskeyDraw.sample (sessionId : SessionId) : PasskeyDraw where
  now := seconds 60
  nonce := .constant 0
  sessionId := sessionId
  deleteRefused := false

end SuiId

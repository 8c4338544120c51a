import SuiId.Core.Login
import SuiId.Store.TotpRows

/-!
# The flows of a TOTP factor

Every call that reads or writes a TOTP row, cut at its accesses to the database.  Those
of a sign-in are in `FlowCall`; the others are

* `start_enrollment`: the row, and then `upsert_pending`;
* `confirm_enrollment`: the row and the check of the code, and then U12;
* `regenerate_recovery_codes`: the row, and then U14;
* `verify_totp_code`: the row and the check of the code, and then L05;
* `disable` with U13 and `admin_reset_mfa` with U07, one transaction each.

A code is checked against the row that was read, before the transaction that spends it.

The world keeps a history that no code reads: the last check of a code in each call, the
number of enrolments that each user has begun, and the recovery codes issued last.
-/

namespace SuiId

open Lib Lib.Result

/-- A recovery code and the Argon2 hash that is stored of it. -/
structure RecoveryCode where
  code : String
  hash : String
deriving DecidableEq

/-- `totp::verify` on a sealed secret. -/
def verifySealed (P : Primitives) (key : MasterKey) (row : UserTotpRow) (digits : Nat)
    (now : DateTime) : CoreResult (Option Int) := do
  let secret ← (openBytes P key row.secretEnc UserTotp.aad).mapError .store
  pure (Totp.verify P secret (now / 1000000000) digits row.lastUsedStep)

/-- Serialize and seal the hashes of new recovery codes. -/
def sealCodes (P : Primitives) (key : MasterKey) (nonce : Nonce) (codes : List RecoveryCode) :
    CoreResult Bytes :=
  (sealBytes P key nonce (P.encodeTexts (codes.map (·.hash))) UserTotp.recoveryAad).mapError .store

/-! ## Calls -/

/-- The requests that read or write factors. -/
inductive FactorRequest where
  | signIn (request : FlowRequest)
  | startEnrollment (user : UserId)
  | confirmEnrollment (user : UserId) (suppliedCode : Nat)
  | disable (user : UserId)
  | regenerateRecoveryCodes (user : UserId)
  | adminResetMfa (admin : UserId) (session : SessionId) (target : UserId)
      (reason : Option String)
  /-- `verify_totp_code`. -/
  | stepUp (user : UserId) (session : SessionId) (codeInput gate : String)

/-- A request with what it carries to its next access. -/
inductive FactorCall where
  | signIn (call : FlowCall)
  -- `start_enrollment`
  | enrollSubmitted (user : UserId)
  | enrollSealed (user : UserId) (secret secretEnc : Bytes)
  -- `confirm_enrollment`
  | confirmSubmitted (user : UserId) (suppliedCode : Nat)
  | confirmVerified (user : UserId) (step : Int) (codes : List RecoveryCode)
      (sealedRecoveryCodes : Bytes)
  | disableSubmitted (user : UserId)
  -- `regenerate_recovery_codes`
  | regenerateSubmitted (user : UserId)
  | regenerateSealed (user : UserId) (codes : List RecoveryCode) (sealedRecoveryCodes : Bytes)
  | resetSubmitted (admin : UserId) (session : SessionId) (target : UserId)
      (reason : Option String)
  -- `verify_totp_code`
  | stepUpSubmitted (user : UserId) (session : SessionId) (codeInput gate : String)
  | stepUpVerified (user : UserId) (session : SessionId) (step : Int) (gate : String)

/-- What a request begins with. -/
def FactorRequest.start : FactorRequest → Option FactorCall
  | .signIn request => request.start.map .signIn
  | .startEnrollment user => some (.enrollSubmitted user)
  | .confirmEnrollment user suppliedCode => some (.confirmSubmitted user suppliedCode)
  | .disable user => some (.disableSubmitted user)
  | .regenerateRecoveryCodes user => some (.regenerateSubmitted user)
  | .adminResetMfa admin session target reason =>
    some (.resetSubmitted admin session target reason)
  | .stepUp user session codeInput gate => some (.stepUpSubmitted user session codeInput gate)

/-- What a step of a call reads from the clock, the random generator and the hash. -/
structure FactorDraw where
  flow : FlowDraw
  secret : Bytes
  codes : List RecoveryCode

/-- Its clock value. -/
def FactorDraw.now (draw : FactorDraw) : DateTime := draw.flow.now

/-- What an event answers. -/
inductive FactorAnswer where
  /-- The event is not the next access of that call. -/
  | ignored
  | running
  | refused (error : CoreError)
  | flow (out : FlowAnswer)
  | enrolling (secret : Bytes)
  | confirmed (codes : List RecoveryCode)
  | disabled
  | regenerated (codes : List RecoveryCode)
  | reset (totpRemoved : Bool) (passkeysRemoved : Nat)
  | steppedUp

/-- What a step of a call leaves: the database, the call, and its answer. -/
structure FactorResult where
  db : Database
  next : Option FactorCall
  out : FactorAnswer

namespace FactorResult

/-- The call goes on. -/
def goOn (db : Database) (next : FactorCall) : FactorResult := ⟨db, some next, .running⟩

/-- The call ends. -/
def done (db : Database) (out : FactorAnswer) : FactorResult := ⟨db, none, out⟩

/-- The call ends with an error. -/
def refuse (db : Database) (error : CoreError) : FactorResult := done db (.refused error)

/-- The call ends with a transaction. -/
def commit {α : Type} (db : Database) (result : StoreResult (α × Database))
    (out : α → FactorAnswer) (error : StoreError → CoreError) : FactorResult :=
  match result with
  | .ok (value, db) => done db (out value)
  | .error e => refuse db (error e)

end FactorResult

open FactorResult

/-- `NotFound` has an error of its own. -/
def notFoundAs (error : CoreError) : StoreError → CoreError
  | .notFound => error
  | e => .store e

section Advance

variable (P : Primitives) (key : MasterKey) (maxLockoutSecs : Int) (db : Database)
  (draw : FactorDraw)

/-- The row of `start_enrollment`, and its new secret. -/
def startEnrollment (user : UserId) : FactorResult :=
  if (db.totpOf user).any (·.enabled) then
    refuse db (.conflict "MFA is already enabled; disable it before re-enrolling")
  else
    match sealBytes P key draw.flow.nonce draw.secret UserTotp.aad with
    | .ok secretEnc => goOn db (.enrollSealed user draw.secret secretEnc)
    | .error e => refuse db (.store e)

/-- The row of `confirm_enrollment`, the check of the code, and the recovery codes. -/
def confirmEnrollment (user : UserId) (suppliedCode : Nat) : FactorResult :=
  match db.totpOf user with
  | none => refuse db (.badRequest "no pending TOTP enrolment")
  | some row =>
    if row.enabled then refuse db (.conflict "MFA is already enabled; nothing to confirm")
    else
      match verifySealed P key row suppliedCode draw.now with
      | .error e => refuse db e
      | .ok none => refuse db (.badRequest "verification code is incorrect")
      | .ok (some step) =>
        match sealCodes P key draw.flow.nonce draw.codes with
        | .ok sealedCodes => goOn db (.confirmVerified user step draw.codes sealedCodes)
        | .error e => refuse db e

/-- The row of `regenerate_recovery_codes`, and the new codes. -/
def regenerateCodes (user : UserId) : FactorResult :=
  match db.totpOf user with
  | none => refuse db .notFound
  | some row =>
    if !row.enabled then refuse db (.badRequest "MFA is not enabled")
    else
      match sealCodes P key draw.flow.nonce draw.codes with
      | .ok sealedCodes => goOn db (.regenerateSealed user draw.codes sealedCodes)
      | .error e => refuse db e

/-- The row of `verify_totp_code`, and the check of the code.  A recovery code is refused. -/
def verifyTotpCode (user : UserId) (session : SessionId) (codeInput gate : String) :
    FactorResult :=
  match (db.totpOf user).filter (·.enabled) with
  | none => refuse db .invalidCredentials
  | some row =>
    match parseU32 (Text.trim codeInput) with
    | none => refuse db .invalidCredentials
    | some digits =>
      match verifySealed P key row digits draw.now with
      | .error e => refuse db e
      | .ok none => refuse db .invalidCredentials
      | .ok (some step) => goOn db (.stepUpVerified user session step gate)

/-- The next access of a call. -/
def FactorCall.advance : FactorCall → FactorResult
  | .signIn call =>
    let result := call.advance P key maxLockoutSecs db draw.flow
    ⟨result.db, result.next.map .signIn, .flow result.out⟩
  | .enrollSubmitted user => startEnrollment P key db draw user
  | .enrollSealed user secret secretEnc =>
    match UserTotp.upsertPending db user secretEnc draw.now with
    | .ok db => done db (.enrolling secret)
    | .error e => refuse db (.store e)
  | .confirmSubmitted user suppliedCode => confirmEnrollment P key db draw user suppliedCode
  | .confirmVerified user step codes sealedCodes =>
    commit db (confirmTotpEnrollment db user sealedCodes step draw.now) (fun _ => .confirmed codes)
      .store
  | .disableSubmitted user =>
    commit db (disableTotp db user) (fun _ => .disabled) (notFoundAs .notFound)
  | .regenerateSubmitted user => regenerateCodes P key db draw user
  | .regenerateSealed user codes sealedCodes =>
    commit db (SuiId.regenerateRecoveryCodes db user sealedCodes) (fun _ => .regenerated codes)
      .store
  | .resetSubmitted admin session target reason =>
    commit db (SuiId.adminResetMfa db admin session target reason draw.now)
      (fun (totp, passkeys) => .reset totp passkeys) .store
  | .stepUpSubmitted user session codeInput gate =>
    verifyTotpCode P key db draw user session codeInput gate
  | .stepUpVerified user session step gate =>
    commit db (completeStepUp db user session (.totp step) gate draw.now) (fun _ => .steppedUp)
      (notFoundAs .unauthenticated)

end Advance

/-! ## Runs -/

abbrev FactorCallId := Nat

/-- A check of a code: the row it was checked against, the clock, and the number of the
user's enrolment. -/
structure FactorCheck where
  row : UserTotpRow
  code : String
  now : DateTime
  enrollment : Nat

/-- The set of recovery codes that a user was given last. -/
structure CodeSet where
  number : Nat
  codes : List RecoveryCode

/-- The database and the requests in flight. -/
structure FactorWorld where
  db : Database
  calls : FactorCallId → Option FactorCall
  checks : FactorCallId → Option FactorCheck
  enrollments : UserId → Nat
  issued : UserId → CodeSet

/-- No call is in flight.  The codes are those of the stored sets. -/
def FactorWorld.start (db : Database) (codes : UserId → List RecoveryCode) : FactorWorld where
  db := db
  calls _ := none
  checks _ := none
  enrollments _ := 0
  issued user := ⟨0, codes user⟩

/-- A request, its next access, or another write. -/
inductive FactorEvent where
  | begin (id : FactorCallId) (request : FactorRequest)
  /-- The next access of a call. -/
  | next (id : FactorCallId) (draw : FactorDraw)
  /-- A write to any other table. -/
  | elsewhere (db : Database)

/-- The user whose row is read next to check a code, and the code. -/
def FactorCall.checking : FactorCall → Option (UserId × String)
  | .signIn (.pendingRead pending code) => some (pending.userId, code)
  | .signIn (.fedWithoutCeremony row code _) => some (row.userId, code)
  | .confirmSubmitted user suppliedCode => some (user, toString suppliedCode)
  | .stepUpSubmitted user _ codeInput _ => some (user, codeInput)
  | _ => none

/-- The recovery codes that the call is about to store. -/
def FactorCall.codes : FactorCall → List RecoveryCode
  | .confirmVerified _ _ codes _ => codes
  | .regenerateSealed _ codes _ => codes
  | _ => []

/-- What a sign-in writes in the step that it answers with a session. -/
def FlowCall.totpWrite : FlowCall → FlowAnswer → Option (UserId × TotpWrite)
  | .codeChecked pending (some proof) _, .signedIn _ => proof.totpWrite pending.userId
  | .fedDecided _ proof _, .signedIn session =>
    (proof.bind F03Proof.secondFactor).bind fun p => p.totpWrite session.userId
  | _, _ => none

/-- The TOTP row that a step of a call writes, and how, given its answer. -/
def FactorCall.write (call : FactorCall) (now : DateTime) (out : FactorAnswer) :
    Option (UserId × TotpWrite) :=
  match call, out with
  | .signIn call, .flow out => call.totpWrite out
  | .enrollSealed user _ secretEnc, .enrolling _ => some (user, .enroll secretEnc now)
  | .confirmVerified user step _ sealedCodes, .confirmed _ =>
    some (user, .confirm sealedCodes step now)
  | .disableSubmitted user, .disabled => some (user, .remove)
  | .regenerateSealed user _ sealedCodes, .regenerated _ => some (user, .replaceCodes sealedCodes)
  | .resetSubmitted _ _ target _, .reset _ _ => some (target, .remove)
  | .stepUpVerified user _ step _, .steppedUp => some (user, .advance step)
  | _, _ => none

namespace FactorWorld

/-- The check that the call makes in its next step, if there is a row to read. -/
def check (w : FactorWorld) (call : FactorCall) (now : DateTime) : Option FactorCheck := do
  let (user, code) ← call.checking
  let row ← w.db.totpOf user
  pure ⟨row, code, now, w.enrollments user⟩

/-- The sets after a user was given a new one. -/
def issue (w : FactorWorld) (user : UserId) (codes : List RecoveryCode) : UserId → CodeSet :=
  Function.update w.issued user ⟨(w.issued user).number + 1, codes⟩

/-- The world after a step of the call. -/
def after (w : FactorWorld) (id : FactorCallId) (call : FactorCall) (draw : FactorDraw)
    (result : FactorResult) : FactorWorld where
  db := result.db
  calls := Function.update w.calls id result.next
  checks :=
    match w.check call draw.now with
    | some check => Function.update w.checks id (some check)
    | none => w.checks
  enrollments :=
    match call.write draw.now result.out with
    | some (user, .enroll ..) => Function.update w.enrollments user (w.enrollments user + 1)
    | _ => w.enrollments
  issued :=
    match call.write draw.now result.out with
    | some (user, .confirm ..) => w.issue user call.codes
    | some (user, .replaceCodes _) => w.issue user call.codes
    | _ => w.issued

/-- A write of the rest of the program. -/
def overwrite (w : FactorWorld) (db : Database) : FactorWorld :=
  { w with db := { db with userTotp := w.db.userTotp } }

/-- The TOTP row that an event writes, and how, given its answer. -/
def write (w : FactorWorld) (e : FactorEvent) (out : FactorAnswer) : Option (UserId × TotpWrite) :=
  match e with
  | .next id draw => (w.calls id).bind fun call => call.write draw.now out
  | _ => none

end FactorWorld

section Steps

variable (P : Primitives) (key : MasterKey) (maxLockoutSecs : Int)

/-- One event. -/
def factorStep (w : FactorWorld) : FactorEvent → FactorWorld × FactorAnswer
  | .begin id request =>
    match w.calls id, request.start with
    | none, some call => ({ w with calls := Function.update w.calls id (some call) }, .running)
    | none, none => (w, .refused .unauthenticated)
    | some _, _ => (w, .ignored)
  | .next id draw =>
    match w.calls id with
    | none => (w, .ignored)
    | some call =>
      let result := call.advance P key maxLockoutSecs w.db draw
      (w.after id call draw result, result.out)
  | .elsewhere db => (w.overwrite db, .running)

/-- Where a run ends. -/
abbrev factorRun : FactorWorld → List FactorEvent → FactorWorld :=
  Machine.run (factorStep P key maxLockoutSecs)

/-- A step of a run. -/
abbrev FactorTaken := Machine.Taken FactorWorld FactorEvent FactorAnswer

/-- The steps of a run. -/
abbrev factorTrace : FactorWorld → List FactorEvent → List FactorTaken :=
  Machine.trace (factorStep P key maxLockoutSecs)

end Steps

/-! ## A database to run on -/

/-- A draw at that time, with one recovery code. -/
def FactorDraw.sample (now : DateTime) : FactorDraw where
  flow := .sample now
  secret := [1]
  codes := [⟨"c", "c"⟩]

private theorem factorDb_users : ([plainUser 7 "ada" .user].map UserRow.id).Nodup := by decide

private theorem factorDb_sessions :
    (([{ id := 40, userId := 7, expiresAt := seconds 3600, createdAt := 0
         revokedAt := none, authMethods := [.pwd], lastStepUpAt := none
         lastStepUpMethod := none, lastUsedAt := none }] : List SessionRow).map
      SessionRow.id).Nodup := List.nodup_singleton _

/-- User 7 with a session and no factor. -/
def factorDb : Database :=
  { Database.empty with
    users := ⟨[plainUser 7 "ada" .user], factorDb_users⟩
    sessions := ⟨[{ id := 40, userId := 7, expiresAt := seconds 3600, createdAt := 0
                    revokedAt := none, authMethods := [.pwd], lastStepUpAt := none
                    lastStepUpMethod := none, lastUsedAt := none }], factorDb_sessions⟩ }

/-- User 7 enrols an authenticator at the end of the first minute. -/
def enrolled : List FactorEvent :=
  let draw := .sample (seconds 60)
  [.begin 1 (.startEnrollment 7), .next 1 draw, .next 1 draw,
    .begin 2 (.confirmEnrollment 7 0), .next 2 draw, .next 2 draw]

end SuiId

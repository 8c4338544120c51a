import SuiId.Core.Mfa
import SuiId.Store.FederationMfa

/-!
# A code for a federated sign-in

`verify` of `authn/federated_mfa.rs` reads the pending row, what it names, and the user's TOTP
row, and checks the code.  It writes nothing.  `promote` hands what it found to F03.

A call reads the clock for the expiry of the row, for the window of a TOTP code, and for F03.
-/

namespace SuiId

open Lib Lib.Result

/-- `generate_recovery_code` of its random bytes: fifteen characters in groups of five. -/
def generateRecoveryCode (P : Primitives) (bytes : Bytes) : String :=
  let s := (P.base64Url bytes).toList.take 15
  String.ofList (s.zipIdx.flatMap fun (c, i) => if i == 5 || i == 10 then ['-', c] else [c])

namespace FederatedMfa

/-! ## Errors -/

/-- A `BindingFailure`, or anything else that a store call fails with.  `InvalidData` is apart
from the errors of the store, which no modelled command of it returns. -/
inductive VerifyError where
  | binding
  | internal (error : StoreError)
  | invalidData (message : String)

/-- What a verification returns. -/
abbrev VerifyResult := Except VerifyError

/-- `classify_store_error`. -/
def classifyStoreError : StoreError → VerifyError
  | .notFound => .binding
  | other => .internal other

/-- `classify_f03_error`. -/
def classifyF03Error : StoreError → VerifyError
  | .notFound | .conflict => .binding
  | other => .internal other

/-- `RejectedReason`. -/
inductive RejectedReason where
  | totp
  | recovery
  | webauthn
  | malformed
  | methodMismatch

/-- `convert_rejection_reason`. -/
def convertRejectionReason : RejectedReason → MfaRejectionReason
  | .totp => .totp
  | .recovery => .recovery
  | .webauthn => .webauthn
  | .malformed => .malformed
  | .methodMismatch => .methodMismatch

/-! ## The submission -/

/-- What a browser submits.  The identifier is missing when its text does not parse. -/
structure Submission where
  pendingId : Option FederationMfaPendingId
  browserBindingCookie : String
  csrfBodyValue : String
  codeInput : String

/-- The readings of the clock in their order, and the two draws. -/
structure Draw where
  boundAt : DateTime
  checkedAt : DateTime
  now : DateTime
  nonce : Nonce
  sessionId : SessionId

/-- The row of a submission, or that it has expired. -/
inductive Bound where
  | expired
  | row (row : FederationMfaPendingRow)

/-- `FederatedMfaOutcome`, of a code. -/
inductive Outcome where
  | totp (step : Int)
  | recovery (expectedSealed newSealed : Bytes)
  | rejected (reason : RejectedReason)
  | expired

/-! ## Verification -/

section Verify

variable (P : Primitives) (key : MasterKey) (db : Database)

/-- The row with both of its digests, its user, its provider and its status; then its expiry. -/
def bindPending (s : Submission) (now : DateTime) : VerifyResult Bound := do
  let pendingId ← require s.pendingId .binding
  let row ← require (db.federationMfaPending.get? pendingId) .binding
  ensure (row.browserBindingSha256 == P.sha256 (utf8 s.browserBindingCookie) &&
    row.csrfBindingSha256 == P.sha256 (utf8 s.csrfBodyValue)) .binding
  let user ← require (db.users.get? row.userId) .binding
  ensure (Users.active user) .binding
  let provider ← require (db.federationProvider.get? row.providerId) .binding
  ensure provider.enabled .binding
  ensure (row.status == .pending) .binding
  pure (if row.expiresAt ≤ now then .expired else .row row)

/-- `match_recovery_code`: the blob, and the blob without the first hash that matches. -/
def matchRecoveryCode (nonce : Nonce) (totpRow : UserTotpRow) (candidate : String) :
    VerifyResult (Option (Bytes × Bytes)) :=
  match totpRow.recoveryCodesEnc with
  | none => pure none
  | some expectedSealed => do
    let blob ← (openBytes P key expectedSealed UserTotp.recoveryAad).mapError classifyStoreError
    let hashes ← require (P.decodeTexts blob) (.invalidData "malformed recovery codes")
    match hashes.findIdx? fun h => P.verifyPassword candidate h with
    | none => pure none
    | some i =>
      let newBlob := P.encodeTexts (hashes.eraseIdx i)
      let newSealed ← (sealBytes P key nonce newBlob UserTotp.recoveryAad).mapError
        classifyStoreError
      pure (some (expectedSealed, newSealed))

/-- Digits are a TOTP code, and anything else but nothing at all a recovery code. -/
def checkCode (totpRow : UserTotpRow) (codeInput : String) (draw : Draw) : VerifyResult Outcome :=
  let trimmed := Text.trim codeInput
  if trimmed.isEmpty then pure (.rejected .malformed)
  else
    match parseU32 trimmed with
    | some digits => do
      let secret ← (openBytes P key totpRow.secretEnc UserTotp.aad).mapError classifyStoreError
      match Totp.verify P secret (draw.checkedAt / 1000000000) digits totpRow.lastUsedStep with
      | some step => pure (.totp step)
      | none => pure (.rejected .totp)
    | none => do
      match ← matchRecoveryCode P key draw.nonce totpRow trimmed with
      | some (expectedSealed, newSealed) => pure (.recovery expectedSealed newSealed)
      | none => pure (.rejected .recovery)

/-- `verify`.  A ceremony of the row, whatever its expiry, makes a code the wrong method. -/
def verify (s : Submission) (draw : Draw) : VerifyResult Outcome := do
  match ← bindPending P db s draw.boundAt with
  | .expired => pure .expired
  | .row row =>
    if (FederationWebauthnCeremony.findByPendingId db row.id).isSome then
      pure (.rejected .methodMismatch)
    else
      let totpRow ← require (db.userTotp.get? row.userId) .binding
      ensure totpRow.enabled .binding
      checkCode P key totpRow s.codeInput draw

/-- The proof that `promote` gives to F03. -/
def Outcome.proof : Outcome → Option F03Proof
  | .totp step => some (.totp step)
  | .recovery expectedSealed newSealed => some (.recovery expectedSealed newSealed)
  | .rejected reason => some (.rejected (convertRejectionReason reason))
  | .expired => none

/-- `promote`. -/
def promote (s : Submission) (draw : Draw) : VerifyResult (F03Outcome × Database) := do
  let outcome ← verify P key db s draw
  let pendingId ← require s.pendingId .binding
  (completeFederatedMfa P key db pendingId outcome.proof draw.sessionId draw.now).mapError
    classifyF03Error

end Verify

end FederatedMfa

end SuiId
